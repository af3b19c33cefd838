/-
RcloneSync/JobDisplay.lean

The status under which a job is shown (db.py).

A restore drill that checked fewer files than asked for used to be stored as an error; it is shown
as a warning (`is_partial_restore_summary`).  The rule is written three times: for a row that is
shown (`_row_to_dict`), in the SQL that counts by status (`job_statistics`), and in the filter of
the lists (`_job_filter`).  The three differ in what they take for a missing or broken summary,
and in whose rows they look at it at all.

`display_status_agrees`: where every row can be shown, they count the same, for every status but
the empty one.  The filter takes an empty status for none (`not_status_count`).
-/
import Mathlib.Algebra.BigOperators.Group.List.Lemmas
import Mathlib.Data.List.Dedup
import RcloneSync.JobStore
import RcloneSync.JsonDecode
import RcloneSync.RestoreEvidence

namespace RcloneSync

open Py

/-! ### Rows -/

/-- The columns of `jobs` that are read here. -/
structure JobRow where
  id : Nat
  kind : String
  status : String
  startedAt : Time
  summaryJson : Option String
  logFile : Option String
  definitionId : Option String
  definitionName : Option String
  deriving DecidableEq

/-- `is_partial_restore_summary`, for a value of any type. -/
def isPartialSummary : Value → Except PyError Bool
  | .dict summary => isPartialRestoreSummary summary
  | .none | .bool _ | .int _ | .float _ | .str _ | .list _ => .ok false

/-- `_historical_restore_warning`, on a row with any text as its status. -/
def JobRow.historicalRestoreWarning (r : JobRow) : Except PyError Bool :=
  if r.kind ≠ "restoretest" ∨ r.status ≠ "error" then .ok false
  else
    let text := if r.summaryJson.getD "" = "" then "\x7b\x7d" else r.summaryJson.getD ""
    (jsonLoads text).elim (.ok false) isPartialSummary

/-- `data["summary"]`, with `none` for a missing summary and for one that cannot be read. -/
def JobRow.summary (r : JobRow) : Value :=
  if r.summaryJson.getD "" = "" then .none else (jsonLoads (r.summaryJson.getD "")).getD .none

/-- The status of a row that is shown: `display_status` where `_row_to_dict` sets it, else
`status`. -/
def JobRow.displayStatus (r : JobRow) : Except PyError String :=
  if r.kind = "restoretest" ∧ (r.status = "error" ∨ r.status = "warning") then do
    let isPartial ← isPartialSummary (pyOr r.summary (.dict []))
    .ok (if isPartial then "warning" else r.status)
  else .ok r.status

/-! ### Lists and their filters -/

structure JobFilter where
  kind : Option String
  status : Option String
  query : Option String

/-- The filter that asks for a status. -/
def JobFilter.byStatus (status : String) : JobFilter := ⟨none, some status, none⟩

/-- `LOWER(text) LIKE '%needle%'`: SQLite knows the case of ASCII letters. -/
def likeContains (needle : String) (text : Option String) : Bool :=
  let asciiLower := fun s : String => String.ofList (s.toList.map Char.toLower)
  containsText (asciiLower needle) (asciiLower (text.getD ""))

/-- The clause for the status. -/
def JobFilter.hasStatus (f : JobFilter) (r : JobRow) : Except PyError Bool :=
  let status := f.status.getD ""
  if status = "" then .ok true
  else if status = "warning" then
    if r.status = "warning" then .ok true
    else if r.status = "error" then r.historicalRestoreWarning
    else .ok false
  else if status = "error" then
    if r.status = "error" then
      r.historicalRestoreWarning.map fun isPartial => !isPartial
    else .ok false
  else .ok (r.status = status)

/-- The clause for the search text. -/
def JobFilter.hasText (f : JobFilter) (r : JobRow) : Bool :=
  let needle := casefold (strip (f.query.getD ""))
  needle = "" || toString r.id = needle || likeContains needle r.summaryJson ||
    likeContains needle r.logFile || likeContains needle r.definitionId ||
    likeContains needle r.definitionName

/-- The condition that `_job_filter` builds. -/
def JobFilter.accepts (f : JobFilter) (r : JobRow) : Except PyError Bool :=
  if f.kind.getD "" ≠ "" ∧ f.kind.getD "" ≠ r.kind then .ok false
  else (f.hasStatus r).map fun found => found && f.hasText r

/-- `job_count`. -/
def jobCount (f : JobFilter) : List JobRow → Except PyError Nat
  | [] => .ok 0
  | r :: rows => do
    let found ← f.accepts r
    let n ← jobCount f rows
    .ok (if found then n + 1 else n)

/-! ### Statistics -/

/-- The groups of equal values, with their sizes. -/
def groupCounts (xs : List String) : List (String × Nat) :=
  (firstOccurrences xs).map fun x => (x, xs.count x)

structure JobStatistics where
  total : Nat
  byStatus : List (String × Nat)
  byKind : List (String × Nat)
  deriving DecidableEq

/-- The status by which a row is counted. -/
def JobRow.countedStatus (r : JobRow) : Except PyError String :=
  r.historicalRestoreWarning.map fun isPartial =>
    if isPartial then "warning" else r.status

/-- `job_statistics`. -/
def jobStatistics (since : Option Time) (rows : List JobRow) : Except PyError JobStatistics := do
  let rows := rows.filter fun r => since.all fun t => t ≤ r.startedAt
  let statuses ← rows.mapM JobRow.countedStatus
  let groups := groupCounts statuses
  .ok ⟨(groups.map Prod.snd).sum, groups, groupCounts (rows.map JobRow.kind)⟩

/-- `by_status[status]`, if there is one. -/
def JobStatistics.count (s : JobStatistics) (status : String) : Nat :=
  (s.byStatus.lookup status).getD 0

/-! ### Groups -/

section Groups

variable (xs : List String)

theorem lookup_map_self (ys : List String) (f : String → Nat) (x : String) :
    (ys.map fun y => (y, f y)).lookup x = if x ∈ ys then some (f x) else none := by
  induction ys with
  | nil => rfl
  | cons y ys ih =>
    rw [List.map_cons, List.lookup_cons]
    by_cases hx : x = y
    · subst hx
      simp
    · have hbeq : (x == y) = false := by simpa using hx
      rw [hbeq]
      simp [hx, ih]

/-- A group has the size of its value's occurrences, and no group means none. -/
theorem lookup_groupCounts (x : String) :
    ((groupCounts xs).lookup x).getD 0 = xs.count x := by
  unfold groupCounts
  rw [lookup_map_self]
  split
  · rfl
  · next hx => exact (List.count_eq_zero.mpr fun hmem => hx (mem_firstOccurrences.mpr hmem)).symm

/-- The groups make up the whole. -/
theorem sum_groupCounts : ((groupCounts xs).map Prod.snd).sum = xs.length := by
  have hperm : (firstOccurrences xs).Perm xs.dedup := by
    rw [List.perm_ext_iff_of_nodup (nodup_firstOccurrences xs) xs.nodup_dedup]
    intro x
    rw [mem_firstOccurrences, List.mem_dedup]
  unfold groupCounts
  rw [List.map_map, ← List.sum_map_count_dedup_eq_length xs]
  exact (hperm.map fun x => xs.count x).sum_eq

end Groups

/-! ### One row -/

section Row

variable {r : JobRow} {t : String}

theorem isPartialSummary_pyOr (v : Value) :
    isPartialSummary (pyOr v (.dict [])) = isPartialSummary v := by
  have hempty : isPartialRestoreSummary [] = .ok false := by decide
  unfold pyOr
  split
  · rfl
  · next hfalsy =>
    cases v with
    | dict d =>
      cases d with
      | nil => rfl
      | cons e d => exact absurd rfl hfalsy
    | none | bool | int | float | str | list => exact hempty

/-- A missing or broken summary is none in both readings. -/
theorem historicalRestoreWarning_summary (h : r.kind = "restoretest" ∧ r.status = "error") :
    r.historicalRestoreWarning = isPartialSummary (pyOr r.summary (.dict [])) := by
  have hempty : isPartialSummary (.dict []) = .ok false := by decide
  have hbraces : jsonLoads "\x7b\x7d" = some (.dict []) := by decide +kernel
  unfold JobRow.historicalRestoreWarning JobRow.summary
  rw [if_neg (by rintro (hk | hs); exacts [hk h.1, hs h.2])]
  dsimp only
  by_cases hmissing : r.summaryJson.getD "" = ""
  · rw [if_pos hmissing, if_pos hmissing, hbraces, isPartialSummary_pyOr]
    exact hempty
  · rw [if_neg hmissing, if_neg hmissing, isPartialSummary_pyOr]
    cases jsonLoads (r.summaryJson.getD "") with
    | none => rfl
    | some v => rfl

/-- A row is counted as it is shown. -/
theorem countedStatus_of_displayStatus (h : r.displayStatus = .ok t) :
    r.countedStatus = .ok t := by
  unfold JobRow.displayStatus at h
  unfold JobRow.countedStatus
  split at h
  · next hdrill =>
    obtain ⟨isPartial, hincomplete, hsame⟩ := bind_ok.mp h
    rcases hdrill with ⟨hkind, herror | hwarning⟩
    · rw [historicalRestoreWarning_summary ⟨hkind, herror⟩, hincomplete]
      exact hsame
    · have hskip : r.historicalRestoreWarning = .ok false := by
        unfold JobRow.historicalRestoreWarning
        rw [if_pos (.inr (by rw [hwarning]; decide))]
      rw [hskip]
      rw [hwarning, ite_self] at hsame
      rw [← hsame, hwarning]
      rfl
  · next hother =>
    have hskip : r.historicalRestoreWarning = .ok false := by
      unfold JobRow.historicalRestoreWarning
      refine if_pos ?_
      by_cases hkind : r.kind = "restoretest"
      · exact .inr fun herror => hother ⟨hkind, .inl herror⟩
      · exact .inl hkind
    rw [hskip]
    exact h

/-- The filter for a status finds the rows that are counted under it. -/
theorem hasStatus_of_countedStatus {s : String} (hs : s ≠ "") (h : r.countedStatus = .ok t) :
    (JobFilter.byStatus s).hasStatus r = .ok (decide (t = s)) := by
  unfold JobRow.countedStatus at h
  cases hwarning : r.historicalRestoreWarning with
  | error e =>
    rw [hwarning] at h
    cases h
  | ok isPartial =>
    rw [hwarning] at h
    have ht : (if isPartial then "warning" else r.status) = t := Except.ok.inj h
    -- only an error can be a warning
    have herror : isPartial = true → r.status = "error" := by
      rintro rfl
      unfold JobRow.historicalRestoreWarning at hwarning
      split at hwarning
      · cases hwarning
      · next hdrill => exact not_not.mp fun hstatus => hdrill (.inr hstatus)
    unfold JobFilter.hasStatus
    rw [hwarning]
    dsimp only [JobFilter.byStatus, Option.getD_some]
    rw [if_neg hs, ← ht]
    by_cases hsw : s = "warning"
    · subst hsw
      cases isPartial with
      | true => simp [herror rfl]
      | false => by_cases hr : r.status = "warning" <;> simp [hr]
    by_cases hse : s = "error"
    · subst hse
      cases isPartial with
      | true => simp [herror rfl, Except.map]
      | false => by_cases hr : r.status = "error" <;> simp [hr, Except.map]
    · rw [if_neg hsw, if_neg hse]
      cases isPartial with
      | true => simp [herror rfl, Ne.symm hsw, Ne.symm hse]
      | false => simp

theorem accepts_byStatus {s : String} (hs : s ≠ "") (h : r.countedStatus = .ok t) :
    (JobFilter.byStatus s).accepts r = .ok (decide (t = s)) := by
  have hneedle : casefold (strip "") = "" := by decide
  have htext : (JobFilter.byStatus s).hasText r = true := by
    unfold JobFilter.hasText
    dsimp only [JobFilter.byStatus, Option.getD_none]
    rw [hneedle]
    rfl
  unfold JobFilter.accepts
  rw [if_neg (fun hkind => hkind.1 rfl), hasStatus_of_countedStatus hs h, htext]
  exact congrArg Except.ok (Bool.and_true _)

end Row

/-! ### All rows -/

section Rows

variable {rows : List JobRow} {shown : List String}

theorem countedStatus_of_shown (h : rows.mapM JobRow.displayStatus = .ok shown) :
    rows.mapM JobRow.countedStatus = .ok shown := by
  induction rows generalizing shown with
  | nil => exact h
  | cons r rows ih =>
    rw [List.mapM_cons] at h ⊢
    obtain ⟨t, ht, hrest⟩ := bind_ok.mp h
    obtain ⟨ts, hts, hsame⟩ := bind_ok.mp hrest
    rw [countedStatus_of_displayStatus ht]
    exact bind_ok.mpr ⟨t, rfl, bind_ok.mpr ⟨ts, ih hts, hsame⟩⟩

theorem length_of_shown {status : JobRow → Except PyError String}
    (h : rows.mapM status = .ok shown) : shown.length = rows.length := by
  induction rows generalizing shown with
  | nil =>
    cases h
    rfl
  | cons r rows ih =>
    rw [List.mapM_cons] at h
    obtain ⟨t, -, hrest⟩ := bind_ok.mp h
    obtain ⟨ts, hts, hsame⟩ := bind_ok.mp hrest
    cases hsame
    rw [List.length_cons, List.length_cons, ih hts]

theorem jobCount_byStatus {s : String} (hs : s ≠ "")
    (h : rows.mapM JobRow.countedStatus = .ok shown) :
    jobCount (.byStatus s) rows = .ok (shown.count s) := by
  induction rows generalizing shown with
  | nil =>
    cases h
    rfl
  | cons r rows ih =>
    rw [List.mapM_cons] at h
    obtain ⟨t, ht, hrest⟩ := bind_ok.mp h
    obtain ⟨ts, hts, hsame⟩ := bind_ok.mp hrest
    cases hsame
    unfold jobCount
    rw [accepts_byStatus hs ht, ih hts, List.count_cons]
    show Except.ok (if decide (t = s) = true then ts.count s + 1 else ts.count s) = _
    by_cases hsame : t = s
    · simp [hsame]
    · simp [hsame]

/-- Asked for the empty status, the filter counts every row. -/
theorem jobCount_byStatus_empty (rows : List JobRow) :
    jobCount (.byStatus "") rows = .ok rows.length := by
  have hneedle : casefold (strip "") = "" := by decide
  have haccepts : ∀ r, (JobFilter.byStatus "").accepts r = .ok true := by
    intro r
    have htext : (JobFilter.byStatus "").hasText r = true := by
      unfold JobFilter.hasText
      dsimp only [JobFilter.byStatus, Option.getD_none]
      rw [hneedle]
      rfl
    unfold JobFilter.accepts
    rw [if_neg (fun hkind => hkind.1 rfl), htext]
    rfl
  induction rows with
  | nil => rfl
  | cons r rows ih =>
    unfold jobCount
    rw [haccepts, ih]
    rfl

end Rows

/-- **The three classifications count the same**, where every row can be shown. -/
theorem display_status_agrees (rows : List JobRow) (shown : List String)
    (h : rows.mapM JobRow.displayStatus = .ok shown) :
    ∃ stats, jobStatistics none rows = .ok stats ∧
      (∀ s, stats.count s = shown.count s) ∧
      (∀ s, s ≠ "" → jobCount (.byStatus s) rows = .ok (shown.count s)) ∧
      jobCount (.byStatus "") rows = .ok rows.length ∧
      stats.total = rows.length ∧ (stats.byStatus.map Prod.snd).sum = rows.length := by
  have hcounted := countedStatus_of_shown h
  have hlength := length_of_shown h
  have hall : (rows.filter fun r => (none : Option Time).all fun t => t ≤ r.startedAt) = rows :=
    List.filter_eq_self.mpr fun _ _ => rfl
  refine ⟨⟨((groupCounts shown).map Prod.snd).sum, groupCounts shown,
    groupCounts (rows.map JobRow.kind)⟩, ?_, lookup_groupCounts shown,
    fun s hs => jobCount_byStatus hs hcounted, jobCount_byStatus_empty rows, ?_, ?_⟩
  · unfold jobStatistics
    rw [hall]
    exact bind_ok.mpr ⟨shown, hcounted, rfl⟩
  · exact (sum_groupCounts shown).trans hlength
  · exact (sum_groupCounts shown).trans hlength

def okRow (status : String) : JobRow := ⟨1, "pull", status, 0, none, none, none, none⟩

/-- A failed restore drill with the given summary. -/
def failedDrillRow (summaryJson : Option String) : JobRow :=
  ⟨2, "restoretest", "error", 0, summaryJson, none, none, none⟩

/-- One of two files was checked, and passed. -/
def partialSummary : Dict :=
  [("pairs", .list [.dict
    [("ok", .bool false), ("sample_status", .str "partial_selection"), ("verified", .int 1),
     ("sample_size", .int 1), ("requested_sample_size", .int 2), ("restored_files", .int 1),
     ("return_code", .int 0), ("sample_shortfall_reason", .str "byte_budget")]])]

def mixedRows : List JobRow :=
  [okRow "ok", failedDrillRow (some (jsonDumps plainJson (.dict partialSummary))),
   failedDrillRow (some "\x7b"), failedDrillRow none, okRow "warning"]

theorem displayStatus_mixedRows : mixedRows.mapM JobRow.displayStatus =
    .ok ["ok", "warning", "error", "error", "warning"] := by
  decide +kernel

theorem display_status_agrees_rows :
    jobCount (.byStatus "warning") mixedRows = .ok 2 ∧
      jobCount (.byStatus "error") mixedRows = .ok 2 ∧ jobCount (.byStatus "") mixedRows = .ok 5 := by
  obtain ⟨-, -, -, hcount, hall, -⟩ := display_status_agrees mixedRows _ displayStatus_mixedRows
  exact ⟨hcount "warning" (by decide), hcount "error" (by decide), hall⟩

/-- Asked for the empty status, the filter asks for none. -/
theorem not_status_count : ¬ ∀ (rows : List JobRow) (shown : List String),
    rows.mapM JobRow.displayStatus = .ok shown →
      ∀ s, jobCount (.byStatus s) rows = .ok (shown.count s) := by
  intro h
  have hcount := h [okRow "", okRow "ok"] ["", "ok"] rfl ""
  exact absurd hcount (by decide)

end RcloneSync
