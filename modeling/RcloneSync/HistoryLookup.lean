/-
RcloneSync/HistoryLookup.lean

Three ways to look up what a pair did last: `pair_last_result` and `pair_last_success` for one
key, and `pair_last_history` for many (db.py).

Rows under the stable key come first; where there are none, rows that were recorded for the
name before the pair had a key of its own.  The single lookups then go on to the summaries of
old backup jobs, which name their pairs by their display names only.  A summary cannot tell
whose run it reports, so a pair that took over the name of another one inherits its runs there.

Main result (`history_lookups_agree_iff`): the lookups agree, and keep to their own identity,
exactly where rows answer or no summary within reach speaks of the name.
-/
import RcloneSync.PairRows
import RcloneSync.DrillEvidence

namespace RcloneSync

open Py Runs

/-! ### Answers -/

/-- The answer of a lookup.  An answer from an old summary has neither a dry-run flag nor a key
nor a slot. -/
structure RunAnswer where
  ok : Bool
  dryRun : Option Bool
  status : JobStatus
  startedAt : Time
  endedAt : Time
  pair : Value
  jobId : Nat
  historyKey : Option String
  scheduledSlot : Option String
  deriving DecidableEq, Repr

/-- What `pair_last_success` gives away of an answer. -/
structure SuccessAnswer where
  startedAt : Time
  endedAt : Time
  pair : Value
  jobId : Nat

def RunAnswer.success (a : RunAnswer) : SuccessAnswer := ⟨a.startedAt, a.endedAt, a.pair, a.jobId⟩

/-- `_pair_row_to_result`. -/
def PairRun.answer (r : PairRun) : RunAnswer where
  ok := r.ok
  dryRun := some r.dryRun
  status := r.status
  startedAt := r.startedAt
  endedAt := r.shownEnd
  pair := (jsonLoads (if r.resultJson = "" then "\x7b\x7d" else r.resultJson)).getD (.dict [])
  jobId := r.jobId
  historyKey := some r.historyKey
  scheduledSlot := r.scheduledSlot

/-! ### Summaries of old jobs -/

/-- `job_list(kind="backup", limit=limit)`. -/
def recentBackups (limit : Int) (jobs : List Job) : List Job :=
  let limit := max 1 (min (if limit = 0 then 50 else limit) 2000)
  ((jobs.filter fun j => j.kind = "backup").reverse.insertionSort fun a b =>
    b.startedAt ≤ a.startedAt).take limit.toNat

/-- `job.get("summary")`. -/
def Job.summary (j : Job) : Value :=
  match j.summaryJson with
  | none => .none
  | some text => if text = "" then .none else (jsonLoads text).getD .none

/-- `value or {}`, on which `get` is called without looking at its type. -/
def orMapping : Value → Except PyError Dict
  | .dict d => .ok d
  | v => if truthy v then .error (.attribute "object has no attribute 'get'") else .ok []

/-- An entry of `pairs` is a run of the name, or a successful one. -/
def reportsRun (successOnly : Bool) (name : String) (summary pair : Dict) : Bool :=
  pyEq (Dict.get pair "name") (.str name) &&
    (!successOnly || (decide (Dict.get pair "ok" = .bool true) && !isDryRun pair &&
      !isDryRun summary))

def firstReported (successOnly : Bool) (name : String) (summary : Dict) :
    List Value → Except PyError (Option Dict)
  | [] => .ok none
  | .dict pair :: rest =>
    if reportsRun successOnly name summary pair then .ok (some pair)
    else firstReported successOnly name summary rest
  | _ :: _ => .error (.attribute "object has no attribute 'get'")

/-- The loop over `summary.get("pairs") or []`. -/
def reportedPair (successOnly : Bool) (name : String) (summary : Dict) :
    Except PyError (Option Dict) :=
  match Dict.get summary "pairs" with
  | .list entries => firstReported successOnly name summary entries
  | v => if truthy v then .error (.type "object is not iterable") else .ok none

/-- `name in (summary.get("due") or [])`. -/
def dueNames (name : String) : Value → Except PyError Bool
  | .list entries => .ok (pyIn (.str name) entries)
  | .str text => .ok (decide (text ≠ "") && containsText name text)
  | .dict d => .ok (Dict.has d name)
  | v => if truthy v then .error (.type "argument is not iterable") else .ok false

/-- What one job's summary says about the name. -/
def summaryAnswer (successOnly : Bool) (name : String) (job : Job) :
    Except PyError (Option RunAnswer) := do
  let summary ← orMapping job.summary
  match ← reportedPair successOnly name summary with
  | some pair => .ok (some
      { ok := decide (Dict.get pair "ok" = .bool true)
        dryRun := none
        status := job.status
        startedAt := job.startedAt
        endedAt := timeOr job.endedAt job.startedAt
        pair := .dict pair
        jobId := job.id
        historyKey := none
        scheduledSlot := none })
  | none =>
    if !successOnly && leavesDue job.status then do
      if ← dueNames name (Dict.get summary "due") then .ok (some
        { ok := false
          dryRun := none
          status := job.status
          startedAt := job.startedAt
          endedAt := timeOr job.endedAt job.startedAt
          pair := .dict [("name", .str name), ("ok", .bool false),
            ("error", Dict.get summary "error")]
          jobId := job.id
          historyKey := none
          scheduledSlot := none })
      else .ok none
    else .ok none

def firstSummaryAnswer (successOnly : Bool) (name : String) :
    List Job → Except PyError (Option RunAnswer)
  | [] => .ok none
  | job :: jobs => do
    match ← summaryAnswer successOnly name job with
    | some answer => .ok (some answer)
    | none => firstSummaryAnswer successOnly name jobs

/-- `_legacy_pair_last_result`. -/
def legacyPairLastResult (successOnly : Bool) (name : String) (limit : Int) (s : JobStore) :
    Except PyError (Option RunAnswer) :=
  firstSummaryAnswer successOnly name (recentBackups limit s.jobs)

/-! ### The lookups -/

/-- The row under a key, else the one that was recorded for the name. -/
def keyedRun (key name : String) (rows : List PairRun) : Option PairRun :=
  (lastRun (fun r => r.historyKey = key) rows).orElse fun _ => lastRun (legacyRun name) rows

/-- `pair_last_result`. -/
def pairLastResult (name : String) (historyKey : Option String) (limit : Int) (s : JobStore) :
    Except PyError (Option RunAnswer) :=
  let key := historyKey.getD ""
  match if key ≠ "" then keyedRun key name s.pairRuns
    else lastRun (fun r => r.pairName = name) s.pairRuns with
  | some r => .ok (some r.answer)
  | none => legacyPairLastResult false name limit s

/-- The run of `pair_last_success`. -/
def lastSuccessRun (name : String) (historyKey : Option String) (limit : Int) (s : JobStore) :
    Except PyError (Option RunAnswer) :=
  let key := historyKey.getD ""
  let legacy := legacyPairLastResult true name limit s
  if key ≠ "" then
    match lastRun (fun r => r.historyKey = key && r.succeeded) s.pairRuns with
    | some r => .ok (some r.answer)
    | none =>
      -- an attempt under the key has ended: what the name did before does not count
      if s.pairRuns.any (fun r => r.historyKey = key && r.terminal) then .ok none
      else
        match lastRun (fun r => legacyRun name r && r.succeeded) s.pairRuns with
        | some r => .ok (some r.answer)
        | none => legacy
  else
    match lastRun (fun r => r.pairName = name && r.succeeded) s.pairRuns with
    | some r => .ok (some r.answer)
    | none => legacy

/-- `pair_last_success`. -/
def pairLastSuccess (name : String) (historyKey : Option String) (limit : Int) (s : JobStore) :
    Except PyError (Option SuccessAnswer) := do
  let run ← lastSuccessRun name historyKey limit s
  .ok (run.map RunAnswer.success)

/-- `requested`. -/
def requestedIdentities (identities : List (String × String)) : List (String × String) :=
  identities.foldl
    (fun table e =>
      if strip e.1 ≠ "" ∧ strip e.2 ≠ "" then
        Tables.upsert Prod.fst (strip e.1, strip e.2) (fun _ => (strip e.1, strip e.2)) table
      else table) []

/-- `pair_last_history`.  The requests are sent in parts; each one is answered by itself. -/
def pairLastHistories (identities : List (String × String)) (rows : List PairRun) :
    List (String × LastRuns) :=
  (requestedIdentities identities).map fun e => (e.1, pairLastHistory e.1 e.2 rows)

/-! ### Silent summaries -/

section Silence

variable {successOnly : Bool} {name : String}

def SilentPairs (successOnly : Bool) (name : String) (summary : Dict) : Prop :=
  match Dict.get summary "pairs" with
  | .list entries =>
    ∀ v ∈ entries, ∃ pair, v = .dict pair ∧ reportsRun successOnly name summary pair = false
  | v => truthy v = false

/-- The summary of a job can be read and does not speak of the name. -/
def SilentAbout (successOnly : Bool) (name : String) (job : Job) : Prop :=
  ∃ summary, orMapping job.summary = .ok summary ∧ SilentPairs successOnly name summary ∧
    (successOnly = false → leavesDue job.status = true →
      dueNames name (Dict.get summary "due") = .ok false)

theorem firstReported_none {summary : Dict} {entries : List Value} :
    firstReported successOnly name summary entries = .ok none ↔
      ∀ v ∈ entries, ∃ pair, v = .dict pair ∧
        reportsRun successOnly name summary pair = false := by
  induction entries with
  | nil => exact ⟨fun _ v hv => absurd hv List.not_mem_nil, fun _ => rfl⟩
  | cons v entries ih =>
    rw [List.forall_mem_cons, ← ih]
    cases v with
    | dict pair =>
      show (if _ then _ else _) = _ ↔ _
      by_cases hreports : reportsRun successOnly name summary pair = true
      · rw [if_pos hreports]
        constructor
        · intro h
          cases h
        · rintro ⟨⟨pair', hpair, hsilent⟩, -⟩
          obtain rfl := Value.dict.inj hpair
          rw [hreports] at hsilent
          cases hsilent
      · rw [if_neg hreports]
        have hsilent : reportsRun successOnly name summary pair = false :=
          Bool.not_eq_true _ ▸ hreports
        exact ⟨fun h => ⟨⟨pair, rfl, hsilent⟩, h⟩, fun h => h.2⟩
    | _ =>
      constructor
      · intro h
        cases h
      · rintro ⟨⟨pair, hpair, -⟩, -⟩
        cases hpair

theorem reportedPair_none {summary : Dict} :
    reportedPair successOnly name summary = .ok none ↔ SilentPairs successOnly name summary := by
  have hother : ∀ v e, (if truthy v = true then Except.error e else .ok none)
      = (.ok none : Except PyError (Option Dict)) ↔ truthy v = false := by
    intro v e
    cases truthy v with
    | true => exact ⟨fun h => (by cases h), fun h => (by cases h)⟩
    | false => exact ⟨fun _ => rfl, fun _ => rfl⟩
  unfold reportedPair SilentPairs
  cases Dict.get summary "pairs" with
  | list entries => exact firstReported_none
  | _ => exact hother _ _

theorem summaryAnswer_none {job : Job} :
    summaryAnswer successOnly name job = .ok none ↔ SilentAbout successOnly name job := by
  constructor
  · intro h
    obtain ⟨summary, hsummary, h⟩ := bind_ok.mp h
    obtain ⟨found, hfound, h⟩ := bind_ok.mp h
    cases found with
    | some pair => cases h
    | none =>
      refine ⟨summary, hsummary, reportedPair_none.mp hfound, ?_⟩
      rintro rfl hleaves
      rw [hleaves] at h
      obtain ⟨due, hdue, h⟩ := bind_ok.mp h
      cases due with
      | true => cases h
      | false => exact hdue
  · rintro ⟨summary, hsummary, hpairs, hdue⟩
    refine bind_ok.mpr ⟨summary, hsummary, bind_ok.mpr ⟨none, reportedPair_none.mpr hpairs, ?_⟩⟩
    dsimp only
    split
    · rename_i hlooked
      rw [Bool.and_eq_true, Bool.not_eq_true'] at hlooked
      exact bind_ok.mpr ⟨false, hdue hlooked.1 hlooked.2, rfl⟩
    · rfl

/-- No answer comes from summaries exactly where all of them are silent. -/
theorem firstSummaryAnswer_none {jobs : List Job} :
    firstSummaryAnswer successOnly name jobs = .ok none ↔
      ∀ job ∈ jobs, SilentAbout successOnly name job := by
  induction jobs with
  | nil => exact ⟨fun _ job hjob => absurd hjob List.not_mem_nil, fun _ => rfl⟩
  | cons job jobs ih =>
    rw [List.forall_mem_cons, ← ih, ← summaryAnswer_none]
    constructor
    · intro h
      obtain ⟨answer, hanswer, h⟩ := bind_ok.mp h
      cases answer with
      | some a => cases h
      | none => exact ⟨hanswer, h⟩
    · rintro ⟨hanswer, h⟩
      exact bind_ok.mpr ⟨none, hanswer, h⟩

end Silence

/-! ### The three lookups -/

/-- A key that is not made of a name. -/
def isStableKey (key : String) : Bool :=
  key ≠ "" && !startsWith key "rclone:name:" && !startsWith key "pbs:name:"

/-- The run of an answer was recorded under this key. -/
def RunAnswer.BelongsTo (s : JobStore) (name : String) (a : RunAnswer) (key : String) : Prop :=
  match a.historyKey with
  | some own => own = key
  | none => Dict.get ((asDict a.pair).getD []) "history_key" = .str key ∨
      ∃ r ∈ s.pairRuns, r.jobId = a.jobId ∧ r.pairName = name ∧ r.historyKey = key

/-- The single lookups give the runs of the bulk lookup, and none of another stable key. -/
structure LookupsAgree (name key : String) (limit : Int) (history : LastRuns) (s : JobStore) :
    Prop where
  result : pairLastResult name (some key) limit s
    = .ok (history.lastResult.map PairRun.answer)
  success : pairLastSuccess name (some key) limit s
    = .ok (history.lastSuccess.map fun r => r.answer.success)
  own : ∀ a, pairLastResult name (some key) limit s = .ok (some a) ∨
      lastSuccessRun name (some key) limit s = .ok (some a) →
    ∀ other, isStableKey other = true → a.BelongsTo s name other → other = key

/-- Rows answer, or no summary within reach speaks of the name. -/
def RowsSuffice (name key : String) (limit : Int) (s : JobStore) : Prop :=
  (∃ r ∈ s.pairRuns, r.historyKey = key) ∨
    ((∃ r ∈ s.pairRuns, legacyRun name r = true) ∨
      ∀ job ∈ recentBackups limit s.jobs, SilentAbout false name job) ∧
    ((∃ r ∈ s.pairRuns, legacyRun name r = true ∧ r.succeeded = true) ∨
      ∀ job ∈ recentBackups limit s.jobs, SilentAbout true name job)

section Lookups

variable {name key : String} {limit : Int} {s : JobStore}

theorem lastRun_isSome {p : PairRun → Bool} {rows : List PairRun} :
    (∃ r, lastRun p rows = some r) ↔ ∃ r ∈ rows, p r = true := by
  rw [← Option.isSome_iff_exists, ← not_iff_not, Option.not_isSome_iff_eq_none, lastRun_eq_none]
  simp

/-- What was recorded for a name has no stable key. -/
theorem not_stable_of_legacy {r : PairRun} (h : legacyRun name r = true) :
    isStableKey r.historyKey = false := by
  have hfront : ∀ front rest : String, startsWith (front ++ rest) front = true := by
    intro front rest
    unfold startsWith
    rw [String.toList_append, List.isPrefixOf_iff_prefix]
    exact List.prefix_append _ _
  unfold legacyRun at h
  rw [Bool.and_eq_true, Bool.or_eq_true, decide_eq_true_eq, decide_eq_true_eq,
    decide_eq_true_eq] at h
  unfold isStableKey
  rcases h.2 with hempty | hnamed
  · rw [hempty]
    rfl
  · rw [hnamed]
    unfold defaultHistoryKey
    dsimp only
    split
    · rw [hfront, Bool.not_true, Bool.and_false]
    · rw [hfront, Bool.not_true, Bool.and_false, Bool.false_and]

/-- The requests are stripped and not empty. -/
theorem requestedIdentities_stripped {identities : List (String × String)}
    (h : (key, name) ∈ requestedIdentities identities) :
    key ≠ "" ∧ name ≠ "" ∧ strip key = key ∧ strip name = name := by
  have hfold : ∀ (identities table : List (String × String)),
      (∀ e ∈ table, e.1 ≠ "" ∧ e.2 ≠ "" ∧ strip e.1 = e.1 ∧ strip e.2 = e.2) →
      ∀ e ∈ identities.foldl
        (fun table e =>
          if strip e.1 ≠ "" ∧ strip e.2 ≠ "" then
            Tables.upsert Prod.fst (strip e.1, strip e.2) (fun _ => (strip e.1, strip e.2)) table
          else table) table,
        e.1 ≠ "" ∧ e.2 ≠ "" ∧ strip e.1 = e.1 ∧ strip e.2 = e.2 := by
    intro identities
    induction identities with
    | nil => exact fun table htable => htable
    | cons e identities ih =>
      intro table htable
      refine ih _ ?_
      dsimp only
      split
      · rename_i hnamed
        have hnew : strip e.1 ≠ "" ∧ strip e.2 ≠ "" ∧ strip (strip e.1) = strip e.1 ∧
            strip (strip e.2) = strip e.2 := ⟨hnamed.1, hnamed.2, strip_idem _, strip_idem _⟩
        intro e' he'
        unfold Tables.upsert Tables.updateWhere at he'
        split at he'
        · obtain ⟨old, hold, rfl⟩ := List.mem_map.mp he'
          split
          · exact hnew
          · exact htable _ hold
        · rcases List.mem_append.mp he' with hold | hadded
          · exact htable _ hold
          · rw [List.mem_singleton.mp hadded]
            exact hnew
      · exact htable
  exact hfold identities [] (fun e he => absurd he List.not_mem_nil) _ h

theorem lookup_pairLastHistories {identities : List (String × String)} {rows : List PairRun}
    (h : (requestedIdentities identities).lookup key = some name) :
    (pairLastHistories identities rows).lookup key = some (pairLastHistory key name rows) := by
  unfold pairLastHistories
  generalize requestedIdentities identities = table at h
  induction table with
  | nil => cases h
  | cons e table ih =>
    obtain ⟨k, n⟩ := e
    rw [List.map_cons, List.lookup_cons]
    rw [List.lookup_cons] at h
    cases hk : key == k with
    | true =>
      rw [hk] at h
      obtain rfl := Option.some.inj h
      rw [beq_iff_eq.mp hk]
    | false =>
      rw [hk] at h
      exact ih h

/-- The bulk lookup where rows stand under the key. -/
theorem pairLastHistory_stable (hkey : key ≠ "" ∧ strip key = key)
    (hname : name ≠ "" ∧ strip name = name) {rows : List PairRun} {r : PairRun}
    (h : lastRun (fun r => r.historyKey = key) rows = some r) :
    pairLastHistory key name rows
      = ⟨some r, lastRun (fun r => r.historyKey = key && r.succeeded) rows⟩ := by
  unfold pairLastHistory
  dsimp only
  rw [hkey.2, hname.2, if_neg (not_or.mpr ⟨hkey.1, hname.1⟩), h]

/-- The bulk lookup where none do. -/
theorem pairLastHistory_legacy (hkey : key ≠ "" ∧ strip key = key)
    (hname : name ≠ "" ∧ strip name = name) {rows : List PairRun}
    (h : lastRun (fun r => r.historyKey = key) rows = none) :
    pairLastHistory key name rows = ⟨lastRun (legacyRun name) rows,
      lastRun (fun r => legacyRun name r && r.succeeded) rows⟩ := by
  unfold pairLastHistory
  dsimp only
  rw [hkey.2, hname.2, if_neg (not_or.mpr ⟨hkey.1, hname.1⟩), h]

/-- A row's answer belongs to no other stable key, where the row stands under the key or was
recorded for the name. -/
theorem answer_own {r : PairRun} (hr : r.historyKey = key ∨ legacyRun name r = true)
    {other : String} (hother : isStableKey other = true)
    (hbelongs : r.answer.BelongsTo s name other) : other = key := by
  have hown : r.historyKey = other := hbelongs
  rcases hr with hkey | hlegacy
  · exact hown.symm.trans hkey
  · rw [← hown, not_stable_of_legacy hlegacy] at hother
    cases hother

/-- Where rows stand under the key, and none of them is running, the lookups agree. -/
theorem agree_of_stable (hkey : key ≠ "" ∧ strip key = key) (hname : name ≠ "" ∧ strip name = name)
    (hrunning : ∀ r ∈ s.pairRuns, r.historyKey = key → r.status ≠ .running)
    (hrow : ∃ r ∈ s.pairRuns, r.historyKey = key) :
    LookupsAgree name key limit (pairLastHistory key name s.pairRuns) s := by
  obtain ⟨last, hlast⟩ : ∃ r, lastRun (fun r => r.historyKey = key) s.pairRuns = some r := by
    rw [lastRun_isSome]
    obtain ⟨r, hr, hrkey⟩ := hrow
    exact ⟨r, hr, decide_eq_true hrkey⟩
  have hresult : pairLastResult name (some key) limit s = .ok (some last.answer) := by
    unfold pairLastResult keyedRun
    dsimp only [Option.getD_some]
    rw [if_pos hkey.1, hlast]
    rfl
  have hsuccess : lastSuccessRun name (some key) limit s
      = .ok ((lastRun (fun r => r.historyKey = key && r.succeeded) s.pairRuns).map
          PairRun.answer) := by
    unfold lastSuccessRun
    dsimp only [Option.getD_some]
    rw [if_pos hkey.1]
    cases lastRun (fun r => r.historyKey = key && r.succeeded) s.pairRuns with
    | some r => rfl
    | none =>
      have hended : s.pairRuns.any (fun r => r.historyKey = key && r.terminal) = true := by
        obtain ⟨r, hr, hrkey⟩ := hrow
        refine List.any_eq_true.mpr ⟨r, hr, ?_⟩
        unfold PairRun.terminal
        rw [Bool.and_eq_true, Bool.or_eq_true]
        exact ⟨decide_eq_true hrkey, Or.inl (decide_eq_true (hrunning r hr hrkey))⟩
      dsimp only
      rw [if_pos hended]
      rfl
  rw [pairLastHistory_stable hkey hname hlast]
  refine ⟨hresult, ?_, ?_⟩
  · unfold pairLastSuccess
    rw [hsuccess]
    show Except.ok _ = Except.ok _
    rw [Option.map_map]
    rfl
  · intro a ha other hother hbelongs
    rw [hresult, hsuccess] at ha
    rcases ha with ha | ha
    · obtain rfl := Option.some.inj (Except.ok.inj ha)
      exact answer_own (Or.inl (of_decide_eq_true ((lastRun_spec hlast).2 :))) hother hbelongs
    · obtain ⟨r, hr, rfl⟩ := Option.map_eq_some_iff.mp (Except.ok.inj ha)
      have hholds := (lastRun_spec hr).2
      rw [Bool.and_eq_true, decide_eq_true_eq] at hholds
      exact answer_own (Or.inl hholds.1) hother hbelongs

/-- Where no rows stand under the key, the single lookups are those of the name. -/
theorem result_of_legacy (hkey : key ≠ "")
    (hnone : lastRun (fun r => r.historyKey = key) s.pairRuns = none) :
    pairLastResult name (some key) limit s
      = (lastRun (legacyRun name) s.pairRuns).elim (legacyPairLastResult false name limit s)
          fun r => .ok (some r.answer) := by
  unfold pairLastResult keyedRun
  dsimp only [Option.getD_some]
  rw [if_pos hkey, hnone]
  show (match lastRun (legacyRun name) s.pairRuns with | some r => _ | none => _) = _
  cases lastRun (legacyRun name) s.pairRuns <;> rfl

theorem success_of_legacy (hkey : key ≠ "")
    (hnone : lastRun (fun r => r.historyKey = key) s.pairRuns = none) :
    lastSuccessRun name (some key) limit s
      = (lastRun (fun r => legacyRun name r && r.succeeded) s.pairRuns).elim
          (legacyPairLastResult true name limit s) fun r => .ok (some r.answer) := by
  have hno : ∀ r ∈ s.pairRuns, decide (r.historyKey = key) = false := lastRun_eq_none.mp hnone
  have hsuccess : lastRun (fun r => r.historyKey = key && r.succeeded) s.pairRuns = none := by
    refine lastRun_eq_none.mpr fun r hr => ?_
    rw [hno r hr, Bool.false_and]
  have hended : s.pairRuns.any (fun r => r.historyKey = key && r.terminal) = false := by
    refine List.any_eq_false.mpr fun r hr => ?_
    rw [hno r hr, Bool.false_and]
    exact Bool.false_ne_true
  unfold lastSuccessRun
  dsimp only [Option.getD_some]
  rw [if_pos hkey, hsuccess]
  dsimp only
  rw [hended, if_neg Bool.false_ne_true]
  cases lastRun (fun r => legacyRun name r && r.succeeded) s.pairRuns <;> rfl

/-- The two single lookups fall back on summaries alike. -/
theorem elim_answer_eq {o : Option PairRun} {old : Except PyError (Option RunAnswer)} :
    o.elim old (fun r => .ok (some r.answer)) = .ok (o.map PairRun.answer) ↔
      (∃ r, o = some r) ∨ old = .ok none := by
  cases o with
  | some r => exact ⟨fun _ => Or.inl ⟨r, rfl⟩, fun _ => rfl⟩
  | none => exact ⟨Or.inr, fun h => h.resolve_left fun ⟨r, hr⟩ => by cases hr⟩

/-- Where no rows stand under the key, the lookups agree exactly where rows of the name answer
or the summaries are silent. -/
theorem agree_iff_of_legacy (hkey : key ≠ "" ∧ strip key = key)
    (hname : name ≠ "" ∧ strip name = name)
    (hnone : lastRun (fun r => r.historyKey = key) s.pairRuns = none) :
    LookupsAgree name key limit (pairLastHistory key name s.pairRuns) s ↔
      ((∃ r ∈ s.pairRuns, legacyRun name r = true) ∨
        ∀ job ∈ recentBackups limit s.jobs, SilentAbout false name job) ∧
      ((∃ r ∈ s.pairRuns, legacyRun name r = true ∧ r.succeeded = true) ∨
        ∀ job ∈ recentBackups limit s.jobs, SilentAbout true name job) := by
  have hresult : pairLastResult name (some key) limit s
      = .ok ((lastRun (legacyRun name) s.pairRuns).map PairRun.answer) ↔
      (∃ r ∈ s.pairRuns, legacyRun name r = true) ∨
        ∀ job ∈ recentBackups limit s.jobs, SilentAbout false name job := by
    rw [result_of_legacy hkey.1 hnone, elim_answer_eq, lastRun_isSome]
    exact or_congr_right firstSummaryAnswer_none
  have hsuccess : lastSuccessRun name (some key) limit s
      = .ok ((lastRun (fun r => legacyRun name r && r.succeeded) s.pairRuns).map
          PairRun.answer) ↔
      (∃ r ∈ s.pairRuns, legacyRun name r = true ∧ r.succeeded = true) ∨
        ∀ job ∈ recentBackups limit s.jobs, SilentAbout true name job := by
    rw [success_of_legacy hkey.1 hnone, elim_answer_eq, lastRun_isSome]
    refine or_congr ?_ firstSummaryAnswer_none
    simp only [Bool.and_eq_true]
  rw [pairLastHistory_legacy hkey hname hnone, ← hresult, ← hsuccess]
  constructor
  · rintro ⟨hlast, hlastSuccess, -⟩
    refine ⟨hlast, ?_⟩
    -- what is given away of a success tells whether there is one
    obtain ⟨run, hrun, hshown⟩ := bind_ok.mp hlastSuccess
    have hshown := Except.ok.inj hshown
    rw [hrun]
    rw [success_of_legacy hkey.1 hnone] at hrun
    cases hfound : lastRun (fun r => legacyRun name r && r.succeeded) s.pairRuns with
    | some r =>
      rw [hfound] at hrun
      exact hrun.symm
    | none =>
      rw [hfound, Option.map_none, Option.map_eq_none_iff] at hshown
      rw [hshown]
      rfl
  · rintro ⟨hlast, hlastSuccess⟩
    refine ⟨hlast, ?_, ?_⟩
    · unfold pairLastSuccess
      rw [hlastSuccess]
      show Except.ok _ = Except.ok _
      rw [Option.map_map]
      rfl
    · intro a ha other hother hbelongs
      rw [hlast, hlastSuccess] at ha
      rcases ha with ha | ha
      · obtain ⟨r, hr, rfl⟩ := Option.map_eq_some_iff.mp (Except.ok.inj ha)
        exact answer_own (Or.inr (lastRun_spec hr).2) hother hbelongs
      · obtain ⟨r, hr, rfl⟩ := Option.map_eq_some_iff.mp (Except.ok.inj ha)
        have hholds := (lastRun_spec hr).2
        rw [Bool.and_eq_true] at hholds
        exact answer_own (Or.inr hholds.1) hother hbelongs

end Lookups

/-! ### Main result -/

/-- **The lookups agree and keep to their identity** exactly where rows answer, or no summary
within reach speaks of the name. -/
theorem history_lookups_agree_iff (identities : List (String × String)) (name key : String)
    (limit : Int) (s : JobStore)
    (hrequested : (requestedIdentities identities).lookup key = some name)
    (hrunning : ∀ r ∈ s.pairRuns, r.historyKey = key → r.status ≠ .running) :
    (∃ history, (pairLastHistories identities s.pairRuns).lookup key = some history ∧
      LookupsAgree name key limit history s) ↔ RowsSuffice name key limit s := by
  have hmem : (key, name) ∈ requestedIdentities identities := mem_of_lookup hrequested
  obtain ⟨hkey, hname, hkeyStrip, hnameStrip⟩ := requestedIdentities_stripped hmem
  have hbulk : (∃ history, (pairLastHistories identities s.pairRuns).lookup key = some history ∧
      LookupsAgree name key limit history s) ↔
      LookupsAgree name key limit (pairLastHistory key name s.pairRuns) s := by
    rw [lookup_pairLastHistories hrequested]
    constructor
    · rintro ⟨history, hhistory, hagree⟩
      rw [Option.some.inj hhistory]
      exact hagree
    · exact fun hagree => ⟨_, rfl, hagree⟩
  rw [hbulk]
  by_cases hrow : ∃ r ∈ s.pairRuns, r.historyKey = key
  · exact iff_of_true (agree_of_stable ⟨hkey, hkeyStrip⟩ ⟨hname, hnameStrip⟩ hrunning hrow)
      (Or.inl hrow)
  · have hnone : lastRun (fun r => r.historyKey = key) s.pairRuns = none :=
      lastRun_eq_none.mpr fun r hr => decide_eq_false fun hrkey => hrow ⟨r, hr, hrkey⟩
    rw [agree_iff_of_legacy ⟨hkey, hkeyStrip⟩ ⟨hname, hnameStrip⟩ hnone]
    exact ⟨Or.inr, fun h => h.resolve_left hrow⟩

/-! ### A name that changed hands -/

/-- A backup of one pair. -/
def photosJob : Job where
  id := 1
  kind := "backup"
  status := .ok
  startedAt := 100
  endedAt := some 160
  summaryJson := some "\x7b\"pairs\": [\x7b\"name\": \"Photos\", \"ok\": true\x7d]\x7d"
  definitionId := none
  definitionName := none
  scheduledSlot := none
  dryRun := false
  trigger := "manual"

def photosRow : PairRun where
  jobId := 1
  pairName := "Photos"
  historyKey := "rclone:id:a"
  ok := true
  dryRun := false
  status := .ok
  startedAt := 100
  endedAt := some 160
  scheduledSlot := none
  resultJson := "\x7b\"name\": \"Photos\", \"ok\": true\x7d"

def photosStore : JobStore := ⟨[photosJob], 2, [photosRow], [], [], []⟩

/-- The pair that ran finds its run by all three ways. -/
theorem history_lookups_agree_photos :
    (∃ history,
      (pairLastHistories [("rclone:id:a", "Photos")] photosStore.pairRuns).lookup "rclone:id:a"
        = some history ∧ LookupsAgree "Photos" "rclone:id:a" 1000 history photosStore) := by
  have hended : ∀ r ∈ photosStore.pairRuns, r.historyKey = "rclone:id:a" →
      r.status ≠ .running := by
    intro r hr _
    obtain rfl := List.mem_singleton.mp hr
    decide
  exact (history_lookups_agree_iff [("rclone:id:a", "Photos")] "Photos" "rclone:id:a" 1000
    photosStore (by decide) hended).mpr (Or.inl ⟨photosRow, List.mem_cons_self, rfl⟩)

/-- The run as the summary reports it. -/
def inheritedAnswer : RunAnswer where
  ok := true
  dryRun := none
  status := .ok
  startedAt := 100
  endedAt := 160
  pair := .dict [("name", .str "Photos"), ("ok", .bool true)]
  jobId := 1
  historyKey := none
  scheduledSlot := none

/-- Another pair that is called so now gets the run of the first one. -/
theorem renamed_pair_inherits_run :
    ¬ ∀ (identities : List (String × String)) (name key : String) (limit : Int) (s : JobStore),
      (requestedIdentities identities).lookup key = some name →
      (∀ r ∈ s.pairRuns, r.historyKey = key → r.status ≠ .running) →
      ∃ history, (pairLastHistories identities s.pairRuns).lookup key = some history ∧
        LookupsAgree name key limit history s := by
  intro hclaim
  have hended : ∀ r ∈ photosStore.pairRuns, r.historyKey = "rclone:id:b" →
      r.status ≠ .running := by
    intro r hr _
    obtain rfl := List.mem_singleton.mp hr
    decide
  obtain ⟨history, -, hagree⟩ := hclaim [("rclone:id:b", "Photos")] "Photos" "rclone:id:b" 1000
    photosStore (by decide) hended
  have ha : pairLastResult "Photos" (some "rclone:id:b") 1000 photosStore
      = .ok (some inheritedAnswer) := by decide +kernel
  have hforeign : inheritedAnswer.BelongsTo photosStore "Photos" "rclone:id:a" :=
    Or.inr ⟨photosRow, List.mem_cons_self, rfl, rfl, rfl⟩
  exact absurd (hagree.own inheritedAnswer (Or.inl ha) _ (by decide) hforeign) (by decide)

end RcloneSync
