/-
RcloneSync/BaselineState.lean

No silent resynchronisation.

A pair whose key is `new` may be resynchronised without being asked for; a pair of which
any attempt has ended may not.  The answer of `pair_baseline_state` is put together from
four places, and attempts are deleted with their jobs, so what has to be shown is that no
order of transactions takes it back.

Every transaction on the pair tables is a sequence of five changes (`Change`): a result is
stored, an attempt begins, the open attempts of a job are closed, the attempts of deleted
jobs are dropped, evidence is recorded.  The history only grows under each of them, and as
long as it holds everything that the attempts show (`Evidence`) the answer can be read off
the history alone (`baseline_eq`), so it only moves forward (`baseline_moves_forward`).

Evidence is kept apart by keys, except where it was recorded under the key derived from a
name: names that differ in case share that row, and the row carries the name that was
recorded last.  An attempt of `photos` so hides what was recorded for `Photos`
(`baseline_falls_back`).
-/
import RcloneSync.JobRetention
import RcloneSync.Runs

namespace RcloneSync

open Py Runs

/-! ### Changes of the pair tables -/

/-- The attempts and the history. -/
structure PairTables where
  runs : List PairRun
  history : List PairHistory

def JobStore.pairTables (s : JobStore) : PairTables := ⟨s.pairRuns, s.history⟩

/-- What the transactions do to the pair tables. -/
inductive Change
  | store (row : PairRun) (terminal : Bool) (seenAt : Time)
  | begin (row : PairRun) (now : Time)
  | close (jobId : Nat) (status : JobStatus) (endedAt : Time) (error : Option String)
  | drop (gone : List Nat)
  | record (key name : String) (seenAt : Time) (succeeded terminal : Bool)
      (successAt : Option Time)

def Change.apply : Change → PairTables → PairTables
  | .store row terminal seenAt, T =>
    ⟨upsertPairRun row T.runs,
      recordHistory row.historyKey row.pairName seenAt row.succeeded terminal T.history⟩
  | .begin row now, T =>
    ⟨Tables.upsert PairRun.key row id T.runs,
      recordHistory row.historyKey row.pairName now false false T.history⟩
  | .close jobId status endedAt error, T =>
    ⟨Tables.updateWhere (isOpenOf jobId) (closeAttempt status endedAt error) T.runs,
      (T.runs.filter (isOpenOf jobId)).foldl (fun history row =>
        recordHistory row.historyKey row.pairName endedAt false true history) T.history⟩
  | .drop gone, T => ⟨T.runs.filter fun r => !gone.contains r.jobId, T.history⟩
  | .record key name seenAt succeeded terminal successAt, T =>
    ⟨T.runs, recordHistoryAt key name seenAt succeeded terminal successAt T.history⟩

/-! ### The history only grows -/

/-- A row of the history with its marks, or with more. -/
def PairHistory.Grows (old new : PairHistory) : Prop :=
  (old.everSucceeded = true → new.everSucceeded = true) ∧
    (old.terminalSeen = true → new.terminalSeen = true)

def HistoryGrows (history history' : List PairHistory) : Prop :=
  ∀ k old, Tables.find PairHistory.historyKey history k = some old →
    ∃ new, Tables.find PairHistory.historyKey history' k = some new ∧ old.Grows new

theorem HistoryGrows.refl (history : List PairHistory) : HistoryGrows history history :=
  fun _ old h => ⟨old, h, id, id⟩

theorem HistoryGrows.trans {h₁ h₂ h₃ : List PairHistory} (h : HistoryGrows h₁ h₂)
    (h' : HistoryGrows h₂ h₃) : HistoryGrows h₁ h₃ := by
  intro k old hold
  obtain ⟨mid, hmid, hs, ht⟩ := h k old hold
  obtain ⟨new, hnew, hs', ht'⟩ := h' k mid hmid
  exact ⟨new, hnew, hs' ∘ hs, ht' ∘ ht⟩

section Recording

variable (key name : String) (seenAt : Time) (succeeded terminal : Bool)
  (successAt : Option Time) (history : List PairHistory)

/-- What recording leaves under a key. -/
theorem find_recordHistoryAt (k : String) :
    Tables.find PairHistory.historyKey
        (recordHistoryAt key name seenAt succeeded terminal successAt history) k
      = Tables.find PairHistory.historyKey history k ∨
    (k = strip key ∧ strip key ≠ "" ∧ strip name ≠ "" ∧ ∃ new,
      Tables.find PairHistory.historyKey
        (recordHistoryAt key name seenAt succeeded terminal successAt history) k = some new ∧
      (succeeded = true → new.everSucceeded = true) ∧
      (terminal = true → new.terminalSeen = true) ∧
      (∀ old, Tables.find PairHistory.historyKey history k = some old → old.Grows new) ∧
      (new.pairName = strip name ∨
        ∃ old, Tables.find PairHistory.historyKey history k = some old ∧
          new.pairName = old.pairName)) := by
  by_cases hblank : strip key = "" ∨ strip name = ""
  · left
    simp [recordHistoryAt, hblank]
  · have hkey : strip key ≠ "" := fun h => hblank (Or.inl h)
    have hname : strip name ≠ "" := fun h => hblank (Or.inr h)
    simp only [recordHistoryAt, hblank, if_false]
    rw [Tables.find_upsert (by intro _; rfl)]
    by_cases hk : k = strip key
    · right
      refine ⟨hk, hkey, hname, ?_⟩
      rw [if_pos hk]
      refine ⟨_, rfl, ?_⟩
      cases hold : Tables.find PairHistory.historyKey history k with
      | none => simp
      | some old =>
        refine ⟨by simp +contextual, by simp +contextual, ?_, ?_⟩
        · intro old' hold'
          obtain rfl := Option.some.inj hold'
          exact ⟨by simp +contextual, by simp +contextual⟩
        · simp only [Option.map_some, Option.getD_some, Option.some.injEq, exists_eq_left']
          split_ifs
          · exact Or.inl rfl
          · exact Or.inr rfl
    · left
      rw [if_neg hk]

theorem recordHistoryAt_grows : HistoryGrows history
    (recordHistoryAt key name seenAt succeeded terminal successAt history) := by
  intro k old hold
  rcases find_recordHistoryAt key name seenAt succeeded terminal successAt history k with
    hsame | ⟨_, _, _, new, hnew, _, _, hgrows, _⟩
  · exact ⟨old, hsame.trans hold, id, id⟩
  · exact ⟨new, hnew, hgrows old hold⟩

theorem recordHistory_grows : HistoryGrows history
    (recordHistory key name seenAt succeeded terminal history) := by
  rw [recordHistory_eq]
  exact recordHistoryAt_grows key name seenAt succeeded terminal none history

end Recording

theorem foldl_recordHistory_grows (status : Bool) (endedAt : Time) (rows : List PairRun)
    (history : List PairHistory) :
    HistoryGrows history (rows.foldl (fun history row =>
      recordHistory row.historyKey row.pairName endedAt false status history) history) := by
  induction rows generalizing history with
  | nil => exact .refl history
  | cons row rows ih =>
    rw [List.foldl_cons]
    exact (recordHistory_grows row.historyKey row.pairName endedAt false status
      history).trans (ih _)

/-- **No change takes evidence back.** -/
theorem Change.apply_grows (c : Change) (T : PairTables) :
    HistoryGrows T.history (c.apply T).history := by
  cases c <;> simp only [Change.apply]
  case store row terminal seenAt => exact recordHistory_grows _ _ _ _ _ _
  case begin row now => exact recordHistory_grows _ _ _ _ _ _
  case close jobId status endedAt error => exact foldl_recordHistory_grows true endedAt _ _
  case drop gone => exact .refl _
  case record key name seenAt succeeded terminal successAt =>
    exact recordHistoryAt_grows _ _ _ _ _ _ _

/-! ### The history holds what the attempts show -/

/-- Keys and names of attempts are stripped, and no name is blank. -/
structure WellNamed (r : PairRun) : Prop where
  key : strip r.historyKey = r.historyKey
  name : strip r.pairName = r.pairName
  named : r.pairName ≠ ""

/-- The attempt does not blur what is known of the pair: under the key derived from the
pair's name it has this very name, and under no key at all it is no success of the pair. -/
def Distinct (name key : String) (r : PairRun) : Prop :=
  key ≠ defaultHistoryKey "" name →
    (r.historyKey = defaultHistoryKey "" name → r.pairName = name) ∧
    (r.historyKey = "" → r.pairName = name → r.succeeded = false)

/-- A change that keeps the evidence about a pair. -/
def Change.Fits (name key : String) : Change → Prop
  | .store row terminal _ =>
    WellNamed row ∧ Distinct name key row ∧ (row.terminal = true → terminal = true)
  | .begin row _ =>
    WellNamed row ∧ Distinct name key row ∧ row.succeeded = false ∧ row.terminal = false
  | .close _ _ _ _ => True
  | .drop _ => True
  | .record k n _ _ _ _ =>
    key ≠ defaultHistoryKey "" name → strip k = defaultHistoryKey "" name → strip n = name

/-- What the history says of a key. -/
def marked (mark : PairHistory → Bool) (history : List PairHistory) (k : String) : Bool :=
  (Tables.find PairHistory.historyKey history k).any mark

/-- The history holds everything that the attempts show, and what it holds under the key
derived from the pair's name it holds of this pair. -/
structure Evidence (name key : String) (T : PairTables) : Prop where
  wellNamed : ∀ r ∈ T.runs, WellNamed r
  distinct : ∀ r ∈ T.runs, Distinct name key r
  succeeded : ∀ r ∈ T.runs, r.historyKey ≠ "" → r.succeeded = true →
    marked PairHistory.everSucceeded T.history r.historyKey = true
  terminal : ∀ r ∈ T.runs, r.historyKey ≠ "" → r.terminal = true →
    marked PairHistory.terminalSeen T.history r.historyKey = true
  legacy : key ≠ defaultHistoryKey "" name → ∀ h,
    Tables.find PairHistory.historyKey T.history (defaultHistoryKey "" name) = some h →
      h.pairName = name

theorem HistoryGrows.marked {history history' : List PairHistory}
    (h : HistoryGrows history history') {mark : PairHistory → Bool}
    (hmark : ∀ old new, old.Grows new → mark old = true → mark new = true) {k : String}
    (hk : marked mark history k = true) : marked mark history' k = true := by
  obtain ⟨old, hold, hm⟩ := (Option.any_eq_true _ _).mp hk
  obtain ⟨new, hnew, hgrows⟩ := h k old hold
  exact (Option.any_eq_true _ _).mpr ⟨new, hnew, hmark old new hgrows hm⟩

theorem HistoryGrows.succeeded {history history' : List PairHistory}
    (h : HistoryGrows history history') {k : String}
    (hk : RcloneSync.marked PairHistory.everSucceeded history k = true) :
    RcloneSync.marked PairHistory.everSucceeded history' k = true :=
  h.marked (fun _ _ hgrows => hgrows.1) hk

theorem HistoryGrows.terminal {history history' : List PairHistory}
    (h : HistoryGrows history history') {k : String}
    (hk : RcloneSync.marked PairHistory.terminalSeen history k = true) :
    RcloneSync.marked PairHistory.terminalSeen history' k = true :=
  h.marked (fun _ _ hgrows => hgrows.2) hk

/-- What is recorded of a named attempt stands in the history afterwards. -/
theorem marked_recordHistory {key name : String} (hkey : strip key = key) (hne : key ≠ "")
    (hname : strip name ≠ "") (seenAt : Time) (succeeded terminal : Bool)
    (history : List PairHistory) :
    (succeeded = true → marked PairHistory.everSucceeded
      (recordHistory key name seenAt succeeded terminal history) key = true) ∧
    (terminal = true → marked PairHistory.terminalSeen
      (recordHistory key name seenAt succeeded terminal history) key = true) := by
  have hnot : ¬ (strip key = "" ∨ strip name = "") := by
    rintro (h | h)
    · exact hne (hkey.symm.trans h)
    · exact hname h
  have hfind : ∃ new, Tables.find PairHistory.historyKey
      (recordHistory key name seenAt succeeded terminal history) key = some new ∧
      (succeeded = true → new.everSucceeded = true) ∧
      (terminal = true → new.terminalSeen = true) := by
    simp only [recordHistory, hnot, if_false]
    rw [Tables.find_upsert (by intro _; rfl), if_pos hkey.symm]
    refine ⟨_, rfl, ?_⟩
    cases Tables.find PairHistory.historyKey history key with
    | none => simp
    | some old => exact ⟨by simp +contextual, by simp +contextual⟩
  obtain ⟨new, hnew, hs, ht⟩ := hfind
  constructor
  · intro h
    exact (Option.any_eq_true _ _).mpr ⟨new, hnew, hs h⟩
  · intro h
    exact (Option.any_eq_true _ _).mpr ⟨new, hnew, ht h⟩

/-- The row of a name-derived key keeps its name. -/
theorem legacy_recordHistoryAt {k name n : String} {seenAt : Time} {succeeded terminal : Bool}
    {successAt : Option Time} {history : List PairHistory} {legacy : String}
    (hlegacy : ∀ h, Tables.find PairHistory.historyKey history legacy = some h →
      h.pairName = name)
    (hfits : strip k = legacy → strip n = name) :
    ∀ h, Tables.find PairHistory.historyKey
      (recordHistoryAt k n seenAt succeeded terminal successAt history) legacy = some h →
      h.pairName = name := by
  intro h hh
  rcases find_recordHistoryAt k n seenAt succeeded terminal successAt history legacy with
    hsame | ⟨hk, _, _, new, hnew, _, _, _, hname⟩
  · exact hlegacy h (hsame.symm.trans hh)
  · obtain rfl := Option.some.inj (hnew.symm.trans hh)
    rcases hname with hname | ⟨old, hold, hname⟩
    · exact hname.trans (hfits hk.symm)
    · exact hname.trans (hlegacy old hold)

theorem legacy_recordHistory {k name n : String} (seenAt : Time) (succeeded terminal : Bool)
    {history : List PairHistory} {legacy : String}
    (hlegacy : ∀ h, Tables.find PairHistory.historyKey history legacy = some h →
      h.pairName = name)
    (hfits : strip k = legacy → strip n = name) :
    ∀ h, Tables.find PairHistory.historyKey
      (recordHistory k n seenAt succeeded terminal history) legacy = some h →
      h.pairName = name := by
  rw [recordHistory_eq]
  exact legacy_recordHistoryAt hlegacy hfits

/-- Rows after an insertion: old ones, and one that shows what the new row shows. -/
theorem mem_upsertPairRun {row r : PairRun} {rows : List PairRun}
    (h : r ∈ upsertPairRun row rows) :
    r ∈ rows ∨ (r.historyKey = row.historyKey ∧ r.pairName = row.pairName ∧
      r.succeeded = row.succeeded ∧ r.terminal = row.terminal) := by
  unfold upsertPairRun Tables.upsert at h
  split_ifs at h
  · obtain ⟨old, hold, rfl⟩ := List.mem_map.mp h
    split_ifs with hkey
    · have hname : old.pairName = row.pairName :=
        (Prod.mk.inj (of_decide_eq_true hkey : old.key = row.key)).2
      exact Or.inr ⟨rfl, hname, rfl, rfl⟩
    · exact Or.inl hold
  · rcases List.mem_append.mp h with hold | hnew
    · exact Or.inl hold
    · obtain rfl := List.mem_singleton.mp hnew
      exact Or.inr ⟨rfl, rfl, rfl, rfl⟩

theorem mem_insertIgnored {row r : PairRun} {rows : List PairRun}
    (h : r ∈ Tables.upsert PairRun.key row id rows) : r ∈ rows ∨ r = row := by
  unfold Tables.upsert at h
  split_ifs at h
  · obtain ⟨old, hold, rfl⟩ := List.mem_map.mp h
    exact Or.inl (by split_ifs <;> exact hold)
  · rcases List.mem_append.mp h with hold | hnew
    · exact Or.inl hold
    · exact Or.inr (List.mem_singleton.mp hnew)

/-- What has to be known of the rows and the history after a change. -/
theorem Evidence.frame {name key : String} {T : PairTables} (hT : Evidence name key T)
    {runs : List PairRun} {history : List PairHistory} (hgrows : HistoryGrows T.history history)
    (hlegacy : key ≠ defaultHistoryKey "" name → ∀ h,
      Tables.find PairHistory.historyKey history (defaultHistoryKey "" name) = some h →
        h.pairName = name)
    (hruns : ∀ r ∈ runs, r ∈ T.runs ∨ (WellNamed r ∧ Distinct name key r ∧
      (r.historyKey ≠ "" → r.succeeded = true →
        marked PairHistory.everSucceeded history r.historyKey = true) ∧
      (r.historyKey ≠ "" → r.terminal = true →
        marked PairHistory.terminalSeen history r.historyKey = true))) :
    Evidence name key ⟨runs, history⟩ := by
  refine ⟨fun r hr => ?_, fun r hr => ?_, fun r hr hne hs => ?_, fun r hr hne ht => ?_,
    hlegacy⟩
  · rcases hruns r hr with hold | ⟨hnamed, _⟩
    · exact hT.wellNamed r hold
    · exact hnamed
  · rcases hruns r hr with hold | ⟨_, hdistinct, _⟩
    · exact hT.distinct r hold
    · exact hdistinct
  · rcases hruns r hr with hold | ⟨_, _, hsucceeded, _⟩
    · exact hgrows.succeeded (hT.succeeded r hold hne hs)
    · exact hsucceeded hne hs
  · rcases hruns r hr with hold | ⟨_, _, _, hterminal⟩
    · exact hgrows.terminal (hT.terminal r hold hne ht)
    · exact hterminal hne ht

/-- Rows that show what a recorded row shows are covered by the record. -/
theorem Evidence.of_rows {name key : String} {T : PairTables} (hT : Evidence name key T)
    {row : PairRun} (hrow : WellNamed row) (hdistinct : Distinct name key row) {terminal : Bool}
    (hterminal : row.terminal = true → terminal = true) (seenAt : Time) {runs : List PairRun}
    (hruns : ∀ r ∈ runs, r ∈ T.runs ∨ (r.historyKey = row.historyKey ∧
      r.pairName = row.pairName ∧ r.succeeded = row.succeeded ∧ r.terminal = row.terminal)) :
    Evidence name key ⟨runs,
      recordHistory row.historyKey row.pairName seenAt row.succeeded terminal T.history⟩ := by
  have hgrows : HistoryGrows T.history
      (recordHistory row.historyKey row.pairName seenAt row.succeeded terminal T.history) :=
    recordHistory_grows _ _ _ _ _ _
  have hnamed : strip row.pairName ≠ "" := fun h => hrow.named (hrow.name.symm.trans h)
  have hmarks := fun hne => marked_recordHistory hrow.key hne hnamed seenAt row.succeeded
    terminal T.history
  have hlegacy := fun hkey => legacy_recordHistory seenAt row.succeeded terminal
    (hT.legacy hkey) fun h =>
      hrow.name.trans ((hdistinct hkey).1 (hrow.key.symm.trans h))
  refine hT.frame hgrows hlegacy fun r hr => (hruns r hr).imp id ?_
  rintro ⟨hk, hn, hs, ht⟩
  refine ⟨⟨by rw [hk, hrow.key], by rw [hn, hrow.name], by rw [hn]; exact hrow.named⟩,
    fun hkey => ?_, fun hne h => ?_, fun hne h => ?_⟩
  · obtain ⟨h₁, h₂⟩ := hdistinct hkey
    exact ⟨fun h => hn.trans (h₁ (hk.symm.trans h)),
      fun h h' => hs.trans (h₂ (hk.symm.trans h) (hn.symm.trans h'))⟩
  · rw [hk] at hne ⊢
    exact (hmarks hne).1 (hs.symm.trans h)
  · rw [hk] at hne ⊢
    exact (hmarks hne).2 (hterminal (ht.symm.trans h))

/-- Closing attempts records each of them as ended. -/
theorem foldl_recordHistory_terminal {endedAt : Time} {rows : List PairRun}
    {history : List PairHistory} (hrows : ∀ r ∈ rows, WellNamed r) {r : PairRun} (hr : r ∈ rows)
    (hne : r.historyKey ≠ "") :
    marked PairHistory.terminalSeen (rows.foldl (fun history row =>
      recordHistory row.historyKey row.pairName endedAt false true history) history)
      r.historyKey = true := by
  induction rows generalizing history with
  | nil => cases hr
  | cons row rows ih =>
    rw [List.foldl_cons]
    rcases List.mem_cons.mp hr with rfl | hr
    · have hnamed := hrows r (by simp)
      have hmark := (marked_recordHistory hnamed.key hne
        (fun h => hnamed.named (hnamed.name.symm.trans h)) endedAt false true history).2 rfl
      exact (foldl_recordHistory_grows true endedAt rows _).terminal hmark
    · exact ih (fun r hr => hrows r (by simp [hr])) hr

theorem foldl_recordHistory_legacy {endedAt : Time} {rows : List PairRun}
    {history : List PairHistory} {legacy name : String}
    (hrows : ∀ r ∈ rows, strip r.historyKey = legacy → strip r.pairName = name)
    (hlegacy : ∀ h, Tables.find PairHistory.historyKey history legacy = some h →
      h.pairName = name) :
    ∀ h, Tables.find PairHistory.historyKey (rows.foldl (fun history row =>
      recordHistory row.historyKey row.pairName endedAt false true history) history) legacy
        = some h → h.pairName = name := by
  induction rows generalizing history with
  | nil => exact hlegacy
  | cons row rows ih =>
    rw [List.foldl_cons]
    exact ih (fun r hr => hrows r (by simp [hr]))
      (legacy_recordHistory endedAt false true hlegacy (hrows row (by simp)))

/-- **A fitting change keeps the evidence.** -/
theorem Evidence.apply {name key : String} {T : PairTables} (hT : Evidence name key T)
    {c : Change} (hc : c.Fits name key) : Evidence name key (c.apply T) := by
  cases c <;> simp only [Change.apply]
  case store row terminal seenAt =>
    exact hT.of_rows hc.1 hc.2.1 hc.2.2 seenAt fun r hr => mem_upsertPairRun hr
  case begin row now =>
    obtain ⟨hnamed, hdistinct, hsucceeded, hterminal⟩ := hc
    have hno : row.terminal = true → false = true := fun h => hterminal.symm.trans h
    have hrows := hT.of_rows hnamed hdistinct hno now
      fun r hr => (mem_insertIgnored hr).imp id (by rintro rfl; exact ⟨rfl, rfl, rfl, rfl⟩)
    rwa [hsucceeded] at hrows
  case close jobId status endedAt error =>
    have hopen : ∀ r ∈ T.runs.filter (isOpenOf jobId), r ∈ T.runs := fun r hr =>
      (List.mem_filter.mp hr).1
    refine hT.frame (foldl_recordHistory_grows true endedAt _ _)
      (fun hkey => foldl_recordHistory_legacy (fun r hr h => ?_) (hT.legacy hkey)) fun r hr => ?_
    · have hnamed := hT.wellNamed r (hopen r hr)
      exact hnamed.name.trans ((hT.distinct r (hopen r hr) hkey).1 (hnamed.key.symm.trans h))
    · obtain ⟨old, hold, rfl⟩ := List.mem_map.mp hr
      by_cases ho : isOpenOf jobId old = true
      · rw [if_pos ho]
        have hclosed : old ∈ T.runs.filter (isOpenOf jobId) := List.mem_filter.mpr ⟨hold, ho⟩
        obtain ⟨h₁, h₂, h₃⟩ := hT.wellNamed old hold
        refine Or.inr ⟨⟨h₁, h₂, h₃⟩, fun hkey => ⟨(hT.distinct old hold hkey).1, fun _ _ => rfl⟩,
          fun _ hs => ?_, fun hne _ => ?_⟩
        · cases hs
        · exact foldl_recordHistory_terminal (r := old)
            (fun r hr => hT.wellNamed r (hopen r hr)) hclosed hne
      · rw [if_neg ho]
        exact Or.inl hold
  case drop gone =>
    have hsub : ∀ r ∈ T.runs.filter (fun r => !gone.contains r.jobId), r ∈ T.runs :=
      fun r hr => (List.mem_filter.mp hr).1
    exact ⟨fun r hr => hT.wellNamed r (hsub r hr), fun r hr => hT.distinct r (hsub r hr),
      fun r hr => hT.succeeded r (hsub r hr), fun r hr => hT.terminal r (hsub r hr), hT.legacy⟩
  case record k n seenAt succeeded terminal successAt =>
    exact hT.frame (recordHistoryAt_grows k n seenAt succeeded terminal successAt T.history)
      (fun hkey => legacy_recordHistoryAt (hT.legacy hkey) (hc hkey)) fun r hr => Or.inl hr

/-! ### Transactions as changes -/

/-- A change that keeps the evidence about a pair, as a step. -/
def PairStep (name key : String) : PairTables → Change → PairTables → Prop :=
  Restrict (fun T c T' => T' = c.apply T) fun _ c => c.Fits name key

/-- The pair tables went from one state to the other by such changes. -/
def Reaches (name key : String) (s t : JobStore) : Prop :=
  ∃ cs, Run (PairStep name key) s.pairTables cs t.pairTables

theorem Reaches.same {name key : String} {s t : JobStore} (h : t.pairTables = s.pairTables) :
    Reaches name key s t :=
  ⟨[], h ▸ .nil _⟩

theorem Reaches.trans {name key : String} {s t u : JobStore} (h₁ : Reaches name key s t)
    (h₂ : Reaches name key t u) : Reaches name key s u := by
  obtain ⟨cs, hcs⟩ := h₁
  obtain ⟨ds, hds⟩ := h₂
  exact ⟨cs ++ ds, hcs.append hds⟩

/-- Only the pair tables matter. -/
theorem Reaches.congr {name key : String} {s t s' t' : JobStore} (h : Reaches name key s t)
    (hs₁ : s'.pairRuns = s.pairRuns) (hs₂ : s'.history = s.history)
    (ht₁ : t'.pairRuns = t.pairRuns) (ht₂ : t'.history = t.history) :
    Reaches name key s' t' := by
  unfold Reaches JobStore.pairTables
  rw [hs₁, hs₂, ht₁, ht₂]
  exact h

theorem Reaches.one {name key : String} {s t : JobStore} (c : Change) (hc : c.Fits name key)
    (h : t.pairTables = c.apply s.pairTables) : Reaches name key s t :=
  ⟨[c], .cons ⟨h, hc⟩ (.nil _)⟩

theorem Reaches.foldl {α : Type} {name key : String} {f : JobStore → α → JobStore} {as : List α}
    (hf : ∀ a ∈ as, ∀ s, Reaches name key s (f s a)) (s : JobStore) :
    Reaches name key s (as.foldl f s) := by
  induction as generalizing s with
  | nil => exact .same rfl
  | cons a as ih => exact (hf a (by simp) s).trans (ih (fun b hb => hf b (by simp [hb])) (f s a))

/-- The rows that the entries of a summary stand for. -/
def reportedRuns (ctx : ResultContext) (summary : Dict) : List PairRun :=
  (innerList summary "pairs").filterMap fun v => ((reportedRun ctx summary v).toOption).getD none

/-- The rows of the pairs whose turn did not come. -/
def dueRuns (ctx : ResultContext) (summary : Dict) : List PairRun :=
  if ctx.status = .error ∨ ctx.status = .stale ∨ ctx.status = .cancelled then
    (innerList summary "due").filterMap (dueRun ctx summary)
  else []

/-- The rows that `_store_pair_results` stores. -/
def storedRuns (ctx : ResultContext) (summary : Dict) : List PairRun :=
  reportedRuns ctx summary ++ dueRuns ctx summary

theorem wellNamed_of_strip {r : PairRun} {k n : String} (hkey : r.historyKey = strip k)
    (hname : r.pairName = strip n) (hne : strip n ≠ "") : WellNamed r :=
  ⟨by rw [hkey, strip_idem], by rw [hname, strip_idem], by rw [hname]; exact hne⟩

theorem wellNamed_reportedRun {ctx : ResultContext} {summary : Dict} {v : Value} {row : PairRun}
    (h : reportedRun ctx summary v = .ok (some row)) : WellNamed row := by
  cases v with
  | dict pair =>
    by_cases hname : strippedText pair "name" = ""
    · simp [reportedRun, hname] at h
    · simp only [reportedRun, hname, if_false] at h
      by_cases hkind : ctx.kind = "restoretest" ∧ (isDryRun pair || isDryRun summary) = false
      · rw [if_pos hkind] at h
        obtain ⟨verified, _, h⟩ := bind_ok.mp h
        split_ifs at h <;>
        · obtain ⟨partly, _, h⟩ := bind_ok.mp h
          obtain rfl := Option.some.inj (Except.ok.inj h)
          exact wellNamed_of_strip rfl rfl hname
      · rw [if_neg hkind] at h
        obtain ⟨partly, _, h⟩ := bind_ok.mp h
        obtain rfl := Option.some.inj (Except.ok.inj h)
        exact wellNamed_of_strip rfl rfl hname
  | _ => cases h

theorem dueRun_spec {ctx : ResultContext} {summary : Dict} {v : Value} {row : PairRun}
    (h : dueRun ctx summary v = some row) : WellNamed row ∧ row.succeeded = false := by
  by_cases hname : strip (pyStr (pyOr v (.str ""))) = ""
  · simp [dueRun, hname] at h
  · simp only [dueRun, hname, if_false] at h
    obtain rfl := Option.some.inj h
    exact ⟨wellNamed_of_strip rfl rfl hname, rfl⟩

theorem startedRun_spec {id : Nat} {kind : String} {now : Time} {attempt : Dict} {row : PairRun}
    (h : startedRun id kind now attempt = some row) :
    WellNamed row ∧ row.succeeded = false ∧ row.terminal = false := by
  by_cases hname : strippedText attempt "name" = ""
  · simp [startedRun, hname] at h
  · simp only [startedRun, hname, if_false] at h
    obtain rfl := Option.some.inj h
    exact ⟨wellNamed_of_strip rfl rfl hname, rfl, rfl⟩

theorem pairTables_storeRun (terminal : Bool) (seenAt : Time) (row : PairRun) (s : JobStore) :
    (storeRun (row.ok && !row.dryRun) terminal seenAt row s).pairTables
      = (Change.store row terminal seenAt).apply s.pairTables := by
  simp only [Change.apply, JobStore.pairTables, storeRun, PairRun.succeeded]

theorem pairTables_storeStarted (now : Time) (row : PairRun) (s : JobStore) :
    (storeStarted now row s).pairTables = (Change.begin row now).apply s.pairTables := by
  simp only [Change.apply, JobStore.pairTables, storeStarted]

theorem pairTables_terminalize (jobId : Nat) (status : JobStatus) (endedAt : Time)
    (error : Option String) (s : JobStore) :
    (terminalizeAttempts jobId status endedAt error s).pairTables
      = (Change.close jobId status endedAt error).apply s.pairTables := by
  simp only [Change.apply, JobStore.pairTables, terminalizeAttempts]

section Transactions

variable {name key : String}

theorem reaches_storeReported {ctx : ResultContext} {summary : Dict} {values : List Value}
    {s t : JobStore} (hstatus : ctx.status ≠ .running)
    (hrows : ∀ v ∈ values, ∀ row, reportedRun ctx summary v = .ok (some row) →
      Distinct name key row)
    (h : storeReported ctx summary values s = .ok t) : Reaches name key s t := by
  induction values generalizing s with
  | nil =>
    obtain rfl := Except.ok.inj h
    exact .same rfl
  | cons v values ih =>
    obtain ⟨run, hrun, h⟩ := bind_ok.mp h
    have hrest := fun v' hv' => hrows v' (List.mem_cons_of_mem v hv')
    cases run with
    | none => exact ih hrest h
    | some row =>
      change storeReported ctx summary values (storeRun _ _ _ row s) = .ok t at h
      have hfits : (Change.store row (decide (ctx.status ≠ .running)) ctx.endedAt).Fits name key :=
        ⟨wellNamed_reportedRun hrun, hrows v (by simp) row hrun, fun _ => decide_eq_true hstatus⟩
      have hone : Reaches name key s (storeRun (row.ok && !row.dryRun)
          (decide (ctx.status ≠ .running)) ctx.endedAt row s) :=
        .one _ hfits (pairTables_storeRun _ _ _ _)
      exact hone.trans (ih hrest h)

theorem reaches_storeDue {ctx : ResultContext} {summary : Dict}
    (hrows : ∀ row ∈ dueRuns ctx summary, Distinct name key row) (s : JobStore) :
    Reaches name key s (storeDue ctx summary s) := by
  unfold storeDue
  unfold dueRuns at hrows
  split_ifs at hrows ⊢
  · refine Reaches.foldl (fun v hv s => ?_) s
    cases hrun : dueRun ctx summary v with
    | none => exact .same rfl
    | some row =>
      obtain ⟨hnamed, hsucceeded⟩ := dueRun_spec hrun
      have hdistinct := hrows row (List.mem_filterMap.mpr ⟨v, hv, hrun⟩)
      have hfits : (Change.store row true ctx.endedAt).Fits name key :=
        ⟨hnamed, hdistinct, fun _ => rfl⟩
      have hone := pairTables_storeRun true ctx.endedAt row s
      have hfalse : (row.ok && !row.dryRun) = false := hsucceeded
      rw [hfalse] at hone
      exact Reaches.one _ hfits hone
  · exact .same rfl

theorem reaches_storePairResults {ctx : ResultContext} {summary : Dict} {s t : JobStore}
    (hstatus : ctx.status ≠ .running)
    (hrows : ∀ row ∈ storedRuns ctx summary, Distinct name key row)
    (h : storePairResults ctx summary s = .ok t) : Reaches name key s t := by
  obtain ⟨u, hu, h⟩ := bind_ok.mp h
  have hreported : Reaches name key s u := by
    refine reaches_storeReported hstatus (fun v hv row hrun => hrows row ?_) hu
    refine List.mem_append_left _ (List.mem_filterMap.mpr ⟨v, hv, ?_⟩)
    rw [hrun]
    rfl
  have hdue := reaches_storeDue (fun row hr => hrows row (List.mem_append_right _ hr)) u
  rw [if_neg hstatus] at h
  obtain rfl := Except.ok.inj h
  exact (hreported.trans hdue).trans
    (Reaches.one (.close _ _ _ _) trivial (pairTables_terminalize _ _ _ _ _))

theorem reaches_finishWrite {row : Job} {status : JobStatus} {summary : Option Dict}
    {now : Time} {s t : JobStore} {done : Bool} (hstatus : status ≠ .running)
    (hrows : ∀ r ∈ storedRuns ⟨row.id, row.kind, status, row.startedAt, now⟩
      (summary.getD []), Distinct name key r)
    (h : finishWrite row status summary now s = .ok (done, t)) : Reaches name key s t := by
  unfold finishWrite at h
  split_ifs at h
  · obtain ⟨-, rfl⟩ := Prod.mk.inj (Except.ok.inj h)
    exact .same rfl
  · obtain ⟨u, hu, h⟩ := bind_ok.mp h
    obtain ⟨-, rfl⟩ := Prod.mk.inj (Except.ok.inj h)
    exact (reaches_storePairResults hstatus hrows hu).congr rfl rfl rfl rfl

theorem reaches_markStaleWhere (p : Job → Bool) (reason summary : String) (now : Time)
    (s : JobStore) : Reaches name key s (markStaleWhere p reason summary now s) := by
  have hclose : ∀ (rows : List Job) u, Reaches name key u
      (rows.foldl (fun s row => terminalizeAttempts row.id .stale now (some reason) s) u) :=
    fun rows => Reaches.foldl fun row _ u => Reaches.one (.close row.id .stale now (some reason))
      trivial (pairTables_terminalize row.id .stale now (some reason) u)
  exact (hclose (s.jobs.filter fun j => j.status = .running && p j)
    { s with
      jobs := Tables.updateWhere (fun j => j.status = .running && p j)
        (fun j => { j with status := .stale, endedAt := some now, summaryJson := some summary })
        s.jobs }).congr rfl rfl rfl rfl

/-- The rows of the attempts that begin with a job. -/
def startedRuns (r : StartRequest) (now : Time) (s : JobStore) : List PairRun :=
  r.prepared.filterMap (startedRun s.nextJobId r.kind now)

theorem reaches_jobStart {r : StartRequest} {now : Time} {s t : JobStore} {new : Nat}
    (hrows : ∀ row ∈ startedRuns r now s, Distinct name key row)
    (h : jobStart r now s = .ok (new, t)) : Reaches name key s t := by
  unfold jobStart at h
  by_cases hkind : r.kind = "" ∨ 64 < r.kind.length
  · rw [if_pos hkind] at h
    cases h
  rw [if_neg hkind] at h
  generalize (if r.exclusiveScope then latestRunning (scopeKinds r.kind) s.jobs else none)
    = running at h
  cases running with
  | some j => cases h
  | none =>
    simp only at h
    have hbegin : ∀ u, Reaches name key u
        ((startedRuns r now s).foldl (fun s row => storeStarted now row s) u) := by
      refine Reaches.foldl fun row hrow u => ?_
      obtain ⟨attempt, _, hstarted⟩ := List.mem_filterMap.mp hrow
      obtain ⟨hnamed, hsucceeded, hterminal⟩ := startedRun_spec hstarted
      exact Reaches.one (.begin row now) ⟨hnamed, hrows row hrow, hsucceeded, hterminal⟩
        (pairTables_storeStarted now row u)
    split_ifs at h <;>
    · obtain ⟨-, rfl⟩ := Prod.mk.inj (Except.ok.inj h)
      exact (hbegin { s with nextJobId := s.nextJobId + 1, jobs := _ }).congr rfl rfl rfl rfl

theorem reaches_deleteJobs (p : Job → Bool) (s : JobStore) :
    Reaches name key s (deleteJobs p s) :=
  .one (.drop _) trivial rfl

/-- The context in which a job's summary is stored again. -/
def backfillContext (j : Job) : ResultContext :=
  ⟨j.id, j.kind, j.status, j.startedAt, timeOr j.endedAt j.startedAt⟩

/-- The rows that a backfill may store for a job. -/
def backfilledRuns (j : Job) : List PairRun :=
  match j.summaryJson with
  | none => []
  | some text => storedRuns (backfillContext j) (stagedSummary text)

theorem reaches_backfillJob {j : Job} {s t : JobStore}
    (hquiet : j.status = .running → j.summaryJson = none)
    (hrows : ∀ row ∈ backfilledRuns j, Distinct name key row)
    (h : backfillJob j s = .ok t) : Reaches name key s t := by
  unfold backfillJob at h
  unfold backfilledRuns at hrows
  cases hsummary : j.summaryJson with
  | none =>
    rw [hsummary] at h
    obtain rfl := Except.ok.inj h
    exact .same rfl
  | some text =>
    have hstatus : j.status ≠ .running := fun hr => by
      rw [hquiet hr] at hsummary
      cases hsummary
    rw [hsummary] at h hrows
    simp only [stagedSummary] at h hrows
    generalize jsonLoads (if text = "" then "\x7b\x7d" else text) = loaded at h hrows
    split at h
    · obtain ⟨expected, _, h⟩ := bind_ok.mp h
      split_ifs at h
      · obtain rfl := Except.ok.inj h
        exact .same rfl
      · exact reaches_storePairResults hstatus hrows h
    · obtain rfl := Except.ok.inj h
      exact .same rfl

theorem reaches_backfillJobs {jobs : List Job} {s t : JobStore}
    (hquiet : ∀ j ∈ jobs, j.status = .running → j.summaryJson = none)
    (hrows : ∀ j ∈ jobs, ∀ row ∈ backfilledRuns j, Distinct name key row)
    (h : jobs.foldlM (fun s j => backfillJob j s) s = .ok t) : Reaches name key s t := by
  induction jobs generalizing s with
  | nil =>
    obtain rfl := Except.ok.inj h
    exact .same rfl
  | cons j jobs ih =>
    rw [List.foldlM_cons] at h
    obtain ⟨u, hu, h⟩ := bind_ok.mp h
    exact (reaches_backfillJob (hquiet j (by simp)) (hrows j (by simp)) hu).trans
      (ih (fun k hk => hquiet k (by simp [hk])) (fun k hk => hrows k (by simp [hk])) h)

theorem backfillPairRuns_jobs {s t : JobStore} (h : backfillPairRuns s = .ok t) :
    t.jobs = s.jobs := by
  have hjob : ∀ {j : Job} {s t : JobStore}, backfillJob j s = .ok t → t.jobs = s.jobs := by
    intro j s t h
    unfold backfillJob at h
    split at h
    · obtain rfl := Except.ok.inj h
      rfl
    · split at h
      · obtain ⟨expected, _, h⟩ := bind_ok.mp h
        simp only at h
        split_ifs at h
        · obtain rfl := Except.ok.inj h
          rfl
        · exact IgnoresRuns.storePairResults (fun _ _ _ => rfl) h
      · obtain rfl := Except.ok.inj h
        rfl
  have hfold : ∀ (jobs : List Job) (s : JobStore),
      jobs.foldlM (fun s j => backfillJob j s) s = .ok t → t.jobs = s.jobs := by
    intro jobs
    induction jobs with
    | nil =>
      intro s h
      obtain rfl := Except.ok.inj h
      rfl
    | cons j jobs ih =>
      intro s h
      rw [List.foldlM_cons] at h
      obtain ⟨u, hu, h⟩ := bind_ok.mp h
      exact (ih u h).trans (hjob hu)
  exact hfold s.jobs s h

/-- Groups carry the key and the name of a row. -/
theorem mem_runGroups {rows : List PairRun} {g : RunGroup} (h : g ∈ runGroups rows) :
    ∃ r ∈ rows, r.historyKey = g.historyKey ∧ r.pairName = g.pairName := by
  obtain ⟨k, hk, rfl⟩ := List.mem_map.mp h
  rw [List.mem_insertionSort, mem_firstOccurrences] at hk
  obtain ⟨r, hr, rfl⟩ := List.mem_map.mp hk
  exact ⟨r, (List.mem_filter.mp hr).1, rfl, rfl⟩

theorem recordGroup_spec (now : Time) (g : RunGroup) :
    ∃ seenAt succeeded terminal successAt, ∀ history, recordGroup now g history
      = recordHistoryAt g.historyKey g.pairName seenAt succeeded terminal successAt history :=
  ⟨_, _, _, _, fun _ => rfl⟩

/-- Recording group after group is a run of changes. -/
theorem run_recordGroups (now : Time) {runs : List PairRun} {groups : List RunGroup}
    (hgroups : ∀ g ∈ groups, key ≠ defaultHistoryKey "" name →
      strip g.historyKey = defaultHistoryKey "" name → strip g.pairName = name)
    (history : List PairHistory) :
    ∃ cs, Run (PairStep name key) ⟨runs, history⟩ cs
      ⟨runs, groups.foldl (fun h g => recordGroup now g h) history⟩ := by
  induction groups generalizing history with
  | nil => exact ⟨[], .nil _⟩
  | cons g groups ih =>
    obtain ⟨seenAt, succeeded, terminal, successAt, hgroup⟩ := recordGroup_spec now g
    rw [List.foldl_cons, hgroup]
    obtain ⟨cs, hcs⟩ := ih (fun g' hg' => hgroups g' (by simp [hg'])) (recordHistoryAt
      g.historyKey g.pairName seenAt succeeded terminal successAt history)
    exact ⟨.record g.historyKey g.pairName seenAt succeeded terminal successAt :: cs,
      .cons ⟨rfl, hgroups g (by simp)⟩ hcs⟩

theorem reaches_backfillPairHistory (now : Time) {s : JobStore}
    (hs : Evidence name key s.pairTables) : Reaches name key s (backfillPairHistory now s) := by
  refine run_recordGroups now (fun g hg hne hlegacy => ?_) s.history
  obtain ⟨r, hr, hkey, hname⟩ := mem_runGroups hg
  have hnamed := hs.wellNamed r hr
  rw [← hkey, hnamed.key] at hlegacy
  rw [← hname, hnamed.name]
  exact (hs.distinct r hr hne).1 hlegacy

end Transactions

/-! ### The system -/

/-- The transactions on the job tables.  The row a finish works with was read earlier and
may be out of date. -/
inductive StoreAction
  | start (request : StartRequest) (now : Time)
  | finish (row : Job) (status : JobStatus) (summary : Option Dict) (now : Time)
  | stage (id : Nat) (status : JobStatus) (summary : Option Dict) (now : Time)
  | applied (id : Nat) (now : Time)
  | markStale (id : Nat) (reason : String) (now : Time)
  | markAllStale (kinds : List String) (reason : String) (now : Time)
  | markOldStale (maxAge : Int) (kind : Option String) (reason : String) (now : Time)
  | prune (olderThanDays keepLatest : Int) (now : Time)
  | deleteFailed
  | backfillRuns
  | backfillHistory (now : Time)
  | lookup (pairName : String) (historyKey : Option String)

/-- A transaction that raises leaves the tables as they were. -/
def committed {α : Type} (r : Except PyError (α × JobStore)) (s : JobStore) : JobStore :=
  match r with
  | .ok (_, t) => t
  | .error _ => s

def StoreAction.run : StoreAction → JobStore → JobStore
  | .start request now, s => committed (jobStart request now s) s
  | .finish row status summary now, s => committed (finishWrite row status summary now s) s
  | .stage id status summary now, s =>
    committed ((terminalStage id status summary now s).map fun t => ((), t)) s
  | .applied id now, s => applyMark id now s
  | .markStale id reason now, s => jobMarkStale id reason now s
  | .markAllStale kinds reason now, s => jobsMarkAllRunningStale kinds reason now s
  | .markOldStale maxAge kind reason now, s => jobsMarkStale maxAge kind reason now s
  | .prune olderThanDays keepLatest now, s => (jobsPrune olderThanDays keepLatest now s).2
  | .deleteFailed, s => committed (jobsDeleteFailed s) s
  | .backfillRuns, s => committed ((backfillPairRuns s).map fun t => ((), t)) s
  | .backfillHistory now, s => backfillPairHistory now s
  | .lookup pairName historyKey, s => (pairBaselineState pairName historyKey s).2

def storeStep (s : JobStore) (a : StoreAction) (t : JobStore) : Prop := t = a.run s

/-- The attempts that a transaction records. -/
def StoreAction.recorded (s : JobStore) : StoreAction → List PairRun
  | .start request now => startedRuns request now s
  | .finish row status summary now =>
    storedRuns ⟨row.id, row.kind, status, row.startedAt, now⟩ (summary.getD [])
  | .backfillRuns => s.jobs.flatMap backfilledRuns
  | _ => []

instance (name key : String) : DecidablePred (Distinct name key) := fun r => by
  unfold Distinct
  infer_instance

/-- The transaction keeps apart what is known of the pair: it records no attempt of another
name under the key derived from the pair's name and no success of the pair under a blank
key, it copies no evidence of another name to that key, and it does not finish a job as
running. -/
def StoreAction.keepsApart (name key : String) (s : JobStore) (a : StoreAction) : Bool :=
  (a.recorded s).all (fun r => Distinct name key r) &&
    match a with
    | .finish _ status _ _ => status ≠ .running
    | .lookup n k =>
      key = defaultHistoryKey "" name || lookupKey n k ≠ defaultHistoryKey "" name ||
        strip n = name
    | _ => true

/-- The transactions that keep the pair apart. -/
def apartStep (name key : String) : JobStore → StoreAction → JobStore → Prop :=
  Restrict storeStep fun s a => a.keepsApart name key s = true

/-- Only jobs that have ended have a summary. -/
def QuietJobs (s : JobStore) : Prop :=
  ∀ j ∈ s.jobs, j.status = .running → j.summaryJson = none

theorem quietJobs_update {s t : JobStore} {q : Job → Bool} {f : Job → Job} (hs : QuietJobs s)
    (hf : ∀ j, (f j).status ≠ .running) (h : t.jobs = Tables.updateWhere q f s.jobs) :
    QuietJobs t := by
  intro j hj hrunning
  rw [h] at hj
  obtain ⟨old, hold, rfl⟩ := List.mem_map.mp hj
  by_cases hq : q old = true
  · rw [if_pos hq] at hrunning
    exact absurd hrunning (hf old)
  · rw [if_neg hq] at hrunning ⊢
    exact hs old hold hrunning

theorem quietJobs_same {s t : JobStore} (hs : QuietJobs s) (h : t.jobs = s.jobs) :
    QuietJobs t := by
  intro j hj
  exact hs j (h ▸ hj)

theorem quietJobs_markStaleWhere {s : JobStore} (hs : QuietJobs s) (p : Job → Bool)
    (reason summary : String) (now : Time) :
    QuietJobs (markStaleWhere p reason summary now s) :=
  quietJobs_update hs (fun _ => by simp) (markStaleWhere_jobs p reason summary now s).2.2

theorem quietJobs_deleteJobs {s : JobStore} (hs : QuietJobs s) (p : Job → Bool) :
    QuietJobs (deleteJobs p s) :=
  fun j hj => hs j (List.mem_filter.mp hj).1

theorem terminalStage_pairTables {id : Nat} {status : JobStatus} {summary : Option Dict}
    {now : Time} {s t : JobStore} (h : terminalStage id status summary now s = .ok t) :
    t.pairTables = s.pairTables := by
  unfold terminalStage at h
  split_ifs at h
  cases hj : s.job id with
  | none =>
    rw [hj] at h
    cases h
  | some j =>
    rw [hj] at h
    simp only at h
    cases hi : s.intent id with
    | none =>
      rw [hi] at h
      obtain rfl := Except.ok.inj h
      rfl
    | some i =>
      rw [hi] at h
      simp only at h
      split_ifs at h
      obtain rfl := Except.ok.inj h
      rfl

theorem lastRun_spec {p : PairRun → Bool} {rows : List PairRun} {r : PairRun}
    (h : lastRun p rows = some r) : r ∈ rows ∧ p r = true := by
  unfold lastRun at h
  refine List.mem_filter.mp (Tables.mem_of_foldl (fun best a found hfound => ?_) h)
  cases best with
  | none => exact Or.inr (Option.some.inj hfound).symm
  | some old =>
    simp only at hfound
    split_ifs at hfound
    · exact Or.inr (Option.some.inj hfound).symm
    · exact Or.inl hfound

/-! ### Lookups -/

section Lookups

variable {name key : String} {s : JobStore}

/-- What a lookup copies carries the name it was asked for, or that of an attempt under its
key. -/
theorem findSuccess_name {n k : String} {c : CopiedEvidence}
    (h : findSuccess n k s = .found c) :
    c.pairName = n ∨ ∃ r ∈ s.pairRuns, r.historyKey = k ∧ c.pairName = r.pairName := by
  unfold findSuccess at h
  simp only at h
  by_cases hever : (s.pairHistory k).any PairHistory.everSucceeded = true
  · rw [if_pos hever] at h
    cases h
  rw [if_neg hever] at h
  cases hrun : lastRun (fun r => r.historyKey = k && r.succeeded) s.pairRuns with
  | some run =>
    rw [hrun] at h
    obtain rfl := FoundSuccess.found.inj h
    obtain ⟨hmem, hp⟩ := lastRun_spec hrun
    have hkey : run.historyKey = k := of_decide_eq_true (Bool.and_eq_true _ _ ▸ hp).1
    by_cases hblank : run.pairName = ""
    · exact Or.inl (by simp [hblank])
    · exact Or.inr ⟨run, hmem, hkey, by simp [hblank]⟩
  | none =>
    rw [hrun] at h
    simp only at h
    left
    by_cases hlegacy : k = defaultHistoryKey "" n
    · rw [if_pos hlegacy] at h
      cases h
    rw [if_neg hlegacy] at h
    split at h
    · obtain rfl := FoundSuccess.found.inj h
      rfl
    · split at h
      · obtain rfl := FoundSuccess.found.inj h
        rfl
      · cases h

theorem lookupKey_strip (n : String) (k : Option String) :
    strip (lookupKey n k) = lookupKey n k := by
  simp [lookupKey]

theorem reaches_lookup (hs : Evidence name key s.pairTables) {n : String} {k : Option String}
    (hn : key ≠ defaultHistoryKey "" name → lookupKey n k = defaultHistoryKey "" name →
      strip n = name) :
    Reaches name key s (pairBaselineState n k s).2 := by
  unfold pairBaselineState
  simp only
  by_cases hblank : strip n = "" ∨ lookupKey n k = ""
  · rw [if_pos hblank]
    exact .same rfl
  · rw [if_neg hblank]
    cases hfound : findSuccess (strip n) (lookupKey n k) s with
    | none => exact .same rfl
    | recorded => exact .same rfl
    | found c =>
      have hfits : (Change.record (lookupKey n k) c.pairName c.seenAt true c.terminal
          c.successAt).Fits name key := by
        intro hkey hlegacy
        rw [lookupKey_strip] at hlegacy
        rcases findSuccess_name hfound with hname | ⟨r, hr, hrkey, hname⟩
        · rw [hname, strip_idem]
          exact hn hkey hlegacy
        · have hnamed := hs.wellNamed r hr
          rw [hname, hnamed.name]
          exact (hs.distinct r hr hkey).1 (hrkey.trans hlegacy)
      refine Reaches.one _ hfits ?_
      simp only [Change.apply, JobStore.pairTables]

/-- The answer as the history alone gives it. -/
def recordedState (name key : String) (history : List PairHistory) : BaselineState :=
  let legacy := defaultHistoryKey "" name
  if marked PairHistory.everSucceeded history key ||
      (key ≠ legacy && marked PairHistory.everSucceeded history legacy) then .succeeded
  else if marked PairHistory.terminalSeen history key ||
      (key ≠ legacy && marked PairHistory.terminalSeen history legacy) then .ambiguous
  else .new

/-- The row of the name-derived key is of this pair. -/
theorem legacyHistory_any (hs : Evidence name key s.pairTables)
    (hne : key ≠ defaultHistoryKey "" name) (mark : PairHistory → Bool) :
    (legacyHistory name s).any mark = marked mark s.history (defaultHistoryKey "" name) := by
  unfold legacyHistory marked JobStore.pairHistory
  cases hfind : Tables.find PairHistory.historyKey s.history (defaultHistoryKey "" name) with
  | none => rfl
  | some h =>
    have hname := hs.legacy hne h hfind
    simp [Option.filter, hname]

theorem findSuccess_eq (hs : Evidence name key s.pairTables) (hkey : key ≠ "") :
    (∃ c, findSuccess name key s = .found c ∨ findSuccess name key s = .recorded) ∧
        (marked PairHistory.everSucceeded s.history key ||
          (key ≠ defaultHistoryKey "" name &&
            marked PairHistory.everSucceeded s.history (defaultHistoryKey "" name))) = true ∨
      findSuccess name key s = .none ∧
        (marked PairHistory.everSucceeded s.history key ||
          (key ≠ defaultHistoryKey "" name &&
            marked PairHistory.everSucceeded s.history (defaultHistoryKey "" name))) = false := by
  have hnone : CopiedEvidence := ⟨"", 0, false, none⟩
  by_cases hever : marked PairHistory.everSucceeded s.history key = true
  · left
    have hany : (s.pairHistory key).any PairHistory.everSucceeded = true := hever
    exact ⟨⟨hnone, Or.inr (by simp [findSuccess, hany])⟩, by simp [hever]⟩
  have hever : marked PairHistory.everSucceeded s.history key = false := by simpa using hever
  have hany : (s.pairHistory key).any PairHistory.everSucceeded = false := hever
  -- an attempt that succeeded would stand in the history
  have hrun : lastRun (fun r => r.historyKey = key && r.succeeded) s.pairRuns = none := by
    cases hrun : lastRun (fun r => r.historyKey = key && r.succeeded) s.pairRuns with
    | none => rfl
    | some r =>
      obtain ⟨hmem, hp⟩ := lastRun_spec hrun
      obtain ⟨hk, hsucceeded⟩ := Bool.and_eq_true _ _ ▸ hp
      have hk : r.historyKey = key := of_decide_eq_true hk
      have hmark := hs.succeeded r hmem (hk ▸ hkey) hsucceeded
      rw [hk] at hmark
      exact absurd hmark (by rw [show marked _ s.pairTables.history key = false from hever]; simp)
  by_cases hlegacy : key = defaultHistoryKey "" name
  · right
    have hsame : decide (key ≠ defaultHistoryKey "" name) = false := by simpa using hlegacy
    refine ⟨?_, by rw [hever, hsame]; rfl⟩
    unfold findSuccess
    simp only [hany, hrun, if_pos hlegacy, Bool.false_eq_true, if_false]
  · have hlegacyAny := legacyHistory_any hs hlegacy PairHistory.everSucceeded
    cases hmark : marked PairHistory.everSucceeded s.history (defaultHistoryKey "" name) with
    | true =>
      left
      rw [hmark] at hlegacyAny
      obtain ⟨h, hh, hhe⟩ := (Option.any_eq_true _ _).mp hlegacyAny
      have hfilter : (legacyHistory name s).filter PairHistory.everSucceeded = some h := by
        simp [hh, Option.filter, hhe]
      refine ⟨⟨⟨name, h.lastSeenAt, h.terminalSeen,
        some (timeOr h.lastSuccessAt h.lastSeenAt)⟩, Or.inl ?_⟩, by simp [hever, hlegacy]⟩
      unfold findSuccess
      simp only [hany, hrun, hfilter, if_neg hlegacy, Bool.false_eq_true, if_false]
    | false =>
      right
      refine ⟨?_, by simp [hever]⟩
      rw [hmark] at hlegacyAny
      have hfilter : (legacyHistory name s).filter PairHistory.everSucceeded = none := by
        cases hh : legacyHistory name s with
        | none => rfl
        | some h =>
          rw [hh] at hlegacyAny
          have hhe : h.everSucceeded = false := by simpa using hlegacyAny
          simp [Option.filter, hhe]
      have hold : lastRun (fun r => r.pairName = name &&
          (r.historyKey = "" || r.historyKey = defaultHistoryKey "" name) && r.succeeded)
          s.pairRuns = none := by
        cases hold : lastRun (fun r => r.pairName = name &&
            (r.historyKey = "" || r.historyKey = defaultHistoryKey "" name) && r.succeeded)
            s.pairRuns with
        | none => rfl
        | some r =>
          obtain ⟨hmem, hp⟩ := lastRun_spec hold
          simp only [Bool.and_eq_true, Bool.or_eq_true, decide_eq_true_eq] at hp
          obtain ⟨⟨hname, hk⟩, hsucceeded⟩ := hp
          obtain ⟨-, hblank⟩ := hs.distinct r hmem hlegacy
          by_cases hb : r.historyKey = ""
          · rw [hblank hb hname] at hsucceeded
            cases hsucceeded
          · have hk := hk.resolve_left hb
            have hm := hs.succeeded r hmem hb hsucceeded
            rw [hk] at hm
            exact absurd hm (by
              rw [show marked _ s.pairTables.history (defaultHistoryKey "" name) = false from
                hmark]
              simp)
      unfold findSuccess
      simp only [hany, hrun, hfilter, hold, if_neg hlegacy, Bool.false_eq_true, if_false]

theorem terminalSeen_eq (hs : Evidence name key s.pairTables) (hkey : key ≠ "") :
    terminalSeen name key s = (marked PairHistory.terminalSeen s.history key ||
      (key ≠ defaultHistoryKey "" name &&
        marked PairHistory.terminalSeen s.history (defaultHistoryKey "" name))) := by
  have hruns : s.pairRuns.any (fun r => r.historyKey = key && r.terminal) = true →
      marked PairHistory.terminalSeen s.history key = true := by
    intro h
    obtain ⟨r, hmem, hp⟩ := List.any_eq_true.mp h
    obtain ⟨hk, hterminal⟩ := Bool.and_eq_true _ _ ▸ hp
    have hk : r.historyKey = key := of_decide_eq_true hk
    have hmark := hs.terminal r hmem (hk ▸ hkey) hterminal
    rwa [hk] at hmark
  have hlegacy : (decide (key ≠ defaultHistoryKey "" name) &&
      (legacyHistory name s).any PairHistory.terminalSeen)
        = (decide (key ≠ defaultHistoryKey "" name) &&
          marked PairHistory.terminalSeen s.history (defaultHistoryKey "" name)) := by
    by_cases h : key = defaultHistoryKey "" name
    · simp [h]
    · rw [legacyHistory_any hs h]
  unfold terminalSeen
  simp only
  rw [hlegacy]
  change (marked PairHistory.terminalSeen s.history key || _ || _) = _
  cases hany : s.pairRuns.any (fun r => r.historyKey = key && r.terminal) with
  | true => simp [hruns hany]
  | false => simp

/-- An attempt that has ended rules out `new`. -/
theorem baseline_of_terminal {pairName : String} {historyKey : Option String} {r : PairRun}
    (hr : r ∈ s.pairRuns) (hkey : r.historyKey = lookupKey pairName historyKey)
    (hterminal : r.terminal = true) : (pairBaselineState pairName historyKey s).1 ≠ .new := by
  have hany : s.pairRuns.any
      (fun r => r.historyKey = lookupKey pairName historyKey && r.terminal) = true :=
    List.any_eq_true.mpr ⟨r, hr, by simp [hkey, hterminal]⟩
  have hseen : terminalSeen (strip pairName) (lookupKey pairName historyKey) s = true := by
    unfold terminalSeen
    rw [hany]
    simp
  unfold pairBaselineState
  simp only [hseen, if_true]
  by_cases hblank : strip pairName = "" ∨ lookupKey pairName historyKey = ""
  · simp [hblank]
  · rw [if_neg hblank]
    split <;> simp

/-- **The answer can be read off the history alone.** -/
theorem baseline_eq {pairName : String} {historyKey : Option String}
    (hs : Evidence (strip pairName) (lookupKey pairName historyKey) s.pairTables)
    (hname : strip pairName ≠ "") (hkey : lookupKey pairName historyKey ≠ "") :
    (pairBaselineState pairName historyKey s).1
      = recordedState (strip pairName) (lookupKey pairName historyKey) s.history := by
  unfold pairBaselineState recordedState
  simp only [hname, hkey, or_self, if_false]
  rcases findSuccess_eq hs hkey with ⟨⟨c, hfound | hfound⟩, hmark⟩ | ⟨hfound, hmark⟩
  · rw [hfound, if_pos hmark]
  · rw [hfound, if_pos hmark]
  · rw [hfound, hmark, terminalSeen_eq hs hkey]
    rfl

end Lookups

/-! ### Runs -/

/-- The tables hold the evidence about a pair, and only ended jobs have a summary. -/
structure Settled (name key : String) (s : JobStore) : Prop where
  evidence : Evidence name key s.pairTables
  quiet : QuietJobs s

theorem settled_empty (name key : String) : Settled name key .empty := by
  refine ⟨⟨?_, ?_, ?_, ?_, ?_⟩, ?_⟩
  case refine_5 =>
    intro _ _ h
    cases h
  all_goals
    intro _ h
    cases h

/-- **One transaction** that keeps the pair apart is a sequence of fitting changes. -/
theorem apartStep_spec {name key : String} {s t : JobStore} {a : StoreAction}
    (hs : Settled name key s) (h : apartStep name key s a t) :
    Reaches name key s t ∧ QuietJobs t := by
  obtain ⟨rfl, hapart⟩ := h
  obtain ⟨hrecorded, hrest⟩ := Bool.and_eq_true _ _ ▸ hapart
  have hrows : ∀ r ∈ a.recorded s, Distinct name key r := fun r hr =>
    of_decide_eq_true (List.all_eq_true.mp hrecorded r hr)
  have hmarked : ∀ p reason summary now,
      Reaches name key s (markStaleWhere p reason summary now s) ∧
        QuietJobs (markStaleWhere p reason summary now s) := fun p reason summary now =>
    ⟨reaches_markStaleWhere p reason summary now s,
      quietJobs_markStaleWhere hs.quiet p reason summary now⟩
  cases a with
  | start request now =>
    simp only [StoreAction.run]
    cases hstart : jobStart request now s with
    | error e => exact ⟨.same rfl, hs.quiet⟩
    | ok r =>
      obtain ⟨new, t⟩ := r
      refine ⟨reaches_jobStart hrows hstart, ?_⟩
      obtain ⟨_, _, _, j, _, _, hsummary, _, hjobs⟩ := jobStart_jobs hstart
      intro k hk hrunning
      change k ∈ t.jobs at hk
      rw [hjobs] at hk
      rcases List.mem_append.mp hk with hold | hnew
      · exact hs.quiet k hold hrunning
      · obtain rfl := List.mem_singleton.mp hnew
        exact hsummary
  | finish row status summary now =>
    have hstatus : status ≠ .running := of_decide_eq_true hrest
    simp only [StoreAction.run]
    cases hwrite : finishWrite row status summary now s with
    | error e => exact ⟨.same rfl, hs.quiet⟩
    | ok r =>
      obtain ⟨done, t⟩ := r
      obtain ⟨_, _, _, hjobs⟩ := finishWrite_jobs hwrite
      exact ⟨reaches_finishWrite hstatus hrows hwrite,
        quietJobs_update hs.quiet (fun _ => hstatus) hjobs⟩
  | stage id status summary now =>
    simp only [StoreAction.run]
    cases hstage : terminalStage id status summary now s with
    | error e => exact ⟨.same rfl, hs.quiet⟩
    | ok t =>
      exact ⟨.same (terminalStage_pairTables hstage),
        quietJobs_same hs.quiet (terminalStage_spec hstage).1⟩
  | applied id now => exact ⟨.same rfl, quietJobs_same hs.quiet rfl⟩
  | markStale id reason now => exact hmarked _ _ _ _
  | markAllStale kinds reason now => exact hmarked _ _ _ _
  | markOldStale maxAge kind reason now => exact hmarked _ _ _ _
  | prune olderThanDays keepLatest now =>
    exact ⟨reaches_deleteJobs _ s, quietJobs_deleteJobs hs.quiet _⟩
  | deleteFailed =>
    simp only [StoreAction.run]
    cases hdelete : jobsDeleteFailed s with
    | error e => exact ⟨.same rfl, hs.quiet⟩
    | ok r =>
      obtain ⟨count, t⟩ := r
      obtain ⟨warned, _, hdelete⟩ := bind_ok.mp hdelete
      obtain ⟨-, rfl⟩ := Prod.mk.inj (Except.ok.inj hdelete)
      exact ⟨reaches_deleteJobs _ s, quietJobs_deleteJobs hs.quiet _⟩
  | backfillRuns =>
    simp only [StoreAction.run]
    cases hfill : backfillPairRuns s with
    | error e => exact ⟨.same rfl, hs.quiet⟩
    | ok t =>
      have hjob : ∀ j ∈ s.jobs, ∀ row ∈ backfilledRuns j, Distinct name key row :=
        fun j hj row hrow => hrows row (List.mem_flatMap.mpr ⟨j, hj, hrow⟩)
      exact ⟨reaches_backfillJobs hs.quiet hjob hfill,
        quietJobs_same hs.quiet (backfillPairRuns_jobs hfill)⟩
  | backfillHistory now =>
    exact ⟨reaches_backfillPairHistory now hs.evidence, quietJobs_same hs.quiet rfl⟩
  | lookup n k =>
    simp only [Bool.or_eq_true, decide_eq_true_eq] at hrest
    refine ⟨reaches_lookup hs.evidence fun hne hlegacy => ?_, ?_⟩
    · rcases hrest with (h | h) | h
      · exact absurd h hne
      · exact absurd hlegacy h
      · exact h
    · refine quietJobs_same hs.quiet ?_
      simp only [StoreAction.run, pairBaselineState]
      by_cases hblank : strip n = "" ∨ lookupKey n k = ""
      · rw [if_pos hblank]
      · rw [if_neg hblank]
        split <;> rfl

/-- Fitting changes keep the evidence and let the history grow. -/
theorem Reaches.spec {name key : String} {s t : JobStore} (h : Reaches name key s t)
    (hs : Evidence name key s.pairTables) :
    Evidence name key t.pairTables ∧ HistoryGrows s.history t.history := by
  obtain ⟨cs, hcs⟩ := h
  refine hcs.preserves (fun T => Evidence name key T ∧ HistoryGrows s.history T.history)
    (fun T c T' hT hstep => ?_) ⟨hs, .refl _⟩
  obtain ⟨rfl, hfits⟩ := hstep
  exact ⟨hT.1.apply hfits, hT.2.trans (c.apply_grows T)⟩

theorem settled_run {name key : String} {s t : JobStore} {as : List StoreAction}
    (h : Run (apartStep name key) s as t) (hs : Settled name key s) :
    Settled name key t ∧ HistoryGrows s.history t.history := by
  refine h.preserves (fun u => Settled name key u ∧ HistoryGrows s.history u.history)
    (fun u a u' hu hstep => ?_) ⟨hs, .refl _⟩
  obtain ⟨hreaches, hquiet⟩ := apartStep_spec hu.1 hstep
  obtain ⟨hevidence, hgrows⟩ := hreaches.spec hu.1.evidence
  exact ⟨⟨hevidence, hquiet⟩, hu.2.trans hgrows⟩

/-- How far a baseline has come. -/
def BaselineState.rank : BaselineState → Nat
  | .new => 0
  | .ambiguous => 1
  | .succeeded => 2

theorem recordedState_mono {name key : String} {history history' : List PairHistory}
    (h : HistoryGrows history history') :
    (recordedState name key history).rank ≤ (recordedState name key history').rank := by
  have hor : ∀ {a b a' b' c : Bool}, (a = true → a' = true) → (b = true → b' = true) →
      (a || (c && b)) = true → (a' || (c && b')) = true := by
    intro a b a' b' c ha hb hab
    cases a <;> cases b <;> cases c <;> simp_all
  have hsucceeded := hor (c := key ≠ defaultHistoryKey "" name)
    (h.succeeded (k := key)) (h.succeeded (k := defaultHistoryKey "" name))
  have hterminal := hor (c := key ≠ defaultHistoryKey "" name)
    (h.terminal (k := key)) (h.terminal (k := defaultHistoryKey "" name))
  have hmono : ∀ {p q p' q' : Bool}, (p = true → p' = true) → (q = true → q' = true) →
      (if p then BaselineState.succeeded else if q then .ambiguous else .new).rank
        ≤ (if p' then BaselineState.succeeded else if q' then .ambiguous else .new).rank := by
    intro p q p' q' hp hq
    cases p <;> cases q <;> cases p' <;> cases q' <;> simp_all [BaselineState.rank]
  exact hmono hsucceeded hterminal

/-- **A baseline only moves forward**, as long as what is known of the pair is kept apart:
the answer of `pair_baseline_state` never falls back, after an attempt that has ended it is
never `new`, and then no first resynchronisation is allowed. -/
theorem baseline_moves_forward {pairName : String} {historyKey : Option String}
    {before after : List StoreAction} {s t : JobStore}
    (hbefore : Run (apartStep (strip pairName) (lookupKey pairName historyKey))
      .empty before s)
    (hafter : Run (apartStep (strip pairName) (lookupKey pairName historyKey)) s after t) :
    (pairBaselineState pairName historyKey s).1.rank
        ≤ (pairBaselineState pairName historyKey t).1.rank ∧
      ((∃ r ∈ s.pairRuns, r.historyKey = lookupKey pairName historyKey ∧ r.terminal = true) →
        (pairBaselineState pairName historyKey t).1 ≠ .new) ∧
      ∀ env pair backup, historyKey = some (rcloneHistoryKey env pair) →
        (pairBaselineState pairName historyKey s).1 ≠ .new →
          (firstRunResyncAllowed env pair backup pairName t).1 = false := by
  have hs := (settled_run hbefore (settled_empty _ _)).1
  obtain ⟨ht, hgrows⟩ := settled_run hafter hs
  have hforward : (pairBaselineState pairName historyKey s).1.rank
      ≤ (pairBaselineState pairName historyKey t).1.rank := by
    by_cases hblank : strip pairName = "" ∨ lookupKey pairName historyKey = ""
    · simp [pairBaselineState, hblank]
    · have hname : strip pairName ≠ "" := fun h => hblank (Or.inl h)
      have hkey : lookupKey pairName historyKey ≠ "" := fun h => hblank (Or.inr h)
      rw [baseline_eq hs.evidence hname hkey, baseline_eq ht.evidence hname hkey]
      exact recordedState_mono hgrows
  have hnew : ∀ b : BaselineState, b ≠ .new → 0 < b.rank := by
    intro b hb
    cases b with
    | new => exact absurd rfl hb
    | ambiguous => exact Nat.one_pos
    | succeeded => exact Nat.two_pos
  have hstays : (pairBaselineState pairName historyKey s).1 ≠ .new →
      (pairBaselineState pairName historyKey t).1 ≠ .new := by
    intro hne heq
    rw [heq] at hforward
    exact absurd hforward (Nat.not_le_of_lt (hnew _ hne))
  refine ⟨hforward, fun ⟨r, hr, hrkey, hterminal⟩ => hstays ?_, fun env pair backup hkey hne => ?_⟩
  · exact baseline_of_terminal hr hrkey hterminal
  · have hstate := hstays hne
    subst hkey
    unfold firstRunResyncAllowed
    split_ifs
    · rfl
    · simp only [decide_eq_false_iff_not]
      exact hstate

/-! ### Two names that differ in case -/

/-- A backup of one pair, given by its name alone. -/
def namedRequest (name : String) : StartRequest where
  kind := "backup"
  attempts := [.dict [("name", .str name)]]
  exclusiveScope := true
  definitionId := none
  definitionName := none
  scheduledSlot := none
  dryRun := none
  trigger := none

/-- The row that starting it writes. -/
def namedJob (id : Nat) (now : Time) : Job where
  id := id
  kind := "backup"
  status := .running
  startedAt := now
  endedAt := none
  summaryJson := none
  definitionId := none
  definitionName := none
  scheduledSlot := none
  dryRun := false
  trigger := "manual"

/-- The backup starts and fails. -/
def failedRun (id : Nat) (name : String) (now : Time) : List StoreAction :=
  [.start (namedRequest name) now,
   .finish (namedJob id now) .error
    (some [("pairs", .list [.dict [("name", .str name), ("ok", .bool false)]])])
    (now + 60000000)]

def JobStore.after (s : JobStore) (as : List StoreAction) : JobStore :=
  as.foldl (fun s a => a.run s) s

theorem run_after (s : JobStore) (as : List StoreAction) : Run storeStep s as (s.after as) :=
  run_of_foldl (fun (s : JobStore) (a : StoreAction) => a.run s) s as

/-- The pair as it is configured now. -/
def photosPair : Dict := [("id", .str "1"), ("name", .str "Photos")]

/-- The steps of a run that keeps a pair apart, one after the other. -/
def apartRun (name key : String) : JobStore → List StoreAction → Bool
  | _, [] => true
  | s, a :: as => a.keepsApart name key s && apartRun name key (a.run s) as

theorem run_of_apartRun {name key : String} {s : JobStore} {as : List StoreAction}
    (h : apartRun name key s as = true) : Run (apartStep name key) s as (s.after as) := by
  induction as generalizing s with
  | nil => exact .nil s
  | cons a as ih =>
    obtain ⟨hapart, hrest⟩ := Bool.and_eq_true _ _ ▸ h
    exact .cons ⟨rfl, hapart⟩ (ih hrest)

/-- The failed attempt still counts when its job has been deleted. -/
theorem baseline_moves_forward_photos :
    (pairBaselineState "Photos" (some "rclone:id:1")
      ((JobStore.empty.after (failedRun 1 "Photos" 1000000)).after
        [.prune 1 0 900000000000])).1 ≠ .new := by
  have hname : strip "Photos" = "Photos" := by decide +kernel
  have hkey : lookupKey "Photos" (some "rclone:id:1") = "rclone:id:1" := by decide +kernel
  have hbefore : Run (apartStep (strip "Photos") (lookupKey "Photos" (some "rclone:id:1")))
      .empty (failedRun 1 "Photos" 1000000) _ := run_of_apartRun (by
    rw [hname, hkey]
    decide +kernel)
  have hafter : Run (apartStep (strip "Photos") (lookupKey "Photos" (some "rclone:id:1")))
      (JobStore.empty.after (failedRun 1 "Photos" 1000000)) [.prune 1 0 900000000000] _ :=
    run_of_apartRun (by
      rw [hname, hkey]
      decide +kernel)
  have hforward := (baseline_moves_forward hbefore hafter).1
  have hambiguous : (pairBaselineState "Photos" (some "rclone:id:1")
      (JobStore.empty.after (failedRun 1 "Photos" 1000000))).1 = .ambiguous := by decide +kernel
  intro hnew
  rw [hambiguous, hnew] at hforward
  exact absurd hforward (by decide)

/-- **A baseline can fall back**: a failed attempt of `photos` under the key derived from
its name hides the failed attempt of `Photos` under the same key, and the pair may be
resynchronised as if it were new. -/
theorem baseline_falls_back : ∃ s t,
    Run storeStep .empty (failedRun 1 "Photos" 1000000) s ∧
    Run storeStep s (failedRun 2 "photos" 200000000) t ∧
    (pairBaselineState "Photos" (some "rclone:id:1") s).1 = .ambiguous ∧
    (pairBaselineState "Photos" (some "rclone:id:1") t).1 = .new ∧
    ∀ env, (firstRunResyncAllowed env photosPair [] "Photos" s).1 = false ∧
      (firstRunResyncAllowed env photosPair [] "Photos" t).1 = true := by
  have hs : (pairBaselineState "Photos" (some "rclone:id:1")
      (JobStore.empty.after (failedRun 1 "Photos" 1000000))).1 = .ambiguous := by decide +kernel
  have ht : (pairBaselineState "Photos" (some "rclone:id:1")
      ((JobStore.empty.after (failedRun 1 "Photos" 1000000)).after
        (failedRun 2 "photos" 200000000))).1 = .new := by decide +kernel
  have hkey : ∀ env, rcloneHistoryKey env photosPair = "rclone:id:1" := by
    intro env
    have hid : strip (photosPair.textOr "id" "") = "1" := by decide +kernel
    unfold rcloneHistoryKey
    rw [hid, if_pos (by decide)]
    rfl
  have hallowed : ∀ env s, (firstRunResyncAllowed env photosPair [] "Photos" s).1
      = decide ((pairBaselineState "Photos" (some "rclone:id:1") s).1 = .new) := by
    intro env s
    have hset : truthy (Dict.getOr photosPair "auto_resync_first_run"
        (Dict.getOr [] "auto_resync_first_run" (.bool true))) = true := by decide
    unfold firstRunResyncAllowed
    rw [hkey, hset]
    rfl
  refine ⟨_, _, run_after _ _, run_after _ _, hs, ht, fun env => ?_⟩
  rw [hallowed, hallowed, hs, ht]
  exact ⟨rfl, rfl⟩

end RcloneSync
