/-
RcloneSync/PbsRetention.lean

What is recorded of a run over PBS targets, and what the scheduler makes of it
(`run_pbs_backup`, `_store_pair_results`, `find_due_pbs_targets`).

A job starts with an open row for each of its attempts.  The entries of the summary replace the
rows of the targets that had a turn, and what is still open is closed when the job ends, so each
attempt has one row, which is ok exactly if the backup command of its target ran and exited 0
(`RecordedPbs.row_of`).  No row of another job is as new, so the row is what the scheduler finds:
nothing is retried of a target that was backed up, and any other one that the scheduler tried is
retried after the delay, except in a repeated minute (`pbs_retention`).

The names and ids of the targets differ, as the configuration guarantees, and the clock does not
run backwards.
-/
import RcloneSync.DrillRecord
import RcloneSync.PbsBackup
import RcloneSync.RetryBackoff

namespace RcloneSync

open Py

/-! ### A job over PBS targets -/

/-- Who starts a job: the scheduler for the targets that are due, or a request. -/
inductive PbsCaller
  | scheduler
  | web

def PbsCaller.trigger : PbsCaller → String
  | .scheduler => "scheduler"
  | .web => "web"

/-- An attempt: a target, and the slot that it is due for. -/
structure PbsAttempt where
  target : PbsTarget
  slot : String

/-- What `job_start` is told of an attempt (`_attempt_metadata`, `pbs_run`). -/
def PbsAttempt.entry (caller : PbsCaller) (a : PbsAttempt) : Dict :=
  match caller with
  | .scheduler =>
    [("name", .str a.target.runName), ("history_key", .str a.target.historyKey),
     ("scheduled_slot", .str a.slot), ("trigger", .str "scheduler")]
  | .web =>
    [("name", .str a.target.runName), ("history_key", .str a.target.historyKey),
     ("trigger", .str "web")]

/-- `history_keys`; the names differ. -/
def pbsHistoryKeys (attempts : List PbsAttempt) : Dict :=
  attempts.map fun a => (a.target.runName, .str a.target.historyKey)

/-- `scheduler_slots`. -/
def pbsSlots (attempts : List PbsAttempt) : Dict :=
  (attempts.filter fun a => a.slot ≠ "").map fun a => (a.target.runName, .str a.slot)

/-- The status in `_run_thread`. -/
def webStatus (summary : Dict) : JobStatus :=
  if truthy (Dict.get summary "cancelled") then .cancelled
  else if truthy (Dict.get summary "ok") then .ok
  else .error

/-- A job: its attempts, and what `run_pbs_backup` makes of them. -/
structure PbsJob where
  caller : PbsCaller
  attempts : List PbsAttempt
  turns : List (PbsTarget × TargetCourse)
  startedAt : String
  endedAt : String
  refusal : Option PbsRefusal

namespace PbsJob

variable (J : PbsJob)

def run : PbsRun := ⟨J.caller.trigger, J.turns, J.startedAt, J.endedAt⟩

/-- The summary that is recorded. -/
def summary : Dict :=
  match J.caller with
  | .scheduler =>
    withMetadata (runPbsBackup J.run J.refusal) (pbsHistoryKeys J.attempts) (pbsSlots J.attempts)
  | .web =>
    Dict.set (runPbsBackup J.run J.refusal) "history_keys" (.dict (pbsHistoryKeys J.attempts))

/-- The status that is recorded. -/
def status : JobStatus :=
  match J.caller with
  | .scheduler => jobStatus J.summary
  | .web => webStatus J.summary

/-- The turns that came. -/
def taken : List (PbsTarget × TargetCourse) := if J.refusal.isSome then [] else J.turns

/-- The entries of the summary. -/
def entries : List Dict := J.taken.map fun t => turnEntry J.caller.trigger t.1 t.2

/-- The backup command of the target ran and exited 0. -/
def BackedUp (t : PbsTarget) : Prop := ∃ c, (t, c) ∈ J.taken ∧ c.BackedUp

/-- The rows that the start of the job wrote. -/
def startedRows (job : Job) : List PairRun :=
  J.attempts.filterMap fun a => startedRun job.id "pbs" job.startedAt (a.entry J.caller)

end PbsJob

/-- A job that is running in the tables, at the moment in which its summary is stored. -/
structure RecordedPbs where
  job : PbsJob
  row : Job
  store : JobStore
  /-- through `job_finish_external`, or through `job_finish` -/
  external : Bool
  stagedAt : Time
  now : Time
  found : store.job row.id = some row
  running : row.status = .running
  kind : row.kind = "pbs"
  unstaged : store.intent row.id = none
  /-- what the start of the job wrote is still there -/
  begun : store.pairRuns.filter (fun r => r.jobId = row.id) = job.startedRows row
  unique : (store.pairRuns.map PairRun.key).Nodup
  /-- the targets are those of the attempts -/
  turned : (job.turns.map Prod.fst).Sublist (job.attempts.map PbsAttempt.target)
  /-- the configuration strips the names, and keeps names and ids different -/
  names : (job.attempts.map fun a => a.target.runName).Nodup
  keys : (job.attempts.map fun a => a.target.historyKey).Nodup
  trimmed : ∀ a ∈ job.attempts, strip a.target.runName = a.target.runName ∧
    strip a.target.historyKey = a.target.historyKey ∧ a.target.historyKey ≠ "" ∧
    strip a.slot = a.slot
  short : ∀ t ∈ job.turns, t.2.Short
  /-- what other jobs have recorded is older -/
  clock : ∀ r ∈ store.pairRuns, r.jobId ≠ row.id → r.seenAt < now ∧ r.shownEnd < now
  later : 0 < now
  fits : encodedSize (.dict job.summary) ≤ maxJobSummaryBytes

/-- The tables after the summary was stored. -/
def RecordedPbs.after (D : RecordedPbs) : JobStore :=
  if D.external then
    (finishExternal D.row.id D.job.status (some D.job.summary) D.stagedAt D.now D.store).2
  else (finishDirect D.row.id D.job.status (some D.job.summary) D.now D.store).2

/-- What `find_due_pbs_targets` takes from the history of a target. -/
def pbsFacts (s : JobStore) (t : PbsTarget) : DueFacts :=
  (pbsHistory t.historyKey t.runName s).dated.facts t.historyKey

/-- The item of a target in `find_due_pbs_targets`. -/
def pbsDue (c : TickSettings) (now : Time) (s : JobStore) (t : PbsTarget) : DueStatus :=
  ScheduledWork.decision c now s (.pbsTarget t.schedule t.historyKey t.runName)

/-! ### The summary -/

namespace PbsJob

variable (J : PbsJob)

theorem runPbsBackup_cases (run : PbsRun) (refusal : Option PbsRefusal) :
    (∃ r, runPbsBackup run refusal = run.refusedSummary r ∧
      (refusal.isSome = true ∨ run.turns = [])) ∨
    (refusal = none ∧ run.turns ≠ [] ∧ runPbsBackup run refusal = run.summary) := by
  cases refusal with
  | some r => exact .inl ⟨r, rfl, .inl rfl⟩
  | none =>
    by_cases hturns : run.turns = []
    · refine .inl ⟨.noTargets, ?_, .inr hturns⟩
      show (if run.turns.isEmpty = true then _ else _) = _
      rw [hturns]
      rfl
    · refine .inr ⟨rfl, hturns, ?_⟩
      show (if run.turns.isEmpty = true then _ else _) = _
      rw [if_neg (by simpa using hturns)]

/-- What the caller adds leaves the other members alone. -/
theorem get_summary {key : String} (hkey : key ∉ ["history_keys", "scheduler_slots"]) :
    Dict.get J.summary key = Dict.get (runPbsBackup J.run J.refusal) key := by
  unfold summary
  split
  · exact get_withMetadata _ _ _ hkey
  · exact Dict.get_set_ne _ _ fun heq => hkey (heq ▸ List.mem_cons_self)

theorem summary_historyKeys :
    Dict.get J.summary "history_keys" = .dict (pbsHistoryKeys J.attempts) := by
  unfold summary
  split
  · unfold withMetadata
    rw [Dict.get_set_ne _ _ (by decide), Dict.get_set, if_pos rfl]
  · rw [Dict.get_set, if_pos rfl]

theorem entries_of_taken (h : J.refusal = none) : J.run.entries = J.entries := by
  have htaken : J.taken = J.turns := by
    unfold taken
    rw [h]
    rfl
  unfold entries PbsRun.entries
  rw [htaken]
  rfl

theorem summary_pairs : innerList J.summary "pairs" = J.entries.map Value.dict := by
  unfold innerList
  rw [J.get_summary (by decide)]
  rcases runPbsBackup_cases J.run J.refusal with ⟨r, hrun, hnone⟩ | ⟨hnone, -, hrun⟩
  · have htaken : J.taken = [] := by
      unfold taken
      split_ifs with hrefused
      · rfl
      · exact hnone.resolve_left hrefused
    rw [hrun]
    unfold entries
    rw [htaken]
    rfl
  · rw [hrun, ← J.entries_of_taken hnone]
    rfl

/-- A summary says nothing of these members. -/
theorem summary_absent {key : String} (hkey : key ∈ ["due", "dry_run"]) :
    Dict.get J.summary key = .none := by
  rw [J.get_summary (by rcases List.mem_pair.mp hkey with rfl | rfl <;> decide)]
  rcases runPbsBackup_cases J.run J.refusal with ⟨r, hrun, -⟩ | ⟨-, -, hrun⟩ <;>
    rw [hrun] <;> rcases List.mem_pair.mp hkey with rfl | rfl <;> rfl

theorem summary_trigger : Dict.get J.summary "trigger" = .str J.caller.trigger := by
  rw [J.get_summary (by decide)]
  rcases runPbsBackup_cases J.run J.refusal with ⟨r, hrun, -⟩ | ⟨-, -, hrun⟩ <;>
    rw [hrun] <;> rfl

theorem terminal : J.status ≠ .running := by
  unfold status
  split
  · unfold jobStatus
    dsimp only
    split_ifs <;> exact nofun
  · unfold webStatus
    split_ifs <;> exact nofun

/-- What the summary holds is not longer than the summary. -/
theorem sized_summary {key : String} {v : Value} (h : Dict.get J.summary key = v)
    (hv : v ≠ .none) : encodedSize v ≤ encodedSize (.dict J.summary) := by
  unfold Dict.get at h
  cases hlookup : J.summary.lookup key with
  | none =>
    rw [hlookup] at h
    exact absurd h.symm hv
  | some x =>
    rw [hlookup, Option.getD_some] at h
    rw [← h]
    exact encodedSize_member (Dict.mem_of_lookup hlookup)

end PbsJob

/-- An entry's member is shorter than the summary. -/
theorem PbsJob.sized_entry {J : PbsJob} {d : Dict} (hd : d ∈ J.entries) {e : String × Value}
    (he : e ∈ d) : encodedSize e.2 ≤ encodedSize (.dict J.summary) := by
  have hlist : asList (Dict.get J.summary "pairs") = some (J.entries.map Value.dict) := by
    have hpairs := J.summary_pairs
    unfold innerList at hpairs
    cases hget : asList (Dict.get J.summary "pairs") with
    | none =>
      rw [hget, Option.getD_none] at hpairs
      have hempty : J.entries = [] := List.map_eq_nil_iff.mp hpairs.symm
      rw [hempty] at hd
      cases hd
    | some xs =>
      rw [hget, Option.getD_some] at hpairs
      rw [hpairs]
  have hget : Dict.get J.summary "pairs" = .list (J.entries.map Value.dict) := by
    cases hv : Dict.get J.summary "pairs" with
    | list xs =>
      rw [hv] at hlist
      rw [Option.some.inj hlist]
    | _ =>
      rw [hv] at hlist
      cases hlist
  have hsummary := J.sized_summary hget nofun
  have hitem := encodedSize_item (List.mem_map_of_mem (f := Value.dict) hd)
  exact (encodedSize_member he).trans (hitem.trans hsummary)

theorem wellFormed_turnEntry (trigger : String) (t : PbsTarget) {c : TargetCourse} (hc : c.Short) :
    (Value.dict (turnEntry trigger t c)).wellFormed = true := by
  have hentry := entryOk_turnEntry trigger t hc
  exact wellFormed_dict_iff.mpr ⟨fun e he => (hentry.members e he).2.1, hentry.nodup⟩

theorem wellFormed_prunesOk (entries : List Dict) : (prunesOk entries).wellFormed = true := by
  unfold prunesOk
  dsimp only
  split_ifs <;> rfl

/-- A run's summary is a value of the program. -/
theorem wellFormed_runPbsBackup {run : PbsRun} (refusal : Option PbsRefusal)
    (hshort : ∀ t ∈ run.turns, t.2.Short) :
    (Value.dict (runPbsBackup run refusal)).wellFormed = true := by
  have hentries : (Value.list (run.entries.map Value.dict)).wellFormed = true := by
    refine wellFormedItems_iff.mpr fun x hx => ?_
    obtain ⟨d, hd, rfl⟩ := List.mem_map.mp hx
    obtain ⟨t, ht, rfl⟩ := List.mem_map.mp hd
    exact wellFormed_turnEntry _ _ (hshort t ht)
  rcases PbsJob.runPbsBackup_cases run refusal with ⟨r, hrun, -⟩ | ⟨-, -, hrun⟩
  · rw [hrun]
    refine wellFormed_dict_iff.mpr ⟨?_, by simp [PbsRun.refusedSummary]⟩
    simp only [PbsRun.refusedSummary, List.forall_mem_cons]
    exact ⟨rfl, rfl, rfl, rfl, rfl, rfl, rfl, rfl, rfl, rfl, rfl, nofun⟩
  · rw [hrun]
    refine wellFormed_dict_iff.mpr ⟨?_, by simp [PbsRun.summary]⟩
    simp only [PbsRun.summary, List.forall_mem_cons]
    refine ⟨rfl, rfl, wellFormed_prunesOk _, ?_, rfl, rfl, rfl, rfl, hentries, rfl, rfl, rfl, rfl,
      rfl, nofun⟩
    split_ifs <;> rfl

namespace RecordedPbs

variable (D : RecordedPbs)

theorem wellFormed_summary : (Value.dict D.job.summary).wellFormed = true := by
  have hrun := @wellFormed_runPbsBackup D.job.run D.job.refusal D.short
  have hkeys : (Value.dict (pbsHistoryKeys D.job.attempts)).wellFormed = true := by
    refine wellFormed_dict_iff.mpr ⟨fun e he => ?_, ?_⟩
    · obtain ⟨a, -, rfl⟩ := List.mem_map.mp he
      rfl
    · unfold pbsHistoryKeys
      rw [List.map_map]
      exact D.names
  have hslots : (Value.dict (pbsSlots D.job.attempts)).wellFormed = true := by
    refine wellFormed_dict_iff.mpr ⟨fun e he => ?_, ?_⟩
    · obtain ⟨a, -, rfl⟩ := List.mem_map.mp he
      rfl
    · unfold pbsSlots
      rw [List.map_map]
      exact D.names.sublist (List.filter_sublist.map _)
  unfold PbsJob.summary
  split
  · exact wellFormed_set (wellFormed_set hrun hkeys) hslots
  · exact wellFormed_set hrun hkeys

/-! ### The rows that are stored -/

/-- What the storing of results is told about the job. -/
def context : ResultContext := resultContext D.row D.job.status D.now

/-- Storing the summary closes what its rows leave open. -/
theorem after_spec {rows : List PairRun}
    (hrows : List.Forall₂
      (fun d row => reportedRun D.context D.job.summary (.dict d) = .ok (some row))
      D.job.entries rows) :
    D.after.pairRuns = Tables.updateWhere (isOpenOf D.row.id)
      (closeAttempt (unfinishedStatus D.job.status) D.now
        (some (Dict.textOr D.job.summary "error" ""))) (storeRows rows D.store.pairRuns) := by
  have hdue : innerList D.job.summary "due" = [] := by
    unfold innerList
    rw [D.job.summary_absent (by decide)]
    rfl
  obtain ⟨t, ht, hruns⟩ := storePairResults_stored (s := D.store) D.job.summary_pairs hdue hrows
    D.job.terminal
  let c : FinishCase := {
    store := D.store
    id := D.row.id
    status := D.job.status
    summary := some D.job.summary
    stagedAt := D.stagedAt
    now := D.now
    running := by rw [D.found, Option.map_some, D.running]
    terminal := D.job.terminal
    wellFormed := D.wellFormed_summary
    staged := fun i hi => by rw [D.unstaged] at hi; cases hi }
  have ht' : storePairResults (resultContext D.row c.status c.now) (c.summary.getD []) c.store
      = .ok t := ht
  have hafter : D.after.pairRuns = t.pairRuns := by
    unfold after
    split_ifs
    · obtain ⟨payload, intents, intents', hexternal⟩ := c.external_spec D.found D.running
      rw [c.readBack_of_fits D.fits, ht'] at hexternal
      show c.external.2.pairRuns = _
      rw [hexternal]
      rfl
    · obtain ⟨payload, hdirect⟩ := c.direct_spec D.found D.running
      rw [ht'] at hdirect
      show c.direct.2.pairRuns = _
      rw [hdirect]
      rfl
  rw [hafter, hruns]
  rfl

end RecordedPbs

/-! ### What a recorded result keeps -/

/-- The members that a recorded entry may have. -/
def recordedMembers : List String := "scheduled_slot" :: entryMembers

/-- An entry on its way into a row. -/
structure EntryFlat (d : Dict) : Prop where
  nodup : (d.map Prod.fst).Nodup
  members : ∀ e ∈ d, e.1 ∈ recordedMembers ∧ FlatValue e.2

theorem EntryFlat.set {d : Dict} (h : EntryFlat d) {key : String} (hkey : key ∈ recordedMembers)
    {v : Value} (hv : FlatValue v) : EntryFlat (Dict.set d key v) where
  nodup := nodup_set h.nodup key v
  members := by
    intro e he
    rcases Dict.mem_of_mem_set he with rfl | he
    · exact ⟨hkey, hv⟩
    · exact h.members e he

theorem EntryFlat.record {d : Dict} (h : EntryFlat d) : FlatRecord 20 d where
  nodup := h.nodup
  short e he := by
    have hall : ∀ key ∈ recordedMembers, key.length ≤ 128 := by decide
    exact hall _ (h.members e he).1
  few := by
    have hsub : d.map Prod.fst ⊆ recordedMembers := fun key hkey => by
      obtain ⟨e, he, rfl⟩ := List.mem_map.mp hkey
      exact (h.members e he).1
    have hlength := (List.subperm_of_subset h.nodup hsub).length_le
    rw [List.length_map] at hlength
    exact hlength
  values e he := (h.members e he).2

theorem context_of_loads {r : PairRun} {x : Dict} (h : jsonLoads r.resultJson = some (.dict x)) :
    r.context = some x := by
  unfold PairRun.context
  rw [if_neg (jsonLoads_ne_empty h), h]
  cases x with
  | nil => rfl
  | cons e x => rfl

/-- A short text of a result is read back from its row. -/
theorem text_of_bounded {n : Nat} {d : Dict} (h : FlatRecord n d) (hn : n ≤ 20) {r : PairRun}
    (hjson : r.resultJson = jsonDumpsBounded (.dict d) maxPairResultBytes) {key text : String}
    (hkey : key ∉ previewMarks) (htext : Dict.get d key = .str text) (hshort : text.length ≤ 64) :
    Dict.get (r.context.getD []) key = .str text := by
  obtain ⟨x, hx, hread⟩ := exists_readBack h hn
  rw [context_of_loads (hjson ▸ hx), Option.getD_some]
  exact hread.get h hn hkey htext hshort

/-- A short text is no longer than a summary may be. -/
theorem flatValue_short {s : String} (h : s.length ≤ 64) : FlatValue (.str s) := by
  have hsize := encodedSize_str s
  have hbudget : maxJobSummaryBytes = 262144 := rfl
  exact flatValue_str (by omega)

/-- The members that closing an attempt writes. -/
def closedMembers : List String := ["pending", "ok", "status", "cancelled", "error"]

/-- Closing an attempt keeps its other texts. -/
theorem text_of_closed {d : Dict} (h : FlatRecord 6 d) (hplain : ∀ e ∈ d, isPlain e.2 = true)
    {row : PairRun} (hjson : row.resultJson = jsonDumpsBounded (.dict d) maxPairResultBytes)
    {key text : String} (hmark : key ∉ previewMarks) (hkey : key ∉ closedMembers)
    (htext : Dict.get d key = .str text) (hshort : text.length ≤ 64) (status : JobStatus)
    (endedAt : Time) {error : String} (herror : error.length ≤ 64) :
    Dict.get ((closeAttempt status endedAt (some error) row).context.getD []) key =
      .str text := by
  simp only [closedMembers, List.mem_cons, List.not_mem_nil, or_false, not_or] at hkey
  obtain ⟨hpending, hok, hstatusKey, hcancelledKey, herrorKey⟩ := hkey
  obtain ⟨x, hx, hread⟩ := exists_readBack h (by decide)
  have hkept : Dict.get (Dict.erase x "pending") key = .str text := by
    rw [Dict.get_erase_ne _ hpending]
    exact hread.get h (by decide) hmark htext hshort
  have hflat : FlatRecord 8 (Dict.erase x "pending") := (hread.flat h hplain).erase "pending"
  have hstatus : FlatValue (.str status.text) := flatValue_short (by cases status <;> decide)
  have hset : ∀ {n y} (k : String) {v}, FlatRecord n y ∧ Dict.get y key = .str text →
      k.length ≤ 128 → key ≠ k → FlatValue v →
      FlatRecord (n + 1) (Dict.set y k v) ∧ Dict.get (Dict.set y k v) key = .str text := by
    intro n y k v hy hlength hne hv
    exact ⟨hy.1.set hlength hv, (Dict.get_set_ne _ _ hne).trans hy.2⟩
  have hmono : ∀ {n y}, FlatRecord n y ∧ Dict.get y key = .str text →
      FlatRecord (n + 1) y ∧ Dict.get y key = .str text :=
    fun hy => ⟨hy.1.mono (Nat.le_succ _), hy.2⟩
  -- the members that are set on the way
  have hclosed : ∃ y, (closeAttempt status endedAt (some error) row).resultJson =
      jsonDumpsBounded (.dict y) maxPairResultBytes ∧ FlatRecord 12 y ∧
      Dict.get y key = .str text := by
    have hended := hset "status" (hset "ok" ⟨hflat, hkept⟩ (by decide) hok
      (flatValue_bool false)) (by decide) hstatusKey hstatus
    unfold closeAttempt
    rw [if_neg (jsonLoads_ne_empty (hjson ▸ hx)), hjson, hx]
    dsimp only
    refine ⟨_, rfl, ?_⟩
    generalize Dict.set (Dict.set (Dict.erase x "pending") "ok" (.bool false)) "status"
      (.str status.text) = z at hended ⊢
    have hcancelled : FlatRecord 11 (if status = .cancelled then
        Dict.set z "cancelled" (.bool true) else z) ∧
        Dict.get (if status = .cancelled then Dict.set z "cancelled" (.bool true) else z) key =
          .str text := by
      by_cases hstatus : status = .cancelled
      · rw [if_pos hstatus]
        exact hset "cancelled" hended (by decide) hcancelledKey (flatValue_bool true)
      · rw [if_neg hstatus]
        exact hmono hended
    generalize (if status = .cancelled then _ else z) = y at hcancelled ⊢
    by_cases hneeded : error ≠ "" ∧ truthy (Dict.get y "error") = false
    · rw [if_pos hneeded]
      exact hset "error" hcancelled (by decide) herrorKey (flatValue_short herror)
    · rw [if_neg hneeded]
      exact hmono hcancelled
  obtain ⟨y, hy, hyflat, hytext⟩ := hclosed
  exact text_of_bounded hyflat (by decide) hy hmark hytext hshort

/-! ### The row of an attempt -/

namespace RecordedPbs

variable (D : RecordedPbs)

/-- A row that an attempt of the job is left with. -/
structure RowFor (a : PbsAttempt) (r : PairRun) : Prop where
  key : r.key = (D.row.id, a.target.runName)
  historyKey : r.historyKey = a.target.historyKey
  ok : r.ok = true ↔ D.job.BackedUp a.target
  wet : r.dryRun = false
  ended : r.endedAt = some D.now
  trigger : Dict.get (r.context.getD []) "trigger" = .str D.job.caller.trigger
  slot : D.job.caller = .scheduler → a.slot ≠ "" → a.slot.length ≤ 64 →
    Dict.get (r.context.getD []) "scheduled_slot" = .str a.slot

variable {D}

theorem runName_ne (t : PbsTarget) : t.runName ≠ "" := by
  intro hblank
  have hlist := congrArg String.toList hblank
  simp [PbsTarget.runName] at hlist

theorem attempt_of_taken {t : PbsTarget} {c : TargetCourse} (h : (t, c) ∈ D.job.taken) :
    ∃ a ∈ D.job.attempts, a.target = t ∧ c.Short := by
  have hturn : (t, c) ∈ D.job.turns := by
    unfold PbsJob.taken at h
    split_ifs at h
    · cases h
    · exact h
  obtain ⟨a, ha, heq⟩ := List.mem_map.mp (D.turned.subset (List.mem_map_of_mem hturn))
  exact ⟨a, ha, heq, D.short _ hturn⟩

/-- A target has one turn. -/
theorem course_eq {t : PbsTarget} {c c' : TargetCourse} (h : (t, c) ∈ D.job.taken)
    (h' : (t, c') ∈ D.job.taken) : c = c' := by
  have hturns : (D.job.turns.map Prod.fst).Nodup := by
    refine D.turned.nodup ?_
    have hnames := D.names
    rw [show (fun a : PbsAttempt => a.target.runName) = PbsTarget.runName ∘ PbsAttempt.target
      from rfl, ← List.map_map] at hnames
    exact hnames.of_map _
  unfold PbsJob.taken at h h'
  split_ifs at h h'
  · cases h
  · exact (Prod.mk.inj (List.inj_on_of_nodup_map hturns h h' rfl)).2

theorem backedUp_iff {t : PbsTarget} {c : TargetCourse} (h : (t, c) ∈ D.job.taken) :
    D.job.BackedUp t ↔ c.BackedUp := by
  constructor
  · rintro ⟨c', hc', hbackup⟩
    rwa [course_eq h hc']
  · exact fun hbackup => ⟨c, h, hbackup⟩

theorem get_historyKeys {a : PbsAttempt} (ha : a ∈ D.job.attempts) :
    Dict.get (innerDict D.job.summary "history_keys") a.target.runName =
      .str a.target.historyKey := by
  unfold innerDict
  rw [D.job.summary_historyKeys]
  have hkeys : ((pbsHistoryKeys D.job.attempts).map Prod.fst).Nodup := by
    unfold pbsHistoryKeys
    rw [List.map_map]
    exact D.names
  have hmem : (a.target.runName, Value.str a.target.historyKey) ∈ pbsHistoryKeys D.job.attempts :=
    List.mem_map.mpr ⟨a, ha, rfl⟩
  exact Dict.get_of_lookup (lookup_of_mem hkeys hmem)

theorem summary_slots (hcaller : D.job.caller = .scheduler) :
    Dict.get D.job.summary "scheduler_slots" = .dict (pbsSlots D.job.attempts) := by
  unfold PbsJob.summary
  rw [hcaller]
  exact Dict.get_set_self _ _ _

theorem get_slots {a : PbsAttempt} (ha : a ∈ D.job.attempts) (hslot : a.slot ≠ "") :
    Dict.get (pbsSlots D.job.attempts) a.target.runName = .str a.slot := by
  have hkeys : ((pbsSlots D.job.attempts).map Prod.fst).Nodup := by
    unfold pbsSlots
    rw [List.map_map]
    exact D.names.sublist (List.filter_sublist.map _)
  have hmem : (a.target.runName, Value.str a.slot) ∈ pbsSlots D.job.attempts :=
    List.mem_map.mpr ⟨a, List.mem_filter.mpr ⟨ha, decide_eq_true hslot⟩, rfl⟩
  exact Dict.get_of_lookup (lookup_of_mem hkeys hmem)

theorem textOrNone_slot {a : PbsAttempt} (ha : a ∈ D.job.attempts) (hslot : a.slot ≠ "") :
    textOrNone a.slot = some a.slot := by
  unfold textOrNone
  rw [(D.trimmed a ha).2.2.2, if_neg hslot]

/-- The texts about an attempt are not longer than the summary. -/
theorem flatValue_attempt {a : PbsAttempt} (ha : a ∈ D.job.attempts) :
    FlatValue (.str a.target.runName) ∧ FlatValue (.str a.target.historyKey) ∧
      (D.job.caller = .scheduler → a.slot ≠ "" → FlatValue (.str a.slot)) := by
  have hkeys := D.job.sized_summary D.job.summary_historyKeys nofun
  have hmem : (a.target.runName, Value.str a.target.historyKey) ∈ pbsHistoryKeys D.job.attempts :=
    List.mem_map.mpr ⟨a, ha, rfl⟩
  refine ⟨flatValue_str ?_, flatValue_str ?_, fun hcaller hslot => flatValue_str ?_⟩
  · exact (encodedSize_key hmem).trans (hkeys.trans D.fits)
  · exact (encodedSize_member hmem).trans (hkeys.trans D.fits)
  · have hmem : (a.target.runName, Value.str a.slot) ∈ pbsSlots D.job.attempts :=
      List.mem_map.mpr ⟨a, List.mem_filter.mpr ⟨ha, decide_eq_true hslot⟩, rfl⟩
    have hslots := D.job.sized_summary (summary_slots hcaller) nofun
    exact (encodedSize_member hmem).trans (hslots.trans D.fits)

end RecordedPbs

/-- The slot under which an entry is stored. -/
def entrySlot (summary d : Dict) (name : String) : Option String :=
  textOrNone (pyStr (pyOr (Dict.get d "scheduled_slot")
    (pyOr (Dict.get (innerDict summary "scheduler_slots") name) (.str ""))))

/-- The row of an entry, outside a restore test. -/
theorem reportedRun_eq_recordedRow {ctx : ResultContext} {summary d : Dict}
    (hkind : ctx.kind ≠ "restoretest") (hdry : (isDryRun d || isDryRun summary) = false)
    (hnamed : strippedText d "name" ≠ "") :
    reportedRun ctx summary (.dict d) = .ok (some (recordedRow ctx summary d
      (strippedText d "name") (entrySlot summary d (strippedText d "name")) false)) := by
  unfold reportedRun
  dsimp only
  rw [if_neg hnamed, hdry, if_neg fun h => hkind h.1]
  rfl

namespace RecordedPbs

variable {D : RecordedPbs}

/-- A recorded slot is no longer than the summary. -/
theorem flatValue_entrySlot {d : Dict} (hd : Dict.get d "scheduled_slot" = .none)
    {name text : String} (h : entrySlot D.job.summary d name = some text) :
    FlatValue (.str text) := by
  unfold entrySlot innerDict at h
  rw [hd] at h
  cases hcaller : D.job.caller with
  | web =>
    have hnone : Dict.get D.job.summary "scheduler_slots" = .none := by
      unfold PbsJob.summary
      rw [hcaller]
      dsimp only
      rw [Dict.get_set_ne _ _ (by decide)]
      rcases PbsJob.runPbsBackup_cases D.job.run D.job.refusal with
        ⟨r, hrun, -⟩ | ⟨-, -, hrun⟩ <;> rw [hrun] <;> rfl
    rw [hnone] at h
    cases h
  | scheduler =>
    rw [summary_slots hcaller] at h
    cases hlookup : (pbsSlots D.job.attempts).lookup name with
    | none =>
      have hnone : Dict.get (pbsSlots D.job.attempts) name = .none := by
        unfold Dict.get
        rw [hlookup]
        rfl
      change textOrNone (pyStr (pyOr (Dict.get (pbsSlots D.job.attempts) name) _)) = _ at h
      rw [hnone] at h
      cases h
    | some v =>
      obtain ⟨a, ha, heq⟩ := List.mem_map.mp (Dict.mem_of_lookup hlookup)
      obtain ⟨ha, hslot⟩ := List.mem_filter.mp ha
      have hslot : a.slot ≠ "" := of_decide_eq_true hslot
      obtain ⟨rfl, -⟩ := Prod.mk.inj heq
      change textOrNone (pyStr (pyOr (Dict.get (pbsSlots D.job.attempts) a.target.runName) _)) = _
        at h
      rw [get_slots ha hslot, pyOr_str hslot] at h
      change textOrNone a.slot = some text at h
      rw [textOrNone_slot ha hslot] at h
      rw [← Option.some.inj h]
      exact (flatValue_attempt ha).2.2 hcaller hslot

/-- The slot of an attempt is recorded with it. -/
theorem entrySlot_attempt {a : PbsAttempt} (ha : a ∈ D.job.attempts)
    (hcaller : D.job.caller = .scheduler) (hslot : a.slot ≠ "") {d : Dict}
    (hd : Dict.get d "scheduled_slot" = .none) :
    entrySlot D.job.summary d a.target.runName = some a.slot := by
  unfold entrySlot innerDict
  rw [hd, summary_slots hcaller]
  show textOrNone (pyStr (pyOr .none (pyOr (Dict.get (pbsSlots D.job.attempts) a.target.runName)
    (.str "")))) = some a.slot
  rw [get_slots ha hslot, pyOr_str hslot]
  exact textOrNone_slot ha hslot

/-- The entry of a turn, as it is recorded. -/
theorem flat_recorded {a : PbsAttempt} (ha : a ∈ D.job.attempts) {c : TargetCourse}
    (ht : (a.target, c) ∈ D.job.taken) (hc : c.Short) :
    EntryFlat (recordedPair D.job.summary (turnEntry D.job.caller.trigger a.target c)
      a.target.historyKey
      (entrySlot D.job.summary (turnEntry D.job.caller.trigger a.target c) a.target.runName)
      false) := by
  have hentry := entryOk_turnEntry D.job.caller.trigger a.target hc
  have hmem : turnEntry D.job.caller.trigger a.target c ∈ D.job.entries :=
    List.mem_map.mpr ⟨(a.target, c), ht, rfl⟩
  have hstart : EntryFlat (turnEntry D.job.caller.trigger a.target c) := by
    refine ⟨hentry.nodup, fun e he => ?_⟩
    obtain ⟨hkey, hwell, hshown⟩ := hentry.members e he
    exact ⟨List.mem_cons_of_mem _ hkey, hwell, hshown,
      (PbsJob.sized_entry hmem he).trans D.fits⟩
  have htrigger : FlatValue (.str (strippedText D.job.summary "trigger")) := by
    rw [strippedText_of_get D.job.summary_trigger]
    exact flatValue_short (by cases D.job.caller <;> decide)
  obtain ⟨-, -, hslot, -⟩ := turnEntry_frame D.job.caller.trigger a.target c
  have hfilled : EntryFlat (Dict.set (if strippedText D.job.summary "trigger" ≠ "" ∧
      truthy (Dict.get (turnEntry D.job.caller.trigger a.target c) "trigger") = false then
        Dict.set (turnEntry D.job.caller.trigger a.target c) "trigger"
          (.str (strippedText D.job.summary "trigger"))
      else turnEntry D.job.caller.trigger a.target c) "history_key"
      (.str a.target.historyKey)) := by
    refine EntryFlat.set ?_ (by decide) (flatValue_attempt ha).2.1
    split_ifs
    · exact hstart.set (by decide) htrigger
    · exact hstart
  unfold recordedPair
  dsimp only
  rw [if_neg Bool.false_ne_true]
  cases hentrySlot : entrySlot D.job.summary (turnEntry D.job.caller.trigger a.target c)
      a.target.runName with
  | none => exact hfilled
  | some text => exact hfilled.set (by decide) (flatValue_entrySlot hslot hentrySlot)

/-- The trigger of a recorded entry is that of the job. -/
theorem trigger_recorded (t : PbsTarget) (c : TargetCourse) (historyKey : String)
    (slot : Option String) : Dict.get (recordedPair D.job.summary
      (turnEntry D.job.caller.trigger t c) historyKey slot false) "trigger" =
        .str D.job.caller.trigger := by
  obtain ⟨-, -, -, -, hentry⟩ := turnEntry_frame D.job.caller.trigger t c
  have hsummary : strippedText D.job.summary "trigger" = D.job.caller.trigger := by
    rw [strippedText_of_get D.job.summary_trigger]
    cases D.job.caller <;> decide
  have hnamed : D.job.caller.trigger ≠ "" := by cases D.job.caller <;> decide
  have hfilled : Dict.get (Dict.set (if strippedText D.job.summary "trigger" ≠ "" ∧
      truthy (Dict.get (turnEntry D.job.caller.trigger t c) "trigger") = false then
        Dict.set (turnEntry D.job.caller.trigger t c) "trigger"
          (.str (strippedText D.job.summary "trigger"))
      else turnEntry D.job.caller.trigger t c) "history_key" (.str historyKey)) "trigger" =
        .str D.job.caller.trigger := by
    rw [Dict.get_set_ne _ _ (by decide), hsummary]
    by_cases hcancelled : c.cancelled = true
    · rw [if_pos hcancelled] at hentry
      rw [hentry, if_pos ⟨hnamed, rfl⟩]
      exact Dict.get_set_self _ _ _
    · rw [if_neg hcancelled] at hentry
      have htruthy : ¬ (D.job.caller.trigger ≠ "" ∧
          truthy (.str D.job.caller.trigger) = false) := by
        rintro ⟨-, hfalse⟩
        exact hnamed (by simpa [truthy] using hfalse)
      rw [hentry, if_neg htruthy]
      exact hentry
  unfold recordedPair
  dsimp only
  rw [if_neg Bool.false_ne_true]
  cases slot with
  | none => exact hfilled
  | some text =>
    dsimp only
    rw [Dict.get_set_ne _ _ (by decide)]
    exact hfilled

theorem recordedRow_ok (ctx : ResultContext) (summary d : Dict) (name : String)
    (slot : Option String) (isPartial : Bool) :
    (recordedRow ctx summary d name slot isPartial).ok = decide (Dict.get
      (recordedPair summary d (entryKey ctx.kind summary d name) slot false) "ok" = .bool true) :=
  rfl

/-- A turn leaves a row. -/
theorem exists_row {a : PbsAttempt} (ha : a ∈ D.job.attempts) {c : TargetCourse}
    (ht : (a.target, c) ∈ D.job.taken) :
    ∃ row, reportedRun D.context D.job.summary
        (.dict (turnEntry D.job.caller.trigger a.target c)) = .ok (some row) ∧
      D.RowFor a row ∧ row.status ≠ .running := by
  obtain ⟨a', ha', htarget, hc⟩ := attempt_of_taken ht
  obtain ⟨hname, hdry, hslot, hkey, -⟩ := turnEntry_frame D.job.caller.trigger a.target c
  obtain ⟨htrimmed, hkeyTrimmed, hkeyNe, -⟩ := D.trimmed a ha
  have hstripped : strippedText (turnEntry D.job.caller.trigger a.target c) "name" =
      a.target.runName := (strippedText_of_get hname).trans htrimmed
  have hwet : (isDryRun (turnEntry D.job.caller.trigger a.target c) ||
      isDryRun D.job.summary) = false := by
    unfold isDryRun
    rw [hdry, D.job.summary_absent (by decide)]
    rfl
  have hkind : D.context.kind ≠ "restoretest" := by
    show D.row.kind ≠ "restoretest"
    rw [D.kind]
    decide
  have hrun := reportedRun_eq_recordedRow hkind hwet (by rw [hstripped]; exact runName_ne _)
  rw [hstripped] at hrun
  refine ⟨_, hrun, ?_, ?_⟩
  · have hhistory : entryKey D.context.kind D.job.summary
        (turnEntry D.job.caller.trigger a.target c) a.target.runName = a.target.historyKey := by
      unfold entryKey
      rw [get_historyKeys ha, pyOr_str hkeyNe, hkey]
      by_cases hcancelled : c.cancelled = true
      · rw [if_pos hcancelled]
        exact hkeyTrimmed
      · rw [if_neg hcancelled, pyOr_str hkeyNe]
        exact hkeyTrimmed
    obtain ⟨b, hverdict, hb⟩ := turnEntry_ok D.job.caller.trigger a.target c
    have hflat := (flat_recorded ha ht hc).record
    have hjson : ∀ slot, (recordedRow D.context D.job.summary
        (turnEntry D.job.caller.trigger a.target c) a.target.runName slot false).resultJson =
        jsonDumpsBounded (.dict (recordedPair D.job.summary
          (turnEntry D.job.caller.trigger a.target c) a.target.historyKey slot false))
          maxPairResultBytes := by
      intro slot
      rw [← hhistory]
      rfl
    refine ⟨rfl, hhistory, ?_, rfl, rfl, ?_, fun hcaller hne hshort => ?_⟩
    · rw [backedUp_iff ht, ← hb, recordedRow_ok, recordedPair_get _ _ _ _ _ (by decide),
        hverdict.1, decide_eq_true_eq, Value.bool.injEq]
    · have hshort : D.job.caller.trigger.length ≤ 64 := by cases D.job.caller <;> decide
      have htrigger := @trigger_recorded D a.target c a.target.historyKey (entrySlot D.job.summary
        (turnEntry D.job.caller.trigger a.target c) a.target.runName)
      exact text_of_bounded hflat (Nat.le_refl 20) (hjson _) (by decide) htrigger hshort
    · have hget : Dict.get (recordedPair D.job.summary
          (turnEntry D.job.caller.trigger a.target c) a.target.historyKey
          (entrySlot D.job.summary (turnEntry D.job.caller.trigger a.target c) a.target.runName)
          false) "scheduled_slot" = .str a.slot := by
        rw [entrySlot_attempt ha hcaller hne hslot]
        unfold recordedPair
        dsimp only
        rw [if_neg Bool.false_ne_true]
        exact Dict.get_set_self _ _ _
      exact text_of_bounded hflat (Nat.le_refl 20) (hjson _) (by decide) hget hshort
  · unfold recordedRow
    dsimp only
    rw [if_neg Bool.false_ne_true]
    exact pairStatus_ne_running _ _

/-- The row that an attempt begins with. -/
theorem startedRun_attempt {a : PbsAttempt} (ha : a ∈ D.job.attempts) :
    ∃ row, startedRun D.row.id "pbs" D.row.startedAt (a.entry D.job.caller) = some row ∧
      row.key = (D.row.id, a.target.runName) ∧ row.historyKey = a.target.historyKey ∧
      row.dryRun = false ∧ row.status = .running ∧
      ∃ d, row.resultJson = jsonDumpsBounded (.dict d) maxPairResultBytes ∧ FlatRecord 6 d ∧
        (∀ e ∈ d, isPlain e.2 = true) ∧ Dict.get d "trigger" = .str D.job.caller.trigger ∧
        (D.job.caller = .scheduler → a.slot ≠ "" →
          Dict.get d "scheduled_slot" = .str a.slot) := by
  obtain ⟨htrimmed, hkeyTrimmed, hkeyNe, hslotTrimmed⟩ := D.trimmed a ha
  obtain ⟨hnameFlat, hkeyFlat, hslotFlat⟩ := flatValue_attempt ha
  have hname : strippedText (a.entry D.job.caller) "name" = a.target.runName := by
    have hget : Dict.get (a.entry D.job.caller) "name" = .str a.target.runName := by
      cases D.job.caller <;> rfl
    exact (strippedText_of_get hget).trans htrimmed
  have hkey : ∀ v, strip (pyStr (pyOr (Dict.get (a.entry D.job.caller) "history_key") v)) =
      a.target.historyKey := by
    intro v
    have hget : Dict.get (a.entry D.job.caller) "history_key" = .str a.target.historyKey := by
      cases D.job.caller <;> rfl
    rw [hget, pyOr_str hkeyNe]
    exact hkeyTrimmed
  have htrigger : Dict.textOr (a.entry D.job.caller) "trigger" "manual" = D.job.caller.trigger := by
    cases D.job.caller <;> rfl
  have hdry : isDryRun (a.entry D.job.caller) = false := by
    cases D.job.caller <;> rfl
  have hslots : D.job.caller = .scheduler →
      Dict.textOr (a.entry D.job.caller) "scheduled_slot" "" = a.slot := by
    intro hcaller
    rw [hcaller]
    show pyStr (pyOr (.str a.slot) (.str "")) = a.slot
    by_cases hblank : a.slot = ""
    · rw [hblank]
      rfl
    · rw [pyOr_str hblank]
      rfl
  have hslot : ∀ text, textOrNone (Dict.textOr (a.entry D.job.caller) "scheduled_slot" "") =
      some text → FlatValue (.str text) := by
    intro text htext
    cases hcaller : D.job.caller with
    | web =>
      rw [hcaller] at htext
      cases htext
    | scheduler =>
      rw [hslots hcaller] at htext
      unfold textOrNone at htext
      rw [hslotTrimmed] at htext
      obtain ⟨hne, htext⟩ := Option.ite_none_left_eq_some.mp htext
      rw [← Option.some.inj htext]
      exact hslotFlat hcaller hne
  have hown : D.job.caller = .scheduler → a.slot ≠ "" →
      textOrNone (Dict.textOr (a.entry D.job.caller) "scheduled_slot" "") = some a.slot := by
    intro hcaller hne
    rw [hslots hcaller]
    exact textOrNone_slot ha hne
  have hrecord : FlatRecord 5 [("name", .str a.target.runName), ("ok", .bool false),
      ("pending", .bool true), ("trigger", .str D.job.caller.trigger),
      ("history_key", .str a.target.historyKey)] := by
    refine ⟨by simp, by simp only [List.forall_mem_cons]; decide, le_rfl, ?_⟩
    simp only [List.forall_mem_cons]
    exact ⟨hnameFlat, flatValue_bool _, flatValue_bool _,
      flatValue_short (by cases D.job.caller <;> decide), hkeyFlat, nofun⟩
  unfold startedRun
  dsimp only
  rw [hname, if_neg (runName_ne _), hkey, htrigger, hdry]
  generalize textOrNone (Dict.textOr (a.entry D.job.caller) "scheduled_slot" "") = slot
    at hslot hown ⊢
  refine ⟨_, rfl, rfl, rfl, rfl, rfl, _, rfl, ?_⟩
  rw [if_neg Bool.false_ne_true]
  cases slot with
  | none =>
    exact ⟨hrecord.mono (by decide), by simp [isPlain], rfl,
      fun hcaller hne => absurd (hown hcaller hne).symm (Option.some_ne_none _)⟩
  | some text =>
    refine ⟨hrecord.set (by decide) (hslot text rfl), by simp [isPlain, Dict.set], rfl,
      fun hcaller hne => ?_⟩
    rw [Option.some.inj (hown hcaller hne)]
    rfl

/-! ### The rows after a job -/

/-- The turns give rows. -/
theorem exists_rows (D : RecordedPbs) : ∃ rows, List.Forall₂
    (fun d row => reportedRun D.context D.job.summary (.dict d) = .ok (some row))
      D.job.entries rows ∧
    (∀ row ∈ rows, row.status ≠ .running ∧ ∃ a ∈ D.job.attempts, D.RowFor a row) ∧
    ∀ t c, (t, c) ∈ D.job.taken → ∃ row ∈ rows, row.key = (D.row.id, t.runName) := by
  have hrow : ∀ t ∈ D.job.taken, ∃ row,
      reportedRun D.context D.job.summary
        (.dict (turnEntry D.job.caller.trigger t.1 t.2)) = .ok (some row) ∧
      row.status ≠ .running ∧ (∃ a ∈ D.job.attempts, D.RowFor a row) ∧
      row.key = (D.row.id, t.1.runName) := by
    rintro ⟨t, c⟩ ht
    obtain ⟨a, ha, rfl, -⟩ := attempt_of_taken ht
    obtain ⟨row, hrun, hfor, hended⟩ := exists_row ha ht
    exact ⟨row, hrun, hended, ⟨a, ha, hfor⟩, hfor.key⟩
  obtain ⟨rows, hrows⟩ := exists_forall₂ hrow
  refine ⟨rows, ?_, fun row hmem => ?_, fun t c ht => ?_⟩
  · exact List.forall₂_map_left_iff.mpr (hrows.imp fun _ _ h => h.1)
  · obtain ⟨t, -, -, hended, hfor, -⟩ := exists_left_of_forall₂ hrows hmem
    exact ⟨hended, hfor⟩
  · obtain ⟨row, hmem, -, -, -, hkey⟩ := exists_left_of_forall₂ hrows.flip ht
    exact ⟨row, hmem, hkey⟩

end RecordedPbs

theorem keys_storeRows (rows before : List PairRun) (hkeys : (before.map PairRun.key).Nodup) :
    ((storeRows rows before).map PairRun.key).Nodup ∧
      before.map PairRun.key ⊆ (storeRows rows before).map PairRun.key := by
  induction rows generalizing before with
  | nil => exact ⟨hkeys, fun _ h => h⟩
  | cons row rows ih =>
    obtain ⟨hnodup, hsub⟩ := ih (upsertPairRun row before)
      (Tables.nodup_upsert (by intro _; rfl) hkeys)
    exact ⟨hnodup, fun key hkey => hsub (Tables.mem_keys_upsert (by intro _; rfl) hkey)⟩

namespace RecordedPbs

variable {D : RecordedPbs}

/-- The rows of the job are those of its attempts, as they began. -/
theorem row_begun {r : PairRun} (hr : r ∈ D.store.pairRuns) (hjob : r.jobId = D.row.id) :
    ∃ a ∈ D.job.attempts,
      startedRun D.row.id "pbs" D.row.startedAt (a.entry D.job.caller) = some r := by
  have hmem : r ∈ D.store.pairRuns.filter fun r => r.jobId = D.row.id :=
    List.mem_filter.mpr ⟨hr, decide_eq_true hjob⟩
  rw [D.begun] at hmem
  exact List.mem_filterMap.mp hmem

theorem error_short : (Dict.textOr D.job.summary "error" "").length ≤ 64 := by
  unfold Dict.textOr
  rw [D.job.get_summary (by decide)]
  rcases PbsJob.runPbsBackup_cases D.job.run D.job.refusal with ⟨r, hrun, -⟩ | ⟨-, -, hrun⟩
  · have herror : Dict.get (D.job.run.refusedSummary r) "error" = .str r.error := rfl
    rw [hrun, herror]
    cases r <;> decide
  · have herror : Dict.get D.job.run.summary "error" = .none := rfl
    rw [hrun, herror]
    decide

/-- An attempt without a turn is closed. -/
theorem rowFor_closed {a : PbsAttempt} (ha : a ∈ D.job.attempts) {r : PairRun}
    (hr : startedRun D.row.id "pbs" D.row.startedAt (a.entry D.job.caller) = some r)
    (hnone : ∀ c, (a.target, c) ∉ D.job.taken) :
    isOpenOf D.row.id r = true ∧ D.RowFor a (closeAttempt (unfinishedStatus D.job.status) D.now
      (some (Dict.textOr D.job.summary "error" "")) r) := by
  obtain ⟨row, hrow, hkey, hhistory, hwet, hopen, d, hjson, hflat, hplain, htrigger, hslot⟩ :=
    startedRun_attempt ha
  obtain rfl := Option.some.inj (hrow.symm.trans hr)
  constructor
  · obtain ⟨hjob, -⟩ := Prod.mk.inj hkey
    unfold isOpenOf
    rw [hjob, hopen, decide_eq_true rfl, decide_eq_true rfl]
    rfl
  · refine ⟨hkey, hhistory, ?_, hwet, rfl, ?_, fun hcaller hne hshort => ?_⟩
    · constructor
      · exact fun hok => absurd hok Bool.false_ne_true
      · rintro ⟨c, hc, -⟩
        exact absurd hc (hnone c)
    · exact text_of_closed hflat hplain hjson (by decide) (by decide) htrigger
        (by cases D.job.caller <;> decide) _ _ error_short
    · exact text_of_closed hflat hplain hjson (by decide) (by decide) (hslot hcaller hne) hshort
        _ _ error_short

/-- **The rows after a job**: those of other jobs, and one for each attempt. -/
theorem rows_after (D : RecordedPbs) :
    (D.after.pairRuns.map PairRun.key).Nodup ∧
    (∀ r ∈ D.after.pairRuns, (r.jobId ≠ D.row.id ∧ r ∈ D.store.pairRuns) ∨
      ∃ a ∈ D.job.attempts, D.RowFor a r) ∧
    ∀ a ∈ D.job.attempts, ∃ r ∈ D.after.pairRuns, D.RowFor a r := by
  obtain ⟨rows, hrows, hrowsFor, hturns⟩ := exists_rows D
  have hafter := D.after_spec hrows
  obtain ⟨hnodup, hkept⟩ := keys_storeRows rows D.store.pairRuns D.unique
  have hkeys : D.after.pairRuns.map PairRun.key =
      (storeRows rows D.store.pairRuns).map PairRun.key := by
    rw [hafter]
    exact Tables.map_key_updateWhere (by intro _; rfl) _
  have hcases : ∀ r ∈ D.after.pairRuns, (r.jobId ≠ D.row.id ∧ r ∈ D.store.pairRuns) ∨
      ∃ a ∈ D.job.attempts, D.RowFor a r := by
    intro r hr
    rw [hafter] at hr
    obtain ⟨old, hold, rfl⟩ := List.mem_map.mp hr
    rcases mem_storeRows_cases hold with ⟨hbefore, hother⟩ | ⟨row, hrow, hstored⟩
    · by_cases hjob : old.jobId = D.row.id
      · -- a row of the job that no turn has replaced
        obtain ⟨a, ha, hstarted⟩ := row_begun hbefore hjob
        have hnone : ∀ c, (a.target, c) ∉ D.job.taken := by
          intro c hc
          obtain ⟨row, hrow, hkey⟩ := hturns _ _ hc
          obtain ⟨row', hrow', hkey', -⟩ := startedRun_attempt ha
          obtain rfl := Option.some.inj (hrow'.symm.trans hstarted)
          exact hother row hrow (hkey'.trans hkey.symm)
        obtain ⟨hopen, hfor⟩ := rowFor_closed ha hstarted hnone
        rw [if_pos hopen]
        exact .inr ⟨a, ha, hfor⟩
      · have hopen : ¬ isOpenOf D.row.id old = true := by
          intro hopen
          exact hjob (of_decide_eq_true ((Bool.and_eq_true _ _).mp hopen).1)
        rw [if_neg hopen]
        exact .inl ⟨hjob, hbefore⟩
    · obtain ⟨hended, a, ha, hfor⟩ := hrowsFor row hrow
      have hopen : ¬ isOpenOf D.row.id old = true := by
        intro hopen
        rw [hstored] at hopen
        exact hended (of_decide_eq_true ((Bool.and_eq_true _ _).mp hopen).2)
      rw [if_neg hopen]
      refine .inr ⟨a, ha, ?_⟩
      rw [hstored]
      exact ⟨hfor.key, hfor.historyKey, hfor.ok, hfor.wet, hfor.ended, hfor.trigger, hfor.slot⟩
  refine ⟨hkeys ▸ hnodup, hcases, fun a ha => ?_⟩
  -- the row that the attempt began with is still there under its key
  obtain ⟨row, hrow, hkey, -⟩ := startedRun_attempt ha
  have hbefore : row ∈ D.store.pairRuns := by
    have hmem : row ∈ D.job.startedRows D.row := List.mem_filterMap.mpr ⟨a, ha, hrow⟩
    rw [← D.begun] at hmem
    exact (List.mem_filter.mp hmem).1
  obtain ⟨r, hr, hsame⟩ := List.mem_map.mp (hkeys ▸ hkept (List.mem_map_of_mem hbefore))
  refine ⟨r, hr, ?_⟩
  obtain ⟨hjob, hname⟩ := Prod.mk.inj (hsame.trans hkey)
  rcases hcases r hr with ⟨hother, -⟩ | ⟨a', ha', hfor⟩
  · exact absurd hjob hother
  · have hnames : a'.target.runName = a.target.runName :=
      (Prod.mk.inj hfor.key).2.symm.trans hname
    rw [← List.inj_on_of_nodup_map D.names ha' ha hnames]
    exact hfor

end RecordedPbs

/-! ### What the scheduler finds -/

theorem lastRun_of_newest {p : PairRun → Bool} {rows : List PairRun} {r : PairRun}
    (hkeys : (rows.map PairRun.key).Nodup) (hr : r ∈ rows) (hp : p r = true)
    (hothers : ∀ x ∈ rows, p x = true → x ≠ r → x.seenAt < r.seenAt) :
    lastRun p rows = some r := by
  obtain ⟨before, after, hsplit⟩ := List.append_of_mem (List.mem_filter.mpr ⟨hr, hp⟩)
  have hnodup : (before ++ r :: after).Nodup :=
    hsplit ▸ hkeys.of_map.sublist List.filter_sublist
  have hmem : ∀ x ∈ before ++ r :: after, x ∈ rows ∧ p x = true := fun x hx =>
    List.mem_filter.mp (hsplit ▸ hx)
  rw [lastRun_eq_newest, hsplit]
  refine Tables.newest_eq_some_iff.mpr ⟨before, after, rfl, fun x hx => ?_, fun x hx => ?_⟩
  · obtain ⟨hx, hpx⟩ := hmem x (List.mem_append_left _ hx)
    by_cases hsame : x = r
    · rw [hsame]
    · exact le_of_lt (hothers x hx hpx hsame)
  · have hafter := (List.nodup_cons.mp (List.nodup_append.mp hnodup).2.1).1
    obtain ⟨hrow, hpx⟩ := hmem x (List.mem_append_right _ (List.mem_cons_of_mem _ hx))
    exact hothers x hrow hpx fun hsame => hafter (hsame ▸ hx)

namespace RecordedPbs

variable {D : RecordedPbs}

theorem seenAt_rowFor {a : PbsAttempt} {r : PairRun} (h : D.RowFor a r) : r.seenAt = D.now := by
  unfold PairRun.seenAt
  rw [h.ended]
  rfl

theorem attemptAt_rowFor {a : PbsAttempt} {r : PairRun} (h : D.RowFor a r) :
    r.shownEnd = D.now ∧ r.attemptAt = D.now := by
  have hne : D.now ≠ 0 := D.later.ne'
  have hend : r.shownEnd = D.now := by
    unfold PairRun.shownEnd timeOr
    rw [h.ended]
    exact if_neg hne
  refine ⟨hend, ?_⟩
  unfold PairRun.attemptAt
  rw [hend]
  exact if_neg hne

/-- Another row under the history key of an attempt is one of another job. -/
theorem older {a : PbsAttempt} (ha : a ∈ D.job.attempts) {r : PairRun} (hr : r ∈ D.after.pairRuns)
    (hfor : D.RowFor a r) {x : PairRun} (hx : x ∈ D.after.pairRuns)
    (hkey : x.historyKey = a.target.historyKey) (hne : x ≠ r) :
    x.seenAt < D.now ∧ x.shownEnd < D.now := by
  obtain ⟨hkeys, hcases, -⟩ := D.rows_after
  rcases hcases x hx with ⟨hjob, hbefore⟩ | ⟨a', ha', hfor'⟩
  · exact D.clock x hbefore hjob
  · have hsame : a' = a :=
      List.inj_on_of_nodup_map D.keys ha' ha (hfor'.historyKey.symm.trans hkey)
    rw [hsame] at hfor'
    exact absurd (List.inj_on_of_nodup_map hkeys hx hr (hfor'.key.trans hfor.key.symm)) hne

/-- The row of an attempt is the last result that is found of its target. -/
theorem history_after {a : PbsAttempt} (ha : a ∈ D.job.attempts) {r : PairRun}
    (hr : r ∈ D.after.pairRuns) (hfor : D.RowFor a r) :
    pbsHistory a.target.historyKey a.target.runName D.after = ⟨some r,
      lastRun (fun x => x.historyKey = a.target.historyKey && x.succeeded)
        D.after.pairRuns⟩ := by
  obtain ⟨hname, hkey, hkeyNe, -⟩ := D.trimmed a ha
  have hlast : lastRun (fun x => x.historyKey = a.target.historyKey) D.after.pairRuns =
      some r := by
    refine lastRun_of_newest D.rows_after.1 hr (decide_eq_true hfor.historyKey) ?_
    intro x hx hpx hne
    rw [seenAt_rowFor hfor]
    exact (older ha hr hfor hx (of_decide_eq_true hpx) hne).1
  unfold pbsHistory pairLastHistory
  dsimp only
  rw [hname, hkey, if_neg (not_or.mpr ⟨hkeyNe, runName_ne _⟩), hlast]

theorem pbsDue_eq {t : PbsTarget} (hschedule : scheduleRefusal t.schedule = none)
    (c : TickSettings) (now : Time) (s : JobStore) :
    pbsDue c now s t = decideDue t.schedule c.laterTicks (pbsFacts s t) now := by
  unfold pbsDue pbsFacts ScheduledWork.decision unlessRefused
  dsimp only
  rw [hschedule, Option.elim_none]

theorem pbsDue_of_refusal {t : PbsTarget} {reason : String}
    (hrefusal : scheduleRefusal t.schedule = some reason) (c : TickSettings) (now : Time)
    (s : JobStore) : pbsDue c now s t = refused reason := by
  unfold pbsDue ScheduledWork.decision unlessRefused
  dsimp only
  rw [hrefusal]
  rfl

/-- A schedule is not refused for the reasons of a retry. -/
theorem refusal_ne {job : CronJob} {reason : String} (h : scheduleRefusal job = some reason) :
    reason ≠ "retry_backoff" ∧ reason ≠ "retry_after_failure" := by
  unfold scheduleRefusal at h
  split_ifs at h
  · obtain rfl := Option.some.inj h
    have hprefix := startsWith_append "schedule=" job.schedule
    constructor
    · intro hsame
      rw [hsame] at hprefix
      exact absurd hprefix (by decide)
    · intro hsame
      rw [hsame] at hprefix
      exact absurd hprefix (by decide)
  · obtain rfl := Option.some.inj h
    exact ⟨by decide, by decide⟩

/-- What the decision takes from the rows after a job. -/
theorem facts_after {a : PbsAttempt} (ha : a ∈ D.job.attempts) :
    (pbsFacts D.after a.target).attemptAt = D.now ∧
    (D.job.BackedUp a.target → (pbsFacts D.after a.target).failed = false) ∧
    (¬ D.job.BackedUp a.target → D.job.caller = .scheduler →
      (pbsFacts D.after a.target).failed = true) ∧
    (D.job.caller = .scheduler → a.slot ≠ "" → a.slot.length ≤ 64 →
      (pbsFacts D.after a.target).previousSlot = a.slot) := by
  obtain ⟨-, -, hexists⟩ := D.rows_after
  obtain ⟨r, hr, hfor⟩ := hexists a ha
  have hattempt := (attemptAt_rowFor hfor).2
  unfold pbsFacts
  rw [history_after ha hr hfor]
  unfold LastRuns.dated RunHistory.facts
  dsimp only
  refine ⟨hattempt, fun hbackup => ?_, fun hnot hcaller => ?_, fun hcaller hne hshort => ?_⟩
  · rw [hfor.ok.mpr hbackup]
    rfl
  · have hok : r.ok = false := by
      rw [← Bool.not_eq_true]
      exact fun hok => hnot (hfor.ok.mp hok)
    have hscheduled : r.byScheduler = true := by
      unfold PairRun.byScheduler
      rw [hfor.trigger, hcaller]
      rfl
    rw [hok, hscheduled, hattempt]
    simp only [Bool.not_false, Bool.true_and, decide_eq_true_eq]
    -- a success is one of another job
    cases hsuccess : lastRun (fun x => x.historyKey = a.target.historyKey && x.succeeded)
        D.after.pairRuns with
    | none => exact D.later
    | some x =>
      obtain ⟨hx, hpx⟩ := lastRun_spec hsuccess
      obtain ⟨hkey, hsucceeded⟩ := (Bool.and_eq_true _ _).mp hpx
      have hne : x ≠ r := by
        rintro rfl
        unfold PairRun.succeeded at hsucceeded
        rw [hok] at hsucceeded
        cases hsucceeded
      have holder := (older ha hr hfor hx (of_decide_eq_true hkey) hne).2
      rw [Option.map_some]
      by_cases hzero : x.shownEnd = 0
      · rw [Option.filter_some, if_neg (by simp [hzero])]
        exact D.later
      · rw [Option.filter_some, if_pos (by simpa using hzero)]
        exact holder
  · have htext : Dict.textOr (r.context.getD []) "scheduled_slot" "" = a.slot := by
      unfold Dict.textOr
      rw [hfor.slot hcaller hne hshort, pyOr_str hne]
      rfl
    rw [htext, if_neg hne]

/-- The first run over a target leaves no success of it if its backup failed. -/
theorem successAt_after {a : PbsAttempt} (ha : a ∈ D.job.attempts)
    (hnot : ¬ D.job.BackedUp a.target)
    (hfirst : ∀ r ∈ D.store.pairRuns, r.jobId = D.row.id) :
    (pbsFacts D.after a.target).successAt = none := by
  obtain ⟨hkeys, hcases, hexists⟩ := D.rows_after
  obtain ⟨r, hr, hfor⟩ := hexists a ha
  unfold pbsFacts
  rw [history_after ha hr hfor]
  unfold LastRuns.dated RunHistory.facts
  dsimp only
  cases hsuccess : lastRun (fun x => x.historyKey = a.target.historyKey && x.succeeded)
      D.after.pairRuns with
  | none => rfl
  | some x =>
    obtain ⟨hx, hpx⟩ := lastRun_spec hsuccess
    obtain ⟨hkey, hsucceeded⟩ := (Bool.and_eq_true _ _).mp hpx
    unfold PairRun.succeeded at hsucceeded
    have hok : x.ok = true := ((Bool.and_eq_true _ _).mp hsucceeded).1
    rcases hcases x hx with ⟨hjob, hbefore⟩ | ⟨a', ha', hfor'⟩
    · exact absurd (hfirst x hbefore) hjob
    · have hsame : a' = a := List.inj_on_of_nodup_map D.keys ha' ha
        (hfor'.historyKey.symm.trans (of_decide_eq_true hkey))
      rw [hsame] at hfor'
      exact absurd (hfor'.ok.mp hok) hnot

/-- The row of an attempt says whether its target was backed up. -/
def RowOk (D : RecordedPbs) (t : PbsTarget) : Prop :=
  ∃ row, D.after.pairRun D.row.id t.runName = some row ∧ row.ok = true

theorem row_of {a : PbsAttempt} (ha : a ∈ D.job.attempts) :
    ∃ row, D.after.pairRun D.row.id a.target.runName = some row ∧
      (row.ok = true ↔ D.job.BackedUp a.target) := by
  obtain ⟨hkeys, -, hexists⟩ := D.rows_after
  obtain ⟨r, hr, hfor⟩ := hexists a ha
  exact ⟨r, Tables.find_of_mem hkeys hr hfor.key, hfor.ok⟩

theorem rowOk_iff {a : PbsAttempt} (ha : a ∈ D.job.attempts) :
    D.RowOk a.target ↔ D.job.BackedUp a.target := by
  obtain ⟨row, hrow, hok⟩ := row_of ha
  constructor
  · rintro ⟨row', hrow', hok'⟩
    rw [hrow] at hrow'
    rw [← Option.some.inj hrow'] at hok'
    exact hok.mp hok'
  · exact fun hbackup => ⟨row, hrow, hok.mpr hbackup⟩

/-- Nothing is retried of a target that was backed up. -/
theorem due_of_backedUp {a : PbsAttempt} (ha : a ∈ D.job.attempts)
    (hbackup : D.job.BackedUp a.target) (c : TickSettings) (now : Time) :
    (pbsDue c now D.after a.target).retryAt = none ∧
      (pbsDue c now D.after a.target).reason
        ∉ [some "retry_backoff", some "retry_after_failure"] := by
  have hsettled := (facts_after ha).2.1 hbackup
  cases hrefusal : scheduleRefusal a.target.schedule with
  | none =>
    rw [pbsDue_eq hrefusal]
    exact decideDue_settled hsettled
  | some reason =>
    rw [pbsDue_of_refusal hrefusal]
    refine ⟨rfl, fun hmem => ?_⟩
    have hreason : reason = "retry_backoff" ∨ reason = "retry_after_failure" := by
      simpa [refused] using hmem
    obtain ⟨hbackoff, hfailure⟩ := refusal_ne hrefusal
    exact hreason.elim hbackoff hfailure

/-- A target that the scheduler has tried in vain waits for its retry, which is due when the
delay is over, except in a repeated minute. -/
theorem due_of_failed {a : PbsAttempt} (ha : a ∈ D.job.attempts)
    (hnot : ¬ D.job.BackedUp a.target) (hcaller : D.job.caller = .scheduler)
    (hschedule : scheduleRefusal a.target.schedule = none) (c : TickSettings) (now : Time) :
    (now < D.now + c.retryAfter →
      (pbsDue c now D.after a.target).due = false ∧
      (pbsDue c now D.after a.target).reason = some "retry_backoff" ∧
      (pbsDue c now D.after a.target).retryAt = some (D.now + c.retryAfter)) ∧
    (D.now + c.retryAfter ≤ now →
      (pbsDue c now D.after a.target).due = true ∧
        (pbsDue c now D.after a.target).reason = some "retry_after_failure" ∨
      (pbsDue c now D.after a.target).due = false ∧
        RepeatedSlot a.target.schedule c.laterTicks (pbsFacts D.after a.target) now) := by
  obtain ⟨hattempt, -, hfailed, -⟩ := facts_after ha
  have hfailed := hfailed hnot hcaller
  have hdelay : c.laterTicks.retryAfter = c.retryAfter := rfl
  rw [pbsDue_eq hschedule]
  constructor
  · intro hearly
    have hwait : now - (pbsFacts D.after a.target).attemptAt < c.laterTicks.retryAfter := by
      rw [hattempt, hdelay]
      exact sub_lt_iff_lt_add'.mpr hearly
    rw [decideDue_backoff hfailed hwait, hattempt, hdelay]
    exact ⟨rfl, rfl, rfl⟩
  · intro hlate
    have hretry : (pbsFacts D.after a.target).retryDue c.laterTicks now = true := by
      unfold DueFacts.retryDue
      rw [hfailed, hattempt, hdelay, Bool.true_and, decide_eq_true_eq]
      exact le_sub_iff_add_le'.mpr hlate
    rcases @decideDue_retry a.target.schedule _ _ _ hretry with heq | hrepeated
    · rw [heq]
      exact .inl ⟨rfl, rfl⟩
    · exact .inr hrepeated

/-- The flags of the recorded summary agree with the rows. -/
theorem flags_after (hrefusal : D.job.refusal = none) (hturns : D.job.turns ≠ []) :
    FlagsAgree D.job.summary D.job.run fun t => D.RowOk t.1 := by
  have hflags := runSummary_flags D.job.run hturns
  have hrun : runPbsBackup D.job.run D.job.refusal = D.job.run.summary := by
    rcases PbsJob.runPbsBackup_cases D.job.run D.job.refusal with
      ⟨r, -, hnone⟩ | ⟨-, -, hrun⟩
    · rcases hnone with hsome | hempty
      · rw [hrefusal] at hsome
        cases hsome
      · exact absurd hempty hturns
    · exact hrun
  refine hflags.congr (fun key hkey => ?_) fun t ht => ?_
  · have hother : ∀ key ∈ ["ok", "backup_ok", "partial", "outcome"],
        key ∉ ["history_keys", "scheduler_slots"] := by decide
    rw [D.job.get_summary (hother key hkey), hrun]
  · have htaken : (t.1, t.2) ∈ D.job.taken := by
      unfold PbsJob.taken
      rw [hrefusal]
      exact ht
    obtain ⟨a, ha, htarget, -⟩ := attempt_of_taken htaken
    rw [← htarget, rowOk_iff ha, htarget]
    exact backedUp_iff htaken

/-- **Retention never takes back a backup.**  The row of an attempt is ok exactly if the backup
command of its target ran and exited 0.  Nothing is retried of such a target; any other one that
the scheduler tried waits for its retry, which is due when the delay is over, except in a
repeated minute of its slot.  The flags of the summary agree with the rows. -/
theorem pbs_retention (D : RecordedPbs) :
    (∀ a ∈ D.job.attempts, ∃ row, D.after.pairRun D.row.id a.target.runName = some row ∧
      (row.ok = true ↔ D.job.BackedUp a.target)) ∧
    (∀ a ∈ D.job.attempts, D.job.BackedUp a.target → ∀ (c : TickSettings) (now : Time),
      (pbsDue c now D.after a.target).retryAt = none ∧
      (pbsDue c now D.after a.target).reason
        ∉ [some "retry_backoff", some "retry_after_failure"]) ∧
    (∀ a ∈ D.job.attempts, ¬ D.job.BackedUp a.target → D.job.caller = .scheduler →
      scheduleRefusal a.target.schedule = none → ∀ (c : TickSettings) (now : Time),
      (now < D.now + c.retryAfter →
        (pbsDue c now D.after a.target).due = false ∧
        (pbsDue c now D.after a.target).reason = some "retry_backoff" ∧
        (pbsDue c now D.after a.target).retryAt = some (D.now + c.retryAfter)) ∧
      (D.now + c.retryAfter ≤ now →
        (pbsDue c now D.after a.target).due = true ∧
          (pbsDue c now D.after a.target).reason = some "retry_after_failure" ∨
        (pbsDue c now D.after a.target).due = false ∧
          RepeatedSlot a.target.schedule c.laterTicks (pbsFacts D.after a.target) now)) ∧
    (D.job.refusal = none → D.job.turns ≠ [] →
      FlagsAgree D.job.summary D.job.run fun t => D.RowOk t.1) ∧
    (D.job.taken = [] →
      Dict.get D.job.summary "ok" = .bool false ∧ Dict.get D.job.summary "backup_ok" = .bool false ∧
      ∀ a ∈ D.job.attempts, ¬ D.RowOk a.target) := by
  refine ⟨fun a ha => row_of ha, fun a ha => due_of_backedUp ha, fun a ha => due_of_failed ha,
    flags_after, fun hnone => ?_⟩
  have hrefused : ∃ r, runPbsBackup D.job.run D.job.refusal = D.job.run.refusedSummary r := by
    rcases PbsJob.runPbsBackup_cases D.job.run D.job.refusal with
      ⟨r, hrun, -⟩ | ⟨hrefusal, hturns, -⟩
    · exact ⟨r, hrun⟩
    · unfold PbsJob.taken at hnone
      rw [hrefusal] at hnone
      exact absurd hnone hturns
  obtain ⟨r, hrun⟩ := hrefused
  refine ⟨?_, ?_, fun a ha hok => ?_⟩
  · rw [D.job.get_summary (by decide), hrun]
    rfl
  · rw [D.job.get_summary (by decide), hrun]
    rfl
  · obtain ⟨c, hc, -⟩ := (rowOk_iff ha).mp hok
    rw [hnone] at hc
    cases hc

end RecordedPbs

/-! ### An hour that comes twice -/

/-- `0 * * * *`. -/
def hourAfter (t : Int) : Int := (t / 3600000000 + 1) * 3600000000

def hourBefore (t : Int) : Int := (t - 1) / 3600000000 * 3600000000

theorem hourAfter_gt (t : Int) : t < hourAfter t := by
  unfold hourAfter
  omega

/-- The full hours do not show one minute three times. -/
theorem berlinTime_hours (t : Int) (h : berlinTime (hourAfter t) = berlinTime t) :
    berlinTime (hourAfter (hourAfter t)) ≠ berlinTime t := by
  intro hagain
  have hfirst := berlinTime_inj h
  have hsecond := berlinTime_inj hagain
  unfold berlinMinute hourAfter fallBackAt fallBackMidnight at hfirst hsecond
  split_ifs at hfirst hsecond <;> omega

/-- A schedule with every full hour. -/
def hourly : CronJob := { halfHourly with
  schedule := "0 * * * *"
  next := hourAfter
  prev := hourBefore
  next_gt := hourAfter_gt
  wall_twice := fun t _ => berlinTime_hours t }

/-- The two targets of 02:00, on the night on which that hour comes twice. -/
def foldTarget (name : String) : PbsTarget := ⟨name, "pbs:id:" ++ name, hourly⟩

def foldAttempt (name : String) : PbsAttempt :=
  ⟨foldTarget name, "v1|Europe/Berlin|0 * * * *|2026-10-25T02:00"⟩

/-- A backup with this exit code, and a prune that fails. -/
def foldCourse (code : Int) : TargetCourse where
  cancelled := false
  logFile := "/logs/pbs/pbs.log"
  startedAt := "2026-10-25T02:00:05"
  duration := .dec 15 0
  sources := .ok (true, "")
  prepared := .ok ()
  backup := .ok code
  pruneCommand := .ok (some ["prune"])
  cancelledBackup := false
  prune := .ok 5
  cancelledPrune := false
  cancelledFailed := false

/-- The backup of `nas` works, that of `docs` does not. -/
def foldJob : PbsJob where
  caller := .scheduler
  attempts := [foldAttempt "nas", foldAttempt "docs"]
  turns := [(foldTarget "nas", foldCourse 0), (foldTarget "docs", foldCourse 1)]
  startedAt := "2026-10-25T02:00:05"
  endedAt := "2026-10-25T02:00:20"
  refusal := none

def foldStart : Time := fallBackMidnight + 7205000000

def foldStore : JobStore :=
  JobStore.empty.after [.start { namedRequest "" with
    kind := "pbs"
    attempts := foldJob.attempts.map fun a => .dict (a.entry .scheduler) } foldStart]

theorem foldStore_rows : foldStore.pairRuns =
    foldJob.startedRows { namedJob 1 foldStart with kind := "pbs", trigger := "scheduler" } :=
  rfl

theorem foldStore_keys :
    foldStore.pairRuns.map PairRun.key = [(1, "pbs:nas"), (1, "pbs:docs")] :=
  rfl

theorem foldStore_spec :
    foldStore.job 1 = some { namedJob 1 foldStart with kind := "pbs", trigger := "scheduler" } ∧
    foldStore.intent 1 = none ∧ (∀ r ∈ foldStore.pairRuns, r.jobId = 1) ∧
    foldStore.pairRuns.filter (fun r => r.jobId = 1) =
      foldJob.startedRows { namedJob 1 foldStart with kind := "pbs", trigger := "scheduler" } ∧
    (foldStore.pairRuns.map PairRun.key).Nodup := by
  have hids : ∀ r ∈ foldStore.pairRuns, r.jobId = 1 := by
    intro r hr
    have hkey : r.key ∈ [((1 : Nat), "pbs:nas"), (1, "pbs:docs")] :=
      foldStore_keys ▸ List.mem_map_of_mem hr
    rcases List.mem_pair.mp hkey with heq | heq
    all_goals exact (Prod.mk.inj heq).1
  refine ⟨rfl, rfl, hids, ?_, ?_⟩
  · rw [List.filter_eq_self.mpr fun r hr => decide_eq_true (hids r hr)]
    exact foldStore_rows
  · rw [foldStore_keys]
    decide

theorem foldCourse_short (code : Nat) (h : code < 256) : (foldCourse code).Short where
  backup rc hrc := by
    obtain rfl := Except.ok.inj hrc
    exact (encodedSize_count (h.trans (by decide))).trans (by decide)
  prune rc hrc := by
    obtain rfl := Except.ok.inj hrc
    have hfive : encodedSize (.int (5 : Nat)) ≤ 80 := encodedSize_count (by decide)
    exact hfive.trans (by decide)
  duration := by
    have hshort : (PyFloat.dec 15 0).canonical = true ∧ encodedSize (.float (.dec 15 0)) ≤ 392 := by
      decide +kernel
    exact hshort

/-- The job ends at 02:00:20, long before that minute comes again. -/
def foldRecord : RecordedPbs where
  job := foldJob
  row := { namedJob 1 foldStart with kind := "pbs", trigger := "scheduler" }
  store := foldStore
  external := false
  stagedAt := foldStart + 15000000
  now := foldStart + 15000000
  found := foldStore_spec.1
  running := rfl
  kind := rfl
  unstaged := foldStore_spec.2.1
  begun := foldStore_spec.2.2.2.1
  unique := foldStore_spec.2.2.2.2
  turned := .refl _
  names := by decide
  keys := by decide
  trimmed := by decide +kernel
  short := List.forall_mem_cons.mpr ⟨foldCourse_short 0 (by decide),
    List.forall_mem_cons.mpr ⟨foldCourse_short 1 (by decide), List.forall_mem_nil _⟩⟩
  clock := fun r hr hother => absurd (foldStore_spec.2.2.1 r hr) hother
  later := by decide
  fits := (encodedSize_le_sizeBound _).trans (by decide +kernel)

theorem not_backedUp_docs : ¬ foldJob.BackedUp (foldTarget "docs") := by
  rintro ⟨c, hc, -, -, -, hok⟩
  have hcourse : (foldTarget "docs", c) ∈
    [(foldTarget "nas", foldCourse 0), (foldTarget "docs", foldCourse 1)] := hc
  rcases List.mem_pair.mp hcourse with heq | heq
  · have hname := congrArg PbsTarget.name (Prod.mk.inj heq).1
    exact absurd hname (by decide)
  · rw [(Prod.mk.inj heq).2] at hok
    cases hok

/-- A minute after it is over, the failed backup waits for its retry; the one whose prune failed
does not. -/
theorem pbs_retention_fold :
    (∃ row, foldRecord.after.pairRun 1 "pbs:nas" = some row ∧ row.ok = true) ∧
    (∀ c now, (pbsDue c now foldRecord.after (foldTarget "nas")).retryAt = none) ∧
    ∀ c now, now < foldRecord.now + c.retryAfter →
      (pbsDue c now foldRecord.after (foldTarget "docs")).retryAt =
        some (foldRecord.now + c.retryAfter) := by
  obtain ⟨hrows, hsettled, hretried, -⟩ := RecordedPbs.pbs_retention foldRecord
  have hnas : foldAttempt "nas" ∈ foldRecord.job.attempts := List.mem_cons_self
  have hdocs : foldAttempt "docs" ∈ foldRecord.job.attempts :=
    List.mem_cons_of_mem _ List.mem_cons_self
  have hbackup : foldRecord.job.BackedUp (foldTarget "nas") :=
    ⟨foldCourse 0, List.mem_cons_self, rfl, ⟨"", rfl⟩, rfl, rfl⟩
  refine ⟨?_, fun c now => (hsettled _ hnas hbackup c now).1, fun c now hearly => ?_⟩
  · obtain ⟨row, hrow, hok⟩ := hrows _ hnas
    exact ⟨row, hrow, hok.mpr hbackup⟩
  · exact ((hretried _ hdocs not_backedUp_docs rfl (by decide +kernel) c now).1 hearly).2.2



/-- **The delay can be over and the retry not due**: while the hour of the failed slot comes
again, nothing is started. -/
theorem retry_withheld :
    foldRecord.job.caller = .scheduler ∧ foldAttempt "docs" ∈ foldRecord.job.attempts ∧
    (foldRecord.after.pairRun 1 "pbs:docs").map PairRun.ok = some false ∧
    foldRecord.now + TickSettings.retryAfter ⟨1, 15, false⟩ ≤ foldStart + 120000000 ∧
    (pbsDue ⟨1, 15, false⟩ (foldStart + 120000000) foldRecord.after (foldTarget "docs")).due =
      false ∧
    (pbsDue ⟨1, 15, false⟩ (foldStart + 120000000) foldRecord.after (foldTarget "docs")).reason =
      some "slot_already_attempted" := by
  have hdocs : foldAttempt "docs" ∈ foldRecord.job.attempts :=
    List.mem_cons_of_mem _ List.mem_cons_self
  obtain ⟨row, hrow, hok⟩ := RecordedPbs.row_of hdocs
  have hfalse : row.ok = false := by
    rw [← Bool.not_eq_true]
    exact fun htrue => not_backedUp_docs (hok.mp htrue)
  have hdue : (pbsDue ⟨1, 15, false⟩ (foldStart + 120000000) foldRecord.after
      (foldTarget "docs")).due = false ∧
      (pbsDue ⟨1, 15, false⟩ (foldStart + 120000000) foldRecord.after
        (foldTarget "docs")).reason = some "slot_already_attempted" := by
    obtain ⟨hattempt, -, hfailed, hslot⟩ := RecordedPbs.facts_after hdocs
    have hfailed := hfailed not_backedUp_docs rfl
    have hslot := hslot rfl (by decide) (by decide)
    have hsuccess := RecordedPbs.successAt_after hdocs not_backedUp_docs foldStore_spec.2.2.1
    have hrefusal : scheduleRefusal (foldTarget "docs").schedule = none := by decide +kernel
    rw [RecordedPbs.pbsDue_eq hrefusal]
    have htarget : (foldAttempt "docs").target = foldTarget "docs" := rfl
    rw [htarget] at hattempt hfailed hslot hsuccess
    revert hattempt hfailed hslot hsuccess
    generalize pbsFacts foldRecord.after (foldTarget "docs") = f
    obtain ⟨successAt, attemptAt, failed, previousSlot, retrySlot⟩ := f
    rintro rfl rfl rfl rfl
    exact ⟨rfl, rfl⟩
  refine ⟨rfl, hdocs, ?_, by decide, hdue⟩
  exact (congrArg (Option.map PairRun.ok) hrow).trans (congrArg some hfalse)

end RcloneSync
