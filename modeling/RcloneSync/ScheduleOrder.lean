/-
RcloneSync/ScheduleOrder.lean

What the scheduler remembers of a job definition does not depend on the order in which its jobs
were recorded.  `_record_job_definition_schedule_state` keeps the attempt and the success that
were started last, and among those started at once the ones with the greatest job number;
`_backfill_job_definition_schedule_state` records all rows of `jobs`, those that were recorded when
they ended and those of a time before the state was kept, and pruning deletes rows without looking
at the state.

`schedule_of_records` says that after any mixture of the three the remembered attempt is the
greatest one ever recorded, live or by a backfill, and so is the remembered success.
-/
import RcloneSync.CronSlots
import RcloneSync.JobRetention
import Mathlib.Data.Prod.Lex

namespace RcloneSync

open Py Runs

/-! ### Records and the backfill -/

/-- What a row of `jobs` says to the scheduler, as the backfill reads it. -/
def jobReport (j : Job) : ScheduleReport where
  definitionId := j.definitionId.getD ""
  definitionName := j.definitionName.getD ""
  jobId := j.id
  startedAt := j.startedAt
  endedAt := j.endedAt
  status := j.status
  trigger := if j.trigger = "" then "manual" else j.trigger
  scheduledSlot := if j.scheduledSlot.getD "" = "" then none else j.scheduledSlot
  dryRun := j.dryRun

/-- `ORDER BY started_at, id`. -/
def startedBefore (j k : Job) : Bool :=
  j.startedAt < k.startedAt || (j.startedAt = k.startedAt && j.id ≤ k.id)

/-- `_backfill_job_definition_schedule_state`. -/
def backfillSchedule (jobs : List Job) (schedule : List ScheduleState) : List ScheduleState :=
  ((jobs.filter fun j => j.definitionId.getD "" ≠ "").mergeSort startedBefore).foldl
    (fun schedule j => recordSchedule (jobReport j) schedule) schedule

/-- The two tables. -/
structure ScheduleLog where
  jobs : List Job
  schedule : List ScheduleState

/-- A row comes into `jobs` that nothing recorded; the end of a job is recorded, live or once more;
the backfill runs; rows are pruned. -/
inductive LogAction
  | insert (j : Job)
  | record (j : Job)
  | backfill
  | prune (kept : Job → Bool)

def logStep (s : ScheduleLog) : LogAction → ScheduleLog
  | .insert j => { s with jobs := s.jobs.insert j }
  | .record j => ⟨s.jobs.insert j, recordSchedule (jobReport j) s.schedule⟩
  | .backfill => { s with schedule := backfillSchedule s.jobs s.schedule }
  | .prune kept => { s with jobs := s.jobs.filter kept }

/-- The jobs that an action has to record: the backfill all rows that stand in `jobs`. -/
def recordedBy (s : ScheduleLog) : LogAction → List Job
  | .record j => [j]
  | .backfill => s.jobs
  | _ => []

/-- The jobs that a list of actions has to record. -/
def recordedJobs (s : ScheduleLog) : List LogAction → List Job
  | [] => []
  | a :: as => recordedBy s a ++ recordedJobs (logStep s a) as

/-! ### The greatest record -/

/-- Runs are ordered by their start, then by their job. -/
def runKey (run : ScheduledRun) : Time ×ₗ Nat := toLex (run.startedAt, run.jobId)

def jobKey (j : Job) : Time ×ₗ Nat := toLex (j.startedAt, j.id)

@[simp] theorem runKey_jobReport (j : Job) : runKey (jobReport j).run = jobKey j := rfl

/-- A job that counts as an attempt of a definition. -/
def isAttempt (id : String) (j : Job) : Bool :=
  strip (j.definitionId.getD "") = id && !j.dryRun && (jobReport j).run.trigger = "scheduler"

/-- A job that counts as a success of a definition. -/
def isSuccess (id : String) (j : Job) : Bool :=
  strip (j.definitionId.getD "") = id && !j.dryRun && j.status = .ok

/-- The greatest of the jobs that count. -/
def Greatest (counts : Job → Bool) (jobs : List Job) (j : Job) : Prop :=
  j ∈ jobs ∧ counts j = true ∧ ∀ k ∈ jobs, counts k = true → jobKey k ≤ jobKey j

/-- The history of a definition is what the greatest of the recorded jobs left. -/
structure Remembers (id : String) (jobs : List Job) (h : JobHistory) : Prop where
  attempt : ∀ x, h.lastAttempt = some x ↔
    ∃ j, Greatest (isAttempt id) jobs j ∧ x = ((jobReport j).run, j.status)
  success : ∀ x, h.lastSuccess = some x ↔
    ∃ j, Greatest (isSuccess id) jobs j ∧ x = (jobReport j).run

/-! ### One record -/

theorem notBefore_some_iff {run last : ScheduledRun} :
    notBefore run (some last) = true ↔ runKey last ≤ runKey run := by
  rw [runKey, runKey, Prod.Lex.toLex_le_toLex]
  simp [notBefore]

/-- What the jobs recorded in this order leave in the two groups of columns. -/
def lastRecorded (id : String) (jobs : List Job) : JobHistory where
  lastAttempt := (Tables.newest jobKey (jobs.filter (isAttempt id))).map
    fun j => ((jobReport j).run, j.status)
  lastSuccess := (Tables.newest jobKey (jobs.filter (isSuccess id))).map fun j => (jobReport j).run

/-- One group of columns after another job. -/
theorem newest_recorded {ρ : Type} (counts : Job → Bool) (value : Job → ρ)
    (run : ρ → ScheduledRun) (hrun : ∀ j, runKey (run (value j)) = jobKey j) (jobs : List Job)
    {j : Job} (hpos : 0 ≤ j.startedAt) :
    (Tables.newest jobKey ((jobs ++ [j]).filter counts)).map value
      = if counts j = true ∧ notBefore (jobReport j).run
            (((Tables.newest jobKey (jobs.filter counts)).map value).map run) = true then
          some (value j)
        else (Tables.newest jobKey (jobs.filter counts)).map value := by
  rw [List.filter_append]
  by_cases hcounts : counts j = true
  · rw [List.filter_cons_of_pos hcounts, List.filter_nil, Tables.newest_concat]
    simp only [hcounts, true_and]
    cases Tables.newest jobKey (jobs.filter counts) with
    | none =>
      have hfirst : notBefore (jobReport j).run none = true := notBefore_none hpos
      rw [Option.map_none, Option.map_none, if_pos hfirst]
      rfl
    | some b =>
      simp only [Option.map_some, Option.elim_some]
      have hiff : notBefore (jobReport j).run (some (run (value b))) = true
          ↔ jobKey b ≤ jobKey j := by
        rw [notBefore_some_iff, hrun, runKey_jobReport]
      by_cases hle : jobKey b ≤ jobKey j
      · rw [if_pos hle, if_pos (hiff.mpr hle)]
      · rw [if_neg hle, if_neg fun h => hle (hiff.mp h)]
  · rw [List.filter_cons_of_neg hcounts, List.filter_nil, List.append_nil,
      if_neg fun h => hcounts h.1]

theorem isAttempt_of {id : String} {j : Job} (hid : strip (j.definitionId.getD "") = id)
    (hreal : j.dryRun = false) :
    isAttempt id j = decide ((jobReport j).run.trigger = "scheduler") := by
  rw [isAttempt, hid, hreal, decide_eq_true rfl, Bool.not_false, Bool.true_and, Bool.true_and]

theorem isSuccess_of {id : String} {j : Job} (hid : strip (j.definitionId.getD "") = id)
    (hreal : j.dryRun = false) : isSuccess id j = decide (j.status = .ok) := by
  rw [isSuccess, hid, hreal, decide_eq_true rfl, Bool.not_false, Bool.true_and, Bool.true_and]

/-- A record changes the history of its definition as it changes the last recorded job. -/
theorem lastRecorded_concat {id : String} (jobs : List Job) {j : Job} (hpos : 0 ≤ j.startedAt)
    (hid : strip (j.definitionId.getD "") = id) (hreal : j.dryRun = false) :
    lastRecorded id (jobs ++ [j])
      = (lastRecorded id jobs).record (jobReport j).run j.status := by
  have hattempt := newest_recorded (isAttempt id) (fun j => ((jobReport j).run, j.status)) Prod.fst
    runKey_jobReport jobs hpos
  have hsuccess := newest_recorded (isSuccess id) (fun j => (jobReport j).run) (fun r => r)
    runKey_jobReport jobs hpos
  simp only [isAttempt_of hid hreal, decide_eq_true_eq] at hattempt
  simp only [isSuccess_of hid hreal, decide_eq_true_eq, Option.map_id'] at hsuccess
  unfold lastRecorded JobHistory.record
  rw [hattempt, hsuccess]

theorem lastRecorded_other {id : String} (jobs : List Job) {j : Job}
    (h : strip (j.definitionId.getD "") ≠ id ∨ j.dryRun = true) :
    lastRecorded id (jobs ++ [j]) = lastRecorded id jobs := by
  have hattempt : isAttempt id j = false := by
    rcases h with h | h <;> simp [isAttempt, h]
  have hsuccess : isSuccess id j = false := by
    rcases h with h | h <;> simp [isSuccess, h]
  unfold lastRecorded
  rw [List.filter_append, List.filter_append, List.filter_cons_of_neg (by simp [hattempt]),
    List.filter_cons_of_neg (by simp [hsuccess])]
  simp only [List.filter_nil, List.append_nil]

/-- Recording a job, in the state and in the list of all recorded jobs. -/
theorem lastRecorded_record {id : String} (hne : id ≠ "") {jobs : List Job} {j : Job}
    (hpos : 0 ≤ j.startedAt) {schedule : List ScheduleState}
    (h : historyOf id schedule = lastRecorded id jobs) :
    historyOf id (recordSchedule (jobReport j) schedule) = lastRecorded id (jobs ++ [j]) := by
  by_cases hmine : strip (j.definitionId.getD "") = id ∧ j.dryRun = false
  · rw [lastRecorded_concat jobs hpos hmine.1 hmine.2, ← h]
    exact historyOf_record (jobReport j) id hmine.1 hne hmine.2 schedule fun _ => hpos
  · have hother : strip (j.definitionId.getD "") ≠ id ∨ j.dryRun = true := by
      rcases not_and_or.mp hmine with hid | hreal
      · exact Or.inl hid
      · exact Or.inr (by simpa using hreal)
    rw [lastRecorded_other jobs hother, ← h]
    exact historyOf_other (jobReport j) id hother schedule

/-! ### A record that is made again -/

section Again

variable {jobs : List Job} {j : Job}

/-- Jobs with the same key are the same job. -/
def DistinctKeys (jobs : List Job) : Prop :=
  ∀ j ∈ jobs, ∀ k ∈ jobs, jobKey j = jobKey k → j = k

theorem newest_iff_greatest (hkeys : DistinctKeys jobs) (counts : Job → Bool) :
    Tables.newest jobKey (jobs.filter counts) = some j ↔ Greatest counts jobs j := by
  constructor
  · intro h
    obtain ⟨before, after, hrows, hbefore, hafter⟩ := Tables.newest_eq_some_iff.mp h
    have hmem : ∀ k, k ∈ jobs ∧ counts k = true ↔ k ∈ before ++ j :: after := fun k => by
      rw [← hrows, List.mem_filter]
    obtain ⟨hj, hcounts⟩ := (hmem j).mpr (by simp)
    refine ⟨hj, hcounts, fun k hk hc => ?_⟩
    rcases List.mem_append.mp ((hmem k).mp ⟨hk, hc⟩) with hk | hk
    · exact hbefore k hk
    · rcases List.mem_cons.mp hk with rfl | hk
      · exact le_refl _
      · exact le_of_lt (hafter k hk)
  · rintro ⟨hj, hcounts, hle⟩
    cases h : Tables.newest jobKey (jobs.filter counts) with
    | none =>
      have hempty := Tables.newest_eq_none_iff.mp h
      have hmem : j ∈ jobs.filter counts := List.mem_filter.mpr ⟨hj, hcounts⟩
      rw [hempty] at hmem
      cases hmem
    | some k =>
      obtain ⟨before, after, hrows, hbefore, hafter⟩ := Tables.newest_eq_some_iff.mp h
      have hk : k ∈ jobs ∧ counts k = true := by
        rw [← List.mem_filter, hrows]
        simp
      have hjk : jobKey j ≤ jobKey k := by
        have hmem : j ∈ before ++ k :: after := by
          rw [← hrows]
          exact List.mem_filter.mpr ⟨hj, hcounts⟩
        rcases List.mem_append.mp hmem with hmem | hmem
        · exact hbefore j hmem
        · rcases List.mem_cons.mp hmem with rfl | hmem
          · exact le_refl _
          · exact le_of_lt (hafter j hmem)
      rw [hkeys k hk.1 j hj (le_antisymm (hle k hk.1 hk.2) hjk)]

theorem DistinctKeys.mono {rows : List Job} (hkeys : DistinctKeys jobs)
    (hsub : ∀ j ∈ rows, j ∈ jobs) : DistinctKeys rows :=
  fun j hj k hk => hkeys j (hsub j hj) k (hsub k hk)

/-- Only the jobs that count matter, in any order and any number of times. -/
theorem lastRecorded_congr {rows : List Job} (hkeys : DistinctKeys jobs)
    (hkeys' : DistinctKeys rows) {id : String}
    (hsame : ∀ j, strip (j.definitionId.getD "") = id → (j ∈ jobs ↔ j ∈ rows)) :
    lastRecorded id jobs = lastRecorded id rows := by
  have hnewest {counts : Job → Bool}
      (hid : ∀ j, counts j = true → strip (j.definitionId.getD "") = id) :
      Tables.newest jobKey (jobs.filter counts) = Tables.newest jobKey (rows.filter counts) := by
    have hcounting (k : Job) : k ∈ jobs ∧ counts k = true ↔ k ∈ rows ∧ counts k = true :=
      and_congr_left fun hc => hsame k (hid k hc)
    ext j
    rw [newest_iff_greatest hkeys, newest_iff_greatest hkeys']
    simp only [Greatest, ← and_assoc, ← and_imp, hcounting]
  have hattempt : ∀ j, isAttempt id j = true → strip (j.definitionId.getD "") = id := fun j h => by
    simp only [isAttempt, Bool.and_eq_true, decide_eq_true_eq] at h
    exact h.1.1
  have hsuccess : ∀ j, isSuccess id j = true → strip (j.definitionId.getD "") = id := fun j h => by
    simp only [isSuccess, Bool.and_eq_true, decide_eq_true_eq] at h
    exact h.1.1
  unfold lastRecorded
  rw [hnewest hattempt, hnewest hsuccess]

end Again

/-! ### Runs -/

/-- Recording some rows behind the jobs that were recorded. -/
theorem lastRecorded_rows {id : String} (hne : id ≠ "") {jobs rows : List Job}
    (hnonneg : ∀ j ∈ rows, 0 ≤ j.startedAt) {schedule : List ScheduleState}
    (h : historyOf id schedule = lastRecorded id jobs) :
    historyOf id (rows.foldl (fun schedule j => recordSchedule (jobReport j) schedule) schedule)
      = lastRecorded id (jobs ++ rows) := by
  induction rows generalizing jobs schedule with
  | nil => rwa [List.append_nil]
  | cons j rows ih =>
    have hj := hnonneg j List.mem_cons_self
    have hrest := ih (fun k hk => hnonneg k (List.mem_cons_of_mem _ hk))
      (lastRecorded_record hne hj h)
    rwa [List.append_assoc] at hrest

theorem mem_backfillRows {jobs : List Job} {j : Job} :
    j ∈ (jobs.filter fun j => j.definitionId.getD "" ≠ "").mergeSort startedBefore ↔
      j ∈ jobs ∧ j.definitionId.getD "" ≠ "" := by
  rw [List.mem_mergeSort, List.mem_filter, decide_eq_true_eq]

/-- The backfill records the rows of `jobs`. -/
theorem lastRecorded_backfill {id : String} (hne : id ≠ "") {jobs rows : List Job}
    (hnonneg : ∀ j ∈ rows, 0 ≤ j.startedAt) (hkeys : DistinctKeys (jobs ++ rows))
    {schedule : List ScheduleState} (h : historyOf id schedule = lastRecorded id jobs) :
    historyOf id (backfillSchedule rows schedule) = lastRecorded id (jobs ++ rows) := by
  have hsub : ∀ j ∈ (rows.filter fun j => j.definitionId.getD "" ≠ "").mergeSort startedBefore,
      j ∈ rows := fun j hj => (mem_backfillRows.mp hj).1
  have hfill := lastRecorded_rows hne (fun j hj => hnonneg j (hsub j hj)) h
  rw [backfillSchedule, hfill]
  refine lastRecorded_congr (hkeys.mono fun j hj => ?_) hkeys fun j hid => ?_
  · exact List.mem_append.mpr ((List.mem_append.mp hj).imp_right (hsub j))
  · -- a row without a definition is none of this one
    have hdefinition : j.definitionId.getD "" ≠ "" := by
      intro hnone
      rw [hnone] at hid
      exact hne (hid.symm.trans (by decide))
    rw [List.mem_append, List.mem_append, mem_backfillRows, and_iff_left hdefinition]

/-- **One action** records what it has to record. -/
theorem logStep_spec {id : String} (hne : id ≠ "") {jobs : List Job} {s : ScheduleLog}
    (h : historyOf id s.schedule = lastRecorded id jobs) (a : LogAction)
    (hnonneg : ∀ j ∈ recordedBy s a, 0 ≤ j.startedAt)
    (hkeys : DistinctKeys (jobs ++ recordedBy s a)) :
    historyOf id (logStep s a).schedule = lastRecorded id (jobs ++ recordedBy s a) := by
  cases a with
  | insert j => exact h.trans (congrArg (lastRecorded id) (List.append_nil jobs).symm)
  | record j => exact lastRecorded_record hne (hnonneg j List.mem_cons_self) h
  | backfill => exact lastRecorded_backfill hne hnonneg hkeys h
  | prune kept => exact h.trans (congrArg (lastRecorded id) (List.append_nil jobs).symm)

/-- **A list of actions** leaves the history of the jobs it has to record. -/
theorem log_spec {id : String} (hne : id ≠ "") {jobs : List Job} {s : ScheduleLog}
    (h : historyOf id s.schedule = lastRecorded id jobs) (as : List LogAction)
    (hnonneg : ∀ j ∈ recordedJobs s as, 0 ≤ j.startedAt)
    (hkeys : DistinctKeys (jobs ++ recordedJobs s as)) :
    historyOf id (as.foldl logStep s).schedule = lastRecorded id (jobs ++ recordedJobs s as) := by
  induction as generalizing jobs s with
  | nil =>
    have hnone : recordedJobs s [] = [] := rfl
    rw [hnone, List.append_nil]
    exact h
  | cons a as ih =>
    have hsplit : recordedJobs s (a :: as) = recordedBy s a ++ recordedJobs (logStep s a) as := rfl
    rw [hsplit] at hnonneg hkeys ⊢
    rw [← List.append_assoc] at hkeys ⊢
    have hstep := logStep_spec hne h a (fun j hj => hnonneg j (List.mem_append_left _ hj))
      (hkeys.mono fun j hj => List.mem_append_left _ hj)
    exact ih hstep (fun j hj => hnonneg j (List.mem_append_right _ hj)) hkeys

theorem remembers_lastRecorded {jobs : List Job} (hkeys : DistinctKeys jobs) (id : String) :
    Remembers id jobs (lastRecorded id jobs) := by
  constructor
  · intro x
    unfold lastRecorded
    rw [Option.map_eq_some_iff]
    simp only [newest_iff_greatest hkeys, eq_comm (a := x)]
  · intro x
    unfold lastRecorded
    rw [Option.map_eq_some_iff]
    simp only [newest_iff_greatest hkeys, eq_comm (a := x)]

/-! ### Never backwards -/

/-- Neither group of columns goes back to an earlier run. -/
def MovesForward (h h' : JobHistory) : Prop :=
  (∀ x, h.lastAttempt = some x → ∃ y, h'.lastAttempt = some y ∧ runKey x.1 ≤ runKey y.1) ∧
    ∀ x, h.lastSuccess = some x → ∃ y, h'.lastSuccess = some y ∧ runKey x ≤ runKey y

theorem MovesForward.refl (h : JobHistory) : MovesForward h h :=
  ⟨fun x hx => ⟨x, hx, le_refl _⟩, fun x hx => ⟨x, hx, le_refl _⟩⟩

theorem MovesForward.trans {h₁ h₂ h₃ : JobHistory} (h : MovesForward h₁ h₂)
    (h' : MovesForward h₂ h₃) : MovesForward h₁ h₃ := by
  constructor
  · intro x hx
    obtain ⟨y, hy, hxy⟩ := h.1 x hx
    obtain ⟨z, hz, hyz⟩ := h'.1 y hy
    exact ⟨z, hz, hxy.trans hyz⟩
  · intro x hx
    obtain ⟨y, hy, hxy⟩ := h.2 x hx
    obtain ⟨z, hz, hyz⟩ := h'.2 y hy
    exact ⟨z, hz, hxy.trans hyz⟩

theorem movesForward_record (run : ScheduledRun) (status : JobStatus) (h : JobHistory) :
    MovesForward h (h.record run status) := by
  constructor
  · intro x hx
    unfold JobHistory.record
    dsimp only
    rw [hx, Option.map_some]
    by_cases hnew : run.trigger = "scheduler" ∧ notBefore run (some x.1) = true
    · rw [if_pos hnew]
      exact ⟨_, rfl, notBefore_some_iff.mp hnew.2⟩
    · rw [if_neg hnew]
      exact ⟨x, rfl, le_refl _⟩
  · intro x hx
    unfold JobHistory.record
    dsimp only
    rw [hx]
    by_cases hnew : status = .ok ∧ notBefore run (some x) = true
    · rw [if_pos hnew]
      exact ⟨_, rfl, notBefore_some_iff.mp hnew.2⟩
    · rw [if_neg hnew]
      exact ⟨x, rfl, le_refl _⟩

/-- No record moves the state of a definition backwards, whatever the table holds. -/
theorem movesForward_recordSchedule (report : ScheduleReport) (id : String)
    (schedule : List ScheduleState) :
    MovesForward (historyOf id schedule) (historyOf id (recordSchedule report schedule)) := by
  by_cases hother : strip report.definitionId ≠ id ∨ report.dryRun = true
  · rw [historyOf_other report id hother]
    exact .refl _
  obtain ⟨hid, hreal⟩ := not_or.mp hother
  have hid := not_not.mp hid
  cases hfind : Tables.find ScheduleState.definitionId schedule id with
  | none =>
    have hempty : historyOf id schedule = ⟨none, none⟩ := by
      rw [historyOf, hfind]
      rfl
    rw [hempty]
    constructor
    · intro x hx
      cases hx
    · intro x hx
      cases hx
  | some row =>
    by_cases hne : id = ""
    · rw [recordSchedule_eq, if_pos (Or.inl (hid.trans hne))]
      exact .refl _
    · rw [historyOf_record report id hid hne (by simpa using hreal) schedule (by simp [hfind])]
      exact movesForward_record _ _ _

theorem movesForward_backfill (jobs : List Job) (id : String) (schedule : List ScheduleState) :
    MovesForward (historyOf id schedule) (historyOf id (backfillSchedule jobs schedule)) := by
  unfold backfillSchedule
  generalize (jobs.filter fun j => j.definitionId.getD "" ≠ "").mergeSort startedBefore = rows
  induction rows generalizing schedule with
  | nil => exact .refl _
  | cons j rows ih => exact (movesForward_recordSchedule (jobReport j) id schedule).trans (ih _)

/-! ### Main result -/

/-- A new database. -/
def ScheduleLog.empty : ScheduleLog := ⟨[], []⟩

/-- The tables after a list of actions on a new database. -/
def loggedTables (as : List LogAction) : ScheduleLog := as.foldl logStep .empty

/-- The jobs that a list of actions on a new database has to record. -/
def loggedJobs (as : List LogAction) : List Job := recordedJobs .empty as

/-- **The schedule state does not depend on the order of recording.**  However the ends of jobs
are recorded, backfilled and pruned, the state of a definition is that of its greatest attempt and
of its greatest success among all jobs that were recorded live or stood in `jobs` at a backfill; and
neither a record nor a backfill ever moves a state backwards. -/
theorem schedule_of_records {as : List LogAction}
    (hnonneg : ∀ j ∈ loggedJobs as, 0 ≤ j.startedAt) (hkeys : DistinctKeys (loggedJobs as))
    (id : String) (hne : id ≠ "") :
    Remembers id (loggedJobs as) (historyOf id (loggedTables as).schedule) ∧
    (∀ bs, (∀ j, j ∈ loggedJobs bs ↔ j ∈ loggedJobs as) →
      historyOf id (loggedTables bs).schedule = historyOf id (loggedTables as).schedule) ∧
    (∀ report schedule,
      MovesForward (historyOf id schedule) (historyOf id (recordSchedule report schedule))) ∧
    ∀ jobs schedule,
      MovesForward (historyOf id schedule) (historyOf id (backfillSchedule jobs schedule)) := by
  have hempty : historyOf id ScheduleLog.empty.schedule = lastRecorded id [] := rfl
  have hspec := log_spec hne hempty as hnonneg hkeys
  rw [List.nil_append] at hspec
  refine ⟨?_, fun bs hsame => ?_,
    fun report schedule => movesForward_recordSchedule report id schedule,
    fun jobs schedule => movesForward_backfill jobs id schedule⟩
  · rw [loggedTables, hspec]
    exact remembers_lastRecorded hkeys id
  · have hkeys' : DistinctKeys (loggedJobs bs) := hkeys.mono fun j hj => (hsame j).mp hj
    have hspec' := log_spec hne hempty bs (fun j hj => hnonneg j ((hsame j).mp hj)) hkeys'
    rw [List.nil_append] at hspec'
    rw [loggedTables, loggedTables, hspec, hspec']
    exact lastRecorded_congr hkeys' hkeys fun j _ => hsame j

/-! ### The transactions of the database -/

theorem textOrNone_cleared (slot : Option String) :
    textOrNone ((if slot.getD "" = "" then none else slot).getD "")
      = textOrNone (slot.getD "") := by
  by_cases h : slot.getD "" = ""
  · rw [if_pos h, h]
    rfl
  · rw [if_neg h]

theorem trigger_shown (trigger : String) :
    (textOrNone (if trigger = "" then "manual" else trigger)).getD "manual"
      = (textOrNone trigger).getD "manual" := by
  by_cases h : trigger = ""
  · rw [if_pos h, h]
    decide
  · rw [if_neg h]

/-- A report that agrees with a row, as far as the scheduler reads it. -/
structure ReportsRow (r : ScheduleReport) (j : Job) : Prop where
  definitionId : r.definitionId = j.definitionId.getD ""
  definitionName : r.definitionName = j.definitionName.getD ""
  jobId : r.jobId = j.id
  startedAt : r.startedAt = j.startedAt
  endedAt : r.endedAt = j.endedAt
  status : r.status = j.status
  dryRun : r.dryRun = j.dryRun
  trigger : (textOrNone r.trigger).getD "manual" = (textOrNone j.trigger).getD "manual"
  slot : textOrNone (r.scheduledSlot.getD "") = textOrNone (j.scheduledSlot.getD "")

theorem ReportsRow.recordSchedule_eq {r : ScheduleReport} {j : Job} (h : ReportsRow r j)
    (schedule : List ScheduleState) :
    recordSchedule r schedule = recordSchedule (jobReport j) schedule := by
  have hrun : r.run = (jobReport j).run := by
    unfold ScheduleReport.run jobReport
    dsimp only
    rw [textOrNone_cleared, trigger_shown, h.jobId, h.startedAt, h.endedAt, h.trigger, h.slot]
  have hid : r.definitionId = (jobReport j).definitionId := h.definitionId
  have hname : r.definitionName = (jobReport j).definitionName := h.definitionName
  have hdry : r.dryRun = (jobReport j).dryRun := h.dryRun
  have hstatus : r.status = (jobReport j).status := h.status
  rw [RcloneSync.recordSchedule_eq, RcloneSync.recordSchedule_eq, hrun, hid, hname, hdry, hstatus]

/-- `job_finish` records the row it leaves, as long as its summary names no other slot than the
row. -/
theorem finishWrite_logs {row : Job} {status : JobStatus} {summary : Option Dict} {now : Time}
    {s t : JobStore} (h : finishWrite row status summary now s = .ok (true, t))
    (hrow : s.job row.id = some row) (hrunning : row.status = .running)
    (hslot : row.scheduledSlot = none ∨
      textOrNone (row.scheduledSlot.getD "")
        = (finishReport row status (summary.getD []) now).scheduledSlot) :
    ∃ j, t.job row.id = some j ∧ t.schedule = recordSchedule (jobReport j) s.schedule := by
  obtain ⟨-, -, -, hjobs⟩ := finishWrite_jobs h
  rw [finishWrite_schedule h]
  generalize hreport : finishReport row status (summary.getD []) now = report at hjobs hslot
  generalize (summary.map fun d => jsonDumpsBounded (.dict d) maxJobSummaryBytes) = payload
    at hjobs
  refine ⟨finishedJob report now payload row, ?_, ReportsRow.recordSchedule_eq ?_ _⟩
  · have hkey : ∀ j : Job, (finishedJob report now payload j).id = j.id := fun _ => rfl
    rw [JobStore.job] at hrow ⊢
    rw [hjobs, Tables.find_updateWhere hkey, hrow, Option.map_some,
      if_pos (by simp [isRunningJob, hrunning])]
  · have hfields : report.definitionId = row.definitionId.getD "" ∧
        report.definitionName = row.definitionName.getD "" ∧ report.jobId = row.id ∧
        report.startedAt = row.startedAt ∧ report.endedAt = some now := by
      rw [← hreport]
      exact ⟨rfl, rfl, rfl, rfl, rfl⟩
    obtain ⟨hid, hname, hjob, hstarted, hended⟩ := hfields
    refine ⟨hid, hname, hjob, hstarted, hended, rfl, rfl, rfl, ?_⟩
    show textOrNone (report.scheduledSlot.getD "")
      = textOrNone ((row.scheduledSlot.or report.scheduledSlot).getD "")
    cases hrowslot : row.scheduledSlot with
    | none => rw [Option.none_or]
    | some slot =>
      rw [hrowslot] at hslot
      obtain hslot := hslot.resolve_left (by simp)
      rw [← hslot, Option.some_or, Option.getD_some, textOrNone_again]

/-- Marking jobs stale records the rows it leaves. -/
theorem markStaleWhere_logs (p : Job → Bool) (reason summary : String) (now : Time)
    (s : JobStore) :
    (markStaleWhere p reason summary now s).schedule
      = (s.jobs.filter fun j => j.status = .running && p j).foldl
          (fun schedule j => recordSchedule
            (jobReport { j with status := .stale, endedAt := some now }) schedule) s.schedule := by
  have hrow : ∀ j : Job, ReportsRow (staleReport j now)
      { j with status := .stale, endedAt := some now } := by
    intro j
    have htrigger : (textOrNone (staleReport j now).trigger).getD "manual"
        = (textOrNone j.trigger).getD "manual" := trigger_shown j.trigger
    have hslot : (staleReport j now).scheduledSlot = j.scheduledSlot := rfl
    refine ⟨rfl, rfl, rfl, rfl, rfl, rfl, rfl, htrigger, ?_⟩
    show textOrNone ((staleReport j now).scheduledSlot.getD "")
      = textOrNone (j.scheduledSlot.getD "")
    rw [hslot]
  have hreport : ∀ (j : Job) schedule, recordSchedule (staleReport j now) schedule
      = recordSchedule (jobReport { j with status := .stale, endedAt := some now }) schedule :=
    fun j schedule => (hrow j).recordSchedule_eq schedule
  have hframe : ∀ (rows : List Job) u, (rows.foldl (fun s row =>
      terminalizeAttempts row.id .stale now (some reason) s) u).schedule = u.schedule :=
    IgnoresRuns.foldl fun _ _ => rfl
  unfold markStaleWhere
  simp only [hframe, hreport]

/-- `jobs_prune` deletes rows and leaves the state alone. -/
theorem jobsPrune_logs (olderThanDays keepLatest : Int) (now : Time) (s : JobStore) :
    (jobsPrune olderThanDays keepLatest now s).2.schedule = s.schedule ∧
      ∃ kept, (jobsPrune olderThanDays keepLatest now s).2.jobs = s.jobs.filter kept :=
  ⟨rfl, _, rfl⟩

/-! ### A night with two jobs -/

/-- A row of `jobs` for the nightly backup. -/
def nightlyJob (id : Nat) (startedAt endedAt : Time) (status : JobStatus) : Job where
  id := id
  kind := "backup"
  status := status
  startedAt := startedAt
  endedAt := some endedAt
  summaryJson := none
  definitionId := some "nightly"
  definitionName := some "Nightly"
  scheduledSlot := none
  dryRun := false
  trigger := "scheduler"

/-- The first job stands in `jobs` unrecorded; the later one is recorded, and the first is pruned
between two backfills. -/
def recordedNight : List LogAction :=
  [.insert (nightlyJob 1 100 200 .ok), .record (nightlyJob 2 300 400 .error), .backfill,
    .prune (fun j => j.id ≠ 1), .backfill]

theorem schedule_of_records_nightly :
    (historyOf "nightly" (loggedTables recordedNight).schedule).lastAttempt
        = some (⟨2, 300, 400, "scheduler", none⟩, .error) ∧
      (historyOf "nightly" (loggedTables recordedNight).schedule).lastSuccess
        = some ⟨1, 100, 200, "scheduler", none⟩ := by
  have hrecorded : loggedJobs recordedNight = [nightlyJob 2 300 400 .error,
      nightlyJob 2 300 400 .error, nightlyJob 1 100 200 .ok, nightlyJob 2 300 400 .error] := by
    decide
  have hnonneg : ∀ j ∈ loggedJobs recordedNight, 0 ≤ j.startedAt := by decide
  have hkeys : DistinctKeys (loggedJobs recordedNight) := by
    rw [hrecorded]
    unfold DistinctKeys
    decide
  obtain ⟨hremembers, -⟩ := schedule_of_records hnonneg hkeys "nightly" (by decide)
  rw [hrecorded] at hremembers
  constructor
  · refine (hremembers.attempt _).mpr ⟨nightlyJob 2 300 400 .error, ?_, by decide⟩
    unfold Greatest
    decide
  · refine (hremembers.success _).mpr ⟨nightlyJob 1 100 200 .ok, ?_, by decide⟩
    unfold Greatest
    decide

end RcloneSync
