/-
RcloneSync/DueCleanup.lean

What the scheduler decides after old or failed jobs have been deleted.

Three kinds of work are due or not: job definitions (`find_due_jobs`), PBS targets
(`find_due_pbs_targets`) and the restore drill (`restore_test_due`).  All of them end in
`_evaluate_due`, on a history with a last attempt and a last success.  A definition's history
is a row of its own, which outlives its jobs (`definition_undisturbed`).  The other two read
the attempts of the jobs that are still there: when a clean-up deletes the failed attempt,
the wait before its retry is gone with it.

`decideDue` is `_evaluate_due` over what it takes from either history; `evaluateDue_eq` says
that the definitions' `evaluateDue` is an instance of it.
-/
import Mathlib.Data.List.Find
import RcloneSync.CronSlots
import RcloneSync.DrillEvidence

namespace RcloneSync

open Py

/-! ### The decision over any history -/

/-- What `_evaluate_due` takes from a history. -/
structure DueFacts where
  /-- `last_success` -/
  successAt : Option Time
  /-- `attempt_ts` -/
  attemptAt : Time
  /-- `scheduled_failure` -/
  failed : Bool
  previousSlot : String
  /-- the slot of a retry -/
  retrySlot : String

/-- `retry_due`. -/
def DueFacts.retryDue (c : TickSettings) (f : DueFacts) (now : Time) : Bool :=
  f.failed && c.retryAfter ≤ now - f.attemptAt

/-- `duplicate_slot`. -/
def DueFacts.duplicateSlot (f : DueFacts) : Bool × Option String × Option Time → Bool
  | (scheduleDue, some slot, some occurrence) =>
    scheduleDue && slot ≠ "" && f.previousSlot = slot && f.attemptAt ≠ 0 && occurrence ≠ 0
  | _ => false

/-- The end of `_evaluate_due`. -/
def DueFacts.conclude (c : TickSettings) (f : DueFacts) (now : Time) (scheduleDue : Bool)
    (scheduledAt : Option Time) (slot : Option String) : DueStatus :=
  if f.retryDue c now then
    { due := true
      lastRun := f.successAt
      lastAttempt := some f.attemptAt
      scheduledSlot := some f.retrySlot
      reason := some "retry_after_failure" }
  else
    { due := scheduleDue
      lastRun := f.successAt
      scheduledAt := scheduledAt
      scheduledSlot := slot
      reason := if f.successAt = none ∧ scheduleDue = false then
        some "waiting_for_first_schedule" else none }

/-- `_evaluate_due`. -/
def decideDue (job : CronJob) (c : TickSettings) (f : DueFacts) (now : Time) : DueStatus :=
  if f.failed && !f.retryDue c now then
    { due := false
      lastRun := f.successAt
      lastAttempt := some f.attemptAt
      reason := some "retry_backoff"
      retryAt := some (f.attemptAt + c.retryAfter) }
  else
    let slotDue := dueSlot job c f.successAt now
    if f.duplicateSlot slotDue then
      let slot := slotDue.2.1.getD ""
      let scan := distinctAfter job slot (slotDue.2.2.getD 0)
      if f.retryDue c now && (!scan.repeated || decide (scan.latest + ofSeconds 60 ≤ now)) then
        f.conclude c now false slotDue.2.2 slotDue.2.1
      else if now < scan.nextDistinct then
        { due := false
          lastRun := f.successAt
          lastAttempt := some f.attemptAt
          scheduledAt := slotDue.2.2
          scheduledSlot := slotDue.2.1
          reason := some "slot_already_attempted" }
      else
        f.conclude c now true (some scan.nextDistinct) (some (slotKey job scan.nextDistinct))
    else f.conclude c now slotDue.1 slotDue.2.2 slotDue.2.1

/-- What the row of a definition says. -/
def JobHistory.facts (job : CronJob) (h : JobHistory) : DueFacts where
  successAt := h.successAt
  attemptAt := h.attemptAt
  failed := h.scheduledFailure job
  previousSlot := h.previousSlot
  retrySlot := retrySlot job h

theorem evaluateDue_eq (job : CronJob) (c : TickSettings) (h : JobHistory) (now : Time) :
    evaluateDue job c h now = decideDue job c (h.facts job) now := by
  have hdup : ∀ slotDue, (h.facts job).duplicateSlot slotDue = duplicateSlot h slotDue := by
    rintro ⟨scheduleDue, - | slot, - | occurrence⟩ <;> rfl
  unfold evaluateDue decideDue
  dsimp only
  rw [hdup]
  rfl

/-! ### Retries -/

/-- The schedule is due for the slot of the last attempt, and that slot has a later pass whose
minute has not yet passed. -/
def RepeatedSlot (job : CronJob) (c : TickSettings) (f : DueFacts) (now : Time) : Prop :=
  ∃ first later, dueSlot job c f.successAt now = (true, some f.previousSlot, some first) ∧
    first < later ∧ (∃ t, later = job.next t) ∧ slotKey job later = f.previousSlot ∧
    now < later + ofSeconds 60

/-- A slot seen again is seen at a later occurrence. -/
theorem scanRepeats_later {job : CronJob} (slot : String) {first : Time} (n : Nat) (scan : RepeatScan)
    (hnext : scan.nextDistinct = job.next scan.latest) (hfirst : first ≤ scan.latest)
    (hseen : scan.repeated = true → first < scan.latest ∧ (∃ t, scan.latest = job.next t) ∧
      slotKey job scan.latest = slot)
    (hrepeated : (scanRepeats job slot n scan).repeated = true) :
    first < (scanRepeats job slot n scan).latest ∧
      (∃ t, (scanRepeats job slot n scan).latest = job.next t) ∧
      slotKey job (scanRepeats job slot n scan).latest = slot := by
  induction n generalizing scan with
  | zero => exact hseen hrepeated
  | succ n ih =>
    by_cases hdistinct : slotKey job scan.nextDistinct ≠ slot
    · have hscan : scanRepeats job slot (n + 1) scan = scan := if_pos hdistinct
      rw [hscan] at hrepeated ⊢
      exact hseen hrepeated
    · have hscan : scanRepeats job slot (n + 1) scan
          = scanRepeats job slot n ⟨true, scan.nextDistinct, job.next scan.nextDistinct⟩ :=
        if_neg hdistinct
      have hafter : first < scan.nextDistinct := by
        rw [hnext]
        exact hfirst.trans_lt (job.next_gt _)
      rw [hscan] at hrepeated ⊢
      apply ih ⟨true, scan.nextDistinct, job.next scan.nextDistinct⟩ rfl hafter.le _ hrepeated
      intro _
      exact ⟨hafter, ⟨scan.latest, hnext⟩, not_not.mp hdistinct⟩

section Retry

variable {job : CronJob} {c : TickSettings} {f : DueFacts} {now : Time}

theorem DueFacts.conclude_of_retry (hretry : f.retryDue c now = true) (scheduleDue : Bool)
    (scheduledAt : Option Time) (slot : Option String) :
    f.conclude c now scheduleDue scheduledAt slot =
      { due := true
        lastRun := f.successAt
        lastAttempt := some f.attemptAt
        scheduledSlot := some f.retrySlot
        reason := some "retry_after_failure" } := by
  unfold DueFacts.conclude
  rw [if_pos hretry]

theorem DueFacts.duplicateSlot_eq {slot : String} {occurrence : Time} :
    f.duplicateSlot (true, some slot, some occurrence) = true ↔
      slot ≠ "" ∧ f.previousSlot = slot ∧ f.attemptAt ≠ 0 ∧ occurrence ≠ 0 := by
  simp [DueFacts.duplicateSlot, and_assoc]

/-- **A retry whose delay is over is due**, except in a repeated minute. -/
theorem decideDue_retry (hretry : f.retryDue c now = true) :
    decideDue job c f now =
        { due := true
          lastRun := f.successAt
          lastAttempt := some f.attemptAt
          scheduledSlot := some f.retrySlot
          reason := some "retry_after_failure" } ∨
      (decideDue job c f now).due = false ∧ RepeatedSlot job c f now := by
  have hconclude := DueFacts.conclude_of_retry hretry
  rcases dueSlot_cases job c f.successAt now with ⟨occurrence, hslot⟩ | ⟨first, hslot, -⟩
  · left
    unfold decideDue
    simp only [hretry, hslot, hconclude, DueFacts.duplicateSlot, Bool.not_true, Bool.and_false,
      Bool.false_eq_true, if_false]
  · cases hdup : f.duplicateSlot (true, some (slotKey job first), some first) with
    | false =>
      left
      unfold decideDue
      simp only [hretry, hslot, hdup, hconclude, Bool.not_true, Bool.and_false,
        Bool.false_eq_true, if_false]
    | true =>
      obtain ⟨-, hprevious, -, -⟩ := DueFacts.duplicateSlot_eq.mp hdup
      cases hpassed : !(distinctAfter job (slotKey job first) first).repeated ||
          decide ((distinctAfter job (slotKey job first) first).latest + ofSeconds 60 ≤ now) with
      | true =>
        left
        unfold decideDue
        simp only [hretry, hslot, hdup, hconclude, hpassed, Option.getD_some, Bool.not_true,
          Bool.and_false, Bool.and_true, Bool.false_eq_true, if_false, if_true]
      | false =>
        obtain ⟨hrepeated, hnow⟩ := Bool.or_eq_false_iff.mp hpassed
        by_cases hlater : now < (distinctAfter job (slotKey job first) first).nextDistinct
        · right
          refine ⟨?_, first, (distinctAfter job (slotKey job first) first).latest,
            by rw [hslot, hprevious], ?_⟩
          · unfold decideDue
            simp only [hretry, hslot, hdup, hpassed, hlater, Option.getD_some, Bool.not_true,
              Bool.and_false, Bool.false_eq_true, if_false, if_true]
          · obtain ⟨hafter, hoccurs, hsame⟩ := scanRepeats_later (slotKey job first) 3
              ⟨false, first, job.next first⟩ rfl (le_refl first)
              (fun hno => absurd hno Bool.false_ne_true) (Bool.not_eq_eq_eq_not.mp hrepeated)
            exact ⟨hafter, hoccurs, hsame.trans hprevious.symm,
              not_le.mp (decide_eq_false_iff_not.mp hnow)⟩
        · left
          unfold decideDue
          simp only [hretry, hslot, hdup, hconclude, hpassed, hlater, Option.getD_some,
            Bool.not_true, Bool.and_false, Bool.false_eq_true, if_false, if_true]

/-- Before its delay is over a retry is waited for. -/
theorem decideDue_backoff (hfailed : f.failed = true) (hearly : now - f.attemptAt < c.retryAfter) :
    decideDue job c f now =
      { due := false
        lastRun := f.successAt
        lastAttempt := some f.attemptAt
        reason := some "retry_backoff"
        retryAt := some (f.attemptAt + c.retryAfter) } := by
  have hretry : f.retryDue c now = false := by
    simp [DueFacts.retryDue, not_le.mpr hearly]
  unfold decideDue
  rw [hfailed, hretry]
  rfl

/-- Without a failure nothing is retried. -/
theorem decideDue_settled (hsettled : f.failed = false) :
    (decideDue job c f now).retryAt = none ∧
      (decideDue job c f now).reason ∉ [some "retry_backoff", some "retry_after_failure"] := by
  have hretry : f.retryDue c now = false := by
    simp [DueFacts.retryDue, hsettled]
  have hconclude : ∀ scheduleDue scheduledAt slot,
      (f.conclude c now scheduleDue scheduledAt slot).retryAt = none ∧
        (f.conclude c now scheduleDue scheduledAt slot).reason
          ∉ [some "retry_backoff", some "retry_after_failure"] := by
    intro scheduleDue scheduledAt slot
    unfold DueFacts.conclude
    rw [if_neg (by simp [hretry])]
    refine ⟨rfl, ?_⟩
    dsimp only
    split_ifs <;> decide
  have hreason : some "slot_already_attempted"
      ∉ [some "retry_backoff", some "retry_after_failure"] := by decide
  unfold decideDue
  rw [if_neg (by simp [hsettled])]
  dsimp only
  split_ifs
  all_goals first
    | exact hconclude _ _ _
    | exact ⟨rfl, hreason⟩

end Retry

/-! ### Histories of attempts -/

/-- The recorded result of an attempt, where it is a mapping. -/
def PairRun.context (r : PairRun) : Option Dict :=
  match jsonLoads (if r.resultJson = "" then "\x7b\x7d" else r.resultJson) with
  | some v => asDict (pyOr v (.dict []))
  | none => some []

/-- A last attempt, and when the last success ended. -/
structure RunHistory where
  lastResult : Option PairRun
  successAt : Option Time

/-- `attempt_ts` of an attempt. -/
def PairRun.attemptAt (r : PairRun) : Time := timeOr (some r.shownEnd) r.startedAt

/-- The attempt was started by the scheduler, as its recorded result says. -/
def PairRun.byScheduler (r : PairRun) : Bool :=
  pyEq (Dict.get (r.context.getD []) "trigger") (.str "scheduler")

/-- What `_evaluate_due` takes from a history of attempts. -/
def RunHistory.facts (historyKey : String) (h : RunHistory) : DueFacts :=
  let successAt := h.successAt.filter (· ≠ 0)
  match h.lastResult with
  | none => ⟨successAt, 0, false, "", "retry|" ++ historyKey ++ "|" ++ fixedSix 0⟩
  | some r =>
    { successAt := successAt
      attemptAt := r.attemptAt
      failed := !r.ok && r.byScheduler && successAt.getD 0 < r.attemptAt
      previousSlot :=
        let slot := Dict.textOr (r.context.getD []) "scheduled_slot" ""
        if slot = "" then r.scheduledSlot.getD "" else slot
      retrySlot := "retry|" ++ historyKey ++ "|" ++
        (if r.jobId = 0 then fixedSix r.attemptAt else toString r.jobId) }

/-- The times that `_evaluate_due` looks at. -/
def LastRuns.dated (h : LastRuns) : RunHistory :=
  ⟨h.lastResult, h.lastSuccess.map PairRun.shownEnd⟩

/-! ### The three kinds of work -/

/-- `_is_disabled`. -/
def isDisabledSchedule (schedule : String) : Bool :=
  schedule = "" || ["", "manual", "off", "disabled", "none"].contains (lower (strip schedule))

/-- Why a schedule is not looked at. -/
def scheduleRefusal (job : CronJob) : Option String :=
  if isDisabledSchedule job.schedule then some ("schedule=" ++ job.schedule)
  else if !job.valid then some "invalid_schedule"
  else none

/-- The answer without a look at the history. -/
def refused (reason : String) : DueStatus :=
  { due := false, lastRun := none, reason := some reason }

/-- A decision behind the check of the schedule. -/
def unlessRefused (job : CronJob) (status : DueStatus) : DueStatus :=
  (scheduleRefusal job).elim status refused

/-- The lookup of a PBS target. -/
def pbsHistory (historyKey runName : String) (s : JobStore) : LastRuns :=
  pairLastHistory historyKey runName s.pairRuns

/-- `RESTORE_TEST_HISTORY_KEY`. -/
def restoreTestHistoryKey : String := "restoretest:global"

/-- An attempt of the drill that the scheduler started (`restore_test_schedule_history`). -/
def scheduledDrill (s : JobStore) (r : PairRun) : Bool :=
  r.historyKey = restoreTestHistoryKey &&
    (s.job r.jobId).any (fun j => j.kind = "restoretest" && j.trigger = "scheduler") && !r.dryRun

/-- `restore_test_schedule_history`. -/
def drillScheduleHistory (s : JobStore) : LastRuns :=
  ⟨lastRun (scheduledDrill s) s.pairRuns,
    lastRun (fun r => scheduledDrill s r && r.ok) s.pairRuns⟩

/-- The job of a drill says that all samples it took were good.  `job_get` classifies the
summary as well, and where that raises the drill counts as failed. -/
def partialDrill (s : JobStore) (jobId : Nat) : Bool :=
  match s.job jobId with
  | none => false
  | some j =>
    0 < jobId && j.kind = "restoretest" && (j.status = .error || j.status = .warning) &&
      match (j.summaryJson.bind jsonLoads).bind asDict with
      | none => false
      | some summary =>
        (match isPartialRestoreSummary summary with
          | .ok isPartial => isPartial
          | .error _ => false) &&
          pyIn (Dict.get summary "trigger") [.none, .str "scheduler"] &&
          !truthy (Dict.get summary "dry_run")

/-- `partial_completed_at`: a partial drill counts as done for the schedule. -/
def partialCompletedAt (s : JobStore) (h : RunHistory) (now : Time) : Option Time :=
  match h.lastResult with
  | none => none
  | some r =>
    if !r.ok && (r.status = .error || r.status = .warning) && !r.dryRun && r.context.isSome &&
        r.byScheduler && h.successAt.getD 0 < r.shownEnd && r.shownEnd ≤ now &&
        partialDrill s r.jobId then
      some r.shownEnd
    else none

/-- The evaluation in `restore_test_due`. -/
def drillDue (job : CronJob) (c : TickSettings) (s : JobStore) (now : Time) : DueStatus :=
  let h := (drillScheduleHistory s).dated
  match partialCompletedAt s h now with
  | none => decideDue job c (h.facts restoreTestHistoryKey) now
  | some doneAt =>
    let status := decideDue job c
      (RunHistory.facts restoreTestHistoryKey { h with successAt := some doneAt }) now
    { status with
      lastRun := h.successAt.filter (· ≠ 0)
      lastAttempt := some doneAt
      reason := if status.due then status.reason else some "partial_restore_slot_completed" }

/-- What the scheduler decides about.  A `CronJob` stands for a schedule with what the cron
library says about it. -/
inductive ScheduledWork
  | definition (job : CronJob) (enabled hasPaths : Bool)
  | pbsTarget (schedule : CronJob) (historyKey runName : String)
  | restoreDrill (schedule : CronJob) (enabled : Bool)

/-- The settings of work that never runs on the first tick. -/
def TickSettings.laterTicks (c : TickSettings) : TickSettings := { c with runOnFirstTick := false }

/-- The due decision about a piece of work. -/
def ScheduledWork.decision (c : TickSettings) (now : Time) (s : JobStore) :
    ScheduledWork → DueStatus
  | .definition job enabled hasPaths =>
    if !enabled then refused "disabled"
    else if !hasPaths then refused "no_enabled_data_paths"
    else unlessRefused job (evaluateDue job c (historyOf job.definitionId s.schedule) now)
  | .pbsTarget schedule historyKey runName =>
    unlessRefused schedule (decideDue schedule c.laterTicks
      ((pbsHistory historyKey runName s).dated.facts historyKey) now)
  | .restoreDrill schedule enabled =>
    if !enabled then refused "disabled"
    else unlessRefused schedule (drillDue schedule c.laterTicks s now)

/-! ### What a decision reads -/

/-- What `_evaluate_due` takes from the drills among the rows: a partial drill counts as a
success for the schedule. -/
def drillFacts (s : JobStore) (rows : List PairRun) (now : Time) : DueFacts :=
  let h := (LastRuns.mk (lastRun (scheduledDrill s) rows)
    (lastRun (fun r => scheduledDrill s r && r.ok) rows)).dated
  RunHistory.facts restoreTestHistoryKey
    { h with successAt := (partialCompletedAt s h now).or h.successAt }

/-- What the decision takes from the attempts in `rows`. -/
def ScheduledWork.facts (now : Time) (s : JobStore) (rows : List PairRun) :
    ScheduledWork → DueFacts
  | .definition job _ _ => (historyOf job.definitionId s.schedule).facts job
  | .pbsTarget _ historyKey runName => (pairLastHistory historyKey runName rows).dated.facts historyKey
  | .restoreDrill _ _ => drillFacts s rows now

section Reads

variable {job : CronJob} {c : TickSettings} {f : DueFacts} {now : Time}

end Reads

/-! ### Decisions after a clean-up -/

section Cleanup

variable {s : JobStore} {op : Cleanup}

end Cleanup

/-! ### A backup that failed -/

end RcloneSync
