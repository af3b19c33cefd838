/-
RcloneSync/DueDecision.lean

What the due decision of a job definition means, for a cron library whose `get_next` is the
nearest occurrence behind its argument: between the last success and now there is an occurrence
whose slot is not the one of the last attempt (`evaluateDue_iff`).

Over runs: while the scheduler's run is open nothing is started, and once it has succeeded
nothing is started before the first occurrence after its end.  So any number of missed
occurrences leads to one start (`due_decision`).
-/
import RcloneSync.CronSlots

namespace RcloneSync

open Py Runs

/-- `next` is the nearest occurrence behind its argument. -/
structure NextOccurrence (job : CronJob) (occurs : Time → Prop) : Prop where
  occurs_next : ∀ t, occurs (job.next t)
  nearest : ∀ t u, occurs u → t < u → job.next t ≤ u

/-! ### The decision -/

section Decision

variable {job : CronJob} {c : TickSettings} {h : JobHistory} {now : Time} {occurs : Time → Prop}

theorem retryDue_of_settled (hsettled : h.scheduledFailure job = false) :
    h.retryDue job c now = false := by
  rw [JobHistory.retryDue, hsettled, Bool.false_and]

/-- The decision where the schedule is not due. -/
theorem evaluateDue_early (hsettled : h.scheduledFailure job = false) {occurrence : Option Time}
    (hslot : dueSlot job c h.successAt now = (false, none, occurrence)) :
    (evaluateDue job c h now).due = false := by
  have hretry : h.retryDue job c now = false := retryDue_of_settled hsettled
  unfold evaluateDue
  rw [hsettled, hretry, hslot]
  exact (concludeDue_schedule hretry false occurrence none).1

/-- The decision where the schedule is due: a slot of the last attempt is skipped. -/
theorem evaluateDue_late (hsettled : h.scheduledFailure job = false) {slot : String}
    {occurrence : Time}
    (hslot : dueSlot job c h.successAt now = (true, some slot, some occurrence)) :
    (evaluateDue job c h now).due = true ↔
      duplicateSlot h (true, some slot, some occurrence) = true →
        (distinctAfter job slot occurrence).nextDistinct ≤ now := by
  have hretry : h.retryDue job c now = false := retryDue_of_settled hsettled
  cases hdup : duplicateSlot h (true, some slot, some occurrence) with
  | false =>
    have hstatus : evaluateDue job c h now
        = concludeDue job c h now true (some occurrence) (some slot) := by
      unfold evaluateDue
      simp only [hsettled, hretry, hslot, hdup, Bool.false_and, Bool.false_eq_true, if_false]
    rw [hstatus]
    refine iff_of_true (concludeDue_schedule hretry true _ _).1 ?_
    intro hno
    cases hno
  | true =>
    rw [iff_comm, forall_prop_of_true rfl]
    by_cases hlater : now < (distinctAfter job slot occurrence).nextDistinct
    · refine iff_of_false (not_le.mpr hlater) ?_
      unfold evaluateDue
      simp only [hsettled, hretry, hslot, hdup, Option.getD_some, hlater, Bool.false_and,
        Bool.false_eq_true, if_false, if_true, not_false_eq_true]
    · refine iff_of_true (not_lt.mp hlater) ?_
      unfold evaluateDue
      simp only [hsettled, hretry, hslot, hdup, Option.getD_some, hlater, Bool.false_and,
        Bool.false_eq_true, if_false, if_true]
      exact (concludeDue_schedule hretry true _ _).1

/-- The scan ends at the nearest occurrence with another slot. -/
theorem distinctAfter_nearest (hcron : NextOccurrence job occurs) {occurrence : Time}
    (hpos : 0 < occurrence) :
    occurs (distinctAfter job (slotKey job occurrence) occurrence).nextDistinct ∧
      occurrence < (distinctAfter job (slotKey job occurrence) occurrence).nextDistinct ∧
      ∀ t, occurs t → occurrence < t → slotKey job t ≠ slotKey job occurrence →
        (distinctAfter job (slotKey job occurrence) occurrence).nextDistinct ≤ t := by
  by_cases hsame : slotKey job (job.next occurrence) = slotKey job occurrence
  · have hthird : slotKey job (job.next (job.next occurrence)) ≠ slotKey job occurrence := by
      rw [Ne, slotKey_eq_iff]
      exact job.wall_twice occurrence hpos (slotKey_eq_iff.mp hsame)
    have hscan : distinctAfter job (slotKey job occurrence) occurrence
        = ⟨true, job.next occurrence, job.next (job.next occurrence)⟩ :=
      (if_neg (not_not.mpr hsame)).trans (if_pos hthird)
    rw [hscan]
    refine ⟨hcron.occurs_next _, (job.next_gt _).trans (job.next_gt _), ?_⟩
    intro t ht hafter hother
    have hle := hcron.nearest occurrence t ht hafter
    have hne : job.next occurrence ≠ t := fun heq => hother (heq ▸ hsame)
    exact hcron.nearest _ t ht (lt_of_le_of_ne hle hne)
  · have hscan : distinctAfter job (slotKey job occurrence) occurrence
        = ⟨false, occurrence, job.next occurrence⟩ := if_pos hsame
    rw [hscan]
    exact ⟨hcron.occurs_next _, job.next_gt _, fun t ht hafter _ => hcron.nearest _ t ht hafter⟩

theorem dueSlot_after (hvalid : job.valid = true) (last : Time) :
    dueSlot job c (some last) now =
      if job.next last ≤ now then
        (true, some (slotKey job (job.next last)), some (job.next last))
      else (false, none, some (job.next last)) := by
  unfold dueSlot
  rw [hvalid]
  by_cases hle : job.next last ≤ now
  · simp [hle]
  · simp [hle]

/-- **The due decision**: some occurrence between the last success and now has another slot
than the last attempt. -/
theorem evaluateDue_iff (hcron : NextOccurrence job occurs) (hvalid : job.valid = true)
    {last : Time} (hsuccess : h.successAt = some last) (hlast : 0 < last)
    (hattempt : h.attemptAt ≠ 0) (hsettled : h.scheduledFailure job = false) :
    (evaluateDue job c h now).due = true ↔
      ∃ t, occurs t ∧ last < t ∧ t ≤ now ∧ slotKey job t ≠ h.previousSlot := by
  have hslot : dueSlot job c (some last) now = _ := dueSlot_after hvalid last
  rw [← hsuccess] at hslot
  have hpos : 0 < job.next last := hlast.trans (job.next_gt last)
  by_cases hle : job.next last ≤ now
  · rw [if_pos hle] at hslot
    rw [evaluateDue_late hsettled hslot, duplicateSlot_eq]
    by_cases hprevious : h.previousSlot = slotKey job (job.next last)
    · obtain ⟨hoccurs, hafter, hnearest⟩ := distinctAfter_nearest hcron hpos
      have hdup : slotKey job (job.next last) ≠ "" ∧
          h.previousSlot = slotKey job (job.next last) ∧ h.attemptAt ≠ 0 ∧ job.next last ≠ 0 :=
        ⟨slotKey_ne_empty job _, hprevious, hattempt, hpos.ne'⟩
      rw [forall_prop_of_true hdup, hprevious]
      constructor
      · intro hdistinct
        exact ⟨_, hoccurs, (job.next_gt last).trans hafter, hdistinct,
          distinctAfter_distinct job hpos⟩
      · rintro ⟨t, ht, hlater, hnow, hother⟩
        have hfirst := hcron.nearest last t ht hlater
        have hne : job.next last ≠ t := fun heq => hother (by rw [heq])
        exact (hnearest t ht (lt_of_le_of_ne hfirst hne) hother).trans hnow
    · refine iff_of_true (fun hdup => absurd hdup.2.1 hprevious) ?_
      exact ⟨job.next last, hcron.occurs_next last, job.next_gt last, hle,
        fun heq => hprevious heq.symm⟩
  · rw [if_neg hle] at hslot
    rw [evaluateDue_early hsettled hslot]
    refine iff_of_false (by decide) ?_
    rintro ⟨t, ht, hlater, hnow, -⟩
    exact hle ((hcron.nearest last t ht hlater).trans hnow)

end Decision

/-! ### What holds in every run -/

/-- A state without the record of its starts. -/
def CronState.forget (s : CronState) : CronState := { s with starts := [] }

section Runs

variable {job : CronJob} {s t : CronState} {a : CronAction}

theorem CronOk.forget {h : JobHistory} (hok : CronOk job h s) : CronOk job h s.forget where
  clock_pos := hok.clock_pos
  attempt := hok.attempt
  success := hok.success
  told := hok.told
  opened := hok.opened
  started hslots := absurd rfl hslots
  clear _ _ _ _ hslot := absurd hslot List.not_mem_nil
  distinct := List.nodup_nil

/-- No step reads the record of the starts. -/
theorem cronStep_forget (hstep : cronStep job s a = some t) :
    ∃ t', cronStep job s.forget a = some t' ∧ t'.forget = t.forget := by
  cases a with
  | tick settings now startedAt taken =>
    have hstep : tickStep job settings now startedAt taken s = some t := hstep
    show ∃ t', tickStep job settings now startedAt taken s.forget = some t' ∧ _
    unfold tickStep CronState.forget at *
    dsimp only at *
    by_cases htime : s.clock ≤ now ∧ now ≤ startedAt
    · rw [if_pos htime] at hstep ⊢
      have hsame : tickStart job settings { s with starts := [] } now
          = tickStart job settings s now := rfl
      rw [hsame]
      cases hstart : if taken = true ∧ s.openRun = none then tickStart job settings s now
          else none with
      | none =>
        rw [hstart] at hstep
        obtain rfl := Option.some.inj hstep
        exact ⟨_, rfl, rfl⟩
      | some start =>
        rw [hstart] at hstep
        obtain rfl := Option.some.inj hstep
        exact ⟨_, rfl, rfl⟩
    · rw [if_neg htime] at hstep
      cases hstep
  | finish status endedAt =>
    have hstep : finishStep job status endedAt s = some t := hstep
    show ∃ t', finishStep job status endedAt s.forget = some t' ∧ _
    unfold finishStep CronState.forget at *
    dsimp only at *
    cases hopen : s.openRun with
    | none =>
      rw [hopen] at hstep
      cases hstep
    | some run =>
      rw [hopen] at hstep
      by_cases hend : s.clock ≤ endedAt
      · simp only [if_pos hend] at hstep ⊢
        obtain rfl := Option.some.inj hstep
        exact ⟨_, rfl, rfl⟩
      · simp only [if_neg hend] at hstep
        cases hstep
  | byHand startedAt endedAt status trigger dryRun =>
    have hstep : byHandStep job startedAt endedAt status trigger dryRun s = some t := hstep
    show ∃ t', byHandStep job startedAt endedAt status trigger dryRun s.forget = some t' ∧ _
    unfold byHandStep CronState.forget at *
    dsimp only at *
    split_ifs at hstep ⊢ with hhand
    obtain rfl := Option.some.inj hstep
    exact ⟨_, rfl, rfl⟩
  | elsewhere report =>
    have hstep : (if strip report.definitionId ≠ job.definitionId then
        some { s with schedule := recordSchedule report s.schedule } else none) = some t := hstep
    show ∃ t', (if strip report.definitionId ≠ job.definitionId then
        some { s.forget with schedule := recordSchedule report s.schedule } else none) = some t' ∧ _
    split_ifs at hstep ⊢ with hother
    obtain rfl := Option.some.inj hstep
    exact ⟨_, rfl, rfl⟩

theorem foldSafe_forget (job : CronJob) (s : CronState) (a : CronAction) :
    FoldSafe job s.forget a := by
  cases a with
  | tick settings now startedAt taken =>
    cases taken with
    | true =>
      intro _ _ slot hslot
      exact absurd hslot List.not_mem_nil
    | false => trivial
  | finish status endedAt => trivial
  | byHand startedAt endedAt status trigger dryRun => trivial
  | elsewhere report => trivial

/-- **Every run keeps the history in order**, whether or not its ticks mind the fold. -/
theorem forget_step (hok : CronOk job (s.history job) s.forget)
    (hstep : cronStep job s a = some t) : CronOk job (t.history job) t.forget := by
  obtain ⟨t', hstep', hforget⟩ := cronStep_forget hstep
  have hok' := (cronStep_ok hok (foldSafe_forget job s a) hstep').forget
  rw [hforget] at hok'
  have hhistory : t'.history job = t.history job := by
    have hschedule := congrArg CronState.schedule hforget
    exact congrArg (historyOf job.definitionId) hschedule
  rw [hhistory] at hok'
  exact hok'

theorem forget_run {clock : Time} (hclock : 0 < clock) {as : List CronAction}
    (hrun : Run (Steps (cronStep job)) (cronStart clock) as s) :
    CronOk job (s.history job) s.forget := by
  apply hrun.preserves (fun s => CronOk job (s.history job) s.forget)
  · intro s a t hok hstep
    exact forget_step hok hstep
  · exact (cronOk_start job hclock).forget

/-! ### While a run is open -/

/-- A step that does not end the open run leaves it open and starts nothing. -/
theorem open_step {run : ScheduledRun} (hopen : s.openRun = some run)
    (hfinish : ∀ status endedAt, a ≠ .finish status endedAt) (hstep : cronStep job s a = some t) :
    t.openRun = some run ∧ t.starts = s.starts := by
  cases a with
  | tick settings now startedAt taken =>
    have hstep : tickStep job settings now startedAt taken s = some t := hstep
    unfold tickStep at hstep
    rw [if_neg (c := taken = true ∧ s.openRun = none) (by simp [hopen])] at hstep
    split_ifs at hstep
    obtain rfl := Option.some.inj hstep
    exact ⟨hopen, rfl⟩
  | finish status endedAt => exact absurd rfl (hfinish status endedAt)
  | byHand startedAt endedAt status trigger dryRun =>
    have hstep : byHandStep job startedAt endedAt status trigger dryRun s = some t := hstep
    unfold byHandStep at hstep
    split_ifs at hstep with hhand
    rw [hopen] at hhand
    cases hhand.2.2.1
  | elsewhere report =>
    have hstep : (if strip report.definitionId ≠ job.definitionId then
        some { s with schedule := recordSchedule report s.schedule } else none) = some t := hstep
    split_ifs at hstep
    obtain rfl := Option.some.inj hstep
    exact ⟨hopen, rfl⟩

theorem open_run {as : List CronAction} {run : ScheduledRun} (hopen : s.openRun = some run)
    (hfinish : ∀ status endedAt, .finish status endedAt ∉ as)
    (hrun : Run (Steps (cronStep job)) s as t) : t.openRun = some run ∧ t.starts = s.starts := by
  induction hrun with
  | nil s => exact ⟨hopen, rfl⟩
  | @cons s u t a as hstep _ ih =>
    have ha : ∀ status endedAt, a ≠ .finish status endedAt := by
      rintro status endedAt rfl
      exact hfinish status endedAt List.mem_cons_self
    obtain ⟨hopen', hstarts⟩ := open_step hopen ha hstep
    obtain ⟨hopen'', hstarts'⟩ := ih hopen' fun status endedAt hmem =>
      hfinish status endedAt (List.mem_cons_of_mem _ hmem)
    exact ⟨hopen'', hstarts'.trans hstarts⟩

/-! ### After a success -/

/-- The scheduler's last run has succeeded, and a success ended at `since` or later. -/
structure Rested (job : CronJob) (since : Time) (s : CronState) : Prop where
  ok : CronOk job (s.history job) s.forget
  closed : s.openRun = none
  settled : (s.history job).scheduledFailure job = false
  success : ∃ last, (s.history job).successAt = some last ∧ since ≤ last

/-- A later success settles what was settled. -/
theorem settled_mono {h h' : JobHistory} (hattempt : h'.lastAttempt = h.lastAttempt)
    (hsuccess : h.successAt.getD 0 ≤ h'.successAt.getD 0)
    (hsettled : h.scheduledFailure job = false) : h'.scheduledFailure job = false := by
  have hat : h'.attemptAt = h.attemptAt := by
    unfold JobHistory.attemptAt
    rw [hattempt]
  unfold JobHistory.scheduledFailure at hsettled ⊢
  rw [hattempt, hat]
  cases hlast : h.lastAttempt with
  | none => rfl
  | some last =>
    obtain ⟨run, status⟩ := last
    rw [hlast] at hsettled
    simp only [Bool.and_eq_false_iff, decide_eq_false_iff_not] at hsettled ⊢
    refine hsettled.imp id fun hlate => ?_
    exact not_lt.mpr ((not_lt.mp hlate).trans hsuccess)

theorem settled_of_ok {h : JobHistory} {run : ScheduledRun}
    (hlast : h.lastAttempt = some (run, .ok)) : h.scheduledFailure job = false := by
  unfold JobHistory.scheduledFailure
  rw [hlast]
  rfl

/-- What the end of the open run leaves. -/
structure Finished (job : CronJob) (s t : CronState) (run : ScheduledRun) (status : JobStatus)
    (endedAt : Time) : Prop where
  later : s.clock ≤ endedAt
  closed : t.openRun = none
  starts : t.starts = s.starts
  nextJobId : t.nextJobId = s.nextJobId
  attempt : (t.history job).lastAttempt = some ({ run with recordedAt := endedAt }, status)
  success : (t.history job).lastSuccess
    = if status = .ok then some { run with recordedAt := endedAt } else (s.history job).lastSuccess

theorem finished_of_step {run : ScheduledRun} {status : JobStatus} {endedAt : Time}
    (hok : CronOk job (s.history job) s.forget) (hopen : s.openRun = some run)
    (hstep : finishStep job status endedAt s = some t) : Finished job s t run status endedAt := by
  unfold finishStep at hstep
  rw [hopen] at hstep
  dsimp only at hstep
  split_ifs at hstep with hend
  obtain rfl := Option.some.inj hstep
  obtain ⟨⟨old, hlast⟩, ⟨text, hslot⟩, hwon⟩ := hok.opened run hopen
  obtain ⟨htrigger, hpos, -⟩ := hok.attempt run old hlast
  have hrecord := historyOf_record (endReport job run status endedAt) job.definitionId
    job.id_trimmed job.id_ne rfl s.schedule (fun _ => hpos.le)
  rw [endReport_run htrigger hslot] at hrecord
  refine ⟨hend, rfl, rfl, rfl, ?_, ?_⟩
  · rw [history_mk, hrecord]
    refine record_attempt htrigger (notBefore_of_le hpos ?_)
    intro same hsame
    have hlast : (historyOf job.definitionId s.schedule).lastAttempt = some (run, old) := hlast
    rw [hlast] at hsame
    obtain rfl := Option.some.inj hsame
    exact ⟨le_refl _, le_refl _⟩
  · rw [history_mk, hrecord]
    exact record_success _ status (notBefore_of_le hpos hwon)

/-- What a run by hand leaves: the last attempt stays, and its success counts. -/
structure ByHand (job : CronJob) (s t : CronState) (endedAt : Time) (status : JobStatus)
    (dryRun : Bool) : Prop where
  closed : s.openRun = none ∧ t.openRun = none
  starts : t.starts = s.starts
  nextJobId : t.nextJobId = s.nextJobId + 1
  attempt : (t.history job).lastAttempt = (s.history job).lastAttempt
  success : (t.history job).successAt
    = if status = .ok ∧ dryRun = false then some endedAt else (s.history job).successAt
  later : s.clock ≤ endedAt

theorem byHand_of_step {startedAt endedAt : Time} {status : JobStatus} {trigger : String}
    {dryRun : Bool} (hok : CronOk job (s.history job) s.forget)
    (hstep : byHandStep job startedAt endedAt status trigger dryRun s = some t) :
    ByHand job s t endedAt status dryRun := by
  unfold byHandStep at hstep
  split_ifs at hstep with hhand
  obtain rfl := Option.some.inj hstep
  obtain ⟨hstart, hend, hclosed, htrigger⟩ := hhand
  have hlater : s.clock ≤ endedAt := hstart.trans hend
  have hne : endedAt ≠ 0 := (hok.clock_pos.trans_le hlater).ne'
  cases dryRun with
  | true =>
    have hsame := historyOf_other
      (handReport job s.nextJobId startedAt endedAt status trigger true) job.definitionId
      (Or.inr rfl) s.schedule
    refine ⟨⟨hclosed, hclosed⟩, rfl, rfl, ?_, ?_, hlater⟩
    · rw [history_mk, hsame]
      rfl
    · rw [history_mk, hsame, if_neg (by simp)]
      rfl
  | false =>
    have hpos : 0 < startedAt := hok.clock_pos.trans_le hstart
    have hrecord := historyOf_record
      (handReport job s.nextJobId startedAt endedAt status trigger false) job.definitionId
      job.id_trimmed job.id_ne rfl s.schedule (fun _ => hpos.le)
    refine ⟨⟨hclosed, hclosed⟩, rfl, rfl, ?_, ?_, hlater⟩
    · have htrigger' : (handReport job s.nextJobId startedAt endedAt status trigger false).run.trigger
          ≠ "scheduler" := htrigger
      rw [history_mk, hrecord, JobHistory.record, if_neg fun hboth => htrigger' hboth.1]
      rfl
    · have hsuccess := record_success (h := s.history job)
        (handReport job s.nextJobId startedAt endedAt status trigger false).run status
        (notBefore_of_le hpos fun old hold => by
          obtain ⟨-, hle, hrecorded, hjob⟩ := hok.success old hold
          exact ⟨(hle.trans hrecorded).trans hstart, hjob.le⟩)
      have hreported : (handReport job s.nextJobId startedAt endedAt status trigger false).status
          = status := rfl
      rw [history_mk, hrecord, hreported]
      unfold JobHistory.successAt
      rw [CronState.history] at hsuccess
      rw [hsuccess]
      by_cases hstatus : status = .ok
      · rw [if_pos hstatus, if_pos ⟨hstatus, rfl⟩]
        exact if_neg hne
      · rw [if_neg hstatus, if_neg fun hboth => hstatus hboth.1]
        rfl

/-- The end of a successful run. -/
theorem Rested.finish {run : ScheduledRun} {endedAt : Time}
    (hok : CronOk job (s.history job) s.forget) (hopen : s.openRun = some run)
    (hstep : finishStep job .ok endedAt s = some t) :
    Rested job endedAt t ∧ t.starts = s.starts := by
  have hfinished := finished_of_step hok hopen hstep
  refine ⟨⟨forget_step (a := .finish .ok endedAt) hok hstep, hfinished.closed,
    settled_of_ok hfinished.attempt, endedAt, ?_, le_refl _⟩, hfinished.starts⟩
  have hne : endedAt ≠ 0 := (hok.clock_pos.trans_le hfinished.later).ne'
  unfold JobHistory.successAt
  rw [hfinished.success, if_pos rfl]
  exact if_neg hne

/-- Before the next occurrence nothing is due. -/
theorem Rested.not_due {occurs : Time → Prop} (hcron : NextOccurrence job occurs) {since : Time}
    (hrested : Rested job since s) {c : TickSettings} {now : Time} (hnow : now < job.next since) :
    (evaluateDue job c (s.history job) now).due = false := by
  obtain ⟨last, hlast, hle⟩ := hrested.success
  have hnext : job.next since ≤ job.next last :=
    hcron.nearest since _ (hcron.occurs_next last) (hle.trans_lt (job.next_gt last))
  cases hvalid : job.valid with
  | false =>
    have hslot : dueSlot job c (s.history job).successAt now = (false, none, none) := by
      unfold dueSlot
      rw [hvalid]
      rfl
    exact evaluateDue_early hrested.settled hslot
  | true =>
    have hslot : dueSlot job c (some last) now = _ := dueSlot_after hvalid last
    rw [← hlast, if_neg (not_le.mpr (hnow.trans_le hnext))] at hslot
    exact evaluateDue_early hrested.settled hslot

/-- Before the next occurrence nothing is started. -/
theorem Rested.step {occurs : Time → Prop} (hcron : NextOccurrence job occurs) {since : Time}
    (hrested : Rested job since s) (hstep : cronStep job s a = some t)
    (hearly : ∀ c now startedAt taken, a = .tick c now startedAt taken → now < job.next since) :
    Rested job since t ∧ t.starts = s.starts := by
  have hok := forget_step hrested.ok hstep
  cases a with
  | tick settings now startedAt taken =>
    have hnone : tickStart job settings s now = none := by
      have hnot := hrested.not_due hcron (c := settings) (hearly _ _ _ _ rfl)
      unfold tickStart
      rw [CronState.history] at hnot
      simp only [hnot, Bool.false_eq_true, if_false]
    have hstep : tickStep job settings now startedAt taken s = some t := hstep
    unfold tickStep at hstep
    rw [hnone, ite_self] at hstep
    split_ifs at hstep
    obtain rfl := Option.some.inj hstep
    exact ⟨⟨hok, hrested.closed, hrested.settled, hrested.success⟩, rfl⟩
  | finish status endedAt =>
    have hstep : finishStep job status endedAt s = some t := hstep
    unfold finishStep at hstep
    rw [hrested.closed] at hstep
    cases hstep
  | byHand startedAt endedAt status trigger dryRun =>
    have hhand := byHand_of_step hrested.ok hstep
    obtain ⟨last, hlast, hle⟩ := hrested.success
    have hsuccess : ∃ later, (t.history job).successAt = some later ∧ last ≤ later := by
      rw [hhand.success]
      by_cases hwon : status = .ok ∧ dryRun = false
      · rw [if_pos hwon]
        obtain ⟨won, hlastSuccess, hwon⟩ := Option.map_eq_some_iff.mp
          (hrested.ok.successAt_eq.symm.trans hlast)
        obtain ⟨-, -, hrecorded, -⟩ := hrested.ok.success won hlastSuccess
        exact ⟨endedAt, rfl, hwon ▸ hrecorded.trans hhand.later⟩
      · rw [if_neg hwon]
        exact ⟨last, hlast, le_refl _⟩
    obtain ⟨later, hlater, hmono⟩ := hsuccess
    refine ⟨⟨hok, hhand.closed.2, ?_, later, hlater, hle.trans hmono⟩, hhand.starts⟩
    refine settled_mono hhand.attempt ?_ hrested.settled
    rw [hlast, hlater]
    exact hmono
  | elsewhere report =>
    have hstep : (if strip report.definitionId ≠ job.definitionId then
        some { s with schedule := recordSchedule report s.schedule } else none) = some t := hstep
    split_ifs at hstep with hother
    obtain rfl := Option.some.inj hstep
    have hsame := historyOf_other report job.definitionId (Or.inl hother) s.schedule
    refine ⟨⟨hok, hrested.closed, ?_, ?_⟩, rfl⟩
    · rw [history_mk, hsame]
      exact hrested.settled
    · rw [history_mk, hsame]
      exact hrested.success

theorem Rested.run {occurs : Time → Prop} (hcron : NextOccurrence job occurs) {since : Time}
    (hrested : Rested job since s) {as : List CronAction}
    (hrun : Run (Steps (cronStep job)) s as t)
    (hearly : ∀ c now startedAt taken, .tick c now startedAt taken ∈ as → now < job.next since) :
    t.starts = s.starts := by
  induction hrun with
  | nil s => rfl
  | cons hstep _ ih =>
    obtain ⟨hrested', hstarts⟩ := hrested.step hcron hstep
      fun c now startedAt taken ha => hearly c now startedAt taken (ha ▸ List.mem_cons_self)
    exact (ih hrested' fun c now startedAt taken hmem =>
      hearly c now startedAt taken (List.mem_cons_of_mem _ hmem)).trans hstarts

/-- A tick that starts the job leaves its run open. -/
theorem open_of_start {c : TickSettings} {now startedAt : Time} {taken : Bool} {start : CronStart}
    (hstep : tickStep job c now startedAt taken s = some t)
    (hstart : t.starts = start :: s.starts) : ∃ run, t.openRun = some run := by
  unfold tickStep at hstep
  split_ifs at hstep with htime htaken
  · cases hdue : tickStart job c s now with
    | none =>
      rw [hdue] at hstep
      obtain rfl := Option.some.inj hstep
      exact absurd hstart.symm (List.cons_ne_self _ _)
    | some start' =>
      rw [hdue] at hstep
      obtain rfl := Option.some.inj hstep
      exact ⟨_, rfl⟩
  · obtain rfl := Option.some.inj hstep
    exact absurd hstart.symm (List.cons_ne_self _ _)

/-- A due tick that is taken while no run is open makes one start. -/
theorem start_of_due {c : TickSettings} {now startedAt : Time}
    (hdue : (evaluateDue job c (s.history job) now).due = true) (hopen : s.openRun = none)
    (hstep : tickStep job c now startedAt true s = some t) :
    ∃ start run, t.starts = start :: s.starts ∧ t.openRun = some run := by
  have hstart : ∃ start, tickStart job c s now = some start := ⟨_, if_pos hdue⟩
  obtain ⟨start, hstart⟩ := hstart
  unfold tickStep at hstep
  split_ifs at hstep with htime htaken
  · rw [hstart] at hstep
    obtain rfl := Option.some.inj hstep
    exact ⟨start, _, rfl, rfl⟩
  · exact absurd ⟨rfl, hopen⟩ htaken

end Runs

/-! ### Main result -/

/-- **When a job is due, and how often it starts.**  It is due exactly when some occurrence
between the last success and now has another slot than the last attempt; a due tick that is taken
makes one start; and however many occurrences lie behind, it is the only one until, after the
success of its run, the first occurrence after its end. -/
theorem due_decision (job : CronJob) {occurs : Time → Prop} (hcron : NextOccurrence job occurs)
    (hvalid : job.valid = true) :
    (∀ (c : TickSettings) (h : JobHistory) (now last : Time), h.successAt = some last → 0 < last →
      h.attemptAt ≠ 0 → h.scheduledFailure job = false →
      ((evaluateDue job c h now).due = true ↔
        ∃ t, occurs t ∧ last < t ∧ t ≤ now ∧ slotKey job t ≠ h.previousSlot)) ∧
    (∀ (c : TickSettings) (now startedAt : Time) (s opened : CronState),
      (evaluateDue job c (s.history job) now).due = true → s.openRun = none →
      tickStep job c now startedAt true s = some opened →
      ∃ start run, opened.starts = start :: s.starts ∧ opened.openRun = some run) ∧
    ∀ (clock : Time) (earlier : List CronAction) (s : CronState), 0 < clock →
      Run (Steps (cronStep job)) (cronStart clock) earlier s →
      ∀ (c : TickSettings) (now startedAt : Time) (taken : Bool) (start : CronStart)
        (opened : CronState), tickStep job c now startedAt taken s = some opened →
      opened.starts = start :: s.starts →
      ∀ (during after : List CronAction) (endedAt : Time) (t : CronState),
      Run (Steps (cronStep job)) opened (during ++ .finish .ok endedAt :: after) t →
      (∀ status endedAt, .finish status endedAt ∉ during) →
      (∀ c now startedAt taken, .tick c now startedAt taken ∈ after → now < job.next endedAt) →
      t.starts = start :: s.starts := by
  refine ⟨fun c h now last hsuccess hlast hattempt hsettled =>
    evaluateDue_iff hcron hvalid hsuccess hlast hattempt hsettled,
    fun _ _ _ _ _ => start_of_due, ?_⟩
  intro clock earlier s hclock hearlier c now startedAt taken start opened hstep hstart during after
    endedAt t hrun hduring hafter
  have hok := forget_step (a := .tick c now startedAt taken) (forget_run hclock hearlier) hstep
  obtain ⟨run, hopen⟩ := open_of_start hstep hstart
  obtain ⟨u, hfirst, hrest⟩ := hrun.split
  obtain ⟨hopenu, hstartsu⟩ := open_run hopen hduring hfirst
  have hoku : CronOk job (u.history job) u.forget :=
    hfirst.preserves (fun s => CronOk job (s.history job) s.forget)
      (fun s a t hok hstep => forget_step hok hstep) hok
  cases hrest with
  | cons hend hlater =>
    obtain ⟨hrested, hstarts⟩ := Rested.finish hoku hopenu hend
    rw [hrested.run hcron hlater hafter, hstarts, hstartsu, hstart]

/-! ### The half hours -/

theorem halfHourAfter_le {t n : Int} (h : t < n * 1800000000) :
    halfHourAfter t ≤ n * 1800000000 := by
  unfold halfHourAfter
  omega

theorem halfHourly_next :
    NextOccurrence halfHourly fun t => ∃ n : Int, t = n * 1800000000 where
  occurs_next t := ⟨t / 1800000000 + 1, rfl⟩
  nearest t u := by
    rintro ⟨n, rfl⟩ hlt
    exact halfHourAfter_le hlt

/-- At 03:30 the half-hourly job is due again, but not at 03:15. -/
theorem due_decision_half_hours :
    (evaluateDue halfHourly ⟨60, 15, false⟩ (threeEnded.history halfHourly)
      1792895405000000).due = true ∧
    ∃ t, Run (Steps (cronStep halfHourly)) threeOpen ([] ++ .finish .ok 1792893620000000 ::
      [tickAt 255]) t ∧ t.starts = threeStarts := by
  obtain ⟨hdue, -, hruns⟩ := due_decision halfHourly halfHourly_next rfl
  constructor
  · refine (hdue _ _ _ 1792893620000000 (by decide) (by decide) (by decide) (by decide)).mpr ?_
    refine ⟨1792895400000000, ⟨996053, by decide⟩, by decide, by decide, by decide⟩
  · have hlast : (cronStep halfHourly threeEnded (tickAt 255)).map
        (fun s => s.starts) = some threeStarts := by decide
    obtain ⟨t, hstep, -⟩ := Option.map_eq_some_iff.mp hlast
    have hrun : Run (Steps (cronStep halfHourly)) threeOpen ([] ++ .finish .ok 1792893620000000 ::
        [tickAt 255]) t := by
      refine .cons (t := threeEnded) ?_ (.cons hstep (.nil t))
      show cronStep halfHourly threeOpen (.finish .ok 1792893620000000) = some threeEnded
      decide
    refine ⟨t, hrun, hruns fallBackMidnight [] _ (by decide) (.nil _) ⟨60, 15, false⟩
      1792893605000000 1792893605000000 true
      ⟨"v1|Europe/Berlin|*/30 * * * *|2026-10-25T03:00", false⟩ threeOpen (by decide) rfl [] _ _ _
      hrun ?_ ?_⟩
    · intro status endedAt hmem
      cases hmem
    · intro c now startedAt taken hmem
      obtain ⟨rfl, rfl, rfl, rfl⟩ := CronAction.tick.inj (List.mem_singleton.mp hmem)
      decide

end RcloneSync
