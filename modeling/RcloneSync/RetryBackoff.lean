/-
RcloneSync/RetryBackoff.lean

Retries of a failed attempt.  `_evaluate_due` declares the retry of a failed attempt due from
`attempt_ts + retry_sec` on, except in the repeated minute of the failed slot
(`evaluateDue_retry`).

A retry is an attempt of its own, with a slot that no cron slot has: `retry|`, the history key
and the number of the job that failed.  Numbers only grow, so no retry has the slot of another
one; and since the slot of a failed retry is no cron slot, no repeated minute holds the next
retry up (`retry_backoff`).
-/
import RcloneSync.DueCleanup
import RcloneSync.DueDecision

namespace RcloneSync

open Py Runs

/-! ### When a retry is due -/

/-- The last scheduled attempt is not a success, and no success came after it. -/
structure FailedLast (h : JobHistory) : Prop where
  attempt : ∃ run status, h.lastAttempt = some (run, status) ∧ status ≠ .ok ∧
    (run.trigger = "scheduler" ∨ run.slot.getD "" ≠ "")
  newer : h.successAt.getD 0 < h.attemptAt

/-- The schedule is due for the slot of the last attempt, and that slot has a later pass whose
minute has not yet passed. -/
def RepeatedMinute (job : CronJob) (c : TickSettings) (h : JobHistory) (now : Time) : Prop :=
  ∃ first later, dueSlot job c h.successAt now = (true, some h.previousSlot, some first) ∧
    first < later ∧ (∃ t, later = job.next t) ∧ slotKey job later = h.previousSlot ∧
    now < later + ofSeconds 60

section Decision

variable {job : CronJob} {c : TickSettings} {h : JobHistory} {now : Time}

theorem scheduledFailure_iff : h.scheduledFailure job = true ↔ FailedLast h := by
  unfold JobHistory.scheduledFailure
  constructor
  · intro hfailed
    cases hlast : h.lastAttempt with
    | none =>
      rw [hlast] at hfailed
      cases hfailed
    | some last =>
      obtain ⟨run, status⟩ := last
      rw [hlast] at hfailed
      simp only [Bool.and_eq_true, Bool.or_eq_true, decide_eq_true_eq] at hfailed
      obtain ⟨⟨hstatus, hscheduled⟩, hnewer⟩ := hfailed
      exact ⟨⟨run, status, hlast, hstatus, hscheduled.imp id And.right⟩, hnewer⟩
  · rintro ⟨⟨run, status, hlast, hstatus, hscheduled⟩, hnewer⟩
    rw [hlast]
    simp only [Bool.and_eq_true, Bool.or_eq_true, decide_eq_true_eq]
    exact ⟨⟨hstatus, hscheduled.imp id fun hslot => ⟨job.id_ne, hslot⟩⟩, hnewer⟩

theorem retryAfter_pos (c : TickSettings) : 0 < c.retryAfter := by
  have hminute : 0 < max 1 (min c.retryMinutes 10080) := Int.one_pos.trans_le (le_max_left _ _)
  show 0 < max 1 (min c.retryMinutes 10080) * 60 * 1000000
  exact Int.mul_pos (Int.mul_pos hminute (by decide)) (by decide)

theorem retryDue_iff (job : CronJob) (hfailed : FailedLast h) :
    h.retryDue job c now = true ↔ h.attemptAt + c.retryAfter ≤ now := by
  unfold JobHistory.retryDue
  rw [scheduledFailure_iff.mpr hfailed, Bool.true_and, decide_eq_true_eq]
  exact le_sub_iff_add_le'

/-- **The decision behind the delay**: the retry, except in a repeated minute. -/
theorem evaluateDue_retry (hretry : h.retryDue job c now = true) :
    evaluateDue job c h now =
        { due := true
          lastRun := h.successAt
          lastAttempt := some h.attemptAt
          scheduledSlot := some (retrySlot job h)
          reason := some "retry_after_failure" } ∨
      (evaluateDue job c h now).due = false ∧ RepeatedMinute job c h now := by
  have hfacts : (h.facts job).retryDue c now = true := hretry
  rw [evaluateDue_eq]
  exact decideDue_retry hfacts

/-- Before the delay is over nothing is due. -/
theorem evaluateDue_backoff (hfailed : FailedLast h)
    (hearly : ¬ h.attemptAt + c.retryAfter ≤ now) : (evaluateDue job c h now).due = false := by
  have hretry : h.retryDue job c now = false := by
    rw [← Bool.not_eq_true, retryDue_iff job hfailed]
    exact hearly
  unfold evaluateDue
  rw [scheduledFailure_iff.mpr hfailed, hretry]
  rfl

/-- A success lies behind every due decision. -/
theorem success_lt_of_due (hnow : 0 < now) (hdue : (evaluateDue job c h now).due = true) :
    h.successAt.getD 0 < now := by
  rcases ready_of_due hdue with hslot | hretry
  · cases hsuccess : h.successAt with
    | none => exact hnow
    | some last =>
      rw [hsuccess] at hslot
      cases hvalid : job.valid with
      | false =>
        unfold dueSlot at hslot
        rw [hvalid] at hslot
        cases hslot
      | true =>
        rw [dueSlot_after hvalid] at hslot
        by_cases hle : job.next last ≤ now
        · exact (job.next_gt last).trans_le hle
        · rw [if_neg hle] at hslot
          cases hslot
  · obtain ⟨hfailure, -⟩ := Bool.and_eq_true_iff.mp hretry
    have hfailed := scheduledFailure_iff.mp hfailure
    have hlate := (retryDue_iff job hfailed).mp hretry
    have hpos := retryAfter_pos c
    exact hfailed.newer.trans ((lt_add_of_pos_right _ hpos).trans_le hlate)

end Decision

/-! ### The slot of a retry -/

/-- `f"retry|{history_key}|{source}"` for the job that failed. -/
def retryText (job : CronJob) (jobId : Nat) : String :=
  "retry|" ++ definitionHistoryKey job ++ "|" ++ toString jobId

/-- The slots of the retries. -/
def retrySlots (s : CronState) : List String :=
  (s.starts.filter fun start => start.retry).map CronStart.slot

section Slots

variable {job : CronJob} {h : JobHistory}

theorem retrySlot_eq (job : CronJob) {run : ScheduledRun} {status : JobStatus}
    (hlast : h.lastAttempt = some (run, status)) (hid : run.jobId ≠ 0) :
    retrySlot job h = retryText job run.jobId := by
  unfold retrySlot
  simp only [hlast, if_neg hid]
  rfl

theorem retryText_inj {m n : Nat} (hsame : retryText job m = retryText job n) : m = n := by
  have hnumber : toString (m : Int) = toString (n : Int) :=
    (String.append_right_inj _).mp hsame
  exact Int.ofNat_inj.mp (toString_inj hnumber)

theorem retryText_toList (job : CronJob) (n : Nat) :
    (retryText job n).toList.head? = some 'r' := by
  unfold retryText
  simp

theorem retryText_ne_slotKey (job : CronJob) (n : Nat) (t : Time) :
    retryText job n ≠ slotKey job t := by
  intro hsame
  have hfirst := retryText_toList job n
  rw [hsame] at hfirst
  simp [slotKey] at hfirst

theorem strip_toString (n : Nat) : strip (toString n) = toString n := by
  have hdigits : (toString n).toList = Nat.toDigits 10 n := by
    show (Nat.repr n).toList = _
    simp [Nat.repr]
  have hspace : ∀ c ∈ Nat.toDigits 10 n, isSpace c = false := by
    intro c hc
    have hbounds : 48 ≤ c.toNat ∧ c.toNat ≤ 57 := by
      have hdigit := isDigit_toDigits hc
      simp only [Char.isDigit, Bool.and_eq_true, decide_eq_true_eq] at hdigit
      exact hdigit
    have hcheck : ∀ k ∈ spaceCodes, k < 48 ∨ 57 < k := by decide
    unfold isSpace
    rw [← Bool.not_eq_true, List.contains_iff_mem]
    intro hmem
    rcases hcheck _ hmem with hlow | hhigh
    · exact absurd hbounds.1 (not_le.mpr hlow)
    · exact absurd hbounds.2 (not_le.mpr hhigh)
  have hchars : stripChars (toString n).toList = (toString n).toList := by
    rw [hdigits]
    apply stripChars_eq_self_iff.mpr
    intro hne
    exact ⟨hspace _ (List.head_mem hne), hspace _ (List.getLast_mem hne)⟩
  rw [strip, hchars, String.ofList_toList]

/-- A retry's slot is stored as it is. -/
theorem textOrNone_retryText (job : CronJob) (n : Nat) :
    textOrNone (retryText job n) = some (retryText job n) := by
  have hnumber : toString n ≠ "" := by
    intro hempty
    have hlist := congrArg String.length hempty
    simp at hlist
  have hstrip : strip (retryText job n) = retryText job n := by
    apply strip_append (c := 'r') _ (by decide) (strip_toString n) hnumber
    simp
  have hne : retryText job n ≠ "" := by
    intro hempty
    have hfirst := retryText_toList job n
    rw [hempty] at hfirst
    cases hfirst
  unfold textOrNone
  rw [hstrip, if_neg hne]

end Slots

/-! ### What a tick does -/

section Steps

variable {job : CronJob} {s t : CronState} {c : TickSettings} {now : Time}

/-- A start is a retry of the last attempt, or one of the schedule. -/
theorem tickStart_cases {start : CronStart} (hstart : tickStart job c s now = some start) :
    (evaluateDue job c (s.history job) now).due = true ∧
      (start = ⟨retrySlot job (s.history job), true⟩ ∧
          FailedLast (s.history job) ∧ (s.history job).attemptAt + c.retryAfter ≤ now ∨
        start.retry = false ∧ ∃ t, start.slot = slotKey job t) := by
  unfold tickStart at hstart
  dsimp only at hstart
  split_ifs at hstart with hdue
  have hdue : (evaluateDue job c (s.history job) now).due = true := hdue
  refine ⟨hdue, ?_⟩
  obtain rfl := Option.some.inj hstart
  rcases evaluateDue_due hdue with ⟨-, hretry⟩ | ⟨hreason, -, occurrence, -, -, hslot⟩
  · left
    have hfailed := scheduledFailure_iff.mp (Bool.and_eq_true_iff.mp hretry).1
    refine ⟨?_, hfailed, (retryDue_iff job hfailed).mp hretry⟩
    rcases evaluateDue_retry hretry with heq | ⟨hnot, -⟩
    · have heq : evaluateDue job c (historyOf job.definitionId s.schedule) now = _ := heq
      rw [heq]
      rfl
    · rw [hnot] at hdue
      cases hdue
  · right
    refine ⟨decide_eq_false hreason, ?_⟩
    rcases hslot with ⟨-, hslot⟩ | ⟨-, -, hslot⟩
    · have hslot : (evaluateDue job c (historyOf job.definitionId s.schedule) now).scheduledSlot
          = _ := hslot
      exact ⟨_, by rw [hslot, Option.getD_some]⟩
    · have hslot : (evaluateDue job c (historyOf job.definitionId s.schedule) now).scheduledSlot
          = _ := hslot
      exact ⟨_, by rw [hslot, Option.getD_some]⟩

/-- What a start leaves. -/
structure Started (job : CronJob) (s t : CronState) (start : CronStart) (startedAt : Time) :
    Prop where
  opened : t.openRun = some (newRun s.nextJobId startedAt start.slot)
  starts : t.starts = start :: s.starts
  nextJobId : t.nextJobId = s.nextJobId + 1
  attempt : (t.history job).lastAttempt
    = some (newRun s.nextJobId startedAt start.slot, .running)
  success : (t.history job).lastSuccess = (s.history job).lastSuccess

theorem tickStep_cases {startedAt : Time} {taken : Bool}
    (hok : CronOk job (s.history job) s.forget)
    (hstep : tickStep job c now startedAt taken s = some t) :
    s.clock ≤ now ∧ now ≤ startedAt ∧
      (t = { s with clock := now } ∧
          (taken = true → s.openRun = none → tickStart job c s now = none) ∨
        ∃ start, s.openRun = none ∧ tickStart job c s now = some start ∧
          Started job s t start startedAt) := by
  unfold tickStep at hstep
  by_cases htime : s.clock ≤ now ∧ now ≤ startedAt
  · rw [if_pos htime] at hstep
    refine ⟨htime.1, htime.2, ?_⟩
    by_cases hfree : taken = true ∧ s.openRun = none
    · rw [if_pos hfree] at hstep
      cases hstart : tickStart job c s now with
      | none =>
        rw [hstart] at hstep
        exact Or.inl ⟨(Option.some.inj hstep).symm, fun _ _ => rfl⟩
      | some start =>
        rw [hstart] at hstep
        obtain rfl := Option.some.inj hstep
        have hpos : 0 < startedAt := (hok.clock_pos.trans_le htime.1).trans_le htime.2
        have hrecord := historyOf_record (startReport job s.nextJobId startedAt start.slot)
          job.definitionId job.id_trimmed job.id_ne rfl s.schedule (fun _ => hpos.le)
        rw [startReport_run] at hrecord
        refine Or.inr ⟨start, hfree.2, rfl, rfl, rfl, rfl, ?_, ?_⟩
        · rw [history_mk, hrecord]
          refine record_attempt (newRun_trigger _ _ _) (notBefore_of_le hpos ?_)
          intro old hold
          obtain ⟨⟨run, status⟩, hlast, rfl⟩ := Option.map_eq_some_iff.mp hold
          obtain ⟨-, -, hle, hrecorded, hjob⟩ := hok.attempt run status hlast
          exact ⟨((hle.trans hrecorded).trans htime.1).trans htime.2, hjob.le⟩
        · rw [history_mk, hrecord]
          have hstatus : ¬ (JobStatus.running = .ok ∧ notBefore
              (newRun s.nextJobId startedAt start.slot) (s.history job).lastSuccess = true) :=
            fun hboth => absurd hboth.1 (by decide)
          have hkept : ((s.history job).record (newRun s.nextJobId startedAt start.slot)
              .running).lastSuccess = (s.history job).lastSuccess := by
            simp only [JobHistory.record, if_neg hstatus]
          exact hkept
    · rw [if_neg hfree] at hstep
      exact Or.inl ⟨(Option.some.inj hstep).symm, fun htaken hclosed =>
        absurd ⟨htaken, hclosed⟩ hfree⟩
  · rw [if_neg htime] at hstep
    cases hstep

end Steps

/-! ### What every step keeps -/

/-- The slots of the retries.  A retry has the number of an attempt before the last one. -/
structure RetryOk (job : CronJob) (h : JobHistory) (s : CronState) : Prop where
  ids : 0 < s.nextJobId
  attempt : ∀ run status, h.lastAttempt = some (run, status) → run.jobId ≠ 0 ∧
    ((∃ t, run.slot = some (slotKey job t)) ∨
      ∃ id < run.jobId, run.slot = some (retryText job id))
  used : ∀ slot ∈ retrySlots s, ∃ run status, h.lastAttempt = some (run, status) ∧
    ∃ id < run.jobId, slot = retryText job id
  distinct : (retrySlots s).Nodup
  opened : ∀ run, s.openRun = some run → h.successAt.getD 0 < run.startedAt ∧
    ∃ start rest, s.starts = start :: rest ∧ run.slot = some start.slot

section Kept

variable {job : CronJob} {s t : CronState} {c : TickSettings} {now : Time} {a : CronAction}

theorem retryOk_start (job : CronJob) (clock : Time) :
    RetryOk job ((cronStart clock).history job) (cronStart clock) where
  ids := Nat.one_pos
  attempt _ _ hlast := absurd hlast (Option.some_ne_none _).symm
  used _ hslot := absurd hslot List.not_mem_nil
  distinct := List.nodup_nil
  opened _ hopen := absurd hopen (Option.some_ne_none _).symm

/-- A start numbers a new attempt. -/
theorem RetryOk.start {start : CronStart} {startedAt : Time}
    (hok : CronOk job (s.history job) s.forget) (hretries : RetryOk job (s.history job) s)
    (hnow : s.clock ≤ now) (hlater : now ≤ startedAt)
    (hstart : tickStart job c s now = some start) (hstarted : Started job s t start startedAt) :
    RetryOk job (t.history job) t := by
  obtain ⟨hdue, hkind⟩ := tickStart_cases hstart
  have hsuccess : (t.history job).successAt = (s.history job).successAt := by
    unfold JobHistory.successAt
    rw [hstarted.success]
  -- every number so far is below the new one
  have hbelow : ∀ run status, (s.history job).lastAttempt = some (run, status) →
      run.jobId < s.nextJobId := by
    intro run status hlast
    obtain ⟨-, -, -, -, hjob⟩ := hok.attempt run status hlast
    exact hjob
  have htext : start.retry = true → ∃ run status, (s.history job).lastAttempt = some (run, status) ∧
      start.slot = retryText job run.jobId := by
    intro hretry
    rcases hkind with ⟨rfl, hfailed, -⟩ | ⟨hno, -⟩
    · obtain ⟨run, status, hlast, -, -⟩ := hfailed.attempt
      exact ⟨run, status, hlast, retrySlot_eq job hlast (hretries.attempt run status hlast).1⟩
    · rw [hno] at hretry
      cases hretry
  have hslot : (∃ t, start.slot = slotKey job t) ∨
      ∃ id < s.nextJobId, start.slot = retryText job id := by
    rcases hkind with ⟨rfl, -, -⟩ | ⟨-, hcron⟩
    · obtain ⟨run, status, hlast, hsame⟩ := htext rfl
      exact Or.inr ⟨run.jobId, hbelow run status hlast, hsame⟩
    · exact Or.inl hcron
  have hstored : textOrNone start.slot = some start.slot := by
    rcases hslot with ⟨u, hu⟩ | ⟨id, -, hid⟩
    · rw [hu]
      exact textOrNone_slotKey job u
    · rw [hid]
      exact textOrNone_retryText job id
  have hold : ∀ slot ∈ retrySlots s, ∃ id < s.nextJobId, slot = retryText job id := by
    intro slot hmem
    obtain ⟨run, status, hlast, id, hid, hslot⟩ := hretries.used slot hmem
    exact ⟨id, hid.trans (hbelow run status hlast), hslot⟩
  refine ⟨?_, ?_, ?_, ?_, ?_⟩
  · rw [hstarted.nextJobId]
    exact Nat.succ_pos _
  · intro run status hlast
    rw [hstarted.attempt] at hlast
    obtain ⟨rfl, rfl⟩ := Prod.mk.inj (Option.some.inj hlast)
    rw [newRun_slot, hstored]
    refine ⟨hretries.ids.ne', ?_⟩
    rcases hslot with ⟨u, hu⟩ | ⟨id, hid, hu⟩
    · exact Or.inl ⟨u, congrArg some hu⟩
    · exact Or.inr ⟨id, hid, congrArg some hu⟩
  · intro slot hmem
    refine ⟨_, _, hstarted.attempt, ?_⟩
    show ∃ id < s.nextJobId, slot = retryText job id
    unfold retrySlots at hmem
    rw [hstarted.starts] at hmem
    cases hretry : start.retry with
    | true =>
      rw [List.filter_cons, if_pos hretry] at hmem
      rcases List.mem_cons.mp hmem with rfl | hmem
      · obtain ⟨run, status, hlast, hsame⟩ := htext hretry
        exact ⟨run.jobId, hbelow run status hlast, hsame⟩
      · exact hold slot hmem
    | false =>
      rw [List.filter_cons, if_neg (Bool.eq_false_iff.mp hretry)] at hmem
      exact hold slot hmem
  · unfold retrySlots
    rw [hstarted.starts]
    cases hretry : start.retry with
    | true =>
      rw [List.filter_cons, if_pos hretry]
      refine List.nodup_cons.mpr ⟨?_, hretries.distinct⟩
      intro hmem
      obtain ⟨run, status, hlast, hsame⟩ := htext hretry
      obtain ⟨run', status', hlast', id, hid, hused⟩ := hretries.used _ hmem
      rw [hlast] at hlast'
      obtain ⟨rfl, rfl⟩ := Prod.mk.inj (Option.some.inj hlast')
      exact hid.ne' (retryText_inj (hsame.symm.trans hused))
    | false =>
      rw [List.filter_cons, if_neg (Bool.eq_false_iff.mp hretry)]
      exact hretries.distinct
  · intro run hopen
    rw [hstarted.opened] at hopen
    obtain rfl := Option.some.inj hopen
    refine ⟨?_, start, s.starts, hstarted.starts, by rw [newRun_slot, hstored]⟩
    rw [hsuccess]
    exact (success_lt_of_due (hok.clock_pos.trans_le hnow) hdue).trans_le hlater

theorem RetryOk.tick {startedAt : Time} {taken : Bool}
    (hok : CronOk job (s.history job) s.forget) (hretries : RetryOk job (s.history job) s)
    (hstep : tickStep job c now startedAt taken s = some t) : RetryOk job (t.history job) t := by
  obtain ⟨hnow, hlater, hidle | hstart⟩ := tickStep_cases hok hstep
  · obtain ⟨rfl, -⟩ := hidle
    exact ⟨hretries.ids, hretries.attempt, hretries.used, hretries.distinct, hretries.opened⟩
  · obtain ⟨start, -, hstart, hstarted⟩ := hstart
    exact hretries.start hok hnow hlater hstart hstarted

/-- The end of a run keeps its number and its slot. -/
theorem RetryOk.finish {status : JobStatus} {endedAt : Time}
    (hok : CronOk job (s.history job) s.forget) (hretries : RetryOk job (s.history job) s)
    (hstep : finishStep job status endedAt s = some t) : RetryOk job (t.history job) t := by
  cases hopen : s.openRun with
  | none =>
    unfold finishStep at hstep
    rw [hopen] at hstep
    cases hstep
  | some run =>
    have hfinished := finished_of_step hok hopen hstep
    obtain ⟨⟨old, hlast⟩, -, -⟩ := hok.opened run hopen
    have hslots : retrySlots t = retrySlots s := by
      unfold retrySlots
      rw [hfinished.starts]
    refine ⟨?_, ?_, ?_, ?_, ?_⟩
    · rw [hfinished.nextJobId]
      exact hretries.ids
    · intro new newStatus hnew
      rw [hfinished.attempt] at hnew
      obtain ⟨rfl, rfl⟩ := Prod.mk.inj (Option.some.inj hnew)
      exact hretries.attempt run old hlast
    · intro slot hmem
      rw [hslots] at hmem
      obtain ⟨run', status', hlast', hid⟩ := hretries.used slot hmem
      rw [hlast] at hlast'
      obtain ⟨rfl, rfl⟩ := Prod.mk.inj (Option.some.inj hlast')
      exact ⟨_, _, hfinished.attempt, hid⟩
    · rw [hslots]
      exact hretries.distinct
    · intro run' hopen'
      rw [hfinished.closed] at hopen'
      cases hopen'

/-- A run by hand is no attempt of the scheduler. -/
theorem RetryOk.byHand {endedAt : Time} {status : JobStatus} {dryRun : Bool}
    (hretries : RetryOk job (s.history job) s) (hhand : ByHand job s t endedAt status dryRun) :
    RetryOk job (t.history job) t := by
  have hslots : retrySlots t = retrySlots s := by
    unfold retrySlots
    rw [hhand.starts]
  refine ⟨?_, ?_, ?_, ?_, ?_⟩
  · rw [hhand.nextJobId]
    exact Nat.succ_pos _
  · rw [hhand.attempt]
    exact hretries.attempt
  · rw [hhand.attempt, hslots]
    exact hretries.used
  · rw [hslots]
    exact hretries.distinct
  · intro run hopen
    rw [hhand.closed.2] at hopen
    cases hopen

/-- What another definition reports changes nothing here. -/
theorem elsewhere_history {report : ScheduleReport}
    (hstep : cronStep job s (.elsewhere report) = some t) :
    t.history job = s.history job ∧ t.nextJobId = s.nextJobId ∧ t.openRun = s.openRun ∧
      t.starts = s.starts := by
  have hstep : (if strip report.definitionId ≠ job.definitionId then
      some { s with schedule := recordSchedule report s.schedule } else none) = some t := hstep
  split_ifs at hstep with hother
  obtain rfl := Option.some.inj hstep
  have hsame := historyOf_other report job.definitionId (Or.inl hother) s.schedule
  refine ⟨?_, rfl, rfl, rfl⟩
  rw [history_mk, hsame]
  rfl

/-- **The step lemma.** -/
theorem RetryOk.step (hok : CronOk job (s.history job) s.forget)
    (hretries : RetryOk job (s.history job) s) (hstep : cronStep job s a = some t) :
    RetryOk job (t.history job) t := by
  cases a with
  | tick settings now startedAt taken => exact hretries.tick hok hstep
  | finish status endedAt => exact hretries.finish hok hstep
  | byHand startedAt endedAt status trigger dryRun =>
    exact hretries.byHand (byHand_of_step hok hstep)
  | elsewhere report =>
    obtain ⟨hhistory, hid, hopen, hstarts⟩ := elsewhere_history hstep
    have hslots : retrySlots t = retrySlots s := by
      unfold retrySlots
      rw [hstarts]
    rw [hhistory]
    refine ⟨?_, hretries.attempt, ?_, ?_, ?_⟩
    · rw [hid]
      exact hretries.ids
    · rw [hslots]
      exact hretries.used
    · rw [hslots]
      exact hretries.distinct
    · rw [hopen, hstarts]
      exact hretries.opened

theorem retryOk_run {clock : Time} (hclock : 0 < clock) {as : List CronAction}
    (hrun : Run (Steps (cronStep job)) (cronStart clock) as s) :
    CronOk job (s.history job) s.forget ∧ RetryOk job (s.history job) s := by
  apply hrun.preserves fun s => CronOk job (s.history job) s.forget ∧ RetryOk job (s.history job) s
  · rintro s a t ⟨hok, hretries⟩ hstep
    exact ⟨forget_step hok hstep, hretries.step hok hstep⟩
  · exact ⟨(cronOk_start job hclock).forget, retryOk_start job clock⟩

/-- The slot of the next retry is not the slot of the attempt that it repeats. -/
theorem RetryOk.slot_ne (hretries : RetryOk job (s.history job) s)
    (hfailed : FailedLast (s.history job)) :
    retrySlot job (s.history job) ≠ (s.history job).previousSlot := by
  obtain ⟨run, status, hlast, -, -⟩ := hfailed.attempt
  obtain ⟨hid, hslot⟩ := hretries.attempt run status hlast
  rw [retrySlot_eq job hlast hid, previousSlot_eq hlast]
  intro hsame
  rcases hslot with ⟨u, hu⟩ | ⟨id, hlt, hu⟩
  · rw [hu, Option.getD_some] at hsame
    exact retryText_ne_slotKey job run.jobId u hsame
  · rw [hu, Option.getD_some] at hsame
    exact hlt.ne' (retryText_inj hsame)

end Kept

/-! ### After a failed retry -/

/-- A retry has failed at `since`, and nothing has been started since, nor succeeded. -/
structure Waiting (job : CronJob) (run : ScheduledRun) (since : Time) (s : CronState) : Prop where
  ok : CronOk job (s.history job) s.forget
  closed : s.openRun = none
  attempt : ∃ status, status ≠ .ok ∧
    (s.history job).lastAttempt = some ({ run with recordedAt := since }, status)
  newer : (s.history job).successAt.getD 0 < since
  numbered : run.jobId ≠ 0
  retried : ∃ id, run.slot = some (retryText job id)

/-- The retry of a run. -/
def retryOf (job : CronJob) (run : ScheduledRun) : CronStart := ⟨retryText job run.jobId, true⟩

section After

variable {job : CronJob} {s t : CronState} {run : ScheduledRun} {since : Time}

theorem Waiting.failed (hwaiting : Waiting job run since s) :
    FailedLast (s.history job) ∧ (s.history job).attemptAt = since := by
  obtain ⟨status, hstatus, hlast⟩ := hwaiting.attempt
  obtain ⟨htrigger, -⟩ := hwaiting.ok.attempt _ status hlast
  have hat := (hwaiting.ok.attemptAt_eq hlast).1
  refine ⟨⟨⟨_, status, hlast, hstatus, Or.inl htrigger⟩, ?_⟩, hat⟩
  rw [hat]
  exact hwaiting.newer

/-- The next retry is started from the end of the delay on. -/
theorem Waiting.tickStart (hwaiting : Waiting job run since s) (c : TickSettings) (now : Time) :
    tickStart job c s now
      = if since + c.retryAfter ≤ now then some (retryOf job run) else none := by
  obtain ⟨hfailed, hat⟩ := hwaiting.failed
  obtain ⟨status, -, hlast⟩ := hwaiting.attempt
  by_cases hlate : since + c.retryAfter ≤ now
  · rw [if_pos hlate]
    have hretry : (s.history job).retryDue job c now = true := by
      rw [retryDue_iff job hfailed, hat]
      exact hlate
    -- the slot of the failed retry is no slot of the schedule
    have hnever : ¬ RepeatedMinute job c (s.history job) now := by
      rintro ⟨first, later, -, -, -, hslot, -⟩
      obtain ⟨id, hid⟩ := hwaiting.retried
      have hprevious : (s.history job).previousSlot = retryText job id := by
        rw [previousSlot_eq hlast]
        show run.slot.getD "" = _
        rw [hid, Option.getD_some]
      exact retryText_ne_slotKey job id later (hprevious.symm.trans hslot.symm)
    rcases evaluateDue_retry hretry with heq | ⟨-, hrepeated⟩
    · have heq : evaluateDue job c (historyOf job.definitionId s.schedule) now = _ := heq
      unfold RcloneSync.tickStart
      rw [heq]
      show some (CronStart.mk (retrySlot job (s.history job)) (decide (_ = _))) = _
      rw [retrySlot_eq job hlast hwaiting.numbered, decide_eq_true rfl]
      rfl
    · exact absurd hrepeated hnever
  · rw [if_neg hlate]
    have hnot : (evaluateDue job c (historyOf job.definitionId s.schedule) now).due = false := by
      apply evaluateDue_backoff hfailed
      rw [hat]
      exact hlate
    unfold RcloneSync.tickStart
    simp only [hnot, Bool.false_eq_true, if_false]

/-- **A step after a failed retry** starts the next one, or leaves it to be started. -/
theorem Waiting.step {a : CronAction} (hwaiting : Waiting job run since s)
    (hstep : cronStep job s a = some t)
    (hhand : ∀ startedAt endedAt trigger, a ≠ .byHand startedAt endedAt .ok trigger false) :
    Waiting job run since t ∧ t.starts = s.starts ∨ t.starts = retryOf job run :: s.starts := by
  have hok := forget_step hwaiting.ok hstep
  obtain ⟨hw, hclosed, hattempt, hnewer, hnumbered, hretried⟩ := hwaiting
  cases a with
  | tick settings now startedAt taken =>
    obtain ⟨-, -, hidle | hstart⟩ := tickStep_cases hw hstep
    · obtain ⟨rfl, -⟩ := hidle
      exact Or.inl ⟨⟨hok, hclosed, hattempt, hnewer, hnumbered, hretried⟩, rfl⟩
    · obtain ⟨start, -, hstart, hstarted⟩ := hstart
      right
      rw [Waiting.tickStart ⟨hw, hclosed, hattempt, hnewer, hnumbered, hretried⟩] at hstart
      by_cases hlate : since + settings.retryAfter ≤ now
      · rw [if_pos hlate] at hstart
        rw [hstarted.starts, ← Option.some.inj hstart]
      · rw [if_neg hlate] at hstart
        cases hstart
  | finish status endedAt =>
    have hstep : finishStep job status endedAt s = some t := hstep
    unfold finishStep at hstep
    rw [hclosed] at hstep
    cases hstep
  | byHand startedAt endedAt status trigger dryRun =>
    have hdone := byHand_of_step hw hstep
    have hnot : ¬ (status = .ok ∧ dryRun = false) := by
      rintro ⟨rfl, rfl⟩
      exact hhand startedAt endedAt trigger rfl
    refine Or.inl ⟨⟨hok, hdone.closed.2, ?_, ?_, hnumbered, hretried⟩, hdone.starts⟩
    · rw [hdone.attempt]
      exact hattempt
    · rw [hdone.success, if_neg hnot]
      exact hnewer
  | elsewhere report =>
    obtain ⟨hhistory, -, hopen, hstarts⟩ := elsewhere_history hstep
    refine Or.inl ⟨⟨hok, ?_, ?_, ?_, hnumbered, hretried⟩, hstarts⟩
    · rw [hopen]
      exact hclosed
    · rw [hhistory]
      exact hattempt
    · rw [hhistory]
      exact hnewer

/-- Starts are only added. -/
theorem starts_suffix {a : CronAction} (hok : CronOk job (s.history job) s.forget)
    (hstep : cronStep job s a = some t) : s.starts <:+ t.starts := by
  cases a with
  | tick settings now startedAt taken =>
    obtain ⟨-, -, hidle | hstart⟩ := tickStep_cases hok hstep
    · obtain ⟨rfl, -⟩ := hidle
      exact List.suffix_refl _
    · obtain ⟨start, -, -, hstarted⟩ := hstart
      rw [hstarted.starts]
      exact List.suffix_cons start _
  | finish status endedAt =>
    cases hopen : s.openRun with
    | none =>
      have hstep : finishStep job status endedAt s = some t := hstep
      unfold finishStep at hstep
      rw [hopen] at hstep
      cases hstep
    | some run => rw [(finished_of_step hok hopen hstep).starts]
  | byHand startedAt endedAt status trigger dryRun => rw [(byHand_of_step hok hstep).starts]
  | elsewhere report => rw [(elsewhere_history hstep).2.2.2]

theorem starts_suffix_run {as : List CronAction} (hok : CronOk job (s.history job) s.forget)
    (hrun : Run (Steps (cronStep job)) s as t) : s.starts <:+ t.starts := by
  induction hrun with
  | nil s => exact List.suffix_refl _
  | cons hstep _ ih => exact (starts_suffix hok hstep).trans (ih (forget_step hok hstep))

/-- **A run after a failed retry** has started the next one, or waits for it. -/
theorem Waiting.kept {as : List CronAction} (hwaiting : Waiting job run since s)
    (hrun : Run (Steps (cronStep job)) s as t)
    (hhand : ∀ startedAt endedAt trigger, .byHand startedAt endedAt .ok trigger false ∉ as) :
    Waiting job run since t ∧ t.starts = s.starts ∨
      (retryOf job run :: s.starts) <:+ t.starts := by
  induction hrun with
  | nil s => exact Or.inl ⟨hwaiting, rfl⟩
  | cons hstep hrest ih =>
    have hok := forget_step hwaiting.ok hstep
    rcases hwaiting.step hstep (fun startedAt endedAt trigger ha =>
      hhand startedAt endedAt trigger (ha ▸ List.mem_cons_self)) with ⟨hstill, hstarts⟩ | hstarts
    · rw [← hstarts]
      exact ih hstill fun startedAt endedAt trigger hmem =>
        hhand startedAt endedAt trigger (List.mem_cons_of_mem _ hmem)
    · right
      rw [← hstarts]
      exact starts_suffix_run hok hrest

/-- The end of a retry that did not succeed. -/
theorem Waiting.of_finish {status : JobStatus} {endedAt : Time} {start : CronStart}
    {rest : List CronStart} (hok : CronOk job (s.history job) s.forget)
    (hretries : RetryOk job (s.history job) s) (hstarts : s.starts = start :: rest)
    (hretry : start.retry = true) (hstatus : status ≠ .ok)
    (hstep : finishStep job status endedAt s = some t) :
    ∃ run, Waiting job run endedAt t ∧ t.starts = s.starts ∧
      retryText job run.jobId ≠ start.slot := by
  cases hopen : s.openRun with
  | none =>
    unfold finishStep at hstep
    rw [hopen] at hstep
    cases hstep
  | some run =>
    have hfinished := finished_of_step hok hopen hstep
    obtain ⟨⟨old, hlast⟩, -, -⟩ := hok.opened run hopen
    obtain ⟨-, -, hle, hrecorded, -⟩ := hok.attempt run old hlast
    obtain ⟨hid, -⟩ := hretries.attempt run old hlast
    obtain ⟨hnewer, start', rest', hstarts', hslot⟩ := hretries.opened run hopen
    rw [hstarts] at hstarts'
    obtain ⟨rfl, rfl⟩ := List.cons.inj hstarts'
    have hmem : start.slot ∈ retrySlots s := by
      unfold retrySlots
      rw [hstarts, List.filter_cons, if_pos hretry]
      exact List.mem_cons_self
    obtain ⟨run', status', hlast', id, hlt, htext⟩ := hretries.used _ hmem
    rw [hlast] at hlast'
    obtain ⟨rfl, rfl⟩ := Prod.mk.inj (Option.some.inj hlast')
    refine ⟨run, ⟨forget_step (a := .finish status endedAt) hok hstep, hfinished.closed,
      ⟨status, hstatus, hfinished.attempt⟩, ?_, hid, id, hslot.trans (congrArg some htext)⟩,
      hfinished.starts, ?_⟩
    · have hsame : (t.history job).successAt = (s.history job).successAt := by
        unfold JobHistory.successAt
        rw [hfinished.success, if_neg hstatus]
      rw [hsame]
      exact hnewer.trans_le ((hle.trans hrecorded).trans hfinished.later)
    · rw [htext]
      exact fun hsame => hlt.ne' (retryText_inj hsame)

end After

/-! ### Main result -/

/-- **Retries.**  A failed attempt is retried from the delay's end on, and not before, except in
the repeated minute of its slot.  In every run the slot of a retry is not that of the attempt
which it repeats, and no slot of a retry is started twice; and a retry that fails is followed by
another one: unless a run by hand succeeds, every tick that finds the job free starts it from
the end of the delay on. -/
theorem retry_backoff (job : CronJob) :
    (∀ (c : TickSettings) (h : JobHistory) (now : Time), FailedLast h →
      ((evaluateDue job c h now).due = true → h.attemptAt + c.retryAfter ≤ now ∧
        (evaluateDue job c h now).reason = some "retry_after_failure" ∧
        (evaluateDue job c h now).scheduledSlot = some (retrySlot job h)) ∧
      (h.attemptAt + c.retryAfter ≤ now → ¬ RepeatedMinute job c h now →
        (evaluateDue job c h now).due = true)) ∧
    ∀ (clock : Time) (as : List CronAction) (s : CronState), 0 < clock →
      Run (Steps (cronStep job)) (cronStart clock) as s →
      (FailedLast (s.history job) →
        retrySlot job (s.history job) ≠ (s.history job).previousSlot) ∧
      (retrySlots s).Nodup ∧
      ∀ (start : CronStart) (rest : List CronStart), s.starts = start :: rest →
        start.retry = true →
      ∀ (status : JobStatus) (endedAt : Time) (t : CronState), status ≠ .ok →
        cronStep job s (.finish status endedAt) = some t →
      ∃ again : CronStart, again.retry = true ∧ again.slot ≠ start.slot ∧
        ∀ (bs : List CronAction) (u : CronState), Run (Steps (cronStep job)) t bs u →
          (∀ startedAt endedAt trigger, .byHand startedAt endedAt .ok trigger false ∉ bs) →
          (again :: s.starts) <:+ u.starts ∨
          u.starts = s.starts ∧ ∀ (c : TickSettings) (now startedAt : Time) (v : CronState),
            cronStep job u (.tick c now startedAt true) = some v →
            v.starts = if endedAt + c.retryAfter ≤ now then again :: u.starts else u.starts := by
  constructor
  · intro c h now hfailed
    constructor
    · intro hdue
      by_cases hlate : h.attemptAt + c.retryAfter ≤ now
      · rcases evaluateDue_retry ((retryDue_iff job hfailed).mpr hlate) with
          heq | ⟨hnot, -⟩
        · rw [heq]
          exact ⟨hlate, rfl, rfl⟩
        · rw [hnot] at hdue
          cases hdue
      · rw [evaluateDue_backoff hfailed hlate] at hdue
        cases hdue
    · intro hlate hpassed
      rcases evaluateDue_retry ((retryDue_iff job hfailed).mpr hlate) with
        heq | ⟨-, hrepeated⟩
      · rw [heq]
      · exact absurd hrepeated hpassed
  · intro clock as s hclock hrun
    obtain ⟨hok, hretries⟩ := retryOk_run hclock hrun
    refine ⟨hretries.slot_ne, hretries.distinct, ?_⟩
    intro start rest hstarts hretry status endedAt t hstatus hstep
    obtain ⟨run, hwaiting, hsame, hother⟩ :=
      Waiting.of_finish hok hretries hstarts hretry hstatus hstep
    refine ⟨retryOf job run, rfl, hother, ?_⟩
    intro bs u hlater hhand
    rw [← hsame]
    rcases hwaiting.kept hlater hhand with ⟨hstill, hkept⟩ | hstarted
    · refine Or.inr ⟨hkept, ?_⟩
      intro c now startedAt v htick
      have hdecides := hstill.tickStart c now
      obtain ⟨-, -, ⟨rfl, hidle⟩ | ⟨new, -, hnew, hstarted⟩⟩ := tickStep_cases hstill.ok htick
      · rw [hidle rfl hstill.closed] at hdecides
        by_cases hlate : endedAt + c.retryAfter ≤ now
        · rw [if_pos hlate] at hdecides
          cases hdecides
        · rw [if_neg hlate]
      · rw [hnew] at hdecides
        by_cases hlate : endedAt + c.retryAfter ≤ now
        · rw [if_pos hlate] at hdecides ⊢
          rw [hstarted.starts, Option.some.inj hdecides]
        · rw [if_neg hlate] at hdecides
          cases hdecides
    · exact Or.inl hstarted

/-! ### The half hours -/

/-- The run of 03:00 ends badly. -/
def threeFailed : CronState :=
  ⟨[⟨"photos", "Photos", some (threeOClock 1792893620000000, .error), none, 1792893620000000⟩],
    2, 1792893620000000, none, threeStarts⟩

def failAt (minute : Int) : CronAction :=
  .finish .error (fallBackMidnight + minute * 60000000 + 20000000)

/-- An hour later the run of 03:00 is retried, and so is its retry. -/
theorem retry_backoff_half_hours :
    (evaluateDue halfHourly ⟨60, 15, false⟩ (threeFailed.history halfHourly)
      1792897265000000).due = true ∧
    ∃ again t v, again.slot ≠ "retry|jobdef:id:photos|1" ∧
      cronStep halfHourly t (tickAt 370) = some v ∧ v.starts = again :: t.starts := by
  obtain ⟨hdecision, hruns⟩ := retry_backoff halfHourly
  constructor
  · have hfailed : FailedLast (threeFailed.history halfHourly) :=
      ⟨⟨threeOClock 1792893620000000, .error, by decide, by decide, Or.inl rfl⟩, by decide⟩
    refine (hdecision ⟨60, 15, false⟩ _ 1792897265000000 hfailed).2 (by decide) ?_
    -- 03:00 does not come again
    rintro ⟨first, later, -, -, ⟨t, rfl⟩, hslot, hnow⟩
    have hthree : (threeFailed.history halfHourly).previousSlot
        = slotKey halfHourly 1792893600000000 := by decide
    have hsame : berlinMinute (halfHourAfter t) = berlinMinute 1792893600000000 :=
      berlinTime_inj (slotKey_eq_iff.mp (hslot.trans hthree))
    have hnow : (1792897265000000 : Int) < halfHourAfter t + 60000000 := hnow
    unfold berlinMinute fallBackAt fallBackMidnight at hsame
    split_ifs at hsame <;> omega
  · have hall : ((runAll (cronStep halfHourly) (cronStart fallBackMidnight)
        [tickAt 240, failAt 240, tickAt 301]).bind fun s =>
          (cronStep halfHourly s (failAt 301)).bind fun t =>
            (cronStep halfHourly t (tickAt 370)).map fun _ => (s.starts, t.starts))
        = some (⟨"retry|jobdef:id:photos|1", true⟩ :: threeStarts,
          ⟨"retry|jobdef:id:photos|1", true⟩ :: threeStarts) := by decide
    obtain ⟨s, hrun, hall⟩ := Option.bind_eq_some_iff.mp hall
    obtain ⟨t, hfinish, hall⟩ := Option.bind_eq_some_iff.mp hall
    obtain ⟨v, htick, hpair⟩ := Option.map_eq_some_iff.mp hall
    obtain ⟨hstarts, hkept⟩ := Prod.mk.inj hpair
    obtain ⟨-, -, hretries⟩ := hruns fallBackMidnight _ s (by decide) (run_of_runAll hrun)
    obtain ⟨again, -, hother, hlater⟩ := hretries _ _ hstarts rfl _ _ t (by decide) hfinish
    refine ⟨again, t, v, hother, htick, ?_⟩
    have hafter := hlater [] t (.nil t) fun _ _ _ hmem => absurd hmem List.not_mem_nil
    rcases hafter with hdone | ⟨-, htwo⟩
    · have hlength := hdone.length_le
      rw [hstarts, hkept] at hlength
      exact absurd hlength (Nat.not_succ_le_self _)
    · rw [htwo _ _ _ _ htick]
      exact if_pos (by decide)

end RcloneSync
