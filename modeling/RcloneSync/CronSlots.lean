/-
RcloneSync/CronSlots.lean

When the scheduler starts a job definition, and under which slot key: `_due_slot` and
`_evaluate_due` of `app/jobs/scheduler.py`, the state they read
(`job_definition_schedule_state`, written by `recordSchedule`), and the ticks of
`app/jobs/scheduler_cli.py` over it.

The cron library and the time zone database are parameters: `next` and `prev` are
`get_next` and `get_prev`, and `wallTime` is the local time as `strftime` shows it to the
minute.  A slot key leaves out which pass of a repeated hour an occurrence belongs to, so
the two passes of a wall-clock minute have one key.  Points in time are microseconds.

The history of a definition holds no summary and no pair result, so the slot of the last
attempt is the one in its own column.
-/
import RcloneSync.JobStore
import RcloneSync.Runs

namespace RcloneSync

open Py Runs

/-- Microseconds in a number of ofSeconds. -/
def ofSeconds (n : Int) : Time := n * 1000000

/-! ### The schedule of a job definition -/

/-- A job definition with a schedule, and what the cron library and the time zone say
about it. -/
structure CronJob where
  definitionId : String
  definitionName : String
  schedule : String
  timezone : String
  /-- `_is_valid_schedule(schedule)` -/
  valid : Bool
  next : Time → Time
  prev : Time → Time
  wallTime : Time → String
  id_trimmed : strip definitionId = definitionId
  id_ne : definitionId ≠ ""
  next_gt : ∀ t, t < next t
  /-- a clock set back once shows a minute twice, not three times -/
  wall_twice : ∀ t, 0 < t → wallTime (next t) = wallTime t →
    wallTime (next (next t)) ≠ wallTime t
  wall_trimmed : ∀ t, strip (wallTime t) = wallTime t
  wall_ne : ∀ t, wallTime t ≠ ""

/-- `" ".join(text.split())`. -/
def joinedWords (text : String) : String :=
  join " " (((text.toList.splitOnP isSpace).filter (· ≠ [])).map String.ofList)

/-- `_slot_key`. -/
def slotKey (job : CronJob) (occurrence : Time) : String :=
  "v1|" ++ job.timezone ++ "|" ++ joinedWords job.schedule ++ "|" ++ job.wallTime occurrence

/-- `definition_history_key`. -/
def definitionHistoryKey (job : CronJob) : String := "jobdef:id:" ++ strip job.definitionId

/-- What a tick reads from the settings; they may change between two ticks. -/
structure TickSettings where
  retryMinutes : Int
  graceMinutes : Int
  runOnFirstTick : Bool

/-- `retry_sec` of `find_due_jobs`. -/
def TickSettings.retryAfter (c : TickSettings) : Time :=
  ofSeconds (max 1 (min c.retryMinutes 10080) * 60)

/-- `_due_slot`: whether the schedule is due, for which slot, and the occurrence looked at. -/
def dueSlot (job : CronJob) (c : TickSettings) (lastRun : Option Time) (now : Time) :
    Bool × Option String × Option Time :=
  if !job.valid then (false, none, none)
  else
    let occurrence :=
      match lastRun with
      | none => job.prev (now + ofSeconds 1)
      | some last => job.next last
    let due : Bool :=
      match lastRun with
      | none => c.runOnFirstTick ||
          (0 ≤ now - occurrence && now - occurrence ≤ ofSeconds (max 1 c.graceMinutes * 60))
      | some _ => decide (occurrence ≤ now)
    if due then (true, some (slotKey job occurrence), some occurrence)
    else (false, none, some occurrence)

/-! ### The history of a definition -/

/-- `last_result` and `last_success` of a definition. -/
structure JobHistory where
  lastAttempt : Option (ScheduledRun × JobStatus)
  lastSuccess : Option ScheduledRun

/-- The history in a row. -/
def rowHistory : Option ScheduleState → JobHistory
  | none => ⟨none, none⟩
  | some row => ⟨row.lastAttempt, row.lastSuccess⟩

/-- `job_definition_schedule_state` for one definition. -/
def historyOf (definitionId : String) (schedule : List ScheduleState) : JobHistory :=
  rowHistory (Tables.find ScheduleState.definitionId schedule definitionId)

/-- `last_success` of `_evaluate_due`: the end of the last success. -/
def JobHistory.successAt (h : JobHistory) : Option Time :=
  h.lastSuccess.bind fun run => if run.recordedAt = 0 then none else some run.recordedAt

/-- `attempt_ts`: `ended_at or started_at or 0`. -/
def JobHistory.attemptAt (h : JobHistory) : Time :=
  match h.lastAttempt with
  | none => 0
  | some (run, _) => if run.recordedAt = 0 then run.startedAt else run.recordedAt

/-- `previous_slot`. -/
def JobHistory.previousSlot (h : JobHistory) : String :=
  match h.lastAttempt with
  | none => ""
  | some (run, _) => run.slot.getD ""

/-- `scheduled_failure`. -/
def JobHistory.scheduledFailure (job : CronJob) (h : JobHistory) : Bool :=
  match h.lastAttempt with
  | none => false
  | some (run, status) =>
    status ≠ .ok &&
      (run.trigger = "scheduler" || (job.definitionId ≠ "" && run.slot.getD "" ≠ "")) &&
      h.successAt.getD 0 < h.attemptAt

/-- `retry_due`. -/
def JobHistory.retryDue (job : CronJob) (c : TickSettings) (h : JobHistory) (now : Time) : Bool :=
  h.scheduledFailure job && c.retryAfter ≤ now - h.attemptAt

/-! ### The due decision -/

/-- The state of the scan over the occurrences of a repeated slot. -/
structure RepeatScan where
  repeated : Bool
  latest : Time
  nextDistinct : Time

/-- The scan of `_evaluate_due`: skip what shows the same slot, at most `n` times. -/
def scanRepeats (job : CronJob) (slot : String) : Nat → RepeatScan → RepeatScan
  | 0, scan => scan
  | n + 1, scan =>
    if slotKey job scan.nextDistinct ≠ slot then scan
    else scanRepeats job slot n ⟨true, scan.nextDistinct, job.next scan.nextDistinct⟩

/-- The scan that starts at the occurrence the slot is due for. -/
def distinctAfter (job : CronJob) (slot : String) (occurrence : Time) : RepeatScan :=
  scanRepeats job slot 3 ⟨false, occurrence, job.next occurrence⟩

/-- What `_evaluate_due` returns. -/
structure DueStatus where
  due : Bool
  lastRun : Option Time
  lastAttempt : Option Time := none
  scheduledAt : Option Time := none
  scheduledSlot : Option String := none
  reason : Option String := none
  retryAt : Option Time := none

/-- `f"{attempt_ts:.6f}"`. -/
def fixedSix (t : Time) : String :=
  let digits := toString (t.natAbs % 1000000)
  (if t < 0 then "-" else "") ++ toString (t.natAbs / 1000000) ++ "."
    ++ String.ofList (List.replicate (6 - digits.length) '0') ++ digits

/-- The slot of a retry. -/
def retrySlot (job : CronJob) (h : JobHistory) : String :=
  let source :=
    match h.lastAttempt with
    | some (run, _) => if run.jobId = 0 then fixedSix h.attemptAt else toString run.jobId
    | none => fixedSix h.attemptAt
  "retry|" ++ definitionHistoryKey job ++ "|" ++ source

/-- The end of `_evaluate_due`, where a retry goes before the schedule. -/
def concludeDue (job : CronJob) (c : TickSettings) (h : JobHistory) (now : Time)
    (scheduleDue : Bool) (scheduledAt : Option Time) (slot : Option String) : DueStatus :=
  if h.retryDue job c now then
    { due := true
      lastRun := h.successAt
      lastAttempt := some h.attemptAt
      scheduledSlot := some (retrySlot job h)
      reason := some "retry_after_failure" }
  else
    { due := scheduleDue
      lastRun := h.successAt
      scheduledAt := scheduledAt
      scheduledSlot := slot
      reason := if h.successAt = none ∧ scheduleDue = false then
        some "waiting_for_first_schedule" else none }

/-- `duplicate_slot`. -/
def duplicateSlot (h : JobHistory) : Bool × Option String × Option Time → Bool
  | (scheduleDue, some slot, some occurrence) =>
    scheduleDue && slot ≠ "" && h.previousSlot = slot && h.attemptAt ≠ 0 && occurrence ≠ 0
  | _ => false

/-- `_evaluate_due`. -/
def evaluateDue (job : CronJob) (c : TickSettings) (h : JobHistory) (now : Time) : DueStatus :=
  if h.scheduledFailure job && !h.retryDue job c now then
    { due := false
      lastRun := h.successAt
      lastAttempt := some h.attemptAt
      reason := some "retry_backoff"
      retryAt := some (h.attemptAt + c.retryAfter) }
  else
    let slotDue := dueSlot job c h.successAt now
    if duplicateSlot h slotDue then
      let slot := slotDue.2.1.getD ""
      let scan := distinctAfter job slot (slotDue.2.2.getD 0)
      if h.retryDue job c now &&
          (!scan.repeated || decide (scan.latest + ofSeconds 60 ≤ now)) then
        concludeDue job c h now false slotDue.2.2 slotDue.2.1
      else if now < scan.nextDistinct then
        { due := false
          lastRun := h.successAt
          lastAttempt := some h.attemptAt
          scheduledAt := slotDue.2.2
          scheduledSlot := slotDue.2.1
          reason := some "slot_already_attempted" }
      else
        concludeDue job c h now true (some scan.nextDistinct)
          (some (slotKey job scan.nextDistinct))
    else concludeDue job c h now slotDue.1 slotDue.2.2 slotDue.2.1

/-! ### Ticks and runs -/

/-- A start of the job by the scheduler. -/
structure CronStart where
  slot : String
  retry : Bool
  deriving DecidableEq, Repr

/-- The state a sequence of ticks works on.  `openRun` is the scheduler's run that has
not ended; `starts` records its starts, the last one in front. -/
structure CronState where
  schedule : List ScheduleState
  nextJobId : Nat
  clock : Time
  openRun : Option ScheduledRun
  starts : List CronStart
  deriving DecidableEq, Repr

/-- Nothing is known of the definition yet. -/
def cronStart (clock : Time) : CronState := ⟨[], 1, clock, none, []⟩

/-- A tick decides at `now`, and starts the job at `startedAt`, after the other jobs of its
batch; it may also leave a due job alone, as where the scheduler is paused, the lock is
held or the batch was cancelled.  A run ends by its own finish or is marked stale by a
reconciliation.  Runs by hand and other definitions write to the same table. -/
inductive CronAction
  | tick (settings : TickSettings) (now startedAt : Time) (taken : Bool)
  | finish (status : JobStatus) (endedAt : Time)
  | byHand (startedAt endedAt : Time) (status : JobStatus) (trigger : String) (dryRun : Bool)
  | elsewhere (report : ScheduleReport)

/-- The start that a tick would make at `now`. -/
def tickStart (job : CronJob) (c : TickSettings) (s : CronState) (now : Time) :
    Option CronStart :=
  let status := evaluateDue job c (historyOf job.definitionId s.schedule) now
  if status.due then
    some ⟨status.scheduledSlot.getD "", status.reason = some "retry_after_failure"⟩
  else none

/-- What `job_start` reports of a scheduled job. -/
def startReport (job : CronJob) (id : Nat) (startedAt : Time) (slot : String) : ScheduleReport :=
  ⟨job.definitionId, job.definitionName, id, startedAt, none, .running, "scheduler",
    textOrNone slot, false⟩

/-- What the end of a scheduled job reports: its row's definition, trigger and slot. -/
def endReport (job : CronJob) (run : ScheduledRun) (status : JobStatus) (endedAt : Time) :
    ScheduleReport :=
  ⟨job.definitionId, job.definitionName, run.jobId, run.startedAt, some endedAt, status,
    "scheduler", run.slot, false⟩

/-- The run of a start report. -/
def newRun (id : Nat) (startedAt : Time) (slot : String) : ScheduledRun :=
  ⟨id, startedAt, startedAt, "scheduler", textOrNone slot⟩

@[simp] theorem newRun_trigger (id : Nat) (startedAt : Time) (slot : String) :
    (newRun id startedAt slot).trigger = "scheduler" := rfl

@[simp] theorem newRun_slot (id : Nat) (startedAt : Time) (slot : String) :
    (newRun id startedAt slot).slot = textOrNone slot := by
  rw [newRun]

/-- A tick. -/
def tickStep (job : CronJob) (c : TickSettings) (now startedAt : Time) (taken : Bool)
    (s : CronState) : Option CronState :=
  if s.clock ≤ now ∧ now ≤ startedAt then
    match if taken ∧ s.openRun = none then tickStart job c s now else none with
    | none => some { s with clock := now }
    | some start => some
      { schedule := recordSchedule (startReport job s.nextJobId startedAt start.slot) s.schedule
        nextJobId := s.nextJobId + 1
        clock := startedAt
        openRun := some (newRun s.nextJobId startedAt start.slot)
        starts := start :: s.starts }
  else none

/-- The end of the open run. -/
def finishStep (job : CronJob) (status : JobStatus) (endedAt : Time) (s : CronState) :
    Option CronState :=
  match s.openRun with
  | none => none
  | some run =>
    if s.clock ≤ endedAt then some { s with
      schedule := recordSchedule (endReport job run status endedAt) s.schedule
      clock := endedAt
      openRun := none }
    else none

/-- What a run by hand reports when it ends. -/
def handReport (job : CronJob) (id : Nat) (startedAt endedAt : Time) (status : JobStatus)
    (trigger : String) (dryRun : Bool) : ScheduleReport :=
  ⟨job.definitionId, job.definitionName, id, startedAt, some endedAt, status, trigger, none,
    dryRun⟩

/-- A run by hand, from start to end: it holds the lock that a tick needs. -/
def byHandStep (job : CronJob) (startedAt endedAt : Time) (status : JobStatus)
    (trigger : String) (dryRun : Bool) (s : CronState) : Option CronState :=
  if s.clock ≤ startedAt ∧ startedAt ≤ endedAt ∧ s.openRun = none ∧
      (textOrNone trigger).getD "manual" ≠ "scheduler" then some
    { s with
      schedule := recordSchedule
        (handReport job s.nextJobId startedAt endedAt status trigger dryRun) s.schedule
      nextJobId := s.nextJobId + 1
      clock := endedAt }
  else none

def cronStep (job : CronJob) (s : CronState) : CronAction → Option CronState
  | .tick settings now startedAt taken => tickStep job settings now startedAt taken s
  | .finish status endedAt => finishStep job status endedAt s
  | .byHand startedAt endedAt status trigger dryRun =>
    byHandStep job startedAt endedAt status trigger dryRun s
  | .elsewhere report =>
    if strip report.definitionId ≠ job.definitionId then
      some { s with schedule := recordSchedule report s.schedule }
    else none

/-- The slots of the starts that are not retries. -/
def scheduleSlots (s : CronState) : List String :=
  (s.starts.filter fun start => !start.retry).map CronStart.slot

/-- The job is ready: its schedule is due, or a failed attempt is due for a retry. -/
def Ready (job : CronJob) (c : TickSettings) (h : JobHistory) (now : Time) : Prop :=
  (dueSlot job c h.successAt now).1 = true ∨ h.retryDue job c now = true

/-- The schedule is due for the first pass of a slot whose second pass is still to come. -/
def BetweenPasses (job : CronJob) (c : TickSettings) (h : JobHistory) (now : Time)
    (slot : String) : Prop :=
  ∃ occurrence, dueSlot job c h.successAt now = (true, some slot, some occurrence) ∧
    occurrence ≠ 0 ∧ slotKey job (job.next occurrence) = slot ∧ now < job.next occurrence

/-- No slot that is still to come again is in the way: if the job is ready while the slot of
an earlier start can come again, that very slot is due and its second pass comes next. -/
def FoldSafe (job : CronJob) (s : CronState) : CronAction → Prop
  | .tick settings now _ true =>
    let h := historyOf job.definitionId s.schedule
    s.openRun = none → Ready job settings h now → ∀ slot ∈ scheduleSlots s,
      (∃ t, now ≤ t ∧ slotKey job (job.next t) = slot) → BetweenPasses job settings h now slot
  | _ => True

/-! ### What the table remembers -/

/-- The run a report is about. -/
def ScheduleReport.run (report : ScheduleReport) : ScheduledRun :=
  ⟨report.jobId, report.startedAt, report.endedAt.getD report.startedAt,
    (textOrNone report.trigger).getD "manual", textOrNone (report.scheduledSlot.getD "")⟩

/-- What a report changes in the history of its definition. -/
def JobHistory.record (run : ScheduledRun) (status : JobStatus) (h : JobHistory) : JobHistory where
  lastAttempt :=
    if run.trigger = "scheduler" ∧ notBefore run (h.lastAttempt.map Prod.fst) then
      some (run, status)
    else h.lastAttempt
  lastSuccess :=
    if status = .ok ∧ notBefore run h.lastSuccess then some run else h.lastSuccess

theorem textOrNone_again (text : String) :
    textOrNone ((textOrNone text).getD "") = textOrNone text := by
  unfold textOrNone
  by_cases h : strip text = ""
  · rw [if_pos h]
    rfl
  · rw [if_neg h, Option.getD_some, strip_idem, if_neg h]

theorem notBefore_none {run : ScheduledRun} (h : 0 ≤ run.startedAt) :
    notBefore run none = true := by
  rcases h.lt_or_eq with h | h
  · simp [notBefore, h]
  · simp [notBefore, ← h]

/-- `recordSchedule`, with the run of the report. -/
theorem recordSchedule_eq (report : ScheduleReport) (schedule : List ScheduleState) :
    recordSchedule report schedule =
      if strip report.definitionId = "" ∨ report.dryRun = true then schedule
      else if (!decide (report.run.trigger = "scheduler") && !decide (report.status = .ok))
          = true then schedule
      else Tables.upsert ScheduleState.definitionId
        ⟨strip report.definitionId, strip report.definitionName,
          if decide (report.run.trigger = "scheduler") = true then
            some (report.run, report.status) else none,
          if decide (report.status = .ok) = true then some report.run else none,
          report.run.recordedAt⟩
        (fun old => { old with
          definitionName := if strip report.definitionName = "" then old.definitionName
            else strip report.definitionName
          updatedAt := max old.updatedAt report.run.recordedAt
          lastAttempt :=
            if (decide (report.run.trigger = "scheduler") &&
                notBefore report.run (old.lastAttempt.map Prod.fst)) = true then
              some (report.run, report.status)
            else old.lastAttempt
          lastSuccess :=
            if (decide (report.status = .ok) && notBefore report.run old.lastSuccess) = true then
              some report.run
            else old.lastSuccess })
        schedule := by
  unfold recordSchedule ScheduleReport.run
  rfl

/-- A report changes the history of its own definition. -/
theorem historyOf_record (report : ScheduleReport) (id : String)
    (hid : strip report.definitionId = id) (hne : id ≠ "") (hreal : report.dryRun = false)
    (schedule : List ScheduleState)
    (hpos : Tables.find ScheduleState.definitionId schedule id = none → 0 ≤ report.startedAt) :
    historyOf id (recordSchedule report schedule)
      = (historyOf id schedule).record report.run report.status := by
  have hrelevant : ¬ (id = "" ∨ report.dryRun = true) := by
    rintro (h | h)
    · exact hne h
    · rw [hreal] at h
      cases h
  have hfirst : Tables.find ScheduleState.definitionId schedule id = none →
      notBefore report.run none = true := fun h => notBefore_none (hpos h)
  rw [recordSchedule_eq, hid, if_neg hrelevant]
  generalize report.run = run at hfirst
  by_cases hneither : (!decide (run.trigger = "scheduler") && !decide (report.status = .ok)) = true
  · rw [if_pos hneither]
    simp only [Bool.and_eq_true, Bool.not_eq_true', decide_eq_false_iff_not] at hneither
    simp only [JobHistory.record, hneither.1, hneither.2, false_and, if_false]
  · rw [if_neg hneither]
    unfold historyOf
    rw [Tables.find_upsert, if_pos rfl]
    · cases hfind : Tables.find ScheduleState.definitionId schedule id with
      | none =>
        simp only [Option.map_none, Option.getD_none, rowHistory, JobHistory.record, hfirst hfind,
          and_true, decide_eq_true_eq]
      | some row =>
        simp only [Option.map_some, Option.getD_some, rowHistory, JobHistory.record,
          Bool.and_eq_true, decide_eq_true_eq]
        congr
    · intro row
      rfl

/-- A report on another definition, or on a dry run, changes nothing here. -/
theorem historyOf_other (report : ScheduleReport) (id : String)
    (h : strip report.definitionId ≠ id ∨ report.dryRun = true) (schedule : List ScheduleState) :
    historyOf id (recordSchedule report schedule) = historyOf id schedule := by
  rw [recordSchedule_eq]
  by_cases hskip : strip report.definitionId = "" ∨ report.dryRun = true
  · rw [if_pos hskip]
  · have hne : id ≠ strip report.definitionId := by
      rcases h with h | h
      · exact h.symm
      · exact absurd (Or.inr h) hskip
    rw [if_neg hskip]
    by_cases hneither : (!decide (report.run.trigger = "scheduler") &&
        !decide (report.status = .ok)) = true
    · rw [if_pos hneither]
    · rw [if_neg hneither]
      unfold historyOf
      rw [Tables.find_upsert, if_neg hne]
      intro row
      rfl

/-- A finish that ends a job writes its report. -/
theorem finishWrite_schedule {row : Job} {status : JobStatus} {summary : Option Dict}
    {now : Time} {s t : JobStore} (h : finishWrite row status summary now s = .ok (true, t)) :
    t.schedule = recordSchedule (finishReport row status (summary.getD []) now) s.schedule := by
  unfold finishWrite at h
  split_ifs at h with hany
  · cases (Prod.mk.inj (Except.ok.inj h)).1
  · obtain ⟨u, hu, h⟩ := bind_ok.mp h
    obtain ⟨-, rfl⟩ := Prod.mk.inj (Except.ok.inj h)
    have hsame : u.schedule = _ :=
      IgnoresRuns.storePairResults (g := JobStore.schedule) (fun _ _ _ => rfl) hu
    simp only [hsame]

/-! ### Slots -/

section Decision

variable {job : CronJob} {c : TickSettings} {h : JobHistory} {now : Time}

/-- A slot key is stored as it is. -/
theorem textOrNone_slotKey (job : CronJob) (t : Time) :
    textOrNone (slotKey job t) = some (slotKey job t) := by
  have hstrip : strip (slotKey job t) = slotKey job t := by
    apply strip_append (c := 'v') _ (by decide) (job.wall_trimmed t) (job.wall_ne t)
    simp
  have hne : slotKey job t ≠ "" := by
    intro hempty
    have hlist := congrArg String.toList hempty
    simp [slotKey] at hlist
  unfold textOrNone
  rw [hstrip, if_neg hne]

theorem slotKey_ne_empty (job : CronJob) (t : Time) : slotKey job t ≠ "" := by
  intro hempty
  have hstored := textOrNone_slotKey job t
  rw [hempty] at hstored
  cases hstored

theorem slotKey_eq_iff {job : CronJob} {t u : Time} :
    slotKey job t = slotKey job u ↔ job.wallTime t = job.wallTime u :=
  String.append_right_inj _

/-- The scan only moves forward, to the occurrence after the last it skipped. -/
theorem scanRepeats_spec (job : CronJob) (slot : String) (n : Nat) (scan : RepeatScan)
    (hnext : scan.nextDistinct = job.next scan.latest) :
    (scanRepeats job slot n scan).nextDistinct = job.next (scanRepeats job slot n scan).latest ∧
      scan.latest ≤ (scanRepeats job slot n scan).latest ∧
      (scan.repeated = true → (scanRepeats job slot n scan).repeated = true) := by
  induction n generalizing scan with
  | zero => exact ⟨hnext, le_refl _, id⟩
  | succ n ih =>
    unfold scanRepeats
    split_ifs with hdistinct
    · exact ⟨hnext, le_refl _, id⟩
    · obtain ⟨hlast, hle, hrepeated⟩ :=
        ih ⟨true, scan.nextDistinct, job.next scan.nextDistinct⟩ rfl
      refine ⟨hlast, ?_, fun _ => hrepeated rfl⟩
      have hstep : scan.latest < scan.nextDistinct := by
        rw [hnext]
        exact job.next_gt _
      exact hstep.le.trans hle

theorem distinctAfter_spec (job : CronJob) (slot : String) (occurrence : Time) :
    (distinctAfter job slot occurrence).nextDistinct
        = job.next (distinctAfter job slot occurrence).latest ∧
      occurrence ≤ (distinctAfter job slot occurrence).latest := by
  obtain ⟨hlast, hle, -⟩ := scanRepeats_spec job slot 3
    ⟨false, occurrence, job.next occurrence⟩ rfl
  exact ⟨hlast, hle⟩

/-- A second pass is seen as one. -/
theorem distinctAfter_repeated {slot : String} {occurrence : Time}
    (hslot : slotKey job (job.next occurrence) = slot) :
    (distinctAfter job slot occurrence).repeated = true ∧
      job.next occurrence ≤ (distinctAfter job slot occurrence).latest := by
  have hscan : distinctAfter job slot occurrence
      = scanRepeats job slot 2 ⟨true, job.next occurrence, job.next (job.next occurrence)⟩ :=
    if_neg (not_not.mpr hslot)
  obtain ⟨-, hle, hrepeated⟩ := scanRepeats_spec job slot 2
    ⟨true, job.next occurrence, job.next (job.next occurrence)⟩ rfl
  rw [hscan]
  exact ⟨hrepeated rfl, hle⟩

/-- The scan ends at another slot. -/
theorem distinctAfter_distinct (job : CronJob) {occurrence : Time} (hpos : 0 < occurrence) :
    slotKey job (distinctAfter job (slotKey job occurrence) occurrence).nextDistinct
      ≠ slotKey job occurrence := by
  by_cases hsame : slotKey job (job.next occurrence) = slotKey job occurrence
  · have hthird : slotKey job (job.next (job.next occurrence)) ≠ slotKey job occurrence := by
      rw [Ne, slotKey_eq_iff]
      exact job.wall_twice occurrence hpos (slotKey_eq_iff.mp hsame)
    have hscan : distinctAfter job (slotKey job occurrence) occurrence
        = ⟨true, job.next occurrence, job.next (job.next occurrence)⟩ :=
      (if_neg (not_not.mpr hsame)).trans (if_pos hthird)
    rw [hscan]
    exact hthird
  · have hscan : distinctAfter job (slotKey job occurrence) occurrence
        = ⟨false, occurrence, job.next occurrence⟩ := if_pos hsame
    rw [hscan]
    exact hsame

theorem dueSlot_cases (job : CronJob) (c : TickSettings) (lastRun : Option Time) (now : Time) :
    (∃ occurrence, dueSlot job c lastRun now = (false, none, occurrence)) ∨
    ∃ occurrence, dueSlot job c lastRun now
        = (true, some (slotKey job occurrence), some occurrence) ∧
      ∀ last, lastRun = some last → occurrence = job.next last := by
  unfold dueSlot
  by_cases hvalid : (!job.valid) = true
  · rw [if_pos hvalid]
    exact Or.inl ⟨none, rfl⟩
  · rw [if_neg hvalid]
    dsimp only
    split_ifs
    · refine Or.inr ⟨_, rfl, ?_⟩
      rintro last rfl
      rfl
    · exact Or.inl ⟨_, rfl⟩

theorem concludeDue_retry (hretry : h.retryDue job c now = true) (scheduleDue : Bool)
    (scheduledAt : Option Time) (slot : Option String) :
    (concludeDue job c h now scheduleDue scheduledAt slot).reason
      = some "retry_after_failure" := by
  unfold concludeDue
  rw [if_pos hretry]

theorem concludeDue_schedule (hretry : h.retryDue job c now = false) (scheduleDue : Bool)
    (scheduledAt : Option Time) (slot : Option String) :
    (concludeDue job c h now scheduleDue scheduledAt slot).due = scheduleDue ∧
      (concludeDue job c h now scheduleDue scheduledAt slot).scheduledSlot = slot ∧
      (concludeDue job c h now scheduleDue scheduledAt slot).reason
        ≠ some "retry_after_failure" := by
  unfold concludeDue
  rw [if_neg (Bool.eq_false_iff.mp hretry)]
  refine ⟨rfl, rfl, ?_⟩
  show (if _ then some "waiting_for_first_schedule" else none) ≠ some "retry_after_failure"
  split_ifs
  · decide
  · exact Option.some_ne_none _ ∘ Eq.symm

/-- A duplicate is a slot that the last attempt has. -/
theorem duplicateSlot_eq {slot : String} {occurrence : Time} :
    duplicateSlot h (true, some slot, some occurrence) = true ↔
      slot ≠ "" ∧ h.previousSlot = slot ∧ h.attemptAt ≠ 0 ∧ occurrence ≠ 0 := by
  simp [duplicateSlot, and_assoc]

/-- **What a due decision can be**: the retry of a failed attempt, a slot the last attempt
does not have, or the slot after the repetitions of the last attempt's. -/
theorem evaluateDue_due (hdue : (evaluateDue job c h now).due = true) :
    (evaluateDue job c h now).reason = some "retry_after_failure" ∧
        h.retryDue job c now = true ∨
    (evaluateDue job c h now).reason ≠ some "retry_after_failure" ∧
      h.scheduledFailure job = false ∧
      ∃ occurrence, dueSlot job c h.successAt now
          = (true, some (slotKey job occurrence), some occurrence) ∧
        (∀ last, h.successAt = some last → occurrence = job.next last) ∧
        (¬ (h.previousSlot = slotKey job occurrence ∧ h.attemptAt ≠ 0 ∧ occurrence ≠ 0) ∧
            (evaluateDue job c h now).scheduledSlot = some (slotKey job occurrence) ∨
          h.previousSlot = slotKey job occurrence ∧
            (distinctAfter job (slotKey job occurrence) occurrence).nextDistinct ≤ now ∧
            (evaluateDue job c h now).scheduledSlot = some (slotKey job
              (distinctAfter job (slotKey job occurrence) occurrence).nextDistinct)) := by
  cases hretry : h.retryDue job c now with
  | true =>
    refine Or.inl ⟨?_, rfl⟩
    unfold evaluateDue at hdue ⊢
    simp only [hretry, Bool.not_true, Bool.and_false, Bool.false_eq_true, if_false,
      Bool.true_and] at hdue ⊢
    split_ifs at hdue ⊢
    · exact concludeDue_retry hretry _ _ _
    · exact concludeDue_retry hretry _ _ _
    · exact concludeDue_retry hretry _ _ _
  | false =>
    refine Or.inr ?_
    cases hfailure : h.scheduledFailure job with
    | true =>
      unfold evaluateDue at hdue
      rw [hfailure, hretry] at hdue
      cases hdue
    | false =>
      rcases dueSlot_cases job c h.successAt now with
        ⟨occurrence, hslot⟩ | ⟨occurrence, hslot, hnext⟩
      · unfold evaluateDue at hdue
        rw [hfailure, hretry, hslot] at hdue
        obtain ⟨hsame, -, -⟩ := concludeDue_schedule hretry false occurrence none
        exact absurd (hsame.symm.trans hdue) (by decide)
      · by_cases hdup : duplicateSlot h (true, some (slotKey job occurrence), some occurrence)
            = true
        · obtain ⟨-, hprevious, -, -⟩ := duplicateSlot_eq.mp hdup
          by_cases hlater :
              now < (distinctAfter job (slotKey job occurrence) occurrence).nextDistinct
          · unfold evaluateDue at hdue
            simp only [hfailure, hretry, hslot, hdup, Option.getD_some, hlater, Bool.false_and,
              Bool.false_eq_true, if_false, if_true] at hdue
          · have hstatus : evaluateDue job c h now = concludeDue job c h now true
                (some (distinctAfter job (slotKey job occurrence) occurrence).nextDistinct)
                (some (slotKey job
                  (distinctAfter job (slotKey job occurrence) occurrence).nextDistinct)) := by
              unfold evaluateDue
              simp only [hfailure, hretry, hslot, hdup, Option.getD_some, hlater,
                Bool.false_and, Bool.false_eq_true, if_false, if_true]
            obtain ⟨-, hscheduled, hreason⟩ := concludeDue_schedule hretry true
              (some (distinctAfter job (slotKey job occurrence) occurrence).nextDistinct)
              (some (slotKey job
                (distinctAfter job (slotKey job occurrence) occurrence).nextDistinct))
            rw [hstatus]
            exact ⟨hreason, rfl, occurrence, hslot, hnext,
              Or.inr ⟨hprevious, not_lt.mp hlater, hscheduled⟩⟩
        · have hstatus : evaluateDue job c h now = concludeDue job c h now true
              (some occurrence) (some (slotKey job occurrence)) := by
            unfold evaluateDue
            simp only [hfailure, hretry, hslot, hdup, Bool.false_and, Bool.false_eq_true,
              if_false]
          obtain ⟨-, hscheduled, hreason⟩ := concludeDue_schedule hretry true (some occurrence)
            (some (slotKey job occurrence))
          rw [hstatus]
          refine ⟨hreason, rfl, occurrence, hslot, hnext, Or.inl ⟨?_, hscheduled⟩⟩
          intro hsame
          exact hdup (duplicateSlot_eq.mpr ⟨slotKey_ne_empty job occurrence, hsame⟩)

/-- Only a ready job is started. -/
theorem ready_of_due (hdue : (evaluateDue job c h now).due = true) : Ready job c h now := by
  rcases evaluateDue_due hdue with ⟨-, hretry⟩ | ⟨-, -, occurrence, hslot, -⟩
  · exact Or.inr hretry
  · refine Or.inl ?_
    rw [hslot]

/-- Between the two passes of the slot of the last attempt nothing is started. -/
theorem not_due_between {slot : String} (hbetween : BetweenPasses job c h now slot)
    (hprevious : h.previousSlot = slot) (hattempt : h.attemptAt ≠ 0) :
    (evaluateDue job c h now).due = false := by
  obtain ⟨occurrence, hslot, hne, hagain, hnow⟩ := hbetween
  obtain ⟨hrepeated, hlatest⟩ := distinctAfter_repeated hagain
  obtain ⟨hlast, -⟩ := distinctAfter_spec job slot occurrence
  have hdup : duplicateSlot h (true, some slot, some occurrence) = true := by
    refine duplicateSlot_eq.mpr ⟨?_, hprevious, hattempt, hne⟩
    rw [← hagain]
    exact slotKey_ne_empty job _
  have hnever : decide ((distinctAfter job slot occurrence).latest + ofSeconds 60 ≤ now)
      = false := by
    have hsixty : (0 : Int) ≤ ofSeconds 60 := by decide
    rw [decide_eq_false_iff_not]
    intro hover
    exact absurd ((le_add_of_nonneg_right hsixty).trans hover)
      (not_le.mpr (hnow.trans_le hlatest))
  have hbefore : now < (distinctAfter job slot occurrence).nextDistinct := by
    rw [hlast]
    exact (hnow.trans_le hlatest).trans (job.next_gt _)
  unfold evaluateDue
  simp only [hslot, hdup, Option.getD_some, hrepeated, hnever, hbefore, Bool.not_true,
    Bool.or_self, Bool.and_false, Bool.false_eq_true, if_false, if_true]
  split_ifs <;> rfl

end Decision

/-! ### What every step keeps -/

/-- The history of the job in a state. -/
def CronState.history (job : CronJob) (s : CronState) : JobHistory :=
  historyOf job.definitionId s.schedule

theorem history_mk (job : CronJob) (schedule : List ScheduleState) (nextJobId : Nat)
    (clock : Time) (openRun : Option ScheduledRun) (starts : List CronStart) :
    CronState.history job ⟨schedule, nextJobId, clock, openRun, starts⟩
      = historyOf job.definitionId schedule := rfl

/-- The state of a job's schedule.  `clear` carries the result: a slot that was started
before the last attempt does not come again after that attempt's start. -/
structure CronOk (job : CronJob) (h : JobHistory) (s : CronState) : Prop where
  clock_pos : 0 < s.clock
  attempt : ∀ run status, h.lastAttempt = some (run, status) → run.trigger = "scheduler" ∧
    0 < run.startedAt ∧ run.startedAt ≤ run.recordedAt ∧ run.recordedAt ≤ s.clock ∧
    run.jobId < s.nextJobId
  success : ∀ won, h.lastSuccess = some won → 0 < won.recordedAt ∧
    won.startedAt ≤ won.recordedAt ∧ won.recordedAt ≤ s.clock ∧ won.jobId < s.nextJobId
  told : ∀ run, h.lastAttempt = some (run, .ok) →
    ∃ won, h.lastSuccess = some won ∧ run.recordedAt ≤ won.recordedAt
  opened : ∀ run, s.openRun = some run → (∃ status, h.lastAttempt = some (run, status)) ∧
    (∃ text, run.slot = textOrNone text) ∧
    ∀ won, h.lastSuccess = some won → won.startedAt ≤ run.startedAt ∧ won.jobId ≤ run.jobId
  started : scheduleSlots s ≠ [] → ∃ run status, h.lastAttempt = some (run, status)
  clear : ∀ run status, h.lastAttempt = some (run, status) → ∀ slot ∈ scheduleSlots s,
    run.slot ≠ some slot → ∀ t, run.startedAt ≤ t → slotKey job (job.next t) ≠ slot
  distinct : (scheduleSlots s).Nodup

theorem cronOk_start (job : CronJob) {clock : Time} (h : 0 < clock) :
    CronOk job ((cronStart clock).history job) (cronStart clock) where
  clock_pos := h
  attempt := nofun
  success := nofun
  told := nofun
  opened := nofun
  started hslots := absurd rfl hslots
  clear := nofun
  distinct := List.nodup_nil

section Steps

variable {job : CronJob} {c : TickSettings} {h : JobHistory} {s : CronState} {now : Time}

theorem CronOk.later (hok : CronOk job h s) {nextJobId : Nat} {clock : Time}
    {schedule : List ScheduleState} (hid : s.nextJobId ≤ nextJobId) (hclock : s.clock ≤ clock) :
    CronOk job h ⟨schedule, nextJobId, clock, s.openRun, s.starts⟩ where
  clock_pos := hok.clock_pos.trans_le hclock
  attempt run status hrun := by
    obtain ⟨htrigger, hpos, hle, hrecorded, hjob⟩ := hok.attempt run status hrun
    exact ⟨htrigger, hpos, hle, hrecorded.trans hclock, hjob.trans_le hid⟩
  success won hwon := by
    obtain ⟨hpos, hle, hrecorded, hjob⟩ := hok.success won hwon
    exact ⟨hpos, hle, hrecorded.trans hclock, hjob.trans_le hid⟩
  told := hok.told
  opened := hok.opened
  started := hok.started
  clear := hok.clear
  distinct := hok.distinct

/-- The end of the last success, as the due decision reads it. -/
theorem CronOk.successAt_eq (hok : CronOk job h s) :
    h.successAt = h.lastSuccess.map ScheduledRun.recordedAt := by
  unfold JobHistory.successAt
  cases hwon : h.lastSuccess with
  | none => rfl
  | some won =>
    have hpos := (hok.success won hwon).1
    show (if won.recordedAt = 0 then none else some won.recordedAt) = some won.recordedAt
    rw [if_neg hpos.ne']

theorem CronOk.attemptAt_eq (hok : CronOk job h s) {run : ScheduledRun} {status : JobStatus}
    (hrun : h.lastAttempt = some (run, status)) :
    h.attemptAt = run.recordedAt ∧ h.attemptAt ≠ 0 := by
  obtain ⟨-, hpos, hle, -⟩ := hok.attempt run status hrun
  have hne : run.recordedAt ≠ 0 := (hpos.trans_le hle).ne'
  have hat : h.attemptAt = run.recordedAt := by
    simp only [JobHistory.attemptAt, hrun, if_neg hne]
  exact ⟨hat, hat ▸ hne⟩

theorem previousSlot_eq {run : ScheduledRun} {status : JobStatus}
    (hrun : h.lastAttempt = some (run, status)) : h.previousSlot = run.slot.getD "" := by
  simp only [JobHistory.previousSlot, hrun]

/-- An attempt that started after the last success has failed, as the scheduler sees it. -/
theorem CronOk.failure_of_late (hok : CronOk job h s) {run : ScheduledRun} {status : JobStatus}
    (hrun : h.lastAttempt = some (run, status))
    (hlate : ∀ won, h.lastSuccess = some won → won.recordedAt < run.startedAt) :
    h.scheduledFailure job = true := by
  obtain ⟨htrigger, hpos, hle, -⟩ := hok.attempt run status hrun
  obtain ⟨hat, -⟩ := hok.attemptAt_eq hrun
  have hstatus : status ≠ .ok := by
    rintro rfl
    obtain ⟨won, hwon, htold⟩ := hok.told run hrun
    exact absurd (htold.trans_lt (hlate won hwon)) (not_lt.mpr hle)
  have hafter : h.successAt.getD 0 < h.attemptAt := by
    rw [hok.successAt_eq, hat]
    cases hwon : h.lastSuccess with
    | none => exact hpos.trans_le hle
    | some won => exact (hlate won hwon).trans_le hle
  simp [JobHistory.scheduledFailure, hrun, hstatus, htrigger, hafter]

/-- **At a start no slot of an earlier start is still to come again.** -/
theorem CronOk.clear_at_start (hok : CronOk job h s) (hnow : s.clock ≤ now)
    (hsafe : Ready job c h now → ∀ slot ∈ scheduleSlots s,
      (∃ t, now ≤ t ∧ slotKey job (job.next t) = slot) → BetweenPasses job c h now slot)
    (hdue : (evaluateDue job c h now).due = true) {slot : String} (hslot : slot ∈ scheduleSlots s)
    {t : Time} (ht : now ≤ t) : slotKey job (job.next t) ≠ slot := by
  intro hagain
  obtain ⟨run, status, hrun⟩ := hok.started (List.ne_nil_of_mem hslot)
  obtain ⟨-, -, hle, hrecorded, -⟩ := hok.attempt run status hrun
  by_cases hlast : run.slot = some slot
  · have hprevious : h.previousSlot = slot := by
      rw [previousSlot_eq hrun, hlast, Option.getD_some]
    have hbetween := hsafe (ready_of_due hdue) slot hslot ⟨t, ht, hagain⟩
    rw [not_due_between hbetween hprevious (hok.attemptAt_eq hrun).2] at hdue
    cases hdue
  · have hbefore : run.startedAt ≤ t := ((hle.trans hrecorded).trans hnow).trans ht
    exact hok.clear run status hrun slot hslot hlast t hbefore hagain

/-- **A start that is not a retry has a slot of its own.** -/
theorem CronOk.fresh_slot (hok : CronOk job h s)
    (hdue : (evaluateDue job c h now).due = true)
    (hreason : (evaluateDue job c h now).reason ≠ some "retry_after_failure") :
    ∃ t, (evaluateDue job c h now).scheduledSlot = some (slotKey job t) ∧
      slotKey job t ∉ scheduleSlots s := by
  rcases evaluateDue_due hdue with ⟨hretry, -⟩ | ⟨-, hfailure, occurrence, -, hnext, hcases⟩
  · exact absurd hretry hreason
  -- the last attempt was not a failure, so a success came after its start
  have hwon : ∀ run status, h.lastAttempt = some (run, status) →
      ∃ last, h.successAt = some last ∧ 0 < last ∧ run.startedAt ≤ last := by
    intro run status hrun
    by_contra hnone
    have hfailed := hok.failure_of_late hrun fun won hsuccess => by
      by_contra hle
      refine hnone ⟨won.recordedAt, ?_, (hok.success won hsuccess).1, not_lt.mp hle⟩
      rw [hok.successAt_eq, hsuccess]
      rfl
    rw [hfailed] at hfailure
    cases hfailure
  rcases hcases with ⟨hnew, hscheduled⟩ | ⟨hprevious, -, hscheduled⟩
  · refine ⟨occurrence, hscheduled, ?_⟩
    intro hused
    obtain ⟨run, status, hrun⟩ := hok.started (List.ne_nil_of_mem hused)
    obtain ⟨last, hlast, hpos, hle⟩ := hwon run status hrun
    have hoccurrence := hnext last hlast
    by_cases hslot : run.slot = some (slotKey job occurrence)
    · refine hnew ⟨?_, (hok.attemptAt_eq hrun).2, ?_⟩
      · rw [previousSlot_eq hrun, hslot, Option.getD_some]
      · rw [hoccurrence]
        exact (hpos.trans (job.next_gt last)).ne'
    · apply hok.clear run status hrun _ hused hslot last hle
      rw [hoccurrence]
  · obtain ⟨hscan, hafter⟩ :=
      distinctAfter_spec job (slotKey job occurrence) occurrence
    refine ⟨_, hscheduled, ?_⟩
    intro hused
    obtain ⟨run, status, hrun⟩ := hok.started (List.ne_nil_of_mem hused)
    obtain ⟨last, hlast, hpos, hle⟩ := hwon run status hrun
    have hlt : last < occurrence := by
      rw [hnext last hlast]
      exact job.next_gt last
    by_cases hslot : run.slot = some (slotKey job
        (distinctAfter job (slotKey job occurrence) occurrence).nextDistinct)
    · apply distinctAfter_distinct job (hpos.trans hlt)
      rw [previousSlot_eq hrun, hslot, Option.getD_some] at hprevious
      exact hprevious
    · apply hok.clear run status hrun _ hused hslot
        (distinctAfter job (slotKey job occurrence) occurrence).latest
        ((hle.trans hlt.le).trans hafter)
      rw [hscan]

theorem notBefore_of_le {run : ScheduledRun} {last : Option ScheduledRun}
    (hpos : 0 < run.startedAt)
    (h : ∀ old, last = some old → old.startedAt ≤ run.startedAt ∧ old.jobId ≤ run.jobId) :
    notBefore run last = true := by
  cases last with
  | none => exact notBefore_none hpos.le
  | some old =>
    obtain ⟨hstarted, hjob⟩ := h old rfl
    show decide (old.startedAt < run.startedAt ∨ _) = true
    rw [decide_eq_true_eq]
    rcases lt_or_eq_of_le hstarted with hlt | heq
    · exact Or.inl hlt
    · exact Or.inr ⟨heq, hjob⟩

/-- A report of the scheduler's own run that is not older than what is known. -/
theorem record_attempt {run : ScheduledRun} {status : JobStatus}
    (htrigger : run.trigger = "scheduler")
    (hnew : notBefore run (h.lastAttempt.map Prod.fst) = true) :
    (h.record run status).lastAttempt = some (run, status) :=
  if_pos ⟨htrigger, hnew⟩

theorem record_success (run : ScheduledRun) (status : JobStatus)
    (hnew : notBefore run h.lastSuccess = true) :
    (h.record run status).lastSuccess = if status = .ok then some run else h.lastSuccess := by
  show (if _ ∧ _ then _ else _) = _
  simp only [hnew, and_true]

/-- A start is recorded as the last attempt; the last success stays. -/
theorem CronOk.start (hok : CronOk job h s) (hnow : s.clock ≤ now) {startedAt : Time}
    (hstarted : now ≤ startedAt) {start : CronStart} {schedule : List ScheduleState}
    (hclear : ∀ slot ∈ scheduleSlots s, ∀ t, now ≤ t → slotKey job (job.next t) ≠ slot)
    (hfresh : start.retry = false →
      ∃ t, start.slot = slotKey job t ∧ start.slot ∉ scheduleSlots s) :
    CronOk job
      (h.record (newRun s.nextJobId startedAt start.slot) .running)
      ⟨schedule, s.nextJobId + 1, startedAt,
        some (newRun s.nextJobId startedAt start.slot), start :: s.starts⟩ := by
  have hpos : 0 < startedAt := (hok.clock_pos.trans_le hnow).trans_le hstarted
  have hclock : s.clock ≤ startedAt := hnow.trans hstarted
  have hrun : (h.record (newRun s.nextJobId startedAt start.slot) .running).lastAttempt
      = some (newRun s.nextJobId startedAt start.slot, .running) := by
    refine record_attempt (newRun_trigger _ _ _) (notBefore_of_le hpos ?_)
    intro old hold
    obtain ⟨⟨run, status⟩, hlast, rfl⟩ := Option.map_eq_some_iff.mp hold
    obtain ⟨-, -, hle, hrecorded, hjob⟩ := hok.attempt run status hlast
    exact ⟨(hle.trans hrecorded).trans hclock, hjob.le⟩
  have hwon : (h.record (newRun s.nextJobId startedAt start.slot) .running).lastSuccess
      = h.lastSuccess := by
    have hstatus : ¬ (JobStatus.running = .ok ∧
        notBefore (newRun s.nextJobId startedAt start.slot) h.lastSuccess = true) :=
      fun hboth => nomatch hboth.1
    simp only [JobHistory.record, if_neg hstatus]
  have hslots : ∀ slot, slot ∈ scheduleSlots ⟨schedule, s.nextJobId + 1, startedAt,
      some (newRun s.nextJobId startedAt start.slot), start :: s.starts⟩ → slot ∈ scheduleSlots s ∨
        start.retry = false ∧ slot = start.slot := by
    intro slot hslot
    obtain ⟨one, hone, rfl⟩ := List.mem_map.mp hslot
    obtain ⟨hmem, hretry⟩ := List.mem_filter.mp hone
    rcases List.mem_cons.mp hmem with rfl | hmem
    · exact Or.inr ⟨by simpa using hretry, rfl⟩
    · exact Or.inl (List.mem_map_of_mem (List.mem_filter.mpr ⟨hmem, hretry⟩))
  refine ⟨hpos, ?_, ?_, ?_, ?_, fun _ => ⟨_, _, hrun⟩, ?_, ?_⟩
  · intro run status hlast
    rw [hrun] at hlast
    obtain ⟨rfl, rfl⟩ := Prod.mk.inj (Option.some.inj hlast)
    exact ⟨rfl, hpos, le_refl _, le_refl _, Nat.lt_succ_self _⟩
  · intro won hlast
    rw [hwon] at hlast
    obtain ⟨hfirst, hle, hrecorded, hjob⟩ := hok.success won hlast
    exact ⟨hfirst, hle, hrecorded.trans hclock, hjob.trans (Nat.lt_succ_self _)⟩
  · intro run hlast
    rw [hrun] at hlast
    cases (Prod.mk.inj (Option.some.inj hlast)).2
  · intro run hopen
    obtain rfl := Option.some.inj hopen
    refine ⟨⟨_, hrun⟩, ⟨start.slot, newRun_slot _ _ _⟩, ?_⟩
    intro won hlast
    rw [hwon] at hlast
    obtain ⟨-, hle, hrecorded, hjob⟩ := hok.success won hlast
    exact ⟨(hle.trans hrecorded).trans hclock, hjob.le⟩
  · intro run status hlast slot hslot hne t ht
    rw [hrun] at hlast
    obtain ⟨rfl, rfl⟩ := Prod.mk.inj (Option.some.inj hlast)
    rcases hslots slot hslot with hold | ⟨hretry, rfl⟩
    · exact hclear slot hold t (hstarted.trans ht)
    · obtain ⟨u, hu, -⟩ := hfresh hretry
      refine absurd ?_ hne
      rw [newRun_slot, hu]
      exact textOrNone_slotKey job u
  · cases hretry : start.retry with
    | true =>
      simp only [scheduleSlots, List.filter_cons, hretry]
      exact hok.distinct
    | false =>
      obtain ⟨-, -, hnew⟩ := hfresh hretry
      simp only [scheduleSlots, List.filter_cons, hretry]
      exact List.nodup_cons.mpr ⟨hnew, hok.distinct⟩

theorem endReport_run {run : ScheduledRun} (htrigger : run.trigger = "scheduler") {text : String}
    (hslot : run.slot = textOrNone text) (status : JobStatus) (endedAt : Time) :
    (endReport job run status endedAt).run = { run with recordedAt := endedAt } := by
  obtain ⟨id, started, recorded, trigger, slot⟩ := run
  subst htrigger hslot
  have hkept : (textOrNone "scheduler").getD "manual" = "scheduler" := by decide
  simp only [ScheduleReport.run, endReport, textOrNone_again, hkept, Option.getD_some]

theorem startReport_run (id : Nat) (startedAt : Time) (slot : String) :
    (startReport job id startedAt slot).run = newRun id startedAt slot := by
  have hkept : (textOrNone "scheduler").getD "manual" = "scheduler" := by decide
  simp only [ScheduleReport.run, startReport, textOrNone_again, hkept, Option.getD_none, newRun]

/-- The end of the open run replaces its start. -/
theorem CronOk.finish (hok : CronOk job h s) {run : ScheduledRun} (hopen : s.openRun = some run)
    {endedAt : Time} (hend : s.clock ≤ endedAt) (status : JobStatus)
    {schedule : List ScheduleState} :
    CronOk job (h.record { run with recordedAt := endedAt } status)
      ⟨schedule, s.nextJobId, endedAt, none, s.starts⟩ := by
  obtain ⟨⟨old, hlast⟩, -, hsuccess⟩ := hok.opened run hopen
  obtain ⟨htrigger, hpos, hle, hrecorded, hjob⟩ := hok.attempt run old hlast
  have hrun : (h.record { run with recordedAt := endedAt } status).lastAttempt
      = some ({ run with recordedAt := endedAt }, status) := by
    refine record_attempt htrigger (notBefore_of_le hpos ?_)
    intro same hsame
    rw [hlast] at hsame
    obtain rfl := Option.some.inj hsame
    exact ⟨le_refl _, le_refl _⟩
  have hwon := record_success (h := h) { run with recordedAt := endedAt } status
    (notBefore_of_le hpos hsuccess)
  refine ⟨hok.clock_pos.trans_le hend, ?_, ?_, ?_, nofun, fun _ => ⟨_, _, hrun⟩, ?_,
    hok.distinct⟩
  · intro new newStatus hnew
    rw [hrun] at hnew
    obtain ⟨rfl, rfl⟩ := Prod.mk.inj (Option.some.inj hnew)
    exact ⟨htrigger, hpos, (hle.trans hrecorded).trans hend, le_refl _, hjob⟩
  · intro won hnew
    rw [hwon] at hnew
    split_ifs at hnew
    · obtain rfl := Option.some.inj hnew
      exact ⟨hok.clock_pos.trans_le hend, (hle.trans hrecorded).trans hend, le_refl _, hjob⟩
    · obtain ⟨hfirst, hstarted, hknown, hid⟩ := hok.success won hnew
      exact ⟨hfirst, hstarted, hknown.trans hend, hid⟩
  · intro new hnew
    rw [hrun] at hnew
    obtain ⟨rfl, rfl⟩ := Prod.mk.inj (Option.some.inj hnew)
    exact ⟨_, by rw [hwon, if_pos rfl], le_refl _⟩
  · intro new newStatus hnew slot hslot hne t ht
    rw [hrun] at hnew
    obtain ⟨rfl, rfl⟩ := Prod.mk.inj (Option.some.inj hnew)
    exact hok.clear run old hlast slot hslot hne t ht

/-- A run by hand is no attempt of the scheduler; its success counts. -/
theorem CronOk.byHand (hok : CronOk job h s) (hclosed : s.openRun = none) {run : ScheduledRun}
    (htrigger : run.trigger ≠ "scheduler") (hid : run.jobId = s.nextJobId)
    (hstart : s.clock ≤ run.startedAt) (hend : run.startedAt ≤ run.recordedAt)
    (status : JobStatus) {schedule : List ScheduleState} :
    CronOk job (h.record run status)
      ⟨schedule, s.nextJobId + 1, run.recordedAt, s.openRun, s.starts⟩ := by
  have hpos : 0 < run.startedAt := hok.clock_pos.trans_le hstart
  have hclock : s.clock ≤ run.recordedAt := hstart.trans hend
  have hrun : (h.record run status).lastAttempt = h.lastAttempt :=
    if_neg fun hboth => htrigger hboth.1
  have hwon := record_success (h := h) run status (notBefore_of_le hpos
    fun old hold => by
      obtain ⟨-, hle, hrecorded, hjob⟩ := hok.success old hold
      exact ⟨(hle.trans hrecorded).trans hstart, hid ▸ hjob.le⟩)
  refine ⟨hpos.trans_le hend, ?_, ?_, ?_, ?_, ?_, ?_, hok.distinct⟩
  · intro last lastStatus hlast
    rw [hrun] at hlast
    obtain ⟨hown, hfirst, hle, hrecorded, hjob⟩ := hok.attempt last lastStatus hlast
    exact ⟨hown, hfirst, hle, hrecorded.trans hclock, hjob.trans (Nat.lt_succ_self _)⟩
  · intro won hnew
    rw [hwon] at hnew
    split_ifs at hnew
    · obtain rfl := Option.some.inj hnew
      exact ⟨hpos.trans_le hend, hend, le_refl _, hid ▸ Nat.lt_succ_self _⟩
    · obtain ⟨hfirst, hle, hrecorded, hjob⟩ := hok.success won hnew
      exact ⟨hfirst, hle, hrecorded.trans hclock, hjob.trans (Nat.lt_succ_self _)⟩
  · intro last hlast
    rw [hrun] at hlast
    obtain ⟨won, hsuccess, htold⟩ := hok.told last hlast
    rw [hwon]
    split_ifs
    · obtain ⟨-, -, -, hrecorded, -⟩ := hok.attempt last _ hlast
      exact ⟨run, rfl, hrecorded.trans hclock⟩
    · exact ⟨won, hsuccess, htold⟩
  · intro last hlast
    rw [hclosed] at hlast
    cases hlast
  · rw [hrun]
    exact hok.started
  · rw [hrun]
    exact hok.clear

theorem tickStep_ok {startedAt : Time} {taken : Bool} {t : CronState}
    (hok : CronOk job (s.history job) s) (hsafe : FoldSafe job s (.tick c now startedAt taken))
    (hstep : tickStep job c now startedAt taken s = some t) :
    CronOk job (t.history job) t := by
  unfold tickStep at hstep
  split_ifs at hstep with htime hstarts
  · obtain ⟨htaken, hclosed⟩ := hstarts
    subst htaken
    cases hstart : tickStart job c s now with
    | none =>
      rw [hstart] at hstep
      obtain rfl := Option.some.inj hstep
      exact hok.later (le_refl _) htime.1
    | some start =>
      rw [hstart] at hstep
      obtain rfl := Option.some.inj hstep
      unfold tickStart at hstart
      simp only at hstart
      split_ifs at hstart with hdue
      have hslot : start.slot
          = (evaluateDue job c (s.history job) now).scheduledSlot.getD "" := by
        rw [← Option.some.inj hstart]
        rfl
      have hretry : start.retry = decide
          ((evaluateDue job c (s.history job) now).reason = some "retry_after_failure") := by
        rw [← Option.some.inj hstart]
        rfl
      have hrecord := historyOf_record
        (startReport job s.nextJobId startedAt start.slot) job.definitionId job.id_trimmed job.id_ne rfl
        s.schedule (fun _ => ((hok.clock_pos.trans_le htime.1).trans_le htime.2).le)
      rw [startReport_run] at hrecord
      rw [history_mk, hrecord]
      refine hok.start htime.1 htime.2 ?_ ?_
      · intro slot hslot u hu
        exact hok.clear_at_start htime.1 (hsafe hclosed) hdue hslot hu
      · intro hno
        rw [hretry, decide_eq_false_iff_not] at hno
        obtain ⟨u, hu, hfresh⟩ := hok.fresh_slot hdue hno
        rw [hu, Option.getD_some] at hslot
        exact ⟨u, hslot, hslot ▸ hfresh⟩
  · obtain rfl := Option.some.inj hstep
    exact hok.later (le_refl _) htime.1

theorem finishStep_ok {status : JobStatus} {endedAt : Time} {t : CronState}
    (hok : CronOk job (s.history job) s) (hstep : finishStep job status endedAt s = some t) :
    CronOk job (t.history job) t := by
  unfold finishStep at hstep
  cases hopen : s.openRun with
  | none =>
    rw [hopen] at hstep
    cases hstep
  | some run =>
    rw [hopen] at hstep
    simp only at hstep
    split_ifs at hstep with hend
    obtain rfl := Option.some.inj hstep
    obtain ⟨⟨old, hlast⟩, ⟨text, hslot⟩, -⟩ := hok.opened run hopen
    obtain ⟨htrigger, hpos, -⟩ := hok.attempt run old hlast
    have hrecord := historyOf_record
        (endReport job run status endedAt) job.definitionId job.id_trimmed job.id_ne rfl s.schedule
        (fun _ => hpos.le)
    rw [endReport_run htrigger hslot] at hrecord
    rw [history_mk, hrecord]
    exact CronOk.finish (h := historyOf job.definitionId s.schedule) hok hopen hend status

theorem byHandStep_ok {startedAt endedAt : Time} {status : JobStatus} {trigger : String}
    {dryRun : Bool} {t : CronState} (hok : CronOk job (s.history job) s)
    (hstep : byHandStep job startedAt endedAt status trigger dryRun s = some t) :
    CronOk job (t.history job) t := by
  unfold byHandStep at hstep
  split_ifs at hstep with hhand
  obtain rfl := Option.some.inj hstep
  obtain ⟨hstart, hend, hclosed, htrigger⟩ := hhand
  cases dryRun with
  | true =>
    have hsame := historyOf_other
      (handReport job s.nextJobId startedAt endedAt status trigger true) job.definitionId
      (Or.inr rfl) s.schedule
    rw [history_mk, hsame]
    exact hok.later (Nat.le_succ _) (hstart.trans hend)
  | false =>
    have hrecord := historyOf_record
      (handReport job s.nextJobId startedAt endedAt status trigger false) job.definitionId
      job.id_trimmed job.id_ne rfl s.schedule (fun _ => (hok.clock_pos.trans_le hstart).le)
    have hother : (handReport job s.nextJobId startedAt endedAt status trigger false).run.trigger ≠
        "scheduler" := by
      simpa only [ScheduleReport.run, handReport] using htrigger
    rw [history_mk, hrecord]
    exact hok.byHand hclosed hother rfl hstart hend status

/-- **The step lemma.** -/
theorem cronStep_ok {t : CronState} {a : CronAction} (hok : CronOk job (s.history job) s)
    (hsafe : FoldSafe job s a) (hstep : cronStep job s a = some t) :
    CronOk job (t.history job) t := by
  cases a with
  | tick settings now startedAt taken => exact tickStep_ok hok hsafe hstep
  | finish status endedAt => exact finishStep_ok hok hstep
  | byHand startedAt endedAt status trigger dryRun => exact byHandStep_ok hok hstep
  | elsewhere report =>
    have hstep : (if strip report.definitionId ≠ job.definitionId then
        some { s with schedule := recordSchedule report s.schedule } else none) = some t := hstep
    split_ifs at hstep with hother
    obtain rfl := Option.some.inj hstep
    have hsame :=
      historyOf_other report job.definitionId (Or.inl hother) s.schedule
    rw [history_mk, hsame]
    exact hok.later (le_refl _) (le_refl _)

end Steps

/-- **No cron slot is started twice**, in every run in which no tick finds the job ready
while the slot of an earlier start is still to come again, unless it is between the two
passes of that very slot: the starts that are not retries have distinct slot keys. -/
theorem slots_distinct (job : CronJob) {clock : Time} (hclock : 0 < clock)
    {as : List CronAction} {s : CronState}
    (hrun : Run (Restrict (Steps (cronStep job)) (FoldSafe job)) (cronStart clock) as s) :
    (scheduleSlots s).Nodup := by
  have hok : CronOk job (s.history job) s := by
    apply hrun.preserves (fun s => CronOk job (s.history job) s)
    · rintro s a t hok ⟨hstep, hsafe⟩
      exact cronStep_ok hok hsafe hstep
    · exact cronOk_start job hclock
  exact hok.distinct

/-! ### The night on which the clock is set back -/

/-- Midnight in Berlin before the clock is set back, and the moment it is. -/
def fallBackMidnight : Int := 1792879200000000

def fallBackAt : Int := 1792890000000000

/-- The minute of that day that the clock shows. -/
def berlinMinute (t : Int) : Int :=
  (t - fallBackMidnight) / 60000000 - (if t < fallBackAt then 0 else 60)

/-- Clock times as far as they are met below; other minutes are only counted. -/
def clockText (minute : Int) : String :=
  if minute = 120 then "02:00" else if minute = 150 then "02:30"
  else if minute = 180 then "03:00" else if minute = 210 then "03:30"
  else "+" ++ toString minute ++ "min"

/-- The text of a number determines it: it is read back as JSON. -/
theorem toString_inj {m n : Int} (h : toString m = toString n) : m = n := by
  have hm : jsonLoads (toString m) = some (.int m) :=
    jsonLoads_jsonDumps (v := .int m) rfl
  have hn : jsonLoads (toString n) = some (.int n) :=
    jsonLoads_jsonDumps (v := .int n) rfl
  rw [h, hn] at hm
  exact (Value.int.inj (Option.some.inj hm)).symm

/-- The clock times of the table are told apart from each other and from the counted ones. -/
theorem clockText_inj {m n : Int} (h : clockText m = clockText n) : m = n := by
  have hplus : ∀ (k : Int) (text : String), text.toList.head? ≠ some '+' →
      text ≠ "+" ++ toString k ++ "min" := by
    rintro k text hhead rfl
    exact hhead (by simp)
  unfold clockText at h
  split_ifs at h <;> first
    | omega
    | exact absurd h (by decide)
    | exact absurd h (hplus _ _ (by decide))
    | exact absurd h.symm (hplus _ _ (by decide))
    | exact toString_inj ((String.append_right_inj _).mp ((String.append_left_inj _).mp h))

/-- The local time of a point of that night. -/
def berlinTime (t : Int) : String := "2026-10-25T" ++ clockText (berlinMinute t)

theorem berlinTime_inj {t u : Int} (h : berlinTime t = berlinTime u) :
    berlinMinute t = berlinMinute u :=
  clockText_inj ((String.append_right_inj _).mp h)

theorem strip_berlinTime (t : Int) : strip (berlinTime t) = berlinTime t := by
  have hlast : ∀ front : String, strip ("2026-10-25T" ++ (front ++ "min"))
      = "2026-10-25T" ++ (front ++ "min") := by
    intro front
    have hchars : stripChars ("2026-10-25T" ++ (front ++ "min")).toList
        = ("2026-10-25T" ++ (front ++ "min")).toList := by
      apply stripChars_eq_self_iff.mpr
      intro hne
      constructor
      · simp only [String.toList_append]
        rw [List.head_append_of_ne_nil (by decide)]
        decide
      · simp only [String.toList_append]
        rw [List.getLast_append_of_ne_nil _ (by simp), List.getLast_append_of_ne_nil _ (by simp)]
        decide
    rw [strip, hchars, String.ofList_toList]
  unfold berlinTime clockText
  split_ifs
  · decide
  · decide
  · decide
  · decide
  · exact hlast _

/-- `*/30 * * * *`. -/
def halfHourAfter (t : Int) : Int := (t / 1800000000 + 1) * 1800000000

def halfHourBefore (t : Int) : Int := (t - 1) / 1800000000 * 1800000000

theorem halfHourAfter_gt (t : Int) : t < halfHourAfter t := by
  unfold halfHourAfter
  omega

/-- The half hours do not show one minute three times. -/
theorem berlinTime_twice (t : Int) (h : berlinTime (halfHourAfter t) = berlinTime t) :
    berlinTime (halfHourAfter (halfHourAfter t)) ≠ berlinTime t := by
  intro hagain
  have hfirst := berlinTime_inj h
  have hsecond := berlinTime_inj hagain
  unfold berlinMinute halfHourAfter fallBackAt fallBackMidnight at hfirst hsecond
  split_ifs at hfirst hsecond <;> omega

/-- A job that runs every half hour, on the night on which the clock is set back. -/
def halfHourly : CronJob where
  definitionId := "photos"
  definitionName := "Photos"
  schedule := "*/30 * * * *"
  timezone := "Europe/Berlin"
  valid := true
  next := halfHourAfter
  prev := halfHourBefore
  wallTime := berlinTime
  id_trimmed := by decide
  id_ne := by decide
  next_gt := halfHourAfter_gt
  wall_twice t _ := berlinTime_twice t
  wall_trimmed := strip_berlinTime
  wall_ne t h := by
    have hlist := congrArg String.toList h
    simp [berlinTime] at hlist

/-- A tick five seconds after a minute of that night, and a good end of the run. -/
def tickAt (minute : Int) : CronAction :=
  .tick ⟨60, 15, false⟩ (fallBackMidnight + minute * 60000000 + 5000000)
    (fallBackMidnight + minute * 60000000 + 5000000) true

def endAt (minute : Int) : CronAction :=
  .finish .ok (fallBackMidnight + minute * 60000000 + 20000000)

/-- Ticks at 02:00 and 02:30 of the first pass and at 02:00 of the second. -/
def foldHour : List CronAction :=
  [tickAt 120, endAt 120, tickAt 150, endAt 150, tickAt 180, endAt 180]

/-- **The slot of 02:00 is started in both passes of the repeated hour**, because the slot
of 02:30 was attempted in between. -/
theorem fold_slot_started_twice :
    ∃ s, Run (Steps (cronStep halfHourly)) (cronStart fallBackMidnight) foldHour s ∧
      scheduleSlots s = ["v1|Europe/Berlin|*/30 * * * *|2026-10-25T02:00",
        "v1|Europe/Berlin|*/30 * * * *|2026-10-25T02:30",
        "v1|Europe/Berlin|*/30 * * * *|2026-10-25T02:00"] ∧
      ¬ (scheduleSlots s).Nodup := by
  have hslots : (runAll (cronStep halfHourly) (cronStart fallBackMidnight) foldHour).map
      scheduleSlots = some ["v1|Europe/Berlin|*/30 * * * *|2026-10-25T02:00",
        "v1|Europe/Berlin|*/30 * * * *|2026-10-25T02:30",
        "v1|Europe/Berlin|*/30 * * * *|2026-10-25T02:00"] := by decide +kernel
  obtain ⟨s, hrun, hsame⟩ := Option.map_eq_some_iff.mp hslots
  refine ⟨s, run_of_runAll hrun, hsame, ?_⟩
  rw [hsame]
  decide

/-- The run of the half hour after the repeated one, and the state it leaves. -/
def threeOClock (recordedAt : Time) : ScheduledRun :=
  ⟨1, 1792893605000000, recordedAt, "scheduler",
    some "v1|Europe/Berlin|*/30 * * * *|2026-10-25T03:00"⟩

def threeStarts : List CronStart :=
  [⟨"v1|Europe/Berlin|*/30 * * * *|2026-10-25T03:00", false⟩]

def threeOpen : CronState :=
  ⟨[⟨"photos", "Photos", some (threeOClock 1792893605000000, .running), none,
      1792893605000000⟩], 2, 1792893605000000, some (threeOClock 1792893605000000),
    threeStarts⟩

def threeEnded : CronState :=
  ⟨[⟨"photos", "Photos", some (threeOClock 1792893620000000, .ok),
      some (threeOClock 1792893620000000), 1792893620000000⟩], 2, 1792893620000000, none,
    threeStarts⟩

theorem slots_distinct_after_fold :
    ∃ s, Run (Restrict (Steps (cronStep halfHourly)) (FoldSafe halfHourly))
      (cronStart fallBackMidnight) [tickAt 240, endAt 240, tickAt 270] s ∧
      (scheduleSlots s).length = 2 ∧ (scheduleSlots s).Nodup := by
  have hlast : (cronStep halfHourly threeEnded (tickAt 270)).map
      (fun s => (scheduleSlots s).length) = some 2 := by decide +kernel
  obtain ⟨s, hstep, htwo⟩ := Option.map_eq_some_iff.mp hlast
  -- 03:00 does not come again
  have hsafe : FoldSafe halfHourly threeEnded (tickAt 270) := by
    rintro - - slot hslot ⟨t, ht, hkey⟩
    obtain rfl : slot = slotKey halfHourly 1792893600000000 := by
      have hthree : slot ∈ ["v1|Europe/Berlin|*/30 * * * *|2026-10-25T03:00"] := hslot
      rw [List.mem_singleton.mp hthree]
      decide
    have hsame := berlinTime_inj (slotKey_eq_iff.mp hkey)
    have ht : (1792895405000000 : Int) ≤ t := ht
    have hnext : berlinMinute (halfHourAfter t) = berlinMinute 1792893600000000 := hsame
    unfold berlinMinute halfHourAfter fallBackAt fallBackMidnight at hnext
    split_ifs at hnext <;> omega
  have hrun : Run (Restrict (Steps (cronStep halfHourly)) (FoldSafe halfHourly))
      (cronStart fallBackMidnight) [tickAt 240, endAt 240, tickAt 270] s := by
    refine .cons (t := threeOpen) ⟨?_, ?_⟩ (.cons (t := threeEnded) ⟨?_, trivial⟩
      (.cons ⟨hstep, hsafe⟩ (.nil s)))
    · show cronStep halfHourly (cronStart fallBackMidnight) (tickAt 240) = some threeOpen
      decide +kernel
    · rintro - - slot hslot
      cases hslot
    · show cronStep halfHourly threeOpen (endAt 240) = some threeEnded
      decide +kernel
  exact ⟨s, hrun, htwo, slots_distinct halfHourly (by decide) hrun⟩

end RcloneSync
