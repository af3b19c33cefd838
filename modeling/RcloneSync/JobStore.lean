/-
RcloneSync/JobStore.lean

The job tables of the database module (db.py) and the transactions on them.

A job is started, finished or marked stale; an attempt of a pair belongs to a job and
ends with it; what the scheduler has to remember of a job definition is kept apart from
the job, which may be deleted.  A result that was obtained outside the database is first
staged as an intent and then applied.

Every function is one transaction or one read.  A transaction that raises leaves no
trace (`conn` rolls it back), so its result is either an error or the new tables.
`job_finish` reads the job's row before its transaction begins; the two halves are
`finishRead` and `finishWrite`, and only the second is atomic.  Points in time are whole
microseconds.
-/
import RcloneSync.BoundedJson
import RcloneSync.RestoreEvidence
import RcloneSync.Tables
import Mathlib.Data.List.Sort

namespace RcloneSync

open Py

/-! ### Rows -/

/-- A point in time, in microseconds. -/
abbrev Time := Int

/-- A point in time as `time.time()` shows it. -/
def timeValue (t : Time) : Value := .float (shortDec t 6)

/-- Statuses of jobs and of attempts. -/
inductive JobStatus
  | running | ok | error | warning | skipped | cancelled | stale
  deriving DecidableEq, Repr

def JobStatus.text : JobStatus → String
  | .running => "running"
  | .ok => "ok"
  | .error => "error"
  | .warning => "warning"
  | .skipped => "skipped"
  | .cancelled => "cancelled"
  | .stale => "stale"

/-- A row of `jobs`. -/
structure Job where
  id : Nat
  kind : String
  status : JobStatus
  startedAt : Time
  endedAt : Option Time
  summaryJson : Option String
  definitionId : Option String
  definitionName : Option String
  scheduledSlot : Option String
  dryRun : Bool
  trigger : String
  deriving DecidableEq, Repr

/-- A row of `pair_runs`. -/
structure PairRun where
  jobId : Nat
  pairName : String
  historyKey : String
  ok : Bool
  dryRun : Bool
  status : JobStatus
  startedAt : Time
  endedAt : Option Time
  scheduledSlot : Option String
  resultJson : String
  deriving DecidableEq, Repr

/-- A row of `pair_history_state`. -/
structure PairHistory where
  historyKey : String
  pairName : String
  everSucceeded : Bool
  terminalSeen : Bool
  firstSeenAt : Time
  lastSeenAt : Time
  lastSuccessAt : Option Time
  deriving DecidableEq, Repr

/-- A run of a job definition as the scheduler remembers it. -/
structure ScheduledRun where
  jobId : Nat
  startedAt : Time
  recordedAt : Time
  trigger : String
  slot : Option String
  deriving DecidableEq, Repr

/-- A row of `job_definition_schedule_state`.  The columns of the last attempt are set
together, and so are those of the last success. -/
structure ScheduleState where
  definitionId : String
  definitionName : String
  lastAttempt : Option (ScheduledRun × JobStatus)
  lastSuccess : Option ScheduledRun
  updatedAt : Time
  deriving DecidableEq, Repr

/-- A row of `job_terminal_intents`. -/
structure TerminalIntent where
  jobId : Nat
  status : JobStatus
  summaryJson : String
  createdAt : Time
  updatedAt : Time
  appliedAt : Option Time
  deriving DecidableEq, Repr

/-- The tables.  Rows stand in the order of their insertion. -/
structure JobStore where
  jobs : List Job
  nextJobId : Nat
  pairRuns : List PairRun
  history : List PairHistory
  schedule : List ScheduleState
  intents : List TerminalIntent
  deriving DecidableEq, Repr

def JobStore.empty : JobStore := ⟨[], 1, [], [], [], []⟩

def JobStore.job (s : JobStore) (id : Nat) : Option Job := Tables.find Job.id s.jobs id

def JobStore.intent (s : JobStore) (id : Nat) : Option TerminalIntent :=
  Tables.find TerminalIntent.jobId s.intents id

/-- The key of an attempt: `UNIQUE(job_id, pair_name)`. -/
def PairRun.key (r : PairRun) : Nat × String := (r.jobId, r.pairName)

def JobStore.pairRun (s : JobStore) (id : Nat) (name : String) : Option PairRun :=
  Tables.find PairRun.key s.pairRuns (id, name)

/-! ### Shared parts of the transactions -/

/-- `str(text or "").strip() or None`. -/
def textOrNone (text : String) : Option String :=
  if strip text = "" then none else some (strip text)

/-- `str(mapping.get(key) or "").strip()`. -/
def strippedText (d : Dict) (key : String) : String := strip (Dict.textOr d key "")

/-- `text.removeprefix(p)`. -/
def removePrefix (p text : String) : String :=
  if startsWith text p then dropText p.length text else text

/-- `_default_history_key`. -/
def defaultHistoryKey (jobKind pairName : String) : String :=
  let name := strip pairName
  if lower (strip jobKind) = "pbs" ∨ startsWith name "pbs:" then
    "pbs:name:" ++ casefold (removePrefix "pbs:" name)
  else "rclone:name:" ++ casefold name

/-- `_record_pair_history_state`: marks only ever grow. -/
def recordHistory (historyKey pairName : String) (seenAt : Time) (succeeded terminal : Bool)
    (history : List PairHistory) : List PairHistory :=
  let key := strip historyKey
  let name := strip pairName
  if key = "" ∨ name = "" then history
  else
    let success := if succeeded then some seenAt else none
    Tables.upsert PairHistory.historyKey
      ⟨key, name, succeeded, terminal, seenAt, seenAt, success⟩
      (fun old => { old with
        pairName := if old.lastSeenAt ≤ seenAt then name else old.pairName
        everSucceeded := old.everSucceeded || succeeded
        terminalSeen := old.terminalSeen || terminal
        firstSeenAt := min old.firstSeenAt seenAt
        lastSeenAt := max old.lastSeenAt seenAt
        lastSuccessAt :=
          match success, old.lastSuccessAt with
          | none, last => last
          | some t, none => some t
          | some t, some last => some (max last t) })
      history

/-- The order in which runs of a definition count: by start, then by job. -/
def notBefore (run : ScheduledRun) (last : Option ScheduledRun) : Bool :=
  let started := (last.map ScheduledRun.startedAt).getD 0
  let jobId := (last.map ScheduledRun.jobId).getD 0
  decide (started < run.startedAt ∨ (started = run.startedAt ∧ jobId ≤ run.jobId))

/-- What a job reports to the scheduler. -/
structure ScheduleReport where
  definitionId : String
  definitionName : String
  jobId : Nat
  startedAt : Time
  endedAt : Option Time
  status : JobStatus
  trigger : String
  scheduledSlot : Option String
  dryRun : Bool

/-- `_record_job_definition_schedule_state`. -/
def recordSchedule (report : ScheduleReport) (schedule : List ScheduleState) :
    List ScheduleState :=
  let stableId := strip report.definitionId
  if stableId = "" ∨ report.dryRun then schedule
  else
    let name := strip report.definitionName
    let effectiveAt := report.endedAt.getD report.startedAt
    let trigger := (textOrNone report.trigger).getD "manual"
    let slot := textOrNone (report.scheduledSlot.getD "")
    let schedulerAttempt : Bool := trigger = "scheduler"
    let succeeded : Bool := report.status = .ok
    let run : ScheduledRun := ⟨report.jobId, report.startedAt, effectiveAt, trigger, slot⟩
    if !schedulerAttempt && !succeeded then schedule
    else
      Tables.upsert ScheduleState.definitionId
        ⟨stableId, name, if schedulerAttempt then some (run, report.status) else none,
          if succeeded then some run else none, effectiveAt⟩
        (fun old => { old with
          definitionName := if name = "" then old.definitionName else name
          updatedAt := max old.updatedAt effectiveAt
          lastAttempt :=
            if schedulerAttempt && notBefore run (old.lastAttempt.map Prod.fst) then
              some (run, report.status)
            else old.lastAttempt
          lastSuccess :=
            if succeeded && notBefore run old.lastSuccess then some run else old.lastSuccess })
        schedule

def maxJobSummaryBytes : Nat := 256 * 1024

def maxPairResultBytes : Nat := 32 * 1024

/-- An unfinished attempt is ended with its job. -/
def closeAttempt (status : JobStatus) (endedAt : Time) (error : Option String) (row : PairRun) :
    PairRun :=
  let recorded :=
    match jsonLoads (if row.resultJson = "" then "\x7b\x7d" else row.resultJson) with
    | some (.dict d) => d
    | _ => []
  let result := Dict.erase recorded "pending"
  let result := Dict.set result "ok" (.bool false)
  let result := Dict.set result "status" (.str status.text)
  let result := if status = .cancelled then Dict.set result "cancelled" (.bool true) else result
  let result :=
    match error with
    | none => result
    | some text =>
      if text ≠ "" ∧ truthy (Dict.get result "error") = false then
        Dict.set result "error" (.str text)
      else result
  { row with
    status := status
    ok := false
    endedAt := some endedAt
    resultJson := jsonDumpsBounded (.dict result) maxPairResultBytes }

/-- The attempts of a job that are still open. -/
def isOpenOf (jobId : Nat) (row : PairRun) : Bool :=
  row.jobId = jobId && row.status = .running

/-- `_terminalize_running_attempts` for one job. -/
def terminalizeAttempts (jobId : Nat) (status : JobStatus) (endedAt : Time)
    (error : Option String) (s : JobStore) : JobStore :=
  { s with
    pairRuns := Tables.updateWhere (isOpenOf jobId) (closeAttempt status endedAt error) s.pairRuns
    history := (s.pairRuns.filter (isOpenOf jobId)).foldl
      (fun history row => recordHistory row.historyKey row.pairName endedAt false true history)
      s.history }

/-! ### Pair results -/

/-- The job whose results are stored. -/
structure ResultContext where
  jobId : Nat
  kind : String
  status : JobStatus
  startedAt : Time
  endedAt : Time

/-- A mapping inside a summary; anything else counts as none. -/
def innerDict (summary : Dict) (key : String) : Dict := (asDict (Dict.get summary key)).getD []

/-- A list inside a summary; anything else counts as none. -/
def innerList (summary : Dict) (key : String) : List Value :=
  (asList (Dict.get summary key)).getD []

/-- `summary.get("dry_run") is True`. -/
def isDryRun (d : Dict) : Bool := Dict.get d "dry_run" = .bool true

/-- `INSERT … ON CONFLICT(job_id, pair_name) DO UPDATE`: the row keeps its start. -/
def upsertPairRun (row : PairRun) (rows : List PairRun) : List PairRun :=
  Tables.upsert PairRun.key row
    (fun old => { row with
      jobId := old.jobId, pairName := old.pairName, startedAt := old.startedAt }) rows

/-- The status of a reported pair, apart from partial restores. -/
def pairStatus (jobStatus : JobStatus) (pair : Dict) : JobStatus :=
  if Dict.get pair "ok" = .bool true then .ok
  else if truthy (Dict.get pair "cancelled") || jobStatus = .cancelled then .cancelled
  else if truthy (Dict.get pair "skipped") then .skipped
  else .error

/-- An entry as it is recorded: trigger, history key, slot and dry run are filled in. -/
def recordedPair (summary pair : Dict) (historyKey : String) (slot : Option String)
    (dryRun : Bool) : Dict :=
  let trigger := strippedText summary "trigger"
  let pair := if trigger ≠ "" ∧ truthy (Dict.get pair "trigger") = false then
    Dict.set pair "trigger" (.str trigger) else pair
  let pair := Dict.set pair "history_key" (.str historyKey)
  let pair :=
    match slot with
    | some text => Dict.set pair "scheduled_slot" (.str text)
    | none => pair
  if dryRun then Dict.set pair "dry_run" (.bool true) else pair

/-- The row of one entry of `summary["pairs"]`; entries without a name have none. -/
def reportedRun (ctx : ResultContext) (summary : Dict) :
    Value → Except PyError (Option PairRun)
  | .dict pair => do
    let name := strippedText pair "name"
    if name = "" then .ok none
    else
      let historyKey := strip (pyStr (pyOr (Dict.get pair "history_key")
        (pyOr (Dict.get (innerDict summary "history_keys") name)
          (.str (defaultHistoryKey ctx.kind name)))))
      let slot := textOrNone (pyStr (pyOr (Dict.get pair "scheduled_slot")
        (pyOr (Dict.get (innerDict summary "scheduler_slots") name) (.str ""))))
      let dryRun := isDryRun pair || isDryRun summary
      let pair := recordedPair summary pair historyKey slot dryRun
      let isPartial ←
        if ctx.kind = "restoretest" ∧ dryRun = false then do
          if ← isVerifiedPartial pair then .ok true
          else if name = "restore-drill" then isPartialRestoreSummary summary
          else .ok false
        else .ok false
      .ok (some
        { jobId := ctx.jobId
          pairName := name
          historyKey := historyKey
          ok := Dict.get pair "ok" = .bool true
          dryRun := dryRun
          status := if isPartial then .warning else pairStatus ctx.status pair
          startedAt := ctx.startedAt
          endedAt := some ctx.endedAt
          scheduledSlot := slot
          resultJson := jsonDumpsBounded (.dict pair) maxPairResultBytes })
  | _ => .ok none

/-- The row of one name in `summary["due"]`: the job ended before the pair's turn. -/
def dueRun (ctx : ResultContext) (summary : Dict) (value : Value) : Option PairRun :=
  let name := strip (pyStr (pyOr value (.str "")))
  if name = "" then none
  else
    let historyKey := strip (pyStr (pyOr (Dict.get (innerDict summary "history_keys") name)
      (.str (defaultHistoryKey ctx.kind name))))
    let slot := textOrNone (Dict.textOr (innerDict summary "scheduler_slots") name "")
    let trigger := strippedText summary "trigger"
    let result : Dict :=
      [("name", .str name), ("ok", .bool false), ("error", Dict.get summary "error"),
       ("history_key", .str historyKey)]
    let result := if trigger ≠ "" then Dict.set result "trigger" (.str trigger) else result
    let result :=
      match slot with
      | some text => Dict.set result "scheduled_slot" (.str text)
      | none => result
    let result := if isDryRun summary then Dict.set result "dry_run" (.bool true) else result
    some
      { jobId := ctx.jobId
        pairName := name
        historyKey := historyKey
        ok := false
        dryRun := isDryRun summary
        status := ctx.status
        startedAt := ctx.startedAt
        endedAt := some ctx.endedAt
        scheduledSlot := slot
        resultJson := jsonDumpsBounded (.dict result) maxPairResultBytes }

/-- A reported row goes into the table and into the history. -/
def storeRun (succeeded terminal : Bool) (endedAt : Time) (row : PairRun) (s : JobStore) :
    JobStore :=
  { s with
    pairRuns := upsertPairRun row s.pairRuns
    history := recordHistory row.historyKey row.pairName endedAt succeeded terminal s.history }

/-- The loop over `summary["pairs"]`. -/
def storeReported (ctx : ResultContext) (summary : Dict) :
    List Value → JobStore → Except PyError JobStore
  | [], s => .ok s
  | raw :: rest, s => do
    match ← reportedRun ctx summary raw with
    | none => storeReported ctx summary rest s
    | some row =>
      storeReported ctx summary rest
        (storeRun (row.ok && !row.dryRun) (ctx.status ≠ .running) ctx.endedAt row s)

/-- The loop over `summary["due"]`. -/
def storeDue (ctx : ResultContext) (summary : Dict) (s : JobStore) : JobStore :=
  if ctx.status = .error ∨ ctx.status = .stale ∨ ctx.status = .cancelled then
    (innerList summary "due").foldl (fun s value =>
      match dueRun ctx summary value with
      | none => s
      | some row => storeRun false true ctx.endedAt row s) s
  else s

/-- The status that ends an attempt the summary does not name. -/
def unfinishedStatus (jobStatus : JobStatus) : JobStatus :=
  if jobStatus = .cancelled ∨ jobStatus = .stale ∨ jobStatus = .skipped then jobStatus
  else .error

/-- `_store_pair_results`. -/
def storePairResults (ctx : ResultContext) (summary : Dict) (s : JobStore) :
    Except PyError JobStore := do
  let s ← storeReported ctx summary (innerList summary "pairs") s
  let s := storeDue ctx summary s
  if ctx.status = .running then .ok s
  else
    .ok (terminalizeAttempts ctx.jobId (unfinishedStatus ctx.status) ctx.endedAt
      (some (Dict.textOr summary "error" "")) s)

/-! ### Starting a job -/

/-- `_BACKUP_SCOPE_KINDS`. -/
def backupScopeKinds : List String := ["backup", "check", "quicksync", "restoretest", "recovery"]

/-- `_JOB_SCOPE_KINDS.get(kind, (kind,))`. -/
def scopeKinds (kind : String) : List String :=
  if backupScopeKinds.contains kind then backupScopeKinds else [kind]

/-- The arguments of `job_start`. -/
structure StartRequest where
  kind : String
  attempts : List Value
  exclusiveScope : Bool
  definitionId : Option String
  definitionName : Option String
  scheduledSlot : Option String
  dryRun : Option Bool
  trigger : Option String

/-- The attempts that are mappings. -/
def StartRequest.prepared (r : StartRequest) : List Dict := r.attempts.filterMap asDict

/-- `inferred_dry_run`. -/
def StartRequest.inferredDryRun (r : StartRequest) : Bool :=
  r.dryRun.getD (!r.prepared.isEmpty && r.prepared.all isDryRun)

/-- `inferred_trigger`. -/
def StartRequest.inferredTrigger (r : StartRequest) : String :=
  let given := strip (r.trigger.getD "")
  if given ≠ "" then given
  else
    let triggers := (r.prepared.map fun a => strippedText a "trigger").filter (· ≠ "")
    match firstOccurrences triggers with
    | [only] => only
    | _ => if r.scheduledSlot.getD "" ≠ "" then "scheduler" else "manual"

/-- The row of an attempt that has just begun. -/
def startedRun (jobId : Nat) (kind : String) (now : Time) (attempt : Dict) : Option PairRun :=
  let name := strippedText attempt "name"
  if name = "" then none
  else
    let historyKey := strip (pyStr (pyOr (Dict.get attempt "history_key")
      (.str (defaultHistoryKey kind name))))
    let slot := textOrNone (Dict.textOr attempt "scheduled_slot" "")
    let result : Dict :=
      [("name", .str name), ("ok", .bool false), ("pending", .bool true),
       ("trigger", .str (Dict.textOr attempt "trigger" "manual")),
       ("history_key", .str historyKey)]
    let result :=
      match slot with
      | some text => Dict.set result "scheduled_slot" (.str text)
      | none => result
    let result := if isDryRun attempt then Dict.set result "dry_run" (.bool true) else result
    some
      { jobId := jobId
        pairName := name
        historyKey := historyKey
        ok := false
        dryRun := isDryRun attempt
        status := .running
        startedAt := now
        endedAt := none
        scheduledSlot := slot
        resultJson := jsonDumpsBounded (.dict result) maxPairResultBytes }

/-- `INSERT OR IGNORE` of the attempt, and its mark in the history. -/
def storeStarted (now : Time) (row : PairRun) (s : JobStore) : JobStore :=
  { s with
    pairRuns := Tables.upsert PairRun.key row id s.pairRuns
    history := recordHistory row.historyKey row.pairName now false false s.history }

/-- The running job of these kinds that was started last. -/
def latestRunning (kinds : List String) (jobs : List Job) : Option Job :=
  (jobs.filter fun j => j.status = .running && kinds.contains j.kind).foldl
    (fun latest j =>
      match latest with
      | none => some j
      | some l => if l.startedAt < j.startedAt then some j else some l) none

/-- `job_start`: the id of the new job. -/
def jobStart (r : StartRequest) (now : Time) (s : JobStore) : Except PyError (Nat × JobStore) :=
  if r.kind = "" ∨ 64 < r.kind.length then .error (.value "Ungültiger Job-Typ")
  else
    match if r.exclusiveScope then latestRunning (scopeKinds r.kind) s.jobs else none with
    | some running => .error (.runtime
        ("Job-Scope bereits belegt durch " ++ running.kind ++ " #" ++ toString running.id))
    | none =>
      let id := s.nextJobId
      let slot := textOrNone (r.scheduledSlot.getD "")
      let s := { s with
        nextJobId := id + 1
        jobs := s.jobs ++ [
          { id := id
            kind := r.kind
            status := .running
            startedAt := now
            endedAt := none
            summaryJson := none
            definitionId := textOrNone (r.definitionId.getD "")
            definitionName := textOrNone (r.definitionName.getD "")
            scheduledSlot := slot
            dryRun := r.inferredDryRun
            trigger := r.inferredTrigger }] }
      let s := (r.prepared.filterMap (startedRun id r.kind now)).foldl
        (fun s row => storeStarted now row s) s
      let report : ScheduleReport :=
        ⟨r.definitionId.getD "", r.definitionName.getD "", id, now, none, .running,
          r.inferredTrigger, slot, r.inferredDryRun⟩
      if r.inferredTrigger = "scheduler" then
        .ok (id, { s with schedule := recordSchedule report s.schedule })
      else .ok (id, s)

/-! ### Finishing a job -/

/-- The row a finish works with, read before its transaction: `none` when the job is not
running. -/
def finishRead (id : Nat) (s : JobStore) : Except PyError (Option Job) :=
  match s.job id with
  | none => .error (.value ("Job nicht gefunden: " ++ toString id))
  | some row => .ok (if row.status = .running then some row else none)

/-- What `job_finish` derives from the row and the summary. -/
def finishReport (row : Job) (status : JobStatus) (summary : Dict) (now : Time) :
    ScheduleReport where
  definitionId := row.definitionId.getD ""
  definitionName := row.definitionName.getD ""
  jobId := row.id
  startedAt := row.startedAt
  endedAt := some now
  status := status
  trigger := (textOrNone (pyStr (pyOr (Dict.get summary "trigger")
    (.str (if row.trigger = "" then "manual" else row.trigger))))).getD "manual"
  scheduledSlot := textOrNone (pyStr (pyOr (Dict.get summary "scheduled_slot")
    (.str (row.scheduledSlot.getD ""))))
  dryRun := row.dryRun || isDryRun summary

/-- The job's row after the finish. -/
def finishedJob (report : ScheduleReport) (now : Time) (payload : Option String) (job : Job) :
    Job :=
  { job with
    status := report.status
    endedAt := some now
    summaryJson := payload
    dryRun := report.dryRun
    trigger := report.trigger
    scheduledSlot := job.scheduledSlot.or report.scheduledSlot }

/-- The rows that `WHERE id=? AND status='running'` selects. -/
def isRunningJob (id : Nat) (job : Job) : Bool := job.id = id && job.status = .running

/-- The transaction of `job_finish`: a compare-and-set on the running row, and what follows
from it.  The result tells whether this call ended the job. -/
def finishWrite (row : Job) (status : JobStatus) (summary : Option Dict) (now : Time)
    (s : JobStore) : Except PyError (Bool × JobStore) := do
  if s.jobs.any (isRunningJob row.id) = false then .ok (false, s)
  else
    let payload := summary.map fun d => jsonDumpsBounded (.dict d) maxJobSummaryBytes
    let data := summary.getD []
    let report := finishReport row status data now
    let s := { s with
      jobs := Tables.updateWhere (isRunningJob row.id) (finishedJob report now payload) s.jobs }
    let s ← storePairResults ⟨row.id, row.kind, status, row.startedAt, now⟩ data s
    .ok (true, { s with schedule := recordSchedule report s.schedule })

/-- `job_finish` without anything in between its two halves. -/
def jobFinish (id : Nat) (status : JobStatus) (summary : Option Dict) (now : Time)
    (s : JobStore) : Except PyError (Bool × JobStore) := do
  match ← finishRead id s with
  | none => .ok (false, s)
  | some row => finishWrite row status summary now s

/-! ### Results from outside: stage, then apply -/

/-- `job_terminal_stage`. -/
def terminalStage (id : Nat) (status : JobStatus) (summary : Option Dict) (now : Time)
    (s : JobStore) : Except PyError JobStore :=
  if status = .running then
    .error (.value ("Ungueltiger terminaler Job-Status: " ++ status.text))
  else
    let payload := jsonDumpsBounded (.dict (summary.getD [])) maxJobSummaryBytes
    match s.job id with
    | none => .error (.value ("Job nicht gefunden: " ++ toString id))
    | some _ =>
      match s.intent id with
      | none => .ok { s with intents := s.intents ++ [⟨id, status, payload, now, now, none⟩] }
      | some intent =>
        if intent.status = status ∧ intent.summaryJson = payload then
          .ok { s with
            intents := Tables.updateWhere (fun i => decide (i.jobId = id))
              (fun i => { i with updatedAt := now }) s.intents }
        else .error (.runtime ("Abweichender terminaler Abschluss fuer Job #" ++ toString id))

/-- The summary of an intent.  Only mappings are ever staged. -/
def stagedSummary (text : String) : Dict :=
  match jsonLoads (if text = "" then "\x7b\x7d" else text) with
  | some (.dict d) => d
  | _ => []

/-- The first read of `job_terminal_apply`. -/
def applyRead (id : Nat) (s : JobStore) : Except PyError (JobStatus × Dict) :=
  match s.intent id with
  | none => .error (.value ("Kein terminaler Abschluss fuer Job #" ++ toString id))
  | some intent => .ok (intent.status, stagedSummary intent.summaryJson)

/-- The check of `job_terminal_apply` after its finish. -/
def applyCheck (id : Nat) (status : JobStatus) (transitioned : Bool) (s : JobStore) :
    Except PyError Unit :=
  let actual := ((s.job id).map Job.status)
  if transitioned = false ∧ actual ≠ some status then
    .error (.runtime ("Terminaler CAS-Konflikt fuer Job #" ++ toString id))
  else .ok ()

/-- The last transaction of `job_terminal_apply`. -/
def applyMark (id : Nat) (now : Time) (s : JobStore) : JobStore :=
  { s with
    intents := Tables.updateWhere (fun i => decide (i.jobId = id))
      (fun i => { i with appliedAt := i.appliedAt.or (some now), updatedAt := now }) s.intents }

/-- `job_terminal_apply` without anything in between its parts. -/
def terminalApply (id : Nat) (now : Time) (s : JobStore) : Except PyError (Bool × JobStore) := do
  let (status, summary) ← applyRead id s
  let (transitioned, s) ← jobFinish id status (some summary) now s
  applyCheck id status transitioned s
  .ok (true, applyMark id now s)

/-- `job_terminal_recover_pending`: the jobs it takes up, in this order. -/
def pendingIntents (s : JobStore) : List Nat :=
  ((s.intents.filter fun i => i.appliedAt.isNone).insertionSort
    fun a b => a.createdAt ≤ b.createdAt).map TerminalIntent.jobId

/-! ### Stale jobs -/

/-- What is recorded of a job that was marked stale. -/
def staleReport (row : Job) (now : Time) : ScheduleReport where
  definitionId := row.definitionId.getD ""
  definitionName := row.definitionName.getD ""
  jobId := row.id
  startedAt := row.startedAt
  endedAt := some now
  status := .stale
  trigger := if row.trigger = "" then "manual" else row.trigger
  scheduledSlot := row.scheduledSlot
  dryRun := row.dryRun

/-- The running jobs that meet `p` become stale, with their open attempts. -/
def markStaleWhere (p : Job → Bool) (reason summary : String) (now : Time) (s : JobStore) :
    JobStore :=
  let rows := s.jobs.filter fun j => j.status = .running && p j
  let s := { s with
    jobs := Tables.updateWhere (fun j => j.status = .running && p j)
      (fun j => { j with status := .stale, endedAt := some now, summaryJson := some summary })
      s.jobs }
  let s := rows.foldl (fun s row => terminalizeAttempts row.id .stale now (some reason) s) s
  { s with schedule := rows.foldl (fun schedule row =>
      recordSchedule (staleReport row now) schedule) s.schedule }

def staleSummary (reason : String) (now : Time) : Value :=
  .dict [("error", .str reason), ("recovered_at", timeValue now)]

/-- `job_mark_stale`. -/
def jobMarkStale (id : Nat) (reason : String) (now : Time) (s : JobStore) : JobStore :=
  markStaleWhere (fun j => j.id = id) reason
    (jsonDumpsBounded (staleSummary reason now) maxJobSummaryBytes) now s

/-- The `kind IN (…)` clause; no kinds mean every kind. -/
def ofKinds (kinds : List String) (j : Job) : Bool :=
  let normalized := (kinds.map strip).filter (· ≠ "")
  normalized.isEmpty || normalized.contains j.kind

/-- `jobs_mark_all_running_stale`. -/
def jobsMarkAllRunningStale (kinds : List String) (reason : String) (now : Time)
    (s : JobStore) : JobStore :=
  markStaleWhere (ofKinds kinds) reason
    (jsonDumpsBounded (staleSummary reason now) maxJobSummaryBytes) now s

/-- The clause of `jobs_mark_stale`: older than `maxAge` seconds, and of the kind if one is
given. -/
def olderThan (maxAge : Int) (kind : Option String) (now : Time) (j : Job) : Bool :=
  decide (j.startedAt < now - max 60 maxAge * 1000000) &&
    (kind.getD "" = "" || j.kind = kind.getD "")

/-- `jobs_mark_stale`. -/
def jobsMarkStale (maxAge : Int) (kind : Option String) (reason : String) (now : Time)
    (s : JobStore) : JobStore :=
  markStaleWhere (olderThan maxAge kind now) reason
    (jsonDumps plainJson (staleSummary reason now)) now s

/-! ### What the transactions leave alone -/

section Frames

/-- A reading of the tables that looks neither at the attempts nor at their history. -/
def IgnoresRuns {α : Type} (g : JobStore → α) : Prop :=
  ∀ s runs history, g { s with pairRuns := runs, history := history } = g s

theorem IgnoresRuns.foldl {α β : Type} {g : JobStore → α} {f : JobStore → β → JobStore}
    (hf : ∀ s b, g (f s b) = g s) (bs : List β) (s : JobStore) : g (bs.foldl f s) = g s := by
  induction bs generalizing s with
  | nil => rfl
  | cons b bs ih => exact (ih (f s b)).trans (hf s b)

theorem IgnoresRuns.storeReported {α : Type} {g : JobStore → α} (hg : IgnoresRuns g)
    {ctx : ResultContext} {summary : Dict} {values : List Value} {s t : JobStore}
    (h : storeReported ctx summary values s = .ok t) : g t = g s := by
  induction values generalizing s with
  | nil =>
    obtain rfl := Except.ok.inj h
    rfl
  | cons v values ih =>
    obtain ⟨run, _, h⟩ := bind_ok.mp h
    cases run with
    | none => exact ih h
    | some row =>
      change RcloneSync.storeReported ctx summary values (storeRun _ _ _ row s) = .ok t at h
      exact (ih h).trans (hg s _ _)

theorem IgnoresRuns.storeDue {α : Type} {g : JobStore → α} (hg : IgnoresRuns g)
    (ctx : ResultContext) (summary : Dict) (s : JobStore) :
    g (storeDue ctx summary s) = g s := by
  unfold RcloneSync.storeDue
  split_ifs
  · refine IgnoresRuns.foldl (fun s v => ?_) _ s
    cases dueRun ctx summary v with
    | none => rfl
    | some row => exact hg s _ _
  · rfl

/-- Storing results and ending attempts leaves everything else alone. -/
theorem IgnoresRuns.storePairResults {α : Type} {g : JobStore → α} (hg : IgnoresRuns g)
    {ctx : ResultContext} {summary : Dict} {s t : JobStore}
    (h : storePairResults ctx summary s = .ok t) : g t = g s := by
  obtain ⟨u, hu, h⟩ := bind_ok.mp h
  have hdue := (hg.storeDue ctx summary u).trans (hg.storeReported hu)
  split_ifs at h
  · obtain rfl := Except.ok.inj h
    exact hdue
  · obtain rfl := Except.ok.inj h
    exact (hg _ _ _).trans hdue

/-- Two states of the tables with the same jobs and the same intents. -/
def SameJobs (s t : JobStore) : Prop := t.jobs = s.jobs ∧ t.intents = s.intents

theorem sameJobs_storePairResults {ctx : ResultContext} {summary : Dict} {s t : JobStore}
    (h : storePairResults ctx summary s = .ok t) : SameJobs s t :=
  ⟨IgnoresRuns.storePairResults (fun _ _ _ => rfl) h,
    IgnoresRuns.storePairResults (fun _ _ _ => rfl) h⟩

/-- What a finish does to the jobs: it ends the running row with its id, if there is one. -/
theorem finishWrite_jobs {row : Job} {status : JobStatus} {summary : Option Dict} {now : Time}
    {s t : JobStore} {done : Bool} (h : finishWrite row status summary now s = .ok (done, t)) :
    t.intents = s.intents ∧ t.nextJobId = s.nextJobId ∧
      done = s.jobs.any (isRunningJob row.id) ∧
      t.jobs = Tables.updateWhere (isRunningJob row.id)
        (finishedJob (finishReport row status (summary.getD []) now) now
          (summary.map fun d => jsonDumpsBounded (.dict d) maxJobSummaryBytes)) s.jobs := by
  unfold finishWrite at h
  split_ifs at h with hany
  · obtain ⟨rfl, rfl⟩ := Prod.mk.inj (Except.ok.inj h)
    exact ⟨rfl, rfl, hany.symm, (Tables.updateWhere_of_none hany _).symm⟩
  · obtain ⟨u, hu, h⟩ := bind_ok.mp h
    obtain ⟨rfl, rfl⟩ := Prod.mk.inj (Except.ok.inj h)
    obtain ⟨hjobs, hintents⟩ := sameJobs_storePairResults hu
    have hnext : u.nextJobId = _ := IgnoresRuns.storePairResults (fun _ _ _ => rfl) hu
    exact ⟨hintents, hnext, (Bool.not_eq_false _ ▸ hany).symm, hjobs⟩

/-- A finish changes at most the status of the job it read, to its own status. -/
theorem finishWrite_spec {row : Job} {status : JobStatus} {summary : Option Dict} {now : Time}
    {s t : JobStore} {done : Bool} (h : finishWrite row status summary now s = .ok (done, t)) :
    t.intents = s.intents ∧
      ∀ id, (t.job id).map Job.status = (s.job id).map fun j =>
        if isRunningJob row.id j then status else j.status := by
  obtain ⟨hintents, _, _, hjobs⟩ := finishWrite_jobs h
  refine ⟨hintents, fun id => ?_⟩
  rw [JobStore.job, hjobs, Tables.find_updateWhere (by intro _; rfl)]
  cases hj : Tables.find Job.id s.jobs id with
  | none => simp [JobStore.job, hj]
  | some j =>
    simp only [JobStore.job, hj, Option.map_some]
    split_ifs <;> rfl

/-- What a stale marking does to the jobs. -/
theorem markStaleWhere_jobs (p : Job → Bool) (reason summary : String) (now : Time)
    (s : JobStore) :
    (markStaleWhere p reason summary now s).intents = s.intents ∧
      (markStaleWhere p reason summary now s).nextJobId = s.nextJobId ∧
      (markStaleWhere p reason summary now s).jobs
        = Tables.updateWhere (fun j => j.status = .running && p j)
          (fun j => { j with status := .stale, endedAt := some now, summaryJson := some summary })
          s.jobs := by
  have hframe : ∀ {α : Type} {g : JobStore → α} (_ : IgnoresRuns g) (rows : List Job) u,
      g (rows.foldl (fun s row => terminalizeAttempts row.id .stale now (some reason) s) u)
        = g u :=
    fun hg => IgnoresRuns.foldl fun _ _ => hg _ _ _
  exact ⟨hframe (g := JobStore.intents) (fun _ _ _ => rfl) _ _,
    hframe (g := JobStore.nextJobId) (fun _ _ _ => rfl) _ _,
    hframe (g := JobStore.jobs) (fun _ _ _ => rfl) _ _⟩

theorem markStaleWhere_spec (p : Job → Bool) (reason summary : String) (now : Time)
    (s : JobStore) :
    (markStaleWhere p reason summary now s).intents = s.intents ∧
      ∀ id, ((markStaleWhere p reason summary now s).job id).map Job.status
        = (s.job id).map fun j =>
          if (j.status = .running && p j) = true then .stale else j.status := by
  obtain ⟨hintents, _, hjobs⟩ := markStaleWhere_jobs p reason summary now s
  refine ⟨hintents, fun id => ?_⟩
  rw [JobStore.job, hjobs, Tables.find_updateWhere (by intro _; rfl)]
  cases hj : Tables.find Job.id s.jobs id with
  | none => simp [JobStore.job, hj]
  | some j =>
    simp only [JobStore.job, hj, Option.map_some]
    split_ifs <;> rfl

/-- What starting a job does to the jobs: a running row with a fresh id is added. -/
theorem jobStart_jobs {r : StartRequest} {now : Time} {s t : JobStore} {new : Nat}
    (h : jobStart r now s = .ok (new, t)) :
    t.intents = s.intents ∧ new = s.nextJobId ∧ t.nextJobId = s.nextJobId + 1 ∧
      ∃ j : Job, j.id = s.nextJobId ∧ j.status = .running ∧ j.summaryJson = none ∧
        j.kind = r.kind ∧ t.jobs = s.jobs ++ [j] := by
  unfold jobStart at h
  by_cases hkind : r.kind = "" ∨ 64 < r.kind.length
  · rw [if_pos hkind] at h
    cases h
  rw [if_neg hkind] at h
  generalize (if r.exclusiveScope then latestRunning (scopeKinds r.kind) s.jobs else none)
    = running at h
  cases running with
  | some j => cases h
  | none =>
    simp only at h
    have hframe : ∀ {α : Type} {g : JobStore → α} (_ : IgnoresRuns g) (rows : List PairRun) u,
        g (rows.foldl (fun s row => storeStarted now row s) u) = g u :=
      fun hg => IgnoresRuns.foldl fun _ _ => hg _ _ _
    split_ifs at h <;>
    · obtain ⟨rfl, rfl⟩ := Prod.mk.inj (Except.ok.inj h)
      exact ⟨hframe (g := JobStore.intents) (fun _ _ _ => rfl) _ _, rfl,
        hframe (g := JobStore.nextJobId) (fun _ _ _ => rfl) _ _, _, rfl, rfl, rfl, rfl,
        hframe (g := JobStore.jobs) (fun _ _ _ => rfl) _ _⟩

/-- A new job leaves the rows of the others and every intent as they are. -/
theorem jobStart_spec {r : StartRequest} {now : Time} {s t : JobStore} {new : Nat}
    (h : jobStart r now s = .ok (new, t)) :
    t.intents = s.intents ∧ ∀ id j, s.job id = some j → t.job id = some j := by
  obtain ⟨hintents, _, _, new, _, _, _, _, hjobs⟩ := jobStart_jobs h
  refine ⟨hintents, fun id j hj => ?_⟩
  rw [JobStore.job, hjobs, Tables.find_append,
    show Tables.find Job.id s.jobs id = some j from hj]
  rfl

/-- A change of intents that keeps what was staged. -/
theorem find_intents_updateWhere {f : TerminalIntent → TerminalIntent}
    {p : TerminalIntent → Bool} {s : JobStore} {k : Nat} {i : TerminalIntent}
    (hf : ∀ i, (f i).jobId = i.jobId ∧ (f i).status = i.status ∧
      (f i).summaryJson = i.summaryJson) (hk : s.intent k = some i) :
    ∃ i', Tables.find TerminalIntent.jobId (Tables.updateWhere p f s.intents) k = some i' ∧
      i'.status = i.status ∧ i'.summaryJson = i.summaryJson := by
  rw [Tables.find_updateWhere (fun i => (hf i).1),
    show Tables.find TerminalIntent.jobId s.intents k = some i from hk]
  refine ⟨_, rfl, ?_⟩
  by_cases hp : p i = true
  · simp only [hp, if_true]
    exact (hf i).2
  · simp only [hp, if_false, Bool.false_eq_true, and_self]

/-- Staging leaves the jobs alone; an intent that is there keeps its status and its text. -/
theorem terminalStage_spec {id : Nat} {status : JobStatus} {summary : Option Dict} {now : Time}
    {s t : JobStore} (h : terminalStage id status summary now s = .ok t) :
    t.jobs = s.jobs ∧ (t.intent id).map TerminalIntent.status = some status ∧
      ∀ k i, s.intent k = some i → ∃ i', t.intent k = some i' ∧ i'.status = i.status ∧
        i'.summaryJson = i.summaryJson := by
  unfold terminalStage at h
  split_ifs at h with hrunning
  cases hj : s.job id with
  | none =>
    rw [hj] at h
    cases h
  | some j =>
    rw [hj] at h
    simp only at h
    cases hi : s.intent id with
    | none =>
      rw [hi] at h
      obtain rfl := Except.ok.inj h
      refine ⟨rfl, ?_, fun k i hk => ⟨i, ?_, rfl, rfl⟩⟩
      · have hnone : Tables.find TerminalIntent.jobId s.intents id = none := hi
        simp [JobStore.intent, Tables.find_append, hnone]
      · have hsome : Tables.find TerminalIntent.jobId s.intents k = some i := hk
        simp [JobStore.intent, Tables.find_append, hsome]
    | some i₀ =>
      rw [hi] at h
      simp only at h
      split_ifs at h with hsame
      obtain rfl := Except.ok.inj h
      have hkeep : ∀ k i, s.intent k = some i →
          ∃ i', Tables.find TerminalIntent.jobId (Tables.updateWhere
              (fun i => decide (i.jobId = id)) (fun i => { i with updatedAt := now })
              s.intents) k = some i' ∧
            i'.status = i.status ∧ i'.summaryJson = i.summaryJson := fun k i hk =>
        find_intents_updateWhere (by intro _; exact ⟨rfl, rfl, rfl⟩) hk
      refine ⟨rfl, ?_, hkeep⟩
      obtain ⟨i', hi', hstatus, _⟩ := hkeep id i₀ hi
      have hmap := congrArg (Option.map TerminalIntent.status) hi'
      exact hmap.trans (congrArg some (hstatus.trans hsame.1))

theorem applyMark_spec (id : Nat) (now : Time) (s : JobStore) :
    (applyMark id now s).jobs = s.jobs ∧
      ∀ k i, s.intent k = some i → ∃ i', (applyMark id now s).intent k = some i' ∧
        i'.status = i.status ∧ i'.summaryJson = i.summaryJson := by
  exact ⟨rfl, fun k i hk => find_intents_updateWhere (by intro _; exact ⟨rfl, rfl, rfl⟩) hk⟩

end Frames

end RcloneSync
