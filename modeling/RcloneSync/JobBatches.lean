/-
RcloneSync/JobBatches.lean

Batches of job definitions (db.py, routes/api_jobs.py): the rows of a batch and of its items, the
thread that works on the items one after the other, and what is done with a batch after the process
has stopped.

The thread holds the backup lock, so there is at most one.  It may stop between any two of its
transactions.  At the next start `job_batch_recover` closes the items whose jobs have ended, and a
new thread takes up the rest; it reads the items once, at its beginning.

What happens beside the thread is here without an order: the creation of the batch, cancel
requests, the signal of the process that other runs set and reset, the jobs of other runs, staged
results that are applied, jobs that are marked stale, and jobs that are deleted, which empties the
column of their item (`ON DELETE SET NULL`).  One batch is followed, from a database without jobs
on; what other batches do is among the steps beside it.
-/
import RcloneSync.JobRetention
import RcloneSync.Runs

namespace RcloneSync

open Py Runs

/-! ### The rows of a batch -/

inductive ItemState
  | queued | running | done | failed | cancelled
  deriving DecidableEq, Repr

/-- `state IN ('queued', 'running')`. -/
def ItemState.isOpen (s : ItemState) : Bool := s = .queued || s = .running

/-- What a batch stores of a definition, for the start of its job. -/
structure BatchSpec where
  attempts : List Value
  definitionId : Option String
  definitionName : Option String

/-- The arguments of `job_start` for an item. -/
def BatchSpec.request (spec : BatchSpec) : StartRequest where
  kind := "backup"
  attempts := spec.attempts
  exclusiveScope := true
  definitionId := spec.definitionId
  definitionName := spec.definitionName
  scheduledSlot := none
  dryRun := none
  trigger := none

/-- A row of `job_batch_items`. -/
structure BatchItem where
  position : Nat
  spec : BatchSpec
  state : ItemState
  jobId : Option Nat
  error : Option String

inductive BatchState
  | running | done | cancelled
  deriving DecidableEq, Repr

/-- A row of `job_batches` with its items. -/
structure JobBatch where
  state : BatchState
  cancelRequested : Bool
  items : List BatchItem

/-- The items of a new batch, from a position on. -/
def queuedItems : Nat → List BatchSpec → List BatchItem
  | _, [] => []
  | position, spec :: specs =>
    ⟨position, spec, .queued, none, none⟩ :: queuedItems (position + 1) specs

/-- `job_batch_create`. -/
def jobBatchCreate (specs : List BatchSpec) (firstJobId : Nat) : Except PyError JobBatch :=
  match specs with
  | [] => .error (.value "Ein Job-Batch benoetigt mindestens ein Element")
  | spec :: specs =>
    .ok ⟨.running, false, ⟨0, spec, .running, some firstJobId, none⟩ :: queuedItems 1 specs⟩

def JobBatch.hasOpen (b : JobBatch) : Bool := b.items.any fun i => i.state.isOpen

/-- `job_batch_item_start`. -/
def jobBatchItemStart (position jobId : Nat) (b : JobBatch) : Bool × JobBatch :=
  let claimed := fun i : BatchItem => decide (i.position = position ∧ i.state = .queued)
  (b.items.any claimed,
    { b with
      items := Tables.updateWhere claimed
        (fun i => { i with
          state := .running
          jobId := some jobId }) b.items })

/-- A batch without open items ends. -/
def JobBatch.conclude (final : BatchState) (b : JobBatch) : JobBatch :=
  if b.hasOpen = false ∧ b.state = .running then { b with state := final } else b

/-- `job_batch_item_finish`. -/
def jobBatchItemFinish (position : Nat) (state : ItemState) (error : Option String)
    (b : JobBatch) : JobBatch :=
  JobBatch.conclude (if b.cancelRequested then .cancelled else .done)
    { b with
      items := Tables.updateWhere (fun i => decide (i.position = position) && i.state.isOpen)
        (fun i => { i with state := state, error := error }) b.items }

/-- `job_batch_request_cancel`. -/
def jobBatchRequestCancel (b : JobBatch) : JobBatch :=
  if b.state = .running then { b with cancelRequested := true } else b

/-- The status of the job of an item, for `job_batch_recover`. -/
def recoveredStatus (s : JobStore) (i : BatchItem) : JobStatus :=
  ((i.jobId.bind s.job).map Job.status).getD .stale

/-- The items that `job_batch_recover` closes. -/
def isRecovered (s : JobStore) (i : BatchItem) : Bool :=
  decide (i.state = .running ∧ recoveredStatus s i ≠ .running)

/-- An item that was found open, with a job that is not running. -/
def recoveredItem (s : JobStore) (i : BatchItem) : BatchItem :=
  let status := recoveredStatus s i
  { i with
    state := if status = .ok then .done else .failed
    error := if status = .ok then none else some ("Unterbrochener Lauf: " ++ status.text) }

/-- `job_batch_recover`. -/
def jobBatchRecover (s : JobStore) (b : JobBatch) : JobBatch :=
  JobBatch.conclude .done
    { b with items := Tables.updateWhere (isRecovered s) (recoveredItem s) b.items }

/-- The state of an item whose job has ended, as the thread records it. -/
def itemState (status : JobStatus) : ItemState :=
  if status = .ok then .done else if status = .cancelled then .cancelled else .failed

/-! ### The thread -/

/-- `str(exc)`. -/
def errorText : PyError → String
  | .value message => message
  | .type message => message
  | .attribute message => message
  | .overflow message => message
  | .index message => message
  | .runtime message => message
  | .os message => message

/-- Where the thread stands in its loop, with the item as it was read. -/
inductive BatchPhase
  | reading
  | next
  | cancelling (item : BatchItem)
  | starting (item : BatchItem)
  | claiming (item : BatchItem) (job : Nat)
  | failing (item : BatchItem) (error : String)
  | entering (item : BatchItem) (job : Nat)
  | running (item : BatchItem) (job : Nat)
  | observing (item : BatchItem) (job : Nat)
  | closing (item : BatchItem) (job : Nat) (status : JobStatus)

/-- The thread: the items it has not taken yet, as it read them, and its place. -/
structure BatchWorker where
  rest : List BatchItem
  phase : BatchPhase

/-- The tables; and what no table keeps: the items that got a job, the jobs that were run for them,
and the deleted jobs. -/
structure BatchTables where
  store : JobStore
  batch : JobBatch
  claims : List (Nat × Nat)
  runs : List (Nat × Nat)
  deleted : List Job

/-- The tables with the thread and the signal of the process. -/
structure BatchSystem where
  tables : BatchTables
  worker : Option BatchWorker
  cancelled : Bool

/-- Before the first job, and before the batch: it has no items yet. -/
def BatchSystem.init : BatchSystem := ⟨⟨.empty, ⟨.done, false, []⟩, [], [], []⟩, none, false⟩

/-! ### What happens to the tables -/

/-- `job_terminal_pending`. -/
def terminalPending (s : JobStore) (id : Nat) : Bool :=
  s.intents.any fun i => decide (i.jobId = id) && i.appliedAt.isNone

namespace BatchTables

/-- A transaction on the jobs.  One that fails leaves the tables as they were. -/
def attempt (s : BatchTables) (result : Except PyError JobStore) : BatchTables :=
  match result with
  | .ok store => { s with store := store }
  | .error _ => s

/-- `job_finish`, whoever calls it. -/
def finishJob (s : BatchTables) (id : Nat) (status : JobStatus) (summary : Option Dict)
    (now : Time) : BatchTables :=
  s.attempt ((jobFinish id status summary now s.store).map Prod.snd)

/-- `job_terminal_apply` up to the end of its finish. -/
def applyFinish (s : BatchTables) (id : Nat) (now : Time) : BatchTables :=
  match applyRead id s.store with
  | .ok (status, summary) => s.finishJob id status (some summary) now
  | .error _ => s

/-- The last transaction of `job_terminal_apply`, after the check that the job has the staged
status. -/
def applyMark (s : BatchTables) (id : Nat) (now : Time) : BatchTables :=
  match applyRead id s.store with
  | .ok (status, _) =>
    if (s.store.job id).map Job.status = some status then
      { s with store := RcloneSync.applyMark id now s.store }
    else s
  | .error _ => s

/-- The deletion of jobs that have ended; their items lose them. -/
def delete (s : BatchTables) (p : Job → Bool) : BatchTables :=
  let gone := s.store.jobs.filter fun j => j.status ≠ .running && p j
  { s with
    store := deleteJobs (fun j => j.status ≠ .running && p j) s.store
    batch := { s.batch with
      items := Tables.updateWhere (fun i => i.jobId.any (gone.map Job.id).contains)
        (fun i => { i with jobId := none }) s.batch.items }
    deleted := s.deleted ++ gone }

/-- `job_batch_item_finish` by the thread. -/
def finishItem (s : BatchTables) (position : Nat) (state : ItemState) (error : Option String) :
    BatchTables :=
  { s with batch := jobBatchItemFinish position state error s.batch }

/-- `job_batch_item_start`, where it claims the item. -/
def claimItem (s : BatchTables) (position job : Nat) : BatchTables :=
  { s with
    batch := (jobBatchItemStart position job s.batch).2
    claims := s.claims ++ [(position, job)] }

end BatchTables

/-! ### Steps -/

/-- What the thread does. -/
inductive ThreadAction
  | read
  | take
  | cancelItem
  | startJob (now : Time)
  | claim (now : Time)
  | failItem
  | enter
  | finish (status : JobStatus) (summary : Option Dict) (now : Time)
  | stage (status : JobStatus) (summary : Option Dict) (now : Time)
  | leave
  | observe
  | closeItem

inductive BatchAction
  | thread (a : ThreadAction)
  | create (specs : List BatchSpec) (firstJobId : Nat)
  | stop
  | recover
  | resume (keepSignal : Bool) (reason : String) (now : Time)
  | requestCancel
  | signal (on : Bool)
  | start (request : StartRequest) (now : Time)
  | finish (id : Nat) (status : JobStatus) (summary : Option Dict) (now : Time)
  | applyFinish (id : Nat) (now : Time)
  | applyMark (id : Nat) (now : Time)
  | markStale (kinds : List String) (reason : String) (now : Time)
  | delete (p : Job → Bool)

/-- The thread goes on, with the items that are left. -/
def BatchSystem.goOn (s : BatchSystem) (tables : BatchTables) (rest : List BatchItem)
    (phase : BatchPhase) : BatchSystem :=
  { s with
    tables := tables
    worker := some ⟨rest, phase⟩ }

/-- The beginning of a round of the loop. -/
def BatchSystem.takePhase (s : BatchSystem) (item : BatchItem) : BatchPhase :=
  if item.state.isOpen = false then .next
  else if s.tables.batch.cancelRequested || s.cancelled then .cancelling item
  else
    match item.state, item.jobId with
    | .running, some job => .entering item job
    | _, _ => .starting item

/-- What is recorded of a job whose item another thread has claimed. -/
def claimLost : Dict :=
  [("ok", .bool false), ("error", .str "Batch-Item wurde bereits beansprucht"),
    ("error_code", .str "batch_item_claim_lost")]

/-- The steps of `_run_definition_batch_thread`, and in `running` those of
`_run_backup_thread`. -/
def BatchSystem.work (s : BatchSystem) (rest : List BatchItem) :
    BatchPhase → ThreadAction → Option BatchSystem
  | .reading, .read => some (s.goOn s.tables s.tables.batch.items .next)
  | .next, .take =>
    match rest with
    | [] => some { s with worker := none }
    | item :: rest => some (s.goOn s.tables rest (s.takePhase item))
  | .cancelling item, .cancelItem =>
    some (s.goOn (s.tables.finishItem item.position .cancelled none) rest .next)
  | .starting item, .startJob now =>
    match jobStart item.spec.request now s.tables.store with
    | .ok (job, store) => some (s.goOn { s.tables with store := store } rest (.claiming item job))
    | .error e => some (s.goOn s.tables rest (.failing item (errorText e)))
  | .claiming item job, .claim now =>
    if (jobBatchItemStart item.position job s.tables.batch).1 then
      some (s.goOn (s.tables.claimItem item.position job) rest (.entering item job))
    else
      match jobFinish job .error (some claimLost) now s.tables.store with
      | .ok (_, store) => some (s.goOn { s.tables with store := store } rest .next)
      | .error e => some (s.goOn s.tables rest (.failing item (errorText e)))
  | .failing item error, .failItem =>
    some (s.goOn (s.tables.finishItem item.position .failed (some error)) rest .next)
  | .entering item job, .enter =>
    if (s.tables.store.job job).map Job.status = some .running then
      some (s.goOn { s.tables with runs := s.tables.runs ++ [(item.position, job)] } rest
        (.running item job))
    else some (s.goOn s.tables rest (.observing item job))
  | .running _ job, .finish status summary now =>
    if status = .running then none
    else some { s with tables := s.tables.finishJob job status summary now }
  | .running _ job, .stage status summary now =>
    some { s with
      tables := s.tables.attempt (terminalStage job status summary now s.tables.store) }
  | .running item job, .leave => some (s.goOn s.tables rest (.observing item job))
  | .observing item job, .observe =>
    let status := ((s.tables.store.job job).map Job.status).getD .stale
    if status = .running ∧ terminalPending s.tables.store job = true then
      some { s with worker := none }
    else some (s.goOn s.tables rest (.closing item job status))
  | .closing item _ status, .closeItem =>
    some (s.goOn (s.tables.finishItem item.position (itemState status)
      (if status = .ok then none else some ("Jobstatus: " ++ status.text))) rest .next)
  | _, _ => none

/-- A step of the thread, or one beside it.  Another caller ends a job of the batch only with an
error: when the thread could not be started (`_abort_reserved_backup_job`). -/
def BatchSystem.step (s : BatchSystem) : BatchAction → Option BatchSystem
  | .thread a => s.worker.bind fun w => s.work w.rest w.phase a
  | .create specs firstJobId =>
    if s.tables.batch.items.isEmpty && s.worker.isNone
        && (s.tables.store.job firstJobId).any fun j => decide (j.kind = "backup") then
      match jobBatchCreate specs firstJobId with
      | .ok batch =>
        some (s.goOn { s.tables with
          batch := batch
          claims := s.tables.claims ++ [(0, firstJobId)] } [] .reading)
      | .error _ => none
    else none
  | .stop => some { s with worker := none }
  | .recover =>
    if s.worker.isNone then
      some { s with tables := { s.tables with
        batch := jobBatchRecover s.tables.store s.tables.batch } }
    else none
  | .resume keepSignal reason now =>
    if s.worker.isNone && decide (s.tables.batch.state = .running) then
      some
        { tables := { s.tables with
            store := jobsMarkAllRunningStale backupScopeKinds reason now s.tables.store }
          worker := some ⟨[], .reading⟩
          cancelled := keepSignal && s.cancelled }
    else none
  | .requestCancel =>
    some { s with
      tables := { s.tables with batch := jobBatchRequestCancel s.tables.batch }
      cancelled := true }
  | .signal on => some { s with cancelled := on }
  | .start request now =>
    some { s with
      tables := s.tables.attempt ((jobStart request now s.tables.store).map Prod.snd) }
  | .finish id status summary now =>
    if status = .error ∨ (status ≠ .running ∧ id ∉ s.tables.claims.map Prod.snd) then
      some { s with tables := s.tables.finishJob id status summary now }
    else none
  | .applyFinish id now => some { s with tables := s.tables.applyFinish id now }
  | .applyMark id now => some { s with tables := s.tables.applyMark id now }
  | .markStale kinds reason now =>
    some { s with tables := { s.tables with
      store := jobsMarkAllRunningStale kinds reason now s.tables.store } }
  | .delete p => some { s with tables := s.tables.delete p }

/-! ### Outcomes -/

/-- The jobs there ever were. -/
def BatchTables.everyJob (s : BatchTables) : List Job := s.store.jobs ++ s.deleted

/-- The row of a job, also of one that was deleted. -/
def BatchTables.ran (s : BatchTables) (id : Nat) : Option Job := Tables.find Job.id s.everyJob id

/-- How a job stands. -/
def BatchTables.outcome (s : BatchTables) (id : Nat) : JobStatus :=
  ((s.ran id).map Job.status).getD .stale

/-- The items say how their jobs ended, the batch whether they have, and nothing ran twice. -/
structure AgreesWithRun (s : BatchTables) : Prop where
  done : ∀ i ∈ s.batch.items, ∀ job, (i.position, job) ∈ s.claims → i.state.isOpen = false →
    (i.state = .done ↔ s.outcome job = .ok)
  cancelled : ∀ i ∈ s.batch.items, ∀ job, (i.position, job) ∈ s.claims → i.state.isOpen = false →
    (i.state = .cancelled ↔ s.outcome job = .cancelled)
  failed : ∀ i ∈ s.batch.items, ∀ job, (i.position, job) ∈ s.claims → i.state.isOpen = false →
    (i.state = .failed ↔ s.outcome job ≠ .ok ∧ s.outcome job ≠ .cancelled)
  unstarted : ∀ i ∈ s.batch.items, (∀ job, (i.position, job) ∉ s.claims) →
    i.state ≠ .running ∧ i.state ≠ .done
  openBatch : s.batch.state = .running ↔ ∃ i ∈ s.batch.items, i.state.isOpen = true
  endedBatch : s.batch.state ≠ .running →
    (s.batch.state = .cancelled ↔ s.batch.cancelRequested = true)
  claimedOnce : (s.claims.map Prod.fst).Nodup
  ranOnce : (s.runs.map Prod.fst).Nodup ∧ ∀ run ∈ s.runs, run ∈ s.claims

/-- The job of an item neither succeeded nor was cancelled. -/
def BatchTables.failedJob (s : BatchTables) (position : Nat) : Prop :=
  ∀ job, (position, job) ∈ s.claims → s.outcome job ≠ .ok ∧ s.outcome job ≠ .cancelled

/-- The steps that close an item without the end of its job: a cancelled item whose job was not,
an item with a deleted job, and after a stop an item whose job was cancelled, or the last item of a
batch that is to be cancelled. -/
def SparesBatch (s : BatchSystem) : BatchAction → Prop
  | .thread .cancelItem => ∀ w item, s.worker = some w → w.phase = .cancelling item →
    ∀ job, (item.position, job) ∈ s.tables.claims → s.tables.outcome job = .cancelled
  | .thread .failItem => ∀ w item error, s.worker = some w → w.phase = .failing item error →
    s.tables.failedJob item.position
  | .thread .observe => ∀ w item job, s.worker = some w → w.phase = .observing item job →
    s.tables.store.job job = none → s.tables.failedJob item.position
  | .recover =>
    (∀ i ∈ s.tables.batch.items, isRecovered s.tables.store i = true →
      recoveredStatus s.tables.store i = .ok ∨ s.tables.failedJob i.position) ∧
    (s.tables.batch.cancelRequested = true → s.tables.batch.state = .running →
      ∃ i ∈ s.tables.batch.items, i.state.isOpen = true ∧ isRecovered s.tables.store i = false)
  | _ => True

end RcloneSync
