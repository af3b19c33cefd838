/-
RcloneSync/RunAllRequest.lean

The request that runs all job definitions (`_queue_enabled_job_definitions`,
routes/api_jobs.py).

The request resolves the definitions, takes the backup scope, reserves the job of the first
definition, stores the batch, and starts the thread that works on it.  Where a step fails it takes
back what it has reserved and ends with an HTTP error.  The job is taken back; the batch is not.
When the thread cannot be started, the batch stays in the database with its other items queued,
and the next start of the server takes it up.

`refused_starts_nothing_iff`: a request that ends with an error starts nothing in any later run
exactly if it fails before the batch is stored, or the batch has one item.
-/
import RcloneSync.BatchRecovery
import RcloneSync.ExclusiveScopes

namespace RcloneSync

open Py Runs BatchTables

/-! ### The request -/

/-- `HTTPException`. -/
structure HttpError where
  status : Nat
  detail : String
  deriving DecidableEq

/-- How `_acquire_definition_batch_scope` comes out. -/
inductive ScopeAnswer
  | webLockHeld
  | processLockHeld
  | processActive
  | raised
  | acquired (reason : String) (now : Time)

/-- The definitions of a request, and what fails on its way. -/
structure RunAllRequest where
  invalid : List String
  specs : List BatchSpec
  scope : ScopeAnswer
  startedAt : Time
  jobFault : Option String
  batchFault : Option String
  threadFault : Option String
  finishFails : Bool
  abortedAt : Time

/-- `_enabled_definition_specs`, from the definitions with and without active pairs. -/
def enabledDefinitionSpecs (r : RunAllRequest) : Except HttpError (List BatchSpec) :=
  if r.invalid ≠ [] then .error ⟨409,
    "Aktivierte Jobdefinition(en) ohne aktive Datenwege: " ++ join ", " r.invalid⟩
  else if r.specs.isEmpty then .error ⟨409, "Keine aktivierte Jobdefinition vorhanden"⟩
  else .ok r.specs

/-- `_acquire_definition_batch_scope`: running jobs of the scope are marked stale, and the signal
of the process is reset.  The thread of a batch holds the lock. -/
def acquireScope (scope : ScopeAnswer) (s : BatchSystem) : Except HttpError BatchSystem :=
  if s.worker.isSome then .error ⟨409, "Backup läuft bereits"⟩
  else match scope with
  | .webLockHeld => .error ⟨409, "Backup läuft bereits"⟩
  | .processLockHeld => .error ⟨409, "Ein anderer Sync hält den Prozess-Lock"⟩
  | .processActive => .error ⟨409, "Ein registrierter Sync-Unterprozess ist noch aktiv"⟩
  | .raised => .error ⟨500, "Internal Server Error"⟩
  | .acquired reason now => .ok
    { s with
      tables := { s.tables with
        store := jobsMarkAllRunningStale backupScopeKinds reason now s.tables.store }
      cancelled := false }

/-- `get_db().job_start`. -/
def reserveFirst (r : RunAllRequest) (spec : BatchSpec) (s : JobStore) :
    Except HttpError (Nat × JobStore) :=
  match r.jobFault with
  | some _ => .error ⟨500, "Jobs konnten nicht reserviert werden"⟩
  | none =>
    match jobStart spec.request r.startedAt s with
    | .ok result => .ok result
    | .error (.runtime message) => .error ⟨409, message⟩
    | .error _ => .error ⟨500, "Jobs konnten nicht reserviert werden"⟩

/-- What is recorded of a job that is taken back. -/
def abortSummary (error code : String) : Dict :=
  [("ok", .bool false), ("error", .str error), ("error_code", .str code), ("stage", .str "setup")]

/-- `_abort_reserved_backup_job`; an error of `job_finish` is only logged. -/
def abortReserved (r : RunAllRequest) (job : Nat) (error code : String) (s : BatchSystem) :
    BatchSystem :=
  if r.finishFails then s
  else { s with
    tables := s.tables.finishJob job .error (some (abortSummary error code)) r.abortedAt }

/-- A definition in the answer. -/
structure DefinitionState where
  definitionId : String
  definitionName : String
  state : String
  jobId : Option Nat
  deriving DecidableEq

def BatchSpec.definitionState (spec : BatchSpec) (state : String) (job : Option Nat) :
    DefinitionState :=
  ⟨spec.definitionId.getD "", spec.definitionName.getD "", state, job⟩

/-- The answer to a request that is accepted. -/
structure RunAllAnswer where
  jobId : Nat
  started : DefinitionState
  queued : List DefinitionState

/-- The batch is stored, with the job of its first item. -/
def BatchSystem.persist (s : BatchSystem) (batch : JobBatch) (job : Nat) : BatchSystem :=
  { s with tables := { s.tables with
      batch := batch
      claims := s.tables.claims ++ [(0, job)] } }

/-- The request from the reserved job on. -/
def persistAndStart (r : RunAllRequest) (spec : BatchSpec) (queued : List BatchSpec) (job : Nat)
    (s : BatchSystem) : Except HttpError RunAllAnswer × BatchSystem :=
  match r.batchFault, jobBatchCreate (spec :: queued) job with
  | none, .ok batch =>
    let s := s.persist batch job
    match r.threadFault with
    | some fault =>
      (.error ⟨500, "Jobs konnten nicht gestartet werden"⟩,
        abortReserved r job ("Batch-Thread konnte nicht gestartet werden: " ++ fault)
          "thread_start_failed" s)
    | none =>
      (.ok ⟨job, spec.definitionState "started" (some job),
          queued.map fun spec => spec.definitionState "queued" none⟩,
        { s with worker := some ⟨[], .reading⟩ })
  | fault, _ =>
    (.error ⟨500, "Jobs konnten nicht gespeichert werden"⟩,
      abortReserved r job ("Batch konnte nicht persistiert werden: " ++ fault.getD "")
        "batch_persist_failed" s)

/-- The request up to the reserved job; an error comes with what has been done by then. -/
def reserveBatch (r : RunAllRequest) (s : BatchSystem) :
    Except (HttpError × BatchSystem) (BatchSpec × List BatchSpec × Nat × BatchSystem) :=
  match enabledDefinitionSpecs r with
  | .error e => .error (e, s)
  | .ok [] => .error (⟨500, "Internal Server Error"⟩, s)
  | .ok (spec :: queued) =>
    match acquireScope r.scope s with
    | .error e => .error (e, s)
    | .ok s =>
      match reserveFirst r spec s.tables.store with
      | .error e => .error (e, s)
      | .ok (job, store) =>
        .ok (spec, queued, job, { s with tables := { s.tables with store := store } })

/-- `_queue_enabled_job_definitions`. -/
def queueEnabledJobDefinitions (r : RunAllRequest) (s : BatchSystem) :
    Except HttpError RunAllAnswer × BatchSystem :=
  match reserveBatch r s with
  | .error (e, s) => (.error e, s)
  | .ok (spec, queued, job, s) => persistAndStart r spec queued job s

/-- The other requests store no batch of their own in the place of this one. -/
def BatchAction.Beside (_ : BatchSystem) (a : BatchAction) : Prop :=
  ∀ specs job, a ≠ .create specs job

/-- A step of a run before or after the request. -/
abbrev besideStep : BatchSystem → BatchAction → BatchSystem → Prop :=
  Restrict (Steps BatchSystem.step) BatchAction.Beside

/-- No item is started, in any later run. -/
def StartsNothing (s : BatchSystem) : Prop :=
  ∀ as t, Run besideStep s as t → t.tables.runs = []

/-! ### Without a batch -/

/-- There is no batch, and nothing was ever started for one. -/
structure NoBatch (s : BatchSystem) : Prop where
  jobs : s.tables.JobsFit
  batch : s.tables.batch = ⟨.done, false, []⟩
  claims : s.tables.claims = []
  runs : s.tables.runs = []
  worker : s.worker = none

theorem noBatch_init : NoBatch .init :=
  ⟨systemFits_init.tables.jobs, rfl, rfl, rfl, rfl⟩

section NoBatch

variable {s t : BatchSystem}

theorem NoBatch.moves (h : NoBatch s) {tables : BatchTables} {busy : Nat → Prop}
    (hm : s.tables.Moves tables busy) : NoBatch { s with tables := tables } :=
  ⟨hm.fits, hm.batch.trans h.batch, hm.claims.trans h.claims, hm.runs.trans h.runs, h.worker⟩

theorem moves_attempt_start {tables : BatchTables} (hs : tables.JobsFit) (request : StartRequest)
    (now : Time) : tables.Moves
      (tables.attempt ((jobStart request now tables.store).map Prod.snd)) fun _ => False := by
  cases hstart : jobStart request now tables.store with
  | error e => exact .refl hs _
  | ok result => exact (moves_start hs _ hstart).1

/-- A job is ended from outside: by an error, or because it is none of the batch. -/
theorem moves_finish {tables : BatchTables} (hs : tables.JobsFit) {id : Nat} {status : JobStatus}
    (summary : Option Dict) (now : Time)
    (h : status = .error ∨ (status ≠ .running ∧ id ∉ tables.claims.map Prod.snd)) :
    ∃ busy, tables.Moves (tables.finishJob id status summary now) busy := by
  rcases h with rfl | ⟨hstatus, -⟩
  · exact ⟨fun _ => False, moves_finishJob hs (by simp) (.inl rfl)⟩
  · exact ⟨fun job => id = job, moves_finishJob hs hstatus (.inr (.inr rfl))⟩

theorem NoBatch.step {a : BatchAction} (h : NoBatch s) (hstep : besideStep s a t) : NoBatch t := by
  obtain ⟨hstep, hbeside⟩ := hstep
  cases a with
  | thread a =>
    obtain ⟨w, hw, -⟩ := Option.bind_eq_some_iff.mp hstep
    rw [h.worker] at hw
    cases hw
  | create specs job => exact absurd rfl (hbeside specs job)
  | stop =>
    obtain rfl := Option.some.inj hstep
    exact ⟨h.jobs, h.batch, h.claims, h.runs, rfl⟩
  | recover =>
    obtain ⟨-, hstep⟩ := Option.ite_none_right_eq_some.mp hstep
    obtain rfl := Option.some.inj hstep
    refine ⟨h.jobs.withBatch _, ?_, h.claims, h.runs, h.worker⟩
    show jobBatchRecover s.tables.store s.tables.batch = _
    rw [h.batch]
    rfl
  | resume keepSignal reason now =>
    obtain ⟨hguard, -⟩ := Option.ite_none_right_eq_some.mp hstep
    rw [h.batch, Bool.and_eq_true] at hguard
    cases of_decide_eq_true hguard.2
  | requestCancel =>
    obtain rfl := Option.some.inj hstep
    refine ⟨h.jobs.withBatch _, ?_, h.claims, h.runs, h.worker⟩
    show jobBatchRequestCancel s.tables.batch = _
    rw [h.batch]
    rfl
  | signal on =>
    obtain rfl := Option.some.inj hstep
    exact ⟨h.jobs, h.batch, h.claims, h.runs, h.worker⟩
  | start request now =>
    obtain rfl := Option.some.inj hstep
    exact h.moves (moves_attempt_start h.jobs request now)
  | finish id status summary now =>
    obtain ⟨hguard, hstep⟩ := Option.ite_none_right_eq_some.mp hstep
    obtain rfl := Option.some.inj hstep
    obtain ⟨busy, hm⟩ := moves_finish h.jobs summary now hguard
    exact h.moves hm
  | applyFinish id now =>
    obtain rfl := Option.some.inj hstep
    exact h.moves (moves_applyFinish h.jobs (fun _ => False) id now)
  | applyMark id now =>
    obtain rfl := Option.some.inj hstep
    exact h.moves (moves_applyMark h.jobs (fun _ => False) id now)
  | markStale kinds reason now =>
    obtain rfl := Option.some.inj hstep
    exact h.moves (moves_markStale h.jobs (fun _ => False) kinds reason now)
  | delete p =>
    obtain rfl := Option.some.inj hstep
    refine ⟨(delete_fits h.jobs p).1, ?_, h.claims, h.runs, h.worker⟩
    show JobBatch.mk s.tables.batch.state s.tables.batch.cancelRequested
      (Tables.updateWhere _ _ s.tables.batch.items) = _
    rw [h.batch]
    rfl

theorem NoBatch.run {as : List BatchAction} (h : NoBatch s) (hrun : Run besideStep s as t) :
    NoBatch t :=
  hrun.preserves NoBatch (fun _ _ _ hs hstep => hs.step hstep) h

theorem NoBatch.startsNothing (h : NoBatch s) : StartsNothing s := fun _ _ hrun => (h.run hrun).runs

end NoBatch

/-! ### A batch whose only item has a job -/

/-- The item is not queued, and its job, if it has one, is the first one. -/
def OnlyFirst (first : Nat) (i : BatchItem) : Prop :=
  i.state ≠ .queued ∧ ∀ job, i.jobId = some job → job = first

/-- Where the thread may stand when the first job has ended. -/
def PhaseStuck (first : Nat) : BatchPhase → Prop
  | .entering _ job => job = first
  | .running _ _ => False
  | _ => True

/-- Nothing was started, no item is queued, and a thread finds the first job ended. -/
structure Stuck (first : Nat) (s : BatchSystem) : Prop where
  jobs : s.tables.JobsFit
  known : ∃ r, s.tables.ran first = some r ∧ r.kind = "backup"
  runs : s.tables.runs = []
  items : ∀ i ∈ s.tables.batch.items, OnlyFirst first i
  worker : ∀ w, s.worker = some w → s.tables.outcome first ≠ .running ∧
    (∀ i ∈ w.rest, OnlyFirst first i) ∧ PhaseStuck first w.phase

section Stuck

variable {first : Nat} {s t : BatchSystem}

theorem Stuck.known_moves (h : Stuck first s) {tables : BatchTables} {busy : Nat → Prop}
    (hm : s.tables.Moves tables busy) :
    (∃ r, tables.ran first = some r ∧ r.kind = "backup") ∧
      (s.tables.outcome first ≠ .running → tables.outcome first ≠ .running) := by
  obtain ⟨r, hr, hkind⟩ := h.known
  obtain ⟨r', hr', hb⟩ := hm.ran first r hr
  refine ⟨⟨r', hr', hb.kind.trans hkind⟩, fun hended => ?_⟩
  rw [hm.outcome_of_ended hr hended]
  exact hended

/-- The thread goes on, with tables in which only jobs have changed. -/
theorem Stuck.goOn (h : Stuck first s) {w : BatchWorker} (hw : s.worker = some w)
    {tables : BatchTables} {busy : Nat → Prop} (hm : s.tables.Moves tables busy)
    {rest : List BatchItem} {phase : BatchPhase} (hrest : ∀ i ∈ rest, OnlyFirst first i)
    (hphase : PhaseStuck first phase) : Stuck first (s.goOn tables rest phase) := by
  obtain ⟨hended, -, -⟩ := h.worker w hw
  obtain ⟨hknown, hkeeps⟩ := h.known_moves hm
  refine ⟨hm.fits, hknown, hm.runs.trans h.runs, ?_, fun v hv => ?_⟩
  · intro i hi
    have hi : i ∈ tables.batch.items := hi
    rw [hm.batch] at hi
    exact h.items i hi
  · obtain rfl := Option.some.inj hv
    exact ⟨hkeeps hended, hrest, hphase⟩

/-- A step on the jobs beside the thread. -/
theorem Stuck.moves (h : Stuck first s) {tables : BatchTables} {busy : Nat → Prop}
    (hm : s.tables.Moves tables busy) : Stuck first { s with tables := tables } := by
  obtain ⟨hknown, hkeeps⟩ := h.known_moves hm
  refine ⟨hm.fits, hknown, hm.runs.trans h.runs, ?_, fun w hw => ?_⟩
  · intro i hi
    have hi : i ∈ tables.batch.items := hi
    rw [hm.batch] at hi
    exact h.items i hi
  · obtain ⟨hended, hrest, hphase⟩ := h.worker w hw
    exact ⟨hkeeps hended, hrest, hphase⟩

/-- A change of items that queues none and gives none a job. -/
theorem onlyFirst_updateWhere {items : List BatchItem} {p : BatchItem → Bool}
    {f : BatchItem → BatchItem} (h : ∀ i ∈ items, OnlyFirst first i)
    (hf : ∀ i, OnlyFirst first i → OnlyFirst first (f i)) :
    ∀ i ∈ Tables.updateWhere p f items, OnlyFirst first i := by
  intro i hi
  obtain ⟨old, hold, rfl⟩ := List.mem_map.mp hi
  split
  · exact hf old (h old hold)
  · exact h old hold

/-- The thread closes an item. -/
theorem Stuck.finishItem (h : Stuck first s) {w : BatchWorker} (hw : s.worker = some w)
    (position : Nat) {state : ItemState} (hstate : state ≠ .queued) (error : Option String) :
    Stuck first (s.goOn (s.tables.finishItem position state error) w.rest .next) := by
  obtain ⟨hended, hrest, -⟩ := h.worker w hw
  refine ⟨h.jobs.withBatch _, h.known, h.runs, ?_, fun v hv => ?_⟩
  · show ∀ i ∈ (JobBatch.conclude _ _).items, OnlyFirst first i
    rw [conclude_items]
    exact onlyFirst_updateWhere h.items fun i hi => ⟨hstate, hi.2⟩
  · obtain rfl := Option.some.inj hv
    exact ⟨hended, hrest, trivial⟩

/-- No item is there to be claimed. -/
theorem Stuck.not_claimed (h : Stuck first s) (position job : Nat) :
    (jobBatchItemStart position job s.tables.batch).1 = false := by
  refine List.any_eq_false.mpr fun i hi hclaimed => ?_
  exact (h.items i hi).1 (of_decide_eq_true hclaimed).2

/-- What the thread does with an item that is not queued. -/
theorem phaseStuck_take (s : BatchSystem) {item : BatchItem} (h : OnlyFirst first item) :
    PhaseStuck first (s.takePhase item) := by
  unfold BatchSystem.takePhase
  split
  · trivial
  · split
    · trivial
    · split
      · rename_i job _ hjob
        exact h.2 job hjob
      · trivial

theorem Stuck.work (h : Stuck first s) {w : BatchWorker} (hw : s.worker = some w)
    {a : ThreadAction} (hstep : s.work w.rest w.phase a = some t) : Stuck first t := by
  obtain ⟨hended, hrest, hphase⟩ := h.worker w hw
  obtain ⟨rest, phase⟩ := w
  have hstay : s.tables.Moves s.tables fun _ => False := .refl h.jobs _
  cases phase with
  | reading =>
    cases a <;> cases hstep
    exact h.goOn hw hstay h.items trivial
  | next =>
    cases a with
    | take =>
      cases rest with
      | nil =>
        obtain rfl := Option.some.inj hstep
        exact ⟨h.jobs, h.known, h.runs, h.items, fun _ hv => by cases hv⟩
      | cons item rest =>
        obtain rfl := Option.some.inj hstep
        obtain ⟨hitem, hrest⟩ := List.forall_mem_cons.mp hrest
        exact h.goOn hw hstay hrest (phaseStuck_take s hitem)
    | _ => cases hstep
  | cancelling item =>
    cases a <;> cases hstep
    exact h.finishItem hw item.position (by decide) none
  | starting item =>
    cases a with
    | startJob now =>
      rw [BatchSystem.work] at hstep
      cases hstart : jobStart item.spec.request now s.tables.store with
      | error e =>
        rw [hstart] at hstep
        obtain rfl := Option.some.inj hstep
        exact h.goOn hw hstay hrest trivial
      | ok result =>
        rw [hstart] at hstep
        obtain rfl := Option.some.inj hstep
        exact h.goOn hw (moves_start h.jobs (fun _ => False) hstart).1 hrest trivial
    | _ => cases hstep
  | claiming item job =>
    cases a with
    | claim now =>
      rw [BatchSystem.work, if_neg (by rw [h.not_claimed]; decide)] at hstep
      have hm : s.tables.Moves (s.tables.finishJob job .error (some claimLost) now)
          fun _ => False := moves_finishJob h.jobs (by simp) (.inl rfl)
      cases hfin : jobFinish job .error (some claimLost) now s.tables.store with
      | error e =>
        rw [hfin] at hstep
        obtain rfl := Option.some.inj hstep
        exact h.goOn hw hstay hrest trivial
      | ok result =>
        rw [hfin] at hstep
        obtain rfl := Option.some.inj hstep
        rw [finishJob, hfin] at hm
        exact h.goOn hw hm hrest trivial
    | _ => cases hstep
  | failing item error =>
    cases a <;> cases hstep
    exact h.finishItem hw item.position (by decide) (some error)
  | entering item job =>
    obtain rfl : job = first := hphase
    cases a with
    | enter =>
      -- the job has ended, so the item is not entered
      have hnot : (s.tables.store.job job).map Job.status ≠ some .running :=
        fun hrun => hended (outcome_of_job hrun)
      rw [BatchSystem.work, if_neg hnot] at hstep
      obtain rfl := Option.some.inj hstep
      exact h.goOn hw hstay hrest trivial
    | _ => cases hstep
  | running item job => exact hphase.elim
  | observing item job =>
    cases a with
    | observe =>
      rw [BatchSystem.work] at hstep
      dsimp only at hstep
      split_ifs at hstep with hpending
      · obtain rfl := Option.some.inj hstep
        exact ⟨h.jobs, h.known, h.runs, h.items, fun _ hv => by cases hv⟩
      · obtain rfl := Option.some.inj hstep
        exact h.goOn hw hstay hrest trivial
    | _ => cases hstep
  | closing item job status =>
    cases a <;> cases hstep
    refine h.finishItem hw item.position ?_ _
    cases status <;> decide

theorem Stuck.step {a : BatchAction} (h : Stuck first s) (hstep : besideStep s a t) :
    Stuck first t := by
  obtain ⟨hstep, hbeside⟩ := hstep
  cases a with
  | thread a =>
    obtain ⟨w, hw, hstep⟩ := Option.bind_eq_some_iff.mp hstep
    exact h.work hw hstep
  | create specs job => exact absurd rfl (hbeside specs job)
  | stop =>
    obtain rfl := Option.some.inj hstep
    exact ⟨h.jobs, h.known, h.runs, h.items, fun _ hv => by cases hv⟩
  | recover =>
    obtain ⟨-, hstep⟩ := Option.ite_none_right_eq_some.mp hstep
    obtain rfl := Option.some.inj hstep
    refine ⟨h.jobs.withBatch _, h.known, h.runs, ?_, h.worker⟩
    show ∀ i ∈ (JobBatch.conclude _ _).items, OnlyFirst first i
    rw [conclude_items]
    refine onlyFirst_updateWhere h.items fun i hi => ⟨?_, hi.2⟩
    unfold recoveredItem
    dsimp only
    split <;> decide
  | resume keepSignal reason now =>
    obtain ⟨-, hstep⟩ := Option.ite_none_right_eq_some.mp hstep
    obtain rfl := Option.some.inj hstep
    have hm := moves_markStale h.jobs (fun _ => False) backupScopeKinds reason now
    obtain ⟨r, hr, hkind⟩ := h.known
    refine ⟨hm.fits, (h.known_moves hm).1, h.runs, h.items, fun w hw => ?_⟩
    obtain rfl := Option.some.inj hw
    exact ⟨ended_of_markStale h.jobs hr hkind reason now, fun _ hi => (by cases hi), trivial⟩
  | requestCancel =>
    obtain rfl := Option.some.inj hstep
    refine ⟨h.jobs.withBatch _, h.known, h.runs, ?_, h.worker⟩
    show ∀ i ∈ (jobBatchRequestCancel _).items, OnlyFirst first i
    rw [jobBatchRequestCancel_items]
    exact h.items
  | signal on =>
    obtain rfl := Option.some.inj hstep
    exact ⟨h.jobs, h.known, h.runs, h.items, h.worker⟩
  | start request now =>
    obtain rfl := Option.some.inj hstep
    exact h.moves (moves_attempt_start h.jobs request now)
  | finish id status summary now =>
    obtain ⟨hguard, hstep⟩ := Option.ite_none_right_eq_some.mp hstep
    obtain rfl := Option.some.inj hstep
    obtain ⟨busy, hm⟩ := moves_finish h.jobs summary now hguard
    exact h.moves hm
  | applyFinish id now =>
    obtain rfl := Option.some.inj hstep
    exact h.moves (moves_applyFinish h.jobs (fun _ => False) id now)
  | applyMark id now =>
    obtain rfl := Option.some.inj hstep
    exact h.moves (moves_applyMark h.jobs (fun _ => False) id now)
  | markStale kinds reason now =>
    obtain rfl := Option.some.inj hstep
    exact h.moves (moves_markStale h.jobs (fun _ => False) kinds reason now)
  | delete p =>
    obtain rfl := Option.some.inj hstep
    obtain ⟨hfits, hran, -⟩ := delete_fits h.jobs p
    refine ⟨hfits, ?_, h.runs, ?_, fun w hw => ?_⟩
    · obtain ⟨r, hr, hkind⟩ := h.known
      exact ⟨r, (hran first).trans hr, hkind⟩
    · exact onlyFirst_updateWhere h.items fun i hi => ⟨hi.1, fun _ hjob => by cases hjob⟩
    · obtain ⟨hended, hrest, hphase⟩ := h.worker w hw
      refine ⟨?_, hrest, hphase⟩
      have hsame : (s.tables.delete p).outcome first = s.tables.outcome first := by
        unfold BatchTables.outcome
        rw [hran]
      exact hsame ▸ hended

theorem Stuck.startsNothing (h : Stuck first s) : StartsNothing s := fun _ _ hrun =>
  (hrun.preserves (Stuck first) (fun _ _ _ hs hstep => hs.step hstep) h).runs

end Stuck

/-! ### A batch that is left behind -/

/-- The item of the first definition in a batch that has been stored. -/
def firstItem (spec : BatchSpec) (job : Nat) : BatchItem := ⟨0, spec, .running, some job, none⟩

/-- The batch is stored, and no thread works on it. -/
structure LeftBehind (spec : BatchSpec) (queued : List BatchSpec) (job : Nat) (s : BatchSystem) :
    Prop where
  jobs : s.tables.JobsFit
  known : ∃ r, s.tables.ran job = some r ∧ r.kind = "backup"
  runs : s.tables.runs = []
  batch : s.tables.batch = ⟨.running, false, firstItem spec job :: queuedItems 1 queued⟩
  worker : s.worker = none

section LeftBehind

variable {spec : BatchSpec} {queued : List BatchSpec} {job : Nat} {s t : BatchSystem}

/-- The job is taken back, as far as that succeeds. -/
theorem LeftBehind.abortReserved (h : LeftBehind spec queued job s) (r : RunAllRequest)
    (error code : String) : LeftBehind spec queued job (abortReserved r job error code s) := by
  unfold RcloneSync.abortReserved
  split
  · exact h
  · have hm : s.tables.Moves (s.tables.finishJob job .error (some (abortSummary error code))
        r.abortedAt) fun _ => False := moves_finishJob h.jobs (by simp) (.inl rfl)
    obtain ⟨row, hrow, hkind⟩ := h.known
    obtain ⟨row', hrow', hb⟩ := hm.ran job row hrow
    exact ⟨hm.fits, ⟨row', hrow', hb.kind.trans hkind⟩, hm.runs.trans h.runs,
      hm.batch.trans h.batch, h.worker⟩

/-- A batch of one item is stuck. -/
theorem LeftBehind.stuck (h : LeftBehind spec [] job s) : Stuck job s := by
  refine ⟨h.jobs, h.known, h.runs, fun i hi => ?_, fun w hw => ?_⟩
  · rw [h.batch] at hi
    obtain rfl := List.mem_singleton.mp hi
    exact ⟨fun hqueued => ItemState.noConfusion hqueued,
      fun first hfirst => (Option.some.inj hfirst).symm⟩
  · rw [h.worker] at hw
    cases hw

/-! ### The next start takes it up -/

/-- Items that are queued are not touched by what looks for running ones. -/
theorem updateWhere_queuedItems (p : BatchItem → Bool) (f : BatchItem → BatchItem)
    (hp : ∀ i : BatchItem, i.state = .queued → p i = false) (specs : List BatchSpec) (n : Nat) :
    Tables.updateWhere p f (queuedItems n specs) = queuedItems n specs := by
  refine Tables.updateWhere_of_none (List.any_eq_false.mpr fun i hi => ?_) f
  rw [hp i (state_of_queuedItems hi).1]
  exact Bool.false_ne_true

/-- The first item is closed when its job has ended, and the batch goes on. -/
theorem recover_leftBehind (spec next : BatchSpec) (queued : List BatchSpec) {job : Nat}
    {store : JobStore} (hended : ((store.job job).map Job.status).getD .stale ≠ .running) :
    ∃ i : BatchItem, i.state.isOpen = false ∧
      jobBatchRecover store ⟨.running, false, firstItem spec job :: queuedItems 1 (next :: queued)⟩
        = ⟨.running, false, i :: queuedItems 1 (next :: queued)⟩ := by
  have hfirst : isRecovered store (firstItem spec job) = true := decide_eq_true ⟨rfl, hended⟩
  have hqueued := updateWhere_queuedItems (isRecovered store) (recoveredItem store)
    (fun i hi => decide_eq_false fun h => by rw [hi] at h; cases h.1) (next :: queued) 1
  refine ⟨recoveredItem store (firstItem spec job), ?_, ?_⟩
  · unfold recoveredItem
    dsimp only
    split <;> rfl
  · have hitems : Tables.updateWhere (isRecovered store) (recoveredItem store)
        (firstItem spec job :: queuedItems 1 (next :: queued)) =
        recoveredItem store (firstItem spec job) :: queuedItems 1 (next :: queued) := by
      show (if isRecovered store (firstItem spec job) then _ else _) :: Tables.updateWhere _ _ _ = _
      rw [if_pos hfirst, hqueued]
    have hopen : ∀ i : BatchItem, JobBatch.hasOpen
        ⟨.running, false, i :: queuedItems 1 (next :: queued)⟩ = true := fun i => by
      simp [JobBatch.hasOpen, queuedItems, ItemState.isOpen]
    unfold jobBatchRecover JobBatch.conclude
    dsimp only
    rw [hitems, if_neg fun h => Bool.noConfusion ((hopen _).symm.trans h.1)]

/-- Jobs of the backup scope that were running are not running any more. -/
theorem latestRunning_markStale (reason : String) (now : Time) (store : JobStore) :
    latestRunning (scopeKinds "backup")
      (jobsMarkAllRunningStale backupScopeKinds reason now store).jobs = none := by
  rw [latestRunning_eq_none, List.countP_eq_zero]
  obtain ⟨-, -, hjobs⟩ := markStaleWhere_jobs (ofKinds backupScopeKinds) reason
    (jsonDumpsBounded (staleSummary reason now) maxJobSummaryBytes) now store
  intro j hj hruns
  have hj : j ∈ (markStaleWhere (ofKinds backupScopeKinds) reason
    (jsonDumpsBounded (staleSummary reason now) maxJobSummaryBytes) now store).jobs := hj
  rw [hjobs] at hj
  obtain ⟨row, -, rfl⟩ := List.mem_map.mp hj
  have hkinds : ((backupScopeKinds.map strip).filter (· ≠ "")) = backupScopeKinds := by decide
  have hscope : scopeKinds "backup" = backupScopeKinds := by decide
  split_ifs at hruns with hthis
  · cases of_decide_eq_true (Bool.and_eq_true_iff.mp hruns).1
  · obtain ⟨hrunning, hkind⟩ := Bool.and_eq_true_iff.mp hruns
    rw [hscope] at hkind
    have hof : ofKinds backupScopeKinds row = true := by
      unfold ofKinds
      dsimp only
      rw [hkinds, hkind, Bool.or_true]
    exact hthis (Bool.and_eq_true_iff.mpr ⟨hrunning, hof⟩)

/-- The job of a definition starts where no job of the scope is running. -/
theorem jobStart_free (next : BatchSpec) (now : Time) {store : JobStore}
    (hfree : latestRunning (scopeKinds "backup") store.jobs = none) :
    ∃ result, jobStart next.request now store = .ok result := by
  have hrunning : (if next.request.exclusiveScope then
      latestRunning (scopeKinds next.request.kind) store.jobs else none) = none := hfree
  have hkind : ¬ (next.request.kind = "" ∨ 64 < next.request.kind.length) := by
    show ¬ (("backup" : String) = "" ∨ 64 < ("backup" : String).length)
    decide
  unfold jobStart
  rw [if_neg hkind, hrunning]
  dsimp only
  split
  · exact ⟨_, rfl⟩
  · exact ⟨_, rfl⟩

/-- The row of a job that has just been started. -/
theorem job_of_started {tables : BatchTables} (hs : tables.JobsFit) {request : StartRequest}
    {now : Time} {new : Nat} {store : JobStore}
    (h : jobStart request now tables.store = .ok (new, store)) :
    (store.job new).map Job.status = some .running := by
  obtain ⟨hm, -, -⟩ := moves_start hs (fun _ => False) h
  obtain ⟨-, rfl, -, j, hid, hstatus, -, -, hjobs⟩ := jobStart_jobs h
  have hnodup : (store.jobs.map Job.id).Nodup := by
    have hall := hm.fits.nodup
    rw [BatchTables.everyJob, List.map_append] at hall
    exact (List.nodup_append.mp hall).1
  have hj : j ∈ store.jobs := hjobs ▸ List.mem_append_right _ (List.mem_singleton_self j)
  have hfound : store.job tables.store.nextJobId = some j := Tables.find_of_mem hnodup hj hid
  rw [hfound, Option.map_some, hstatus]

/-- The item that comes next in a batch that is taken up. -/
def nextItem (next : BatchSpec) : BatchItem := ⟨1, next, .queued, none, none⟩

/-- A system in which a thread has just been started for a batch with a closed first item. -/
structure TakenUp (next : BatchSpec) (queued : List BatchSpec) (s : BatchSystem) : Prop where
  jobs : s.tables.JobsFit
  free : latestRunning (scopeKinds "backup") s.tables.store.jobs = none
  batch : ∃ i : BatchItem, i.state.isOpen = false ∧
    s.tables.batch = ⟨.running, false, i :: nextItem next :: queuedItems 2 queued⟩
  worker : s.worker = some ⟨[], .reading⟩
  cancelled : s.cancelled = false

/-- An action beside the creation of batches. -/
theorem besideStep_of {s t : BatchSystem} {a : BatchAction} (h : s.step a = some t)
    (ha : ∀ specs job, a ≠ .create specs job) : besideStep s a t := ⟨h, ha⟩

/-- The thread creates no batch. -/
theorem besideStep_thread {s t : BatchSystem} {a : ThreadAction} (h : s.step (.thread a) = some t) :
    besideStep s (.thread a) t := besideStep_of h nofun

/-- The start of the server: jobs are marked, the batch is recovered, and a thread begins. -/
theorem LeftBehind.takenUp {next : BatchSpec} (h : LeftBehind spec (next :: queued) job s) :
    ∃ as t, Run besideStep s as t ∧ TakenUp next queued t := by
  obtain ⟨tables, worker, cancelled⟩ := s
  obtain ⟨hjobs, ⟨r, hr, hkind⟩, -, hbatch, rfl⟩ := h
  let store := jobsMarkAllRunningStale backupScopeKinds "" 0 tables.store
  have hm := moves_markStale hjobs (fun _ => False) backupScopeKinds "" 0
  have hended : ((store.job job).map Job.status).getD .stale ≠ .running := by
    intro hrun
    have hnot := ended_of_markStale hjobs hr hkind "" 0
    cases hjob : store.job job with
    | none =>
      rw [hjob] at hrun
      cases hrun
    | some row =>
      rw [hjob] at hrun
      exact hnot (outcome_of_job (congrArg (Option.map Job.status) hjob |>.trans (congrArg some hrun)))
  obtain ⟨i, hclosed, hrecover⟩ := recover_leftBehind spec next queued hended
  let batch : JobBatch := ⟨.running, false, i :: nextItem next :: queuedItems 2 queued⟩
  let marked : BatchTables := { tables with store := store }
  let recovered : BatchTables := { marked with batch := batch }
  let resumed : BatchTables := { recovered with
    store := jobsMarkAllRunningStale backupScopeKinds "" 0 store }
  have hmark : BatchSystem.step ⟨tables, none, cancelled⟩ (.markStale backupScopeKinds "" 0) =
      some ⟨marked, none, cancelled⟩ := rfl
  have hrecovered : BatchSystem.step ⟨marked, none, cancelled⟩ .recover =
      some ⟨recovered, none, cancelled⟩ := by
    show some (BatchSystem.mk { marked with batch := jobBatchRecover store tables.batch } _ _) = _
    rw [hbatch]
    exact congrArg (fun b => some (BatchSystem.mk { marked with batch := b } none cancelled))
      hrecover
  have hresume : BatchSystem.step ⟨recovered, none, cancelled⟩ (.resume false "" 0) =
      some ⟨resumed, some ⟨[], .reading⟩, false⟩ := rfl
  refine ⟨_, _, .cons (besideStep_of hmark nofun) (.cons (besideStep_of hrecovered nofun)
    (.cons (besideStep_of hresume nofun) (.nil _))), ?_, latestRunning_markStale "" 0 store,
    ⟨i, hclosed, rfl⟩, rfl, rfl⟩
  exact (moves_markStale (hm.fits.withBatch batch) (fun _ => False) backupScopeKinds "" 0).fits

/-- **The thread starts the second definition.** -/
theorem TakenUp.starts {next : BatchSpec} (h : TakenUp next queued s) :
    ∃ as t, Run besideStep s as t ∧ t.tables.runs ≠ [] := by
  obtain ⟨⟨store₀, batch, claims, runs, deleted⟩, worker, cancelled⟩ := s
  obtain ⟨hjobs, hfree, ⟨i, hclosed, hbatch⟩, rfl, rfl⟩ := h
  obtain rfl : batch = _ := hbatch
  obtain ⟨⟨new, store⟩, hstart⟩ := jobStart_free next 0 hfree
  let batch : JobBatch := ⟨.running, false, i :: nextItem next :: queuedItems 2 queued⟩
  let tables : BatchTables := ⟨store₀, batch, claims, runs, deleted⟩
  let started : BatchTables := ⟨store, batch, claims, runs, deleted⟩
  let claimed : BatchTables := started.claimItem 1 new
  let entered : BatchTables := { claimed with runs := runs ++ [(1, new)] }
  let rest := queuedItems 2 queued
  have hread : BatchSystem.step ⟨tables, some ⟨[], .reading⟩, false⟩ (.thread .read) =
      some ⟨tables, some ⟨i :: nextItem next :: rest, .next⟩, false⟩ := rfl
  have hpass : BatchSystem.step ⟨tables, some ⟨i :: nextItem next :: rest, .next⟩, false⟩
      (.thread .take) = some ⟨tables, some ⟨nextItem next :: rest, .next⟩, false⟩ :=
    congrArg (fun phase => some (BatchSystem.mk tables (some ⟨nextItem next :: rest, phase⟩) false))
      (if_pos hclosed)
  have htake : BatchSystem.step ⟨tables, some ⟨nextItem next :: rest, .next⟩, false⟩
      (.thread .take) = some ⟨tables, some ⟨rest, .starting (nextItem next)⟩, false⟩ := rfl
  have hstarted : BatchSystem.step ⟨tables, some ⟨rest, .starting (nextItem next)⟩, false⟩
      (.thread (.startJob 0)) =
      some ⟨started, some ⟨rest, .claiming (nextItem next) new⟩, false⟩ := by
    show BatchSystem.work _ rest (.starting (nextItem next)) (.startJob 0) = _
    rw [BatchSystem.work]
    have hstart : jobStart (nextItem next).spec.request 0 tables.store = .ok (new, store) := hstart
    simp only [hstart]
    rfl
  have hclaim : BatchSystem.step ⟨started, some ⟨rest, .claiming (nextItem next) new⟩, false⟩
      (.thread (.claim 0)) = some ⟨claimed, some ⟨rest, .entering (nextItem next) new⟩, false⟩ := by
    have hfound : (jobBatchItemStart 1 new batch).1 = true :=
      List.any_eq_true.mpr ⟨nextItem next, by simp [batch], rfl⟩
    show BatchSystem.work _ rest (.claiming (nextItem next) new) (.claim 0) = _
    rw [BatchSystem.work]
    exact if_pos hfound
  have henter : BatchSystem.step ⟨claimed, some ⟨rest, .entering (nextItem next) new⟩, false⟩
      (.thread .enter) = some ⟨entered, some ⟨rest, .running (nextItem next) new⟩, false⟩ := by
    have hrunning : (store.job new).map Job.status = some .running := job_of_started hjobs hstart
    show BatchSystem.work _ rest (.entering (nextItem next) new) .enter = _
    rw [BatchSystem.work]
    exact if_pos hrunning
  refine ⟨_, _, .cons (besideStep_thread hread) (.cons (besideStep_thread hpass)
    (.cons (besideStep_thread htake) (.cons (besideStep_thread hstarted)
    (.cons (besideStep_thread hclaim) (.cons (besideStep_thread henter) (.nil _)))))), ?_⟩
  show runs ++ [(1, new)] ≠ []
  simp

end LeftBehind

/-! ### Requests that are refused -/

/-- The request gets as far as storing its batch. -/
def RunAllRequest.StoresBatch (r : RunAllRequest) (s : BatchSystem) : Prop :=
  (reserveBatch r s).isOk = true ∧ r.batchFault = none

section Refused

variable {s t : BatchSystem} {r : RunAllRequest}

theorem enabledSpecs_ok {specs : List BatchSpec} (h : enabledDefinitionSpecs r = .ok specs) :
    r.specs = specs := by
  unfold enabledDefinitionSpecs at h
  split_ifs at h
  exact Except.ok.inj h

theorem reserveFirst_ok {spec : BatchSpec} {store : JobStore} {result : Nat × JobStore}
    (h : reserveFirst r spec store = .ok result) :
    jobStart spec.request r.startedAt store = .ok result := by
  unfold reserveFirst at h
  split at h
  · cases h
  · split at h
    · rename_i hstart
      rw [hstart, Except.ok.inj h]
    · cases h
    · cases h

theorem NoBatch.acquireScope (h : NoBatch s) {scope : ScopeAnswer} {u : BatchSystem}
    (hu : RcloneSync.acquireScope scope s = .ok u) : NoBatch u := by
  unfold RcloneSync.acquireScope at hu
  split_ifs at hu
  cases scope with
  | acquired reason now =>
    obtain rfl := Except.ok.inj hu
    exact ⟨(moves_markStale h.jobs (fun _ => False) backupScopeKinds reason now).fits, h.batch,
      h.claims, h.runs, h.worker⟩
  | webLockHeld | processLockHeld | processActive | raised => cases hu

theorem NoBatch.abortReserved (h : NoBatch s) (job : Nat) (error code : String) :
    NoBatch (abortReserved r job error code s) := by
  unfold RcloneSync.abortReserved
  split
  · exact h
  · have hm : s.tables.Moves
        (s.tables.finishJob job .error (some (abortSummary error code)) r.abortedAt)
        fun _ => False :=
      moves_finishJob h.jobs (by simp) (.inl rfl)
    exact h.moves hm

/-- A request that fails before it has a job has no batch. -/
theorem noBatch_of_unreserved (h : NoBatch s) {e : HttpError}
    (hr : reserveBatch r s = .error (e, t)) : NoBatch t := by
  unfold reserveBatch at hr
  split at hr
  · cases hr
    exact h
  · cases hr
    exact h
  · split at hr
    · cases hr
      exact h
    · rename_i hscope
      split at hr
      · cases hr
        exact h.acquireScope hscope
      · cases hr

/-- A request that has reserved a job has it in a database without a batch. -/
theorem reserved (h : NoBatch s) {spec : BatchSpec} {queued : List BatchSpec} {job : Nat}
    (hr : reserveBatch r s = .ok (spec, queued, job, t)) :
    r.specs = spec :: queued ∧ NoBatch t ∧
      ∃ row, t.tables.ran job = some row ∧ row.kind = "backup" := by
  unfold reserveBatch at hr
  split at hr
  · cases hr
  · cases hr
  · rename_i hspecs
    split at hr
    · cases hr
    · rename_i hscope
      split at hr
      · cases hr
      · rename_i hreserve
        cases hr
        have hu := h.acquireScope hscope
        obtain ⟨hm, -, row, hrow, hkind⟩ :=
          moves_start hu.jobs (fun _ => False) (reserveFirst_ok hreserve)
        exact ⟨enabledSpecs_ok hspecs, hu.moves hm, row, hrow, hkind⟩

/-- The batch is stored, and no thread is started. -/
theorem leftBehind_persist (h : NoBatch s) (spec : BatchSpec) (queued : List BatchSpec) {job : Nat}
    (hjob : ∃ row, s.tables.ran job = some row ∧ row.kind = "backup") :
    LeftBehind spec queued job
      (s.persist ⟨.running, false, firstItem spec job :: queuedItems 1 queued⟩ job) :=
  ⟨⟨h.jobs.nodup, h.jobs.below, h.jobs.ended, h.jobs.staged, h.jobs.applied⟩, hjob, h.runs, rfl,
    h.worker⟩

/-- **What a refused request leaves.** -/
theorem refused_cases (h : NoBatch s) {e : HttpError}
    (hreq : queueEnabledJobDefinitions r s = (.error e, t)) :
    (¬ r.StoresBatch s ∧ NoBatch t) ∨ (r.StoresBatch s ∧ ∃ spec queued job,
      r.specs = spec :: queued ∧ LeftBehind spec queued job t) := by
  unfold queueEnabledJobDefinitions at hreq
  cases hr : reserveBatch r s with
  | error refused =>
    rw [hr] at hreq
    obtain rfl := (Prod.mk.inj hreq).2
    refine .inl ⟨fun hstores => ?_, noBatch_of_unreserved h hr⟩
    have hok := hstores.1
    rw [hr] at hok
    cases hok
  | ok result =>
    obtain ⟨spec, queued, job, u⟩ := result
    rw [hr] at hreq
    obtain ⟨hspecs, hu, hjob⟩ := reserved h hr
    dsimp only at hreq
    unfold persistAndStart at hreq
    cases hfault : r.batchFault with
    | some fault =>
      rw [hfault] at hreq
      obtain rfl := (Prod.mk.inj hreq).2
      refine .inl ⟨fun hstores => ?_, hu.abortReserved job _ _⟩
      rw [hstores.2] at hfault
      cases hfault
    | none =>
      refine .inr ⟨⟨by rw [hr]; rfl, hfault⟩, spec, queued, job, hspecs, ?_⟩
      rw [hfault] at hreq
      cases hthread : r.threadFault with
      | none =>
        simp only [jobBatchCreate, hthread] at hreq
        cases (Prod.mk.inj hreq).1
      | some fault =>
        simp only [jobBatchCreate, hthread] at hreq
        obtain rfl := (Prod.mk.inj hreq).2
        exact (leftBehind_persist hu spec queued hjob).abortReserved r _ _

end Refused

/-- **A refused request starts nothing**, neither at once nor after any later start, exactly if it
fails before its batch is stored, or the batch has one item. -/
theorem refused_starts_nothing_iff {as : List BatchAction} {s t : BatchSystem} {e : HttpError}
    (hrun : Run besideStep .init as s) (r : RunAllRequest)
    (hreq : queueEnabledJobDefinitions r s = (.error e, t)) :
    StartsNothing t ↔ ¬ r.StoresBatch s ∨ r.specs.length ≤ 1 := by
  rcases refused_cases (noBatch_init.run hrun) hreq with
    ⟨hstores, hnone⟩ | ⟨hstores, spec, queued, job, hspecs, hleft⟩
  · exact iff_of_true hnone.startsNothing (.inl hstores)
  · rw [hspecs]
    cases queued with
    | nil => exact iff_of_true hleft.stuck.startsNothing (.inr le_rfl)
    | cons next queued =>
      refine iff_of_false (fun hnothing => ?_) ?_
      · obtain ⟨before, u, hbefore, htaken⟩ := hleft.takenUp
        obtain ⟨after, v, hafter, hstarted⟩ := htaken.starts
        exact hstarted (hnothing _ v (hbefore.append hafter))
      · rintro (hnot | hlength)
        · exact hnot hstores
        · simp at hlength

/-- A request whose thread cannot be started. -/
def refusedRequest (specs : List BatchSpec) : RunAllRequest where
  invalid := []
  specs := specs
  scope := .acquired "Prozess-Lock frei; kein aktiver Worker vorhanden" 1
  startedAt := 2
  jobFault := none
  batchFault := none
  threadFault := some "can't start new thread"
  finishFails := false
  abortedAt := 3

/-- A definition as the request stores it. -/
def definitionSpec (id name : String) : BatchSpec := ⟨[], some id, some name⟩

theorem refused_starts_nothing_iff_single :
    (queueEnabledJobDefinitions (refusedRequest [definitionSpec "a" "Fotos"]) .init).1.isOk =
      false ∧
    StartsNothing
      (queueEnabledJobDefinitions (refusedRequest [definitionSpec "a" "Fotos"]) .init).2 :=
  ⟨rfl, (refused_starts_nothing_iff (.nil _) (refusedRequest [definitionSpec "a" "Fotos"])
    rfl).mpr (.inr le_rfl)⟩

/-- The server starts again after the refused request. -/
def startAgain : List BatchAction :=
  [.markStale backupScopeKinds "Neustart" 4, .recover, .resume false "Neustart" 5, .thread .read,
    .thread .take, .thread .take, .thread (.startJob 6), .thread (.claim 7), .thread .enter]

/-- The second of two definitions is started, although the request was refused. -/
theorem not_refused_starts_nothing : ¬ ∀ (r : RunAllRequest) (e : HttpError) (t : BatchSystem),
    queueEnabledJobDefinitions r .init = (.error e, t) → StartsNothing t := by
  intro h
  have hnothing := h (refusedRequest [definitionSpec "a" "Fotos", definitionSpec "b" "Musik"])
    ⟨500, "Jobs konnten nicht gestartet werden"⟩ _ rfl
  have hbeside : ∀ a ∈ startAgain, ∀ u, BatchAction.Beside u a := by
    intro a ha u specs job
    simp only [startAgain, List.mem_cons, List.not_mem_nil, or_false] at ha
    rcases ha with rfl | rfl | rfl | rfl | rfl | rfl | rfl | rfl | rfl <;> nofun
  have hstarted := hnothing _ _ ((run_of_runAll rfl).restrict hbeside)
  cases hstarted

end RcloneSync
