/-
RcloneSync/TerminalIntent.lean

A staged result against stale marking.

Several processes work on the job tables at once.  A process that applies a staged
result goes through five transactions (`job_terminal_apply`): it reads the intent, reads
the job, ends it by compare-and-set, looks at the job again and marks the intent as
applied.  Between any two of them other processes commit what they like, the process may
crash, and any transaction may fail; recovery applies all pending intents one after the
other and passes over the ones that fail.  A process is therefore the call it is in
(`Call`) and the jobs it still has to take up, and the system moves by one transaction
of one process at a time.

The result once staged is meant to be the job's end.  It is, as long as no stale marking
hits the job while it is still running (`staged_status_wins`); no stale marking looks at
the intents, though, and recovery that failed is followed by one at once
(`staged_result_lost`).
-/
import RcloneSync.JobStore
import RcloneSync.Runs

namespace RcloneSync

open Py Runs

/-! ### Processes -/

/-- Where a process stands inside `job_terminal_apply`, with what it holds in memory. -/
inductive Call
  | idle
  | finishing (id : Nat) (status : JobStatus) (summary : Dict)
  | committing (id : Nat) (row : Job) (status : JobStatus) (summary : Dict)
  | checking (id : Nat) (status : JobStatus) (transitioned : Bool)
  | marking (id : Nat)

/-- A process: its call, and the jobs that recovery still has to take up. -/
structure Process where
  call : Call
  queue : List Nat

/-- The tables and the processes that work on them. -/
structure JobSystem where
  store : JobStore
  processes : Nat → Process

def JobSystem.init : JobSystem := ⟨.empty, fun _ => ⟨.idle, []⟩⟩

/-- The transactions and what can befall a process in between. -/
inductive JobAction
  | start (request : StartRequest) (now : Time)
  | stage (id : Nat) (status : JobStatus) (summary : Option Dict) (now : Time)
  | apply (p id : Nat)
  | recover (p : Nat)
  | next (p : Nat)
  | readJob (p : Nat)
  | commit (p : Nat) (now : Time)
  | check (p : Nat)
  | mark (p : Nat) (now : Time)
  | fail (p : Nat)
  | crash (p : Nat)
  | markStale (id : Nat) (reason : String) (now : Time)
  | markAllStale (kinds : List String) (reason : String) (now : Time)
  | markOldStale (maxAge : Int) (kind : Option String) (reason : String) (now : Time)

def JobSystem.setCall (s : JobSystem) (p : Nat) (call : Call) : JobSystem :=
  { s with processes := Function.update s.processes p { s.processes p with call := call } }

def JobSystem.setQueue (s : JobSystem) (p : Nat) (queue : List Nat) : JobSystem :=
  { s with processes := Function.update s.processes p { s.processes p with queue := queue } }

/-- `job_terminal_apply` begins: without an intent it raises at once. -/
def JobSystem.beginApply (s : JobSystem) (p id : Nat) : JobSystem :=
  match applyRead id s.store with
  | .ok (status, summary) => s.setCall p (.finishing id status summary)
  | .error _ => s.setCall p .idle

/-- One step of the system; `none` when the process is not where the action takes place.
A transaction that raises changes nothing and ends the call. -/
def JobSystem.step (s : JobSystem) : JobAction → Option JobSystem
  | .start request now =>
    match jobStart request now s.store with
    | .ok (_, store) => some { s with store := store }
    | .error _ => some s
  | .stage id status summary now =>
    match terminalStage id status summary now s.store with
    | .ok store => some { s with store := store }
    | .error _ => some s
  | .apply p id =>
    match (s.processes p).call with
    | .idle => some (s.beginApply p id)
    | _ => none
  | .recover p =>
    match (s.processes p).call with
    | .idle => some (s.setQueue p (pendingIntents s.store))
    | _ => none
  | .next p =>
    match (s.processes p).call, (s.processes p).queue with
    | .idle, id :: rest => some ((s.setQueue p rest).beginApply p id)
    | _, _ => none
  | .readJob p =>
    match (s.processes p).call with
    | .finishing id status summary =>
      match finishRead id s.store with
      | .ok (some row) => some (s.setCall p (.committing id row status summary))
      | .ok none => some (s.setCall p (.checking id status false))
      | .error _ => some (s.setCall p .idle)
    | _ => none
  | .commit p now =>
    match (s.processes p).call with
    | .committing id row status summary =>
      match finishWrite row status (some summary) now s.store with
      | .ok (done, store) => some ({ s with store := store }.setCall p (.checking id status done))
      | .error _ => some (s.setCall p .idle)
    | _ => none
  | .check p =>
    match (s.processes p).call with
    | .checking id status done =>
      match applyCheck id status done s.store with
      | .ok () => some (s.setCall p (.marking id))
      | .error _ => some (s.setCall p .idle)
    | _ => none
  | .mark p now =>
    match (s.processes p).call with
    | .marking id => some ({ s with store := applyMark id now s.store }.setCall p .idle)
    | _ => none
  | .fail p => some (s.setCall p .idle)
  | .crash p => some ((s.setCall p .idle).setQueue p [])
  | .markStale id reason now => some { s with store := jobMarkStale id reason now s.store }
  | .markAllStale kinds reason now =>
    some { s with store := jobsMarkAllRunningStale kinds reason now s.store }
  | .markOldStale maxAge kind reason now =>
    some { s with store := jobsMarkStale maxAge kind reason now s.store }

/-- The step relation of the system. -/
def jobStep (s : JobSystem) (a : JobAction) (t : JobSystem) : Prop := s.step a = some t

/-! ### What a step can do to a job -/

/-- The stale markings, with the jobs each of them selects. -/
def JobAction.marksStale : JobAction → Job → Bool
  | .markStale id _ _, j => j.id = id
  | .markAllStale kinds _ _, j => ofKinds kinds j
  | .markOldStale maxAge kind _ now, j => olderThan maxAge kind now j
  | _, _ => false

/-- What a call holds in memory is what was staged. -/
def Call.Agrees (store : JobStore) : Call → Prop
  | .finishing id status _ => (store.intent id).map TerminalIntent.status = some status
  | .committing id row status _ =>
    row.id = id ∧ (store.intent id).map TerminalIntent.status = some status
  | _ => True

/-- Every process holds what was staged. -/
def Held (s : JobSystem) : Prop := ∀ p, (s.processes p).call.Agrees s.store

/-- What was staged stays staged. -/
def KeepsIntents (s t : JobStore) : Prop :=
  ∀ k status, (s.intent k).map TerminalIntent.status = some status →
    (t.intent k).map TerminalIntent.status = some status

/-- What a step may make of a job: nothing, the end that was staged for it, or stale. -/
def JobFate (s : JobStore) (a : JobAction) (t : JobStore) : Prop :=
  ∀ id j, s.job id = some j → ∃ j', t.job id = some j' ∧
    (j'.status = j.status ∨ (j.status = .running ∧
      ((s.intent id).map TerminalIntent.status = some j'.status ∨
        (a.marksStale j = true ∧ j'.status = .stale))))

theorem keepsIntents_of_eq {s t : JobStore} (h : t.intents = s.intents) : KeepsIntents s t := by
  intro k status hk
  unfold JobStore.intent at hk ⊢
  rwa [h]

theorem keepsIntents_of_find {s t : JobStore}
    (h : ∀ k i, s.intent k = some i → ∃ i', t.intent k = some i' ∧ i'.status = i.status ∧
      i'.summaryJson = i.summaryJson) : KeepsIntents s t := by
  intro k status hk
  obtain ⟨i, hi, rfl⟩ := Option.map_eq_some_iff.mp hk
  obtain ⟨i', hi', hstatus, _⟩ := h k i hi
  rw [hi', Option.map_some, hstatus]

theorem jobFate_of_job {s t : JobStore} {a : JobAction}
    (h : ∀ id j, s.job id = some j → t.job id = some j) : JobFate s a t :=
  fun id j hj => ⟨j, h id j hj, Or.inl rfl⟩

theorem jobFate_of_jobs {s t : JobStore} {a : JobAction} (h : t.jobs = s.jobs) :
    JobFate s a t := by
  refine jobFate_of_job fun id j hj => ?_
  unfold JobStore.job at hj ⊢
  rwa [h]

/-- A call other than those that hold a result agrees with any tables. -/
theorem Call.Agrees.mono {s t : JobStore} (hkeep : KeepsIntents s t) {c : Call}
    (h : c.Agrees s) : c.Agrees t := by
  cases c with
  | finishing id status summary => exact hkeep id status h
  | committing id row status summary => exact ⟨h.1, hkeep id status h.2⟩
  | _ => trivial

theorem held_setCall {s : JobSystem} {store : JobStore} (hkeep : KeepsIntents s.store store)
    (h : Held s) {p : Nat} {c : Call} (hc : c.Agrees store) :
    Held ({ s with store := store }.setCall p c) := by
  intro q
  by_cases hq : q = p
  · subst hq
    simpa [JobSystem.setCall] using hc
  · simpa [JobSystem.setCall, hq] using (h q).mono hkeep

theorem held_setQueue {s : JobSystem} (h : Held s) (p : Nat) (queue : List Nat) :
    Held (s.setQueue p queue) := by
  intro q
  by_cases hq : q = p
  · subst hq
    simpa [JobSystem.setQueue] using h q
  · simpa [JobSystem.setQueue, hq] using h q

theorem held_beginApply {s : JobSystem} (h : Held s) (p id : Nat) : Held (s.beginApply p id) := by
  unfold JobSystem.beginApply applyRead
  cases hi : s.store.intent id with
  | none => exact held_setCall (keepsIntents_of_eq rfl) h trivial
  | some i => exact held_setCall (keepsIntents_of_eq rfl) h (by simp [Call.Agrees, hi])

theorem beginApply_store (s : JobSystem) (p id : Nat) : (s.beginApply p id).store = s.store := by
  unfold JobSystem.beginApply
  split <;> rfl

theorem jobFate_markStale {s : JobStore} {a : JobAction} {p : Job → Bool}
    (hp : ∀ j, p j = true → a.marksStale j = true) (reason summary : String) (now : Time) :
    JobFate s a (markStaleWhere p reason summary now s) := by
  intro id j hj
  have hstatus := (markStaleWhere_spec p reason summary now s).2 id
  rw [hj, Option.map_some] at hstatus
  obtain ⟨j', hj', hj's⟩ := Option.map_eq_some_iff.mp hstatus
  refine ⟨j', hj', ?_⟩
  split_ifs at hj's with h
  · have h := Bool.and_eq_true _ _ ▸ h
    exact Or.inr ⟨of_decide_eq_true h.1, Or.inr ⟨hp j h.2, hj's⟩⟩
  · exact Or.inl hj's

theorem jobFate_finishWrite {s t : JobStore} {a : JobAction} {id : Nat} {row : Job}
    {status : JobStatus} {summary : Option Dict} {now : Time} {done : Bool} (hrow : row.id = id)
    (hstaged : (s.intent id).map TerminalIntent.status = some status)
    (h : finishWrite row status summary now s = .ok (done, t)) : JobFate s a t := by
  intro k j hj
  have hstatus := (finishWrite_spec h).2 k
  rw [hj, Option.map_some] at hstatus
  obtain ⟨j', hj', hj's⟩ := Option.map_eq_some_iff.mp hstatus
  refine ⟨j', hj', ?_⟩
  split_ifs at hj's with hrunning
  · have hrunning := Bool.and_eq_true _ _ ▸ hrunning
    obtain rfl : k = id := by
      have hk : j.id = k := Tables.key_of_find hj
      have hj : j.id = row.id := of_decide_eq_true hrunning.1
      omega
    exact Or.inr ⟨of_decide_eq_true hrunning.2, Or.inl (by rw [hstaged, hj's])⟩
  · exact Or.inl hj's

/-- **One step.**  Intents stay, processes go on holding what was staged, and a running job
gets the end that was staged for it or is marked stale. -/
theorem jobStep_spec {s t : JobSystem} {a : JobAction} (hheld : Held s) (h : jobStep s a t) :
    KeepsIntents s.store t.store ∧ Held t ∧ JobFate s.store a t.store := by
  have hsame : KeepsIntents s.store s.store := keepsIntents_of_eq rfl
  have hfate : JobFate s.store a s.store := jobFate_of_jobs rfl
  -- a step that only moves one process on
  have hcall : ∀ p c, c.Agrees s.store → KeepsIntents s.store (s.setCall p c).store ∧
      Held (s.setCall p c) ∧ JobFate s.store a (s.setCall p c).store :=
    fun p c hc => ⟨hsame, held_setCall hsame hheld hc, hfate⟩
  have hstore : ∀ {store}, KeepsIntents s.store store → Held { s with store := store } :=
    fun hkeep q => (hheld q).mono hkeep
  cases a with
  | start request now =>
    simp only [jobStep, JobSystem.step] at h
    cases hstart : jobStart request now s.store with
    | error e =>
      rw [hstart] at h
      obtain rfl := Option.some.inj h
      exact ⟨hsame, hheld, hfate⟩
    | ok r =>
      rw [hstart] at h
      obtain rfl := Option.some.inj h
      obtain ⟨hintents, hjobs⟩ := jobStart_spec hstart
      have hkeep := keepsIntents_of_eq hintents
      exact ⟨hkeep, hstore hkeep, jobFate_of_job hjobs⟩
  | stage id status summary now =>
    simp only [jobStep, JobSystem.step] at h
    cases hstage : terminalStage id status summary now s.store with
    | error e =>
      rw [hstage] at h
      obtain rfl := Option.some.inj h
      exact ⟨hsame, hheld, hfate⟩
    | ok store =>
      rw [hstage] at h
      obtain rfl := Option.some.inj h
      obtain ⟨hjobs, _, hkeep⟩ := terminalStage_spec hstage
      have hkeep := keepsIntents_of_find hkeep
      exact ⟨hkeep, hstore hkeep, jobFate_of_jobs hjobs⟩
  | apply p id =>
    simp only [jobStep, JobSystem.step] at h
    split at h
    · obtain rfl := Option.some.inj h
      rw [beginApply_store]
      exact ⟨hsame, held_beginApply hheld p id, hfate⟩
    · cases h
  | recover p =>
    simp only [jobStep, JobSystem.step] at h
    split at h
    · obtain rfl := Option.some.inj h
      exact ⟨hsame, held_setQueue hheld p _, hfate⟩
    · cases h
  | next p =>
    simp only [jobStep, JobSystem.step] at h
    split at h
    · obtain rfl := Option.some.inj h
      rw [beginApply_store]
      exact ⟨hsame, held_beginApply (held_setQueue hheld p _) p _, hfate⟩
    · cases h
  | readJob p =>
    simp only [jobStep, JobSystem.step] at h
    split at h
    · rename_i id status summary hp
      have hagrees := hheld p
      rw [hp] at hagrees
      simp only [finishRead] at h
      cases hjob : s.store.job id with
      | none =>
        rw [hjob] at h
        obtain rfl := Option.some.inj h
        exact hcall p _ trivial
      | some j =>
        rw [hjob] at h
        by_cases hrunning : j.status = .running
        · simp only [hrunning, if_true] at h
          obtain rfl := Option.some.inj h
          exact hcall p _ ⟨Tables.key_of_find hjob, hagrees⟩
        · simp only [hrunning, if_false] at h
          obtain rfl := Option.some.inj h
          exact hcall p _ trivial
    · cases h
  | commit p now =>
    simp only [jobStep, JobSystem.step] at h
    split at h
    · rename_i id row status summary hp
      have hagrees := hheld p
      rw [hp] at hagrees
      cases hwrite : finishWrite row status (some summary) now s.store with
      | error e =>
        rw [hwrite] at h
        obtain rfl := Option.some.inj h
        exact hcall p _ trivial
      | ok r =>
        rw [hwrite] at h
        obtain rfl := Option.some.inj h
        have hkeep := keepsIntents_of_eq (finishWrite_spec hwrite).1
        exact ⟨hkeep, held_setCall hkeep hheld trivial,
          jobFate_finishWrite hagrees.1 hagrees.2 hwrite⟩
    · cases h
  | check p =>
    simp only [jobStep, JobSystem.step] at h
    split at h
    · split at h <;>
      · obtain rfl := Option.some.inj h
        exact hcall p _ trivial
    · cases h
  | mark p now =>
    simp only [jobStep, JobSystem.step] at h
    split at h
    · rename_i id hp
      obtain rfl := Option.some.inj h
      obtain ⟨hjobs, hkeep⟩ := applyMark_spec id now s.store
      have hkeep := keepsIntents_of_find hkeep
      exact ⟨hkeep, held_setCall hkeep hheld trivial, jobFate_of_jobs hjobs⟩
    · cases h
  | fail p =>
    obtain rfl := Option.some.inj h
    exact hcall p _ trivial
  | crash p =>
    obtain rfl := Option.some.inj h
    obtain ⟨h₁, h₂, h₃⟩ := hcall p .idle trivial
    exact ⟨h₁, held_setQueue h₂ p [], h₃⟩
  | markStale id reason now =>
    obtain rfl := Option.some.inj h
    have hkeep := keepsIntents_of_eq (markStaleWhere_spec (fun j => j.id = id) reason
      (jsonDumpsBounded (staleSummary reason now) maxJobSummaryBytes) now s.store).1
    exact ⟨hkeep, hstore hkeep, jobFate_markStale (fun _ hj => hj) _ _ _⟩
  | markAllStale kinds reason now =>
    obtain rfl := Option.some.inj h
    have hkeep := keepsIntents_of_eq (markStaleWhere_spec (ofKinds kinds) reason
      (jsonDumpsBounded (staleSummary reason now) maxJobSummaryBytes) now s.store).1
    exact ⟨hkeep, hstore hkeep, jobFate_markStale (fun _ hj => hj) _ _ _⟩
  | markOldStale maxAge kind reason now =>
    obtain rfl := Option.some.inj h
    have hkeep := keepsIntents_of_eq (markStaleWhere_spec (olderThan maxAge kind now) reason
      (jsonDumps plainJson (staleSummary reason now)) now s.store).1
    exact ⟨hkeep, hstore hkeep, jobFate_markStale (fun _ hj => hj) _ _ _⟩

/-! ### Runs -/

/-- The step does not mark the job as stale while it is running and has a staged result,
unless that result is `stale` itself. -/
def Spares (id : Nat) (s : JobSystem) (a : JobAction) : Prop :=
  ∀ j i, s.store.job id = some j → j.status = .running → s.store.intent id = some i →
    a.marksStale j = true → i.status = .stale

/-- A result is staged for the job, and the job is still running or ended with it. -/
structure StagedFor (id : Nat) (status : JobStatus) (s : JobSystem) : Prop where
  held : Held s
  intent : (s.store.intent id).map TerminalIntent.status = some status
  job : ∃ j, s.store.job id = some j ∧ (j.status = .running ∨ j.status = status)

theorem StagedFor.step {id : Nat} {status : JobStatus} {s t : JobSystem} {a : JobAction}
    (hs : StagedFor id status s) (h : Restrict jobStep (Spares id) s a t) :
    StagedFor id status t := by
  obtain ⟨hstep, hspares⟩ := h
  obtain ⟨hkeep, hheld, hfate⟩ := jobStep_spec hs.held hstep
  obtain ⟨j, hj, hstatus⟩ := hs.job
  obtain ⟨j', hj', hj's⟩ := hfate id j hj
  refine ⟨hheld, hkeep id status hs.intent, j', hj', ?_⟩
  rcases hj's with hsame | ⟨hrunning, hstaged | ⟨hmarks, hstale⟩⟩
  · rwa [hsame]
  · exact Or.inr (Option.some.inj (hstaged.symm.trans hs.intent))
  · obtain ⟨i, hi, rfl⟩ := Option.map_eq_some_iff.mp hs.intent
    exact Or.inr (hstale.trans (hspares j i hj hrunning hi hmarks).symm)

theorem held_run {s t : JobSystem} {as : List JobAction} (h : Run jobStep s as t) (hs : Held s) :
    Held t :=
  h.preserves Held (fun _ _ _ hheld hstep => (jobStep_spec hheld hstep).2.1) hs

theorem held_init : Held JobSystem.init := fun _ => trivial

/-- **A staged result wins** against everything but a stale marking of the job while it is
running: from the moment it is staged for a running job, the job is running or has ended
with the staged status, in every state that is reached. -/
theorem staged_status_wins {s t : JobSystem} {before after : List JobAction} {id : Nat}
    {status : JobStatus} (hbefore : Run jobStep .init before s)
    (hstaged : (s.store.intent id).map TerminalIntent.status = some status)
    (hrunning : (s.store.job id).map Job.status = some .running)
    (hafter : Run (Restrict jobStep (Spares id)) s after t) :
    (t.store.job id).map Job.status = some .running ∨
      (t.store.job id).map Job.status = some status := by
  obtain ⟨j, hj, hjr⟩ := Option.map_eq_some_iff.mp hrunning
  have hs : StagedFor id status s :=
    ⟨held_run hbefore held_init, hstaged, j, hj, Or.inl hjr⟩
  obtain ⟨j', hj', hj's⟩ := (hafter.preserves (StagedFor id status)
    (fun _ _ _ hs hstep => hs.step hstep) hs).job
  rw [hj']
  exact hj's.imp (congrArg some) (congrArg some)

/-! ### Runs that are carried out -/

/-- The system after a list of actions, each of which has to be possible. -/
def JobSystem.after (s : JobSystem) (as : List JobAction) : Option JobSystem :=
  as.foldlM JobSystem.step s

theorem run_of_after {s t : JobSystem} {as : List JobAction} (h : s.after as = some t) :
    Run jobStep s as t :=
  run_of_runAll h

/-- A run without stale markings spares every job. -/
theorem spares_of_noMarking {s t : JobSystem} {as : List JobAction} (id : Nat)
    (has : ∀ a ∈ as, ∀ j, a.marksStale j = false) (h : Run jobStep s as t) :
    Run (Restrict jobStep (Spares id)) s as t := by
  induction h with
  | nil s => exact .nil s
  | cons hstep _ ih =>
    refine .cons ⟨hstep, fun j i _ _ _ hmarks => ?_⟩ (ih fun a ha => has a (by simp [ha]))
    rw [has _ (by simp) j] at hmarks
    cases hmarks

/-- A backup of one pair. -/
def photoRequest : StartRequest where
  kind := "backup"
  attempts := [.dict [("name", .str "photos"), ("trigger", .str "scheduler")]]
  exclusiveScope := true
  definitionId := some "nightly"
  definitionName := some "Nightly"
  scheduledSlot := some "0 3 * * *|2026-01-01T03:00"
  dryRun := none
  trigger := some "scheduler"

/-- Its result: the pair was copied. -/
def photoSummary : Dict :=
  [("pairs", .list [.dict [("name", .str "photos"), ("ok", .bool true)]])]

/-- The job has started and its result is staged. -/
def photoStaged : List JobAction :=
  [.start photoRequest 1000000, .stage 1 .ok (some photoSummary) 61000000]

/-- The result is applied. -/
def photoApplied : List JobAction := [.apply 0 1, .readJob 0, .commit 0 62000000]

/-- What the two tables say of a job: its status and the status staged for it. -/
def JobSystem.view (s : JobSystem) (id : Nat) : Option JobStatus × Option JobStatus :=
  ((s.store.job id).map Job.status, (s.store.intent id).map TerminalIntent.status)

theorem photoStaged_view : ∃ s, Run jobStep .init photoStaged s ∧
    JobSystem.init.after photoStaged = some s ∧ s.view 1 = (some .running, some .ok) := by
  have hview : (JobSystem.init.after photoStaged).map (fun s => s.view 1)
      = some (some .running, some .ok) := by decide +kernel
  obtain ⟨s, hs, hv⟩ := Option.map_eq_some_iff.mp hview
  exact ⟨s, run_of_after hs, hs, hv⟩

theorem staged_status_wins_photo :
    ∃ s t, Run jobStep .init photoStaged s ∧ Run jobStep s photoApplied t ∧
      ((t.store.job 1).map Job.status = some .running ∨
        (t.store.job 1).map Job.status = some .ok) := by
  obtain ⟨s, hbefore, hs, hview⟩ := photoStaged_view
  have hsome : ((JobSystem.init.after photoStaged).bind fun s => s.after photoApplied).isSome
      = true := by decide +kernel
  rw [hs, Option.bind_some] at hsome
  obtain ⟨t, ht⟩ := Option.isSome_iff_exists.mp hsome
  have hafter := run_of_after ht
  obtain ⟨hrunning, hstaged⟩ := Prod.mk.inj hview
  refine ⟨s, t, hbefore, hafter,
    staged_status_wins hbefore hstaged hrunning (spares_of_noMarking 1 ?_ hafter)⟩
  simp [photoApplied, JobAction.marksStale]

/-- Recovery takes the job up, its transaction fails, recovery passes over it, and the
marking of all running jobs that follows ends the job. -/
def photoLost : List JobAction :=
  [.recover 0, .next 0, .readJob 0, .fail 0,
   .markAllStale backupScopeKinds "Prozess-Lock frei; kein aktiver Worker vorhanden" 90000000]

/-- **A staged result can lose**: the pair was copied and the result `ok` is staged for the
running job, but after one failed transaction during recovery the job ends as stale. -/
theorem staged_result_lost :
    ∃ s t, Run jobStep .init photoStaged s ∧ s.view 1 = (some .running, some .ok) ∧
      Run jobStep s photoLost t ∧ t.view 1 = (some .stale, some .ok) := by
  obtain ⟨s, hbefore, hs, hview⟩ := photoStaged_view
  have hlost : ((JobSystem.init.after photoStaged).bind fun s => s.after photoLost).map
      (fun t => t.view 1) = some (some .stale, some .ok) := by decide +kernel
  rw [hs, Option.bind_some] at hlost
  obtain ⟨t, ht, hv⟩ := Option.map_eq_some_iff.mp hlost
  exact ⟨s, t, hbefore, hview, run_of_after ht, hv⟩

end RcloneSync
