/-
RcloneSync/ExclusiveScopes.lean

Jobs that exclude each other.

Every kind of job belongs to a scope, given by `_JOB_SCOPE_KINDS`: the kinds that share the
backup scope, or the kind alone.  A start with `exclusive_scope` looks for a running job of
its scope and adds its own row only if there is none.

Any number of processes start jobs, finish them and mark them stale.  What they share is
the database; `BEGIN IMMEDIATE` gives the right to write to one connection at a time, and
what it writes is visible to the others only when it commits.  A start is therefore four
steps: it gets the right to write, looks, writes, and commits; it may fail or be killed
between any two of them.  The other transactions are single steps, possible only while no
start holds the right to write.

The steps of a start that was not refused add up to `jobStart` (`committed_start`), so the
system refines the transactions of the job tables.
-/
import RcloneSync.BaselineState

namespace RcloneSync

open Py Runs

/-! ### Scopes -/

/-- The job is running in the scope of a kind. -/
def runsIn (kind : String) (j : Job) : Bool :=
  j.status = .running && (scopeKinds kind).contains j.kind

/-- Scopes are disjoint: a kind of a scope has no other scope. -/
theorem scopeKinds_of_mem {kind other : String}
    (h : (scopeKinds kind).contains other = true) : scopeKinds kind = scopeKinds other := by
  by_cases hkind : backupScopeKinds.contains kind = true
  · have hscope : scopeKinds kind = backupScopeKinds := if_pos hkind
    rw [hscope] at h ⊢
    exact (if_pos h).symm
  · have hscope : scopeKinds kind = [kind] := if_neg hkind
    rw [hscope] at h
    have hsame : other = kind := by simpa using h
    rw [hsame]

theorem runsIn_congr {kind other : String} (h : scopeKinds kind = scopeKinds other) :
    runsIn kind = runsIn other := by
  funext j
  rw [runsIn, h]
  rfl

/-- A start finds a running job exactly when there is one in its scope. -/
theorem latestRunning_eq_none {kind : String} {jobs : List Job} :
    latestRunning (scopeKinds kind) jobs = none ↔ jobs.countP (runsIn kind) = 0 := by
  rw [List.countP_eq_length_filter, List.length_eq_zero_iff]
  show List.foldl _ none (jobs.filter (runsIn kind)) = none ↔ _
  cases jobs.filter (runsIn kind) with
  | nil => exact ⟨fun _ => rfl, fun _ => rfl⟩
  | cons j rows =>
    refine ⟨fun h => absurd h (Tables.foldl_ne_none (fun latest j => ?_) rows j),
      fun h => absurd h (List.cons_ne_nil j rows)⟩
    show ∃ c, (if latest.startedAt < j.startedAt then some j else some latest) = some c
    split_ifs
    · exact ⟨_, rfl⟩
    · exact ⟨_, rfl⟩

/-! ### Starts, step by step -/

/-- How far a start has come since it got the right to write. -/
inductive StartPhase
  | begun
  | clear
  | written (result : Except PyError (Nat × JobStore))

/-- A call of `job_start` with `exclusive_scope` that holds the right to write. -/
structure StartCall where
  process : Nat
  request : StartRequest
  now : Time
  phase : StartPhase

/-- The tables as every connection sees them, and the start that may write. -/
structure ScopeSystem where
  store : JobStore
  writer : Option StartCall

def ScopeSystem.empty : ScopeSystem := ⟨.empty, none⟩

inductive ScopeAction
  | begin (process : Nat) (request : StartRequest) (now : Time)
  | check (process : Nat)
  | insert (process : Nat)
  | commit (process : Nat)
  | abort (process : Nat)
  | other (a : StoreAction)

/-- `BEGIN IMMEDIATE`, for a kind that was accepted. -/
def beginStart (process : Nat) (request : StartRequest) (now : Time) (S : ScopeSystem) :
    Option ScopeSystem :=
  if S.writer.isNone ∧ request.exclusiveScope ∧ request.kind ≠ "" ∧
      request.kind.length ≤ 64 then
    some { S with writer := some ⟨process, request, now, .begun⟩ }
  else none

/-- The start that a process is in. -/
def ScopeSystem.callOf (process : Nat) (S : ScopeSystem) : Option StartCall :=
  S.writer.filter fun c => c.process = process

/-- The query for a running job of the scope; one that is found ends the transaction. -/
def checkScope (process : Nat) (S : ScopeSystem) : Option ScopeSystem :=
  match S.callOf process with
  | some ⟨process, request, now, .begun⟩ =>
    match latestRunning (scopeKinds request.kind) S.store.jobs with
    | some _ => some { S with writer := none }
    | none => some { S with writer := some ⟨process, request, now, .clear⟩ }
  | _ => none

/-- The rows of the job, its attempts and its schedule are written. -/
def insertJob (process : Nat) (S : ScopeSystem) : Option ScopeSystem :=
  match S.callOf process with
  | some ⟨process, request, now, .clear⟩ =>
    let result := jobStart { request with exclusiveScope := false } now S.store
    some { S with writer := some ⟨process, request, now, .written result⟩ }
  | _ => none

/-- What was written becomes visible. -/
def commitStart (process : Nat) (S : ScopeSystem) : Option ScopeSystem :=
  match S.callOf process with
  | some ⟨_, _, _, .written result⟩ => some ⟨committed result S.store, none⟩
  | _ => none

/-- An error, or the end of the process: the transaction is rolled back. -/
def abortStart (process : Nat) (S : ScopeSystem) : Option ScopeSystem :=
  (S.callOf process).map fun _ => { S with writer := none }

/-- A transaction that starts no job. -/
def otherTransaction (a : StoreAction) (S : ScopeSystem) : Option ScopeSystem :=
  match a with
  | .start _ _ => none
  | _ => if S.writer.isNone then some { S with store := a.run S.store } else none

def scopeStep (S : ScopeSystem) : ScopeAction → Option ScopeSystem
  | .begin process request now => beginStart process request now S
  | .check process => checkScope process S
  | .insert process => insertJob process S
  | .commit process => commitStart process S
  | .abort process => abortStart process S
  | .other a => otherTransaction a S

/-! ### The other transactions start nothing -/

theorem countP_updateWhere_le {p : Job → Bool} {q : Job → Bool} {f : Job → Job}
    (h : ∀ j, q j = true → p (f j) = true → p j = true) (jobs : List Job) :
    (Tables.updateWhere q f jobs).countP p ≤ jobs.countP p := by
  rw [Tables.updateWhere, List.countP_map]
  refine List.countP_mono_left fun j _ hj => ?_
  by_cases hq : q j = true
  · exact h j hq (by simpa [hq] using hj)
  · simpa [hq] using hj

theorem countP_markStale_le (kind : String) (p : Job → Bool) (reason summary : String)
    (now : Time) (s : JobStore) :
    (markStaleWhere p reason summary now s).jobs.countP (runsIn kind)
      ≤ s.jobs.countP (runsIn kind) := by
  rw [(markStaleWhere_jobs p reason summary now s).2.2]
  refine countP_updateWhere_le (fun j _ hj => ?_) s.jobs
  have hstale : (JobStatus.stale = .running) := of_decide_eq_true (Bool.and_eq_true _ _ ▸ hj).1
  cases hstale

theorem countP_deleteJobs_le (kind : String) (p : Job → Bool) (s : JobStore) :
    (deleteJobs p s).jobs.countP (runsIn kind) ≤ s.jobs.countP (runsIn kind) :=
  List.filter_sublist.countP_le

/-- Only a start adds a running job. -/
theorem countP_run_le (kind : String) {a : StoreAction} (s : JobStore)
    (ha : ∀ request now, a ≠ .start request now) :
    (a.run s).jobs.countP (runsIn kind) ≤ s.jobs.countP (runsIn kind) := by
  have hsame : ∀ {t : JobStore}, t.jobs = s.jobs →
      t.jobs.countP (runsIn kind) ≤ s.jobs.countP (runsIn kind) :=
    fun h => le_of_eq (congrArg _ h)
  cases a with
  | start request now => exact absurd rfl (ha request now)
  | finish row status summary now =>
    simp only [StoreAction.run]
    cases hwrite : finishWrite row status summary now s with
    | error e => exact le_refl _
    | ok r =>
      obtain ⟨done, t⟩ := r
      show t.jobs.countP _ ≤ _
      rw [(finishWrite_jobs hwrite).2.2.2]
      refine countP_updateWhere_le (fun j hj hafter => ?_) s.jobs
      have hrunning : j.status = .running := of_decide_eq_true (Bool.and_eq_true _ _ ▸ hj).2
      have hkind := (Bool.and_eq_true _ _ ▸ hafter).2
      exact Bool.and_eq_true _ _ ▸ ⟨decide_eq_true hrunning, hkind⟩
  | stage id status summary now =>
    simp only [StoreAction.run]
    cases hstage : terminalStage id status summary now s with
    | error e => exact le_refl _
    | ok t => exact hsame (terminalStage_spec hstage).1
  | applied id now => exact le_refl _
  | markStale id reason now => exact countP_markStale_le kind _ _ _ _ _
  | markAllStale kinds reason now => exact countP_markStale_le kind _ _ _ _ _
  | markOldStale maxAge k reason now => exact countP_markStale_le kind _ _ _ _ _
  | prune olderThanDays keepLatest now => exact countP_deleteJobs_le kind _ _
  | deleteFailed =>
    simp only [StoreAction.run]
    cases hdelete : jobsDeleteFailed s with
    | error e => exact le_refl _
    | ok r =>
      obtain ⟨count, t⟩ := r
      obtain ⟨warned, _, hdelete⟩ := bind_ok.mp hdelete
      obtain ⟨-, rfl⟩ := Prod.mk.inj (Except.ok.inj hdelete)
      exact countP_deleteJobs_le kind _ _
  | backfillRuns =>
    simp only [StoreAction.run]
    cases hfill : backfillPairRuns s with
    | error e => exact le_refl _
    | ok t => exact hsame (backfillPairRuns_jobs hfill)
  | backfillHistory now => exact le_refl _
  | lookup n k =>
    refine hsame ?_
    simp only [StoreAction.run, pairBaselineState]
    by_cases hblank : strip n = "" ∨ lookupKey n k = ""
    · rw [if_pos hblank]
    · rw [if_neg hblank]
      split <;> rfl

/-! ### The invariant -/

/-- What a start in progress knows of the tables: when it has looked, its scope is free, and
what it has written is what `job_start` writes. -/
structure StartCall.Knows (c : StartCall) (s : JobStore) : Prop where
  exclusive : c.request.exclusiveScope = true
  free : c.phase ≠ .begun → s.jobs.countP (runsIn c.request.kind) = 0
  writes : ∀ result, c.phase = .written result → result = jobStart c.request c.now s

structure ScopeOk (S : ScopeSystem) : Prop where
  once : ∀ kind, S.store.jobs.countP (runsIn kind) ≤ 1
  knows : ∀ c, S.writer = some c → c.Knows S.store

theorem scopeOk_empty : ScopeOk .empty :=
  ⟨fun _ => Nat.zero_le 1, fun c hc => absurd hc.symm (Option.some_ne_none c)⟩

/-- In a free scope the check of `job_start` makes no difference. -/
theorem jobStart_of_free {r : StartRequest} {now : Time} {s : JobStore}
    (hexclusive : r.exclusiveScope = true) (hfree : s.jobs.countP (runsIn r.kind) = 0) :
    jobStart { r with exclusiveScope := false } now s = jobStart r now s := by
  have hnone : latestRunning (scopeKinds r.kind) s.jobs = none :=
    latestRunning_eq_none.mpr hfree
  unfold jobStart
  simp only [hexclusive, hnone, if_true]
  rfl

/-- A start in a free scope makes its job the only one. -/
theorem once_start {r : StartRequest} {now : Time} {s t : JobStore} {new : Nat}
    (hs : ∀ kind, s.jobs.countP (runsIn kind) ≤ 1)
    (hfree : s.jobs.countP (runsIn r.kind) = 0) (h : jobStart r now s = .ok (new, t))
    (kind : String) : t.jobs.countP (runsIn kind) ≤ 1 := by
  obtain ⟨_, _, _, j, _, _, _, hkind, hjobs⟩ := jobStart_jobs h
  rw [hjobs, List.countP_append, List.countP_singleton]
  split_ifs with hj
  · have hmem : (scopeKinds kind).contains r.kind = true :=
      hkind ▸ (Bool.and_eq_true _ _ ▸ hj).2
    rw [runsIn_congr (scopeKinds_of_mem hmem), hfree]
  · exact hs kind

theorem callOf_eq_some {S : ScopeSystem} {process : Nat} {c : StartCall} :
    S.callOf process = some c ↔ S.writer = some c ∧ c.process = process := by
  simp [ScopeSystem.callOf, Option.filter_eq_some_iff]

/-! ### What each step does -/

theorem beginStart_ok {S T : ScopeSystem} {process : Nat} {request : StartRequest} {now : Time}
    (h : beginStart process request now S = some T) (hS : ScopeOk S) :
    ScopeOk T ∧ T.store = S.store := by
  unfold beginStart at h
  split_ifs at h with hmay
  obtain rfl := Option.some.inj h
  refine ⟨⟨hS.once, fun c hc => ?_⟩, rfl⟩
  obtain rfl := Option.some.inj hc
  exact ⟨hmay.2.1, fun hphase => absurd rfl hphase, nofun⟩

/-- A check that finds a job of the scope gives the right to write back; the start goes on
otherwise. -/
theorem checkScope_cases {S T : ScopeSystem} {process : Nat}
    (h : checkScope process S = some T) :
    ∃ c, S.writer = some c ∧ c.process = process ∧
      ((0 < S.store.jobs.countP (runsIn c.request.kind) ∧ T = { S with writer := none }) ∨
        (S.store.jobs.countP (runsIn c.request.kind) = 0 ∧
          T = { S with writer := some { c with phase := .clear } })) := by
  unfold checkScope at h
  cases hcall : S.callOf process with
  | none =>
    rw [hcall] at h
    cases h
  | some c =>
    obtain ⟨hwriter, hprocess⟩ := callOf_eq_some.mp hcall
    rw [hcall] at h
    obtain ⟨p, request, now, phase⟩ := c
    refine ⟨_, hwriter, hprocess, ?_⟩
    cases phase with
    | begun =>
      cases hlatest : latestRunning (scopeKinds request.kind) S.store.jobs with
      | none =>
        simp only [hlatest] at h
        exact Or.inr ⟨latestRunning_eq_none.mp hlatest, (Option.some.inj h).symm⟩
      | some j =>
        simp only [hlatest] at h
        refine Or.inl ⟨Nat.pos_of_ne_zero fun hzero => ?_, (Option.some.inj h).symm⟩
        rw [latestRunning_eq_none.mpr hzero] at hlatest
        cases hlatest
    | clear => cases h
    | written result => cases h

theorem checkScope_ok {S T : ScopeSystem} {process : Nat} (h : checkScope process S = some T)
    (hS : ScopeOk S) : ScopeOk T ∧ T.store = S.store := by
  obtain ⟨c, hwriter, _, ⟨_, rfl⟩ | ⟨hfree, rfl⟩⟩ := checkScope_cases h
  · exact ⟨⟨hS.once, fun c' hc' => absurd hc'.symm (Option.some_ne_none c')⟩, rfl⟩
  · refine ⟨⟨hS.once, fun c' hc' => ?_⟩, rfl⟩
    obtain rfl := Option.some.inj hc'
    exact ⟨(hS.knows c hwriter).exclusive, fun _ => hfree, nofun⟩

theorem insertJob_ok {S T : ScopeSystem} {process : Nat} (h : insertJob process S = some T)
    (hS : ScopeOk S) : ScopeOk T ∧ T.store = S.store := by
  unfold insertJob at h
  cases hcall : S.callOf process with
  | none =>
    rw [hcall] at h
    cases h
  | some c =>
    obtain ⟨hwriter, _⟩ := callOf_eq_some.mp hcall
    have hknows := hS.knows c hwriter
    rw [hcall] at h
    obtain ⟨p, request, now, phase⟩ := c
    cases phase with
    | begun => cases h
    | written result => cases h
    | clear =>
      have hfree : S.store.jobs.countP (runsIn request.kind) = 0 := hknows.free nofun
      obtain rfl := Option.some.inj h
      refine ⟨⟨hS.once, fun c hc => ?_⟩, rfl⟩
      obtain rfl := Option.some.inj hc
      refine ⟨hknows.exclusive, fun _ => hfree, fun result hresult => ?_⟩
      obtain rfl := StartPhase.written.inj hresult
      exact jobStart_of_free hknows.exclusive hfree

/-- **What is committed is what `job_start` does**, and the scope was free. -/
theorem committed_start {S T : ScopeSystem} {process : Nat}
    (h : commitStart process S = some T) (hS : ScopeOk S) :
    ∃ c, S.writer = some c ∧ c.process = process ∧ T.writer = none ∧
      S.store.jobs.countP (runsIn c.request.kind) = 0 ∧
      T.store = committed (jobStart c.request c.now S.store) S.store := by
  unfold commitStart at h
  cases hcall : S.callOf process with
  | none =>
    rw [hcall] at h
    cases h
  | some c =>
    obtain ⟨hwriter, hprocess⟩ := callOf_eq_some.mp hcall
    have hknows := hS.knows c hwriter
    rw [hcall] at h
    obtain ⟨p, request, now, phase⟩ := c
    cases phase with
    | begun => cases h
    | clear => cases h
    | written result =>
      obtain rfl := Option.some.inj h
      have hresult := hknows.writes result rfl
      exact ⟨_, hwriter, hprocess, rfl, hknows.free nofun,
        congrArg (committed · S.store) hresult⟩

theorem commitStart_ok {S T : ScopeSystem} {process : Nat}
    (h : commitStart process S = some T) (hS : ScopeOk S) : ScopeOk T := by
  obtain ⟨c, _, _, hwriter, hfree, hstore⟩ := committed_start h hS
  refine ⟨fun kind => ?_, fun c' hc' => ?_⟩
  · rw [hstore]
    cases hstart : jobStart c.request c.now S.store with
    | error e => exact hS.once kind
    | ok r => exact once_start hS.once hfree hstart kind
  · rw [hwriter] at hc'
    cases hc'

theorem abortStart_ok {S T : ScopeSystem} {process : Nat} (h : abortStart process S = some T)
    (hS : ScopeOk S) : ScopeOk T ∧ T.store = S.store ∧ T.writer = none := by
  obtain ⟨c, _, rfl⟩ := Option.map_eq_some_iff.mp h
  exact ⟨⟨hS.once, fun c' hc' => absurd hc'.symm (Option.some_ne_none c')⟩, rfl, rfl⟩

theorem otherTransaction_ok {S T : ScopeSystem} {a : StoreAction}
    (h : otherTransaction a S = some T) (hS : ScopeOk S) :
    ScopeOk T ∧ S.writer = none ∧ T.writer = none := by
  have hcases : (∀ request now, a ≠ .start request now) ∧ S.writer = none ∧
      T = { S with store := a.run S.store } := by
    cases a with
    | start request now => cases h
    | _ =>
      simp only [otherTransaction, Option.isNone_iff_eq_none, Option.ite_none_right_eq_some,
        Option.some.injEq] at h
      exact ⟨fun _ _ hstart => StoreAction.noConfusion hstart, h.1, h.2.symm⟩
  obtain ⟨hstart, hwriter, rfl⟩ := hcases
  refine ⟨⟨fun kind => ?_, fun c hc => ?_⟩, hwriter, hwriter⟩
  · exact (countP_run_le kind S.store hstart).trans (hS.once kind)
  · rw [show S.writer = some c from hc] at hwriter
    cases hwriter

theorem scopeStep_ok {S T : ScopeSystem} {a : ScopeAction} (h : scopeStep S a = some T)
    (hS : ScopeOk S) : ScopeOk T := by
  cases a with
  | begin process request now => exact (beginStart_ok h hS).1
  | check process => exact (checkScope_ok h hS).1
  | insert process => exact (insertJob_ok h hS).1
  | commit process => exact commitStart_ok h hS
  | abort process => exact (abortStart_ok h hS).1
  | other a => exact (otherTransaction_ok h hS).1

theorem scopeOk_run {S T : ScopeSystem} {as : List ScopeAction}
    (h : Run (Steps scopeStep) S as T) (hS : ScopeOk S) : ScopeOk T :=
  h.preserves ScopeOk (fun _ _ _ hU hstep => scopeStep_ok hstep hU) hS

/-! ### Runs -/

/-- No start gets the right to write. -/
def Quiet (as : List ScopeAction) : Prop :=
  ∀ process request now, .begin process request now ∉ as

/-- Where no start has the right to write, the next step begins one or starts nothing. -/
theorem idle_step {S T : ScopeSystem} {a : ScopeAction} (h : scopeStep S a = some T)
    (hwriter : S.writer = none) :
    (∃ process request now, a = .begin process request now) ∨ ∃ b, a = .other b := by
  have hnone : ∀ p, S.callOf p = none := by
    intro p
    rw [ScopeSystem.callOf, hwriter]
    rfl
  cases a with
  | begin process request now => exact Or.inl ⟨process, request, now, rfl⟩
  | other b => exact Or.inr ⟨b, rfl⟩
  | check process => simp [scopeStep, checkScope, hnone] at h
  | insert process => simp [scopeStep, insertJob, hnone] at h
  | commit process => simp [scopeStep, commitStart, hnone] at h
  | abort process => simp [scopeStep, abortStart, hnone] at h

/-- While a start has the right to write, the tables stay as they are, unless it is given
back. -/
theorem held_step {S T : ScopeSystem} {a : ScopeAction} (h : scopeStep S a = some T)
    (hS : ScopeOk S) (hwriter : S.writer ≠ none) : T.writer = none ∨ T.store = S.store := by
  cases a with
  | begin process request now => exact Or.inr (beginStart_ok h hS).2
  | check process => exact Or.inr (checkScope_ok h hS).2
  | insert process => exact Or.inr (insertJob_ok h hS).2
  | commit process =>
    obtain ⟨_, _, _, hnone, _⟩ := committed_start h hS
    exact Or.inl hnone
  | abort process => exact Or.inl (abortStart_ok h hS).2.2
  | other b => exact absurd (otherTransaction_ok h hS).2.1 hwriter

/-- Where no start has the right to write and none gets it, nothing is checked. -/
theorem no_check_of_quiet {S T : ScopeSystem} {as : List ScopeAction} {process : Nat}
    (h : Run (Steps scopeStep) S (as ++ [.check process]) T) (hS : ScopeOk S)
    (hwriter : S.writer = none) (hquiet : Quiet as) : False := by
  induction as generalizing S with
  | nil =>
    cases h with
    | cons hstep _ =>
      rcases idle_step hstep hwriter with ⟨_, _, _, hbegin⟩ | ⟨_, hother⟩
      · cases hbegin
      · cases hother
  | cons a as ih =>
    cases h with
    | cons hstep hrest =>
      rcases idle_step hstep hwriter with ⟨p, r, n, rfl⟩ | ⟨b, rfl⟩
      · exact hquiet p r n List.mem_cons_self
      · obtain ⟨hT, _, hnone⟩ := otherTransaction_ok hstep hS
        exact ih hrest hT hnone fun p r n hmem => hquiet p r n (List.mem_cons_of_mem _ hmem)

/-- Between getting the right to write and its check a start leaves the tables alone. -/
theorem store_of_check {S T : ScopeSystem} {as : List ScopeAction} {process : Nat}
    (h : Run (Steps scopeStep) S (as ++ [.check process]) T) (hS : ScopeOk S)
    (hwriter : S.writer ≠ none) (hquiet : Quiet as) : T.store = S.store := by
  induction as generalizing S with
  | nil =>
    cases h with
    | cons hstep hnil =>
      cases hnil
      exact (checkScope_ok hstep hS).2
  | cons a as ih =>
    have hrest : Quiet as := fun p r n hmem => hquiet p r n (List.mem_cons_of_mem a hmem)
    cases h with
    | cons hstep htail =>
      rename_i U
      have hU := scopeStep_ok hstep hS
      by_cases hnone : U.writer = none
      · exact (no_check_of_quiet htail hU hnone hrest).elim
      · have hstore := (held_step hstep hS hwriter).resolve_left hnone
        exact (ih htail hU hnone hrest).trans hstore

/-- **Exclusive scopes.**  However starts, finishes, stale markings and the other
transactions of any number of processes are interleaved, at most one job of every scope is
running.  A start is refused exactly when a job of its scope is running; from the moment it
got the right to write until it is refused, nothing is written.  Steps that neither commit a
start nor are transactions of their own change nothing, and what a start commits is what
`job_start` does. -/
theorem exclusive_scopes {S : ScopeSystem} {as : List ScopeAction}
    (hrun : Run (Steps scopeStep) .empty as S) :
    (∀ kind, S.store.jobs.countP (runsIn kind) ≤ 1) ∧
      (∀ process T, scopeStep S (.check process) = some T →
        ∃ c, S.writer = some c ∧ c.process = process ∧
          (T.writer = none ↔ ∃ j ∈ S.store.jobs, runsIn c.request.kind j = true)) ∧
      (∀ process request now mid T, Quiet mid →
        Run (Steps scopeStep) S (.begin process request now :: mid ++ [.check process]) T →
        T.store = S.store) ∧
      (∀ a T, scopeStep S a = some T → (∀ process, a ≠ .commit process) →
        (∀ b, a ≠ .other b) → T.store = S.store) ∧
      ∀ process T, scopeStep S (.commit process) = some T →
        ∃ c, S.writer = some c ∧ c.process = process ∧
          T.store = committed (jobStart c.request c.now S.store) S.store := by
  have hS : ScopeOk S := scopeOk_run hrun scopeOk_empty
  refine ⟨hS.once, fun process T h => ?_, fun process request now mid T hquiet h => ?_,
    fun a T h hcommit hother => ?_, fun process T h => ?_⟩
  · obtain ⟨c, hwriter, hprocess, hcases⟩ := checkScope_cases h
    refine ⟨c, hwriter, hprocess, ?_⟩
    rw [← List.countP_pos_iff]
    rcases hcases with ⟨hpos, rfl⟩ | ⟨hzero, rfl⟩
    · exact ⟨fun _ => hpos, fun _ => rfl⟩
    · rw [hzero]
      exact ⟨nofun, nofun⟩
  · rw [List.cons_append] at h
    cases h with
    | cons hbegin hrest =>
      rename_i U
      obtain ⟨hU, hstore⟩ := beginStart_ok hbegin hS
      have hwriter : U.writer ≠ none := by
        have hbegin : beginStart process request now S = some U := hbegin
        unfold beginStart at hbegin
        split_ifs at hbegin
        obtain rfl := Option.some.inj hbegin
        nofun
      exact (store_of_check hrest hU hwriter hquiet).trans hstore
  · cases a with
    | begin process request now => exact (beginStart_ok h hS).2
    | check process => exact (checkScope_ok h hS).2
    | insert process => exact (insertJob_ok h hS).2
    | commit process => exact absurd rfl (hcommit process)
    | abort process => exact (abortStart_ok h hS).2.1
    | other b => exact absurd rfl (hother b)
  · obtain ⟨c, hwriter, hprocess, _, _, hstore⟩ := committed_start h hS
    exact ⟨c, hwriter, hprocess, hstore⟩

/-- Two processes want to back up; the second one looks while the first one's job runs. -/
def twoBackups : List ScopeAction :=
  [.begin 1 (namedRequest "Photos") 1000000, .check 1, .insert 1, .commit 1,
   .begin 2 { namedRequest "Photos" with kind := "check" } 2000000, .check 2,
   .other (.markStale 1 "Neustart" 3000000)]

theorem exclusive_scopes_two : ∃ S, runAll scopeStep .empty twoBackups = some S ∧
    S.store.jobs.map Job.status = [.stale] ∧
    ∀ kind, S.store.jobs.countP (runsIn kind) ≤ 1 := by
  have hruns : ((runAll scopeStep .empty twoBackups).map fun S => S.store.jobs.map Job.status)
      = some [.stale] := by decide +kernel
  obtain ⟨S, hS, hjobs⟩ := Option.map_eq_some_iff.mp hruns
  exact ⟨S, hS, hjobs, (exclusive_scopes (run_of_runAll hS)).1⟩

end RcloneSync
