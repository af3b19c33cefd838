/-
RcloneSync/BatchRecovery.lean

A batch that was interrupted, and what its items say in the end.

The thread records of an item what became of its job; `job_batch_recover` looks at the same rows,
but knows only one good end.  What holds between two steps is `BatchFits` for the tables and
`WorkerFits` for the thread: an item that is closed says how its job ended, and that end is final;
an item that is running has one job; and what the thread has read still stands in the tables.  The
jobs change only in ways that leave this alone (`Moves`).

Where no step closes an item without a look at the end of its job (`SparesBatch`), the batch agrees
with its jobs in every state (`batch_agrees`).  A stop between the end of a cancelled job and the end
of its item is enough to lose this (`cancelled_job_recovered_as_failed`).
-/
import RcloneSync.JobBatches

namespace RcloneSync

open Py Runs

namespace BatchTables

/-! ### The jobs -/

def hasIntent (s : BatchTables) (job : Nat) : Prop := ∃ i ∈ s.store.intents, i.jobId = job

/-- Jobs have different ids, deleted ones have ended, and so has a job whose staged result was
applied. -/
structure JobsFit (s : BatchTables) : Prop where
  nodup : (s.everyJob.map Job.id).Nodup
  below : ∀ j ∈ s.everyJob, j.id < s.store.nextJobId
  ended : ∀ j ∈ s.deleted, j.status ≠ .running
  staged : ∀ i ∈ s.store.intents, i.jobId < s.store.nextJobId ∧ i.status ≠ .running
  applied : ∀ i ∈ s.store.intents, i.appliedAt ≠ none → s.outcome i.jobId ≠ .running

/-- What a step makes of a job: nothing, or it ends it.  Ends other than an error come from a staged
result, or from the thread that works on the job. -/
structure Became (s : BatchTables) (busy : Nat → Prop) (r r' : Job) : Prop where
  kind : r'.kind = r.kind
  status : r'.status = r.status ∨ r.status = .running ∧ r'.status ≠ .running ∧
    (r'.status = .stale ∨ r'.status = .error ∨ s.hasIntent r.id ∨ busy r.id)

/-- A step on the jobs. -/
structure Moves (s t : BatchTables) (busy : Nat → Prop) : Prop where
  fits : t.JobsFit
  ran : ∀ job r, s.ran job = some r → ∃ r', t.ran job = some r' ∧ s.Became busy r r'
  intents : ∀ job, t.hasIntent job → s.hasIntent job ∨ busy job
  batch : t.batch = s.batch
  claims : t.claims = s.claims
  runs : t.runs = s.runs

theorem ran_eq (s : BatchTables) (job : Nat) :
    s.ran job = (s.store.job job).or (Tables.find Job.id s.deleted job) :=
  List.find?_append

theorem ran_of_job {s : BatchTables} {job : Nat} {r : Job} (h : s.store.job job = some r) :
    s.ran job = some r := by
  rw [ran_eq, h]
  rfl

theorem outcome_of_ran {s : BatchTables} {job : Nat} {r : Job} (h : s.ran job = some r) :
    s.outcome job = r.status := by
  rw [outcome, h]
  rfl

theorem outcome_of_job {s : BatchTables} {job : Nat} {status : JobStatus}
    (h : (s.store.job job).map Job.status = some status) : s.outcome job = status := by
  obtain ⟨r, hr, rfl⟩ := Option.map_eq_some_iff.mp h
  exact outcome_of_ran (ran_of_job hr)

theorem mem_of_ran {s : BatchTables} {job : Nat} {r : Job} (h : s.ran job = some r) :
    r ∈ s.everyJob ∧ r.id = job :=
  ⟨Tables.mem_of_find h, Tables.key_of_find h⟩

theorem JobsFit.ran_of_mem {s : BatchTables} (hs : s.JobsFit) {r : Job} (h : r ∈ s.everyJob) :
    s.ran r.id = some r :=
  Tables.find_of_mem hs.nodup h rfl

/-- A job that is known but not in the table was deleted, and has ended. -/
theorem JobsFit.ended_of_missing {s : BatchTables} (hs : s.JobsFit) {job : Nat}
    (h : s.store.job job = none) : s.outcome job ≠ .running := by
  rw [outcome, ran_eq, h, Option.none_or]
  cases hd : Tables.find Job.id s.deleted job with
  | none => simp
  | some r => exact hs.ended r (Tables.mem_of_find hd)

theorem Moves.refl {s : BatchTables} (hs : s.JobsFit) (busy : Nat → Prop) : s.Moves s busy :=
  ⟨hs, fun _ r h => ⟨r, h, rfl, Or.inl rfl⟩, fun _ h => Or.inl h, rfl, rfl, rfl⟩

/-- A job that is not running stays as it is. -/
theorem Moves.outcome_of_ended {s t : BatchTables} {busy : Nat → Prop} (h : s.Moves t busy)
    {job : Nat} {r : Job} (hr : s.ran job = some r) (hend : s.outcome job ≠ .running) :
    t.outcome job = s.outcome job := by
  obtain ⟨r', hr', hb⟩ := h.ran job r hr
  rw [outcome_of_ran hr] at hend ⊢
  rw [outcome_of_ran hr']
  exact hb.status.resolve_right fun hrun => hend hrun.1

/-- A change of running jobs that ends them. -/
theorem moves_update {s : BatchTables} (hs : s.JobsFit) {busy : Nat → Prop} {u : JobStore}
    {p : Job → Bool} {f : Job → Job} (hjobs : u.jobs = Tables.updateWhere p f s.store.jobs)
    (hnext : u.nextJobId = s.store.nextJobId) (hintents : u.intents = s.store.intents)
    (hp : ∀ j, p j = true → j.status = .running)
    (hf : ∀ j, (f j).id = j.id ∧ (f j).kind = j.kind ∧ (f j).status ≠ .running)
    (hend : ∀ j, p j = true → (f j).status = .stale ∨ (f j).status = .error ∨ s.hasIntent j.id ∨
      busy j.id) : s.Moves { s with store := u } busy := by
  have hdel : s.deleted = Tables.updateWhere p f s.deleted := by
    refine (Tables.updateWhere_of_none ?_ f).symm
    refine List.any_eq_false.mpr fun d hd hpd => hs.ended d hd (hp d hpd)
  have hevery : BatchTables.everyJob { s with store := u } = Tables.updateWhere p f s.everyJob := by
    rw [everyJob, everyJob, hjobs]
    conv_lhs => rw [hdel]
    exact (List.map_append).symm
  have hran : ∀ job, BatchTables.ran { s with store := u } job
      = (s.ran job).map fun r => if p r then f r else r := by
    intro job
    rw [ran, hevery, Tables.find_updateWhere fun j => (hf j).1]
    rfl
  have hbecame : ∀ job r, s.ran job = some r →
      ∃ r', BatchTables.ran { s with store := u } job = some r' ∧ s.Became busy r r' := by
    intro job r hr
    refine ⟨if p r then f r else r, (hran job).trans (congrArg _ hr), ?_⟩
    by_cases hpr : p r = true
    · rw [if_pos hpr]
      exact ⟨(hf r).2.1, Or.inr ⟨hp r hpr, (hf r).2.2, hend r hpr⟩⟩
    · rw [if_neg hpr]
      exact ⟨rfl, Or.inl rfl⟩
  refine ⟨⟨?_, ?_, hs.ended, ?_, ?_⟩, hbecame, ?_, rfl, rfl, rfl⟩
  · rw [hevery, Tables.map_key_updateWhere fun j => (hf j).1]
    exact hs.nodup
  · intro j hj
    rw [hevery] at hj
    obtain ⟨r, hr, rfl⟩ := List.mem_map.mp hj
    have hlt := hs.below r hr
    show _ < u.nextJobId
    rw [hnext]
    split_ifs
    · rw [(hf r).1]
      exact hlt
    · exact hlt
  · show ∀ i ∈ u.intents, i.jobId < u.nextJobId ∧ i.status ≠ .running
    rw [hintents, hnext]
    exact hs.staged
  · show ∀ i ∈ u.intents, i.appliedAt ≠ none → _
    rw [hintents]
    intro i hi happlied hrun
    have hold := hs.applied i hi happlied
    rw [outcome, hran] at hrun
    rw [outcome] at hold
    cases hr : s.ran i.jobId with
    | none =>
      rw [hr] at hrun
      cases hrun
    | some r =>
      rw [hr] at hrun hold
      by_cases hpr : p r = true
      · exact hold (hp r hpr)
      · rw [Option.map_some, if_neg hpr] at hrun
        exact hold hrun
  · intro job h
    obtain ⟨i, hi, hid⟩ := h
    exact Or.inl ⟨i, hintents ▸ hi, hid⟩

/-- The end of a job by `job_finish`. -/
theorem moves_finishJob {s : BatchTables} (hs : s.JobsFit) {busy : Nat → Prop} {id : Nat}
    {status : JobStatus} {summary : Option Dict} {now : Time} (hstatus : status ≠ .running)
    (h : status = .error ∨ s.hasIntent id ∨ busy id) :
    s.Moves (s.finishJob id status summary now) busy := by
  rw [finishJob]
  cases hfin : jobFinish id status summary now s.store with
  | error e => exact .refl hs busy
  | ok result =>
    obtain ⟨done, u⟩ := result
    obtain ⟨row, hread, hwrite⟩ := bind_ok.mp hfin
    have hrow : ∀ r, row = some r → r.id = id := by
      intro r hr
      rw [finishRead] at hread
      cases hj : s.store.job id with
      | none =>
        rw [hj] at hread
        cases hread
      | some j =>
        rw [hj] at hread
        have hread := Except.ok.inj hread
        subst hr
        split_ifs at hread
        obtain rfl := Option.some.inj hread
        exact Tables.key_of_find hj
    cases row with
    | none =>
      obtain ⟨_, rfl⟩ := Prod.mk.inj (Except.ok.inj hwrite)
      exact .refl hs busy
    | some r =>
      obtain ⟨hintents, hnext, _, hjobs⟩ := finishWrite_jobs hwrite
      have hid : ∀ j, isRunningJob r.id j = true → j.id = id ∧ j.status = .running := by
        intro j hj
        have hboth : j.id = r.id ∧ j.status = .running := by simpa [isRunningJob] using hj
        exact ⟨hboth.1.trans (hrow r rfl), hboth.2⟩
      refine moves_update hs hjobs hnext hintents (fun j hj => (hid j hj).2)
        (fun j => ⟨rfl, rfl, hstatus⟩) fun j hj => ?_
      rw [(hid j hj).1]
      exact Or.inr h

/-- The jobs that a marking makes stale. -/
theorem moves_markStale {s : BatchTables} (hs : s.JobsFit) (busy : Nat → Prop)
    (kinds : List String) (reason : String) (now : Time) :
    s.Moves { s with store := jobsMarkAllRunningStale kinds reason now s.store } busy := by
  obtain ⟨hintents, hnext, hjobs⟩ := markStaleWhere_jobs (ofKinds kinds) reason
    (jsonDumpsBounded (staleSummary reason now) maxJobSummaryBytes) now s.store
  refine moves_update hs hjobs hnext hintents (fun j hj => ?_) (fun j => ⟨rfl, rfl, by simp⟩)
    fun j _ => Or.inl rfl
  exact of_decide_eq_true (Bool.and_eq_true_iff.mp hj).1

/-- A change of what is staged. -/
theorem moves_intents {s : BatchTables} (hs : s.JobsFit) {busy : Nat → Prop} {u : JobStore}
    (hjobs : u.jobs = s.store.jobs) (hnext : u.nextJobId = s.store.nextJobId)
    (hstaged : ∀ i ∈ u.intents, i.jobId < s.store.nextJobId ∧ i.status ≠ .running ∧
      (i.appliedAt ≠ none → s.outcome i.jobId ≠ .running) ∧ (s.hasIntent i.jobId ∨ busy i.jobId)) :
    s.Moves { s with store := u } busy := by
  have hevery : BatchTables.everyJob { s with store := u } = s.everyJob := by
    rw [everyJob, everyJob, hjobs]
  have hran : ∀ job, BatchTables.ran { s with store := u } job = s.ran job := by
    intro job
    rw [ran, ran, hevery]
  refine ⟨⟨?_, ?_, hs.ended, ?_, ?_⟩, fun job r hr => ⟨r, (hran job).trans hr, rfl, Or.inl rfl⟩,
    ?_, rfl, rfl, rfl⟩
  · rw [hevery]
    exact hs.nodup
  · intro j hj
    show _ < u.nextJobId
    rw [hnext]
    exact hs.below j (hevery ▸ hj)
  · intro i hi
    show _ < u.nextJobId ∧ _
    rw [hnext]
    exact ⟨(hstaged i hi).1, (hstaged i hi).2.1⟩
  · intro i hi happlied
    rw [outcome, hran]
    exact (hstaged i hi).2.2.1 happlied
  · rintro job ⟨i, hi, rfl⟩
    exact (hstaged i hi).2.2.2

/-- The result that a thread stages for its job. -/
theorem moves_stage {s : BatchTables} (hs : s.JobsFit) {busy : Nat → Prop} {job : Nat}
    (hbusy : busy job) (status : JobStatus) (summary : Option Dict) (now : Time) :
    s.Moves (s.attempt (terminalStage job status summary now s.store)) busy := by
  have hold : ∀ i ∈ s.store.intents, i.jobId < s.store.nextJobId ∧ i.status ≠ .running ∧
      (i.appliedAt ≠ none → s.outcome i.jobId ≠ .running) ∧ (s.hasIntent i.jobId ∨ busy i.jobId) :=
    fun i hi => ⟨(hs.staged i hi).1, (hs.staged i hi).2, hs.applied i hi, Or.inl ⟨i, hi, rfl⟩⟩
  rw [terminalStage]
  split_ifs with hrunning
  · exact .refl hs busy
  cases hj : s.store.job job with
  | none => exact .refl hs busy
  | some row =>
    have hlt : job < s.store.nextJobId := by
      have hrow := mem_of_ran (ran_of_job hj)
      exact hrow.2 ▸ hs.below row hrow.1
    cases s.store.intent job with
    | none =>
      refine moves_intents hs rfl rfl fun i hi => ?_
      rcases List.mem_append.mp hi with hi | hi
      · exact hold i hi
      · obtain rfl := List.mem_singleton.mp hi
        exact ⟨hlt, hrunning, fun h => absurd rfl h, Or.inr hbusy⟩
    | some intent =>
      show s.Moves (s.attempt (if _ then _ else _)) busy
      split_ifs
      · refine moves_intents hs rfl rfl fun i hi => ?_
        obtain ⟨i, hold_i, rfl⟩ := List.mem_map.mp hi
        have hfits := hold i hold_i
        split_ifs <;> exact hfits
      · exact .refl hs busy

/-- The staged status of a job. -/
theorem mem_of_applyRead {s : JobStore} {id : Nat} {status : JobStatus} {summary : Dict}
    (h : applyRead id s = .ok (status, summary)) :
    ∃ i ∈ s.intents, i.jobId = id ∧ i.status = status := by
  rw [applyRead] at h
  cases hi : s.intent id with
  | none =>
    rw [hi] at h
    cases h
  | some i =>
    rw [hi] at h
    exact ⟨i, Tables.mem_of_find hi, Tables.key_of_find hi, congrArg Prod.fst (Except.ok.inj h)⟩

theorem moves_applyFinish {s : BatchTables} (hs : s.JobsFit) (busy : Nat → Prop) (id : Nat)
    (now : Time) : s.Moves (s.applyFinish id now) busy := by
  rw [applyFinish]
  cases hread : applyRead id s.store with
  | error e => exact .refl hs busy
  | ok result =>
    obtain ⟨i, hi, hid, hstatus⟩ := mem_of_applyRead hread
    have hterminal := (hs.staged i hi).2
    rw [hstatus] at hterminal
    exact moves_finishJob hs hterminal (Or.inr (Or.inl ⟨i, hi, hid⟩))

theorem moves_applyMark {s : BatchTables} (hs : s.JobsFit) (busy : Nat → Prop) (id : Nat)
    (now : Time) : s.Moves (s.applyMark id now) busy := by
  rw [applyMark]
  cases hread : applyRead id s.store with
  | error e => exact .refl hs busy
  | ok result =>
    obtain ⟨i₀, hi₀, _, hstatus⟩ := mem_of_applyRead hread
    show s.Moves (if _ then _ else _) busy
    split_ifs with hsame
    · have hended : s.outcome id ≠ .running := by
        rw [outcome_of_job hsame, ← hstatus]
        exact (hs.staged i₀ hi₀).2
      refine moves_intents hs rfl rfl fun i hi => ?_
      obtain ⟨i, hold, rfl⟩ := List.mem_map.mp hi
      have hfits := hs.staged i hold
      split_ifs with hid
      · refine ⟨hfits.1, hfits.2, fun _ => ?_, Or.inl ⟨i, hold, rfl⟩⟩
        show s.outcome i.jobId ≠ .running
        rw [of_decide_eq_true hid]
        exact hended
      · exact ⟨hfits.1, hfits.2, hs.applied i hold, Or.inl ⟨i, hold, rfl⟩⟩
    · exact .refl hs busy

/-- A new job, with an id that no job had. -/
theorem moves_start {s : BatchTables} (hs : s.JobsFit) (busy : Nat → Prop) {r : StartRequest}
    {now : Time} {u : JobStore} {new : Nat} (h : jobStart r now s.store = .ok (new, u)) :
    s.Moves { s with store := u } busy ∧ s.ran new = none ∧
      ∃ j, BatchTables.ran { s with store := u } new = some j ∧ j.kind = r.kind := by
  obtain ⟨hintents, rfl, hnext, j, hid, _, _, hkind, hjobs⟩ := jobStart_jobs h
  have hperm : (BatchTables.everyJob { s with store := u }).Perm (s.everyJob ++ [j]) := by
    rw [everyJob, everyJob, hjobs, List.append_assoc, List.append_assoc]
    exact List.Perm.append_left _ List.perm_append_comm
  have hfresh : j.id ∉ s.everyJob.map Job.id := by
    intro hmem
    obtain ⟨r, hr, heq⟩ := List.mem_map.mp hmem
    have hlt := hs.below r hr
    omega
  have hnodup : ((s.everyJob ++ [j]).map Job.id).Nodup := by
    rw [List.map_append]
    exact List.Nodup.append hs.nodup (List.nodup_singleton _) (by simpa using hfresh)
  have hkeys : ((BatchTables.everyJob { s with store := u }).map Job.id).Nodup :=
    (hperm.map Job.id).nodup_iff.mpr hnodup
  have hran : ∀ job, BatchTables.ran { s with store := u } job
      = (s.ran job).or (if j.id = job then some j else none) := by
    intro job
    rw [ran, Tables.find_perm hperm hkeys, Tables.find_append]
    rfl
  have hnone : s.ran s.store.nextJobId = none := Tables.find_eq_none (hid ▸ hfresh)
  refine ⟨⟨⟨hkeys, ?_, hs.ended, ?_, ?_⟩, fun job r hr => ⟨r, ?_, rfl, Or.inl rfl⟩, ?_, rfl, rfl,
    rfl⟩, hnone, j, ?_, hkind⟩
  · intro j' hj'
    show _ < u.nextJobId
    rw [hnext]
    rcases List.mem_append.mp (hperm.mem_iff.mp hj') with hj' | hj'
    · exact Nat.lt_succ_of_lt (hs.below j' hj')
    · obtain rfl := List.mem_singleton.mp hj'
      omega
  · show ∀ i ∈ u.intents, i.jobId < u.nextJobId ∧ _
    rw [hintents, hnext]
    exact fun i hi => ⟨Nat.lt_succ_of_lt (hs.staged i hi).1, (hs.staged i hi).2⟩
  · show ∀ i ∈ u.intents, _
    rw [hintents]
    intro i hi happlied
    have hne : ¬ j.id = i.jobId := by
      have hlt := (hs.staged i hi).1
      omega
    rw [outcome, hran, if_neg hne, Option.or_none]
    exact hs.applied i hi happlied
  · rw [hran, hr]
    rfl
  · intro job h
    obtain ⟨i, hi, hid⟩ := h
    exact Or.inl ⟨i, hintents ▸ hi, hid⟩
  · rw [hran, hnone, if_pos hid]
    rfl

/-- A deletion keeps what became of every job. -/
theorem delete_fits {s : BatchTables} (hs : s.JobsFit) (p : Job → Bool) :
    (s.delete p).JobsFit ∧ (∀ job, (s.delete p).ran job = s.ran job) ∧
      ∀ job, (s.delete p).hasIntent job → s.hasIntent job := by
  have hperm : (s.delete p).everyJob.Perm s.everyJob := by
    have hsplit := List.filter_append_perm (fun j : Job => j.status ≠ .running && p j) s.store.jobs
    show ((s.store.jobs.filter fun j => !(j.status ≠ .running && p j)) ++
      (s.deleted ++ s.store.jobs.filter fun j => j.status ≠ .running && p j)).Perm
        (s.store.jobs ++ s.deleted)
    refine List.Perm.trans ?_ (hsplit.append_right s.deleted)
    rw [← List.append_assoc]
    refine List.Perm.trans List.perm_append_comm ?_
    rw [← List.append_assoc]
  have hkeys : ((s.delete p).everyJob.map Job.id).Nodup :=
    (hperm.map Job.id).nodup_iff.mpr hs.nodup
  have hran : ∀ job, (s.delete p).ran job = s.ran job := fun job => Tables.find_perm hperm hkeys job
  have hintents : ∀ i ∈ (s.delete p).store.intents, i ∈ s.store.intents :=
    fun i hi => (List.mem_filter.mp hi).1
  refine ⟨⟨hkeys, fun j hj => hs.below j (hperm.mem_iff.mp hj), ?_,
    fun i hi => hs.staged i (hintents i hi), fun i hi happlied => ?_⟩, hran, ?_⟩
  · intro j hj
    rcases List.mem_append.mp hj with hj | hj
    · exact hs.ended j hj
    · have hended := (Bool.and_eq_true_iff.mp (List.mem_filter.mp hj).2).1
      exact of_decide_eq_true hended
  · rw [outcome, hran]
    exact hs.applied i (hintents i hi) happlied
  · rintro job ⟨i, hi, rfl⟩
    exact ⟨i, hintents i hi, rfl⟩

/-! ### The items and the thread between two steps -/

/-- The state says how the job stands, and nothing is staged that could still end it otherwise. -/
structure Recorded (s : BatchTables) (state : ItemState) (job : Nat) : Prop where
  state : state = itemState (s.outcome job)
  final : s.outcome job = .running → ¬ s.hasIntent job

/-- An item that waits has no job, one that is running has one, and one that is closed says how its
job ended. -/
structure ItemFits (s : BatchTables) (i : BatchItem) : Prop where
  queued : i.state = .queued → ∀ job, (i.position, job) ∉ s.claims
  running : i.state = .running → ∃ job, (i.position, job) ∈ s.claims ∧
    (i.jobId = some job ∨ i.jobId = none ∧ s.outcome job ≠ .running)
  closed : i.state.isOpen = false → ∀ job, (i.position, job) ∈ s.claims → s.Recorded i.state job
  unclaimed : (∀ job, (i.position, job) ∉ s.claims) → i.state ≠ .running ∧ i.state ≠ .done

/-- The state of a batch follows from its items. -/
structure FlagFits (b : JobBatch) : Prop where
  openBatch : b.state = .running ↔ b.hasOpen = true
  ended : b.state ≠ .running → (b.state = .cancelled ↔ b.cancelRequested = true)

/-- What holds of the tables. -/
structure BatchFits (s : BatchTables) : Prop where
  jobs : s.JobsFit
  positions : (s.batch.items.map BatchItem.position).Nodup
  claimedOnce : (s.claims.map Prod.fst).Nodup
  jobsOnce : (s.claims.map Prod.snd).Nodup
  claimed : ∀ c ∈ s.claims, (∃ r, s.ran c.2 = some r ∧ r.kind = "backup") ∧
    ∃ i ∈ s.batch.items, i.position = c.1
  items : ∀ i ∈ s.batch.items, s.ItemFits i
  ranOnce : (s.runs.map Prod.fst).Nodup
  ranClaimed : ∀ run ∈ s.runs, run ∈ s.claims
  flag : FlagFits s.batch

/-- An item as the thread read it. -/
structure Read (s : BatchTables) (i : BatchItem) : Prop where
  state : ∃ d ∈ s.batch.items, d.position = i.position ∧ d.state = i.state
  job : i.state = .running → ∀ job, i.jobId = some job → (i.position, job) ∈ s.claims
  lost : i.state = .running → i.jobId = none → ∀ job, (i.position, job) ∈ s.claims →
    s.outcome job ≠ .running

/-- The job of a position, if it has one, has ended. -/
def Idle (s : BatchTables) (position : Nat) : Prop :=
  ∀ job, (position, job) ∈ s.claims → s.outcome job ≠ .running

/-- The item at a position is running, with this job. -/
def Works (s : BatchTables) (position job : Nat) : Prop :=
  (position, job) ∈ s.claims ∧ ∃ d ∈ s.batch.items, d.position = position ∧ d.state = .running

end BatchTables

/-- The item of a phase. -/
def BatchPhase.item : BatchPhase → Option BatchItem
  | .reading => none
  | .next => none
  | .cancelling item => some item
  | .starting item => some item
  | .claiming item _ => some item
  | .failing item _ => some item
  | .entering item _ => some item
  | .running item _ => some item
  | .observing item _ => some item
  | .closing item _ _ => some item

/-- The item whose job may run next. -/
def BatchPhase.toEnter : BatchPhase → Option BatchItem
  | .starting item => some item
  | .claiming item _ => some item
  | .entering item _ => some item
  | _ => none

namespace BatchTables

/-- What the thread relies on in a phase. -/
def PhaseFits (s : BatchTables) : BatchPhase → Prop
  | .reading => ∀ run ∈ s.runs, s.outcome run.2 ≠ .running
  | .next => True
  | .cancelling _ => True
  | .starting item => s.Idle item.position
  | .claiming item job => s.Idle item.position ∧ job ∉ s.claims.map Prod.snd ∧
    ∃ r, s.ran job = some r ∧ r.kind = "backup"
  | .failing item _ => s.Idle item.position
  | .entering item job => s.Works item.position job
  | .running item job => s.Works item.position job
  | .observing item job => s.Works item.position job
  | .closing item job status => s.Works item.position job ∧ s.Recorded (itemState status) job

/-- What holds of the thread: no item that it has before it has a job that was run and goes on. -/
structure WorkerFits (s : BatchTables) (w : BatchWorker) : Prop where
  apart : (w.rest.map BatchItem.position).Nodup
  own : ∀ i, w.phase.item = some i → i.position ∉ w.rest.map BatchItem.position
  read : ∀ i ∈ w.rest, s.Read i
  ahead : ∀ run ∈ s.runs, s.outcome run.2 = .running →
    run.1 ∉ w.rest.map BatchItem.position ∧ ∀ i, w.phase.toEnter = some i → i.position ≠ run.1
  phase : s.PhaseFits w.phase

/-! ### The claims -/

/-- An item has one job. -/
theorem BatchFits.job_unique {s : BatchTables} (hs : s.BatchFits) {position job job' : Nat}
    (h : (position, job) ∈ s.claims) (h' : (position, job') ∈ s.claims) : job = job' :=
  congrArg Prod.snd (List.inj_on_of_nodup_map hs.claimedOnce h h' rfl)

/-- A job belongs to one item. -/
theorem BatchFits.position_unique {s : BatchTables} (hs : s.BatchFits)
    {position position' job : Nat} (h : (position, job) ∈ s.claims)
    (h' : (position', job) ∈ s.claims) : position = position' :=
  congrArg Prod.fst (List.inj_on_of_nodup_map hs.jobsOnce h h' rfl)

theorem BatchFits.item_unique {s : BatchTables} (hs : s.BatchFits) {i i' : BatchItem}
    (h : i ∈ s.batch.items) (h' : i' ∈ s.batch.items) (heq : i.position = i'.position) : i = i' :=
  List.inj_on_of_nodup_map hs.positions h h' heq

/-! ### Steps on the jobs -/

theorem Recorded.moves {s t : BatchTables} {busy : Nat → Prop} {state : ItemState} {job : Nat}
    {r : Job} (h : s.Recorded state job) (hm : s.Moves t busy) (hr : s.ran job = some r)
    (hbusy : ¬ busy job) : t.Recorded state job := by
  obtain ⟨r', hr', hb⟩ := hm.ran job r hr
  have hid : r.id = job := (mem_of_ran hr).2
  have hstate := h.state
  have hfinal := h.final
  rw [outcome_of_ran hr] at hstate hfinal
  have hnone : t.outcome job = .running → ¬ t.hasIntent job := by
    intro hrun hintent
    rw [outcome_of_ran hr'] at hrun
    rcases hb.status with hsame | ⟨_, hended, _⟩
    · exact (hm.intents job hintent).elim (hfinal (hsame ▸ hrun)) hbusy
    · exact hended hrun
  refine ⟨?_, hnone⟩
  rw [outcome_of_ran hr']
  rcases hb.status with hsame | ⟨hrun, _, hend⟩
  · rw [hsame]
    exact hstate
  rw [hrun] at hstate
  rcases hend with hend | hend | hend | hend
  · rw [hend]
    exact hstate
  · rw [hend]
    exact hstate
  · exact absurd (hid ▸ hend) (hfinal hrun)
  · exact absurd (hid ▸ hend) hbusy

theorem Moves.idle {s t : BatchTables} {busy : Nat → Prop} (hm : s.Moves t busy)
    (hs : s.BatchFits) {position : Nat} (h : s.Idle position) : t.Idle position := by
  intro job hjob
  rw [hm.claims] at hjob
  obtain ⟨⟨r, hr, _⟩, _⟩ := hs.claimed _ hjob
  rw [hm.outcome_of_ended hr (h job hjob)]
  exact h job hjob

/-- What a step on the jobs keeps of the items, if it may end at will only jobs of running items and
jobs of none. -/
theorem BatchFits.moves {s t : BatchTables} {busy : Nat → Prop} (hs : s.BatchFits)
    (hm : s.Moves t busy) (hbusy : ∀ i ∈ s.batch.items, ∀ job, busy job →
      (i.position, job) ∈ s.claims → i.state.isOpen = true) : t.BatchFits := by
  have hitems : ∀ i ∈ s.batch.items, t.ItemFits i := by
    intro i hi
    have hfits := hs.items i hi
    refine ⟨fun hq => hm.claims ▸ hfits.queued hq, fun hrun => ?_, fun hclosed job hjob => ?_,
      hm.claims ▸ hfits.unclaimed⟩
    · obtain ⟨job, hjob, hid⟩ := hfits.running hrun
      obtain ⟨⟨r, hr, _⟩, _⟩ := hs.claimed _ hjob
      refine ⟨job, hm.claims ▸ hjob, hid.imp_right fun h => ⟨h.1, ?_⟩⟩
      rw [hm.outcome_of_ended hr h.2]
      exact h.2
    · rw [hm.claims] at hjob
      obtain ⟨⟨r, hr, _⟩, _⟩ := hs.claimed _ hjob
      refine (hfits.closed hclosed job hjob).moves hm hr fun hb => ?_
      rw [hbusy i hi job hb hjob] at hclosed
      cases hclosed
  refine ⟨hm.fits, hm.batch ▸ hs.positions, hm.claims ▸ hs.claimedOnce, hm.claims ▸ hs.jobsOnce,
    fun c hc => ?_, hm.batch ▸ hitems, hm.runs ▸ hs.ranOnce, ?_, hm.batch ▸ hs.flag⟩
  · obtain ⟨⟨r, hr, hkind⟩, hitem⟩ := hs.claimed c (hm.claims ▸ hc)
    obtain ⟨r', hr', hb⟩ := hm.ran c.2 r hr
    exact ⟨⟨r', hr', hb.kind.trans hkind⟩, hm.batch ▸ hitem⟩
  · rw [hm.runs, hm.claims]
    exact hs.ranClaimed

theorem Moves.works {s t : BatchTables} {busy : Nat → Prop} (hm : s.Moves t busy)
    {position job : Nat} (h : s.Works position job) : t.Works position job := by
  rw [Works, hm.claims, hm.batch]
  exact h

/-- What a step on the jobs keeps of the thread. -/
theorem WorkerFits.moves {s t : BatchTables} {busy : Nat → Prop} {w : BatchWorker}
    (h : s.WorkerFits w) (hs : s.BatchFits) (hm : s.Moves t busy)
    (hbusy : ∀ item job status, w.phase = .closing item job status → ¬ busy job) :
    t.WorkerFits w := by
  have hrunning : ∀ run ∈ s.runs, t.outcome run.2 = .running → s.outcome run.2 = .running := by
    intro run hrun hout
    obtain ⟨⟨r, hr, _⟩, _⟩ := hs.claimed run (hs.ranClaimed run hrun)
    by_contra hend
    rw [hm.outcome_of_ended hr hend] at hout
    exact hend hout
  refine ⟨h.apart, h.own, fun i hi => ?_, fun run hrun hout => ?_, ?_⟩
  · obtain ⟨hstate, hjob, hlost⟩ := h.read i hi
    refine ⟨hm.batch ▸ hstate, hm.claims ▸ hjob, fun hrun hnone => ?_⟩
    exact hm.idle hs (hlost hrun hnone)
  · rw [hm.runs] at hrun
    exact h.ahead run hrun (hrunning run hrun hout)
  · have hphase := h.phase
    cases hw : w.phase with
    | reading =>
      rw [hw] at hphase
      intro run hrun hout
      rw [hm.runs] at hrun
      exact hphase run hrun (hrunning run hrun hout)
    | next => trivial
    | cancelling item => trivial
    | starting item =>
      rw [hw] at hphase
      exact hm.idle hs hphase
    | claiming item job =>
      rw [hw] at hphase
      obtain ⟨hidle, hfresh, r, hr, hkind⟩ := hphase
      obtain ⟨r', hr', hb⟩ := hm.ran job r hr
      exact ⟨hm.idle hs hidle, hm.claims ▸ hfresh, r', hr', hb.kind.trans hkind⟩
    | failing item error =>
      rw [hw] at hphase
      exact hm.idle hs hphase
    | entering item job =>
      rw [hw] at hphase
      exact hm.works hphase
    | running item job =>
      rw [hw] at hphase
      exact hm.works hphase
    | observing item job =>
      rw [hw] at hphase
      exact hm.works hphase
    | closing item job status =>
      rw [hw] at hphase
      obtain ⟨⟨r, hr, _⟩, _⟩ := hs.claimed _ hphase.1.1
      exact ⟨hm.works hphase.1, hphase.2.moves hm hr (hbusy item job status hw)⟩

/-! ### Steps on the items -/

theorem ItemFits.withBatch {s : BatchTables} {i : BatchItem} (h : s.ItemFits i) (b : JobBatch) :
    ItemFits { s with batch := b } i :=
  ⟨h.queued, h.running, fun hc job hj => ⟨(h.closed hc job hj).state, (h.closed hc job hj).final⟩,
    h.unclaimed⟩

theorem JobsFit.withBatch {s : BatchTables} (h : s.JobsFit) (b : JobBatch) :
    JobsFit { s with batch := b } :=
  ⟨h.nodup, h.below, h.ended, h.staged, h.applied⟩

/-- A change of the items that keeps their positions. -/
theorem BatchFits.withItems {s : BatchTables} (hs : s.BatchFits) {b : JobBatch}
    {g : BatchItem → BatchItem} (hb : b.items = s.batch.items.map g)
    (hg : ∀ i, (g i).position = i.position) (hitems : ∀ i ∈ s.batch.items, s.ItemFits (g i))
    (hflag : FlagFits b) : BatchFits { s with batch := b } := by
  have hpositions : b.items.map BatchItem.position = s.batch.items.map BatchItem.position := by
    rw [hb, List.map_map]
    exact List.map_congr_left fun i _ => hg i
  refine ⟨hs.jobs.withBatch b, ?_, hs.claimedOnce, hs.jobsOnce, fun c hc => ?_, fun i hi => ?_,
    hs.ranOnce, hs.ranClaimed, hflag⟩
  · show (b.items.map _).Nodup
    rw [hpositions]
    exact hs.positions
  · obtain ⟨hknown, i, hi, hpos⟩ := hs.claimed c hc
    refine ⟨hknown, g i, ?_, (hg i).trans hpos⟩
    show g i ∈ b.items
    rw [hb]
    exact List.mem_map_of_mem hi
  · have hmem : i ∈ b.items := hi
    rw [hb] at hmem
    obtain ⟨d, hd, rfl⟩ := List.mem_map.mp hmem
    exact (hitems d hd).withBatch b

theorem conclude_items (final : BatchState) (b : JobBatch) :
    (b.conclude final).items = b.items := by
  rw [JobBatch.conclude]
  split_ifs <;> rfl

/-- A batch whose last open item is closed ends, and in the state it should. -/
theorem flag_conclude {b : JobBatch} {final : BatchState} {items : List BatchItem}
    (hb : FlagFits b)
    (hclose : JobBatch.hasOpen { b with items := items } = true → b.hasOpen = true)
    (hfinal : b.state = .running → JobBatch.hasOpen { b with items := items } = false →
      final ≠ .running ∧ (final = .cancelled ↔ b.cancelRequested = true)) :
    FlagFits (JobBatch.conclude final { b with items := items }) := by
  rw [JobBatch.conclude]
  by_cases hopen : JobBatch.hasOpen { b with items := items } = true
  · rw [if_neg (by simp [hopen])]
    exact ⟨⟨fun _ => hopen, fun _ => hb.openBatch.mpr (hclose hopen)⟩, hb.ended⟩
  rw [Bool.not_eq_true] at hopen
  by_cases hrun : b.state = .running
  · rw [if_pos ⟨hopen, hrun⟩]
    obtain ⟨hne, hiff⟩ := hfinal hrun hopen
    refine ⟨⟨fun h => absurd h hne, fun h => ?_⟩, fun _ => hiff⟩
    have hopen' : JobBatch.hasOpen { b with items := items } = true := h
    rw [hopen] at hopen'
    cases hopen'
  · rw [if_neg fun h => hrun h.2]
    refine ⟨⟨fun h => absurd h hrun, fun h => ?_⟩, hb.ended⟩
    have hopen' : JobBatch.hasOpen { b with items := items } = true := h
    rw [hopen] at hopen'
    cases hopen'

/-- An item that is not open before a change is not open after it, if the change only closes. -/
theorem hasOpen_of_map {b : JobBatch} {g : BatchItem → BatchItem}
    (hg : ∀ i, (g i).state.isOpen = true → i.state.isOpen = true)
    (h : JobBatch.hasOpen { b with items := b.items.map g } = true) : b.hasOpen = true := by
  obtain ⟨i', hi', hopen⟩ := List.any_eq_true.mp h
  obtain ⟨i, hi, rfl⟩ := List.mem_map.mp hi'
  exact List.any_eq_true.mpr ⟨i, hi, hg i hopen⟩

theorem isOpen_iff {state : ItemState} :
    state.isOpen = true ↔ state = .queued ∨ state = .running := by
  cases state <;> decide

/-- An item that is closed with the state of its job. -/
theorem itemFits_of_closed {s : BatchTables} {i : BatchItem} (hclosed : i.state.isOpen = false)
    (hrec : ∀ job, (i.position, job) ∈ s.claims → s.Recorded i.state job)
    (hfree : (∀ job, (i.position, job) ∉ s.claims) → i.state ≠ .done) : s.ItemFits i := by
  have hne : i.state ≠ .queued ∧ i.state ≠ .running := by
    constructor <;>
    · intro h
      rw [h] at hclosed
      cases hclosed
  exact ⟨fun h => absurd h hne.1, fun h => absurd h hne.2, fun _ => hrec,
    fun h => ⟨hne.2, hfree h⟩⟩

/-- `job_batch_item_finish`, with the state of the item's job. -/
theorem BatchFits.finishItem {s : BatchTables} (hs : s.BatchFits) {position : Nat}
    {state : ItemState} (error : Option String) (hclosed : state.isOpen = false)
    (hrec : ∀ job, (position, job) ∈ s.claims → s.Recorded state job)
    (hfree : (∀ job, (position, job) ∉ s.claims) → state ≠ .done) :
    (s.finishItem position state error).BatchFits := by
  refine hs.withItems (conclude_items _ _) (fun i => ?_) (fun i hi => ?_) ?_
  · split_ifs <;> rfl
  · split_ifs with hthis
    · have hpos : i.position = position := of_decide_eq_true (Bool.and_eq_true_iff.mp hthis).1
      exact itemFits_of_closed hclosed (hpos ▸ hrec) (hpos ▸ hfree)
    · exact hs.items i hi
  · refine flag_conclude hs.flag (hasOpen_of_map fun i hi => ?_) fun _ _ => ?_
    · split_ifs at hi with hthis
      · exact (Bool.and_eq_true_iff.mp hthis).2
      · exact hi
    · cases s.batch.cancelRequested <;> decide

/-- The thread goes on after an item is closed. -/
theorem WorkerFits.finishItem {s : BatchTables} {w : BatchWorker} (h : s.WorkerFits w)
    {item : BatchItem} (hitem : w.phase.item = some item) (state : ItemState)
    (error : Option String) :
    (s.finishItem item.position state error).WorkerFits ⟨w.rest, .next⟩ := by
  refine ⟨h.apart, fun i hi => ?_, fun i hi => ?_, fun run hrun hout =>
    ⟨(h.ahead run hrun hout).1, fun i hi => ?_⟩, trivial⟩
  · cases hi
  · obtain ⟨⟨d, hd, hpos, hstate⟩, hjob, hlost⟩ := h.read i hi
    refine ⟨⟨d, ?_, hpos, hstate⟩, hjob, hlost⟩
    have hne : ¬ d.position = item.position := by
      intro heq
      refine h.own item hitem ?_
      rw [← heq, hpos]
      exact List.mem_map_of_mem hi
    rw [BatchTables.finishItem, jobBatchItemFinish, conclude_items]
    refine List.mem_map.mpr ⟨d, hd, if_neg ?_⟩
    simp [hne]
  · cases hi

/-- `job_batch_recover`, where it finds no job that was cancelled, and no last item of a batch that
is to be cancelled. -/
theorem BatchFits.recover {s : BatchTables} (hs : s.BatchFits)
    (hspares : ∀ i ∈ s.batch.items, isRecovered s.store i = true →
      recoveredStatus s.store i = .ok ∨ s.failedJob i.position)
    (hlast : s.batch.cancelRequested = true → s.batch.state = .running →
      ∃ i ∈ s.batch.items, i.state.isOpen = true ∧ isRecovered s.store i = false) :
    BatchFits { s with batch := jobBatchRecover s.store s.batch } := by
  have hrecovered : ∀ i, isRecovered s.store i = true → i.state = .running ∧
      recoveredStatus s.store i ≠ .running := fun i h => of_decide_eq_true h
  refine hs.withItems (conclude_items _ _) (fun i => ?_) (fun i hi => ?_) ?_
  · split_ifs <;> rfl
  · split_ifs with hthis
    · obtain ⟨hrun, hended⟩ := hrecovered i hthis
      obtain ⟨job, hjob, hid⟩ := (hs.items i hi).running hrun
      obtain ⟨⟨r, hr, _⟩, _⟩ := hs.claimed _ hjob
      have hclosed : (recoveredItem s.store i).state.isOpen = false := by
        rw [recoveredItem]
        split_ifs <;> rfl
      -- The row that is found is that of the item's job; if none is found, the job has ended.
      have hstatus : recoveredStatus s.store i = s.outcome job ∨ s.outcome job ≠ .running ∧
          recoveredStatus s.store i = .stale := by
        rw [recoveredStatus]
        rcases hid with hid | ⟨hid, hend⟩
        · rw [hid, Option.bind_some]
          cases hrow : s.store.job job with
          | none => exact Or.inr ⟨hs.jobs.ended_of_missing hrow, rfl⟩
          | some row => exact Or.inl (outcome_of_ran (ran_of_job hrow)).symm
        · rw [hid]
          exact Or.inr ⟨hend, rfl⟩
      have hout : s.outcome job ≠ .running := by
        rcases hstatus with heq | h
        · exact heq ▸ hended
        · exact h.1
      have hstate : (recoveredItem s.store i).state = itemState (s.outcome job) := by
        show (if recoveredStatus s.store i = .ok then ItemState.done else .failed) = _
        rcases hspares i hi hthis with hok | hfailed
        · rw [if_pos hok]
          rcases hstatus with heq | h
          · rw [← heq, hok]
            rfl
          · rw [hok] at h
            cases h.2
        · obtain ⟨hnotOk, hnotCancelled⟩ := hfailed job hjob
          have hne : recoveredStatus s.store i ≠ .ok := by
            rcases hstatus with heq | h
            · rw [heq]
              exact hnotOk
            · rw [h.2]
              simp
          rw [if_neg hne, itemState, if_neg hnotOk, if_neg hnotCancelled]
      refine itemFits_of_closed hclosed (fun job' hjob' => ?_) fun hfree => absurd hjob (hfree job)
      obtain rfl := hs.job_unique hjob hjob'
      exact ⟨hstate, fun h => absurd h hout⟩
    · exact hs.items i hi
  · refine flag_conclude hs.flag (hasOpen_of_map fun i hi => ?_) fun hrun hnone => ?_
    · split_ifs at hi with hthis
      · exact isOpen_iff.mpr (Or.inr (hrecovered i hthis).1)
      · exact hi
    · refine ⟨by simp, fun h => (by cases h), fun hcancel => ?_⟩
      obtain ⟨i, hi, hopen, hkept⟩ := hlast hcancel hrun
      have hstill : JobBatch.hasOpen { s.batch with
          items := Tables.updateWhere (isRecovered s.store) (recoveredItem s.store) s.batch.items }
            = true := by
        refine List.any_eq_true.mpr ⟨i, List.mem_map.mpr ⟨i, hi, if_neg ?_⟩, hopen⟩
        simp [hkept]
      rw [hnone] at hstill
      cases hstill

/-- A cancel request only leaves a mark, and only while the batch is running. -/
theorem jobBatchRequestCancel_items (b : JobBatch) :
    (jobBatchRequestCancel b).items = b.items := by
  rw [jobBatchRequestCancel]
  split_ifs <;> rfl

theorem BatchFits.requestCancel {s : BatchTables} (hs : s.BatchFits) :
    BatchFits { s with batch := jobBatchRequestCancel s.batch } := by
  refine hs.withItems ((jobBatchRequestCancel_items _).trans (List.map_id _).symm) (fun _ => rfl)
    hs.items ?_
  rw [jobBatchRequestCancel]
  split_ifs with hrun
  · exact ⟨hs.flag.openBatch, fun h => absurd hrun h⟩
  · exact hs.flag

/-- The item that a claim finds, if it finds one. -/
theorem queued_of_claimed {b : JobBatch} {position job : Nat}
    (h : (jobBatchItemStart position job b).1 = true) :
    ∃ d ∈ b.items, d.position = position ∧ d.state = .queued := by
  obtain ⟨d, hd, hthis⟩ := List.any_eq_true.mp h
  exact ⟨d, hd, of_decide_eq_true hthis⟩

/-- `job_batch_item_start`, with a job that no item has. -/
theorem BatchFits.claimItem {s : BatchTables} (hs : s.BatchFits) {position job : Nat}
    (hclaimed : (jobBatchItemStart position job s.batch).1 = true)
    (hfresh : job ∉ s.claims.map Prod.snd) (hknown : ∃ r, s.ran job = some r ∧ r.kind = "backup") :
    (s.claimItem position job).BatchFits ∧ (s.claimItem position job).Works position job := by
  obtain ⟨d, hd, hpos, hqueued⟩ := queued_of_claimed hclaimed
  have hnone : ∀ job', (position, job') ∉ s.claims := hpos ▸ (hs.items d hd).queued hqueued
  have hclaims : ∀ {c}, c ∈ (s.claimItem position job).claims ↔
      c ∈ s.claims ∨ c = (position, job) := by
    intro c
    rw [BatchTables.claimItem, List.mem_append, List.mem_singleton]
  let g : BatchItem → BatchItem := fun i =>
    if decide (i.position = position ∧ i.state = .queued) then
      { i with
        state := .running
        jobId := some job } else i
  have hg : ∀ i, (g i).position = i.position := by
    intro i
    simp only [g]
    split_ifs <;> rfl
  have hgd : g d = { d with
      state := .running
      jobId := some job } := if_pos (decide_eq_true ⟨hpos, hqueued⟩)
  have hgother : ∀ i, ¬ i.position = position → g i = i := fun i hne =>
    if_neg fun h => hne (of_decide_eq_true h).1
  have hitems : (s.claimItem position job).batch.items = s.batch.items.map g := rfl
  have hd' : g d ∈ (s.claimItem position job).batch.items := List.mem_map_of_mem hd
  have hopen : ∀ i, (g i).state.isOpen = i.state.isOpen := by
    intro i
    simp only [g]
    split_ifs with hthis
    · rw [(of_decide_eq_true hthis).2]
      rfl
    · rfl
  have hnodup : ∀ {α : Type} (f : Nat × Nat → α), (s.claims.map f).Nodup →
      f (position, job) ∉ s.claims.map f → (((s.claimItem position job).claims).map f).Nodup := by
    intro α f hold hnew
    rw [BatchTables.claimItem, List.map_append]
    exact List.Nodup.append hold (List.nodup_singleton _) (by simpa using hnew)
  refine ⟨⟨⟨hs.jobs.nodup, hs.jobs.below, hs.jobs.ended, hs.jobs.staged, hs.jobs.applied⟩, ?_,
    hnodup _ hs.claimedOnce fun h => ?_, hnodup _ hs.jobsOnce hfresh, fun c hc => ?_,
    fun i' hi' => ?_, hs.ranOnce, fun run hrun => hclaims.mpr (Or.inl (hs.ranClaimed run hrun)),
    ?_⟩, hclaims.mpr (Or.inr rfl), g d, hd', (hg d).trans hpos, by rw [hgd]⟩
  · rw [hitems, List.map_map]
    exact (List.map_congr_left fun i _ => hg i).symm ▸ hs.positions
  · obtain ⟨c, hc, heq⟩ := List.mem_map.mp h
    have hpair : c = (position, c.2) := Prod.ext heq rfl
    exact hnone c.2 (hpair ▸ hc)
  · rcases hclaims.mp hc with hc | rfl
    · obtain ⟨hold, i, hi, hipos⟩ := hs.claimed c hc
      exact ⟨hold, g i, List.mem_map_of_mem hi, (hg i).trans hipos⟩
    · exact ⟨hknown, g d, hd', (hg d).trans hpos⟩
  · rw [hitems] at hi'
    obtain ⟨i, hi, rfl⟩ := List.mem_map.mp hi'
    by_cases hthis : i.position = position
    · obtain rfl := hs.item_unique hi hd (hthis.trans hpos.symm)
      rw [hgd]
      refine ⟨fun h => (by cases h), fun _ => ⟨job, hclaims.mpr (Or.inr ?_), Or.inl rfl⟩,
        fun h => (by cases h), fun h => absurd (hclaims.mpr (Or.inr ?_)) (h job)⟩
      · exact congrArg (·, job) hthis
      · exact congrArg (·, job) hthis
    · rw [hgother i hthis]
      have hsame : ∀ {job'}, (i.position, job') ∈ (s.claimItem position job).claims ↔
          (i.position, job') ∈ s.claims := by
        intro job'
        rw [hclaims]
        exact or_iff_left fun h => hthis (congrArg Prod.fst h)
      have hfits := hs.items i hi
      refine ⟨fun h job' hjob' => hfits.queued h job' (hsame.mp hjob'), fun h => ?_,
        fun h job' hjob' => ?_, fun h => hfits.unclaimed fun job' hjob' => h job' (hsame.mpr hjob')⟩
      · obtain ⟨job', hjob', hid⟩ := hfits.running h
        exact ⟨job', hsame.mpr hjob', hid⟩
      · have hrec := hfits.closed h job' (hsame.mp hjob')
        exact ⟨hrec.state, hrec.final⟩
  · have hany : JobBatch.hasOpen (s.claimItem position job).batch = s.batch.hasOpen := by
      rw [JobBatch.hasOpen, hitems, List.any_map]
      exact congrArg (s.batch.items.any ·) (funext hopen)
    exact ⟨hany ▸ hs.flag.openBatch, hs.flag.ended⟩

/-- A deletion of jobs that have ended. -/
theorem BatchFits.delete {s : BatchTables} (hs : s.BatchFits) (p : Job → Bool) :
    (s.delete p).BatchFits := by
  obtain ⟨hjobs, hran, hintents⟩ := delete_fits hs.jobs p
  have hout : ∀ job, (s.delete p).outcome job = s.outcome job := fun job => by
    rw [outcome, outcome, hran]
  let gone := (s.store.jobs.filter fun j => j.status ≠ .running && p j).map Job.id
  let g : BatchItem → BatchItem := fun i =>
    if i.jobId.any gone.contains then { i with jobId := none } else i
  have hg : ∀ i, (g i).position = i.position ∧ (g i).state = i.state := by
    intro i
    simp only [g]
    split_ifs <;> exact ⟨rfl, rfl⟩
  have hgone : ∀ job ∈ gone, s.outcome job ≠ .running := by
    intro job hjob
    obtain ⟨r, hr, rfl⟩ := List.mem_map.mp hjob
    obtain ⟨hr, hthis⟩ := List.mem_filter.mp hr
    rw [outcome_of_ran (hs.jobs.ran_of_mem (List.mem_append_left _ hr))]
    exact of_decide_eq_true (Bool.and_eq_true_iff.mp hthis).1
  have hitems : (s.delete p).batch.items = s.batch.items.map g := rfl
  refine ⟨hjobs, ?_, hs.claimedOnce, hs.jobsOnce, fun c hc => ?_, fun i' hi' => ?_, hs.ranOnce,
    hs.ranClaimed, ?_⟩
  · rw [hitems, List.map_map]
    exact (List.map_congr_left fun i _ => (hg i).1).symm ▸ hs.positions
  · obtain ⟨⟨r, hr, hkind⟩, i, hi, hpos⟩ := hs.claimed c hc
    exact ⟨⟨r, (hran _).trans hr, hkind⟩, g i, List.mem_map_of_mem hi, (hg i).1.trans hpos⟩
  · rw [hitems] at hi'
    obtain ⟨i, hi, rfl⟩ := List.mem_map.mp hi'
    have hfits := hs.items i hi
    obtain ⟨hpos, hstate⟩ := hg i
    refine ⟨fun h => ?_, fun h => ?_, fun h job hjob => ?_, fun h => ?_⟩
    · rw [hpos]
      exact hfits.queued (hstate ▸ h)
    · obtain ⟨job, hjob, hid⟩ := hfits.running (hstate ▸ h)
      refine ⟨job, hpos ▸ hjob, ?_⟩
      rw [hout]
      by_cases hlost : i.jobId.any gone.contains = true
      · refine Or.inr ⟨(congrArg BatchItem.jobId (if_pos hlost)).trans rfl, ?_⟩
        rcases hid with hid | hid
        · rw [hid] at hlost
          exact hgone job (List.contains_iff_mem.mp hlost)
        · exact hid.2
      · rw [show (g i).jobId = i.jobId from congrArg BatchItem.jobId (if_neg hlost)]
        exact hid
    · have hrec := hfits.closed (hstate ▸ h) job (hpos ▸ hjob)
      refine ⟨?_, fun hrun hintent => ?_⟩
      · rw [hstate, hout]
        exact hrec.state
      · rw [hout] at hrun
        exact hrec.final hrun (hintents job hintent)
    · rw [hstate]
      exact hfits.unclaimed (hpos ▸ h)
  · have hany : JobBatch.hasOpen (s.delete p).batch = s.batch.hasOpen := by
      rw [JobBatch.hasOpen, hitems, List.any_map]
      exact congrArg (s.batch.items.any ·) (funext fun i => congrArg ItemState.isOpen (hg i).2)
    exact ⟨hany ▸ hs.flag.openBatch, hs.flag.ended⟩

/-! ### The thread -/

theorem WorkerFits.delete {s : BatchTables} {w : BatchWorker} (h : s.WorkerFits w)
    (hs : s.BatchFits) (p : Job → Bool) : (s.delete p).WorkerFits w := by
  obtain ⟨_, hran, hintents⟩ := delete_fits hs.jobs p
  have hout : ∀ job, (s.delete p).outcome job = s.outcome job := fun job => by
    rw [outcome, outcome, hran]
  have hidle : ∀ {position}, s.Idle position → (s.delete p).Idle position := by
    intro position hi job hjob
    rw [hout]
    exact hi job hjob
  have hstate : ∀ {position state}, (∃ d ∈ s.batch.items, d.position = position ∧ d.state = state) →
      ∃ d ∈ (s.delete p).batch.items, d.position = position ∧ d.state = state := by
    rintro position state ⟨d, hd, hpos, hst⟩
    refine ⟨_, List.mem_map_of_mem hd, ?_⟩
    split_ifs <;> exact ⟨hpos, hst⟩
  have hworks : ∀ {position job}, s.Works position job → (s.delete p).Works position job :=
    fun hw => ⟨hw.1, hstate hw.2⟩
  refine ⟨h.apart, h.own, fun i hi => ?_, fun run hrun hr => ?_, ?_⟩
  · obtain ⟨hst, hjob, hlost⟩ := h.read i hi
    exact ⟨hstate hst, hjob, fun hrun hnone => hidle (hlost hrun hnone)⟩
  · rw [hout] at hr
    exact h.ahead run hrun hr
  · have hphase := h.phase
    cases hw : w.phase with
    | reading =>
      rw [hw] at hphase
      intro run hrun
      rw [hout]
      exact hphase run hrun
    | next => trivial
    | cancelling item => trivial
    | starting item =>
      rw [hw] at hphase
      exact hidle hphase
    | claiming item job =>
      rw [hw] at hphase
      obtain ⟨hi, hfresh, r, hr, hkind⟩ := hphase
      exact ⟨hidle hi, hfresh, r, (hran job).trans hr, hkind⟩
    | failing item error =>
      rw [hw] at hphase
      exact hidle hphase
    | entering item job =>
      rw [hw] at hphase
      exact hworks hphase
    | running item job =>
      rw [hw] at hphase
      exact hworks hphase
    | observing item job =>
      rw [hw] at hphase
      exact hworks hphase
    | closing item job status =>
      rw [hw] at hphase
      refine ⟨hworks hphase.1, ?_, fun hrun hintent => ?_⟩
      · rw [hout]
        exact hphase.2.state
      · rw [hout] at hrun
        exact hphase.2.final hrun (hintents job hintent)

/-- After the jobs of the scope were marked no job of the scope is running. -/
theorem ended_of_markStale {s : BatchTables} (hs : s.JobsFit) {job : Nat} {r : Job}
    (hr : s.ran job = some r) (hkind : r.kind = "backup") (reason : String) (now : Time) :
    BatchTables.outcome { s with
      store := jobsMarkAllRunningStale backupScopeKinds reason now s.store } job ≠ .running := by
  have hm := moves_markStale hs (fun _ => False) backupScopeKinds reason now
  obtain ⟨r', hr', hb⟩ := hm.ran job r hr
  rw [outcome_of_ran hr']
  rcases List.mem_append.mp (mem_of_ran hr').1 with hmem | hmem
  · obtain ⟨_, _, hjobs⟩ := markStaleWhere_jobs (ofKinds backupScopeKinds) reason
      (jsonDumpsBounded (staleSummary reason now) maxJobSummaryBytes) now s.store
    have hmem : r' ∈ (markStaleWhere (ofKinds backupScopeKinds) reason
      (jsonDumpsBounded (staleSummary reason now) maxJobSummaryBytes) now s.store).jobs := hmem
    rw [hjobs] at hmem
    obtain ⟨row, _, rfl⟩ := List.mem_map.mp hmem
    split_ifs with hthis
    · simp
    · rw [if_neg hthis] at hb
      have hbackup : ofKinds backupScopeKinds row = true := by
        have hscope : (((backupScopeKinds.map strip).filter (· ≠ "")).isEmpty
          || ((backupScopeKinds.map strip).filter (· ≠ "")).contains "backup") = true := by decide
        rw [ofKinds, hb.kind.trans hkind]
        exact hscope
      intro hrun
      exact hthis (Bool.and_eq_true_iff.mpr ⟨decide_eq_true hrun, hbackup⟩)
  · exact hs.ended r' hmem

theorem ended_of_resume {s : BatchTables} (hs : s.BatchFits) (reason : String) (now : Time) :
    ∀ c ∈ s.claims, BatchTables.outcome { s with
      store := jobsMarkAllRunningStale backupScopeKinds reason now s.store } c.2 ≠ .running := by
  intro c hc
  obtain ⟨⟨r, hr, hkind⟩, _⟩ := hs.claimed c hc
  exact ended_of_markStale hs.jobs hr hkind reason now

/-- A thread that begins, when no job of an item that was run goes on. -/
theorem workerFits_reading {s : BatchTables} (h : ∀ run ∈ s.runs, s.outcome run.2 ≠ .running) :
    s.WorkerFits ⟨[], .reading⟩ :=
  ⟨List.nodup_nil, fun _ h => (by cases h), fun _ h => (by cases h),
    fun run hrun hout => absurd hout (h run hrun), h⟩

theorem positions_queuedItems (specs : List BatchSpec) (position : Nat) :
    (queuedItems position specs).map BatchItem.position = List.range' position specs.length := by
  induction specs generalizing position with
  | nil => rfl
  | cons spec specs ih =>
    rw [queuedItems, List.map_cons, ih, List.length_cons, List.range'_succ]

theorem state_of_queuedItems {specs : List BatchSpec} {position : Nat} {i : BatchItem}
    (h : i ∈ queuedItems position specs) : i.state = .queued ∧ position ≤ i.position := by
  induction specs generalizing position with
  | nil => cases h
  | cons spec specs ih =>
    rcases List.mem_cons.mp h with rfl | h
    · exact ⟨rfl, le_rfl⟩
    · obtain ⟨hstate, hle⟩ := ih h
      exact ⟨hstate, by omega⟩

/-- A new batch, with a first job that is there. -/
theorem BatchFits.create {s : BatchTables} (hs : s.BatchFits) (hnone : s.batch.items = [])
    {specs : List BatchSpec} {firstJobId : Nat} {b : JobBatch}
    (hcreate : jobBatchCreate specs firstJobId = .ok b)
    (hknown : ∃ r, s.ran firstJobId = some r ∧ r.kind = "backup") :
    BatchFits { s with
      batch := b
      claims := s.claims ++ [(0, firstJobId)] } ∧ s.runs = [] := by
  have hclaims : s.claims = [] := by
    refine List.eq_nil_iff_forall_not_mem.mpr fun c hc => ?_
    obtain ⟨_, i, hi, _⟩ := hs.claimed c hc
    rw [hnone] at hi
    cases hi
  have hruns : s.runs = [] := by
    refine List.eq_nil_iff_forall_not_mem.mpr fun run hrun => ?_
    have hclaim := hs.ranClaimed run hrun
    rw [hclaims] at hclaim
    cases hclaim
  refine ⟨?_, hruns⟩
  cases specs with
  | nil => cases hcreate
  | cons spec specs =>
    obtain rfl := Except.ok.inj hcreate
    rw [hclaims, List.nil_append]
    refine ⟨⟨hs.jobs.nodup, hs.jobs.below, hs.jobs.ended, hs.jobs.staged, hs.jobs.applied⟩, ?_,
      List.nodup_singleton _, List.nodup_singleton _, fun c hc => ?_, fun i hi => ?_, hs.ranOnce,
      fun run hrun => ?_, ?_⟩
    · show (0 :: (queuedItems 1 specs).map BatchItem.position).Nodup
      rw [positions_queuedItems]
      refine List.nodup_cons.mpr ⟨fun h => ?_, List.nodup_range'⟩
      have hle := (List.mem_range'_1.mp h).1
      omega
    · obtain rfl := List.mem_singleton.mp hc
      exact ⟨hknown, _, List.mem_cons_self, rfl⟩
    · rcases List.mem_cons.mp hi with rfl | hi
      · exact ⟨fun h => (by cases h), fun _ => ⟨firstJobId, List.mem_singleton.mpr rfl, Or.inl rfl⟩,
          fun h => (by cases h), fun h => absurd (List.mem_singleton.mpr rfl) (h firstJobId)⟩
      · obtain ⟨hqueued, hle⟩ := state_of_queuedItems hi
        refine ⟨fun _ job hjob => ?_, fun h => ?_, fun h => ?_, fun _ => ?_⟩
        · have hzero : i.position = 0 := congrArg Prod.fst (List.mem_singleton.mp hjob)
          omega
        · rw [hqueued] at h
          cases h
        · rw [hqueued] at h
          cases h
        · rw [hqueued]
          simp
    · rw [hruns] at hrun
      cases hrun
    · exact ⟨⟨fun _ => rfl, fun _ => rfl⟩, fun h => absurd rfl h⟩

theorem WorkerFits.requestCancel {s : BatchTables} {w : BatchWorker} (h : s.WorkerFits w) :
    WorkerFits { s with batch := jobBatchRequestCancel s.batch } w := by
  have hworks : ∀ {position job}, s.Works position job →
      Works { s with batch := jobBatchRequestCancel s.batch } position job := by
    intro position job hw
    rw [Works, jobBatchRequestCancel_items]
    exact hw
  refine ⟨h.apart, h.own, fun i hi => ⟨?_, (h.read i hi).job, (h.read i hi).lost⟩, h.ahead, ?_⟩
  · rw [jobBatchRequestCancel_items]
    exact (h.read i hi).state
  · have hphase := h.phase
    cases hw : w.phase <;> rw [hw] at hphase
    case entering => exact hworks hphase
    case running => exact hworks hphase
    case observing => exact hworks hphase
    case closing => exact ⟨hworks hphase.1, hphase.2.state, hphase.2.final⟩
    all_goals exact hphase

/-- The thread goes to another place with the item it has, or with none. -/
theorem WorkerFits.goOn {s : BatchTables} {w : BatchWorker} (h : s.WorkerFits w)
    {phase : BatchPhase} (hitem : ∀ i, phase.item = some i → w.phase.item = some i)
    (henter : ∀ i, phase.toEnter = some i → w.phase.toEnter = some i) (hphase : s.PhaseFits phase) :
    s.WorkerFits ⟨w.rest, phase⟩ :=
  ⟨h.apart, fun i hi => h.own i (hitem i hi), h.read, fun run hrun hout =>
    ⟨(h.ahead run hrun hout).1, fun i hi => (h.ahead run hrun hout).2 i (henter i hi)⟩, hphase⟩

/-- The thread reads the items. -/
theorem BatchFits.readItems {s : BatchTables} (hs : s.BatchFits)
    (h : ∀ run ∈ s.runs, s.outcome run.2 ≠ .running) : s.WorkerFits ⟨s.batch.items, .next⟩ := by
  refine ⟨hs.positions, fun _ h => (by cases h), fun i hi => ?_,
    fun run hrun hout => absurd hout (h run hrun), trivial⟩
  have hfits := hs.items i hi
  refine ⟨⟨i, hi, rfl, rfl⟩, fun hrun job hid => ?_, fun hrun hnone job hjob => ?_⟩
  · obtain ⟨job', hjob', hid' | hid'⟩ := hfits.running hrun
    · rw [hid] at hid'
      exact Option.some.inj hid' ▸ hjob'
    · rw [hid] at hid'
      cases hid'.1
  · obtain ⟨job', hjob', hid' | hid'⟩ := hfits.running hrun
    · rw [hnone] at hid'
      cases hid'
    · exact hs.job_unique hjob' hjob ▸ hid'.2

theorem item_of_toEnter {phase : BatchPhase} {i : BatchItem} (h : phase.toEnter = some i) :
    phase.item = some i := by
  cases phase <;> first | exact h | cases h

/-- The thread takes its next item. -/
theorem WorkerFits.takeItem {s : BatchTables} {item : BatchItem} {rest : List BatchItem}
    (h : s.WorkerFits ⟨item :: rest, .next⟩) {phase : BatchPhase}
    (hitem : ∀ i, phase.item = some i → i = item) (hphase : s.PhaseFits phase) :
    s.WorkerFits ⟨rest, phase⟩ := by
  obtain ⟨hnotMem, hapart⟩ := List.nodup_cons.mp h.apart
  refine ⟨hapart, fun i hi => hitem i hi ▸ hnotMem,
    fun i hi => h.read i (List.mem_cons_of_mem _ hi), fun run hrun hout => ?_, hphase⟩
  have hahead := (h.ahead run hrun hout).1
  refine ⟨fun hmem => hahead (List.mem_cons_of_mem _ hmem), fun i hi heq => hahead ?_⟩
  rw [← heq, hitem i (item_of_toEnter hi)]
  exact List.mem_cons_self

theorem takePhase_fits {s : BatchSystem} (hs : s.tables.BatchFits) {item : BatchItem}
    {rest : List BatchItem} (h : s.tables.WorkerFits ⟨item :: rest, .next⟩) :
    s.tables.WorkerFits ⟨rest, s.takePhase item⟩ := by
  obtain ⟨⟨d, hd, hpos, hstate⟩, hjob, hlost⟩ := h.read item List.mem_cons_self
  rw [BatchSystem.takePhase]
  split_ifs with hclosed hcancel
  · exact h.takeItem (fun _ hi => (by cases hi)) trivial
  · exact h.takeItem (fun _ hi => (Option.some.inj hi).symm) trivial
  rw [Bool.not_eq_false, isOpen_iff] at hclosed
  have hqueued : item.state = .queued → s.tables.Idle item.position := by
    intro hq job hclaim
    rw [← hpos] at hclaim
    exact absurd hclaim ((hs.items d hd).queued (hstate.trans hq) job)
  cases hst : item.state with
  | running =>
    cases hid : item.jobId with
    | none =>
      exact h.takeItem (fun _ hi => (Option.some.inj hi).symm) (hlost hst hid)
    | some job =>
      exact h.takeItem (fun _ hi => (Option.some.inj hi).symm)
        ⟨hjob hst job hid, d, hd, hpos, hstate.trans hst⟩
  | queued =>
    cases item.jobId <;>
    exact h.takeItem (fun _ hi => (Option.some.inj hi).symm) (hqueued hst)
  | done =>
    rw [hst] at hclosed
    rcases hclosed with h | h <;> cases h
  | failed =>
    rw [hst] at hclosed
    rcases hclosed with h | h <;> cases h
  | cancelled =>
    rw [hst] at hclosed
    rcases hclosed with h | h <;> cases h

theorem WorkerFits.claimItem {s : BatchTables} {w : BatchWorker} (h : s.WorkerFits w)
    {item : BatchItem} {job : Nat} (hw : w.phase = .claiming item job)
    (hworks : (s.claimItem item.position job).Works item.position job) :
    (s.claimItem item.position job).WorkerFits ⟨w.rest, .entering item job⟩ := by
  have hitem : w.phase.item = some item := by rw [hw]; rfl
  have henter : w.phase.toEnter = some item := by rw [hw]; rfl
  have hout : ∀ job', (s.claimItem item.position job).outcome job' = s.outcome job' := fun _ => rfl
  refine ⟨h.apart, fun i hi => ?_, fun i hi => ?_, fun run hrun hr => ⟨(h.ahead run hrun hr).1,
    fun i hi => ?_⟩, hworks⟩
  · exact h.own i (hitem.trans hi)
  · have hne : ¬ i.position = item.position := fun heq =>
      h.own item hitem (heq ▸ List.mem_map_of_mem hi)
    obtain ⟨⟨d, hd, hpos, hstate⟩, hjob, hlost⟩ := h.read i hi
    refine ⟨⟨d, List.mem_map.mpr ⟨d, hd, if_neg fun hthis => ?_⟩, hpos, hstate⟩,
      fun hrun job' hid => List.mem_append_left _ (hjob hrun job' hid),
      fun hrun hnone job' hclaim => ?_⟩
    · exact hne (hpos.symm.trans (of_decide_eq_true hthis).1)
    · rcases List.mem_append.mp hclaim with hclaim | hclaim
      · rw [hout]
        exact hlost hrun hnone job' hclaim
      · exact absurd (congrArg Prod.fst (List.mem_singleton.mp hclaim)) hne
  · exact (h.ahead run hrun hr).2 i (henter.trans hi)

/-- The thread begins to work on a job that is running: it has not done so before. -/
theorem BatchFits.enter {s : BatchTables} (hs : s.BatchFits) {w : BatchWorker}
    (h : s.WorkerFits w) {item : BatchItem} {job : Nat} (hw : w.phase = .entering item job)
    (hrun : s.outcome job = .running) :
    BatchFits { s with runs := s.runs ++ [(item.position, job)] } ∧
      WorkerFits { s with runs := s.runs ++ [(item.position, job)] }
        ⟨w.rest, .running item job⟩ := by
  have hitem : w.phase.item = some item := by rw [hw]; rfl
  have henter : w.phase.toEnter = some item := by rw [hw]; rfl
  have hphase := h.phase
  rw [hw] at hphase
  have hworks : s.Works item.position job := hphase
  have hnew : item.position ∉ s.runs.map Prod.fst := by
    intro hmem
    obtain ⟨run, hmem, hpos⟩ := List.mem_map.mp hmem
    have hclaim := hs.ranClaimed run hmem
    have hclaim' : (item.position, run.2) ∈ s.claims := hpos ▸ hclaim
    have hjob : run.2 = job := hs.job_unique hclaim' hworks.1
    exact (h.ahead run hmem (hjob ▸ hrun)).2 item henter hpos.symm
  refine ⟨⟨⟨hs.jobs.nodup, hs.jobs.below, hs.jobs.ended, hs.jobs.staged, hs.jobs.applied⟩,
    hs.positions, hs.claimedOnce, hs.jobsOnce, hs.claimed, fun i hi => ?_, ?_, fun run hrun => ?_,
    hs.flag⟩, h.apart, fun i hi => h.own i (hitem.trans hi), fun i hi => ?_,
    fun run hrun hout => ?_, hworks⟩
  · have hfits := hs.items i hi
    exact ⟨hfits.queued, hfits.running, fun hc job hj =>
      ⟨(hfits.closed hc job hj).state, (hfits.closed hc job hj).final⟩, hfits.unclaimed⟩
  · show ((s.runs ++ [(item.position, job)]).map Prod.fst).Nodup
    rw [List.map_append]
    exact List.Nodup.append hs.ranOnce (List.nodup_singleton _) (by simpa using hnew)
  · rcases List.mem_append.mp hrun with hrun | hrun
    · exact hs.ranClaimed run hrun
    · exact List.mem_singleton.mp hrun ▸ hworks.1
  · have hread := h.read i hi
    exact ⟨hread.state, hread.job, hread.lost⟩
  · refine ⟨?_, fun i hi => (by cases hi)⟩
    rcases List.mem_append.mp hrun with hrun | hrun
    · exact (h.ahead run hrun hout).1
    · rw [List.mem_singleton.mp hrun]
      exact h.own item hitem

/-- What the thread sees of a job that it has worked on, where a job that is gone has not ended
well. -/
theorem recorded_of_observe {s : BatchTables} (hs : s.BatchFits) {position job : Nat}
    (hworks : s.Works position job) (hspares : s.store.job job = none → s.failedJob position)
    (hpending : ¬ (((s.store.job job).map Job.status).getD .stale = .running ∧
      terminalPending s.store job = true)) :
    s.Recorded (itemState (((s.store.job job).map Job.status).getD .stale)) job := by
  cases hrow : s.store.job job with
  | none =>
    obtain ⟨hnotOk, hnotCancelled⟩ := hspares hrow job hworks.1
    refine ⟨?_, fun h => absurd h (hs.jobs.ended_of_missing hrow)⟩
    show ItemState.failed = _
    rw [itemState, if_neg hnotOk, if_neg hnotCancelled]
  | some row =>
    have hout : s.outcome job = row.status := outcome_of_ran (ran_of_job hrow)
    rw [hrow] at hpending
    refine ⟨by rw [hout]; rfl, fun hrun hintent => hpending ⟨hout.symm.trans hrun, ?_⟩⟩
    obtain ⟨i, hi, hid⟩ := hintent
    refine List.any_eq_true.mpr ⟨i, hi, ?_⟩
    rw [Bool.and_eq_true, decide_eq_true_eq, Option.isNone_iff_eq_none]
    refine ⟨hid, ?_⟩
    by_contra happlied
    exact hs.jobs.applied i hi happlied (hid ▸ hrun)

end BatchTables

/-! ### Steps -/

/-- What holds between two steps. -/
structure SystemFits (s : BatchSystem) : Prop where
  tables : s.tables.BatchFits
  worker : ∀ w, s.worker = some w → s.tables.WorkerFits w

open BatchTables

theorem systemFits_init : SystemFits .init := by
  refine ⟨⟨⟨?_, fun _ h => (by cases h), fun _ h => (by cases h), fun _ h => (by cases h),
    fun _ h => (by cases h)⟩, ?_, ?_, ?_, fun _ h => (by cases h), fun _ h => (by cases h), ?_,
    fun _ h => (by cases h), ⟨by decide, fun _ => by decide⟩⟩, fun _ h => (by cases h)⟩ <;>
  exact List.nodup_nil

theorem systemFits_goOn {s : BatchSystem} {tables : BatchTables} {rest : List BatchItem}
    {phase : BatchPhase} (ht : tables.BatchFits) (hw : tables.WorkerFits ⟨rest, phase⟩) :
    SystemFits (s.goOn tables rest phase) :=
  ⟨ht, fun _ hw' => Option.some.inj hw' ▸ hw⟩

/-- A step on the jobs, by the thread or beside it. -/
theorem SystemFits.moves {s : BatchSystem} (hs : SystemFits s) {t : BatchTables}
    {busy : Nat → Prop} (hm : s.tables.Moves t busy)
    (hbusy : ∀ job, busy job → job ∉ s.tables.claims.map Prod.snd ∨
      ∃ w item, s.worker = some w ∧ w.phase = .running item job) :
    SystemFits { s with tables := t } := by
  refine ⟨hs.tables.moves hm fun i hi job hb hjob => ?_, fun w hw =>
    (hs.worker w hw).moves hs.tables hm fun item job status hclosing hb => ?_⟩
  · rcases hbusy job hb with hfree | ⟨w, item, hw, hphase⟩
    · exact absurd (List.mem_map_of_mem hjob) hfree
    -- The job of the thread belongs to a running item, and a job belongs to one item.
    have hfits := (hs.worker w hw).phase
    rw [hphase] at hfits
    obtain ⟨hclaim, d, hd, hpos, hrun⟩ := hfits
    have heq : i = d := by
      refine hs.tables.item_unique hi hd ?_
      rw [hpos]
      exact hs.tables.position_unique hjob hclaim
    rw [heq, hrun]
    rfl
  · rcases hbusy job hb with hfree | ⟨w', item', hw', hphase⟩
    · have hfits := (hs.worker w hw).phase
      rw [hclosing] at hfits
      exact hfree (List.mem_map_of_mem hfits.1.1)
    · obtain rfl := Option.some.inj (hw'.symm.trans hw)
      rw [hphase] at hclosing
      cases hclosing

/-- The thread closes the item it has. -/
theorem SystemFits.finishItem {s : BatchSystem} (hs : SystemFits s) {w : BatchWorker}
    (hw : s.worker = some w) {item : BatchItem} (hitem : w.phase.item = some item)
    {state : ItemState} (error : Option String) (hclosed : state.isOpen = false)
    (hrec : ∀ job, (item.position, job) ∈ s.tables.claims → s.tables.Recorded state job)
    (hfree : (∀ job, (item.position, job) ∉ s.tables.claims) → state ≠ .done) :
    SystemFits (s.goOn (s.tables.finishItem item.position state error) w.rest .next) :=
  systemFits_goOn (hs.tables.finishItem error hclosed hrec hfree)
    ((hs.worker w hw).finishItem hitem state error)

theorem itemState_isOpen (status : JobStatus) : (itemState status).isOpen = false := by
  cases status <;> rfl

/-- **A step of the thread.** -/
theorem SystemFits.work {s t : BatchSystem} (hs : SystemFits s) {w : BatchWorker}
    (hworker : s.worker = some w) {a : ThreadAction} (hspares : SparesBatch s (.thread a))
    (h : s.work w.rest w.phase a = some t) : SystemFits t := by
  obtain ⟨rest, phase⟩ := w
  have hw := hs.worker _ hworker
  have hphase := hw.phase
  cases phase with
  | reading =>
    cases a <;> cases h
    exact systemFits_goOn hs.tables (hs.tables.readItems hphase)
  | next =>
    cases a with
    | take =>
      cases rest with
      | nil =>
        obtain rfl := Option.some.inj h
        exact ⟨hs.tables, fun _ h => (by cases h)⟩
      | cons item rest =>
        obtain rfl := Option.some.inj h
        exact systemFits_goOn hs.tables (takePhase_fits hs.tables hw)
    | _ => cases h
  | cancelling item =>
    cases a <;> cases h
    refine hs.finishItem hworker rfl none rfl (fun job hjob => ?_) fun _ => by simp
    have hcancelled := hspares _ item hworker rfl job hjob
    exact ⟨by rw [hcancelled]; rfl, fun hrun => (by rw [hcancelled] at hrun; cases hrun)⟩
  | starting item =>
    cases a with
    | startJob now =>
      rw [BatchSystem.work] at h
      cases hstart : jobStart item.spec.request now s.tables.store with
      | error e =>
        rw [hstart] at h
        obtain rfl := Option.some.inj h
        exact systemFits_goOn hs.tables (hw.goOn (fun _ h => h) (fun _ h => (by cases h)) hphase)
      | ok result =>
        obtain ⟨job, u⟩ := result
        rw [hstart] at h
        obtain rfl := Option.some.inj h
        obtain ⟨hm, hnone, row, hrow, hkind⟩ := moves_start hs.tables.jobs (fun _ => False) hstart
        have hw' := hw.moves hs.tables hm fun _ _ _ _ h => h
        refine systemFits_goOn (hs.tables.moves hm fun _ _ _ h => h.elim)
          (hw'.goOn (fun _ h => h) (fun _ h => h) ⟨hw'.phase, fun hmem => ?_, row, hrow, hkind⟩)
        obtain ⟨c, hc, heq⟩ := List.mem_map.mp hmem
        obtain ⟨⟨r, hr, _⟩, _⟩ := hs.tables.claimed c hc
        rw [heq, hnone] at hr
        cases hr
    | _ => cases h
  | claiming item job =>
    cases a with
    | claim now =>
      obtain ⟨hidle, hfresh, hknown⟩ := hphase
      rw [BatchSystem.work] at h
      split_ifs at h with hclaimed
      · obtain rfl := Option.some.inj h
        obtain ⟨ht, hworks⟩ := hs.tables.claimItem hclaimed hfresh hknown
        exact systemFits_goOn ht (hw.claimItem rfl hworks)
      · have hm : s.tables.Moves (s.tables.finishJob job .error (some claimLost) now)
            fun _ => False := moves_finishJob hs.tables.jobs (by simp) (Or.inl rfl)
        cases hfin : jobFinish job .error (some claimLost) now s.tables.store with
        | error e =>
          rw [hfin] at h
          obtain rfl := Option.some.inj h
          exact systemFits_goOn hs.tables (hw.goOn (fun _ h => h) (fun _ h => (by cases h)) hidle)
        | ok result =>
          obtain ⟨done, u⟩ := result
          rw [hfin] at h
          obtain rfl := Option.some.inj h
          rw [finishJob, hfin] at hm
          exact systemFits_goOn (hs.tables.moves hm fun _ _ _ h => h.elim)
            ((hw.moves hs.tables hm fun _ _ _ _ h => h).goOn (fun _ h => (by cases h))
              (fun _ h => (by cases h)) trivial)
    | _ => cases h
  | failing item error =>
    cases a <;> cases h
    refine hs.finishItem hworker rfl (some error) rfl (fun job hjob => ?_) fun _ => by simp
    obtain ⟨hnotOk, hnotCancelled⟩ := hspares _ item error hworker rfl job hjob
    refine ⟨?_, fun hrun => absurd hrun (hphase job hjob)⟩
    rw [itemState, if_neg hnotOk, if_neg hnotCancelled]
  | entering item job =>
    cases a with
    | enter =>
      rw [BatchSystem.work] at h
      split_ifs at h with hrun
      · obtain rfl := Option.some.inj h
        obtain ⟨ht, hw'⟩ := hs.tables.enter hw rfl (outcome_of_job hrun)
        exact systemFits_goOn ht hw'
      · obtain rfl := Option.some.inj h
        exact systemFits_goOn hs.tables (hw.goOn (fun _ h => h) (fun _ h => (by cases h)) hphase)
    | _ => cases h
  | running item job =>
    have hbusy : ∀ job', job = job' → job' ∉ s.tables.claims.map Prod.snd ∨
        ∃ w item', s.worker = some w ∧ w.phase = .running item' job' := by
      rintro job' rfl
      exact Or.inr ⟨_, item, hworker, rfl⟩
    cases a with
    | finish status summary now =>
      rw [BatchSystem.work] at h
      split_ifs at h with hstatus
      obtain rfl := Option.some.inj h
      exact hs.moves (moves_finishJob hs.tables.jobs hstatus (Or.inr (Or.inr rfl))) hbusy
    | stage status summary now =>
      obtain rfl := Option.some.inj h
      exact hs.moves (moves_stage hs.tables.jobs rfl status summary now) hbusy
    | leave =>
      obtain rfl := Option.some.inj h
      exact systemFits_goOn hs.tables (hw.goOn (fun _ h => h) (fun _ h => (by cases h)) hphase)
    | _ => cases h
  | observing item job =>
    cases a with
    | observe =>
      rw [BatchSystem.work] at h
      dsimp only at h
      split_ifs at h with hpending
      · obtain rfl := Option.some.inj h
        exact ⟨hs.tables, fun _ h => (by cases h)⟩
      · obtain rfl := Option.some.inj h
        have hrec := recorded_of_observe hs.tables hphase (hspares _ item job hworker rfl) hpending
        exact systemFits_goOn hs.tables
          (hw.goOn (fun _ h => h) (fun _ h => (by cases h)) ⟨hphase, hrec⟩)
    | _ => cases h
  | closing item job status =>
    cases a <;> cases h
    obtain ⟨hworks, hrec⟩ := hphase
    refine hs.finishItem hworker rfl _ (itemState_isOpen status) (fun job' hjob' => ?_)
      fun hfree => absurd hworks.1 (hfree job)
    exact hs.tables.job_unique hworks.1 hjob' ▸ hrec

/-- **A step that spares the batch.** -/
theorem SystemFits.step {s t : BatchSystem} {a : BatchAction} (hs : SystemFits s)
    (h : s.step a = some t) (hspares : SparesBatch s a) : SystemFits t := by
  have hquiet : ∀ {u : BatchTables}, s.tables.Moves u (fun _ => False) →
      SystemFits { s with tables := u } := fun hm => hs.moves hm fun _ h => h.elim
  cases a with
  | thread a =>
    obtain ⟨w, hw, h⟩ := Option.bind_eq_some_iff.mp h
    exact hs.work hw hspares h
  | create specs firstJobId =>
    rw [BatchSystem.step] at h
    split_ifs at h with hguard
    rw [Bool.and_eq_true, Bool.and_eq_true] at hguard
    obtain ⟨⟨hempty, _⟩, hrow⟩ := hguard
    obtain ⟨row, hfind, hkind⟩ := (Option.any_eq_true _ _).mp hrow
    cases hcreate : jobBatchCreate specs firstJobId with
    | error e =>
      rw [hcreate] at h
      cases h
    | ok b =>
      rw [hcreate] at h
      obtain rfl := Option.some.inj h
      obtain ⟨ht, hruns⟩ := hs.tables.create (List.isEmpty_iff.mp hempty) hcreate
        ⟨row, ran_of_job hfind, of_decide_eq_true hkind⟩
      refine systemFits_goOn ht (workerFits_reading fun run hrun => ?_)
      have hrun : run ∈ s.tables.runs := hrun
      rw [hruns] at hrun
      cases hrun
  | stop =>
    obtain rfl := Option.some.inj h
    exact ⟨hs.tables, fun _ h => (by cases h)⟩
  | recover =>
    rw [BatchSystem.step] at h
    split_ifs at h with hnone
    obtain rfl := Option.some.inj h
    refine ⟨hs.tables.recover hspares.1 hspares.2, fun w hw => ?_⟩
    rw [Option.isNone_iff_eq_none.mp hnone] at hw
    cases hw
  | resume keepSignal reason now =>
    rw [BatchSystem.step] at h
    split_ifs at h with hguard
    obtain rfl := Option.some.inj h
    have hm := moves_markStale hs.tables.jobs (fun _ => False) backupScopeKinds reason now
    refine ⟨hs.tables.moves hm fun _ _ _ h => h.elim, fun w hw => ?_⟩
    obtain rfl := Option.some.inj hw
    exact workerFits_reading fun run hrun =>
      ended_of_resume hs.tables reason now run (hs.tables.ranClaimed run hrun)
  | requestCancel =>
    obtain rfl := Option.some.inj h
    exact ⟨hs.tables.requestCancel, fun w hw => (hs.worker w hw).requestCancel⟩
  | signal on =>
    obtain rfl := Option.some.inj h
    exact ⟨hs.tables, hs.worker⟩
  | start request now =>
    obtain rfl := Option.some.inj h
    refine hquiet ?_
    cases hstart : jobStart request now s.tables.store with
    | error e => exact .refl hs.tables.jobs _
    | ok result => exact (moves_start hs.tables.jobs _ hstart).1
  | finish id status summary now =>
    rw [BatchSystem.step] at h
    split_ifs at h with hguard
    obtain rfl := Option.some.inj h
    rcases hguard with rfl | ⟨hstatus, hfree⟩
    · exact hquiet (moves_finishJob hs.tables.jobs (by simp) (Or.inl rfl))
    · have hm : s.tables.Moves (s.tables.finishJob id status summary now) fun job => id = job :=
        moves_finishJob hs.tables.jobs hstatus (Or.inr (Or.inr rfl))
      exact hs.moves hm fun job heq => Or.inl (heq ▸ hfree)
  | applyFinish id now =>
    obtain rfl := Option.some.inj h
    exact hquiet (moves_applyFinish hs.tables.jobs _ id now)
  | applyMark id now =>
    obtain rfl := Option.some.inj h
    exact hquiet (moves_applyMark hs.tables.jobs _ id now)
  | markStale kinds reason now =>
    obtain rfl := Option.some.inj h
    exact hquiet (moves_markStale hs.tables.jobs _ kinds reason now)
  | delete p =>
    obtain rfl := Option.some.inj h
    exact ⟨hs.tables.delete p, fun w hw => (hs.worker w hw).delete hs.tables p⟩

/-! ### Runs -/

/-- What holds between two steps says what the batch says of its jobs. -/
theorem SystemFits.agrees {s : BatchSystem} (hs : SystemFits s) : AgreesWithRun s.tables := by
  have hrec : ∀ i ∈ s.tables.batch.items, ∀ job, (i.position, job) ∈ s.tables.claims →
      i.state.isOpen = false → i.state = itemState (s.tables.outcome job) :=
    fun i hi job hjob hclosed => ((hs.tables.items i hi).closed hclosed job hjob).state
  refine ⟨fun i hi job hjob hclosed => ?_, fun i hi job hjob hclosed => ?_,
    fun i hi job hjob hclosed => ?_, fun i hi => (hs.tables.items i hi).unclaimed, ?_,
    hs.tables.flag.ended, hs.tables.claimedOnce, hs.tables.ranOnce, hs.tables.ranClaimed⟩
  · rw [hrec i hi job hjob hclosed]
    cases s.tables.outcome job <;> decide
  · rw [hrec i hi job hjob hclosed]
    cases s.tables.outcome job <;> decide
  · rw [hrec i hi job hjob hclosed]
    cases s.tables.outcome job <;> decide
  · rw [hs.tables.flag.openBatch]
    exact List.any_eq_true

/-- **A batch agrees with its jobs.**  However often the process stops and is started again, and
whatever happens beside it, while no step closes an item without the end of its job the states of
the items and of the batch are those of a run that nothing interrupts. -/
theorem batch_agrees {s : BatchSystem} {as : List BatchAction}
    (hrun : Run (Restrict (Steps BatchSystem.step) SparesBatch) .init as s) :
    AgreesWithRun s.tables :=
  (hrun.preserves SystemFits (fun _ _ _ hs h => hs.step h.1 h.2) systemFits_init).agrees

/-- A definition without pairs. -/
def bareSpec : BatchSpec := ⟨[], none, none⟩

/-- The first job of two ends, and the process stops before the end of its item. -/
def stoppedRun : List BatchAction :=
  [.start bareSpec.request 1, .create [bareSpec, bareSpec] 1, .thread .read, .thread .take,
    .thread .enter, .thread (.finish .ok none 2), .stop]

def stoppedState : BatchSystem :=
  (runAll BatchSystem.step .init stoppedRun).getD .init

theorem batch_agrees_after_stop : ∃ s, stoppedState.step .recover = some s ∧
    s.tables.batch.items.map BatchItem.state = [.done, .queued] ∧ AgreesWithRun s.tables := by
  have hstop : Run (Steps BatchSystem.step) .init stoppedRun stoppedState :=
    run_of_runAll rfl
  have hspares : SparesBatch stoppedState .recover := by
    refine ⟨fun i hi hthis => Or.inl ?_, fun hcancel => ?_⟩
    · have hitems : i ∈ stoppedState.tables.batch.items := hi
      rcases List.mem_cons.mp hitems with rfl | hi
      · rfl
      · obtain rfl := List.mem_singleton.mp hi
        cases hthis
    · cases hcancel
  let t := (stoppedState.step .recover).getD .init
  have hrecover : Restrict (Steps BatchSystem.step) SparesBatch stoppedState .recover t :=
    ⟨rfl, hspares⟩
  have hbefore : ∀ a ∈ stoppedRun, ∀ u, SparesBatch u a := by
    intro a ha u
    simp only [stoppedRun, List.mem_cons, List.not_mem_nil, or_false] at ha
    rcases ha with rfl | rfl | rfl | rfl | rfl | rfl | rfl <;> trivial
  exact ⟨t, rfl, rfl, batch_agrees ((hstop.restrict hbefore).append (.cons hrecover (.nil t)))⟩

/-- After a stop the item of a job that was cancelled has failed, and the only item of a batch that
is to be cancelled leaves the batch done. -/
theorem cancelled_job_recovered_as_failed : ∃ as s, Run (Steps BatchSystem.step) .init as s ∧
    s.tables.batch.items.map BatchItem.state = [.failed] ∧ s.tables.outcome 1 = .cancelled ∧
    s.tables.batch.cancelRequested = true ∧ s.tables.batch.state = .done ∧
    ¬ AgreesWithRun s.tables := by
  refine ⟨[.start bareSpec.request 1, .create [bareSpec] 1, .thread .read, .thread .take,
    .thread .enter, .requestCancel, .thread (.finish .cancelled none 2), .stop, .recover], _,
    run_of_runAll rfl, rfl, rfl, rfl, rfl, fun h => ?_⟩
  have hended := (h.endedBatch (by intro h; cases h)).mpr rfl
  cases hended

end RcloneSync
