/-
RcloneSync/SingleTermination.lean

A job ends once.

Six operations can end a job: `job_finish`, called directly or by `job_terminal_apply`
(and so by `job_finish_external`), and the three stale markings.  Each of them changes
only rows that are still running, inside one transaction, and reports from the number of
rows it changed.  Along a run three lists grow: the jobs that went from running to an end
(`transitions`), the jobs whose end a compare-and-set or a marking reported
(`performed`), and the jobs whose end some caller was told of, with the status (`told`).

In every reachable state a job that has ended stands exactly once in the first two
(`job_ends_once`), and its row never changes again (`ended_job_stays`).  What callers are
told is more: `job_terminal_apply` answers with whether the job has the staged status, so
that a repeated call succeeds, and several callers may hear so (`end_told_twice`).
-/
import RcloneSync.TerminalIntent

namespace RcloneSync

open Py Runs

/-! ### Direct calls next to the applying processes -/

/-- A `job_finish` that was called directly, between its two halves. -/
structure Finisher where
  row : Job
  status : JobStatus
  summary : Option Dict

/-- The tables with every party that ends jobs, and what was reported along the run. -/
structure EndSystem where
  base : JobSystem
  finishers : Nat → Option Finisher
  told : List (Nat × JobStatus)
  performed : List Nat
  transitions : List Nat

def EndSystem.init : EndSystem := ⟨.init, fun _ => none, [], [], []⟩

def EndSystem.store (e : EndSystem) : JobStore := e.base.store

inductive EndAction
  | base (a : JobAction)
  | finishRead (c id : Nat) (status : JobStatus) (summary : Option Dict)
  | finishWrite (c : Nat) (now : Time)

/-- The job has ended. -/
def Job.ended (j : Job) : Bool := j.status ≠ .running

/-- The jobs that are running in `s` and have ended in `t`. -/
def endedBetween (s t : JobStore) : List Nat :=
  (s.jobs.filter fun j => j.status = .running && (t.job j.id).any Job.ended).map Job.id

/-- The rows that a stale marking changes, which its row count reports. -/
def markedRows (a : JobAction) (s : JobStore) : List Nat :=
  (s.jobs.filter fun j => j.status = .running && a.marksStale j).map Job.id

/-- What a finish with a terminal status reports. -/
def finishReports (id : Nat) (status : JobStatus) (done : Bool) : List Nat :=
  if done = true ∧ status ≠ .running then [id] else []

/-- The ends reported inside one step: by the compare-and-set of a finish or by the row
count of a marking. -/
def reports (a : JobAction) (s t : JobSystem) : List Nat :=
  match a with
  | .commit p _ =>
    match (t.processes p).call with
    | .checking id status done => finishReports id status done
    | _ => []
  | a => markedRows a s.store

/-- The end of a job that callers are told of, with the status they take it for: the last line of
`job_terminal_apply` answers `True` for the staged status, and a marking counts stale jobs. -/
def answers (a : JobAction) (s : JobSystem) : List (Nat × JobStatus) :=
  match a with
  | .mark p _ =>
    match (s.processes p).call with
    | .marking id => ((s.store.intent id).map fun i => (id, i.status)).toList
    | _ => []
  | a => (markedRows a s.store).map fun id => (id, .stale)

def EndSystem.setFinisher (e : EndSystem) (c : Nat) (f : Option Finisher) : EndSystem :=
  { e with finishers := Function.update e.finishers c f }

def EndSystem.step (e : EndSystem) : EndAction → Option EndSystem
  | .base a =>
    (e.base.step a).map fun t => { e with
      base := t
      told := e.told ++ answers a e.base
      performed := e.performed ++ reports a e.base t
      transitions := e.transitions ++ endedBetween e.store t.store }
  | .finishRead c id status summary =>
    match RcloneSync.finishRead id e.store with
    | .ok (some row) => some (e.setFinisher c (some ⟨row, status, summary⟩))
    | _ => some (e.setFinisher c none)
  | .finishWrite c now =>
    match e.finishers c with
    | none => none
    | some f =>
      match RcloneSync.finishWrite f.row f.status f.summary now e.store with
      | .error _ => some (e.setFinisher c none)
      | .ok (done, store) => some { e.setFinisher c none with
          base := { e.base with store := store }
          told := e.told ++ (finishReports f.row.id f.status done).map fun id => (id, f.status)
          performed := e.performed ++ finishReports f.row.id f.status done
          transitions := e.transitions ++ endedBetween e.store store }

/-- The step relation of the system. -/
def endStep : EndSystem → EndAction → EndSystem → Prop := Steps EndSystem.step

/-! ### What a transaction may do to the ends of jobs -/

/-- Jobs have different ids, and the next one is new. -/
structure JobIds (s : JobStore) : Prop where
  nodup : (s.jobs.map Job.id).Nodup
  below : ∀ j ∈ s.jobs, j.id < s.nextJobId

/-- One if the job has ended, else zero. -/
def endCount (s : JobStore) (id : Nat) : Nat := if (s.job id).any Job.ended then 1 else 0

/-- The jobs of `ids` end, each once, and nothing else happens to the ends of jobs. -/
structure EndsJobs (s t : JobStore) (ids : List Nat) : Prop where
  jobIds : JobIds t
  stays : ∀ id j, s.job id = some j → j.ended = true → t.job id = some j
  fresh : ∀ id, s.job id = none → (t.job id).any Job.ended = false
  counts : ∀ id, endCount t id = endCount s id + ids.count id

theorem ended_eq_false {j : Job} : j.ended = false ↔ j.status = .running := by
  simp [Job.ended]

/-- Tables with the same jobs. -/
theorem endsJobs_same {s t : JobStore} (hids : JobIds s) (hjobs : t.jobs = s.jobs)
    (hnext : t.nextJobId = s.nextJobId) : EndsJobs s t [] := by
  have hjob : ∀ id, t.job id = s.job id := fun id => by rw [JobStore.job, hjobs]; rfl
  refine ⟨⟨hjobs ▸ hids.nodup, ?_⟩, fun id j hj _ => (hjob id).trans hj, fun id hnone => ?_,
    fun id => ?_⟩
  · rw [hjobs, hnext]
    exact hids.below
  · rw [hjob, hnone]
    rfl
  · rw [endCount, hjob]
    rfl

/-- A running job is added. -/
theorem endsJobs_start {s t : JobStore} {new : Job} (hids : JobIds s)
    (hid : new.id = s.nextJobId) (hrunning : new.status = .running)
    (hjobs : t.jobs = s.jobs ++ [new]) (hnext : t.nextJobId = s.nextJobId + 1) :
    EndsJobs s t [] := by
  have hnew : new.ended = false := ended_eq_false.mpr hrunning
  have hjob : ∀ id, t.job id = (s.job id).or (if new.id = id then some new else none) := by
    intro id
    rw [JobStore.job, hjobs, Tables.find_append]
    rfl
  have hany : ∀ id, (t.job id).any Job.ended = (s.job id).any Job.ended := by
    intro id
    rw [hjob]
    cases s.job id with
    | some j => rfl
    | none =>
      by_cases h : new.id = id
      · simp [h, hnew]
      · simp [h]
  refine ⟨⟨?_, ?_⟩, fun id j hj _ => ?_, fun id hnone => ?_, fun id => ?_⟩
  · rw [hjobs, List.map_append, List.nodup_append]
    refine ⟨hids.nodup, List.nodup_singleton _, ?_⟩
    rintro id hold _ hlast rfl
    obtain ⟨j, hj, rfl⟩ := List.mem_map.mp hold
    have hlast : j.id = new.id := by simpa using hlast
    have hbelow := hids.below j hj
    omega
  · intro j hj
    rw [hjobs] at hj
    rcases List.mem_append.mp hj with hold | hlast
    · have hbelow := hids.below j hold
      omega
    · obtain rfl := List.mem_singleton.mp hlast
      omega
  · rw [hjob, hj]
    rfl
  · rw [hany, hnone]
    rfl
  · rw [endCount, hany]
    rfl

/-- Rows that are still running are changed: all of them end, or none does. -/
theorem endsJobs_update {s t : JobStore} {q : Job → Bool} {f : Job → Job} {b : Bool}
    (hids : JobIds s) (hq : ∀ j, q j = true → j.status = .running)
    (hid : ∀ j, (f j).id = j.id) (hended : ∀ j, (f j).ended = b)
    (hjobs : t.jobs = Tables.updateWhere q f s.jobs) (hnext : t.nextJobId = s.nextJobId) :
    EndsJobs s t (if b then (s.jobs.filter q).map Job.id else []) := by
  have hjob : ∀ id, t.job id = (s.job id).map fun j => if q j then f j else j := by
    intro id
    rw [JobStore.job, hjobs, Tables.find_updateWhere hid]
    rfl
  have hmap : t.jobs.map Job.id = s.jobs.map Job.id := by
    rw [hjobs, Tables.map_key_updateWhere hid]
  refine ⟨⟨hmap ▸ hids.nodup, ?_⟩, fun id j hj hje => ?_, fun id hnone => ?_, fun id => ?_⟩
  · intro j hj
    have hmem : j.id ∈ s.jobs.map Job.id := hmap ▸ List.mem_map_of_mem hj
    obtain ⟨old, hold, hsame⟩ := List.mem_map.mp hmem
    rw [hnext, ← hsame]
    exact hids.below old hold
  · have hnot : q j = false := by
      by_contra h
      have hrunning := ended_eq_false.mpr (hq j (by simpa using h))
      rw [hrunning] at hje
      cases hje
    rw [hjob, hj]
    simp [hnot]
  · rw [hjob, hnone]
    rfl
  · have hcount : (if b then (s.jobs.filter q).map Job.id else []).count id
        = if b && (s.job id).any q then 1 else 0 := by
      cases b with
      | true =>
        rw [if_pos rfl, Tables.count_filter hids.nodup]
        rfl
      | false => rfl
    rw [hcount, endCount, endCount, hjob]
    cases hj : s.job id with
    | none => simp
    | some j =>
      by_cases hqj : q j = true
      · have hrunning := ended_eq_false.mpr (hq j hqj)
        cases b <;> simp [hqj, hended, hrunning]
      · simp [hqj]

/-- The jobs that were running before and have ended after are the ones that ended. -/
theorem endsJobs_between {s t : JobStore} {ids : List Nat} (hids : JobIds s)
    (h : EndsJobs s t ids) (id : Nat) : (endedBetween s t).count id = ids.count id := by
  have hcounts := h.counts id
  rw [endedBetween, Tables.count_filter hids.nodup]
  change (if (s.job id).any (fun j => j.status = .running && (t.job j.id).any Job.ended) = true
    then 1 else 0) = _
  simp only [endCount] at hcounts
  cases hj : s.job id with
  | none =>
    rw [hj, h.fresh id hj] at hcounts
    simpa using hcounts
  | some j =>
    have hkey : j.id = id := Tables.key_of_find hj
    rw [hj] at hcounts
    cases hje : j.ended with
    | true =>
      have hnot : j.status ≠ .running := by simpa [Job.ended] using hje
      rw [h.stays id j hj hje] at hcounts
      simp only [Option.any_some, hje, if_true] at hcounts
      simp [hnot]
      omega
    | false =>
      have hrunning := ended_eq_false.mp hje
      simp only [Option.any_some, hje, Bool.false_eq_true, if_false, Nat.zero_add] at hcounts
      simpa [hrunning, hkey] using hcounts

theorem EndsJobs.congr {s t : JobStore} {ids ids' : List Nat} (h : EndsJobs s t ids)
    (hcount : ∀ id, ids'.count id = ids.count id) : EndsJobs s t ids' :=
  ⟨h.jobIds, h.stays, h.fresh, fun id => by rw [hcount, h.counts]⟩

/-! ### The transactions -/

theorem endsJobs_finishWrite {row : Job} {status : JobStatus} {summary : Option Dict}
    {now : Time} {s t : JobStore} {done : Bool} (hids : JobIds s)
    (h : finishWrite row status summary now s = .ok (done, t)) :
    EndsJobs s t (finishReports row.id status done) := by
  obtain ⟨_, hnext, hdone, hjobs⟩ := finishWrite_jobs h
  have hq : ∀ j, isRunningJob row.id j = true → j.status = .running := fun j hj =>
    of_decide_eq_true (Bool.and_eq_true _ _ ▸ hj).2
  have hended : ∀ report payload j, report.status = status →
      (finishedJob report now payload j).ended = decide (status ≠ .running) := by
    rintro _ _ _ rfl
    rfl
  have hends := endsJobs_update hids hq (by intro _; rfl) (fun j => hended _ _ j rfl) hjobs hnext
  refine hends.congr fun id => ?_
  -- the row that was running is the only one with its id
  have hrow : ((s.jobs.filter (isRunningJob row.id)).map Job.id).count id
      = if done = true ∧ row.id = id then 1 else 0 := by
    rw [Tables.count_filter hids.nodup, hdone]
    by_cases hid : row.id = id
    · subst hid
      have hany : (Tables.find Job.id s.jobs row.id).any (isRunningJob row.id)
          = s.jobs.any (isRunningJob row.id) := by
        rw [Bool.eq_iff_iff, Option.any_eq_true, List.any_eq_true]
        constructor
        · rintro ⟨j, hj, hrunning⟩
          exact ⟨j, Tables.mem_of_find hj, hrunning⟩
        · rintro ⟨j, hj, hrunning⟩
          refine ⟨j, ?_, hrunning⟩
          have hkey : j.id = row.id := of_decide_eq_true (Bool.and_eq_true _ _ ▸ hrunning).1
          exact Tables.find_of_mem hids.nodup hj hkey
      rw [hany]
      simp
    · have hnone : (Tables.find Job.id s.jobs id).any (isRunningJob row.id) = false := by
        cases hj : Tables.find Job.id s.jobs id with
        | none => rfl
        | some j =>
          have hkey : j.id = id := Tables.key_of_find hj
          have hne : ¬ j.id = row.id := fun h => hid (h.symm.trans hkey)
          simp [isRunningJob, hne]
      simp [hnone, hid]
  by_cases hstatus : status = .running
  · simp [finishReports, hstatus]
  · rw [if_pos (decide_eq_true hstatus), hrow, finishReports]
    by_cases hd : done = true
    · by_cases hid : row.id = id
      · simp [hd, hid, hstatus]
      · simp [hd, hid, hstatus]
    · simp [hd]

theorem endsJobs_markStale {a : JobAction} {s : JobStore} {p : Job → Bool} (hids : JobIds s)
    (hp : a.marksStale = p) (reason summary : String) (now : Time) :
    EndsJobs s (markStaleWhere p reason summary now s) (markedRows a s) := by
  obtain ⟨_, hnext, hjobs⟩ := markStaleWhere_jobs p reason summary now s
  subst hp
  have hq : ∀ j : Job, (decide (j.status = .running) && a.marksStale j) = true →
      j.status = .running := fun j hj => of_decide_eq_true (Bool.and_eq_true _ _ ▸ hj).1
  exact endsJobs_update hids hq (by intro _; rfl) (by intro _; rfl) hjobs hnext

/-- Only terminal statuses are staged. -/
theorem terminalStage_intents {id : Nat} {status : JobStatus} {summary : Option Dict}
    {now : Time} {s t : JobStore} (h : terminalStage id status summary now s = .ok t)
    (hs : ∀ i ∈ s.intents, i.status ≠ .running) :
    t.nextJobId = s.nextJobId ∧ ∀ i ∈ t.intents, i.status ≠ .running := by
  unfold terminalStage at h
  split_ifs at h with hrunning
  cases hj : s.job id with
  | none =>
    rw [hj] at h
    cases h
  | some j =>
    rw [hj] at h
    simp only at h
    cases hi : s.intent id with
    | none =>
      rw [hi] at h
      obtain rfl := Except.ok.inj h
      refine ⟨rfl, fun i hmem => ?_⟩
      rcases List.mem_append.mp hmem with hold | hnew
      · exact hs i hold
      · obtain rfl := List.mem_singleton.mp hnew
        exact hrunning
    | some i₀ =>
      rw [hi] at h
      simp only at h
      split_ifs at h with hsame
      obtain rfl := Except.ok.inj h
      refine ⟨rfl, fun i hmem => ?_⟩
      obtain ⟨old, hold, rfl⟩ := List.mem_map.mp hmem
      split_ifs
      · exact hs old hold
      · exact hs old hold

/-! ### Steps -/

/-- The job has ended with this status. -/
def EndedAs (s : JobStore) (id : Nat) (status : JobStatus) : Prop :=
  status ≠ .running ∧ (s.job id).map Job.status = some status

/-- A call works towards a terminal status.  Behind its finish it is the staged one, and from the
check on the job has it. -/
def Call.Reached (s : JobStore) : Call → Prop
  | .idle => True
  | .finishing _ status _ => status ≠ .running
  | .committing _ _ status _ => status ≠ .running
  | .checking id status done =>
    status ≠ .running ∧ (s.intent id).map TerminalIntent.status = some status ∧
      (done = true → EndedAs s id status)
  | .marking id => ∃ status,
    (s.intent id).map TerminalIntent.status = some status ∧ EndedAs s id status

/-- What holds of the tables and the applying processes in every reachable state. -/
structure Progress (s : JobSystem) : Prop where
  jobIds : JobIds s.store
  held : Held s
  staged : ∀ i ∈ s.store.intents, i.status ≠ .running
  calls : ∀ p, (s.processes p).call.Reached s.store

theorem EndsJobs.endedAs {s t : JobStore} {ids : List Nat} (h : EndsJobs s t ids) {id : Nat}
    {status : JobStatus} (hid : EndedAs s id status) : EndedAs t id status := by
  obtain ⟨hterminal, hstatus⟩ := hid
  obtain ⟨j, hj, rfl⟩ := Option.map_eq_some_iff.mp hstatus
  exact ⟨hterminal, by rw [h.stays id j hj (decide_eq_true hterminal), Option.map_some]⟩

/-- A job that ends in a transaction has the status that the transaction writes. -/
theorem EndsJobs.endedAs_of_mem {s t : JobStore} {ids : List Nat} (h : EndsJobs s t ids)
    {id : Nat} (hid : id ∈ ids) {status : JobStatus} {q : Job → Bool}
    (hwrites : (t.job id).map Job.status =
      (s.job id).map fun j => if q j = true then status else j.status) : EndedAs t id status := by
  have hcounts := h.counts id
  have hpos := List.count_pos_iff.mpr hid
  have hafter : (t.job id).any Job.ended = true := by
    by_contra hnot
    have hzero : endCount t id = 0 := if_neg hnot
    omega
  have hbefore : (s.job id).any Job.ended = false := by
    by_contra hended
    have hone : endCount s id = 1 := if_pos (eq_true_of_ne_false hended)
    have hle : endCount t id = 1 := if_pos hafter
    omega
  obtain ⟨j', hj', hended⟩ := (Option.any_eq_true _ _).mp hafter
  rw [hj', Option.map_some] at hwrites
  obtain ⟨j, hj, hstatus⟩ := Option.map_eq_some_iff.mp hwrites.symm
  rw [hj] at hbefore
  have hrunning : j.status = .running := ended_eq_false.mp hbefore
  have hterminal : j'.status ≠ .running := of_decide_eq_true hended
  rw [hrunning] at hstatus
  split_ifs at hstatus with hq
  · exact ⟨hstatus ▸ hterminal, by rw [hj', Option.map_some, hstatus]⟩
  · exact absurd hstatus.symm hterminal

theorem Call.Reached.mono {s t : JobStore} {ids : List Nat} (h : EndsJobs s t ids)
    (hkeep : KeepsIntents s t) {c : Call} (hc : c.Reached s) : c.Reached t := by
  cases c with
  | checking id status done =>
    exact ⟨hc.1, hkeep id status hc.2.1, fun hd => h.endedAs (hc.2.2 hd)⟩
  | marking id =>
    obtain ⟨status, hstaged, hended⟩ := hc
    exact ⟨status, hkeep id status hstaged, h.endedAs hended⟩
  | _ => exact hc

theorem reached_setCall {s : JobSystem} {store : JobStore} {ids : List Nat}
    (h : EndsJobs s.store store ids) (hkeep : KeepsIntents s.store store)
    (hcalls : ∀ p, (s.processes p).call.Reached s.store)
    {p : Nat} {c : Call} (hc : c.Reached store) (q : Nat) :
    ((({ s with store := store } : JobSystem).setCall p c).processes q).call.Reached store := by
  by_cases hq : q = p
  · subst hq
    simpa [JobSystem.setCall] using hc
  · simpa [JobSystem.setCall, hq] using (hcalls q).mono h hkeep

/-- The call of a process that takes up a job. -/
theorem reached_beginApply {s : JobSystem} (hprog : Progress s) (p id q : Nat) :
    ((s.beginApply p id).processes q).call.Reached s.store := by
  have hsame := endsJobs_same hprog.jobIds rfl rfl
  unfold JobSystem.beginApply applyRead
  cases hi : s.store.intent id with
  | none => exact reached_setCall hsame (keepsIntents_of_eq rfl) hprog.calls (c := .idle) trivial q
  | some i =>
    exact reached_setCall hsame (keepsIntents_of_eq rfl) hprog.calls
      (c := .finishing id i.status (stagedSummary i.summaryJson))
      (hprog.staged i (Tables.mem_of_find hi)) q

theorem reached_setQueue {s : JobSystem} (hprog : Progress s) (p : Nat) (queue : List Nat)
    (q : Nat) : ((s.setQueue p queue).processes q).call.Reached s.store := by
  by_cases hq : q = p
  · subst hq
    simpa [JobSystem.setQueue] using hprog.calls q
  · simpa [JobSystem.setQueue, hq] using hprog.calls q

/-- The check passes only if this call ended the job or the job has the staged status. -/
theorem endedAs_of_check {id : Nat} {status : JobStatus} {done : Bool} {s : JobStore}
    (hreached : (Call.checking id status done).Reached s)
    (h : applyCheck id status done s = .ok ()) : EndedAs s id status := by
  simp only [applyCheck] at h
  split_ifs at h with hconflict
  by_cases hd : done = true
  · exact hreached.2.2 hd
  · refine ⟨hreached.1, ?_⟩
    by_contra hne
    exact hconflict ⟨by simpa using hd, hne⟩

/-- A stale marking reports what it ended. -/
theorem progress_markStale {s : JobSystem} (hprog : Progress s) {a : JobAction} {p : Job → Bool}
    (hp : a.marksStale = p) (reason summary : String) (now : Time) {t : JobSystem}
    (ht : t = { s with store := markStaleWhere p reason summary now s.store }) (hheld : Held t) :
    EndsJobs s.store t.store (markedRows a s.store) ∧ Progress t ∧
      ∀ x ∈ (markedRows a s.store).map fun id => (id, JobStatus.stale),
        EndedAs t.store x.1 x.2 := by
  subst ht
  have hends := endsJobs_markStale hprog.jobIds hp reason summary now
  obtain ⟨hintents, hwrites⟩ := markStaleWhere_spec p reason summary now s.store
  refine ⟨hends, ⟨hends.jobIds, hheld, fun i hi => hprog.staged i (hintents ▸ hi),
    fun q => (hprog.calls q).mono hends (keepsIntents_of_eq hintents)⟩, fun x hx => ?_⟩
  obtain ⟨id, hid, rfl⟩ := List.mem_map.mp hx
  exact hends.endedAs_of_mem hid (hwrites id)

/-- Steps that leave the tables alone report no end. -/
theorem markedRows_of_none {a : JobAction} (ha : ∀ j, a.marksStale j = false) (s : JobStore) :
    markedRows a s = [] := by
  simp [markedRows, ha]

/-- **One step.**  Exactly the jobs whose end is reported go from running to an end, and
what a caller is told of has ended. -/
theorem jobStep_ends {s t : JobSystem} {a : JobAction} (hprog : Progress s) (h : jobStep s a t) :
    EndsJobs s.store t.store (reports a s t) ∧ Progress t ∧
      ∀ x ∈ answers a s, EndedAs t.store x.1 x.2 := by
  obtain ⟨hkeep, hheld, _⟩ := jobStep_spec hprog.held h
  have hsame : EndsJobs s.store s.store [] := endsJobs_same hprog.jobIds rfl rfl
  have hstays : KeepsIntents s.store s.store := keepsIntents_of_eq rfl
  -- a step that leaves the tables alone and only moves processes on
  have hmove : t.store = s.store → (∀ p, (t.processes p).call.Reached s.store) →
      Progress t := fun hstore hcalls =>
    ⟨hstore ▸ hprog.jobIds, hheld, hstore ▸ hprog.staged, hstore ▸ hcalls⟩
  have hcall : ∀ p c, c.Reached s.store → s.setCall p c = t → Progress t := by
    rintro p c hc rfl
    exact hmove rfl (reached_setCall hsame hstays hprog.calls hc)
  have hquiet : ∀ {b : JobAction} {store : JobStore}, (∀ j, b.marksStale j = false) →
      EndsJobs s.store store [] → EndsJobs s.store store (markedRows b s.store) := by
    intro b store hb hends
    rwa [markedRows_of_none hb]
  have hsilent : ∀ {b : JobAction} {store : JobStore}, (∀ j, b.marksStale j = false) →
      ∀ x ∈ (markedRows b s.store).map fun id => (id, JobStatus.stale),
        EndedAs store x.1 x.2 := by
    intro b store hb x hx
    rw [markedRows_of_none hb] at hx
    cases hx
  cases a with
  | start request now =>
    have hnone : ∀ j, (JobAction.start request now).marksStale j = false := fun _ => rfl
    simp only [jobStep, JobSystem.step] at h
    cases hstart : jobStart request now s.store with
    | error e =>
      rw [hstart] at h
      obtain rfl := Option.some.inj h
      exact ⟨hquiet hnone hsame, hprog, hsilent hnone⟩
    | ok r =>
      rw [hstart] at h
      obtain rfl := Option.some.inj h
      obtain ⟨hintents, _, hnext, new, hid, hrunning, _, _, hjobs⟩ := jobStart_jobs hstart
      have hends := endsJobs_start hprog.jobIds hid hrunning hjobs hnext
      exact ⟨hquiet hnone hends,
        ⟨hends.jobIds, hheld, fun i hi => hprog.staged i (hintents ▸ hi),
          fun p => (hprog.calls p).mono hends hkeep⟩, hsilent hnone⟩
  | stage id status summary now =>
    have hnone : ∀ j, (JobAction.stage id status summary now).marksStale j = false :=
      fun _ => rfl
    simp only [jobStep, JobSystem.step] at h
    cases hstage : terminalStage id status summary now s.store with
    | error e =>
      rw [hstage] at h
      obtain rfl := Option.some.inj h
      exact ⟨hquiet hnone hsame, hprog, hsilent hnone⟩
    | ok store =>
      rw [hstage] at h
      obtain rfl := Option.some.inj h
      obtain ⟨hnext, hstaged⟩ := terminalStage_intents hstage hprog.staged
      have hends := endsJobs_same hprog.jobIds (terminalStage_spec hstage).1 hnext
      exact ⟨hquiet hnone hends,
        ⟨hends.jobIds, hheld, hstaged, fun p => (hprog.calls p).mono hends hkeep⟩,
        hsilent hnone⟩
  | apply p id =>
    have hnone : ∀ j, (JobAction.apply p id).marksStale j = false := fun _ => rfl
    simp only [jobStep, JobSystem.step] at h
    split at h
    · obtain rfl := Option.some.inj h
      have hstore := beginApply_store s p id
      exact ⟨hquiet hnone (hstore.symm ▸ hsame),
        hmove hstore (reached_beginApply hprog p id), hsilent hnone⟩
    · cases h
  | recover p =>
    have hnone : ∀ j, (JobAction.recover p).marksStale j = false := fun _ => rfl
    simp only [jobStep, JobSystem.step] at h
    split at h
    · obtain rfl := Option.some.inj h
      exact ⟨hquiet hnone hsame, hmove rfl (reached_setQueue hprog p _), hsilent hnone⟩
    · cases h
  | next p =>
    have hnone : ∀ j, (JobAction.next p).marksStale j = false := fun _ => rfl
    simp only [jobStep, JobSystem.step] at h
    split at h
    · rename_i id rest _ _
      obtain rfl := Option.some.inj h
      have hstore := beginApply_store (s.setQueue p rest) p id
      have hprog' : Progress (s.setQueue p rest) :=
        ⟨hprog.jobIds, held_setQueue hprog.held p rest, hprog.staged,
          reached_setQueue hprog p rest⟩
      exact ⟨hquiet hnone (hstore.symm ▸ hsame),
        hmove hstore (reached_beginApply hprog' p id), hsilent hnone⟩
    · cases h
  | readJob p =>
    have hnone : ∀ j, (JobAction.readJob p).marksStale j = false := fun _ => rfl
    simp only [jobStep, JobSystem.step] at h
    split at h
    · rename_i id status summary hp
      have hreached := hprog.calls p
      have hagrees := hprog.held p
      rw [hp] at hreached hagrees
      split at h
      · obtain rfl := Option.some.inj h
        exact ⟨hquiet hnone hsame, hcall p (.committing id _ status summary) hreached rfl,
          hsilent hnone⟩
      · obtain rfl := Option.some.inj h
        have hchecking : (Call.checking id status false).Reached s.store :=
          ⟨hreached, hagrees, by rintro ⟨⟩⟩
        exact ⟨hquiet hnone hsame, hcall p _ hchecking rfl, hsilent hnone⟩
      · obtain rfl := Option.some.inj h
        exact ⟨hquiet hnone hsame, hcall p .idle trivial rfl, hsilent hnone⟩
    · cases h
  | commit p now =>
    have hnone : ∀ j, (JobAction.commit p now).marksStale j = false := fun _ => rfl
    simp only [jobStep, JobSystem.step] at h
    split at h
    · rename_i id row status summary hp
      have hreached := hprog.calls p
      have hagrees := hprog.held p
      rw [hp] at hreached hagrees
      have hterminal : status ≠ .running := hreached
      cases hwrite : finishWrite row status (some summary) now s.store with
      | error e =>
        rw [hwrite] at h
        obtain rfl := Option.some.inj h
        have hreports : reports (.commit p now) s (s.setCall p .idle) = [] := by
          simp [reports, JobSystem.setCall]
        exact ⟨hreports ▸ hsame, hcall p .idle trivial rfl, hsilent hnone⟩
      | ok r =>
        obtain ⟨done, store⟩ := r
        rw [hwrite] at h
        obtain rfl := Option.some.inj h
        have hends := endsJobs_finishWrite hprog.jobIds hwrite
        rw [hagrees.1] at hends
        have hchecking : (Call.checking id status done).Reached store :=
          ⟨hterminal, hkeep id status hagrees.2, fun hdone => hends.endedAs_of_mem
            (by simp [finishReports, hdone, hterminal]) ((finishWrite_spec hwrite).2 id)⟩
        have hreports : reports (.commit p now) s
            (({ s with store := store } : JobSystem).setCall p (.checking id status done))
              = finishReports id status done := by
          simp [reports, JobSystem.setCall]
        refine ⟨hreports ▸ hends, ⟨hends.jobIds, hheld, fun i hi => ?_,
          reached_setCall hends hkeep hprog.calls hchecking⟩, hsilent hnone⟩
        exact hprog.staged i ((finishWrite_spec hwrite).1 ▸ hi)
    · cases h
  | check p =>
    have hnone : ∀ j, (JobAction.check p).marksStale j = false := fun _ => rfl
    simp only [jobStep, JobSystem.step] at h
    split at h
    · rename_i id status done hp
      have hreached := hprog.calls p
      rw [hp] at hreached
      split at h
      · rename_i hcheck
        obtain rfl := Option.some.inj h
        have hmarking : (Call.marking id).Reached s.store :=
          ⟨status, hreached.2.1, endedAs_of_check hreached hcheck⟩
        exact ⟨hquiet hnone hsame, hcall p (.marking id) hmarking rfl, hsilent hnone⟩
      · obtain rfl := Option.some.inj h
        exact ⟨hquiet hnone hsame, hcall p .idle trivial rfl, hsilent hnone⟩
    · cases h
  | mark p now =>
    have hnone : ∀ j, (JobAction.mark p now).marksStale j = false := fun _ => rfl
    simp only [jobStep, JobSystem.step] at h
    split at h
    · rename_i id hp
      have hreached := hprog.calls p
      rw [hp] at hreached
      obtain rfl := Option.some.inj h
      have hends : EndsJobs s.store (applyMark id now s.store) [] :=
        endsJobs_same hprog.jobIds rfl rfl
      refine ⟨hquiet hnone hends, ⟨hends.jobIds, hheld, fun i hi => ?_,
        reached_setCall hends hkeep hprog.calls (c := .idle) trivial⟩, fun x hx => ?_⟩
      · obtain ⟨old, hold, rfl⟩ := List.mem_map.mp hi
        split_ifs
        · exact hprog.staged old hold
        · exact hprog.staged old hold
      · obtain ⟨status, hstatus, hended⟩ := hreached
        obtain ⟨i, hi, rfl⟩ := Option.map_eq_some_iff.mp hstatus
        simp only [answers, hp, hi, Option.map_some, Option.toList_some] at hx
        obtain rfl := List.mem_singleton.mp hx
        exact hends.endedAs hended
    · cases h
  | fail p =>
    have hnone : ∀ j, (JobAction.fail p).marksStale j = false := fun _ => rfl
    obtain rfl := Option.some.inj h
    exact ⟨hquiet hnone hsame, hcall p .idle trivial rfl, hsilent hnone⟩
  | crash p =>
    have hnone : ∀ j, (JobAction.crash p).marksStale j = false := fun _ => rfl
    obtain rfl := Option.some.inj h
    have hprog' : Progress (s.setCall p .idle) :=
      ⟨hprog.jobIds, held_setCall (keepsIntents_of_eq rfl) hprog.held trivial, hprog.staged,
        reached_setCall hsame hstays hprog.calls (c := .idle) trivial⟩
    exact ⟨hquiet hnone hsame, hmove rfl (reached_setQueue hprog' p []), hsilent hnone⟩
  | markStale id reason now =>
    exact progress_markStale hprog rfl _ _ now (Option.some.inj h).symm hheld
  | markAllStale kinds reason now =>
    exact progress_markStale hprog rfl _ _ now (Option.some.inj h).symm hheld
  | markOldStale maxAge kind reason now =>
    exact progress_markStale hprog rfl _ _ now (Option.some.inj h).symm hheld

/-! ### Runs -/

/-- The three lists against the tables. -/
structure Counted (e : EndSystem) : Prop where
  progress : Progress e.base
  transitions : ∀ id, e.transitions.count id = endCount e.store id
  performed : ∀ id, e.performed.count id = endCount e.store id
  told : ∀ x ∈ e.told, EndedAs e.store x.1 x.2

/-- A transaction of any party, with what it reports and what its caller is told. -/
theorem Counted.extend {e : EndSystem} (h : Counted e) {t : JobSystem}
    {told : List (Nat × JobStatus)} {reported : List Nat}
    (hends : EndsJobs e.store t.store reported) (hprog : Progress t)
    (htold : ∀ x ∈ told, EndedAs t.store x.1 x.2) (finishers : Nat → Option Finisher) :
    Counted ⟨t, finishers, e.told ++ told, e.performed ++ reported,
      e.transitions ++ endedBetween e.store t.store⟩ := by
  refine ⟨hprog, fun id => ?_, fun id => ?_, fun x hx => ?_⟩
  · have hbetween : (endedBetween e.store t.store).count id = reported.count id :=
      endsJobs_between h.progress.jobIds hends id
    rw [List.count_append, h.transitions, hbetween]
    exact (hends.counts id).symm
  · rw [List.count_append, h.performed]
    exact (hends.counts id).symm
  · rcases List.mem_append.mp hx with hold | hnew
    · exact hends.endedAs (h.told x hold)
    · exact htold x hnew

theorem Counted.step {e e' : EndSystem} {a : EndAction} (h : Counted e) (hstep : endStep e a e') :
    Counted e' ∧ ∀ id j, e.store.job id = some j → j.ended = true → e'.store.job id = some j := by
  have hfinisher : ∀ c f, Counted (e.setFinisher c f) := fun c f =>
    ⟨h.progress, h.transitions, h.performed, h.told⟩
  cases a with
  | base a =>
    obtain ⟨t, ht, rfl⟩ := Option.map_eq_some_iff.mp hstep
    obtain ⟨hends, hprog, htold⟩ := jobStep_ends h.progress ht
    exact ⟨h.extend hends hprog htold e.finishers, hends.stays⟩
  | finishRead c id status summary =>
    simp only [endStep, Steps, EndSystem.step] at hstep
    split at hstep <;>
    · obtain rfl := Option.some.inj hstep
      exact ⟨hfinisher c _, fun _ _ hj _ => hj⟩
  | finishWrite c now =>
    simp only [endStep, Steps, EndSystem.step] at hstep
    split at hstep
    · cases hstep
    · rename_i f _
      cases hwrite : finishWrite f.row f.status f.summary now e.store with
      | error err =>
        rw [hwrite] at hstep
        obtain rfl := Option.some.inj hstep
        exact ⟨hfinisher c none, fun _ _ hj _ => hj⟩
      | ok r =>
        obtain ⟨done, store⟩ := r
        rw [hwrite] at hstep
        obtain rfl := Option.some.inj hstep
        have hends := endsJobs_finishWrite h.progress.jobIds hwrite
        obtain ⟨hintents, hwrites⟩ := finishWrite_spec hwrite
        have hkeep := keepsIntents_of_eq hintents
        have hprog : Progress { e.base with store := store } :=
          ⟨hends.jobIds, fun p => (h.progress.held p).mono hkeep,
            fun i hi => h.progress.staged i (hintents ▸ hi),
            fun p => (h.progress.calls p).mono hends hkeep⟩
        refine ⟨h.extend (t := { e.base with store := store }) hends hprog (fun x hx => ?_) _,
          hends.stays⟩
        obtain ⟨id, hid, rfl⟩ := List.mem_map.mp hx
        exact hends.endedAs_of_mem hid (hwrites id)

theorem counted_init : Counted .init := by
  refine ⟨⟨⟨List.nodup_nil, ?_⟩, held_init, ?_, fun _ => trivial⟩, fun _ => rfl, fun _ => rfl, ?_⟩
  all_goals
    intro _ h
    cases h

theorem counted_run {e e' : EndSystem} {as : List EndAction} (h : Run endStep e as e')
    (he : Counted e) : Counted e' :=
  h.preserves Counted (fun _ _ _ hc hstep => (hc.step hstep).1) he

/-- **The row of a job that has ended never changes again.** -/
theorem ended_job_stays {e e' : EndSystem} {as : List EndAction} (he : Counted e)
    (h : Run endStep e as e') {id : Nat} {j : Job} (hj : e.store.job id = some j)
    (hended : j.ended = true) : e'.store.job id = some j :=
  (h.preserves (fun e => Counted e ∧ e.store.job id = some j)
    (fun _ _ _ hI hstep => ⟨(hI.1.step hstep).1, (hI.1.step hstep).2 id j hI.2 hended⟩)
    ⟨he, hj⟩).2

/-- **A job ends once.**  In every reachable state a job that is running has made no
transition and no end of it was reported; a job that has ended made exactly one, which
exactly one compare-and-set or marking reported, and its row stays as it is.  Whoever is
told of an end is told the status that the job has: a process behind the check of
`job_terminal_apply`, which is about to answer `True`, that the job has the staged one. -/
theorem job_ends_once {as : List EndAction} {e : EndSystem} (hrun : Run endStep .init as e)
    {id : Nat} {j : Job} (hj : e.store.job id = some j) :
    (j.status = .running → e.transitions.count id = 0 ∧ e.performed.count id = 0) ∧
    (j.status ≠ .running → e.transitions.count id = 1 ∧ e.performed.count id = 1 ∧
      ∀ bs e', Run endStep e bs e' → e'.store.job id = some j ∧
        e'.transitions.count id = 1 ∧ e'.performed.count id = 1) ∧
    (∀ status, (id, status) ∈ e.told → j.status ≠ .running ∧ j.status = status) ∧
    ∀ p, (e.base.processes p).call = .marking id → j.status ≠ .running ∧
      (e.store.intent id).map TerminalIntent.status = some j.status := by
  have hc := counted_run hrun counted_init
  have hone : ∀ {f : EndSystem}, Counted f → f.store.job id = some j → j.ended = true →
      f.transitions.count id = 1 ∧ f.performed.count id = 1 := by
    intro f hf hfj hended
    have hcount : endCount f.store id = 1 := by simp [endCount, hfj, hended]
    exact ⟨(hf.transitions id).trans hcount, (hf.performed id).trans hcount⟩
  have hstatus : ∀ {status}, EndedAs e.store id status →
      j.status ≠ .running ∧ j.status = status := by
    rintro status ⟨hterminal, hjob⟩
    rw [hj, Option.map_some] at hjob
    obtain rfl := Option.some.inj hjob
    exact ⟨hterminal, rfl⟩
  refine ⟨fun hrunning => ?_, fun hterminal => ?_, fun status htold => ?_, fun p hp => ?_⟩
  · have hnot : j.ended = false := ended_eq_false.mpr hrunning
    have hcount : endCount e.store id = 0 := by simp [endCount, hj, hnot]
    exact ⟨(hc.transitions id).trans hcount, (hc.performed id).trans hcount⟩
  · have hended : j.ended = true := decide_eq_true hterminal
    obtain ⟨h₁, h₂⟩ := hone hc hj hended
    refine ⟨h₁, h₂, fun bs e' hafter => ?_⟩
    have hstays := ended_job_stays hc hafter hj hended
    exact ⟨hstays, hone (counted_run hafter hc) hstays hended⟩
  · exact hstatus (hc.told _ htold)
  · have hreached := hc.progress.calls p
    rw [hp] at hreached
    obtain ⟨status, hstaged, hended⟩ := hreached
    obtain ⟨hterminal, rfl⟩ := hstatus hended
    exact ⟨hterminal, hstaged⟩

/-- Two processes apply the result that is staged for the job, one after the other. -/
def appliedTwice : List EndAction :=
  let applied : List JobAction :=
    [.apply 0 1, .apply 1 1, .readJob 0, .commit 0 62000000, .check 0, .mark 0 63000000,
     .readJob 1, .check 1, .mark 1 64000000]
  (photoStaged ++ applied).map EndAction.base

/-- The job after the run and what its parties were told. -/
def EndSystem.view (e : EndSystem) (id : Nat) : Option JobStatus × Nat × Nat × Nat :=
  ((e.store.job id).map Job.status, e.transitions.count id, e.performed.count id,
    e.told.count (id, .ok))

theorem appliedTwice_view : ∃ e, Run endStep .init appliedTwice e ∧
    e.view 1 = (some .ok, 1, 1, 2) := by
  have hview : (runAll EndSystem.step .init appliedTwice).map (fun e => e.view 1)
      = some (some .ok, 1, 1, 2) := by decide +kernel
  obtain ⟨e, he, hv⟩ := Option.map_eq_some_iff.mp hview
  exact ⟨e, run_of_runAll he, hv⟩

theorem job_ends_once_photo : ∃ e j, Run endStep .init appliedTwice e ∧
    e.store.job 1 = some j ∧ e.transitions.count 1 = 1 ∧ e.performed.count 1 = 1 ∧
      (1, j.status) ∈ e.told ∧ ∀ status, (1, status) ∈ e.told → j.status = status := by
  obtain ⟨e, hrun, hview⟩ := appliedTwice_view
  obtain ⟨j, hj, hstatus⟩ := Option.map_eq_some_iff.mp (Prod.mk.inj hview).1
  have hended : j.status ≠ .running := by
    rw [hstatus]
    decide
  obtain ⟨-, hends, htold, -⟩ := job_ends_once hrun hj
  obtain ⟨h₁, h₂, -⟩ := hends hended
  have hcount : e.told.count (1, .ok) = 2 :=
    (Prod.mk.inj (Prod.mk.inj (Prod.mk.inj hview).2).2).2
  refine ⟨e, j, hrun, hj, h₁, h₂, ?_, fun status hmem => (htold status hmem).2⟩
  rw [hstatus]
  exact List.count_pos_iff.mp (hcount ▸ Nat.two_pos)

/-- **Several callers can be told of one end**: a second `job_terminal_apply` finds the job
with the staged status and answers as the first one did. -/
theorem end_told_twice : ∃ e j, Run endStep .init appliedTwice e ∧
    e.store.job 1 = some j ∧ j.status = .ok ∧ e.transitions.count 1 = 1 ∧
      e.told.count (1, .ok) = 2 := by
  obtain ⟨e, hrun, hview⟩ := appliedTwice_view
  obtain ⟨hjob, hcounts⟩ := Prod.mk.inj hview
  obtain ⟨htransitions, hcounts⟩ := Prod.mk.inj hcounts
  obtain ⟨j, hj, hstatus⟩ := Option.map_eq_some_iff.mp hjob
  exact ⟨e, j, hrun, hj, hstatus, htransitions, (Prod.mk.inj hcounts).2⟩

end RcloneSync
