/-
RcloneSync/StagingBudget.lean

What the staging area holds (`_save_record`, `check_staging_budget`, `reconcile_staging` and
`_remove_staging_locked`, jobs/selective_restore.py; `run_snapshot_restore`,
recovery_snapshots.py).

A restore announces itself in the list of records before it makes its directory, asks for its
bytes, writes its end into the list, and can fail, be cut off or find the list not to be written
at each point.  `stagingStep` has an action for each of these steps; the lease lets one restore,
removal or reconciliation be on at a time.

Two things are kept.  Every directory has a record that is retained, which the list never loses
(`mem_saveStagingRecord`, `StagingInv.held`).  And what is retained, with the bytes that the
restore on its way may yet declare, stays within the limit of the latest admission
(`StagingInv.within`).  `staging_run` says both of every state of every run.
-/
import Mathlib.Algebra.Order.BigOperators.Group.List
import Mathlib.Data.List.Induction
import Mathlib.Data.List.Nodup
import Mathlib.Data.List.TakeWhile
import Mathlib.Tactic.Linarith
import RcloneSync.Runs

namespace RcloneSync

open Runs

/-! ### The list of records -/

inductive StagingStatus
  | running | ready | error | cancelled
  deriving DecidableEq

/-- A record of the list; its `id` is `recovery-<job_id>`. -/
structure StagingRecord where
  jobId : Nat
  status : StagingStatus
  bytes : Option Int
  cleanupRequired : Bool
  verified : Bool
  deriving DecidableEq

/-- `status in {"running", "ready"} or cleanup_required`. -/
def StagingRecord.retained (r : StagingRecord) : Bool :=
  r.status = .running || r.status = .ready || r.cleanupRequired

/-- `max(0, int(item.get("bytes") or 0))`. -/
def StagingRecord.size (r : StagingRecord) : Int := max 0 (r.bytes.getD 0)

/-- `_MAX_STATE_ITEMS`. -/
def maxStateItems : Nat := 100

/-- The list that `_save_record` writes. -/
def saveStagingRecord (records : List StagingRecord) (record : StagingRecord) :
    List StagingRecord :=
  let records := record :: records.filter fun r => r.jobId ≠ record.jobId
  records.filter StagingRecord.retained ++
    (records.filter fun r => !r.retained).take maxStateItems

/-- `retained` of `check_staging_budget`. -/
def stagedBytes (records : List StagingRecord) : Int :=
  ((records.filter StagingRecord.retained).map StagingRecord.size).sum

/-- `recovery_staging_max_mb` in bytes. -/
def stagingLimit (megabytes : Int) : Int := megabytes * 1024 * 1024

/-! ### Restores -/

inductive RestoreKind
  | selective
  | snapshot
  deriving DecidableEq

/-- How far a restore has come; what is named is the next step. -/
inductive RestorePhase
  | preparing
  | registering
  | making
  | measuring
  | admitting
  | declaring
  | copying
  | cleaning
  | finishing
  | closing
  deriving DecidableEq

/-- A restore that is on, with its own copy of its record. -/
structure ActiveRestore where
  kind : RestoreKind
  phase : RestorePhase
  record : StagingRecord
  created : Bool

/-- What is known of a job: its row may be gone, and a result may wait for its replay. -/
inductive StagingJob
  | unknown
  | running
  | pending (result : StagingRecord)
  | ended (result : StagingRecord)
  deriving DecidableEq

/-- The list, the directories, the jobs, the restore that is on, and the limit of the latest
admission. -/
structure Staging where
  records : List StagingRecord
  dirs : Nat → Bool
  jobs : Nat → StagingJob
  nextJob : Nat
  active : Option ActiveRestore
  admitted : Int

def Staging.init : Staging := ⟨[], fun _ => false, fun _ => .unknown, 0, none, 0⟩

/-- The first record of a restore. -/
def newRecord (jobId : Nat) : StagingRecord := ⟨jobId, .running, none, false, false⟩

/-- What becomes of the directory where a restore has failed. -/
inductive StagingCleanup
  | removed
  | refused

/-- What `finish_job` does. -/
inductive StagingFinish
  | recorded
  | pending
  | refused

/-- `go` is the next step of the restore, `fail` that it raises. -/
inductive StagingAction
  | start (kind : RestoreKind)
  | go
  | check (megabytes : Int) (requested : Nat)
  | fail (cancelled : Bool)
  | clean (cleanup : StagingCleanup)
  | finish (outcome : StagingFinish)
  | close (fails : Bool)
  | stop
  | replay (jobId : Nat)
  | expire (jobId : Nat)
  | remove (jobId : Nat) (rmtreeFails saveFails : Bool)
  | reconcile (stuck : Option Nat) (saveFails : Bool)

def ActiveRestore.to (a : ActiveRestore) (p : RestorePhase) : ActiveRestore := { a with phase := p }

/-- The record of a restore that has failed. -/
def StagingRecord.failed (r : StagingRecord) (cancelled : Bool) : StagingRecord :=
  { r with status := if cancelled then .cancelled else .error, verified := false }

/-- The phases inside the `try`. -/
def RestorePhase.guarded : RestorePhase → Bool
  | .preparing | .registering | .making | .measuring | .admitting | .declaring | .copying => true
  | .cleaning | .finishing | .closing => false

/-- The next phase of a restore: a snapshot asks for its bytes before it announces itself, and
announces itself with them. -/
def RestorePhase.next (kind : RestoreKind) : RestorePhase → RestorePhase
  | .preparing => if kind = .selective then .registering else .admitting
  | .registering => .making
  | .making => if kind = .selective then .measuring else .copying
  | .measuring => .admitting
  | .admitting => if kind = .selective then .declaring else .registering
  | .declaring => .copying
  | .copying => .finishing
  | .cleaning => .finishing
  | .finishing => .closing
  | .closing => .closing

namespace Staging

variable (s : Staging)

/-- The next step of a restore, where it does not raise. -/
def go (a : ActiveRestore) : Option Staging :=
  let next := a.to (a.phase.next a.kind)
  match a.phase with
  | .preparing | .measuring => some { s with active := some next }
  | .registering | .declaring =>
    some { s with active := some next, records := saveStagingRecord s.records a.record }
  | .making =>
    some { s with
      active := some { next with created := true }
      dirs := Function.update s.dirs a.record.jobId true }
  | .copying =>
    some { s with active := some { next with
      record := { a.record with status := .ready, verified := true } } }
  | .admitting | .cleaning | .finishing | .closing => none

def fail (a : ActiveRestore) (cancelled : Bool) : Staging :=
  { s with active := some { a with phase := .cleaning, record := a.record.failed cancelled } }

/-- `check_staging_budget`, and the bytes of the record. -/
def check (a : ActiveRestore) (megabytes : Int) (requested : Nat) : Staging :=
  if stagedBytes s.records + requested ≤ stagingLimit megabytes then
    { s with
      active := some { a.to (a.phase.next a.kind) with
        record := { a.record with bytes := some requested } }
      admitted := stagingLimit megabytes }
  else s.fail a false

/-- The directory of a restore that has failed. -/
def clean (a : ActiveRestore) : StagingCleanup → Staging
  | .removed => { s with
      active := some (a.to .finishing)
      dirs := if a.created then Function.update s.dirs a.record.jobId false else s.dirs }
  | .refused => { s with
      active := some { a.to .finishing with record := { a.record with
        cleanupRequired := a.record.cleanupRequired || (a.created && s.dirs a.record.jobId) } } }

def setJob (jobId : Nat) (job : StagingJob) : Staging :=
  { s with jobs := Function.update s.jobs jobId job }

def finish (a : ActiveRestore) : StagingFinish → Staging
  | .recorded =>
    { s.setJob a.record.jobId (.ended a.record) with active := some (a.to .closing) }
  | .pending => { s.setJob a.record.jobId (.pending a.record) with active := none }
  | .refused => { s with active := none }

def close (a : ActiveRestore) (fails : Bool) : Staging :=
  { s with
    active := none
    records := if fails then s.records else saveStagingRecord s.records a.record }

/-- `_remove_staging_locked`. -/
def remove (jobId : Nat) (rmtreeFails saveFails : Bool) : Option Staging :=
  match s.records.find? fun r => r.jobId = jobId, s.jobs jobId with
  | none, _ | _, .running | _, .pending _ => none
  | some r, _ =>
    if r.status = .running then none
    else if s.dirs jobId && rmtreeFails then some s
    else some { s with
      dirs := Function.update s.dirs jobId false
      records := if saveFails then s.records else s.records.filter fun r => r.jobId ≠ jobId }

/-- The result of a job that has ended well. -/
def adopted (r : StagingRecord) : Option StagingRecord :=
  match s.jobs r.jobId with
  | .ended q => if q.verified then some q else none
  | _ => none

/-- A record that says `running`, and whose job has no result. -/
def abandoned (r : StagingRecord) : Bool := r.status = .running && (s.adopted r).isNone

/-- What becomes of a record when the server starts. -/
def reconciled (r : StagingRecord) : StagingRecord :=
  if r.status = .running then
    match s.adopted r with
    | some q => { r with
        status := q.status
        bytes := q.bytes.or r.bytes
        cleanupRequired := r.cleanupRequired || q.cleanupRequired
        verified := q.verified }
    | none => { r with status := .error, verified := false }
  else r

/-- `reconcile_staging`; `stuck` names the directory that cannot be removed. -/
def reconcile (stuck : Option Nat) (saveFails : Bool) : Staging :=
  let blocks := fun r : StagingRecord => s.abandoned r && decide (stuck = some r.jobId)
  let swept := (s.records.takeWhile fun r => !blocks r).filter s.abandoned
  { s with
    dirs := fun id => s.dirs id && !(swept.any fun r => r.jobId = id)
    records := if s.records.any blocks || saveFails then s.records
      else s.records.map s.reconciled }

end Staging

/-- The step of the staging area. -/
def stagingStep (s : Staging) (action : StagingAction) : Option Staging :=
  match action, s.active with
  | .start kind, none =>
    some { s.setJob s.nextJob .running with
      nextJob := s.nextJob + 1
      active := some ⟨kind, .preparing, newRecord s.nextJob, false⟩ }
  | .go, some a => s.go a
  | .check megabytes requested, some a =>
    if a.phase = .admitting then some (s.check a megabytes requested) else none
  | .fail cancelled, some a => if a.phase.guarded then some (s.fail a cancelled) else none
  | .clean cleanup, some a => if a.phase = .cleaning then some (s.clean a cleanup) else none
  | .finish outcome, some a => if a.phase = .finishing then some (s.finish a outcome) else none
  | .close fails, some a => if a.phase = .closing then some (s.close a fails) else none
  | .stop, some _ => some { s with active := none }
  | .replay jobId, _ =>
    match s.jobs jobId with
    | .pending q => some (s.setJob jobId (.ended q))
    | _ => none
  | .expire jobId, none => some (s.setJob jobId .unknown)
  | .remove jobId rmtreeFails saveFails, none => s.remove jobId rmtreeFails saveFails
  | .reconcile stuck saveFails, none => some (s.reconcile stuck saveFails)
  | _, _ => none

/-! ### What a save keeps -/

variable {records : List StagingRecord} {record r : StagingRecord}

/-- What a record counts for. -/
def StagingRecord.share (r : StagingRecord) : Int := if r.retained then r.size else 0

theorem size_nonneg (r : StagingRecord) : 0 ≤ r.size := le_max_left _ _

theorem share_nonneg (r : StagingRecord) : 0 ≤ r.share := by
  unfold StagingRecord.share
  split
  · exact size_nonneg r
  · exact le_rfl

theorem share_le_size (r : StagingRecord) : r.share ≤ r.size := by
  unfold StagingRecord.share
  split
  · exact le_rfl
  · exact size_nonneg r

theorem stagedBytes_eq (records : List StagingRecord) :
    stagedBytes records = (records.map StagingRecord.share).sum := by
  induction records with
  | nil => rfl
  | cons r records ih =>
    unfold stagedBytes at ih ⊢
    rw [List.map_cons, List.sum_cons, ← ih, StagingRecord.share]
    by_cases hr : r.retained = true
    · rw [List.filter_cons_of_pos hr, if_pos hr, List.map_cons, List.sum_cons]
    · rw [List.filter_cons_of_neg hr, if_neg hr, zero_add]

/-- The bytes of the other records. -/
def otherBytes (records : List StagingRecord) (jobId : Nat) : Int :=
  stagedBytes (records.filter fun r => r.jobId ≠ jobId)

theorem otherBytes_le (records : List StagingRecord) (jobId : Nat) :
    otherBytes records jobId ≤ stagedBytes records := by
  unfold otherBytes
  rw [stagedBytes_eq, stagedBytes_eq]
  induction records with
  | nil => exact le_rfl
  | cons r records ih =>
    have hshare := share_nonneg r
    by_cases hr : r.jobId = jobId
    · rw [List.filter_cons_of_neg (by simpa using hr), List.map_cons, List.sum_cons]
      linarith
    · rw [List.filter_cons_of_pos (by simpa using hr), List.map_cons, List.sum_cons, List.map_cons,
        List.sum_cons]
      linarith

theorem mem_saveStagingRecord_iff_of_retained (hr : r.retained = true) :
    r ∈ saveStagingRecord records record ↔ r = record ∨ (r ∈ records ∧ r.jobId ≠ record.jobId) := by
  unfold saveStagingRecord
  dsimp only
  rw [List.mem_append, List.mem_filter, List.mem_cons, List.mem_filter]
  constructor
  · rintro (⟨hmem, -⟩ | hmem)
    · simpa using hmem
    · have hhist := (List.mem_filter.mp (List.mem_of_mem_take hmem)).2
      rw [hr] at hhist
      cases hhist
  · intro hmem
    exact .inl ⟨by simpa using hmem, hr⟩

/-- **Bounding the list loses no record that is retained.** -/
theorem mem_saveStagingRecord (hmem : r ∈ records) (hr : r.retained = true)
    (hid : r.jobId ≠ record.jobId) : r ∈ saveStagingRecord records record :=
  (mem_saveStagingRecord_iff_of_retained hr).mpr (.inr ⟨hmem, hid⟩)

theorem of_mem_saveStagingRecord (h : r ∈ saveStagingRecord records record) :
    r = record ∨ (r ∈ records ∧ r.jobId ≠ record.jobId) := by
  unfold saveStagingRecord at h
  dsimp only at h
  have hmem : r ∈ record :: records.filter fun r => r.jobId ≠ record.jobId := by
    rcases List.mem_append.mp h with h | h
    · exact (List.mem_filter.mp h).1
    · exact (List.mem_filter.mp (List.mem_of_mem_take h)).1
  simpa using hmem

theorem distinct_saveStagingRecord (h : (records.map StagingRecord.jobId).Nodup) :
    ((saveStagingRecord records record).map StagingRecord.jobId).Nodup := by
  have hall : ((record :: records.filter fun r => r.jobId ≠ record.jobId).map
      StagingRecord.jobId).Nodup := by
    rw [List.map_cons, List.nodup_cons]
    refine ⟨fun hmem => ?_, h.sublist (List.filter_sublist.map _)⟩
    obtain ⟨r, hr, hid⟩ := List.mem_map.mp hmem
    exact absurd hid (by simpa using (List.mem_filter.mp hr).2)
  have hsplit := ((List.filter_append_perm StagingRecord.retained
    (record :: records.filter fun r => r.jobId ≠ record.jobId)).map StagingRecord.jobId).nodup_iff
  unfold saveStagingRecord
  refine (hsplit.mpr hall).sublist (List.Sublist.map _ ?_)
  exact (List.Sublist.refl _).append (List.take_sublist _ _)

/-- What a save leaves: the bytes of the record and of the others. -/
theorem stagedBytes_saveStagingRecord (records : List StagingRecord) (record : StagingRecord) :
    stagedBytes (saveStagingRecord records record) =
      record.share + otherBytes records record.jobId := by
  have hcons : stagedBytes (record :: records.filter fun r => r.jobId ≠ record.jobId) =
      record.share + otherBytes records record.jobId := by
    unfold otherBytes
    rw [stagedBytes_eq, stagedBytes_eq, List.map_cons, List.sum_cons]
  rw [← hcons]
  unfold saveStagingRecord
  generalize (record :: records.filter fun r => r.jobId ≠ record.jobId) = all
  have hhistory : ((all.filter fun r => !r.retained).take maxStateItems).filter
      StagingRecord.retained = [] := by
    refine List.filter_eq_nil_iff.mpr fun r hr => ?_
    have hnot := (List.mem_filter.mp (List.mem_of_mem_take hr)).2
    rw [Bool.not_eq_true'] at hnot
    rw [hnot]
    exact Bool.false_ne_true
  unfold stagedBytes
  rw [List.filter_append, hhistory, List.append_nil, List.filter_filter]
  simp only [Bool.and_self]

/-! ### What holds in every state -/

/-- The result that a job has, or will have when it is replayed. -/
def StagingJob.result : StagingJob → Option StagingRecord
  | .unknown | .running => none
  | .pending q | .ended q => some q

/-- The list has the record of the restore as the restore has it. -/
def Saved (s : Staging) (a : ActiveRestore) : Prop := a.record ∈ s.records

/-- What is known of the restore at each point. -/
def AtPhase (s : Staging) (a : ActiveRestore) : Prop :=
  match a.phase with
  | .preparing | .registering => a.record.status = .running
  | .making | .measuring | .copying => a.record.status = .running ∧ Saved s a
  | .admitting => a.record.status = .running ∧ (a.kind = .selective → Saved s a)
  | .declaring => a.record.status = .running
  | .cleaning => a.record.status ≠ .running ∧ a.record.verified = false
  | .finishing | .closing => a.record.status ≠ .running ∧
      (s.dirs a.record.jobId = true → a.record.retained = true) ∧
      (a.record.verified = true → a.record.status = .ready ∧
        ∀ r ∈ s.records, r.jobId = a.record.jobId → r.bytes = a.record.bytes)

/-- A restore that is on. -/
structure ActiveOk (s : Staging) (a : ActiveRestore) : Prop where
  born : a.record.jobId < s.nextJob
  bytes : otherBytes s.records a.record.jobId + a.record.size ≤ s.admitted
  absent : a.created = false → s.dirs a.record.jobId = false
  result : a.phase ≠ .closing → (s.jobs a.record.jobId).result = none
  phase : AtPhase s a

structure StagingInv (s : Staging) : Prop where
  within : stagedBytes s.records ≤ s.admitted
  distinct : (s.records.map StagingRecord.jobId).Nodup
  held : ∀ id, s.dirs id = true → ∃ r ∈ s.records, r.jobId = id ∧ r.retained = true
  born : ∀ id, s.nextJob ≤ id → s.dirs id = false ∧ s.jobs id = .unknown
  results : ∀ id q, (s.jobs id).result = some q → q.verified = true → q.status = .ready ∧
    ∀ r ∈ s.records, r.jobId = id → r.status = .running → r.bytes = q.bytes
  active : ∀ a, s.active = some a → ActiveOk s a

variable {s t : Staging} {a : ActiveRestore}

theorem eq_of_jobId (h : (s.records.map StagingRecord.jobId).Nodup) {q : StagingRecord}
    (hr : r ∈ s.records) (hq : q ∈ s.records) (hid : r.jobId = q.jobId) : r = q :=
  List.inj_on_of_nodup_map h hr hq hid

/-- A step that changes the restore only. -/
theorem StagingInv.goOn (h : StagingInv s) {b : ActiveRestore}
    (hb : ActiveOk { s with active := some b } b) : StagingInv { s with active := some b } where
  within := h.within
  distinct := h.distinct
  held := h.held
  born := h.born
  results := h.results
  active a ha := by
    obtain rfl := Option.some.inj ha
    exact hb

theorem StagingInv.idle (h : StagingInv s) : StagingInv { s with active := none } where
  within := h.within
  distinct := h.distinct
  held := h.held
  born := h.born
  results := h.results
  active a ha := by cases ha

/-- A save of the record of the restore, which goes on from there. -/
theorem StagingInv.save (h : StagingInv s) (hok : ActiveOk s a) {active : Option ActiveRestore}
    (hdir : s.dirs a.record.jobId = true → a.record.retained = true)
    (hresult : a.record.status = .running → (s.jobs a.record.jobId).result = none)
    (hactive : ∀ b, active = some b → ActiveOk
      { s with active := active, records := saveStagingRecord s.records a.record } b) :
    StagingInv { s with active := active, records := saveStagingRecord s.records a.record } where
  within := by
    have hshare := share_le_size a.record
    have hbytes := hok.bytes
    rw [stagedBytes_saveStagingRecord]
    dsimp only
    linarith
  distinct := distinct_saveStagingRecord h.distinct
  held id hid := by
    obtain ⟨r, hr, hrid, hretained⟩ := h.held id hid
    by_cases hown : r.jobId = a.record.jobId
    · have hretained := hdir (by rw [← hown, hrid]; exact hid)
      exact ⟨a.record, (mem_saveStagingRecord_iff_of_retained hretained).mpr (.inl rfl),
        hown.symm.trans hrid, hretained⟩
    · exact ⟨r, mem_saveStagingRecord hr hretained hown, hrid, hretained⟩
  born := h.born
  results id q hq hverified := by
    refine ⟨(h.results id q hq hverified).1, fun r hr hrid hrunning => ?_⟩
    rcases of_mem_saveStagingRecord hr with rfl | ⟨hr, -⟩
    · rw [hrid, hq] at hresult
      cases hresult hrunning
    · exact (h.results id q hq hverified).2 r hr hrid hrunning
  active := hactive

theorem retained_of_running (h : r.status = .running) : r.retained = true := by
  unfold StagingRecord.retained
  rw [h]
  rfl

theorem otherBytes_add_share (h : (records.map StagingRecord.jobId).Nodup) (hr : r ∈ records) :
    otherBytes records r.jobId + r.share = stagedBytes records := by
  unfold otherBytes
  rw [stagedBytes_eq, stagedBytes_eq]
  induction records with
  | nil => cases hr
  | cons q records ih =>
    rw [List.map_cons, List.nodup_cons] at h
    rw [List.map_cons, List.sum_cons]
    rcases List.mem_cons.mp hr with rfl | hr
    · have hrest : records.filter (fun q => q.jobId ≠ r.jobId) = records := by
        refine List.filter_eq_self.mpr fun q hq => decide_eq_true fun hid => h.1 ?_
        exact List.mem_map.mpr ⟨q, hq, hid⟩
      rw [List.filter_cons_of_neg (by simp), hrest]
      exact add_comm _ _
    · have hne : q.jobId ≠ r.jobId := fun hid => h.1 (List.mem_map.mpr ⟨r, hr, hid.symm⟩)
      rw [List.filter_cons_of_pos (by simpa using hne), List.map_cons, List.sum_cons, add_assoc,
        ih h.2 hr]

/-- A save of a record that is retained leaves the bytes of the others. -/
theorem otherBytes_saveStagingRecord (h : (records.map StagingRecord.jobId).Nodup)
    (hrecord : record.retained = true) :
    otherBytes (saveStagingRecord records record) record.jobId =
      otherBytes records record.jobId := by
  have hmem : record ∈ saveStagingRecord records record :=
    (mem_saveStagingRecord_iff_of_retained hrecord).mpr (.inl rfl)
  have hsum := otherBytes_add_share (distinct_saveStagingRecord h) hmem
  rw [stagedBytes_saveStagingRecord] at hsum
  linarith

/-! ### The steps -/

/-- A failure inside the `try`. -/
theorem StagingInv.fail (h : StagingInv s) (ha : s.active = some a)
    (hguarded : a.phase.guarded = true) (cancelled : Bool) : StagingInv (s.fail a cancelled) := by
  have hok := h.active a ha
  refine h.goOn ⟨hok.born, hok.bytes, hok.absent, fun _ => hok.result fun hclosing => ?_, ?_, rfl⟩
  · rw [hclosing] at hguarded
    cases hguarded
  · cases cancelled <;> exact nofun

theorem StagingInv.check (h : StagingInv s) (ha : s.active = some a) (hphase : a.phase = .admitting)
    (megabytes : Int) (requested : Nat) : StagingInv (s.check a megabytes requested) := by
  have hok := h.active a ha
  unfold Staging.check
  split
  · rename_i hroom
    have hother := otherBytes_le s.records a.record.jobId
    have hsize : (max 0 ((requested : Int))) = requested := max_eq_right (Int.natCast_nonneg _)
    have hresult := hok.result (by rw [hphase]; exact nofun)
    obtain ⟨hrunning, -⟩ : a.record.status = .running ∧ (a.kind = .selective → Saved s a) := by
      have hat := hok.phase
      unfold AtPhase at hat
      rw [hphase] at hat
      exact hat
    refine ⟨?_, h.distinct, h.held, h.born, h.results, fun b hb => ?_⟩
    · have hrequested : (0 : Int) ≤ requested := Int.natCast_nonneg _
      dsimp only
      linarith
    · obtain rfl := Option.some.inj hb
      refine ⟨hok.born, ?_, hok.absent, fun _ => hresult, ?_⟩
      · show otherBytes s.records a.record.jobId + max 0 (requested : Int) ≤ stagingLimit megabytes
        rw [hsize]
        linarith
      · unfold AtPhase ActiveRestore.to
        dsimp only
        rw [hphase]
        cases hkind : a.kind with
        | selective => exact hrunning
        | snapshot => exact hrunning
  · exact h.fail ha (by rw [hphase]; rfl) false

theorem StagingInv.clean (h : StagingInv s) (ha : s.active = some a) (hphase : a.phase = .cleaning)
    (cleanup : StagingCleanup) : StagingInv (s.clean a cleanup) := by
  have hok := h.active a ha
  have hresult := hok.result (by rw [hphase]; exact nofun)
  obtain ⟨hstatus, hverified⟩ : a.record.status ≠ .running ∧ a.record.verified = false := by
    have hat := hok.phase
    unfold AtPhase at hat
    rw [hphase] at hat
    exact hat
  cases cleanup with
  | removed =>
    unfold Staging.clean
    dsimp only
    have hgone : (if a.created then Function.update s.dirs a.record.jobId false else s.dirs)
        a.record.jobId = false := by
      split
      · exact Function.update_self _ _ _
      · rename_i hcreated
        exact hok.absent (Bool.not_eq_true _ ▸ hcreated)
    have hless : ∀ id, (if a.created then Function.update s.dirs a.record.jobId false else s.dirs)
        id = true → s.dirs id = true := by
      intro id
      split
      · rcases eq_or_ne id a.record.jobId with rfl | hne
        · rw [Function.update_self]
          exact fun hfalse => absurd hfalse Bool.false_ne_true
        · rw [Function.update_of_ne hne]
          exact fun hid => hid
      · exact fun hid => hid
    refine ⟨h.within, h.distinct, fun id hid => h.held id (hless id hid), fun id hid => ⟨?_, ?_⟩,
      h.results, fun b hb => ?_⟩
    · by_contra hdir
      have hdir := hless id (Bool.not_eq_false _ ▸ hdir)
      rw [(h.born id hid).1] at hdir
      cases hdir
    · exact (h.born id hid).2
    · obtain rfl := Option.some.inj hb
      exact ⟨hok.born, hok.bytes, fun _ => hgone, fun _ => hresult, hstatus,
        fun hdir => absurd (hgone.symm.trans hdir) Bool.false_ne_true,
        fun htrue => absurd (hverified.symm.trans htrue) Bool.false_ne_true⟩
  | refused =>
    refine h.goOn ⟨hok.born, hok.bytes, hok.absent, fun _ => hresult, hstatus, fun hdir => ?_,
      fun htrue => absurd (hverified.symm.trans htrue) Bool.false_ne_true⟩
    have hcreated : a.created = true := by
      by_contra hnot
      rw [hok.absent (Bool.not_eq_true _ ▸ hnot)] at hdir
      cases hdir
    unfold StagingRecord.retained
    dsimp only
    rw [hcreated, hdir, Bool.and_self, Bool.or_true, Bool.or_true]

/-- The directory of a restore whose record stands in the list. -/
theorem StagingInv.make (h : StagingInv s) (hok : ActiveOk s a)
    (hrunning : a.record.status = .running) (hsaved : Saved s a)
    (hresult : (s.jobs a.record.jobId).result = none) {p : RestorePhase}
    (hp : p = .measuring ∨ p = .copying) :
    StagingInv { s with
      active := some { a.to p with created := true }
      dirs := Function.update s.dirs a.record.jobId true } where
  within := h.within
  distinct := h.distinct
  held id hid := by
    rcases eq_or_ne id a.record.jobId with rfl | hne
    · exact ⟨a.record, hsaved, rfl, retained_of_running hrunning⟩
    · exact h.held id ((Function.update_of_ne hne _ _).symm.trans hid)
  born id hid := by
    have hne : id ≠ a.record.jobId := fun hsame => absurd hok.born (not_lt.mpr (hsame ▸ hid))
    exact ⟨(Function.update_of_ne hne _ _).trans (h.born id hid).1, (h.born id hid).2⟩
  results := h.results
  active b hb := by
    obtain rfl := Option.some.inj hb
    refine ⟨hok.born, hok.bytes, fun hcreated => absurd hcreated.symm Bool.false_ne_true,
      fun _ => hresult, ?_⟩
    rcases hp with rfl | rfl
    · exact ⟨hrunning, hsaved⟩
    · exact ⟨hrunning, hsaved⟩

/-- A save of the record of a restore that runs. -/
theorem StagingInv.saveRunning (h : StagingInv s) (hok : ActiveOk s a)
    (hrunning : a.record.status = .running) (hresult : (s.jobs a.record.jobId).result = none)
    {p : RestorePhase} (hp : p = .making ∨ p = .copying) :
    StagingInv { s with
      active := some (a.to p), records := saveStagingRecord s.records a.record } := by
  have hretained := retained_of_running hrunning
  refine h.save hok (fun _ => hretained) (fun _ => hresult) fun b hb => ?_
  obtain rfl := Option.some.inj hb
  have hsaved : a.record ∈ saveStagingRecord s.records a.record :=
    (mem_saveStagingRecord_iff_of_retained hretained).mpr (.inl rfl)
  refine ⟨hok.born, ?_, hok.absent, fun _ => hresult, ?_⟩
  · have hbytes := hok.bytes
    rw [← otherBytes_saveStagingRecord h.distinct hretained] at hbytes
    exact hbytes
  · rcases hp with rfl | rfl
    · exact ⟨hrunning, hsaved⟩
    · exact ⟨hrunning, hsaved⟩

theorem StagingInv.go (h : StagingInv s) (ha : s.active = some a) (ht : s.go a = some t) :
    StagingInv t := by
  have hok := h.active a ha
  have hat := hok.phase
  have hresult := hok.result
  unfold Staging.go at ht
  unfold AtPhase at hat
  dsimp only at ht
  cases hphase : a.phase with
  | preparing =>
    rw [hphase] at ht hat hresult
    obtain rfl := Option.some.inj ht
    refine h.goOn ⟨hok.born, hok.bytes, hok.absent, fun _ => hresult nofun, ?_⟩
    cases hkind : a.kind with
    | selective => exact hat
    | snapshot => exact ⟨hat, fun hselective => by cases hkind.symm.trans hselective⟩
  | registering =>
    rw [hphase] at ht hat hresult
    obtain rfl := Option.some.inj ht
    exact h.saveRunning hok hat (hresult nofun) (.inl rfl)
  | making =>
    rw [hphase] at ht hat hresult
    obtain rfl := Option.some.inj ht
    refine h.make hok hat.1 hat.2 (hresult nofun) ?_
    cases a.kind with
    | selective => exact .inl rfl
    | snapshot => exact .inr rfl
  | measuring =>
    rw [hphase] at ht hat hresult
    obtain rfl := Option.some.inj ht
    exact h.goOn ⟨hok.born, hok.bytes, hok.absent, fun _ => hresult nofun, hat.1, fun _ => hat.2⟩
  | declaring =>
    rw [hphase] at ht hat hresult
    obtain rfl := Option.some.inj ht
    exact h.saveRunning hok hat (hresult nofun) (.inr rfl)
  | copying =>
    rw [hphase] at ht hat hresult
    obtain rfl := Option.some.inj ht
    refine h.goOn ⟨hok.born, hok.bytes, hok.absent, fun _ => hresult nofun, nofun, fun _ => rfl,
      fun _ => ⟨rfl, fun r hr hid => ?_⟩⟩
    rw [eq_of_jobId h.distinct hr hat.2 hid]
  | admitting | cleaning | finishing | closing =>
    rw [hphase] at ht
    cases ht

theorem jobs_setJob_self (s : Staging) (id : Nat) (job : StagingJob) :
    (s.setJob id job).jobs id = job := Function.update_self _ _ _

theorem jobs_setJob_ne (s : Staging) {id other : Nat} (job : StagingJob) (h : other ≠ id) :
    (s.setJob id job).jobs other = s.jobs other := Function.update_of_ne h _ _

/-- What a job comes to changes neither the list nor the directories. -/
theorem StagingInv.setJob (h : StagingInv s) {id : Nat} {job : StagingJob} (hborn : id < s.nextJob)
    (hresult : ∀ q, job.result = some q → q.verified = true → q.status = .ready ∧
      ∀ r ∈ s.records, r.jobId = id → r.status = .running → r.bytes = q.bytes)
    (active : Option ActiveRestore)
    (hactive : ∀ b, active = some b → ActiveOk { s.setJob id job with active := active } b) :
    StagingInv { s.setJob id job with active := active } where
  within := h.within
  distinct := h.distinct
  held := h.held
  born other hother := by
    have hne : other ≠ id := fun hsame => absurd hborn (not_lt.mpr (hsame ▸ hother))
    exact ⟨(h.born other hother).1, (Function.update_of_ne hne _ _).trans (h.born other hother).2⟩
  results other q hq := by
    rcases eq_or_ne other id with rfl | hne
    · exact hresult q ((congrArg StagingJob.result (jobs_setJob_self s other job)).symm.trans hq)
    · exact h.results other q
        ((congrArg StagingJob.result (jobs_setJob_ne s job hne)).symm.trans hq)
  active := hactive

theorem StagingInv.finish (h : StagingInv s) (ha : s.active = some a)
    (hphase : a.phase = .finishing) (outcome : StagingFinish) :
    StagingInv (s.finish a outcome) := by
  have hok := h.active a ha
  have hat := hok.phase
  unfold AtPhase at hat
  rw [hphase] at hat
  obtain ⟨hstatus, hdir, hverified⟩ := hat
  have hresult : a.record.verified = true → a.record.status = .ready ∧
      ∀ r ∈ s.records, r.jobId = a.record.jobId → r.status = .running →
        r.bytes = a.record.bytes :=
    fun htrue => ⟨(hverified htrue).1, fun r hr hid _ => (hverified htrue).2 r hr hid⟩
  cases outcome with
  | recorded =>
    refine h.setJob hok.born (fun q hq => ?_) _ fun b hb => ?_
    · obtain rfl := Option.some.inj hq
      exact hresult
    · obtain rfl := Option.some.inj hb
      exact ⟨hok.born, hok.bytes, hok.absent, fun hnot => absurd rfl hnot, hstatus, hdir,
        hverified⟩
  | pending =>
    refine h.setJob hok.born (fun q hq => ?_) _ fun b hb => absurd hb.symm (Option.some_ne_none b)
    obtain rfl := Option.some.inj hq
    exact hresult
  | refused => exact h.idle

theorem StagingInv.close (h : StagingInv s) (ha : s.active = some a) (hphase : a.phase = .closing)
    (fails : Bool) : StagingInv (s.close a fails) := by
  have hok := h.active a ha
  have hat := hok.phase
  unfold AtPhase at hat
  rw [hphase] at hat
  cases fails with
  | true => exact h.idle
  | false =>
    exact h.save hok hat.2.1 (fun hrunning => absurd hrunning hat.1)
      fun b hb => absurd hb.symm (Option.some_ne_none b)

theorem StagingInv.start (h : StagingInv s) (kind : RestoreKind) :
    StagingInv { s.setJob s.nextJob .running with
      nextJob := s.nextJob + 1
      active := some ⟨kind, .preparing, newRecord s.nextJob, false⟩ } where
  within := h.within
  distinct := h.distinct
  held := h.held
  born id hid := by
    have hne : id ≠ s.nextJob := Nat.ne_of_gt hid
    have hborn := h.born id (Nat.le_of_succ_le hid)
    exact ⟨hborn.1, (Function.update_of_ne hne _ _).trans hborn.2⟩
  results id q hq := by
    rcases eq_or_ne id s.nextJob with rfl | hne
    · cases (congrArg StagingJob.result (jobs_setJob_self s s.nextJob .running)).symm.trans hq
    · exact h.results id q
        ((congrArg StagingJob.result (jobs_setJob_ne s .running hne)).symm.trans hq)
  active b hb := by
    obtain rfl := Option.some.inj hb
    have hother := otherBytes_le s.records s.nextJob
    have hwithin := h.within
    refine ⟨Nat.lt_succ_self _, ?_, fun _ => (h.born _ le_rfl).1, fun _ => ?_, rfl⟩
    · show otherBytes s.records s.nextJob + 0 ≤ s.admitted
      linarith
    · exact congrArg StagingJob.result (jobs_setJob_self s s.nextJob .running)

/-- A result that was pending stands in the row of its job. -/
theorem StagingInv.replay (h : StagingInv s) {id : Nat} {q : StagingRecord}
    (hjob : s.jobs id = .pending q) : StagingInv (s.setJob id (.ended q)) := by
  have hborn : id < s.nextJob := by
    by_contra hid
    rw [(h.born id (not_lt.mp hid)).2] at hjob
    cases hjob
  have hresult : ∀ other, ((s.setJob id (.ended q)).jobs other).result =
      (s.jobs other).result := by
    intro other
    rcases eq_or_ne other id with rfl | hne
    · rw [jobs_setJob_self, hjob]
      rfl
    · rw [jobs_setJob_ne s _ hne]
  refine h.setJob hborn (fun q' hq' => ?_) s.active fun b hb => ?_
  · obtain rfl := Option.some.inj hq'
    exact h.results id q (by rw [hjob]; rfl)
  · have hok := h.active b hb
    exact ⟨hok.born, hok.bytes, hok.absent, fun hphase => (hresult _).trans (hok.result hphase),
      hok.phase⟩

theorem StagingInv.expire (h : StagingInv s) (hactive : s.active = none) (id : Nat) :
    StagingInv (s.setJob id .unknown) where
  within := h.within
  distinct := h.distinct
  held := h.held
  born other hother := by
    refine ⟨(h.born other hother).1, ?_⟩
    rcases eq_or_ne other id with rfl | hne
    · exact jobs_setJob_self s other _
    · exact (jobs_setJob_ne s _ hne).trans (h.born other hother).2
  results other q hq := by
    rcases eq_or_ne other id with rfl | hne
    · rw [jobs_setJob_self] at hq
      cases hq
    · rw [jobs_setJob_ne s _ hne] at hq
      exact h.results other q hq
  active b hb := by cases hactive.symm.trans hb

theorem StagingInv.remove (h : StagingInv s) (hactive : s.active = none) {id : Nat}
    {rmtreeFails saveFails : Bool} (ht : s.remove id rmtreeFails saveFails = some t) :
    StagingInv t := by
  unfold Staging.remove at ht
  split at ht
  · cases ht
  · cases ht
  · cases ht
  · split at ht
    · cases ht
    · split at ht
      · obtain rfl := Option.some.inj ht
        exact h
      · obtain rfl := Option.some.inj ht
        have hdirs : ∀ other, Function.update s.dirs id false other = true →
            other ≠ id ∧ s.dirs other = true := by
          intro other hother
          rcases eq_or_ne other id with rfl | hne
          · rw [Function.update_self] at hother
            cases hother
          · exact ⟨hne, (Function.update_of_ne hne _ _).symm.trans hother⟩
        have hborn : ∀ other, s.nextJob ≤ other →
            Function.update s.dirs id false other = false ∧ s.jobs other = .unknown := by
          intro other hother
          refine ⟨?_, (h.born other hother).2⟩
          by_contra hdir
          have hold := (hdirs other (Bool.not_eq_false _ ▸ hdir)).2
          rw [(h.born other hother).1] at hold
          cases hold
        cases saveFails with
        | true =>
          exact ⟨h.within, h.distinct, fun other hother => h.held other (hdirs other hother).2,
            hborn, h.results, fun b hb => by cases hactive.symm.trans hb⟩
        | false =>
          refine ⟨(otherBytes_le s.records id).trans h.within,
            h.distinct.sublist (List.filter_sublist.map _), fun other hother => ?_, hborn,
            fun other q hq hverified => ?_, fun b hb => by cases hactive.symm.trans hb⟩
          · obtain ⟨hne, hdir⟩ := hdirs other hother
            obtain ⟨r, hr, rfl, hretained⟩ := h.held other hdir
            exact ⟨r, List.mem_filter.mpr ⟨hr, decide_eq_true hne⟩, rfl, hretained⟩
          · refine ⟨(h.results other q hq hverified).1, fun r hr => ?_⟩
            exact (h.results other q hq hverified).2 r (List.mem_filter.mp hr).1

/-! ### The start of the server -/

theorem jobId_reconciled (s : Staging) (r : StagingRecord) :
    (s.reconciled r).jobId = r.jobId := by
  unfold Staging.reconciled
  split
  · split <;> rfl
  · rfl

theorem job_of_adopted {q : StagingRecord} (hq : s.adopted r = some q) :
    s.jobs r.jobId = .ended q ∧ q.verified = true := by
  unfold Staging.adopted at hq
  split at hq
  · rename_i q' hjob
    obtain ⟨hverified, hq⟩ := Option.ite_none_right_eq_some.mp hq
    obtain rfl := Option.some.inj hq
    exact ⟨hjob, hverified⟩
  · cases hq

/-- A record that says `running` is adopted, or its directory goes and it says `error`. -/
theorem StagingInv.reconciled_cases (h : StagingInv s) (hr : r ∈ s.records)
    (hrunning : r.status = .running) :
    (s.abandoned r = false ∧ (s.reconciled r).status = .ready ∧ (s.reconciled r).size = r.size) ∨
    (s.abandoned r = true ∧ (s.reconciled r).status = .error ∧ (s.reconciled r).size = r.size) := by
  unfold Staging.reconciled Staging.abandoned
  rw [if_pos hrunning, hrunning]
  cases hq : s.adopted r with
  | none => exact .inr ⟨rfl, rfl, rfl⟩
  | some q =>
    obtain ⟨hjob, hverified⟩ := job_of_adopted hq
    obtain ⟨hready, hbytes⟩ := h.results r.jobId q (by rw [hjob]; rfl) hverified
    refine .inl ⟨rfl, hready, ?_⟩
    unfold StagingRecord.size
    dsimp only
    rw [hbytes r hr rfl hrunning, Option.or_self]

theorem StagingInv.share_reconciled (h : StagingInv s) (hr : r ∈ s.records) :
    (s.reconciled r).share ≤ r.share := by
  by_cases hrunning : r.status = .running
  · have hshare : r.share = r.size := if_pos (retained_of_running hrunning)
    rw [hshare]
    rcases h.reconciled_cases hr hrunning with ⟨-, -, hsize⟩ | ⟨-, -, hsize⟩
    · rw [← hsize]
      exact share_le_size _
    · rw [← hsize]
      exact share_le_size _
  · unfold Staging.reconciled
    rw [if_neg hrunning]

theorem StagingInv.reconcile (h : StagingInv s) (hactive : s.active = none) (stuck : Option Nat)
    (saveFails : Bool) : StagingInv (s.reconcile stuck saveFails) := by
  unfold Staging.reconcile
  dsimp only
  split
  · refine ⟨h.within, h.distinct, fun id hid => h.held id ((Bool.and_eq_true _ _).mp hid).1,
      fun id hid => ⟨?_, (h.born id hid).2⟩, h.results, fun b hb => by cases hactive.symm.trans hb⟩
    dsimp only
    rw [(h.born id hid).1, Bool.false_and]
  · rename_i hall
    obtain ⟨hnone, -⟩ := not_or.mp fun hor => hall ((Bool.or_eq_true _ _).mpr hor)
    have hwhole : s.records.takeWhile (fun r => !(s.abandoned r && decide (stuck = some r.jobId))) =
        s.records := by
      refine List.takeWhile_eq_self_iff.mpr fun r hr => ?_
      rw [Bool.not_eq_true']
      by_contra hblocks
      exact hnone (List.any_eq_true.mpr ⟨r, hr, Bool.not_eq_false _ ▸ hblocks⟩)
    refine ⟨?_, ?_, fun id hid => ?_, fun id hid => ⟨?_, (h.born id hid).2⟩,
      fun id q hq hverified => ⟨(h.results id q hq hverified).1, fun r hr _ hrunning => ?_⟩,
      fun b hb => by cases hactive.symm.trans hb⟩
    · refine le_trans ?_ h.within
      dsimp only
      rw [stagedBytes_eq, stagedBytes_eq, List.map_map]
      exact List.sum_le_sum fun r hr => h.share_reconciled hr
    · dsimp only
      rw [List.map_map, show StagingRecord.jobId ∘ s.reconciled = StagingRecord.jobId from
        funext fun r => jobId_reconciled s r]
      exact h.distinct
    · obtain ⟨hdir, hswept⟩ := (Bool.and_eq_true _ _).mp hid
      obtain ⟨r, hr, rfl, hretained⟩ := h.held id hdir
      refine ⟨s.reconciled r, List.mem_map_of_mem hr, jobId_reconciled s r, ?_⟩
      by_cases hrunning : r.status = .running
      · rcases h.reconciled_cases hr hrunning with ⟨-, hready, -⟩ | ⟨habandoned, -⟩
        · unfold StagingRecord.retained
          rw [hready]
          rfl
        · rw [hwhole, Bool.not_eq_true'] at hswept
          have hmem : r ∈ s.records.filter s.abandoned := List.mem_filter.mpr ⟨hr, habandoned⟩
          have hany : (s.records.filter s.abandoned).any (fun q => q.jobId = r.jobId) = true :=
            List.any_eq_true.mpr ⟨r, hmem, decide_eq_true rfl⟩
          cases hswept.symm.trans hany
      · unfold Staging.reconciled
        rw [if_neg hrunning]
        exact hretained
    · dsimp only
      rw [(h.born id hid).1, Bool.false_and]
    · obtain ⟨p, hp, rfl⟩ := List.mem_map.mp hr
      by_cases hold : p.status = .running
      · rcases h.reconciled_cases hp hold with ⟨-, hready, -⟩ | ⟨-, herror, -⟩
        · cases hready.symm.trans hrunning
        · cases herror.symm.trans hrunning
      · unfold Staging.reconciled at hrunning
        rw [if_neg hold] at hrunning
        exact absurd hrunning hold

/-- **The step.** -/
theorem StagingInv.step {action : StagingAction} (h : StagingInv s)
    (ht : stagingStep s action = some t) : StagingInv t := by
  unfold stagingStep at ht
  split at ht
  · obtain rfl := Option.some.inj ht
    exact h.start _
  · rename_i a ha
    exact h.go ha ht
  · rename_i megabytes requested a ha
    obtain ⟨hphase, ht⟩ := Option.ite_none_right_eq_some.mp ht
    obtain rfl := Option.some.inj ht
    exact h.check ha hphase _ _
  · rename_i cancelled a ha
    obtain ⟨hguarded, ht⟩ := Option.ite_none_right_eq_some.mp ht
    obtain rfl := Option.some.inj ht
    exact h.fail ha hguarded _
  · rename_i cleanup a ha
    obtain ⟨hphase, ht⟩ := Option.ite_none_right_eq_some.mp ht
    obtain rfl := Option.some.inj ht
    exact h.clean ha hphase _
  · rename_i outcome a ha
    obtain ⟨hphase, ht⟩ := Option.ite_none_right_eq_some.mp ht
    obtain rfl := Option.some.inj ht
    exact h.finish ha hphase _
  · rename_i fails a ha
    obtain ⟨hphase, ht⟩ := Option.ite_none_right_eq_some.mp ht
    obtain rfl := Option.some.inj ht
    exact h.close ha hphase _
  · obtain rfl := Option.some.inj ht
    exact h.idle
  · split at ht
    · rename_i q hjob
      obtain rfl := Option.some.inj ht
      exact h.replay hjob
    · cases ht
  · rename_i id hactive
    obtain rfl := Option.some.inj ht
    exact h.expire hactive _
  · rename_i hactive
    exact h.remove hactive ht
  · rename_i hactive
    obtain rfl := Option.some.inj ht
    exact h.reconcile hactive _ _
  · cases ht

/-! ### Runs -/

theorem stagingInv_init : StagingInv .init where
  within := le_rfl
  distinct := List.nodup_nil
  held id hid := by cases hid
  born id _ := ⟨rfl, rfl⟩
  results id q hq := by cases hq
  active a ha := by cases ha

theorem StagingInv.run {actions : List StagingAction}
    (hrun : Run (Steps stagingStep) .init actions s) : StagingInv s :=
  hrun.preserves StagingInv (fun _ _ _ h ht => h.step ht) stagingInv_init

/-- The limit that is kept changes where an admission goes through. -/
theorem admitted_of_step {action : StagingAction} (ht : stagingStep s action = some t) :
    t.admitted = s.admitted ∨ ∃ megabytes, ∃ requested : Nat, action = .check megabytes requested ∧
      stagedBytes s.records + requested ≤ stagingLimit megabytes ∧
      t.admitted = stagingLimit megabytes := by
  unfold stagingStep at ht
  split at ht
  · obtain rfl := Option.some.inj ht
    exact .inl rfl
  · rename_i a _
    refine .inl ?_
    unfold Staging.go at ht
    dsimp only at ht
    split at ht <;> cases ht <;> rfl
  · rename_i megabytes requested a _
    obtain ⟨-, ht⟩ := Option.ite_none_right_eq_some.mp ht
    obtain rfl := Option.some.inj ht
    unfold Staging.check
    split
    · rename_i hroom
      exact .inr ⟨megabytes, requested, rfl, hroom, rfl⟩
    · exact .inl rfl
  · obtain ⟨-, ht⟩ := Option.ite_none_right_eq_some.mp ht
    obtain rfl := Option.some.inj ht
    exact .inl rfl
  · rename_i cleanup a _
    obtain ⟨-, ht⟩ := Option.ite_none_right_eq_some.mp ht
    obtain rfl := Option.some.inj ht
    cases cleanup <;> exact .inl rfl
  · rename_i outcome a _
    obtain ⟨-, ht⟩ := Option.ite_none_right_eq_some.mp ht
    obtain rfl := Option.some.inj ht
    cases outcome <;> exact .inl rfl
  · obtain ⟨-, ht⟩ := Option.ite_none_right_eq_some.mp ht
    obtain rfl := Option.some.inj ht
    exact .inl rfl
  · obtain rfl := Option.some.inj ht
    exact .inl rfl
  · split at ht <;> cases ht
    exact .inl rfl
  · obtain rfl := Option.some.inj ht
    exact .inl rfl
  · refine .inl ?_
    unfold Staging.remove at ht
    split at ht
    · cases ht
    · cases ht
    · cases ht
    · split at ht
      · cases ht
      · split at ht <;> cases ht <;> rfl
  · obtain rfl := Option.some.inj ht
    exact .inl rfl
  · cases ht

/-- The limit that is kept is that of an admission of the run, which had room. -/
theorem admitted_of_run {actions : List StagingAction}
    (hrun : Run (Steps stagingStep) .init actions s) :
    s.admitted = 0 ∨ ∃ before megabytes after u, ∃ requested : Nat,
      actions = before ++ .check megabytes requested :: after ∧
      Run (Steps stagingStep) .init before u ∧
      stagedBytes u.records + requested ≤ stagingLimit megabytes ∧
      s.admitted = stagingLimit megabytes := by
  induction actions using List.reverseRecOn generalizing s with
  | nil =>
    cases hrun
    exact .inl rfl
  | append_singleton actions action ih =>
    obtain ⟨u, hbefore, hlast⟩ := hrun.split
    obtain ⟨hstep, hend⟩ : ∃ h : stagingStep u action = some s, True := by
      cases hlast with
      | cons hstep hrest =>
        cases hrest
        exact ⟨hstep, trivial⟩
    rcases admitted_of_step hstep with hsame | ⟨megabytes, requested, rfl, hroom, hadmitted⟩
    · rw [hsame]
      rcases ih hbefore with hzero | ⟨before, megabytes, after, v, requested, rfl, hv, hroom, hu⟩
      · exact .inl hzero
      · exact .inr ⟨before, megabytes, after ++ [action], v, requested, by simp, hv, hroom, hu⟩
    · exact .inr ⟨actions, megabytes, [], u, requested, rfl, hbefore, hroom, hadmitted⟩

/-- **The staging area stays within its limit, and every directory has a record in its list.** -/
theorem staging_run {actions : List StagingAction}
    (hrun : Run (Steps stagingStep) .init actions s) :
    stagedBytes s.records ≤ s.admitted ∧
    (∀ a, s.active = some a →
      otherBytes s.records a.record.jobId + a.record.size ≤ s.admitted) ∧
    (s.admitted = 0 ∨ ∃ before megabytes after u, ∃ requested : Nat,
      actions = before ++ .check megabytes requested :: after ∧
      Run (Steps stagingStep) .init before u ∧
      stagedBytes u.records + requested ≤ stagingLimit megabytes ∧
      s.admitted = stagingLimit megabytes) ∧
    (∀ id, s.dirs id = true → ∃ r ∈ s.records, r.jobId = id ∧ r.retained = true) ∧
    ∀ record, ∀ r ∈ s.records, r.retained = true → r.jobId ≠ record.jobId →
      r ∈ saveStagingRecord s.records record := by
  have h := StagingInv.run hrun
  refine ⟨h.within, fun a ha => (h.active a ha).bytes, admitted_of_run hrun, h.held, ?_⟩
  intro record r hr hretained hid
  exact mem_saveStagingRecord hr hretained hid

/-- A selective restore that ends well, and a snapshot whose directory cannot be removed. -/
def stagedRun : List StagingAction :=
  [.start .selective, .go, .go, .go, .go, .check 2 1000, .go, .go, .finish .recorded, .close false,
    .start .snapshot, .go, .check 1 500, .go, .go, .fail false, .clean .refused, .finish .recorded,
    .close false]

theorem staging_run_cleanup : ∃ s, runAll stagingStep .init stagedRun = some s ∧
    stagedBytes s.records = 1500 ∧ s.admitted = 1048576 ∧ s.dirs 1 = true ∧
    stagedBytes s.records ≤ s.admitted ∧
    ∀ id, s.dirs id = true → ∃ r ∈ s.records, r.jobId = id ∧ r.retained = true := by
  obtain ⟨s, hs⟩ : ∃ s, runAll stagingStep .init stagedRun = some s := ⟨_, rfl⟩
  have hvalues : (runAll stagingStep .init stagedRun).map (fun s =>
      (stagedBytes s.records, s.admitted, s.dirs 1)) = some (1500, 1048576, true) := by
    decide +kernel
  rw [hs] at hvalues
  obtain ⟨hbytes, hadmitted, hdir⟩ : stagedBytes s.records = 1500 ∧ s.admitted = 1048576 ∧
      s.dirs 1 = true := by simpa using hvalues
  obtain ⟨hwithin, -, -, hheld, -⟩ := staging_run (run_of_runAll hs)
  exact ⟨s, hs, hbytes, hadmitted, hdir, hwithin, hheld⟩

end RcloneSync
