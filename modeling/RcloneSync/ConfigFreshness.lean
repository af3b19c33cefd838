/-
RcloneSync/ConfigFreshness.lean

When a configuration is read again (config_store.py), step by step.

A read looks at the time of the file and reads it again if it is not the time that is remembered.
It takes no lock of the file, so the file may be replaced between any two of its steps.  A write
holds the lock from its first read to the end; it replaces the file, and then looks at its time.

What is read is what the file held when its time was looked at, or later, as long as a time
stands for one content.  A write in the same tick as the one before it has its time, and an object
that remembers that time does not read the file again.

`read_fresh`: where no write takes the time that another object remembers for another content,
every read gives a configuration that was committed at its start or later.
-/
import RcloneSync.ConfigStore

namespace RcloneSync

open Py Runs

/-! ### The calls, step by step -/

/-- A call that reads; `set` begins as they do. -/
inductive ReadCall
  | get (keys : List String) (fallback : Value)
  | snapshot
  | revision
  | set (keys : List String) (value : Value)
  deriving DecidableEq

/-- How far `_maybe_reload_unlocked` has come. -/
inductive ReadStage
  | check
  | stat
  | openFile
  | opened (handle : Option StoredFile)
  | ready
  deriving DecidableEq

/-- Where an object stands: its constructor has opened the file; a read goes on that began when so
many writes were committed; a write goes on, of `replace` or `update` or of `save`; the file has
been replaced by a text. -/
inductive ConfigPhase
  | creating (handle : Option StoredFile)
  | idle
  | reading (call : ReadCall) (stage : ReadStage) (floor : Nat)
  | saving (rewritten : Bool)
  | committed (raw : String)
  deriving DecidableEq

structure ConfigProcess where
  object : ConfigObject
  phase : ConfigPhase
  deriving DecidableEq

/-- The file, with what it held after each committed write, its lock, and the objects. -/
structure SharedConfig where
  count : Nat
  version : Nat → Option StoredFile
  lock : Option Nat
  objects : Nat → Option ConfigProcess

def SharedConfig.file (s : SharedConfig) : Option StoredFile := s.version s.count

def SharedConfig.start (file : Option StoredFile) : SharedConfig :=
  ⟨0, fun _ => file, none, fun _ => none⟩

/-- An object after a step, and the lock of the file. -/
def SharedConfig.put (s : SharedConfig) (n : Nat) (p : Option ConfigProcess) (lock : Option Nat) :
    SharedConfig :=
  { s with
    lock := lock
    objects := Function.update s.objects n p }

/-- The file is replaced. -/
def SharedConfig.write (s : SharedConfig) (n : Nat) (p : ConfigProcess) (f : StoredFile) :
    SharedConfig where
  count := s.count + 1
  version := Function.update s.version (s.count + 1) (some f)
  lock := s.lock
  objects := Function.update s.objects n (some p)

/-- A step of a call on an object. -/
inductive ConfigStep
  | begin (call : ReadCall)
  | check
  | stat (readable : Bool)
  | openFile (readable : Bool)
  | load
  | finish
  | rewrite (change : Dict → Except PyError Dict) (expected : Option String) (readable : Bool)
  | save (readable : Bool)
  | abort (reread : Bool)
  | replaceFile (mtime : Nat)
  | remember (readable : Bool)
  | reload (readable : Bool)
  | lockedSnapshot (readable : Bool)

/-- An object is made for the file as it is opened, takes a step, or its process ends. -/
inductive SharedAction
  | create (n : Nat)
  | step (n : Nat) (a : ConfigStep)
  | exit (n : Nat)

variable (E : ConfigEnv)

/-- What a read returns. -/
def ReadCall.answer (data : Dict) (revision : String) : ReadCall → Value
  | .get keys fallback => (valueUnder keys (.dict data)).getD fallback
  | .snapshot => .dict data
  | .revision => .str revision
  | .set _ _ => .none

/-- The first step of `_maybe_reload_unlocked`. -/
def checkStage (file : Option StoredFile) (o : ConfigObject) : ReadStage :=
  if o.dirtyBase.isSome then .ready
  else
    match file with
    | none => if o.revision ≠ "missing" then .openFile else .ready
    | some _ => .stat

/-- The time of the file is looked at; where it cannot be read, the call goes on without it. -/
def statStage (readable : Bool) (file : Option StoredFile) (o : ConfigObject) : ReadStage :=
  match file with
  | none => .ready
  | some f => if readable = true ∧ f.mtime ≠ o.mtime then .openFile else .ready

/-- The end of a read; `set` changes the object. -/
def ReadCall.leave (call : ReadCall) (o : ConfigObject) : ConfigObject :=
  match call with
  | .set keys v => { o with
      data := (setPath keys v o.data).1
      dirtyBase := some (o.dirtyBase.getD o.revision) }
  | _ => o

/-- `replace` and `update` up to the write: the object, and whether it goes on to write. -/
def prepareRewrite (change : Dict → Except PyError Dict) (expected : Option String)
    (readable : Bool) (file : Option StoredFile) (o : ConfigObject) : ConfigObject × Bool :=
  match loadUnlocked E readable file o with
  | .error _ => (o, false)
  | .ok o =>
    let o := { o with dirtyBase := none }
    if staleRevision expected o.revision then (o, false)
    else
      match change o.data with
      | .error _ => (o, false)
      | .ok working => ({ o with data := working }, true)

/-- What is loaded with nothing set on top; an object that cannot be loaded stays as it is. -/
def reloaded (readable : Bool) (file : Option StoredFile) (o : ConfigObject) : ConfigObject :=
  match loadUnlocked E readable file o with
  | .ok o => { o with dirtyBase := none }
  | .error _ => o

/-- The steps of a read. -/
def readStep (s : SharedConfig) (n : Nat) (o : ConfigObject) (call : ReadCall) (floor : Nat) :
    ReadStage → ConfigStep → Option SharedConfig
  | .check, .check => some (s.put n (some ⟨o, .reading call (checkStage s.file o) floor⟩) s.lock)
  | .stat, .stat readable =>
    some (s.put n (some ⟨o, .reading call (statStage readable s.file o) floor⟩) s.lock)
  | .openFile, .openFile readable =>
    if readable = true ∨ s.file = none then
      some (s.put n (some ⟨o, .reading call (.opened s.file) floor⟩) s.lock)
    else some (s.put n (some ⟨o, .idle⟩) s.lock)
  | .opened handle, .load =>
    match loadUnlocked E true handle o with
    | .ok o => some (s.put n (some ⟨o, .reading call .ready floor⟩) s.lock)
    | .error _ => some (s.put n (some ⟨o, .idle⟩) s.lock)
  | .ready, .finish => some (s.put n (some ⟨call.leave o, .idle⟩) s.lock)
  | _, _ => none

/-- The first step of a call. -/
def idleStep (s : SharedConfig) (n : Nat) (o : ConfigObject) : ConfigStep → Option SharedConfig
  | .begin call =>
    match call with
    | .set [] _ => none
    | call => some (s.put n (some ⟨o, .reading call .check s.count⟩) s.lock)
  | .rewrite change expected readable =>
    if s.lock.isSome then none
    else
      let (o, writes) := prepareRewrite E change expected readable s.file o
      if writes then some (s.put n (some ⟨o, .saving true⟩) (some n))
      else some (s.put n (some ⟨o, .idle⟩) s.lock)
  | .save readable =>
    if s.lock.isSome then none
    else if s.file.isSome = true ∧ readable = false then some s
    else if revisionOf E s.file ≠ o.dirtyBase.getD o.revision then some s
    else some (s.put n (some ⟨o, .saving false⟩) (some n))
  | .reload readable =>
    if s.lock.isSome then none
    else some (s.put n (some ⟨reloaded E readable s.file o, .idle⟩) s.lock)
  | .lockedSnapshot readable =>
    if s.lock.isSome ∨ o.dirtyBase.isSome then none
    else some (s.put n (some ⟨reloaded E readable s.file o, .idle⟩) s.lock)
  | _ => none

/-- `_save_unlocked`: it fails, and the file is read again, or it replaces the file. -/
def savingStep (s : SharedConfig) (n : Nat) (o : ConfigObject) :
    ConfigStep → Option SharedConfig
  | .abort reread => some (s.put n (some ⟨reloaded E reread s.file o, .idle⟩) none)
  | .replaceFile mtime =>
    match E.dump o.data with
    | .ok raw => some (s.write n ⟨o, .committed raw⟩ ⟨raw, mtime⟩)
    | .error _ => none
  | _ => none

def SharedConfig.stepObject (s : SharedConfig) (n : Nat) (p : ConfigProcess) (a : ConfigStep) :
    Option SharedConfig :=
  match p.phase, a with
  | .creating handle, .load =>
    match loadUnlocked E true handle p.object with
    | .ok o => some (s.put n (some ⟨o, .idle⟩) s.lock)
    | .error _ => some (s.put n none s.lock)
  | .idle, a => idleStep E s n p.object a
  | .reading call stage floor, a => readStep E s n p.object call floor stage a
  | .saving _, a => savingStep E s n p.object a
  | .committed raw, .remember readable =>
    some (s.put n (some ⟨{ p.object with
      revision := E.hash raw
      mtime := if readable then (s.file.map StoredFile.mtime).getD 0 else 0
      dirtyBase := none }, .idle⟩) none)
  | _, _ => none

def SharedConfig.step (s : SharedConfig) : SharedAction → Option SharedConfig
  | .create n =>
    if (s.objects n).isSome then none
    else some (s.put n (some ⟨⟨[], 0, "missing", none⟩, .creating s.file⟩) s.lock)
  | .step n a => (s.objects n).bind fun p => s.stepObject E n p a
  | .exit n => some (s.put n none (if s.lock = some n then none else s.lock))

/-- The steps of the store. -/
def sharedStep : SharedConfig → SharedAction → SharedConfig → Prop := Steps (SharedConfig.step E)

/-! ### What may go wrong -/

/-- An object without changes by `set` remembers the time of a file for another content. -/
def ObjectConfuses (f : StoredFile) (o : ConfigObject) : Prop :=
  o.dirtyBase = none ∧ o.mtime = f.mtime ∧ o.revision ≠ E.hash f.raw

/-- The time that is remembered of an open file. -/
def handleTime (handle : Option StoredFile) : Nat := (handle.map StoredFile.mtime).getD 0

/-- The open file has the time of another one, and another content. -/
def HandleConfuses (f : StoredFile) (handle : Option StoredFile) : Prop :=
  handleTime handle = f.mtime ∧ revisionOf E handle ≠ E.hash f.raw

/-- The object has a file for the other, now or when it has read what it has opened. -/
def Confuses (f : StoredFile) (p : ConfigProcess) : Prop :=
  match p.phase with
  | .creating handle => HandleConfuses E f handle
  | .reading _ (.opened handle) _ => HandleConfuses E f handle ∨ ObjectConfuses E f p.object
  | _ => ObjectConfuses E f p.object

/-- A write takes no time that another object has for another content; the time of the file can be
read, unless the object holds what the file holds; and where a `replace` or an `update` cannot
write, the file can be read again. -/
def SparesReaders (s : SharedConfig) : SharedAction → Prop
  | .step n (.replaceFile mtime) => ∀ p raw, s.objects n = some p → E.dump p.object.data = .ok raw →
      ∀ m q, m ≠ n → s.objects m = some q → ¬ Confuses E ⟨raw, mtime⟩ q
  | .step n (.stat readable) => readable = true ∨ ∀ p, s.objects n = some p →
      p.object.dirtyBase = none → p.object.revision = revisionOf E s.file
  | .step n (.abort reread) => ∀ p, s.objects n = some p → p.phase = .saving true →
      s.file = none ∨ reread = true
  | _ => True

/-! ### What an object knows -/

/-- The object holds the configuration of a file. -/
structure Matches (file : Option StoredFile) (o : ConfigObject) : Prop where
  data : readConfig E file = .ok o.data
  revision : o.revision = revisionOf E file

/-- The object does not read this file again. -/
def SkipsReload (file : Option StoredFile) (o : ConfigObject) : Prop :=
  match file with
  | none => o.revision = "missing"
  | some f => o.mtime = f.mtime

/-- An object without changes by `set` holds what a file held, and if it does not read the file
again, what that holds. -/
structure Knows (file : Option StoredFile) (o : ConfigObject) : Prop where
  held : o.dirtyBase = none → ∃ f, Matches E f o
  current : o.dirtyBase = none → SkipsReload file o → Matches E file o

/-- An open file that has the time of the file has its content. -/
structure HandleFits (file handle : Option StoredFile) : Prop where
  missing : file = none → handle = none
  sameTime : ∀ f, file = some f → handleTime handle = f.mtime → revisionOf E handle = E.hash f.raw

variable {E} {file : Option StoredFile} {o o' : ConfigObject}

theorem Matches.of_revision (h : Matches E file o) {file' : Option StoredFile}
    (hrevision : o.revision = revisionOf E file') : Matches E file' o :=
  ⟨(readConfig_of_revision (h.revision.symm.trans hrevision)).symm.trans h.data, hrevision⟩

theorem Matches.knows (h : Matches E file o) : Knows E file o :=
  ⟨fun _ => ⟨file, h⟩, fun _ _ => h⟩

theorem matches_of_load {readable : Bool} (h : loadUnlocked E readable file o = .ok o') :
    Matches E file o' := ⟨(loadUnlocked_ok h).1, (loadUnlocked_ok h).2.1⟩

/-- Only the data and the revision count. -/
theorem Matches.congr (h : Matches E file o) (hdata : o'.data = o.data)
    (hrevision : o'.revision = o.revision) : Matches E file o' :=
  ⟨hdata ▸ h.data, hrevision ▸ h.revision⟩

theorem knows_of_dirty (h : o.dirtyBase ≠ none) : Knows E file o :=
  ⟨fun hclean => absurd hclean h, fun hclean => absurd hclean h⟩

theorem mtime_of_load {readable : Bool} (h : loadUnlocked E readable file o = .ok o') :
    o'.mtime = handleTime file := by
  cases file with
  | none =>
    obtain rfl := Except.ok.inj h
    rfl
  | some f =>
    rw [loadUnlocked] at h
    split_ifs at h
    obtain ⟨d, -, h⟩ := bind_ok.mp h
    obtain rfl := Except.ok.inj h
    rfl

/-- An object that has read an open file knows as much as that. -/
theorem knows_of_handle {handle : Option StoredFile} (hfits : HandleFits E file handle)
    (h : loadUnlocked E true handle o = .ok o') : Knows E file o' := by
  have hmatches := matches_of_load h
  refine ⟨fun _ => ⟨handle, hmatches⟩, fun _ hskips => ?_⟩
  cases hfile : file with
  | none =>
    rw [hfits.missing hfile] at hmatches
    exact hmatches
  | some f =>
    rw [hfile] at hskips
    have htime : handleTime handle = f.mtime := (mtime_of_load h).symm.trans hskips
    exact hmatches.of_revision (hmatches.revision.trans (hfits.sameTime f hfile htime))

theorem handleFits_self (file : Option StoredFile) : HandleFits E file file :=
  ⟨id, fun f hf _ => by rw [hf]; rfl⟩

/-- A write that is not confused with what an object remembers. -/
theorem Knows.written (h : Knows E file o) {f : StoredFile} (hnot : ¬ ObjectConfuses E f o) :
    Knows E (some f) o := by
  refine ⟨h.held, fun hclean hskips => ?_⟩
  obtain ⟨g, hg⟩ := h.held hclean
  refine hg.of_revision ?_
  by_contra hother
  exact hnot ⟨hclean, hskips, hother⟩

theorem handleFits_written {handle : Option StoredFile} {f : StoredFile}
    (hnot : ¬ HandleConfuses E f handle) : HandleFits E (some f) handle := by
  refine ⟨nofun, fun g hg htime => ?_⟩
  obtain rfl := Option.some.inj hg
  by_contra hother
  exact hnot ⟨htime, hother⟩

theorem knows_reloaded {readable : Bool} (h : Knows E file o) :
    Knows E file (reloaded E readable file o) := by
  unfold reloaded
  cases hload : loadUnlocked E readable file o with
  | error e => exact h
  | ok o' =>
    have hmatches : Matches E file { o' with dirtyBase := none } :=
      (matches_of_load hload).congr rfl rfl
    exact hmatches.knows

/-! ### Every state -/

section Fields

variable (s : SharedConfig) (n : Nat) (p : ConfigProcess) (f : StoredFile)

theorem write_file : (s.write n p f).file = some f := Function.update_self _ _ _

theorem write_version {i : Nat} (hi : i ≤ s.count) : (s.write n p f).version i = s.version i :=
  Function.update_of_ne (by omega) _ _

theorem write_objects_self : (s.write n p f).objects n = some p :=
  Function.update_self _ _ _

theorem write_objects {m : Nat} (hm : m ≠ n) : (s.write n p f).objects m = s.objects m :=
  Function.update_of_ne hm _ _

end Fields

variable (E) in
/-- What a read has found so far: that there is a file, the file it has opened, or the configuration
that it returns. -/
def StageFits (s : SharedConfig) (floor : Nat) (o : ConfigObject) : ReadStage → Prop
  | .stat => s.file ≠ none
  | .opened handle => HandleFits E s.file handle ∧
      ∃ i, floor ≤ i ∧ i ≤ s.count ∧ s.version i = handle
  | .ready => o.dirtyBase = none → ∃ i, floor ≤ i ∧ i ≤ s.count ∧ Matches E (s.version i) o
  | _ => True

variable (E) in
/-- What holds of an object in each phase. -/
def ProcessFits (s : SharedConfig) (n : Nat) (p : ConfigProcess) : Prop :=
  match p.phase with
  | .creating handle => HandleFits E s.file handle
  | .idle => Knows E s.file p.object
  | .reading _ stage floor =>
    floor ≤ s.count ∧ Knows E s.file p.object ∧ StageFits E s floor p.object stage
  | .saving rewritten => s.lock = some n ∧
      if rewritten then ∃ d, readConfig E s.file = .ok d else Knows E s.file p.object
  | .committed raw => s.lock = some n ∧ E.dump p.object.data = .ok raw ∧
      ∃ mtime, s.file = some ⟨raw, mtime⟩

variable (E) in
def SharedFits (s : SharedConfig) : Prop :=
  ∀ n p, s.objects n = some p → ProcessFits E s n p

section Steps

variable {s t : SharedConfig} {n m : Nat} {p q : ConfigProcess}

/-- Another object does not mind a step that leaves the file, and takes or gives back the lock. -/
theorem ProcessFits.keep (h : ProcessFits E s m q) (lock : Option Nat)
    (hlock : s.lock = some m → lock = some m) (p : Option ConfigProcess) :
    ProcessFits E (s.put n p lock) m q := by
  unfold ProcessFits at h ⊢
  split at h
  · exact h
  · exact h
  · exact h
  · exact ⟨hlock h.1, h.2⟩
  · exact ⟨hlock h.1, h.2⟩

theorem SharedFits.put (hs : SharedFits E s) (lock : Option Nat)
    (hlock : ∀ m, m ≠ n → s.lock = some m → lock = some m) {p : Option ConfigProcess}
    (hp : ∀ q, p = some q → ProcessFits E (s.put n p lock) n q) :
    SharedFits E (s.put n p lock) := by
  intro m q hq
  by_cases hm : m = n
  · subst hm
    have hobject : (s.put m p lock).objects m = p := Function.update_self _ _ _
    exact hp q (hobject.symm.trans hq)
  · have hobject : (s.put n p lock).objects m = s.objects m := Function.update_of_ne hm _ _
    exact (hs m q (hobject.symm.trans hq)).keep lock (hlock m hm) p

/-- A step of one object that does not touch the lock. -/
theorem SharedFits.move (hs : SharedFits E s) {o : ConfigObject} {phase : ConfigPhase}
    (hp : ProcessFits E s n ⟨o, phase⟩) : SharedFits E (s.put n (some ⟨o, phase⟩) s.lock) := by
  refine hs.put s.lock (fun _ _ => id) fun q hq => ?_
  obtain rfl := Option.some.inj hq
  exact hp.keep s.lock id _

/-- The end of the read, with what the file holds now. -/
theorem stageFits_ready {floor : Nat} (hfloor : floor ≤ s.count)
    (h : o.dirtyBase = none → Matches E s.file o) : StageFits E s floor o .ready :=
  fun hclean => ⟨s.count, hfloor, le_rfl, h hclean⟩

theorem checkStage_fits {floor : Nat} (hfloor : floor ≤ s.count) (hknows : Knows E s.file o) :
    StageFits E s floor o (checkStage s.file o) := by
  unfold checkStage
  by_cases hdirty : o.dirtyBase.isSome = true
  · rw [if_pos hdirty]
    refine stageFits_ready hfloor fun hclean => ?_
    rw [hclean] at hdirty
    cases hdirty
  · rw [if_neg hdirty]
    cases hfile : s.file with
    | some f =>
      show s.file ≠ none
      rw [hfile]
      exact Option.some_ne_none f
    | none =>
      dsimp only
      split_ifs with hmissing
      · trivial
      · refine stageFits_ready hfloor fun hclean => hknows.current hclean ?_
        rw [hfile]
        exact not_not.mp hmissing

theorem statStage_fits {floor : Nat} (hfloor : floor ≤ s.count) (hknows : Knows E s.file o)
    (hfile : s.file ≠ none) {readable : Bool} (hreadable : readable = true ∨
      (o.dirtyBase = none → o.revision = revisionOf E s.file)) :
    StageFits E s floor o (statStage readable s.file o) := by
  obtain ⟨f, hf⟩ := Option.ne_none_iff_exists'.mp hfile
  have hstage : statStage readable s.file o =
      if readable = true ∧ f.mtime ≠ o.mtime then .openFile else .ready := by
    rw [hf]
    rfl
  rw [hstage]
  split_ifs with hother
  · trivial
  · refine stageFits_ready hfloor fun hclean => ?_
    by_cases hok : readable = true
    · refine hknows.current hclean ?_
      rw [hf]
      exact (not_not.mp fun hne => hother ⟨hok, hne⟩).symm
    · obtain ⟨g, hg⟩ := hknows.held hclean
      exact hg.of_revision (hreadable.resolve_left hok hclean)

/-- **The steps of a read.** -/
theorem readStep_fits (hs : SharedFits E s) {call : ReadCall} {stage : ReadStage} {floor : Nat}
    (hfloor : floor ≤ s.count) (hknows : Knows E s.file o)
    (hstage : StageFits E s floor o stage) {a : ConfigStep}
    (hstat : ∀ readable, a = .stat readable → readable = true ∨
      (o.dirtyBase = none → o.revision = revisionOf E s.file))
    (h : readStep E s n o call floor stage a = some t) : SharedFits E t := by
  unfold readStep at h
  split at h
  -- check
  · obtain rfl := Option.some.inj h
    exact hs.move ⟨hfloor, hknows, checkStage_fits hfloor hknows⟩
  -- stat
  · obtain rfl := Option.some.inj h
    exact hs.move ⟨hfloor, hknows, statStage_fits hfloor hknows hstage (hstat _ rfl)⟩
  -- openFile
  · split_ifs at h
    · obtain rfl := Option.some.inj h
      exact hs.move ⟨hfloor, hknows, handleFits_self _, s.count, hfloor, le_rfl, rfl⟩
    · obtain rfl := Option.some.inj h
      exact hs.move hknows
  -- load
  · obtain ⟨hhandle, i, hi, hcount, hversion⟩ := hstage
    split at h
    · rename_i hload
      obtain rfl := Option.some.inj h
      refine hs.move ⟨hfloor, knows_of_handle hhandle hload, fun _ => ⟨i, hi, hcount, ?_⟩⟩
      rw [hversion]
      exact matches_of_load hload
    · obtain rfl := Option.some.inj h
      exact hs.move hknows
  -- finish
  · obtain rfl := Option.some.inj h
    refine hs.move ?_
    show Knows E s.file (call.leave o)
    cases call with
    | get keys fallback => exact hknows
    | snapshot => exact hknows
    | revision => exact hknows
    | set keys v => exact knows_of_dirty (by simp [ReadCall.leave])
  · cases h

/-- A step that takes the lock. -/
theorem SharedFits.acquire (hs : SharedFits E s) (hfree : s.lock = none) {phase : ConfigPhase}
    (hp : ProcessFits E (s.put n (some ⟨o, phase⟩) (some n)) n ⟨o, phase⟩) :
    SharedFits E (s.put n (some ⟨o, phase⟩) (some n)) := by
  refine hs.put (some n) (fun m _ hm => ?_) fun q hq => ?_
  · rw [hfree] at hm
    cases hm
  · obtain rfl := Option.some.inj hq
    exact hp

/-- A step that gives the lock back. -/
theorem SharedFits.release (hs : SharedFits E s) (hheld : s.lock = some n)
    (hknows : Knows E s.file o) : SharedFits E (s.put n (some ⟨o, .idle⟩) none) := by
  refine hs.put none (fun m hm hlock => ?_) fun q hq => ?_
  · rw [hheld] at hlock
    exact absurd (Option.some.inj hlock).symm hm
  · obtain rfl := Option.some.inj hq
    exact hknows

theorem prepareRewrite_knows (h : Knows E file o) (change : Dict → Except PyError Dict)
    (expected : Option String) (readable : Bool) :
    let r := prepareRewrite E change expected readable file o
    (r.2 = false → Knows E file r.1) ∧ (r.2 = true → ∃ d, readConfig E file = .ok d) := by
  unfold prepareRewrite
  cases hload : loadUnlocked E readable file o with
  | error e => exact ⟨fun _ => h, nofun⟩
  | ok o' =>
    have hmatches : Matches E file { o' with dirtyBase := none } :=
      (matches_of_load hload).congr rfl rfl
    dsimp only
    split_ifs
    · exact ⟨fun _ => hmatches.knows, nofun⟩
    · split
      · exact ⟨fun _ => hmatches.knows, nofun⟩
      · exact ⟨nofun, fun _ => ⟨_, hmatches.data⟩⟩

theorem free_of_ite {x : Option SharedConfig}
    (h : (if s.lock.isSome then none else x) = some t) : s.lock = none ∧ x = some t := by
  split_ifs at h with hlock
  exact ⟨Option.not_isSome_iff_eq_none.mp hlock, h⟩

/-- **The first step of a call.** -/
theorem idleStep_fits (hs : SharedFits E s) (hknows : Knows E s.file o) {a : ConfigStep}
    (h : idleStep E s n o a = some t) : SharedFits E t := by
  unfold idleStep at h
  split at h
  -- begin
  · split at h
    · cases h
    · obtain rfl := Option.some.inj h
      exact hs.move ⟨le_rfl, hknows, trivial⟩
  -- rewrite
  · rename_i change expected readable
    obtain ⟨hstays, hwrites⟩ := prepareRewrite_knows hknows change expected readable
    obtain ⟨hfree, h⟩ := free_of_ite h
    generalize prepareRewrite E change expected readable s.file o = r at hstays hwrites h
    obtain ⟨o', writes⟩ := r
    dsimp only at hstays hwrites h
    split_ifs at h with hgoes
    · obtain rfl := Option.some.inj h
      exact hs.acquire hfree ⟨rfl, hwrites hgoes⟩
    · obtain rfl := Option.some.inj h
      exact hs.move (hstays (Bool.eq_false_of_not_eq_true hgoes))
  -- save
  · obtain ⟨hfree, h⟩ := free_of_ite h
    split_ifs at h
    · obtain rfl := Option.some.inj h
      exact hs
    · obtain rfl := Option.some.inj h
      exact hs
    · obtain rfl := Option.some.inj h
      exact hs.acquire hfree ⟨rfl, hknows⟩
  -- reload
  · obtain ⟨-, h⟩ := free_of_ite h
    obtain rfl := Option.some.inj h
    exact hs.move (knows_reloaded hknows)
  -- lockedSnapshot
  · split_ifs at h
    obtain rfl := Option.some.inj h
    exact hs.move (knows_reloaded hknows)
  · cases h

/-- The other objects do not take the new file for another. -/
theorem ProcessFits.written {f : StoredFile} (h : ProcessFits E s m q) (hlock : s.lock ≠ some m)
    (hnot : ¬ Confuses E f q) : ProcessFits E (s.write n p f) m q := by
  obtain ⟨o, phase⟩ := q
  cases phase with
  | creating handle =>
    show HandleFits E (s.write n p f).file handle
    rw [write_file]
    exact handleFits_written hnot
  | idle =>
    show Knows E (s.write n p f).file o
    rw [write_file]
    exact Knows.written h hnot
  | reading call stage floor =>
    obtain ⟨hfloor, hknows, hstage⟩ := h
    have hobject : ¬ ObjectConfuses E f o := by
      cases stage with
      | opened handle => exact fun h => hnot (.inr h)
      | check | stat | openFile | ready => exact hnot
    refine ⟨Nat.le_succ_of_le hfloor, ?_, ?_⟩
    · rw [write_file]
      exact hknows.written hobject
    · cases stage with
      | check | openFile => trivial
      | stat =>
        show (s.write n p f).file ≠ none
        rw [write_file]
        exact Option.some_ne_none f
      | opened handle =>
        obtain ⟨-, i, hi, hcount, hversion⟩ := hstage
        refine ⟨?_, i, hi, Nat.le_succ_of_le hcount, ?_⟩
        · rw [write_file]
          exact handleFits_written fun h => hnot (.inl h)
        · rw [write_version s n p f hcount]
          exact hversion
      | ready =>
        intro hclean
        obtain ⟨i, hi, hcount, hmatches⟩ := hstage hclean
        refine ⟨i, hi, Nat.le_succ_of_le hcount, ?_⟩
        rw [write_version s n p f hcount]
        exact hmatches
  | saving rewritten => exact absurd h.1 hlock
  | committed raw => exact absurd h.1 hlock

/-- **The steps of a write.** -/
theorem savingStep_fits (hs : SharedFits E s) (hlock : s.lock = some n) {rewritten : Bool}
    (hfits : if rewritten then ∃ d, readConfig E s.file = .ok d else Knows E s.file o)
    {a : ConfigStep} (habort : ∀ reread, a = .abort reread → rewritten = true →
      s.file = none ∨ reread = true)
    (hwrite : ∀ mtime raw, a = .replaceFile mtime → E.dump o.data = .ok raw →
      ∀ m q, m ≠ n → s.objects m = some q → ¬ Confuses E ⟨raw, mtime⟩ q)
    (h : savingStep E s n o a = some t) : SharedFits E t := by
  unfold savingStep at h
  split at h
  -- abort
  · rename_i reread
    obtain rfl := Option.some.inj h
    refine hs.release hlock ?_
    cases rewritten with
    | false => exact knows_reloaded hfits
    | true =>
      obtain ⟨d, hd⟩ := hfits
      obtain ⟨o', hload⟩ := loadUnlocked_reads (o := o) hd (habort reread rfl rfl)
      have hmatches : Matches E s.file { o' with dirtyBase := none } :=
        (matches_of_load hload).congr rfl rfl
      unfold reloaded
      rw [hload]
      exact hmatches.knows
  -- replaceFile
  · rename_i mtime
    split at h
    · rename_i raw hraw
      obtain rfl := Option.some.inj h
      intro m q hq
      by_cases hm : m = n
      · rw [hm, write_objects_self] at hq
        obtain rfl := Option.some.inj hq
        exact ⟨hm ▸ hlock, hraw, mtime, write_file _ _ _ _⟩
      · rw [write_objects s n _ _ hm] at hq
        refine (hs m q hq).written (fun hother => hm ?_) (hwrite mtime raw rfl hraw m q hm hq)
        exact Option.some.inj (hother.symm.trans hlock)
    · cases h
  · cases h

/-- The end of the constructor. -/
theorem creatingStep_fits (hs : SharedFits E s) {handle : Option StoredFile}
    (hhandle : HandleFits E s.file handle) {a : ConfigStep}
    (h : s.stepObject E n ⟨o, .creating handle⟩ a = some t) : SharedFits E t := by
  cases a with
  | load =>
    unfold SharedConfig.stepObject at h
    dsimp only at h
    split at h
    · rename_i hload
      obtain rfl := Option.some.inj h
      exact hs.move (knows_of_handle hhandle hload)
    · obtain rfl := Option.some.inj h
      exact hs.put s.lock (fun _ _ => id) nofun
  | _ => cases h

/-- The object remembers what it has written. -/
theorem committedStep_fits (hs : SharedFits E s) {raw : String}
    (hfits : ProcessFits E s n ⟨o, .committed raw⟩) {a : ConfigStep}
    (h : s.stepObject E n ⟨o, .committed raw⟩ a = some t) : SharedFits E t := by
  obtain ⟨hlock, hraw, mtime, hfile⟩ := hfits
  cases a with
  | remember readable =>
    obtain rfl := Option.some.inj h
    refine hs.release hlock (Matches.knows ⟨?_, ?_⟩)
    · rw [hfile]
      exact readConfig_dump hraw mtime
    · rw [hfile]
      rfl
  | _ => cases h

/-- **One step.** -/
theorem sharedStep_fits {a : SharedAction} (hs : SharedFits E s)
    (hstep : Restrict (sharedStep E) (SparesReaders E) s a t) : SharedFits E t := by
  obtain ⟨h, hspares⟩ := hstep
  cases a with
  | create n =>
    obtain ⟨-, h⟩ := Option.ite_none_left_eq_some.mp h
    obtain rfl := Option.some.inj h
    exact hs.move (handleFits_self s.file)
  | exit n =>
    obtain rfl := Option.some.inj h
    refine hs.put _ (fun m hm hlock => ?_) nofun
    rw [if_neg fun hheld => hm (Option.some.inj (hlock.symm.trans hheld))]
    exact hlock
  | step n a =>
    obtain ⟨p, hp, h⟩ := Option.bind_eq_some_iff.mp h
    have hfits := hs n p hp
    obtain ⟨o, phase⟩ := p
    cases phase with
    | idle => exact idleStep_fits hs hfits h
    | reading call stage floor =>
      refine readStep_fits hs hfits.1 hfits.2.1 hfits.2.2 ?_ h
      rintro readable rfl
      exact hspares.imp_right fun h => h _ hp
    | saving rewritten =>
      refine savingStep_fits hs hfits.1 hfits.2 ?_ ?_ h
      · rintro reread rfl rfl
        exact hspares _ hp rfl
      · rintro mtime raw rfl hraw
        exact hspares _ raw hp hraw
    | creating handle => exact creatingStep_fits hs hfits h
    | committed raw => exact committedStep_fits hs hfits h

end Steps

variable (E) in
/-- What a read returns of the configuration of a file. -/
def CommittedAnswer (file : Option StoredFile) (call : ReadCall) (v : Value) : Prop :=
  ∃ d, readConfig E file = .ok d ∧ v = call.answer d (revisionOf E file)

/-- **Reads are fresh**, where no write takes a time that another object remembers for another
content: what a read returns that found no changes by `set` is what the file held after some write,
and that write is none before those that were committed when the read began. -/
theorem read_fresh {as : List SharedAction} {s : SharedConfig}
    (hrun : Run (Restrict (sharedStep E) (SparesReaders E)) (.start file) as s) {n floor : Nat}
    {call : ReadCall} (hp : s.objects n = some ⟨o, .reading call .ready floor⟩)
    (hclean : o.dirtyBase = none) :
    ∃ i, floor ≤ i ∧ i ≤ s.count ∧
      CommittedAnswer E (s.version i) call (call.answer o.data o.revision) := by
  have hstart : SharedFits E (.start file) := nofun
  have hfits : SharedFits E s := hrun.preserves (SharedFits E) (fun _ _ _ => sharedStep_fits) hstart
  obtain ⟨-, -, hready⟩ := hfits n _ hp
  obtain ⟨i, hi, hcount, hmatches⟩ := hready hclean
  exact ⟨i, hi, hcount, o.data, hmatches.data, by rw [hmatches.revision]⟩

/-- A process writes a session version. -/
def writeSession (version : Int) : SharedAction :=
  .step 0 (.rewrite (fun _ => .ok [("session_version", .int version)]) none true)

/-- A process reads the configuration, up to the time of the file. -/
def beginSnapshot : List SharedAction :=
  [.step 1 (.begin .snapshot), .step 1 .check, .step 1 (.stat true)]

/-- It reads the file again. -/
def readFile : List SharedAction :=
  [.step 1 (.openFile true), .step 1 .load]

def twoObjects : List SharedAction :=
  [.create 0, .step 0 .load, .create 1, .step 1 .load]

/-- Two writes with one time, and a read after each. -/
def oneTick : List SharedAction :=
  twoObjects ++ [writeSession 1, .step 0 (.replaceFile 5), .step 0 (.remember true)] ++
    beginSnapshot ++ readFile ++ [.step 1 .finish] ++
    [writeSession 2, .step 0 (.replaceFile 5), .step 0 (.remember true)] ++ beginSnapshot

def sessionObject (version : Int) (raw : String) : ConfigObject :=
  ⟨[("session_version", .int version)], 5, sampleHash raw, none⟩

theorem oneTick_view :
    (runAll (SharedConfig.step sampleConfigEnv) (.start none) oneTick).map
      (fun s => (s.count, s.objects 1, s.version 2)) =
      some (2, some ⟨sessionObject 1 "\x7b\"session_version\": 1\x7d", .reading .snapshot .ready 2⟩,
        some ⟨"\x7b\"session_version\": 2\x7d", 5⟩) := by
  decide +kernel

/-- The second write is not read: the session version stays what it was. -/
theorem not_read_fresh : ¬ ∀ (file : Option StoredFile) (as : List SharedAction) (s : SharedConfig),
    Run (sharedStep sampleConfigEnv) (.start file) as s → ∀ n o call floor,
      s.objects n = some ⟨o, .reading call .ready floor⟩ → o.dirtyBase = none →
        ∃ i, floor ≤ i ∧ i ≤ s.count ∧
          CommittedAnswer sampleConfigEnv (s.version i) call (call.answer o.data o.revision) := by
  intro h
  obtain ⟨s, hrun, hview⟩ := Option.map_eq_some_iff.mp oneTick_view
  simp only [Prod.mk.injEq] at hview
  obtain ⟨hcount, hobject, hversion⟩ := hview
  obtain ⟨i, hi, hle, d, hd, hanswer⟩ := h none _ s (run_of_runAll hrun) 1 _ _ _ hobject rfl
  obtain rfl : i = 2 := by omega
  rw [hversion] at hd
  have hwritten : readConfig sampleConfigEnv (some ⟨"\x7b\"session_version\": 2\x7d", 5⟩) =
      .ok [("session_version", .int 2)] := by
    decide +kernel
  obtain rfl := Except.ok.inj (hwritten.symm.trans hd)
  have hother : Value.dict [("session_version", .int 1)] ≠ .dict [("session_version", .int 2)] := by
    decide
  exact hother hanswer

/-- A write is about to replace the file, and there is another object. -/
def aboutToWrite : SharedConfig :=
  (runAll (SharedConfig.step sampleConfigEnv) (.start none) (twoObjects ++ [writeSession 1])).getD
    (.start none)

/-- The write, and a read through the other object. -/
def writeAndRead : List SharedAction :=
  .step 0 (.replaceFile 5) :: .step 0 (.remember true) :: (beginSnapshot ++ readFile)

theorem writeAndRead_view :
    (runAll (SharedConfig.step sampleConfigEnv) aboutToWrite writeAndRead).map
      (fun s => s.objects 1) =
      some (some ⟨sessionObject 1 "\x7b\"session_version\": 1\x7d",
        .reading .snapshot .ready 1⟩) := by
  decide +kernel

theorem read_fresh_session : ∃ as s,
    Run (Restrict (sharedStep sampleConfigEnv) (SparesReaders sampleConfigEnv)) (.start none) as s ∧
      ∃ i, 1 ≤ i ∧ i ≤ s.count ∧ CommittedAnswer sampleConfigEnv (s.version i) .snapshot
        (.dict [("session_version", .int 1)]) := by
  have hbefore : Run (sharedStep sampleConfigEnv) (.start none) (twoObjects ++ [writeSession 1])
      aboutToWrite :=
    run_of_runAll rfl
  have hwrite : SparesReaders sampleConfigEnv aboutToWrite (.step 0 (.replaceFile 5)) := by
    intro p raw _ _ m q hm hq
    match m with
    | 0 => exact absurd rfl hm
    | 1 =>
      obtain rfl := Option.some.inj hq
      rintro ⟨-, htime, -⟩
      have hfive : (0 : Nat) = 5 := htime
      cases hfive
    | m + 2 => cases hq
  obtain ⟨s, hs, hobject⟩ := Option.map_eq_some_iff.mp writeAndRead_view
  cases run_of_runAll hs with
  | cons hstep hrest =>
    have hspares : ∀ a ∈ .step 0 (.remember true) :: (beginSnapshot ++ readFile), ∀ u,
        SparesReaders sampleConfigEnv u a := by
      intro a ha u
      simp only [beginSnapshot, readFile, List.mem_cons, List.mem_append, List.not_mem_nil,
        or_false] at ha
      rcases ha with rfl | (rfl | rfl | rfl) | rfl | rfl
      · trivial
      · trivial
      · trivial
      · exact .inl rfl
      · trivial
      · trivial
    have hcreated : ∀ a ∈ twoObjects ++ [writeSession 1], ∀ u,
        SparesReaders sampleConfigEnv u a := by
      intro a ha u
      simp only [twoObjects, writeSession, List.mem_cons, List.mem_append, List.not_mem_nil,
        or_false] at ha
      rcases ha with (rfl | rfl | rfl | rfl) | rfl <;> trivial
    have hrun := (hbefore.restrict hcreated).append
      (.cons ⟨hstep, hwrite⟩ (hrest.restrict hspares))
    exact ⟨_, s, hrun, read_fresh hrun hobject rfl⟩

end RcloneSync
