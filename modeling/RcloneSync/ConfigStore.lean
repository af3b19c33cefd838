/-
RcloneSync/ConfigStore.lean

The configuration store (config_store.py): one file, and any number of `Config` objects over it.

An object is shared by the threads of a process; it keeps the configuration it has read, with the
file's time and revision, and changes made by `set` until a `save`.  The methods that write hold
the lock of the object and that of the file from their first read to their last write, so each
call is one step, and a run is a sequence of calls of any callers on any objects.

`set` is meant for a `save` that follows at once.  Between the two, another thread may call
`update`, `replace` or `reload` on the same object; each of them reads the file again and forgets
what was set.  The `save` then succeeds and has nothing to write (`set_forgotten`).  Where no
call forgets, the store keeps its promises (`store_keeps_contract`).
-/
import RcloneSync.JsonRoundTrip
import RcloneSync.Runs

namespace RcloneSync

open Py Runs

/-! ### The file and the objects over it -/

/-- What the store uses of YAML, of SHA-256 and of the paths. -/
structure ConfigEnv where
  path : String
  lockPath : String
  dump : Dict → Except PyError String
  load : String → Except PyError Value
  hash : String → String
  /-- what was dumped is loaded again -/
  load_dump : ∀ d raw, dump d = .ok raw → load raw = .ok (.dict d)
  /-- different texts have different hashes -/
  hash_inj : ∀ a b, hash a = hash b → a = b
  hash_ne : ∀ a, hash a ≠ "missing"

structure StoredFile where
  raw : String
  mtime : Nat
  deriving DecidableEq

/-- The fields of `Config` that change. -/
structure ConfigObject where
  data : Dict
  mtime : Nat
  revision : String
  dirtyBase : Option String
  deriving DecidableEq

/-- How the accesses to the file turn out during a call: whether the lock is got in time, the
file's time can be read, its text can be read, the write succeeds, with the time the file gets by
it, and the file can be read again if it does not. -/
structure FileAccess where
  lock : Bool
  stat : Bool
  read : Bool
  write : Option Nat
  reread : Bool

variable (E : ConfigEnv)

def configConflict : PyError := .runtime "Konfiguration wurde zwischenzeitlich geändert"

def saveConflict : PyError := .runtime "Konfiguration wurde zwischen set() und save() geändert"

def lockTimeout : PyError :=
  .runtime ("Konfigurations-Lock ist seit 10s belegt: " ++ E.lockPath)

/-- The text of the file as a configuration. -/
def parseConfig (raw : String) : Except PyError Dict := do
  let loaded ← E.load raw
  match pyOr loaded (.dict []) with
  | .dict d => .ok d
  | _ => .error (.value ("Config-Root muss ein Mapping sein: " ++ E.path))

/-- The committed configuration. -/
def readConfig (file : Option StoredFile) : Except PyError Dict :=
  match file with
  | none => .ok []
  | some f => parseConfig E f.raw

/-- The committed revision. -/
def revisionOf (file : Option StoredFile) : String :=
  match file with
  | none => "missing"
  | some f => E.hash f.raw

/-- `_load_unlocked`. -/
def loadUnlocked (readable : Bool) (file : Option StoredFile) (o : ConfigObject) :
    Except PyError ConfigObject :=
  match file with
  | none => .ok { o with data := [], mtime := 0, revision := "missing" }
  | some f =>
    if readable then do
      let loaded ← parseConfig E f.raw
      .ok { o with data := loaded, mtime := f.mtime, revision := E.hash f.raw }
    else .error (.os E.path)

/-- `_maybe_reload_unlocked`. -/
def maybeReload (access : FileAccess) (file : Option StoredFile) (o : ConfigObject) :
    Except PyError ConfigObject :=
  if o.dirtyBase.isSome then .ok o
  else
    match file with
    | none => if o.revision ≠ "missing" then loadUnlocked E access.read file o else .ok o
    | some f =>
      if access.stat = true ∧ f.mtime ≠ o.mtime then loadUnlocked E access.read file o else .ok o

/-- `_save_unlocked`: the file and the object after it. -/
def saveUnlocked (access : FileAccess) (o : ConfigObject) :
    Except PyError (StoredFile × ConfigObject) := do
  let raw ← E.dump o.data
  match access.write with
  | some mtime =>
    .ok (⟨raw, mtime⟩,
      { o with revision := E.hash raw, mtime := if access.stat then mtime else 0 })
  | none => .error (.os E.path)

/-! ### The methods -/

/-- What a call leaves, and what it returns or raises. -/
structure CallResult where
  file : Option StoredFile
  object : ConfigObject
  result : Except PyError Value

/-- `get`: the value at the keys, in the configuration read last. -/
def valueUnder : List String → Value → Option Value
  | [], v => some v
  | key :: keys, .dict d => (d.lookup key).bind (valueUnder keys)
  | _ :: _, _ => none

def ConfigObject.get (keys : List String) (fallback : Value) (access : FileAccess)
    (file : Option StoredFile) (o : ConfigObject) : CallResult :=
  match maybeReload E access file o with
  | .error e => ⟨file, o, .error e⟩
  | .ok o => ⟨file, o, .ok ((valueUnder keys (.dict o.data)).getD fallback)⟩

/-- The loop of `set`.  A mapping that is missing on the way is put in, also where the way ends at
a value that is none. -/
def setPath : List String → Value → Dict → Dict × Except PyError Value
  | [], _, d => (d, .ok .none)
  | [key], v, d => (d.set key v, .ok .none)
  | key :: keys, v, d =>
    match d.get key with
    | .none => (d.set key (.dict (setPath keys v []).1), (setPath keys v []).2)
    | .dict inner => (d.set key (.dict (setPath keys v inner).1), (setPath keys v inner).2)
    | _ => (d, .error (.value ("set: '" ++ key ++ "' ist kein Mapping")))

def ConfigObject.set (keys : List String) (v : Value) (access : FileAccess)
    (file : Option StoredFile) (o : ConfigObject) : CallResult :=
  if keys = [] then ⟨file, o, .error (.value "set: mindestens key + value")⟩
  else
    match maybeReload E access file o with
    | .error e => ⟨file, o, .error e⟩
    | .ok o =>
      ⟨file, { o with
        data := (setPath keys v o.data).1
        dirtyBase := some (o.dirtyBase.getD o.revision) }, (setPath keys v o.data).2⟩

/-- The write at the end of `replace`, `update` and `save`, and what they do when it fails. -/
def writeBack (access : FileAccess) (file : Option StoredFile) (o : ConfigObject)
    (returned : ConfigObject → Value) : CallResult :=
  match saveUnlocked E access o with
  | .ok (f, o) => ⟨some f, { o with dirtyBase := none }, .ok (returned o)⟩
  | .error e =>
    match loadUnlocked E access.reread file o with
    | .ok o => ⟨file, { o with dirtyBase := none }, .error e⟩
    | .error e' => ⟨file, o, .error e'⟩

/-- `if expected_revision and expected_revision != self._revision`. -/
def staleRevision (expected : Option String) (revision : String) : Bool :=
  decide (expected.getD "" ≠ "" ∧ expected.getD "" ≠ revision)

/-- What `replace` and `update` have in common: they read the file, and write what `change` makes
of it. -/
def ConfigObject.rewrite (change : Dict → Except PyError Dict) (expected : Option String)
    (access : FileAccess) (returned : ConfigObject → Value) (file : Option StoredFile)
    (o : ConfigObject) : CallResult :=
  if access.lock = false then ⟨file, o, .error (lockTimeout E)⟩
  else
    match loadUnlocked E access.read file o with
    | .error e => ⟨file, o, .error e⟩
    | .ok o =>
      let o := { o with dirtyBase := none }
      if staleRevision expected o.revision then ⟨file, o, .error configConflict⟩
      else
        match change o.data with
        | .error e => ⟨file, o, .error e⟩
        | .ok working => writeBack E access file { o with data := working } returned

def ConfigObject.replace (data : Value) (expected : Option String) (access : FileAccess)
    (file : Option StoredFile) (o : ConfigObject) : CallResult :=
  match data with
  | .dict d => o.rewrite E (fun _ => .ok d) expected access (fun o => .str o.revision) file
  | _ => ⟨file, o, .error (.value "Config-Root muss ein Mapping sein")⟩

/-- An updater changes the configuration in place, and may return another one. -/
abbrev Updater := Dict → Except PyError (Dict × Value)

/-- The configuration after an updater. -/
def updated (updater : Updater) (data : Dict) : Except PyError Dict := do
  let (working, result) ← updater data
  match result with
  | .none => .ok working
  | .dict d => .ok d
  | _ => .error (.value "Config-Updater muss ein Mapping liefern")

def ConfigObject.update (updater : Updater) (expected : Option String) (access : FileAccess)
    (file : Option StoredFile) (o : ConfigObject) : CallResult :=
  o.rewrite E (updated updater) expected access (fun o => .dict o.data) file

def ConfigObject.save (access : FileAccess) (file : Option StoredFile) (o : ConfigObject) :
    CallResult :=
  if access.lock = false then ⟨file, o, .error (lockTimeout E)⟩
  else if file.isSome = true ∧ access.read = false then ⟨file, o, .error (.os E.path)⟩
  else if revisionOf E file ≠ o.dirtyBase.getD o.revision then ⟨file, o, .error saveConflict⟩
  else writeBack E access file o fun _ => .none

def ConfigObject.reload (access : FileAccess) (file : Option StoredFile) (o : ConfigObject) :
    CallResult :=
  if access.lock = false then ⟨file, o, .error (lockTimeout E)⟩
  else
    match loadUnlocked E access.read file o with
    | .error e => ⟨file, o, .error e⟩
    | .ok o => ⟨file, { o with dirtyBase := none }, .ok .none⟩

/-! ### Runs -/

/-- A call of `set`. -/
structure SetCall where
  caller : Nat
  keys : List String
  value : Value
  deriving DecidableEq

/-- The file, the objects, and for each object the calls of `set` that no `save` has written. -/
structure ConfigSystem where
  file : Option StoredFile
  objects : Nat → Option ConfigObject
  unsaved : Nat → List SetCall

def ConfigSystem.start (file : Option StoredFile) : ConfigSystem :=
  ⟨file, fun _ => none, fun _ => []⟩

/-- A call of a caller on an object. -/
inductive ConfigCall
  | get (keys : List String) (fallback : Value)
  | set (caller : Nat) (keys : List String) (value : Value)
  | save (caller : Nat)
  | update (updater : Updater) (expected : Option String)
  | replace (data : Value) (expected : Option String)
  | reload

/-- A new object, or a call on one. -/
inductive ConfigAction
  | create (n : Nat) (readable : Bool)
  | call (n : Nat) (c : ConfigCall) (access : FileAccess)

def ConfigCall.perform (c : ConfigCall) (access : FileAccess) (file : Option StoredFile)
    (o : ConfigObject) : CallResult :=
  match c with
  | .get keys fallback => o.get E keys fallback access file
  | .set _ keys value => o.set E keys value access file
  | .save _ => o.save E access file
  | .update updater expected => o.update E updater expected access file
  | .replace data expected => o.replace E data expected access file
  | .reload => o.reload E access file

/-- The calls of `set` that are not written yet, after a call. -/
def unsavedAfter (access : FileAccess) (file : Option StoredFile) (o : ConfigObject)
    (sets : List SetCall) : ConfigCall → List SetCall
  | .save _ => if (o.save E access file).result.isOk then [] else sets
  | .set caller keys value =>
    if keys ≠ [] ∧ (maybeReload E access file o).isOk then sets ++ [⟨caller, keys, value⟩]
    else sets
  | .get _ _ => sets
  | .update _ _ => sets
  | .replace _ _ => sets
  | .reload => sets

def ConfigSystem.step (s : ConfigSystem) : ConfigAction → Option ConfigSystem
  | .create n readable =>
    match loadUnlocked E readable s.file ⟨[], 0, "missing", none⟩, s.objects n with
    | .ok o, none => some { s with objects := Function.update s.objects n (some o) }
    | _, _ => none
  | .call n c access =>
    match s.objects n with
    | none => none
    | some o =>
      let after := c.perform E access s.file o
      some
        { file := after.file
          objects := Function.update s.objects n (some after.object)
          unsaved := Function.update s.unsaved n
            (unsavedAfter E access s.file o (s.unsaved n) c) }

/-! ### The contract -/

/-- The configuration after the calls of `set`, in their order. -/
def applySets (sets : List SetCall) (d : Dict) : Dict :=
  sets.foldl (fun d x => (setPath x.keys x.value d).1) d

/-- What is committed in the end is a change of what was committed just before. -/
def Persists (before after : Option StoredFile) (change : Dict → Except PyError Dict) : Prop :=
  ∃ d d', readConfig E before = .ok d ∧ change d = .ok d' ∧ readConfig E after = .ok d'

/-- The configuration in memory is the committed one. -/
def InStep (file : Option StoredFile) (o : ConfigObject) : Prop := readConfig E file = .ok o.data

/-- What a `replace` or an `update` promises. -/
def RewriteContract (change : Dict → Except PyError Dict) (file : Option StoredFile)
    (r : CallResult) : Prop :=
  match r.result with
  | .ok _ => Persists E file r.file change
  | .error _ => r.file = file ∧ InStep E r.file r.object

/-- What a call promises, with the calls of `set` on its object that are not written yet. -/
def CallContract (sets : List SetCall) (file : Option StoredFile) (r : CallResult) :
    ConfigCall → Prop
  | .update updater _ => RewriteContract E (updated updater) file r
  | .replace data expected =>
    RewriteContract E (fun _ => (asDict data).elim (.error configConflict) .ok) file r ∧
      (r.result.isOk = true → ∀ revision, expected = some revision → revisionOf E file = revision)
  | .save _ =>
    match r.result with
    | .ok _ => Persists E file r.file fun d => .ok (applySets sets d)
    | .error _ => r.file = file
  | .get _ _ => r.file = file
  | .set _ _ _ => r.file = file
  | .reload => r.file = file

/-- The call gets to read the file. -/
def Reads (access : FileAccess) (file : Option StoredFile) : Prop :=
  access.lock = true ∧ (file = none ∨ access.read = true)

/-- What a `replace` or an `update` is made on: an object without changes by `set` if it gets to
read the file, and one with the committed configuration if it does not.  After a write that failed
the file can be read. -/
def RewriteSpares (sets : List SetCall) (file : Option StoredFile) (o : ConfigObject)
    (access : FileAccess) (reads : Prop) : Prop :=
  (reads → sets = []) ∧ (¬ reads → InStep E file o) ∧ access.reread = true

/-- No call forgets what was set, and none that fails early leaves an outdated object.

A `reload` that gets to read the file is made on an object without changes by `set`, and so is a
`save` that cannot write what it is to write; an expected revision is not the empty text. -/
def CallSpares (sets : List SetCall) (file : Option StoredFile) (o : ConfigObject)
    (access : FileAccess) : ConfigCall → Prop
  | .update _ _ => RewriteSpares E sets file o access (Reads access file)
  | .replace data expected =>
    RewriteSpares E sets file o access (Reads access file ∧ (asDict data).isSome = true) ∧
      expected ≠ some ""
  | .save _ =>
    Reads access file → revisionOf E file = o.dirtyBase.getD o.revision →
      (∃ r, saveUnlocked E access o = .ok r) ∨ sets = []
  | .reload => Reads access file → sets = []
  | .get _ _ => True
  | .set _ _ _ => True

/-! ### Reading and writing the file -/

variable {E} {file : Option StoredFile} {o o' : ConfigObject} {access : FileAccess}

theorem loadUnlocked_ok {readable : Bool} (h : loadUnlocked E readable file o = .ok o') :
    readConfig E file = .ok o'.data ∧ o'.revision = revisionOf E file ∧
      o'.dirtyBase = o.dirtyBase := by
  cases file with
  | none =>
    obtain rfl := Except.ok.inj h
    exact ⟨rfl, rfl, rfl⟩
  | some f =>
    rw [loadUnlocked] at h
    split_ifs at h
    obtain ⟨d, hd, h⟩ := bind_ok.mp h
    obtain rfl := Except.ok.inj h
    exact ⟨hd, rfl, rfl⟩

theorem loadUnlocked_reads {readable : Bool} {d : Dict} (hd : readConfig E file = .ok d)
    (hread : file = none ∨ readable = true) : ∃ o', loadUnlocked E readable file o = .ok o' := by
  cases file with
  | none => exact ⟨_, rfl⟩
  | some f =>
    have hreadable : readable = true := hread.resolve_left (by simp)
    have hparse : parseConfig E f.raw = .ok d := hd
    rw [loadUnlocked, if_pos hreadable, hparse]
    exact ⟨_, rfl⟩

theorem reads_of_load {readable : Bool} (h : loadUnlocked E readable file o = .ok o') :
    file = none ∨ readable = true := by
  cases file with
  | none => exact Or.inl rfl
  | some f =>
    rw [loadUnlocked] at h
    split_ifs at h with hreadable
    exact Or.inr hreadable

/-- What was written is what is committed then. -/
theorem readConfig_dump {d : Dict} {raw : String} (h : E.dump d = .ok raw) (mtime : Nat) :
    readConfig E (some ⟨raw, mtime⟩) = .ok d := by
  have hload : E.load raw = .ok (.dict d) := E.load_dump d raw h
  have hor : pyOr (.dict d) (.dict []) = .dict d := by
    cases d with
    | nil => rfl
    | cons x d => rfl
  simp only [readConfig, parseConfig, hload]
  show (match pyOr (.dict d) (.dict []) with
    | .dict d => Except.ok d
    | _ => .error (PyError.value ("Config-Root muss ein Mapping sein: " ++ E.path))) = .ok d
  rw [hor]

theorem saveUnlocked_ok {r : StoredFile × ConfigObject} (h : saveUnlocked E access o = .ok r) :
    readConfig E (some r.1) = .ok o.data ∧ r.2.data = o.data ∧
      r.2.revision = revisionOf E (some r.1) ∧ r.2.dirtyBase = o.dirtyBase := by
  obtain ⟨raw, hraw, h⟩ := bind_ok.mp h
  cases hwrite : access.write with
  | none =>
    rw [hwrite] at h
    cases h
  | some mtime =>
    rw [hwrite] at h
    obtain rfl := Except.ok.inj h
    exact ⟨readConfig_dump hraw mtime, rfl, rfl, rfl⟩

/-- The same revision is the same configuration. -/
theorem readConfig_of_revision {file' : Option StoredFile}
    (h : revisionOf E file = revisionOf E file') : readConfig E file = readConfig E file' := by
  cases file with
  | none =>
    cases file' with
    | none => rfl
    | some f => exact absurd h.symm (E.hash_ne f.raw)
  | some f =>
    cases file' with
    | none => exact absurd h (E.hash_ne f.raw)
    | some f' =>
      have hraw : f.raw = f'.raw := E.hash_inj _ _ h
      rw [readConfig, readConfig, hraw]

/-! ### What an object holds -/

/-- An object holds what was committed once, with the changes by `set` since. -/
structure Based (E : ConfigEnv) (sets : List SetCall) (o : ConfigObject) : Prop where
  base : ∃ file d, readConfig E file = .ok d ∧ o.data = applySets sets d ∧
    o.dirtyBase.getD o.revision = revisionOf E file
  clean : o.dirtyBase = none → sets = []

theorem based_of_load {readable : Bool} (h : loadUnlocked E readable file o = .ok o') :
    Based E [] { o' with dirtyBase := none } := by
  obtain ⟨hread, hrevision, _⟩ := loadUnlocked_ok h
  exact ⟨⟨file, o'.data, hread, rfl, hrevision⟩, fun _ => rfl⟩

theorem maybeReload_based {sets : List SetCall} (ho : Based E sets o)
    (h : maybeReload E access file o = .ok o') : Based E sets o' := by
  rw [maybeReload.eq_def] at h
  by_cases hdirty : o.dirtyBase.isSome = true
  · rw [if_pos hdirty] at h
    obtain rfl := Except.ok.inj h
    exact ho
  · rw [if_neg hdirty] at h
    have hclean : o.dirtyBase = none := by simpa using hdirty
    have hsets : sets = [] := ho.clean hclean
    have hload : ∀ {o'}, loadUnlocked E access.read file o = .ok o' → Based E sets o' := by
      intro o' hload
      have hsame := (loadUnlocked_ok hload).2.2
      have hbased := based_of_load hload
      rw [hsets]
      rwa [← hclean, ← hsame] at hbased
    cases file with
    | none =>
      dsimp only at h
      split_ifs at h
      · exact hload h
      · obtain rfl := Except.ok.inj h
        exact ho
    | some f =>
      dsimp only at h
      split_ifs at h
      · exact hload h
      · obtain rfl := Except.ok.inj h
        exact ho

theorem applySets_concat (sets : List SetCall) (x : SetCall) (d : Dict) :
    applySets (sets ++ [x]) d = (setPath x.keys x.value (applySets sets d)).1 := by
  rw [applySets, List.foldl_append]
  rfl

/-! ### The calls -/

theorem writeBack_ok {returned : ConfigObject → Value} {v : Value}
    (h : (writeBack E access file o returned).result = .ok v) :
    readConfig E (writeBack E access file o returned).file = .ok o.data ∧
      Based E [] (writeBack E access file o returned).object := by
  rw [writeBack] at h ⊢
  cases hsave : saveUnlocked E access o with
  | ok r =>
    obtain ⟨hcommitted, hdata, hrevision, _⟩ := saveUnlocked_ok hsave
    refine ⟨hcommitted, ⟨some r.1, o.data, hcommitted, hdata, hrevision⟩, fun _ => rfl⟩
  | error e =>
    rw [hsave] at h
    cases hload : loadUnlocked E access.reread file o with
    | ok o' =>
      rw [hload] at h
      cases h
    | error e' =>
      rw [hload] at h
      cases h

theorem writeBack_error {returned : ConfigObject → Value} {d : Dict} {e : PyError}
    (hread : readConfig E file = .ok d) (hreread : access.reread = true)
    (h : (writeBack E access file o returned).result = .error e) :
    (writeBack E access file o returned).file = file ∧
      InStep E file (writeBack E access file o returned).object ∧
      Based E [] (writeBack E access file o returned).object := by
  rw [writeBack] at h ⊢
  cases hsave : saveUnlocked E access o with
  | ok r =>
    rw [hsave] at h
    cases h
  | error e =>
    obtain ⟨o', hload⟩ := loadUnlocked_reads (o := o) hread (Or.inr hreread)
    rw [hload]
    exact ⟨rfl, (loadUnlocked_ok hload).1, based_of_load hload⟩

theorem isOk_error {e : PyError} : (Except.error e : Except PyError Value).isOk ≠ true := by
  rw [Except.isOk, Except.toBool]
  decide

/-- A rewrite that changes no file, and leaves the committed configuration. -/
theorem rewriteContract_error {change : Dict → Except PyError Dict} {e : PyError}
    (h : InStep E file o) : RewriteContract E change file ⟨file, o, .error e⟩ := ⟨rfl, h⟩

/-- **`replace` and `update`.** -/
theorem rewrite_spec {sets : List SetCall} {change : Dict → Except PyError Dict}
    {expected : Option String} {returned : ConfigObject → Value} {d : Dict}
    (hread : readConfig E file = .ok d) (ho : Based E sets o)
    (hspares : RewriteSpares E sets file o access (Reads access file)) :
    let r := o.rewrite E change expected access returned file
    RewriteContract E change file r ∧ Based E sets r.object ∧
      (∃ d', readConfig E r.file = .ok d') ∧
      (r.result.isOk = true → staleRevision expected (revisionOf E file) = false) := by
  obtain ⟨hsets, hstep, hreread⟩ := hspares
  dsimp only
  rw [ConfigObject.rewrite]
  by_cases hlock : access.lock = false
  · have hnot : ¬ Reads access file := fun h => absurd (hlock.symm.trans h.1) (by decide)
    rw [if_pos hlock]
    exact ⟨rewriteContract_error (hstep hnot), ho, ⟨d, hread⟩, fun h => absurd h isOk_error⟩
  · rw [if_neg hlock]
    have hgot : access.lock = true := by simpa using hlock
    cases hload : loadUnlocked E access.read file o with
    | error e =>
      have hnot : ¬ Reads access file := fun h => by
        obtain ⟨o', hok⟩ := loadUnlocked_reads (o := o) hread h.2
        rw [hload] at hok
        cases hok
      exact ⟨rewriteContract_error (hstep hnot), ho, ⟨d, hread⟩, fun h => absurd h isOk_error⟩
    | ok o' =>
      have hreads : Reads access file := ⟨hgot, reads_of_load hload⟩
      obtain ⟨hdata, hrevision, _⟩ := loadUnlocked_ok hload
      have hbased := based_of_load hload
      have hnil : sets = [] := hsets hreads
      subst hnil
      dsimp only
      rw [← hrevision]
      by_cases hstale : staleRevision expected o'.revision = true
      · rw [if_pos hstale]
        exact ⟨rewriteContract_error hdata, hbased, ⟨d, hread⟩, fun h => absurd h isOk_error⟩
      · rw [if_neg hstale]
        cases hchange : change o'.data with
        | error e =>
          exact ⟨rewriteContract_error hdata, hbased, ⟨d, hread⟩, fun h => absurd h isOk_error⟩
        | ok working =>
          dsimp only
          generalize hobject : ConfigObject.mk working o'.mtime o'.revision none = o₁
          have hworking : o₁.data = working := by rw [← hobject]
          cases hwrite : (writeBack E access file o₁ returned).result with
          | error e =>
            obtain ⟨hfile, hin, hafter⟩ := writeBack_error hread hreread hwrite
            refine ⟨?_, hafter, ⟨d, ?_⟩, fun h => absurd h isOk_error⟩
            · rw [RewriteContract, hwrite]
              refine ⟨hfile, ?_⟩
              rw [hfile]
              exact hin
            · rw [hfile]
              exact hread
          | ok v =>
            obtain ⟨hcommitted, hafter⟩ := writeBack_ok hwrite
            rw [hworking] at hcommitted
            refine ⟨?_, hafter, ⟨_, hcommitted⟩, fun _ => by simpa using hstale⟩
            rw [RewriteContract, hwrite]
            exact ⟨o'.data, working, hdata, hchange, hcommitted⟩

theorem writeBack_file {returned : ConfigObject → Value} {e : PyError}
    (h : (writeBack E access file o returned).result = .error e) :
    (writeBack E access file o returned).file = file := by
  rw [writeBack] at h ⊢
  cases hsave : saveUnlocked E access o with
  | ok r =>
    rw [hsave] at h
    cases h
  | error e =>
    dsimp only
    cases loadUnlocked E access.reread file o <;> rfl

/-- A write that failed either leaves the object as it is, or the file has been read again. -/
theorem writeBack_object {returned : ConfigObject → Value} {e : PyError}
    (h : saveUnlocked E access o = .error e) :
    (writeBack E access file o returned).object = o ∨
      Based E [] (writeBack E access file o returned).object := by
  rw [writeBack, h]
  dsimp only
  cases hload : loadUnlocked E access.reread file o with
  | ok o' => exact Or.inr (based_of_load hload)
  | error e' => exact Or.inl rfl

/-- **`save`.** -/
theorem save_spec {sets : List SetCall} {caller : Nat} {d : Dict}
    (hread : readConfig E file = .ok d) (ho : Based E sets o)
    (hspares : CallSpares E sets file o access (.save caller)) :
    let r := o.save E access file
    CallContract E sets file r (.save caller) ∧
      Based E (unsavedAfter E access file o sets (.save caller)) r.object ∧
      ∃ d', readConfig E r.file = .ok d' := by
  dsimp only
  have hfailed : ∀ e, o.save E access file = ⟨file, o, .error e⟩ →
      CallContract E sets file (o.save E access file) (.save caller) ∧
        Based E (unsavedAfter E access file o sets (.save caller)) (o.save E access file).object ∧
        ∃ d', readConfig E (o.save E access file).file = .ok d' := by
    intro e he
    rw [unsavedAfter, he]
    exact ⟨rfl, ho, d, hread⟩
  by_cases hlock : access.lock = false
  · exact hfailed (lockTimeout E) (by rw [ConfigObject.save, if_pos hlock])
  by_cases hopen : file.isSome = true ∧ access.read = false
  · exact hfailed (.os E.path) (by rw [ConfigObject.save, if_neg hlock, if_pos hopen])
  by_cases hconflict : revisionOf E file ≠ o.dirtyBase.getD o.revision
  · exact hfailed saveConflict
      (by rw [ConfigObject.save, if_neg hlock, if_neg hopen, if_pos hconflict])
  have hsave : o.save E access file = writeBack E access file o fun _ => .none := by
    rw [ConfigObject.save, if_neg hlock, if_neg hopen, if_neg hconflict]
  have hrevision : revisionOf E file = o.dirtyBase.getD o.revision := not_not.mp hconflict
  have hreads : Reads access file := by
    refine ⟨by simpa using hlock, ?_⟩
    cases file with
    | none => exact Or.inl rfl
    | some f => exact Or.inr (by simpa using hopen)
  rw [unsavedAfter, hsave]
  cases hwrite : (writeBack E access file o fun _ => .none).result with
  | ok v =>
    obtain ⟨hcommitted, hafter⟩ := writeBack_ok hwrite
    obtain ⟨file₀, d₀, hbase, hdata, hsame⟩ := ho.base
    have hfile : readConfig E file = .ok d₀ := by
      rw [readConfig_of_revision (hrevision.trans hsame)]
      exact hbase
    refine ⟨?_, hafter, ⟨_, hcommitted⟩⟩
    rw [CallContract, hwrite]
    exact ⟨d₀, applySets sets d₀, hfile, rfl, hdata ▸ hcommitted⟩
  | error e =>
    have hsame := writeBack_file hwrite
    refine ⟨?_, ?_, ⟨d, by rw [hsame]; exact hread⟩⟩
    · rw [CallContract, hwrite]
      exact hsame
    · rcases hspares hreads hrevision with ⟨r, hr⟩ | hnil
      · rw [writeBack, hr] at hwrite
        cases hwrite
      · subst hnil
        cases hr : saveUnlocked E access o with
        | ok r =>
          rw [writeBack, hr] at hwrite
          cases hwrite
        | error e =>
          have hleft : (writeBack E access file o fun _ => .none).object = o ∨
              Based E [] (writeBack E access file o fun _ => .none).object := writeBack_object hr
          rcases hleft with hobject | hafter
          · rw [hobject]
            exact ho
          · exact hafter

/-- **`set`.** -/
theorem set_spec {sets : List SetCall} {caller : Nat} {keys : List String} {v : Value}
    (ho : Based E sets o) :
    let r := o.set E keys v access file
    r.file = file ∧ Based E (unsavedAfter E access file o sets (.set caller keys v)) r.object := by
  dsimp only
  rw [unsavedAfter, ConfigObject.set]
  by_cases hkeys : keys = []
  · rw [if_pos hkeys, if_neg fun h => h.1 hkeys]
    exact ⟨rfl, ho⟩
  · rw [if_neg hkeys]
    cases hreload : maybeReload E access file o with
    | error e =>
      rw [if_neg fun h => absurd h.2 (by rw [Except.isOk, Except.toBool]; decide)]
      exact ⟨rfl, ho⟩
    | ok o' =>
      obtain ⟨⟨file₀, d₀, hbase, hdata, hrevision⟩, hclean⟩ := maybeReload_based ho hreload
      rw [if_pos ⟨hkeys, rfl⟩]
      refine ⟨rfl, ⟨file₀, d₀, hbase, ?_, hrevision⟩, fun h => ?_⟩
      · rw [applySets_concat, ← hdata]
      · cases h

/-- **Every call keeps its promise.** -/
theorem call_spec {sets : List SetCall} {c : ConfigCall} {d : Dict}
    (hread : readConfig E file = .ok d) (ho : Based E sets o)
    (hspares : CallSpares E sets file o access c) :
    CallContract E sets file (c.perform E access file o) c ∧
      Based E (unsavedAfter E access file o sets c) (c.perform E access file o).object ∧
      ∃ d', readConfig E (c.perform E access file o).file = .ok d' := by
  cases c with
  | get keys fallback =>
    show (o.get E keys fallback access file).file = file ∧
      Based E sets (o.get E keys fallback access file).object ∧
      ∃ d', readConfig E (o.get E keys fallback access file).file = .ok d'
    rw [ConfigObject.get]
    cases hreload : maybeReload E access file o with
    | error e => exact ⟨rfl, ho, d, hread⟩
    | ok o' => exact ⟨rfl, maybeReload_based ho hreload, d, hread⟩
  | set caller keys v =>
    obtain ⟨hfile, hafter⟩ := @set_spec E file o access sets caller keys v ho
    refine ⟨hfile, hafter, d, ?_⟩
    show readConfig E (o.set E keys v access file).file = .ok d
    rw [hfile]
    exact hread
  | save caller => exact save_spec hread ho hspares
  | update updater expected =>
    obtain ⟨hcontract, hafter, hreadable, _⟩ := rewrite_spec hread ho hspares
    exact ⟨hcontract, hafter, hreadable⟩
  | replace data expected =>
    obtain ⟨hspares, hexpected⟩ := hspares
    cases data with
    | dict data =>
      have hreads : (Reads access file ∧ (asDict (.dict data)).isSome = true) ↔ Reads access file :=
        and_iff_left rfl
      rw [RewriteSpares, hreads] at hspares
      obtain ⟨hcontract, hafter, hreadable, hrevision⟩ := rewrite_spec hread ho hspares
      refine ⟨⟨hcontract, fun hok revision hgiven => ?_⟩, hafter, hreadable⟩
      have hfresh := hrevision hok
      rw [staleRevision, decide_eq_false_iff_not, hgiven, Option.getD_some] at hfresh
      by_contra hother
      refine hfresh ⟨fun hempty => ?_, Ne.symm hother⟩
      exact hexpected (hempty ▸ hgiven)
    | _ =>
      have hin : InStep E file o := hspares.2.1 fun h => Bool.false_ne_true h.2
      exact ⟨⟨⟨rfl, hin⟩, fun h => absurd h isOk_error⟩, ho, d, hread⟩
  | reload =>
    show (o.reload E access file).file = file ∧ Based E sets (o.reload E access file).object ∧
      ∃ d', readConfig E (o.reload E access file).file = .ok d'
    rw [ConfigObject.reload]
    by_cases hlock : access.lock = false
    · rw [if_pos hlock]
      exact ⟨rfl, ho, d, hread⟩
    · rw [if_neg hlock]
      cases hload : loadUnlocked E access.read file o with
      | error e => exact ⟨rfl, ho, d, hread⟩
      | ok o' =>
        have hnil : sets = [] := hspares ⟨by simpa using hlock, reads_of_load hload⟩
        subst hnil
        exact ⟨rfl, based_of_load hload, d, hread⟩

/-! ### Every run -/

/-- The step relation of the store. -/
def configStep (E : ConfigEnv) : ConfigSystem → ConfigAction → ConfigSystem → Prop :=
  Steps (ConfigSystem.step E)

/-- No call of a run forgets what was set, or leaves an outdated object. -/
def StoreSpares (E : ConfigEnv) (s : ConfigSystem) : ConfigAction → Prop
  | .create _ _ => True
  | .call n c access => ∀ o, s.objects n = some o → CallSpares E (s.unsaved n) s.file o access c

/-- Every object holds what was committed once, with the changes that no `save` has written; an
object exists only over a file that can be read. -/
def StoreOk (E : ConfigEnv) (s : ConfigSystem) : Prop :=
  ∀ n, match s.objects n with
    | some o => Based E (s.unsaved n) o ∧ ∃ d, readConfig E s.file = .ok d
    | none => s.unsaved n = []

theorem storeOk_start (file : Option StoredFile) : StoreOk E (.start file) := fun _ => rfl

theorem StoreOk.object {s : ConfigSystem} (h : StoreOk E s) {n : Nat} (ho : s.objects n = some o) :
    Based E (s.unsaved n) o ∧ ∃ d, readConfig E s.file = .ok d := by
  have hn := h n
  rwa [ho] at hn

theorem storeOk_step {s t : ConfigSystem} {a : ConfigAction} (hs : StoreOk E s)
    (hstep : configStep E s a t) (hspares : StoreSpares E s a) : StoreOk E t := by
  cases a with
  | create n readable =>
    simp only [configStep, Steps, ConfigSystem.step] at hstep
    cases hload : loadUnlocked E readable s.file ⟨[], 0, "missing", none⟩ with
    | error e =>
      rw [hload] at hstep
      cases hstep
    | ok o =>
      cases hn : s.objects n with
      | some o' =>
        rw [hload, hn] at hstep
        cases hstep
      | none =>
        rw [hload, hn] at hstep
        obtain rfl := Option.some.inj hstep
        obtain ⟨hread, _, hclean⟩ := loadUnlocked_ok hload
        have hnil : s.unsaved n = [] := by
          have h := hs n
          rwa [hn] at h
        have hbased : Based E (s.unsaved n) o := by
          have h := based_of_load hload
          have hsame : o.dirtyBase = none := hclean
          rw [← hsame] at h
          rw [hnil]
          exact h
        intro m
        by_cases hm : m = n
        · subst hm
          simp only [Function.update_self]
          exact ⟨hbased, _, hread⟩
        · simp only [Function.update_of_ne hm]
          exact hs m
  | call n c access =>
    simp only [configStep, Steps, ConfigSystem.step] at hstep
    cases hn : s.objects n with
    | none =>
      rw [hn] at hstep
      cases hstep
    | some o =>
      rw [hn] at hstep
      obtain rfl := Option.some.inj hstep
      obtain ⟨ho, d, hread⟩ := hs.object hn
      obtain ⟨_, hafter, hreadable⟩ := call_spec hread ho (hspares o hn)
      intro m
      by_cases hm : m = n
      · subst hm
        simp only [Function.update_self]
        exact ⟨hafter, hreadable⟩
      · simp only [Function.update_of_ne hm]
        cases hobject : s.objects m with
        | none =>
          have h := hs m
          rw [hobject] at h
          exact h
        | some o' => exact ⟨(hs.object hobject).1, hreadable⟩

/-- **No lost update.**  In every run in which no call forgets what was set, every call keeps its
promise. -/
theorem store_keeps_contract (E : ConfigEnv) {file : Option StoredFile} {as : List ConfigAction}
    {s : ConfigSystem} (hrun : Run (Restrict (configStep E) (StoreSpares E)) (.start file) as s)
    {n : Nat} {o : ConfigObject} (ho : s.objects n = some o) {c : ConfigCall} {access : FileAccess}
    (hspares : CallSpares E (s.unsaved n) s.file o access c) :
    CallContract E (s.unsaved n) s.file (c.perform E access s.file o) c := by
  have hs : StoreOk E s :=
    hrun.preserves (StoreOk E) (fun _ _ _ hs h => storeOk_step hs h.1 h.2) (storeOk_start file)
  obtain ⟨hbased, d, hread⟩ := hs.object ho
  exact (call_spec hread hbased hspares).1

/-! ### A change that is forgotten -/

/-- JSON as YAML. -/
def jsonDump (d : Dict) : Except PyError String :=
  if (Value.dict d).wellFormed then .ok (jsonDumps plainJson (.dict d))
  else .error (.value "cannot represent an object")

def jsonLoad (raw : String) : Except PyError Value :=
  (jsonLoads raw).elim (.error (.value "not readable")) .ok

theorem jsonLoad_jsonDump {d : Dict} {raw : String} (h : jsonDump d = .ok raw) :
    jsonLoad raw = .ok (.dict d) := by
  rw [jsonDump] at h
  split_ifs at h with hd
  obtain rfl := Except.ok.inj h
  rw [jsonLoad, jsonLoads_jsonDumps hd]
  rfl

/-- A text that stands for its hash. -/
def sampleHash (raw : String) : String := "sha256:" ++ raw

theorem sampleHash_inj {a b : String} (h : sampleHash a = sampleHash b) : a = b := by
  have htext := congrArg String.toList h
  rw [sampleHash, sampleHash, String.toList_append, String.toList_append] at htext
  exact String.toList_inj.mp (List.append_cancel_left htext)

theorem sampleHash_ne (a : String) : sampleHash a ≠ "missing" := by
  intro h
  have htext := congrArg String.toList h
  rw [sampleHash, String.toList_append] at htext
  have hhead := congrArg List.head? htext
  exact absurd hhead (by simp)

def sampleConfigEnv : ConfigEnv where
  path := "/data/config.yaml"
  lockPath := "/data/.config.yaml.lock"
  dump := jsonDump
  load := jsonLoad
  hash := sampleHash
  load_dump := fun _ _ => jsonLoad_jsonDump
  hash_inj := fun _ _ => sampleHash_inj
  hash_ne := sampleHash_ne

/-- Nothing fails, and a write gives the file this time. -/
def calmAccess (time : Nat) : FileAccess := ⟨true, true, true, some time, true⟩

def setTheme : ConfigCall := .set 0 ["theme"] (.int 1)

/-- An update of another thread. -/
def updateRate : ConfigCall := .update (fun d => .ok (d.set "rate" (.int 2), .none)) none

/-- The actions before the `save`. -/
def forgetting : List ConfigAction :=
  [.create 0 true, .call 0 setTheme (calmAccess 1), .call 0 updateRate (calmAccess 2)]

/-- What can be seen of the first object. -/
def ConfigSystem.view (s : ConfigSystem) : Option StoredFile × Option ConfigObject × List SetCall :=
  (s.file, s.objects 0, s.unsaved 0)

def rateFile : StoredFile := ⟨"\x7b\"rate\": 2\x7d", 2⟩

def rateObject : ConfigObject := ⟨[("rate", .int 2)], 2, "sha256:\x7b\"rate\": 2\x7d", none⟩

theorem forgetting_view :
    (runAll (ConfigSystem.step sampleConfigEnv) (.start none) forgetting).map ConfigSystem.view
      = some (some rateFile, some rateObject, [⟨0, ["theme"], .int 1⟩]) := by
  decide +kernel

/-- A `save` that returns although the change set before it was forgotten. -/
theorem set_forgotten : ∃ s,
    Run (configStep sampleConfigEnv) (.start none) forgetting s ∧
      s.view = (some rateFile, some rateObject, [⟨0, ["theme"], .int 1⟩]) ∧
      (rateObject.save sampleConfigEnv (calmAccess 3) (some rateFile)).result = .ok .none ∧
      ¬ CallContract sampleConfigEnv [⟨0, ["theme"], .int 1⟩] (some rateFile)
        (rateObject.save sampleConfigEnv (calmAccess 3) (some rateFile)) (.save 0) := by
  obtain ⟨s, hrun, hview⟩ := Option.map_eq_some_iff.mp forgetting_view
  have hresult : (rateObject.save sampleConfigEnv (calmAccess 3) (some rateFile)).result
      = .ok .none := by
    decide +kernel
  refine ⟨s, run_of_runAll hrun, hview, hresult, fun h => ?_⟩
  rw [CallContract, hresult] at h
  obtain ⟨d, d', hbefore, hchange, hafter⟩ := h
  have hcommitted : readConfig sampleConfigEnv (some rateFile) = .ok [("rate", .int 2)] := by
    decide +kernel
  have hwritten : readConfig sampleConfigEnv
      (rateObject.save sampleConfigEnv (calmAccess 3) (some rateFile)).file
        = .ok [("rate", .int 2)] := by
    decide +kernel
  obtain rfl := Except.ok.inj (hcommitted.symm.trans hbefore)
  obtain rfl := Except.ok.inj (hwritten.symm.trans hafter)
  exact absurd hchange (by decide +kernel)

/-- The same `save` without the update in between. -/
theorem set_saved : ∃ s, Run (Restrict (configStep sampleConfigEnv) (StoreSpares sampleConfigEnv))
    (.start none) [.create 0 true, .call 0 setTheme (calmAccess 1)] s ∧
      ∃ o, s.objects 0 = some o ∧
        CallContract sampleConfigEnv (s.unsaved 0) s.file
          (ConfigCall.perform sampleConfigEnv (.save 0) (calmAccess 2) s.file o) (.save 0) := by
  have hview : (runAll (ConfigSystem.step sampleConfigEnv) (.start none)
      [.create 0 true, .call 0 setTheme (calmAccess 1)]).map (fun s => s.objects 0)
        = some (some ⟨[("theme", .int 1)], 0, "missing", some "missing"⟩) := by
    decide +kernel
  obtain ⟨s, hs, hobject⟩ := Option.map_eq_some_iff.mp hview
  have hrun := (run_of_runAll hs).restrict (C := StoreSpares sampleConfigEnv) fun a ha u => by
    rcases List.mem_cons.mp ha with rfl | ha
    · exact trivial
    · obtain rfl := List.mem_singleton.mp ha
      exact fun _ _ => trivial
  have hwrites : ∃ r, saveUnlocked sampleConfigEnv (calmAccess 2)
      ⟨[("theme", .int 1)], 0, "missing", some "missing"⟩ = .ok r := ⟨_, rfl⟩
  exact ⟨s, hrun, _, hobject,
    store_keeps_contract sampleConfigEnv hrun hobject fun _ _ => Or.inl hwrites⟩

end RcloneSync
