/-
RcloneSync/PointComparison.lean

The comparison of two recovery points (`compare_points`, recovery_points.py).

Each point is an inventory: the sizes of its files, with SHA-256 digests where there are some.  What
happens to a path depends on its two entries alone (`groupOf`); the four lists of the code hold the
paths of the four groups (`mem_groups`), and the rest is read off the cases of `groupOf`.

Sets are iterated in an order of their own; it shows only in which of several paths that differ in
case comes first.
-/
import RcloneSync.RecoveryPointIds
import RcloneSync.SnapshotPruning

namespace RcloneSync

open Py

/-! ### Inventories -/

/-- The size of a file and its digest; an empty text if there is none. -/
structure FileEntry where
  size : Int
  digest : Value
  deriving DecidableEq, Repr

/-- `files[path] = entry`. -/
def putFile : List (String × FileEntry) → String → FileEntry → List (String × FileEntry)
  | [], path, entry => [(path, entry)]
  | (p, e) :: rest, path, entry =>
    if p = path then (path, entry) :: rest else (p, e) :: putFile rest path entry

theorem mem_putFile {files : List (String × FileEntry)} {path : String} {entry : FileEntry}
    {q : String} :
    q ∈ (putFile files path entry).map Prod.fst ↔ q = path ∨ q ∈ files.map Prod.fst := by
  induction files with
  | nil => simp [putFile]
  | cons file rest ih =>
    obtain ⟨p, e⟩ := file
    unfold putFile
    split
    · next hpath =>
      subst hpath
      simp
    · rw [List.map_cons, List.mem_cons, ih, List.map_cons, List.mem_cons]
      exact or_left_comm

theorem nodup_putFile {files : List (String × FileEntry)} (h : (files.map Prod.fst).Nodup)
    (path : String) (entry : FileEntry) : ((putFile files path entry).map Prod.fst).Nodup := by
  induction files with
  | nil => simp [putFile]
  | cons file rest ih =>
    obtain ⟨p, e⟩ := file
    obtain ⟨hp, hrest⟩ := List.nodup_cons.mp h
    unfold putFile
    split
    · next hpath =>
      subst hpath
      exact h
    · next hpath =>
      refine List.nodup_cons.mpr ⟨fun hmem => ?_, ih hrest⟩
      exact (mem_putFile.mp hmem).elim hpath hp

/-- The files of a point by their paths. -/
structure Inventory where
  files : List (String × FileEntry)
  nodup : (files.map Prod.fst).Nodup
  deriving DecidableEq

def Inventory.empty : Inventory := ⟨[], List.nodup_nil⟩

def Inventory.put (inventory : Inventory) (path : String) (entry : FileEntry) : Inventory :=
  ⟨putFile inventory.files path entry, nodup_putFile inventory.nodup path entry⟩

/-- `set(inventory)`. -/
def Inventory.paths (inventory : Inventory) : List String := inventory.files.map Prod.fst

/-- `inventory.get(path)`. -/
def Inventory.entry (inventory : Inventory) (path : String) : Option FileEntry :=
  inventory.files.lookup path

/-- The order in which a set is iterated. -/
structure SetOrder where
  order : List String → List String
  perm : ∀ paths, (order paths).Perm paths

/-- The surroundings: the stores, the recovery root, the files below a local directory with their
digests, the output of `rclone lsjson`, and the inventories that are compared without digests. -/
structure CompareEnv where
  store : StoreEnv
  prune : PruneEnv
  root : RecoveryRoot
  hashedFiles : String → Except PointError (List (String × Int × String))
  remoteOutput : String → Except PointError String
  plainInventory : String → Except PointError (Inventory × Bool)
  sets : SetOrder

/-- `except SnapshotError as exc: raise RecoveryPointError(str(exc))`. -/
def asPointError : SnapshotFault → PointError
  | .snapshot message => .point message
  | .key name => .uncaught (.runtime name)
  | .recursion => .uncaught (.runtime "maximum recursion depth exceeded")
  | .raised e => .uncaught e

/-- The entries of a manifest; a path that is no text cannot be sorted. -/
def manifestFiles : Inventory → List Value → Except PointError Inventory
  | files, [] => .ok files
  | files, .dict entry :: entries =>
    match Dict.get entry "path", intValue (Dict.get entry "size") with
    | .str path, some size =>
      manifestFiles (files.put path ⟨size, Dict.get entry "sha256"⟩) entries
    | _, _ => .error (.uncaught (.type "descriptor 'casefold' requires a 'str' object"))
  | _, _ :: _ => .error (.uncaught (.type "list indices must be integers or slices"))

/-- The loop over the rows of `lsjson`: the files and the directories so far, and the total. -/
def remoteFiles : Inventory → List String → Int → List Value → Except SnapshotFault Inventory
  | files, _, _, [] => .ok files
  | files, directories, total, .dict row :: rows => do
    let relative ← snapshotRelative (pyStr (pyOr (Dict.get row "Path") (.str "")))
    if relative ∈ files.paths ∨ relative ∈ directories then
      .error (.snapshot "Doppelte Pfade im Sicherungsbestand")
    else if truthy (Dict.get row "IsDir") then
      remoteFiles files (relative :: directories) total rows
    else
      match intValue (Dict.get row "Size") with
      | none => .error (.snapshot "Ungültige Dateigröße im Sicherungsbestand")
      | some size =>
        if size < 0 then .error (.snapshot "Ungültige Dateigröße im Sicherungsbestand")
        else if maxSnapshotBytes < total + size then
          .error (.snapshot "Vollständiger Stand überschreitet das Größenlimit")
        else remoteFiles (files.put relative ⟨size, .str ""⟩) directories (total + size) rows
  | _, _, _, _ :: _ => .error (.snapshot "Ungültiger Eintrag im Sicherungsbestand")

/-- `_inventory_remote`; the digests of a provider are never compared. -/
def remoteInventory (output : String) : Except SnapshotFault Inventory :=
  match jsonLoads output with
  | none => .error (.snapshot "Sicherungsziel lieferte ungültigen Bestand")
  | some (.list rows) =>
    if maxSnapshotFiles < rows.length then
      .error (.snapshot "Sicherungsbestand überschreitet das Dateilimit")
    else remoteFiles .empty [] 0 rows
  | some _ => .error (.snapshot "Sicherungsbestand überschreitet das Dateilimit")

/-- The inventory of a full point. -/
def fullInventory (env : CompareEnv) (point : String) : Except PointError Inventory := do
  let manifest ← (loadManifest env.prune point false (env.root point)).mapError asPointError
  match Dict.get manifest "entries" with
  | .list entries => manifestFiles .empty entries
  | _ => .error (.uncaught (.type "object is not iterable"))

/-- The inventory of a live side or an archive, compared with a full point. -/
def liveInventory (env : CompareEnv) (target : String) : Except PointError Inventory :=
  if isRemotePoint target then
    (env.remoteOutput target).bind fun output => (remoteInventory output).mapError asPointError
  else
    (env.hashedFiles target).map fun files =>
      files.foldl (fun inventory file =>
        inventory.put file.1 ⟨file.2.1, .str file.2.2⟩) .empty

/-- `comparing_full`. -/
def comparingFull (fromPoint toPoint : String) : Bool :=
  startsWith fromPoint "full-" || startsWith toPoint "full-"

/-- `inventory(point)`. -/
def pointInventory (env : CompareEnv) (backup : Dict) (full : Bool) (point : String) :
    Except PointError (Inventory × Bool) :=
  let target := pointTarget env.store backup env.prune.pair point
  if !full then target.bind env.plainInventory
  else if startsWith point "full-" then (fullInventory env point).map (·, false)
  else (target.bind (liveInventory env)).map (·, false)

/-! ### The comparison -/

/-- `sorted(paths, key=str.casefold)`. -/
def sortedFolded (paths : List String) : List String :=
  paths.mergeSort fun a b => !decide (casefold b < casefold a)

/-- `sorted(paths)`. -/
def sortedPlain (paths : List String) : List String := paths.mergeSort fun a b => !decide (b < a)

/-- The sizes differ, or both have a digest and these differ. -/
def isChanged (s d : FileEntry) : Bool :=
  s.size ≠ d.size || (truthy s.digest && truthy d.digest && !pyEq s.digest d.digest)

/-- The sizes are equal, and not both have a digest. -/
def isUnverified (full : Bool) (s d : FileEntry) : Bool :=
  full && s.size = d.size && !(truthy s.digest && truthy d.digest)

/-- The groups before the display cut. -/
structure PointGroups where
  added : List String
  removed : List String
  changed : List String
  unverified : List String
  deriving DecidableEq, Repr

/-- The paths on both sides whose entries have a property. -/
def commonPaths (sets : SetOrder) (p : FileEntry → FileEntry → Bool)
    (source destination : Inventory) : List String :=
  (sets.order (source.paths.filter (· ∈ destination.paths))).filter fun path =>
    match source.entry path, destination.entry path with
    | some s, some d => p s d
    | _, _ => false

def pointGroups (sets : SetOrder) (full : Bool) (source destination : Inventory) : PointGroups where
  added := sortedFolded (sets.order (destination.paths.filter (· ∉ source.paths)))
  removed := sortedFolded (sets.order (source.paths.filter (· ∉ destination.paths)))
  changed := sortedFolded (commonPaths sets isChanged source destination)
  unverified := sortedPlain (commonPaths sets (isUnverified full) source destination)

def maxDiffResults : Nat := 750

structure FileRow where
  path : String
  size : Int
  deriving DecidableEq, Repr

structure ChangeRow where
  path : String
  fromSize : Int
  toSize : Int
  deriving DecidableEq, Repr

/-- `entries`. -/
def fileRows (paths : List String) (values : Inventory) : List FileRow :=
  (paths.take maxDiffResults).filterMap fun path =>
    (values.entry path).map fun e => ⟨path, e.size⟩

/-- The rows of the changed files. -/
def changeRows (paths : List String) (source destination : Inventory) : List ChangeRow :=
  (paths.take maxDiffResults).filterMap fun path =>
    (source.entry path).bind fun s =>
      (destination.entry path).map fun d => ⟨path, s.size, d.size⟩

/-- The answer, beside the groups that it was cut from. -/
structure PointComparison where
  groups : PointGroups
  fromPoint : String
  toPoint : String
  added : List FileRow
  removed : List FileRow
  changed : List ChangeRow
  unverified : List FileRow
  verification : String
  warning : Option String
  counts : Nat × Nat × Nat
  truncated : Bool
  deriving DecidableEq, Repr

/-- The answer for two inventories. -/
def answerOf (fromPoint toPoint : String) (full cut : Bool) (groups : PointGroups)
    (source destination : Inventory) : PointComparison where
  groups
  fromPoint
  toPoint
  added := fileRows groups.added destination
  removed := fileRows groups.removed source
  changed := changeRows groups.changed source destination
  unverified := fileRows groups.unverified destination
  verification := if full && groups.unverified.isEmpty then "sha256" else "metadata"
  warning :=
    if groups.unverified.isEmpty then none
    else some ("Für gleich große Dateien fehlen vergleichbare Cloud-Prüfsummen. " ++
      "Diese Dateien sind nicht als unverändert bestätigt.")
  counts := (groups.added.length, groups.removed.length, groups.changed.length)
  truncated := cut || !groups.unverified.isEmpty ||
    [groups.added, groups.removed, groups.changed].any fun items => maxDiffResults < items.length

/-- `compare_points`. -/
def comparePoints (env : CompareEnv) (backup : Dict) (fromPoint toPoint : String) :
    Except PointError PointComparison := do
  let full := comparingFull fromPoint toPoint
  let (source, sourceTruncated) ← pointInventory env backup full fromPoint
  let (destination, destinationTruncated) ← pointInventory env backup full toPoint
  .ok (answerOf fromPoint toPoint full (sourceTruncated || destinationTruncated)
    (pointGroups env.sets full source destination) source destination)

/-! ### The group of a path -/

inductive PathGroup
  | added | removed | changed | unverified
  deriving DecidableEq, Repr

/-- The group in the opposite direction. -/
def PathGroup.exchanged : PathGroup → PathGroup
  | .added => .removed
  | .removed => .added
  | .changed => .changed
  | .unverified => .unverified

def PointGroups.of (groups : PointGroups) : PathGroup → List String
  | .added => groups.added
  | .removed => groups.removed
  | .changed => groups.changed
  | .unverified => groups.unverified

/-- The paths that are shown. -/
def PointComparison.shown (r : PointComparison) : PathGroup → List String
  | .added => r.added.map FileRow.path
  | .removed => r.removed.map FileRow.path
  | .changed => r.changed.map ChangeRow.path
  | .unverified => r.unverified.map FileRow.path

/-- What the two entries of a path decide. -/
def groupOf (full : Bool) : Option FileEntry → Option FileEntry → Option PathGroup
  | none, none => none
  | none, some _ => some .added
  | some _, none => some .removed
  | some s, some d =>
    if isChanged s d then some .changed
    else if isUnverified full s d then some .unverified
    else none

theorem not_isChanged_of_isUnverified {full : Bool} {s d : FileEntry}
    (h : isUnverified full s d = true) : isChanged s d = false := by
  simp only [isUnverified, Bool.and_eq_true, decide_eq_true_eq, Bool.not_eq_true'] at h
  obtain ⟨⟨-, hsize⟩, hdigest⟩ := h
  simp [isChanged, hsize, hdigest]

theorem mem_paths_iff {inventory : Inventory} {path : String} :
    path ∈ inventory.paths ↔ (inventory.entry path).isSome = true := by
  unfold Inventory.paths Inventory.entry
  generalize inventory.files = files
  induction files with
  | nil => simp
  | cons file rest ih =>
    obtain ⟨p, e⟩ := file
    rw [List.map_cons, List.mem_cons, ih, List.lookup_cons]
    by_cases hpath : path = p
    · simp [hpath]
    · rw [beq_false_of_ne hpath]
      exact or_iff_right hpath

theorem mem_sortedFolded {paths : List String} {path : String} :
    path ∈ sortedFolded paths ↔ path ∈ paths := List.mem_mergeSort

theorem mem_sortedPlain {paths : List String} {path : String} :
    path ∈ sortedPlain paths ↔ path ∈ paths := List.mem_mergeSort

theorem mem_commonPaths {sets : SetOrder} {p : FileEntry → FileEntry → Bool}
    {source destination : Inventory} {path : String} :
    path ∈ commonPaths sets p source destination ↔ ∃ s d, source.entry path = some s ∧
      destination.entry path = some d ∧ p s d = true := by
  unfold commonPaths
  rw [List.mem_filter, (sets.perm _).mem_iff, List.mem_filter, mem_paths_iff]
  simp only [mem_paths_iff, decide_eq_true_eq]
  cases source.entry path with
  | none => simp
  | some s =>
    cases destination.entry path with
    | none => simp
    | some d => simp

theorem groupOf_added {full : Bool} {s d : Option FileEntry} :
    groupOf full s d = some .added ↔ d.isSome = true ∧ s.isSome = false := by
  cases s <;> cases d <;> simp [groupOf]
  split_ifs <;> simp

theorem groupOf_removed {full : Bool} {s d : Option FileEntry} :
    groupOf full s d = some .removed ↔ s.isSome = true ∧ d.isSome = false := by
  cases s <;> cases d <;> simp [groupOf]
  split_ifs <;> simp

theorem groupOf_changed {full : Bool} {s d : Option FileEntry} :
    groupOf full s d = some .changed ↔
      ∃ e f, s = some e ∧ d = some f ∧ isChanged e f = true := by
  cases s <;> cases d <;> simp [groupOf]

theorem groupOf_unverified {full : Bool} {s d : Option FileEntry} :
    groupOf full s d = some .unverified ↔
      ∃ e f, s = some e ∧ d = some f ∧ isUnverified full e f = true := by
  constructor
  · intro h
    cases s <;> cases d <;> simp [groupOf] at h
    split_ifs at h with hchanged hunverified
    · cases h
    · exact ⟨_, _, rfl, rfl, hunverified⟩
  · rintro ⟨e, f, rfl, rfl, hunverified⟩
    have hchanged := not_isChanged_of_isUnverified hunverified
    simp [groupOf, hchanged, hunverified]

/-- The list of a group holds the paths of the group. -/
theorem mem_groups {sets : SetOrder} {full : Bool} {source destination : Inventory}
    {path : String} (g : PathGroup) : path ∈ (pointGroups sets full source destination).of g ↔
      groupOf full (source.entry path) (destination.entry path) = some g := by
  cases g with
  | added =>
    show path ∈ sortedFolded _ ↔ _
    rw [mem_sortedFolded, (sets.perm _).mem_iff, List.mem_filter, decide_eq_true_eq,
      mem_paths_iff, mem_paths_iff, groupOf_added, Bool.not_eq_true]
  | removed =>
    show path ∈ sortedFolded _ ↔ _
    rw [mem_sortedFolded, (sets.perm _).mem_iff, List.mem_filter, decide_eq_true_eq,
      mem_paths_iff, mem_paths_iff, groupOf_removed, Bool.not_eq_true]
  | changed =>
    show path ∈ sortedFolded _ ↔ _
    rw [mem_sortedFolded, mem_commonPaths, groupOf_changed]
  | unverified =>
    show path ∈ sortedPlain _ ↔ _
    rw [mem_sortedPlain, mem_commonPaths, groupOf_unverified]

/-! ### Equal files -/

/-- The sizes are equal, and there are digests, which are equal. -/
structure SameContent (s d : FileEntry) : Prop where
  size : s.size = d.size
  digests : truthy s.digest = true ∧ truthy d.digest = true
  digest : pyEq s.digest d.digest = true

/-- Among full points, a path without a group has the same file on both sides. -/
theorem sameContent_of_groupOf {s d : Option FileEntry} (h : groupOf true s d = none)
    (hsome : s.isSome = true ∨ d.isSome = true) :
    ∃ e f, s = some e ∧ d = some f ∧ SameContent e f := by
  cases s with
  | none =>
    cases d with
    | none => simp at hsome
    | some f => cases h
  | some e =>
    cases d with
    | none => cases h
    | some f =>
      refine ⟨e, f, rfl, rfl, ?_⟩
      simp only [groupOf] at h
      split_ifs at h with hchanged hunverified
      simp only [isChanged, Bool.or_eq_true, decide_eq_true_eq, not_or, ne_eq, not_not] at hchanged
      obtain ⟨hsize, hdigest⟩ := hchanged
      have hboth : (truthy e.digest && truthy f.digest) = true := by
        simpa [isUnverified, hsize] using hunverified
      rw [hboth, Bool.true_and, Bool.not_eq_true', Bool.not_eq_false] at hdigest
      exact ⟨hsize, Bool.and_eq_true _ _ ▸ hboth, hdigest⟩

/-! ### The opposite direction -/

/-- No list and no mapping. -/
def isScalar : Value → Bool
  | .list _ | .dict _ => false
  | _ => true

theorem floatEq_comm (x y : PyFloat) : x.eq y = y.eq x := by
  cases x <;> cases y <;> simp only [PyFloat.eq]
  exact Bool.beq_comm

theorem pyEq_comm {v w : Value} (hv : isScalar v = true) (hw : isScalar w = true) :
    pyEq v w = pyEq w v := by
  cases v <;> cases w <;> simp_all [pyEq, numberOf, isScalar, floatEq_comm, Bool.beq_comm]

theorem isChanged_comm {s d : FileEntry} (hs : isScalar s.digest = true)
    (hd : isScalar d.digest = true) : isChanged d s = isChanged s d := by
  unfold isChanged
  rw [pyEq_comm hd hs, Bool.and_comm (truthy d.digest)]
  congr 1
  simp only [ne_eq, eq_comm]

theorem isUnverified_comm (full : Bool) (s d : FileEntry) :
    isUnverified full d s = isUnverified full s d := by
  unfold isUnverified
  rw [Bool.and_comm (truthy d.digest)]
  congr 2
  simp only [eq_comm]

/-- All digests are scalar. -/
def Inventory.Comparable (inventory : Inventory) : Prop :=
  ∀ file ∈ inventory.files, isScalar file.2.digest = true

theorem scalar_of_entry {inventory : Inventory} (h : inventory.Comparable) {path : String}
    {e : FileEntry} (he : inventory.entry path = some e) : isScalar e.digest = true := by
  unfold Inventory.Comparable at h
  unfold Inventory.entry at he
  exact h (path, e) (mem_of_lookup he)

theorem mem_files_put {files : List (String × FileEntry)} {path : String} {entry : FileEntry}
    {file : String × FileEntry} (h : file ∈ putFile files path entry) :
    file = (path, entry) ∨ file ∈ files := by
  induction files with
  | nil => exact .inl (List.mem_singleton.mp h)
  | cons first rest ih =>
    obtain ⟨p, e⟩ := first
    unfold putFile at h
    split at h
    · exact (List.mem_cons.mp h).imp_right (List.mem_cons_of_mem _)
    · rcases List.mem_cons.mp h with rfl | hrest
      · exact .inr List.mem_cons_self
      · exact (ih hrest).imp_right (List.mem_cons_of_mem _)

theorem comparable_put {inventory : Inventory} (h : inventory.Comparable) (path : String)
    {entry : FileEntry} (hentry : isScalar entry.digest = true) :
    (inventory.put path entry).Comparable := by
  intro file hfile
  rcases mem_files_put hfile with rfl | hold
  · exact hentry
  · exact h file hold

theorem comparable_empty : Inventory.empty.Comparable := List.forall_mem_nil _

theorem groupOf_exchanged {full : Bool} {source destination : Inventory}
    (hs : source.Comparable) (hd : destination.Comparable) (path : String) :
    groupOf full (destination.entry path) (source.entry path) =
      (groupOf full (source.entry path) (destination.entry path)).map .exchanged := by
  cases hentry : source.entry path with
  | none =>
    cases destination.entry path <;> rfl
  | some s =>
    cases hentry' : destination.entry path with
    | none => rfl
    | some d =>
      simp only [groupOf]
      rw [isChanged_comm (scalar_of_entry hs hentry) (scalar_of_entry hd hentry'),
        isUnverified_comm full s d]
      split_ifs <;> rfl

/-! ### The digests of an inventory -/

theorem scalar_of_isDigest {v : Value}
    (h : isDigest (pyStr (pyOr v (.str ""))) = true) : isScalar v = true := by
  have hchars : ∀ c ∈ (pyStr (pyOr v (.str ""))).toList,
      c ∈ "0123456789abcdef".toList := by
    intro c hc
    have hall := (Bool.and_eq_true _ _ ▸ h).2
    exact List.contains_iff_mem.mp (List.all_eq_true.mp hall c hc)
  cases v with
  | list xs =>
    cases xs with
    | nil => simp [pyOr, truthy, pyStr, isDigest] at h
    | cons x xs =>
      have hhead := hchars '[' (by simp [pyOr, truthy, pyStr, pyRepr])
      simp at hhead
  | dict d =>
    cases d with
    | nil => simp [pyOr, truthy, pyStr, isDigest] at h
    | cons x xs =>
      have hhead := hchars '\x7b' (by simp [pyOr, truthy, pyStr, pyRepr])
      simp at hhead
  | none | bool | int | float | str => rfl

theorem digests_of_entriesTotal {seen : List String} {total result : Int} {entries : List Value}
    (h : entriesTotal seen total entries = .ok result) {entry : Dict}
    (hentry : .dict entry ∈ entries) : isScalar (Dict.get entry "sha256") = true := by
  induction entries generalizing seen total with
  | nil => cases hentry
  | cons first rest ih =>
    cases first with
    | dict d =>
      unfold entriesTotal at h
      obtain ⟨relative, -, h⟩ := bind_ok.mp h
      split_ifs at h with hbroken
      rw [not_or] at hbroken
      split at h
      · cases h
      split_ifs at h
      rcases List.mem_cons.mp hentry with heq | hrest
      · cases heq
        exact scalar_of_isDigest (by simpa using hbroken.2)
      · exact ih h hrest
    | none | bool | int | float | str | list => cases h

theorem comparable_manifest {entries : List Value} {files result : Inventory}
    (hfiles : files.Comparable)
    (hdigests : ∀ entry, .dict entry ∈ entries → isScalar (Dict.get entry "sha256") = true)
    (h : manifestFiles files entries = .ok result) : result.Comparable := by
  induction entries generalizing files with
  | nil =>
    obtain rfl := Except.ok.inj h
    exact hfiles
  | cons first rest ih =>
    cases first with
    | dict d =>
      unfold manifestFiles at h
      split at h
      · refine ih (comparable_put hfiles _ (hdigests d List.mem_cons_self)) ?_ h
        exact fun entry hentry => hdigests entry (List.mem_cons_of_mem _ hentry)
      · cases h
    | none | bool | int | float | str | list => cases h

theorem comparable_remote {rows : List Value} {files result : Inventory}
    {directories : List String} {total : Int} (hfiles : files.Comparable)
    (h : remoteFiles files directories total rows = .ok result) : result.Comparable := by
  induction rows generalizing files directories total with
  | nil =>
    obtain rfl := Except.ok.inj h
    exact hfiles
  | cons first rest ih =>
    cases first with
    | dict d =>
      unfold remoteFiles at h
      obtain ⟨relative, -, h⟩ := bind_ok.mp h
      split_ifs at h
      · exact ih hfiles h
      · split at h
        · cases h
        · split_ifs at h
          exact ih (comparable_put hfiles _ rfl) h
    | none | bool | int | float | str | list => cases h

theorem mapError_ok {ε ε' α : Type} {f : ε → ε'} {x : Except ε α} {a : α} :
    x.mapError f = .ok a ↔ x = .ok a := by
  cases x with
  | error e => exact ⟨(by cases ·), (by cases ·)⟩
  | ok b => exact ⟨fun h => congrArg _ (Except.ok.inj h), fun h => congrArg _ (Except.ok.inj h)⟩

/-- The entries of a manifest that is accepted have been checked. -/
theorem entriesTotal_of_loadManifest {env : PruneEnv} {id : String} {allowPrevious : Bool}
    {entry : Option RootEntry} {manifest : Dict} {entries : List Value}
    (h : loadManifest env id allowPrevious entry = .ok manifest)
    (hentries : Dict.get manifest "entries" = .list entries) :
    ∃ total, entriesTotal [] 0 entries = .ok total := by
  unfold loadManifest at h
  split at h
  · cases h
  obtain ⟨file, -, h⟩ := bind_ok.mp h
  obtain ⟨value, -, h⟩ := bind_ok.mp h
  cases value with
  | dict d =>
    simp only at h
    split at h
    · cases h
    · obtain ⟨_, hlisting, h⟩ := bind_ok.mp h
      obtain rfl := Except.ok.inj h
      unfold checkListing at hlisting
      rw [hentries] at hlisting
      simp only at hlisting
      split at hlisting
      · cases hlisting
      · obtain ⟨total, htotal, -⟩ := bind_ok.mp hlisting
        exact ⟨total, htotal⟩
  | none | bool | int | float | str | list => cases h

section Compared

variable {env : CompareEnv} {backup : Dict} {fromPoint toPoint : String}

theorem comparable_full {point : String} {inventory : Inventory}
    (h : fullInventory env point = .ok inventory) : inventory.Comparable := by
  unfold fullInventory at h
  obtain ⟨manifest, hmanifest, h⟩ := bind_ok.mp h
  split at h
  · next entries hentries =>
    obtain ⟨total, htotal⟩ := entriesTotal_of_loadManifest (mapError_ok.mp hmanifest) hentries
    refine comparable_manifest comparable_empty ?_ h
    exact fun entry hentry => digests_of_entriesTotal htotal hentry
  · cases h

theorem comparable_live {target : String} {inventory : Inventory}
    (h : liveInventory env target = .ok inventory) : inventory.Comparable := by
  unfold liveInventory at h
  split at h
  · obtain ⟨output, -, h⟩ := bind_ok.mp h
    have h := mapError_ok.mp h
    unfold remoteInventory at h
    split at h
    · cases h
    · split at h
      · cases h
      · exact comparable_remote comparable_empty h
    · cases h
  · cases hfiles : env.hashedFiles target with
    | error e =>
      rw [hfiles] at h
      cases h
    | ok files =>
      rw [hfiles] at h
      obtain rfl := Except.ok.inj h
      have hfold : ∀ (files : List (String × Int × String)) (inventory : Inventory),
          inventory.Comparable → (files.foldl (fun inventory file =>
            inventory.put file.1 ⟨file.2.1, .str file.2.2⟩) inventory).Comparable := by
        intro files
        induction files with
        | nil => exact fun _ hinventory => hinventory
        | cons file rest ih => exact fun _ hinventory => ih _ (comparable_put hinventory _ rfl)
      exact hfold files _ comparable_empty

/-- Compared with a full point, an inventory has scalar digests and is not cut. -/
theorem comparable_point {point : String} {inventory : Inventory} {cut : Bool}
    (h : pointInventory env backup true point = .ok (inventory, cut)) :
    inventory.Comparable ∧ cut = false := by
  unfold pointInventory at h
  rw [Bool.not_true, if_neg Bool.false_ne_true] at h
  split at h
  · cases hfull : fullInventory env point with
    | error e =>
      rw [hfull] at h
      cases h
    | ok found =>
      rw [hfull] at h
      cases h
      exact ⟨comparable_full hfull, rfl⟩
  · cases hlive : (pointTarget env.store backup env.prune.pair point).bind (liveInventory env) with
    | error e =>
      rw [hlive] at h
      cases h
    | ok found =>
      rw [hlive] at h
      cases h
      obtain ⟨target, -, hlive⟩ := bind_ok.mp hlive
      exact ⟨comparable_live hlive, rfl⟩

/-! ### The comparison is sound -/

/-- What the groups and the flags of a comparison say about the two inventories. -/
structure SoundComparison (env : CompareEnv) (backup : Dict) (fromPoint toPoint : String)
    (source destination : Inventory) (r : PointComparison) : Prop where
  /-- A path without a group is the same file on both sides. -/
  unchanged : ∀ path, path ∈ source.paths ∨ path ∈ destination.paths →
    (∀ g, path ∉ r.groups.of g) →
    ∃ s d, source.entry path = some s ∧ destination.entry path = some d ∧ SameContent s d
  single : ∀ path g g', path ∈ r.groups.of g → path ∈ r.groups.of g' → g = g'
  exchanged : ∀ sets : SetOrder, ∃ r',
    comparePoints { env with sets := sets } backup toPoint fromPoint = .ok r' ∧
      ∀ g, (r'.groups.of g.exchanged).Perm (r.groups.of g)
  hidden : ∀ path g, path ∈ r.groups.of g → path ∉ r.shown g → r.truncated = true
  resized : ∀ path s d, source.entry path = some s → destination.entry path = some d →
    s.size ≠ d.size → path ∈ r.groups.changed
  /-- A file of one size that could not be compared is reported. -/
  uncompared : ∀ path s d, source.entry path = some s → destination.entry path = some d →
    s.size = d.size → (truthy s.digest && truthy d.digest) = false →
    path ∈ r.groups.unverified ∧ r.truncated = true

theorem take_of_le {paths : List String} (h : ¬maxDiffResults < paths.length) :
    paths.take maxDiffResults = paths := List.take_of_length_le (by omega)

theorem mem_fileRows {paths : List String} {values : Inventory} {path : String}
    (hlength : ¬maxDiffResults < paths.length) (hpath : path ∈ paths)
    (hentry : (values.entry path).isSome = true) :
    path ∈ (fileRows paths values).map FileRow.path := by
  obtain ⟨e, he⟩ := Option.isSome_iff_exists.mp hentry
  refine List.mem_map.mpr ⟨⟨path, e.size⟩, List.mem_filterMap.mpr ⟨path, ?_, ?_⟩, rfl⟩
  · rwa [take_of_le hlength]
  · rw [he]
    rfl

theorem mem_changeRows {paths : List String} {source destination : Inventory} {path : String}
    (hlength : ¬maxDiffResults < paths.length) (hpath : path ∈ paths)
    (hs : (source.entry path).isSome = true) (hd : (destination.entry path).isSome = true) :
    path ∈ (changeRows paths source destination).map ChangeRow.path := by
  obtain ⟨s, hs⟩ := Option.isSome_iff_exists.mp hs
  obtain ⟨d, hd⟩ := Option.isSome_iff_exists.mp hd
  refine List.mem_map.mpr ⟨⟨path, s.size, d.size⟩, List.mem_filterMap.mpr ⟨path, ?_, ?_⟩, rfl⟩
  · rwa [take_of_le hlength]
  · rw [hs, hd]
    rfl

theorem not_truncated {full cut : Bool} {groups : PointGroups} {source destination : Inventory}
    (h : (answerOf fromPoint toPoint full cut groups source destination).truncated = false) :
    groups.unverified = [] ∧ ¬maxDiffResults < groups.added.length ∧
      ¬maxDiffResults < groups.removed.length ∧ ¬maxDiffResults < groups.changed.length := by
  simpa [answerOf, and_assoc] using (Bool.or_eq_false_iff.mp h).imp_left
    fun hcut => (Bool.or_eq_false_iff.mp hcut).2

/-- An answer that is not truncated shows every path of a group. -/
theorem shown_of_not_truncated {sets : SetOrder} {full cut : Bool}
    {source destination : Inventory}
    (h : (answerOf fromPoint toPoint full cut (pointGroups sets full source destination) source
      destination).truncated = false) {path : String} {g : PathGroup}
    (hpath : path ∈ (pointGroups sets full source destination).of g) :
    path ∈ (answerOf fromPoint toPoint full cut (pointGroups sets full source destination) source
      destination).shown g := by
  obtain ⟨hunverified, hadded, hremoved, hchanged⟩ := not_truncated h
  have hgroup := (mem_groups g).mp hpath
  cases g with
  | added => exact mem_fileRows hadded hpath (groupOf_added.mp hgroup).1
  | removed => exact mem_fileRows hremoved hpath (groupOf_removed.mp hgroup).1
  | changed =>
    obtain ⟨s, d, hs, hd, -⟩ := groupOf_changed.mp hgroup
    exact mem_changeRows hchanged hpath (hs ▸ rfl) (hd ▸ rfl)
  | unverified =>
    have hpath : path ∈ (pointGroups sets full source destination).unverified := hpath
    rw [hunverified] at hpath
    cases hpath

/-- The paths of two orders and two directions are the same. -/
theorem groups_exchanged {source destination : Inventory} (hs : source.Comparable)
    (hd : destination.Comparable) (sets sets' : SetOrder) (full : Bool) (g : PathGroup) :
    ((pointGroups sets' full destination source).of g.exchanged).Perm
      ((pointGroups sets full source destination).of g) := by
  have hnodup : ∀ (sets : SetOrder) (source destination : Inventory) (g : PathGroup),
      ((pointGroups sets full source destination).of g).Nodup := by
    intro sets source destination g
    have hfilter : ∀ (paths : List String) (p : String → Bool), paths.Nodup →
        (sets.order (paths.filter p)).Nodup :=
      fun paths p hpaths => (sets.perm _).nodup_iff.mpr (hpaths.filter p)
    cases g with
    | added => exact (List.mergeSort_perm _ _).nodup_iff.mpr (hfilter _ _ destination.nodup)
    | removed => exact (List.mergeSort_perm _ _).nodup_iff.mpr (hfilter _ _ source.nodup)
    | changed | unverified =>
      exact (List.mergeSort_perm _ _).nodup_iff.mpr ((hfilter _ _ source.nodup).filter _)
  refine (List.perm_ext_iff_of_nodup (hnodup _ _ _ _) (hnodup _ _ _ _)).mpr fun path => ?_
  rw [mem_groups, mem_groups, groupOf_exchanged hs hd]
  constructor
  · intro h
    obtain ⟨g', hg', hsame⟩ := Option.map_eq_some_iff.mp h
    have hinj : g' = g := by
      cases g' <;> cases g <;> first | rfl | cases hsame
    rw [hg', hinj]
  · intro h
    rw [h]
    rfl

/-- **The comparison with a full point is sound**, the flags up to the files of different sizes. -/
theorem comparison_sound (hfull : comparingFull fromPoint toPoint = true) {r : PointComparison}
    (h : comparePoints env backup fromPoint toPoint = .ok r) :
    ∃ source destination,
      pointInventory env backup true fromPoint = .ok (source, false) ∧
      pointInventory env backup true toPoint = .ok (destination, false) ∧
      SoundComparison env backup fromPoint toPoint source destination r := by
  unfold comparePoints at h
  rw [hfull] at h
  obtain ⟨⟨source, cut⟩, hsource, h⟩ := bind_ok.mp h
  obtain ⟨⟨destination, cut'⟩, hdestination, h⟩ := bind_ok.mp h
  obtain ⟨hs, rfl⟩ := comparable_point hsource
  obtain ⟨hd, rfl⟩ := comparable_point hdestination
  obtain rfl := Except.ok.inj h
  refine ⟨source, destination, hsource, hdestination, ?_, ?_, ?_, ?_, ?_, ?_⟩
  · intro path hpath hnone
    refine sameContent_of_groupOf (Option.eq_none_iff_forall_ne_some.mpr fun g hg => ?_) ?_
    · exact hnone g ((mem_groups g).mpr hg)
    · exact hpath.imp mem_paths_iff.mp mem_paths_iff.mp
  · intro path g g' hg hg'
    exact Option.some.inj (((mem_groups g).mp hg).symm.trans ((mem_groups g').mp hg'))
  · intro sets
    have hback : comparingFull toPoint fromPoint = true := by
      unfold comparingFull at hfull ⊢
      rw [Bool.or_comm]
      exact hfull
    refine ⟨answerOf toPoint fromPoint true (false || false)
      (pointGroups sets true destination source) destination source, ?_, fun g => ?_⟩
    · unfold comparePoints
      rw [hback]
      exact bind_ok.mpr ⟨_, hdestination, bind_ok.mpr ⟨_, hsource, rfl⟩⟩
    · exact groups_exchanged hs hd env.sets sets true g
  · intro path g hpath hshown
    by_contra htruncated
    exact hshown (shown_of_not_truncated (Bool.not_eq_true _ ▸ htruncated) hpath)
  · intro path s d hs' hd' hsize
    exact (mem_groups .changed).mpr
      (groupOf_changed.mpr ⟨s, d, hs', hd', by simp [isChanged, hsize]⟩)
  · intro path s d hs' hd' hsize hdigests
    have hgroup : path ∈ (pointGroups env.sets true source destination).of .unverified := by
      rw [mem_groups, groupOf_unverified]
      exact ⟨s, d, hs', hd', by simp [isUnverified, hsize, hdigests]⟩
    refine ⟨hgroup, ?_⟩
    by_contra htruncated
    rw [PointGroups.of, (not_truncated (Bool.not_eq_true _ ▸ htruncated)).1] at hgroup
    cases hgroup

end Compared

/-! ### Files of different sizes -/

/-- A pair that goes to a cloud, with the fingerprint that a full point of it carries. -/
def cloudPair : PruneEnv where
  pair := [("id", .str "p"), ("direction", .str "push"), ("local", .str "/photos"),
    ("remote", .str "drive:backup")]
  sha256hex text :=
    if text = "[\"p\", \"/photos\", \"drive:backup\", \"push\"]" then
      "b985ea457574ca582774bf6041bbf2fd003aa3039ae1d4e39457b50a4fad0e31"
    else ""
  days := 90
  now := 1753430400000000

/-- A full point with the one file `a`. -/
def onePoint : PointFolder where
  searchable := true
  manifest := .file 500 (some (
    "\x7b\"schema\": \"sicherpfad-full-snapshot-v1\", \"id\": \"" ++ oldId ++
    "\", \"fingerprint\": \"b985ea457574ca582774bf6041bbf2fd003aa3039ae1d4e39457b50a4fad0e31" ++
    "\", \"identity\": \"p\", \"complete\": true, \"entries\": [\x7b\"path\": \"a\", " ++
    "\"size\": 1, \"sha256\": " ++
    "\"ca978112ca1bbdcafac231b39a23dc4da786eff8147c4e72b9807785afee48bb\"\x7d], " ++
    "\"directories\": [], \"total_bytes\": 1, \"files\": 1\x7d")) false
  removable := true

/-- The cloud has the file `a` in another size. -/
def cloudEnv (size : String) : CompareEnv where
  store := archiveEnv []
  prune := cloudPair
  root := Function.update (fun _ => none) oldId (some (.folder onePoint))
  hashedFiles _ := .ok []
  remoteOutput _ := .ok
    ("[\x7b\"Path\": \"a\", \"Size\": " ++ size ++ ", \"IsDir\": false\x7d]")
  plainInventory _ := .ok (.empty, false)
  sets := ⟨id, fun paths => List.Perm.refl paths⟩

/-- The file of the full point. -/
def onlyFile : FileEntry :=
  ⟨1, .str "ca978112ca1bbdcafac231b39a23dc4da786eff8147c4e72b9807785afee48bb"⟩

/-- The manifest of the full point. -/
def oneManifest : Dict :=
  [("schema", .str "sicherpfad-full-snapshot-v1"), ("id", .str oldId),
    ("fingerprint", .str "b985ea457574ca582774bf6041bbf2fd003aa3039ae1d4e39457b50a4fad0e31"),
    ("identity", .str "p"), ("complete", .bool true),
    ("entries", .list [.dict [("path", .str "a"), ("size", .int 1), ("sha256", onlyFile.digest)]]),
    ("directories", .list []), ("total_bytes", .int 1), ("files", .int 1)]

/-- The text is taken apart before it is evaluated: the characters of a literal are a list. -/
theorem readManifest_onePoint : readManifest onePoint.manifest = .ok (.dict oneManifest) := by
  have hloads : jsonLoads (
      "\x7b\"schema\": \"sicherpfad-full-snapshot-v1\", \"id\": \"" ++ oldId ++
      "\", \"fingerprint\": \"b985ea457574ca582774bf6041bbf2fd003aa3039ae1d4e39457b50a4fad0e31" ++
      "\", \"identity\": \"p\", \"complete\": true, \"entries\": [\x7b\"path\": \"a\", " ++
      "\"size\": 1, \"sha256\": " ++
      "\"ca978112ca1bbdcafac231b39a23dc4da786eff8147c4e72b9807785afee48bb\"\x7d], " ++
      "\"directories\": [], \"total_bytes\": 1, \"files\": 1\x7d") =
      some (.dict oneManifest) := by
    unfold jsonLoads oldId
    rw [← String.length_toList]
    simp only [String.toList_append]
    repeat rw [String.toList_ofList]
    decide +kernel
  show readManifest (.file 500 (some _) false) = _
  rw [readManifest, if_neg (by decide), if_neg Bool.false_ne_true, Option.bind_some, hloads]

theorem loadManifest_onePoint :
    loadManifest cloudPair oldId false (some (.folder onePoint)) = .ok oneManifest := by
  have hid : isPointId oldId = true := by decide +kernel
  have hbelongs : manifestBelongs cloudPair oldId false oneManifest = true := by decide +kernel
  have hlisting : checkListing oneManifest = .ok () := by decide +kernel
  have hbelow : manifestBelow (some (.folder onePoint)) = .ok onePoint.manifest := rfl
  unfold loadManifest
  rw [hid, if_neg (by decide)]
  refine bind_ok.mpr ⟨_, hbelow, bind_ok.mpr ⟨_, readManifest_onePoint, ?_⟩⟩
  dsimp only
  rw [hbelongs, if_neg (by decide), hlisting]
  rfl

theorem fullInventory_cloud (size : String) :
    fullInventory (cloudEnv size) oldId = .ok (Inventory.empty.put "a" onlyFile) := by
  show (do
    let manifest ← (loadManifest cloudPair oldId false (some (.folder onePoint))).mapError _
    _) = _
  rw [loadManifest_onePoint]
  rfl

theorem pointInventory_cloud (size : String) :
    pointInventory (cloudEnv size) [] true oldId =
      .ok (Inventory.empty.put "a" onlyFile, false) := by
  show (fullInventory (cloudEnv size) oldId).map (·, false) = _
  rw [fullInventory_cloud]
  rfl

/-- The comparison with a cloud that has the file in a size. -/
theorem comparePoints_cloud {size : String} {found : FileEntry}
    (hlive : pointInventory (cloudEnv size) [] true "current" =
      .ok (Inventory.empty.put "a" found, false)) :
    comparePoints (cloudEnv size) [] oldId "current" = .ok (answerOf oldId "current" true false
      (pointGroups ⟨id, List.Perm.refl⟩ true (Inventory.empty.put "a" onlyFile)
        (Inventory.empty.put "a" found)) (Inventory.empty.put "a" onlyFile)
        (Inventory.empty.put "a" found)) :=
  bind_ok.mpr ⟨_, pointInventory_cloud size, bind_ok.mpr ⟨_, hlive, rfl⟩⟩

theorem comparison_sound_cloud : ∃ r source destination,
    comparePoints (cloudEnv "1") [] oldId "current" = .ok r ∧
    pointInventory (cloudEnv "1") [] true oldId = .ok (source, false) ∧
    pointInventory (cloudEnv "1") [] true "current" = .ok (destination, false) ∧
    SoundComparison (cloudEnv "1") [] oldId "current" source destination r := by
  have hlive : pointInventory (cloudEnv "1") [] true "current" =
      .ok (Inventory.empty.put "a" ⟨1, .str ""⟩, false) := by decide +kernel
  have hrun := comparePoints_cloud hlive
  obtain ⟨source, destination, hsound⟩ := comparison_sound (by decide) hrun
  exact ⟨_, source, destination, hrun, hsound⟩

/-- The entry of a path in a point that is compared with a full point. -/
def pointEntry (env : CompareEnv) (backup : Dict) (point path : String) :
    Except PointError (Option FileEntry) :=
  (pointInventory env backup true point).map fun found => found.1.entry path

/-- **A file whose size differs from the cloud's is not flagged**, though it has no digest there. -/
theorem not_flags_uncompared : ¬∀ (env : CompareEnv) (backup : Dict)
    (fromPoint toPoint path : String) (r : PointComparison) (s d : FileEntry),
    comparingFull fromPoint toPoint = true →
    comparePoints env backup fromPoint toPoint = .ok r →
    pointEntry env backup fromPoint path = .ok (some s) →
    pointEntry env backup toPoint path = .ok (some d) →
    (truthy s.digest && truthy d.digest) = false →
    r.truncated = true ∨ r.unverified ≠ [] := by
  intro h
  have hlive : pointInventory (cloudEnv "2") [] true "current" =
      .ok (Inventory.empty.put "a" ⟨2, .str ""⟩, false) := by decide +kernel
  have hsource : pointEntry (cloudEnv "2") [] oldId "a" = .ok (some onlyFile) := by
    unfold pointEntry
    rw [pointInventory_cloud]
    rfl
  have hdestination : pointEntry (cloudEnv "2") [] "current" "a" = .ok (some ⟨2, .str ""⟩) := by
    unfold pointEntry
    rw [hlive]
    rfl
  have hflagged := h (cloudEnv "2") [] oldId "current" "a" _ onlyFile ⟨2, .str ""⟩ (by decide)
    (comparePoints_cloud hlive) hsource hdestination (by decide)
  exact absurd hflagged (by decide +kernel)

end RcloneSync
