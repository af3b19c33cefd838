/-
RcloneSync/RecoveryPointIds.lean

The ids of recovery points (`list_points` and `point_target`, recovery_points.py).

Where a pair goes one way, the id of an archived version is the bare name of its directory, in one
namespace with `current`, with the full points (`full-…`) and with the sides of a two-way pair
(`local:…`, `remote:…`), which `point_target` looks for first.  The ids of a two-way pair carry
their side.  The names of a remote store are stripped of blanks when they are read.  Both decide
whether an id opens the directory it was listed from (`opens_listed_iff`).

Each listed point carries the directory it stands for (`origin`), which the code does not keep.
-/
import Mathlib.Data.List.Sort
import RcloneSync.PairEndpoints
import RcloneSync.PosixPath
import RcloneSync.RestoreDrill

namespace RcloneSync

open Py

/-! ### Paths and roots -/

/-- `Path(root).joinpath(*PurePosixPath(relative).parts)`. -/
def joinLocal (root relative : String) : PosixPath :=
  let path := parsePath relative
  let base := parsePath root
  if path.root ≠ "" then path else { base with parts := base.parts ++ path.parts }

/-- What stands between a remote root and a name. -/
def remoteSeparator (root : String) : String :=
  if endsWith root "/" || endsWith root ":" then "" else "/"

/-- `_join`. -/
def joinPoint (root relative : String) : String :=
  if relative = "" then (if endsWith root ":" then root else rstripOf (· = '/') root)
  else if !isRemotePoint root then (joinLocal root relative).text
  else root ++ remoteSeparator root ++ lstripOf (· = '/') relative

inductive PointError
  | point (message : String)
  | uncaught (e : PyError)
  deriving DecidableEq, Repr

/-- The surroundings: `expanduser`, the names of the directories of a local store (`none` if it is
no directory) and of a remote one, the full points of a pair with their kinds, where they are and
whether one can be opened, and the time that a name shows. -/
structure StoreEnv where
  expanduser : String → String
  localNames : String → Option (List String)
  remoteNames : String → Except PointError (List String)
  snapshots : Dict → Except PointError (List (String × Value))
  snapshotRoot : PosixPath
  snapshotReady : Dict → String → Bool
  parsePointTime : String → Option Int

/-- `_resolve_spec`. -/
def resolveSpec (env : StoreEnv) (target spec : String) : String :=
  if isRemotePoint spec || isAbsolutePath (env.expanduser spec) then rstripOf (· = '/') spec
  else joinPoint target spec

inductive PointSide
  | ofLocal | ofRemote
  deriving DecidableEq, Repr

def PointSide.word : PointSide → String
  | .ofLocal => "local"
  | .ofRemote => "remote"

/-- The text before `{date}`, if it is there. -/
def beforeDate : List Char → Option (List Char)
  | [] => none
  | c :: cs =>
    if "\x7bdate\x7d".toList.isPrefixOf (c :: cs) then some [] else (beforeDate cs).map (c :: ·)

/-- `str(pair.get(key) or backup.get(key) or "").strip()`. -/
def archiveSetting (backup pair : Dict) (key : String) : String :=
  strip (pyStr (pyOr (Dict.get pair key) (pyOr (Dict.get backup key) (.str ""))))

/-- The setting that names the archives of a side, and the endpoint that it is relative to. -/
def archiveSpec (backup pair : Dict) (side : PointSide) : Option (String × String) :=
  let generic := archiveSetting backup pair "backup_dir"
  let target := (drillEndpoints pair).2
  if pairDirection pair = "bisync" then
    let target := if side = .ofRemote then pair.textOr "remote" "" else target
    let specific := archiveSetting backup pair
      (if side = .ofRemote then "backup_dir1" else "backup_dir2")
    if specific ≠ "" then some (specific, target)
    else if generic ≠ "" ∧ (isRemotePoint generic ∨ startsWith generic "/") then none
    else some (generic, target)
  else some (generic, target)

/-- `version_root`. -/
def versionRoot (env : StoreEnv) (backup pair : Dict) (side : PointSide) : Option String :=
  (archiveSpec backup pair side).bind fun (generic, target) =>
    if generic = "" then none
    else
      let spec := rstripOf (· = '/') (((beforeDate generic.toList).map String.ofList).getD generic)
      if spec = "" then none else some (resolveSpec env target spec)

/-! ### Listed points -/

/-- The directory that a point stands for: the store, the name as the directory has it. -/
structure PointOrigin where
  root : String
  dir : String
  deriving DecidableEq, Repr

/-- The place of a directory in its store. -/
def PointOrigin.path (o : PointOrigin) : String :=
  if isRemotePoint o.root then o.root ++ remoteSeparator o.root ++ o.dir
  else ((parsePath o.root).child o.dir).text

structure RecoveryPoint where
  id : String
  createdAt : Option Int
  kind : Value
  origin : Option PointOrigin
  deriving DecidableEq

/-- A live side. -/
def livePoint (id : String) : RecoveryPoint := ⟨id, none, .str "current", none⟩

def maxBrowseScan : Nat := 10000

def maxRemoteLineBytes : Nat := 16 * 1024

/-- The lines of `rclone lsf`, each with the directory that it belongs to. -/
def remoteLines (dirs : List String) : List (String × String) :=
  dirs.flatMap fun dir => (splitOn '\n' (dir ++ "/")).map (·, dir)

/-- `_remote_directories`. -/
def remoteDirectories (dirs : List String) : Except PointError (List (String × String)) :=
  let lines := remoteLines dirs
  if lines.any fun line => maxRemoteLineBytes < utf8Length line.1 then
    .error (.point "Recovery-Listing enthält zu lange Zeilen")
  else if maxBrowseScan < lines.length then
    .error (.point "Versionsablage überschreitet das Eintragslimit")
  else
    .ok ((lines.filter fun line => strip line.1 ≠ "").map fun line =>
      (rstripOf (· = '/') (strip line.1), line.2))

/-- The names that are read from a store, each with its directory. -/
def storeNames (env : StoreEnv) (root : String) : Except PointError (List (String × String)) :=
  if isRemotePoint root then (env.remoteNames root).bind remoteDirectories
  else .ok (((env.localNames root).getD []).map fun dir => (dir, dir))

/-- A name that is passed over. -/
def isSkippedName (name : String) : Bool :=
  name = "" || name = "." || name = ".." || '/' ∈ name.toList || '\\' ∈ name.toList

/-- `float(item.get("created_at") or 0)` and the id, the greater first. -/
def laterPoint (p q : RecoveryPoint) : Bool :=
  q.createdAt.getD 0 < p.createdAt.getD 0 ||
    (q.createdAt.getD 0 = p.createdAt.getD 0 && !decide (p.id < q.id))

def maxPoints : Nat := 180

/-- The archived versions of a store; the ids of a two-way pair carry their side. -/
def archivePoints (env : StoreEnv) (root : String) (bisync : Bool) :
    Except PointError (List RecoveryPoint) :=
  (storeNames env root).map fun names =>
    let points := (names.filter fun n => !isSkippedName n.1).map fun n => {
      id := if bisync then "local:" ++ n.1 else n.1
      createdAt := env.parsePointTime n.1
      kind := .str "version"
      origin := some ⟨root, n.2⟩ : RecoveryPoint }
    (points.mergeSort laterPoint).take maxPoints

/-- The points of a store that may be missing. -/
def storePoints (env : StoreEnv) (root : Option String) (bisync : Bool) :
    Except PointError (List RecoveryPoint) :=
  match root with
  | none => .ok []
  | some root => if root = "" then .ok [] else archivePoints env root bisync

/-- The live side and the full points. -/
def completePoints (env : StoreEnv) (pair : Dict) : Except PointError (List RecoveryPoint) :=
  (env.snapshots pair).map fun rows =>
    livePoint "current" :: rows.map fun row => ⟨row.1, none, row.2, none⟩

/-- `str(pair.get("direction") or "bisync").lower() == "bisync"`. -/
def isTwoWay (pair : Dict) : Bool := lower (pair.textOr "direction" "bisync") = "bisync"

/-- `remote_pair`. -/
def remotePair (env : StoreEnv) (backup pair : Dict) : Dict :=
  Dict.set (Dict.set pair "direction" (.str "push")) "backup_dir"
    (.str ((versionRoot env backup pair .ofRemote).getD ""))

/-- `remote_config["backup"]`. -/
def remoteBackup (backup : Dict) : Dict := Dict.set backup "backup_dir" (.str "")

/-- `list_points` of a pair that goes one way. -/
def listOneWay (env : StoreEnv) (backup pair : Dict) (side : PointSide) :
    Except PointError (List RecoveryPoint) := do
  let complete ← completePoints env pair
  let points ← storePoints env (versionRoot env backup pair side) false
  .ok (complete ++ points)

/-- `list_points`. -/
def listPoints (env : StoreEnv) (backup pair : Dict) : Except PointError (List RecoveryPoint) :=
  if isTwoWay pair then do
    let complete ← completePoints env pair
    let remote ← listOneWay env (remoteBackup backup) (remotePair env backup pair) .ofRemote
    let points ← storePoints env (versionRoot env backup pair .ofLocal) true
    .ok (complete ++ [livePoint "current-remote"] ++
      (remote.filter fun p => pyEq p.kind (.str "version")).map
        (fun p => { p with id := "remote:" ++ p.id }) ++ points)
  else listOneWay env backup pair .ofLocal

/-! ### Opening a point -/

/-- `snapshot_target`. -/
def snapshotTarget (env : StoreEnv) (pair : Dict) (id : String) : Except PointError String :=
  if env.snapshotReady pair id then .ok (((env.snapshotRoot.child id).child "data").text)
  else .error (.point "Vollständiger Stand ist nicht mehr verfügbar")

/-- `value.partition(":")` with the side before the colon. -/
def sidePrefix (value : String) : Option (PointSide × String) :=
  if startsWith value "local:" then some (.ofLocal, dropText 6 value)
  else if startsWith value "remote:" then some (.ofRemote, dropText 7 value)
  else none

/-- An archived version in the store of a side. -/
def openArchive (env : StoreEnv) (backup pair : Dict) (value : String) : Except PointError String :=
  let (side, name) := (sidePrefix value).getD (.ofLocal, value)
  match versionRoot env backup pair side with
  | none => .error (.point "Für diesen Datenweg gibt es keine Versionsablage")
  | some root =>
    if root = "" then .error (.point "Für diesen Datenweg gibt es keine Versionsablage")
    else .ok (joinPoint root name)

/-- `point_target`. -/
def pointTarget (env : StoreEnv) (backup pair : Dict) (pointId : String) :
    Except PointError String :=
  let value := if pointId = "" then "current" else pointId
  if startsWith value "full-" then snapshotTarget env pair value
  else if value = "current" then .ok (drillEndpoints pair).2
  else if value = "current-remote" ∧ isTwoWay pair then .ok (pair.textOr "remote" "")
  else do
    let points ← listPoints env backup pair
    if value ∈ (points.map RecoveryPoint.id).filter (· ≠ "current") then
      openArchive env backup pair value
    else .error (.point "Recovery-Punkt nicht gefunden")

/-! ### The place of a name -/

theorem parsePath_name {name : String} (hskip : isSkippedName name = false) :
    parsePath name = ⟨"", [name]⟩ := by
  simp only [isSkippedName, Bool.or_eq_false_iff, decide_eq_false_iff_not] at hskip
  obtain ⟨⟨⟨⟨hempty, hdot⟩, -⟩, hslash⟩, -⟩ := hskip
  have hroot : pathRoot name.toList = "" := by
    cases hcs : name.toList with
    | nil => rfl
    | cons c cs =>
      have hc : c ≠ '/' := by
        rintro rfl
        exact hslash (hcs ▸ List.mem_cons_self)
      unfold pathRoot
      split <;> simp_all
  have hparts : splitOn '/' name = [name] := splitOn_of_notMem hslash
  unfold parsePath
  rw [hroot, hparts]
  simp [hempty, hdot]

/-- A listed name is joined to the root as its directory stands there. -/
theorem joinPoint_name {name : String} (hskip : isSkippedName name = false) (root : String) :
    joinPoint root name = (PointOrigin.mk root name).path := by
  have hparse := parsePath_name hskip
  simp only [isSkippedName, Bool.or_eq_false_iff, decide_eq_false_iff_not] at hskip
  obtain ⟨⟨⟨⟨hempty, -⟩, -⟩, hslash⟩, -⟩ := hskip
  rw [joinPoint, if_neg hempty, PointOrigin.path]
  cases isRemotePoint root with
  | false =>
    show (joinLocal root name).text = _
    rw [joinLocal, hparse]
    rfl
  | true =>
    have htrim : lstripOf (· = '/') name = name := by
      unfold lstripOf
      cases hcs : name.toList with
      | nil => rw [List.dropWhile_nil, ← hcs, String.ofList_toList]
      | cons c cs =>
        have hc : c ≠ '/' := by
          rintro rfl
          exact hslash (hcs ▸ List.mem_cons_self)
        rw [List.dropWhile_cons_of_neg (by simpa using hc), ← hcs, String.ofList_toList]
    show root ++ remoteSeparator root ++ lstripOf (· = '/') name = _
    rw [htrim]
    rfl

/-- The text of a path ends with its last part. -/
theorem join_snoc (parts : List String) :
    ∃ before : List Char, ∀ name,
      (join "/" (parts ++ [name])).toList = before ++ name.toList := by
  induction parts with
  | nil => exact ⟨[], fun name => rfl⟩
  | cons part parts ih =>
    obtain ⟨before, hbefore⟩ := ih
    refine ⟨part.toList ++ "/".toList ++ before, fun name => ?_⟩
    have hrest := hbefore name
    rw [List.cons_append]
    cases hparts : parts ++ [name] with
    | nil => simp at hparts
    | cons t rest =>
      rw [hparts] at hrest
      rw [join_toList, hrest]
      simp only [List.append_assoc]

theorem child_text (p : PosixPath) :
    ∃ before : List Char, ∀ name, (p.child name).text.toList = before ++ name.toList := by
  obtain ⟨before, hbefore⟩ := join_snoc p.parts
  refine ⟨p.root.toList ++ before, fun name => ?_⟩
  have hparts : ¬(p.root = "" ∧ p.parts ++ [name] = []) := by simp
  show (PosixPath.text ⟨p.root, p.parts ++ [name]⟩).toList = _
  rw [PosixPath.text, if_neg hparts, String.toList_append, hbefore, List.append_assoc]

/-- The place of a directory ends with its name. -/
theorem path_toList (root : String) :
    ∃ before : List Char, ∀ dir, (PointOrigin.mk root dir).path.toList = before ++ dir.toList := by
  by_cases hremote : isRemotePoint root = true
  · refine ⟨(root ++ remoteSeparator root).toList, fun dir => ?_⟩
    rw [PointOrigin.path, if_pos hremote, String.toList_append]
  · obtain ⟨before, hbefore⟩ := child_text (parsePath root)
    refine ⟨before, fun dir => ?_⟩
    rw [PointOrigin.path, if_neg hremote, hbefore]

theorem path_inj {root dir dir' : String} :
    (PointOrigin.mk root dir).path = (PointOrigin.mk root dir').path ↔ dir = dir' := by
  constructor
  · intro h
    obtain ⟨before, hbefore⟩ := path_toList root
    have hlist := congrArg String.toList h
    rw [hbefore, hbefore, List.append_cancel_left_eq] at hlist
    exact String.toList_injective hlist
  · rintro rfl
    rfl

/-! ### What is listed -/

/-- A version that a store lists: its name, as it is read, and its directory. -/
structure ListedIn (p : RecoveryPoint) (name root dir : String) : Prop where
  origin : p.origin = some ⟨root, dir⟩
  plain : isSkippedName name = false

section Listed

variable {env : StoreEnv} {backup pair : Dict}

theorem listedIn_archive {root : String} {bisync : Bool} {points : List RecoveryPoint}
    (h : archivePoints env root bisync = .ok points) {p : RecoveryPoint} (hp : p ∈ points) :
    ∃ name dir, ListedIn p name root dir ∧ p.kind = .str "version" ∧
      p.id = if bisync then "local:" ++ name else name := by
  unfold archivePoints at h
  cases hnames : storeNames env root with
  | error e =>
    rw [hnames] at h
    cases h
  | ok names =>
    rw [hnames] at h
    obtain rfl := Except.ok.inj h
    have hmem := List.mem_mergeSort.mp (List.mem_of_mem_take hp)
    obtain ⟨n, hn, rfl⟩ := List.mem_map.mp hmem
    have hplain := (List.mem_filter.mp hn).2
    exact ⟨n.1, n.2, ⟨rfl, by simpa using hplain⟩, rfl, rfl⟩

theorem listedIn_store {root : Option String} {bisync : Bool} {points : List RecoveryPoint}
    (h : storePoints env root bisync = .ok points) {p : RecoveryPoint} (hp : p ∈ points) :
    ∃ store name dir, root = some store ∧ store ≠ "" ∧ ListedIn p name store dir ∧
      p.kind = .str "version" ∧ p.id = if bisync then "local:" ++ name else name := by
  unfold storePoints at h
  cases root with
  | none =>
    obtain rfl := Except.ok.inj h
    cases hp
  | some store =>
    dsimp only at h
    split at h
    · obtain rfl := Except.ok.inj h
      cases hp
    · next hstore =>
      obtain ⟨name, dir, hlisted, hkind, hid⟩ := listedIn_archive h hp
      exact ⟨store, name, dir, rfl, hstore, hlisted, hkind, hid⟩

/-- The live side and the full points stand for no directory of the store. -/
theorem origin_complete {points : List RecoveryPoint} (h : completePoints env pair = .ok points)
    {p : RecoveryPoint} (hp : p ∈ points) : p.origin = none := by
  unfold completePoints at h
  cases hrows : env.snapshots pair with
  | error e =>
    rw [hrows] at h
    cases h
  | ok rows =>
    rw [hrows] at h
    obtain rfl := Except.ok.inj h
    rcases List.mem_cons.mp hp with rfl | hp
    · rfl
    · obtain ⟨row, -, rfl⟩ := List.mem_map.mp hp
      rfl

theorem listed_oneWay {side : PointSide} {points : List RecoveryPoint}
    (h : listOneWay env backup pair side = .ok points) {p : RecoveryPoint} (hp : p ∈ points)
    {o : PointOrigin} (ho : p.origin = some o) :
    ∃ store name dir, versionRoot env backup pair side = some store ∧ store ≠ "" ∧
      ListedIn p name store dir ∧ p.id = name := by
  obtain ⟨complete, hcomplete, h⟩ := bind_ok.mp h
  obtain ⟨versions, hversions, h⟩ := bind_ok.mp h
  obtain rfl := Except.ok.inj h
  rcases List.mem_append.mp hp with hp | hp
  · rw [origin_complete hcomplete hp] at ho
    cases ho
  · obtain ⟨store, name, dir, hroot, hstore, hlisted, -, hid⟩ := listedIn_store hversions hp
    exact ⟨store, name, dir, hroot, hstore, hlisted, hid⟩

/-- A version of a two-way pair is in the store of its own side, or in the one that its remote side
lists. -/
theorem listed_twoWay {points : List RecoveryPoint} (htwo : isTwoWay pair = true)
    (h : listPoints env backup pair = .ok points) {p : RecoveryPoint} (hp : p ∈ points)
    {o : PointOrigin} (ho : p.origin = some o) :
    ∃ store name dir, ListedIn p name store dir ∧ store ≠ "" ∧
      ((p.id = "local:" ++ name ∧ versionRoot env backup pair .ofLocal = some store) ∨
        (p.id = "remote:" ++ name ∧ versionRoot env (remoteBackup backup)
          (remotePair env backup pair) .ofRemote = some store)) := by
  unfold listPoints at h
  rw [if_pos htwo] at h
  obtain ⟨complete, hcomplete, h⟩ := bind_ok.mp h
  obtain ⟨remote, hremote, h⟩ := bind_ok.mp h
  obtain ⟨versions, hversions, h⟩ := bind_ok.mp h
  obtain rfl := Except.ok.inj h
  rcases List.mem_append.mp hp with hp | hp
  · rcases List.mem_append.mp hp with hp | hp
    · rcases List.mem_append.mp hp with hp | hp
      · rw [origin_complete hcomplete hp] at ho
        cases ho
      · obtain rfl := List.mem_singleton.mp hp
        cases ho
    · obtain ⟨q, hq, rfl⟩ := List.mem_map.mp hp
      obtain ⟨store, name, dir, hroot, hstore, hlisted, hid⟩ :=
        listed_oneWay hremote (List.mem_filter.mp hq).1 ho
      refine ⟨store, name, dir, ⟨hlisted.origin, hlisted.plain⟩, hstore, .inr ⟨?_, hroot⟩⟩
      show "remote:" ++ q.id = _
      rw [hid]
  · obtain ⟨store, name, dir, hroot, hstore, hlisted, -, hid⟩ := listedIn_store hversions hp
    exact ⟨store, name, dir, hlisted, hstore, .inl ⟨hid, hroot⟩⟩

end Listed

/-! ### What an id opens -/

/-- What an id of a one-way pair means before the store is looked at. -/
def reservedTarget (env : StoreEnv) (backup pair : Dict) (name : String) :
    Option (Except PointError String) :=
  if startsWith name "full-" then some (snapshotTarget env pair name)
  else if name = "current" then some (.ok (drillEndpoints pair).2)
  else if (sidePrefix name).isSome then some (openArchive env backup pair name)
  else none

/-- A version is named as its directory is, and its name is not reserved, or stands for that very
directory; for the remote side of a two-way pair, the store that is listed is the one that is
opened. -/
def Unmistaken (env : StoreEnv) (backup pair : Dict) (p : RecoveryPoint) (o : PointOrigin) : Prop :=
  if isTwoWay pair then
    (∀ name, p.id = "local:" ++ name → name = o.dir) ∧
      ∀ name, p.id = "remote:" ++ name → ∃ root,
        versionRoot env backup pair .ofRemote = some root ∧ root ≠ "" ∧
          (PointOrigin.mk root name).path = o.path
  else (reservedTarget env backup pair p.id).elim (p.id = o.dir) fun t => t = .ok o.path

/-- Every version that is listed opens its directory, and versions of different directories open
different ones. -/
def OpensListed (env : StoreEnv) (backup pair : Dict) : Prop :=
  ∀ points, listPoints env backup pair = .ok points →
    (∀ p ∈ points, ∀ o, p.origin = some o → pointTarget env backup pair p.id = .ok o.path) ∧
      ∀ p ∈ points, ∀ q ∈ points, ∀ o o', p.origin = some o → q.origin = some o' →
        o.path ≠ o'.path → pointTarget env backup pair p.id ≠ pointTarget env backup pair q.id

section Opened

variable {env : StoreEnv} {backup pair : Dict} {points : List RecoveryPoint}

/-- An id that is listed and means nothing else is looked up in its store. -/
theorem pointTarget_listed (h : listPoints env backup pair = .ok points) {p : RecoveryPoint}
    (hp : p ∈ points) (hid : p.id ≠ "") (hfull : startsWith p.id "full-" = false)
    (hcurrent : p.id ≠ "current") (hremote : ¬(p.id = "current-remote" ∧ isTwoWay pair = true)) :
    pointTarget env backup pair p.id = openArchive env backup pair p.id := by
  have hmem : p.id ∈ (points.map RecoveryPoint.id).filter (· ≠ "current") :=
    List.mem_filter.mpr ⟨List.mem_map_of_mem hp, by simpa using hcurrent⟩
  unfold pointTarget
  dsimp only
  rw [if_neg hid, hfull, if_neg (by decide), if_neg hcurrent, if_neg hremote, h]
  exact if_pos hmem

theorem openArchive_some {value name root : String} {side : PointSide}
    (hside : (sidePrefix value).getD (.ofLocal, value) = (side, name))
    (hroot : versionRoot env backup pair side = some root) (hne : root ≠ "") :
    openArchive env backup pair value = .ok (joinPoint root name) := by
  unfold openArchive
  rw [hside]
  simp only [hroot, if_neg hne]

theorem opens_oneWay (htwo : isTwoWay pair = false) (h : listPoints env backup pair = .ok points)
    {p : RecoveryPoint} (hp : p ∈ points) {o : PointOrigin} (ho : p.origin = some o) :
    pointTarget env backup pair p.id = .ok o.path ↔ Unmistaken env backup pair p o := by
  have hone := h
  unfold listPoints at hone
  rw [htwo, if_neg (by decide)] at hone
  obtain ⟨store, name, dir, hroot, hstore, hlisted, rfl⟩ := listed_oneWay hone hp ho
  obtain rfl := Option.some.inj (ho.symm.trans hlisted.origin)
  have hid : p.id ≠ "" := by
    have hplain := hlisted.plain
    simp only [isSkippedName, Bool.or_eq_false_iff, decide_eq_false_iff_not] at hplain
    exact hplain.1.1.1.1
  have hremote : ¬(p.id = "current-remote" ∧ isTwoWay pair = true) := by
    rw [htwo]
    exact fun h => Bool.noConfusion h.2
  unfold Unmistaken reservedTarget
  rw [htwo, if_neg (by decide)]
  cases hfull : startsWith p.id "full-" with
  | true =>
    rw [if_pos rfl]
    unfold pointTarget
    dsimp only
    rw [if_neg hid, hfull, if_pos rfl]
    rfl
  | false =>
    rw [if_neg (by decide)]
    by_cases hcurrent : p.id = "current"
    · rw [if_pos hcurrent]
      unfold pointTarget
      dsimp only
      rw [if_neg hid, hfull, if_neg (by decide), if_pos hcurrent]
      rfl
    · rw [if_neg hcurrent, pointTarget_listed h hp hid hfull hcurrent hremote]
      cases hside : sidePrefix p.id with
      | some side =>
        rw [Option.isSome_some, if_pos rfl]
        rfl
      | none =>
        rw [Option.isSome_none, if_neg (by decide),
          openArchive_some (by rw [hside]; rfl) hroot hstore, joinPoint_name hlisted.plain]
        show _ ↔ p.id = dir
        rw [← @path_inj store]
        exact ⟨Except.ok.inj, congrArg _⟩

/-- An id with a side is none of the others. -/
theorem sided_id {word id : String} (hword : word = "local:" ∨ word = "remote:") (name : String)
    (h : id = word ++ name) : id ≠ "" ∧ startsWith id "full-" = false ∧ id ≠ "current" ∧
      id ≠ "current-remote" := by
  subst h
  have hhead : (word ++ name).toList.head? = word.toList.head? := by
    rw [String.toList_append]
    rcases hword with rfl | rfl <;> rfl
  have hne : ∀ other : String, other.toList.head? ≠ word.toList.head? → word ++ name ≠ other := by
    rintro other hother rfl
    exact hother hhead
  refine ⟨hne _ ?_, ?_, hne _ ?_, hne _ ?_⟩
  · rcases hword with rfl | rfl <;> decide
  · unfold startsWith
    rw [String.toList_append]
    rcases hword with rfl | rfl <;> rfl
  · rcases hword with rfl | rfl <;> decide
  · rcases hword with rfl | rfl <;> decide

theorem sidePrefix_local (name : String) :
    sidePrefix ("local:" ++ name) = some (.ofLocal, name) := by
  unfold sidePrefix
  rw [if_pos (startsWith_append _ _)]
  simp [dropText]

theorem sidePrefix_remote (name : String) :
    sidePrefix ("remote:" ++ name) = some (.ofRemote, name) := by
  have hlocal : startsWith ("remote:" ++ name) "local:" = false := by
    unfold startsWith
    rw [String.toList_append]
    rfl
  unfold sidePrefix
  rw [hlocal, if_neg (by decide), if_pos (startsWith_append _ _)]
  simp [dropText]

theorem opens_twoWay (htwo : isTwoWay pair = true) (h : listPoints env backup pair = .ok points)
    {p : RecoveryPoint} (hp : p ∈ points) {o : PointOrigin} (ho : p.origin = some o) :
    pointTarget env backup pair p.id = .ok o.path ↔ Unmistaken env backup pair p o := by
  obtain ⟨store, name, dir, hlisted, hstore, hside⟩ := listed_twoWay htwo h hp ho
  obtain rfl := Option.some.inj (ho.symm.trans hlisted.origin)
  unfold Unmistaken
  rw [if_pos htwo]
  have happend : ∀ {word other : String}, word ++ name = word ++ other → other = name := by
    intro word other hsame
    have hlist := congrArg String.toList hsame
    rw [String.toList_append, String.toList_append, List.append_cancel_left_eq] at hlist
    exact (String.toList_injective hlist).symm
  have hcross : ∀ other, "local:" ++ name ≠ "remote:" ++ other ∧
      "remote:" ++ name ≠ "local:" ++ other := by
    intro other
    constructor <;> intro hsame <;> have hhead := congrArg (fun s => s.toList.head?) hsame <;>
      simp at hhead
  rcases hside with ⟨hid, hroot⟩ | ⟨hid, hroot⟩
  · obtain ⟨hne, hfull, hcurrent, hremote⟩ := sided_id (.inl rfl) name hid
    rw [pointTarget_listed h hp hne hfull hcurrent (fun hr => hremote hr.1), hid,
      openArchive_some (by rw [sidePrefix_local]; rfl) hroot hstore, joinPoint_name hlisted.plain]
    constructor
    · intro hopen
      refine ⟨fun other hother => ?_, fun other hother => absurd hother (hcross other).1⟩
      rw [happend hother]
      exact path_inj.mp (Except.ok.inj hopen)
    · rintro ⟨hlocal, -⟩
      rw [hlocal name rfl]
  · obtain ⟨hne, hfull, hcurrent, hremote⟩ := sided_id (.inr rfl) name hid
    rw [pointTarget_listed h hp hne hfull hcurrent (fun hr => hremote hr.1), hid]
    constructor
    · intro hopen
      refine ⟨fun other hother => absurd hother (hcross other).2, fun other hother => ?_⟩
      rw [happend hother]
      unfold openArchive at hopen
      rw [sidePrefix_remote] at hopen
      dsimp only [Option.getD_some] at hopen
      cases hopened : versionRoot env backup pair .ofRemote with
      | none =>
        rw [hopened] at hopen
        cases hopen
      | some root =>
        rw [hopened] at hopen
        dsimp only at hopen
        split at hopen
        · cases hopen
        · next hroot' =>
          refine ⟨root, rfl, hroot', ?_⟩
          rw [← joinPoint_name hlisted.plain]
          exact Except.ok.inj hopen
    · rintro ⟨-, hremote'⟩
      obtain ⟨root, hopened, hne', hpath⟩ := hremote' name rfl
      rw [openArchive_some (by rw [sidePrefix_remote]; rfl) hopened hne',
        joinPoint_name hlisted.plain, hpath]

end Opened

/-- **Every listed version opens its directory exactly if none is mistaken**: its name is the one of
its directory and means nothing else. -/
theorem opens_listed_iff (env : StoreEnv) (backup pair : Dict) :
    OpensListed env backup pair ↔ ∀ points, listPoints env backup pair = .ok points →
      ∀ p ∈ points, ∀ o, p.origin = some o → Unmistaken env backup pair p o := by
  have hiff : ∀ points, listPoints env backup pair = .ok points → ∀ p ∈ points, ∀ o,
      p.origin = some o →
        (pointTarget env backup pair p.id = .ok o.path ↔ Unmistaken env backup pair p o) := by
    intro points h p hp o ho
    cases htwo : isTwoWay pair with
    | true => exact opens_twoWay htwo h hp ho
    | false => exact opens_oneWay htwo h hp ho
  constructor
  · intro hopens points h p hp o ho
    exact (hiff points h p hp o ho).mp ((hopens points h).1 p hp o ho)
  · intro hplain points h
    have hopen : ∀ p ∈ points, ∀ o, p.origin = some o →
        pointTarget env backup pair p.id = .ok o.path :=
      fun p hp o ho => (hiff points h p hp o ho).mpr (hplain points h p hp o ho)
    refine ⟨hopen, fun p hp q hq o o' ho ho' hpath hsame => hpath ?_⟩
    rw [hopen p hp o ho, hopen q hq o' ho'] at hsame
    exact Except.ok.inj hsame

/-! ### Reserved names -/

theorem join_snoc_slash (part : String) (parts : List String) :
    ∃ before : List Char, ∀ name,
      (join "/" (part :: parts ++ [name])).toList = before ++ '/' :: name.toList := by
  induction parts generalizing part with
  | nil =>
    refine ⟨part.toList, fun name => ?_⟩
    rw [List.singleton_append, join_toList, List.append_assoc]
    rfl
  | cons next parts ih =>
    obtain ⟨before, hbefore⟩ := ih next
    refine ⟨part.toList ++ "/".toList ++ before, fun name => ?_⟩
    have hrest := hbefore name
    rw [List.cons_append] at hrest
    rw [List.cons_append, List.cons_append, join_toList, hrest]
    simp only [List.append_assoc]

/-- A version that is named like a full point never opens: the data of a full point stands one
directory deeper. -/
theorem full_never {env : StoreEnv} {pair : Dict} {name : String} (root : String)
    (hplain : isSkippedName name = false) (hfull : startsWith name "full-" = true) :
    snapshotTarget env pair name ≠ .ok (PointOrigin.mk root name).path := by
  unfold snapshotTarget
  split
  · intro hsame
    have htext := congrArg String.toList (Except.ok.inj hsame)
    obtain ⟨before, hbefore⟩ := path_toList root
    obtain ⟨head, hhead⟩ : ∃ head : List Char,
        ((env.snapshotRoot.child name).child "data").text.toList = head ++ "/data".toList := by
      have hparts : ∃ part parts, env.snapshotRoot.parts ++ [name] = part :: parts := by
        cases hlist : env.snapshotRoot.parts ++ [name] with
        | nil => simp at hlist
        | cons part parts => exact ⟨part, parts, rfl⟩
      obtain ⟨part, parts, hparts⟩ := hparts
      obtain ⟨before', hbefore'⟩ := join_snoc_slash part parts
      refine ⟨env.snapshotRoot.root.toList ++ before', ?_⟩
      show (PosixPath.text
        ⟨env.snapshotRoot.root, env.snapshotRoot.parts ++ [name] ++ ["data"]⟩).toList = _
      rw [PosixPath.text, if_neg (by simp), String.toList_append, hparts, hbefore',
        List.append_assoc]
      rfl
    rw [hhead, hbefore] at htext
    -- The last five characters of the one are `/data`, and the name of the other has no slash.
    have hlength : "/data".toList.length ≤ name.toList.length := by
      have hprefix := (List.isPrefixOf_iff_prefix.mp hfull).length_le
      exact hprefix
    have hsuffix : "/data".toList <:+ name.toList :=
      List.suffix_of_suffix_length_le (List.suffix_append head _)
        (htext ▸ List.suffix_append before _) hlength
    simp only [isSkippedName, Bool.or_eq_false_iff, decide_eq_false_iff_not] at hplain
    exact hplain.1.2 (hsuffix.subset (by decide))
  · intro hsame
    cases hsame

/-! ### A version that is called `current` -/

def archivePair : Dict :=
  [("id", .str "p"), ("direction", .str "push"), ("local", .str "/photos"),
    ("remote", .str "/mnt/backup"), ("backup_dir", .str "/mnt/archive")]

/-- A local archive with these directories. -/
def archiveEnv (names : List String) : StoreEnv where
  expanduser := id
  localNames root := if root = "/mnt/archive" then some names else none
  remoteNames _ := .ok []
  snapshots _ := .ok []
  snapshotRoot := parsePath "/srv/recovery-snapshots"
  snapshotReady _ _ := false
  parsePointTime _ := none

/-- **A version directory called `current` opens the live side.** -/
theorem not_opens_listed :
    ¬∀ (env : StoreEnv) (backup pair : Dict), OpensListed env backup pair := by
  intro h
  have hlist : listPoints (archiveEnv ["current"]) [] archivePair = .ok [livePoint "current",
      ⟨"current", none, .str "version", some ⟨"/mnt/archive", "current"⟩⟩] := by decide +kernel
  have hopen := (h (archiveEnv ["current"]) [] archivePair _ hlist).1 _
    (List.mem_cons_of_mem _ List.mem_cons_self) _ rfl
  have htarget : pointTarget (archiveEnv ["current"]) [] archivePair "current"
      = .ok "/mnt/backup" := by decide +kernel
  have hpath : (PointOrigin.mk "/mnt/archive" "current").path = "/mnt/archive/current" := by
    decide +kernel
  rw [hpath] at hopen
  exact absurd (htarget.symm.trans hopen) (by decide)

end RcloneSync
