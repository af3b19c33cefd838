/-
RcloneSync/SnapshotPruning.lean

Full recovery points and their age limit (recovery_snapshots.py).

`capture_snapshot` publishes a point by a renaming and then prunes: every entry of the recovery root
that is named like a point is read, and removed if its manifest is valid, belongs to the pair and is
too old.  Whatever is not such a point stays (`removed_expired`).  But only a `SnapshotError` of
`load_manifest` is passed over: a valid manifest whose `created_at` is no number, a directory that
cannot be searched or a point that cannot be removed make the capture fail that has published its
point (`published_iff`).
-/
import RcloneSync.Effects
import RcloneSync.HandoverImport
import RcloneSync.JsonRoundTrip
import RcloneSync.PosixPath
import RcloneSync.RestoreDrill
import RcloneSync.VaultBlobs

namespace RcloneSync

open Py Effects

/-! ### Numbers as `float` reads them -/

/-- Digits that may be missing. -/
def optionalDigits (cs : List Char) : Option Nat :=
  if cs = [] then some 0 else readDigits cs 0 false

/-- An exponent behind its letter. -/
def exponentValue : List Char → Option Int
  | '+' :: cs => (readDigits cs 0 false).map Int.ofNat
  | '-' :: cs => (readDigits cs 0 false).map fun n => -Int.ofNat n
  | cs => (readDigits cs 0 false).map Int.ofNat

/-- A decimal without its sign: its digits and the power of ten. -/
def decimalOf (cs : List Char) : Option (Nat × Int) := do
  let isExponent := fun c : Char => c = 'e' || c = 'E'
  let mantissa := cs.takeWhile fun c => !isExponent c
  let exponent ← match cs.dropWhile fun c => !isExponent c with
    | [] => some 0
    | _ :: rest => exponentValue rest
  let whole := mantissa.takeWhile (· ≠ '.')
  let fraction := (mantissa.dropWhile (· ≠ '.')).drop 1
  if whole = [] ∧ fraction = [] then none
  else do
    let n ← optionalDigits whole
    let m ← optionalDigits fraction
    let k := (fraction.filter (· ≠ '_')).length
    some (n * 10 ^ k + m, exponent - k)

/-- A number without its sign. -/
def unsignedFloat (sign : Int) (cs : List Char) : Option PyFloat :=
  let word := String.ofList (cs.map Char.toLower)
  if word = "inf" ∨ word = "infinity" then some (if sign < 0 then .negInf else .inf)
  else if word = "nan" then some .nan
  else (decimalOf cs).map fun d => decOf (sign * d.1) d.2

/-- `float(text)`: `none` is a `ValueError`. -/
def floatOfText (s : String) : Option PyFloat :=
  match stripChars s.toList with
  | '+' :: cs => unsignedFloat 1 cs
  | '-' :: cs => unsignedFloat (-1) cs
  | cs => unsignedFloat 1 cs

/-- The least integers that no float is near. -/
def floatLimit : Int := 2 ^ 1024 - 2 ^ 970

/-- `float(value)`. -/
def pyFloat : Value → Except PyError PyFloat
  | .bool b => .ok (.dec (if b then 1 else 0) 0)
  | .int n =>
    if n.natAbs < floatLimit.natAbs then .ok (.dec n 0)
    else .error (.overflow "int too large to convert to float")
  | .float x => .ok x
  | .str s =>
    match floatOfText s with
    | some x => .ok x
    | none => .error (.value "could not convert string to float")
  | .none | .list _ | .dict _ =>
    .error (.type "float() argument must be a string or a real number")

/-- `a < b` on floats. -/
def floatLt (a b : PyFloat) : Bool := a.le b && !b.le a

/-! ### The recovery root -/

/-- The file `manifest.json` of a point: a link, a file that cannot be read (it may be missing), or
one with its size, its text if it is UTF-8, and whether reading it as JSON exceeds the recursion
limit of the interpreter. -/
inductive ManifestFile
  | symlink
  | unreadable
  | file (size : Nat) (text : Option String) (tooDeep : Bool)
  deriving DecidableEq, Repr

/-- A directory of the root: whether it can be searched, its manifest, and whether it can be
removed. -/
structure PointFolder where
  searchable : Bool
  manifest : ManifestFile
  removable : Bool
  deriving DecidableEq, Repr

/-- An entry of the root; what a removal that failed leaves is `damaged`. -/
inductive RootEntry
  | symlink
  | file
  | folder (f : PointFolder)
  | damaged
  deriving DecidableEq, Repr

abbrev RecoveryRoot := String → Option RootEntry

/-- What is raised: a `SnapshotError`, a `KeyError`, a `RecursionError`, or another exception. -/
inductive SnapshotFault
  | snapshot (message : String)
  | key (name : String)
  | recursion
  | raised (e : PyError)
  deriving DecidableEq, Repr

/-- What pruning goes by: the pair, its fingerprint, the days of
`recovery_snapshot_retention_days`, and the time. -/
structure PruneEnv where
  pair : Dict
  sha256hex : String → String
  days : Int
  now : Time

/-! ### Reading a manifest -/

def maxSnapshotFiles : Nat := 100000

def maxManifestBytes : Nat := 32 * 1024 * 1024

def maxSnapshotBytes : Int := 51200 * 1024 * 1024

/-- `POINT_RE.fullmatch(name)`. -/
def isPointId (name : String) : Bool :=
  startsWith name "full-" && name.length = 37 &&
    (name.toList.drop 5).all fun c => "0123456789abcdef".toList.contains c

/-- `pair_fingerprint`. -/
def pairFingerprint (env : PruneEnv) : String :=
  env.sha256hex (jsonDumps plainJson (.list [.str (pairIdentity env.pair),
    .str (drillEndpoints env.pair).1, .str (drillEndpoints env.pair).2,
    .str (env.pair.textOr "direction" "")]))

/-- `_relative`. -/
def snapshotRelative (value : String) : Except SnapshotFault String :=
  let path := parsePath value
  if value = "" ∨ 1024 < value.length ∨ isAbsolutePath value ∨ ".." ∈ path.allParts ∨
      '\\' ∈ value.toList ∨ ':' ∈ value.toList ∨ (value.toList.any fun c => c.toNat < 32) then
    .error (.snapshot "Unsicherer Pfad im vollständigen Stand")
  else .ok path.text

def manifestBroken : SnapshotFault := .snapshot "Recovery-Manifest ist beschädigt"

/-- `isinstance(value, int)`. -/
def intValue : Value → Option Int
  | .int n => some n
  | .bool b => some (if b then 1 else 0)
  | _ => none

/-- The loop over the entries: the total of their sizes. -/
def entriesTotal : List String → Int → List Value → Except SnapshotFault Int
  | _, total, [] => .ok total
  | seen, total, .dict entry :: entries => do
    let relative ← snapshotRelative (pyStr (pyOr (Dict.get entry "path") (.str "")))
    if relative ∈ seen ∨ !isDigest (pyStr (pyOr (Dict.get entry "sha256") (.str ""))) then
      .error manifestBroken
    else
      match intValue (Dict.get entry "size") with
      | none => .error manifestBroken
      | some size =>
        if size < 0 then .error manifestBroken
        else entriesTotal (relative :: seen) (total + size) entries
  | _, _, _ :: _ => .error manifestBroken

/-- The loop over the directories. -/
def checkDirectories : List Value → Except SnapshotFault Unit
  | [] => .ok ()
  | directory :: directories => do
    let _ ← snapshotRelative (pyStr directory)
    checkDirectories directories

/-- The manifest belongs to the point and to the pair. -/
def manifestBelongs (env : PruneEnv) (id : String) (allowPrevious : Bool) (value : Dict) : Bool :=
  Dict.get value "schema" = .str "sicherpfad-full-snapshot-v1" && Dict.get value "id" = .str id &&
    (allowPrevious || Dict.get value "fingerprint" = .str (pairFingerprint env)) &&
    (!allowPrevious || Dict.get value "identity" = .str (pairIdentity env.pair)) &&
    Dict.get value "complete" = .bool true

/-- What the manifest lists. -/
def checkListing (value : Dict) : Except SnapshotFault Unit :=
  match Dict.get value "entries" with
  | .list entries => do
    if maxSnapshotFiles < entries.length then .error manifestBroken
    else
      let total ← entriesTotal [] 0 entries
      match Dict.get value "directories" with
      | .list directories =>
        if maxSnapshotFiles < directories.length + entries.length then .error manifestBroken
        else
          checkDirectories directories
          if maxSnapshotBytes < total ∨ !pyEq (.int total) (Dict.get value "total_bytes") ∨
              !pyEq (.int entries.length) (Dict.get value "files") then
            .error (.snapshot "Recovery-Manifest ist unvollständig")
          else .ok ()
      | _ => .error manifestBroken
  | _ => .error manifestBroken

/-- The text of the manifest as JSON. -/
def readManifest : ManifestFile → Except SnapshotFault Value
  | .file size text tooDeep =>
    if maxManifestBytes < size then .error (.snapshot "Recovery-Manifest ist zu groß")
    else if tooDeep then .error .recursion
    else
      match text.bind jsonLoads with
      | some value => .ok value
      | none => .error (.snapshot "Vollständiger Stand nicht gefunden oder beschädigt")
  | _ => .error (.snapshot "Vollständiger Stand nicht gefunden oder beschädigt")

/-- The manifest file below an entry; `is_symlink` raises where a directory cannot be searched. -/
def manifestBelow : Option RootEntry → Except SnapshotFault ManifestFile
  | some .symlink => .error (.snapshot "Unsichere Recovery-Ablage")
  | some (.folder f) =>
    if !f.searchable then .error (.raised (.os "Permission denied"))
    else if f.manifest = .symlink then .error (.snapshot "Unsichere Recovery-Ablage")
    else .ok f.manifest
  | _ => .ok .unreadable

/-- `load_manifest`. -/
def loadManifest (env : PruneEnv) (id : String) (allowPrevious : Bool) (entry : Option RootEntry) :
    Except SnapshotFault Dict :=
  if !isPointId id then .error (.snapshot "Vollständiger Stand nicht gefunden")
  else do
    let file ← manifestBelow entry
    match ← readManifest file with
    | .dict value =>
      if !manifestBelongs env id allowPrevious value then
        .error (.snapshot "Vollständiger Stand gehört nicht zu diesem Datenweg")
      else do
        checkListing value
        .ok value
    | _ => .error (.snapshot "Vollständiger Stand gehört nicht zu diesem Datenweg")

/-! ### Pruning -/

abbrev SnapshotEffect := Effect RecoveryRoot SnapshotFault

/-- `time.time() - days * 86400`. -/
def PruneEnv.cutoff (env : PruneEnv) : PyFloat := shortDec (env.now - env.days * 86400 * 1000000) 6

/-- `float(manifest["created_at"])`. -/
def createdAt (manifest : Dict) : Except SnapshotFault PyFloat :=
  match manifest.lookup "created_at" with
  | none => .error (.key "created_at")
  | some v => (pyFloat v).mapError .raised

/-- `shutil.rmtree`. -/
def rmtree (name : String) : SnapshotEffect Unit := do
  match (← get) name with
  | some (.folder f) =>
    if f.removable then modify fun s => Function.update s name none
    else do
      modify fun s => Function.update s name (some .damaged)
      throw (.raised (.os "Operation not permitted"))
  | _ => throw (.raised (.os "Not a directory"))

/-- An entry that is passed over without a look at its content. -/
def isPassed (keepId name : String) (entry : Option RootEntry) : Bool :=
  name = keepId || entry = some .symlink || !isPointId name

/-- What is decided about an entry: whether it is removed. -/
def isExpired (env : PruneEnv) (name : String) (entry : Option RootEntry) :
    Except SnapshotFault Bool :=
  match loadManifest env name true entry with
  | .error (.snapshot _) => .ok false
  | .error e => .error e
  | .ok manifest => (createdAt manifest).map fun created => floatLt created env.cutoff

/-- One entry of the root. -/
def pruneEntry (env : PruneEnv) (keepId name : String) : SnapshotEffect Unit := do
  let entry := (← get) name
  if isPassed keepId name entry then pure ()
  else
    match isExpired env name entry with
    | .error e => throw e
    | .ok false => pure ()
    | .ok true => rmtree name

def pruneEntries (env : PruneEnv) (keepId : String) : List String → SnapshotEffect Unit
  | [] => pure ()
  | name :: names => do
    pruneEntry env keepId name
    pruneEntries env keepId names

/-- `prune_snapshots`, for the names that the root lists. -/
def pruneSnapshots (env : PruneEnv) (keepId : String) (listing : List String) :
    SnapshotEffect Unit :=
  if env.days ≤ 0 then pure () else pruneEntries env keepId listing

/-- `public_snapshot`. -/
def publicSnapshot (manifest : Dict) : Dict :=
  ["id", "identity", "pair", "created_at", "kind", "complete", "total_bytes", "files", "storage",
    "verification"].map fun key => (key, Dict.get manifest key)

/-- `capture_snapshot` from the publication on. -/
def publishSnapshot (env : PruneEnv) (id : String) (point : PointFolder) (manifest : Dict)
    (listing : List String) : SnapshotEffect Dict := do
  modify fun s => Function.update s id (some (.folder point))
  pruneSnapshots env id listing
  return publicSnapshot manifest

/-! ### What is removed -/

section Safety

variable {env : PruneEnv} {keepId : String}

/-- A valid point of the pair that is too old, and not the one to keep. -/
def Expired (env : PruneEnv) (keepId name : String) (entry : Option RootEntry) : Prop :=
  name ≠ keepId ∧ isPointId name = true ∧ ∃ manifest created,
    loadManifest env name true entry = .ok manifest ∧
    Dict.get manifest "identity" = .str (pairIdentity env.pair) ∧
    createdAt manifest = .ok created ∧ floatLt created env.cutoff = true

/-- A manifest is below a directory. -/
theorem folder_of_loadManifest {name : String} {allowPrevious : Bool} {entry : Option RootEntry}
    {manifest : Dict} (h : loadManifest env name allowPrevious entry = .ok manifest) :
    ∃ f, entry = some (.folder f) := by
  unfold loadManifest at h
  split at h
  · cases h
  obtain ⟨file, hfile, h⟩ := bind_ok.mp h
  obtain ⟨value, hvalue, -⟩ := bind_ok.mp h
  have hunreadable : file ≠ .unreadable := by
    rintro rfl
    cases hvalue
  rcases entry with _ | (_ | _ | f | _)
  · exact absurd (Except.ok.inj hfile).symm hunreadable
  · cases hfile
  · exact absurd (Except.ok.inj hfile).symm hunreadable
  · exact ⟨f, rfl⟩
  · exact absurd (Except.ok.inj hfile).symm hunreadable

/-- A manifest that is accepted names the pair. -/
theorem identity_of_loadManifest {name : String} {entry : Option RootEntry} {manifest : Dict}
    (h : loadManifest env name true entry = .ok manifest) :
    Dict.get manifest "identity" = .str (pairIdentity env.pair) := by
  unfold loadManifest at h
  split at h
  · cases h
  obtain ⟨file, -, h⟩ := bind_ok.mp h
  obtain ⟨value, -, h⟩ := bind_ok.mp h
  cases value with
  | dict d =>
    simp only at h
    split at h
    · cases h
    · next hbelongs =>
      obtain ⟨-, -, h⟩ := bind_ok.mp h
      obtain rfl := Except.ok.inj h
      simp only [manifestBelongs, Bool.not_eq_true', Bool.not_eq_false,
        Bool.and_eq_true] at hbelongs
      simpa using hbelongs.1.2
  | none | bool | int | float | str | list => cases h

/-- An entry that is removed is an expired point. -/
theorem expired_of_isExpired {name : String} {entry : Option RootEntry}
    (hpassed : isPassed keepId name entry = false) (h : isExpired env name entry = .ok true) :
    Expired env keepId name entry := by
  simp only [isPassed, Bool.or_eq_false_iff, decide_eq_false_iff_not, Bool.not_eq_false'] at hpassed
  unfold isExpired at h
  split at h
  · cases h
  · cases h
  · next manifest hmanifest =>
    cases hcreated : createdAt manifest with
    | error e =>
      rw [hcreated] at h
      cases h
    | ok created =>
      rw [hcreated] at h
      exact ⟨hpassed.1.1, hpassed.2, manifest, created, hmanifest,
        identity_of_loadManifest hmanifest, hcreated, Except.ok.inj h⟩

/-- Whatever is not an expired point stays. -/
def Pruned (env : PruneEnv) (keepId : String) (s t : RecoveryRoot) : Prop :=
  ∀ name, t name = s name ∨
    Expired env keepId name (s name) ∧ (t name = none ∨ t name = some .damaged)

instance : Std.Refl (Pruned env keepId) := ⟨fun _ _ => .inl rfl⟩

theorem not_expired_left {name : String} {entry : Option RootEntry}
    (h : entry = none ∨ entry = some .damaged) : ¬Expired env keepId name entry := by
  rintro ⟨-, -, manifest, created, hmanifest, -⟩
  obtain ⟨f, hf⟩ := folder_of_loadManifest hmanifest
  rcases h with rfl | rfl
  · cases hf
  · cases hf

instance : IsTrans RecoveryRoot (Pruned env keepId) where
  trans s t u hst htu name := by
    rcases hst name with ht | ⟨hexpired, ht⟩
    · rcases htu name with hu | ⟨hexpired, hu⟩
      · exact .inl (hu.trans ht)
      · exact .inr ⟨ht ▸ hexpired, hu⟩
    · rcases htu name with hu | ⟨hexpired', -⟩
      · exact .inr ⟨hexpired, hu ▸ ht⟩
      · exact absurd hexpired' (not_expired_left ht)

theorem pruned_update {s : RecoveryRoot} {name : String} {entry : Option RootEntry}
    (h : Expired env keepId name (s name)) (hentry : entry = none ∨ entry = some .damaged) :
    Pruned env keepId s (Function.update s name entry) := by
  intro other
  by_cases hother : other = name
  · subst hother
    rw [Function.update_self]
    exact .inr ⟨h, hentry⟩
  · rw [Function.update_of_ne hother]
    exact .inl rfl

/-- What `rmtree` does to a directory. -/
theorem exec_rmtree {s : RecoveryRoot} {name : String} {f : PointFolder}
    (h : s name = some (.folder f)) : exec (rmtree name) s =
      if f.removable then (.ok (), Function.update s name none)
      else (.error (.raised (.os "Operation not permitted")),
        Function.update s name (some .damaged)) := by
  unfold rmtree
  rw [exec_bind_ok (exec_get s)]
  simp only [h]
  cases f.removable <;> rfl

/-- One entry: nothing else changes, and this one only if it is an expired point. -/
theorem within_pruneEntry (name : String) :
    Within (Pruned env keepId) (pruneEntry env keepId name) := by
  intro s
  unfold pruneEntry
  rw [exec_bind_ok (exec_get s)]
  dsimp only
  cases hpassed : isPassed keepId name (s name) with
  | true => exact refl_of _ s
  | false =>
    rw [if_neg (by decide)]
    cases hexpired : isExpired env name (s name) with
    | error e => exact refl_of _ s
    | ok old =>
      cases old with
      | false => exact refl_of _ s
      | true =>
        have h := expired_of_isExpired hpassed hexpired
        obtain ⟨-, -, manifest, created, hmanifest, -⟩ := id h
        obtain ⟨f, hf⟩ := folder_of_loadManifest hmanifest
        show Pruned env keepId s (exec (rmtree name) s).2
        rw [exec_rmtree hf]
        split
        · exact pruned_update h (.inl rfl)
        · exact pruned_update h (.inr rfl)

theorem within_pruneEntries (names : List String) :
    Within (Pruned env keepId) (pruneEntries env keepId names) := by
  induction names with
  | nil => exact within_pure ()
  | cons name names ih => exact (within_pruneEntry name).bind fun _ => ih

/-- **Pruning removes only expired points**, whatever is in the root and however it ends. -/
theorem removed_expired (listing : List String) :
    Within (Pruned env keepId) (pruneSnapshots env keepId listing) := by
  unfold pruneSnapshots
  split
  · exact within_pure ()
  · exact within_pruneEntries listing

theorem kept_of_pruned {s t : RecoveryRoot} (h : Pruned env keepId s t) : t keepId = s keepId := by
  rcases h keepId with hkept | ⟨hexpired, -⟩
  · exact hkept
  · exact absurd rfl hexpired.1

/-! ### When pruning fails -/

/-- An entry that pruning gets through: it is passed over, it is no valid point, or its age can be
read and, if it is too old, it can be removed. -/
def Tame (env : PruneEnv) (keepId name : String) (entry : Option RootEntry) : Prop :=
  isPassed keepId name entry = true ∨
    ∃ old, isExpired env name entry = .ok old ∧
      (old = true → ∃ f, entry = some (.folder f) ∧ f.removable = true)

theorem tame_none (name : String) : Tame env keepId name none := by
  by_cases hname : isPointId name = true
  · have hload : loadManifest env name true none
        = .error (.snapshot "Vollständiger Stand nicht gefunden oder beschädigt") := by
      rw [loadManifest, hname]
      rfl
    exact .inr ⟨false, by rw [isExpired, hload], Bool.noConfusion⟩
  · refine .inl ?_
    simp [isPassed, hname]

theorem exec_pruneEntry_tame {s : RecoveryRoot} {name : String}
    (h : Tame env keepId name (s name)) :
    ∃ t, exec (pruneEntry env keepId name) s = (.ok (), t) ∧
      (∀ other, other ≠ name → t other = s other) ∧ (t name = s name ∨ t name = none) := by
  have hsame : ∃ t, ((.ok (), s) : Except SnapshotFault Unit × RecoveryRoot) = (.ok (), t) ∧
      (∀ other, other ≠ name → t other = s other) ∧ (t name = s name ∨ t name = none) :=
    ⟨s, rfl, fun _ _ => rfl, .inl rfl⟩
  unfold pruneEntry
  rw [exec_bind_ok (exec_get s)]
  dsimp only
  cases hpassed : isPassed keepId name (s name) with
  | true => exact hsame
  | false =>
    rcases h with hp | ⟨old, hold, hremovable⟩
    · exact absurd (hpassed.symm.trans hp) Bool.noConfusion
    rw [if_neg (by decide), hold]
    cases old with
    | false => exact hsame
    | true =>
      obtain ⟨f, hf, hremovable⟩ := hremovable rfl
      refine ⟨Function.update s name none, ?_, fun other hother => ?_, .inr ?_⟩
      · exact (exec_rmtree hf).trans (if_pos hremovable)
      · exact Function.update_of_ne hother none s
      · exact Function.update_self name none s

theorem exec_pruneEntry_wild {s : RecoveryRoot} {name : String}
    (h : ¬Tame env keepId name (s name)) :
    ∃ e t, exec (pruneEntry env keepId name) s = (.error e, t) := by
  unfold pruneEntry
  rw [exec_bind_ok (exec_get s)]
  dsimp only
  rw [if_neg fun hpassed => h (.inl hpassed)]
  cases hold : isExpired env name (s name) with
  | error e => exact ⟨e, s, rfl⟩
  | ok old =>
    cases old with
    | false => exact absurd (.inr ⟨false, hold, Bool.noConfusion⟩) h
    | true =>
      have hfolder : ∃ f, s name = some (.folder f) := by
        unfold isExpired at hold
        split at hold
        · cases hold
        · cases hold
        · next hmanifest => exact folder_of_loadManifest hmanifest
      obtain ⟨f, hf⟩ := hfolder
      refine ⟨_, _, (exec_rmtree hf).trans (if_neg fun hremovable => h ?_)⟩
      exact .inr ⟨true, hold, fun _ => ⟨f, hf, hremovable⟩⟩

/-- The loop comes to its end exactly if it gets through every entry. -/
theorem pruneEntries_ok_iff (names : List String) (s : RecoveryRoot) :
    (exec (pruneEntries env keepId names) s).1 = .ok () ↔
      ∀ name ∈ names, Tame env keepId name (s name) := by
  induction names generalizing s with
  | nil => exact ⟨fun _ _ h => absurd h List.not_mem_nil, fun _ => rfl⟩
  | cons name names ih =>
    unfold pruneEntries
    rw [List.forall_mem_cons]
    by_cases hname : Tame env keepId name (s name)
    · obtain ⟨t, ht, hother, hself⟩ := exec_pruneEntry_tame hname
      rw [exec_bind_ok ht, ih t]
      -- What was removed is none afterwards, and that is passed over.
      have hsame : ∀ n, Tame env keepId n (t n) ↔ Tame env keepId n (s n) := by
        intro n
        by_cases hn : n = name
        · subst hn
          rcases hself with hself | hself
          · rw [hself]
          · rw [hself]
            exact iff_of_true (tame_none n) hname
        · rw [hother n hn]
      exact ⟨fun h => ⟨hname, fun n hn => (hsame n).mp (h n hn)⟩,
        fun h n hn => (hsame n).mpr (h.2 n hn)⟩
    · obtain ⟨e, t, ht⟩ := exec_pruneEntry_wild hname
      rw [exec_bind_error ht]
      refine ⟨fun h => ?_, fun h => absurd h.1 hname⟩
      cases h

theorem pruneSnapshots_ok_iff (listing : List String) (s : RecoveryRoot) :
    (exec (pruneSnapshots env keepId listing) s).1 = .ok () ↔
      (0 < env.days → ∀ name ∈ listing, Tame env keepId name (s name)) := by
  unfold pruneSnapshots
  split
  · next hdays => exact ⟨fun _ hpos => absurd hpos (not_lt.mpr hdays), fun _ => rfl⟩
  · next hdays =>
    rw [pruneEntries_ok_iff]
    exact ⟨fun h _ => h, fun h => h (not_le.mp hdays)⟩

end Safety

/-! ### The capture -/

/-- The publication of a point, and what pruning does after it: only expired points of the pair are
removed, the new point stays, and the capture reports its point. -/
def SafePublication (env : PruneEnv) (id : String) (point : PointFolder) (manifest : Dict)
    (listing : List String) (s : RecoveryRoot) : Prop :=
  let run := exec (publishSnapshot env id point manifest listing) s
  Pruned env id (Function.update s id (some (.folder point))) run.2 ∧
    run.2 id = some (.folder point) ∧ run.1 = .ok (publicSnapshot manifest)

/-- **A capture that has published its point reports it exactly if pruning gets through every
entry of the root.** -/
theorem published_iff (env : PruneEnv) (id : String) (point : PointFolder) (manifest : Dict)
    (listing : List String) (s : RecoveryRoot) :
    SafePublication env id point manifest listing s ↔
      (0 < env.days → ∀ name ∈ listing,
        Tame env id name (Function.update s id (some (.folder point)) name)) := by
  have hpublish : exec (publishSnapshot env id point manifest listing) s
      = exec (pruneSnapshots env id listing >>= fun _ => pure (publicSnapshot manifest))
        (Function.update s id (some (.folder point))) := exec_bind_ok (exec_modify _ s) _
  have hwithin : Within (Pruned env id) (pruneSnapshots env id listing) := removed_expired listing
  have hsafe := hwithin (Function.update s id (some (.folder point)))
  have hkept := (kept_of_pruned hsafe).trans (Function.update_self id _ s)
  rw [← pruneSnapshots_ok_iff]
  unfold SafePublication
  rw [hpublish, exec_bind]
  revert hsafe hkept
  rcases exec (pruneSnapshots env id listing) _ with ⟨e | _, t⟩
  · refine fun _ _ => ⟨fun h => ?_, fun h => ?_⟩
    · cases h.2.2
    · cases h
  · exact fun hsafe hkept => ⟨fun _ => rfl, fun _ => ⟨hsafe, hkept, rfl⟩⟩

/-! ### A date that is no number -/

def pruneEnv : PruneEnv where
  pair := [("id", .str "p"), ("local", .str "/photos"), ("remote", .str "/mnt/backup")]
  sha256hex := fun _ => ""
  days := 90
  now := 1753430400000000

/-- A point of the pair without files, and the text that stands for its date. -/
def emptyPoint (id created : String) : PointFolder where
  searchable := true
  manifest := .file 300 (some (
    "\x7b\"schema\": \"sicherpfad-full-snapshot-v1\", \"id\": \"" ++ id ++
    "\", \"identity\": \"p\", \"complete\": true, \"entries\": [], \"directories\": [], " ++
    "\"total_bytes\": 0, \"files\": 0, \"created_at\": " ++ created ++ "\x7d")) false
  removable := true

def oldId : String := "full-00000000000000000000000000000000"

def newId : String := "full-11111111111111111111111111111111"

/-- What the manifest of the older point says. -/
def oldManifest : Dict :=
  [("schema", .str "sicherpfad-full-snapshot-v1"), ("id", .str oldId), ("identity", .str "p"),
   ("complete", .bool true), ("entries", .list []), ("directories", .list []),
   ("total_bytes", .int 0), ("files", .int 0), ("created_at", .none)]

theorem loadManifest_old : loadManifest pruneEnv oldId true
    (some (.folder (emptyPoint oldId "null"))) = .ok oldManifest := by
  have htext : (emptyPoint oldId "null").manifest =
      .file 300 (some (jsonDumps plainJson (.dict oldManifest))) false := by decide +kernel
  have hread : readManifest (emptyPoint oldId "null").manifest = .ok (.dict oldManifest) := by
    have hloads := @jsonLoads_jsonDumps (.dict oldManifest) (by decide +kernel)
    rw [htext, readManifest, if_neg (by decide), if_neg Bool.false_ne_true, Option.bind_some,
      hloads]
  have hbelow : manifestBelow (some (.folder (emptyPoint oldId "null"))) =
      .ok (emptyPoint oldId "null").manifest := rfl
  have hid : isPointId oldId = true := by decide +kernel
  have hbelongs : manifestBelongs pruneEnv oldId true oldManifest = true := by decide +kernel
  have hlisting : checkListing oldManifest = .ok () := by decide +kernel
  have hnamed : ¬ (!isPointId oldId) = true := by
    rw [hid]
    exact Bool.false_ne_true
  have hown : ¬ (!manifestBelongs pruneEnv oldId true oldManifest) = true := by
    rw [hbelongs]
    exact Bool.false_ne_true
  unfold loadManifest
  rw [if_neg hnamed]
  refine bind_ok.mpr ⟨_, hbelow, bind_ok.mpr ⟨_, hread, (if_neg hown).trans ?_⟩⟩
  exact bind_ok.mpr ⟨(), hlisting, rfl⟩

theorem isExpired_of_load {env : PruneEnv} {name : String} {entry : Option RootEntry}
    {manifest : Dict} (h : loadManifest env name true entry = .ok manifest) :
    isExpired env name entry =
      (createdAt manifest).map fun created => floatLt created env.cutoff := by
  unfold isExpired
  rw [h]

/-- A capture that reports its point has got through pruning. -/
theorem pruned_of_published {env : PruneEnv} {id : String} {point : PointFolder} {manifest : Dict}
    {listing : List String} {s : RecoveryRoot}
    (h : (exec (publishSnapshot env id point manifest listing) s).1
      = .ok (publicSnapshot manifest)) :
    (exec (pruneSnapshots env id listing) (Function.update s id (some (.folder point)))).1
      = .ok () := by
  have hpublish : exec (publishSnapshot env id point manifest listing) s
      = exec (pruneSnapshots env id listing >>= fun _ => pure (publicSnapshot manifest))
        (Function.update s id (some (.folder point))) := exec_bind_ok (exec_modify _ s) _
  rw [hpublish, exec_bind] at h
  revert h
  rcases exec (pruneSnapshots env id listing) _ with ⟨e | _, t⟩
  · exact fun h => nomatch h
  · exact fun _ => rfl

/-- **A point whose date is no number makes the next capture fail.** -/
theorem not_safe_publication : ¬∀ (env : PruneEnv) (id : String) (point : PointFolder)
    (manifest : Dict) (listing : List String) (s : RecoveryRoot),
    SafePublication env id point manifest listing s := by
  intro h
  have hpruned := pruned_of_published (h pruneEnv newId (emptyPoint newId "1753430400.0") []
    [oldId, newId] (Function.update (fun _ => none) oldId
      (some (.folder (emptyPoint oldId "null"))))).2.2
  rw [pruneSnapshots_ok_iff] at hpruned
  have hne : oldId ≠ newId := by decide
  have htame := hpruned (by decide) oldId List.mem_cons_self
  rw [Function.update_of_ne hne, Function.update_self] at htame
  rcases htame with hpassed | ⟨old, hold, -⟩
  · have hid : isPointId oldId = true := by decide +kernel
    unfold isPassed at hpassed
    simp [hne, hid] at hpassed
  · have hcreated : createdAt oldManifest =
        .error (.raised (.type "float() argument must be a string or a real number")) := rfl
    rw [isExpired_of_load loadManifest_old, hcreated] at hold
    cases hold

end RcloneSync
