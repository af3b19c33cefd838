/-
RcloneSync/SelectiveRestore.lean

A recovery of chosen files, from the directory in which they are listed to the data directory
that is verified (`_local_browse`, `run_selective_restore`).

The chosen paths are the names that were listed, but what is looked for is what
`normalize_selection` makes of them.  If rclone tells the truth, a verified data directory has
the files of that selection, each with the bytes of the target, and nothing else
(`verified_spec`).  So the chosen files come back if their paths stay as they are; if they do
not, other files can come back in their place, and the result is verified
(`exact_iff_restorable`).
-/
import Mathlib.Data.List.Dedup
import RcloneSync.BoundedJson
import RcloneSync.RemoteListing
import RcloneSync.RestoreManifest

namespace RcloneSync

open Py

/-! ### The listing of a local target -/

/-- What an entry of a directory is, without following links. -/
inductive BrowseNode
  | directory
  | file (size : Nat)
  | link
  | special
  /-- `entry.stat` raises an `OSError` -/
  | unknown

/-- What comes of opening a directory without following a link. -/
inductive BrowseOpening
  /-- `FileNotFoundError` -/
  | missing
  /-- another `OSError` -/
  | failed
  | opened (names : List String)

/-- The tree below a target, by the parts of the paths. -/
structure BrowseTree where
  opening : List String → BrowseOpening
  node : List String → BrowseNode

structure BrowseItem where
  name : String
  path : String
  isDir : Bool
  size : Option Nat

/-- `_safe_relative` of the recovery points. -/
def browseRelative (value : String) : Except PointError String :=
  let raw := strip (replace "\\" "/" value)
  let candidate := parsePath raw
  if candidate.root ≠ "" ∨ ".." ∈ candidate.parts ∨ raw.toList.contains ':' = true ∨
      raw.toList.any isRefusedChar = true then
    .error (.point "Ungültiger relativer Pfad")
  else .ok (if raw = "" ∨ raw = "." then "" else candidate.text)

/-- The item of an entry, if it is a directory or a file. -/
def browseItem (T : BrowseTree) (relative name : String) : Option BrowseItem :=
  let path := if relative = "" then name else relative ++ "/" ++ name
  match T.node (partsOf relative ++ [name]) with
  | .directory => some ⟨name, path, true, none⟩
  | .file size => some ⟨name, path, false, some size⟩
  | .link | .special | .unknown => none

/-- The order of the items: directories first. -/
def browseBefore (a b : BrowseItem) : Bool :=
  if a.isDir = b.isDir then !decide (casefold b.name < casefold a.name) else a.isDir

/-- `_local_browse`. -/
def localBrowse (T : BrowseTree) (relative : String) :
    Except PointError (List BrowseItem × Bool) := do
  let relative ← browseRelative relative
  match T.opening (partsOf relative) with
  | .missing => .error (.point "Ordner nicht gefunden")
  | .failed => .error (.point "Recovery-Ordner konnte nicht sicher gelesen werden")
  | .opened names =>
    let items := (names.take maxBrowseScan).filterMap (browseItem T relative)
    .ok ((items.mergeSort browseBefore).take maxBrowseItems,
      decide (maxBrowseScan < names.length) || decide (maxBrowseItems < items.length))

/-- A choice of at most a hundred of the files that are listed. -/
structure Choice where
  tree : BrowseTree
  paths : List String
  few : paths.length ≤ maxSelectionItems
  listed : ∀ p ∈ paths, ∃ relative items truncated,
    localBrowse tree relative = .ok (items, truncated) ∧
      ∃ item ∈ items, item.isDir = false ∧ item.path = p

/-! ### `run_selective_restore` -/

/-- An entry of the manifest of a full point. -/
structure HistoricalEntry where
  path : String
  size : Nat
  sha256 : String

/-- A recovery, and what its steps come to. -/
structure RecoveryRun where
  paths : List String
  maxTotalMb : Int
  started : Except RecoveryFailure Unit
  /-- the endpoints, the record, the staging directory and `selection.txt` -/
  prepared : Except RecoveryFailure Unit
  /-- `load_manifest` for a `full-` point -/
  historical : Option (Except RecoveryFailure (List HistoricalEntry))
  listing : Except RecoveryFailure CommandOutput
  checksums : Except RecoveryFailure CommandOutput
  /-- the staging budget, the record and the free space -/
  admitted : Except RecoveryFailure Unit
  copied : Except RecoveryFailure Int
  data : RestoredDir
  /-- no cancellation while the data directory is read -/
  walked : Except RecoveryFailure Unit
  checked : Except RecoveryFailure Int

/-- `limit_bytes`. -/
def recoveryLimit (maxTotalMb : Int) : Int := max 1 (min maxTotalMb 51200) * 1024 * 1024

/-- `entries`: the last one of a path counts. -/
def historicalEntry (entries : List HistoricalEntry) (path : String) : Option HistoricalEntry :=
  entries.reverse.find? fun e => e.path = path

/-- The manifest of a full point, cut to the selection. -/
def historicalManifest (selection : List String) (limitBytes : Int)
    (entries : List HistoricalEntry) : Except RecoveryFailure RestoreManifest :=
  if selection.any (fun p => (historicalEntry entries p).isNone) = true then
    .error (recoveryError "Ausgewählte Datei fehlt im aufgezeichneten SHA-256-Manifest")
  else
    let m : RestoreManifest := selection.filterMap fun p =>
      (historicalEntry entries p).map fun e => (p, ⟨e.size, some "sha256", some e.sha256⟩)
    if limitBytes < (m.map fun e => e.2.bytes).sum then
      .error (recoveryError "Die Auswahl überschreitet das bestätigte Recovery-Limit")
    else .ok m

namespace RecoveryRun

variable (H : Digests) (R : RecoveryRun)

/-- `manifest`. -/
def manifest (selection : List String) : Except RecoveryFailure RestoreManifest :=
  match R.historical with
  | none => expectedManifest selection (recoveryLimit R.maxTotalMb) R.listing R.checksums
  | some loaded => do historicalManifest selection (recoveryLimit R.maxTotalMb) (← loaded)

/-- The `try` block. -/
def attempt : Except RecoveryFailure RestoreManifest := do
  R.started
  let selection ← (normalizeSelection R.paths).mapError .failed
  R.prepared
  let m ← R.manifest selection
  R.admitted
  let copied ← R.copied
  if copied ≠ 0 then .error (recoveryError "Recovery fehlgeschlagen")
  else
    R.walked
    verifyManifest H.digest R.data m
    let checked ← R.checked
    if checked ≠ 0 then
      .error (recoveryError "Recovery-Prüfsummen stimmen nicht mit dem Sicherungsziel überein")
    else .ok m

end RecoveryRun

/-- What the record of a recovery says of its end. -/
structure RecoveryRecord where
  status : String
  verified : Bool
  files : Option Nat
  error : Option RecoveryFailure

/-- `run_selective_restore`. -/
def runSelectiveRestore (H : Digests) (R : RecoveryRun) : RecoveryRecord :=
  match R.attempt H with
  | .ok m => ⟨"ready", true, some m.length, none⟩
  | .error .cancelled => ⟨"cancelled", false, none, some .cancelled⟩
  | .error (.failed e) => ⟨"error", false, none, some (.failed e)⟩

/-! ### What a verified recovery has -/

/-- rclone tells the truth about the files that it is asked for, whenever it reads them: `read`
is the target as it is listed, and `reread` as it is read for the checksums.  What a full point
recorded is `read` too.  No two contents that meet at a path have the same checksum. -/
structure RcloneTrue (H : Digests) (R : RecoveryRun) (read reread : String → Option Bytes) :
    Prop where
  listing : ∀ selection, normalizeSelection R.paths = .ok selection →
    ∀ o, R.listing = .ok o → o.returncode = 0 → ListingTrue H (fun path bytes =>
      path ∈ readFilesFrom (listingText selection) ∧ read path = some bytes) o.stdout
  checksums : ∀ selection, normalizeSelection R.paths = .ok selection →
    ∀ o, R.checksums = .ok o → o.returncode = 0 →
      ChecksumsTrue H (readFilesFrom (listingText selection))
        (fun path bytes => reread path = some bytes) o.stdout
  historical : ∀ entries, R.historical = some (.ok entries) →
    ∀ e ∈ entries, ∃ bytes, read e.path = some bytes ∧ e.sha256 = H.digest "sha256" bytes
  collisions : ∀ path found bytes key, (path, found) ∈ R.data.files →
    (read path = some bytes ∨ reread path = some bytes) →
      H.digest key found = H.digest key bytes → found = bytes

/-- **Exactly the chosen files**: one at the path of each of them, with the bytes that the target
had when the manifest was taken, and nothing else. -/
structure RecoveryRun.Exact (R : RecoveryRun) (paths : List String)
    (read reread : String → Option Bytes) : Prop where
  noLink : R.data.hasLink = false
  paths : ∀ p, (∃ bytes, (p, bytes) ∈ R.data.files) ↔ p ∈ paths
  once : ∀ p a b, (p, a) ∈ R.data.files → (p, b) ∈ R.data.files → a = b
  bytes : ∀ p bytes, (p, bytes) ∈ R.data.files → read p = some bytes ∨ reread p = some bytes

section Verified

variable {H : Digests} {R : RecoveryRun} {read reread : String → Option Bytes}

theorem runSelectiveRestore_verified (h : (runSelectiveRestore H R).verified = true) :
    ∃ m, R.attempt H = .ok m := by
  unfold runSelectiveRestore at h
  split at h
  · rename_i m hm
    exact ⟨m, hm⟩
  · cases h
  · cases h

/-- What a full point recorded is true. -/
theorem historicalManifest_true {selection : List String} {limitBytes : Int}
    {entries : List HistoricalEntry} {m : RestoreManifest}
    (htrue : ∀ e ∈ entries, ∃ bytes, read e.path = some bytes ∧
      e.sha256 = H.digest "sha256" bytes)
    (h : historicalManifest selection limitBytes entries = .ok m) :
    (∀ p, p ∈ m.paths ↔ p ∈ selection) ∧ ∀ e ∈ m, EntryTrue H
      (fun path bytes => read path = some bytes ∨ reread path = some bytes) e := by
  unfold historicalManifest at h
  split_ifs at h with hmissing
  dsimp only at h
  split_ifs at h
  obtain rfl := Except.ok.inj h
  have hfound : ∀ p ∈ selection, ∃ e, historicalEntry entries p = some e := by
    intro p hp
    cases hentry : historicalEntry entries p with
    | some e => exact ⟨e, rfl⟩
    | none => exact absurd (List.any_eq_true.mpr ⟨p, hp, by rw [hentry]; rfl⟩) hmissing
  constructor
  · intro p
    unfold RestoreManifest.paths
    rw [List.mem_map]
    constructor
    · rintro ⟨e, he, rfl⟩
      obtain ⟨q, hq, hentry⟩ := List.mem_filterMap.mp he
      obtain ⟨found, -, rfl⟩ := Option.map_eq_some_iff.mp hentry
      exact hq
    · intro hp
      obtain ⟨e, he⟩ := hfound p hp
      exact ⟨_, List.mem_filterMap.mpr ⟨p, hp, by rw [he]; rfl⟩, rfl⟩
  · intro e he key hkey
    obtain ⟨q, hq, hentry⟩ := List.mem_filterMap.mp he
    obtain ⟨found, hfound, rfl⟩ := Option.map_eq_some_iff.mp hentry
    obtain rfl := Option.some.inj hkey
    have hmem : found ∈ entries := List.mem_reverse.mp (List.mem_of_find?_eq_some hfound)
    have hpath : found.path = q := by simpa using List.find?_some hfound
    obtain ⟨bytes, hread, hsum⟩ := htrue found hmem
    exact ⟨bytes, .inl (hpath ▸ hread), congrArg some hsum⟩

/-- **A verified data directory has the files of the selection**, with the bytes of the
target. -/
theorem verified_spec (htrue : RcloneTrue H R read reread)
    (h : (runSelectiveRestore H R).verified = true) :
    ∃ selection, normalizeSelection R.paths = .ok selection ∧
      R.Exact selection read reread := by
  obtain ⟨m, hm⟩ := runSelectiveRestore_verified h
  unfold RecoveryRun.attempt at hm
  obtain ⟨-, -, hm⟩ := bind_ok.mp hm
  obtain ⟨selection, hselection, hm⟩ := bind_ok.mp hm
  have hselection : normalizeSelection R.paths = .ok selection := by
    cases hnormal : normalizeSelection R.paths with
    | error e =>
      rw [hnormal] at hselection
      cases hselection
    | ok found =>
      rw [hnormal] at hselection
      exact congrArg Except.ok (Except.ok.inj hselection)
  obtain ⟨hne, -, hclean⟩ := normalizeSelection_spec hselection
  have hlines := readFilesFrom_listing hne hclean
  obtain ⟨-, -, hm⟩ := bind_ok.mp hm
  obtain ⟨manifest, hmanifest, hm⟩ := bind_ok.mp hm
  have hentries : (∀ p, p ∈ manifest.paths ↔ p ∈ selection) ∧
      ∀ e ∈ manifest, EntryTrue H
        (fun path bytes => read path = some bytes ∨ reread path = some bytes) e := by
    unfold RecoveryRun.manifest at hmanifest
    cases hhistorical : R.historical with
    | none =>
      rw [hhistorical] at hmanifest
      have hlisting := htrue.listing selection hselection
      have hchecksums := htrue.checksums selection hselection
      rw [hlines] at hlisting hchecksums
      obtain ⟨hpaths, htrue⟩ := expectedManifest_true hlisting hchecksums hmanifest
      refine ⟨hpaths, fun e he key hkey => ?_⟩
      obtain ⟨bytes, hread, hsum⟩ := htrue e he key hkey
      exact ⟨bytes, hread.imp_left And.right, hsum⟩
    | some loaded =>
      rw [hhistorical] at hmanifest
      obtain ⟨entries, hloaded, hmanifest⟩ := bind_ok.mp hmanifest
      exact historicalManifest_true
        (htrue.historical entries (hhistorical.trans (congrArg some hloaded))) hmanifest
  obtain ⟨-, -, hm⟩ := bind_ok.mp hm
  obtain ⟨code, -, hm⟩ := bind_ok.mp hm
  split_ifs at hm
  obtain ⟨-, -, hm⟩ := bind_ok.mp hm
  obtain ⟨u, hverified, hm⟩ := bind_ok.mp hm
  obtain ⟨hlink, hpaths, hsums⟩ := verifyManifest_spec hverified
  refine ⟨selection, hselection, hlink, fun p => ?_, fun p a b => RestoredDir.file_unique,
    fun p bytes hfile => ?_⟩
  · rw [← hentries.1 p, ← hpaths p, List.mem_map]
    exact ⟨fun ⟨bytes, hfile⟩ => ⟨_, hfile, rfl⟩, fun ⟨⟨_, bytes⟩, hfile, heq⟩ =>
      ⟨bytes, heq ▸ hfile⟩⟩
  · have hmem : p ∈ manifest.paths := (hpaths p).mp (List.mem_map_of_mem hfile)
    obtain ⟨e, he, rfl⟩ := List.mem_map.mp hmem
    obtain ⟨found, key, hfound, hkey, hchecksum⟩ := hsums e he
    obtain rfl := RestoredDir.file_unique hfound hfile
    obtain ⟨taken, htaken, hsum⟩ := hentries.2 e he key hkey
    have hdigest : H.digest key found = H.digest key taken :=
      Option.some.inj (hchecksum.symm.trans hsum)
    obtain rfl := htrue.collisions e.1 found taken key hfound htaken hdigest
    exact htaken

end Verified



/-! ### A recovery of other files -/

/-- The paths cannot be files of one directory: one of them is no file in it, or lies inside
another one. -/
def Overlapping (selection : List String) : Prop :=
  ∃ p ∈ selection, partsOf p = [] ∨ ∃ q ∈ selection, q ≠ p ∧ partsOf p <+: partsOf q

/-- The chosen paths are refused, or stay as they are, or become paths that no directory has. -/
def Restorable (paths : List String) : Prop :=
  ∀ selection, normalizeSelection paths = .ok selection →
    (∀ p, p ∈ selection ↔ p ∈ paths) ∨ Overlapping selection

/-- No directory has overlapping files. -/
theorem not_overlapping {R : RecoveryRun} {selection : List String}
    {read reread : String → Option Bytes} (h : R.Exact selection read reread) :
    ¬ Overlapping selection := by
  rintro ⟨p, hp, hinside⟩
  obtain ⟨a, ha⟩ := (h.paths p).mpr hp
  rcases hinside with hnone | ⟨q, hq, hne, hwithin⟩
  · obtain ⟨parts, hparts, rfl⟩ := RestoredDir.mem_files.mp ha
    obtain ⟨hnonempty, hnames⟩ := R.data.named _ hparts
    rw [RestoredDir.partsOf_itemPath hnames] at hnone
    exact hnonempty hnone
  · obtain ⟨b, hb⟩ := (h.paths q).mpr hq
    exact RestoredDir.not_inside ha hb hne hwithin

section Construct

variable {selection : List String}

/-- The directories on the way to a path. -/
def directoriesOn (path : String) : List (List String) :=
  (partsOf path).inits.filter fun parts => parts ≠ [] ∧ parts ≠ partsOf path

theorem mem_directoriesOn {path : String} {parts : List String} :
    parts ∈ directoriesOn path ↔
      ∃ rest, partsOf path = parts ++ rest ∧ parts ≠ [] ∧ rest ≠ [] := by
  unfold directoriesOn
  rw [List.mem_filter, List.mem_inits, decide_eq_true_eq]
  constructor
  · rintro ⟨⟨rest, hrest⟩, hne, hproper⟩
    refine ⟨rest, hrest.symm, hne, ?_⟩
    rintro rfl
    rw [List.append_nil] at hrest
    exact hproper hrest
  · rintro ⟨rest, hrest, hne, hproper⟩
    refine ⟨⟨rest, hrest.symm⟩, hne, fun hsame => ?_⟩
    rw [← hsame] at hrest
    exact hproper (List.self_eq_append_right.mp hrest)

/-- A data directory with an empty file at each path of a selection. -/
def emptyFiles (selection : List String) (hclean : ∀ p ∈ selection, CleanPath p)
    (hnodup : selection.Nodup) (hfree : ¬ Overlapping selection) : RestoredDir where
  items := (selection.map fun p => (partsOf p, DataNode.file [])) ++
    (selection.flatMap directoriesOn).dedup.map fun parts => (parts, DataNode.directory)
  distinct := by
    rw [List.map_append, List.map_map, List.map_map]
    refine List.nodup_append.mpr ⟨?_, ?_, fun a ha b hb => ?_⟩
    · exact hnodup.map_on fun p hp q hq => partsOf_inj (hclean p hp) (hclean q hq)
    · exact (List.nodup_dedup _).map fun _ _ h => h
    · rintro rfl
      obtain ⟨q, hq, rfl⟩ := List.mem_map.mp ha
      obtain ⟨parts, hparts, heq⟩ := List.mem_map.mp hb
      obtain ⟨p, hp, hon⟩ := List.mem_flatMap.mp (List.mem_dedup.mp hparts)
      obtain ⟨rest, hrest, -, hproper⟩ := mem_directoriesOn.mp hon
      have hsame : parts = partsOf q := heq
      rw [hsame] at hrest
      refine hfree ⟨q, hq, .inr ⟨p, hp, fun hpq => ?_, ⟨rest, hrest.symm⟩⟩⟩
      rw [hpq] at hrest
      exact hproper (List.self_eq_append_right.mp hrest)
  named item hitem := by
    rcases List.mem_append.mp hitem with hfile | hdirectory
    · obtain ⟨p, hp, rfl⟩ := List.mem_map.mp hfile
      exact ⟨fun hnone => hfree ⟨p, hp, .inl hnone⟩, (hclean p hp).names⟩
    · obtain ⟨parts, hparts, rfl⟩ := List.mem_map.mp hdirectory
      obtain ⟨p, hp, hon⟩ := List.mem_flatMap.mp (List.mem_dedup.mp hparts)
      obtain ⟨rest, hrest, hne, -⟩ := mem_directoriesOn.mp hon
      exact ⟨hne, fun n hn => (hclean p hp).names n (hrest ▸ List.mem_append_left _ hn)⟩
  closed item hitem parts rest hsplit hne hproper := by
    refine List.mem_append_right _ (List.mem_map.mpr ⟨parts, List.mem_dedup.mpr ?_, rfl⟩)
    rcases List.mem_append.mp hitem with hfile | hdirectory
    · obtain ⟨p, hp, rfl⟩ := List.mem_map.mp hfile
      exact List.mem_flatMap.mpr ⟨p, hp, mem_directoriesOn.mpr ⟨rest, hsplit, hne, hproper⟩⟩
    · obtain ⟨inner, hinner, rfl⟩ := List.mem_map.mp hdirectory
      obtain ⟨p, hp, hon⟩ := List.mem_flatMap.mp (List.mem_dedup.mp hinner)
      obtain ⟨more, hmore, -, -⟩ := mem_directoriesOn.mp hon
      have hsplit : inner = parts ++ rest := hsplit
      refine List.mem_flatMap.mpr ⟨p, hp, mem_directoriesOn.mpr ⟨rest ++ more, ?_, hne, ?_⟩⟩
      · rw [hmore, hsplit, List.append_assoc]
      · exact List.append_ne_nil_of_left_ne_nil hproper _

variable {hclean : ∀ p ∈ selection, CleanPath p} {hnodup : selection.Nodup}
  {hfree : ¬ Overlapping selection}

theorem files_emptyFiles :
    (emptyFiles selection hclean hnodup hfree).files = selection.map fun p => (p, []) := by
  unfold RestoredDir.files emptyFiles
  dsimp only
  have hdirectories : ∀ parts : List (List String),
      (parts.map fun parts => (parts, DataNode.directory)).filterMap fileOf = [] := by
    intro parts
    rw [List.filterMap_map]
    exact List.filterMap_eq_nil_iff.mpr fun _ _ => rfl
  rw [List.filterMap_append, hdirectories, List.append_nil, List.filterMap_map,
    ← List.filterMap_eq_map]
  refine List.filterMap_congr fun p hp => ?_
  show some (itemPath (partsOf p), ([] : Bytes)) = some (p, [])
  unfold itemPath
  rw [← (hclean p hp).text]

theorem hasLink_emptyFiles : (emptyFiles selection hclean hnodup hfree).hasLink = false := by
  unfold RestoredDir.hasLink
  rw [List.any_eq_false]
  intro item hitem
  rcases List.mem_append.mp hitem with hfile | hdirectory
  · obtain ⟨p, -, rfl⟩ := List.mem_map.mp hfile
    exact Bool.false_ne_true
  · obtain ⟨parts, -, rfl⟩ := List.mem_map.mp hdirectory
    exact Bool.false_ne_true

end Construct

/-! ### A verified recovery -/

section Run

variable (H : Digests) {selection : List String}

/-- The row of an empty file. -/
def emptyRow (path : String) : Dict :=
  [("Path", .str path), ("Size", .int 0), ("IsDir", .bool false),
    ("Hashes", .dict [("sha256", .str (H.digest "sha256" []))])]

def emptyEntry : ManifestEntry := ⟨0, some "sha256", some (H.digest "sha256" [])⟩

/-- The recovery of empty files, in which each step succeeds. -/
def emptyRun (paths selection : List String) (data : RestoredDir) : RecoveryRun where
  paths := paths
  maxTotalMb := 1
  started := .ok ()
  prepared := .ok ()
  historical := none
  listing := .ok ⟨0, jsonDumps plainJson
    (.list ((selection.map (emptyRow H)).map Value.dict))⟩
  checksums := .ok ⟨1, ""⟩
  admitted := .ok ()
  copied := .ok 0
  data := data
  walked := .ok ()
  checked := .ok 0

theorem hashName_sha256 : hashName "sha256" = "sha256" := by decide +kernel

theorem emptyRow_true {path : String} (hne : path ≠ "") : RowTrue H path [] (emptyRow H path) where
  dir := rfl
  named := rfl
  nonempty := hne
  size := rfl
  hashes := by
    refine ⟨_, rfl, fun e he => ?_⟩
    obtain rfl := List.mem_singleton.mp he
    refine ⟨_, rfl, fun _ _ => ?_⟩
    rw [hashName_sha256]
    exact H.lower_digest _ _

theorem readHashes_emptyRow (path : String) :
    readHashes (Dict.get (emptyRow H path) "Hashes") =
      .ok [("sha256", .str (H.digest "sha256" []))] := by
  have hne : H.digest "sha256" [] ≠ "" := by
    intro hblank
    have hlength := H.sha256_length []
    rw [hblank] at hlength
    exact absurd hlength (by decide)
  have hhashes : pyOr (Dict.get (emptyRow H path) "Hashes") (.dict []) =
      .dict [("sha256", .str (H.digest "sha256" []))] := rfl
  have htruthy : truthy (.str (H.digest "sha256" [])) = true := by
    unfold truthy
    exact decide_eq_true hne
  unfold readHashes
  rw [hhashes]
  dsimp only [List.foldl_cons, List.foldl_nil]
  rw [if_pos htruthy, hashName_sha256, pyStr, H.lower_digest]
  rfl

/-- The loop over the listing takes up each row. -/
theorem readRows_emptyRow {rest : List String} (hnames : ∀ p ∈ rest, p ≠ "" ∧ p ∈ selection)
    (hnodup : rest.Nodup) {m : RestoreManifest} (hnew : ∀ p ∈ rest, p ∉ m.paths) :
    ((rest.map (emptyRow H)).map Value.dict).foldlM (readRow selection) m =
      .ok (m ++ rest.map fun p => (p, emptyEntry H)) := by
  induction rest generalizing m with
  | nil =>
    rw [List.map_nil, List.map_nil, List.map_nil, List.append_nil]
    rfl
  | cons p rest ih =>
    obtain ⟨hne, hmem⟩ := hnames p List.mem_cons_self
    obtain ⟨hfresh, hnodup⟩ := List.nodup_cons.mp hnodup
    rw [List.map_cons, List.map_cons, List.foldlM_cons,
      readRow_true (emptyRow_true H hne) (readHashes_emptyRow H p),
      if_neg (not_or.mpr ⟨not_not.mpr hmem, hnew p List.mem_cons_self⟩)]
    have hrest := fun q hq => hnames q (List.mem_cons_of_mem p hq)
    refine (ih hrest hnodup fun q hq hold => ?_).trans ?_
    · unfold RestoreManifest.paths at hold
      rw [List.map_append] at hold
      rcases List.mem_append.mp hold with hold | hold
      · exact hnew q (List.mem_cons_of_mem _ hq) hold
      · obtain rfl := List.mem_singleton.mp hold
        exact hfresh hq
    · rw [List.append_assoc]
      rfl

theorem emptyRows_listed :
    jsonLoads (jsonDumps plainJson (.list ((selection.map (emptyRow H)).map Value.dict))) =
      some (.list ((selection.map (emptyRow H)).map Value.dict)) := by
  apply jsonLoads_jsonDumps
  rw [Value.wellFormed, wellFormedItems_iff]
  intro v hv
  obtain ⟨d, hd, rfl⟩ := List.mem_map.mp hv
  obtain ⟨p, -, rfl⟩ := List.mem_map.mp hd
  rfl

/-- **The manifest of empty files.** -/
theorem manifest_emptyRun {paths : List String} {data : RestoredDir}
    (hne : ∀ p ∈ selection, p ≠ "") (hnodup : selection.Nodup) :
    (emptyRun H paths selection data).manifest selection =
      .ok (selection.map fun p => (p, emptyEntry H)) := by
  have hpaths : RestoreManifest.paths (selection.map fun p => (p, emptyEntry H)) = selection := by
    unfold RestoreManifest.paths
    rw [List.map_map]
    exact List.map_id selection
  have hsum : ((selection.map fun p => (p, emptyEntry H)).map fun e => e.2.bytes).sum = 0 := by
    rw [List.map_map]
    simp [Function.comp_def, emptyEntry]
  have hlisted : listedManifest selection (recoveryLimit 1) ⟨0, jsonDumps plainJson
      (.list ((selection.map (emptyRow H)).map Value.dict))⟩ =
      .ok (selection.map fun p => (p, emptyEntry H)) := by
    have hread := readRows_emptyRow H (fun p hp => ⟨hne p hp, hp⟩) hnodup
      (m := []) fun p _ => List.not_mem_nil
    unfold listedManifest
    rw [if_neg (not_not.mpr rfl), listedRows_true (emptyRows_listed H)]
    dsimp only [bind, Except.bind, asList]
    rw [if_neg (not_not.mpr (by rw [List.length_map, List.length_map])), hread]
    dsimp only
    rw [List.nil_append, hpaths, sameElements_self, if_neg Bool.true_eq_false_eq_False, hsum,
      if_neg (by decide)]
  have hchecked : ((selection.map fun p => (p, emptyEntry H)).any fun e =>
      e.2.algorithm.isNone) = false := by
    rw [List.any_map, List.any_eq_false]
    exact fun p _ => Bool.false_ne_true
  unfold RecoveryRun.manifest expectedManifest emptyRun
  dsimp only [bind, Except.bind]
  rw [hlisted]
  dsimp only
  rw [if_neg (Bool.eq_false_iff.mp hchecked)]

/-- What is found is what the manifest of empty files expects. -/
theorem verify_emptyFiles {data : RestoredDir} (hnodup : selection.Nodup)
    (hlink : data.hasLink = false) (hfiles : data.files = selection.map fun p => (p, [])) :
    verifyManifest H.digest data (selection.map fun p => (p, emptyEntry H)) = .ok () := by
  have hfound : data.files.map Prod.fst = selection := by
    rw [hfiles, List.map_map]
    exact List.map_id selection
  have hexpected : RestoreManifest.paths (selection.map fun p => (p, emptyEntry H)) =
      selection := by
    unfold RestoreManifest.paths
    rw [List.map_map]
    exact List.map_id selection
  unfold verifyManifest
  rw [hlink, if_neg Bool.false_ne_true, hfound, hexpected, sameElements_self,
    if_neg Bool.true_eq_false_eq_False, forM_ok_iff]
  intro e he
  obtain ⟨p, hp, rfl⟩ := List.mem_map.mp he
  have hlookup : data.files.lookup p = some [] := by
    rw [hfiles]
    refine lookup_of_mem ?_ (List.mem_map_of_mem hp)
    rw [List.map_map]
    exact (List.map_id selection).symm ▸ hnodup
  simp [verifyEntry, hlookup, emptyEntry]

/-- The recovery of empty files is verified. -/
theorem runSelectiveRestore_emptyRun {paths : List String} {data : RestoredDir}
    (hnormal : normalizeSelection paths = .ok selection) (hne : ∀ p ∈ selection, p ≠ "")
    (hlink : data.hasLink = false) (hfiles : data.files = selection.map fun p => (p, [])) :
    (runSelectiveRestore H (emptyRun H paths selection data)).verified = true := by
  obtain ⟨-, hnodup, -⟩ := normalizeSelection_spec hnormal
  have hattempt : (emptyRun H paths selection data).attempt H =
      .ok (selection.map fun p => (p, emptyEntry H)) := by
    unfold RecoveryRun.attempt
    refine bind_ok.mpr ⟨(), rfl, bind_ok.mpr ⟨selection, ?_, bind_ok.mpr ⟨(), rfl, ?_⟩⟩⟩
    · exact congrArg (Except.mapError RecoveryFailure.failed) hnormal
    · refine bind_ok.mpr ⟨_, manifest_emptyRun H hne hnodup, bind_ok.mpr ⟨(), rfl, ?_⟩⟩
      refine bind_ok.mpr ⟨0, rfl, ?_⟩
      rw [if_neg (not_not.mpr rfl)]
      refine bind_ok.mpr ⟨(), rfl, bind_ok.mpr ⟨(), verify_emptyFiles H hnodup hlink hfiles, ?_⟩⟩
      exact bind_ok.mpr ⟨0, rfl, if_neg (not_not.mpr rfl)⟩
  unfold runSelectiveRestore
  rw [hattempt]

/-- rclone tells the truth about a target in which each file of the selection is empty. -/
theorem rcloneTrue_emptyRun {paths : List String} {data : RestoredDir}
    {read : String → Option Bytes} (hnormal : normalizeSelection paths = .ok selection)
    (hne : ∀ p ∈ selection, p ≠ "") (hread : ∀ p ∈ selection, read p = some [])
    (hfiles : data.files = selection.map fun p => (p, [])) :
    RcloneTrue H (emptyRun H paths selection data) read read where
  listing found hfound o ho _ := by
    obtain rfl := Except.ok.inj (hfound.symm.trans hnormal)
    obtain rfl := Except.ok.inj ho
    obtain ⟨hsome, -, hclean⟩ := normalizeSelection_spec hnormal
    rw [readFilesFrom_listing hsome hclean]
    refine ⟨_, emptyRows_listed H, fun d hd => ?_⟩
    obtain ⟨p, hp, rfl⟩ := List.mem_map.mp hd
    exact ⟨p, [], emptyRow_true H (hne p hp), hp, hread p hp⟩
  checksums _ _ o ho hcode := by
    obtain rfl := Except.ok.inj ho
    exact absurd hcode (by decide)
  historical _ h := by cases h
  collisions path found bytes key hfound htaken _ := by
    have hfound : (path, found) ∈ data.files := hfound
    rw [hfiles] at hfound
    obtain ⟨p, hp, heq⟩ := List.mem_map.mp hfound
    obtain ⟨rfl, rfl⟩ := Prod.mk.inj heq
    rw [or_self, hread p hp] at htaken
    exact Option.some.inj htaken

end Run

/-- **A verified recovery has exactly the chosen files if and only if what is looked for is what
was chosen.** -/
theorem exact_iff_restorable (H : Digests) (choice : Choice) :
    (∀ (R : RecoveryRun) (read reread : String → Option Bytes), RcloneTrue H R read reread →
      R.paths = choice.paths → (runSelectiveRestore H R).verified = true →
        R.Exact choice.paths read reread) ↔ Restorable choice.paths := by
  constructor
  · intro hexact selection hnormal
    by_contra hnot
    obtain ⟨hother, hfree⟩ := not_or.mp hnot
    obtain ⟨-, hnodup, hclean⟩ := normalizeSelection_spec hnormal
    have hne : ∀ p ∈ selection, p ≠ "" := by
      rintro p hp rfl
      exact hfree ⟨"", hp, .inl (by decide)⟩
    have hfiles := @files_emptyFiles selection hclean hnodup hfree
    have hlink := @hasLink_emptyFiles selection hclean hnodup hfree
    generalize emptyFiles selection hclean hnodup hfree = data at hfiles hlink
    obtain ⟨-, hpaths, -, -⟩ := hexact (emptyRun H choice.paths selection data) _ _
      (@rcloneTrue_emptyRun H _ _ _ (fun _ => some []) hnormal hne (fun _ _ => rfl) hfiles) rfl
      (runSelectiveRestore_emptyRun H hnormal hne hlink hfiles)
    -- the data directory has the paths of the selection
    refine hother fun p => Iff.trans ?_ (hpaths p)
    rw [show (emptyRun H choice.paths selection data).data = data from rfl, hfiles]
    constructor
    · exact fun hp => ⟨[], List.mem_map_of_mem hp⟩
    · rintro ⟨bytes, hfile⟩
      obtain ⟨q, hq, heq⟩ := List.mem_map.mp hfile
      exact (Prod.mk.inj heq).1 ▸ hq
  · intro hrestorable R read reread htrue hpaths hverified
    obtain ⟨selection, hnormal, hexact⟩ := verified_spec htrue hverified
    rw [hpaths] at hnormal
    obtain ⟨hlink, hfound, honce, hbytes⟩ := hexact
    rcases hrestorable selection hnormal with hsame | hoverlap
    · exact ⟨hlink, fun p => (hfound p).trans (hsame p), honce, hbytes⟩
    · exact absurd hoverlap (not_overlapping ⟨hlink, hfound, honce, hbytes⟩)

/-! ### The other file -/

/-- The SHA-256 of an empty file; no other checksum plays a part below. -/
def knownDigest (bytes : Bytes) : String :=
  if bytes = [] then "e3b0c44298fc1c149afbf4c8996fb92427ae41e4649b934ca495991b7852b855"
  else String.ofList (List.replicate 64 '0')

def knownDigests : Digests where
  digest _ := knownDigest
  hex _ bytes := by
    unfold knownDigest
    split_ifs
    · decide
    · rw [String.toList_ofList]
      rfl
  sha256_length bytes := by
    unfold knownDigest
    split_ifs
    · rfl
    · rw [String.length_ofList, List.length_replicate]

/-- A target whose root has two files, one with a blank before its name. -/
def reportTree : BrowseTree where
  opening parts := if parts = [] then .opened [" report.txt", "report.txt"] else .missing
  node parts :=
    if parts = [" report.txt"] then .file 1
    else if parts = ["report.txt"] then .file 0
    else .unknown

def reportRead (path : String) : Option Bytes :=
  if path = " report.txt" then some [97] else if path = "report.txt" then some [] else none

def reportChoice : Choice where
  tree := reportTree
  paths := [" report.txt"]
  few := by decide
  listed p hp := by
    obtain rfl := List.mem_singleton.mp hp
    refine ⟨"", _, _, rfl, ⟨" report.txt", " report.txt", false, some 1⟩, ?_, rfl, rfl⟩
    rw [List.take_of_length_le]
    · exact List.mem_mergeSort.mpr List.mem_cons_self
    · rw [List.length_mergeSort]
      decide

/-- The data directory with the file without the blank. -/
def reportData : RestoredDir where
  items := [(["report.txt"], .file [])]
  distinct := List.nodup_singleton _
  named item hitem := by
    obtain rfl := List.mem_singleton.mp hitem
    refine ⟨List.cons_ne_nil _ _, fun n hn => ?_⟩
    obtain rfl := List.mem_singleton.mp hn
    exact ⟨by decide, by decide, by decide, by decide⟩
  closed item hitem parts rest hsplit hne hproper := by
    obtain rfl := List.mem_singleton.mp hitem
    have hlength := congrArg List.length hsplit
    rw [List.length_append, List.length_singleton] at hlength
    have hleft := List.length_pos_iff.mpr hne
    have hright := List.length_pos_iff.mpr hproper
    omega

def reportRun : RecoveryRun := emptyRun knownDigests [" report.txt"] ["report.txt"] reportData

/-- The file of another path is restored and verified. -/
theorem report_replaced :
    RcloneTrue knownDigests reportRun reportRead reportRead ∧
      reportRun.paths = reportChoice.paths ∧
      (runSelectiveRestore knownDigests reportRun).verified = true ∧
      reportRun.data.files = [("report.txt", [])] ∧
      ¬ reportRun.Exact reportChoice.paths reportRead reportRead := by
  have hnormal : normalizeSelection [" report.txt"] = .ok ["report.txt"] := by decide +kernel
  have hne : ∀ p ∈ ["report.txt"], p ≠ "" := by decide
  refine ⟨rcloneTrue_emptyRun _ hnormal hne (by decide) rfl, rfl,
    runSelectiveRestore_emptyRun _ hnormal hne rfl rfl, rfl, fun hexact => ?_⟩
  obtain ⟨bytes, hfile⟩ := (hexact.paths " report.txt").mpr (List.mem_singleton.mpr rfl)
  have hother := List.mem_singleton.mp hfile
  exact absurd (Prod.mk.inj hother).1 (by decide)

end RcloneSync
