/-
RcloneSync/RestoreManifest.lean

What a recovery expects of its files and what it finds (`_expected_manifest`,
`_verify_manifest`).

The manifest has a size and a checksum for each path of the selection.  They are read from the
listing of rclone, or from its checksum text where the listing has no known checksum.  If rclone
tells the truth, so does the manifest (`expectedManifest_true`), and a directory that passes the
check has the files of the manifest and no others (`verifyManifest_spec`).
-/
import RcloneSync.JsonRoundTrip
import RcloneSync.RestoreSelection
import RcloneSync.VaultUpload

namespace RcloneSync

open Py

/-! ### The manifest -/

/-- Why a recovery ends without success. -/
inductive RecoveryFailure
  | cancelled
  | failed (e : PyError)

def recoveryError (message : String) : RecoveryFailure := .failed (.runtime message)

structure ManifestEntry where
  bytes : Int
  algorithm : Option String
  checksum : Option String

abbrev RestoreManifest := List (String × ManifestEntry)

def RestoreManifest.paths (m : RestoreManifest) : List String := m.map Prod.fst

/-- What a command of rclone writes. -/
structure CommandOutput where
  returncode : Int
  stdout : String

/-! ### `_expected_manifest` -/

/-- `str(key).lower().replace("-", "")`. -/
def hashName (key : String) : String := replace "-" "" (lower key)

/-- `hashes`. -/
def readHashes (v : Value) : Except RecoveryFailure Dict :=
  match pyOr v (.dict []) with
  | .dict entries => .ok (entries.foldl (fun hashes e =>
      if truthy e.2 then Dict.set hashes (hashName e.1) (.str (lower (pyStr e.2))) else hashes) [])
  | _ => .error (.failed (.attribute "object has no attribute 'items'"))

/-- `algorithm`. -/
def algorithmOf (hashes : Dict) : Option String :=
  ["sha256", "sha1", "md5"].find? fun key => Dict.has hashes key

/-- The entry of a row. -/
def rowEntry (size : Int) (hashes : Dict) : ManifestEntry where
  bytes := size
  algorithm := algorithmOf hashes
  checksum := (algorithmOf hashes).map fun key => pyStr (Dict.get hashes key)

/-- A pass of the loop over the listing. -/
def readRow (selection : List String) (m : RestoreManifest) (row : Value) :
    Except RecoveryFailure RestoreManifest :=
  match asDict row with
  | none => .error (recoveryError "Recovery-Auswahl muss aus einzelnen Dateien bestehen")
  | some d =>
    if truthy (Dict.get d "IsDir") = true then
      .error (recoveryError "Recovery-Auswahl muss aus einzelnen Dateien bestehen")
    else
      let path := Dict.textOr d "Path" ""
      if path ∉ selection ∨ path ∈ m.paths then
        .error (recoveryError "Sicherungsziel liefert unerwartete oder doppelte Dateipfade")
      else do
        let size ← (pyInt (Dict.getOr d "Size" (.int (-1)))).mapError .failed
        if size < 0 then
          .error (recoveryError "Die Dateigröße konnte nicht verlässlich ermittelt werden")
        else
          let hashes ← readHashes (Dict.get d "Hashes")
          .ok (m ++ [(path, rowEntry size hashes)])

/-- `text.partition(separator)`, where the separator is there. -/
def partitionChars (separator : List Char) : List Char → List Char → Option (List Char × List Char)
  | before, [] => if separator = [] then some (before.reverse, []) else none
  | before, c :: rest =>
    if separator.isPrefixOf (c :: rest) then
      some (before.reverse, (c :: rest).drop separator.length)
    else partitionChars separator (c :: before) rest

def isHexDigit (c : Char) : Bool := "0123456789abcdefABCDEF".toList.contains c

/-- `manifest[path].update(algorithm="sha256", checksum=digest)`. -/
def RestoreManifest.setChecksum (m : RestoreManifest) (path digest : String) : RestoreManifest :=
  m.map fun e =>
    if e.1 = path then (e.1, { e.2 with algorithm := some "sha256", checksum := some digest })
    else e

/-- A pass of the loop over the checksum text, and the paths seen so far. -/
def readChecksum (state : RestoreManifest × List String) (line : String) :
    Except RecoveryFailure (RestoreManifest × List String) :=
  match partitionChars [' ', ' '] [] line.toList with
  | none => .error (recoveryError "Sicherungsziel liefert kein vollständiges Prüfsummenmanifest")
  | some (digest, path) =>
    let path := String.ofList path
    if digest.length ≠ 64 ∨ digest.any (fun c => !isHexDigit c) = true ∨
        path ∉ state.1.paths ∨ path ∈ state.2 then
      .error (recoveryError "Sicherungsziel liefert kein vollständiges Prüfsummenmanifest")
    else .ok (state.1.setChecksum path (lower (String.ofList digest)), state.2 ++ [path])

def incompleteSelection : RecoveryFailure :=
  recoveryError "Auswahl unvollständig: ausgewählte Dateien fehlen am Sicherungsziel"

/-- `set(a) == set(b)`. -/
def sameElements (a b : List String) : Bool :=
  a.all (fun p => b.contains p) && b.all (fun p => a.contains p)

/-- `json.loads(text or "[]")`. -/
def listedRows (text : String) : Except RecoveryFailure Value :=
  match jsonLoads (if text = "" then "[]" else text) with
  | none => .error (.failed (.value "Expecting value"))
  | some v => .ok v

/-- What the listing says. -/
def listedManifest (selection : List String) (limitBytes : Int) (listing : CommandOutput) :
    Except RecoveryFailure RestoreManifest :=
  if listing.returncode ≠ 0 then
    .error (recoveryError "Auswahl konnte am Sicherungsziel nicht vollständig erfasst werden")
  else do
    match asList (← listedRows listing.stdout) with
    | none => .error incompleteSelection
    | some rows =>
      if rows.length ≠ selection.length then .error incompleteSelection
      else
        let m ← rows.foldlM (readRow selection) []
        if sameElements m.paths selection = false then .error incompleteSelection
        else if limitBytes < (m.map fun e => e.2.bytes).sum then
          .error (recoveryError "Die Auswahl überschreitet das bestätigte Recovery-Limit")
        else .ok m

/-- The checksums that are read where the listing has none. -/
def withChecksums (m : RestoreManifest) (checksums : CommandOutput) :
    Except RecoveryFailure RestoreManifest :=
  if checksums.returncode ≠ 0 then
    .error (recoveryError "Erwartete Prüfsummen konnten nicht vollständig gelesen werden")
  else do
    let state ← (splitLines checksums.stdout).foldlM readChecksum (m, [])
    if sameElements state.2 state.1.paths = false then
      .error (recoveryError "Prüfsummenmanifest unvollständig: ausgewählte Dateien fehlen")
    else .ok state.1

/-- `_expected_manifest`, for what the two commands give. -/
def expectedManifest (selection : List String) (limitBytes : Int)
    (listing checksums : Except RecoveryFailure CommandOutput) :
    Except RecoveryFailure RestoreManifest := do
  let m ← listedManifest selection limitBytes (← listing)
  if m.any (fun e => e.2.algorithm.isNone) = true then withChecksums m (← checksums)
  else .ok m

/-! ### `_verify_manifest` -/

/-- What is found in the data directory. -/
inductive DataNode
  | directory
  | file (bytes : Bytes)
  | link
  | special

/-- The data directory: each item by the names on its way, whose directories are items too. -/
structure RestoredDir where
  items : List (List String × DataNode)
  distinct : (items.map Prod.fst).Nodup
  named : ∀ item ∈ items, item.1 ≠ [] ∧ ∀ n ∈ item.1, IsName n
  closed : ∀ item ∈ items, ∀ parts rest, item.1 = parts ++ rest → parts ≠ [] → rest ≠ [] →
    (parts, DataNode.directory) ∈ items

/-- `relative_to(data).as_posix()`. -/
def itemPath (parts : List String) : String := (PosixPath.mk "" parts).text

/-- A regular file, by its path. -/
def fileOf (item : List String × DataNode) : Option (String × Bytes) :=
  match item.2 with
  | .file bytes => some (itemPath item.1, bytes)
  | .directory | .link | .special => none

/-- `actual`. -/
def RestoredDir.files (data : RestoredDir) : List (String × Bytes) := data.items.filterMap fileOf

def RestoredDir.hasLink (data : RestoredDir) : Bool :=
  data.items.any fun item =>
    match item.2 with
    | .link => true
    | .directory | .file _ | .special => false

/-- The check of a file against its entry; `digest` is the checksum of an algorithm. -/
def verifyEntry (digest : String → Bytes → String) (files : List (String × Bytes))
    (e : String × ManifestEntry) : Except RecoveryFailure Unit :=
  match files.lookup e.1 with
  | none => .error (.failed (.index e.1))
  | some bytes =>
    if (bytes.length : Int) ≠ e.2.bytes then
      .error (recoveryError "Recovery-Dateigröße stimmt nicht mit dem erwarteten Stand überein")
    else
      match e.2.algorithm with
      | none => .error (.failed (.value "unsupported hash type None"))
      | some key =>
        if some (digest key bytes) ≠ e.2.checksum then
          .error (recoveryError
            "Recovery-Prüfsumme stimmt nicht mit dem erwarteten Stand überein")
        else .ok ()

/-- `_verify_manifest`. -/
def verifyManifest (digest : String → Bytes → String) (data : RestoredDir) (m : RestoreManifest) :
    Except RecoveryFailure Unit :=
  if data.hasLink = true then
    .error (recoveryError "Recovery enthält einen nicht erlaubten symbolischen Link")
  else if sameElements (data.files.map Prod.fst) m.paths = false then
    .error (recoveryError
      "Recovery unvollständig: zurückgeholte Pfade entsprechen nicht der Auswahl")
  else m.forM (verifyEntry digest data.files)

/-! ### What rclone says is true -/

/-- A checksum is a text of hexadecimal digits. -/
structure Digests where
  digest : String → Bytes → String
  hex : ∀ key bytes,
    (digest key bytes).toList.all (fun c => "0123456789abcdef".toList.contains c) = true
  sha256_length : ∀ bytes, (digest "sha256" bytes).length = 64

/-- A row of the listing that tells the truth about a file. -/
structure RowTrue (H : Digests) (path : String) (bytes : Bytes) (d : Dict) : Prop where
  dir : Dict.get d "IsDir" = .bool false
  named : Dict.get d "Path" = .str path
  nonempty : path ≠ ""
  size : Dict.getOr d "Size" (.int (-1)) = .int bytes.length
  hashes : ∃ entries, pyOr (Dict.get d "Hashes") (.dict []) = .dict entries ∧
    ∀ e ∈ entries, ∃ text, e.2 = .str text ∧
      (hashName e.1 ∈ ["sha256", "sha1", "md5"] → text ≠ "" →
        lower text = H.digest (hashName e.1) bytes)

/-- A line of the checksum text. -/
def checksumLine (H : Digests) (file : String × Bytes) : String :=
  H.digest "sha256" file.2 ++ "  " ++ file.1

/-- An entry of the manifest that tells the truth: its checksum is the one of the file. -/
def EntryTrue (H : Digests) (read : String → Bytes → Prop) (e : String × ManifestEntry) : Prop :=
  ∀ key, e.2.algorithm = some key →
    ∃ bytes, read e.1 bytes ∧ e.2.checksum = some (H.digest key bytes)

section Listing

variable {H : Digests} {selection : List String}

theorem foldl_hashes {bytes : Bytes} {entries : Dict}
    (htrue : ∀ e ∈ entries, ∃ text, e.2 = .str text ∧
      (hashName e.1 ∈ ["sha256", "sha1", "md5"] → text ≠ "" →
        lower text = H.digest (hashName e.1) bytes)) {hashes : Dict} {key : String}
    (hkey : key ∈ ["sha256", "sha1", "md5"])
    (hbefore : Dict.has hashes key = true → Dict.get hashes key = .str (H.digest key bytes)) :
    Dict.has (entries.foldl (fun hashes e =>
        if truthy e.2 then Dict.set hashes (hashName e.1) (.str (lower (pyStr e.2)))
        else hashes) hashes) key = true →
      Dict.get (entries.foldl (fun hashes e =>
        if truthy e.2 then Dict.set hashes (hashName e.1) (.str (lower (pyStr e.2)))
        else hashes) hashes) key = .str (H.digest key bytes) := by
  induction entries generalizing hashes with
  | nil => exact hbefore
  | cons e entries ih =>
    rw [List.foldl_cons]
    refine ih (fun e' he' => htrue e' (List.mem_cons_of_mem _ he')) ?_
    obtain ⟨text, htext, hsum⟩ := htrue e List.mem_cons_self
    split_ifs with htruthy
    · rw [htext] at htruthy ⊢
      by_cases hsame : key = hashName e.1
      · intro
        rw [hsame, Dict.get_set_self]
        have hne : text ≠ "" := by simpa [truthy] using htruthy
        exact congrArg Value.str (hsum (hsame ▸ hkey) hne)
      · rw [Dict.get_set_ne _ _ hsame]
        intro hhas
        refine hbefore ?_
        unfold Dict.has at hhas ⊢
        rwa [Dict.lookup_set, if_neg hsame] at hhas
    · exact hbefore

/-- The checksum of a true row is that of the file. -/
theorem readHashes_true {path : String} {bytes : Bytes} {d : Dict} (h : RowTrue H path bytes d) :
    ∃ hashes, readHashes (Dict.get d "Hashes") = .ok hashes ∧
      ∀ key ∈ ["sha256", "sha1", "md5"], Dict.has hashes key = true →
        Dict.get hashes key = .str (H.digest key bytes) := by
  obtain ⟨entries, hentries, htrue⟩ := h.hashes
  refine ⟨_, by unfold readHashes; rw [hentries], fun key hkey => ?_⟩
  exact foldl_hashes htrue hkey (fun hhas => absurd hhas (by simp [Dict.has]))

theorem rowEntry_true {bytes : Bytes} {hashes : Dict}
    (htrue : ∀ key ∈ ["sha256", "sha1", "md5"], Dict.has hashes key = true →
      Dict.get hashes key = .str (H.digest key bytes)) (size : Int) (key : String)
    (h : (rowEntry size hashes).algorithm = some key) :
    (rowEntry size hashes).checksum = some (H.digest key bytes) := by
  have halgorithm : algorithmOf hashes = some key := h
  have hhas : Dict.has hashes key = true := List.find?_some halgorithm
  have hmem : key ∈ ["sha256", "sha1", "md5"] := List.mem_of_find?_eq_some halgorithm
  unfold rowEntry
  dsimp only
  rw [halgorithm, Option.map_some, htrue key hmem hhas]
  rfl

/-- **A true row is added if it is one of the selection and comes once.** -/
theorem readRow_true {path : String} {bytes : Bytes} {d : Dict} (h : RowTrue H path bytes d)
    {hashes : Dict} (hhashes : readHashes (Dict.get d "Hashes") = .ok hashes)
    (m : RestoreManifest) :
    readRow selection m (.dict d) = if path ∉ selection ∨ path ∈ m.paths then
        .error (recoveryError "Sicherungsziel liefert unerwartete oder doppelte Dateipfade")
      else .ok (m ++ [(path, rowEntry bytes.length hashes)]) := by
  have hpath : Dict.textOr d "Path" "" = path := by
    unfold Dict.textOr
    rw [h.named, pyOr, if_pos (by simpa [truthy] using h.nonempty)]
    rfl
  unfold readRow
  dsimp only [asDict]
  rw [h.dir, hpath, h.size, hhashes]
  have hnonneg : ¬ ((bytes.length : Int) < 0) := by omega
  rw [if_neg (by simp [truthy])]
  split_ifs
  · rfl
  · have hsize : (pyInt (.int bytes.length)).mapError RecoveryFailure.failed =
        .ok (bytes.length : Int) := rfl
    rw [hsize]
    dsimp only [bind, Except.bind]
    rw [if_neg hnonneg]

end Listing

/-- What the listing writes is true of what is read. -/
def ListingTrue (H : Digests) (read : String → Bytes → Prop) (stdout : String) : Prop :=
  ∃ rows : List Dict, jsonLoads stdout = some (.list (rows.map Value.dict)) ∧
    ∀ d ∈ rows, ∃ path bytes, RowTrue H path bytes d ∧ read path bytes

/-- The lines of the checksum text are true of what is read again, and of the selection. -/
def ChecksumsTrue (H : Digests) (selection : List String) (reread : String → Bytes → Prop)
    (stdout : String) : Prop :=
  ∃ files : List (String × Bytes), stdout = join "" (files.map fun f => checksumLine H f ++ "\n") ∧
    ∀ f ∈ files, f.1 ∈ selection ∧ reread f.1 f.2

section Listing

variable {H : Digests} {selection : List String} {read reread : String → Bytes → Prop}
  {m m' : RestoreManifest}

theorem listedRows_true {stdout : String} {rows : List Dict}
    (h : jsonLoads stdout = some (.list (rows.map Value.dict))) :
    listedRows stdout = .ok (.list (rows.map Value.dict)) := by
  have hne : stdout ≠ "" := by
    rintro rfl
    have hnone : jsonLoads "" = none := by decide
    rw [hnone] at h
    cases h
  unfold listedRows
  rw [if_neg hne, h]

theorem readRows_true {rows : List Dict}
    (htrue : ∀ d ∈ rows, ∃ path bytes, RowTrue H path bytes d ∧ read path bytes)
    (hm : ∀ e ∈ m, EntryTrue H read e)
    (h : (rows.map Value.dict).foldlM (readRow selection) m = .ok m') :
    ∀ e ∈ m', EntryTrue H read e := by
  induction rows generalizing m with
  | nil =>
    obtain rfl := Except.ok.inj h
    exact hm
  | cons d rows ih =>
    rw [List.map_cons, List.foldlM_cons] at h
    obtain ⟨next, hnext, h⟩ := bind_ok.mp h
    obtain ⟨path, bytes, hrow, hread⟩ := htrue d List.mem_cons_self
    obtain ⟨hashes, hhashes, hsums⟩ := readHashes_true hrow
    rw [readRow_true hrow hhashes] at hnext
    split_ifs at hnext
    obtain rfl := Except.ok.inj hnext
    refine ih (fun d hd => htrue d (List.mem_cons_of_mem _ hd)) (fun e he => ?_) h
    rcases List.mem_append.mp he with he | he
    · exact hm e he
    · obtain rfl := List.mem_singleton.mp he
      exact fun key hkey => ⟨bytes, hread, rowEntry_true hsums _ key hkey⟩

theorem listedManifest_true {limitBytes : Int} {listing : CommandOutput}
    (htrue : listing.returncode = 0 → ListingTrue H read listing.stdout)
    (h : listedManifest selection limitBytes listing = .ok m) :
    (∀ e ∈ m, EntryTrue H read e) ∧ sameElements m.paths selection = true := by
  unfold listedManifest at h
  split_ifs at h with hcode
  obtain ⟨rows, hrows, hfiles⟩ := htrue (not_not.mp hcode)
  rw [listedRows_true hrows] at h
  dsimp only [bind, Except.bind, asList] at h
  split_ifs at h with hlength
  obtain ⟨read, hread, h⟩ := bind_ok.mp h
  split_ifs at h with hsame
  obtain rfl := Except.ok.inj h
  exact ⟨readRows_true hfiles (fun _ he => absurd he List.not_mem_nil) hread, by simpa using hsame⟩

theorem mem_of_sameElements {a b : List String} (h : sameElements a b = true) (p : String) :
    p ∈ a ↔ p ∈ b := by
  unfold sameElements at h
  simp only [Bool.and_eq_true, List.all_eq_true, List.contains_iff_mem] at h
  exact ⟨fun hp => h.1 p hp, fun hp => h.2 p hp⟩

theorem sameElements_self (xs : List String) : sameElements xs xs = true := by
  have hall : (xs.all fun p => xs.contains p) = true :=
    List.all_eq_true.mpr fun p hp => List.contains_iff_mem.mpr hp
  unfold sameElements
  rw [hall, Bool.and_true]

/-! ### The checksum text -/

theorem partitionChars_line {digest : List Char} (h : ' ' ∉ digest) (before rest : List Char) :
    partitionChars [' ', ' '] before (digest ++ ' ' :: ' ' :: rest) =
      some (before.reverse ++ digest, rest) := by
  induction digest generalizing before with
  | nil =>
    rw [List.nil_append, List.append_nil, partitionChars]
    rfl
  | cons c digest ih =>
    have hc : c ≠ ' ' := fun heq => h (heq ▸ List.mem_cons_self)
    have hwithin : [' ', ' '].isPrefixOf (c :: (digest ++ ' ' :: ' ' :: rest)) = false := by
      simp [List.isPrefixOf, hc.symm]
    rw [List.cons_append, partitionChars, if_neg (by simp [hwithin]),
      ih fun hmem => h (List.mem_cons_of_mem _ hmem), List.reverse_cons, List.append_assoc]
    rfl

theorem Digests.mem_hex (H : Digests) {key : String} {bytes : Bytes} {c : Char}
    (hc : c ∈ (H.digest key bytes).toList) : c ∈ "0123456789abcdef".toList :=
  List.contains_iff_mem.mp (List.all_eq_true.mp (H.hex key bytes) c hc)

theorem Digests.lower_digest (H : Digests) (key : String) (bytes : Bytes) :
    lower (H.digest key bytes) = H.digest key bytes := by
  have hsame : "0123456789abcdef".toList.all (fun c => lowerChar c = [c]) = true := by
    decide +kernel
  unfold lower
  have hflat : (H.digest key bytes).toList.flatMap lowerChar = (H.digest key bytes).toList := by
    have hmap : ∀ cs : List Char, (∀ c ∈ cs, lowerChar c = [c]) → cs.flatMap lowerChar = cs := by
      intro cs hcs
      induction cs with
      | nil => rfl
      | cons c cs ih =>
        rw [List.flatMap_cons, hcs c List.mem_cons_self,
          ih fun d hd => hcs d (List.mem_cons_of_mem _ hd)]
        rfl
    exact hmap _ fun c hc => of_decide_eq_true (List.all_eq_true.mp hsame c (H.mem_hex hc))
  rw [hflat, String.ofList_toList]

theorem Digests.plain (H : Digests) (key : String) (bytes : Bytes) :
    ∀ c ∈ (H.digest key bytes).toList, isLineBreak c = false ∧ c ≠ ' ' := by
  have hplain : "0123456789abcdef".toList.all (fun c => isLineBreak c = false ∧ c ≠ ' ') =
      true := by
    decide
  exact fun c hc => of_decide_eq_true (List.all_eq_true.mp hplain c (H.mem_hex hc))

theorem partitionChars_checksumLine (H : Digests) (file : String × Bytes) :
    partitionChars [' ', ' '] [] (checksumLine H file).toList =
      some ((H.digest "sha256" file.2).toList, file.1.toList) := by
  have hblanks : "  ".toList = [' ', ' '] := rfl
  unfold checksumLine
  rw [String.toList_append, String.toList_append, hblanks, List.append_assoc]
  exact partitionChars_line (fun hmem => (H.plain _ _ _ hmem).2 rfl) [] _

/-- A true line replaces the entry of its path by a true one. -/
theorem readChecksum_true {file : String × Bytes} (hread : reread file.1 file.2)
    {state state' : RestoreManifest × List String}
    (hm : ∀ e ∈ state.1, EntryTrue H (fun p b => read p b ∨ reread p b) e)
    (h : readChecksum state (checksumLine H file) = .ok state') :
    ∀ e ∈ state'.1, EntryTrue H (fun p b => read p b ∨ reread p b) e := by
  unfold readChecksum at h
  rw [partitionChars_checksumLine] at h
  dsimp only at h
  split_ifs at h
  obtain rfl := Except.ok.inj h
  intro e he
  obtain ⟨old, hold, rfl⟩ := List.mem_map.mp he
  rw [String.ofList_toList, String.ofList_toList, H.lower_digest]
  split_ifs with hpath
  · intro key hkey
    obtain rfl := Option.some.inj hkey
    exact ⟨file.2, .inr (hpath ▸ hread), rfl⟩
  · exact hm old hold

theorem readChecksums_true {files : List (String × Bytes)} (hread : ∀ f ∈ files, reread f.1 f.2)
    {state state' : RestoreManifest × List String}
    (hm : ∀ e ∈ state.1, EntryTrue H (fun p b => read p b ∨ reread p b) e)
    (h : (files.map (checksumLine H)).foldlM readChecksum state = .ok state') :
    ∀ e ∈ state'.1, EntryTrue H (fun p b => read p b ∨ reread p b) e := by
  induction files generalizing state with
  | nil =>
    obtain rfl := Except.ok.inj h
    exact hm
  | cons file files ih =>
    rw [List.map_cons, List.foldlM_cons] at h
    obtain ⟨next, hnext, h⟩ := bind_ok.mp h
    exact ih (fun f hf => hread f (List.mem_cons_of_mem _ hf))
      (readChecksum_true (hread file List.mem_cons_self) hm hnext) h

theorem paths_setChecksum (m : RestoreManifest) (path digest : String) :
    (m.setChecksum path digest).paths = m.paths := by
  unfold RestoreManifest.setChecksum RestoreManifest.paths
  rw [List.map_map]
  refine List.map_congr_left fun e _ => ?_
  rw [Function.comp_apply]
  split_ifs
  · rfl
  · rfl

/-- What follows the separator is of the text. -/
theorem mem_partitionChars {separator before cs front back : List Char}
    (h : partitionChars separator before cs = some (front, back)) :
    ∀ c ∈ back, c ∈ cs := by
  induction cs generalizing before with
  | nil =>
    rw [partitionChars] at h
    split_ifs at h
    obtain ⟨-, rfl⟩ := Prod.mk.inj (Option.some.inj h)
    exact fun c hc => hc
  | cons d cs ih =>
    rw [partitionChars] at h
    split_ifs at h
    · obtain ⟨-, rfl⟩ := Prod.mk.inj (Option.some.inj h)
      exact fun c hc => List.mem_of_mem_drop hc
    · exact fun c hc => List.mem_cons_of_mem _ (ih h c hc)

/-- Only a path that is the end of a line is seen, and the paths of the manifest stay. -/
theorem readChecksums_seen {lines : List String}
    {state state' : RestoreManifest × List String}
    (h : lines.foldlM readChecksum state = .ok state') :
    state'.1.paths = state.1.paths ∧
      ∀ p ∈ state'.2, p ∈ state.2 ∨ ∃ l ∈ lines, ∀ c ∈ p.toList, c ∈ l.toList := by
  induction lines generalizing state with
  | nil =>
    obtain rfl := Except.ok.inj h
    exact ⟨rfl, fun p hp => .inl hp⟩
  | cons l lines ih =>
    rw [List.foldlM_cons] at h
    obtain ⟨next, hnext, h⟩ := bind_ok.mp h
    obtain ⟨hpaths, hseen⟩ := ih h
    unfold readChecksum at hnext
    split at hnext
    · cases hnext
    · rename_i digest path hpartition
      dsimp only at hnext
      split_ifs at hnext
      obtain rfl := Except.ok.inj hnext
      refine ⟨hpaths.trans (paths_setChecksum _ _ _), fun p hp => ?_⟩
      rcases hseen p hp with hbefore | ⟨k, hk, hchars⟩
      · rcases List.mem_append.mp hbefore with hbefore | hnew
        · exact .inl hbefore
        · obtain rfl := List.mem_singleton.mp hnew
          refine .inr ⟨l, List.mem_cons_self, fun c hc => ?_⟩
          exact mem_partitionChars hpartition c (by rwa [String.toList_ofList] at hc)
      · exact .inr ⟨k, List.mem_cons_of_mem _ hk, hchars⟩

/-- **The checksum text makes true entries.**  A path with a line break in it is never seen, so
then the text is refused. -/
theorem withChecksums_true {checksums : CommandOutput}
    (hselection : ∀ p, p ∈ m.paths ↔ p ∈ selection)
    (htrue : checksums.returncode = 0 → ChecksumsTrue H selection reread checksums.stdout)
    (hm : ∀ e ∈ m, EntryTrue H (fun p b => read p b ∨ reread p b) e)
    (h : withChecksums m checksums = .ok m') :
    m'.paths = m.paths ∧ ∀ e ∈ m', EntryTrue H (fun p b => read p b ∨ reread p b) e := by
  unfold withChecksums at h
  split_ifs at h with hcode
  obtain ⟨files, htext, hfiles⟩ := htrue (not_not.mp hcode)
  obtain ⟨state, hstate, h⟩ := bind_ok.mp h
  split_ifs at h with hsame
  obtain rfl := Except.ok.inj h
  obtain ⟨hpaths, hseen⟩ := readChecksums_seen hstate
  have hunbroken : ∀ p ∈ m.paths, ∀ c ∈ p.toList, isLineBreak c = false := by
    intro p hp c hc
    have hmem : p ∈ state.2 :=
      (mem_of_sameElements (by simpa using hsame) p).mpr (hpaths ▸ hp)
    rcases hseen p hmem with hnone | ⟨l, hl, hchars⟩
    · exact absurd hnone List.not_mem_nil
    · exact splitLines_noBreak hl c (hchars c hc)
  have hlines : splitLines checksums.stdout = files.map (checksumLine H) := by
    have hjoin : files.map (fun f => checksumLine H f ++ "\n") =
        (files.map (checksumLine H)).map fun l => l ++ "\n" := by
      rw [List.map_map]
      rfl
    rw [htext, hjoin]
    refine splitLines_join fun l hl c hc => ?_
    obtain ⟨f, hf, rfl⟩ := List.mem_map.mp hl
    unfold checksumLine at hc
    rw [String.toList_append, String.toList_append] at hc
    rcases List.mem_append.mp hc with hc | hc
    · rcases List.mem_append.mp hc with hc | hc
      · exact (H.plain _ _ c hc).1
      · have hblank : c ∈ [' ', ' '] := hc
        rcases List.mem_pair.mp hblank with rfl | rfl
        all_goals decide
    · exact hunbroken f.1 ((hselection _).mpr (hfiles f hf).1) c hc
  rw [hlines] at hstate
  exact ⟨hpaths, readChecksums_true (fun f hf => (hfiles f hf).2) hm hstate⟩

/-- **If rclone tells the truth, so does the manifest**, and it has the paths of the selection. -/
theorem expectedManifest_true {limitBytes : Int}
    {listing checksums : Except RecoveryFailure CommandOutput}
    (hlisting : ∀ o, listing = .ok o → o.returncode = 0 → ListingTrue H read o.stdout)
    (hchecksums : ∀ o, checksums = .ok o → o.returncode = 0 →
      ChecksumsTrue H selection reread o.stdout)
    (h : expectedManifest selection limitBytes listing checksums = .ok m) :
    (∀ p, p ∈ m.paths ↔ p ∈ selection) ∧
      ∀ e ∈ m, EntryTrue H (fun p b => read p b ∨ reread p b) e := by
  unfold expectedManifest at h
  obtain ⟨output, houtput, h⟩ := bind_ok.mp h
  obtain ⟨listed, hlisted, h⟩ := bind_ok.mp h
  obtain ⟨htrue, hsame⟩ := listedManifest_true (hlisting output houtput) hlisted
  have hselection := mem_of_sameElements hsame
  have hweak : ∀ e ∈ listed, EntryTrue H (fun p b => read p b ∨ reread p b) e := by
    intro e he key hkey
    obtain ⟨bytes, hread, hsum⟩ := htrue e he key hkey
    exact ⟨bytes, .inl hread, hsum⟩
  split_ifs at h
  · obtain ⟨sums, hsums, h⟩ := bind_ok.mp h
    obtain ⟨hpaths, hentries⟩ :=
      withChecksums_true hselection (hchecksums sums hsums) hweak h
    exact ⟨fun p => hpaths ▸ hselection p, hentries⟩
  · obtain rfl := Except.ok.inj h
    exact ⟨hselection, hweak⟩

end Listing

/-! ### The data directory -/

theorem forM_ok_iff {α ε : Type} {f : α → Except ε Unit} {xs : List α} :
    xs.forM f = .ok () ↔ ∀ x ∈ xs, f x = .ok () := by
  induction xs with
  | nil => exact ⟨fun _ _ hx => absurd hx List.not_mem_nil, fun _ => rfl⟩
  | cons x xs ih =>
    rw [List.forall_mem_cons]
    change (f x >>= fun _ => xs.forM f) = .ok () ↔ _
    constructor
    · intro h
      obtain ⟨u, hx, hxs⟩ := bind_ok.mp h
      exact ⟨hx, ih.mp hxs⟩
    · rintro ⟨hx, hxs⟩
      exact bind_ok.mpr ⟨(), hx, ih.mpr hxs⟩

namespace RestoredDir

variable {data : RestoredDir}

theorem partsOf_itemPath {parts : List String} (h : ∀ n ∈ parts, IsName n) :
    partsOf (itemPath parts) = parts :=
  congrArg PosixPath.parts (parsePath_text h)

theorem mem_files {path : String} {bytes : Bytes} : (path, bytes) ∈ data.files ↔
    ∃ parts, (parts, DataNode.file bytes) ∈ data.items ∧ path = itemPath parts := by
  unfold files
  rw [List.mem_filterMap]
  constructor
  · rintro ⟨⟨parts, node⟩, hitem, hfile⟩
    cases node with
    | file found =>
      obtain ⟨rfl, rfl⟩ := Prod.mk.inj (Option.some.inj hfile)
      exact ⟨parts, hitem, rfl⟩
    | directory | link | special => cases hfile
  · rintro ⟨parts, hitem, rfl⟩
    exact ⟨_, hitem, rfl⟩

/-- There is one file at a path. -/
theorem file_unique {path : String} {a b : Bytes} (ha : (path, a) ∈ data.files)
    (hb : (path, b) ∈ data.files) : a = b := by
  obtain ⟨parts, hparts, rfl⟩ := mem_files.mp ha
  obtain ⟨others, hothers, hsame⟩ := mem_files.mp hb
  have hnames := congrArg partsOf hsame
  rw [partsOf_itemPath (data.named _ hparts).2, partsOf_itemPath (data.named _ hothers).2] at hnames
  have hitem := List.inj_on_of_nodup_map data.distinct hparts hothers hnames
  exact DataNode.file.inj (Prod.mk.inj hitem).2

/-- No file lies inside another one. -/
theorem not_inside {p q : String} {a b : Bytes} (hp : (p, a) ∈ data.files)
    (hq : (q, b) ∈ data.files) (hne : q ≠ p) : ¬ partsOf p <+: partsOf q := by
  rintro ⟨rest, hrest⟩
  obtain ⟨parts, hparts, rfl⟩ := mem_files.mp hp
  obtain ⟨others, hothers, rfl⟩ := mem_files.mp hq
  obtain ⟨hnonempty, hnames⟩ := data.named _ hparts
  rw [partsOf_itemPath hnames, partsOf_itemPath (data.named _ hothers).2] at hrest
  have hproper : rest ≠ [] := by
    rintro rfl
    rw [List.append_nil] at hrest
    exact hne (congrArg itemPath hrest.symm)
  have hdirectory := data.closed _ hothers parts rest hrest.symm hnonempty hproper
  have hitem := List.inj_on_of_nodup_map data.distinct hparts hdirectory rfl
  cases (Prod.mk.inj hitem).2

end RestoredDir

/-- **What passes the check has the files of the manifest and no others**, each with its
checksum. -/
theorem verifyManifest_spec {digest : String → Bytes → String} {data : RestoredDir}
    {m : RestoreManifest} (h : verifyManifest digest data m = .ok ()) :
    data.hasLink = false ∧ (∀ p, p ∈ data.files.map Prod.fst ↔ p ∈ m.paths) ∧
      ∀ e ∈ m, ∃ bytes key, (e.1, bytes) ∈ data.files ∧ e.2.algorithm = some key ∧
        e.2.checksum = some (digest key bytes) := by
  unfold verifyManifest at h
  split_ifs at h with hlink hsame
  refine ⟨Bool.eq_false_of_not_eq_true hlink, mem_of_sameElements (by simpa using hsame),
    fun e he => ?_⟩
  have hentry := forM_ok_iff.mp h e he
  unfold verifyEntry at hentry
  split at hentry
  · cases hentry
  · rename_i bytes hfound
    split_ifs at hentry
    split at hentry
    · cases hentry
    · rename_i key halgorithm
      split_ifs at hentry with hsum
      exact ⟨bytes, key, mem_of_lookup hfound, halgorithm, (not_not.mp hsum).symm⟩

end RcloneSync
