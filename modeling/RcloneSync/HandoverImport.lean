/-
RcloneSync/HandoverImport.lean

Importing the rescue inventory of another server (handover_rescue.py): its validation, and
the receipts that the import adds to the device vault.

A receipt's name is made of a digest of what the receipt says, so a second import of the same
inventory finds what the first one has written.  Where a receipt of that name belongs to
another data path, the new one gets a name that is made of the path as well.  All receipts
are prepared before the first is saved, and each is saved as a whole; an import that stops
leaves some of them.

`Grown` relates the records an import starts with to those it may have left.  Preparing again
from such records chooses the same names (`prepares_grown`), which is why an import can be
repeated from wherever it stopped (`import_resumes`).

The digest and the Unicode categories of letters and digits are parameters (`RescueEnv`).
-/
import RcloneSync.CronSlots
import RcloneSync.PosixPath
import RcloneSync.VaultUpload

namespace RcloneSync

open Py Runs

/-! ### The inventory -/

/-- What an import takes from outside. -/
structure RescueEnv where
  /-- `hashlib.sha256(text.encode()).hexdigest()` -/
  sha256hex : String → String
  /-- `character.isalnum()` -/
  isAlnum : Char → Bool

inductive RescueError
  | handover (message : String)
  | vault (message : String)
  deriving DecidableEq, Repr

/-- A file of the inventory.  Its digest is kept as it was given. -/
structure RescueRow where
  id : String
  identity : String
  size : Int
  sha256 : Value
  filename : String
  sourceType : String
  deviceName : String
  targetRelative : String
  cloud : Bool
  deriving DecidableEq, Repr

structure RescuePath where
  identity : String
  name : String
  targetHint : Option String
  deriving DecidableEq, Repr

structure RescueInventory where
  dataPaths : List RescuePath
  records : List RescueRow
  deriving DecidableEq, Repr

/-- `unicodedata.category(char) == "Cc"`. -/
def isControl (c : Char) : Bool := c.toNat < 32 || (127 ≤ c.toNat && c.toNat < 160)

/-- `safe_filename`. -/
def safeFilename (value : String) : Except RescueError String :=
  let name := strip value
  if value.toList.any isControl ∨ name = "" ∨ 240 < name.length ∨ name = "." ∨ name = ".." ∨
      startsWith name "." ∨ name.toList.contains '/' ∨ name.toList.contains '\\' then
    .error (.vault "Ungültiger Dateiname")
  else .ok name

/-- `text or fallback`. -/
def orText (text fallback : String) : String := if text = "" then fallback else text

/-- `safe_device_name`. -/
def safeDeviceName (env : RescueEnv) (value : String) : String :=
  let raw := orText (takeText 80 (joinedWords (strip (orText value "iPhone")))) "iPhone"
  let dashed := raw.toList.map fun c =>
    if env.isAlnum c || c = ' ' || c = '-' || c = '_' then c else '-'
  let cut : Char → Bool := fun c => c = ' ' || c = '.' || c = '-' || c = '_'
  orText (lstripOf cut (rstripOf cut (String.ofList dashed))) "iPhone"

/-- `_safe_relative`. -/
def safeRelative (value : String) : Except RescueError String :=
  if value = "" ∨ 1024 < value.length ∨ startsWith value "Sicherpfad/" = false ∨
      isAbsolutePath value ∨ (parsePath value).parts.contains ".." ∨
      value.toList.contains '\\' ∨ value.toList.any isControl ∨
      (parsePath value).text ≠ value then
    .error (.handover "Ungültiger Geräte-Vault-Pfad in der Notfallakte")
  else .ok value

/-- `[a-z0-9-]{1,80}`. -/
def isRescueName (name : String) : Bool :=
  1 ≤ name.length && name.length ≤ 80 && name.toList.all fun c =>
    ('a' ≤ c && c ≤ 'z') || ('0' ≤ c && c ≤ '9') || c = '-'

/-- `[0-9a-f]{64}`. -/
def isHexDigest (text : String) : Bool :=
  text.length = 64 && text.toList.all fun c => ('0' ≤ c && c ≤ '9') || ('a' ≤ c && c ≤ 'f')

/-- The loop over the data paths; `known` are those it has accepted. -/
def validatePaths : List Value → List RescuePath → Except RescueError (List RescuePath)
  | [], known => .ok known
  | .dict row :: rest, known =>
    match Dict.get row "identity" with
    | .str identity =>
      if identity.length < 1 ∨ 128 < identity.length ∨
          known.any (fun path => path.identity = identity) then
        .error (.handover "Ungültige Datenweg-ID in der Notfallakte")
      else
        let hint := takeText 1024 (Dict.textOr row "target_hint" "")
        validatePaths rest (known ++
          [⟨identity, takeText 128 (Dict.textOr row "name" ""),
            if hint = "" then none else some hint⟩])
    | _ => .error (.handover "Ungültige Datenweg-ID in der Notfallakte")
  | _ :: _, _ => .error (.handover "Ungültiger Datenweg in der Notfallakte")

/-- One file, whose data path is known. -/
def validateRecord (env : RescueEnv) (seen : List String) (identity : String) (row : Dict) :
    Except RescueError RescueRow := do
  let identifier := Dict.textOr row "id" ""
  if isRescueName identifier = false ∨ identifier ∈ seen then
    .error (.handover "Ungültige Geräte-Datei-ID in der Notfallakte")
  else
    match Dict.get row "size" with
    | .int size =>
      if size < 1 ∨ maxFileBytes < size ∨ isHexDigest (Dict.textOr row "sha256" "") = false then
        .error (.handover "Ungültige Dateigröße oder Prüfsumme in der Notfallakte")
      else
        match Dict.get row "source_type" with
        | .str sourceType =>
          if sourceType ≠ "photo" ∧ sourceType ≠ "file" then
            .error (.handover "Ungültiger Dateityp in der Notfallakte")
          else do
            let filename ←
              match safeFilename (Dict.textOr row "filename" "") with
              | .ok name => .ok name
              | .error _ => .error (.handover "Ungültiger Dateiname")
            let deviceName := safeDeviceName env (Dict.textOr row "device_name" "iPhone")
            let targetRelative ← safeRelative (Dict.textOr row "target_relative" "")
            .ok ⟨identifier, identity, size, Dict.get row "sha256", filename, sourceType,
              deviceName, targetRelative, Dict.get row "cloud" = .bool true⟩
        | _ => .error (.handover "Ungültiger Dateityp in der Notfallakte")
    | _ => .error (.handover "Ungültige Dateigröße oder Prüfsumme in der Notfallakte")

/-- The loop over the files; `clean` are those it has accepted. -/
def validateRecords (env : RescueEnv) (known : List RescuePath) :
    List Value → List RescueRow → Except RescueError (List RescueRow)
  | [], clean => .ok clean
  | raw :: rest, clean => do
    let unknown := RescueError.handover "Geräte-Datei ist keinem Datenweg zugeordnet"
    let row ← (asDict raw).elim (.error unknown) .ok
    match Dict.get row "identity" with
    | .str identity =>
      if known.any (fun path => path.identity = identity) then do
        let file ← validateRecord env (clean.map RescueRow.id) identity row
        validateRecords env known rest (clean ++ [file])
      else .error unknown
    | _ => .error unknown

def maxRescueRecords : Nat := 5000

/-- `validate_inventory`. -/
def validateInventory (env : RescueEnv) (package : Dict) : Except RescueError RescueInventory :=
  let inventory := (asDict (Dict.get package "rescue_inventory")).getD []
  if pyEq (Dict.get inventory "schema") (.str "sicherpfad-rescue-inventory-v1") = false then
    .error (.handover ("Diese ältere Notfallakte enthält noch kein importierbares " ++
      "Geräte-Vault-Verzeichnis"))
  else
    match asList (Dict.get inventory "data_paths"), asList (Dict.get inventory "records") with
    | some paths, some records =>
      if 500 < paths.length ∨ maxRescueRecords < records.length then
        .error (.handover "Ungültiges oder zu großes Rettungsverzeichnis")
      else do
        let known ← validatePaths paths []
        let clean ← validateRecords env known records []
        .ok ⟨known, clean⟩
    | _, _ => .error (.handover "Ungültiges oder zu großes Rettungsverzeichnis")

/-! ### Receipts -/

/-- The records of the vault, by name: what their files hold, mappings or not.  `temps` are
the temporary files beside them that were left behind. -/
structure RescueStore where
  records : String → Option Value
  temps : List String

/-- `_identity`. -/
def pairIdentity (pair : Dict) : String :=
  pyStr (pyOr (Dict.get pair "id") (pyOr (Dict.get pair "name") (.str "")))

/-- The configured pair of an identity; a later one replaces an earlier one. -/
def configuredPair (pairs : List Value) (identity : String) : Option Dict :=
  (pairs.filterMap asDict).reverse.find? fun pair => pairIdentity pair = identity

/-- `_is_remote` of the vault. -/
def isRemoteTarget (path : String) : Bool :=
  match path.toList with
  | _ :: ':' :: '/' :: _ => false
  | _ :: ':' :: '\\' :: _ => false
  | cs => (beforeSep '/' path).toList.contains ':' && !(['/'].isPrefixOf cs)

/-- `json.dumps(value)`. -/
def defaultJson : JsonStyle := ⟨true, ", ", ": ", false⟩

/-- The digest of a list. -/
def listDigest (env : RescueEnv) (items : List Value) : String :=
  env.sha256hex (jsonDumps defaultJson (.list items))

/-- The name of a receipt. -/
def rescueName (signature : String) : String := "rescue-" ++ takeText 40 signature

/-- The signature of a file in a target. -/
def fileSignature (env : RescueEnv) (row : RescueRow) (target : String) : String :=
  listDigest env [.str row.id, row.sha256, .str target, .str row.targetRelative]

/-- The signature that names the data path as well. -/
def boundSignature (env : RescueEnv) (signature identity : String) : String :=
  listDigest env [.str signature, .str identity]

/-- `_load_record` of a file that is there. -/
def loadReceipt (name : String) : Value → Except RescueError Dict
  | .dict record =>
    if pyEq (Dict.get record "id") (.str name) then .ok record
    else .error (.vault "Upload-Status ist beschädigt")
  | _ => .error (.vault "Upload-Status ist beschädigt")

def receiptCollides : RescueError :=
  .handover "Eine vorhandene Datei kollidiert mit der Notfallakte"

/-- The receipt that is there, if it is the one of the signature. -/
def ownReceipt (signature : String) (v : Value) : Except RescueError Dict := do
  let record ← loadReceipt (rescueName signature) v
  if pyEq (Dict.get record "rescue_signature") (.str signature) then .ok record
  else .error receiptCollides

/-- The signature that a file gets. -/
def chosenSignature (env : RescueEnv) (records : String → Option Value) (row : RescueRow)
    (pair : Dict) : Except RescueError String :=
  let signature := fileSignature env row (targetRoot pair)
  match records (rescueName signature) with
  | none => .ok signature
  | some v => do
    let previous ← ownReceipt signature v
    if pyEq (Dict.get previous "identity") (.str (pairIdentity pair)) then .ok signature
    else .ok (boundSignature env signature (pairIdentity pair))

/-- A new receipt. -/
def newReceipt (row : RescueRow) (pair : Dict) (signature : String) (now : Time) : Dict :=
  let target := targetRoot pair
  [("id", .str (rescueName signature)), ("identity", .str (pairIdentity pair)),
   ("size", .int row.size), ("sha256", row.sha256), ("filename", .str row.filename),
   ("source_type", .str row.sourceType), ("device_name", .str row.deviceName),
   ("target_relative", .str row.targetRelative), ("cloud", .bool (isRemoteTarget target)),
   ("pair", .str (Dict.textOr pair "name" "")), ("status", .str "remote"),
   ("verified", .bool false), ("received", .int 0), ("deduplicated", .bool false),
   ("target_root", .str target), ("local_only", .bool (!isRemoteTarget target)),
   ("created_at", timeValue now), ("error", .none), ("rescue_signature", .str signature),
   ("origin_id", .str row.id)]

/-- An entry of `prepared`. -/
structure PreparedReceipt where
  signature : String
  record : Dict
  isNew : Bool

def PreparedReceipt.name (p : PreparedReceipt) : String := rescueName p.signature

/-- The pair that a file's data path is mapped to. -/
def mappedPair (pairs : List Value) (mappings : List (String × String)) (row : RescueRow) :
    Except RescueError Dict :=
  match (mappings.lookup row.identity).bind (configuredPair pairs) with
  | none => .error (.handover ("Jeden enthaltenen Datenweg ausdrücklich einem bestehenden " ++
      "Sicherungsziel zuordnen"))
  | some pair =>
    if targetRoot pair = "" then
      .error (.handover "Zugeordneter Datenweg besitzt kein Sicherungsziel")
    else .ok pair

/-- What an import works with. -/
structure RescueImport where
  env : RescueEnv
  pairs : List Value
  mappings : List (String × String)
  rows : List RescueRow

/-- One turn of the first loop of `_import_inventory`. -/
def RescueImport.prepareRow (i : RescueImport) (records : String → Option Value) (now : Time)
    (row : RescueRow) : Except RescueError PreparedReceipt := do
  let pair ← mappedPair i.pairs i.mappings row
  let signature ← chosenSignature i.env records row pair
  match records (rescueName signature) with
  | some v => do
    let existing ← ownReceipt signature v
    .ok ⟨signature, existing, false⟩
  | none => .ok ⟨signature, newReceipt row pair signature now, true⟩

/-- `_save_record`: the file is replaced as a whole. -/
def RescueStore.save (s : RescueStore) (now : Time) (p : PreparedReceipt) : RescueStore :=
  { s with
    records := Function.update s.records p.name
      (some (.dict (Dict.set p.record "updated_at" (timeValue now)))) }

/-- The second loop, which may come to the end of the list or not: it stops before its save
number `saves`.  Where the process is killed in that save, a temporary file stays. -/
def writeReceipts (now : Time) (killed : Bool) :
    Option Nat → List PreparedReceipt → RescueStore → Except RescueError Nat × RescueStore
  | _, [], s => (.ok 0, s)
  | saves, p :: rest, s =>
    if p.isNew then
      if (s.records p.name).isSome then
        (.error (.handover "Notfallimport wurde bereits parallel gestartet"), s)
      else if saves = some 0 then
        (.error (.handover ("Notfallimport konnte nicht vollständig gespeichert werden. " ++
          "Vorhandene Einträge bleiben erhalten; dieselbe Notfallakte erneut importieren.")),
          if killed then { s with temps := s.temps ++ [p.name] } else s)
      else
        let done := writeReceipts now killed (saves.map (· - 1)) rest (s.save now p)
        (done.1.map (· + 1), done.2)
    else writeReceipts now killed saves rest s

/-- What an import reports. -/
structure ImportReport where
  imported : Nat
  alreadyPresent : Nat
  deriving DecidableEq, Repr

/-- `set(mappings) == required`, and every mapping leads to a configured pair. -/
def RescueImport.mapped (i : RescueImport) : Bool :=
  let keys := i.mappings.map Prod.fst
  (i.rows.all fun row => keys.contains row.identity) &&
    (keys.all fun key => i.rows.any fun row => row.identity = key) &&
    i.mappings.all fun m => (configuredPair i.pairs m.2).isSome

/-- `import_handover` after the validation.  `saves` says where it is interrupted. -/
def RescueImport.run (i : RescueImport) (now : Time) (saves : Option Nat) (killed : Bool)
    (s : RescueStore) : Except RescueError ImportReport × RescueStore :=
  if i.mapped = false then
    (.error (.handover ("Jeden enthaltenen Datenweg ausdrücklich einem bestehenden " ++
      "Sicherungsziel zuordnen")), s)
  else
    match i.rows.mapM (i.prepareRow s.records now) with
    | .error err => (.error err, s)
    | .ok prepared =>
      let done := writeReceipts now killed saves prepared s
      (done.1.map fun written => ⟨written, prepared.length - written⟩, done.2)

/-- A call of `import_handover`, as far as it stays the same when it is repeated. -/
structure Handover where
  env : RescueEnv
  pairs : List Value
  mappings : List (String × String)
  package : Dict

/-- How one call goes: its time, the save before which it stops, and whether it is killed. -/
structure ImportAttempt where
  now : Time
  saves : Option Nat
  killed : Bool

/-- A call that nothing interrupts. -/
def uninterrupted (now : Time) : ImportAttempt := ⟨now, none, false⟩

/-- `import_handover`. -/
def Handover.importHandover (h : Handover) (a : ImportAttempt) (s : RescueStore) :
    Except RescueError ImportReport × RescueStore :=
  match validateInventory h.env h.package with
  | .error err => (.error err, s)
  | .ok inventory =>
    (RescueImport.mk h.env h.pairs h.mappings inventory.records).run a.now a.saves a.killed s

/-- The same import, repeated. -/
def Handover.step (h : Handover) (s : RescueStore) (a : ImportAttempt) (t : RescueStore) : Prop :=
  t = (h.importHandover a s).2

/-- What a record says beside the times at which it was made and saved. -/
def timeless : Value → Value
  | .dict record => .dict ((Dict.erase record "created_at").erase "updated_at")
  | v => v

/-! ### Saving -/

/-- The record of a prepared receipt, made at one time and saved at another. -/
def PreparedReceipt.stamped (p : PreparedReceipt) (made at_ : Time) : Dict :=
  Dict.set (Dict.set p.record "created_at" (timeValue made)) "updated_at" (timeValue at_)

def PreparedReceipt.saved (p : PreparedReceipt) (made at_ : Time) : Value :=
  .dict (p.stamped made at_)

theorem Dict.erase_set_self (d : Dict) (key : String) (v : Value) :
    (d.set key v).erase key = d.erase key := by
  induction d with
  | nil => simp [Dict.set, Dict.erase]
  | cons e d ih =>
    obtain ⟨k, w⟩ := e
    unfold Dict.erase at ih ⊢
    by_cases h : k = key
    · simp [Dict.set, h]
    · simpa [Dict.set, h] using ih

theorem Dict.erase_comm (d : Dict) (a b : String) :
    (d.erase a).erase b = (d.erase b).erase a := by
  simp [Dict.erase, List.filter_filter, Bool.and_comm]

@[simp] theorem timeless_saved (p : PreparedReceipt) (made at_ : Time) :
    timeless (p.saved made at_) = timeless (.dict p.record) := by
  simp only [timeless, PreparedReceipt.saved, PreparedReceipt.stamped]
  rw [Dict.erase_comm, Dict.erase_set_self, Dict.erase_comm, Dict.erase_set_self]

/-- The new receipts of a list. -/
def newNames (prepared : List PreparedReceipt) : List String :=
  (prepared.filter PreparedReceipt.isNew).map PreparedReceipt.name

theorem RescueStore.save_self (s : RescueStore) (now : Time) (p : PreparedReceipt) :
    (s.save now p).records p.name
      = some (.dict (Dict.set p.record "updated_at" (timeValue now))) := by
  simp [RescueStore.save]

theorem RescueStore.save_ne (s : RescueStore) (now : Time) (p : PreparedReceipt) {name : String}
    (h : name ≠ p.name) : (s.save now p).records name = s.records name := by
  simp [RescueStore.save, h]

/-- Whatever happens to an import, the store keeps each record it has; a record that is there
afterwards only is a new receipt of the list, saved as a whole. -/
theorem writeReceipts_overlay (now : Time) (killed : Bool) (saves : Option Nat)
    (prepared : List PreparedReceipt) (s : RescueStore) (name : String) :
    (writeReceipts now killed saves prepared s).2.records name = s.records name ∨
      (s.records name = none ∧ ∃ p ∈ prepared, p.isNew = true ∧ p.name = name ∧
        (writeReceipts now killed saves prepared s).2.records name
          = some (.dict (Dict.set p.record "updated_at" (timeValue now)))) := by
  induction prepared generalizing saves s with
  | nil => exact Or.inl rfl
  | cons p rest ih =>
    rw [writeReceipts]
    by_cases hnew : p.isNew = true
    · rw [if_pos hnew]
      by_cases hthere : (s.records p.name).isSome = true
      · rw [if_pos hthere]
        exact Or.inl rfl
      · rw [if_neg hthere]
        have hnone : s.records p.name = none := by simpa using hthere
        by_cases hstop : saves = some 0
        · rw [if_pos hstop]
          refine Or.inl ?_
          cases killed <;> rfl
        · rw [if_neg hstop]
          by_cases hname : name = p.name
          · subst hname
            refine Or.inr ⟨hnone, p, List.mem_cons_self, hnew, rfl, ?_⟩
            rcases ih (saves.map (· - 1)) (s.save now p) with h | ⟨h, -⟩
            · exact h.trans (s.save_self now p)
            · rw [s.save_self] at h
              cases h
          · have hsame := s.save_ne now p hname
            rcases ih (saves.map (· - 1)) (s.save now p) with h | ⟨h, q, hq, hqnew, hqname, hval⟩
            · exact Or.inl (h.trans hsame)
            · exact Or.inr ⟨hsame ▸ h, q, List.mem_cons_of_mem _ hq, hqnew, hqname, hval⟩
    · rw [if_neg hnew]
      rcases ih saves s with h | ⟨h, q, hq, hqnew, hqname, hval⟩
      · exact Or.inl h
      · exact Or.inr ⟨h, q, List.mem_cons_of_mem _ hq, hqnew, hqname, hval⟩

/-- An import that is not killed leaves the temporary files as they are. -/
theorem writeReceipts_temps (now : Time) (saves : Option Nat) (prepared : List PreparedReceipt)
    (s : RescueStore) : (writeReceipts now false saves prepared s).2.temps = s.temps := by
  induction prepared generalizing saves s with
  | nil => rfl
  | cons p rest ih =>
    rw [writeReceipts]
    by_cases hnew : p.isNew = true
    · rw [if_pos hnew]
      by_cases hthere : (s.records p.name).isSome = true
      · rw [if_pos hthere]
      · rw [if_neg hthere]
        by_cases hstop : saves = some 0
        · rw [if_pos hstop]
          rfl
        · rw [if_neg hstop]
          exact ih _ _
    · rw [if_neg hnew]
      exact ih _ _

/-- Where nothing stops it, saving succeeds exactly when the new names are free and
different, and then every new receipt is there. -/
theorem writeReceipts_ok_iff (now : Time) (prepared : List PreparedReceipt) (s : RescueStore)
    (n : Nat) :
    (writeReceipts now false none prepared s).1 = .ok n ↔
      n = (newNames prepared).length ∧ (newNames prepared).Nodup ∧
        ∀ name ∈ newNames prepared, s.records name = none := by
  induction prepared generalizing s n with
  | nil =>
    constructor
    · intro h
      cases h
      simp [newNames]
    · rintro ⟨rfl, -⟩
      rfl
  | cons p rest ih =>
    rw [writeReceipts]
    by_cases hnew : p.isNew = true
    · rw [if_pos hnew]
      have hcons : newNames (p :: rest) = p.name :: newNames rest := by simp [newNames, hnew]
      rw [hcons, List.nodup_cons, List.length_cons]
      by_cases hthere : (s.records p.name).isSome = true
      · rw [if_pos hthere]
        constructor
        · intro h
          cases h
        · rintro ⟨-, -, hfree⟩
          rw [hfree p.name List.mem_cons_self] at hthere
          cases hthere
      · rw [if_neg hthere, if_neg (by simp)]
        have hnone : s.records p.name = none := by simpa using hthere
        have hmap : ∀ x : Except RescueError Nat, x.map (· + 1) = .ok n ↔
            ∃ m, x = .ok m ∧ m + 1 = n := by
          rintro (err | m) <;> simp [Except.map]
        rw [hmap]
        constructor
        · rintro ⟨m, hm, rfl⟩
          obtain ⟨rfl, hnodup, hfree⟩ := (ih _ _).mp hm
          have hp : p.name ∉ newNames rest := by
            intro hp
            have h := hfree _ hp
            rw [s.save_self] at h
            cases h
          refine ⟨rfl, ⟨hp, hnodup⟩, ?_⟩
          intro name hname
          rcases List.mem_cons.mp hname with rfl | hname
          · exact hnone
          · have hne : name ≠ p.name := fun h => hp (h ▸ hname)
            exact (s.save_ne now p hne).symm.trans (hfree name hname)
        · rintro ⟨rfl, ⟨hp, hnodup⟩, hfree⟩
          refine ⟨_, (ih _ _).mpr ⟨rfl, hnodup, ?_⟩, rfl⟩
          intro name hname
          have hne : name ≠ p.name := fun h => hp (h ▸ hname)
          exact (s.save_ne now p hne).trans (hfree name (List.mem_cons_of_mem _ hname))
    · rw [if_neg hnew]
      have hcons : newNames (p :: rest) = newNames rest := by simp [newNames, hnew]
      rw [hcons]
      exact ih s n

/-- After an import that succeeds, every new receipt is there. -/
theorem writeReceipts_complete (now : Time) {prepared : List PreparedReceipt} {s : RescueStore}
    {n : Nat} (h : (writeReceipts now false none prepared s).1 = .ok n) {name : String}
    (hname : name ∈ newNames prepared) :
    ((writeReceipts now false none prepared s).2.records name).isSome = true := by
  induction prepared generalizing s n with
  | nil => simp [newNames] at hname
  | cons p rest ih =>
    rw [writeReceipts] at h ⊢
    by_cases hnew : p.isNew = true
    · rw [if_pos hnew] at h ⊢
      by_cases hthere : (s.records p.name).isSome = true
      · rw [if_pos hthere] at h
        cases h
      · rw [if_neg hthere, if_neg (by simp)] at h ⊢
        dsimp only at h ⊢
        rcases hrest : (writeReceipts now false (Option.map (· - 1) none) rest (s.save now p)).1
          with err | m
        · rw [hrest] at h
          cases h
        · have hcons : newNames (p :: rest) = p.name :: newNames rest := by simp [newNames, hnew]
          rw [hcons] at hname
          rcases List.mem_cons.mp hname with rfl | hname
          · rcases writeReceipts_overlay now false (Option.map (· - 1) none) rest (s.save now p)
              p.name with hsame | ⟨hnone, -⟩
            · rw [hsame, s.save_self]
              rfl
            · rw [s.save_self] at hnone
              cases hnone
          · exact ih hrest hname
    · rw [if_neg hnew] at h ⊢
      have hcons : newNames (p :: rest) = newNames rest := by simp [newNames, hnew]
      exact ih h (hcons ▸ hname)

/-- Where nothing is new, nothing is saved. -/
theorem writeReceipts_nothing (now : Time) {prepared : List PreparedReceipt}
    (h : newNames prepared = []) (s : RescueStore) :
    (writeReceipts now false none prepared s).2 = s := by
  induction prepared with
  | nil => rfl
  | cons p rest ih =>
    rw [writeReceipts]
    by_cases hnew : p.isNew = true
    · simp [newNames, hnew] at h
    · rw [if_neg hnew]
      exact ih (by simpa [newNames, hnew] using h)

/-! ### Preparing -/

/-- What a row was prepared to. -/
theorem RescueImport.prepareRow_cases {i : RescueImport} {records : String → Option Value}
    {now : Time} {row : RescueRow} {p : PreparedReceipt}
    (h : i.prepareRow records now row = .ok p) :
    ∃ pair, mappedPair i.pairs i.mappings row = .ok pair ∧
      chosenSignature i.env records row pair = .ok p.signature ∧
      ((records p.name = none ∧ p.record = newReceipt row pair p.signature now ∧
          p.isNew = true) ∨
        ∃ v, records p.name = some v ∧ ownReceipt p.signature v = .ok p.record ∧
          p.isNew = false) := by
  unfold prepareRow at h
  rcases hpair : mappedPair i.pairs i.mappings row with err | pair
  · rw [hpair] at h
    cases h
  · rcases hsig : chosenSignature i.env records row pair with err | signature
    · rw [hpair] at h
      simp only [bind, Except.bind, hsig] at h
      cases h
    · rw [hpair] at h
      simp only [bind, Except.bind, hsig] at h
      rcases hrecord : records (rescueName signature) with _ | v
      · rw [hrecord] at h
        cases h
        exact ⟨pair, rfl, hsig, Or.inl ⟨hrecord, rfl, rfl⟩⟩
      · rw [hrecord] at h
        dsimp only at h
        rcases hown : ownReceipt signature v with err | existing
        · rw [hown] at h
          cases h
        · rw [hown] at h
          cases h
          exact ⟨pair, rfl, hsig, Or.inr ⟨v, hrecord, hown, rfl⟩⟩

theorem RescueImport.prepareRow_free {i : RescueImport} {records : String → Option Value}
    {row : RescueRow} {pair : Dict} {signature : String} (now : Time)
    (hpair : mappedPair i.pairs i.mappings row = .ok pair)
    (hsig : chosenSignature i.env records row pair = .ok signature)
    (hfree : records (rescueName signature) = none) :
    i.prepareRow records now row
      = .ok ⟨signature, newReceipt row pair signature now, true⟩ := by
  unfold prepareRow
  rw [hpair]
  simp only [bind, Except.bind, hsig, hfree]

theorem RescueImport.prepareRow_refused {i : RescueImport} {records : String → Option Value}
    {row : RescueRow} {pair : Dict} {signature : String} {v : Value} {err : RescueError}
    (now : Time) (hpair : mappedPair i.pairs i.mappings row = .ok pair)
    (hsig : fileSignature i.env row (targetRoot pair) = signature)
    (hthere : records (rescueName signature) = some v)
    (hown : ownReceipt signature v = .error err) :
    i.prepareRow records now row = .error err := by
  have hrefused : chosenSignature i.env records row pair = .error err := by
    unfold chosenSignature
    dsimp only
    rw [hsig, hthere]
    simp only [bind, Except.bind, hown]
  unfold prepareRow
  rw [hpair]
  simp only [bind, Except.bind, hrefused]

theorem RescueImport.prepareRow_there {i : RescueImport} {records : String → Option Value}
    {row : RescueRow} {pair existing : Dict} {signature : String} {v : Value} (now : Time)
    (hpair : mappedPair i.pairs i.mappings row = .ok pair)
    (hsig : chosenSignature i.env records row pair = .ok signature)
    (hthere : records (rescueName signature) = some v)
    (hown : ownReceipt signature v = .ok existing) :
    i.prepareRow records now row = .ok ⟨signature, existing, false⟩ := by
  unfold prepareRow
  rw [hpair]
  simp only [bind, Except.bind, hsig, hthere, hown]

theorem PreparedReceipt.get_stamped (p : PreparedReceipt) (made at_ : Time) {key : String}
    (hcreated : key ≠ "created_at") (hupdated : key ≠ "updated_at") :
    (p.stamped made at_).get key = p.record.get key := by
  rw [PreparedReceipt.stamped, Dict.get_set_ne _ _ hupdated, Dict.get_set_ne _ _ hcreated]

/-- A saved receipt is recognised as the one of its signature, and names its data path. -/
theorem ownReceipt_saved {p : PreparedReceipt} {row : RescueRow} {pair : Dict} {now : Time}
    (h : p.record = newReceipt row pair p.signature now) (made at_ : Time) :
    ownReceipt p.signature (p.saved made at_) = .ok (p.stamped made at_) ∧
      (p.stamped made at_).get "identity" = .str (pairIdentity pair) := by
  have hid : (p.stamped made at_).get "id" = .str (rescueName p.signature) := by
    rw [p.get_stamped made at_ (by decide) (by decide), h]
    rfl
  have hsig : (p.stamped made at_).get "rescue_signature" = .str p.signature := by
    rw [p.get_stamped made at_ (by decide) (by decide), h]
    rfl
  constructor
  · simp only [ownReceipt, PreparedReceipt.saved, loadReceipt, hid, hsig, pyEq,
      beq_self_eq_true, if_true, bind, Except.bind]
  · rw [p.get_stamped made at_ (by decide) (by decide), h]
    rfl

/-! ### Records that have grown -/

/-- The receipts of a list, prepared from `records`. -/
def RescueImport.Prepares (i : RescueImport) (records : String → Option Value) (now : Time)
    (prepared : List PreparedReceipt) : Prop :=
  List.Forall₂ (fun row p => i.prepareRow records now row = .ok p) i.rows prepared

/-- The records that imports of the same receipts may have left. -/
def Grown (prepared : List PreparedReceipt) (before after : String → Option Value) : Prop :=
  ∀ name, after name = before name ∨
    (before name = none ∧ ∃ p ∈ prepared, p.isNew = true ∧ p.name = name ∧
      ∃ made at_, after name = some (p.saved made at_))

theorem Grown.refl (prepared : List PreparedReceipt) (records : String → Option Value) :
    Grown prepared records records := fun _ => Or.inl rfl

theorem mem_newNames {prepared : List PreparedReceipt} {name : String} :
    name ∈ newNames prepared ↔ ∃ p ∈ prepared, p.isNew = true ∧ p.name = name := by
  simp [newNames, and_assoc]

/-- Where the new names differ, a name belongs to one new receipt. -/
theorem eq_of_newNames {prepared : List PreparedReceipt} (hnodup : (newNames prepared).Nodup)
    {p q : PreparedReceipt} (hp : p ∈ prepared) (hpnew : p.isNew = true) (hq : q ∈ prepared)
    (hqnew : q.isNew = true) (hname : p.name = q.name) : p = q :=
  List.inj_on_of_nodup_map hnodup (List.mem_filter.mpr ⟨hp, hpnew⟩)
    (List.mem_filter.mpr ⟨hq, hqnew⟩) hname

/-- What a receipt is prepared to again, from the records that are there then. -/
structure Again (records : String → Option Value) (now : Time) (p p' : PreparedReceipt) : Prop where
  signature_eq : p'.signature = p.signature
  isNew_iff : p'.isNew = true ↔ p.isNew = true ∧ records p.name = none
  record_eq : p'.isNew = true → p'.record = Dict.set p.record "created_at" (timeValue now)

/-- From records that have grown, a row gets the same signature. -/
theorem chosenSignature_grown {i : RescueImport} {before after : String → Option Value}
    {now : Time} {prepared : List PreparedReceipt} (hgrown : Grown prepared before after)
    (hnodup : (newNames prepared).Nodup) {row : RescueRow} {p : PreparedReceipt} {pair : Dict}
    (hp : p ∈ prepared) (hprepare : i.prepareRow before now row = .ok p)
    (hpair : mappedPair i.pairs i.mappings row = .ok pair)
    (hsig : chosenSignature i.env before row pair = .ok p.signature) :
    chosenSignature i.env after row pair = .ok p.signature := by
  unfold chosenSignature at hsig ⊢
  dsimp only at hsig ⊢
  rcases hgrown (rescueName (fileSignature i.env row (targetRoot pair)))
    with hsame | ⟨hnone, q, hq, hqnew, hqname, made, at_, hsaved⟩
  · rw [hsame]
    exact hsig
  · -- the file's own signature was free, so it is the one of `p`, and `q` is `p`
    rw [hnone] at hsig
    dsimp only at hsig
    have hpname : fileSignature i.env row (targetRoot pair) = p.signature := by
      injection hsig
    obtain ⟨pair', hpair', -, hcase⟩ := RescueImport.prepareRow_cases hprepare
    obtain rfl : pair = pair' := by
      have h := hpair.symm.trans hpair'
      injection h
    rcases hcase with ⟨-, hrecord, hpnew⟩ | ⟨v, hv, -, -⟩
    · obtain rfl : p = q := by
        refine eq_of_newNames hnodup hp hpnew hq hqnew ?_
        rw [hqname, hpname]
        rfl
      obtain ⟨hown, hidentity⟩ := ownReceipt_saved hrecord made at_
      rw [hsaved, hpname]
      simp only [hown, hidentity, pyEq, beq_self_eq_true, if_true, bind, Except.bind]
    · have hfree : before p.name = none := by
        unfold PreparedReceipt.name
        rw [← hpname]
        exact hnone
      rw [hfree] at hv
      cases hv

/-- A row is prepared again from records that have grown. -/
theorem prepareRow_grown {i : RescueImport} {before after : String → Option Value} {now : Time}
    {prepared : List PreparedReceipt} (hgrown : Grown prepared before after)
    (hnodup : (newNames prepared).Nodup) {row : RescueRow} {p : PreparedReceipt}
    (hp : p ∈ prepared) (hprepare : i.prepareRow before now row = .ok p) (now' : Time) :
    ∃ p', i.prepareRow after now' row = .ok p' ∧ Again after now' p p' := by
  obtain ⟨pair, hpair, hsig, hcase⟩ := RescueImport.prepareRow_cases hprepare
  have hsig' := chosenSignature_grown hgrown hnodup hp hprepare hpair hsig
  rcases hcase with ⟨hnone, hrecord, hpnew⟩ | ⟨v, hv, hown, hpold⟩
  · rcases hgrown p.name with hsame | ⟨-, q, hq, hqnew, hqname, made, at_, hsaved⟩
    · -- it is still to be saved
      refine ⟨_, RescueImport.prepareRow_free now' hpair hsig' (hsame.trans hnone), rfl, ?_, ?_⟩
      · simp [hpnew, hsame.trans hnone]
      · intro _
        rw [hrecord]
        rfl
    · -- it has been saved meanwhile
      obtain rfl : p = q := eq_of_newNames hnodup hp hpnew hq hqnew hqname.symm
      have hown := (ownReceipt_saved hrecord made at_).1
      refine ⟨_, RescueImport.prepareRow_there now' hpair hsig' hsaved hown, rfl, ?_, ?_⟩
      · simp [hsaved]
      · intro h
        cases h
  · -- it was there before
    have hsame : after p.name = some v := by
      rcases hgrown p.name with hsame | ⟨hnone, -⟩
      · exact hsame.trans hv
      · rw [hv] at hnone
        cases hnone
    refine ⟨_, RescueImport.prepareRow_there now' hpair hsig' hsame hown, rfl, ?_, ?_⟩
    · simp [hpold]
    · intro h
      cases h

theorem forall₂_through {α β γ : Type} {r : α → β → Prop} {r' : α → γ → Prop}
    {rel : β → γ → Prop} {xs : List α} {ys : List β} (h : List.Forall₂ r xs ys)
    (hstep : ∀ x, ∀ y ∈ ys, r x y → ∃ z, r' x z ∧ rel y z) :
    ∃ zs, List.Forall₂ r' xs zs ∧ List.Forall₂ rel ys zs := by
  induction h with
  | nil => exact ⟨[], .nil, .nil⟩
  | cons hxy _ ih =>
    obtain ⟨z, hxz, hyz⟩ := hstep _ _ List.mem_cons_self hxy
    obtain ⟨zs, hxs, hys⟩ := ih fun x y hy => hstep x y (List.mem_cons_of_mem _ hy)
    exact ⟨z :: zs, .cons hxz hxs, .cons hyz hys⟩

/-- **Preparing from records that have grown** gives the same receipts; those that are new are
the ones that are still missing. -/
theorem prepares_grown {i : RescueImport} {before after : String → Option Value} {now : Time}
    {prepared : List PreparedReceipt} (hprepares : i.Prepares before now prepared)
    (hnodup : (newNames prepared).Nodup) (hgrown : Grown prepared before after) (now' : Time) :
    ∃ prepared', i.Prepares after now' prepared' ∧
      List.Forall₂ (Again after now') prepared prepared' :=
  forall₂_through hprepares fun _ _ hp hprepare =>
    prepareRow_grown hgrown hnodup hp hprepare now'

theorem Again.newNames_sublist {records : String → Option Value} {now : Time}
    {prepared prepared' : List PreparedReceipt}
    (h : List.Forall₂ (Again records now) prepared prepared') :
    (newNames prepared').Sublist (newNames prepared) := by
  induction h with
  | nil => exact .refl _
  | @cons p p' ps ps' hp _ ih =>
    have hname : p'.name = p.name := congrArg rescueName hp.signature_eq
    by_cases hnew' : p'.isNew = true
    · have hnew := (hp.isNew_iff.mp hnew').1
      simpa [newNames, hnew, hnew', hname] using ih
    · by_cases hnew : p.isNew = true
      · have ih := ih.cons p.name
        simpa [newNames, hnew, hnew'] using ih
      · simpa [newNames, hnew, hnew'] using ih

theorem Again.mem_newNames_iff {records : String → Option Value} {now : Time}
    {prepared prepared' : List PreparedReceipt}
    (h : List.Forall₂ (Again records now) prepared prepared') (name : String) :
    name ∈ newNames prepared' ↔ name ∈ newNames prepared ∧ records name = none := by
  induction h with
  | nil => simp [newNames]
  | @cons p p' ps ps' hp _ ih =>
    have hname : p'.name = p.name := congrArg rescueName hp.signature_eq
    have hiff := hp.isNew_iff
    rw [mem_newNames, mem_newNames] at ih ⊢
    simp only [List.exists_mem_cons_iff, ih, hiff, hname]
    constructor
    · rintro (⟨⟨hnew, hnone⟩, rfl⟩ | ⟨hrest, hnone⟩)
      · exact ⟨Or.inl ⟨hnew, rfl⟩, hnone⟩
      · exact ⟨Or.inr hrest, hnone⟩
    · rintro ⟨⟨hnew, rfl⟩ | hrest, hnone⟩
      · exact Or.inl ⟨⟨hnew, hnone⟩, rfl⟩
      · exact Or.inr ⟨hrest, hnone⟩

/-! ### Imports that stop, and the ones after them -/

theorem RescueImport.run_of_prepares {i : RescueImport} {now : Time} {s : RescueStore}
    {prepared : List PreparedReceipt} (hmapped : i.mapped = true)
    (h : i.Prepares s.records now prepared) (saves : Option Nat) (killed : Bool) :
    i.run now saves killed s
      = ((writeReceipts now killed saves prepared s).1.map fun written =>
          ⟨written, prepared.length - written⟩,
        (writeReceipts now killed saves prepared s).2) := by
  unfold RescueImport.run
  rw [hmapped, mapM_ok_iff.mpr h]
  rfl

/-- What an import leaves: what was there, or what saving its receipts leaves. -/
theorem RescueImport.run_cases (i : RescueImport) (now : Time) (saves : Option Nat)
    (killed : Bool) (s : RescueStore) :
    (i.run now saves killed s).2 = s ∨
      ∃ prepared, i.Prepares s.records now prepared ∧
        (i.run now saves killed s).2 = (writeReceipts now killed saves prepared s).2 := by
  unfold RescueImport.run
  by_cases hmapped : i.mapped = false
  · rw [if_pos hmapped]
    exact Or.inl rfl
  · rw [if_neg hmapped]
    rcases h : i.rows.mapM (i.prepareRow s.records now) with err | prepared
    · exact Or.inl rfl
    · exact Or.inr ⟨prepared, mapM_ok_iff.mp h, rfl⟩

/-- No import changes a record that is there. -/
theorem RescueImport.run_keeps (i : RescueImport) (now : Time) (saves : Option Nat)
    (killed : Bool) {s : RescueStore} {name : String} {v : Value}
    (h : s.records name = some v) : (i.run now saves killed s).2.records name = some v := by
  rcases i.run_cases now saves killed s with hsame | ⟨prepared, -, hrun⟩
  · rw [hsame]
    exact h
  · rw [hrun]
    rcases writeReceipts_overlay now killed saves prepared s name with hsame | ⟨hnone, -⟩
    · exact hsame.trans h
    · rw [h] at hnone
      cases hnone

/-- Only an import that is killed leaves a temporary file. -/
theorem RescueImport.run_temps (i : RescueImport) (now : Time) (saves : Option Nat)
    (s : RescueStore) : (i.run now saves false s).2.temps = s.temps := by
  rcases i.run_cases now saves false s with hsame | ⟨prepared, -, hrun⟩
  · rw [hsame]
  · rw [hrun, writeReceipts_temps]

/-- The receipts that an import prepares once, for all the imports after it. -/
structure RescuePlan (i : RescueImport) (before : String → Option Value) where
  now : Time
  prepared : List PreparedReceipt
  mapped : i.mapped = true
  prepares : i.Prepares before now prepared
  nodup : (newNames prepared).Nodup

section Plan

variable {i : RescueImport} {before : String → Option Value} (plan : RescuePlan i before)

/-- An import that goes through has a plan. -/
theorem RescueImport.plan_of_ok {i : RescueImport} {now : Time} {s t : RescueStore}
    {r : ImportReport} (h : i.run now none false s = (.ok r, t)) :
    ∃ plan : RescuePlan i s.records, plan.now = now ∧
      r.imported + r.alreadyPresent = plan.prepared.length := by
  by_cases hmapped : i.mapped = true
  · rcases hprepare : i.rows.mapM (i.prepareRow s.records now) with err | prepared
    · unfold RescueImport.run at h
      rw [hmapped, hprepare] at h
      cases h
    · have hprepares := mapM_ok_iff.mp hprepare
      rw [i.run_of_prepares hmapped hprepares] at h
      rcases hwrite : (writeReceipts now false none prepared s).1 with err | n
      · rw [hwrite] at h
        cases h
      · obtain ⟨rfl, hnodup, -⟩ := (writeReceipts_ok_iff now prepared s n).mp hwrite
        refine ⟨⟨now, prepared, hmapped, hprepares, hnodup⟩, rfl, ?_⟩
        rw [hwrite] at h
        obtain ⟨h, -⟩ := Prod.mk.inj h
        injection h with h
        subst h
        refine Nat.add_sub_cancel' ?_
        simpa [newNames] using List.length_filter_le _ _
  · unfold RescueImport.run at h
    rw [if_pos (by simpa using hmapped)] at h
    cases h

include plan in
theorem RescuePlan.run_grown {s : RescueStore} (hgrown : Grown plan.prepared before s.records)
    (now : Time) (saves : Option Nat) (killed : Bool) :
    Grown plan.prepared before (i.run now saves killed s).2.records := by
  obtain ⟨prepared', hprepares', hagain⟩ :=
    prepares_grown plan.prepares plan.nodup hgrown now
  rw [i.run_of_prepares plan.mapped hprepares']
  intro name
  rcases writeReceipts_overlay now killed saves prepared' s name
    with hsame | ⟨hnone, p', hp', hnew', rfl, hval⟩
  · have h := hgrown name
    rw [← hsame] at h
    exact h
  · obtain ⟨p, hp, hpp'⟩ := exists_left_of_forall₂ hagain hp'
    have hname : p'.name = p.name := congrArg rescueName hpp'.signature_eq
    have hbefore : before p'.name = none := by
      rcases hgrown p'.name with hsame | ⟨h, -⟩
      · exact hsame.symm.trans hnone
      · exact h
    refine Or.inr ⟨hbefore, p, hp, (hpp'.isNew_iff.mp hnew').1, hname.symm, now, now, ?_⟩
    rw [hpp'.record_eq hnew'] at hval
    exact hval

/-- A store that has all the receipts of a plan. -/
def RescuePlan.Complete (plan : RescuePlan i before) (s : RescueStore) : Prop :=
  Grown plan.prepared before s.records ∧
    ∀ name ∈ newNames plan.prepared, (s.records name).isSome = true

include plan in
/-- An import that nothing interrupts goes through, from wherever the ones before stopped. -/
theorem RescuePlan.run_completes {s : RescueStore} (hgrown : Grown plan.prepared before s.records)
    (now : Time) :
    ∃ n t, i.run now none false s = (.ok ⟨n, plan.prepared.length - n⟩, t) ∧ plan.Complete t ∧
      (plan.Complete s → n = 0 ∧ t = s) := by
  obtain ⟨prepared', hprepares', hagain⟩ :=
    prepares_grown plan.prepares plan.nodup hgrown now
  have hlength : prepared'.length = plan.prepared.length := hagain.length_eq.symm
  have hmem := Again.mem_newNames_iff hagain
  have hwrite : (writeReceipts now false none prepared' s).1
      = .ok (newNames prepared').length :=
    (writeReceipts_ok_iff now prepared' s _).mpr
      ⟨rfl, (Again.newNames_sublist hagain).nodup plan.nodup, fun name h => ((hmem name).mp h).2⟩
  have hrun := i.run_of_prepares plan.mapped hprepares' none false
  have hgrown' := plan.run_grown hgrown now none false
  rw [hrun] at hgrown'
  refine ⟨(newNames prepared').length, (writeReceipts now false none prepared' s).2, ?_,
    ⟨hgrown', ?_⟩, ?_⟩
  · rw [hrun, hwrite, ← hlength]
    rfl
  · intro name hname
    rcases hsome : s.records name with _ | v
    · exact writeReceipts_complete now hwrite ((hmem name).mpr ⟨hname, hsome⟩)
    · rcases writeReceipts_overlay now false none prepared' s name with hsame | ⟨hnone, -⟩
      · rw [hsame, hsome]
        rfl
      · rw [hsome] at hnone
        cases hnone
  · intro hcomplete
    have hnothing : newNames prepared' = [] := by
      refine List.eq_nil_iff_forall_not_mem.mpr fun name h => ?_
      obtain ⟨hname, hnone⟩ := (hmem name).mp h
      have hsome := hcomplete.2 name hname
      rw [hnone] at hsome
      cases hsome
    exact ⟨by rw [hnothing]; rfl, writeReceipts_nothing now hnothing s⟩

/-- Two stores that have all the receipts of a plan agree but for the times. -/
theorem RescuePlan.Complete.timeless_eq {plan : RescuePlan i before} {s t : RescueStore}
    (hs : plan.Complete s) (ht : plan.Complete t) (name : String) :
    (t.records name).map timeless = (s.records name).map timeless := by
  rcases hs.1 name with hsame | ⟨hnone, p, hp, hpnew, hpname, made, at_, hval⟩
  · rcases ht.1 name with hsame' | ⟨hnone, p, hp, hpnew, rfl, -⟩
    · rw [hsame', hsame]
    · have hsome := hs.2 p.name (mem_newNames.mpr ⟨p, hp, hpnew, rfl⟩)
      rw [hsame, hnone] at hsome
      cases hsome
  · subst hpname
    rcases ht.1 p.name with hsame' | ⟨-, q, hq, hqnew, hqname, made', at_', hval'⟩
    · have hsome := ht.2 p.name (mem_newNames.mpr ⟨p, hp, hpnew, rfl⟩)
      rw [hsame', hnone] at hsome
      cases hsome
    · obtain rfl : q = p := eq_of_newNames plan.nodup hq hqnew hp hpnew hqname
      rw [hval, hval', Option.map_some, Option.map_some, timeless_saved, timeless_saved]

end Plan

/-! ### Importing again -/

theorem Handover.importHandover_eq {h : Handover} {inventory : RescueInventory}
    (hvalid : validateInventory h.env h.package = .ok inventory) (a : ImportAttempt)
    (s : RescueStore) :
    h.importHandover a s
      = (RescueImport.mk h.env h.pairs h.mappings inventory.records).run
          a.now a.saves a.killed s := by
  unfold Handover.importHandover
  rw [hvalid]

/-- Whatever happens to an import, it changes no record that is there. -/
theorem Handover.importHandover_keeps (h : Handover) (a : ImportAttempt) {s : RescueStore}
    {name : String} {v : Value} (hv : s.records name = some v) :
    (h.importHandover a s).2.records name = some v := by
  rcases hvalid : validateInventory h.env h.package with err | inventory
  · unfold Handover.importHandover
    rw [hvalid]
    exact hv
  · rw [h.importHandover_eq hvalid]
    exact RescueImport.run_keeps _ _ _ _ hv

/-- An import that is not killed leaves the temporary files as they are. -/
theorem Handover.importHandover_temps (h : Handover) (a : ImportAttempt) (s : RescueStore)
    (ha : a.killed = false) : (h.importHandover a s).2.temps = s.temps := by
  rcases hvalid : validateInventory h.env h.package with err | inventory
  · unfold Handover.importHandover
    rw [hvalid]
  · rw [h.importHandover_eq hvalid, ha]
    exact RescueImport.run_temps _ _ _ _

theorem Handover.run_temps {h : Handover} {s t : RescueStore} {attempts : List ImportAttempt}
    (hrun : Run h.step s attempts t) (hkilled : ∀ a ∈ attempts, a.killed = false) :
    t.temps = s.temps := by
  induction hrun with
  | nil s => rfl
  | cons hstep _ ih =>
    obtain ⟨hfirst, hrest⟩ := List.forall_mem_cons.mp hkilled
    rw [ih hrest, hstep, h.importHandover_temps _ _ hfirst]

/-- **An import can be repeated from wherever it stopped.**  No import, however it ends, changes
a record that was there.  Where one import goes through if nothing interrupts it, so it does
after any imports that failed or were interrupted; it leaves the same records, but for the times
in them, and after it there is nothing left to import.  Temporary files stay only where an
attempt was killed. -/
theorem import_resumes (h : Handover) {s s' : RescueStore} {attempts : List ImportAttempt}
    (hrun : Run h.step s attempts s') :
    (∀ name v, s.records name = some v → s'.records name = some v) ∧
    ∀ now r t, h.importHandover (uninterrupted now) s = (.ok r, t) →
      ∀ now', ∃ r' t', h.importHandover (uninterrupted now') s' = (.ok r', t') ∧
        (∀ name, (t'.records name).map timeless = (t.records name).map timeless) ∧
        (∀ name v, s'.records name = some v → t'.records name = some v) ∧
        ((∀ a ∈ attempts, a.killed = false) → t'.temps = t.temps) ∧
        ∀ later, h.importHandover (uninterrupted later) t'
          = (.ok ⟨0, r.imported + r.alreadyPresent⟩, t') := by
  constructor
  · intro name v hv
    refine hrun.preserves (fun u => u.records name = some v) ?_ hv
    rintro u a _ hu rfl
    exact h.importHandover_keeps a hu
  · intro now r t hfull now'
    rcases hvalid : validateInventory h.env h.package with err | inventory
    · unfold Handover.importHandover at hfull
      rw [hvalid] at hfull
      cases hfull
    · have heq := h.importHandover_eq hvalid
      rw [heq] at hfull
      obtain ⟨plan, -, hlength⟩ := RescueImport.plan_of_ok hfull
      -- the stores of the run keep to the plan that the first one has
      have hgrown : Grown plan.prepared s.records s'.records := by
        refine hrun.preserves (fun u => Grown plan.prepared s.records u.records) ?_
          (Grown.refl _ _)
        rintro u a _ hu rfl
        rw [heq]
        exact plan.run_grown hu _ _ _
      obtain ⟨n, t₁, ht, hcomplete, -⟩ := plan.run_completes (Grown.refl _ _) now
      obtain rfl : t₁ = t := (Prod.mk.inj (ht.symm.trans hfull)).2
      obtain ⟨n', t', ht', hcomplete', -⟩ := plan.run_completes hgrown now'
      rw [← heq] at hfull
      have hagain : h.importHandover (uninterrupted now') s' = _ := (heq _ _).trans ht'
      refine ⟨_, t', hagain, hcomplete.timeless_eq hcomplete', ?_, ?_, ?_⟩
      · intro name v hv
        have hkeep := h.importHandover_keeps (uninterrupted now') hv
        rw [hagain] at hkeep
        exact hkeep
      · intro hkilled
        have htemps := Handover.run_temps hrun hkilled
        have h₁ := h.importHandover_temps (uninterrupted now) s rfl
        have h₂ := h.importHandover_temps (uninterrupted now') s' rfl
        rw [hfull] at h₁
        rw [hagain] at h₂
        exact h₂.trans (htemps.trans h₁.symm)
      · intro later
        obtain ⟨m, u, hu, -, hnothing⟩ := plan.run_completes hcomplete'.1 later
        obtain ⟨rfl, rfl⟩ := hnothing hcomplete'
        rw [heq, hlength]
        exact hu

/-! ### Two photographs -/

def firstDigest : String := "ca978112ca1bbdcafac231b39a23dc4da786eff8147c4e72b9807785afee48bb"

def secondDigest : String := "3e23e8160039594a33894f6564e1b1348bbd7a0088d42c4acb73eeaed59c009d"

/-- The digests that importing the two files needs. -/
def phoneEnv : RescueEnv where
  sha256hex text :=
    if text = "[\"doc-1\", \"" ++ firstDigest ++
        "\", \"/mnt/nas/Fotos\", \"Sicherpfad/iPhone/doc-1.jpg\"]" then
      "eaea50d077426b31b989656d21cb35bb83b62dd297bededcc2f8506fda26e6ed"
    else "35c580854b48869defcfdcb982deb7937fd6073c93f2b9b9df9ec61c12964d5a"
  isAlnum c := c.isAlphanum

def phoneRow (id sha256 : String) : Value := .dict
  [("id", .str id), ("identity", .str "old-1"), ("size", .int 1), ("sha256", .str sha256),
   ("filename", .str "IMG.jpg"), ("source_type", .str "photo"), ("device_name", .str "iPhone"),
   ("target_relative", .str ("Sicherpfad/iPhone/" ++ id ++ ".jpg")), ("cloud", .bool false)]

def phoneHandover : Handover where
  env := phoneEnv
  pairs := [.dict [("id", .str "p1"), ("name", .str "Fotos"), ("remote", .str "/mnt/nas/Fotos")]]
  mappings := [("old-1", "p1")]
  package := [("rescue_inventory", .dict
    [("schema", .str "sicherpfad-rescue-inventory-v1"),
     ("data_paths", .list [.dict [("identity", .str "old-1"), ("name", .str "Fotos")]]),
     ("records", .list [phoneRow "doc-1" firstDigest, phoneRow "doc-2" secondDigest])])]

def emptyVault : RescueStore := ⟨fun _ => none, []⟩

/-- A vault whose file of the first receipt cannot be read. -/
def damagedVault : RescueStore :=
  ⟨fun name => if name = "rescue-eaea50d077426b31b989656d21cb35bb83b62dd2" then some .none
    else none, []⟩

theorem eq_mk_snd {α β : Type} {x : α × β} {a : α} (h : x.1 = a) : x = (a, x.2) := by
  rw [← h]

theorem snd_of_eq_mk {α β : Type} {x : α × β} {a : α} {b : β} (h : x = (a, b)) : x.2 = b := by
  rw [h]

/-- A file as the validation passes it on. -/
def phoneFile (id sha256 : String) : RescueRow where
  id := id
  identity := "old-1"
  size := 1
  sha256 := .str sha256
  filename := "IMG.jpg"
  sourceType := "photo"
  deviceName := "iPhone"
  targetRelative := "Sicherpfad/iPhone/" ++ id ++ ".jpg"
  cloud := false

def phonePair : Dict :=
  [("id", .str "p1"), ("name", .str "Fotos"), ("remote", .str "/mnt/nas/Fotos")]

def phoneImport : RescueImport where
  env := phoneEnv
  pairs := phoneHandover.pairs
  mappings := phoneHandover.mappings
  rows := [phoneFile "doc-1" firstDigest, phoneFile "doc-2" secondDigest]

theorem isHexDigest_ofList {cs : List Char} (hlength : cs.length = 64)
    (h : cs.all (fun c => ('0' ≤ c && c ≤ '9') || ('a' ≤ c && c ≤ 'f')) = true) :
    isHexDigest (String.ofList cs) = true := by
  rw [isHexDigest, String.length_ofList, String.toList_ofList, hlength]
  exact h

theorem validateRecord_phoneRow {id sha256 : String} {seen : List String} {row : Dict}
    (hid : isRescueName id = true) (hnew : id ∉ seen) (hhex : isHexDigest sha256 = true)
    (hrelative : safeRelative ("Sicherpfad/iPhone/" ++ id ++ ".jpg") =
      .ok ("Sicherpfad/iPhone/" ++ id ++ ".jpg"))
    (hrow : phoneRow id sha256 = .dict row) :
    validateRecord phoneEnv seen "old-1" row = .ok (phoneFile id sha256) := by
  obtain rfl := (Value.dict.inj hrow).symm
  have hfilename : safeFilename "IMG.jpg" = .ok "IMG.jpg" := by decide +kernel
  have hdevice : safeDeviceName phoneEnv "iPhone" = "iPhone" := by decide +kernel
  have htext (text : String) : pyStr (pyOr (.str text) (.str "")) = text := by
    by_cases hempty : text = ""
    · rw [hempty]
      rfl
    · simp [pyOr, truthy, hempty, pyStr]
  have hphone : pyStr (pyOr (.str "iPhone") (.str "iPhone")) = "iPhone" := rfl
  unfold validateRecord
  simp only [Dict.textOr, Dict.get, List.lookup_cons, String.reduceBEq, Option.getD_some, htext,
    hid, hnew, hhex, hrelative, hphone]
  rw [if_neg (by simp), if_neg (by decide), if_neg (by simp), hfilename, hdevice]
  rfl

theorem validateRecords_cons {env : RescueEnv} {known : List RescuePath} {raw : Value} {row : Dict}
    {identity : String} {rest : List Value} {clean : List RescueRow} {file : RescueRow}
    (hraw : raw = .dict row) (hidentity : Dict.get row "identity" = .str identity)
    (hknown : known.any (fun path => path.identity = identity) = true)
    (hfile : validateRecord env (clean.map RescueRow.id) identity row = .ok file) :
    validateRecords env known (raw :: rest) clean =
      validateRecords env known rest (clean ++ [file]) := by
  rw [validateRecords, hraw]
  change (match Dict.get row "identity" with
    | .str identity => _
    | _ => _) = _
  rw [hidentity]
  dsimp only
  rw [if_pos hknown, hfile]
  rfl

theorem validateRecords_phoneRow {id sha256 : String} {rest : List Value} {clean : List RescueRow}
    (hid : isRescueName id = true) (hnew : id ∉ clean.map RescueRow.id)
    (hhex : isHexDigest sha256 = true)
    (hrelative : safeRelative ("Sicherpfad/iPhone/" ++ id ++ ".jpg") =
      .ok ("Sicherpfad/iPhone/" ++ id ++ ".jpg")) :
    validateRecords phoneEnv [⟨"old-1", "Fotos", none⟩] (phoneRow id sha256 :: rest) clean =
      validateRecords phoneEnv [⟨"old-1", "Fotos", none⟩] rest (clean ++ [phoneFile id sha256]) :=
  validateRecords_cons rfl rfl (by decide) (validateRecord_phoneRow hid hnew hhex hrelative rfl)

theorem phoneInventory_valid : validateInventory phoneHandover.env phoneHandover.package =
    .ok ⟨[⟨"old-1", "Fotos", none⟩], phoneImport.rows⟩ := by
  have hfirst : isHexDigest firstDigest = true := isHexDigest_ofList rfl (by decide +kernel)
  have hsecond : isHexDigest secondDigest = true := isHexDigest_ofList rfl (by decide +kernel)
  have hrecords : validateRecords phoneEnv [⟨"old-1", "Fotos", none⟩]
      [phoneRow "doc-1" firstDigest, phoneRow "doc-2" secondDigest] [] = .ok phoneImport.rows :=
    (validateRecords_phoneRow (by decide +kernel) (by decide) hfirst (by decide +kernel)).trans
      (validateRecords_phoneRow (by decide +kernel) (by decide) hsecond (by decide +kernel))
  have hpaths : validatePaths [.dict [("identity", .str "old-1"), ("name", .str "Fotos")]] [] =
      .ok [⟨"old-1", "Fotos", none⟩] := by decide +kernel
  have hinventory : (do
      let known ← validatePaths [.dict [("identity", .str "old-1"), ("name", .str "Fotos")]] []
      let clean ← validateRecords phoneEnv known
        [phoneRow "doc-1" firstDigest, phoneRow "doc-2" secondDigest] []
      .ok (RescueInventory.mk known clean)) =
        Except.ok ⟨[⟨"old-1", "Fotos", none⟩], phoneImport.rows⟩ :=
    bind_ok.mpr ⟨_, hpaths, bind_ok.mpr ⟨_, hrecords, rfl⟩⟩
  exact hinventory

theorem phoneHandover_eq (a : ImportAttempt) (s : RescueStore) :
    phoneHandover.importHandover a s = phoneImport.run a.now a.saves a.killed s := by
  exact phoneHandover.importHandover_eq phoneInventory_valid a s

theorem phoneImport_mapped : phoneImport.mapped = true := by decide +kernel

def firstSignature : String := "eaea50d077426b31b989656d21cb35bb83b62dd297bededcc2f8506fda26e6ed"

def secondSignature : String := "35c580854b48869defcfdcb982deb7937fd6073c93f2b9b9df9ec61c12964d5a"

theorem phonePair_mapped (id sha256 : String) :
    mappedPair phoneImport.pairs phoneImport.mappings (phoneFile id sha256) = .ok phonePair := by
  rfl

theorem phone_signatures :
    fileSignature phoneEnv (phoneFile "doc-1" firstDigest) (targetRoot phonePair)
        = firstSignature ∧
      fileSignature phoneEnv (phoneFile "doc-2" secondDigest) (targetRoot phonePair)
        = secondSignature ∧
      rescueName firstSignature ≠ rescueName secondSignature :=
  ⟨by decide +kernel, by decide +kernel, by decide +kernel⟩

def firstReceipt (now : Time) : PreparedReceipt :=
  ⟨firstSignature, newReceipt (phoneFile "doc-1" firstDigest) phonePair firstSignature now, true⟩

def secondReceipt (now : Time) : PreparedReceipt :=
  ⟨secondSignature, newReceipt (phoneFile "doc-2" secondDigest) phonePair secondSignature now, true⟩

theorem chosenSignature_free {env : RescueEnv} {records : String → Option Value} {row : RescueRow}
    {pair : Dict} {signature : String} (hsig : fileSignature env row (targetRoot pair) = signature)
    (hfree : records (rescueName signature) = none) :
    chosenSignature env records row pair = .ok signature := by
  unfold chosenSignature
  dsimp only
  rw [hsig, hfree]

theorem phoneImport_prepares (now : Time) :
    phoneImport.Prepares emptyVault.records now [firstReceipt now, secondReceipt now] := by
  refine .cons ?_ (.cons ?_ .nil)
  · exact RescueImport.prepareRow_free now (phonePair_mapped _ _)
      (chosenSignature_free phone_signatures.1 rfl) rfl
  · exact RescueImport.prepareRow_free now (phonePair_mapped _ _)
      (chosenSignature_free phone_signatures.2.1 rfl) rfl

theorem phoneHandover_run (a : ImportAttempt) :
    phoneHandover.importHandover a emptyVault =
      ((writeReceipts a.now a.killed a.saves [firstReceipt a.now, secondReceipt a.now]
          emptyVault).1.map fun written => ⟨written, 2 - written⟩,
        (writeReceipts a.now a.killed a.saves [firstReceipt a.now, secondReceipt a.now]
          emptyVault).2) := by
  rw [phoneHandover_eq]
  exact RescueImport.run_of_prepares phoneImport_mapped (phoneImport_prepares a.now) a.saves
    a.killed

theorem phoneHandover_ok :
    (phoneHandover.importHandover (uninterrupted 100) emptyVault).1 = .ok ⟨2, 0⟩ := by
  have hnames : newNames [firstReceipt 100, secondReceipt 100] =
      [rescueName firstSignature, rescueName secondSignature] := rfl
  have hwritten : (writeReceipts 100 false none [firstReceipt 100, secondReceipt 100]
      emptyVault).1 = .ok 2 := by
    rw [writeReceipts_ok_iff, hnames]
    exact ⟨rfl, by simpa using phone_signatures.2.2, fun _ _ => rfl⟩
  rw [phoneHandover_run]
  dsimp only [uninterrupted]
  rw [hwritten]
  rfl

theorem writeReceipts_next {now : Time} {killed : Bool} {n : Nat} {p : PreparedReceipt}
    {rest : List PreparedReceipt} {s : RescueStore} (hnew : p.isNew = true)
    (hfree : (s.records p.name).isSome = false) :
    (writeReceipts now killed (some (n + 1)) (p :: rest) s).2 =
      (writeReceipts now killed (some n) rest (s.save now p)).2 := by
  rw [writeReceipts, if_pos hnew, hfree, if_neg Bool.false_ne_true, if_neg (by simp)]
  rfl

theorem writeReceipts_killed {now : Time} {p : PreparedReceipt} {rest : List PreparedReceipt}
    {s : RescueStore} (hnew : p.isNew = true) (hfree : (s.records p.name).isSome = false) :
    (writeReceipts now true (some 0) (p :: rest) s).2.temps = s.temps ++ [p.name] := by
  rw [writeReceipts, if_pos hnew, hfree, if_neg Bool.false_ne_true, if_pos rfl, if_pos rfl]

/-- A kill in the second save leaves its temporary file. -/
theorem phoneHandover_killed :
    (phoneHandover.importHandover ⟨200, some 1, true⟩ emptyVault).2.temps =
      [rescueName secondSignature] := by
  have hfirst : (emptyVault.records (firstReceipt 200).name).isSome = false := rfl
  have hsecond : ((emptyVault.save 200 (firstReceipt 200)).records
      (secondReceipt 200).name).isSome = false := by
    have hne : (secondReceipt 200).name ≠ (firstReceipt 200).name := phone_signatures.2.2.symm
    unfold RescueStore.save
    dsimp only
    rw [Function.update_of_ne hne]
    rfl
  have hnext := @writeReceipts_next 200 true 0 _ [secondReceipt 200] _ rfl hfirst
  have hkilled := @writeReceipts_killed 200 _ [] _ rfl hsecond
  have hstored := snd_of_eq_mk (phoneHandover_run ⟨200, some 1, true⟩)
  dsimp only at hstored
  rw [hstored, hnext, hkilled]
  rfl

/-- A receipt that cannot be read stops an import before its first save. -/
theorem phoneHandover_damaged (a : ImportAttempt) :
    phoneHandover.importHandover a damagedVault =
      (.error (.vault "Upload-Status ist beschädigt"), damagedVault) := by
  have hthere : damagedVault.records (rescueName firstSignature) = some .none := by decide +kernel
  have hfirst : phoneImport.prepareRow damagedVault.records a.now (phoneFile "doc-1" firstDigest) =
      .error (.vault "Upload-Status ist beschädigt") :=
    RescueImport.prepareRow_refused a.now (phonePair_mapped _ _) phone_signatures.1 hthere rfl
  have hrows : phoneImport.rows.mapM (phoneImport.prepareRow damagedVault.records a.now) =
      .error (.vault "Upload-Status ist beschädigt") := by
    change (phoneImport.prepareRow damagedVault.records a.now (phoneFile "doc-1" firstDigest) >>=
      fun _ => _) = _
    rw [hfirst]
    rfl
  rw [phoneHandover_eq]
  unfold RescueImport.run
  rw [phoneImport_mapped, if_neg Bool.true_eq_false_eq_False, hrows]

/-- An import that stops before its second save, and one after it. -/
theorem import_resumes_phone :
    (phoneHandover.importHandover (uninterrupted 100) emptyVault).1 = .ok ⟨2, 0⟩ ∧
    ∃ r' t', phoneHandover.importHandover (uninterrupted 300)
        (phoneHandover.importHandover ⟨200, some 1, false⟩ emptyVault).2 = (.ok r', t') ∧
      ∀ name, (t'.records name).map timeless
        = ((phoneHandover.importHandover (uninterrupted 100) emptyVault).2.records name).map
            timeless := by
  refine ⟨phoneHandover_ok, ?_⟩
  have hrun : Run phoneHandover.step emptyVault [⟨200, some 1, false⟩]
      (phoneHandover.importHandover ⟨200, some 1, false⟩ emptyVault).2 := .cons rfl (.nil _)
  obtain ⟨r', t', h, hsame, -⟩ := (import_resumes phoneHandover hrun).2 100 ⟨2, 0⟩
    (phoneHandover.importHandover (uninterrupted 100) emptyVault).2
    (eq_mk_snd phoneHandover_ok) 300
  exact ⟨r', t', h, hsame⟩

/-- A killed import leaves a file that no later one removes; and a receipt that cannot be read
stops every import. -/
theorem killed_import_leaves_file :
    (¬ ∀ (h : Handover) (s s' : RescueStore) (attempts : List ImportAttempt),
      Run h.step s attempts s' → ∀ now r t, h.importHandover (uninterrupted now) s = (.ok r, t) →
        ∀ now', ∃ r' t', h.importHandover (uninterrupted now') s' = (.ok r', t') ∧
          (∀ name, (t'.records name).map timeless = (t.records name).map timeless) ∧
          t'.temps = t.temps) ∧
    ∃ (h : Handover) (s s' : RescueStore) (attempts : List ImportAttempt),
      Run h.step s attempts s' ∧
      (h.importHandover (uninterrupted 300) s').1
        = .error (.vault "Upload-Status ist beschädigt") := by
  constructor
  · intro hclaim
    obtain ⟨r', t', h, -, htemps⟩ := hclaim phoneHandover emptyVault
      (phoneHandover.importHandover ⟨200, some 1, true⟩ emptyVault).2 [⟨200, some 1, true⟩]
      (.cons rfl (.nil _)) 100 ⟨2, 0⟩
      (phoneHandover.importHandover (uninterrupted 100) emptyVault).2
      (eq_mk_snd phoneHandover_ok) 300
    have hleft : (phoneHandover.importHandover ⟨200, some 1, true⟩ emptyVault).2.temps ≠ [] := by
      rw [phoneHandover_killed]
      exact List.cons_ne_nil _ _
    have hkept := phoneHandover.importHandover_temps (uninterrupted 300)
      (phoneHandover.importHandover ⟨200, some 1, true⟩ emptyVault).2 rfl
    rw [h] at hkept
    exact hleft (hkept.symm.trans
      (htemps.trans (phoneHandover.importHandover_temps (uninterrupted 100) emptyVault rfl)))
  · exact ⟨phoneHandover, damagedVault,
      (phoneHandover.importHandover ⟨200, none, false⟩ damagedVault).2, [⟨200, none, false⟩],
      .cons rfl (.nil _), by rw [phoneHandover_damaged, phoneHandover_damaged]⟩

end RcloneSync
