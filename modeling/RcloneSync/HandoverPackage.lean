/-
RcloneSync/HandoverPackage.lean

The encrypted handover package: `encrypted_handover` of `app/routes/api_recovery.py` and
`decrypt_handover` of `app/handover_rescue.py`.

PBKDF2, AES-GCM and SHA-256 are parameters (`HandoverCrypto`).  `IdealCrypto` says what is
asked of them: different passphrases or salts give different keys, and under a key nothing
opens but the ciphertexts that were made with it.  The exceptions of the libraries are values
(`HandoverFailure`), so that what an `except` clause lets through can be seen.

Main result (`decryptHandover_iff`): a package opens exactly where it carries the values of a
package that was made with the passphrase.  Base64 text counts by its bytes and the number of
iterations by its value.

The reader of a plaintext takes it as UTF-8, which every package that was made is in.  The
interpreter's limit on nested values is left out.
-/
import RcloneSync.Base64
import RcloneSync.HandoverImport

namespace RcloneSync

open Py Base64

/-! ### Outside the program -/

/-- What the program uses of the cryptography library and of `hashlib`. -/
structure HandoverCrypto where
  /-- `PBKDF2HMAC(SHA256, 32, salt, iterations).derive(passphrase)` -/
  derive : (salt : Bytes) → (iterations : Nat) → (passphrase : Bytes) → Bytes
  /-- `AESGCM(key).encrypt(nonce, data, associated)` -/
  encrypt : (key nonce data associated : Bytes) → Bytes
  /-- `AESGCM(key).decrypt(nonce, data, associated)`; `none` is `InvalidTag` -/
  decrypt : (key nonce data associated : Bytes) → Option Bytes
  /-- `hashlib.sha256(data).hexdigest()` -/
  sha256 : Bytes → String

/-- The exceptions of a handover package. -/
inductive HandoverFailure
  | handover (message : String)
  | value (message : String)
  | unicodeDecode
  | invalidTag
  deriving DecidableEq, Repr

/-- `isinstance(exc, ValueError)`. -/
def HandoverFailure.isValueError : HandoverFailure → Bool
  | .invalidTag => false
  | _ => true

/-- The exceptions that opening a package is guarded against. -/
def HandoverFailure.stopsOpening (e : HandoverFailure) : Bool :=
  e = .invalidTag || e.isValueError

/-- `try: … except …: raise HandoverError(message)`. -/
def orHandover {α : Type} (catches : HandoverFailure → Bool) (message : String) :
    Except HandoverFailure α → Except HandoverFailure α
  | .ok a => .ok a
  | .error e => if catches e then .error (.handover message) else .error e

/-- `text.encode("utf-8")`. -/
def utf8Bytes (text : String) : Bytes := text.toUTF8.data.toList

/-- `data.decode("utf-8")`. -/
def utf8Text (data : Bytes) : Option String := String.fromUTF8? ⟨⟨data⟩⟩

theorem utf8Text_utf8Bytes (text : String) : utf8Text (utf8Bytes text) = some text :=
  dif_pos text.isValidUTF8

theorem utf8Bytes_inj {s t : String} (h : utf8Bytes s = utf8Bytes t) : s = t := by
  have htext := congrArg utf8Text h
  rw [utf8Text_utf8Bytes, utf8Text_utf8Bytes] at htext
  exact Option.some.inj htext

/-! ### Making a package -/

/-- `MAX_PACKAGE_BYTES`. -/
def maxPackageBytes : Nat := 1048576

def handoverIterations : Nat := 600000

/-- `b"rclone-recovery-handover-v1"`. -/
def handoverContext : Bytes := utf8Bytes "rclone-recovery-handover-v1"

/-- `json.dumps(payload, ensure_ascii=False, separators=(",", ":"))`. -/
def handoverJson : JsonStyle := gapJson []

def handoverPlaintext (payload : Dict) : Bytes :=
  utf8Bytes (jsonDumps handoverJson (.dict payload))

/-- `encrypted_handover`, for the random bytes that it draws. -/
def encryptedHandover (c : HandoverCrypto) (salt nonce : Bytes) (payload : Dict)
    (passphrase : String) : Except HandoverFailure Dict :=
  if passphrase.length < 12 ∨ 1024 < passphrase.length then
    .error (.value "Übergabe-Passphrase muss 12 bis 1024 Zeichen lang sein")
  else
    let key := c.derive salt handoverIterations (utf8Bytes passphrase)
    let plaintext := handoverPlaintext payload
    if maxPackageBytes < plaintext.length then
      .error (.value "Notfallakte überschreitet das zulässige Größenlimit")
    else
      let ciphertext := c.encrypt key nonce plaintext handoverContext
      .ok [("schema", .str "rclone-recovery-handover-v1"), ("kdf", .str "PBKDF2-HMAC-SHA256"),
        ("iterations", .int handoverIterations), ("cipher", .str "AES-256-GCM"),
        ("salt_b64", .str (b64encode salt)), ("nonce_b64", .str (b64encode nonce)),
        ("ciphertext_b64", .str (b64encode ciphertext))]

/-! ### Opening a package -/

/-- The fields a package has to have. -/
def requiredFields : List String :=
  ["schema", "kdf", "iterations", "cipher", "salt_b64", "nonce_b64", "ciphertext_b64"]

/-- `set(envelope) in (allowed, allowed - {"plaintext_sha256"})`. -/
def fieldsAllowed (envelope : Dict) : Bool :=
  (envelope.all fun e => requiredFields.contains e.1 || e.1 = "plaintext_sha256") &&
    requiredFields.all fun key => Dict.has envelope key

/-- The check of the header. -/
def headerSupported (envelope : Dict) : Bool :=
  pyEq (Dict.get envelope "schema") (.str "rclone-recovery-handover-v1") &&
    pyEq (Dict.get envelope "kdf") (.str "PBKDF2-HMAC-SHA256") &&
    pyEq (Dict.get envelope "cipher") (.str "AES-256-GCM") &&
    pyEq (Dict.get envelope "iterations") (.int handoverIterations)

/-- One turn of the loop over the base64 fields. -/
def decodedField (envelope : Dict) (name : String) (maximum : Nat) :
    Except HandoverFailure Bytes :=
  match Dict.get envelope name with
  | .str raw =>
    if maximum < raw.length then .error (.handover "Notfallakte ist zu groß oder beschädigt")
    else
      orHandover HandoverFailure.isValueError "Notfallakte ist beschädigt"
        ((b64decode raw).elim (.error (.value "Invalid base64-encoded string")) .ok)
  | _ => .error (.handover "Notfallakte ist zu groß oder beschädigt")

/-- `json.loads(plaintext)`. -/
def loadsPlaintext (plaintext : Bytes) : Except HandoverFailure Value :=
  match utf8Text plaintext with
  | none => .error .unicodeDecode
  | some text => (jsonLoads text).elim (.error (.value "JSONDecodeError")) .ok

/-- The part of `decrypt_handover` that opens the ciphertext. -/
def openPlaintext (c : HandoverCrypto) (key nonce ciphertext : Bytes) :
    Except HandoverFailure (Bytes × Value) := do
  let plaintext ← (c.decrypt key nonce ciphertext handoverContext).elim (.error .invalidTag) .ok
  let package ← loadsPlaintext plaintext
  .ok (plaintext, package)

/-- The last check: an extra digest has to be that of the plaintext. -/
def checkedPackage (c : HandoverCrypto) (envelope : Dict) (plaintext : Bytes) :
    Value → Except HandoverFailure Dict
  | .dict package =>
    if Dict.has envelope "plaintext_sha256" ∧
        pyEq (.str (c.sha256 plaintext)) (Dict.get envelope "plaintext_sha256") = false then
      .error (.handover "Integritätsprüfung der Notfallakte ist fehlgeschlagen")
    else .ok package
  | _ => .error (.handover "Integritätsprüfung der Notfallakte ist fehlgeschlagen")

/-- `decrypt_handover`. -/
def decryptHandover (c : HandoverCrypto) (envelope : Dict) (passphrase : String) :
    Except HandoverFailure Dict :=
  if passphrase.length < 12 ∨ 1024 < passphrase.length then
    .error (.handover "Passphrase muss 12 bis 1024 Zeichen lang sein")
  else if fieldsAllowed envelope = false then
    .error (.handover "Notfallakte enthält unbekannte oder fehlende Felder")
  else if headerSupported envelope = false then
    .error (.handover "Nicht unterstützte Verschlüsselung der Notfallakte")
  else do
    let salt ← decodedField envelope "salt_b64" 32
    let nonce ← decodedField envelope "nonce_b64" 24
    let ciphertext ← decodedField envelope "ciphertext_b64" ((maxPackageBytes + 16) * 2)
    if salt.length ≠ 16 ∨ nonce.length ≠ 12 ∨ maxPackageBytes + 16 < ciphertext.length then
      .error (.handover "Notfallakte ist zu groß oder beschädigt")
    else do
      let key := c.derive salt handoverIterations (utf8Bytes passphrase)
      let opened ← orHandover HandoverFailure.stopsOpening
        "Notfallakte konnte nicht geöffnet werden; Passphrase und Datei prüfen"
        (openPlaintext c key nonce ciphertext)
      checkedPackage c envelope opened.1 opened.2

/-! ### Packages that were made -/

/-- What a package was made of, and that it could be made. -/
structure MadePackage where
  payload : Dict
  passphrase : String
  /-- `os.urandom(16)` -/
  salt : Bytes
  /-- `os.urandom(12)` -/
  nonce : Bytes
  salt_length : salt.length = 16
  nonce_length : nonce.length = 12
  accepted : 12 ≤ passphrase.length ∧ passphrase.length ≤ 1024
  readable : (Value.dict payload).wellFormed = true
  small : (handoverPlaintext payload).length ≤ maxPackageBytes

section Made

variable (c : HandoverCrypto) (p : MadePackage)

def MadePackage.plaintext : Bytes := handoverPlaintext p.payload

def MadePackage.key : Bytes := c.derive p.salt handoverIterations (utf8Bytes p.passphrase)

def MadePackage.ciphertext : Bytes := c.encrypt (p.key c) p.nonce p.plaintext handoverContext

/-- The package. -/
def MadePackage.envelope : Dict :=
  [("schema", .str "rclone-recovery-handover-v1"), ("kdf", .str "PBKDF2-HMAC-SHA256"),
    ("iterations", .int handoverIterations), ("cipher", .str "AES-256-GCM"),
    ("salt_b64", .str (b64encode p.salt)), ("nonce_b64", .str (b64encode p.nonce)),
    ("ciphertext_b64", .str (b64encode (p.ciphertext c)))]

end Made

/-- The ideal functions: keys tell salts and passphrases apart, ciphertexts are longer by the
tag, and under a key opens what was made with it, and nothing else. -/
structure IdealCrypto (c : HandoverCrypto) (made : List MadePackage) : Prop where
  distinct : ∀ salt salt' passphrase passphrase', salt.length = 16 → salt'.length = 16 →
    c.derive salt handoverIterations passphrase = c.derive salt' handoverIterations passphrase' →
    salt = salt' ∧ passphrase = passphrase'
  tag : ∀ key nonce data, (c.encrypt key nonce data handoverContext).length = data.length + 16
  sealed : ∀ key nonce data plaintext,
    c.decrypt key nonce data handoverContext = some plaintext ↔
      ∃ p ∈ made, p.key c = key ∧ p.nonce = nonce ∧ p.ciphertext c = data ∧
        p.plaintext = plaintext

/-- What is made is a package of `MadePackage`, and all of these can be made. -/
theorem encryptedHandover_iff (c : HandoverCrypto) {salt nonce : Bytes} {payload : Dict}
    {passphrase : String} (hsalt : salt.length = 16) (hnonce : nonce.length = 12)
    (hreadable : (Value.dict payload).wellFormed = true) (envelope : Dict) :
    encryptedHandover c salt nonce payload passphrase = .ok envelope ↔
      ∃ p : MadePackage, p.payload = payload ∧ p.passphrase = passphrase ∧ p.salt = salt ∧
        p.nonce = nonce ∧ p.envelope c = envelope := by
  unfold encryptedHandover
  dsimp only
  by_cases hlength : passphrase.length < 12 ∨ 1024 < passphrase.length
  · rw [if_pos hlength]
    constructor
    · intro h
      cases h
    · rintro ⟨p, -, rfl, -⟩
      obtain ⟨hlow, hhigh⟩ := p.accepted
      omega
  · rw [if_neg hlength]
    by_cases hlarge : maxPackageBytes < (handoverPlaintext payload).length
    · rw [if_pos hlarge]
      constructor
      · intro h
        cases h
      · rintro ⟨p, rfl, -⟩
        exact absurd p.small (not_le.mpr hlarge)
    · rw [if_neg hlarge]
      constructor
      · intro h
        refine ⟨⟨payload, passphrase, salt, nonce, hsalt, hnonce, by omega, hreadable,
          not_lt.mp hlarge⟩, rfl, rfl, rfl, rfl, Except.ok.inj h⟩
      · rintro ⟨p, rfl, rfl, rfl, rfl, rfl⟩
        rfl

/-! ### What opens -/

/-- A text field that gives these bytes, however they are spelled. -/
def Carries (envelope : Dict) (name : String) (maximum : Nat) (data : Bytes) : Prop :=
  ∃ raw, Dict.get envelope name = .str raw ∧ raw.length ≤ maximum ∧ b64decode raw = some data

/-- The envelope has the values of a package that was made, and at most its digest besides. -/
structure Respells (c : HandoverCrypto) (p : MadePackage) (envelope : Dict) : Prop where
  fields : fieldsAllowed envelope = true
  schema : Dict.get envelope "schema" = .str "rclone-recovery-handover-v1"
  kdf : Dict.get envelope "kdf" = .str "PBKDF2-HMAC-SHA256"
  cipher : Dict.get envelope "cipher" = .str "AES-256-GCM"
  iterations : pyEq (Dict.get envelope "iterations") (.int handoverIterations) = true
  salt : Carries envelope "salt_b64" 32 p.salt
  nonce : Carries envelope "nonce_b64" 24 p.nonce
  ciphertext : Carries envelope "ciphertext_b64" ((maxPackageBytes + 16) * 2) (p.ciphertext c)
  digest : Dict.has envelope "plaintext_sha256" = true →
    Dict.get envelope "plaintext_sha256" = .str (c.sha256 p.plaintext)

section Opening

variable {c : HandoverCrypto} {made : List MadePackage} {envelope : Dict} {passphrase : String}

theorem pyEq_str_right {v : Value} {s : String} : pyEq v (.str s) = true ↔ v = .str s := by
  cases v <;> simp [pyEq, numberOf]

theorem pyEq_str_left {v : Value} {s : String} : pyEq (.str s) v = true ↔ v = .str s := by
  cases v with
  | str t =>
    show (s == t) = true ↔ _
    rw [beq_iff_eq]
    exact ⟨fun h => congrArg Value.str h.symm, fun h => (Value.str.inj h).symm⟩
  | _ => simp [pyEq, numberOf]

theorem headerSupported_iff : headerSupported envelope = true ↔
    Dict.get envelope "schema" = .str "rclone-recovery-handover-v1" ∧
      Dict.get envelope "kdf" = .str "PBKDF2-HMAC-SHA256" ∧
      Dict.get envelope "cipher" = .str "AES-256-GCM" ∧
      pyEq (Dict.get envelope "iterations") (.int handoverIterations) = true := by
  unfold headerSupported
  simp only [Bool.and_eq_true, pyEq_str_right, and_assoc]

theorem orHandover_ok {α : Type} {catches : HandoverFailure → Bool} {message : String}
    {x : Except HandoverFailure α} {a : α} :
    orHandover catches message x = .ok a ↔ x = .ok a := by
  cases x with
  | ok b => rfl
  | error e =>
    unfold orHandover
    by_cases he : catches e = true
    · simp [he]
    · simp [he]

theorem orHandover_error {α : Type} {catches : HandoverFailure → Bool} {message : String}
    {x : Except HandoverFailure α} {e : HandoverFailure}
    (hall : ∀ e, x = .error e → catches e = true)
    (h : orHandover catches message x = .error e) : e = .handover message := by
  cases x with
  | ok b => cases h
  | error e' =>
    have h : (if catches e' = true then .error (.handover message) else .error e')
        = (.error e : Except HandoverFailure α) := h
    rw [if_pos (hall e' rfl)] at h
    exact (Except.error.inj h).symm

/-- A computation in two steps fails in one of them. -/
theorem bind_error {ε α β : Type} {x : Except ε α} {f : α → Except ε β} {e : ε}
    (h : x >>= f = .error e) : x = .error e ∨ ∃ a, x = .ok a ∧ f a = .error e := by
  cases x with
  | error e' =>
    obtain rfl : e' = e := Except.error.inj h
    exact Or.inl rfl
  | ok a => exact Or.inr ⟨a, rfl, h⟩

theorem decodedField_ok {name : String} {maximum : Nat} {data : Bytes} :
    decodedField envelope name maximum = .ok data ↔ Carries envelope name maximum data := by
  unfold decodedField Carries
  cases Dict.get envelope name with
  | str raw =>
    dsimp only
    by_cases hlong : maximum < raw.length
    · rw [if_pos hlong]
      constructor
      · intro h
        cases h
      · rintro ⟨raw', hraw, hshort, -⟩
        obtain rfl := Value.str.inj hraw
        exact absurd hlong (not_lt.mpr hshort)
    · rw [if_neg hlong, orHandover_ok]
      cases hdecode : b64decode raw with
      | none =>
        constructor
        · intro h
          cases h
        · rintro ⟨raw', hraw, -, hdata⟩
          obtain rfl := Value.str.inj hraw
          rw [hdecode] at hdata
          cases hdata
      | some data' =>
        constructor
        · intro h
          obtain rfl := Except.ok.inj h
          exact ⟨raw, rfl, not_lt.mp hlong, hdecode⟩
        · rintro ⟨raw', hraw, -, hdata⟩
          obtain rfl := Value.str.inj hraw
          rw [hdecode] at hdata
          obtain rfl := Option.some.inj hdata
          rfl
  | _ => simp

theorem decodedField_error {name : String} {maximum : Nat} {e : HandoverFailure}
    (h : decodedField envelope name maximum = .error e) : ∃ message, e = .handover message := by
  unfold decodedField at h
  cases hget : Dict.get envelope name with
  | str raw =>
    rw [hget] at h
    dsimp only at h
    by_cases hlong : maximum < raw.length
    · rw [if_pos hlong] at h
      exact ⟨_, (Except.error.inj h).symm⟩
    · rw [if_neg hlong] at h
      refine ⟨_, orHandover_error ?_ h⟩
      intro e' he'
      cases hdecode : b64decode raw with
      | none =>
        rw [hdecode] at he'
        obtain rfl := Except.error.inj he'
        rfl
      | some data =>
        rw [hdecode] at he'
        cases he'
  | _ =>
    rw [hget] at h
    exact ⟨_, (Except.error.inj h).symm⟩

/-- What was written is read back. -/
theorem loadsPlaintext_made (p : MadePackage) :
    loadsPlaintext p.plaintext = .ok (.dict p.payload) := by
  have hloads : jsonLoads (jsonDumps handoverJson (.dict p.payload)) = some (.dict p.payload) :=
    jsonLoads_gap (fun _ hc => absurd hc List.not_mem_nil) p.readable
  unfold loadsPlaintext MadePackage.plaintext handoverPlaintext
  rw [utf8Text_utf8Bytes]
  show (jsonLoads _).elim _ _ = _
  rw [hloads]
  rfl

theorem openPlaintext_ok {key nonce ciphertext : Bytes} {opened : Bytes × Value} :
    openPlaintext c key nonce ciphertext = .ok opened ↔
      c.decrypt key nonce ciphertext handoverContext = some opened.1 ∧
        loadsPlaintext opened.1 = .ok opened.2 := by
  unfold openPlaintext
  cases hdecrypt : c.decrypt key nonce ciphertext handoverContext with
  | none =>
    constructor
    · intro h
      cases h
    · rintro ⟨h, -⟩
      cases h
  | some plaintext =>
    constructor
    · intro h
      obtain ⟨data, hdata, h⟩ := bind_ok.mp h
      obtain rfl := Except.ok.inj hdata
      obtain ⟨package, hloads, hpair⟩ := bind_ok.mp h
      obtain rfl := Except.ok.inj hpair
      exact ⟨rfl, hloads⟩
    · rintro ⟨hplain, hloads⟩
      obtain rfl := Option.some.inj hplain
      exact bind_ok.mpr ⟨opened.1, rfl, bind_ok.mpr ⟨opened.2, hloads, rfl⟩⟩

theorem checkedPackage_ok {plaintext : Bytes} {v : Value} {package : Dict} :
    checkedPackage c envelope plaintext v = .ok package ↔ v = .dict package ∧
      (Dict.has envelope "plaintext_sha256" = true →
        Dict.get envelope "plaintext_sha256" = .str (c.sha256 plaintext)) := by
  cases v with
  | dict d =>
    show (if Dict.has envelope "plaintext_sha256" = true ∧ _ then Except.error _ else Except.ok d)
      = _ ↔ _
    by_cases hbad : Dict.has envelope "plaintext_sha256" = true ∧
        pyEq (.str (c.sha256 plaintext)) (Dict.get envelope "plaintext_sha256") = false
    · rw [if_pos hbad]
      constructor
      · intro h
        cases h
      · rintro ⟨-, hdigest⟩
        have heq := pyEq_str_left.mpr (hdigest hbad.1)
        rw [hbad.2] at heq
        cases heq
    · rw [if_neg hbad]
      have hdigest : Dict.has envelope "plaintext_sha256" = true →
          Dict.get envelope "plaintext_sha256" = .str (c.sha256 plaintext) := by
        intro hhas
        apply pyEq_str_left.mp
        rw [← Bool.not_eq_false]
        exact fun hno => hbad ⟨hhas, hno⟩
      constructor
      · intro h
        exact ⟨congrArg Value.dict (Except.ok.inj h), hdigest⟩
      · rintro ⟨hd, -⟩
        exact congrArg Except.ok (Value.dict.inj hd)
  | _ =>
    constructor
    · intro h
      cases h
    · rintro ⟨h, -⟩
      cases h

theorem checkedPackage_error {plaintext : Bytes} {v : Value} {e : HandoverFailure}
    (h : checkedPackage c envelope plaintext v = .error e) : ∃ message, e = .handover message := by
  cases v with
  | dict d =>
    have h : (if Dict.has envelope "plaintext_sha256" = true ∧
        pyEq (.str (c.sha256 plaintext)) (Dict.get envelope "plaintext_sha256") = false
      then Except.error _ else Except.ok d) = _ := h
    by_cases hbad : Dict.has envelope "plaintext_sha256" = true ∧
        pyEq (.str (c.sha256 plaintext)) (Dict.get envelope "plaintext_sha256") = false
    · rw [if_pos hbad] at h
      exact ⟨_, (Except.error.inj h).symm⟩
    · rw [if_neg hbad] at h
      cases h
  | _ => exact ⟨_, (Except.error.inj h).symm⟩

/-- The steps of an opening that succeeds. -/
theorem decryptHandover_ok {package : Dict} :
    decryptHandover c envelope passphrase = .ok package ↔
      (12 ≤ passphrase.length ∧ passphrase.length ≤ 1024) ∧ fieldsAllowed envelope = true ∧
        headerSupported envelope = true ∧ ∃ salt nonce ciphertext plaintext,
          Carries envelope "salt_b64" 32 salt ∧ Carries envelope "nonce_b64" 24 nonce ∧
          Carries envelope "ciphertext_b64" ((maxPackageBytes + 16) * 2) ciphertext ∧
          salt.length = 16 ∧ nonce.length = 12 ∧ ciphertext.length ≤ maxPackageBytes + 16 ∧
          c.decrypt (c.derive salt handoverIterations (utf8Bytes passphrase)) nonce ciphertext
            handoverContext = some plaintext ∧
          loadsPlaintext plaintext = .ok (.dict package) ∧
          (Dict.has envelope "plaintext_sha256" = true →
            Dict.get envelope "plaintext_sha256" = .str (c.sha256 plaintext)) := by
  unfold decryptHandover
  by_cases hlength : passphrase.length < 12 ∨ 1024 < passphrase.length
  · rw [if_pos hlength]
    constructor
    · intro h
      cases h
    · rintro ⟨⟨hlow, hhigh⟩, -⟩
      omega
  rw [if_neg hlength]
  by_cases hfields : fieldsAllowed envelope = false
  · rw [if_pos hfields]
    constructor
    · intro h
      cases h
    · rintro ⟨-, hallowed, -⟩
      rw [hfields] at hallowed
      cases hallowed
  rw [if_neg hfields]
  by_cases hheader : headerSupported envelope = false
  · rw [if_pos hheader]
    constructor
    · intro h
      cases h
    · rintro ⟨-, -, hsupported, -⟩
      rw [hheader] at hsupported
      cases hsupported
  rw [if_neg hheader]
  simp only [bind_ok, decodedField_ok]
  constructor
  · rintro ⟨salt, hsalt, nonce, hnonce, ciphertext, hciphertext, h⟩
    by_cases hsizes : salt.length ≠ 16 ∨ nonce.length ≠ 12 ∨
        maxPackageBytes + 16 < ciphertext.length
    · rw [if_pos hsizes] at h
      cases h
    rw [if_neg hsizes] at h
    obtain ⟨opened, hopened, hchecked⟩ := bind_ok.mp h
    obtain ⟨hdecrypt, hloads⟩ := openPlaintext_ok.mp (orHandover_ok.mp hopened)
    obtain ⟨hdict, hdigest⟩ := checkedPackage_ok.mp hchecked
    rw [hdict] at hloads
    exact ⟨by omega, Bool.not_eq_false _ ▸ hfields, Bool.not_eq_false _ ▸ hheader, salt, nonce,
      ciphertext, opened.1, hsalt, hnonce, hciphertext, by omega, by omega, by omega, hdecrypt,
      hloads, hdigest⟩
  · rintro ⟨-, -, -, salt, nonce, ciphertext, plaintext, hsalt, hnonce, hciphertext, hsalt16,
      hnonce12, hsmall, hdecrypt, hloads, hdigest⟩
    refine ⟨salt, hsalt, nonce, hnonce, ciphertext, hciphertext, ?_⟩
    rw [if_neg (by omega)]
    refine bind_ok.mpr ⟨(plaintext, .dict package), ?_, checkedPackage_ok.mpr ⟨rfl, hdigest⟩⟩
    exact orHandover_ok.mpr (openPlaintext_ok.mpr ⟨hdecrypt, hloads⟩)

/-- **Every failure is a handover error.** -/
theorem decryptHandover_error {e : HandoverFailure}
    (h : decryptHandover c envelope passphrase = .error e) : ∃ message, e = .handover message := by
  unfold decryptHandover at h
  by_cases hlength : passphrase.length < 12 ∨ 1024 < passphrase.length
  · rw [if_pos hlength] at h
    exact ⟨_, (Except.error.inj h).symm⟩
  rw [if_neg hlength] at h
  by_cases hfields : fieldsAllowed envelope = false
  · rw [if_pos hfields] at h
    exact ⟨_, (Except.error.inj h).symm⟩
  rw [if_neg hfields] at h
  by_cases hheader : headerSupported envelope = false
  · rw [if_pos hheader] at h
    exact ⟨_, (Except.error.inj h).symm⟩
  rw [if_neg hheader] at h
  rcases bind_error h with h | ⟨salt, -, h⟩
  · exact decodedField_error h
  rcases bind_error h with h | ⟨nonce, -, h⟩
  · exact decodedField_error h
  rcases bind_error h with h | ⟨ciphertext, -, h⟩
  · exact decodedField_error h
  by_cases hsizes : salt.length ≠ 16 ∨ nonce.length ≠ 12 ∨
      maxPackageBytes + 16 < ciphertext.length
  · rw [if_pos hsizes] at h
    exact ⟨_, (Except.error.inj h).symm⟩
  rw [if_neg hsizes] at h
  rcases bind_error h with h | ⟨opened, -, h⟩
  · refine ⟨_, orHandover_error ?_ h⟩
    intro e' _
    cases e' <;> rfl
  · exact checkedPackage_error h

/-- A package has its own values. -/
theorem respells_envelope (hideal : IdealCrypto c made) (p : MadePackage) :
    Respells c p (p.envelope c) where
  fields := rfl
  schema := rfl
  kdf := rfl
  cipher := rfl
  iterations := rfl
  salt := by
    refine ⟨b64encode p.salt, rfl, ?_, b64decode_b64encode _⟩
    rw [length_b64encode, p.salt_length]
    decide
  nonce := by
    refine ⟨b64encode p.nonce, rfl, ?_, b64decode_b64encode _⟩
    rw [length_b64encode, p.nonce_length]
    decide
  ciphertext := by
    refine ⟨b64encode (p.ciphertext c), rfl, ?_, b64decode_b64encode _⟩
    have htag : (p.ciphertext c).length = (handoverPlaintext p.payload).length + 16 :=
      hideal.tag _ _ _
    have hsmall := p.small
    rw [length_b64encode, htag]
    omega
  digest h := absurd h Bool.false_ne_true

/-- **What opens**: the packages that were made with the passphrase, in any spelling. -/
theorem decryptHandover_iff (hideal : IdealCrypto c made) {package : Dict} :
    decryptHandover c envelope passphrase = .ok package ↔
      ∃ p ∈ made, p.passphrase = passphrase ∧ Respells c p envelope ∧ p.payload = package := by
  rw [decryptHandover_ok]
  constructor
  · rintro ⟨-, hfields, hheader, salt, nonce, ciphertext, plaintext, hsalt, hnonce, hciphertext,
      hsalt16, -, -, hdecrypt, hloads, hdigest⟩
    obtain ⟨p, hp, hkey, rfl, rfl, rfl⟩ := (hideal.sealed _ _ _ _).mp hdecrypt
    obtain ⟨rfl, hbytes⟩ := hideal.distinct _ _ _ _ p.salt_length hsalt16 hkey
    obtain ⟨hschema, hkdf, hcipher, hiterations⟩ := headerSupported_iff.mp hheader
    rw [loadsPlaintext_made] at hloads
    exact ⟨p, hp, utf8Bytes_inj hbytes, ⟨hfields, hschema, hkdf, hcipher, hiterations, hsalt,
      hnonce, hciphertext, hdigest⟩, Value.dict.inj (Except.ok.inj hloads)⟩
  · rintro ⟨p, hp, rfl, hspelled, rfl⟩
    have htag : (p.ciphertext c).length = (handoverPlaintext p.payload).length + 16 :=
      hideal.tag _ _ _
    have hsmall := p.small
    refine ⟨p.accepted, hspelled.fields, headerSupported_iff.mpr ⟨hspelled.schema, hspelled.kdf,
      hspelled.cipher, hspelled.iterations⟩, p.salt, p.nonce, p.ciphertext c, p.plaintext,
      hspelled.salt, hspelled.nonce, hspelled.ciphertext, p.salt_length, p.nonce_length, ?_, ?_,
      loadsPlaintext_made p, hspelled.digest⟩
    · omega
    · exact (hideal.sealed _ _ _ _).mpr ⟨p, hp, rfl, rfl, rfl, rfl⟩

end Opening

end RcloneSync
