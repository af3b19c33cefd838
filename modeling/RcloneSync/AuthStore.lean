/-
RcloneSync/AuthStore.lean

The tables of the passkey sign-in (db.py): registered keys, open challenges, exchange codes
of the app and registration tickets, and the transactions on them.

Every function is one transaction, or a read.  Where it raises, nothing of it remains; a
consumption that answers `None` has removed the row all the same, or not, as the source
has it.  `now` is the reading of the clock with which a call begins; calls that wait for
the database come to their turn in any order of their readings.
-/
import RcloneSync.JobStore

namespace RcloneSync

open Py

/-! ### Rows -/

inductive WebAuthnMethod
  | passkey | securityKey
  deriving DecidableEq, Repr

inductive ChallengePurpose
  | register | authenticate
  deriving DecidableEq, Repr

/-- A row of `webauthn_credentials`. -/
structure Credential where
  credentialId : String
  method : WebAuthnMethod
  publicKey : List UInt8
  signCount : Int
  transports : List String
  deviceType : String
  backedUp : Bool
  label : String
  createdAt : Time
  lastUsedAt : Option Time
  generation : String
  deriving DecidableEq, Repr

/-- A row of `webauthn_challenges`. -/
structure Challenge where
  id : String
  challenge : List UInt8
  purpose : ChallengePurpose
  method : WebAuthnMethod
  label : String
  native : Bool
  appBinding : String
  accountGeneration : String
  expiresAt : Time
  createdAt : Time
  deriving DecidableEq, Repr

/-- A row of `native_auth_exchanges`. -/
structure Exchange where
  tokenHash : String
  verifierHash : String
  username : String
  accountGeneration : String
  credentialId : String
  credentialGeneration : String
  expiresAt : Time
  createdAt : Time
  deriving DecidableEq, Repr

/-- A row of `native_webauthn_registrations`. -/
structure Registration where
  tokenHash : String
  verifierHash : String
  username : String
  method : WebAuthnMethod
  label : String
  accountGeneration : String
  expiresAt : Time
  createdAt : Time
  deriving DecidableEq, Repr

/-- The tables. -/
structure AuthStore where
  credentials : List Credential
  challenges : List Challenge
  exchanges : List Exchange
  registrations : List Registration

def AuthStore.empty : AuthStore := ⟨[], [], [], []⟩

/-- What the calls raise. -/
inductive AuthError
  | value (message : String)
  | type (message : String)
  | lookup (message : String)
  | integrity (constraint : String)
  deriving DecidableEq, Repr

/-- A number of seconds as a span of time. -/
def seconds (n : Int) : Time := n * 1000000

/-- `secrets.compare_digest` of two texts: both have to be ASCII. -/
def compareDigest (a b : String) : Except AuthError Bool :=
  if a.toList.all Char.isAscii && b.toList.all Char.isAscii then .ok (decide (a = b))
  else .error (.type "comparing strings with non-ASCII characters is not supported")

/-! ### Registered keys -/

/-- What `webauthn_credential_add` is called with. -/
structure CredentialRequest where
  credentialId : String
  method : WebAuthnMethod
  publicKey : List UInt8
  signCount : Int
  transports : List String
  deviceType : String
  backedUp : Bool
  label : String

/-- `webauthn_credential_get`. -/
def AuthStore.credential (s : AuthStore) (id : String) : Option Credential :=
  Tables.find Credential.credentialId s.credentials id

/-- `webauthn_credential_add`; `generation` is the token that it draws. -/
def credentialAdd (r : CredentialRequest) (generation : String) (now : Time) (s : AuthStore) :
    Except AuthError AuthStore :=
  if (s.credential r.credentialId).isSome then
    .error (.integrity "UNIQUE constraint failed: webauthn_credentials.credential_id")
  else .ok { s with
    credentials := s.credentials ++ [{
      credentialId := r.credentialId, method := r.method, publicKey := r.publicKey
      signCount := max 0 r.signCount, transports := firstOccurrences r.transports
      deviceType := takeText 40 r.deviceType, backedUp := r.backedUp
      label := takeText 80 r.label, createdAt := now, lastUsedAt := none
      generation := generation }] }

/-- `webauthn_credential_used`: the counter of the key that was read moves on. -/
def credentialUsed (id expectedGeneration : String) (expectedSignCount signCount : Int)
    (deviceType : String) (backedUp : Bool) (now : Time) (s : AuthStore) : Bool × AuthStore :=
  if expectedGeneration = "" ∨ signCount < expectedSignCount ∨
      (0 < expectedSignCount ∧ signCount = expectedSignCount) then (false, s)
  else
    let hit := fun c : Credential => c.credentialId = id && c.generation = expectedGeneration &&
      c.signCount = expectedSignCount
    (s.credentials.any hit, { s with
      credentials := Tables.updateWhere hit (fun c => { c with
        signCount := max 0 signCount, deviceType := takeText 40 deviceType
        backedUp := backedUp, lastUsedAt := some now }) s.credentials })

/-- `webauthn_credential_delete`. -/
def credentialDelete (id : String) (s : AuthStore) : Bool × AuthStore :=
  (s.credentials.any fun c => c.credentialId = id,
    { s with credentials := s.credentials.filter fun c => c.credentialId ≠ id })

/-! ### Challenges -/

/-- What `webauthn_challenge_create` is called with. -/
structure ChallengeRequest where
  id : String
  challenge : List UInt8
  purpose : ChallengePurpose
  method : WebAuthnMethod
  label : String
  native : Bool
  appBinding : String
  ttlSeconds : Int

/-- The row of a challenge. -/
def ChallengeRequest.row (r : ChallengeRequest) (accountGeneration : String) (now : Time) :
    Challenge where
  id := r.id
  challenge := r.challenge
  purpose := r.purpose
  method := r.method
  label := takeText 80 r.label
  native := r.native
  appBinding := takeText 128 r.appBinding
  accountGeneration := accountGeneration
  expiresAt := now + seconds (max 30 (min r.ttlSeconds 600))
  createdAt := now

/-- `webauthn_challenge_create`. -/
def challengeCreate (r : ChallengeRequest) (accountGeneration : String) (now : Time)
    (s : AuthStore) : Except AuthError AuthStore :=
  let kept := s.challenges.filter fun c => now ≤ c.expiresAt
  if 512 ≤ (kept.filter fun c => c.purpose = r.purpose).length then
    .error (.value "Zu viele offene Passkey-Vorgänge. Bitte kurz warten.")
  else if (Tables.find Challenge.id kept r.id).isSome then
    .error (.integrity "UNIQUE constraint failed: webauthn_challenges.id")
  else .ok { s with challenges := kept ++ [r.row accountGeneration now] }

/-- `webauthn_challenge_consume`: whatever it answers, the row is gone. -/
def challengeConsume (id : String) (purpose : ChallengePurpose) (accountGeneration : String)
    (now : Time) (s : AuthStore) : Except AuthError (Option Challenge) × AuthStore :=
  let answer : Except AuthError (Option Challenge) :=
    match Tables.find Challenge.id s.challenges id with
    | none => .ok none
    | some row =>
      if row.purpose ≠ purpose ∨ row.expiresAt < now then .ok none
      else if accountGeneration = "" then .ok none
      else do
        let same ← compareDigest row.accountGeneration accountGeneration
        return if same then some row else none
  (answer, { s with challenges := s.challenges.filter fun c => c.id ≠ id })

/-! ### Exchange codes -/

/-- What is kept of a table that may hold `n` grants: the newest ones. -/
def keepNewest {ρ : Type} (n : Nat) (token : ρ → String) (createdAt : ρ → Time)
    (rows : List ρ) : List ρ :=
  let victims := (rows.insertionSort fun a b => createdAt b ≤ createdAt a).drop n
  rows.filter fun r => !(victims.map token).contains (token r)

/-- What `native_auth_exchange_create` is called with. -/
structure ExchangeRequest where
  tokenHash : String
  verifierHash : String
  username : String
  credentialId : String
  credentialGeneration : String
  ttlSeconds : Int

/-- The row of an exchange code. -/
def ExchangeRequest.row (r : ExchangeRequest) (accountGeneration : String) (now : Time) :
    Exchange where
  tokenHash := r.tokenHash
  verifierHash := r.verifierHash
  username := r.username
  accountGeneration := accountGeneration
  credentialId := r.credentialId
  credentialGeneration := r.credentialGeneration
  expiresAt := now + seconds (max 15 (min r.ttlSeconds 120))
  createdAt := now

/-- `native_auth_exchange_create`: the row is inserted for the key that it is bound to, if
that key is still registered. -/
def exchangeCreate (r : ExchangeRequest) (accountGeneration : String) (now : Time)
    (s : AuthStore) : Except AuthError (Bool × AuthStore) :=
  if accountGeneration = "" ∨ r.credentialId = "" ∨ r.credentialGeneration = "" then
    .ok (false, s)
  else
    let kept := keepNewest 1023 Exchange.tokenHash Exchange.createdAt
      (s.exchanges.filter fun x => now ≤ x.expiresAt)
    if s.credentials.any fun c => c.credentialId = r.credentialId &&
        c.generation = r.credentialGeneration && c.generation ≠ "" then
      if (Tables.find Exchange.tokenHash kept r.tokenHash).isSome then
        .error (.integrity "UNIQUE constraint failed: native_auth_exchanges.token_hash")
      else .ok (true, { s with exchanges := kept ++ [r.row accountGeneration now] })
    else .ok (false, { s with exchanges := kept })

/-- The checks of `native_auth_exchange_consume` and `native_webauthn_registration_consume`
on a row, in their order. -/
def redeems (expiresAt now : Time) (rowVerifier verifier rowGeneration generation : String) :
    Except AuthError Bool :=
  if expiresAt < now then .ok false
  else do
    let sameVerifier ← compareDigest rowVerifier verifier
    if !sameVerifier || generation = "" then return false
    compareDigest rowGeneration generation

/-- How the two consumptions end: a row that is redeemed is handed out and removed, an expired
one is removed. -/
def redeemRow {ρ : Type} (row : ρ) (rest s : AuthStore) (expired : Bool)
    (valid : Except AuthError Bool) : Except AuthError (Option ρ × AuthStore) := do
  if ← valid then return (some row, rest)
  return (none, if expired then rest else s)

/-- The key that the row is bound to is still registered. -/
def AuthStore.bindingHolds (s : AuthStore) (x : Exchange) : Bool :=
  x.credentialGeneration ≠ "" &&
    s.credentials.any fun c =>
      c.credentialId = x.credentialId && c.generation = x.credentialGeneration

/-- `native_auth_exchange_consume`, with the row in place of its user name. -/
def exchangeConsume (tokenHash verifierHash accountGeneration : String) (now : Time)
    (s : AuthStore) : Except AuthError (Option Exchange × AuthStore) :=
  match Tables.find Exchange.tokenHash s.exchanges tokenHash with
  | none => .ok (none, s)
  | some row =>
    let rest := { s with exchanges := s.exchanges.filter fun x => x.tokenHash ≠ tokenHash }
    if s.bindingHolds row then
      redeemRow row rest s (row.expiresAt < now) (redeems row.expiresAt now row.verifierHash
        verifierHash row.accountGeneration accountGeneration)
    else .ok (none, rest)

/-! ### Registration tickets -/

/-- What `native_webauthn_registration_create` is called with. -/
structure TicketRequest where
  tokenHash : String
  verifierHash : String
  username : String
  method : WebAuthnMethod
  label : String
  ttlSeconds : Int

/-- The row of a registration ticket. -/
def TicketRequest.row (r : TicketRequest) (accountGeneration : String) (now : Time) :
    Registration where
  tokenHash := r.tokenHash
  verifierHash := r.verifierHash
  username := takeText 128 r.username
  method := r.method
  label := takeText 80 r.label
  accountGeneration := accountGeneration
  expiresAt := now + seconds (max 30 (min r.ttlSeconds 600))
  createdAt := now

/-- `native_webauthn_registration_create`. -/
def registrationCreate (r : TicketRequest) (accountGeneration : String) (now : Time)
    (s : AuthStore) : Except AuthError AuthStore :=
  let kept := keepNewest 255 Registration.tokenHash Registration.createdAt
    (s.registrations.filter fun x => now ≤ x.expiresAt)
  if (Tables.find Registration.tokenHash kept r.tokenHash).isSome then
    .error (.integrity "UNIQUE constraint failed: native_webauthn_registrations.token_hash")
  else .ok { s with registrations := kept ++ [r.row accountGeneration now] }

/-- `native_webauthn_registration_consume`. -/
def registrationConsume (tokenHash verifierHash accountGeneration : String) (now : Time)
    (s : AuthStore) : Except AuthError (Option Registration × AuthStore) :=
  match Tables.find Registration.tokenHash s.registrations tokenHash with
  | none => .ok (none, s)
  | some row =>
    let rest :=
      { s with registrations := s.registrations.filter fun x => x.tokenHash ≠ tokenHash }
    redeemRow row rest s (row.expiresAt < now) (redeems row.expiresAt now row.verifierHash
      verifierHash row.accountGeneration accountGeneration)

end RcloneSync
