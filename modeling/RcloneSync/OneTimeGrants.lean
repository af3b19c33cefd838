/-
RcloneSync/OneTimeGrants.lean

One-time grants of the sign-in.

Three kinds of grants are issued and consumed by requests that run side by side: the
challenge of a passkey ceremony, the exchange code that takes a finished sign-in over to
the app, and the ticket that lets the app register a key.  A request is a sequence of
transactions, each under the guard that compares the account generation it began with to
the one in force; between them anything may happen.

Along a run every issue and every consumption goes into a ledger (`Grants.Ledger`), with
the account generation that was in force.  The ledgers are sound in every reachable state
(`grants_sound`), which is most of `grants_consumed_once`.  The rest is about deleted keys:
an exchange code is bound to the generation of a key, which is drawn anew at every
registration, so that no code that was issued before a key was deleted is consumed after
it, whatever is registered again under its name.
-/
import RcloneSync.AuthStore
import RcloneSync.Grants
import RcloneSync.Runs

namespace RcloneSync

open Py Runs Grants

/-! ### Requests -/

/-- `account_generation_guard`, called with the generation that a request began with, where
another one may be in force. -/
def accountGenerationGuard (expected current : String) : Except AuthError String :=
  let revoked :=
    AuthError.value "Die Freigabe wurde widerrufen. Starte den Vorgang erneut."
  if expected = "" then .error revoked
  else do
    let same ← compareDigest expected current
    if same then return current else throw revoked

/-- What `finish_authentication` returns. -/
structure Authentication where
  username : String
  accountGeneration : String
  credentialId : String
  credentialGeneration : String
  native : Bool
  method : WebAuthnMethod
  appBinding : String

/-- How far a request has come that finishes a ceremony. -/
inductive Ceremony
  | idle
  | challenged (generation : String) (challenge : Challenge)
  | checked (generation : String) (challenge : Challenge) (stored : Credential)
      (newSignCount : Int)
  | proven (result : Authentication)

/-- What the library returns for a registration that it accepts. -/
structure VerifiedRegistration where
  credentialId : String
  publicKey : List UInt8
  signCount : Int
  transports : List String
  deviceType : String
  backedUp : Bool

/-- What a challenge was consumed for. -/
structure ChallengeUse where
  purpose : ChallengePurpose
  generation : String
  now : Time

/-- What was shown for a code or a ticket. -/
structure CodeUse where
  verifierHash : String
  generation : String
  now : Time

/-- The tables, the account generation in force, the requests on their way, the tokens drawn
for keys so far, and the ledgers. -/
structure AuthSystem where
  store : AuthStore
  generation : String
  username : String
  calls : Nat → Ceremony
  tokens : List String
  challenges : Ledger Challenge String ChallengeUse
  exchanges : Ledger Exchange String CodeUse
  registrations : Ledger Registration String CodeUse

def AuthSystem.init : AuthSystem :=
  ⟨.empty, "", "", fun _ => .idle, [], .empty, .empty, .empty⟩

/-- The steps of the requests.  What the library accepts as an assertion or as a
registration is up to the request. -/
inductive AuthAction
  | rotate (generation username : String)
  | challenge (generation : String) (request : ChallengeRequest) (now : Time)
  | begin (call : Nat) (generation id : String) (purpose : ChallengePurpose) (now : Time)
  | check (call : Nat) (credentialId : String) (newSignCount : Int)
  | used (call : Nat) (deviceType : String) (backedUp : Bool) (now : Time)
  | exchange (call : Nat) (tokenHash : String) (now : Time)
  | redeem (tokenHash verifierHash : String) (now : Time)
  | ticket (generation : String) (request : TicketRequest) (now : Time)
  | redeemTicket (tokenHash verifierHash : String) (now : Time)
  | register (call : Nat) (expectedNative : Option Bool) (verified : VerifiedRegistration)
      (token : String) (now : Time)
  | delete (generation id : String)

def AuthSystem.setCall (e : AuthSystem) (call : Nat) (c : Ceremony) : AuthSystem :=
  { e with calls := Function.update e.calls call c }

/-- The guard lets the request pass. -/
def AuthSystem.admits (e : AuthSystem) (generation : String) : Bool :=
  (accountGenerationGuard generation e.generation).isOk

/-- `registration_options` and `authentication_options`: a challenge is stored. -/
def AuthSystem.challenge (e : AuthSystem) (generation : String) (r : ChallengeRequest)
    (now : Time) : AuthSystem :=
  match challengeCreate r generation now e.store with
  | .ok store =>
    { e with
      store := store
      challenges := e.challenges.issue (r.row generation now) e.generation }
  | .error _ => e

/-- `finish_authentication` and `finish_registration` begin: the challenge is consumed. -/
def AuthSystem.begin (e : AuthSystem) (call : Nat) (generation id : String)
    (purpose : ChallengePurpose) (now : Time) : AuthSystem :=
  let result := challengeConsume id purpose generation now e.store
  match result.1 with
  | .ok (some row) =>
    { e with
      store := result.2
      calls := Function.update e.calls call (.challenged generation row)
      challenges := e.challenges.use row ⟨purpose, e.generation, now⟩ }
  | _ => { e with store := result.2 }

/-- `finish_authentication` reads the key and verifies the assertion. -/
def AuthSystem.check (e : AuthSystem) (call : Nat) (credentialId : String)
    (newSignCount : Int) : AuthSystem :=
  match e.calls call, e.store.credential credentialId with
  | .challenged generation challenge, some stored =>
    if challenge.purpose = .authenticate ∧ stored.method = challenge.method ∧
        ¬(0 < stored.signCount ∧ newSignCount ≤ stored.signCount) then
      e.setCall call (.checked generation challenge stored newSignCount)
    else e.setCall call .idle
  | _, _ => e.setCall call .idle

/-- `finish_authentication` ends: the key's counter moves on and the result is returned. -/
def AuthSystem.used (e : AuthSystem) (call : Nat) (deviceType : String) (backedUp : Bool)
    (now : Time) : AuthSystem :=
  match e.calls call with
  | .checked generation challenge stored newSignCount =>
    if e.admits generation then
      let result := credentialUsed stored.credentialId stored.generation stored.signCount
        newSignCount deviceType backedUp now e.store
      if result.1 then
        { e with
          store := result.2
          calls := Function.update e.calls call (.proven {
            username := e.username, accountGeneration := generation
            credentialId := stored.credentialId
            credentialGeneration := stored.generation
            native := challenge.native, method := challenge.method
            appBinding := challenge.appBinding }) }
      else e.setCall call .idle
    else e.setCall call .idle
  | _ => e

/-- What the sign-in route asks for when the app began the sign-in. -/
def Authentication.request (a : Authentication) (tokenHash : String) : ExchangeRequest where
  tokenHash := tokenHash
  verifierHash := a.appBinding
  username := a.username
  credentialId := a.credentialId
  credentialGeneration := a.credentialGeneration
  ttlSeconds := 60

/-- The sign-in route hands the app a code. -/
def AuthSystem.exchange (e : AuthSystem) (call : Nat) (tokenHash : String) (now : Time) :
    AuthSystem :=
  match e.calls call with
  | .proven result =>
    if result.native && e.admits result.accountGeneration then
      match exchangeCreate (result.request tokenHash) e.generation now e.store with
      | .ok (true, store) =>
        { e with
          store := store
          calls := Function.update e.calls call .idle
          exchanges := e.exchanges.issue ((result.request tokenHash).row e.generation now)
            e.generation }
      | .ok (false, store) => { e.setCall call .idle with store := store }
      | .error _ => e.setCall call .idle
    else e.setCall call .idle
  | _ => e

/-- `exchange_native_session`: the code is consumed under the guard.  The look at the code
before it (`native_auth_exchange_pending`) only refuses what is refused here. -/
def AuthSystem.redeem (e : AuthSystem) (tokenHash verifierHash : String) (now : Time) :
    AuthSystem :=
  match exchangeConsume tokenHash verifierHash e.generation now e.store with
  | .ok (some row, store) =>
    { e with
      store := store
      exchanges := e.exchanges.use row ⟨verifierHash, e.generation, now⟩ }
  | .ok (none, store) => { e with store := store }
  | .error _ => e

/-- `create_native_registration_ticket`. -/
def AuthSystem.ticket (e : AuthSystem) (generation : String) (r : TicketRequest) (now : Time) :
    AuthSystem :=
  match registrationCreate r generation now e.store with
  | .ok store =>
    { e with
      store := store
      registrations := e.registrations.issue (r.row generation now) e.generation }
  | .error _ => e

/-- `begin_native_registration`: the ticket is consumed under the guard. -/
def AuthSystem.redeemTicket (e : AuthSystem) (tokenHash verifierHash : String) (now : Time) :
    AuthSystem :=
  match registrationConsume tokenHash verifierHash e.generation now e.store with
  | .ok (some row, store) =>
    { e with
      store := store
      registrations := e.registrations.use row ⟨verifierHash, e.generation, now⟩ }
  | .ok (none, store) => { e with store := store }
  | .error _ => e

/-- The row that `finish_registration` asks for. -/
def VerifiedRegistration.request (v : VerifiedRegistration) (c : Challenge) :
    CredentialRequest where
  credentialId := v.credentialId
  method := c.method
  publicKey := v.publicKey
  signCount := v.signCount
  transports := v.transports
  deviceType := v.deviceType
  backedUp := v.backedUp
  label := c.label

/-- `finish_registration` ends: the key is registered. -/
def AuthSystem.register (e : AuthSystem) (call : Nat) (expectedNative : Option Bool)
    (v : VerifiedRegistration) (token : String) (now : Time) : AuthSystem :=
  match e.calls call with
  | .challenged generation challenge =>
    if challenge.purpose = .register ∧ expectedNative.all (fun n => challenge.native = n) ∧
        e.admits generation then
      match credentialAdd (v.request challenge) token now e.store with
      | .ok store => { e.setCall call .idle with store := store, tokens := token :: e.tokens }
      | .error _ => e.setCall call .idle
    else e.setCall call .idle
  | _ => e

def authStep (e : AuthSystem) : AuthAction → AuthSystem
  | .rotate generation username => { e with generation := generation, username := username }
  | .challenge generation r now => if e.admits generation then e.challenge generation r now else e
  | .begin call generation id purpose now =>
    if e.admits generation then e.begin call generation id purpose now else e
  | .check call credentialId newSignCount => e.check call credentialId newSignCount
  | .used call deviceType backedUp now => e.used call deviceType backedUp now
  | .exchange call tokenHash now => e.exchange call tokenHash now
  | .redeem tokenHash verifierHash now => e.redeem tokenHash verifierHash now
  | .ticket generation r now => if e.admits generation then e.ticket generation r now else e
  | .redeemTicket tokenHash verifierHash now => e.redeemTicket tokenHash verifierHash now
  | .register call expectedNative v token now => e.register call expectedNative v token now
  | .delete generation id =>
    if e.admits generation then { e with store := (credentialDelete id e.store).2 } else e

/-- `secrets.token_hex` draws a token that was not drawn before. -/
def AuthAction.fresh (e : AuthSystem) : AuthAction → Bool
  | .register _ _ _ token _ => !e.tokens.contains token
  | _ => true

/-- The system, where no token is drawn twice. -/
def freshStep (e : AuthSystem) (a : AuthAction) : Option AuthSystem :=
  if a.fresh e then some (authStep e a) else none

/-! ### What the transactions do -/

section Transactions

variable {s t : AuthStore} {generation : String} {now : Time}

theorem compareDigest_true {a b : String} (h : compareDigest a b = .ok true) : a = b := by
  unfold compareDigest at h
  split_ifs at h
  exact of_decide_eq_true (Except.ok.inj h)

theorem accountGenerationGuard_ok {expected current g : String}
    (h : accountGenerationGuard expected current = .ok g) : expected = current := by
  unfold accountGenerationGuard at h
  by_cases hblank : expected = ""
  · rw [if_pos hblank] at h
    cases h
  · rw [if_neg hblank] at h
    obtain ⟨same, hsame, h⟩ := bind_ok.mp h
    cases same with
    | false => cases h
    | true => exact compareDigest_true hsame

theorem challengeCreate_spec {r : ChallengeRequest}
    (h : challengeCreate r generation now s = .ok t) :
    ∃ kept, kept.Sublist s.challenges ∧
      t = { s with challenges := kept ++ [r.row generation now] } := by
  unfold challengeCreate at h
  simp only at h
  split_ifs at h
  exact ⟨_, List.filter_sublist, (Except.ok.inj h).symm⟩

theorem challengeConsume_spec {id : String} {purpose : ChallengePurpose} {row : Challenge}
    (h : (challengeConsume id purpose generation now s).1 = .ok (some row)) :
    row ∈ s.challenges ∧ row.id = id ∧ row.purpose = purpose ∧ now ≤ row.expiresAt ∧
      row.accountGeneration = generation := by
  unfold challengeConsume at h
  simp only at h
  cases hfind : Tables.find Challenge.id s.challenges id with
  | none =>
    rw [hfind] at h
    cases h
  | some found =>
    rw [hfind] at h
    simp only at h
    split_ifs at h with hrefused hblank
    · cases h
    · cases h
    · obtain ⟨hpurpose, hexpiry⟩ := not_or.mp hrefused
      obtain ⟨same, hsame, h⟩ := bind_ok.mp h
      have h : (if same = true then some found else none) = some row := Except.ok.inj h
      split_ifs at h with htrue
      obtain rfl := Option.some.inj h
      exact ⟨Tables.mem_of_find hfind, Tables.key_of_find hfind, not_not.mp hpurpose,
        Int.not_lt.mp hexpiry, compareDigest_true (htrue ▸ hsame)⟩

theorem keepNewest_sublist {ρ : Type} (n : Nat) (token : ρ → String) (createdAt : ρ → Time)
    (rows : List ρ) : (keepNewest n token createdAt rows).Sublist rows :=
  List.filter_sublist

theorem exchangeCreate_spec {r : ExchangeRequest} {created : Bool}
    (h : exchangeCreate r generation now s = .ok (created, t)) :
    ∃ kept, kept.Sublist s.exchanges ∧
      ((created = false ∧ t = { s with exchanges := kept }) ∨
        (created = true ∧ t = { s with exchanges := kept ++ [r.row generation now] } ∧
          ∃ c ∈ s.credentials, c.generation = r.credentialGeneration)) := by
  have hkept : (keepNewest 1023 Exchange.tokenHash Exchange.createdAt
      (s.exchanges.filter fun x => now ≤ x.expiresAt)).Sublist s.exchanges :=
    (keepNewest_sublist _ _ _ _).trans List.filter_sublist
  unfold exchangeCreate at h
  generalize keepNewest 1023 Exchange.tokenHash Exchange.createdAt
    (s.exchanges.filter fun x => now ≤ x.expiresAt) = kept at h hkept
  split_ifs at h with hblank hbound
  · obtain ⟨rfl, rfl⟩ := Prod.mk.inj (Except.ok.inj h)
    exact ⟨s.exchanges, List.Sublist.refl _, Or.inl ⟨rfl, rfl⟩⟩
  · simp only at h
    split_ifs at h
    obtain ⟨rfl, rfl⟩ := Prod.mk.inj (Except.ok.inj h)
    obtain ⟨c, hc, hmatch⟩ := List.any_eq_true.mp hbound
    simp only [Bool.and_eq_true, decide_eq_true_eq] at hmatch
    exact ⟨kept, hkept, Or.inr ⟨rfl, rfl, c, hc, hmatch.1.2⟩⟩
  · obtain ⟨rfl, rfl⟩ := Prod.mk.inj (Except.ok.inj h)
    exact ⟨kept, hkept, Or.inl ⟨rfl, rfl⟩⟩

theorem redeems_true {expiresAt : Time} {rowVerifier verifier rowGeneration : String}
    (h : redeems expiresAt now rowVerifier verifier rowGeneration generation = .ok true) :
    now ≤ expiresAt ∧ rowVerifier = verifier ∧ rowGeneration = generation := by
  unfold redeems at h
  by_cases hexpired : expiresAt < now
  · rw [if_pos hexpired] at h
    cases h
  · rw [if_neg hexpired] at h
    obtain ⟨same, hsame, h⟩ := bind_ok.mp h
    split_ifs at h with hrefused
    · cases h
    · cases same with
      | false => exact absurd rfl hrefused
      | true => exact ⟨Int.not_lt.mp hexpired, compareDigest_true hsame, compareDigest_true h⟩

theorem redeemRow_ok {ρ : Type} {row : ρ} {rest : AuthStore} {expired : Bool}
    {valid : Except AuthError Bool} {answer : Option ρ}
    (h : redeemRow row rest s expired valid = .ok (answer, t)) :
    (answer = some row ∧ t = rest ∧ valid = .ok true) ∨ (answer = none ∧ (t = rest ∨ t = s)) := by
  obtain ⟨v, hvalid, h⟩ := bind_ok.mp h
  cases v with
  | true =>
    obtain ⟨rfl, rfl⟩ := Prod.mk.inj (Except.ok.inj h)
    exact Or.inl ⟨rfl, rfl, hvalid⟩
  | false =>
    obtain ⟨rfl, rfl⟩ := Prod.mk.inj (Except.ok.inj h)
    cases expired with
    | true => exact Or.inr ⟨rfl, Or.inl rfl⟩
    | false => exact Or.inr ⟨rfl, Or.inr rfl⟩

theorem exchangeConsume_spec {tokenHash verifierHash : String} {answer : Option Exchange}
    (h : exchangeConsume tokenHash verifierHash generation now s = .ok (answer, t)) :
    ∃ rows, rows.Sublist s.exchanges ∧ t = { s with exchanges := rows } ∧
      ∀ row ∈ answer, row ∈ s.exchanges ∧ row.tokenHash = tokenHash ∧
        rows = (s.exchanges.filter fun x => x.tokenHash ≠ tokenHash) ∧
        now ≤ row.expiresAt ∧ row.verifierHash = verifierHash ∧
        row.accountGeneration = generation ∧ s.bindingHolds row = true := by
  have hrest : (s.exchanges.filter fun x => x.tokenHash ≠ tokenHash).Sublist s.exchanges :=
    List.filter_sublist
  unfold exchangeConsume at h
  cases hfind : Tables.find Exchange.tokenHash s.exchanges tokenHash with
  | none =>
    rw [hfind] at h
    obtain ⟨rfl, rfl⟩ := Prod.mk.inj (Except.ok.inj h)
    exact ⟨s.exchanges, List.Sublist.refl _, rfl, by simp⟩
  | some found =>
    rw [hfind] at h
    simp only at h
    by_cases hbinding : s.bindingHolds found = true
    · rw [if_pos hbinding] at h
      rcases redeemRow_ok h with ⟨rfl, rfl, hvalid⟩ | ⟨rfl, rfl | rfl⟩
      · refine ⟨_, hrest, rfl, fun row hrow => ?_⟩
        obtain rfl := Option.some.inj hrow
        obtain ⟨hexpiry, hverifier, hgeneration⟩ := redeems_true hvalid
        exact ⟨Tables.mem_of_find hfind, Tables.key_of_find hfind, rfl, hexpiry, hverifier,
          hgeneration, hbinding⟩
      · exact ⟨_, hrest, rfl, by simp⟩
      · exact ⟨t.exchanges, List.Sublist.refl _, rfl, by simp⟩
    · rw [if_neg hbinding] at h
      obtain ⟨rfl, rfl⟩ := Prod.mk.inj (Except.ok.inj h)
      exact ⟨_, hrest, rfl, by simp⟩

theorem registrationCreate_spec {r : TicketRequest}
    (h : registrationCreate r generation now s = .ok t) :
    ∃ kept, kept.Sublist s.registrations ∧
      t = { s with registrations := kept ++ [r.row generation now] } := by
  unfold registrationCreate at h
  simp only at h
  split_ifs at h
  exact ⟨_, (keepNewest_sublist _ _ _ _).trans List.filter_sublist, (Except.ok.inj h).symm⟩

theorem registrationConsume_spec {tokenHash verifierHash : String}
    {answer : Option Registration}
    (h : registrationConsume tokenHash verifierHash generation now s = .ok (answer, t)) :
    ∃ rows, rows.Sublist s.registrations ∧ t = { s with registrations := rows } ∧
      ∀ row ∈ answer, row ∈ s.registrations ∧ row.tokenHash = tokenHash ∧
        rows = (s.registrations.filter fun x => x.tokenHash ≠ tokenHash) ∧
        now ≤ row.expiresAt ∧ row.verifierHash = verifierHash ∧
        row.accountGeneration = generation := by
  have hrest : (s.registrations.filter fun x => x.tokenHash ≠ tokenHash).Sublist
      s.registrations := List.filter_sublist
  unfold registrationConsume at h
  cases hfind : Tables.find Registration.tokenHash s.registrations tokenHash with
  | none =>
    rw [hfind] at h
    obtain ⟨rfl, rfl⟩ := Prod.mk.inj (Except.ok.inj h)
    exact ⟨s.registrations, List.Sublist.refl _, rfl, by simp⟩
  | some found =>
    rw [hfind] at h
    rcases redeemRow_ok h with ⟨rfl, rfl, hvalid⟩ | ⟨rfl, rfl | rfl⟩
    · refine ⟨_, hrest, rfl, fun row hrow => ?_⟩
      obtain rfl := Option.some.inj hrow
      obtain ⟨hexpiry, hverifier, hgeneration⟩ := redeems_true hvalid
      exact ⟨Tables.mem_of_find hfind, Tables.key_of_find hfind, rfl, hexpiry, hverifier,
        hgeneration⟩
    · exact ⟨_, hrest, rfl, by simp⟩
    · exact ⟨t.registrations, List.Sublist.refl _, rfl, by simp⟩

theorem credentialAdd_spec {r : CredentialRequest} {token : String}
    (h : credentialAdd r token now s = .ok t) :
    ∃ c, t = { s with credentials := s.credentials ++ [c] } ∧ c.generation = token := by
  unfold credentialAdd at h
  split_ifs at h
  exact ⟨_, (Except.ok.inj h).symm, rfl⟩

/-- A key that was used is still the key that was registered. -/
theorem credentialUsed_spec (s : AuthStore) (id token : String) (count new : Int)
    (deviceType : String) (backedUp : Bool) (now : Time) :
    ∃ rows, (credentialUsed id token count new deviceType backedUp now s).2
        = { s with credentials := rows } ∧
      ∀ c ∈ rows, ∃ old ∈ s.credentials, c.credentialId = old.credentialId ∧
        c.generation = old.generation := by
  unfold credentialUsed
  split_ifs
  · exact ⟨s.credentials, rfl, fun c hc => ⟨c, hc, rfl, rfl⟩⟩
  · refine ⟨_, rfl, fun c hc => ?_⟩
    obtain ⟨old, hold, rfl⟩ := List.mem_map.mp hc
    refine ⟨old, hold, ?_⟩
    split_ifs
    · exact ⟨rfl, rfl⟩
    · exact ⟨rfl, rfl⟩

end Transactions

/-! ### The ledgers are sound -/

/-- The challenge was consumed for its own purpose, in time, and under its generation. -/
def Challenge.UsedAs (row : Challenge) (u : ChallengeUse) : Prop :=
  row.purpose = u.purpose ∧ u.now ≤ row.expiresAt ∧ row.accountGeneration = u.generation

/-- The code was consumed with its own verifier, in time, and under its generation. -/
def Exchange.UsedAs (row : Exchange) (u : CodeUse) : Prop :=
  row.verifierHash = u.verifierHash ∧ u.now ≤ row.expiresAt ∧
    row.accountGeneration = u.generation

/-- The ticket was consumed with its own verifier, in time, and under its generation. -/
def Registration.UsedAs (row : Registration) (u : CodeUse) : Prop :=
  row.verifierHash = u.verifierHash ∧ u.now ≤ row.expiresAt ∧
    row.accountGeneration = u.generation

/-- The ledgers are in order, and every generation of a key was drawn. -/
structure GrantsSound (e : AuthSystem) : Prop where
  challenges : Sound (fun row g => row.accountGeneration = g) Challenge.UsedAs
    e.store.challenges e.challenges
  exchanges : Sound (fun row g => row.accountGeneration = g) Exchange.UsedAs
    e.store.exchanges e.exchanges
  registrations : Sound (fun row g => row.accountGeneration = g) Registration.UsedAs
    e.store.registrations e.registrations
  drawn : ∀ c ∈ e.store.credentials, c.generation ∈ e.tokens
  bound : ∀ i ∈ e.exchanges.issues, i.1.credentialGeneration ∈ e.tokens

theorem grantsSound_init : GrantsSound .init :=
  ⟨sound_empty, sound_empty, sound_empty, by simp [AuthSystem.init, AuthStore.empty],
    by simp [AuthSystem.init, Ledger.empty]⟩

theorem admits_eq {e : AuthSystem} {generation : String} (h : e.admits generation = true) :
    generation = e.generation := by
  unfold AuthSystem.admits at h
  cases hguard : accountGenerationGuard generation e.generation with
  | error err =>
    rw [hguard] at h
    cases h
  | ok g => exact accountGenerationGuard_ok hguard

section Steps

variable {e : AuthSystem}

theorem GrantsSound.setCall (h : GrantsSound e) (call : Nat) (c : Ceremony) :
    GrantsSound (e.setCall call c) :=
  ⟨h.challenges, h.exchanges, h.registrations, h.drawn, h.bound⟩

theorem GrantsSound.challenge (h : GrantsSound e) {generation : String}
    (hguard : generation = e.generation) (r : ChallengeRequest) (now : Time) :
    GrantsSound (e.challenge generation r now) := by
  unfold AuthSystem.challenge
  cases hcreate : challengeCreate r generation now e.store with
  | error err => exact h
  | ok store =>
    obtain ⟨kept, hkept, rfl⟩ := challengeCreate_spec hcreate
    exact ⟨(h.challenges.drop hkept).store hguard, h.exchanges, h.registrations, h.drawn, h.bound⟩

theorem GrantsSound.begin (h : GrantsSound e) {generation : String}
    (hguard : generation = e.generation) (call : Nat) (id : String) (purpose : ChallengePurpose)
    (now : Time) : GrantsSound (e.begin call generation id purpose now) := by
  have hdropped : Sound (fun row g => row.accountGeneration = g) Challenge.UsedAs
      (e.store.challenges.filter fun c => c.id ≠ id) e.challenges :=
    h.challenges.drop List.filter_sublist
  unfold AuthSystem.begin
  simp only
  cases hconsume : (challengeConsume id purpose generation now e.store).1 with
  | error err => exact ⟨hdropped, h.exchanges, h.registrations, h.drawn, h.bound⟩
  | ok answer =>
    cases answer with
    | none => exact ⟨hdropped, h.exchanges, h.registrations, h.drawn, h.bound⟩
    | some row =>
      obtain ⟨hrow, hid, hpurpose, hexpiry, hgeneration⟩ := challengeConsume_spec hconsume
      exact ⟨h.challenges.hand hrow (by simp [hid])
        ⟨hpurpose, hexpiry, hgeneration.trans hguard⟩, h.exchanges, h.registrations, h.drawn,
        h.bound⟩

theorem GrantsSound.check (h : GrantsSound e) (call : Nat) (credentialId : String)
    (newSignCount : Int) : GrantsSound (e.check call credentialId newSignCount) := by
  unfold AuthSystem.check
  split
  · split_ifs
    · exact h.setCall call _
    · exact h.setCall call _
  · exact h.setCall call _

theorem GrantsSound.used (h : GrantsSound e) (call : Nat) (deviceType : String)
    (backedUp : Bool) (now : Time) : GrantsSound (e.used call deviceType backedUp now) := by
  unfold AuthSystem.used
  cases e.calls call with
  | checked generation challenge stored newSignCount =>
    obtain ⟨rows, hrows, hkeys⟩ := credentialUsed_spec e.store stored.credentialId
      stored.generation stored.signCount newSignCount deviceType backedUp now
    simp only [hrows]
    split_ifs
    · refine ⟨h.challenges, h.exchanges, h.registrations, fun c hc => ?_, h.bound⟩
      obtain ⟨old, hold, -, hgeneration⟩ := hkeys c hc
      rw [hgeneration]
      exact h.drawn old hold
    · exact h.setCall call _
    · exact h.setCall call _
  | _ => exact h

theorem GrantsSound.exchange (h : GrantsSound e) (call : Nat) (tokenHash : String)
    (now : Time) : GrantsSound (e.exchange call tokenHash now) := by
  unfold AuthSystem.exchange
  cases e.calls call with
  | proven result =>
    simp only
    split_ifs
    · cases hcreate : exchangeCreate (result.request tokenHash) e.generation now e.store with
      | error err => exact h.setCall call _
      | ok answer =>
        obtain ⟨created, store⟩ := answer
        obtain ⟨kept, hkept, ⟨rfl, rfl⟩ | ⟨rfl, rfl, c, hc, hgeneration⟩⟩ :=
          exchangeCreate_spec hcreate
        · exact ⟨h.challenges, h.exchanges.drop hkept, h.registrations, h.drawn, h.bound⟩
        · refine ⟨h.challenges, (h.exchanges.drop hkept).store rfl, h.registrations, h.drawn,
            fun i hi => ?_⟩
          rcases List.mem_append.mp hi with hi | hi
          · exact h.bound i hi
          · obtain rfl := List.mem_singleton.mp hi
            have hdrawn := h.drawn c hc
            rw [hgeneration] at hdrawn
            exact hdrawn
    · exact h.setCall call _
  | _ => exact h

theorem GrantsSound.redeem (h : GrantsSound e) (tokenHash verifierHash : String)
    (now : Time) : GrantsSound (e.redeem tokenHash verifierHash now) := by
  unfold AuthSystem.redeem
  cases hconsume : exchangeConsume tokenHash verifierHash e.generation now e.store with
  | error err => exact h
  | ok result =>
    obtain ⟨answer, store⟩ := result
    obtain ⟨rows, hrows, rfl, hanswer⟩ := exchangeConsume_spec hconsume
    cases answer with
    | none => exact ⟨h.challenges, h.exchanges.drop hrows, h.registrations, h.drawn, h.bound⟩
    | some row =>
      obtain ⟨hrow, htoken, rfl, hexpiry, hverifier, hgeneration, -⟩ := hanswer row rfl
      exact ⟨h.challenges, h.exchanges.hand hrow (by simp [htoken])
        ⟨hverifier, hexpiry, hgeneration⟩, h.registrations, h.drawn, h.bound⟩

theorem GrantsSound.ticket (h : GrantsSound e) {generation : String}
    (hguard : generation = e.generation) (r : TicketRequest) (now : Time) :
    GrantsSound (e.ticket generation r now) := by
  unfold AuthSystem.ticket
  cases hcreate : registrationCreate r generation now e.store with
  | error err => exact h
  | ok store =>
    obtain ⟨kept, hkept, rfl⟩ := registrationCreate_spec hcreate
    exact ⟨h.challenges, h.exchanges, (h.registrations.drop hkept).store hguard, h.drawn, h.bound⟩

theorem GrantsSound.redeemTicket (h : GrantsSound e) (tokenHash verifierHash : String)
    (now : Time) : GrantsSound (e.redeemTicket tokenHash verifierHash now) := by
  unfold AuthSystem.redeemTicket
  cases hconsume : registrationConsume tokenHash verifierHash e.generation now e.store with
  | error err => exact h
  | ok result =>
    obtain ⟨answer, store⟩ := result
    obtain ⟨rows, hrows, rfl, hanswer⟩ := registrationConsume_spec hconsume
    cases answer with
    | none => exact ⟨h.challenges, h.exchanges, h.registrations.drop hrows, h.drawn, h.bound⟩
    | some row =>
      obtain ⟨hrow, htoken, rfl, hexpiry, hverifier, hgeneration⟩ := hanswer row rfl
      exact ⟨h.challenges, h.exchanges, h.registrations.hand hrow (by simp [htoken])
        ⟨hverifier, hexpiry, hgeneration⟩, h.drawn, h.bound⟩

theorem GrantsSound.register (h : GrantsSound e) (call : Nat) (expectedNative : Option Bool)
    (v : VerifiedRegistration) (token : String) (now : Time) :
    GrantsSound (e.register call expectedNative v token now) := by
  unfold AuthSystem.register
  cases e.calls call with
  | challenged generation challenge =>
    simp only
    split_ifs
    · cases hadd : credentialAdd (v.request challenge) token now e.store with
      | error err => exact h.setCall call _
      | ok store =>
        obtain ⟨c, rfl, hc⟩ := credentialAdd_spec hadd
        refine ⟨h.challenges, h.exchanges, h.registrations, fun c' hc' => ?_,
          fun i hi => List.mem_cons_of_mem _ (h.bound i hi)⟩
        rcases List.mem_append.mp hc' with hc' | hc'
        · exact List.mem_cons_of_mem _ (h.drawn c' hc')
        · obtain rfl := List.mem_singleton.mp hc'
          exact hc ▸ List.mem_cons_self
    · exact h.setCall call _
  | _ => exact h

end Steps

/-- **Every step keeps the ledgers sound.** -/
theorem GrantsSound.step {e : AuthSystem} (h : GrantsSound e) (a : AuthAction) :
    GrantsSound (authStep e a) := by
  cases a with
  | rotate generation username =>
    exact ⟨h.challenges, h.exchanges, h.registrations, h.drawn, h.bound⟩
  | challenge generation r now =>
    simp only [authStep]
    split_ifs with hguard
    · exact h.challenge (admits_eq hguard) r now
    · exact h
  | begin call generation id purpose now =>
    simp only [authStep]
    split_ifs with hguard
    · exact h.begin (admits_eq hguard) call id purpose now
    · exact h
  | check call credentialId newSignCount => exact h.check call credentialId newSignCount
  | used call deviceType backedUp now => exact h.used call deviceType backedUp now
  | exchange call tokenHash now => exact h.exchange call tokenHash now
  | redeem tokenHash verifierHash now => exact h.redeem tokenHash verifierHash now
  | ticket generation r now =>
    simp only [authStep]
    split_ifs with hguard
    · exact h.ticket (admits_eq hguard) r now
    · exact h
  | redeemTicket tokenHash verifierHash now => exact h.redeemTicket tokenHash verifierHash now
  | register call expectedNative v token now => exact h.register call expectedNative v token now
  | delete generation id =>
    simp only [authStep]
    split_ifs
    · exact ⟨h.challenges, h.exchanges, h.registrations,
        fun c hc => h.drawn c (List.mem_filter.mp hc).1, h.bound⟩
    · exact h

theorem grants_sound {as : List AuthAction} {e : AuthSystem}
    (h : Run (Steps freshStep) .init as e) : GrantsSound e := by
  refine h.preserves GrantsSound (fun s a t hs hstep => ?_) grantsSound_init
  unfold Steps freshStep at hstep
  split_ifs at hstep
  exact Option.some.inj hstep ▸ hs.step a

/-! ### Deleted keys -/

/-- What a step does to the keys and to the codes that were consumed. -/
structure KeysKept (e e' : AuthSystem) : Prop where
  tokens : ∀ g ∈ e.tokens, g ∈ e'.tokens
  keys : ∀ c ∈ e'.store.credentials, c.generation ∉ e.tokens ∨
    ∃ old ∈ e.store.credentials, c.credentialId = old.credentialId ∧ c.generation = old.generation
  uses : e'.exchanges.uses = e.exchanges.uses ∨
    ∃ u, e'.exchanges.uses = e.exchanges.uses ++ [u] ∧ e.store.bindingHolds u.1 = true

theorem keysKept_same {e e' : AuthSystem} (hkeys : e'.store.credentials = e.store.credentials)
    (htokens : e'.tokens = e.tokens) (huses : e'.exchanges.uses = e.exchanges.uses) :
    KeysKept e e' :=
  ⟨fun _ hg => htokens ▸ hg, fun c hc => Or.inr ⟨c, hkeys ▸ hc, rfl, rfl⟩, Or.inl huses⟩

section Steps

variable {e : AuthSystem}

theorem keysKept_challenge (generation : String) (r : ChallengeRequest) (now : Time) :
    KeysKept e (e.challenge generation r now) := by
  unfold AuthSystem.challenge
  cases hcreate : challengeCreate r generation now e.store with
  | error err => exact keysKept_same rfl rfl rfl
  | ok store =>
    obtain ⟨kept, -, rfl⟩ := challengeCreate_spec hcreate
    exact keysKept_same rfl rfl rfl

theorem keysKept_begin (call : Nat) (generation id : String) (purpose : ChallengePurpose)
    (now : Time) : KeysKept e (e.begin call generation id purpose now) := by
  unfold AuthSystem.begin
  simp only
  cases (challengeConsume id purpose generation now e.store).1 with
  | error err => exact keysKept_same rfl rfl rfl
  | ok answer =>
    cases answer with
    | none => exact keysKept_same rfl rfl rfl
    | some row => exact keysKept_same rfl rfl rfl

theorem keysKept_check (call : Nat) (credentialId : String) (newSignCount : Int) :
    KeysKept e (e.check call credentialId newSignCount) := by
  unfold AuthSystem.check
  split
  · split_ifs
    · exact keysKept_same rfl rfl rfl
    · exact keysKept_same rfl rfl rfl
  · exact keysKept_same rfl rfl rfl

theorem keysKept_used (call : Nat) (deviceType : String) (backedUp : Bool) (now : Time) :
    KeysKept e (e.used call deviceType backedUp now) := by
  unfold AuthSystem.used
  cases e.calls call with
  | checked generation challenge stored newSignCount =>
    obtain ⟨rows, hrows, hkeys⟩ := credentialUsed_spec e.store stored.credentialId
      stored.generation stored.signCount newSignCount deviceType backedUp now
    simp only [hrows]
    split_ifs
    · exact ⟨fun g hg => hg, fun c hc => Or.inr (hkeys c hc), Or.inl rfl⟩
    · exact keysKept_same rfl rfl rfl
    · exact keysKept_same rfl rfl rfl
  | _ => exact keysKept_same rfl rfl rfl

theorem keysKept_exchange (call : Nat) (tokenHash : String) (now : Time) :
    KeysKept e (e.exchange call tokenHash now) := by
  unfold AuthSystem.exchange
  cases e.calls call with
  | proven result =>
    simp only
    split_ifs
    · cases hcreate : exchangeCreate (result.request tokenHash) e.generation now e.store with
      | error err => exact keysKept_same rfl rfl rfl
      | ok answer =>
        obtain ⟨created, store⟩ := answer
        obtain ⟨kept, -, ⟨rfl, rfl⟩ | ⟨rfl, rfl, -⟩⟩ := exchangeCreate_spec hcreate
        · exact keysKept_same rfl rfl rfl
        · exact keysKept_same rfl rfl rfl
    · exact keysKept_same rfl rfl rfl
  | _ => exact keysKept_same rfl rfl rfl

theorem keysKept_redeem (tokenHash verifierHash : String) (now : Time) :
    KeysKept e (e.redeem tokenHash verifierHash now) := by
  unfold AuthSystem.redeem
  cases hconsume : exchangeConsume tokenHash verifierHash e.generation now e.store with
  | error err => exact keysKept_same rfl rfl rfl
  | ok result =>
    obtain ⟨answer, store⟩ := result
    obtain ⟨rows, -, rfl, hanswer⟩ := exchangeConsume_spec hconsume
    cases answer with
    | none => exact keysKept_same rfl rfl rfl
    | some row =>
      obtain ⟨-, -, -, -, -, -, hbinding⟩ := hanswer row rfl
      exact ⟨fun g hg => hg, fun c hc => Or.inr ⟨c, hc, rfl, rfl⟩, Or.inr ⟨_, rfl, hbinding⟩⟩

theorem keysKept_ticket (generation : String) (r : TicketRequest) (now : Time) :
    KeysKept e (e.ticket generation r now) := by
  unfold AuthSystem.ticket
  cases hcreate : registrationCreate r generation now e.store with
  | error err => exact keysKept_same rfl rfl rfl
  | ok store =>
    obtain ⟨kept, -, rfl⟩ := registrationCreate_spec hcreate
    exact keysKept_same rfl rfl rfl

theorem keysKept_redeemTicket (tokenHash verifierHash : String) (now : Time) :
    KeysKept e (e.redeemTicket tokenHash verifierHash now) := by
  unfold AuthSystem.redeemTicket
  cases hconsume : registrationConsume tokenHash verifierHash e.generation now e.store with
  | error err => exact keysKept_same rfl rfl rfl
  | ok result =>
    obtain ⟨answer, store⟩ := result
    obtain ⟨rows, -, rfl, -⟩ := registrationConsume_spec hconsume
    cases answer with
    | none => exact keysKept_same rfl rfl rfl
    | some row => exact keysKept_same rfl rfl rfl

theorem keysKept_register (call : Nat) (expectedNative : Option Bool)
    (v : VerifiedRegistration) {token : String} (htoken : token ∉ e.tokens) (now : Time) :
    KeysKept e (e.register call expectedNative v token now) := by
  unfold AuthSystem.register
  cases e.calls call with
  | challenged generation challenge =>
    simp only
    split_ifs
    · cases hadd : credentialAdd (v.request challenge) token now e.store with
      | error err => exact keysKept_same rfl rfl rfl
      | ok store =>
        obtain ⟨c, rfl, hc⟩ := credentialAdd_spec hadd
        refine ⟨fun g hg => List.mem_cons_of_mem _ hg, fun c' hc' => ?_, Or.inl rfl⟩
        rcases List.mem_append.mp hc' with hc' | hc'
        · exact Or.inr ⟨c', hc', rfl, rfl⟩
        · obtain rfl := List.mem_singleton.mp hc'
          exact Or.inl (hc ▸ htoken)
    · exact keysKept_same rfl rfl rfl
  | _ => exact keysKept_same rfl rfl rfl

end Steps

theorem keysKept_step {e : AuthSystem} {a : AuthAction} (hfresh : a.fresh e = true) :
    KeysKept e (authStep e a) := by
  have hsame : KeysKept e e := keysKept_same rfl rfl rfl
  cases a with
  | rotate generation username => exact keysKept_same rfl rfl rfl
  | challenge generation r now =>
    simp only [authStep]
    split_ifs
    · exact keysKept_challenge generation r now
    · exact hsame
  | begin call generation id purpose now =>
    simp only [authStep]
    split_ifs
    · exact keysKept_begin call generation id purpose now
    · exact hsame
  | check call credentialId newSignCount => exact keysKept_check call credentialId newSignCount
  | used call deviceType backedUp now => exact keysKept_used call deviceType backedUp now
  | exchange call tokenHash now => exact keysKept_exchange call tokenHash now
  | redeem tokenHash verifierHash now => exact keysKept_redeem tokenHash verifierHash now
  | ticket generation r now =>
    simp only [authStep]
    split_ifs
    · exact keysKept_ticket generation r now
    · exact hsame
  | redeemTicket tokenHash verifierHash now =>
    exact keysKept_redeemTicket tokenHash verifierHash now
  | register call expectedNative v token now =>
    have htoken : token ∉ e.tokens := by simpa [AuthAction.fresh] using hfresh
    exact keysKept_register call expectedNative v htoken now
  | delete generation id =>
    simp only [authStep]
    split_ifs
    · exact ⟨fun g hg => hg, fun c hc => Or.inr ⟨c, (List.mem_filter.mp hc).1, rfl, rfl⟩,
        Or.inl rfl⟩
    · exact hsame

/-- No key with this id has one of the generations `T`, and no code that is bound to one of
them was consumed since the codes in `U` were. -/
structure Forgotten (id : String) (T : List String) (U : List (Exchange × CodeUse))
    (e : AuthSystem) : Prop where
  tokens : ∀ g ∈ T, g ∈ e.tokens
  keys : ∀ c ∈ e.store.credentials, c.credentialId = id → c.generation ∉ T
  uses : ∃ new, e.exchanges.uses = U ++ new ∧
    ∀ u ∈ new, u.1.credentialId = id → u.1.credentialGeneration ∉ T

/-- A key that is registered again does not bring its old codes back. -/
theorem Forgotten.step {id : String} {T : List String} {U : List (Exchange × CodeUse)}
    {e e' : AuthSystem} (h : Forgotten id T U e) (hkept : KeysKept e e') :
    Forgotten id T U e' := by
  refine ⟨fun g hg => hkept.tokens g (h.tokens g hg), fun c hc hid hg => ?_, ?_⟩
  · rcases hkept.keys c hc with hnew | ⟨old, hold, hsame, hgeneration⟩
    · exact hnew (h.tokens _ hg)
    · exact h.keys old hold (hsame.symm.trans hid) (hgeneration ▸ hg)
  · obtain ⟨new, hnew, hbound⟩ := h.uses
    rcases hkept.uses with huses | ⟨u, huses, hbinding⟩
    · exact ⟨new, huses.trans hnew, hbound⟩
    · refine ⟨new ++ [u], by rw [huses, hnew, List.append_assoc], fun x hx hid => ?_⟩
      rcases List.mem_append.mp hx with hx | hx
      · exact hbound x hx hid
      · obtain rfl := List.mem_singleton.mp hx
        unfold AuthStore.bindingHolds at hbinding
        obtain ⟨c, hc, hmatch⟩ := List.any_eq_true.mp ((Bool.and_eq_true _ _).mp hbinding).2
        simp only [Bool.and_eq_true, decide_eq_true_eq] at hmatch
        rw [← hmatch.2]
        exact h.keys c hc (hmatch.1.trans hid)

theorem forgotten_delete {e : AuthSystem} {generation id : String}
    (hguard : e.admits generation = true) :
    Forgotten id e.tokens e.exchanges.uses (authStep e (.delete generation id)) := by
  simp only [authStep, if_pos hguard]
  refine ⟨fun g hg => hg, fun c hc hid => ?_, [], by simp, by simp⟩
  exact absurd hid (of_decide_eq_true (List.mem_filter.mp hc).2)

/-! ### One-time grants are consumed once -/

/-- **One-time grants are consumed once.**  In every reachable state no challenge, code or
ticket was consumed more often than it was stored; each was consumed for its own purpose or
with its own verifier, in time, and under the account generation under which it was issued;
and once a key is deleted, no code that was issued before, or that is bound to a key of that
time, is ever consumed under its id, whatever is registered again. -/
theorem grants_consumed_once {as : List AuthAction} {e : AuthSystem}
    (h : Run (Steps freshStep) .init as e) :
    ((e.challenges.uses.map Prod.fst).Subperm (e.challenges.issues.map Prod.fst) ∧
      ∀ u ∈ e.challenges.uses, u.1.UsedAs u.2 ∧ (u.1, u.2.generation) ∈ e.challenges.issues) ∧
    ((e.exchanges.uses.map Prod.fst).Subperm (e.exchanges.issues.map Prod.fst) ∧
      ∀ u ∈ e.exchanges.uses, u.1.UsedAs u.2 ∧ (u.1, u.2.generation) ∈ e.exchanges.issues) ∧
    ((e.registrations.uses.map Prod.fst).Subperm (e.registrations.issues.map Prod.fst) ∧
      ∀ u ∈ e.registrations.uses,
        u.1.UsedAs u.2 ∧ (u.1, u.2.generation) ∈ e.registrations.issues) ∧
    ∀ generation id, e.admits generation = true → ∀ bs e',
      Run (Steps freshStep) e (.delete generation id :: bs) e' →
      ∃ new, e'.exchanges.uses = e.exchanges.uses ++ new ∧ ∀ u ∈ new, u.1.credentialId = id →
        (∀ i ∈ e.exchanges.issues, i.1 ≠ u.1) ∧
          ∀ c ∈ e.store.credentials, c.generation ≠ u.1.credentialGeneration := by
  have hsound := grants_sound h
  refine ⟨⟨hsound.challenges.once, fun u hu => ?_⟩, ⟨hsound.exchanges.once, fun u hu => ?_⟩,
    ⟨hsound.registrations.once, fun u hu => ?_⟩, fun generation id hguard bs e' hrun => ?_⟩
  · obtain ⟨hused, g, hissue, hg⟩ := hsound.challenges.issued_of_used hu
    exact ⟨hused, hused.2.2 ▸ hg ▸ hissue⟩
  · obtain ⟨hused, g, hissue, hg⟩ := hsound.exchanges.issued_of_used hu
    exact ⟨hused, hused.2.2 ▸ hg ▸ hissue⟩
  · obtain ⟨hused, g, hissue, hg⟩ := hsound.registrations.issued_of_used hu
    exact ⟨hused, hused.2.2 ▸ hg ▸ hissue⟩
  · cases hrun with
    | cons hdelete hrest =>
      have hforgotten : Forgotten id e.tokens e.exchanges.uses e' := by
        refine hrest.preserves (Forgotten id e.tokens e.exchanges.uses)
          (fun s a t hs hstep => ?_) ?_
        · unfold Steps freshStep at hstep
          split_ifs at hstep with hfresh
          exact Option.some.inj hstep ▸ hs.step (keysKept_step hfresh)
        · obtain rfl := Option.some.inj hdelete
          exact forgotten_delete hguard
      obtain ⟨new, hnew, hbound⟩ := hforgotten.uses
      refine ⟨new, hnew, fun u hu hid => ⟨fun i hi heq => ?_, fun c hc heq => ?_⟩⟩
      · exact hbound u hu hid (heq ▸ hsound.bound i hi)
      · exact hbound u hu hid (heq ▸ hsound.drawn c hc)

/-- A key is registered, the app signs in with it and redeems its code twice; then the key is
deleted. -/
def appSignIn : List AuthAction :=
  let challenge (id : String) (purpose : ChallengePurpose) : ChallengeRequest :=
    ⟨id, [1, 2], purpose, .passkey, "Handy", true, "v", 300⟩
  [.rotate "g1" "admin",
    .challenge "g1" (challenge "c1" .register) 0,
    .begin 0 "g1" "c1" .register 1,
    .register 0 (some true) ⟨"k", [3], 0, ["internal"], "multi_device", true⟩ "t1" 2,
    .challenge "g1" (challenge "c2" .authenticate) 3,
    .begin 1 "g1" "c2" .authenticate 4,
    .check 1 "k" 1,
    .used 1 "multi_device" true 5,
    .exchange 1 "h" 6,
    .redeem "h" "v" 7,
    .redeem "h" "v" 8,
    .delete "g1" "k"]

theorem grants_consumed_once_app : ∃ e, Run (Steps freshStep) .init appSignIn e ∧
    e.challenges.uses.length = 2 ∧ e.exchanges.uses.length = 1 ∧
    (e.exchanges.uses.map Prod.fst).Subperm (e.exchanges.issues.map Prod.fst) := by
  have hview : (runAll freshStep .init appSignIn).map (fun e =>
      (e.challenges.uses.length, e.exchanges.uses.length)) = some (2, 1) := by decide +kernel
  obtain ⟨e, he, hcounts⟩ := Option.map_eq_some_iff.mp hview
  obtain ⟨hchallenges, hexchanges⟩ := Prod.mk.inj hcounts
  have hrun := run_of_runAll he
  exact ⟨e, hrun, hchallenges, hexchanges, (grants_consumed_once hrun).2.1.1⟩

end RcloneSync
