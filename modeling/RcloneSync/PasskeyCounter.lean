/-
RcloneSync/PasskeyCounter.lean

The signature counter of a passkey: the comparison in `finish_authentication`
(webauthn_service.py) and the update in `webauthn_credential_used` (db.py).

A sign-in reads the counter of the key, has the assertion verified, and moves the counter on in
a step of its own.  In between anything may happen.  The update therefore names the counter that
was read: where the row has another one by now, it changes nothing.  A counter that is updated
grows, unless the authenticator does not count and reports zero, so what one sign-in has moved on
no other one can find again.

Main result (`passkey_counter`): in every run the counter of a registered key never decreases,
and of two sign-ins that read the same counter the first one to succeed has moved it on, so that
the second one fails, unless the first one reported zero.

A key that is deleted and registered again is another key: it gets a token that was not drawn
before.
-/
import RcloneSync.OneTimeGrants

namespace RcloneSync

open Py Runs Grants

/-! ### What a step does to the counters -/

/-- The keys after a step: each was registered by it, or was there with at most its counter. -/
structure CountersKept (e e' : AuthSystem) : Prop where
  tokens : ∀ g ∈ e.tokens, g ∈ e'.tokens
  rows : ∀ c ∈ e'.store.credentials,
    (c.generation ∉ e.tokens ∧ c.generation ∈ e'.tokens ∧ 0 ≤ c.signCount) ∨
      ∃ old ∈ e.store.credentials, old.credentialId = c.credentialId ∧
        old.generation = c.generation ∧ old.signCount ≤ c.signCount
  unique : (e.store.credentials.map Credential.credentialId).Nodup →
    (e'.store.credentials.map Credential.credentialId).Nodup

theorem countersKept_same {e e' : AuthSystem}
    (hkeys : e'.store.credentials = e.store.credentials) (htokens : e'.tokens = e.tokens) :
    CountersKept e e' :=
  ⟨fun _ hg => htokens ▸ hg, fun c hc => Or.inr ⟨c, hkeys ▸ hc, rfl, rfl, le_rfl⟩,
    fun h => hkeys ▸ h⟩

/-- An update moves the counters of the rows that it meets on, and keeps all keys. -/
theorem credentialUsed_counters (s : AuthStore) (id token : String) (observed new : Int)
    (deviceType : String) (backedUp : Bool) (now : Time) :
    ∃ rows, (credentialUsed id token observed new deviceType backedUp now s).2
        = { s with credentials := rows } ∧
      rows.map Credential.credentialId = s.credentials.map Credential.credentialId ∧
      (∀ c ∈ rows, ∃ old ∈ s.credentials, old.credentialId = c.credentialId ∧
        old.generation = c.generation ∧ old.signCount ≤ c.signCount) ∧
      ((credentialUsed id token observed new deviceType backedUp now s).1 = true →
        observed ≤ new ∧ (0 < observed → observed < new) ∧
        (∃ old ∈ s.credentials, old.credentialId = id ∧ old.generation = token ∧
          old.signCount = observed) ∧
        ∃ c ∈ rows, c.credentialId = id ∧ c.generation = token ∧ c.signCount = max 0 new) := by
  unfold credentialUsed
  by_cases hrefused : token = "" ∨ new < observed ∨ (0 < observed ∧ new = observed)
  · rw [if_pos hrefused]
    exact ⟨s.credentials, rfl, rfl, fun c hc => ⟨c, hc, rfl, rfl, le_rfl⟩,
      fun h => absurd h Bool.false_ne_true⟩
  · rw [if_neg hrefused]
    have hle : observed ≤ new := by omega
    have hlt : 0 < observed → observed < new := by omega
    refine ⟨_, rfl, ?_, ?_, ?_⟩
    · apply Tables.map_key_updateWhere
      exact fun _ => rfl
    · intro c hc
      obtain ⟨old, hold, rfl⟩ := List.mem_map.mp hc
      refine ⟨old, hold, ?_⟩
      split
      · rename_i hhit
        simp only [Bool.and_eq_true, decide_eq_true_eq] at hhit
        refine ⟨rfl, rfl, ?_⟩
        show old.signCount ≤ max 0 new
        omega
      · exact ⟨rfl, rfl, le_rfl⟩
    · intro hany
      obtain ⟨old, hold, hhit⟩ := List.any_eq_true.mp hany
      have hsplit := hhit
      simp only [Bool.and_eq_true, decide_eq_true_eq] at hsplit
      obtain ⟨⟨hid, htoken⟩, hcount⟩ := hsplit
      refine ⟨hle, hlt, ⟨old, hold, hid, htoken, hcount⟩, ?_⟩
      refine ⟨_, List.mem_map_of_mem hold, ?_⟩
      rw [if_pos hhit]
      exact ⟨hid, htoken, rfl⟩

section Steps

variable {e : AuthSystem}

theorem countersKept_used (call : Nat) (deviceType : String) (backedUp : Bool) (now : Time) :
    CountersKept e (e.used call deviceType backedUp now) := by
  unfold AuthSystem.used
  cases e.calls call with
  | checked generation challenge stored newSignCount =>
    obtain ⟨rows, hrows, hids, hkept, -⟩ := credentialUsed_counters e.store stored.credentialId
      stored.generation stored.signCount newSignCount deviceType backedUp now
    simp only [hrows]
    split_ifs
    · exact ⟨fun g hg => hg, fun c hc => Or.inr (hkept c hc), fun h => hids ▸ h⟩
    · exact countersKept_same rfl rfl
    · exact countersKept_same rfl rfl
  | _ => exact countersKept_same rfl rfl

theorem countersKept_register (call : Nat) (expectedNative : Option Bool)
    (v : VerifiedRegistration) {token : String} (htoken : token ∉ e.tokens) (now : Time) :
    CountersKept e (e.register call expectedNative v token now) := by
  unfold AuthSystem.register
  cases e.calls call with
  | challenged generation challenge =>
    simp only
    split_ifs
    · cases hadd : credentialAdd (v.request challenge) token now e.store with
      | error err => exact countersKept_same rfl rfl
      | ok store =>
        unfold credentialAdd at hadd
        split_ifs at hadd with hknown
        obtain rfl := Except.ok.inj hadd
        refine ⟨fun g hg => List.mem_cons_of_mem _ hg, fun c hc => ?_, fun hunique => ?_⟩
        · rcases List.mem_append.mp hc with hc | hc
          · exact Or.inr ⟨c, hc, rfl, rfl, le_rfl⟩
          · obtain rfl := List.mem_singleton.mp hc
            exact Or.inl ⟨htoken, List.mem_cons_self, le_max_left _ _⟩
        · show ((e.store.credentials ++ [_]).map Credential.credentialId).Nodup
          rw [List.map_append]
          refine List.nodup_append.mpr ⟨hunique, List.nodup_singleton _, ?_⟩
          rintro id hid other hother rfl
          obtain ⟨old, hold, rfl⟩ := List.mem_map.mp hid
          have hfound : (e.store.credential old.credentialId).isSome = true := by
            unfold AuthStore.credential
            rw [Tables.find_of_mem hunique hold rfl]
            rfl
          rw [List.mem_singleton.mp hother] at hfound
          exact hknown hfound
    · exact countersKept_same rfl rfl
  | _ => exact countersKept_same rfl rfl

/-- The other steps leave the keys as they are. -/
theorem countersKept_challenge (generation : String) (r : ChallengeRequest) (now : Time) :
    CountersKept e (e.challenge generation r now) := by
  unfold AuthSystem.challenge
  cases hcreate : challengeCreate r generation now e.store with
  | error err => exact countersKept_same rfl rfl
  | ok store =>
    obtain ⟨kept, -, rfl⟩ := challengeCreate_spec hcreate
    exact countersKept_same rfl rfl

theorem countersKept_begin (call : Nat) (generation id : String) (purpose : ChallengePurpose)
    (now : Time) : CountersKept e (e.begin call generation id purpose now) := by
  unfold AuthSystem.begin
  simp only
  have hkeys : (challengeConsume id purpose generation now e.store).2.credentials
      = e.store.credentials := rfl
  split
  · exact countersKept_same hkeys rfl
  · exact countersKept_same hkeys rfl

theorem countersKept_check (call : Nat) (credentialId : String) (newSignCount : Int) :
    CountersKept e (e.check call credentialId newSignCount) := by
  unfold AuthSystem.check
  split
  · split_ifs
    · exact countersKept_same rfl rfl
    · exact countersKept_same rfl rfl
  · exact countersKept_same rfl rfl

theorem countersKept_exchange (call : Nat) (tokenHash : String) (now : Time) :
    CountersKept e (e.exchange call tokenHash now) := by
  unfold AuthSystem.exchange
  cases e.calls call with
  | proven result =>
    simp only
    split_ifs
    · cases hcreate : exchangeCreate (result.request tokenHash) e.generation now e.store with
      | error err => exact countersKept_same rfl rfl
      | ok answer =>
        obtain ⟨created, store⟩ := answer
        obtain ⟨kept, -, ⟨rfl, rfl⟩ | ⟨rfl, rfl, -⟩⟩ := exchangeCreate_spec hcreate
        · exact countersKept_same rfl rfl
        · exact countersKept_same rfl rfl
    · exact countersKept_same rfl rfl
  | _ => exact countersKept_same rfl rfl

theorem countersKept_redeem (tokenHash verifierHash : String) (now : Time) :
    CountersKept e (e.redeem tokenHash verifierHash now) := by
  unfold AuthSystem.redeem
  cases hconsume : exchangeConsume tokenHash verifierHash e.generation now e.store with
  | error err => exact countersKept_same rfl rfl
  | ok result =>
    obtain ⟨answer, store⟩ := result
    obtain ⟨rows, -, rfl, -⟩ := exchangeConsume_spec hconsume
    cases answer with
    | none => exact countersKept_same rfl rfl
    | some row => exact countersKept_same rfl rfl

theorem countersKept_ticket (generation : String) (r : TicketRequest) (now : Time) :
    CountersKept e (e.ticket generation r now) := by
  unfold AuthSystem.ticket
  cases hcreate : registrationCreate r generation now e.store with
  | error err => exact countersKept_same rfl rfl
  | ok store =>
    obtain ⟨kept, -, rfl⟩ := registrationCreate_spec hcreate
    exact countersKept_same rfl rfl

theorem countersKept_redeemTicket (tokenHash verifierHash : String) (now : Time) :
    CountersKept e (e.redeemTicket tokenHash verifierHash now) := by
  unfold AuthSystem.redeemTicket
  cases hconsume : registrationConsume tokenHash verifierHash e.generation now e.store with
  | error err => exact countersKept_same rfl rfl
  | ok result =>
    obtain ⟨answer, store⟩ := result
    obtain ⟨rows, -, rfl, -⟩ := registrationConsume_spec hconsume
    cases answer with
    | none => exact countersKept_same rfl rfl
    | some row => exact countersKept_same rfl rfl

theorem countersKept_delete (id : String) :
    CountersKept e { e with store := (credentialDelete id e.store).2 } :=
  ⟨fun _ hg => hg, fun c hc => Or.inr ⟨c, (List.mem_filter.mp hc).1, rfl, rfl, le_rfl⟩,
    fun h => h.sublist (List.filter_sublist.map _)⟩

theorem countersKept_step {a : AuthAction} (hfresh : a.fresh e = true) :
    CountersKept e (authStep e a) := by
  have hsame : CountersKept e e := countersKept_same rfl rfl
  cases a with
  | rotate generation username => exact countersKept_same rfl rfl
  | challenge generation r now =>
    simp only [authStep]
    split_ifs
    · exact countersKept_challenge generation r now
    · exact hsame
  | begin call generation id purpose now =>
    simp only [authStep]
    split_ifs
    · exact countersKept_begin call generation id purpose now
    · exact hsame
  | check call credentialId newSignCount =>
    exact countersKept_check call credentialId newSignCount
  | used call deviceType backedUp now => exact countersKept_used call deviceType backedUp now
  | exchange call tokenHash now => exact countersKept_exchange call tokenHash now
  | redeem tokenHash verifierHash now => exact countersKept_redeem tokenHash verifierHash now
  | ticket generation r now =>
    simp only [authStep]
    split_ifs
    · exact countersKept_ticket generation r now
    · exact hsame
  | redeemTicket tokenHash verifierHash now =>
    exact countersKept_redeemTicket tokenHash verifierHash now
  | register call expectedNative v token now =>
    have htoken : token ∉ e.tokens := by simpa [AuthAction.fresh] using hfresh
    exact countersKept_register call expectedNative v htoken now
  | delete generation id =>
    simp only [authStep]
    split_ifs
    · exact countersKept_delete id
    · exact hsame

end Steps

/-! ### Runs -/

/-- Keys have identifiers of their own, tokens that were drawn, and counters from zero on. -/
structure KeysInOrder (e : AuthSystem) : Prop where
  unique : (e.store.credentials.map Credential.credentialId).Nodup
  drawn : ∀ c ∈ e.store.credentials, c.generation ∈ e.tokens
  counts : ∀ c ∈ e.store.credentials, 0 ≤ c.signCount

theorem KeysInOrder.step {e e' : AuthSystem} (h : KeysInOrder e) (hkept : CountersKept e e') :
    KeysInOrder e' := by
  refine ⟨hkept.unique h.unique, fun c hc => ?_, fun c hc => ?_⟩
  · rcases hkept.rows c hc with ⟨-, hdrawn, -⟩ | ⟨old, hold, -, hgeneration, -⟩
    · exact hdrawn
    · exact hkept.tokens _ (hgeneration ▸ h.drawn old hold)
  · rcases hkept.rows c hc with ⟨-, -, hcount⟩ | ⟨old, hold, -, -, hle⟩
    · exact hcount
    · exact le_trans (h.counts old hold) hle

theorem step_counters {e e' : AuthSystem} {a : AuthAction} (h : Steps freshStep e a e') :
    CountersKept e e' := by
  unfold Steps freshStep at h
  split_ifs at h with hfresh
  exact Option.some.inj h ▸ countersKept_step hfresh

theorem keysInOrder_run {e : AuthSystem} {as : List AuthAction}
    (hrun : Run (Steps freshStep) .init as e) : KeysInOrder e :=
  hrun.preserves KeysInOrder (fun _ _ _ h hstep => h.step (step_counters hstep))
    ⟨List.nodup_nil, fun _ hc => absurd hc List.not_mem_nil,
      fun _ hc => absurd hc List.not_mem_nil⟩

/-- The rows of a key have reached a count. -/
def HasReached (id token : String) (count : Int) (e : AuthSystem) : Prop :=
  token ∈ e.tokens ∧ ∀ c ∈ e.store.credentials, c.credentialId = id → c.generation = token →
    count ≤ c.signCount

/-- What the rows of a key have reached they keep. -/
theorem hasReached_run {id token : String} {count : Int} {e e' : AuthSystem}
    {as : List AuthAction} (hrun : Run (Steps freshStep) e as e')
    (h : HasReached id token count e) : HasReached id token count e' := by
  refine hrun.preserves (HasReached id token count) (fun s a t hs hstep => ?_) h
  have hkept := step_counters hstep
  refine ⟨hkept.tokens _ hs.1, fun c hc hid htoken => ?_⟩
  rcases hkept.rows c hc with ⟨hnew, -⟩ | ⟨old, hold, hsameId, hsameToken, hle⟩
  · exact absurd (htoken ▸ hs.1) hnew
  · exact le_trans (hs.2 old hold (hsameId.trans hid) (hsameToken.trans htoken)) hle

/-- A registered key has reached the count of its row. -/
theorem KeysInOrder.reached {e : AuthSystem} (h : KeysInOrder e) {c : Credential}
    (hc : c ∈ e.store.credentials) : HasReached c.credentialId c.generation c.signCount e := by
  refine ⟨h.drawn c hc, fun c' hc' hid _ => ?_⟩
  have hfound := Tables.find_of_mem h.unique hc rfl
  have hfound' := Tables.find_of_mem h.unique hc' hid
  obtain rfl := Option.some.inj (hfound.symm.trans hfound')
  exact le_rfl

/-! ### Sign-ins -/

/-- A request that has read the key `stored` and had the count `reported` verified succeeds with
this step. -/
def Succeeds (e : AuthSystem) (call : Nat) (deviceType : String) (backedUp : Bool) (now : Time)
    (stored : Credential) (reported : Int) : Prop :=
  (∃ generation challenge, e.calls call = .checked generation challenge stored reported) ∧
    ∃ result, (e.used call deviceType backedUp now).calls call = .proven result

section SignIns

variable {e : AuthSystem} {call : Nat} {deviceType : String} {backedUp : Bool} {now : Time}
  {stored : Credential} {reported : Int}

/-- A sign-in that succeeds finds the counter that it has read, and leaves the reported one. -/
theorem Succeeds.moves (h : Succeeds e call deviceType backedUp now stored reported) :
    (stored.signCount ≤ reported ∧ (0 < stored.signCount → stored.signCount < reported)) ∧
      (∃ old ∈ e.store.credentials, old.credentialId = stored.credentialId ∧
        old.generation = stored.generation ∧ old.signCount = stored.signCount) ∧
      ∃ c ∈ (e.used call deviceType backedUp now).store.credentials,
        c.credentialId = stored.credentialId ∧ c.generation = stored.generation ∧
          c.signCount = max 0 reported := by
  obtain ⟨⟨generation, challenge, hcall⟩, result, hproven⟩ := h
  obtain ⟨rows, hrows, -, -, hhit⟩ := credentialUsed_counters e.store stored.credentialId
    stored.generation stored.signCount reported deviceType backedUp now
  have hidle : ∀ r, (e.setCall call .idle).calls call ≠ .proven r := by
    intro r hr
    unfold AuthSystem.setCall at hr
    simp only [Function.update_self] at hr
    cases hr
  unfold AuthSystem.used at hproven ⊢
  rw [hcall] at hproven ⊢
  dsimp only at hproven ⊢
  by_cases hadmits : e.admits generation = true
  · rw [if_pos hadmits] at hproven ⊢
    by_cases hdone : (credentialUsed stored.credentialId stored.generation stored.signCount
        reported deviceType backedUp now e.store).1 = true
    · rw [if_pos hdone]
      obtain ⟨hle, hlt, hold, hnew⟩ := hhit hdone
      refine ⟨⟨hle, hlt⟩, hold, ?_⟩
      rw [hrows]
      exact hnew
    · rw [if_neg hdone] at hproven
      exact absurd hproven (hidle result)
  · rw [if_neg hadmits] at hproven
    exact absurd hproven (hidle result)

end SignIns

/-! ### Main result -/

/-- **The counter of a passkey.**  In every run the counter of a registered key never decreases.
Where two sign-ins read the same counter of the same key and both succeed, the first one
reported zero. -/
theorem passkey_counter {as : List AuthAction} {e : AuthSystem}
    (hrun : Run (Steps freshStep) .init as e) :
    (∀ bs e', Run (Steps freshStep) e bs e' → ∀ c ∈ e.store.credentials,
      ∀ c' ∈ e'.store.credentials, c'.credentialId = c.credentialId →
        c'.generation = c.generation → c.signCount ≤ c'.signCount) ∧
    ∀ first deviceType backedUp now stored reported,
      Succeeds e first deviceType backedUp now stored reported →
      ∀ bs e', Run (Steps freshStep) (e.used first deviceType backedUp now) bs e' →
      ∀ second deviceType' backedUp' now' stored' reported',
        Succeeds e' second deviceType' backedUp' now' stored' reported' →
        stored'.credentialId = stored.credentialId → stored'.generation = stored.generation →
        stored'.signCount = stored.signCount → reported = 0 := by
  have horder := keysInOrder_run hrun
  constructor
  · intro bs e' hrest c hc c' hc' hid hgeneration
    exact (hasReached_run hrest (horder.reached hc)).2 c' hc' hid hgeneration
  · intro first deviceType backedUp now stored reported hfirst bs e' hrest second deviceType'
      backedUp' now' stored' reported' hsecond hid hgeneration hcount
    obtain ⟨⟨hle, hlt⟩, ⟨old, hold, -, -, holdCount⟩, c, hc, hcId, hcGeneration, hcCount⟩ :=
      hfirst.moves
    have hnonneg : 0 ≤ stored.signCount := holdCount ▸ horder.counts old hold
    have hmoved := horder.step (countersKept_used (e := e) first deviceType backedUp now)
    -- the second sign-in still finds the counter that both of them read
    obtain ⟨-, ⟨found, hfound, hfoundId, hfoundGeneration, hfoundCount⟩, -⟩ := hsecond.moves
    have hreached := (hasReached_run hrest (hmoved.reached hc)).2 found hfound
      (by rw [hfoundId, hid, hcId]) (by rw [hfoundGeneration, hgeneration, hcGeneration])
    rw [hcCount, hfoundCount, hcount] at hreached
    rcases lt_or_eq_of_le hnonneg with hpos | hzero
    · have hgrown := hlt hpos
      omega
    · omega

/-! ### Two sign-ins at once -/

/-- A key is registered with count 5; two sign-ins read it and report 6 and 7. -/
def twoSignIns : List AuthAction :=
  let challenge (id : String) (purpose : ChallengePurpose) : ChallengeRequest :=
    ⟨id, [1, 2], purpose, .passkey, "Handy", true, "v", 300⟩
  [.rotate "g1" "admin",
    .challenge "g1" (challenge "c1" .register) 0,
    .begin 0 "g1" "c1" .register 1,
    .register 0 (some true) ⟨"k", [3], 5, ["internal"], "multi_device", true⟩ "t1" 2,
    .challenge "g1" (challenge "c2" .authenticate) 3,
    .challenge "g1" (challenge "c3" .authenticate) 3,
    .begin 1 "g1" "c2" .authenticate 4,
    .begin 2 "g1" "c3" .authenticate 4,
    .check 1 "k" 6,
    .check 2 "k" 7]

/-- What a request has verified. -/
def Ceremony.verified : Ceremony → Option (Credential × Int)
  | .checked _ _ stored reported => some (stored, reported)
  | _ => none

def Ceremony.isProven : Ceremony → Bool
  | .proven _ => true
  | _ => false

theorem succeeds_of_view {e : AuthSystem} {call : Nat} {deviceType : String} {backedUp : Bool}
    {now : Time} {stored : Credential} {reported : Int}
    (hverified : (e.calls call).verified = some (stored, reported))
    (hproven : ((e.used call deviceType backedUp now).calls call).isProven = true) :
    Succeeds e call deviceType backedUp now stored reported := by
  constructor
  · cases hcall : e.calls call with
    | checked generation challenge stored' reported' =>
      rw [hcall] at hverified
      obtain ⟨rfl, rfl⟩ := Prod.mk.inj (Option.some.inj hverified)
      exact ⟨generation, challenge, rfl⟩
    | _ =>
      rw [hcall] at hverified
      cases hverified
  · cases hcall : (e.used call deviceType backedUp now).calls call with
    | proven result => exact ⟨result, rfl⟩
    | _ =>
      rw [hcall] at hproven
      cases hproven

/-- The key as both sign-ins read it. -/
def registeredKey : Credential where
  credentialId := "k"
  method := .passkey
  publicKey := [3]
  signCount := 5
  transports := ["internal"]
  deviceType := "multi_device"
  backedUp := true
  label := "Handy"
  createdAt := 2
  lastUsedAt := none
  generation := "t1"

/-- The first sign-in succeeds, and the second one does not. -/
theorem passkey_counter_sign_ins : ∃ e, Run (Steps freshStep) .init twoSignIns e ∧
    Succeeds e 1 "multi_device" true 6 registeredKey 6 ∧
    ¬ Succeeds (e.used 1 "multi_device" true 6) 2 "multi_device" true 7 registeredKey 7 := by
  have hview : (runAll freshStep .init twoSignIns).map (fun e =>
      ((e.calls 1).verified, ((e.used 1 "multi_device" true 6).calls 1).isProven))
        = some (some (registeredKey, 6), true) := by decide +kernel
  obtain ⟨e, he, hseen⟩ := Option.map_eq_some_iff.mp hview
  obtain ⟨hverified, hproven⟩ := Prod.mk.inj hseen
  have hrun := run_of_runAll he
  have hfirst : Succeeds e 1 "multi_device" true 6 registeredKey 6 :=
    succeeds_of_view hverified hproven
  refine ⟨e, hrun, hfirst, fun hsecond => ?_⟩
  have hzero : (6 : Int) = 0 := (passkey_counter hrun).2 1 "multi_device" true 6 registeredKey 6
    hfirst [] _ (.nil _) 2 "multi_device" true 7 registeredKey 7 hsecond rfl rfl rfl
  exact absurd hzero (by decide)

end RcloneSync
