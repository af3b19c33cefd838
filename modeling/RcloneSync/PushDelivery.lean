/-
RcloneSync/PushDelivery.lean

Who owns a delivery.

Dispatchers claim, renew and finish deliveries while devices come and go and old rows are
pruned, in any order.  Seen from one delivery this is the life of leased work (`Leases`):
every transaction moves it along the rules of `Leases.Step` (`pushStep_spec`), and what the
callers of claims and finishes were told is what is seen of that life (`push_tracked`).
The rules then say that a delivery has one owner, that only the owner finishes it, once for
each claim, and that nothing happens any more to what is sent, failed or revoked
(`push_outbox_owned`).
-/
import RcloneSync.PushOutbox
import RcloneSync.Leases

namespace RcloneSync

open Py Runs Leases

/-! ### The system -/

/-- The tables, and what the callers of claims and finishes were told so far. -/
structure PushSystem where
  store : PushStore
  log : List (Nat × Event String)

def PushSystem.init : PushSystem := ⟨.empty, []⟩

inductive PushAction
  | upsertDevice (token environment appVersion : String) (leaseSeconds : Int) (now : Time)
  | deleteDevice (token : String) (claimOwner : Option String)
  | revokeAll
  | pruneDevices (now : Time)
  | enqueue (n : Notification) (apnsIds : Nat → String) (now : Time)
  | claim (claimOwner : String) (limit leaseSeconds : Int) (now : Time)
  | renew (outboxIds : List Nat) (claimOwner : String) (leaseSeconds : Int) (now : Time)
  | finish (id : Nat) (request : FinishRequest) (now : Time)
  | prune (olderThanDays : Int) (now : Time)

/-- What a claim tells its caller. -/
def claimEvents (rows : List Delivery) : List (Nat × Event String) :=
  rows.map fun d => (d.id, .claim d.claimOwner)

/-- What a finish tells its caller, unless the delivery is not owned or missing. -/
def finishEvents (id : Nat) (r : FinishRequest) : FinishAnswer → List (Nat × Event String)
  | .finished status => [(id, .finish (strip r.claimOwner) (decide (status = .pending)))]
  | _ => []

def pushStep (e : PushSystem) : PushAction → PushSystem
  | .upsertDevice token environment appVersion leaseSeconds now =>
    { e with store := deviceUpsert token environment appVersion leaseSeconds now e.store }
  | .deleteDevice token claimOwner => { e with store := deviceDelete token claimOwner e.store }
  | .revokeAll => { e with store := devicesRevokeAll e.store }
  | .pruneDevices now => { e with store := devicePruneExpired now e.store }
  | .enqueue n apnsIds now => { e with store := outboxEnqueue n apnsIds now e.store }
  | .claim claimOwner limit leaseSeconds now =>
    match outboxClaimDue claimOwner limit leaseSeconds now e.store with
    | .ok result => ⟨result.2, e.log ++ claimEvents result.1⟩
    | .error _ => e
  | .renew outboxIds claimOwner leaseSeconds now =>
    match outboxRenewClaims outboxIds claimOwner leaseSeconds now e.store with
    | .ok result => { e with store := result.2 }
    | .error _ => e
  | .finish id r now =>
    match outboxFinish id r now e.store with
    | .ok result => ⟨result.2, e.log ++ finishEvents id r result.1⟩
    | .error _ => e
  | .prune olderThanDays now => { e with store := outboxPrune olderThanDays now e.store }

/-- What was seen of one delivery. -/
def trace (log : List (Nat × Event String)) (id : Nat) : List (Event String) :=
  (log.filter fun x => x.1 = id).map Prod.snd

theorem trace_append (log log' : List (Nat × Event String)) (id : Nat) :
    trace (log ++ log') id = trace log id ++ trace log' id := by
  simp [trace]

/-! ### The lease of a delivery -/

def Delivery.lease (d : Delivery) : Lease String :=
  match d.status with
  | .pending => .idle
  | .sending => .held d.claimOwner
  | .sent => .done
  | .failed => .done

/-- The lease of the delivery with a number. -/
def outboxLease (rows : List Delivery) (nextId id : Nat) : Lease String :=
  match Tables.find Delivery.id rows id with
  | some d => d.lease
  | none => if id < nextId then .gone else .unborn

def PushStore.lease (s : PushStore) (id : Nat) : Lease String := outboxLease s.outbox s.nextId id

/-- Numbers are unique and were handed out, and whoever sends is named. -/
structure OutboxOk (rows : List Delivery) (nextId : Nat) : Prop where
  unique : (rows.map Delivery.id).Nodup
  below : ∀ d ∈ rows, d.id < nextId
  owned : ∀ d ∈ rows, d.status = .sending → d.claimOwner ≠ ""

section Rows

variable {rows : List Delivery} {nextId id : Nat}

theorem lease_of_find {d : Delivery} (h : Tables.find Delivery.id rows id = some d) :
    outboxLease rows nextId id = d.lease := by
  simp only [outboxLease, h]

theorem lease_of_mem (h : OutboxOk rows nextId) {d : Delivery} (hd : d ∈ rows) :
    outboxLease rows nextId d.id = d.lease :=
  lease_of_find (Tables.find_of_mem h.unique hd rfl)

theorem lease_ne_unborn (d : Delivery) : d.lease ≠ .unborn := by
  unfold Delivery.lease
  cases d.status <;> simp

theorem lease_ne_gone (d : Delivery) : d.lease ≠ .gone := by
  unfold Delivery.lease
  cases d.status <;> simp

/-- A change of rows moves each delivery the way its row moves. -/
theorem moves_updateWhere {p : Delivery → Bool} {f : Delivery → Delivery}
    (hid : ∀ d, (f d).id = d.id) {seen : List (Event String)}
    (hmove : ∀ d, Tables.find Delivery.id rows id = some d →
      Moves d.lease seen (if p d then f d else d).lease)
    (hnone : Tables.find Delivery.id rows id = none → seen = []) :
    Moves (outboxLease rows nextId id) seen
      (outboxLease (Tables.updateWhere p f rows) nextId id) := by
  have hfind := Tables.find_updateWhere (p := p) hid rows id
  cases hold : Tables.find Delivery.id rows id with
  | none =>
    rw [hold] at hfind
    obtain rfl := hnone hold
    have hsame : outboxLease (Tables.updateWhere p f rows) nextId id
        = outboxLease rows nextId id := by
      simp only [outboxLease, hfind, hold, Option.map_none]
    rw [hsame]
    exact .refl _
  | some d =>
    rw [hold] at hfind
    rw [lease_of_find hold, lease_of_find hfind]
    exact hmove d hold

/-- A change that no caller is told of. -/
theorem moves_silent {p : Delivery → Bool} {f : Delivery → Delivery}
    (hid : ∀ d, (f d).id = d.id) (hmove : ∀ d, p d = true → Moves d.lease [] (f d).lease) :
    Moves (outboxLease rows nextId id) []
      (outboxLease (Tables.updateWhere p f rows) nextId id) := by
  refine moves_updateWhere hid (fun d _ => ?_) fun _ => rfl
  by_cases hp : p d = true
  · rw [if_pos hp]
    exact hmove d hp
  · rw [if_neg hp]
    exact .refl _

/-- Deleted deliveries are gone. -/
theorem moves_filter (h : OutboxOk rows nextId) (q : Delivery → Bool) :
    Moves (outboxLease rows nextId id) [] (outboxLease (rows.filter q) nextId id) := by
  have hfind := Tables.find_filter h.unique q id
  cases hold : Tables.find Delivery.id rows id with
  | none =>
    rw [hold] at hfind
    have hsame : outboxLease (rows.filter q) nextId id = outboxLease rows nextId id := by
      simp only [outboxLease, hfind, hold, Option.filter_none]
    rw [hsame]
    exact .refl _
  | some d =>
    rw [hold] at hfind
    by_cases hq : q d = true
    · rw [Option.filter_some_pos hq] at hfind
      rw [lease_of_find hold, lease_of_find hfind]
      exact .refl _
    · rw [Option.filter_some_neg (Bool.eq_false_iff.mpr hq)] at hfind
      have hlt : id < nextId := Tables.key_of_find hold ▸ h.below d (Tables.mem_of_find hold)
      have hgone : outboxLease (rows.filter q) nextId id = .gone := by
        simp only [outboxLease, hfind, if_pos hlt]
      rw [lease_of_find hold, hgone]
      exact Moves.one (.drop (lease_ne_unborn d))

theorem OutboxOk.updateWhere (h : OutboxOk rows nextId) {p : Delivery → Bool}
    {f : Delivery → Delivery} (hid : ∀ d, (f d).id = d.id)
    (howned : ∀ d ∈ rows, p d = true → (f d).status = .sending → (f d).claimOwner ≠ "") :
    OutboxOk (Tables.updateWhere p f rows) nextId := by
  refine ⟨by rw [Tables.map_key_updateWhere hid]; exact h.unique, fun d hd => ?_,
    fun d hd hsending => ?_⟩
  · obtain ⟨old, hold, rfl⟩ := List.mem_map.mp hd
    by_cases hp : p old = true
    · rw [if_pos hp, hid]
      exact h.below old hold
    · rw [if_neg hp]
      exact h.below old hold
  · obtain ⟨old, hold, rfl⟩ := List.mem_map.mp hd
    by_cases hp : p old = true
    · rw [if_pos hp] at hsending ⊢
      exact howned old hold hp hsending
    · rw [if_neg hp] at hsending ⊢
      exact h.owned old hold hsending

theorem OutboxOk.filter (h : OutboxOk rows nextId) (q : Delivery → Bool) :
    OutboxOk (rows.filter q) nextId :=
  ⟨h.unique.sublist (List.filter_sublist.map _), fun d hd => h.below d (List.mem_filter.mp hd).1,
    fun d hd => h.owned d (List.mem_filter.mp hd).1⟩

end Rows

/-! ### What the transactions do -/

/-- The tables stay in order, and nobody is told anything. -/
structure Silent (s s' : PushStore) : Prop where
  ok : OutboxOk s'.outbox s'.nextId
  moves : ∀ id, Moves (s.lease id) [] (s'.lease id)

section Transactions

variable {s s' s'' : PushStore} {now : Time}

theorem Silent.trans (h : Silent s s') (h' : Silent s' s'') : Silent s s'' :=
  ⟨h'.ok, fun id => (h.moves id).trans (h'.moves id)⟩

theorem silent_same (hs : OutboxOk s.outbox s.nextId) (houtbox : s'.outbox = s.outbox)
    (hnext : s'.nextId = s.nextId) : Silent s s' := by
  refine ⟨houtbox ▸ hnext ▸ hs, fun id => ?_⟩
  have hsame : s'.lease id = s.lease id := by
    unfold PushStore.lease
    rw [houtbox, hnext]
  rw [hsame]
  exact .refl _

theorem silent_filter (hs : OutboxOk s.outbox s.nextId) (q : Delivery → Bool)
    (devices : List PushDevice) :
    Silent s { s with outbox := s.outbox.filter q, devices := devices } :=
  ⟨hs.filter q, fun _ => moves_filter hs q⟩

theorem silent_updateWhere (hs : OutboxOk s.outbox s.nextId) {p : Delivery → Bool}
    {f : Delivery → Delivery} (hid : ∀ d, (f d).id = d.id)
    (hmove : ∀ d, p d = true → Moves d.lease [] (f d).lease)
    (howned : ∀ d ∈ s.outbox, p d = true → (f d).status = .sending → (f d).claimOwner ≠ "") :
    Silent s { s with outbox := Tables.updateWhere p f s.outbox } :=
  ⟨hs.updateWhere hid howned, fun _ => moves_silent hid hmove⟩

theorem silent_revokeAll (hs : OutboxOk s.outbox s.nextId) : Silent s (devicesRevokeAll s) := by
  have hempty : s.outbox.filter (fun _ => false) = [] := by simp
  have hfilter := silent_filter hs (fun _ => false) []
  rw [hempty] at hfilter
  exact hfilter

theorem silent_insertDelivery (hs : OutboxOk s.outbox s.nextId) (n : Notification) (now : Time)
    (apnsIds : Nat → String) (device : PushDevice) :
    Silent s (insertDelivery n now apnsIds s device) := by
  unfold insertDelivery
  simp only
  split_ifs
  · exact silent_same hs rfl rfl
  · have hrow : (n.row now device s.nextId (apnsIds s.nextId)).id = s.nextId := rfl
    have hidle : (n.row now device s.nextId (apnsIds s.nextId)).lease = .idle := rfl
    have hpending : (n.row now device s.nextId (apnsIds s.nextId)).status = .pending := rfl
    generalize n.row now device s.nextId (apnsIds s.nextId) = row at hrow hidle hpending
    have hfresh : s.nextId ∉ s.outbox.map Delivery.id := by
      intro hmem
      obtain ⟨d, hd, heq⟩ := List.mem_map.mp hmem
      exact absurd (hs.below d hd) (by omega)
    refine ⟨⟨?_, fun d hd => ?_, fun d hd hsending => ?_⟩, fun id => ?_⟩
    · rw [List.map_append, List.map_singleton, hrow]
      exact List.nodup_append.mpr ⟨hs.unique, List.nodup_singleton _, fun a ha b hb heq =>
        hfresh (List.mem_singleton.mp hb ▸ heq ▸ ha)⟩
    · rcases List.mem_append.mp hd with hd | hd
      · exact Nat.lt_succ_of_lt (hs.below d hd)
      · obtain rfl := List.mem_singleton.mp hd
        exact hrow ▸ Nat.lt_succ_self _
    · rcases List.mem_append.mp hd with hd | hd
      · exact hs.owned d hd hsending
      · obtain rfl := List.mem_singleton.mp hd
        rw [hpending] at hsending
        cases hsending
    · have hfind : Tables.find Delivery.id (s.outbox ++ [row]) id = _ :=
        Tables.find_append s.outbox row id
      simp only [PushStore.lease]
      by_cases hid : id = s.nextId
      · subst hid
        have hnone := Tables.find_eq_none hfresh
        rw [hnone, if_pos hrow] at hfind
        have hunborn : outboxLease s.outbox s.nextId s.nextId = .unborn := by
          simp [outboxLease, hnone]
        rw [hunborn, lease_of_find hfind, hidle]
        exact Moves.one .create
      · rw [if_neg (fun h => hid (h.symm.trans hrow)), Option.or_none] at hfind
        have hsame : outboxLease (s.outbox ++ [row]) (s.nextId + 1) id
            = outboxLease s.outbox s.nextId id := by
          have hlt : id < s.nextId + 1 ↔ id < s.nextId := by omega
          simp only [outboxLease, hfind, hlt]
        rw [hsame]
        exact .refl _

theorem silent_enqueue (hs : OutboxOk s.outbox s.nextId) (n : Notification)
    (apnsIds : Nat → String) : Silent s (outboxEnqueue n apnsIds now s) := by
  have hall : ∀ (devices : List PushDevice) (s : PushStore), OutboxOk s.outbox s.nextId →
      Silent s (devices.foldl (insertDelivery n now apnsIds) s) := by
    intro devices
    induction devices with
    | nil => exact fun s hs => silent_same hs rfl rfl
    | cons device devices ih =>
      intro s hs
      have hone := silent_insertDelivery hs n now apnsIds device
      exact hone.trans (ih _ hone.ok)
  exact hall _ s hs

theorem heldBy_iff {owner : String} {d : Delivery} :
    heldBy owner d = true ↔ d.status = .sending ∧ d.claimOwner = owner := by
  simp [heldBy]

theorem silent_renew (hs : OutboxOk s.outbox s.nextId) {outboxIds ids : List Nat}
    {claimOwner : String} {leaseSeconds : Int}
    (h : outboxRenewClaims outboxIds claimOwner leaseSeconds now s = .ok (ids, s')) :
    Silent s s' := by
  unfold outboxRenewClaims at h
  simp only at h
  split_ifs at h with hnone howner
  · obtain ⟨-, rfl⟩ := Prod.mk.inj (Except.ok.inj h)
    exact silent_same hs rfl rfl
  · obtain ⟨-, rfl⟩ := Prod.mk.inj (Except.ok.inj h)
    refine silent_updateWhere hs (fun _ => rfl) (fun d _ => .refl _) fun d hd hp hsending => ?_
    exact hs.owned d hd hsending

/-- What is given up is done. -/
theorem moves_giveUp {error : String} {d : Delivery}
    (h : d.status = .pending ∨ d.status = .sending) :
    Moves d.lease [] (giveUp error now d).lease := by
  have hdone : (giveUp error now d).lease = .done := rfl
  rw [hdone]
  rcases h with hpending | hsending
  · have hidle : d.lease = .idle := by simp only [Delivery.lease, hpending]
    rw [hidle]
    exact Moves.one .expireIdle
  · have hheld : d.lease = .held d.claimOwner := by simp only [Delivery.lease, hsending]
    rw [hheld]
    exact Moves.one (.expireHeld d.claimOwner)

theorem moves_reopen {d : Delivery} (h : d.status = .sending) :
    Moves d.lease [] (reopen now d).lease := by
  have hheld : d.lease = .held d.claimOwner := by simp only [Delivery.lease, h]
  rw [hheld]
  exact Moves.one (.lapse d.claimOwner)

/-- The sweep before a claim. -/
theorem silent_sweep (hs : OutboxOk s.outbox s.nextId) (now : Time) :
    Silent s { s with outbox := sweepOutbox now s } := by
  have hlapsed : Silent s
      { s with outbox := Tables.updateWhere (lapsed now) (reopen now) s.outbox } := by
    refine silent_updateWhere hs (fun _ => rfl) (fun d hp => ?_) fun d _ _ hsending => ?_
    · simp only [lapsed, Bool.and_eq_true, decide_eq_true_eq] at hp
      exact moves_reopen hp.1.1
    · cases hsending
  have hoverdue := silent_updateWhere (p := overdue now)
    (f := giveUp "Benachrichtigung abgelaufen" now) hlapsed.ok (fun _ => rfl)
    (fun d hp => moves_giveUp (by
      simp only [overdue, Bool.and_eq_true, Bool.or_eq_true, decide_eq_true_eq] at hp
      exact hp.1))
    fun d _ _ hsending => by cases hsending
  have horphaned := silent_updateWhere (p := orphaned s.devices)
    (f := giveUp "Push-Gerät nicht mehr registriert" now) hoverdue.ok (fun _ => rfl)
    (fun d hp => moves_giveUp (by
      simp only [orphaned, Bool.and_eq_true, decide_eq_true_eq] at hp
      exact Or.inl hp.1))
    fun d _ _ hsending => by cases hsending
  exact (hlapsed.trans hoverdue).trans horphaned

/-- What is seen of a delivery in a list of claimed rows. -/
theorem trace_claimEvents {rows : List Delivery} (hunique : (rows.map Delivery.id).Nodup)
    (id : Nat) : trace (claimEvents rows) id
      = ((Tables.find Delivery.id rows id).map fun d => Event.claim d.claimOwner).toList := by
  induction rows with
  | nil => rfl
  | cons d rows ih =>
    obtain ⟨hd, hunique⟩ := List.nodup_cons.mp hunique
    have ih := ih hunique
    by_cases hid : d.id = id
    · have hnone : Tables.find Delivery.id rows id = none := Tables.find_eq_none (hid ▸ hd)
      rw [hnone] at ih
      have hrest : (claimEvents rows).filter (fun x => x.1 = id) = [] := List.map_eq_nil_iff.mp ih
      have hfind : Tables.find Delivery.id (d :: rows) id = some d := by simp [Tables.find, hid]
      rw [hfind]
      have hcons : claimEvents (d :: rows) = (d.id, .claim d.claimOwner) :: claimEvents rows := rfl
      rw [hcons, trace, List.filter_cons_of_pos (by simp [hid]), hrest]
      rfl
    · have hfind : Tables.find Delivery.id (d :: rows) id = Tables.find Delivery.id rows id := by
        simp [Tables.find, hid]
      have hcons : claimEvents (d :: rows) = (d.id, .claim d.claimOwner) :: claimEvents rows := rfl
      rw [hfind, ← ih, hcons, trace, List.filter_cons_of_neg (by simp [hid])]
      rfl

theorem byNextAttempt_perm (rows : List Delivery) : (byNextAttempt rows).Perm rows :=
  List.perm_insertionSort _ rows

/-- A claim moves the deliveries it takes to the owner, and tells of these. -/
theorem moves_claim {rows : List Delivery} {nextId : Nat} (hok : OutboxOk rows nextId)
    {ids : List Nat} {owner : String} {f : Delivery → Delivery}
    (hdue : ∀ id ∈ ids, ∃ d, Tables.find Delivery.id rows id = some d ∧ d.status = .pending)
    (hid : ∀ d, (f d).id = d.id) (hstatus : ∀ d, (f d).status = .sending)
    (howner : ∀ d, (f d).claimOwner = owner) (id : Nat) :
    Moves (outboxLease rows nextId id)
      (trace (claimEvents (byNextAttempt ((Tables.updateWhere (toClaim ids) f rows).filter
        (heldAmong owner ids)))) id)
      (outboxLease (Tables.updateWhere (toClaim ids) f rows) nextId id) := by
  have hunique : ((Tables.updateWhere (toClaim ids) f rows).map Delivery.id).Nodup := by
    rw [Tables.map_key_updateWhere hid]
    exact hok.unique
  have hkept : (((Tables.updateWhere (toClaim ids) f rows).filter
      (heldAmong owner ids)).map Delivery.id).Nodup :=
    hunique.sublist (List.filter_sublist.map _)
  have hperm := byNextAttempt_perm
    ((Tables.updateWhere (toClaim ids) f rows).filter (heldAmong owner ids))
  rw [trace_claimEvents ((hperm.map _).nodup_iff.mpr hkept), Tables.find_perm hperm
    ((hperm.map _).nodup_iff.mpr hkept), Tables.find_filter hunique,
    Tables.find_updateWhere hid]
  refine moves_updateWhere hid (fun d hd => ?_) fun hnone => by rw [hnone]; rfl
  have hdid : d.id = id := Tables.key_of_find hd
  rw [hd, Option.map_some]
  by_cases hmem : id ∈ ids
  · obtain ⟨d', hd', hpending⟩ := hdue id hmem
    obtain rfl : d = d' := Option.some.inj (hd.symm.trans hd')
    have hclaim : toClaim ids d = true := by simp [toClaim, hpending, hdid, hmem]
    have hheld : heldAmong owner ids (f d) = true := by
      simp [heldAmong, heldBy, hstatus, howner, hid, hdid, hmem]
    have hidle : d.lease = .idle := by simp only [Delivery.lease, hpending]
    have hlease : (f d).lease = .held owner := by simp only [Delivery.lease, hstatus, howner]
    rw [if_pos hclaim, Option.filter_some_pos hheld, Option.map_some, hidle, hlease, howner]
    exact Moves.one (.claim owner)
  · have hclaim : ¬toClaim ids d = true := by simp [toClaim, hdid, hmem]
    have hheld : heldAmong owner ids d = false := by simp [heldAmong, hdid, hmem]
    rw [if_neg hclaim, Option.filter_some_neg hheld]
    exact .refl _

/-- **A claim** goes on with what the sweep left. -/
theorem claimDue_spec (hs : OutboxOk s.outbox s.nextId) {claimOwner : String}
    {limit leaseSeconds : Int} {claimed : List Delivery}
    (h : outboxClaimDue claimOwner limit leaseSeconds now s = .ok (claimed, s')) :
    OutboxOk s'.outbox s'.nextId ∧
      ∀ id, Moves (s.lease id) (trace (claimEvents claimed) id) (s'.lease id) := by
  have hswept := silent_sweep hs now
  unfold outboxClaimDue at h
  simp only at h
  generalize sweepOutbox now s = rows at h hswept
  have hdue : ∀ id ∈ ((byNextAttempt (rows.filter (isDue now))).take
      (max 1 (min limit 128)).toNat).map Delivery.id,
      ∃ d, Tables.find Delivery.id rows id = some d ∧ d.status = .pending := by
    intro id hid
    obtain ⟨d, hd, rfl⟩ := List.mem_map.mp hid
    have hmem := (byNextAttempt_perm _).mem_iff.mp (List.mem_of_mem_take hd)
    obtain ⟨hd, hp⟩ := List.mem_filter.mp hmem
    simp only [isDue, Bool.and_eq_true, decide_eq_true_eq] at hp
    exact ⟨d, Tables.find_of_mem hswept.ok.unique hd rfl, hp.1.1⟩
  generalize ((byNextAttempt (rows.filter (isDue now))).take
      (max 1 (min limit 128)).toNat).map Delivery.id = ids at h hdue
  split_ifs at h with howner hnone
  · obtain ⟨rfl, rfl⟩ := Prod.mk.inj (Except.ok.inj h)
    exact ⟨hswept.ok, hswept.moves⟩
  · obtain ⟨rfl, rfl⟩ := Prod.mk.inj (Except.ok.inj h)
    refine ⟨hswept.ok.updateWhere (fun _ => rfl) fun d _ _ _ => howner, fun id => ?_⟩
    exact (hswept.moves id).trans (moves_claim (f := claimFor (strip claimOwner)
      (now + boundedSeconds 10 300 leaseSeconds) now) hswept.ok hdue (fun _ => rfl)
      (fun _ => rfl) (fun _ => rfl) id)

/-- **A finish** is refused and changes nothing, or moves the delivery from its owner. -/
theorem finish_cases {id : Nat} {r : FinishRequest} {answer : FinishAnswer}
    (h : outboxFinish id r now s = .ok (answer, s')) :
    (s' = s ∧ (answer = .notOwned ∨ answer = .missing)) ∨
      ∃ d ∈ s.outbox, d.id = id ∧ d.status = .sending ∧ d.claimOwner = strip r.claimOwner ∧
        ∃ status, answer = .finished status ∧ status ≠ .sending ∧
          s' = { s with
            outbox := Tables.updateWhere (fun d => d.id = id && heldBy (strip r.claimOwner) d)
              (finishedDelivery r status now) s.outbox } := by
  unfold outboxFinish at h
  by_cases howner : strip r.claimOwner = ""
  · rw [if_pos howner] at h
    cases h
  rw [if_neg howner] at h
  cases hfind : s.outbox.find? fun d => d.id = id && heldBy (strip r.claimOwner) d with
  | none =>
    simp only [hfind] at h
    obtain ⟨rfl, rfl⟩ := Prod.mk.inj (Except.ok.inj h)
    refine Or.inl ⟨rfl, ?_⟩
    by_cases hany : (s.outbox.any fun d => decide (d.id = id)) = true
    · exact Or.inl (if_pos hany)
    · exact Or.inr (if_neg hany)
  | some d =>
    simp only [hfind] at h
    obtain ⟨rfl, rfl⟩ := Prod.mk.inj (Except.ok.inj h)
    have hmatch := List.find?_some hfind
    simp only [Bool.and_eq_true, decide_eq_true_eq] at hmatch
    obtain ⟨hsending, hheld⟩ := heldBy_iff.mp hmatch.2
    refine Or.inr ⟨d, List.mem_of_find?_eq_some hfind, hmatch.1, hsending, hheld, _, rfl, ?_, rfl⟩
    unfold finishStatus
    split_ifs <;> simp

theorem finish_spec (hs : OutboxOk s.outbox s.nextId) {id : Nat} {r : FinishRequest}
    {answer : FinishAnswer} (h : outboxFinish id r now s = .ok (answer, s')) :
    OutboxOk s'.outbox s'.nextId ∧
      ∀ k, Moves (s.lease k) (trace (finishEvents id r answer) k) (s'.lease k) := by
  rcases finish_cases h with ⟨rfl, rfl | rfl⟩ | ⟨d, hd, hid, hsending, howner, status, rfl, hne, rfl⟩
  · exact ⟨hs, fun k => .refl _⟩
  · exact ⟨hs, fun k => .refl _⟩
  · refine ⟨hs.updateWhere (fun _ => rfl) fun d _ _ hsending => absurd hsending hne, fun k => ?_⟩
    have hfind := Tables.find_of_mem hs.unique hd hid
    refine moves_updateWhere (f := finishedDelivery r status now) (fun _ => rfl)
      (fun x hx => ?_) fun hnone => ?_
    · have hxid : x.id = k := Tables.key_of_find hx
      by_cases hk : id = k
      · subst hk
        obtain rfl : x = d := Option.some.inj (hx.symm.trans hfind)
        have hp : (x.id = id && heldBy (strip r.claimOwner) x) = true := by
          simp [hid, heldBy_iff.mpr ⟨hsending, howner⟩]
        have hheld : x.lease = .held (strip r.claimOwner) := by
          simp only [Delivery.lease, hsending, howner]
        have htrace : trace (finishEvents id r (.finished status)) id
            = [Event.finish (strip r.claimOwner) (decide (status = .pending))] := by
          simp [trace, finishEvents]
        rw [if_pos hp, hheld, htrace]
        cases status with
        | pending => exact Moves.one (.again _)
        | sending => exact absurd rfl hne
        | sent => exact Moves.one (.close _)
        | failed => exact Moves.one (.close _)
      · have hp : ¬(x.id = id && heldBy (strip r.claimOwner) x) = true := by
          simp [hxid, Ne.symm hk]
        have htrace : trace (finishEvents id r (.finished status)) k = [] := by
          simp [trace, finishEvents, hk]
        rw [if_neg hp, htrace]
        exact .refl _
    · have hk : ¬id = k := by
        rintro rfl
        rw [hfind] at hnone
        cases hnone
      simp [trace, finishEvents, hk]

end Transactions

/-! ### Steps and runs -/

/-- From one state to the other every delivery moved by the rules, and its callers were told
what is seen of that. -/
def Tells (e e' : PushSystem) : Prop :=
  ∃ new, e'.log = e.log ++ new ∧ ∀ id, Moves (e.store.lease id) (trace new id) (e'.store.lease id)

theorem Tells.trans {e e' e'' : PushSystem} (h : Tells e e') (h' : Tells e' e'') :
    Tells e e'' := by
  obtain ⟨new, hlog, hmoves⟩ := h
  obtain ⟨new', hlog', hmoves'⟩ := h'
  refine ⟨new ++ new', by rw [hlog', hlog, List.append_assoc], fun id => ?_⟩
  rw [trace_append]
  exact (hmoves id).trans (hmoves' id)

/-- The outbox is in order. -/
def PushSystem.Ok (e : PushSystem) : Prop := OutboxOk e.store.outbox e.store.nextId

theorem tells_of_silent {e : PushSystem} {s' : PushStore} (h : Silent e.store s') :
    PushSystem.Ok { e with store := s' } ∧ Tells e { e with store := s' } :=
  ⟨h.ok, [], by simp, h.moves⟩

/-- **Every step moves every delivery by the rules.** -/
theorem pushStep_spec {e : PushSystem} (he : e.Ok) (a : PushAction) :
    (pushStep e a).Ok ∧ Tells e (pushStep e a) := by
  have hsame : e.Ok ∧ Tells e e := ⟨he, [], by simp, fun id => .refl _⟩
  cases a with
  | upsertDevice token environment appVersion leaseSeconds now =>
    exact tells_of_silent (silent_same he rfl rfl)
  | deleteDevice token claimOwner => exact tells_of_silent (silent_filter he _ _)
  | revokeAll => exact tells_of_silent (silent_revokeAll he)
  | pruneDevices now => exact tells_of_silent (silent_filter he _ _)
  | enqueue n apnsIds now => exact tells_of_silent (silent_enqueue he n apnsIds)
  | claim claimOwner limit leaseSeconds now =>
    simp only [pushStep]
    cases hclaim : outboxClaimDue claimOwner limit leaseSeconds now e.store with
    | error err => exact hsame
    | ok result =>
      obtain ⟨hok, hmoves⟩ := claimDue_spec he hclaim
      exact ⟨hok, _, rfl, hmoves⟩
  | renew outboxIds claimOwner leaseSeconds now =>
    simp only [pushStep]
    cases hrenew : outboxRenewClaims outboxIds claimOwner leaseSeconds now e.store with
    | error err => exact hsame
    | ok result => exact tells_of_silent (silent_renew he hrenew)
  | finish id r now =>
    simp only [pushStep]
    cases hfinish : outboxFinish id r now e.store with
    | error err => exact hsame
    | ok result =>
      obtain ⟨hok, hmoves⟩ := finish_spec he hfinish
      exact ⟨hok, _, rfl, hmoves⟩
  | prune olderThanDays now =>
    exact tells_of_silent (silent_filter he _ e.store.devices)

/-- The steps of the system. -/
def pushSteps (e : PushSystem) (a : PushAction) (e' : PushSystem) : Prop := e' = pushStep e a

theorem push_run {e e' : PushSystem} {as : List PushAction} (h : Run pushSteps e as e')
    (he : e.Ok) : e'.Ok ∧ Tells e e' := by
  refine h.preserves (fun e' => e'.Ok ∧ Tells e e') (fun s a t hs hstep => ?_)
    ⟨he, [], by simp, fun id => .refl _⟩
  obtain rfl : t = pushStep s a := hstep
  obtain ⟨hok, htells⟩ := pushStep_spec hs.1 a
  exact ⟨hok, hs.2.trans htells⟩

/-- In every reachable state what was told of a delivery is what is seen of its life. -/
theorem push_tracked {e : PushSystem} {as : List PushAction} (h : Run pushSteps .init as e) :
    e.Ok ∧ ∀ id, Moves (PushSystem.init.store.lease id) (trace e.log id) (e.store.lease id) := by
  have hinit : PushSystem.init.Ok := ⟨List.nodup_nil, by simp [PushSystem.init, PushStore.empty],
    by simp [PushSystem.init, PushStore.empty]⟩
  obtain ⟨hok, new, hlog, hmoves⟩ := push_run h hinit
  refine ⟨hok, fun id => ?_⟩
  rw [hlog]
  exact hmoves id

theorem init_not_held (id : Nat) (o : String) : PushSystem.init.store.lease id ≠ .held o := by
  have hlease : PushSystem.init.store.lease id = if id < 1 then .gone else .unborn := rfl
  rw [hlease]
  split_ifs <;> simp

/-- Nothing is told any more of a delivery that is done or gone. -/
theorem closed_silent {e e' : PushSystem} {as : List PushAction} (h : Run pushSteps e as e')
    (he : e.Ok) {id : Nat} (hclosed : e.store.lease id = .done ∨ e.store.lease id = .gone) :
    ∃ new, e'.log = e.log ++ new ∧ trace new id = [] := by
  obtain ⟨-, new, hlog, hmoves⟩ := push_run h he
  obtain ⟨events, hrun, hseen⟩ := hmoves id
  exact ⟨new, hlog, hseen ▸ (closed_run hrun hclosed).1⟩

/-! ### Ownership -/

theorem lease_sending {d : Delivery} (h : d.status = .sending) : d.lease = .held d.claimOwner := by
  simp only [Delivery.lease, h]

theorem lease_closed {d : Delivery} (h : d.status = .sent ∨ d.status = .failed) :
    d.lease = .done := by
  rcases h with h | h <;> simp only [Delivery.lease, h]

/-- A finish changes a delivery only if it is sending and the caller owns it. -/
theorem finish_only_owner {s s' : PushStore} {id k : Nat} {r : FinishRequest} {now : Time}
    {answer : FinishAnswer} (h : outboxFinish id r now s = .ok (answer, s'))
    (hchanged : Tables.find Delivery.id s'.outbox k ≠ Tables.find Delivery.id s.outbox k) :
    ∃ d ∈ s.outbox, d.id = k ∧ d.status = .sending ∧ d.claimOwner = strip r.claimOwner := by
  rcases finish_cases h with ⟨rfl, -⟩ | ⟨d, hd, hid, hsending, howner, status, -, -, rfl⟩
  · exact absurd rfl hchanged
  · by_cases hk : id = k
    · exact ⟨d, hd, hid.trans hk, hsending, howner⟩
    · refine absurd ?_ hchanged
      refine (Tables.find_updateWhere (f := finishedDelivery r status now) (fun _ => rfl) _ k).trans
        ?_
      cases hfind : Tables.find Delivery.id s.outbox k with
      | none => rfl
      | some x =>
        have hxid : x.id = k := Tables.key_of_find hfind
        have hp : ¬(x.id = id && heldBy (strip r.claimOwner) x) = true := by
          simp [hxid, Ne.symm hk]
        rw [Option.map_some, if_neg hp]

/-- What was claimed before all devices are revoked is gone, and nothing is told of it. -/
theorem revoked_silent {e e' : PushSystem} {as bs : List PushAction}
    (h : Run pushSteps .init as e) (hrun : Run pushSteps e (.revokeAll :: bs) e') {id : Nat}
    {o : String} (hclaimed : Event.claim o ∈ trace e.log id) :
    (∀ d ∈ e'.store.outbox, d.id ≠ id) ∧ ∃ new, e'.log = e.log ++ new ∧ trace new id = [] := by
  obtain ⟨hok, hmoves⟩ := push_tracked h
  have hborn : id < e.store.nextId := by
    by_contra hnot
    obtain ⟨events, hevents, hseen⟩ := hmoves id
    have hunborn : e.store.lease id = .unborn := by
      have hnone : Tables.find Delivery.id e.store.outbox id = none := by
        refine Tables.find_eq_none fun hmem => ?_
        obtain ⟨d, hd, rfl⟩ := List.mem_map.mp hmem
        exact hnot (hok.below d hd)
      simp only [PushStore.lease, outboxLease, hnone, if_neg hnot]
    rw [unborn_run hevents hunborn] at hseen
    rw [← hseen] at hclaimed
    cases hclaimed
  cases hrun with
  | @cons _ u _ _ _ hrevoke hrest =>
    obtain rfl : u = pushStep e .revokeAll := hrevoke
    obtain ⟨hok', -⟩ := pushStep_spec hok .revokeAll
    have hgone : (pushStep e .revokeAll).store.lease id = .gone := by
      have hempty : (pushStep e .revokeAll).store.lease id
          = if id < e.store.nextId then .gone else .unborn := rfl
      rw [hempty, if_pos hborn]
    obtain ⟨new, hlog, htrace⟩ := closed_silent hrest hok' (Or.inr hgone)
    refine ⟨fun d hd hid => ?_, new, hlog, htrace⟩
    obtain ⟨hok'', _, -, hmoves'⟩ := push_run hrest hok'
    obtain ⟨events, hevents, -⟩ := hmoves' id
    rw [hgone] at hevents
    have hstill := gone_run hevents
    rw [PushStore.lease, ← hid, lease_of_mem hok'' hd] at hstill
    exact lease_ne_gone d hstill

/-- **Who owns a delivery.**  In every reachable state a delivery that is being sent has one
owner, the last who claimed it; a finish changes it only if it is being sent and the caller
is its owner; between two finishes that took effect it was claimed by the owner of the
second; a delivery that is sent or failed is never claimed again; and after all devices were
revoked, no delivery that was claimed before is in the outbox or finished any more. -/
theorem push_outbox_owned {e : PushSystem} {as : List PushAction}
    (h : Run pushSteps .init as e) :
    (∀ d ∈ e.store.outbox, d.status = .sending → d.claimOwner ≠ "" ∧
      (trace e.log d.id).getLast? = some (.claim d.claimOwner)) ∧
    (∀ id r now answer s', outboxFinish id r now e.store = .ok (answer, s') → ∀ k,
      Tables.find Delivery.id s'.outbox k ≠ Tables.find Delivery.id e.store.outbox k →
        ∃ d ∈ e.store.outbox, d.id = k ∧ d.status = .sending ∧
          d.claimOwner = strip r.claimOwner) ∧
    (∀ id pre mid post o again o' again',
      trace e.log id = pre ++ .finish o again :: (mid ++ .finish o' again' :: post) →
        mid.getLast? = some (.claim o')) ∧
    (∀ d ∈ e.store.outbox, d.status = .sent ∨ d.status = .failed → ∀ bs e',
      Run pushSteps e bs e' → ∃ new, e'.log = e.log ++ new ∧ trace new d.id = []) ∧
    ∀ bs e', Run pushSteps e (.revokeAll :: bs) e' → ∀ id o, .claim o ∈ trace e.log id →
      (∀ d ∈ e'.store.outbox, d.id ≠ id) ∧
        ∃ new, e'.log = e.log ++ new ∧ trace new id = [] := by
  obtain ⟨hok, hmoves⟩ := push_tracked h
  refine ⟨fun d hd hsending => ⟨hok.owned d hd hsending, ?_⟩, fun id r now answer s' hfinish k =>
    finish_only_owner hfinish, fun id pre mid post o again o' again' htrace => ?_,
    fun d hd hclosed bs e' hrun => ?_, fun bs e' hrun id o hclaimed =>
    revoked_silent h hrun hclaimed⟩
  · obtain ⟨events, hevents, hseen⟩ := hmoves d.id
    have hheld : e.store.lease d.id = .held d.claimOwner :=
      (lease_of_mem hok hd).trans (lease_sending hsending)
    rcases held_run hevents hheld with hlast | ⟨-, hinit⟩
    · exact hseen ▸ hlast
    · exact absurd hinit (init_not_held _ _)
  · have hid := hmoves id
    rw [htrace] at hid
    exact finishes_separated hid
  · have hdone : e.store.lease d.id = .done := (lease_of_mem hok hd).trans (lease_closed hclosed)
    exact closed_silent hrun hok (Or.inl hdone)

/-- A notification for one device: it is claimed, its lease runs out, another dispatcher
claims it, and the first one comes too late. -/
def lateDispatcher : List PushAction :=
  [.upsertDevice "t" "production" "1" 604800 0,
    .enqueue ⟨"sync_error", "Titel", "Text", [], "k", 3600, 128⟩ (fun _ => "a") 0,
    .claim "one" 32 10 1000000,
    .claim "two" 32 10 20000000,
    .finish 1 ⟨"one", true, false, 60, "", 8⟩ 21000000,
    .finish 1 ⟨"two", true, false, 60, "", 8⟩ 22000000]

theorem push_outbox_owned_late : ∃ e, Run pushSteps .init lateDispatcher e ∧
    trace e.log 1 = [.claim "one", .claim "two", .finish "two" false] ∧
    ∀ d ∈ e.store.outbox, d.status = .sending → d.claimOwner ≠ "" ∧
      (trace e.log d.id).getLast? = some (.claim d.claimOwner) :=
  have hrun := run_of_foldl pushStep .init lateDispatcher
  ⟨_, hrun, by decide +kernel, (push_outbox_owned hrun).1⟩

end RcloneSync
