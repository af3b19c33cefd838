/-
RcloneSync/PushOutbox.lean

The push tables (db.py): registered devices and the outbox of notifications, with the
transactions on them.

A notification is stored once for every device.  A dispatcher claims due deliveries for a
limited time under a token of its own, renews the claim while it is busy, and finishes each
delivery: sent, failed, or pending again.  What is due is decided by the clock reading
`now` of the call.
-/
import RcloneSync.JobStore

namespace RcloneSync

open Py

/-! ### Rows -/

inductive DeliveryStatus
  | pending | sending | sent | failed
  deriving DecidableEq, Repr

/-- A row of `push_devices`. -/
structure PushDevice where
  token : String
  environment : String
  appVersion : String
  createdAt : Time
  updatedAt : Time
  expiresAt : Time
  deriving DecidableEq, Repr

/-- A row of `push_outbox`. -/
structure Delivery where
  id : Nat
  dedupeKey : String
  token : String
  environment : String
  event : String
  title : String
  message : String
  payloadJson : String
  status : DeliveryStatus
  attempts : Int
  nextAttemptAt : Time
  expiresAt : Time
  leaseUntil : Time
  claimOwner : String
  lastError : Option String
  apnsId : String
  createdAt : Time
  updatedAt : Time
  sentAt : Option Time
  deriving DecidableEq, Repr

/-- The tables; `nextId` is the number that the next row of the outbox gets, which no row had
before. -/
structure PushStore where
  devices : List PushDevice
  outbox : List Delivery
  nextId : Nat

def PushStore.empty : PushStore := ⟨[], [], 1⟩

/-- A number of seconds between bounds, as a span of time. -/
def boundedSeconds (low high n : Int) : Time := max low (min n high) * 1000000

/-! ### Devices -/

/-- `push_device_upsert`. -/
def deviceUpsert (token environment appVersion : String) (leaseSeconds : Int) (now : Time)
    (s : PushStore) : PushStore :=
  let expiresAt := now + boundedSeconds 3600 (90 * 86400) leaseSeconds
  { s with
    devices := Tables.upsert PushDevice.token
      ⟨token, environment, appVersion, now, now, expiresAt⟩
      (fun d => { d with
        environment := environment, appVersion := appVersion, updatedAt := now
        expiresAt := expiresAt }) s.devices }

/-- `push_device_delete`. -/
def deviceDelete (token : String) (claimOwner : Option String) (s : PushStore) : PushStore :=
  let dropped := fun d : Delivery => d.token = token && match claimOwner with
    | none => true
    | some owner => d.status ≠ .sending || d.claimOwner = owner
  { s with
    outbox := s.outbox.filter fun d => !dropped d
    devices := s.devices.filter fun d => d.token ≠ token }

/-- `push_devices_revoke_all`. -/
def devicesRevokeAll (s : PushStore) : PushStore := { s with outbox := [], devices := [] }

/-- `push_device_prune_expired`. -/
def devicePruneExpired (now : Time) (s : PushStore) : PushStore :=
  let expired := s.devices.filter fun d => d.expiresAt ≤ now
  let dropped := fun d : Delivery => expired.any (fun x => x.token = d.token) &&
    (d.status ≠ .sending || d.leaseUntil ≤ now)
  { s with
    outbox := s.outbox.filter fun d => !dropped d
    devices := s.devices.filter fun d => !decide (d.expiresAt ≤ now) }

/-! ### The outbox -/

/-- What `push_outbox_enqueue` is called with. -/
structure Notification where
  event : String
  title : String
  message : String
  payload : Dict
  dedupeKey : String
  retentionSeconds : Int
  deviceLimit : Int

/-- The row of a notification for a device. -/
def Notification.row (n : Notification) (now : Time) (device : PushDevice) (id : Nat)
    (apnsId : String) : Delivery where
  id := id
  dedupeKey := takeText 256 n.dedupeKey
  token := device.token
  environment := device.environment
  event := takeText 64 n.event
  title := takeText 120 n.title
  message := takeText 900 n.message
  payloadJson := jsonDumpsBounded (.dict n.payload) (8 * 1024)
  status := .pending
  attempts := 0
  nextAttemptAt := now
  expiresAt := now + boundedSeconds 60 (7 * 86400) n.retentionSeconds
  leaseUntil := 0
  claimOwner := ""
  lastError := none
  apnsId := apnsId
  createdAt := now
  updatedAt := now
  sentAt := none

/-- `INSERT OR IGNORE` of one delivery. -/
def insertDelivery (n : Notification) (now : Time) (apnsIds : Nat → String) (s : PushStore)
    (device : PushDevice) : PushStore :=
  let row := n.row now device s.nextId (apnsIds s.nextId)
  if s.outbox.any fun d => d.dedupeKey = row.dedupeKey && d.token = row.token then s
  else { s with outbox := s.outbox ++ [row], nextId := s.nextId + 1 }

/-- `push_outbox_enqueue`. -/
def outboxEnqueue (n : Notification) (apnsIds : Nat → String) (now : Time) (s : PushStore) :
    PushStore :=
  let devices := ((s.devices.filter fun d => now < d.expiresAt).insertionSort
    fun a b => b.updatedAt ≤ a.updatedAt).take (max 1 (min n.deviceLimit 128)).toNat
  devices.foldl (insertDelivery n now apnsIds) s

/-- The lease of a delivery has run out. -/
def lapsed (now : Time) (d : Delivery) : Bool :=
  d.status = .sending && d.leaseUntil ≤ now && now < d.expiresAt

def reopen (now : Time) (d : Delivery) : Delivery :=
  { d with status := .pending, leaseUntil := 0, claimOwner := "", updatedAt := now }

/-- A delivery that is not finished has expired. -/
def overdue (now : Time) (d : Delivery) : Bool :=
  (d.status = .pending || d.status = .sending) && d.expiresAt ≤ now

/-- A pending delivery whose device is gone. -/
def orphaned (devices : List PushDevice) (d : Delivery) : Bool :=
  d.status = .pending && !devices.any fun x => x.token = d.token

def giveUp (error : String) (now : Time) (d : Delivery) : Delivery :=
  { d with
    status := .failed, leaseUntil := 0, claimOwner := ""
    lastError := d.lastError <|> some error, updatedAt := now }

def isDue (now : Time) (d : Delivery) : Bool :=
  d.status = .pending && d.nextAttemptAt ≤ now && now < d.expiresAt

/-- `ORDER BY next_attempt_at, id`. -/
def byNextAttempt (rows : List Delivery) : List Delivery :=
  rows.insertionSort fun a b =>
    a.nextAttemptAt < b.nextAttemptAt ∨ (a.nextAttemptAt = b.nextAttemptAt ∧ a.id ≤ b.id)

/-- The rows of the outbox before anything is claimed. -/
def sweepOutbox (now : Time) (s : PushStore) : List Delivery :=
  Tables.updateWhere (orphaned s.devices) (giveUp "Push-Gerät nicht mehr registriert" now)
    (Tables.updateWhere (overdue now) (giveUp "Benachrichtigung abgelaufen" now)
      (Tables.updateWhere (lapsed now) (reopen now) s.outbox))

/-- The owner holds the delivery. -/
def heldBy (owner : String) (d : Delivery) : Bool := d.status = .sending && d.claimOwner = owner

/-- A delivery is among those that a claim takes. -/
def toClaim (ids : List Nat) (d : Delivery) : Bool := d.status = .pending && ids.contains d.id

def claimFor (owner : String) (leaseUntil now : Time) (d : Delivery) : Delivery :=
  { d with
    status := .sending, attempts := d.attempts + 1, leaseUntil := leaseUntil
    claimOwner := owner, updatedAt := now }

/-- The owner holds the delivery, and it is one of these. -/
def heldAmong (owner : String) (ids : List Nat) (d : Delivery) : Bool :=
  heldBy owner d && ids.contains d.id

/-- `push_outbox_claim_due`, which returns the rows it claimed. -/
def outboxClaimDue (claimOwner : String) (limit leaseSeconds : Int) (now : Time)
    (s : PushStore) : Except PyError (List Delivery × PushStore) :=
  let owner := strip claimOwner
  if owner = "" then .error (.value "claim_owner darf nicht leer sein")
  else
    let rows := sweepOutbox now s
    let ids := ((byNextAttempt (rows.filter (isDue now))).take
      (max 1 (min limit 128)).toNat).map Delivery.id
    if ids = [] then .ok ([], { s with outbox := rows })
    else
      let rows := Tables.updateWhere (toClaim ids)
        (claimFor owner (now + boundedSeconds 10 300 leaseSeconds) now) rows
      .ok (byNextAttempt (rows.filter (heldAmong owner ids)), { s with outbox := rows })

/-- `push_outbox_renew_claims`. -/
def outboxRenewClaims (outboxIds : List Nat) (claimOwner : String) (leaseSeconds : Int)
    (now : Time) (s : PushStore) : Except PyError (List Nat × PushStore) :=
  let ids := firstOccurrences outboxIds
  let owner := strip claimOwner
  if ids = [] then .ok ([], s)
  else if owner = "" then .error (.value "claim_owner darf nicht leer sein")
  else
    let rows := Tables.updateWhere (heldAmong owner ids)
      (fun d => { d with
        leaseUntil := now + boundedSeconds 10 300 leaseSeconds, updatedAt := now }) s.outbox
    .ok (((rows.filter (heldAmong owner ids)).map Delivery.id).insertionSort (· ≤ ·),
      { s with outbox := rows })

/-- What `push_outbox_finish` is called with. -/
structure FinishRequest where
  claimOwner : String
  sent : Bool
  retry : Bool
  retryDelaySeconds : Int
  error : String
  maxAttempts : Int

/-- The answers of `push_outbox_finish`. -/
inductive FinishAnswer
  | notOwned | missing
  | finished (status : DeliveryStatus)
  deriving DecidableEq, Repr

/-- The delivery may be tried again. -/
def mayRetry (r : FinishRequest) (now : Time) (devices : List PushDevice) (d : Delivery) : Bool :=
  r.retry && devices.any (fun x => x.token = d.token) && d.attempts < max 1 r.maxAttempts &&
    now < d.expiresAt

/-- The status with which a delivery is finished. -/
def finishStatus (r : FinishRequest) (now : Time) (devices : List PushDevice) (d : Delivery) :
    DeliveryStatus :=
  if r.sent then .sent else if mayRetry r now devices d then .pending else .failed

/-- The row of a finished delivery. -/
def finishedDelivery (r : FinishRequest) (status : DeliveryStatus) (now : Time) (d : Delivery) :
    Delivery :=
  { d with
    status := status
    nextAttemptAt :=
      if status = .pending then now + boundedSeconds 1 86400 r.retryDelaySeconds else now
    leaseUntil := 0
    claimOwner := ""
    lastError := if r.error = "" then none else some (takeText 1000 r.error)
    updatedAt := now
    sentAt := if status = .sent then some now else none }

/-- `push_outbox_finish`. -/
def outboxFinish (id : Nat) (r : FinishRequest) (now : Time) (s : PushStore) :
    Except PyError (FinishAnswer × PushStore) :=
  let owner := strip r.claimOwner
  if owner = "" then .error (.value "claim_owner darf nicht leer sein")
  else
    match s.outbox.find? fun d => d.id = id && heldBy owner d with
    | none => .ok (if s.outbox.any fun d => d.id = id then .notOwned else .missing, s)
    | some row =>
      let status := finishStatus r now s.devices row
      .ok (.finished status, { s with
        outbox := Tables.updateWhere (fun d => d.id = id && heldBy owner d)
          (finishedDelivery r status now) s.outbox })

/-- `push_outbox_prune`. -/
def outboxPrune (olderThanDays : Int) (now : Time) (s : PushStore) : PushStore :=
  let cutoff := now - max 1 olderThanDays * 86400 * 1000000
  { s with outbox := s.outbox.filter fun d =>
      !((d.status = .sent || d.status = .failed) && decide (d.updatedAt < cutoff)) }

end RcloneSync
