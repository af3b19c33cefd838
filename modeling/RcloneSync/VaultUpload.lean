/-
RcloneSync/VaultUpload.lean

Uploads to the device vault (device_vault.py), across crashes.

An upload has two files: the part file with its bytes, and the record, which is replaced as
a whole.  A call reads both, and then writes one after the other; a `Plan` is the list of
these writes together with the answer, and a crash cuts the list anywhere.  Appending a
chunk is written byte by byte, since a crash may leave any part of it.

A chunk is acknowledged as soon as its receipt is saved, that is, the record that counts it;
a call that returns has saved it.  In every reachable state the part file begins with the
acknowledged chunks (`Intact`), and the reconciliation at the beginning of the next call
cuts off the rest (`upload_reconciled`).

An upload whose content is in the blob store already has no part file at all: its record
says `uploaded` from the beginning (`deduplicated_without_part`).
-/
import RcloneSync.JobStore
import RcloneSync.PairCommand
import RcloneSync.Runs

namespace RcloneSync

open Py Runs

/-! ### Records -/

inductive UploadStatus
  | receiving | uploaded | queued | transferring | ready | error
  deriving DecidableEq, Repr

/-- `endpoint_binding`. -/
structure EndpointBinding where
  localPath : String
  remote : String
  direction : String
  deriving DecidableEq, Repr

/-- The record of an upload. -/
structure VaultRecord where
  identity : String
  targetRoot : String
  binding : Option EndpointBinding
  size : Int
  received : Int
  status : UploadStatus
  deduplicated : Bool
  error : Option String
  updatedAt : Time
  deriving DecidableEq, Repr

abbrev Bytes := List UInt8

/-- The two files of an upload. -/
structure VaultDisk where
  record : Option VaultRecord
  part : Option Bytes
  deriving DecidableEq, Repr

def VaultDisk.empty : VaultDisk := ⟨none, none⟩

/-- The bytes of the part file. -/
def VaultDisk.bytes (d : VaultDisk) : Bytes := d.part.getD []

inductive VaultError
  | vault (message : String)
  deriving DecidableEq, Repr

/-- What is written at once. -/
inductive DiskWrite
  | touch
  | truncate (n : Nat)
  | byte (b : UInt8)
  | save (record : VaultRecord)
  deriving DecidableEq, Repr

def DiskWrite.apply (d : VaultDisk) : DiskWrite → VaultDisk
  | .touch => { d with part := some d.bytes }
  | .truncate n => { d with part := some (d.bytes.take n) }
  | .byte b => { d with part := some (d.bytes ++ [b]) }
  | .save record => { d with record := some record }

/-- The files after some writes. -/
def VaultDisk.after (d : VaultDisk) (writes : List DiskWrite) : VaultDisk :=
  writes.foldl DiskWrite.apply d

/-- What a call writes, and what it answers when it comes to its end. -/
structure Plan where
  writes : List DiskWrite
  answer : Except VaultError VaultRecord

def Plan.refuse (writes : List DiskWrite) (message : String) : Plan :=
  ⟨writes, .error (.vault message)⟩

/-! ### The destination -/

/-- `endpoint_binding`. -/
def endpointBinding (pair : Dict) : EndpointBinding :=
  ⟨Dict.textOr pair "local" "", Dict.textOr pair "remote" "", pairDirection pair⟩

/-- `target_root`. -/
def targetRoot (pair : Dict) : String :=
  if pairDirection pair = "pull" then Dict.textOr pair "local" ""
  else Dict.textOr pair "remote" ""

/-- The backup side of `_endpoints`. -/
def backupEndpoint (pair : Dict) : String :=
  if pairDirection pair = "push" then Dict.textOr pair "remote" ""
  else Dict.textOr pair "local" ""

/-- `_validate_destination`, for the configured pairs. -/
def validDestination (pairs : List Value) (record : VaultRecord) : Bool :=
  let configured := (pairs.filterMap asDict).find? fun pair =>
    pyStr (pyOr (Dict.get pair "id") (pyOr (Dict.get pair "name") (.str ""))) = record.identity
  match configured with
  | none => false
  | some pair =>
    (record.targetRoot = targetRoot pair || record.targetRoot = backupEndpoint pair) &&
      record.binding.all fun binding => binding = endpointBinding pair

def destinationChanged : String :=
  "Datenweg hat sich geändert oder wurde entfernt; lokale Datei bleibt erhalten. " ++
    "Konfiguration neu laden und die Datei dem gewünschten Datenweg neu zuordnen."

/-! ### The calls -/

def maxFileBytes : Int := 50 * 1024 * 1024 * 1024

def maxChunkBytes : Nat := 1024 * 1024

/-- `create_upload`, for a pair and a file that it accepts; `blobExists` says whether the
content is in the store already. -/
def createPlan (size : Int) (pair : Dict) (root : String) (blobExists : Bool) (now : Time) : Plan :=
  if size < 1 ∨ maxFileBytes < size then
    .refuse [] "Dateigröße liegt außerhalb des erlaubten Bereichs"
  else
    let record : VaultRecord := {
      identity := pyStr (pyOr (Dict.get pair "id") (pyOr (Dict.get pair "name") (.str "")))
      targetRoot := root
      binding := some (endpointBinding pair)
      size := size
      received := if blobExists then size else 0
      status := if blobExists then .uploaded else .receiving
      deduplicated := blobExists
      error := none
      updatedAt := now }
    ⟨.save record :: (if blobExists then [] else [.touch]), .ok record⟩

/-- `_reconcile_received`. -/
def reconcileReceived (record : VaultRecord) (part : Option Bytes) (now : Time) : Plan :=
  if record.status ≠ .receiving then ⟨[], .ok record⟩
  else if ¬(0 ≤ record.received ∧ record.received ≤ record.size) ∨ record.size < 1 then
    .refuse [] "Upload-Status ist beschädigt"
  else
    let present : Int := (part.getD []).length
    let cut := record.received < present
    let current := if cut then record.received else present
    let complete := current = record.size
    let changed := current ≠ record.received ∨ complete
    let record' := { record with
      received := current
      status := if complete then .uploaded else record.status
      updatedAt := if changed then now else record.updatedAt }
    ⟨(if cut then [.truncate record.received.toNat] else []) ++
      (if changed then [.save record'] else []), .ok record'⟩

/-- `_load_record`, and then `_reconcile_received`. -/
def loadReconciled (d : VaultDisk) (now : Time) : Plan :=
  match d.record with
  | none => .refuse [] "Upload nicht gefunden"
  | some record => reconcileReceived record d.part now

/-- `append_chunk`. -/
def appendPlan (pairs : List Value) (offset : Int) (payload : Bytes) (now : Time)
    (d : VaultDisk) : Plan :=
  if payload = [] ∨ maxChunkBytes < payload.length then
    .refuse [] "Ein Upload-Block darf höchstens 1048576 Bytes enthalten"
  else
    let start := loadReconciled d now
    match start.answer with
    | .error err => ⟨start.writes, .error err⟩
    | .ok record =>
      let current : Int := (d.after start.writes).bytes.length
      if !validDestination pairs record then .refuse start.writes destinationChanged
      else if record.status ≠ .receiving then
        .refuse start.writes "Dieser Upload nimmt keine weiteren Daten an"
      else if offset ≠ current then
        .refuse start.writes ("Upload-Versatz stimmt nicht; erwartet werden " ++
          toString current ++ " Bytes")
      else if record.size < current + payload.length then
        .refuse start.writes "Upload würde die angekündigte Dateigröße überschreiten"
      else
        let record' := { record with
          received := current + payload.length
          status := if current + payload.length = record.size then .uploaded else record.status
          updatedAt := now }
        ⟨start.writes ++ payload.map .byte ++ [.save record'], .ok record'⟩

/-- `upload_status`. -/
def statusPlan (now : Time) (d : VaultDisk) : Plan := loadReconciled d now

/-- `queue_completion`. -/
def queuePlan (pairs : List Value) (now : Time) (d : VaultDisk) : Plan :=
  let start := loadReconciled d now
  match start.answer with
  | .error err => ⟨start.writes, .error err⟩
  | .ok record =>
    if record.status ≠ .ready ∧ validDestination pairs record = false then
      .refuse start.writes destinationChanged
    else if record.status = .queued ∨ record.status = .transferring ∨ record.status = .ready then
      ⟨start.writes, .ok record⟩
    else if record.status ≠ .uploaded then
      .refuse start.writes "Upload ist noch nicht vollständig"
    else
      let record' := { record with status := .queued, error := none, updatedAt := now }
      ⟨start.writes ++ [.save record'], .ok record'⟩

/-! ### The system -/

/-- The files of the upload, the chunks whose receipts were saved, and those whose calls
returned. -/
structure VaultSystem where
  disk : VaultDisk
  acknowledged : List Bytes
  answered : List Bytes

def VaultSystem.init : VaultSystem := ⟨.empty, [], []⟩

inductive VaultCall
  | create (size : Int) (pair : Dict) (root : String) (blobExists : Bool)
  | append (pairs : List Value) (offset : Int) (payload : Bytes)
  | status
  | queue (pairs : List Value)

/-- What a call plans to do.  An upload is created under a name that is new. -/
def VaultCall.plan (now : Time) (d : VaultDisk) : VaultCall → Plan
  | .create size pair root blobExists =>
    if d = .empty then createPlan size pair root blobExists now
    else .refuse [] "Der Name ist vergeben"
  | .append pairs offset payload => appendPlan pairs offset payload now d
  | .status => statusPlan now d
  | .queue pairs => queuePlan pairs now d

/-- A call, which may crash after some of its writes. -/
structure VaultAction where
  call : VaultCall
  now : Time
  crash : Option Nat

/-- The writes that a call comes to. -/
def VaultAction.performed (a : VaultAction) (plan : Plan) : List DiskWrite :=
  match a.crash with
  | none => plan.writes
  | some n => plan.writes.take n

/-- The chunk of a call that accepts it. -/
def VaultCall.chunk (c : VaultCall) (plan : Plan) : List Bytes :=
  match c, plan.answer with
  | .append _ _ payload, .ok _ => [payload]
  | _, _ => []

def vaultStep (v : VaultSystem) (a : VaultAction) : VaultSystem :=
  let plan := a.call.plan a.now v.disk
  let done := a.performed plan = plan.writes
  { disk := v.disk.after (a.performed plan)
    acknowledged := v.acknowledged ++ if done then a.call.chunk plan else []
    answered := v.answered ++ if done ∧ a.crash = none then a.call.chunk plan else [] }

def vaultSteps (v : VaultSystem) (a : VaultAction) (v' : VaultSystem) : Prop := v' = vaultStep v a

/-! ### The part file begins with the acknowledged chunks -/

/-- The states of an upload between two calls. -/
inductive Intact : VaultDisk → List Bytes → Prop
  | unborn : Intact .empty []
  | shared {r : VaultRecord} (hshared : r.deduplicated = true) (hstatus : r.status ≠ .receiving)
      (hreceived : r.received = r.size) : Intact ⟨some r, none⟩ []
  | receiving {r : VaultRecord} {part : Option Bytes} {chunks : List Bytes} {rest : Bytes}
      (hshared : r.deduplicated = false) (hstatus : r.status = .receiving)
      (hreceived : r.received = chunks.flatten.length) (hopen : r.received < r.size)
      (hpart : part.getD [] = chunks.flatten ++ rest) : Intact ⟨some r, part⟩ chunks
  | complete {r : VaultRecord} {part : Option Bytes} {chunks : List Bytes}
      (hshared : r.deduplicated = false) (hstatus : r.status ≠ .receiving)
      (hreceived : r.received = chunks.flatten.length) (hsize : r.received = r.size)
      (hpart : part.getD [] = chunks.flatten) : Intact ⟨some r, part⟩ chunks

/-- An upload that goes on, where nothing has to be cut off. -/
theorem intact_clean {r : VaultRecord} {part : Option Bytes} {chunks : List Bytes}
    (hshared : r.deduplicated = false) (hstatus : r.status = .receiving)
    (hreceived : r.received = chunks.flatten.length) (hopen : r.received < r.size)
    (hpart : part.getD [] = chunks.flatten) : Intact ⟨some r, part⟩ chunks :=
  .receiving hshared hstatus hreceived hopen (hpart.trans (List.append_nil _).symm)

theorem after_append (d : VaultDisk) (ws ws' : List DiskWrite) :
    d.after (ws ++ ws') = (d.after ws).after ws' :=
  List.foldl_append

/-- What is appended byte by byte stands behind what was there. -/
theorem after_bytes (r : Option VaultRecord) (part : Option Bytes) (payload : Bytes) :
    ((⟨r, part⟩ : VaultDisk).after (payload.map .byte)).record = r ∧
      ((⟨r, part⟩ : VaultDisk).after (payload.map .byte)).bytes = part.getD [] ++ payload := by
  induction payload generalizing part with
  | nil => exact ⟨rfl, (List.append_nil _).symm⟩
  | cons b payload ih =>
    obtain ⟨hrecord, hbytes⟩ := ih (some (part.getD [] ++ [b]))
    refine ⟨hrecord, hbytes.trans ?_⟩
    show part.getD [] ++ [b] ++ payload = part.getD [] ++ b :: payload
    rw [List.append_assoc]
    rfl

/-- Where writes stop that are made of two parts. -/
theorem prefix_append_cases {α : Type} {p ws ws' : List α} (h : p <+: ws ++ ws') :
    p <+: ws ∨ ∃ q, q <+: ws' ∧ p = ws ++ q := by
  rcases List.prefix_or_prefix_of_prefix h (List.prefix_append ws ws') with hleft | ⟨q, rfl⟩
  · exact Or.inl hleft
  · exact Or.inr ⟨q, (List.prefix_append_right_inj ws).mp h, rfl⟩

section Calls

variable {r : VaultRecord} {part : Option Bytes} {chunks : List Bytes} {rest : Bytes}

theorem reconcile_closed (h : r.status ≠ .receiving) (now : Time) :
    loadReconciled ⟨some r, part⟩ now = ⟨[], .ok r⟩ :=
  if_pos h

/-- **The reconciliation cuts off what is not acknowledged**, and changes nothing else. -/
theorem reconcile_receiving (hshared : r.deduplicated = false) (hstatus : r.status = .receiving)
    (hreceived : r.received = chunks.flatten.length) (hopen : r.received < r.size)
    (hpart : part.getD [] = chunks.flatten ++ rest) (now : Time) :
    ∃ ws, loadReconciled ⟨some r, part⟩ now = ⟨ws, .ok r⟩ ∧
      (∀ ws', ws' <+: ws → Intact ((⟨some r, part⟩ : VaultDisk).after ws') chunks) ∧
      ∃ part', (⟨some r, part⟩ : VaultDisk).after ws = ⟨some r, part'⟩ ∧
        part'.getD [] = chunks.flatten := by
  have hstart : Intact ⟨some r, part⟩ chunks := .receiving hshared hstatus hreceived hopen hpart
  have hvalid : ¬(¬(0 ≤ r.received ∧ r.received ≤ r.size) ∨ r.size < 1) := by omega
  have hopen' : ¬r.received = r.size := by omega
  unfold loadReconciled reconcileReceived
  simp only [if_neg (not_not.mpr hstatus), if_neg hvalid]
  have hlength : ((part.getD []).length : Int) = r.received + rest.length := by
    rw [hpart, List.length_append, hreceived]
    omega
  cases rest with
  | nil =>
    have hcut : ¬r.received < ((part.getD []).length : Int) := by
      rw [hlength]
      simp
    have hsame : ((part.getD []).length : Int) = r.received := by rw [hlength]; simp
    refine ⟨[], ?_, fun ws' hws => ?_, part, rfl, by rw [hpart, List.append_nil]⟩
    · simp only [hsame, lt_self_iff_false, if_false, hopen', ne_eq, not_true_eq_false, or_self,
        List.append_nil]
    · rw [List.prefix_nil.mp hws]
      exact hstart
  | cons b rest =>
    have hcut : r.received < ((part.getD []).length : Int) := by
      rw [hlength, List.length_cons]
      omega
    have htake : (part.getD []).take r.received.toNat = chunks.flatten := by
      rw [hpart, hreceived, Int.toNat_natCast, List.take_left']
      rfl
    refine ⟨[.truncate r.received.toNat], ?_, fun ws' hws => ?_, some chunks.flatten, ?_, rfl⟩
    · simp only [if_pos hcut, hopen', ne_eq, not_true_eq_false, or_self, if_false,
        List.append_nil]
    · rcases List.prefix_cons_iff.mp hws with rfl | ⟨t, rfl, ht⟩
      · exact hstart
      · rw [List.prefix_nil.mp ht]
        exact intact_clean hshared hstatus hreceived hopen htake
    · show (⟨some r, some ((part.getD []).take r.received.toNat)⟩ : VaultDisk) = _
      rw [htake]

/-- What a call finds after the reconciliation. -/
theorem loadReconciled_spec {d : VaultDisk} (h : Intact d chunks) (now : Time) :
    (d = .empty ∧ chunks = []) ∨
      ∃ ws r part', loadReconciled d now = ⟨ws, .ok r⟩ ∧
        (∀ ws', ws' <+: ws → Intact (d.after ws') chunks) ∧ d.after ws = ⟨some r, part'⟩ ∧
        (r.deduplicated = false → r.received = chunks.flatten.length ∧
          part'.getD [] = chunks.flatten) := by
  have hnil : ∀ ws', ws' <+: [] → Intact (d.after ws') chunks := fun ws' hws => by
    rw [List.prefix_nil.mp hws]
    exact h
  cases h with
  | unborn => exact Or.inl ⟨rfl, rfl⟩
  | shared hshared hstatus hreceived =>
    refine Or.inr ⟨[], _, _, reconcile_closed hstatus now, hnil, rfl, fun hnot => ?_⟩
    rw [hshared] at hnot
    cases hnot
  | receiving hshared hstatus hreceived hopen hpart =>
    obtain ⟨ws, hload, hws, part', hafter, hbytes⟩ :=
      reconcile_receiving hshared hstatus hreceived hopen hpart now
    exact Or.inr ⟨ws, _, part', hload, hws, hafter, fun _ => ⟨hreceived, hbytes⟩⟩
  | complete hshared hstatus hreceived hsize hpart =>
    exact Or.inr ⟨[], _, _, reconcile_closed hstatus now, hnil, rfl, fun _ => ⟨hreceived, hpart⟩⟩

/-- Wherever a call stops, the upload is intact; the chunk of a call that is done counts. -/
def Keeps (d : VaultDisk) (chunks : List Bytes) (plan : Plan) (chunk : List Bytes) : Prop :=
  ∀ p, p <+: plan.writes → Intact (d.after p) (chunks ++ if p = plan.writes then chunk else [])

theorem keeps_writes {d : VaultDisk} {plan : Plan}
    (h : ∀ p, p <+: plan.writes → Intact (d.after p) chunks) : Keeps d chunks plan [] := by
  intro p hp
  rw [ite_self, List.append_nil]
  exact h p hp

theorem keeps_nothing {d : VaultDisk} (h : Intact d chunks) {plan : Plan}
    (hwrites : plan.writes = []) : Keeps d chunks plan [] := by
  refine keeps_writes fun p hp => ?_
  rw [hwrites] at hp
  rw [List.prefix_nil.mp hp]
  exact h

theorem keeps_create (size : Int) (pair : Dict) (root : String) (blobExists : Bool) (now : Time) :
    Keeps .empty [] (createPlan size pair root blobExists now) [] := by
  unfold createPlan
  by_cases hsize : size < 1 ∨ maxFileBytes < size
  · rw [if_pos hsize]
    exact keeps_nothing .unborn rfl
  · rw [if_neg hsize]
    refine keeps_writes fun p hp => ?_
    rcases List.prefix_cons_iff.mp hp with rfl | ⟨t, rfl, ht⟩
    · exact .unborn
    · cases blobExists with
      | true =>
        rw [List.prefix_nil.mp ht]
        exact .shared rfl (by simp) rfl
      | false =>
        have hopen : (0 : Int) < size := by omega
        rcases List.prefix_cons_iff.mp ht with rfl | ⟨t', rfl, ht'⟩
        · exact intact_clean rfl rfl rfl hopen rfl
        · rw [List.prefix_nil.mp ht']
          exact intact_clean rfl rfl rfl hopen rfl

theorem keeps_status {d : VaultDisk} (h : Intact d chunks) (now : Time) :
    Keeps d chunks (statusPlan now d) [] := by
  rcases loadReconciled_spec h now with ⟨rfl, rfl⟩ | ⟨ws, r, part', hload, hws, -, -⟩
  · exact keeps_nothing .unborn rfl
  · refine keeps_writes fun p hp => hws p ?_
    unfold statusPlan at hp
    rwa [hload] at hp

theorem keeps_queue {d : VaultDisk} (h : Intact d chunks) (pairs : List Value) (now : Time) :
    Keeps d chunks (queuePlan pairs now d) [] := by
  rcases loadReconciled_spec h now with ⟨rfl, rfl⟩ | ⟨ws, r, part', hload, hws, hafter, hbytes⟩
  · exact keeps_nothing .unborn rfl
  · unfold queuePlan
    simp only [hload]
    split_ifs with hdest hlater hopen
    · exact keeps_writes hws
    · exact keeps_writes hws
    · exact keeps_writes hws
    · have hready : r.status = .uploaded := not_not.mp hopen
      refine keeps_writes fun p hp => ?_
      rcases prefix_append_cases hp with hleft | ⟨q, hq, rfl⟩
      · exact hws p hleft
      · have hall := hws ws List.prefix_rfl
        rw [hafter] at hall
        rw [after_append, hafter]
        rcases List.prefix_cons_iff.mp hq with rfl | ⟨t, rfl, ht⟩
        · exact hall
        · rw [List.prefix_nil.mp ht]
          cases hall with
          | shared hshared hstatus hreceived => exact .shared hshared (by simp) hreceived
          | receiving hshared hstatus =>
            rw [hstatus] at hready
            cases hready
          | complete hshared hstatus hreceived hsize hpart =>
            exact .complete hshared (by simp) hreceived hsize hpart

/-- A chunk that is accepted: until its receipt is saved its bytes are a rest that is cut off
again. -/
theorem keeps_accepted {d : VaultDisk} {ws : List DiskWrite} {part' : Option Bytes}
    {payload : Bytes} {r' : VaultRecord} {answer : Except VaultError VaultRecord}
    (hws : ∀ ws', ws' <+: ws → Intact (d.after ws') chunks)
    (hafter : d.after ws = ⟨some r, part'⟩) (hshared : r.deduplicated = false)
    (hstatus : r.status = .receiving) (hreceived : r.received = chunks.flatten.length)
    (hpart : part'.getD [] = chunks.flatten) (hopen : r.received < r.size)
    (hshared' : r'.deduplicated = false) (hreceived' : r'.received = r.received + payload.length)
    (hfits : r'.received ≤ r'.size)
    (hstatus' : r'.status = if r'.received = r'.size then .uploaded else .receiving) :
    Keeps d chunks ⟨ws ++ payload.map .byte ++ [.save r'], answer⟩ [payload] := by
  intro p hp
  simp only [List.append_assoc] at hp ⊢
  have hunfinished : ∀ {q : List DiskWrite}, q.length < payload.length + 1 →
      ws ++ q ≠ ws ++ (payload.map .byte ++ [.save r']) := by
    intro q hq heq
    have hlength := congrArg List.length (List.append_cancel_left heq)
    simp only [List.length_append, List.length_map, List.length_singleton] at hlength
    omega
  rcases prefix_append_cases hp with hleft | ⟨q, hq, rfl⟩
  · have hne : p ≠ ws ++ (payload.map .byte ++ [.save r']) := by
      rintro rfl
      have hlength := hleft.length_le
      simp only [List.length_append, List.length_singleton] at hlength
      omega
    rw [if_neg hne, List.append_nil]
    exact hws p hleft
  · rw [after_append, hafter]
    rcases prefix_append_cases hq with hbytes | ⟨q', hq', rfl⟩
    · have hshort : q.length < payload.length + 1 := by
        have hlength := hbytes.length_le
        rw [List.length_map] at hlength
        omega
      rw [if_neg (hunfinished hshort), List.append_nil]
      obtain ⟨n, rfl⟩ : ∃ n, q = (payload.take n).map .byte := by
        refine ⟨q.length, ?_⟩
        rw [List.map_take]
        exact (List.prefix_iff_eq_take.mp hbytes)
      obtain ⟨hrecord, hwritten⟩ := after_bytes (some r) part' (payload.take n)
      generalize (⟨some r, part'⟩ : VaultDisk).after ((payload.take n).map .byte) = d'
        at hrecord hwritten
      obtain ⟨record, part''⟩ := d'
      obtain rfl : record = some r := hrecord
      exact .receiving hshared hstatus hreceived hopen (hwritten.trans (by rw [hpart]))
    · obtain ⟨hrecord, hwritten⟩ := after_bytes (some r) part' payload
      rw [after_append]
      generalize (⟨some r, part'⟩ : VaultDisk).after (payload.map .byte) = d'
        at hrecord hwritten
      obtain ⟨record, part''⟩ := d'
      obtain rfl : record = some r := hrecord
      have hbytes : part''.getD [] = chunks.flatten ++ payload := hwritten.trans (by rw [hpart])
      rcases List.prefix_cons_iff.mp hq' with rfl | ⟨t, rfl, ht⟩
      · rw [if_neg (hunfinished (by simp)), List.append_nil]
        exact .receiving hshared hstatus hreceived hopen hbytes
      · obtain rfl := List.prefix_nil.mp ht
        rw [if_pos rfl]
        have hflatten : (chunks ++ [payload]).flatten = chunks.flatten ++ payload := by simp
        have hcount : r'.received = (chunks ++ [payload]).flatten.length := by
          rw [hflatten, List.length_append, hreceived', hreceived]
          rfl
        by_cases hfull : r'.received = r'.size
        · rw [if_pos hfull] at hstatus'
          exact .complete hshared' (by rw [hstatus']; simp) hcount hfull
            (hbytes.trans hflatten.symm)
        · rw [if_neg hfull] at hstatus'
          refine intact_clean hshared' hstatus' hcount (by omega) ?_
          rw [hflatten]
          exact hbytes

theorem keeps_append {d : VaultDisk} (h : Intact d chunks) (pairs : List Value) (offset : Int)
    (payload : Bytes) (now : Time) :
    Keeps d chunks (appendPlan pairs offset payload now d)
      (VaultCall.chunk (.append pairs offset payload) (appendPlan pairs offset payload now d)) := by
  have hrefused : ∀ ws message, (∀ ws', ws' <+: ws → Intact (d.after ws') chunks) →
      Keeps d chunks (Plan.refuse ws message)
        (VaultCall.chunk (.append pairs offset payload) (Plan.refuse ws message)) :=
    fun ws message hws => keeps_writes hws
  have hnone : ∀ ws', ws' <+: [] → Intact (d.after ws') chunks := fun ws' hws => by
    rw [List.prefix_nil.mp hws]
    exact h
  unfold appendPlan
  by_cases hpayload : payload = [] ∨ maxChunkBytes < payload.length
  · rw [if_pos hpayload]
    exact hrefused [] _ hnone
  rw [if_neg hpayload]
  rcases loadReconciled_spec h now with ⟨rfl, rfl⟩ | ⟨ws, r, part', hload, hws, hafter, hbytes⟩
  · exact hrefused [] _ hnone
  simp only [hload]
  by_cases hdest : (!validDestination pairs r) = true
  · rw [if_pos hdest]
    exact hrefused ws _ hws
  rw [if_neg hdest]
  by_cases hstatus : r.status ≠ .receiving
  · rw [if_pos hstatus]
    exact hrefused ws _ hws
  rw [if_neg hstatus]
  by_cases hoffset : offset ≠ ((d.after ws).bytes.length : Int)
  · rw [if_pos hoffset]
    exact hrefused ws _ hws
  rw [if_neg hoffset]
  by_cases hsize : r.size < ((d.after ws).bytes.length : Int) + payload.length
  · rw [if_pos hsize]
    exact hrefused ws _ hws
  rw [if_neg hsize]
  have hstatus : r.status = .receiving := not_not.mp hstatus
  have hintact := hws ws List.prefix_rfl
  rw [hafter] at hintact hsize ⊢
  cases hintact with
  | shared _ hnot => exact absurd hstatus hnot
  | complete _ hnot => exact absurd hstatus hnot
  | receiving hshared _ hreceived hopen _ =>
    obtain ⟨-, hpart⟩ := hbytes hshared
    have hcurrent : ((⟨some r, part'⟩ : VaultDisk).bytes.length : Int) = r.received := by
      show ((part'.getD []).length : Int) = _
      rw [hpart, hreceived]
    rw [hcurrent] at hsize ⊢
    refine keeps_accepted hws hafter hshared hstatus hreceived hpart hopen hshared rfl
      (Int.not_lt.mp hsize) ?_
    show (if r.received + payload.length = r.size then UploadStatus.uploaded else r.status) = _
    rw [hstatus]

end Calls

/-! ### Runs -/

theorem performed_of_plan (a : VaultAction) (plan : Plan) : a.performed plan <+: plan.writes := by
  unfold VaultAction.performed
  cases a.crash with
  | none => exact List.prefix_rfl
  | some n => exact List.take_prefix n _

/-- **Every call keeps the upload intact, wherever it crashes.** -/
theorem vaultStep_intact {v : VaultSystem} (h : Intact v.disk v.acknowledged) (a : VaultAction) :
    Intact (vaultStep v a).disk (vaultStep v a).acknowledged := by
  have hkeeps : Keeps v.disk v.acknowledged (a.call.plan a.now v.disk)
      (a.call.chunk (a.call.plan a.now v.disk)) := by
    cases a.call with
    | create size pair root blobExists =>
      simp only [VaultCall.plan]
      by_cases hempty : v.disk = .empty
      · rw [if_pos hempty]
        rw [hempty] at h ⊢
        generalize v.acknowledged = chunks at h ⊢
        cases h with
        | unborn => exact keeps_create size pair root blobExists a.now
      · rw [if_neg hempty]
        exact keeps_nothing h rfl
    | append pairs offset payload => exact keeps_append h pairs offset payload a.now
    | status => exact keeps_status h a.now
    | queue pairs => exact keeps_queue h pairs a.now
  exact hkeeps _ (performed_of_plan a _)

theorem intact_run {v : VaultSystem} {as : List VaultAction}
    (h : Run vaultSteps .init as v) :
    Intact v.disk v.acknowledged ∧ v.answered.Sublist v.acknowledged := by
  refine h.preserves (fun v => Intact v.disk v.acknowledged ∧ v.answered.Sublist v.acknowledged)
    (fun s a t hs hstep => ?_) ⟨.unborn, List.Sublist.refl _⟩
  obtain rfl : t = vaultStep s a := hstep
  refine ⟨vaultStep_intact hs.1 a, hs.2.append ?_⟩
  by_cases hdone : a.performed (a.call.plan a.now s.disk) = (a.call.plan a.now s.disk).writes
  · rw [if_pos hdone]
    split_ifs
    · exact List.Sublist.refl _
    · exact List.nil_sublist _
  · rw [if_neg hdone, if_neg fun h => hdone h.1]

/-- **Upload integrity.**  In every reachable state, after the reconciliation, the part file
of an upload that was not deduplicated is the concatenation of the acknowledged chunks, the
record counts its bytes, which are at most the declared ones, and says more than `receiving`
only if they are all there; every chunk whose call returned is acknowledged.  A deduplicated
upload has no part file and acknowledges no chunk. -/
theorem upload_reconciled {v : VaultSystem} {as : List VaultAction}
    (h : Run vaultSteps .init as v) : v.answered.Sublist v.acknowledged ∧
    ∀ r, v.disk.record = some r →
      (r.deduplicated = false → ∀ now, ∃ r',
        (loadReconciled v.disk now).answer = .ok r' ∧
        (v.disk.after (loadReconciled v.disk now).writes).record = some r' ∧
        (v.disk.after (loadReconciled v.disk now).writes).bytes = v.acknowledged.flatten ∧
        r'.received = (v.disk.after (loadReconciled v.disk now).writes).bytes.length ∧
        r'.received ≤ r'.size ∧
        (r'.status ≠ .receiving → r'.received = r'.size)) ∧
      (r.deduplicated = true → v.disk.part = none ∧ v.acknowledged = [] ∧
        r.status ≠ .receiving ∧ r.received = r.size) := by
  obtain ⟨hintact, hanswered⟩ := intact_run h
  refine ⟨hanswered, fun r hr => ⟨fun hshared now => ?_, fun hshared => ?_⟩⟩
  · generalize v.disk = d at hintact hr ⊢
    generalize v.acknowledged = chunks at hintact ⊢
    cases hintact with
    | unborn => cases hr
    | shared hnot =>
      obtain rfl := Option.some.inj hr
      rw [hshared] at hnot
      cases hnot
    | receiving _ hstatus hreceived hopen hpart =>
      obtain rfl := Option.some.inj hr
      obtain ⟨ws, hload, -, part', hafter, hbytes⟩ :=
        reconcile_receiving hshared hstatus hreceived hopen hpart now
      refine ⟨_, by rw [hload], by rw [hload, hafter], by rw [hload, hafter]; exact hbytes, ?_,
        by omega, fun hnot => absurd hstatus hnot⟩
      rw [hload, hafter, hreceived]
      show _ = ((part'.getD []).length : Int)
      rw [hbytes]
    | complete _ hstatus hreceived hsize hpart =>
      obtain rfl := Option.some.inj hr
      rw [reconcile_closed hstatus now]
      refine ⟨_, rfl, rfl, hpart, ?_, le_of_eq hsize, fun _ => hsize⟩
      rw [hreceived, ← hpart]
      rfl
  · generalize v.disk = d at hintact hr ⊢
    generalize v.acknowledged = chunks at hintact ⊢
    cases hintact with
    | unborn => cases hr
    | shared _ hstatus hreceived =>
      obtain rfl := Option.some.inj hr
      exact ⟨rfl, rfl, hstatus, hreceived⟩
    | receiving hnot =>
      obtain rfl := Option.some.inj hr
      rw [hshared] at hnot
      cases hnot
    | complete hnot =>
      obtain rfl := Option.some.inj hr
      rw [hshared] at hnot
      cases hnot

/-- A pair of a photo folder. -/
def vaultPair : Dict := [("id", .str "p"), ("local", .str "/photos"), ("remote", .str "box:photos")]

/-- Five bytes in two chunks: the second call crashes inside the chunk and is repeated. -/
def interruptedUpload : List VaultAction :=
  [⟨.create 5 vaultPair "box:photos" false, 0, none⟩,
    ⟨.append [.dict vaultPair] 0 [1, 2], 1, none⟩,
    ⟨.append [.dict vaultPair] 2 [3, 4, 5], 2, some 2⟩,
    ⟨.append [.dict vaultPair] 2 [3, 4, 5], 3, none⟩,
    ⟨.queue [.dict vaultPair], 4, none⟩]

theorem upload_reconciled_interrupted : ∃ v, Run vaultSteps .init interruptedUpload v ∧
    v.acknowledged = [[1, 2], [3, 4, 5]] ∧ v.disk.bytes = [1, 2, 3, 4, 5] ∧
    v.answered.Sublist v.acknowledged :=
  have hrun := run_of_foldl vaultStep .init interruptedUpload
  ⟨_, hrun, by decide +kernel, by decide +kernel, (upload_reconciled hrun).1⟩

/-- A file whose content is in the blob store: the record counts five bytes and says
`uploaded`, the part file does not exist. -/
theorem deduplicated_without_part : ∃ v r,
    Run vaultSteps .init [⟨.create 5 vaultPair "box:photos" true, 0, none⟩, ⟨.status, 1, none⟩] v ∧
    (v.disk.after (loadReconciled v.disk 2).writes).record = some r ∧
    r.status = .uploaded ∧ r.received = 5 ∧
    (v.disk.after (loadReconciled v.disk 2).writes).part = none := by
  refine ⟨_, _, run_of_foldl vaultStep .init _, rfl, rfl, rfl, rfl⟩

end RcloneSync
