/-
RcloneSync/VaultCompletion.lean

The end of an upload to the device vault (`complete_upload`, device_vault.py), with every call
that may fail on the way.

One `try` holds the copy, its check, the saving of the record as ready, and then the audit entry
and the notification.  Its handler saves the record as failed, whatever raised: an audit entry that
cannot be written takes the verified copy its state back (`ready_kept_iff`).
-/
import RcloneSync.Effects
import RcloneSync.HandoverImport
import RcloneSync.VaultBlobs

namespace RcloneSync

open Py Effects

/-! ### What may fail -/

/-- What is raised: an `Exception` with its text, or what `except Exception` lets through. -/
inductive Raised
  | exception (text : String)
  | other
  deriving DecidableEq, Repr

/-- The faults of a save under the lock of the record: of the lock, of the writing up to the
replacement of the file, of the removal of the temporary file, and of the release. -/
structure SaveFaults where
  acquire : Option Raised
  write : Option Raised
  unlink : Option Raised
  release : Option Raised
  deriving DecidableEq, Repr

/-- The faults of a notification: of the import, and of the outbox. -/
structure NoticeFaults where
  load : Option Raised
  queue : Option Raised
  deriving DecidableEq, Repr

/-- What the configuration says: the pairs, and what reading `timeout_hours` raises. -/
structure VaultConfig where
  pairs : List Value
  timeout : Option Raised

/-- The files that `_prepare_blob` finds, and what moving or removing them raises. -/
structure BlobFiles where
  blob : Option Bytes
  part : Option Bytes
  fault : Option Raised

/-- A finished process: its return code and what it printed. -/
structure ProcessEnd where
  returncode : Int
  text : String

/-- `rclone cat`: the digest of what it printed, and whether it was stopped. -/
structure CatRun where
  sha256 : String
  stalled : Bool
  timedOut : Bool
  finished : ProcessEnd

/-- What the calls to the outside come to. -/
structure CompletionRun where
  beginFaults : SaveFaults
  beginAt : Time
  config : Except Raised VaultConfig
  files : BlobFiles
  configLater : Except Raised VaultConfig
  copied : Except Raised ProcessEnd
  read : Except Raised CatRun
  guard : Option Raised
  localCopy : Option Raised
  readyFaults : SaveFaults
  readyAt : Time
  auditReady : Option Raised
  noticeReady : NoticeFaults
  errorFaults : SaveFaults
  errorAt : Time
  auditError : Option Raised
  noticeError : NoticeFaults

/-! ### The record and its file -/

/-- The record of an upload with the fields that its end reads and writes. -/
structure VaultItem where
  id : String
  pair : String
  filename : String
  sha256 : String
  targetRelative : String
  record : VaultRecord
  verified : Bool
  completedAt : Option Time

/-- The record file, what was put in its place during the call (the last first), the record in
memory, and what was audited and announced. -/
structure Completion where
  file : VaultItem
  saves : List VaultItem
  memory : VaultItem
  audits : List (String × Dict)
  notices : List (String × String × String)

/-- The record was loaded. -/
def Completion.start (item : VaultItem) : Completion := ⟨item, [], item, [], []⟩

abbrev VaultEffect := Effect Completion Raised

def changeMemory (f : VaultItem → VaultItem) : VaultEffect Unit :=
  modify fun s => { s with memory := f s.memory }

/-- A value that is read from outside. -/
def reading {α : Type} : Except Raised α → VaultEffect α
  | .ok a => pure a
  | .error e => throw e

/-- `_upload_record_lock`. -/
def withRecordLock {α : Type} (faults : SaveFaults) (body : VaultEffect α) : VaultEffect α := do
  raising faults.acquire
  ensuring body (raising faults.release)

/-- The time of the save. -/
def VaultItem.stamped (item : VaultItem) (now : Time) : VaultItem :=
  { item with record := { item.record with updatedAt := now } }

/-- `_save_record`. -/
def saveRecord (faults : SaveFaults) (now : Time) : VaultEffect Unit := do
  let saved := (← get).memory.stamped now
  ensuring
    (do
      raising faults.write
      modify fun s => { s with file := saved, saves := saved :: s.saves })
    (raising faults.unlink)
  changeMemory fun _ => saved

/-- The record is changed and saved under its lock. -/
def lockedSave (faults : SaveFaults) (now : Time) (change : VaultItem → VaultItem) :
    VaultEffect Unit :=
  withRecordLock faults do
    changeMemory change
    saveRecord faults now

/-! ### Audit and notification -/

/-- `Database.audit_add`. -/
def auditAdd (fault : Option Raised) (event : String) (details : Dict) : VaultEffect Unit := do
  raising fault
  modify fun s => { s with audits := s.audits ++ [(event, details)] }

/-- `EVENTS`. -/
def noticeEvents : List String :=
  ["sync_started", "sync_ok", "sync_error", "conflict", "mount_check_failed", "cancelled",
    "pair_overdue", "restore_test_ok", "restore_test_error", "restore_test_warning",
    "anomaly_blocked", "recovery_ready", "recovery_error"]

/-- `except Exception as exc: logger.warning(…)`. -/
def logged (p : VaultEffect Unit) : VaultEffect Unit :=
  tryCatch p fun e =>
    match e with
    | .exception _ => pure ()
    | .other => throw .other

/-- `notify`. -/
def notifyVault (faults : NoticeFaults) (event title message : String) : VaultEffect Unit :=
  if event ∉ noticeEvents then pure ()
  else do
    raising faults.load
    logged do
      raising faults.queue
      modify fun s => { s with notices := s.notices ++ [(event, title, message)] }

/-! ### The copy -/

section Copy

-- `hashlib.sha256(content).hexdigest()`
variable (digestOf : Bytes → String)

/-- `_prepare_blob`. -/
def prepareBlob (files : BlobFiles) : VaultEffect Unit := do
  let item := (← get).memory
  match files.blob with
  | some blob =>
    check (isContent digestOf blob item.record.size item.sha256)
      (.exception "Vorhandener deduplizierter Blob ist beschädigt")
    raising files.fault
    changeMemory fun item => { item with record := { item.record with deduplicated := true } }
  | none =>
    let part := files.part.getD []
    check (files.part.isSome ∧ (part.length : Int) = item.record.size)
      (.exception "Lokale Upload-Datei ist unvollständig")
    check (digestOf part = item.sha256)
      (.exception "SHA-256-Prüfung des Uploads ist fehlgeschlagen")
    raising files.fault

end Copy

/-- `_validate_destination`. -/
def validateDestination (config : VaultConfig) : VaultEffect Unit := do
  check (validDestination config.pairs (← get).memory.record) (.exception destinationChanged)

/-- `_join_target`. -/
def joinTarget (root relative : String) : String :=
  if isRemoteTarget root then
    root ++ (if endsWith root "/" || endsWith root ":" then "" else "/") ++ relative
  else ((parsePath relative).allParts.foldl PosixPath.child (parsePath root)).text

/-- What the process printed, or its return code. -/
def ProcessEnd.detail (p : ProcessEnd) : String :=
  let text := takeText 500 (strip p.text)
  if text = "" then toString p.returncode else text

/-- `_copy_and_verify_remote`. -/
def copyAndVerifyRemote (copied : Except Raised ProcessEnd) (read : Except Raised CatRun)
    (expected : String) : VaultEffect Unit := do
  let copied ← reading copied
  check (copied.returncode = 0)
    (.exception ("Übertragung zum Datenweg fehlgeschlagen: " ++ copied.detail))
  let read ← reading read
  check (¬(read.stalled || read.timedOut))
    (.exception "Prüfung der Zielkopie hat das Zeitlimit überschritten")
  check (read.finished.returncode = 0)
    (.exception ("Zielkopie konnte nicht geprüft werden: " ++ read.finished.detail))
  check (read.sha256 = expected)
    (.exception "SHA-256-Prüfung der Zielkopie ist fehlgeschlagen")

/-- `type(value).__name__`. -/
def typeName : Value → String
  | .none => "NoneType"
  | .bool _ => "bool"
  | .int _ => "int"
  | .float _ => "float"
  | .str _ => "str"
  | .list _ => "list"
  | .dict _ => "dict"

/-- The pair of a local target; a list entry that is no mapping has no `get`. -/
def hasLocalPair (identity : String) : List Value → VaultEffect Unit
  | [] => throw (.exception "Datenweg für die lokale Ablage ist nicht mehr verfügbar")
  | .dict pair :: pairs =>
    if pairIdentity pair = identity then pure () else hasLocalPair identity pairs
  | v :: _ => throw (.exception ("'" ++ typeName v ++ "' object has no attribute 'get'"))

/-! ### The end of an upload -/

/-- The record is being processed. -/
def VaultItem.started (item : VaultItem) : VaultItem :=
  { item with record := { item.record with status := .transferring } }

/-- The record goes to `transferring`, unless there is nothing to do. -/
def startTransfer (w : CompletionRun) : VaultEffect Bool := do
  let status := (← get).memory.record.status
  if status = .ready then pure false
  else if status ≠ .queued ∧ status ≠ .transferring then pure false
  else do
    changeMemory VaultItem.started
    saveRecord w.beginFaults w.beginAt
    pure true

/-- The first section. -/
def beginCompletion (w : CompletionRun) : VaultEffect Bool :=
  withRecordLock w.beginFaults (startTransfer w)

/-- The copy and its check. -/
def transferFile (digestOf : Bytes → String) (w : CompletionRun) : VaultEffect Unit := do
  let config ← reading w.config
  validateDestination config
  prepareBlob digestOf w.files
  let config ← reading w.configLater
  validateDestination config
  let item := (← get).memory
  raising config.timeout
  if isRemoteTarget (joinTarget item.record.targetRoot item.targetRelative) then
    copyAndVerifyRemote w.copied w.read item.sha256
  else do
    hasLocalPair item.record.identity config.pairs
    raising w.guard
    raising w.localCopy

/-- The copy is verified. -/
def VaultItem.finished (now : Time) (item : VaultItem) : VaultItem :=
  { item with
    record := { item.record with status := .ready, received := item.record.size, error := none }
    verified := true
    completedAt := some now }

/-- Something failed. -/
def VaultItem.failed (text : String) (item : VaultItem) : VaultItem :=
  { item with
    record := { item.record with status := .error, error := some (takeText 1000 text) }
    verified := false }

/-- The record is saved as ready. -/
def storeReady (w : CompletionRun) : VaultEffect Unit :=
  lockedSave w.readyFaults w.readyAt (VaultItem.finished w.readyAt)

/-- The audit entry and the notification of a success. -/
def announceReady (w : CompletionRun) : VaultEffect Unit := do
  let item := (← get).memory
  auditAdd w.auditReady "device_vault_ready"
    [("id", .str item.id), ("pair", .str item.pair), ("size", .int item.record.size),
      ("sha256", .str item.sha256), ("deduplicated", .bool item.record.deduplicated)]
  notifyVault w.noticeReady "recovery_ready" (item.pair ++ ": Geräte-Datei verifiziert")
    (item.filename ++ " liegt geprüft im Geräte-Vault.")

/-- The handler. -/
def storeError (w : CompletionRun) (text : String) : VaultEffect Unit := do
  lockedSave w.errorFaults w.errorAt (VaultItem.failed text)
  let item := (← get).memory
  let error := item.record.error.getD ""
  auditAdd w.auditError "device_vault_error"
    [("id", .str item.id), ("pair", .str item.pair), ("error", .str error)]
  notifyVault w.noticeError "recovery_error" (item.pair ++ ": Geräte-Backup fehlgeschlagen") error

/-- The handler of the `try`. -/
def handleFailure (w : CompletionRun) : Raised → VaultEffect Unit
  | .exception text => storeError w text
  | .other => throw .other

/-- The `try` and its handler. -/
def processUpload (digestOf : Bytes → String) (w : CompletionRun) : VaultEffect Unit :=
  tryCatch
    (do
      transferFile digestOf w
      storeReady w
      announceReady w)
    (handleFailure w)

/-- `_complete_upload_locked`. -/
def completeUploadLocked (digestOf : Bytes → String) (w : CompletionRun) :
    VaultEffect VaultItem := do
  let processed ← beginCompletion w
  if processed then processUpload digestOf w else pure ()
  return (← get).memory

/-! ### Saves -/

/-- The record file and its history stay. -/
def SameFile (s t : Completion) : Prop := t.file = s.file ∧ t.saves = s.saves

instance : Std.Refl SameFile := ⟨fun _ => ⟨rfl, rfl⟩⟩

instance : IsTrans Completion SameFile :=
  ⟨fun _ _ _ h h' => ⟨h'.1.trans h.1, h'.2.trans h.2⟩⟩

theorem within_reading {α : Type} (r : Except Raised α) : Within SameFile (reading r) := by
  cases r with
  | ok a => exact within_pure a
  | error e => exact within_throw e

theorem within_get : Within SameFile (get : VaultEffect Completion) := fun _ => ⟨rfl, rfl⟩

theorem exec_changeMemory (f : VaultItem → VaultItem) (s : Completion) :
    exec (changeMemory f) s = (.ok (), { s with memory := f s.memory }) := rfl

theorem within_changeMemory (f : VaultItem → VaultItem) : Within SameFile (changeMemory f) :=
  fun _ => ⟨rfl, rfl⟩

theorem within_auditAdd (fault : Option Raised) (event : String) (details : Dict) :
    Within SameFile (auditAdd fault event details) :=
  (within_raising fault).bind fun _ _ => ⟨rfl, rfl⟩

theorem within_notifyVault (faults : NoticeFaults) (event title message : String) :
    Within SameFile (notifyVault faults event title message) := by
  unfold notifyVault
  split
  · exact within_pure ()
  · refine (within_raising faults.load).bind fun _ => Within.tryCatch ?_ fun e => ?_
    · exact (within_raising faults.queue).bind fun _ _ => ⟨rfl, rfl⟩
    · cases e with
      | exception _ => exact within_pure ()
      | other => exact within_throw _

theorem within_prepareBlob (digestOf : Bytes → String) (files : BlobFiles) :
    Within SameFile (prepareBlob digestOf files) := by
  refine within_get.bind fun s => ?_
  dsimp only
  split
  · refine (within_check _ _).bind fun _ => (within_raising _).bind fun _ => ?_
    exact within_changeMemory _
  · refine (within_check _ _).bind fun _ => (within_check _ _).bind fun _ => ?_
    exact within_raising _

theorem within_validateDestination (config : VaultConfig) :
    Within SameFile (validateDestination config) :=
  within_get.bind fun _ => within_check _ _

theorem within_copyAndVerifyRemote (copied : Except Raised ProcessEnd) (read : Except Raised CatRun)
    (expected : String) : Within SameFile (copyAndVerifyRemote copied read expected) := by
  refine (within_reading copied).bind fun c => (within_check _ _).bind fun _ => ?_
  refine (within_reading read).bind fun r => (within_check _ _).bind fun _ => ?_
  exact (within_check _ _).bind fun _ => within_check _ _

theorem within_hasLocalPair (identity : String) (pairs : List Value) :
    Within SameFile (hasLocalPair identity pairs) := by
  induction pairs with
  | nil => exact within_throw _
  | cons v pairs ih =>
    cases v with
    | dict pair =>
      unfold hasLocalPair
      split
      · exact within_pure ()
      · exact ih
    | none | bool | int | float | str | list => exact within_throw _

/-- The copy and its check leave the record file alone. -/
theorem within_transferFile (digestOf : Bytes → String) (w : CompletionRun) :
    Within SameFile (transferFile digestOf w) := by
  refine (within_reading _).bind fun _ => (within_validateDestination _).bind fun _ => ?_
  refine (within_prepareBlob _ _).bind fun _ => (within_reading _).bind fun _ => ?_
  refine (within_validateDestination _).bind fun _ => within_get.bind fun _ => ?_
  refine (within_raising _).bind fun _ => ?_
  split
  · exact within_copyAndVerifyRemote _ _ _
  · refine (within_hasLocalPair _ _).bind fun _ => (within_raising _).bind fun _ => ?_
    exact within_raising _

/-- The save replaces the record file. -/
def SaveFaults.Puts (f : SaveFaults) : Prop := f.acquire = none ∧ f.write = none

instance (f : SaveFaults) : Decidable f.Puts := inferInstanceAs (Decidable (_ ∧ _))

/-- What is raised after the record file was replaced. -/
def SaveFaults.late (f : SaveFaults) : Option Raised := f.release <|> f.unlink

theorem exec_saveRecord {f : SaveFaults} (hwrite : f.write = none) (now : Time) (s : Completion) :
    ∃ memory, exec (saveRecord f now) s = (faultResult f.unlink,
      { s with
        file := s.memory.stamped now, saves := s.memory.stamped now :: s.saves, memory }) := by
  unfold saveRecord
  rw [exec_bind_ok (exec_get s)]
  have hput : exec (ensuring (raising f.write >>= fun _ => modify fun s' : Completion =>
      { s' with file := s.memory.stamped now, saves := s.memory.stamped now :: s'.saves })
        (raising f.unlink)) s = (faultResult f.unlink,
      { s with file := s.memory.stamped now, saves := s.memory.stamped now :: s.saves }) := by
    rw [exec_ensuring, hwrite, exec_bind_ok (exec_raising none s), exec_modify]
    dsimp only
    rw [exec_raising]
    cases f.unlink <;> rfl
  cases hunlink : f.unlink with
  | none =>
    rw [hunlink] at hput
    exact ⟨s.memory.stamped now, exec_bind_ok hput _⟩
  | some e =>
    rw [hunlink] at hput
    exact ⟨s.memory, exec_bind_error hput _⟩

theorem within_saveRecord {f : SaveFaults} {e : Raised} (hwrite : f.write = some e) (now : Time) :
    Within SameFile (saveRecord f now) := by
  refine within_get.bind fun s => ?_
  refine Within.bind ?_ fun _ => within_changeMemory _
  refine Within.ensuring ?_ (within_raising _)
  rw [hwrite]
  exact fun s => ⟨rfl, rfl⟩

/-- A save that replaces the record file. -/
theorem exec_lockedSave {f : SaveFaults} (h : f.Puts) (now : Time) (change : VaultItem → VaultItem)
    (s : Completion) : ∃ memory, exec (lockedSave f now change) s = (faultResult f.late,
      { s with
        file := (change s.memory).stamped now
        saves := (change s.memory).stamped now :: s.saves
        memory }) := by
  obtain ⟨memory, hsave⟩ := exec_saveRecord h.2 now { s with memory := change s.memory }
  refine ⟨memory, ?_⟩
  unfold lockedSave withRecordLock
  rw [h.1, exec_bind_ok (exec_raising none s), exec_ensuring]
  rw [exec_bind_ok (exec_changeMemory change s), hsave]
  dsimp only
  rw [exec_raising, SaveFaults.late]
  cases f.release <;> rfl

/-- A save that does not come so far. -/
theorem within_lockedSave {f : SaveFaults} (h : ¬f.Puts) (now : Time)
    (change : VaultItem → VaultItem) : Within SameFile (lockedSave f now change) := by
  unfold lockedSave withRecordLock
  cases hacquire : f.acquire with
  | some e => exact fun s => ⟨rfl, rfl⟩
  | none =>
    cases hwrite : f.write with
    | none => exact absurd ⟨hacquire, hwrite⟩ h
    | some e =>
      refine (within_raising _).bind fun _ => Within.ensuring ?_ (within_raising _)
      exact (within_changeMemory _).bind fun _ => within_saveRecord hwrite now

/-! ### The statements after the copy -/

/-- What a notification lets through. -/
def NoticeFaults.fault (f : NoticeFaults) : Option Raised := f.load <|> f.queue.filter (· = .other)

theorem exec_auditAdd (fault : Option Raised) (event : String) (details : Dict) (s : Completion) :
    (exec (auditAdd fault event details) s).1 = faultResult fault := by
  cases fault <;> rfl

theorem exec_notifyVault (faults : NoticeFaults) {event : String} (h : event ∈ noticeEvents)
    (title message : String) (s : Completion) :
    (exec (notifyVault faults event title message) s).1 = faultResult faults.fault := by
  rw [notifyVault, if_neg (not_not_intro h)]
  rcases faults with ⟨_ | e, _ | ⟨_ | _⟩⟩ <;> rfl

/-- The first fault of the two decides. -/
theorem exec_announceReady (w : CompletionRun) (s : Completion) :
    (exec (announceReady w) s).1 = faultResult (w.auditReady <|> w.noticeReady.fault) := by
  unfold announceReady
  rw [exec_bind_ok (exec_get s)]
  dsimp only
  have haudit := exec_auditAdd w.auditReady "device_vault_ready"
    [("id", .str s.memory.id), ("pair", .str s.memory.pair), ("size", .int s.memory.record.size),
      ("sha256", .str s.memory.sha256), ("deduplicated", .bool s.memory.record.deduplicated)] s
  rw [exec_bind]
  revert haudit
  generalize exec (auditAdd w.auditReady _ _) s = audited
  rcases audited with ⟨r, t⟩
  intro haudit
  obtain rfl : r = faultResult w.auditReady := haudit
  cases w.auditReady with
  | some e => rfl
  | none => exact exec_notifyVault w.noticeReady (by decide) _ _ t

theorem within_announceReady (w : CompletionRun) : Within SameFile (announceReady w) :=
  within_get.bind fun _ => (within_auditAdd _ _ _).bind fun _ => within_notifyVault _ _ _ _

/-- The handler, if it can, saves the record as failed. -/
theorem storeError_puts {w : CompletionRun} (h : w.errorFaults.Puts) (text : String)
    (s : Completion) : ∃ failed : VaultItem, failed.record.status = .error ∧
      (exec (storeError w text) s).2.file = failed ∧
      (exec (storeError w text) s).2.saves = failed :: s.saves := by
  obtain ⟨memory, hsave⟩ := exec_lockedSave h w.errorAt (VaultItem.failed text) s
  refine ⟨(s.memory.failed text).stamped w.errorAt, rfl, ?_⟩
  have hrest : Within SameFile (do
      let item := (← get).memory
      let error := item.record.error.getD ""
      auditAdd w.auditError "device_vault_error"
        [("id", .str item.id), ("pair", .str item.pair), ("error", .str error)]
      notifyVault w.noticeError "recovery_error" (item.pair ++ ": Geräte-Backup fehlgeschlagen")
        error) :=
    within_get.bind fun _ => (within_auditAdd _ _ _).bind fun _ => within_notifyVault _ _ _ _
  unfold storeError
  cases hlate : w.errorFaults.late with
  | some e =>
    rw [hlate] at hsave
    rw [exec_bind_error hsave]
    exact ⟨rfl, rfl⟩
  | none =>
    rw [hlate] at hsave
    rw [exec_bind_ok hsave]
    exact hrest _

theorem within_storeError {w : CompletionRun} (h : ¬w.errorFaults.Puts) (text : String) :
    Within SameFile (storeError w text) :=
  (within_lockedSave h _ _).bind fun _ =>
    within_get.bind fun _ => (within_auditAdd _ _ _).bind fun _ => within_notifyVault _ _ _ _

/-! ### The end of a run -/

/-- The handler saves the record as failed. -/
def CompletionRun.Undoes (w : CompletionRun) (e : Raised) : Prop :=
  e ≠ .other ∧ w.errorFaults.Puts

theorem handleFailure_undoes {w : CompletionRun} {e : Raised} (h : w.Undoes e) (s : Completion) :
    ∃ failed : VaultItem, failed.record.status = .error ∧
      (exec (handleFailure w e) s).2.file = failed ∧
      (exec (handleFailure w e) s).2.saves = failed :: s.saves := by
  cases e with
  | exception text => exact storeError_puts h.2 text s
  | other => exact absurd rfl h.1

theorem within_handleFailure {w : CompletionRun} {e : Raised} (h : ¬w.Undoes e) :
    Within SameFile (handleFailure w e) := by
  cases e with
  | exception text => exact within_storeError (fun hputs => h ⟨nofun, hputs⟩) text
  | other => exact within_throw _

/-- The record was put in place as ready at some time. -/
def SavedReady (s : Completion) : Prop := ∃ saved ∈ s.saves, saved.record.status = .ready

theorem SavedReady.of_same {s t : Completion} (h : SavedReady t) (hst : SameFile s t) :
    SavedReady s := by
  obtain ⟨saved, hsaved, hready⟩ := h
  exact ⟨saved, hst.2 ▸ hsaved, hready⟩

/-- The handler never saves the record as ready. -/
theorem SavedReady.of_handled {w : CompletionRun} {e : Raised} {s : Completion}
    (h : SavedReady (exec (handleFailure w e) s).2) : SavedReady s := by
  by_cases hundoes : w.Undoes e
  · obtain ⟨failed, herror, -, hsaves⟩ := handleFailure_undoes hundoes s
    obtain ⟨saved, hsaved, hready⟩ := h
    rw [hsaves] at hsaved
    rcases List.mem_cons.mp hsaved with rfl | hsaved
    · exact absurd (herror.symm.trans hready) (by decide)
    · exact ⟨saved, hsaved, hready⟩
  · exact h.of_same (within_handleFailure hundoes s)

/-- Under the lock of the record only the body changes the files. -/
theorem exec_withRecordLock {α : Type} (faults : SaveFaults) (body : VaultEffect α)
    (s : Completion) : (exec (withRecordLock faults body) s).2 = s ∨
      (exec (withRecordLock faults body) s).2 = (exec body s).2 := by
  unfold withRecordLock
  cases faults.acquire with
  | some e => exact .inl rfl
  | none =>
    refine .inr ?_
    rw [exec_bind_ok (exec_raising none s), exec_ensuring]
    dsimp only
    rw [exec_raising]
    cases faults.release <;> rfl

/-- The first section never saves the record as ready. -/
theorem not_savedReady_begin (w : CompletionRun) (item : VaultItem) :
    ¬SavedReady (exec (beginCompletion w) (.start item)).2 := by
  have hsave : ∀ s : Completion, s.saves = [] → s.memory.record.status = .transferring →
      ¬SavedReady (exec (saveRecord w.beginFaults w.beginAt) s).2 := by
    rintro s hnone hstatus ⟨saved, hsaved, hready⟩
    cases hwrite : w.beginFaults.write with
    | some e =>
      rw [(within_saveRecord hwrite w.beginAt s).2, hnone] at hsaved
      cases hsaved
    | none =>
      obtain ⟨memory, hexec⟩ := exec_saveRecord hwrite w.beginAt s
      rw [hexec, hnone] at hsaved
      obtain rfl := List.mem_singleton.mp hsaved
      exact absurd (hstatus.symm.trans hready) (by decide)
  intro h
  have hstart : ¬SavedReady (.start item) := by
    rintro ⟨saved, hsaved, -⟩
    cases hsaved
  rcases exec_withRecordLock w.beginFaults (startTransfer w) (.start item) with hsame | hbody
  · exact hstart (hsame ▸ h)
  · rw [beginCompletion, hbody, startTransfer, exec_bind_ok (exec_get _)] at h
    dsimp only at h
    split at h
    · exact hstart h
    split at h
    · exact hstart h
    rw [exec_bind_ok (exec_changeMemory _ _), exec_bind_pure] at h
    exact hsave _ rfl rfl h

/-! ### The verified copy -/

/-- What is raised after the record was put in place as ready. -/
def CompletionRun.afterReady (w : CompletionRun) : Option Raised :=
  w.readyFaults.late <|> w.auditReady <|> w.noticeReady.fault

/-- The state that a run ends in. -/
def completionEnd (digestOf : Bytes → String) (w : CompletionRun) (item : VaultItem) : Completion :=
  (exec (completeUploadLocked digestOf w) (.start item)).2

/-- A ready record after the handler, if there was a failure. -/
theorem handled_iff {w : CompletionRun} {s : Completion} (h : s.file.record.status = .ready)
    (fault : Option Raised) :
    (match faultResult fault with
      | .ok _ => s
      | .error e => (exec (handleFailure w e) s).2).file.record.status = .ready ↔
        ¬∃ e, fault = some e ∧ w.Undoes e := by
  cases fault with
  | none =>
    refine ⟨fun _ => ?_, fun _ => h⟩
    rintro ⟨e, he, -⟩
    cases he
  | some e =>
    show (exec (handleFailure w e) s).2.file.record.status = .ready ↔ _
    by_cases hundoes : w.Undoes e
    · obtain ⟨failed, herror, hfile, -⟩ := handleFailure_undoes hundoes s
      rw [hfile, herror]
      exact ⟨fun h => absurd h (by decide), fun h => absurd ⟨e, rfl, hundoes⟩ h⟩
    · rw [(within_handleFailure hundoes s).1]
      refine ⟨fun _ => ?_, fun _ => h⟩
      rintro ⟨e', he', hundoes'⟩
      obtain rfl := Option.some.inj he'
      exact hundoes hundoes'

/-- The save and what follows it, with its handler. -/
def concludeUpload (w : CompletionRun) : VaultEffect Unit :=
  tryCatch (do storeReady w; announceReady w) (handleFailure w)

theorem not_savedReady_conclude {w : CompletionRun} {s : Completion} (hs : ¬SavedReady s)
    (hputs : ¬w.readyFaults.Puts) : ¬SavedReady (exec (concludeUpload w) s).2 := by
  have hsame : Within SameFile (do storeReady w; announceReady w) :=
    (within_lockedSave hputs _ _).bind fun _ => within_announceReady w
  intro h
  rw [concludeUpload, exec_tryCatch] at h
  have hbody := hsame s
  revert hbody h
  rcases exec (do storeReady w; announceReady w) s with ⟨e | _, t⟩
  · exact fun h hbody => hs (h.of_handled.of_same hbody)
  · exact fun h hbody => hs (h.of_same hbody)

theorem conclude_ready_iff {w : CompletionRun} {s : Completion} (hputs : w.readyFaults.Puts) :
    (exec (concludeUpload w) s).2.file.record.status = .ready ↔
      ¬∃ e, w.afterReady = some e ∧ w.Undoes e := by
  obtain ⟨memory, hsave⟩ := exec_lockedSave hputs w.readyAt (VaultItem.finished w.readyAt) s
  rw [concludeUpload, exec_tryCatch, CompletionRun.afterReady, storeReady]
  cases hlate : w.readyFaults.late with
  | some e =>
    rw [hlate] at hsave
    rw [exec_bind_error hsave]
    exact handled_iff rfl (some e)
  | none =>
    rw [hlate] at hsave
    rw [exec_bind_ok hsave]
    have hresult := exec_announceReady w { s with
      file := (s.memory.finished w.readyAt).stamped w.readyAt
      saves := (s.memory.finished w.readyAt).stamped w.readyAt :: s.saves
      memory }
    have hsame := within_announceReady w { s with
      file := (s.memory.finished w.readyAt).stamped w.readyAt
      saves := (s.memory.finished w.readyAt).stamped w.readyAt :: s.saves
      memory }
    revert hresult hsame
    rcases exec (announceReady w) _ with ⟨r, t⟩
    rintro rfl hsame
    have hready : t.file.record.status = .ready := by
      rw [hsame.1]
      rfl
    have hiff := handled_iff (w := w) hready (w.auditReady <|> w.noticeReady.fault)
    cases hfault : (w.auditReady <|> w.noticeReady.fault) with
    | none =>
      rw [hfault] at hiff
      exact hiff
    | some e =>
      rw [hfault] at hiff
      exact hiff

/-- **A record that was saved as ready stays ready exactly if the handler does not save it again:
if nothing that `except Exception` catches is raised afterwards, or its own save fails.** -/
theorem ready_kept_iff (digestOf : Bytes → String) (w : CompletionRun) (item : VaultItem)
    (h : SavedReady (completionEnd digestOf w item)) :
    (completionEnd digestOf w item).file.record.status = .ready ↔
      ¬∃ e, w.afterReady = some e ∧ w.Undoes e := by
  have hbegin := not_savedReady_begin w item
  unfold completionEnd completeUploadLocked at h ⊢
  revert h hbegin
  rw [exec_bind]
  rcases exec (beginCompletion w) (.start item) with ⟨_ | processed, s⟩
  · exact fun h hs => absurd h hs
  cases processed with
  | false => exact fun h hs => absurd h hs
  | true =>
    intro h hs
    have hend : (exec (processUpload digestOf w >>= fun _ =>
        (do return (← get).memory : VaultEffect VaultItem)) s).2
          = (exec (processUpload digestOf w) s).2 := by
      rw [exec_bind]
      rcases exec (processUpload digestOf w) s with ⟨_ | _, t⟩ <;> rfl
    dsimp only at h ⊢
    rw [if_pos rfl, hend] at h ⊢
    have hcopy := within_transferFile digestOf w s
    rw [processUpload, exec_tryCatch, exec_bind] at h ⊢
    revert h hcopy
    rcases exec (transferFile digestOf w) s with ⟨e | _, t⟩
    · exact fun h hcopy => absurd (h.of_handled.of_same hcopy) hs
    · intro h hcopy
      have ht : ¬SavedReady t := fun ht => hs (ht.of_same hcopy)
      have hconclude : exec (concludeUpload w) t = _ := exec_tryCatch _ _ t
      by_cases hputs : w.readyFaults.Puts
      · exact hconclude ▸ conclude_ready_iff hputs
      · exact absurd (hconclude ▸ h) (not_savedReady_conclude ht hputs)

/-! ### An audit entry that cannot be written -/

def queuedItem : VaultItem where
  id := "a"
  pair := "photos"
  filename := "three.bin"
  sha256 := threeDigest
  targetRelative := "three.bin"
  record := {
    identity := "p", targetRoot := "box:photos", binding := some (endpointBinding vaultPair)
    size := 3, received := 3, status := .queued, deduplicated := false, error := none
    updatedAt := 2 }
  verified := false
  completedAt := none

def noFaults : SaveFaults := ⟨none, none, none, none⟩

/-- Everything succeeds, but for the audit entry. -/
def copiedRun (auditReady : Option Raised) : CompletionRun where
  beginFaults := noFaults
  beginAt := 3
  config := .ok ⟨[.dict vaultPair], none⟩
  files := ⟨none, some [1, 2, 3], none⟩
  configLater := .ok ⟨[.dict vaultPair], none⟩
  copied := .ok ⟨0, ""⟩
  read := .ok ⟨threeDigest, false, false, ⟨0, ""⟩⟩
  guard := none
  localCopy := none
  readyFaults := noFaults
  readyAt := 4
  auditReady := auditReady
  noticeReady := ⟨none, none⟩
  errorFaults := noFaults
  errorAt := 5
  auditError := none
  noticeError := ⟨none, none⟩

/-- The state at the end: the statuses that were saved, the last first, and the audit entries. -/
def completionTrace (w : CompletionRun) : List UploadStatus × List String :=
  let s := completionEnd (fun _ => threeDigest) w queuedItem
  (s.saves.map fun saved => saved.record.status, s.audits.map Prod.fst)

theorem completionTrace_copied : completionTrace (copiedRun none)
    = ([.ready, .transferring], ["device_vault_ready"]) := by decide +kernel

theorem savedReady_of_trace {w : CompletionRun} (h : .ready ∈ (completionTrace w).1) :
    SavedReady (completionEnd (fun _ => threeDigest) w queuedItem) := by
  obtain ⟨saved, hsaved, hready⟩ := List.mem_map.mp h
  exact ⟨saved, hsaved, hready⟩

theorem ready_kept_audited :
    SavedReady (completionEnd (fun _ => threeDigest) (copiedRun none) queuedItem) ∧
    (completionEnd (fun _ => threeDigest) (copiedRun none) queuedItem).file.record.status
      = .ready := by
  have hsaved := savedReady_of_trace (w := copiedRun none) (by
    rw [completionTrace_copied]
    decide)
  refine ⟨hsaved, (ready_kept_iff _ _ _ hsaved).mpr ?_⟩
  rintro ⟨e, he, -⟩
  cases he

/-- **The database is locked when the audit entry is written: the verified copy is an error.** -/
theorem ready_undone : ¬∀ (digestOf : Bytes → String) (w : CompletionRun) (item : VaultItem),
    SavedReady (completionEnd digestOf w item) →
      (completionEnd digestOf w item).file.record.status = .ready := by
  intro h
  have htrace : completionTrace (copiedRun (some (.exception "database is locked")))
      = ([.error, .ready, .transferring], ["device_vault_error"]) := by decide +kernel
  have hsaved := savedReady_of_trace (w := copiedRun (some (.exception "database is locked"))) (by
    rw [htrace]
    decide)
  have hready := h _ _ _ hsaved
  have herror : (completionEnd (fun _ => threeDigest)
      (copiedRun (some (.exception "database is locked"))) queuedItem).file.record.status
      = .error := by decide +kernel
  exact absurd (hready.symm.trans herror) (by decide)

end RcloneSync
