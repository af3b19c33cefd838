/-
RcloneSync/RuntimeRollback.lean

The rollback of the installer (`RuntimeFiles.restore`, scripts/runtime_files.py).

The backup is opened and checked first: its path, its markers, and for each file one of two markers
that say whether it was there.  Then the files of the runtime are replaced one after the other, as
`Replacements` has it.  What a backup file contains is read, and the database checked, only when its
turn comes: if that refuses, the files before it are replaced already (`all_or_nothing_iff`).
-/
import RcloneSync.HandoverPackage
import RcloneSync.PosixPath
import RcloneSync.Replacements

namespace RcloneSync

open Py Effects Replacements

/-! ### The runtime and the backup -/

/-- What is raised: a `ValueError`, a `sqlite3.DatabaseError` or an `OSError`. -/
inductive RestoreError
  | value (message : String)
  | database (message : String)
  | os
  deriving DecidableEq, Repr

/-- The backup was refused. -/
def RestoreError.IsValidation (e : RestoreError) : Prop := e ≠ .os

/-- An entry of the data directory. -/
inductive DataEntry
  | file (content : Bytes)
  | link (target : String)
  | directory
  deriving DecidableEq, Repr

/-- The data directory. -/
abbrev DataDir := String → Option DataEntry

/-- What `_stream_file` notices. -/
inductive StreamFault
  | linked | shortened | changed
  deriving DecidableEq, Repr

/-- A regular file of the backup: what is read of it, and what is noticed. -/
structure SourceFile where
  content : Bytes
  fault : Option StreamFault
  deriving DecidableEq, Repr

/-- What stands under a name: a link and what cannot be opened are refused by `os.open`, and a file
that is not regular or has further links by `_regular`. -/
inductive BackupEntry
  | missing
  | refused
  | irregular
  | file (source : SourceFile)
  deriving DecidableEq, Repr

/-- A directory of the backup. -/
structure BackupFolder where
  isPrivate : Bool
  entry : String → BackupEntry

/-- How opening a directory ends. -/
inductive FolderEntry
  | missing
  | refused
  | folder (d : BackupFolder)

/-- The backup: its path, whether every component of it is a directory, the directory itself, and
the two in it. -/
structure Backup where
  path : String
  reachable : Bool
  top : BackupFolder
  data : FolderEntry
  state : FolderEntry

/-- The private stage of a file: what the checks find, or an error of the system on the way. -/
inductive Stage
  | trusted | untrusted | failed
  deriving DecidableEq, Repr

/-- `PRAGMA quick_check`: its first answer, or the error of SQLite. -/
abbrev QuickCheck := Bytes → Except String String

/-- The surroundings of a rollback. -/
structure RollbackEnv where
  application : String
  quickCheck : QuickCheck
  stage : String → Stage

def rollbackFiles : List String := ["config.yaml", "config.yaml.bak", "rclone-sync.db"]

def databaseSidecars : List String := ["rclone-sync.db-wal", "rclone-sync.db-shm"]

/-! ### The checks before the first change -/

/-- `_open_regular_at`. -/
def openRegular (d : BackupFolder) (name : String) : Except RestoreError (Option SourceFile) :=
  match d.entry name with
  | .missing => .ok none
  | .refused => .error .os
  | .irregular => .error (.value "Runtime-Datei muss regulär und ohne weitere Hardlinks sein")
  | .file source => .ok (some source)

/-- `_open_regular_at` without `missing_ok`. -/
def openPresent (d : BackupFolder) (name : String) : Except RestoreError SourceFile := do
  match ← openRegular d name with
  | none => .error .os
  | some source => .ok source

/-- `_private_directory`. -/
def privateDirectory (d : BackupFolder) : Except RestoreError Unit :=
  if d.isPrivate then .ok ()
  else .error (.value "Rollback-Sicherung muss dem Installer gehören und privat sein")

/-- `_backup_directory`. -/
def backupDirectory (b : Backup) : Except RestoreError Unit :=
  if !isAbsolutePath b.path || (parsePath b.path).allParts.contains ".." then
    .error (.value "Rollback-Sicherung muss einen sicheren absoluten Pfad haben")
  else if !b.reachable then .error .os
  else privateDirectory b.top

/-- A marker and what it says. -/
def checkMarker (b : Backup) (name expected : String) : Except RestoreError Unit := do
  let marker ← openPresent b.top name
  if marker.content.take ((utf8Bytes expected).length + 1) = utf8Bytes expected then .ok ()
  else .error (.value "Rollback-Sicherung gehört nicht zu dieser Installation")

/-- The recorded state of a file, and the file if it was there. -/
def openRecorded (data : Option BackupFolder) (state : BackupFolder) (name : String) :
    Except RestoreError (Option SourceFile) := do
  let present ← openRegular state (name ++ ".present")
  let missing ← openRegular state (name ++ ".missing")
  if present.isNone = missing.isNone then
    .error (.value "Rollback-Dateizustand ist nicht eindeutig")
  else if present.isNone then .ok none
  else
    match data with
    | none => .error (.value "Rollback-Datenverzeichnis fehlt")
    | some data => (openPresent data name).map some

/-- The files one after the other. -/
def openAll (data : Option BackupFolder) (state : BackupFolder) :
    List String → Except RestoreError (List (String × Option SourceFile))
  | [] => .ok []
  | name :: names => do
    let source ← openRecorded data state name
    let rest ← openAll data state names
    .ok ((name, source) :: rest)

/-- A directory that may be missing. -/
def optionalFolder : FolderEntry → Except RestoreError (Option BackupFolder)
  | .missing => .ok none
  | .refused => .error .os
  | .folder d => .ok (some d)

def requiredFolder : FolderEntry → Except RestoreError BackupFolder
  | .folder d => .ok d
  | _ => .error .os

/-- The directories of the backup. -/
def openFolders (b : Backup) : Except RestoreError (Option BackupFolder × BackupFolder) := do
  let data ← optionalFolder b.data
  let state ← requiredFolder b.state
  data.elim (.ok ()) privateDirectory
  privateDirectory state
  .ok (data, state)

/-- `restore` up to the first change. -/
def openBackup (env : RollbackEnv) (b : Backup) :
    Except RestoreError (List (String × Option SourceFile)) := do
  backupDirectory b
  let (data, state) ← openFolders b
  checkMarker b ".rclone-sync-backup-v1" "rclone-sync-backup-v1\n"
  checkMarker b "source-path.txt" (env.application ++ "\n")
  openAll data state rollbackFiles

/-! ### The changes -/

/-- `_stream_file`. -/
def streamFile (source : SourceFile) : Except RestoreError Bytes :=
  match source.fault with
  | none => .ok source.content
  | some .linked => .error (.value "Runtime-Datei muss regulär und ohne weitere Hardlinks sein")
  | some .shortened => .error (.value "Rollback-Datei wurde während des Lesens verkürzt")
  | some .changed => .error (.value "Rollback-Datei wurde während des Lesens geändert")

/-- `_validate_database`. -/
def validateDatabase (env : RollbackEnv) (content : Bytes) : Except RestoreError Unit :=
  match env.quickCheck content with
  | .error message => .error (.database message)
  | .ok "ok" => .ok ()
  | .ok _ => .error (.value "SQLite-Rollback-Sicherung ist inkonsistent")

/-- `_publish` up to the renaming: the file in its private stage. -/
def stagedFile (env : RollbackEnv) (name : String) (source : SourceFile) :
    Except RestoreError DataEntry :=
  match env.stage name with
  | .failed => .error .os
  | .untrusted =>
    .error (.value "Temporäre Runtime-Ablage muss dem Installer gehören und privat sein")
  | .trusted => do
    let content ← streamFile source
    (if name = "rclone-sync.db" then validateDatabase env content else .ok ())
    .ok (.file content)

/-- Neither `os.unlink` nor `os.rename` replaces a directory. -/
def blockedEntry : Option DataEntry → Option RestoreError
  | some .directory => some .os
  | _ => none

/-- What `restore` does to a name: `unlink`, or `_publish`. -/
def replacementOf (env : RollbackEnv) :
    String × Option SourceFile → Replacement String (Option DataEntry) RestoreError
  | (name, none) => (name, .ok none)
  | (name, some source) => (name, (stagedFile env name source).map some)

/-- The changes in their order. -/
def replacementsOf (env : RollbackEnv) (files : List (String × Option SourceFile)) :
    List (Replacement String (Option DataEntry) RestoreError) :=
  databaseSidecars.map (fun name => replacementOf env (name, none)) ++ files.map (replacementOf env)

/-- `restore`. -/
def restore (env : RollbackEnv) (b : Backup) : Effect DataDir RestoreError Unit :=
  match openBackup env b with
  | .error e => throw e
  | .ok files => replaceAll blockedEntry (replacementsOf env files)

/-! ### What the backup records -/

/-- The backup records this entry for a file. -/
def BackedUpAs (b : Backup) (name : String) (entry : Option DataEntry) : Prop :=
  ∃ state, b.state = .folder state ∧
    ((entry = none ∧ ∃ marker, state.entry (name ++ ".missing") = .file marker) ∨
      ∃ marker data source, state.entry (name ++ ".present") = .file marker ∧
        b.data = .folder data ∧ data.entry name = .file source ∧
        entry = some (.file source.content))

theorem openRegular_some {d : BackupFolder} {name : String} {source : SourceFile}
    (h : openRegular d name = .ok (some source)) : d.entry name = .file source := by
  unfold openRegular at h
  cases hentry : d.entry name with
  | file s =>
    rw [hentry] at h
    rw [Option.some.inj (Except.ok.inj h)]
  | missing | refused | irregular =>
    rw [hentry] at h
    cases h

theorem openPresent_ok {d : BackupFolder} {name : String} {source : SourceFile}
    (h : openPresent d name = .ok source) : d.entry name = .file source := by
  obtain ⟨found, hfound, h⟩ := bind_ok.mp h
  cases found with
  | none => cases h
  | some s =>
    obtain rfl := Except.ok.inj h
    exact openRegular_some hfound

/-- A file that is to be written again was marked as present, and one that is to be removed as
missing. -/
theorem openRecorded_ok {data : Option BackupFolder} {state : BackupFolder} {name : String}
    {source : Option SourceFile} (h : openRecorded data state name = .ok source) :
    (source = none ∧ ∃ marker, state.entry (name ++ ".missing") = .file marker) ∨
    ∃ marker d s, state.entry (name ++ ".present") = .file marker ∧ data = some d ∧
      d.entry name = .file s ∧ source = some s := by
  obtain ⟨present, hpresent, h⟩ := bind_ok.mp h
  obtain ⟨missing, hmissing, h⟩ := bind_ok.mp h
  cases present with
  | none =>
    cases missing with
    | none => cases h
    | some marker =>
      obtain rfl := Except.ok.inj h
      exact .inl ⟨rfl, marker, openRegular_some hmissing⟩
  | some marker =>
    cases missing with
    | some _ => cases h
    | none =>
      cases data with
      | none => cases h
      | some d =>
        obtain ⟨s, hs, rfl⟩ := except_map_ok h
        exact .inr ⟨marker, d, s, openRegular_some hpresent, rfl, openPresent_ok hs, rfl⟩

theorem openAll_ok {data : Option BackupFolder} {state : BackupFolder} {names : List String}
    {files : List (String × Option SourceFile)} (h : openAll data state names = .ok files) :
    files.map Prod.fst = names ∧
      ∀ f ∈ files, openRecorded data state f.1 = .ok f.2 := by
  induction names generalizing files with
  | nil =>
    obtain rfl := Except.ok.inj h
    exact ⟨rfl, fun f hf => absurd hf List.not_mem_nil⟩
  | cons name names ih =>
    obtain ⟨source, hsource, h⟩ := bind_ok.mp h
    obtain ⟨rest, hrest, h⟩ := bind_ok.mp h
    obtain rfl := Except.ok.inj h
    obtain ⟨hnames, hfiles⟩ := ih hrest
    exact ⟨congrArg (name :: ·) hnames, List.forall_mem_cons.mpr ⟨hsource, hfiles⟩⟩

theorem openFolders_ok {b : Backup} {data : Option BackupFolder} {state : BackupFolder}
    (h : openFolders b = .ok (data, state)) :
    b.state = .folder state ∧ ∀ d, data = some d → b.data = .folder d := by
  obtain ⟨data', hdata, h⟩ := bind_ok.mp h
  obtain ⟨state', hstate, h⟩ := bind_ok.mp h
  obtain ⟨-, -, h⟩ := bind_ok.mp h
  obtain ⟨-, -, h⟩ := bind_ok.mp h
  obtain ⟨rfl, rfl⟩ := Prod.mk.inj (Except.ok.inj h)
  refine ⟨?_, fun d hd => ?_⟩
  · cases hentry : b.state with
    | folder d =>
      rw [hentry] at hstate
      rw [Except.ok.inj hstate]
    | missing | refused =>
      rw [hentry] at hstate
      cases hstate
  · subst hd
    cases hentry : b.data with
    | folder d' =>
      rw [hentry] at hdata
      rw [Option.some.inj (Except.ok.inj hdata)]
    | missing | refused =>
      rw [hentry] at hdata
      cases hdata

/-- What was opened is what the backup records. -/
theorem openBackup_ok {env : RollbackEnv} {b : Backup} {files : List (String × Option SourceFile)}
    (h : openBackup env b = .ok files) :
    files.map Prod.fst = rollbackFiles ∧
      ∀ f ∈ files, BackedUpAs b f.1 (f.2.map fun s => .file s.content) := by
  obtain ⟨-, -, h⟩ := bind_ok.mp h
  obtain ⟨⟨data, state⟩, hfolders, h⟩ := bind_ok.mp h
  obtain ⟨-, -, h⟩ := bind_ok.mp h
  obtain ⟨-, -, h⟩ := bind_ok.mp h
  obtain ⟨hstate, hdata⟩ := openFolders_ok hfolders
  obtain ⟨hnames, hfiles⟩ := openAll_ok h
  refine ⟨hnames, fun f hf => ⟨state, hstate, ?_⟩⟩
  rcases openRecorded_ok (hfiles f hf) with ⟨hnone, hmarker⟩ | ⟨marker, d, s, hmarker, hd, hs, hf2⟩
  · exact .inl ⟨by rw [hnone]; rfl, hmarker⟩
  · exact .inr ⟨marker, d, s, hmarker, hdata d hd, hs, by rw [hf2]; rfl⟩

/-! ### All or nothing -/

theorem replacementOf_fst (env : RollbackEnv) (f : String × Option SourceFile) :
    (replacementOf env f).1 = f.1 := by
  obtain ⟨name, _ | source⟩ := f <;> rfl

theorem names_of_replacements {env : RollbackEnv} {b : Backup}
    {files : List (String × Option SourceFile)} (h : openBackup env b = .ok files) :
    (replacementsOf env files).map Prod.fst = databaseSidecars ++ rollbackFiles := by
  have hfiles : (files.map (replacementOf env)).map Prod.fst = rollbackFiles := by
    rw [← (openBackup_ok h).1, List.map_map]
    exact List.map_congr_left fun f _ => replacementOf_fst env f
  rw [replacementsOf, List.map_append, hfiles]
  rfl

/-- Each name is changed once. -/
theorem names_nodup {env : RollbackEnv} {b : Backup} {files : List (String × Option SourceFile)}
    (h : openBackup env b = .ok files) : ((replacementsOf env files).map Prod.fst).Nodup := by
  rw [names_of_replacements h]
  decide

/-- A file that is published is the one of the backup. -/
theorem stagedFile_ok {env : RollbackEnv} {name : String} {source : SourceFile} {entry : DataEntry}
    (h : stagedFile env name source = .ok entry) : entry = .file source.content := by
  unfold stagedFile at h
  cases hstage : env.stage name with
  | failed | untrusted =>
    rw [hstage] at h
    cases h
  | trusted =>
    rw [hstage] at h
    obtain ⟨content, hcontent, h⟩ := bind_ok.mp h
    have hsource : source.content = content := by
      unfold streamFile at hcontent
      split at hcontent
      · exact Except.ok.inj hcontent
      all_goals cases hcontent
    obtain ⟨-, -, h⟩ := bind_ok.mp h
    rw [hsource]
    exact (Except.ok.inj h).symm

/-- What is written under the name of a file. -/
theorem replacementOf_ok {env : RollbackEnv} {f : String × Option SourceFile}
    {entry : Option DataEntry} (h : (replacementOf env f).2 = .ok entry) :
    entry = f.2.map fun s => .file s.content := by
  obtain ⟨name, _ | source⟩ := f
  · exact (Except.ok.inj h).symm
  · obtain ⟨staged, hstaged, rfl⟩ := except_map_ok h
    rw [stagedFile_ok hstaged]
    rfl

/-- What the end of a rollback leaves, and what was there before. -/
def RollbackEnd (b : Backup) (dir : DataDir) : Except RestoreError Unit × DataDir → Prop
  | (.error e, after) =>
    e.IsValidation → ∀ name ∈ rollbackFiles ++ databaseSidecars, after name = dir name
  | (.ok _, after) =>
    (∀ name ∈ rollbackFiles, BackedUpAs b name (after name)) ∧
      ∀ name ∈ databaseSidecars, after name = none

/-- The rollback leaves the runtime as it was, or as the backup has it. -/
def AllOrNothing (env : RollbackEnv) (b : Backup) (dir : DataDir) : Prop :=
  RollbackEnd b dir (exec (restore env b) dir)

/-- The first change that cannot be made is refused by validation, and one before it was made that
does not put back what was there. -/
def Spoils (env : RollbackEnv) (b : Backup) (dir : DataDir) : Prop :=
  ∃ files before r after e, openBackup env b = .ok files ∧
    replacementsOf env files = before ++ r :: after ∧
    (∀ x ∈ before, faultOf blockedEntry dir x = none) ∧ faultOf blockedEntry dir r = some e ∧
    e.IsValidation ∧ ∃ x ∈ before, x.2 ≠ .ok (dir x.1)

/-- A rollback that comes to its end has done what the backup records. -/
theorem restored_of_done {env : RollbackEnv} {b : Backup} {dir : DataDir}
    {files : List (String × Option SourceFile)} (hfiles : openBackup env b = .ok files)
    (h : ∀ r ∈ replacementsOf env files, faultOf blockedEntry dir r = none) :
    (∀ name ∈ rollbackFiles, BackedUpAs b name (writeAll dir (replacementsOf env files) name)) ∧
      ∀ name ∈ databaseSidecars, writeAll dir (replacementsOf env files) name = none := by
  obtain ⟨hnames, hrecorded⟩ := openBackup_ok hfiles
  have hnodup := names_nodup hfiles
  constructor
  · intro name hname
    rw [← hnames] at hname
    obtain ⟨f, hf, rfl⟩ := List.mem_map.mp hname
    have hmem : replacementOf env f ∈ replacementsOf env files :=
      List.mem_append_right _ (List.mem_map_of_mem hf)
    have hnone := h _ hmem
    cases hentry : (replacementOf env f).2 with
    | error e =>
      rw [faultOf, hentry] at hnone
      cases hnone
    | ok entry =>
      have hpair : (f.1, .ok entry) ∈ replacementsOf env files := by
        rw [← replacementOf_fst env f, ← hentry]
        exact hmem
      rw [writeAll_of_mem hnodup hpair, replacementOf_ok hentry]
      exact hrecorded f hf
  · intro name hname
    exact writeAll_of_mem hnodup
      (List.mem_append_left _ (List.mem_map.mpr ⟨name, hname, rfl⟩))

/-- A change before the failure shows in the files of the runtime. -/
theorem changed_iff {env : RollbackEnv} {b : Backup} {dir : DataDir}
    {files : List (String × Option SourceFile)}
    {before after : List (Replacement String (Option DataEntry) RestoreError)}
    {r : Replacement String (Option DataEntry) RestoreError}
    (hfiles : openBackup env b = .ok files)
    (hsplit : replacementsOf env files = before ++ r :: after)
    (hbefore : ∀ x ∈ before, faultOf blockedEntry dir x = none) :
    (∀ name ∈ rollbackFiles ++ databaseSidecars, writeAll dir before name = dir name) ↔
      ∀ x ∈ before, x.2 = .ok (dir x.1) := by
  have hnodup : (before.map Prod.fst).Nodup := by
    have hall := names_nodup hfiles
    rw [hsplit, List.map_append] at hall
    exact hall.of_append_left
  rw [← kept_iff hnodup hbefore]
  constructor
  · intro h
    funext name
    by_cases hname : name ∈ before.map Prod.fst
    · refine h name ?_
      have hall := names_of_replacements hfiles
      rw [hsplit, List.map_append] at hall
      have hmem : name ∈ databaseSidecars ++ rollbackFiles :=
        hall ▸ List.mem_append_left _ hname
      exact List.mem_append.mpr (List.mem_append.mp hmem).symm
    · exact writeAll_of_notMem dir before hname
  · intro h name _
    rw [h]

/-- **A rollback is all or nothing exactly if validation does not refuse a file after another one
was changed.** -/
theorem all_or_nothing_iff (env : RollbackEnv) (b : Backup) (dir : DataDir) :
    AllOrNothing env b dir ↔ ¬Spoils env b dir := by
  unfold AllOrNothing restore
  cases hfiles : openBackup env b with
  | error e =>
    refine ⟨fun _ => ?_, fun _ _ _ _ => rfl⟩
    rintro ⟨files, _, _, _, _, hopened, -⟩
    rw [hfiles] at hopened
    cases hopened
  | ok files =>
    have hnodup := names_nodup hfiles
    dsimp only
    rcases done_or_stopped blockedEntry dir (replacementsOf env files) with
      hdone | ⟨before, r, after, e, hsplit, hbefore, hr⟩
    · rw [exec_replaceAll_done hnodup hdone]
      refine ⟨fun _ => ?_, fun _ => restored_of_done hfiles hdone⟩
      rintro ⟨files', before, r, after, e, hopened, hsplit, -, hr, -⟩
      rw [hfiles] at hopened
      obtain rfl := Except.ok.inj hopened
      have hmem : r ∈ replacementsOf env files :=
        hsplit ▸ List.mem_append_right before List.mem_cons_self
      rw [hdone r hmem] at hr
      cases hr
    · have hnodup' := hnodup
      rw [hsplit] at hnodup'
      have hexec := exec_replaceAll_stopped hnodup' hbefore hr
      rw [← hsplit] at hexec
      rw [hexec]
      show (e.IsValidation → _) ↔ _
      rw [changed_iff hfiles hsplit hbefore]
      constructor
      · rintro hkept ⟨files', before', r', after', e', hopened, hsplit', hbefore', hr', hspoilt⟩
        obtain ⟨he', x, hx, hne⟩ := hspoilt
        rw [hfiles] at hopened
        obtain rfl := Except.ok.inj hopened
        obtain ⟨rfl, rfl⟩ := stopped_unique (hsplit.symm.trans hsplit') hbefore hr hbefore' hr'
        exact hne (hkept he' x hx)
      · intro hnot he x hx
        by_contra hne
        exact hnot ⟨files, before, r, after, e, hfiles, hsplit, hbefore, hr, he, x, hx, hne⟩

/-! ### A damaged database -/

/-- `b"SQLite format 3\0"`. -/
def sqliteHeader : Bytes := utf8Bytes "SQLite format 3" ++ [0]

/-- What SQLite says of a file without its header. -/
def headerCheck (content : Bytes) : Except String String :=
  if content.take 16 = sqliteHeader then .ok "ok" else .error "file is not a database"

def rollbackEnv : RollbackEnv := ⟨"/opt/rclone-sync", headerCheck, fun _ => .trusted⟩

def plainSource (text : String) : BackupEntry := .file ⟨utf8Bytes text, none⟩

/-- A backup with a configuration and a database. -/
def databaseBackup (database : String) : Backup where
  path := "/var/backups/rollback"
  reachable := true
  top := ⟨true, fun name =>
    if name = ".rclone-sync-backup-v1" then plainSource "rclone-sync-backup-v1\n"
    else if name = "source-path.txt" then plainSource "/opt/rclone-sync\n"
    else .missing⟩
  data := .folder ⟨true, fun name =>
    if name = "config.yaml" then plainSource "saved-config"
    else if name = "rclone-sync.db" then plainSource database
    else .missing⟩
  state := .folder ⟨true, fun name =>
    if name = "config.yaml.present" ∨ name = "config.yaml.bak.missing" ∨
      name = "rclone-sync.db.present" then plainSource ""
    else .missing⟩

/-- A runtime with a newer configuration. -/
def newerRuntime : DataDir := fun name =>
  if name = "config.yaml" then some (.file (utf8Bytes "new-config")) else none

/-- **A damaged database is refused when the configuration is replaced already.** -/
theorem not_all_or_nothing :
    ¬AllOrNothing rollbackEnv (databaseBackup "not-a-sqlite-database") newerRuntime := by
  intro h
  have hexec : (exec (restore rollbackEnv (databaseBackup "not-a-sqlite-database")) newerRuntime).1
      = .error (.database "file is not a database") := by decide +kernel
  have hfile : (exec (restore rollbackEnv (databaseBackup "not-a-sqlite-database")) newerRuntime).2
      "config.yaml" = some (.file (utf8Bytes "saved-config")) := by decide +kernel
  unfold AllOrNothing at h
  revert h hexec hfile
  rcases exec (restore rollbackEnv (databaseBackup "not-a-sqlite-database")) newerRuntime with
    ⟨r, t⟩
  rintro h rfl hfile
  have hkept : t "config.yaml" = newerRuntime "config.yaml" :=
    h RestoreError.noConfusion "config.yaml" (by decide)
  exact absurd (hfile.symm.trans hkept) (by decide +kernel)

end RcloneSync
