/-
RcloneSync/PairCommand.lean

Assembly of the rclone command of one sync pair (`app/jobs/rclone_sync.py`).  The
argument vector is collected from seven places,

    base arguments, verb arguments, tuning, pair, filters, pair arguments, backup dir

and then rewritten twice: `dedupeSingleValueRcloneArgs` keeps the last setting of
every single-value flag, and `protectedFilterArgs` compiles all filter flags into
one ordered list of rules behind the reserved excludes.  For bisync the rules move
into a file (`bisyncFilterSnapshot`).

What lies outside the process is a parameter (`PairEnv`): the filter files, the
cache directory, the time stamp and the hash that names a filter snapshot.
-/
import RcloneSync.PairPlanner
import RcloneSync.RcloneArgs

namespace RcloneSync

open Py

/-- A regular file named as a filter file: its size and its text (`none` when it does not
decode as UTF-8). -/
structure FilterFile where
  size : Nat
  text : Option String
  deriving Repr

/-- The surroundings of one command. -/
structure PairEnv where
  cacheDir : String
  files : String → Option FilterFile
  stamp : String
  sha256hex : String → String

/-! ### Structured arguments -/

/-- Setting and flag of the structured options that carry a value. -/
def numericOrString : List (String × String) :=
  [("transfers", "--transfers"), ("checkers", "--checkers"), ("retries", "--retries"),
   ("low_level_retries", "--low-level-retries"), ("tpslimit", "--tpslimit"),
   ("tpslimit_burst", "--tpslimit-burst"), ("max_transfer", "--max-transfer"),
   ("max_duration", "--max-duration"), ("contimeout", "--contimeout"), ("timeout", "--timeout"),
   ("bwlimit", "--bwlimit"), ("log_level", "--log-level")]

/-- Setting and flag of the structured switches. -/
def boolFlags : List (String × String) :=
  [("fast_list", "--fast-list"), ("track_renames", "--track-renames"),
   ("metadata", "--metadata"), ("create_empty_src_dirs", "--create-empty-src-dirs"),
   ("ignore_existing", "--ignore-existing"),
   ("drive_acknowledge_abuse", "--drive-acknowledge-abuse")]

/-- The verbs that may delete files. -/
def deletingVerb (verb : String) : Bool := verb = "sync" || verb = "bisync"

/-- `value not in (None, "")`. -/
def isSet (v : Value) : Bool := !pyIn v [.none, .str ""]

/-- `f"{flag}={value}"` for a set value, nothing otherwise. -/
def valueArg (settings : Dict) (key flag : String) : List String :=
  let value := settings.get key
  if isSet value then [flag ++ "=" ++ pyStr value] else []

/-- The structured arguments that come before the delete bound. -/
def structuredBefore (settings : Dict) : List String :=
  numericOrString.flatMap fun e => valueArg settings e.1 e.2

/-- The structured arguments that come after the delete bound. -/
def structuredAfter (settings : Dict) (verb : String) : List String :=
  (if deletingVerb verb then
      valueArg settings "max_delete_size" "--max-delete-size" ++
        (if truthy (settings.get "delete_excluded") then ["--delete-excluded"] else [])
    else []) ++
  boolFlags.flatMap (fun e => if truthy (settings.get e.1) then [e.2] else []) ++
  (if truthy (settings.get "ignore_errors") && truthy (settings.get "allow_unsafe_flags") then
    ["--ignore-errors"] else [])

/-- `_structured_rclone_args`; a value that is no mapping gives no argument. -/
def structuredRcloneArgs (settings : Value) (verb : String) : List String :=
  match asDict settings with
  | none => []
  | some d =>
    structuredBefore d ++
    (if deletingVerb verb then valueArg d "max_delete" "--max-delete" else []) ++
    structuredAfter d verb

/-! ### De-duplication -/

def singleValueRcloneFlags : List String :=
  ["--bwlimit", "--checkers", "--conflict-resolve", "--contimeout", "--log-level",
   "--low-level-retries", "--max-delete", "--max-delete-size", "--max-duration", "--max-lock",
   "--max-transfer", "--retries", "--timeout", "--tpslimit", "--tpslimit-burst", "--transfers"]

/-- A chunk of `_dedupe_single_value_rclone_args`: its flag, if single-valued, and tokens. -/
abbrev ArgChunk := Option String × List String

/-- The first loop: cut the arguments into chunks. -/
def argChunks : List String → List ArgChunk
  | [] => []
  | token :: rest =>
    let flag := flagOf token
    if flag ∉ singleValueRcloneFlags then (none, [token]) :: argChunks rest
    else if hasEq token then (some flag, [token]) :: argChunks rest
    else match rest with
      | [] => [(some flag, [token])]
      | value :: rest' => (some flag, [token, value]) :: argChunks rest'

/-- The second loop: a chunk stays if it has no flag or is its flag's last occurrence. -/
def lastChunks : List ArgChunk → List ArgChunk
  | [] => []
  | (flag, tokens) :: rest =>
    if flag = none ∨ flag ∉ rest.map Prod.fst then (flag, tokens) :: lastChunks rest
    else lastChunks rest

def dedupeSingleValueRcloneArgs (args : List String) : List String :=
  (lastChunks (argChunks args)).flatMap Prod.snd

/-! ### Filter compilation -/

def reservedSubtrees : List String := ["Sicherpfad", ".sicherpfad-snapshots", ".rclone-versions"]

def reservedRules : List String := reservedSubtrees.map fun name => "- /" ++ name ++ "/**"

/-- The filter groups of `_protected_filter_args`. -/
inductive FilterGroup
  | include
  | includeFrom
  | exclude
  | excludeFrom
  | filter
  | filterFrom
  deriving DecidableEq, Repr

/-- The group a flag belongs to (`--filters-file` counts as `--filter-from`). -/
def filterGroup (flag : String) : Option FilterGroup :=
  if flag = "--include" then some .include
  else if flag = "--include-from" then some .includeFrom
  else if flag = "--exclude" then some .exclude
  else if flag = "--exclude-from" then some .excludeFrom
  else if flag = "--filter" then some .filter
  else if flag = "--filter-from" ∨ flag = "--filters-file" then some .filterFrom
  else none

def FilterGroup.fromFile : FilterGroup → Bool
  | .includeFrom | .excludeFrom | .filterFrom => true
  | _ => false

/-- Lines of a filter file that are rules: stripped, nonempty, no comment. -/
def ruleLines (text : String) : List String :=
  ((splitLines text).map strip).filter fun line =>
    line ≠ "" && !startsWith line "#" && !startsWith line ";"

/-- The values one filter flag contributes to its group. -/
def filterValues (env : PairEnv) (group : FilterGroup) (value : String) :
    Except PyError (List String) :=
  if group.fromFile then
    match env.files value with
    | none => .error (.value "Filterdatei fehlt oder überschreitet 1 MiB")
    | some file =>
      if value = "-" ∨ 1024 * 1024 < file.size then
        .error (.value "Filterdatei fehlt oder überschreitet 1 MiB")
      else match file.text with
        | none => .error (.value "'utf-8' codec can't decode bytes")
        | some text => .ok (ruleLines text)
  else .ok [strip value]

/-- What the loop of `_protected_filter_args` collects. -/
structure FilterRead where
  remainder : List String
  entries : List (FilterGroup × List String)
  deriving DecidableEq, Repr

def FilterRead.keep (token : String) (r : FilterRead) : FilterRead :=
  { r with remainder := token :: r.remainder }

def FilterRead.add (group : FilterGroup) (values : List String) (r : FilterRead) : FilterRead :=
  { r with entries := (group, values) :: r.entries }

/-- The refusals that hold for every token, whatever stands before it. -/
def refusedToken (token : String) : Option PyError :=
  let flag := flagOf token
  if flag = "--files-from" ∨ flag = "--files-from-raw" ∨ flag = "--files-from0" then
    some (.value "files-from würde den verbindlichen Vault-Schutz umgehen")
  else if flag = "--delete-excluded" ∧
      (hasEq token = false ∨
        lower ((afterSep '=' token).getD "") ∉ ["false", "0"]) then
    some (.value "delete-excluded gefährdet geschützte Vault- und Recovery-Kopien")
  else none

/-- The loop of `_protected_filter_args` over normalised arguments. -/
def readFilters (env : PairEnv) : List String → Except PyError FilterRead
  | [] => .ok ⟨[], []⟩
  | token :: rest =>
    match refusedToken token with
    | some e => .error e
    | none =>
      match filterGroup (flagOf token) with
      | none => (readFilters env rest).map (FilterRead.keep token)
      | some group =>
        if hasEq token then
          match filterValues env group ((afterSep '=' token).getD "") with
          | .error e => .error e
          | .ok values => (readFilters env rest).map (FilterRead.add group values)
        else match rest with
          | [] => .error (.value ("Wert fehlt für " ++ flagOf token))
          | value :: rest' =>
            match filterValues env group value with
            | .error e => .error e
            | .ok values => (readFilters env rest').map (FilterRead.add group values)

/-- `groups[group]`. -/
def FilterRead.group (r : FilterRead) (g : FilterGroup) : List String :=
  (r.entries.filter fun e => e.1 = g).flatMap Prod.snd

/-- The rules of the user's groups, excludes before filters before includes. -/
def FilterRead.userRules (r : FilterRead) : List String :=
  (r.group .exclude ++ r.group .excludeFrom).map ("- " ++ ·) ++
  (r.group .filter ++ r.group .filterFrom) ++
  (r.group .include ++ r.group .includeFrom).map ("+ " ++ ·) ++
  (if r.group .include ≠ [] ∨ r.group .includeFrom ≠ [] then ["- **"] else [])

/-- The compiled rule list: reserved excludes first, duplicates removed. -/
def FilterRead.rules (r : FilterRead) : List String :=
  firstOccurrences (reservedRules ++ r.userRules)

/-- `--filter rule` for every rule. -/
def filterPairs (rules : List String) : List String := rules.flatMap fun rule => ["--filter", rule]

def protectedFilterArgs (env : PairEnv) (args : List String) : Except PyError (List String) :=
  match normalizeFilterAliases args with
  | .error e => .error e
  | .ok args =>
    match readFilters env args with
    | .error e => .error e
    | .ok r =>
      if "!" ∈ r.group .filter ++ r.group .filterFrom then
        .error (.value "Filter-Reset (!) würde den verbindlichen Vault-Schutz entfernen")
      else .ok (r.remainder ++ filterPairs r.rules)

/-! ### Bisync filter snapshot -/

/-- Split the compiled arguments into rules and the rest. -/
def splitFilterRules : List String → Except PyError (List String × List String)
  | [] => .ok ([], [])
  | token :: rest =>
    if token = "--filter" then
      match rest with
      | [] => .error (.index "list index out of range")
      | rule :: rest' => (splitFilterRules rest').map fun p => (rule :: p.1, p.2)
    else (splitFilterRules rest).map fun p => (p.1, token :: p.2)

/-- `"\n".join(rules) + "\n"`. -/
def filterFileContent (rules : List String) : String := join "\n" rules ++ "\n"

/-- `_SnapshotConfig.get` with one key. -/
def configGet (cfg : Dict) (key : String) (fallback : Value) : Value := cfg.getOr key fallback

/-- `_SnapshotConfig.get` with two keys. -/
def configGet₂ (cfg : Dict) (key₁ key₂ : String) (fallback : Value) : Value :=
  match cfg.lookup key₁ with
  | some (.dict d) => Dict.getOr d key₂ fallback
  | _ => fallback

/-- `str(Path(directory) / ".protected-filters" / name)`. -/
def protectedFilterPath (directory name : String) : String :=
  (((parsePath directory).child ".protected-filters").child name).text

/-- `_bisync_filter_snapshot`: the arguments, and the content of the file they name. -/
def bisyncFilterSnapshot (env : PairEnv) (args : List String) (cfg : Dict) :
    Except PyError (List String × String) :=
  match splitFilterRules args with
  | .error e => .error e
  | .ok (rules, rest) =>
    match configGet₂ cfg "paths" "data_dir" (.str "/opt/rclone-sync/data") with
    | .str directory =>
      let content := filterFileContent rules
      let target := protectedFilterPath directory (env.sha256hex content ++ ".txt")
      .ok (rest ++ ["--filters-file", target], content)
    | _ => .error (.type "argument should be a str or an os.PathLike object")

/-! ### The other sources of arguments -/

/-- `_split_lines`: the nonblank lines that are no comment. -/
def splitSettingLines (value : Value) : List String :=
  if truthy value then
    let raw := match value with
      | .list xs => xs.map pyStr
      | v => splitLines (pyStr v)
    (raw.map strip).filter fun line => line ≠ "" && !startsWith line "#"
  else []

/-- A pattern without the sign its field already expresses. -/
def patternText (sign : String) (pattern : String) : String :=
  if startsWith pattern sign then strip (dropText 2 pattern) else pattern

/-- One optional filter-file setting of a pair. -/
def filterFileArg (env : PairEnv) (pair : Dict) (key flag : String) :
    Except PyError (List String) :=
  let value := strip (pair.textOr key "")
  if value = "" then .ok []
  else if (env.files value).isNone then .error (.value (key ++ " nicht gefunden: " ++ value))
  else .ok [flag, value]

/-- The filter arguments of `_filter_args` before compilation. -/
def rawFilterArgs (env : PairEnv) (cfg pair : Dict) (verb : String) :
    Except PyError (List String) := do
  let includes := (splitSettingLines (pair.get "include")).flatMap fun p =>
    ["--include", patternText "+ " p]
  let excludes := (splitSettingLines (pair.get "exclude")).flatMap fun p =>
    ["--exclude", patternText "- " p]
  let filters := (splitSettingLines (pair.get "filter")).flatMap fun rule => ["--filter", rule]
  let includeFile ← filterFileArg env pair "include_file" "--include-from"
  let excludeFile ← filterFileArg env pair "exclude_file" "--exclude-from"
  -- the pair's file replaces the global one
  let filterFile := strip (pyStr (pyOr (pair.get "filter_file")
    (pyOr (configGet₂ cfg "backup" "filter_file" (.str "")) (.str ""))))
  let filterFileArgs ←
    if filterFile = "" then pure []
    else if (env.files filterFile).isNone then
      throw (.value ("filter_file gesetzt, aber nicht vorhanden: " ++ filterFile))
    else pure [if verb = "bisync" then "--filters-file" else "--filter-from", filterFile]
  return includes ++ excludes ++ filters ++ includeFile ++ excludeFile ++ filterFileArgs

def filterArgs (env : PairEnv) (cfg pair : Dict) (verb : String) :
    Except PyError (List String) :=
  match rawFilterArgs env cfg pair verb with
  | .error e => .error e
  | .ok args => protectedFilterArgs env args

def globalVerbArgs (backup : Dict) (verb : String) : List String :=
  let bwlimit := strip (backup.textOr "bwlimit" "")
  let conflict := lower (strip (backup.textOr "conflict_resolve" "auto"))
  let maxLock := strip (backup.textOr "max_lock" "2m")
  (if bwlimit ≠ "" then ["--bwlimit", bwlimit] else []) ++
  (if truthy (backup.get "immutable") then ["--immutable"] else []) ++
  (if verb = "bisync" then
    (if conflict ∉ ["", "auto", "none"] then ["--conflict-resolve", conflict] else []) ++
    (if truthy (Dict.getOr backup "resilient" (.bool true)) then ["--resilient"] else []) ++
    (if truthy (Dict.getOr backup "recover" (.bool true)) then ["--recover"] else []) ++
    (if maxLock ≠ "" then ["--max-lock", maxLock] else [])
  else [])

def resolveBackupPath (env : PairEnv) (root spec : String) : String :=
  let resolved := replace "{date}" env.stamp spec
  if isRemote resolved || startsWith resolved "/" then resolved
  else root ++ (if endsWith root "/" || endsWith root ":" then "" else "/") ++ resolved

/-- A backup-directory setting of the pair, or else of the backup section. -/
def backupDirSetting (backup pair : Dict) (key : String) : String :=
  strip (pyStr (pyOr (pyOr (pair.get key) (backup.get key)) (.str "")))

def backupDirArgs (env : PairEnv) (backup pair : Dict) (verb src dst : String) : List String :=
  let generic := backupDirSetting backup pair "backup_dir"
  if verb = "bisync" then
    let relative := generic ≠ "" && !(isRemote generic || startsWith generic "/")
    let own₁ := backupDirSetting backup pair "backup_dir1"
    let own₂ := backupDirSetting backup pair "backup_dir2"
    let dir₁ := if relative && own₁ = "" then generic else own₁
    let dir₂ := if relative && own₂ = "" then generic else own₂
    (if dir₁ ≠ "" then ["--backup-dir1", resolveBackupPath env src dir₁] else []) ++
    (if dir₂ ≠ "" then ["--backup-dir2", resolveBackupPath env dst dir₂] else [])
  else if generic ≠ "" then ["--backup-dir", resolveBackupPath env dst generic]
  else []

def rcloneCacheArgs (env : PairEnv) (verb : String) : List String :=
  ["--cache-dir", env.cacheDir] ++
  (if verb = "bisync" then ["--workdir", ((parsePath env.cacheDir).child "bisync").text] else [])

/-! ### The command -/

/-- Direction, mode, verb, source and destination of a pair. -/
structure PairRoute where
  verb : String
  direction : String
  mode : String
  src : String
  dst : String
  deriving DecidableEq, Repr

/-- The direction as `_build_pair_command` reads it. -/
def pairDirection (pair : Dict) : String := strip (lower (pair.textOr "direction" "bisync"))

/-- The mode as `_build_pair_command` reads it. -/
def pairMode (pair : Dict) : String := strip (lower (pair.textOr "mode" "bisync"))

def pairRoute (pair : Dict) : Except PyError PairRoute :=
  match pair.lookup "remote", pair.lookup "local" with
  | none, _ => .error (.index "remote")
  | _, none => .error (.index "local")
  | some r, some l =>
    let remote := pyStr r
    let loc := pyStr l
    let direction := pairDirection pair
    let mode := pairMode pair
    let verb := if mode = "sync" then "sync" else "copy"
    if direction = "bisync" then .ok ⟨"bisync", direction, "bisync", remote, loc⟩
    else if direction = "pull" then .ok ⟨verb, direction, mode, remote, loc⟩
    else if direction = "push" then .ok ⟨verb, direction, mode, loc, remote⟩
    else .error (.value ("Unbekannte direction: " ++ direction))

/-- `cfg.get("backup", default={}) or {}`, which the code uses as a mapping. -/
def backupSection (cfg : Dict) : Except PyError Dict :=
  match pyOr (configGet cfg "backup" (.dict [])) (.dict []) with
  | .dict backup => .ok backup
  | _ => .error (.attribute "object has no attribute 'get'")

/-- `backup.get("tuning") or {}`. -/
def tuningValue (backup : Dict) : Value := pyOr (backup.get "tuning") (.dict [])

/-- The tuning section where the code uses it as a mapping. -/
def tuningSection (backup : Dict) : Except PyError Dict :=
  match tuningValue backup with
  | .dict tuning => .ok tuning
  | _ => .error (.attribute "object has no attribute 'get'")

/-- The bound that applies to a pair: its own `max_delete`, or else the tuning's. -/
def effectiveMaxDelete (tuning pair : Dict) : Value :=
  Dict.getOr pair "max_delete" (tuning.get "max_delete")

/-- The values that leave the number of deletions unbounded. -/
def unboundedDelete (v : Value) : Bool := pyIn v [.none, .str "", .int (-1), .str "-1"]

/-- The refusals of a productive deleting command. -/
def checkDeleteAllowed (backup tuning pair : Dict) (verb : String) : Except PyError Unit :=
  if truthy (Dict.getOr backup "require_delete_confirmation" (.bool true)) &&
      !truthy (Dict.getOr pair "allow_delete" (.bool false)) then
    .error (.value ("Produktiver " ++ verb ++ " ist gesperrt: Pair-Option allow_delete fehlt"))
  else if truthy (Dict.getOr backup "require_max_delete_for_sync" (.bool true)) &&
      unboundedDelete (effectiveMaxDelete tuning pair) then
    .error (.value ("Produktiver " ++ verb ++ " ist gesperrt: begrenztes max_delete fehlt"))
  else .ok ()

/-- The refusals apply to a deleting verb outside a dry run. -/
def deleteGuard (backup tuning pair : Dict) (verb : String) (dryRun : Bool) :
    Except PyError Unit :=
  if deletingVerb verb && !dryRun then checkDeleteAllowed backup tuning pair verb else .ok ()

/-- What `_build_pair_command` returns, with the content of the bisync filter file. -/
structure PairCommand where
  cmd : List String
  route : PairRoute
  filterFile : Option String
  deriving DecidableEq, Repr

/-- The tokens in front of the configured arguments. -/
def commandHead (env : PairEnv) (verb statsInterval : String) : List String :=
  ["rclone", verb] ++ rcloneCacheArgs env verb ++ ["--stats", statsInterval, "--stats-one-line"]

/-- The arguments of one command by the place they come from. -/
structure ArgSources where
  base : List String
  verbArgs : List String
  tuningArgs : List String
  pairArgs : List String
  filters : List String
  own : List String
  backupDir : List String
  deriving DecidableEq, Repr

/-- The argument vector before it is rewritten. -/
def ArgSources.vector (s : ArgSources) : List String :=
  s.base ++ s.verbArgs ++ s.tuningArgs ++ s.pairArgs ++ s.filters ++ s.own ++ s.backupDir

def argSources (env : PairEnv) (cfg backup pair : Dict) (route : PairRoute)
    (baseArgs : List String) : Except PyError ArgSources := do
  let allowUnsafe := truthy (backup.get "allow_unsafe_rclone_args")
  let base ← validateParsedRcloneArgs baseArgs allowUnsafe
  let filters ← filterArgs env cfg pair route.verb
  let own ← validateRcloneArgs (pair.get "rclone_args") allowUnsafe
  return {
    base, filters, own
    verbArgs := globalVerbArgs backup route.verb
    tuningArgs := structuredRcloneArgs (tuningValue backup) route.verb
    pairArgs := structuredRcloneArgs (.dict pair) route.verb
    backupDir := backupDirArgs env backup pair route.verb route.src route.dst }

/-- Both rewriting passes, and the snapshot file of a bisync. -/
def rewrittenArgs (env : PairEnv) (cfg : Dict) (verb : String) (args : List String) :
    Except PyError (List String × Option String) := do
  let compiled ← protectedFilterArgs env (dedupeSingleValueRcloneArgs args)
  if verb = "bisync" then
    let (snapshotArgs, content) ← bisyncFilterSnapshot env compiled cfg
    return (snapshotArgs, some content)
  else return (compiled, none)

def buildPairCommand (env : PairEnv) (cfg pair : Dict) (baseArgs : List String) (dryRun : Bool) :
    Except PyError PairCommand := do
  let route ← pairRoute pair
  let backup ← backupSection cfg
  let tuning ← tuningSection backup
  let _ ← deleteGuard backup tuning pair route.verb dryRun
  let sources ← argSources env cfg backup pair route baseArgs
  let (effective, filterFile) ← rewrittenArgs env cfg route.verb sources.vector
  let head := commandHead env route.verb (tuning.textOr "stats_interval" "10s")
  let cmd := head ++ effective
  let cmd := if dryRun && !cmd.contains "--dry-run" then cmd ++ ["--dry-run"] else cmd
  return ⟨cmd ++ ["--", route.src, route.dst], route, filterFile⟩

/-! ### The parts of a command -/

/-- The steps a successful build went through. -/
structure BuildSteps (env : PairEnv) (cfg pair : Dict) (baseArgs : List String) (dryRun : Bool)
    (c : PairCommand) where
  backup : Dict
  tuning : Dict
  sources : ArgSources
  effective : List String
  route_eq : pairRoute pair = .ok c.route
  backup_eq : backupSection cfg = .ok backup
  tuning_eq : tuningSection backup = .ok tuning
  guard_eq : deleteGuard backup tuning pair c.route.verb dryRun = .ok ()
  sources_eq : argSources env cfg backup pair c.route baseArgs = .ok sources
  effective_eq : rewrittenArgs env cfg c.route.verb sources.vector = .ok (effective, c.filterFile)
  cmd_eq : dryRun = false → c.cmd =
    commandHead env c.route.verb (tuning.textOr "stats_interval" "10s") ++ effective ++
      ["--", c.route.src, c.route.dst]

theorem buildPairCommand_ok {env : PairEnv} {cfg pair : Dict} {baseArgs : List String}
    {dryRun : Bool} {c : PairCommand} (h : buildPairCommand env cfg pair baseArgs dryRun = .ok c) :
    Nonempty (BuildSteps env cfg pair baseArgs dryRun c) := by
  simp only [buildPairCommand, bind_ok] at h
  obtain ⟨route, hroute, backup, hbackup, tuning, htuning, ⟨⟩, hguard, sources, hsources,
    ⟨effective, filterFile⟩, heffective, h⟩ := h
  obtain rfl := Except.ok.inj h
  refine ⟨⟨backup, tuning, sources, effective, hroute, hbackup, htuning, hguard, hsources,
    heffective, ?_⟩⟩
  rintro rfl
  simp

theorem argSources_of_parts {env : PairEnv} {cfg backup pair : Dict} {route : PairRoute}
    {baseArgs : List String} {s : ArgSources}
    (hbase : validateParsedRcloneArgs baseArgs (truthy (backup.get "allow_unsafe_rclone_args"))
      = .ok s.base)
    (hfilters : filterArgs env cfg pair route.verb = .ok s.filters)
    (hown : validateRcloneArgs (pair.get "rclone_args")
      (truthy (backup.get "allow_unsafe_rclone_args")) = .ok s.own)
    (hverb : globalVerbArgs backup route.verb = s.verbArgs)
    (htuning : structuredRcloneArgs (tuningValue backup) route.verb = s.tuningArgs)
    (hpair : structuredRcloneArgs (.dict pair) route.verb = s.pairArgs)
    (hdir : backupDirArgs env backup pair route.verb route.src route.dst = s.backupDir) :
    argSources env cfg backup pair route baseArgs = .ok s := by
  rw [argSources, hbase, hfilters, hown, hverb, htuning, hpair, hdir]
  rfl

theorem buildPairCommand_of_sources {env : PairEnv} {cfg pair : Dict} {baseArgs : List String}
    {c : PairCommand} {backup tuning : Dict} {sources : ArgSources} {effective : List String}
    (hroute : pairRoute pair = .ok c.route) (hbackup : backupSection cfg = .ok backup)
    (htuning : tuningSection backup = .ok tuning)
    (hguard : deleteGuard backup tuning pair c.route.verb false = .ok ())
    (hsources : argSources env cfg backup pair c.route baseArgs = .ok sources)
    (heffective : rewrittenArgs env cfg c.route.verb sources.vector
      = .ok (effective, c.filterFile))
    (hcmd : c.cmd = commandHead env c.route.verb (tuning.textOr "stats_interval" "10s") ++
      effective ++ ["--", c.route.src, c.route.dst]) :
    buildPairCommand env cfg pair baseArgs false = .ok c := by
  simp only [buildPairCommand, bind_ok]
  refine ⟨_, hroute, _, hbackup, _, htuning, _, hguard, _, hsources, _, heffective, ?_⟩
  rw [if_neg (by simp), ← hcmd]
  rfl

theorem rewrittenArgs_of_parts {env : PairEnv} {cfg : Dict} {verb : String}
    {args kept compiled : List String} (hverb : verb ≠ "bisync")
    (hkept : dedupeSingleValueRcloneArgs args = kept)
    (hcompiled : protectedFilterArgs env kept = .ok compiled) :
    rewrittenArgs env cfg verb args = .ok (compiled, none) := by
  rw [rewrittenArgs, hkept, hcompiled]
  exact if_neg hverb

/-! ### A sample pair -/

/-- Surroundings with one filter file. -/
def photoEnv : PairEnv where
  cacheDir := "/cache"
  files name := if name = "/etc/photos" then some ⟨24, some "# photos\n *.raw \n- *.bak\n"⟩ else none
  stamp := "20240101-000000"
  sha256hex s := s

/-- A pair that pushes to a remote and deletes there at most five files. -/
def photoPair : Dict :=
  [("remote", .str "box:photos"), ("local", .str "/photos"), ("direction", .str "push"),
   ("mode", .str "sync"), ("allow_delete", .bool true), ("max_delete", .int 5)]

def photoCommand (lead : List String) : PairCommand where
  cmd := ["rclone", "sync", "--cache-dir", "/cache", "--stats", "10s", "--stats-one-line"] ++
    lead ++ filterPairs reservedRules ++ ["--", "/photos", "box:photos"]
  route := ⟨"sync", "push", "sync", "/photos", "box:photos"⟩
  filterFile := none

theorem validate_noArgs (allowUnsafe : Bool) : validateParsedRcloneArgs [] allowUnsafe = .ok [] :=
  validateParsed_harmless (by decide) rfl rfl (fun _ h => absurd h List.not_mem_nil) allowUnsafe

theorem harmless_fastList : Harmless "--fast-list" :=
  ⟨by decide +kernel, by decide +kernel, by decide +kernel, by decide +kernel, by decide +kernel⟩

theorem validate_fastList (allowUnsafe : Bool) :
    validateRcloneArgs (.str "--fast-list") allowUnsafe = .ok ["--fast-list"] :=
  validate_token (by decide +kernel) (by decide +kernel) (by decide +kernel) harmless_fastList
    allowUnsafe

end RcloneSync
