/-
RcloneSync/Protection.lean

The anomaly guard and its quarantine (`app/protection.py`).  A destructive run is
preceded by `preflightAnomalyGuard`: it measures the source, compares the result with
the baseline of the last good run and stores a quarantine when too much is missing.
A stored quarantine blocks the pair, and every destructive pair on overlapping paths,
until it is acknowledged.

All state is one JSON value in the table of runtime settings.  `runtimeUpdate` is the
only way to change it: read, apply a function, write back, all in one transaction
which a failure leaves without effect.

File system, hash, floating-point arithmetic and the measurement itself are
parameters (`GuardEnv` and the arguments of the operations).
-/
import RcloneSync.Json
import RcloneSync.PairCommand

namespace RcloneSync

open Py

/-! ### Which pairs are guarded -/

def isDestructive (pair : Dict) : Bool :=
  casefold (pair.textOr "direction" "") = "bisync" || casefold (pair.textOr "mode" "") = "sync"

/-! ### Surroundings -/

/-- What the guard takes from outside. -/
structure GuardEnv where
  /-- `hashlib.sha256(text.encode("utf-8")).hexdigest()` -/
  sha256hex : String → String
  /-- `float(value)` -/
  toFloat : Value → Except PyError PyFloat
  /-- `100.0 * max(0, old - new) / max(1, old)` in floating point -/
  dropPercent : Int → Int → PyFloat
  /-- `round(x, 2)` -/
  round2 : PyFloat → PyFloat

/-- `str(Path(path).resolve())` at one moment, `none` when resolving raises. -/
abbrev FileSystem := String → Option String

/-- The parts of the resolved path. -/
def FileSystem.resolver (fs : FileSystem) : Resolver :=
  fun path => (fs path).map fun text => (parsePath text).allParts

/-! ### Identity of a pair -/

def digestIdentity (env : GuardEnv) (kind : String) (payload : Dict) : String :=
  kind ++ ":fp:" ++ takeText 24 (env.sha256hex (jsonDumps compactJson (.dict payload)))

/-- `str(pair.get(key) or "").strip().rstrip("/")`. -/
def endpointIdentity (pair : Dict) (key : String) : String :=
  rstripOf (· = '/') (strip (pair.textOr key ""))

def rcloneHistoryKey (env : GuardEnv) (pair : Dict) : String :=
  let stableId := strip (pair.textOr "id" "")
  let remote := endpointIdentity pair "remote"
  let loc := endpointIdentity pair "local"
  if stableId ≠ "" then "rclone:id:" ++ stableId
  else if remote ≠ "" ∨ loc ≠ "" then
    digestIdentity env "rclone"
      [("remote", .str remote), ("local", .str loc),
       ("direction", .str (lower (strip (pair.textOr "direction" "bisync")))),
       ("mode", .str (lower (strip (pair.textOr "mode" "bisync"))))]
  else "rclone:name:" ++ casefold (strip (pair.textOr "name" ""))

/-- `_state_key`. -/
def stateKey (env : GuardEnv) (pair : Dict) : String :=
  takeText 32 (env.sha256hex (rcloneHistoryKey env pair))

/-- One entry of `_quarantine_endpoints`. -/
def quarantineEndpoint (fs : FileSystem) (pair : Dict) (key : String) : String :=
  let value := normalizeRemotePath (pair.textOr key "")
  if value ≠ "" && !isRemote value then (fs value).getD value else value

def quarantineEndpoints (fs : FileSystem) (pair : Dict) : Dict :=
  [("local", .str (quarantineEndpoint fs pair "local")),
   ("remote", .str (quarantineEndpoint fs pair "remote"))]

/-! ### Settings -/

structure GuardSettings where
  enabled : Bool
  fileDropPercent : PyFloat
  sizeDropPercent : PyFloat
  minBaselineFiles : Int
  measurementTimeoutSeconds : Int
  deriving DecidableEq, Repr

def guardSettings (env : GuardEnv) (backup pair : Dict) : Except PyError GuardSettings := do
  let settings := (asDict (backup.get "anomaly_guard")).getD []
  let pairSettings := (asDict (pair.get "anomaly_guard")).getD []
  let value (name : String) (fallback : Value) : Value :=
    Dict.getOr pairSettings name (Dict.getOr settings name fallback)
  let fileDropPercent ← env.toFloat (value "file_drop_percent" (.int 35))
  let sizeDropPercent ← env.toFloat (value "size_drop_percent" (.int 35))
  let minBaselineFiles ← pyInt (value "min_baseline_files" (.int 100))
  let measurementTimeoutSeconds ← pyInt (value "measurement_timeout_seconds" (.int 180))
  return {
    enabled := truthy (value "enabled" (.bool true))
    fileDropPercent, sizeDropPercent, minBaselineFiles, measurementTimeoutSeconds }

/-! ### Stored state -/

/-- The stored JSON value, `none` where the row is missing. -/
abbrev RuntimeRow := Option Value

/-- `Runtime-Wert ist zu groß`: the limit of a runtime value in bytes. -/
def runtimeLimit : Nat := 512 * 1024

/-- `Database.runtime_update`: the value that is written back. -/
def runtimeUpdate (row : RuntimeRow) (fallback : Value) (update : Value → Except PyError Value) :
    Except PyError Value :=
  match update (row.getD fallback) with
  | .error e => .error e
  | .ok value =>
    if runtimeLimit < utf8Length (jsonDumps plainJson value) then
      .error (.value "Runtime-Wert ist zu groß")
    else .ok value

/-- The two tables of the guard. -/
structure GuardState where
  baselines : Dict
  quarantines : Dict
  deriving DecidableEq, Repr

/-- The mapping under a key, empty when it is none. -/
def dictAt (d : Dict) (key : String) : Dict := (asDict (d.get key)).getD []

def normalizeState : Value → GuardState
  | .dict d => ⟨dictAt d "baselines", dictAt d "quarantines"⟩
  | _ => ⟨[], []⟩

def GuardState.toValue (s : GuardState) : Value :=
  .dict [("baselines", .dict s.baselines), ("quarantines", .dict s.quarantines)]

/-- `_load_state`. -/
def loadState (row : RuntimeRow) : GuardState := normalizeState (row.getD (.dict []))

def maxQuarantines : Nat := 256

/-- When a baseline was measured: `float((baseline or {}).get("measured_at") or 0)`. -/
def measuredAt (env : GuardEnv) (baseline : Value) : Except PyError PyFloat :=
  match pyOr baseline (.dict []) with
  | .dict d => env.toFloat (pyOr (Dict.get d "measured_at") (.int 0))
  | _ => .error (.attribute "object has no attribute 'get'")

/-- `_bounded_state`: the newest baselines, and all quarantines. -/
def boundedState (env : GuardEnv) (s : GuardState) : Except PyError GuardState := do
  if maxQuarantines < s.baselines.length then
    let keyed ← s.baselines.mapM fun e => (measuredAt env e.2).map fun t => (t, e)
    let ordered := keyed.mergeSort fun a b => PyFloat.le b.1 a.1
    return { s with baselines := (ordered.take maxQuarantines).map Prod.snd }
  else return s

/-! ### Evaluation -/

/-- `max(0, int(mapping.get(key) or 0))`. -/
def countAt (d : Dict) (key : String) : Except PyError Int :=
  (pyInt (pyOr (d.get key) (.int 0))).map (max 0)

def evaluateAnomaly (env : GuardEnv) (baseline : Value) (measurement : Dict)
    (settings : GuardSettings) : Except PyError Dict :=
  if !truthy (measurement.get "ok") then
    .ok [("blocked", .bool false), ("measured", .bool false), ("error", measurement.get "error")]
  else if !truthy baseline then
    .ok [("blocked", .bool false), ("measured", .bool true), ("reason", .str "baseline_created")]
  else match baseline with
    | .dict base => do
      let oldCount ← countAt base "count"
      let oldBytes ← countAt base "bytes"
      let newCount ← countAt measurement "count"
      let newBytes ← countAt measurement "bytes"
      let minimum := max 1 (if settings.minBaselineFiles = 0 then 100 else settings.minBaselineFiles)
      if oldCount < minimum then
        return [("blocked", .bool false), ("measured", .bool true),
          ("reason", .str "baseline_too_small")]
      else
        let fileDrop := env.dropPercent oldCount newCount
        let sizeDrop := env.dropPercent oldBytes newBytes
        let limit (x : PyFloat) : PyFloat := if x.truthy then x else .dec 35 0
        let fileLimit := limit settings.fileDropPercent
        let sizeLimit := limit settings.sizeDropPercent
        let blocked := PyFloat.le fileLimit fileDrop || PyFloat.le sizeLimit sizeDrop
        return [("blocked", .bool blocked), ("measured", .bool true),
          ("previous_count", .int oldCount), ("current_count", .int newCount),
          ("previous_bytes", .int oldBytes), ("current_bytes", .int newBytes),
          ("file_drop_percent", .float (env.round2 fileDrop)),
          ("size_drop_percent", .float (env.round2 sizeDrop)),
          ("file_drop_limit", .float fileLimit), ("size_drop_limit", .float sizeLimit),
          ("reason", .str (if blocked then "unexpected_source_drop" else "within_limits"))]
    | _ => .error (.attribute "object has no attribute 'get'")

/-! ### Quarantine -/

/-- What is returned for a pair that a stored quarantine blocks. -/
def blockedBy (quarantine : Dict) : Dict :=
  ((quarantine.set "blocked" (.bool true)).set "enabled" (.bool true)).set "quarantine"
    (.dict quarantine)

/-- A stored quarantine whose recorded endpoints conflict with the given ones. -/
def endpointsConflict (fs : FileSystem) (current : Dict) (quarantine : Value) : Bool :=
  match quarantine with
  | .dict q =>
    match Dict.get q "endpoints" with
    | .dict stored => pairsConflict fs.resolver current stored
    | _ => false
  | _ => false

/-- The last loop of `active_quarantine`: records without endpoints, found through the pairs
of the configuration. -/
def configuredQuarantine (env : GuardEnv) (fs : FileSystem) (quarantines current : Dict) :
    List Value → Option Dict
  | [] => none
  | .dict configured :: rest =>
    match quarantines.get (stateKey env configured) with
    | .dict q =>
      if pairsConflict fs.resolver current (quarantineEndpoints fs configured) then
        some (blockedBy q)
      else configuredQuarantine env fs quarantines current rest
    | _ => configuredQuarantine env fs quarantines current rest
  | _ :: rest => configuredQuarantine env fs quarantines current rest

def activeQuarantine (env : GuardEnv) (fs : FileSystem) (row : RuntimeRow) (pair : Dict)
    (configuredPairs : List Value) : Option Dict :=
  if !isDestructive pair then none
  else
    let quarantines := (loadState row).quarantines
    match quarantines.get (stateKey env pair) with
    | .dict own => some (blockedBy own)
    | _ =>
      let current := quarantineEndpoints fs pair
      match quarantines.find? fun e => endpointsConflict fs current e.2 with
      | some (_, .dict q) => some (blockedBy q)
      | _ => configuredQuarantine env fs quarantines current configuredPairs

/-- `backup.get("pairs") or ()`. -/
def configuredPairs (backup : Dict) : List Value :=
  (asList (pyOr (backup.get "pairs") (.list []))).getD []

/-- The finding of one measurement, before a quarantine is added to it. -/
def measuredFinding (env : GuardEnv) (pair : Dict) (source : String) (measurement evaluated : Dict) :
    Dict :=
  Dict.merge evaluated
    [("enabled", .bool true), ("pair", .str (pair.textOr "name" "")),
     ("history_key", .str (rcloneHistoryKey env pair)), ("source", .str source),
     ("measurement", .dict measurement)]

/-- The record that is stored for a blocked finding. -/
def newQuarantine (fs : FileSystem) (pair finding : Dict) (now : PyFloat) : Dict :=
  Dict.merge (finding.filter fun e => e.1 ≠ "source" && e.1 ≠ "measurement")
    [("detected_at", .float now), ("acknowledged", .bool false),
     ("endpoints", .dict (quarantineEndpoints fs pair))]

/-- One preflight: its finding, and the row after its transaction. -/
structure GuardResult where
  finding : Dict
  row : RuntimeRow
  deriving DecidableEq, Repr

def GuardResult.blocked (r : GuardResult) : Bool := truthy (r.finding.get "blocked")

/-- The transaction of a preflight: the finding and the value to write. -/
def preflightUpdate (env : GuardEnv) (fs : FileSystem) (settings : GuardSettings) (pair : Dict)
    (source : String) (measurement : Dict) (now : PyFloat) (raw : Value) :
    Except PyError (Dict × Value) :=
  let key := stateKey env pair
  let state := normalizeState raw
  match state.quarantines.get key with
  | .dict existing => .ok (blockedBy existing, state.toValue)
  | _ => do
    let evaluated ← evaluateAnomaly env (state.baselines.get key) measurement settings
    let finding := measuredFinding env pair source measurement evaluated
    if truthy (finding.get "blocked") then
      let quarantine := newQuarantine fs pair finding now
      let state' ← boundedState env
        { state with quarantines := state.quarantines.set key (.dict quarantine) }
      return (finding.set "quarantine" (.dict quarantine), state'.toValue)
    else
      let state' ← boundedState env state
      return (finding, state'.toValue)

/-- `preflight_anomaly_guard`.  `seen` is the row read before the measurement and `row` the one
the transaction finds. -/
def preflightAnomalyGuard (env : GuardEnv) (fs : FileSystem) (seen row : RuntimeRow)
    (pair backup : Dict) (source : String) (measurement : Dict) (now : PyFloat) :
    Except PyError GuardResult :=
  match activeQuarantine env fs seen pair (configuredPairs backup) with
  | some existing => .ok ⟨existing, row⟩
  | none => do
    let settings ← guardSettings env backup pair
    if !settings.enabled || !isDestructive pair then
      return ⟨[("blocked", .bool false), ("enabled", .bool false)], row⟩
    else match (loadState seen).quarantines.get (stateKey env pair) with
      | .dict existing => return ⟨blockedBy existing, row⟩
      | _ =>
        let (finding, value) ←
          preflightUpdate env fs settings pair source measurement now (row.getD (.dict []))
        let value ← runtimeUpdate row (.dict []) fun _ => .ok value
        return ⟨finding, some value⟩

def recordAnomalyBaseline (env : GuardEnv) (row : RuntimeRow) (pair : Dict) (measurement : Value)
    (now : PyFloat) : Except PyError RuntimeRow :=
  match measurement with
  | .dict m =>
    if !truthy measurement || !truthy (Dict.get m "ok") then .ok row
    else do
      let count ← pyInt (pyOr (Dict.get m "count") (.int 0))
      let bytes ← pyInt (pyOr (Dict.get m "bytes") (.int 0))
      let measuredAt ← env.toFloat (pyOr (Dict.get m "measured_at") (.float now))
      let baseline : Value := .dict
        [("pair", .str (pair.textOr "name" "")), ("history_key", .str (rcloneHistoryKey env pair)),
         ("count", .int count), ("bytes", .int bytes), ("measured_at", .float measuredAt)]
      let value ← runtimeUpdate row (.dict []) fun raw =>
        let state := normalizeState raw
        (boundedState env
          { state with baselines := state.baselines.set (stateKey env pair) baseline }).map
            GuardState.toValue
      return some value
  | v => if truthy v then .error (.attribute "object has no attribute 'get'") else .ok row

/-- The entries an acknowledgement of a pair releases. -/
def releases (env : GuardEnv) (fs : FileSystem) (pair : Dict) (e : String × Value) : Bool :=
  e.1 = stateKey env pair || endpointsConflict fs (quarantineEndpoints fs pair) e.2

/-- `acknowledge_quarantine`: whether anything was released, and the row afterwards. -/
def acknowledgeQuarantine (env : GuardEnv) (fs : FileSystem) (row : RuntimeRow) (pair : Dict) :
    Except PyError (Bool × RuntimeRow) := do
  let state := loadState row
  let value ← runtimeUpdate row (.dict []) fun raw =>
    let state := normalizeState raw
    (boundedState env
      { state with quarantines := state.quarantines.filter fun e => !releases env fs pair e }).map
        GuardState.toValue
  return (state.quarantines.any (releases env fs pair), some value)

end RcloneSync
