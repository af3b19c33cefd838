/-
RcloneSync/DrillEvidence.lean

What a restore drill proves about a pair (`evaluate_restore_evidence`), read from the
attempts that are stored (`pair_last_history`), and what the clean-up of the job tables does
to it.

The newest attempt decides: it has to have succeeded, for the endpoints the pair has now, not
too long ago, and with a complete sample.  An older success behind a failed attempt proves
nothing.  But attempts are deleted with their jobs, and `jobs_delete_failed` deletes the
failed ones; then the older success is the newest attempt again.

The digest and the arithmetic of floats are parameters (`EvidenceEnv`); points in time that
the tables hold are whole microseconds.
-/
import RcloneSync.BaselineState
import RcloneSync.JsonSize

namespace RcloneSync

open Py Runs

/-! ### What a pair's evidence is bound to -/

/-- What the evaluation takes from outside. -/
structure EvidenceEnv where
  /-- `hashlib.sha256(text.encode()).hexdigest()` -/
  sha256hex : String → String
  /-- `float(value)` -/
  toFloat : Value → Except PyError PyFloat
  /-- `a + b` -/
  add : PyFloat → PyFloat → PyFloat

/-- `json.dumps(value, separators=(",", ":"))`. -/
def bindingJson : JsonStyle := ⟨true, ",", ":", false⟩

/-- Source, target and direction of a pair, in the order in which they are digested. -/
def bindingParts (pair : Dict) : List Value :=
  let direction := lower (strip (pair.textOr "direction" "bisync"))
  let loc := endpointIdentity pair "local"
  let remote := endpointIdentity pair "remote"
  if direction = "push" then [.str loc, .str remote, .str direction]
  else [.str remote, .str loc, .str direction]

/-- The digest in `pair_binding`. -/
def bindingFingerprint (env : EvidenceEnv) (pair : Dict) : String :=
  env.sha256hex (jsonDumps bindingJson (.list (bindingParts pair)))

/-- `pair_binding`. -/
def pairBinding (env : EvidenceEnv) (pair : Dict) : Dict :=
  [("pair_id", .str (strip (pair.textOr "id" ""))),
   ("fingerprint", .str (bindingFingerprint env pair))]

/-- `restore_history_key`. -/
def restoreHistoryKey (env : EvidenceEnv) (pair : Dict) : String :=
  if strip (pair.textOr "id" "") ≠ "" then "restore:id:" ++ strip (pair.textOr "id" "")
  else "restore:fingerprint:" ++ bindingFingerprint env pair

/-! ### The last attempt and the last success -/

/-- What `pair_last_history` finds for one identity. -/
structure LastRuns where
  lastResult : Option PairRun
  lastSuccess : Option PairRun

/-- An attempt that was recorded for the name before its pair had a key of its own. -/
def legacyRun (name : String) (r : PairRun) : Bool :=
  r.pairName = name && (r.historyKey = "" || r.historyKey = defaultHistoryKey "" name)

/-- `pair_last_history` for one identity. -/
def pairLastHistory (historyKey pairName : String) (rows : List PairRun) : LastRuns :=
  let key := strip historyKey
  let name := strip pairName
  if key = "" ∨ name = "" then ⟨none, none⟩
  else
    match lastRun (fun r => r.historyKey = key) rows with
    | some last => ⟨some last, lastRun (fun r => r.historyKey = key && r.succeeded) rows⟩
    | none => ⟨lastRun (legacyRun name) rows,
        lastRun (fun r => legacyRun name r && r.succeeded) rows⟩

/-- The history that a pair's drills have left (`_history_evidence_by_identity`): older
versions recorded them under the pair's name. -/
def drillHistory (env : EvidenceEnv) (pair : Dict) (rows : List PairRun) : LastRuns :=
  let name := strippedText pair "name"
  let own := pairLastHistory (restoreHistoryKey env pair) name rows
  if own.lastResult = none ∧ own.lastSuccess = none then
    pairLastHistory ("restore:" ++ name) name rows
  else own

/-- `history.get("last_result") or history.get("last_success") or {}`. -/
def LastRuns.attempt (history : LastRuns) : Option PairRun :=
  history.lastResult.orElse fun _ => history.lastSuccess

/-- The recorded result of an attempt, `attempt.get("pair") or {}`, on which `get` is called
without looking at its type. -/
def PairRun.result (r : PairRun) : Except PyError Dict :=
  match jsonLoads (if r.resultJson = "" then "\x7b\x7d" else r.resultJson) with
  | some (.dict result) => .ok result
  | some v => if truthy v then .error (.attribute "object has no attribute 'get'") else .ok []
  | none => .ok []

/-- `attempt["ended_at"]`. -/
def PairRun.shownEnd (r : PairRun) : Time := timeOr r.endedAt r.startedAt

/-! ### The evaluation -/

/-- The answers of `evaluate_restore_evidence`. -/
inductive DrillState
  | never | failed | stale | incomplete | passed
  deriving DecidableEq, Repr

def DrillState.text : DrillState → String
  | .never => "never"
  | .failed => "failed"
  | .stale => "stale"
  | .incomplete => "partial"
  | .passed => "passed"

def maxEvidenceAgeSec : Int := 7 * 24 * 3600

/-- `math.isfinite`. -/
def isFinite : PyFloat → Bool
  | .dec _ _ => true
  | _ => false

/-- `float(checked_at)` where the recorded time is a finite number. -/
def checkedTime (env : EvidenceEnv) (checkedAt : Value) : Except PyError (Option PyFloat) :=
  match checkedAt with
  | .bool _ | .int _ | .float _ => do
    let x ← env.toFloat checkedAt
    .ok (if isFinite x then some x else none)
  | _ => .ok none

/-- `int(result.get(key) or 0)`. -/
def countOf (result : Dict) (key : String) : Except PyError Int :=
  pyInt (pyOr (Dict.get result key) (.int 0))

/-- The recorded sample is complete. -/
def completeSample (result : Dict) : Except PyError Bool :=
  if pyEq (Dict.get result "sample_status") (.str "complete") = false then .ok false
  else do
    let verified ← countOf result "verified"
    if verified ≤ 0 then .ok false
    else do
      let sampled ← countOf result "sample_size"
      .ok (verified = sampled)

/-- The state and the reason why it is not better, from the newest attempt and its result. -/
def evidenceState (env : EvidenceEnv) (pair : Dict) (attempt : Option PairRun) (result : Dict)
    (isPartial : Bool) (checked : Option PyFloat) (now : PyFloat) :
    Except PyError (DrillState × Option String) :=
  match attempt with
  | none => .ok (.never, none)
  | some r =>
    if r.ok = false ∧ isPartial = false then .ok (.failed, some "latest_attempt_failed")
    else if pyEq (Dict.get result "evidence_binding") (.dict (pairBinding env pair)) = false then
      .ok (.stale, some (if truthy (Dict.get result "evidence_binding") then
        "configuration_changed" else "unbound"))
    else
      match checked with
      | none => .ok (.stale, some "invalid_timestamp")
      | some checkedAt =>
        if checkedAt.le (env.add now (.dec 60 0)) = false then
          .ok (.stale, some "invalid_timestamp")
        else if (env.add checkedAt (.dec maxEvidenceAgeSec 0)).le now then
          .ok (.stale, some "expired")
        else if isPartial || truthy (Dict.get result "truncated") then
          .ok (.incomplete, some "incomplete_sample")
        else do
          if ← completeSample result then .ok (.passed, none)
          else .ok (.stale, some "incomplete_sample")

/-- `partial_restore_warning`. -/
def partialRestoreWarning (result : Dict) : String :=
  let reason :=
    match Dict.textOr result "sample_shortfall_reason" "" with
    | "byte_budget" => "Das Datenlimit begrenzt den Prüfumfang."
    | "insufficient_eligible_files" => "Es waren weniger geeignete Dateien verfügbar."
    | "listing_truncated" => "Das Scanlimit begrenzt den Prüfumfang."
    | _ => "Der Prüfumfang ist begrenzt."
  pyStr (Dict.get result "verified") ++ " von " ++ pyStr (Dict.get result "requested_sample_size")
    ++ " angeforderten Dateien erfolgreich geprüft. " ++ reason
    ++ " Die angeforderte Stichprobe ist noch nicht vollständig geprüft."

/-- What `evaluate_restore_evidence` returns. -/
structure DrillEvidence where
  state : DrillState
  valid : Bool
  binding : Value
  validUntil : Option PyFloat
  invalidReason : Option String
  lastAttemptAt : Option Time
  lastSuccessAt : Option Time
  jobId : Option Nat
  verifiedFiles : Value
  sampleSize : Value
  requestedSampleSize : Value
  budgetBytes : Value
  sampleShortfallReason : Value
  lastSuccessVerifiedFiles : Value
  lastSuccessSampleSize : Value
  checksumVerified : Bool
  sampleChecksumVerified : Bool
  coverageComplete : Bool
  warning : Option String
  error : Value
  durationSec : Option Time

/-- `attempt.get("pair") or {}`, where there may be no attempt. -/
def resultOf (attempt : Option PairRun) : Except PyError Dict :=
  match attempt with
  | none => .ok []
  | some r => r.result

/-- `evaluate_restore_evidence`. -/
def evaluateRestoreEvidence (env : EvidenceEnv) (pair : Dict) (history : LastRuns)
    (now : PyFloat) : Except PyError DrillEvidence := do
  let attempt := history.attempt
  let success := history.lastSuccess
  let result ← resultOf attempt
  let proof ← resultOf success
  let checked ← checkedTime env (Dict.get result "evidence_checked_at")
  let isPartial ← isVerifiedPartial result
  let found ← evidenceState env pair attempt result isPartial checked now
  let state := found.1
  .ok {
    state
    valid := state = .passed
    binding := Dict.get result "evidence_binding"
    validUntil := checked.map fun x => env.add x (.dec maxEvidenceAgeSec 0)
    invalidReason := found.2
    lastAttemptAt := attempt.map PairRun.shownEnd
    lastSuccessAt := success.map PairRun.shownEnd
    jobId := attempt.map PairRun.jobId
    verifiedFiles := Dict.get result "verified"
    sampleSize := Dict.get result "sample_size"
    requestedSampleSize := Dict.get result "requested_sample_size"
    budgetBytes := Dict.get result "budget_bytes"
    sampleShortfallReason := Dict.get result "sample_shortfall_reason"
    lastSuccessVerifiedFiles := Dict.get proof "verified"
    lastSuccessSampleSize := Dict.get proof "sample_size"
    checksumVerified := state = .passed
    sampleChecksumVerified := state = .passed ∨ state = .incomplete
    coverageComplete := state = .passed
    warning :=
      if state = .incomplete then
        some (if truthy (Dict.get result "truncated") then
          "Das Scanlimit begrenzt die Stichprobe; der vollständige Bestand wurde nicht erfasst."
        else partialRestoreWarning result)
      else none
    error := if state = .failed then Dict.get result "error" else .none
    durationSec := attempt.bind fun r =>
      if r.shownEnd ≠ 0 ∧ r.startedAt ≠ 0 then some (max 0 (r.shownEnd - r.startedAt)) else none }

/-- The evidence of a pair at a point in time, from the stored attempts. -/
def pairEvidence (env : EvidenceEnv) (pair : Dict) (now : PyFloat) (s : JobStore) :
    Except PyError DrillEvidence :=
  evaluateRestoreEvidence env pair (drillHistory env pair s.pairRuns) now

/-! ### Cleaning up the job tables -/

/-- The operations that delete jobs. -/
inductive Cleanup
  | deleteFailed
  | prune (olderThanDays keepLatest : Int) (now : Time)

def Cleanup.run : Cleanup → JobStore → JobStore
  | .deleteFailed, s => committed (jobsDeleteFailed s) s
  | .prune olderThanDays keepLatest now, s => (jobsPrune olderThanDays keepLatest now s).2

def cleanupStep (s : JobStore) (op : Cleanup) (t : JobStore) : Prop := t = op.run s

/-- `status IN ('error', 'stale', 'cancelled')`. -/
def Job.hasFailed (j : Job) : Bool :=
  j.status = .error || j.status = .stale || j.status = .cancelled

/-- The rows that an operation selects. -/
def Cleanup.selects (s : JobStore) : Cleanup → Job → Bool
  | .deleteFailed, j =>
    match (s.jobs.filter Job.hasFailed).filterM historicalRestoreWarning with
    | .ok warned => j.hasFailed && !(warned.map Job.id).contains j.id
    | .error _ => false
  | .prune olderThanDays keepLatest now, j =>
    j.status ≠ .running && decide (j.startedAt < now - max 1 olderThanDays * 86400 * 1000000) &&
      !(latestJobs (max 0 keepLatest).toNat s.jobs).contains j.id

/-- The operation deletes the job of this number. -/
def Cleanup.deletes (s : JobStore) (op : Cleanup) (jobId : Nat) : Bool :=
  ((s.jobs.filter (op.selects s)).map Job.id).contains jobId

theorem deleteJobs_none (s : JobStore) : deleteJobs (fun _ => false) s = s := by
  simp [deleteJobs]

/-- An operation deletes the jobs it selects, or none where it raises. -/
theorem Cleanup.run_eq (op : Cleanup) (s : JobStore) : op.run s = deleteJobs (op.selects s) s := by
  cases op with
  | prune olderThanDays keepLatest now => rfl
  | deleteFailed =>
    show committed (jobsDeleteFailed s) s = _
    have hselects : Cleanup.selects s .deleteFailed = fun j =>
        match (s.jobs.filter Job.hasFailed).filterM historicalRestoreWarning with
        | .ok warned => j.hasFailed && !(warned.map Job.id).contains j.id
        | .error _ => false := rfl
    have hrun : jobsDeleteFailed s =
        ((s.jobs.filter Job.hasFailed).filterM historicalRestoreWarning >>= fun warned =>
          .ok ((s.jobs.filter fun j => j.hasFailed && !(warned.map Job.id).contains j.id).length,
            deleteJobs (fun j => j.hasFailed && !(warned.map Job.id).contains j.id) s)) := rfl
    rw [hrun, hselects]
    cases (s.jobs.filter Job.hasFailed).filterM historicalRestoreWarning with
    | ok warned => rfl
    | error e => exact (deleteJobs_none s).symm

/-- The attempts of the deleted jobs go, the others stay. -/
theorem Cleanup.run_pairRuns (op : Cleanup) (s : JobStore) :
    (op.run s).pairRuns = s.pairRuns.filter fun r => !op.deletes s r.jobId := by
  rw [op.run_eq]
  rfl

theorem lastRun_eq_newest (p : PairRun → Bool) (rows : List PairRun) :
    lastRun p rows = Tables.newest PairRun.seenAt (rows.filter p) := by
  unfold lastRun Tables.newest
  congr 1
  funext best r
  cases best with
  | none => rfl
  | some b => rfl

theorem lastRun_eq_none {p : PairRun → Bool} {rows : List PairRun} :
    lastRun p rows = none ↔ ∀ r ∈ rows, p r = false := by
  rw [lastRun_eq_newest, Tables.newest_eq_none_iff, List.filter_eq_nil_iff]
  simp

/-- No attempt that counts ended later than the last one. -/
theorem lastRun_newest {p : PairRun → Bool} {rows : List PairRun} {r : PairRun}
    (h : lastRun p rows = some r) : ∀ x ∈ rows, p x = true → x.seenAt ≤ r.seenAt := by
  intro x hx hp
  rw [lastRun_eq_newest] at h
  obtain ⟨before, after, hrows, hbefore, hafter⟩ := Tables.newest_eq_some_iff.mp h
  have hmem : x ∈ before ++ r :: after := hrows ▸ List.mem_filter.mpr ⟨hx, hp⟩
  rcases List.mem_append.mp hmem with hmem | hmem
  · exact hbefore x hmem
  · rcases List.mem_cons.mp hmem with rfl | hmem
    · exact le_rfl
    · exact (hafter x hmem).le

/-- A deletion that spares the last attempt leaves it the last. -/
theorem lastRun_filter {p q : PairRun → Bool} {rows : List PairRun} {r : PairRun}
    (h : lastRun p rows = some r) (hq : q r = true) : lastRun p (rows.filter q) = some r := by
  rw [lastRun_eq_newest] at h ⊢
  rw [List.filter_comm]
  exact Tables.newest_filter h hq

theorem lastRun_filter_none {p q : PairRun → Bool} {rows : List PairRun}
    (h : lastRun p rows = none) : lastRun p (rows.filter q) = none :=
  lastRun_eq_none.mpr fun r hr => lastRun_eq_none.mp h r (List.mem_filter.mp hr).1

/-- Where there is no last attempt there is no success either. -/
theorem lastSuccess_of_none {p : PairRun → Bool} {rows : List PairRun} (h : lastRun p rows = none) :
    lastRun (fun r => p r && r.succeeded) rows = none :=
  lastRun_eq_none.mpr fun r hr => by simp [lastRun_eq_none.mp h r hr]

/-- The attempts that a lookup reads: those under the key, and those under the name. -/
def readsRun (historyKey pairName : String) (r : PairRun) : Bool :=
  r.historyKey = strip historyKey || legacyRun (strip pairName) r

theorem pairLastHistory_cases (historyKey pairName : String) (rows : List PairRun) :
    ((pairLastHistory historyKey pairName rows).lastResult = none ∧
      (pairLastHistory historyKey pairName rows).lastSuccess = none) ∨
    ∃ r, (pairLastHistory historyKey pairName rows).lastResult = some r ∧ r ∈ rows ∧
      readsRun historyKey pairName r = true := by
  unfold pairLastHistory
  by_cases hblank : strip historyKey = "" ∨ strip pairName = ""
  · simp [hblank]
  · simp only [hblank, if_false]
    cases hlast : lastRun (fun r => r.historyKey = strip historyKey) rows with
    | some r =>
      obtain ⟨hr, hkey⟩ := lastRun_spec hlast
      exact Or.inr ⟨r, rfl, hr, by simp [readsRun, of_decide_eq_true hkey]⟩
    | none =>
      cases hlegacy : lastRun (legacyRun (strip pairName)) rows with
      | some r =>
        obtain ⟨hr, hname⟩ := lastRun_spec hlegacy
        exact Or.inr ⟨r, rfl, hr, by simp [readsRun, hname]⟩
      | none => exact Or.inl ⟨rfl, lastSuccess_of_none hlegacy⟩

/-- A deletion that spares the last attempt of an identity leaves it the last one there. -/
theorem pairLastHistory_filter {historyKey pairName : String} {rows : List PairRun}
    {q : PairRun → Bool}
    (hq : ∀ r, (pairLastHistory historyKey pairName rows).lastResult = some r → q r = true) :
    (pairLastHistory historyKey pairName (rows.filter q)).lastResult
      = (pairLastHistory historyKey pairName rows).lastResult := by
  unfold pairLastHistory at hq ⊢
  by_cases hblank : strip historyKey = "" ∨ strip pairName = ""
  · simp [hblank]
  · simp only [hblank, if_false] at hq ⊢
    cases hlast : lastRun (fun r => r.historyKey = strip historyKey) rows with
    | some r =>
      rw [hlast] at hq
      rw [lastRun_filter hlast (hq r rfl)]
    | none =>
      rw [hlast] at hq
      rw [lastRun_filter_none hlast]
      show lastRun (legacyRun (strip pairName)) (rows.filter q)
        = lastRun (legacyRun (strip pairName)) rows
      cases hlegacy : lastRun (legacyRun (strip pairName)) rows with
      | some r => exact lastRun_filter hlegacy (hq r hlegacy)
      | none => exact lastRun_filter_none hlegacy

/-! ### Evidence after a clean-up -/

section Cleanup

variable {env : EvidenceEnv} {pair : Dict}

/-- The newest attempt of a pair's drills. -/
def newestDrill (env : EvidenceEnv) (pair : Dict) (s : JobStore) : Option PairRun :=
  (drillHistory env pair s.pairRuns).attempt

/-- The attempts that count as drills of a pair. -/
def isDrillOf (env : EvidenceEnv) (pair : Dict) (r : PairRun) : Bool :=
  readsRun (restoreHistoryKey env pair) (strippedText pair "name") r ||
    readsRun ("restore:" ++ strippedText pair "name") (strippedText pair "name") r

/-- The operation spares the pair's newest drill, or takes every successful one with it. -/
def Cleanup.Spares (env : EvidenceEnv) (pair : Dict) (s : JobStore) (op : Cleanup) : Prop :=
  ∀ r, newestDrill env pair s = some r → op.deletes s r.jobId = true →
    ∀ x ∈ s.pairRuns, isDrillOf env pair x = true → x.ok = true → op.deletes s x.jobId = true

theorem drillHistory_cases (env : EvidenceEnv) (pair : Dict) (rows : List PairRun) :
    (drillHistory env pair rows).attempt = (drillHistory env pair rows).lastResult ∧
    ∀ r, (drillHistory env pair rows).lastResult = some r →
      r ∈ rows ∧ isDrillOf env pair r = true := by
  have hattempt : ∀ historyKey pairName, 
      (pairLastHistory historyKey pairName rows).attempt
        = (pairLastHistory historyKey pairName rows).lastResult ∧
      ∀ r, (pairLastHistory historyKey pairName rows).lastResult = some r →
        r ∈ rows ∧ readsRun historyKey pairName r = true := by
    intro historyKey pairName
    rcases pairLastHistory_cases historyKey pairName rows with ⟨hlast, hsuccess⟩ | ⟨r, hlast, hr⟩
    · simp [LastRuns.attempt, hlast, hsuccess]
    · refine ⟨by simp [LastRuns.attempt, hlast], fun x hx => ?_⟩
      rw [hlast] at hx
      obtain rfl := Option.some.inj hx
      exact hr
  unfold drillHistory
  dsimp only
  split_ifs
  · obtain ⟨h, hrows⟩ := hattempt ("restore:" ++ strippedText pair "name")
      (strippedText pair "name")
    refine ⟨h, fun r hr => ⟨(hrows r hr).1, ?_⟩⟩
    rw [isDrillOf, (hrows r hr).2, Bool.or_true]
  · obtain ⟨h, hrows⟩ := hattempt (restoreHistoryKey env pair) (strippedText pair "name")
    refine ⟨h, fun r hr => ⟨(hrows r hr).1, ?_⟩⟩
    rw [isDrillOf, (hrows r hr).2, Bool.true_or]

/-- A deletion that spares the newest drill leaves it the newest. -/
theorem drillHistory_filter {rows : List PairRun} {q : PairRun → Bool}
    (hq : ∀ r, (drillHistory env pair rows).lastResult = some r → q r = true) :
    (drillHistory env pair (rows.filter q)).lastResult
      = (drillHistory env pair rows).lastResult := by
  have hnone : ∀ rows : List PairRun,
      ((pairLastHistory (restoreHistoryKey env pair) (strippedText pair "name") rows).lastResult
          = none ∧
        (pairLastHistory (restoreHistoryKey env pair) (strippedText pair "name") rows).lastSuccess
          = none) ↔
      (pairLastHistory (restoreHistoryKey env pair) (strippedText pair "name") rows).lastResult
        = none := by
    intro rows
    rcases pairLastHistory_cases (restoreHistoryKey env pair) (strippedText pair "name") rows with
      h | ⟨r, hlast, _⟩
    · simp [h]
    · simp [hlast]
  unfold drillHistory at hq ⊢
  dsimp only at hq ⊢
  simp only [hnone] at hq ⊢
  by_cases hown : (pairLastHistory (restoreHistoryKey env pair) (strippedText pair "name")
      rows).lastResult = none
  · rw [if_pos hown] at hq
    have hstays : (pairLastHistory (restoreHistoryKey env pair) (strippedText pair "name")
        (rows.filter q)).lastResult = none := by
      rw [pairLastHistory_filter fun r hr => absurd (hown.symm.trans hr)
        (Option.some_ne_none r).symm]
      exact hown
    rw [if_pos hown, if_pos hstays]
    exact pairLastHistory_filter hq
  · rw [if_neg hown] at hq
    have hstays := pairLastHistory_filter hq
    rw [if_neg hown, if_neg (by rw [hstays]; exact hown)]
    exact hstays

/-- The newest attempt alone makes the evidence valid. -/
def AttemptPasses (env : EvidenceEnv) (pair : Dict) (now : PyFloat) (attempt : Option PairRun) :
    Prop :=
  ∃ result checked isPartial reason, resultOf attempt = .ok result ∧
    checkedTime env (Dict.get result "evidence_checked_at") = .ok checked ∧
    isVerifiedPartial result = .ok isPartial ∧
    evidenceState env pair attempt result isPartial checked now = .ok (.passed, reason)

/-- What an evaluation says about validity it takes from the newest attempt. -/
theorem valid_iff {now : PyFloat} {s : JobStore} {v : DrillEvidence}
    (h : pairEvidence env pair now s = .ok v) :
    v.valid = true ↔ AttemptPasses env pair now (newestDrill env pair s) := by
  unfold pairEvidence evaluateRestoreEvidence at h
  simp only [bind_ok] at h
  obtain ⟨result, hresult, _, _, checked, hchecked, isPartial, hsample, found, hfound, h⟩ := h
  obtain rfl := Except.ok.inj h
  show decide (found.1 = .passed) = true ↔ _
  rw [decide_eq_true_iff]
  constructor
  · intro hpassed
    exact ⟨result, checked, isPartial, found.2, hresult, hchecked, hsample, by
      rw [← hpassed]
      exact hfound⟩
  · rintro ⟨result', checked', isPartial', reason, hresult', hchecked', hsample', hfound'⟩
    obtain rfl := Except.ok.inj (hresult.symm.trans hresult')
    obtain rfl := Except.ok.inj (hchecked.symm.trans hchecked')
    obtain rfl := Except.ok.inj (hsample.symm.trans hsample')
    rw [Except.ok.inj (hfound.symm.trans hfound')]

/-- Only an attempt that was recorded as a success passes. -/
theorem AttemptPasses.ok {now : PyFloat} {attempt : Option PairRun}
    (h : AttemptPasses env pair now attempt) : ∃ r, attempt = some r ∧ r.ok = true := by
  obtain ⟨result, checked, isPartial, reason, _, _, _, hstate⟩ := h
  cases attempt with
  | none => cases hstate
  | some r =>
    refine ⟨r, rfl, ?_⟩
    by_contra hok
    have hok : r.ok = false := by simpa using hok
    unfold evidenceState at hstate
    cases isPartial with
    | false => simp [hok] at hstate
    | true =>
      -- a partial sample is at best incomplete
      simp only [Bool.true_eq_false, and_false, if_false, Bool.true_or, if_true] at hstate
      by_cases hbound : pyEq (Dict.get result "evidence_binding")
          (.dict (pairBinding env pair)) = false
      · rw [if_pos hbound] at hstate
        cases hstate
      · rw [if_neg hbound] at hstate
        cases checked with
        | none => cases hstate
        | some x =>
          dsimp only at hstate
          split_ifs at hstate <;> cases hstate

/-- One clean step: what the newest attempt does not prove, it does not prove afterwards. -/
theorem spares_step {now : PyFloat} {s t : JobStore} {op : Cleanup}
    (hspares : op.Spares env pair s) (hstep : cleanupStep s op t)
    (hs : ¬ AttemptPasses env pair now (newestDrill env pair s)) :
    ¬ AttemptPasses env pair now (newestDrill env pair t) := by
  obtain rfl := hstep
  intro hpasses
  obtain ⟨r, hr, hok⟩ := hpasses.ok
  have hrows := op.run_pairRuns s
  obtain ⟨hattempt, hdrills⟩ := drillHistory_cases env pair (op.run s).pairRuns
  obtain ⟨hmem, hdrill⟩ := hdrills r (hattempt ▸ hr)
  rw [hrows] at hmem
  obtain ⟨hbefore, hkept⟩ := List.mem_filter.mp hmem
  have hkept : op.deletes s r.jobId = false := by simpa using hkept
  have hsame : newestDrill env pair (op.run s) = newestDrill env pair s := by
    unfold newestDrill
    rw [hattempt, (drillHistory_cases env pair s.pairRuns).1, hrows]
    refine drillHistory_filter fun x hx => ?_
    -- had the newest one been deleted, this success would have gone with it
    by_contra hgone
    have hgone : op.deletes s x.jobId = true := by simpa using hgone
    have hnewest : newestDrill env pair s = some x := by
      rw [newestDrill, (drillHistory_cases env pair s.pairRuns).1, hx]
    have hdeleted := hspares x hnewest hgone r hbefore hdrill hok
    rw [hkept] at hdeleted
    cases hdeleted
  exact hs (hsame ▸ hpasses)

/-- **Evidence that is not valid stays so**, while no clean-up deletes the newest drill of the
pair and leaves an older successful one. -/
theorem invalid_evidence_stays {s t : JobStore} {ops : List Cleanup} {now : PyFloat}
    {v : DrillEvidence}
    (hrun : Run (Restrict cleanupStep fun s op => op.Spares env pair s) s ops t)
    (hv : pairEvidence env pair now s = .ok v) (hinvalid : v.valid = false) :
    ∀ w, pairEvidence env pair now t = .ok w → w.valid = false := by
  have hs : ¬ AttemptPasses env pair now (newestDrill env pair s) := by
    rw [← valid_iff hv, hinvalid]
    exact Bool.false_ne_true
  have ht : ¬ AttemptPasses env pair now (newestDrill env pair t) :=
    hrun.preserves (fun s => ¬ AttemptPasses env pair now (newestDrill env pair s))
      (fun s op t hs hstep => spares_step hstep.2 hstep.1 hs) hs
  intro w hw
  rw [← valid_iff hw] at ht
  simpa using ht

end Cleanup

/-! ### Two drills of a pair -/

/-- The pair of the drills. -/
def drilledPair : Dict :=
  [("id", .str "1"), ("name", .str "Photos"), ("local", .str "/data/photos"),
   ("remote", .str "remote:photos"), ("direction", .str "bisync")]

/-- Numbers are what they show, and sums are exact, as they are for whole seconds; the digest
is the one of the pair. -/
def drillEnv : EvidenceEnv where
  sha256hex := fun _ => "47d70fe3312652c639e262bebecfa269a26c0c9ba0e3047ce60236bd2066069a"
  toFloat := fun v =>
    match v with
    | .float x => .ok x
    | .int n => .ok (.dec n 0)
    | .bool b => .ok (.dec (if b then 1 else 0) 0)
    | _ => .error (.type "float() argument must be a string or a real number")
  add := fun x y =>
    match x, y with
    | .dec m k, .dec n l => .dec (m * 10 ^ l + n * 10 ^ k) (k + l)
    | _, _ => .nan

/-- A drill with one result for the pair. -/
def drillOf (id : Nat) (status : JobStatus) (result : Dict) (now : Time) : List StoreAction :=
  [.start { namedRequest "" with kind := "restoretest", attempts := [] } now,
   .finish { namedJob id now with kind := "restoretest" } status
    (some [("kind", .str "restoretest"), ("pairs", .list [.dict
      ([("name", .str "Photos"), ("history_key", .str "restore:id:1"),
        ("evidence_binding", .dict (pairBinding drillEnv drilledPair))] ++ result)])])
    (now + 60000000)]

/-- All five files were fetched and are the same. -/
def fullSample : Dict :=
  [("ok", .bool true), ("sample_status", .str "complete"), ("verified", .int 5),
   ("sample_size", .int 5), ("requested_sample_size", .int 5),
   ("evidence_checked_at", .int 1000060)]

/-- The fetched files differ from the source. -/
def mismatch : Dict :=
  [("ok", .bool false), ("sample_status", .str "verification_failed"),
   ("error", .str "Prüfsummen weichen ab"), ("sample_size", .int 5),
   ("requested_sample_size", .int 5), ("evidence_checked_at", .int 1086460)]

/-- A drill passes, the next one finds files that differ. -/
def drilledTwice : JobStore :=
  (JobStore.empty.after (drillOf 1 .ok fullSample 1000000000000)).after
    (drillOf 2 .error mismatch 1086400000000)

/-- The result of a drill as it is stored with its job. -/
def storedResult (result : Dict) : Dict :=
  [("name", .str "Photos"), ("history_key", .str "restore:id:1"),
    ("evidence_binding", .dict (pairBinding drillEnv drilledPair))] ++ result

/-- The row of the pair in a drill that ended. -/
def drillRow (id : Nat) (ok : Bool) (status : JobStatus) (result : Dict) (now : Time) : PairRun where
  jobId := id
  pairName := "Photos"
  historyKey := "restore:id:1"
  ok := ok
  dryRun := false
  status := status
  startedAt := now
  endedAt := some (now + 60000000)
  scheduledSlot := none
  resultJson := jsonDumpsBounded (.dict (storedResult result)) maxPairResultBytes

/-- A stored text that fits is read as what it was written from. -/
theorem PairRun.result_of_bounded {r : PairRun} {result : Dict}
    (hr : r.resultJson = jsonDumpsBounded (.dict result) maxPairResultBytes)
    (hwf : (Value.dict result).wellFormed = true)
    (hfits : encodedSize (.dict result) ≤ maxPairResultBytes) : r.result = .ok result := by
  have hread : jsonLoads r.resultJson = some (.dict result) := by
    rw [hr]
    exact jsonLoads_bounded_fits hwf hfits
  have hne : r.resultJson ≠ "" := by
    intro hempty
    have hnone : jsonLoads "" = none := by decide
    rw [hempty, hnone] at hread
    cases hread
  unfold PairRun.result
  rw [if_neg hne, hread]

theorem result_drillRow (id : Nat) (ok : Bool) (status : JobStatus) (now : Time) {result : Dict}
    (hwf : (Value.dict (storedResult result)).wellFormed = true)
    (hfits : encodedSize (.dict (storedResult result)) ≤ maxPairResultBytes) :
    (drillRow id ok status result now).result = .ok (storedResult result) :=
  PairRun.result_of_bounded rfl hwf hfits

theorem result_fullSample (now : Time) :
    (drillRow 1 true .ok fullSample now).result = .ok (storedResult fullSample) := by
  apply result_drillRow
  · decide +kernel
  · exact (encodedSize_le_sizeBound _).trans (by decide +kernel)

theorem result_mismatch (now : Time) :
    (drillRow 2 false .error mismatch now).result = .ok (storedResult mismatch) := by
  apply result_drillRow
  · decide +kernel
  · exact (encodedSize_le_sizeBound _).trans (by decide +kernel)

set_option maxRecDepth 20000 in
theorem pairRuns_drilledTwice : drilledTwice.pairRuns
    = [drillRow 1 true .ok fullSample 1000000000000,
       drillRow 2 false .error mismatch 1086400000000] := rfl

theorem evidence_drilledTwice :
    (pairEvidence drillEnv drilledPair (.dec 1100000 0) drilledTwice).toOption.map
      (fun v => (v.state, v.valid)) = some (.failed, false) := by
  have hhistory : drillHistory drillEnv drilledPair drilledTwice.pairRuns
      = ⟨some (drillRow 2 false .error mismatch 1086400000000),
        some (drillRow 1 true .ok fullSample 1000000000000)⟩ := by
    rw [pairRuns_drilledTwice]
    rfl
  unfold pairEvidence evaluateRestoreEvidence
  rw [hhistory]
  simp only [LastRuns.attempt, Option.orElse, resultOf, result_mismatch, result_fullSample]
  decide +kernel

/-- The summary of a drill. -/
def summaryOfDrill (result : Dict) : Dict :=
  [("kind", .str "restoretest"), ("pairs", .list [.dict (storedResult result)])]

/-- A drill that failed for more than a limit of its sample gives no warning. -/
theorem historicalRestoreWarning_of_bounded {j : Job} {summary : Dict}
    (hj : j.summaryJson = some (jsonDumpsBounded (.dict summary) maxJobSummaryBytes))
    (hwf : (Value.dict summary).wellFormed = true)
    (hfits : encodedSize (.dict summary) ≤ maxJobSummaryBytes)
    (hplain : isPartialRestoreSummary summary = .ok false) :
    historicalRestoreWarning j = .ok false := by
  have hread := jsonLoads_bounded_fits hwf hfits
  have hne : jsonDumpsBounded (.dict summary) maxJobSummaryBytes ≠ "" := by
    intro hempty
    have hnone : jsonLoads "" = none := by decide
    rw [hempty, hnone] at hread
    cases hread
  unfold historicalRestoreWarning
  split_ifs
  · rfl
  · rw [hj]
    dsimp only [Option.getD_some]
    rw [if_neg hne, hread]
    exact hplain

set_option maxRecDepth 20000 in
theorem pairRuns_deleteFailed : (Cleanup.deleteFailed.run drilledTwice).pairRuns
    = [drillRow 1 true .ok fullSample 1000000000000] := by
  have hfailed : ∃ j, drilledTwice.jobs.filter (fun j => j.status = .error || j.status = .stale ||
      j.status = .cancelled) = [j] ∧ j.id = 2 ∧
      j.summaryJson = some (jsonDumpsBounded (.dict (summaryOfDrill mismatch)) maxJobSummaryBytes) :=
    ⟨_, rfl, rfl, rfl⟩
  obtain ⟨j, hfilter, hid, hsummary⟩ := hfailed
  have hwarning : historicalRestoreWarning j = .ok false := by
    apply historicalRestoreWarning_of_bounded hsummary
    · decide +kernel
    · exact (encodedSize_le_sizeBound _).trans (by decide +kernel)
    · decide +kernel
  have hwarned : [j].filterM historicalRestoreWarning = .ok [] := by
    simp only [List.filterM, List.filterAuxM, hwarning]
    rfl
  have hdelete : ∃ n, jobsDeleteFailed drilledTwice
      = .ok (n, deleteJobs (fun j => (j.status = .error || j.status = .stale ||
        j.status = .cancelled) && !(([] : List Job).map Job.id).contains j.id) drilledTwice) := by
    unfold jobsDeleteFailed
    dsimp only
    rw [hfilter, hwarned]
    exact ⟨_, rfl⟩
  obtain ⟨n, hdelete⟩ := hdelete
  show (committed (jobsDeleteFailed drilledTwice) drilledTwice).pairRuns = _
  rw [hdelete]
  rfl

theorem evidence_deleteFailed :
    (pairEvidence drillEnv drilledPair (.dec 1100000 0)
      (Cleanup.deleteFailed.run drilledTwice)).toOption.map
      (fun v => (v.state, v.valid)) = some (.passed, true) := by
  have hhistory : drillHistory drillEnv drilledPair (Cleanup.deleteFailed.run drilledTwice).pairRuns
      = ⟨some (drillRow 1 true .ok fullSample 1000000000000),
        some (drillRow 1 true .ok fullSample 1000000000000)⟩ := by
    rw [pairRuns_deleteFailed]
    rfl
  unfold pairEvidence evaluateRestoreEvidence
  rw [hhistory]
  simp only [LastRuns.attempt, Option.orElse, resultOf, result_fullSample]
  decide +kernel

/-- Deleting old jobs that keeps the failed drill keeps the evidence invalid. -/
theorem invalid_evidence_stays_photos :
    (Cleanup.prune 1 1 1200000000000).deletes drilledTwice 1 = true ∧
    ∀ w, pairEvidence drillEnv drilledPair (.dec 1100000 0)
      ((Cleanup.prune 1 1 1200000000000).run drilledTwice) = .ok w → w.valid = false := by
  have hnewest : (newestDrill drillEnv drilledPair drilledTwice).map PairRun.jobId = some 2 := by
    decide +kernel
  have hkept : (Cleanup.prune 1 1 1200000000000).deletes drilledTwice 2 = false := by
    decide +kernel
  have hv := evidence_drilledTwice
  cases hevidence : pairEvidence drillEnv drilledPair (.dec 1100000 0) drilledTwice with
  | error e => rw [hevidence] at hv; cases hv
  | ok v =>
    rw [hevidence] at hv
    obtain ⟨_, hinvalid⟩ := Prod.mk.inj (Option.some.inj hv)
    refine ⟨by decide +kernel, invalid_evidence_stays
      (.cons ⟨rfl, fun r hr hgone => ?_⟩ (.nil _)) hevidence hinvalid⟩
    rw [hr] at hnewest
    rw [Option.some.inj hnewest, hkept] at hgone
    cases hgone

/-- **Deleting failed jobs makes evidence valid again**: the failed drill is gone, and the
one before it counts. -/
theorem evidence_valid_again : ∃ v w,
    Run storeStep .empty
      (drillOf 1 .ok fullSample 1000000000000 ++ drillOf 2 .error mismatch 1086400000000)
      drilledTwice ∧
    pairEvidence drillEnv drilledPair (.dec 1100000 0) drilledTwice = .ok v ∧
    v.state = .failed ∧ v.valid = false ∧
    pairEvidence drillEnv drilledPair (.dec 1100000 0) (Cleanup.deleteFailed.run drilledTwice)
      = .ok w ∧
    w.state = .passed ∧ w.valid = true := by
  have hv := evidence_drilledTwice
  have hw := evidence_deleteFailed
  cases hbefore : pairEvidence drillEnv drilledPair (.dec 1100000 0) drilledTwice with
  | error e => rw [hbefore] at hv; cases hv
  | ok v =>
    cases hafter : pairEvidence drillEnv drilledPair (.dec 1100000 0)
        (Cleanup.deleteFailed.run drilledTwice) with
    | error e => rw [hafter] at hw; cases hw
    | ok w =>
      rw [hbefore] at hv
      rw [hafter] at hw
      obtain ⟨hstate, hvalid⟩ := Prod.mk.inj (Option.some.inj hv)
      obtain ⟨hstate', hvalid'⟩ := Prod.mk.inj (Option.some.inj hw)
      exact ⟨v, w, (run_after _ _).append (run_after _ _), rfl, hstate, hvalid, rfl, hstate',
        hvalid'⟩

end RcloneSync
