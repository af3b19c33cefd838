/-
RcloneSync/JobRetention.lean

What is deleted from the job tables (db.py), what is filled in when an older database is
opened, and what is read from the tables to decide on a first resynchronisation.

Jobs are deleted when they are old or have failed, and their attempts and intents go with
them.  `pair_history_state` keeps what a pair's attempts have shown apart from the jobs:
that one succeeded (`ever_succeeded`) or that one ended (`terminal_seen`).  Both backfills
write into the same tables.  `pair_baseline_state` reads the history first, then the
attempts that are still there, and then what was recorded under the key that is derived
from the pair's name; what it finds there it copies to the pair's own key.
-/
import RcloneSync.JobStore
import RcloneSync.Protection

namespace RcloneSync

open Py

/-! ### Evidence about a pair -/

/-- `a or b` for points in time, where zero counts as none. -/
def timeOr (a : Option Time) (b : Time) : Time :=
  match a with
  | none => b
  | some t => if t = 0 then b else t

/-- `COALESCE(ended_at, started_at)`. -/
def PairRun.seenAt (r : PairRun) : Time := r.endedAt.getD r.startedAt

/-- `ok=1 AND dry_run=0`. -/
def PairRun.succeeded (r : PairRun) : Bool := r.ok && !r.dryRun

/-- `status<>'running' OR ended_at IS NOT NULL`. -/
def PairRun.terminal (r : PairRun) : Bool := r.status ≠ .running || r.endedAt.isSome

/-- The later of two points in time, either of which may be missing. -/
def laterOf : Option Time → Option Time → Option Time
  | none, last => last
  | some t, none => some t
  | some t, some last => some (max last t)

/-- `_record_pair_history_state` with all its arguments. -/
def recordHistoryAt (historyKey pairName : String) (seenAt : Time) (succeeded terminal : Bool)
    (successAt : Option Time) (history : List PairHistory) : List PairHistory :=
  let key := strip historyKey
  let name := strip pairName
  if key = "" ∨ name = "" then history
  else
    let success := if succeeded then some (timeOr successAt seenAt) else none
    Tables.upsert PairHistory.historyKey
      ⟨key, name, succeeded, terminal, seenAt, seenAt, success⟩
      (fun old => { old with
        pairName := if old.lastSeenAt ≤ seenAt then name else old.pairName
        everSucceeded := old.everSucceeded || succeeded
        terminalSeen := old.terminalSeen || terminal
        firstSeenAt := min old.firstSeenAt seenAt
        lastSeenAt := max old.lastSeenAt seenAt
        lastSuccessAt := laterOf success old.lastSuccessAt })
      history

/-- Callers that give the time of the attempt, or none, as the time of its success. -/
theorem recordHistory_eq (historyKey pairName : String) (seenAt : Time)
    (succeeded terminal : Bool) (history : List PairHistory) :
    recordHistory historyKey pairName seenAt succeeded terminal history
      = recordHistoryAt historyKey pairName seenAt succeeded terminal none history := by
  unfold recordHistory recordHistoryAt
  by_cases hblank : strip historyKey = "" ∨ strip pairName = ""
  · simp only [hblank, if_true]
  · simp only [hblank, if_false]
    congr 1

def JobStore.pairHistory (s : JobStore) (key : String) : Option PairHistory :=
  Tables.find PairHistory.historyKey s.history key

/-! ### Deletion -/

/-- Jobs are deleted together with their attempts and intents (`ON DELETE CASCADE`). -/
def deleteJobs (p : Job → Bool) (s : JobStore) : JobStore :=
  let gone := (s.jobs.filter p).map Job.id
  { s with
    jobs := s.jobs.filter fun j => !p j
    pairRuns := s.pairRuns.filter fun r => !gone.contains r.jobId
    intents := s.intents.filter fun i => !gone.contains i.jobId }

/-- `_historical_restore_warning`. -/
def historicalRestoreWarning (j : Job) : Except PyError Bool :=
  if j.kind ≠ "restoretest" ∨ j.status ≠ .error then .ok false
  else
    let text := j.summaryJson.getD ""
    match jsonLoads (if text = "" then "\x7b\x7d" else text) with
    | some (.dict summary) => isPartialRestoreSummary summary
    | _ => .ok false

/-- `jobs_delete_failed`. -/
def jobsDeleteFailed (s : JobStore) : Except PyError (Nat × JobStore) := do
  let failed := s.jobs.filter fun j =>
    j.status = .error || j.status = .stale || j.status = .cancelled
  let warned ← failed.filterM historicalRestoreWarning
  let p : Job → Bool := fun j =>
    (j.status = .error || j.status = .stale || j.status = .cancelled) &&
      !(warned.map Job.id).contains j.id
  .ok ((s.jobs.filter p).length, deleteJobs p s)

/-- The jobs that were started last. -/
def latestJobs (count : Nat) (jobs : List Job) : List Nat :=
  ((jobs.insertionSort fun a b => b.startedAt ≤ a.startedAt).take count).map Job.id

/-- `jobs_prune`. -/
def jobsPrune (olderThanDays keepLatest : Int) (now : Time) (s : JobStore) : Nat × JobStore :=
  let cutoff := now - max 1 olderThanDays * 86400 * 1000000
  let kept := latestJobs (max 0 keepLatest).toNat s.jobs
  let p : Job → Bool := fun j =>
    j.status ≠ .running && decide (j.startedAt < cutoff) && !kept.contains j.id
  ((s.jobs.filter p).length, deleteJobs p s)

/-! ### Filling in what older versions did not record -/

/-- The mappings in `summary.get("pairs") or []`; a number cannot be iterated over. -/
def pairEntries (summary : Dict) : Except PyError (List Dict) :=
  let pairs := Dict.get summary "pairs"
  if truthy pairs = false then .ok []
  else
    match pairs with
    | .list items => .ok (items.filterMap asDict)
    | .dict _ => .ok []
    | .str _ => .ok []
    | _ => .error (.type "object is not iterable")

/-- The names that a job's summary has attempts for. -/
def expectedNames (status : JobStatus) (summary : Dict) : Except PyError (List String) := do
  let pairs ← pairEntries summary
  let named := (pairs.map fun pair => strippedText pair "name").filter (· ≠ "")
  if status = .error ∨ status = .stale ∨ status = .cancelled then
    let due := (innerList summary "due").map fun name => strip (pyStr (pyOr name (.str "")))
    .ok (named ++ due.filter (· ≠ ""))
  else .ok named

/-- One job of `_backfill_pair_runs`. -/
def backfillJob (j : Job) (s : JobStore) : Except PyError JobStore :=
  match j.summaryJson with
  | none => .ok s
  | some text =>
    match jsonLoads (if text = "" then "\x7b\x7d" else text) with
    | some (.dict summary) => do
      let expected ← expectedNames j.status summary
      let existing := (s.pairRuns.filter fun r => r.jobId = j.id).map PairRun.pairName
      if expected = [] ∨ ∀ name ∈ expected, name ∈ existing then .ok s
      else
        storePairResults ⟨j.id, j.kind, j.status, j.startedAt, timeOr j.endedAt j.startedAt⟩
          summary s
    | _ => .ok s

/-- `_backfill_pair_runs`. -/
def backfillPairRuns (s : JobStore) : Except PyError JobStore :=
  s.jobs.foldlM (fun s j => backfillJob j s) s

/-- The attempts of one name under one key, as `GROUP BY` sees them. -/
structure RunGroup where
  historyKey : String
  pairName : String
  rows : List PairRun

/-- `GROUP BY history_key, pair_name`, in the order of the keys. -/
def runGroups (rows : List PairRun) : List RunGroup :=
  let keyed := rows.filter fun r => r.historyKey ≠ ""
  let keys := firstOccurrences (keyed.map fun r => (r.historyKey, r.pairName))
  (keys.insertionSort fun a b => a.1 < b.1 ∨ (a.1 = b.1 ∧ a.2 ≤ b.2)).map fun k =>
    ⟨k.1, k.2, keyed.filter fun r => r.historyKey = k.1 ∧ r.pairName = k.2⟩

/-- `MAX(…)` over a group. -/
def latest (times : List Time) : Option Time := times.max?

/-- One group of `_backfill_pair_history_state`. -/
def recordGroup (now : Time) (g : RunGroup) (history : List PairHistory) : List PairHistory :=
  let succeeded := g.rows.filter PairRun.succeeded
  let lastSeen := latest (g.rows.map PairRun.seenAt)
  let firstSeen := (g.rows.map PairRun.startedAt).min?
  recordHistoryAt g.historyKey g.pairName (timeOr lastSeen (timeOr firstSeen now))
    (!succeeded.isEmpty) (g.rows.any PairRun.terminal)
    (latest (succeeded.map PairRun.seenAt)) history

/-- `_backfill_pair_history_state`. -/
def backfillPairHistory (now : Time) (s : JobStore) : JobStore :=
  { s with history := (runGroups s.pairRuns).foldl (fun h g => recordGroup now g h) s.history }

/-! ### The state of a baseline -/

/-- The answers of `pair_baseline_state`. -/
inductive BaselineState
  | new | ambiguous | succeeded
  deriving DecidableEq, Repr

def BaselineState.text : BaselineState → String
  | .new => "new"
  | .ambiguous => "ambiguous"
  | .succeeded => "succeeded"

/-- `ORDER BY COALESCE(ended_at, started_at) DESC, id DESC LIMIT 1`. -/
def lastRun (p : PairRun → Bool) (rows : List PairRun) : Option PairRun :=
  (rows.filter p).foldl
    (fun best r =>
      match best with
      | none => some r
      | some b => if b.seenAt ≤ r.seenAt then some r else some b) none

/-- The row that was recorded for the name under its derived key. -/
def legacyHistory (name : String) (s : JobStore) : Option PairHistory :=
  (s.pairHistory (defaultHistoryKey "" name)).filter fun h => h.pairName = name

/-- What a lookup copies to the pair's own key. -/
structure CopiedEvidence where
  pairName : String
  seenAt : Time
  terminal : Bool
  successAt : Option Time

/-- The success that `pair_baseline_state` finds: recorded already, or to be recorded. -/
inductive FoundSuccess
  | none
  | recorded
  | found (copied : CopiedEvidence)

/-- The part of `pair_baseline_state` that looks for a success. -/
def findSuccess (name key : String) (s : JobStore) : FoundSuccess :=
  let legacyKey := defaultHistoryKey "" name
  if (s.pairHistory key).any PairHistory.everSucceeded then .recorded
  else
    match lastRun (fun r => r.historyKey = key && r.succeeded) s.pairRuns with
    | some run =>
      .found ⟨if run.pairName = "" then name else run.pairName, run.seenAt, true, some run.seenAt⟩
    | Option.none =>
      if key = legacyKey then .none
      else
        match (legacyHistory name s).filter PairHistory.everSucceeded with
        | some h =>
          .found ⟨name, h.lastSeenAt, h.terminalSeen, some (timeOr h.lastSuccessAt h.lastSeenAt)⟩
        | Option.none =>
          match lastRun (fun r => r.pairName = name &&
              (r.historyKey = "" || r.historyKey = legacyKey) && r.succeeded) s.pairRuns with
          | some run => .found ⟨name, run.seenAt, true, some run.seenAt⟩
          | Option.none => .none

/-- The part of `pair_baseline_state` that looks for an ended attempt. -/
def terminalSeen (name key : String) (s : JobStore) : Bool :=
  let legacyKey := defaultHistoryKey "" name
  (s.pairHistory key).any PairHistory.terminalSeen ||
    s.pairRuns.any (fun r => r.historyKey = key && r.terminal) ||
    (key ≠ legacyKey && (legacyHistory name s).any PairHistory.terminalSeen)

/-- The key a lookup works with. -/
def lookupKey (pairName : String) (historyKey : Option String) : String :=
  let given := historyKey.getD ""
  strip (if given = "" then defaultHistoryKey "" (strip pairName) else given)

/-- `pair_baseline_state`: the answer, and the tables with the evidence it has copied. -/
def pairBaselineState (pairName : String) (historyKey : Option String) (s : JobStore) :
    BaselineState × JobStore :=
  let name := strip pairName
  let key := lookupKey pairName historyKey
  if name = "" ∨ key = "" then (.ambiguous, s)
  else
    match findSuccess name key s with
    | .recorded => (.succeeded, s)
    | .found c =>
      (.succeeded, { s with
        history := recordHistoryAt key c.pairName c.seenAt true c.terminal c.successAt s.history })
    | .none => (if terminalSeen name key s then .ambiguous else .new, s)

/-! ### The automatic resynchronisation -/

/-- `_first_run_resync_allowed`, where the database can be read. -/
def firstRunResyncAllowed (env : GuardEnv) (pair backup : Dict) (pairName : String)
    (s : JobStore) : Bool × JobStore :=
  if truthy (Dict.getOr pair "auto_resync_first_run"
      (Dict.getOr backup "auto_resync_first_run" (.bool true))) = false then (false, s)
  else
    let (state, s) := pairBaselineState pairName (some (rcloneHistoryKey env pair)) s
    (state = .new, s)

end RcloneSync
