/-
RcloneSync/FinishPaths.lean

The two ways to end a job compared.

`job_finish` works on the summary it is given.  `job_finish_external` first stores its
JSON text in an intent, under the byte budget of summaries, and ends the job with what
it reads back.  As long as the text fits, both end in the same tables, apart from the
intent itself (`paths_agree`).  A longer summary is read back as a preview, in which at
most a hundred pairs are left; a pair beyond them that succeeded ends as failed.

Main result (`paths_agree_iff`): the two paths agree on all summaries of a given size if
and only if that size is within the budget.
-/
import RcloneSync.JobStore
import RcloneSync.JsonSize

namespace RcloneSync

open Py

/-! ### The two paths -/

/-- `job_finish`: its result and the tables after it. -/
def finishDirect (id : Nat) (status : JobStatus) (summary : Option Dict) (now : Time)
    (s : JobStore) : Except PyError Bool × JobStore :=
  match jobFinish id status summary now s with
  | .ok (done, t) => (.ok done, t)
  | .error e => (.error e, s)

/-- `job_finish_external`: what was staged stays, whatever becomes of the rest. -/
def finishExternal (id : Nat) (status : JobStatus) (summary : Option Dict)
    (stagedAt now : Time) (s : JobStore) : Except PyError Bool × JobStore :=
  match terminalStage id status summary stagedAt s with
  | .error e => (.error e, s)
  | .ok staged =>
    match terminalApply id now staged with
    | .ok (done, t) => (.ok done, t)
    | .error e => (.error e, staged)

/-- The error recorded with an attempt. -/
def recordedError (row : PairRun) : Value :=
  match jsonLoads row.resultJson with
  | some (.dict result) => Dict.get result "error"
  | _ => .none

/-- What is compared of an attempt: the ok flag, the status and the error. -/
def attemptOutcome (row : PairRun) : Bool × JobStatus × Value :=
  (row.ok, row.status, recordedError row)

/-- The same job statuses, the same attempts and the same schedule state. -/
structure SameOutcome (s t : JobStore) : Prop where
  jobs : ∀ id, (s.job id).map Job.status = (t.job id).map Job.status
  attempts : ∀ id name,
    (s.pairRun id name).map attemptOutcome = (t.pairRun id name).map attemptOutcome
  schedule : s.schedule = t.schedule

/-- The text staged for a summary. -/
def stagedText (summary : Option Dict) : String :=
  jsonDumpsBounded (.dict (summary.getD [])) maxJobSummaryBytes

/-- A running job with a terminal status and a summary to end it with.  Nothing else is
staged for it. -/
structure FinishCase where
  store : JobStore
  id : Nat
  status : JobStatus
  summary : Option Dict
  stagedAt : Time
  now : Time
  running : (store.job id).map Job.status = some .running
  terminal : status ≠ .running
  wellFormed : (Value.dict (summary.getD [])).wellFormed = true
  staged : ∀ i, store.intent id = some i → i.status = status ∧ i.summaryJson = stagedText summary

/-- The length of the summary's JSON text in bytes. -/
def FinishCase.size (c : FinishCase) : Nat := encodedSize (.dict (c.summary.getD []))

def FinishCase.direct (c : FinishCase) : Except PyError Bool × JobStore :=
  finishDirect c.id c.status c.summary c.now c.store

def FinishCase.external (c : FinishCase) : Except PyError Bool × JobStore :=
  finishExternal c.id c.status c.summary c.stagedAt c.now c.store

/-- Both paths return the same and have the same outcome. -/
def FinishCase.Agree (c : FinishCase) : Prop :=
  c.direct.1 = c.external.1 ∧ SameOutcome c.direct.2 c.external.2

/-! ### Storing results looks at neither jobs nor intents -/

/-- The tables with other jobs and other intents. -/
def JobStore.over (s : JobStore) (jobs : List Job) (intents : List TerminalIntent) : JobStore :=
  { s with jobs := jobs, intents := intents }

section Over

variable (ctx : ResultContext) (summary : Dict) (jobs : List Job) (intents : List TerminalIntent)

theorem storeRun_over (succeeded terminal : Bool) (endedAt : Time) (row : PairRun)
    (s : JobStore) :
    storeRun succeeded terminal endedAt row (s.over jobs intents)
      = (storeRun succeeded terminal endedAt row s).over jobs intents := by
  simp only [storeRun, JobStore.over]

theorem storeReported_over (values : List Value) (s : JobStore) :
    storeReported ctx summary values (s.over jobs intents)
      = (storeReported ctx summary values s).map fun t => t.over jobs intents := by
  induction values generalizing s with
  | nil => rfl
  | cons v values ih =>
    simp only [storeReported]
    cases reportedRun ctx summary v with
    | error e => rfl
    | ok run =>
      cases run with
      | none => exact ih s
      | some row =>
        change storeReported ctx summary values (storeRun _ _ ctx.endedAt row (s.over jobs intents))
          = (storeReported ctx summary values (storeRun _ _ ctx.endedAt row s)).map _
        rw [storeRun_over]
        exact ih _

theorem storeDue_over (s : JobStore) :
    storeDue ctx summary (s.over jobs intents) = (storeDue ctx summary s).over jobs intents := by
  unfold storeDue
  split_ifs
  · generalize innerList summary "due" = values
    induction values generalizing s with
    | nil => rfl
    | cons v values ih =>
      simp only [List.foldl_cons]
      cases dueRun ctx summary v with
      | none => exact ih s
      | some row =>
        simp only [storeRun_over]
        exact ih _
  · rfl

theorem storePairResults_over (s : JobStore) :
    storePairResults ctx summary (s.over jobs intents)
      = (storePairResults ctx summary s).map fun t => t.over jobs intents := by
  unfold storePairResults
  rw [storeReported_over]
  cases storeReported ctx summary (innerList summary "pairs") s with
  | error e => rfl
  | ok t =>
    change (if ctx.status = .running then _ else _) = Except.map _ (if ctx.status = .running
      then _ else _)
    rw [storeDue_over]
    split_ifs <;> rfl

end Over

/-! ### Each path in one piece -/

/-- The jobs after a finish. -/
def finishedJobs (row : Job) (report : ScheduleReport) (now : Time) (payload : Option String)
    (jobs : List Job) : List Job :=
  Tables.updateWhere (isRunningJob row.id) (finishedJob report now payload) jobs

/-- What `job_finish` passes on to the storing of results. -/
def resultContext (row : Job) (status : JobStatus) (now : Time) : ResultContext :=
  ⟨row.id, row.kind, status, row.startedAt, now⟩

theorem any_running {s : JobStore} {id : Nat} {row : Job} (hrow : s.job id = some row)
    (hrunning : row.status = .running) : s.jobs.any (isRunningJob row.id) = true :=
  List.any_eq_true.mpr ⟨row, Tables.mem_of_find hrow, by simp [isRunningJob, hrunning]⟩

/-- The finish of a running job, by what the storing of results makes of the tables. -/
theorem jobFinish_eq {s : JobStore} {id : Nat} {row : Job} (hrow : s.job id = some row)
    (hrunning : row.status = .running) (status : JobStatus) (summary : Option Dict)
    (now : Time) :
    jobFinish id status summary now s
      = (storePairResults (resultContext row status now) (summary.getD []) s).map fun t =>
          (true, { t with
            jobs := finishedJobs row (finishReport row status (summary.getD []) now) now
              (summary.map fun d => jsonDumpsBounded (.dict d) maxJobSummaryBytes) s.jobs
            intents := s.intents
            schedule := recordSchedule (finishReport row status (summary.getD []) now)
              t.schedule }) := by
  have hread : finishRead id s = .ok (some row) := by
    simp [finishRead, hrow, hrunning]
  have hany : ¬ s.jobs.any (isRunningJob row.id) = false := by
    rw [any_running hrow hrunning]
    decide
  unfold jobFinish
  rw [hread]
  change finishWrite row status summary now s = _
  unfold finishWrite
  rw [if_neg hany]
  have hover := storePairResults_over (resultContext row status now) (summary.getD [])
    (finishedJobs row (finishReport row status (summary.getD []) now) now
      (summary.map fun d => jsonDumpsBounded (.dict d) maxJobSummaryBytes) s.jobs) s.intents s
  change (do
    let t ← storePairResults (resultContext row status now) (summary.getD [])
      (s.over (finishedJobs row (finishReport row status (summary.getD []) now) now
        (summary.map fun d => jsonDumpsBounded (.dict d) maxJobSummaryBytes) s.jobs) s.intents)
    _) = _
  rw [hover]
  cases storePairResults (resultContext row status now) (summary.getD []) s <;> rfl

theorem FinishCase.exists_row (c : FinishCase) :
    ∃ row, c.store.job c.id = some row ∧ row.status = .running :=
  Option.map_eq_some_iff.mp c.running

/-- What is read back of the staged text. -/
def FinishCase.readBack (c : FinishCase) : Dict := stagedSummary (stagedText c.summary)

/-- Staging only touches the intents, and what is applied is what is read back. -/
theorem FinishCase.stage_spec (c : FinishCase) : ∃ intents,
    terminalStage c.id c.status c.summary c.stagedAt c.store
        = .ok (c.store.over c.store.jobs intents) ∧
      applyRead c.id (c.store.over c.store.jobs intents) = .ok (c.status, c.readBack) := by
  obtain ⟨row, hrow, _⟩ := c.exists_row
  have hread : ∀ intents i, Tables.find TerminalIntent.jobId intents c.id = some i →
      i.status = c.status → i.summaryJson = stagedText c.summary →
      applyRead c.id (c.store.over c.store.jobs intents) = .ok (c.status, c.readBack) := by
    intro intents i hi hstatus htext
    have hintent : (c.store.over c.store.jobs intents).intent c.id = some i := hi
    simp [applyRead, hintent, hstatus, htext, FinishCase.readBack]
  unfold terminalStage
  rw [if_neg c.terminal, hrow]
  cases hi : c.store.intent c.id with
  | none =>
    have hnone : Tables.find TerminalIntent.jobId c.store.intents c.id = none := hi
    refine ⟨_, rfl, hread _
      ⟨c.id, c.status, stagedText c.summary, c.stagedAt, c.stagedAt, none⟩ ?_ rfl rfl⟩
    rw [Tables.find_append, hnone]
    exact if_pos rfl
  | some i =>
    obtain ⟨hstatus, htext⟩ := c.staged i hi
    have hsame : i.status = c.status ∧
        i.summaryJson = jsonDumpsBounded (.dict (c.summary.getD [])) maxJobSummaryBytes :=
      ⟨hstatus, htext⟩
    obtain ⟨i', hi', hstatus', htext'⟩ := find_intents_updateWhere
      (p := fun i => decide (i.jobId = c.id)) (f := fun i => { i with updatedAt := c.stagedAt })
      (by intro _; exact ⟨rfl, rfl, rfl⟩) hi
    simp only [if_pos hsame]
    exact ⟨_, rfl, hread _ i' hi' (hstatus'.trans hstatus) (htext'.trans htext)⟩

/-- The status of a job after a finish does not depend on the summary stored with it. -/
theorem find_finishedJobs (row : Job) (report : ScheduleReport) (now : Time)
    (payload : Option String) (jobs : List Job) (id : Nat) :
    (Tables.find Job.id (finishedJobs row report now payload jobs) id).map Job.status
      = (Tables.find Job.id jobs id).map fun j =>
          if isRunningJob row.id j then report.status else j.status := by
  have hfind : Tables.find Job.id (finishedJobs row report now payload jobs) id
      = (Tables.find Job.id jobs id).map fun j =>
          if isRunningJob row.id j then finishedJob report now payload j else j :=
    Tables.find_updateWhere (by intro _; rfl) jobs id
  rw [hfind, Option.map_map]
  congr 1
  funext j
  simp only [Function.comp_apply]
  split_ifs <;> rfl

/-- The tables after a finish whose results were stored in `t`. -/
def finishedStore (row : Job) (status : JobStatus) (summary : Dict) (now : Time)
    (payload : Option String) (jobs : List Job) (intents : List TerminalIntent) (t : JobStore) :
    JobStore :=
  { t with
    jobs := finishedJobs row (finishReport row status summary now) now payload jobs
    intents := intents
    schedule := recordSchedule (finishReport row status summary now) t.schedule }

/-- The direct path: the results of the summary itself decide. -/
theorem FinishCase.direct_spec (c : FinishCase) {row : Job}
    (hrow : c.store.job c.id = some row) (hrunning : row.status = .running) :
    ∃ payload, c.direct =
      match storePairResults (resultContext row c.status c.now) (c.summary.getD []) c.store with
      | .error e => (.error e, c.store)
      | .ok t => (.ok true, finishedStore row c.status (c.summary.getD []) c.now payload
          c.store.jobs c.store.intents t) := by
  refine ⟨c.summary.map fun d => jsonDumpsBounded (.dict d) maxJobSummaryBytes, ?_⟩
  unfold FinishCase.direct finishDirect
  rw [jobFinish_eq hrow hrunning]
  cases storePairResults (resultContext row c.status c.now) (c.summary.getD []) c.store <;> rfl

/-- An application that nothing disturbs ends the job and marks the intent. -/
theorem terminalApply_eq {s : JobStore} {id : Nat} {row : Job} {status : JobStatus}
    {summary : Dict} (hread : applyRead id s = .ok (status, summary))
    (hrow : s.job id = some row) (hrunning : row.status = .running) (now : Time) :
    terminalApply id now s
      = (storePairResults (resultContext row status now) summary s).map fun t =>
          (true, applyMark id now (finishedStore row status summary now
            (some (jsonDumpsBounded (.dict summary) maxJobSummaryBytes)) s.jobs s.intents t)) := by
  have hfinish := jobFinish_eq hrow hrunning status (some summary) now
  have hcheck : ∀ t, applyCheck id status true t = .ok () := by
    intro t
    simp [applyCheck]
  simp only [Option.getD_some, Option.map_some] at hfinish
  unfold terminalApply
  rw [hread]
  simp only [bind, Except.bind, hfinish]
  generalize jsonDumpsBounded (.dict summary) maxJobSummaryBytes = payload
  cases storePairResults (resultContext row status now) summary s with
  | error e => rfl
  | ok t =>
    simp only [Except.map, hcheck, finishedStore]

/-- The mark is set on the intents alone. -/
theorem applyMark_finishedStore (id : Nat) (row : Job) (status : JobStatus) (summary : Dict)
    (now : Time) (payload : Option String) (jobs : List Job) (intents : List TerminalIntent)
    (s t : JobStore) :
    applyMark id now (finishedStore row status summary now payload s.jobs s.intents
        (t.over jobs intents)) =
      finishedStore row status summary now payload s.jobs (applyMark id now s).intents t := by
  simp only [applyMark, finishedStore, JobStore.over]

/-- The external path: the results of what is read back decide. -/
theorem FinishCase.external_spec (c : FinishCase) {row : Job}
    (hrow : c.store.job c.id = some row) (hrunning : row.status = .running) :
    ∃ payload intents intents', c.external =
      match storePairResults (resultContext row c.status c.now) c.readBack c.store with
      | .error e => (.error e, c.store.over c.store.jobs intents)
      | .ok t => (.ok true, finishedStore row c.status c.readBack c.now payload
          c.store.jobs intents' t) := by
  obtain ⟨intents, hstage, hread⟩ := c.stage_spec
  have hrow' : (c.store.over c.store.jobs intents).job c.id = some row := hrow
  refine ⟨some (jsonDumpsBounded (.dict c.readBack) maxJobSummaryBytes), intents,
    (applyMark c.id c.now (c.store.over c.store.jobs intents)).intents, ?_⟩
  unfold FinishCase.external finishExternal
  rw [hstage]
  simp only
  rw [terminalApply_eq hread hrow' hrunning, storePairResults_over]
  generalize jsonDumpsBounded (.dict c.readBack) maxJobSummaryBytes = payload
  cases storePairResults (resultContext row c.status c.now) c.readBack c.store with
  | error e => rfl
  | ok t =>
    dsimp only [Except.map]
    rw [applyMark_finishedStore]
    rfl

theorem FinishCase.pairRun_direct (c : FinishCase) {row : Job} {t : JobStore}
    (hrow : c.store.job c.id = some row) (hrunning : row.status = .running)
    (ht : storePairResults (resultContext row c.status c.now) (c.summary.getD []) c.store = .ok t)
    (id : Nat) (name : String) : c.direct.2.pairRun id name = t.pairRun id name := by
  obtain ⟨payload, h⟩ := c.direct_spec hrow hrunning
  rw [h, ht]
  rfl

theorem FinishCase.pairRun_external (c : FinishCase) {row : Job} {t : JobStore}
    (hrow : c.store.job c.id = some row) (hrunning : row.status = .running)
    (ht : storePairResults (resultContext row c.status c.now) c.readBack c.store = .ok t)
    (id : Nat) (name : String) : c.external.2.pairRun id name = t.pairRun id name := by
  obtain ⟨payload, intents, intents', h⟩ := c.external_spec hrow hrunning
  rw [h, ht]
  rfl

/-! ### A summary that fits -/

theorem sameOutcome_finishedStore {row : Job} {status : JobStatus} {summary : Dict} {now : Time}
    {payload payload' : Option String} {jobs : List Job} {intents intents' : List TerminalIntent}
    (t : JobStore) :
    SameOutcome (finishedStore row status summary now payload jobs intents t)
      (finishedStore row status summary now payload' jobs intents' t) where
  jobs := fun id => (find_finishedJobs row _ now payload jobs id).trans
    (find_finishedJobs row _ now payload' jobs id).symm
  attempts := fun _ _ => rfl
  schedule := rfl

/-- A text that is read is not empty. -/
theorem jsonLoads_ne_empty {text : String} {v : Value} (h : jsonLoads text = some v) :
    text ≠ "" := by
  rintro rfl
  have hnone : jsonLoads "" = none := by decide
  rw [hnone] at h
  cases h

/-- A summary that fits is read back as it is. -/
theorem FinishCase.readBack_of_fits (c : FinishCase) (hfits : c.size ≤ maxJobSummaryBytes) :
    c.readBack = c.summary.getD [] := by
  have hread : jsonLoads (stagedText c.summary) = some (.dict (c.summary.getD [])) :=
    jsonLoads_bounded_fits c.wellFormed hfits
  unfold FinishCase.readBack stagedSummary
  rw [if_neg (jsonLoads_ne_empty hread), hread]

/-- **The paths agree on every summary that fits.** -/
theorem paths_agree (c : FinishCase) (hfits : c.size ≤ maxJobSummaryBytes) : c.Agree := by
  obtain ⟨row, hrow, hrunning⟩ := c.exists_row
  obtain ⟨payload, hdirect⟩ := c.direct_spec hrow hrunning
  obtain ⟨payload', intents, intents', hexternal⟩ := c.external_spec hrow hrunning
  rw [c.readBack_of_fits hfits] at hexternal
  unfold FinishCase.Agree
  rw [hdirect, hexternal]
  cases storePairResults (resultContext row c.status c.now) (c.summary.getD []) c.store with
  | error e => exact ⟨rfl, fun _ => rfl, fun _ _ => rfl, rfl⟩
  | ok t => exact ⟨rfl, sameOutcome_finishedStore t⟩

/-! ### What the stored results say of one pair -/

/-- The members that recording an entry fills in. -/
def filledIn : List String := ["trigger", "history_key", "scheduled_slot", "dry_run"]

theorem recordedPair_get (summary pair : Dict) (historyKey : String) (slot : Option String)
    (dryRun : Bool) {key : String} (hkey : key ∉ filledIn) :
    Dict.get (recordedPair summary pair historyKey slot dryRun) key = Dict.get pair key := by
  simp only [filledIn, List.mem_cons, List.not_mem_nil, or_false, not_or] at hkey
  obtain ⟨h₁, h₂, h₃, h₄⟩ := hkey
  have hset : ∀ (d : Dict) k v, key ≠ k → Dict.get (Dict.set d k v) key = Dict.get d key :=
    fun d _ v h => Dict.get_set_ne d v h
  unfold recordedPair
  cases slot <;> dsimp only <;> split_ifs <;>
    simp only [hset _ _ _ h₁, hset _ _ _ h₂, hset _ _ _ h₃, hset _ _ _ h₄]

section Pairs

variable {ctx : ResultContext} {summary : Dict}

/-- Outside restore tests an entry with a name gives a row of that name, and its ok flag is
the one reported. -/
theorem reportedRun_spec (summary : Dict) (hkind : ctx.kind ≠ "restoretest") {pair : Dict}
    (hname : strippedText pair "name" ≠ "") : ∃ row,
    reportedRun ctx summary (.dict pair) = .ok (some row) ∧
      row.key = (ctx.jobId, strippedText pair "name") ∧
      row.ok = decide (Dict.get pair "ok" = .bool true) ∧ row.status ≠ .running := by
  have hnot : ¬ (ctx.kind = "restoretest" ∧ (isDryRun pair || isDryRun summary) = false) :=
    fun h => hkind h.1
  have hstatus : ∀ p, pairStatus ctx.status p ≠ .running := by
    intro p
    unfold pairStatus
    split_ifs <;> decide
  simp only [reportedRun, if_neg hname, if_neg hnot]
  refine ⟨_, rfl, rfl, ?_, hstatus _⟩
  simp only
  rw [recordedPair_get _ _ _ _ _ (by decide)]

/-- The name that an entry reports. -/
def reportedName : Value → String
  | .dict pair => strippedText pair "name"
  | _ => ""

theorem pairRun_storeRun (succeeded terminal : Bool) (endedAt : Time) (row : PairRun)
    (s : JobStore) (id : Nat) (name : String) :
    (storeRun succeeded terminal endedAt row s).pairRun id name
      = if (id, name) = row.key then
          some (((s.pairRun id name).map fun old => { row with
            jobId := old.jobId, pairName := old.pairName, startedAt := old.startedAt }).getD row)
        else s.pairRun id name :=
  Tables.find_upsert (by intro _; rfl) s.pairRuns (id, name)

/-- Entries that do not name a pair leave its attempt as it is. -/
theorem pairRun_storeReported (hkind : ctx.kind ≠ "restoretest") {values : List Value}
    {s t : JobStore} (h : storeReported ctx summary values s = .ok t) {id : Nat}
    {name : String} (hvalues : ∀ v ∈ values, reportedName v ≠ name) :
    t.pairRun id name = s.pairRun id name := by
  induction values generalizing s with
  | nil =>
    obtain rfl := Except.ok.inj h
    rfl
  | cons v values ih =>
    have ih := fun s h => ih (s := s) h fun w hw => hvalues w (List.mem_cons_of_mem _ hw)
    have hv := hvalues v (by simp)
    obtain ⟨run, hrun, h⟩ := bind_ok.mp h
    cases run with
    | none => exact ih s h
    | some row =>
      change storeReported ctx summary values (storeRun _ _ ctx.endedAt row s) = .ok t at h
      rw [ih _ h, pairRun_storeRun, if_neg]
      cases v with
      | dict pair =>
        by_cases hname : strippedText pair "name" = ""
        · simp [reportedRun, hname] at hrun
        · obtain ⟨row', hrow', hkey, _⟩ := reportedRun_spec summary hkind hname
          obtain rfl : row = row' := by
            rw [hrow'] at hrun
            exact (Option.some.inj (Except.ok.inj hrun)).symm
          rw [hkey]
          intro heq
          exact hv (Prod.mk.inj heq).2.symm
      | _ => cases hrun

/-- Outside restore tests storing what is reported never fails. -/
theorem storeReported_total (summary : Dict) (hkind : ctx.kind ≠ "restoretest")
    (values : List Value) (s : JobStore) : ∃ t, storeReported ctx summary values s = .ok t := by
  induction values generalizing s with
  | nil => exact ⟨s, rfl⟩
  | cons v values ih =>
    have hrun : ∃ run, reportedRun ctx summary v = .ok run := by
      cases v with
      | dict pair =>
        by_cases hname : strippedText pair "name" = ""
        · exact ⟨none, by simp [reportedRun, hname]⟩
        · obtain ⟨row, hrow, _⟩ := reportedRun_spec summary hkind hname
          exact ⟨some row, hrow⟩
      | _ => exact ⟨none, rfl⟩
    obtain ⟨run, hrun⟩ := hrun
    simp only [storeReported, hrun]
    cases run with
    | none => exact ih s
    | some row => exact ih (storeRun _ _ ctx.endedAt row s)

theorem storeReported_append (values : List Value) (v : Value) (s : JobStore) :
    storeReported ctx summary (values ++ [v]) s
      = storeReported ctx summary values s >>= storeReported ctx summary [v] := by
  induction values generalizing s with
  | nil => rfl
  | cons w values ih =>
    simp only [List.cons_append, storeReported]
    cases reportedRun ctx summary w with
    | error e => rfl
    | ok run =>
      cases run with
      | none => exact ih s
      | some row => exact ih (storeRun _ _ ctx.endedAt row s)

/-- The entry that names a pair last decides its ok flag. -/
theorem pairRun_storeReported_last (hkind : ctx.kind ≠ "restoretest") {values : List Value}
    {pair : Dict} (hname : strippedText pair "name" ≠ "") {s t : JobStore}
    (h : storeReported ctx summary (values ++ [.dict pair]) s = .ok t) :
    ∃ row, t.pairRun ctx.jobId (strippedText pair "name") = some row ∧
      row.ok = decide (Dict.get pair "ok" = .bool true) ∧ row.status ≠ .running := by
  rw [storeReported_append] at h
  obtain ⟨u, _, h⟩ := bind_ok.mp h
  obtain ⟨row, hrow, hkey, hok, hstatus⟩ := reportedRun_spec summary hkind hname
  simp only [storeReported, hrow] at h
  change Except.ok (storeRun _ _ ctx.endedAt row u) = .ok t at h
  obtain rfl := Except.ok.inj h
  refine ⟨_, (pairRun_storeRun _ _ _ row u _ _).trans (if_pos hkey.symm), ?_⟩
  cases u.pairRun ctx.jobId (strippedText pair "name") with
  | none => exact ⟨hok, hstatus⟩
  | some old => exact ⟨hok, hstatus⟩

theorem storePairResults_total (summary : Dict) (hkind : ctx.kind ≠ "restoretest")
    (s : JobStore) : ∃ t, storePairResults ctx summary s = .ok t := by
  obtain ⟨u, hu⟩ := storeReported_total summary hkind (innerList summary "pairs") s
  simp only [storePairResults, hu]
  by_cases hrunning : ctx.status = .running
  · exact ⟨_, if_pos hrunning⟩
  · exact ⟨_, if_neg hrunning⟩

/-- Ending a job successfully stores what is reported and closes what is still open. -/
theorem pairRun_storePairResults (hok : ctx.status = .ok) {s t : JobStore}
    (h : storePairResults ctx summary s = .ok t) :
    ∃ u, storeReported ctx summary (innerList summary "pairs") s = .ok u ∧
      ∀ name, t.pairRun ctx.jobId name = (u.pairRun ctx.jobId name).map fun row =>
        if isOpenOf ctx.jobId row then
          closeAttempt .error ctx.endedAt (some (Dict.textOr summary "error" "")) row
        else row := by
  obtain ⟨u, hu, h⟩ := bind_ok.mp h
  refine ⟨u, hu, fun name => ?_⟩
  have hdue : storeDue ctx summary u = u := by simp [storeDue, hok]
  have hunfinished : unfinishedStatus ctx.status = .error := by rw [hok]; decide
  have hrunning : ¬ ctx.status = .running := by rw [hok]; decide
  simp only [hdue, hrunning, if_false, hunfinished] at h
  obtain rfl := Except.ok.inj h
  exact Tables.find_updateWhere (by intro _; rfl) u.pairRuns (ctx.jobId, name)

end Pairs

/-! ### A summary that does not fit -/

/-- A pair that was copied. -/
def copiedPair (i : Nat) : Dict := [("name", .str ("pair " ++ toString i)), ("ok", .bool true)]

/-- A hundred and one pairs that were all copied. -/
def manyPairs : List Value := (List.range 101).map fun i => .dict (copiedPair i)

/-- Their summary, with a protocol of `k` characters. -/
def longSummary (k : Nat) : Dict :=
  [("pairs", .list manyPairs), ("protocol", .str (String.ofList (List.replicate k 'x')))]

/-- The tables with a running backup whose last pair is still open. -/
def longStore : JobStore :=
  match jobStart ⟨"backup", [.dict [("name", .str "pair 100")]], true, none, none, none, none,
      none⟩ 1000000 .empty with
  | .ok (_, s) => s
  | .error _ => .empty

example : (longStore.pairRun 1 "pair 100").map PairRun.status = some .running := by
  decide +kernel

theorem longSummary_wellFormed (k : Nat) : (Value.dict (longSummary k)).wellFormed = true := by
  have hpairs : (Value.list manyPairs).wellFormed = true := by decide +kernel
  rw [wellFormed_dict_iff]
  refine ⟨fun e he => ?_, by simp [longSummary]⟩
  simp only [longSummary, List.mem_cons, List.not_mem_nil, or_false] at he
  rcases he with rfl | rfl
  · exact hpairs
  · rfl

theorem utf8Length_replicate (k : Nat) :
    utf8Length (String.ofList (List.replicate k 'x')) = k := by
  induction k with
  | zero => rfl
  | succ k ih =>
    have hx : utf8Length (String.singleton 'x') = 1 := by decide
    rw [List.replicate_succ, String.ofList_cons, utf8Length_append, hx, ih, Nat.add_comm]

theorem jsonText_replicate (k : Nat) :
    jsonText false (String.ofList (List.replicate k 'x'))
      = "\"" ++ String.ofList (List.replicate k 'x') ++ "\"" := by
  have hflat : (List.replicate k 'x').flatMap (jsonChar false) = List.replicate k 'x' := by
    induction k with
    | zero => rfl
    | succ k ih =>
      have hx : jsonChar false 'x' = ['x'] := by decide
      rw [List.replicate_succ, List.flatMap_cons, ih, hx]
      rfl
  apply String.toList_injective
  simp [jsonText, hflat]

/-- The protocol adds its length to the text. -/
theorem encodedSize_longSummary (k : Nat) :
    encodedSize (.dict (longSummary k)) = encodedSize (.dict (longSummary 0)) + k := by
  unfold longSummary
  generalize Value.list manyPairs = pairs
  have hk := utf8Length_replicate k
  have h0 := utf8Length_replicate 0
  simp only [encodedSize, jsonDumps, jsonMembers, plainJson, Bool.false_eq_true, if_false,
    List.map_cons, List.map_nil, join, utf8Length_append, jsonText_replicate, hk, h0]
  omega

/-- A running job and a summary of it, longer by `k` than it has to be. -/
def longCase (k : Nat) : FinishCase where
  store := longStore
  id := 1
  status := .ok
  summary := some (longSummary k)
  stagedAt := 61000000
  now := 62000000
  running := by decide +kernel
  terminal := by decide
  wellFormed := longSummary_wellFormed k
  staged := by
    intro i hi
    have hnone : longStore.intent 1 = none := by decide +kernel
    rw [hnone] at hi
    cases hi

theorem longCase_size (k : Nat) :
    (longCase k).size = encodedSize (.dict (longSummary 0)) + k :=
  encodedSize_longSummary k

/-- What a stage leaves of the pairs. -/
def shownPairs (stage : PreviewStage) : List Value :=
  (asList (jsonPreview stage (stage.depth - 1) (.list manyPairs))).getD []

theorem innerList_markedPreview {stage : PreviewStage} (hstage : stage ∈ previewStages)
    (k n : Nat) :
    innerList (markedPreview stage (.dict (longSummary k)) n) "pairs" = shownPairs stage := by
  unfold innerList shownPairs
  congr 2
  simp only [previewStages, List.mem_cons, List.not_mem_nil, or_false] at hstage
  rcases hstage with rfl | rfl | rfl | rfl <;>
    simp [markedPreview, longSummary, jsonPreview, takeText, Dict.set, Dict.get]

/-! The names of the other pairs are shorter. -/

theorem length_strip_le (s : String) : (strip s).length ≤ s.length := by
  rw [← String.length_toList, ← String.length_toList, strip_toList]
  unfold stripChars
  exact ((List.rdropWhile_prefix _ _).length_le).trans (List.dropWhile_sublist _).length_le

theorem length_pairName {i : Nat} (hi : i < 100) : ("pair " ++ toString i).length ≤ 7 := by
  have hdigits : ∀ n < 100, (Nat.toDigits 10 n).length ≤ 2 := by decide
  have htext : (toString i).length = (Nat.toDigits 10 i).length := by
    have hdecimal : toString i = String.ofList (Nat.toDigits 10 i) := rfl
    rw [hdecimal, String.length_ofList]
  have hword : "pair ".length = 5 := by decide
  have hi := hdigits i hi
  rw [String.length_append, hword, htext]
  omega

/-- A preview of another pair does not show the name of the last one. -/
theorem reportedName_preview {stage : PreviewStage} (hstage : stage ∈ previewStages) (depth : Nat)
    {i : Nat} (hi : i < 100) :
    reportedName (jsonPreview stage depth (.dict (copiedPair i))) ≠ "pair 100" := by
  cases depth with
  | zero =>
    simp [jsonPreview, reportedName]
  | succ depth =>
    have hlimits : ∀ s ∈ previewStages, 2 ≤ s.dictLimit ∧ 7 ≤ s.stringLimit := by decide
    obtain ⟨hentries, hstring⟩ := hlimits stage hstage
    have hshort := length_pairName hi
    have hshown : reportedName (jsonPreview stage (depth + 1) (.dict (copiedPair i))) =
        strip ("pair " ++ toString i) := by
      have hname : jsonPreview stage depth (.str ("pair " ++ toString i)) =
          .str ("pair " ++ toString i) := by
        rw [jsonPreview, if_pos (hshort.trans hstring)]
      have htake : (copiedPair i).take stage.dictLimit = copiedPair i :=
        List.take_of_length_le hentries
      rw [jsonPreview, htake]
      unfold copiedPair
      rw [List.foldl_cons, List.foldl_cons, List.foldl_nil, hname]
      have hkeys : takeText 128 "name" = "name" ∧ takeText 128 "ok" = "ok" := by decide
      simp [reportedName, strippedText, Dict.textOr, Dict.get, Dict.set, hkeys, pyOr, truthy]
    rw [hshown]
    intro h
    have hlength := length_strip_le ("pair " ++ toString i)
    rw [h] at hlength
    have hlast : "pair 100".length = 8 := by decide
    omega

/-- No preview shows the last of the pairs. -/
theorem cut_pairs (k maxBytes : Nat) :
    ∀ v ∈ innerList (cutValue (.dict (longSummary k)) maxBytes) "pairs",
      reportedName v ≠ "pair 100" := by
  have hlists : ∀ s ∈ previewStages, s.listLimit ≤ 100 ∧ 0 < s.depth - 1 := by decide
  have hshown : ∀ stage ∈ previewStages, ∀ v ∈ shownPairs stage,
      reportedName v ≠ "pair 100" := by
    intro stage hstage v hv
    obtain ⟨hlimit, hdepth⟩ := hlists stage hstage
    obtain ⟨depth, hsucc⟩ := Nat.exists_eq_add_one.mpr hdepth
    unfold shownPairs manyPairs at hv
    rw [hsucc, jsonPreview, asList, Option.getD_some, ← List.map_take, List.map_map] at hv
    obtain ⟨i, hi, rfl⟩ := List.mem_map.mp hv
    rw [List.take_range] at hi
    have hi := List.mem_range.mp hi
    exact reportedName_preview hstage depth (by omega)
  rcases cutValue_cases (.dict (longSummary k)) maxBytes with ⟨stage, hstage, h⟩ | h
  · rw [h, innerList_markedPreview hstage]
    exact hshown stage hstage
  · rw [h]
    intro v hv
    cases hv

theorem manyPairs_eq :
    manyPairs = (List.range 100).map (fun i => .dict (copiedPair i))
      ++ [.dict (copiedPair 100)] := by
  have hrange : List.range 101 = List.range 100 ++ [100] := List.range_succ
  unfold manyPairs
  rw [hrange, List.map_append]
  rfl

/-- A finish with the whole summary records the last pair as copied. -/
theorem ok_of_reported {ctx : ResultContext} (hkind : ctx.kind ≠ "restoretest")
    (hstatus : ctx.status = .ok) {k : Nat} {s t : JobStore}
    (h : storePairResults ctx (longSummary k) s = .ok t) :
    (t.pairRun ctx.jobId "pair 100").map PairRun.ok = some true := by
  have hname : strippedText (copiedPair 100) "name" = "pair 100" := by decide +kernel
  have hne : strippedText (copiedPair 100) "name" ≠ "" := by
    rw [hname]
    decide
  obtain ⟨u, hu, ht⟩ := pairRun_storePairResults hstatus h
  have hpairs : innerList (longSummary k) "pairs" = manyPairs := rfl
  rw [hpairs, manyPairs_eq] at hu
  obtain ⟨row, hrow, hok, hend⟩ := pairRun_storeReported_last hkind hne hu
  rw [hname] at hrow
  have hopen : isOpenOf ctx.jobId row = false := by simp [isOpenOf, hend]
  have hcopied : Dict.get (copiedPair 100) "ok" = .bool true := rfl
  rw [hcopied, decide_eq_true rfl] at hok
  rw [ht, hrow, Option.map_some, hopen]
  exact congrArg some hok

/-- A finish with a summary that does not name an open pair records it as failed. -/
theorem failed_of_unreported {ctx : ResultContext} (hkind : ctx.kind ≠ "restoretest")
    (hstatus : ctx.status = .ok) {summary : Dict} {name : String}
    (hvalues : ∀ v ∈ innerList summary "pairs", reportedName v ≠ name) {s t : JobStore}
    {row : PairRun} (hrow : s.pairRun ctx.jobId name = some row)
    (hopen : isOpenOf ctx.jobId row = true)
    (h : storePairResults ctx summary s = .ok t) :
    (t.pairRun ctx.jobId name).map PairRun.ok = some false := by
  obtain ⟨u, hu, ht⟩ := pairRun_storePairResults hstatus h
  rw [ht, pairRun_storeReported hkind hu hvalues, hrow, Option.map_some, if_pos hopen]
  rfl

theorem FinishCase.readBack_of_exceeds (c : FinishCase) (h : maxJobSummaryBytes < c.size) :
    c.readBack = cutValue (.dict (c.summary.getD [])) maxJobSummaryBytes := by
  have hread : jsonLoads (stagedText c.summary)
      = some (.dict (cutValue (.dict (c.summary.getD [])) maxJobSummaryBytes)) :=
    jsonLoads_bounded_exceeds c.wellFormed h
  unfold FinishCase.readBack stagedSummary
  rw [if_neg (jsonLoads_ne_empty hread), hread]

/-- **The paths disagree on every summary of this form that does not fit**: the last pair
was copied, and the external path records it as failed. -/
theorem longCase_disagrees {k : Nat} (h : maxJobSummaryBytes < (longCase k).size) :
    ¬ (longCase k).Agree := by
  rintro ⟨_, _, hattempts, _⟩
  obtain ⟨row, hrow, hrunning⟩ := (longCase k).exists_row
  have hrow : longStore.job 1 = some row := hrow
  have hid : row.id = 1 := Tables.key_of_find hrow
  have hkind : row.kind ≠ "restoretest" := by
    have hk : (longStore.job 1).map Job.kind = some "backup" := by decide +kernel
    rw [hrow] at hk
    rw [Option.some.inj hk]
    decide
  generalize hctx : resultContext row .ok 62000000 = ctx
  have hjob : ctx.jobId = 1 := by rw [← hctx]; exact hid
  have hstatus : ctx.status = .ok := by rw [← hctx]; rfl
  have hkind : ctx.kind ≠ "restoretest" := by rw [← hctx]; exact hkind
  -- the direct path
  have hleft : ((longCase k).direct.2.pairRun 1 "pair 100").map PairRun.ok = some true := by
    obtain ⟨t, ht⟩ := storePairResults_total (longSummary k) hkind longStore
    rw [(longCase k).pairRun_direct hrow hrunning (hctx ▸ ht), ← hjob]
    exact ok_of_reported hkind hstatus ht
  -- the external path
  have hright : ((longCase k).external.2.pairRun 1 "pair 100").map PairRun.ok = some false := by
    obtain ⟨t, ht⟩ := storePairResults_total (longCase k).readBack hkind longStore
    have hopen : (longStore.pairRun 1 "pair 100").map (isOpenOf 1) = some true := by
      decide +kernel
    obtain ⟨attempt, hattempt, hopen⟩ := Option.map_eq_some_iff.mp hopen
    have hcut : ∀ v ∈ innerList (longCase k).readBack "pairs", reportedName v ≠ "pair 100" := by
      rw [(longCase k).readBack_of_exceeds h]
      exact cut_pairs k maxJobSummaryBytes
    rw [(longCase k).pairRun_external hrow hrunning (hctx ▸ ht)]
    rw [← hjob] at hattempt hopen ⊢
    exact failed_of_unreported hkind hstatus hcut hattempt hopen ht
  have hsame := congrArg (Option.map Prod.fst) (hattempts 1 "pair 100")
  have hfst : Prod.fst ∘ attemptOutcome = PairRun.ok := rfl
  rw [Option.map_map, Option.map_map, hfst, hleft, hright] at hsame
  cases hsame

/-- Without its protocol the summary fits. -/
theorem longSummary_base : 0 < encodedSize (.dict (longSummary 0)) ∧
    encodedSize (.dict (longSummary 0)) ≤ maxJobSummaryBytes :=
  ⟨encodedSize_dict_pos _, (encodedSize_le_sizeBound _).trans (by decide +kernel)⟩

/-- **The paths agree on all summaries of a size if and only if that size is within the
budget.** -/
theorem paths_agree_iff (n : Nat) :
    (∀ c : FinishCase, c.size = n → c.Agree) ↔ n ≤ maxJobSummaryBytes := by
  constructor
  · intro hall
    by_contra hexceeds
    obtain ⟨_, hbase⟩ := longSummary_base
    have hsize : (longCase (n - encodedSize (.dict (longSummary 0)))).size = n := by
      rw [longCase_size]
      omega
    exact longCase_disagrees (by omega) (hall _ hsize)
  · intro hfits c hc
    exact paths_agree c (by omega)

/-- A protocol of 262144 characters beside the pairs is too much. -/
theorem long_summary_disagrees : ¬ (longCase 262144).Agree := by
  refine longCase_disagrees ?_
  rw [longCase_size]
  have hmax : maxJobSummaryBytes = 262144 := rfl
  have hpos := longSummary_base.1
  omega

end RcloneSync
