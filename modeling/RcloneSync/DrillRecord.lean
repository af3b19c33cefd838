/-
RcloneSync/DrillRecord.lean

A restore drill over several pairs: the summary of its reports (`run_restore_test`), the rows
that are stored of it, and what `evaluate_restore_evidence` reads out of them.

The summary carries one report for each pair and one entry for the drill itself, under the
name "restore-drill".  A job has one row for each name, so the entry of the drill replaces the
report of a pair that has the same name; every other report is found again under the history
key of its pair (`restore_drill_agrees`).  What is found is classified, and a drill that was
cancelled, found a difference or could not clean up is classified neither as passed nor as
partly passed.

The reports of one run have different names, as the configuration guarantees, and different
history keys.  A summary beyond its byte budget is stored as a preview, which has at most a
hundred entries and may have cut texts in them (`RecordedDrill.cut_names`); and where the clock
was set back, an older attempt passes for the last one.
-/
import RcloneSync.JsonSize
import RcloneSync.RestoreDrill

namespace RcloneSync

open Py

/-! ### The summary of a drill -/

/-- A pair's turn: the pair, and what its drill meets unless the run was cancelled before. -/
structure DrillTurn where
  pair : Dict
  logFile : String
  course : Option PairDrill

/-- A run of the drill, with what its summary takes from the caller. -/
structure DrillRun where
  env : EvidenceEnv
  sampleFiles : Int
  maxTotalMb : Int
  turns : List DrillTurn
  /-- it was started by the scheduler, for this slot -/
  scheduled : Option String
  jobId : Nat

/-- The report of a turn. -/
def DrillRun.report (run : DrillRun) (t : DrillTurn) : Dict :=
  match t.course with
  | none => cancelledReport run.env t.pair
  | some w => runPairRestoreTest ⟨run.env, t.pair, run.sampleFiles, run.maxTotalMb, t.logFile⟩ w

def DrillRun.results (run : DrillRun) : List Dict := run.turns.map run.report

/-- `sum(int(item.get(key) or 0) for item in results)`; the counts are whole numbers. -/
def sumOf (key : String) (results : List Dict) : Int :=
  (results.map fun r => ((countOf r key).toOption).getD 0).sum

/-- `bool(results) and all(item.get("ok") for item in results)`. -/
def allOk (results : List Dict) : Bool :=
  results ≠ [] && results.all fun r => truthy (Dict.get r "ok")

def anyCancelled (results : List Dict) : Bool :=
  results.any fun r => truthy (Dict.get r "cancelled")

/-- `AGGREGATE_RUN_NAME`. -/
def aggregateRunName : String := "restore-drill"

/-- The entry of the drill itself. -/
def DrillRun.aggregate (run : DrillRun) : Dict :=
  [("name", .str aggregateRunName), ("ok", .bool (allOk run.results)),
   ("verified", .int (sumOf "verified" run.results)),
   ("sample_size", .int (sumOf "sample_size" run.results)),
   ("pairs_tested", .int run.results.length)] ++
    if anyCancelled run.results then [("cancelled", .bool true)] else []

/-- The history key of the drill itself. -/
def DrillRun.aggregateKey (run : DrillRun) : String :=
  if run.scheduled.isSome then "restoretest:global" else "restoretest:manual"

/-- `history_keys`; the scheduler sets the key of the drill once more. -/
def DrillRun.historyKeys (run : DrillRun) : Dict :=
  Dict.set (run.results.foldl (fun keys r =>
    let name := Dict.get r "name"
    if truthy name then
      Dict.set keys (pyStr name)
        (.str (pyStr (pyOr (Dict.get r "history_key") (.str ("restore:" ++ pyStr name)))))
    else keys) []) aggregateRunName (.str run.aggregateKey)

/-- The entries of the summary, one for each turn and one for the drill. -/
def DrillRun.entries (run : DrillRun) : List Dict := run.results ++ [run.aggregate]

/-- The summary without its outcome. -/
def DrillRun.plainSummary (run : DrillRun) : Dict :=
  [("kind", .str "restoretest"), ("ok", .bool (allOk run.results)),
   ("cancelled", .bool (anyCancelled run.results)),
   ("trigger", .str (if run.scheduled.isSome then "scheduler" else "manual")),
   ("pairs", .list (run.entries.map Value.dict)),
   ("verified_files", .int (sumOf "verified" run.results)),
   ("sampled_files", .int (sumOf "sample_size" run.results)),
   ("history_keys", .dict run.historyKeys), ("job_id", .int run.jobId)] ++
    if run.results = [] then [("error", .str "Kein passendes Pair ausgewählt")] else []

/-- The summary that `run_restore_test` returns, with the slots that the scheduler adds. -/
def DrillRun.summary (run : DrillRun) : Except PyError Dict := do
  let plain := run.plainSummary
  let summary :=
    if ← isPartialRestoreSummary plain then Dict.set plain "outcome" (.str "partial") else plain
  .ok (match run.scheduled with
    | none => summary
    | some slot => Dict.set summary "scheduler_slots"
        (.dict (if slot = "" then [] else [(aggregateRunName, .str slot)])))

/-- The name of a turn's pair. -/
def DrillTurn.name (t : DrillTurn) : String := t.pair.textOr "name" "?"

/-- The files differ or are not those of the sample, the turn was cancelled, or its directory
could not be removed. -/
def DrillTurn.Spoiled (t : DrillTurn) : Prop := ∀ w, t.course = some w → w.Spoiled

/-! ### What each entry says -/

/-- An entry that is stored under its name. -/
structure Recordable (name : String) (d : Dict) : Prop where
  readable : Readable d
  name_eq : d.get "name" = .str name
  stripped : strip name = name
  named : name ≠ ""
  notDry : isDryRun d = false

theorem strippedText_of_get {d : Dict} {key text : String} (h : d.get key = .str text) :
    strippedText d key = strip text := by
  unfold strippedText Dict.textOr
  rw [h]
  by_cases hblank : text = ""
  · subst hblank
    rfl
  · simp [pyOr, hblank]

theorem Recordable.strippedText_eq {name : String} {d : Dict} (h : Recordable name d) :
    strippedText d "name" = name := (strippedText_of_get h.name_eq).trans h.stripped

/-- The reports of a drill. -/
theorem DrillRun.report_readable (run : DrillRun) (t : DrillTurn) : Readable (run.report t) := by
  unfold DrillRun.report
  cases t.course with
  | none => exact cancelledReport_readable run.env t.pair
  | some w => exact (report_cases _ w).1.readable (RcloneSync.report_readable _)

/-- A report names its pair, and the key under which it is to be found. -/
theorem DrillRun.report_get (run : DrillRun) (t : DrillTurn) :
    (run.report t).get "name" = .str t.name ∧
      (run.report t).get "history_key" = .str (restoreHistoryKey run.env t.pair) ∧
      (run.report t).get "dry_run" = .none := by
  unfold DrillRun.report
  cases t.course with
  | none => exact ⟨rfl, rfl, rfl⟩
  | some w =>
    have hrewrites := (report_cases
      ⟨run.env, t.pair, run.sampleFiles, run.maxTotalMb, t.logFile⟩ w).1
    exact ⟨hrewrites.frame (by decide), hrewrites.frame (by decide),
      hrewrites.frame (by decide)⟩

theorem DrillRun.report_recordable (run : DrillRun) {t : DrillTurn}
    (hname : strippedText t.pair "name" = t.name) (hnamed : t.name ≠ "") :
    Recordable t.name (run.report t) where
  readable := run.report_readable t
  name_eq := (run.report_get t).1
  stripped := by
    rw [← hname, strippedText, strip_idem]
  named := hnamed
  notDry := by simp [isDryRun, (run.report_get t).2.2]

theorem DrillRun.aggregate_recordable (run : DrillRun) :
    Recordable aggregateRunName run.aggregate where
  readable := by
    unfold DrillRun.aggregate
    cases anyCancelled run.results
    · refine ⟨rfl, by simp [typedMember], ?_⟩
      simp only [List.append_nil, List.forall_mem_cons, Bool.false_eq_true, if_false]
      decide
    · refine ⟨rfl, by simp [typedMember], ?_⟩
      simp only [List.cons_append, List.nil_append, List.forall_mem_cons, if_true]
      decide
  name_eq := rfl
  stripped := by decide
  named := by decide
  notDry := by
    unfold DrillRun.aggregate
    cases anyCancelled run.results <;> rfl

/-- A turn that was spoiled is reported as failed. -/
theorem DrillRun.report_failing (run : DrillRun) {t : DrillTurn} (h : t.Spoiled) :
    Failing 36 (run.report t) := by
  unfold DrillRun.report
  cases hcourse : t.course with
  | none => exact cancelledReport_failing run.env t.pair
  | some w => exact (report_cases _ w).2.resolve_right fun hnot => hnot (h w hcourse)

/-! ### The summary -/

theorem partialResults_total {ds : List Dict}
    (h : ∀ d ∈ ds, ∃ b, isVerifiedPartial d = .ok b) (seen : Bool) :
    ∃ b, partialResults (ds.map Value.dict) seen = .ok b := by
  induction ds generalizing seen with
  | nil => exact ⟨seen, rfl⟩
  | cons d ds ih =>
    have ih := ih fun d' hd' => h d' (List.mem_cons_of_mem _ hd')
    obtain ⟨b, hb⟩ := h d List.mem_cons_self
    rw [List.map_cons, partialResults]
    refine total_ite ⟨_, rfl⟩ (total_ite (total_ite ⟨_, rfl⟩ (ih seen)) ?_)
    rw [hb]
    show ∃ a, (if b = true then _ else _) = Except.ok a
    exact total_ite (ih true) (total_ite ⟨_, rfl⟩ (ih seen))

theorem Readable.partial_total {d : Dict} (h : Readable d) : ∃ b, isVerifiedPartial d = .ok b :=
  isVerifiedPartial_total (h.get_typed _)

theorem DrillRun.entries_readable (run : DrillRun) : ∀ d ∈ run.entries, Readable d := by
  intro d hd
  rcases List.mem_append.mp hd with hd | hd
  · obtain ⟨t, -, rfl⟩ := List.mem_map.mp hd
    exact run.report_readable t
  · rw [List.mem_singleton.mp hd]
    exact run.aggregate_recordable.readable

theorem DrillRun.historyKeys_wellFormed (run : DrillRun) :
    (Value.dict run.historyKeys).wellFormed = true := by
  have hfold : ∀ (results : List Dict) (acc : Dict), (Value.dict acc).wellFormed = true →
      (Value.dict (results.foldl (fun keys r =>
        if truthy (Dict.get r "name") then
          Dict.set keys (pyStr (Dict.get r "name")) (.str (pyStr (pyOr (Dict.get r "history_key")
            (.str ("restore:" ++ pyStr (Dict.get r "name"))))))
        else keys) acc)).wellFormed = true := by
    intro results
    induction results with
    | nil => exact fun _ h => h
    | cons r results ih =>
      intro acc h
      rw [List.foldl_cons]
      refine ih _ ?_
      split_ifs
      · exact wellFormed_set h rfl
      · exact h
  exact wellFormed_set (hfold run.results [] rfl) rfl

theorem DrillRun.plainSummary_wellFormed (run : DrillRun) :
    (Value.dict run.plainSummary).wellFormed = true := by
  have hkeys := run.historyKeys_wellFormed
  have hentries : (Value.list (run.entries.map Value.dict)).wellFormed = true := by
    refine wellFormedItems_iff.mpr fun x hx => ?_
    obtain ⟨d, hd, rfl⟩ := List.mem_map.mp hx
    exact (run.entries_readable d hd).wellFormed
  refine wellFormed_dict_iff.mpr ⟨?_, ?_⟩
  · unfold DrillRun.plainSummary
    intro e he
    simp only [List.cons_append, List.nil_append, List.mem_cons] at he
    rcases he with rfl | rfl | rfl | rfl | rfl | rfl | rfl | rfl | rfl | he
    · rfl
    · rfl
    · rfl
    · rfl
    · exact hentries
    · rfl
    · rfl
    · exact hkeys
    · rfl
    · split_ifs at he
      · rw [List.mem_singleton.mp he]
        rfl
      · cases he
  · unfold DrillRun.plainSummary
    by_cases hnone : run.results = []
    · rw [if_pos hnone]
      simp only [List.cons_append, List.nil_append, List.map_cons, List.map_nil]
      decide
    · rw [if_neg hnone]
      simp only [List.append_nil, List.map_cons, List.map_nil]
      decide

theorem DrillRun.plainSummary_absent (run : DrillRun) :
    run.plainSummary.get "dry_run" = .none ∧ run.plainSummary.get "due" = .none := by
  unfold DrillRun.plainSummary
  by_cases hnone : run.results = []
  · rw [if_pos hnone]
    exact ⟨rfl, rfl⟩
  · rw [if_neg hnone]
    exact ⟨rfl, rfl⟩

theorem DrillRun.plainSummary_short (run : DrillRun) :
    ∀ e ∈ run.plainSummary, e.1.length ≤ 128 := by
  have hkeys : ∀ key ∈ ["kind", "ok", "cancelled", "trigger", "pairs", "verified_files",
      "sampled_files", "history_keys", "job_id", "error"], key.length ≤ 128 := by decide
  intro e he
  refine hkeys e.1 ?_
  have hmem : e.1 ∈ run.plainSummary.map Prod.fst := List.mem_map_of_mem he
  unfold DrillRun.plainSummary at hmem
  by_cases hnone : run.results = []
  · rw [if_pos hnone] at hmem
    exact hmem
  · rw [if_neg hnone, List.append_nil] at hmem
    exact List.mem_append_left ["error"] hmem

/-- A summary of the run: its members, with what may be added to them. -/
structure Summarizes (run : DrillRun) (summary : Dict) : Prop where
  wellFormed : (Value.dict summary).wellFormed = true
  short : ∀ e ∈ summary, e.1.length ≤ 128
  frame : ∀ key ∉ ["outcome", "scheduler_slots"], summary.get key = run.plainSummary.get key

theorem Summarizes.set {run : DrillRun} {summary : Dict} (h : Summarizes run summary)
    {key : String} (hkey : key ∈ ["outcome", "scheduler_slots"]) {v : Value}
    (hv : v.wellFormed = true) : Summarizes run (summary.set key v) where
  wellFormed := wellFormed_set h.wellFormed hv
  short := by
    have hshort : ∀ key ∈ ["outcome", "scheduler_slots"], key.length ≤ 128 := by decide
    intro e he
    rcases Dict.mem_of_mem_set he with heq | he
    · rw [heq]
      exact hshort key hkey
    · exact h.short e he
  frame := by
    intro k hk
    have hne : k ≠ key := fun heq => hk (heq ▸ hkey)
    rw [Dict.get_set_ne _ _ hne]
    exact h.frame k hk

/-- Whether a summary of the run is one of a partial drill can always be told. -/
theorem Summarizes.partial_total {run : DrillRun} {summary : Dict} (h : Summarizes run summary) :
    ∃ b, isPartialRestoreSummary summary = .ok b := by
  have hpairs : summary.get "pairs" = .list (run.entries.map Value.dict) := by
    rw [h.frame _ (by decide)]
    rfl
  have hresults := partialResults_total
    (fun d hd => (run.entries_readable d hd).partial_total) false
  unfold isPartialRestoreSummary
  rw [hpairs]
  refine total_ite ⟨_, rfl⟩ (total_ite ⟨_, rfl⟩ (total_ite ⟨_, rfl⟩ ?_))
  split
  · exact ⟨_, rfl⟩
  · rename_i results _ heq
    rw [← Value.list.inj heq]
    exact hresults
  · exact ⟨_, rfl⟩

theorem DrillRun.exists_summary (run : DrillRun) :
    ∃ summary, run.summary = .ok summary ∧ Summarizes run summary := by
  have hplain : Summarizes run run.plainSummary :=
    ⟨run.plainSummary_wellFormed, run.plainSummary_short, fun _ _ => rfl⟩
  obtain ⟨b, hb⟩ := hplain.partial_total
  have houtcome : Summarizes run
      (if b = true then Dict.set run.plainSummary "outcome" (.str "partial")
        else run.plainSummary) := by
    split_ifs
    · exact hplain.set (by decide) rfl
    · exact hplain
  unfold DrillRun.summary
  dsimp only
  rw [hb]
  refine ⟨_, rfl, ?_⟩
  cases run.scheduled with
  | none => exact houtcome
  | some slot =>
    refine houtcome.set (by decide) ?_
    by_cases hslot : slot = ""
    · rw [if_pos hslot]
      rfl
    · rw [if_neg hslot]
      rfl

/-! ### The rows of the entries -/

/-- The history key under which an entry is stored. -/
def entryKey (kind : String) (summary d : Dict) (name : String) : String :=
  strip (pyStr (pyOr (Dict.get d "history_key")
    (pyOr (Dict.get (innerDict summary "history_keys") name)
      (.str (defaultHistoryKey kind name)))))

/-- The row of an entry. -/
structure RowOf (ctx : ResultContext) (summary d : Dict) (name : String) (row : PairRun) :
    Prop where
  key : row.key = (ctx.jobId, name)
  historyKey : row.historyKey = entryKey ctx.kind summary d name
  ok : row.ok = decide (d.get "ok" = .bool true)
  ended : row.endedAt = some ctx.endedAt
  closed : row.status ≠ .running
  result : ∃ slot, row.resultJson = jsonDumpsBounded
    (.dict (recordedPair summary d row.historyKey slot false)) maxPairResultBytes

section Rows

variable {ctx : ResultContext} {summary : Dict}

/-- Recording an entry sets at most four members. -/
theorem recordedPair_closed {P : Nat → Dict → Prop} (hmono : ∀ n d, P n d → P (n + 1) d)
    (hset : ∀ n d key v, key ∈ filledIn → typedMember key v = true → v.wellFormed = true →
      P n d → P (n + 1) (Dict.set d key v)) {d : Dict} (h : P 0 d) (historyKey : String)
    (slot : Option String) (dryRun : Bool) : P 4 (recordedPair summary d historyKey slot dryRun) := by
  have htrigger : P 1 (if strippedText summary "trigger" ≠ "" ∧
      truthy (Dict.get d "trigger") = false then
        Dict.set d "trigger" (.str (strippedText summary "trigger")) else d) := by
    by_cases hneeded : strippedText summary "trigger" ≠ "" ∧
        truthy (Dict.get d "trigger") = false
    · rw [if_pos hneeded]
      exact hset 0 d _ _ (by decide) rfl rfl h
    · rw [if_neg hneeded]
      exact hmono 0 d h
  have hdry : ∀ d', P 3 d' →
      P 4 (if dryRun = true then Dict.set d' "dry_run" (.bool true) else d') := by
    intro d' hd'
    by_cases hdry : dryRun = true
    · rw [if_pos hdry]
      exact hset 3 d' "dry_run" _ (by decide) rfl rfl hd'
    · rw [if_neg hdry]
      exact hmono 3 d' hd'
  have hkey := hset 1 _ "history_key" (.str historyKey) (by decide) rfl rfl htrigger
  unfold recordedPair
  cases slot with
  | none => exact hdry _ (hmono 2 _ hkey)
  | some text => exact hdry _ (hset 2 _ "scheduled_slot" (.str text) (by decide) rfl rfl hkey)

theorem recordedPair_readable {d : Dict} (h : Readable d) (historyKey : String)
    (slot : Option String) (dryRun : Bool) :
    Readable (recordedPair summary d historyKey slot dryRun) := by
  have hshort : ∀ key ∈ filledIn, key.length ≤ 128 := by decide
  refine recordedPair_closed (P := fun _ => Readable) (fun _ _ h => h) ?_ h historyKey slot dryRun
  intro _ d' key v hkey htyped hwf hd'
  exact hd'.set key v hwf htyped (hshort key hkey)

theorem recordedPair_failing {d : Dict} (h : Failing 36 d) (historyKey : String)
    (slot : Option String) (dryRun : Bool) :
    Failing 40 (recordedPair summary d historyKey slot dryRun) := by
  have hother : ∀ key ∈ filledIn,
      key ∉ ["ok", "verified", "sample_status", "temp_cleanup_failed"] := by decide
  refine recordedPair_closed (P := fun n => Failing (36 + n))
    (fun n _ h => h.mono (Nat.le_succ (36 + n))) ?_ h historyKey slot dryRun
  intro n d' key v hkey _ _ hd'
  exact hd'.set key v (hother key hkey)

/-- The row that is made of a named entry, once it is known whether it counts as partial. -/
def recordedRow (ctx : ResultContext) (summary d : Dict) (name : String) (slot : Option String)
    (isPartial : Bool) : PairRun :=
  let historyKey := entryKey ctx.kind summary d name
  let pair := recordedPair summary d historyKey slot false
  { jobId := ctx.jobId
    pairName := name
    historyKey := historyKey
    ok := Dict.get pair "ok" = .bool true
    dryRun := false
    status := if isPartial then .warning else pairStatus ctx.status pair
    startedAt := ctx.startedAt
    endedAt := some ctx.endedAt
    scheduledSlot := slot
    resultJson := jsonDumpsBounded (.dict pair) maxPairResultBytes }

theorem reportedRun_eq (hkind : ctx.kind = "restoretest") {d : Dict}
    (hdry : (isDryRun d || isDryRun summary) = false) (hnamed : strippedText d "name" ≠ "") :
    ∃ slot, reportedRun ctx summary (.dict d) = (do
      let isPartial ←
        if ← isVerifiedPartial (recordedPair summary d
            (entryKey ctx.kind summary d (strippedText d "name")) slot false) then .ok true
        else if strippedText d "name" = "restore-drill" then isPartialRestoreSummary summary
        else .ok false
      .ok (some (recordedRow ctx summary d (strippedText d "name") slot isPartial))) := by
  refine ⟨textOrNone (pyStr (pyOr (Dict.get d "scheduled_slot")
    (pyOr (Dict.get (innerDict summary "scheduler_slots") (strippedText d "name"))
      (.str "")))), ?_⟩
  unfold reportedRun
  dsimp only
  rw [if_neg hnamed, hdry, if_pos ⟨hkind, rfl⟩]
  rfl

/-- Each entry of a drill gives a row. -/
theorem reportedRun_recordable (hkind : ctx.kind = "restoretest")
    (hdry : isDryRun summary = false) (hverdict : ∃ b, isPartialRestoreSummary summary = .ok b)
    {name : String} {d : Dict} (hd : Recordable name d) :
    ∃ row, reportedRun ctx summary (.dict d) = .ok (some row) ∧
      RowOf ctx summary d name row := by
  have hname := hd.strippedText_eq
  obtain ⟨total, htotal⟩ := hverdict
  have hnotDry : (isDryRun d || isDryRun summary) = false := by
    rw [hd.notDry, hdry]
    rfl
  have hnamed : strippedText d "name" ≠ "" := hname ▸ hd.named
  obtain ⟨slot, heq⟩ := reportedRun_eq hkind hnotDry hnamed
  obtain ⟨b, hb⟩ := (recordedPair_readable hd.readable
    (entryKey ctx.kind summary d name) slot false).partial_total
  have hrow : ∃ isPartial, reportedRun ctx summary (.dict d)
      = .ok (some (recordedRow ctx summary d name slot isPartial)) := by
    rw [heq, hname, hb]
    cases b with
    | true => exact ⟨true, rfl⟩
    | false =>
      by_cases hdrill : name = "restore-drill"
      · refine ⟨total, ?_⟩
        simp only [bind, Except.bind, if_pos hdrill, htotal, Bool.false_eq_true, if_false]
      · refine ⟨false, ?_⟩
        simp only [bind, Except.bind, if_neg hdrill, Bool.false_eq_true, if_false]
  obtain ⟨isPartial, hrun⟩ := hrow
  obtain ⟨hkey, -, hagrees⟩ := reportedRun_agrees hrun
  exact ⟨_, hrun, hname ▸ hkey, rfl, hagrees.1, rfl, hagrees.ended, slot, rfl⟩

/-- The table after rows were stored one after the other. -/
def storeRows (rows : List PairRun) (before : List PairRun) : List PairRun :=
  rows.foldl (fun after row => upsertPairRun row after) before

theorem storeReported_rows {ds : List Dict} {rows : List PairRun}
    (h : List.Forall₂ (fun d row => reportedRun ctx summary (.dict d) = .ok (some row)) ds rows)
    (s : JobStore) : ∃ t, storeReported ctx summary (ds.map Value.dict) s = .ok t ∧
      t.pairRuns = storeRows rows s.pairRuns := by
  induction h generalizing s with
  | nil => exact ⟨s, rfl, rfl⟩
  | @cons d row ds rows hrow _ ih =>
    obtain ⟨t, ht, hruns⟩ :=
      ih (storeRun (row.ok && !row.dryRun) (ctx.status ≠ .running) ctx.endedAt row s)
    refine ⟨t, ?_, hruns⟩
    rw [List.map_cons, storeReported, hrow]
    exact ht

/-- A row in the table that was stored as `row`; it may have kept its start. -/
def StoredAs (row r : PairRun) : Prop := r = { row with startedAt := r.startedAt }

theorem StoredAs.key {row r : PairRun} (h : StoredAs row r) : r.key = row.key := by
  rw [h]
  rfl

theorem mem_upsert_cases {row r : PairRun} {before : List PairRun}
    (h : r ∈ upsertPairRun row before) : (r ∈ before ∧ r.key ≠ row.key) ∨ StoredAs row r := by
  unfold upsertPairRun Tables.upsert at h
  split_ifs at h with hfound
  · obtain ⟨old, hold, rfl⟩ := List.mem_map.mp h
    split_ifs with hkey
    · obtain ⟨hjob, hname⟩ := Prod.mk.inj (of_decide_eq_true hkey)
      refine Or.inr ?_
      unfold StoredAs
      dsimp only
      rw [hjob, hname]
    · exact Or.inl ⟨hold, fun hsame => hkey (decide_eq_true hsame)⟩
  · rcases List.mem_append.mp h with hold | hnew
    · refine Or.inl ⟨hold, fun hsame => hfound ?_⟩
      rw [Tables.find, List.find?_isSome]
      exact ⟨r, hold, decide_eq_true hsame⟩
    · obtain rfl := List.mem_singleton.mp hnew
      exact Or.inr rfl

theorem mem_storeRows_cases {rows before : List PairRun} {r : PairRun}
    (h : r ∈ storeRows rows before) :
    (r ∈ before ∧ ∀ row ∈ rows, r.key ≠ row.key) ∨ ∃ row ∈ rows, StoredAs row r := by
  induction rows generalizing before with
  | nil => exact Or.inl ⟨h, by simp⟩
  | cons row rows ih =>
    rcases ih h with ⟨hr, hne⟩ | ⟨row', hrow', hstored⟩
    · rcases mem_upsert_cases hr with ⟨hr, hkey⟩ | hstored
      · exact Or.inl ⟨hr, List.forall_mem_cons.mpr ⟨hkey, hne⟩⟩
      · exact Or.inr ⟨row, List.mem_cons_self, hstored⟩
    · exact Or.inr ⟨row', List.mem_cons_of_mem _ hrow', hstored⟩

theorem mem_upsert_of_ne {row r : PairRun} {before : List PairRun} (hr : r ∈ before)
    (hne : r.key ≠ row.key) : r ∈ upsertPairRun row before := by
  unfold upsertPairRun Tables.upsert
  split_ifs
  · exact List.mem_map.mpr ⟨r, hr, if_neg (by simpa using hne)⟩
  · exact List.mem_append_left _ hr

/-- A row that none of the stored rows replaces stays. -/
theorem mem_storeRows_of_ne {rows before : List PairRun} {r : PairRun} (hr : r ∈ before)
    (hne : ∀ row ∈ rows, r.key ≠ row.key) : r ∈ storeRows rows before := by
  induction rows generalizing before with
  | nil => exact hr
  | cons row rows ih =>
    obtain ⟨hfirst, hne⟩ := List.forall_mem_cons.mp hne
    exact ih (mem_upsert_of_ne hr hfirst) hne

theorem upsertPairRun_of_fresh {row : PairRun} {before : List PairRun}
    (h : row.key ∉ before.map PairRun.key) : upsertPairRun row before = before ++ [row] := by
  unfold upsertPairRun Tables.upsert
  rw [if_neg]
  intro hfound
  obtain ⟨r, hr⟩ := Option.isSome_iff_exists.mp hfound
  exact h (List.mem_map.mpr ⟨r, Tables.mem_of_find hr, Tables.key_of_find hr⟩)

/-- Rows with keys of their own are added behind the others. -/
theorem storeRows_of_fresh {rows before : List PairRun} (hkeys : (rows.map PairRun.key).Nodup)
    (hfresh : ∀ row ∈ rows, row.key ∉ before.map PairRun.key) :
    storeRows rows before = before ++ rows := by
  induction rows generalizing before with
  | nil => exact (List.append_nil before).symm
  | cons first rows ih =>
    obtain ⟨hfirst, hkeys⟩ := List.nodup_cons.mp hkeys
    obtain ⟨hnew, hfresh⟩ := List.forall_mem_cons.mp hfresh
    show storeRows rows (upsertPairRun first before) = _
    rw [upsertPairRun_of_fresh hnew, ih hkeys, List.append_assoc, List.singleton_append]
    intro row hrow hmem
    rw [List.map_append] at hmem
    rcases List.mem_append.mp hmem with hold | hsame
    · exact hfresh row hrow hold
    · have hsame : row.key = first.key := by simpa using hsame
      exact hfirst (hsame ▸ List.mem_map_of_mem hrow)

/-- What a stored row leaves of the rows that meet a condition it does not meet itself. -/
theorem filter_upsertPairRun {p : PairRun → Bool} {row : PairRun}
    (hp : ∀ r, StoredAs row r → p r = false) (before : List PairRun) :
    (upsertPairRun row before).filter p
      = before.filter fun r => p r && !decide (r.key = row.key) := by
  unfold upsertPairRun Tables.upsert
  by_cases hfound : (Tables.find PairRun.key before row.key).isSome = true
  · rw [if_pos hfound]
    clear hfound
    unfold Tables.updateWhere
    induction before with
    | nil => rfl
    | cons r before ih =>
      rw [List.map_cons, List.filter_cons, ih, List.filter_cons]
      by_cases hkey : r.key = row.key
      · obtain ⟨hjob, hname⟩ := Prod.mk.inj hkey
        have hnot : p { row with
            jobId := r.jobId, pairName := r.pairName, startedAt := r.startedAt } = false := by
          refine hp _ ?_
          unfold StoredAs
          dsimp only
          rw [hjob, hname]
        simp [hkey, hnot]
      · simp [hkey]
  · rw [if_neg hfound, List.filter_append, List.filter_singleton, hp row rfl]
    have hfresh : ∀ r ∈ before, r.key ≠ row.key := by
      intro r hr heq
      refine hfound ?_
      rw [Tables.find, List.find?_isSome]
      exact ⟨r, hr, decide_eq_true heq⟩
    have hsame : before.filter p = before.filter fun r => p r && !decide (r.key = row.key) :=
      List.filter_congr fun r hr => by simp [hfresh r hr]
    simpa using hsame

theorem storeRows_concat (rows before : List PairRun) (last : PairRun) :
    storeRows (rows ++ [last]) before = upsertPairRun last (storeRows rows before) := by
  simp [storeRows]

end Rows

/-! ### A drill that is recorded -/

/-- A run of the drill whose job is running in the tables, at the moment in which its summary
is stored. -/
structure RecordedDrill where
  run : DrillRun
  store : JobStore
  job : Job
  status : JobStatus
  stagedAt : Time
  now : Time
  found : store.job run.jobId = some job
  running : job.status = .running
  kind : job.kind = "restoretest"
  terminal : status ≠ .running
  unstaged : store.intent run.jobId = none
  /-- the job was started with no attempt but the one of the drill itself -/
  own : ∀ r ∈ store.pairRuns, r.jobId = run.jobId → r.pairName = aggregateRunName
  /-- what is stored so far can be read -/
  readable : ∀ r ∈ store.pairRuns, ∃ d, r.result = .ok d
  /-- the configuration strips the names of the pairs, and keeps them different -/
  named : ∀ t ∈ run.turns, strippedText t.pair "name" = t.name ∧ t.name ≠ ""
  names : (run.turns.map DrillTurn.name).Nodup
  /-- the configuration keeps the ids of the pairs different -/
  keys : (run.turns.map fun t => strip (restoreHistoryKey run.env t.pair)).Nodup
  /-- `float(x)` of a float is that float -/
  toFloat : ∀ x, run.env.toFloat (.float x) = .ok x

/-- The summary is within its byte budget. -/
def RecordedDrill.Fits (D : RecordedDrill) : Prop :=
  ∀ summary, D.run.summary = .ok summary → encodedSize (.dict summary) ≤ maxJobSummaryBytes

/-- No attempt of another job under the history key of a pair is dated later than the drill. -/
def RecordedDrill.InOrder (D : RecordedDrill) : Prop :=
  ∀ t ∈ D.run.turns, ∀ r ∈ D.store.pairRuns, r.jobId ≠ D.run.jobId →
    r.historyKey = strip (restoreHistoryKey D.run.env t.pair) → r.seenAt ≤ D.now

/-- No pair is named like the drill itself. -/
def RecordedDrill.NoNamesake (D : RecordedDrill) : Prop :=
  ∀ t ∈ D.run.turns, t.name ≠ aggregateRunName

/-- The tables after the summary was stored (`job_finish_external`). -/
def RecordedDrill.after (D : RecordedDrill) : JobStore :=
  match D.run.summary with
  | .ok summary => (finishExternal D.run.jobId D.status (some summary) D.stagedAt D.now D.store).2
  | .error _ => D.store

/-- The report of a turn is the last attempt under the history key of its pair. -/
def RecordedDrill.Finds (D : RecordedDrill) (t : DrillTurn) : Prop :=
  ∃ (row : PairRun) (d : Dict), (drillHistory D.run.env t.pair D.after.pairRuns).lastResult = some row ∧
    row.jobId = D.run.jobId ∧ row.pairName = t.name ∧
    row.historyKey = strip (restoreHistoryKey D.run.env t.pair) ∧
    row.resultJson = jsonDumpsBounded (.dict d) maxPairResultBytes ∧
    ∀ key ∉ filledIn, d.get key = (D.run.report t).get key

/-- A turn has one classification, and a spoiled turn is neither passed nor partly passed. -/
def RecordedDrill.Classifies (D : RecordedDrill) (t : DrillTurn) : Prop :=
  ∀ now, ∃ v, pairEvidence D.run.env t.pair now D.after = .ok v ∧
    (t.Spoiled → v.state ≠ .passed ∧ v.state ≠ .incomplete)

/-- What the storing of results is told about the job. -/
def RecordedDrill.context (D : RecordedDrill) : ResultContext :=
  resultContext D.job D.status D.now

theorem RecordedDrill.job_id (D : RecordedDrill) : D.job.id = D.run.jobId :=
  Tables.key_of_find D.found

/-- What storing the results of a job leaves where each of its entries gives a row. -/
theorem storePairResults_stored {ctx : ResultContext} {summary : Dict} {ds : List Dict}
    {rows : List PairRun} {s : JobStore}
    (hpairs : innerList summary "pairs" = ds.map Value.dict)
    (hdue : innerList summary "due" = [])
    (hrows : List.Forall₂ (fun d row => reportedRun ctx summary (.dict d) = .ok (some row)) ds
      rows)
    (hterminal : ctx.status ≠ .running) :
    ∃ t, storePairResults ctx summary s = .ok t ∧
      t.pairRuns = Tables.updateWhere (isOpenOf ctx.jobId)
        (closeAttempt (unfinishedStatus ctx.status) ctx.endedAt
          (some (Dict.textOr summary "error" ""))) (storeRows rows s.pairRuns) := by
  obtain ⟨u, hu, hruns⟩ := storeReported_rows hrows s
  have hnothing : storeDue ctx summary u = u := by
    unfold storeDue
    rw [hdue]
    split_ifs <;> rfl
  unfold storePairResults
  rw [hpairs, hu]
  show ∃ t, (if ctx.status = .running then _ else _) = Except.ok t ∧ _
  rw [if_neg hterminal, hnothing]
  refine ⟨_, rfl, ?_⟩
  rw [← hruns]
  rfl

/-- Storing the results of a drill stores the rows of its entries. -/
theorem storePairResults_rows {ctx : ResultContext} {summary : Dict} {ds : List Dict}
    {rows : List PairRun} {s : JobStore}
    (hpairs : innerList summary "pairs" = ds.map Value.dict)
    (hdue : innerList summary "due" = [])
    (hrows : List.Forall₂ (fun d row => reportedRun ctx summary (.dict d) = .ok (some row)) ds
      rows)
    (hclosed : (storeRows rows s.pairRuns).any (isOpenOf ctx.jobId) = false)
    (hterminal : ctx.status ≠ .running) :
    ∃ t, storePairResults ctx summary s = .ok t ∧ t.pairRuns = storeRows rows s.pairRuns := by
  obtain ⟨t, ht, hruns⟩ := storePairResults_stored hpairs hdue hrows hterminal
  exact ⟨t, ht, hruns.trans (Tables.updateWhere_of_none hclosed _)⟩

/-- The job that is finished with a summary of the run. -/
def RecordedDrill.finishCase (D : RecordedDrill) {summary : Dict}
    (hsum : Summarizes D.run summary) : FinishCase where
  store := D.store
  id := D.run.jobId
  status := D.status
  summary := some summary
  stagedAt := D.stagedAt
  now := D.now
  running := by rw [D.found, Option.map_some, D.running]
  terminal := D.terminal
  wellFormed := hsum.wellFormed
  staged := fun i hi => by rw [D.unstaged] at hi; cases hi

theorem RecordedDrill.after_eq (D : RecordedDrill) {summary : Dict}
    (hsummary : D.run.summary = .ok summary) (hsum : Summarizes D.run summary) :
    D.after = (D.finishCase hsum).external.2 := by
  unfold RecordedDrill.after
  rw [hsummary]
  rfl

/-- The rows that a recorded drill leaves: one for each turn, and one for the drill itself,
which is stored last. -/
theorem RecordedDrill.after_spec (D : RecordedDrill) (hfits : D.Fits) : ∃ summary rows last,
    List.Forall₂ (fun t row => RowOf D.context summary (D.run.report t) t.name row) D.run.turns
      rows ∧
    RowOf D.context summary D.run.aggregate aggregateRunName last ∧
    (summary.get "history_keys" = .dict D.run.historyKeys) ∧
    D.after.pairRuns = upsertPairRun last (storeRows rows D.store.pairRuns) := by
  obtain ⟨summary, hsummary, hsum⟩ := D.run.exists_summary
  obtain ⟨hnoDry, hnoDue⟩ := D.run.plainSummary_absent
  have hdry : isDryRun summary = false := by
    unfold isDryRun
    rw [hsum.frame _ (by decide), hnoDry]
    rfl
  have hkind : D.context.kind = "restoretest" := D.kind
  have hrow : ∀ name d, Recordable name d → ∃ row,
      reportedRun D.context summary (.dict d) = .ok (some row) ∧
        RowOf D.context summary d name row :=
    fun _ _ hd => reportedRun_recordable hkind hdry hsum.partial_total hd
  obtain ⟨rows, hrows⟩ := exists_forall₂ fun t ht =>
    hrow t.name (D.run.report t) (D.run.report_recordable (D.named t ht).1 (D.named t ht).2)
  obtain ⟨last, hlastRun, hlast⟩ := hrow _ _ D.run.aggregate_recordable
  refine ⟨summary, rows, last, hrows.imp fun _ _ h => h.2, hlast, hsum.frame _ (by decide), ?_⟩
  have hall : List.Forall₂ (fun d row => reportedRun D.context summary (.dict d) = .ok (some row))
      D.run.entries (rows ++ [last]) := by
    refine List.rel_append ?_ (.cons hlastRun .nil)
    exact List.forall₂_map_left_iff.mpr (hrows.imp fun _ _ h => h.1)
  have hpairs : innerList summary "pairs" = D.run.entries.map Value.dict := by
    unfold innerList
    rw [hsum.frame _ (by decide)]
    rfl
  have hdue : innerList summary "due" = [] := by
    unfold innerList
    rw [hsum.frame _ (by decide), hnoDue]
    rfl
  have hended : ∀ row ∈ rows ++ [last], row.status ≠ .running := by
    intro row hrow'
    rcases List.mem_append.mp hrow' with hrow' | hrow'
    · obtain ⟨t, -, ht⟩ := exists_left_of_forall₂ hrows hrow'
      exact ht.2.closed
    · rw [List.mem_singleton.mp hrow']
      exact hlast.closed
  have hjob : D.context.jobId = D.run.jobId := D.job_id
  have hclosed : (storeRows (rows ++ [last]) D.store.pairRuns).any (isOpenOf D.context.jobId)
      = false := by
    refine List.any_eq_false.mpr fun r hr hopen => ?_
    obtain ⟨hrjob, hrunning⟩ := Bool.and_eq_true _ _ ▸ hopen
    rcases mem_storeRows_cases hr with ⟨hold, hne⟩ | ⟨row, hrow', hstored⟩
    · refine hne last (by simp) ?_
      rw [hlast.key]
      have hrjob : r.jobId = D.context.jobId := of_decide_eq_true hrjob
      exact Prod.ext hrjob (D.own r hold (hrjob.trans hjob))
    · refine hended row hrow' ?_
      rw [hstored] at hrunning
      exact of_decide_eq_true hrunning
  obtain ⟨t, ht, hruns⟩ := storePairResults_rows hpairs hdue hall hclosed D.terminal
  obtain ⟨payload, intents, intents', hexternal⟩ :=
    (D.finishCase hsum).external_spec D.found D.running
  rw [(D.finishCase hsum).readBack_of_fits (hfits summary hsummary)] at hexternal
  have ht' : storePairResults (resultContext D.job (D.finishCase hsum).status
      (D.finishCase hsum).now) ((D.finishCase hsum).summary.getD []) (D.finishCase hsum).store
        = .ok t := ht
  rw [D.after_eq hsummary hsum, hexternal, ht']
  exact hruns.trans (storeRows_concat rows _ last)

/-! ### Finding a report again -/

theorem rdropWhile_prefix {p : Char → Bool} {front : List Char} {c : Char}
    (hlast : front.getLast? = some c) (hc : p c = false) (back : List Char) :
    front <+: (front ++ back).rdropWhile p := by
  induction back using List.reverseRecOn with
  | nil =>
    rw [List.append_nil]
    obtain ⟨init, rfl⟩ : ∃ init, front = init ++ [c] := by
      rcases List.eq_nil_or_concat front with rfl | ⟨init, d, rfl⟩
      · cases hlast
      · exact ⟨init, by simpa using hlast⟩
    rw [List.rdropWhile_concat_neg _ _ _ (by simp [hc])]
  | append_singleton back d ih =>
    rw [← List.append_assoc]
    by_cases hd : p d = true
    · rw [List.rdropWhile_concat_pos _ _ _ hd]
      exact ih
    · rw [List.rdropWhile_concat_neg _ _ _ hd, List.append_assoc]
      exact List.prefix_append _ _

/-- Visible text in front stays in front. -/
theorem startsWith_strip {front : String} {c d : Char} (hfirst : front.toList.head? = some c)
    (hc : isSpace c = false) (hlast : front.toList.getLast? = some d) (hd : isSpace d = false)
    (back : String) : front.toList <+: (strip (front ++ back)).toList := by
  rw [strip_toList, stripChars, String.toList_append]
  obtain ⟨cs, hcs⟩ : ∃ cs, front.toList = c :: cs := by
    cases hfront : front.toList with
    | nil =>
      rw [hfront] at hfirst
      cases hfirst
    | cons c' cs =>
      rw [hfront] at hfirst
      exact ⟨cs, by rw [Option.some.inj hfirst]⟩
  have hdrop : (front.toList ++ back.toList).dropWhile isSpace = front.toList ++ back.toList := by
    rw [hcs, List.cons_append, List.dropWhile_cons_of_neg (by simp [hc])]
  rw [hdrop]
  exact rdropWhile_prefix hlast hd _

theorem restoreHistoryKey_prefix (env : EvidenceEnv) (pair : Dict) :
    ("restore:").toList <+: (strip (restoreHistoryKey env pair)).toList := by
  unfold restoreHistoryKey
  split_ifs
  · exact List.IsPrefix.trans (by decide)
      (startsWith_strip (c := 'r') (d := ':') rfl (by decide) rfl (by decide) _)
  · exact List.IsPrefix.trans (by decide)
      (startsWith_strip (c := 'r') (d := ':') rfl (by decide) rfl (by decide) _)

theorem pyOr_str {text : String} (h : text ≠ "") (v : Value) : pyOr (.str text) v = .str text := by
  simp [pyOr, h]

theorem restoreHistoryKey_ne_empty (env : EvidenceEnv) (pair : Dict) :
    strip (restoreHistoryKey env pair) ≠ "" := by
  intro hblank
  have hown := restoreHistoryKey_prefix env pair
  rw [hblank] at hown
  exact absurd hown (by decide)

/-- The history key of a report is that of its pair. -/
theorem entryKey_report (run : DrillRun) (t : DrillTurn) (kind : String) (summary : Dict)
    (name : String) : entryKey kind summary (run.report t) name
      = strip (restoreHistoryKey run.env t.pair) := by
  have hnamed : restoreHistoryKey run.env t.pair ≠ "" := by
    intro hblank
    refine restoreHistoryKey_ne_empty run.env t.pair ?_
    rw [hblank]
    rfl
  unfold entryKey
  rw [(run.report_get t).2.1, pyOr_str hnamed]
  rfl

theorem DrillRun.aggregateKey_eq (run : DrillRun) :
    run.aggregateKey ∈ ["restoretest:global", "restoretest:manual"] := by
  unfold DrillRun.aggregateKey
  split_ifs
  · simp
  · simp

/-- The history key of the drill's own entry. -/
theorem entryKey_aggregate (run : DrillRun) (kind : String) {summary : Dict}
    (hkeys : summary.get "history_keys" = .dict run.historyKeys) :
    entryKey kind summary run.aggregate aggregateRunName = strip run.aggregateKey := by
  have hnone : run.aggregate.get "history_key" = .none := by
    unfold DrillRun.aggregate
    cases anyCancelled run.results <;> rfl
  have hset : Dict.get run.historyKeys aggregateRunName = .str run.aggregateKey := by
    unfold DrillRun.historyKeys
    rw [Dict.get_set, if_pos rfl]
  have hnamed : run.aggregateKey ≠ "" := by
    have hall : ∀ key ∈ ["restoretest:global", "restoretest:manual"], key ≠ "" := by decide
    exact hall _ run.aggregateKey_eq
  unfold entryKey innerDict
  rw [hnone, hkeys]
  show strip (pyStr (pyOr (Dict.get run.historyKeys aggregateRunName) _)) = _
  rw [hset, pyOr_str hnamed]
  rfl

/-- A pair's own key is not the key of a whole drill. -/
theorem restoreHistoryKey_ne (run : DrillRun) (pair : Dict) :
    strip (restoreHistoryKey run.env pair) ≠ strip run.aggregateKey := by
  intro heq
  have hown := restoreHistoryKey_prefix run.env pair
  rw [heq] at hown
  have hall : ∀ key ∈ ["restoretest:global", "restoretest:manual"],
      ¬ ("restore:").toList <+: (strip key).toList := by decide
  exact hall _ run.aggregateKey_eq hown

section Found

variable {D : RecordedDrill}

theorem RecordedDrill.last_found (hfits : D.Fits) (hnames : D.NoNamesake) (horder : D.InOrder)
    {t : DrillTurn} (ht : t ∈ D.run.turns) : ∃ summary row,
      RowOf D.context summary (D.run.report t) t.name row ∧
      lastRun (fun r => r.historyKey = strip (restoreHistoryKey D.run.env t.pair))
        D.after.pairRuns = some row := by
  obtain ⟨summary, rows, last, hrows, hlast, hkeys, hafter⟩ := D.after_spec hfits
  have hkey : ∀ t' row, RowOf D.context summary (D.run.report t') t'.name row →
      strip (restoreHistoryKey D.run.env t'.pair) = row.historyKey := by
    intro t' row hrow
    rw [hrow.historyKey, entryKey_report]
  have hlastKey : last.historyKey = strip D.run.aggregateKey := by
    rw [hlast.historyKey, entryKey_aggregate _ _ hkeys]
  -- the rows of the turns are added behind the others
  have hrowKeys : D.run.turns.map (fun t' => (D.context.jobId, t'.name))
      = rows.map PairRun.key := map_eq_of_forall₂ (hrows.imp fun _ _ h => h.key.symm)
  have hadded : storeRows rows D.store.pairRuns = D.store.pairRuns ++ rows := by
    refine storeRows_of_fresh ?_ ?_
    · rw [← hrowKeys]
      have hnodup := D.names.map (f := fun name => (D.context.jobId, name))
        fun _ _ h => (Prod.mk.inj h).2
      rwa [List.map_map] at hnodup
    · intro row hrow hmem
      obtain ⟨t', ht', hrow'⟩ := exists_left_of_forall₂ hrows hrow
      obtain ⟨r, hr, hsame⟩ := List.mem_map.mp hmem
      obtain ⟨hjob, hname⟩ := Prod.mk.inj (hsame.trans hrow'.key)
      exact hnames t' ht' (hname.symm.trans (D.own r hr (hjob.trans D.job_id)))
  obtain ⟨row, hmem, hrow⟩ : ∃ row ∈ rows, RowOf D.context summary (D.run.report t) t.name row :=
    exists_left_of_forall₂ hrows.flip ht
  refine ⟨summary, row, hrow, ?_⟩
  obtain ⟨before, after, rfl⟩ := List.append_of_mem hmem
  have hhistory : (before ++ row :: after).map PairRun.historyKey
      = D.run.turns.map fun t' => strip (restoreHistoryKey D.run.env t'.pair) :=
    (map_eq_of_forall₂ (hrows.imp fun t' r h => hkey t' r h)).symm
  have hnodup : ((before ++ row :: after).map PairRun.historyKey).Nodup := hhistory ▸ D.keys
  have hlater : ∀ r ∈ after, r.historyKey ≠ row.historyKey := by
    rw [List.map_append, List.map_cons] at hnodup
    have hnot := (List.nodup_cons.mp (List.nodup_append.mp hnodup).2.1).1
    exact fun r hr heq => hnot (heq ▸ List.mem_map_of_mem hr)
  have hseen : ∀ r ∈ before ++ row :: after, r.seenAt = D.now := by
    intro r hr
    obtain ⟨t', -, hr'⟩ := exists_left_of_forall₂ hrows hr
    unfold PairRun.seenAt
    rw [hr'.ended]
    rfl
  have hown : ∀ r, StoredAs last r →
      decide (r.historyKey = strip (restoreHistoryKey D.run.env t.pair)) = false := by
    intro r hr
    rw [hr]
    refine decide_eq_false fun heq => ?_
    exact restoreHistoryKey_ne D.run t.pair (heq.symm.trans hlastKey)
  have hkept : (decide (row.historyKey = strip (restoreHistoryKey D.run.env t.pair)) &&
      !decide (row.key = last.key)) = true := by
    have hne : row.key ≠ last.key := by
      rw [hrow.key, hlast.key]
      exact fun heq => hnames t ht (Prod.mk.inj heq).2
    simp [hne, hkey t row hrow]
  rw [lastRun_eq_newest, hafter, filter_upsertPairRun hown, hadded, ← List.append_assoc,
    List.filter_append, List.filter_cons, if_pos hkept]
  refine Tables.newest_eq_some_iff.mpr ⟨_, _, rfl, fun r hr => ?_, fun r hr => ?_⟩
  · rw [hseen row hmem]
    obtain ⟨hr, hp⟩ := List.mem_filter.mp hr
    have hp := Bool.and_eq_true _ _ ▸ hp
    rcases List.mem_append.mp hr with hr | hr
    · refine horder t ht r hr (fun hjob => ?_) (of_decide_eq_true hp.1)
      have hsame : r.key = last.key := by
        rw [hlast.key]
        exact Prod.ext (hjob.trans D.job_id.symm) (D.own r hr hjob)
      simp [hsame] at hp
    · exact le_of_eq (hseen r (List.mem_append_left _ hr))
  · obtain ⟨hr, hp⟩ := List.mem_filter.mp hr
    have hp := of_decide_eq_true (Bool.and_eq_true _ _ ▸ hp).1
    exact absurd (hp.trans (hkey t row hrow)) (hlater r hr)

theorem drillHistory_of_last {env : EvidenceEnv} {pair : Dict} {rows : List PairRun}
    {row : PairRun} (hname : strippedText pair "name" ≠ "")
    (h : lastRun (fun r => r.historyKey = strip (restoreHistoryKey env pair)) rows = some row) :
    drillHistory env pair rows = ⟨some row,
      lastRun (fun r => r.historyKey = strip (restoreHistoryKey env pair) && r.succeeded) rows⟩ := by
  have hstrip : strip (strippedText pair "name") = strippedText pair "name" := strip_idem _
  have hnot : ¬ (strip (restoreHistoryKey env pair) = "" ∨
      strip (strippedText pair "name") = "") := by
    rw [hstrip]
    exact not_or.mpr ⟨restoreHistoryKey_ne_empty env pair, hname⟩
  have hown : pairLastHistory (restoreHistoryKey env pair) (strippedText pair "name") rows
      = ⟨some row, lastRun (fun r => r.historyKey = strip (restoreHistoryKey env pair) &&
          r.succeeded) rows⟩ := by
    unfold pairLastHistory
    dsimp only
    rw [if_neg hnot, h]
  unfold drillHistory
  dsimp only
  rw [hown, if_neg fun hnone => by cases hnone.1]

/-- What is stored of an entry can be read, in full or as a preview. -/
theorem exists_result {d : Dict} (hd : (Value.dict d).wellFormed = true) {row : PairRun}
    (hrow : row.resultJson = jsonDumpsBounded (.dict d) maxPairResultBytes) :
    ∃ x, row.result = .ok x ∧ FoundAs d x := by
  have hloads : ∃ x, jsonLoads row.resultJson = some (.dict x) ∧ FoundAs d x := by
    rw [hrow]
    by_cases hfits : encodedSize (.dict d) ≤ maxPairResultBytes
    · exact ⟨d, jsonLoads_bounded_fits hd hfits, Or.inl rfl⟩
    · exact ⟨_, jsonLoads_bounded_exceeds hd (not_le.mp hfits), Or.inr ⟨_, rfl⟩⟩
  obtain ⟨x, hx, hfound⟩ := hloads
  have hnonempty : row.resultJson ≠ "" := by
    intro hblank
    rw [hblank] at hx
    cases hx
  refine ⟨x, ?_, hfound⟩
  unfold PairRun.result
  rw [if_neg hnonempty, hx]

theorem RowOf.exists_result {ctx : ResultContext} {summary d : Dict} {name : String}
    {row : PairRun} (h : RowOf ctx summary d name row) (hd : Readable d) :
    ∃ d' x, row.result = .ok x ∧ FoundAs d' x ∧ Readable d' ∧
      (Failing 36 d → Failing 40 d') := by
  obtain ⟨slot, hjson⟩ := h.result
  have hd' : Readable (recordedPair summary d row.historyKey slot false) :=
    recordedPair_readable hd row.historyKey slot false
  obtain ⟨x, hx, hfound⟩ := RcloneSync.exists_result hd'.wellFormed hjson
  exact ⟨_, x, hx, hfound, hd', fun hfailing => recordedPair_failing hfailing _ _ _⟩

/-- Everything that is stored after a drill can be read. -/
theorem RecordedDrill.after_readable (hfits : D.Fits) :
    ∀ r ∈ D.after.pairRuns, ∃ x, r.result = .ok x := by
  obtain ⟨summary, rows, last, hrows, hlast, -, hafter⟩ := D.after_spec hfits
  have hstored : ∀ (row r : PairRun), StoredAs row r → (∃ x, row.result = .ok x) →
      ∃ x, r.result = .ok x := by
    intro row r hr hrow
    rw [hr]
    exact hrow
  intro r hr
  rw [hafter] at hr
  rcases mem_upsert_cases hr with ⟨hr, -⟩ | hr
  · rcases mem_storeRows_cases hr with ⟨hr, -⟩ | ⟨row, hrow, hr⟩
    · exact D.readable r hr
    · obtain ⟨t, -, ht⟩ := exists_left_of_forall₂ hrows hrow
      obtain ⟨-, x, hx, -⟩ := ht.exists_result (D.run.report_readable t)
      exact hstored row r hr ⟨x, hx⟩
  · obtain ⟨-, x, hx, -⟩ := hlast.exists_result D.run.aggregate_recordable.readable
    exact hstored last r hr ⟨x, hx⟩

end Found

/-! ### Classifying what was found -/

theorem checkedTime_total {env : EvidenceEnv} (hfloat : ∀ x, env.toFloat (.float x) = .ok x)
    {v : Value} (h : v = .none ∨ typedMember "evidence_checked_at" v = true) :
    ∃ checked, checkedTime env v = .ok checked := by
  cases v with
  | float x =>
    unfold checkedTime
    dsimp only
    rw [hfloat]
    exact ⟨_, rfl⟩
  | bool b => simp [typedMember] at h
  | int n => simp [typedMember] at h
  | _ => exact ⟨_, rfl⟩

theorem countOf_total {x : Dict} {key : String} (hkey : key ∈ ["verified", "sample_size"])
    (h : x.get key = .none ∨ typedMember key (x.get key) = true) : ∃ n, countOf x key = .ok n := by
  have hcount : ∃ n, pyInt (pyOr (x.get key) (.int 0)) = .ok n := by
    cases hget : x.get key with
    | none => exact ⟨0, rfl⟩
    | int n =>
      unfold pyOr
      split_ifs
      · exact ⟨n, rfl⟩
      · exact ⟨0, rfl⟩
    | _ =>
      rw [hget] at h
      simp only [typedMember, decide_eq_true_eq, reduceCtorEq, false_or] at h
      simp only [List.mem_cons, List.not_mem_nil, or_false] at hkey
      rcases hkey with rfl | rfl <;> simp at h
  exact hcount

theorem completeSample_total {x : Dict}
    (h : ∀ key ∈ evaluatedMembers, x.get key = .none ∨ typedMember key (x.get key) = true) :
    ∃ b, completeSample x = .ok b := by
  obtain ⟨verified, hverified⟩ := countOf_total (by simp) (h "verified" (by decide))
  obtain ⟨sampled, hsampled⟩ := countOf_total (by simp) (h "sample_size" (by decide))
  unfold completeSample
  refine total_ite ⟨_, rfl⟩ ?_
  rw [hverified]
  refine total_ite ⟨_, rfl⟩ ?_
  rw [hsampled]
  exact ⟨_, rfl⟩

theorem evidenceState_total {env : EvidenceEnv} {pair x : Dict}
    (h : ∀ key ∈ evaluatedMembers, x.get key = .none ∨ typedMember key (x.get key) = true)
    (row : PairRun) (isPartial : Bool) (checked : Option PyFloat) (now : PyFloat) :
    ∃ found, evidenceState env pair (some row) x isPartial checked now = .ok found := by
  unfold evidenceState
  dsimp only
  refine total_ite ⟨_, rfl⟩ (total_ite ⟨_, rfl⟩ ?_)
  cases checked with
  | none => exact ⟨_, rfl⟩
  | some checkedAt =>
    refine total_ite ⟨_, rfl⟩ (total_ite ⟨_, rfl⟩ (total_ite ⟨_, rfl⟩ ?_))
    obtain ⟨b, hb⟩ := completeSample_total h
    rw [hb]
    exact total_ite ⟨_, rfl⟩ ⟨_, rfl⟩

/-- A report that is found again has one classification; where something went wrong, it is
the one of a failure. -/
theorem evaluate_found {env : EvidenceEnv} (hfloat : ∀ x, env.toFloat (.float x) = .ok x)
    {pair d x proof : Dict} (hd : Readable d) (hx : FoundAs d x) {history : LastRuns}
    {row : PairRun} (hlast : history.lastResult = some row) (hresult : row.result = .ok x)
    (hproof : resultOf history.lastSuccess = .ok proof) (now : PyFloat) :
    ∃ v, evaluateRestoreEvidence env pair history now = .ok v ∧
      (Failing 40 d → row.ok = false → v.state = .failed) := by
  have htyped : ∀ key ∈ evaluatedMembers,
      x.get key = .none ∨ typedMember key (x.get key) = true := fun _ hkey => hx.get_typed hd hkey
  have hattempt : history.attempt = some row := by
    unfold LastRuns.attempt
    rw [hlast]
    rfl
  have hread : resultOf (some row) = .ok x := hresult
  obtain ⟨checked, hchecked⟩ := checkedTime_total hfloat (htyped "evidence_checked_at" (by decide))
  obtain ⟨isPartial, hverdict⟩ := isVerifiedPartial_total
    (htyped "sample_shortfall_reason" (by decide))
  obtain ⟨found, hfound⟩ : ∃ found, evidenceState env pair (some row) x isPartial checked now
      = .ok found := evidenceState_total htyped row isPartial checked now
  unfold evaluateRestoreEvidence
  dsimp only
  rw [hattempt, hread, hproof]
  simp only [bind, Except.bind]
  rw [hchecked]
  dsimp only
  rw [hverdict]
  dsimp only
  rw [hfound]
  refine ⟨_, rfl, fun hfailing hok => ?_⟩
  have hnot : isPartial = false := by
    cases isPartial with
    | false => rfl
    | true => exact absurd hverdict (hfailing.not_partial hd hx)
  have hfailed : evidenceState env pair (some row) x isPartial checked now
      = .ok (.failed, some "latest_attempt_failed") := by
    unfold evidenceState
    exact if_pos ⟨hok, hnot⟩
  rw [hfailed] at hfound
  rw [← Except.ok.inj hfound]

/-! ### A drill agrees with what is read out of it -/

section Agrees

variable {D : RecordedDrill}

theorem RecordedDrill.finds_and_classifies (hfits : D.Fits) (hnames : D.NoNamesake)
    (horder : D.InOrder) {t : DrillTurn} (ht : t ∈ D.run.turns) : D.Finds t ∧ D.Classifies t := by
  obtain ⟨summary, row, hrow, hlast⟩ := D.last_found hfits hnames horder ht
  have hhistory : drillHistory D.run.env t.pair D.after.pairRuns = ⟨some row,
      lastRun (fun r => r.historyKey = strip (restoreHistoryKey D.run.env t.pair) && r.succeeded)
        D.after.pairRuns⟩ :=
    drillHistory_of_last (by rw [(D.named t ht).1]; exact (D.named t ht).2) hlast
  obtain ⟨hjob, hname⟩ := Prod.mk.inj hrow.key
  constructor
  · obtain ⟨slot, hjson⟩ := hrow.result
    refine ⟨row, _, by rw [hhistory], hjob.trans D.job_id, hname, ?_, hjson,
      fun key hkey => recordedPair_get _ _ _ _ _ hkey⟩
    rw [hrow.historyKey, entryKey_report]
  · intro now
    obtain ⟨d, x, hresult, hfound, hreadable, hfailing⟩ :=
      hrow.exists_result (D.run.report_readable t)
    have hproof : ∃ proof, resultOf (drillHistory D.run.env t.pair D.after.pairRuns).lastSuccess
        = .ok proof := by
      rw [hhistory]
      cases hsuccess : lastRun (fun r => r.historyKey = strip (restoreHistoryKey D.run.env t.pair)
          && r.succeeded) D.after.pairRuns with
      | none => exact ⟨[], rfl⟩
      | some success => exact D.after_readable hfits success (lastRun_spec hsuccess).1
    obtain ⟨proof, hproof⟩ := hproof
    obtain ⟨v, hv, hfailed⟩ := evaluate_found D.toFloat hreadable hfound
      (by rw [hhistory]) hresult hproof now
    refine ⟨v, hv, fun hspoiled => ?_⟩
    have hreport := D.run.report_failing hspoiled
    have hok : row.ok = false := by
      rw [hrow.ok, hreport.notOk]
      rfl
    rw [hfailed (hfailing hreport) hok]
    exact ⟨by decide, by decide⟩

/-- The entry of the drill replaces the report of a pair of its name. -/
theorem RecordedDrill.not_finds (hfits : D.Fits) {t : DrillTurn}
    (hname : t.name = aggregateRunName) : ¬ D.Finds t := by
  rintro ⟨row, d, hlast, hjob, hrow, hkey, -⟩
  obtain ⟨summary, rows, last, -, hown, hkeys, hafter⟩ := D.after_spec hfits
  have hmem : row ∈ D.after.pairRuns :=
    ((drillHistory_cases D.run.env t.pair D.after.pairRuns).2 row hlast).1
  rw [hafter] at hmem
  rcases mem_upsert_cases hmem with ⟨-, hne⟩ | hstored
  · refine hne ?_
    rw [hown.key, ← hname, ← hrow]
    exact Prod.ext (hjob.trans D.job_id.symm) rfl
  · refine restoreHistoryKey_ne D.run t.pair ?_
    rw [← hkey, ← entryKey_aggregate D.run D.context.kind hkeys, ← hown.historyKey, hstored]

/-- An attempt of another job that is dated later stays the last one. -/
theorem RecordedDrill.not_finds_of_later (hfits : D.Fits) {t : DrillTurn} {r : PairRun}
    (hr : r ∈ D.store.pairRuns) (hjob : r.jobId ≠ D.run.jobId)
    (hkey : r.historyKey = strip (restoreHistoryKey D.run.env t.pair)) (hlater : D.now < r.seenAt)
    (hnamed : strippedText t.pair "name" ≠ "") : ¬ D.Finds t := by
  rintro ⟨row, d, hlast, hrowJob, -, -, -⟩
  obtain ⟨summary, rows, last, hrows, hown, -, hafter⟩ := D.after_spec hfits
  have hjobs : ∀ stored ∈ rows ++ [last], stored.jobId = D.run.jobId ∧
      stored.endedAt = some D.now := by
    intro stored hstored
    rcases List.mem_append.mp hstored with hstored | hstored
    · obtain ⟨t', -, ht'⟩ := exists_left_of_forall₂ hrows hstored
      exact ⟨(Prod.mk.inj ht'.key).1.trans D.job_id, ht'.ended⟩
    · rw [List.mem_singleton.mp hstored]
      exact ⟨(Prod.mk.inj hown.key).1.trans D.job_id, hown.ended⟩
  have hafter' : D.after.pairRuns = storeRows (rows ++ [last]) D.store.pairRuns :=
    hafter.trans (storeRows_concat rows _ last).symm
  have hstays : r ∈ D.after.pairRuns := by
    rw [hafter']
    refine mem_storeRows_of_ne hr fun stored hstored hsame => hjob ?_
    exact (Prod.mk.inj hsame).1.trans (hjobs stored hstored).1
  -- the row that was found is one of the drill, and dated `D.now`
  obtain ⟨found, hfound⟩ : ∃ found, lastRun
      (fun x => x.historyKey = strip (restoreHistoryKey D.run.env t.pair)) D.after.pairRuns
        = some found := by
    cases hnone : lastRun (fun x => x.historyKey = strip (restoreHistoryKey D.run.env t.pair))
        D.after.pairRuns with
    | some found => exact ⟨found, rfl⟩
    | none => exact absurd hkey (of_decide_eq_false (lastRun_eq_none.mp hnone r hstays))
  rw [drillHistory_of_last hnamed hfound] at hlast
  obtain rfl : found = row := Option.some.inj hlast
  have hseen : found.seenAt = D.now := by
    have hmem := (lastRun_spec hfound).1
    rw [hafter'] at hmem
    rcases mem_storeRows_cases hmem with ⟨hold, hne⟩ | ⟨stored, hstored, hsame⟩
    · refine absurd ?_ (hne last (by simp))
      rw [hown.key]
      exact Prod.ext (hrowJob.trans D.job_id.symm) (D.own found hold hrowJob)
    · rw [hsame]
      unfold PairRun.seenAt
      rw [(hjobs stored hstored).2]
      rfl
  have hnewest := lastRun_newest hfound r hstays (decide_eq_true hkey)
  rw [hseen] at hnewest
  exact absurd hlater (not_lt.mpr hnewest)

/-- The rows of a job are those that it had and those that its entries name. -/
theorem named_of_storeReported {ctx : ResultContext} {summary : Dict} {values : List Value}
    {s t : JobStore} (h : storeReported ctx summary values s = .ok t) :
    ∀ r ∈ t.pairRuns, r ∈ s.pairRuns ∨ ∃ v ∈ values, r.pairName = reportedName v := by
  induction values generalizing s with
  | nil =>
    obtain rfl := Except.ok.inj h
    exact fun r hr => Or.inl hr
  | cons v values ih =>
    obtain ⟨reported, hreported, h⟩ := bind_ok.mp h
    intro r hr
    cases reported with
    | none =>
      rcases ih h r hr with hold | ⟨v', hv', hname⟩
      · exact Or.inl hold
      · exact Or.inr ⟨v', List.mem_cons_of_mem _ hv', hname⟩
    | some row =>
      rcases ih h r hr with hold | ⟨v', hv', hname⟩
      · rcases mem_upsert_cases hold with ⟨hold, -⟩ | hstored
        · exact Or.inl hold
        · refine Or.inr ⟨v, List.mem_cons_self, ?_⟩
          cases v with
          | dict pair =>
            rw [hstored]
            exact (Prod.mk.inj (reportedRun_agrees hreported).1).2
          | _ => cases hreported
      · exact Or.inr ⟨v', List.mem_cons_of_mem _ hv', hname⟩

theorem named_of_storePairResults {ctx : ResultContext} {summary : Dict}
    (hdue : innerList summary "due" = []) {s t : JobStore}
    (h : storePairResults ctx summary s = .ok t) :
    ∀ r ∈ t.pairRuns, (∃ old ∈ s.pairRuns, r.key = old.key) ∨
      ∃ v ∈ innerList summary "pairs", r.pairName = reportedName v := by
  obtain ⟨u, hu, h⟩ := bind_ok.mp h
  have hnothing : storeDue ctx summary u = u := by
    unfold storeDue
    rw [hdue]
    split_ifs <;> rfl
  rw [hnothing] at h
  have hkeys : ∀ r ∈ t.pairRuns, ∃ old ∈ u.pairRuns, r.key = old.key := by
    split_ifs at h
    · obtain rfl := Except.ok.inj h
      exact fun r hr => ⟨r, hr, rfl⟩
    · obtain rfl := Except.ok.inj h
      intro r hr
      rcases mem_terminalizeAttempts hr with ⟨hold, -⟩ | ⟨old, hold, -, -, hkey, -⟩
      · exact ⟨r, hold, rfl⟩
      · exact ⟨old, hold, hkey⟩
  intro r hr
  obtain ⟨old, hold, hkey⟩ := hkeys r hr
  rcases named_of_storeReported hu old hold with hbefore | ⟨v, hv, hname⟩
  · exact Or.inl ⟨old, hbefore, hkey⟩
  · exact Or.inr ⟨v, hv, (Prod.mk.inj hkey).2.trans hname⟩

/-- A preview of a member shows at most a hundred entries, and of a missing member none. -/
theorem asList_preview {stage : PreviewStage} (hstage : stage ∈ previewStages) (depth : Nat)
    (v : Value) : ((asList (jsonPreview stage depth v)).getD []).length ≤ 100 ∧
      (v = .none → asList (jsonPreview stage depth v) = none) := by
  have hlimits : ∀ stage ∈ previewStages, stage.listLimit ≤ 100 := by decide
  have hlimit := hlimits stage hstage
  cases v with
  | str text =>
    rw [jsonPreview]
    split_ifs <;> simp [asList]
  | list xs =>
    cases depth with
    | zero => simp [jsonPreview, asList]
    | succ depth =>
      have htake : (xs.take stage.listLimit).length ≤ 100 :=
        (List.length_take_le _ _).trans hlimit
      simpa [jsonPreview, asList] using htake
  | dict entries => cases depth <;> simp [jsonPreview, asList]
  | _ => simp [jsonPreview, asList]

theorem innerList_cutValue {d : Dict} (hwf : (Value.dict d).wellFormed = true)
    (hshort : ∀ e ∈ d, e.1.length ≤ 128) (maxBytes : Nat) {key : String}
    (hkey : key ∉ previewMarks) : (innerList (cutValue (.dict d) maxBytes) key).length ≤ 100 ∧
      (d.get key = .none → innerList (cutValue (.dict d) maxBytes) key = []) := by
  unfold innerList
  rcases get_cutValue hwf hshort maxBytes with ⟨stage, hstage, depth, hget⟩ | hget
  · obtain ⟨hlength, hmissing⟩ := asList_preview hstage depth (d.get key)
    rw [hget key hkey]
    split_ifs
    · exact ⟨hlength, fun hnone => by rw [hmissing hnone]; rfl⟩
    · exact ⟨Nat.zero_le _, fun _ => rfl⟩
  · rw [hget key hkey]
    exact ⟨Nat.zero_le _, fun _ => rfl⟩

/-- A summary beyond its budget names at most a hundred pairs. -/
theorem RecordedDrill.cut_names (hcut : ¬ D.Fits) : ∃ names : List String, names.length ≤ 100 ∧
    ∀ r ∈ D.after.pairRuns, r.jobId = D.run.jobId →
      r.pairName = aggregateRunName ∨ r.pairName ∈ names := by
  obtain ⟨summary, hsummary, hsum⟩ := D.run.exists_summary
  have hexceeds : maxJobSummaryBytes < (D.finishCase hsum).size := by
    by_contra hfits
    refine hcut fun other hother => ?_
    obtain rfl : summary = other := Except.ok.inj (hsummary.symm.trans hother)
    exact not_lt.mp hfits
  have hread := (D.finishCase hsum).readBack_of_exceeds hexceeds
  have hmarks : "pairs" ∉ previewMarks ∧ "due" ∉ previewMarks := by decide
  have hpairs := innerList_cutValue hsum.wellFormed hsum.short maxJobSummaryBytes hmarks.1
  have hdue := (innerList_cutValue hsum.wellFormed hsum.short maxJobSummaryBytes hmarks.2).2
    ((hsum.frame _ (by decide)).trans D.run.plainSummary_absent.2)
  have hown : ∀ r old : PairRun, old ∈ D.store.pairRuns → r.key = old.key →
      r.jobId = D.run.jobId → r.pairName = aggregateRunName := by
    intro r old hold hkey hjob
    obtain ⟨hjobs, hnames⟩ := Prod.mk.inj hkey
    exact hnames.trans (D.own old hold (hjobs.symm.trans hjob))
  refine ⟨(innerList (D.finishCase hsum).readBack "pairs").map reportedName, ?_, ?_⟩
  · rw [List.length_map, hread]
    exact hpairs.1
  · intro r hr hjob
    obtain ⟨payload, intents, intents', hexternal⟩ :=
      (D.finishCase hsum).external_spec D.found D.running
    rw [D.after_eq hsummary hsum, hexternal] at hr
    cases hstore : storePairResults (resultContext D.job (D.finishCase hsum).status
        (D.finishCase hsum).now) (D.finishCase hsum).readBack (D.finishCase hsum).store with
    | error e =>
      rw [hstore] at hr
      exact Or.inl (hown r r hr rfl hjob)
    | ok t =>
      rw [hstore] at hr
      rcases named_of_storePairResults (by rw [hread]; exact hdue) hstore r hr with
        ⟨old, hold, hkey⟩ | ⟨v, hv, hname⟩
      · exact Or.inl (hown r old hold hkey hjob)
      · exact Or.inr (List.mem_map.mpr ⟨v, hv, hname.symm⟩)

/-- Of more pairs than a preview shows some are lost. -/
theorem RecordedDrill.exists_lost (hcut : ¬ D.Fits) (hmany : 101 < D.run.turns.length) :
    ∃ t ∈ D.run.turns, ¬ D.Finds t := by
  by_contra hall
  push Not at hall
  obtain ⟨names, hlength, hnames⟩ := D.cut_names hcut
  have hsubset : D.run.turns.map DrillTurn.name ⊆ aggregateRunName :: names := by
    intro name hname
    obtain ⟨t, ht, rfl⟩ := List.mem_map.mp hname
    obtain ⟨row, d, hlast, hjob, hrow, -⟩ := hall t ht
    have hmem := ((drillHistory_cases D.run.env t.pair D.after.pairRuns).2 row hlast).1
    rw [← hrow]
    exact List.mem_cons.mpr (hnames row hmem hjob)
  have hfew := (List.subperm_of_subset D.names hsubset).length_le
  rw [List.length_map, List.length_cons] at hfew
  omega

/-- **A restore drill agrees with its evaluation**: where its summary is within the budget, every
report is found again under the history key of its pair and has one classification, which is
neither a success nor a partial one where the files differed, the run was cancelled or its
directory could not be removed, if and only if no pair is named like the drill itself and no
attempt of the pairs is dated later.  Of more pairs than a preview shows, a summary beyond the
budget loses some. -/
theorem restore_drill_agrees (D : RecordedDrill) :
    (D.Fits → ((∀ t ∈ D.run.turns, D.Finds t ∧ D.Classifies t) ↔ D.NoNamesake ∧ D.InOrder)) ∧
    (¬ D.Fits → 101 < D.run.turns.length → ∃ t ∈ D.run.turns, ¬ D.Finds t) := by
  refine ⟨fun hfits => ⟨fun hagrees => ⟨fun t ht hname => ?_, ?_⟩, ?_⟩, fun hcut hmany => ?_⟩
  · exact RecordedDrill.not_finds hfits hname (hagrees t ht).1
  · intro t ht r hr hjob hkey
    by_contra hlater
    have hnamed : strippedText t.pair "name" ≠ "" := by
      rw [(D.named t ht).1]
      exact (D.named t ht).2
    exact RecordedDrill.not_finds_of_later hfits hr hjob hkey (not_le.mp hlater) hnamed
      (hagrees t ht).1
  · rintro ⟨hnames, horder⟩ t ht
    exact D.finds_and_classifies hfits hnames horder ht
  · exact D.exists_lost hcut hmany

end Agrees

/-! ### A drill of one pair -/

/-- One file, fetched and the same. -/
def passedDrill : PairDrill where
  tempRoot := none
  workspace := .ok "/tmp/restore-drill"
  prepared := .ok ()
  hours := "2"
  sample := .ok ⟨["a.jpg"], 10, 1, 1, 0, 0, false, false, false⟩
  freeSpace := .ok 1000000000
  listing := .ok ()
  command := "rclone copy"
  copy := .ok 0
  cancelledAfterCopy := false
  fetched := .ok [("a.jpg", 10)]
  check := .ok 0
  cancelledAfterCheck := false
  manifest := .ok "47d70fe3312652c639e262bebecfa269a26c0c9ba0e3047ce60236bd2066069a"
  checkedAt := 1000060000000
  cleanup := none

/-- The drill of a pair with this name, and of nothing else. -/
def soleDrill (name : String) : DrillRun where
  env := drillEnv
  sampleFiles := 1
  maxTotalMb := 100
  turns := [⟨Dict.set drilledPair "name" (.str name), "", some passedDrill⟩]
  scheduled := none
  jobId := 1

/-- The job of the drill has been started, as the first of all. -/
def drillStarted : JobStore :=
  JobStore.empty.after
    [.start { namedRequest "" with kind := "restoretest", attempts := [] } 1000000000000]

theorem drillStarted_spec :
    drillStarted.job 1 = some { namedJob 1 1000000000000 with kind := "restoretest" } ∧
      drillStarted.intent 1 = none ∧ drillStarted.pairRuns = [] := by decide +kernel

theorem drillStarted_none {P : PairRun → Prop} : ∀ r ∈ drillStarted.pairRuns, P r := by
  rw [drillStarted_spec.2.2]
  intro r hr
  cases hr

theorem soleDrill_named {name : String} (hnamed : strip name = name ∧ name ≠ "") :
    ∀ t ∈ (soleDrill name).turns, strippedText t.pair "name" = t.name ∧ t.name ≠ "" := by
  intro t ht
  obtain rfl := List.mem_singleton.mp ht
  have hname : Dict.get (Dict.set drilledPair "name" (.str name)) "name" = .str name := rfl
  have htext : DrillTurn.name ⟨Dict.set drilledPair "name" (.str name), "", some passedDrill⟩
      = name := by
    unfold DrillTurn.name Dict.textOr
    dsimp only
    rw [hname, pyOr_str hnamed.2]
    rfl
  rw [htext, strippedText_of_get hname]
  exact hnamed

theorem soleDrill_fits {name : String} (hfits : (soleDrill name).summary.toOption.all
      (fun summary => encodedSize (.dict summary) ≤ maxJobSummaryBytes) = true) :
    ∀ summary, (soleDrill name).summary = .ok summary →
      encodedSize (.dict summary) ≤ maxJobSummaryBytes := by
  intro summary hsummary
  rw [hsummary] at hfits
  exact of_decide_eq_true hfits

def recordedSole (name : String) (hnamed : strip name = name ∧ name ≠ "") : RecordedDrill where
  run := soleDrill name
  store := drillStarted
  job := { namedJob 1 1000000000000 with kind := "restoretest" }
  status := .ok
  stagedAt := 1000060000000
  now := 1000060000000
  found := drillStarted_spec.1
  running := rfl
  kind := rfl
  terminal := JobStatus.noConfusion
  unstaged := drillStarted_spec.2.1
  own := drillStarted_none
  readable := drillStarted_none
  named := soleDrill_named hnamed
  names := List.nodup_singleton _
  keys := List.nodup_singleton _
  toFloat := fun _ => rfl

theorem all_fits {summary : Option Dict} (h : summary.all
      (fun summary => sizeBound (.dict summary) ≤ maxJobSummaryBytes) = true) :
    summary.all (fun summary => encodedSize (.dict summary) ≤ maxJobSummaryBytes) = true := by
  cases summary with
  | none => rfl
  | some summary =>
    have hbound : sizeBound (.dict summary) ≤ maxJobSummaryBytes := of_decide_eq_true h
    exact decide_eq_true ((encodedSize_le_sizeBound _).trans hbound)

/-- The report of a pair named "Photos" is found again. -/
theorem restore_drill_agrees_photos : ∃ D : RecordedDrill, D.run = soleDrill "Photos" ∧
    ∀ t ∈ D.run.turns, D.Finds t ∧ D.Classifies t := by
  have hfits : (recordedSole "Photos" (by decide)).Fits :=
    soleDrill_fits (all_fits (by decide +kernel))
  refine ⟨recordedSole "Photos" (by decide), rfl,
    ((restore_drill_agrees _).1 hfits).mpr ⟨fun t ht => ?_, fun _ _ => drillStarted_none⟩⟩
  obtain rfl := List.mem_singleton.mp ht
  decide

/-- The report of a pair named "restore-drill" is not, though its drill passed. -/
theorem restore_drill_lost : ∃ D : RecordedDrill, D.run = soleDrill "restore-drill" ∧
    ∃ t ∈ D.run.turns, t.course = some passedDrill ∧ ¬ D.Finds t := by
  have hfits : (recordedSole "restore-drill" (by decide)).Fits :=
    soleDrill_fits (all_fits (by decide +kernel))
  exact ⟨recordedSole "restore-drill" (by decide), rfl, _, List.mem_singleton.mpr rfl, rfl,
    RecordedDrill.not_finds hfits (by decide)⟩

end RcloneSync
