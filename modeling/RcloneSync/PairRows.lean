/-
RcloneSync/PairRows.lean

The attempts follow their job.

An attempt is recorded three times over: as a row with a status and an ok flag, as a part
of its job, which has a status of its own, and by name in the summary that the job was
finished with.  Attempts begin with their job, are stored again from the entries of its
summary, are closed when the job ends without naming them, and are filled in later where
they are missing.

What a summary says of a pair is what it says last: the entries under `pairs` in their
order, and after them, for a job that did not end well, the names under `due`
(`lastSaid`).  A summary beyond the byte budget is stored as a marked preview, which may
have lost entries and members of entries; such a preview says nothing.

Main result (`pair_rows_follow`): in every state the transactions can reach, no attempt of
an ended job is open, the ok flag of every attempt agrees with its status, and both agree
with what the stored summary says.  A summary may name a pair twice, and then its first
entry need not agree with the row (`rows_disagree_with_first_entry`).
-/
import RcloneSync.FinishPaths
import RcloneSync.BaselineState

namespace RcloneSync

open Py Runs

/-! ### What a summary says of a pair -/

/-- What a summary may say of a pair: how it went, or that its turn did not come. -/
inductive Said
  | reported (pair : Dict)
  | due

/-- One entry of `summary["pairs"]`, after what was said before. -/
def saidBy (name : String) (before : Option Said) : Value → Option Said
  | .dict pair =>
    if name ≠ "" ∧ strippedText pair "name" = name then some (.reported pair) else before
  | _ => before

/-- The statuses with which a job leaves pairs that were due. -/
def leavesDue (status : JobStatus) : Bool :=
  status = .error || status = .stale || status = .cancelled

/-- One entry of `summary["due"]`. -/
def dueBy (name : String) (before : Option Said) (value : Value) : Option Said :=
  if name ≠ "" ∧ strip (pyStr (pyOr value (.str ""))) = name then some .due else before

/-- What a summary says last of a pair. -/
def lastSaid (status : JobStatus) (summary : Dict) (name : String) : Option Said :=
  let reported := (innerList summary "pairs").foldl (saidBy name) none
  if leavesDue status then (innerList summary "due").foldl (dueBy name) reported else reported

/-- The row of a pair agrees with what was said of it.  A restore test may turn what would
be a failure or a success into a warning. -/
def Said.Agrees (kind : String) (status : JobStatus) (row : PairRun) : Said → Prop
  | .reported pair =>
    row.ok = decide (Dict.get pair "ok" = .bool true) ∧
      (row.status = pairStatus status pair ∨ (kind = "restoretest" ∧ row.status = .warning))
  | .due => row.ok = false ∧ row.status = status ∧ leavesDue status = true

/-- The ok flag of a row agrees with its status.  Only the row of a whole restore drill may
be a success that is shown as a warning. -/
structure PairRun.Coherent (row : PairRun) : Prop where
  ok_of_status : row.status = .ok → row.ok = true
  status_of_ok : row.ok = true →
    row.status = .ok ∨ (row.status = .warning ∧ row.pairName = "restore-drill")

theorem pairStatus_ne_running (status : JobStatus) (pair : Dict) :
    pairStatus status pair ≠ .running := by
  unfold pairStatus
  split_ifs <;> decide

theorem pairStatus_eq_ok {status : JobStatus} {pair : Dict} :
    pairStatus status pair = .ok ↔ Dict.get pair "ok" = .bool true := by
  unfold pairStatus
  split_ifs with h
  · exact ⟨fun _ => h, fun _ => rfl⟩
  all_goals exact ⟨nofun, fun hok => absurd hok h⟩

/-- What was said of a pair ended its attempt. -/
theorem Said.Agrees.ended {kind : String} {status : JobStatus} {row : PairRun} {w : Said}
    (h : w.Agrees kind status row) : row.status ≠ .running := by
  cases w with
  | reported pair =>
    rcases h.2 with hstatus | ⟨_, hstatus⟩
    · rw [hstatus]
      exact pairStatus_ne_running status pair
    · rw [hstatus]
      decide
  | due =>
    obtain ⟨_, hstatus, hleaves⟩ := h
    rw [hstatus]
    intro hrunning
    rw [hrunning] at hleaves
    exact absurd hleaves (by decide)

/-! ### The rows that are stored -/

/-- Partial successes are reported as failures. -/
theorem not_ok_of_partial {pair : Dict} (h : isVerifiedPartial pair = .ok true) :
    Dict.get pair "ok" ≠ .bool true := by
  intro hok
  unfold isVerifiedPartial at h
  rw [if_pos (Or.inl (by rw [hok]; exact nofun))] at h
  cases h

/-- What an entry fills in changes neither its ok flag nor its status. -/
theorem recordedPair_ok (status : JobStatus) (summary pair : Dict) (historyKey : String)
    (slot : Option String) (dryRun : Bool) :
    Dict.get (recordedPair summary pair historyKey slot dryRun) "ok" = Dict.get pair "ok" ∧
      pairStatus status (recordedPair summary pair historyKey slot dryRun)
        = pairStatus status pair := by
  have hok : Dict.get (recordedPair summary pair historyKey slot dryRun) "ok"
      = Dict.get pair "ok" :=
    recordedPair_get summary pair historyKey slot dryRun (by decide)
  refine ⟨hok, ?_⟩
  unfold pairStatus
  rw [hok, recordedPair_get summary pair historyKey slot dryRun (by decide),
    recordedPair_get summary pair historyKey slot dryRun (by decide)]

/-- A row whose flag and status come from an entry, or a warning in place of its status. -/
theorem agrees_of_status {kind : String} {status : JobStatus} {pair : Dict} {row : PairRun}
    (partly : Bool) (hok : row.ok = decide (Dict.get pair "ok" = .bool true))
    (hstatus : row.status = if partly then .warning else pairStatus status pair)
    (hpartly : partly = true → kind = "restoretest" ∧
      (Dict.get pair "ok" ≠ .bool true ∨ row.pairName = "restore-drill")) :
    row.Coherent ∧ (Said.reported pair).Agrees kind status row := by
  cases partly with
  | false =>
    have hstatus : row.status = pairStatus status pair := hstatus
    refine ⟨⟨fun h => ?_, fun h => ?_⟩, hok, Or.inl hstatus⟩
    · rw [hok]
      exact decide_eq_true (pairStatus_eq_ok.mp (hstatus.symm.trans h))
    · rw [hok] at h
      exact Or.inl (hstatus.trans (pairStatus_eq_ok.mpr (of_decide_eq_true h)))
  | true =>
    obtain ⟨hkind, hcase⟩ := hpartly rfl
    have hstatus : row.status = .warning := hstatus
    refine ⟨⟨fun h => ?_, fun h => Or.inr ⟨hstatus, ?_⟩⟩, hok, Or.inr ⟨hkind, hstatus⟩⟩
    · rw [hstatus] at h
      cases h
    · rw [hok] at h
      exact hcase.resolve_left fun hne => hne (of_decide_eq_true h)

/-- The row of an entry agrees with it. -/
theorem reportedRun_agrees {ctx : ResultContext} {summary pair : Dict} {row : PairRun}
    (h : reportedRun ctx summary (.dict pair) = .ok (some row)) :
    row.key = (ctx.jobId, strippedText pair "name") ∧ row.Coherent ∧
      (Said.reported pair).Agrees ctx.kind ctx.status row := by
  by_cases hname : strippedText pair "name" = ""
  · simp [reportedRun, hname] at h
  simp only [reportedRun, hname, if_false] at h
  generalize hkey : strip (pyStr (pyOr (Dict.get pair "history_key") _)) = historyKey at h
  generalize hslot : textOrNone (pyStr (pyOr (Dict.get pair "scheduled_slot") _)) = slot at h
  generalize hdry : (isDryRun pair || isDryRun summary) = dryRun at h
  obtain ⟨hok, hstatus⟩ := recordedPair_ok ctx.status summary pair historyKey slot dryRun
  have hflag : decide (Dict.get (recordedPair summary pair historyKey slot dryRun) "ok"
      = .bool true) = decide (Dict.get pair "ok" = .bool true) := by rw [hok]
  have hfinal : ∀ {partly : Bool} {row' : PairRun},
      (partly = true → ctx.kind = "restoretest" ∧
        (Dict.get pair "ok" ≠ .bool true ∨ strippedText pair "name" = "restore-drill")) →
      row'.key = (ctx.jobId, strippedText pair "name") →
      row'.ok = decide (Dict.get (recordedPair summary pair historyKey slot dryRun) "ok"
        = .bool true) →
      row'.status = (if partly then .warning else pairStatus ctx.status
        (recordedPair summary pair historyKey slot dryRun)) →
      row'.key = (ctx.jobId, strippedText pair "name") ∧ row'.Coherent ∧
        (Said.reported pair).Agrees ctx.kind ctx.status row' := by
    intro partly row' hpartly hkey' hok' hstatus'
    refine ⟨hkey', agrees_of_status partly (hok'.trans hflag) ?_ ?_⟩
    · rw [hstatus', hstatus]
    · have hrow : row'.pairName = strippedText pair "name" := (Prod.mk.inj hkey').2
      rw [hrow]
      exact hpartly
  by_cases hkind : ctx.kind = "restoretest" ∧ dryRun = false
  · rw [if_pos hkind] at h
    obtain ⟨verified, hverified, h⟩ := bind_ok.mp h
    split_ifs at h with hv hdrill
    · obtain ⟨partly, hpartly, h⟩ := bind_ok.mp h
      obtain rfl := Option.some.inj (Except.ok.inj h)
      refine hfinal (fun _ => ⟨hkind.1, Or.inl ?_⟩) rfl rfl rfl
      rw [← hok]
      rw [hv] at hverified
      exact not_ok_of_partial hverified
    · obtain ⟨partly, _, h⟩ := bind_ok.mp h
      obtain rfl := Option.some.inj (Except.ok.inj h)
      exact hfinal (fun _ => ⟨hkind.1, Or.inr hdrill⟩) rfl rfl rfl
    · obtain ⟨partly, hpartly, h⟩ := bind_ok.mp h
      obtain rfl := Option.some.inj (Except.ok.inj h)
      refine hfinal (fun htrue => ?_) rfl rfl rfl
      rw [htrue] at hpartly
      cases hpartly
  · rw [if_neg hkind] at h
    obtain ⟨partly, hpartly, h⟩ := bind_ok.mp h
    obtain rfl := Option.some.inj (Except.ok.inj h)
    refine hfinal (fun htrue => ?_) rfl rfl rfl
    rw [htrue] at hpartly
    cases hpartly

/-- Only an entry without a name gives no row. -/
theorem unnamed_of_none {ctx : ResultContext} {summary pair : Dict}
    (h : reportedRun ctx summary (.dict pair) = .ok none) : strippedText pair "name" = "" := by
  by_contra hname
  simp only [reportedRun, hname, if_false] at h
  by_cases hkind : ctx.kind = "restoretest" ∧ (isDryRun pair || isDryRun summary) = false
  · rw [if_pos hkind] at h
    obtain ⟨verified, _, h⟩ := bind_ok.mp h
    split_ifs at h <;>
    · obtain ⟨partly, _, h⟩ := bind_ok.mp h
      cases h
  · rw [if_neg hkind] at h
    obtain ⟨partly, _, h⟩ := bind_ok.mp h
    cases h

/-- The row of a name under `due` agrees with it. -/
theorem dueRun_agrees {ctx : ResultContext} {summary : Dict} {v : Value} {row : PairRun}
    (hleaves : leavesDue ctx.status = true) (h : dueRun ctx summary v = some row) :
    row.key = (ctx.jobId, strip (pyStr (pyOr v (.str "")))) ∧ row.pairName ≠ "" ∧
      row.Coherent ∧ Said.due.Agrees ctx.kind ctx.status row := by
  by_cases hname : strip (pyStr (pyOr v (.str ""))) = ""
  · simp [dueRun, hname] at h
  · simp only [dueRun, hname, if_false] at h
    obtain rfl := Option.some.inj h
    refine ⟨rfl, hname, ⟨fun hok => ?_, fun hwarned => ?_⟩, rfl, rfl, hleaves⟩
    · have hok : ctx.status = .ok := hok
      rw [hok] at hleaves
      exact absurd hleaves (by decide)
    · exact absurd hwarned Bool.false_ne_true

/-- Rows after a store: rows of other keys, and one that carries what was stored. -/
theorem mem_upsertPairRun_cases {row r : PairRun} {rows : List PairRun}
    (h : r ∈ upsertPairRun row rows) :
    (r ∈ rows ∧ r.key ≠ row.key) ∨
      (r.key = row.key ∧ r.ok = row.ok ∧ r.status = row.status) := by
  unfold upsertPairRun Tables.upsert at h
  split_ifs at h with hfound
  · obtain ⟨old, hold, rfl⟩ := List.mem_map.mp h
    split_ifs with hkey
    · exact Or.inr ⟨of_decide_eq_true hkey, rfl, rfl⟩
    · exact Or.inl ⟨hold, fun hsame => hkey (decide_eq_true hsame)⟩
  · rcases List.mem_append.mp h with hold | hnew
    · refine Or.inl ⟨hold, fun hsame => hfound ?_⟩
      rw [Tables.find, List.find?_isSome]
      exact ⟨r, hold, decide_eq_true hsame⟩
    · obtain rfl := List.mem_singleton.mp hnew
      exact Or.inr ⟨rfl, rfl, rfl⟩

theorem Said.Agrees.congr {kind : String} {status : JobStatus} {row row' : PairRun} {w : Said}
    (h : w.Agrees kind status row) (hok : row'.ok = row.ok) (hstatus : row'.status = row.status) :
    w.Agrees kind status row' := by
  cases w with
  | reported pair => exact ⟨hok.trans h.1, hstatus ▸ h.2⟩
  | due => exact ⟨hok.trans h.1, hstatus.trans h.2.1, h.2.2⟩

theorem PairRun.Coherent.congr {row row' : PairRun} (h : row.Coherent) (hok : row'.ok = row.ok)
    (hstatus : row'.status = row.status) (hname : row'.pairName = row.pairName) :
    row'.Coherent := by
  refine ⟨fun h' => ?_, fun h' => ?_⟩
  · rw [hok]
    exact h.ok_of_status (hstatus ▸ h')
  · rw [hstatus, hname]
    exact h.status_of_ok (hok ▸ h')

/-! ### Storing the results of a job -/

section Storing

variable {ctx : ResultContext} {summary : Dict}

/-- Rows of a job during the storing of its results: where something was said of the pair,
the row agrees with it, and every row is coherent. -/
structure RowsUpTo (ctx : ResultContext) (said : String → Option Said)
    (before after : List PairRun) : Prop where
  others : ∀ r ∈ after, r.jobId ≠ ctx.jobId → r ∈ before
  agrees : ∀ r ∈ after, r.jobId = ctx.jobId → ∀ w, said r.pairName = some w →
    w.Agrees ctx.kind ctx.status r
  coherent : (∀ r ∈ before, r.Coherent) → ∀ r ∈ after, r.Coherent

/-- One row is stored, for the pair of its name. -/
theorem RowsUpTo.store {said : String → Option Said} {before after : List PairRun}
    (h : RowsUpTo ctx said before after) {row : PairRun} {w : Said}
    {said' : String → Option Said} (hrow : row.jobId = ctx.jobId) (hcoherent : row.Coherent)
    (hagrees : w.Agrees ctx.kind ctx.status row) (hsaid : said' row.pairName = some w)
    (hothers : ∀ name, name ≠ row.pairName → said' name = said name) :
    RowsUpTo ctx said' before (upsertPairRun row after) := by
  refine ⟨fun r hr hjob => ?_, fun r hr hjob w' hw' => ?_, fun hs r hr => ?_⟩
  · rcases mem_upsertPairRun_cases hr with ⟨hold, _⟩ | ⟨hkey, _⟩
    · exact h.others r hold hjob
    · exact absurd ((Prod.mk.inj hkey).1.trans hrow) hjob
  · rcases mem_upsertPairRun_cases hr with ⟨hold, hkey⟩ | ⟨hkey, hok, hstatus⟩
    · have hne : r.pairName ≠ row.pairName := fun hname =>
        hkey (Prod.ext (hjob.trans hrow.symm) hname)
      exact h.agrees r hold hjob w' ((hothers _ hne).symm.trans hw')
    · have hname : r.pairName = row.pairName := (Prod.mk.inj hkey).2
      rw [hname, hsaid] at hw'
      obtain rfl := Option.some.inj hw'
      exact hagrees.congr hok hstatus
  · rcases mem_upsertPairRun_cases hr with ⟨hold, _⟩ | ⟨hkey, hok, hstatus⟩
    · exact h.coherent hs r hold
    · exact hcoherent.congr hok hstatus (Prod.mk.inj hkey).2

/-- An entry without a name says nothing. -/
theorem saidBy_unnamed {name : String} {before : Option Said} {v : Value}
    (h : ∀ pair, v = .dict pair → strippedText pair "name" = "") :
    saidBy name before v = before := by
  cases v with
  | dict pair => exact if_neg fun hsame => hsame.1 (hsame.2.symm.trans (h pair rfl))
  | _ => rfl

theorem rowsUpTo_reported {values : List Value} {said : String → Option Said}
    {before : List PairRun} {t u : JobStore} (hs : RowsUpTo ctx said before t.pairRuns)
    (h : storeReported ctx summary values t = .ok u) :
    RowsUpTo ctx (fun name => values.foldl (saidBy name) (said name)) before u.pairRuns := by
  induction values generalizing t said with
  | nil =>
    obtain rfl := Except.ok.inj h
    exact hs
  | cons v values ih =>
    obtain ⟨run, hrun, h⟩ := bind_ok.mp h
    cases run with
    | none =>
      have hsame : ∀ name, saidBy name (said name) v = said name := by
        intro name
        refine saidBy_unnamed fun pair hv => ?_
        subst hv
        exact unnamed_of_none hrun
      simp only [List.foldl_cons, hsame]
      exact ih hs h
    | some row =>
      have hrest : storeReported ctx summary values (storeRun _ _ _ row t) = .ok u := h
      cases v with
      | dict pair =>
        obtain ⟨hkey, hcoherent, hagrees⟩ := reportedRun_agrees hrun
        obtain ⟨hjob, hname⟩ := Prod.mk.inj hkey
        have hnamed : row.pairName ≠ "" := (wellNamed_reportedRun hrun).named
        have hstep : RowsUpTo ctx (fun name => saidBy name (said name) (.dict pair)) before
            (upsertPairRun row t.pairRuns) := by
          refine hs.store hjob hcoherent hagrees ?_ (fun name hne => ?_)
          · exact if_pos ⟨hnamed, hname.symm⟩
          · exact if_neg fun hsame => hne (hsame.2.symm.trans hname.symm)
        exact ih hstep hrest
      | _ => cases hrun

theorem rowsUpTo_due {store : JobStore → Value → JobStore}
    (hnone : ∀ s v, dueRun ctx summary v = none → store s v = s)
    (hsome : ∀ s v row, dueRun ctx summary v = some row →
      store s v = storeRun false true ctx.endedAt row s)
    {values : List Value} (hleaves : leavesDue ctx.status = true)
    {said : String → Option Said} {before : List PairRun} {t : JobStore}
    (hs : RowsUpTo ctx said before t.pairRuns) :
    RowsUpTo ctx (fun name => values.foldl (dueBy name) (said name)) before
      (values.foldl store t).pairRuns := by
  induction values generalizing t said with
  | nil => exact hs
  | cons v values ih =>
    simp only [List.foldl_cons]
    cases hrun : dueRun ctx summary v with
    | none =>
      have hblank : strip (pyStr (pyOr v (.str ""))) = "" := by
        by_contra hname
        simp [dueRun, hname] at hrun
      have hsame : ∀ name, dueBy name (said name) v = said name := fun name =>
        if_neg fun hdue => hdue.1 (hdue.2.symm.trans hblank)
      simp only [hsame]
      rw [hnone t v hrun]
      exact ih hs
    | some row =>
      obtain ⟨hkey, hnamed, hcoherent, hagrees⟩ := dueRun_agrees hleaves hrun
      obtain ⟨hjob, hname⟩ := Prod.mk.inj hkey
      have hstep : RowsUpTo ctx (fun name => dueBy name (said name) v) before
          (upsertPairRun row t.pairRuns) := by
        refine hs.store hjob hcoherent hagrees ?_ (fun name hne => ?_)
        · exact if_pos ⟨hnamed, hname.symm⟩
        · exact if_neg fun hsame => hne (hsame.2.symm.trans hname.symm)
      rw [hsome t v row hrun]
      exact ih hstep

theorem unfinishedStatus_cases (status : JobStatus) :
    unfinishedStatus status ≠ .running ∧ unfinishedStatus status ≠ .ok := by
  cases status <;> decide

/-- Rows after the open attempts of a job were closed. -/
theorem mem_terminalizeAttempts {jobId : Nat} {status : JobStatus} {endedAt : Time}
    {error : Option String} {s : JobStore} {r : PairRun}
    (h : r ∈ (terminalizeAttempts jobId status endedAt error s).pairRuns) :
    (r ∈ s.pairRuns ∧ (r.jobId = jobId → r.status ≠ .running)) ∨
      ∃ old ∈ s.pairRuns, old.jobId = jobId ∧ old.status = .running ∧ r.key = old.key ∧
        r.ok = false ∧ r.status = status := by
  obtain ⟨old, hold, rfl⟩ := List.mem_map.mp h
  by_cases hopen : isOpenOf jobId old = true
  · obtain ⟨hjob, hrunning⟩ := Bool.and_eq_true _ _ ▸ hopen
    rw [if_pos hopen]
    exact Or.inr ⟨old, hold, of_decide_eq_true hjob, of_decide_eq_true hrunning, rfl, rfl, rfl⟩
  · rw [if_neg hopen]
    refine Or.inl ⟨hold, fun hjob hrunning => hopen ?_⟩
    simp [isOpenOf, hjob, hrunning]

theorem PairRun.Coherent.of_failed {row : PairRun} (hok : row.ok = false)
    (hstatus : row.status ≠ .ok) : row.Coherent :=
  ⟨fun h => absurd h hstatus, fun h => absurd (hok.symm.trans h) Bool.false_ne_true⟩

/-- **What storing the results of a job leaves**: the rows of other jobs, and rows of the job
that agree with its summary; of a job that has ended none is open. -/
structure StoredRows (ctx : ResultContext) (summary : Dict) (before after : List PairRun) : Prop
    extends RowsUpTo ctx (lastSaid ctx.status summary) before after where
  closed : ctx.status ≠ .running → ∀ r ∈ after, r.jobId = ctx.jobId → r.status ≠ .running

theorem storedRows_of_storePairResults {s t : JobStore}
    (h : storePairResults ctx summary s = .ok t) :
    StoredRows ctx summary s.pairRuns t.pairRuns := by
  obtain ⟨u, hu, h⟩ := bind_ok.mp h
  have hstart : RowsUpTo ctx (fun _ => none) s.pairRuns s.pairRuns :=
    ⟨fun r hr _ => hr, fun _ _ _ _ hw => absurd hw.symm (Option.some_ne_none _), fun hs => hs⟩
  have hdue : RowsUpTo ctx (lastSaid ctx.status summary) s.pairRuns
      (storeDue ctx summary u).pairRuns := by
    have hreported := rowsUpTo_reported hstart hu
    by_cases hleaves : leavesDue ctx.status = true
    · have hsaid : lastSaid ctx.status summary = fun name =>
          (innerList summary "due").foldl (dueBy name)
            ((innerList summary "pairs").foldl (saidBy name) none) := by
        funext name
        exact if_pos hleaves
      rw [hsaid]
      have hstored : storeDue ctx summary u = _ := if_pos (by
        simpa [leavesDue, or_assoc] using hleaves)
      rw [hstored]
      exact rowsUpTo_due (fun _ _ h => by rw [h]) (fun _ _ _ h => by rw [h]) hleaves hreported
    · have hsaid : lastSaid ctx.status summary = fun name =>
          (innerList summary "pairs").foldl (saidBy name) none := by
        funext name
        exact if_neg hleaves
      rw [hsaid]
      have hstored : storeDue ctx summary u = u := if_neg (by
        simpa [leavesDue, or_assoc] using hleaves)
      rw [hstored]
      exact hreported
  by_cases hrunning : ctx.status = .running
  · rw [if_pos hrunning] at h
    obtain rfl := Except.ok.inj h
    exact ⟨hdue, fun hended => absurd hrunning hended⟩
  · rw [if_neg hrunning] at h
    obtain rfl := Except.ok.inj h
    obtain ⟨hended, hfailed⟩ := unfinishedStatus_cases ctx.status
    refine ⟨⟨fun r hr hjob => ?_, fun r hr hjob w hw => ?_, fun hs r hr => ?_⟩,
      fun _ r hr hjob => ?_⟩ <;>
      rcases mem_terminalizeAttempts hr with
        ⟨hold, hclosed⟩ | ⟨old, hold, holdJob, hopen, hkey, hok, hstatus⟩
    · exact hdue.others r hold hjob
    · exact absurd ((Prod.mk.inj hkey).1.trans holdJob) hjob
    · exact hdue.agrees r hold hjob w hw
    · rw [(Prod.mk.inj hkey).2] at hw
      exact absurd hopen (hdue.agrees old hold holdJob w hw).ended
    · exact hdue.coherent hs r hold
    · exact .of_failed hok (by rw [hstatus]; exact hfailed)
    · exact hclosed hjob
    · rw [hstatus]
      exact hended

end Storing

/-! ### The summaries that are stored -/

/-- The marks of a preview: it says that it was cut, and from how many bytes. -/
def isCutPreview (d : Dict) : Bool :=
  match Dict.get d "truncated", Dict.get d "original_bytes" with
  | .bool true, .int bytes => decide ((maxJobSummaryBytes : Int) < bytes)
  | _, _ => false

/-- The summary stored with a job, unless it is a preview. -/
def Job.shownSummary (j : Job) : Option Dict :=
  (j.summaryJson.bind fun text => (jsonLoads text).bind asDict).filter fun d => !isCutPreview d

theorem isCutPreview_cutValue {v : Value} {maxBytes : Nat}
    (h : maxJobSummaryBytes < encodedSize v) : isCutPreview (cutValue v maxBytes) = true := by
  obtain ⟨htruncated, hbytes⟩ := cutValue_marks v maxBytes
  unfold isCutPreview
  rw [htruncated, hbytes]
  exact decide_eq_true (by exact_mod_cast h)

/-- A text that fits shows the value it was written from. -/
theorem shown_of_fitting {j : Job} {d : Dict} {maxBytes : Nat}
    (hd : (Value.dict d).wellFormed = true) (hwhole : isCutPreview d = false)
    (hfits : encodedSize (.dict d) ≤ maxBytes)
    (htext : j.summaryJson = some (jsonDumpsBounded (.dict d) maxBytes)) :
    j.shownSummary = some d := by
  have hread := jsonLoads_bounded_fits hd hfits
  rw [Job.shownSummary, htext, Option.bind_some, hread]
  simp [asDict, hwhole]

/-- A bounded text shows the value itself or nothing. -/
theorem shown_of_bounded {j : Job} {d d' : Dict} (hd : (Value.dict d).wellFormed = true)
    (htext : j.summaryJson = some (jsonDumpsBounded (.dict d) maxJobSummaryBytes))
    (h : j.shownSummary = some d') : d' = d := by
  unfold Job.shownSummary at h
  rw [htext, Option.bind_some] at h
  obtain ⟨hread, hwhole⟩ := Option.filter_eq_some_iff.mp h
  by_cases hfits : encodedSize (.dict d) ≤ maxJobSummaryBytes
  · rw [jsonLoads_bounded_fits hd hfits] at hread
    exact (Option.some.inj hread).symm
  · have hexceeds : maxJobSummaryBytes < encodedSize (.dict d) := by omega
    rw [jsonLoads_bounded_exceeds hd hexceeds] at hread
    obtain rfl := Option.some.inj hread
    rw [isCutPreview_cutValue hexceeds] at hwhole
    cases hwhole

theorem shortDec_canonical (m : Int) (k : Nat) : (shortDec m k).canonical = true := by
  induction k generalizing m with
  | zero => rfl
  | succ k ih =>
    unfold shortDec
    split_ifs with h
    · exact ih (m / 10)
    · simp [PyFloat.canonical, h]

theorem staleSummary_wellFormed (reason : String) (now : Time) :
    (staleSummary reason now).wellFormed = true := by
  have htime : (timeValue now).wellFormed = true := shortDec_canonical now 6
  unfold staleSummary
  rw [wellFormed_dict_iff]
  refine ⟨fun e he => ?_, by simp⟩
  simp only [List.mem_cons, List.not_mem_nil, or_false] at he
  rcases he with rfl | rfl
  · rfl
  · exact htime

/-- A stale job names no pair. -/
theorem lastSaid_stale (status : JobStatus) (reason : String) (now : Time) (name : String) :
    lastSaid status [("error", .str reason), ("recovered_at", timeValue now)] name = none := by
  unfold lastSaid
  split_ifs <;> rfl

/-- The text recorded with a stale job shows nothing about pairs. -/
def NamesNoPair (text : String) : Prop :=
  ∀ j : Job, j.summaryJson = some text → ∀ d, j.shownSummary = some d →
    ∀ name, lastSaid j.status d name = none

theorem namesNoPair_bounded (reason : String) (now : Time) :
    NamesNoPair (jsonDumpsBounded (staleSummary reason now) maxJobSummaryBytes) := by
  intro j htext d hd name
  rw [shown_of_bounded (staleSummary_wellFormed reason now) htext hd]
  exact lastSaid_stale j.status reason now name

theorem namesNoPair_plain (reason : String) (now : Time) :
    NamesNoPair (jsonDumps plainJson (staleSummary reason now)) := by
  intro j htext d hd name
  unfold Job.shownSummary at hd
  rw [htext, Option.bind_some, jsonLoads_jsonDumps (staleSummary_wellFormed reason now)] at hd
  obtain ⟨hread, -⟩ := Option.filter_eq_some_iff.mp hd
  obtain rfl := Option.some.inj hread
  exact lastSaid_stale j.status reason now name

/-! ### The invariant -/

/-- The attempts follow their jobs. -/
structure Follows (s : JobStore) : Prop where
  unique : (s.jobs.map Job.id).Nodup
  fresh : ∀ j ∈ s.jobs, j.id < s.nextJobId
  owned : ∀ r ∈ s.pairRuns, r.jobId < s.nextJobId
  closed : ∀ j ∈ s.jobs, j.status ≠ .running → ∀ r ∈ s.pairRuns, r.jobId = j.id →
    r.status ≠ .running
  coherent : ∀ r ∈ s.pairRuns, r.Coherent
  agrees : ∀ j ∈ s.jobs, ∀ d, j.shownSummary = some d → ∀ r ∈ s.pairRuns, r.jobId = j.id →
    ∀ w, lastSaid j.status d r.pairName = some w → w.Agrees j.kind j.status r

theorem follows_empty : Follows .empty := by
  refine ⟨List.nodup_nil, ?_, ?_, ?_, ?_, ?_⟩
  all_goals exact fun _ h => absurd h List.not_mem_nil

theorem Follows.job_eq {s : JobStore} (hs : Follows s) {j k : Job} (hj : j ∈ s.jobs)
    (hk : k ∈ s.jobs) (hid : j.id = k.id) : j = k :=
  List.inj_on_of_nodup_map hs.unique hj hk hid

/-- The jobs and the attempts are all that matters. -/
theorem Follows.same {s t : JobStore} (hs : Follows s) (hjobs : t.jobs = s.jobs)
    (hnext : t.nextJobId = s.nextJobId) (hruns : t.pairRuns = s.pairRuns) : Follows t := by
  refine ⟨?_, ?_, ?_, ?_, ?_, ?_⟩
  · rw [hjobs]
    exact hs.unique
  · rw [hjobs, hnext]
    exact hs.fresh
  · rw [hruns, hnext]
    exact hs.owned
  · rw [hjobs, hruns]
    exact hs.closed
  · rw [hruns]
    exact hs.coherent
  · rw [hjobs, hruns]
    exact hs.agrees

/-! ### Starting -/

/-- What a start does to the attempts: rows of the new job are added, and they are open. -/
theorem jobStart_runs {r : StartRequest} {now : Time} {s t : JobStore} {new : Nat}
    (h : jobStart r now s = .ok (new, t)) : ∀ row ∈ t.pairRuns,
      row ∈ s.pairRuns ∨ (row.jobId = s.nextJobId ∧ row.ok = false ∧ row.status = .running) := by
  have hstarted : ∀ row ∈ startedRuns r now s,
      row.jobId = s.nextJobId ∧ row.ok = false ∧ row.status = .running := by
    intro row hrow
    obtain ⟨attempt, _, hattempt⟩ := List.mem_filterMap.mp hrow
    by_cases hname : strippedText attempt "name" = ""
    · simp [startedRun, hname] at hattempt
    · simp only [startedRun, hname, if_false] at hattempt
      obtain rfl := Option.some.inj hattempt
      exact ⟨rfl, rfl, rfl⟩
  have hfold : ∀ (rows : List PairRun) (u : JobStore), ∀ row ∈
      (rows.foldl (fun s row => storeStarted now row s) u).pairRuns,
      row ∈ u.pairRuns ∨ row ∈ rows := by
    intro rows
    induction rows with
    | nil => exact fun u row hrow => Or.inl hrow
    | cons first rows ih =>
      intro u row hrow
      rcases ih (storeStarted now first u) row hrow with hold | hlater
      · rcases mem_insertIgnored hold with hold | rfl
        · exact Or.inl hold
        · exact Or.inr List.mem_cons_self
      · exact Or.inr (List.mem_cons_of_mem first hlater)
  intro row hrow
  unfold jobStart at h
  by_cases hkind : r.kind = "" ∨ 64 < r.kind.length
  · rw [if_pos hkind] at h
    cases h
  rw [if_neg hkind] at h
  generalize (if r.exclusiveScope then latestRunning (scopeKinds r.kind) s.jobs else none)
    = running at h
  cases running with
  | some j => cases h
  | none =>
    simp only at h
    split_ifs at h <;>
    · obtain ⟨-, rfl⟩ := Prod.mk.inj (Except.ok.inj h)
      exact (hfold (startedRuns r now s) _ row hrow).imp id (hstarted row)

theorem follows_jobStart {r : StartRequest} {now : Time} {s t : JobStore} {new : Nat}
    (hs : Follows s) (h : jobStart r now s = .ok (new, t)) : Follows t := by
  obtain ⟨_, _, hnext, j, hid, hrunning, hsummary, _, hjobs⟩ := jobStart_jobs h
  have hruns := jobStart_runs h
  have hold : ∀ k ∈ s.jobs, ∀ row ∈ t.pairRuns, row.jobId = k.id → row ∈ s.pairRuns := by
    intro k hk row hrow hjob
    refine (hruns row hrow).resolve_right fun hnew => ?_
    exact absurd (hs.fresh k hk) (by omega)
  refine ⟨?_, fun k hk => ?_, fun row hrow => ?_, fun k hk hended row hrow hjob => ?_,
    fun row hrow => ?_, fun k hk d hd row hrow hjob w hw => ?_⟩
  · rw [hjobs, List.map_append, List.nodup_append]
    refine ⟨hs.unique, List.nodup_singleton _, fun a ha b hb hab => ?_⟩
    obtain ⟨k, hk, rfl⟩ := List.mem_map.mp ha
    obtain rfl := List.mem_singleton.mp hb
    exact absurd (hs.fresh k hk) (by omega)
  · rw [hjobs] at hk
    rw [hnext]
    rcases List.mem_append.mp hk with hk | hk
    · exact Nat.lt_succ_of_lt (hs.fresh k hk)
    · rw [List.mem_singleton.mp hk, hid]
      exact Nat.lt_succ_self _
  · rw [hnext]
    rcases hruns row hrow with hrow | ⟨hrow, _⟩
    · exact Nat.lt_succ_of_lt (hs.owned row hrow)
    · rw [hrow]
      exact Nat.lt_succ_self _
  · rw [hjobs] at hk
    rcases List.mem_append.mp hk with hk | hk
    · exact hs.closed k hk hended row (hold k hk row hrow hjob) hjob
    · rw [List.mem_singleton.mp hk] at hended
      exact absurd hrunning hended
  · rcases hruns row hrow with hrow | ⟨_, hok, hopen⟩
    · exact hs.coherent row hrow
    · exact .of_failed hok (by rw [hopen]; decide)
  · rw [hjobs] at hk
    rcases List.mem_append.mp hk with hk | hk
    · exact hs.agrees k hk d hd row (hold k hk row hrow hjob) hjob w hw
    · rw [List.mem_singleton.mp hk, Job.shownSummary, hsummary] at hd
      cases hd

/-! ### Storing results -/

/-- Results are stored for one job, which has the status, and shows the summary, that they
come with; the other jobs stay as they are. -/
theorem Follows.stored {s t : JobStore} (hs : Follows s) {ctx : ResultContext} {d : Dict}
    (hstored : StoredRows ctx d s.pairRuns t.pairRuns) (hid : ctx.jobId < s.nextJobId)
    (hids : t.jobs.map Job.id = s.jobs.map Job.id) (hnext : t.nextJobId = s.nextJobId)
    (hothers : ∀ j ∈ t.jobs, j.id ≠ ctx.jobId → j ∈ s.jobs)
    (hown : ∀ j ∈ t.jobs, j.id = ctx.jobId → j.status = ctx.status ∧ j.kind = ctx.kind ∧
      ∀ d', j.shownSummary = some d' → d' = d) : Follows t := by
  refine ⟨hids ▸ hs.unique, fun j hj => ?_, fun r hr => ?_, fun j hj hended r hr hjob => ?_,
    hstored.coherent hs.coherent, fun j hj d' hd' r hr hjob w hw => ?_⟩
  · obtain ⟨k, hk, hkid⟩ := List.mem_map.mp (hids ▸ List.mem_map_of_mem hj)
    rw [hnext, ← hkid]
    exact hs.fresh k hk
  · rw [hnext]
    by_cases hjob : r.jobId = ctx.jobId
    · exact hjob ▸ hid
    · exact hs.owned r (hstored.others r hr hjob)
  · by_cases hctx : j.id = ctx.jobId
    · exact hstored.closed ((hown j hj hctx).1 ▸ hended) r hr (hjob.trans hctx)
    · exact hs.closed j (hothers j hj hctx) hended r
        (hstored.others r hr fun h => hctx (hjob.symm.trans h)) hjob
  · by_cases hctx : j.id = ctx.jobId
    · obtain ⟨hstatus, hkind, hshown⟩ := hown j hj hctx
      rw [hshown d' hd', hstatus] at hw
      rw [hkind, hstatus]
      exact hstored.agrees r hr (hjob.trans hctx) w hw
    · exact hs.agrees j (hothers j hj hctx) d' hd' r
        (hstored.others r hr fun h => hctx (hjob.symm.trans h)) hjob w hw

/-- The arguments of a finish are in order: the summary is a value of the program, and the
row was read from the tables. -/
def FinishReads (row : Job) (summary : Option Dict) (s : JobStore) : Prop :=
  (∀ d, summary = some d → (Value.dict d).wellFormed = true) ∧
    ∀ j ∈ s.jobs, j.id = row.id → j.kind = row.kind

theorem follows_finishWrite {row : Job} {status : JobStatus} {summary : Option Dict}
    {now : Time} {s t : JobStore} {done : Bool} (hs : Follows s)
    (hreads : FinishReads row summary s)
    (h : finishWrite row status summary now s = .ok (done, t)) : Follows t := by
  obtain ⟨_, hnext, _, hjobs⟩ := finishWrite_jobs h
  unfold finishWrite at h
  split_ifs at h with hany
  · obtain ⟨-, rfl⟩ := Prod.mk.inj (Except.ok.inj h)
    exact hs
  obtain ⟨u, hu, h⟩ := bind_ok.mp h
  obtain ⟨-, rfl⟩ := Prod.mk.inj (Except.ok.inj h)
  have hstored := storedRows_of_storePairResults hu
  obtain ⟨k, hk, hopen⟩ := List.any_eq_true.mp (Bool.not_eq_false _ ▸ hany)
  obtain ⟨hkid, hrunning⟩ := Bool.and_eq_true _ _ ▸ hopen
  have hkid : k.id = row.id := of_decide_eq_true hkid
  refine hs.stored hstored (hkid ▸ hs.fresh k hk) ?_ hnext (fun j hj hne => ?_)
    fun j hj hid => ?_
  · rw [hjobs]
    exact Tables.map_key_updateWhere (by intro _; rfl) s.jobs
  · rw [hjobs] at hj
    obtain ⟨old, hold, rfl⟩ := List.mem_map.mp hj
    split_ifs at hne ⊢ with hmatch
    · exact absurd (of_decide_eq_true (Bool.and_eq_true _ _ ▸ hmatch).1) hne
    · exact hold
  · rw [hjobs] at hj
    obtain ⟨old, hold, rfl⟩ := List.mem_map.mp hj
    have holdId : old.id = row.id := by
      split_ifs at hid
      · exact hid
      · exact hid
    have hmatch : isRunningJob row.id old = true := by
      rw [hs.job_eq hold hk (holdId.trans hkid.symm)]
      exact hopen
    rw [if_pos hmatch]
    refine ⟨rfl, hreads.2 old hold holdId, fun d' hd' => ?_⟩
    cases summary with
    | none => cases hd'
    | some d => exact shown_of_bounded (hreads.1 d rfl) rfl hd'

theorem follows_backfillJob {j : Job} {s t : JobStore} (hs : Follows s) (hj : j ∈ s.jobs)
    (h : backfillJob j s = .ok t) : Follows t ∧ t.jobs = s.jobs := by
  unfold backfillJob at h
  cases htext : j.summaryJson with
  | none =>
    rw [htext] at h
    obtain rfl := Except.ok.inj h
    exact ⟨hs, rfl⟩
  | some text =>
    rw [htext] at h
    simp only at h
    split at h
    · rename_i d hread
      obtain ⟨expected, _, h⟩ := bind_ok.mp h
      split_ifs at h
      · obtain rfl := Except.ok.inj h
        exact ⟨hs, rfl⟩
      · have hstored := storedRows_of_storePairResults h
        have hjobs : t.jobs = s.jobs := IgnoresRuns.storePairResults (fun _ _ _ => rfl) h
        have hnext : t.nextJobId = s.nextJobId :=
          IgnoresRuns.storePairResults (fun _ _ _ => rfl) h
        refine ⟨hs.stored hstored (hs.fresh j hj) (by rw [hjobs]) hnext
          (fun k hk _ => hjobs ▸ hk) fun k hk hid => ?_, hjobs⟩
        obtain rfl := hs.job_eq (hjobs ▸ hk) hj hid
        refine ⟨rfl, rfl, fun d' hd' => ?_⟩
        unfold Job.shownSummary at hd'
        rw [htext, Option.bind_some] at hd'
        obtain ⟨hshown, _⟩ := Option.filter_eq_some_iff.mp hd'
        obtain ⟨v, hv, hdict⟩ := Option.bind_eq_some_iff.mp hshown
        rw [if_neg (jsonLoads_ne_empty hv), hv] at hread
        obtain rfl := Option.some.inj hread
        exact (Option.some.inj hdict).symm
    · obtain rfl := Except.ok.inj h
      exact ⟨hs, rfl⟩

theorem follows_backfillPairRuns {s t : JobStore} (hs : Follows s)
    (h : backfillPairRuns s = .ok t) : Follows t := by
  have hfold : ∀ (jobs : List Job) (u : JobStore), (∀ j ∈ jobs, j ∈ u.jobs) → Follows u →
      jobs.foldlM (fun s j => backfillJob j s) u = .ok t → Follows t := by
    intro jobs
    induction jobs with
    | nil =>
      intro u _ hu h
      obtain rfl := Except.ok.inj h
      exact hu
    | cons j jobs ih =>
      intro u hmem hu h
      rw [List.foldlM_cons] at h
      obtain ⟨v, hv, h⟩ := bind_ok.mp h
      obtain ⟨hfollows, hjobs⟩ := follows_backfillJob hu (hmem j List.mem_cons_self) hv
      exact ih v (fun k hk => hjobs ▸ hmem k (List.mem_cons_of_mem j hk)) hfollows h
  exact hfold s.jobs s (fun _ hj => hj) hs h

/-! ### Stale jobs and deletions -/

/-- Rows after the open attempts of several jobs were closed as stale. -/
theorem mem_foldl_terminalize (now : Time) (error : Option String) (rows : List Job)
    (s : JobStore) : ∀ r ∈ (rows.foldl (fun s row =>
      terminalizeAttempts row.id .stale now error s) s).pairRuns,
      (r ∈ s.pairRuns ∧ (r.jobId ∈ rows.map Job.id → r.status ≠ .running)) ∨
        ∃ old ∈ s.pairRuns, r.key = old.key ∧ r.jobId ∈ rows.map Job.id ∧ r.ok = false ∧
          r.status = .stale := by
  induction rows generalizing s with
  | nil => exact fun r hr => Or.inl ⟨hr, nofun⟩
  | cons row rows ih =>
    intro r hr
    rw [List.map_cons]
    rcases ih _ r hr with ⟨hmid, hclosed⟩ | ⟨mid, hmid, hkey, hjob, hok, hstatus⟩
    · rcases mem_terminalizeAttempts hmid with
        ⟨hold, hended⟩ | ⟨old, hold, hjob, _, hkey, hok, hstatus⟩
      · refine Or.inl ⟨hold, fun hmem => ?_⟩
        rcases List.mem_cons.mp hmem with hfirst | hlater
        · exact hended hfirst
        · exact hclosed hlater
      · refine Or.inr ⟨old, hold, hkey, ?_, hok, hstatus⟩
        exact List.mem_cons.mpr (Or.inl ((Prod.mk.inj hkey).1.trans hjob))
    · have hthere : ∃ old ∈ s.pairRuns, mid.key = old.key := by
        rcases mem_terminalizeAttempts hmid with ⟨hold, _⟩ | ⟨old, hold, _, _, hsame, _⟩
        · exact ⟨mid, hold, rfl⟩
        · exact ⟨old, hold, hsame⟩
      obtain ⟨old, hold, hsame⟩ := hthere
      exact Or.inr ⟨old, hold, hkey.trans hsame, List.mem_cons_of_mem _ hjob, hok, hstatus⟩

theorem follows_markStaleWhere {s : JobStore} (hs : Follows s) (p : Job → Bool) (reason : String)
    {summary : String} (hsummary : NamesNoPair summary) (now : Time) :
    Follows (markStaleWhere p reason summary now s) := by
  obtain ⟨_, hnext, hjobs⟩ := markStaleWhere_jobs p reason summary now s
  have hruns := mem_foldl_terminalize now (some reason)
    (s.jobs.filter fun j => j.status = .running && p j) { s with
      jobs := Tables.updateWhere (fun j => j.status = .running && p j)
        (fun j => { j with status := .stale, endedAt := some now, summaryJson := some summary })
        s.jobs }
  change ∀ r ∈ (markStaleWhere p reason summary now s).pairRuns, _ at hruns
  generalize markStaleWhere p reason summary now s = t at hnext hjobs hruns
  -- a job that was not marked owns no row that was closed
  have hkept : ∀ j ∈ s.jobs, (j.status = .running && p j) = false → ∀ r ∈ t.pairRuns,
      r.jobId = j.id → r ∈ s.pairRuns := by
    intro j hj hmark r hr hjob
    rcases hruns r hr with ⟨hold, _⟩ | ⟨_, _, _, hmem, _⟩
    · exact hold
    · obtain ⟨k, hk, hkid⟩ := List.mem_map.mp hmem
      obtain ⟨hk, hkmark⟩ := List.mem_filter.mp hk
      rw [hs.job_eq hk hj (hkid.trans hjob), hmark] at hkmark
      cases hkmark
  have hcases : ∀ j ∈ t.jobs, (∃ old ∈ s.jobs, (old.status = .running && p old) = true ∧
      j = { old with status := .stale, endedAt := some now, summaryJson := some summary }) ∨
      (j ∈ s.jobs ∧ (j.status = .running && p j) = false) := by
    intro j hj
    rw [hjobs] at hj
    obtain ⟨old, hold, rfl⟩ := List.mem_map.mp hj
    by_cases hmark : (old.status = .running && p old) = true
    · rw [if_pos hmark]
      exact Or.inl ⟨old, hold, hmark, rfl⟩
    · rw [if_neg hmark]
      exact Or.inr ⟨hold, Bool.eq_false_iff.mpr hmark⟩
  refine ⟨?_, fun j hj => ?_, fun r hr => ?_, fun j hj hended r hr hjob => ?_, fun r hr => ?_,
    fun j hj d hd r hr hjob w hw => ?_⟩
  · rw [hjobs, Tables.map_key_updateWhere (by intro _; rfl)]
    exact hs.unique
  · rw [hnext]
    rcases hcases j hj with ⟨old, hold, _, rfl⟩ | ⟨hold, _⟩
    · exact hs.fresh old hold
    · exact hs.fresh j hold
  · rw [hnext]
    rcases hruns r hr with ⟨hold, _⟩ | ⟨old, hold, hkey, _⟩
    · exact hs.owned r hold
    · rw [(Prod.mk.inj hkey).1]
      exact hs.owned old hold
  · rcases hcases j hj with ⟨old, hold, hmark, rfl⟩ | ⟨hold, hmark⟩
    · rcases hruns r hr with ⟨_, hclosed⟩ | ⟨_, _, _, _, _, hstatus⟩
      · exact hclosed (List.mem_map.mpr ⟨old, List.mem_filter.mpr ⟨hold, hmark⟩, hjob.symm⟩)
      · rw [hstatus]
        decide
    · exact hs.closed j hold hended r (hkept j hold hmark r hr hjob) hjob
  · rcases hruns r hr with ⟨hold, _⟩ | ⟨_, _, _, _, hok, hstatus⟩
    · exact hs.coherent r hold
    · exact .of_failed hok (by rw [hstatus]; decide)
  · rcases hcases j hj with ⟨old, hold, _, rfl⟩ | ⟨hold, hmark⟩
    · rw [hsummary _ rfl d hd] at hw
      cases hw
    · exact hs.agrees j hold d hd r (hkept j hold hmark r hr hjob) hjob w hw

theorem follows_deleteJobs {s : JobStore} (hs : Follows s) (p : Job → Bool) :
    Follows (deleteJobs p s) := by
  have hjobs : ∀ j ∈ (deleteJobs p s).jobs, j ∈ s.jobs := fun j hj => (List.mem_filter.mp hj).1
  have hruns : ∀ r ∈ (deleteJobs p s).pairRuns, r ∈ s.pairRuns :=
    fun r hr => (List.mem_filter.mp hr).1
  refine ⟨hs.unique.sublist (List.filter_sublist.map _), fun j hj => hs.fresh j (hjobs j hj),
    fun r hr => hs.owned r (hruns r hr), fun j hj hended r hr hjob => ?_,
    fun r hr => hs.coherent r (hruns r hr), fun j hj d hd r hr hjob w hw => ?_⟩
  · exact hs.closed j (hjobs j hj) hended r (hruns r hr) hjob
  · exact hs.agrees j (hjobs j hj) d hd r (hruns r hr) hjob w hw

/-! ### Runs -/

/-- The transactions, with finishes whose arguments are in order. -/
def rowStep : JobStore → StoreAction → JobStore → Prop :=
  Restrict storeStep fun s a => ∀ row status summary now, a = .finish row status summary now →
    FinishReads row summary s

theorem terminalStage_frame {id : Nat} {status : JobStatus} {summary : Option Dict} {now : Time}
    {s t : JobStore} (h : terminalStage id status summary now s = .ok t) :
    t.jobs = s.jobs ∧ t.nextJobId = s.nextJobId ∧ t.pairRuns = s.pairRuns := by
  unfold terminalStage at h
  split_ifs at h
  cases hj : s.job id with
  | none =>
    rw [hj] at h
    cases h
  | some j =>
    rw [hj] at h
    simp only at h
    cases hi : s.intent id with
    | none =>
      rw [hi] at h
      obtain rfl := Except.ok.inj h
      exact ⟨rfl, rfl, rfl⟩
    | some i =>
      rw [hi] at h
      simp only at h
      split_ifs at h
      obtain rfl := Except.ok.inj h
      exact ⟨rfl, rfl, rfl⟩

/-- **Every transaction keeps the attempts with their jobs.** -/
theorem rowStep_follows {s t : JobStore} {a : StoreAction} (hs : Follows s)
    (h : rowStep s a t) : Follows t := by
  obtain ⟨rfl, hreads⟩ := h
  cases a with
  | start request now =>
    simp only [StoreAction.run]
    cases hstart : jobStart request now s with
    | error e => exact hs
    | ok r => exact follows_jobStart hs hstart
  | finish row status summary now =>
    simp only [StoreAction.run]
    cases hwrite : finishWrite row status summary now s with
    | error e => exact hs
    | ok r => exact follows_finishWrite hs (hreads row status summary now rfl) hwrite
  | stage id status summary now =>
    simp only [StoreAction.run]
    cases hstage : terminalStage id status summary now s with
    | error e => exact hs
    | ok t =>
      obtain ⟨hjobs, hnext, hruns⟩ := terminalStage_frame hstage
      exact hs.same hjobs hnext hruns
  | applied id now => exact hs.same rfl rfl rfl
  | markStale id reason now =>
    exact follows_markStaleWhere hs _ _ (namesNoPair_bounded reason now) now
  | markAllStale kinds reason now =>
    exact follows_markStaleWhere hs _ _ (namesNoPair_bounded reason now) now
  | markOldStale maxAge kind reason now =>
    exact follows_markStaleWhere hs _ _ (namesNoPair_plain reason now) now
  | prune olderThanDays keepLatest now => exact follows_deleteJobs hs _
  | deleteFailed =>
    simp only [StoreAction.run]
    cases hdelete : jobsDeleteFailed s with
    | error e => exact hs
    | ok r =>
      obtain ⟨count, t⟩ := r
      obtain ⟨warned, _, hdelete⟩ := bind_ok.mp hdelete
      obtain ⟨-, rfl⟩ := Prod.mk.inj (Except.ok.inj hdelete)
      exact follows_deleteJobs hs _
  | backfillRuns =>
    simp only [StoreAction.run]
    cases hfill : backfillPairRuns s with
    | error e => exact hs
    | ok t => exact follows_backfillPairRuns hs hfill
  | backfillHistory now => exact hs.same rfl rfl rfl
  | lookup n k =>
    simp only [StoreAction.run, pairBaselineState]
    by_cases hblank : strip n = "" ∨ lookupKey n k = ""
    · rw [if_pos hblank]
      exact hs
    · rw [if_neg hblank]
      split
      · exact hs
      · exact hs.same rfl rfl rfl
      · exact hs

/-- **The attempts follow their jobs** in every state that the transactions reach: no
attempt of an ended job is open, flag and status of every attempt agree, and where the
stored summary, being no preview, says something of the pair, both agree with what it says
last. -/
theorem pair_rows_follow {s : JobStore} {as : List StoreAction} (h : Run rowStep .empty as s) :
    (∀ j ∈ s.jobs, j.status ≠ .running → ∀ r ∈ s.pairRuns, r.jobId = j.id →
      r.status ≠ .running) ∧
    (∀ r ∈ s.pairRuns, r.Coherent) ∧
    ∀ j ∈ s.jobs, ∀ d, j.shownSummary = some d → ∀ r ∈ s.pairRuns, r.jobId = j.id →
      ∀ w, lastSaid j.status d r.pairName = some w → w.Agrees j.kind j.status r := by
  have hs : Follows s := h.preserves Follows (fun _ _ _ hu hstep => rowStep_follows hu hstep)
    follows_empty
  exact ⟨hs.closed, hs.coherent, hs.agrees⟩

/-- What was staged is read back as a value of the program. -/
theorem stagedSummary_wellFormed {d : Dict} (hd : (Value.dict d).wellFormed = true)
    (maxBytes : Nat) :
    (Value.dict (stagedSummary (jsonDumpsBounded (.dict d) maxBytes))).wellFormed = true := by
  have hread : ∃ d', jsonLoads (jsonDumpsBounded (.dict d) maxBytes) = some (.dict d') ∧
      (Value.dict d').wellFormed = true := by
    by_cases hfits : encodedSize (.dict d) ≤ maxBytes
    · exact ⟨d, jsonLoads_bounded_fits hd hfits, hd⟩
    · exact ⟨_, jsonLoads_bounded_exceeds hd (by omega), cutValue_wellFormed hd maxBytes⟩
  obtain ⟨d', hread, hd'⟩ := hread
  unfold stagedSummary
  rw [if_neg (jsonLoads_ne_empty hread), hread]
  exact hd'

/-- `job_finish_external` is a run of these transactions: what it stages it reads back, and
it finishes the job with that. -/
theorem finishExternal_run (c : FinishCase) (hs : Follows c.store) :
    ∃ as, Run rowStep c.store as c.external.2 := by
  obtain ⟨row, hrow, hrunning⟩ := c.exists_row
  obtain ⟨intents, hstage, hread⟩ := c.stage_spec
  have hfirst : rowStep c.store (.stage c.id c.status c.summary c.stagedAt)
      (c.store.over c.store.jobs intents) := by
    refine ⟨?_, fun _ _ _ _ h => by cases h⟩
    show _ = committed ((terminalStage c.id c.status c.summary c.stagedAt c.store).map
      fun t => ((), t)) c.store
    rw [hstage]
    rfl
  have hreads : FinishReads row (some c.readBack) (c.store.over c.store.jobs intents) := by
    refine ⟨fun d hd => ?_, fun j hj hid => ?_⟩
    · obtain rfl := Option.some.inj hd
      exact stagedSummary_wellFormed c.wellFormed _
    · rw [hs.job_eq hj (Tables.mem_of_find hrow) hid]
  have hsecond : ∀ t, t = (StoreAction.finish row c.status (some c.readBack) c.now).run
      (c.store.over c.store.jobs intents) → rowStep (c.store.over c.store.jobs intents)
        (.finish row c.status (some c.readBack) c.now) t := by
    intro t ht
    refine ⟨ht, fun row' status summary now h => ?_⟩
    injection h with hrow' _ hsummary _
    subst hrow' hsummary
    exact hreads
  have hjob : (c.store.over c.store.jobs intents).job c.id = some row := hrow
  have hfinish : jobFinish c.id c.status (some c.readBack) c.now
      (c.store.over c.store.jobs intents)
      = finishWrite row c.status (some c.readBack) c.now (c.store.over c.store.jobs intents) := by
    have hfound : finishRead c.id (c.store.over c.store.jobs intents) = .ok (some row) := by
      simp [finishRead, hjob, hrunning]
    unfold jobFinish
    rw [hfound]
    rfl
  have hany : (c.store.over c.store.jobs intents).jobs.any (isRunningJob row.id) = true :=
    any_running hjob hrunning
  unfold FinishCase.external finishExternal
  rw [hstage]
  simp only [terminalApply, hread, bind, Except.bind, hfinish]
  cases hwrite : finishWrite row c.status (some c.readBack) c.now
      (c.store.over c.store.jobs intents) with
  | error e => exact ⟨[_], .cons hfirst (.nil _)⟩
  | ok r =>
    obtain ⟨done, t⟩ := r
    obtain ⟨_, _, hdone, _⟩ := finishWrite_jobs hwrite
    have hcheck : applyCheck c.id c.status done t = .ok () := by
      rw [hdone, hany]
      simp [applyCheck]
    simp only [hcheck]
    refine ⟨[_, _, .applied c.id c.now], .cons hfirst (.cons (hsecond t ?_) (.cons ?_ (.nil _)))⟩
    · simp only [StoreAction.run, hwrite]
      rfl
    · exact ⟨rfl, fun _ _ _ _ h => by cases h⟩

/-! ### A pair with the name of the drill -/

/-- A restore drill, started by hand. -/
def drillRequest : StartRequest where
  kind := "restoretest"
  attempts := []
  exclusiveScope := true
  definitionId := none
  definitionName := none
  scheduledSlot := none
  dryRun := none
  trigger := none

/-- What the drill reports where one of the pairs is called `restore-drill`: the pair
passed, another one failed, and with it the whole drill. -/
def drillSummary : Dict :=
  [("pairs", .list [
    .dict [("name", .str "restore-drill"), ("ok", .bool true)],
    .dict [("name", .str "Photos"), ("ok", .bool false)],
    .dict [("name", .str "restore-drill"), ("ok", .bool false), ("pairs_tested", .int 2)]])]

/-- The row that starting it writes. -/
def drillJob : Job := { namedJob 1 1000000 with kind := "restoretest" }

def drillRun : List StoreAction :=
  [.start drillRequest 1000000, .finish drillJob .error (some drillSummary) 61000000]

theorem run_drill : Run rowStep .empty drillRun (JobStore.empty.after drillRun) := by
  have hstart : rowStep .empty (.start drillRequest 1000000)
      (JobStore.empty.after [.start drillRequest 1000000]) :=
    ⟨rfl, fun _ _ _ _ h => by cases h⟩
  refine .cons hstart (.cons ⟨rfl, fun row status summary now h => ?_⟩ (.nil _))
  injection h with hrow _ hsummary _
  subst hrow hsummary
  refine ⟨fun d hd => ?_, by decide +kernel⟩
  obtain rfl := Option.some.inj hd
  decide +kernel

/-- The failed drill left no attempt open. -/
theorem pair_rows_follow_drill :
    (JobStore.empty.after drillRun).jobs.map Job.status = [.error] ∧
      ∀ j ∈ (JobStore.empty.after drillRun).jobs, j.status ≠ .running →
        ∀ r ∈ (JobStore.empty.after drillRun).pairRuns, r.jobId = j.id → r.status ≠ .running :=
  ⟨by decide +kernel, (pair_rows_follow run_drill).1⟩

set_option maxRecDepth 20000 in
theorem jobs_drill : (JobStore.empty.after drillRun).jobs.map (fun j => (j.id, j.summaryJson))
    = [(1, some (jsonDumpsBounded (.dict drillSummary) maxJobSummaryBytes))] := rfl

/-- **A row can contradict an entry of its summary**: the drill is recorded under a name
that a pair may have, and its row takes the place of the pair's. -/
theorem rows_disagree_with_first_entry : ∃ as s j d pair r, Run rowStep .empty as s ∧
    j ∈ s.jobs ∧ j.shownSummary = some d ∧ .dict pair ∈ innerList d "pairs" ∧
    r ∈ s.pairRuns ∧ r.jobId = j.id ∧ r.pairName = strippedText pair "name" ∧
    Dict.get pair "ok" = .bool true ∧ r.ok = false ∧ r.status = .error := by
  have hruns : ((JobStore.empty.after drillRun).pairRuns.map fun r =>
      (r.jobId, r.pairName, r.ok, r.status))
      = [(1, "restore-drill", false, .error), (1, "Photos", false, .error)] := by decide +kernel
  obtain ⟨j, hj, hstored⟩ := List.mem_map.mp (jobs_drill ▸ List.mem_singleton_self _ :
    (1, some (jsonDumpsBounded (.dict drillSummary) maxJobSummaryBytes))
      ∈ (JobStore.empty.after drillRun).jobs.map _)
  obtain ⟨r, hr, hrow⟩ := List.mem_map.mp (hruns ▸ List.mem_cons_self :
    (1, "restore-drill", false, JobStatus.error)
      ∈ (JobStore.empty.after drillRun).pairRuns.map _)
  obtain ⟨hid, htext⟩ := Prod.mk.inj hstored
  have hsize : encodedSize (.dict drillSummary) ≤ maxJobSummaryBytes :=
    (encodedSize_le_sizeBound _).trans (by decide +kernel)
  have hshown := shown_of_fitting (by decide +kernel) (by decide) hsize htext
  obtain ⟨hjob, hrow⟩ := Prod.mk.inj hrow
  obtain ⟨hname, hrow⟩ := Prod.mk.inj hrow
  obtain ⟨hok, hstatus⟩ := Prod.mk.inj hrow
  refine ⟨_, _, j, drillSummary, [("name", .str "restore-drill"), ("ok", .bool true)], r,
    run_drill, hj, hshown, List.mem_cons_self, hr, hjob.trans hid.symm, ?_, rfl, hok, hstatus⟩
  rw [hname]
  decide +kernel

end RcloneSync
