/-
RcloneSync/RestoreDrill.lean

The restore drill of one pair (`run_pair_restore_test`) and what it reports.

A drill draws a sample of the backup copy, fetches it into a temporary directory, compares it
with the source and removes the directory again.  The report is filled in on the way, so what
it says at the end depends on where the drill stopped.  What the outside world answers at each
step is a `PairDrill`.

A report ends in one of three ways (`report_cases`): the sample was complete and the same; it
was smaller than asked for and the same; or something went wrong, and then the report says so
and no reader takes it for a success, not even from a preview of it (`Failing.not_partial`).
-/
import RcloneSync.DrillEvidence
import RcloneSync.PairRows

namespace RcloneSync

open Py

/-! ### What a drill meets -/

/-- An exception out of a step. -/
inductive Halt
  | timeout (maxRuntime : Bool)
  | raised (text : String)
  deriving DecidableEq, Repr

/-- What `_sample_paths` returns. -/
structure DrillSample where
  paths : List String
  selectedBytes : Int
  scanned : Int
  eligible : Int
  unknownSize : Int
  oversized : Int
  truncated : Bool
  timedOut : Bool
  cancelled : Bool

/-- What is given for a drill. -/
structure DrillPlan where
  env : EvidenceEnv
  pair : Dict
  sampleFiles : Int
  maxTotalMb : Int
  logFile : String

/-- What the steps of a drill meet, one after the other.  A drill that stops does not come to
the later ones. -/
structure PairDrill where
  /-- the error of making the temporary directory -/
  tempRoot : Option String
  /-- the working directory, or the error of making it -/
  workspace : Except String String
  /-- the directory for the data and the configured time limit -/
  prepared : Except Halt Unit
  /-- the time limit in hours, as it is shown -/
  hours : String
  sample : Except Halt DrillSample
  freeSpace : Except Halt Int
  listing : Except Halt Unit
  /-- the command line of the copy, as it is shown -/
  command : String
  copy : Except Halt Int
  cancelledAfterCopy : Bool
  /-- the files that were fetched, with their sizes -/
  fetched : Except Halt (List (String × Nat))
  check : Except Halt Int
  cancelledAfterCheck : Bool
  /-- the digest of the list of digests -/
  manifest : Except Halt String
  checkedAt : Time
  /-- why the working directory could not be removed -/
  cleanup : Option String

/-- `_endpoints`: the source and the backup copy. -/
def drillEndpoints (pair : Dict) : String × String :=
  if strip (lower (pair.textOr "direction" "bisync")) = "push" then
    (pair.textOr "local" "", pair.textOr "remote" "")
  else (pair.textOr "remote" "", pair.textOr "local" "")

/-- The report at the start. -/
def DrillPlan.report (p : DrillPlan) : Dict :=
  [("name", .str (p.pair.textOr "name" "?")),
   ("source", .str (drillEndpoints p.pair).1),
   ("target", .str (drillEndpoints p.pair).2),
   ("requested_sample_size", .int p.sampleFiles),
   ("sample_size", .int 0),
   ("sample_status", .str "not_started"),
   ("verified", .int 0),
   ("scanned", .int 0),
   ("truncated", .bool false),
   ("log_file", .str p.logFile),
   ("evidence_binding", .dict (pairBinding p.env p.pair)),
   ("history_key", .str (restoreHistoryKey p.env p.pair))]

def DrillPlan.budget (p : DrillPlan) : Int := p.maxTotalMb * 1024 * 1024

/-! ### The steps -/

/-- What the `except` clauses add to the report. -/
def Halt.report (hours : String) (d : Dict) : Halt → Dict
  | .timeout maxRuntime =>
    d.merge [("ok", .bool false), ("sample_status", .str "runtime_timeout"),
      ("error", .str (if maxRuntime then "Maximale Laufzeit von " ++ hours ++ " h überschritten"
        else "Kein rclone-Fortschritt seit " ++ hours ++ " h"))]
  | .raised text =>
    d.merge [("ok", .bool false), ("sample_status", .str "error"), ("error", .str text)]

/-- A step that may raise, and what follows it; `d` is the report so far. -/
def PairDrill.try {α β : Type} (w : PairDrill) (d : Dict) (step : Except Halt α)
    (next : α → Except Dict β) : Except Dict β :=
  match step with
  | .error halt => .error (halt.report w.hours d)
  | .ok a => next a

/-- Why fewer files were drawn than asked for. -/
def shortfallReason (p : DrillPlan) (sample : DrillSample) : String :=
  if sample.truncated then "listing_truncated"
  else if sample.eligible < p.sampleFiles then "insufficient_eligible_files"
  else "byte_budget"

/-- `_FREE_SPACE_MARGIN_BYTES` -/
def freeSpaceMargin : Int := 64 * 1024 * 1024

def requiredSpace (sample : DrillSample) : Int :=
  sample.selectedBytes + max freeSpaceMargin (sample.selectedBytes / 10)

/-- The report with what was counted while listing. -/
def listedReport (sample : DrillSample) (d : Dict) : Dict :=
  d.merge [("scanned", .int sample.scanned), ("truncated", .bool sample.truncated),
    ("eligible_files", .int sample.eligible), ("skipped_unknown_size", .int sample.unknownSize),
    ("skipped_oversized", .int sample.oversized), ("selected_bytes", .int sample.selectedBytes)]

/-- The report with the size of the sample, and with the reason where it is too small. -/
def selectedReport (p : DrillPlan) (sample : DrillSample) (d : Dict) : Dict :=
  if (sample.paths.length : Int) < p.sampleFiles then
    d.merge [("sample_status", .str "partial_selection"),
      ("sample_shortfall_reason", .str (shortfallReason p sample))]
  else d.set "sample_status" (.str "selected")

/-- Room for the sample, and the list of its files. -/
def PairDrill.makeRoom (w : PairDrill) (p : DrillPlan) (sample : DrillSample) (d : Dict) :
    Except Dict Dict :=
  if sample.selectedBytes < 0 ∨ p.budget < sample.selectedBytes then
    .error ((Halt.raised "Stichprobe überschreitet das konfigurierte Gesamtlimit").report
      w.hours d)
  else
    w.try d w.freeSpace fun free =>
      let d := d.merge [("free_space_bytes", .int free),
        ("required_space_bytes", .int (requiredSpace sample))]
      if free < requiredSpace sample then
        .error (d.merge [("ok", .bool false),
          ("error", .str ("Nicht genügend freier Speicher für den Restore-Drill (" ++
            toString free ++ " Byte frei, " ++ toString (requiredSpace sample) ++
            " Byte benötigt)"))])
      else w.try d w.listing fun _ => .ok d

/-- The report of a sample without a file. -/
def emptySampleReport (sample : DrillSample) (d : Dict) : Dict :=
  d.merge [("ok", .bool false), ("sample_status", .str "no_candidates"),
    ("error", .str ("Ziel enthält keine Dateien innerhalb des sicheren Gesamtlimits" ++
      if sample.unknownSize ≠ 0 then
        "; Dateien mit unbekannter Größe wurden sicher ausgeschlossen" else ""))]

/-- Drawing the sample. -/
def PairDrill.drawSample (w : PairDrill) (p : DrillPlan) (sample : DrillSample) (d : Dict) :
    Except Dict Dict :=
  let d := listedReport sample d
  if sample.cancelled then
    .error (d.merge [("ok", .bool false), ("cancelled", .bool true),
      ("sample_status", .str "cancelled"), ("error", .str "Abgebrochen")])
  else if sample.timedOut then
    .error (d.merge [("ok", .bool false), ("sample_status", .str "listing_timeout"),
      ("error", .str "Listing-Timeout nach 15 Minuten")])
  else
    let drawn : Int := sample.paths.length
    let d := d.merge [("sample_size", .int drawn),
      ("sample_shortfall", .int (max 0 (p.sampleFiles - drawn)))]
    if sample.paths = [] then .error (emptySampleReport sample d)
    else if p.sampleFiles < drawn then
      .error ((Halt.raised "Stichprobenauswahl enthält mehr Dateien als angefordert").report
        w.hours d)
    else w.makeRoom p sample (selectedReport p sample d)

/-- `str(path).replace("\\", "/").lstrip("/")`. -/
def comparedPath (path : String) : String :=
  lstripOf (· = '/') (String.ofList (path.toList.map fun c => if c = '\\' then '/' else c))

/-- The fetched files are those of the sample. -/
def fetchedAll (sample : DrillSample) (fetched : List (String × Nat)) : Bool :=
  let expected := sample.paths.map comparedPath
  let restored := fetched.map fun item => lstripOf (· = '/') item.1
  fetched.length = sample.paths.length && expected.all (restored.contains ·) &&
    restored.all (expected.contains ·)

/-- The fetched files, looked at before they are compared; their number is passed on. -/
def countFetched (p : DrillPlan) (sample : DrillSample) (fetched : List (String × Nat))
    (d : Dict) : Except Dict (Nat × Dict) :=
  let bytes := (fetched.map Prod.snd).sum
  let d := d.merge [("restored_files", .int fetched.length), ("restored_bytes", .int bytes)]
  if p.budget < bytes then
    .error (d.merge [("ok", .bool false),
      ("error", .str "Rückgeholte Daten überschreiten das Gesamtlimit")])
  else if fetched.length = 0 then
    .error (d.merge [("ok", .bool false), ("sample_status", .str "restore_incomplete"),
      ("error", .str "Keine Datei aus der ausgewählten Stichprobe zurückgeholt")])
  else if fetchedAll sample fetched = false then
    .error (d.merge [("ok", .bool false), ("sample_status", .str "restore_incomplete"),
      ("error", .str ("Restore-Stichprobe unvollständig: " ++ toString fetched.length ++
        " von " ++ toString sample.paths.length ++ " ausgewählten Dateien zurückgeholt"))])
  else .ok (fetched.length, d)

/-- Fetching the sample. -/
def PairDrill.fetchSample (w : PairDrill) (p : DrillPlan) (sample : DrillSample) (d : Dict) :
    Except Dict (Nat × Dict) :=
  let d := d.set "command" (.str w.command)
  w.try d w.copy fun code =>
    if w.cancelledAfterCopy then
      .error (d.merge [("ok", .bool false), ("cancelled", .bool true),
        ("error", .str "Abgebrochen")])
    else if code ≠ 0 then
      .error (d.merge [("ok", .bool false), ("sample_status", .str "restore_failed"),
        ("return_code", .int code),
        ("error", .str ("Rückholen fehlgeschlagen (rclone copy exit " ++ toString code ++ ")"))])
    else w.try d w.fetched fun fetched => countFetched p sample fetched d

/-- The report of a sample that is the same. -/
def sameReport (p : DrillPlan) (sample : DrillSample) (pulled : Nat) (d : Dict) : Dict :=
  if (sample.paths.length : Int) < p.sampleFiles then
    let d := (d.merge [("ok", .bool false), ("verified", .int pulled),
      ("outcome", .str "partial"), ("integrity_ok", .bool true),
      ("coverage_complete", .bool false)]).erase "error"
    d.set "warning" (.str (partialRestoreWarning d))
  else
    d.merge [("ok", .bool true), ("verified", .int pulled),
      ("sample_status", .str "complete")]

/-- Comparing the sample with the source. -/
def PairDrill.compareSample (w : PairDrill) (p : DrillPlan) (sample : DrillSample) (pulled : Nat)
    (d : Dict) : Except Dict Dict :=
  w.try d w.check fun code =>
    if w.cancelledAfterCheck then
      .error (d.merge [("ok", .bool false), ("cancelled", .bool true),
        ("sample_status", .str "cancelled"), ("error", .str "Abgebrochen")])
    else
      let d := d.set "return_code" (.int code)
      if code = 0 then
        w.try d w.manifest fun digest =>
          .ok (sameReport p sample pulled (d.set "sample_manifest_sha256" (.str digest)))
      else
        .error (d.merge [("ok", .bool false), ("sample_status", .str "verification_failed"),
          ("error", .str ("Prüfsummen weichen ab oder Dateien fehlen in der Quelle " ++
            "(rclone check exit " ++ toString code ++ ") — Details im Joblog"))])

/-- All that is tried. -/
def PairDrill.body (w : PairDrill) (p : DrillPlan) (d : Dict) : Except Dict Dict :=
  w.try d w.prepared fun _ =>
    let d := (d.set "budget_bytes" (.int p.budget)).set "sample_status" (.str "listing")
    w.try d w.sample fun sample => do
      let d ← w.drawSample p sample d
      let (pulled, d) ← w.fetchSample p sample d
      w.compareSample p sample pulled d

/-- The report behind a step, whether the drill stopped there or not. -/
def reportOf : Except Dict Dict → Dict
  | .ok d => d
  | .error d => d

/-- The `finally` clause. -/
def PairDrill.cleanUp (w : PairDrill) (workdir : String) (d : Dict) : Dict :=
  let d := d.set "evidence_checked_at" (timeValue w.checkedAt)
  match w.cleanup with
  | none => d
  | some text =>
    let detail := "Temp-Bereinigung fehlgeschlagen für " ++ workdir ++ ": " ++ text
    let previous := strip (Dict.textOr d "error" "")
    ((d.erase "outcome").erase "warning").merge
      [("ok", .bool false), ("temp_cleanup_failed", .bool true),
       ("temp_cleanup_path", .str workdir), ("cleanup_error", .str text),
       ("error", .str (if previous ≠ "" then previous ++ "; " ++ detail else detail))]

/-- `run_pair_restore_test`. -/
def runPairRestoreTest (p : DrillPlan) (w : PairDrill) : Dict :=
  let d := p.report
  if (drillEndpoints p.pair).1 = "" ∨ (drillEndpoints p.pair).2 = "" then
    d.merge [("ok", .bool false), ("error", .str "Quelle oder Ziel ist nicht gesetzt")]
  else
    match w.tempRoot, w.workspace with
    | some text, _ =>
      d.merge [("ok", .bool false), ("error", .str ("Temp-Verzeichnis nicht nutzbar: " ++ text))]
    | none, .error text =>
      d.merge [("ok", .bool false), ("error", .str ("Temp-Verzeichnis nicht nutzbar: " ++ text))]
    | none, .ok workdir => w.cleanUp workdir (reportOf (w.body p d))

/-- What is reported of a pair whose turn comes after the run was cancelled. -/
def cancelledReport (env : EvidenceEnv) (pair : Dict) : Dict :=
  [("name", .str (pair.textOr "name" "?")), ("ok", .bool false), ("cancelled", .bool true),
   ("error", .str "Abgebrochen"), ("history_key", .str (restoreHistoryKey env pair)),
   ("evidence_binding", .dict (pairBinding env pair))]

/-! ### Post-conditions of a step -/

/-- Where the drill stops at a step, its report is in `P`; where it goes on, what it goes on
with is in `Q`. -/
def Ends {α : Type} (P : Dict → Prop) (Q : α → Prop) : Except Dict α → Prop
  | .error d => P d
  | .ok a => Q a

theorem Ends.bind {α β : Type} {P : Dict → Prop} {Q : α → Prop} {R : β → Prop}
    {x : Except Dict α} {f : α → Except Dict β} (hx : Ends P Q x)
    (hf : ∀ a, x = .ok a → Q a → Ends P R (f a)) : Ends P R (x >>= f) := by
  cases x with
  | error d => exact hx
  | ok a => exact hf a rfl hx

theorem Ends.try {α β : Type} {P : Dict → Prop} {Q : β → Prop} {w : PairDrill} {d : Dict}
    {step : Except Halt α} {next : α → Except Dict β}
    (hhalt : ∀ halt, P (Halt.report w.hours d halt))
    (hnext : ∀ a, step = .ok a → Ends P Q (next a)) : Ends P Q (w.try d step next) := by
  cases step with
  | error halt => exact hhalt halt
  | ok a => exact hnext a rfl

theorem Ends.ite {α : Type} {P : Dict → Prop} {Q : α → Prop} {c : Prop} [Decidable c]
    {d : Dict} {next : Except Dict α} (hstop : c → P d) (hnext : ¬ c → Ends P Q next) :
    Ends P Q (if c then .error d else next) := by
  by_cases h : c
  · rw [if_pos h]
    exact hstop h
  · rw [if_neg h]
    exact hnext h

theorem Ends.mono {α : Type} {P : Dict → Prop} {Q R : α → Prop} {x : Except Dict α}
    (h : Ends P Q x) (hQ : ∀ a, Q a → R a) : Ends P R x := by
  cases x with
  | error d => exact h
  | ok a => exact hQ a h

theorem Ends.reportOf {P : Dict → Prop} {x : Except Dict Dict} (h : Ends P P x) :
    P (reportOf x) := by
  cases x with
  | error d => exact h
  | ok d => exact h

/-! ### What the steps write -/

/-- The members that a drill fills in. -/
def drillMembers : List String :=
  ["budget_bytes", "sample_status", "scanned", "truncated", "eligible_files",
   "skipped_unknown_size", "skipped_oversized", "selected_bytes", "sample_size",
   "sample_shortfall", "sample_shortfall_reason", "free_space_bytes", "required_space_bytes",
   "command", "restored_files", "restored_bytes", "return_code", "sample_manifest_sha256", "ok",
   "verified", "outcome", "integrity_ok", "coverage_complete", "warning", "cancelled", "error",
   "evidence_checked_at", "temp_cleanup_failed", "temp_cleanup_path", "cleanup_error"]

/-- The types that the readers of a report rely on. -/
def typedMember (key : String) : Value → Bool
  | .int _ => key ∉ ["sample_shortfall_reason", "evidence_checked_at"]
  | .str _ => key ∉ ["verified", "sample_size", "evidence_checked_at"]
  | .float _ => key ∉ ["verified", "sample_size", "sample_shortfall_reason"]
  | _ => key ∉ ["verified", "sample_size", "sample_shortfall_reason", "evidence_checked_at"]

/-- A member that a drill may write. -/
def writable (e : String × Value) : Bool :=
  drillMembers.contains e.1 && typedMember e.1 e.2 && e.2.wellFormed

/-- A report that a drill has made out of another. -/
inductive Rewrites (d : Dict) : Dict → Prop
  | refl : Rewrites d d
  | set {d' : Dict} {key : String} {v : Value} (h : Rewrites d d')
      (hv : writable (key, v) = true) : Rewrites d (d'.set key v)
  | erase {d' : Dict} (key : String) (h : Rewrites d d') (hkey : key ∈ drillMembers) :
      Rewrites d (d'.erase key)

theorem Dict.merge_nil (d : Dict) : d.merge [] = d := rfl

theorem Dict.merge_cons (d : Dict) (e : String × Value) (rest : Dict) :
    d.merge (e :: rest) = (d.set e.1 e.2).merge rest := rfl

theorem Rewrites.merge {d d' : Dict} (h : Rewrites d d') {upd : Dict}
    (hupd : upd.all writable = true) : Rewrites d (d'.merge upd) := by
  induction upd generalizing d' with
  | nil => exact h
  | cons e rest ih =>
    obtain ⟨he, hrest⟩ := Bool.and_eq_true _ _ ▸ List.all_cons ▸ hupd
    exact ih (h.set he) hrest

theorem Rewrites.halt {d d' : Dict} (h : Rewrites d d') (hours : String) (halt : Halt) :
    Rewrites d (halt.report hours d') := by
  cases halt with
  | timeout maxRuntime => exact h.merge rfl
  | raised text => exact h.merge rfl

theorem Dict.get_set (d : Dict) (key : String) (v : Value) (k : String) :
    (d.set key v).get k = if k = key then v else d.get k := by
  by_cases h : k = key
  · rw [if_pos h, h, Dict.get_set_self]
  · rw [if_neg h, Dict.get_set_ne _ _ h]

/-- The keys after one more member is set. -/
def addKey (keys : List String) (key : String) : List String :=
  if key ∈ keys then keys else keys ++ [key]

theorem Dict.keys_merge (d upd : Dict) :
    (d.merge upd).map Prod.fst = (upd.map Prod.fst).foldl addKey (d.map Prod.fst) := by
  induction upd generalizing d with
  | nil => rfl
  | cons e rest ih =>
    rw [Dict.merge_cons, ih, keys_set]
    rfl

theorem Dict.keys_erase (d : Dict) (key : String) :
    (d.erase key).map Prod.fst = (d.map Prod.fst).filter fun k => k ≠ key := by
  simp [Dict.erase, List.filter_map, Function.comp_def]

theorem Dict.get_merge_of_notMem (d : Dict) {upd : Dict} {key : String}
    (h : key ∉ upd.map Prod.fst) : (d.merge upd).get key = d.get key := by
  induction upd generalizing d with
  | nil => rfl
  | cons e rest ih =>
    rw [List.map_cons, List.mem_cons, not_or] at h
    rw [Dict.merge_cons, ih _ h.2, Dict.get_set_ne _ _ h.1]

/-- A report that says that something went wrong. -/
structure Spoilt (start d : Dict) : Prop where
  rewrites : Rewrites start d
  notOk : d.get "ok" = .bool false
  unverified : d.get "verified" = .int 0

/-- A report on the way, with its members so far. -/
structure Underway (start : Dict) (keys : List String) (d : Dict) : Prop where
  rewrites : Rewrites start d
  keys_eq : d.map Prod.fst = keys
  unverified : d.get "verified" = .int 0

section Underway

variable {start d : Dict} {keys : List String}

theorem Underway.merge (h : Underway start keys d) (upd : Dict) (hupd : upd.all writable = true)
    (hverified : "verified" ∉ upd.map Prod.fst) :
    Underway start ((upd.map Prod.fst).foldl addKey keys) (d.merge upd) where
  rewrites := h.rewrites.merge hupd
  keys_eq := by rw [Dict.keys_merge, h.keys_eq]
  unverified := (Dict.get_merge_of_notMem d hverified).trans h.unverified

theorem Underway.set (h : Underway start keys d) {key : String} {v : Value}
    (hv : writable (key, v) = true) (hverified : "verified" ≠ key) :
    Underway start (addKey keys key) (d.set key v) :=
  h.merge [(key, v)] (by simpa using hv) (by simpa using hverified)

/-- A drill that stops with `ok` false spoils its report. -/
theorem Underway.spoil (h : Underway start keys d) (rest : Dict)
    (hrest : rest.all writable = true) (hverified : "verified" ∉ rest.map Prod.fst)
    (hok : "ok" ∉ rest.map Prod.fst) : Spoilt start (d.merge (("ok", .bool false) :: rest)) where
  rewrites := h.rewrites.merge (by rw [List.all_cons, hrest]; rfl)
  notOk := by rw [Dict.merge_cons, Dict.get_merge_of_notMem _ hok, Dict.get_set_self]
  unverified := by
    rw [Dict.merge_cons, Dict.get_merge_of_notMem _ hverified, Dict.get_set_ne _ _ (by decide)]
    exact h.unverified

theorem Underway.rekey (h : Underway start keys d) {keys' : List String} (hkeys : keys = keys') :
    Underway start keys' d := hkeys ▸ h

theorem Underway.halt (h : Underway start keys d) (hours : String) (halt : Halt) :
    Spoilt start (halt.report hours d) := by
  cases halt with
  | timeout maxRuntime => exact h.spoil _ rfl (by simp) (by simp)
  | raised text => exact h.spoil _ rfl (by simp) (by simp)

end Underway

/-! ### Each step -/

/-- The members of the first report. -/
def startKeys : List String :=
  ["name", "source", "target", "requested_sample_size", "sample_size", "sample_status",
   "verified", "scanned", "truncated", "log_file", "evidence_binding", "history_key"]

/-- The members after the sample was drawn. -/
def drawnKeys (isPartial : Bool) : List String :=
  startKeys ++ ["budget_bytes", "eligible_files", "skipped_unknown_size", "skipped_oversized",
    "selected_bytes", "sample_shortfall"] ++
    (if isPartial then ["sample_shortfall_reason"] else []) ++
    ["free_space_bytes", "required_space_bytes"]

/-- The members after the sample was fetched. -/
def fetchedKeys (isPartial : Bool) : List String :=
  drawnKeys isPartial ++ ["command", "restored_files", "restored_bytes"]

/-- Fewer files were drawn than asked for. -/
def DrillSample.isPartial (p : DrillPlan) (sample : DrillSample) : Bool :=
  (sample.paths.length : Int) < p.sampleFiles

section Steps

variable {p : DrillPlan} {w : PairDrill} {sample : DrillSample} {start d : Dict}

theorem selectedReport_underway (p : DrillPlan) (sample : DrillSample) {keys : List String}
    (h : Underway start keys d) :
    Underway start (if sample.isPartial p then
        addKey (addKey keys "sample_status") "sample_shortfall_reason"
      else addKey keys "sample_status") (selectedReport p sample d) := by
  unfold selectedReport DrillSample.isPartial
  by_cases hincomplete : (sample.paths.length : Int) < p.sampleFiles
  · rw [if_pos hincomplete, if_pos (decide_eq_true hincomplete)]
    exact h.merge [("sample_status", .str "partial_selection"),
      ("sample_shortfall_reason", .str (shortfallReason p sample))] rfl (by simp)
  · rw [if_neg hincomplete, if_neg (by simpa using hincomplete)]
    exact h.set rfl (by decide)

theorem makeRoom_ends (w : PairDrill) (p : DrillPlan) (sample : DrillSample)
    {keys : List String} (h : Underway start keys d) :
    Ends (Spoilt start)
      (Underway start (addKey (addKey keys "free_space_bytes") "required_space_bytes"))
      (w.makeRoom p sample d) := by
  unfold PairDrill.makeRoom
  refine Ends.ite (fun _ => h.halt _ _) fun _ => ?_
  refine Ends.try (fun halt => h.halt _ halt) fun free _ => ?_
  have h' := h.merge [("free_space_bytes", .int free),
    ("required_space_bytes", .int (requiredSpace sample))] rfl (by simp)
  refine Ends.ite (fun _ => h'.spoil _ rfl (by simp) (by simp)) fun _ => ?_
  exact Ends.try (fun halt => h'.halt _ halt) fun _ _ => h'

/-- The keys of a report whose sample is being listed. -/
def listingKeys : List String := startKeys ++ ["budget_bytes"]

theorem drawSample_ends (h : Underway start listingKeys d) :
    Ends (Spoilt start)
      (fun d' => sample.cancelled = false ∧ Underway start (drawnKeys (sample.isPartial p)) d')
      (w.drawSample p sample d) := by
  unfold PairDrill.drawSample
  have hlisted : Underway start _ (listedReport sample d) := h.merge _ rfl (by simp)
  dsimp only
  refine Ends.ite (fun _ => hlisted.spoil _ rfl (by simp) (by simp)) fun hcancelled => ?_
  refine Ends.ite (fun _ => hlisted.spoil _ rfl (by simp) (by simp)) fun _ => ?_
  have hdrawn := hlisted.merge [("sample_size", .int sample.paths.length),
    ("sample_shortfall", .int (max 0 (p.sampleFiles - sample.paths.length)))] rfl (by simp)
  refine Ends.ite (fun _ => hdrawn.spoil _ rfl (by simp) (by simp)) fun _ => ?_
  refine Ends.ite (fun _ => hdrawn.halt _ _) fun _ => ?_
  have hroom := makeRoom_ends w p sample (selectedReport_underway p sample hdrawn)
  refine hroom.mono fun d' hd' => ⟨by simpa using hcancelled, hd'.rekey ?_⟩
  simp only [List.map_cons, List.map_nil]
  cases sample.isPartial p <;> decide

theorem countFetched_ends {keys : List String} {fetched : List (String × Nat)}
    (h : Underway start keys d) :
    Ends (Spoilt start)
      (fun x => fetchedAll sample fetched = true ∧
        Underway start (addKey (addKey keys "restored_files") "restored_bytes") x.2)
      (countFetched p sample fetched d) := by
  unfold countFetched
  have h' := h.merge [("restored_files", .int fetched.length),
    ("restored_bytes", .int (fetched.map Prod.snd).sum)] rfl (by simp)
  refine Ends.ite (fun _ => h'.spoil _ rfl (by simp) (by simp)) fun _ => ?_
  refine Ends.ite (fun _ => h'.spoil _ rfl (by simp) (by simp)) fun _ => ?_
  exact Ends.ite (fun _ => h'.spoil _ rfl (by simp) (by simp)) fun hall => ⟨by simpa using hall, h'⟩

theorem fetchSample_ends {isPartial : Bool} (h : Underway start (drawnKeys isPartial) d) :
    Ends (Spoilt start)
      (fun x => w.cancelledAfterCopy = false ∧
        (∀ fetched, w.fetched = .ok fetched → fetchedAll sample fetched = true) ∧
        Underway start (fetchedKeys isPartial) x.2)
      (w.fetchSample p sample d) := by
  unfold PairDrill.fetchSample
  have hcommand : Underway start _ (d.set "command" (.str w.command)) := h.set rfl (by decide)
  dsimp only
  refine Ends.try (fun halt => hcommand.halt _ halt) fun code _ => ?_
  refine Ends.ite (fun _ => hcommand.spoil _ rfl (by simp) (by simp)) fun hcancelled => ?_
  refine Ends.ite (fun _ => hcommand.spoil _ rfl (by simp) (by simp)) fun _ => ?_
  refine Ends.try (fun halt => hcommand.halt _ halt) fun fetched hfetched => ?_
  refine (countFetched_ends hcommand).mono fun x hx =>
    ⟨by simpa using hcancelled, fun fetched' hfetched' => ?_, hx.2.rekey ?_⟩
  · rw [hfetched] at hfetched'
    rw [← Except.ok.inj hfetched']
    exact hx.1
  cases isPartial <;> decide

/-- The members after a sample that was too small was the same. -/
def smallSampleKeys : List String :=
  fetchedKeys true ++ ["return_code", "sample_manifest_sha256", "ok", "outcome", "integrity_ok",
    "coverage_complete", "warning"]

/-- A report of a sample that was the same. -/
structure Same (start d : Dict) : Prop where
  rewrites : Rewrites start d
  status_or_keys : d.get "sample_status" = .str "complete" ∨ d.map Prod.fst = smallSampleKeys

theorem compareSample_ends {pulled : Nat}
    (h : Underway start (fetchedKeys (sample.isPartial p)) d) :
    Ends (Spoilt start)
      (fun d' => w.check = .ok 0 ∧ w.cancelledAfterCheck = false ∧ Same start d')
      (w.compareSample p sample pulled d) := by
  unfold PairDrill.compareSample
  refine Ends.try (fun halt => h.halt _ halt) fun code hcode => ?_
  refine Ends.ite (fun _ => h.spoil _ rfl (by simp) (by simp)) fun hcancelled => ?_
  have hcompared : Underway start _ (d.set "return_code" (.int code)) := h.set rfl (by decide)
  dsimp only
  by_cases hsame : code = 0
  · rw [if_pos hsame]
    refine Ends.try (fun halt => hcompared.halt _ halt) fun digest _ => ?_
    have hmanifest : Underway start _ ((d.set "return_code" (.int code)).set
      "sample_manifest_sha256" (.str digest)) := hcompared.set rfl (by decide)
    refine ⟨hsame ▸ hcode, by simpa using hcancelled, ?_⟩
    unfold sameReport
    unfold DrillSample.isPartial at hmanifest
    by_cases hincomplete : (sample.paths.length : Int) < p.sampleFiles
    · rw [if_pos hincomplete]
      rw [decide_eq_true hincomplete] at hmanifest
      generalize hreport : (Dict.merge _ _).erase "error" = d'
      have hrewrites : Rewrites start d' := by
        rw [← hreport]
        exact (hmanifest.rewrites.merge rfl).erase _ (by decide)
      have hkeys : d'.map Prod.fst = fetchedKeys true ++ ["return_code", "sample_manifest_sha256",
          "ok", "outcome", "integrity_ok", "coverage_complete"] := by
        rw [← hreport, Dict.keys_erase, Dict.keys_merge, hmanifest.keys_eq]
        simp only [List.map_cons, List.map_nil]
        decide
      refine ⟨hrewrites.set rfl, Or.inr ?_⟩
      rw [keys_set, hkeys]
      decide
    · rw [if_neg hincomplete]
      refine ⟨hmanifest.rewrites.merge rfl, Or.inl ?_⟩
      simp [Dict.merge_cons, Dict.merge_nil]
  · rw [if_neg hsame]
    exact hcompared.spoil _ rfl (by simp) (by simp)

theorem report_underway (p : DrillPlan) : Underway p.report startKeys p.report :=
  ⟨.refl, rfl, rfl⟩

end Steps

/-- The files differ or are not those of the sample, the drill was cancelled, or its directory
could not be removed. -/
def PairDrill.Spoiled (w : PairDrill) : Prop :=
  (∃ code, w.check = .ok code ∧ code ≠ 0) ∨
    (∃ sample fetched, w.sample = .ok sample ∧ w.fetched = .ok fetched ∧
      fetchedAll sample fetched = false) ∨
    (∃ sample, w.sample = .ok sample ∧ sample.cancelled = true) ∨
    w.cancelledAfterCopy = true ∨ w.cancelledAfterCheck = true ∨ w.cleanup ≠ none

theorem body_ends (p : DrillPlan) (w : PairDrill) :
    Ends (Spoilt p.report) (fun d => (w.Spoiled → w.cleanup ≠ none) ∧ Same p.report d)
      (w.body p p.report) := by
  unfold PairDrill.body
  have hstart := report_underway p
  refine Ends.try (fun halt => hstart.halt _ halt) fun _ _ => ?_
  have hlisting : Underway p.report listingKeys
      ((p.report.set "budget_bytes" (.int p.budget)).set "sample_status" (.str "listing")) :=
    ((hstart.set rfl (by decide)).set rfl (by decide)).rekey (by decide)
  dsimp only
  refine Ends.try (fun halt => hlisting.halt _ halt) fun sample hsample => ?_
  refine (drawSample_ends hlisting).bind fun d _ hdrawn => ?_
  refine (fetchSample_ends hdrawn.2).bind fun x _ hfetched => ?_
  refine (compareSample_ends hfetched.2.2).mono fun d' hsame => ⟨?_, hsame.2.2⟩
  obtain ⟨hcheck, hafterCheck, -⟩ := hsame
  rintro (⟨code, hcode, hne⟩ | ⟨sample', fetched, hsample', hgot, hnot⟩ |
    ⟨sample', hsample', hcancelled⟩ | hcopy | hafter | hcleanup)
  · rw [hcheck] at hcode
    exact absurd (Except.ok.inj hcode).symm hne
  · rw [hsample] at hsample'
    obtain rfl := Except.ok.inj hsample'
    rw [hfetched.2.1 fetched hgot] at hnot
    cases hnot
  · rw [hsample] at hsample'
    obtain rfl := Except.ok.inj hsample'
    rw [hdrawn.1] at hcancelled
    cases hcancelled
  · rw [hfetched.1] at hcopy
    cases hcopy
  · rw [hafterCheck] at hafter
    cases hafter
  · exact hcleanup

/-! ### The report at the end -/

/-- A report that no reader takes for a success, nor for a partial one.  Where only the
member about the directory tells so, the report is short enough (`size`) for every preview
that shows its `ok` to show that member too. -/
structure Failing (size : Nat) (d : Dict) : Prop where
  notOk : d.get "ok" = .bool false
  spoilt : (d.get "verified" = .int 0 ∨ d.get "verified" = .none) ∨
    d.get "sample_status" = .str "complete" ∨
    (d.get "temp_cleanup_failed" = .bool true ∧ d.length ≤ size ∧
      "ok" ∉ (d.map Prod.fst).take 20)

theorem Spoilt.failing {start d : Dict} (h : Spoilt start d) : Failing 36 d :=
  ⟨h.notOk, Or.inl (Or.inl h.unverified)⟩

theorem writable_time (t : Time) : writable ("evidence_checked_at", timeValue t) = true := by
  have hwf : (timeValue t).wellFormed = true := shortDec_canonical t 6
  unfold writable
  rw [hwf]
  rfl

theorem Dict.get_erase_ne (d : Dict) {key k : String} (h : k ≠ key) :
    (d.erase key).get k = d.get k := by
  induction d with
  | nil => rfl
  | cons e d ih =>
    obtain ⟨j, v⟩ := e
    unfold Dict.erase Dict.get at ih ⊢
    by_cases hj : j = key
    · subst hj
      have hk : (k == j) = false := by simpa using h
      simpa [List.lookup_cons, hk] using ih
    · by_cases hk : k = j
      · simp [hk, hj]
      · have hk' : (k == j) = false := by simpa using hk
        simpa [hj, List.lookup_cons, hk'] using ih

section CleanUp

variable {w : PairDrill} {start d : Dict} {workdir : String}

theorem cleanUp_done (h : w.cleanup = none) :
    w.cleanUp workdir d = d.set "evidence_checked_at" (timeValue w.checkedAt) := by
  unfold PairDrill.cleanUp
  rw [h]

theorem cleanUp_failed (workdir : String) (d : Dict) {text : String} (h : w.cleanup = some text) :
    ∃ error, w.cleanUp workdir d
      = (((d.set "evidence_checked_at" (timeValue w.checkedAt)).erase "outcome").erase
          "warning").merge
        [("ok", .bool false), ("temp_cleanup_failed", .bool true),
         ("temp_cleanup_path", .str workdir), ("cleanup_error", .str text),
         ("error", .str error)] := by
  unfold PairDrill.cleanUp
  rw [h]
  exact ⟨_, rfl⟩

theorem Rewrites.cleanUp (h : Rewrites start d) : Rewrites start (w.cleanUp workdir d) := by
  have hchecked := h.set (writable_time w.checkedAt)
  cases hcleanup : w.cleanup with
  | none =>
    rw [cleanUp_done hcleanup]
    exact hchecked
  | some text =>
    obtain ⟨error, herror⟩ := cleanUp_failed workdir d hcleanup
    rw [herror]
    exact ((hchecked.erase "outcome" (by decide)).erase "warning" (by decide)).merge rfl

/-- Cleaning up leaves the members that it does not write. -/
theorem get_cleanUp {key : String}
    (hkey : key ∉ ["evidence_checked_at", "outcome", "warning", "ok", "temp_cleanup_failed",
      "temp_cleanup_path", "cleanup_error", "error"]) :
    (w.cleanUp workdir d).get key = d.get key := by
  simp only [List.mem_cons, List.not_mem_nil, or_false, not_or] at hkey
  obtain ⟨hchecked, houtcome, hwarning, hok, hfailed, hpath, hcleanup', herror'⟩ := hkey
  cases hcleanup : w.cleanup with
  | none =>
    rw [cleanUp_done hcleanup, Dict.get_set_ne _ _ hchecked]
  | some text =>
    obtain ⟨error, herror⟩ := cleanUp_failed workdir d hcleanup
    rw [herror, Dict.get_merge_of_notMem _ (by simp [hok, hfailed, hpath, hcleanup', herror']),
      Dict.get_erase_ne _ hwarning, Dict.get_erase_ne _ houtcome, Dict.get_set_ne _ _ hchecked]

/-- A directory that could not be removed is reported. -/
theorem get_cleanUp_failed (workdir : String) (d : Dict) (h : w.cleanup ≠ none) :
    (w.cleanUp workdir d).get "ok" = .bool false ∧
      (w.cleanUp workdir d).get "temp_cleanup_failed" = .bool true := by
  obtain ⟨text, htext⟩ := Option.ne_none_iff_exists'.mp h
  obtain ⟨error, herror⟩ := cleanUp_failed workdir d htext
  rw [herror]
  simp only [Dict.merge_cons, Dict.merge_nil, Dict.get_set]
  constructor <;> rfl

theorem Spoilt.cleanUp (h : Spoilt start d) : Failing 36 (w.cleanUp workdir d) := by
  have hverified : (w.cleanUp workdir d).get "verified" = .int 0 :=
    (get_cleanUp (by decide)).trans h.unverified
  by_cases hcleanup : w.cleanup = none
  · refine ⟨?_, Or.inl (Or.inl hverified)⟩
    rw [cleanUp_done hcleanup, Dict.get_set_ne _ _ (by decide)]
    exact h.notOk
  · exact ⟨(get_cleanUp_failed _ _ hcleanup).1, Or.inl (Or.inl hverified)⟩

/-- Where the directory could not be removed, the sample counts no more. -/
theorem Same.cleanUp (h : Same start d) (hcleanup : w.cleanup ≠ none) :
    Failing 36 (w.cleanUp workdir d) := by
  obtain ⟨hok, hfailed⟩ := get_cleanUp_failed workdir d hcleanup
  refine ⟨hok, Or.inr ?_⟩
  rcases h.status_or_keys with hstatus | hkeys
  · exact Or.inl ((get_cleanUp (by decide)).trans hstatus)
  · refine Or.inr ⟨hfailed, ?_⟩
    obtain ⟨text, htext⟩ := Option.ne_none_iff_exists'.mp hcleanup
    obtain ⟨error, herror⟩ := cleanUp_failed workdir d htext
    have hfinal : (w.cleanUp workdir d).map Prod.fst
        = ["ok", "temp_cleanup_failed", "temp_cleanup_path", "cleanup_error", "error"].foldl addKey
          (((addKey smallSampleKeys "evidence_checked_at").filter fun k => k ≠ "outcome").filter
            fun k => k ≠ "warning") := by
      rw [herror, Dict.keys_merge, Dict.keys_erase, Dict.keys_erase, keys_set, hkeys]
      rfl
    rw [← List.length_map (f := Prod.fst), hfinal]
    decide

end CleanUp

/-- **What a drill reports in the end.**  Its report says that something went wrong, or
nothing did. -/
theorem report_cases (p : DrillPlan) (w : PairDrill) :
    Rewrites p.report (runPairRestoreTest p w) ∧
      (Failing 36 (runPairRestoreTest p w) ∨ ¬ w.Spoiled) := by
  have hstart := report_underway p
  have hstop : ∀ text,
      Spoilt p.report (p.report.merge [("ok", .bool false), ("error", .str text)]) :=
    fun text => hstart.spoil _ rfl (by simp) (by simp)
  unfold runPairRestoreTest
  dsimp only
  by_cases hends : (drillEndpoints p.pair).1 = "" ∨ (drillEndpoints p.pair).2 = ""
  · rw [if_pos hends]
    exact ⟨(hstop _).rewrites, Or.inl (hstop _).failing⟩
  · rw [if_neg hends]
    cases w.tempRoot with
    | some text => exact ⟨(hstop _).rewrites, Or.inl (hstop _).failing⟩
    | none =>
      cases w.workspace with
      | error text => exact ⟨(hstop _).rewrites, Or.inl (hstop _).failing⟩
      | ok workdir =>
        show Rewrites _ (w.cleanUp workdir (reportOf (w.body p p.report))) ∧
          (Failing 36 (w.cleanUp workdir (reportOf (w.body p p.report))) ∨ _)
        have hbody := body_ends p w
        cases h : w.body p p.report with
        | error d =>
          rw [h] at hbody
          exact ⟨hbody.rewrites.cleanUp, Or.inl hbody.cleanUp⟩
        | ok d =>
          rw [h] at hbody
          refine ⟨hbody.2.rewrites.cleanUp, ?_⟩
          by_cases hcleanup : w.cleanup = none
          · exact Or.inr fun hspoiled => hbody.1 hspoiled hcleanup
          · exact Or.inl (hbody.2.cleanUp hcleanup)

/-! ### Reports as they are read -/

/-- What the readers of a stored report rely on: its members have the types they expect. -/
structure Readable (d : Dict) : Prop where
  wellFormed : (Value.dict d).wellFormed = true
  typed : ∀ e ∈ d, typedMember e.1 e.2 = true
  short : ∀ e ∈ d, e.1.length ≤ 128

theorem Readable.set {d : Dict} (h : Readable d) (key : String) (v : Value)
    (hwf : v.wellFormed = true) (htyped : typedMember key v = true) (hshort : key.length ≤ 128) :
    Readable (d.set key v) where
  wellFormed := wellFormed_set h.wellFormed hwf
  typed := by
    intro e he
    rcases Dict.mem_of_mem_set he with rfl | he
    · exact htyped
    · exact h.typed e he
  short := by
    intro e he
    rcases Dict.mem_of_mem_set he with rfl | he
    · exact hshort
    · exact h.short e he

theorem Readable.erase {d : Dict} (h : Readable d) (key : String) : Readable (d.erase key) where
  wellFormed := by
    obtain ⟨hvalues, hkeys⟩ := wellFormed_dict_iff.mp h.wellFormed
    refine wellFormed_dict_iff.mpr ⟨fun e he => hvalues e (List.mem_filter.mp he).1, ?_⟩
    rw [Dict.keys_erase]
    exact hkeys.filter _
  typed := fun e he => h.typed e (List.mem_filter.mp he).1
  short := fun e he => h.short e (List.mem_filter.mp he).1

theorem short_of_drillMembers : ∀ key ∈ drillMembers, key.length ≤ 128 := by decide

theorem Rewrites.readable {start d : Dict} (h : Rewrites start d) (hstart : Readable start) :
    Readable d := by
  induction h with
  | refl => exact hstart
  | @set d' key v h hv ih =>
    obtain ⟨hv, hwf⟩ := Bool.and_eq_true _ _ ▸ hv
    obtain ⟨hkey, htyped⟩ := Bool.and_eq_true _ _ ▸ hv
    exact ih.set key v hwf htyped (short_of_drillMembers key (List.contains_iff_mem.mp hkey))
  | erase key h hkey ih => exact ih.erase key

/-- A drill leaves the members that it does not fill in. -/
theorem Rewrites.frame {start d : Dict} (h : Rewrites start d) {key : String}
    (hkey : key ∉ drillMembers) : d.get key = start.get key := by
  induction h with
  | refl => rfl
  | @set d' k v h hv ih =>
    obtain ⟨hv, -⟩ := Bool.and_eq_true _ _ ▸ hv
    obtain ⟨hk, -⟩ := Bool.and_eq_true _ _ ▸ hv
    have hne : key ≠ k := fun heq => hkey (heq ▸ List.contains_iff_mem.mp hk)
    rw [Dict.get_set_ne _ _ hne]
    exact ih
  | erase k h hk ih =>
    have hne : key ≠ k := fun heq => hkey (heq ▸ hk)
    rw [Dict.get_erase_ne _ hne]
    exact ih

theorem report_readable (p : DrillPlan) : Readable p.report where
  wellFormed := rfl
  typed := by simp [DrillPlan.report, typedMember]
  short := by
    simp only [DrillPlan.report, List.forall_mem_cons]
    decide

theorem cancelledReport_readable (env : EvidenceEnv) (pair : Dict) :
    Readable (cancelledReport env pair) where
  wellFormed := rfl
  typed := by simp [cancelledReport, typedMember]
  short := by
    simp only [cancelledReport, List.forall_mem_cons]
    decide

/-- A member as a reader finds it. -/
theorem Readable.get_typed {d : Dict} (h : Readable d) (key : String) :
    d.get key = .none ∨ typedMember key (d.get key) = true := by
  unfold Dict.get
  cases hlookup : d.lookup key with
  | none => exact Or.inl rfl
  | some v => exact Or.inr (h.typed (key, v) (Dict.mem_of_lookup hlookup))

/-! ### Previews of reports -/

theorem takeText_of_short {s : String} {n : Nat} (h : s.length ≤ n) : takeText n s = s := by
  unfold takeText
  rw [List.take_of_length_le (by rw [String.length_toList]; exact h), String.ofList_toList]

/-- A preview shows the members of a mapping up to its limit. -/
theorem get_shown (f : Value → Value) {l : Dict} (hkeys : (l.map Prod.fst).Nodup)
    (hshort : ∀ e ∈ l, e.1.length ≤ 128) (acc : Dict) (key : String) :
    Dict.get (l.foldl (fun shown e => Dict.set shown (takeText 128 e.1) (f e.2)) acc) key
      = if key ∈ l.map Prod.fst then f (Dict.get l key) else acc.get key := by
  induction l generalizing acc with
  | nil => rfl
  | cons e l ih =>
    obtain ⟨k, v⟩ := e
    obtain ⟨hk, hkeys⟩ := List.nodup_cons.mp hkeys
    obtain ⟨hshortk, hshort⟩ := List.forall_mem_cons.mp hshort
    rw [List.foldl_cons, ih hkeys hshort, takeText_of_short hshortk, Dict.get_set]
    by_cases hsame : key = k
    · subst hsame
      have hk : key ∉ l.map Prod.fst := hk
      rw [if_neg hk, if_pos rfl, if_pos (by simp)]
      simp [Dict.get]
    · have hne : (key == k) = false := by simpa using hsame
      have hlookup : Dict.get ((k, v) :: l) key = Dict.get l key := by
        simp [Dict.get, List.lookup_cons, hne]
      rw [if_neg hsame, hlookup]
      simp only [List.map_cons, List.mem_cons, hsame, false_or]

theorem get_take {d : Dict} {n : Nat} {key : String} (h : key ∈ (d.take n).map Prod.fst) :
    Dict.get (d.take n) key = d.get key := by
  induction d generalizing n with
  | nil => simp
  | cons e d ih =>
    obtain ⟨k, v⟩ := e
    cases n with
    | zero => simp at h
    | succ n =>
      by_cases hsame : key = k
      · simp [Dict.get, hsame]
      · have hrest : key ∈ (d.take n).map Prod.fst := by simpa [hsame] using h
        have ih := ih hrest
        have hne : (key == k) = false := by simpa using hsame
        simpa [Dict.get, List.lookup_cons, hne] using ih

theorem Dict.get_of_notMem {d : Dict} {key : String} (h : key ∉ d.map Prod.fst) :
    d.get key = .none := by
  unfold Dict.get
  rw [List.lookup_eq_none_iff.mpr]
  · rfl
  · intro e he
    have hne : key ≠ e.1 := fun heq => h (heq ▸ List.mem_map_of_mem he)
    simpa using hne

/-- The members that mark a preview. -/
def previewMarks : List String := ["truncated", "original_bytes"]

theorem get_markedPreview {d : Dict} (hkeys : (d.map Prod.fst).Nodup)
    (hshort : ∀ e ∈ d, e.1.length ≤ 128) {stage : PreviewStage} {depth : Nat}
    (hdepth : stage.depth = depth + 1) (size : Nat) {key : String} (hkey : key ∉ previewMarks) :
    Dict.get (markedPreview stage (.dict d) size) key
      = if key ∈ (d.map Prod.fst).take stage.dictLimit then jsonPreview stage depth (d.get key)
        else .none := by
  simp only [previewMarks, List.mem_cons, List.not_mem_nil, or_false, not_or] at hkey
  unfold markedPreview
  rw [hdepth, jsonPreview]
  dsimp only
  rw [Dict.get_set_ne _ _ hkey.2, Dict.get_set_ne _ _ hkey.1,
    get_shown (jsonPreview stage depth) (List.Nodup.sublist ((List.take_sublist _ _).map _) hkeys)
      (fun e he => hshort e (List.mem_of_mem_take he)), List.map_take]
  by_cases hshown : key ∈ (d.map Prod.fst).take stage.dictLimit
  · rw [if_pos hshown, if_pos hshown, get_take (by rw [List.map_take]; exact hshown)]
  · rw [if_neg hshown, if_neg hshown]
    rfl

/-- What a preview shows of a member, where it shows it. -/
theorem get_cutValue {d : Dict} (hwf : (Value.dict d).wellFormed = true)
    (hshort : ∀ e ∈ d, e.1.length ≤ 128) (maxBytes : Nat) :
    (∃ stage ∈ previewStages, ∃ depth, ∀ key ∉ previewMarks,
      Dict.get (cutValue (.dict d) maxBytes) key
        = if key ∈ (d.map Prod.fst).take stage.dictLimit then jsonPreview stage depth (d.get key)
          else .none) ∨
      ∀ key ∉ previewMarks, Dict.get (cutValue (.dict d) maxBytes) key = .none := by
  rcases cutValue_cases (.dict d) maxBytes with ⟨stage, hstage, hcut⟩ | hcut
  · refine Or.inl ⟨stage, hstage, ?_⟩
    have hdepth : ∃ depth, stage.depth = depth + 1 := by
      have hpos : ∀ stage ∈ previewStages, 0 < stage.depth := by decide
      exact ⟨stage.depth - 1, (Nat.sub_add_cancel (hpos stage hstage)).symm⟩
    obtain ⟨depth, hdepth⟩ := hdepth
    refine ⟨depth, fun key hkey => ?_⟩
    rw [hcut]
    exact get_markedPreview (wellFormed_dict_iff.mp hwf).2 hshort hdepth _ hkey
  · refine Or.inr fun key hkey => ?_
    simp only [previewMarks, List.mem_cons, List.not_mem_nil, or_false, not_or] at hkey
    obtain ⟨htruncated, hbytes⟩ := hkey
    have htruncated' : (key == "truncated") = false := by simpa using htruncated
    have hbytes' : (key == "original_bytes") = false := by simpa using hbytes
    rw [hcut]
    simp [barePreview, Dict.get, List.lookup_cons, htruncated', hbytes']

theorem cancelledReport_failing (env : EvidenceEnv) (pair : Dict) :
    Failing 36 (cancelledReport env pair) :=
  ⟨rfl, Or.inl (Or.inr rfl)⟩

/-- A report as it is found again: as it was, or a preview of it. -/
def FoundAs (d x : Dict) : Prop := x = d ∨ ∃ maxBytes, x = cutValue (.dict d) maxBytes

theorem typed_preview {key : String} {v : Value} (stage : PreviewStage) (depth : Nat)
    (h : v = .none ∨ typedMember key v = true)
    (hkey : key ∈ ["verified", "sample_size", "sample_shortfall_reason", "evidence_checked_at"]) :
    jsonPreview stage depth v = .none ∨ typedMember key (jsonPreview stage depth v) = true := by
  cases v with
  | none => exact Or.inl (by cases depth <;> rfl)
  | bool b => simp [typedMember] at h hkey; tauto
  | int n => exact Or.inr (by cases depth <;> simpa [jsonPreview] using h)
  | float x => exact Or.inr (by cases depth <;> simpa [jsonPreview] using h)
  | str s =>
    have htyped : ∀ t, typedMember key (.str t) = typedMember key (.str s) := fun _ => rfl
    refine Or.inr ?_
    have h : typedMember key (.str s) = true := by simpa using h
    unfold jsonPreview
    split_ifs <;> exact h
  | list xs => simp [typedMember] at h hkey; tauto
  | dict d => simp [typedMember] at h hkey; tauto

/-- The members whose types the evaluation relies on. -/
def evaluatedMembers : List String :=
  ["verified", "sample_size", "sample_shortfall_reason", "evidence_checked_at"]

theorem FoundAs.get_typed {d x : Dict} (h : Readable d) (hx : FoundAs d x) {key : String}
    (hkey : key ∈ evaluatedMembers) : x.get key = .none ∨ typedMember key (x.get key) = true := by
  have hmark : key ∉ previewMarks := by
    have hall : ∀ key ∈ evaluatedMembers, key ∉ previewMarks := by decide
    exact hall key hkey
  rcases hx with rfl | ⟨maxBytes, rfl⟩
  · exact h.get_typed key
  · rcases get_cutValue h.wellFormed h.short maxBytes with ⟨stage, -, depth, hget⟩ | hget
    · rw [hget key hmark]
      split_ifs
      · exact typed_preview stage depth (h.get_typed key) hkey
      · exact Or.inl rfl
    · exact Or.inl (hget key hmark)

theorem total_ite {ε α : Type} {c : Prop} [Decidable c] {x y : Except ε α}
    (hx : ∃ a, x = .ok a) (hy : ∃ a, y = .ok a) : ∃ a, (if c then x else y) = .ok a := by
  by_cases h : c
  · rw [if_pos h]
    exact hx
  · rw [if_neg h]
    exact hy

theorem isVerifiedPartial_total {x : Dict}
    (h : x.get "sample_shortfall_reason" = .none ∨
      typedMember "sample_shortfall_reason" (x.get "sample_shortfall_reason") = true) :
    ∃ b, isVerifiedPartial x = .ok b := by
  have hset : ∃ b, inSet (x.get "sample_shortfall_reason") shortfallReasons = .ok b := by
    cases hreason : x.get "sample_shortfall_reason" with
    | list xs => rw [hreason] at h; simp [typedMember] at h
    | dict d => rw [hreason] at h; simp [typedMember] at h
    | _ => exact ⟨_, rfl⟩
  obtain ⟨b, hb⟩ := hset
  unfold isVerifiedPartial
  refine total_ite ⟨_, rfl⟩ (total_ite ⟨_, rfl⟩ (total_ite ⟨_, rfl⟩ ?_))
  refine total_ite ⟨_, rfl⟩ ?_
  split
  · refine total_ite ⟨_, rfl⟩ (total_ite ⟨_, rfl⟩ (total_ite ⟨_, rfl⟩ ?_))
    rw [hb]
    cases b
    · exact ⟨_, rfl⟩
    · exact ⟨_, rfl⟩
  · exact ⟨_, rfl⟩

theorem of_ite_ok {ε : Type} {c : Prop} [Decidable c] {y : Except ε Bool}
    (h : (if c then .ok false else y) = .ok true) : ¬ c ∧ y = .ok true := by
  by_cases hc : c
  · rw [if_pos hc] at h
    cases h
  · rw [if_neg hc] at h
    exact ⟨hc, h⟩

/-- What a verified partial sample needs. -/
theorem of_isVerifiedPartial {x : Dict} (h : isVerifiedPartial x = .ok true) :
    x.get "ok" = .bool false ∧ pyEq (x.get "sample_status") (.str "partial_selection") = true ∧
      truthy (x.get "temp_cleanup_failed") = false ∧
      ∃ n : Int, x.get "verified" = .int n ∧ 0 < n := by
  unfold isVerifiedPartial at h
  obtain ⟨hstatus, h⟩ := of_ite_ok h
  obtain ⟨hok, hstatus⟩ := not_or.mp hstatus
  obtain ⟨hblocked, h⟩ := of_ite_ok h
  obtain ⟨-, h⟩ := of_ite_ok h
  obtain ⟨-, h⟩ := of_ite_ok h
  refine ⟨not_not.mp hok, by simpa using hstatus, ?_, ?_⟩
  · simp only [partialBlockers, List.any_cons, List.any_nil, Bool.or_eq_true, not_or] at hblocked
    simpa using hblocked.2.1
  · split at h
    · rename_i verified _ _ _ hverified _ _ _
      exact ⟨verified, hverified, (not_not.mp (of_ite_ok h).1).1⟩
    · cases h

theorem Failing.set {size : Nat} {d : Dict} (h : Failing size d) (key : String) (v : Value)
    (hkey : key ∉ ["ok", "verified", "sample_status", "temp_cleanup_failed"]) :
    Failing (size + 1) (d.set key v) := by
  simp only [List.mem_cons, List.not_mem_nil, or_false, not_or] at hkey
  obtain ⟨hok, hverified, hstatus, hfailed⟩ := hkey
  refine ⟨(Dict.get_set_ne _ _ (Ne.symm hok)).trans h.notOk, ?_⟩
  rcases h.spoilt with h | h | ⟨h, hsize, hlate⟩
  · rw [Dict.get_set_ne _ _ (Ne.symm hverified)]
    exact Or.inl h
  · exact Or.inr (Or.inl ((Dict.get_set_ne _ _ (Ne.symm hstatus)).trans h))
  · refine Or.inr (Or.inr ⟨(Dict.get_set_ne _ _ (Ne.symm hfailed)).trans h, ?_, ?_⟩)
    · rw [← List.length_map (f := Prod.fst), keys_set]
      rw [← List.length_map (f := Prod.fst)] at hsize
      split_ifs
      · omega
      · rw [List.length_append, List.length_singleton]
        omega
    · rw [keys_set]
      split_ifs
      · exact hlate
      · rw [List.take_append]
        intro hmem
        rcases List.mem_append.mp hmem with hmem | hmem
        · exact hlate hmem
        · exact hok (List.mem_singleton.mp (List.mem_of_mem_take hmem)).symm

theorem Failing.mono {size size' : Nat} {d : Dict} (h : Failing size d) (hle : size ≤ size') :
    Failing size' d :=
  ⟨h.notOk, h.spoilt.imp_right fun h => h.imp_right fun h => ⟨h.1, h.2.1.trans hle, h.2.2⟩⟩

/-- **No reader takes the report of a drill that went wrong for a partial success**, nor any
preview of it. -/
theorem Failing.not_partial {d x : Dict} (hd : Readable d) (h : Failing 40 d)
    (hx : FoundAs d x) : isVerifiedPartial x ≠ .ok true := by
  intro htrue
  obtain ⟨hok, hstatus, hfailed, n, hverified, hpos⟩ := of_isVerifiedPartial htrue
  rcases hx with rfl | ⟨maxBytes, rfl⟩
  · rcases h.spoilt with h | h | ⟨h, -⟩
    · rw [hverified] at h
      rcases h with h | h
      · cases h
        exact absurd hpos (by decide)
      · cases h
    · rw [h] at hstatus
      exact absurd hstatus (by decide)
    · rw [h] at hfailed
      exact absurd hfailed (by decide)
  · rcases get_cutValue hd.wellFormed hd.short maxBytes with ⟨stage, hstage, depth, hget⟩ | hget
    · rw [hget "ok" (by decide)] at hok
      rw [hget "sample_status" (by decide)] at hstatus
      rw [hget "temp_cleanup_failed" (by decide)] at hfailed
      rw [hget "verified" (by decide)] at hverified
      -- the preview shows `ok`, so it is not one of the narrowest stage
      have hshown : "ok" ∈ (d.map Prod.fst).take stage.dictLimit := by
        by_contra hnot
        rw [if_neg hnot] at hok
        cases hok
      rcases h.spoilt with h | h | ⟨h, hsize, hlate⟩
      · have hzero : jsonPreview stage depth (.int 0) = .int 0 := by cases depth <;> rfl
        have hnone : jsonPreview stage depth .none = .none := by cases depth <;> rfl
        split_ifs at hverified
        · rcases h with h | h
          · rw [h, hzero] at hverified
            cases hverified
            exact absurd hpos (by decide)
          · rw [h, hnone] at hverified
            cases hverified
      · rw [h] at hstatus
        have hcomplete : jsonPreview stage depth (.str "complete") = .str "complete" := by
          have hlimit : ∀ stage ∈ previewStages, 64 ≤ stage.stringLimit := by decide
          have hshort : "complete".length ≤ stage.stringLimit :=
            le_trans (by decide) (hlimit stage hstage)
          cases depth <;> rw [jsonPreview, if_pos hshort]
        rw [hcomplete] at hstatus
        split_ifs at hstatus
        · exact absurd hstatus (by decide)
        · exact absurd hstatus (by decide)
      · have hwide : stage.dictLimit = 20 ∨ 40 ≤ stage.dictLimit := by
          have hlimits : ∀ stage ∈ previewStages,
              stage.dictLimit = 20 ∨ 40 ≤ stage.dictLimit := by decide
          exact hlimits stage hstage
        rcases hwide with hnarrow | hwide
        · rw [hnarrow] at hshown
          exact hlate hshown
        · have hall : (d.map Prod.fst).take stage.dictLimit = d.map Prod.fst := by
            refine List.take_of_length_le ?_
            rw [List.length_map]
            omega
          have hmem : "temp_cleanup_failed" ∈ d.map Prod.fst := by
            by_contra hnot
            rw [Dict.get_of_notMem hnot] at h
            cases h
          have htrue : jsonPreview stage depth (.bool true) = .bool true := by cases depth <;> rfl
          rw [hall, if_pos hmem, h, htrue] at hfailed
          exact absurd hfailed (by decide)
    · rw [hget "ok" (by decide)] at hok
      cases hok

end RcloneSync
