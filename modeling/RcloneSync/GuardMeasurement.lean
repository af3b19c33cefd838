/-
RcloneSync/GuardMeasurement.lean

What the anomaly guard measures, compared with what the run changes.  In `_sync_pair` the guard
is handed the last but one word of the built command as the path to measure, and the filters of
the pair, compiled on their own.  So

  * of a bisync only the remote side is measured, and
  * no filter of the global or the pair's own rclone arguments takes part.

`guard_measures_iff` says when this makes no difference.
-/
import RcloneSync.FilterPasses
import RcloneSync.Quarantine

namespace RcloneSync

open Py ArgScan FirstMatch

variable {env : PairEnv} {χ : Type*} {hit : String → χ → Bool} {x : χ}

/-! ### The measurement -/

/-- The arguments of `measure_path`, which runs `rclone size --json` with the filters on the
source. -/
structure Measurement where
  source : String
  filterArgs : List String
  deriving DecidableEq, Repr

/-- `cmd[-2]`. -/
def lastButOne (cmd : List String) : String := (cmd.dropLast.getLast?).getD ""

/-- The measurement `preflight_anomaly_guard` makes when `_sync_pair` calls it and no quarantine
stops it before. -/
def guardMeasurement (env : PairEnv) (cfg pair : Dict) (settings : GuardSettings)
    (c : PairCommand) : Except PyError (Option Measurement) :=
  (filterArgs env cfg pair "sync").map fun args =>
    if !settings.enabled || !isDestructive pair then none
    else some ⟨lastButOne c.cmd, args⟩

/-- The rules that stand in the filter arguments of a measurement. -/
def Measurement.rules (m : Measurement) : List String :=
  match splitFilterRules m.filterArgs with
  | .ok (rules, _) => rules
  | .error _ => []

/-- The endpoints whose deletions a command carries over to the other side. -/
def deletionSources (route : PairRoute) : List String :=
  if route.verb = "bisync" then [route.src, route.dst]
  else if route.verb = "sync" then [route.src]
  else []

/-- A productive command with the guard switched on, and the measurement before it starts. -/
structure GuardedRun (env : PairEnv) (guard : GuardEnv) (cfg pair : Dict) (baseArgs : List String)
    extends CompiledPair env cfg pair baseArgs false where
  settings : GuardSettings
  settings_eq : guardSettings guard backup pair = .ok settings
  enabled : settings.enabled = true
  measurement : Option Measurement
  measurement_eq : guardMeasurement env cfg pair settings command = .ok measurement

/-! ### The filters of the measurement -/

theorem FlagValues.pending {args : List String} (h : FlagValues args) :
    ArgScan.pending takesFilterValue args = false := by
  obtain ⟨ps, rfl, hp⟩ := h
  induction ps with
  | nil => rfl
  | cons p ps ih =>
    have hcons : (p :: ps).flatMap (fun p => [p.1, p.2])
        = p.1 :: p.2 :: ps.flatMap fun p => [p.1, p.2] := rfl
    rw [hcons, pending_cons_valued (hp p List.mem_cons_self).1]
    exact ih fun q hq => hp q (List.mem_cons_of_mem _ hq)

/-- The flag of a filter file, and the file. -/
def filterFileFlag (verb file : String) : List String :=
  if file = "" then [] else [if verb = "bisync" then "--filters-file" else "--filter-from", file]

theorem filterSlots_file (verb file : String) :
    filterSlots (filterFileFlag verb file) = if file = "" then [] else [(.filterFrom, file)] := by
  have hslot : ∀ flag, flag = "--filters-file" ∨ flag = "--filter-from" →
      filterSlots [flag, file] = [(.filterFrom, file)] := by
    rintro flag (rfl | rfl) <;> rfl
  unfold filterFileFlag
  split_ifs
  · rfl
  · exact hslot _ (Or.inl rfl)
  · exact hslot _ (Or.inr rfl)

/-- The filters of a pair for any verb: only the flag of the filter file depends on it. -/
theorem rawFilterArgs_parts {cfg pair : Dict} {verb : String} {raw : List String}
    (h : rawFilterArgs env cfg pair verb = .ok raw) :
    ∃ front file, FlagValues front ∧
      ∀ verb', rawFilterArgs env cfg pair verb' = .ok (front ++ filterFileFlag verb' file) := by
  unfold rawFilterArgs at h
  dsimp only at h
  obtain ⟨includeFile, hinclude, h⟩ := bind_ok.mp h
  obtain ⟨excludeFile, hexclude, h⟩ := bind_ok.mp h
  refine ⟨_, strip (pyStr (pyOr (pair.get "filter_file")
    (pyOr (configGet₂ cfg "backup" "filter_file" (.str "")) (.str "")))),
    flagValues_front hinclude hexclude, fun verb' => ?_⟩
  unfold rawFilterArgs filterFileFlag
  dsimp only
  rw [hinclude, hexclude]
  by_cases hblank : strip (pyStr (pyOr (pair.get "filter_file")
      (pyOr (configGet₂ cfg "backup" "filter_file" (.str "")) (.str "")))) = ""
  · rw [if_pos hblank]
    dsimp only [bind, Except.bind]
    rw [if_pos hblank]
    rfl
  · rw [if_neg hblank] at h
    rw [if_neg hblank]
    dsimp only [bind, Except.bind]
    rw [if_neg hblank]
    by_cases hmissing : (env.files (strip (pyStr (pyOr (pair.get "filter_file")
        (pyOr (configGet₂ cfg "backup" "filter_file" (.str "")) (.str "")))))).isNone = true
    · rw [if_pos hmissing] at h
      obtain ⟨filterFile, hfile, -⟩ := bind_ok.mp h
      cases hfile
    · rw [if_neg hmissing]
      rfl

theorem decision_congr {r r' : FilterRead} (h : r.entries = r'.entries) :
    r.decision hit x = r'.decision hit x := by
  obtain ⟨remainder, entries⟩ := r
  obtain rfl : entries = r'.entries := h
  rfl

/-- What the measurement decides: the filters of the pair alone. -/
theorem included_measured (hall : ∀ x, hit "**" x = true) {cfg pair : Dict} {verb : String}
    {raw out args : List String} (hraw : rawFilterArgs env cfg pair verb = .ok raw)
    (hout : protectedFilterArgs env raw = .ok out)
    (hargs : filterArgs env cfg pair "sync" = .ok args) (source : String) :
    included hit ((Measurement.rules ⟨source, args⟩).filterMap parseRule) x
      = (!reservedPath hit x && ((filterRead env raw).decision hit x).getD true) := by
  obtain ⟨front, file, hfront, hverbs⟩ := rawFilterArgs_parts hraw
  obtain rfl : raw = front ++ filterFileFlag verb file :=
    Except.ok.inj (hraw.symm.trans (hverbs verb))
  have hmeasured : protectedFilterArgs env (front ++ filterFileFlag "sync" file) = .ok args := by
    rw [filterArgs, hverbs "sync"] at hargs
    exact hargs
  have hcompiles := compiles_of_ok hmeasured
  have hentries : (filterRead env (front ++ filterFileFlag "sync" file)).entries
      = (filterRead env (front ++ filterFileFlag verb file)).entries := by
    refine entries_unique hcompiles.reads.entries ?_
    have hslots : ∀ verb', filterSlots (front ++ filterFileFlag verb' file)
        = filterSlots front ++ if file = "" then [] else [(.filterFrom, file)] := by
      intro verb'
      rw [← filterSlots_file verb', filterSlots, slots_append hfront.pending,
        List.filterMap_append]
      rfl
    rw [hslots "sync", ← hslots verb]
    exact (compiles_of_ok hout).reads.entries
  have hrules : Measurement.rules ⟨source, args⟩
      = (filterRead env (front ++ filterFileFlag "sync" file)).rules := by
    obtain ⟨hshape, hplain, -⟩ := protectedFilterArgs_shape hmeasured
    have hnofilter : "--filter" ∉ otherTokens (front ++ filterFileFlag "sync" file) := by
      intro h
      exact absurd (hplain _ h).noValue (by decide)
    rw [Measurement.rules, hshape, splitFilterRules_append hnofilter, hcompiles.rules]
  rw [hrules, included_rules hall (no_reset_rule hcompiles.noReset), decision_congr hentries]

/-! ### Where the measurement differs -/

/-- What the filters of the arguments decide about a path that no exclude of theirs, no global
filter and no filter of the pair decides. -/
def argumentsAlone (hit : String → χ → Bool) (G A : FilterRead) (x : χ) : Option Bool :=
  (decided hit (A.group .filter) x).or
    (((decided hit (G.group .filterFrom) x).or (decided hit (A.group .filterFrom) x)).or
      (if G.includesPath hit x || A.includesPath hit x then some true
        else if G.includes ≠ [] ∨ A.includes ≠ [] then some false
        else none))

/-- The paths that only one of the run and its measurement looks at: `G`, `P` and `A` are the
filters of the global arguments, of the pair, and of its own arguments. -/
inductive Mismeasured (hit : String → χ → Bool) (G P A : FilterRead) (x : χ) : Prop
  /-- an exclude of the arguments matches what the pair's own filters let through -/
  | argumentExclude (hx : reservedPath hit x = false)
      (hexclude : (G.excludesPath hit x || A.excludesPath hit x) = true)
      (hpair : (P.decision hit x).getD true = true)
  /-- a global filter decides the other way -/
  | globalFilter (b : Bool) (hopen : LeftOpen hit G A x)
      (hfilter : decided hit (G.group .filter) x = some b)
      (hpair : (P.decision hit x).getD true = !b)
  /-- the pair has nothing to say, and the arguments leave the path out -/
  | arguments (hopen : LeftOpen hit G A x) (hglobal : decided hit (G.group .filter) x = none)
      (hpair : P.decision hit x = none) (halone : argumentsAlone hit G A x = some false)

theorem mismeasured_iff {G P A : FilterRead} (hx : reservedPath hit x = false) :
    (P.decision hit x).getD true = (twoPasses hit G P A x).getD true ↔
      ¬ Mismeasured hit G P A x := by
  cases hexcluded : G.excludesPath hit x || A.excludesPath hit x with
  | true =>
    have hnot : ¬ LeftOpen hit G A x := by
      rintro ⟨-, hG, hA⟩
      rw [hG, hA] at hexcluded
      cases hexcluded
    have hover : Mismeasured hit G P A x ↔ (P.decision hit x).getD true = true := by
      constructor
      · intro h
        cases h with
        | argumentExclude _ _ hpair => exact hpair
        | globalFilter _ hopen => exact absurd hopen hnot
        | arguments hopen => exact absurd hopen hnot
      · exact .argumentExclude hx hexcluded
    rw [hover, twoPasses, if_pos hexcluded, Option.getD_some, Bool.not_eq_true]
  | false =>
    obtain ⟨hG, hA⟩ := Bool.or_eq_false_iff.mp hexcluded
    have hopen : LeftOpen hit G A x := ⟨hx, hG, hA⟩
    have htwo : twoPasses hit G P A x = (decided hit (G.group .filter) x).or
        ((P.decision hit x).or (argumentsAlone hit G A x)) := by
      rw [twoPasses, if_neg (by rw [hexcluded]; decide)]
      rfl
    rw [htwo]
    cases hfilter : decided hit (G.group .filter) x with
    | some b =>
      have hover : Mismeasured hit G P A x ↔ (P.decision hit x).getD true = !b := by
        constructor
        · intro h
          cases h with
          | argumentExclude _ hexclude => exact absurd (hexcluded.symm.trans hexclude) (by decide)
          | globalFilter c _ hfilter' hpair =>
            obtain rfl : b = c := Option.some.inj (hfilter.symm.trans hfilter')
            exact hpair
          | arguments _ hglobal => exact absurd (hfilter.symm.trans hglobal) (by simp)
        · exact .globalFilter b hopen hfilter
      rw [hover, Option.some_or, Option.getD_some]
      cases b <;> cases (P.decision hit x).getD true <;> decide
    | none =>
      have hover : Mismeasured hit G P A x ↔
          P.decision hit x = none ∧ argumentsAlone hit G A x = some false := by
        constructor
        · intro h
          cases h with
          | argumentExclude _ hexclude => exact absurd (hexcluded.symm.trans hexclude) (by decide)
          | globalFilter c _ hfilter' => exact absurd (hfilter.symm.trans hfilter') (by simp)
          | arguments _ _ hpair halone => exact ⟨hpair, halone⟩
        · rintro ⟨hpair, halone⟩
          exact .arguments hopen hfilter hpair halone
      rw [hover, Option.none_or]
      cases hpair : P.decision hit x with
      | some b => simp
      | none =>
        rw [Option.none_or]
        rcases argumentsAlone hit G A x with - | b
        · simp
        · cases b <;> simp

/-! ### Main result -/

section Run

variable {guard : GuardEnv} {cfg pair : Dict} {baseArgs : List String}
  (T : GuardedRun env guard cfg pair baseArgs)

/-- Every endpoint that can pass on deletions is measured. -/
def GuardedRun.CoversEndpoints : Prop :=
  ∀ e ∈ deletionSources T.command.route, ∃ m, T.measurement = some m ∧ m.source = e

/-- The measurement accepts the paths the command accepts. -/
def GuardedRun.SameFilters (hit : String → χ → Bool) : Prop :=
  ∀ m, T.measurement = some m → ∀ x, included hit (m.rules.filterMap parseRule) x
    = included hit ((effectiveRules env T.sources).filterMap parseRule) x

theorem lastButOne_append (front : List String) (a b : String) :
    lastButOne (front ++ ["--", a, b]) = a := by
  have hsplit : front ++ ["--", a, b] = (front ++ ["--", a]) ++ [b] := by simp
  have hlast : front ++ ["--", a] = (front ++ ["--"]) ++ [a] := by simp
  rw [lastButOne, hsplit, List.dropLast_concat, hlast, List.getLast?_concat]
  rfl

/-- The measurement of a pair that the guard takes for destructive, and none of any other. -/
theorem GuardedRun.measurement_cases :
    ∃ args, filterArgs env cfg pair "sync" = .ok args ∧
      T.measurement = if isDestructive pair then some ⟨T.command.route.src, args⟩ else none := by
  obtain ⟨b⟩ := buildPairCommand_ok T.built
  have hsource : lastButOne T.command.cmd = T.command.route.src := by
    rw [b.cmd_eq rfl]
    exact lastButOne_append _ _ _
  have h := T.measurement_eq
  unfold guardMeasurement at h
  cases hargs : filterArgs env cfg pair "sync" with
  | error e =>
    rw [hargs] at h
    cases h
  | ok args =>
    rw [hargs] at h
    refine ⟨args, rfl, ?_⟩
    rw [← Except.ok.inj h, T.enabled, hsource]
    cases isDestructive pair with
    | true => rfl
    | false => rfl

theorem GuardedRun.covers_iff :
    T.CoversEndpoints ↔ (deletingVerb T.command.route.verb = true → isDestructive pair = true) ∧
      (T.command.route.verb = "bisync" → T.command.route.dst = T.command.route.src) := by
  obtain ⟨args, -, hm⟩ := T.measurement_cases
  unfold GuardedRun.CoversEndpoints deletionSources deletingVerb
  rw [hm]
  by_cases hbisync : T.command.route.verb = "bisync"
  · rw [if_pos hbisync, hbisync]
    cases isDestructive pair with
    | true => simp [eq_comm]
    | false =>
      refine iff_of_false ?_ fun h => absurd (h.1 rfl) (by decide)
      intro h
      obtain ⟨m, hnone, -⟩ := h _ List.mem_cons_self
      cases hnone
  · rw [if_neg hbisync]
    by_cases hsync : T.command.route.verb = "sync"
    · rw [if_pos hsync, hsync]
      cases isDestructive pair with
      | true => simp
      | false => simp
    · rw [if_neg hsync]
      simp [hbisync, hsync]

theorem GuardedRun.sameFilters_iff (hkept : T.FiltersKept) (hall : ∀ x, hit "**" x = true) :
    T.SameFilters hit ↔
      (isDestructive pair = true → ∀ x, ¬ Mismeasured hit T.globals T.pairs T.owns x) := by
  obtain ⟨args, hargs, hm⟩ := T.measurement_cases
  unfold GuardedRun.SameFilters
  rw [hm]
  cases hdestructive : isDestructive pair with
  | false => simp
  | true =>
    rw [if_pos rfl]
    have hsame : ∀ x, included hit
          ((Measurement.rules ⟨T.command.route.src, args⟩).filterMap parseRule) x
          = included hit ((effectiveRules env T.sources).filterMap parseRule) x ↔
        ¬ Mismeasured hit T.globals T.pairs T.owns x := by
      intro x
      rw [included_measured hall T.raw_eq T.filters_eq hargs, T.included_effective hkept hall]
      cases hx : reservedPath hit x with
      | true =>
        refine iff_of_true rfl ?_
        intro h
        cases h with
        | argumentExclude hfree => exact absurd (hx.symm.trans hfree) (by decide)
        | globalFilter _ hopen => exact absurd (hx.symm.trans hopen.1) (by decide)
        | arguments hopen => exact absurd (hx.symm.trans hopen.1) (by decide)
      | false => exact mismeasured_iff hx
    constructor
    · intro h _ x
      exact (hsame x).mp (h _ rfl x)
    · rintro h m hmem x
      obtain rfl := Option.some.inj hmem
      exact (hsame x).mpr (h rfl x)

/-- **What the guard measures is what the run changes**, where the de-duplication leaves the
filters as they are, exactly if the guard takes the pair for
destructive where its command deletes, the command is no bisync of two endpoints, and no filter of
the rclone arguments decides against the filters of the pair. -/
theorem guard_measures_iff (hkept : T.FiltersKept) (hall : ∀ x, hit "**" x = true) :
    T.CoversEndpoints ∧ T.SameFilters hit ↔
      (deletingVerb T.command.route.verb = true → isDestructive pair = true) ∧
      (T.command.route.verb = "bisync" → T.command.route.dst = T.command.route.src) ∧
      (isDestructive pair = true → ∀ x, ¬ Mismeasured hit T.globals T.pairs T.owns x) := by
  rw [T.covers_iff, T.sameFilters_iff hkept hall, and_assoc]

end Run

/-! ### An exclude in the arguments, and both sides of a bisync -/

/-- The settings of a guard nobody configured. -/
def defaultGuard : GuardSettings := ⟨true, .dec 35 0, .dec 35 0, 100, 180⟩

/-- The photo pair with other arguments of its own. -/
def arguedPair (args : String) : Dict := photoPair ++ [("rclone_args", .str args)]

def arguedSources (own : List String) : ArgSources where
  base := []
  verbArgs := []
  tuningArgs := []
  pairArgs := ["--max-delete=5"]
  filters := filterPairs reservedRules
  own := own
  backupDir := []

def arguedCommand (own rules : List String) : PairCommand where
  cmd := ["rclone", "sync", "--cache-dir", "/cache", "--stats", "10s", "--stats-one-line"] ++
    "--max-delete=5" :: own ++ filterPairs (reservedRules ++ rules) ++
      ["--", "/photos", "box:photos"]
  route := ⟨"sync", "push", "sync", "/photos", "box:photos"⟩
  filterFile := none

theorem argued_settings : guardSettings sampleGuardEnv [] (arguedPair "--exclude=*.png")
      = .ok defaultGuard ∧
    guardSettings sampleGuardEnv [] (arguedPair "--fast-list") = .ok defaultGuard := by
  decide +kernel

theorem argued_measurement :
    guardMeasurement photoEnv [] (arguedPair "--exclude=*.png") defaultGuard
        (arguedCommand [] ["- *.png"]) = .ok (some ⟨"/photos", filterPairs reservedRules⟩) ∧
      guardMeasurement photoEnv [] (arguedPair "--fast-list") defaultGuard
        (arguedCommand ["--fast-list"] [])
        = .ok (some ⟨"/photos", filterPairs reservedRules⟩) := by
  decide +kernel

/-- A push of photos that leaves out one kind of file in its arguments. -/
def excludingRun : GuardedRun photoEnv sampleGuardEnv [] (arguedPair "--exclude=*.png") [] :=
  have hharmless : Harmless "--exclude=*.png" :=
    ⟨by decide +kernel, by decide +kernel, by decide +kernel, by decide +kernel, by decide +kernel⟩
  have hown : validateRcloneArgs (.str "--exclude=*.png") false = .ok ["--exclude=*.png"] :=
    validate_token (by decide +kernel) (by decide +kernel) (by decide +kernel) hharmless false
  have hsources : argSources photoEnv [] [] (arguedPair "--exclude=*.png")
      (arguedCommand [] []).route [] = .ok (arguedSources ["--exclude=*.png"]) :=
    argSources_of_parts (validate_noArgs _) (by decide +kernel) hown
      (by decide +kernel) (by decide +kernel) (by decide +kernel) (by decide +kernel)
  have hkept : dedupeSingleValueRcloneArgs (arguedSources ["--exclude=*.png"]).vector
      = (arguedSources ["--exclude=*.png"]).vector := by
    decide +kernel
  have hrewritten : rewrittenArgs photoEnv [] "sync" (arguedSources ["--exclude=*.png"]).vector
      = .ok ("--max-delete=5" :: filterPairs (reservedRules ++ ["- *.png"]), none) :=
    rewrittenArgs_of_parts (by decide) hkept (by decide +kernel)
  { command := arguedCommand [] ["- *.png"]
    backup := []
    sources := arguedSources ["--exclude=*.png"]
    raw := []
    built := buildPairCommand_of_sources (by decide +kernel) backupSection_empty rfl
      (by decide +kernel) hsources hrewritten (by decide +kernel)
    backup_eq := backupSection_empty
    sources_eq := hsources
    raw_eq := by decide +kernel
    base_compiles := noArgs_compile
    own_compiles := ⟨filterPairs (reservedRules ++ ["- *.png"]), by decide +kernel⟩
    settings := defaultGuard
    settings_eq := argued_settings.1
    enabled := rfl
    measurement := some ⟨"/photos", filterPairs reservedRules⟩
    measurement_eq := argued_measurement.1 }

/-- The same push without filters in its arguments. -/
def plainRun : GuardedRun photoEnv sampleGuardEnv [] (arguedPair "--fast-list") [] :=
  have hsources : argSources photoEnv [] [] (arguedPair "--fast-list")
      (arguedCommand [] []).route [] = .ok (arguedSources ["--fast-list"]) :=
    argSources_of_parts (validate_noArgs _) (by decide +kernel) (validate_fastList _)
      (by decide +kernel) (by decide +kernel) (by decide +kernel) (by decide +kernel)
  have hkept : dedupeSingleValueRcloneArgs (arguedSources ["--fast-list"]).vector
      = (arguedSources ["--fast-list"]).vector := by
    decide +kernel
  have hrewritten : rewrittenArgs photoEnv [] "sync" (arguedSources ["--fast-list"]).vector
      = .ok (["--max-delete=5", "--fast-list"] ++ filterPairs reservedRules, none) :=
    rewrittenArgs_of_parts (by decide) hkept (by decide +kernel)
  { command := arguedCommand ["--fast-list"] []
    backup := []
    sources := arguedSources ["--fast-list"]
    raw := []
    built := buildPairCommand_of_sources (by decide +kernel) backupSection_empty rfl
      (by decide +kernel) hsources hrewritten (by decide +kernel)
    backup_eq := backupSection_empty
    sources_eq := hsources
    raw_eq := by decide +kernel
    base_compiles := noArgs_compile
    own_compiles := fastList_compile
    settings := defaultGuard
    settings_eq := argued_settings.2
    enabled := rfl
    measurement := some ⟨"/photos", filterPairs reservedRules⟩
    measurement_eq := argued_measurement.2 }

theorem plainRun_kept : plainRun.FiltersKept := by
  unfold CompiledPair.FiltersKept
  decide +kernel

theorem guard_measures_plain : plainRun.command.route.verb = "sync" ∧
    plainRun.CoversEndpoints ∧ plainRun.SameFilters endingHit := by
  have hglobals : plainRun.globals = ⟨[], []⟩ := by decide +kernel
  have howns : plainRun.owns = ⟨["--fast-list"], []⟩ := by decide +kernel
  refine ⟨rfl, (guard_measures_iff plainRun plainRun_kept endingHit_all).mpr ⟨fun _ => by decide +kernel,
    fun h => absurd h (by decide), fun _ x h => ?_⟩⟩
  rw [hglobals, howns] at h
  cases h with
  | argumentExclude _ hexclude => cases hexclude
  | globalFilter _ _ hfilter => cases hfilter
  | arguments _ _ _ halone => cases halone

/-- The photo pair in both directions. -/
def bothWaysPair : Dict :=
  [("remote", .str "box:photos"), ("local", .str "/photos"), ("direction", .str "bisync"),
   ("allow_delete", .bool true), ("max_delete", .int 5)]

/-- Pictures that the push leaves out are measured, and of a bisync the local side is not. -/
theorem guard_measures_other :
    (∃ m, excludingRun.measurement = some m ∧
      included endingHit (m.rules.filterMap parseRule) "cat.png" = true ∧
      included endingHit ((effectiveRules photoEnv excludingRun.sources).filterMap parseRule)
        "cat.png" = false) ∧
    ∃ c m, buildPairCommand photoEnv [] bothWaysPair [] false = .ok c ∧
      guardMeasurement photoEnv [] bothWaysPair defaultGuard c = .ok (some m) ∧
      "/photos" ∈ deletionSources c.route ∧ m.source ≠ "/photos" := by
  refine ⟨⟨⟨"/photos", filterPairs reservedRules⟩, rfl, by decide +kernel, by decide +kernel⟩, ?_⟩
  obtain ⟨c, hc⟩ : ∃ c, buildPairCommand photoEnv [] bothWaysPair [] false = .ok c := by
    rcases h : buildPairCommand photoEnv [] bothWaysPair [] false with e | c
    · have hok : (buildPairCommand photoEnv [] bothWaysPair [] false).isOk = true := by
        decide +kernel
      rw [h] at hok
      cases hok
    · exact ⟨c, rfl⟩
  obtain ⟨b⟩ := buildPairCommand_ok hc
  have hroute : pairRoute bothWaysPair
      = .ok ⟨"bisync", "bisync", "bisync", "box:photos", "/photos"⟩ := by decide +kernel
  obtain hr : c.route = _ := Except.ok.inj (b.route_eq.symm.trans hroute)
  have hsource : lastButOne c.cmd = "box:photos" := by
    rw [b.cmd_eq rfl, lastButOne_append, hr]
  have hargs : filterArgs photoEnv [] bothWaysPair "sync" = .ok (filterPairs reservedRules) := by
    decide +kernel
  have hdestructive : isDestructive bothWaysPair = true := by decide +kernel
  refine ⟨c, ⟨"box:photos", filterPairs reservedRules⟩, hc, ?_, ?_, by decide⟩
  · rw [guardMeasurement, hargs, hsource, hdestructive]
    rfl
  · rw [hr]
    decide

end RcloneSync
