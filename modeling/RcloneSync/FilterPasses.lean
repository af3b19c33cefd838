/-
RcloneSync/FilterPasses.lean

The filters of a pair are compiled on their own, and then once more together with the global
and the pair's own rclone arguments.  The second compilation sees the first one's rules as one
long group of filters, so compared with a single pass over everything

  * the pair's excludes come behind the global filters,
  * the pair's filter files and includes come in front of the filters of the arguments, and
  * with an include of the pair everything else is excluded before the includes of the
    arguments are looked at.

`Overruled` lists the paths for which this matters, and `two_passes_iff` says that there are no
others.  In safe mode the arguments hold no filters, and only the last point is left.
-/
import RcloneSync.DeleteBound
import RcloneSync.FilterDecision

namespace RcloneSync

open Py ArgScan FirstMatch

variable {env : PairEnv} {χ : Type*} {hit : String → χ → Bool} {x : χ}

/-! ### Where the order matters -/

/-- No reserved rule and no exclude of the arguments decides about a path. -/
def LeftOpen (hit : String → χ → Bool) (G A : FilterRead) (x : χ) : Prop :=
  reservedPath hit x = false ∧ G.excludesPath hit x = false ∧ A.excludesPath hit x = false

/-- Neither does an exclude or a filter of the pair, or a global filter. -/
def ReachesFiles (hit : String → χ → Bool) (G P A : FilterRead) (x : χ) : Prop :=
  LeftOpen hit G A x ∧ P.excludesPath hit x = false ∧ decided hit (G.group .filter) x = none ∧
    decided hit (P.group .filter) x = none

/-- The paths whose decision depends on the order of the passes: `G`, `P` and `A` are the filters
of the global arguments, of the pair, and of its own arguments. -/
inductive Overruled (hit : String → χ → Bool) (G P A : FilterRead) (x : χ) : Prop
  /-- a global filter includes what the pair excludes -/
  | globalFilter (hopen : LeftOpen hit G A x) (hpair : P.excludesPath hit x = true)
      (hfilter : decided hit (G.group .filter) x = some true)
  /-- the pair decides, and a filter of its arguments or a global filter file would otherwise -/
  | argumentFilter (b : Bool) (hreaches : ReachesFiles hit G P A x)
      (hpair : (decided hit (P.group .filterFrom) x).or (P.closing hit x) = some b)
      (hfilter : (decided hit (A.group .filter) x).or (decided hit (G.group .filterFrom) x)
        = some !b)
  /-- the includes of the pair decide, and a filter file of its arguments would otherwise -/
  | argumentFile (b : Bool) (hreaches : ReachesFiles hit G P A x)
      (hfile : decided hit (P.group .filterFrom) x = none) (hpair : P.closing hit x = some b)
      (hfilter : (decided hit (A.group .filter) x).or (decided hit (G.group .filterFrom) x) = none)
      (hbehind : decided hit (A.group .filterFrom) x = some !b)
  /-- the pair has includes, none of which matches, and an include of the arguments does -/
  | argumentInclude (hreaches : ReachesFiles hit G P A x)
      (hfile : decided hit (P.group .filterFrom) x = none) (hpair : P.closing hit x = some false)
      (hfilter : (decided hit (A.group .filter) x).or (decided hit (G.group .filterFrom) x) = none)
      (hbehind : decided hit (A.group .filterFrom) x = none)
      (hinclude : (G.includesPath hit x || A.includesPath hit x) = true)

theorem Overruled.leftOpen {G P A : FilterRead} (h : Overruled hit G P A x) :
    LeftOpen hit G A x := by
  cases h with
  | globalFilter hopen => exact hopen
  | argumentFilter _ hreaches => exact hreaches.1
  | argumentFile _ hreaches => exact hreaches.1
  | argumentInclude hreaches => exact hreaches.1

/-! ### The two orders -/

/-- What the command decides: the pair's filters are one group in the middle. -/
def twoPasses (hit : String → χ → Bool) (G P A : FilterRead) (x : χ) : Option Bool :=
  if G.excludesPath hit x || A.excludesPath hit x then some false
  else (decided hit (G.group .filter) x).or ((P.decision hit x).or
    ((decided hit (A.group .filter) x).or
      (((decided hit (G.group .filterFrom) x).or (decided hit (A.group .filterFrom) x)).or
        (if G.includesPath hit x || A.includesPath hit x then some true
          else if G.includes ≠ [] ∨ A.includes ≠ [] then some false
          else none))))

/-- What one pass over everything decides. -/
def onePass (hit : String → χ → Bool) (G P A : FilterRead) (x : χ) : Option Bool :=
  if G.excludesPath hit x || P.excludesPath hit x || A.excludesPath hit x then some false
  else (decided hit (G.group .filter) x).or ((decided hit (P.group .filter) x).or
    ((decided hit (A.group .filter) x).or ((decided hit (G.group .filterFrom) x).or
      ((decided hit (P.group .filterFrom) x).or ((decided hit (A.group .filterFrom) x).or
        (if G.includesPath hit x || P.includesPath hit x || A.includesPath hit x then some true
          else if G.includes ≠ [] ∨ P.includes ≠ [] ∨ A.includes ≠ [] then some false
          else none))))))

section Agree

variable {G P A : FilterRead}

/-- Where an exclude of the pair matches, only a global filter comes before it. -/
theorem agree_of_excluded (hopen : LeftOpen hit G A x) (hP : P.excludesPath hit x = true) :
    (twoPasses hit G P A x).getD true = (onePass hit G P A x).getD true ↔
      ¬ Overruled hit G P A x := by
  have hone : onePass hit G P A x = some false := by
    rw [onePass, hP, hopen.2.1, hopen.2.2]
    rfl
  have htwo : twoPasses hit G P A x = (decided hit (G.group .filter) x).or (some false) := by
    have hdecision : P.decision hit x = some false := by
      rw [FilterRead.decision, hP]
      rfl
    rw [twoPasses, hopen.2.1, hopen.2.2, hdecision]
    rfl
  have hover : Overruled hit G P A x ↔ decided hit (G.group .filter) x = some true := by
    constructor
    · intro h
      cases h with
      | globalFilter _ _ hfilter => exact hfilter
      | argumentFilter b hreaches => exact absurd (hP.symm.trans hreaches.2.1) (by decide)
      | argumentFile b hreaches => exact absurd (hP.symm.trans hreaches.2.1) (by decide)
      | argumentInclude hreaches => exact absurd (hP.symm.trans hreaches.2.1) (by decide)
    · exact fun hfilter => .globalFilter hopen hP hfilter
  rw [hover, hone, htwo]
  cases decided hit (G.group .filter) x with
  | none => decide
  | some b => cases b <;> decide

/-- Where an earlier filter decides, the order of the rest does not matter. -/
theorem agree_of_filtered (hopen : LeftOpen hit G A x) (hP : P.excludesPath hit x = false)
    {b : Bool}
    (hfilter : (decided hit (G.group .filter) x).or (decided hit (P.group .filter) x) = some b) :
    (twoPasses hit G P A x).getD true = (onePass hit G P A x).getD true ↔
      ¬ Overruled hit G P A x := by
  have hnot : ¬ ReachesFiles hit G P A x := by
    rintro ⟨-, -, hG, hP'⟩
    rw [hG, hP'] at hfilter
    cases hfilter
  have hover : ¬ Overruled hit G P A x := by
    intro h
    cases h with
    | globalFilter _ hpair => exact absurd (hP.symm.trans hpair) (by decide)
    | argumentFilter _ hreaches => exact hnot hreaches
    | argumentFile _ hreaches => exact hnot hreaches
    | argumentInclude hreaches => exact hnot hreaches
  refine iff_of_true ?_ hover
  have hdecision : P.decision hit x = (decided hit (P.group .filter) x).or
      ((decided hit (P.group .filterFrom) x).or (P.closing hit x)) := by
    rw [FilterRead.decision, hP]
    rfl
  rw [twoPasses, onePass, hopen.2.1, hopen.2.2, hP, hdecision]
  cases hG : decided hit (G.group .filter) x with
  | some c => rfl
  | none =>
    rw [hG, Option.none_or] at hfilter
    rw [hfilter]
    rfl

/-- What the two orders decide once the files are reached. -/
theorem passes_of_reaches (hreaches : ReachesFiles hit G P A x) :
    twoPasses hit G P A x
      = ((decided hit (P.group .filterFrom) x).or (P.closing hit x)).or
        (((decided hit (A.group .filter) x).or (decided hit (G.group .filterFrom) x)).or
          ((decided hit (A.group .filterFrom) x).or
            (if G.includesPath hit x || A.includesPath hit x then some true
              else if G.includes ≠ [] ∨ A.includes ≠ [] then some false
              else none))) ∧
    onePass hit G P A x
      = ((decided hit (A.group .filter) x).or (decided hit (G.group .filterFrom) x)).or
        ((decided hit (P.group .filterFrom) x).or ((decided hit (A.group .filterFrom) x).or
          (if G.includesPath hit x || P.includesPath hit x || A.includesPath hit x then some true
            else if G.includes ≠ [] ∨ P.includes ≠ [] ∨ A.includes ≠ [] then some false
            else none))) := by
  obtain ⟨⟨-, hG, hA⟩, hP, hfilter, hfilter'⟩ := hreaches
  have hdecision : P.decision hit x
      = (decided hit (P.group .filterFrom) x).or (P.closing hit x) := by
    rw [FilterRead.decision, hP, hfilter']
    rfl
  constructor
  · rw [twoPasses, hG, hA, hfilter, hdecision]
    simp only [Bool.or_false, Bool.false_eq_true, if_false, Option.none_or, Option.or_assoc]
  · rw [onePass, hG, hA, hP, hfilter, hfilter']
    simp only [Bool.or_false, Bool.false_eq_true, if_false, Option.none_or, Option.or_assoc]

/-- The pair decides nothing, so it does not matter where its rules stand. -/
theorem agree_of_silent (hreaches : ReachesFiles hit G P A x)
    (hsilent : (decided hit (P.group .filterFrom) x).or (P.closing hit x) = none) :
    twoPasses hit G P A x = onePass hit G P A x := by
  obtain ⟨htwo, hone⟩ := passes_of_reaches hreaches
  rw [htwo, hone, hsilent]
  obtain ⟨hfile, hclosing⟩ := Option.or_eq_none_iff.mp hsilent
  have hnone : P.includesPath hit x = false ∧ P.includes = [] := by
    unfold FilterRead.closing at hclosing
    split_ifs at hclosing with hinclude hsome
    · exact ⟨by simpa using hinclude, not_not.mp hsome⟩
  rw [hfile, hnone.1, hnone.2]
  simp

/-- A path that reaches the files can only be overruled there. -/
theorem Overruled.cases_reached (hreaches : ReachesFiles hit G P A x) (h : Overruled hit G P A x) :
    ∃ b, (decided hit (P.group .filterFrom) x).or (P.closing hit x) = some b ∧
      ((decided hit (A.group .filter) x).or (decided hit (G.group .filterFrom) x) = some !b ∨
        (decided hit (A.group .filter) x).or (decided hit (G.group .filterFrom) x) = none ∧
        decided hit (P.group .filterFrom) x = none ∧
        (decided hit (A.group .filterFrom) x = some !b ∨
          decided hit (A.group .filterFrom) x = none ∧ b = false ∧
            (G.includesPath hit x || A.includesPath hit x) = true)) := by
  cases h with
  | globalFilter _ hpair _ => exact absurd (hpair.symm.trans hreaches.2.1) (by decide)
  | argumentFilter b _ hpair hfilter => exact ⟨b, hpair, Or.inl hfilter⟩
  | argumentFile b _ hfile hpair hfilter hbehind =>
    refine ⟨b, ?_, Or.inr ⟨hfilter, hfile, Or.inl hbehind⟩⟩
    rw [hfile, hpair]
    rfl
  | argumentInclude _ hfile hpair hfilter hbehind hinclude =>
    refine ⟨false, ?_, Or.inr ⟨hfilter, hfile, Or.inr ⟨hbehind, rfl, hinclude⟩⟩⟩
    rw [hfile, hpair]
    rfl

theorem Overruled.of_reached (hreaches : ReachesFiles hit G P A x) {b : Bool}
    (hpair : (decided hit (P.group .filterFrom) x).or (P.closing hit x) = some b)
    (h : (decided hit (A.group .filter) x).or (decided hit (G.group .filterFrom) x) = some !b ∨
        (decided hit (A.group .filter) x).or (decided hit (G.group .filterFrom) x) = none ∧
        decided hit (P.group .filterFrom) x = none ∧
        (decided hit (A.group .filterFrom) x = some !b ∨
          decided hit (A.group .filterFrom) x = none ∧ b = false ∧
            (G.includesPath hit x || A.includesPath hit x) = true)) :
    Overruled hit G P A x := by
  rcases h with hfilter | ⟨hfilter, hfile, hbehind | ⟨hbehind, rfl, hinclude⟩⟩
  · exact .argumentFilter b hreaches hpair hfilter
  · rw [hfile, Option.none_or] at hpair
    exact .argumentFile b hreaches hfile hpair hfilter hbehind
  · rw [hfile, Option.none_or] at hpair
    exact .argumentInclude hreaches hfile hpair hfilter hbehind hinclude

/-- The pair decides a path that no earlier rule decides. -/
theorem agree_of_decided (hreaches : ReachesFiles hit G P A x) {b : Bool}
    (hpair : (decided hit (P.group .filterFrom) x).or (P.closing hit x) = some b) :
    (twoPasses hit G P A x).getD true = (onePass hit G P A x).getD true ↔
      ¬ Overruled hit G P A x := by
  obtain ⟨htwo, hone⟩ := passes_of_reaches hreaches
  rw [hpair] at htwo
  have hover : Overruled hit G P A x ↔
      (decided hit (A.group .filter) x).or (decided hit (G.group .filterFrom) x) = some !b ∨
        (decided hit (A.group .filter) x).or (decided hit (G.group .filterFrom) x) = none ∧
        decided hit (P.group .filterFrom) x = none ∧
        (decided hit (A.group .filterFrom) x = some !b ∨
          decided hit (A.group .filterFrom) x = none ∧ b = false ∧
            (G.includesPath hit x || A.includesPath hit x) = true) := by
    constructor
    · intro h
      obtain ⟨b', hpair', h⟩ := h.cases_reached hreaches
      obtain rfl : b = b' := Option.some.inj (hpair.symm.trans hpair')
      exact h
    · exact .of_reached hreaches hpair
  rw [htwo, hone, hover]
  cases hahead : (decided hit (A.group .filter) x).or (decided hit (G.group .filterFrom) x) with
  | some c =>
    -- in one pass the filters of the arguments decide
    cases b <;> cases c <;> simp
  | none =>
    cases hfile : decided hit (P.group .filterFrom) x with
    | some b' =>
      rw [hfile] at hpair
      obtain rfl : b' = b := Option.some.inj hpair
      simp
    | none =>
      rw [hfile, Option.none_or] at hpair
      cases hbehind : decided hit (A.group .filterFrom) x with
      | some c => cases b <;> cases c <;> simp
      | none =>
        -- only includes are left
        unfold FilterRead.closing at hpair
        split_ifs at hpair with hinclude hsome
        · obtain rfl := Option.some.inj hpair
          rw [hinclude]
          simp
        · obtain rfl := Option.some.inj hpair
          rw [eq_false_of_ne_true hinclude]
          cases G.includesPath hit x <;> cases A.includesPath hit x <;> simp [hsome]

end Agree

theorem passes_agree_iff {G P A : FilterRead} (hx : reservedPath hit x = false) :
    (twoPasses hit G P A x).getD true = (onePass hit G P A x).getD true ↔
      ¬ Overruled hit G P A x := by
  cases hexcluded : G.excludesPath hit x || A.excludesPath hit x with
  | true =>
    have hnot : ¬ LeftOpen hit G A x := by
      rintro ⟨-, hG, hA⟩
      rw [hG, hA] at hexcluded
      cases hexcluded
    refine iff_of_true ?_ fun h => hnot h.leftOpen
    have hexcluded' : (G.excludesPath hit x || P.excludesPath hit x || A.excludesPath hit x)
        = true := by
      rw [Bool.or_right_comm, hexcluded]
      rfl
    rw [twoPasses, onePass, hexcluded, hexcluded']
    rfl
  | false =>
    obtain ⟨hG, hA⟩ := Bool.or_eq_false_iff.mp hexcluded
    have hopen : LeftOpen hit G A x := ⟨hx, hG, hA⟩
    cases hP : P.excludesPath hit x with
    | true => exact agree_of_excluded hopen hP
    | false =>
      cases hfilter : (decided hit (G.group .filter) x).or (decided hit (P.group .filter) x) with
      | some b => exact agree_of_filtered hopen hP hfilter
      | none =>
        obtain ⟨hfilterG, hfilterP⟩ := Option.or_eq_none_iff.mp hfilter
        have hreaches : ReachesFiles hit G P A x := ⟨hopen, hP, hfilterG, hfilterP⟩
        cases hpair : (decided hit (P.group .filterFrom) x).or (P.closing hit x) with
        | some b => exact agree_of_decided hreaches hpair
        | none =>
          refine iff_of_true (by rw [agree_of_silent hreaches hpair]) ?_
          intro h
          obtain ⟨b, hb, -⟩ := h.cases_reached hreaches
          rw [hpair] at hb
          cases hb

/-! ### The rules of a command -/

/-- The rules that the second compilation leaves in the command. -/
def effectiveRules (env : PairEnv) (s : ArgSources) : List String :=
  compiledRules env (dedupeSingleValueRcloneArgs s.vector)

/-- A command that was built, with the filters it was built from. -/
structure CompiledPair (env : PairEnv) (cfg pair : Dict) (baseArgs : List String)
    (dryRun : Bool) where
  command : PairCommand
  backup : Dict
  sources : ArgSources
  raw : List String
  built : buildPairCommand env cfg pair baseArgs dryRun = .ok command
  backup_eq : backupSection cfg = .ok backup
  sources_eq : argSources env cfg backup pair command.route baseArgs = .ok sources
  raw_eq : rawFilterArgs env cfg pair command.route.verb = .ok raw
  /-- the filters of each list compile -/
  base_compiles : ∃ out, protectedFilterArgs env sources.base = .ok out
  own_compiles : ∃ out, protectedFilterArgs env sources.own = .ok out

/-- The de-duplication of the settings leaves the filters as they are given.  It takes a filter
for a setting where its flag stands as the value of one, or where its own value is written like
one. -/
def CompiledPair.FiltersKept {cfg pair : Dict} {baseArgs : List String} {dryRun : Bool}
    (T : CompiledPair env cfg pair baseArgs dryRun) : Prop :=
  filterSlots (dedupeSingleValueRcloneArgs T.sources.vector)
    = filterSlots T.sources.base ++ filterSlots T.sources.filters ++ filterSlots T.sources.own

section Command

variable {cfg pair : Dict} {baseArgs : List String} {dryRun : Bool}
  (T : CompiledPair env cfg pair baseArgs dryRun)

/-- The filters of the global arguments, of the pair, and of its own arguments. -/
def CompiledPair.globals : FilterRead := filterRead env T.sources.base

def CompiledPair.pairs : FilterRead := filterRead env T.raw

def CompiledPair.owns : FilterRead := filterRead env T.sources.own

theorem CompiledPair.filters_eq : protectedFilterArgs env T.raw = .ok T.sources.filters := by
  obtain ⟨-, -, -, -, hfilters, -⟩ := argSources_ok T.sources_eq
  rw [filterArgs, T.raw_eq] at hfilters
  exact hfilters

/-- What the command decides. -/
theorem CompiledPair.included_effective (hkept : T.FiltersKept) (hall : ∀ x, hit "**" x = true) :
    included hit ((effectiveRules env T.sources).filterMap parseRule) x
      = (!reservedPath hit x && (twoPasses hit T.globals T.pairs T.owns x).getD true) := by
  obtain ⟨b⟩ := buildPairCommand_ok T.built
  obtain hbackup : b.backup = T.backup := Except.ok.inj (b.backup_eq.symm.trans T.backup_eq)
  have hsources := b.sources_eq
  rw [hbackup] at hsources
  obtain hs : b.sources = T.sources := Except.ok.inj (hsources.symm.trans T.sources_eq)
  have heffective := b.effective_eq
  rw [hs] at heffective
  unfold rewrittenArgs at heffective
  obtain ⟨compiled, hcompiled, -⟩ := bind_ok.mp heffective
  have hcompiles := compiles_of_ok hcompiled
  obtain ⟨base, hbase⟩ := T.base_compiles
  obtain ⟨own, hown⟩ := T.own_compiles
  have hentries := hcompiles.reads.entries
  rw [hkept] at hentries
  have hjoined := entries_unique hentries (List.rel_append (List.rel_append
    (compiles_of_ok hbase).reads.entries (entries_compiled (flagValues_raw T.raw_eq) T.filters_eq))
    (compiles_of_ok hown).reads.entries)
  rw [effectiveRules, hcompiles.rules, included_rules hall (no_reset_rule hcompiles.noReset)]
  cases hx : reservedPath hit x with
  | true => rw [Bool.not_true, Bool.false_and, Bool.false_and]
  | false =>
    rw [decision_within hall hjoined hx]
    rfl

/-- What one pass over the same filters decides. -/
theorem CompiledPair.included_onePass (hall : ∀ x, hit "**" x = true) {out : List String}
    (hone : protectedFilterArgs env (T.sources.base ++ T.raw ++ T.sources.own) = .ok out) :
    included hit ((compiledRules env (T.sources.base ++ T.raw ++ T.sources.own)).filterMap
      parseRule) x
      = (!reservedPath hit x && (onePass hit T.globals T.pairs T.owns x).getD true) := by
  have hcompiles := compiles_of_ok hone
  obtain ⟨base, hbase⟩ := T.base_compiles
  obtain ⟨own, hown⟩ := T.own_compiles
  have hbase := compiles_of_ok hbase
  have hraw := compiles_of_ok T.filters_eq
  have hslots : filterSlots (T.sources.base ++ T.raw ++ T.sources.own)
      = filterSlots T.sources.base ++ filterSlots T.raw ++ filterSlots T.sources.own := by
    have hopen : pending takesFilterValue (T.sources.base ++ T.raw) = false := by
      rw [pending_append hbase.open_, hraw.open_]
    rw [filterSlots, slots_append hopen, slots_append hbase.open_, List.filterMap_append,
      List.filterMap_append]
    rfl
  have hentries := hcompiles.reads.entries
  rw [hslots] at hentries
  have hjoined := entries_unique hentries (List.rel_append (List.rel_append
    hbase.reads.entries hraw.reads.entries) (compiles_of_ok hown).reads.entries)
  rw [hcompiles.rules, included_rules hall (no_reset_rule hcompiles.noReset)]
  cases hx : reservedPath hit x with
  | true => rw [Bool.not_true, Bool.false_and, Bool.false_and]
  | false =>
    rw [decision_joined hjoined]
    rfl

/-- **Compiling twice.**  Where the de-duplication leaves the filters as they are, the command
accepts the same paths as one compilation of all of them exactly if no path is overruled by the
order in which they come twice. -/
theorem two_passes_iff (hkept : T.FiltersKept) (hall : ∀ x, hit "**" x = true) {out : List String}
    (hone : protectedFilterArgs env (T.sources.base ++ T.raw ++ T.sources.own) = .ok out) :
    (∀ x, included hit ((effectiveRules env T.sources).filterMap parseRule) x
      = included hit ((compiledRules env (T.sources.base ++ T.raw ++ T.sources.own)).filterMap
        parseRule) x) ↔
      ∀ x, ¬ Overruled hit T.globals T.pairs T.owns x := by
  refine forall_congr' fun x => ?_
  rw [T.included_effective hkept hall, T.included_onePass hall hone]
  cases hx : reservedPath hit x with
  | true =>
    have hover : ¬ Overruled hit T.globals T.pairs T.owns x := by
      intro h
      rw [h.leftOpen.1] at hx
      cases hx
    exact iff_of_true rfl hover
  | false => exact passes_agree_iff hx

end Command

/-! ### Includes of the pair and of its arguments -/

/-- Patterns that are a star and the end of a name, and the pattern for everything. -/
def endingHit (pattern path : String) : Bool :=
  pattern = "**" || (startsWith pattern "*" && endsWith path (dropText 1 pattern))

/-- The photo pair with an include of its own, and with these arguments. -/
def includingPair (args : String) : Dict :=
  photoPair ++ [("include", .str "*.jpg"), ("rclone_args", .str args)]

def includingSources (own : List String) : ArgSources where
  base := []
  verbArgs := []
  tuningArgs := []
  pairArgs := ["--max-delete=5"]
  filters := filterPairs (reservedRules ++ ["+ *.jpg", "- **"])
  own := own
  backupDir := []

def includingCommand (own rules : List String) : PairCommand where
  cmd := ["rclone", "sync", "--cache-dir", "/cache", "--stats", "10s", "--stats-one-line"] ++
    "--max-delete=5" :: own ++ filterPairs (reservedRules ++ ["+ *.jpg", "- **"] ++ rules) ++
      ["--", "/photos", "box:photos"]
  route := ⟨"sync", "push", "sync", "/photos", "box:photos"⟩
  filterFile := none

theorem backupSection_empty : backupSection [] = .ok [] := rfl

theorem noArgs_compile : ∃ out, protectedFilterArgs photoEnv [] = .ok out :=
  ⟨filterPairs reservedRules, by decide +kernel⟩

theorem fastList_compile : ∃ out, protectedFilterArgs photoEnv ["--fast-list"] = .ok out :=
  ⟨["--fast-list"] ++ filterPairs reservedRules, by decide +kernel⟩

/-- An include in the arguments of the pair comes behind the exclude of everything else. -/
def pngPair : CompiledPair photoEnv [] (includingPair "--include=*.png") [] false :=
  have hharmless : Harmless "--include=*.png" :=
    ⟨by decide +kernel, by decide +kernel, by decide +kernel, by decide +kernel, by decide +kernel⟩
  have hown : validateRcloneArgs (.str "--include=*.png") false = .ok ["--include=*.png"] :=
    validate_token (by decide +kernel) (by decide +kernel) (by decide +kernel) hharmless false
  have hsources : argSources photoEnv [] [] (includingPair "--include=*.png")
      (includingCommand [] ["+ *.png"]).route [] = .ok (includingSources ["--include=*.png"]) :=
    argSources_of_parts (validate_noArgs _) (by decide +kernel) hown
      (by decide +kernel) (by decide +kernel) (by decide +kernel) (by decide +kernel)
  have hkept : dedupeSingleValueRcloneArgs (includingSources ["--include=*.png"]).vector
      = (includingSources ["--include=*.png"]).vector := by
    decide +kernel
  have hrewritten : rewrittenArgs photoEnv [] "sync" (includingSources ["--include=*.png"]).vector
      = .ok ("--max-delete=5" :: filterPairs (reservedRules ++ ["+ *.jpg", "- **"] ++ ["+ *.png"]),
        none) :=
    rewrittenArgs_of_parts (by decide) hkept (by decide +kernel)
  { command := includingCommand [] ["+ *.png"]
    backup := []
    sources := includingSources ["--include=*.png"]
    raw := ["--include", "*.jpg"]
    built := buildPairCommand_of_sources (by decide +kernel) backupSection_empty rfl
      (by decide +kernel) hsources hrewritten (by decide +kernel)
    backup_eq := backupSection_empty
    sources_eq := hsources
    raw_eq := by decide +kernel
    base_compiles := noArgs_compile
    own_compiles := ⟨filterPairs (reservedRules ++ ["+ *.png", "- **"]), by decide +kernel⟩ }

/-- Without filters in its arguments the pair's own filters are all there is. -/
def jpgPair : CompiledPair photoEnv [] (includingPair "--fast-list") [] false :=
  have hsources : argSources photoEnv [] [] (includingPair "--fast-list")
      (includingCommand ["--fast-list"] []).route [] = .ok (includingSources ["--fast-list"]) :=
    argSources_of_parts (validate_noArgs _) (by decide +kernel) (validate_fastList _)
      (by decide +kernel) (by decide +kernel) (by decide +kernel) (by decide +kernel)
  have hkept : dedupeSingleValueRcloneArgs (includingSources ["--fast-list"]).vector
      = (includingSources ["--fast-list"]).vector := by
    decide +kernel
  have hrewritten : rewrittenArgs photoEnv [] "sync" (includingSources ["--fast-list"]).vector
      = .ok (["--max-delete=5", "--fast-list"] ++
        filterPairs (reservedRules ++ ["+ *.jpg", "- **"]), none) :=
    rewrittenArgs_of_parts (by decide) hkept (by decide +kernel)
  { command := includingCommand ["--fast-list"] []
    backup := []
    sources := includingSources ["--fast-list"]
    raw := ["--include", "*.jpg"]
    built := buildPairCommand_of_sources (by decide +kernel) backupSection_empty rfl
      (by decide +kernel) hsources hrewritten (by decide +kernel)
    backup_eq := backupSection_empty
    sources_eq := hsources
    raw_eq := by decide +kernel
    base_compiles := noArgs_compile
    own_compiles := fastList_compile }

theorem png_effective : included endingHit
    ((effectiveRules photoEnv pngPair.sources).filterMap parseRule) "cat.png" = false := by
  decide +kernel

theorem png_onePass : included endingHit ((compiledRules photoEnv (pngPair.sources.base ++
    pngPair.raw ++ pngPair.sources.own)).filterMap parseRule) "cat.png" = true := by
  decide +kernel

/-- A file that an include matches, and no exclude or filter, is left out of the backup. -/
theorem png_left_out :
    included endingHit ((effectiveRules photoEnv pngPair.sources).filterMap parseRule) "cat.png"
      = false ∧
    included endingHit ((compiledRules photoEnv (pngPair.sources.base ++ pngPair.raw ++
      pngPair.sources.own)).filterMap parseRule) "cat.png" = true :=
  ⟨png_effective, png_onePass⟩

theorem endingHit_all (x : String) : endingHit "**" x = true := rfl

theorem jpgPair_kept : jpgPair.FiltersKept := by
  unfold CompiledPair.FiltersKept
  decide +kernel

theorem two_passes_jpg : jpgPair.command.route.verb = "sync" ∧ ∀ x,
    included endingHit ((effectiveRules photoEnv jpgPair.sources).filterMap parseRule) x
      = included endingHit ((compiledRules photoEnv (jpgPair.sources.base ++ jpgPair.raw ++
        jpgPair.sources.own)).filterMap parseRule) x := by
  have hone : protectedFilterArgs photoEnv
      (jpgPair.sources.base ++ jpgPair.raw ++ jpgPair.sources.own)
        = .ok (["--fast-list"] ++ filterPairs (reservedRules ++ ["+ *.jpg", "- **"])) := by
    decide +kernel
  have hglobals : jpgPair.globals = ⟨[], []⟩ := by decide +kernel
  have howns : jpgPair.owns = ⟨["--fast-list"], []⟩ := by decide +kernel
  refine ⟨rfl, (two_passes_iff jpgPair jpgPair_kept endingHit_all hone).mpr ?_⟩
  intro x h
  rw [hglobals, howns] at h
  cases h with
  | globalFilter _ _ hfilter => cases hfilter
  | argumentFilter _ _ _ hfilter => cases hfilter
  | argumentFile _ _ _ _ _ hbehind => cases hbehind
  | argumentInclude _ _ _ _ _ hinclude => cases hinclude

end RcloneSync
