/-
RcloneSync/FilterDecision.lean

What a compiled list of filter rules decides, read group by group.  Duplicates do not matter,
the excludes of a vector decide before its filters and these before its includes, and with an
include in the vector the rest is excluded:

    reserved, excludes, filters, filters from files, includes, everything else

`Reading.decision` is this order.  A compiled vector inside another one is one long group of
filters there (`decision_within`).
-/
import RcloneSync.FilterCompile

namespace RcloneSync

open Py ArgScan FirstMatch

variable {env : PairEnv} {χ : Type*} {hit : String → χ → Bool} {x : χ}

/-! ### Lines -/

/-- What the first matching line of a list decides. -/
def decided (hit : String → χ → Bool) (lines : List String) (x : χ) : Option Bool :=
  verdict hit (lines.filterMap parseRule) x

theorem decided_append (a b : List String) :
    decided hit (a ++ b) x = (decided hit a x).or (decided hit b x) := by
  rw [decided, List.filterMap_append, verdict_append]
  rfl

theorem decided_cons (line : String) (lines : List String) :
    decided hit (line :: lines) x = (decided hit [line] x).or (decided hit lines x) :=
  decided_append [line] lines

theorem parseRule_exclude (value : String) : parseRule ("- " ++ value) = some (.excl value) := by
  have hne : "- " ++ value ≠ "!" := by
    intro heq
    simpa using congrArg String.toList heq
  have hstart : startsWith ("- " ++ value) "- " = true := by
    simp [startsWith, List.isPrefixOf]
  have hdrop : dropText 2 ("- " ++ value) = value := by
    simp [dropText]
  rw [parseRule, if_neg hne, if_pos hstart, hdrop]

theorem parseRule_include (value : String) : parseRule ("+ " ++ value) = some (.incl value) := by
  have hne : "+ " ++ value ≠ "!" := by
    intro heq
    simpa using congrArg String.toList heq
  have hother : ¬ startsWith ("+ " ++ value) "- " = true := by
    simp [startsWith, List.isPrefixOf]
  have hstart : startsWith ("+ " ++ value) "+ " = true := by
    simp [startsWith, List.isPrefixOf]
  have hdrop : dropText 2 ("+ " ++ value) = value := by
    simp [dropText]
  rw [parseRule, if_neg hne, if_neg hother, if_pos hstart, hdrop]

theorem decided_excludes (values : List String) :
    decided hit (values.map ("- " ++ ·)) x
      = if values.any (hit · x) then some false else none := by
  rw [← verdict_excl, decided, List.filterMap_map]
  congr 1
  rw [← List.filterMap_eq_map]
  exact List.filterMap_congr fun v _ => parseRule_exclude v

theorem decided_includes (values : List String) :
    decided hit (values.map ("+ " ++ ·)) x
      = if values.any (hit · x) then some true else none := by
  rw [← verdict_incl, decided, List.filterMap_map]
  congr 1
  rw [← List.filterMap_eq_map]
  exact List.filterMap_congr fun v _ => parseRule_include v

/-- The second line of a kind decides nothing. -/
theorem decided_filter_ne {line : String} (h : decided hit [line] x = none) (lines : List String) :
    decided hit (lines.filter (· ≠ line)) x = decided hit lines x := by
  induction lines with
  | nil => rfl
  | cons l lines ih =>
    by_cases hl : l = line
    · subst hl
      rw [List.filter_cons_of_neg (by simp), ih, decided_cons l lines, h]
      rfl
    · rw [List.filter_cons_of_pos (by simpa using hl), decided_cons l (lines.filter _), ih,
        decided_cons l lines]

theorem decided_firstOccurrences (lines : List String) :
    decided hit (firstOccurrences lines) x = decided hit lines x := by
  induction lines with
  | nil => rfl
  | cons l lines ih =>
    rw [firstOccurrences, decided_cons l (List.filter _ _), decided_cons l lines]
    cases hl : decided hit [l] x with
    | some b => rfl
    | none => rw [decided_filter_ne hl, ih]

/-! ### The groups of a vector -/

def FilterRead.excludes (r : FilterRead) : List String := r.group .exclude ++ r.group .excludeFrom

def FilterRead.includes (r : FilterRead) : List String := r.group .include ++ r.group .includeFrom

def FilterRead.excludesPath (hit : String → χ → Bool) (r : FilterRead) (x : χ) : Bool :=
  r.excludes.any (hit · x)

def FilterRead.includesPath (hit : String → χ → Bool) (r : FilterRead) (x : χ) : Bool :=
  r.includes.any (hit · x)

/-- The includes, and the exclude of everything else that comes with them. -/
def FilterRead.closing (hit : String → χ → Bool) (r : FilterRead) (x : χ) : Option Bool :=
  if r.includesPath hit x then some true
  else if r.includes ≠ [] then some false
  else none

/-- What the filters of a vector decide, group by group. -/
def FilterRead.decision (hit : String → χ → Bool) (r : FilterRead) (x : χ) : Option Bool :=
  if r.excludesPath hit x then some false
  else (decided hit (r.group .filter) x).or
    ((decided hit (r.group .filterFrom) x).or (r.closing hit x))

/-- The reserved excludes match a path. -/
def reservedPath (hit : String → χ → Bool) (x : χ) : Bool :=
  (reservedSubtrees.map reservedPattern).any (hit · x)

theorem decided_reservedRules :
    decided hit reservedRules x = if reservedPath hit x then some false else none := by
  rw [decided, parseRule_reserved, verdict_excl]
  rfl

theorem decided_userRules (hall : ∀ x, hit "**" x = true) (r : FilterRead) :
    decided hit r.userRules x = r.decision hit x := by
  have hrest : decided hit (if r.group .include ≠ [] ∨ r.group .includeFrom ≠ [] then ["- **"]
      else []) x = if r.includes ≠ [] then some false else none := by
    have hiff : (r.group .include ≠ [] ∨ r.group .includeFrom ≠ []) ↔ r.includes ≠ [] := by
      simp only [FilterRead.includes, ne_eq, List.append_eq_nil_iff, not_and_or]
    by_cases h : r.includes ≠ []
    · rw [if_pos (hiff.mpr h), if_pos h]
      have hrule : decided hit (["**"].map ("- " ++ ·)) x = some false := by
        rw [decided_excludes, List.any_cons, hall x]
        rfl
      exact hrule
    · rw [if_neg (fun h' => h (hiff.mp h')), if_neg h]
      rfl
  unfold FilterRead.userRules
  rw [decided_append, decided_append, decided_append, decided_append, decided_excludes,
    decided_includes, hrest]
  unfold FilterRead.decision FilterRead.closing FilterRead.excludesPath FilterRead.includesPath
    FilterRead.excludes
  rw [← FilterRead.includes]
  split_ifs
  all_goals simp

/-- The decision of the compiled rules. -/
theorem decided_rules (hall : ∀ x, hit "**" x = true) (r : FilterRead) :
    decided hit r.rules x = if reservedPath hit x then some false else r.decision hit x := by
  rw [FilterRead.rules, decided_firstOccurrences, decided_append, decided_reservedRules,
    decided_userRules hall]
  split_ifs
  · rfl
  · rfl

theorem included_rules (hall : ∀ x, hit "**" x = true) {r : FilterRead} (hreset : "!" ∉ r.rules) :
    included hit (r.rules.filterMap parseRule) x
      = (!reservedPath hit x && (r.decision hit x).getD true) := by
  have hno : Rule.reset ∉ r.rules.filterMap parseRule := by
    intro h
    obtain ⟨line, hline, hparse⟩ := List.mem_filterMap.mp h
    exact hreset (parseRule_reset hparse ▸ hline)
  rw [included, activeRules_of_no_reset hno, ← decided, decided_rules hall]
  cases reservedPath hit x with
  | true => rfl
  | false => rfl

/-! ### Vectors that are joined -/

section Joined

variable {r a b c : FilterRead}

theorem group_joined (h : r.entries = a.entries ++ b.entries ++ c.entries) (g : FilterGroup) :
    r.group g = a.group g ++ b.group g ++ c.group g := by
  simp [FilterRead.group, h]

theorem excludesPath_joined (h : r.entries = a.entries ++ b.entries ++ c.entries) :
    r.excludesPath hit x = (a.excludesPath hit x || b.excludesPath hit x || c.excludesPath hit x) := by
  simp only [FilterRead.excludesPath, FilterRead.excludes, group_joined h, List.any_append]
  ac_rfl

theorem includesPath_joined (h : r.entries = a.entries ++ b.entries ++ c.entries) :
    r.includesPath hit x = (a.includesPath hit x || b.includesPath hit x || c.includesPath hit x) := by
  simp only [FilterRead.includesPath, FilterRead.includes, group_joined h, List.any_append]
  ac_rfl

theorem includes_joined (h : r.entries = a.entries ++ b.entries ++ c.entries) :
    r.includes = [] ↔ a.includes = [] ∧ b.includes = [] ∧ c.includes = [] := by
  simp only [FilterRead.includes, group_joined h, List.append_eq_nil_iff]
  tauto

theorem decided_joined (h : r.entries = a.entries ++ b.entries ++ c.entries) (g : FilterGroup) :
    decided hit (r.group g) x
      = (decided hit (a.group g) x).or ((decided hit (b.group g) x).or (decided hit (c.group g) x)) := by
  rw [group_joined h, decided_append, decided_append, Option.or_assoc]

/-- The closing of joined vectors. -/
theorem closing_joined (h : r.entries = a.entries ++ b.entries ++ c.entries) :
    r.closing hit x
      = if a.includesPath hit x || b.includesPath hit x || c.includesPath hit x then some true
        else if a.includes ≠ [] ∨ b.includes ≠ [] ∨ c.includes ≠ [] then some false
        else none := by
  have hiff : r.includes ≠ [] ↔ a.includes ≠ [] ∨ b.includes ≠ [] ∨ c.includes ≠ [] := by
    rw [ne_eq, includes_joined h]
    tauto
  unfold FilterRead.closing
  rw [includesPath_joined h]
  simp only [hiff]

end Joined

/-- A compiled vector inside another one: all its rules are filters. -/
def FilterRead.compiled (r : FilterRead) : FilterRead :=
  ⟨[], r.rules.map fun rule => (FilterGroup.filter, [rule])⟩

section Compiled

variable {r a b c : FilterRead}

theorem group_compiled (r : FilterRead) (g : FilterGroup) :
    r.compiled.group g = if g = .filter then r.rules else [] :=
  group_filters r.rules g

theorem compiled_silent (r : FilterRead) :
    r.compiled.excludesPath hit x = false ∧ r.compiled.includesPath hit x = false ∧
      r.compiled.includes = [] := by
  simp [FilterRead.excludesPath, FilterRead.includesPath, FilterRead.excludes, FilterRead.includes,
    group_compiled]

/-- The decision of a vector with a compiled one in the middle. -/
theorem decision_within (hall : ∀ x, hit "**" x = true)
    (h : r.entries = a.entries ++ b.compiled.entries ++ c.entries) (hx : reservedPath hit x = false) :
    r.decision hit x
      = if a.excludesPath hit x || c.excludesPath hit x then some false
        else (decided hit (a.group .filter) x).or ((b.decision hit x).or
          ((decided hit (c.group .filter) x).or
            (((decided hit (a.group .filterFrom) x).or (decided hit (c.group .filterFrom) x)).or
              (if a.includesPath hit x || c.includesPath hit x then some true
                else if a.includes ≠ [] ∨ c.includes ≠ [] then some false
                else none)))) := by
  obtain ⟨hexcludes, hincludes, hnone⟩ : b.compiled.excludesPath hit x = false ∧
      b.compiled.includesPath hit x = false ∧ b.compiled.includes = [] := compiled_silent b
  have hrules : decided hit (b.compiled.group .filter) x = b.decision hit x := by
    rw [group_compiled, if_pos rfl, decided_rules hall, if_neg (by simp [hx])]
  have hfiles : decided hit (b.compiled.group .filterFrom) x = none := by
    rw [group_compiled]
    rfl
  unfold FilterRead.decision
  rw [excludesPath_joined h, decided_joined h, decided_joined h, closing_joined h, hexcludes,
    hincludes, hnone, hrules, hfiles]
  simp only [Bool.or_false, ne_eq, not_true_eq_false, false_or, Option.none_or, Option.or_assoc]
  rfl

/-- The decision of three vectors that are read at once. -/
theorem decision_joined (h : r.entries = a.entries ++ b.entries ++ c.entries) :
    r.decision hit x
      = if a.excludesPath hit x || b.excludesPath hit x || c.excludesPath hit x then some false
        else (decided hit (a.group .filter) x).or ((decided hit (b.group .filter) x).or
          ((decided hit (c.group .filter) x).or ((decided hit (a.group .filterFrom) x).or
            ((decided hit (b.group .filterFrom) x).or ((decided hit (c.group .filterFrom) x).or
              (if a.includesPath hit x || b.includesPath hit x || c.includesPath hit x then some true
                else if a.includes ≠ [] ∨ b.includes ≠ [] ∨ c.includes ≠ [] then some false
                else none)))))) := by
  unfold FilterRead.decision
  rw [excludesPath_joined h, decided_joined h, decided_joined h, closing_joined h]
  simp only [Option.or_assoc]

end Compiled

/-! ### Reading -/

/-- What the two passes read from a vector that compiles. -/
def filterRead (env : PairEnv) (args : List String) : FilterRead :=
  match normalizeFilterAliases args with
  | .error _ => ⟨[], []⟩
  | .ok normalized =>
    match readFilters env normalized with
    | .error _ => ⟨[], []⟩
    | .ok r => r

/-- A vector that compiles. -/
structure Compiles (env : PairEnv) (args : List String) : Prop where
  reads : ReadsSlots env args (filterRead env args)
  noReset : "!" ∉ (filterRead env args).group .filter ++ (filterRead env args).group .filterFrom
  rules : compiledRules env args = (filterRead env args).rules
  open_ : pending takesFilterValue args = false

/-- Behind a token in flag position that takes no separate value the reading goes on. -/
theorem readFilters_tail {token token' : String} {out : List String} {r : FilterRead}
    (htakes : takesFilterValue token = false) (htoken : aliasToken token = .ok token')
    (hr : readFilters env (token' :: out) = .ok r) : ∃ r', readFilters env out = .ok r' := by
  cases hrefused : refusedToken token' with
  | some e =>
    rw [readFilters_refused hrefused] at hr
    cases hr
  | none =>
    cases hg : filterGroup (flagOf token') with
    | none =>
      rw [readFilters_plain hrefused hg] at hr
      cases hr' : readFilters env out with
      | error e =>
        rw [hr'] at hr
        cases hr
      | ok r' => exact ⟨r', rfl⟩
    | some group =>
      have heq : hasEq token' = true := by
        rcases aliasToken_ok htoken with ⟨rfl, -, -⟩ | ⟨value, rfl, -⟩
        · by_contra hno
          rw [flagOf_of_not_hasEq (by simpa using hno)] at hg
          rw [takes_of_filterGroup hg] at htakes
          cases htakes
        · exact hasEq_filter value
      obtain ⟨value, hvalue⟩ := afterSep_of_hasEq heq
      obtain ⟨-, r', -, hr', -⟩ := readFilters_inline hrefused hg heq hvalue hr
      exact ⟨r', hr'⟩

/-- A flag that waits for its value is refused. -/
theorem not_pending_of_readFilters {args normalized : List String} {r : FilterRead}
    (hn : normalizeFilterAliases args = .ok normalized) (hr : readFilters env normalized = .ok r) :
    pending takesFilterValue args = false := by
  induction args using normalizeFilterAliases.induct generalizing normalized r with
  | case1 => rfl
  | case2 token htakes =>
    obtain rfl : [longFlag token] = normalized := by
      simpa [normalizeFilterAliases, htakes, longFlag] using hn
    rcases longFlag_cases htakes with ⟨e, he⟩ | ⟨hrefused, heq, group, hg, -⟩
    · rw [readFilters_refused he] at hr
      cases hr
    · rw [readFilters_missing hrefused hg heq] at hr
      cases hr
  | case3 token htakes value rest ih =>
    rw [pending_cons_valued htakes]
    rcases hrest : normalizeFilterAliases rest with e | out
    · simp [normalizeFilterAliases, htakes, hrest, Except.map] at hn
    · obtain rfl : longFlag token :: value :: out = normalized := by
        simpa [normalizeFilterAliases, htakes, hrest, Except.map, longFlag] using hn
      rcases longFlag_cases htakes with ⟨e, he⟩ | ⟨hrefused, heq, group, hg, -⟩
      · rw [readFilters_refused he] at hr
        cases hr
      · obtain ⟨-, r', -, hr', -⟩ := readFilters_pair hrefused hg heq hr
        exact ih hrest hr'
  | case4 token rest htakes e he =>
    simp [normalizeFilterAliases, htakes, he] at hn
  | case5 token rest htakes token' htoken ih =>
    have htakes' : takesFilterValue token = false := by simpa using htakes
    rw [pending_cons_alone htakes']
    rcases hrest : normalizeFilterAliases rest with e | out
    · simp [normalizeFilterAliases, htakes, htoken, hrest, Except.map] at hn
    · obtain rfl : token' :: out = normalized := by
        simpa [normalizeFilterAliases, htakes, htoken, hrest, Except.map] using hn
      obtain ⟨r', hr'⟩ := readFilters_tail htakes' htoken hr
      exact ih hrest hr'

theorem compiles_of_ok {args out : List String} (h : protectedFilterArgs env args = .ok out) :
    Compiles env args := by
  unfold protectedFilterArgs at h
  cases hn : normalizeFilterAliases args with
  | error e =>
    rw [hn] at h
    cases h
  | ok normalized =>
    cases hr : readFilters env normalized with
    | error e =>
      simp only [hn, hr] at h
      cases h
    | ok r =>
      simp only [hn, hr] at h
      split_ifs at h with hreset
      have hread : filterRead env args = r := by simp [filterRead, hn, hr]
      have hrules : compiledRules env args = r.rules := by simp [compiledRules, hn, hr]
      rw [← hread] at hreset hrules
      exact ⟨hread ▸ readFilters_slots hn hr, hreset, hrules, not_pending_of_readFilters hn hr⟩

/-- The values of a filter are determined, so is what is read from a vector. -/
theorem entries_unique {slots : List (FilterGroup × String)} {es es' : List (FilterGroup × List String)}
    (h : List.Forall₂ (fun f e => e.1 = f.1 ∧ filterValues env f.1 f.2 = .ok e.2) slots es)
    (h' : List.Forall₂ (fun f e => e.1 = f.1 ∧ filterValues env f.1 f.2 = .ok e.2) slots es') :
    es = es' := by
  induction h generalizing es' with
  | nil =>
    cases h'
    rfl
  | cons hfe _ ih =>
    cases h' with
    | cons hfe' hrest =>
      rw [ih hrest, Prod.ext (hfe.1.trans hfe'.1.symm) (Except.ok.inj (hfe.2.symm.trans hfe'.2))]

/-! ### The filters of a pair -/

/-- The rules of nonblank values are stripped. -/
theorem ReadsSlots.stripped {args : List String} {r : FilterRead} (hr : ReadsSlots env args r)
    (hvalues : NonblankFilters args) : ∀ rule ∈ r.rules, strip rule = rule := by
  have hline : ∀ e ∈ r.entries, ∀ line ∈ e.2, strip line = line ∧ line ≠ "" := by
    intro e he line hline
    obtain ⟨f, hf, -, hread⟩ := exists_left_of_forall₂ hr.entries he
    unfold filterValues at hread
    split_ifs at hread with hfile
    · split at hread
      · cases hread
      · split_ifs at hread
        split at hread
        · cases hread
        · obtain hread := Except.ok.inj hread
          obtain ⟨hclean, hne⟩ := cleanLine_of_ruleLines (hread ▸ hline)
          exact ⟨hclean.stripped, hne⟩
    · obtain hread := Except.ok.inj hread
      obtain rfl := List.mem_singleton.mp (hread ▸ hline)
      exact ⟨strip_idem _, hvalues f hf⟩
  intro rule hrule
  rcases mem_rules.mp hrule with hrule | hrule
  · have hreserved : ∀ rule ∈ reservedRules, strip rule = rule := by decide
    exact hreserved rule hrule
  · rcases userRules_cases hrule with rfl | hfilter | ⟨e, he, v, hv, hsigned⟩
    · decide
    · have hgroup : ∃ e ∈ r.entries, rule ∈ e.2 := by
        rcases List.mem_append.mp hfilter with h | h <;>
        · obtain ⟨e, he, hve⟩ := List.mem_flatMap.mp h
          exact ⟨e, (List.mem_filter.mp he).1, hve⟩
      obtain ⟨e, he, hmem⟩ := hgroup
      exact (hline e he rule hmem).1
    · obtain ⟨hstripped, hne⟩ := hline e he v hv
      rcases hsigned with rfl | rfl
      · exact strip_append (c := '-') rfl (by decide) hstripped hne
      · exact strip_append (c := '+') rfl (by decide) hstripped hne

/-- Flags with a nonblank value each. -/
def FlagValues (args : List String) : Prop :=
  ∃ ps : List (String × String), args = ps.flatMap (fun p => [p.1, p.2]) ∧
    ∀ p ∈ ps, takesFilterValue p.1 = true ∧ strip p.2 ≠ ""

theorem FlagValues.nil : FlagValues [] := ⟨[], rfl, by simp⟩

theorem FlagValues.pair {flag value : String} (hflag : takesFilterValue flag = true)
    (hvalue : strip value ≠ "") : FlagValues [flag, value] := by
  refine ⟨[(flag, value)], rfl, ?_⟩
  intro p hp
  obtain rfl := List.mem_singleton.mp hp
  exact ⟨hflag, hvalue⟩

theorem FlagValues.append {xs ys : List String} (hx : FlagValues xs) (hy : FlagValues ys) :
    FlagValues (xs ++ ys) := by
  obtain ⟨ps, rfl, hp⟩ := hx
  obtain ⟨qs, rfl, hq⟩ := hy
  refine ⟨ps ++ qs, by rw [List.flatMap_append], ?_⟩
  intro p h
  exact (List.mem_append.mp h).elim (hp p) (hq p)

theorem FlagValues.ofLines {flag : String} (hflag : takesFilterValue flag = true)
    {lines : List String} (value : String → String) (h : ∀ l ∈ lines, strip (value l) ≠ "") :
    FlagValues (lines.flatMap fun l => [flag, value l]) := by
  refine ⟨lines.map fun l => (flag, value l), ?_, ?_⟩
  · rw [List.flatMap_map]
  · intro p hp
    obtain ⟨l, hl, rfl⟩ := List.mem_map.mp hp
    exact ⟨hflag, h l hl⟩

theorem FlagValues.slots {args : List String} (h : FlagValues args) :
    ∃ ps : List (String × String), slots takesFilterValue args = ps.map (fun p => .valued p.1 p.2) ∧
      ∀ p ∈ ps, takesFilterValue p.1 = true ∧ strip p.2 ≠ "" := by
  obtain ⟨ps, rfl, hp⟩ := h
  refine ⟨ps, ?_, hp⟩
  induction ps with
  | nil => rfl
  | cons p ps ih =>
    have hcons : (p :: ps).flatMap (fun p => [p.1, p.2])
        = p.1 :: p.2 :: ps.flatMap fun p => [p.1, p.2] := rfl
    rw [hcons, slots_cons_valued (hp p List.mem_cons_self).1,
      ih fun q hq => hp q (List.mem_cons_of_mem _ hq)]
    rfl

theorem FlagValues.nonblank {args : List String} (h : FlagValues args) : NonblankFilters args := by
  obtain ⟨ps, hslots, hp⟩ := h.slots
  intro f hf
  unfold filterSlots at hf
  rw [hslots] at hf
  obtain ⟨slot, hslot, hread⟩ := List.mem_filterMap.mp hf
  obtain ⟨p, hmem, rfl⟩ := List.mem_map.mp hslot
  obtain ⟨group, -, rfl⟩ := Option.map_eq_some_iff.mp hread
  exact (hp p hmem).2

/-- The lines of a setting are stripped and not blank. -/
theorem splitSettingLines_line {v : Value} {line : String} (h : line ∈ splitSettingLines v) :
    strip line = line ∧ line ≠ "" := by
  unfold splitSettingLines at h
  split_ifs at h
  · obtain ⟨hmem, hrule⟩ := List.mem_filter.mp h
    obtain ⟨raw, -, rfl⟩ := List.mem_map.mp hmem
    refine ⟨strip_idem raw, ?_⟩
    simp only [Bool.and_eq_true, decide_eq_true_eq] at hrule
    exact hrule.1
  · cases h

theorem all_space_of_stripChars {cs : List Char} (h : stripChars cs = []) :
    ∀ c ∈ cs, isSpace c = true := by
  have hall := List.rdropWhile_eq_nil_iff.mp h
  cases hdrop : cs.dropWhile isSpace with
  | nil => exact List.dropWhile_eq_nil_iff.mp hdrop
  | cons d ds =>
    have hhead : isSpace d = false := by
      have hnot := List.head_dropWhile_not isSpace (l := cs) (by simp [hdrop])
      simpa [hdrop] using hnot
    rw [hall d (hdrop ▸ List.mem_cons_self)] at hhead
    cases hhead

/-- What is left of a line behind its sign is not blank. -/
theorem strip_patternText {sign line : String} {c : Char} (hsign : sign.toList = [c, ' '])
    (hline : strip line = line ∧ line ≠ "") : strip (patternText sign line) ≠ "" := by
  unfold patternText
  split_ifs with hstart
  · rw [strip_idem]
    intro hblank
    obtain ⟨ds, hds⟩ : ∃ ds, line.toList = c :: ' ' :: ds := by
      obtain ⟨ds, hds⟩ := List.isPrefixOf_iff_prefix.mp hstart
      rw [hsign] at hds
      exact ⟨ds, hds.symm⟩
    have hrest : ∀ d ∈ ds, isSpace d = true := by
      refine all_space_of_stripChars ?_
      have htext : (strip (dropText 2 line)).toList = stripChars ds := by
        rw [strip_toList, dropText, hds, String.toList_ofList]
        rfl
      rw [← htext, hblank]
      rfl
    -- the last character of a stripped line is visible
    have hne : line.toList ≠ [] := by
      rw [hds]
      exact List.cons_ne_nil _ _
    have hstripped : stripChars line.toList = line.toList := by
      rw [← strip_toList, hline.1]
    have hlast := (stripChars_eq_self_iff.mp hstripped hne).2
    have hmem : line.toList.getLast hne ∈ ' ' :: ds := by
      have hcons : line.toList.getLast hne = (' ' :: ds).getLast (List.cons_ne_nil _ _) := by
        simp only [hds]
        exact List.getLast_cons (List.cons_ne_nil _ _)
      rw [hcons]
      exact List.getLast_mem _
    rcases List.mem_cons.mp hmem with hspace | hmem
    · rw [hspace] at hlast
      exact absurd hlast (by decide)
    · rw [hrest _ hmem] at hlast
      cases hlast
  · rw [hline.1]
    exact hline.2

theorem flagValues_file {pair : Dict} {key flag : String} {args : List String}
    (hflag : takesFilterValue flag = true) (h : filterFileArg env pair key flag = .ok args) :
    FlagValues args := by
  unfold filterFileArg at h
  dsimp only at h
  split_ifs at h with hblank hmissing
  · obtain rfl := Except.ok.inj h
    exact FlagValues.nil
  · obtain rfl := Except.ok.inj h
    exact FlagValues.pair hflag (by rw [strip_idem]; exact hblank)

/-- The filters of a pair in front of its filter file. -/
theorem flagValues_front {pair : Dict} {includeFile excludeFile : List String}
    (hinclude : filterFileArg env pair "include_file" "--include-from" = .ok includeFile)
    (hexclude : filterFileArg env pair "exclude_file" "--exclude-from" = .ok excludeFile) :
    FlagValues
      ((splitSettingLines (pair.get "include")).flatMap (fun p => ["--include", patternText "+ " p]) ++
      (splitSettingLines (pair.get "exclude")).flatMap (fun p => ["--exclude", patternText "- " p]) ++
      (splitSettingLines (pair.get "filter")).flatMap (fun rule => ["--filter", rule]) ++
      includeFile ++ excludeFile) := by
  refine (((FlagValues.append ?_ ?_).append ?_).append ?_).append ?_
  · exact FlagValues.ofLines (by decide) (patternText "+ ") fun l hl =>
      strip_patternText (c := '+') rfl (splitSettingLines_line hl)
  · exact FlagValues.ofLines (by decide) (patternText "- ") fun l hl =>
      strip_patternText (c := '-') rfl (splitSettingLines_line hl)
  · refine FlagValues.ofLines (by decide) (fun l => l) fun l hl => ?_
    obtain ⟨hstripped, hne⟩ := splitSettingLines_line hl
    rw [hstripped]
    exact hne
  · exact flagValues_file (by decide) hinclude
  · exact flagValues_file (by decide) hexclude

theorem flagValues_raw {cfg pair : Dict} {verb : String} {raw : List String}
    (h : rawFilterArgs env cfg pair verb = .ok raw) : FlagValues raw := by
  unfold rawFilterArgs at h
  dsimp only at h
  obtain ⟨includeFile, hinclude, h⟩ := bind_ok.mp h
  obtain ⟨excludeFile, hexclude, h⟩ := bind_ok.mp h
  have hfront := flagValues_front hinclude hexclude
  split_ifs at h with hblank hmissing hverb
  · obtain ⟨filterFile, hfile, h⟩ := bind_ok.mp h
    obtain rfl := Except.ok.inj hfile
    obtain rfl := Except.ok.inj h
    exact hfront.append FlagValues.nil
  · obtain ⟨filterFile, hfile, -⟩ := bind_ok.mp h
    cases hfile
  all_goals
    obtain ⟨filterFile, hfile, h⟩ := bind_ok.mp h
    obtain rfl := Except.ok.inj hfile
    obtain rfl := Except.ok.inj h
    exact hfront.append (FlagValues.pair (by decide) (by rw [strip_idem]; exact hblank))

/-- A compiled vector is read as its rules. -/
theorem entries_compiled {raw out : List String} (hraw : FlagValues raw)
    (h : protectedFilterArgs env raw = .ok out) :
    List.Forall₂ (fun f e => e.1 = f.1 ∧ filterValues env f.1 f.2 = .ok e.2)
      (filterSlots out) (filterRead env raw).compiled.entries := by
  have hcompiles := compiles_of_ok h
  obtain ⟨hout, hplain, -⟩ := protectedFilterArgs_shape h
  have hstripped := hcompiles.reads.stripped hraw.nonblank
  rw [hcompiles.rules] at hout
  have hn : normalizeFilterAliases out = .ok out := by
    rw [hout, normalizeFilterAliases_plain hplain, normalizeFilterAliases_filterPairs]
    rfl
  have hr : readFilters env out = .ok ⟨otherTokens raw, (filterRead env raw).compiled.entries⟩ := by
    rw [hout, readFilters_plains hplain, readFilters_filterPairs hstripped]
    simp only [Except.map, List.append_nil]
    rfl
  exact (readFilters_slots hn hr).entries

end RcloneSync
