/-
RcloneSync/FilterCompile.lean

What the filter compilation `protectedFilterArgs` computes.  The source walks over
the tokens twice, once to expand the short filter flags and once to collect the
filter groups.  Here the same vector is read once, as slots: a token in flag position
either names a filter (`slotFilter`) or is kept,

    compiled args  =  otherTokens args ++ filterPairs rules

and every rule comes from a filter slot or is reserved (`readFilters_slots`).

A compiled vector holds only tokens that both passes keep (`PlainToken`) and pairs
`--filter rule`, so compiling it again changes nothing.  The reserved excludes stand
in front of the rules; under first-match semantics nothing behind them can let a
reserved path through.
-/
import RcloneSync.ArgScan
import RcloneSync.FirstMatch
import RcloneSync.PairCommand

namespace RcloneSync

open Py ArgScan FirstMatch

variable {env : PairEnv}

/-! ### The filters of a vector -/

/-- The filter a slot names: its group and the value as it is written. -/
def slotFilter : Slot String → Option (FilterGroup × String)
  | .valued flag value => (filterGroup (if flag = "-f" then "--filter" else flag)).map (·, value)
  | .alone token =>
    if startsWith token "-f=" then some (.filter, dropText 3 token)
    else if startsWith token "-f" then some (.filter, dropText 2 token)
    else (filterGroup (flagOf token)).bind fun group => (afterSep '=' token).map (group, ·)

/-- The filters of a vector, in order. -/
def filterSlots (args : List String) : List (FilterGroup × String) :=
  (slots takesFilterValue args).filterMap slotFilter

/-- The tokens of a vector that belong to no filter, in order. -/
def otherTokens (args : List String) : List String :=
  tokensOf ((slots takesFilterValue args).filter fun s => (slotFilter s).isNone)

/-- A token that both passes of the compilation leave alone. -/
structure PlainToken (token : String) : Prop where
  noValue : takesFilterValue token = false
  copied : aliasToken token = .ok token
  refused : refusedToken token = none
  group : filterGroup (flagOf token) = none

/-! ### Flags and tokens -/

/-- A token without `=` is its own flag. -/
theorem flagOf_of_not_hasEq {token : String} (h : hasEq token = false) : flagOf token = token := by
  have hall : ∀ c ∈ token.toList, decide (c ≠ '=') = true := by
    intro c hc
    have hne : c ≠ '=' := by
      rintro rfl
      simp [hasEq, hc] at h
    simpa using hne
  rw [flagOf, beforeSep, List.takeWhile_eq_self_iff.mpr hall, String.ofList_toList]

theorem afterSep_of_hasEq {token : String} (h : hasEq token = true) :
    ∃ value, afterSep '=' token = some value := by
  rcases hd : token.toList.dropWhile (· ≠ '=') with - | ⟨c, cs⟩
  · have hno := List.dropWhile_eq_nil_iff.mp hd
    have hmem : '=' ∈ token.toList := by simpa [hasEq] using h
    simpa using hno '=' hmem
  · exact ⟨String.ofList cs, by rw [afterSep, hd]⟩

/-- A filter flag without a value in its token takes the next token. -/
theorem takes_of_filterGroup {flag : String} {group : FilterGroup}
    (h : filterGroup flag = some group) : takesFilterValue flag = true := by
  unfold filterGroup at h
  split_ifs at h with h₁ h₂ h₃ h₄ h₅ h₆
  all_goals first
    | (subst flag; decide)
    | (rcases h₆ with rfl | rfl <;> decide)

/-- The flags that take a filter value. -/
theorem takesFilterValue_iff {flag : String} :
    takesFilterValue flag = true ↔
      flag ∈ ["--include", "--include-from", "--exclude", "--exclude-from", "--filter",
        "--filter-from", "--filters-file", "--files-from", "--files-from-raw", "--files-from0",
        "-f"] := by
  simp [takesFilterValue, aliasValueFlags, or_assoc]

theorem startsWith_short {token : String} (h : startsWith token "-f" = true) :
    startsWith token "--" = false := by
  have hshort : "-f".toList = ['-', 'f'] := rfl
  have hlong : "--".toList = ['-', '-'] := rfl
  rcases ht : token.toList with - | ⟨c, - | ⟨d, cs⟩⟩
  · simp [startsWith, hlong, ht]
  · simp [startsWith, hlong, ht, List.isPrefixOf]
  · have hd : 'f' = d := by
      rw [startsWith, hshort, ht] at h
      simp only [List.isPrefixOf, Bool.and_eq_true, beq_iff_eq] at h
      exact h.2.1
    subst hd
    simp [startsWith, hlong, ht, List.isPrefixOf]

/-- The alias pass copies a token or turns a short filter into `--filter=value`. -/
theorem aliasToken_ok {token out : String} (h : aliasToken token = .ok out) :
    (out = token ∧ startsWith token "-f" = false ∧ startsWith token "-f=" = false) ∨
      ∃ value, out = "--filter=" ++ value ∧ slotFilter (.alone token) = some (.filter, value) := by
  unfold aliasToken at h
  split_ifs at h with h₁ h₂ h₃
  · exact Or.inr ⟨_, (Except.ok.inj h).symm, by simp [slotFilter, h₁]⟩
  · have hf : startsWith token "-f" = true := by simpa using (Bool.and_eq_true _ _ ▸ h₂).1
    exact Or.inr ⟨_, (Except.ok.inj h).symm, by simp [slotFilter, h₁, hf]⟩
  · refine Or.inl ⟨(Except.ok.inj h).symm, ?_, by simpa using h₁⟩
    by_contra hf
    have hf' : startsWith token "-f" = true := by simpa using hf
    exact h₂ (by simp [hf', startsWith_short hf'])

theorem flagOf_filter (value : String) : flagOf ("--filter=" ++ value) = "--filter" :=
  beforeSep_append (p := "--filter") (by decide) value

theorem afterSep_filter (value : String) : afterSep '=' ("--filter=" ++ value) = some value :=
  afterSep_append (p := "--filter") (by decide) value

theorem hasEq_filter (value : String) : hasEq ("--filter=" ++ value) = true := by
  simp [hasEq]

/-! ### Reading the compiled form of a vector -/

section Reader

variable {token value : String} {rest : List String} {group : FilterGroup}

theorem readFilters_plain (h : refusedToken token = none)
    (hg : filterGroup (flagOf token) = none) :
    readFilters env (token :: rest) = (readFilters env rest).map (FilterRead.keep token) := by
  cases rest <;> simp [readFilters, h, hg]

theorem readFilters_inline (h : refusedToken token = none)
    (hg : filterGroup (flagOf token) = some group) (heq : hasEq token = true)
    (hv : afterSep '=' token = some value) {r : FilterRead}
    (hr : readFilters env (token :: rest) = .ok r) :
    ∃ values r', filterValues env group value = .ok values ∧ readFilters env rest = .ok r' ∧
      r = r'.add group values := by
  unfold readFilters at hr
  simp only [h, hg, heq, if_true, hv, Option.getD_some] at hr
  rcases hvs : filterValues env group value with e | values
  · simp [hvs] at hr
  · rcases hrest : readFilters env rest with e | r'
    · simp [hvs, hrest, Except.map] at hr
    · exact ⟨values, r', rfl, rfl, by simpa [hvs, hrest, Except.map] using hr.symm⟩

theorem readFilters_pair (h : refusedToken token = none)
    (hg : filterGroup (flagOf token) = some group) (heq : hasEq token = false) {r : FilterRead}
    (hr : readFilters env (token :: value :: rest) = .ok r) :
    ∃ values r', filterValues env group value = .ok values ∧ readFilters env rest = .ok r' ∧
      r = r'.add group values := by
  rw [readFilters] at hr
  simp only [h, hg, heq] at hr
  rcases hvs : filterValues env group value with e | values
  · simp [hvs] at hr
  · rcases hrest : readFilters env rest with e | r'
    · simp [hvs, hrest, Except.map] at hr
    · exact ⟨values, r', rfl, rfl, by simpa [hvs, hrest, Except.map] using hr.symm⟩

theorem readFilters_refused {e : PyError} (h : refusedToken token = some e) :
    readFilters env (token :: rest) = .error e := by
  cases rest <;> simp [readFilters, h]

theorem readFilters_missing (h : refusedToken token = none)
    (hg : filterGroup (flagOf token) = some group) (heq : hasEq token = false) :
    readFilters env [token] = .error (.value ("Wert fehlt für " ++ flagOf token)) := by
  simp [readFilters, h, hg, heq]

end Reader

/-- The long form of a flag that takes a filter value. -/
def longFlag (flag : String) : String := if flag = "-f" then "--filter" else flag

/-- A flag that takes a filter value is refused or opens a group. -/
theorem longFlag_cases {flag : String} (h : takesFilterValue flag = true) :
    (∃ e, refusedToken (longFlag flag) = some e) ∨
      refusedToken (longFlag flag) = none ∧ hasEq (longFlag flag) = false ∧
        ∃ group, filterGroup (flagOf (longFlag flag)) = some group ∧
          filterGroup (longFlag flag) = some group := by
  have hcheck : ∀ f ∈ ["--include", "--include-from", "--exclude", "--exclude-from", "--filter",
      "--filter-from", "--filters-file", "--files-from", "--files-from-raw", "--files-from0",
      "-f"], (refusedToken (longFlag f)).isSome ∨ refusedToken (longFlag f) = none ∧
        hasEq (longFlag f) = false ∧ (filterGroup (flagOf (longFlag f))).isSome ∧
          filterGroup (longFlag f) = filterGroup (flagOf (longFlag f)) := by
    decide
  rcases hcheck flag (takesFilterValue_iff.mp h) with h | ⟨h₁, h₂, h₃, h₄⟩
  · exact Or.inl (Option.isSome_iff_exists.mp h)
  · obtain ⟨group, hg⟩ := Option.isSome_iff_exists.mp h₃
    exact Or.inr ⟨h₁, h₂, group, hg, h₄.trans hg⟩

/-! ### The slots behind a compilation -/

@[simp] theorem otherTokens_nil : otherTokens [] = [] := rfl

@[simp] theorem filterSlots_nil : filterSlots [] = [] := rfl

section Cons

variable {token value : String} {rest : List String} {f : FilterGroup × String}

theorem otherTokens_keep (h : takesFilterValue token = false)
    (hs : slotFilter (.alone token) = none) :
    otherTokens (token :: rest) = token :: otherTokens rest := by
  simp [otherTokens, slots_cons_alone h, hs, Slot.tokens]

theorem otherTokens_inline (h : takesFilterValue token = false)
    (hs : slotFilter (.alone token) = some f) :
    otherTokens (token :: rest) = otherTokens rest := by
  simp [otherTokens, slots_cons_alone h, hs]

theorem otherTokens_pair (h : takesFilterValue token = true)
    (hs : slotFilter (.valued token value) = some f) :
    otherTokens (token :: value :: rest) = otherTokens rest := by
  simp [otherTokens, slots_cons_valued h, hs]

theorem filterSlots_keep (h : takesFilterValue token = false)
    (hs : slotFilter (.alone token) = none) :
    filterSlots (token :: rest) = filterSlots rest := by
  simp [filterSlots, slots_cons_alone h, hs]

theorem filterSlots_inline (h : takesFilterValue token = false)
    (hs : slotFilter (.alone token) = some f) :
    filterSlots (token :: rest) = f :: filterSlots rest := by
  simp [filterSlots, slots_cons_alone h, hs]

theorem filterSlots_pair (h : takesFilterValue token = true)
    (hs : slotFilter (.valued token value) = some f) :
    filterSlots (token :: value :: rest) = f :: filterSlots rest := by
  simp [filterSlots, slots_cons_valued h, hs]

end Cons

theorem otherTokens_subset {args : List String} {t : String} (h : t ∈ otherTokens args) :
    t ∈ args := by
  obtain ⟨slot, hslot, ht⟩ := List.mem_flatMap.mp h
  have : t ∈ tokensOf (slots takesFilterValue args) :=
    List.mem_flatMap.mpr ⟨slot, (List.mem_filter.mp hslot).1, ht⟩
  simpa using this

theorem otherTokens_append {xs : List String} (h : pending takesFilterValue xs = false)
    (ys : List String) : otherTokens (xs ++ ys) = otherTokens xs ++ otherTokens ys := by
  simp [otherTokens, slots_append h]

/-- What the two passes make of the slots of a vector. -/
structure ReadsSlots (env : PairEnv) (args : List String) (r : FilterRead) : Prop where
  remainder : r.remainder = otherTokens args
  plain : ∀ t ∈ r.remainder, PlainToken t
  entries : List.Forall₂ (fun f e => e.1 = f.1 ∧ filterValues env f.1 f.2 = .ok e.2)
    (filterSlots args) r.entries

section ReadsSlots

variable {token value : String} {rest : List String} {r : FilterRead} {f : FilterGroup × String}
  {values : List String}

theorem ReadsSlots.keep (hr : ReadsSlots env rest r) (h : takesFilterValue token = false)
    (hplain : PlainToken token) (hs : slotFilter (.alone token) = none) :
    ReadsSlots env (token :: rest) (r.keep token) := by
  refine ⟨?_, ?_, ?_⟩
  · rw [otherTokens_keep h hs, ← hr.remainder]
    rfl
  · intro t ht
    rcases List.mem_cons.mp ht with rfl | ht
    · exact hplain
    · exact hr.plain t ht
  · rw [filterSlots_keep h hs]
    exact hr.entries

theorem ReadsSlots.inline (hr : ReadsSlots env rest r) (h : takesFilterValue token = false)
    (hs : slotFilter (.alone token) = some f) (hv : filterValues env f.1 f.2 = .ok values) :
    ReadsSlots env (token :: rest) (r.add f.1 values) := by
  refine ⟨?_, hr.plain, ?_⟩
  · rw [otherTokens_inline h hs]
    exact hr.remainder
  · rw [filterSlots_inline h hs]
    exact hr.entries.cons ⟨rfl, hv⟩

theorem ReadsSlots.pair (hr : ReadsSlots env rest r) (h : takesFilterValue token = true)
    (hs : slotFilter (.valued token value) = some f) (hv : filterValues env f.1 f.2 = .ok values) :
    ReadsSlots env (token :: value :: rest) (r.add f.1 values) := by
  refine ⟨?_, hr.plain, ?_⟩
  · rw [otherTokens_pair h hs]
    exact hr.remainder
  · rw [filterSlots_pair h hs]
    exact hr.entries.cons ⟨rfl, hv⟩

end ReadsSlots

/-- The loop reads the normalised vector slot by slot. -/
theorem readFilters_slots {args normalized : List String} {r : FilterRead}
    (hn : normalizeFilterAliases args = .ok normalized) (hr : readFilters env normalized = .ok r) :
    ReadsSlots env args r := by
  induction args using normalizeFilterAliases.induct generalizing normalized r with
  | case1 =>
    obtain rfl : [] = normalized := by simpa [normalizeFilterAliases] using hn
    obtain rfl : ⟨[], []⟩ = r := by simpa [readFilters] using hr
    exact ⟨rfl, by simp, by simp⟩
  | case2 token htakes =>
    -- a value is missing: the loop refuses the long flag
    obtain rfl : [longFlag token] = normalized := by
      simpa [normalizeFilterAliases, htakes, longFlag] using hn
    rcases longFlag_cases htakes with ⟨e, he⟩ | ⟨hrefused, heq, group, hg, -⟩
    · rw [readFilters_refused he] at hr
      cases hr
    · rw [readFilters_missing hrefused hg heq] at hr
      cases hr
  | case3 token htakes value rest ih =>
    rcases hrest : normalizeFilterAliases rest with e | out
    · simp [normalizeFilterAliases, htakes, hrest, Except.map] at hn
    · obtain rfl : longFlag token :: value :: out = normalized := by
        simpa [normalizeFilterAliases, htakes, hrest, Except.map, longFlag] using hn
      rcases longFlag_cases htakes with ⟨e, he⟩ | ⟨hrefused, heq, group, hg, hg'⟩
      · rw [readFilters_refused he] at hr
        cases hr
      · obtain ⟨values, r', hvalues, hr', rfl⟩ := readFilters_pair hrefused hg heq hr
        have hslot : slotFilter (.valued token value) = some (group, value) := by
          rw [slotFilter, ← longFlag, hg', Option.map_some]
        exact (ih hrest hr').pair htakes hslot hvalues
  | case4 token rest htakes e he =>
    simp [normalizeFilterAliases, htakes, he] at hn
  | case5 token rest htakes token' htoken ih =>
    have htakes' : takesFilterValue token = false := by simpa using htakes
    rcases hrest : normalizeFilterAliases rest with e | out
    · simp [normalizeFilterAliases, htakes, htoken, hrest, Except.map] at hn
    · obtain rfl : token' :: out = normalized := by
        simpa [normalizeFilterAliases, htakes, htoken, hrest, Except.map] using hn
      rcases aliasToken_ok htoken with ⟨rfl, hshort, hshort'⟩ | ⟨value, rfl, hslot⟩
      · rcases hrefused : refusedToken token' with - | e
        · rcases hg : filterGroup (flagOf token') with - | group
          · have hslot : slotFilter (.alone token') = none := by
              simp [slotFilter, hshort, hshort', hg]
            rw [readFilters_plain hrefused hg] at hr
            rcases hr' : readFilters env out with e | r'
            · simp [hr', Except.map] at hr
            · obtain rfl : r'.keep token' = r := by simpa [hr', Except.map] using hr
              exact (ih hrest hr').keep htakes' ⟨htakes', htoken, hrefused, hg⟩ hslot
          · have heq : hasEq token' = true := by
              by_contra hno
              rw [flagOf_of_not_hasEq (by simpa using hno)] at hg
              exact htakes (takes_of_filterGroup hg)
            obtain ⟨value, hvalue⟩ := afterSep_of_hasEq heq
            have hslot : slotFilter (.alone token') = some (group, value) := by
              simp [slotFilter, hshort, hshort', hg, hvalue]
            obtain ⟨values, r', hvalues, hr', rfl⟩ := readFilters_inline hrefused hg heq hvalue hr
            exact (ih hrest hr').inline htakes' hslot hvalues
        · rw [readFilters_refused hrefused] at hr
          cases hr
      · have hg : filterGroup (flagOf ("--filter=" ++ value)) = some .filter := by
          rw [flagOf_filter]
          rfl
        have hrefused : refusedToken ("--filter=" ++ value) = none := by
          simp [refusedToken, flagOf_filter]
        obtain ⟨values, r', hvalues, hr', rfl⟩ :=
          readFilters_inline hrefused hg (hasEq_filter value) (afterSep_filter value) hr
        exact (ih hrest hr').inline htakes' hslot hvalues

/-- The parts of a successful compilation. -/
theorem protectedFilterArgs_ok {args out : List String} (h : protectedFilterArgs env args = .ok out) :
    ∃ r, ReadsSlots env args r ∧ "!" ∉ r.group .filter ++ r.group .filterFrom ∧
      out = otherTokens args ++ filterPairs r.rules := by
  unfold protectedFilterArgs at h
  rcases hn : normalizeFilterAliases args with e | normalized
  · simp [hn] at h
  · rcases hr : readFilters env normalized with e | r
    · simp [hn, hr] at h
    · simp only [hn, hr] at h
      split_ifs at h with hreset
      have hslots := readFilters_slots hn hr
      refine ⟨r, hslots, hreset, ?_⟩
      rw [← hslots.remainder]
      exact (Except.ok.inj h).symm

/-! ### The compiled rules -/

theorem nodup_reservedRules : reservedRules.Nodup := by decide

/-- The reserved excludes lead. -/
theorem rules_eq (r : FilterRead) :
    r.rules = reservedRules ++ (firstOccurrences r.userRules).filter (· ∉ reservedRules) :=
  firstOccurrences_append nodup_reservedRules _

/-- The rules a vector compiles to. -/
def compiledRules (env : PairEnv) (args : List String) : List String :=
  match normalizeFilterAliases args with
  | .error _ => []
  | .ok normalized =>
    match readFilters env normalized with
    | .error _ => []
    | .ok r => r.rules

/-- The shape of a compiled vector. -/
theorem protectedFilterArgs_shape {args out : List String}
    (h : protectedFilterArgs env args = .ok out) :
    out = otherTokens args ++ filterPairs (compiledRules env args) ∧
      (∀ t ∈ otherTokens args, PlainToken t) ∧
      ∃ user, compiledRules env args = reservedRules ++ user := by
  unfold protectedFilterArgs at h
  rcases hn : normalizeFilterAliases args with e | normalized
  · simp [hn] at h
  · rcases hr : readFilters env normalized with e | r
    · simp [hn, hr] at h
    · simp only [hn, hr] at h
      split_ifs at h
      have hslots := readFilters_slots hn hr
      have hrules : compiledRules env args = r.rules := by simp [compiledRules, hn, hr]
      rw [hrules, ← hslots.remainder]
      exact ⟨(Except.ok.inj h).symm, hslots.plain, _, rules_eq r⟩

/-! ### Values that become rules -/

theorem mem_rules {r : FilterRead} {rule : String} :
    rule ∈ r.rules ↔ rule ∈ reservedRules ∨ rule ∈ r.userRules := by
  simp [FilterRead.rules]

/-- A rule of the user is built from a value that one of the filter slots contributes. -/
theorem userRules_cases {r : FilterRead} {rule : String} (h : rule ∈ r.userRules) :
    rule = "- **" ∨ rule ∈ r.group .filter ++ r.group .filterFrom ∨
      ∃ e ∈ r.entries, ∃ v ∈ e.2, rule = "- " ++ v ∨ rule = "+ " ++ v := by
  have hvalue : ∀ g, ∀ v ∈ r.group g, ∃ e ∈ r.entries, v ∈ e.2 := by
    intro g v hv
    obtain ⟨e, he, hve⟩ := List.mem_flatMap.mp hv
    exact ⟨e, (List.mem_filter.mp he).1, hve⟩
  simp only [FilterRead.userRules, List.mem_append, List.mem_map] at h
  rcases h with ((⟨v, hv, rfl⟩ | h) | ⟨v, hv, rfl⟩) | h
  · have : ∃ e ∈ r.entries, v ∈ e.2 := hv.elim (hvalue _ v) (hvalue _ v)
    obtain ⟨e, he, hve⟩ := this
    exact Or.inr (Or.inr ⟨e, he, v, hve, Or.inl rfl⟩)
  · exact Or.inr (Or.inl (List.mem_append.mpr h))
  · have : ∃ e ∈ r.entries, v ∈ e.2 := hv.elim (hvalue _ v) (hvalue _ v)
    obtain ⟨e, he, hve⟩ := this
    exact Or.inr (Or.inr ⟨e, he, v, hve, Or.inr rfl⟩)
  · split_ifs at h
    · exact Or.inl (by simpa using h)
    · simp at h

/-- What is known of a rule or of a value that becomes one. -/
structure CleanLine (line : String) : Prop where
  stripped : strip line = line
  oneLine : '\n' ∉ line.toList

theorem mem_strip {c : Char} {s : String} (h : c ∈ (strip s).toList) : c ∈ s.toList :=
  mem_stripChars (strip_toList s ▸ h)

theorem cleanLine_strip {s : String} (h : '\n' ∉ s.toList) : CleanLine (strip s) :=
  ⟨strip_idem s, fun hc => h (mem_strip hc)⟩

/-- A sign in front of a clean line that is not empty gives a clean line. -/
theorem CleanLine.signed {line : String} (h : CleanLine line) (hne : line ≠ "") :
    CleanLine ("- " ++ line) ∧ CleanLine ("+ " ++ line) := by
  refine ⟨⟨?_, ?_⟩, ⟨?_, ?_⟩⟩
  · exact strip_append (c := '-') rfl (by decide) h.stripped hne
  · simpa using h.oneLine
  · exact strip_append (c := '+') rfl (by decide) h.stripped hne
  · simpa using h.oneLine

/-- The lines a filter file contributes are clean and not empty. -/
theorem cleanLine_of_ruleLines {text line : String} (h : line ∈ ruleLines text) :
    CleanLine line ∧ line ≠ "" := by
  obtain ⟨hmem, hrule⟩ := List.mem_filter.mp h
  obtain ⟨raw, hraw, rfl⟩ := List.mem_map.mp hmem
  have hbreak : isLineBreak '\n' = true := by decide
  refine ⟨cleanLine_strip fun hc => ?_, ?_⟩
  · rw [splitLines_noBreak hraw _ hc] at hbreak
    cases hbreak
  · simp only [Bool.and_eq_true, decide_eq_true_eq] at hrule
    exact hrule.1.1

/-- The values a filter contributes are clean and not empty. -/
theorem cleanLine_of_filterValues {group : FilterGroup} {value line : String} {values : List String}
    (h : filterValues env group value = .ok values) (hline : '\n' ∉ value.toList)
    (hvalue : strip value ≠ "") (hl : line ∈ values) : CleanLine line ∧ line ≠ "" := by
  unfold filterValues at h
  split_ifs at h with hfile
  · split at h
    · cases h
    · split_ifs at h
      split at h
      · cases h
      · obtain rfl := Except.ok.inj h
        exact cleanLine_of_ruleLines hl
  · obtain rfl := Except.ok.inj h
    obtain rfl : line = strip value := by simpa using hl
    exact ⟨cleanLine_strip hline, hvalue⟩

/-- The value of a filter is part of the tokens of its slot. -/
theorem mem_slotFilter {slot : Slot String} {f : FilterGroup × String} {c : Char}
    (h : slotFilter slot = some f) (hc : c ∈ f.2.toList) : ∃ t ∈ slot.tokens, c ∈ t.toList := by
  cases slot with
  | valued flag value =>
    simp only [slotFilter, Option.map_eq_some_iff] at h
    obtain ⟨group, -, rfl⟩ := h
    exact ⟨value, by simp [Slot.tokens], hc⟩
  | alone token =>
    refine ⟨token, by simp [Slot.tokens], ?_⟩
    simp only [slotFilter] at h
    split_ifs at h
    · obtain rfl := Option.some.inj h
      exact List.mem_of_mem_drop (by simpa [dropText] using hc)
    · obtain rfl := Option.some.inj h
      exact List.mem_of_mem_drop (by simpa [dropText] using hc)
    · obtain ⟨group, -, hvalue⟩ := Option.bind_eq_some_iff.mp h
      obtain ⟨value, hafter, rfl⟩ := Option.map_eq_some_iff.mp hvalue
      unfold afterSep at hafter
      split at hafter
      · cases hafter
      · rename_i d cs hdrop
        obtain rfl := Option.some.inj hafter
        have hmem : c ∈ d :: cs := List.mem_cons_of_mem _ (by simpa using hc)
        rw [← hdrop] at hmem
        exact (List.dropWhile_suffix _).subset hmem

theorem mem_filterSlots {args : List String} {f : FilterGroup × String} {c : Char}
    (h : f ∈ filterSlots args) (hc : c ∈ f.2.toList) : ∃ t ∈ args, c ∈ t.toList := by
  obtain ⟨slot, hslot, hf⟩ := List.mem_filterMap.mp h
  obtain ⟨t, ht, hct⟩ := mem_slotFilter hf hc
  refine ⟨t, ?_, hct⟩
  have : t ∈ tokensOf (slots takesFilterValue args) := List.mem_flatMap.mpr ⟨slot, hslot, ht⟩
  simpa using this

/-- The tokens carry no line break. -/
def OneLineTokens (args : List String) : Prop := ∀ t ∈ args, '\n' ∉ t.toList

/-- No filter has a blank value. -/
def NonblankFilters (args : List String) : Prop := ∀ f ∈ filterSlots args, strip f.2 ≠ ""

instance (args : List String) : Decidable (OneLineTokens args) := by
  unfold OneLineTokens
  infer_instance

instance (args : List String) : Decidable (NonblankFilters args) := by
  unfold NonblankFilters
  infer_instance

section Rules

variable {args : List String} {r : FilterRead}

/-- Every value behind the rules is clean. -/
theorem ReadsSlots.cleanLine (hr : ReadsSlots env args r) (hlines : OneLineTokens args)
    (hvalues : NonblankFilters args) {e : FilterGroup × List String} (he : e ∈ r.entries)
    {line : String} (hl : line ∈ e.2) : CleanLine line ∧ line ≠ "" := by
  obtain ⟨f, hf, -, hread⟩ := exists_left_of_forall₂ hr.entries he
  refine cleanLine_of_filterValues hread (fun hc => ?_) (hvalues f hf) hl
  obtain ⟨t, ht, hct⟩ := mem_filterSlots hf hc
  exact hlines t ht hct

theorem ReadsSlots.cleanLine_rule (hr : ReadsSlots env args r) (hlines : OneLineTokens args)
    (hvalues : NonblankFilters args) {rule : String} (h : rule ∈ r.rules) : CleanLine rule := by
  rcases mem_rules.mp h with h | h
  · have hreserved : ∀ rule ∈ reservedRules, strip rule = rule ∧ '\n' ∉ rule.toList := by decide
    exact ⟨(hreserved rule h).1, (hreserved rule h).2⟩
  · rcases userRules_cases h with rfl | h | ⟨e, he, v, hv, h⟩
    · exact ⟨by decide, by decide⟩
    · have hgroup : ∃ e ∈ r.entries, rule ∈ e.2 := by
        rcases List.mem_append.mp h with h | h <;>
        · obtain ⟨e, he, hve⟩ := List.mem_flatMap.mp h
          exact ⟨e, (List.mem_filter.mp he).1, hve⟩
      obtain ⟨e, he, hv⟩ := hgroup
      exact (hr.cleanLine hlines hvalues he hv).1
    · obtain ⟨hclean, hne⟩ := hr.cleanLine hlines hvalues he hv
      rcases h with rfl | rfl
      · exact (hclean.signed hne).1
      · exact (hclean.signed hne).2

/-- A reset could only come from the filter groups, where it is refused. -/
theorem no_reset_rule (hreset : "!" ∉ r.group .filter ++ r.group .filterFrom) :
    "!" ∉ r.rules := by
  intro h
  rcases mem_rules.mp h with h | h
  · revert h
    decide
  · rcases userRules_cases h with h | h | ⟨e, -, v, -, h | h⟩
    · revert h
      decide
    · exact hreset h
    · simpa using congrArg String.toList h
    · simpa using congrArg String.toList h

end Rules

/-! ### Compiling a compiled vector -/

section Again

variable {ts rules : List String}

theorem normalizeFilterAliases_plain (h : ∀ t ∈ ts, PlainToken t) (rest : List String) :
    normalizeFilterAliases (ts ++ rest) = (normalizeFilterAliases rest).map (ts ++ ·) := by
  induction ts with
  | nil =>
    rw [List.nil_append]
    rcases normalizeFilterAliases rest with e | out <;> rfl
  | cons t ts ih =>
    have ht := h t (by simp)
    have ih' := ih fun u hu => h u (List.mem_cons_of_mem _ hu)
    rw [List.cons_append, normalizeFilterAliases]
    simp only [ht.noValue, ht.copied, ih', Bool.false_eq_true, if_false]
    rcases normalizeFilterAliases rest with e | out <;> rfl

theorem normalizeFilterAliases_filterPairs (rules : List String) :
    normalizeFilterAliases (filterPairs rules) = .ok (filterPairs rules) := by
  have hf : takesFilterValue "--filter" = true := by decide
  have hlong : ("--filter" = "-f") = False := by decide
  induction rules with
  | nil => rfl
  | cons rule rules ih =>
    have hcons : filterPairs (rule :: rules) = "--filter" :: rule :: filterPairs rules := rfl
    rw [hcons, normalizeFilterAliases]
    simp only [hf, hlong, if_true, if_false, ih]
    rfl

theorem readFilters_plains (h : ∀ t ∈ ts, PlainToken t) (rest : List String) :
    readFilters env (ts ++ rest)
      = (readFilters env rest).map fun r => { r with remainder := ts ++ r.remainder } := by
  induction ts with
  | nil =>
    rw [List.nil_append]
    rcases readFilters env rest with e | r <;> rfl
  | cons t ts ih =>
    have ht := h t (by simp)
    rw [List.cons_append, readFilters_plain ht.refused ht.group,
      ih fun u hu => h u (List.mem_cons_of_mem _ hu)]
    rcases readFilters env rest with e | r <;> rfl

theorem readFilters_filterPairs (h : ∀ rule ∈ rules, strip rule = rule) :
    readFilters env (filterPairs rules)
      = .ok ⟨[], rules.map fun rule => (FilterGroup.filter, [rule])⟩ := by
  induction rules with
  | nil => rfl
  | cons rule rules ih =>
    have hcons : filterPairs (rule :: rules) = "--filter" :: rule :: filterPairs rules := rfl
    have hrefused : refusedToken "--filter" = none := by decide
    have hgroup : filterGroup (flagOf "--filter") = some .filter := by decide
    have heq : hasEq "--filter" = false := by decide
    have hvalues : filterValues env .filter rule = .ok [rule] := by
      simp [filterValues, FilterGroup.fromFile, h rule (by simp)]
    rw [hcons, readFilters]
    simp only [hrefused, hgroup, heq, hvalues, Bool.false_eq_true, if_false,
      ih fun r hr => h r (List.mem_cons_of_mem _ hr)]
    rfl

/-- The groups of a compiled vector: every rule is a filter. -/
theorem group_filters (rules : List String) (g : FilterGroup) :
    FilterRead.group ⟨ts, rules.map fun rule => (FilterGroup.filter, [rule])⟩ g
      = if g = .filter then rules else [] := by
  induction rules with
  | nil => cases g <;> rfl
  | cons rule rules ih =>
    simp only [FilterRead.group, List.map_cons] at ih ⊢
    cases g <;> simp_all

theorem rules_of_rules (r : FilterRead) :
    FilterRead.rules ⟨ts, r.rules.map fun rule => (FilterGroup.filter, [rule])⟩ = r.rules := by
  have huser : FilterRead.userRules ⟨ts, r.rules.map fun rule => (FilterGroup.filter, [rule])⟩
      = r.rules := by
    simp [FilterRead.userRules, group_filters]
  have hnodup : r.rules.Nodup := nodup_firstOccurrences _
  rw [rules_eq, huser, firstOccurrences_of_nodup hnodup]
  -- the leading excludes of `r.rules` are the ones the compilation puts in front
  rw [rules_eq, List.filter_append]
  simp

/-- Compiling a vector of plain tokens and clean rules gives it back. -/
theorem protectedFilterArgs_again {r : FilterRead} (h : ∀ t ∈ ts, PlainToken t)
    (hclean : ∀ rule ∈ r.rules, strip rule = rule) (hreset : "!" ∉ r.rules) :
    protectedFilterArgs env (ts ++ filterPairs r.rules) = .ok (ts ++ filterPairs r.rules) := by
  unfold protectedFilterArgs
  rw [normalizeFilterAliases_plain h, normalizeFilterAliases_filterPairs]
  simp only [Except.map]
  rw [readFilters_plains h, readFilters_filterPairs hclean]
  simp [Except.map, group_filters, hreset, rules_of_rules]

end Again

/-! ### First-match semantics of the rules -/

/-- How rclone reads one line of a rule list. -/
def parseRule (line : String) : Option (Rule String) :=
  if line = "!" then some .reset
  else if startsWith line "- " then some (.excl (dropText 2 line))
  else if startsWith line "+ " then some (.incl (dropText 2 line))
  else none

/-- The paths below a reserved subtree, relative to the root of the transfer. -/
def belowReserved (path : String) : Prop :=
  ∃ name ∈ reservedSubtrees, ∃ rest, path = name ++ "/" ++ rest

/-- The pattern of a reserved exclude. -/
def reservedPattern (name : String) : String := "/" ++ name ++ "/**"

theorem parseRule_reserved :
    reservedRules.filterMap parseRule = (reservedSubtrees.map reservedPattern).map .excl := by
  decide

theorem parseRule_reset {line : String} (h : parseRule line = some .reset) : line = "!" := by
  unfold parseRule at h
  split_ifs at h with hline
  · exact hline
  · cases h
  · cases h

/-- Behind the reserved excludes no rule list includes a reserved path. -/
theorem not_included_reserved {hit : String → String → Bool}
    (hhit : ∀ name ∈ reservedSubtrees, ∀ rest,
      hit (reservedPattern name) (name ++ "/" ++ rest) = true)
    {rules : List String} (hlead : reservedRules <+: rules) (hreset : "!" ∉ rules)
    {path : String} (hpath : belowReserved path) :
    included hit (rules.filterMap parseRule) path = false := by
  obtain ⟨user, rfl⟩ := hlead
  obtain ⟨name, hname, rest, rfl⟩ := hpath
  rw [List.filterMap_append, parseRule_reserved]
  refine not_included_of_leading ?_ ⟨reservedPattern name, List.mem_map_of_mem hname, hhit name hname rest⟩
  intro h
  obtain ⟨line, hline, hparse⟩ := List.mem_filterMap.mp h
  rw [parseRule_reset hparse] at hline
  exact hreset (List.mem_append_right _ hline)

/-! ### Flags left in a compiled vector -/

/-- The flags that would put filters outside the compiled rules. -/
def outsideFilterFlags : List String :=
  ["--include", "--include-from", "--exclude", "--exclude-from", "--filter-from",
   "--filters-file", "--files-from", "--files-from-raw", "--files-from0"]

/-- `--delete-excluded`, unless it is switched off by its value. -/
def enablesDeleteExcluded (token : String) : Bool :=
  flagOf token = "--delete-excluded" &&
    !(hasEq token && ["false", "0"].contains (lower ((afterSep '=' token).getD "")))

/-- A token that leaves the reserved excludes in force. -/
def KeepsReserved (token : String) : Prop :=
  flagOf token ∉ outsideFilterFlags ∧ enablesDeleteExcluded token = false

instance (token : String) : Decidable (KeepsReserved token) := by
  unfold KeepsReserved
  infer_instance

theorem PlainToken.keepsReserved {token : String} (h : PlainToken token) : KeepsReserved token := by
  constructor
  · intro hmem
    have hfilters : ∀ flag ∈ outsideFilterFlags, filterGroup flag ≠ none ∨
        flag ∈ ["--files-from", "--files-from-raw", "--files-from0"] := by
      decide
    rcases hfilters _ hmem with hflag | hflag
    · exact hflag h.group
    · have hrefused := h.refused
      have hor : flagOf token = "--files-from" ∨ flagOf token = "--files-from-raw" ∨
          flagOf token = "--files-from0" := by simpa using hflag
      simp [refusedToken, hor] at hrefused
  · by_contra hon
    have hrefused := h.refused
    have hon' : enablesDeleteExcluded token = true := by simpa using hon
    simp only [enablesDeleteExcluded, Bool.and_eq_true, decide_eq_true_eq, Bool.not_eq_true',
      Bool.and_eq_false_iff] at hon'
    obtain ⟨hflag, hvalue⟩ := hon'
    have hvalue' : hasEq token = false ∨
        lower ((afterSep '=' token).getD "") ∉ ["false", "0"] := by
      simpa using hvalue
    simp only [refusedToken, hflag] at hrefused
    rw [if_neg (by decide), if_pos ⟨trivial, hvalue'⟩] at hrefused
    cases hrefused

section FlagPosition

variable {takes : String → Bool}

theorem flagTokens_filterPairs (h : takes "--filter" = true) (rules : List String) :
    ∀ t ∈ flagTokens takes (filterPairs rules), t = "--filter" := by
  induction rules with
  | nil => simp [filterPairs, flagTokens]
  | cons rule rules ih =>
    have hcons : filterPairs (rule :: rules) = "--filter" :: rule :: filterPairs rules := rfl
    intro t ht
    rw [hcons, flagTokens, slots_cons_valued h] at ht
    rcases List.mem_cons.mp ht with rfl | ht
    · rfl
    · exact ih t ht

/-- Behind tokens of any kind, the pairs add `--filter` and at most their first rule. -/
theorem flagTokens_append_filterPairs (h : takes "--filter" = true) {ts : List String}
    {rule : String} (hrule : takes rule = false) (rules : List String) {t : String}
    (ht : t ∈ flagTokens takes (ts ++ filterPairs (rule :: rules))) :
    t ∈ ts ∨ t = "--filter" ∨ t = rule := by
  have hcons : filterPairs (rule :: rules) = "--filter" :: rule :: filterPairs rules := rfl
  rcases hp : pending takes ts with - | -
  · rw [flagTokens_append hp, List.mem_append] at ht
    rcases ht with ht | ht
    · exact Or.inl (flagTokens_subset ht)
    · exact Or.inr (Or.inl (flagTokens_filterPairs h _ t ht))
  · -- the waiting flag takes the first `--filter`, and the first rule stands alone
    obtain ⟨ys, a, rfl, ha, hys⟩ := pending_eq_true hp
    rw [hcons, flagTokens, slots_append_pending hys ha, slots_cons_alone hrule] at ht
    simp only [List.map_append, List.map_cons, List.mem_append, List.mem_cons] at ht
    rcases ht with ht | rfl | rfl | ht
    · exact Or.inl (List.mem_append_left _ (flagTokens_subset ht))
    · exact Or.inl (by simp)
    · exact Or.inr (Or.inr rfl)
    · exact Or.inr (Or.inl (flagTokens_filterPairs h _ t ht))

end FlagPosition

/-! ### The bisync filter file -/

theorem splitFilterRules_filterPairs (rules : List String) :
    splitFilterRules (filterPairs rules) = .ok (rules, []) := by
  induction rules with
  | nil => rfl
  | cons rule rules ih =>
    have hcons : filterPairs (rule :: rules) = "--filter" :: rule :: filterPairs rules := rfl
    rw [hcons, splitFilterRules]
    simp only [if_true, ih]
    rfl

theorem splitFilterRules_append {ts : List String} (h : "--filter" ∉ ts) (rules : List String) :
    splitFilterRules (ts ++ filterPairs rules) = .ok (rules, ts) := by
  induction ts with
  | nil => exact splitFilterRules_filterPairs rules
  | cons t ts ih =>
    have ht : t ≠ "--filter" := fun e => h (by simp [e])
    have hcons : splitFilterRules (t :: (ts ++ filterPairs rules))
        = (splitFilterRules (ts ++ filterPairs rules)).map fun p => (p.1, t :: p.2) := by
      rw [splitFilterRules.eq_def]
      simp [ht]
    rw [List.cons_append, hcons, ih fun hm => h (List.mem_cons_of_mem _ hm)]
    rfl

/-- The snapshot moves exactly the rules into the file, one a line. -/
theorem bisyncFilterSnapshot_ok {ts rules rest : List String} {cfg : Dict} {content : String}
    (hts : "--filter" ∉ ts) (hne : rules ≠ []) (hlines : ∀ rule ∈ rules, '\n' ∉ rule.toList)
    (h : bisyncFilterSnapshot env (ts ++ filterPairs rules) cfg = .ok (rest, content)) :
    (∃ target, rest = ts ++ ["--filters-file", target]) ∧ splitOn '\n' content = rules ++ [""] := by
  unfold bisyncFilterSnapshot at h
  simp only [splitFilterRules_append hts] at h
  split at h
  · obtain ⟨rfl, rfl⟩ := Prod.mk.inj (Except.ok.inj h)
    exact ⟨⟨_, rfl⟩, splitOn_join '\n' hne hlines⟩
  · cases h

/-! ### Main results -/

/-- Everything a caller may rely on about a compiled vector. -/
theorem protectedFilterArgs_parts {args out : List String} (hlines : OneLineTokens args)
    (hvalues : NonblankFilters args) (h : protectedFilterArgs env args = .ok out) :
    ∃ r : FilterRead, out = otherTokens args ++ filterPairs r.rules ∧
      (∀ t ∈ otherTokens args, PlainToken t) ∧ (∀ rule ∈ r.rules, CleanLine rule) ∧
      "!" ∉ r.rules := by
  obtain ⟨r, hr, hreset, hout⟩ := protectedFilterArgs_ok h
  exact ⟨r, hout, fun t ht => hr.plain t (hr.remainder ▸ ht),
    fun rule hrule => hr.cleanLine_rule hlines hvalues hrule, no_reset_rule hreset⟩

/-- **Reserved filter protection.**  A compiled vector is the other tokens in their order
followed by the pairs of a rule list.  The reserved excludes lead it, so no reserved path is
included; no reset and no flag that filters past the rules remains; compiling again changes
nothing; and the file of a bisync holds the rules line by line. -/
theorem protectedFilterArgs_reserved {args out : List String} (hlines : OneLineTokens args)
    (hvalues : NonblankFilters args) (h : protectedFilterArgs env args = .ok out)
    {hit : String → String → Bool}
    (hhit : ∀ name ∈ reservedSubtrees, ∀ rest,
      hit (reservedPattern name) (name ++ "/" ++ rest) = true) :
    ∃ rules, out = otherTokens args ++ filterPairs rules ∧
      (∀ t ∈ otherTokens args, PlainToken t) ∧
      reservedRules <+: rules ∧ "!" ∉ rules ∧
      (∀ path, belowReserved path → included hit (rules.filterMap parseRule) path = false) ∧
      (∀ takes : String → Bool, takes "--filter" = true →
        (∀ rule ∈ reservedRules, takes rule = false) →
        ∀ t ∈ flagTokens takes out, KeepsReserved t) ∧
      protectedFilterArgs env out = .ok out ∧
      (∀ cfg rest content, bisyncFilterSnapshot env out cfg = .ok (rest, content) →
        (∃ target, rest = otherTokens args ++ ["--filters-file", target]) ∧
          splitOn '\n' content = rules ++ [""]) := by
  obtain ⟨r, rfl, hplain, hclean, hreset⟩ := protectedFilterArgs_parts hlines hvalues h
  have hlead : reservedRules <+: r.rules := ⟨_, (rules_eq r).symm⟩
  have hfirst : ∃ rules, r.rules = "- /Sicherpfad/**" :: rules := by
    obtain ⟨user, huser⟩ := hlead
    exact ⟨_, huser.symm⟩
  refine ⟨r.rules, rfl, hplain, hlead, hreset, fun path hpath =>
    not_included_reserved hhit hlead hreset hpath, ?_, ?_, ?_⟩
  · intro takes htakes hrules t ht
    obtain ⟨rules, hcons⟩ := hfirst
    rw [hcons] at ht
    rcases flagTokens_append_filterPairs htakes (hrules _ (by decide)) rules ht with ht | rfl | rfl
    · exact (hplain t ht).keepsReserved
    · decide
    · decide
  · exact protectedFilterArgs_again hplain (fun rule hrule => (hclean rule hrule).stripped) hreset
  · intro cfg rest content hsnap
    have hnofilter : "--filter" ∉ otherTokens args := by
      intro hmem
      have := (hplain _ hmem).noValue
      revert this
      decide
    obtain ⟨rules, hcons⟩ := hfirst
    exact bisyncFilterSnapshot_ok hnofilter (by simp [hcons])
      (fun rule hrule => (hclean rule hrule).oneLine) hsnap

/-- A subtree matcher: `/name/**` matches what lies below `name`. -/
def subtreeHit (pattern path : String) : Bool :=
  endsWith pattern "/**" && startsWith ("/" ++ path) (takeText (pattern.length - 2) pattern)

theorem subtreeHit_reserved : ∀ name ∈ reservedSubtrees, ∀ rest,
    subtreeHit (reservedPattern name) (name ++ "/" ++ rest) = true := by
  intro name hname rest
  have hcheck : ∀ name ∈ reservedSubtrees, endsWith (reservedPattern name) "/**" = true ∧
      takeText ((reservedPattern name).length - 2) (reservedPattern name)
        = "/" ++ name ++ "/" := by
    decide
  obtain ⟨hend, htake⟩ := hcheck name hname
  have hpath : "/" ++ (name ++ "/" ++ rest) = "/" ++ name ++ "/" ++ rest := by
    simp [String.append_assoc]
  rw [subtreeHit, hend, htake, hpath]
  simp [startsWith]

def photoArgs : List String :=
  ["--transfers", "4", "-f", "+ *.jpg", "--exclude=*.tmp", "--fast-list", "-f- /Sicherpfad/x",
   "--include-from", "/etc/photos"]

theorem protectedFilterArgs_reserved_photo : ∃ out rules,
    protectedFilterArgs photoEnv photoArgs = .ok out ∧
      out = ["--transfers", "4", "--fast-list"] ++ filterPairs rules ∧ "+ *.raw" ∈ rules ∧
      (∀ path, belowReserved path →
        included subtreeHit (rules.filterMap parseRule) path = false) ∧
      protectedFilterArgs photoEnv out = .ok out := by
  have hout : protectedFilterArgs photoEnv photoArgs = .ok
      (["--transfers", "4", "--fast-list"] ++ filterPairs (reservedRules ++
        ["- *.tmp", "+ *.jpg", "- /Sicherpfad/x", "+ *.raw", "+ - *.bak", "- **"])) := by
    decide
  obtain ⟨rules, hrules, -, -, -, hreserved, -, hagain, -⟩ := protectedFilterArgs_reserved
    (by decide) (by decide) hout subtreeHit_reserved
  have hother : otherTokens photoArgs = ["--transfers", "4", "--fast-list"] := by decide
  rw [hother] at hrules
  have hsame := List.append_cancel_left hrules
  refine ⟨_, rules, hout, hrules, ?_, hreserved, hagain⟩
  have hmem : "+ *.raw" ∈ filterPairs rules := by
    rw [← hsame]
    decide
  obtain ⟨rule, hrule, heq⟩ := List.mem_flatMap.mp hmem
  rcases List.mem_cons.mp heq with heq | heq
  · exact absurd heq (by decide)
  · obtain rfl : "+ *.raw" = rule := by simpa using heq
    exact hrule

end RcloneSync
