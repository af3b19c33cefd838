/-
RcloneSync/FlagDedupe.lean

What de-duplication of the single-value flags (`_dedupe_single_value_rclone_args`) does to
the meaning of an argument list.

rclone reads the list with all the flags that take a value, `takes`; the loop knows the
single-value flags only.  The two readings differ where another flag is followed by its
value: the loop takes that value for a token of its own.  As long as no such value names a
single-value flag nothing comes of it, and the loop keeps the last setting of each
single-value flag and every other token (`keepsMeaning_of_named`).  A value that does name
one counts as a setting: `--checkers=4 --exclude --checkers=8` loses the setting of
`--checkers` (`dedupe_excluded_flag`).

Main result: `dedupe_keepsMeaning_iff`.
-/
import RcloneSync.DeleteBound

namespace RcloneSync

open Py ArgScan

/-! ### The meaning of an argument list -/

/-- What the flags with a value have to do with each other: the single-value flags are among
them, a token that carries its value takes no other one, and `--exclude` takes a value. -/
structure ValueFlags (takes : String → Bool) : Prop where
  single : ∀ token, takesSingleValue token = true → takes token = true
  inline : ∀ token, takes token = true → hasEq token = false
  exclude : takes "--exclude" = true

/-- The value that a slot gives to its flag. -/
def slotValue : Slot String → String
  | .alone token => (afterSep '=' token).getD ""
  | .valued _ value => value

/-- The value of the last occurrence of a single-value flag. -/
def lastSetting (takes : String → Bool) (flag : String) (args : List String) : Option String :=
  (((slots takes args).filter fun s => slotFlag s = some flag).getLast?).map slotValue

/-- The tokens that belong to no single-value flag. -/
def untouchedTokens (takes : String → Bool) (args : List String) : List String :=
  tokensOf ((slots takes args).filter fun s => slotFlag s = none)

/-- Each single-value flag has the value of its last occurrence, all other tokens stand in
their order, and de-duplicating again changes nothing. -/
structure KeepsMeaning (takes : String → Bool) (args : List String) : Prop where
  settings : ∀ flag ∈ singleValueRcloneFlags,
    lastSetting takes flag (dedupeSingleValueRcloneArgs args) = lastSetting takes flag args
  untouched :
    untouchedTokens takes (dedupeSingleValueRcloneArgs args) = untouchedTokens takes args
  again : dedupeSingleValueRcloneArgs (dedupeSingleValueRcloneArgs args)
    = dedupeSingleValueRcloneArgs args

/-- Every flag that takes a value has one, and the values of flags other than the
single-value ones are of the given kind. -/
structure ValuesFrom (takes : String → Bool) (allowed : String → Prop) (args : List String) :
    Prop where
  paired : pending takes args = false
  values : ∀ flag value, Slot.valued flag value ∈ slots takes args →
    slotFlag (.valued flag value) = none → allowed value

/-! ### Reading what was kept -/

section Slots

variable {α κ : Type*} {takes : α → Bool}

/-- A slot as a reading without a waiting flag makes it. -/
def Slot.fits (takes : α → Bool) : Slot α → Bool
  | .alone a => !takes a
  | .valued a _ => takes a

theorem slots_fit {xs : List α} (h : pending takes xs = false) :
    ∀ s ∈ slots takes xs, Slot.fits takes s = true := by
  fun_induction slots takes xs with
  | case1 => exact fun _ hs => (List.not_mem_nil hs).elim
  | case2 a ha => simp [pending, ha] at h
  | case3 a ha b rest ih =>
    rw [pending_cons_valued ha] at h
    intro s hs
    rcases List.mem_cons.mp hs with rfl | hs
    · exact ha
    · exact ih h s hs
  | case4 a rest ha ih =>
    have ha' : takes a = false := by simpa using ha
    rw [pending_cons_alone ha'] at h
    intro s hs
    rcases List.mem_cons.mp hs with rfl | hs
    · simp [Slot.fits, ha']
    · exact ih h s hs

/-- Slots are read back from their tokens. -/
theorem slots_tokensOf {ss : List (Slot α)} (h : ∀ s ∈ ss, Slot.fits takes s = true) :
    slots takes (tokensOf ss) = ss := by
  induction ss with
  | nil => rfl
  | cons s ss ih =>
    have hs := h s List.mem_cons_self
    have hrest := ih fun t ht => h t (List.mem_cons_of_mem _ ht)
    cases s with
    | alone a =>
      have ha : takes a = false := by simpa [Slot.fits] using hs
      exact (slots_cons_alone ha _).trans (congrArg _ hrest)
    | valued a b =>
      have ha : takes a = true := hs
      exact (slots_cons_valued ha b _).trans (congrArg _ hrest)

theorem pending_tokensOf {ss : List (Slot α)} (h : ∀ s ∈ ss, Slot.fits takes s = true) :
    pending takes (tokensOf ss) = false := by
  induction ss with
  | nil => rfl
  | cons s ss ih =>
    have hs := h s List.mem_cons_self
    have hrest := ih fun t ht => h t (List.mem_cons_of_mem _ ht)
    cases s with
    | alone a =>
      have ha : takes a = false := by simpa [Slot.fits] using hs
      exact (pending_cons_alone ha _).trans hrest
    | valued a b =>
      have ha : takes a = true := hs
      exact (pending_cons_valued ha b _).trans hrest

variable {β : Type*} [DecidableEq κ] {key : β → Option κ}

/-- The last one of a key is never overridden, so it is kept. -/
theorem getLast?_keepLast (k : κ) (xs : List β) :
    ((keepLast key xs).filter fun x => decide (key x = some k)).getLast?
      = (xs.filter fun x => decide (key x = some k)).getLast? := by
  induction xs with
  | nil => rfl
  | cons c cs ih =>
    by_cases hc : key c = some k
    · rw [List.filter_cons_of_pos (by simpa using hc)]
      by_cases hlater : overridden key c cs = true
      · have hne : (cs.filter fun x => decide (key x = some k)) ≠ [] := by
          simp only [overridden, Bool.and_eq_true, List.any_eq_true, decide_eq_true_eq] at hlater
          obtain ⟨_, d, hd, hkey⟩ := hlater
          exact List.ne_nil_of_mem (List.mem_filter.mpr ⟨hd, by simpa using hkey.trans hc⟩)
        rw [keepLast, if_pos hlater, ih, List.getLast?_cons]
        cases hlast : (cs.filter fun x => decide (key x = some k)).getLast? with
        | none => exact absurd (List.getLast?_eq_none_iff.mp hlast) hne
        | some d => rfl
      · rw [keepLast, if_neg hlater, List.filter_cons_of_pos (by simpa using hc),
          List.getLast?_cons, List.getLast?_cons, ih]
    · rw [List.filter_cons_of_neg (by simpa using hc), ← ih, keepLast]
      split
      · rfl
      · rw [List.filter_cons_of_neg (by simpa using hc)]

/-- What carries no key stays. -/
theorem filter_keepLast_none (xs : List β) :
    ((keepLast key xs).filter fun x => decide (key x = none))
      = xs.filter fun x => decide (key x = none) := by
  induction xs with
  | nil => rfl
  | cons c cs ih =>
    by_cases hc : key c = none
    · rw [List.filter_cons_of_pos (by simpa using hc), keepLast,
        if_neg (by simp [overridden_eq_false_of_none hc]),
        List.filter_cons_of_pos (by simpa using hc), ih]
    · rw [List.filter_cons_of_neg (by simpa using hc), ← ih, keepLast]
      split
      · rfl
      · rw [List.filter_cons_of_neg (by simpa using hc)]

theorem overridden_mono {c : β} {xs ys : List β} (hsub : ∀ x ∈ xs, x ∈ ys)
    (h : overridden key c xs = true) : overridden key c ys = true := by
  simp only [overridden, Bool.and_eq_true, List.any_eq_true] at h ⊢
  obtain ⟨hsome, d, hd, hkey⟩ := h
  exact ⟨hsome, d, hsub d hd, hkey⟩

theorem keepLast_idem (xs : List β) : keepLast key (keepLast key xs) = keepLast key xs := by
  induction xs with
  | nil => rfl
  | cons c cs ih =>
    by_cases hc : overridden key c cs = true
    · rw [keepLast, if_pos hc, ih]
    · rw [keepLast, if_neg hc, keepLast, if_neg, ih]
      exact fun hkept => hc (overridden_mono (fun x hx => (keepLast_sublist cs).subset hx) hkept)

end Slots

/-! ### The reading of the loop -/

section Readings

variable {takes : String → Bool} {args : List String}

/-- A value that names a single-value flag. -/
def NamesSingleValue (value : String) : Prop := flagOf value ∈ singleValueRcloneFlags

instance (value : String) : Decidable (NamesSingleValue value) :=
  inferInstanceAs (Decidable (_ ∈ _))

/-- The loop reads another flag and its value as two tokens. -/
def splitSlot : Slot String → List (Slot String)
  | .alone token => [.alone token]
  | .valued flag value =>
    if slotFlag (.valued flag value) = none then [.alone flag, .alone value]
    else [.valued flag value]

theorem slotFlag_eq_none {s : Slot String} :
    slotFlag s = none ↔ flagOf s.head ∉ singleValueRcloneFlags := by
  unfold slotFlag
  split <;> simp_all

theorem takesSingleValue_of_other {token : String} (h : flagOf token ∉ singleValueRcloneFlags) :
    takesSingleValue token = false := by
  simp [takesSingleValue, h]

/-- What the loop reads, if no value of another flag names a single-value flag. -/
theorem slots_single (ht : ValueFlags takes)
    (h : ValuesFrom takes (fun value => ¬ NamesSingleValue value) args) :
    slots takesSingleValue args = (slots takes args).flatMap splitSlot := by
  obtain ⟨hpaired, hvalues⟩ := h
  fun_induction slots takes args with
  | case1 => rfl
  | case2 a ha => simp [pending, ha] at hpaired
  | case3 a ha b rest ih =>
    rw [pending_cons_valued ha] at hpaired
    have hrest := ih hpaired fun flag value hmem =>
      hvalues flag value (List.mem_cons_of_mem _ hmem)
    rw [List.flatMap_cons, ← hrest]
    by_cases hother : slotFlag (.valued a b) = none
    · have ha' : takesSingleValue a = false :=
        takesSingleValue_of_other (slotFlag_eq_none.mp hother)
      have hb := takesSingleValue_of_other (hvalues a b List.mem_cons_self hother)
      rw [slots_cons_alone ha', slots_cons_alone hb, splitSlot, if_pos hother]
      rfl
    · have hsingle : takesSingleValue a = true := by
        have hmem := not_not.mp (mt slotFlag_eq_none.mpr hother)
        have hmem' : flagOf a ∈ singleValueRcloneFlags := hmem
        simp [takesSingleValue, hmem', ht.inline a ha]
      rw [slots_cons_valued hsingle, splitSlot, if_neg hother]
      rfl
  | case4 a rest ha ih =>
    have ha' : takes a = false := by simpa using ha
    have hsingle : takesSingleValue a = false := by
      by_contra hcontra
      rw [ht.single a (by simpa using hcontra)] at ha'
      cases ha'
    rw [pending_cons_alone ha'] at hpaired
    have hrest := ih hpaired fun flag value hmem =>
      hvalues flag value (List.mem_cons_of_mem _ hmem)
    rw [slots_cons_alone hsingle, hrest]
    rfl

theorem slotFlag_splitSlot {ss : List (Slot String)}
    (hvalues : ∀ flag value, Slot.valued flag value ∈ ss →
      slotFlag (.valued flag value) = none → ¬ NamesSingleValue value) (s : Slot String) :
    overridden slotFlag s (ss.flatMap splitSlot) = overridden slotFlag s ss := by
  induction ss with
  | nil => rfl
  | cons t ss ih =>
    have hrest := ih fun flag value hmem => hvalues flag value (List.mem_cons_of_mem _ hmem)
    rw [List.flatMap_cons, overridden_append, overridden_cons, hrest]
    cases t with
    | alone token => rfl
    | valued flag value =>
      by_cases hother : slotFlag (.valued flag value) = none
      · have hvalue : slotFlag (.alone value) = none :=
          slotFlag_eq_none.mpr (hvalues flag value List.mem_cons_self hother)
        have hflag : slotFlag (.alone flag) = none := hother
        rw [splitSlot, if_pos hother]
        cases hs : slotFlag s with
        | none => simp [overridden, hs]
        | some key => simp [overridden, hs, hvalue, hflag, hother]
      · rw [splitSlot, if_neg hother]

/-- The loop keeps the tokens of the slots that are kept. -/
theorem tokensOf_keepLast_split {ss : List (Slot String)}
    (hvalues : ∀ flag value, Slot.valued flag value ∈ ss →
      slotFlag (.valued flag value) = none → ¬ NamesSingleValue value) :
    tokensOf (keepLast slotFlag (ss.flatMap splitSlot)) = tokensOf (keepLast slotFlag ss) := by
  induction ss with
  | nil => rfl
  | cons t ss ih =>
    have hlater : ∀ flag value, Slot.valued flag value ∈ ss →
        slotFlag (.valued flag value) = none → ¬ NamesSingleValue value :=
      fun flag value hmem => hvalues flag value (List.mem_cons_of_mem _ hmem)
    have hrest := ih hlater
    have hover := slotFlag_splitSlot hlater t
    cases t with
    | alone token =>
      show tokensOf (keepLast slotFlag (.alone token :: ss.flatMap splitSlot)) = _
      rw [keepLast, keepLast, hover]
      split
      · exact hrest
      · rw [tokensOf_cons, tokensOf_cons, hrest]
    | valued flag value =>
      by_cases hother : slotFlag (.valued flag value) = none
      · have hvalue : slotFlag (.alone value) = none :=
          slotFlag_eq_none.mpr (hvalues flag value List.mem_cons_self hother)
        have hflag : slotFlag (.alone flag) = none := hother
        have hsplit : splitSlot (.valued flag value) = [.alone flag, .alone value] := by
          rw [splitSlot, if_pos hother]
        rw [List.flatMap_cons, hsplit]
        show tokensOf (keepLast slotFlag
          (.alone flag :: .alone value :: ss.flatMap splitSlot)) = _
        rw [keepLast, overridden_eq_false_of_none hflag, keepLast,
          overridden_eq_false_of_none hvalue, keepLast, overridden_eq_false_of_none hother]
        simp only [Bool.false_eq_true, if_false, tokensOf_cons, hrest]
        rfl
      · have hsplit : splitSlot (.valued flag value) = [.valued flag value] := by
          rw [splitSlot, if_neg hother]
        rw [List.flatMap_cons, hsplit]
        show tokensOf (keepLast slotFlag (.valued flag value :: ss.flatMap splitSlot)) = _
        rw [keepLast, keepLast, hover]
        split
        · exact hrest
        · rw [tokensOf_cons, tokensOf_cons, hrest]

/-- The slots that stay, if no value of another flag names a single-value flag. -/
theorem dedupe_slots (ht : ValueFlags takes)
    (h : ValuesFrom takes (fun value => ¬ NamesSingleValue value) args) :
    dedupeSingleValueRcloneArgs args = tokensOf (keepLast slotFlag (slots takes args)) := by
  rw [dedupe_eq, slots_single ht h, tokensOf_keepLast_split h.values]

theorem slots_dedupe (ht : ValueFlags takes)
    (h : ValuesFrom takes (fun value => ¬ NamesSingleValue value) args) :
    slots takes (dedupeSingleValueRcloneArgs args) = keepLast slotFlag (slots takes args) := by
  rw [dedupe_slots ht h]
  exact slots_tokensOf fun s hs => slots_fit h.paired s ((keepLast_sublist _).subset hs)

/-- **The meaning is kept** where no value of another flag names a single-value flag. -/
theorem keepsMeaning_of_named (ht : ValueFlags takes)
    (h : ValuesFrom takes (fun value => ¬ NamesSingleValue value) args) :
    KeepsMeaning takes args := by
  have hslots := slots_dedupe ht h
  refine ⟨fun flag _ => ?_, ?_, ?_⟩
  · unfold lastSetting
    rw [hslots, getLast?_keepLast]
  · unfold untouchedTokens
    rw [hslots, filter_keepLast_none]
  · have hagain : ValuesFrom takes (fun value => ¬ NamesSingleValue value)
        (dedupeSingleValueRcloneArgs args) := by
      refine ⟨?_, fun flag value hmem => ?_⟩
      · rw [dedupe_slots ht h]
        exact pending_tokensOf fun s hs => slots_fit h.paired s ((keepLast_sublist _).subset hs)
      · rw [hslots] at hmem
        exact h.values flag value ((keepLast_sublist _).subset hmem)
    rw [dedupe_slots ht hagain, hslots, keepLast_idem, ← dedupe_slots ht h]

/-! ### A value that names a flag -/

/-- The list that shows it: a setting of the flag, and the value behind `--exclude`. -/
def namingArgs (value : String) : List String :=
  [flagOf value ++ "=" ++ "1", "--exclude", value]

theorem eq_notMem_flagOf (token : String) : '=' ∉ (flagOf token).toList := by
  unfold flagOf beforeSep
  rw [String.toList_ofList]
  intro h
  simpa using List.mem_takeWhile_imp h

theorem slotFlag_naming {value : String} (h : NamesSingleValue value) :
    slotFlag (.alone (flagOf value ++ "=" ++ "1")) = some (flagOf value) := by
  have hflag : flagOf (flagOf value ++ "=" ++ "1") = flagOf value :=
    flagOf_inline (eq_notMem_flagOf value) "1"
  unfold slotFlag
  rw [Slot.head, hflag]
  exact if_pos h

theorem slots_namingArgs (ht : ValueFlags takes) (value : String) :
    slots takes (namingArgs value) =
      [.alone (flagOf value ++ "=" ++ "1"), .valued "--exclude" value] := by
  have hfirst : takes (flagOf value ++ "=" ++ "1") = false := by
    by_contra hcontra
    have hplain := ht.inline _ (by simpa using hcontra)
    rw [hasEq_inline] at hplain
    cases hplain
  rw [namingArgs, slots_cons_alone hfirst, slots_cons_valued ht.exclude]
  rfl

/-- The setting in front of the value is dropped for it. -/
theorem dedupe_namingArgs {value : String} (h : NamesSingleValue value) :
    dedupeSingleValueRcloneArgs (namingArgs value) = ["--exclude", value] := by
  have hfirst : takesSingleValue (flagOf value ++ "=" ++ "1") = false := by
    simp [takesSingleValue, hasEq_inline]
  have hexclude : takesSingleValue "--exclude" = false := by decide
  have hlast : slots takesSingleValue [value] = [.alone value] := by
    cases hvalue : takesSingleValue value with
    | false => exact slots_cons_alone hvalue []
    | true => simp [slots, hvalue]
  have hflag := slotFlag_naming h
  have hnamed : slotFlag (.alone value) = some (flagOf value) := if_pos h
  have hother : slotFlag (.alone "--exclude") = none := by decide
  rw [dedupe_eq, namingArgs, slots_cons_alone hfirst, slots_cons_alone hexclude, hlast]
  simp [keepLast, overridden, hflag, hnamed, hother, Slot.tokens]

theorem namingArgs_changes (ht : ValueFlags takes) {value : String} (h : NamesSingleValue value) :
    ¬ KeepsMeaning takes (namingArgs value) := by
  intro hkeeps
  have hsetting := hkeeps.settings (flagOf value) h
  have hflag := slotFlag_naming h
  have hexclude : slotFlag (.valued "--exclude" value) = none := by
    rw [slotFlag_valued]
    decide
  have hafter : slots takes ["--exclude", value] = [.valued "--exclude" value] :=
    slots_cons_valued ht.exclude value []
  unfold lastSetting at hsetting
  rw [dedupe_namingArgs h, hafter, slots_namingArgs ht value] at hsetting
  simp [hflag, hexclude] at hsetting

theorem valuesFrom_namingArgs (ht : ValueFlags takes) {allowed : String → Prop} {value : String}
    (h : allowed value) : ValuesFrom takes allowed (namingArgs value) := by
  have hslots := slots_namingArgs ht value
  refine ⟨?_, fun flag other hmem _ => ?_⟩
  · have hfit := @pending_tokensOf String takes
      [.alone (flagOf value ++ "=" ++ "1"), .valued "--exclude" value]
    refine hfit fun s hs => ?_
    rw [← hslots] at hs
    rcases List.mem_cons.mp (hslots ▸ hs) with rfl | hs
    · by_contra hcontra
      have hplain := ht.inline (flagOf value ++ "=" ++ "1") (by simpa [Slot.fits] using hcontra)
      rw [hasEq_inline] at hplain
      cases hplain
    · obtain rfl := List.mem_singleton.mp hs
      exact ht.exclude
  · rw [hslots] at hmem
    simp only [List.mem_cons, reduceCtorEq, false_or, Slot.valued.injEq, List.not_mem_nil,
      or_false] at hmem
    rw [hmem.2]
    exact h

end Readings

/-! ### When the meaning is kept -/

/-- **De-duplication keeps the meaning exactly as long as no value names a single-value
flag**: of whatever kind the values of the other flags are, it keeps the meaning of every
list with values of that kind if and only if none of them names a single-value flag. -/
theorem dedupe_keepsMeaning_iff {takes : String → Bool} (ht : ValueFlags takes)
    (allowed : String → Prop) :
    (∀ args, ValuesFrom takes allowed args → KeepsMeaning takes args) ↔
      ∀ value, allowed value → ¬ NamesSingleValue value := by
  constructor
  · intro h value hallowed hnamed
    exact namingArgs_changes ht hnamed (h _ (valuesFrom_namingArgs ht hallowed))
  · intro h args hargs
    exact keepsMeaning_of_named ht
      ⟨hargs.paired, fun flag value hmem hother => h value (hargs.values flag value hmem hother)⟩

theorem valueFlags_takesValue : ValueFlags takesValue where
  single := fun token h => by simp [takesValue, h]
  inline := fun token h => by
    by_contra heq
    have heq : hasEq token = true := by simpa using heq
    cases hfilter : takesFilterValue token with
    | false => simp [takesValue, takesSingleValue, heq, hfilter] at h
    | true =>
      have hcheck : ∀ f ∈ ["--include", "--include-from", "--exclude", "--exclude-from", "--filter",
          "--filter-from", "--filters-file", "--files-from", "--files-from-raw", "--files-from0",
          "-f"], hasEq f = false := by
        decide
      rw [hcheck token (takesFilterValue_iff.mp hfilter)] at heq
      cases heq
  exclude := by decide

/-- Patterns without a dash in front name no flag. -/
theorem dedupe_keepsMeaning_patterns :
    (∀ args, ValuesFrom takesValue (fun value => startsWith value "-" = false) args →
        KeepsMeaning takesValue args) ↔
      ∀ value, startsWith value "-" = false → ¬ NamesSingleValue value :=
  dedupe_keepsMeaning_iff valueFlags_takesValue _

/-- **A pattern that looks like a setting replaces the setting**:
`--checkers=4 --exclude --checkers=8` sets four checkers and excludes what is called
`--checkers=8`; de-duplicated it sets none. -/
theorem dedupe_excluded_flag :
    pending takesValue ["--checkers=4", "--exclude", "--checkers=8"] = false ∧
      dedupeSingleValueRcloneArgs ["--checkers=4", "--exclude", "--checkers=8"]
        = ["--exclude", "--checkers=8"] ∧
      lastSetting takesValue "--checkers" ["--checkers=4", "--exclude", "--checkers=8"] = some "4" ∧
      lastSetting takesValue "--checkers" ["--exclude", "--checkers=8"] = none ∧
      ¬ KeepsMeaning takesValue ["--checkers=4", "--exclude", "--checkers=8"] := by
  have hdedupe : dedupeSingleValueRcloneArgs ["--checkers=4", "--exclude", "--checkers=8"]
      = ["--exclude", "--checkers=8"] := by decide +kernel
  have hbefore : lastSetting takesValue "--checkers" ["--checkers=4", "--exclude", "--checkers=8"]
      = some "4" := by decide +kernel
  have hafter : lastSetting takesValue "--checkers" ["--exclude", "--checkers=8"] = none := by
    decide +kernel
  refine ⟨by decide +kernel, hdedupe, hbefore, hafter, fun hkeeps => ?_⟩
  have hsetting := hkeeps.settings "--checkers" (by decide)
  rw [hdedupe, hbefore, hafter] at hsetting
  cases hsetting

end RcloneSync
