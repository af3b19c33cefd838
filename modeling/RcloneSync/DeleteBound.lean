/-
RcloneSync/DeleteBound.lean

The way of the delete bound through the command assembly.  The bound token
`--max-delete=V` is put into the argument vector once for each place that sets it;
the last one is the effective one (`vector_eq`).  Around any place that holds its text
the vector splits as

    args  =  before ++ bound :: after

Two passes then decide, each with its own idea of which flags take the next token,
what becomes of it.  De-duplication drops a slot whose flag is set again later; if
`before` ends in a single-value flag without its value, the bound is that value and
shares its fate.  The filter compilation moves a filter flag together with the next
token into the rule list; if what is left of `before` ends in a filter flag without
its value, the bound becomes a rule.

`BoundStands` says that none of this happens at a place.  The bound reaches rclone
exactly when some place lets it stand and no other text that is written like a bound
is left (`boundReaches_iff`), or when a text outside the arguments takes its place
(`NamedOutside`).
-/
import RcloneSync.FilterCompile

namespace RcloneSync

open Py ArgScan

/-! ### The readings -/

/-- A single-value flag that takes the next token. -/
def takesSingleValue (token : String) : Bool :=
  singleValueRcloneFlags.contains (flagOf token) && !hasEq token

/-- A flag, of all the program knows, that takes the next token. -/
def takesValue (token : String) : Bool := takesSingleValue token || takesFilterValue token

/-- The single-value flag a slot sets. -/
def slotFlag (s : Slot String) : Option String :=
  if flagOf s.head ∈ singleValueRcloneFlags then some (flagOf s.head) else none

/-- The chunk the source builds for a slot. -/
def slotChunk (s : Slot String) : ArgChunk := (slotFlag s, s.tokens)

theorem argChunks_eq (args : List String) :
    argChunks args = (slots takesSingleValue args).map slotChunk := by
  induction args using argChunks.induct with
  | case1 => rfl
  | case2 token rest flag hflag ih =>
    have htakes : takesSingleValue token = false := by
      simpa [takesSingleValue] using fun h => absurd h hflag
    have hcons : argChunks (token :: rest) = (none, [token]) :: argChunks rest := by
      rw [argChunks.eq_def]
      simp [flag, hflag]
    rw [hcons, slots_cons_alone htakes, ih]
    simp [slotChunk, slotFlag, Slot.head, Slot.tokens, flag, hflag]
  | case3 token rest flag hflag heq ih =>
    have htakes : takesSingleValue token = false := by simp [takesSingleValue, heq]
    have hmem : flag ∈ singleValueRcloneFlags := not_not.mp hflag
    have hcons : argChunks (token :: rest) = (some flag, [token]) :: argChunks rest := by
      rw [argChunks.eq_def]
      simp [flag, hmem, heq]
    rw [hcons, slots_cons_alone htakes, ih]
    simp [slotChunk, slotFlag, Slot.head, Slot.tokens, flag, hmem]
  | case4 token flag hflag heq =>
    have hmem : flag ∈ singleValueRcloneFlags := not_not.mp hflag
    have htakes : takesSingleValue token = true := by simp [takesSingleValue, heq, flag, hmem]
    simp [argChunks, slots, htakes, slotChunk, slotFlag, Slot.head, Slot.tokens, heq, flag, hmem]
  | case5 token flag hflag heq value rest ih =>
    have hmem : flag ∈ singleValueRcloneFlags := not_not.mp hflag
    have htakes : takesSingleValue token = true := by simp [takesSingleValue, heq, flag, hmem]
    rw [slots_cons_valued htakes, argChunks]
    simp [ih, heq, slotChunk, slotFlag, Slot.head, Slot.tokens, flag, hmem]

theorem lastChunks_map (ss : List (Slot String)) :
    lastChunks (ss.map slotChunk) = (keepLast slotFlag ss).map slotChunk := by
  induction ss with
  | nil => rfl
  | cons s ss ih =>
    have hflags : (ss.map slotChunk).map Prod.fst = ss.map slotFlag := by simp [slotChunk]
    rw [List.map_cons, keepLast, slotChunk, lastChunks, hflags, ih]
    rcases hs : slotFlag s with - | flag
    · simp [overridden, hs, slotChunk]
    · by_cases hmem : some flag ∈ ss.map slotFlag
      · have hover : overridden slotFlag s ss = true := by simpa [overridden, hs] using hmem
        simp [hmem, hover]
      · have hover : overridden slotFlag s ss = false := by simpa [overridden, hs] using hmem
        simp [hmem, hover, hs, slotChunk]

/-- De-duplication keeps the last slot of every single-value flag. -/
theorem dedupe_eq (args : List String) :
    dedupeSingleValueRcloneArgs args
      = tokensOf (keepLast slotFlag (slots takesSingleValue args)) := by
  rw [dedupeSingleValueRcloneArgs, argChunks_eq, lastChunks_map, List.flatMap_map]
  rfl

/-- The tokens of a vector whose settings no later setting of the same flag replaces. -/
def settled (args : List String) : List String :=
  tokensOf (keepLast slotFlag (slots takesSingleValue args))

theorem dedupe_eq_settled (args : List String) :
    dedupeSingleValueRcloneArgs args = settled args :=
  dedupe_eq args

/-! ### One token in the middle of a vector -/

section Middle

variable {before after : List String} {bound : String}

/-- The slots that may still override the ones in front of the bound. -/
def laterSlots (before after : List String) (bound : String) : List (Slot String) :=
  if pending takesSingleValue before then slots takesSingleValue after
  else .alone bound :: slots takesSingleValue after

/-- The tokens in front of the bound that de-duplication keeps. -/
def keptBefore (before after : List String) (bound : String) : List String :=
  tokensOf ((keepLast slotFlag (slots takesSingleValue before)).filter
    fun s => !overridden slotFlag s (laterSlots before after bound))

/-- The slot of the bound is set again later: it is the bound's own slot, or that of the
flag that waits for a value. -/
def slotDropped (before after : List String) (bound : String) : Bool :=
  match pending takesSingleValue before, before.getLast? with
  | true, some flag => overridden slotFlag (.alone flag) (slots takesSingleValue after)
  | _, _ => overridden slotFlag (.alone bound) (slots takesSingleValue after)

theorem slotFlag_valued (flag value : String) :
    slotFlag (.valued flag value) = slotFlag (.alone flag) := rfl

theorem overridden_congr {c d : Slot String} (h : slotFlag c = slotFlag d)
    (later : List (Slot String)) :
    overridden slotFlag c later = overridden slotFlag d later := by
  simp [overridden, h]

theorem overridden_cons (c d : Slot String) (later : List (Slot String)) :
    overridden slotFlag c (d :: later)
      = (overridden slotFlag c [d] || overridden slotFlag c later) :=
  overridden_append c [d] later

/-- What de-duplication makes of a vector around one of its tokens. -/
theorem settled_middle (hb : takesSingleValue bound = false) :
    settled (before ++ bound :: after)
      = keptBefore before after bound ++
        (if slotDropped before after bound then [] else [bound]) ++ settled after := by
  rcases hp : pending takesSingleValue before with - | -
  · have hdropped : slotDropped before after bound
        = overridden slotFlag (.alone bound) (slots takesSingleValue after) := by
      simp [slotDropped, hp]
    have hkept : keptBefore before after bound
        = tokensOf ((keepLast slotFlag (slots takesSingleValue before)).filter
            fun s => !overridden slotFlag s (.alone bound :: slots takesSingleValue after)) := by
      simp [keptBefore, laterSlots, hp]
    rw [settled, settled, slots_append hp, slots_cons_alone hb, keepLast_append,
      tokensOf_append, hkept, hdropped, List.append_assoc, keepLast]
    rcases overridden slotFlag (.alone bound) (slots takesSingleValue after) <;>
      simp [Slot.tokens]
  · obtain ⟨front, flag, rfl, hflag, hfront⟩ := pending_eq_true hp
    have hdropped : slotDropped (front ++ [flag]) after bound
        = overridden slotFlag (.alone flag) (slots takesSingleValue after) := by
      simp [slotDropped, hp]
    have hread : slots takesSingleValue (front ++ [flag])
        = slots takesSingleValue front ++ [.alone flag] := by
      rw [slots_append hfront]
      simp [slots, hflag]
    have hkept : keptBefore (front ++ [flag]) after bound
        = tokensOf ((keepLast slotFlag (slots takesSingleValue front)).filter
            fun s => !overridden slotFlag s (.valued flag bound :: slots takesSingleValue after))
          ++ (if overridden slotFlag (.alone flag) (slots takesSingleValue after) then []
              else [flag]) := by
      have hlast : keepLast slotFlag [Slot.alone flag] = [.alone flag] := by
        simp [keepLast, overridden]
      have hlater : (fun s => !overridden slotFlag s
            (.valued flag bound :: slots takesSingleValue after))
          = fun s => (!overridden slotFlag s (slots takesSingleValue after)) &&
              !overridden slotFlag s [.alone flag] := by
        funext s
        have : overridden slotFlag s [Slot.valued flag bound]
            = overridden slotFlag s [Slot.alone flag] := rfl
        rw [overridden_cons s (.valued flag bound), this, Bool.not_or, Bool.and_comm]
      rw [keptBefore, laterSlots, hp, if_pos rfl, hread, keepLast_append, hlast,
        List.filter_append, tokensOf_append, List.filter_filter, hlater]
      rcases h : overridden slotFlag (.alone flag) (slots takesSingleValue after) <;>
        simp [Slot.tokens, h]
    rw [settled, settled, slots_append_pending hfront hflag, keepLast_append,
      tokensOf_append, hkept, hdropped, keepLast,
      overridden_congr (slotFlag_valued flag bound)]
    rcases overridden slotFlag (.alone flag) (slots takesSingleValue after) <;>
      simp [Slot.tokens]

theorem slotDropped_cons_alone {a : String} (ha : takesSingleValue a = false) :
    slotDropped (a :: before) after bound = slotDropped before after bound := by
  rw [slotDropped, slotDropped, pending_cons_alone ha]
  rcases before with - | ⟨b, before⟩
  · rfl
  · rw [List.getLast?_cons_cons]

theorem slotDropped_cons_valued {a b : String} (ha : takesSingleValue a = true) :
    slotDropped (a :: b :: before) after bound = slotDropped before after bound := by
  rw [slotDropped, slotDropped, pending_cons_valued ha]
  rcases before with - | ⟨c, before⟩
  · rfl
  · rw [List.getLast?_cons_cons, List.getLast?_cons_cons]

theorem settled_cons_alone {a : String} (ha : takesSingleValue a = false) (rest : List String) :
    settled (a :: rest) = (if overridden slotFlag (.alone a) (slots takesSingleValue rest) then []
      else [a]) ++ settled rest := by
  rw [settled, slots_cons_alone ha, keepLast]
  split_ifs <;> rfl

theorem settled_cons_valued {a b : String} (ha : takesSingleValue a = true) (rest : List String) :
    settled (a :: b :: rest) = (if overridden slotFlag (.valued a b) (slots takesSingleValue rest)
      then [] else [a, b]) ++ settled rest := by
  rw [settled, slots_cons_valued ha, keepLast]
  split_ifs <;> rfl

/-- A settled token is settled at a place of the vector. -/
theorem place_of_settled {args front back : List String} {t : String}
    (ht : takesSingleValue t = false) (h : settled args = front ++ t :: back) :
    ∃ before after, args = before ++ t :: after ∧ slotDropped before after t = false ∧
      settled after = back := by
  induction args using slots.induct takesSingleValue generalizing front with
  | case1 => simp [settled, keepLast] at h
  | case2 a ha =>
    -- the only token waits for a value, so it is another one
    have hone : settled [a] = [a] := by
      simp [settled, slots, keepLast, overridden, ha, Slot.tokens]
    have hmem : t ∈ [a] := by
      rw [← hone, h]
      simp
    obtain rfl : t = a := by simpa using hmem
    rw [ht] at ha
    cases ha
  | case3 a ha b rest ih =>
    rw [settled_cons_valued ha] at h
    have hcons : ∀ front, settled rest = front ++ t :: back →
        ∃ before after, a :: b :: rest = before ++ t :: after ∧
          slotDropped before after t = false ∧ settled after = back := by
      intro front h
      obtain ⟨before, after, rfl, hdropped, hback⟩ := ih h
      exact ⟨a :: b :: before, after, rfl, by rwa [slotDropped_cons_valued ha], hback⟩
    split_ifs at h with hover
    · exact hcons front h
    · rcases front with - | ⟨c, - | ⟨d, front⟩⟩
      · obtain rfl : a = t := (List.cons.inj h).1
        rw [ht] at ha
        cases ha
      · obtain ⟨-, h⟩ := List.cons.inj h
        obtain ⟨rfl, hback⟩ := List.cons.inj h
        refine ⟨[a], rest, rfl, ?_, hback⟩
        simpa [slotDropped, pending, ha, overridden_congr (slotFlag_valued a b)] using hover
      · obtain ⟨-, h⟩ := List.cons.inj h
        exact hcons front (List.cons.inj h).2
  | case4 a rest ha ih =>
    have ha' : takesSingleValue a = false := by simpa using ha
    rw [settled_cons_alone ha'] at h
    have hcons : ∀ front, settled rest = front ++ t :: back →
        ∃ before after, a :: rest = before ++ t :: after ∧
          slotDropped before after t = false ∧ settled after = back := by
      intro front h
      obtain ⟨before, after, rfl, hdropped, hback⟩ := ih h
      exact ⟨a :: before, after, rfl, by rwa [slotDropped_cons_alone ha'], hback⟩
    split_ifs at h with hover
    · exact hcons front h
    · rcases front with - | ⟨c, front⟩
      · obtain ⟨rfl, hback⟩ := List.cons.inj h
        refine ⟨[], rest, rfl, ?_, hback⟩
        simpa [slotDropped] using hover
      · exact hcons front (List.cons.inj h).2

/-- A settled token splits the vector at a place whose slot stands. -/
theorem settled_eq_middle {args front back : List String} {t : String}
    (ht : takesSingleValue t = false) :
    settled args = front ++ t :: back ↔
      ∃ before after, args = before ++ t :: after ∧ slotDropped before after t = false ∧
        keptBefore before after t = front ∧ settled after = back := by
  constructor
  · intro h
    obtain ⟨before, after, rfl, hdropped, hback⟩ := place_of_settled ht h
    rw [settled_middle ht, hdropped, hback] at h
    exact ⟨before, after, rfl, hdropped, by simpa using h, hback⟩
  · rintro ⟨before, after, rfl, hdropped, rfl, rfl⟩
    simp [settled_middle ht, hdropped]

end Middle

/-! ### The bound in the argument vector -/

/-- A token without the byte of `=` is its own flag. -/
theorem flagOf_of_byte {token : String} (h : 61 ∉ token.toByteArray.data.toList) :
    flagOf token = token ∧ hasEq token = false := by
  have hsep : '=' ∉ token.toList := notMem_of_byte (by decide : (61 : UInt8) ∈ _) h
  have hnone : hasEq token = false := by simpa [hasEq] using hsep
  exact ⟨flagOf_of_not_hasEq hnone, hnone⟩

theorem takesFilterValue_flagOf {token : String} (h : takesFilterValue token = true) :
    takesFilterValue (flagOf token) = true := by
  have hcheck : ∀ f ∈ ["--include", "--include-from", "--exclude", "--exclude-from", "--filter",
      "--filter-from", "--filters-file", "--files-from", "--files-from-raw", "--files-from0",
      "-f"], 61 ∉ f.toByteArray.data.toList := by
    decide +kernel
  rwa [(flagOf_of_byte (hcheck token (takesFilterValue_iff.mp h))).1]

theorem flagOf_inline {flag : String} (h : '=' ∉ flag.toList) (value : String) :
    flagOf (flag ++ "=" ++ value) = flag :=
  beforeSep_append h value

theorem hasEq_inline (flag value : String) : hasEq (flag ++ "=" ++ value) = true := by
  simp [hasEq]

/-- The bound as the program writes it. -/
def boundToken (tuning pair : Dict) : String :=
  "--max-delete" ++ "=" ++ pyStr (effectiveMaxDelete tuning pair)

/-- A token of the form `--max-delete=V`. -/
def isBoundToken (token : String) : Bool := startsWith token "--max-delete="

theorem flagOf_boundToken (tuning pair : Dict) : flagOf (boundToken tuning pair) = "--max-delete" :=
  flagOf_inline (by decide) _

theorem isBoundToken_boundToken (tuning pair : Dict) :
    isBoundToken (boundToken tuning pair) = true := by
  have hword : "--max-delete" ++ "=" = "--max-delete=" := by decide +kernel
  rw [isBoundToken, boundToken, hword]
  exact startsWith_append _ _

theorem flagOf_of_isBoundToken {t : String} (h : isBoundToken t = true) :
    flagOf t = "--max-delete" := by
  obtain ⟨rest, hrest⟩ := List.isPrefixOf_iff_prefix.mp h
  have ht : t = "--max-delete" ++ "=" ++ String.ofList rest := by
    rw [← String.toList_inj]
    simpa using hrest.symm
  rw [ht]
  exact flagOf_inline (by decide) _

theorem boundToken_plain (tuning pair : Dict) : PlainToken (boundToken tuning pair) := by
  have hflag := flagOf_boundToken tuning pair
  have hlong : startsWith (boundToken tuning pair) "-f" = false := by
    simp [boundToken, startsWith, List.isPrefixOf]
  have hlong' : startsWith (boundToken tuning pair) "-f=" = false := by
    simp [boundToken, startsWith, List.isPrefixOf]
  have hdash : startsWith (boundToken tuning pair) "--" = true := by
    simp [boundToken, startsWith]
  refine ⟨?_, ?_, ?_, ?_⟩
  · by_contra h
    have htakes := takesFilterValue_flagOf (Bool.not_eq_false _ ▸ h)
    rw [hflag] at htakes
    revert htakes
    decide
  · simp [aliasToken, hlong, hlong', hdash]
  · simp [refusedToken, hflag]
  · rw [hflag]
    rfl

/-- The bound of the pair goes before the one of the tuning. -/
example : boundToken [("max_delete", .int 7)] photoPair = "--max-delete=5" := by decide +kernel

theorem takesSingleValue_boundToken (tuning pair : Dict) :
    takesSingleValue (boundToken tuning pair) = false := by
  simp [takesSingleValue, boundToken, hasEq]

theorem takesValue_boundToken (tuning pair : Dict) :
    takesValue (boundToken tuning pair) = false := by
  rw [takesValue, takesSingleValue_boundToken, (boundToken_plain tuning pair).noValue]
  rfl

/-- The structured arguments in front of the effective bound. -/
def structuredFront (s : ArgSources) (tuning pair : Dict) : List String :=
  if pair.has "max_delete" then s.tuningArgs ++ structuredBefore pair else structuredBefore tuning

/-- The structured arguments behind it. -/
def structuredBack (s : ArgSources) (tuning pair : Dict) (verb : String) : List String :=
  if pair.has "max_delete" then structuredAfter pair verb
  else structuredAfter tuning verb ++ s.pairArgs

def argsBeforeBound (s : ArgSources) (tuning pair : Dict) : List String :=
  s.base ++ s.verbArgs ++ structuredFront s tuning pair

def argsAfterBound (s : ArgSources) (tuning pair : Dict) (verb : String) : List String :=
  structuredBack s tuning pair verb ++ (s.filters ++ s.own ++ s.backupDir)

section Sources

variable {env : PairEnv} {cfg backup tuning pair : Dict} {route : PairRoute}
  {baseArgs : List String} {s : ArgSources}

/-- The sources a successful collection consists of. -/
theorem argSources_ok (h : argSources env cfg backup pair route baseArgs = .ok s) :
    validateParsedRcloneArgs baseArgs (truthy (backup.get "allow_unsafe_rclone_args"))
        = .ok s.base ∧
      s.verbArgs = globalVerbArgs backup route.verb ∧
      s.tuningArgs = structuredRcloneArgs (tuningValue backup) route.verb ∧
      s.pairArgs = structuredRcloneArgs (.dict pair) route.verb ∧
      filterArgs env cfg pair route.verb = .ok s.filters ∧
      validateRcloneArgs (pair.get "rclone_args")
        (truthy (backup.get "allow_unsafe_rclone_args")) = .ok s.own ∧
      s.backupDir = backupDirArgs env backup pair route.verb route.src route.dst := by
  simp only [argSources, bind_ok] at h
  obtain ⟨base, hbase, filters, hfilters, own, hown, h⟩ := h
  obtain rfl := Except.ok.inj h
  exact ⟨hbase, rfl, rfl, rfl, hfilters, hown, rfl⟩

theorem tuningSection_ok (h : tuningSection backup = .ok tuning) :
    tuningValue backup = .dict tuning := by
  unfold tuningSection at h
  split at h
  · rename_i d hd
    rw [hd, Except.ok.inj h]
  · cases h

/-- A value that bounds the deletions is set. -/
theorem isSet_of_bounded {v : Value} (h : unboundedDelete v = false) : isSet v = true := by
  simp only [unboundedDelete, pyIn, List.any_cons, List.any_nil, Bool.or_eq_false_iff] at h
  simp [isSet, pyIn, h.1, h.2.1]

theorem structuredRcloneArgs_dict (d : Dict) {verb : String} (hverb : deletingVerb verb = true) :
    structuredRcloneArgs (.dict d) verb
      = structuredBefore d ++ valueArg d "max_delete" "--max-delete" ++ structuredAfter d verb := by
  simp [structuredRcloneArgs, asDict, hverb]

/-- The argument vector around its effective bound. -/
theorem vector_eq (hs : argSources env cfg backup pair route baseArgs = .ok s)
    (htuning : tuningSection backup = .ok tuning) (hverb : deletingVerb route.verb = true)
    (hbound : unboundedDelete (effectiveMaxDelete tuning pair) = false) :
    s.vector = argsBeforeBound s tuning pair ++
      boundToken tuning pair :: argsAfterBound s tuning pair route.verb := by
  obtain ⟨-, -, htuningArgs, hpairArgs, -, -, -⟩ := argSources_ok hs
  have hset := isSet_of_bounded hbound
  rcases hlookup : pair.lookup "max_delete" with - | v
  · have hhas : pair.has "max_delete" = false := by simp [Dict.has, hlookup]
    have heff : effectiveMaxDelete tuning pair = tuning.get "max_delete" := by
      simp [effectiveMaxDelete, Dict.getOr, hlookup]
    have harg : valueArg tuning "max_delete" "--max-delete" = [boundToken tuning pair] := by
      rw [heff] at hset
      simp [valueArg, boundToken, heff, hset]
    rw [tuningSection_ok htuning, structuredRcloneArgs_dict tuning hverb, harg] at htuningArgs
    simp [ArgSources.vector, argsBeforeBound, argsAfterBound, structuredFront, structuredBack,
      hhas, htuningArgs]
  · have hhas : pair.has "max_delete" = true := by simp [Dict.has, hlookup]
    have heff : effectiveMaxDelete tuning pair = pair.get "max_delete" := by
      simp [effectiveMaxDelete, Dict.getOr, Dict.get, hlookup]
    have harg : valueArg pair "max_delete" "--max-delete" = [boundToken tuning pair] := by
      rw [heff] at hset
      simp [valueArg, boundToken, heff, hset]
    rw [structuredRcloneArgs_dict pair hverb, harg] at hpairArgs
    simp [ArgSources.vector, argsBeforeBound, argsAfterBound, structuredFront, structuredBack,
      hhas, hpairArgs]

end Sources

/-! ### The bound in the command -/

/-- The arguments in front of the separator that ends the command. -/
def argsBeforeSeparator (c : PairCommand) : List String := c.cmd.take (c.cmd.length - 3)

/-- The bound reaches rclone: it is the only token of its form, and it stands in flag
position. -/
def BoundReaches (c : PairCommand) (bound : String) : Prop :=
  (argsBeforeSeparator c).filter isBoundToken = [bound] ∧
    bound ∈ flagTokens takesValue (argsBeforeSeparator c)

instance (c : PairCommand) (bound : String) : Decidable (BoundReaches c bound) := by
  unfold BoundReaches
  infer_instance

/-- No text is written like a delete bound. -/
def NoBound (texts : List String) : Prop := ∀ t ∈ texts, isBoundToken t = false

instance (texts : List String) : Decidable (NoBound texts) := by
  unfold NoBound
  infer_instance

/-- A place of the arguments lets the bound stand that it holds. -/
structure BoundStands (before after : List String) (bound : String) : Prop where
  /-- The slot that holds the bound is not set again behind it. -/
  kept : slotDropped before after bound = false
  /-- The bound does not follow a filter flag that waits for its value. -/
  noFilterValue : pending takesFilterValue (keptBefore before after bound) = false
  /-- Once the filters are moved away, it follows no flag that waits. -/
  noFlagValue : pending takesValue (otherTokens (keptBefore before after bound)) = false
  /-- No other bound is left, neither in front of it nor behind it. -/
  only : NoBound (otherTokens (keptBefore before after bound) ++ otherTokens (settled after))

/-- The filter lines of a vector, as they are written. -/
def filterLines (env : PairEnv) (args : List String) : List String :=
  (filterSlots args).flatMap fun f =>
    if f.1 = .filter ∨ f.1 = .filterFrom then (filterValues env f.1 f.2).toOption.getD [] else []

/-- The texts that end up behind the arguments: the filter lines, or for bisync the path of
the file that holds the rules. -/
def filterTexts (env : PairEnv) (cfg : Dict) (verb : String) (args : List String) :
    List String :=
  if verb = "bisync" then
    match configGet₂ cfg "paths" "data_dir" (.str "/opt/rclone-sync/data") with
    | .str directory =>
      let content := filterFileContent (compiledRules env args)
      [protectedFilterPath directory (env.sha256hex content ++ ".txt")]
    | _ => []
  else filterLines env args

/-- A text outside the arguments takes the place of the bound: one of the head of the command,
or the path of the filter file behind a flag that waits. -/
structure NamedOutside (head args texts : List String) (verb bound : String) : Prop where
  noneInside : NoBound (otherTokens (settled args))
  place : (head.filter isBoundToken = [bound] ∧ bound ∈ flagTokens takesValue head ∧
      NoBound texts) ∨
    (NoBound head ∧ verb = "bisync" ∧ texts = [bound] ∧
      pending takesValue (otherTokens (settled args)) = true)

/-- The configured texts let the bound through. -/
def LetsThrough (head args texts : List String) (verb bound : String) : Prop :=
  (NoBound (head ++ texts) ∧
    ∃ before after, args = before ++ bound :: after ∧ BoundStands before after bound) ∨
  NamedOutside head args texts verb bound

theorem noBound_append {xs ys : List String} : NoBound (xs ++ ys) ↔ NoBound xs ∧ NoBound ys :=
  List.forall_mem_append

theorem filter_eq_nil_iff_noBound {xs : List String} :
    xs.filter isBoundToken = [] ↔ NoBound xs := by
  simp [NoBound]

theorem NoBound.notMem {xs : List String} {bound : String} (h : NoBound xs)
    (hb : isBoundToken bound = true) : bound ∉ xs := by
  intro hmem
  rw [h bound hmem] at hb
  cases hb

/-- The one bound of a list is the place that splits it. -/
theorem filter_eq_singleton_iff {xs : List String} {bound : String}
    (hb : isBoundToken bound = true) :
    xs.filter isBoundToken = [bound] ↔
      ∃ front back, xs = front ++ bound :: back ∧ NoBound front ∧ NoBound back := by
  rw [List.filter_eq_cons_iff]
  constructor
  · rintro ⟨front, back, rfl, hfront, -, hback⟩
    exact ⟨front, back, rfl, fun t ht => by simpa using hfront t ht,
      filter_eq_nil_iff_noBound.mp hback⟩
  · rintro ⟨front, back, rfl, hfront, hback⟩
    exact ⟨front, back, rfl, fun t ht => by simp [hfront t ht], hb,
      filter_eq_nil_iff_noBound.mpr hback⟩

theorem PlainToken.slotFilter_alone {t : String} (h : PlainToken t) :
    slotFilter (.alone t) = none := by
  rcases aliasToken_ok h.copied with ⟨-, hs, hs'⟩ | ⟨v, hv, -⟩
  · simp [slotFilter, hs, hs', h.group]
  · have hg := h.group
    rw [hv, flagOf_filter] at hg
    cases hg

/-- A flag that takes a filter value is not among the other tokens, if these are plain, and
neither is its value. -/
theorem otherTokens_cons_valued {a b : String} {rest : List String}
    (ha : takesFilterValue a = true) (hplain : ∀ u ∈ otherTokens (a :: b :: rest), PlainToken u) :
    otherTokens (a :: b :: rest) = otherTokens rest := by
  rcases hs : slotFilter (.valued a b) with - | f
  · have hmem : a ∈ otherTokens (a :: b :: rest) := by
      simp [otherTokens, slots_cons_valued ha, hs, Slot.tokens]
    have := (hplain a hmem).noValue
    rw [ha] at this
    cases this
  · exact otherTokens_pair ha hs

/-- A token that belongs to no filter splits the vector where no filter flag waits. -/
theorem split_of_otherTokens {xs front back : List String} {t : String}
    (hplain : ∀ u ∈ otherTokens xs, PlainToken u) (h : otherTokens xs = front ++ t :: back) :
    ∃ ys zs, xs = ys ++ t :: zs ∧ pending takesFilterValue ys = false ∧
      otherTokens ys = front ∧ otherTokens zs = back := by
  induction xs using slots.induct takesFilterValue generalizing front with
  | case1 => simp at h
  | case2 a ha =>
    have hmem : t ∈ otherTokens [a] := by simp [h]
    obtain rfl : t = a := by simpa using otherTokens_subset hmem
    have := (hplain t hmem).noValue
    rw [ha] at this
    cases this
  | case3 a ha b rest ih =>
    have hpair := otherTokens_cons_valued ha hplain
    rw [hpair] at hplain h
    obtain ⟨ys, zs, rfl, hys, hfront, hback⟩ := ih hplain h
    have hmoved : otherTokens (a :: b :: ys) = otherTokens ys := by
      rw [← List.append_cancel_right_eq _ (otherTokens (t :: zs)), ← otherTokens_append hys,
        ← otherTokens_append (by rwa [pending_cons_valued ha])]
      exact hpair
    exact ⟨a :: b :: ys, zs, rfl, by rwa [pending_cons_valued ha], by rw [hmoved, hfront], hback⟩
  | case4 a rest ha ih =>
    have ha' : takesFilterValue a = false := by simpa using ha
    rcases hs : slotFilter (.alone a) with - | f
    · rw [otherTokens_keep ha' hs] at h hplain
      rcases front with - | ⟨c, front⟩
      · obtain ⟨rfl, hback⟩ := List.cons.inj h
        exact ⟨[], rest, rfl, rfl, rfl, hback⟩
      · obtain ⟨rfl, hrest⟩ := List.cons.inj h
        obtain ⟨ys, zs, rfl, hys, rfl, hback⟩ :=
          ih (fun u hu => hplain u (List.mem_cons_of_mem _ hu)) hrest
        exact ⟨a :: ys, zs, rfl, by rwa [pending_cons_alone ha'], otherTokens_keep ha' hs, hback⟩
    · rw [otherTokens_inline ha' hs] at h hplain
      obtain ⟨ys, zs, rfl, hys, rfl, hback⟩ := ih hplain h
      exact ⟨a :: ys, zs, rfl, by rwa [pending_cons_alone ha'], otherTokens_inline ha' hs, hback⟩

/-- A bound among the settled arguments that belong to no filter stands at a place of the
vector. -/
theorem standing_iff {args : List String} {bound : String}
    (hplain : ∀ u ∈ otherTokens (settled args), PlainToken u)
    (hsingle : takesSingleValue bound = false) (hbound : PlainToken bound) :
    (∃ front back, otherTokens (settled args) = front ++ bound :: back ∧
      NoBound front ∧ NoBound back ∧ pending takesValue front = false) ↔
    ∃ before after, args = before ++ bound :: after ∧ BoundStands before after bound := by
  constructor
  · rintro ⟨front, back, h, hfront, hback, hopen⟩
    obtain ⟨ys, zs, hsplit, hys, rfl, rfl⟩ := split_of_otherTokens hplain h
    obtain ⟨before, after, rfl, hkept, rfl, rfl⟩ := (settled_eq_middle hsingle).mp hsplit
    exact ⟨before, after, rfl, hkept, hys, hopen, noBound_append.mpr ⟨hfront, hback⟩⟩
  · rintro ⟨before, after, rfl, hstands⟩
    obtain ⟨hfront, hback⟩ := noBound_append.mp hstands.only
    refine ⟨_, _, ?_, hfront, hback, hstands.noFlagValue⟩
    rw [(settled_eq_middle hsingle).mpr ⟨before, after, rfl, hstands.kept, rfl, rfl⟩,
      otherTokens_append hstands.noFilterValue,
      otherTokens_keep hbound.noValue hbound.slotFilter_alone]

section Reaches

variable {bound : String} {head others tail : List String}

/-- Where the one bound of a command may stand. -/
theorem reaches_append_iff (hb : isBoundToken bound = true) (hvalue : takesValue bound = false)
    (hopen : pending takesValue head = false) :
    ((head ++ (others ++ tail)).filter isBoundToken = [bound] ∧
        bound ∈ flagTokens takesValue (head ++ (others ++ tail))) ↔
      (NoBound head ∧ NoBound tail ∧ ∃ front back, others = front ++ bound :: back ∧
        NoBound front ∧ NoBound back ∧ pending takesValue front = false) ∨
      (head.filter isBoundToken = [bound] ∧ bound ∈ flagTokens takesValue head ∧
        NoBound others ∧ NoBound tail) ∨
      (NoBound head ∧ NoBound others ∧ tail.filter isBoundToken = [bound] ∧
        bound ∈ flagTokens takesValue (others ++ tail)) := by
  have hflags : bound ∈ flagTokens takesValue (head ++ (others ++ tail)) ↔
      bound ∈ flagTokens takesValue head ∨ bound ∈ flagTokens takesValue (others ++ tail) := by
    rw [flagTokens_append hopen, List.mem_append]
  have hnotHead : NoBound head → bound ∉ flagTokens takesValue head :=
    fun h hmem => h.notMem hb (flagTokens_subset hmem)
  have hright : ∀ {back}, NoBound back → NoBound tail → bound ∉ back ++ tail :=
    fun hback htail => (noBound_append.mpr ⟨hback, htail⟩).notMem hb
  rw [hflags, List.filter_append, List.filter_append, List.append_eq_singleton_iff,
    List.append_eq_singleton_iff, List.append_eq_nil_iff]
  simp only [filter_eq_nil_iff_noBound]
  constructor
  · rintro ⟨⟨hhead, ⟨hothers, htail⟩ | ⟨hothers, htail⟩⟩ | ⟨hhead, hothers, htail⟩, hflag⟩
    · exact Or.inr (Or.inr ⟨hhead, hothers, htail, hflag.resolve_left (hnotHead hhead)⟩)
    · obtain ⟨front, back, rfl, hfront, hback⟩ := (filter_eq_singleton_iff hb).mp hothers
      have hmem := hflag.resolve_left (hnotHead hhead)
      rw [List.append_assoc, List.cons_append,
        mem_flagTokens_middle (hfront.notMem hb) (hright hback htail) hvalue] at hmem
      exact Or.inl ⟨hhead, htail, front, back, rfl, hfront, hback, hmem⟩
    · refine Or.inr (Or.inl ⟨hhead, hflag.resolve_right fun hmem => ?_, hothers, htail⟩)
      exact (noBound_append.mpr ⟨hothers, htail⟩).notMem hb (flagTokens_subset hmem)
  · rintro (⟨hhead, htail, front, back, rfl, hfront, hback, hopen'⟩ |
      ⟨hhead, hflag, hothers, htail⟩ | ⟨hhead, hothers, htail, hflag⟩)
    · have hone := (filter_eq_singleton_iff hb).mpr ⟨front, back, rfl, hfront, hback⟩
      refine ⟨Or.inl ⟨hhead, Or.inr ⟨hone, htail⟩⟩, Or.inr ?_⟩
      rwa [List.append_assoc, List.cons_append,
        mem_flagTokens_middle (hfront.notMem hb) (hright hback htail) hvalue]
    · exact ⟨Or.inr ⟨hhead, hothers, htail⟩, Or.inl hflag⟩
    · exact ⟨Or.inl ⟨hhead, Or.inl ⟨hothers, htail⟩⟩, Or.inr hflag⟩

end Reaches

/-! ### The rewritten vector -/

/-- The filter lines are the rules of the two filter groups. -/
theorem ReadsSlots.mem_filterLines {env : PairEnv} {args : List String} {r : FilterRead}
    (hr : ReadsSlots env args r) (line : String) :
    line ∈ filterLines env args ↔ line ∈ r.group .filter ++ r.group .filterFrom := by
  have hentries : line ∈ filterLines env args ↔
      ∃ e ∈ r.entries, (e.1 = .filter ∨ e.1 = .filterFrom) ∧ line ∈ e.2 := by
    have hread := hr.entries
    rw [filterLines]
    generalize filterSlots args = filters at hread ⊢
    generalize r.entries = entries at hread ⊢
    induction hread with
    | nil => simp
    | cons h _ ih =>
      obtain ⟨hgroup, hvalues⟩ := h
      rw [List.flatMap_cons, List.mem_append, List.exists_mem_cons_iff, hgroup, hvalues]
      refine or_congr ?_ ih
      simp [Except.toOption]
  simp only [hentries, FilterRead.group, List.mem_append, List.mem_flatMap, List.mem_filter,
    decide_eq_true_eq]
  constructor
  · rintro ⟨e, he, hgroup | hgroup, hline⟩
    · exact Or.inl ⟨e, ⟨he, hgroup⟩, hline⟩
    · exact Or.inr ⟨e, ⟨he, hgroup⟩, hline⟩
  · rintro (⟨e, ⟨he, hgroup⟩, hline⟩ | ⟨e, ⟨he, hgroup⟩, hline⟩)
    · exact ⟨e, he, Or.inl hgroup, hline⟩
    · exact ⟨e, he, Or.inr hgroup, hline⟩

/-- Only a filter line gives a rule that is written like a bound. -/
theorem ReadsSlots.noBound_rules {env : PairEnv} {args : List String} {r : FilterRead}
    (hr : ReadsSlots env args r) : NoBound r.rules ↔ NoBound (filterLines env args) := by
  have hsigned : ∀ v, isBoundToken ("- " ++ v) = false ∧ isBoundToken ("+ " ++ v) = false := by
    intro v
    simp [isBoundToken, startsWith, List.isPrefixOf]
  constructor
  · intro h line hline
    refine h line (mem_rules.mpr (Or.inr ?_))
    have := (hr.mem_filterLines line).mp hline
    simp only [FilterRead.userRules, List.mem_append] at this ⊢
    tauto
  · intro h rule hrule
    have hreserved : ∀ rule ∈ reservedRules, isBoundToken rule = false := by decide
    rcases mem_rules.mp hrule with hrule | hrule
    · exact hreserved rule hrule
    · rcases userRules_cases hrule with rfl | hrule | ⟨e, -, v, -, rfl | rfl⟩
      · decide
      · exact h rule ((hr.mem_filterLines rule).mpr hrule)
      · exact (hsigned v).1
      · exact (hsigned v).2

theorem protectedFilterArgs_reads {env : PairEnv} {args out : List String}
    (h : protectedFilterArgs env args = .ok out) :
    ∃ r, ReadsSlots env args r ∧ compiledRules env args = r.rules := by
  unfold protectedFilterArgs at h
  rcases hn : normalizeFilterAliases args with e | normalized
  · simp [hn] at h
  · rcases hr : readFilters env normalized with e | r
    · simp [hn, hr] at h
    · exact ⟨r, readFilters_slots hn hr, by simp [compiledRules, hn, hr]⟩

/-- What stands behind the other tokens of a command, by the texts it is made of. -/
structure TailReads (tail texts : List String) (verb bound : String) : Prop where
  noBound : NoBound tail ↔ NoBound texts
  place : ∀ xs, NoBound xs →
    (tail.filter isBoundToken = [bound] ∧ bound ∈ flagTokens takesValue (xs ++ tail) ↔
      verb = "bisync" ∧ texts = [bound] ∧ pending takesValue xs = true)

theorem filter_filterPairs (rules : List String) :
    (filterPairs rules).filter isBoundToken = rules.filter isBoundToken := by
  have hfilter : isBoundToken "--filter" = false := by decide
  induction rules with
  | nil => rfl
  | cons rule rules ih =>
    have hcons : filterPairs (rule :: rules) = "--filter" :: rule :: filterPairs rules := rfl
    rw [hcons, List.filter_cons, List.filter_cons, List.filter_cons, ih]
    simp [hfilter]

/-- A rule is never in flag position, but for the first one. -/
theorem tailReads_rules {rules user texts : List String} {verb bound : String}
    (hb : isBoundToken bound = true) (hverb : verb ≠ "bisync")
    (huser : rules = reservedRules ++ user) (htexts : NoBound rules ↔ NoBound texts) :
    TailReads (filterPairs rules) texts verb bound := by
  have hbound := flagOf_of_isBoundToken hb
  refine ⟨?_, fun xs hxs => ⟨fun h => ?_, fun h => absurd h.1 hverb⟩⟩
  · rw [← filter_eq_nil_iff_noBound, filter_filterPairs, filter_eq_nil_iff_noBound, htexts]
  · have hcons : rules = "- /Sicherpfad/**" :: (reservedRules.tail ++ user) := huser
    have hflag := h.2
    rw [hcons] at hflag
    rcases flagTokens_append_filterPairs (by decide) (by decide) _ hflag with h | rfl | rfl
    · exact absurd h (hxs.notMem hb)
    · exact absurd hbound (by decide)
    · exact absurd hbound (by decide)

/-- The path of the filter file is the value of its flag, unless a flag before it waits. -/
theorem tailReads_file {target bound : String} (hb : isBoundToken bound = true)
    (hvalue : takesValue bound = false) :
    TailReads ["--filters-file", target] [target] "bisync" bound := by
  have hflag : isBoundToken "--filters-file" = false := by decide
  have htakes : takesValue "--filters-file" = true := by decide
  have hfilter : ["--filters-file", target].filter isBoundToken
      = [target].filter isBoundToken := by
    rw [List.filter_cons, hflag]
    rfl
  refine ⟨?_, fun xs hxs => ?_⟩
  · rw [← filter_eq_nil_iff_noBound, hfilter, filter_eq_nil_iff_noBound]
  · have honly : [target].filter isBoundToken = [bound] ↔ target = bound := by
      constructor
      · intro h
        have : bound ∈ [target].filter isBoundToken := by simp [h]
        simpa [eq_comm] using (List.mem_filter.mp this).1
      · rintro rfl
        simp [hb]
    have hplace : bound ∈ flagTokens takesValue (xs ++ ["--filters-file", bound]) ↔
        pending takesValue xs = true := by
      have hne : bound ∉ [ "--filters-file"] := by
        intro hmem
        rw [← List.mem_singleton.mp hmem, hb] at hflag
        cases hflag
      rcases hp : pending takesValue xs with - | -
      · have hread : flagTokens takesValue ["--filters-file", bound] = ["--filters-file"] := by
          rw [flagTokens, slots_cons_valued htakes]
          rfl
        simp only [flagTokens_append hp, hread, List.mem_append, hne, or_false, Bool.false_eq_true,
          iff_false]
        exact fun hmem => hxs.notMem hb (flagTokens_subset hmem)
      · obtain ⟨ys, a, rfl, ha, hys⟩ := pending_eq_true hp
        rw [flagTokens, slots_append_pending hys ha, slots_cons_alone hvalue]
        simp [Slot.head]
    rw [hfilter, honly]
    constructor
    · rintro ⟨rfl, hmem⟩
      exact ⟨rfl, rfl, hplace.mp hmem⟩
    · rintro ⟨-, htexts, hp⟩
      obtain rfl : target = bound := by simpa using htexts
      exact ⟨rfl, hplace.mpr hp⟩

/-- Both passes leave the other tokens, followed by the rules or by the file of the rules. -/
theorem rewrittenArgs_ok {env : PairEnv} {cfg : Dict} {verb bound : String}
    {args effective : List String} {file : Option String}
    (h : rewrittenArgs env cfg verb args = .ok (effective, file))
    (hb : isBoundToken bound = true) (hvalue : takesValue bound = false) :
    (∀ t ∈ otherTokens (settled args), PlainToken t) ∧
      ∃ tail, effective = otherTokens (settled args) ++ tail ∧
        TailReads tail (filterTexts env cfg verb (settled args)) verb bound := by
  simp only [rewrittenArgs, bind_ok, dedupe_eq_settled] at h
  obtain ⟨compiled, hcompiled, h⟩ := h
  obtain ⟨r, hreads, hrules⟩ := protectedFilterArgs_reads hcompiled
  obtain ⟨rfl, hplain, user, huser⟩ := protectedFilterArgs_shape hcompiled
  refine ⟨hplain, ?_⟩
  split_ifs at h with hverb
  · simp only [bind_ok] at h
    obtain ⟨⟨snapshot, content⟩, hsnapshot, h⟩ := h
    obtain ⟨rfl, -⟩ := Prod.mk.inj (Except.ok.inj h)
    have hnofilter : "--filter" ∉ otherTokens (settled args) := by
      intro hmem
      have := (hplain _ hmem).noValue
      revert this
      decide
    simp only [bisyncFilterSnapshot, splitFilterRules_append hnofilter] at hsnapshot
    split at hsnapshot
    · rename_i directory hdirectory
      obtain ⟨rfl, -⟩ := Prod.mk.inj (Except.ok.inj hsnapshot)
      refine ⟨_, rfl, ?_⟩
      rw [filterTexts, if_pos hverb, hdirectory, hverb]
      exact tailReads_file hb hvalue
    · cases hsnapshot
  · obtain ⟨rfl, -⟩ := Prod.mk.inj (Except.ok.inj h)
    refine ⟨_, rfl, tailReads_rules hb hverb huser ?_⟩
    rw [filterTexts, if_neg hverb, hrules]
    exact hreads.noBound_rules

/-! ### Main result -/

section Main

variable {env : PairEnv} {cfg backup tuning pair : Dict} {baseArgs : List String}
  {c : PairCommand} {s : ArgSources}

/-- A deleting command that may run has a bound. -/
theorem bounded_of_guard {verb : String} (hverb : deletingVerb verb = true)
    (hrequire : truthy (Dict.getOr backup "require_max_delete_for_sync" (.bool true)) = true)
    (h : deleteGuard backup tuning pair verb false = .ok ()) :
    unboundedDelete (effectiveMaxDelete tuning pair) = false := by
  by_contra hun
  have hun' : unboundedDelete (effectiveMaxDelete tuning pair) = true := by simpa using hun
  simp only [deleteGuard, hverb, Bool.not_false, Bool.and_self, if_true, checkDeleteAllowed,
    hrequire, hun'] at h
  split_ifs at h

theorem argsBeforeSeparator_eq {head effective : List String} {src dst : String}
    (h : c.cmd = head ++ effective ++ ["--", src, dst]) :
    argsBeforeSeparator c = head ++ effective := by
  have hlen : c.cmd.length - 3 = (head ++ effective).length := by
    rw [h]
    simp only [List.length_append, List.length_cons, List.length_nil]
    omega
  rw [argsBeforeSeparator, hlen, h, List.take_left]

theorem pending_commandHead (env : PairEnv) (verb interval : String) :
    pending takesValue (commandHead env verb interval) = false := by
  have hlast : commandHead env verb interval
      = ["rclone", verb] ++ rcloneCacheArgs env verb ++ ["--stats", interval] ++
        ["--stats-one-line"] := by
    simp [commandHead]
  rw [hlast]
  exact pending_concat (by decide) _

/-- **The delete bound reaches rclone** exactly when the configured texts let it through; the
arguments hold it at its place in any case. -/
theorem boundReaches_iff (h : buildPairCommand env cfg pair baseArgs false = .ok c)
    (hverb : deletingVerb c.route.verb = true) (hbackup : backupSection cfg = .ok backup)
    (htuning : tuningSection backup = .ok tuning)
    (hs : argSources env cfg backup pair c.route baseArgs = .ok s)
    (hrequire : truthy (Dict.getOr backup "require_max_delete_for_sync" (.bool true)) = true) :
    s.vector = argsBeforeBound s tuning pair ++
      boundToken tuning pair :: argsAfterBound s tuning pair c.route.verb ∧
    (BoundReaches c (boundToken tuning pair) ↔
      LetsThrough (commandHead env c.route.verb (tuning.textOr "stats_interval" "10s")) s.vector
        (filterTexts env cfg c.route.verb (settled s.vector)) c.route.verb
        (boundToken tuning pair)) := by
  obtain ⟨b⟩ := buildPairCommand_ok h
  obtain rfl : b.backup = backup := Except.ok.inj (b.backup_eq.symm.trans hbackup)
  obtain rfl : b.tuning = tuning := Except.ok.inj (b.tuning_eq.symm.trans htuning)
  obtain rfl : b.sources = s := Except.ok.inj (b.sources_eq.symm.trans hs)
  refine ⟨vector_eq hs htuning hverb (bounded_of_guard hverb hrequire b.guard_eq), ?_⟩
  have hb := isBoundToken_boundToken b.tuning pair
  have hvalue := takesValue_boundToken b.tuning pair
  obtain ⟨hplain, tail, heffective, htail⟩ := rewrittenArgs_ok b.effective_eq hb hvalue
  rw [BoundReaches, argsBeforeSeparator_eq (b.cmd_eq rfl), heffective,
    reaches_append_iff hb hvalue (pending_commandHead _ _ _), htail.noBound,
    standing_iff hplain (takesSingleValue_boundToken b.tuning pair)
      (boundToken_plain b.tuning pair)]
  constructor
  · rintro (⟨hhead, htexts, hstands⟩ | ⟨hhead, hflag, hothers, htexts⟩ | ⟨hhead, hothers, hplace⟩)
    · exact Or.inl ⟨noBound_append.mpr ⟨hhead, htexts⟩, hstands⟩
    · exact Or.inr ⟨hothers, Or.inl ⟨hhead, hflag, htexts⟩⟩
    · exact Or.inr ⟨hothers, Or.inr ⟨hhead, (htail.place _ hothers).mp hplace⟩⟩
  · rintro (⟨hfree, hstands⟩ | ⟨hothers, ⟨hhead, hflag, htexts⟩ | ⟨hhead, hplace⟩⟩)
    · obtain ⟨hhead, htexts⟩ := noBound_append.mp hfree
      exact Or.inl ⟨hhead, htexts, hstands⟩
    · exact Or.inr (Or.inl ⟨hhead, hflag, hothers, htexts⟩)
    · exact Or.inr (Or.inr ⟨hhead, hothers, (htail.place _ hothers).mpr hplace⟩)

end Main

def photoSources (base : List String) : ArgSources where
  base := base
  verbArgs := []
  tuningArgs := []
  pairArgs := ["--max-delete=5"]
  filters := filterPairs reservedRules
  own := []
  backupDir := []

theorem photo_built : argSources photoEnv [] [] photoPair
      (photoCommand ["--fast-list", "--max-delete=5"]).route ["--fast-list"]
        = .ok (photoSources ["--fast-list"]) ∧
    buildPairCommand photoEnv [] photoPair ["--fast-list"] false
      = .ok (photoCommand ["--fast-list", "--max-delete=5"]) := by
  have hbase : validateParsedRcloneArgs ["--fast-list"] false = .ok ["--fast-list"] :=
    validateParsed_harmless (by decide) (by decide +kernel) (by decide +kernel)
      (by simpa using harmless_fastList) false
  have hsources : argSources photoEnv [] [] photoPair
      (photoCommand ["--fast-list", "--max-delete=5"]).route ["--fast-list"]
        = .ok (photoSources ["--fast-list"]) :=
    argSources_of_parts hbase (by decide +kernel) rfl (by decide +kernel)
      (by decide +kernel) (by decide +kernel) (by decide +kernel)
  have hkept : dedupeSingleValueRcloneArgs (photoSources ["--fast-list"]).vector
      = (photoSources ["--fast-list"]).vector := by
    decide +kernel
  have hrewritten : rewrittenArgs photoEnv [] "sync" (photoSources ["--fast-list"]).vector
      = .ok (["--fast-list", "--max-delete=5"] ++ filterPairs reservedRules, none) :=
    rewrittenArgs_of_parts (by decide) hkept (by decide +kernel)
  exact ⟨hsources, buildPairCommand_of_sources (by decide +kernel) rfl rfl (by decide +kernel)
    hsources hrewritten (by decide +kernel)⟩

/-- With complete base arguments the bound arrives. -/
theorem boundReaches_photo : BoundReaches (photoCommand ["--fast-list", "--max-delete=5"])
    (boundToken [] photoPair) := by
  obtain ⟨hs, hbuild⟩ := photo_built
  have hstands : BoundStands ["--fast-list"] (filterPairs reservedRules)
      (boundToken [] photoPair) :=
    ⟨by decide +kernel, by decide +kernel, by decide +kernel, by decide +kernel⟩
  exact (boundReaches_iff hbuild (by decide) rfl rfl hs (by decide)).2.mpr
    (Or.inl ⟨by decide +kernel, _, _, by decide +kernel, hstands⟩)

theorem validate_includeBase :
    validateParsedRcloneArgs ["--include"] false = .ok ["--include"] := by
  have hharmless : Harmless "--include" :=
    ⟨by decide +kernel, by decide +kernel, by decide +kernel, by decide +kernel, by decide +kernel⟩
  exact validateParsed_harmless (by decide) (by decide +kernel) (by decide +kernel)
    (by simpa using hharmless) false

/-- A base argument list that validation accepts, ending in a flag without its value, turns
the bound into a filter rule. -/
theorem bound_compiled_away :
    validateRcloneArgs (.list [.str "--include"]) false = .ok ["--include"] ∧
    ∃ c, buildPairCommand photoEnv [] photoPair ["--include"] false = .ok c ∧
      c.route.verb = "sync" ∧ "+ --max-delete=5" ∈ c.cmd ∧
      ¬ BoundReaches c (boundToken [] photoPair) := by
  have hparse : parseRcloneArgs (.list [.str "--include"]) = .ok ["--include"] := by decide +kernel
  have haccepted : validateRcloneArgs (.list [.str "--include"]) false = .ok ["--include"] := by
    rw [validateRcloneArgs, hparse]
    exact validate_includeBase
  have hsources : argSources photoEnv [] [] photoPair
      ⟨"sync", "push", "sync", "/photos", "box:photos"⟩ ["--include"]
        = .ok (photoSources ["--include"]) :=
    argSources_of_parts validate_includeBase (by decide +kernel) rfl (by decide +kernel)
      (by decide +kernel) (by decide +kernel) (by decide +kernel)
  have hkept : dedupeSingleValueRcloneArgs (photoSources ["--include"]).vector
      = (photoSources ["--include"]).vector := by
    decide +kernel
  have hrewritten : rewrittenArgs photoEnv [] "sync" (photoSources ["--include"]).vector
      = .ok (filterPairs (reservedRules ++ ["+ --max-delete=5", "- **"]), none) :=
    rewrittenArgs_of_parts (by decide) hkept (by decide +kernel)
  have hbuild : buildPairCommand photoEnv [] photoPair ["--include"] false = .ok
      ⟨["rclone", "sync", "--cache-dir", "/cache", "--stats", "10s", "--stats-one-line"] ++
        filterPairs (reservedRules ++ ["+ --max-delete=5", "- **"]) ++
          ["--", "/photos", "box:photos"],
        ⟨"sync", "push", "sync", "/photos", "box:photos"⟩, none⟩ :=
    buildPairCommand_of_sources (by decide +kernel) rfl rfl (by decide +kernel) hsources
      hrewritten (by decide +kernel)
  exact ⟨haccepted, _, hbuild, rfl, by decide +kernel, by decide +kernel⟩

end RcloneSync
