/-
RcloneSync/ShortFlags.lean

Clusters of short options in safe mode.  rclone reads `-vn` letter by letter, so an argument
list that is to start productive runs only must hold no cluster with the letter of
`--dry-run`, `--interactive` or `--filter`.

The check of `blocked_arguments` knows clusters of two to four letters, and a single letter as
an exact token; the alias pass refuses the letter `f` in a cluster of any length, but copies
the value of a filter flag unread.  So what gets through is a cluster of five letters or more
(`accepted_shortFlags`).
-/
import RcloneSync.FilterCompile

namespace RcloneSync

open Py ArgScan

/-! ### Clusters -/

/-- The letters of a cluster of short options: one dash with letters only behind it, with or
without `=value`.  No other token has any. -/
def clusterLetters (token : String) : List Char :=
  match (flagOf token).toList with
  | '-' :: letters => if letters.all Char.isAlpha then letters else []
  | _ => []

/-- The short forms of `--dry-run`, `--interactive` and `--filter`. -/
def forbiddenOptions : List Char := ['n', 'i', 'f']

def hasForbidden (token : String) : Bool := forbiddenOptions.any (clusterLetters token).contains

/-- A cluster with a blocked option that is longer than those the check looks at. -/
def isOverlong (token : String) : Bool :=
  4 < (clusterLetters token).length && blockedShortOptions.any (clusterLetters token).contains

theorem clusterLetters_spec {token : String} {c : Char} (h : c ∈ clusterLetters token) :
    (flagOf token).toList = '-' :: clusterLetters token ∧
      ∀ d ∈ clusterLetters token, d.isAlpha = true := by
  unfold clusterLetters at h ⊢
  split at h
  · rename_i letters hflag
    split_ifs at h ⊢ with hall
    · exact ⟨hflag, List.all_eq_true.mp hall⟩
    · cases h
  · cases h

/-! ### The check of the short options -/

/-- The lower case of an ASCII letter. -/
def lowerLetter (c : Char) : Char := Char.ofNat (asciiLower c.toNat)

theorem lowerLetter_spec {c : Char} (h : c.isAlpha = true) :
    lowerChar c = [lowerLetter c] ∧ isAlpha (lowerLetter c) = true ∧
      (c ∈ forbiddenOptions → lowerLetter c = c) := by
  have hall : ∀ n < 128, (Char.ofNat n).isAlpha = true →
      isAlpha (Char.ofNat (asciiLower n)) = true ∧
        (Char.ofNat n ∈ forbiddenOptions → Char.ofNat (asciiLower n) = Char.ofNat n) := by
    decide
  have hlt : c.toNat < 128 := (toNat_letter_le h).trans_lt (by decide)
  have hofNat : Char.ofNat c.toNat = c := Char.ofNat_toNat c
  obtain ⟨halpha, hsame⟩ := hall c.toNat hlt (by rw [hofNat]; exact h)
  rw [hofNat] at hsame
  exact ⟨by simp [lowerChar, lowerCode, hlt, lowerLetter], halpha, hsame⟩

theorem lower_cluster {flag : String} {letters : List Char} (hflag : flag.toList = '-' :: letters)
    (hall : ∀ d ∈ letters, d.isAlpha = true) :
    (lower flag).toList = '-' :: letters.map lowerLetter := by
  have hletters : letters.flatMap lowerChar = letters.map lowerLetter := by
    rw [List.map_eq_flatMap]
    exact List.flatMap_congr fun d hd => (lowerLetter_spec (hall d hd)).1
  rw [lower, String.toList_ofList, hflag, List.flatMap_cons, hletters]
  rfl

/-- A cluster of up to four letters with a blocked option is refused. -/
theorem isBlockedArgument_of_short {token : String} {c : Char} (hc : c ∈ blockedShortOptions)
    (hmem : c ∈ clusterLetters token) (hshort : (clusterLetters token).length ≤ 4) :
    isBlockedArgument token = true := by
  obtain ⟨hflag, hall⟩ := clusterLetters_spec hmem
  have hlower := lower_cluster hflag hall
  have hcheck : (blockedShortOptions.all fun c => forbiddenOptions.contains c &&
      exactBlocked.contains (String.ofList ['-', c])) = true := by decide
  obtain ⟨hforbidden, hexact⟩ := (Bool.and_eq_true _ _).mp (List.all_eq_true.mp hcheck c hc)
  have hmem' : c ∈ (clusterLetters token).map lowerLetter :=
    List.mem_map.mpr ⟨c, hmem,
      (lowerLetter_spec (hall c hmem)).2.2 (List.contains_iff_mem.mp hforbidden)⟩
  unfold isBlockedArgument
  dsimp only
  by_cases hsingle : (clusterLetters token).length = 1
  · -- one letter is one of the exact tokens
    obtain ⟨d, hd⟩ := List.length_eq_one_iff.mp hsingle
    rw [hd, List.map_cons, List.map_nil] at hmem' hlower
    rw [← List.mem_singleton.mp hmem'] at hlower
    rw [← String.ofList_toList (s := lower (flagOf token)), hlower, hexact]
    rfl
  · have hcluster : shortCluster (lower (flagOf token)) = true := by
      have hpos := List.length_pos_of_mem hmem
      have hlong : startsWith (lower (flagOf token)) "--" = false := by
        cases hletters : clusterLetters token with
        | nil =>
          rw [hletters] at hmem
          cases hmem
        | cons d rest =>
          have hne : '-' ≠ lowerLetter d := by
            intro heq
            have halpha := (lowerLetter_spec (hall d (hletters ▸ List.mem_cons_self))).2.1
            rw [← heq] at halpha
            exact absurd halpha (by decide)
          rw [hletters] at hlower
          simp [startsWith, hlower, hne, List.isPrefixOf]
      have halphas : ((clusterLetters token).map lowerLetter).all isAlpha = true := by
        rw [List.all_eq_true]
        intro d hd
        obtain ⟨e, he, rfl⟩ := List.mem_map.mp hd
        exact (lowerLetter_spec (hall e he)).2.1
      have hblocked : blockedShortOptions.any ((clusterLetters token).map lowerLetter).contains
          = true := List.any_eq_true.mpr ⟨c, hc, List.contains_iff_mem.mpr hmem'⟩
      have hdash : startsWith (lower (flagOf token)) "-" = true := by
        simp [startsWith, hlower]
      have htwo : 2 ≤ (clusterLetters token).length := by omega
      unfold shortCluster
      dsimp only
      rw [hdash, hlong, hlower, List.drop_one, List.tail_cons, halphas, hblocked, List.length_map]
      simp [htwo, hshort]
    rw [hcluster, Bool.or_true]
    rfl

/-- What gets past the check is overlong. -/
theorem isOverlong_of_allowed {token : String} (h : isBlockedArgument token = false) {c : Char}
    (hc : c ∈ blockedShortOptions) (hmem : c ∈ clusterLetters token) : isOverlong token = true := by
  have hlong : 4 < (clusterLetters token).length := by
    by_contra hle
    rw [isBlockedArgument_of_short hc hmem (not_lt.mp hle)] at h
    cases h
  have hany : blockedShortOptions.any (clusterLetters token).contains = true :=
    List.any_eq_true.mpr ⟨c, hc, List.contains_iff_mem.mpr hmem⟩
  unfold isOverlong
  rw [hany, decide_eq_true hlong]
  rfl

theorem hasForbidden_of_isOverlong {token : String} (h : isOverlong token = true) :
    hasForbidden token = true := by
  obtain ⟨-, hany⟩ := (Bool.and_eq_true _ _).mp h
  obtain ⟨c, hc, hmem⟩ := List.any_eq_true.mp hany
  have hsub : (blockedShortOptions.all fun c => forbiddenOptions.contains c) = true := by decide
  exact List.any_eq_true.mpr
    ⟨c, List.contains_iff_mem.mp (List.all_eq_true.mp hsub c hc), hmem⟩

/-- A token that the check allows has a forbidden option only as the letter `f`, or in an
overlong cluster. -/
theorem hasForbidden_iff {token : String} (h : isBlockedArgument token = false) :
    hasForbidden token = false ↔ isOverlong token = false ∧ 'f' ∉ clusterLetters token := by
  rw [← Bool.not_eq_true, ← Bool.not_eq_true, ← not_or, not_iff_not]
  constructor
  · intro hforbidden
    obtain ⟨c, hc, hmem⟩ := List.any_eq_true.mp hforbidden
    have hmem := List.contains_iff_mem.mp hmem
    by_cases hf : c = 'f'
    · exact Or.inr (hf ▸ hmem)
    · have hcheck : (forbiddenOptions.all fun c => c == 'f' || blockedShortOptions.contains c)
          = true := by decide
      rcases (Bool.or_eq_true _ _).mp (List.all_eq_true.mp hcheck c hc) with hsame | hshort
      · exact absurd (beq_iff_eq.mp hsame) hf
      · exact Or.inl (isOverlong_of_allowed h (List.contains_iff_mem.mp hshort) hmem)
  · rintro (hlong | hf)
    · exact hasForbidden_of_isOverlong hlong
    · exact List.any_eq_true.mpr ⟨'f', by decide, List.contains_iff_mem.mpr hf⟩

/-! ### The alias pass in safe mode -/

/-- A filter flag is no cluster. -/
theorem clusterLetters_of_takes {token : String} (h : takesFilterValue token = true)
    (hshort : token ≠ "-f") : clusterLetters token = [] := by
  have hall : ∀ t ∈ ["--include", "--include-from", "--exclude", "--exclude-from", "--filter",
      "--filter-from", "--filters-file", "--files-from", "--files-from-raw", "--files-from0",
      "-f"], t ≠ "-f" → clusterLetters t = [] := by decide
  exact hall token (takesFilterValue_iff.mp h) hshort

/-- The alias pass refuses the letter `f` in a cluster, or turns it into a filter. -/
theorem notMem_of_aliasToken {token : String} (h : aliasToken token = .ok token)
    (hshort : startsWith token "-f" = false) (hinline : startsWith token "-f=" = false) :
    'f' ∉ clusterLetters token := by
  intro hmem
  obtain ⟨hflag, hall⟩ := clusterLetters_spec hmem
  -- the letters are the beginning of what follows the dash
  obtain ⟨rest, hrest⟩ : ∃ rest, token.toList = '-' :: (clusterLetters token ++ rest) := by
    have hsplit := List.takeWhile_append_dropWhile (p := (· ≠ '=')) (l := token.toList)
    have hflag' : token.toList.takeWhile (· ≠ '=') = '-' :: clusterLetters token := by
      rw [← hflag, flagOf, beforeSep, String.toList_ofList]
    rw [hflag'] at hsplit
    exact ⟨_, hsplit.symm⟩
  have hcombined : combinedShortFilter token = true := by
    unfold combinedShortFilter
    rw [hrest]
    show ((clusterLetters token ++ rest).takeWhile Char.isAlpha).contains 'f' = true
    rw [List.takeWhile_append_of_pos hall, List.contains_iff_mem]
    exact List.mem_append_left _ hmem
  have hlong : startsWith token "--" = false := by
    cases hletters : clusterLetters token with
    | nil =>
      rw [hletters] at hmem
      cases hmem
    | cons d letters =>
      have hne : '-' ≠ d := by
        rintro rfl
        exact absurd (hall '-' (hletters ▸ List.mem_cons_self)) (by decide)
      rw [hletters] at hrest
      simp [startsWith, hrest, hne, List.isPrefixOf]
  unfold aliasToken at h
  rw [hinline, hshort, hcombined, hlong] at h
  cases h

theorem isBlockedArgument_filter (value : String) :
    isBlockedArgument ("--filter=" ++ value) = true := by
  have hlower : exactBlocked.contains (lower "--filter") = true := by decide
  unfold isBlockedArgument
  dsimp only
  rw [flagOf_filter, hlower]
  rfl

/-- The short filter flag is blocked under its long name. -/
theorem ne_short_of_allowed {token : String}
    (h : isBlockedArgument (if token = "-f" then "--filter" else token) = false) :
    token ≠ "-f" := by
  rintro rfl
  have hfilter : isBlockedArgument "--filter" = true := by decide
  rw [if_pos rfl, hfilter] at h
  cases h

/-- In safe mode an accepted list is returned as it is. -/
theorem normalize_safe {args out : List String} (h : normalizeFilterAliases args = .ok out)
    (hallowed : ∀ t ∈ out, isBlockedArgument t = false) :
    out = args ∧ ∀ t ∈ flagTokens takesFilterValue args, 'f' ∉ clusterLetters t := by
  fun_induction normalizeFilterAliases args generalizing out with
  | case1 =>
    obtain rfl := Except.ok.inj h
    refine ⟨rfl, ?_⟩
    intro t ht
    cases ht
  | case2 token htakes =>
    obtain rfl := Except.ok.inj h
    have hne := ne_short_of_allowed (hallowed _ (List.mem_singleton.mpr rfl))
    refine ⟨congrArg (fun t => [t]) (if_neg hne), ?_⟩
    intro t ht
    obtain rfl : t = token := by simpa [flagTokens, slots, htakes, Slot.head] using ht
    rw [clusterLetters_of_takes htakes hne]
    exact List.not_mem_nil
  | case3 token htakes head value rest =>
    rename_i ih
    obtain ⟨out', hrest, rfl⟩ := except_map_ok h
    have hne := ne_short_of_allowed (hallowed _ List.mem_cons_self)
    obtain ⟨hsame, hfree⟩ := ih hrest fun t ht =>
      hallowed t (List.mem_cons_of_mem _ (List.mem_cons_of_mem _ ht))
    refine ⟨?_, ?_⟩
    · rw [hsame]
      exact congrArg (fun t => t :: value :: rest) (if_neg hne)
    · intro t ht
      rw [flagTokens, slots_cons_valued htakes, List.map_cons] at ht
      rcases List.mem_cons.mp ht with rfl | ht
      · show 'f' ∉ clusterLetters t
        rw [clusterLetters_of_takes htakes hne]
        exact List.not_mem_nil
      · exact hfree t ht
  | case4 token rest htakes e halias => cases h
  | case5 token rest htakes token' halias ih =>
    obtain ⟨out', hrest, rfl⟩ := except_map_ok h
    obtain ⟨hsame, hfree⟩ := ih hrest fun t ht => hallowed t (List.mem_cons_of_mem _ ht)
    rcases aliasToken_ok halias with ⟨rfl, hshort, hinline⟩ | ⟨value, rfl, -⟩
    · refine ⟨by rw [hsame], ?_⟩
      intro t ht
      rw [flagTokens, slots_cons_alone (by simpa using htakes), List.map_cons] at ht
      rcases List.mem_cons.mp ht with rfl | ht
      · exact notMem_of_aliasToken halias hshort hinline
      · exact hfree t ht
    · have hnot := hallowed _ List.mem_cons_self
      rw [isBlockedArgument_filter] at hnot
      cases hnot

/-! ### Main result -/

/-- The value of a filter flag is a cluster with the letter `f`. -/
def filtersValue : Slot String → Bool
  | .alone _ => false
  | .valued _ value => (clusterLetters value).contains 'f'

/-- Every token is in flag position or the value of a filter flag. -/
theorem letter_iff {args : List String}
    (h : ∀ t ∈ flagTokens takesFilterValue args, 'f' ∉ clusterLetters t) :
    (∀ t ∈ args, 'f' ∉ clusterLetters t) ↔
      ∀ s ∈ slots takesFilterValue args, filtersValue s = false := by
  have hhead : ∀ s ∈ slots takesFilterValue args, 'f' ∉ clusterLetters s.head := by
    intro s hs
    exact h _ (List.mem_map_of_mem hs)
  rw [show (∀ t ∈ args, 'f' ∉ clusterLetters t) ↔
      ∀ t ∈ tokensOf (slots takesFilterValue args), 'f' ∉ clusterLetters t by rw [tokensOf_slots]]
  constructor
  · intro hnone s hs
    cases s with
    | alone a => rfl
    | valued a b =>
      have hb := hnone b (List.mem_flatMap.mpr ⟨_, hs, by simp [Slot.tokens]⟩)
      simpa [filtersValue] using hb
  · intro hvalues t ht
    obtain ⟨s, hs, ht⟩ := List.mem_flatMap.mp ht
    cases s with
    | alone a =>
      obtain rfl := List.mem_singleton.mp ht
      exact hhead (.alone t) hs
    | valued a b =>
      have ht : t ∈ [a, b] := ht
      rcases List.mem_cons.mp ht with rfl | ht
      · exact hhead (.valued t b) hs
      · obtain rfl := List.mem_singleton.mp ht
        have hvalue := hvalues (.valued a t) hs
        simpa [filtersValue] using hvalue

/-- **Safe mode and short options.**  An accepted list is returned as it is.  Its flags hold no
cluster with a forbidden option exactly if none of them is an overlong cluster; neither do its
tokens as a whole, if also no value of a filter flag looks like a cluster with the letter `f`. -/
theorem accepted_shortFlags {args out : List String}
    (h : validateParsedRcloneArgs args false = .ok out) :
    ((∀ t ∈ flagTokens takesFilterValue out, hasForbidden t = false) ↔
      ∀ t ∈ flagTokens takesFilterValue args, isOverlong t = false) ∧
    ((∀ t ∈ out, hasForbidden t = false) ↔
      (∀ t ∈ args, isOverlong t = false) ∧
        ∀ s ∈ slots takesFilterValue args, filtersValue s = false) := by
  have hallowed := validateParsed_notBlocked h
  obtain ⟨rfl, hfree⟩ := normalize_safe (validateParsed_ok h).1 hallowed
  constructor
  · refine forall₂_congr fun t ht => ?_
    rw [hasForbidden_iff (hallowed t (flagTokens_subset ht)), and_iff_left (hfree t ht)]
  · have hsplit : (∀ t ∈ out, hasForbidden t = false) ↔
        ∀ t ∈ out, isOverlong t = false ∧ 'f' ∉ clusterLetters t :=
      forall₂_congr fun t ht => hasForbidden_iff (hallowed t ht)
    rw [hsplit, forall₂_and, letter_iff hfree]

/-- Five letters are enough for a silent dry run. -/
theorem overlong_accepted : validateParsedRcloneArgs ["-vvvvn"] false = .ok ["-vvvvn"] ∧
    hasForbidden "-vvvvn" = true := by
  have hharmless : Harmless "-vvvvn" :=
    ⟨by decide +kernel, by decide +kernel, by decide +kernel, by decide +kernel, by decide +kernel⟩
  have haccepted : validateParsedRcloneArgs ["-vvvvn"] false = .ok ["-vvvvn"] :=
    validateParsed_harmless (by decide) (by decide +kernel) (by decide +kernel)
      (by simpa using hharmless) false
  exact ⟨haccepted, by decide +kernel⟩

/-- Two letters are not, and the options that are left do no harm. -/
theorem accepted_shortFlags_verbose :
    (∀ t ∈ ["-vv", "--include", "*.jpg"], hasForbidden t = false) ∧
      (validateParsedRcloneArgs ["-vn"] false).isOk = false := by
  have hverbose : Harmless "-vv" :=
    ⟨by decide +kernel, by decide +kernel, by decide +kernel, by decide +kernel, by decide +kernel⟩
  have hinclude : Harmless "--include" :=
    ⟨by decide +kernel, by decide +kernel, by decide +kernel, by decide +kernel, by decide +kernel⟩
  have hpattern : Harmless "*.jpg" :=
    ⟨by decide +kernel, by decide +kernel, by decide +kernel, by decide +kernel, by decide +kernel⟩
  have haccepted : validateParsedRcloneArgs ["-vv", "--include", "*.jpg"] false
      = .ok ["-vv", "--include", "*.jpg"] :=
    validateParsed_harmless (by decide) (by decide +kernel) (by decide +kernel)
      (by simpa using ⟨hverbose, hinclude, hpattern⟩) false
  have hshort : (∀ t ∈ ["-vv", "--include", "*.jpg"], isOverlong t = false) ∧
      ∀ s ∈ slots takesFilterValue ["-vv", "--include", "*.jpg"], filtersValue s = false := by
    decide
  exact ⟨(accepted_shortFlags haccepted).2.mpr hshort, by decide +kernel⟩

end RcloneSync
