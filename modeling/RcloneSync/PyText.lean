/-
RcloneSync/PyText.lean

Python's string methods, as far as configuration code uses them: `strip`,
`lower`, `casefold`, `split(sep, 1)[0]`, `partition`, `startswith`, `splitlines`
and `"sep".join`.  Each works on the list of characters of a `String`.

The facts collected here are the ones every reader of normalised text needs:
stripping is idempotent, case conversion never creates or removes white space,
and a word over ASCII letters has the same lower case and case folding.
-/
import Mathlib.Data.List.DropRight
import Mathlib.Data.List.Infix
import RcloneSync.UnicodeTables

namespace Py

/-! ### White space -/

/-- Code points that Python's `str.isspace` accepts. -/
def spaceCodes : List Nat :=
  [9, 10, 11, 12, 13, 28, 29, 30, 31, 32, 133, 160, 5760, 8192, 8193, 8194, 8195, 8196, 8197,
   8198, 8199, 8200, 8201, 8202, 8232, 8233, 8239, 8287, 12288]

def isSpace (c : Char) : Bool := spaceCodes.contains c.toNat

/-- White space removed at both ends of a character list. -/
def stripChars (cs : List Char) : List Char :=
  (cs.dropWhile isSpace).rdropWhile isSpace

/-- `str.strip()`. -/
def strip (s : String) : String := String.ofList (stripChars s.toList)

/-- `str.rstrip(chars)`. -/
def rstripOf (p : Char → Bool) (s : String) : String :=
  String.ofList (s.toList.rdropWhile p)

/-- `str.lstrip(chars)`. -/
def lstripOf (p : Char → Bool) (s : String) : String :=
  String.ofList (s.toList.dropWhile p)

/-! ### Case -/

/-- `str.lower()`. -/
def lower (s : String) : String := String.ofList (s.toList.flatMap lowerChar)

/-- `str.casefold()`. -/
def casefold (s : String) : String := String.ofList (s.toList.flatMap foldChar)

/-! ### Splitting -/

/-- `text.split(sep, 1)[0]`: everything before the first `sep`. -/
def beforeSep (sep : Char) (s : String) : String :=
  String.ofList (s.toList.takeWhile (· ≠ sep))

/-- The rest of `text.partition(sep)`: `none` without `sep`, else what follows it. -/
def afterSep (sep : Char) (s : String) : Option String :=
  match s.toList.dropWhile (· ≠ sep) with
  | [] => none
  | _ :: rest => some (String.ofList rest)

/-- `str.startswith`. -/
def startsWith (s p : String) : Bool := p.toList.isPrefixOf s.toList

theorem startsWith_append (word rest : String) : startsWith (word ++ rest) word = true := by
  unfold startsWith
  rw [String.toList_append]
  exact List.isPrefixOf_iff_prefix.mpr (List.prefix_append _ _)

/-- A text with other bytes at its beginning does not start with `p`. -/
theorem startsWith_false_of_bytes {s p : String}
    (h : p.toByteArray.data.toList.isPrefixOf s.toByteArray.data.toList = false) :
    startsWith s p = false := by
  rw [Bool.eq_false_iff] at h ⊢
  refine fun hstarts => h ?_
  obtain ⟨rest, hrest⟩ := List.isPrefixOf_iff_prefix.mp hstarts
  have hs : s = p ++ String.ofList rest := by
    rw [← String.toList_inj, String.toList_append, String.toList_ofList, hrest]
  rw [hs, String.toByteArray_append, ByteArray.data_append, Array.toList_append]
  exact List.isPrefixOf_iff_prefix.mpr (List.prefix_append _ _)

/-- A character whose bytes do not all occur does not occur. -/
theorem notMem_of_byte {c : Char} {s : String} {b : UInt8} (hb : b ∈ String.utf8EncodeChar c)
    (h : b ∉ s.toByteArray.data.toList) : c ∉ s.toList := by
  refine fun hc => h ?_
  rw [← String.utf8Encode_toList, List.utf8Encode, List.data_toByteArray]
  exact List.mem_flatMap.mpr ⟨c, hc, hb⟩

/-- `str.endswith`. -/
def endsWith (s p : String) : Bool := p.toList.isSuffixOf s.toList

/-- `text[n:]`. -/
def dropText (n : Nat) (s : String) : String := String.ofList (s.toList.drop n)

/-- `text[:n]`. -/
def takeText (n : Nat) (s : String) : String := String.ofList (s.toList.take n)

/-- Characters at which `str.splitlines` ends a line. -/
def isLineBreak (c : Char) : Bool :=
  [10, 11, 12, 13, 28, 29, 30, 133, 8232, 8233].contains c.toNat

/-- `str.splitlines` on characters: `line` holds the current line, reversed. -/
def splitLinesAux : List Char → List Char → List (List Char)
  | [], line => if line.isEmpty then [] else [line.reverse]
  | '\r' :: '\n' :: rest, line => line.reverse :: splitLinesAux rest []
  | c :: rest, line =>
    if isLineBreak c then line.reverse :: splitLinesAux rest []
    else splitLinesAux rest (c :: line)

/-- `str.splitlines()`. -/
def splitLines (s : String) : List String := (splitLinesAux s.toList []).map String.ofList

/-- `text.split(sep)` on characters. -/
def splitOnAux (sep : Char) : List Char → List Char → List (List Char)
  | [], part => [part.reverse]
  | c :: rest, part =>
    if c = sep then part.reverse :: splitOnAux sep rest []
    else splitOnAux sep rest (c :: part)

/-- `text.split(sep)`. -/
def splitOn (sep : Char) (s : String) : List String :=
  (splitOnAux sep s.toList []).map String.ofList

/-- `sep.join(parts)`. -/
def join (sep : String) : List String → String
  | [] => ""
  | [s] => s
  | s :: rest => s ++ sep ++ join sep rest

/-- `needle in text`. -/
def containsText (needle text : String) : Bool := decide (needle.toList <:+: text.toList)

/-- `text.replace(old, new)` on characters, for a nonempty `old`. -/
def replaceAux (old new : List Char) : Nat → List Char → List Char
  | 0, cs => cs
  | _ + 1, [] => []
  | fuel + 1, c :: cs =>
    if old.isPrefixOf (c :: cs) then new ++ replaceAux old new fuel ((c :: cs).drop old.length)
    else c :: replaceAux old new fuel cs

/-- `text.replace(old, new)`. -/
def replace (old new s : String) : String :=
  String.ofList (replaceAux old.toList new.toList s.length s.toList)

/-- `dict.fromkeys(xs)` read back as a list: first occurrences, in order. -/
def firstOccurrences {α : Type*} [DecidableEq α] : List α → List α
  | [] => []
  | x :: xs => x :: (firstOccurrences xs).filter (· ≠ x)

/-! ### Stripping -/

section Strip

theorem strip_toList (s : String) : (strip s).toList = stripChars s.toList := by
  simp [strip]

theorem rdropWhile_head {p : Char → Bool} {c : Char} (hc : p c = false) (cs : List Char) :
    ∃ ds, (c :: cs).rdropWhile p = c :: ds := by
  induction cs using List.reverseRecOn with
  | nil => exact ⟨[], by simp [List.rdropWhile, hc]⟩
  | append_singleton cs d ih =>
    rcases hd : p d with - | -
    · refine ⟨cs ++ [d], ?_⟩
      rw [← List.cons_append, List.rdropWhile_concat_neg]
      simp [hd]
    · obtain ⟨ds, hds⟩ := ih
      refine ⟨ds, ?_⟩
      rw [← List.cons_append, List.rdropWhile_concat_pos _ _ _ (by simpa using hd), hds]

/-- Stripped text has no white space at either end, so stripping again keeps it. -/
@[simp] theorem stripChars_idem (cs : List Char) : stripChars (stripChars cs) = stripChars cs := by
  unfold stripChars
  rcases h : cs.dropWhile isSpace with - | ⟨c, ds⟩
  · simp [List.rdropWhile]
  · have hc : isSpace c = false := by
      have := List.head_dropWhile_not isSpace (l := cs) (by simp [h])
      simpa [h] using this
    obtain ⟨es, hes⟩ := rdropWhile_head hc ds
    have hdrop : ((c :: ds).rdropWhile isSpace).dropWhile isSpace = (c :: ds).rdropWhile isSpace := by
      rw [hes, List.dropWhile_cons_of_neg (by simp [hc])]
    rw [hdrop, List.rdropWhile_idempotent]

@[simp] theorem strip_idem (s : String) : strip (strip s) = strip s := by
  simp [strip]

/-- Text is stripped exactly when neither end of it is white space. -/
theorem stripChars_eq_self_iff {cs : List Char} :
    stripChars cs = cs ↔
      ∀ h : cs ≠ [], isSpace (cs.head h) = false ∧ isSpace (cs.getLast h) = false := by
  constructor
  · intro h hne
    have hdrop : cs.dropWhile isSpace = cs := by
      refine (List.dropWhile_suffix isSpace).eq_of_length_le ?_
      calc cs.length = (stripChars cs).length := by rw [h]
        _ ≤ (cs.dropWhile isSpace).length := (List.rdropWhile_prefix _ _).length_le
    have hlast : cs.rdropWhile isSpace = cs := by
      rw [stripChars, hdrop] at h
      exact h
    refine ⟨?_, by simpa using List.rdropWhile_eq_self_iff.mp hlast hne⟩
    have := List.dropWhile_eq_self_iff.mp hdrop (List.length_pos_iff.mpr hne)
    rw [List.head_eq_getElem]
    simpa using this
  · intro h
    rcases cs with - | ⟨c, ds⟩
    · rfl
    · obtain ⟨hhead, hlast⟩ := h (by simp)
      rw [stripChars, List.dropWhile_cons_of_neg (by simpa using hhead),
        List.rdropWhile_eq_self_iff]
      simp [hlast]

theorem mem_stripChars {c : Char} {cs : List Char} (h : c ∈ stripChars cs) : c ∈ cs :=
  (List.dropWhile_suffix isSpace).subset ((List.rdropWhile_prefix _ _).subset h)

/-- A visible character in front of stripped text keeps it stripped. -/
theorem strip_append {c : Char} {p v : String} (hp : p.toList.head? = some c)
    (hc : isSpace c = false) (hv : strip v = v) (hne : v ≠ "") : strip (p ++ v) = p ++ v := by
  have hv' : stripChars v.toList = v.toList := by
    rw [← strip_toList, hv]
  have hne' : v.toList ≠ [] := by simpa using hne
  obtain ⟨-, hlast⟩ := stripChars_eq_self_iff.mp hv' hne'
  rcases hpl : p.toList with - | ⟨d, ds⟩
  · simp [hpl] at hp
  · obtain rfl : d = c := by simpa [hpl] using hp
    rw [strip, String.toList_append, hpl, stripChars_eq_self_iff.mpr, ← hpl, ← String.toList_append,
      String.ofList_toList]
    intro hcons
    refine ⟨by simpa using hc, ?_⟩
    rw [List.getLast_append_of_ne_nil _ hne']
    exact hlast

end Strip

/-! ### Case conversion and white space -/

/-- The last letter of ASCII is `z`. -/
theorem toNat_letter_le {c : Char} (h : c.isAlpha = true) : c.toNat ≤ 'z'.toNat := by
  have hcase : (c.isUpper || c.isLower) = true := h
  rcases (Bool.or_eq_true _ _).mp hcase with hupper | hlower
  · have hrange : c.val ≥ 'A'.val ∧ c.val ≤ 'Z'.val := of_decide_eq_true hupper
    exact (UInt32.le_iff_toNat_le.mp hrange.2).trans (by decide)
  · have hrange : (decide (c.val ≥ 'a'.val) && decide (c.val ≤ 'z'.val)) = true := hlower
    exact UInt32.le_iff_toNat_le.mp (of_decide_eq_true ((Bool.and_eq_true _ _).mp hrange).2)

theorem toNat_ofNat_cases (n : Nat) : (Char.ofNat n).toNat = n ∨ (Char.ofNat n).toNat = 0 := by
  by_cases h : n.isValidChar
  · refine Or.inl ?_
    unfold Char.ofNat
    rw [dif_pos h]
    rfl
  · exact Or.inr (by simp [Char.ofNat, h, Char.toNat])

theorem lowerRanges_bounds : ∀ r ∈ lowerRanges,
    (r = (8490, 8490, 1, -8383) ∨ (160 : Int) < r.1 + r.2.2.2) ∧
      ((r.2.1 : Int) + r.2.2.2 < 5760 ∨ (5760 : Int) < r.1 + r.2.2.2) ∧
      ((r.2.1 : Int) + r.2.2.2 < 8192 ∨ (8287 : Int) < r.1 + r.2.2.2) ∧
      ((r.2.1 : Int) + r.2.2.2 < 12288 ∨ (12288 : Int) < r.1 + r.2.2.2) := by
  decide +kernel

theorem spaceCodes_bounds : ∀ s ∈ spaceCodes,
    s < 107 ∨ 107 < s ∧ s ≤ 160 ∨ s = 5760 ∨ 8192 ≤ s ∧ s ≤ 8287 ∨ s = 12288 := by
  decide

theorem lowerRanges_check : ∀ r ∈ lowerRanges,
    (∀ s ∈ spaceCodes, (s : Int) < r.1 + r.2.2.2 ∨ (r.2.1 : Int) + r.2.2.2 < s) ∧
      (r = (8490, 8490, 1, -8383) ∨ (127 : Int) < r.1 + r.2.2.2) := by
  intro r hr
  obtain ⟨hlow, hogham, hquads, hideographic⟩ := lowerRanges_bounds r hr
  refine ⟨fun s hs => ?_, hlow.imp_right fun h => by omega⟩
  have hcode := spaceCodes_bounds s hs
  rcases hlow with rfl | hlow
  · dsimp only
    omega
  · omega

theorem caseRanges_bounds : ∀ r ∈ lowerRanges ++ foldRanges,
    160 < r.1 ∧ (r.2.1 < 5760 ∨ 5760 < r.1) ∧ (r.2.1 < 8192 ∨ 8287 < r.1) ∧
      (r.2.1 < 12288 ∨ 12288 < r.1) := by
  decide +kernel

theorem shiftBy_space {rows : List CaseRange} (hrows : ∀ r ∈ rows, r ∈ lowerRanges ++ foldRanges)
    {n : Nat} (h : n ∈ spaceCodes) : shiftBy rows n = none := by
  have hnone : rows.find? (CaseRange.covers n) = none := by
    refine List.find?_eq_none.mpr fun r hr hcov => ?_
    simp only [CaseRange.covers, Bool.and_eq_true, decide_eq_true_eq] at hcov
    have hbounds := caseRanges_bounds r (hrows r hr)
    have hcode := spaceCodes_bounds n h
    omega
  rw [shiftBy, hnone]
  rfl

theorem case_space {n : Nat} (h : n ∈ spaceCodes) : lowerCode n = [n] ∧ foldCode n = [n] := by
  have hplain : ∀ n ∈ spaceCodes, asciiLower n = n ∧ n ≠ 304 ∧ foldExpansions.lookup n = none := by
    decide +kernel
  obtain ⟨hascii, h304, hlookup⟩ := hplain n h
  have hlower := shiftBy_space (fun r hr => List.mem_append_left foldRanges hr) h
  have hfold := shiftBy_space (fun r hr => List.mem_append_right lowerRanges hr) h
  have hcode : lowerCode n = [n] := by
    simp [lowerCode, hascii, h304, hlower]
  refine ⟨hcode, ?_⟩
  simp [foldCode, hascii, hlookup, hfold, hcode]

theorem shiftBy_cases {rows : List CaseRange} {n m : Nat} (h : shiftBy rows n = some m) :
    ∃ r ∈ rows, r.1 ≤ n ∧ n ≤ r.2.1 ∧ m = (n + r.2.2.2 : Int).toNat := by
  obtain ⟨r, hr, rfl⟩ := Option.map_eq_some_iff.mp h
  have hcov := List.find?_some hr
  simp only [CaseRange.covers, Bool.and_eq_true, decide_eq_true_eq] at hcov
  exact ⟨r, List.mem_of_find?_eq_some hr, hcov.1.1, hcov.1.2, rfl⟩

theorem lowerCode_space {n m : Nat} (hn : n ∉ spaceCodes) (hm : m ∈ lowerCode n) :
    m ∉ spaceCodes := by
  unfold lowerCode at hm
  split_ifs at hm with h₁ h₂
  · obtain rfl : m = asciiLower n := by simpa using hm
    unfold asciiLower
    split_ifs with h
    · have hcheck : ∀ k ∈ spaceCodes, k < 97 ∨ 122 < k := by decide
      intro hk
      have := hcheck _ hk
      omega
    · exact hn
  · have hcheck : ∀ k ∈ [105, 775], k ∉ spaceCodes := by decide
    exact hcheck m hm
  · obtain rfl : m = (shiftBy lowerRanges n).getD n := by simpa using hm
    rcases hs : shiftBy lowerRanges n with - | m
    · exact hn
    · obtain ⟨r, hr, hlo, hhi, rfl⟩ := shiftBy_cases hs
      intro hk
      have := (lowerRanges_check r hr).1 _ hk
      simp only [Option.getD_some] at this
      have hpos : 0 ∉ spaceCodes := by decide
      by_cases h0 : 0 ≤ (n : Int) + r.2.2.2
      · rw [Int.toNat_of_nonneg h0] at this
        omega
      · rw [Option.getD_some, Int.toNat_of_nonpos (by omega)] at hk
        exact hpos hk

theorem foldCode_of_lowerCode_ascii {n : Nat} (h : ∀ m ∈ lowerCode n, m < 128) :
    foldCode n = lowerCode n := by
  by_cases hn : n < 128
  · simp [foldCode, lowerCode, hn]
  · have h304 : n ≠ 304 := by
      rintro rfl
      revert h
      decide
    have hlow : lowerCode n = [(shiftBy lowerRanges n).getD n] := by simp [lowerCode, hn, h304]
    have hlt := h _ (hlow ▸ List.mem_singleton.mpr rfl)
    rcases hs : shiftBy lowerRanges n with - | m
    · simp [hs] at hlt
      omega
    · obtain ⟨r, hr, hlo, hhi, rfl⟩ := shiftBy_cases hs
      rcases (lowerRanges_check r hr).2 with rfl | hbig
      · obtain rfl : n = 8490 := by
          simp at hlo hhi
          omega
        decide +kernel
      · rw [hs, Option.getD_some] at hlt
        omega

theorem lowerChar_space {c : Char} (h : isSpace c = true) : lowerChar c = [c] ∧ foldChar c = [c] := by
  have hmem : c.toNat ∈ spaceCodes := by simpa [isSpace] using h
  obtain ⟨hl, hf⟩ := case_space hmem
  simp [lowerChar, foldChar, hl, hf]

theorem lowerChar_visible {c : Char} (h : isSpace c = false) :
    lowerChar c ≠ [] ∧ ∀ d ∈ lowerChar c, isSpace d = false := by
  have hmem : c.toNat ∉ spaceCodes := by simpa [isSpace] using h
  constructor
  · have hne : lowerCode c.toNat ≠ [] := by
      unfold lowerCode
      split_ifs <;> simp
    simpa [lowerChar] using hne
  · intro d hd
    obtain ⟨m, hm, rfl⟩ := List.mem_map.mp hd
    have hm' := lowerCode_space hmem hm
    have hzero : 0 ∉ spaceCodes := by decide
    rcases toNat_ofNat_cases m with hc | hc <;> simpa [isSpace, hc]

section FlatMap

variable {f : Char → List Char}

theorem dropWhile_flatMap (hspace : ∀ c, isSpace c = true → f c = [c])
    (hvisible : ∀ c, isSpace c = false → f c ≠ [] ∧ ∀ d ∈ f c, isSpace d = false) (cs : List Char) :
    (cs.flatMap f).dropWhile isSpace = (cs.dropWhile isSpace).flatMap f := by
  induction cs with
  | nil => rfl
  | cons c cs ih =>
    rcases hc : isSpace c with - | -
    · obtain ⟨hne, hno⟩ := hvisible c hc
      rcases hf : f c with - | ⟨d, ds⟩
      · exact absurd hf hne
      · have hd : isSpace d = false := hno d (by simp [hf])
        simp [hc, hf, hd]
    · simp [hc, hspace c hc, ih]

theorem stripChars_flatMap (hspace : ∀ c, isSpace c = true → f c = [c])
    (hvisible : ∀ c, isSpace c = false → f c ≠ [] ∧ ∀ d ∈ f c, isSpace d = false) (cs : List Char) :
    stripChars (cs.flatMap f) = (stripChars cs).flatMap f := by
  have hrev : ∀ ds : List Char, (ds.flatMap f).rdropWhile isSpace
      = (ds.rdropWhile isSpace).flatMap f := by
    intro ds
    have hspace' : ∀ c, isSpace c = true → (List.reverse ∘ f) c = [c] := by
      intro c hc
      simp [hspace c hc]
    have hvisible' : ∀ c, isSpace c = false →
        (List.reverse ∘ f) c ≠ [] ∧ ∀ d ∈ (List.reverse ∘ f) c, isSpace d = false := by
      intro c hc
      simpa using hvisible c hc
    rw [List.rdropWhile, List.reverse_flatMap, dropWhile_flatMap hspace' hvisible', List.rdropWhile,
      List.reverse_flatMap]
    congr 1
    funext c
    simp
  rw [stripChars, dropWhile_flatMap hspace hvisible, hrev, stripChars]

end FlatMap

/-- Lower casing and stripping commute. -/
theorem strip_lower (s : String) : strip (lower s) = lower (strip s) := by
  have h := stripChars_flatMap (fun c hc => (lowerChar_space hc).1) (fun c hc => lowerChar_visible hc)
    s.toList
  simp [strip, lower, h]

example : strip (lower " ÄB ") = "äb" := by decide +kernel

/-- Text whose folding shows no white space has none at its ends. -/
theorem strip_of_casefold {s : String} (h : ∀ c ∈ (casefold s).toList, isSpace c = false) :
    strip s = s := by
  have hno : ∀ c ∈ s.toList, isSpace c = false := by
    intro c hc
    by_contra hsp
    have hsp' : isSpace c = true := by simpa using hsp
    have hmem : c ∈ (casefold s).toList := by
      simp only [casefold, String.toList_ofList, List.mem_flatMap]
      exact ⟨c, hc, by simp [(lowerChar_space hsp').2]⟩
    rw [h c hmem] at hsp'
    cases hsp'
  have hstrip : stripChars s.toList = s.toList :=
    stripChars_eq_self_iff.mpr fun hne => ⟨hno _ (List.head_mem hne), hno _ (List.getLast_mem hne)⟩
  rw [strip, hstrip, String.ofList_toList]

/-- Text with an ASCII lower case has the same case folding. -/
theorem casefold_of_lower {s : String} (h : ∀ c ∈ (lower s).toList, c.toNat < 128 ∧ c.toNat ≠ 0) :
    casefold s = lower s := by
  have hchar : ∀ c ∈ s.toList, foldChar c = lowerChar c := by
    intro c hc
    have hcode : ∀ m ∈ lowerCode c.toNat, m < 128 := by
      intro m hm
      have hmem : Char.ofNat m ∈ (lower s).toList := by
        simp only [lower, String.toList_ofList, List.mem_flatMap]
        exact ⟨c, hc, List.mem_map_of_mem hm⟩
      have := h _ hmem
      rcases toNat_ofNat_cases m with he | he <;> omega
    rw [foldChar, lowerChar, foldCode_of_lowerCode_ascii hcode]
  have hmap : s.toList.flatMap foldChar = s.toList.flatMap lowerChar :=
    List.flatMap_congr hchar
  rw [casefold, lower, hmap]

/-! ### First occurrences -/

section FirstOccurrences

variable {α : Type*} [DecidableEq α]

@[simp] theorem mem_firstOccurrences {x : α} {xs : List α} :
    x ∈ firstOccurrences xs ↔ x ∈ xs := by
  induction xs with
  | nil => simp [firstOccurrences]
  | cons y ys ih =>
    by_cases hxy : x = y
    · simp [firstOccurrences, hxy]
    · simp [firstOccurrences, hxy, ih]

theorem nodup_firstOccurrences (xs : List α) : (firstOccurrences xs).Nodup := by
  induction xs with
  | nil => simp [firstOccurrences]
  | cons y ys ih =>
    rw [firstOccurrences, List.nodup_cons]
    exact ⟨by simp, ih.filter _⟩

/-- A list without repetition is its own list of first occurrences. -/
theorem firstOccurrences_of_nodup {xs : List α} (h : xs.Nodup) : firstOccurrences xs = xs := by
  induction xs with
  | nil => rfl
  | cons y ys ih =>
    obtain ⟨hy, hys⟩ := List.nodup_cons.mp h
    rw [firstOccurrences, ih hys, List.filter_eq_self.mpr]
    intro x hx
    simpa using fun hxy : x = y => hy (hxy ▸ hx)

@[simp] theorem firstOccurrences_idem (xs : List α) :
    firstOccurrences (firstOccurrences xs) = firstOccurrences xs :=
  firstOccurrences_of_nodup (nodup_firstOccurrences xs)

/-- A leading part without repetition stays in front, and nothing of it is repeated. -/
theorem firstOccurrences_append {xs : List α} (h : xs.Nodup) (ys : List α) :
    firstOccurrences (xs ++ ys) = xs ++ (firstOccurrences ys).filter (· ∉ xs) := by
  induction xs with
  | nil => simp
  | cons x xs ih =>
    obtain ⟨hx, hxs⟩ := List.nodup_cons.mp h
    have hxs' : xs.filter (· ≠ x) = xs :=
      List.filter_eq_self.mpr fun y hy => by simpa using fun hyx : y = x => hx (hyx ▸ hy)
    rw [List.cons_append, firstOccurrences, ih hxs, List.filter_append, hxs', List.filter_filter]
    simp

end FirstOccurrences

/-! ### Splitting and joining -/

section Separator

variable {sep : Char} {p : String}

theorem beforeSep_append (h : sep ∉ p.toList) (v : String) :
    beforeSep sep (p ++ String.singleton sep ++ v) = p := by
  have hall : ∀ c ∈ p.toList, decide (c ≠ sep) = true := by
    intro c hc
    simpa using fun hcs : c = sep => h (hcs ▸ hc)
  simp only [beforeSep, String.toList_append, String.toList_singleton, List.append_assoc]
  rw [List.takeWhile_append_of_pos hall]
  simp

theorem afterSep_append (h : sep ∉ p.toList) (v : String) :
    afterSep sep (p ++ String.singleton sep ++ v) = some v := by
  have hall : ∀ c ∈ p.toList, decide (c ≠ sep) = true := by
    intro c hc
    simpa using fun hcs : c = sep => h (hcs ▸ hc)
  simp only [afterSep, String.toList_append, String.toList_singleton, List.append_assoc]
  rw [List.dropWhile_append_of_pos hall]
  simp

end Separator

theorem splitLinesAux_noBreak (cs line : List Char) (h : ∀ c ∈ line, isLineBreak c = false) :
    ∀ l ∈ splitLinesAux cs line, ∀ c ∈ l, isLineBreak c = false := by
  fun_induction splitLinesAux cs line with
  | case1 line hempty => simp
  | case2 line hempty => simpa using h
  | case3 rest line ih =>
    intro l hl
    rcases List.mem_cons.mp hl with rfl | hl
    · simpa using h
    · exact ih (by simp) l hl
  | case4 c rest line hcr hc ih =>
    intro l hl
    rcases List.mem_cons.mp hl with rfl | hl
    · simpa using h
    · exact ih (by simp) l hl
  | case5 c rest line hcr hc ih =>
    refine ih fun d hd => ?_
    rcases List.mem_cons.mp hd with rfl | hd
    · simpa using hc
    · exact h d hd

/-- No line of a text contains a line break. -/
theorem splitLines_noBreak {s l : String} (h : l ∈ splitLines s) :
    ∀ c ∈ l.toList, isLineBreak c = false := by
  obtain ⟨cs, hcs, rfl⟩ := List.mem_map.mp h
  simpa using splitLinesAux_noBreak s.toList [] (by simp) cs hcs

theorem join_toList (sep : String) (s : String) (t : String) (rest : List String) :
    (join sep (s :: t :: rest)).toList
      = s.toList ++ sep.toList ++ (join sep (t :: rest)).toList := by
  simp [join]

theorem splitOnAux_noSep {sep : Char} {cs : List Char} (h : sep ∉ cs) (part : List Char)
    (rest : List Char) :
    splitOnAux sep (cs ++ sep :: rest) part = (part.reverse ++ cs) :: splitOnAux sep rest [] := by
  induction cs generalizing part with
  | nil => simp [splitOnAux]
  | cons c cs ih =>
    have hc : c ≠ sep := fun hcs => h (by simp [hcs])
    have hcs : sep ∉ cs := fun hcs => h (List.mem_cons_of_mem _ hcs)
    simp [splitOnAux, hc, ih hcs]

theorem splitOnAux_none {sep : Char} {cs : List Char} (h : sep ∉ cs) (part : List Char) :
    splitOnAux sep cs part = [part.reverse ++ cs] := by
  induction cs generalizing part with
  | nil => simp [splitOnAux]
  | cons c cs ih =>
    have hc : c ≠ sep := fun hcs => h (by simp [hcs])
    have hcs : sep ∉ cs := fun hcs => h (List.mem_cons_of_mem _ hcs)
    simp [splitOnAux, hc, ih hcs]

/-- A text without the separator is its only part. -/
theorem splitOn_of_notMem {sep : Char} {s : String} (h : sep ∉ s.toList) :
    splitOn sep s = [s] := by
  unfold splitOn
  rw [splitOnAux_none h]
  simp

theorem splitOnAux_append (sep : Char) (xs ys part : List Char) :
    splitOnAux sep (xs ++ sep :: ys) part = splitOnAux sep xs part ++ splitOnAux sep ys [] := by
  induction xs generalizing part with
  | nil =>
    rw [List.nil_append, splitOnAux, splitOnAux, if_pos rfl]
    rfl
  | cons x xs ih =>
    rw [List.cons_append, splitOnAux, splitOnAux]
    split
    · rw [ih]
      rfl
    · exact ih _

theorem splitOn_append (sep : Char) (a b : String) :
    splitOn sep (a ++ String.singleton sep ++ b) = splitOn sep a ++ splitOn sep b := by
  have htext : (a ++ String.singleton sep ++ b).toList = a.toList ++ sep :: b.toList := by simp
  unfold splitOn
  rw [htext, splitOnAux_append, List.map_append]

theorem notMem_splitOnAux {sep : Char} (cs : List Char) {part : List Char} (h : sep ∉ part) :
    ∀ p ∈ splitOnAux sep cs part, sep ∉ p := by
  induction cs generalizing part with
  | nil =>
    intro p hp
    obtain rfl := List.mem_singleton.mp hp
    simpa using h
  | cons c rest ih =>
    intro p hp
    rw [splitOnAux] at hp
    split at hp
    · rcases List.mem_cons.mp hp with rfl | hp
      · simpa using h
      · exact ih List.not_mem_nil p hp
    · rename_i hc
      have hpart : sep ∉ c :: part := by
        simp only [List.mem_cons, not_or]
        exact ⟨fun heq => hc heq.symm, h⟩
      exact ih hpart p hp

/-- No part contains the separator. -/
theorem notMem_splitOn {sep : Char} {s part : String} (h : part ∈ splitOn sep s) :
    sep ∉ part.toList := by
  obtain ⟨cs, hcs, rfl⟩ := List.mem_map.mp h
  rw [String.toList_ofList]
  exact notMem_splitOnAux _ List.not_mem_nil cs hcs

/-- Lines joined by `sep` and closed by one more `sep` are read back, followed by one
empty part, when no line contains `sep`. -/
theorem splitOn_join (sep : Char) :
    ∀ {lines : List String}, lines ≠ [] → (∀ l ∈ lines, sep ∉ l.toList) →
      splitOn sep (join (String.singleton sep) lines ++ String.singleton sep) = lines ++ [""]
  | [], h, _ => absurd rfl h
  | [l], _, h => by
    have hl := h l (by simp)
    simp [splitOn, join, splitOnAux_noSep hl, splitOnAux]
  | l :: m :: rest, _, h => by
    have hl := h l (by simp)
    have hne : m :: rest ≠ [] := by simp
    have ih := splitOn_join sep hne fun k hk => h k (List.mem_cons_of_mem _ hk)
    simp only [splitOn, String.toList_append] at ih ⊢
    rw [join_toList]
    simp only [String.toList_singleton, List.append_assoc, List.cons_append, List.nil_append]
    rw [splitOnAux_noSep hl, List.map_cons]
    simp only [String.toList_singleton, List.reverse_nil, List.nil_append, String.ofList_toList,
      List.cons_append] at ih ⊢
    rw [ih]

theorem splitLinesAux_visible {c : Char} (hc : isLineBreak c = false) (rest line : List Char) :
    splitLinesAux (c :: rest) line = splitLinesAux rest (c :: line) := by
  have hne : c ≠ '\r' := by
    rintro rfl
    exact absurd hc (by decide)
  rw [splitLinesAux, if_neg (by simp [hc])]
  intro rest' heq
  exact absurd heq hne

theorem splitLinesAux_line {l : List Char} (h : ∀ c ∈ l, isLineBreak c = false)
    (rest line : List Char) :
    splitLinesAux (l ++ '\n' :: rest) line = (line.reverse ++ l) :: splitLinesAux rest [] := by
  induction l generalizing line with
  | nil =>
    rw [List.nil_append, List.append_nil, splitLinesAux]
    · rfl
    · exact fun _ heq => absurd heq (by decide)
  | cons c l ih =>
    rw [List.cons_append, splitLinesAux_visible (h c List.mem_cons_self),
      ih (fun d hd => h d (List.mem_cons_of_mem _ hd)), List.reverse_cons, List.append_assoc]
    rfl

theorem toList_join_blank (texts : List String) :
    (join "" texts).toList = texts.flatMap String.toList := by
  match texts with
  | [] => rfl
  | [s] => rw [join, List.flatMap_singleton]
  | s :: t :: rest =>
    have hblank : "".toList = [] := rfl
    rw [join_toList, toList_join_blank (t :: rest), hblank, List.append_nil]
    rfl

/-- Lines that are each ended are read back. -/
theorem splitLines_join {lines : List String}
    (h : ∀ l ∈ lines, ∀ c ∈ l.toList, isLineBreak c = false) :
    splitLines (join "" (lines.map fun l => l ++ "\n")) = lines := by
  have haux : splitLinesAux ((lines.map fun l => l ++ "\n").flatMap String.toList) [] =
      lines.map String.toList := by
    induction lines with
    | nil => rfl
    | cons l lines ih =>
      rw [List.map_cons, List.flatMap_cons, String.toList_append]
      have hend : "\n".toList = ['\n'] := rfl
      rw [hend, List.append_assoc, List.singleton_append,
        splitLinesAux_line (h l List.mem_cons_self), List.reverse_nil, List.nil_append,
        ih fun k hk => h k (List.mem_cons_of_mem _ hk), List.map_cons]
  unfold splitLines
  rw [toList_join_blank, haux, List.map_map]
  exact (List.map_congr_left fun l _ => String.ofList_toList).trans (List.map_id lines)

end Py
