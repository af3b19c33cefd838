/-
RcloneSync/JsonPrefix.lean

What the JSON reader makes of a text that goes on.

A value that has been read stands as it is whatever follows the text, provided that it ends with
its last character (a string, a list, a mapping) or that a character behind it ends it (`Closed`);
a number at the end of the text may go on.  The fuel needs to cover the characters of the value
only.  `readsAlong` says both at once, by one induction over the reader.
-/
import RcloneSync.JsonRoundTrip

namespace Py

/-! ### Words and escapes -/

section Extend

variable {cs rest : List Char} (more : List Char)

theorem eq_of_behindWord {w : List Char} (h : behindWord w cs = some rest) : cs = w ++ rest := by
  induction w generalizing cs with
  | nil => exact Option.some.inj h
  | cons c w ih =>
    cases cs with
    | nil => cases h
    | cons d cs =>
      unfold behindWord at h
      split at h
      · next hcd => rw [hcd, ih h, List.cons_append]
      · cases h

theorem behindWord_self (w : List Char) : behindWord w (w ++ rest) = some rest := by
  induction w with
  | nil => rfl
  | cons c w ih =>
    rw [List.cons_append, behindWord, if_pos rfl]
    exact ih

theorem behindWord_extend {w : List Char} (h : behindWord w cs = some rest) :
    behindWord w (cs ++ more) = some (rest ++ more) := by
  rw [eq_of_behindWord h, List.append_assoc, behindWord_self]

theorem readHex_extend {n : Nat} (h : readHex cs = some (n, rest)) :
    rest.length < cs.length ∧ readHex (cs ++ more) = some (n, rest ++ more) := by
  unfold readHex at h
  split at h
  · next a b c d tail =>
    simp only [Option.bind_eq_bind, Option.bind_eq_some_iff] at h
    obtain ⟨x, hx, y, hy, z, hz, w, hw, h⟩ := h
    obtain ⟨rfl, rfl⟩ := Prod.mk.inj (Option.some.inj h)
    refine ⟨?_, by simp [readHex, hx, hy, hz, hw]⟩
    simp only [List.length_cons]
    omega
  · cases h

theorem readUnicode_extend {d : Char} (h : readUnicode cs = some (d, rest)) :
    rest.length < cs.length ∧ readUnicode (cs ++ more) = some (d, rest ++ more) := by
  unfold readUnicode at h
  simp only [Option.bind_eq_bind, Option.bind_eq_some_iff, Prod.exists] at h
  obtain ⟨n, tail, hn, h⟩ := h
  obtain ⟨hlength, hextend⟩ := readHex_extend more hn
  unfold readUnicode
  rw [hextend]
  simp only [Option.bind_eq_bind, Option.bind_some]
  split at h
  · next hhigh =>
    rw [if_pos hhigh]
    simp only [Option.bind_eq_some_iff, Prod.exists] at h
    obtain ⟨low, hlow, m, tail', hm, h⟩ := h
    obtain ⟨hlength', hextend'⟩ := readHex_extend more hm
    rw [behindWord_extend more hlow]
    simp only [Option.bind_some, hextend']
    split at h
    · next hpair =>
      obtain ⟨rfl, rfl⟩ := Prod.mk.inj (Option.some.inj h)
      have htail := congrArg List.length (eq_of_behindWord hlow)
      simp only [List.length_append] at htail
      exact ⟨by omega, if_pos hpair⟩
    · cases h
  · next hhigh =>
    rw [if_neg hhigh]
    split at h
    · cases h
    · next hlow =>
      obtain ⟨rfl, rfl⟩ := Prod.mk.inj (Option.some.inj h)
      exact ⟨hlength, if_neg hlow⟩

theorem readEscape_extend {d : Char} (h : readEscape cs = some (d, rest)) :
    rest.length < cs.length ∧ readEscape (cs ++ more) = some (d, rest ++ more) := by
  cases cs with
  | nil => cases h
  | cons c cs =>
    rw [List.cons_append]
    simp only [readEscape] at h ⊢
    split at h
    · next hu =>
      obtain ⟨hlength, hextend⟩ := readUnicode_extend more h
      rw [if_pos hu]
      exact ⟨Nat.lt_succ_of_lt hlength, hextend⟩
    · next hu =>
      rw [if_neg hu]
      obtain ⟨x, hx, hsame⟩ := Option.map_eq_some_iff.mp h
      obtain ⟨rfl, rfl⟩ := Prod.mk.inj hsame
      rw [hx]
      exact ⟨Nat.lt_succ_self _, rfl⟩

/-- A string ends with its quote. -/
theorem reads_text {fuel : Nat} {text : List Char} (h : readText fuel cs = some (text, rest)) :
    rest.length < cs.length ∧ ∀ g, cs.length - rest.length ≤ g →
      readText g (cs ++ more) = some (text, rest ++ more) := by
  induction fuel generalizing cs text with
  | zero => cases h
  | succ fuel ih =>
    cases cs with
    | nil => cases h
    | cons c cs =>
      have hstep : ∀ {tail : List Char}, tail.length < (c :: cs).length → ∀ g,
          (c :: cs).length - tail.length ≤ g → ∃ g', g = g' + 1 := by
        intro tail htail g hg
        exact ⟨g - 1, by simp only [List.length_cons] at htail hg; omega⟩
      unfold readText at h
      split at h
      · next hquote =>
        obtain ⟨rfl, rfl⟩ := Prod.mk.inj (Option.some.inj h)
        have hlength : cs.length < (c :: cs).length := Nat.lt_succ_self _
        refine ⟨hlength, fun g hg => ?_⟩
        obtain ⟨g, rfl⟩ := hstep hlength g hg
        simp [readText, hquote]
      · next hquote =>
        split at h
        · next hslash =>
          simp only [Option.bind_eq_bind, Option.bind_eq_some_iff, Prod.exists] at h
          obtain ⟨d, tail, hescape, t, tail', htext, h⟩ := h
          obtain ⟨rfl, rfl⟩ := Prod.mk.inj (Option.some.inj h)
          obtain ⟨hlength, hescape⟩ := readEscape_extend more hescape
          obtain ⟨hlength', htext⟩ := ih htext
          have hall : tail'.length < (c :: cs).length := by
            simp only [List.length_cons]
            omega
          refine ⟨hall, fun g hg => ?_⟩
          obtain ⟨g, rfl⟩ := hstep hall g hg
          have hg : tail.length - tail'.length ≤ g := by
            simp only [List.length_cons] at hg
            omega
          rw [List.cons_append, readText, if_neg hquote, if_pos hslash]
          simp only [hescape, htext g hg, Option.bind_eq_bind, Option.bind_some]
        · next hslash =>
          split at h
          · cases h
          · next hcontrol =>
            simp only [Option.bind_eq_bind, Option.bind_eq_some_iff, Prod.exists] at h
            obtain ⟨t, tail, htext, h⟩ := h
            obtain ⟨rfl, rfl⟩ := Prod.mk.inj (Option.some.inj h)
            obtain ⟨hlength, htext⟩ := ih htext
            have hall : tail.length < (c :: cs).length := Nat.lt_succ_of_lt hlength
            refine ⟨hall, fun g hg => ?_⟩
            obtain ⟨g, rfl⟩ := hstep hall g hg
            have hg : cs.length - tail.length ≤ g := by
              simp only [List.length_cons] at hg
              omega
            rw [List.cons_append, readText, if_neg hquote, if_neg hslash, if_neg hcontrol]
            simp only [htext g hg, Option.bind_eq_bind, Option.bind_some]

/-! ### Numbers -/

/-- The text goes on with a character that ends a number. -/
def Closed : List Char → Prop
  | [] => False
  | c :: _ => isJsonBlank c = true ∨ c = ',' ∨ c = ']' ∨ c = '\x7d'

theorem Closed.ne {c : Char} {cs : List Char} (h : Closed (c :: cs)) :
    c ≠ '.' ∧ c ≠ 'e' ∧ c ≠ 'E' ∧ c.isDigit = false := by
  rcases h with hblank | rfl | rfl | rfl
  · simp only [isJsonBlank, Bool.or_eq_true, decide_eq_true_eq] at hblank
    rcases hblank with ((rfl | rfl) | rfl) | rfl <;> decide
  · decide
  · decide
  · decide

theorem digits_extend (h : cs.dropWhile Char.isDigit ≠ []) :
    (cs ++ more).takeWhile Char.isDigit = cs.takeWhile Char.isDigit ∧
      (cs ++ more).dropWhile Char.isDigit = cs.dropWhile Char.isDigit ++ more := by
  induction cs with
  | nil => exact absurd rfl h
  | cons c cs ih =>
    cases hc : c.isDigit with
    | true =>
      have hcs : cs.dropWhile Char.isDigit ≠ [] := by simpa [hc] using h
      simp [hc, ih hcs]
    | false => simp [hc]

theorem readWhole_extend {ds : List Char} (h : readWhole cs = (ds, rest)) (hrest : rest ≠ []) :
    readWhole (cs ++ more) = (ds, rest ++ more) ∧ cs = ds ++ rest := by
  unfold readWhole at h
  split at h
  · obtain ⟨rfl, rfl⟩ := Prod.mk.inj h
    exact ⟨rfl, rfl⟩
  · next hzero =>
    obtain ⟨rfl, rfl⟩ := Prod.mk.inj h
    refine ⟨?_, (List.takeWhile_append_dropWhile).symm⟩
    obtain ⟨htake, hdrop⟩ := digits_extend more hrest
    rw [readWhole, htake, hdrop]
    intro tail htail
    cases cs with
    | nil => exact absurd rfl hrest
    | cons c cs => exact hzero cs (by rw [(List.cons.inj htail).1])

/-- The digits of a number begin the text. -/
theorem readWhole_head {ds : List Char} (h : readWhole cs = (ds, rest)) (hds : ds ≠ []) :
    ∃ d tail, d.isDigit = true ∧ cs = d :: tail := by
  unfold readWhole at h
  split at h
  · next tail => exact ⟨'0', tail, rfl, rfl⟩
  · obtain ⟨rfl, rfl⟩ := Prod.mk.inj h
    cases cs with
    | nil => exact absurd rfl hds
    | cons c cs =>
      refine ⟨c, cs, ?_, rfl⟩
      by_contra hc
      exact hds (List.takeWhile_cons_of_neg hc)

theorem readSign_extend {sign : Int} (h : readSign cs = (sign, rest)) (hrest : rest ≠ []) :
    readSign (cs ++ more) = (sign, rest ++ more) ∧ rest.length ≤ cs.length := by
  unfold readSign at h
  split at h
  · obtain ⟨rfl, rfl⟩ := Prod.mk.inj h
    exact ⟨rfl, Nat.le_succ _⟩
  · obtain ⟨rfl, rfl⟩ := Prod.mk.inj h
    exact ⟨rfl, Nat.le_succ _⟩
  · next hplus hminus =>
    obtain ⟨rfl, rfl⟩ := Prod.mk.inj h
    refine ⟨?_, Nat.le_refl _⟩
    cases cs with
    | nil => exact absurd rfl hrest
    | cons c cs =>
      rw [List.cons_append, readSign]
      · rintro tail htail
        exact hplus cs (by rw [(List.cons.inj htail).1])
      · rintro tail htail
        exact hminus cs (by rw [(List.cons.inj htail).1])

theorem readExponent_extend {e : Option Int} (h : readExponent cs = (e, rest))
    (hrest : Closed rest) : readExponent (cs ++ more) = (e, rest ++ more) ∧
      rest.length ≤ cs.length ∧ cs.head? ≠ some '.' := by
  cases cs with
  | nil =>
    obtain ⟨rfl, rfl⟩ := Prod.mk.inj h
    cases hrest
  | cons c cs =>
    rw [List.cons_append]
    simp only [readExponent] at h ⊢
    split at h
    · next hexp =>
      rw [if_pos hexp]
      have hdot : (c :: cs).head? ≠ some '.' := by
        rintro hdot
        obtain rfl : c = '.' := Option.some.inj hdot
        exact absurd hexp (by decide)
      split at h
      · -- no digits: the text behind the number would begin with the letter
        obtain ⟨-, rfl⟩ := Prod.mk.inj h
        obtain ⟨-, he, hE, -⟩ := hrest.ne
        simp [he, hE] at hexp
      · next hdigits =>
        obtain ⟨rfl, hdrop⟩ := Prod.mk.inj h
        have hne : (readSign cs).2 ≠ [] := by
          intro hnil
          rw [hnil] at hdigits
          exact hdigits rfl
        have hdropne : (readSign cs).2.dropWhile Char.isDigit ≠ [] := by
          rw [hdrop]
          rintro rfl
          exact hrest
        obtain ⟨hsign, hlength⟩ :=
          readSign_extend more (show readSign cs = ((readSign cs).1, (readSign cs).2) from rfl) hne
        obtain ⟨htake, hextend⟩ := digits_extend more hdropne
        refine ⟨?_, ?_, hdot⟩
        · rw [hsign]
          dsimp only
          rw [htake, if_neg hdigits, hextend, hdrop]
        · rw [← hdrop]
          have hle := (List.dropWhile_sublist Char.isDigit (l := (readSign cs).2)).length_le
          simp only [List.length_cons]
          omega
    · next hexp =>
      obtain ⟨rfl, rfl⟩ := Prod.mk.inj h
      rw [if_neg hexp]
      exact ⟨rfl, Nat.le_refl _, fun hdot => hrest.ne.1 (Option.some.inj hdot)⟩

theorem readFraction_extend {ds : Option (List Char)} (h : readFraction cs = (ds, rest))
    (hrest : rest ≠ []) (hdot : rest.head? ≠ some '.') :
    readFraction (cs ++ more) = (ds, rest ++ more) ∧ rest.length ≤ cs.length := by
  unfold readFraction at h
  split at h
  · next tail =>
    split at h
    · obtain ⟨-, rfl⟩ := Prod.mk.inj h
      exact absurd rfl hdot
    · next hdigits =>
      obtain ⟨rfl, rfl⟩ := Prod.mk.inj h
      obtain ⟨htake, hextend⟩ := digits_extend more hrest
      refine ⟨?_, ?_⟩
      · rw [List.cons_append, readFraction, htake, if_neg hdigits, hextend]
      · have hle := (List.dropWhile_sublist Char.isDigit (l := tail)).length_le
        simp only [List.length_cons]
        omega
  · next hpoint =>
    obtain ⟨rfl, rfl⟩ := Prod.mk.inj h
    refine ⟨?_, Nat.le_refl _⟩
    cases cs with
    | nil => exact absurd rfl hrest
    | cons c cs =>
      rw [List.cons_append, readFraction]
      rintro tail htail
      exact hpoint cs (by rw [(List.cons.inj htail).1])

theorem readUnsigned_extend {sign : Int} {v : Value}
    (h : readUnsigned sign cs = some (v, rest)) (hrest : Closed rest) :
    rest.length < cs.length ∧ (∃ d tail, cs = d :: tail ∧ d.isDigit = true) ∧
      readUnsigned sign (cs ++ more) = some (v, rest ++ more) := by
  unfold readUnsigned at h ⊢
  cases hwhole : readWhole cs with
  | mk whole afterWhole =>
  cases hfraction : readFraction afterWhole with
  | mk fraction afterFraction =>
  cases hexponent : readExponent afterFraction with
  | mk exponent afterExponent =>
  rw [hwhole] at h
  dsimp only at h
  split at h
  · cases h
  next hdigits =>
  rw [hfraction] at h
  dsimp only at h
  rw [hexponent] at h
  dsimp only at h
  obtain rfl : afterExponent = rest := by
    split at h
    · exact (Prod.mk.inj (Option.some.inj h)).2
    · exact (Prod.mk.inj (Option.some.inj h)).2
  have hne : afterExponent ≠ [] := by
    rintro rfl
    exact hrest
  obtain ⟨hexponent', hlength, hdot⟩ := readExponent_extend more hexponent hrest
  have hne' : afterFraction ≠ [] := by
    rintro rfl
    exact hne (List.length_eq_zero_iff.mp (Nat.le_zero.mp hlength))
  obtain ⟨hfraction', hlength'⟩ := readFraction_extend more hfraction hne' hdot
  have hne'' : afterWhole ≠ [] := by
    rintro rfl
    exact hne' (List.length_eq_zero_iff.mp (Nat.le_zero.mp hlength'))
  obtain ⟨hwhole', hsplit⟩ := readWhole_extend more hwhole hne''
  have hwholene : whole ≠ [] := fun hnil => hdigits (by rw [hnil]; rfl)
  refine ⟨?_, ?_, ?_⟩
  · have hpos := List.length_pos_of_ne_nil hwholene
    have hall := congrArg List.length hsplit
    rw [List.length_append] at hall
    omega
  · obtain ⟨d, tail, hd, hcs⟩ := readWhole_head hwhole hwholene
    exact ⟨d, tail, hcs, hd⟩
  · rw [hwhole']
    dsimp only
    rw [if_neg hdigits, hfraction']
    dsimp only
    rw [hexponent']
    dsimp only
    split at h
    · next hint =>
      rw [if_pos hint]
      obtain ⟨rfl, -⟩ := Prod.mk.inj (Option.some.inj h)
      rfl
    · next hint =>
      rw [if_neg hint]
      obtain ⟨rfl, -⟩ := Prod.mk.inj (Option.some.inj h)
      rfl

/-- A text that begins with one of the words has no other of them at its beginning. -/
theorem words_head : ∀ w ∈ jsonWords, ∀ u ∈ jsonWords, w.1.head? = u.1.head? → w = u := by
  decide

theorem findWord_extend {v : Value} (h : (jsonWords.findSome? fun w =>
      (behindWord w.1 cs).map fun rest => (w.2, rest)) = some (v, rest)) :
    rest.length < cs.length ∧ (jsonWords.findSome? fun w =>
      (behindWord w.1 (cs ++ more)).map fun rest => (w.2, rest)) = some (v, rest ++ more) := by
  obtain ⟨before, w, after, hwords, hw, hbefore⟩ := List.findSome?_eq_some_iff.mp h
  have hmem : w ∈ jsonWords := hwords ▸ List.mem_append_right _ List.mem_cons_self
  obtain ⟨tail, htail, hsame⟩ := Option.map_eq_some_iff.mp hw
  obtain ⟨rfl, rfl⟩ := Prod.mk.inj hsame
  have hcs := eq_of_behindWord htail
  have hne : w.1 ≠ [] := by
    have hall : ∀ w ∈ jsonWords, w.1 ≠ [] := by decide
    exact hall w hmem
  refine ⟨?_, List.findSome?_eq_some_iff.mpr ⟨before, w, after, hwords, ?_, fun u hu => ?_⟩⟩
  · have hpos := List.length_pos_of_ne_nil hne
    have hall := congrArg List.length hcs
    rw [List.length_append] at hall
    omega
  · rw [behindWord_extend more htail]
    rfl
  · -- A word before it in the list begins with another character.
    cases hfound : behindWord u.1 (cs ++ more) with
    | none => rfl
    | some tail' =>
      have hmem' : u ∈ jsonWords := hwords ▸ List.mem_append_left _ hu
      have hhead : w.1.head? = u.1.head? := by
        have hall : ∀ w ∈ jsonWords, w.1 ≠ [] := by decide
        have hboth := eq_of_behindWord hfound
        rw [hcs, List.append_assoc] at hboth
        have hheads := congrArg List.head? hboth
        rwa [List.head?_append_of_ne_nil _ hne, List.head?_append_of_ne_nil _ (hall u hmem')]
          at hheads
      obtain rfl := words_head w hmem u hmem' hhead
      have hnone := hbefore w hu
      rw [htail] at hnone
      cases hnone

theorem readScalar_extend {v : Value} (h : readScalar cs = some (v, rest))
    (hrest : Closed rest) : rest.length < cs.length ∧
      readScalar (cs ++ more) = some (v, rest ++ more) := by
  unfold readScalar at h
  split at h
  · next r hword =>
    obtain rfl := Option.some.inj h
    obtain ⟨hlength, hextend⟩ := findWord_extend more hword
    unfold readScalar
    rw [hextend]
    exact ⟨hlength, rfl⟩
  · split at h
    · next tail =>
      obtain ⟨hlength, ⟨d, tail', rfl, hd⟩, hextend⟩ := readUnsigned_extend more h hrest
      refine ⟨Nat.lt_succ_of_lt hlength, ?_⟩
      rw [List.cons_append, List.cons_append, readScalar_minus hd, ← List.cons_append]
      exact hextend
    · obtain ⟨hlength, ⟨d, tail', rfl, hd⟩, hextend⟩ := readUnsigned_extend more h hrest
      refine ⟨hlength, ?_⟩
      rw [List.cons_append, readScalar_digit hd, ← List.cons_append]
      exact hextend

/-! ### Lengths -/

theorem length_dropWhile_le (p : Char → Bool) (cs : List Char) :
    (cs.dropWhile p).length ≤ cs.length := (List.dropWhile_sublist p).length_le

theorem length_readSign (cs : List Char) : (readSign cs).2.length ≤ cs.length := by
  unfold readSign
  split
  · exact Nat.le_succ _
  · exact Nat.le_succ _
  · exact Nat.le_refl _

theorem length_readExponent (cs : List Char) : (readExponent cs).2.length ≤ cs.length := by
  cases cs with
  | nil => exact Nat.le_refl _
  | cons c cs =>
    simp only [readExponent]
    split
    · split
      · exact Nat.le_refl _
      · have hdrop := length_dropWhile_le Char.isDigit (readSign cs).2
        have hsign := length_readSign cs
        simp only [List.length_cons]
        omega
    · exact Nat.le_refl _

theorem length_readFraction (cs : List Char) : (readFraction cs).2.length ≤ cs.length := by
  unfold readFraction
  split
  · next tail =>
    split
    · exact Nat.le_refl _
    · have hdrop := length_dropWhile_le Char.isDigit tail
      simp only [List.length_cons]
      omega
  · exact Nat.le_refl _

theorem length_readWhole (cs : List Char) :
    (readWhole cs).1.length + (readWhole cs).2.length = cs.length := by
  unfold readWhole
  split
  · simp only [List.length_cons, List.length_nil]
    omega
  · rw [← List.length_append, List.takeWhile_append_dropWhile]

theorem length_readUnsigned {sign : Int} {v : Value}
    (h : readUnsigned sign cs = some (v, rest)) : rest.length < cs.length := by
  have hwhole := length_readWhole cs
  have hfraction := length_readFraction (readWhole cs).2
  have hexponent := length_readExponent (readFraction (readWhole cs).2).2
  unfold readUnsigned at h
  dsimp only at h
  split at h
  · cases h
  · next hdigits =>
    have hpos := List.length_pos_of_ne_nil fun hnil => hdigits (List.isEmpty_iff.mpr hnil)
    have hrest : (readExponent (readFraction (readWhole cs).2).2).2 = rest := by
      split at h
      · exact (Prod.mk.inj (Option.some.inj h)).2
      · exact (Prod.mk.inj (Option.some.inj h)).2
    rw [← hrest]
    omega

theorem length_readScalar {v : Value} (h : readScalar cs = some (v, rest)) :
    rest.length < cs.length := by
  unfold readScalar at h
  split at h
  · next r hword =>
    obtain rfl := Option.some.inj h
    exact (findWord_extend [] hword).1
  · split at h
    · exact Nat.lt_succ_of_lt (length_readUnsigned h)
    · exact length_readUnsigned h

/-! ### Values -/

theorem skipBlanks_extend (h : skipBlanks cs ≠ []) :
    skipBlanks (cs ++ more) = skipBlanks cs ++ more := by
  unfold skipBlanks at h ⊢
  induction cs with
  | nil => exact absurd rfl h
  | cons c cs ih =>
    cases hc : isJsonBlank c with
    | true =>
      rw [List.dropWhile_cons_of_pos hc] at h
      rw [List.cons_append, List.dropWhile_cons_of_pos hc, List.dropWhile_cons_of_pos hc, ih h]
    | false =>
      have hneg : ¬isJsonBlank c = true := by rw [hc]; decide
      rw [List.cons_append, List.dropWhile_cons_of_neg hneg, List.dropWhile_cons_of_neg hneg,
        List.cons_append]

/-- A separator behind the blanks ends a number before them. -/
theorem closed_of_skipBlanks {c : Char} {tail : List Char} (h : skipBlanks cs = c :: tail)
    (hc : c = ',' ∨ c = ']' ∨ c = '\x7d') : Closed cs := by
  cases cs with
  | nil => cases h
  | cons d cs =>
    cases hd : isJsonBlank d with
    | true => exact .inl hd
    | false =>
      rw [skipBlanks_cons hd] at h
      obtain ⟨rfl, -⟩ := List.cons.inj h
      exact .inr hc

end Extend

/-- What a reader has read stands as it is when the text goes on, and needs no more fuel than it
has characters. -/
def ReadsOn {α : Type} (read : Nat → List Char → Option (α × List Char)) (cs : List Char) (a : α)
    (rest : List Char) : Prop :=
  rest.length < cs.length ∧ ∀ more g, cs.length - rest.length ≤ g →
    read g (cs ++ more) = some (a, rest ++ more)

/-- An empty list or mapping, or what stands in it. -/
def readUnless {α : Type} (close : Char) (read : List Char → Option (List α × List Char))
    (cs : List Char) : Option (List α × List Char) :=
  match behindWord [close] cs with
  | some rest => some ([], rest)
  | none => read cs

theorem readsOn_unless {α : Type} {read : Nat → List Char → Option (List α × List Char)}
    {close : Char} {fuel : Nat} {cs rest : List Char} {xs : List α}
    (hread : ∀ xs rest, read fuel cs = some (xs, rest) → ReadsOn read cs xs rest)
    (h : readUnless close (read fuel) cs = some (xs, rest)) :
    ReadsOn (fun g => readUnless close (read g)) cs xs rest := by
  unfold readUnless at h
  split at h
  · next tail hclose =>
    obtain ⟨rfl, rfl⟩ := Prod.mk.inj (Option.some.inj h)
    rw [eq_of_behindWord hclose]
    refine ⟨Nat.lt_succ_self _, fun more g _ => ?_⟩
    simp [readUnless, behindWord]
  · next hclose =>
    obtain ⟨hlength, hextend⟩ := hread xs rest h
    refine ⟨hlength, fun more g hg => ?_⟩
    have hstill : behindWord [close] (cs ++ more) = none := by
      cases cs with
      | nil => cases hlength
      | cons c cs =>
        simp only [behindWord] at hclose
        rw [List.cons_append]
        simp only [behindWord]
        split at hclose
        · cases hclose
        · next hne => rw [if_neg hne]
    show readUnless close (read g) (cs ++ more) = _
    unfold readUnless
    rw [hstill]
    exact hextend more g hg

theorem readValue_quote (fuel : Nat) (cs : List Char) : readValue (fuel + 1) ('"' :: cs) =
    (readText fuel cs).map fun r => (.str (String.ofList r.1), r.2) := by
  rw [readValue, if_pos rfl]
  cases readText fuel cs <;> rfl

theorem readValue_bracket (fuel : Nat) (cs : List Char) : readValue (fuel + 1) ('[' :: cs) =
    (readUnless ']' (readItems fuel) (skipBlanks cs)).map fun r => (.list r.1, r.2) := by
  rw [readValue, if_neg (by decide), if_pos rfl]
  unfold readUnless
  cases behindWord [']'] (skipBlanks cs) with
  | some rest => rfl
  | none => cases readItems fuel (skipBlanks cs) <;> rfl

theorem readValue_brace (fuel : Nat) (cs : List Char) : readValue (fuel + 1) ('\x7b' :: cs) =
    (readUnless '\x7d' (readMembers fuel) (skipBlanks cs)).map fun r =>
      (.dict (r.1.foldl (fun d e => Dict.set d e.1 e.2) []), r.2) := by
  rw [readValue, if_neg (by decide), if_neg (by decide), if_pos rfl]
  unfold readUnless
  cases behindWord ['\x7d'] (skipBlanks cs) with
  | some rest => rfl
  | none => cases readMembers fuel (skipBlanks cs) <;> rfl

/-- The first item of a list, and what follows it. -/
theorem readItems_iff {fuel : Nat} {cs rest : List Char} {xs : List Value} :
    readItems (fuel + 1) cs = some (xs, rest) ↔ ∃ x tail c tail',
      readValue fuel cs = some (x, tail) ∧ skipBlanks tail = c :: tail' ∧
      ((c = ']' ∧ xs = [x] ∧ rest = tail') ∨
        (c = ',' ∧ ∃ ys, readItems fuel (skipBlanks tail') = some (ys, rest) ∧ xs = x :: ys)) := by
  rw [readItems]
  simp only [Option.bind_eq_bind, Option.bind_eq_some_iff, Prod.exists]
  constructor
  · rintro ⟨x, tail, hx, h⟩
    split at h
    · cases h
    · next c tail' htail =>
      refine ⟨x, tail, c, tail', hx, htail, ?_⟩
      split at h
      · next hclose =>
        obtain ⟨rfl, rfl⟩ := Prod.mk.inj (Option.some.inj h)
        exact .inl ⟨hclose, rfl, rfl⟩
      · split at h
        · next hcomma =>
          simp only [Option.bind_eq_some_iff, Prod.exists] at h
          obtain ⟨ys, tail'', hys, h⟩ := h
          obtain ⟨rfl, rfl⟩ := Prod.mk.inj (Option.some.inj h)
          exact .inr ⟨hcomma, ys, hys, rfl⟩
        · cases h
  · rintro ⟨x, tail, c, tail', hx, htail, ⟨rfl, rfl, rfl⟩ | ⟨rfl, ys, hys, rfl⟩⟩
    · refine ⟨x, tail, hx, ?_⟩
      rw [htail]
      rfl
    · refine ⟨x, tail, hx, ?_⟩
      rw [htail]
      simp only [if_neg (by decide : ¬(',' = ']')), if_pos, hys, Option.bind_some]

/-- The first member of a mapping, and what follows it. -/
theorem readMembers_iff {fuel : Nat} {cs rest : List Char} {ms : List (String × Value)} :
    readMembers (fuel + 1) cs = some (ms, rest) ↔ ∃ inner key behind colon x tail c tail',
      behindWord ['"'] cs = some inner ∧ readText fuel inner = some (key, behind) ∧
      behindWord [':'] (skipBlanks behind) = some colon ∧
      readValue fuel (skipBlanks colon) = some (x, tail) ∧ skipBlanks tail = c :: tail' ∧
      ((c = '\x7d' ∧ ms = [(String.ofList key, x)] ∧ rest = tail') ∨
        (c = ',' ∧ ∃ ys, readMembers fuel (skipBlanks tail') = some (ys, rest) ∧
          ms = (String.ofList key, x) :: ys)) := by
  rw [readMembers]
  simp only [Option.bind_eq_bind, Option.bind_eq_some_iff, Prod.exists]
  constructor
  · rintro ⟨inner, hinner, key, behind, hkey, colon, hcolon, x, tail, hx, h⟩
    split at h
    · cases h
    · next c tail' htail =>
      refine ⟨inner, key, behind, colon, x, tail, c, tail', hinner, hkey, hcolon, hx, htail, ?_⟩
      split at h
      · next hclose =>
        obtain ⟨rfl, rfl⟩ := Prod.mk.inj (Option.some.inj h)
        exact .inl ⟨hclose, rfl, rfl⟩
      · split at h
        · next hcomma =>
          simp only [Option.bind_eq_some_iff, Prod.exists] at h
          obtain ⟨ys, tail'', hys, h⟩ := h
          obtain ⟨rfl, rfl⟩ := Prod.mk.inj (Option.some.inj h)
          exact .inr ⟨hcomma, ys, hys, rfl⟩
        · cases h
  · rintro ⟨inner, key, behind, colon, x, tail, c, tail', hinner, hkey, hcolon, hx, htail,
      ⟨rfl, rfl, rfl⟩ | ⟨rfl, ys, hys, rfl⟩⟩
    · refine ⟨inner, hinner, key, behind, hkey, colon, hcolon, x, tail, hx, ?_⟩
      rw [htail]
      rfl
    · refine ⟨inner, hinner, key, behind, hkey, colon, hcolon, x, tail, hx, ?_⟩
      rw [htail]
      simp only [if_neg (by decide : ¬(',' = '\x7d')), if_pos, hys, Option.bind_some]

/-- The text begins a value that ends with its last character. -/
def Opens : List Char → Prop
  | [] => False
  | c :: _ => c = '"' ∨ c = '[' ∨ c = '\x7b'

/-- What the reader reads with some fuel. -/
structure ReadsAlong (fuel : Nat) : Prop where
  value : ∀ {cs rest : List Char} {v : Value}, readValue fuel cs = some (v, rest) →
    rest.length < cs.length ∧ ∀ more g, cs.length - rest.length ≤ g →
      more = [] ∨ Closed rest ∨ Opens cs → readValue g (cs ++ more) = some (v, rest ++ more)
  items : ∀ {cs rest : List Char} {xs : List Value}, readItems fuel cs = some (xs, rest) →
    ReadsOn readItems cs xs rest
  members : ∀ {cs rest : List Char} {ms : List (String × Value)},
    readMembers fuel cs = some (ms, rest) → ReadsOn readMembers cs ms rest

theorem length_skipBlanks (cs : List Char) : (skipBlanks cs).length ≤ cs.length :=
  length_dropWhile_le isJsonBlank cs

theorem exists_succ {n g : Nat} (hpos : 0 < n) (h : n ≤ g) : ∃ k, g = k + 1 :=
  ⟨g - 1, by omega⟩

section Step

variable {fuel : Nat}

theorem reads_value_step (ih : ReadsAlong fuel) {cs rest : List Char} {v : Value}
    (h : readValue (fuel + 1) cs = some (v, rest)) :
    rest.length < cs.length ∧ ∀ more g, cs.length - rest.length ≤ g →
      more = [] ∨ Closed rest ∨ Opens cs → readValue g (cs ++ more) = some (v, rest ++ more) := by
  cases cs with
  | nil => cases h
  | cons c cs =>
    by_cases hquote : c = '"'
    · subst hquote
      rw [readValue_quote] at h
      obtain ⟨⟨text, tail⟩, htext, hsame⟩ := Option.map_eq_some_iff.mp h
      obtain ⟨rfl, rfl⟩ := Prod.mk.inj hsame
      have hlength := (reads_text [] htext).1
      refine ⟨Nat.lt_succ_of_lt hlength, fun more g hg _ => ?_⟩
      simp only [List.length_cons] at hg hlength
      obtain ⟨g, rfl⟩ := exists_succ (by omega) hg
      rw [List.cons_append, readValue_quote, (reads_text more htext).2 g (by omega)]
      rfl
    by_cases hbracket : c = '['
    · subst hbracket
      rw [readValue_bracket] at h
      obtain ⟨⟨xs, tail⟩, hxs, hsame⟩ := Option.map_eq_some_iff.mp h
      obtain ⟨rfl, rfl⟩ := Prod.mk.inj hsame
      obtain ⟨hlength, hextend⟩ := readsOn_unless (fun _ _ => ih.items) hxs
      have hblanks := length_skipBlanks cs
      have hne : skipBlanks cs ≠ [] := List.ne_nil_of_length_pos (Nat.zero_lt_of_lt hlength)
      refine ⟨by simp only [List.length_cons]; omega, fun more g hg _ => ?_⟩
      simp only [List.length_cons] at hg
      obtain ⟨g, rfl⟩ := exists_succ (by omega) hg
      rw [List.cons_append, readValue_bracket, skipBlanks_extend more hne]
      have hg : (skipBlanks cs).length - tail.length ≤ g := by omega
      rw [show readUnless ']' (readItems g) (skipBlanks cs ++ more) = _ from hextend more g hg]
      rfl
    by_cases hbrace : c = '\x7b'
    · subst hbrace
      rw [readValue_brace] at h
      obtain ⟨⟨ms, tail⟩, hms, hsame⟩ := Option.map_eq_some_iff.mp h
      obtain ⟨rfl, rfl⟩ := Prod.mk.inj hsame
      obtain ⟨hlength, hextend⟩ := readsOn_unless (fun _ _ => ih.members) hms
      have hblanks := length_skipBlanks cs
      have hne : skipBlanks cs ≠ [] := List.ne_nil_of_length_pos (Nat.zero_lt_of_lt hlength)
      refine ⟨by simp only [List.length_cons]; omega, fun more g hg _ => ?_⟩
      simp only [List.length_cons] at hg
      obtain ⟨g, rfl⟩ := exists_succ (by omega) hg
      rw [List.cons_append, readValue_brace, skipBlanks_extend more hne]
      have hg : (skipBlanks cs).length - tail.length ≤ g := by omega
      rw [show readUnless '\x7d' (readMembers g) (skipBlanks cs ++ more) = _ from
        hextend more g hg]
      rfl
    · have hscalar : ∀ g tail, readValue (g + 1) (c :: tail) = readScalar (c :: tail) := by
        intro g tail
        rw [readValue, if_neg hquote, if_neg hbracket, if_neg hbrace]
      rw [hscalar] at h
      have hlength := length_readScalar h
      refine ⟨hlength, fun more g hg hend => ?_⟩
      obtain ⟨g, rfl⟩ := exists_succ (by omega) hg
      rw [List.cons_append, hscalar, ← List.cons_append]
      rcases hend with rfl | hclosed | hopens
      · rw [List.append_nil, List.append_nil]
        exact h
      · exact (readScalar_extend more h hclosed).2
      · rcases hopens with h | h | h
        · exact absurd h hquote
        · exact absurd h hbracket
        · exact absurd h hbrace

theorem readsOn_items_step (ih : ReadsAlong fuel) {cs rest : List Char} {xs : List Value}
    (h : readItems (fuel + 1) cs = some (xs, rest)) : ReadsOn readItems cs xs rest := by
  obtain ⟨x, tail, c, tail', hx, htail, hend⟩ := readItems_iff.mp h
  obtain ⟨hlength, hextend⟩ := ih.value hx
  have hblanks := length_skipBlanks tail
  have htail' := congrArg List.length htail
  rw [List.length_cons] at htail'
  have hskip : ∀ more, skipBlanks (tail ++ more) = c :: (tail' ++ more) := by
    intro more
    rw [skipBlanks_extend more (by rw [htail]; exact List.cons_ne_nil _ _), htail]
    rfl
  have hclosed : Closed tail :=
    closed_of_skipBlanks htail (hend.elim (fun h => .inr (.inl h.1)) fun h => .inl h.1)
  rcases hend with ⟨rfl, rfl, rfl⟩ | ⟨rfl, ys, hys, rfl⟩
  · refine ⟨by omega, fun more g hg => ?_⟩
    obtain ⟨g, rfl⟩ := exists_succ (by omega) hg
    exact readItems_iff.mpr ⟨x, tail ++ more, ']', rest ++ more,
      hextend more g (by omega) (.inr (.inl hclosed)), hskip more, .inl ⟨rfl, rfl, rfl⟩⟩
  · obtain ⟨hlength', hextend'⟩ := ih.items hys
    have hblanks' := length_skipBlanks tail'
    have hne : skipBlanks tail' ≠ [] := List.ne_nil_of_length_pos (Nat.zero_lt_of_lt hlength')
    refine ⟨by omega, fun more g hg => ?_⟩
    obtain ⟨g, rfl⟩ := exists_succ (by omega) hg
    refine readItems_iff.mpr ⟨x, tail ++ more, ',', tail' ++ more,
      hextend more g (by omega) (.inr (.inl hclosed)), hskip more, .inr ⟨rfl, ys, ?_, rfl⟩⟩
    rw [skipBlanks_extend more hne]
    exact hextend' more g (by omega)

theorem readsOn_members_step (ih : ReadsAlong fuel) {cs rest : List Char} {ms : List (String × Value)}
    (h : readMembers (fuel + 1) cs = some (ms, rest)) : ReadsOn readMembers cs ms rest := by
  obtain ⟨inner, key, behind, colon, x, tail, c, tail', hinner, hkey, hcolon, hx, htail, hend⟩ :=
    readMembers_iff.mp h
  have hquote := congrArg List.length (eq_of_behindWord hinner)
  have hkeylength := (reads_text [] hkey).1
  have hbehind := congrArg List.length (eq_of_behindWord hcolon)
  obtain ⟨hlength, hextend⟩ := ih.value hx
  have hblanks := length_skipBlanks behind
  have hblanks' := length_skipBlanks colon
  have hblanks'' := length_skipBlanks tail
  have htail' := congrArg List.length htail
  simp only [List.length_append, List.length_cons, List.length_nil] at hquote hbehind htail'
  have hskip : ∀ more, skipBlanks (tail ++ more) = c :: (tail' ++ more) := by
    intro more
    rw [skipBlanks_extend more (by rw [htail]; exact List.cons_ne_nil _ _), htail]
    rfl
  have hclosed : Closed tail :=
    closed_of_skipBlanks htail (hend.elim (fun h => .inr (.inr h.1)) fun h => .inl h.1)
  -- What stands before the value, when the text goes on.
  have hbefore : ∀ more, behindWord ['"'] (cs ++ more) = some (inner ++ more) ∧
      behindWord [':'] (skipBlanks (behind ++ more)) = some (colon ++ more) ∧
      skipBlanks (colon ++ more) = skipBlanks colon ++ more := by
    intro more
    refine ⟨behindWord_extend more hinner, ?_, skipBlanks_extend more ?_⟩
    · rw [skipBlanks_extend more (List.ne_nil_of_length_pos (by omega))]
      exact behindWord_extend more hcolon
    · exact List.ne_nil_of_length_pos (by omega)
  rcases hend with ⟨rfl, rfl, rfl⟩ | ⟨rfl, ys, hys, rfl⟩
  · refine ⟨by omega, fun more g hg => ?_⟩
    obtain ⟨g, rfl⟩ := exists_succ (by omega) hg
    obtain ⟨hinner', hcolon', hvalue⟩ := hbefore more
    refine readMembers_iff.mpr ⟨inner ++ more, key, behind ++ more, colon ++ more, x, tail ++ more,
      '\x7d', rest ++ more, hinner', (reads_text more hkey).2 g (by omega), hcolon', ?_,
      hskip more, .inl ⟨rfl, rfl, rfl⟩⟩
    rw [hvalue]
    exact hextend more g (by omega) (.inr (.inl hclosed))
  · obtain ⟨hlength', hextend'⟩ := ih.members hys
    have hblanks₃ := length_skipBlanks tail'
    have hne : skipBlanks tail' ≠ [] := List.ne_nil_of_length_pos (Nat.zero_lt_of_lt hlength')
    refine ⟨by omega, fun more g hg => ?_⟩
    obtain ⟨g, rfl⟩ := exists_succ (by omega) hg
    obtain ⟨hinner', hcolon', hvalue⟩ := hbefore more
    refine readMembers_iff.mpr ⟨inner ++ more, key, behind ++ more, colon ++ more, x, tail ++ more,
      ',', tail' ++ more, hinner', (reads_text more hkey).2 g (by omega), hcolon', ?_, hskip more,
      .inr ⟨rfl, ys, ?_, rfl⟩⟩
    · rw [hvalue]
      exact hextend more g (by omega) (.inr (.inl hclosed))
    · rw [skipBlanks_extend more hne]
      exact hextend' more g (by omega)

end Step

/-- **What the reader has read stands as it is when the text goes on**, by induction on the fuel. -/
theorem readsAlong (fuel : Nat) : ReadsAlong fuel := by
  induction fuel with
  | zero =>
    refine ⟨fun h => ?_, fun h => ?_, fun h => ?_⟩
    · simp [readValue] at h
    · simp [readItems] at h
    · simp [readMembers] at h
  | succ fuel ih => exact ⟨reads_value_step ih, readsOn_items_step ih, readsOn_members_step ih⟩

/-- The fuel does not matter if it covers the text. -/
theorem readValue_fuel {fuel g : Nat} {cs rest : List Char} {v : Value}
    (h : readValue fuel cs = some (v, rest)) (hg : cs.length - rest.length ≤ g) :
    readValue g cs = some (v, rest) := by
  have hread := ((readsAlong fuel).value h).2 [] g hg (.inl rfl)
  rwa [List.append_nil, List.append_nil] at hread

/-- **A text that is cut is no text.**  What is left of a list, a mapping or a string that has lost
its end is not read. -/
theorem jsonLoads_cut {fuel : Nat} {cs more : List Char} {v : Value}
    (h : readValue fuel (cs ++ more) = some (v, [])) (hopens : Opens (cs ++ more))
    (hmore : more ≠ []) : jsonLoads (String.ofList cs) = none := by
  by_contra hsome
  obtain ⟨w, hw⟩ := Option.ne_none_iff_exists'.mp hsome
  cases cs with
  | nil => simp [jsonLoads, skipBlanks, readValue] at hw
  | cons c cs =>
    have hblank : isJsonBlank c = false := by
      rcases hopens with rfl | rfl | rfl <;> decide
    unfold jsonLoads at hw
    rw [String.toList_ofList, skipBlanks_cons hblank] at hw
    obtain ⟨⟨w', rest⟩, hread, -⟩ := Option.bind_eq_some_iff.mp hw
    have hshort := ((readsAlong _).value hread).2 more
      ((c :: cs).length + (c :: cs ++ more).length) (by omega) (.inr (.inr hopens))
    have hwhole := ((readsAlong _).value h).2 []
      ((c :: cs).length + (c :: cs ++ more).length) (by omega) (.inl rfl)
    rw [List.append_nil, hshort] at hwhole
    have hrest : rest ++ more = [] := (Prod.mk.inj (Option.some.inj hwhole)).2
    exact hmore (List.append_eq_nil_iff.mp hrest).2

end Py
