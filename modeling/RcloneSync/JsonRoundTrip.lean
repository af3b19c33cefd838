/-
RcloneSync/JsonRoundTrip.lean

What `json.dumps` writes, `json.loads` reads back.

The proof follows the reader.  A float is first brought into one of the layouts of its
text (integer part, fraction, exponent), whose value is that of the float; a string is
read back character by character; lists and mappings by induction on the value, with
the text behind a value as a parameter.  The only thing the reader needs to know about
that text is that no number goes on in it (`Delimits`).

Main result (`jsonLoads_jsonDumps`): a well-formed value is read back from its own text.
-/
import RcloneSync.JsonDecode

namespace Py

/-! ### Decimals in their only form -/

theorem decOf_mul_ten (m e : Int) : decOf (m * 10) e = decOf m (e + 1) := by
  by_cases he : 0 ≤ e
  · have hto : (e + 1).toNat = e.toNat + 1 := by omega
    simp only [decOf, he, if_true, show 0 ≤ e + 1 by omega, hto, pow_succ]
    rw [mul_assoc, mul_comm 10]
  · obtain ⟨k, rfl⟩ : ∃ k : Nat, e = -(k + 1 : Nat) := ⟨(-e - 1).toNat, by omega⟩
    have hshort : decOf (m * 10) (-(k + 1 : Nat)) = shortDec m k := by
      simp only [decOf, he, if_false, neg_neg, Int.toNat_natCast, shortDec]
      rw [if_pos (by omega), Int.mul_ediv_cancel _ (by decide)]
    rw [hshort]
    cases k with
    | zero => simp [decOf, shortDec]
    | succ k =>
      have hneg : ¬ (0 : Int) ≤ -((k + 1 + 1 : Nat) : Int) + 1 := by omega
      have hto : (-(-((k + 1 + 1 : Nat) : Int) + 1)).toNat = k + 1 := by omega
      simp only [decOf, hneg, if_false, hto]

theorem decOf_mul_pow (m e : Int) (j : Nat) : decOf (m * 10 ^ j) e = decOf m (e + j) := by
  induction j generalizing e with
  | zero => simp
  | succ j ih =>
    rw [pow_succ, ← mul_assoc, decOf_mul_ten, ih]
    congr 1
    push_cast
    omega

/-- A decimal in its only form is found again. -/
theorem decOf_canonical {m : Int} {k : Nat} (h : (PyFloat.dec m k).canonical = true) :
    decOf m (-k) = .dec m k := by
  cases k with
  | zero => simp [decOf]
  | succ k =>
    have hm : m % 10 ≠ 0 := by simpa [PyFloat.canonical] using h
    have hneg : ¬ (0 : Int) ≤ -((k + 1 : Nat) : Int) := by omega
    unfold decOf
    rw [if_neg hneg]
    simp [shortDec, hm]

/-! ### Digits -/

theorem isDigit_toDigits {n : Nat} {c : Char} (h : c ∈ Nat.toDigits 10 n) : c.isDigit = true :=
  Nat.isDigit_of_mem_toDigits (by decide) (by decide) h

/-- A positive number does not start with a zero. -/
theorem toDigits_head {n : Nat} (hn : 0 < n) : (Nat.toDigits 10 n).head? ≠ some '0' := by
  induction n using Nat.strongRecOn with
  | ind n ih =>
    by_cases h : n < 10
    · rw [Nat.toDigits_of_lt_base h]
      have hall : ∀ d < 10, 0 < d → Nat.digitChar d ≠ '0' := by decide
      simpa using hall n h hn
    · rw [Nat.toDigits_of_base_le (by decide) (by omega)]
      have := ih (n / 10) (by omega) (by omega)
      rw [List.head?_append_of_ne_nil _ Nat.toDigits_ne_nil]
      exact this

/-- What may stand behind a value inside a document. -/
def Delimits : List Char → Prop
  | [] => True
  | c :: _ => c = ',' ∨ c = ']' ∨ c = '\x7d'

/-- The text behind a run of digits does not go on with one. -/
def NoDigit : List Char → Prop
  | [] => True
  | c :: _ => c.isDigit = false

theorem Delimits.noDigit {cs : List Char} (h : Delimits cs) : NoDigit cs := by
  cases cs with
  | nil => trivial
  | cons c cs =>
    have hall : ∀ d ∈ [',', ']', '\x7d'], d.isDigit = false := by simp
    exact hall c (by simpa [Delimits] using h)

theorem takeWhile_digits {ds cs : List Char} (hd : ∀ d ∈ ds, d.isDigit = true)
    (hc : NoDigit cs) :
    (ds ++ cs).takeWhile Char.isDigit = ds ∧ (ds ++ cs).dropWhile Char.isDigit = cs := by
  induction ds with
  | nil =>
    cases cs with
    | nil => exact ⟨rfl, rfl⟩
    | cons c cs =>
      have hc : c.isDigit = false := hc
      simp [hc]
  | cons d ds ih =>
    obtain ⟨h₁, h₂⟩ := ih fun x hx => hd x (List.mem_cons_of_mem _ hx)
    have h : d.isDigit = true := hd d (by simp)
    simp [h, h₁, h₂]

/-- An integer part as the number grammar has it. -/
structure WholePart (ds : List Char) : Prop where
  ne_nil : ds ≠ []
  digits : ∀ d ∈ ds, d.isDigit = true
  lead : ds = ['0'] ∨ ds.head? ≠ some '0'

theorem wholePart_toDigits (n : Nat) : WholePart (Nat.toDigits 10 n) where
  ne_nil := Nat.toDigits_ne_nil
  digits := fun _ h => isDigit_toDigits h
  lead := by
    rcases Nat.eq_zero_or_pos n with rfl | hn
    · exact Or.inl (by decide)
    · exact Or.inr (toDigits_head hn)

theorem readWhole_append {ds cs : List Char} (hds : WholePart ds) (hc : NoDigit cs) :
    readWhole (ds ++ cs) = (ds, cs) := by
  obtain ⟨h₁, h₂⟩ := takeWhile_digits hds.digits hc
  rcases hds.lead with rfl | hlead
  · rfl
  · cases ds with
    | nil => exact absurd rfl hds.ne_nil
    | cons d ds =>
      have hd : d ≠ '0' := by simpa using hlead
      unfold readWhole
      split
      · rename_i rest heq
        exact absurd (List.cons.inj heq).1 hd
      · rw [h₁, h₂]

/-- The text of a fraction. -/
def fractionText : Option (List Char) → List Char
  | none => []
  | some ds => '.' :: ds

/-- The text of an exponent: sign and digits. -/
def exponentText : Option (Bool × List Char) → List Char
  | none => []
  | some (negative, ds) => 'e' :: (if negative then '-' else '+') :: ds

/-- The value of an exponent. -/
def exponentOf : Option (Bool × List Char) → Int
  | none => 0
  | some (negative, ds) => (if negative then -1 else 1) * Nat.ofDigitChars 10 ds 0

theorem readFraction_append (frac : Option (List Char)) {cs : List Char}
    (hf : ∀ ds ∈ frac, ds ≠ [] ∧ ∀ d ∈ ds, d.isDigit = true)
    (hdigit : NoDigit cs) (hpoint : cs.head? ≠ some '.') :
    readFraction (fractionText frac ++ cs) = (frac, cs) := by
  cases frac with
  | none =>
    unfold readFraction fractionText
    split
    · rename_i rest heq
      obtain rfl : cs = '.' :: rest := heq
      simp at hpoint
    · rfl
  | some ds =>
    obtain ⟨hne, hds⟩ := hf ds rfl
    obtain ⟨h₁, h₂⟩ := takeWhile_digits hds hdigit
    have hempty : ds.isEmpty = false := by simpa using hne
    simp [readFraction, fractionText, h₁, h₂, hempty]

theorem readExponent_append (ex : Option (Bool × List Char)) {cs : List Char}
    (he : ∀ x ∈ ex, x.2 ≠ [] ∧ ∀ d ∈ x.2, d.isDigit = true) (hc : Delimits cs) :
    readExponent (exponentText ex ++ cs) = (ex.map fun x => exponentOf (some x), cs) := by
  cases ex with
  | none =>
    cases cs with
    | nil => rfl
    | cons c cs =>
      have hall : ∀ d ∈ [',', ']', '\x7d'], ¬(d = 'e' ∨ d = 'E') := by simp
      have hce := hall c (by simpa [Delimits] using hc)
      simp [readExponent, exponentText, hce]
  | some x =>
    obtain ⟨negative, ds⟩ := x
    obtain ⟨hne, hds⟩ := he (negative, ds) rfl
    obtain ⟨h₁, h₂⟩ := takeWhile_digits hds hc.noDigit
    have hempty : ds.isEmpty = false := by simpa using hne
    cases negative <;>
      simp [readExponent, exponentText, exponentOf, readSign, h₁, h₂, hempty]

theorem exponentText_noDigit (ex : Option (Bool × List Char)) {cs : List Char}
    (hc : Delimits cs) :
    NoDigit (exponentText ex ++ cs) ∧ (exponentText ex ++ cs).head? ≠ some '.' := by
  cases ex with
  | some x => exact ⟨(by decide : 'e'.isDigit = false), by simp [exponentText]⟩
  | none =>
    refine ⟨hc.noDigit, ?_⟩
    cases cs with
    | nil => simp [exponentText]
    | cons c cs =>
      have hall : ∀ d ∈ [',', ']', '\x7d'], d ≠ '.' := by simp
      simpa [exponentText] using hall c (by simpa [Delimits] using hc)

theorem fractionText_noDigit {frac : Option (List Char)} {cs : List Char} (hc : NoDigit cs) :
    NoDigit (fractionText frac ++ cs) := by
  cases frac with
  | none => exact hc
  | some ds => exact (by decide : '.'.isDigit = false)

/-- A number with a fraction or an exponent is read as the decimal it shows. -/
theorem readUnsigned_float (sign : Int) {whole : List Char} {frac : Option (List Char)}
    {ex : Option (Bool × List Char)} {cs : List Char} (hw : WholePart whole)
    (hf : ∀ ds ∈ frac, ds ≠ [] ∧ ∀ d ∈ ds, d.isDigit = true)
    (he : ∀ x ∈ ex, x.2 ≠ [] ∧ ∀ d ∈ x.2, d.isDigit = true) (hc : Delimits cs)
    (hsome : frac.isNone = false ∨ ex.isNone = false) :
    readUnsigned sign (whole ++ (fractionText frac ++ (exponentText ex ++ cs)))
      = some (.float (decOf (sign * Nat.ofDigitChars 10 (whole ++ frac.getD []) 0)
          (exponentOf ex - (frac.getD []).length)), cs) := by
  obtain ⟨h₁, h₂⟩ := exponentText_noDigit ex hc
  have hwhole : readWhole (whole ++ (fractionText frac ++ (exponentText ex ++ cs)))
      = (whole, fractionText frac ++ (exponentText ex ++ cs)) :=
    readWhole_append hw (fractionText_noDigit h₁)
  have hempty : whole.isEmpty = false := by simpa using hw.ne_nil
  have hboth : (frac.isNone && (ex.map fun x => exponentOf (some x)).isNone) = false := by
    cases frac <;> cases ex <;> simp_all
  have hval : (ex.map fun x => exponentOf (some x)).getD 0 = exponentOf ex := by
    cases ex <;> rfl
  unfold readUnsigned
  simp only [hwhole, hempty, readFraction_append frac hf h₁ h₂, readExponent_append ex he hc, hboth,
    hval, Bool.false_eq_true, if_false]

/-- A number without fraction and exponent is an integer. -/
theorem readUnsigned_int (sign : Int) {whole cs : List Char} (hw : WholePart whole)
    (hc : Delimits cs) :
    readUnsigned sign (whole ++ cs)
      = some (.int (sign * Nat.ofDigitChars 10 whole 0), cs) := by
  obtain ⟨h₁, h₂⟩ := exponentText_noDigit none hc
  have hempty : whole.isEmpty = false := by simpa using hw.ne_nil
  have hfrac : readFraction cs = (none, cs) :=
    readFraction_append none (by simp) hc.noDigit h₂
  have hex : readExponent cs = (none, cs) := readExponent_append none (by simp) hc
  unfold readUnsigned
  simp [readWhole_append hw hc.noDigit, hempty, hfrac, hex]

/-! ### The text of a float -/

/-- A run of digits is what is left without its trailing zeros, and these. -/
theorem exists_trailing_zeros (ds : List Char) :
    ∃ z, ds = ds.rdropWhile (· = '0') ++ List.replicate z '0' := by
  refine ⟨(ds.rtakeWhile (· = '0')).length, ?_⟩
  have hzeros : ds.rtakeWhile (· = '0')
      = List.replicate (ds.rtakeWhile (· = '0')).length '0' := by
    apply List.eq_replicate_of_mem
    intro d hd
    simpa using List.mem_rtakeWhile_imp hd
  rw [← hzeros]
  exact (List.rdropWhile_append_rtakeWhile ..).symm

/-- How a nonzero decimal is laid out: an integer part, perhaps a fraction, perhaps an
exponent, which together show its value. -/
structure DecLayout (n scale : Nat) (text : List Char) where
  whole : List Char
  frac : Option (List Char)
  ex : Option (Bool × List Char)
  text_eq : text = whole ++ (fractionText frac ++ exponentText ex)
  wholePart : WholePart whole
  frac_digits : ∀ ds ∈ frac, ds ≠ [] ∧ ∀ d ∈ ds, d.isDigit = true
  ex_digits : ∀ x ∈ ex, x.2 ≠ [] ∧ ∀ d ∈ x.2, d.isDigit = true
  isFloat : frac.isNone = false ∨ ex.isNone = false
  value : ∀ sign : Int,
    decOf (sign * Nat.ofDigitChars 10 (whole ++ frac.getD []) 0)
      (exponentOf ex - (frac.getD []).length) = decOf (sign * n) (-scale)

/-- Two ways of writing a decimal with the digits `kept`. -/
theorem decOf_shift {sign K : Int} {j z scale : Nat} {e : Int} (he : e + j = z - scale) :
    decOf (sign * (K * 10 ^ j)) e = decOf (sign * (K * 10 ^ z)) (-scale) := by
  rw [← mul_assoc, ← mul_assoc, decOf_mul_pow, decOf_mul_pow]
  congr 1
  omega

/-- `decRepr` without the sign, from the digits of the number. -/
def decBody (all : List Char) (scale : Nat) : List Char :=
  let kept := all.rdropWhile (· = '0')
  let n := kept.length
  let point : Int := if n = 0 then 1 else (all.length : Int) - scale
  if n = 0 then "0.0".toList
  else if -4 ≤ point - 1 ∧ point - 1 < 16 then
    if point ≤ 0 then "0.".toList ++ List.replicate point.natAbs '0' ++ kept
    else if (n : Int) ≤ point then
      kept ++ List.replicate (point.toNat - n) '0' ++ ".0".toList
    else kept.take point.toNat ++ '.' :: kept.drop point.toNat
  else
    let e := point - 1
    let mantissa := if n = 1 then kept else kept.take 1 ++ '.' :: kept.drop 1
    let ds := (toString e.natAbs).toList
    mantissa ++ 'e' :: (if e < 0 then '-' else '+') ::
      (if ds.length < 2 then '0' :: ds else ds)

theorem decRepr_toList (m : Int) (k : Nat) :
    (decRepr m k).toList =
      if m < 0 then '-' :: decBody (Nat.toDigits 10 m.natAbs) k
      else decBody (Nat.toDigits 10 m.natAbs) k := by
  have hall : (toString m.natAbs).toList = Nat.toDigits 10 m.natAbs := by
    simp
  rw [← hall]
  simp only [decRepr, String.toList_ofList]
  rfl

theorem decLayout_zero : Nonempty (DecLayout 0 0 (decBody (Nat.toDigits 10 0) 0)) :=
  ⟨{ whole := ['0']
     frac := some ['0']
     ex := none
     text_eq := by decide
     wholePart := ⟨by simp, by simp, Or.inl rfl⟩
     frac_digits := by simp
     ex_digits := by simp
     isFloat := Or.inl rfl
     value := by intro sign; simp [exponentOf, decOf, shortDec, Nat.ofDigitChars_cons] }⟩

section Layouts

variable {kept : List Char} {z scale n : Nat} (hne : kept ≠ [])
  (hdigits : ∀ d ∈ kept, d.isDigit = true) (hhead : kept.head? ≠ some '0')
  (hn : n = 10 ^ z * Nat.ofDigitChars 10 kept 0)

include hne hdigits hhead in
/-- The first digits of a number are an integer part. -/
theorem wholePart_take {p : Nat} (hp : 0 < p) : WholePart (kept.take p) where
  ne_nil := by simpa using ⟨by omega, hne⟩
  digits := fun d hd => hdigits d (List.mem_of_mem_take hd)
  lead := by
    refine Or.inr ?_
    cases kept with
    | nil => exact absurd rfl hne
    | cons d ds =>
      obtain ⟨p, rfl⟩ : ∃ q, p = q + 1 := ⟨p - 1, by omega⟩
      simpa using hhead

include hn in
/-- The value of a layout: its digits are `kept` and `j` zeros, its exponent makes up for
them and for the trailing zeros. -/
theorem layout_value {ds : List Char} {e : Int} {j : Nat}
    (hds : Nat.ofDigitChars 10 ds 0 = Nat.ofDigitChars 10 kept 0 * 10 ^ j)
    (he : e + j = z - scale) (sign : Int) :
    decOf (sign * Nat.ofDigitChars 10 ds 0) e = decOf (sign * n) (-scale) := by
  have hcast : (n : Int) = (Nat.ofDigitChars 10 kept 0 : Int) * 10 ^ z := by
    rw [hn, mul_comm]
    push_cast
    rfl
  rw [hds, hcast, ← decOf_shift he]
  push_cast
  rfl

include hne hdigits hn in
theorem layout_below {e : Nat} (hscale : scale = kept.length + z + e) :
    Nonempty (DecLayout n scale ("0.".toList ++ List.replicate e '0' ++ kept)) :=
  ⟨{ whole := ['0']
     frac := some (List.replicate e '0' ++ kept)
     ex := none
     text_eq := by simp [fractionText, exponentText]
     wholePart := ⟨by simp, by simp, Or.inl rfl⟩
     frac_digits := by
       intro ds hds
       obtain rfl := Option.some.inj hds
       refine ⟨by simp [hne], fun d hd => ?_⟩
       rcases List.mem_append.mp hd with h | h
       · rw [List.eq_of_mem_replicate h]
         decide
       · exact hdigits d h
     ex_digits := by simp
     isFloat := Or.inl rfl
     value := by
       refine layout_value (j := 0) hn ?_ ?_
       · simp [Nat.ofDigitChars_cons, Nat.ofDigitChars_append]
       · simp [exponentOf]
         omega }⟩

include hne hdigits hhead hn in
theorem layout_above {t : Nat} (hz : z = scale + t) :
    Nonempty (DecLayout n scale (kept ++ List.replicate t '0' ++ ".0".toList)) :=
  ⟨{ whole := kept ++ List.replicate t '0'
     frac := some ['0']
     ex := none
     text_eq := by simp [fractionText, exponentText]
     wholePart := by
       refine ⟨by simp [hne], fun d hd => ?_, Or.inr ?_⟩
       · rcases List.mem_append.mp hd with h | h
         · exact hdigits d h
         · rw [List.eq_of_mem_replicate h]
           decide
       · rwa [List.head?_append_of_ne_nil _ hne]
     frac_digits := by simp
     ex_digits := by simp
     isFloat := Or.inl rfl
     value := by
       refine layout_value (j := t + 1) hn ?_ ?_
       · simp only [Option.getD_some, Nat.ofDigitChars_append, Nat.ofDigitChars_cons,
           Nat.ofDigitChars_nil, Nat.ofDigitChars_replicate_zero, pow_succ]
         rw [← Nat.mul_assoc, Nat.mul_comm 10, Nat.mul_comm]
         rfl
       · simp [exponentOf]
         omega }⟩

include hne hdigits hhead hn in
theorem layout_within {p : Nat} (hp : 0 < p) (hlt : p < kept.length)
    (hscale : (p : Int) = kept.length + z - scale) :
    Nonempty (DecLayout n scale (kept.take p ++ '.' :: kept.drop p)) :=
  ⟨{ whole := kept.take p
     frac := some (kept.drop p)
     ex := none
     text_eq := by simp [fractionText, exponentText]
     wholePart := wholePart_take hne hdigits hhead hp
     frac_digits := by
       intro ds hds
       obtain rfl := Option.some.inj hds
       exact ⟨by simpa using hlt, fun d hd => hdigits d (List.mem_of_mem_drop hd)⟩
     ex_digits := by simp
     isFloat := Or.inl rfl
     value := by
       refine layout_value (j := 0) hn ?_ ?_
       · simp
       · simp [exponentOf]
         omega }⟩

include hne hdigits hhead hn in
theorem layout_exponent {e : Int} (hscale : e + 1 = kept.length + z - scale) :
    Nonempty (DecLayout n scale
      ((if kept.length = 1 then kept else kept.take 1 ++ '.' :: kept.drop 1) ++
        'e' :: (if e < 0 then '-' else '+') ::
          (if (Nat.toDigits 10 e.natAbs).length < 2 then '0' :: Nat.toDigits 10 e.natAbs
            else Nat.toDigits 10 e.natAbs))) := by
  generalize hds : (if (Nat.toDigits 10 e.natAbs).length < 2 then
    '0' :: Nat.toDigits 10 e.natAbs else Nat.toDigits 10 e.natAbs) = ds
  have hval : Nat.ofDigitChars 10 ds 0 = e.natAbs := by
    rw [← hds]
    split_ifs <;> simp [Nat.ofDigitChars_cons]
  have hok : ds ≠ [] ∧ ∀ d ∈ ds, d.isDigit = true := by
    have hdig : ∀ d ∈ Nat.toDigits 10 e.natAbs, d.isDigit = true := fun d hd =>
      isDigit_toDigits hd
    rw [← hds]
    split_ifs
    · refine ⟨by simp, fun d hd => ?_⟩
      rcases List.mem_cons.mp hd with rfl | hd
      · decide
      · exact hdig d hd
    · exact ⟨Nat.toDigits_ne_nil, hdig⟩
  have hexp : exponentOf (some (decide (e < 0), ds)) = e := by
    simp only [exponentOf, hval, decide_eq_true_eq]
    split_ifs <;> omega
  have hone : 0 < kept.length := List.length_pos_iff.mpr hne
  by_cases h1 : kept.length = 1
  · have hall : kept.take 1 = kept := List.take_of_length_le (by omega)
    refine ⟨{ whole := kept, frac := none, ex := some (decide (e < 0), ds), text_eq := ?_,
              wholePart := hall ▸ wholePart_take hne hdigits hhead (by decide),
              frac_digits := by simp, ex_digits := by simpa using hok,
              isFloat := Or.inr rfl, value := ?_ }⟩
    · simp [h1, fractionText, exponentText]
    · refine layout_value (j := 0) hn (by simp) ?_
      rw [hexp]
      simp
      omega
  · refine ⟨{ whole := kept.take 1, frac := some (kept.drop 1),
              ex := some (decide (e < 0), ds), text_eq := ?_,
              wholePart := wholePart_take hne hdigits hhead (by decide),
              frac_digits := ?_, ex_digits := by simpa using hok,
              isFloat := Or.inl rfl, value := ?_ }⟩
    · simp [h1, fractionText, exponentText]
    · intro xs hxs
      obtain rfl := Option.some.inj hxs
      have hdrop : 0 < (kept.drop 1).length := by
        rw [List.length_drop]
        omega
      exact ⟨List.ne_nil_of_length_pos hdrop, fun d hd => hdigits d (List.mem_of_mem_drop hd)⟩
    · refine layout_value (j := 0) hn
        (by rw [Option.getD_some, List.take_append_drop, pow_zero, Nat.mul_one]) ?_
      rw [hexp]
      simp
      omega

end Layouts

/-- Every positive decimal has a layout. -/
theorem decLayout_pos {n : Nat} (hn : 0 < n) (scale : Nat) :
    Nonempty (DecLayout n scale (decBody (Nat.toDigits 10 n) scale)) := by
  obtain ⟨z, hz⟩ := exists_trailing_zeros (Nat.toDigits 10 n)
  unfold decBody
  generalize (Nat.toDigits 10 n).rdropWhile (· = '0') = kept at hz ⊢
  have hdigits : ∀ d ∈ kept, d.isDigit = true := fun d hd =>
    isDigit_toDigits (n := n) (by rw [hz]; exact List.mem_append_left _ hd)
  have hlen : (Nat.toDigits 10 n).length = kept.length + z := by
    rw [hz, List.length_append, List.length_replicate]
  have hvalue : n = 10 ^ z * Nat.ofDigitChars 10 kept 0 := by
    have h := Nat.ofDigitChars_ten_toDigits (n := n)
    rw [hz, Nat.ofDigitChars_append, Nat.ofDigitChars_replicate_zero] at h
    exact h.symm
  have hne : kept ≠ [] := by
    rintro rfl
    simp at hvalue
    omega
  have hhead : kept.head? ≠ some '0' := by
    have h := toDigits_head hn
    rwa [hz, List.head?_append_of_ne_nil _ hne] at h
  have hpos : ¬ kept.length = 0 := by simpa using hne
  simp only [hpos, if_false, hlen]
  generalize hpoint : ((kept.length + z : Nat) : Int) - scale = point
  by_cases hrange : -4 ≤ point - 1 ∧ point - 1 < 16
  · rw [if_pos hrange]
    by_cases hle : point ≤ 0
    · rw [if_pos hle]
      exact layout_below hne hdigits hvalue (by omega)
    · rw [if_neg hle]
      by_cases hge : (kept.length : Int) ≤ point
      · rw [if_pos hge]
        exact layout_above hne hdigits hhead hvalue (by omega)
      · rw [if_neg hge]
        exact layout_within hne hdigits hhead hvalue (by omega) (by omega) (by omega)
  · rw [if_neg hrange]
    have hds : (toString (point - 1).natAbs).toList = Nat.toDigits 10 (point - 1).natAbs := by
      simp
    rw [hds]
    exact layout_exponent hne hdigits hhead hvalue (by omega)

/-! ### Reading scalars back -/

theorem digit_ne {d : Char} (hd : d.isDigit = true) :
    ∀ c ∈ ['n', 't', 'f', 'N', 'I', '-', '"', '[', '\x7b', ']', '\x7d'], c ≠ d := by
  rintro c hc rfl
  have hall : ∀ c ∈ ['n', 't', 'f', 'N', 'I', '-', '"', '[', '\x7b', ']', '\x7d'],
      c.isDigit = false := by simp
  rw [hall c hc] at hd
  cases hd

theorem readScalar_digit {d : Char} (hd : d.isDigit = true) (cs : List Char) :
    readScalar (d :: cs) = readUnsigned 1 (d :: cs) := by
  have hne := digit_ne hd
  have hwords : (jsonWords.findSome? fun w =>
      (behindWord w.1 (d :: cs)).map fun rest => (w.2, rest)) = none := by
    simp only [List.mem_cons, List.not_mem_nil, or_false, forall_eq_or_imp, forall_eq] at hne
    simp [jsonWords, behindWord, hne]
  have hminus : '-' ≠ d := hne '-' (by simp)
  unfold readScalar
  rw [hwords]
  simp only
  split
  · rename_i heq
    exact absurd (List.cons.inj heq).1.symm hminus
  · rfl

theorem readScalar_minus {d : Char} (hd : d.isDigit = true) (cs : List Char) :
    readScalar ('-' :: d :: cs) = readUnsigned (-1) (d :: cs) := by
  have hI : 'I' ≠ d := digit_ne hd 'I' (by simp)
  have hwords : (jsonWords.findSome? fun w =>
      (behindWord w.1 ('-' :: d :: cs)).map fun rest => (w.2, rest)) = none := by
    simp [jsonWords, behindWord, hI]
  unfold readScalar
  rw [hwords]
  rfl

/-- An integer part starts with a digit. -/
theorem WholePart.exists_cons {ds : List Char} (h : WholePart ds) :
    ∃ d t, ds = d :: t ∧ d.isDigit = true := by
  cases ds with
  | nil => exact absurd rfl h.ne_nil
  | cons d t => exact ⟨d, t, rfl, h.digits d (by simp)⟩

/-- Characters that open a string, a list or a mapping, or that no value starts with. -/
def nonScalarStarts : List Char :=
  ['"', '[', '\x7b', ' ', '\t', '\n', '\r', ']', '\x7d']

/-- The text of a scalar, which is read back where a value is expected. -/
structure ScalarText (text : List Char) (v : Value) : Prop where
  head : ∃ c t, text = c :: t ∧ ∀ x ∈ nonScalarStarts, x ≠ c
  reads : ∀ cs, Delimits cs → readScalar (text ++ cs) = some (v, cs)

theorem digit_scalarStart {d : Char} (hd : d.isDigit = true) :
    ∀ x ∈ nonScalarStarts, x ≠ d := by
  rintro x hx rfl
  have hall : ∀ c ∈ nonScalarStarts, c.isDigit = false := by simp [nonScalarStarts]
  rw [hall x hx] at hd
  cases hd

theorem ne_of_not_contains {c : Char} (h : nonScalarStarts.contains c = false) :
    ∀ x ∈ nonScalarStarts, x ≠ c := by
  rintro x hx rfl
  rw [List.contains_iff_mem.mpr hx] at h
  cases h

theorem minus_scalarStart : ∀ x ∈ nonScalarStarts, x ≠ '-' := ne_of_not_contains rfl

theorem scalarText_word {w : List Char × Value} (hw : w ∈ jsonWords) : ScalarText w.1 w.2 := by
  simp only [jsonWords, List.mem_cons, List.not_mem_nil, or_false] at hw
  rcases hw with rfl | rfl | rfl | rfl | rfl | rfl <;>
    exact ⟨⟨_, _, rfl, ne_of_not_contains rfl⟩,
      fun cs _ => by simp [readScalar, jsonWords, behindWord]⟩

theorem scalarText_int (n : Int) : ScalarText (toString n).toList (.int n) := by
  have hw := wholePart_toDigits n.natAbs
  obtain ⟨d, t, ht, hd⟩ := hw.exists_cons
  have hval : Nat.ofDigitChars 10 (d :: t) 0 = n.natAbs := by
    rw [← ht, Nat.ofDigitChars_ten_toDigits]
  have hread : ∀ sign cs, Delimits cs →
      readUnsigned sign (d :: (t ++ cs)) = some (.int (sign * n.natAbs), cs) := by
    intro sign cs hc
    have h := readUnsigned_int sign hw hc
    rwa [ht, hval] at h
  cases n with
  | ofNat m =>
    have htext : (toString (Int.ofNat m)).toList = d :: t := by
      rw [← ht]
      exact Nat.toList_repr
    rw [htext]
    refine ⟨⟨d, t, rfl, digit_scalarStart hd⟩, fun cs hc => ?_⟩
    rw [List.cons_append, readScalar_digit hd, hread 1 cs hc]
    simp
  | negSucc m =>
    have htext : (toString (Int.negSucc m)).toList = '-' :: d :: t := by
      rw [← ht]
      have hneg : toString (Int.negSucc m) = "-" ++ Nat.repr (m + 1) := rfl
      rw [hneg, String.toList_append, Nat.toList_repr]
      rfl
    rw [htext]
    refine ⟨⟨'-', d :: t, rfl, minus_scalarStart⟩, fun cs hc => ?_⟩
    rw [List.cons_append, List.cons_append, readScalar_minus hd, hread (-1) cs hc]
    simp
    omega

theorem scalarText_dec {m : Int} {k : Nat} (hx : (PyFloat.dec m k).canonical = true) :
    ScalarText (decRepr m k).toList (.float (.dec m k)) := by
  obtain ⟨layout⟩ : Nonempty (DecLayout m.natAbs k (decBody (Nat.toDigits 10 m.natAbs) k)) := by
    rcases Nat.eq_zero_or_pos m.natAbs with h0 | hpos
    · obtain rfl : m = 0 := Int.natAbs_eq_zero.mp h0
      obtain rfl : k = 0 := by simpa [PyFloat.canonical] using hx
      exact decLayout_zero
    · exact decLayout_pos hpos k
  obtain ⟨d, t, ht, hd⟩ := layout.wholePart.exists_cons
  generalize hbody : decBody (Nat.toDigits 10 m.natAbs) k = body at layout
  have hcons : body = d :: (t ++ (fractionText layout.frac ++ exponentText layout.ex)) := by
    have h := layout.text_eq
    rwa [ht] at h
  have hread : ∀ sign : Int, sign * (m.natAbs : Int) = m → ∀ cs, Delimits cs →
      readUnsigned sign (body ++ cs) = some (.float (.dec m k), cs) := by
    intro sign hsign cs hc
    have h := readUnsigned_float sign layout.wholePart layout.frac_digits
      layout.ex_digits hc layout.isFloat
    rw [layout.value sign, hsign, decOf_canonical hx] at h
    have happend := congrArg (fun text => text ++ cs) layout.text_eq
    simp only [List.append_assoc] at happend
    rwa [happend]
  rw [decRepr_toList, hbody]
  by_cases hm : m < 0
  · rw [if_pos hm]
    refine ⟨⟨'-', body, rfl, minus_scalarStart⟩, fun cs hc => ?_⟩
    have h := hread (-1) (by omega) cs hc
    rw [hcons] at h ⊢
    simp only [List.cons_append] at h ⊢
    rw [readScalar_minus hd, h]
  · rw [if_neg hm]
    refine ⟨⟨d, _, hcons, digit_scalarStart hd⟩, fun cs hc => ?_⟩
    have h := hread 1 (by omega) cs hc
    rw [hcons] at h ⊢
    simp only [List.cons_append] at h ⊢
    rw [readScalar_digit hd, h]

/-! ### Reading strings back -/

theorem hexValue_digitChar : ∀ d < 16, hexValue (Nat.digitChar d) = some d := by decide

/-- The escape of a control character. -/
theorem hexText_control : ∀ n < 32,
    hexText 4 n = ['0', '0', Nat.digitChar (n / 16), Nat.digitChar (n % 16)] := by decide

theorem readEscape_control {n : Nat} (hn : n < 32) (rest : List Char) :
    readEscape ('u' :: hexText 4 n ++ rest) = some (Char.ofNat n, rest) := by
  have h0 : hexValue '0' = some 0 := by decide
  have h₁ := hexValue_digitChar (n / 16) (by omega)
  have h₂ := hexValue_digitChar (n % 16) (by omega)
  have hval : n / 16 * 16 + n % 16 = n := by omega
  have hlow : ¬ (55296 ≤ n ∧ n ≤ 56319) := by omega
  have hhigh : ¬ (56320 ≤ n ∧ n ≤ 57343) := by omega
  rw [hexText_control n hn]
  simp [readEscape, readUnicode, readHex, h0, h₁, h₂, hval, hlow, hhigh]

/-- One character of a string is read back, and takes at most one unit of fuel. -/
theorem readText_char (c : Char) (fuel : Nat) (rest : List Char) :
    readText (fuel + 1) (jsonChar false c ++ rest)
      = (readText fuel rest).map fun p => (c :: p.1, p.2) := by
  -- what the reader does behind a backslash
  have hescape : ∀ es : List Char, readEscape (es ++ rest) = some (c, rest) →
      readText (fuel + 1) ('\\' :: es ++ rest)
        = (readText fuel rest).map fun p => (c :: p.1, p.2) := by
    intro es hes
    simp only [List.cons_append, readText, hes, Char.reduceEq, if_true, if_false,
      Option.bind_eq_bind, Option.bind_some]
    cases readText fuel rest <;> rfl
  by_cases hquote : c = '"'
  · subst hquote
    exact hescape ['"'] rfl
  by_cases hback : c = '\\'
  · subst hback
    exact hescape ['\\'] rfl
  by_cases hn : c = '\n'
  · subst hn
    exact hescape ['n'] rfl
  by_cases hr : c = '\r'
  · subst hr
    exact hescape ['r'] rfl
  by_cases ht : c = '\t'
  · subst ht
    exact hescape ['t'] rfl
  by_cases hf : c.toNat = 12
  · obtain rfl : c = Char.ofNat 12 := by rw [← hf, Char.ofNat_toNat]
    exact hescape ['f'] rfl
  by_cases hb : c.toNat = 8
  · obtain rfl : c = Char.ofNat 8 := by rw [← hb, Char.ofNat_toNat]
    exact hescape ['b'] rfl
  by_cases hcontrol : c.toNat < 32
  · have hchar : jsonChar false c = '\\' :: 'u' :: hexText 4 c.toNat := by
      have hsmall : c.toNat < 65536 := by omega
      simp [jsonChar, jsonEscape, hquote, hback, hn, hr, ht, hf, hb, hcontrol, hsmall]
    rw [hchar]
    refine hescape ('u' :: hexText 4 c.toNat) ?_
    rw [readEscape_control hcontrol, Char.ofNat_toNat]
  · have hchar : jsonChar false c = [c] := by
      simp [jsonChar, hquote, hback, hn, hr, ht, hf, hb, hcontrol]
    rw [hchar]
    simp only [List.cons_append, List.nil_append, readText, hquote, hback, hcontrol, if_false]
    cases readText fuel rest <;> rfl

theorem readText_chars {cs : List Char} (rest : List Char) {fuel : Nat} (hfuel : cs.length < fuel) :
    readText fuel (cs.flatMap (jsonChar false) ++ '"' :: rest) = some (cs, rest) := by
  induction cs generalizing fuel with
  | nil =>
    obtain ⟨fuel, rfl⟩ : ∃ k, fuel = k + 1 := ⟨fuel - 1, by omega⟩
    simp [readText]
  | cons c cs ih =>
    obtain ⟨fuel, rfl⟩ : ∃ k, fuel = k + 1 := ⟨fuel - 1, by omega⟩
    have hlt : cs.length < fuel := by simpa using hfuel
    rw [List.flatMap_cons, List.append_assoc, readText_char, ih hlt]
    rfl

/-! ### Reading values back -/

/-- `json.dumps` with the same blanks behind a comma and behind a colon. -/
def gapJson (gap : List Char) : JsonStyle :=
  ⟨false, String.ofList (',' :: gap), String.ofList (':' :: gap), false⟩

section Gap

variable {gap : List Char}

/-- Nothing but blanks. -/
def Blanks (gap : List Char) : Prop := ∀ c ∈ gap, isJsonBlank c = true

/-- Texts separated by commas and closed by a bracket. -/
def closedBy (gap : List Char) (close : Char) : List (List Char) → List Char
  | [] => [close]
  | [t] => t ++ [close]
  | t :: u :: ts => t ++ ',' :: (gap ++ closedBy gap close (u :: ts))

theorem join_closed (gap : List Char) (close : Char) (texts : List String) :
    (join (String.ofList (',' :: gap)) texts).toList ++ [close]
      = closedBy gap close (texts.map String.toList) := by
  induction texts with
  | nil => rfl
  | cons t ts ih =>
    cases ts with
    | nil => rfl
    | cons u ts =>
      rw [join_toList, List.append_assoc, ih]
      simp [closedBy]

theorem jsonDumps_list_toList (gap : List Char) (xs : List Value) :
    (jsonDumps (gapJson gap) (.list xs)).toList
      = '[' :: closedBy gap ']' ((jsonItems (gapJson gap) xs).map String.toList) := by
  rw [← join_closed]
  simp [jsonDumps, gapJson]

/-- The text of a member of a mapping. -/
def memberText (gap : List Char) (e : String × String) : List Char :=
  '"' :: e.1.toList.flatMap (jsonChar false) ++ '"' :: ':' :: (gap ++ e.2.toList)

theorem jsonDumps_dict_toList (gap : List Char) (entries : List (String × Value)) :
    (jsonDumps (gapJson gap) (.dict entries)).toList
      = '\x7b' ::
        closedBy gap '\x7d' ((jsonMembers (gapJson gap) entries).map (memberText gap)) := by
  have hmap : (jsonMembers (gapJson gap) entries).map (memberText gap)
      = ((jsonMembers (gapJson gap) entries).map fun e =>
          jsonText false e.1 ++ String.ofList (':' :: gap) ++ e.2).map String.toList := by
    rw [List.map_map]
    refine List.map_congr_left fun e _ => ?_
    simp [memberText, jsonText]
  rw [hmap, ← join_closed]
  simp [jsonDumps, gapJson]

/-- Values without parts. -/
def Value.isScalar : Value → Bool
  | .str _ | .list _ | .dict _ => false
  | _ => true

theorem scalarText_dumps {v : Value} (hscalar : v.isScalar = true) (hv : v.wellFormed = true) :
    ScalarText (jsonDumps (gapJson gap) v).toList v := by
  cases v with
  | none => exact scalarText_word (w := ("null".toList, .none)) (by simp [jsonWords])
  | bool b =>
    cases b with
    | false => exact scalarText_word (w := ("false".toList, .bool false)) (by simp [jsonWords])
    | true => exact scalarText_word (w := ("true".toList, .bool true)) (by simp [jsonWords])
  | int n => exact scalarText_int n
  | float x =>
    cases x with
    | dec m k => exact scalarText_dec hv
    | inf => exact scalarText_word (w := ("Infinity".toList, .float .inf)) (by simp [jsonWords])
    | negInf =>
      exact scalarText_word (w := ("-Infinity".toList, .float .negInf)) (by simp [jsonWords])
    | nan => exact scalarText_word (w := ("NaN".toList, .float .nan)) (by simp [jsonWords])
  | str s => cases hscalar
  | list xs => cases hscalar
  | dict d => cases hscalar

/-- What a value's text starts with: no blank and no closing bracket. -/
theorem dumps_head (gap : List Char) {v : Value} (hv : v.wellFormed = true) :
    ∃ c t, (jsonDumps (gapJson gap) v).toList = c :: t ∧ isJsonBlank c = false ∧ c ≠ ']' ∧
      c ≠ '\x7d' := by
  by_cases hscalar : v.isScalar = true
  · obtain ⟨c, t, ht, hc⟩ := (scalarText_dumps hscalar hv).head
    refine ⟨c, t, ht, ?_, (hc ']' (by decide)).symm, (hc '\x7d' (by decide)).symm⟩
    have h₁ := (hc ' ' (by decide)).symm
    have h₂ := (hc '\t' (by decide)).symm
    have h₃ := (hc '\n' (by decide)).symm
    have h₄ := (hc '\r' (by decide)).symm
    simp [isJsonBlank, h₁, h₂, h₃, h₄]
  · cases v with
    | str s => exact ⟨'"', s.toList.flatMap (jsonChar false) ++ ['"'],
        by simp [jsonDumps, jsonText, gapJson], by decide, by decide, by decide⟩
    | list xs => exact ⟨_, _, jsonDumps_list_toList gap xs, by decide, by decide, by decide⟩
    | dict d => exact ⟨_, _, jsonDumps_dict_toList gap d, by decide, by decide, by decide⟩
    | _ => exact absurd rfl hscalar

theorem skipBlanks_cons {c : Char} (hc : isJsonBlank c = false) (cs : List Char) :
    skipBlanks (c :: cs) = c :: cs := by
  simp [skipBlanks, hc]

theorem skipBlanks_gap (hgap : Blanks gap) {c : Char} (hc : isJsonBlank c = false)
    (cs : List Char) :
    skipBlanks (gap ++ c :: cs) = c :: cs := by
  unfold skipBlanks
  rw [List.dropWhile_append_of_pos hgap]
  exact skipBlanks_cons hc cs

theorem skipBlanks_dumps (hgap : Blanks gap) {v : Value} (hv : v.wellFormed = true)
    (cs : List Char) :
    skipBlanks ((jsonDumps (gapJson gap) v).toList ++ cs)
      = (jsonDumps (gapJson gap) v).toList ++ cs ∧
    skipBlanks (gap ++ ((jsonDumps (gapJson gap) v).toList ++ cs))
      = (jsonDumps (gapJson gap) v).toList ++ cs := by
  obtain ⟨c, t, ht, hc, _, _⟩ := dumps_head gap hv
  rw [ht, List.cons_append]
  exact ⟨skipBlanks_cons hc _, skipBlanks_gap hgap hc _⟩

/-- Setting the entries of a mapping one after the other builds it. -/
theorem foldl_set_append (d rest : Dict)
    (h : ((d ++ rest).map Prod.fst).Nodup) :
    rest.foldl (fun d e => Dict.set d e.1 e.2) d = d ++ rest := by
  induction rest generalizing d with
  | nil => simp
  | cons e rest ih =>
    have hset : Dict.set d e.1 e.2 = d ++ [e] := by
      have hnot : ∀ x ∈ d, x.1 ≠ e.1 := by
        intro x hx heq
        rw [List.map_append, List.nodup_append] at h
        exact h.2.2 x.1 (List.mem_map_of_mem hx) e.1 (by simp) heq
      clear h ih
      induction d with
      | nil => rfl
      | cons x d ih =>
        have hx : ¬ x.1 = e.1 := hnot x (by simp)
        have := ih fun y hy => hnot y (List.mem_cons_of_mem _ hy)
        simp [Dict.set, hx, this]
    rw [List.foldl_cons, hset, ih _ (by simpa using h)]
    simp

theorem delimits_comma (cs : List Char) : Delimits (',' :: cs) := Or.inl rfl

theorem delimits_bracket (cs : List Char) : Delimits (']' :: cs) := Or.inr (Or.inl rfl)

theorem delimits_brace (cs : List Char) : Delimits ('\x7d' :: cs) := Or.inr (Or.inr rfl)

/-- The text of a value is read back, whatever stands behind it. -/
def ReadsBack (gap : List Char) (v : Value) : Prop :=
  ∀ n cs, (jsonDumps (gapJson gap) v).toList.length ≤ n → Delimits cs →
    readValue n ((jsonDumps (gapJson gap) v).toList ++ cs) = some (v, cs)

/-- The text of the items of a list, behind the opening bracket. -/
def itemsText (gap : List Char) (xs : List Value) : List Char :=
  closedBy gap ']' ((jsonItems (gapJson gap) xs).map String.toList)

/-- The text of the members of a mapping, behind the opening brace. -/
def membersText (gap : List Char) (entries : List (String × Value)) : List Char :=
  closedBy gap '\x7d' ((jsonMembers (gapJson gap) entries).map (memberText gap))

def ReadsItems (gap : List Char) (xs : List Value) : Prop :=
  ∀ n cs, (itemsText gap xs).length ≤ n → readItems n (itemsText gap xs ++ cs) = some (xs, cs)

def ReadsMembers (gap : List Char) (entries : List (String × Value)) : Prop :=
  ∀ n cs, (membersText gap entries).length ≤ n →
    readMembers n (membersText gap entries ++ cs) = some (entries, cs)

theorem itemsText_head (gap : List Char) {x : Value} (xs : List Value) (hx : x.wellFormed = true) :
    ∃ c t, itemsText gap (x :: xs) = c :: t ∧ isJsonBlank c = false ∧ c ≠ ']' := by
  obtain ⟨c, t, ht, hblank, hclose, _⟩ := dumps_head gap hx
  cases xs with
  | nil => exact ⟨c, t ++ [']'], by simp [itemsText, jsonItems, closedBy, ht], hblank, hclose⟩
  | cons y ys => exact ⟨c, _, by simp [itemsText, jsonItems, closedBy, ht]; rfl, hblank, hclose⟩

theorem membersText_head (gap : List Char) (e : String × Value) (entries : List (String × Value)) :
    ∃ t, membersText gap (e :: entries) = '"' :: t := by
  cases entries with
  | nil => exact ⟨_, by simp [membersText, jsonMembers, closedBy, memberText]; rfl⟩
  | cons f fs => exact ⟨_, by simp [membersText, jsonMembers, closedBy, memberText]; rfl⟩

theorem readsBack_scalar {v : Value} (hscalar : v.isScalar = true) (hv : v.wellFormed = true) :
    ReadsBack gap v := by
  intro n cs hn hc
  obtain ⟨⟨c, t, ht, hne⟩, hread⟩ := scalarText_dumps hscalar hv
  obtain ⟨n, rfl⟩ : ∃ k, n = k + 1 := ⟨n - 1, by rw [ht, List.length_cons] at hn; omega⟩
  have hr := hread cs hc
  have h₁ : ¬ c = '"' := (hne '"' (by decide)).symm
  have h₂ : ¬ c = '[' := (hne '[' (by decide)).symm
  have h₃ : ¬ c = '\x7b' := (hne '\x7b' (by decide)).symm
  rw [ht, List.cons_append] at hr ⊢
  simp only [readValue, h₁, h₂, h₃, if_false]
  exact hr

theorem jsonChar_ne_nil (c : Char) : jsonChar false c ≠ [] := by
  have hescape : jsonEscape c ≠ [] := by
    unfold jsonEscape
    dsimp only
    by_cases h : c.toNat < 65536
    · rw [if_pos h]
      exact List.cons_ne_nil _ _
    · rw [if_neg h]
      exact List.cons_ne_nil _ _
  unfold jsonChar
  split_ifs
  iterate 7 exact List.cons_ne_nil _ _
  · exact hescape
  · exact List.cons_ne_nil _ _

theorem length_le_flatMap (cs : List Char) :
    cs.length ≤ (cs.flatMap (jsonChar false)).length := by
  induction cs with
  | nil => simp
  | cons c cs ih =>
    have hc := List.length_pos_iff.mpr (jsonChar_ne_nil c)
    rw [List.flatMap_cons, List.length_append, List.length_cons]
    omega

theorem readsBack_str (s : String) : ReadsBack gap (.str s) := by
  intro n cs hn _
  have htext : (jsonDumps (gapJson gap) (.str s)).toList
      = '"' :: (s.toList.flatMap (jsonChar false) ++ ['"']) := by
    simp [jsonDumps, jsonText, gapJson]
  have hlen := length_le_flatMap s.toList
  rw [htext] at hn ⊢
  obtain ⟨n, rfl⟩ : ∃ k, n = k + 1 := ⟨n - 1, by simp at hn; omega⟩
  have hfuel : s.toList.length < n := by
    simp only [List.length_cons, List.length_append, List.length_nil] at hn
    omega
  have hread := readText_chars cs hfuel
  simp only [List.cons_append, List.append_assoc, List.nil_append, readValue, if_true, hread]
  simp

theorem readsBack_list {xs : List Value} (hwf : wellFormedItems xs = true)
    (hxs : xs ≠ [] → ReadsItems gap xs) : ReadsBack gap (.list xs) := by
  intro n cs hn _
  rw [jsonDumps_list_toList] at hn ⊢
  change (('[' :: itemsText gap xs).length ≤ n) at hn
  change readValue n ('[' :: itemsText gap xs ++ cs) = _
  obtain ⟨n, rfl⟩ : ∃ k, n = k + 1 := ⟨n - 1, by rw [List.length_cons] at hn; omega⟩
  have hbracket : ¬ '[' = '"' := by decide
  rw [List.cons_append]
  simp only [readValue, hbracket, if_false, if_true]
  cases xs with
  | nil =>
    have hskip : skipBlanks (itemsText gap [] ++ cs) = ']' :: cs := skipBlanks_cons (by decide) cs
    simp [hskip, behindWord]
  | cons x xs =>
    have hx : x.wellFormed = true := by
      have h : (x.wellFormed && wellFormedItems xs) = true := hwf
      exact (Bool.and_eq_true _ _ ▸ h).1
    obtain ⟨c, t, ht, hblank, hclose⟩ := itemsText_head gap xs hx
    have hskip : skipBlanks (itemsText gap (x :: xs) ++ cs) = itemsText gap (x :: xs) ++ cs := by
      rw [ht]
      exact skipBlanks_cons hblank _
    have hnone : behindWord [']'] (itemsText gap (x :: xs) ++ cs) = none := by
      rw [ht]
      simp [behindWord, hclose.symm]
    have hread := hxs (by simp) n cs (by rw [List.length_cons] at hn; omega)
    simp [hskip, hnone, hread]

theorem readsBack_dict {entries : List (String × Value)}
    (hkeys : (entries.map Prod.fst).Nodup) (hentries : entries ≠ [] → ReadsMembers gap entries) :
    ReadsBack gap (.dict entries) := by
  intro n cs hn _
  rw [jsonDumps_dict_toList] at hn ⊢
  change (('\x7b' :: membersText gap entries).length ≤ n) at hn
  change readValue n ('\x7b' :: membersText gap entries ++ cs) = _
  obtain ⟨n, rfl⟩ : ∃ k, n = k + 1 := ⟨n - 1, by rw [List.length_cons] at hn; omega⟩
  have hbrace : ¬ '\x7b' = '"' ∧ ¬ '\x7b' = '[' := by decide
  rw [List.cons_append]
  simp only [readValue, hbrace.1, hbrace.2, if_false, if_true]
  cases entries with
  | nil =>
    have hskip : skipBlanks (membersText gap [] ++ cs) = '\x7d' :: cs :=
      skipBlanks_cons (by decide) cs
    simp [hskip, behindWord]
  | cons e entries =>
    obtain ⟨t, ht⟩ := membersText_head gap e entries
    have hskip : skipBlanks (membersText gap (e :: entries) ++ cs)
        = membersText gap (e :: entries) ++ cs := by
      rw [ht]
      exact skipBlanks_cons (by decide) _
    have hnone : behindWord ['\x7d'] (membersText gap (e :: entries) ++ cs) = none := by
      rw [ht]
      simp [behindWord]
    have hread := hentries (by simp) n cs (by rw [List.length_cons] at hn; omega)
    have hbuild := foldl_set_append [] (e :: entries) (by simpa using hkeys)
    rw [List.nil_append] at hbuild
    simp [hskip, hnone, hread, hbuild]

theorem readsItems_single {x : Value} (hx : ReadsBack gap x) : ReadsItems gap [x] := by
  intro n cs hn
  have htext : itemsText gap [x] = (jsonDumps (gapJson gap) x).toList ++ [']'] := rfl
  rw [htext, List.length_append, List.length_singleton] at hn
  rw [htext, List.append_assoc, List.singleton_append]
  obtain ⟨n, rfl⟩ : ∃ k, n = k + 1 := ⟨n - 1, by omega⟩
  have hread := hx n (']' :: cs) (by omega) (delimits_bracket cs)
  have hskip : skipBlanks (']' :: cs) = ']' :: cs := skipBlanks_cons (by decide) cs
  simp [readItems, hread, hskip]

theorem readsItems_cons (hgap : Blanks gap) {x y : Value} {xs : List Value}
    (hy : y.wellFormed = true) (hx : ReadsBack gap x) (hxs : ReadsItems gap (y :: xs)) :
    ReadsItems gap (x :: y :: xs) := by
  intro n cs hn
  have htext : itemsText gap (x :: y :: xs)
      = (jsonDumps (gapJson gap) x).toList ++ ',' :: (gap ++ itemsText gap (y :: xs)) := rfl
  rw [htext] at hn ⊢
  simp only [List.length_append, List.length_cons] at hn
  obtain ⟨n, rfl⟩ : ∃ k, n = k + 1 := ⟨n - 1, by omega⟩
  simp only [List.append_assoc, List.cons_append]
  obtain ⟨c, t, ht, hblank, _⟩ := itemsText_head gap xs hy
  have hread := hx n (',' :: (gap ++ (itemsText gap (y :: xs) ++ cs))) (by omega) (delimits_comma _)
  have hitems := hxs n cs (by omega)
  have hcomma : skipBlanks (',' :: (gap ++ (itemsText gap (y :: xs) ++ cs)))
      = ',' :: (gap ++ (itemsText gap (y :: xs) ++ cs)) := skipBlanks_cons (by decide) _
  have hnext : skipBlanks (gap ++ (itemsText gap (y :: xs) ++ cs))
      = itemsText gap (y :: xs) ++ cs := by
    rw [ht]
    exact skipBlanks_gap hgap hblank _
  simp [readItems, hread, hcomma, hnext, hitems]

/-- A member is read up to the brace or the comma behind it. -/
theorem readMembers_member (hgap : Blanks gap) {k : String} {x : Value}
    (hwf : x.wellFormed = true) (hx : ReadsBack gap x) {n : Nat}
    (hn : (memberText gap (k, jsonDumps (gapJson gap) x)).length ≤ n) (cs : List Char) :
    readMembers (n + 1) (memberText gap (k, jsonDumps (gapJson gap) x) ++ '\x7d' :: cs)
        = some ([(k, x)], cs) ∧
      readMembers (n + 1) (memberText gap (k, jsonDumps (gapJson gap) x) ++ ',' :: cs)
        = (readMembers n (skipBlanks cs)).map fun p => ((k, x) :: p.1, p.2) := by
  have htext : memberText gap (k, jsonDumps (gapJson gap) x)
      = '"' :: (k.toList.flatMap (jsonChar false) ++
          '"' :: ':' :: (gap ++ (jsonDumps (gapJson gap) x).toList)) := by
    simp [memberText]
  rw [htext] at hn ⊢
  simp only [List.length_cons, List.length_append] at hn
  simp only [List.cons_append, List.append_assoc]
  have hlen := length_le_flatMap k.toList
  have hkeyFuel : k.toList.length < n := by omega
  have hkey := fun rest =>
    readText_chars (':' :: (gap ++ ((jsonDumps (gapJson gap) x).toList ++ rest))) hkeyFuel
  have hcolon : ∀ rest, skipBlanks (':' :: (gap ++ ((jsonDumps (gapJson gap) x).toList ++ rest)))
      = ':' :: (gap ++ ((jsonDumps (gapJson gap) x).toList ++ rest)) := fun rest =>
    skipBlanks_cons (by decide) _
  have hskip := fun rest => (skipBlanks_dumps hgap hwf rest).2
  constructor
  · have hvalue := hx n ('\x7d' :: cs) (by omega) (delimits_brace cs)
    have hend : skipBlanks ('\x7d' :: cs) = '\x7d' :: cs := skipBlanks_cons (by decide) cs
    simp [readMembers, behindWord, hkey, hcolon, hskip, hvalue, hend]
  · have hvalue := hx n (',' :: cs) (by omega) (delimits_comma cs)
    have hend : skipBlanks (',' :: cs) = ',' :: cs := skipBlanks_cons (by decide) cs
    simp only [readMembers, behindWord, hkey, hcolon, hskip, hvalue, hend, if_true,
      Option.bind_eq_bind, Option.bind_some, String.ofList_toList]
    cases readMembers n (skipBlanks cs) <;> rfl

theorem readsMembers_single (hgap : Blanks gap) {k : String} {x : Value}
    (hwf : x.wellFormed = true) (hx : ReadsBack gap x) : ReadsMembers gap [(k, x)] := by
  intro n cs hn
  have htext : membersText gap [(k, x)]
      = memberText gap (k, jsonDumps (gapJson gap) x) ++ ['\x7d'] := rfl
  rw [htext, List.length_append, List.length_singleton] at hn
  rw [htext, List.append_assoc, List.singleton_append]
  obtain ⟨n, rfl⟩ : ∃ k, n = k + 1 := ⟨n - 1, by omega⟩
  exact (readMembers_member hgap hwf hx (by omega) cs).1

theorem readsMembers_cons (hgap : Blanks gap) {k : String} {x : Value} {e : String × Value}
    {entries : List (String × Value)} (hwf : x.wellFormed = true) (hx : ReadsBack gap x)
    (hentries : ReadsMembers gap (e :: entries)) : ReadsMembers gap ((k, x) :: e :: entries) := by
  intro n cs hn
  have htext : membersText gap ((k, x) :: e :: entries)
      = memberText gap (k, jsonDumps (gapJson gap) x)
        ++ ',' :: (gap ++ membersText gap (e :: entries)) := rfl
  rw [htext] at hn ⊢
  simp only [List.length_append, List.length_cons] at hn
  obtain ⟨n, rfl⟩ : ∃ k, n = k + 1 := ⟨n - 1, by omega⟩
  simp only [List.append_assoc, List.cons_append]
  obtain ⟨t, ht⟩ := membersText_head gap e entries
  have hread := hentries n cs (by omega)
  have hnext : skipBlanks (gap ++ (membersText gap (e :: entries) ++ cs))
      = membersText gap (e :: entries) ++ cs := by
    rw [ht]
    exact skipBlanks_gap hgap (by decide) _
  rw [(readMembers_member hgap hwf hx (by omega) _).2, hnext, hread]
  rfl

mutual

/-- **Every well-formed value is read back from its text.** -/
theorem readsBack (hgap : Blanks gap) : (v : Value) → v.wellFormed = true → ReadsBack gap v
  | .none, hv => readsBack_scalar rfl hv
  | .bool _, hv => readsBack_scalar rfl hv
  | .int _, hv => readsBack_scalar rfl hv
  | .float _, hv => readsBack_scalar rfl hv
  | .str s, _ => readsBack_str s
  | .list xs, hv => readsBack_list hv fun hne => readsItems hgap xs hv hne
  | .dict entries, hv => by
    have h := Bool.and_eq_true _ _ ▸ hv
    exact readsBack_dict (of_decide_eq_true h.2) fun hne => readsMembers hgap entries h.1 hne

theorem readsItems (hgap : Blanks gap) : (xs : List Value) → wellFormedItems xs = true →
    xs ≠ [] → ReadsItems gap xs
  | [], _, hne => absurd rfl hne
  | x :: xs, hwf, _ => by
    have h := Bool.and_eq_true _ _ ▸ hwf
    have hx := readsBack hgap x h.1
    cases xs with
    | nil => exact readsItems_single hx
    | cons y ys =>
      have hy := Bool.and_eq_true _ _ ▸ h.2
      exact readsItems_cons hgap hy.1 hx (readsItems hgap (y :: ys) h.2 (by simp))

theorem readsMembers (hgap : Blanks gap) : (entries : List (String × Value)) →
    wellFormedEntries entries = true → entries ≠ [] → ReadsMembers gap entries
  | [], _, hne => absurd rfl hne
  | (_, x) :: entries, hwf, _ => by
    have h := Bool.and_eq_true _ _ ▸ hwf
    have hx := readsBack hgap x h.1
    cases entries with
    | nil => exact readsMembers_single hgap h.1 hx
    | cons e rest =>
      exact readsMembers_cons hgap h.1 hx (readsMembers hgap (e :: rest) h.2 (by simp))

end

/-- **The round trip of JSON text**, with or without blanks behind commas and colons. -/
theorem jsonLoads_gap (hgap : Blanks gap) {v : Value} (hv : v.wellFormed = true) :
    jsonLoads (jsonDumps (gapJson gap) v) = some v := by
  have hread := readsBack hgap v hv (jsonDumps (gapJson gap) v).length []
    (le_of_eq String.length_toList) trivial
  have hskip := (skipBlanks_dumps hgap hv []).1
  rw [List.append_nil] at hread hskip
  unfold jsonLoads
  rw [hskip, hread]
  rfl

end Gap

/-- The round trip of the text that `json.dumps` writes by default. -/
theorem jsonLoads_jsonDumps {v : Value} (hv : v.wellFormed = true) :
    jsonLoads (jsonDumps plainJson v) = some v := by
  have hplain : plainJson = gapJson [' '] := rfl
  rw [hplain]
  apply jsonLoads_gap _ hv
  intro c hc
  rw [List.mem_singleton.mp hc]
  decide

end Py
