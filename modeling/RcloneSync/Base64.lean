/-
RcloneSync/Base64.lean

Base64 with the standard alphabet: `b64encode`, and `b64decode` with `validate=True`.

The decoder reads four characters at a time.  Padding may only close the text.  In front of it
stand some bits that belong to no byte, and the decoder does not look at them: two texts may
give the same bytes, but the bytes of an encoded text are the ones that were encoded
(`b64decode_b64encode`).
-/
import Mathlib.Data.List.Basic

namespace Base64

/-! ### The alphabet -/

/-- The character of six bits. -/
def sextetChar (n : Nat) : Char :=
  Char.ofNat (if n < 26 then n + 65 else if n < 52 then n + 71 else if n < 62 then n - 4
    else if n = 62 then 43 else 47)

/-- The six bits of a character. -/
def sextet (c : Char) : Option Nat :=
  let n := c.toNat
  if 65 ≤ n ∧ n ≤ 90 then some (n - 65)
  else if 97 ≤ n ∧ n ≤ 122 then some (n - 71)
  else if 48 ≤ n ∧ n ≤ 57 then some (n + 4)
  else if n = 43 then some 62
  else if n = 47 then some 63
  else none

theorem sextet_sextetChar {n : Nat} (h : n < 64) :
    sextet (sextetChar n) = some n ∧ sextetChar n ≠ '=' := by
  have hall : ∀ k < 64, sextet (sextetChar k) = some k ∧ sextetChar k ≠ '=' := by decide
  exact hall n h

/-! ### Encoding and decoding -/

def encode : List UInt8 → List Char
  | [] => []
  | [a] => [sextetChar (a.toNat / 4), sextetChar (a.toNat % 4 * 16), '=', '=']
  | [a, b] =>
    [sextetChar (a.toNat / 4), sextetChar (a.toNat % 4 * 16 + b.toNat / 16),
      sextetChar (b.toNat % 16 * 4), '=']
  | a :: b :: c :: rest =>
    sextetChar (a.toNat / 4) :: sextetChar (a.toNat % 4 * 16 + b.toNat / 16) ::
      sextetChar (b.toNat % 16 * 4 + c.toNat / 64) :: sextetChar (c.toNat % 64) :: encode rest

/-- Four characters; in the last four there may be padding. -/
def decodeQuad (w x y z : Char) (last : Bool) : Option (List UInt8) :=
  (sextet w).bind fun p => (sextet x).bind fun q =>
    if last ∧ y = '=' ∧ z = '=' then some [UInt8.ofNat (p * 4 + q / 16)]
    else (sextet y).bind fun r =>
      if last ∧ z = '=' then
        some [UInt8.ofNat (p * 4 + q / 16), UInt8.ofNat (q % 16 * 16 + r / 4)]
      else (sextet z).map fun s =>
        [UInt8.ofNat (p * 4 + q / 16), UInt8.ofNat (q % 16 * 16 + r / 4),
          UInt8.ofNat (r % 4 * 64 + s)]

def decode : List Char → Option (List UInt8)
  | [] => some []
  | w :: x :: y :: z :: rest =>
    (decodeQuad w x y z rest.isEmpty).bind fun head => (decode rest).map fun tail => head ++ tail
  | _ => none

/-- `base64.b64encode(data).decode("ascii")`. -/
def b64encode (data : List UInt8) : String := String.ofList (encode data)

/-- `base64.b64decode(text, validate=True)`; `none` is a `ValueError`. -/
def b64decode (text : String) : Option (List UInt8) := decode text.toList

/-! ### The round trip -/

theorem ofNat_of_eq {a : UInt8} {n : Nat} (h : n = a.toNat) : UInt8.ofNat n = a := by
  rw [h, UInt8.ofNat_toNat]

theorem decodeQuad_one (a : UInt8) :
    decodeQuad (sextetChar (a.toNat / 4)) (sextetChar (a.toNat % 4 * 16)) '=' '=' true
      = some [a] := by
  have ha := a.toNat_lt
  obtain ⟨hp, -⟩ := sextet_sextetChar (n := a.toNat / 4) (by omega)
  obtain ⟨hq, -⟩ := sextet_sextetChar (n := a.toNat % 4 * 16) (by omega)
  have hfirst : UInt8.ofNat (a.toNat / 4 * 4 + a.toNat % 4 * 16 / 16) = a :=
    ofNat_of_eq (by omega)
  simp only [decodeQuad, hp, hq, hfirst, Option.bind_some, and_self, if_true]

theorem decodeQuad_two (a b : UInt8) :
    decodeQuad (sextetChar (a.toNat / 4)) (sextetChar (a.toNat % 4 * 16 + b.toNat / 16))
      (sextetChar (b.toNat % 16 * 4)) '=' true = some [a, b] := by
  have ha := a.toNat_lt
  have hb := b.toNat_lt
  obtain ⟨hp, -⟩ := sextet_sextetChar (n := a.toNat / 4) (by omega)
  obtain ⟨hq, -⟩ := sextet_sextetChar (n := a.toNat % 4 * 16 + b.toNat / 16) (by omega)
  obtain ⟨hr, hne⟩ := sextet_sextetChar (n := b.toNat % 16 * 4) (by omega)
  have hfirst : UInt8.ofNat (a.toNat / 4 * 4 + (a.toNat % 4 * 16 + b.toNat / 16) / 16) = a :=
    ofNat_of_eq (by omega)
  have hsecond : UInt8.ofNat ((a.toNat % 4 * 16 + b.toNat / 16) % 16 * 16
      + b.toNat % 16 * 4 / 4) = b := ofNat_of_eq (by omega)
  simp only [decodeQuad, hp, hq, hr, hne, hfirst, hsecond, Option.bind_some, and_true,
    and_false, if_false, if_true]

theorem decodeQuad_three (a b c : UInt8) (last : Bool) :
    decodeQuad (sextetChar (a.toNat / 4)) (sextetChar (a.toNat % 4 * 16 + b.toNat / 16))
      (sextetChar (b.toNat % 16 * 4 + c.toNat / 64)) (sextetChar (c.toNat % 64)) last
      = some [a, b, c] := by
  have ha := a.toNat_lt
  have hb := b.toNat_lt
  have hc := c.toNat_lt
  obtain ⟨hp, -⟩ := sextet_sextetChar (n := a.toNat / 4) (by omega)
  obtain ⟨hq, -⟩ := sextet_sextetChar (n := a.toNat % 4 * 16 + b.toNat / 16) (by omega)
  obtain ⟨hr, -⟩ := sextet_sextetChar (n := b.toNat % 16 * 4 + c.toNat / 64) (by omega)
  obtain ⟨hs, hne⟩ := sextet_sextetChar (n := c.toNat % 64) (by omega)
  have hfirst : UInt8.ofNat (a.toNat / 4 * 4 + (a.toNat % 4 * 16 + b.toNat / 16) / 16) = a :=
    ofNat_of_eq (by omega)
  have hsecond : UInt8.ofNat ((a.toNat % 4 * 16 + b.toNat / 16) % 16 * 16
      + (b.toNat % 16 * 4 + c.toNat / 64) / 4) = b := ofNat_of_eq (by omega)
  have hthird : UInt8.ofNat ((b.toNat % 16 * 4 + c.toNat / 64) % 4 * 64 + c.toNat % 64) = c :=
    ofNat_of_eq (by omega)
  simp only [decodeQuad, hp, hq, hr, hs, hne, hfirst, hsecond, hthird, Option.bind_some,
    Option.map_some, and_false, if_false]

theorem decode_encode (data : List UInt8) : decode (encode data) = some data := by
  induction data using encode.induct with
  | case1 => rfl
  | case2 a =>
    show (decodeQuad _ _ '=' '=' true).bind _ = _
    rw [decodeQuad_one]
    rfl
  | case3 a b =>
    show (decodeQuad _ _ _ '=' true).bind _ = _
    rw [decodeQuad_two]
    rfl
  | case4 a b c rest ih =>
    show (decodeQuad _ _ _ _ (encode rest).isEmpty).bind _ = _
    rw [decodeQuad_three, ih]
    rfl

/-- **What was encoded is decoded.** -/
theorem b64decode_b64encode (data : List UInt8) : b64decode (b64encode data) = some data := by
  unfold b64decode b64encode
  rw [String.toList_ofList]
  exact decode_encode data

theorem length_encode (data : List UInt8) : (encode data).length = (data.length + 2) / 3 * 4 := by
  induction data using encode.induct with
  | case1 => rfl
  | case2 a => simp only [encode, List.length_cons, List.length_nil]
  | case3 a b => simp only [encode, List.length_cons, List.length_nil]
  | case4 a b c rest ih =>
    simp only [encode, List.length_cons, ih]
    omega

theorem length_b64encode (data : List UInt8) :
    (b64encode data).length = (data.length + 2) / 3 * 4 := by
  unfold b64encode
  rw [String.length_ofList]
  exact length_encode data

/-- The unused bits of the last character are free. -/
example : b64decode "QQ==" = some [65] ∧ b64decode "QR==" = some [65] ∧
    b64decode "QQ=" = none ∧ b64decode "QQ==QQ==" = none := by decide

end Base64
