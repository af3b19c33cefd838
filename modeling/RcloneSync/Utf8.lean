/-
RcloneSync/Utf8.lean

UTF-8 read byte by byte, as an incremental decoder reads it: what is left of an incomplete
character waits in the state for the next bytes.  A byte that cannot stand where it stands ends the
decoding (`decodeBlock`) or is replaced (`replaceByte`).
-/
import Mathlib.Data.List.Basic

namespace Py

/-! ### A character, byte by byte -/

/-- Inside a character: how many bytes it still takes, its bits so far, and what the next byte may
be. -/
structure Utf8State where
  owed : Nat
  bits : Nat
  low : Nat
  high : Nat
  deriving DecidableEq, Repr

def Utf8State.start : Utf8State := ⟨0, 0, 128, 191⟩

/-- The first byte of a longer character. -/
def utf8Lead (n : Nat) : Option Utf8State :=
  if 194 ≤ n ∧ n ≤ 223 then some ⟨1, n - 192, 128, 191⟩
  else if n = 224 then some ⟨2, 0, 160, 191⟩
  else if n = 237 then some ⟨2, 13, 128, 159⟩
  else if 225 ≤ n ∧ n ≤ 239 then some ⟨2, n - 224, 128, 191⟩
  else if n = 240 then some ⟨3, 0, 144, 191⟩
  else if 241 ≤ n ∧ n ≤ 243 then some ⟨3, n - 240, 128, 191⟩
  else if n = 244 then some ⟨3, 4, 128, 143⟩
  else none

def utf8Byte (u : Utf8State) (b : UInt8) : Option (Utf8State × List Char) :=
  let n := b.toNat
  if u.owed = 0 then
    if n < 128 then some (.start, [Char.ofNat n]) else (utf8Lead n).map (·, [])
  else if u.low ≤ n ∧ n ≤ u.high then
    let bits := u.bits * 64 + (n - 128)
    if u.owed = 1 then some (.start, [Char.ofNat bits])
    else some (⟨u.owed - 1, bits, 128, 191⟩, [])
  else none

/-- `utf8.decode(block)`: the characters that are complete. -/
def decodeBlock (u : Utf8State) : List UInt8 → Option (Utf8State × List Char)
  | [] => some (u, [])
  | b :: bs => do
    let (u, cs) ← utf8Byte u b
    let (u, ds) ← decodeBlock u bs
    some (u, cs ++ ds)

/-- `data.decode("utf-8")`. -/
def decodeText (bytes : List UInt8) : Option (List Char) :=
  (decodeBlock .start bytes).bind fun r => if r.1.owed = 0 then some r.2 else none

/-- The characters before the first byte that cannot stand where it stands. -/
def validText (u : Utf8State) : List UInt8 → List Char
  | [] => []
  | b :: bs =>
    match utf8Byte u b with
    | none => []
    | some (u, cs) => cs ++ validText u bs

/-- A byte, with the replacement character for what cannot be decoded before it and at it. -/
def replaceByte (u : Utf8State) (b : UInt8) : Utf8State × List Char :=
  match utf8Byte u b with
  | some r => r
  | none =>
    if u.owed = 0 then (.start, ['\uFFFD'])
    else
      match utf8Byte .start b with
      | some (v, cs) => (v, '\uFFFD' :: cs)
      | none => (.start, ['\uFFFD', '\uFFFD'])

/-- What an incomplete character in the end is replaced by. -/
def Utf8State.unfinished (u : Utf8State) : List Char := if u.owed = 0 then [] else ['\uFFFD']

/-! ### Block by block -/

theorem decodeBlock_append (u : Utf8State) (a b : List UInt8) :
    decodeBlock u (a ++ b) = (decodeBlock u a).bind fun r =>
      (decodeBlock r.1 b).map fun r' => (r'.1, r.2 ++ r'.2) := by
  induction a generalizing u with
  | nil =>
    show decodeBlock u b = (decodeBlock u b).map fun r' => (r'.1, [] ++ r'.2)
    simp
  | cons x a ih =>
    simp only [List.cons_append, decodeBlock, Option.bind_eq_bind, ih]
    cases utf8Byte u x with
    | none => rfl
    | some r =>
      simp only [Option.bind_some]
      cases decodeBlock r.1 a with
      | none => rfl
      | some r' =>
        simp only [Option.bind_some]
        cases decodeBlock r'.1 b <;> simp

theorem validText_append {u u' : Utf8State} {a : List UInt8} {cs : List Char}
    (h : decodeBlock u a = some (u', cs)) (b : List UInt8) :
    validText u (a ++ b) = cs ++ validText u' b := by
  induction a generalizing u cs with
  | nil =>
    obtain ⟨rfl, rfl⟩ := Prod.mk.inj (Option.some.inj h)
    rfl
  | cons x a ih =>
    simp only [decodeBlock, Option.bind_eq_bind, Option.bind_eq_some_iff, Prod.exists] at h
    obtain ⟨v, ds, hx, w, es, hrest, hsame⟩ := h
    obtain ⟨rfl, rfl⟩ := Prod.mk.inj (Option.some.inj hsame)
    rw [List.cons_append, validText, hx]
    dsimp only
    rw [ih hrest, List.append_assoc]

end Py
