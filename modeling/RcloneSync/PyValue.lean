/-
RcloneSync/PyValue.lean

The dynamically typed values of a decoded JSON or YAML document, with the
operations Python code applies to them without looking at their type first:
truth value, `==`, `str`, `int`, `x or y` and `dict.get`.

A float is kept as the decimal number its `repr` shows, so `str` is exact and
order, sign and integer part are those of the number.  Dictionaries are
association lists; `Dict.get` reads the first entry of a key and `Dict.set`
replaces it in place, as a Python `dict` keeps the position of a key.
-/
import Mathlib.Algebra.Order.Ring.Int
import Mathlib.Data.List.Forall2
import RcloneSync.PyText

namespace Py

/-- A Python float: the decimal `digits / 10 ^ scale` of its `repr`, or a special value. -/
inductive PyFloat
  | dec (digits : Int) (scale : Nat)
  | inf
  | negInf
  | nan
  deriving DecidableEq, Repr

/-- A decoded document value. -/
inductive Value
  | none
  | bool (b : Bool)
  | int (n : Int)
  | float (x : PyFloat)
  | str (s : String)
  | list (xs : List Value)
  | dict (entries : List (String × Value))
  deriving Repr

/-- A mapping with text keys. -/
abbrev Dict := List (String × Value)

/-- The exceptions the modelled code can end with. -/
inductive PyError
  | value (message : String)
  | type (message : String)
  | attribute (message : String)
  | overflow (message : String)
  | index (message : String)
  | runtime (message : String)
  | os (message : String)
  deriving DecidableEq, Repr

/-- A computation in two steps succeeds when both do. -/
theorem bind_ok {ε α β : Type} {x : Except ε α} {f : α → Except ε β} {b : β} :
    x >>= f = .ok b ↔ ∃ a, x = .ok a ∧ f a = .ok b := by
  cases x <;> simp [bind, Except.bind]

theorem except_map_ok {ε α β : Type} {x : Except ε α} {f : α → β} {b : β} (h : x.map f = .ok b) :
    ∃ a, x = .ok a ∧ b = f a := by
  cases x with
  | error e => cases h
  | ok a => exact ⟨a, rfl, (Except.ok.inj h).symm⟩

/-! ### Loops -/

theorem exists_left_of_forall₂ {α β : Type} {r : α → β → Prop} {xs : List α} {ys : List β}
    (h : List.Forall₂ r xs ys) {y : β} (hy : y ∈ ys) : ∃ x ∈ xs, r x y := by
  induction h with
  | nil => cases hy
  | cons hxy _ ih =>
    rcases List.mem_cons.mp hy with rfl | hy
    · exact ⟨_, List.mem_cons_self, hxy⟩
    · obtain ⟨x, hx, hxy⟩ := ih hy
      exact ⟨x, List.mem_cons_of_mem _ hx, hxy⟩

theorem exists_forall₂ {α β : Type} {r : α → β → Prop} {xs : List α}
    (h : ∀ x ∈ xs, ∃ y, r x y) : ∃ ys, List.Forall₂ r xs ys := by
  induction xs with
  | nil => exact ⟨[], .nil⟩
  | cons x xs ih =>
    obtain ⟨y, hy⟩ := h x List.mem_cons_self
    obtain ⟨ys, hys⟩ := ih fun x' hx' => h x' (List.mem_cons_of_mem _ hx')
    exact ⟨y :: ys, .cons hy hys⟩

theorem map_eq_of_forall₂ {α β γ : Type} {f : α → γ} {g : β → γ} {xs : List α} {ys : List β}
    (h : List.Forall₂ (fun x y => f x = g y) xs ys) : xs.map f = ys.map g := by
  induction h with
  | nil => rfl
  | cons hxy _ ih => rw [List.map_cons, List.map_cons, hxy, ih]

/-- A loop ends well when each of its items does. -/
theorem mapM_ok_iff {ε α β : Type} {f : α → Except ε β} {xs : List α} {ys : List β} :
    xs.mapM f = .ok ys ↔ List.Forall₂ (fun x y => f x = .ok y) xs ys := by
  induction xs generalizing ys with
  | nil =>
    constructor
    · intro h
      cases h
      exact .nil
    · intro h
      cases h
      rfl
  | cons x xs ih =>
    rw [List.mapM_cons]
    constructor
    · intro h
      rcases hx : f x with err | y
      · rw [hx] at h
        cases h
      · rcases hxs : xs.mapM f with err | zs
        · rw [hx, hxs] at h
          cases h
        · rw [hx, hxs] at h
          cases h
          exact .cons hx (ih.mp hxs)
    · intro h
      cases h with
      | cons hx hxs =>
        rw [hx, ih.mpr hxs]
        rfl

/-- Every result of a loop comes from one of its items. -/
theorem exists_of_mapM {ε α β : Type} {f : α → Except ε β} {xs : List α} {ys : List β}
    (h : xs.mapM f = .ok ys) {y : β} (hy : y ∈ ys) : ∃ x ∈ xs, f x = .ok y :=
  exists_left_of_forall₂ (mapM_ok_iff.mp h) hy

/-! ### Structural equality is decidable -/

mutual

def Value.decEq : (a b : Value) → Decidable (a = b)
  | .none, .none => isTrue rfl
  | .bool a, .bool b => decidable_of_iff (a = b) (by simp)
  | .int a, .int b => decidable_of_iff (a = b) (by simp)
  | .float a, .float b => decidable_of_iff (a = b) (by simp)
  | .str a, .str b => decidable_of_iff (a = b) (by simp)
  | .list a, .list b =>
    match Value.decEqList a b with
    | isTrue h => isTrue (by rw [h])
    | isFalse h => isFalse (by simpa using h)
  | .dict a, .dict b =>
    match Value.decEqEntries a b with
    | isTrue h => isTrue (by rw [h])
    | isFalse h => isFalse (by simpa using h)
  | .none, .bool _ | .none, .int _ | .none, .float _ | .none, .str _ | .none, .list _
  | .none, .dict _ => isFalse (by simp)
  | .bool _, .none | .bool _, .int _ | .bool _, .float _ | .bool _, .str _ | .bool _, .list _
  | .bool _, .dict _ => isFalse (by simp)
  | .int _, .none | .int _, .bool _ | .int _, .float _ | .int _, .str _ | .int _, .list _
  | .int _, .dict _ => isFalse (by simp)
  | .float _, .none | .float _, .bool _ | .float _, .int _ | .float _, .str _
  | .float _, .list _ | .float _, .dict _ => isFalse (by simp)
  | .str _, .none | .str _, .bool _ | .str _, .int _ | .str _, .float _ | .str _, .list _
  | .str _, .dict _ => isFalse (by simp)
  | .list _, .none | .list _, .bool _ | .list _, .int _ | .list _, .float _ | .list _, .str _
  | .list _, .dict _ => isFalse (by simp)
  | .dict _, .none | .dict _, .bool _ | .dict _, .int _ | .dict _, .float _ | .dict _, .str _
  | .dict _, .list _ => isFalse (by simp)

def Value.decEqList : (a b : List Value) → Decidable (a = b)
  | [], [] => isTrue rfl
  | [], _ :: _ | _ :: _, [] => isFalse (by simp)
  | x :: xs, y :: ys =>
    match Value.decEq x y, Value.decEqList xs ys with
    | isTrue h, isTrue hs => isTrue (by rw [h, hs])
    | isFalse h, _ => isFalse fun e => h (List.cons.inj e).1
    | _, isFalse h => isFalse fun e => h (List.cons.inj e).2

def Value.decEqEntries : (a b : List (String × Value)) → Decidable (a = b)
  | [], [] => isTrue rfl
  | [], _ :: _ | _ :: _, [] => isFalse (by simp)
  | (k, x) :: xs, (l, y) :: ys =>
    match (inferInstance : Decidable (k = l)), Value.decEq x y, Value.decEqEntries xs ys with
    | isTrue hk, isTrue h, isTrue hs => isTrue (by rw [hk, h, hs])
    | isFalse h, _, _ => isFalse fun e => h (Prod.ext_iff.mp (List.cons.inj e).1).1
    | _, isFalse h, _ => isFalse fun e => h (Prod.ext_iff.mp (List.cons.inj e).1).2
    | _, _, isFalse h => isFalse fun e => h (List.cons.inj e).2

end

instance : DecidableEq Value := Value.decEq

/-! ### Numbers -/

/-- Zero digits of the decimal digit blocks outside ASCII. -/
def digitZeros : List Nat :=
  [1632, 1776, 1984, 2406, 2534, 2662, 2790, 2918, 3046, 3174, 3302, 3430, 3558, 3664, 3792,
   3872, 4160, 4240, 6112, 6160, 6470, 6608, 6784, 6800, 6992, 7088, 7232, 7248, 42528, 43216,
   43264, 43472, 43504, 43600, 44016, 65296, 66720, 68912, 69734, 69872, 69942, 70096, 70384,
   70736, 70864, 71248, 71360, 71472, 71904, 72016, 72784, 73040, 73120, 92768, 92864, 93008,
   120782, 120792, 120802, 120812, 120822, 123200, 123632, 125264, 130032]

/-- The value of a decimal digit character. -/
def digitValue (c : Char) : Option Nat :=
  let n := c.toNat
  if 48 ≤ n ∧ n ≤ 57 then some (n - 48)
  else (digitZeros.find? fun z => z ≤ n && n ≤ z + 9).map (n - ·)

/-- Digits with single underscores between them; `seen` tells that a digit was just read. -/
def readDigits : List Char → Nat → Bool → Option Nat
  | [], acc, seen => if seen then some acc else none
  | '_' :: rest, acc, seen => if seen then readDigits rest acc false else none
  | c :: rest, acc, _ =>
    match digitValue c with
    | some d => readDigits rest (10 * acc + d) true
    | none => none

/-- `int(text)`: `none` is `ValueError`. -/
def intOfText (s : String) : Option Int :=
  match stripChars s.toList with
  | '+' :: cs => (readDigits cs 0 false).map Int.ofNat
  | '-' :: cs => (readDigits cs 0 false).map fun n => -Int.ofNat n
  | cs => (readDigits cs 0 false).map Int.ofNat

/-- Integer part of a decimal, towards zero. -/
def truncDec (digits : Int) (scale : Nat) : Int := digits.tdiv (10 ^ scale)

/-- `int(value)`. -/
def pyInt : Value → Except PyError Int
  | .bool b => .ok (if b then 1 else 0)
  | .int n => .ok n
  | .float (.dec m k) => .ok (truncDec m k)
  | .float .nan => .error (.value "cannot convert float NaN to integer")
  | .float _ => .error (.overflow "cannot convert float infinity to integer")
  | .str s =>
    match intOfText s with
    | some n => .ok n
    | none => .error (.value "invalid literal for int()")
  | .none | .list _ | .dict _ => .error (.type "int() argument must be a number")

/-- Truth value of a float. -/
def PyFloat.truthy : PyFloat → Bool
  | .dec m _ => m ≠ 0
  | _ => true

/-- Numeric value of booleans, integers and finite floats, as `digits / 10 ^ scale`. -/
def numberOf : Value → Option PyFloat
  | .bool b => some (.dec (if b then 1 else 0) 0)
  | .int n => some (.dec n 0)
  | .float x => some x
  | _ => none

/-- `==` on numbers. -/
def PyFloat.eq : PyFloat → PyFloat → Bool
  | .dec m k, .dec n l => m * 10 ^ l == n * 10 ^ k
  | .inf, .inf | .negInf, .negInf => true
  | _, _ => false

/-- `a ≤ b` on floats. -/
def PyFloat.le : PyFloat → PyFloat → Bool
  | .dec m k, .dec n l => m * 10 ^ l ≤ n * 10 ^ k
  | .negInf, .nan | .nan, _ | _, .nan => false
  | .negInf, _ | _, .inf => true
  | _, _ => false

/-! ### Truth value and equality -/

/-- `bool(value)`. -/
def truthy : Value → Bool
  | .none => false
  | .bool b => b
  | .int n => n ≠ 0
  | .float x => x.truthy
  | .str s => s ≠ ""
  | .list xs => !xs.isEmpty
  | .dict entries => !entries.isEmpty

/-- `x or y`. -/
def pyOr (x y : Value) : Value := if truthy x then x else y

mutual

/-- `a == b`. -/
def pyEq : Value → Value → Bool
  | .none, .none => true
  | .str a, .str b => a == b
  | .list a, .list b => pyEqList a b
  | .dict a, .dict b => a.length == b.length && pyEqEntries a b
  | a, b =>
    match numberOf a, numberOf b with
    | some x, some y => x.eq y
    | _, _ => false

def pyEqList : List Value → List Value → Bool
  | [], [] => true
  | a :: as, b :: bs => pyEq a b && pyEqList as bs
  | _, _ => false

/-- Every entry of the first mapping has an equal one in the second. -/
def pyEqEntries : List (String × Value) → List (String × Value) → Bool
  | [], _ => true
  | (k, a) :: as, bs =>
    (match bs.lookup k with
      | some b => pyEq a b
      | none => false) && pyEqEntries as bs

end

/-- `value in (c₁, …, cₙ)`. -/
def pyIn (v : Value) (cs : List Value) : Bool := cs.any (pyEq v)

/-! ### Text of a value -/

/-- `repr` of a finite float. -/
def decRepr (digits : Int) (scale : Nat) : String :=
  let all := (toString digits.natAbs).toList
  let kept := all.rdropWhile (· = '0')
  let n := kept.length
  -- the decimal point stands after the first `point` digits
  let point : Int := if n = 0 then 1 else (all.length : Int) - scale
  let body :=
    if n = 0 then "0.0".toList
    else if -4 ≤ point - 1 ∧ point - 1 < 16 then
      if point ≤ 0 then "0.".toList ++ List.replicate point.natAbs '0' ++ kept
      else if (n : Int) ≤ point then
        kept ++ List.replicate (point.toNat - n) '0' ++ ".0".toList
      else kept.take point.toNat ++ '.' :: kept.drop point.toNat
    else
      let e := point - 1
      let mantissa := if n = 1 then kept else kept.take 1 ++ '.' :: kept.drop 1
      let ds := (toString e.natAbs).toList
      mantissa ++ 'e' :: (if e < 0 then '-' else '+') ::
        (if ds.length < 2 then '0' :: ds else ds)
  String.ofList (if digits < 0 then '-' :: body else body)

def PyFloat.repr : PyFloat → String
  | .dec m k => decRepr m k
  | .inf => "inf"
  | .negInf => "-inf"
  | .nan => "nan"

/-- Lower-case hexadecimal digits of `n`, at least `width` of them. -/
def hexText (width n : Nat) : List Char :=
  let ds := Nat.toDigits 16 n
  List.replicate (width - ds.length) '0' ++ ds

/-- One character inside `repr(text)` with quote character `quote`. -/
def reprChar (quote c : Char) : List Char :=
  if c = '\\' || c = quote then ['\\', c]
  else if c = '\n' then ['\\', 'n']
  else if c = '\r' then ['\\', 'r']
  else if c = '\t' then ['\\', 't']
  else if isPrintable c then [c]
  else if c.toNat < 256 then '\\' :: 'x' :: hexText 2 c.toNat
  else if c.toNat < 65536 then '\\' :: 'u' :: hexText 4 c.toNat
  else '\\' :: 'U' :: hexText 8 c.toNat

/-- `repr(text)`. -/
def textRepr (s : String) : String :=
  let quote := if s.toList.contains '\'' && !s.toList.contains '"' then '"' else '\''
  String.ofList (quote :: s.toList.flatMap (reprChar quote) ++ [quote])

mutual

/-- `repr(value)`. -/
def pyRepr : Value → String
  | .none => "None"
  | .bool b => if b then "True" else "False"
  | .int n => toString n
  | .float x => x.repr
  | .str s => textRepr s
  | .list xs => "[" ++ join ", " (pyReprList xs) ++ "]"
  | .dict entries => "\x7b" ++ join ", " (pyReprEntries entries) ++ "\x7d"

def pyReprList : List Value → List String
  | [] => []
  | x :: xs => pyRepr x :: pyReprList xs

def pyReprEntries : List (String × Value) → List String
  | [] => []
  | (k, x) :: rest => (textRepr k ++ ": " ++ pyRepr x) :: pyReprEntries rest

end

/-- `str(value)`. -/
def pyStr : Value → String
  | .str s => s
  | v => pyRepr v

/-! ### Mappings -/

/-- `mapping.get(key)`, with `Value.none` for a missing key. -/
def Dict.get (d : Dict) (key : String) : Value := (d.lookup key).getD .none

/-- `mapping.get(key, default)`. -/
def Dict.getOr (d : Dict) (key : String) (fallback : Value) : Value :=
  (d.lookup key).getD fallback

/-- `key in mapping`. -/
def Dict.has (d : Dict) (key : String) : Bool := (d.lookup key).isSome

/-- `mapping[key] = value`. -/
def Dict.set : Dict → String → Value → Dict
  | [], key, v => [(key, v)]
  | (k, w) :: rest, key, v => if k = key then (k, v) :: rest else (k, w) :: Dict.set rest key v

/-- `{**a, **b}`. -/
def Dict.merge (a b : Dict) : Dict := b.foldl (fun d e => Dict.set d e.1 e.2) a

/-- `mapping.pop(key, None)`. -/
def Dict.erase (d : Dict) (key : String) : Dict := d.filter fun e => e.1 ≠ key

/-- `str(mapping.get(key) or fallback)`. -/
def Dict.textOr (d : Dict) (key fallback : String) : String :=
  pyStr (pyOr (d.get key) (.str fallback))

/-- The mapping behind a value: `isinstance(value, dict)`. -/
def asDict : Value → Option Dict
  | .dict d => some d
  | _ => none

theorem eq_dict_of_asDict {v : Value} {d : Dict} (h : asDict v = some d) : v = .dict d := by
  cases v with
  | dict d' => exact congrArg Value.dict (Option.some.inj h)
  | _ => cases h

/-- The list behind a value: `isinstance(value, list)`. -/
def asList : Value → Option (List Value)
  | .list xs => some xs
  | _ => none

@[simp] theorem truthy_str (s : String) : truthy (.str s) = (s ≠ "") := by simp [truthy]

@[simp] theorem pyStr_str (s : String) : pyStr (.str s) = s := rfl

theorem Dict.lookup_set (d : Dict) (key : String) (v : Value) (k : String) :
    (d.set key v).lookup k = if k = key then some v else d.lookup k := by
  induction d with
  | nil =>
    by_cases h : k = key
    · simp [Dict.set, h]
    · have hk : (k == key) = false := by simpa using h
      simp [Dict.set, List.lookup_cons, h, hk]
  | cons e rest ih =>
    obtain ⟨l, w⟩ := e
    by_cases hl : l = key
    · subst hl
      by_cases h : k = l
      · simp [Dict.set, h]
      · have hk : (k == l) = false := by simpa using h
        simp [Dict.set, List.lookup_cons, h, hk]
    · by_cases h : k = l
      · subst h
        simp [Dict.set, hl]
      · have hkl : (k == l) = false := by simpa using h
        simp [Dict.set, List.lookup_cons, hl, hkl, ih]

theorem Dict.mem_of_mem_set {d : Dict} {key : String} {v : Value} {e : String × Value}
    (h : e ∈ d.set key v) : e = (key, v) ∨ e ∈ d := by
  induction d with
  | nil => exact Or.inl (by simpa [Dict.set] using h)
  | cons f rest ih =>
    obtain ⟨k, w⟩ := f
    unfold Dict.set at h
    split_ifs at h with hk
    · rcases List.mem_cons.mp h with rfl | h
      · exact Or.inl (by rw [hk])
      · exact Or.inr (List.mem_cons_of_mem _ h)
    · rcases List.mem_cons.mp h with rfl | h
      · exact Or.inr (by simp)
      · exact (ih h).imp id (List.mem_cons_of_mem _)

theorem Dict.get_of_lookup {d : Dict} {key : String} {v : Value} (h : d.lookup key = some v) :
    d.get key = v := by
  simp [Dict.get, h]

theorem mem_of_lookup {α β : Type} [BEq α] [LawfulBEq α] {xs : List (α × β)} {a : α} {b : β}
    (h : xs.lookup a = some b) : (a, b) ∈ xs := by
  obtain ⟨before, after, rfl, -⟩ := List.lookup_eq_some_iff.mp h
  exact List.mem_append_right _ List.mem_cons_self

/-- In a list with distinct keys the entry of a key is the one found for it. -/
theorem lookup_of_mem {α β : Type*} [BEq α] [LawfulBEq α] {entries : List (α × β)}
    (hkeys : (entries.map Prod.fst).Nodup) {k : α} {v : β} (h : (k, v) ∈ entries) :
    entries.lookup k = some v := by
  induction entries with
  | nil => cases h
  | cons first rest ih =>
    obtain ⟨hfirst, hkeys⟩ := List.nodup_cons.mp hkeys
    rcases List.mem_cons.mp h with rfl | h
    · simp
    · have hne : (k == first.1) = false := by
        apply beq_false_of_ne
        rintro rfl
        exact hfirst (List.mem_map.mpr ⟨_, h, rfl⟩)
      rw [List.lookup_cons, hne]
      exact ih hkeys h

theorem Dict.mem_of_lookup {d : Dict} {key : String} {v : Value} (h : d.lookup key = some v) :
    (key, v) ∈ d := Py.mem_of_lookup h

@[simp] theorem Dict.get_set_self (d : Dict) (key : String) (v : Value) :
    (d.set key v).get key = v := by
  simp [Dict.get, Dict.lookup_set]

theorem Dict.get_set_ne (d : Dict) {key k : String} (v : Value) (h : k ≠ key) :
    (d.set key v).get k = d.get k := by
  simp [Dict.get, Dict.lookup_set, h]

example : pyStr (.list [.str "a'b", .float (.dec 15 1), .none, .bool true])
    = "[\"a'b\", 1.5, None, True]" := by decide

end Py
