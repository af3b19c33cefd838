/-
RcloneSync/JsonDecode.lean

Reading JSON text: `json.loads` as a function on characters.

The reader follows the scanner of the standard library: blanks between tokens, `NaN`
and `Infinity` beside the JSON literals, numbers that take as many digits as they find,
and a later member replacing an earlier one of the same key.  A number with a fraction
or an exponent is read as the decimal it shows.  The fuel of the recursive readers is
the length of the text: every call consumes a character.

Well formed are the values that stand for Python values one to one: keys of a mapping
are distinct and a float is kept in its shortest form.
-/
import RcloneSync.Json

namespace Py

/-! ### Well-formed values -/

/-- A float in its only form: no factor of ten is left in the digits. -/
def PyFloat.canonical : PyFloat → Bool
  | .dec m k => k == 0 || m % 10 != 0
  | _ => true

mutual

/-- One value of the model for each value of the program. -/
def Value.wellFormed : Value → Bool
  | .float x => x.canonical
  | .list xs => wellFormedItems xs
  | .dict entries => wellFormedEntries entries && decide (entries.map Prod.fst).Nodup
  | _ => true

def wellFormedItems : List Value → Bool
  | [] => true
  | x :: xs => x.wellFormed && wellFormedItems xs

def wellFormedEntries : List (String × Value) → Bool
  | [] => true
  | (_, x) :: rest => x.wellFormed && wellFormedEntries rest

end

/-! ### Tokens -/

/-- Blanks that may stand between tokens. -/
def isJsonBlank (c : Char) : Bool := c = ' ' || c = '\t' || c = '\n' || c = '\r'

def skipBlanks (cs : List Char) : List Char := cs.dropWhile isJsonBlank

/-- The value of a hexadecimal digit. -/
def hexValue (c : Char) : Option Nat :=
  let n := c.toNat
  if 48 ≤ n ∧ n ≤ 57 then some (n - 48)
  else if 97 ≤ n ∧ n ≤ 102 then some (n - 87)
  else if 65 ≤ n ∧ n ≤ 70 then some (n - 55)
  else none

/-- The four digits of a `\u` escape. -/
def readHex : List Char → Option (Nat × List Char)
  | a :: b :: c :: d :: rest => do
    let a ← hexValue a
    let b ← hexValue b
    let c ← hexValue c
    let d ← hexValue d
    some (a * 4096 + b * 256 + c * 16 + d, rest)
  | _ => none

/-- The rest of the text behind a word it starts with. -/
def behindWord : List Char → List Char → Option (List Char)
  | [], cs => some cs
  | w :: ws, c :: cs => if w = c then behindWord ws cs else none
  | _ :: _, [] => none

/-- The characters that a backslash and one letter stand for. -/
def shortEscapes : List (Char × Char) :=
  [('"', '"'), ('\\', '\\'), ('/', '/'), ('b', Char.ofNat 8), ('f', Char.ofNat 12),
   ('n', '\n'), ('r', '\r'), ('t', '\t')]

/-- A `\u` escape.  A high surrogate takes the low one behind it; a surrogate on its own
is no character and is refused. -/
def readUnicode (cs : List Char) : Option (Char × List Char) := do
  let (n, rest) ← readHex cs
  if 55296 ≤ n ∧ n ≤ 56319 then do
    let low ← behindWord ['\\', 'u'] rest
    let (m, rest) ← readHex low
    if 56320 ≤ m ∧ m ≤ 57343 then
      some (Char.ofNat (65536 + (n - 55296) * 1024 + (m - 56320)), rest)
    else none
  else if 56320 ≤ n ∧ n ≤ 57343 then none
  else some (Char.ofNat n, rest)

/-- What follows a backslash. -/
def readEscape : List Char → Option (Char × List Char)
  | [] => none
  | c :: rest =>
    if c = 'u' then readUnicode rest
    else (shortEscapes.lookup c).map fun d => (d, rest)

/-- A string behind its opening quote. -/
def readText : Nat → List Char → Option (List Char × List Char)
  | 0, _ => none
  | _, [] => none
  | fuel + 1, c :: rest =>
    if c = '"' then some ([], rest)
    else if c = '\\' then do
      let (d, rest) ← readEscape rest
      let (text, rest) ← readText fuel rest
      some (d :: text, rest)
    else if c.toNat < 32 then none
    else do
      let (text, rest) ← readText fuel rest
      some (c :: text, rest)

/-! ### Numbers -/

/-- A decimal without factors of ten below the point. -/
def shortDec (m : Int) : Nat → PyFloat
  | 0 => .dec m 0
  | k + 1 => if m % 10 = 0 then shortDec (m / 10) k else .dec m (k + 1)

/-- `m * 10 ^ e` in its only form. -/
def decOf (m e : Int) : PyFloat :=
  if 0 ≤ e then .dec (m * 10 ^ e.toNat) 0 else shortDec m (-e).toNat

/-- Integer part: a lone zero or digits that do not start with one. -/
def readWhole : List Char → List Char × List Char
  | '0' :: rest => (['0'], rest)
  | cs => (cs.takeWhile Char.isDigit, cs.dropWhile Char.isDigit)

/-- The digits behind a point; a point without digits is not part of the number. -/
def readFraction : List Char → Option (List Char) × List Char
  | '.' :: rest =>
    if (rest.takeWhile Char.isDigit).isEmpty then (none, '.' :: rest)
    else (some (rest.takeWhile Char.isDigit), rest.dropWhile Char.isDigit)
  | cs => (none, cs)

/-- The sign of an exponent. -/
def readSign : List Char → Int × List Char
  | '+' :: rest => (1, rest)
  | '-' :: rest => (-1, rest)
  | cs => (1, cs)

def readExponent : List Char → Option Int × List Char
  | [] => (none, [])
  | c :: rest =>
    if c = 'e' || c = 'E' then
      let (sign, digits) := readSign rest
      if (digits.takeWhile Char.isDigit).isEmpty then (none, c :: rest)
      else (some (sign * Nat.ofDigitChars 10 (digits.takeWhile Char.isDigit) 0),
        digits.dropWhile Char.isDigit)
    else (none, c :: rest)

/-- A number without its sign, as a value of the given sign. -/
def readUnsigned (sign : Int) (cs : List Char) : Option (Value × List Char) :=
  let (whole, rest) := readWhole cs
  if whole.isEmpty then none
  else
    let (fraction, rest) := readFraction rest
    let (exponent, rest) := readExponent rest
    if fraction.isNone && exponent.isNone then
      some (.int (sign * Nat.ofDigitChars 10 whole 0), rest)
    else
      let digits := fraction.getD []
      some (.float (decOf (sign * Nat.ofDigitChars 10 (whole ++ digits) 0)
        (exponent.getD 0 - digits.length)), rest)

/-- The words that are values of their own. -/
def jsonWords : List (List Char × Value) :=
  [("null".toList, .none), ("true".toList, .bool true), ("false".toList, .bool false),
   ("NaN".toList, .float .nan), ("Infinity".toList, .float .inf),
   ("-Infinity".toList, .float .negInf)]

/-- What stands where a value is expected and starts with none of `"`, `\x7b`, `[`. -/
def readScalar (cs : List Char) : Option (Value × List Char) :=
  match jsonWords.findSome? fun w => (behindWord w.1 cs).map fun rest => (w.2, rest) with
  | some r => some r
  | none =>
    match cs with
    | '-' :: rest => readUnsigned (-1) rest
    | cs => readUnsigned 1 cs

/-! ### Values -/

mutual

/-- `scan_once`: the value that starts here and the text behind it. -/
def readValue : Nat → List Char → Option (Value × List Char)
  | 0, _ => none
  | _, [] => none
  | fuel + 1, c :: rest =>
    if c = '"' then do
      let (text, rest) ← readText fuel rest
      some (.str (String.ofList text), rest)
    else if c = '[' then do
      let (xs, rest) ←
        match behindWord [']'] (skipBlanks rest) with
        | some rest => some ([], rest)
        | none => readItems fuel (skipBlanks rest)
      some (.list xs, rest)
    else if c = '\x7b' then do
      let (members, rest) ←
        match behindWord ['\x7d'] (skipBlanks rest) with
        | some rest => some ([], rest)
        | none => readMembers fuel (skipBlanks rest)
      some (.dict (members.foldl (fun d e => Dict.set d e.1 e.2) []), rest)
    else readScalar (c :: rest)

/-- The items of a list up to its closing bracket. -/
def readItems : Nat → List Char → Option (List Value × List Char)
  | 0, _ => none
  | fuel + 1, cs => do
    let (x, rest) ← readValue fuel cs
    match skipBlanks rest with
    | [] => none
    | c :: rest =>
      if c = ']' then some ([x], rest)
      else if c = ',' then do
        let (xs, rest) ← readItems fuel (skipBlanks rest)
        some (x :: xs, rest)
      else none

/-- The members of a mapping up to its closing brace. -/
def readMembers : Nat → List Char → Option (List (String × Value) × List Char)
  | 0, _ => none
  | fuel + 1, cs => do
    let rest ← behindWord ['"'] cs
    let (key, rest) ← readText fuel rest
    let rest ← behindWord [':'] (skipBlanks rest)
    let (x, rest) ← readValue fuel (skipBlanks rest)
    match skipBlanks rest with
    | [] => none
    | c :: rest =>
      if c = '\x7d' then some ([(String.ofList key, x)], rest)
      else if c = ',' then do
        let (members, rest) ← readMembers fuel (skipBlanks rest)
        some ((String.ofList key, x) :: members, rest)
      else none

end

/-- `json.loads(text)`: `none` is a `JSONDecodeError`. -/
def jsonLoads (text : String) : Option Value := do
  let (v, rest) ← readValue text.length (skipBlanks text.toList)
  if (skipBlanks rest).isEmpty then some v else none

example : jsonLoads "[1, -2.50e-1, \"x\\u00e9\\n\"]"
    = some (.list [.int 1, .float (.dec (-25) 2), .str "xé\n"]) := by decide +kernel

end Py
