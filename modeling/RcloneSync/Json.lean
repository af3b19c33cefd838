/-
RcloneSync/Json.lean

The JSON text of a document value, as `json.dumps` writes it: with or without
escaping of non-ASCII characters (`ensure_ascii`), with the default or the compact
separators, with or without sorted keys.  Databases and size limits see this text;
reading it back gives the value it was written from.
-/
import RcloneSync.PyValue

namespace Py

/-- The options of `json.dumps` that the program uses. -/
structure JsonStyle where
  ascii : Bool
  itemSep : String
  keySep : String
  sortKeys : Bool
  deriving DecidableEq, Repr

/-- `json.dumps(value, ensure_ascii=False)`. -/
def plainJson : JsonStyle := ⟨false, ", ", ": ", false⟩

/-- `json.dumps(value, ensure_ascii=False, sort_keys=True, separators=(",", ":"))`. -/
def compactJson : JsonStyle := ⟨false, ",", ":", true⟩

/-- `json.dumps(value, ensure_ascii=False, sort_keys=True)`. -/
def sortedJson : JsonStyle := ⟨false, ", ", ": ", true⟩

/-- `\uXXXX` escapes of a character, as surrogates beyond the basic plane. -/
def jsonEscape (c : Char) : List Char :=
  let n := c.toNat
  if n < 65536 then '\\' :: 'u' :: hexText 4 n
  else
    let m := n - 65536
    '\\' :: 'u' :: hexText 4 (55296 + m / 1024) ++ '\\' :: 'u' :: hexText 4 (56320 + m % 1024)

/-- One character inside a JSON string. -/
def jsonChar (ascii : Bool) (c : Char) : List Char :=
  if c = '"' then ['\\', '"']
  else if c = '\\' then ['\\', '\\']
  else if c = '\n' then ['\\', 'n']
  else if c = '\r' then ['\\', 'r']
  else if c = '\t' then ['\\', 't']
  else if c.toNat = 12 then ['\\', 'f']
  else if c.toNat = 8 then ['\\', 'b']
  else if c.toNat < 32 || (ascii && 127 ≤ c.toNat) then jsonEscape c
  else [c]

def jsonText (ascii : Bool) (s : String) : String :=
  String.ofList ('"' :: s.toList.flatMap (jsonChar ascii) ++ ['"'])

/-- JSON text of a float. -/
def PyFloat.json : PyFloat → String
  | .dec m k => decRepr m k
  | .inf => "Infinity"
  | .negInf => "-Infinity"
  | .nan => "NaN"

/-- Insert by key, behind entries with an equal key. -/
def insertByKey {α : Type} (e : String × α) : List (String × α) → List (String × α)
  | [] => [e]
  | f :: rest => if e.1 < f.1 then e :: f :: rest else f :: insertByKey e rest

mutual

def jsonDumps (style : JsonStyle) : Value → String
  | .none => "null"
  | .bool b => if b then "true" else "false"
  | .int n => toString n
  | .float x => x.json
  | .str s => jsonText style.ascii s
  | .list xs => "[" ++ join style.itemSep (jsonItems style xs) ++ "]"
  | .dict entries =>
    let members := jsonMembers style entries
    let ordered := if style.sortKeys then members.foldr insertByKey [] else members
    "\x7b" ++ join style.itemSep
      (ordered.map fun e => jsonText style.ascii e.1 ++ style.keySep ++ e.2) ++ "\x7d"

def jsonItems (style : JsonStyle) : List Value → List String
  | [] => []
  | x :: xs => jsonDumps style x :: jsonItems style xs

/-- The members of a mapping with the text of their values. -/
def jsonMembers (style : JsonStyle) : List (String × Value) → List (String × String)
  | [] => []
  | (k, x) :: rest => (k, jsonDumps style x) :: jsonMembers style rest

end

/-- `len(text.encode("utf-8"))`. -/
def utf8Length (s : String) : Nat := s.utf8ByteSize

example : jsonDumps plainJson (.dict [("größe", .list [.int 1, .float (.dec 25 1), .none])])
    = "\x7b\"größe\": [1, 2.5, null]\x7d" := by decide

example : jsonDumps compactJson (.dict [("b", .bool true), ("a", .str "x\"y")])
    = "\x7b\"a\":\"x\\\"y\",\"b\":true\x7d" := by decide +kernel

end Py
