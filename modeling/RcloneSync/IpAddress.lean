/-
RcloneSync/IpAddress.lean

Internet addresses and networks as the `ipaddress` module of the standard library reads and writes
them.  An address is its number, and a network the number of its first address with a mask.
-/
import RcloneSync.JsonDecode

namespace Py

/-! ### Addresses -/

inductive IpAddress
  | v4 (a : BitVec 32)
  | v6 (a : BitVec 128)
  deriving DecidableEq, Repr

/-- An octet: at most three ASCII digits, without a leading zero. -/
def parseOctet (s : String) : Option Nat :=
  let cs := s.toList
  let n := Nat.ofDigitChars 10 cs 0
  if cs = [] ∨ cs.any (fun c => !c.isDigit) ∨ 3 < cs.length ∨ (s ≠ "0" ∧ cs.head? = some '0') ∨
      255 < n then none
  else some n

/-- `IPv4Address(text)`. -/
def parseV4 (s : String) : Option (BitVec 32) := do
  let octets ← (splitOn '.' s).mapM parseOctet
  if octets.length = 4 then some (BitVec.ofNat 32 (octets.foldl (fun n octet => n * 256 + octet) 0))
  else none

/-- A hextet: one to four hexadecimal digits. -/
def parseHextet (s : String) : Option Nat := do
  let digits ← s.toList.mapM hexValue
  if digits = [] ∨ 4 < digits.length then none
  else some (digits.foldl (fun n digit => n * 16 + digit) 0)

/-- `'%x' % n`. -/
def hextetText (n : Nat) : String := String.ofList (Nat.toDigits 16 n)

/-- An address of version 4 at the end stands for two hextets. -/
def v6Parts (parts : List String) : Option (List String) :=
  match parts.getLast? with
  | some last =>
    if '.' ∈ last.toList then
      (parseV4 last).map fun a =>
        parts.dropLast ++ [hextetText (a.toNat / 65536), hextetText (a.toNat % 65536)]
    else some parts
  | none => none

/-- The parts before and behind `::`; an empty part at an end belongs to it. -/
def besideSkip (parts : List String) (outer : Option String) : Option (List String) :=
  if outer = some "" then (if parts.length = 1 then some [] else none) else some parts

/-- The hextets of an address, with those that `::` leaves out. -/
def v6Hextets (parts : List String) : Option (List Nat) :=
  let inner := (List.range parts.length).filter fun i =>
    0 < i && i + 1 < parts.length && parts[i]? = some ""
  match inner with
  | [] => if parts.length = 8 then parts.mapM parseHextet else none
  | [k] => do
    let hi ← besideSkip (parts.take k) parts.head?
    let lo ← besideSkip (parts.drop (k + 1)) parts.getLast?
    if 8 ≤ hi.length + lo.length then none
    else do
      let hi ← hi.mapM parseHextet
      let lo ← lo.mapM parseHextet
      some (hi ++ List.replicate (8 - (hi.length + lo.length)) 0 ++ lo)
  | _ => none

/-- `IPv6Address(text)`, without a scope. -/
def parseV6 (s : String) : Option (BitVec 128) := do
  let parts := splitOn ':' s
  if parts.length < 3 then none
  else do
    let parts ← v6Parts parts
    if 9 < parts.length then none
    else do
      let hextets ← v6Hextets parts
      some (BitVec.ofNat 128 (hextets.foldl (fun n hextet => n * 65536 + hextet) 0))

/-- `ipaddress.ip_address(text)`, for a text without a scope: `none` is a `ValueError`. -/
def ipAddress (s : String) : Option IpAddress :=
  match parseV4 s with
  | some a => some (.v4 a)
  | none => (parseV6 s).map .v6

/-! ### Texts -/

def v4Text (n : Nat) : String :=
  join "." ([n / 16777216, n / 65536 % 256, n / 256 % 256, n % 256].map toString)

/-- The first of the longest runs of zeros: where it starts and how long it is. -/
def zeroRun (hextets : List Nat) : Nat × Nat :=
  let runs := (List.range hextets.length).map fun i =>
    (i, ((hextets.drop i).takeWhile (· = 0)).length)
  runs.foldl (fun best run => if best.2 < run.2 then run else best) (0, 0)

/-- `_compress_hextets`. -/
def compressHextets (hextets : List Nat) : List String :=
  let (start, length) := zeroRun hextets
  if length ≤ 1 then hextets.map hextetText
  else
    (if start = 0 then [""] else []) ++ (hextets.take start).map hextetText ++ [""] ++
      (hextets.drop (start + length)).map hextetText ++
      (if start + length = hextets.length then [""] else [])

def hextetsOf (n : Nat) : List Nat := (List.range 8).map fun i => n / 65536 ^ (7 - i) % 65536

/-- An address of version 6; from Python 3.13 on, one that stands for an address of version 4
shows it. -/
def v6Text (dotted : Bool) (n : Nat) : String :=
  if dotted && n / 4294967296 = 65535 then "::ffff:" ++ v4Text (n % 4294967296)
  else join ":" (compressHextets (hextetsOf n))

/-- `str(address)`. -/
def IpAddress.text (dotted : Bool) : IpAddress → String
  | .v4 a => v4Text a.toNat
  | .v6 a => v6Text dotted a.toNat

example : (ipAddress "2001:DB8::a:0:1").map (IpAddress.text true) = some "2001:db8::a:0:1" := by
  decide +kernel

/-! ### Networks -/

inductive IpNetwork
  | v4 (base mask : BitVec 32)
  | v6 (base mask : BitVec 128)
  deriving DecidableEq, Repr

/-- The mask with so many leading ones. -/
def prefixMask (w k : Nat) : BitVec w := BitVec.allOnes w <<< (w - k)

/-- A prefix length: ASCII digits. -/
def parsePrefix (w : Nat) (s : String) : Option Nat :=
  let n := Nat.ofDigitChars 10 s.toList 0
  if s = "" ∨ s.toList.any (fun c => !c.isDigit) ∨ w < n then none else some n

/-- The prefix length of a mask or of its complement. -/
def prefixOfMask (mask : BitVec 32) : Option Nat :=
  let find := fun m : BitVec 32 => (List.range 33).find? fun k => prefixMask 32 k = m
  match find mask with
  | some k => some k
  | none => find (~~~mask)

/-- What stands behind the slash of a network of version 4. -/
def netmaskV4 (s : String) : Option Nat :=
  match parsePrefix 32 s with
  | some k => some k
  | none => (parseV4 s).bind prefixOfMask

/-- A network of version 4, `strict=False`. -/
def networkV4 (address : String) (mask : Option String) : Option IpNetwork := do
  let a ← parseV4 address
  let k ← mask.elim (some 32) netmaskV4
  some (.v4 (a &&& prefixMask 32 k) (prefixMask 32 k))

/-- The address before a scope; the scope is not empty and has no `%`. -/
def withoutScope (s : String) : Option String :=
  match splitOn '%' s with
  | [address] => some address
  | [address, scope] => if scope = "" then none else some address
  | _ => none

/-- A network of version 6, `strict=False`. -/
def networkV6 (address : String) (mask : Option String) : Option IpNetwork := do
  let a ← (withoutScope address).bind parseV6
  let k ← mask.elim (some 128) (parsePrefix 128)
  some (.v6 (a &&& prefixMask 128 k) (prefixMask 128 k))

/-- `ipaddress.ip_network(text, strict=False)`: `none` is a `ValueError`. -/
def ipNetwork (s : String) : Option IpNetwork :=
  let read := fun address mask =>
    match networkV4 address mask with
    | some n => some n
    | none => networkV6 address mask
  match splitOn '/' s with
  | [address] => read address none
  | [address, mask] => read address (some mask)
  | _ => none

/-- `address in network`, for the same version. -/
def IpNetwork.contains : IpNetwork → IpAddress → Bool
  | .v4 base mask, .v4 a => a &&& mask = base
  | .v6 base mask, .v6 a => a &&& mask = base
  | _, _ => false

example : ((ipNetwork "10.1.2.3/255.0.0.0").bind fun n => (ipAddress "10.9.9.9").map n.contains)
    = some true := by decide +kernel

end Py
