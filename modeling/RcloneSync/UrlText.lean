/-
RcloneSync/UrlText.lean

Texts of URLs as `urllib.parse` takes them apart and puts them together again: the five parts
(`urlsplit`, `urlunsplit`), the pairs of a query (`parse_qsl`, `urlencode`) and percent escapes.

`none` stands for a `ValueError`.  The normalisation of Unicode that a host name must stand is a
parameter.
-/
import RcloneSync.IpAddress
import RcloneSync.Utf8

namespace Py

/-! ### Percent escapes -/

/-- The text as bytes, as far as it is ASCII: an escape is the byte it stands for. -/
def percentBytes : List Char → List (UInt8 ⊕ Char)
  | [] => []
  | '%' :: a :: b :: rest =>
    match hexValue a, hexValue b with
    | some x, some y => .inl (UInt8.ofNat (x * 16 + y)) :: percentBytes rest
    | _, _ => .inl 37 :: percentBytes (a :: b :: rest)
  | c :: rest =>
    (if c.toNat < 128 then .inl (UInt8.ofNat c.toNat) else .inr c) :: percentBytes rest

/-- The bytes as text, with replacements where they are none. -/
def decodePieces (u : Utf8State) : List (UInt8 ⊕ Char) → List Char
  | [] => u.unfinished
  | .inl b :: pieces => (replaceByte u b).2 ++ decodePieces (replaceByte u b).1 pieces
  | .inr c :: pieces => u.unfinished ++ c :: decodePieces .start pieces

/-- `unquote`. -/
def unquote (s : String) : String := String.ofList (decodePieces .start (percentBytes s.toList))

def isAsciiLetter (c : Char) : Bool := ('a' ≤ c && c ≤ 'z') || ('A' ≤ c && c ≤ 'Z')

def isAsciiAlnum (c : Char) : Bool := isAsciiLetter c || ('0' ≤ c && c ≤ '9')

/-- `quote_plus`. -/
def quotePlus (s : String) : String :=
  String.ofList (s.toList.flatMap fun c =>
    if c = ' ' then ['+']
    else if isAsciiAlnum c || ['_', '.', '-', '~'].contains c then [c]
    else (String.utf8EncodeChar c).flatMap fun b => '%' :: (hexText 2 b.toNat).map Char.toUpper)

/-! ### Queries -/

/-- One side of a pair, `+` standing for a space. -/
def queryText (s : String) : String :=
  unquote (String.ofList (s.toList.map fun c => if c = '+' then ' ' else c))

/-- `parse_qsl(query, keep_blank_values=True)`. -/
def parseQsl (query : String) : List (String × String) :=
  ((splitOn '&' query).filter fun pair => pair ≠ "").map fun pair =>
    (queryText (beforeSep '=' pair), queryText ((afterSep '=' pair).getD ""))

/-- `urlencode`. -/
def urlencode (pairs : List (String × String)) : String :=
  join "&" (pairs.map fun pair => quotePlus pair.1 ++ "=" ++ quotePlus pair.2)

/-! ### The five parts -/

structure UrlParts where
  scheme : String
  netloc : String
  path : String
  query : String
  fragment : String
  deriving DecidableEq, Repr

def splitScheme (url : String) : String × String :=
  match (beforeSep ':' url).toList, afterSep ':' url with
  | c :: cs, some rest =>
    let isSchemeChar := fun c => isAsciiAlnum c || "+-.".toList.contains c
    if isAsciiLetter c && cs.all isSchemeChar then (lower (String.ofList (c :: cs)), rest)
    else ("", url)
  | _, _ => ("", url)

/-- `_splitnetloc`, behind `//`. -/
def splitNetloc (url : String) : String × String :=
  if startsWith url "//" then
    let isInside := fun c => !"/?#".toList.contains c
    let rest := url.toList.drop 2
    (String.ofList (rest.takeWhile isInside), String.ofList (rest.dropWhile isInside))
  else ("", url)

/-- `_check_bracketed_host`. -/
def isBracketedHost (host : String) : Bool :=
  match host.toList with
  | 'v' :: version =>
    let isHex := fun c => (hexValue c).isSome
    match version.takeWhile isHex, version.dropWhile isHex with
    | _ :: _, '.' :: _ :: _ => true
    | _, _ => false
  | _ => ((withoutScope host).bind parseV6).isSome

/-- The brackets of an address fit. -/
def hasFitBrackets (netloc : String) : Bool :=
  match afterSep '[' netloc, afterSep ']' netloc with
  | none, none => true
  | some host, some _ => isBracketedHost (beforeSep ']' host)
  | _, _ => false

/-- `_checknetloc`: normalised, the text has no separator that it did not have before. -/
def isPlainNetloc (nfkc : String → String) (netloc : String) : Bool :=
  let text := String.ofList (netloc.toList.filter fun c => !"@:#?".toList.contains c)
  netloc.toList.all (fun c => c.toNat < 128) || nfkc text = text ||
    (nfkc text).toList.all fun c => !"/?#@:".toList.contains c

def urlsplit (nfkc : String → String) (url : String) : Option UrlParts :=
  let visible := (url.toList.dropWhile fun c => c.toNat ≤ 32).filter fun c =>
    !"\t\r\n".toList.contains c
  let (scheme, url) := splitScheme (String.ofList visible)
  let (netloc, url) := splitNetloc url
  if !hasFitBrackets netloc then none
  else
    let fragment := (afterSep '#' url).getD ""
    let url := beforeSep '#' url
    if !isPlainNetloc nfkc netloc then none
    else some ⟨scheme, netloc, beforeSep '?' url, (afterSep '?' url).getD "", fragment⟩

/-- `urlunsplit`, for parts with a `netloc`. -/
def urlunsplit (u : UrlParts) : String :=
  let path := if u.path = "" || startsWith u.path "/" then u.path else "/" ++ u.path
  let url := "//" ++ u.netloc ++ path
  let url := if u.scheme = "" then url else u.scheme ++ ":" ++ url
  let url := if u.query = "" then url else url ++ "?" ++ u.query
  if u.fragment = "" then url else url ++ "#" ++ u.fragment

/-! ### The host -/

/-- `_hostinfo`: the host and the text of the port, behind a user name. -/
def UrlParts.hostInfo (u : UrlParts) : String × String :=
  let info := String.ofList (u.netloc.toList.rtakeWhile (· ≠ '@'))
  match afterSep '[' info with
  | some bracketed =>
    (beforeSep ']' bracketed, (afterSep ':' ((afterSep ']' bracketed).getD "")).getD "")
  | none => (beforeSep ':' info, (afterSep ':' info).getD "")

/-- `parsed.hostname`, empty if there is none. -/
def UrlParts.hostname (u : UrlParts) : String :=
  let host := u.hostInfo.1
  lower (beforeSep '%' host) ++ (afterSep '%' host).elim "" ("%" ++ ·)

/-- `parsed.username is not None`. -/
def UrlParts.hasUser (u : UrlParts) : Bool := u.netloc.toList.contains '@'

/-- `parsed.port`. -/
def UrlParts.port (u : UrlParts) : Option (Option Nat) :=
  let text := u.hostInfo.2
  if text = "" then some none
  else if text.toList.all fun c => '0' ≤ c && c ≤ '9' then
    let n := text.toList.foldl (fun n c => n * 10 + (c.toNat - 48)) 0
    if n ≤ 65535 then some (some n) else none
  else none

end Py
