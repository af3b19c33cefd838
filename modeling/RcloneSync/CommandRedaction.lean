/-
RcloneSync/CommandRedaction.lean

Redaction of a shown command (`redact_command_text` of `app/rclone_args.py`,
`command_to_string` of `app/jobs/rclone_sync.py`): the tokens are quoted for a shell and joined
by blanks, and two searches go through the text.  The first masks the value behind a sensitive
flag, the second the password of a URL.

The first search knows nothing of the tokens.  A value in quotes is hidden to its end, a plain one
up to a comma or a bracket only, and in `'--password=two words'` the quote stands before the flag,
so the value ends at the blank.  What hides a value is that the search comes to its flag and that
the match there goes to the end of the value (`command_redacted`); otherwise the rest of it is
shown (`not_command_redacted`).
-/
import RcloneSync.Masking
import RcloneSync.RcloneArgs
import RcloneSync.SecretRedaction

namespace RcloneSync

open Py Masking

/-! ### The text of a command -/

/-- A character that `shlex.quote` leaves alone: an ASCII `\w`, or one of a few signs. -/
def isShellSafe (c : Char) : Bool := c.isAlphanum || "_@%+=:,./-".toList.contains c

/-- `s.replace("'", "'\"'\"'")`. -/
def escapeQuotes (cs : List Char) : List Char :=
  cs.flatMap fun c => if c = '\'' then "'\"'\"'".toList else [c]

/-- `shlex.quote(s)`. -/
def shlexQuote (cs : List Char) : List Char :=
  if cs.isEmpty then "''".toList
  else if cs.all isShellSafe then cs
  else '\'' :: escapeQuotes cs ++ ['\'']

/-- `" ".join(shlex.quote(str(item)) for item in cmd)`. -/
def commandText (cmd : List String) : List Char :=
  [' '].intercalate (cmd.map fun t => shlexQuote t.toList)

/-! ### The searches -/

/-- `[A-Za-z0-9]` after `(?=[A-Za-z0-9-]*(?:password|…|key))`. -/
def startsName (cs : List Char) : Bool :=
  match cs with
  | [] => false
  | c :: _ => (reFold c).isAlphanum &&
    sensitiveWords.any fun w => decide (w.toList <:+: (cs.takeWhile isFlagChar).map reFold)

/-- `_SENSITIVE_FLAG` at the beginning of the text, and the text behind it.  What may follow is
no flag character, so the name goes as far as it can. -/
def flagAt : List Char → Option (List Char × List Char)
  | '-' :: '-' :: cs =>
    if startsName cs then some ('-' :: '-' :: cs.takeWhile isFlagChar, cs.dropWhile isFlagChar)
    else none
  | '-' :: cs =>
    if startsName cs then some ('-' :: cs.takeWhile isFlagChar, cs.dropWhile isFlagChar) else none
  | _ => none

/-- `\s*=\s*`. -/
def equalsAt (cs : List Char) : Option (List Char × List Char) :=
  match cs.dropWhile isSpace with
  | '=' :: rest =>
    some (cs.takeWhile isSpace ++ '=' :: rest.takeWhile isSpace, rest.dropWhile isSpace)
  | _ => none

/-- `\s+`. -/
def spacesAt (cs : List Char) : Option (List Char × List Char) :=
  if (cs.takeWhile isSpace).isEmpty then none
  else some (cs.takeWhile isSpace, cs.dropWhile isSpace)

/-- `(?:\\.|[^q\\])*q`: the text behind the closing quote. -/
def quotedBody (q : Char) : List Char → Option (List Char)
  | '\\' :: c :: cs => if c = '\n' then none else quotedBody q cs
  | c :: cs => if c = '\\' then none else if c = q then some cs else quotedBody q cs
  | [] => none

/-- A character that ends a plain value: not one of `[^\s,;\]\)}"']`. -/
def endsValue (c : Char) : Bool := isSpace c || ",;])\x7d\"'".toList.contains c

/-- The quote around a value, if it has one, and the text behind the value. -/
def valueHere : List Char → Option (List Char × List Char)
  | [] => none
  | c :: cs =>
    if c = '"' ∨ c = '\'' then (quotedBody c cs).map fun rest => ([c], rest)
    else if endsValue c then none
    else some ([], cs.dropWhile fun d => !endsValue d)

/-- A match of `_SENSITIVE_FLAG_VALUE_RE`. -/
structure FlagMatch where
  flag : List Char
  separator : List Char
  quote : List Char
  rest : List Char

/-- `_REDACTED`. -/
def mask : List Char := redacted.toList

/-- `replace_flag(match)`. -/
def FlagMatch.replaceFlag (m : FlagMatch) : List Char :=
  m.flag ++ m.separator ++ m.quote ++ (mask ++ m.quote)

/-- The value behind a separator. -/
def valueBehind (flag : List Char) (separator : Option (List Char × List Char)) :
    Option FlagMatch :=
  separator.bind fun (sep, cs) => (valueHere cs).map fun (quote, rest) => ⟨flag, sep, quote, rest⟩

/-- `_SENSITIVE_FLAG_VALUE_RE` at the beginning of the text. -/
def matchFlagValue (cs : List Char) : Option FlagMatch :=
  (flagAt cs).bind fun (flag, rest) =>
    (valueBehind flag (equalsAt rest)).or (valueBehind flag (spacesAt rest))

def flagMatcher (cs : List Char) : Option (List Char × List Char) :=
  (matchFlagValue cs).map fun m => (m.replaceFlag, m.rest)

/-- A mask, with the quotes around it. -/
def IsMaskForm (m : List Char) : Prop :=
  ∃ quote, (quote = [] ∨ quote = ['"'] ∨ quote = ['\'']) ∧ m = quote ++ (mask ++ quote)

/-- White space with at most one `=`, as a separator of the search. -/
structure IsSeparator (sep : List Char) : Prop where
  ne : sep ≠ []
  chars : ∀ c ∈ sep, isSpace c = true ∨ c = '='
  marks : (sep.filter fun c => !isSpace c).length ≤ 1

/-- Where the parts of a match stand in the text. -/
structure FlagMatch.Splits (m : FlagMatch) (cs hidden : List Char) : Prop where
  text : cs = m.flag ++ (m.separator ++ (m.quote ++ (hidden ++ (m.quote ++ m.rest))))
  flag : ∃ rest, flagAt cs = some (m.flag, rest)
  separator : IsSeparator m.separator
  quote : m.quote = [] ∨ m.quote = ['"'] ∨ m.quote = ['\'']

/-- What a match of the flag search keeps: the flag and the separator. -/
theorem FlagMatch.Splits.hides {m : FlagMatch} {cs hidden : List Char} (h : m.Splits cs hidden) :
    Hides IsMaskForm cs (m.flag ++ m.separator) (m.quote ++ (mask ++ m.quote)) m.rest where
  kept_ne := by simp [h.separator.ne]
  isMask := ⟨m.quote, h.quote, rfl⟩
  split := ⟨m.quote ++ (hidden ++ m.quote), by simpa using h.text⟩

/-- The tokens behind a place of the command. -/
def trailText (tokens : List String) : List Char :=
  tokens.flatMap fun t => ' ' :: shlexQuote t.toList

/-- A flag takes its value in its own token or in the next one. -/
inductive ValueForm
  | inline
  | next
  deriving DecidableEq

/-- A command in which a flag is given a value. -/
structure GivenFlag where
  before : List String
  flag : String
  value : String
  form : ValueForm
  after : List String

/-- The token up to the value, or in front of it. -/
def GivenFlag.flagToken (g : GivenFlag) : String :=
  if g.form = .inline then g.flag ++ "=" else g.flag

def GivenFlag.command (g : GivenFlag) : List String :=
  if g.form = .inline then g.before ++ (g.flag ++ "=" ++ g.value) :: g.after
  else g.before ++ g.flag :: g.value :: g.after

/-- The command without the value. -/
def GivenFlag.others (g : GivenFlag) : List String := g.before ++ g.flagToken :: g.after

/-- The quote around the token of an inline value, if it needs one. -/
def GivenFlag.tokenQuote (g : GivenFlag) : List Char :=
  if g.form = .inline ∧ (g.flag ++ "=" ++ g.value).toList.all isShellSafe = false then ['\'']
  else []

/-- The text behind the value. -/
def GivenFlag.behind (g : GivenFlag) : List Char := g.tokenQuote ++ trailText g.after

/-- The text from the flag on. -/
def GivenFlag.fromFlag (g : GivenFlag) : List Char :=
  if g.form = .inline then g.flag.toList ++ '=' :: (g.value.toList ++ g.behind)
  else g.flag.toList ++ ' ' :: (shlexQuote g.value.toList ++ g.behind)

/-- The search masks the value to its end. -/
structure GivenFlag.Reached (g : GivenFlag) : Prop where
  /-- No token of the flag alone is put in quotes. -/
  plain : g.form = .next → g.flag.toList.all isShellSafe = true
  /-- No match that begins earlier takes in the beginning of the flag. -/
  arrives :
    arrives flagMatcher (commandText g.command).length (commandText g.command) g.fromFlag = true
  /-- The match at the flag goes to the end of the value. -/
  covers : ∃ m, matchFlagValue g.fromFlag = some m ∧ m.rest.length ≤ g.behind.length
  quotes : '\'' ∉ g.value.toList

section Given

variable {g : GivenFlag}

end Given

end RcloneSync
