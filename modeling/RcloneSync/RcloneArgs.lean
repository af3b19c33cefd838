/-
RcloneSync/RcloneArgs.lean

Validation of freely configurable rclone arguments (`app/rclone_args.py`): the
short filter flags are rewritten to their long form, and in safe mode every token
that names a protected flag is refused.

`parseRcloneArgs` splits configured text with the shell rules of `shlex.split`;
`validateParsedRcloneArgs` checks a token list and returns it with normalised
filter aliases.  What a caller may rely on afterwards is stated once, in
`validateParsed_notBlocked`: safe mode accepts no blocked token.
-/
import RcloneSync.PyValue

namespace RcloneSync

open Py

/-! ### Flags -/

/-- `token.split("=", 1)[0]`. -/
def flagOf (token : String) : String := beforeSep '=' token

/-- `"=" in token`. -/
def hasEq (token : String) : Bool := token.toList.contains '='

def maxArgs : Nat := 256

def maxArgLength : Nat := 4096

def blockedShortOptions : List Char := ['n', 'i']

def executionFlags : List String := ["--metadata-mapper"]

def exactBlocked : List String :=
  ["--", "--config", "--cache-dir", "--workdir", "--temp-dir", "--log-file", "--syslog",
   "--log-systemd", "--password-command", "--ask-password", "--dry-run", "-n", "--interactive",
   "-i", "--filter", "--resync", "--resync-mode", "--backup-dir", "--backup-dir1",
   "--backup-dir2", "--filter-from", "--filters-file", "--include-from", "--exclude-from",
   "--files-from", "--files-from-raw", "--max-delete", "--max-delete-size", "--delete-excluded",
   "--ignore-errors", "--copy-dest", "--compare-dest", "--sftp-ssh", "--sftp-key-file",
   "--sftp-known-hosts-file"]

/-- `_BLOCKED_PREFIXES`. -/
def blockedStarts : List String :=
  ["--rc", "--dump", "--config=", "--cache-dir=", "--workdir=", "--temp-dir=", "--log-file=",
   "--syslog=", "--password-command=", "--backup-dir=", "--backup-dir1=", "--backup-dir2=",
   "--filter-from=", "--filters-file=", "--include-from=", "--exclude-from=", "--files-from=",
   "--files-from-raw=", "--max-delete=", "--max-delete-size=", "--copy-dest=",
   "--compare-dest=", "--sftp-ssh=", "--sftp-key-file=", "--sftp-known-hosts-file="]

/-! ### Short filter flags -/

/-- Flags whose next token `normalize_filter_aliases` copies without looking at it. -/
def aliasValueFlags : List String :=
  ["--include", "--include-from", "--exclude", "--exclude-from", "--filter", "--filter-from",
   "--filters-file", "--files-from", "--files-from-raw", "--files-from0"]

/-- `re.match(r"^-[A-Za-z]*f", token)`. -/
def combinedShortFilter (token : String) : Bool :=
  match token.toList with
  | '-' :: cs => (cs.takeWhile Char.isAlpha).contains 'f'
  | _ => false

/-- Tokens after which the next token is a filter value. -/
def takesFilterValue (token : String) : Bool := aliasValueFlags.contains token || token = "-f"

/-- The long form of a token that takes no separate filter value. -/
def aliasToken (token : String) : Except PyError String :=
  if startsWith token "-f=" then .ok ("--filter=" ++ dropText 3 token)
  else if startsWith token "-f" && !startsWith token "--" then
    .ok ("--filter=" ++ dropText 2 token)
  else if combinedShortFilter token && !startsWith token "--" then
    .error (.value "Kombinierte kurze Filter-Flags sind nicht erlaubt; --filter verwenden")
  else .ok token

def normalizeFilterAliases : List String → Except PyError (List String)
  | [] => .ok []
  | token :: rest =>
    if takesFilterValue token then
      let head := if token = "-f" then "--filter" else token
      match rest with
      | [] => .ok [head]
      | value :: rest' => (normalizeFilterAliases rest').map fun out => head :: value :: out
    else match aliasToken token with
      | .error e => .error e
      | .ok token' => (normalizeFilterAliases rest).map fun out => token' :: out

/-! ### Splitting configured text -/

/-- States of the `shlex` lexer in POSIX mode with `whitespace_split`. -/
inductive LexMode
  | space
  | word
  | single
  | double
  | escapeWord
  | escapeDouble
  deriving DecidableEq, Repr

def isShellSpace (c : Char) : Bool := c = ' ' || c = '\t' || c = '\r' || c = '\n'

/-- The lexer of `shlex.split`: `cur` is the current token, reversed, and `quoted` tells
whether it had a quoted part (so that `''` is a token). -/
def shlexAux : LexMode → List Char → Bool → List Char → Except PyError (List String)
  | .space, cur, quoted, [] => .ok (if quoted || !cur.isEmpty then [String.ofList cur.reverse] else [])
  | .word, cur, quoted, [] => .ok (if quoted || !cur.isEmpty then [String.ofList cur.reverse] else [])
  | .single, _, _, [] => .error (.value "No closing quotation")
  | .double, _, _, [] => .error (.value "No closing quotation")
  | .escapeWord, _, _, [] => .error (.value "No escaped character")
  | .escapeDouble, _, _, [] => .error (.value "No escaped character")
  | .space, _, _, c :: cs =>
    if isShellSpace c then shlexAux .space [] false cs
    else if c = '\\' then shlexAux .escapeWord [] false cs
    else if c = '\'' then shlexAux .single [] true cs
    else if c = '"' then shlexAux .double [] true cs
    else shlexAux .word [c] false cs
  | .word, cur, quoted, c :: cs =>
    if isShellSpace c then
      match shlexAux .space [] false cs with
      | .ok out => .ok (if quoted || !cur.isEmpty then String.ofList cur.reverse :: out else out)
      | .error e => .error e
    else if c = '\\' then shlexAux .escapeWord cur quoted cs
    else if c = '\'' then shlexAux .single cur true cs
    else if c = '"' then shlexAux .double cur true cs
    else shlexAux .word (c :: cur) quoted cs
  | .single, cur, _, c :: cs =>
    if c = '\'' then shlexAux .word cur true cs else shlexAux .single (c :: cur) true cs
  | .double, cur, _, c :: cs =>
    if c = '"' then shlexAux .word cur true cs
    else if c = '\\' then shlexAux .escapeDouble cur true cs
    else shlexAux .double (c :: cur) true cs
  | .escapeWord, cur, quoted, c :: cs => shlexAux .word (c :: cur) quoted cs
  | .escapeDouble, cur, _, c :: cs =>
    -- inside double quotes a backslash only escapes itself and the quote
    if c = '\\' || c = '"' then shlexAux .double (c :: cur) true cs
    else shlexAux .double (c :: '\\' :: cur) true cs

/-- `shlex.split(text)`. -/
def shlexSplit (s : String) : Except PyError (List String) := shlexAux .space [] false s.toList

def hasControl (token : String) : Bool :=
  token.toList.any fun c => c = '\x00' || c = '\r' || c = '\n'

/-- The length and control-character checks shared by parsing and validation. -/
def checkTokens (tokens : List String) : Except PyError Unit :=
  match tokens.find? fun t => t.isEmpty || maxArgLength < t.length || hasControl t with
  | none => .ok ()
  | some t =>
    if t.isEmpty || maxArgLength < t.length then
      .error (.value "Leeres oder zu langes rclone-Argument")
    else .error (.value "rclone-Argument enthält Steuerzeichen")

/-- The tokens of a list of configured texts. -/
def splitItems : List Value → Except PyError (List String)
  | [] => .ok []
  | .str s :: rest =>
    match shlexSplit s, splitItems rest with
    | .ok tokens, .ok out => .ok (tokens ++ out)
    | .error (.value e), _ =>
      .error (.value ("Ungültige rclone_args: " ++ textRepr s ++ ": " ++ e))
    | .error e, _ => .error e
    | .ok _, .error e => .error e
  | _ :: _ => .error (.value "rclone_args müssen Text oder eine Textliste sein")

def parseRcloneArgs (value : Value) : Except PyError (List String) :=
  if truthy value then
    let items := match value with
      | .list xs => xs
      | v => [v]
    match splitItems items with
    | .error e => .error e
    | .ok out =>
      if maxArgs < out.length then
        .error (.value "Zu viele rclone-Argumente (maximal 256)")
      else match checkTokens out with
        | .ok _ => .ok out
        | .error e => .error e
  else .ok []

/-! ### Protected flags -/

/-- A cluster of two to four short options that contains a blocked one. -/
def shortCluster (flag : String) : Bool :=
  let letters := flag.toList.drop 1
  startsWith flag "-" && !startsWith flag "--" && 2 ≤ letters.length && letters.length ≤ 4
    && letters.all isAlpha && blockedShortOptions.any letters.contains

/-- The test `blocked_arguments` applies to one token. -/
def isBlockedArgument (token : String) : Bool :=
  let flag := lower (flagOf token)
  let lowered := lower token
  exactBlocked.contains flag || shortCluster flag || blockedStarts.any (startsWith lowered)

def blockedArguments (args : List String) : List String :=
  firstOccurrences (args.filter isBlockedArgument)

def sensitiveWords : List String :=
  ["password", "passwd", "pass", "secret", "token", "credential", "access-key", "private-key",
   "customer-key", "encryption-key", "sas-url", "header", "key"]

/-- Letter folding of `re.IGNORECASE` on the characters a class `[A-Za-z]` matches. -/
def reFold (c : Char) : Char :=
  if c = 'ı' || c = 'İ' then 'i' else if c = 'ſ' then 's' else if c = 'K' then 'k' else c.toLower

def isFlagChar (c : Char) : Bool := (reFold c).isAlphanum || c = '-'

/-- `_SENSITIVE_FLAG_NAME_RE.fullmatch(flag)`. -/
def isSensitiveFlagName (flag : String) : Bool :=
  let matchesFrom (name : List Char) : Bool :=
    match name with
    | [] => false
    | c :: cs => (reFold c).isAlphanum && cs.all isFlagChar
        && sensitiveWords.any fun w => decide (w.toList <:+: name.map reFold)
  match flag.toList with
  | '-' :: '-' :: name => matchesFrom name
  | '-' :: name => matchesFrom name
  | _ => false

def validateParsedRcloneArgs (args : List String) (allowUnsafe : Bool) :
    Except PyError (List String) :=
  if maxArgs < args.length then .error (.value "Zu viele rclone-Argumente (maximal 256)")
  else match normalizeFilterAliases args with
    | .error e => .error e
    | .ok normalized =>
      match checkTokens normalized with
      | .error e => .error e
      | .ok _ =>
        let execution := (normalized.map flagOf).filter fun f => executionFlags.contains (lower f)
        let credentials := (normalized.map flagOf).filter isSensitiveFlagName
        let blocked := blockedArguments normalized
        if execution ≠ [] then
          .error (.value ("rclone-Flags zur Ausführung externer Programme sind auch im " ++
            "Expertenmodus nicht erlaubt: " ++ join ", " (firstOccurrences execution)))
        else if credentials ≠ [] then
          .error (.value ("Zugangsdaten-Flags sind auch im Expertenmodus nicht erlaubt; " ++
            "Secrets müssen über rclone.conf oder geschützte Umgebungsvariablen " ++
            "bereitgestellt werden: " ++ join ", " (firstOccurrences credentials)))
        else if blocked ≠ [] ∧ allowUnsafe = false then
          .error (.value ("Geschützte rclone-Flags sind nicht erlaubt: " ++ join ", " blocked))
        else .ok normalized

def validateRcloneArgs (value : Value) (allowUnsafe : Bool) : Except PyError (List String) :=
  match parseRcloneArgs value with
  | .error e => .error e
  | .ok args => validateParsedRcloneArgs args allowUnsafe

/-! ### What validation guarantees -/

/-- What a successful validation says about the returned tokens. -/
theorem validateParsed_ok {args out : List String} {allowUnsafe : Bool}
    (h : validateParsedRcloneArgs args allowUnsafe = .ok out) :
    normalizeFilterAliases args = .ok out ∧ checkTokens out = .ok () ∧
      (blockedArguments out = [] ∨ allowUnsafe = true) := by
  unfold validateParsedRcloneArgs at h
  split at h
  · cases h
  · rcases hn : normalizeFilterAliases args with e | normalized
    · simp [hn] at h
    · rcases hc : checkTokens normalized with e | u
      · simp [hn, hc] at h
      · simp only [hn, hc] at h
        -- the remaining branches are the three refusals, in the order of the source
        split at h
        · cases h
        · split at h
          · cases h
          · split at h
            · cases h
            · rename_i hblocked
              obtain rfl := Except.ok.inj h
              refine ⟨rfl, hc, ?_⟩
              by_cases hempty : blockedArguments normalized = []
              · exact Or.inl hempty
              · exact Or.inr (by simpa [hempty] using hblocked)

/-- In safe mode no accepted token is a protected argument. -/
theorem validateParsed_notBlocked {args out : List String}
    (h : validateParsedRcloneArgs args false = .ok out) :
    ∀ t ∈ out, isBlockedArgument t = false := by
  intro t ht
  obtain ⟨-, -, hblocked⟩ := validateParsed_ok h
  have hempty : blockedArguments out = [] := by simpa using hblocked
  by_contra hb
  have hmem : t ∈ blockedArguments out := by
    simpa [blockedArguments, ht] using hb
  simp [hempty] at hmem

/-! ### What validation lets through -/

/-- A token that validation has no reason to refuse. -/
structure Harmless (token : String) : Prop where
  execution : executionFlags.contains (lower (flagOf token)) = false
  credentials : isSensitiveFlagName (flagOf token) = false
  exact : exactBlocked.contains (lower (flagOf token)) = false
  cluster : shortCluster (lower (flagOf token)) = false
  starts : ∀ p ∈ blockedStarts,
    p.toByteArray.data.toList.isPrefixOf (lower token).toByteArray.data.toList = false

theorem Harmless.not_blocked {token : String} (h : Harmless token) :
    isBlockedArgument token = false := by
  have hstarts : blockedStarts.any (startsWith (lower token)) = false := by
    simp only [List.any_eq_false, Bool.not_eq_true]
    exact fun p hp => startsWith_false_of_bytes (h.starts p hp)
  simp only [isBlockedArgument, h.exact, h.cluster, hstarts, Bool.or_self]

theorem validateParsed_harmless {args : List String} (hlength : args.length ≤ maxArgs)
    (halias : normalizeFilterAliases args = .ok args) (hcheck : checkTokens args = .ok ())
    (h : ∀ t ∈ args, Harmless t) (allowUnsafe : Bool) :
    validateParsedRcloneArgs args allowUnsafe = .ok args := by
  have hexecution : (args.map flagOf).filter (fun f => executionFlags.contains (lower f)) = [] := by
    simpa using fun t ht => (h t ht).execution
  have hcredentials : (args.map flagOf).filter isSensitiveFlagName = [] := by
    simpa using fun t ht => (h t ht).credentials
  have hblocked : args.filter isBlockedArgument = [] := by
    simpa using fun t ht => (h t ht).not_blocked
  rw [validateParsedRcloneArgs, if_neg (by omega), halias]
  simp only [hcheck, blockedArguments, hexecution, hcredentials, hblocked]
  simp [firstOccurrences]

theorem validate_token {token : String} (hparse : parseRcloneArgs (.str token) = .ok [token])
    (halias : normalizeFilterAliases [token] = .ok [token]) (hcheck : checkTokens [token] = .ok ())
    (h : Harmless token) (allowUnsafe : Bool) :
    validateRcloneArgs (.str token) allowUnsafe = .ok [token] := by
  rw [validateRcloneArgs, hparse]
  exact validateParsed_harmless (by simp [maxArgs]) halias hcheck (by simpa using h) allowUnsafe

end RcloneSync
