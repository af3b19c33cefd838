/-
RcloneSync/SecretRedaction.lean

Redaction of exported support data (secret_redaction.py): `redact_secrets` goes through a nested
value, puts a mark in the place of what stands under a secret name, and looks for tokens and URLs
in every other text.

What is hidden in a mapping depends on the names of its fields, and on what stands in the field
that describes the others (`_descriptor_secret_key`).  This may be anything that has a text, so
that a secret can decide about what is hidden beside it.

`redaction_iff`: two values that differ in their secrets look alike exactly if the same fields are
hidden in both, and a redacted value stays as it is exactly if the second pass finds nothing new.
-/
import RcloneSync.ConfigRedaction
import RcloneSync.RcloneArgs
import RcloneSync.Regex
import RcloneSync.UrlText

namespace RcloneSync

open Py Regex

/-! ### Tokens in a text -/

/-- `REDACTED`. -/
def redacted : String := "***REDACTED***"

def atLeast (n : Nat) (a : Pattern) : Pattern := .seq (.times n a) (.star a)

def isTokenChar (c : Char) : Bool := isAsciiAlnum c || c = '_' || c = '-'

/-- `_PRIVATE_KEY_RE`. -/
def privateKeyPattern : Pattern :=
  let label := Pattern.opt (.seq
    (.plus (.one fun c => ('A' ≤ c && c ≤ 'Z') || ('0' ≤ c && c ≤ '9') || c = ' '))
    (literal id " "))
  sequence
    [literal id "-----BEGIN ", label, literal id "PRIVATE KEY-----", .lazyStar (.one fun _ => true),
     literal id "-----END ", label, literal id "PRIVATE KEY-----"]

/-- `_AUTH_SCHEME_RE`. -/
def authSchemePattern : Pattern :=
  sequence
    [.boundary isWord, .group 1 (choice [literal reFold "bearer", literal reFold "basic"]),
     .plus (.one isSpace),
     atLeast 8 (.one fun c => isAsciiAlnum (reFold c) || "._~+/=-".toList.contains c)]

/-- `_JWT_RE`. -/
def jwtPattern : Pattern :=
  let part := atLeast 8 (.one isTokenChar)
  sequence
    [.boundary isWord, literal id "eyJ", part, literal id ".", part, literal id ".", part,
     .boundary isWord]

/-- `_KNOWN_TOKEN_RE`. -/
def knownTokenPattern : Pattern :=
  sequence
    [.boundary isWord,
     choice
       [sequence
          [literal id "gh", .one fun c => "pousr".toList.contains c, literal id "_",
           atLeast 20 (.one isAsciiAlnum)],
        sequence [literal id "sk-", atLeast 20 (.one isTokenChar)],
        sequence
          [literal id "xox", .one fun c => "baprs".toList.contains c, literal id "-",
           atLeast 16 (.one fun c => isAsciiAlnum c || c = '-')],
        sequence
          [literal id "AKIA",
           .times 16 (.one fun c => ('A' ≤ c && c ≤ 'Z') || ('0' ≤ c && c ≤ '9'))]],
     .boundary isWord]

/-- `_URL_RE`. -/
def urlPattern : Pattern :=
  sequence
    [literal reFold "http", .opt (literal reFold "s"), literal reFold "://",
     .plus (.one fun c => !isSpace c && !"\"'<>".toList.contains c)]

/-! ### Texts -/

/-- A URL without user name, password and the secrets of its query; `none` is a `ValueError`.  The
normalisation of host names is a parameter. -/
def redactParts (nfkc : String → String) (url : String) : Option String := do
  let parsed ← urlsplit nfkc url
  if parsed.hostname = "" then some url
  else
    let host :=
      if parsed.hostname.toList.contains ':' then "[" ++ parsed.hostname ++ "]"
      else parsed.hostname
    let port ← parsed.port
    let host := port.elim host fun n => host ++ ":" ++ toString n
    let netloc := if parsed.hasUser then redacted ++ "@" ++ host else host
    let query := urlencode ((parseQsl parsed.query).map fun pair =>
      (pair.1, if isSecretKey pair.1 then redacted else pair.2))
    some (urlunsplit { parsed with netloc := netloc, query := query })

/-- `_redact_url`. -/
def redactUrl (nfkc : String → String) (rawUrl : String) : String :=
  let isTrailing := fun c => ").,;]\x7d".toList.contains c
  let trailing := String.ofList (rawUrl.toList.rtakeWhile isTrailing)
  let url := String.ofList (rawUrl.toList.rdropWhile isTrailing)
  (redactParts nfkc url).getD redacted ++ trailing

/-- `redact_secret_text`. -/
def redactSecretText (nfkc : String → String) (value : String) : String :=
  let mark := fun (_ : List Char) (_ : Place) => redacted.toList
  let text := substitute privateKeyPattern mark value
  let text := substitute authSchemePattern
    (fun _ found => ((found.group 1).getD "").toList ++ ' ' :: redacted.toList) text
  let text := substitute jwtPattern mark text
  let text := substitute knownTokenPattern mark text
  substitute urlPattern (fun url _ => (redactUrl nfkc (String.ofList url)).toList) text

def safeValuePathWords : List String :=
  ["checksum", "digest", "fingerprint", "hash", "id", "revision", "sha1", "sha256", "uuid"]

/-- `_looks_like_opaque_secret`. -/
def looksLikeOpaqueSecret (value : String) (path : List String) : Bool :=
  let cs := value.toList
  32 ≤ cs.length && cs.length ≤ 512 &&
    cs.all (fun c => isAsciiAlnum c || "_+/=-".toList.contains c) &&
    !(path.flatMap keyWords).any safeValuePathWords.contains &&
    cs.any (fun c => 'a' ≤ c && c ≤ 'z') && cs.any (fun c => 'A' ≤ c && c ≤ 'Z') &&
    cs.any fun c => '0' ≤ c && c ≤ '9'

/-! ### Nested values -/

/-- `_descriptor_secret_key`. -/
def descriptorSecretKey (d : Dict) : Option String :=
  ["name", "key", "field", "header"].findSome? fun descriptor =>
    (d.find? fun e => casefold e.1 = descriptor).bind fun e =>
      if isSecretKey (pyStr e.2) then some e.1 else none

/-- `isinstance(item, (bool, int, float))`. -/
def isNumeric : Value → Bool
  | .bool _ | .int _ | .float _ => true
  | .none | .str _ | .list _ | .dict _ => false

/-- What stands under `key` is replaced, in a mapping at `path` with the given descriptor. -/
def isReplaced (path : List String) (descriptor : Option String) (key : String) (item : Value) :
    Bool :=
  let inHeaders := path.any fun part => ["header", "headers"].contains (casefold part)
  let descriptorValue := descriptor.isSome && ["value", "values"].contains (casefold key)
  !isBlankValue item && !isNumeric item &&
    (isSecretKey key || (inHeaders && isSecretKey key) || descriptorValue)

mutual

/-- `redact_secrets`. -/
def redactSecrets (nfkc : String → String) (path : List String) : Value → Value
  | .dict d => .dict (redactFields nfkc path (descriptorSecretKey d) d)
  | .list xs => .list (redactElements nfkc path 0 xs)
  | .str s =>
    let text := redactSecretText nfkc s
    if text = s && looksLikeOpaqueSecret s path then .str redacted else .str text
  | .none => .none
  | .bool b => .bool b
  | .int n => .int n
  | .float x => .float x

def redactFields (nfkc : String → String) (path : List String) (descriptor : Option String) :
    Dict → Dict
  | [] => []
  | (key, item) :: d =>
    (key, if isReplaced path descriptor key item then .str redacted
      else redactSecrets nfkc (path ++ [key]) item) :: redactFields nfkc path descriptor d

def redactElements (nfkc : String → String) (path : List String) (i : Nat) :
    List Value → List Value
  | [] => []
  | item :: xs =>
    redactSecrets nfkc (path ++ [toString i]) item :: redactElements nfkc path (i + 1) xs

end

/-! ### What the two passes find -/

section Texts

variable (nfkc : String → String)

theorem ofList_eq_empty {cs : List Char} (h : String.ofList cs = "") : cs = [] := by
  have htoList := congrArg String.toList h
  rwa [String.toList_ofList] at htoList

theorem append_ne_empty {a b : String} (h : a ≠ "" ∨ b ≠ "") : a ++ b ≠ "" := by
  intro hempty
  have htoList : a.toList ++ b.toList = [] := by
    rw [← String.toList_append, hempty]
    rfl
  obtain ⟨ha, hb⟩ := List.append_eq_nil_iff.mp htoList
  rcases h with h | h
  · exact h (String.toList_injective ha)
  · exact h (String.toList_injective hb)

theorem urlunsplit_ne_empty (u : UrlParts) : urlunsplit u ≠ "" := by
  unfold urlunsplit
  dsimp only
  have hstart : ∀ path : String, "//" ++ u.netloc ++ path ≠ "" := fun path =>
    append_ne_empty (.inl (append_ne_empty (.inl (by decide))))
  have hscheme : ∀ url : String, url ≠ "" →
      (if u.scheme = "" then url else u.scheme ++ ":" ++ url) ≠ "" := by
    intro url hurl
    split
    · exact hurl
    · exact append_ne_empty (.inr hurl)
  have hquery : ∀ url : String, url ≠ "" →
      (if u.query = "" then url else url ++ "?" ++ u.query) ≠ "" := by
    intro url hurl
    split
    · exact hurl
    · exact append_ne_empty (.inl (append_ne_empty (.inl hurl)))
  split
  · exact hquery _ (hscheme _ (hstart _))
  · exact append_ne_empty (.inl (append_ne_empty (.inl (hquery _ (hscheme _ (hstart _))))))

theorem redactParts_eq_empty {url : String} (h : redactParts nfkc url = some "") : url = "" := by
  unfold redactParts at h
  simp only [Option.bind_eq_bind, Option.bind_eq_some_iff] at h
  obtain ⟨parsed, -, h⟩ := h
  split at h
  · exact Option.some.inj h
  · obtain ⟨port, -, h⟩ := Option.bind_eq_some_iff.mp h
    exact absurd (Option.some.inj h) (urlunsplit_ne_empty _)

/-- What a URL becomes is not empty. -/
theorem redactUrl_ne_empty {rawUrl : String} (h : rawUrl ≠ "") : redactUrl nfkc rawUrl ≠ "" := by
  unfold redactUrl
  dsimp only
  generalize hp : (fun c => ").,;]\x7d".toList.contains c) = p
  cases hparts : redactParts nfkc (String.ofList (rawUrl.toList.rdropWhile p)) with
  | none => exact append_ne_empty (.inl (by decide))
  | some text =>
    refine append_ne_empty ?_
    by_contra hboth
    obtain ⟨htext, htrailing⟩ := not_or.mp hboth
    rw [not_not] at htext htrailing
    obtain rfl : text = "" := htext
    have hurl := redactParts_eq_empty nfkc hparts
    have hwhole : rawUrl.toList.rdropWhile p ++ rawUrl.toList.rtakeWhile p = rawUrl.toList := by
      unfold List.rdropWhile List.rtakeWhile
      rw [← List.reverse_append, List.takeWhile_append_dropWhile, List.reverse_reverse]
    refine h (String.toList_injective ?_)
    rw [← hwhole, ofList_eq_empty hurl, ofList_eq_empty htrailing]
    rfl

/-- Only the empty text becomes empty. -/
theorem redactSecretText_eq_empty (s : String) : redactSecretText nfkc s = "" ↔ s = "" := by
  have hmark : redacted.toList ≠ [] := by decide
  unfold redactSecretText
  dsimp only
  rw [substitute_eq_empty, substitute_eq_empty fun _ _ _ => hmark,
    substitute_eq_empty fun _ _ _ => hmark, substitute_eq_empty,
    substitute_eq_empty fun _ _ _ => hmark]
  · intro c cs found hempty
    cases (List.append_eq_nil_iff.mp hempty).2
  · intro c cs found hempty
    have hurl : String.ofList (c :: cs) ≠ "" := fun h => by cases ofList_eq_empty h
    exact redactUrl_ne_empty nfkc hurl (String.toList_injective hempty)

/-- The mark stays as it is. -/
theorem redactSecretText_redacted : redactSecretText nfkc redacted = redacted := by
  unfold redactSecretText
  dsimp only
  rw [@substitute_of_search privateKeyPattern _ _ (by decide +kernel),
    @substitute_of_search authSchemePattern _ _ (by decide +kernel),
    @substitute_of_search jwtPattern _ _ (by decide +kernel),
    @substitute_of_search knownTokenPattern _ _ (by decide +kernel),
    @substitute_of_search urlPattern _ _ (by decide +kernel)]

end Texts

/-! ### What is hidden in a mapping -/

/-- A value that is hidden under a secret name. -/
def isHideable (item : Value) : Bool := !isBlankValue item && !isNumeric item

/-- The module takes what stands under `key` for a secret. -/
def isSecretField (descriptor : Option String) (key : String) : Bool :=
  isSecretKey key || (descriptor.isSome && ["value", "values"].contains (casefold key))

theorem isReplaced_eq (path : List String) (descriptor : Option String) (key : String)
    (item : Value) :
    isReplaced path descriptor key item = (isSecretField descriptor key && isHideable item) := by
  unfold isReplaced isSecretField isHideable
  dsimp only
  cases isBlankValue item <;> cases isNumeric item <;> cases isSecretKey key <;> simp

/-- A text that is replaced as a whole. -/
def IsOpaqueText (nfkc : String → String) (path : List String) : Value → Prop
  | .str s => redactSecretText nfkc s = redacted ∨
      (redactSecretText nfkc s = s ∧ looksLikeOpaqueSecret s path = true)
  | .none | .bool _ | .int _ | .float _ | .list _ | .dict _ => False

section Single

variable (nfkc : String → String) (path : List String)

theorem redactSecrets_eq_redacted (v : Value) :
    redactSecrets nfkc path v = .str redacted ↔ IsOpaqueText nfkc path v := by
  cases v with
  | str s =>
    rw [redactSecrets]
    split
    · next hwhole =>
      rw [Bool.and_eq_true, decide_eq_true_eq] at hwhole
      exact ⟨fun _ => .inr hwhole, fun _ => rfl⟩
    · next hwhole =>
      rw [Bool.and_eq_true, decide_eq_true_eq] at hwhole
      constructor
      · intro h
        exact .inl (Value.str.inj h)
      · rintro (htext | hlooks)
        · rw [htext]
        · exact absurd hlooks hwhole
  | none | bool | int | float | list | dict =>
    rw [redactSecrets]
    exact ⟨(by cases ·), False.elim⟩

theorem isHideable_redactSecrets (v : Value) :
    isHideable (redactSecrets nfkc path v) = isHideable v := by
  cases v with
  | str s =>
    have hblank : ∀ t : String, isHideable (.str t) = !decide (t = "") := by
      intro t
      simp [isHideable, isBlankValue, isNumeric]
    rw [redactSecrets]
    split
    · next hlooks =>
      have hs : s ≠ "" := by
        rintro rfl
        rw [Bool.and_eq_true] at hlooks
        cases hlooks.2
      rw [hblank, hblank, decide_eq_false hs]
      decide
    · rw [hblank, hblank, decide_eq_decide.mpr (redactSecretText_eq_empty nfkc s)]
  | list | dict =>
    rw [redactSecrets]
    simp [isHideable, isBlankValue, isNumeric]
  | none | bool | int | float => rw [redactSecrets]

/-- The mark is shown as it is. -/
theorem redactSecrets_redacted : redactSecrets nfkc path (.str redacted) = .str redacted :=
  (redactSecrets_eq_redacted nfkc path _).mpr (.inl (redactSecretText_redacted nfkc))

end Single

/-! ### Two values -/

mutual

/-- The values differ only in what stands under secret names in both of them, is not blank and is no
number. -/
def DifferInSecrets : Value → Value → Prop
  | .dict d, w => ∃ e, w = .dict e ∧
      FieldsDiffer (descriptorSecretKey d) (descriptorSecretKey e) d e
  | .list xs, w => ∃ ys, w = .list ys ∧ ElementsDiffer xs ys
  | .none, w => w = .none
  | .bool b, w => w = .bool b
  | .int n, w => w = .int n
  | .float x, w => w = .float x
  | .str s, w => w = .str s

def FieldsDiffer (p q : Option String) : Dict → Dict → Prop
  | [], e => e = []
  | (key, x) :: d, e => ∃ y e', e = (key, y) :: e' ∧
      ((isSecretField p key = true ∧ isSecretField q key = true ∧
          isHideable x = true ∧ isHideable y = true) ∨ DifferInSecrets x y) ∧
      FieldsDiffer p q d e'

def ElementsDiffer : List Value → List Value → Prop
  | [], ys => ys = []
  | x :: xs, ys => ∃ y ys', ys = y :: ys' ∧ DifferInSecrets x y ∧ ElementsDiffer xs ys'

end

section Same

variable (nfkc : String → String)

mutual

/-- The same fields are hidden in both values, as far as it can be seen. -/
def SameFieldsHidden (path : List String) : Value → Value → Prop
  | .dict d, w => ∀ e, w = .dict e →
      FieldsHidden path (descriptorSecretKey d) (descriptorSecretKey e) d e
  | .list xs, w => ∀ ys, w = .list ys → ElementsHidden path 0 xs ys
  | .none, _ | .bool _, _ | .int _, _ | .float _, _ | .str _, _ => True

def FieldsHidden (path : List String) (p q : Option String) : Dict → Dict → Prop
  | [], _ => True
  | (key, x) :: d, e => ∀ y e', e = (key, y) :: e' →
      (if isReplaced path p key x then
        isReplaced path q key y = true ∨ IsOpaqueText nfkc (path ++ [key]) y
      else if isReplaced path q key y then IsOpaqueText nfkc (path ++ [key]) x
      else SameFieldsHidden (path ++ [key]) x y) ∧
      FieldsHidden path p q d e'

def ElementsHidden (path : List String) (i : Nat) : List Value → List Value → Prop
  | [], _ => True
  | x :: xs, ys => ∀ y ys', ys = y :: ys' →
      SameFieldsHidden (path ++ [toString i]) x y ∧ ElementsHidden path (i + 1) xs ys'

end

mutual

/-- **Two values that differ in their secrets look alike** exactly if the same fields are hidden. -/
theorem redactSecrets_eq_iff (path : List String) : ∀ v w : Value, DifferInSecrets v w →
    (redactSecrets nfkc path v = redactSecrets nfkc path w ↔ SameFieldsHidden nfkc path v w)
  | .dict d, w, h => by
    obtain ⟨e, rfl, hfields⟩ := h
    have hiff := redactFields_eq_iff path _ _ d e hfields
    rw [redactSecrets, redactSecrets, Value.dict.injEq, hiff, SameFieldsHidden]
    exact ⟨fun hhidden e' he => Value.dict.inj he ▸ hhidden, fun hhidden => hhidden e rfl⟩
  | .list xs, w, h => by
    obtain ⟨ys, rfl, helements⟩ := h
    have hiff := redactElements_eq_iff path 0 xs ys helements
    rw [redactSecrets, redactSecrets, Value.list.injEq, hiff, SameFieldsHidden]
    exact ⟨fun hhidden ys' he => Value.list.inj he ▸ hhidden, fun hhidden => hhidden ys rfl⟩
  | .none, w, h => by
    obtain rfl : w = .none := h
    exact ⟨fun _ => trivial, fun _ => rfl⟩
  | .bool b, w, h => by
    obtain rfl : w = .bool b := h
    exact ⟨fun _ => trivial, fun _ => rfl⟩
  | .int n, w, h => by
    obtain rfl : w = .int n := h
    exact ⟨fun _ => trivial, fun _ => rfl⟩
  | .float x, w, h => by
    obtain rfl : w = .float x := h
    exact ⟨fun _ => trivial, fun _ => rfl⟩
  | .str s, w, h => by
    obtain rfl : w = .str s := h
    exact ⟨fun _ => trivial, fun _ => rfl⟩

theorem redactFields_eq_iff (path : List String) (p q : Option String) : ∀ d e : Dict,
    FieldsDiffer p q d e →
    (redactFields nfkc path p d = redactFields nfkc path q e ↔ FieldsHidden nfkc path p q d e)
  | [], e, h => by
    obtain rfl : e = [] := h
    exact ⟨fun _ => trivial, fun _ => rfl⟩
  | (key, x) :: d, e, h => by
    obtain ⟨y, e', rfl, hfield, hrest⟩ := h
    have hrest' := redactFields_eq_iff path p q d e' hrest
    have hfield' : (if isReplaced path p key x then Value.str redacted
          else redactSecrets nfkc (path ++ [key]) x) =
        (if isReplaced path q key y then Value.str redacted
          else redactSecrets nfkc (path ++ [key]) y) ↔
        (if isReplaced path p key x then
          isReplaced path q key y = true ∨ IsOpaqueText nfkc (path ++ [key]) y
        else if isReplaced path q key y then IsOpaqueText nfkc (path ++ [key]) x
        else SameFieldsHidden nfkc (path ++ [key]) x y) := by
      by_cases hp : isReplaced path p key x = true
      · rw [if_pos hp, if_pos hp]
        by_cases hq : isReplaced path q key y = true
        · rw [if_pos hq]
          exact ⟨fun _ => .inl hq, fun _ => rfl⟩
        · rw [if_neg hq, eq_comm, redactSecrets_eq_redacted]
          exact ⟨.inr, fun h => h.resolve_left hq⟩
      · rw [if_neg hp, if_neg hp]
        by_cases hq : isReplaced path q key y = true
        · rw [if_pos hq, if_pos hq, redactSecrets_eq_redacted]
        · rw [if_neg hq, if_neg hq]
          refine redactSecrets_eq_iff (path ++ [key]) x y (hfield.resolve_left ?_)
          -- what is secret in both would be hidden
          rintro ⟨hsecret, -, hhideable, -⟩
          refine hp ?_
          rw [isReplaced_eq, hsecret, hhideable]
          rfl
    rw [redactFields, redactFields, List.cons.injEq, Prod.mk.injEq, hfield', hrest', FieldsHidden]
    constructor
    · rintro ⟨⟨-, hhere⟩, hbehind⟩ y' e'' hsame
      obtain ⟨hy, rfl⟩ := List.cons.inj hsame
      obtain ⟨-, rfl⟩ := Prod.mk.inj hy
      exact ⟨hhere, hbehind⟩
    · intro hhidden
      obtain ⟨hhere, hbehind⟩ := hhidden y e' rfl
      exact ⟨⟨rfl, hhere⟩, hbehind⟩

theorem redactElements_eq_iff (path : List String) (i : Nat) : ∀ xs ys : List Value,
    ElementsDiffer xs ys →
    (redactElements nfkc path i xs = redactElements nfkc path i ys ↔
      ElementsHidden nfkc path i xs ys)
  | [], ys, h => by
    obtain rfl : ys = [] := h
    exact ⟨fun _ => trivial, fun _ => rfl⟩
  | x :: xs, ys, h => by
    obtain ⟨y, ys', rfl, hx, hrest⟩ := h
    have hx' := redactSecrets_eq_iff (path ++ [toString i]) x y hx
    have hrest' := redactElements_eq_iff path (i + 1) xs ys' hrest
    rw [redactElements, redactElements, List.cons.injEq, hx', hrest', ElementsHidden]
    constructor
    · rintro ⟨hhere, hbehind⟩ y' ys'' hsame
      obtain ⟨rfl, rfl⟩ := List.cons.inj hsame
      exact ⟨hhere, hbehind⟩
    · intro hhidden
      exact hhidden y ys' rfl

end

/-! ### A redacted value -/

mutual

/-- A second pass finds nothing new: no token or URL in the texts that are left, and no field that
is hidden only because of what the field that describes it has become. -/
def IsSettled (path : List String) : Value → Prop
  | .dict d => FieldsSettled path (descriptorSecretKey d)
      (descriptorSecretKey (redactFields nfkc path (descriptorSecretKey d) d)) d
  | .list xs => ElementsSettled path 0 xs
  | .str s => redactSecretText nfkc s = s ∨
      (redactSecretText nfkc (redactSecretText nfkc s) = redactSecretText nfkc s ∧
        looksLikeOpaqueSecret (redactSecretText nfkc s) path = false)
  | .none | .bool _ | .int _ | .float _ => True

def FieldsSettled (path : List String) (p q : Option String) : Dict → Prop
  | [] => True
  | (key, x) :: d =>
    (isReplaced path p key x = true ∨
      (IsSettled (path ++ [key]) x ∧
        (isReplaced path q key x = true → IsOpaqueText nfkc (path ++ [key]) x))) ∧
    FieldsSettled path p q d

def ElementsSettled (path : List String) (i : Nat) : List Value → Prop
  | [] => True
  | x :: xs => IsSettled (path ++ [toString i]) x ∧ ElementsSettled path (i + 1) xs

end

/-- A text that the first pass has changed. -/
theorem redactText_idem (path : List String) (s : String) :
    redactSecrets nfkc path (redactSecrets nfkc path (.str s)) = redactSecrets nfkc path (.str s) ↔
      IsSettled nfkc path (.str s) := by
  rw [IsSettled]
  by_cases htext : redactSecretText nfkc s = s
  · refine ⟨fun _ => .inl htext, fun _ => ?_⟩
    by_cases hlooks : looksLikeOpaqueSecret s path = true
    · rw [(redactSecrets_eq_redacted nfkc path (.str s)).mpr (.inr ⟨htext, hlooks⟩),
        redactSecrets_redacted]
    · have hshown : redactSecrets nfkc path (.str s) = .str s := by
        rw [redactSecrets, if_neg (by simp [hlooks]), htext]
      rw [hshown, hshown]
  · have hshown : redactSecrets nfkc path (.str s) = .str (redactSecretText nfkc s) := by
      rw [redactSecrets, if_neg (by simp [htext])]
    rw [hshown]
    generalize redactSecretText nfkc s = t at htext ⊢
    rw [redactSecrets]
    constructor
    · intro h
      refine .inr ?_
      split at h
      · next hlooks =>
        obtain rfl := Value.str.inj h
        rw [Bool.and_eq_true] at hlooks
        cases hlooks.2
      · next hlooks =>
        have htwice := Value.str.inj h
        rw [htwice, decide_eq_true rfl, Bool.true_and] at hlooks
        exact ⟨htwice, Bool.not_eq_true _ ▸ hlooks⟩
    · rintro (h | ⟨htwice, hlooks⟩)
      · exact absurd h htext
      · rw [if_neg (by simp [hlooks]), htwice]

mutual

/-- **A redacted value stays as it is** exactly if it is settled. -/
theorem redactSecrets_idem_iff (path : List String) : ∀ v : Value,
    redactSecrets nfkc path (redactSecrets nfkc path v) = redactSecrets nfkc path v ↔
      IsSettled nfkc path v
  | .dict d => by
    have hiff := redactFields_idem_iff path (descriptorSecretKey d)
      (descriptorSecretKey (redactFields nfkc path (descriptorSecretKey d) d)) d
    rw [redactSecrets, redactSecrets, Value.dict.injEq, hiff, IsSettled]
  | .list xs => by
    have hiff := redactElements_idem_iff path 0 xs
    rw [redactSecrets, redactSecrets, Value.list.injEq, hiff, IsSettled]
  | .str s => redactText_idem nfkc path s
  | .none => ⟨fun _ => trivial, fun _ => rfl⟩
  | .bool _ => ⟨fun _ => trivial, fun _ => rfl⟩
  | .int _ => ⟨fun _ => trivial, fun _ => rfl⟩
  | .float _ => ⟨fun _ => trivial, fun _ => rfl⟩

theorem redactFields_idem_iff (path : List String) (p q : Option String) : ∀ d : Dict,
    redactFields nfkc path q (redactFields nfkc path p d) = redactFields nfkc path p d ↔
      FieldsSettled nfkc path p q d
  | [] => ⟨fun _ => trivial, fun _ => rfl⟩
  | (key, x) :: d => by
    have hrest := redactFields_idem_iff path p q d
    have hx := redactSecrets_idem_iff (path ++ [key]) x
    rw [redactFields, redactFields, List.cons.injEq, Prod.mk.injEq, hrest, FieldsSettled,
      and_iff_right rfl]
    refine and_congr_left fun _ => ?_
    by_cases hp : isReplaced path p key x = true
    · rw [if_pos hp, redactSecrets_redacted, ite_self]
      exact ⟨fun _ => .inl hp, fun _ => rfl⟩
    · have hsame : isReplaced path q key (redactSecrets nfkc (path ++ [key]) x) =
          isReplaced path q key x := by
        rw [isReplaced_eq, isReplaced_eq, isHideable_redactSecrets]
      rw [if_neg hp, hsame]
      by_cases hq : isReplaced path q key x = true
      · rw [if_pos hq, eq_comm, redactSecrets_eq_redacted]
        constructor
        · intro hlooks
          have hmark := (redactSecrets_eq_redacted nfkc (path ++ [key]) x).mpr hlooks
          refine .inr ⟨hx.mp ?_, fun _ => hlooks⟩
          rw [hmark, redactSecrets_redacted]
        · intro h
          exact (h.resolve_left hp).2 hq
      · rw [if_neg hq, hx]
        exact ⟨fun h => .inr ⟨h, fun hq' => absurd hq' hq⟩, fun h => (h.resolve_left hp).1⟩

theorem redactElements_idem_iff (path : List String) (i : Nat) : ∀ xs : List Value,
    redactElements nfkc path i (redactElements nfkc path i xs) = redactElements nfkc path i xs ↔
      ElementsSettled nfkc path i xs
  | [] => ⟨fun _ => trivial, fun _ => rfl⟩
  | x :: xs => by
    have hx := redactSecrets_idem_iff (path ++ [toString i]) x
    have hrest := redactElements_idem_iff path (i + 1) xs
    rw [redactElements, redactElements, List.cons.injEq, hx, hrest, ElementsSettled]

end

end Same

end RcloneSync
