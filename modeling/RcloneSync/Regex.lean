/-
RcloneSync/Regex.lean

A backtracking matcher for regular expressions, in the order in which Python's `re` tries the
ways to match.  `Pattern.runs` lists the places at which a match may end, the preferred one
first; a greedy repetition lists the longer matches first, a lazy one the shorter.

    match at a place        the first of `runs`
    `re.search`             the first place from the left at which there is a match
    `re.finditer`           one search after the other, each from the end of the last match

A place keeps the groups that were captured on the way to it.
-/
import RcloneSync.PyText

namespace Regex

/-- A place in a text: the character before it, the text behind it, and the captured groups. -/
structure Place where
  before : Option Char
  rest : List Char
  groups : List (Nat × List Char)
  deriving DecidableEq, Repr

inductive Pattern
  | one (p : Char → Bool)
  | empty
  | seq (a b : Pattern)
  | alt (a b : Pattern)
  | star (a : Pattern)
  | lazyStar (a : Pattern)
  | group (n : Nat) (a : Pattern)
  /-- `\b`, for the given class of word characters -/
  | boundary (word : Char → Bool)
  /-- `$` -/
  | atEnd

/-- Repetitions of `f`, each of which must consume something. -/
def repeats (f : Place → List Place) (greedy : Bool) : Nat → Place → List Place
  | 0, s => [s]
  | n + 1, s =>
    let longer := ((f s).filter fun s' => s'.rest.length < s.rest.length).flatMap
      (repeats f greedy n)
    if greedy then longer ++ [s] else s :: longer

/-- The places at which a match from `s` may end, the preferred one first. -/
def Pattern.runs : Pattern → Place → List Place
  | .one p, s =>
    match s.rest with
    | [] => []
    | c :: cs => if p c then [⟨some c, cs, s.groups⟩] else []
  | .empty, s => [s]
  | .seq a b, s => (a.runs s).flatMap b.runs
  | .alt a b, s => a.runs s ++ b.runs s
  -- a repetition consumes a character each time, so the text behind the place bounds it
  | .star a, s => repeats a.runs true s.rest.length s
  | .lazyStar a, s => repeats a.runs false s.rest.length s
  | .group n a, s => (a.runs s).map fun s' =>
      { s' with groups := (n, s.rest.take (s.rest.length - s'.rest.length)) :: s'.groups }
  | .boundary word, s =>
    if (s.before.any word) != (s.rest.head?.any word) then [s] else []
  | .atEnd, s => if s.rest = [] || s.rest = ['\n'] then [s] else []

/-! ### Abbreviations -/

def Pattern.opt (a : Pattern) : Pattern := .alt a .empty

def Pattern.plus (a : Pattern) : Pattern := .seq a (.star a)

def Pattern.lazyPlus (a : Pattern) : Pattern := .seq a (.lazyStar a)

def sequence (as : List Pattern) : Pattern := as.foldr .seq .empty

def choice : List Pattern → Pattern
  | [] => .one fun _ => false
  | [a] => a
  | a :: as => .alt a (choice as)

/-- A text as it stands, up to the given identification of characters. -/
def literal (fold : Char → Char) (text : String) : Pattern :=
  sequence (text.toList.map fun d => .one fun c => fold c = fold d)

def Pattern.times (n : Nat) (a : Pattern) : Pattern := sequence (List.replicate n a)

/-! ### Matching -/

/-- `re.search` from a place on: the place at which the match ends. -/
def searchFrom (r : Pattern) (before : Option Char) : List Char → Option Place
  | [] => (r.runs ⟨before, [], []⟩).head?
  | c :: cs =>
    match (r.runs ⟨before, c :: cs, []⟩).head? with
    | some found => some found
    | none => searchFrom r (some c) cs

def search (r : Pattern) (text : String) : Option Place := searchFrom r none text.toList

/-- `re.finditer`, for a pattern that matches no empty text. -/
def findAux (r : Pattern) : Nat → Option Char → List Char → List Place
  | 0, _, _ => []
  | n + 1, before, cs =>
    match searchFrom r before cs with
    | none => []
    | some found => found :: findAux r n found.before found.rest

def findAll (r : Pattern) (text : String) : List Place :=
  findAux r text.toList.length none text.toList

/-- `re.sub(r, "", text)` for a pattern that is tied to the beginning of the text. -/
def removeStart (r : Pattern) (text : String) : String :=
  match (r.runs ⟨none, text.toList, []⟩).head? with
  | some found => String.ofList found.rest
  | none => text

/-- `re.sub`, for a pattern that matches no empty text; `put` takes the text of a match and the place
at which it ends. -/
def substituteAux (r : Pattern) (put : List Char → Place → List Char) :
    Nat → Option Char → List Char → List Char
  | 0, _, cs => cs
  | _ + 1, _, [] => []
  | n + 1, before, c :: cs =>
    match (r.runs ⟨before, c :: cs, []⟩).find? fun found => found.rest.length ≤ cs.length with
    | some found =>
      put (c :: cs.take (cs.length - found.rest.length)) found ++
        substituteAux r put n found.before found.rest
    | none => c :: substituteAux r put n (some c) cs

def substitute (r : Pattern) (put : List Char → Place → List Char) (text : String) : String :=
  String.ofList (substituteAux r put text.toList.length none text.toList)

theorem substituteAux_of_searchFrom {r : Pattern} {put : List Char → Place → List Char} {n : Nat}
    {before : Option Char} {cs : List Char} (h : searchFrom r before cs = none) :
    substituteAux r put n before cs = cs := by
  induction n generalizing before cs with
  | zero => rfl
  | succ n ih =>
    cases cs with
    | nil => rfl
    | cons c cs =>
      rw [searchFrom] at h
      split at h
      · cases h
      · next hruns =>
        rw [substituteAux, List.head?_eq_none_iff.mp hruns]
        exact congrArg (c :: ·) (ih h)

/-- A text without a match stays as it is. -/
theorem substitute_of_search {r : Pattern} {put : List Char → Place → List Char} {text : String}
    (h : search r text = none) : substitute r put text = text := by
  unfold substitute
  rw [substituteAux_of_searchFrom h, String.ofList_toList]

/-- A text does not become empty if no match does. -/
theorem substitute_eq_empty {r : Pattern} {put : List Char → Place → List Char}
    (hput : ∀ c cs found, put (c :: cs) found ≠ []) (text : String) :
    substitute r put text = "" ↔ text = "" := by
  constructor
  · intro h
    have hempty : substituteAux r put text.toList.length none text.toList = [] := by
      have htoList := congrArg String.toList h
      rwa [substitute, String.toList_ofList] at htoList
    cases hcs : text.toList with
    | nil => exact String.toList_injective hcs
    | cons c cs =>
      rw [hcs, List.length_cons, substituteAux] at hempty
      split at hempty
      · exact absurd (List.append_eq_nil_iff.mp hempty).1 (hput _ _ _)
      · cases hempty
  · rintro rfl
    rfl

/-- `match.group(n)`. -/
def Place.group (s : Place) (n : Nat) : Option String := (s.groups.lookup n).map String.ofList

end Regex

/-! ### Character classes -/

namespace Py

/-- Decimal digits from 128 on, as closed intervals. -/
def decimalRanges : List (Nat × Nat) :=
  [(1632, 1641), (1776, 1785), (1984, 1993), (2406, 2415), (2534, 2543), (2662, 2671),
   (2790, 2799), (2918, 2927), (3046, 3055), (3174, 3183), (3302, 3311), (3430, 3439),
   (3558, 3567), (3664, 3673), (3792, 3801), (3872, 3881), (4160, 4169), (4240, 4249),
   (6112, 6121), (6160, 6169), (6470, 6479), (6608, 6617), (6784, 6793), (6800, 6809),
   (6992, 7001), (7088, 7097), (7232, 7241), (7248, 7257), (42528, 42537), (43216, 43225),
   (43264, 43273), (43472, 43481), (43504, 43513), (43600, 43609), (44016, 44025),
   (65296, 65305), (66720, 66729), (68912, 68921), (69734, 69743), (69872, 69881),
   (69942, 69951), (70096, 70105), (70384, 70393), (70736, 70745), (70864, 70873),
   (71248, 71257), (71360, 71369), (71472, 71481), (71904, 71913), (72016, 72025),
   (72784, 72793), (73040, 73049), (73120, 73129), (92768, 92777), (92864, 92873),
   (93008, 93017), (120782, 120831), (123200, 123209), (123632, 123641), (125264, 125273),
   (130032, 130041)]

/-- Characters from 128 on that are alphanumeric but no letters, as closed intervals. -/
def numericRanges : List (Nat × Nat) :=
  [(178, 179), (185, 185), (188, 190), (1632, 1641), (1776, 1785), (1984, 1993), (2406, 2415),
   (2534, 2543), (2548, 2553), (2662, 2671), (2790, 2799), (2918, 2927), (2930, 2935),
   (3046, 3058), (3174, 3183), (3192, 3198), (3302, 3311), (3416, 3422), (3430, 3448),
   (3558, 3567), (3664, 3673), (3792, 3801), (3872, 3891), (4160, 4169), (4240, 4249),
   (4969, 4988), (5870, 5872), (6112, 6121), (6128, 6137), (6160, 6169), (6470, 6479),
   (6608, 6618), (6784, 6793), (6800, 6809), (6992, 7001), (7088, 7097), (7232, 7241),
   (7248, 7257), (8304, 8304), (8308, 8313), (8320, 8329), (8528, 8578), (8581, 8585),
   (9312, 9371), (9450, 9471), (10102, 10131), (11517, 11517), (12295, 12295), (12321, 12329),
   (12344, 12346), (12690, 12693), (12832, 12841), (12872, 12879), (12881, 12895),
   (12928, 12937), (12977, 12991), (42528, 42537), (42726, 42735), (43056, 43061),
   (43216, 43225), (43264, 43273), (43472, 43481), (43504, 43513), (43600, 43609),
   (44016, 44025), (65296, 65305), (65799, 65843), (65856, 65912), (65930, 65931),
   (66273, 66299), (66336, 66339), (66369, 66369), (66378, 66378), (66513, 66517),
   (66720, 66729), (67672, 67679), (67705, 67711), (67751, 67759), (67835, 67839),
   (67862, 67867), (68028, 68029), (68032, 68047), (68050, 68095), (68160, 68168),
   (68221, 68222), (68253, 68255), (68331, 68335), (68440, 68447), (68472, 68479),
   (68521, 68527), (68858, 68863), (68912, 68921), (69216, 69246), (69405, 69414),
   (69457, 69460), (69573, 69579), (69714, 69743), (69872, 69881), (69942, 69951),
   (70096, 70105), (70113, 70132), (70384, 70393), (70736, 70745), (70864, 70873),
   (71248, 71257), (71360, 71369), (71472, 71483), (71904, 71922), (72016, 72025),
   (72784, 72812), (73040, 73049), (73120, 73129), (73664, 73684), (74752, 74862),
   (92768, 92777), (92864, 92873), (93008, 93017), (93019, 93025), (93824, 93846),
   (119520, 119539), (119648, 119672), (120782, 120831), (123200, 123209), (123632, 123641),
   (125127, 125135), (125264, 125273), (126065, 126123), (126125, 126127), (126129, 126132),
   (126209, 126253), (126255, 126269), (127232, 127244), (130032, 130041)]

/-- `\d`. -/
def isDigit (c : Char) : Bool :=
  let n := c.toNat
  if n < 128 then 48 ≤ n && n ≤ 57 else decimalRanges.any fun r => r.1 ≤ n && n ≤ r.2

/-- `\w`. -/
def isWord (c : Char) : Bool :=
  isAlpha c || isDigit c || c = '_' || numericRanges.any fun r => r.1 ≤ c.toNat && c.toNat ≤ r.2

end Py
