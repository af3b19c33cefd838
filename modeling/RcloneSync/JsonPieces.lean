/-
RcloneSync/JsonPieces.lean

The JSON text of a value, cut at the values under marked keys.

A JSON text ends where its last character says so: it never goes on, behind a comma or a closing
bracket, as another JSON text (`dumps_not_extended`).  So where two texts are cut into the same
pieces but for the marked ones, their first characters agree exactly if the marked pieces do, as
far as they are reached (`take_piecesText_iff`).
-/
import Mathlib.Data.List.Chain
import RcloneSync.JsonRoundTrip

namespace Py

/-! ### Where a JSON text ends -/

inductive ScanMode
  | plain
  | text
  | escape

/-- What is left of a text from the first comma or closing bracket on that stands in no string
and, with `depth` brackets open at the beginning, in no bracket. -/
def behindValue : Nat → ScanMode → List Char → List Char
  | _, _, [] => []
  | depth, .escape, _ :: cs => behindValue depth .text cs
  | depth, .text, c :: cs =>
    behindValue depth (if c = '\\' then .escape else if c = '"' then .plain else .text) cs
  | depth, .plain, c :: cs =>
    if c = '"' then behindValue depth .text cs
    else if c = '[' ∨ c = '\x7b' then behindValue (depth + 1) .plain cs
    else if c = ']' ∨ c = '\x7d' then
      if depth = 0 then c :: cs else behindValue (depth - 1) .plain cs
    else if c = ',' ∧ depth = 0 then c :: cs
    else behindValue depth .plain cs

/-- The scan goes past the text, whatever stands behind it. -/
def Passes (text : List Char) : Prop :=
  ∀ depth rest, behindValue depth .plain (text ++ rest) = behindValue depth .plain rest

theorem Passes.append {s t : List Char} (hs : Passes s) (ht : Passes t) : Passes (s ++ t) := by
  intro depth rest
  rw [List.append_assoc, hs, ht]

/-- A character that is no quote, no bracket and no comma. -/
def isPlainChar (c : Char) : Bool := !(['"', '[', ']', '\x7b', '\x7d', ','].contains c)

theorem passes_plain {cs : List Char} (h : ∀ c ∈ cs, isPlainChar c = true) : Passes cs := by
  intro depth rest
  induction cs with
  | nil => rfl
  | cons c cs ih =>
    obtain ⟨hc, hcs⟩ := List.forall_mem_cons.mp h
    have hne : c ∉ ['"', '[', ']', '\x7b', '\x7d', ','] := by
      simpa [isPlainChar] using hc
    simp only [List.mem_cons, List.not_mem_nil, or_false, not_or] at hne
    obtain ⟨h₁, h₂, h₃, h₄, h₅, h₆⟩ := hne
    rw [List.cons_append, behindValue, if_neg h₁, if_neg (not_or.mpr ⟨h₂, h₄⟩),
      if_neg (not_or.mpr ⟨h₃, h₅⟩), if_neg (not_and_of_not_left _ h₆)]
    exact ih hcs

theorem passes_word {cs : List Char} (h : cs.all isPlainChar = true) : Passes cs :=
  passes_plain (List.all_eq_true.mp h)

/-- A string is passed with its quotes. -/
theorem passes_text (s : String) : Passes (jsonText false s).toList := by
  have hchar : ∀ depth rest c,
      behindValue depth .text (jsonChar false c ++ rest) = behindValue depth .text rest := by
    intro depth rest c
    have hescape : ∀ n < 32, (hexText 4 n).all (fun d => d ≠ '\\' && d ≠ '"') = true := by decide
    have hbody : ∀ cs : List Char, (∀ d ∈ cs, d ≠ '\\' ∧ d ≠ '"') →
        behindValue depth .text (cs ++ rest) = behindValue depth .text rest := by
      intro cs hcs
      induction cs with
      | nil => rfl
      | cons d cs ih =>
        obtain ⟨⟨hslash, hquote⟩, hcs⟩ := List.forall_mem_cons.mp hcs
        rw [List.cons_append, behindValue, if_neg hslash, if_neg hquote]
        exact ih hcs
    unfold jsonChar
    split_ifs with hquote hslash _ _ _ _ _ hcontrol
    iterate 7 rfl
    · have hlow : c.toNat < 32 := by simpa using hcontrol
      unfold jsonEscape
      dsimp only
      rw [if_pos (by omega)]
      -- The backslash takes the `u` behind it with it.
      show behindValue depth .text (hexText 4 c.toNat ++ rest) = _
      exact hbody _ (by simpa using hescape c.toNat hlow)
    · exact hbody [c] (by simpa using ⟨hslash, hquote⟩)
  have hchars : ∀ depth rest (cs : List Char),
      behindValue depth .text (cs.flatMap (jsonChar false) ++ rest) =
        behindValue depth .text rest := by
    intro depth rest cs
    induction cs with
    | nil => rfl
    | cons c cs ih => rw [List.flatMap_cons, List.append_assoc, hchar, ih]
  intro depth rest
  rw [jsonText, String.toList_ofList, List.cons_append, List.cons_append, behindValue, if_pos rfl,
    List.append_assoc, hchars, List.singleton_append, behindValue, if_neg (by decide), if_pos rfl]

theorem isPlainChar_digit {c : Char} (h : c.isDigit = true) : isPlainChar c = true := by
  have hmarks : ['"', '[', ']', '\x7b', '\x7d', ','].all (fun d => !d.isDigit) = true := by decide
  have hne : c ∉ ['"', '[', ']', '\x7b', '\x7d', ','] := fun hmem => by
    have hmark := List.all_eq_true.mp hmarks c hmem
    rw [h] at hmark
    cases hmark
  simpa [isPlainChar] using hne

/-- The text of a decimal has digits, and the signs of a number. -/
theorem forall_decRepr {P : Char → Prop} (hdigit : ∀ c : Char, c.isDigit = true → P c)
    (hsign : ∀ c ∈ ['.', 'e', '+', '-'], P c) (m : Int) (k : Nat) :
    ∀ c ∈ (decRepr m k).toList, P c := by
  obtain ⟨hpoint, hexp, hplus, hminus⟩ : P '.' ∧ P 'e' ∧ P '+' ∧ P '-' := by simpa using hsign
  have hzero : P '0' := hdigit '0' (by decide)
  have hall : ∀ c ∈ Nat.toDigits 10 m.natAbs, P c := fun c hc => hdigit c (isDigit_toDigits hc)
  have hkept : ∀ c ∈ (Nat.toDigits 10 m.natAbs).rdropWhile (· = '0'), P c := fun c hc =>
    hall c ((List.rdropWhile_prefix _ _).subset hc)
  have hdigits : ∀ e : Nat, ∀ c ∈ (toString e).toList, P c := fun e c hc =>
    hdigit c (isDigit_toDigits (by simpa using hc))
  have hzeros : ∀ j, ∀ c ∈ List.replicate j '0', P c := fun j c hc => by
    rwa [List.eq_of_mem_replicate hc]
  have htake : ∀ p, ∀ c ∈ ((Nat.toDigits 10 m.natAbs).rdropWhile (· = '0')).take p, P c :=
    fun p c hc => hkept c (List.mem_of_mem_take hc)
  have hdrop : ∀ p, ∀ c ∈ '.' :: ((Nat.toDigits 10 m.natAbs).rdropWhile (· = '0')).drop p, P c :=
    fun p => List.forall_mem_cons.mpr ⟨hpoint, fun c hc => hkept c (List.mem_of_mem_drop hc)⟩
  have hexponent : ∀ e : Int, ∀ c ∈ 'e' :: (if e < 0 then '-' else '+') ::
      (if (toString e.natAbs).toList.length < 2 then '0' :: (toString e.natAbs).toList
        else (toString e.natAbs).toList), P c := by
    intro e
    refine List.forall_mem_cons.mpr ⟨hexp, List.forall_mem_cons.mpr ⟨?_, ?_⟩⟩
    · split <;> assumption
    · split
      · exact List.forall_mem_cons.mpr ⟨hzero, hdigits _⟩
      · exact hdigits _
  have hbody : ∀ c ∈ decBody (Nat.toDigits 10 m.natAbs) k, P c := by
    unfold decBody
    dsimp only
    split
    · simpa using ⟨hzero, hpoint, hzero⟩
    split
    · split
      · exact List.forall_mem_append.mpr
          ⟨List.forall_mem_append.mpr ⟨by simpa using ⟨hzero, hpoint⟩, hzeros _⟩, hkept⟩
      split
      · exact List.forall_mem_append.mpr
          ⟨List.forall_mem_append.mpr ⟨hkept, hzeros _⟩, by simpa using ⟨hpoint, hzero⟩⟩
      · exact List.forall_mem_append.mpr ⟨htake _, hdrop _⟩
    · refine List.forall_mem_append.mpr ⟨?_, hexponent _⟩
      split
      · exact hkept
      · exact List.forall_mem_append.mpr ⟨htake _, hdrop _⟩
  rw [decRepr_toList]
  split
  · exact List.forall_mem_cons.mpr ⟨hminus, hbody⟩
  · exact hbody

theorem forall_int {P : Char → Prop} (hdigit : ∀ c : Char, c.isDigit = true → P c)
    (hminus : P '-') (n : Int) : ∀ c ∈ (toString n).toList, P c := by
  have hdigits : ∀ k : Nat, ∀ c ∈ (Nat.repr k).toList, P c := fun k c hc => by
    rw [Nat.toList_repr] at hc
    exact hdigit c (isDigit_toDigits hc)
  cases n with
  | ofNat m => exact hdigits m
  | negSucc m =>
    have hneg : toString (Int.negSucc m) = "-" ++ Nat.repr (m + 1) := rfl
    rw [hneg, String.toList_append]
    exact List.forall_mem_append.mpr ⟨by simpa using hminus, hdigits _⟩

theorem behindValue_open {c : Char} (hc : c = '[' ∨ c = '\x7b') (depth : Nat) (rest : List Char) :
    behindValue depth .plain (c :: rest) = behindValue (depth + 1) .plain rest := by
  rcases hc with rfl | rfl <;> rfl

theorem behindValue_close {c : Char} (hc : c = ']' ∨ c = '\x7d') (depth : Nat)
    (rest : List Char) :
    behindValue (depth + 1) .plain (c :: rest) = behindValue depth .plain rest := by
  rcases hc with rfl | rfl <;> rfl

/-- Behind an opening bracket the texts are passed with their commas. -/
theorem passes_join {texts : List String} (h : ∀ t ∈ texts, Passes t.toList) (depth : Nat)
    (rest : List Char) :
    behindValue (depth + 1) .plain ((join ", " texts).toList ++ rest) =
      behindValue (depth + 1) .plain rest := by
  induction texts with
  | nil => rfl
  | cons t texts ih =>
    obtain ⟨ht, htexts⟩ := List.forall_mem_cons.mp h
    cases texts with
    | nil => exact ht _ _
    | cons u texts =>
      rw [join_toList, List.append_assoc, List.append_assoc, ht]
      exact ih htexts

theorem mem_insertByKey {α : Type} {e f : String × α} {l : List (String × α)}
    (h : f ∈ insertByKey e l) : f = e ∨ f ∈ l := by
  induction l with
  | nil => exact .inl (List.mem_singleton.mp h)
  | cons x l ih =>
    rw [insertByKey] at h
    split at h
    · exact List.mem_cons.mp h
    · rcases List.mem_cons.mp h with rfl | h
      · exact .inr List.mem_cons_self
      · exact (ih h).imp_right (List.mem_cons_of_mem _)

theorem mem_sortedByKey {α : Type} {f : String × α} {l : List (String × α)}
    (h : f ∈ l.foldr insertByKey []) : f ∈ l := by
  induction l with
  | nil => cases h
  | cons e l ih =>
    rcases mem_insertByKey h with rfl | h
    · exact List.mem_cons_self
    · exact List.mem_cons_of_mem _ (ih h)

theorem sortedJson_list (xs : List Value) : (jsonDumps sortedJson (.list xs)).toList =
    '[' :: ((join ", " (jsonItems sortedJson xs)).toList ++ [']']) := by
  simp [jsonDumps, sortedJson]

theorem sortedJson_dict (d : Dict) : (jsonDumps sortedJson (.dict d)).toList =
    '\x7b' :: ((join ", " (((jsonMembers sortedJson d).foldr insertByKey []).map
      fun e => jsonText false e.1 ++ ": " ++ e.2)).toList ++ ['\x7d']) := by
  simp [jsonDumps, sortedJson]

mutual

/-- The scan goes past the text of a value. -/
theorem passes_dumps : (v : Value) → Passes (jsonDumps sortedJson v).toList
  | .none => passes_word (by decide)
  | .bool true => passes_word (by decide)
  | .bool false => passes_word (by decide)
  | .int n => passes_plain (forall_int (fun _ => isPlainChar_digit) (by decide) n)
  | .float (.dec m k) =>
    passes_plain (forall_decRepr (fun _ => isPlainChar_digit) (List.all_eq_true.mp (by decide)) m k)
  | .float .inf => passes_word (by decide)
  | .float .negInf => passes_word (by decide)
  | .float .nan => passes_word (by decide)
  | .str s => passes_text s
  | .list xs => by
    intro depth rest
    rw [sortedJson_list, List.cons_append, List.append_assoc, behindValue_open (.inl rfl),
      passes_join (passes_items xs)]
    exact behindValue_close (.inl rfl) depth rest
  | .dict d => by
    intro depth rest
    have hmembers : ∀ t ∈ ((jsonMembers sortedJson d).foldr insertByKey []).map
        (fun e => jsonText false e.1 ++ ": " ++ e.2), Passes t.toList := by
      intro t ht
      obtain ⟨e, he, rfl⟩ := List.mem_map.mp ht
      rw [String.toList_append, String.toList_append]
      exact ((passes_text e.1).append (passes_word (by decide))).append
        (passes_members d e (mem_sortedByKey he))
    rw [sortedJson_dict, List.cons_append, List.append_assoc, behindValue_open (.inr rfl),
      passes_join hmembers]
    exact behindValue_close (.inr rfl) depth rest

theorem passes_items : (xs : List Value) → ∀ t ∈ jsonItems sortedJson xs, Passes t.toList
  | [] => by
    intro t ht
    cases ht
  | x :: xs => List.forall_mem_cons.mpr ⟨passes_dumps x, passes_items xs⟩

theorem passes_members : (d : Dict) → ∀ e ∈ jsonMembers sortedJson d, Passes e.2.toList
  | [] => by
    intro e he
    cases he
  | (_, x) :: d => List.forall_mem_cons.mpr ⟨passes_dumps x, passes_members d⟩

end

/-- What may stand behind the text of a value. -/
def closesValue (c : Char) : Prop := c = ',' ∨ c = ']' ∨ c = '\x7d'

/-- A JSON text does not go on as another one. -/
theorem dumps_not_extended (v w : Value) {c : Char} (hc : closesValue c) (rest : List Char) :
    (jsonDumps sortedJson v).toList ≠ (jsonDumps sortedJson w).toList ++ c :: rest := by
  intro heq
  have hv := passes_dumps v 0 []
  rw [List.append_nil, heq, passes_dumps w] at hv
  rcases hc with rfl | rfl | rfl <;> cases hv

/-! ### The pieces of a text -/

structure TextPiece where
  marked : Bool
  text : List Char
  deriving DecidableEq, Repr

def piecesText (ps : List TextPiece) : List Char := ps.flatMap TextPiece.text

@[simp] theorem piecesText_nil : piecesText [] = [] := rfl

@[simp] theorem piecesText_cons (p : TextPiece) (ps : List TextPiece) :
    piecesText (p :: ps) = p.text ++ piecesText ps := List.flatMap_cons

@[simp] theorem piecesText_append (ps qs : List TextPiece) :
    piecesText (ps ++ qs) = piecesText ps ++ piecesText qs := List.flatMap_append

/-- The pieces of several values with `", "` between them. -/
def joinPieces : List (List TextPiece) → List TextPiece
  | [] => []
  | [ps] => ps
  | ps :: qs :: rest => ps ++ ⟨false, [',', ' ']⟩ :: joinPieces (qs :: rest)

section Marks

variable (isMarked : String → Bool)

mutual

/-- The text of a value, cut at the values under marked keys. -/
def jsonPieces : Value → List TextPiece
  | .list xs => ⟨false, ['[']⟩ :: joinPieces (itemPieces xs) ++ [⟨false, [']']⟩]
  | .dict d =>
    ⟨false, ['\x7b']⟩ :: joinPieces (((memberPieces d).foldr insertByKey []).map fun e =>
      ⟨false, (jsonText false e.1 ++ ": ").toList⟩ :: e.2) ++ [⟨false, ['\x7d']⟩]
  | v => [⟨false, (jsonDumps sortedJson v).toList⟩]

def itemPieces : List Value → List (List TextPiece)
  | [] => []
  | x :: xs => jsonPieces x :: itemPieces xs

/-- The members of a mapping with the pieces of their values. -/
def memberPieces : Dict → List (String × List TextPiece)
  | [] => []
  | (k, x) :: rest =>
    (k, if isMarked k then [⟨true, (jsonDumps sortedJson x).toList⟩] else jsonPieces x) ::
      memberPieces rest

end

section Text

variable {isMarked}

theorem map_insertByKey {α β : Type} (f : α → β) (e : String × α) (l : List (String × α)) :
    (insertByKey e l).map (Prod.map id f) =
      insertByKey (Prod.map id f e) (l.map (Prod.map id f)) := by
  induction l with
  | nil => rfl
  | cons x l ih =>
    rw [List.map_cons, insertByKey, insertByKey]
    simp only [Prod.map_fst, id_eq]
    split
    · rfl
    · rw [List.map_cons, ih]

theorem map_sortedByKey {α β : Type} (f : α → β) (l : List (String × α)) :
    (l.foldr insertByKey []).map (Prod.map id f) =
      (l.map (Prod.map id f)).foldr insertByKey [] := by
  induction l with
  | nil => rfl
  | cons e l ih => rw [List.foldr_cons, map_insertByKey, ih, List.map_cons, List.foldr_cons]

theorem piecesText_joinPieces (ls : List (List TextPiece)) :
    piecesText (joinPieces ls) =
      (join ", " (ls.map fun ps => String.ofList (piecesText ps))).toList := by
  induction ls with
  | nil => rfl
  | cons ps ls ih =>
    cases ls with
    | nil => simp [joinPieces, join]
    | cons qs ls =>
      rw [joinPieces, piecesText_append, piecesText_cons, ih]
      simp [join]

variable (isMarked)

mutual

/-- The pieces make up the text. -/
theorem piecesText_jsonPieces : (v : Value) →
    piecesText (jsonPieces isMarked v) = (jsonDumps sortedJson v).toList
  | .none => by simp [jsonPieces]
  | .bool _ => by simp [jsonPieces]
  | .int _ => by simp [jsonPieces]
  | .float _ => by simp [jsonPieces]
  | .str _ => by simp [jsonPieces]
  | .list xs => by
    rw [sortedJson_list, jsonPieces, List.cons_append, piecesText_cons, piecesText_append,
      piecesText_joinPieces, texts_itemPieces xs]
    rfl
  | .dict d => by
    have hmembers : ((memberPieces isMarked d).foldr insertByKey []).map
        (Prod.map id fun ps => String.ofList (piecesText ps)) =
          (jsonMembers sortedJson d).foldr insertByKey [] := by
      rw [map_sortedByKey, texts_memberPieces d]
    have htexts : ∀ e : String × List TextPiece,
        String.ofList (piecesText (⟨false, (jsonText false e.1 ++ ": ").toList⟩ :: e.2)) =
          jsonText false e.1 ++ ": " ++ String.ofList (piecesText e.2) := by
      intro e
      rw [piecesText_cons, String.ofList_append, String.ofList_toList]
    rw [sortedJson_dict, ← hmembers, jsonPieces, List.cons_append, piecesText_cons,
      piecesText_append, piecesText_joinPieces, List.map_map, List.map_map]
    simp only [Function.comp_def, htexts]
    rfl

theorem texts_itemPieces : (xs : List Value) →
    (itemPieces isMarked xs).map (fun ps => String.ofList (piecesText ps)) =
      jsonItems sortedJson xs
  | [] => rfl
  | x :: xs => by
    rw [itemPieces, List.map_cons, piecesText_jsonPieces x, texts_itemPieces xs,
      String.ofList_toList]
    rfl

theorem texts_memberPieces : (d : Dict) →
    (memberPieces isMarked d).map (Prod.map id fun ps => String.ofList (piecesText ps)) =
      jsonMembers sortedJson d
  | [] => rfl
  | (k, x) :: d => by
    have hvalue : piecesText (if isMarked k then [⟨true, (jsonDumps sortedJson x).toList⟩]
        else jsonPieces isMarked x) = (jsonDumps sortedJson x).toList := by
      split
      · simp
      · exact piecesText_jsonPieces x
    rw [memberPieces, List.map_cons, texts_memberPieces d, Prod.map_apply, hvalue,
      String.ofList_toList]
    rfl

end

end Text

/-! ### How the pieces follow each other -/

/-- Behind a marked piece stands a comma or a closing bracket. -/
def Ends (p q : TextPiece) : Prop :=
  p.marked = true → ∃ c rest, q.text = c :: rest ∧ closesValue c

/-- The marked pieces are JSON texts, and end where the next piece begins. -/
structure WellCut (ps : List TextPiece) : Prop where
  ends : ps.IsChain Ends
  json : ∀ p ∈ ps, p.marked = true → ∃ v, p.text = (jsonDumps sortedJson v).toList

theorem wellCut_nil : WellCut [] := ⟨.nil, by simp⟩

theorem wellCut_marked (v : Value) : WellCut [⟨true, (jsonDumps sortedJson v).toList⟩] :=
  ⟨.singleton _, fun p hp _ => ⟨v, by rw [List.mem_singleton.mp hp]⟩⟩

theorem WellCut.cons_plain {ps : List TextPiece} (h : WellCut ps) (text : List Char) :
    WellCut (⟨false, text⟩ :: ps) where
  ends := by
    refine List.isChain_cons.mpr ⟨?_, h.ends⟩
    intro q _ hmarked
    cases hmarked
  json := by
    intro p hp hmarked
    rcases List.mem_cons.mp hp with rfl | hp
    · cases hmarked
    · exact h.json p hp hmarked

theorem WellCut.append_plain {ps qs : List TextPiece} (hps : WellCut ps) (hqs : WellCut qs)
    {c : Char} (hc : closesValue c) (rest : List Char) :
    WellCut (ps ++ ⟨false, c :: rest⟩ :: qs) where
  ends := by
    refine List.isChain_append.mpr ⟨hps.ends, (hqs.cons_plain (c :: rest)).ends, ?_⟩
    intro p _ q hq _
    obtain rfl : (⟨false, c :: rest⟩ : TextPiece) = q := by simpa using hq
    exact ⟨c, rest, rfl, hc⟩
  json := by
    intro p hp
    rcases List.mem_append.mp hp with hp | hp
    · exact hps.json p hp
    · exact (hqs.cons_plain (c :: rest)).json p hp

theorem wellCut_joinPieces {ls : List (List TextPiece)} (h : ∀ ps ∈ ls, WellCut ps) :
    WellCut (joinPieces ls) := by
  induction ls with
  | nil => exact wellCut_nil
  | cons ps ls ih =>
    obtain ⟨hps, hls⟩ := List.forall_mem_cons.mp h
    cases ls with
    | nil => exact hps
    | cons qs ls => exact hps.append_plain (ih hls) (.inl rfl) _

mutual

theorem wellCut_jsonPieces : (v : Value) → WellCut (jsonPieces isMarked v)
  | .none => wellCut_nil.cons_plain _
  | .bool _ => wellCut_nil.cons_plain _
  | .int _ => wellCut_nil.cons_plain _
  | .float _ => wellCut_nil.cons_plain _
  | .str _ => wellCut_nil.cons_plain _
  | .list xs =>
    ((wellCut_joinPieces (wellCut_itemPieces xs)).append_plain wellCut_nil
      (.inr (.inl rfl)) []).cons_plain _
  | .dict d => by
    refine ((wellCut_joinPieces ?_).append_plain wellCut_nil (.inr (.inr rfl)) []).cons_plain _
    intro ps hps
    obtain ⟨e, he, rfl⟩ := List.mem_map.mp hps
    exact (wellCut_memberPieces d e (mem_sortedByKey he)).cons_plain _

theorem wellCut_itemPieces : (xs : List Value) → ∀ ps ∈ itemPieces isMarked xs, WellCut ps
  | [] => by
    intro ps hps
    cases hps
  | x :: xs => List.forall_mem_cons.mpr ⟨wellCut_jsonPieces x, wellCut_itemPieces xs⟩

theorem wellCut_memberPieces : (d : Dict) → ∀ e ∈ memberPieces isMarked d, WellCut e.2
  | [] => by
    intro e he
    cases he
  | (k, x) :: d => by
    refine List.forall_mem_cons.mpr ⟨?_, wellCut_memberPieces d⟩
    dsimp only
    split
    · exact wellCut_marked x
    · exact wellCut_jsonPieces x

end

end Marks

/-! ### Where two texts agree -/

/-- The same piece, or two marked ones. -/
def SameFrame (p q : TextPiece) : Prop := p = q ∨ (p.marked = true ∧ q.marked = true)

theorem sameFrame_refl (ps : List TextPiece) : List.Forall₂ SameFrame ps ps :=
  List.forall₂_same.mpr fun _ _ => .inl rfl

theorem forall₂_joinPieces {ls ls' : List (List TextPiece)}
    (h : List.Forall₂ (List.Forall₂ SameFrame) ls ls') :
    List.Forall₂ SameFrame (joinPieces ls) (joinPieces ls') := by
  induction h with
  | nil => exact .nil
  | cons hps htail ih =>
    cases htail with
    | nil => exact hps
    | cons => exact List.rel_append hps (.cons (.inl rfl) ih)

/-- Members with the same keys, sorted by them. -/
theorem forall₂_sortedByKey {α β : Type} {R : α → β → Prop} {l : List (String × α)}
    {l' : List (String × β)} (h : List.Forall₂ (fun e e' => e.1 = e'.1 ∧ R e.2 e'.2) l l') :
    List.Forall₂ (fun e e' => e.1 = e'.1 ∧ R e.2 e'.2) (l.foldr insertByKey [])
      (l'.foldr insertByKey []) := by
  have hinsert : ∀ {e : String × α} {e' : String × β} {l l'}, e.1 = e'.1 ∧ R e.2 e'.2 →
      List.Forall₂ (fun e e' => e.1 = e'.1 ∧ R e.2 e'.2) l l' →
      List.Forall₂ (fun e e' => e.1 = e'.1 ∧ R e.2 e'.2) (insertByKey e l) (insertByKey e' l') := by
    intro e e' l l' he hl
    induction hl with
    | nil => exact .cons he .nil
    | cons hx htail ih =>
      rw [insertByKey, insertByKey, he.1, hx.1]
      split
      · exact .cons he (.cons hx htail)
      · exact .cons hx ih
  induction h with
  | nil => exact .nil
  | cons he _ ih => exact hinsert he ih

/-- Where the pieces are the same up to a marked one, the two marked pieces agree as far as the
first `shown` characters of the text go. -/
def MarkedAgree (shown : Nat) (ps qs : List TextPiece) : Prop :=
  ∀ front s t rest rest', ps = front ++ ⟨true, s⟩ :: rest → qs = front ++ ⟨true, t⟩ :: rest' →
    s.take (shown - (piecesText front).length) = t.take (shown - (piecesText front).length)

theorem markedAgree_nil (shown : Nat) : MarkedAgree shown [] [] := by
  intro front s t rest rest' h
  cases front <;> cases h

theorem markedAgree_cons_plain {shown : Nat} {text : List Char} {ps qs : List TextPiece} :
    MarkedAgree shown (⟨false, text⟩ :: ps) (⟨false, text⟩ :: qs) ↔
      MarkedAgree (shown - text.length) ps qs := by
  constructor
  · intro h front s t rest rest' hps hqs
    have hfront := h (⟨false, text⟩ :: front) s t rest rest' (by rw [hps]; rfl) (by rw [hqs]; rfl)
    rwa [piecesText_cons, List.length_append, ← Nat.sub_sub] at hfront
  · intro h front s t rest rest' hps hqs
    cases front with
    | nil => cases hps
    | cons p front =>
      obtain ⟨rfl, htail⟩ := List.cons.inj hps
      obtain ⟨-, htail'⟩ := List.cons.inj hqs
      rw [piecesText_cons, List.length_append, ← Nat.sub_sub]
      exact h front s t rest rest' htail htail'

theorem markedAgree_cons_marked {shown : Nat} {s t : List Char} {ps qs : List TextPiece} :
    MarkedAgree shown (⟨true, s⟩ :: ps) (⟨true, t⟩ :: qs) ↔
      s.take shown = t.take shown ∧ (s = t → MarkedAgree (shown - s.length) ps qs) := by
  constructor
  · refine fun h => ⟨by simpa using h [] s t ps qs rfl rfl, ?_⟩
    rintro rfl front u v rest rest' hps hqs
    have hfront := h (⟨true, s⟩ :: front) u v rest rest' (by rw [hps]; rfl) (by rw [hqs]; rfl)
    rwa [piecesText_cons, List.length_append, ← Nat.sub_sub] at hfront
  · rintro ⟨hhead, htail⟩ front u v rest rest' hps hqs
    cases front with
    | nil =>
      obtain ⟨hu, -⟩ := List.cons.inj hps
      obtain ⟨hv, -⟩ := List.cons.inj hqs
      cases hu
      cases hv
      simpa using hhead
    | cons p front =>
      obtain ⟨rfl, hps'⟩ := List.cons.inj hps
      obtain ⟨hp, hqs'⟩ := List.cons.inj hqs
      cases hp
      rw [piecesText_cons, List.length_append, ← Nat.sub_sub]
      exact htail rfl front u v rest rest' hps' hqs'

/-- A text behind a value begins with a comma or a closing bracket. -/
def Closing (rest : List Char) : Prop := ∀ c ∈ rest.head?, closesValue c

/-- Where the longer of two texts does not go on behind the shorter one as a closed text does. -/
theorem take_eq_of_take_append {s t rest rest' : List Char} {n : Nat}
    (hlength : s.length ≤ t.length) (ht : ∀ c rest, closesValue c → t ≠ s ++ c :: rest)
    (hrest : Closing rest) (h : (s ++ rest).take n = (t ++ rest').take n) : s.take n = t.take n := by
  rcases Nat.lt_or_ge s.length n with hn | hn
  · have hs : s = t.take s.length := by
      have hfirst := congrArg (List.take s.length) h
      rwa [List.take_take, List.take_take, Nat.min_eq_left hn.le,
        List.take_left, List.take_append_of_le_length hlength] at hfirst
    obtain ⟨u, hu⟩ : ∃ u, t = s ++ u :=
      ⟨t.drop s.length, by conv_lhs => rw [← List.take_append_drop s.length t, ← hs]⟩
    cases u with
    | nil => rw [hu, List.append_nil]
    | cons d u =>
      have hat := congrArg (·[s.length]?) h
      simp only [List.getElem?_take, if_pos hn, hu, List.append_assoc, List.getElem?_append_right,
        le_refl, Nat.sub_self, List.cons_append, List.getElem?_cons_zero] at hat
      rw [← List.head?_eq_getElem?] at hat
      exact absurd hu (ht d u (hrest d hat))
  · rwa [List.take_append_of_le_length hn, List.take_append_of_le_length (hn.trans hlength)] at h

theorem le_of_take_eq {s t : List Char} {n : Nat} (h : s.take n = t.take n) (hne : s ≠ t) :
    n ≤ s.length := by
  by_contra hlt
  have hlength := congrArg List.length h
  rw [List.length_take, List.length_take] at hlength
  rw [List.take_of_length_le (by omega), List.take_of_length_le (by omega)] at h
  exact hne h

theorem take_append_iff {s t rest rest' : List Char} {n : Nat}
    (hs : ∀ c rest, closesValue c → s ≠ t ++ c :: rest)
    (ht : ∀ c rest, closesValue c → t ≠ s ++ c :: rest) (hrest : Closing rest)
    (hrest' : Closing rest') :
    (s ++ rest).take n = (t ++ rest').take n ↔
      s.take n = t.take n ∧
        (s = t → rest.take (n - s.length) = rest'.take (n - s.length)) := by
  constructor
  · refine fun h => ⟨?_, ?_⟩
    · rcases Nat.le_total s.length t.length with hlength | hlength
      · exact take_eq_of_take_append hlength ht hrest h
      · exact (take_eq_of_take_append hlength hs hrest' h.symm).symm
    · rintro rfl
      rw [List.take_append, List.take_append] at h
      exact List.append_cancel_left h
  · rintro ⟨hst, htail⟩
    by_cases heq : s = t
    · rw [List.take_append, List.take_append, ← heq, htail heq]
    · rw [List.take_append_of_le_length (le_of_take_eq hst heq),
        List.take_append_of_le_length (le_of_take_eq hst.symm (Ne.symm heq)), hst]

theorem WellCut.tail {p : TextPiece} {ps : List TextPiece} (h : WellCut (p :: ps)) : WellCut ps :=
  ⟨(List.isChain_cons.mp h.ends).2, fun q hq => h.json q (List.mem_cons_of_mem p hq)⟩

/-- The text behind a marked piece begins with a comma or a closing bracket. -/
theorem WellCut.closing {s : List Char} {ps : List TextPiece} (h : WellCut (⟨true, s⟩ :: ps)) :
    Closing (piecesText ps) := by
  cases ps with
  | nil =>
    intro c hc
    cases hc
  | cons q ps =>
    obtain ⟨c, rest, htext, hc⟩ := (List.isChain_cons.mp h.ends).1 q rfl rfl
    intro d hd
    rw [piecesText_cons, htext] at hd
    cases hd
    exact hc

/-- **Two texts that are cut alike agree up to a length** exactly if their marked pieces do, as far
as they are reached. -/
theorem take_piecesText_iff {ps qs : List TextPiece} (hframe : List.Forall₂ SameFrame ps qs)
    (hps : WellCut ps) (hqs : WellCut qs) (shown : Nat) :
    (piecesText ps).take shown = (piecesText qs).take shown ↔ MarkedAgree shown ps qs := by
  induction hframe generalizing shown with
  | nil => exact iff_of_true rfl (markedAgree_nil shown)
  | @cons p q ps qs hpq _ ih =>
    have hih := ih hps.tail hqs.tail
    obtain ⟨marked, s⟩ := p
    obtain ⟨marked', t⟩ := q
    have hmarked : marked = marked' ∧ (marked = false → s = t) := by
      rcases hpq with heq | ⟨hp, hq⟩
      · cases heq
        exact ⟨rfl, fun _ => rfl⟩
      · cases hp
        cases hq
        exact ⟨rfl, fun h => by cases h⟩
    obtain ⟨rfl, hplain⟩ := hmarked
    rw [piecesText_cons, piecesText_cons]
    cases marked with
    | false =>
      obtain rfl := hplain rfl
      rw [markedAgree_cons_plain, ← hih, List.take_append, List.take_append, List.append_right_inj]
    | true =>
      obtain ⟨v, rfl⟩ := hps.json ⟨true, s⟩ List.mem_cons_self rfl
      obtain ⟨w, rfl⟩ := hqs.json ⟨true, t⟩ List.mem_cons_self rfl
      rw [markedAgree_cons_marked, ← hih]
      exact take_append_iff (fun c rest hc => dumps_not_extended v w hc rest)
        (fun c rest hc => dumps_not_extended w v hc rest) hps.closing hqs.closing

/-- The whole texts are the same exactly if all their marked pieces are. -/
theorem piecesText_eq_iff {ps qs : List TextPiece} (hframe : List.Forall₂ SameFrame ps qs)
    (hps : WellCut ps) (hqs : WellCut qs) :
    piecesText ps = piecesText qs ↔ ∀ shown, MarkedAgree shown ps qs := by
  constructor
  · intro h shown
    exact (take_piecesText_iff hframe hps hqs shown).mp (by rw [h])
  · intro h
    have htake := (take_piecesText_iff hframe hps hqs
      (max (piecesText ps).length (piecesText qs).length)).mpr (h _)
    rwa [List.take_of_length_le (le_max_left _ _), List.take_of_length_le (le_max_right _ _)]
      at htake

end Py
