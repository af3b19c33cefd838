/-
RcloneSync/JsonSize.lean

How long a JSON text gets.

A character takes at most six bytes, a mapping what its members take and four bytes for each of
them, and every value at least what its parts take.  `sizeBound` adds this up without writing the
text.
-/
import RcloneSync.BoundedJson

namespace RcloneSync

open Py

/-! ### Bytes of a text -/

theorem utf8Length_append (a b : String) : utf8Length (a ++ b) = utf8Length a + utf8Length b := by
  simp [utf8Length]

theorem utf8Length_ofList (cs : List Char) :
    utf8Length (String.ofList cs) = (cs.map Char.utf8Size).sum := by
  induction cs with
  | nil => rfl
  | cons c cs ih =>
    rw [String.ofList_cons, utf8Length_append, ih, List.map_cons, List.sum_cons]
    congr 1
    simp [utf8Length]

theorem length_le_utf8Length (s : String) : s.length ≤ utf8Length s := by
  have hsize : ∀ cs : List Char, cs.length ≤ (cs.map Char.utf8Size).sum := by
    intro cs
    induction cs with
    | nil => exact le_rfl
    | cons c cs ih =>
      have hc := c.utf8Size_pos
      rw [List.map_cons, List.sum_cons, List.length_cons]
      omega
  calc s.length = s.toList.length := String.length_toList.symm
    _ ≤ (s.toList.map Char.utf8Size).sum := hsize _
    _ = utf8Length s := by rw [← utf8Length_ofList, String.ofList_toList]

/-- Bytes of characters, each of which takes at most `n`. -/
theorem sum_utf8Size_le {n : Nat} {cs : List Char} (h : ∀ c ∈ cs, c.utf8Size ≤ n) :
    (cs.map Char.utf8Size).sum ≤ n * cs.length := by
  induction cs with
  | nil => exact Nat.zero_le _
  | cons c cs ih =>
    obtain ⟨hc, hcs⟩ := List.forall_mem_cons.mp h
    have htail := ih hcs
    rw [List.map_cons, List.sum_cons, List.length_cons, Nat.mul_succ]
    omega

/-- One character of a JSON string takes at most six bytes. -/
theorem jsonChar_size (c : Char) : ((jsonChar false c).map Char.utf8Size).sum ≤ 6 := by
  unfold jsonChar
  split_ifs with _ _ _ _ _ _ _ hcontrol
  · decide
  · decide
  · decide
  · decide
  · decide
  · decide
  · decide
  · have hlow : c.toNat < 32 := by simpa using hcontrol
    have hall : ∀ n < 32, (('\\' :: 'u' :: hexText 4 n).map Char.utf8Size).sum ≤ 6 := by decide
    unfold jsonEscape
    dsimp only
    rw [if_pos (by omega)]
    exact hall c.toNat hlow
  · have hsize := c.utf8Size_le_four
    simp
    omega

theorem jsonText_size (s : String) : utf8Length (jsonText false s) ≤ 6 * s.length + 2 := by
  have hquote : Char.utf8Size '"' = 1 := by decide
  have hbody : ∀ cs : List Char,
      ((cs.flatMap (jsonChar false)).map Char.utf8Size).sum ≤ 6 * cs.length := by
    intro cs
    induction cs with
    | nil => exact Nat.zero_le _
    | cons c cs ih =>
      have hc := jsonChar_size c
      rw [List.flatMap_cons, List.map_append, List.sum_append, List.length_cons]
      omega
  have hs := hbody s.toList
  rw [String.length_toList] at hs
  rw [jsonText, utf8Length_ofList]
  simp only [List.map_cons, List.map_append, List.sum_cons, List.sum_append, List.map_nil,
    List.sum_nil, hquote]
  omega

theorem encodedSize_str (s : String) : encodedSize (.str s) ≤ 6 * s.length + 2 := by
  unfold encodedSize
  rw [jsonDumps]
  exact jsonText_size s

/-! ### Bytes of a mapping and of its parts -/

theorem utf8Length_join_le (texts : List String) :
    utf8Length (join ", " texts) ≤ (texts.map fun t => utf8Length t + 2).sum := by
  have hsep : utf8Length ", " = 2 := by decide
  induction texts with
  | nil => exact Nat.zero_le _
  | cons t texts ih =>
    cases texts with
    | nil => simp [join]
    | cons u texts =>
      rw [join, utf8Length_append, utf8Length_append, hsep, List.map_cons, List.sum_cons]
      · omega
      · exact List.cons_ne_nil _ _

theorem utf8Length_join_ge {t : String} {texts : List String} (h : t ∈ texts) (sep : String) :
    utf8Length t ≤ utf8Length (join sep texts) := by
  induction texts with
  | nil => nomatch h
  | cons u texts ih =>
    cases texts with
    | nil =>
      obtain rfl := List.mem_singleton.mp h
      exact le_rfl
    | cons v texts =>
      rw [join, utf8Length_append, utf8Length_append]
      · rcases List.mem_cons.mp h with rfl | h
        · omega
        · have hle := ih h
          omega
      · exact List.cons_ne_nil _ _

theorem jsonMembers_eq (style : JsonStyle) (d : Dict) :
    jsonMembers style d = d.map fun e => (e.1, jsonDumps style e.2) := by
  induction d with
  | nil => rfl
  | cons e d ih =>
    rw [jsonMembers, ih, List.map_cons]

theorem jsonItems_eq (style : JsonStyle) (xs : List Value) :
    jsonItems style xs = xs.map (jsonDumps style) := by
  induction xs with
  | nil => rfl
  | cons x xs ih => rw [jsonItems, ih, List.map_cons]

/-- The text of a mapping from the texts of its members. -/
theorem jsonDumps_dict (d : Dict) : jsonDumps plainJson (.dict d) =
    "\x7b" ++ join ", " (d.map fun e => jsonText false e.1 ++ ": " ++ jsonDumps plainJson e.2) ++
      "\x7d" := by
  rw [jsonDumps]
  simp only [plainJson, Bool.false_eq_true, if_false]
  rw [jsonMembers_eq, List.map_map]
  rfl

theorem encodedSize_dict_le (d : Dict) : encodedSize (.dict d) ≤
    2 + (d.map fun e => encodedSize (.str e.1) + encodedSize e.2 + 4).sum := by
  have hopen : utf8Length "\x7b" = 1 := by decide
  have hclose : utf8Length "\x7d" = 1 := by decide
  have hcolon : utf8Length ": " = 2 := by decide
  have hjoin := utf8Length_join_le
    (d.map fun e => jsonText false e.1 ++ ": " ++ jsonDumps plainJson e.2)
  rw [List.map_map] at hjoin
  have hmembers : (d.map ((fun t => utf8Length t + 2) ∘
      fun e => jsonText false e.1 ++ ": " ++ jsonDumps plainJson e.2)) =
      d.map fun e => encodedSize (.str e.1) + encodedSize e.2 + 4 := by
    refine List.map_congr_left fun e _ => ?_
    simp only [Function.comp_apply, utf8Length_append, hcolon, encodedSize]
    rw [jsonDumps]
    simp only [plainJson]
    omega
  rw [hmembers] at hjoin
  unfold encodedSize at hjoin ⊢
  rw [jsonDumps_dict, utf8Length_append, utf8Length_append, hopen, hclose]
  omega

theorem encodedSize_dict_pos (d : Dict) : 0 < encodedSize (.dict d) := by
  have hopen : utf8Length "\x7b" = 1 := by decide
  unfold encodedSize
  rw [jsonDumps_dict, utf8Length_append, utf8Length_append, hopen]
  omega

theorem encodedSize_member {d : Dict} {e : String × Value} (h : e ∈ d) :
    encodedSize e.2 ≤ encodedSize (.dict d) := by
  have hjoin := utf8Length_join_ge (List.mem_map_of_mem
    (f := fun e : String × Value => jsonText false e.1 ++ ": " ++ jsonDumps plainJson e.2) h) ", "
  unfold encodedSize
  rw [jsonDumps_dict, utf8Length_append, utf8Length_append]
  rw [utf8Length_append] at hjoin
  omega

theorem encodedSize_key {d : Dict} {e : String × Value} (h : e ∈ d) :
    encodedSize (.str e.1) ≤ encodedSize (.dict d) := by
  have hjoin := utf8Length_join_ge (List.mem_map_of_mem
    (f := fun e : String × Value => jsonText false e.1 ++ ": " ++ jsonDumps plainJson e.2) h) ", "
  have hkey : encodedSize (.str e.1) = utf8Length (jsonText false e.1) := rfl
  unfold encodedSize at hkey ⊢
  rw [hkey, jsonDumps_dict, utf8Length_append, utf8Length_append]
  rw [utf8Length_append, utf8Length_append] at hjoin
  omega

theorem encodedSize_item {xs : List Value} {x : Value} (h : x ∈ xs) :
    encodedSize x ≤ encodedSize (.list xs) := by
  have hjoin := utf8Length_join_ge (List.mem_map_of_mem (f := jsonDumps plainJson) h) ", "
  unfold encodedSize
  rw [jsonDumps, jsonItems_eq, utf8Length_append, utf8Length_append]
  simp only [plainJson] at hjoin ⊢
  omega

theorem encodedSize_list_le (xs : List Value) :
    encodedSize (.list xs) ≤ 2 + (xs.map fun x => encodedSize x + 2).sum := by
  have hopen : utf8Length "[" = 1 := by decide
  have hclose : utf8Length "]" = 1 := by decide
  have hjoin := utf8Length_join_le (xs.map (jsonDumps plainJson))
  rw [List.map_map] at hjoin
  have htext : jsonDumps plainJson (.list xs) =
      "[" ++ join ", " (xs.map (jsonDumps plainJson)) ++ "]" := by
    rw [jsonDumps, jsonItems_eq]
    rfl
  unfold encodedSize
  rw [htext, utf8Length_append, utf8Length_append, hopen, hclose]
  have hsum : ((xs.map ((fun t => utf8Length t + 2) ∘ jsonDumps plainJson))).sum =
      (xs.map fun x => utf8Length (jsonDumps plainJson x) + 2).sum := rfl
  omega

/-! ### A bound for a value -/

mutual

/-- As many bytes as the text can have. -/
def sizeBound : Value → Nat
  | .str s => 6 * utf8Length s + 2
  | .list xs => 2 + itemsBound xs
  | .dict d => 2 + membersBound d
  | v => encodedSize v

def itemsBound : List Value → Nat
  | [] => 0
  | x :: xs => sizeBound x + 2 + itemsBound xs

def membersBound : List (String × Value) → Nat
  | [] => 0
  | e :: d => 6 * utf8Length e.1 + 2 + sizeBound e.2 + 4 + membersBound d

end

mutual

/-- **The text is no longer than its bound.** -/
theorem encodedSize_le_sizeBound : ∀ v, encodedSize v ≤ sizeBound v
  | .none | .bool _ | .int _ | .float _ => by
    rw [sizeBound]
    all_goals exact nofun
  | .str s => by
    have hsize := encodedSize_str s
    have hlength := length_le_utf8Length s
    rw [sizeBound]
    omega
  | .list xs => by
    have hitems := items_le_bound xs
    have hlist := encodedSize_list_le xs
    rw [sizeBound]
    omega
  | .dict d => by
    have hmembers := members_le_bound d
    have hdict := encodedSize_dict_le d
    rw [sizeBound]
    omega

theorem items_le_bound : ∀ xs : List Value,
    (xs.map fun x => encodedSize x + 2).sum ≤ itemsBound xs
  | [] => Nat.zero_le _
  | x :: xs => by
    have hfirst := encodedSize_le_sizeBound x
    have hrest := items_le_bound xs
    rw [List.map_cons, List.sum_cons, itemsBound]
    omega

theorem members_le_bound : ∀ d : List (String × Value),
    (d.map fun e => encodedSize (.str e.1) + encodedSize e.2 + 4).sum ≤ membersBound d
  | [] => Nat.zero_le _
  | e :: d => by
    have hkey := encodedSize_str e.1
    have hlength := length_le_utf8Length e.1
    have hfirst := encodedSize_le_sizeBound e.2
    have hrest := members_le_bound d
    rw [List.map_cons, List.sum_cons, membersBound]
    omega

end

/-! ### Texts without blanks -/

/-- Shorter parts with a shorter separator make a shorter text. -/
theorem utf8Length_join_mono {α : Type} {sep sep' : String} {f g : α → String}
    (hsep : utf8Length sep ≤ utf8Length sep') {xs : List α}
    (h : ∀ x ∈ xs, utf8Length (f x) ≤ utf8Length (g x)) :
    utf8Length (join sep (xs.map f)) ≤ utf8Length (join sep' (xs.map g)) := by
  have hstep : ∀ (sep a b : String) (texts : List String),
      join sep (a :: b :: texts) = a ++ sep ++ join sep (b :: texts) := fun _ _ _ _ => rfl
  induction xs with
  | nil => exact le_rfl
  | cons x xs ih =>
    obtain ⟨hx, hxs⟩ := List.forall_mem_cons.mp h
    cases xs with
    | nil => exact hx
    | cons y ys =>
      have hrest := ih hxs
      simp only [List.map_cons, hstep, utf8Length_append] at hrest ⊢
      omega

mutual

/-- **Without the blanks the text is no longer.** -/
theorem utf8Length_tight_le : ∀ v, utf8Length (jsonDumps (gapJson []) v) ≤ encodedSize v
  | .none | .bool _ | .int _ | .float _ | .str _ => le_rfl
  | .list xs => by
    have hjoin := @utf8Length_join_mono Value "," ", " _ _ (by decide) xs (items_tight_le xs)
    unfold encodedSize
    rw [jsonDumps, jsonDumps, jsonItems_eq, jsonItems_eq, utf8Length_append, utf8Length_append,
      utf8Length_append, utf8Length_append]
    exact Nat.add_le_add_right (Nat.add_le_add_left hjoin _) _
  | .dict d => by
    have hjoin := @utf8Length_join_mono (String × Value) "," ", "
      (fun e => jsonText false e.1 ++ ":" ++ jsonDumps (gapJson []) e.2)
      (fun e => jsonText false e.1 ++ ": " ++ jsonDumps plainJson e.2) (by decide) d fun e he => by
        have hvalue := members_tight_le d e he
        have hshort : utf8Length ":" = 1 := by decide
        have hlong : utf8Length ": " = 2 := by decide
        unfold encodedSize at hvalue
        simp only [utf8Length_append]
        omega
    have htight : jsonDumps (gapJson []) (.dict d) = "\x7b" ++
        join "," (d.map fun e => jsonText false e.1 ++ ":" ++ jsonDumps (gapJson []) e.2) ++
          "\x7d" := by
      rw [jsonDumps]
      simp only [gapJson, Bool.false_eq_true, if_false]
      rw [jsonMembers_eq, List.map_map]
      rfl
    unfold encodedSize
    rw [htight, jsonDumps_dict, utf8Length_append, utf8Length_append, utf8Length_append,
      utf8Length_append]
    omega

theorem items_tight_le : ∀ xs : List Value, ∀ x ∈ xs,
    utf8Length (jsonDumps (gapJson []) x) ≤ encodedSize x
  | [] => fun _ hx => absurd hx List.not_mem_nil
  | x :: xs => List.forall_mem_cons.mpr ⟨utf8Length_tight_le x, items_tight_le xs⟩

theorem members_tight_le : ∀ d : List (String × Value), ∀ e ∈ d,
    utf8Length (jsonDumps (gapJson []) e.2) ≤ encodedSize e.2
  | [] => fun _ he => absurd he List.not_mem_nil
  | e :: d => List.forall_mem_cons.mpr ⟨utf8Length_tight_le e.2, members_tight_le d⟩

end

end RcloneSync
