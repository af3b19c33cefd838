/-
RcloneSync/BoundedJson.lean

JSON text under a byte budget (`_json_dumps_bounded` of the database module).

A value whose text fits is written as it is.  Otherwise a preview of it is written:
strings, lists and mappings are cut at the limits of a stage, values below its depth
become text, and two members say that something was cut and how long the text would
have been.  The stages are tried from the widest to the narrowest; when none fits, only
the two members remain.

Main results: a text that fits is the whole text (`jsonDumpsBounded_of_fits`), a text
that does not is that of a marked preview (`jsonDumpsBounded_of_exceeds`), and either
is read back as what it was written from (`jsonLoads_bounded_fits`,
`jsonLoads_bounded_exceeds`); with room for the two members the budget is kept
(`jsonDumpsBounded_within`).
-/
import RcloneSync.JsonRoundTrip

namespace RcloneSync

open Py

/-- The limits of one stage. -/
structure PreviewStage where
  stringLimit : Nat
  listLimit : Nat
  dictLimit : Nat
  depth : Nat
  deriving DecidableEq, Repr

/-- `stages`. -/
def previewStages : List PreviewStage :=
  [⟨4096, 100, 100, 5⟩, ⟨1024, 25, 75, 4⟩, ⟨256, 5, 40, 3⟩, ⟨64, 1, 20, 2⟩]

/-- `_json_preview`; lists and mappings at depth zero are shown as text. -/
def jsonPreview (stage : PreviewStage) : Nat → Value → Value
  | _, .str s =>
    if s.length ≤ stage.stringLimit then .str s
    else .str (takeText stage.stringLimit s ++ "…")
  | _, .none => .none
  | _, .bool b => .bool b
  | _, .int n => .int n
  | _, .float x => .float x
  | 0, v => .str (takeText stage.stringLimit (pyStr v))
  | depth + 1, .dict entries =>
    .dict ((entries.take stage.dictLimit).foldl
      (fun shown e => Dict.set shown (takeText 128 e.1) (jsonPreview stage depth e.2)) [])
  | depth + 1, .list xs => .list ((xs.take stage.listLimit).map (jsonPreview stage depth))

/-- The preview of a stage with the two members that mark it as cut. -/
def markedPreview (stage : PreviewStage) (v : Value) (rawSize : Nat) : Dict :=
  match jsonPreview stage stage.depth v with
  | .dict shown =>
    Dict.set (Dict.set shown "truncated" (.bool true)) "original_bytes" (.int rawSize)
  | shown => [("truncated", .bool true), ("original_bytes", .int rawSize), ("preview", shown)]

/-- What remains when no stage fits. -/
def barePreview (rawSize : Nat) : Dict :=
  [("truncated", .bool true), ("original_bytes", .int rawSize)]

/-- The text length that the budget is compared with. -/
def encodedSize (v : Value) : Nat := utf8Length (jsonDumps plainJson v)

/-- The object written in place of a value that is too long. -/
def cutValue (v : Value) (maxBytes : Nat) : Dict :=
  let rawSize := encodedSize v
  match previewStages.find? fun stage =>
      encodedSize (.dict (markedPreview stage v rawSize)) ≤ maxBytes with
  | some stage => markedPreview stage v rawSize
  | none => barePreview rawSize

/-- `_json_dumps_bounded`. -/
def jsonDumpsBounded (v : Value) (maxBytes : Nat) : String :=
  if encodedSize v ≤ maxBytes then jsonDumps plainJson v
  else jsonDumps plainJson (.dict (cutValue v maxBytes))

theorem jsonDumpsBounded_of_fits {v : Value} {maxBytes : Nat} (h : encodedSize v ≤ maxBytes) :
    jsonDumpsBounded v maxBytes = jsonDumps plainJson v := by
  unfold jsonDumpsBounded
  rw [if_pos h]

theorem jsonDumpsBounded_of_exceeds {v : Value} {maxBytes : Nat}
    (h : maxBytes < encodedSize v) :
    jsonDumpsBounded v maxBytes = jsonDumps plainJson (.dict (cutValue v maxBytes)) := by
  unfold jsonDumpsBounded
  rw [if_neg (by omega)]

/-- What is written for a value that is too long is one of the marked previews. -/
theorem cutValue_cases (v : Value) (maxBytes : Nat) :
    (∃ stage ∈ previewStages, cutValue v maxBytes = markedPreview stage v (encodedSize v)) ∨
      cutValue v maxBytes = barePreview (encodedSize v) := by
  simp only [cutValue]
  split
  · rename_i stage hstage
    exact Or.inl ⟨stage, List.mem_of_find?_eq_some hstage, rfl⟩
  · exact Or.inr rfl

/-! ### Previews are well formed -/

theorem wellFormedItems_iff {xs : List Value} :
    wellFormedItems xs = true ↔ ∀ x ∈ xs, x.wellFormed = true := by
  induction xs with
  | nil => simp [wellFormedItems]
  | cons x xs ih => simp [wellFormedItems, ih]

theorem wellFormedEntries_iff {entries : Dict} :
    wellFormedEntries entries = true ↔ ∀ e ∈ entries, e.2.wellFormed = true := by
  induction entries with
  | nil => simp [wellFormedEntries]
  | cons e entries ih =>
    obtain ⟨k, x⟩ := e
    simp [wellFormedEntries, ih]

/-- What a mapping needs to be well formed. -/
theorem wellFormed_dict_iff {d : Dict} :
    (Value.dict d).wellFormed = true ↔
      (∀ e ∈ d, e.2.wellFormed = true) ∧ (d.map Prod.fst).Nodup := by
  rw [← wellFormedEntries_iff, Value.wellFormed, Bool.and_eq_true, decide_eq_true_eq]

theorem keys_set (d : Dict) (key : String) (v : Value) :
    (Dict.set d key v).map Prod.fst
      = if key ∈ d.map Prod.fst then d.map Prod.fst else d.map Prod.fst ++ [key] := by
  induction d with
  | nil => rfl
  | cons e d ih =>
    obtain ⟨k, w⟩ := e
    by_cases hk : k = key
    · subst hk
      simp [Dict.set]
    · have hk' : ¬ key = k := fun h => hk h.symm
      simp only [Dict.set, if_neg hk, List.map_cons, List.mem_cons, hk', false_or, ih]
      split <;> rfl

theorem nodup_set {d : Dict} (h : (d.map Prod.fst).Nodup) (key : String) (v : Value) :
    ((Dict.set d key v).map Prod.fst).Nodup := by
  rw [keys_set]
  split_ifs with hkey
  · exact h
  · refine List.nodup_append.mpr ⟨h, by simp, ?_⟩
    rintro a ha b hb rfl
    exact hkey (List.mem_singleton.mp hb ▸ ha)

theorem wellFormed_set {d : Dict} {key : String} {v : Value}
    (hd : (Value.dict d).wellFormed = true) (hv : v.wellFormed = true) :
    (Value.dict (Dict.set d key v)).wellFormed = true := by
  rw [wellFormed_dict_iff] at hd ⊢
  refine ⟨fun e he => ?_, ?_⟩
  · rcases Dict.mem_of_mem_set he with rfl | he
    · exact hv
    · exact hd.1 e he
  · exact nodup_set hd.2 key v

theorem wellFormed_foldl_set {α : Type} (f : α → String) (g : α → Value) {xs : List α}
    (hg : ∀ x ∈ xs, (g x).wellFormed = true) {d : Dict}
    (hd : (Value.dict d).wellFormed = true) :
    (Value.dict (xs.foldl (fun d x => Dict.set d (f x) (g x)) d)).wellFormed = true := by
  induction xs generalizing d with
  | nil => exact hd
  | cons x xs ih =>
    exact ih (fun y hy => hg y (List.mem_cons_of_mem _ hy)) (wellFormed_set hd (hg x (by simp)))

theorem jsonPreview_wellFormed (stage : PreviewStage) (depth : Nat) {v : Value}
    (hv : v.wellFormed = true) : (jsonPreview stage depth v).wellFormed = true := by
  induction depth generalizing v with
  | zero =>
    cases v with
    | str s =>
      simp only [jsonPreview]
      split <;> rfl
    | float x => exact hv
    | _ => rfl
  | succ depth ih =>
    cases v with
    | str s =>
      simp only [jsonPreview]
      split <;> rfl
    | float x => exact hv
    | list xs =>
      refine wellFormedItems_iff.mpr fun y hy => ?_
      obtain ⟨x, hx, rfl⟩ := List.mem_map.mp hy
      exact ih (wellFormedItems_iff.mp hv x (List.mem_of_mem_take hx))
    | dict d =>
      refine wellFormed_foldl_set (fun e : String × Value => takeText 128 e.1)
        (fun e => jsonPreview stage depth e.2) (fun e he => ?_) (d := []) rfl
      exact ih ((wellFormed_dict_iff.mp hv).1 e (List.mem_of_mem_take he))
    | _ => rfl

theorem markedPreview_wellFormed (stage : PreviewStage) {v : Value}
    (hv : v.wellFormed = true) (rawSize : Nat) :
    (Value.dict (markedPreview stage v rawSize)).wellFormed = true := by
  have hshown := jsonPreview_wellFormed stage stage.depth hv
  unfold markedPreview
  split
  · rename_i shown h
    rw [h] at hshown
    exact wellFormed_set (wellFormed_set hshown rfl) rfl
  · rename_i shown _
    rw [wellFormed_dict_iff]
    refine ⟨fun e he => ?_, by simp⟩
    simp only [List.mem_cons, List.not_mem_nil, or_false] at he
    rcases he with rfl | rfl | rfl
    · rfl
    · rfl
    · exact hshown

theorem cutValue_wellFormed {v : Value} (hv : v.wellFormed = true) (maxBytes : Nat) :
    (Value.dict (cutValue v maxBytes)).wellFormed = true := by
  rcases cutValue_cases v maxBytes with ⟨stage, _, h⟩ | h
  · rw [h]
    exact markedPreview_wellFormed stage hv _
  · rw [h, wellFormed_dict_iff]
    exact ⟨by simp [barePreview, Value.wellFormed], by simp [barePreview]⟩

/-! ### Reading bounded text back -/

/-- **A value that fits survives.** -/
theorem jsonLoads_bounded_fits {v : Value} (hv : v.wellFormed = true) {maxBytes : Nat}
    (h : encodedSize v ≤ maxBytes) : jsonLoads (jsonDumpsBounded v maxBytes) = some v := by
  rw [jsonDumpsBounded_of_fits h]
  exact jsonLoads_jsonDumps hv

/-- **A value that does not fit comes back as a marked preview.** -/
theorem jsonLoads_bounded_exceeds {v : Value} (hv : v.wellFormed = true) {maxBytes : Nat}
    (h : maxBytes < encodedSize v) :
    jsonLoads (jsonDumpsBounded v maxBytes) = some (.dict (cutValue v maxBytes)) := by
  rw [jsonDumpsBounded_of_exceeds h]
  exact jsonLoads_jsonDumps (cutValue_wellFormed hv maxBytes)

/-! ### The budget -/

/-- The two marks are the last members written, whatever the value itself calls so. -/
theorem markedPreview_marks (stage : PreviewStage) (v : Value) (rawSize : Nat) :
    Dict.get (markedPreview stage v rawSize) "truncated" = .bool true ∧
      Dict.get (markedPreview stage v rawSize) "original_bytes" = .int rawSize := by
  have hne : "truncated" ≠ "original_bytes" := by decide
  unfold markedPreview
  split
  · rename_i shown _
    refine ⟨?_, Dict.get_set_self _ _ _⟩
    rw [Dict.get_set_ne _ _ hne, Dict.get_set_self]
  · exact ⟨rfl, rfl⟩

theorem cutValue_marks (v : Value) (maxBytes : Nat) :
    Dict.get (cutValue v maxBytes) "truncated" = .bool true ∧
      Dict.get (cutValue v maxBytes) "original_bytes" = .int (encodedSize v) := by
  rcases cutValue_cases v maxBytes with ⟨stage, _, h⟩ | h
  · rw [h]
    exact markedPreview_marks stage v _
  · rw [h]
    exact ⟨rfl, rfl⟩

/-- A stage is only taken when its text fits, so the limit can only be missed by the two
marks alone. -/
theorem encodedSize_cutValue_le {v : Value} {maxBytes : Nat}
    (hbare : encodedSize (.dict (barePreview (encodedSize v))) ≤ maxBytes) :
    encodedSize (.dict (cutValue v maxBytes)) ≤ maxBytes := by
  simp only [cutValue]
  split
  · rename_i stage hstage
    have hfits := List.find?_some hstage
    exact of_decide_eq_true hfits
  · exact hbare

/-- **The text keeps its budget and says so when it was cut**: with room for the two marks
it never exceeds the limit, it is the whole text whenever that fits, and otherwise it is
read back as a mapping that is marked as cut and tells the bytes of the whole text. -/
theorem jsonDumpsBounded_within {v : Value} (hv : v.wellFormed = true) {maxBytes : Nat}
    (hbare : encodedSize (.dict (barePreview (encodedSize v))) ≤ maxBytes) :
    utf8Length (jsonDumpsBounded v maxBytes) ≤ maxBytes ∧
      (encodedSize v ≤ maxBytes → jsonDumpsBounded v maxBytes = jsonDumps plainJson v) ∧
      (maxBytes < encodedSize v →
        ∃ shown : Dict, jsonLoads (jsonDumpsBounded v maxBytes) = some (.dict shown) ∧
          shown.get "truncated" = .bool true ∧
          shown.get "original_bytes" = .int (encodedSize v)) := by
  refine ⟨?_, jsonDumpsBounded_of_fits, fun hexceeds => ?_⟩
  · by_cases hfits : encodedSize v ≤ maxBytes
    · rw [jsonDumpsBounded_of_fits hfits]
      exact hfits
    · rw [jsonDumpsBounded_of_exceeds (not_le.mp hfits)]
      exact encodedSize_cutValue_le hbare
  · obtain ⟨htruncated, hbytes⟩ := cutValue_marks v maxBytes
    exact ⟨cutValue v maxBytes, jsonLoads_bounded_exceeds hv hexceeds, htruncated, hbytes⟩

/-- A list of ninety bytes under a limit of sixty. -/
theorem jsonDumpsBounded_within_sixty :
    let v : Value := .list (List.replicate 30 (.int 7))
    utf8Length (jsonDumpsBounded v 60) ≤ 60 ∧
      (encodedSize v ≤ 60 → jsonDumpsBounded v 60 = jsonDumps plainJson v) ∧
      (60 < encodedSize v →
        ∃ shown : Dict, jsonLoads (jsonDumpsBounded v 60) = some (.dict shown) ∧
          shown.get "truncated" = .bool true ∧
          shown.get "original_bytes" = .int (encodedSize v)) :=
  jsonDumpsBounded_within (by decide +kernel) (by decide +kernel)

example : jsonDumpsBounded (.list [.str "abc", .int 7]) 60 = "[\"abc\", 7]" := by
  decide +kernel

end RcloneSync
