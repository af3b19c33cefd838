/-
RcloneSync/FlatRecords.lean

What the recorded result of an attempt keeps, when it is cut to its budget.

The last stage of a preview shows at most twenty members with short texts, so a mapping of texts
and small numbers with few members always fits in some stage (`exists_readBack`): what is stored
of it keeps its short texts (`ReadBack.get`).
-/
import RcloneSync.JsonSize
import RcloneSync.RestoreDrill

namespace RcloneSync

open Py

/-! ### What a preview keeps -/

/-- The last stage of a preview. -/
def lastStage : PreviewStage := ⟨64, 1, 20, 2⟩

/-- The last stage shows little of the value. -/
def ShownShort (v : Value) : Prop := encodedSize (jsonPreview lastStage 1 v) ≤ 392

theorem length_takeText_le (n : Nat) (s : String) : (takeText n s).length ≤ n := by
  rw [takeText, String.length_ofList, List.length_take]
  exact Nat.min_le_left _ _

theorem shownShort_str (s : String) : ShownShort (.str s) := by
  unfold ShownShort
  rw [jsonPreview]
  split_ifs with hshort
  · have hsize := encodedSize_str s
    have hlimit : s.length ≤ 64 := hshort
    omega
  · have hsize := encodedSize_str (takeText lastStage.stringLimit s ++ "…")
    have hlength : (takeText lastStage.stringLimit s ++ "…").length ≤ 65 := by
      have hmark : "…".length = 1 := by decide
      rw [String.length_append, hmark]
      exact Nat.succ_le_succ (length_takeText_le _ _)
    omega

theorem shownShort_bool (b : Bool) : ShownShort (.bool b) := by
  unfold ShownShort
  cases b <;> decide +kernel

theorem shownShort_none : ShownShort .none := by
  unfold ShownShort
  decide +kernel

theorem shownShort_of_size {v : Value} (hscalar : jsonPreview lastStage 1 v = v)
    (h : encodedSize v ≤ 392) : ShownShort v := by
  unfold ShownShort
  rwa [hscalar]

/-- A value that is short in a preview, and not too long for a summary. -/
structure FlatValue (v : Value) : Prop where
  wellFormed : v.wellFormed = true
  shown : ShownShort v
  sized : encodedSize v ≤ maxJobSummaryBytes

theorem flatValue_str {s : String} (h : encodedSize (.str s) ≤ maxJobSummaryBytes) :
    FlatValue (.str s) := ⟨rfl, shownShort_str s, h⟩

theorem flatValue_bool (b : Bool) : FlatValue (.bool b) := by
  refine ⟨rfl, shownShort_bool b, ?_⟩
  cases b <;> decide +kernel

/-- At most `n` members, with short names and such values. -/
structure FlatRecord (n : Nat) (d : Dict) : Prop where
  nodup : (d.map Prod.fst).Nodup
  short : ∀ e ∈ d, e.1.length ≤ 128
  few : d.length ≤ n
  values : ∀ e ∈ d, FlatValue e.2

theorem FlatRecord.wellFormed {n : Nat} {d : Dict} (h : FlatRecord n d) :
    (Value.dict d).wellFormed = true :=
  wellFormed_dict_iff.mpr ⟨fun e he => (h.values e he).wellFormed, h.nodup⟩

theorem FlatRecord.mono {m n : Nat} {d : Dict} (h : FlatRecord m d) (hmn : m ≤ n) :
    FlatRecord n d := ⟨h.nodup, h.short, h.few.trans hmn, h.values⟩

/-- A count below `10 ^ 20` takes at most eighty bytes. -/
theorem encodedSize_count {n : Nat} (h : n < 10 ^ 20) : encodedSize (.int n) ≤ 80 := by
  have hdigits : (Nat.repr n).length ≤ 20 := (Nat.length_repr_le_iff (by omega)).mpr h
  have htext : toString (n : Int) = Nat.repr n := rfl
  have hsize := @sum_utf8Size_le 4 (Nat.repr n).toList fun c _ => c.utf8Size_le_four
  rw [← utf8Length_ofList, String.ofList_toList, String.length_toList] at hsize
  unfold encodedSize
  rw [jsonDumps, htext]
  omega

/-- The members that a fold of `Dict.set` leaves. -/
theorem mem_foldl_set (f : String × Value → Value) (l : Dict) (acc : Dict) {e : String × Value}
    (h : e ∈ l.foldl (fun shown e => Dict.set shown (takeText 128 e.1) (f e)) acc) :
    e ∈ acc ∨ ∃ e' ∈ l, e = (takeText 128 e'.1, f e') := by
  induction l generalizing acc with
  | nil => exact .inl h
  | cons first l ih =>
    rcases ih _ h with h | ⟨e', he', heq⟩
    · rcases Dict.mem_of_mem_set h with rfl | h
      · exact .inr ⟨first, List.mem_cons_self, rfl⟩
      · exact .inl h
    · exact .inr ⟨e', List.mem_cons_of_mem _ he', heq⟩

theorem length_set_le (d : Dict) (key : String) (v : Value) :
    (Dict.set d key v).length ≤ d.length + 1 := by
  have hkeys := congrArg List.length (keys_set d key v)
  rw [List.length_map] at hkeys
  split_ifs at hkeys with hmem
  · rw [hkeys, List.length_map]
    exact Nat.le_succ _
  · rw [hkeys, List.length_append, List.length_map, List.length_singleton]

theorem length_foldl_set (f : String × Value → Value) (l : Dict) (acc : Dict) :
    (l.foldl (fun shown e => Dict.set shown (takeText 128 e.1) (f e)) acc).length ≤
      acc.length + l.length := by
  induction l generalizing acc with
  | nil => exact le_rfl
  | cons first l ih =>
    have htail := ih (Dict.set acc (takeText 128 first.1) (f first))
    have hset := length_set_le acc (takeText 128 first.1) (f first)
    rw [List.foldl_cons, List.length_cons]
    omega

/-- A bound for every member bounds the mapping. -/
theorem encodedSize_dict_of_members {d : Dict} {n : Nat} (hkeys : ∀ e ∈ d, e.1.length ≤ 128)
    (hvalues : ∀ e ∈ d, encodedSize e.2 ≤ n) :
    encodedSize (.dict d) ≤ 2 + d.length * (774 + n) := by
  have hsum : (d.map fun e => encodedSize (.str e.1) + encodedSize e.2 + 4).sum ≤
      d.length * (774 + n) := by
    induction d with
    | nil => exact Nat.zero_le _
    | cons e d ih =>
      obtain ⟨hshort, hkeys⟩ := List.forall_mem_cons.mp hkeys
      obtain ⟨hvalue, hvalues⟩ := List.forall_mem_cons.mp hvalues
      have hkey := encodedSize_str e.1
      have htail := ih hkeys hvalues
      rw [List.map_cons, List.sum_cons, List.length_cons, Nat.succ_mul]
      omega
  have hdict := encodedSize_dict_le d
  omega

theorem FlatRecord.set {n : Nat} {d : Dict} (h : FlatRecord n d) {key : String}
    (hkey : key.length ≤ 128) {v : Value} (hv : FlatValue v) :
    FlatRecord (n + 1) (Dict.set d key v) where
  nodup := nodup_set h.nodup key v
  short := by
    intro e he
    rcases Dict.mem_of_mem_set he with rfl | he
    · exact hkey
    · exact h.short e he
  few := (length_set_le d key v).trans (Nat.succ_le_succ h.few)
  values := by
    intro e he
    rcases Dict.mem_of_mem_set he with rfl | he
    · exact hv
    · exact h.values e he

theorem FlatRecord.erase {n : Nat} {d : Dict} (h : FlatRecord n d) (key : String) :
    FlatRecord n (Dict.erase d key) := by
  have hsub : List.Sublist (Dict.erase d key) d := List.filter_sublist
  exact ⟨(hsub.map _).nodup h.nodup, fun e he => h.short e (hsub.subset he),
    hsub.length_le.trans h.few, fun e he => h.values e (hsub.subset he)⟩

/-- The members of a preview: those that are shown of a mapping, and the two marks. -/
theorem mem_markedPreview {stage : PreviewStage} (hdepth : 0 < stage.depth) {d : Dict} {size : Nat}
    {e : String × Value} (he : e ∈ markedPreview stage (.dict d) size) :
    e.1.length ≤ 128 ∧ (e.2 = .int size ∨ e.2 = .bool true ∨
      ∃ e' ∈ d.take stage.dictLimit, e.2 = jsonPreview stage (stage.depth - 1) e'.2) := by
  unfold markedPreview at he
  rw [(Nat.sub_add_cancel hdepth).symm, jsonPreview] at he
  dsimp only at he
  rcases Dict.mem_of_mem_set he with rfl | he
  · have hname : "original_bytes".length ≤ 128 := by decide
    exact ⟨hname, .inl rfl⟩
  rcases Dict.mem_of_mem_set he with rfl | he
  · exact ⟨by decide, .inr (.inl rfl)⟩
  rcases mem_foldl_set (fun e => jsonPreview stage (stage.depth - 1) e.2) _ _ he with
    he | ⟨e', he', rfl⟩
  · cases he
  · exact ⟨length_takeText_le _ _, .inr (.inr ⟨e', he', rfl⟩)⟩

theorem length_markedPreview_le {stage : PreviewStage} (hdepth : 0 < stage.depth) (d : Dict)
    (size : Nat) :
    (markedPreview stage (.dict d) size).length ≤ (d.take stage.dictLimit).length + 2 := by
  have hpreview : markedPreview stage (.dict d) size = Dict.set (Dict.set
      ((d.take stage.dictLimit).foldl (fun shown e =>
        Dict.set shown (takeText 128 e.1) (jsonPreview stage (stage.depth - 1) e.2)) [])
      "truncated" (.bool true)) "original_bytes" (.int size) := by
    unfold markedPreview
    rw [(Nat.sub_add_cancel hdepth).symm, jsonPreview]
    rfl
  have hfold := length_foldl_set (fun e => jsonPreview stage (stage.depth - 1) e.2)
    (d.take stage.dictLimit) []
  rw [List.length_nil, Nat.zero_add] at hfold
  rw [hpreview]
  exact (length_set_le _ _ _).trans (Nat.succ_le_succ ((length_set_le _ _ _).trans
    (Nat.succ_le_succ hfold)))

/-- The preview of the last stage fits into the budget of a result. -/
theorem lastStage_fits {d : Dict} (hshown : ∀ e ∈ d, ShownShort e.2) {size : Nat}
    (hsize : size < 10 ^ 20) :
    encodedSize (.dict (markedPreview lastStage (.dict d) size)) ≤ maxPairResultBytes := by
  have hdepth : 0 < lastStage.depth := by decide
  have hvalues : ∀ e ∈ markedPreview lastStage (.dict d) size, encodedSize e.2 ≤ 392 := by
    intro e he
    rcases (mem_markedPreview hdepth he).2 with heq | heq | ⟨e', he', heq⟩
    · rw [heq]
      exact (encodedSize_count hsize).trans (by omega)
    · rw [heq]
      decide +kernel
    · rw [heq]
      exact hshown e' (List.mem_of_mem_take he')
  have hlength : (markedPreview lastStage (.dict d) size).length ≤ 22 := by
    have htake : (d.take lastStage.dictLimit).length ≤ 20 := List.length_take_le _ _
    exact (length_markedPreview_le hdepth d size).trans (Nat.add_le_add_right htake 2)
  have hall := encodedSize_dict_of_members (fun e he => (mem_markedPreview hdepth he).1) hvalues
  have hbudget : maxPairResultBytes = 32768 := rfl
  have hmul := Nat.mul_le_mul_right (774 + 392) hlength
  omega

/-- What is read back of a record: the record, or a preview of it. -/
inductive ReadBack (d : Dict) : Dict → Prop
  | whole : ReadBack d d
  | preview {stage : PreviewStage} {size : Nat} (hstage : stage ∈ previewStages)
      (hsize : size < 10 ^ 20) : ReadBack d (markedPreview stage (.dict d) size)

section ReadBack

variable {n : Nat} {d x : Dict}

theorem exists_readBack (h : FlatRecord n d) (hn : n ≤ 20) :
    ∃ x, jsonLoads (jsonDumpsBounded (.dict d) maxPairResultBytes) = some (.dict x) ∧
      ReadBack d x := by
  by_cases hfits : encodedSize (.dict d) ≤ maxPairResultBytes
  · exact ⟨d, jsonLoads_bounded_fits h.wellFormed hfits, .whole⟩
  have hsize : encodedSize (.dict d) < 10 ^ 20 := by
    have hall := encodedSize_dict_of_members h.short fun e he => (h.values e he).sized
    have hbudget : maxJobSummaryBytes = 262144 := rfl
    have hmul := Nat.mul_le_mul_right (774 + maxJobSummaryBytes) (h.few.trans hn)
    omega
  have hlast : (previewStages.find? fun stage => decide (encodedSize (.dict
      (markedPreview stage (.dict d) (encodedSize (.dict d)))) ≤ maxPairResultBytes)).isSome := by
    rw [List.find?_isSome]
    exact ⟨lastStage, by decide,
      decide_eq_true (lastStage_fits (fun e he => (h.values e he).shown) hsize)⟩
  obtain ⟨stage, hstage⟩ := Option.isSome_iff_exists.mp hlast
  have hcut : cutValue (.dict d) maxPairResultBytes
      = markedPreview stage (.dict d) (encodedSize (.dict d)) := by
    unfold cutValue
    dsimp only
    rw [hstage]
  refine ⟨_, jsonLoads_bounded_exceeds h.wellFormed (not_le.mp hfits), ?_⟩
  rw [hcut]
  exact .preview (List.mem_of_find?_eq_some hstage) hsize

/-- **Short texts are read back.** -/
theorem ReadBack.get (hread : ReadBack d x) (h : FlatRecord n d) (hn : n ≤ 20) {key s : String}
    (hkey : key ∉ previewMarks) (hget : d.get key = .str s) (hshort : s.length ≤ 64) :
    x.get key = .str s := by
  cases hread with
  | whole => exact hget
  | @preview stage size hstage hsize =>
    have hlimits : ∀ stage ∈ previewStages, 0 < stage.depth ∧ 20 ≤ stage.dictLimit ∧
        64 ≤ stage.stringLimit := by decide
    obtain ⟨hdepth, hmembers, htexts⟩ := hlimits stage hstage
    have hmem : key ∈ (d.map Prod.fst).take stage.dictLimit := by
      rw [List.take_of_length_le]
      · by_contra hnot
        rw [Dict.get_of_notMem hnot] at hget
        nomatch hget
      · rw [List.length_map]
        exact (h.few.trans hn).trans hmembers
    rw [get_markedPreview h.nodup h.short (Nat.sub_add_cancel hdepth).symm _ hkey, if_pos hmem,
      hget, jsonPreview, if_pos (hshort.trans htexts)]

/-- A text or a flag. -/
def isPlain : Value → Bool
  | .str _ => true
  | .bool _ => true
  | _ => false

theorem flatValue_preview {stage : PreviewStage} (hstage : stage ∈ previewStages) (depth : Nat)
    {v : Value} (hplain : isPlain v = true) (hv : FlatValue v) :
    FlatValue (jsonPreview stage depth v) := by
  cases v with
  | bool b =>
    rw [jsonPreview]
    exact hv
  | str s =>
    rw [jsonPreview]
    split_ifs
    · exact hv
    · have hlimit : ∀ stage ∈ previewStages, stage.stringLimit ≤ 4096 := by decide
      have hlength : (takeText stage.stringLimit s ++ "…").length ≤ 4097 := by
        rw [String.length_append]
        exact Nat.succ_le_succ ((length_takeText_le _ _).trans (hlimit stage hstage))
      have hsize := encodedSize_str (takeText stage.stringLimit s ++ "…")
      have hbudget : maxJobSummaryBytes = 262144 := rfl
      exact flatValue_str (by omega)
  | _ => cases hplain

/-- A record of texts and flags is read back as a flat one. -/
theorem ReadBack.flat (hread : ReadBack d x) (h : FlatRecord n d)
    (hplain : ∀ e ∈ d, isPlain e.2 = true) : FlatRecord (n + 2) x := by
  cases hread with
  | whole => exact h.mono (Nat.le_add_right n 2)
  | @preview stage size hstage hsize =>
    have hdepths : ∀ stage ∈ previewStages, 0 < stage.depth := by decide
    have hdepth := hdepths stage hstage
    have htake : (d.take stage.dictLimit).length ≤ n :=
      (List.take_sublist _ _).length_le.trans h.few
    refine ⟨(wellFormed_dict_iff.mp (markedPreview_wellFormed stage h.wellFormed size)).2,
      fun e he => (mem_markedPreview hdepth he).1,
      (length_markedPreview_le hdepth d size).trans (Nat.add_le_add_right htake 2), ?_⟩
    intro e he
    rcases (mem_markedPreview hdepth he).2 with heq | heq | ⟨e', he', heq⟩
    · rw [heq]
      have hcount := encodedSize_count hsize
      have hbudget : maxJobSummaryBytes = 262144 := rfl
      exact ⟨rfl, shownShort_of_size rfl (by omega), by omega⟩
    · rw [heq]
      exact flatValue_bool true
    · rw [heq]
      have he' := List.mem_of_mem_take he'
      exact flatValue_preview hstage _ (hplain e' he') (h.values e' he')

end ReadBack

end RcloneSync
