/-
RcloneSync/RestoreSelection.lean

The files chosen for a recovery, from the request to the lines that rclone reads
(`normalize_selection`, `selection.txt`).

A chosen path is rewritten before it is looked for: backslashes become slashes, white space and
slashes at its ends are removed, and so are empty and `.` parts.  What remains is a relative path
of names (`cleanSelected_clean`) that stands on one line of the listing file, so rclone reads back
what was written (`readFilesFrom_listing`).
-/
import RcloneSync.HiddenPaths

namespace RcloneSync

open Py

/-! ### `normalize_selection` -/

/-- `_MAX_ITEMS`. -/
def maxSelectionItems : Nat := 100

/-- The characters that a selected path must not contain. -/
def isRefusedChar (c : Char) : Bool := c = '\x00' || c = '\r' || c = '\n'

/-- A pass of the loop. -/
def cleanSelected (raw : String) : Except PyError String :=
  let original := strip (replace "\\" "/" raw)
  if startsWith original "/" then .error (.value "Auswahl enthält einen absoluten Pfad")
  else
    let value := lstripOf (· = '/') (rstripOf (· = '/') original)
    let candidate := parsePath value
    if value = "" ∨ 1024 < value.length ∨ candidate.root ≠ "" ∨ ".." ∈ candidate.parts ∨
        "" ∈ candidate.parts ∨ "." ∈ candidate.parts ∨ value.toList.any isRefusedChar = true then
      .error (.value "Auswahl enthält einen unsicheren relativen Pfad")
    else .ok candidate.text

def normalizeSelection (paths : List String) : Except PyError (List String) :=
  if paths = [] ∨ maxSelectionItems < paths.length then
    .error (.value "Es müssen 1 bis 100 Einträge ausgewählt werden")
  else (paths.mapM cleanSelected).map firstOccurrences

/-- `selection.txt`. -/
def listingText (selection : List String) : String := join "\n" selection ++ "\n"

/-- What `--files-from-raw` reads: the lines, without a carriage return at their ends. -/
def readFilesFrom (text : String) : List String :=
  let lines := splitOn '\n' text
  (if lines.getLast? = some "" then lines.dropLast else lines).map fun line =>
    if endsWith line "\r" then takeText (line.length - 1) line else line

/-! ### The parts of a path -/

/-- The parts of a selected path. -/
def partsOf (path : String) : List String := (parsePath path).parts

theorem pathRoot_name {cs : List Char} (h : cs.head? ≠ some '/') : pathRoot cs = "" := by
  unfold pathRoot
  split
  · exact absurd rfl h
  · exact absurd rfl h
  · exact absurd rfl h
  · rfl

/-- A text of names does not begin with a slash. -/
theorem head_join_names {parts : List String} (h : ∀ n ∈ parts, IsName n) (hne : parts ≠ []) :
    (join "/" parts).toList.head? ≠ some '/' := by
  have hfirst : ∀ {n : String} (rest : List Char), IsName n →
      (n.toList ++ rest).head? ≠ some '/' := by
    intro n rest hn hslash
    cases hcs : n.toList with
    | nil => exact hn.nonempty (String.toList_inj.mp hcs)
    | cons c cs =>
      rw [hcs, List.cons_append, List.head?_cons, Option.some.injEq] at hslash
      exact hn.slash (by rw [hcs, hslash]; exact List.mem_cons_self)
  match parts, hne with
  | [n], _ =>
    have hn := hfirst [] (h n List.mem_cons_self)
    rwa [List.append_nil] at hn
  | n :: m :: rest, _ =>
    rw [join_toList, List.append_assoc]
    exact hfirst _ (h n List.mem_cons_self)

/-- A text of names is read back. -/
theorem parsePath_text {parts : List String} (h : ∀ n ∈ parts, IsName n) :
    parsePath (PosixPath.mk "" parts).text = ⟨"", parts⟩ := by
  by_cases hnone : parts = []
  · subst hnone
    decide
  · have htext : (PosixPath.mk "" parts).text = join "/" parts := by
      unfold PosixPath.text
      rw [if_neg (fun hboth => hnone hboth.2), String.empty_append]
    unfold parsePath
    rw [htext, pathRoot_name (head_join_names h hnone), splitOn_join_names h hnone,
      PosixPath.mk.injEq]
    refine ⟨rfl, List.filter_eq_self.mpr fun n hn => ?_⟩
    simp [(h n hn).nonempty, (h n hn).dot]

theorem mem_splitOnAux {sep c : Char} {cs part piece : List Char}
    (h : piece ∈ splitOnAux sep cs part) (hc : c ∈ piece) : c ∈ cs ∨ c ∈ part := by
  induction cs generalizing part with
  | nil =>
    obtain rfl := List.mem_singleton.mp h
    exact .inr (List.mem_reverse.mp hc)
  | cons d cs ih =>
    rw [splitOnAux] at h
    split_ifs at h with hsep
    · rcases List.mem_cons.mp h with rfl | h
      · exact .inr (List.mem_reverse.mp hc)
      · rcases ih h with hrest | hnone
        · exact .inl (List.mem_cons_of_mem _ hrest)
        · cases hnone
    · rcases ih h with hrest | hpart
      · exact .inl (List.mem_cons_of_mem _ hrest)
      · rcases List.mem_cons.mp hpart with rfl | hpart
        · exact .inl List.mem_cons_self
        · exact .inr hpart

/-- The characters of a part are those of the text. -/
theorem mem_of_splitOn {sep c : Char} {s part : String} (h : part ∈ splitOn sep s)
    (hc : c ∈ part.toList) : c ∈ s.toList := by
  obtain ⟨piece, hpiece, rfl⟩ := List.mem_map.mp h
  rw [String.toList_ofList] at hc
  exact (mem_splitOnAux hpiece hc).resolve_right List.not_mem_nil

theorem mem_join {sep : String} {parts : List String} {c : Char}
    (h : c ∈ (join sep parts).toList) : c ∈ sep.toList ∨ ∃ part ∈ parts, c ∈ part.toList := by
  match parts with
  | [] => exact absurd h List.not_mem_nil
  | [part] => exact .inr ⟨part, List.mem_cons_self, h⟩
  | part :: next :: rest =>
    rw [join_toList] at h
    rcases List.mem_append.mp h with hfirst | hrest
    · rcases List.mem_append.mp hfirst with hpart | hsep
      · exact .inr ⟨part, List.mem_cons_self, hpart⟩
      · exact .inl hsep
    · rcases mem_join hrest with hsep | ⟨other, hother, hc⟩
      · exact .inl hsep
      · exact .inr ⟨other, List.mem_cons_of_mem _ hother, hc⟩

/-- What is looked for. -/
structure CleanPath (path : String) : Prop where
  text : path = (PosixPath.mk "" (partsOf path)).text
  names : ∀ n ∈ partsOf path, IsName n
  plain : ∀ c ∈ path.toList, isRefusedChar c = false

/-- **What is looked for is a relative path of names**, without line ends. -/
theorem cleanSelected_clean {raw path : String} (h : cleanSelected raw = .ok path) :
    CleanPath path := by
  unfold cleanSelected at h
  dsimp only at h
  split_ifs at h with habsolute hunsafe
  generalize lstripOf (· = '/') (rstripOf (· = '/') (strip (replace "\\" "/" raw))) = value
    at h hunsafe
  simp only [not_or] at hunsafe
  obtain ⟨-, -, hroot, hdotdot, -, -, hchars⟩ := hunsafe
  obtain rfl := Except.ok.inj h
  have hnames : ∀ n ∈ (parsePath value).parts, IsName n := by
    intro n hn
    obtain ⟨hsplit, hkept⟩ := List.mem_filter.mp hn
    simp only [ne_eq, Bool.and_eq_true, decide_eq_true_eq] at hkept
    exact ⟨hkept.1, hkept.2, fun heq => hdotdot (heq ▸ hn), notMem_splitOn hsplit⟩
  have hmk : parsePath value = ⟨"", (parsePath value).parts⟩ := by
    rw [← not_not.mp hroot]
  have hparts : partsOf (parsePath value).text = (parsePath value).parts := by
    rw [hmk]
    exact congrArg PosixPath.parts (parsePath_text hnames)
  refine ⟨?_, ?_, fun c hc => ?_⟩
  · rw [hparts, ← hmk]
  · rw [hparts]
    exact hnames
  · rw [hmk] at hc
    unfold PosixPath.text at hc
    split_ifs at hc
    · obtain rfl := List.mem_singleton.mp hc
      decide
    · rw [String.empty_append] at hc
      rcases mem_join hc with hslash | ⟨part, hpart, hc⟩
      · obtain rfl := List.mem_singleton.mp hslash
        decide
      · have hvalue := mem_of_splitOn (List.mem_filter.mp hpart).1 hc
        rw [← Bool.not_eq_true]
        exact fun htrue => hchars (List.any_eq_true.mpr ⟨c, hvalue, htrue⟩)

theorem partsOf_inj {p q : String} (hp : CleanPath p) (hq : CleanPath q)
    (h : partsOf p = partsOf q) : p = q := by
  rw [hp.text, hq.text, h]

/-! ### The selection -/

/-- What a selection is, once it is accepted. -/
theorem normalizeSelection_spec {paths selection : List String}
    (h : normalizeSelection paths = .ok selection) :
    selection ≠ [] ∧ selection.Nodup ∧ ∀ p ∈ selection, CleanPath p := by
  unfold normalizeSelection at h
  split_ifs at h with hcount
  obtain ⟨clean, hclean, rfl⟩ := except_map_ok h
  obtain ⟨hne, -⟩ := not_or.mp hcount
  refine ⟨fun hnone => ?_, nodup_firstOccurrences clean, fun p hp => ?_⟩
  · have hlength := (mapM_ok_iff.mp hclean).length_eq
    cases clean with
    | nil => exact hne (List.length_eq_zero_iff.mp hlength)
    | cons y rest =>
      exact List.not_mem_nil (hnone ▸ mem_firstOccurrences.mpr (@List.mem_cons_self _ y rest))
  · obtain ⟨raw, -, hraw⟩ := exists_of_mapM hclean (mem_firstOccurrences.mp hp)
    exact cleanSelected_clean hraw

/-- **rclone reads back the selection that was written.** -/
theorem readFilesFrom_listing {selection : List String} (hne : selection ≠ [])
    (h : ∀ p ∈ selection, CleanPath p) : readFilesFrom (listingText selection) = selection := by
  have hplain : ∀ p ∈ selection, '\n' ∉ p.toList ∧ '\r' ∉ p.toList := by
    intro p hp
    constructor
    · exact fun hc => absurd ((h p hp).plain _ hc) (by decide)
    · exact fun hc => absurd ((h p hp).plain _ hc) (by decide)
  have hlines : splitOn '\n' (listingText selection) = selection ++ [""] :=
    splitOn_join '\n' hne fun p hp => (hplain p hp).1
  unfold readFilesFrom
  dsimp only
  rw [hlines, List.getLast?_concat, if_pos rfl, List.dropLast_concat]
  refine (List.map_congr_left fun p hp => ?_).trans (List.map_id selection)
  rw [if_neg, id]
  intro hend
  obtain ⟨front, hfront⟩ := List.isSuffixOf_iff_suffix.mp hend
  refine (hplain p hp).2 (hfront ▸ List.mem_append_right _ ?_)
  decide

end RcloneSync
