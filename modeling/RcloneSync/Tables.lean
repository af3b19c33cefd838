/-
RcloneSync/Tables.lean

Tables with a primary key, as lists of rows in the order of their insertion.

Three operations are enough for the statements a program sends to such a table: the row
of a key (`find`), a change of the rows that meet a condition (`updateWhere`), and an
insertion that changes the row already there instead of adding a second one (`upsert`).
A change keeps the keys of the rows.  The lemmas say what each operation leaves under a
given key, which is all the rest of a development needs to know about the list.
-/
import Mathlib.Data.List.Basic
import Mathlib.Data.List.Induction
import Mathlib.Order.Lattice

namespace Tables

variable {κ ρ : Type*} [DecidableEq κ] (key : ρ → κ)

/-- The row of a key. -/
def find (rows : List ρ) (k : κ) : Option ρ := rows.find? fun r => decide (key r = k)

/-- `UPDATE … WHERE p`. -/
def updateWhere (p : ρ → Bool) (f : ρ → ρ) (rows : List ρ) : List ρ :=
  rows.map fun r => if p r then f r else r

/-- `INSERT … ON CONFLICT DO UPDATE`: `merge` changes the row with the key of `new`. -/
def upsert (new : ρ) (merge : ρ → ρ) (rows : List ρ) : List ρ :=
  if (find key rows (key new)).isSome then
    updateWhere (fun r => decide (key r = key new)) merge rows
  else rows ++ [new]

variable {key}

theorem key_of_find {rows : List ρ} {k : κ} {r : ρ} (h : find key rows k = some r) :
    key r = k := by
  simpa using List.find?_some h

theorem mem_of_find {rows : List ρ} {k : κ} {r : ρ} (h : find key rows k = some r) :
    r ∈ rows :=
  List.mem_of_find?_eq_some h

/-- Where keys are unique, every row is the row of its key. -/
theorem find_of_mem {rows : List ρ} {r : ρ} {k : κ} (hkeys : (rows.map key).Nodup)
    (hr : r ∈ rows) (hk : key r = k) : find key rows k = some r := by
  induction rows with
  | nil => cases hr
  | cons r' rows ih =>
    obtain ⟨hr', hkeys⟩ := List.nodup_cons.mp hkeys
    rcases List.mem_cons.mp hr with rfl | hr
    · simp [find, hk]
    · have hne : ¬ key r' = k := fun h => hr' (h.trans hk.symm ▸ List.mem_map_of_mem hr)
      have ih := ih hkeys hr
      simpa [find, hne] using ih

theorem find_append (rows : List ρ) (new : ρ) (k : κ) :
    find key (rows ++ [new]) k
      = (find key rows k).or (if key new = k then some new else none) := by
  by_cases h : key new = k <;> simp [find, List.find?_append, h]

/-- A change that keeps the keys changes the row of each key. -/
theorem find_updateWhere {p : ρ → Bool} {f : ρ → ρ} (hf : ∀ r, key (f r) = key r)
    (rows : List ρ) (k : κ) :
    find key (updateWhere p f rows) k
      = (find key rows k).map fun r => if p r then f r else r := by
  have hkey : ∀ r, key (if p r then f r else r) = key r := by
    intro r
    split
    · exact hf r
    · rfl
  induction rows with
  | nil => rfl
  | cons r rows ih =>
    have ih : (updateWhere p f rows).find? (fun r => decide (key r = k))
        = (rows.find? fun r => decide (key r = k)).map fun r => if p r then f r else r := ih
    by_cases h : key r = k
    · simp [find, updateWhere, hkey, h]
    · simp only [find, updateWhere, List.map_cons, List.find?_cons, hkey, h, decide_false]
      exact ih

theorem find_upsert {new : ρ} {merge : ρ → ρ} (hmerge : ∀ r, key (merge r) = key r)
    (rows : List ρ) (k : κ) :
    find key (upsert key new merge rows) k
      = if k = key new then some (((find key rows k).map merge).getD new)
        else find key rows k := by
  unfold upsert
  by_cases hk : k = key new
  · subst hk
    rw [if_pos rfl]
    cases hfind : find key rows (key new) with
    | some r =>
      have hr := key_of_find hfind
      rw [Option.isSome_some, if_pos rfl, find_updateWhere hmerge, hfind]
      simp [hr]
    | none => simp [find_append, hfind]
  · rw [if_neg hk]
    by_cases hsome : (find key rows (key new)).isSome = true
    · rw [if_pos hsome, find_updateWhere hmerge]
      cases hfind : find key rows k with
      | none => rfl
      | some r =>
        have hne : ¬ key r = key new := fun h => hk ((key_of_find hfind).symm.trans h)
        simp [hne]
    · have hne : ¬ key new = k := fun h => hk h.symm
      rw [if_neg hsome, find_append, if_neg hne, Option.or_none]

theorem updateWhere_of_none {p : ρ → Bool} {rows : List ρ} (h : rows.any p = false) (f : ρ → ρ) :
    updateWhere p f rows = rows := by
  have hnone : ∀ r ∈ rows, (if p r then f r else r) = r := by
    intro r hr
    have hp : p r = false := by simpa using List.any_eq_false.mp h r hr
    simp [hp]
  exact (List.map_congr_left hnone).trans (List.map_id rows)

omit [DecidableEq κ] in
theorem map_key_updateWhere {p : ρ → Bool} {f : ρ → ρ} (hf : ∀ r, key (f r) = key r)
    (rows : List ρ) : (updateWhere p f rows).map key = rows.map key := by
  rw [updateWhere, List.map_map]
  refine List.map_congr_left fun r _ => ?_
  by_cases h : p r = true
  · simp [h, hf]
  · simp [h]

theorem find_eq_none {rows : List ρ} {k : κ} (h : k ∉ rows.map key) : find key rows k = none := by
  refine List.find?_eq_none.mpr fun r hr hk => h ?_
  exact of_decide_eq_true hk ▸ List.mem_map_of_mem hr

theorem map_key_upsert {new : ρ} {merge : ρ → ρ} (hmerge : ∀ r, key (merge r) = key r)
    (rows : List ρ) : (upsert key new merge rows).map key =
      if key new ∈ rows.map key then rows.map key else rows.map key ++ [key new] := by
  unfold upsert
  by_cases hmem : key new ∈ rows.map key
  · obtain ⟨r, hr, hkey⟩ := List.mem_map.mp hmem
    have hfound : (find key rows (key new)).isSome = true := by
      rw [find, List.find?_isSome]
      exact ⟨r, hr, decide_eq_true hkey⟩
    rw [if_pos hfound, if_pos hmem]
    exact map_key_updateWhere hmerge rows
  · rw [find_eq_none hmem, if_neg hmem]
    simp

theorem nodup_upsert {new : ρ} {merge : ρ → ρ} (hmerge : ∀ r, key (merge r) = key r)
    {rows : List ρ} (hkeys : (rows.map key).Nodup) :
    ((upsert key new merge rows).map key).Nodup := by
  rw [map_key_upsert hmerge]
  split_ifs with hmem
  · exact hkeys
  · exact List.nodup_append.mpr ⟨hkeys, List.pairwise_singleton _ _,
      fun a ha b hb => by rintro rfl; exact hmem (List.mem_singleton.mp hb ▸ ha)⟩

theorem mem_keys_upsert {new : ρ} {merge : ρ → ρ} (hmerge : ∀ r, key (merge r) = key r)
    {rows : List ρ} {k : κ} (h : k ∈ rows.map key) : k ∈ (upsert key new merge rows).map key := by
  rw [map_key_upsert hmerge]
  split_ifs
  · exact h
  · exact List.mem_append_left _ h

/-- Where keys are unique, a key is counted once among the rows that meet a condition if its
row meets it, and not at all otherwise. -/
theorem count_filter {rows : List ρ} (hkeys : (rows.map key).Nodup) (p : ρ → Bool) (k : κ) :
    ((rows.filter p).map key).count k = if (find key rows k).any p then 1 else 0 := by
  induction rows with
  | nil => rfl
  | cons r rows ih =>
    obtain ⟨hr, hkeys⟩ := List.nodup_cons.mp hkeys
    have ih := ih hkeys
    by_cases hk : key r = k
    · have hnone : find key rows k = none := find_eq_none (hk ▸ hr)
      have hfind : find key (r :: rows) k = some r := by simp [find, hk]
      rw [hnone] at ih
      by_cases hp : p r = true
      · rw [List.filter_cons_of_pos hp, List.map_cons, hk, List.count_cons_self, ih, hfind]
        simp [hp]
      · rw [List.filter_cons_of_neg hp, ih, hfind]
        simp [hp]
    · have hfind : find key (r :: rows) k = find key rows k := by simp [find, hk]
      rw [hfind, ← ih]
      by_cases hp : p r = true
      · rw [List.filter_cons_of_pos hp, List.map_cons, List.count_cons_of_ne hk]
      · rw [List.filter_cons_of_neg hp]

/-- Where keys are unique, a deletion leaves the row of a key or removes it. -/
theorem find_filter {rows : List ρ} (hkeys : (rows.map key).Nodup) (q : ρ → Bool) (k : κ) :
    find key (rows.filter q) k = (find key rows k).filter q := by
  have hkept : ((rows.filter q).map key).Nodup :=
    hkeys.sublist (List.filter_sublist.map key)
  cases hfind : find key rows k with
  | none =>
    refine List.find?_eq_none.mpr fun r hr => ?_
    exact List.find?_eq_none.mp hfind r (List.mem_filter.mp hr).1
  | some r =>
    by_cases hq : q r = true
    · rw [Option.filter_some_pos hq]
      exact find_of_mem hkept (List.mem_filter.mpr ⟨mem_of_find hfind, hq⟩) (key_of_find hfind)
    · rw [Option.filter_some_neg (Bool.eq_false_iff.mpr hq)]
      refine find_eq_none fun hmem => ?_
      obtain ⟨r', hr', hk⟩ := List.mem_map.mp hmem
      obtain ⟨hr', hq'⟩ := List.mem_filter.mp hr'
      have hsame := (find_of_mem hkeys hr' hk).symm.trans hfind
      exact hq (Option.some.inj hsame ▸ hq')

/-- Where keys are unique, the order of the rows does not matter. -/
theorem find_perm {rows rows' : List ρ} (hperm : rows.Perm rows') (hkeys : (rows.map key).Nodup)
    (k : κ) : find key rows k = find key rows' k := by
  have hkeys' : (rows'.map key).Nodup := (hperm.map key).nodup_iff.mp hkeys
  cases hfind : find key rows' k with
  | none =>
    refine List.find?_eq_none.mpr fun r hr => ?_
    exact List.find?_eq_none.mp hfind r (hperm.mem_iff.mp hr)
  | some r =>
    exact find_of_mem hkeys (hperm.mem_iff.mpr (mem_of_find hfind)) (key_of_find hfind)

/-! ### Folds that pick a row -/

/-- A fold whose step keeps what it has or takes the row at hand ends with one of the rows. -/
theorem mem_of_foldl {α : Type} {f : Option α → α → Option α} {rows : List α} {r : α}
    (hf : ∀ best a found, f best a = some found → best = some found ∨ found = a)
    (h : rows.foldl f none = some r) : r ∈ rows := by
  have hpick : ∀ (rows : List α) best, rows.foldl f best = some r → best = some r ∨ r ∈ rows := by
    intro rows
    induction rows with
    | nil => exact fun best h => Or.inl h
    | cons a rows ih =>
      intro best h
      rcases ih _ h with hfound | hr
      · rcases hf best a r hfound with hbest | rfl
        · exact Or.inl hbest
        · exact Or.inr (by simp)
      · exact Or.inr (by simp [hr])
  rcases hpick rows none h with hnone | hr
  · cases hnone
  · exact hr

/-- A fold whose step always has something in hand ends with something. -/
theorem foldl_ne_none {α : Type} {f : Option α → α → Option α}
    (hf : ∀ a b, ∃ c, f (some a) b = some c) (rows : List α) (a : α) :
    rows.foldl f (some a) ≠ none := by
  induction rows generalizing a with
  | nil => exact Option.some_ne_none a
  | cons b rows ih =>
    obtain ⟨c, hc⟩ := hf a b
    rw [List.foldl_cons, hc]
    exact ih c

/-- The row with the greatest time; among equal times the last one. -/
def newest {α τ : Type} [LE τ] [DecidableLE τ] (time : α → τ) (rows : List α) : Option α :=
  rows.foldl (fun best r =>
    match best with
    | none => some r
    | some b => if time b ≤ time r then some r else some b) none

section Newest

variable {α τ : Type} [LinearOrder τ] {time : α → τ}

theorem newest_concat (rows : List α) (a : α) : newest time (rows ++ [a])
    = some ((newest time rows).elim a fun b => if time b ≤ time a then a else b) := by
  rw [newest, List.foldl_append]
  change List.foldl _ (newest time rows) [a] = _
  cases newest time rows with
  | none => rfl
  | some b =>
    show (if time b ≤ time a then some a else some b) = some (if time b ≤ time a then a else b)
    split_ifs <;> rfl

theorem newest_eq_none_iff {rows : List α} : newest time rows = none ↔ rows = [] := by
  induction rows using List.reverseRecOn with
  | nil => exact ⟨fun _ => rfl, fun _ => rfl⟩
  | append_singleton rows a _ =>
    rw [newest_concat]
    simp

/-- The newest row is at least as new as those before it and newer than those behind. -/
theorem newest_eq_some_iff {rows : List α} {r : α} : newest time rows = some r ↔
    ∃ before after, rows = before ++ r :: after ∧ (∀ x ∈ before, time x ≤ time r) ∧
      ∀ x ∈ after, time x < time r := by
  induction rows using List.reverseRecOn generalizing r with
  | nil => simp [newest]
  | append_singleton rows a ih =>
    rw [newest_concat]
    constructor
    · intro h
      cases hb : newest time rows with
      | none =>
        rw [hb] at h
        obtain rfl := Option.some.inj h
        obtain rfl := newest_eq_none_iff.mp hb
        exact ⟨[], [], rfl, by simp, by simp⟩
      | some b =>
        rw [hb, Option.elim_some] at h
        obtain ⟨before, after, hrows, hbefore, hafter⟩ := ih.mp hb
        by_cases hle : time b ≤ time a
        · rw [if_pos hle] at h
          obtain rfl := Option.some.inj h
          refine ⟨rows, [], rfl, fun x hx => ?_, by simp⟩
          rw [hrows] at hx
          rcases List.mem_append.mp hx with hx | hx
          · exact le_trans (hbefore x hx) hle
          · rcases List.mem_cons.mp hx with rfl | hx
            · exact hle
            · exact le_trans (le_of_lt (hafter x hx)) hle
        · rw [if_neg hle] at h
          obtain rfl := Option.some.inj h
          refine ⟨before, after ++ [a], by simp [hrows], hbefore, fun x hx => ?_⟩
          rcases List.mem_append.mp hx with hx | hx
          · exact hafter x hx
          · rw [List.mem_singleton.mp hx]
            exact not_le.mp hle
    · rintro ⟨before, after, hrows, hbefore, hafter⟩
      rcases List.eq_nil_or_concat after with rfl | ⟨after, last, rfl⟩
      · obtain ⟨rfl, hlast⟩ := List.append_inj' hrows rfl
        obtain rfl := List.cons.inj hlast |>.1
        cases hb : newest time rows with
        | none => rfl
        | some b =>
          obtain ⟨u, v, hrows', _, _⟩ := ih.mp hb
          have hle : time b ≤ time a := hbefore b (by simp [hrows'])
          simp [hle]
      · have hsplit : rows ++ [a] = (before ++ r :: after) ++ [last] := by simpa using hrows
        obtain ⟨rfl, hlast⟩ := List.append_inj' hsplit rfl
        obtain rfl := List.cons.inj hlast |>.1
        have hb := ih.mpr ⟨before, after, rfl, hbefore, fun x hx => hafter x (by simp [hx])⟩
        have hlt : ¬ time r ≤ time a := not_le.mpr (hafter a (by simp))
        simp [hb, hlt]

/-- Deleting other rows leaves the newest one the newest. -/
theorem newest_filter {rows : List α} {r : α} {q : α → Bool} (h : newest time rows = some r)
    (hq : q r = true) : newest time (rows.filter q) = some r := by
  obtain ⟨before, after, rfl, hbefore, hafter⟩ := newest_eq_some_iff.mp h
  refine newest_eq_some_iff.mpr ⟨before.filter q, after.filter q, ?_, fun x hx => ?_,
    fun x hx => ?_⟩
  · simp [List.filter_append, hq]
  · exact hbefore x (List.mem_filter.mp hx).1
  · exact hafter x (List.mem_filter.mp hx).1

end Newest

end Tables
