/-
RcloneSync/Replacements.lean

Entries of a store that are replaced one after the other.

A replacement has a key and the new entry, or the error that making the entry ends with; some
entries cannot be replaced.  The first replacement that fails ends the run, and what was replaced
before stays replaced (`exec_replaceAll_stopped`).  So a failed run leaves the store as it was
exactly if the replacements before the failure put back what was there (`kept_iff`).
-/
import Mathlib.Data.List.Nodup
import Mathlib.Logic.Function.Basic
import RcloneSync.Effects

namespace Replacements

open Effects

variable {κ ν ε : Type} [DecidableEq κ]

/-- A key, and its new entry or the error of making it. -/
abbrev Replacement (κ ν ε : Type) := κ × Except ε ν

section Run

-- what replacing an entry raises
variable (blocked : ν → Option ε)

/-- One replacement. -/
def replaceOne (r : Replacement κ ν ε) : Effect (κ → ν) ε Unit :=
  match r.2 with
  | .error e => throw e
  | .ok v => do
    raising (blocked ((← get) r.1))
    modify fun s => Function.update s r.1 v

/-- One after the other. -/
def replaceAll : List (Replacement κ ν ε) → Effect (κ → ν) ε Unit
  | [] => pure ()
  | r :: rs => do
    replaceOne blocked r
    replaceAll rs

/-- How a replacement fails in a store. -/
def faultOf (s : κ → ν) (r : Replacement κ ν ε) : Option ε :=
  match r.2 with
  | .error e => some e
  | .ok _ => blocked (s r.1)

end Run

/-- The store after a replacement that did not fail. -/
def writeOne (s : κ → ν) (r : Replacement κ ν ε) : κ → ν :=
  match r.2 with
  | .error _ => s
  | .ok v => Function.update s r.1 v

/-- The store after replacements that did not fail. -/
def writeAll (s : κ → ν) (rs : List (Replacement κ ν ε)) : κ → ν := rs.foldl writeOne s

variable {blocked : ν → Option ε}

theorem exec_replaceOne (s : κ → ν) (r : Replacement κ ν ε) :
    exec (replaceOne blocked r) s =
      match faultOf blocked s r with
      | none => (.ok (), writeOne s r)
      | some e => (.error e, s) := by
  obtain ⟨k, e | v⟩ := r
  · rfl
  · show exec (do raising (blocked ((← get) k)); modify fun s => Function.update s k v) s = _
    rw [exec_bind_ok (exec_get s), exec_bind, exec_raising]
    show _ = match blocked (s k) with
      | none => ((.ok (), Function.update s k v) : Except ε Unit × (κ → ν))
      | some e => (.error e, s)
    cases blocked (s k) <;> rfl

theorem writeOne_of_ne (s : κ → ν) (r : Replacement κ ν ε) {k : κ} (h : k ≠ r.1) :
    writeOne s r k = s k := by
  obtain ⟨k', e | v⟩ := r
  · rfl
  · exact Function.update_of_ne h v s

theorem writeAll_of_notMem (s : κ → ν) (rs : List (Replacement κ ν ε)) {k : κ}
    (h : k ∉ rs.map Prod.fst) : writeAll s rs k = s k := by
  induction rs generalizing s with
  | nil => rfl
  | cons r rs ih =>
    rw [List.map_cons, List.mem_cons, not_or] at h
    exact (ih (writeOne s r) h.2).trans (writeOne_of_ne s r h.1)

theorem writeAll_of_mem {s : κ → ν} {rs : List (Replacement κ ν ε)}
    (hnodup : (rs.map Prod.fst).Nodup) {k : κ} {v : ν} (h : (k, .ok v) ∈ rs) :
    writeAll s rs k = v := by
  induction rs generalizing s with
  | nil => cases h
  | cons r rs ih =>
    rw [List.map_cons, List.nodup_cons] at hnodup
    rcases List.mem_cons.mp h with rfl | h
    · have hself : Function.update s k v k = v := Function.update_self ..
      exact (writeAll_of_notMem _ rs hnodup.1).trans hself
    · exact ih hnodup.2 h

theorem faultOf_writeOne (s : κ → ν) (r : Replacement κ ν ε) {r' : Replacement κ ν ε}
    (h : r'.1 ≠ r.1) : faultOf blocked (writeOne s r) r' = faultOf blocked s r' := by
  obtain ⟨k', e | v⟩ := r'
  · rfl
  · exact congrArg blocked (writeOne_of_ne s r h)

/-- A fault in the store after a replacement is one in the store before. -/
theorem faultOf_writeOne_of_mem {s : κ → ν} {r : Replacement κ ν ε} {rs : List (Replacement κ ν ε)}
    (hnodup : r.1 ∉ rs.map Prod.fst) {r' : Replacement κ ν ε} (h : r' ∈ rs) :
    faultOf blocked (writeOne s r) r' = faultOf blocked s r' :=
  faultOf_writeOne s r fun heq => hnodup (heq ▸ List.mem_map_of_mem h)

/-- No replacement fails. -/
theorem exec_replaceAll_done {s : κ → ν} {rs : List (Replacement κ ν ε)}
    (hnodup : (rs.map Prod.fst).Nodup) (h : ∀ r ∈ rs, faultOf blocked s r = none) :
    exec (replaceAll blocked rs) s = (.ok (), writeAll s rs) := by
  induction rs generalizing s with
  | nil => rfl
  | cons r rs ih =>
    rw [List.map_cons, List.nodup_cons] at hnodup
    have hfirst : exec (replaceOne blocked r) s = (.ok (), writeOne s r) := by
      rw [exec_replaceOne, h r List.mem_cons_self]
    refine (exec_bind_ok hfirst _).trans (ih hnodup.2 fun r' hr' => ?_)
    rw [faultOf_writeOne_of_mem hnodup.1 hr']
    exact h r' (List.mem_cons_of_mem r hr')

/-- The first replacement that fails ends the run. -/
theorem exec_replaceAll_stopped {s : κ → ν} {before after : List (Replacement κ ν ε)}
    {r : Replacement κ ν ε} {e : ε} (hnodup : ((before ++ r :: after).map Prod.fst).Nodup)
    (hbefore : ∀ b ∈ before, faultOf blocked s b = none) (h : faultOf blocked s r = some e) :
    exec (replaceAll blocked (before ++ r :: after)) s = (.error e, writeAll s before) := by
  induction before generalizing s with
  | nil =>
    have hfirst : exec (replaceOne blocked r) s = (.error e, s) := by
      rw [exec_replaceOne, h]
    exact exec_bind_error hfirst _
  | cons b before ih =>
    rw [List.cons_append, List.map_cons, List.nodup_cons] at hnodup
    have hfirst : exec (replaceOne blocked b) s = (.ok (), writeOne s b) := by
      rw [exec_replaceOne, hbefore b List.mem_cons_self]
    refine (exec_bind_ok hfirst _).trans (ih hnodup.2 (fun b' hb' => ?_) ?_)
    · rw [faultOf_writeOne_of_mem hnodup.1 (List.mem_append_left _ hb')]
      exact hbefore b' (List.mem_cons_of_mem b hb')
    · rw [faultOf_writeOne_of_mem hnodup.1 (List.mem_append_right before List.mem_cons_self)]
      exact h

omit [DecidableEq κ] in
/-- Either no replacement fails, or there is a first one that does. -/
theorem done_or_stopped (blocked : ν → Option ε) (s : κ → ν) (rs : List (Replacement κ ν ε)) :
    (∀ r ∈ rs, faultOf blocked s r = none) ∨
    ∃ before r after e, rs = before ++ r :: after ∧ (∀ b ∈ before, faultOf blocked s b = none) ∧
      faultOf blocked s r = some e := by
  induction rs with
  | nil => exact .inl fun r h => absurd h List.not_mem_nil
  | cons r rs ih =>
    cases hr : faultOf blocked s r with
    | some e => exact .inr ⟨[], r, rs, e, rfl, fun b h => absurd h List.not_mem_nil, hr⟩
    | none =>
      rcases ih with hall | ⟨before, r', after, e, rfl, hbefore, hr'⟩
      · exact .inl (List.forall_mem_cons.mpr ⟨hr, hall⟩)
      · exact .inr ⟨r :: before, r', after, e, rfl, List.forall_mem_cons.mpr ⟨hr, hbefore⟩, hr'⟩

omit [DecidableEq κ] in
/-- The first replacement that fails is the first in every way of cutting the list. -/
theorem stopped_unique {s : κ → ν} {before before' after after' : List (Replacement κ ν ε)}
    {r r' : Replacement κ ν ε} {e e' : ε} (hsame : before ++ r :: after = before' ++ r' :: after')
    (hbefore : ∀ b ∈ before, faultOf blocked s b = none) (hr : faultOf blocked s r = some e)
    (hbefore' : ∀ b ∈ before', faultOf blocked s b = none) (hr' : faultOf blocked s r' = some e') :
    before = before' ∧ e = e' := by
  induction before generalizing before' with
  | nil =>
    cases before' with
    | nil =>
      obtain ⟨rfl, -⟩ := List.cons.inj hsame
      exact ⟨rfl, Option.some.inj (hr.symm.trans hr')⟩
    | cons b before' =>
      obtain ⟨rfl, -⟩ := List.cons.inj hsame
      exact absurd (hr.symm.trans (hbefore' r List.mem_cons_self)) (Option.some_ne_none e)
  | cons b before ih =>
    cases before' with
    | nil =>
      obtain ⟨rfl, -⟩ := List.cons.inj hsame
      exact absurd (hr'.symm.trans (hbefore b List.mem_cons_self)) (Option.some_ne_none e')
    | cons b' before' =>
      obtain ⟨rfl, hrest⟩ := List.cons.inj hsame
      obtain ⟨rfl, he⟩ := ih hrest (fun x hx => hbefore x (List.mem_cons_of_mem b hx))
        fun x hx => hbefore' x (List.mem_cons_of_mem b hx)
      exact ⟨rfl, he⟩

/-- **Replacements that do not fail keep the store exactly if they put back what is there.** -/
theorem kept_iff {s : κ → ν} {rs : List (Replacement κ ν ε)} (hnodup : (rs.map Prod.fst).Nodup)
    (h : ∀ r ∈ rs, faultOf blocked s r = none) :
    writeAll s rs = s ↔ ∀ r ∈ rs, r.2 = .ok (s r.1) := by
  constructor
  · rintro hkept ⟨k, e | v⟩ hr
    · exact absurd (h _ hr) (Option.some_ne_none e)
    · have hv := writeAll_of_mem (s := s) hnodup hr
      rw [hkept] at hv
      exact congrArg Except.ok hv.symm
  · intro hsame
    funext k
    by_cases hk : k ∈ rs.map Prod.fst
    · obtain ⟨⟨k', w⟩, hr, rfl⟩ := List.mem_map.mp hk
      obtain rfl : w = .ok (s k') := hsame _ hr
      exact writeAll_of_mem hnodup hr
    · exact writeAll_of_notMem s rs hk

end Replacements
