/-
RcloneSync/StackTraversal.lean

Forests that are visited with a stack.  A node is taken off the stack, and its children are put
on it in its place, the first one on top.

In a forest no node has two parents.  The nodes on the stack are the roots of subtrees that do
not overlap, and a step keeps it that way (`Separate.step`): so nothing is visited twice
(`Visits.nodup`), what is visited is what can be reached from the stack (`Visits.mem_iff`), and
a finite forest is visited to its end (`exists_visits`).
-/
import Mathlib.Data.Set.Card
import Mathlib.Logic.Relation

namespace Forest

open Relation

variable {α : Type*} {children : α → List α}

/-- A node and one of its children. -/
def ChildOf (children : α → List α) (p c : α) : Prop := c ∈ children p

/-- No node has two parents, or is a child twice. -/
structure IsForest (children : α → List α) : Prop where
  nodup : ∀ p, (children p).Nodup
  parent : ∀ {p q c}, c ∈ children p → c ∈ children q → p = q

/-- The order in which the nodes below a stack are visited. -/
inductive Visits (children : α → List α) : List α → List α → Prop
  | nil : Visits children [] []
  | cons {x : α} {stack order : List α} (h : Visits children (children x ++ stack) order) :
      Visits children (x :: stack) (x :: order)

/-- What can be reached from a stack. -/
def Reached (children : α → List α) (stack : List α) (y : α) : Prop :=
  ∃ x ∈ stack, ReflTransGen (ChildOf children) x y

/-- The subtrees on a stack do not overlap. -/
structure Separate (children : α → List α) (stack : List α) : Prop where
  nodup : stack.Nodup
  apart : ∀ a ∈ stack, ∀ b ∈ stack, ¬ TransGen (ChildOf children) a b

theorem reached_cons {x y : α} {stack : List α} :
    Reached children (x :: stack) y ↔ y = x ∨ Reached children (children x ++ stack) y := by
  constructor
  · rintro ⟨a, ha, hreach⟩
    rcases List.mem_cons.mp ha with rfl | ha
    · rcases hreach.cases_head with rfl | ⟨c, hc, hreach⟩
      · exact .inl rfl
      · exact .inr ⟨c, List.mem_append_left _ hc, hreach⟩
    · exact .inr ⟨a, List.mem_append_right _ ha, hreach⟩
  · rintro (rfl | ⟨a, ha, hreach⟩)
    · exact ⟨y, List.mem_cons_self, .refl⟩
    · rcases List.mem_append.mp ha with hchild | hrest
      · exact ⟨x, List.mem_cons_self, .head hchild hreach⟩
      · exact ⟨a, List.mem_cons_of_mem _ hrest, hreach⟩

/-! ### A step -/

namespace Separate

variable {x : α} {stack : List α}

/-- A node on the stack is not below what remains. -/
theorem not_reached (h : Separate children (x :: stack)) :
    ¬ Reached children (children x ++ stack) x := by
  rintro ⟨a, ha, hreach⟩
  have hx : x ∈ x :: stack := List.mem_cons_self
  rcases List.mem_append.mp ha with hchild | hrest
  · exact h.apart x hx x hx (.head' hchild hreach)
  · rcases reflTransGen_iff_eq_or_transGen.mp hreach with rfl | htrans
    · exact (List.nodup_cons.mp h.nodup).1 hrest
    · exact h.apart a (List.mem_cons_of_mem _ hrest) x hx htrans

/-- **The children of a node take its place**, and the subtrees still do not overlap. -/
theorem step (hforest : IsForest children) (h : Separate children (x :: stack)) :
    Separate children (children x ++ stack) where
  nodup := by
    have hrest := (List.nodup_cons.mp h.nodup).2
    refine List.nodup_append.mpr ⟨hforest.nodup x, hrest, fun c hchild r hr => ?_⟩
    rintro rfl
    exact h.apart x List.mem_cons_self c (List.mem_cons_of_mem _ hr) (.single hchild)
  apart a ha b hb hreach := by
    rcases List.mem_append.mp hb with hchild | hrest
    · -- the last step into a child comes from its parent
      obtain ⟨p, hap, hp⟩ := TransGen.tail'_iff.mp hreach
      obtain rfl := hforest.parent hp hchild
      exact h.not_reached ⟨a, ha, hap⟩
    · rcases List.mem_append.mp ha with hchild | harest
      · exact h.apart x List.mem_cons_self b (List.mem_cons_of_mem _ hrest)
          (.head hchild hreach)
      · exact h.apart a (List.mem_cons_of_mem _ harest) b (List.mem_cons_of_mem _ hrest) hreach

end Separate

/-! ### A whole visit -/

/-- **What is visited is what can be reached.** -/
theorem Visits.mem_iff {stack order : List α} (h : Visits children stack order) (y : α) :
    y ∈ order ↔ Reached children stack y := by
  induction h with
  | nil => exact ⟨nofun, fun ⟨_, hx, _⟩ => nomatch hx⟩
  | cons _ ih => rw [List.mem_cons, ih, reached_cons]

/-- **Nothing is visited twice.** -/
theorem Visits.nodup (hforest : IsForest children) {stack order : List α}
    (h : Visits children stack order) (hs : Separate children stack) : order.Nodup := by
  induction h with
  | nil => exact List.nodup_nil
  | cons h ih =>
    refine List.nodup_cons.mpr ⟨fun hx => ?_, ih (hs.step hforest)⟩
    exact hs.not_reached ((h.mem_iff _).mp hx)

/-- **A finite forest is visited to its end.** -/
theorem exists_visits (hforest : IsForest children) {stack : List α}
    (hs : Separate children stack) (hfinite : {y | Reached children stack y}.Finite) :
    ∃ order, Visits children stack order := by
  induction hsize : {y | Reached children stack y}.ncard using Nat.strong_induction_on
    generalizing stack with
  | _ n ih =>
    cases stack with
    | nil => exact ⟨[], .nil⟩
    | cons x stack =>
      have hsub : {y | Reached children (children x ++ stack) y} ⊂
          {y | Reached children (x :: stack) y} := by
        refine Set.ssubset_iff_of_subset (fun y hy => reached_cons.mpr (.inr hy)) |>.mpr ?_
        exact ⟨x, reached_cons.mpr (.inl rfl), hs.not_reached⟩
      have hless := Set.ncard_lt_ncard hsub hfinite
      obtain ⟨order, horder⟩ :=
        ih _ (hsize ▸ hless) (hs.step hforest) (hfinite.subset hsub.subset) rfl
      exact ⟨x :: order, .cons horder⟩

end Forest
