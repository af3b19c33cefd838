/-
RcloneSync/BudgetedChoice.lean

As many things as a budget pays for.

Things with sizes arrive one after the other; each is kept, and whenever the sizes of what is kept
exceed the budget a largest one is given up.  What is kept then never exceeds the budget, nothing
that is kept is larger than what was given up, and what was given up would not fit beside it
(`Cheapest`).  No other choice has more members (`Cheapest.card_le`): in any choice the members that
were given up can be exchanged for kept ones that are no larger.
-/
import Mathlib.Algebra.BigOperators.Group.Multiset.Basic
import Mathlib.Algebra.Order.BigOperators.Group.Multiset
import Mathlib.Algebra.Order.Monoid.Canonical.Defs
import Mathlib.Algebra.Order.Group.Multiset
import Mathlib.Algebra.Order.Sub.Basic
import Mathlib.Data.Multiset.UnionInter

namespace BudgetedChoice

variable {α : Type*} [AddCommMonoid α] [LinearOrder α]

/-- What is kept within a budget, and what was given up. -/
structure Cheapest (budget : α) (kept given : Multiset α) : Prop where
  fits : kept.sum ≤ budget
  below : ∀ a ∈ kept, ∀ e ∈ given, a ≤ e
  noneFits : ∀ e ∈ given, budget < e + kept.sum

/-- At least as many things, none of them smaller, are in sum no smaller. -/
theorem sum_le_of_card_le [IsOrderedAddMonoid α] [CanonicallyOrderedAdd α] {A B : Multiset α}
    (hcard : A.card ≤ B.card) (hle : ∀ a ∈ A, ∀ b ∈ B, a ≤ b) : A.sum ≤ B.sum := by
  induction A using Multiset.induction_on generalizing B with
  | empty => exact zero_le
  | cons a A ih =>
    have hpos : 0 < B.card := by
      rw [Multiset.card_cons] at hcard
      omega
    obtain ⟨b, hb⟩ := Multiset.card_pos_iff_exists_mem.mp hpos
    obtain ⟨B, rfl⟩ := Multiset.exists_cons_of_mem hb
    rw [Multiset.sum_cons, Multiset.sum_cons]
    refine add_le_add (hle a (Multiset.mem_cons_self a A) b hb) (ih ?_ fun x hx y hy => ?_)
    · rw [Multiset.card_cons, Multiset.card_cons] at hcard
      omega
    · exact hle x (Multiset.mem_cons_of_mem hx) y (Multiset.mem_cons_of_mem hy)

/-- **What is kept is as much as fits.** -/
theorem Cheapest.card_le [IsOrderedAddMonoid α] [CanonicallyOrderedAdd α] {budget : α}
    {kept given S : Multiset α} (h : Cheapest budget kept given) (hS : S ≤ kept + given)
    (hsum : S.sum ≤ budget) : S.card ≤ kept.card := by
  -- `A` is the part of the choice that was kept, `B` the part that was given up.
  let A := S ∩ kept
  let B := S - kept
  have hsplit : A + B = S := by
    rw [add_comm]
    exact Multiset.sub_add_inter S kept
  have hB : B ≤ given := by
    rw [Multiset.sub_le_iff_le_add, add_comm]
    exact hS
  have hA : A ≤ kept := Multiset.inter_le_right
  have hrest : A + (kept - A) = kept := add_tsub_cancel_of_le hA
  by_contra hmore
  have hcards : A.card + B.card = S.card := by rw [← Multiset.card_add, hsplit]
  have hkept : A.card + (kept - A).card = kept.card := by rw [← Multiset.card_add, hrest]
  obtain ⟨e, he⟩ := Multiset.card_pos_iff_exists_mem.mp (show 0 < B.card by omega)
  obtain ⟨B', hB'⟩ := Multiset.exists_cons_of_mem he
  have hcard : (kept - A).card ≤ B'.card := by
    have hcons := congrArg Multiset.card hB'
    rw [Multiset.card_cons] at hcons
    omega
  have hexchange : (kept - A).sum ≤ B'.sum := by
    refine sum_le_of_card_le hcard fun a ha b hb => h.below a ?_ b ?_
    · exact Multiset.mem_of_le (Multiset.sub_le_self kept A) ha
    · exact Multiset.mem_of_le hB (hB' ▸ Multiset.mem_cons_of_mem hb)
  have hle : e + kept.sum ≤ S.sum := by
    calc e + kept.sum = A.sum + (e + (kept - A).sum) := by
          conv_lhs => rw [← hrest, Multiset.sum_add]
          exact add_left_comm e A.sum (kept - A).sum
      _ ≤ A.sum + (e + B'.sum) := add_le_add le_rfl (add_le_add le_rfl hexchange)
      _ = S.sum := by rw [← hsplit, Multiset.sum_add, hB', Multiset.sum_cons]
  exact absurd (hle.trans hsum) (not_le.mpr (h.noneFits e (Multiset.mem_of_le hB he)))

theorem cheapest_zero (budget : α) (h : 0 ≤ budget) : Cheapest budget 0 0 :=
  ⟨h, fun _ h => absurd h (Multiset.notMem_zero _), fun _ h => absurd h (Multiset.notMem_zero _)⟩

variable [IsOrderedCancelAddMonoid α] {budget x : α} {kept given : Multiset α}

/-- A thing that fits is kept. -/
theorem Cheapest.keep [CanonicallyOrderedAdd α] (h : Cheapest budget kept given)
    (hx : x + kept.sum ≤ budget) : Cheapest budget (x ::ₘ kept) given := by
  refine ⟨by rwa [Multiset.sum_cons], fun a ha e he => ?_, fun e he => ?_⟩
  · rcases Multiset.mem_cons.mp ha with rfl | ha
    · exact (lt_of_add_lt_add_right (hx.trans_lt (h.noneFits e he))).le
    · exact h.below a ha e he
  · rw [Multiset.sum_cons]
    exact (h.noneFits e he).trans_le (add_le_add le_rfl le_add_self)

/-- Of what does not fit together a largest thing is given up. -/
theorem Cheapest.giveUp (h : Cheapest budget kept given) (hx : budget < x + kept.sum) {z : α}
    {rest : Multiset α} (hz : z ::ₘ rest = x ::ₘ kept) (hmax : ∀ a ∈ x ::ₘ kept, a ≤ z) :
    Cheapest budget rest (z ::ₘ given) := by
  have hsum : z + rest.sum = x + kept.sum := by
    rw [← Multiset.sum_cons, ← Multiset.sum_cons, hz]
  have hrest : ∀ {a}, a ∈ rest → a ∈ x ::ₘ kept := fun ha => hz ▸ Multiset.mem_cons_of_mem ha
  have hxz : x ≤ z := hmax x (Multiset.mem_cons_self x kept)
  -- What is given up now is no larger than what was given up before.
  have hzle : z ∈ kept → ∀ e ∈ given, z ≤ e := fun hzk e he => h.below z hzk e he
  have hmem : z ∈ x ::ₘ kept := hz ▸ Multiset.mem_cons_self z rest
  refine ⟨?_, fun a ha e he => ?_, fun e he => ?_⟩
  · refine le_trans ?_ h.fits
    refine le_of_add_le_add_left (a := z) ?_
    rw [hsum]
    exact add_le_add hxz le_rfl
  · rcases Multiset.mem_cons.mp he with rfl | he
    · exact hmax a (hrest ha)
    rcases Multiset.mem_cons.mp (hrest ha) with rfl | ha'
    · rcases Multiset.mem_cons.mp hmem with rfl | hzk
      · -- The new thing itself is given up, and one of the same size stays.
        have hsame : rest = kept := (Multiset.cons_inj_right z).mp hz
        exact h.below z (hsame ▸ ha) e he
      · exact hxz.trans (hzle hzk e he)
    · exact h.below a ha' e he
  · rcases Multiset.mem_cons.mp he with rfl | he
    · rwa [hsum]
    rcases Multiset.mem_cons.mp hmem with rfl | hzk
    · have hsame : rest = kept := (Multiset.cons_inj_right z).mp hz
      rw [hsame]
      exact h.noneFits e he
    · refine hx.trans_le ?_
      rw [← hsum]
      exact add_le_add (hzle hzk e he) le_rfl

end BudgetedChoice
