/-
RcloneSync/Grants.lean

One-time grants.

A table holds grants that are stored once and may be handed out once.  Next to the table
stands its ledger: every grant that was stored, with the circumstances under which it was
issued, and every grant that was handed out, with what was shown for it.  `Sound` ties the
two to the table: what was handed out and what is still there is, each copy counted, among
what was stored.

Storing, dropping and handing out keep the ledger sound (`Sound.store`, `Sound.drop`,
`Sound.hand`), whatever the grants are and whatever decides about them.  From a sound
ledger follows that no grant is handed out more often than it was stored
(`Sound.count_le`), and that a grant that was handed out was issued before
(`Sound.issued_of_used`).
-/
import Mathlib.Data.List.Perm.Subperm
import Mathlib.Data.List.Count

namespace Grants

variable {ρ γ ω : Type*}

/-- What was issued and what was handed out, in the order of these events. -/
structure Ledger (ρ γ ω : Type*) where
  issues : List (ρ × γ)
  uses : List (ρ × ω)

def Ledger.empty : Ledger ρ γ ω := ⟨[], []⟩

def Ledger.issue (L : Ledger ρ γ ω) (r : ρ) (c : γ) : Ledger ρ γ ω :=
  { L with issues := L.issues ++ [(r, c)] }

def Ledger.use (L : Ledger ρ γ ω) (r : ρ) (w : ω) : Ledger ρ γ ω :=
  { L with uses := L.uses ++ [(r, w)] }

/-- The ledger of a table: nothing was handed out twice, and every event was in order. -/
structure Sound (issuedAs : ρ → γ → Prop) (usedAs : ρ → ω → Prop) (rows : List ρ)
    (L : Ledger ρ γ ω) : Prop where
  balanced : (L.uses.map Prod.fst ++ rows).Subperm (L.issues.map Prod.fst)
  issued : ∀ i ∈ L.issues, issuedAs i.1 i.2
  used : ∀ u ∈ L.uses, usedAs u.1 u.2

variable {issuedAs : ρ → γ → Prop} {usedAs : ρ → ω → Prop} {rows : List ρ} {L : Ledger ρ γ ω}

theorem sound_empty : Sound issuedAs usedAs [] (Ledger.empty : Ledger ρ γ ω) :=
  ⟨List.Subperm.refl _, by simp [Ledger.empty], by simp [Ledger.empty]⟩

/-- A grant is stored. -/
theorem Sound.store (h : Sound issuedAs usedAs rows L) {r : ρ} {c : γ} (hr : issuedAs r c) :
    Sound issuedAs usedAs (rows ++ [r]) (L.issue r c) := by
  refine ⟨?_, fun i hi => ?_, h.used⟩
  · have hboth := h.balanced.append (List.Subperm.refl [r])
    rw [List.append_assoc] at hboth
    simpa [Ledger.issue] using hboth
  · rcases List.mem_append.mp hi with hi | hi
    · exact h.issued i hi
    · obtain rfl := List.mem_singleton.mp hi
      exact hr

/-- Grants are dropped. -/
theorem Sound.drop (h : Sound issuedAs usedAs rows L) {rows' : List ρ}
    (hrows : rows'.Sublist rows) : Sound issuedAs usedAs rows' L :=
  ⟨(((List.Sublist.refl _).append hrows).subperm).trans h.balanced, h.issued, h.used⟩

/-- A row that a condition removes stands next to the rows it keeps. -/
theorem cons_filter_subperm {p : ρ → Bool} {r : ρ} (hr : r ∈ rows) (hp : p r = false) :
    (r :: rows.filter p).Subperm rows := by
  have hsplit : (rows.filter p ++ rows.filter fun x => !p x).Perm rows :=
    List.filter_append_perm p rows
  have hmem : r ∈ rows.filter fun x => !p x := List.mem_filter.mpr ⟨hr, by simp [hp]⟩
  have hone : ([r] : List ρ).Subperm (rows.filter fun x => !p x) :=
    (List.singleton_sublist.mpr hmem).subperm
  have hboth := ((List.Subperm.refl (rows.filter p)).append hone).trans hsplit.subperm
  have hcomm : ([r] ++ rows.filter p).Perm (rows.filter p ++ [r]) := List.perm_append_comm
  exact hcomm.subperm.trans hboth

/-- A grant is handed out and its row removed. -/
theorem Sound.hand (h : Sound issuedAs usedAs rows L) {p : ρ → Bool} {r : ρ} {w : ω}
    (hr : r ∈ rows) (hp : p r = false) (hw : usedAs r w) :
    Sound issuedAs usedAs (rows.filter p) (L.use r w) := by
  refine ⟨?_, h.issued, fun u hu => ?_⟩
  · have hrows := (List.Subperm.refl (L.uses.map Prod.fst)).append (cons_filter_subperm hr hp)
    simpa [Ledger.use] using hrows.trans h.balanced
  · rcases List.mem_append.mp hu with hu | hu
    · exact h.used u hu
    · obtain rfl := List.mem_singleton.mp hu
      exact hw

/-- **No grant is handed out more often than it was stored.** -/
theorem Sound.count_le [DecidableEq ρ] (h : Sound issuedAs usedAs rows L) (r : ρ) :
    (L.uses.map Prod.fst).count r ≤ (L.issues.map Prod.fst).count r := by
  have hle := h.balanced.count_le r
  rw [List.count_append] at hle
  exact Nat.le_trans (Nat.le_add_right _ _) hle

theorem Sound.once (h : Sound issuedAs usedAs rows L) :
    (L.uses.map Prod.fst).Subperm (L.issues.map Prod.fst) :=
  (List.sublist_append_left _ rows).subperm.trans h.balanced

/-- What was handed out was issued, and was shown in order. -/
theorem Sound.issued_of_used (h : Sound issuedAs usedAs rows L) {r : ρ} {w : ω}
    (hu : (r, w) ∈ L.uses) : usedAs r w ∧ ∃ c, (r, c) ∈ L.issues ∧ issuedAs r c := by
  obtain ⟨i, hi, heq⟩ := List.mem_map.mp (h.once.subset (List.mem_map_of_mem (f := Prod.fst) hu))
  obtain rfl : i.1 = r := heq
  exact ⟨h.used _ hu, i.2, hi, h.issued i hi⟩

end Grants
