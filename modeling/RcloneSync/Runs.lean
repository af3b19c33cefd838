/-
RcloneSync/Runs.lean

Runs of labelled transition systems.  A system is a relation `step s a t`: in state
`s` the action `a` may lead to `t`.  A run is a list of actions with the states in
between; nothing is said about who performs the actions, so a run over the atomic
actions of several parties is an arbitrary interleaving of them.

Every result about runs comes from one induction, `Run.preserves`: what each step
preserves, a run preserves.  `Restrict` narrows a system to the steps that meet a
condition on the state before them.
-/
import Mathlib.Data.List.Basic

namespace Runs

variable {σ α : Type*} {step : σ → α → σ → Prop}

/-- A run of actions from one state to another. -/
inductive Run (step : σ → α → σ → Prop) : σ → List α → σ → Prop
  | nil (s : σ) : Run step s [] s
  | cons {s t u : σ} {a : α} {as : List α} (h : step s a t) (hs : Run step t as u) :
      Run step s (a :: as) u

/-- The system narrowed to the steps that meet a condition. -/
def Restrict (step : σ → α → σ → Prop) (C : σ → α → Prop) : σ → α → σ → Prop :=
  fun s a t => step s a t ∧ C s a

/-- **The run rule.**  What every step preserves, every run preserves. -/
theorem Run.preserves {s t : σ} {as : List α} (hrun : Run step s as t) (I : σ → Prop)
    (hstep : ∀ s a t, I s → step s a t → I t) (hs : I s) : I t := by
  induction hrun with
  | nil s => exact hs
  | cons h _ ih => exact ih (hstep _ _ _ hs h)

theorem Run.mono {step' : σ → α → σ → Prop} (h : ∀ s a t, step s a t → step' s a t) {s t : σ}
    {as : List α} (hrun : Run step s as t) : Run step' s as t := by
  induction hrun with
  | nil s => exact .nil s
  | cons hs _ ih => exact .cons (h _ _ _ hs) ih

/-- A run whose actions meet the condition wherever they are taken. -/
theorem Run.restrict {C : σ → α → Prop} {s t : σ} {as : List α} (hrun : Run step s as t)
    (h : ∀ a ∈ as, ∀ u, C u a) : Run (Restrict step C) s as t := by
  induction hrun with
  | nil s => exact .nil s
  | cons hs _ ih =>
    exact .cons ⟨hs, h _ (by simp) _⟩ (ih fun a ha => h a (List.mem_cons_of_mem _ ha))

theorem Run.append {s t u : σ} {as bs : List α} (h₁ : Run step s as t) (h₂ : Run step t bs u) :
    Run step s (as ++ bs) u := by
  induction h₁ with
  | nil s => exact h₂
  | cons h _ ih => exact .cons h (ih h₂)

/-- A run can be cut anywhere. -/
theorem Run.split {s u : σ} {as bs : List α} (h : Run step s (as ++ bs) u) :
    ∃ t, Run step s as t ∧ Run step t bs u := by
  induction as generalizing s with
  | nil => exact ⟨s, .nil s, h⟩
  | cons a as ih =>
    cases h with
    | cons hstep hrest =>
      obtain ⟨t, h₁, h₂⟩ := ih hrest
      exact ⟨t, .cons hstep h₁, h₂⟩

/-- What does not hold at the start of a run and holds at its end begins to hold at a step. -/
theorem Run.crossing {s t : σ} {as : List α} (h : Run step s as t) (P : σ → Prop) (hs : ¬ P s)
    (ht : P t) : ∃ as₁ a as₂ u v, as = as₁ ++ a :: as₂ ∧ Run step s as₁ u ∧ ¬ P u ∧ step u a v ∧
      P v ∧ Run step v as₂ t := by
  induction h with
  | nil s => exact absurd ht hs
  | @cons s u t a as hstep hrest ih =>
    by_cases hu : P u
    · exact ⟨[], a, as, s, u, rfl, .nil s, hs, hstep, hu, hrest⟩
    · obtain ⟨as₁, b, as₂, v, w, rfl, h₁, hv, hb, hw, h₂⟩ := ih hu ht
      exact ⟨a :: as₁, b, as₂, v, w, rfl, .cons hstep h₁, hv, hb, hw, h₂⟩

/-- A run of a system whose actions have a single outcome. -/
theorem run_of_foldl (f : σ → α → σ) (s : σ) (as : List α) :
    Run (fun s a t => t = f s a) s as (as.foldl f s) := by
  induction as generalizing s with
  | nil => exact .nil s
  | cons a as ih => exact .cons rfl (ih (f s a))

/-- The system of a partial function: an action has one outcome, or is not possible. -/
def Steps (f : σ → α → Option σ) : σ → α → σ → Prop := fun s a t => f s a = some t

/-- The state after a list of actions, each of which has to be possible. -/
def runAll (f : σ → α → Option σ) (s : σ) (as : List α) : Option σ := as.foldlM f s

theorem run_of_runAll {f : σ → α → Option σ} {s t : σ} {as : List α}
    (h : runAll f s as = some t) : Run (Steps f) s as t := by
  induction as generalizing s with
  | nil =>
    obtain rfl := Option.some.inj h
    exact .nil s
  | cons a as ih =>
    obtain ⟨u, hu, h⟩ := Option.bind_eq_some_iff.mp h
    exact .cons hu (ih h)

theorem runAll_of_run {f : σ → α → Option σ} {s t : σ} {as : List α} (h : Run (Steps f) s as t) :
    runAll f s as = some t := by
  induction h with
  | nil s => rfl
  | cons hstep _ ih => exact Option.bind_eq_some_iff.mpr ⟨_, hstep, ih⟩

end Runs
