/-
RcloneSync/Leases.lean

Work that is leased.

A piece of work is idle, held by an owner, done, or gone.  An idle piece is claimed, a held
one is finished by its owner, for good or to be tried again; besides, a lease may lapse, an
idle or held piece may expire, and any piece may be dropped.  Claims and finishes are seen
by the owners (`Event.visible`); the other events happen in between.

The rules are those of `Step`, and everything is read off its runs: a held piece was last
claimed by its owner (`held_run`), a finish follows a claim of the same owner
(`finish_owned`), two finishes are separated by a claim (`finishes_separated`), and nothing
is seen of work that is done or gone (`closed_run`).
-/
import RcloneSync.Runs
import Mathlib.Data.List.Basic

namespace Leases

open Runs

variable {ω : Type*}

inductive Lease (ω : Type*)
  | unborn | idle | held (owner : ω) | done | gone
  deriving DecidableEq

inductive Event (ω : Type*)
  | claim (owner : ω)
  | finish (owner : ω) (again : Bool)
  | create | lapse | expire | drop
  deriving DecidableEq

/-- Claims and finishes. -/
def Event.visible : Event ω → Bool
  | .claim _ => true
  | .finish _ _ => true
  | _ => false

/-- The life of a piece of work. -/
inductive Step : Lease ω → Event ω → Lease ω → Prop
  | create : Step .unborn .create .idle
  | claim (o : ω) : Step .idle (.claim o) (.held o)
  | again (o : ω) : Step (.held o) (.finish o true) .idle
  | close (o : ω) : Step (.held o) (.finish o false) .done
  | lapse (o : ω) : Step (.held o) .lapse .idle
  | expireIdle : Step .idle .expire .done
  | expireHeld (o : ω) : Step (.held o) .expire .done
  | drop {s : Lease ω} (h : s ≠ .unborn) : Step s .drop .gone

/-- Some events lead from one stage to the other, and these of them are seen. -/
def Moves (s : Lease ω) (seen : List (Event ω)) (t : Lease ω) : Prop :=
  ∃ events, Run Step s events t ∧ events.filter Event.visible = seen

theorem Moves.refl (s : Lease ω) : Moves s [] s := ⟨[], .nil s, rfl⟩

theorem Moves.one {s t : Lease ω} {ev : Event ω} (h : Step s ev t) :
    Moves s ([ev].filter Event.visible) t :=
  ⟨[ev], .cons h (.nil t), rfl⟩

theorem Moves.trans {s t u : Lease ω} {seen seen' : List (Event ω)} (h₁ : Moves s seen t)
    (h₂ : Moves t seen' u) : Moves s (seen ++ seen') u := by
  obtain ⟨events, hrun, rfl⟩ := h₁
  obtain ⟨events', hrun', rfl⟩ := h₂
  exact ⟨events ++ events', hrun.append hrun', List.filter_append ..⟩

/-- A held piece was last claimed by its owner. -/
theorem held_run {s t : Lease ω} {events : List (Event ω)} {o : ω} (h : Run Step s events t)
    (ht : t = .held o) :
    (events.filter Event.visible).getLast? = some (.claim o) ∨
      (events.filter Event.visible = [] ∧ s = .held o) := by
  induction h with
  | nil s => exact Or.inr ⟨rfl, ht⟩
  | @cons s u t ev events hstep hrest ih =>
    rcases ih ht with hlast | ⟨hnone, hu⟩
    · left
      by_cases hev : ev.visible = true
      · rw [List.filter_cons_of_pos hev, List.getLast?_cons, hlast]
        rfl
      · rw [List.filter_cons_of_neg hev, hlast]
    · subst hu
      cases hstep
      left
      rw [List.filter_cons_of_pos (by rfl), hnone]
      rfl

/-- Nothing is seen of work that is done or gone, and it stays so. -/
theorem closed_run {s t : Lease ω} {events : List (Event ω)} (h : Run Step s events t)
    (hs : s = .done ∨ s = .gone) :
    events.filter Event.visible = [] ∧ (t = .done ∨ t = .gone) := by
  induction h with
  | nil s => exact ⟨rfl, hs⟩
  | cons hstep hrest ih =>
    rcases hs with rfl | rfl
    · cases hstep with
      | drop _ => exact ih (Or.inr rfl)
    · cases hstep with
      | drop _ => exact ih (Or.inr rfl)

theorem gone_run {t : Lease ω} {events : List (Event ω)} (h : Run Step .gone events t) :
    t = .gone := by
  refine h.preserves (fun s => s = .gone) (fun s ev u hs hstep => ?_) rfl
  subst hs
  cases hstep
  rfl

/-- Nothing has happened to work that is not born yet. -/
theorem unborn_run {s t : Lease ω} {events : List (Event ω)} (h : Run Step s events t)
    (ht : t = .unborn) : events = [] := by
  induction h with
  | nil s => rfl
  | cons hstep hrest ih =>
    subst ht
    obtain rfl := ih rfl
    cases hrest
    cases hstep

/-- A run is cut where it is seen to do something. -/
theorem cut {s t : Lease ω} {seen post : List (Event ω)} {ev : Event ω}
    (h : Moves s (seen ++ ev :: post) t) :
    ∃ u v, Moves s seen u ∧ Step u ev v ∧ Moves v post t := by
  obtain ⟨events, hrun, hseen⟩ := h
  obtain ⟨before, rest, rfl, hbefore, hrest⟩ := List.filter_eq_append_iff.mp hseen
  obtain ⟨quiet, after, rfl, hquiet, -, hafter⟩ := List.filter_eq_cons_iff.mp hrest
  obtain ⟨m, hfirst, hsecond⟩ := hrun.split
  obtain ⟨u, hquietrun, hlast⟩ := hsecond.split
  cases hlast with
  | cons hstep hpost =>
    have hnone : quiet.filter Event.visible = [] :=
      List.filter_eq_nil_iff.mpr fun q hq => hquiet q hq
    refine ⟨u, _, ⟨before ++ quiet, hfirst.append hquietrun, ?_⟩, hstep, after, hpost, hafter⟩
    rw [List.filter_append, hbefore, hnone, List.append_nil]

/-- **Only the owner finishes**: a finish follows a claim of the same owner. -/
theorem finish_owned {s t : Lease ω} {pre post : List (Event ω)} {o : ω} {again : Bool}
    (h : Moves s (pre ++ .finish o again :: post) t) (hs : ∀ o, s ≠ .held o) :
    pre.getLast? = some (.claim o) := by
  obtain ⟨u, v, ⟨events, hrun, rfl⟩, hstep, -⟩ := cut h
  have hheld : u = .held o := by
    cases hstep with
    | again => rfl
    | close => rfl
  subst hheld
  rcases held_run hrun rfl with hlast | ⟨-, hheld⟩
  · exact hlast
  · exact absurd hheld (hs o)

/-- **Two finishes are separated by a claim.** -/
theorem finishes_separated {s t : Lease ω} {pre mid post : List (Event ω)} {o o' : ω}
    {again again' : Bool}
    (h : Moves s (pre ++ .finish o again :: (mid ++ .finish o' again' :: post)) t) :
    mid.getLast? = some (.claim o') := by
  obtain ⟨u, v, -, hstep, hrest⟩ := cut h
  refine finish_owned hrest fun o hv => ?_
  subst hv
  cases hstep

end Leases
