/-
RcloneSync/SharedBudget.lean

Streams that are read into buffers side by side, with one bound for what the buffers hold
together.

Each stream has a reader.  It takes blocks, and under a lock that the readers share it adds a
block to its buffer if the sum of all buffers stays within the budget.  A reader that finds the
budget exceeded sets a flag and ends; a reader that fails notes its error, again under the lock,
and ends.  Nothing is said about the order of the steps of different readers.

`Inv` is what every step keeps.  From it: when all readers have ended and nothing is flagged, each
buffer is its stream (`Inv.complete`), and the flag for the budget is set only if the streams
exceed it.
-/
import Mathlib.Algebra.BigOperators.Group.Finset.Basic
import Mathlib.Algebra.Order.BigOperators.Group.Finset
import RcloneSync.Runs

namespace SharedBudget

open Runs Finset

variable {ι α ε : Type*}

/-! ### Readers and their steps -/

/-- Where a reader goes when it has left the lock. -/
inductive After (ε : Type*)
  | read
  | fail (e : ε)
  | close

/-- How far a reader has come; the step named is the next one. -/
inductive Phase (α ε : Type*)
  | start
  | read
  | lockFor (block : List α)
  | lockForError (e : ε)
  | measure (block : List α)
  | add (block : List α)
  | setOverflow
  | note (e : ε)
  | unlock (next : After ε)
  | close
  | dead

/-- The reader is inside the lock. -/
def Phase.holds : Phase α ε → Bool
  | .measure _ | .add _ | .setOverflow | .note _ | .unlock _ => true
  | .start | .read | .lockFor _ | .lockForError _ | .close | .dead => false

def After.phase : After ε → Phase α ε
  | .read => .read
  | .fail e => .lockForError e
  | .close => .close

/-- What is left of the streams, the buffers, the readers, the lock and the flags. -/
structure State (ι α ε : Type*) where
  left : ι → List α
  buffer : ι → List α
  phase : ι → Phase α ε
  lock : Option ι
  overflow : Bool
  errors : List ε

/-- A step of a reader: it takes a block of a length, it fails, or it does what comes next. -/
inductive Choice (ε : Type*)
  | take (n : Nat)
  | fail (e : ε)
  | go

section Step

variable [DecidableEq ι] [Fintype ι]

/-- What the buffers hold together. -/
def State.held (s : State ι α ε) : Nat := ∑ i, (s.buffer i).length

def State.setPhase (s : State ι α ε) (i : ι) (p : Phase α ε) : State ι α ε :=
  { s with phase := Function.update s.phase i p }

/-- A block from the front of what is left. -/
def State.take (blockSize : Nat) (s : State ι α ε) (i : ι) (n : Nat) : Option (State ι α ε) :=
  match s.phase i with
  | .read =>
    if 0 < n ∧ n ≤ blockSize ∧ n ≤ (s.left i).length then
      some { s.setPhase i (.lockFor ((s.left i).take n)) with
        left := Function.update s.left i ((s.left i).drop n) }
    else none
  | _ => none

/-- Reading fails, or adding to the buffer does. -/
def State.fail (s : State ι α ε) (i : ι) (e : ε) : Option (State ι α ε) :=
  match s.phase i with
  | .read => some (s.setPhase i (.lockForError e))
  | .add _ => some (s.setPhase i (.unlock (.fail e)))
  | _ => none

def State.go (budget : Nat) (s : State ι α ε) (i : ι) : Option (State ι α ε) :=
  match s.phase i with
  | .read => if (s.left i).isEmpty then some (s.setPhase i .close) else none
  | .lockFor block =>
    if s.lock.isNone then some { s.setPhase i (.measure block) with lock := some i } else none
  | .lockForError e =>
    if s.lock.isNone then some { s.setPhase i (.note e) with lock := some i } else none
  | .measure block =>
    some (s.setPhase i (if budget < s.held + block.length then .setOverflow else .add block))
  | .add block => some { s.setPhase i (.unlock .read) with
      buffer := Function.update s.buffer i (s.buffer i ++ block) }
  | .setOverflow => some { s.setPhase i (.unlock .close) with overflow := true }
  | .note e => some { s.setPhase i (.unlock .close) with errors := s.errors ++ [e] }
  | .unlock next => some { s.setPhase i next.phase with lock := none }
  | .close => some (s.setPhase i .dead)
  | .start | .dead => none

def State.step (budget blockSize : Nat) (s : State ι α ε) (i : ι) :
    Choice ε → Option (State ι α ε)
  | .take n => s.take blockSize i n
  | .fail e => s.fail i e
  | .go => s.go budget i

end Step

/-! ### What the steps keep -/

/-- Where the elements of a stream are, by the phase of its reader. -/
def Kept (budget total : Nat) (s : State ι α ε) (stream : List α) (i : ι) : Phase α ε → Prop
  | .start | .read | .unlock .read => s.buffer i ++ s.left i = stream
  | .lockFor block | .measure block | .add block => s.buffer i ++ (block ++ s.left i) = stream
  | .lockForError _ | .note _ | .unlock (.fail _) => True
  | .setOverflow => budget < total
  | .unlock .close | .close | .dead =>
    s.buffer i = stream ∨ s.overflow = true ∨ s.errors ≠ []

/-- The readers that do not move keep what they have. -/
theorem kept_of_same {s t : State ι α ε} {j : ι} {budget total : Nat} {p : Phase α ε}
    {xs : List α}
    (hbuffer : t.buffer j = s.buffer j) (hleft : t.left j = s.left j)
    (hoverflow : s.overflow = true → t.overflow = true) (herrors : s.errors ≠ [] → t.errors ≠ [])
    (h : Kept budget total s xs j p) : Kept budget total t xs j p := by
  have hended : s.buffer j = xs ∨ s.overflow = true ∨ s.errors ≠ [] →
      t.buffer j = xs ∨ t.overflow = true ∨ t.errors ≠ [] := by
    rw [hbuffer]
    exact Or.imp_right (Or.imp hoverflow herrors)
  cases p with
  | start | read =>
    show t.buffer j ++ t.left j = xs
    rw [hbuffer, hleft]
    exact h
  | lockFor block | measure block | add block =>
    show t.buffer j ++ (block ++ t.left j) = xs
    rw [hbuffer, hleft]
    exact h
  | lockForError e | note e => trivial
  | setOverflow => exact h
  | close | dead => exact hended h
  | unlock next =>
    cases next with
    | read =>
      show t.buffer j ++ t.left j = xs
      rw [hbuffer, hleft]
      exact h
    | fail e => trivial
    | close => exact hended h

section Invariant

variable [DecidableEq ι] [Fintype ι]

structure Inv (budget : Nat) (stream : ι → List α) (s : State ι α ε) : Prop where
  kept : ∀ i, Kept budget (∑ j, (stream j).length) s (stream i) i (s.phase i)
  front : ∀ i, s.buffer i <+: stream i
  inside : ∀ i, (s.phase i).holds = true → s.lock = some i
  within : s.held ≤ budget
  room : ∀ i block, s.phase i = .add block → s.held + block.length ≤ budget
  exceeded : s.overflow = true → budget < ∑ j, (stream j).length

variable {budget blockSize : Nat} {stream : ι → List α} {s t : State ι α ε}

theorem sum_length_append (f : ι → List α) (i : ι) (block : List α) :
    ∑ j, (Function.update f i (f i ++ block) j).length = ∑ j, (f j).length + block.length := by
  rw [← Finset.add_sum_erase _ _ (mem_univ i), ← Finset.add_sum_erase _ _ (mem_univ i),
    Function.update_self, List.length_append]
  have hrest : ∑ j ∈ univ.erase i, (Function.update f i (f i ++ block) j).length
      = ∑ j ∈ univ.erase i, (f j).length :=
    Finset.sum_congr rfl fun j hj => by rw [Function.update_of_ne (ne_of_mem_erase hj)]
  omega

/-- A block still belongs to its stream. -/
theorem held_add_le (h : Inv budget stream s) {i : ι} {block rest : List α}
    (hblock : s.buffer i ++ (block ++ rest) = stream i) :
    s.held + block.length ≤ ∑ j, (stream j).length := by
  unfold State.held
  rw [← sum_length_append]
  refine Finset.sum_le_sum fun j _ => ?_
  by_cases hj : j = i
  · subst hj
    rw [Function.update_self, ← hblock, ← List.append_assoc]
    exact (List.prefix_append _ _).length_le
  · rw [Function.update_of_ne hj]
    exact (h.front j).length_le

/-- A step of a reader that adds nothing. -/
theorem Inv.rephase (h : Inv budget stream s) {i : ι} {p : Phase α ε}
    (hbuffer : t.buffer = s.buffer) (hleft : ∀ j, j ≠ i → t.left j = s.left j)
    (hphase : t.phase = Function.update s.phase i p)
    (hoverflow : s.overflow = true → t.overflow = true) (herrors : s.errors ≠ [] → t.errors ≠ [])
    (hlock : t.lock = s.lock ∨ s.lock = none ∨ s.lock = some i)
    (hover : t.overflow = true → budget < ∑ j, (stream j).length)
    (hinside : p.holds = true → t.lock = some i)
    (hroom : ∀ block, p = .add block → s.held + block.length ≤ budget)
    (hkept : Kept budget (∑ j, (stream j).length) t (stream i) i p) :
    Inv budget stream t := by
  have hheld : t.held = s.held := by
    unfold State.held
    rw [hbuffer]
  have hself : t.phase i = p := by rw [hphase, Function.update_self]
  have hothers : ∀ j, j ≠ i → t.phase j = s.phase j := fun j hj => by
    rw [hphase, Function.update_of_ne hj]
  refine ⟨fun j => ?_, fun j => ?_, fun j hj => ?_, ?_, fun j block hj => ?_, hover⟩
  · by_cases hij : j = i
    · subst hij
      rw [hself]
      exact hkept
    · rw [hothers j hij]
      exact kept_of_same (congrFun hbuffer j) (hleft j hij) hoverflow herrors (h.kept j)
  · rw [hbuffer]
    exact h.front j
  · by_cases hij : j = i
    · subst hij
      exact hinside (hself ▸ hj)
    · -- another reader is inside the lock, so the lock is not this reader's
      have hsame := h.inside j (hothers j hij ▸ hj)
      rcases hlock with hlock | hlock | hlock
      · exact hlock.trans hsame
      · cases hlock.symm.trans hsame
      · exact absurd (Option.some.inj (hsame.symm.trans hlock)) hij
  · rw [hheld]
    exact h.within
  · rw [hheld]
    by_cases hij : j = i
    · subst hij
      exact hroom block (hself.symm.trans hj)
    · exact h.room j block ((hothers j hij).symm.trans hj)

/-- A block is added. -/
theorem Inv.add (h : Inv budget stream s) {i : ι} {block : List α} (hi : s.phase i = .add block) :
    Inv budget stream { s.setPhase i (.unlock .read) with
      buffer := Function.update s.buffer i (s.buffer i ++ block) } := by
  have hkept : s.buffer i ++ (block ++ s.left i) = stream i := by
    have hkept := h.kept i
    rw [hi] at hkept
    exact hkept
  have hlock : s.lock = some i := h.inside i (by rw [hi]; rfl)
  have hheld : (∑ j, (Function.update s.buffer i (s.buffer i ++ block) j).length) =
      s.held + block.length := sum_length_append s.buffer i block
  refine ⟨fun j => ?_, fun j => ?_, fun j hj => ?_, ?_, fun j b hj => ?_, h.exceeded⟩
  · by_cases hij : j = i
    · subst hij
      show Kept _ _ _ _ _ (Function.update s.phase j _ j)
      rw [Function.update_self]
      show Function.update s.buffer j _ j ++ s.left j = stream j
      rw [Function.update_self, List.append_assoc]
      exact hkept
    · show Kept _ _ _ _ _ (Function.update s.phase i _ j)
      rw [Function.update_of_ne hij]
      exact kept_of_same (Function.update_of_ne hij _ _) rfl id id (h.kept j)
  · show Function.update s.buffer i _ j <+: stream j
    by_cases hij : j = i
    · subst hij
      rw [Function.update_self, ← hkept, ← List.append_assoc]
      exact List.prefix_append _ _
    · rw [Function.update_of_ne hij]
      exact h.front j
  · by_cases hij : j = i
    · subst hij
      exact hlock
    · have hj : (Function.update s.phase i _ j).holds = true := hj
      rw [Function.update_of_ne hij] at hj
      exact h.inside j hj
  · show ∑ j, (Function.update s.buffer i _ j).length ≤ budget
    rw [hheld]
    exact h.room i block hi
  · have hj : Function.update s.phase i _ j = .add b := hj
    by_cases hij : j = i
    · subst hij
      rw [Function.update_self] at hj
      cases hj
    · rw [Function.update_of_ne hij] at hj
      have hsame := h.inside j (by rw [hj]; rfl)
      exact absurd (Option.some.inj (hsame.symm.trans hlock)) hij

theorem Inv.take {i : ι} {n : Nat} (h : Inv budget stream s)
    (ht : s.take blockSize i n = some t) : Inv budget stream t := by
  unfold State.take at ht
  split at ht
  case h_1 hi =>
    obtain ⟨-, ht⟩ := Option.ite_none_right_eq_some.mp ht
    obtain rfl := Option.some.inj ht
    have hkept := h.kept i
    rw [hi] at hkept
    refine h.rephase rfl (fun j hj => Function.update_of_ne hj _ _) rfl id id (.inl rfl) h.exceeded
      (fun h => by cases h) (fun _ h => by cases h) ?_
    show s.buffer i ++ (_ ++ Function.update s.left i _ i) = stream i
    rw [Function.update_self, List.take_append_drop]
    exact hkept
  case h_2 => cases ht

theorem Inv.fail {i : ι} {e : ε} (h : Inv budget stream s) (ht : s.fail i e = some t) :
    Inv budget stream t := by
  unfold State.fail at ht
  split at ht
  case h_1 hi =>
    obtain rfl := Option.some.inj ht
    exact h.rephase rfl (fun _ _ => rfl) rfl id id (.inl rfl) h.exceeded (fun h => by cases h)
      (fun _ h => by cases h) trivial
  case h_2 hi =>
    obtain rfl := Option.some.inj ht
    exact h.rephase rfl (fun _ _ => rfl) rfl id id (.inl rfl) h.exceeded
      (fun _ => h.inside i (by rw [hi]; rfl)) (fun _ h => by cases h) trivial
  case h_3 => cases ht

theorem Inv.go {i : ι} (h : Inv budget stream s) (ht : s.go budget i = some t) :
    Inv budget stream t := by
  have hkept := h.kept i
  unfold State.go at ht
  split at ht
  case h_1 hi =>
    -- the end of the stream
    obtain ⟨hempty, ht⟩ := Option.ite_none_right_eq_some.mp ht
    obtain rfl := Option.some.inj ht
    rw [hi] at hkept
    refine h.rephase rfl (fun _ _ => rfl) rfl id id (.inl rfl) h.exceeded (fun h => by cases h)
      (fun _ h => by cases h) (.inl ?_)
    have hkept : s.buffer i ++ s.left i = stream i := hkept
    rwa [List.isEmpty_iff.mp hempty, List.append_nil] at hkept
  case h_2 block hi =>
    obtain ⟨hfree, ht⟩ := Option.ite_none_right_eq_some.mp ht
    obtain rfl := Option.some.inj ht
    rw [hi] at hkept
    exact h.rephase rfl (fun _ _ => rfl) rfl id id
      (.inr (.inl (Option.isNone_iff_eq_none.mp hfree))) h.exceeded (fun _ => rfl)
      (fun _ h => by cases h) hkept
  case h_3 e hi =>
    obtain ⟨hfree, ht⟩ := Option.ite_none_right_eq_some.mp ht
    obtain rfl := Option.some.inj ht
    exact h.rephase rfl (fun _ _ => rfl) rfl id id
      (.inr (.inl (Option.isNone_iff_eq_none.mp hfree))) h.exceeded (fun _ => rfl)
      (fun _ h => by cases h) trivial
  case h_4 block hi =>
    obtain rfl := Option.some.inj ht
    have hinside : s.lock = some i := h.inside i (by rw [hi]; rfl)
    rw [hi] at hkept
    by_cases hover : budget < s.held + block.length
    · rw [if_pos hover]
      exact h.rephase rfl (fun _ _ => rfl) rfl id id (.inl rfl) h.exceeded (fun _ => hinside)
        (fun _ h => by cases h) (hover.trans_le (held_add_le h hkept))
    · rw [if_neg hover]
      refine h.rephase rfl (fun _ _ => rfl) rfl id id (.inl rfl) h.exceeded (fun _ => hinside)
        (fun b hb => ?_) hkept
      obtain rfl := Phase.add.inj hb
      exact not_lt.mp hover
  case h_5 block hi =>
    obtain rfl := Option.some.inj ht
    exact h.add hi
  case h_6 hi =>
    obtain rfl := Option.some.inj ht
    have hinside : s.lock = some i := h.inside i (by rw [hi]; rfl)
    rw [hi] at hkept
    exact h.rephase rfl (fun _ _ => rfl) rfl (fun _ => rfl) id (.inl rfl) (fun _ => hkept)
      (fun _ => hinside) (fun _ h => by cases h) (.inr (.inl rfl))
  case h_7 e hi =>
    obtain rfl := Option.some.inj ht
    have hinside : s.lock = some i := h.inside i (by rw [hi]; rfl)
    have hnoted : s.errors ++ [e] ≠ [] := by simp
    exact h.rephase rfl (fun _ _ => rfl) rfl id (fun _ => hnoted) (.inl rfl) h.exceeded
      (fun _ => hinside) (fun _ h => by cases h) (.inr (.inr hnoted))
  case h_8 next hi =>
    obtain rfl := Option.some.inj ht
    have hinside : s.lock = some i := h.inside i (by rw [hi]; rfl)
    rw [hi] at hkept
    refine h.rephase rfl (fun _ _ => rfl) rfl id id (.inr (.inr hinside)) h.exceeded (fun h => ?_)
      (fun _ h => ?_) ?_
    · cases next <;> cases h
    · cases next <;> cases h
    · cases next with
      | read => exact hkept
      | fail e => trivial
      | close => exact hkept
  case h_9 hi =>
    obtain rfl := Option.some.inj ht
    rw [hi] at hkept
    exact h.rephase rfl (fun _ _ => rfl) rfl id id (.inl rfl) h.exceeded (fun h => by cases h)
      (fun _ h => by cases h) hkept
  case h_10 => cases ht
  case h_11 => cases ht

/-- **The step.** -/
theorem Inv.step {i : ι} {c : Choice ε} (h : Inv budget stream s)
    (ht : s.step budget blockSize i c = some t) : Inv budget stream t := by
  cases c with
  | take n => exact h.take ht
  | fail e => exact h.fail ht
  | go => exact h.go ht

omit [DecidableEq ι] in
/-- **All readers have ended and nothing is flagged**: the buffers are the streams, within the
budget. -/
theorem Inv.complete (h : Inv budget stream s) (hdead : ∀ i, s.phase i = .dead)
    (hoverflow : s.overflow = false) (herrors : s.errors = []) :
    s.buffer = stream ∧ ∑ i, (stream i).length ≤ budget := by
  have hbuffer : s.buffer = stream := by
    funext i
    have hkept := h.kept i
    rw [hdead i] at hkept
    rcases hkept with hkept | hover | hnoted
    · exact hkept
    · rw [hoverflow] at hover
      cases hover
    · exact absurd herrors hnoted
  refine ⟨hbuffer, ?_⟩
  rw [← hbuffer]
  exact h.within

/-! ### The end of a reader -/

/-- A reader that has ended takes no step. -/
theorem step_ne_of_dead {i : ι} {c : Choice ε} (h : s.step budget blockSize i c = some t) :
    s.phase i ≠ .dead := by
  intro hdead
  cases c with
  | take n | fail e | go => simp [State.step, State.take, State.fail, State.go, hdead] at h

/-- A step moves its own reader, to a phase that is not the first one. -/
theorem phase_step {i : ι} {c : Choice ε} (h : s.step budget blockSize i c = some t) :
    ∃ p, t.phase = Function.update s.phase i p ∧ p ≠ .start := by
  cases c with
  | take n =>
    change s.take blockSize i n = some t at h
    unfold State.take at h
    split at h
    · obtain ⟨-, h⟩ := Option.ite_none_right_eq_some.mp h
      obtain rfl := Option.some.inj h
      exact ⟨_, rfl, nofun⟩
    · cases h
  | fail e =>
    change s.fail i e = some t at h
    unfold State.fail at h
    split at h
    · obtain rfl := Option.some.inj h
      exact ⟨_, rfl, nofun⟩
    · obtain rfl := Option.some.inj h
      exact ⟨_, rfl, nofun⟩
    · cases h
  | go =>
    change s.go budget i = some t at h
    unfold State.go at h
    split at h
    case h_10 | h_11 => cases h
    case h_1 | h_2 | h_3 =>
      obtain ⟨-, h⟩ := Option.ite_none_right_eq_some.mp h
      obtain rfl := Option.some.inj h
      exact ⟨_, rfl, nofun⟩
    case h_4 block hi =>
      obtain rfl := Option.some.inj h
      refine ⟨_, rfl, ?_⟩
      split <;> exact nofun
    case h_8 next hi =>
      obtain rfl := Option.some.inj h
      refine ⟨_, rfl, ?_⟩
      cases next <;> exact nofun
    all_goals
      obtain rfl := Option.some.inj h
      exact ⟨_, rfl, nofun⟩

/-- A reader that has ended has ended for good. -/
theorem dead_step {i j : ι} {c : Choice ε} (hj : s.phase j = .dead)
    (h : s.step budget blockSize i c = some t) : t.phase j = .dead := by
  obtain ⟨p, hp, -⟩ := phase_step h
  have hij : j ≠ i := by
    rintro rfl
    exact step_ne_of_dead h hj
  rw [hp, Function.update_of_ne hij]
  exact hj

theorem started_step {i j : ι} {c : Choice ε} (hj : s.phase j ≠ .start)
    (h : s.step budget blockSize i c = some t) : t.phase j ≠ .start := by
  obtain ⟨p, hp, hstart⟩ := phase_step h
  rw [hp]
  by_cases hij : j = i
  · rwa [hij, Function.update_self]
  · rwa [Function.update_of_ne hij]

/-- A reader that has not been started takes no step. -/
theorem start_step {i j : ι} {c : Choice ε} (hj : s.phase j = .start)
    (h : s.step budget blockSize i c = some t) : t.phase j = .start := by
  obtain ⟨p, hp, -⟩ := phase_step h
  have hij : j ≠ i := by
    rintro rfl
    cases c <;> simp [State.step, State.take, State.fail, State.go, hj] at h
  rw [hp, Function.update_of_ne hij]
  exact hj

/-- The start of a reader. -/
theorem Inv.start {i : ι} (h : Inv budget stream s) (hi : s.phase i = .start) :
    Inv budget stream (s.setPhase i .read) := by
  have hkept := h.kept i
  rw [hi] at hkept
  exact h.rephase rfl (fun _ _ => rfl) rfl id id (.inl rfl) h.exceeded (fun h => by cases h)
    (fun _ h => by cases h) hkept

/-- Nothing has been read. -/
def State.init (stream : ι → List α) : State ι α ε :=
  ⟨stream, fun _ => [], fun _ => .start, none, false, []⟩

omit [DecidableEq ι] in
theorem Inv.init (budget : Nat) (stream : ι → List α) :
    Inv budget stream (State.init stream : State ι α ε) where
  kept _ := rfl
  front _ := List.nil_prefix
  inside _ h := by cases h
  within := by simp [State.held, State.init]
  room _ _ h := by cases h
  exceeded h := by cases h

end Invariant

end SharedBudget
