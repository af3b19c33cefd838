/-
RcloneSync/ArgScan.lean

Reading an argument vector from left to right.  Some tokens are flags that take
the next token as their value (`takes`); everything else stands alone.  A reading
cuts the vector into slots, one for each token in flag position:

    slots takes (a :: b :: rest) = valued a b :: slots takes rest    if takes a
    slots takes (a :: rest)      = alone a :: slots takes rest       otherwise

A vector is `pending` when its last token is a flag still waiting for its value.
That is the only way two vectors can interfere when they are joined: without it
the readings of the parts are the reading of the whole (`slots_append`), with it
the first token of the second part becomes a value (`slots_append_pending`).

`keepLast` drops every slot whose key occurs again later, which is how repeated
options are reduced to their last setting.
-/
import Mathlib.Data.List.Basic
import Mathlib.Data.List.Flatten

namespace ArgScan

variable {α κ : Type*}

/-- A token in flag position, alone or together with its value. -/
inductive Slot (α : Type*)
  | alone (a : α)
  | valued (a b : α)
  deriving DecidableEq, Repr

/-- The token in flag position. -/
def Slot.head : Slot α → α
  | .alone a => a
  | .valued a _ => a

/-- The tokens of a slot, in order. -/
def Slot.tokens : Slot α → List α
  | .alone a => [a]
  | .valued a b => [a, b]

/-- All tokens of a list of slots. -/
def tokensOf (ss : List (Slot α)) : List α := ss.flatMap Slot.tokens

/-- The reading of a vector. -/
def slots (takes : α → Bool) : List α → List (Slot α)
  | [] => []
  | a :: rest =>
    if takes a then
      match rest with
      | [] => [.alone a]
      | b :: rest' => .valued a b :: slots takes rest'
    else .alone a :: slots takes rest

/-- The last token is a flag that waits for its value. -/
def pending (takes : α → Bool) : List α → Bool
  | [] => false
  | a :: rest =>
    if takes a then
      match rest with
      | [] => true
      | _ :: rest' => pending takes rest'
    else pending takes rest

/-- The tokens in flag position. -/
def flagTokens (takes : α → Bool) (xs : List α) : List α := (slots takes xs).map Slot.head

section Reading

variable {takes : α → Bool}

@[simp] theorem tokensOf_nil : tokensOf ([] : List (Slot α)) = [] := rfl

@[simp] theorem tokensOf_cons (s : Slot α) (ss : List (Slot α)) :
    tokensOf (s :: ss) = s.tokens ++ tokensOf ss := rfl

@[simp] theorem tokensOf_append (ss ts : List (Slot α)) :
    tokensOf (ss ++ ts) = tokensOf ss ++ tokensOf ts := by
  simp [tokensOf]

@[simp] theorem slots_nil : slots takes [] = [] := rfl

@[simp] theorem pending_nil : pending takes [] = false := rfl

theorem slots_cons_alone {a : α} (h : takes a = false) (rest : List α) :
    slots takes (a :: rest) = .alone a :: slots takes rest := by
  cases rest <;> simp [slots, h]

theorem slots_cons_valued {a : α} (h : takes a = true) (b : α) (rest : List α) :
    slots takes (a :: b :: rest) = .valued a b :: slots takes rest := by
  simp [slots, h]

theorem pending_cons_alone {a : α} (h : takes a = false) (rest : List α) :
    pending takes (a :: rest) = pending takes rest := by
  cases rest <;> simp [pending, h]

theorem pending_cons_valued {a : α} (h : takes a = true) (b : α) (rest : List α) :
    pending takes (a :: b :: rest) = pending takes rest := by
  simp [pending, h]

/-- A reading loses no token. -/
@[simp] theorem tokensOf_slots (xs : List α) : tokensOf (slots takes xs) = xs := by
  fun_induction slots takes xs with
  | case1 => rfl
  | case2 a h => rfl
  | case3 a h b rest ih => simp [ih, Slot.tokens]
  | case4 a rest h ih => simp [ih, Slot.tokens]

/-- A waiting flag is the last token, and nothing before it waits. -/
theorem pending_eq_true {xs : List α} (h : pending takes xs = true) :
    ∃ ys a, xs = ys ++ [a] ∧ takes a = true ∧ pending takes ys = false := by
  fun_induction pending takes xs with
  | case1 => simp at h
  | case2 a ha => exact ⟨[], a, rfl, ha, rfl⟩
  | case3 a ha b rest ih =>
    obtain ⟨ys, c, hrest, hc, hys⟩ := ih h
    exact ⟨a :: b :: ys, c, by simp [hrest], hc, by rw [pending_cons_valued ha, hys]⟩
  | case4 a rest ha ih =>
    obtain ⟨ys, c, hrest, hc, hys⟩ := ih h
    exact ⟨a :: ys, c, by simp [hrest], hc,
      by rw [pending_cons_alone (by simpa using ha), hys]⟩

/-- Readings compose when nothing waits in between. -/
theorem slots_append {xs : List α} (h : pending takes xs = false) (ys : List α) :
    slots takes (xs ++ ys) = slots takes xs ++ slots takes ys := by
  fun_induction pending takes xs with
  | case1 => rfl
  | case2 a ha => simp at h
  | case3 a ha b rest ih => simp [slots_cons_valued ha, ih h]
  | case4 a rest ha ih =>
    have ha' : takes a = false := by simpa using ha
    simp [slots_cons_alone ha', ih h]

/-- A waiting flag takes the first token of what follows. -/
theorem slots_append_pending {xs : List α} {a : α} (h : pending takes xs = false)
    (ha : takes a = true) (b : α) (ys : List α) :
    slots takes (xs ++ [a] ++ b :: ys) = slots takes xs ++ .valued a b :: slots takes ys := by
  rw [List.append_assoc, slots_append h]
  simp [slots_cons_valued ha]

theorem pending_append {xs : List α} (h : pending takes xs = false) (ys : List α) :
    pending takes (xs ++ ys) = pending takes ys := by
  fun_induction pending takes xs with
  | case1 => rfl
  | case2 a ha => simp at h
  | case3 a ha b rest ih => simp [pending_cons_valued ha, ih h]
  | case4 a rest ha ih =>
    have ha' : takes a = false := by simpa using ha
    simp [pending_cons_alone ha', ih h]

/-- A vector whose last token takes no value does not wait. -/
theorem pending_concat {a : α} (h : takes a = false) (xs : List α) :
    pending takes (xs ++ [a]) = false := by
  by_contra hp
  obtain ⟨ys, b, hxs, hb, -⟩ := pending_eq_true (Bool.not_eq_false _ ▸ hp)
  obtain ⟨-, hab⟩ := List.append_inj' hxs rfl
  rw [List.cons.inj hab |>.1, hb] at h
  cases h

theorem flagTokens_append {xs : List α} (h : pending takes xs = false) (ys : List α) :
    flagTokens takes (xs ++ ys) = flagTokens takes xs ++ flagTokens takes ys := by
  simp [flagTokens, slots_append h]

theorem flagTokens_subset {xs : List α} {a : α} (h : a ∈ flagTokens takes xs) : a ∈ xs := by
  obtain ⟨s, hs, rfl⟩ := List.mem_map.mp h
  have : s.head ∈ tokensOf (slots takes xs) :=
    List.mem_flatMap.mpr ⟨s, hs, by cases s <;> simp [Slot.head, Slot.tokens]⟩
  simpa using this

/-- A token that occurs once is in flag position exactly when nothing before it waits. -/
theorem mem_flagTokens_middle {xs ys : List α} {a : α} (hx : a ∉ xs) (hy : a ∉ ys)
    (ha : takes a = false) :
    a ∈ flagTokens takes (xs ++ a :: ys) ↔ pending takes xs = false := by
  constructor
  · intro h
    by_contra hp
    obtain ⟨zs, b, rfl, hb, hzs⟩ := pending_eq_true (Bool.not_eq_false _ ▸ hp)
    simp only [flagTokens, slots_append_pending hzs hb, List.map_append, List.map_cons,
      List.mem_append, List.mem_cons] at h
    rcases h with h | h | h
    · exact hx (List.mem_append_left _ (flagTokens_subset h))
    · exact hx (by simp [h, Slot.head])
    · exact hy (flagTokens_subset h)
  · intro hp
    rw [flagTokens, slots_append hp, slots_cons_alone ha]
    simp [Slot.head]

end Reading

/-! ### Keeping the last slot of a key -/

section KeepLast

variable {β : Type*} [DecidableEq κ] (key : β → Option κ)

/-- Some later element carries the same key. -/
def overridden (c : β) (later : List β) : Bool :=
  (key c).isSome && later.any fun d => decide (key d = key c)

/-- Drop every element whose key occurs again later. -/
def keepLast : List β → List β
  | [] => []
  | c :: cs => if overridden key c cs then keepLast cs else c :: keepLast cs

variable {key}

theorem overridden_append (c : β) (xs ys : List β) :
    overridden key c (xs ++ ys) = (overridden key c xs || overridden key c ys) := by
  simp [overridden, Bool.and_or_distrib_left]

theorem overridden_eq_false_of_none {c : β} (h : key c = none) (later : List β) :
    overridden key c later = false := by
  simp [overridden, h]

theorem keepLast_sublist (xs : List β) : (keepLast key xs).Sublist xs := by
  induction xs with
  | nil => exact List.Sublist.refl _
  | cons c cs ih =>
    unfold keepLast
    split
    · exact ih.cons _
    · exact ih.cons_cons _

/-- What a later part leaves of an earlier one. -/
theorem keepLast_append (xs ys : List β) :
    keepLast key (xs ++ ys)
      = (keepLast key xs).filter (fun c => !overridden key c ys) ++ keepLast key ys := by
  induction xs with
  | nil => rfl
  | cons c cs ih =>
    rw [List.cons_append, keepLast, keepLast, overridden_append, ih]
    rcases h₁ : overridden key c cs with - | - <;> rcases h₂ : overridden key c ys with - | - <;>
      simp [h₂]

end KeepLast

end ArgScan
