/-
RcloneSync/FirstMatch.lean

Ordered include and exclude rules under first-match semantics.  A rule list decides
about an item by its first matching rule; without one the item is included.  Rules
in front therefore cannot be overruled by what follows, whatever it is
(`not_included_of_leading`).

A reset in the list throws away everything before it, so only the rules after the
last reset are active (`activeRules`).
-/
import Mathlib.Data.List.Basic

namespace FirstMatch

variable {π χ : Type*}

/-- One line of a rule list. -/
inductive Rule (π : Type*)
  | incl (pattern : π)
  | excl (pattern : π)
  | reset
  deriving DecidableEq, Repr

/-- The rules after the last reset. -/
def activeRules : List (Rule π) → List (Rule π)
  | [] => []
  | .reset :: rest => activeRules rest
  | r :: rest => if rest.any (fun | .reset => true | _ => false) then activeRules rest else r :: rest

/-- The decision of the first matching rule. -/
def verdict (hit : π → χ → Bool) : List (Rule π) → χ → Option Bool
  | [], _ => none
  | .incl p :: rest, x => if hit p x then some true else verdict hit rest x
  | .excl p :: rest, x => if hit p x then some false else verdict hit rest x
  | .reset :: rest, x => verdict hit rest x

/-- What a rule list lets through. -/
def included (hit : π → χ → Bool) (rules : List (Rule π)) (x : χ) : Bool :=
  (verdict hit (activeRules rules) x).getD true

theorem activeRules_of_no_reset {rules : List (Rule π)} (h : Rule.reset ∉ rules) :
    activeRules rules = rules := by
  rcases rules with - | ⟨r, rest⟩
  · rfl
  · have hrest : rest.any (fun | .reset => true | _ => false) = false := by
      rw [List.any_eq_false]
      intro s hs
      cases s with
      | reset => exact absurd (List.mem_cons_of_mem _ hs) h
      | incl p => simp
      | excl p => simp
    cases r with
    | reset => simp at h
    | incl p => simp [activeRules, hrest]
    | excl p => simp [activeRules, hrest]

/-- Leading excludes decide about everything they match. -/
theorem verdict_of_leading {hit : π → χ → Bool} {x : χ} :
    ∀ {leading : List π} (rest : List (Rule π)), (∃ p ∈ leading, hit p x = true) →
      verdict hit (leading.map .excl ++ rest) x = some false
  | [], _, h => by simp at h
  | p :: leading, rest, h => by
    rcases hp : hit p x with - | -
    · have h' : ∃ q ∈ leading, hit q x = true := by
        obtain ⟨q, hq, hx⟩ := h
        rcases List.mem_cons.mp hq with rfl | hq
        · simp [hp] at hx
        · exact ⟨q, hq, hx⟩
      simp [verdict, hp, verdict_of_leading rest h']
    · simp [verdict, hp]

/-- Whatever follows, an item matched by a leading exclude is not included. -/
theorem not_included_of_leading {hit : π → χ → Bool} {x : χ} {leading : List π}
    {rest : List (Rule π)} (hreset : Rule.reset ∉ rest) (h : ∃ p ∈ leading, hit p x = true) :
    included hit (leading.map .excl ++ rest) x = false := by
  have hno : Rule.reset ∉ leading.map Rule.excl ++ rest := by
    simp [hreset]
  rw [included, activeRules_of_no_reset hno, verdict_of_leading rest h]
  rfl

theorem verdict_append {hit : π → χ → Bool} {x : χ} (a b : List (Rule π)) :
    verdict hit (a ++ b) x = (verdict hit a x).or (verdict hit b x) := by
  induction a with
  | nil => rfl
  | cons r a ih =>
    cases r with
    | reset => exact ih
    | incl p =>
      rw [List.cons_append, verdict, verdict]
      split_ifs
      · rfl
      · exact ih
    | excl p =>
      rw [List.cons_append, verdict, verdict]
      split_ifs
      · rfl
      · exact ih

/-- A list of excludes. -/
theorem verdict_excl {hit : π → χ → Bool} {x : χ} (ps : List π) :
    verdict hit (ps.map .excl) x = if ps.any (hit · x) then some false else none := by
  induction ps with
  | nil => rfl
  | cons p ps ih =>
    rw [List.map_cons, verdict, ih, List.any_cons]
    cases hit p x with
    | true => rfl
    | false => rfl

/-- A list of includes. -/
theorem verdict_incl {hit : π → χ → Bool} {x : χ} (ps : List π) :
    verdict hit (ps.map .incl) x = if ps.any (hit · x) then some true else none := by
  induction ps with
  | nil => rfl
  | cons p ps ih =>
    rw [List.map_cons, verdict, ih, List.any_cons]
    cases hit p x with
    | true => rfl
    | false => rfl

end FirstMatch
