/-
RcloneSync/PreservedSecrets.lean

Which secret comes back to which field, when the interface sends an edited configuration.

An edit says for each value of the new configuration where it comes from: it is put in by the
user, or it is kept, or it is a list of elements, each from some position of the old list, or a
mapping with fields of the old one.  So a placeholder of the submission belongs to one stored
secret.  `_preserve_sensitive` does not know the edit.  It finds the secret at the path of the
placeholder, and that is another one, or none, if elements in front of it were added, removed or
moved.

Main result (`secrets_kept_iff`): an edit brings all its secrets back, and leaves no placeholder,
only if each of them is stored at the path at which the submission has it; this is also enough
exactly if no stored secret is the text of the placeholder; and the configuration comes back
unchanged exactly if it has the fields and sections that the function adds.
-/
import RcloneSync.ConfigRedaction

namespace RcloneSync

open Py

/-! ### Paths -/

inductive PathStep
  | key (name : String)
  | index (n : Nat)
  deriving DecidableEq, Repr

/-- The value at a path. -/
def valueAt : Value → List PathStep → Option Value
  | v, [] => some v
  | .dict d, .key k :: p => (d.lookup k).bind fun v => valueAt v p
  | .list xs, .index n :: p => xs[n]?.bind fun v => valueAt v p
  | _, _ :: _ => none

/-- The path leads to a field with a secret name. -/
def EndsSecret (p : List PathStep) : Prop := ∃ k, p.getLast? = some (.key k) ∧ isSecretKey k = true

theorem endsSecret_singleton {k : String} : EndsSecret [.key k] ↔ isSecretKey k = true := by
  constructor
  · rintro ⟨k', hlast, hk⟩
    cases hlast
    exact hk
  · exact fun h => ⟨k, rfl, h⟩

theorem endsSecret_cons {s t : PathStep} {p : List PathStep} :
    EndsSecret (s :: t :: p) ↔ EndsSecret (t :: p) := by
  unfold EndsSecret
  rw [List.getLast?_cons_cons]

theorem not_endsSecret_nil : ¬ EndsSecret [] := by
  rintro ⟨k, hlast, _⟩
  cases hlast

theorem not_endsSecret_index {n : Nat} : ¬ EndsSecret [.index n] := by
  rintro ⟨k, hlast, _⟩
  cases hlast

/-- A missing field and a field that is `None` have nothing below them. -/
theorem valueAt_get (d : Dict) (k : String) (s : PathStep) (p : List PathStep) :
    valueAt (.dict d) (.key k :: s :: p) = valueAt (d.get k) (s :: p) := by
  rw [valueAt, Dict.get]
  cases d.lookup k with
  | some v => rfl
  | none => cases s <;> rfl

/-- A text has nothing below it. -/
theorem valueAt_str (text : String) (s : PathStep) (p : List PathStep) :
    valueAt (.str text) (s :: p) = none := by
  cases s <;> rfl

/-- No secret field holds the placeholder. -/
def NoLiteral (v : Value) : Prop := ∀ p, EndsSecret p → valueAt v p ≠ some placeholder

/-! ### Stored secrets -/

/-- A secret at a path, as the view hides it. -/
inductive SecretAt : Value → List PathStep → Value → Prop
  | hidden {d : Dict} {k : String} {v : Value} (hv : d.lookup k = some v)
      (hk : isHidden k v = true) : SecretAt (.dict d) [.key k] v
  | field {d : Dict} {k : String} {v s : Value} {p : List PathStep} (hv : d.lookup k = some v)
      (hk : isHidden k v = false) (h : SecretAt v p s) : SecretAt (.dict d) (.key k :: p) s
  | item {xs : List Value} {n : Nat} {x s : Value} {p : List PathStep} (hx : xs[n]? = some x)
      (h : SecretAt x p s) : SecretAt (.list xs) (.index n :: p) s

theorem SecretAt.valueAt {v s : Value} {p : List PathStep} (h : SecretAt v p s) :
    RcloneSync.valueAt v p = some s := by
  induction h with
  | hidden hv _ => simp [RcloneSync.valueAt, hv]
  | field hv _ _ ih => simp [RcloneSync.valueAt, hv, ih]
  | item hx _ ih => simp [RcloneSync.valueAt, hx, ih]

theorem SecretAt.endsSecret {v s : Value} {p : List PathStep} (h : SecretAt v p s) :
    EndsSecret p ∧ isBlankValue s = false := by
  induction h with
  | hidden hv hk =>
    exact ⟨endsSecret_singleton.mpr (isSecretKey_of_isHidden hk), isBlankValue_of_isHidden hk⟩
  | @field d k v s p _ _ _ ih | @item xs n x s p _ _ ih =>
    refine ⟨?_, ih.2⟩
    cases p with
    | nil => exact absurd ih.1 not_endsSecret_nil
    | cons t p => exact endsSecret_cons.mpr ih.1

/-! ### Edits -/

/-- How a value of the submission comes from a stored one. -/
inductive Edit
  /-- a value of the user's -/
  | put (value : Value)
  /-- the stored value, as the view shows it -/
  | keep
  /-- a list, each element with the position it comes from -/
  | items (edits : List (Nat × Edit))
  /-- a mapping with fields of the stored one -/
  | entries (edits : List (String × Edit))

def Edit.isPut : Edit → Bool
  | put _ => true
  | keep | items _ | entries _ => false

mutual

/-- The submission of an edit. -/
def submitted : Edit → Value → Value
  | .put v, _ => v
  | .keep, o => redactNested o
  | .items es, .list xs => .list (submittedItems es xs)
  | .entries es, .dict d => .dict (submittedEntries es d)
  | _, _ => .none

def submittedItems : List (Nat × Edit) → List Value → List Value
  | [], _ => []
  | (i, e) :: es, xs => submitted e (xs.getD i .none) :: submittedItems es xs

/-- The placeholder of a secret is kept, unless the user puts another value in. -/
def submittedEntries : List (String × Edit) → Dict → Dict
  | [], _ => []
  | (k, e) :: es, d =>
    (k, if !e.isPut && isHidden k (d.get k) then placeholder else submitted e (d.get k)) ::
      submittedEntries es d

end

/-- A placeholder at a path of the submission, with the secret that it stands for. -/
inductive Retained : Edit → Value → List PathStep → Value → Prop
  | keep {o s : Value} {p : List PathStep} (h : SecretAt o p s) : Retained .keep o p s
  | item {es : List (Nat × Edit)} {xs : List Value} {i n : Nat} {e : Edit} {s : Value}
      {p : List PathStep} (he : es[n]? = some (i, e)) (h : Retained e (xs.getD i .none) p s) :
      Retained (.items es) (.list xs) (.index n :: p) s
  | hidden {es : List (String × Edit)} {d : Dict} {k : String} {e : Edit}
      (he : es.lookup k = some e) (hput : e.isPut = false) (hk : isHidden k (d.get k) = true) :
      Retained (.entries es) (.dict d) [.key k] (d.get k)
  | field {es : List (String × Edit)} {d : Dict} {k : String} {e : Edit} {s : Value}
      {p : List PathStep} (he : es.lookup k = some e) (hk : isHidden k (d.get k) = false)
      (h : Retained e (d.get k) p s) : Retained (.entries es) (.dict d) (.key k :: p) s

/-- The user puts no placeholder into a secret field. -/
inductive Plain : Edit → Prop
  | put {v : Value} (h : NoLiteral v) : Plain (.put v)
  | keep : Plain .keep
  | items {es : List (Nat × Edit)} (h : ∀ x ∈ es, Plain x.2) : Plain (.items es)
  | entries {es : List (String × Edit)} (h : ∀ x ∈ es, Plain x.2)
      (hput : ∀ k, (k, Edit.put placeholder) ∈ es → isSecretKey k = false) : Plain (.entries es)


theorem lookup_submittedEntries (es : List (String × Edit)) (d : Dict) (k : String) :
    (submittedEntries es d).lookup k
      = (es.lookup k).map fun e =>
          if !e.isPut && isHidden k (d.get k) then placeholder else submitted e (d.get k) := by
  induction es with
  | nil => rfl
  | cons x es ih =>
    obtain ⟨key, e⟩ := x
    rw [submittedEntries, List.lookup_cons, List.lookup_cons]
    by_cases hk : k = key
    · subst hk
      simp
    · rw [beq_false_of_ne hk]
      exact ih

theorem getElem?_submittedItems (es : List (Nat × Edit)) (xs : List Value) (n : Nat) :
    (submittedItems es xs)[n]? = es[n]?.map fun x => submitted x.2 (xs.getD x.1 .none) := by
  induction es generalizing n with
  | nil => rfl
  | cons x es ih =>
    obtain ⟨i, e⟩ := x
    cases n with
    | zero => rfl
    | succ n => exact ih n

/-! ### Placeholders in a submission -/

theorem SecretAt.valueAt_redactNested {o s : Value} {p : List PathStep} (h : SecretAt o p s) :
    RcloneSync.valueAt (redactNested o) p = some placeholder := by
  induction h with
  | hidden hv hk =>
    simp [redactNested, RcloneSync.valueAt, lookup_redactEntries, hv, hk]
  | field hv hk _ ih =>
    simp [redactNested, RcloneSync.valueAt, lookup_redactEntries, hv, hk, ih]
  | item hx _ ih =>
    simp [redactNested, RcloneSync.valueAt, getElem?_redactItems, hx, ih]

/-- Every placeholder of the view is that of a secret. -/
theorem secretAt_of_redactNested {o : Value} {p : List PathStep} (hp : EndsSecret p)
    (h : valueAt (redactNested o) p = some placeholder) : ∃ s, SecretAt o p s := by
  induction p generalizing o with
  | nil => exact absurd hp not_endsSecret_nil
  | cons t p ih =>
    cases o with
    | list xs =>
      cases t with
      | key k => simp [redactNested, valueAt] at h
      | index n =>
        simp only [redactNested, valueAt, getElem?_redactItems] at h
        cases hx : xs[n]? with
        | none => simp [hx] at h
        | some x =>
          have hrest : valueAt (redactNested x) p = some placeholder := by simpa [hx] using h
          cases p with
          | nil => exact absurd hp not_endsSecret_index
          | cons u p =>
            obtain ⟨s, hs⟩ := ih (endsSecret_cons.mp hp) hrest
            exact ⟨s, .item hx hs⟩
    | dict d =>
      cases t with
      | index n => simp [redactNested, valueAt] at h
      | key k =>
        simp only [redactNested, valueAt, lookup_redactEntries] at h
        cases hv : d.lookup k with
        | none => simp [hv] at h
        | some v =>
          by_cases hk : isHidden k v = true
          · cases p with
            | nil => exact ⟨v, .hidden hv hk⟩
            | cons u p => simp [hv, hk, placeholder, valueAt_str] at h
          · have hrest : valueAt (redactNested v) p = some placeholder := by simpa [hv, hk] using h
            cases p with
            | nil =>
              have hsame : v = placeholder := redactNested_eq_placeholder (Option.some.inj hrest)
              have hname : isSecretKey k = true := endsSecret_singleton.mp hp
              refine absurd ?_ hk
              rw [isHidden, hname, hsame]
              decide
            | cons u p =>
              obtain ⟨s, hs⟩ := ih (endsSecret_cons.mp hp) hrest
              exact ⟨s, .field hv (by simpa using hk) hs⟩
    | _ => cases t <;> simp [redactNested, valueAt] at h

/-- A retained secret has its placeholder in the submission. -/
theorem Retained.valueAt_submitted {e : Edit} {o s : Value} {p : List PathStep}
    (h : Retained e o p s) :
    EndsSecret p ∧ isBlankValue s = false ∧ valueAt (submitted e o) p = some placeholder := by
  induction h with
  | keep h => exact ⟨h.endsSecret.1, h.endsSecret.2, h.valueAt_redactNested⟩
  | @item es xs i n e s p he h ih =>
    obtain ⟨hp, hblank, hat⟩ := ih
    refine ⟨?_, hblank, ?_⟩
    · cases p with
      | nil => exact absurd hp not_endsSecret_nil
      | cons t p => exact endsSecret_cons.mpr hp
    · rw [submitted, valueAt, getElem?_submittedItems, he]
      exact hat
  | @hidden es d k e he hput hk =>
    refine ⟨endsSecret_singleton.mpr (isSecretKey_of_isHidden hk), isBlankValue_of_isHidden hk, ?_⟩
    simp [submitted, valueAt, lookup_submittedEntries, he, hput, hk]
  | @field es d k e s p he hk h ih =>
    obtain ⟨hp, hblank, hat⟩ := ih
    refine ⟨?_, hblank, ?_⟩
    · cases p with
      | nil => exact absurd hp not_endsSecret_nil
      | cons t p => exact endsSecret_cons.mpr hp
    · simp [submitted, valueAt, lookup_submittedEntries, he, hk, hat]

theorem not_retained_of_isPut {e : Edit} (hput : e.isPut = true) {o s : Value}
    {p : List PathStep} : ¬ Retained e o p s := by
  intro h
  cases h with
  | keep _ => cases hput
  | item _ _ => cases hput
  | hidden _ _ _ => cases hput
  | field _ _ _ => cases hput

/-- What is submitted for a field is the placeholder's text only if the user put it in, or if it
was stored. -/
theorem submitted_eq_placeholder {e : Edit} {o : Value} (h : submitted e o = placeholder) :
    e = .put placeholder ∨ o = placeholder := by
  cases e with
  | put v => exact Or.inl (congrArg Edit.put h)
  | keep => exact Or.inr (redactNested_eq_placeholder h)
  | items es => cases o <;> cases h
  | entries es => cases o <;> cases h

/-- Every placeholder of a submission is that of a retained secret. -/
theorem retained_of_submitted {e : Edit} (he : Plain e) {o : Value} {p : List PathStep}
    (hp : EndsSecret p) (h : valueAt (submitted e o) p = some placeholder) :
    ∃ s, Retained e o p s := by
  induction p generalizing e o with
  | nil => exact absurd hp not_endsSecret_nil
  | cons t p ih =>
    cases he with
    | put hv => exact absurd h (hv _ hp)
    | keep =>
      obtain ⟨s, hs⟩ := secretAt_of_redactNested hp h
      exact ⟨s, .keep hs⟩
    | @items es hes =>
      cases o with
      | list xs =>
        cases t with
        | key k => simp [submitted, valueAt] at h
        | index n =>
          simp only [submitted, valueAt, getElem?_submittedItems] at h
          cases hx : es[n]? with
          | none => simp [hx] at h
          | some x =>
            obtain ⟨i, e⟩ := x
            have hrest : valueAt (submitted e (xs.getD i .none)) p = some placeholder := by
              simpa [hx] using h
            cases p with
            | nil => exact absurd hp not_endsSecret_index
            | cons u p =>
              have hplain : Plain e := hes _ (List.mem_of_getElem? hx)
              obtain ⟨s, hs⟩ := ih hplain (endsSecret_cons.mp hp) hrest
              exact ⟨s, .item hx hs⟩
      | _ => cases t <;> simp [submitted, valueAt] at h
    | @entries es hes hput =>
      cases o with
      | dict d =>
        cases t with
        | index n => simp [submitted, valueAt] at h
        | key k =>
          simp only [submitted, valueAt, lookup_submittedEntries] at h
          cases hx : es.lookup k with
          | none => simp [hx] at h
          | some e =>
            have hmem : (k, e) ∈ es := mem_of_lookup hx
            rw [hx, Option.map_some, Option.bind_some] at h
            by_cases hk : (!e.isPut && isHidden k (Dict.get d k)) = true
            · obtain ⟨hkept, hhidden⟩ := Bool.and_eq_true_iff.mp hk
              cases p with
              | nil => exact ⟨_, .hidden hx (by simpa using hkept) hhidden⟩
              | cons u p =>
                rw [if_pos hk, placeholder, valueAt_str] at h
                cases h
            · rw [if_neg hk] at h
              cases p with
              | nil =>
                have hname : isSecretKey k = true := endsSecret_singleton.mp hp
                rcases submitted_eq_placeholder (Option.some.inj h) with rfl | hsame
                · exact absurd hname (by simp [hput k hmem])
                · have hhidden : isHidden k (Dict.get d k) = true := by
                    rw [isHidden, hname, hsame]
                    decide
                  have hisPut : e.isPut = true := by simpa [hhidden] using hk
                  cases e with
                  | put v =>
                    have hv : v = placeholder := Option.some.inj h
                    exact absurd hname (by simp [hput k (hv ▸ hmem)])
                  | _ => cases hisPut
              | cons u p =>
                obtain ⟨s, hs⟩ := ih (hes _ hmem) (endsSecret_cons.mp hp) h
                refine ⟨s, .field hx ?_ hs⟩
                by_contra hhidden
                have hshown : isHidden k (Dict.get d k) = true := Bool.eq_true_of_not_eq_false hhidden
                have hisPut : e.isPut = true := by simpa [hshown] using hk
                exact not_retained_of_isPut hisPut hs
      | _ => cases t <;> simp [submitted, valueAt] at h

/-! ### What the walk puts back -/

/-- In place of a placeholder comes what is stored at its path. -/
theorem valueAt_preserveNested {new old : Value} {p : List PathStep} (hp : EndsSecret p)
    (h : valueAt new p = some placeholder) {s : Value} (hs : s ≠ placeholder) (hn : s ≠ .none) :
    valueAt (preserveNested new old) p = some s ↔ valueAt old p = some s := by
  induction p generalizing new old with
  | nil => exact absurd hp not_endsSecret_nil
  | cons t p ih =>
    have hother : placeholder ≠ s := fun heq => hs heq.symm
    cases new with
    | list xs =>
      cases t with
      | key k => cases h
      | index n =>
        cases old with
        | list ys =>
          rw [preserveNested, valueAt, valueAt, getElem?_preserveItems]
          rw [valueAt] at h
          cases hx : xs[n]? with
          | none => simp [hx] at h
          | some x =>
            rw [hx, Option.bind_some] at h
            cases hy : ys[n]? with
            | none => simp [h, hother]
            | some y =>
              cases p with
              | nil => exact absurd hp not_endsSecret_index
              | cons u p => exact ih (endsSecret_cons.mp hp) h
        | _ => simp [preserveNested, h, valueAt, hother]
    | dict d =>
      cases t with
      | index n => cases h
      | key k =>
        cases old with
        | dict d' =>
          rw [preserveNested, valueAt, lookup_preserveEntries]
          rw [valueAt] at h
          cases hv : d.lookup k with
          | none => simp [hv] at h
          | some v =>
            rw [hv, Option.bind_some] at h
            rw [Option.map_some, Option.bind_some]
            cases p with
            | nil =>
              have hk : isSecretKey k = true := endsSecret_singleton.mp hp
              have hv : v = placeholder := Option.some.inj h
              rw [if_pos ⟨hk, hv⟩, valueAt, valueAt, Dict.get]
              cases hold : d'.lookup k with
              | none => simp [hn.symm]
              | some w => simp [valueAt]
            | cons u p =>
              have hv : ¬ (isSecretKey k = true ∧ v = placeholder) := by
                rintro ⟨_, rfl⟩
                rw [placeholder, valueAt_str] at h
                cases h
              rw [if_neg hv, valueAt_get]
              exact ih (endsSecret_cons.mp hp) h
        | _ => simp [preserveNested, h, valueAt, hother]
    | _ => cases t <;> cases h

/-- A placeholder that is there after the walk was stored, or there was nothing at its path. -/
theorem placeholder_of_preserveNested {new old : Value} {p : List PathStep} (hp : EndsSecret p)
    (h : valueAt (preserveNested new old) p = some placeholder) :
    valueAt old p = some placeholder ∨
      (valueAt new p = some placeholder ∧ valueAt old p = none) := by
  induction p generalizing new old with
  | nil => exact absurd hp not_endsSecret_nil
  | cons t p ih =>
    cases new with
    | list xs =>
      cases t with
      | key k => cases old <;> cases h
      | index n =>
        cases old with
        | list ys =>
          rw [preserveNested, valueAt, getElem?_preserveItems] at h
          rw [valueAt, valueAt]
          cases hx : xs[n]? with
          | none => simp [hx] at h
          | some x =>
            rw [hx, Option.map_some, Option.bind_some] at h
            cases hy : ys[n]? with
            | none =>
              rw [hy] at h
              exact Or.inr ⟨h, rfl⟩
            | some y =>
              rw [hy] at h
              cases p with
              | nil => exact absurd hp not_endsSecret_index
              | cons u p => exact ih (endsSecret_cons.mp hp) h
        | _ => exact Or.inr ⟨h, rfl⟩
    | dict d =>
      cases t with
      | index n => cases old <;> cases h
      | key k =>
        cases old with
        | dict d' =>
          rw [preserveNested, valueAt, lookup_preserveEntries] at h
          cases hv : d.lookup k with
          | none => simp [hv] at h
          | some v =>
            rw [hv, Option.map_some, Option.bind_some] at h
            by_cases hsame : isSecretKey k = true ∧ v = placeholder
            · rw [if_pos hsame] at h
              refine Or.inl ?_
              cases p with
              | nil =>
                rw [valueAt]
                have hget : Dict.get d' k = placeholder := Option.some.inj h
                rw [Dict.get] at hget
                cases hold : d'.lookup k with
                | none =>
                  rw [hold] at hget
                  cases hget
                | some w =>
                  rw [hold] at hget
                  exact congrArg some hget
              | cons u p =>
                rw [valueAt_get]
                exact h
            · rw [if_neg hsame] at h
              cases p with
              | nil =>
                have hv : v = placeholder := preserveNested_eq_placeholder (Option.some.inj h)
                exact absurd ⟨endsSecret_singleton.mp hp, hv⟩ hsame
              | cons u p =>
                rw [valueAt_get, valueAt, hv, Option.bind_some]
                exact ih (endsSecret_cons.mp hp) h
        | _ => exact Or.inr ⟨h, rfl⟩
    | _ => cases t <;> cases old <;> cases h

/-! ### What is taken over besides -/

/-- At the secret fields, `after` is `before` with values of `old`, or with the empty text where
there is none. -/
def Filled (old before after : Value) : Prop :=
  ∀ p, EndsSecret p →
    valueAt after p = valueAt before p ∨ valueAt after p = valueAt old p ∨
      (valueAt old p = none ∧ valueAt after p = some (.str ""))

theorem Filled.refl (old v : Value) : Filled old v v := fun _ _ => Or.inl rfl

theorem Filled.trans {old u v w : Value} (h : Filled old u v) (h' : Filled old v w) :
    Filled old u w := by
  intro p hp
  rcases h' p hp with hsame | hrest
  · rw [hsame]
    exact h p hp
  · exact Or.inr hrest

theorem valueAt_set_ne {d : Dict} {key k : String} (v : Value) (p : List PathStep) (h : k ≠ key) :
    valueAt (.dict (d.set key v)) (.key k :: p) = valueAt (.dict d) (.key k :: p) := by
  rw [valueAt, valueAt, Dict.lookup_set, if_neg h]

theorem valueAt_set_self (d : Dict) (key : String) (v : Value) (p : List PathStep) :
    valueAt (.dict (d.set key v)) (.key key :: p) = valueAt v p := by
  rw [valueAt, Dict.lookup_set, if_pos rfl, Option.bind_some]

/-- A field that takes over the stored value. -/
theorem filled_set_field (old : Value) (d : Dict) (key : String) :
    Filled old (.dict d) (.dict (d.set key (((asDict old).getD []).getOr key (.str "")))) := by
  intro p hp
  cases p with
  | nil => exact absurd hp not_endsSecret_nil
  | cons t p =>
    cases t with
    | index n => exact Or.inl rfl
    | key k =>
      by_cases hk : k = key
      · subst hk
        have hat : valueAt old (.key k :: p)
            = (((asDict old).getD []).lookup k).bind fun v => valueAt v p := by
          cases old <;> rfl
        rw [valueAt_set_self, hat, Dict.getOr]
        cases hold : ((asDict old).getD []).lookup k with
        | some w => exact Or.inr (Or.inl rfl)
        | none =>
          cases p with
          | nil => exact Or.inr (Or.inr ⟨rfl, rfl⟩)
          | cons u p => exact Or.inr (Or.inl (valueAt_str _ _ _))
      · exact Or.inl (valueAt_set_ne _ _ hk)

/-- A section whose fields are filled up. -/
theorem filled_set_section {old d : Dict} {key : String} {v : Value}
    (hkey : isSecretKey key = false) (h : Filled (old.get key) (d.get key) v) :
    Filled (.dict old) (.dict d) (.dict (d.set key v)) := by
  intro p hp
  cases p with
  | nil => exact absurd hp not_endsSecret_nil
  | cons t p =>
    cases t with
    | index n => exact Or.inl rfl
    | key k =>
      by_cases hk : k = key
      · subst hk
        cases p with
        | nil => exact absurd (endsSecret_singleton.mp hp) (by rw [hkey]; decide)
        | cons u p =>
          rw [valueAt_set_self, valueAt_get, valueAt_get]
          exact h _ (endsSecret_cons.mp hp)
      · exact Or.inl (valueAt_set_ne _ _ hk)

/-- A part of a mapping that is put in where it is missing. -/
theorem filled_setDefault {old d : Dict} {key : String} {v : Value} (hkey : isSecretKey key = false)
    (h : Filled (old.get key) .none v) :
    Filled (.dict old) (.dict d) (.dict (setDefault d key v)) := by
  rw [setDefault]
  by_cases hhas : d.has key = true
  · rw [if_pos hhas]
    exact Filled.refl _ _
  · rw [if_neg hhas]
    refine filled_set_section hkey ?_
    have hget : d.get key = .none := by
      rw [Dict.has, Option.not_isSome_iff_eq_none] at hhas
      rw [Dict.get, hhas, Option.getD_none]
    rw [hget]
    exact h

/-- A field that is taken over where it is missing. -/
theorem filled_setDefault_stored {old : Value} {d : Dict} {key : String} {v : Value}
    (hv : ((asDict old).getD []).lookup key = some v) :
    Filled old (.dict d) (.dict (setDefault d key v)) := by
  rw [setDefault]
  by_cases hhas : d.has key = true
  · rw [if_pos hhas]
    exact Filled.refl _ _
  · rw [if_neg hhas]
    have h := filled_set_field old d key
    rwa [Dict.getOr, hv, Option.getD_some] at h

theorem filled_foldl {α : Type} {old : Value} {f : Dict → α → Dict} {xs : List α}
    (hf : ∀ d, ∀ x ∈ xs, Filled old (.dict d) (.dict (f d x))) (d : Dict) :
    Filled old (.dict d) (.dict (xs.foldl f d)) := by
  induction xs generalizing d with
  | nil => exact Filled.refl _ _
  | cons x xs ih =>
    rw [List.foldl_cons]
    exact (hf d x (by simp)).trans (ih (fun d y hy => hf d y (List.mem_cons_of_mem _ hy)) _)

/-- An empty mapping holds no secrets. -/
theorem filled_empty (old : Value) : Filled old .none (.dict []) := by
  intro p hp
  cases p with
  | nil => exact absurd hp not_endsSecret_nil
  | cons t p => exact Or.inl (by cases t <;> rfl)

theorem filled_preserveField (old d : Dict) {field : String × String}
    (hfield : field ∈ sensitiveFields) :
    Filled (.dict old) (.dict d) (.dict (preserveField old d field)) := by
  have hsection : isSecretKey field.1 = false := by
    revert field
    decide +kernel
  simp only [preserveField, walkParent]
  cases hlookup : d.lookup field.1 with
  | none =>
    refine filled_set_section hsection ?_
    have hget : d.get field.1 = .none := by rw [Dict.get, hlookup, Option.getD_none]
    rw [hget]
    exact (filled_empty _).trans (filled_set_field _ [] field.2)
  | some v =>
    cases v with
    | dict parent =>
      dsimp only
      split_ifs with hmissing
      · refine filled_set_section hsection ?_
        rw [Dict.get_of_lookup hlookup]
        exact filled_set_field _ parent field.2
      · exact Filled.refl _ _
    | _ => exact Filled.refl _ _

theorem filled_preserveWeb (oldWeb : Value) (web : Dict) :
    Filled oldWeb (.dict web) (.dict (preserveWeb ((asDict oldWeb).getD []) web)) := by
  have hserver : ∀ w : Dict, Filled oldWeb (.dict w) (.dict (serverOwnedWebFields.foldl
      (fun (w : Dict) (key : String) => w.set key (((asDict oldWeb).getD []).getOr key (.str "")))
      w)) :=
    filled_foldl fun w key _ => filled_set_field oldWeb w key
  refine (hserver web).trans (filled_foldl (fun w key _ => ?_) _)
  by_cases hhas : ((asDict oldWeb).getD []).has key = true
  · obtain ⟨v, hv⟩ := Option.isSome_iff_exists.mp hhas
    rw [if_pos hhas, Dict.get_of_lookup hv]
    exact filled_setDefault_stored hv
  · rw [if_neg hhas]
    exact Filled.refl _ _

theorem filled_preservePaths {old : Dict} (hold : (Value.dict old).wellFormed = true) (d : Dict) :
    Filled (.dict old) (.dict d) (.dict (preservePaths old d)) := by
  have hsection : isSecretKey "paths" = false := by decide +kernel
  refine (filled_setDefault hsection (filled_empty _)).trans ?_
  simp only [preservePaths]
  generalize setDefault d "paths" (.dict []) = d
  cases hpaths : old.get "paths" with
  | dict oldPaths =>
    cases hnew : d.get "paths" with
    | dict paths =>
      refine filled_set_section hsection ?_
      rw [hpaths, hnew]
      have hkeys : (oldPaths.map Prod.fst).Nodup := by
        have h := keyed_dictAt hold "paths"
        rwa [dictAt, hpaths] at h
      exact filled_foldl (fun w e he => filled_setDefault_stored (Dict.lookup_of_nodup hkeys he))
        paths
    | _ => exact Filled.refl _ _
  | _ => exact Filled.refl _ _

theorem filled_preserveKeyFile (old d : Dict) :
    Filled (.dict old) (.dict d) (.dict (preserveKeyFile old d)) := by
  have hsection : isSecretKey "notifications" = false := by decide +kernel
  have happns : isSecretKey "apns" = false := by decide +kernel
  rw [preserveKeyFile]
  cases hapns : (asDict (old.get "notifications")).bind fun n => asDict (n.get "apns") with
  | none => exact Filled.refl _ _
  | some oldApns =>
    obtain ⟨oldPart, hpart, hfile⟩ := Option.bind_eq_some_iff.mp hapns
    have hpart := eq_dict_of_asDict hpart
    have hfile := eq_dict_of_asDict hfile
    dsimp only
    split_ifs with hhas
    · obtain ⟨v, hv⟩ := Option.isSome_iff_exists.mp hhas
      rw [Dict.get_of_lookup hv]
      refine (filled_setDefault hsection (filled_empty _)).trans ?_
      generalize setDefault d "notifications" (.dict []) = d
      cases hnew : d.get "notifications" with
      | dict part =>
        dsimp only
        have hfirst : Filled (.dict oldPart) (.dict part)
            (.dict (setDefault part "apns" (.dict []))) :=
          filled_setDefault happns (filled_empty _)
        generalize setDefault part "apns" (.dict []) = part' at hfirst
        have hset : ∀ after : Dict, Filled (.dict oldPart) (.dict part') (.dict after) →
            Filled (.dict old) (.dict d) (.dict (d.set "notifications" (.dict after))) := by
          intro after hafter
          refine filled_set_section hsection ?_
          rw [hpart, hnew]
          exact hfirst.trans hafter
        cases hinner : part'.get "apns" with
        | dict apns =>
          refine hset _ (filled_set_section happns ?_)
          rw [hfile, hinner]
          exact filled_setDefault_stored hv
        | _ => exact hset _ (Filled.refl _ _)
      | _ => exact Filled.refl _ _
    · exact Filled.refl _ _

/-- **At the secret fields the result is what the walk leaves, with stored values.** -/
theorem filled_preserveSensitive {old : Dict} (hold : (Value.dict old).wellFormed = true)
    (d : Dict) :
    Filled (.dict old) (.dict (preserveEntries d old)) (.dict (preserveSensitive d old)) := by
  have hsection : isSecretKey "web" = false := by decide +kernel
  rw [preserveSensitive]
  refine (filled_foldl (fun w _ hfield => filled_preserveField old w hfield) _).trans ?_
  dsimp only
  refine (filled_setDefault hsection (filled_empty _)).trans ?_
  generalize setDefault (sensitiveFields.foldl (preserveField old) (preserveEntries d old)) "web"
    (.dict []) = d
  cases hweb : d.get "web" with
  | dict web =>
    refine .trans ?_ (filled_preserveKeyFile old _)
    refine .trans ?_ (filled_preservePaths hold _)
    refine filled_set_section hsection ?_
    rw [hweb]
    exact filled_preserveWeb _ web
  | _ => exact Filled.refl _ _

/-! ### Stored and submitted configurations -/

/-- A stored configuration. -/
structure StoredConfig where
  data : Dict
  wellFormed : (Value.dict data).wellFormed = true

/-- The fields of a submission, with what each of them comes from. -/
structure EditedView where
  entries : List (String × Edit)
  plain : Plain (.entries entries)

variable (c : StoredConfig) (e : EditedView)

def StoredConfig.submission : Dict := submittedEntries e.entries c.data

def StoredConfig.result : Value := .dict (preserveSensitive (c.submission e) c.data)

def StoredConfig.Retained (p : List PathStep) (s : Value) : Prop :=
  RcloneSync.Retained (.entries e.entries) (.dict c.data) p s

/-- Every retained secret is at the path of its placeholder, and no placeholder is left. -/
def StoredConfig.SecretsKept : Prop :=
  (∀ p s, c.Retained e p s → valueAt (c.result e) p = some s) ∧ NoLiteral (c.result e)

/-- Every retained secret is stored at the path at which the submission has its placeholder. -/
def StoredConfig.InPlace : Prop :=
  ∀ p s, c.Retained e p s → valueAt (.dict c.data) p = some s

/-- No stored secret is the text of the placeholder. -/
def StoredConfig.Clean : Prop := NoLiteral (.dict c.data)

variable {c e}

/-- The result at a secret field, from the walk and from what is stored. -/
theorem filled_result :
    Filled (.dict c.data) (preserveNested (.dict (c.submission e)) (.dict c.data)) (c.result e) :=
  filled_preserveSensitive c.wellFormed (c.submission e)

theorem ne_none_of_isBlankValue {s : Value} (h : isBlankValue s = false) :
    s ≠ .none ∧ s ≠ .str "" := by
  rw [isBlankValue, decide_eq_false_iff_not, not_or] at h
  exact h

/-- The secrets come back only if they stand where they are stored. -/
theorem inPlace_of_secretsKept (h : c.SecretsKept e) : c.InPlace e := by
  intro p s hs
  obtain ⟨hp, hblank, hat⟩ := hs.valueAt_submitted
  obtain ⟨hnone, hempty⟩ := ne_none_of_isBlankValue hblank
  have hresult : valueAt (c.result e) p = some s := h.1 p s hs
  have hother : s ≠ placeholder := by
    rintro rfl
    exact h.2 p hp hresult
  rcases filled_result p hp with hwalk | hstored | ⟨_, hadded⟩
  · rw [hwalk] at hresult
    exact (valueAt_preserveNested hp hat hother hnone).mp hresult
  · rw [← hstored]
    exact hresult
  · rw [hadded] at hresult
    exact absurd (Option.some.inj hresult).symm hempty

/-- Where no stored secret is the placeholder, standing in place is enough. -/
theorem secretsKept_of_inPlace (hclean : c.Clean) (h : c.InPlace e) : c.SecretsKept e := by
  constructor
  · intro p s hs
    obtain ⟨hp, hblank, hat⟩ := hs.valueAt_submitted
    have hold : valueAt (.dict c.data) p = some s := h p s hs
    have hother : s ≠ placeholder := by
      rintro rfl
      exact hclean p hp hold
    rcases filled_result p hp with hwalk | hstored | ⟨hmissing, _⟩
    · rw [hwalk]
      exact (valueAt_preserveNested hp hat hother (ne_none_of_isBlankValue hblank).1).mpr hold
    · rw [hstored]
      exact hold
    · rw [hmissing] at hold
      cases hold
  · intro p hp hresult
    rcases filled_result p hp with hwalk | hstored | ⟨_, hadded⟩
    · rw [hwalk] at hresult
      rcases placeholder_of_preserveNested hp hresult with hold | ⟨hnew, hmissing⟩
      · exact hclean p hp hold
      · obtain ⟨s, hs⟩ := retained_of_submitted e.plain hp (o := .dict c.data) hnew
        rw [h p s hs] at hmissing
        cases hmissing
    · rw [hstored] at hresult
      exact hclean p hp hresult
    · rw [hadded] at hresult
      exact absurd (Option.some.inj hresult) (by decide)

/-! ### An unchanged submission -/

/-- An unchanged view gives the stored configuration back, if that has the sections. -/
theorem preserveSensitive_redactConfig_iff :
    preserveSensitive (redactConfig c.data none) c.data = c.data ↔ HasSections c.data := by
  constructor
  · intro h
    rw [← h]
    exact hasSections_preserveSensitive _ _
  · exact preserveSensitive_of_hasSections c.wellFormed

/-- The edit that keeps every field. -/
def StoredConfig.unedited (c : StoredConfig) : EditedView where
  entries := c.data.map fun x => (x.1, .keep)
  plain := by
    refine .entries (fun x hx => ?_) (fun k hk => ?_)
    · obtain ⟨y, _, rfl⟩ := List.mem_map.mp hx
      exact .keep
    · obtain ⟨y, _, hy⟩ := List.mem_map.mp hk
      cases hy

theorem submittedEntries_keep {sub d : Dict} (h : ∀ x ∈ sub, d.get x.1 = x.2) :
    submittedEntries (sub.map fun x => (x.1, .keep)) d = redactEntries sub := by
  induction sub with
  | nil => rfl
  | cons x sub ih =>
    obtain ⟨key, v⟩ := x
    have hkey : d.get key = v := h (key, v) (by simp)
    have hkept : (!Edit.isPut .keep) = true := rfl
    rw [List.map_cons, submittedEntries, redactEntries, hkey, submitted, hkept, Bool.true_and,
      ih fun y hy => h y (List.mem_cons_of_mem _ hy)]

/-- The view itself is the submission that is not edited. -/
theorem submission_unedited : c.submission c.unedited = redactConfig c.data none := by
  rw [redactConfig_eq]
  refine submittedEntries_keep fun x hx => ?_
  exact Dict.get_of_lookup (Dict.lookup_of_nodup (wellFormed_dict_iff.mp c.wellFormed).2 hx)

theorem inPlace_unedited : c.InPlace c.unedited := by
  intro p s h
  have hsub : ∀ {k : String} {e : Edit}, c.unedited.entries.lookup k = some e →
      ∃ v, c.data.lookup k = some v ∧ e = .keep := by
    intro k e he
    obtain ⟨x, hx, hxe⟩ := List.mem_map.mp (mem_of_lookup he)
    obtain ⟨rfl, rfl⟩ := Prod.mk.inj hxe
    exact ⟨x.2, Dict.lookup_of_nodup (wellFormed_dict_iff.mp c.wellFormed).2 hx, rfl⟩
  cases h with
  | hidden he _ _ =>
    obtain ⟨v, hv, _⟩ := hsub he
    rw [valueAt, hv, Dict.get_of_lookup hv]
    rfl
  | field he _ h =>
    obtain ⟨v, hv, rfl⟩ := hsub he
    cases h with
    | keep h =>
      rw [Dict.get_of_lookup hv] at h
      rw [valueAt, hv]
      exact h.valueAt

/-- A stored secret that is the placeholder comes back as such. -/
theorem not_secretsKept_unedited (h : ¬ c.Clean) : ¬ c.SecretsKept c.unedited := by
  intro hkept
  refine h fun p hp hat => ?_
  have hfilled := filled_result (c := c) (e := c.unedited) p hp
  rw [submission_unedited, preserveNested, preserveEntries_redactConfig c.wellFormed] at hfilled
  rcases hfilled with hsame | hsame | ⟨hmissing, _⟩
  · exact hkept.2 p hp (hsame.trans hat)
  · exact hkept.2 p hp (hsame.trans hat)
  · rw [hat] at hmissing
    cases hmissing

/-- **The secrets come back only if each of them is stored where the submission has it; this is
enough exactly if none is the text of the placeholder; and nothing changes without an edit exactly
if the sections and fields that are put in are there.** -/
theorem secrets_kept_iff (c : StoredConfig) :
    (∀ e, c.SecretsKept e → c.InPlace e) ∧
      (c.Clean ↔ ∀ e, c.InPlace e → c.SecretsKept e) ∧
      (preserveSensitive (redactConfig c.data none) c.data = c.data ↔ HasSections c.data) := by
  refine ⟨fun e => inPlace_of_secretsKept, ?_, preserveSensitive_redactConfig_iff⟩
  constructor
  · exact fun hclean e => secretsKept_of_inPlace hclean
  · intro h
    by_contra hclean
    exact not_secretsKept_unedited hclean (h c.unedited inPlace_unedited)

/-! ### Two targets -/

def twoTargets : Value :=
  .dict [("targets", .list [.dict [("name", .str "a"), ("token", .str "s1")],
    .dict [("name", .str "b"), ("token", .str "s2")]])]

def targetsConfig : StoredConfig where
  data := [("pbs", twoTargets)]
  wellFormed := by decide

/-- The targets with the given numbers. -/
def targetsEdit (numbers : List Nat) : EditedView where
  entries := [("pbs", .entries [("targets", .items (numbers.map fun n => (n, .keep)))])]
  plain := by
    have hkeep : ∀ x ∈ numbers.map fun n => (n, Edit.keep), Plain x.2 := by
      intro x hx
      obtain ⟨n, _, rfl⟩ := List.mem_map.mp hx
      exact .keep
    refine .entries ?_ ?_
    · simp only [List.forall_mem_singleton]
      refine .entries ?_ ?_
      · simp only [List.forall_mem_singleton]
        exact .items hkeep
      · simp
    · simp

theorem retained_second : targetsConfig.Retained (targetsEdit [1])
    [.key "pbs", .key "targets", .index 0, .key "token"] (.str "s2") := by
  refine .field (e := .entries [("targets", .items [(1, .keep)])]) rfl (by decide +kernel) ?_
  refine .field (e := .items [(1, .keep)]) rfl (by decide +kernel) ?_
  refine .item (i := 1) (e := .keep) rfl (.keep ?_)
  exact .hidden rfl (by decide +kernel)

/-- Without its first target the second one gets the secret of the first; and one more in front
of them leaves the last one with the placeholder. -/
theorem second_target_gets_first_secret :
    targetsConfig.Retained (targetsEdit [1])
        [.key "pbs", .key "targets", .index 0, .key "token"] (.str "s2") ∧
      valueAt (targetsConfig.result (targetsEdit [1]))
        [.key "pbs", .key "targets", .index 0, .key "token"] = some (.str "s1") ∧
      ¬ targetsConfig.SecretsKept (targetsEdit [1]) ∧
      ¬ NoLiteral (targetsConfig.result (targetsEdit [0, 0, 1])) := by
  have hfirst : valueAt (targetsConfig.result (targetsEdit [1]))
      [.key "pbs", .key "targets", .index 0, .key "token"] = some (.str "s1") := by
    decide +kernel
  refine ⟨retained_second, hfirst, fun h => ?_, fun h => ?_⟩
  · have hkept := h.1 _ _ retained_second
    rw [hfirst] at hkept
    exact absurd hkept (by decide)
  · refine h [.key "pbs", .key "targets", .index 2, .key "token"] ⟨"token", rfl, ?_⟩ ?_
    · decide +kernel
    · decide +kernel

end RcloneSync
