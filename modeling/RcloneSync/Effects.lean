/-
RcloneSync/Effects.lean

Programs that change a state and may raise.

What a program did before it raised stays done: the state is returned beside the exception.  The
`exec` lemmas say how the parts of a program run; `Within` bounds what a program may do to the
state, whether it returns or raises, and is closed under every way of putting programs together.
-/
import Mathlib.Order.Defs.Unbundled

namespace Effects

/-- A program over a state that returns a value or raises. -/
abbrev Effect (σ ε α : Type) := ExceptT ε (StateM σ) α

variable {σ ε α β : Type}

/-- A run: what is returned or raised, and the state after it. -/
def exec (p : Effect σ ε α) (s : σ) : Except ε α × σ := p.run.run s

/-- The fault of a call to the outside, if it has one. -/
def raising : Option ε → Effect σ ε Unit
  | none => pure ()
  | some e => throw e

/-- What a call with this fault comes to. -/
def faultResult : Option ε → Except ε Unit
  | none => .ok ()
  | some e => .error e

/-- Raises unless the condition holds. -/
def check (c : Prop) [Decidable c] (e : ε) : Effect σ ε Unit := if c then pure () else throw e

/-- `try: … finally: …`; what the last part raises is raised. -/
def ensuring (p : Effect σ ε α) (last : Effect σ ε Unit) : Effect σ ε α :=
  ExceptT.mk fun s =>
    match exec p s with
    | (r, t) =>
      match exec last t with
      | (.ok _, u) => (r, u)
      | (.error e, u) => (.error e, u)

/-! ### Runs -/

@[simp] theorem exec_pure (a : α) (s : σ) : exec (pure a : Effect σ ε α) s = (.ok a, s) := rfl

@[simp] theorem exec_throw (e : ε) (s : σ) : exec (throw e : Effect σ ε α) s = (.error e, s) := rfl

@[simp] theorem exec_get (s : σ) : exec (get : Effect σ ε σ) s = (.ok s, s) := rfl

@[simp] theorem exec_modify (f : σ → σ) (s : σ) :
    exec (modify f : Effect σ ε Unit) s = (.ok (), f s) := rfl

theorem exec_bind (p : Effect σ ε α) (f : α → Effect σ ε β) (s : σ) :
    exec (p >>= f) s =
      match exec p s with
      | (.ok a, t) => exec (f a) t
      | (.error e, t) => (.error e, t) := by
  show (p.run >>= ExceptT.bindCont f).run s = _
  rw [StateT.run_bind]
  show ((ExceptT.bindCont f) (exec p s).1).run (exec p s).2 = _
  rcases exec p s with ⟨_ | _, _⟩ <;> rfl

theorem exec_tryCatch (p : Effect σ ε α) (h : ε → Effect σ ε α) (s : σ) :
    exec (tryCatch p h) s =
      match exec p s with
      | (.ok a, t) => (.ok a, t)
      | (.error e, t) => exec (h e) t := by
  show (match (exec p s).1 with
    | .ok a => (pure (.ok a) : StateM σ (Except ε α))
    | .error e => (h e).run).run (exec p s).2 = _
  rcases exec p s with ⟨_ | _, _⟩ <;> rfl

theorem exec_ensuring (p : Effect σ ε α) (last : Effect σ ε Unit) (s : σ) :
    exec (ensuring p last) s =
      match exec p s with
      | (r, t) =>
        match exec last t with
        | (.ok _, u) => (r, u)
        | (.error e, u) => (.error e, u) := rfl

/-- A part that returns is done, and the rest runs after it. -/
theorem exec_bind_ok {p : Effect σ ε α} {a : α} {s t : σ} (h : exec p s = (.ok a, t))
    (f : α → Effect σ ε β) : exec (p >>= f) s = exec (f a) t := by
  rw [exec_bind, h]

theorem exec_bind_error {p : Effect σ ε α} {e : ε} {s t : σ} (h : exec p s = (.error e, t))
    (f : α → Effect σ ε β) : exec (p >>= f) s = (.error e, t) := by
  rw [exec_bind, h]

/-- What comes after a value does not concern the state. -/
theorem exec_bind_pure (p : Effect σ ε α) (b : α → β) (s : σ) :
    (exec (p >>= fun a => pure (b a)) s).2 = (exec p s).2 := by
  rw [exec_bind]
  rcases exec p s with ⟨_ | _, t⟩ <;> rfl

theorem exec_raising (fault : Option ε) (s : σ) :
    exec (raising fault : Effect σ ε Unit) s = (faultResult fault, s) := by
  cases fault <;> rfl

/-! ### What a program may do -/

/-- However the program ends, it has changed the state only in this way. -/
def Within (R : σ → σ → Prop) (p : Effect σ ε α) : Prop := ∀ s, R s (exec p s).2

section Closed

variable {R : σ → σ → Prop}

theorem within_pure [Std.Refl R] (a : α) : Within R (pure a : Effect σ ε α) := fun s => refl_of R s

theorem within_throw [Std.Refl R] (e : ε) : Within R (throw e : Effect σ ε α) :=
  fun s => refl_of R s

theorem within_raising [Std.Refl R] (fault : Option ε) :
    Within R (raising fault : Effect σ ε Unit) := by
  cases fault with
  | none => exact within_pure ()
  | some e => exact within_throw e

theorem within_check [Std.Refl R] (c : Prop) [Decidable c] (e : ε) :
    Within R (check c e : Effect σ ε Unit) := by
  unfold check
  split
  · exact within_pure ()
  · exact within_throw e

theorem Within.bind [IsTrans σ R] {p : Effect σ ε α} {f : α → Effect σ ε β} (hp : Within R p)
    (hf : ∀ a, Within R (f a)) : Within R (p >>= f) := by
  intro s
  have hs := hp s
  rw [exec_bind]
  rcases hrun : exec p s with ⟨e | a, t⟩
  · rwa [hrun] at hs
  · rw [hrun] at hs
    exact trans_of R hs (hf a t)

theorem Within.tryCatch [IsTrans σ R] {p : Effect σ ε α} {h : ε → Effect σ ε α} (hp : Within R p)
    (hh : ∀ e, Within R (h e)) : Within R (tryCatch p h) := by
  intro s
  have hs := hp s
  rw [exec_tryCatch]
  rcases hrun : exec p s with ⟨e | a, t⟩
  · rw [hrun] at hs
    exact trans_of R hs (hh e t)
  · rwa [hrun] at hs

theorem Within.ensuring [IsTrans σ R] {p : Effect σ ε α} {last : Effect σ ε Unit}
    (hp : Within R p) (hl : Within R last) : Within R (ensuring p last) := by
  intro s
  have hs := trans_of R (hp s) (hl (exec p s).2)
  rw [exec_ensuring]
  show R s (match exec last (exec p s).2 with
    | (.ok _, u) => ((exec p s).1, u)
    | (.error e, u) => (.error e, u)).2
  rcases hrun : exec last (exec p s).2 with ⟨e | a, t⟩
  · rwa [hrun] at hs
  · rwa [hrun] at hs

end Closed

end Effects
