/-
RcloneSync/GuardCoverage.lean

Two readings of direction and mode.  The command builder trims and lower-cases both
and reads a missing direction as bisync; the anomaly guard (`isDestructive`) folds the
case of the raw text and reads a missing direction as none.  They agree on a pair
exactly when it is `ReadAlike`: what makes its command delete is written without
surrounding white space, is not left out, and uses no letter that only case folding
turns into ASCII.
-/
import RcloneSync.Protection

namespace RcloneSync

open Py

variable {pair : Dict}

/-- The direction and mode of a pair mean the same to the builder and to the guard. -/
structure ReadAlike (pair : Dict) : Prop where
  bisync : pairDirection pair = "bisync" →
    (truthy (pair.get "direction") = true ∧
        strip (pair.textOr "direction" "") = pair.textOr "direction" "") ∨
      casefold (pair.textOr "mode" "") = "sync"
  oneWay : pairDirection pair ≠ "bisync" →
    (pairMode pair = "sync" → strip (pair.textOr "mode" "") = pair.textOr "mode" "") ∧
      (casefold (pair.textOr "mode" "") = "sync" → lower (pair.textOr "mode" "") = "sync")

/-! ### A word in three readings -/

/-- A word of ASCII letters without white space. -/
def PlainWord (w : String) : Prop :=
  w ≠ "" ∧ ∀ c ∈ w.toList, isSpace c = false ∧ c.toNat < 128 ∧ c.toNat ≠ 0

instance (w : String) : Decidable (PlainWord w) :=
  @instDecidableAnd _ _ _ (List.decidableBAll _ w.toList)

theorem casefold_of_lower_eq {s w : String} (hw : PlainWord w) (h : lower s = w) :
    casefold s = w := by
  rw [casefold_of_lower fun c hc => (hw.2 c (h ▸ hc)).2, h]

theorem strip_of_casefold_eq {s w : String} (hw : PlainWord w) (h : casefold s = w) :
    strip s = s :=
  strip_of_casefold fun c hc => (hw.2 c (h ▸ hc)).1

theorem textOr_of_truthy {key : String} (h : truthy (pair.get key) = true) (fallback : String) :
    pair.textOr key fallback = pyStr (pair.get key) := by
  simp [Dict.textOr, pyOr, h]

theorem textOr_of_falsy {key : String} (h : truthy (pair.get key) = false) (fallback : String) :
    pair.textOr key fallback = fallback := by
  simp [Dict.textOr, pyOr, h]

/-- Folding the raw text and trimming its lower case find the same word when the text is trimmed
already. -/
theorem casefold_iff_trimmed {s w : String} (hw : PlainWord w) (h : lower (strip s) = w) :
    casefold s = w ↔ strip s = s := by
  constructor
  · exact strip_of_casefold_eq hw
  · intro hs
    exact casefold_of_lower_eq hw (by rw [← h, hs])

/-! ### Direction and mode -/

theorem pairDirection_of_truthy (h : truthy (pair.get "direction") = true) :
    pairDirection pair = lower (strip (pair.textOr "direction" "")) := by
  rw [pairDirection, strip_lower, textOr_of_truthy h, textOr_of_truthy h]

theorem pairMode_of_truthy (h : truthy (pair.get "mode") = true) :
    pairMode pair = lower (strip (pair.textOr "mode" "")) := by
  rw [pairMode, strip_lower, textOr_of_truthy h, textOr_of_truthy h]

theorem truthy_of_casefold {key w : String} (hw : PlainWord w)
    (h : casefold (pair.textOr key "") = w) : truthy (pair.get key) = true := by
  by_contra hno
  rw [textOr_of_falsy (by simpa using hno)] at h
  exact hw.1 (h ▸ rfl)

/-- A direction that the guard reads as bisync is no one-way direction of the builder. -/
theorem casefold_direction_ne {w : String} (hw : PlainWord w) (hne : w ≠ "bisync")
    (h : pairDirection pair = w) : casefold (pair.textOr "direction" "") ≠ "bisync" := by
  have hbisync : PlainWord "bisync" := by decide
  intro hfold
  have htruthy := truthy_of_casefold hbisync hfold
  have hstrip := strip_of_casefold_eq hbisync hfold
  rw [pairDirection_of_truthy htruthy, hstrip] at h
  exact hne ((casefold_of_lower_eq hw h).symm.trans hfold)

/-- The verb of a pair that can be built. -/
theorem pairRoute_verb {route : PairRoute} (h : pairRoute pair = .ok route) :
    pairDirection pair = "bisync" ∧ route.verb = "bisync" ∨
      (pairDirection pair = "pull" ∨ pairDirection pair = "push") ∧
        route.verb = if pairMode pair = "sync" then "sync" else "copy" := by
  unfold pairRoute at h
  split at h
  · cases h
  · cases h
  · dsimp only at h
    by_cases h₁ : pairDirection pair = "bisync"
    · rw [if_pos h₁] at h
      exact Or.inl ⟨h₁, by rw [← Except.ok.inj h]⟩
    · rw [if_neg h₁] at h
      by_cases h₂ : pairDirection pair = "pull"
      · rw [if_pos h₂] at h
        exact Or.inr ⟨Or.inl h₂, by rw [← Except.ok.inj h]⟩
      · rw [if_neg h₂] at h
        by_cases h₃ : pairDirection pair = "push"
        · rw [if_pos h₃] at h
          exact Or.inr ⟨Or.inr h₃, by rw [← Except.ok.inj h]⟩
        · rw [if_neg h₃] at h
          cases h

/-! ### Main result -/

theorem isDestructive_iff :
    isDestructive pair = true ↔ casefold (pair.textOr "direction" "") = "bisync" ∨
      casefold (pair.textOr "mode" "") = "sync" := by
  simp [isDestructive]

/-- **The guard covers the deleting verbs** exactly on the pairs that both read alike. -/
theorem guard_covers_iff {env : PairEnv} {cfg : Dict} {baseArgs : List String} {dryRun : Bool}
    {c : PairCommand} (h : buildPairCommand env cfg pair baseArgs dryRun = .ok c) :
    (isDestructive pair = true ↔ deletingVerb c.route.verb = true) ↔ ReadAlike pair := by
  obtain ⟨b⟩ := buildPairCommand_ok h
  have hbisync : PlainWord "bisync" := by decide
  have hsync : PlainWord "sync" := by decide
  rcases pairRoute_verb b.route_eq with ⟨hdir, hverb⟩ | ⟨hdir, hverb⟩
  · have hdelete : deletingVerb c.route.verb = true := by rw [hverb]; decide
    have hraw : casefold (pair.textOr "direction" "") = "bisync" ↔
        truthy (pair.get "direction") = true ∧
          strip (pair.textOr "direction" "") = pair.textOr "direction" "" := by
      constructor
      · intro hfold
        exact ⟨truthy_of_casefold hbisync hfold, strip_of_casefold_eq hbisync hfold⟩
      · rintro ⟨htruthy, hstrip⟩
        rw [pairDirection_of_truthy htruthy] at hdir
        exact (casefold_iff_trimmed hbisync hdir).mpr hstrip
    rw [iff_true_right hdelete, isDestructive_iff, hraw]
    exact ⟨fun hor => ⟨fun _ => hor, fun hne => absurd hdir hne⟩, fun hread => hread.bisync hdir⟩
  · have hne : pairDirection pair ≠ "bisync" := by
      rcases hdir with hdir | hdir <;> rw [hdir] <;> decide
    have hnofold : casefold (pair.textOr "direction" "") ≠ "bisync" := by
      rcases hdir with hdir | hdir
      · exact casefold_direction_ne (by decide) (by decide) hdir
      · exact casefold_direction_ne (by decide) (by decide) hdir
    have hdelete : deletingVerb c.route.verb = true ↔ pairMode pair = "sync" := by
      rw [hverb]
      split_ifs with hmode
      · exact iff_of_true (by decide) hmode
      · exact iff_of_false (by decide) hmode
    have hmode : pairMode pair = "sync" → truthy (pair.get "mode") = true := by
      intro hmode
      by_contra hno
      rw [pairMode, textOr_of_falsy (by simpa using hno)] at hmode
      revert hmode
      decide
    rw [isDestructive_iff, or_iff_right hnofold, hdelete]
    constructor
    · intro hiff
      refine ⟨fun h => absurd h hne, fun _ => ⟨fun hm => ?_, fun hfold => ?_⟩⟩
      · exact strip_of_casefold_eq hsync (hiff.mpr hm)
      · have hm := hiff.mp hfold
        rwa [pairMode_of_truthy (hmode hm), strip_of_casefold_eq hsync hfold] at hm
    · intro hread
      obtain ⟨htrim, hlower⟩ := hread.oneWay hne
      constructor
      · intro hfold
        rw [pairMode_of_truthy (truthy_of_casefold hsync hfold), strip_of_casefold_eq hsync hfold]
        exact hlower hfold
      · intro hm
        have hm' := pairMode_of_truthy (hmode hm) ▸ hm
        exact (casefold_iff_trimmed hsync hm').mpr (htrim hm)

/-- A push in sync mode is read alike and guarded. -/
theorem guard_covers_photo : isDestructive photoPair = true ↔
    deletingVerb (photoCommand ["--max-delete=5"]).route.verb = true := by
  have hbuild : buildPairCommand photoEnv [] photoPair [] false
      = .ok (photoCommand ["--max-delete=5"]) := by
    decide +kernel
  have hpush : pairDirection photoPair ≠ "bisync" := by decide +kernel
  exact (guard_covers_iff hbuild).mpr ⟨fun h => absurd h hpush,
    fun _ => ⟨fun _ => by decide +kernel, fun _ => by decide +kernel⟩⟩

/-- A pair that leaves its direction out. -/
def undirectedPair : Dict :=
  [("remote", .str "box:photos"), ("local", .str "/photos"), ("allow_delete", .bool true),
   ("max_delete", .int 5)]

/-- A pair without a direction runs bisync past the guard. -/
theorem guard_misses_bisync :
    ∃ c, buildPairCommand photoEnv [] undirectedPair [] false = .ok c ∧
      c.route.verb = "bisync" ∧ isDestructive undirectedPair = false := by
  have hrun : ∃ c, buildPairCommand photoEnv [] undirectedPair [] false = .ok c := by
    rcases h : buildPairCommand photoEnv [] undirectedPair [] false with e | c
    · have hok : (buildPairCommand photoEnv [] undirectedPair [] false).isOk = true := by
        decide +kernel
      simp [h, Except.isOk, Except.toBool] at hok
    · exact ⟨c, rfl⟩
  obtain ⟨c, hc⟩ := hrun
  obtain ⟨b⟩ := buildPairCommand_ok hc
  have hdir : pairDirection undirectedPair = "bisync" := by decide +kernel
  have hverb : c.route.verb = "bisync" := by
    rcases pairRoute_verb b.route_eq with ⟨-, hverb⟩ | ⟨hdir' | hdir', -⟩
    · exact hverb
    · exact absurd (hdir.symm.trans hdir') (by decide)
    · exact absurd (hdir.symm.trans hdir') (by decide)
  exact ⟨c, hc, hverb, by decide +kernel⟩

end RcloneSync
