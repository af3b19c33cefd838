/-
RcloneSync/PairPlanner.lean

Which sync pairs may not run at the same time (`app/jobs/pair_planner.py`), and the
canonical form of a remote path (`normalize_remote_path` of `app/security.py`).

Two endpoints overlap when one is the other or lies below it.  Remote paths are
compared as text, local ones after resolving symbolic links; `resolve` stands for
`Path(path).resolve().parts` and is `none` where resolving raises.
-/
import RcloneSync.PosixPath
import RcloneSync.PyValue

namespace RcloneSync

open Py

/-- `Path(path).resolve().parts`, `none` when resolving raises. -/
abbrev Resolver := String → Option (List String)

def isRemote (path : String) : Bool :=
  path ≠ "" && !isAbsolutePath path && !startsWith path "-" && path.toList.contains ':'

/-- `canonical_remote` of `paths_overlap`. -/
def canonicalRemote (value : String) : String :=
  casefold (beforeSep ':' value) ++ ":" ++
    rstripOf (· = '/') ("/" ++ lstripOf (· = '/') ((afterSep ':' value).getD ""))

def pathsOverlap (resolve : Resolver) (a b : String) : Bool :=
  if a = "" ∨ b = "" ∨ isRemote a ≠ isRemote b then false
  else if isRemote a then
    let aa := canonicalRemote a
    let bb := canonicalRemote b
    aa = bb || startsWith aa (bb ++ "/") || startsWith bb (aa ++ "/")
  else match resolve a, resolve b with
    | some pa, some pb =>
      let aa := pa.map casefold
      let bb := pb.map casefold
      aa = bb || bb.isPrefixOf aa || aa.isPrefixOf bb
    -- an endpoint whose identity is unclear is planned serially
    | _, _ => true

/-- The two endpoints of a pair or of a stored endpoint record. -/
def endpoints (pair : Dict) : List String := [pair.textOr "local" "", pair.textOr "remote" ""]

def pairsConflict (resolve : Resolver) (first second : Dict) : Bool :=
  (endpoints first).any fun a => (endpoints second).any fun b => pathsOverlap resolve a b

def normalizeRemotePath (path : String) : String :=
  match afterSep ':' path with
  | none => rstripOf (· = '/') path
  | some rest =>
    let remote := beforeSep ':' path
    let stripped := rstripOf (· = '/') (lstripOf (· = '/') rest)
    if stripped = "" then remote ++ ":"
    else
      let cleaned := normPath ("/" ++ stripped)
      if cleaned = "/" then remote ++ ":" else remote ++ ":" ++ cleaned

/-! ### Overlap does not depend on the order -/

/-- The three ways two names can be related are symmetric together. -/
theorem related_comm {α : Type*} [DecidableEq α] (below : α → α → Bool) (a b : α) :
    (decide (a = b) || below a b || below b a) = (decide (b = a) || below b a || below a b) := by
  rw [Bool.eq_iff_iff]
  simp only [Bool.or_eq_true, decide_eq_true_eq]
  constructor <;>
  · rintro ((h | h) | h)
    · exact Or.inl (Or.inl h.symm)
    · exact Or.inr h
    · exact Or.inl (Or.inr h)

theorem pathsOverlap_comm (resolve : Resolver) (a b : String) :
    pathsOverlap resolve a b = pathsOverlap resolve b a := by
  unfold pathsOverlap
  by_cases h : a = "" ∨ b = "" ∨ isRemote a ≠ isRemote b
  · rw [if_pos h, if_pos]
    rcases h with h | h | h
    · exact Or.inr (Or.inl h)
    · exact Or.inl h
    · exact Or.inr (Or.inr h.symm)
  · have h' : ¬ (b = "" ∨ a = "" ∨ isRemote b ≠ isRemote a) := by
      rintro (hb | ha | hne)
      · exact h (Or.inr (Or.inl hb))
      · exact h (Or.inl ha)
      · exact h (Or.inr (Or.inr hne.symm))
    rw [if_neg h, if_neg h']
    have hsame : isRemote a = isRemote b := by
      by_contra hne
      exact h (Or.inr (Or.inr hne))
    rw [hsame]
    rcases isRemote b with - | -
    · simp only [Bool.false_eq_true, if_false]
      rcases resolve a with - | pa <;> rcases resolve b with - | pb
      · rfl
      · rfl
      · rfl
      · exact related_comm (fun p q => q.isPrefixOf p) (pa.map casefold) (pb.map casefold)
    · exact related_comm (fun p q => startsWith p (q ++ "/")) (canonicalRemote a)
        (canonicalRemote b)

theorem pairsConflict_comm (resolve : Resolver) (p q : Dict) :
    pairsConflict resolve p q = pairsConflict resolve q p := by
  rw [Bool.eq_iff_iff]
  simp only [pairsConflict, List.any_eq_true]
  constructor <;>
  · rintro ⟨a, ha, b, hb, hab⟩
    exact ⟨b, hb, a, ha, by rwa [pathsOverlap_comm]⟩

end RcloneSync
