/-
RcloneSync/RemoteListing.lean

The listing of a remote point as it comes in (`_remote_listing`, recovery_points.py).

The output of the command arrives in blocks.  Each block is decoded as far as it makes characters,
and each entry of the JSON array is read as soon as its text is complete; what is left waits for
the next block.  With one entry more than are shown, the rest is not read.

A step that was possible on what had arrived is the step on the whole text (`listingStep_append`),
so that the blocks make no difference (`listBlocks_agrees`), and one run over the whole text reads
it as an array (`wholeRun_start`).
-/
import RcloneSync.JsonPrefix
import RcloneSync.RecoveryPointIds
import RcloneSync.Utf8

namespace RcloneSync

open Py

/-! ### Entry by entry -/

/-- `str.lstrip()`. -/
def stripStart (cs : List Char) : List Char := cs.dropWhile isSpace

/-- What has arrived and is not read yet, and where in the array it stands. -/
structure ListingState where
  pending : List Char
  started : Bool
  needValue : Bool
  mayEnd : Bool
  finished : Bool
  deriving DecidableEq, Repr

def ListingState.start : ListingState := ⟨[], false, true, true, false⟩

/-- `pending += …`. -/
def ListingState.feed (s : ListingState) (cs : List Char) : ListingState :=
  { s with pending := s.pending ++ cs }

/-- The bracket that closes the array is read here. -/
def ListingState.closes (s : ListingState) (c : Char) : Bool :=
  c = ']' && (!s.needValue || s.mayEnd)

inductive ListingStep
  | wait (s : ListingState)
  | fail
  | move (s : ListingState) (item : Option Dict)
  deriving DecidableEq

/-- One round of the loop in `parse`; it waits if nothing is left or an entry is not complete. -/
def listingStep (s : ListingState) : ListingStep :=
  match stripStart s.pending with
  | [] => .wait { s with pending := [] }
  | c :: rest =>
    if s.finished then .fail
    else if !s.started then
      if c = '[' then .move { s with pending := rest, started := true } none else .fail
    else if s.closes c then
      .move { s with pending := rest, finished := true } none
    else if !s.needValue then
      if c = ',' then .move { s with pending := rest, needValue := true, mayEnd := false } none
      else .fail
    else
      match readValue (rest.length + 1) (c :: rest) with
      | none => .wait { s with pending := c :: rest }
      | some (.dict d, rest) => .move { s with pending := rest, needValue := false } (some d)
      | some _ => .fail

def maxBrowseItems : Nat := 500

def invalidListing : PointError := .point "Recovery-Punkt lieferte ungültige Daten"

/-- The entries that a block completes, up to one more than are shown; nothing is left of the
state then. -/
def drain : Nat → List Dict → ListingState →
    Except PointError (List Dict × Option ListingState)
  | 0, items, s => .ok (items, some s)
  | fuel + 1, items, s =>
    match listingStep s with
    | .wait s => .ok (items, some s)
    | .fail => .error invalidListing
    | .move s none => drain fuel items s
    | .move s (some d) =>
      if maxBrowseItems < (items ++ [d]).length then .ok (items ++ [d], none)
      else drain fuel (items ++ [d]) s

/-- `items.extend(parse(final=True))`. -/
def drainFinal : Nat → List Dict → ListingState → Except PointError (List Dict)
  | 0, _, _ => .error invalidListing
  | fuel + 1, items, s =>
    match listingStep s with
    | .wait s => if s.finished && s.pending.isEmpty then .ok items else .error invalidListing
    | .fail => .error invalidListing
    | .move s none => drainFinal fuel items s
    | .move s (some d) => drainFinal fuel (items ++ [d]) s

/-! ### Block by block -/

def maxRemoteBytes : Nat := 8 * 1024 * 1024

/-- What the command does: the blocks of its output, and how it ends. -/
structure CommandRun where
  blocks : List (List UInt8)
  timedOut : Bool
  returncode : Int
  deriving DecidableEq, Repr

/-- The loop over the blocks that `_remote_chunks` yields. -/
def listBlocks : Nat → Utf8State → List Dict → ListingState → List (List UInt8) →
    Except PointError (List Dict × Option (Utf8State × ListingState))
  | _, u, items, s, [] => .ok (items, some (u, s))
  | total, u, items, s, block :: blocks =>
    if maxRemoteBytes < total + block.length then
      .error (.point "Recovery-Listing überschreitet das Datenlimit")
    else
      match decodeBlock u block with
      | none => .error invalidListing
      | some (u, cs) =>
        match drain ((s.feed cs).pending.length + 1) items (s.feed cs) with
        | .error e => .error e
        | .ok (items, none) => .ok (items, none)
        | .ok (items, some s) => listBlocks (total + block.length) u items s blocks

/-- `_remote_listing`. -/
def remoteListing (run : CommandRun) : Except PointError (List Dict × Bool) :=
  match listBlocks 0 .start [] .start run.blocks with
  | .error e => .error e
  | .ok (items, none) => .ok (items.take maxBrowseItems, true)
  | .ok (items, some (u, s)) =>
    if run.timedOut then .error (.point "Recovery-Listing hat das Zeitlimit überschritten")
    else if run.returncode ≠ 0 then
      .error (.point ("Recovery-Punkt konnte nicht gelesen werden (exit " ++
        toString run.returncode ++ ")"))
    else if u.owed ≠ 0 then .error invalidListing
    else (drainFinal (s.pending.length + 1) items s).map (·, false)

/-! ### The whole text -/

/-- The entries of an array and the text behind its bracket, with what counts as blank between
them. -/
def entriesOf (blank : Char → Bool) : Nat → List Char → Option (List Dict × List Char)
  | 0, _ => none
  | fuel + 1, cs => do
    let (x, rest) ← readValue cs.length cs
    let d ← asDict x
    match rest.dropWhile blank with
    | [] => none
    | c :: rest =>
      if c = ']' then some ([d], rest)
      else if c = ',' then do
        let (ds, rest) ← entriesOf blank fuel (rest.dropWhile blank)
        some (d :: ds, rest)
      else none

/-- The text as one array of objects. -/
def arrayOf (blank : Char → Bool) (cs : List Char) : Option (List Dict) := do
  let rest ← behindWord ['['] (cs.dropWhile blank)
  let (ds, rest) ← readUnless ']' (entriesOf blank (rest.length + 1)) (rest.dropWhile blank)
  if rest.dropWhile blank = [] then some ds else none

/-- The entries up to where the text stops being an array of objects. -/
def leadingItems : Nat → List Char → List Dict
  | 0, _ => []
  | fuel + 1, cs =>
    match readValue cs.length cs with
    | some (.dict d, rest) =>
      match behindWord [','] (stripStart rest) with
      | some rest => d :: leadingItems fuel (stripStart rest)
      | none => [d]
    | _ => []

def leadingEntries (cs : List Char) : List Dict :=
  match behindWord ['['] (stripStart cs) with
  | none => []
  | some rest => leadingItems (rest.length + 1) (stripStart rest)

/-- The listing that a whole text gives. -/
def listingOf (cs : List Char) : Except PointError (List Dict × Bool) :=
  if maxBrowseItems < (leadingEntries cs).length then
    .ok ((leadingEntries cs).take maxBrowseItems, true)
  else
    match arrayOf isSpace cs with
    | some ds => .ok (ds, false)
    | none => .error invalidListing

/-! ### A step on what has arrived -/

section Feed

variable (s : ListingState) (more : List Char)

@[simp] theorem feed_started : (s.feed more).started = s.started := rfl

@[simp] theorem feed_needValue : (s.feed more).needValue = s.needValue := rfl

@[simp] theorem feed_finished : (s.feed more).finished = s.finished := rfl

@[simp] theorem feed_closes (c : Char) : (s.feed more).closes c = s.closes c := rfl

end Feed

theorem stripStart_append {cs : List Char} (h : stripStart cs ≠ []) (more : List Char) :
    stripStart (cs ++ more) = stripStart cs ++ more := by
  unfold stripStart at h ⊢
  rw [List.dropWhile_append]
  split
  · next hempty => exact absurd (List.isEmpty_iff.mp hempty) h
  · rfl

theorem stripStart_blank {cs : List Char} (h : stripStart cs = []) (more : List Char) :
    stripStart (cs ++ more) = stripStart more := by
  unfold stripStart at h ⊢
  rw [List.dropWhile_append, h]
  rfl

theorem stripStart_idem (cs : List Char) : stripStart (stripStart cs) = stripStart cs :=
  List.dropWhile_idempotent isSpace cs

theorem length_stripStart (cs : List Char) : (stripStart cs).length ≤ cs.length :=
  length_dropWhile_le isSpace cs

/-- Words and numbers are neither mappings nor lists. -/
theorem readScalar_leaf {cs rest : List Char} {v : Value} (h : readScalar cs = some (v, rest)) :
    asDict v = none ∧ ∀ xs, v ≠ .list xs := by
  have hnumber : ∀ {sign : Int} {cs : List Char}, readUnsigned sign cs = some (v, rest) →
      asDict v = none ∧ ∀ xs, v ≠ .list xs := by
    intro sign cs h
    unfold readUnsigned at h
    dsimp only at h
    split at h
    · cases h
    · split at h
      · obtain ⟨rfl, -⟩ := Prod.mk.inj (Option.some.inj h)
        exact ⟨rfl, fun xs hxs => by cases hxs⟩
      · obtain ⟨rfl, -⟩ := Prod.mk.inj (Option.some.inj h)
        exact ⟨rfl, fun xs hxs => by cases hxs⟩
  unfold readScalar at h
  split at h
  · next r hword =>
    obtain rfl := Option.some.inj h
    obtain ⟨w, hw, hsame⟩ := List.exists_of_findSome?_eq_some hword
    obtain ⟨tail, -, hsame⟩ := Option.map_eq_some_iff.mp hsame
    obtain ⟨rfl, -⟩ := Prod.mk.inj hsame
    simp only [jsonWords, List.mem_cons, List.not_mem_nil, or_false] at hw
    rcases hw with rfl | rfl | rfl | rfl | rfl | rfl
    all_goals exact ⟨rfl, fun xs hxs => by cases hxs⟩
  · split at h
    · exact hnumber h
    · exact hnumber h

/-- Only a brace opens a mapping, and it opens nothing else. -/
theorem asDict_readValue {fuel : Nat} {c : Char} {cs rest : List Char} {v : Value}
    (h : readValue (fuel + 1) (c :: cs) = some (v, rest)) :
    (asDict v).isSome = true ↔ c = '\x7b' := by
  by_cases hquote : c = '"'
  · subst hquote
    rw [readValue_quote] at h
    obtain ⟨r, -, hsame⟩ := Option.map_eq_some_iff.mp h
    obtain ⟨rfl, -⟩ := Prod.mk.inj hsame
    exact ⟨(by cases ·), (by cases ·)⟩
  by_cases hbracket : c = '['
  · subst hbracket
    rw [readValue_bracket] at h
    obtain ⟨r, -, hsame⟩ := Option.map_eq_some_iff.mp h
    obtain ⟨rfl, -⟩ := Prod.mk.inj hsame
    exact ⟨(by cases ·), (by cases ·)⟩
  by_cases hbrace : c = '\x7b'
  · subst hbrace
    rw [readValue_brace] at h
    obtain ⟨r, -, hsame⟩ := Option.map_eq_some_iff.mp h
    obtain ⟨rfl, -⟩ := Prod.mk.inj hsame
    exact ⟨fun _ => rfl, fun _ => rfl⟩
  · rw [readValue, if_neg hquote, if_neg hbracket, if_neg hbrace] at h
    rw [(readScalar_leaf h).1]
    exact ⟨(by cases ·), fun hc => absurd hc hbrace⟩

/-- **A step on what has arrived is a step on the whole text**, and it consumes something. -/
theorem listingStep_append {s t : ListingState} {item : Option Dict}
    (h : listingStep s = .move t item) :
    t.pending.length < s.pending.length ∧
      ∀ more, listingStep (s.feed more) = .move (t.feed more) item := by
  have hlength := length_stripStart s.pending
  unfold listingStep at h
  split at h
  · cases h
  next c rest hpending =>
  have happend : ∀ more, stripStart (s.feed more).pending = c :: (rest ++ more) := by
    intro more
    have hne : stripStart s.pending ≠ [] := by
      rw [hpending]
      exact List.cons_ne_nil _ _
    show stripStart (s.pending ++ more) = _
    rw [stripStart_append hne, hpending]
    rfl
  rw [hpending, List.length_cons] at hlength
  split at h
  · cases h
  next hfinished =>
  split at h
  · next hstarted =>
    split at h
    · next hopen =>
      cases h
      refine ⟨hlength, fun more => ?_⟩
      simp only [listingStep, happend]
      simp [hfinished, hstarted, hopen]
      rfl
    · cases h
  next hstarted =>
  split at h
  · next hclose =>
    cases h
    refine ⟨hlength, fun more => ?_⟩
    simp only [listingStep, happend]
    simp [hfinished, hstarted, hclose]
    rfl
  next hclose =>
  split at h
  · next hneed =>
    split at h
    · next hcomma =>
      cases h
      refine ⟨hlength, fun more => ?_⟩
      simp only [listingStep, happend]
      simp [hfinished, hstarted, hcomma, hneed]
      rfl
    · cases h
  next hneed =>
  split at h
  · cases h
  · next d tail hvalue =>
    cases h
    have hbrace : c = '\x7b' := (asDict_readValue hvalue).mp rfl
    obtain ⟨hshort, hextend⟩ := (readsAlong _).value hvalue
    rw [List.length_cons] at hshort
    refine ⟨by dsimp only; omega, fun more => ?_⟩
    have hmore := hextend more ((rest ++ more).length + 1)
      (by simp only [List.length_cons, List.length_append]; omega)
      (.inr (.inr (.inr (.inr hbrace))))
    rw [List.cons_append] at hmore
    simp only [listingStep, happend]
    rw [hmore]
    simp [hfinished, hstarted, hclose, hneed]
    rfl
  · cases h

/-- What fails on what has arrived fails on the whole text, at the latest in the end. -/
theorem listingStep_fail_append {s : ListingState} (h : listingStep s = .fail)
    (more : List Char) : listingStep (s.feed more) = .fail ∨
      ∃ t, listingStep (s.feed more) = .wait t ∧ (t.finished && t.pending.isEmpty) = false := by
  unfold listingStep at h
  split at h
  · cases h
  next c rest hpending =>
  have happend : stripStart (s.feed more).pending = c :: (rest ++ more) := by
    have hne : stripStart s.pending ≠ [] := by
      rw [hpending]
      exact List.cons_ne_nil _ _
    show stripStart (s.pending ++ more) = _
    rw [stripStart_append hne, hpending]
    rfl
  split at h
  · next hfinished =>
    left
    simp only [listingStep, happend]
    simp [hfinished]
  next hfinished =>
  split at h
  · next hstarted =>
    split at h
    · cases h
    · next hopen =>
      left
      simp only [listingStep, happend]
      simp [hfinished, hstarted, hopen]
  next hstarted =>
  split at h
  · cases h
  next hclose =>
  split at h
  · next hneed =>
    split at h
    · cases h
    · next hcomma =>
      left
      simp only [listingStep, happend]
      simp [hfinished, hstarted, hclose, hneed, hcomma]
  next hneed =>
  simp only [listingStep, happend]
  split at h
  · cases h
  · cases h
  · next r hdict hvalue =>
    obtain ⟨v, tail⟩ := r
    have hbrace : c ≠ '\x7b' := by
      intro hbrace
      have hsome := (asDict_readValue hvalue).mpr hbrace
      cases v with
      | dict d => exact hdict d tail rfl
      | none | bool | int | float | str | list => cases hsome
    cases hmore : readValue ((rest ++ more).length + 1) (c :: (rest ++ more)) with
    | none =>
      refine .inr ⟨{ s.feed more with pending := c :: (rest ++ more) }, ?_, by simp⟩
      simp [hfinished, hstarted, hclose, hneed]
    | some r =>
      obtain ⟨w, tail⟩ := r
      left
      cases w with
      | dict d => exact absurd ((asDict_readValue hmore).mp rfl) hbrace
      | none | bool | int | float | str | list => simp [hfinished, hstarted, hclose, hneed]

/-! ### Reading the rest of a text -/

/-- How a run over a whole text ends. -/
def finishRun : List Dict × Option ListingState → Except PointError (List Dict × Bool)
  | (items, none) => .ok (items.take maxBrowseItems, true)
  | (items, some s) =>
    if s.finished && s.pending.isEmpty then .ok (items, false) else .error invalidListing

/-- The run from a state on, if nothing else arrives. -/
def wholeRun (items : List Dict) (s : ListingState) : Except PointError (List Dict × Bool) :=
  (drain (s.pending.length + 1) items s).bind finishRun

section Drain

variable {s t : ListingState} {items : List Dict}

theorem length_of_move {item : Option Dict} (h : listingStep s = .move t item) :
    t.pending.length < s.pending.length := (listingStep_append h).1

theorem drain_fuel {f g : Nat} (hf : s.pending.length < f) (hg : s.pending.length < g) :
    drain f items s = drain g items s := by
  induction f generalizing g items s with
  | zero => cases hf
  | succ f ih =>
    obtain ⟨g, rfl⟩ := exists_succ (Nat.succ_pos _) hg
    unfold drain
    cases hstep : listingStep s with
    | wait t => rfl
    | fail => rfl
    | move t item =>
      have hlength := length_of_move hstep
      cases item with
      | none => exact ih (by omega) (by omega)
      | some d =>
        dsimp only
        split
        · rfl
        · exact ih (by omega) (by omega)

theorem wholeRun_wait (h : listingStep s = .wait t) :
    wholeRun items s = finishRun (items, some t) := by
  unfold wholeRun drain
  rw [h]
  rfl

theorem wholeRun_fail (h : listingStep s = .fail) : wholeRun items s = .error invalidListing := by
  unfold wholeRun drain
  rw [h]
  rfl

theorem wholeRun_move (h : listingStep s = .move t none) : wholeRun items s = wholeRun items t := by
  have hlength := length_of_move h
  unfold wholeRun
  rw [drain, h]
  dsimp only
  rw [@drain_fuel t items s.pending.length (t.pending.length + 1) hlength (by omega)]

theorem wholeRun_item {d : Dict} (h : listingStep s = .move t (some d)) : wholeRun items s =
    if maxBrowseItems < (items ++ [d]).length then .ok ((items ++ [d]).take maxBrowseItems, true)
    else wholeRun (items ++ [d]) t := by
  have hlength := length_of_move h
  unfold wholeRun
  rw [drain, h]
  dsimp only
  split
  · rfl
  · rw [@drain_fuel t (items ++ [d]) s.pending.length (t.pending.length + 1) hlength (by omega)]

/-- The run goes on from where a block has left it. -/
def resume (more : List Char) : List Dict × Option ListingState →
    Except PointError (List Dict × Bool)
  | (items, none) => .ok (items.take maxBrowseItems, true)
  | (items, some s) => wholeRun items (s.feed more)

theorem listingStep_wait (h : listingStep s = .wait t) :
    listingStep t = .wait t ∧ ∀ more, listingStep (s.feed more) = listingStep (t.feed more) := by
  have hpending : t.pending = stripStart s.pending ∧ t.started = s.started ∧
      t.needValue = s.needValue ∧ t.mayEnd = s.mayEnd ∧ t.finished = s.finished := by
    unfold listingStep at h
    split at h
    · next hnil =>
      cases h
      exact ⟨hnil.symm, rfl, rfl, rfl, rfl⟩
    · next c rest hcons =>
      repeat' split at h
      all_goals cases h
      exact ⟨hcons.symm, rfl, rfl, rfl, rfl⟩
  obtain ⟨hpending, hstarted, hneed, hend, hfinished⟩ := hpending
  obtain ⟨pending, started, needValue, mayEnd, finished⟩ := t
  obtain ⟨pending', started', needValue', mayEnd', finished'⟩ := s
  dsimp only at hpending hstarted hneed hend hfinished
  subst hpending hstarted hneed hend hfinished
  have hsame : ∀ p p', stripStart p = stripStart p' →
      listingStep ⟨p, started, needValue, mayEnd, finished⟩ =
        listingStep ⟨p', started, needValue, mayEnd, finished⟩ := by
    intro p p' hp
    simp only [listingStep, hp, ListingState.closes]
  refine ⟨?_, fun more => hsame _ _ ?_⟩
  · rw [hsame _ pending' (stripStart_idem pending')]
    exact h
  · show stripStart (pending' ++ more) = stripStart (stripStart pending' ++ more)
    by_cases hblank : stripStart pending' = []
    · rw [stripStart_blank hblank, hblank]
      rfl
    · have hidem : stripStart (stripStart pending') ≠ [] := by
        rwa [stripStart_idem]
      rw [stripStart_append hblank, stripStart_append hidem, stripStart_idem]

theorem wholeRun_congr (h : listingStep s = listingStep t) :
    wholeRun items s = wholeRun items t := by
  cases hstep : listingStep s with
  | wait u => rw [wholeRun_wait hstep, wholeRun_wait (h.symm.trans hstep)]
  | fail => rw [wholeRun_fail hstep, wholeRun_fail (h.symm.trans hstep)]
  | move u item =>
    cases item with
    | none => rw [wholeRun_move hstep, wholeRun_move (h.symm.trans hstep)]
    | some d => rw [wholeRun_item hstep, wholeRun_item (h.symm.trans hstep)]

/-- **What a block has completed is what the whole text begins with.** -/
theorem wholeRun_feed {fuel : Nat} (hfuel : s.pending.length < fuel) (more : List Char) :
    wholeRun items (s.feed more) = (drain fuel items s).bind (resume more) := by
  induction fuel generalizing items s with
  | zero => cases hfuel
  | succ fuel ih =>
    unfold drain
    cases hstep : listingStep s with
    | wait t =>
      show wholeRun items (s.feed more) = wholeRun items (t.feed more)
      exact wholeRun_congr ((listingStep_wait hstep).2 more)
    | fail =>
      show _ = Except.error invalidListing
      rcases listingStep_fail_append hstep more with hfail | ⟨t, hwait, hend⟩
      · exact wholeRun_fail hfail
      · rw [wholeRun_wait hwait]
        show (if (t.finished && t.pending.isEmpty) = true then _ else _) = _
        rw [hend]
        rfl
    | move t item =>
      obtain ⟨hlength, happend⟩ := listingStep_append hstep
      have hfuel' : t.pending.length < fuel := by omega
      cases item with
      | none =>
        rw [wholeRun_move (happend more)]
        exact ih hfuel'
      | some d =>
        rw [wholeRun_item (happend more)]
        dsimp only
        split
        · rfl
        · exact ih hfuel'

/-- What a block leaves waits for more. -/
theorem drain_waits {fuel : Nat} {items' : List Dict} (hfuel : s.pending.length < fuel)
    (h : drain fuel items s = .ok (items', some t)) : listingStep t = .wait t := by
  induction fuel generalizing items s with
  | zero => cases hfuel
  | succ fuel ih =>
    unfold drain at h
    cases hstep : listingStep s with
    | wait u =>
      rw [hstep] at h
      cases h
      exact (listingStep_wait hstep).1
    | fail =>
      rw [hstep] at h
      cases h
    | move u item =>
      have hlength := length_of_move hstep
      rw [hstep] at h
      cases item with
      | none => exact ih (by omega) h
      | some d =>
        dsimp only at h
        split at h
        · cases h
        · exact ih (by omega) h

theorem drain_error {fuel : Nat} {e : PointError} (h : drain fuel items s = .error e) :
    e = invalidListing := by
  induction fuel generalizing items s with
  | zero => cases h
  | succ fuel ih =>
    unfold drain at h
    cases hstep : listingStep s with
    | wait u =>
      rw [hstep] at h
      cases h
    | fail =>
      rw [hstep] at h
      cases h
      rfl
    | move u item =>
      rw [hstep] at h
      cases item with
      | none => exact ih h
      | some d =>
        dsimp only at h
        split at h
        · cases h
        · exact ih h

theorem drainFinal_waits (h : listingStep s = .wait t) (fuel : Nat) :
    (drainFinal (fuel + 1) items s).map (·, false) = finishRun (items, some t) := by
  unfold drainFinal finishRun
  rw [h]
  dsimp only
  split <;> rfl

end Drain

/-! ### The blocks make no difference -/

theorem feed_feed (s : ListingState) (a b : List Char) : (s.feed a).feed b = s.feed (a ++ b) := by
  unfold ListingState.feed
  rw [List.append_assoc]

section Blocks

variable {u u' : Utf8State} {s : ListingState} {items : List Dict} {cs : List Char}
  {blocks : List (List UInt8)} {total : Nat}

/-- What the blocks have come to, against the run over the whole text. -/
def Agrees (u' : Utf8State) (whole : Except PointError (List Dict × Bool)) :
    Except PointError (List Dict × Option (Utf8State × ListingState)) → Prop
  | .error e => e = invalidListing ∧ whole = .error invalidListing
  | .ok (items, none) => whole = .ok (items.take maxBrowseItems, true)
  | .ok (items, some (v, t)) =>
    v = u' ∧ listingStep t = .wait t ∧ whole = finishRun (items, some t)

theorem listBlocks_agrees (hdecode : decodeBlock u blocks.flatten = some (u', cs))
    (hsize : total + blocks.flatten.length ≤ maxRemoteBytes) (hs : listingStep s = .wait s) :
    Agrees u' (wholeRun items (s.feed cs)) (listBlocks total u items s blocks) := by
  induction blocks generalizing u s items cs total with
  | nil =>
    obtain ⟨rfl, rfl⟩ := Prod.mk.inj (Option.some.inj hdecode)
    have hfeed : s.feed [] = s := by
      unfold ListingState.feed
      rw [List.append_nil]
    rw [hfeed]
    exact ⟨rfl, hs, wholeRun_wait hs⟩
  | cons block blocks ih =>
    rw [List.flatten_cons, decodeBlock_append] at hdecode
    simp only [Option.bind_eq_some_iff, Option.map_eq_some_iff, Prod.exists] at hdecode
    obtain ⟨v, ds, hblock, w, es, hrest, hsame⟩ := hdecode
    obtain ⟨rfl, rfl⟩ := Prod.mk.inj hsame
    rw [List.flatten_cons, List.length_append] at hsize
    unfold listBlocks
    rw [if_neg (by omega), hblock]
    dsimp only
    rw [← feed_feed, wholeRun_feed (Nat.lt_succ_self _)]
    cases hdrain : drain ((s.feed ds).pending.length + 1) items (s.feed ds) with
    | error e =>
      obtain rfl := drain_error hdrain
      exact ⟨rfl, rfl⟩
    | ok r =>
      obtain ⟨items', _ | t⟩ := r
      · rfl
      · exact ih hrest (by omega) (drain_waits (Nat.lt_succ_self _) hdrain)

theorem listBlocks_invalid (hdecode : decodeBlock u blocks.flatten = none)
    (hsize : total + blocks.flatten.length ≤ maxRemoteBytes) :
    listBlocks total u items s blocks = .error invalidListing ∨
      ∃ items', listBlocks total u items s blocks = .ok (items', none) ∧
        wholeRun items (s.feed (validText u blocks.flatten)) =
          .ok (items'.take maxBrowseItems, true) := by
  induction blocks generalizing u s items total with
  | nil => cases hdecode
  | cons block blocks ih =>
    rw [List.flatten_cons, List.length_append] at hsize
    unfold listBlocks
    rw [if_neg (by omega)]
    cases hblock : decodeBlock u block with
    | none => exact .inl rfl
    | some r =>
      obtain ⟨v, ds⟩ := r
      rw [List.flatten_cons, decodeBlock_append, hblock] at hdecode
      have hrest : decodeBlock v blocks.flatten = none := Option.map_eq_none_iff.mp hdecode
      rw [List.flatten_cons, validText_append hblock, ← feed_feed,
        wholeRun_feed (Nat.lt_succ_self _)]
      dsimp only
      cases hdrain : drain ((s.feed ds).pending.length + 1) items (s.feed ds) with
      | error e =>
        obtain rfl := drain_error hdrain
        exact .inl rfl
      | ok r =>
        obtain ⟨items', _ | t⟩ := r
        · exact .inr ⟨items', rfl, rfl⟩
        · exact ih hrest (by omega)

end Blocks

/-! ### The run over the whole text -/

/-- Behind the closing bracket stands nothing more. -/
theorem wholeRun_finished (items : List Dict) {s : ListingState} (h : s.finished = true) :
    wholeRun items s =
      if stripStart s.pending = [] then .ok (items, false) else .error invalidListing := by
  cases hpending : stripStart s.pending with
  | nil =>
    have hstep : listingStep s = .wait { s with pending := [] } := by
      unfold listingStep
      rw [hpending]
    rw [wholeRun_wait hstep]
    simp [finishRun, h]
  | cons c rest =>
    have hstep : listingStep s = .fail := by
      unfold listingStep
      rw [hpending]
      simp [h]
    rw [wholeRun_fail hstep, if_neg (List.cons_ne_nil _ _)]

/-- What the entries of an array come to, behind the ones that have been read. -/
def itemsOutcome (items : List Dict) (leading : List Dict)
    (loose : Option (List Dict × List Char)) : Except PointError (List Dict × Bool) :=
  if maxBrowseItems < (items ++ leading).length then
    .ok ((items ++ leading).take maxBrowseItems, true)
  else
    match loose with
    | none => .error invalidListing
    | some (ds, rest) =>
      if stripStart rest = [] then .ok (items ++ ds, false) else .error invalidListing

theorem itemsOutcome_stuck {items leading : List Dict}
    (h : (items ++ leading).length ≤ maxBrowseItems) :
    itemsOutcome items leading none = .error invalidListing := if_neg (by omega)

theorem itemsOutcome_cons (items : List Dict) (d : Dict) (leading : List Dict)
    (loose : Option (List Dict × List Char)) :
    itemsOutcome (items ++ [d]) leading loose =
      itemsOutcome items (d :: leading) (loose.map fun r => (d :: r.1, r.2)) := by
  unfold itemsOutcome
  rw [List.append_assoc, List.singleton_append]
  split
  · rfl
  · cases loose with
    | none => rfl
    | some r =>
      show (if stripStart r.2 = [] then Except.ok (items ++ [d] ++ r.1, false) else _) = _
      rw [List.append_assoc, List.singleton_append]
      rfl

section Whole

variable {cs rest : List Char} {d : Dict} {fuel : Nat}

theorem leadingItems_stuck (h : ∀ d rest, readValue cs.length cs ≠ some (.dict d, rest)) :
    leadingItems (fuel + 1) cs = [] := by
  unfold leadingItems
  split
  · next d rest hvalue => exact absurd hvalue (h d rest)
  · rfl

theorem entriesOf_stuck {blank : Char → Bool}
    (h : ∀ d rest, readValue cs.length cs ≠ some (.dict d, rest)) :
    entriesOf blank (fuel + 1) cs = none := by
  unfold entriesOf
  cases hvalue : readValue cs.length cs with
  | none => rfl
  | some r =>
    obtain ⟨v, rest⟩ := r
    cases v with
    | dict d => exact absurd hvalue (h d rest)
    | none | bool | int | float | str | list => rfl

theorem leadingItems_dict (h : readValue cs.length cs = some (.dict d, rest)) :
    leadingItems (fuel + 1) cs = d :: ((behindWord [','] (stripStart rest)).elim []
      fun rest => leadingItems fuel (stripStart rest)) := by
  rw [leadingItems, h]
  dsimp only
  cases behindWord [','] (stripStart rest) <;> rfl

theorem entriesOf_dict {blank : Char → Bool} {c : Char} {tail : List Char}
    (h : readValue cs.length cs = some (.dict d, rest)) (hrest : rest.dropWhile blank = c :: tail) :
    entriesOf blank (fuel + 1) cs = if c = ']' then some ([d], tail)
      else if c = ',' then
        (entriesOf blank fuel (tail.dropWhile blank)).map fun r => (d :: r.1, r.2)
      else none := by
  rw [entriesOf, h]
  simp only [asDict, Option.bind_eq_bind, Option.bind_some, hrest]
  split
  · rfl
  · split
    · cases entriesOf blank fuel _ <;> rfl
    · rfl

theorem entriesOf_cut {blank : Char → Bool} (h : readValue cs.length cs = some (.dict d, rest))
    (hrest : rest.dropWhile blank = []) : entriesOf blank (fuel + 1) cs = none := by
  rw [entriesOf, h]
  simp only [asDict, Option.bind_eq_bind, Option.bind_some, hrest]

/-- Where an entry is expected, the reader decides. -/
theorem listingStep_entry {mayEnd : Bool} {c : Char} {tail : List Char}
    (hpending : stripStart cs = c :: tail) (hopen : c ≠ ']' ∨ mayEnd = false)
    (h : readValue (c :: tail).length (c :: tail) = some (.dict d, rest)) :
    listingStep ⟨cs, true, true, mayEnd, false⟩ =
      .move ⟨rest, true, false, mayEnd, false⟩ (some d) := by
  have hcloses : ListingState.closes ⟨cs, true, true, mayEnd, false⟩ c = false := by
    rcases hopen with hc | hend
    · simp [ListingState.closes, hc]
    · simp [ListingState.closes, hend]
  simp only [listingStep, hpending, hcloses, Bool.not_true, Bool.false_eq_true, if_false]
  rw [show readValue (tail.length + 1) (c :: tail) = _ from h]

theorem listingStep_noEntry {mayEnd : Bool} {c : Char} {tail : List Char}
    (hpending : stripStart cs = c :: tail) (hopen : c ≠ ']' ∨ mayEnd = false)
    (h : ∀ d rest, readValue (c :: tail).length (c :: tail) ≠ some (.dict d, rest)) :
    listingStep ⟨cs, true, true, mayEnd, false⟩ = .fail ∨
      listingStep ⟨cs, true, true, mayEnd, false⟩ =
        .wait ⟨c :: tail, true, true, mayEnd, false⟩ := by
  have hcloses : ListingState.closes ⟨cs, true, true, mayEnd, false⟩ c = false := by
    rcases hopen with hc | hend
    · simp [ListingState.closes, hc]
    · simp [ListingState.closes, hend]
  simp only [listingStep, hpending, hcloses, Bool.not_true, Bool.false_eq_true, if_false]
  split
  · exact .inr rfl
  · next d rest hvalue => exact absurd hvalue (h d rest)
  · exact .inl rfl

theorem listingStep_separator {mayEnd : Bool} {c : Char} {tail : List Char}
    (hpending : stripStart cs = c :: tail) : listingStep ⟨cs, true, false, mayEnd, false⟩ =
      if c = ']' then .move ⟨tail, true, false, mayEnd, true⟩ none
      else if c = ',' then .move ⟨tail, true, true, false, false⟩ none
      else .fail := by
  unfold listingStep
  rw [hpending]
  by_cases hc : c = ']'
  · simp [ListingState.closes, hc]
  · simp [ListingState.closes, hc]

theorem length_readValue {fuel : Nat} {v : Value} (h : readValue fuel cs = some (v, rest)) :
    rest.length < cs.length := ((readsAlong fuel).value h).1

/-- An entry is expected: what follows are the entries that can be read, and the array they make. -/
theorem wholeRun_items {mayEnd : Bool} {items : List Dict} (hfuel : cs.length < fuel)
    (hitems : items.length ≤ maxBrowseItems)
    (hclose : (stripStart cs).head? ≠ some ']' ∨ mayEnd = false) :
    wholeRun items ⟨cs, true, true, mayEnd, false⟩ =
      itemsOutcome items (leadingItems fuel (stripStart cs))
        (entriesOf isSpace fuel (stripStart cs)) := by
  induction fuel generalizing cs items mayEnd with
  | zero => cases hfuel
  | succ fuel ih =>
    have hlength := length_stripStart cs
    have hstuck : (items ++ ([] : List Dict)).length ≤ maxBrowseItems := by simpa using hitems
    cases hpending : stripStart cs with
    | nil =>
      have hstep : listingStep ⟨cs, true, true, mayEnd, false⟩ =
          .wait ⟨[], true, true, mayEnd, false⟩ := by
        unfold listingStep
        rw [hpending]
      have hnone : ∀ d rest, readValue ([] : List Char).length [] ≠ some (.dict d, rest) := by
        intro d rest h
        simp [readValue] at h
      rw [wholeRun_wait hstep, leadingItems_stuck hnone, entriesOf_stuck hnone,
        itemsOutcome_stuck hstuck]
      rfl
    | cons c tail =>
      rw [hpending, List.length_cons] at hlength
      have hopen : c ≠ ']' ∨ mayEnd = false := by
        rw [hpending] at hclose
        exact hclose.imp_left fun hhead hc => hhead (by rw [hc]; rfl)
      by_cases hentry : ∃ d rest, readValue (c :: tail).length (c :: tail) = some (.dict d, rest)
      · obtain ⟨d, rest, hvalue⟩ := hentry
        have hshort := length_readValue hvalue
        have hrest := length_stripStart rest
        rw [List.length_cons] at hshort
        rw [wholeRun_item (listingStep_entry hpending hopen hvalue), leadingItems_dict hvalue]
        by_cases hmany : maxBrowseItems < (items ++ [d]).length
        · rw [if_pos hmany]
          simp only [List.length_append, List.length_cons, List.length_nil] at hmany
          have hfull : maxBrowseItems ≤ items.length := by omega
          unfold itemsOutcome
          rw [if_pos, List.take_append_of_le_length hfull, List.take_append_of_le_length hfull]
          simp only [List.length_append, List.length_cons]
          omega
        rw [if_neg hmany]
        have hfew : (items ++ [d]).length ≤ maxBrowseItems := Nat.not_lt.mp hmany
        cases hsep : stripStart rest with
        | nil =>
          have hstep : listingStep ⟨rest, true, false, mayEnd, false⟩ =
              .wait ⟨[], true, false, mayEnd, false⟩ := by
            unfold listingStep
            rw [hsep]
          rw [wholeRun_wait hstep, entriesOf_cut hvalue hsep]
          exact (itemsOutcome_stuck hfew).symm
        | cons e after =>
          have hstep := @listingStep_separator rest mayEnd e after hsep
          rw [entriesOf_dict hvalue hsep]
          rw [hsep, List.length_cons] at hrest
          by_cases hend : e = ']'
          · rw [if_pos hend] at hstep ⊢
            rw [wholeRun_move hstep, wholeRun_finished _ rfl]
            subst hend
            show _ = itemsOutcome items [d] (some ([d], after))
            rw [itemsOutcome, if_neg hmany]
          rw [if_neg hend] at hstep ⊢
          by_cases hcomma : e = ','
          · rw [if_pos hcomma] at hstep ⊢
            subst hcomma
            rw [wholeRun_move hstep, ih (by omega) hfew (.inr rfl), itemsOutcome_cons]
            rfl
          · rw [if_neg hcomma] at hstep ⊢
            have hnot : behindWord [','] (e :: after) = none := by
              rw [behindWord, if_neg (Ne.symm hcomma)]
            rw [wholeRun_fail hstep, hnot]
            exact (itemsOutcome_stuck hfew).symm
      · have hnone : ∀ d rest, readValue (c :: tail).length (c :: tail) ≠ some (.dict d, rest) :=
          fun d rest h => hentry ⟨d, rest, h⟩
        rw [leadingItems_stuck hnone, entriesOf_stuck hnone, itemsOutcome_stuck hstuck]
        rcases listingStep_noEntry hpending hopen hnone with hfail | hwait
        · exact wholeRun_fail hfail
        · rw [wholeRun_wait hwait]
          rfl

end Whole

theorem itemsOutcome_nil (leading : List Dict) (loose : Option (List Dict × List Char)) :
    itemsOutcome [] leading loose = if maxBrowseItems < leading.length then
      .ok (leading.take maxBrowseItems, true)
    else
      (loose.bind fun r => if stripStart r.2 = [] then some r.1 else none).elim
        (.error invalidListing) fun ds => .ok (ds, false) := by
  unfold itemsOutcome
  rw [List.nil_append]
  split
  · rfl
  · cases loose with
    | none => rfl
    | some r =>
      obtain ⟨ds, rest⟩ := r
      show (if stripStart rest = [] then Except.ok ([] ++ ds, false) else _) =
        (if stripStart rest = [] then some ds else none).elim _ _
      split <;> rfl

theorem cons_of_head {c : Char} {cs : List Char} (h : cs.head? = some c) :
    ∃ tail, cs = c :: tail := by
  cases cs with
  | nil => cases h
  | cons d tail => exact ⟨tail, by rw [Option.some.inj h]⟩

theorem behindWord_none {c : Char} {cs : List Char} (h : cs.head? ≠ some c) :
    behindWord [c] cs = none := by
  cases cs with
  | nil => rfl
  | cons d tail =>
    have hne : ¬c = d := fun hcd => h (by rw [hcd]; rfl)
    rw [behindWord, if_neg hne]

theorem arrayOf_open {blank : Char → Bool} {cs rest : List Char}
    (h : behindWord ['['] (cs.dropWhile blank) = some rest) : arrayOf blank cs =
      (readUnless ']' (entriesOf blank (rest.length + 1)) (rest.dropWhile blank)).bind fun r =>
        if r.2.dropWhile blank = [] then some r.1 else none := by
  unfold arrayOf
  rw [h]
  rfl

theorem arrayOf_none {blank : Char → Bool} {cs : List Char}
    (h : behindWord ['['] (cs.dropWhile blank) = none) : arrayOf blank cs = none := by
  unfold arrayOf
  rw [h]
  rfl

theorem listingOf_none {cs : List Char} (h : behindWord ['['] (stripStart cs) = none) :
    listingOf cs = .error invalidListing := by
  unfold listingOf leadingEntries
  rw [h, arrayOf_none h]
  rfl

/-- Behind the opening bracket stands the closing one, or the entries. -/
theorem listingOf_open {cs rest : List Char} (hopen : stripStart cs = '[' :: rest) :
    listingOf cs = if (stripStart rest).head? = some ']' then
      (if stripStart ((stripStart rest).drop 1) = [] then .ok ([], false)
        else .error invalidListing)
    else itemsOutcome [] (leadingItems (rest.length + 1) (stripStart rest))
      (entriesOf isSpace (rest.length + 1) (stripStart rest)) := by
  have hleading : leadingEntries cs = leadingItems (rest.length + 1) (stripStart rest) := by
    unfold leadingEntries
    rw [hopen]
    rfl
  have hloose : arrayOf isSpace cs = (readUnless ']' (entriesOf isSpace (rest.length + 1))
      (stripStart rest)).bind fun r => if stripStart r.2 = [] then some r.1 else none := by
    refine arrayOf_open ?_
    show behindWord ['['] (stripStart cs) = some rest
    rw [hopen]
    rfl
  unfold listingOf
  rw [hleading, hloose]
  by_cases hclose : (stripStart rest).head? = some ']'
  · obtain ⟨tail, htail⟩ := cons_of_head hclose
    have hstuck : ∀ d after, readValue (']' :: tail).length (']' :: tail) ≠
        some (.dict d, after) := by
      intro d after h
      have hbrace := (asDict_readValue h).mp rfl
      exact absurd hbrace (by decide)
    have hunless : readUnless ']' (entriesOf isSpace (rest.length + 1)) (']' :: tail) =
        some ([], tail) := rfl
    rw [htail, leadingItems_stuck hstuck, if_neg (by decide), hunless]
    rw [Option.bind_some, if_pos (show (']' :: tail).head? = some ']' from rfl)]
    show _ = if stripStart tail = [] then _ else _
    dsimp only
    by_cases htail' : stripStart tail = []
    · rw [if_pos htail', if_pos htail']
    · rw [if_neg htail', if_neg htail']
  · have hunless : readUnless ']' (entriesOf isSpace (rest.length + 1)) (stripStart rest) =
        entriesOf isSpace (rest.length + 1) (stripStart rest) := by
      unfold readUnless
      rw [behindWord_none hclose]
    rw [if_neg hclose, itemsOutcome_nil, hunless]
    split
    · rfl
    · cases (entriesOf isSpace (rest.length + 1) (stripStart rest)).bind _ <;> rfl

/-- **The run over a whole text reads it as one array.** -/
theorem wholeRun_start (cs : List Char) :
    wholeRun [] (ListingState.start.feed cs) = listingOf cs := by
  show wholeRun [] ⟨cs, false, true, true, false⟩ = _
  cases hpending : stripStart cs with
  | nil =>
    have hstep : listingStep ⟨cs, false, true, true, false⟩ =
        .wait ⟨[], false, true, true, false⟩ := by
      unfold listingStep
      rw [hpending]
    rw [wholeRun_wait hstep, listingOf_none (by rw [hpending]; rfl)]
    rfl
  | cons c rest =>
    by_cases hc : c = '['
    · subst hc
      have hstep : listingStep ⟨cs, false, true, true, false⟩ =
          .move ⟨rest, true, true, true, false⟩ none := by
        unfold listingStep
        rw [hpending]
        rfl
      rw [wholeRun_move hstep, listingOf_open hpending]
      split
      · next hclose =>
        obtain ⟨tail, htail⟩ := cons_of_head hclose
        have hend : listingStep ⟨rest, true, true, true, false⟩ =
            .move ⟨tail, true, true, true, true⟩ none := by
          unfold listingStep
          rw [htail]
          rfl
        rw [wholeRun_move hend, wholeRun_finished [] rfl, htail]
        rfl
      · next hclose =>
        exact wholeRun_items (Nat.lt_succ_self _) (Nat.zero_le _) (.inl hclose)
    · have hstep : listingStep ⟨cs, false, true, true, false⟩ = .fail := by
        unfold listingStep
        rw [hpending]
        simp [hc]
      have hnot : behindWord ['['] (c :: rest) = none := by
        rw [behindWord, if_neg (Ne.symm hc)]
      rw [wholeRun_fail hstep, listingOf_none (by rw [hpending, hnot])]

end RcloneSync
