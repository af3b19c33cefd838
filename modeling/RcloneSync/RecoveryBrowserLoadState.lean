/-
RcloneSync/RecoveryBrowserLoadState.lean

The file browser of the recovery centre in the mobile app (`RecoveryBrowserLoadState`).

Loading a directory and starting a restore both wait for the server, and everything else
may happen while they wait: other directories are opened, files are ticked, earlier loads
come back late.  A call runs without interruption up to the point where it waits, and
again from its answer to its end; the two parts are two steps here.  What a part may
change is decided by identities that are drawn anew: one for each load and one for each
change of the selection.

`Browsing` is the state together with the calls that wait.  Main results: what is shown
is that of the load that was started last (`Shown`), only files of the shown list are
ticked, a hundred at most (`TicksFit`), and a restore that ends changes something only if
directory and selection are as they were when it was started (`HeldSince`);
`recoveryBrowser_run` states the three for any order of steps.
-/
import Mathlib.Data.List.Infix
import Mathlib.Data.List.Nodup

namespace RcloneSync

/-! ### The state -/

/-- `RecoveryBrowseItem`, as far as the state reads it. -/
structure RecoveryBrowseItem where
  path : String
  isDirectory : Bool
  deriving DecidableEq, Repr

/-- `RecoveryBrowserLoadState`; identities are numbers. -/
structure RecoveryBrowserLoadState where
  path : String := ""
  items : List RecoveryBrowseItem := []
  selection : List String := []
  isLoading : Bool := false
  isStartingRestore : Bool := false
  errorMessage : Option String := none
  requestID : Option Nat := none
  contextID : Nat
  selectionRevision : Nat
  deriving DecidableEq, Repr

/-- `RestoreSnapshot`. -/
structure RestoreSnapshot where
  contextID : Nat
  selectionRevision : Nat
  paths : List String
  deriving DecidableEq, Repr

namespace RecoveryBrowserLoadState

def canStartRestore (s : RecoveryBrowserLoadState) : Bool :=
  !s.isLoading && !s.isStartingRestore && !s.selection.isEmpty

/-- `selection.sorted()`. -/
def sortedSelection (s : RecoveryBrowserLoadState) : List String :=
  s.selection.mergeSort fun a b => a ≤ b

/-- `clearSelection` with the identity it draws. -/
def clearSelection (s : RecoveryBrowserLoadState) (revision : Nat) : RecoveryBrowserLoadState :=
  { s with selection := [], selectionRevision := revision }

/-- `load` up to the call of `fetch`. -/
def startLoad (s : RecoveryBrowserLoadState) (path : String) (requestID revision : Nat) :
    RecoveryBrowserLoadState :=
  { clearSelection { s with
      requestID := some requestID, contextID := requestID, path := path, items := [] } revision with
    errorMessage := none
    isLoading := true }

/-- The answer still belongs to the load that was started last. -/
def awaits (s : RecoveryBrowserLoadState) (requestID : Nat) (path : String) : Bool :=
  s.requestID = some requestID && s.path = path

/-- The `defer` block of `load`. -/
def endLoad (s : RecoveryBrowserLoadState) (requestID : Nat) (path : String) :
    RecoveryBrowserLoadState :=
  if s.awaits requestID path then { s with isLoading := false, requestID := none } else s

/-- `load` from the answer of `fetch` on. -/
def finishLoad (s : RecoveryBrowserLoadState) (requestID : Nat) (path : String) :
    Except String (List RecoveryBrowseItem) → RecoveryBrowserLoadState
  | .ok result =>
    if s.awaits requestID path then endLoad { s with items := result } requestID path
    else endLoad s requestID path
  | .error message =>
    if s.awaits requestID path then
      endLoad { s with errorMessage := some message } requestID path
    else endLoad s requestID path

/-- The file of the shown list that can be ticked under this path. -/
def offers (s : RecoveryBrowserLoadState) (path : String) : Bool :=
  s.items.any fun item => item.path = path && !item.isDirectory

def toggle (s : RecoveryBrowserLoadState) (path : String) (revision : Nat) :
    RecoveryBrowserLoadState :=
  if s.isLoading || !s.offers path then s
  else if path ∈ s.selection then
    { s with selection := s.selection.erase path, selectionRevision := revision }
  else if s.selection.length < 100 then
    { s with selection := path :: s.selection, selectionRevision := revision }
  else s

/-- What `restore` captures before it waits. -/
def snapshot (s : RecoveryBrowserLoadState) : RestoreSnapshot :=
  ⟨s.contextID, s.selectionRevision, s.sortedSelection⟩

def isCurrent (s : RecoveryBrowserLoadState) (snapshot : RestoreSnapshot) : Bool :=
  s.contextID = snapshot.contextID && s.selectionRevision = snapshot.selectionRevision &&
    s.sortedSelection = snapshot.paths

/-- `restore` from the answer of `start` on. -/
def finishRestore (s : RecoveryBrowserLoadState) (snapshot : RestoreSnapshot) (revision : Nat) :
    Except String Unit → RecoveryBrowserLoadState
  | .ok _ =>
    { (if s.isCurrent snapshot then s.clearSelection revision else s) with
      isStartingRestore := false }
  | .error message =>
    { (if s.isCurrent snapshot then { s with errorMessage := some message } else s) with
      isStartingRestore := false }

end RecoveryBrowserLoadState

/-! ### Calls that wait -/

/-- A call of `load`, with its answer when it came. -/
structure LoadCall where
  requestID : Nat
  path : String
  outcome : Option (Except String (List RecoveryBrowseItem)) := none

/-- The state, the identity that is drawn next, the calls of `load`, the latest first, and
the call of `restore` that waits.  `failures` are the restores that ended with an error:
the listing each was started in, and the error. -/
structure Browsing where
  state : RecoveryBrowserLoadState := { contextID := 0, selectionRevision := 1 }
  nextID : Nat := 2
  loads : List LoadCall := []
  restoring : Option RestoreSnapshot := none
  failures : List (Nat × String) := []

/-- One step: a call up to where it waits, or from its answer to its end. -/
inductive BrowserEvent
  | load (path : String)
  | loaded (requestID : Nat) (outcome : Except String (List RecoveryBrowseItem))
  | toggle (path : String)
  | restore
  | restored (outcome : Except String Unit)

/-- The call of `load` that waits under this identity. -/
def Browsing.waiting (b : Browsing) (requestID : Nat) : Option LoadCall :=
  b.loads.find? fun call => call.requestID = requestID && call.outcome.isNone

/-- The answer is noted with its call. -/
def LoadCall.answered (requestID : Nat) (outcome : Except String (List RecoveryBrowseItem))
    (call : LoadCall) : LoadCall :=
  if call.requestID = requestID then { call with outcome := some outcome } else call

def BrowserEvent.apply (b : Browsing) : BrowserEvent → Browsing
  | .load path =>
    { b with
      state := b.state.startLoad path b.nextID (b.nextID + 1)
      nextID := b.nextID + 2
      loads := { requestID := b.nextID, path := path } :: b.loads }
  | .loaded requestID outcome =>
    match b.waiting requestID with
    | some call =>
      { b with
        state := b.state.finishLoad requestID call.path outcome
        loads := b.loads.map (LoadCall.answered requestID outcome) }
    | none => b
  | .toggle path =>
    { b with state := b.state.toggle path b.nextID, nextID := b.nextID + 1 }
  | .restore =>
    if b.state.canStartRestore then
      { b with
        state := { b.state with isStartingRestore := true }
        restoring := some b.state.snapshot }
    else b
  | .restored outcome =>
    match b.restoring with
    | some snapshot =>
      { b with
        state := b.state.finishRestore snapshot b.nextID outcome
        nextID := b.nextID + 1
        restoring := none
        failures := match outcome with
          | .ok _ => b.failures
          | .error message => (snapshot.contextID, message) :: b.failures }
    | none => b

/-- The browser after a sequence of steps. -/
def browsingAfter (events : List BrowserEvent) : Browsing :=
  events.foldl BrowserEvent.apply {}

@[simp] theorem browsingAfter_concat (events : List BrowserEvent) (event : BrowserEvent) :
    browsingAfter (events ++ [event]) = event.apply (browsingAfter events) := by
  simp [browsingAfter]

/-! ### What is to be shown -/

/-- Path, items, loading flag and error are those of the load that was started last: the
loading state until its answer came, then its items or its error.  Beside its items
the error of a restore can stand that was started from them. -/
def Shown (b : Browsing) : Prop :=
  match b.loads with
  | [] => b.state.path = "" ∧ b.state.items = [] ∧ b.state.isLoading = false ∧
      b.state.errorMessage = none
  | call :: _ => b.state.path = call.path ∧
    match call.outcome with
    | none => b.state.items = [] ∧ b.state.isLoading = true ∧ b.state.errorMessage = none
    | some (.ok items) => b.state.items = items ∧ b.state.isLoading = false ∧
        ∀ message, b.state.errorMessage = some message →
          (call.requestID, message) ∈ b.failures
    | some (.error message) => b.state.items = [] ∧ b.state.isLoading = false ∧
        b.state.errorMessage = some message

/-- Only files of the shown list are ticked, each once and a hundred at most. -/
structure TicksFit (s : RecoveryBrowserLoadState) : Prop where
  nodup : s.selection.Nodup
  few : s.selection.length ≤ 100
  offered : ∀ path ∈ s.selection, ∃ item ∈ s.items, item.path = path ∧ item.isDirectory = false

/-- The state fits the load that was started last: its identity is the context, and it is
waited for as long as its answer did not come. -/
def FitsLatest (b : Browsing) : Prop :=
  match b.loads with
  | [] => b.state.requestID = none
  | call :: _ => b.state.contextID = call.requestID ∧
    b.state.requestID = if call.outcome.isNone then some call.requestID else none

/-- What every step keeps. -/
structure Tracked (b : Browsing) : Prop where
  contextDrawn : b.state.contextID < b.nextID
  revisionDrawn : b.state.selectionRevision < b.nextID
  loadsDrawn : ∀ call ∈ b.loads, call.requestID < b.nextID
  distinct : (b.loads.map LoadCall.requestID).Nodup
  latest : FitsLatest b
  ticks : TicksFit b.state
  shown : Shown b
  restoreDrawn : ∀ snapshot, b.restoring = some snapshot → snapshot.contextID < b.nextID
  listed : ∀ snapshot, b.restoring = some snapshot → snapshot.contextID = b.state.contextID →
    ∃ call earlier items, b.loads = call :: earlier ∧ call.outcome = some (.ok items)

theorem tracked_empty : Tracked {} where
  contextDrawn := by decide
  revisionDrawn := by decide
  loadsDrawn := fun _ h => (List.not_mem_nil h).elim
  distinct := List.nodup_nil
  latest := rfl
  ticks := ⟨List.nodup_nil, by decide, fun _ h => (List.not_mem_nil h).elim⟩
  shown := ⟨rfl, rfl, rfl, rfl⟩
  restoreDrawn := fun _ h => (Option.some_ne_none _ h.symm).elim
  listed := fun _ h => (Option.some_ne_none _ h.symm).elim

theorem ticksFit_clear {s : RecoveryBrowserLoadState} (h : s.selection = []) : TicksFit s := by
  refine ⟨?_, ?_, ?_⟩
  · rw [h]
    exact List.nodup_nil
  · rw [h]
    exact Nat.zero_le _
  · rw [h]
    exact fun _ hmem => (List.not_mem_nil hmem).elim

/-- Nothing is ticked in an empty list. -/
theorem TicksFit.selection_eq_nil {s : RecoveryBrowserLoadState} (h : TicksFit s)
    (hitems : s.items = []) : s.selection = [] := by
  refine List.eq_nil_iff_forall_not_mem.mpr fun path hpath => ?_
  obtain ⟨item, hitem, _⟩ := h.offered path hpath
  rw [hitems] at hitem
  exact List.not_mem_nil hitem

/-! ### One step -/

theorem tracked_load {b : Browsing} (h : Tracked b) (path : String) :
    Tracked (BrowserEvent.apply b (.load path)) where
  contextDrawn := by
    show b.nextID < b.nextID + 2
    omega
  revisionDrawn := Nat.lt_succ_self _
  loadsDrawn := by
    intro call hcall
    show call.requestID < b.nextID + 2
    rcases List.mem_cons.mp hcall with rfl | hearlier
    · exact Nat.lt_succ_of_lt (Nat.lt_succ_self _)
    · have hdrawn := h.loadsDrawn call hearlier
      omega
  distinct := by
    show (b.nextID :: b.loads.map LoadCall.requestID).Nodup
    refine List.nodup_cons.mpr ⟨fun hmem => ?_, h.distinct⟩
    obtain ⟨call, hcall, hsame⟩ := List.mem_map.mp hmem
    have hdrawn := h.loadsDrawn call hcall
    omega
  latest := ⟨rfl, rfl⟩
  ticks := ticksFit_clear rfl
  shown := ⟨rfl, rfl, rfl, rfl⟩
  restoreDrawn := by
    intro snapshot hsnapshot
    show snapshot.contextID < b.nextID + 2
    have hdrawn := h.restoreDrawn snapshot hsnapshot
    omega
  listed := by
    intro snapshot hsnapshot hcontext
    have hdrawn := h.restoreDrawn snapshot hsnapshot
    have hsame : snapshot.contextID = b.nextID := hcontext
    omega

theorem TicksFit.toggle {s : RecoveryBrowserLoadState} (h : TicksFit s) (path : String)
    (revision : Nat) : TicksFit (s.toggle path revision) := by
  unfold RecoveryBrowserLoadState.toggle
  split
  · exact h
  · rename_i hoffers
    split
    · exact ⟨h.nodup.erase path, (List.length_erase_le).trans h.few,
        fun p hp => h.offered p (List.mem_of_mem_erase hp)⟩
    · rename_i hnew
      split
      · rename_i hfew
        refine ⟨List.nodup_cons.mpr ⟨hnew, h.nodup⟩, hfew, fun p hp => ?_⟩
        rcases List.mem_cons.mp hp with rfl | hold
        · simp only [Bool.or_eq_true, not_or, Bool.not_eq_false,
            RecoveryBrowserLoadState.offers, List.any_eq_true, Bool.and_eq_true,
            decide_eq_true_eq, Bool.not_eq_eq_eq_not, Bool.not_true] at hoffers
          obtain ⟨item, hitem, hpath, hfile⟩ := hoffers.2
          exact ⟨item, hitem, hpath, hfile⟩
        · exact h.offered p hold
      · exact h

/-- A tick changes the selection and draws its identity; nothing else. -/
theorem toggle_frame (s : RecoveryBrowserLoadState) (path : String) (revision : Nat) :
    ∃ selection drawn, s.toggle path revision =
        { s with selection := selection, selectionRevision := drawn } ∧
      (drawn = revision ∨ drawn = s.selectionRevision ∧ selection = s.selection) := by
  unfold RecoveryBrowserLoadState.toggle
  split
  · exact ⟨s.selection, s.selectionRevision, rfl, Or.inr ⟨rfl, rfl⟩⟩
  · split
    · exact ⟨_, revision, rfl, Or.inl rfl⟩
    · split
      · exact ⟨_, revision, rfl, Or.inl rfl⟩
      · exact ⟨s.selection, s.selectionRevision, rfl, Or.inr ⟨rfl, rfl⟩⟩

theorem tracked_toggle {b : Browsing} (h : Tracked b) (path : String) :
    Tracked (BrowserEvent.apply b (.toggle path)) := by
  have hticks : TicksFit (b.state.toggle path b.nextID) := h.ticks.toggle path b.nextID
  obtain ⟨selection, drawn, hafter, hdrawn⟩ := toggle_frame b.state path b.nextID
  have hcontext := h.contextDrawn
  have hrevision := h.revisionDrawn
  simp only [BrowserEvent.apply]
  rw [hafter] at hticks ⊢
  exact
    { contextDrawn := Nat.lt_succ_of_lt hcontext
      revisionDrawn := by
        show drawn < b.nextID + 1
        omega
      loadsDrawn := fun call hcall => Nat.lt_succ_of_lt (h.loadsDrawn call hcall)
      distinct := h.distinct
      latest := h.latest
      ticks := hticks
      shown := h.shown
      restoreDrawn := fun snapshot hs => Nat.lt_succ_of_lt (h.restoreDrawn snapshot hs)
      listed := h.listed }

/-- A restore is only started from the items of a load that succeeded. -/
theorem Tracked.listed_of_canStart {b : Browsing} (h : Tracked b)
    (hstart : b.state.canStartRestore = true) :
    ∃ call earlier items, b.loads = call :: earlier ∧ call.outcome = some (.ok items) := by
  simp only [RecoveryBrowserLoadState.canStartRestore, Bool.and_eq_true,
    Bool.not_eq_eq_eq_not, Bool.not_true, List.isEmpty_eq_false_iff] at hstart
  obtain ⟨⟨hloading, _⟩, hselection⟩ := hstart
  have hshown := h.shown
  have hempty : b.state.items ≠ [] := fun hitems =>
    hselection (h.ticks.selection_eq_nil hitems)
  unfold Shown at hshown
  cases hloads : b.loads with
  | nil =>
    rw [hloads] at hshown
    exact absurd hshown.2.1 hempty
  | cons call earlier =>
    rw [hloads] at hshown
    obtain ⟨_, hshown⟩ := hshown
    cases houtcome : call.outcome with
    | none =>
      rw [houtcome] at hshown
      exact absurd hshown.1 hempty
    | some outcome =>
      rw [houtcome] at hshown
      cases outcome with
      | error message => exact absurd hshown.1 hempty
      | ok items => exact ⟨call, earlier, items, rfl, houtcome⟩

theorem tracked_restore {b : Browsing} (h : Tracked b) :
    Tracked (BrowserEvent.apply b .restore) := by
  simp only [BrowserEvent.apply]
  split
  · rename_i hstart
    exact
      { contextDrawn := h.contextDrawn
        revisionDrawn := h.revisionDrawn
        loadsDrawn := h.loadsDrawn
        distinct := h.distinct
        latest := h.latest
        ticks := ⟨h.ticks.nodup, h.ticks.few, h.ticks.offered⟩
        shown := h.shown
        restoreDrawn := by
          intro snapshot hsnapshot
          obtain rfl := Option.some.inj hsnapshot
          exact h.contextDrawn
        listed := fun _ _ _ => h.listed_of_canStart hstart }
  · exact h

theorem isCurrent_iff {s : RecoveryBrowserLoadState} {snapshot : RestoreSnapshot} :
    s.isCurrent snapshot = true ↔ s.contextID = snapshot.contextID ∧
      s.selectionRevision = snapshot.selectionRevision ∧ s.sortedSelection = snapshot.paths := by
  simp only [RecoveryBrowserLoadState.isCurrent, Bool.and_eq_true, decide_eq_true_eq, and_assoc]

theorem finishRestore_ok (s : RecoveryBrowserLoadState) (snapshot : RestoreSnapshot)
    (revision : Nat) (u : Unit) :
    s.finishRestore snapshot revision (.ok u) =
      if s.isCurrent snapshot then
        { s with selection := [], selectionRevision := revision, isStartingRestore := false }
      else { s with isStartingRestore := false } := by
  by_cases hcurrent : s.isCurrent snapshot = true
  · simp only [RecoveryBrowserLoadState.finishRestore, if_pos hcurrent]
    rfl
  · simp only [RecoveryBrowserLoadState.finishRestore, if_neg hcurrent]

theorem finishRestore_error (s : RecoveryBrowserLoadState) (snapshot : RestoreSnapshot)
    (revision : Nat) (message : String) :
    s.finishRestore snapshot revision (.error message) =
      if s.isCurrent snapshot then
        { s with errorMessage := some message, isStartingRestore := false }
      else { s with isStartingRestore := false } := by
  by_cases hcurrent : s.isCurrent snapshot = true
  · simp only [RecoveryBrowserLoadState.finishRestore, if_pos hcurrent]
  · simp only [RecoveryBrowserLoadState.finishRestore, if_neg hcurrent]

/-- The shown load stays shown when an error is added whose restore was started from its
items. -/
theorem Shown.fail {b b' : Browsing} (h : Shown b) (hloads : b'.loads = b.loads)
    (hpath : b'.state.path = b.state.path) (hitems : b'.state.items = b.state.items)
    (hloading : b'.state.isLoading = b.state.isLoading)
    (hfailures : ∀ failure ∈ b.failures, failure ∈ b'.failures)
    (herror : b'.state.errorMessage = b.state.errorMessage ∨
      ∃ call earlier items message, b.loads = call :: earlier ∧ call.outcome = some (.ok items) ∧
        b'.state.errorMessage = some message ∧ (call.requestID, message) ∈ b'.failures) :
    Shown b' := by
  unfold Shown at h ⊢
  rw [hloads, hpath, hitems, hloading]
  rcases herror with hsame | ⟨call, earlier, items, message, hlatest, houtcome, hshown, hmem⟩
  · rw [hsame]
    cases hlatest : b.loads with
    | nil =>
      rw [hlatest] at h
      exact h
    | cons call earlier =>
      rw [hlatest] at h
      refine ⟨h.1, ?_⟩
      have hrest := h.2
      cases houtcome : call.outcome with
      | none =>
        rw [houtcome] at hrest
        exact hrest
      | some outcome =>
        rw [houtcome] at hrest
        cases outcome with
        | error _ => exact hrest
        | ok items =>
          exact ⟨hrest.1, hrest.2.1, fun message he => hfailures _ (hrest.2.2 message he)⟩
  · rw [hlatest] at h ⊢
    refine ⟨h.1, ?_⟩
    have hrest := h.2
    rw [houtcome] at hrest ⊢
    refine ⟨hrest.1, hrest.2.1, fun other he => ?_⟩
    obtain rfl := Option.some.inj (hshown.symm.trans he)
    exact hmem

theorem tracked_restored {b : Browsing} (h : Tracked b) (outcome : Except String Unit) :
    Tracked (BrowserEvent.apply b (.restored outcome)) := by
  cases hrestoring : b.restoring with
  | none =>
    simp only [BrowserEvent.apply, hrestoring]
    exact h
  | some snapshot =>
    have hloads : ∀ call ∈ b.loads, call.requestID < b.nextID + 1 :=
      fun call hcall => Nat.lt_succ_of_lt (h.loadsDrawn call hcall)
    have hcontext : b.state.contextID < b.nextID + 1 := Nat.lt_succ_of_lt h.contextDrawn
    have hrevision : b.state.selectionRevision < b.nextID + 1 :=
      Nat.lt_succ_of_lt h.revisionDrawn
    have hnone : ∀ s : RestoreSnapshot, (none : Option RestoreSnapshot) = some s → False :=
      fun _ hs => Option.some_ne_none _ hs.symm
    have hticks : ∀ error starting, TicksFit { b.state with
        errorMessage := error, isStartingRestore := starting } :=
      fun _ _ => ⟨h.ticks.nodup, h.ticks.few, h.ticks.offered⟩
    cases outcome with
    | ok u =>
      simp only [BrowserEvent.apply, hrestoring, finishRestore_ok]
      split
      · exact
          { contextDrawn := hcontext
            revisionDrawn := Nat.lt_succ_self _
            loadsDrawn := hloads
            distinct := h.distinct
            latest := h.latest
            ticks := ticksFit_clear rfl
            shown := h.shown
            restoreDrawn := fun _ hs => (hnone _ hs).elim
            listed := fun _ hs => (hnone _ hs).elim }
      · exact
          { contextDrawn := hcontext
            revisionDrawn := hrevision
            loadsDrawn := hloads
            distinct := h.distinct
            latest := h.latest
            ticks := hticks _ _
            shown := h.shown
            restoreDrawn := fun _ hs => (hnone _ hs).elim
            listed := fun _ hs => (hnone _ hs).elim }
    | error message =>
      have hmore : ∀ failure ∈ b.failures,
          failure ∈ (snapshot.contextID, message) :: b.failures :=
        fun _ hf => List.mem_cons_of_mem _ hf
      simp only [BrowserEvent.apply, hrestoring, finishRestore_error]
      split
      · rename_i hcurrent
        have hsame := (isCurrent_iff.mp hcurrent).1
        obtain ⟨call, earlier, items, hlatest, houtcome⟩ :=
          h.listed snapshot hrestoring hsame.symm
        have hfits := h.latest
        unfold FitsLatest at hfits
        rw [hlatest] at hfits
        exact
          { contextDrawn := hcontext
            revisionDrawn := hrevision
            loadsDrawn := hloads
            distinct := h.distinct
            latest := h.latest
            ticks := hticks _ _
            shown := by
              refine h.shown.fail rfl rfl rfl rfl hmore
                (Or.inr ⟨call, earlier, items, message, hlatest, houtcome, rfl, ?_⟩)
              rw [← hfits.1, hsame]
              exact List.mem_cons_self
            restoreDrawn := fun _ hs => (hnone _ hs).elim
            listed := fun _ hs => (hnone _ hs).elim }
      · exact
          { contextDrawn := hcontext
            revisionDrawn := hrevision
            loadsDrawn := hloads
            distinct := h.distinct
            latest := h.latest
            ticks := hticks _ _
            shown := h.shown.fail rfl rfl rfl rfl hmore (Or.inl rfl)
            restoreDrawn := fun _ hs => (hnone _ hs).elim
            listed := fun _ hs => (hnone _ hs).elim }

/-! ### The answer of a load -/

theorem finishLoad_late {s : RecoveryBrowserLoadState} {requestID : Nat} {path : String}
    (h : s.awaits requestID path = false) (outcome : Except String (List RecoveryBrowseItem)) :
    s.finishLoad requestID path outcome = s := by
  have hend : s.endLoad requestID path = s := by
    unfold RecoveryBrowserLoadState.endLoad
    rw [h]
    rfl
  cases outcome <;> simp [RecoveryBrowserLoadState.finishLoad, h, hend]

theorem finishLoad_ok {s : RecoveryBrowserLoadState} {requestID : Nat} {path : String}
    (h : s.awaits requestID path = true) (items : List RecoveryBrowseItem) :
    s.finishLoad requestID path (.ok items) =
      { s with items := items, isLoading := false, requestID := none } := by
  have hsame : { s with items := items }.awaits requestID path = true := h
  simp only [RecoveryBrowserLoadState.finishLoad, h, if_true,
    RecoveryBrowserLoadState.endLoad, hsame]

theorem finishLoad_error {s : RecoveryBrowserLoadState} {requestID : Nat} {path : String}
    (h : s.awaits requestID path = true) (message : String) :
    s.finishLoad requestID path (.error message) =
      { s with errorMessage := some message, isLoading := false, requestID := none } := by
  have hsame : { s with errorMessage := some message }.awaits requestID path = true := h
  simp only [RecoveryBrowserLoadState.finishLoad, h, if_true,
    RecoveryBrowserLoadState.endLoad, hsame]

theorem awaits_iff {s : RecoveryBrowserLoadState} {requestID : Nat} {path : String} :
    s.awaits requestID path = true ↔ s.requestID = some requestID ∧ s.path = path := by
  simp [RecoveryBrowserLoadState.awaits]

theorem waiting_eq_some {b : Browsing} {requestID : Nat} {call : LoadCall}
    (h : b.waiting requestID = some call) :
    call ∈ b.loads ∧ call.requestID = requestID ∧ call.outcome = none := by
  have hfound := List.find?_some h
  simp only [Bool.and_eq_true, decide_eq_true_eq, Option.isNone_iff_eq_none] at hfound
  exact ⟨List.mem_of_find?_eq_some h, hfound⟩

@[simp] theorem answered_requestID (requestID : Nat)
    (outcome : Except String (List RecoveryBrowseItem)) (call : LoadCall) :
    (call.answered requestID outcome).requestID = call.requestID := by
  unfold LoadCall.answered
  split <;> rfl

theorem map_answered_requestID (requestID : Nat)
    (outcome : Except String (List RecoveryBrowseItem)) (loads : List LoadCall) :
    (loads.map (LoadCall.answered requestID outcome)).map LoadCall.requestID =
      loads.map LoadCall.requestID := by
  rw [List.map_map]
  exact List.map_congr_left fun call _ => answered_requestID requestID outcome call

theorem answered_of_ne {requestID : Nat} {call : LoadCall} (h : call.requestID ≠ requestID)
    (outcome : Except String (List RecoveryBrowseItem)) :
    call.answered requestID outcome = call := by
  unfold LoadCall.answered
  rw [if_neg h]

/-- The answer of a load that is not the latest changes nothing that is shown. -/
theorem tracked_late {b : Browsing} (h : Tracked b) {latest : LoadCall}
    {earlier : List LoadCall} (hloads : b.loads = latest :: earlier) {requestID : Nat}
    (hne : latest.requestID ≠ requestID) (outcome : Except String (List RecoveryBrowseItem)) :
    Tracked { b with loads := b.loads.map (LoadCall.answered requestID outcome) } := by
  have hmap : b.loads.map (LoadCall.answered requestID outcome) =
      latest :: earlier.map (LoadCall.answered requestID outcome) := by
    rw [hloads, List.map_cons, answered_of_ne hne]
  have hfits := h.latest
  have hshown := h.shown
  unfold FitsLatest at hfits
  unfold Shown at hshown
  rw [hloads] at hfits hshown
  refine ⟨h.contextDrawn, h.revisionDrawn, ?_, ?_, ?_, h.ticks, ?_, h.restoreDrawn, ?_⟩
  · intro call hcall
    obtain ⟨before, hbefore, rfl⟩ := List.mem_map.mp hcall
    rw [answered_requestID]
    exact h.loadsDrawn before hbefore
  · show ((b.loads.map (LoadCall.answered requestID outcome)).map LoadCall.requestID).Nodup
    rw [map_answered_requestID]
    exact h.distinct
  · unfold FitsLatest
    rw [hmap]
    exact hfits
  · unfold Shown
    rw [hmap]
    exact hshown
  · intro snapshot hsnapshot hcontext
    obtain ⟨call, rest, items, hcall, houtcome⟩ := h.listed snapshot hsnapshot hcontext
    rw [hloads] at hcall
    obtain ⟨rfl, _⟩ := List.cons.inj hcall
    exact ⟨latest, _, items, hmap, houtcome⟩

/-- The answer of the latest load, while it waits. -/
theorem tracked_latest {b : Browsing} (h : Tracked b) {latest : LoadCall}
    {earlier : List LoadCall} (hloads : b.loads = latest :: earlier)
    (hwaits : latest.outcome = none) (outcome : Except String (List RecoveryBrowseItem)) :
    Tracked { b with
      state := b.state.finishLoad latest.requestID latest.path outcome
      loads := b.loads.map (LoadCall.answered latest.requestID outcome) } := by
  have hhead : latest.answered latest.requestID outcome =
      { latest with outcome := some outcome } := by
    unfold LoadCall.answered
    rw [if_pos rfl]
  have hmap : b.loads.map (LoadCall.answered latest.requestID outcome) =
      { latest with outcome := some outcome } ::
        earlier.map (LoadCall.answered latest.requestID outcome) := by
    rw [hloads, List.map_cons, hhead]
  have hdrawn : ∀ call ∈ b.loads.map (LoadCall.answered latest.requestID outcome),
      call.requestID < b.nextID := by
    intro call hcall
    obtain ⟨before, hbefore, rfl⟩ := List.mem_map.mp hcall
    rw [answered_requestID]
    exact h.loadsDrawn before hbefore
  have hdistinct : ((b.loads.map (LoadCall.answered latest.requestID outcome)).map
      LoadCall.requestID).Nodup := by
    rw [map_answered_requestID]
    exact h.distinct
  have hfits := h.latest
  have hshown := h.shown
  unfold FitsLatest at hfits
  unfold Shown at hshown
  rw [hloads] at hfits hshown
  obtain ⟨hcontext, hrequest⟩ := hfits
  rw [hwaits] at hrequest
  obtain ⟨hpath, hshown⟩ := hshown
  rw [hwaits] at hshown
  obtain ⟨hitems, _, herror⟩ := hshown
  have hselection := h.ticks.selection_eq_nil hitems
  have hawaits : b.state.awaits latest.requestID latest.path = true :=
    awaits_iff.mpr ⟨hrequest, hpath⟩
  -- While the latest load waits, no restore belongs to its listing.
  have hlisted : ∀ snapshot, b.restoring = some snapshot →
      snapshot.contextID = b.state.contextID → False := by
    intro snapshot hsnapshot hsame
    obtain ⟨call, rest, items, hcall, houtcome⟩ := h.listed snapshot hsnapshot hsame
    rw [hloads] at hcall
    obtain ⟨rfl, _⟩ := List.cons.inj hcall
    rw [hwaits] at houtcome
    cases houtcome
  cases outcome with
  | ok items =>
    rw [finishLoad_ok hawaits]
    refine ⟨h.contextDrawn, h.revisionDrawn, hdrawn, hdistinct, ?_, ticksFit_clear hselection, ?_,
      h.restoreDrawn, fun snapshot hs hsame => (hlisted snapshot hs hsame).elim⟩
    · unfold FitsLatest
      rw [hmap]
      exact ⟨hcontext, rfl⟩
    · unfold Shown
      rw [hmap]
      refine ⟨hpath, rfl, rfl, fun message he => ?_⟩
      rw [show _ = b.state.errorMessage from rfl, herror] at he
      cases he
  | error message =>
    rw [finishLoad_error hawaits]
    refine ⟨h.contextDrawn, h.revisionDrawn, hdrawn, hdistinct, ?_, ticksFit_clear hselection, ?_,
      h.restoreDrawn, fun snapshot hs hsame => (hlisted snapshot hs hsame).elim⟩
    · unfold FitsLatest
      rw [hmap]
      exact ⟨hcontext, rfl⟩
    · unfold Shown
      rw [hmap]
      exact ⟨hpath, hitems, rfl, rfl⟩

theorem tracked_loaded {b : Browsing} (h : Tracked b) (requestID : Nat)
    (outcome : Except String (List RecoveryBrowseItem)) :
    Tracked (BrowserEvent.apply b (.loaded requestID outcome)) := by
  cases hwaiting : b.waiting requestID with
  | none =>
    simp only [BrowserEvent.apply, hwaiting]
    exact h
  | some call =>
    obtain ⟨hcall, rfl, hopen⟩ := waiting_eq_some hwaiting
    simp only [BrowserEvent.apply, hwaiting]
    cases hloads : b.loads with
    | nil =>
      rw [hloads] at hcall
      exact (List.not_mem_nil hcall).elim
    | cons latest earlier =>
      rw [← hloads]
      by_cases hsame : latest.requestID = call.requestID
      · have hlatest : call = latest :=
          List.inj_on_of_nodup_map h.distinct hcall (hloads ▸ List.mem_cons_self) hsame.symm
        subst hlatest
        exact tracked_latest h hloads hopen outcome
      · have hfits := h.latest
        unfold FitsLatest at hfits
        rw [hloads] at hfits
        have hlate : b.state.awaits call.requestID call.path = false := by
          refine Bool.eq_false_iff.mpr fun hawaits => hsame ?_
          have hrequest := (awaits_iff.mp hawaits).1
          rw [hfits.2] at hrequest
          split at hrequest
          · exact Option.some.inj hrequest
          · cases hrequest
        rw [finishLoad_late hlate]
        exact tracked_late h hloads hsame outcome

theorem tracked_apply {b : Browsing} (h : Tracked b) (event : BrowserEvent) :
    Tracked (event.apply b) := by
  cases event with
  | load path => exact tracked_load h path
  | loaded requestID outcome => exact tracked_loaded h requestID outcome
  | toggle path => exact tracked_toggle h path
  | restore => exact tracked_restore h
  | restored outcome => exact tracked_restored h outcome

theorem tracked_browsingAfter (events : List BrowserEvent) : Tracked (browsingAfter events) := by
  induction events using List.reverseRecOn with
  | nil => exact tracked_empty
  | append_singleton events event ih =>
    rw [browsingAfter_concat]
    exact tracked_apply ih event

/-! ### What a restore finds -/

/-- Directory and selection are the same. -/
structure Unchanged (s s' : RecoveryBrowserLoadState) : Prop where
  path : s'.path = s.path
  items : s'.items = s.items
  selection : s'.selection = s.selection
  context : s'.contextID = s.contextID
  request : s'.requestID = s.requestID

theorem Unchanged.refl (s : RecoveryBrowserLoadState) : Unchanged s s := ⟨rfl, rfl, rfl, rfl, rfl⟩

theorem Unchanged.trans {s s' s'' : RecoveryBrowserLoadState} (h : Unchanged s s')
    (h' : Unchanged s' s'') : Unchanged s s'' :=
  ⟨h'.path.trans h.path, h'.items.trans h.items, h'.selection.trans h.selection,
    h'.context.trans h.context, h'.request.trans h.request⟩

/-- The restore that waits was started with this snapshot, and directory and selection are
as they were then, at every step in between. -/
def HeldSince (events : List BrowserEvent) (snapshot : RestoreSnapshot) : Prop :=
  ∃ before since, events = before ++ BrowserEvent.restore :: since ∧
    (browsingAfter before).state.canStartRestore = true ∧
    (browsingAfter before).state.snapshot = snapshot ∧
    ∀ mid, mid <+: since →
      (browsingAfter (before ++ .restore :: mid)).restoring = some snapshot ∧
        Unchanged (browsingAfter before).state
          (browsingAfter (before ++ .restore :: mid)).state

theorem finishLoad_revision (s : RecoveryBrowserLoadState) (requestID : Nat) (path : String)
    (outcome : Except String (List RecoveryBrowseItem)) :
    (s.finishLoad requestID path outcome).selectionRevision = s.selectionRevision := by
  cases hawaits : s.awaits requestID path with
  | false => rw [finishLoad_late hawaits]
  | true =>
    cases outcome with
    | ok items => rw [finishLoad_ok hawaits]
    | error message => rw [finishLoad_error hawaits]

/-- A step draws a new identity for the selection, or it leaves directory and selection
alone; the answer of a load that is waited for is the exception. -/
theorem unchanged_or_drawn (b : Browsing) (event : BrowserEvent) :
    b.nextID ≤ (event.apply b).state.selectionRevision ∨
      (event.apply b).state.selectionRevision = b.state.selectionRevision ∧
        (b.state.requestID = none → Unchanged b.state (event.apply b).state) := by
  cases event with
  | load path => exact Or.inl (Nat.le_succ _)
  | loaded requestID outcome =>
    refine Or.inr ?_
    simp only [BrowserEvent.apply]
    split
    · rename_i call _
      refine ⟨finishLoad_revision _ _ _ _, fun hidle => ?_⟩
      have hlate : b.state.awaits requestID call.path = false := by
        simp [RecoveryBrowserLoadState.awaits, hidle]
      rw [finishLoad_late hlate]
      exact Unchanged.refl _
    · exact ⟨rfl, fun _ => Unchanged.refl _⟩
  | toggle path =>
    obtain ⟨selection, drawn, hafter, hdrawn⟩ := toggle_frame b.state path b.nextID
    simp only [BrowserEvent.apply]
    rw [hafter]
    rcases hdrawn with rfl | ⟨rfl, rfl⟩
    · exact Or.inl (le_refl _)
    · exact Or.inr ⟨rfl, fun _ => Unchanged.refl _⟩
  | restore =>
    refine Or.inr ?_
    simp only [BrowserEvent.apply]
    split
    · exact ⟨rfl, fun _ => ⟨rfl, rfl, rfl, rfl, rfl⟩⟩
    · exact ⟨rfl, fun _ => Unchanged.refl _⟩
  | restored outcome =>
    simp only [BrowserEvent.apply]
    split
    · cases outcome with
      | ok u =>
        rw [finishRestore_ok]
        split
        · exact Or.inl (le_refl _)
        · exact Or.inr ⟨rfl, fun _ => ⟨rfl, rfl, rfl, rfl, rfl⟩⟩
      | error message =>
        rw [finishRestore_error]
        split
        · exact Or.inr ⟨rfl, fun _ => ⟨rfl, rfl, rfl, rfl, rfl⟩⟩
        · exact Or.inr ⟨rfl, fun _ => ⟨rfl, rfl, rfl, rfl, rfl⟩⟩
    · exact Or.inr ⟨rfl, fun _ => Unchanged.refl _⟩

/-- Nothing is waited for when a restore starts. -/
theorem Tracked.idle_of_canStart {b : Browsing} (h : Tracked b)
    (hstart : b.state.canStartRestore = true) : b.state.requestID = none := by
  obtain ⟨call, earlier, items, hloads, houtcome⟩ := h.listed_of_canStart hstart
  have hfits := h.latest
  unfold FitsLatest at hfits
  rw [hloads] at hfits
  rw [hfits.2, houtcome]
  rfl

/-- While the identity of the selection is the captured one, the waiting restore finds
directory and selection as it left them. -/
def Traced (events : List BrowserEvent) : Prop :=
  ∀ snapshot, (browsingAfter events).restoring = some snapshot →
    snapshot.selectionRevision < (browsingAfter events).nextID ∧
      ((browsingAfter events).state.selectionRevision = snapshot.selectionRevision →
        HeldSince events snapshot)

theorem HeldSince.idle {events : List BrowserEvent} {snapshot : RestoreSnapshot}
    (h : HeldSince events snapshot) : (browsingAfter events).state.requestID = none := by
  obtain ⟨before, since, rfl, hstart, _, hheld⟩ := h
  rw [(hheld since (List.prefix_refl _)).2.request]
  exact (tracked_browsingAfter before).idle_of_canStart hstart

theorem HeldSince.concat {events : List BrowserEvent} {snapshot : RestoreSnapshot}
    (h : HeldSince events snapshot) {event : BrowserEvent}
    (hrestoring : (event.apply (browsingAfter events)).restoring = some snapshot)
    (hsame : Unchanged (browsingAfter events).state (event.apply (browsingAfter events)).state) :
    HeldSince (events ++ [event]) snapshot := by
  obtain ⟨before, since, rfl, hstart, hsnapshot, hheld⟩ := h
  refine ⟨before, since ++ [event], by simp, hstart, hsnapshot, fun mid hmid => ?_⟩
  rcases List.prefix_concat_iff.mp hmid with rfl | hearlier
  · rw [← List.cons_append, ← List.append_assoc, browsingAfter_concat]
    exact ⟨hrestoring, (hheld since (List.prefix_refl _)).2.trans hsame⟩
  · exact hheld mid hearlier

theorem HeldSince.start {events : List BrowserEvent}
    (hstart : (browsingAfter events).state.canStartRestore = true) :
    HeldSince (events ++ [.restore]) (browsingAfter events).state.snapshot := by
  refine ⟨events, [], rfl, hstart, rfl, fun mid hmid => ?_⟩
  obtain rfl := List.prefix_nil.mp hmid
  rw [browsingAfter_concat]
  simp only [BrowserEvent.apply]
  rw [if_pos hstart]
  exact ⟨rfl, ⟨rfl, rfl, rfl, rfl, rfl⟩⟩

/-- The restore that waits after a step waited before it, or the step started it. -/
theorem restoring_apply {b : Browsing} {event : BrowserEvent} {snapshot : RestoreSnapshot}
    (h : (event.apply b).restoring = some snapshot) :
    b.restoring = some snapshot ∨ event = .restore ∧ b.state.canStartRestore = true ∧
      snapshot = b.state.snapshot := by
  cases event with
  | load path => exact Or.inl h
  | loaded requestID outcome =>
    simp only [BrowserEvent.apply] at h
    split at h <;> exact Or.inl h
  | toggle path => exact Or.inl h
  | restore =>
    simp only [BrowserEvent.apply] at h
    split at h
    · rename_i hstart
      exact Or.inr ⟨rfl, hstart, (Option.some.inj h).symm⟩
    · exact Or.inl h
  | restored outcome =>
    simp only [BrowserEvent.apply] at h
    split at h
    · cases h
    · exact Or.inl h

theorem nextID_le_apply (b : Browsing) (event : BrowserEvent) :
    b.nextID ≤ (event.apply b).nextID := by
  cases event with
  | load path => exact Nat.le_add_right _ _
  | loaded requestID outcome =>
    simp only [BrowserEvent.apply]
    split <;> exact le_refl _
  | toggle path => exact Nat.le_succ _
  | restore =>
    simp only [BrowserEvent.apply]
    split <;> exact le_refl _
  | restored outcome =>
    simp only [BrowserEvent.apply]
    split
    · exact Nat.le_succ _
    · exact le_refl _

theorem traced_concat {events : List BrowserEvent} (h : Traced events) (event : BrowserEvent) :
    Traced (events ++ [event]) := by
  intro snapshot hafter
  have htracked := tracked_browsingAfter events
  have hmono := nextID_le_apply (browsingAfter events) event
  rw [browsingAfter_concat] at hafter ⊢
  by_cases hstarted : event = .restore ∧ (browsingAfter events).state.canStartRestore = true ∧
      snapshot = (browsingAfter events).state.snapshot
  · obtain ⟨rfl, hstart, rfl⟩ := hstarted
    have hdrawn : (browsingAfter events).state.selectionRevision < (browsingAfter events).nextID :=
      htracked.revisionDrawn
    exact ⟨lt_of_lt_of_le hdrawn hmono, fun _ => HeldSince.start hstart⟩
  · have hbefore := (restoring_apply hafter).resolve_right hstarted
    obtain ⟨hdrawn, hheld⟩ := h snapshot hbefore
    refine ⟨lt_of_lt_of_le hdrawn hmono, fun hrevision => ?_⟩
    rcases unchanged_or_drawn (browsingAfter events) event with hfresh | ⟨hkept, hsame⟩
    · omega
    · have hheld := hheld (hkept.symm.trans hrevision)
      exact hheld.concat hafter (hsame hheld.idle)

theorem traced_browsingAfter (events : List BrowserEvent) : Traced events := by
  induction events using List.reverseRecOn with
  | nil =>
    intro snapshot hsnapshot
    cases hsnapshot
  | append_singleton events event ih => exact traced_concat ih event

/-- A restore that ends and changes something found everything as it left it. -/
theorem restored_changes {events : List BrowserEvent} {outcome : Except String Unit}
    (h : (browsingAfter (events ++ [.restored outcome])).state.selection ≠
        (browsingAfter events).state.selection ∨
      (browsingAfter (events ++ [.restored outcome])).state.errorMessage ≠
        (browsingAfter events).state.errorMessage) :
    ∃ snapshot, HeldSince events snapshot := by
  rw [browsingAfter_concat] at h
  cases hrestoring : (browsingAfter events).restoring with
  | none =>
    simp only [BrowserEvent.apply, hrestoring] at h
    exact (h.elim (fun hne => hne rfl) fun hne => hne rfl).elim
  | some snapshot =>
    refine ⟨snapshot, (traced_browsingAfter events snapshot hrestoring).2 ?_⟩
    by_cases hcurrent : (browsingAfter events).state.isCurrent snapshot = true
    · exact (isCurrent_iff.mp hcurrent).2.1
    · simp only [BrowserEvent.apply, hrestoring] at h
      cases outcome with
      | ok u =>
        rw [finishRestore_ok, if_neg hcurrent] at h
        exact (h.elim (fun hne => hne rfl) fun hne => hne rfl).elim
      | error message =>
        rw [finishRestore_error, if_neg hcurrent] at h
        exact (h.elim (fun hne => hne rfl) fun hne => hne rfl).elim

/-- **Only the latest request publishes**: after any steps, in any order, the state shows
the load that was started last, only files of the shown list are ticked, a hundred at
most, and the end of a restore changes the selection or the error only if directory and
selection are as they were when it was started. -/
theorem recoveryBrowser_run (events : List BrowserEvent) :
    Shown (browsingAfter events) ∧ TicksFit (browsingAfter events).state ∧
      ∀ outcome, (browsingAfter (events ++ [.restored outcome])).state.selection ≠
            (browsingAfter events).state.selection ∨
          (browsingAfter (events ++ [.restored outcome])).state.errorMessage ≠
            (browsingAfter events).state.errorMessage →
        ∃ snapshot, HeldSince events snapshot := by
  have htracked := tracked_browsingAfter events
  exact ⟨htracked.shown, htracked.ticks, fun _ => restored_changes⟩

example :
    (browsingAfter [.load "a", .load "b", .loaded 2 (.ok [⟨"a/x", false⟩]),
      .loaded 4 (.ok [⟨"b/y", false⟩]), .toggle "b/y", .toggle "a/x"]).state.selection
      = ["b/y"] := by
  decide

end RcloneSync
