/-
RcloneSync/SchedulerPause.lean

The pause of the scheduler (scheduler_control.py).

The pause is a row of `runtime_settings`.  A query takes the time, reads the row, and where the
pause is over it deletes the row, in a step of its own.  To pause or to resume ends in such a
query, and to resume begins with one.  The calls are made by any number of processes, whose steps
come in any order.

The delete does not look at the row again, so it also takes away a pause that was stored after the
reading (`not_pause_kept`).  Where this does not happen, and no query reads the row after one that
has taken a later time and removed it, a pause is kept until its end (`pause_kept`).
-/
import RcloneSync.AuthStore
import RcloneSync.PyText
import RcloneSync.Runs

namespace RcloneSync

open Py Runs

/-! ### The row and its reading -/

/-- The value under `scheduler_pause`; an end of zero stands for none. -/
structure StoredPause where
  paused : Bool
  untilTime : Time
  reason : String
  actor : String
  updatedAt : Time
  deriving DecidableEq

/-- `raw = {}`. -/
def StoredPause.empty : StoredPause := ⟨false, 0, "", "", 0⟩

/-- What `scheduler_state` returns. -/
structure PauseView where
  paused : Bool
  untilTime : Option Time
  remainingSeconds : Option Int
  reason : String
  actor : String
  updatedAt : Option Time
  deriving DecidableEq

def StoredPause.IsOver (raw : StoredPause) (now : Time) : Prop :=
  raw.untilTime ≠ 0 ∧ raw.untilTime ≤ now

instance (raw : StoredPause) (now : Time) : Decidable (raw.IsOver now) :=
  inferInstanceAs (Decidable (_ ∧ _))

/-- The answer from a row that is not over. -/
def StoredPause.view (raw : StoredPause) (now : Time) : PauseView :=
  let paused := raw.paused && (raw.untilTime ≤ 0 || now < raw.untilTime)
  { paused := paused
    untilTime := if raw.untilTime = 0 then none else some raw.untilTime
    remainingSeconds :=
      if paused && raw.untilTime ≠ 0 then some (max 0 ((raw.untilTime - now).tdiv 1000000))
      else none
    reason := takeText 300 (strip raw.reason)
    actor := takeText 128 (strip (if raw.actor = "" then "system" else raw.actor))
    updatedAt := if raw.updatedAt = 0 then none else some raw.updatedAt }

/-- `scheduler_state` between its two steps: the answer, and whether the row is to be deleted. -/
def schedulerState (row : Option StoredPause) (now : Time) (cleanupExpired : Bool) :
    PauseView × Bool :=
  let raw := row.getD .empty
  if raw.IsOver now then (StoredPause.empty.view now, cleanupExpired) else (raw.view now, false)

def maxPauseSeconds : Int := 31 * 24 * 3600

inductive PauseError
  | notInFuture
  | tooLong
  deriving DecidableEq

/-- The end that is asked for, as a time or in seconds from now. -/
def pauseEnd (now : Time) (untilTime : Option Time) (duration : Option Int) : Time :=
  let given := duration.getD 0
  untilTime.getD (now + seconds (max 60 (min (if given = 0 then 3600 else given) maxPauseSeconds)))

/-- `pause_scheduler` up to the write: the row that it stores. -/
def pauseScheduler (now : Time) (untilTime : Option Time) (duration : Option Int)
    (reason actor : String) : Except PauseError StoredPause :=
  if pauseEnd now untilTime duration ≤ now then .error .notInFuture
  else if seconds maxPauseSeconds < pauseEnd now untilTime duration - now then .error .tooLong
  else .ok {
    paused := true
    untilTime := pauseEnd now untilTime duration
    reason := takeText 300 (strip (if reason = "" then "Wartungsfenster" else reason))
    actor := takeText 128 (strip (if actor = "" then "system" else actor))
    updatedAt := now }

/-! ### The calls and their steps -/

/-- What a reading of the row is for. -/
inductive Reading
  | query
  | afterPause
  | beforeResume (actor : String)
  | afterResume
  deriving DecidableEq

/-- How far a call has come; the step named is the next one. -/
inductive PauseCall
  | idle
  | read (now : Time) (cleanupExpired : Bool) (purpose : Reading)
  | cleanUp (now : Time) (view : PauseView) (purpose : Reading)
  | store (row : StoredPause)
  | auditPause (row : StoredPause)
  | delete (actor : String) (previous : PauseView)
  | auditResume (actor : String) (previous : PauseView)
  | returned (view : PauseView)
  | raised
  deriving DecidableEq

/-- What `pause_scheduler` goes on with behind its checks. -/
def PauseCall.ofRequest : Except PauseError StoredPause → PauseCall
  | .ok row => .store row
  | .error _ => .raised

/-- What a call goes on with when it has its answer. -/
def Reading.next (purpose : Reading) (view : PauseView) : PauseCall :=
  match purpose with
  | .beforeResume actor => .delete actor view
  | .query | .afterPause | .afterResume => .returned view

/-- An entry of the audit log. -/
structure PauseAudit where
  eventType : String
  actor : String
  untilTime : Option Time
  reason : String
  deriving DecidableEq

/-- The row, the audit log and the calls.  `cleanedAt`, which no step reads, is the latest time
of a query that has removed the row since a pause was last stored. -/
structure PauseSystem where
  row : Option StoredPause
  audit : List PauseAudit
  calls : Nat → PauseCall
  cleanedAt : Option Time

/-- No call has begun. -/
def PauseSystem.start (row : Option StoredPause) : PauseSystem := ⟨row, [], fun _ => .idle, none⟩

def PauseSystem.setCall (s : PauseSystem) (call : Nat) (c : PauseCall) : PauseSystem :=
  { s with calls := Function.update s.calls call c }

/-- The steps.  A call may be given up anywhere, by an error or the end of its process. -/
inductive PauseAction
  | beginQuery (call : Nat) (now : Time) (cleanupExpired : Bool)
  | beginPause (call : Nat) (now : Time) (untilTime : Option Time) (duration : Option Int)
      (reason actor : String)
  | beginResume (call : Nat) (now : Time) (actor : String)
  | read (call : Nat)
  | cleanUp (call : Nat)
  | store (call : Nat)
  | delete (call : Nat)
  | audit (call : Nat) (now : Time)
  | giveUp (call : Nat)

def PauseSystem.begin (s : PauseSystem) (call : Nat) (c : PauseCall) : Option PauseSystem :=
  if s.calls call = .idle then some (s.setCall call c) else none

/-- `runtime_get`, and the answer from what it returns. -/
def PauseSystem.read (s : PauseSystem) (call : Nat) : Option PauseSystem :=
  match s.calls call with
  | .read now cleanupExpired purpose =>
    let result := schedulerState s.row now cleanupExpired
    some (s.setCall call
      (if result.2 then .cleanUp now result.1 purpose else purpose.next result.1))
  | _ => none

/-- `runtime_delete` in `scheduler_state`. -/
def PauseSystem.cleanUp (s : PauseSystem) (call : Nat) : Option PauseSystem :=
  match s.calls call with
  | .cleanUp now view purpose => some { s.setCall call (purpose.next view) with
      row := none
      cleanedAt := some (s.cleanedAt.elim now (max now)) }
  | _ => none

/-- `runtime_set` in `pause_scheduler`. -/
def PauseSystem.store (s : PauseSystem) (call : Nat) : Option PauseSystem :=
  match s.calls call with
  | .store row => some { s.setCall call (.auditPause row) with row := some row, cleanedAt := none }
  | _ => none

/-- `runtime_delete` in `resume_scheduler`. -/
def PauseSystem.delete (s : PauseSystem) (call : Nat) : Option PauseSystem :=
  match s.calls call with
  | .delete actor previous => some { s.setCall call (.auditResume actor previous) with row := none }
  | _ => none

/-- `audit_add`, and the start of the query behind it: that of a pause takes the time of the
pause, that of a resume a new one. -/
def PauseSystem.addAudit (s : PauseSystem) (call : Nat) (now : Time) : Option PauseSystem :=
  match s.calls call with
  | .auditPause row => some { s.setCall call (.read row.updatedAt true .afterPause) with
      audit := s.audit ++ [⟨"scheduler_paused", row.actor, some row.untilTime, row.reason⟩] }
  | .auditResume actor previous => some { s.setCall call (.read now true .afterResume) with
      audit := s.audit ++ [⟨"scheduler_resumed",
        takeText 128 (if actor = "" then "system" else actor), previous.untilTime,
        previous.reason⟩] }
  | _ => none

def pauseStep (s : PauseSystem) : PauseAction → Option PauseSystem
  | .beginQuery call now cleanupExpired => s.begin call (.read now cleanupExpired .query)
  | .beginPause call now untilTime duration reason actor =>
    s.begin call (.ofRequest (pauseScheduler now untilTime duration reason actor))
  | .beginResume call now actor => s.begin call (.read now true (.beforeResume actor))
  | .read call => s.read call
  | .cleanUp call => s.cleanUp call
  | .store call => s.store call
  | .delete call => s.delete call
  | .audit call now => s.addAudit call now
  | .giveUp call => some (s.setCall call .raised)

/-- A clean-up finds no row but one that is over for its query, and a query reads the row at no
earlier time than a query that has removed it. -/
def CleansInOrder (s : PauseSystem) : PauseAction → Prop
  | .cleanUp call => ∀ now view purpose, s.calls call = .cleanUp now view purpose →
      ∀ row, s.row = some row → row.IsOver now
  | .read call => ∀ now cleanupExpired purpose, s.calls call = .read now cleanupExpired purpose →
      ∀ t, s.cleanedAt = some t → t ≤ now
  | _ => True

/-- The step neither stores a pause nor deletes the row for a resume. -/
def PauseAction.Keeps : PauseAction → Prop
  | .store _ | .delete _ => False
  | _ => True

/-! ### What is stored -/

theorem pauseScheduler_ok {now : Time} {untilTime : Option Time} {duration : Option Int}
    {reason actor : String} {row : StoredPause}
    (h : pauseScheduler now untilTime duration reason actor = .ok row) :
    row.paused = true ∧ row.updatedAt = now ∧ now < row.untilTime := by
  unfold pauseScheduler at h
  by_cases hpast : pauseEnd now untilTime duration ≤ now
  · rw [if_pos hpast] at h
    cases h
  · rw [if_neg hpast] at h
    by_cases hlong : seconds maxPauseSeconds < pauseEnd now untilTime duration - now
    · rw [if_pos hlong] at h
      cases h
    · rw [if_neg hlong] at h
      obtain rfl := Except.ok.inj h
      exact ⟨rfl, rfl, not_le.mp hpast⟩

/-- A pause is shown as long as it is not over. -/
theorem schedulerState_kept {row : StoredPause} {now : Time} (hpaused : row.paused = true)
    (hnow : now < row.untilTime) (cleanupExpired : Bool) :
    schedulerState (some row) now cleanupExpired = (row.view now, false) ∧
      (row.view now).paused = true := by
  have hover : ¬ row.IsOver now := fun h => absurd h.2 (not_le.mpr hnow)
  refine ⟨if_neg hover, ?_⟩
  show (row.paused && (decide (row.untilTime ≤ 0) || decide (now < row.untilTime))) = true
  rw [hpaused, decide_eq_true hnow, Bool.or_true, Bool.and_true]

/-- Every pause that is about to be stored is one. -/
def StoresPauses (s : PauseSystem) : Prop :=
  ∀ call row, s.calls call = .store row → row.paused = true

theorem next_ne_store (purpose : Reading) (view : PauseView) (row : StoredPause) :
    purpose.next view ≠ .store row := by
  cases purpose <;> exact nofun

theorem ofRequest_store {request : Except PauseError StoredPause} {row : StoredPause}
    (h : PauseCall.ofRequest request = .store row) : request = .ok row := by
  cases request with
  | error e => cases h
  | ok stored =>
    obtain rfl := PauseCall.store.inj h
    rfl

section Steps

variable {s t : PauseSystem} {a : PauseAction}

theorem begin_cases {call : Nat} {c : PauseCall} (h : s.begin call c = some t) :
    t = s.setCall call c := by
  unfold PauseSystem.begin at h
  split at h
  · exact (Option.some.inj h).symm
  · cases h

theorem read_cases {call : Nat} (h : s.read call = some t) :
    ∃ now cleanupExpired purpose, s.calls call = .read now cleanupExpired purpose ∧
      t = s.setCall call (if (schedulerState s.row now cleanupExpired).2
        then .cleanUp now (schedulerState s.row now cleanupExpired).1 purpose
        else purpose.next (schedulerState s.row now cleanupExpired).1) := by
  unfold PauseSystem.read at h
  split at h
  · rename_i now cleanupExpired purpose hcall
    exact ⟨now, cleanupExpired, purpose, hcall, (Option.some.inj h).symm⟩
  · cases h

theorem cleanUp_cases {call : Nat} (h : s.cleanUp call = some t) :
    ∃ now view purpose, s.calls call = .cleanUp now view purpose ∧
      t = { s.setCall call (purpose.next view) with
        row := none
        cleanedAt := some (s.cleanedAt.elim now (max now)) } := by
  unfold PauseSystem.cleanUp at h
  split at h
  · rename_i now view purpose hcall
    exact ⟨now, view, purpose, hcall, (Option.some.inj h).symm⟩
  · cases h

theorem store_cases {call : Nat} (h : s.store call = some t) :
    ∃ row, s.calls call = .store row ∧
      t = { s.setCall call (.auditPause row) with row := some row, cleanedAt := none } := by
  unfold PauseSystem.store at h
  split at h
  · rename_i row hcall
    exact ⟨row, hcall, (Option.some.inj h).symm⟩
  · cases h

theorem delete_cases {call : Nat} (h : s.delete call = some t) :
    ∃ actor previous, t = { s.setCall call (.auditResume actor previous) with row := none } := by
  unfold PauseSystem.delete at h
  split at h
  · exact ⟨_, _, (Option.some.inj h).symm⟩
  · cases h

theorem addAudit_cases {call : Nat} {now : Time} (h : s.addAudit call now = some t) :
    ∃ started purpose audit,
      t = { s.setCall call (.read started true purpose) with audit := audit } := by
  unfold PauseSystem.addAudit at h
  split at h
  · exact ⟨_, _, _, (Option.some.inj h).symm⟩
  · exact ⟨_, _, _, (Option.some.inj h).symm⟩
  · cases h

/-- What a step does to the calls: one of them goes on, and stores nothing but a pause. -/
theorem pauseStep_calls (h : pauseStep s a = some t) :
    ∃ call c, t.calls = Function.update s.calls call c ∧
      ∀ row, c = .store row → row.paused = true := by
  cases a with
  | beginQuery call now cleanupExpired =>
    rw [begin_cases h]
    exact ⟨call, _, rfl, fun row hrow => PauseCall.noConfusion hrow⟩
  | beginPause call now untilTime duration reason actor =>
    rw [begin_cases h]
    exact ⟨call, _, rfl, fun row hrow => (pauseScheduler_ok (ofRequest_store hrow)).1⟩
  | beginResume call now actor =>
    rw [begin_cases h]
    exact ⟨call, _, rfl, fun row hrow => PauseCall.noConfusion hrow⟩
  | read call =>
    obtain ⟨now, cleanupExpired, purpose, -, rfl⟩ := read_cases h
    refine ⟨call, _, rfl, fun row hrow => ?_⟩
    split at hrow
    · cases hrow
    · exact absurd hrow (next_ne_store _ _ row)
  | cleanUp call =>
    obtain ⟨now, view, purpose, -, rfl⟩ := cleanUp_cases h
    exact ⟨call, _, rfl, fun row hrow => absurd hrow (next_ne_store _ _ row)⟩
  | store call =>
    obtain ⟨row, -, rfl⟩ := store_cases h
    exact ⟨call, _, rfl, fun row hrow => PauseCall.noConfusion hrow⟩
  | delete call =>
    obtain ⟨actor, previous, rfl⟩ := delete_cases h
    exact ⟨call, _, rfl, fun row hrow => PauseCall.noConfusion hrow⟩
  | audit call now =>
    obtain ⟨started, purpose, audit, rfl⟩ := addAudit_cases h
    exact ⟨call, _, rfl, fun row hrow => PauseCall.noConfusion hrow⟩
  | giveUp call =>
    rw [← Option.some.inj h]
    exact ⟨call, _, rfl, fun row hrow => PauseCall.noConfusion hrow⟩

theorem storesPauses_step (hs : StoresPauses s) (h : pauseStep s a = some t) :
    StoresPauses t := by
  obtain ⟨call, c, hcalls, hc⟩ := pauseStep_calls h
  intro other row hrow
  rw [hcalls] at hrow
  by_cases hother : other = call
  · rw [hother, Function.update_self] at hrow
    exact hc row hrow
  · rw [Function.update_of_ne hother] at hrow
    exact hs other row hrow

/-- The row is there until its end is reached by the time of a query that removes it. -/
def KeptUntilOver (row : StoredPause) (s : PauseSystem) : Prop :=
  s.row = some row ∨ (s.row = none ∧ ∃ t, s.cleanedAt = some t ∧ row.untilTime ≤ t)

theorem keptUntilOver_step {row : StoredPause} (hs : KeptUntilOver row s)
    (h : Restrict (Steps pauseStep) CleansInOrder s a t) (ha : a.Keeps) :
    KeptUntilOver row t := by
  obtain ⟨h, horder⟩ := h
  cases a with
  | store call => exact ha.elim
  | delete call => exact ha.elim
  | beginQuery call now cleanupExpired => rwa [begin_cases h]
  | beginPause call now untilTime duration reason actor => rwa [begin_cases h]
  | beginResume call now actor => rwa [begin_cases h]
  | read call =>
    obtain ⟨now, cleanupExpired, purpose, -, rfl⟩ := read_cases h
    exact hs
  | cleanUp call =>
    obtain ⟨now, view, purpose, hcall, rfl⟩ := cleanUp_cases h
    refine .inr ⟨rfl, _, rfl, ?_⟩
    rcases hs with hrow | ⟨-, latest, hlatest, hover⟩
    · -- the row is over for the query that removes it
      have hover := (horder now view purpose hcall row hrow).2
      cases hcleaned : s.cleanedAt with
      | none => exact hover
      | some earlier => exact hover.trans (le_max_left now earlier)
    · rw [hlatest]
      exact hover.trans (le_max_right now latest)
  | audit call now =>
    obtain ⟨started, purpose, audit, rfl⟩ := addAudit_cases h
    exact hs
  | giveUp call => rwa [← Option.some.inj h]

end Steps

/-! ### Runs -/

/-- **A pause is kept until its end** in every run in which the clean-ups come in order: from the
step that stores it, as long as nothing else is stored and no resume deletes the row, every
reading at an earlier time than its end finds the scheduler paused. -/
theorem pause_kept {row₀ : Option StoredPause} {s t u v : PauseSystem}
    {before after : List PauseAction} {call reader : Nat}
    (hbefore : Run (Steps pauseStep) (.start row₀) before s)
    (hstore : pauseStep s (.store call) = some t)
    (hafter : Run (Restrict (Steps pauseStep) CleansInOrder) t after u)
    (hkeeps : ∀ a ∈ after, a.Keeps)
    (hread : Restrict (Steps pauseStep) CleansInOrder u (.read reader) v) :
    ∃ row now cleanupExpired purpose, s.calls call = .store row ∧
      u.calls reader = .read now cleanupExpired purpose ∧ (now < row.untilTime →
        ∃ view : PauseView, view.paused = true ∧ v.calls reader = purpose.next view) := by
  have hstores : StoresPauses s :=
    hbefore.preserves StoresPauses (fun _ _ _ hs h => storesPauses_step hs h)
      (fun call row h => by cases h)
  obtain ⟨row, hcall, rfl⟩ := store_cases hstore
  have hkept : KeptUntilOver row u := by
    have hrun := hafter.restrict (C := fun _ a => a.Keeps) fun a ha _ => hkeeps a ha
    exact hrun.preserves (KeptUntilOver row) (fun _ _ _ hs h => keptUntilOver_step hs h.1 h.2)
      (.inl rfl)
  obtain ⟨hread, horder⟩ := hread
  obtain ⟨now, cleanupExpired, purpose, hreader, rfl⟩ := read_cases hread
  refine ⟨row, now, cleanupExpired, purpose, hcall, hreader, fun hnow => ?_⟩
  rcases hkept with hrow | ⟨-, latest, hlatest, hover⟩
  · obtain ⟨hstate, hpaused⟩ :=
      schedulerState_kept (hstores call row hcall) hnow cleanupExpired
    refine ⟨row.view now, hpaused, ?_⟩
    rw [hrow, hstate]
    exact Function.update_self reader (purpose.next (row.view now)) u.calls
  · have hlate : latest ≤ now := horder now cleanupExpired purpose hreader latest hlatest
    exact absurd (hover.trans hlate) (not_le.mpr hnow)

/-- A pause until 10 s. -/
def oldPause : StoredPause := ⟨true, seconds 10, "Wartungsfenster", "admin", seconds 5⟩

/-- A pause for a minute from 11 s. -/
def minutePause : StoredPause := ⟨true, seconds 71, "Wartungsfenster", "admin", seconds 11⟩

theorem pauseScheduler_minute :
    pauseScheduler (seconds 11) none (some 60) "" "admin" = .ok minutePause := by decide

/-- A call is about to store the pause for a minute. -/
theorem beginPause_minute {s : PauseSystem} (hidle : s.calls 1 = .idle) :
    pauseStep s (.beginPause 1 (seconds 11) none (some 60) "" "admin") =
      some (s.setCall 1 (.store minutePause)) := by
  show s.begin 1 (.ofRequest (pauseScheduler _ _ _ _ _)) = _
  rw [pauseScheduler_minute]
  exact if_pos hidle

theorem pause_kept_minute : ∃ v view, runAll pauseStep (.start none)
    [.beginPause 1 (seconds 11) none (some 60) "" "admin", .store 1,
      .beginQuery 2 (seconds 12) true, .read 2] = some v ∧
    v.calls 2 = .returned view ∧ view.paused = true := by
  have hbegin := @beginPause_minute (.start none) rfl
  have hkept := @pause_kept none _ _ _ _ [_] [.beginQuery 2 (seconds 12) true] 1 2
    (.cons hbegin (.nil _)) rfl (.cons ⟨rfl, trivial⟩ (.nil _))
    (fun a ha => by rw [List.mem_singleton.mp ha]; trivial) ⟨rfl, fun _ _ _ _ _ ht => by cases ht⟩
  obtain ⟨row, now, cleanupExpired, purpose, hcall, hreader, hview⟩ := hkept
  obtain rfl : minutePause = row := PauseCall.store.inj hcall
  obtain ⟨rfl, -, rfl⟩ := PauseCall.read.inj hreader
  obtain ⟨view, hpaused, hreturned⟩ := hview (by decide)
  refine ⟨_, view, ?_, hreturned, hpaused⟩
  unfold runAll
  rw [List.foldlM_cons, hbegin]
  rfl

/-- A query that has read the old pause deletes the new one. -/
theorem not_pause_kept : ¬ ∀ (row₀ : Option StoredPause) (s t u v : PauseSystem)
    (before after : List PauseAction) (call reader : Nat),
    Run (Steps pauseStep) (.start row₀) before s → pauseStep s (.store call) = some t →
    Run (Steps pauseStep) t after u → (∀ a ∈ after, a.Keeps) →
    pauseStep u (.read reader) = some v →
    ∃ row now cleanupExpired purpose, s.calls call = .store row ∧
      u.calls reader = .read now cleanupExpired purpose ∧ (now < row.untilTime →
        ∃ view : PauseView, view.paused = true ∧ v.calls reader = purpose.next view) := by
  intro h
  have hstale : Run (Steps pauseStep) (.start (some oldPause))
      [.beginQuery 3 (seconds 10) true, .read 3] _ := .cons rfl (.cons rfl (.nil _))
  have hbefore := hstale.append (.cons (beginPause_minute rfl) (.nil _))
  have hlost := h _ _ _ _ _ _ [.audit 1 (seconds 11), .read 1, .cleanUp 3,
    .beginQuery 2 (seconds 12) true] 1 2 hbefore rfl
    (.cons rfl (.cons rfl (.cons rfl (.cons rfl (.nil _))))) (by simp [PauseAction.Keeps]) rfl
  obtain ⟨row, now, cleanupExpired, purpose, hcall, hreader, hview⟩ := hlost
  obtain rfl : minutePause = row := PauseCall.store.inj hcall
  obtain ⟨rfl, -, rfl⟩ := PauseCall.read.inj hreader
  obtain ⟨view, hpaused, hreturned⟩ := hview (by decide)
  obtain rfl : PauseView.mk false none none "" "system" none = view :=
    PauseCall.returned.inj hreturned
  cases hpaused

end RcloneSync
