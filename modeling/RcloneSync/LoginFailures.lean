/-
RcloneSync/LoginFailures.lean

The brake on failed sign-ins: the table `auth_failures` with its functions (db.py) and the
settings that they are called with (auth.py).

A row counts the failures of one client since its window began.  With the last failure that is
allowed the client is locked out, and a new window begins.  A failure after the window has ended
begins a new window too, and there the row is written as if there had been none: with the count
one and without its lock.  The lock may be longer than the window, by default it is three times
as long, so that a failure can take back a lock that is still running.

Main result (`lock_kept_iff`): for all settings, in every sequence of calls, no failure lowers
the lock of a client before a call clears it exactly if each failure of a client with a lock is
recorded within the window of its row; and the function for one client and the function for many
leave the same table exactly if no client has the empty name, which the second one leaves out.
-/
import RcloneSync.AuthStore
import RcloneSync.Tables

namespace RcloneSync

open Py

/-! ### Settings -/

/-- `bounded_int`. -/
def boundedInt (value : Value) (fallback minimum maximum : Int) : Int :=
  let parsed := match pyInt value with
    | .ok n => n
    | .error _ => fallback
  max minimum (min parsed maximum)

theorem boundedInt_mem (value : Value) (fallback : Int) {minimum maximum : Int}
    (h : minimum ≤ maximum) : minimum ≤ boundedInt value fallback minimum maximum ∧
      boundedInt value fallback minimum maximum ≤ maximum := by
  unfold boundedInt
  exact ⟨le_max_left _ _, max_le h (min_le_right _ _)⟩

/-- What a failure is recorded with. -/
structure Limits where
  windowSec : Int
  maxFailures : Nat
  lockSec : Int
  deriving DecidableEq, Repr

/-- Limits as the settings admit them. -/
structure LoginPolicy extends Limits where
  window_bounds : 60 ≤ windowSec ∧ windowSec ≤ 86400
  failures_bounds : 3 ≤ maxFailures ∧ maxFailures ≤ 100
  lock_bounds : 60 ≤ lockSec ∧ lockSec ≤ 86400

/-- `_login_policy`, for the section `web` of the settings. -/
def loginPolicy (web : Dict) : LoginPolicy where
  windowSec := boundedInt (web.getOr "login_window_seconds" (.int 300)) 300 60 86400
  maxFailures := (boundedInt (web.getOr "login_max_failures" (.int 10)) 10 3 100).toNat
  lockSec := boundedInt (web.getOr "login_lock_seconds" (.int 900)) 900 60 86400
  window_bounds := boundedInt_mem _ _ (by decide)
  failures_bounds := by
    have h := boundedInt_mem (web.getOr "login_max_failures" (.int 10)) 10
      (show (3 : Int) ≤ 100 by decide)
    omega
  lock_bounds := boundedInt_mem _ _ (by decide)

/-! ### The table -/

/-- A row of `auth_failures`. -/
structure FailureRow where
  clientKey : String
  windowStartedAt : Time
  failureCount : Nat
  blockedUntil : Time
  updatedAt : Time
  deriving DecidableEq, Repr

abbrev FailureTable := List FailureRow

/-- The row of a client. -/
def FailureTable.row (table : FailureTable) (key : String) : Option FailureRow :=
  Tables.find FailureRow.clientKey table key

/-- The time until which a client is locked out; zero without a row. -/
def FailureTable.blockedUntil (table : FailureTable) (key : String) : Time :=
  ((table.row key).map FailureRow.blockedUntil).getD 0

/-- `tuple(dict.fromkeys(str(key) for key in client_keys if str(key)))`. -/
def clientKeys (keys : List String) : List String :=
  firstOccurrences (keys.filter fun key => decide (key ≠ ""))

/-- `auth_retry_after`. -/
def authRetryAfter (key : String) (now : Time) (table : FailureTable) : Int :=
  match table.row key with
  | none => 0
  | some r => if now < r.blockedUntil then max 1 ((r.blockedUntil - now) / seconds 1) else 0

/-- The row that a failure leaves, from the row that is there. -/
def failureRow (l : Limits) (key : String) (now : Time) (old : Option FailureRow) : FailureRow :=
  let counted : FailureRow := match old with
    | none => ⟨key, now, 1, 0, now⟩
    | some r =>
      if seconds l.windowSec < now - r.windowStartedAt then ⟨key, now, 1, 0, now⟩
      else ⟨key, r.windowStartedAt, r.failureCount + 1, r.blockedUntil, now⟩
  if l.maxFailures ≤ counted.failureCount then
    { counted with
      blockedUntil := max counted.blockedUntil (now + seconds l.lockSec)
      failureCount := 0
      windowStartedAt := now }
  else counted

/-- `INSERT … ON CONFLICT(client_key) DO UPDATE`. -/
def FailureTable.write (table : FailureTable) (new : FailureRow) : FailureTable :=
  Tables.upsert FailureRow.clientKey new (fun r => { new with clientKey := r.clientKey }) table

/-- The row of a client, read and written again with a failure more. -/
def writeFailure (l : Limits) (now : Time) (table : FailureTable) (key : String) : FailureTable :=
  table.write (failureRow l key now (table.row key))

/-- `auth_record_failure`: the table and the seconds to wait. -/
def authRecordFailure (l : Limits) (key : String) (now : Time) (table : FailureTable) :
    FailureTable × Int :=
  let table' := writeFailure l now table key
  (table', max 0 ((table'.blockedUntil key - now).tdiv (seconds 1)))

/-- `auth_record_failure_many`. -/
def authRecordFailureMany (l : Limits) (keys : List String) (now : Time) (table : FailureTable) :
    FailureTable × Int :=
  let table' := (clientKeys keys).foldl (writeFailure l now) table
  let longest := (clientKeys keys).foldl (fun b key => max b (table'.blockedUntil key)) 0
  (table', if now < longest then max 1 ((longest - now) / seconds 1) else 0)

/-- `auth_clear`. -/
def authClear (key : String) (table : FailureTable) : FailureTable :=
  table.filter fun r => decide (r.clientKey ≠ key)

/-- `auth_clear_many`. -/
def authClearMany (keys : List String) (table : FailureTable) : FailureTable :=
  (clientKeys keys).foldl (fun table key => authClear key table) table

/-! ### What a call leaves under a key -/

theorem clientKey_failureRow (l : Limits) (key : String) (now : Time) (old : Option FailureRow) :
    (failureRow l key now old).clientKey = key := by
  unfold failureRow
  cases old with
  | none =>
    dsimp only
    split <;> rfl
  | some r =>
    dsimp only
    split <;> split <;> rfl

theorem row_write (table : FailureTable) (new : FailureRow) (k : String) :
    (table.write new).row k = if k = new.clientKey then some new else table.row k := by
  unfold FailureTable.write FailureTable.row
  rw [Tables.find_upsert]
  · by_cases hk : k = new.clientKey
    · rw [if_pos hk, if_pos hk]
      cases hfind : Tables.find FailureRow.clientKey table k with
      | none => rfl
      | some r =>
        have hr : r.clientKey = new.clientKey := (Tables.key_of_find hfind).trans hk
        rw [Option.map_some, Option.getD_some, hr]
    · rw [if_neg hk, if_neg hk]
  · exact fun _ => rfl

theorem row_writeFailure (l : Limits) (now : Time) (table : FailureTable) (key k : String) :
    (writeFailure l now table key).row k
      = if k = key then some (failureRow l key now (table.row key)) else table.row k := by
  rw [writeFailure, row_write, clientKey_failureRow]

theorem row_foldl_writeFailure (l : Limits) (now : Time) (k : String) {keys : List String}
    (hkeys : keys.Nodup) (table : FailureTable) :
    (keys.foldl (writeFailure l now) table).row k
      = if k ∈ keys then some (failureRow l k now (table.row k)) else table.row k := by
  induction keys generalizing table with
  | nil => rfl
  | cons key keys ih =>
    obtain ⟨hnew, hkeys⟩ := List.nodup_cons.mp hkeys
    rw [List.foldl_cons, ih hkeys, row_writeFailure]
    by_cases hk : k = key
    · subst hk
      simp [hnew]
    · simp [hk]

theorem row_authClear (key k : String) (table : FailureTable) :
    (authClear key table).row k = if k = key then none else table.row k := by
  unfold authClear FailureTable.row Tables.find
  rw [List.find?_filter]
  by_cases hk : k = key
  · subst hk
    rw [if_pos rfl]
    refine List.find?_eq_none.mpr fun r _ => ?_
    simp
  · rw [if_neg hk]
    congr 1
    funext r
    by_cases hr : r.clientKey = k
    · simp [hr, hk]
    · simp [hr]

theorem row_authClearMany (keys : List String) (k : String) (table : FailureTable) :
    (authClearMany keys table).row k = if k ∈ clientKeys keys then none else table.row k := by
  have hfold : ∀ (keys : List String) (table : FailureTable),
      (keys.foldl (fun table key => authClear key table) table).row k
        = if k ∈ keys then none else table.row k := by
    intro keys
    induction keys with
    | nil => exact fun _ => rfl
    | cons key keys ih =>
      intro table
      rw [List.foldl_cons, ih, row_authClear]
      by_cases hk : k = key
      · simp [hk]
      · simp [hk]
  exact hfold _ _

theorem nodup_clientKeys (keys : List String) : (clientKeys keys).Nodup :=
  nodup_firstOccurrences _

theorem mem_clientKeys {k : String} {keys : List String} :
    k ∈ clientKeys keys ↔ k ∈ keys ∧ k ≠ "" := by
  unfold clientKeys
  rw [mem_firstOccurrences, List.mem_filter, decide_eq_true_eq]

/-! ### Locks and windows -/

/-- The failure finds no lock, or the window of the row still open. -/
def WithinWindow (l : Limits) (now : Time) (old : Option FailureRow) : Prop :=
  ∀ r, old = some r → 0 < r.blockedUntil → now - r.windowStartedAt ≤ seconds l.windowSec

/-- **What a failure does to a lock.**  It stays or grows, unless the window has ended. -/
theorem lock_failureRow_iff (l : Limits) (hmax : 2 ≤ l.maxFailures) (key : String) (now : Time)
    (old : Option FailureRow) :
    (old.map FailureRow.blockedUntil).getD 0 ≤ (failureRow l key now old).blockedUntil ↔
      WithinWindow l now old := by
  unfold WithinWindow failureRow
  cases old with
  | none =>
    refine iff_of_true ?_ (fun r h => absurd h (by simp))
    dsimp only
    split
    · exact le_max_left _ _
    · exact le_rfl
  | some r =>
    rw [Option.map_some, Option.getD_some]
    dsimp only
    by_cases hended : seconds l.windowSec < now - r.windowStartedAt
    · have hcount : ¬ l.maxFailures ≤ 1 := by omega
      rw [if_pos hended, if_neg hcount]
      constructor
      · intro hle r' hr' hlocked
        obtain rfl := Option.some.inj hr'
        exact absurd hle (not_le.mpr hlocked)
      · intro h
        by_contra hnot
        exact absurd (h r rfl (not_le.mp hnot)) (not_le.mpr hended)
    · rw [if_neg hended]
      refine iff_of_true ?_ (fun r' hr' _ => ?_)
      · split
        · exact le_max_left _ _
        · exact le_rfl
      · obtain rfl := Option.some.inj hr'
        exact not_lt.mp hended

/-! ### Sequences of calls -/

/-- The calls that change the table. -/
inductive FailureCall
  | record (key : String) (now : Time)
  | recordMany (keys : List String) (now : Time)
  | clear (key : String)
  | clearMany (keys : List String)
  deriving DecidableEq, Repr

def FailureCall.perform (l : Limits) (table : FailureTable) : FailureCall → FailureTable
  | record key now => (authRecordFailure l key now table).1
  | recordMany keys now => (authRecordFailureMany l keys now table).1
  | clear key => authClear key table
  | clearMany keys => authClearMany keys table

/-- The time at which a call records a failure of a client. -/
def FailureCall.failsAt (k : String) : FailureCall → Option Time
  | record key now => if k = key then some now else none
  | recordMany keys now => if k ∈ clientKeys keys then some now else none
  | clear _ | clearMany _ => none

/-- The call clears a client. -/
def FailureCall.clears (k : String) : FailureCall → Prop
  | record _ _ | recordMany _ _ => False
  | clear key => k = key
  | clearMany keys => k ∈ clientKeys keys

def performAll (l : Limits) (table : FailureTable) (calls : List FailureCall) : FailureTable :=
  calls.foldl (FailureCall.perform l) table

/-- What a call leaves under the key of a client that it does not clear. -/
theorem row_perform (l : Limits) (table : FailureTable) {call : FailureCall} {k : String}
    (hclear : ¬ call.clears k) :
    (call.perform l table).row k
      = (call.failsAt k).elim (table.row k) fun now =>
          some (failureRow l k now (table.row k)) := by
  cases call with
  | record key now =>
    show (writeFailure l now table key).row k = _
    rw [row_writeFailure, FailureCall.failsAt]
    by_cases hk : k = key
    · subst hk
      rw [if_pos rfl, if_pos rfl, Option.elim_some]
    · rw [if_neg hk, if_neg hk, Option.elim_none]
  | recordMany keys now =>
    show ((clientKeys keys).foldl (writeFailure l now) table).row k = _
    rw [row_foldl_writeFailure l now k (nodup_clientKeys keys), FailureCall.failsAt]
    by_cases hk : k ∈ clientKeys keys
    · rw [if_pos hk, if_pos hk, Option.elim_some]
    · rw [if_neg hk, if_neg hk, Option.elim_none]
  | clear key =>
    show (authClear key table).row k = _
    have hk : ¬ k = key := hclear
    rw [row_authClear, if_neg hk]
    rfl
  | clearMany keys =>
    show (authClearMany keys table).row k = _
    have hk : k ∉ clientKeys keys := hclear
    rw [row_authClearMany, if_neg hk]
    rfl

/-- No call of the sequence lowers the lock of a client before a call clears it. -/
def LocksKept (l : Limits) (table : FailureTable) (calls : List FailureCall) : Prop :=
  ∀ before between after, calls = before ++ between ++ after →
    ∀ k, (∀ call ∈ between, ¬ call.clears k) →
      (performAll l table before).blockedUntil k
        ≤ (performAll l table (before ++ between)).blockedUntil k

/-- Each failure of a client with a lock is recorded within the window of its row. -/
def FailuresWithinWindow (l : Limits) (table : FailureTable) (calls : List FailureCall) : Prop :=
  ∀ before call after, calls = before ++ call :: after → ∀ k now, call.failsAt k = some now →
    WithinWindow l now ((performAll l table before).row k)

theorem not_clears_of_failsAt {call : FailureCall} {k : String} {now : Time}
    (h : call.failsAt k = some now) : ¬ call.clears k := by
  cases call with
  | record _ _ | recordMany _ _ => exact not_false
  | clear _ | clearMany _ => cases h

/-- **The step.**  A call that does not clear a client keeps its lock if and only if it records
no failure of it, or records one within the window. -/
theorem lock_perform_iff (l : Limits) (hmax : 2 ≤ l.maxFailures) (table : FailureTable)
    {call : FailureCall} {k : String} (hclear : ¬ call.clears k) :
    table.blockedUntil k ≤ (call.perform l table).blockedUntil k ↔
      ∀ now, call.failsAt k = some now → WithinWindow l now (table.row k) := by
  unfold FailureTable.blockedUntil
  rw [row_perform l table hclear]
  cases hfails : call.failsAt k with
  | none => exact iff_of_true le_rfl fun _ h => absurd h (by simp)
  | some now =>
    rw [Option.elim_some, Option.map_some, Option.getD_some, lock_failureRow_iff l hmax]
    constructor
    · rintro h now' hnow
      obtain rfl := Option.some.inj hnow
      exact h
    · exact fun h => h now rfl

theorem performAll_append (l : Limits) (table : FailureTable) (calls calls' : List FailureCall) :
    performAll l table (calls ++ calls') = performAll l (performAll l table calls) calls' :=
  List.foldl_append

/-- **Sequences.**  Locks are kept exactly if the failures come within the windows. -/
theorem locksKept_iff (l : Limits) (hmax : 2 ≤ l.maxFailures) (table : FailureTable)
    (calls : List FailureCall) :
    LocksKept l table calls ↔ FailuresWithinWindow l table calls := by
  constructor
  · intro h before call after hcalls k now hfails
    have hclear := not_clears_of_failsAt hfails
    have hsplit : calls = before ++ [call] ++ after := by simp [hcalls]
    have hkept := h before [call] after hsplit k (by simpa using hclear)
    rw [performAll_append] at hkept
    exact (lock_perform_iff l hmax _ hclear).mp hkept now hfails
  · intro h before between after hcalls k hclear
    -- from the left, call by call
    induction between using List.reverseRecOn generalizing after with
    | nil => rw [List.append_nil]
    | append_singleton between call ih =>
      have hkept := ih (call :: after) (by simp [hcalls])
        fun c hc => hclear c (List.mem_append_left _ hc)
      have hcall : ¬ call.clears k := hclear call (by simp)
      have hlast := (lock_perform_iff l hmax (performAll l table (before ++ between)) hcall).mpr
        fun now hnow => h (before ++ between) call after (by simp [hcalls]) k now hnow
      rw [← List.append_assoc, performAll_append]
      exact le_trans hkept hlast

/-! ### One client and many -/

/-- The failures of a sequence, recorded one by one. -/
def recordSingly (l : Limits) (table : FailureTable) (failures : List (List String × Time)) :
    FailureTable :=
  failures.foldl (fun t f => f.1.foldl (fun t key => (authRecordFailure l key f.2 t).1) t) table

/-- The failures of a sequence, recorded for all clients at once. -/
def recordTogether (l : Limits) (table : FailureTable) (failures : List (List String × Time)) :
    FailureTable :=
  failures.foldl (fun t f => (authRecordFailureMany l f.1 f.2 t).1) table

theorem clientKeys_of_named {keys : List String} (hkeys : keys.Nodup) (h : "" ∉ keys) :
    clientKeys keys = keys := by
  have hall : ∀ key ∈ keys, decide (key ≠ "") = true := by
    intro key hkey
    refine decide_eq_true fun he => h ?_
    rw [← he]
    exact hkey
  rw [clientKeys, List.filter_eq_self.mpr hall, firstOccurrences_of_nodup hkeys]

theorem recordSingly_eq (l : Limits) {failures : List (List String × Time)}
    (hkeys : ∀ f ∈ failures, f.1.Nodup) (h : ∀ f ∈ failures, "" ∉ f.1) (table : FailureTable) :
    recordSingly l table failures = recordTogether l table failures := by
  induction failures generalizing table with
  | nil => rfl
  | cons f failures ih =>
    have hf : clientKeys f.1 = f.1 :=
      clientKeys_of_named (hkeys f List.mem_cons_self) (h f List.mem_cons_self)
    have hhead : f.1.foldl (fun t key => (authRecordFailure l key f.2 t).1) table
        = (authRecordFailureMany l f.1 f.2 table).1 := by
      show f.1.foldl (writeFailure l f.2) table = (clientKeys f.1).foldl (writeFailure l f.2) table
      rw [hf]
    have htail := ih (fun g hg => hkeys g (List.mem_cons_of_mem _ hg))
      (fun g hg => h g (List.mem_cons_of_mem _ hg)) (authRecordFailureMany l f.1 f.2 table).1
    rw [recordSingly, List.foldl_cons, hhead]
    exact htail

/-- The function for many clients never writes a row without a name. -/
theorem row_recordTogether_nameless (l : Limits) (failures : List (List String × Time))
    {table : FailureTable} (h : table.row "" = none) :
    (recordTogether l table failures).row "" = none := by
  induction failures generalizing table with
  | nil => exact h
  | cons f failures ih =>
    refine ih ?_
    have hnot : "" ∉ clientKeys f.1 := fun hmem => (mem_clientKeys.mp hmem).2 rfl
    show ((clientKeys f.1).foldl (writeFailure l f.2) table).row "" = none
    rw [row_foldl_writeFailure l f.2 "" (nodup_clientKeys f.1), if_neg hnot]
    exact h

theorem isSome_row_recordSingly (l : Limits) (k : String) {failures : List (List String × Time)}
    (hkeys : ∀ f ∈ failures, f.1.Nodup) (table : FailureTable)
    (h : (table.row k).isSome ∨ ∃ f ∈ failures, k ∈ f.1) :
    ((recordSingly l table failures).row k).isSome := by
  induction failures generalizing table with
  | nil =>
    rcases h with h | ⟨f, hf, _⟩
    · exact h
    · cases hf
  | cons f failures ih =>
    refine ih (fun g hg => hkeys g (List.mem_cons_of_mem _ hg)) _ ?_
    have hrow := row_foldl_writeFailure l f.2 k (hkeys f List.mem_cons_self) table
    rcases h with h | ⟨g, hg, hk⟩
    · refine Or.inl ?_
      show ((f.1.foldl (writeFailure l f.2) table).row k).isSome
      rw [hrow]
      split
      · rfl
      · exact h
    · rcases List.mem_cons.mp hg with rfl | hg
      · refine Or.inl ?_
        show ((g.1.foldl (writeFailure l g.2) table).row k).isSome
        rw [hrow, if_pos hk]
        rfl
      · exact Or.inr ⟨g, hg, hk⟩

/-- **One by one or together.**  The two functions leave the same table exactly if each client
has a name. -/
theorem recordSingly_eq_iff (l : Limits) {failures : List (List String × Time)}
    (hkeys : ∀ f ∈ failures, f.1.Nodup) {table : FailureTable} (hnone : table.row "" = none) :
    recordSingly l table failures = recordTogether l table failures ↔
      ∀ f ∈ failures, "" ∉ f.1 := by
  constructor
  · intro heq f hf hmem
    have hsome := isSome_row_recordSingly l "" hkeys table (Or.inr ⟨f, hf, hmem⟩)
    rw [heq, row_recordTogether_nameless l failures hnone] at hsome
    cases hsome
  · exact fun h => recordSingly_eq l hkeys h table

/-! ### The result -/

/-- **A lock is kept exactly while failures come within the window.**  For all settings and in
every sequence of calls, no failure lowers the lock of a client that has not been cleared if and
only if each failure of a client with a lock comes within the window of its row; and the two
functions leave the same table if and only if every client has a name. -/
theorem lock_kept_iff (p : LoginPolicy) (table : FailureTable) :
    (∀ calls, LocksKept p.toLimits table calls ↔ FailuresWithinWindow p.toLimits table calls) ∧
    (table.row "" = none → ∀ failures : List (List String × Time), (∀ f ∈ failures, f.1.Nodup) →
      (recordSingly p.toLimits table failures = recordTogether p.toLimits table failures ↔
        ∀ f ∈ failures, "" ∉ f.1)) := by
  have hmax : 2 ≤ p.maxFailures := le_trans (by decide) p.failures_bounds.1
  exact ⟨locksKept_iff p.toLimits hmax table, fun hnone _ hkeys =>
    recordSingly_eq_iff p.toLimits hkeys hnone⟩

/-- Two failures of a client, and the same failures recorded in the other way. -/
theorem lock_kept_iff_two_failures :
    LocksKept (loginPolicy []).toLimits []
      [.record "10.0.0.7" 0, .recordMany ["10.0.0.7", "10.0.0.8"] (seconds 5)] ∧
    recordSingly (loginPolicy []).toLimits [] [(["10.0.0.7", "10.0.0.8"], 0), (["10.0.0.7"], 5)]
      = recordTogether (loginPolicy []).toLimits []
          [(["10.0.0.7", "10.0.0.8"], 0), (["10.0.0.7"], 5)] := by
  refine ⟨((lock_kept_iff (loginPolicy []) []).1 _).mpr ?_,
    ((lock_kept_iff (loginPolicy []) []).2 rfl _ (by decide)).mpr (by decide)⟩
  intro before call after hcalls k now _ r hrow hlocked
  -- no row has a lock before either call
  have hfree : (performAll (loginPolicy []).toLimits [] before).all
      (fun r => decide (r.blockedUntil = 0)) = true := by
    rcases before with _ | ⟨first, _ | ⟨second, before⟩⟩
    · rfl
    · obtain ⟨rfl, _⟩ := List.cons.inj hcalls
      decide
    · have hlen := congrArg List.length hcalls
      simp at hlen
  have hzero := List.all_eq_true.mp hfree r (Tables.mem_of_find hrow)
  exact absurd (of_decide_eq_true hzero) (ne_of_gt hlocked)

/-- The sign-ins of a client that is locked out for a quarter of an hour, and one that was asked
for before and fails after the five minutes of the window. -/
def lateFailure : List FailureCall :=
  List.replicate 10 (.record "10.0.0.7" 0) ++ [.record "10.0.0.7" (seconds 301)]

/-- **The last failure takes the lock back.** -/
theorem late_failure_unlocks :
    ¬ LocksKept (loginPolicy []).toLimits [] lateFailure ∧
    (performAll (loginPolicy []).toLimits [] (List.replicate 10 (.record "10.0.0.7" 0))).blockedUntil
      "10.0.0.7" = seconds 900 ∧
    (performAll (loginPolicy []).toLimits [] lateFailure).blockedUntil "10.0.0.7" = 0 := by
  have hlocked : (performAll (loginPolicy []).toLimits []
      (List.replicate 10 (.record "10.0.0.7" 0))).blockedUntil "10.0.0.7" = seconds 900 := by
    decide +kernel
  have hfree : (performAll (loginPolicy []).toLimits [] lateFailure).blockedUntil "10.0.0.7" = 0 := by
    decide +kernel
  refine ⟨fun h => ?_, hlocked, hfree⟩
  have hkept := h (List.replicate 10 (.record "10.0.0.7" 0))
    [.record "10.0.0.7" (seconds 301)] [] (by simp [lateFailure]) "10.0.0.7"
    (by simp [FailureCall.clears])
  rw [hlocked] at hkept
  have hfree' : (performAll (loginPolicy []).toLimits [] (List.replicate 10 (.record "10.0.0.7" 0) ++
      [.record "10.0.0.7" (seconds 301)])).blockedUntil "10.0.0.7" = 0 := hfree
  rw [hfree'] at hkept
  exact absurd hkept (by decide)

end RcloneSync
