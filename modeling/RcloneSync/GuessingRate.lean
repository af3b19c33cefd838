/-
RcloneSync/GuessingRate.lean

How many wrong passwords a client can try: `_authenticate_login` (main.py) over the table of
failures.

A sign-in is turned away while the client is locked out.  Otherwise it is checked, and what it
comes to is written with the time at which the check ends: a failure counts, a success clears the
row.  The window of a row begins with its first failure, so the failures at the end of one window
and those in the next one add up.

The measure of the proof is what a row still allows before the end of an interval: the failures
up to the next lock, and those of one more window if its window began before the interval.  A
failure takes one from it, and a success gives back at most what a client without a row has.

Main result (`guessing_rate`): where the lock is not shorter than the window, a client is allowed
at most `2 · max_failures - 1` failures in an interval of the length of the window, and
`max_failures - 1` more for each sign-in of the client that succeeds in it.  The interval is
half-open, unless the lock is longer than the window.
-/
import Mathlib.Tactic.Linarith
import RcloneSync.LoginFailures

namespace RcloneSync

/-! ### Attempts -/

/-- A sign-in: the client, the times at which the lock is looked up and at which the check of
the password has ended, and whether the password was right. -/
structure Attempt where
  clientKey : String
  asked : Time
  settled : Time
  correct : Bool
  deriving DecidableEq, Repr

inductive LoginResult
  | rateLimited (retryAfter : Int)
  | invalidCredentials (retryAfter : Int)
  | success
  deriving DecidableEq, Repr

def LoginResult.failed : LoginResult → Bool
  | invalidCredentials _ => true
  | rateLimited _ | success => false

def LoginResult.succeeded : LoginResult → Bool
  | success => true
  | rateLimited _ | invalidCredentials _ => false

/-- `_authenticate_login`. -/
def authenticateLogin (l : Limits) (table : FailureTable) (a : Attempt) :
    LoginResult × FailureTable :=
  let retryAfter := authRetryAfter a.clientKey a.asked table
  if retryAfter ≠ 0 then (.rateLimited retryAfter, table)
  else if a.correct then (.success, authClear a.clientKey table)
  else
    let recorded := authRecordFailure l a.clientKey a.settled table
    (.invalidCredentials recorded.2, recorded.1)

/-- A sequence of attempts with their results. -/
def loginLog (l : Limits) : FailureTable → List Attempt → List (Attempt × LoginResult)
  | _, [] => []
  | table, a :: attempts =>
    (a, (authenticateLogin l table a).1) :: loginLog l (authenticateLogin l table a).2 attempts

/-- The attempts come one after the other, none before a time. -/
def InOrder : Time → List Attempt → Prop
  | _, [] => True
  | clock, a :: attempts => clock ≤ a.asked ∧ a.asked ≤ a.settled ∧ InOrder a.settled attempts

instance : (clock : Time) → (attempts : List Attempt) → Decidable (InOrder clock attempts)
  | _, [] => .isTrue trivial
  | clock, a :: attempts =>
    have : Decidable (InOrder a.settled attempts) := instDecidableInOrder a.settled attempts
    inferInstanceAs (Decidable (clock ≤ a.asked ∧ a.asked ≤ a.settled ∧ InOrder a.settled attempts))

/-- The attempt is one of the client in the interval. -/
def Attempt.within (key : String) (lower upper : Time) (a : Attempt) : Bool :=
  decide (a.clientKey = key ∧ lower ≤ a.asked ∧ a.asked < upper)

/-- The number of failed attempts that a client was allowed in an interval. -/
def failedIn (key : String) (lower upper : Time) (log : List (Attempt × LoginResult)) : Nat :=
  log.countP fun e => e.1.within key lower upper && e.2.failed

/-- The number of attempts of a client that succeeded in an interval. -/
def succeededIn (key : String) (lower upper : Time) (log : List (Attempt × LoginResult)) : Nat :=
  log.countP fun e => e.1.within key lower upper && e.2.succeeded

/-! ### One attempt -/

theorem authRetryAfter_eq_zero_iff (key : String) (now : Time) (table : FailureTable) :
    authRetryAfter key now table = 0 ↔ ∀ r, table.row key = some r → r.blockedUntil ≤ now := by
  unfold authRetryAfter
  cases table.row key with
  | none => exact iff_of_true rfl fun _ h => absurd h (by simp)
  | some r =>
    dsimp only
    by_cases hlocked : now < r.blockedUntil
    · rw [if_pos hlocked]
      refine iff_of_false ?_ fun h => absurd (h r rfl) (not_le.mpr hlocked)
      have hone : (1 : Int) ≤ max 1 ((r.blockedUntil - now) / seconds 1) := le_max_left _ _
      omega
    · rw [if_neg hlocked]
      refine iff_of_true rfl fun r' hr' => ?_
      obtain rfl := Option.some.inj hr'
      exact not_lt.mp hlocked

/-- **What an attempt does.**  It is turned away and changes nothing, or the client is not
locked out and its row is removed by a success or written by a failure. -/
theorem authenticateLogin_cases (l : Limits) (table : FailureTable) (a : Attempt) :
    (∃ n, authenticateLogin l table a = (.rateLimited n, table)) ∨
    ((∀ r, table.row a.clientKey = some r → r.blockedUntil ≤ a.asked) ∧
      (authenticateLogin l table a = (.success, authClear a.clientKey table) ∨
        ∃ n, authenticateLogin l table a
          = (.invalidCredentials n, writeFailure l a.settled table a.clientKey))) := by
  unfold authenticateLogin
  dsimp only
  by_cases hretry : authRetryAfter a.clientKey a.asked table = 0
  · refine Or.inr ⟨(authRetryAfter_eq_zero_iff _ _ _).mp hretry, ?_⟩
    rw [if_neg (not_not.mpr hretry)]
    by_cases hcorrect : a.correct = true
    · rw [if_pos hcorrect]
      exact Or.inl rfl
    · rw [if_neg hcorrect]
      exact Or.inr ⟨_, rfl⟩
  · rw [if_pos hretry]
    exact Or.inl ⟨_, rfl⟩

/-- An attempt leaves the rows of other clients. -/
theorem row_authenticateLogin_other (l : Limits) (table : FailureTable) {a : Attempt} {k : String}
    (h : a.clientKey ≠ k) : (authenticateLogin l table a).2.row k = table.row k := by
  have hk : ¬ k = a.clientKey := fun he => h he.symm
  rcases authenticateLogin_cases l table a with ⟨n, heq⟩ | ⟨_, heq | ⟨n, heq⟩⟩
  · rw [heq]
  · rw [heq]
    dsimp only
    rw [row_authClear, if_neg hk]
  · rw [heq]
    dsimp only
    rw [row_writeFailure, if_neg hk]

/-! ### What a row still allows -/

/-- The failures that a row still allows before the end of an interval. -/
def allowance (l : Limits) (lower upper : Time) : Option FailureRow → Nat
  | none => l.maxFailures
  | some r =>
    if upper ≤ r.blockedUntil then 0
    else if lower ≤ r.windowStartedAt then max 1 (l.maxFailures - r.failureCount)
    else max 1 (l.maxFailures - r.failureCount) - 1 + l.maxFailures

section Allowance

variable {l : Limits} {lower upper : Time}

theorem allowance_locked {r : FailureRow} (h : upper ≤ r.blockedUntil) :
    allowance l lower upper (some r) = 0 := if_pos h

theorem allowance_old {r : FailureRow} (hfree : ¬ upper ≤ r.blockedUntil)
    (h : ¬ lower ≤ r.windowStartedAt) : allowance l lower upper (some r)
      = max 1 (l.maxFailures - r.failureCount) - 1 + l.maxFailures := by
  rw [allowance, if_neg hfree, if_neg h]

theorem allowance_recent {r : FailureRow} (hfree : ¬ upper ≤ r.blockedUntil)
    (h : lower ≤ r.windowStartedAt) :
    allowance l lower upper (some r) = max 1 (l.maxFailures - r.failureCount) := by
  rw [allowance, if_neg hfree, if_pos h]

theorem allowance_le_recent {r : FailureRow} (h : lower ≤ r.windowStartedAt) :
    allowance l lower upper (some r) ≤ max 1 (l.maxFailures - r.failureCount) := by
  by_cases hfree : upper ≤ r.blockedUntil
  · rw [allowance_locked hfree]
    exact Nat.zero_le _
  · exact le_of_eq (allowance_recent hfree h)

theorem allowance_le (hmax : 1 ≤ l.maxFailures) (row : Option FailureRow) :
    allowance l lower upper row ≤ 2 * l.maxFailures - 1 := by
  unfold allowance
  cases row with
  | none =>
    dsimp only
    omega
  | some r =>
    dsimp only
    split_ifs <;> omega

/-- A client that is not locked out is allowed a failure. -/
theorem one_le_allowance (hmax : 1 ≤ l.maxFailures) {row : Option FailureRow} {s : Time}
    (hs : s < upper) (hfree : ∀ r, row = some r → r.blockedUntil ≤ s) :
    1 ≤ allowance l lower upper row := by
  cases row with
  | none => exact hmax
  | some r =>
    have hr : ¬ upper ≤ r.blockedUntil := not_le.mpr (lt_of_le_of_lt (hfree r rfl) hs)
    by_cases hstart : lower ≤ r.windowStartedAt
    · rw [allowance_recent hr hstart]
      exact le_max_left _ _
    · rw [allowance_old hr hstart]
      omega

/-- **A failure takes one from the allowance**, or its check ends with the interval over. -/
theorem allowance_failureRow (hmax : 1 ≤ l.maxFailures) (hlock : upper ≤ lower + seconds l.lockSec)
    (hwindow : upper ≤ lower + seconds l.windowSec + 1) {row : Option FailureRow} {s t : Time}
    (hlower : lower ≤ s) (hs : s < upper) (ht : s ≤ t)
    (hfree : ∀ r, row = some r → r.blockedUntil ≤ s) (key : String) :
    upper ≤ t ∨ allowance l lower upper (some (failureRow l key t row)) + 1
      ≤ allowance l lower upper row := by
  by_cases hover : upper ≤ t
  · exact Or.inl hover
  refine Or.inr ?_
  have hone : 1 ≤ allowance l lower upper row := one_le_allowance hmax hs hfree
  have hstarted : lower ≤ t := le_trans hlower ht
  -- a row with a new lock allows nothing more
  have hlocked : ∀ r : FailureRow, t + seconds l.lockSec ≤ r.blockedUntil →
      allowance l lower upper (some r) + 1 ≤ allowance l lower upper row := by
    intro r hr
    have hupper : upper ≤ r.blockedUntil := by linarith
    rw [allowance_locked hupper]
    exact hone
  unfold failureRow
  cases row with
  | none =>
    dsimp only
    by_cases hlast : l.maxFailures ≤ 1
    · rw [if_pos hlast]
      exact hlocked _ (le_max_right _ _)
    · have hnew : allowance l lower upper (some ⟨key, t, 1, 0, t⟩) ≤ max 1 (l.maxFailures - 1) :=
        allowance_le_recent hstarted
      rw [if_neg hlast]
      show _ ≤ l.maxFailures
      omega
  | some r =>
    have hr : ¬ upper ≤ r.blockedUntil := not_le.mpr (lt_of_le_of_lt (hfree r rfl) hs)
    dsimp only
    by_cases hended : seconds l.windowSec < t - r.windowStartedAt
    · rw [if_pos hended]
      dsimp only
      by_cases hlast : l.maxFailures ≤ 1
      · rw [if_pos hlast]
        exact hlocked _ (le_max_right _ _)
      · -- the window that has ended began before the interval
        have hstart : ¬ lower ≤ r.windowStartedAt := by
          intro hstart
          have hlate : lower + seconds l.windowSec < t := by linarith
          have hnext : lower + seconds l.windowSec + 1 ≤ t := Int.add_one_le_of_lt hlate
          exact hover (le_trans hwindow hnext)
        have hnew : allowance l lower upper (some ⟨key, t, 1, 0, t⟩) ≤ max 1 (l.maxFailures - 1) :=
          allowance_le_recent hstarted
        rw [if_neg hlast, allowance_old hr hstart]
        omega
    · rw [if_neg hended]
      dsimp only
      by_cases hlast : l.maxFailures ≤ r.failureCount + 1
      · rw [if_pos hlast]
        exact hlocked _ (le_max_right _ _)
      · rw [if_neg hlast]
        by_cases hstart : lower ≤ r.windowStartedAt
        · have hnew : allowance l lower upper (some ⟨key, r.windowStartedAt, r.failureCount + 1,
              r.blockedUntil, t⟩) = max 1 (l.maxFailures - (r.failureCount + 1)) :=
            allowance_recent hr hstart
          rw [hnew, allowance_recent hr hstart]
          omega
        · have hnew : allowance l lower upper (some ⟨key, r.windowStartedAt, r.failureCount + 1,
              r.blockedUntil, t⟩)
                = max 1 (l.maxFailures - (r.failureCount + 1)) - 1 + l.maxFailures :=
            allowance_old hr hstart
          rw [hnew, allowance_old hr hstart]
          omega

end Allowance

/-! ### Sequences of attempts -/

theorem loginLog_cons (l : Limits) (table : FailureTable) (a : Attempt) (attempts : List Attempt) :
    loginLog l table (a :: attempts)
      = (a, (authenticateLogin l table a).1) ::
          loginLog l (authenticateLogin l table a).2 attempts := rfl

theorem failedIn_cons (key : String) (lower upper : Time) (a : Attempt) (r : LoginResult)
    (log : List (Attempt × LoginResult)) : failedIn key lower upper ((a, r) :: log)
      = failedIn key lower upper log
        + if (a.within key lower upper && r.failed) = true then 1 else 0 := by
  exact List.countP_cons

theorem succeededIn_cons (key : String) (lower upper : Time) (a : Attempt) (r : LoginResult)
    (log : List (Attempt × LoginResult)) : succeededIn key lower upper ((a, r) :: log)
      = succeededIn key lower upper log
        + if (a.within key lower upper && r.succeeded) = true then 1 else 0 := by
  exact List.countP_cons

/-- An attempt that is not one of the client in the interval is not counted. -/
theorem counts_cons_outside {key : String} {lower upper : Time} {a : Attempt}
    (h : a.within key lower upper = false) (r : LoginResult) (log : List (Attempt × LoginResult)) :
    failedIn key lower upper ((a, r) :: log) = failedIn key lower upper log ∧
      succeededIn key lower upper ((a, r) :: log) = succeededIn key lower upper log := by
  rw [failedIn_cons, succeededIn_cons, h]
  exact ⟨rfl, rfl⟩

/-- Once the interval is over, nothing is counted. -/
theorem failedIn_late (l : Limits) (key : String) (lower upper : Time) {clock : Time}
    {attempts : List Attempt} (horder : InOrder clock attempts) (h : upper ≤ clock)
    (table : FailureTable) : failedIn key lower upper (loginLog l table attempts) = 0 := by
  induction attempts generalizing clock table with
  | nil => rfl
  | cons a attempts ih =>
    obtain ⟨hclock, hsettled, horder⟩ := horder
    have hasked : upper ≤ a.asked := le_trans h hclock
    have hout : a.within key lower upper = false := by
      refine decide_eq_false ?_
      rintro ⟨_, _, hupper⟩
      exact absurd hupper (not_lt.mpr hasked)
    rw [loginLog_cons, (counts_cons_outside hout _ _).1]
    exact ih horder (le_trans hasked hsettled) _

section Rate

variable {l : Limits} {key : String} {lower upper : Time}

/-- **The sequence.**  From the beginning of the interval on, a client fails at most as often as
its row allows, and a success gives it at most the failures of a new row. -/
theorem failedIn_le_allowance (hmax : 1 ≤ l.maxFailures)
    (hlock : upper ≤ lower + seconds l.lockSec)
    (hwindow : upper ≤ lower + seconds l.windowSec + 1) {clock : Time} {attempts : List Attempt}
    (horder : InOrder clock attempts) (hclock : lower ≤ clock) (table : FailureTable) :
    failedIn key lower upper (loginLog l table attempts)
      ≤ allowance l lower upper (table.row key)
        + (l.maxFailures - 1) * succeededIn key lower upper (loginLog l table attempts) := by
  induction attempts generalizing clock table with
  | nil => exact Nat.zero_le _
  | cons a attempts ih =>
    obtain ⟨hasked, hsettled, horder'⟩ := horder
    have hlower : lower ≤ a.asked := le_trans hclock hasked
    have hrest := ih horder' (le_trans hlower hsettled) (authenticateLogin l table a).2
    by_cases hover : upper ≤ a.asked
    · have hlate : InOrder a.asked (a :: attempts) := ⟨le_rfl, hsettled, horder'⟩
      rw [failedIn_late l key lower upper hlate hover table]
      exact Nat.zero_le _
    rw [loginLog_cons]
    by_cases hkey : a.clientKey = key
    · have hin : a.within key lower upper = true :=
        decide_eq_true ⟨hkey, hlower, not_le.mp hover⟩
      rw [failedIn_cons, succeededIn_cons, hin]
      subst hkey
      rcases authenticateLogin_cases l table a with ⟨n, heq⟩ | ⟨hfree, heq | ⟨n, heq⟩⟩
      · rw [heq] at hrest ⊢
        exact hrest
      · have hone : 1 ≤ allowance l lower upper (table.row a.clientKey) :=
          one_le_allowance hmax (not_le.mp hover) hfree
        have hnone : (authClear a.clientKey table).row a.clientKey = none := by
          rw [row_authClear, if_pos rfl]
        rw [heq] at hrest ⊢
        dsimp only at hrest ⊢
        rw [hnone] at hrest
        have hfresh : allowance l lower upper none = l.maxFailures := rfl
        rw [hfresh] at hrest
        simp only [LoginResult.failed, LoginResult.succeeded, Bool.and_false, Bool.and_true,
          Bool.false_eq_true, if_false, if_true, Nat.add_zero, Nat.mul_add, Nat.mul_one]
        omega
      · have hone : 1 ≤ allowance l lower upper (table.row a.clientKey) :=
          one_le_allowance hmax (not_le.mp hover) hfree
        rw [heq] at hrest ⊢
        dsimp only at hrest ⊢
        rw [row_writeFailure, if_pos rfl] at hrest
        simp only [LoginResult.failed, LoginResult.succeeded, Bool.and_false, Bool.and_true,
          Bool.false_eq_true, if_false, if_true, Nat.add_zero]
        rcases allowance_failureRow hmax hlock hwindow hlower (not_le.mp hover) hsettled hfree
          a.clientKey with hend | hless
        · rw [failedIn_late l a.clientKey lower upper horder' hend]
          omega
        · omega
    · have hout : a.within key lower upper = false := by
        refine decide_eq_false ?_
        rintro ⟨he, _⟩
        exact hkey he
      obtain ⟨hfailed, hsucceeded⟩ := counts_cons_outside hout (authenticateLogin l table a).1
        (loginLog l (authenticateLogin l table a).2 attempts)
      rw [row_authenticateLogin_other l table hkey] at hrest
      rw [hfailed, hsucceeded]
      exact hrest

/-- The bound of an interval that is over when the first lock of it or the first window ends. -/
theorem failedIn_le (hmax : 1 ≤ l.maxFailures) (hlock : upper ≤ lower + seconds l.lockSec)
    (hwindow : upper ≤ lower + seconds l.windowSec + 1) {clock : Time} {attempts : List Attempt}
    (horder : InOrder clock attempts) (table : FailureTable) :
    failedIn key lower upper (loginLog l table attempts)
      ≤ 2 * l.maxFailures - 1
        + (l.maxFailures - 1) * succeededIn key lower upper (loginLog l table attempts) := by
  induction attempts generalizing clock table with
  | nil => exact Nat.zero_le _
  | cons a attempts ih =>
    obtain ⟨_, hsettled, horder'⟩ := horder
    by_cases hbegun : lower ≤ a.asked
    · have horder : InOrder a.asked (a :: attempts) := ⟨le_rfl, hsettled, horder'⟩
      have hle : failedIn key lower upper (loginLog l table (a :: attempts))
          ≤ allowance l lower upper (table.row key) + (l.maxFailures - 1) *
            succeededIn key lower upper (loginLog l table (a :: attempts)) :=
        failedIn_le_allowance hmax hlock hwindow horder hbegun table
      have hall : allowance l lower upper (table.row key) ≤ 2 * l.maxFailures - 1 :=
        allowance_le hmax _
      omega
    · have hout : a.within key lower upper = false := by
        refine decide_eq_false ?_
        rintro ⟨_, he, _⟩
        exact hbegun he
      obtain ⟨hfailed, hsucceeded⟩ := counts_cons_outside hout (authenticateLogin l table a).1
        (loginLog l (authenticateLogin l table a).2 attempts)
      rw [loginLog_cons, hfailed, hsucceeded]
      exact ih horder' _

end Rate

/-! ### The result -/

/-- **Bounded guessing rate.**  Where the lock is not shorter than the window, a client fails at
most `2 · max_failures - 1` times in an interval of the length of the window, and
`max_failures - 1` times more for each success in it.  Where the lock is longer than the window,
the interval may have both its ends. -/
theorem guessing_rate (l : Limits) (hmax : 1 ≤ l.maxFailures) (hlock : l.windowSec ≤ l.lockSec)
    (table : FailureTable) {clock : Time} {attempts : List Attempt}
    (horder : InOrder clock attempts) (key : String) (lower : Time) :
    failedIn key lower (lower + seconds l.windowSec) (loginLog l table attempts)
        ≤ 2 * l.maxFailures - 1 + (l.maxFailures - 1) *
          succeededIn key lower (lower + seconds l.windowSec) (loginLog l table attempts) ∧
    (l.windowSec < l.lockSec →
      failedIn key lower (lower + seconds l.windowSec + 1) (loginLog l table attempts)
        ≤ 2 * l.maxFailures - 1 + (l.maxFailures - 1) *
          succeededIn key lower (lower + seconds l.windowSec + 1)
            (loginLog l table attempts)) := by
  have hseconds : ∀ m n : Int, m ≤ n → seconds m ≤ seconds n := by
    intro m n h
    show m * 1000000 ≤ n * 1000000
    omega
  constructor
  · have hle := hseconds _ _ hlock
    refine failedIn_le hmax ?_ ?_ horder table
    · linarith
    · linarith
  · intro hlonger
    have hle : seconds l.windowSec + 1 ≤ seconds l.lockSec := by
      show l.windowSec * 1000000 + 1 ≤ l.lockSec * 1000000
      omega
    refine failedIn_le hmax ?_ le_rfl horder table
    linarith

/-- Attempts of one client that take no time, right or wrong. -/
def attemptsAt (asked : Time) (correct : List Bool) : List Attempt :=
  correct.map fun c => ⟨"10.0.0.7", asked, asked, c⟩

/-- The settings as they come: the failures of two windows, a lock between them. -/
theorem guessing_rate_two_windows :
    failedIn "10.0.0.7" 0 (seconds 300) (loginLog (loginPolicy []).toLimits []
      (attemptsAt (seconds (-1)) [false] ++ attemptsAt 0 (List.replicate 10 false))) ≤ 19 := by
  have horder : InOrder (seconds (-1))
      (attemptsAt (seconds (-1)) [false] ++ attemptsAt 0 (List.replicate 10 false)) := by decide
  have hrate := (guessing_rate (loginPolicy []).toLimits (by decide) (by decide) [] horder
    "10.0.0.7" 0).1
  have hnone : succeededIn "10.0.0.7" 0 (0 + seconds (loginPolicy []).windowSec)
      (loginLog (loginPolicy []).toLimits []
        (attemptsAt (seconds (-1)) [false] ++ attemptsAt 0 (List.replicate 10 false))) = 0 := by
    decide +kernel
  rw [hnone] at hrate
  exact hrate

/-- **Where the bound fails.**  With three failures, a window and a lock of a minute each: a
success between the failures clears the row, so that six failures find no lock; and three
failures at each end of a minute are six in the closed interval, which no lock covers. -/
theorem six_guesses_in_a_minute :
    InOrder 0 (attemptsAt 0 [false, false, true, false, false, true, false, false]) ∧
    2 * 3 - 1 < failedIn "10.0.0.7" 0 (seconds 60) (loginLog ⟨60, 3, 60⟩ []
      (attemptsAt 0 [false, false, true, false, false, true, false, false])) ∧
    InOrder 0 (attemptsAt 0 [false, false, false] ++
      attemptsAt (seconds 60) [false, false, false]) ∧
    2 * 3 - 1 < failedIn "10.0.0.7" 0 (seconds 60 + 1) (loginLog ⟨60, 3, 60⟩ []
      (attemptsAt 0 [false, false, false] ++ attemptsAt (seconds 60) [false, false, false])) := by
  decide +kernel

end RcloneSync
