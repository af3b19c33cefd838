/-
RcloneSync/RecoveryCommand.lean

A command of the recovery and its output (`run_command`, jobs/recovery_lifecycle.py).

Two readers drain the pipes of the child into buffers with one budget (SharedBudget).  The call
looks, over and over, whether it is cancelled, whether a reader has flagged something, whether the
child has ended and no reader is alive, and whether its time is over.  Only when the child has
ended and both readers have, does it look at the flags once more and return.

`run_command_complete`: what it returns is all of both streams, and nothing of it can change any
more.  From its deadline on, the call comes to its end within thirteen steps of its own.
-/
import RcloneSync.JobStore
import RcloneSync.SharedBudget
import RcloneSync.UrlText

namespace RcloneSync

open Py Runs

/-! ### The call and its result -/

/-- The pipes, in the order of `pipes`. -/
inductive Pipe
  | stdout
  | stderr
  deriving DecidableEq

instance : Fintype Pipe := ⟨{.stdout, .stderr}, fun pipe => by cases pipe <;> decide⟩

/-- What is asked for, and what the child will write. -/
structure CommandCall where
  command : List String
  timeout : Time
  maxOutputBytes : Int
  cancellable : Bool
  output : Pipe → List UInt8

/-- `subprocess.CompletedProcess`. -/
structure CompletedProcess where
  args : List String
  returncode : Int
  stdout : String
  stderr : String
  deriving DecidableEq

inductive CommandError
  | limitNotPositive
  | cancelled
  | overflow
  | readError (cause : String)
  | timeoutExpired
  | raised (error : String)
  deriving DecidableEq

/-- `bytes.decode("utf-8", errors="replace")`. -/
def decodeReplacing (bytes : List UInt8) : String :=
  String.ofList (decodePieces .start (bytes.map .inl))

/-! ### The steps of the call -/

/-- How far the call has come; what is named is the next step. -/
inductive CallPhase
  | checkLimit
  | checkFirst
  | popen
  | register
  | startReader (pipe : Pipe)
  | checkCancelled
  | checkOverflow
  | checkErrors
  | poll
  | askAlive (code : Int) (pipe : Pipe)
  | confirmOverflow (code : Int)
  | confirmErrors (code : Int)
  | checkDeadline
  | checkLast (code : Int)
  | decode (code : Int)
  | cleanUp (result : Except CommandError CompletedProcess)
  | ended (result : Except CommandError CompletedProcess)

/-- The readers, the child, the flag for cancelling, the clock and the call. -/
structure CommandSystem where
  drains : SharedBudget.State Pipe UInt8 String
  exitCode : Option Int
  cancelled : Bool
  clock : Time
  deadline : Time
  call : CallPhase

def CommandSystem.init (c : CommandCall) (cancelled : Bool) (clock : Time) : CommandSystem :=
  ⟨.init c.output, none, cancelled, clock, 0, .checkLimit⟩

/-- The call goes on, or ends through its `finally`. -/
def CommandSystem.goOn (s : CommandSystem) (p : CallPhase) : CommandSystem := { s with call := p }

def CommandSystem.raise (s : CommandSystem) (e : CommandError) : CommandSystem :=
  s.goOn (.cleanUp (.error e))

/-- `check_cancelled`, where the call can be cancelled. -/
def CommandSystem.stopped (c : CommandCall) (s : CommandSystem) : Bool :=
  c.cancellable && s.cancelled

/-- `reader.is_alive()`. -/
def CommandSystem.isAlive (s : CommandSystem) (pipe : Pipe) : Bool :=
  match s.drains.phase pipe with
  | .start | .dead => false
  | _ => true

/-- Where the call goes when the reader of a pipe has been started. -/
def CallPhase.afterStart : Pipe → CallPhase
  | .stdout => .startReader .stderr
  | .stderr => .checkCancelled

/-- Where the call goes when the reader of a pipe is not alive. -/
def CallPhase.afterDead (code : Int) : Pipe → CallPhase
  | .stdout => .askAlive code .stderr
  | .stderr => .confirmOverflow code

/-- The next step of the call; `fails` says that what it asks the system for is refused. -/
def CommandSystem.advance (c : CommandCall) (s : CommandSystem) (fails : Bool) : CommandSystem :=
  match s.call with
  | .checkLimit =>
    if c.maxOutputBytes < 1 then s.goOn (.ended (.error .limitNotPositive)) else s.goOn .checkFirst
  | .checkFirst =>
    if s.stopped c then s.goOn (.ended (.error .cancelled)) else s.goOn .popen
  | .popen =>
    if fails then s.goOn (.ended (.error (.raised "Popen"))) else s.goOn .register
  | .register =>
    if fails && c.cancellable then s.raise (.raised "_register_proc")
    else { s.goOn (.startReader .stdout) with deadline := s.clock + c.timeout }
  | .startReader pipe =>
    if fails then s.raise (.raised "Thread.start")
    else { s.goOn (.afterStart pipe) with
      drains := s.drains.setPhase pipe .read }
  | .checkCancelled => if s.stopped c then s.raise .cancelled else s.goOn .checkOverflow
  | .checkOverflow => if s.drains.overflow then s.raise .overflow else s.goOn .checkErrors
  | .checkErrors =>
    match s.drains.errors with
    | e :: _ => s.raise (.readError e)
    | [] => s.goOn .poll
  | .poll => s.goOn (s.exitCode.elim .checkDeadline fun code => .askAlive code .stdout)
  | .askAlive code pipe =>
    if s.isAlive pipe then s.goOn .checkDeadline
    else s.goOn (.afterDead code pipe)
  | .confirmOverflow code =>
    if s.drains.overflow then s.raise .overflow else s.goOn (.confirmErrors code)
  | .confirmErrors code =>
    match s.drains.errors with
    | e :: _ => s.raise (.readError e)
    | [] => s.goOn (.checkLast code)
  | .checkDeadline =>
    if s.deadline ≤ s.clock then s.raise .timeoutExpired else s.goOn .checkCancelled
  | .checkLast code => if s.stopped c then s.raise .cancelled else s.goOn (.decode code)
  | .decode code => s.goOn (.cleanUp (.ok {
      args := c.command
      returncode := code
      stdout := decodeReplacing (s.drains.buffer .stdout)
      stderr := decodeReplacing (s.drains.buffer .stderr) }))
  | .cleanUp result => s.goOn (.ended (if fails then .error (.raised "finally") else result))
  | .ended result => s.goOn (.ended result)

/-- The steps of the readers, of the child, of the world around and of the call. -/
inductive CommandAction
  | reader (pipe : Pipe) (choice : SharedBudget.Choice String)
  | exit (code : Int)
  | setCancelled (cancelled : Bool)
  | pass (duration : Nat)
  | call (fails : Bool)

/-- The size of the blocks that are read. -/
def blockSize : Nat := 64 * 1024

def commandStep (c : CommandCall) (s : CommandSystem) : CommandAction → Option CommandSystem
  | .reader pipe choice =>
    (s.drains.step c.maxOutputBytes.toNat blockSize pipe choice).map fun d => { s with drains := d }
  | .exit code => if s.exitCode.isNone then some { s with exitCode := some code } else none
  | .setCancelled cancelled => some { s with cancelled := cancelled }
  | .pass duration => some { s with clock := s.clock + duration }
  | .call fails =>
    match s.call with
    | .ended _ => none
    | _ => some (s.advance c fails)

/-! ### What holds at each point of the call -/

abbrev Drains := SharedBudget.State Pipe UInt8 String

/-- Both readers have ended, and neither has flagged anything. -/
structure ReadersQuiet (d : Drains) : Prop where
  dead : ∀ pipe, d.phase pipe = .dead
  overflow : d.overflow = false
  errors : d.errors = []

/-- The readers that the call has started, and what it knows of them and of the child. -/
def CallInv (c : CommandCall) (d : Drains) (exitCode : Option Int) : CallPhase → Prop
  | .checkLimit | .checkFirst | .popen | .register | .startReader .stdout =>
    ∀ pipe, d.phase pipe = .start
  | .startReader .stderr => d.phase .stdout ≠ .start ∧ d.phase .stderr = .start
  | .checkCancelled | .checkOverflow | .checkErrors | .poll | .checkDeadline =>
    ∀ pipe, d.phase pipe ≠ .start
  | .askAlive code .stdout => (∀ pipe, d.phase pipe ≠ .start) ∧ exitCode = some code
  | .askAlive code .stderr =>
    (∀ pipe, d.phase pipe ≠ .start) ∧ exitCode = some code ∧ d.phase .stdout = .dead
  | .confirmOverflow code => (∀ pipe, d.phase pipe = .dead) ∧ exitCode = some code
  | .confirmErrors code =>
    (∀ pipe, d.phase pipe = .dead) ∧ exitCode = some code ∧ d.overflow = false
  | .checkLast code | .decode code => ReadersQuiet d ∧ exitCode = some code
  | .cleanUp (.ok r) | .ended (.ok r) => ReadersQuiet d ∧ exitCode = some r.returncode ∧
    r = ⟨c.command, r.returncode, decodeReplacing (c.output .stdout),
      decodeReplacing (c.output .stderr)⟩
  | .cleanUp (.error _) | .ended (.error _) => True

structure CommandInv (c : CommandCall) (s : CommandSystem) : Prop where
  drains : SharedBudget.Inv c.maxOutputBytes.toNat c.output s.drains
  limit : 1 ≤ c.maxOutputBytes ∨ s.call = .checkLimit ∨ s.call = .ended (.error .limitNotPositive)
  call : CallInv c s.drains s.exitCode s.call

section Steps

variable {c : CommandCall} {s t : CommandSystem} {d e : Drains}

/-- What the steps of the readers and of the child may change for the call. -/
structure KeepsCall (d e : Drains) (exitCode exitCode' : Option Int) : Prop where
  start : ∀ pipe, d.phase pipe = .start → e.phase pipe = .start
  started : ∀ pipe, d.phase pipe ≠ .start → e.phase pipe ≠ .start
  dead : ∀ pipe, d.phase pipe = .dead → e.phase pipe = .dead
  allDead : (∀ pipe, d.phase pipe = .dead) → e = d
  exited : ∀ code, exitCode = some code → exitCode' = some code

theorem KeepsCall.callInv {exitCode exitCode' : Option Int} (h : KeepsCall d e exitCode exitCode')
    {p : CallPhase} (hd : CallInv c d exitCode p) : CallInv c e exitCode' p := by
  have hquiet : ReadersQuiet d → ReadersQuiet e := fun hd => by rwa [h.allDead hd.dead]
  revert hd
  cases p with
  | checkLimit | checkFirst | popen | register => exact fun hd pipe => h.start pipe (hd pipe)
  | startReader pipe =>
    cases pipe with
    | stdout => exact fun hd pipe => h.start pipe (hd pipe)
    | stderr => exact fun hd => ⟨h.started _ hd.1, h.start _ hd.2⟩
  | checkCancelled | checkOverflow | checkErrors | poll | checkDeadline =>
    exact fun hd pipe => h.started pipe (hd pipe)
  | askAlive code pipe =>
    cases pipe with
    | stdout => exact fun hd => ⟨fun p => h.started p (hd.1 p), h.exited _ hd.2⟩
    | stderr =>
      exact fun hd => ⟨fun p => h.started p (hd.1 p), h.exited _ hd.2.1, h.dead _ hd.2.2⟩
  | confirmOverflow code => exact fun hd => ⟨fun p => h.dead p (hd.1 p), h.exited _ hd.2⟩
  | confirmErrors code =>
    exact fun hd => ⟨fun p => h.dead p (hd.1 p), h.exited _ hd.2.1,
      (congrArg SharedBudget.State.overflow (h.allDead hd.1)).trans hd.2.2⟩
  | checkLast code | decode code => exact fun hd => ⟨hquiet hd.1, h.exited _ hd.2⟩
  | cleanUp result | ended result =>
    cases result with
    | ok r => exact fun hd => ⟨hquiet hd.1, h.exited _ hd.2.1, hd.2.2⟩
    | error e => exact fun _ => trivial

theorem keepsCall_reader {pipe : Pipe} {choice : SharedBudget.Choice String} {budget : Nat}
    (exitCode : Option Int) (h : d.step budget blockSize pipe choice = some e) :
    KeepsCall d e exitCode exitCode where
  start _ hp := SharedBudget.start_step hp h
  started _ hp := SharedBudget.started_step hp h
  dead _ hp := SharedBudget.dead_step hp h
  allDead hdead := absurd (hdead pipe) (SharedBudget.step_ne_of_dead h)
  exited _ hcode := hcode

theorem keepsCall_exit (d : Drains) (code : Int) : KeepsCall d d none (some code) where
  start _ hp := hp
  started _ hp := hp
  dead _ hp := hp
  allDead _ := rfl
  exited _ h := by cases h

/-- A reader that was started and is not alive has ended. -/
theorem dead_of_not_alive {pipe : Pipe} (hstarted : s.drains.phase pipe ≠ .start)
    (h : s.isAlive pipe = false) : s.drains.phase pipe = .dead := by
  unfold CommandSystem.isAlive at h
  split at h
  · rename_i hstart
    exact absurd hstart hstarted
  · assumption
  · cases h

/-! ### The steps of the call -/

/-- The start of a reader. -/
theorem callInv_start {pipe : Pipe} {exitCode : Option Int}
    (h : CallInv c d exitCode (.startReader pipe)) :
    d.phase pipe = .start ∧ CallInv c (d.setPhase pipe .read) exitCode (.afterStart pipe) := by
  cases pipe with
  | stdout =>
    refine ⟨h .stdout, ?_, ?_⟩
    · exact nofun
    · exact h .stderr
  | stderr =>
    refine ⟨h.2, fun pipe => ?_⟩
    cases pipe with
    | stdout => exact h.1
    | stderr => exact nofun

/-- A reader that is not alive: the other one is asked, or the flags are. -/
theorem callInv_dead {code : Int} {pipe : Pipe}
    (h : CallInv c s.drains s.exitCode (.askAlive code pipe)) (halive : s.isAlive pipe = false) :
    CallInv c s.drains s.exitCode (.afterDead code pipe) := by
  cases pipe with
  | stdout => exact ⟨h.1, h.2, dead_of_not_alive (h.1 .stdout) halive⟩
  | stderr =>
    refine ⟨fun pipe => ?_, h.2.1⟩
    cases pipe with
    | stdout => exact h.2.2
    | stderr => exact dead_of_not_alive (h.1 .stderr) halive

/-- What is decoded is what the child has written. -/
theorem callInv_decode {code : Int} (hdrains : SharedBudget.Inv c.maxOutputBytes.toNat c.output d)
    {exitCode : Option Int} (h : CallInv c d exitCode (.decode code)) :
    CallInv c d exitCode (.cleanUp (.ok ⟨c.command, code, decodeReplacing (d.buffer .stdout),
      decodeReplacing (d.buffer .stderr)⟩)) := by
  obtain ⟨hquiet, hcode⟩ := h
  obtain ⟨hbuffer, -⟩ := hdrains.complete hquiet.dead hquiet.overflow hquiet.errors
  refine ⟨hquiet, hcode, ?_⟩
  rw [hbuffer]

theorem CommandInv.callInv_advance (h : CommandInv c s) (fails : Bool) :
    CallInv c (s.advance c fails).drains (s.advance c fails).exitCode (s.advance c fails).call := by
  have hcallInv := h.call
  unfold CommandSystem.advance
  cases hcall : s.call with
  | checkLimit =>
    rw [hcall] at hcallInv
    by_cases hlimit : c.maxOutputBytes < 1
    · simp only [if_pos hlimit]
      trivial
    · simp only [if_neg hlimit]
      exact hcallInv
  | checkFirst =>
    rw [hcall] at hcallInv
    cases hstop : s.stopped c with
    | true => trivial
    | false => exact hcallInv
  | popen =>
    rw [hcall] at hcallInv
    cases fails with
    | true => trivial
    | false => exact hcallInv
  | register =>
    rw [hcall] at hcallInv
    cases hfails : fails && c.cancellable with
    | true => trivial
    | false => exact hcallInv
  | startReader pipe =>
    rw [hcall] at hcallInv
    cases fails with
    | true => trivial
    | false => exact (callInv_start hcallInv).2
  | checkCancelled | checkLast =>
    rw [hcall] at hcallInv
    cases hstop : s.stopped c with
    | true => trivial
    | false => exact hcallInv
  | checkOverflow =>
    rw [hcall] at hcallInv
    cases hover : s.drains.overflow with
    | true => trivial
    | false => exact hcallInv
  | checkErrors =>
    rw [hcall] at hcallInv
    cases herrors : s.drains.errors with
    | cons e es => trivial
    | nil => exact hcallInv
  | poll =>
    rw [hcall] at hcallInv
    cases hexit : s.exitCode with
    | none => exact hcallInv
    | some code => exact ⟨hcallInv, hexit⟩
  | askAlive code pipe =>
    rw [hcall] at hcallInv
    dsimp only
    cases halive : s.isAlive pipe with
    | true =>
      cases pipe with
      | stdout => exact hcallInv.1
      | stderr => exact hcallInv.1
    | false => exact callInv_dead hcallInv halive
  | confirmOverflow code =>
    rw [hcall] at hcallInv
    cases hover : s.drains.overflow with
    | true => trivial
    | false => exact ⟨hcallInv.1, hcallInv.2, hover⟩
  | confirmErrors code =>
    rw [hcall] at hcallInv
    cases herrors : s.drains.errors with
    | cons e es => trivial
    | nil => exact ⟨⟨hcallInv.1, hcallInv.2.2, herrors⟩, hcallInv.2.1⟩
  | checkDeadline =>
    rw [hcall] at hcallInv
    by_cases hlate : s.deadline ≤ s.clock
    · simp only [if_pos hlate]
      trivial
    · simp only [if_neg hlate]
      exact hcallInv
  | decode code =>
    rw [hcall] at hcallInv
    exact callInv_decode h.drains hcallInv
  | cleanUp result =>
    rw [hcall] at hcallInv
    cases fails with
    | true => trivial
    | false =>
      cases result with
      | ok r => exact hcallInv
      | error e => trivial
  | ended result =>
    rw [hcall] at hcallInv
    exact hcallInv

theorem CommandInv.limit_advance (h : CommandInv c s) (hended : ∀ result, s.call ≠ .ended result)
    (fails : Bool) : 1 ≤ c.maxOutputBytes ∨ (s.advance c fails).call = .checkLimit ∨
      (s.advance c fails).call = .ended (.error .limitNotPositive) := by
  rcases h.limit with hlimit | hcall | hcall
  · exact .inl hlimit
  · unfold CommandSystem.advance
    rw [hcall]
    by_cases hlimit : c.maxOutputBytes < 1
    · simp only [if_pos hlimit]
      exact .inr (.inr rfl)
    · exact .inl (not_lt.mp hlimit)
  · exact absurd hcall (hended _)

/-- The call does nothing to the readers but start them. -/
theorem drains_advance (c : CommandCall) (s : CommandSystem) (fails : Bool) :
    (s.advance c fails).drains = s.drains ∨ ∃ pipe, s.call = .startReader pipe ∧
      (s.advance c fails).drains = s.drains.setPhase pipe .read := by
  unfold CommandSystem.advance
  cases hcall : s.call with
  | startReader pipe =>
    cases fails with
    | true => exact .inl rfl
    | false => exact .inr ⟨pipe, rfl, rfl⟩
  | poll | decode code | cleanUp result | ended result => exact .inl rfl
  | _ =>
    dsimp only
    split <;> exact .inl rfl

theorem CommandInv.drains_advance (h : CommandInv c s) (fails : Bool) :
    SharedBudget.Inv c.maxOutputBytes.toNat c.output (s.advance c fails).drains := by
  rcases RcloneSync.drains_advance c s fails with hsame | ⟨pipe, hcall, hstart⟩
  · rw [hsame]
    exact h.drains
  · have hcallInv := h.call
    rw [hcall] at hcallInv
    rw [hstart]
    exact h.drains.start (callInv_start hcallInv).1

/-- **The step.** -/
theorem CommandInv.step {a : CommandAction} (h : CommandInv c s) (ht : commandStep c s a = some t) :
    CommandInv c t := by
  cases a with
  | reader pipe choice =>
    obtain ⟨d, hd, rfl⟩ := Option.map_eq_some_iff.mp ht
    exact ⟨h.drains.step hd, h.limit, (keepsCall_reader s.exitCode hd).callInv h.call⟩
  | exit code =>
    obtain ⟨hnone, ht⟩ := Option.ite_none_right_eq_some.mp ht
    obtain rfl := Option.some.inj ht
    have hcall := h.call
    rw [Option.isNone_iff_eq_none.mp hnone] at hcall
    exact ⟨h.drains, h.limit, (keepsCall_exit s.drains code).callInv hcall⟩
  | setCancelled cancelled =>
    obtain rfl := Option.some.inj ht
    exact ⟨h.drains, h.limit, h.call⟩
  | pass duration =>
    obtain rfl := Option.some.inj ht
    exact ⟨h.drains, h.limit, h.call⟩
  | call fails =>
    change (match s.call with | .ended _ => none | _ => some (s.advance c fails)) = some t at ht
    split at ht
    · cases ht
    · rename_i hended
      obtain rfl := Option.some.inj ht
      exact ⟨h.drains_advance fails, h.limit_advance hended fails, h.callInv_advance fails⟩

end Steps

theorem commandInv_init (c : CommandCall) (cancelled : Bool) (clock : Time) :
    CommandInv c (.init c cancelled clock) :=
  ⟨SharedBudget.Inv.init _ _, .inr (.inl rfl), fun _ => rfl⟩

/-! ### The end of the call -/

/-- The most steps that the call takes yet when its time is over. -/
def CallPhase.rank : CallPhase → Nat
  | .checkLimit => 17
  | .checkFirst => 16
  | .popen => 15
  | .register => 14
  | .startReader .stdout => 13
  | .startReader .stderr => 12
  | .checkCancelled => 11
  | .checkOverflow => 10
  | .checkErrors => 9
  | .poll => 8
  | .askAlive _ .stdout => 7
  | .askAlive _ .stderr => 6
  | .confirmOverflow _ => 5
  | .confirmErrors _ => 4
  | .checkLast _ => 3
  | .decode _ | .checkDeadline => 2
  | .cleanUp _ => 1
  | .ended _ => 0

/-- The deadline is set, and it is over. -/
structure CommandSystem.Late (s : CommandSystem) : Prop where
  set : s.call.rank ≤ 13
  passed : s.deadline ≤ s.clock

def CommandAction.isCall : CommandAction → Bool
  | .call _ => true
  | .reader .. | .exit _ | .setCancelled _ | .pass _ => false

section Late

variable {c : CommandCall} {s t : CommandSystem}

/-- Where a step of the call may lead in time. -/
structure Sooner (s t : CommandSystem) : Prop where
  rank : t.call.rank < s.call.rank
  deadline : t.deadline = s.deadline
  clock : t.clock = s.clock

theorem late_advance (h : s.Late) (hended : ∀ result, s.call ≠ .ended result) (fails : Bool) :
    Sooner s (s.advance c fails) := by
  obtain ⟨hset, hover⟩ := h
  have hsooner : ∀ {p : CallPhase}, p.rank < s.call.rank → Sooner s (s.goOn p) :=
    fun hrank => ⟨hrank, rfl, rfl⟩
  unfold CommandSystem.advance
  revert hset hsooner
  cases hcall : s.call with
  | checkLimit | checkFirst | popen | register => exact fun hset => absurd hset (by decide)
  | startReader pipe =>
    intro _ hsooner
    cases pipe with
    | stdout =>
      cases fails with
      | true => exact hsooner (by decide)
      | false => exact ⟨by rw [hcall]; exact show 12 < 13 by decide, rfl, rfl⟩
    | stderr =>
      cases fails with
      | true => exact hsooner (by decide)
      | false => exact ⟨by rw [hcall]; exact show 11 < 12 by decide, rfl, rfl⟩
  | checkDeadline =>
    intro _ hsooner
    dsimp only
    rw [if_pos hover]
    exact hsooner (by decide)
  | poll =>
    intro _ hsooner
    cases s.exitCode with
    | none => exact hsooner (by decide)
    | some code => exact hsooner (show 7 < 8 by decide)
  | askAlive code pipe =>
    intro _ hsooner
    dsimp only
    cases pipe with
    | stdout =>
      split
      · exact hsooner (show 2 < 7 by decide)
      · exact hsooner (show 6 < 7 by decide)
    | stderr =>
      split
      · exact hsooner (show 2 < 6 by decide)
      · exact hsooner (show 5 < 6 by decide)
  | checkCancelled | checkOverflow | checkErrors =>
    intro _ hsooner
    dsimp only
    split <;> exact hsooner (Nat.le_of_ble_eq_true rfl)
  | confirmOverflow code | confirmErrors code | checkLast code =>
    intro _ hsooner
    dsimp only
    split <;> exact hsooner (Nat.le_of_ble_eq_true rfl)
  | decode code => exact fun _ hsooner => hsooner (show 1 < 2 by decide)
  | cleanUp result => exact fun _ hsooner => hsooner (show 0 < 1 by decide)
  | ended result => exact absurd hcall (hended result)

theorem late_step {a : CommandAction} (h : s.Late) (ht : commandStep c s a = some t) :
    t.Late ∧ t.call.rank + (if a.isCall then 1 else 0) ≤ s.call.rank := by
  cases a with
  | reader pipe choice =>
    obtain ⟨d, -, rfl⟩ := Option.map_eq_some_iff.mp ht
    exact ⟨⟨h.set, h.passed⟩, le_rfl⟩
  | exit code =>
    obtain ⟨-, ht⟩ := Option.ite_none_right_eq_some.mp ht
    obtain rfl := Option.some.inj ht
    exact ⟨⟨h.set, h.passed⟩, le_rfl⟩
  | setCancelled cancelled =>
    obtain rfl := Option.some.inj ht
    exact ⟨⟨h.set, h.passed⟩, le_rfl⟩
  | pass duration =>
    obtain rfl := Option.some.inj ht
    refine ⟨⟨h.set, ?_⟩, le_rfl⟩
    exact h.passed.trans (Int.le_add_of_nonneg_right (Int.natCast_nonneg duration))
  | call fails =>
    change (match s.call with | .ended _ => none | _ => some (s.advance c fails)) = some t at ht
    split at ht
    · cases ht
    · rename_i hended
      obtain rfl := Option.some.inj ht
      have hsooner : Sooner s (s.advance c fails) := late_advance h hended fails
      refine ⟨⟨(Nat.le_of_lt hsooner.rank).trans h.set, ?_⟩, hsooner.rank⟩
      rw [hsooner.deadline, hsooner.clock]
      exact h.passed

theorem late_run {as : List CommandAction} (h : s.Late)
    (hrun : Run (Steps (commandStep c)) s as t) :
    t.call.rank + as.countP CommandAction.isCall ≤ s.call.rank := by
  induction hrun with
  | nil s => exact le_rfl
  | cons hstep _ ih =>
    obtain ⟨hlate, hrank⟩ := late_step h hstep
    have hrest := ih hlate
    rw [List.countP_cons]
    omega

theorem ended_of_rank {p : CallPhase} (h : p.rank = 0) : ∃ result, p = .ended result := by
  cases p with
  | ended result => exact ⟨result, rfl⟩
  | startReader pipe | askAlive code pipe => cases pipe <;> cases h
  | _ => cases h

end Late

/-- The call is past its last look at the flag for cancelling, and has not raised. -/
def CallPhase.pastLast : CallPhase → Bool
  | .decode _ | .cleanUp (.ok _) | .ended (.ok _) => true
  | _ => false

section Cancelled

variable {c : CommandCall} {s t : CommandSystem}

/-- The call does not set the flag. -/
theorem flag_advance (c : CommandCall) (s : CommandSystem) (fails : Bool) :
    (s.advance c fails).cancelled = s.cancelled := by
  unfold CommandSystem.advance
  cases s.call with
  | poll | decode code | cleanUp result | ended result => rfl
  | _ =>
    dsimp only
    split <;> rfl

theorem cancelled_advance (hstopped : s.stopped c = true) (h : s.call.pastLast = false)
    (fails : Bool) : (s.advance c fails).call.pastLast = false := by
  unfold CommandSystem.advance
  revert h
  cases hcall : s.call with
  | startReader pipe =>
    intro _
    cases fails with
    | true => rfl
    | false => cases pipe <;> rfl
  | askAlive code pipe =>
    intro _
    dsimp only
    split
    · rfl
    · cases pipe <;> rfl
  | poll =>
    intro _
    cases s.exitCode <;> rfl
  | checkLast code =>
    intro _
    dsimp only
    rw [if_pos hstopped]
    rfl
  | decode code => exact fun h => Bool.noConfusion h
  | cleanUp result =>
    cases result with
    | ok r => exact fun h => Bool.noConfusion h
    | error e => cases fails <;> exact fun _ => rfl
  | ended result => exact id
  | _ =>
    intro _
    dsimp only
    split <;> rfl

theorem cancelled_step {a : CommandAction} (hstopped : s.stopped c = true)
    (h : s.call.pastLast = false) (hkeeps : a ≠ .setCancelled false)
    (ht : commandStep c s a = some t) : t.stopped c = true ∧ t.call.pastLast = false := by
  cases a with
  | reader pipe choice =>
    obtain ⟨d, -, rfl⟩ := Option.map_eq_some_iff.mp ht
    exact ⟨hstopped, h⟩
  | exit code =>
    obtain ⟨-, ht⟩ := Option.ite_none_right_eq_some.mp ht
    obtain rfl := Option.some.inj ht
    exact ⟨hstopped, h⟩
  | setCancelled cancelled =>
    obtain rfl := Option.some.inj ht
    cases cancelled with
    | false => exact absurd rfl hkeeps
    | true =>
      have hcancellable : c.cancellable = true := (Bool.and_eq_true _ _ ▸ hstopped).1
      exact ⟨by simp [CommandSystem.stopped, hcancellable], h⟩
  | pass duration =>
    obtain rfl := Option.some.inj ht
    exact ⟨hstopped, h⟩
  | call fails =>
    change (match s.call with | .ended _ => none | _ => some (s.advance c fails)) = some t at ht
    split at ht
    · cases ht
    · obtain rfl := Option.some.inj ht
      refine ⟨?_, cancelled_advance hstopped h fails⟩
      unfold CommandSystem.stopped
      rw [flag_advance]
      exact hstopped

theorem cancelled_run {as : List CommandAction} (hstopped : s.stopped c = true)
    (h : s.call.pastLast = false) (hkeeps : .setCancelled false ∉ as)
    (hrun : Run (Steps (commandStep c)) s as t) : t.call.pastLast = false := by
  induction hrun with
  | nil s => exact h
  | @cons s u t a as hstep _ ih =>
    obtain ⟨ha, has⟩ := not_or.mp fun hmem => hkeeps (List.mem_cons.mpr hmem)
    obtain ⟨hstopped, h⟩ := cancelled_step hstopped h (Ne.symm ha) hstep
    exact ih hstopped h has

end Cancelled

/-- **The output is complete or refused.**  A call that has returned has read both streams to
their end, within the limit, and returns exactly what they hold; no reader is alive, and none has
flagged anything.  A call that is cancelled before its last look at the flag does not return.  A
call whose time is over ends, with a result or an error, within thirteen steps of its own, each of
which it can take. -/
theorem run_command_complete (c : CommandCall) {cancelled : Bool} {clock : Time}
    {as : List CommandAction} {s : CommandSystem}
    (hrun : Run (Steps (commandStep c)) (.init c cancelled clock) as s) :
    (∀ r, s.call = .ended (.ok r) →
      (∀ pipe, s.drains.phase pipe = .dead ∧ s.drains.buffer pipe = c.output pipe) ∧
      ((c.output .stdout).length + (c.output .stderr).length : Int) ≤ c.maxOutputBytes ∧
      s.drains.overflow = false ∧ s.drains.errors = [] ∧ s.exitCode = some r.returncode ∧
      r = ⟨c.command, r.returncode, decodeReplacing (c.output .stdout),
        decodeReplacing (c.output .stderr)⟩) ∧
    (s.stopped c = true → s.call.pastLast = false → ∀ bs t, .setCancelled false ∉ bs →
      Run (Steps (commandStep c)) s bs t → ∀ r, t.call ≠ .ended (.ok r)) ∧
    (s.Late → ∀ bs t, Run (Steps (commandStep c)) s bs t →
      13 ≤ bs.countP CommandAction.isCall → ∃ result, t.call = .ended result) ∧
    ((∀ result, s.call ≠ .ended result) → ∀ fails, ∃ t, commandStep c s (.call fails) = some t) := by
  have hinv : CommandInv c s := hrun.preserves (CommandInv c) (fun _ _ _ h hstep => h.step hstep)
    (commandInv_init c cancelled clock)
  refine ⟨fun r hended => ?_, fun hstopped hpast bs t hkeeps hbs r hended => ?_,
    fun hlate bs t hbs hcount => ?_, fun hended fails => ⟨s.advance c fails, ?_⟩⟩
  · have hcall := hinv.call
    rw [hended] at hcall
    obtain ⟨hquiet, hcode, hresult⟩ := hcall
    obtain ⟨hbuffer, hwithin⟩ :=
      hinv.drains.complete hquiet.dead hquiet.overflow hquiet.errors
    refine ⟨fun pipe => ⟨hquiet.dead pipe, congrFun hbuffer pipe⟩, ?_, hquiet.overflow,
      hquiet.errors, hcode, hresult⟩
    have hlimit : 1 ≤ c.maxOutputBytes := by
      rcases hinv.limit with hlimit | hcall | hcall
      · exact hlimit
      · cases hended.symm.trans hcall
      · cases hended.symm.trans hcall
    have hwithin : (c.output .stdout).length + (c.output .stderr).length ≤
        c.maxOutputBytes.toNat := hwithin
    omega
  · have hpast := cancelled_run hstopped hpast hkeeps hbs
    rw [hended] at hpast
    cases hpast
  · have hrank := late_run hlate hbs
    have hset := hlate.set
    exact ended_of_rank (by omega)
  · show (match s.call with | .ended _ => none | _ => some (s.advance c fails)) = _
    split
    · rename_i result hcall
      exact absurd hcall (hended result)
    · rfl

/-- A command that writes one letter. -/
def letterCall : CommandCall where
  command := ["rclone", "version"]
  timeout := 1000000
  maxOutputBytes := 1
  cancellable := true
  output
    | .stdout => [104]
    | .stderr => []

def letterRun : List CommandAction :=
  List.replicate 6 (.call false) ++
  [.reader .stdout (.take 1), .reader .stdout .go, .reader .stderr .go, .reader .stdout .go,
    .reader .stdout .go, .reader .stderr .go, .reader .stdout .go, .reader .stdout .go,
    .reader .stdout .go, .exit 0] ++
  List.replicate 11 (.call false)

theorem run_command_complete_letter : ∃ s,
    runAll (commandStep letterCall) (.init letterCall false 0) letterRun = some s ∧
    s.call = .ended (.ok ⟨["rclone", "version"], 0, "h", ""⟩) ∧
    s.drains.buffer .stdout = [104] := by
  obtain ⟨s, hs, hended⟩ : ∃ s,
      runAll (commandStep letterCall) (.init letterCall false 0) letterRun = some s ∧
      s.call = .ended (.ok ⟨["rclone", "version"], 0, "h", ""⟩) := ⟨_, rfl, rfl⟩
  obtain ⟨hread, -⟩ := (run_command_complete letterCall (run_of_runAll hs)).1 _ hended
  exact ⟨s, hs, hended, (hread .stdout).2⟩

end RcloneSync
