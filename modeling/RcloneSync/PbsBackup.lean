/-
RcloneSync/PbsBackup.lean

A run over PBS targets (`run_pbs_backup` of `app/jobs/pbs_backup.py`), what the scheduler adds to
its summary, and the job status it ends with (`_job_status` of `app/jobs/scheduler_cli.py`).

A target's turn has two phases.  The source check and the backup command decide the entry's ok
flag; the prune command behind a backup that exited 0 can add warnings, errors and a cancel mark,
but leaves the flag alone (`turnEntry_ok`).  The flags of the summary are folded from the
entries (`runSummary_flags`).
-/
import RcloneSync.DueCleanup
import RcloneSync.FlatRecords

namespace RcloneSync

open Py

/-! ### A target's turn -/

/-- A target of `pbs.targets`. -/
structure PbsTarget where
  name : String
  /-- `pbs_history_key(settings, target)` -/
  historyKey : String
  /-- its schedule, with what the cron library says about it -/
  schedule : CronJob

/-- `PAIR_PREFIX + name`. -/
def PbsTarget.runName (t : PbsTarget) : String := "pbs:" ++ t.name

/-- What a turn meets.  An exception is the text of it. -/
structure TargetCourse where
  /-- the scope is cancelled before the turn -/
  cancelled : Bool
  logFile : String
  startedAt : String
  /-- the seconds it took, to one digit -/
  duration : PyFloat
  /-- `_check_target_sources` -/
  sources : Except String (Bool × String)
  /-- the guards of the sources, the command and the run id -/
  prepared : Except String Unit
  /-- `_run_rclone_command` for the backup command -/
  backup : Except String Int
  /-- `build_prune_command` -/
  pruneCommand : Except String (Option (List String))
  /-- the scope is cancelled when the backup has ended -/
  cancelledBackup : Bool
  /-- `_run_rclone_command` for the prune command -/
  prune : Except String Int
  /-- the scope is cancelled when the prune command has ended -/
  cancelledPrune : Bool
  /-- the scope is cancelled when an exception is handled -/
  cancelledFailed : Bool

/-- `_target_result`. -/
def targetResult (t : PbsTarget) (extra : Dict) : Dict :=
  ("name", .str t.runName) :: ("kind", .str "pbs") :: extra

/-- `_mark_prune_failure`. -/
def markPruneFailure (entry : Dict) (error : String) (cancelled : Bool) : Dict :=
  let entry := Dict.merge entry
    [("prune_ok", .bool false), ("prune_error", .str error), ("maintenance_failed", .bool true),
     ("degraded", .bool true), ("warning", .str error), ("error", .str error)]
  if cancelled then Dict.set entry "cancelled" (.bool true) else entry

/-- The entry of a target whose turn never came. -/
def skippedEntry (t : PbsTarget) : Dict :=
  targetResult t
    [("ok", .bool false), ("backup_ok", .bool false), ("prune_ok", .none), ("prune_error", .none),
     ("cancelled", .bool true), ("skipped", .bool true)]

/-- The entry at the beginning of a turn. -/
def startedEntry (trigger : String) (t : PbsTarget) (c : TargetCourse) : Dict :=
  targetResult t
    [("ok", .bool false), ("backup_ok", .bool false), ("prune_ok", .none), ("prune_error", .none),
     ("history_key", .str t.historyKey), ("log_file", .str c.logFile),
     ("started_at", .str c.startedAt), ("trigger", .str trigger)]

/-- The handler around the turn. -/
def failedEntry (entry : Dict) (error : String) (cancelled : Bool) : Dict :=
  let entry := Dict.merge entry
    [("ok", .bool false), ("backup_ok", .bool false), ("error", .str error)]
  if cancelled then Dict.merge entry [("cancelled", .bool true), ("error", .str "Abgebrochen")]
  else entry

/-- The phase behind a backup that exited 0. -/
def prunedEntry (entry : Dict) (c : TargetCourse) : Dict :=
  match c.pruneCommand with
  | .error e => markPruneFailure entry e false
  | .ok command =>
    if c.cancelledBackup then
      Dict.merge entry [("cancelled", .bool true), ("warning", .str "Aufräumen abgebrochen")]
    else
      match command with
      | none => entry
      | some _ =>
        match c.prune with
        | .error e => markPruneFailure entry e false
        | .ok rc =>
          let entry := Dict.set entry "prune_returncode" (.int rc)
          if rc = 0 then Dict.set entry "prune_ok" (.bool true)
          else if rc = 130 ∧ c.cancelledPrune = true then
            markPruneFailure entry "PBS-Aufräumen wurde abgebrochen" true
          else markPruneFailure entry ("Prune Exit-Code " ++ toString rc) false

/-- The phase of the backup command. -/
def backedEntry (entry : Dict) (c : TargetCourse) : Dict :=
  match c.backup with
  | .error e => failedEntry entry e c.cancelledFailed
  | .ok rc =>
    let entry := Dict.set entry "returncode" (.int rc)
    if rc = 130 then
      Dict.merge entry [("ok", .bool false), ("backup_ok", .bool false), ("cancelled", .bool true)]
    else if rc ≠ 0 then
      Dict.merge entry
        [("ok", .bool false), ("backup_ok", .bool false),
         ("error", .str ("proxmox-backup-client Exit-Code " ++ toString rc))]
    else prunedEntry (Dict.merge entry [("ok", .bool true), ("backup_ok", .bool true)]) c

/-- The `try` of a turn. -/
def checkedEntry (entry : Dict) (c : TargetCourse) : Dict :=
  match c.sources with
  | .error e => failedEntry entry e c.cancelledFailed
  | .ok (false, message) => failedEntry entry message c.cancelledFailed
  | .ok (true, _) =>
    match c.prepared with
    | .error e => failedEntry entry e c.cancelledFailed
    | .ok _ => backedEntry entry c

/-- The entry that a turn leaves in `summary["pairs"]`. -/
def turnEntry (trigger : String) (t : PbsTarget) (c : TargetCourse) : Dict :=
  if c.cancelled then skippedEntry t
  else Dict.set (checkedEntry (startedEntry trigger t c) c) "duration_sec" (.float c.duration)

/-- The backup command was run and exited 0. -/
def TargetCourse.BackedUp (c : TargetCourse) : Prop :=
  c.cancelled = false ∧ (∃ message, c.sources = .ok (true, message)) ∧ c.prepared = .ok () ∧
    c.backup = .ok 0

/-! ### The summary of a run -/

/-- The error that a summary names for an entry with a failed prune. -/
def pruneError (entry : Dict) : String :=
  pyStr (pyOr (Dict.get entry "prune_error") (.str "PBS-Retention fehlgeschlagen"))

/-- `prune_failures(summary)`, of which the summary uses the errors. -/
def pruneFailures (entries : List Dict) : List String :=
  (entries.filter fun e => Dict.get e "prune_ok" = .bool false).map pruneError

/-- `entry.get("backup_ok") is True`. -/
def hasBackup (entry : Dict) : Bool := Dict.get entry "backup_ok" = .bool true

/-- `bool(backup_results) and all(backup_results)`. -/
def allBackups (entries : List Dict) : Bool := !entries.isEmpty && entries.all hasBackup

/-- `summary["prune_ok"]`. -/
def prunesOk (entries : List Dict) : Value :=
  let evaluated := (entries.map fun e => Dict.get e "prune_ok").filter (· ≠ .none)
  if evaluated.isEmpty then .none else .bool (evaluated.all (· = .bool true))

/-- `summary["outcome"]`. -/
def runOutcome (entries : List Dict) : String :=
  if !(pruneFailures entries).isEmpty && allBackups entries then "maintenance_failed"
  else if allBackups entries then "ok"
  else if entries.any hasBackup then "partial"
  else "backup_failed"

/-- A run, with what its summary takes from the clock. -/
structure PbsRun where
  trigger : String
  turns : List (PbsTarget × TargetCourse)
  startedAt : String
  endedAt : String

def PbsRun.entries (run : PbsRun) : List Dict :=
  run.turns.map fun t => turnEntry run.trigger t.1 t.2

/-- Why a run ends before its first turn. -/
inductive PbsRefusal
  | disabled
  | noRepository
  | noClient
  | noTargets

def PbsRefusal.error : PbsRefusal → String
  | .disabled => "PBS-Integration ist deaktiviert"
  | .noRepository => "pbs.repository ist nicht konfiguriert"
  | .noClient => "proxmox-backup-client ist nicht installiert"
  | .noTargets => "Keine passenden PBS-Targets konfiguriert"

/-- The summary of a run that ends before its first turn. -/
def PbsRun.refusedSummary (run : PbsRun) (refusal : PbsRefusal) : Dict :=
  [("ok", .bool false), ("backup_ok", .bool false), ("prune_ok", .none), ("prune_error", .none),
   ("maintenance_failed", .bool false), ("degraded", .bool false), ("kind", .str "pbs"),
   ("trigger", .str run.trigger), ("pairs", .list []), ("started_at", .str run.startedAt),
   ("error", .str refusal.error)]

/-- The summary of a run with turns. -/
def PbsRun.summary (run : PbsRun) : Dict :=
  let entries := run.entries
  let failures := pruneFailures entries
  [("ok", .bool (allBackups entries)), ("backup_ok", .bool (allBackups entries)),
   ("prune_ok", prunesOk entries),
   ("prune_error", if failures.isEmpty then .none else .str (join "; " failures)),
   ("maintenance_failed", .bool !failures.isEmpty), ("degraded", .bool !failures.isEmpty),
   ("kind", .str "pbs"), ("trigger", .str run.trigger),
   ("pairs", .list (entries.map Value.dict)), ("started_at", .str run.startedAt),
   ("partial", .bool (!failures.isEmpty || (entries.any hasBackup && !allBackups entries))),
   ("outcome", .str (runOutcome entries)),
   ("cancelled", .bool (entries.any fun e => truthy (Dict.get e "cancelled"))),
   ("ended_at", .str run.endedAt)]

/-- `run_pbs_backup`, from the point on at which its targets are known. -/
def runPbsBackup (run : PbsRun) (refusal : Option PbsRefusal) : Dict :=
  match refusal with
  | some r => run.refusedSummary r
  | none => if run.turns.isEmpty then run.refusedSummary .noTargets else run.summary

/-- `_with_metadata`: the trigger is there already. -/
def withMetadata (summary historyKeys slots : Dict) : Dict :=
  Dict.set (Dict.set summary "history_keys" (.dict historyKeys)) "scheduler_slots" (.dict slots)

/-- `_job_status`, for a summary that is not one of a restore test. -/
def jobStatus (summary : Dict) : JobStatus :=
  let cancelled := decide (Dict.get summary "cancelled" = .bool true) ||
    (innerList summary "pairs").any fun v =>
      match asDict v with
      | some pair => decide (Dict.get pair "cancelled" = .bool true)
      | none => false
  if cancelled then .cancelled
  else if truthy (Dict.get summary "ok") then .ok
  else .error

/-! ### What a turn leaves of its entry -/

/-- The members that the phase behind the backup may write. -/
def pruneMembers : List String :=
  ["prune_ok", "prune_error", "maintenance_failed", "degraded", "warning", "error", "cancelled",
   "prune_returncode"]

/-- The members that a turn may write, apart from its time. -/
def turnMembers : List String := ["ok", "backup_ok", "returncode"] ++ pruneMembers

/-- The entry tells of a backup, or of none. -/
def Verdict (entry : Dict) (b : Bool) : Prop :=
  Dict.get entry "ok" = .bool b ∧ Dict.get entry "backup_ok" = .bool b

section Turn

variable {entry : Dict} {key : String}

theorem get_set_of_mem {members : List String} (hkey : key ∉ members) {k : String}
    (hk : k ∈ members) (v : Value) : Dict.get (Dict.set entry k v) key = Dict.get entry key :=
  Dict.get_set_ne _ _ fun heq => hkey (heq ▸ hk)

theorem get_merge_of_subset {members : List String} (hkey : key ∉ members) {upd : Dict}
    (hupd : upd.map Prod.fst ⊆ members) :
    Dict.get (Dict.merge entry upd) key = Dict.get entry key :=
  Dict.get_merge_of_notMem _ fun hmem => hkey (hupd hmem)

theorem get_markPruneFailure (hkey : key ∉ pruneMembers) (error : String) (cancelled : Bool) :
    Dict.get (markPruneFailure entry error cancelled) key = Dict.get entry key := by
  unfold markPruneFailure
  dsimp only
  split_ifs
  · rw [get_set_of_mem hkey (by decide)]
    exact get_merge_of_subset hkey (by simp [pruneMembers])
  · exact get_merge_of_subset hkey (by simp [pruneMembers])

/-- **The phase behind the backup leaves the rest of the entry alone.** -/
theorem get_prunedEntry (hkey : key ∉ pruneMembers) (c : TargetCourse) :
    Dict.get (prunedEntry entry c) key = Dict.get entry key := by
  unfold prunedEntry
  split
  · exact get_markPruneFailure hkey _ _
  · split_ifs
    · exact get_merge_of_subset hkey (by simp [pruneMembers])
    · split
      · rfl
      · split
        · exact get_markPruneFailure hkey _ _
        · rename_i rc _
          have hcode : Dict.get (Dict.set entry "prune_returncode" (.int rc)) key
              = Dict.get entry key := get_set_of_mem hkey (by decide) _
          dsimp only
          split_ifs
          · rw [get_set_of_mem hkey (by decide), hcode]
          · rw [get_markPruneFailure hkey, hcode]
          · rw [get_markPruneFailure hkey, hcode]

theorem get_failedEntry (hkey : key ∉ turnMembers) (error : String) (cancelled : Bool) :
    Dict.get (failedEntry entry error cancelled) key = Dict.get entry key := by
  unfold failedEntry
  dsimp only
  split_ifs
  · rw [get_merge_of_subset hkey (by simp [turnMembers, pruneMembers])]
    exact get_merge_of_subset hkey (by simp [turnMembers, pruneMembers])
  · exact get_merge_of_subset hkey (by simp [turnMembers, pruneMembers])

theorem get_backedEntry (hkey : key ∉ turnMembers) (c : TargetCourse) :
    Dict.get (backedEntry entry c) key = Dict.get entry key := by
  have hprune : key ∉ pruneMembers := fun hmem => hkey (List.mem_append_right _ hmem)
  unfold backedEntry
  split
  · exact get_failedEntry hkey _ _
  · rename_i rc _
    have hcode : Dict.get (Dict.set entry "returncode" (.int rc)) key = Dict.get entry key :=
      get_set_of_mem hkey (by decide) _
    dsimp only
    split_ifs
    · rw [get_merge_of_subset hkey (by simp [turnMembers, pruneMembers]), hcode]
    · rw [get_merge_of_subset hkey (by simp [turnMembers, pruneMembers]), hcode]
    · rw [get_prunedEntry hprune, get_merge_of_subset hkey (by simp [turnMembers, pruneMembers]),
        hcode]

theorem get_checkedEntry (hkey : key ∉ turnMembers) (c : TargetCourse) :
    Dict.get (checkedEntry entry c) key = Dict.get entry key := by
  unfold checkedEntry
  split
  · exact get_failedEntry hkey _ _
  · exact get_failedEntry hkey _ _
  · split
    · exact get_failedEntry hkey _ _
    · exact get_backedEntry hkey c

theorem verdict_failedEntry (error : String) (cancelled : Bool) :
    Verdict (failedEntry entry error cancelled) false := by
  unfold failedEntry
  dsimp only
  split_ifs <;> constructor <;> simp [Dict.merge, Dict.get_set]

theorem verdict_prunedEntry {b : Bool} (h : Verdict entry b) (c : TargetCourse) :
    Verdict (prunedEntry entry c) b :=
  ⟨(get_prunedEntry (by decide) c).trans h.1, (get_prunedEntry (by decide) c).trans h.2⟩

/-- The exit code of the backup command is the verdict. -/
theorem verdict_backedEntry (c : TargetCourse) :
    Verdict (backedEntry entry c) (decide (c.backup = .ok 0)) := by
  unfold backedEntry
  split
  · rename_i e hbackup
    rw [hbackup, decide_eq_false (by simp)]
    exact verdict_failedEntry _ _
  · rename_i rc hbackup
    dsimp only
    split_ifs with hcancel hfailed
    · rw [hbackup, decide_eq_false (by simp [hcancel])]
      constructor <;> simp [Dict.merge, Dict.get_set]
    · rw [hbackup, decide_eq_false (by simpa using hfailed)]
      constructor <;> simp [Dict.merge, Dict.get_set]
    · obtain rfl : rc = 0 := not_not.mp hfailed
      rw [hbackup, decide_eq_true rfl]
      refine verdict_prunedEntry ⟨?_, ?_⟩ c <;> simp [Dict.merge, Dict.get_set]

end Turn

/-- The check, the guards and the exit code decide the turn. -/
theorem verdict_checkedEntry {entry : Dict} (c : TargetCourse) :
    ∃ b, Verdict (checkedEntry entry c) b ∧
      (b = true ↔ (∃ message, c.sources = .ok (true, message)) ∧ c.prepared = .ok () ∧
        c.backup = .ok 0) := by
  unfold checkedEntry
  split
  · rename_i e hsources
    refine ⟨false, verdict_failedEntry _ _, ?_⟩
    simp [hsources]
  · rename_i message hsources
    refine ⟨false, verdict_failedEntry _ _, ?_⟩
    simp [hsources]
  · rename_i message hsources
    split
    · rename_i e hprepared
      refine ⟨false, verdict_failedEntry _ _, ?_⟩
      simp [hprepared]
    · rename_i hprepared
      refine ⟨_, verdict_backedEntry c, ?_⟩
      simp [hsources, hprepared]

/-- **An entry is ok exactly if the backup command ran and exited 0.** -/
theorem turnEntry_ok (trigger : String) (t : PbsTarget) (c : TargetCourse) :
    ∃ b, Verdict (turnEntry trigger t c) b ∧ (b = true ↔ c.BackedUp) := by
  unfold turnEntry
  split_ifs with hcancelled
  · refine ⟨false, ⟨rfl, rfl⟩, ?_⟩
    simp [TargetCourse.BackedUp, hcancelled]
  · obtain ⟨b, hverdict, hb⟩ := @verdict_checkedEntry (startedEntry trigger t c) c
    refine ⟨b, ⟨?_, ?_⟩, ?_⟩
    · rw [Dict.get_set_ne _ _ (by decide), hverdict.1]
    · rw [Dict.get_set_ne _ _ (by decide), hverdict.2]
    · have hrun : c.cancelled = false := by simpa using hcancelled
      exact hb.trans (and_iff_right hrun).symm

theorem get_turnEntry {trigger : String} {t : PbsTarget} {c : TargetCourse} {key : String}
    (hkey : key ∉ "duration_sec" :: turnMembers) (hcancelled : c.cancelled = false) :
    Dict.get (turnEntry trigger t c) key = Dict.get (startedEntry trigger t c) key := by
  obtain ⟨hduration, hturn⟩ := not_or.mp (fun h => hkey (List.mem_cons.mpr h))
  unfold turnEntry
  rw [if_neg (by simp [hcancelled]), Dict.get_set_ne _ _ hduration, get_checkedEntry hturn]

/-- What an entry says about its target and its run, apart from the verdict. -/
theorem turnEntry_frame (trigger : String) (t : PbsTarget) (c : TargetCourse) :
    Dict.get (turnEntry trigger t c) "name" = .str t.runName ∧
      Dict.get (turnEntry trigger t c) "dry_run" = .none ∧
      Dict.get (turnEntry trigger t c) "scheduled_slot" = .none ∧
      (Dict.get (turnEntry trigger t c) "history_key" =
        if c.cancelled then .none else .str t.historyKey) ∧
      (Dict.get (turnEntry trigger t c) "trigger" =
        if c.cancelled then .none else .str trigger) := by
  by_cases hcancelled : c.cancelled = true
  · have hentry : turnEntry trigger t c = skippedEntry t := if_pos hcancelled
    rw [hentry, if_pos hcancelled, if_pos hcancelled]
    exact ⟨rfl, rfl, rfl, rfl, rfl⟩
  · have hrun : c.cancelled = false := by simpa using hcancelled
    rw [if_neg hcancelled, if_neg hcancelled]
    refine ⟨?_, ?_, ?_, ?_, ?_⟩ <;> rw [get_turnEntry (by decide) hrun] <;> rfl

/-! ### Entries are short -/

/-- The members that an entry may have. -/
def entryMembers : List String :=
  ["name", "kind", "history_key", "log_file", "started_at", "trigger", "skipped",
   "duration_sec"] ++ turnMembers

/-- An entry on the way: its members are known, and short. -/
structure EntryOk (d : Dict) : Prop where
  nodup : (d.map Prod.fst).Nodup
  members : ∀ e ∈ d, e.1 ∈ entryMembers ∧ e.2.wellFormed = true ∧ ShownShort e.2

/-- What may be written into an entry. -/
def EntryValue (v : Value) : Prop := v.wellFormed = true ∧ ShownShort v

theorem entryValue_str (s : String) : EntryValue (.str s) := ⟨rfl, shownShort_str s⟩

theorem entryValue_bool (b : Bool) : EntryValue (.bool b) := ⟨rfl, shownShort_bool b⟩

theorem entryValue_none : EntryValue .none := ⟨rfl, shownShort_none⟩

theorem EntryOk.set {d : Dict} (h : EntryOk d) {key : String} (hkey : key ∈ entryMembers)
    {v : Value} (hv : EntryValue v) : EntryOk (Dict.set d key v) where
  nodup := nodup_set h.nodup key v
  members := by
    intro e he
    rcases Dict.mem_of_mem_set he with rfl | he
    · exact ⟨hkey, hv⟩
    · exact h.members e he

theorem EntryOk.merge {d : Dict} (h : EntryOk d) {upd : Dict}
    (hupd : ∀ e ∈ upd, e.1 ∈ entryMembers ∧ EntryValue e.2) : EntryOk (Dict.merge d upd) := by
  induction upd generalizing d with
  | nil => exact h
  | cons e upd ih =>
    obtain ⟨he, hupd⟩ := List.forall_mem_cons.mp hupd
    exact ih (h.set he.1 he.2) hupd

theorem EntryOk.markPruneFailure {d : Dict} (h : EntryOk d) (error : String) (cancelled : Bool) :
    EntryOk (markPruneFailure d error cancelled) := by
  have hmerge : EntryOk (Dict.merge d
      [("prune_ok", .bool false), ("prune_error", .str error), ("maintenance_failed", .bool true),
       ("degraded", .bool true), ("warning", .str error), ("error", .str error)]) := by
    refine h.merge ?_
    simp only [List.forall_mem_cons]
    exact ⟨⟨by decide, entryValue_bool _⟩, ⟨by decide, entryValue_str _⟩,
      ⟨by decide, entryValue_bool _⟩, ⟨by decide, entryValue_bool _⟩,
      ⟨by decide, entryValue_str _⟩, ⟨by decide, entryValue_str _⟩, nofun⟩
  unfold RcloneSync.markPruneFailure
  dsimp only
  split_ifs
  · exact hmerge.set (by decide) (entryValue_bool _)
  · exact hmerge

/-- The exit codes and the time of a turn have short texts, as those of a process do. -/
structure TargetCourse.Short (c : TargetCourse) : Prop where
  backup : ∀ rc, c.backup = .ok rc → encodedSize (.int rc) ≤ 392
  prune : ∀ rc, c.prune = .ok rc → encodedSize (.int rc) ≤ 392
  duration : c.duration.canonical = true ∧ encodedSize (.float c.duration) ≤ 392

theorem entryValue_int {n : Int} (h : encodedSize (.int n) ≤ 392) : EntryValue (.int n) :=
  ⟨rfl, shownShort_of_size rfl h⟩

theorem EntryOk.prunedEntry {d : Dict} (h : EntryOk d) {c : TargetCourse} (hc : c.Short) :
    EntryOk (prunedEntry d c) := by
  unfold RcloneSync.prunedEntry
  split
  · exact h.markPruneFailure _ _
  · split_ifs
    · refine h.merge ?_
      simp only [List.forall_mem_cons]
      exact ⟨⟨by decide, entryValue_bool _⟩, ⟨by decide, entryValue_str _⟩, nofun⟩
    · split
      · exact h
      · split
        · exact h.markPruneFailure _ _
        · rename_i rc hprune
          have hcode : EntryOk (Dict.set d "prune_returncode" (.int rc)) :=
            h.set (by decide) (entryValue_int (hc.prune rc hprune))
          dsimp only
          split_ifs
          · exact hcode.set (by decide) (entryValue_bool _)
          · exact hcode.markPruneFailure _ _
          · exact hcode.markPruneFailure _ _

theorem EntryOk.failedEntry {d : Dict} (h : EntryOk d) (error : String) (cancelled : Bool) :
    EntryOk (failedEntry d error cancelled) := by
  have hmerge : EntryOk (Dict.merge d
      [("ok", .bool false), ("backup_ok", .bool false), ("error", .str error)]) := by
    refine h.merge ?_
    simp only [List.forall_mem_cons]
    exact ⟨⟨by decide, entryValue_bool _⟩, ⟨by decide, entryValue_bool _⟩,
      ⟨by decide, entryValue_str _⟩, nofun⟩
  unfold RcloneSync.failedEntry
  dsimp only
  split_ifs
  · refine hmerge.merge ?_
    simp only [List.forall_mem_cons]
    exact ⟨⟨by decide, entryValue_bool _⟩, ⟨by decide, entryValue_str _⟩, nofun⟩
  · exact hmerge

theorem EntryOk.backedEntry {d : Dict} (h : EntryOk d) {c : TargetCourse} (hc : c.Short) :
    EntryOk (backedEntry d c) := by
  unfold RcloneSync.backedEntry
  split
  · exact h.failedEntry _ _
  · rename_i rc hbackup
    have hcode : EntryOk (Dict.set d "returncode" (.int rc)) :=
      h.set (by decide) (entryValue_int (hc.backup rc hbackup))
    dsimp only
    split_ifs
    · refine hcode.merge ?_
      simp only [List.forall_mem_cons]
      exact ⟨⟨by decide, entryValue_bool _⟩, ⟨by decide, entryValue_bool _⟩,
        ⟨by decide, entryValue_bool _⟩, nofun⟩
    · refine hcode.merge ?_
      simp only [List.forall_mem_cons]
      exact ⟨⟨by decide, entryValue_bool _⟩, ⟨by decide, entryValue_bool _⟩,
        ⟨by decide, entryValue_str _⟩, nofun⟩
    · refine (hcode.merge ?_).prunedEntry hc
      simp only [List.forall_mem_cons]
      exact ⟨⟨by decide, entryValue_bool _⟩, ⟨by decide, entryValue_bool _⟩, nofun⟩

theorem EntryOk.checkedEntry {d : Dict} (h : EntryOk d) {c : TargetCourse} (hc : c.Short) :
    EntryOk (checkedEntry d c) := by
  unfold RcloneSync.checkedEntry
  split
  · exact h.failedEntry _ _
  · exact h.failedEntry _ _
  · split
    · exact h.failedEntry _ _
    · exact h.backedEntry hc

/-- **Every entry is short.** -/
theorem entryOk_turnEntry (trigger : String) (t : PbsTarget) {c : TargetCourse} (hc : c.Short) :
    EntryOk (turnEntry trigger t c) := by
  unfold turnEntry
  split_ifs
  · refine ⟨by simp [skippedEntry, targetResult], ?_⟩
    simp only [skippedEntry, targetResult, List.forall_mem_cons]
    exact ⟨⟨by decide, entryValue_str _⟩, ⟨by decide, entryValue_str _⟩,
      ⟨by decide, entryValue_bool _⟩, ⟨by decide, entryValue_bool _⟩, ⟨by decide, entryValue_none⟩,
      ⟨by decide, entryValue_none⟩, ⟨by decide, entryValue_bool _⟩, ⟨by decide, entryValue_bool _⟩,
      nofun⟩
  · have hstarted : EntryOk (startedEntry trigger t c) := by
      refine ⟨by simp [startedEntry, targetResult], ?_⟩
      simp only [startedEntry, targetResult, List.forall_mem_cons]
      exact ⟨⟨by decide, entryValue_str _⟩, ⟨by decide, entryValue_str _⟩,
        ⟨by decide, entryValue_bool _⟩, ⟨by decide, entryValue_bool _⟩,
        ⟨by decide, entryValue_none⟩, ⟨by decide, entryValue_none⟩, ⟨by decide, entryValue_str _⟩,
        ⟨by decide, entryValue_str _⟩, ⟨by decide, entryValue_str _⟩, ⟨by decide, entryValue_str _⟩,
        nofun⟩
    exact (hstarted.checkedEntry hc).set (by decide)
      ⟨hc.duration.1, shownShort_of_size rfl hc.duration.2⟩

/-! ### The flags of a summary -/

/-- The entries that tell of a backup are those of the turns that made one. -/
theorem hasBackup_turnEntry (trigger : String) (t : PbsTarget) (c : TargetCourse) :
    hasBackup (turnEntry trigger t c) = true ↔ c.BackedUp := by
  obtain ⟨b, hverdict, hb⟩ := turnEntry_ok trigger t c
  rw [← hb, hasBackup, hverdict.2, decide_eq_true_eq]
  simp

/-- Some prune step of the run has failed. -/
def PbsRun.PruneFailed (run : PbsRun) : Prop :=
  ∃ e ∈ run.entries, Dict.get e "prune_ok" = .bool false

theorem pruneFailures_nonempty (run : PbsRun) :
    (pruneFailures run.entries).isEmpty = false ↔ run.PruneFailed := by
  unfold pruneFailures PbsRun.PruneFailed
  rw [List.isEmpty_eq_false_iff_exists_mem]
  simp

theorem any_hasBackup (run : PbsRun) :
    run.entries.any hasBackup = true ↔ ∃ t ∈ run.turns, t.2.BackedUp := by
  simp [PbsRun.entries, hasBackup_turnEntry]

theorem allBackups_entries (run : PbsRun) (hturns : run.turns ≠ []) :
    allBackups run.entries = true ↔ ∀ t ∈ run.turns, t.2.BackedUp := by
  have hentries : run.entries.isEmpty = false := by
    simpa [PbsRun.entries] using hturns
  rw [allBackups, hentries]
  simp [PbsRun.entries, hasBackup_turnEntry]

/-- How the flags of a summary go with the turns that are good. -/
structure FlagsAgree (summary : Dict) (run : PbsRun) (Good : PbsTarget × TargetCourse → Prop) :
    Prop where
  ok : Dict.get summary "ok" = .bool true ↔ ∀ t ∈ run.turns, Good t
  backup_ok : Dict.get summary "backup_ok" = .bool true ↔ ∀ t ∈ run.turns, Good t
  partial_run : Dict.get summary "partial" = .bool true ↔
    run.PruneFailed ∨ (∃ t ∈ run.turns, Good t) ∧ ¬ ∀ t ∈ run.turns, Good t
  all_ok : Dict.get summary "outcome" ∈ [.str "ok", .str "maintenance_failed"] ↔
    ∀ t ∈ run.turns, Good t
  some_ok : Dict.get summary "outcome" = .str "partial" ↔
    (∃ t ∈ run.turns, Good t) ∧ ¬ ∀ t ∈ run.turns, Good t
  none_ok : Dict.get summary "outcome" = .str "backup_failed" ↔ ∀ t ∈ run.turns, ¬ Good t

theorem FlagsAgree.congr {summary summary' : Dict} {run : PbsRun}
    {Good Good' : PbsTarget × TargetCourse → Prop} (h : FlagsAgree summary run Good)
    (hsummary : ∀ key ∈ ["ok", "backup_ok", "partial", "outcome"],
      Dict.get summary' key = Dict.get summary key)
    (hgood : ∀ t ∈ run.turns, Good' t ↔ Good t) : FlagsAgree summary' run Good' := by
  have hall : (∀ t ∈ run.turns, Good' t) ↔ ∀ t ∈ run.turns, Good t := forall₂_congr hgood
  have hsome : (∃ t ∈ run.turns, Good' t) ↔ ∃ t ∈ run.turns, Good t :=
    exists_congr fun t => and_congr_right (hgood t)
  have hnone : (∀ t ∈ run.turns, ¬ Good' t) ↔ ∀ t ∈ run.turns, ¬ Good t :=
    forall₂_congr fun t ht => not_congr (hgood t ht)
  constructor
  · rw [hsummary _ (by decide), hall]
    exact h.ok
  · rw [hsummary _ (by decide), hall]
    exact h.backup_ok
  · rw [hsummary _ (by decide), hall, hsome]
    exact h.partial_run
  · rw [hsummary _ (by decide), hall]
    exact h.all_ok
  · rw [hsummary _ (by decide), hall, hsome]
    exact h.some_ok
  · rw [hsummary _ (by decide), hnone]
    exact h.none_ok

/-- **The flags of the summary agree with the turns.** -/
theorem runSummary_flags (run : PbsRun) (hturns : run.turns ≠ []) :
    FlagsAgree run.summary run fun t => t.2.BackedUp := by
  have hall := allBackups_entries run hturns
  have hany := any_hasBackup run
  have hprune := pruneFailures_nonempty run
  have hsome : (∀ t ∈ run.turns, t.2.BackedUp) → ∃ t ∈ run.turns, t.2.BackedUp := fun h => by
    obtain ⟨t, ht⟩ := List.exists_mem_of_ne_nil _ hturns
    exact ⟨t, ht, h t ht⟩
  have hnone : (∀ t ∈ run.turns, ¬ t.2.BackedUp) ↔ ¬ ∃ t ∈ run.turns, t.2.BackedUp := by simp
  have hok : Dict.get run.summary "ok" = .bool (allBackups run.entries) := rfl
  have hbackup : Dict.get run.summary "backup_ok" = .bool (allBackups run.entries) := rfl
  have hincomplete : Dict.get run.summary "partial" = .bool (!(pruneFailures run.entries).isEmpty ||
    (run.entries.any hasBackup && !allBackups run.entries)) := rfl
  have houtcome : Dict.get run.summary "outcome" = .str (runOutcome run.entries) := rfl
  rw [← hall, ← hany] at hsome
  constructor
  · rw [hok, ← hall, Value.bool.injEq]
  · rw [hbackup, ← hall, Value.bool.injEq]
  · rw [hincomplete, ← hall, ← hany, ← hprune, Value.bool.injEq]
    simp
  all_goals
    rw [houtcome, runOutcome]
    try rw [hnone]
    try rw [← hall]
    try rw [← hany]
    cases hbackups : allBackups run.entries
    · cases hbackup : run.entries.any hasBackup <;> simp
    · have hone := hsome hbackups
      cases hfailures : (pruneFailures run.entries).isEmpty <;> simp [hone]

/-- What the scheduler adds leaves the other members alone. -/
theorem get_withMetadata (summary historyKeys slots : Dict) {key : String}
    (hkey : key ∉ ["history_keys", "scheduler_slots"]) :
    Dict.get (withMetadata summary historyKeys slots) key = Dict.get summary key := by
  simp only [List.mem_cons, List.not_mem_nil, or_false, not_or] at hkey
  unfold withMetadata
  rw [Dict.get_set_ne _ _ hkey.2, Dict.get_set_ne _ _ hkey.1]

end RcloneSync
