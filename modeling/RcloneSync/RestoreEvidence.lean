/-
RcloneSync/RestoreEvidence.lean

When a restore test counts as partly passed (restore_evidence.py).

A drill that checked fewer files than asked for, and all of those successfully, is a
warning and no failure.  Both readings below decide this from the recorded result alone;
they end with an exception only where the recorded reason is a list or a mapping, which
Python cannot look up in a set.
-/
import RcloneSync.PyValue

namespace RcloneSync

open Py

/-- Members of a result that rule out a partial success. -/
def partialBlockers : List String :=
  ["cancelled", "temp_cleanup_failed", "cleanup_error", "skipped", "timed_out"]

/-- Accepted values of `sample_shortfall_reason`. -/
def shortfallReasons : List Value :=
  [.str "byte_budget", .str "insufficient_eligible_files", .str "listing_truncated"]

/-- The error text that older versions recorded for a partial success. -/
def oldPartialMessage (verified requested : Int) : String :=
  "Teil-Stichprobe: " ++ toString verified ++ " von " ++ toString requested ++
    " angeforderten Dateien ausgewählt und erfolgreich geprüft"

/-- `value in {…}`: lists and mappings cannot be looked up in a set. -/
def inSet (v : Value) (members : List Value) : Except PyError Bool :=
  match v with
  | .list _ => .error (.type "unhashable type: 'list'")
  | .dict _ => .error (.type "unhashable type: 'dict'")
  | v => .ok (pyIn v members)

/-- `is_verified_partial`. -/
def isVerifiedPartial (result : Dict) : Except PyError Bool :=
  if Dict.get result "ok" ≠ .bool false ∨
      pyEq (Dict.get result "sample_status") (.str "partial_selection") = false then .ok false
  else if partialBlockers.any (fun key => truthy (Dict.get result key)) then .ok false
  else if pyIn (Dict.get result "outcome") [.none, .str "partial"] = false then .ok false
  else if Dict.get result "integrity_ok" = .bool false ∨
      Dict.get result "coverage_complete" = .bool true then .ok false
  else
    match Dict.get result "verified", Dict.get result "sample_size",
        Dict.get result "requested_sample_size", Dict.get result "restored_files" with
    | .int verified, .int sampled, .int requested, .int restored =>
      if ¬ (0 < verified ∧ verified = sampled ∧ sampled = restored ∧ restored < requested) then
        .ok false
      else if Dict.get result "return_code" ≠ .int 0 then .ok false
      else if pyEq (Dict.getOr result "sample_shortfall" (.int (requested - sampled)))
          (.int (requested - sampled)) = false then .ok false
      else do
        if ← inSet (Dict.get result "sample_shortfall_reason") shortfallReasons then
          .ok (pyIn (Dict.get result "error")
            [.none, .str "", .str (oldPartialMessage verified requested)])
        else .ok false
    | _, _, _, _ => .ok false

/-- A summary entry of the drill itself, which stands for no pair. -/
def isDrillEntry (result : Dict) : Bool :=
  pyEq (Dict.get result "name") (.str "restore-drill") &&
    (match Dict.get result "pairs_tested" with
      | .int n => decide (0 < n)
      | _ => false) &&
    !Dict.has result "sample_status" && !Dict.has result "evidence_binding"

/-- The loop over the results of a summary; `seen` tells that one was partial. -/
def partialResults : List Value → Bool → Except PyError Bool
  | [], seen => .ok seen
  | .dict result :: rest, seen =>
    if ["cancelled", "temp_cleanup_failed", "cleanup_error"].any
        (fun key => truthy (Dict.get result key)) then .ok false
    else if isDrillEntry result then
      if truthy (Dict.get result "error") then .ok false else partialResults rest seen
    else do
      if ← isVerifiedPartial result then partialResults rest true
      else if Dict.get result "ok" ≠ .bool true ∨ truthy (Dict.get result "error") then .ok false
      else partialResults rest seen
  | _ :: _, _ => .ok false

/-- `is_partial_restore_summary`. -/
def isPartialRestoreSummary (summary : Dict) : Except PyError Bool :=
  if truthy (Dict.get summary "truncated") then .ok false
  else if pyIn (Dict.get summary "kind") [.none, .str "restoretest"] = false then .ok false
  else if ["cancelled", "error", "temp_cleanup_failed", "cleanup_error"].any
      (fun key => truthy (Dict.get summary key)) then .ok false
  else
    match Dict.get summary "pairs" with
    | .list [] => .ok false
    | .list results => partialResults results false
    | _ => .ok false

end RcloneSync
