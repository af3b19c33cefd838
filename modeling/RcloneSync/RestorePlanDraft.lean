/-
RcloneSync/RestorePlanDraft.lean

The editor of the restore plan in the mobile app (`RestorePlanDraft`).

The draft holds the plan it was made from, the values on the screen, the answer of the
server that is newer than the plan, if one came in, and the values that were shown in a
preview together with the revision they were shown for.  Answers can be late: each comes
with the context, a session on a server, that it was asked in, and an answer of another
context is dropped.

A request to save is only built from values that were accepted as a preview for the
revision that is sent.  Two facts carry this over any order of calls: what stands in
the preview is either the plan itself, which there is no reason to save, or a preview
that was accepted for the revision of the plan and stood ever since (`PreviewStands`);
and the plan, or the newer answer beside it, is the last answer of the server
(`AnswerKnown`).

Main result: `restorePlanDraft_run`.
-/
import Mathlib.Data.List.Infix

namespace RcloneSync

/-! ### Settings and answers -/

/-- `RestorePlanSettings`; texts that Swift takes for equal are one text here. -/
structure RestorePlanSettings where
  enabled : Bool
  schedule : String
  sampleFiles : Int
  maxTotalMB : Int
  maxScanFiles : Int
  deriving DecidableEq, Repr

/-- `RestorePlanResponse`, as far as the draft reads it. -/
structure RestorePlanResponse where
  revision : String
  settings : RestorePlanSettings
  deriving DecidableEq, Repr

/-- `RestorePlanUpdate`. -/
structure RestorePlanUpdate where
  revision : String
  settings : RestorePlanSettings
  deriving DecidableEq, Repr

/-- The fields of the settings. -/
inductive SettingsField
  | enabled
  | schedule
  | sampleFiles
  | maxTotalMB
  | maxScanFiles
  deriving DecidableEq, Repr

/-- What a field holds. -/
inductive SettingsEntry
  | flag (b : Bool)
  | text (s : String)
  | count (n : Int)
  deriving DecidableEq, Repr

def RestorePlanSettings.field (s : RestorePlanSettings) : SettingsField → SettingsEntry
  | .enabled => .flag s.enabled
  | .schedule => .text s.schedule
  | .sampleFiles => .count s.sampleFiles
  | .maxTotalMB => .count s.maxTotalMB
  | .maxScanFiles => .count s.maxScanFiles

/-! ### The draft -/

/-- `RestorePlanDraft`. -/
structure RestorePlanDraft where
  context : String := ""
  plan : Option RestorePlanResponse := none
  latestServerPlan : Option RestorePlanResponse := none
  hasConflict : Bool := false
  previewSettings : Option RestorePlanSettings := none
  previewRevision : Option String := none
  settings : RestorePlanSettings := ⟨false, "manual", 20, 256, 20000⟩
  deriving DecidableEq, Repr

namespace RestorePlanDraft

def isDirty (d : RestorePlanDraft) : Bool :=
  match d.plan with
  | some plan => d.settings ≠ plan.settings
  | none => false

def needsResolution (d : RestorePlanDraft) : Bool :=
  d.hasConflict || d.latestServerPlan.isSome

def canSave (d : RestorePlanDraft) : Bool :=
  d.isDirty && !d.needsResolution && d.previewSettings == some d.settings &&
    d.previewRevision == d.plan.map (·.revision)

/-- `reset`: a new draft in the given context. -/
def reset (context : String) : RestorePlanDraft := { context := context }

def enterContext (d : RestorePlanDraft) (context : String) : Bool × RestorePlanDraft :=
  if d.context ≠ context then (true, reset context) else (false, d)

/-- `accept`: the answer is the plan, and nothing is open. -/
def accept (d : RestorePlanDraft) (result : RestorePlanResponse) : RestorePlanDraft :=
  { d with
    plan := some result
    settings := result.settings
    latestServerPlan := none
    hasConflict := false
    previewSettings := some result.settings
    previewRevision := some result.revision }

def invalidatePreview (d : RestorePlanDraft) : RestorePlanDraft :=
  { d with previewSettings := none, previewRevision := none }

def receive (d : RestorePlanDraft) (result : RestorePlanResponse) (context : String) :
    Bool × RestorePlanDraft :=
  if d.context ≠ context then (false, d)
  else if d.isDirty || d.needsResolution then
    (true, invalidatePreview { d with latestServerPlan := some result, hasConflict := true })
  else (true, d.accept result)

def markConflict (d : RestorePlanDraft) (context : String) : RestorePlanDraft :=
  if d.context ≠ context then d
  else invalidatePreview { d with hasConflict := true, latestServerPlan := none }

def acceptPreview (d : RestorePlanDraft) (result : RestorePlanResponse)
    (settings : RestorePlanSettings) (revision context : String) : Bool × RestorePlanDraft :=
  if d.context = context ∧ d.needsResolution = false ∧ d.settings = settings ∧
      d.plan.map (·.revision) = some revision ∧ result.revision = revision then
    (true, { d with previewSettings := some settings, previewRevision := some revision })
  else (false, d)

/-- The values on the screen, carried over to the newer answer: only fields that differ
from the plan the draft was made from. -/
def mergedSettings (settings baseline latest : RestorePlanSettings) : RestorePlanSettings where
  enabled := if settings.enabled ≠ baseline.enabled then settings.enabled else latest.enabled
  schedule :=
    if settings.schedule ≠ baseline.schedule then settings.schedule else latest.schedule
  sampleFiles :=
    if settings.sampleFiles ≠ baseline.sampleFiles then settings.sampleFiles
    else latest.sampleFiles
  maxTotalMB :=
    if settings.maxTotalMB ≠ baseline.maxTotalMB then settings.maxTotalMB
    else latest.maxTotalMB
  maxScanFiles :=
    if settings.maxScanFiles ≠ baseline.maxScanFiles then settings.maxScanFiles
    else latest.maxScanFiles

def rebaseChanges (d : RestorePlanDraft) (context : String) : Bool × RestorePlanDraft :=
  if d.context ≠ context then (false, d)
  else
    match d.plan, d.latestServerPlan with
    | some plan, some latest =>
      (true, invalidatePreview
        { d.accept latest with
          settings := mergedSettings d.settings plan.settings latest.settings })
    | _, _ => (false, d)

def discardChanges (d : RestorePlanDraft) (context : String) : Bool × RestorePlanDraft :=
  if d.context ≠ context then (false, d)
  else
    match d.latestServerPlan with
    | some latest => (true, d.accept latest)
    | none => (false, d)

def saveRequest (d : RestorePlanDraft) (context : String) : Option RestorePlanUpdate :=
  if d.context = context ∧ d.canSave = true then
    d.plan.map fun plan => ⟨plan.revision, d.settings⟩
  else none

def acceptSaved (d : RestorePlanDraft) (result : RestorePlanResponse) (context : String) :
    Bool × RestorePlanDraft :=
  if d.context ≠ context then (false, d) else (true, d.accept result)

end RestorePlanDraft

/-! ### Calls in any order -/

/-- What the app can do with a draft. -/
inductive DraftCall
  | reset (context : String)
  | enterContext (context : String)
  | edit (settings : RestorePlanSettings)
  | receive (result : RestorePlanResponse) (context : String)
  | invalidatePreview
  | markConflict (context : String)
  | acceptPreview (result : RestorePlanResponse) (settings : RestorePlanSettings)
      (revision context : String)
  | rebaseChanges (context : String)
  | discardChanges (context : String)
  | acceptSaved (result : RestorePlanResponse) (context : String)
  deriving DecidableEq, Repr

/-- The draft after a call. -/
def DraftCall.apply (d : RestorePlanDraft) : DraftCall → RestorePlanDraft
  | .reset context => RestorePlanDraft.reset context
  | .enterContext context => (d.enterContext context).2
  | .edit settings => { d with settings := settings }
  | .receive result context => (d.receive result context).2
  | .invalidatePreview => d.invalidatePreview
  | .markConflict context => d.markConflict context
  | .acceptPreview result settings revision context =>
    (d.acceptPreview result settings revision context).2
  | .rebaseChanges context => (d.rebaseChanges context).2
  | .discardChanges context => (d.discardChanges context).2
  | .acceptSaved result context => (d.acceptSaved result context).2

/-- The draft after a sequence of calls. -/
def draftAfter (calls : List DraftCall) : RestorePlanDraft :=
  calls.foldl DraftCall.apply {}

@[simp] theorem draftAfter_concat (calls : List DraftCall) (call : DraftCall) :
    draftAfter (calls ++ [call]) = call.apply (draftAfter calls) := by
  simp [draftAfter]

/-- The last answer of the server that the draft took in its context. -/
def answerAfter (d : RestorePlanDraft) (last : Option RestorePlanResponse) :
    DraftCall → Option RestorePlanResponse
  | .reset _ => none
  | .enterContext context => if d.context ≠ context then none else last
  | .receive result context | .acceptSaved result context =>
    if d.context ≠ context then last else some result
  | _ => last

/-- The last answer after a sequence of calls, the latest call first. -/
def lastAnswerOf : List DraftCall → Option RestorePlanResponse
  | [] => none
  | call :: earlier => answerAfter (draftAfter earlier.reverse) (lastAnswerOf earlier) call

def lastAnswer (calls : List DraftCall) : Option RestorePlanResponse :=
  lastAnswerOf calls.reverse

@[simp] theorem lastAnswer_concat (calls : List DraftCall) (call : DraftCall) :
    lastAnswer (calls ++ [call]) = answerAfter (draftAfter calls) (lastAnswer calls) call := by
  simp [lastAnswer, lastAnswerOf]

/-! ### The last answer is known -/

/-- The newer answer beside the plan is the last one; without one the plan is, unless a
conflict was reported whose answer is still to be fetched. -/
def AnswerKnown (d : RestorePlanDraft) (last : Option RestorePlanResponse) : Prop :=
  (∀ latest, d.latestServerPlan = some latest → last = some latest) ∧
    (d.needsResolution = false → d.plan = last)

/-- Only the plan, the answer beside it and the conflict matter. -/
theorem AnswerKnown.congr {d d' : RestorePlanDraft} {last : Option RestorePlanResponse}
    (h : AnswerKnown d last) (hplan : d'.plan = d.plan)
    (hlatest : d'.latestServerPlan = d.latestServerPlan)
    (hconflict : d'.hasConflict = d.hasConflict) : AnswerKnown d' last := by
  unfold AnswerKnown RestorePlanDraft.needsResolution
  rw [hplan, hlatest, hconflict]
  exact h

theorem answerKnown_accept (d : RestorePlanDraft) (result : RestorePlanResponse) :
    AnswerKnown (d.accept result) (some result) :=
  ⟨fun _ h => (Option.some_ne_none _ h.symm).elim, fun _ => rfl⟩

/-- While something is open, only the answer beside the plan has to be the last one. -/
theorem answerKnown_open {d : RestorePlanDraft} {last : Option RestorePlanResponse}
    (hopen : d.hasConflict = true)
    (hlatest : d.latestServerPlan = none ∨ d.latestServerPlan = last) : AnswerKnown d last := by
  refine ⟨fun latest h => ?_, fun h => ?_⟩
  · rcases hlatest with hnone | hlast
    · rw [hnone] at h
      cases h
    · rw [← hlast]
      exact h
  · simp [RestorePlanDraft.needsResolution, hopen] at h

theorem answerKnown_apply {d : RestorePlanDraft} {last : Option RestorePlanResponse}
    (h : AnswerKnown d last) (call : DraftCall) :
    AnswerKnown (call.apply d) (answerAfter d last call) := by
  cases call with
  | reset context => exact ⟨fun _ hl => (Option.some_ne_none _ hl.symm).elim, fun _ => rfl⟩
  | enterContext context =>
    by_cases hcontext : d.context = context
    · simpa [DraftCall.apply, RestorePlanDraft.enterContext, answerAfter, hcontext] using h
    · simp only [DraftCall.apply, RestorePlanDraft.enterContext, answerAfter, ne_eq, hcontext,
        not_false_eq_true, if_true]
      exact ⟨fun _ hl => (Option.some_ne_none _ hl.symm).elim, fun _ => rfl⟩
  | edit settings => exact h.congr rfl rfl rfl
  | receive result context =>
    by_cases hcontext : d.context = context
    · simp only [DraftCall.apply, RestorePlanDraft.receive, answerAfter, ne_eq, hcontext,
        not_true_eq_false, if_false]
      split
      · exact answerKnown_open rfl (Or.inr rfl)
      · exact answerKnown_accept d result
    · simpa [DraftCall.apply, RestorePlanDraft.receive, answerAfter, hcontext] using h
  | invalidatePreview => exact h.congr rfl rfl rfl
  | markConflict context =>
    by_cases hcontext : d.context = context
    · simp only [DraftCall.apply, RestorePlanDraft.markConflict, answerAfter, ne_eq, hcontext,
        not_true_eq_false, if_false]
      exact answerKnown_open rfl (Or.inl rfl)
    · simpa [DraftCall.apply, RestorePlanDraft.markConflict, answerAfter, hcontext] using h
  | acceptPreview result settings revision context =>
    simp only [DraftCall.apply, RestorePlanDraft.acceptPreview, answerAfter]
    split
    · exact h.congr rfl rfl rfl
    · exact h
  | rebaseChanges context =>
    simp only [DraftCall.apply, RestorePlanDraft.rebaseChanges, answerAfter]
    split
    · exact h
    · split
      · rename_i latest _ hlatest
        rw [h.1 latest hlatest]
        exact (answerKnown_accept d latest).congr rfl rfl rfl
      · exact h
  | discardChanges context =>
    simp only [DraftCall.apply, RestorePlanDraft.discardChanges, answerAfter]
    split
    · exact h
    · split
      · rename_i latest hlatest
        rw [h.1 latest hlatest]
        exact answerKnown_accept d latest
      · exact h
  | acceptSaved result context =>
    by_cases hcontext : d.context = context
    · simp only [DraftCall.apply, RestorePlanDraft.acceptSaved, answerAfter, ne_eq, hcontext,
        not_true_eq_false, if_false]
      exact answerKnown_accept d result
    · simpa [DraftCall.apply, RestorePlanDraft.acceptSaved, answerAfter, hcontext] using h

theorem answerKnown_draftAfter (calls : List DraftCall) :
    AnswerKnown (draftAfter calls) (lastAnswer calls) := by
  induction calls using List.reverseRecOn with
  | nil => exact ⟨fun _ h => (Option.some_ne_none _ h.symm).elim, fun _ => rfl⟩
  | append_singleton calls call ih =>
    rw [draftAfter_concat, lastAnswer_concat]
    exact answerKnown_apply ih call

/-! ### What stands in the preview -/

/-- A preview of these values was accepted for this revision in this context, and it stood
in every draft from then on. -/
def PreviewStands (calls : List DraftCall) (settings : RestorePlanSettings)
    (revision context : String) : Prop :=
  ∃ before result after,
    calls = before ++ DraftCall.acceptPreview result settings revision context :: after ∧
      ((draftAfter before).acceptPreview result settings revision context).1 = true ∧
      ∀ mid, mid <+: after →
        (draftAfter (before ++ .acceptPreview result settings revision context :: mid)).context
            = context ∧
          (draftAfter (before ++ .acceptPreview result settings revision context
            :: mid)).previewSettings = some settings ∧
          (draftAfter (before ++ .acceptPreview result settings revision context
            :: mid)).previewRevision = some revision

/-- Everything a call can do to the preview: it clears it, it takes an answer as the plan,
it accepts a preview, or it leaves it in its plan and context. -/
theorem apply_cases (d : RestorePlanDraft) (call : DraftCall) :
    (call.apply d).previewSettings = none ∨
      (∃ result, (call.apply d).plan = some result ∧
        (call.apply d).previewSettings = some result.settings) ∨
      (∃ result settings revision context,
        call = .acceptPreview result settings revision context ∧
          (d.acceptPreview result settings revision context).1 = true ∧
          d.context = context ∧ call.apply d =
            { d with previewSettings := some settings, previewRevision := some revision }) ∨
      ((call.apply d).context = d.context ∧ (call.apply d).plan = d.plan ∧
        (call.apply d).previewSettings = d.previewSettings ∧
        (call.apply d).previewRevision = d.previewRevision) := by
  cases call with
  | reset context => exact Or.inl rfl
  | enterContext context =>
    simp only [DraftCall.apply, RestorePlanDraft.enterContext]
    split
    · exact Or.inl rfl
    · exact Or.inr (Or.inr (Or.inr ⟨rfl, rfl, rfl, rfl⟩))
  | edit settings => exact Or.inr (Or.inr (Or.inr ⟨rfl, rfl, rfl, rfl⟩))
  | receive result context =>
    simp only [DraftCall.apply, RestorePlanDraft.receive]
    split
    · exact Or.inr (Or.inr (Or.inr ⟨rfl, rfl, rfl, rfl⟩))
    · split
      · exact Or.inl rfl
      · exact Or.inr (Or.inl ⟨result, rfl, rfl⟩)
  | invalidatePreview => exact Or.inl rfl
  | markConflict context =>
    simp only [DraftCall.apply, RestorePlanDraft.markConflict]
    split
    · exact Or.inr (Or.inr (Or.inr ⟨rfl, rfl, rfl, rfl⟩))
    · exact Or.inl rfl
  | acceptPreview result settings revision context =>
    simp only [DraftCall.apply, RestorePlanDraft.acceptPreview]
    split
    · rename_i hguard
      refine Or.inr (Or.inr (Or.inl ⟨result, settings, revision, context, rfl, ?_, hguard.1, rfl⟩))
      rw [if_pos hguard]
    · exact Or.inr (Or.inr (Or.inr ⟨rfl, rfl, rfl, rfl⟩))
  | rebaseChanges context =>
    simp only [DraftCall.apply, RestorePlanDraft.rebaseChanges]
    split
    · exact Or.inr (Or.inr (Or.inr ⟨rfl, rfl, rfl, rfl⟩))
    · split
      · exact Or.inl rfl
      · exact Or.inr (Or.inr (Or.inr ⟨rfl, rfl, rfl, rfl⟩))
  | discardChanges context =>
    simp only [DraftCall.apply, RestorePlanDraft.discardChanges]
    split
    · exact Or.inr (Or.inr (Or.inr ⟨rfl, rfl, rfl, rfl⟩))
    · split
      · rename_i latest _
        exact Or.inr (Or.inl ⟨latest, rfl, rfl⟩)
      · exact Or.inr (Or.inr (Or.inr ⟨rfl, rfl, rfl, rfl⟩))
  | acceptSaved result context =>
    simp only [DraftCall.apply, RestorePlanDraft.acceptSaved]
    split
    · exact Or.inr (Or.inr (Or.inr ⟨rfl, rfl, rfl, rfl⟩))
    · exact Or.inr (Or.inl ⟨result, rfl, rfl⟩)

theorem PreviewStands.keep {calls : List DraftCall} {settings : RestorePlanSettings}
    {revision context : String} (h : PreviewStands calls settings revision context)
    {call : DraftCall} (hcontext : (call.apply (draftAfter calls)).context = context)
    (hsettings : (call.apply (draftAfter calls)).previewSettings = some settings)
    (hrevision : (call.apply (draftAfter calls)).previewRevision = some revision) :
    PreviewStands (calls ++ [call]) settings revision context := by
  obtain ⟨before, result, after, rfl, haccepted, hstood⟩ := h
  refine ⟨before, result, after ++ [call], by simp, haccepted, fun mid hmid => ?_⟩
  rcases List.prefix_concat_iff.mp hmid with rfl | hearlier
  · rw [← List.cons_append, ← List.append_assoc, draftAfter_concat]
    exact ⟨hcontext, hsettings, hrevision⟩
  · exact hstood mid hearlier

theorem PreviewStands.start {calls : List DraftCall} {result : RestorePlanResponse}
    {settings : RestorePlanSettings} {revision context : String}
    (haccepted :
      ((draftAfter calls).acceptPreview result settings revision context).1 = true)
    (hcontext : (draftAfter calls).context = context)
    (hafter : (DraftCall.acceptPreview result settings revision context).apply (draftAfter calls)
      = { draftAfter calls with
          previewSettings := some settings, previewRevision := some revision }) :
    PreviewStands (calls ++ [.acceptPreview result settings revision context]) settings
      revision context := by
  refine ⟨calls, result, [], rfl, haccepted, fun mid hmid => ?_⟩
  obtain rfl := List.prefix_nil.mp hmid
  rw [draftAfter_concat, hafter]
  exact ⟨hcontext, rfl, rfl⟩

/-- What the preview shows is the plan, or it was accepted and stood since. -/
def PreviewKnown (calls : List DraftCall) : Prop :=
  ∀ settings, (draftAfter calls).previewSettings = some settings →
    (∃ plan, (draftAfter calls).plan = some plan ∧ plan.settings = settings) ∨
      ∃ revision, (draftAfter calls).previewRevision = some revision ∧
        PreviewStands calls settings revision (draftAfter calls).context

theorem previewKnown_concat {calls : List DraftCall} (h : PreviewKnown calls)
    (call : DraftCall) : PreviewKnown (calls ++ [call]) := by
  intro settings hsettings
  rw [draftAfter_concat] at hsettings ⊢
  rcases apply_cases (draftAfter calls) call with hnone | ⟨result, hplan, hpreview⟩ |
    ⟨result, shown, revision, context, rfl, haccepted, hcontext, hafter⟩ |
    ⟨hcontext, hplan, hpreview, hrevision⟩
  · rw [hnone] at hsettings
    cases hsettings
  · rw [hpreview] at hsettings
    exact Or.inl ⟨result, hplan, Option.some.inj hsettings⟩
  · have hstands := PreviewStands.start haccepted hcontext hafter
    rw [hafter] at hsettings ⊢
    obtain rfl := Option.some.inj hsettings
    refine Or.inr ⟨revision, rfl, ?_⟩
    show PreviewStands _ shown revision (draftAfter calls).context
    rw [hcontext]
    exact hstands
  · have hbefore := hpreview.symm.trans hsettings
    rcases h settings hbefore with ⟨plan, hold, hsame⟩ | ⟨revision, hold, hstands⟩
    · exact Or.inl ⟨plan, hplan.trans hold, hsame⟩
    · refine Or.inr ⟨revision, hrevision.trans hold, ?_⟩
      rw [hcontext]
      exact hstands.keep hcontext hsettings (hrevision.trans hold)

theorem previewKnown_draftAfter (calls : List DraftCall) : PreviewKnown calls := by
  induction calls using List.reverseRecOn with
  | nil =>
    intro settings hsettings
    cases hsettings
  | append_singleton calls call ih => exact previewKnown_concat ih call

/-! ### What is saved -/

namespace RestorePlanDraft

theorem isDirty_eq_true {d : RestorePlanDraft} (h : d.isDirty = true) :
    ∃ plan, d.plan = some plan ∧ d.settings ≠ plan.settings := by
  unfold isDirty at h
  split at h
  · rename_i plan hplan
    exact ⟨plan, hplan, of_decide_eq_true h⟩
  · cases h

theorem saveRequest_eq_some {d : RestorePlanDraft} {context : String} {req : RestorePlanUpdate}
    (h : d.saveRequest context = some req) :
    d.context = context ∧ d.needsResolution = false ∧
      d.previewSettings = some d.settings ∧ d.previewRevision = some req.revision ∧
      ∃ plan, d.plan = some plan ∧ d.settings ≠ plan.settings ∧
        plan.revision = req.revision ∧ d.settings = req.settings := by
  unfold saveRequest at h
  split at h
  · rename_i hguard
    obtain ⟨hcontext, hsave⟩ := hguard
    simp only [canSave, Bool.and_eq_true, Bool.not_eq_true', beq_iff_eq] at hsave
    obtain ⟨⟨⟨hdirty, hopen⟩, hsettings⟩, hrevision⟩ := hsave
    obtain ⟨plan, hplan, hchanged⟩ := isDirty_eq_true hdirty
    rw [hplan] at h hrevision
    obtain rfl := Option.some.inj h
    exact ⟨hcontext, hopen, hsettings, hrevision, plan, hplan, hchanged, rfl, rfl⟩
  · cases h

theorem needsResolution_eq_false {d : RestorePlanDraft} :
    d.needsResolution = false ↔ d.hasConflict = false ∧ d.latestServerPlan = none := by
  simp [needsResolution]

end RestorePlanDraft

/-- What a request to save rests on: a preview of its values that was accepted for its
revision and stood ever since, and a plan that is the last answer of the server. -/
theorem saveRequest_previewed {calls : List DraftCall} {context : String}
    {req : RestorePlanUpdate} (h : (draftAfter calls).saveRequest context = some req) :
    PreviewStands calls req.settings req.revision context ∧
      (draftAfter calls).context = context ∧ (draftAfter calls).hasConflict = false ∧
      (draftAfter calls).latestServerPlan = none ∧
      ∃ plan, (draftAfter calls).plan = some plan ∧ lastAnswer calls = some plan ∧
        plan.revision = req.revision := by
  obtain ⟨hcontext, hopen, hpreview, hrevision, plan, hplan, hchanged, hsent, hsettings⟩ :=
    RestorePlanDraft.saveRequest_eq_some h
  obtain ⟨hconflict, hlatest⟩ := RestorePlanDraft.needsResolution_eq_false.mp hopen
  have hlast := (answerKnown_draftAfter calls).2 hopen
  refine ⟨?_, hcontext, hconflict, hlatest, plan, hplan, hlast.symm.trans hplan, hsent⟩
  rcases previewKnown_draftAfter calls _ hpreview with ⟨plan', hplan', hsame⟩ |
    ⟨revision, hold, hstands⟩
  · obtain rfl := Option.some.inj (hplan.symm.trans hplan')
    exact absurd hsame.symm hchanged
  · obtain rfl := Option.some.inj (hrevision.symm.trans hold)
    rw [hcontext, hsettings] at hstands
    exact hstands

/-! ### What the user changed -/

namespace RestorePlanDraft

/-- The user changed a field of the plan. -/
def Changed (d : RestorePlanDraft) (field : SettingsField) : Prop :=
  ∃ plan, d.plan = some plan ∧ d.settings.field field ≠ plan.settings.field field

theorem Changed.isDirty {d : RestorePlanDraft} {field : SettingsField} (h : d.Changed field) :
    d.isDirty = true := by
  obtain ⟨plan, hplan, hchanged⟩ := h
  unfold RestorePlanDraft.isDirty
  rw [hplan]
  refine decide_eq_true fun heq => hchanged ?_
  rw [heq]

theorem receive_keeps {d : RestorePlanDraft} {field : SettingsField} (h : d.Changed field)
    (result : RestorePlanResponse) (context : String) :
    (d.receive result context).2.settings = d.settings := by
  unfold receive
  split
  · rfl
  · rw [h.isDirty]
    rfl

theorem markConflict_keeps (d : RestorePlanDraft) (context : String) :
    (d.markConflict context).settings = d.settings := by
  unfold markConflict
  split <;> rfl

theorem acceptPreview_keeps (d : RestorePlanDraft) (result : RestorePlanResponse)
    (settings : RestorePlanSettings) (revision context : String) :
    (d.acceptPreview result settings revision context).2.settings = d.settings := by
  unfold acceptPreview
  split <;> rfl

theorem mergedSettings_field (settings baseline latest : RestorePlanSettings)
    (field : SettingsField) :
    (mergedSettings settings baseline latest).field field =
      if settings.field field ≠ baseline.field field then settings.field field
      else latest.field field := by
  cases field <;> simp only [RestorePlanSettings.field, mergedSettings, ne_eq,
    SettingsEntry.flag.injEq, SettingsEntry.text.injEq, SettingsEntry.count.injEq] <;>
    split <;> rfl

/-- A rebase that is done needs a plan and a newer answer. -/
theorem rebaseChanges_eq_true {d : RestorePlanDraft} {context : String}
    (h : (d.rebaseChanges context).1 = true) :
    d.context = context ∧ ∃ plan latest, d.plan = some plan ∧
      d.latestServerPlan = some latest ∧ (d.rebaseChanges context).2 = invalidatePreview
        { d.accept latest with
          settings := mergedSettings d.settings plan.settings latest.settings } := by
  unfold rebaseChanges at h ⊢
  split at h
  · cases h
  · rename_i hcontext
    split at h
    · rename_i plan latest hplan hlatest
      refine ⟨not_not.mp hcontext, plan, latest, hplan, hlatest, ?_⟩
      rw [if_neg hcontext]
    · cases h

theorem rebaseChanges_eq_false {d : RestorePlanDraft} {context : String}
    (h : (d.rebaseChanges context).1 = false) : (d.rebaseChanges context).2 = d := by
  unfold rebaseChanges at h ⊢
  split at h
  · rw [if_pos ‹_›]
  · rename_i hcontext
    rw [if_neg hcontext]
    split at h
    · cases h
    · rfl

theorem rebaseChanges_field {d : RestorePlanDraft} {context : String}
    {plan latest : RestorePlanResponse} (h : (d.rebaseChanges context).1 = true)
    (hplan : d.plan = some plan) (hlatest : d.latestServerPlan = some latest)
    (field : SettingsField) :
    (d.rebaseChanges context).2.settings.field field =
      if d.settings.field field ≠ plan.settings.field field then d.settings.field field
      else latest.settings.field field := by
  obtain ⟨_, plan', latest', hplan', hlatest', hafter⟩ := rebaseChanges_eq_true h
  obtain rfl := Option.some.inj (hplan.symm.trans hplan')
  obtain rfl := Option.some.inj (hlatest.symm.trans hlatest')
  rw [hafter]
  exact mergedSettings_field _ _ _ _

theorem rebaseChanges_keeps {d : RestorePlanDraft} {field : SettingsField}
    (h : d.Changed field) (context : String) :
    (d.rebaseChanges context).2.settings.field field = d.settings.field field := by
  obtain ⟨plan, hplan, hchanged⟩ := h
  cases hdone : (d.rebaseChanges context).1 with
  | false => rw [rebaseChanges_eq_false hdone]
  | true =>
    obtain ⟨_, _, latest, _, hlatest, _⟩ := rebaseChanges_eq_true hdone
    rw [rebaseChanges_field hdone hplan hlatest, if_pos hchanged]

/-- A rebase is carried out where there is a plan to go from and a newer answer to go to. -/
theorem rebaseChanges_iff {d : RestorePlanDraft} {context : String} :
    (d.rebaseChanges context).1 = true ↔
      d.context = context ∧ d.plan.isSome = true ∧ d.latestServerPlan.isSome = true := by
  constructor
  · intro h
    obtain ⟨hcontext, plan, latest, hplan, hlatest, -⟩ := rebaseChanges_eq_true h
    rw [hplan, hlatest]
    exact ⟨hcontext, rfl, rfl⟩
  · rintro ⟨hcontext, hplan, hlatest⟩
    obtain ⟨plan, hplan⟩ := Option.isSome_iff_exists.mp hplan
    obtain ⟨latest, hlatest⟩ := Option.isSome_iff_exists.mp hlatest
    unfold rebaseChanges
    rw [if_neg (not_not.mpr hcontext), hplan, hlatest]

/-- An answer that comes in behind an edit is kept beside the plan. -/
theorem rebase_after_receive {d : RestorePlanDraft} {field : SettingsField} (h : d.Changed field)
    (result : RestorePlanResponse) :
    ((d.receive result d.context).2.rebaseChanges d.context).1 = true := by
  obtain ⟨plan, hplan, -⟩ := id h
  have hafter : (d.receive result d.context).2 =
      invalidatePreview { d with latestServerPlan := some result, hasConflict := true } := by
    unfold receive
    rw [if_neg (not_not.mpr rfl), h.isDirty]
    rfl
  rw [hafter, rebaseChanges_iff]
  refine ⟨rfl, ?_, rfl⟩
  show d.plan.isSome = true
  rw [hplan]
  rfl

end RestorePlanDraft

/-- The calls that may not touch what the user changed. -/
def DraftCall.keepsChanges : DraftCall → Bool
  | .receive .. | .acceptPreview .. | .markConflict .. | .rebaseChanges .. => true
  | _ => false

theorem apply_keepsChanges {d : RestorePlanDraft} {field : SettingsField}
    (h : d.Changed field) {call : DraftCall} (hcall : call.keepsChanges = true) :
    (call.apply d).settings.field field = d.settings.field field := by
  cases call with
  | receive result context =>
    show (d.receive result context).2.settings.field field = _
    rw [RestorePlanDraft.receive_keeps h]
  | markConflict context =>
    show (d.markConflict context).settings.field field = _
    rw [RestorePlanDraft.markConflict_keeps]
  | acceptPreview result settings revision context =>
    show (d.acceptPreview result settings revision context).2.settings.field field = _
    rw [RestorePlanDraft.acceptPreview_keeps]
  | rebaseChanges context => exact RestorePlanDraft.rebaseChanges_keeps h context
  | _ => cases hcall

/-- A rebase of a plan leaves the values of the last answer, whether a newer answer stands beside
the plan or the plan is the last answer itself. -/
theorem rebase_latest {calls : List DraftCall} (hplan : (draftAfter calls).plan.isSome = true)
    (hfetched : (draftAfter calls).hasConflict = true →
      (draftAfter calls).latestServerPlan.isSome = true) :
    ∃ latest, lastAnswer calls = some latest ∧
      (draftAfter (calls ++ [.rebaseChanges (draftAfter calls).context])).plan = some latest ∧
      ∀ field, ¬ (draftAfter calls).Changed field →
        (draftAfter (calls ++ [.rebaseChanges (draftAfter calls).context])).settings.field field
          = latest.settings.field field := by
  obtain ⟨plan, hplan⟩ := Option.isSome_iff_exists.mp hplan
  have hknown := answerKnown_draftAfter calls
  have hunchanged {field} (hsame : ¬ (draftAfter calls).Changed field) :
      ¬ (draftAfter calls).settings.field field ≠ plan.settings.field field :=
    fun hne => hsame ⟨plan, hplan, hne⟩
  rw [draftAfter_concat]
  show ∃ latest, _ ∧ ((draftAfter calls).rebaseChanges _).2.plan = some latest ∧
    ∀ field, _ → ((draftAfter calls).rebaseChanges _).2.settings.field field = _
  cases hlatest : (draftAfter calls).latestServerPlan with
  | some latest =>
    have hdone : ((draftAfter calls).rebaseChanges (draftAfter calls).context).1 = true :=
      RestorePlanDraft.rebaseChanges_iff.mpr ⟨rfl, by rw [hplan]; rfl, by rw [hlatest]; rfl⟩
    obtain ⟨_, _, latest', _, hlatest', hafter⟩ := RestorePlanDraft.rebaseChanges_eq_true hdone
    obtain rfl := Option.some.inj (hlatest.symm.trans hlatest')
    refine ⟨latest, hknown.1 latest hlatest, ?_, fun field hsame => ?_⟩
    · rw [hafter]
      rfl
    · rw [RestorePlanDraft.rebaseChanges_field hdone hplan hlatest, if_neg (hunchanged hsame)]
  | none =>
    have hopen : (draftAfter calls).needsResolution = false := by
      refine RestorePlanDraft.needsResolution_eq_false.mpr ⟨?_, hlatest⟩
      by_contra hconflict
      have hsome := hfetched (eq_true_of_ne_false hconflict)
      rw [hlatest] at hsome
      cases hsome
    have hrefused : ((draftAfter calls).rebaseChanges (draftAfter calls).context).1 = false := by
      refine Bool.eq_false_iff.mpr fun hdone => ?_
      have hsome := (RestorePlanDraft.rebaseChanges_iff.mp hdone).2.2
      rw [hlatest] at hsome
      cases hsome
    rw [RestorePlanDraft.rebaseChanges_eq_false hrefused]
    exact ⟨plan, (hknown.2 hopen).symm.trans hplan, hplan,
      fun field hsame => not_not.mp (hunchanged hsame)⟩

/-- **Saved is only what was previewed, and no edit is lost**: after any calls, with any
edits in between, a request to save carries values that were accepted as a preview for its
revision, in this context and without interruption since, while nothing newer is open; and a
field that differs from the plan keeps its value in the calls that may not touch it.

A rebase is carried out exactly if it is asked for in this context and there are a plan and a
newer answer, so for every answer that comes in behind an edit; a rebase that is refused changes
nothing.  After a rebase in this context every other field has the value of the last answer of
the server, unless a conflict was reported whose answer is still to be fetched. -/
theorem restorePlanDraft_run (calls : List DraftCall) :
    (∀ context req, (draftAfter calls).saveRequest context = some req →
      PreviewStands calls req.settings req.revision context ∧
        (draftAfter calls).context = context ∧ (draftAfter calls).hasConflict = false ∧
        (draftAfter calls).latestServerPlan = none ∧
        ∃ plan, (draftAfter calls).plan = some plan ∧ lastAnswer calls = some plan ∧
          plan.revision = req.revision) ∧
      (∀ field, (draftAfter calls).Changed field → ∀ call : DraftCall,
        call.keepsChanges = true →
          (draftAfter (calls ++ [call])).settings.field field =
            (draftAfter calls).settings.field field) ∧
      (∀ context, ((draftAfter calls).rebaseChanges context).1 = true ↔
        (draftAfter calls).context = context ∧ (draftAfter calls).plan.isSome = true ∧
          (draftAfter calls).latestServerPlan.isSome = true) ∧
      (∀ field, (draftAfter calls).Changed field → ∀ result,
        ((draftAfter (calls ++ [.receive result (draftAfter calls).context])).rebaseChanges
          (draftAfter calls).context).1 = true) ∧
      (∀ context, ((draftAfter calls).rebaseChanges context).1 = false →
        draftAfter (calls ++ [.rebaseChanges context]) = draftAfter calls) ∧
      ((draftAfter calls).plan.isSome = true →
        ((draftAfter calls).hasConflict = true →
          (draftAfter calls).latestServerPlan.isSome = true) →
        ∃ latest, lastAnswer calls = some latest ∧
          (draftAfter (calls ++ [.rebaseChanges (draftAfter calls).context])).plan = some latest ∧
          ∀ field, ¬ (draftAfter calls).Changed field →
            (draftAfter (calls ++ [.rebaseChanges (draftAfter calls).context])).settings.field field
              = latest.settings.field field) := by
  refine ⟨fun context req => saveRequest_previewed, fun field hchanged call hcall => ?_,
    fun context => RestorePlanDraft.rebaseChanges_iff, fun field hchanged result => ?_,
    fun context hrefused => ?_, fun hplan hfetched => ?_⟩
  · rw [draftAfter_concat]
    exact apply_keepsChanges hchanged hcall
  · rw [draftAfter_concat]
    exact RestorePlanDraft.rebase_after_receive hchanged result
  · rw [draftAfter_concat]
    exact RestorePlanDraft.rebaseChanges_eq_false hrefused
  · exact rebase_latest hplan hfetched

/-- A sample size was edited when the server's answer `r2` came in, which disables the plan and
allows more: the rebase keeps the edit and takes over the rest. -/
theorem restorePlanDraft_run_rebased :
    let calls : List DraftCall := [.enterContext "A",
      .receive ⟨"r1", ⟨true, "0 5 * * 0", 20, 256, 20000⟩⟩ "A",
      .edit ⟨true, "0 5 * * 0", 10, 256, 20000⟩,
      .receive ⟨"r2", ⟨false, "0 5 * * 0", 20, 512, 20000⟩⟩ "A"]
    ((draftAfter calls).rebaseChanges "A").1 = true ∧
      (draftAfter (calls ++ [.rebaseChanges "A"])).settings.field .sampleFiles = .count 10 ∧
      ∃ latest, lastAnswer calls = some latest ∧
        (draftAfter (calls ++ [.rebaseChanges "A"])).settings.field .enabled =
          latest.settings.field .enabled ∧
        (draftAfter (calls ++ [.rebaseChanges "A"])).settings.field .maxTotalMB =
          latest.settings.field .maxTotalMB := by
  intro calls
  obtain ⟨-, hkeeps, hrebases, -, -, hlatest⟩ := restorePlanDraft_run calls
  have hplan : (draftAfter calls).plan.isSome = true := by decide
  have hnewer : (draftAfter calls).latestServerPlan.isSome = true := by decide
  obtain ⟨latest, hlast, -, hfields⟩ := hlatest hplan fun _ => hnewer
  refine ⟨(hrebases "A").mpr ⟨by decide, hplan, hnewer⟩, ?_, latest, hlast, hfields _ ?_,
    hfields _ ?_⟩
  · have hsample : (draftAfter calls).settings.field .sampleFiles = .count 10 := by decide
    rw [← hsample]
    exact hkeeps _ ⟨_, rfl, by decide⟩ _ rfl
  all_goals
    rintro ⟨plan, hplan, hchanged⟩
    obtain rfl := Option.some.inj hplan
    exact hchanged rfl

example :
    (draftAfter [.enterContext "A", .receive ⟨"r1", ⟨true, "0 5 * * 0", 20, 256, 20000⟩⟩ "A",
      .edit ⟨true, "0 5 * * 0", 10, 256, 20000⟩,
      .receive ⟨"r2", ⟨false, "0 5 * * 0", 20, 512, 20000⟩⟩ "A", .rebaseChanges "A",
      .acceptPreview ⟨"r2", ⟨false, "0 5 * * 0", 10, 512, 20000⟩⟩
        ⟨false, "0 5 * * 0", 10, 512, 20000⟩ "r2" "A"]).saveRequest "A"
      = some ⟨"r2", ⟨false, "0 5 * * 0", 10, 512, 20000⟩⟩ := by
  decide

end RcloneSync
