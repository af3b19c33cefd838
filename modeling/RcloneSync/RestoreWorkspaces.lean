/-
RcloneSync/RestoreWorkspaces.lean

Workspaces that outlive their process (`create_workspace`, `forget_workspace` and
`cleanup_orphaned_workspaces`, jobs/restore_workspace.py), as the capture of a snapshot and a
restore drill use them.

A workspace is a directory, a marker in the registry and a lease.  The three come and go in steps,
and a process may be stopped between any two of them: the marker may be missing, cut off or
whole, the directory may be there, published under another name or gone, and the lease goes with
the process.  `workspaceStep` has one action for each of these steps, for any number of calls, and
one for stopping a call anywhere.

What the clean-up reads of a marker that is cut off is no JSON (`jsonLoads_cut`), so it acts on
markers that are whole only (`cleanWorkspace_swept`).  `cleanup_exact`: it removes every draft
with a whole marker and a free lease, and nothing else.
-/
import RcloneSync.JsonPrefix
import RcloneSync.Runs

namespace RcloneSync

open Py Runs

/-! ### Names and markers -/

/-- The characters that `_safe_name` keeps. -/
def isNameChar (c : Char) : Bool := c.isAlphanum || c = '_' || c = '.' || c = '-'

/-- `re.sub(r"[^A-Za-z0-9_.-]+", "_", text)`; `inRun` says that a run has begun. -/
def underscored (inRun : Bool) : List Char → List Char
  | [] => []
  | c :: cs =>
    if isNameChar c then c :: underscored false cs
    else if inRun then underscored true cs
    else '_' :: underscored true cs

/-- `_safe_name`. -/
def safeName (value : String) : String :=
  let edge := fun c : Char => c = '.' || c = '_'
  let text := if value = "" then "pair" else value
  let cleaned := lstripOf edge (rstripOf edge (String.ofList (underscored false text.toList)))
  if takeText 80 cleaned = "" then "pair" else takeText 80 cleaned

/-- What a workspace is made for. -/
inductive WorkspaceJob
  | capture (hex : String)
  | drill (pair : String)

def WorkspaceJob.namePrefix : WorkspaceJob → String
  | .capture _ => "restore-snapshot-capture-"
  | .drill pair => "restore-" ++ safeName pair ++ "-"

def WorkspaceJob.kind : WorkspaceJob → String
  | .capture _ => "snapshot-capture"
  | .drill _ => "restore-drill"

/-- `KINDS`. -/
def workspaceKinds : List String := ["restore-drill", "vault-rescue", "snapshot-capture"]

/-- `marker`. -/
def markerOf (kind name : String) : Dict :=
  [("version", .int 1), ("kind", .str kind), ("name", .str name)]

/-- What `json.dump` writes of it. -/
def markerText (kind name : String) : String :=
  jsonDumps { plainJson with ascii := true } (.dict (markerOf kind name))

/-- A name that `create_workspace` may give. -/
def isWorkspaceName (name : String) : Bool :=
  startsWith name "restore-" && name.toList.all isNameChar

/-! ### The recovery root -/

inductive Node
  | dir (files : List String)
  | file
  | link
  deriving DecidableEq

inductive MarkerFile
  | text (content : String)
  | link
  deriving DecidableEq

/-- How far a call has come with its workspace. -/
inductive WorkspacePhase
  | idle
  | locking (name : String)
  | opening (name : String)
  | writing (name : String)
  | syncing (name : String)
  | working (name : String)
  | sealed (name : String)
  | ready (name : String)
  | pruning (name : String)
  | removing (name : String) (guarded : Bool)
  | forgetting (name : String)
  | releasing (name : String)
  | ended

/-- The directory, the registry beside it, the leases, and the calls; `made` are the directories
that the calls have made. -/
structure WorkspaceRoot where
  entries : String → Option Node
  registry : List (String × MarkerFile)
  lease : String → Option Nat
  calls : Nat → WorkspacePhase
  made : List String

/-- A root in which nothing is registered, whatever else it holds. -/
def WorkspaceRoot.before (entries : String → Option Node) : WorkspaceRoot :=
  ⟨entries, [], fun _ => none, fun _ => .idle, []⟩

/-! ### The clean-up -/

inductive MarkerReading
  | broken
  | unhashable
  | other
  | owned

/-- The marker of a file of the registry. -/
def readMarker (name : String) : MarkerFile → MarkerReading
  | .link => .other
  | .text content =>
    match jsonLoads content with
    | none => .broken
    | some (.dict marker) =>
      match Dict.get marker "kind" with
      | .list _ | .dict _ => .unhashable
      | kind =>
        if pyIn kind (workspaceKinds.map .str) &&
            pyEq (.dict marker) (.dict [("version", .int 1), ("kind", kind), ("name", .str name)])
        then .owned
        else .other
    | some _ => .other

structure CleanupCounts where
  removed : Nat
  failed : Nat

/-- `forget_workspace`. -/
def WorkspaceRoot.forget (s : WorkspaceRoot) (name : String) : WorkspaceRoot :=
  match s.entries name with
  | none => { s with registry := s.registry.filter fun e => e.1 ≠ name }
  | some _ => s

def WorkspaceRoot.setEntry (s : WorkspaceRoot) (name : String) (node : Option Node) :
    WorkspaceRoot :=
  { s with entries := Function.update s.entries name node }

/-- The body of the loop over the markers, with every deletion succeeding. -/
def cleanWorkspace (s : WorkspaceRoot) (counts : CleanupCounts) (name : String) :
    Except PyError (WorkspaceRoot × CleanupCounts) :=
  match s.registry.lookup name with
  | none => .ok (s, counts)
  | some marker =>
    match readMarker name marker with
    | .broken => .ok (s, { counts with failed := counts.failed + 1 })
    | .unhashable => .error (.type "unhashable type")
    | .other => .ok (s, counts)
    | .owned =>
      match s.entries name, s.lease name with
      | some .link, _ => .ok (s, counts)
      | _, some _ => .ok (s, counts)
      | some .file, none => .ok (s, { counts with failed := counts.failed + 1 })
      | some (.dir _), none =>
        .ok ((s.setEntry name none).forget name, { counts with removed := counts.removed + 1 })
      | none, none => .ok (s.forget name, counts)

/-- `cleanup_orphaned_workspaces`, over the markers in the order in which they are listed. -/
def cleanupOrphanedWorkspaces (s : WorkspaceRoot) (listing : List String) :
    Except PyError (WorkspaceRoot × CleanupCounts) :=
  listing.foldlM (fun acc name => cleanWorkspace acc.1 acc.2 name) (s, ⟨0, 0⟩)

/-! ### The steps of the calls -/

/-- What becomes of an attempt to remove a workspace. -/
inductive Removal
  | busy
  | partly (files : List String)
  | fails (files : List String)
  | whole

/-- The next step of a call. -/
inductive WorkspaceTurn
  | mkdtemp (suffix : String)
  | lock (fails : Bool)
  | openMarker (fails : Bool)
  | writeMarker (count : Nat) (fails : Bool)
  | sync (fails : Bool)
  | work (files : List String)
  | writeManifest
  | unlinkOwner
  | publish
  | prune (names : List String)
  | leave
  | remove (removal : Removal)
  | forget (fails : Bool)
  | release
  | stop

inductive WorkspaceAction
  | turn (caller : Nat) (turn : WorkspaceTurn)
  | clean (listing : List String)

namespace WorkspaceRoot

variable (s : WorkspaceRoot)

def goOn (i : Nat) (p : WorkspacePhase) : WorkspaceRoot :=
  { s with calls := Function.update s.calls i p }

/-- The marker as far as it is written. -/
def setMarker (name content : String) : WorkspaceRoot :=
  { s with registry := (name, .text content) :: s.registry.filter fun e => e.1 ≠ name }

/-- Whatever the call holds is let go. -/
def letGo (i : Nat) : WorkspaceRoot :=
  { s with lease := fun name => if s.lease name = some i then none else s.lease name }

def release (i : Nat) (name : String) : WorkspaceRoot :=
  { s with lease := if s.lease name = some i then Function.update s.lease name none else s.lease }

end WorkspaceRoot

/-- `tempfile.mkdtemp`: a new name with the prefix. -/
def stepMkdtemp (job : WorkspaceJob) (s : WorkspaceRoot) (i : Nat) (suffix : String) :
    Option WorkspaceRoot :=
  let name := job.namePrefix ++ suffix
  match s.entries name with
  | some _ => none
  | none =>
    if suffix.toList.all isNameChar then
      some { (s.goOn i (.locking name)).setEntry name (some (.dir [])) with made := name :: s.made }
    else none

/-- The removal of the workspace, in the `finally` of the capture (`guarded`), in that of the
drill and where `create_workspace` fails. -/
def stepRemove (s : WorkspaceRoot) (i : Nat) (name : String) (guarded : Bool) (removal : Removal) :
    Option WorkspaceRoot :=
  match s.entries name, removal with
  | some (.dir _), .busy => if guarded then some (s.goOn i (.releasing name)) else none
  | some (.dir _), .partly files => some (s.setEntry name (some (.dir files)))
  | some (.dir _), .fails files =>
    some ((s.setEntry name (some (.dir files))).goOn i (.releasing name))
  | some (.dir _), .whole => some ((s.setEntry name none).goOn i (.forgetting name))
  | none, _ => some (s.goOn i (if guarded then .forgetting name else .releasing name))
  | _, _ => some (s.goOn i (.releasing name))

def WorkspaceJob.isCapture : WorkspaceJob → Bool
  | .capture _ => true
  | .drill _ => false

def WorkspaceJob.point : WorkspaceJob → Option String
  | .capture hex => some ("full-" ++ hex)
  | .drill _ => none

/-- `os.replace(work, root / point_id)`, with a new identity of the point. -/
def stepPublish (job : WorkspaceJob) (s : WorkspaceRoot) (i : Nat) (name : String) :
    Option WorkspaceRoot :=
  match job.point, s.entries name with
  | some point, some (.dir files) =>
    match s.entries point with
    | some _ => none
    | none => some (((s.setEntry name none).setEntry point (some (.dir files))).goOn i
        (.pruning name))
  | _, _ => none

/-- `prune_snapshots`: points other than the new one go. -/
def WorkspaceRoot.prune (s : WorkspaceRoot) (job : WorkspaceJob) (names : List String) :
    WorkspaceRoot :=
  { s with entries := fun name =>
      if name ∈ names ∧ startsWith name "full-" ∧ job.point ≠ some name then none
      else s.entries name }

/-- The files of the workspace, where it is there. -/
def stepFiles (s : WorkspaceRoot) (i : Nat) (name : String) (p : WorkspacePhase)
    (f : List String → List String) : Option WorkspaceRoot :=
  match s.entries name with
  | some (.dir files) => some ((s.setEntry name (some (.dir (f files)))).goOn i p)
  | _ => none

/-- The step of a call. -/
def stepTurn (jobs : Nat → WorkspaceJob) (s : WorkspaceRoot) (i : Nat) (turn : WorkspaceTurn) :
    Option WorkspaceRoot :=
  let job := jobs i
  match s.calls i, turn with
  | .ended, _ => none
  | _, .stop => some ((s.letGo i).goOn i .ended)
  | .idle, .mkdtemp suffix => stepMkdtemp job s i suffix
  | .locking name, .lock fails =>
    if fails || (s.lease name).isSome then some (s.goOn i (.removing name false))
    else some ({ s with lease := Function.update s.lease name (some i) }.goOn i (.opening name))
  | .opening name, .openMarker fails =>
    if fails || (s.registry.lookup name).isSome then some (s.goOn i (.removing name false))
    else some ((s.setMarker name "").goOn i (.writing name))
  | .writing name, .writeMarker count fails =>
    let text := markerText job.kind name
    let s := s.setMarker name (takeText count text)
    if fails then some (s.goOn i (.removing name false))
    else if count < text.length then some s
    else some (s.goOn i (.syncing name))
  | .syncing name, .sync fails =>
    if fails then some (s.goOn i (.removing name false)) else some (s.goOn i (.working name))
  | .working name, .work files => stepFiles s i name (.working name) fun _ => files
  | .working name, .writeManifest =>
    if job.isCapture then
      stepFiles s i name (.sealed name) fun files => files ++ ["manifest.json"]
    else none
  | .sealed name, .unlinkOwner =>
    stepFiles s i name (.ready name) fun files => files.filter (· ≠ ".capture-owner.json")
  | .ready name, .publish => stepPublish job s i name
  | .pruning _, .prune names => some (s.prune job names)
  | .working name, .leave | .sealed name, .leave | .ready name, .leave | .pruning name, .leave =>
    some (s.goOn i (.removing name job.isCapture))
  | .removing name guarded, .remove removal => stepRemove s i name guarded removal
  | .forgetting name, .forget fails =>
    some ((if fails then s else s.forget name).goOn i (.releasing name))
  | .releasing name, .release => some ((s.release i name).goOn i .ended)
  | _, _ => none

/-- The calls, any of which may be stopped anywhere, and clean-ups in between. -/
def workspaceStep (jobs : Nat → WorkspaceJob) (s : WorkspaceRoot) : WorkspaceAction →
    Option WorkspaceRoot
  | .turn i turn => stepTurn jobs s i turn
  | .clean listing => (cleanupOrphanedWorkspaces s listing).toOption.map Prod.fst

/-! ### Names -/

theorem isNameChar_underscored (inRun : Bool) (cs : List Char) :
    ∀ c ∈ underscored inRun cs, isNameChar c = true := by
  induction cs generalizing inRun with
  | nil => exact fun c hc => (List.not_mem_nil hc).elim
  | cons d cs ih =>
    intro c hc
    unfold underscored at hc
    split at hc
    · rename_i hd
      rcases List.mem_cons.mp hc with rfl | hc
      · exact hd
      · exact ih false c hc
    · split at hc
      · exact ih true c hc
      · rcases List.mem_cons.mp hc with rfl | hc
        · decide
        · exact ih true c hc

theorem isNameChar_safeName (value : String) :
    ∀ c ∈ (safeName value).toList, isNameChar c = true := by
  intro c hc
  unfold safeName at hc
  dsimp only at hc
  generalize (if value = "" then "pair" else value) = text at hc
  split at hc
  · exact List.all_eq_true.mp (show "pair".toList.all isNameChar = true by decide) c hc
  · refine isNameChar_underscored false text.toList c ?_
    unfold takeText lstripOf rstripOf at hc
    simp only [String.toList_ofList] at hc
    have hstripped := (List.dropWhile_sublist _).subset (List.mem_of_mem_take hc)
    exact (List.rdropWhile_prefix _ _).subset hstripped

/-- What `mkdtemp` makes of the prefix of a job. -/
theorem isWorkspaceName_prefix (job : WorkspaceJob) {suffix : String}
    (h : suffix.toList.all isNameChar = true) :
    isWorkspaceName (job.namePrefix ++ suffix) = true := by
  have hparts : ∃ rest, job.namePrefix = "restore-" ++ rest ∧
      ∀ c ∈ rest.toList, isNameChar c = true := by
    cases job with
    | capture hex =>
      exact ⟨"snapshot-capture-", rfl, List.all_eq_true.mp (by decide)⟩
    | drill pair =>
      refine ⟨safeName pair ++ "-", String.append_assoc .., fun c hc => ?_⟩
      rw [String.toList_append] at hc
      rcases List.mem_append.mp hc with hc | hc
      · exact isNameChar_safeName pair c hc
      · exact List.all_eq_true.mp (show "-".toList.all isNameChar = true by decide) c hc
  obtain ⟨rest, hrest, hchars⟩ := hparts
  unfold isWorkspaceName
  rw [hrest, String.append_assoc, startsWith_append, Bool.true_and, List.all_eq_true]
  intro c hc
  rw [String.toList_append, String.toList_append] at hc
  rcases List.mem_append.mp hc with hc | hc
  · exact List.all_eq_true.mp (show "restore-".toList.all isNameChar = true by decide) c hc
  · rcases List.mem_append.mp hc with hc | hc
    · exact hchars c hc
    · exact List.all_eq_true.mp h c hc

/-- No workspace has the name of a published point. -/
theorem not_point_of_workspace {name : String} (h : isWorkspaceName name = true) :
    startsWith name "full-" = false := by
  obtain ⟨hstart, -⟩ := (Bool.and_eq_true _ _).mp h
  obtain ⟨rest, hrest⟩ := List.isPrefixOf_iff_prefix.mp hstart
  unfold startsWith
  rw [← hrest]
  rfl

/-! ### Markers -/

theorem toNat_lt_of_isNameChar {c : Char} (h : isNameChar c = true) : c.toNat < 127 := by
  unfold isNameChar at h
  simp only [Bool.or_eq_true, decide_eq_true_eq] at h
  rcases h with ((h | rfl) | rfl) | rfl
  · have hcase : (c.isAlpha || c.isDigit) = true := h
    rcases (Bool.or_eq_true _ _).mp hcase with hletter | hdigit
    · exact (toNat_letter_le hletter).trans_lt (by decide)
    · exact (Char.isDigit_iff_toNat.mp hdigit).2.trans_lt (by decide)
  · decide
  · decide
  · decide

theorem jsonText_ascii {s : String} (h : ∀ c ∈ s.toList, isNameChar c = true) :
    jsonText true s = jsonText false s := by
  have hchar : ∀ c ∈ s.toList, jsonChar true c = jsonChar false c := fun c hc => by
    have hsmall : ¬ 127 ≤ c.toNat := not_le.mpr (toNat_lt_of_isNameChar (h c hc))
    unfold jsonChar
    simp [hsmall]
  unfold jsonText
  rw [List.flatMap_congr hchar]

theorem jsonDumps_marker {kind name : String} (hkind : kind ∈ workspaceKinds)
    (hname : isWorkspaceName name = true) :
    markerText kind name = jsonDumps plainJson (.dict (markerOf kind name)) := by
  have hchars : ∀ c ∈ name.toList, isNameChar c = true :=
    List.all_eq_true.mp ((Bool.and_eq_true _ _).mp hname).2
  have hkinds : ∀ kind ∈ workspaceKinds, kind.toList.all isNameChar = true := by decide
  have hkindText := jsonText_ascii (List.all_eq_true.mp (hkinds kind hkind))
  have hnameText := jsonText_ascii hchars
  have hkeys : ∀ key ∈ ["version", "kind", "name"], jsonText true key = jsonText false key :=
    fun key hkey => jsonText_ascii (List.all_eq_true.mp
      ((show ∀ key ∈ ["version", "kind", "name"], key.toList.all isNameChar = true by decide)
        key hkey))
  unfold markerText markerOf plainJson
  simp only [jsonDumps, jsonMembers, hkindText, hnameText, List.map_cons, List.map_nil,
    hkeys "version" (by simp), hkeys "kind" (by simp), hkeys "name" (by simp), Bool.false_eq_true,
    ↓reduceIte]

theorem wellFormed_marker (kind name : String) :
    (Value.dict (markerOf kind name)).wellFormed = true := by
  unfold markerOf
  simp [Value.wellFormed, wellFormedEntries]

theorem pyEq_marker (kind name : String) :
    pyEq (.dict (markerOf kind name)) (.dict (markerOf kind name)) = true := by
  unfold markerOf
  simp [pyEq, pyEqEntries, List.lookup_cons]
  decide

/-- A marker that is whole is the workspace's own. -/
theorem readMarker_whole {kind name : String} (hkind : kind ∈ workspaceKinds)
    (hname : isWorkspaceName name = true) :
    readMarker name (.text (markerText kind name)) = .owned := by
  have hin : pyIn (.str kind) (workspaceKinds.map .str) = true := by
    unfold pyIn
    rw [List.any_eq_true]
    exact ⟨.str kind, List.mem_map_of_mem hkind, by simp [pyEq]⟩
  have hloads : jsonLoads (markerText kind name) = some (.dict (markerOf kind name)) := by
    rw [jsonDumps_marker hkind hname, jsonLoads_jsonDumps (wellFormed_marker kind name)]
  have hget : Dict.get (markerOf kind name) "kind" = .str kind := rfl
  unfold readMarker
  dsimp only
  rw [hloads]
  dsimp only
  rw [hget]
  dsimp only
  rw [hin, Bool.true_and]
  exact if_pos (pyEq_marker kind name)

theorem markerText_head (kind name : String) :
    ∃ rest, (markerText kind name).toList = '\x7b' :: rest := by
  unfold markerText
  rw [jsonDumps]
  dsimp only
  rw [String.append_assoc, String.toList_append]
  exact ⟨_, rfl⟩

theorem reads_marker {kind name : String} (hkind : kind ∈ workspaceKinds)
    (hname : isWorkspaceName name = true) :
    readValue (markerText kind name).length (markerText kind name).toList =
      some (.dict (markerOf kind name), []) := by
  have hblanks : Blanks [' '] := fun c hc => by
    rw [List.mem_singleton.mp hc]
    decide
  have hstyle : gapJson [' '] = plainJson := rfl
  have hread := readsBack hblanks (.dict (markerOf kind name)) (wellFormed_marker kind name)
    (markerText kind name).length []
  rw [hstyle, ← jsonDumps_marker hkind hname, List.append_nil] at hread
  exact hread (by rw [String.length_toList]) trivial

/-- A marker that is cut off is not read. -/
theorem readMarker_cut {kind name : String} (hkind : kind ∈ workspaceKinds)
    (hname : isWorkspaceName name = true) {count : Nat}
    (hcount : count < (markerText kind name).length) :
    readMarker name (.text (takeText count (markerText kind name))) = .broken := by
  have hread := reads_marker hkind hname
  have hopens : Opens ((markerText kind name).toList.take count ++
      (markerText kind name).toList.drop count) := by
    obtain ⟨rest, hrest⟩ := markerText_head kind name
    rw [List.take_append_drop, hrest]
    exact .inr (.inr rfl)
  rw [← List.take_append_drop count (markerText kind name).toList] at hread
  have hmore : (markerText kind name).toList.drop count ≠ [] := by
    intro hnil
    have hlength := congrArg List.length hnil
    rw [List.length_drop, String.length_toList, List.length_nil] at hlength
    omega
  unfold readMarker takeText
  dsimp only
  rw [jsonLoads_cut hread hopens hmore]

/-! ### What the clean-up does -/

/-- Nothing but what `create_workspace` writes stands in the registry. -/
def Registered (s : WorkspaceRoot) : Prop :=
  ∀ e ∈ s.registry, isWorkspaceName e.1 = true ∧
    ∃ kind ∈ workspaceKinds, ∃ count, e.2 = .text (takeText count (markerText kind e.1))

/-- A workspace that nobody has any more: its marker is whole, its lease is free. -/
def Orphaned (s : WorkspaceRoot) (name : String) : Prop :=
  (∃ kind ∈ workspaceKinds, s.registry.lookup name = some (.text (markerText kind name))) ∧
    s.lease name = none ∧ (s.entries name = none ∨ ∃ files, s.entries name = some (.dir files))

/-- The directory and the marker go. -/
def WorkspaceRoot.swept (s : WorkspaceRoot) (name : String) : WorkspaceRoot :=
  { s.setEntry name none with registry := s.registry.filter fun e => e.1 ≠ name }

theorem forget_setEntry (s : WorkspaceRoot) (name : String) :
    (s.setEntry name none).forget name = s.swept name := by
  unfold WorkspaceRoot.forget
  rw [show (s.setEntry name none).entries name = none from Function.update_self _ _ _]
  rfl

theorem forget_absent {s : WorkspaceRoot} {name : String} (h : s.entries name = none) :
    s.forget name = s.swept name := by
  have hsame : s.setEntry name none = s := by
    unfold WorkspaceRoot.setEntry
    rw [← h, Function.update_eq_self]
  rw [← forget_setEntry, hsame]

theorem takeText_of_length_le (s : String) {count : Nat} (h : s.length ≤ count) :
    takeText count s = s := by
  unfold takeText
  rw [List.take_of_length_le (by rwa [String.length_toList]), String.ofList_toList]

/-- **One marker.**  The workspace goes if it is orphaned, and otherwise nothing happens. -/
theorem cleanWorkspace_ok {s : WorkspaceRoot} (hs : Registered s) (counts : CleanupCounts)
    (name : String) : ∃ t counts', cleanWorkspace s counts name = .ok (t, counts') ∧
      ((t = s ∧ ¬ Orphaned s name) ∨ (t = s.swept name ∧ Orphaned s name)) := by
  unfold cleanWorkspace
  cases hlookup : s.registry.lookup name with
  | none =>
    refine ⟨s, counts, rfl, .inl ⟨rfl, ?_⟩⟩
    rintro ⟨⟨kind, -, hmarker⟩, -⟩
    cases hlookup.symm.trans hmarker
  | some marker =>
    obtain ⟨hname, kind, hkind, count, hmarker⟩ := hs (name, marker) (mem_of_lookup hlookup)
    dsimp only at hname hmarker ⊢
    subst hmarker
    by_cases hcount : count < (markerText kind name).length
    · have hcut := readMarker_cut hkind hname hcount
      rw [hcut]
      refine ⟨s, _, rfl, .inl ⟨rfl, ?_⟩⟩
      rintro ⟨⟨kind', hkind', hmarker⟩, -⟩
      rw [Option.some.inj (hlookup.symm.trans hmarker), readMarker_whole hkind' hname] at hcut
      cases hcut
    · rw [takeText_of_length_le _ (not_lt.mp hcount)] at hlookup ⊢
      rw [readMarker_whole hkind hname]
      cases hentry : s.entries name with
      | none =>
        cases hlease : s.lease name with
        | none =>
          exact ⟨s.forget name, counts, rfl, .inr ⟨forget_absent hentry,
            ⟨kind, hkind, hlookup⟩, hlease, .inl hentry⟩⟩
        | some i =>
          refine ⟨s, counts, rfl, .inl ⟨rfl, fun horphaned => ?_⟩⟩
          cases hlease.symm.trans horphaned.2.1
      | some node =>
        cases node with
        | link =>
          refine ⟨s, counts, rfl, .inl ⟨rfl, fun horphaned => ?_⟩⟩
          rcases horphaned.2.2 with hnone | ⟨files, hdir⟩
          · cases hentry.symm.trans hnone
          · cases hentry.symm.trans hdir
        | file =>
          have hnot : ¬ Orphaned s name := fun horphaned => by
            rcases horphaned.2.2 with hnone | ⟨files, hdir⟩
            · cases hentry.symm.trans hnone
            · cases hentry.symm.trans hdir
          cases s.lease name with
          | none => exact ⟨s, _, rfl, .inl ⟨rfl, hnot⟩⟩
          | some i => exact ⟨s, _, rfl, .inl ⟨rfl, hnot⟩⟩
        | dir files =>
          cases hlease : s.lease name with
          | none =>
            exact ⟨_, _, rfl, .inr ⟨forget_setEntry s name,
              ⟨kind, hkind, hlookup⟩, hlease, .inr ⟨files, hentry⟩⟩⟩
          | some i =>
            refine ⟨s, counts, rfl, .inl ⟨rfl, fun horphaned => ?_⟩⟩
            cases hlease.symm.trans horphaned.2.1

/-- What the clean-up leaves. -/
structure Cleaned (s : WorkspaceRoot) (listing : List String) (t : WorkspaceRoot) : Prop where
  gone : ∀ name ∈ listing, Orphaned s name → t.entries name = none
  kept : ∀ name, (name ∈ listing → ¬ Orphaned s name) → t.entries name = s.entries name
  registry : t.registry.Sublist s.registry
  lease : t.lease = s.lease
  calls : t.calls = s.calls
  made : t.made = s.made

theorem lookup_filter_ne {registry : List (String × MarkerFile)} {name other : String}
    (h : other ≠ name) :
    (registry.filter fun e => e.1 ≠ name).lookup other = registry.lookup other := by
  induction registry with
  | nil => rfl
  | cons e registry ih =>
    obtain ⟨key, marker⟩ := e
    by_cases hkey : key = name
    · have hother : (other == key) = false := by
        rw [hkey]
        exact beq_eq_false_iff_ne.mpr h
      rw [List.filter_cons_of_neg (by simp [hkey]), ih, List.lookup_cons, hother]
    · rw [List.filter_cons_of_pos (by simp [hkey]), List.lookup_cons, List.lookup_cons, ih]

/-- Another workspace is orphaned as before. -/
theorem orphaned_swept {s : WorkspaceRoot} {name other : String} (h : other ≠ name) :
    Orphaned (s.swept name) other ↔ Orphaned s other := by
  unfold Orphaned WorkspaceRoot.swept WorkspaceRoot.setEntry
  dsimp only
  rw [lookup_filter_ne h, Function.update_of_ne h]

/-- **The loop**, by induction on the listing. -/
theorem cleanup_cleaned (listing : List String) {s : WorkspaceRoot} (hs : Registered s)
    (counts : CleanupCounts) : ∃ t counts',
      listing.foldlM (fun acc name => cleanWorkspace acc.1 acc.2 name) (s, counts) =
        (.ok (t, counts') : Except PyError (WorkspaceRoot × CleanupCounts)) ∧
      Cleaned s listing t := by
  induction listing generalizing s counts with
  | nil => exact ⟨s, counts, rfl, fun _ h => (List.not_mem_nil h).elim, fun _ _ => rfl,
      List.Sublist.refl _, rfl, rfl, rfl⟩
  | cons name listing ih =>
    obtain ⟨u, counts', hclean, hu⟩ := cleanWorkspace_ok hs counts name
    rw [List.foldlM_cons]
    dsimp only
    rw [hclean]
    rcases hu with ⟨rfl, hnot⟩ | ⟨rfl, horphaned⟩
    · obtain ⟨t, counts'', hloop, h⟩ := ih hs counts'
      refine ⟨t, counts'', hloop, fun m hm hmo => ?_, fun m hm => ?_, h.registry, h.lease, h.calls,
        h.made⟩
      · rcases List.mem_cons.mp hm with rfl | hm
        · exact absurd hmo hnot
        · exact h.gone m hm hmo
      · exact h.kept m fun hmem => hm (List.mem_cons_of_mem _ hmem)
    · have hregistered : Registered (s.swept name) :=
        fun e he => hs e (List.filter_sublist.subset he)
      obtain ⟨t, counts'', hloop, h⟩ := ih hregistered counts'
      have hentries : ∀ m, m ≠ name → (s.swept name).entries m = s.entries m :=
        fun m hm => Function.update_of_ne hm _ _
      have hnone : (s.swept name).entries name = none := Function.update_self _ _ _
      refine ⟨t, counts'', hloop, fun m hm hmo => ?_, fun m hm => ?_,
        h.registry.trans List.filter_sublist, h.lease, h.calls, h.made⟩
      · rcases eq_or_ne m name with rfl | hne
        · by_cases hagain : m ∈ listing ∧ Orphaned (s.swept m) m
          · exact h.gone m hagain.1 hagain.2
          · rw [h.kept m fun hmem ho => hagain ⟨hmem, ho⟩, hnone]
        · have hmem := (List.mem_cons.mp hm).resolve_left hne
          exact h.gone m hmem ((orphaned_swept hne).mpr hmo)
      · rcases eq_or_ne m name with rfl | hne
        · exact absurd horphaned (hm List.mem_cons_self)
        · rw [h.kept m fun hmem ho =>
            hm (List.mem_cons_of_mem _ hmem) ((orphaned_swept hne).mp ho), hentries m hne]

/-! ### What the calls do -/

/-- The workspace of a call that is on. -/
def WorkspacePhase.workdir : WorkspacePhase → Option String
  | .idle | .ended => none
  | .locking name | .opening name | .writing name | .syncing name | .working name | .sealed name
  | .ready name | .pruning name | .removing name _ | .forgetting name | .releasing name => some name

/-- The workspace that a call writes to under its lease. -/
def WorkspacePhase.leased : WorkspacePhase → Option String
  | .opening name | .writing name | .syncing name | .working name | .sealed name | .ready name
  | .pruning name => some name
  | .idle | .locking _ | .removing _ _ | .forgetting _ | .releasing _ | .ended => none

/-- What holds in every state of a run from a root with these entries. -/
structure WorkspaceInv (before : String → Option Node) (s : WorkspaceRoot) : Prop where
  names : ∀ name ∈ s.made, isWorkspaceName name = true
  fresh : ∀ name ∈ s.made, before name = none
  foreign : ∀ name, before name ≠ none → startsWith name "full-" = false →
    s.entries name = before name
  registered : Registered s
  owned : ∀ e ∈ s.registry, e.1 ∈ s.made
  workdir : ∀ i name, (s.calls i).workdir = some name → name ∈ s.made
  leased : ∀ i name, (s.calls i).leased = some name → s.lease name = some i

/-- What a step of a call may change. -/
structure WorkspaceMove (s : WorkspaceRoot) (i : Nat) (t : WorkspaceRoot) : Prop where
  made : t.made = s.made ∨ ∃ name, t.made = name :: s.made ∧ isWorkspaceName name = true ∧
    s.entries name = none
  entries : ∀ name, t.entries name = s.entries name ∨ name ∈ t.made ∨
    startsWith name "full-" = true
  registry : ∀ e ∈ t.registry, e ∈ s.registry ∨ (e.1 ∈ s.made ∧
    ∃ kind ∈ workspaceKinds, ∃ count, e.2 = .text (takeText count (markerText kind e.1)))
  others : ∀ j, j ≠ i → t.calls j = s.calls j
  workdir : ∀ name, (t.calls i).workdir = some name → name ∈ t.made
  lease : ∀ j name, j ≠ i → s.lease name = some j → t.lease name = some j
  leased : ∀ name, (t.calls i).leased = some name → t.lease name = some i

variable {before : String → Option Node} {s t u : WorkspaceRoot} {jobs : Nat → WorkspaceJob}

/-- **The step**, from what it may change. -/
theorem WorkspaceInv.move {i : Nat} (h : WorkspaceInv before s) (hmove : WorkspaceMove s i t) :
    WorkspaceInv before t := by
  have hnew : ∀ name ∈ t.made, isWorkspaceName name = true ∧ before name = none := by
    intro name hname
    rcases hmove.made with hmade | ⟨new, hmade, hnew, hnone⟩
    · rw [hmade] at hname
      exact ⟨h.names name hname, h.fresh name hname⟩
    · rw [hmade] at hname
      rcases List.mem_cons.mp hname with rfl | hname
      · refine ⟨hnew, ?_⟩
        by_contra hbefore
        rw [h.foreign name hbefore (not_point_of_workspace hnew)] at hnone
        exact hbefore hnone
      · exact ⟨h.names name hname, h.fresh name hname⟩
  have hgrows : ∀ name ∈ s.made, name ∈ t.made := by
    intro name hname
    rcases hmove.made with hmade | ⟨new, hmade, -⟩
    · rwa [hmade]
    · rw [hmade]
      exact List.mem_cons_of_mem _ hname
  refine ⟨fun name hname => (hnew name hname).1, fun name hname => (hnew name hname).2,
    fun name hbefore hfull => ?_, fun e he => ?_, fun e he => ?_, fun j name hj => ?_,
    fun j name hj => ?_⟩
  · rcases hmove.entries name with hsame | hmade | hpoint
    · rw [hsame]
      exact h.foreign name hbefore hfull
    · exact absurd (hnew name hmade).2 hbefore
    · cases hfull.symm.trans hpoint
  · rcases hmove.registry e he with he | ⟨hmade, hmarker⟩
    · exact h.registered e he
    · exact ⟨h.names _ hmade, hmarker⟩
  · rcases hmove.registry e he with he | ⟨hmade, -⟩
    · exact hgrows _ (h.owned e he)
    · exact hgrows _ hmade
  · rcases eq_or_ne j i with rfl | hne
    · exact hmove.workdir name hj
    · rw [hmove.others j hne] at hj
      exact hgrows _ (h.workdir j name hj)
  · rcases eq_or_ne j i with rfl | hne
    · exact hmove.leased name hj
    · rw [hmove.others j hne] at hj
      exact hmove.lease j name hne (h.leased j name hj)

/-- A call that stays where it is. -/
theorem goOn_same {i : Nat} {p : WorkspacePhase} (h : s.calls i = p) : s.goOn i p = s := by
  unfold WorkspaceRoot.goOn
  rw [← h, Function.update_eq_self]

/-- A step that leaves the leases alone and stays with the workspace of the call. -/
theorem WorkspaceInv.moveOf (h : WorkspaceInv before s) {i : Nat} {p : WorkspacePhase}
    (hcalls : t.calls = Function.update s.calls i p) (hmade : t.made = s.made)
    (hlease : t.lease = s.lease)
    (hentries : ∀ name, t.entries name = s.entries name ∨ name ∈ s.made ∨
      startsWith name "full-" = true)
    (hregistry : ∀ e ∈ t.registry, e ∈ s.registry ∨ (e.1 ∈ s.made ∧
      ∃ kind ∈ workspaceKinds, ∃ count, e.2 = .text (takeText count (markerText kind e.1))))
    (hworkdir : p.workdir = (s.calls i).workdir)
    (hleased : p.leased = none ∨ p.leased = (s.calls i).leased) : WorkspaceMove s i t := by
  have hown : t.calls i = p := by rw [hcalls, Function.update_self]
  refine ⟨.inl hmade, fun name => ?_, hregistry, fun j hj => ?_, fun name hname => ?_,
    fun j name _ hj => ?_, fun name hname => ?_⟩
  · rw [hmade]
    exact hentries name
  · rw [hcalls, Function.update_of_ne hj]
  · rw [hown, hworkdir] at hname
    rw [hmade]
    exact h.workdir i name hname
  · rwa [hlease]
  · rw [hown] at hname
    rw [hlease]
    rcases hleased with hnone | hsame
    · cases hnone.symm.trans hname
    · rw [hsame] at hname
      exact h.leased i name hname

/-- A step that only goes on. -/
theorem WorkspaceInv.moveOn (h : WorkspaceInv before s) {i : Nat} {p : WorkspacePhase}
    (hworkdir : p.workdir = (s.calls i).workdir)
    (hleased : p.leased = none ∨ p.leased = (s.calls i).leased) :
    WorkspaceMove s i (s.goOn i p) :=
  h.moveOf rfl rfl rfl (fun _ => .inl rfl) (fun _ he => .inl he) hworkdir hleased

/-- A step that changes the directory of the call. -/
theorem WorkspaceInv.moveEntry (h : WorkspaceInv before s) {i : Nat} {p : WorkspacePhase}
    {name : String} (hname : (s.calls i).workdir = some name) (node : Option Node)
    (hworkdir : p.workdir = (s.calls i).workdir)
    (hleased : p.leased = none ∨ p.leased = (s.calls i).leased) :
    WorkspaceMove s i ((s.setEntry name node).goOn i p) := by
  refine h.moveOf rfl rfl rfl (fun other => ?_) (fun _ he => .inl he) hworkdir hleased
  rcases eq_or_ne other name with rfl | hne
  · exact .inr (.inl (h.workdir i other hname))
  · exact .inl (Function.update_of_ne hne _ _)

/-- A step that writes the marker of the call, or what is there of it. -/
theorem WorkspaceInv.moveMarker (h : WorkspaceInv before s) {i : Nat} {p : WorkspacePhase}
    {name kind : String} (hname : (s.calls i).workdir = some name) (hkind : kind ∈ workspaceKinds)
    (count : Nat) (hworkdir : p.workdir = (s.calls i).workdir)
    (hleased : p.leased = none ∨ p.leased = (s.calls i).leased) :
    WorkspaceMove s i ((s.setMarker name (takeText count (markerText kind name))).goOn i p) := by
  refine h.moveOf rfl rfl rfl (fun _ => .inl rfl) (fun e he => ?_) hworkdir hleased
  rcases List.mem_cons.mp he with rfl | he
  · exact .inr ⟨h.workdir i name hname, kind, hkind, count, rfl⟩
  · exact .inl (List.filter_sublist.subset he)

theorem kind_mem (job : WorkspaceJob) : job.kind ∈ workspaceKinds := by
  cases job with
  | capture hex => exact show "snapshot-capture" ∈ workspaceKinds by decide
  | drill pair => exact show "restore-drill" ∈ workspaceKinds by decide

section Turns

variable {i : Nat} {name : String}

theorem move_mkdtemp {job : WorkspaceJob} {suffix : String}
    (ht : stepMkdtemp job s i suffix = some t) : WorkspaceMove s i t := by
  unfold stepMkdtemp at ht
  dsimp only at ht
  split at ht
  · cases ht
  · rename_i hnone
    obtain ⟨hsuffix, ht⟩ := Option.ite_none_right_eq_some.mp ht
    obtain rfl := Option.some.inj ht
    have hown : Function.update s.calls i (WorkspacePhase.locking (job.namePrefix ++ suffix)) i =
        .locking (job.namePrefix ++ suffix) := Function.update_self _ _ _
    refine ⟨.inr ⟨_, rfl, isWorkspaceName_prefix job hsuffix, hnone⟩, fun other => ?_,
      fun _ he => .inl he, fun j hj => Function.update_of_ne hj _ _, fun other hother => ?_,
      fun j other _ hj => hj, fun other hother => ?_⟩
    · rcases eq_or_ne other (job.namePrefix ++ suffix) with rfl | hne
      · exact .inr (.inl List.mem_cons_self)
      · exact .inl (Function.update_of_ne hne _ _)
    · obtain rfl := Option.some.inj ((congrArg WorkspacePhase.workdir hown).symm.trans hother)
      exact List.mem_cons_self
    · cases (congrArg WorkspacePhase.leased hown).symm.trans hother

theorem WorkspaceInv.move_lock (h : WorkspaceInv before s) {i : Nat}
    (hphase : s.calls i = .locking name) (hfree : s.lease name = none) : WorkspaceMove s i
      ({ s with lease := Function.update s.lease name (some i) }.goOn i (.opening name)) := by
  have hown : Function.update s.calls i (WorkspacePhase.opening name) i = .opening name :=
    Function.update_self _ _ _
  refine ⟨.inl rfl, fun _ => .inl rfl, fun _ he => .inl he,
    fun j hj => Function.update_of_ne hj _ _, fun other hother => ?_, fun j other _ hj => ?_,
    fun other hother => ?_⟩
  · refine h.workdir i other ?_
    rw [hphase]
    exact (congrArg WorkspacePhase.workdir hown).symm.trans hother
  · have hne : other ≠ name := by
      rintro rfl
      cases hfree.symm.trans hj
    exact (Function.update_of_ne hne _ _).trans hj
  · have hname : other = name :=
      (Option.some.inj ((congrArg WorkspacePhase.leased hown).symm.trans hother)).symm
    rw [hname]
    exact Function.update_self _ _ _

theorem WorkspaceInv.move_files (h : WorkspaceInv before s) {p : WorkspacePhase}
    {f : List String → List String} (hname : (s.calls i).workdir = some name)
    (hworkdir : p.workdir = (s.calls i).workdir)
    (hleased : p.leased = none ∨ p.leased = (s.calls i).leased)
    (ht : stepFiles s i name p f = some t) : WorkspaceMove s i t := by
  unfold stepFiles at ht
  split at ht
  · obtain rfl := Option.some.inj ht
    exact h.moveEntry hname _ hworkdir hleased
  · cases ht

theorem WorkspaceInv.move_remove (h : WorkspaceInv before s) {guarded : Bool} {removal : Removal}
    (hphase : s.calls i = .removing name guarded)
    (ht : stepRemove s i name guarded removal = some t) : WorkspaceMove s i t := by
  have hname : (s.calls i).workdir = some name := by rw [hphase]; rfl
  have hreleasing : (WorkspacePhase.releasing name).workdir = (s.calls i).workdir := hname.symm
  have hforgetting : (WorkspacePhase.forgetting name).workdir = (s.calls i).workdir := hname.symm
  unfold stepRemove at ht
  split at ht
  · obtain ⟨-, ht⟩ := Option.ite_none_right_eq_some.mp ht
    obtain rfl := Option.some.inj ht
    exact h.moveOn hreleasing (.inl rfl)
  · rename_i files _
    obtain rfl := Option.some.inj ht
    have hstays := h.moveEntry (p := s.calls i) hname (some (.dir files)) rfl (.inr rfl)
    have hsame : (s.setEntry name (some (.dir files))).goOn i (s.calls i) = _ := goOn_same rfl
    rwa [hsame] at hstays
  · obtain rfl := Option.some.inj ht
    exact h.moveEntry hname _ hreleasing (.inl rfl)
  · obtain rfl := Option.some.inj ht
    exact h.moveEntry hname _ hforgetting (.inl rfl)
  · obtain rfl := Option.some.inj ht
    cases guarded with
    | true => exact h.moveOn hforgetting (.inl rfl)
    | false => exact h.moveOn hreleasing (.inl rfl)
  · obtain rfl := Option.some.inj ht
    exact h.moveOn hreleasing (.inl rfl)

theorem WorkspaceInv.move_publish (h : WorkspaceInv before s) {job : WorkspaceJob}
    (hphase : s.calls i = .ready name) (ht : stepPublish job s i name = some t) :
    WorkspaceMove s i t := by
  have hname : (s.calls i).workdir = some name := by rw [hphase]; rfl
  unfold stepPublish at ht
  split at ht
  · rename_i point files hpoint hentry
    split at ht
    · cases ht
    · obtain rfl := Option.some.inj ht
      refine h.moveOf rfl rfl rfl (fun other => ?_) (fun _ he => .inl he) hname.symm
        (.inr (by rw [hphase]; rfl))
      rcases eq_or_ne other point with rfl | hpt
      · cases job with
        | capture hex =>
          obtain rfl := Option.some.inj hpoint
          exact .inr (.inr (startsWith_append _ _))
        | drill pair => cases hpoint
      · rcases eq_or_ne other name with rfl | hne
        · exact .inr (.inl (h.workdir i other hname))
        · refine .inl ?_
          exact (Function.update_of_ne hpt _ _).trans (Function.update_of_ne hne _ _)
  · cases ht

theorem WorkspaceInv.move_prune (h : WorkspaceInv before s) (job : WorkspaceJob)
    (names : List String) : WorkspaceMove s i (s.prune job names) := by
  refine h.moveOf (p := s.calls i) (Function.update_eq_self i s.calls).symm rfl rfl
    (fun other => ?_) (fun _ he => .inl he) rfl (.inr rfl)
  unfold WorkspaceRoot.prune
  dsimp only
  split
  · rename_i hpruned
    exact .inr (.inr hpruned.2.1)
  · exact .inl rfl

theorem WorkspaceInv.move_forget (h : WorkspaceInv before s) (fails : Bool)
    (hphase : s.calls i = .forgetting name) :
    WorkspaceMove s i ((if fails then s else s.forget name).goOn i (.releasing name)) := by
  have hworkdir : (WorkspacePhase.releasing name).workdir = (s.calls i).workdir := by
    rw [hphase]
    rfl
  cases fails with
  | true => exact h.moveOn hworkdir (.inl rfl)
  | false =>
    unfold WorkspaceRoot.forget
    cases s.entries name with
    | none =>
      exact h.moveOf rfl rfl rfl (fun _ => .inl rfl)
        (fun e he => .inl (List.filter_sublist.subset he)) hworkdir (.inl rfl)
    | some node => exact h.moveOn hworkdir (.inl rfl)

/-- The end of a call: no other call loses its lease. -/
theorem WorkspaceMove.ended (hlease : ∀ j name, j ≠ i → s.lease name = some j →
    t.lease name = some j) (hcalls : t.calls = Function.update s.calls i .ended)
    (hmade : t.made = s.made) (hentries : t.entries = s.entries)
    (hregistry : t.registry = s.registry) : WorkspaceMove s i t := by
  have hown : t.calls i = .ended := by rw [hcalls, Function.update_self]
  refine ⟨.inl hmade, fun _ => .inl (by rw [hentries]), fun e he => .inl (hregistry ▸ he),
    fun j hj => ?_, fun name hname => ?_, hlease, fun name hname => ?_⟩
  · rw [hcalls, Function.update_of_ne hj]
  · rw [hown] at hname
    cases hname
  · rw [hown] at hname
    cases hname

end Turns

/-- Every step of a call. -/
theorem WorkspaceInv.move_turn (h : WorkspaceInv before s) {i : Nat} {turn : WorkspaceTurn}
    (ht : stepTurn jobs s i turn = some t) : WorkspaceMove s i t := by
  unfold stepTurn at ht
  dsimp only at ht
  split at ht
  · cases ht
  · obtain rfl := Option.some.inj ht
    refine .ended (fun j name hne hj => ?_) rfl rfl rfl rfl
    have hother : s.lease name ≠ some i := by
      rw [hj]
      exact fun hji => hne (Option.some.inj hji)
    exact (if_neg hother).trans hj
  · exact move_mkdtemp ht
  · rename_i name fails hphase
    split at ht
    · obtain rfl := Option.some.inj ht
      exact h.moveOn (by rw [hphase]; rfl) (.inl rfl)
    · rename_i hfree
      obtain rfl := Option.some.inj ht
      obtain ⟨-, hfree⟩ := not_or.mp fun hor => hfree ((Bool.or_eq_true _ _).mpr hor)
      exact h.move_lock hphase (Option.not_isSome_iff_eq_none.mp hfree)
  · rename_i name fails hphase
    have hname : (s.calls i).workdir = some name := by rw [hphase]; rfl
    split at ht
    · obtain rfl := Option.some.inj ht
      exact h.moveOn hname.symm (.inl rfl)
    · obtain rfl := Option.some.inj ht
      exact h.moveMarker hname (kind_mem (jobs i)) 0 hname.symm (.inr (by rw [hphase]; rfl))
  · rename_i name count fails hphase
    have hname : (s.calls i).workdir = some name := by rw [hphase]; rfl
    split at ht
    · obtain rfl := Option.some.inj ht
      exact h.moveMarker hname (kind_mem (jobs i)) count hname.symm (.inl rfl)
    · split at ht
      · obtain rfl := Option.some.inj ht
        have hstays := h.moveMarker (p := s.calls i) hname (kind_mem (jobs i)) count rfl (.inr rfl)
        have hsame : (s.setMarker name (takeText count (markerText (jobs i).kind name))).goOn i
            (s.calls i) = _ := goOn_same rfl
        rwa [hsame] at hstays
      · obtain rfl := Option.some.inj ht
        exact h.moveMarker hname (kind_mem (jobs i)) count hname.symm (.inr (by rw [hphase]; rfl))
  · rename_i name fails hphase
    split at ht
    · obtain rfl := Option.some.inj ht
      exact h.moveOn (by rw [hphase]; rfl) (.inl rfl)
    · obtain rfl := Option.some.inj ht
      exact h.moveOn (by rw [hphase]; rfl) (.inr (by rw [hphase]; rfl))
  · rename_i name files hphase
    exact h.move_files (by rw [hphase]; rfl) (by rw [hphase]) (.inr (by rw [hphase])) ht
  · rename_i name hphase
    obtain ⟨-, ht⟩ := Option.ite_none_right_eq_some.mp ht
    exact h.move_files (by rw [hphase]; rfl) (by rw [hphase]; rfl) (.inr (by rw [hphase]; rfl)) ht
  · rename_i name hphase
    exact h.move_files (by rw [hphase]; rfl) (by rw [hphase]; rfl) (.inr (by rw [hphase]; rfl)) ht
  · rename_i name hphase
    exact h.move_publish hphase ht
  · obtain rfl := Option.some.inj ht
    exact h.move_prune _ _
  iterate 4
    · rename_i name hphase
      obtain rfl := Option.some.inj ht
      exact h.moveOn (by rw [hphase]; rfl) (.inl rfl)
  · rename_i name guarded removal hphase
    exact h.move_remove hphase ht
  · rename_i name fails hphase
    obtain rfl := Option.some.inj ht
    exact h.move_forget fails hphase
  · rename_i name hphase
    obtain rfl := Option.some.inj ht
    refine .ended (fun j other hne hj => ?_) rfl rfl rfl rfl
    change (if s.lease name = some i then Function.update s.lease name none else s.lease) other = _
    split
    · rename_i hown
      have hother : other ≠ name := by
        rintro rfl
        exact hne (Option.some.inj (hj.symm.trans hown))
      rwa [Function.update_of_ne hother]
    · exact hj
  · cases ht

/-- A clean-up in between. -/
theorem WorkspaceInv.clean {listing : List String} (h : WorkspaceInv before s)
    (hclean : Cleaned s listing t) : WorkspaceInv before t where
  names name hname := h.names name (hclean.made ▸ hname)
  fresh name hname := h.fresh name (hclean.made ▸ hname)
  foreign name hbefore hfull := by
    rw [hclean.kept name fun _ horphaned => ?_]
    · exact h.foreign name hbefore hfull
    · obtain ⟨⟨kind, -, hmarker⟩, -⟩ := horphaned
      exact hbefore (h.fresh name (h.owned _ (mem_of_lookup hmarker)))
  registered e he := h.registered e (hclean.registry.subset he)
  owned e he := by
    rw [hclean.made]
    exact h.owned e (hclean.registry.subset he)
  workdir i name hname := by
    rw [hclean.made]
    exact h.workdir i name (hclean.calls ▸ hname)
  leased i name hname := by
    rw [hclean.lease]
    exact h.leased i name (hclean.calls ▸ hname)

theorem WorkspaceInv.step {a : WorkspaceAction} (h : WorkspaceInv before s)
    (ht : workspaceStep jobs s a = some t) : WorkspaceInv before t := by
  cases a with
  | turn i turn => exact h.move (h.move_turn ht)
  | clean listing =>
    obtain ⟨u, counts, hloop, hclean⟩ := cleanup_cleaned listing h.registered ⟨0, 0⟩
    unfold workspaceStep cleanupOrphanedWorkspaces at ht
    dsimp only at ht
    rw [hloop] at ht
    obtain rfl := Option.some.inj ht
    exact h.clean hclean

theorem workspaceInv_before (before : String → Option Node) :
    WorkspaceInv before (.before before) where
  names _ h := (List.not_mem_nil h).elim
  fresh _ h := (List.not_mem_nil h).elim
  foreign _ _ _ := rfl
  registered _ h := (List.not_mem_nil h).elim
  owned _ h := (List.not_mem_nil h).elim
  workdir _ _ h := by cases h
  leased _ _ h := by cases h

/-- The markers that `registry.glob("restore-*.json")` lists, in any order. -/
def Lists (s : WorkspaceRoot) (listing : List String) : Prop :=
  listing.Perm ((s.registry.map Prod.fst).filter fun name => startsWith name "restore-")

/-- **The clean-up is exact.**  In whatever state the calls, stopped anywhere, and earlier
clean-ups leave the root: the clean-up ends; it removes every directory whose marker is whole and
whose lease is free; it leaves every point, every leased directory, that of a call that works under
its lease, and everything that was there before; and what it removes is a directory that a call has
made, with a whole marker and a free lease. -/
theorem cleanup_exact (jobs : Nat → WorkspaceJob) (before : String → Option Node)
    {as : List WorkspaceAction} {s : WorkspaceRoot} {listing : List String}
    (hrun : Run (Steps (workspaceStep jobs)) (.before before) as s) (hlisting : Lists s listing) :
    ∃ t counts, cleanupOrphanedWorkspaces s listing = .ok (t, counts) ∧
      (∀ name files, ∀ kind ∈ workspaceKinds, s.entries name = some (.dir files) →
        s.registry.lookup name = some (.text (markerText kind name)) → s.lease name = none →
        t.entries name = none) ∧
      (∀ name, startsWith name "full-" = true → t.entries name = s.entries name) ∧
      (∀ name, s.lease name ≠ none → t.entries name = s.entries name) ∧
      (∀ i name, (s.calls i).leased = some name → s.lease name = some i ∧
        t.entries name = s.entries name) ∧
      (∀ name, before name ≠ none → startsWith name "full-" = false →
        t.entries name = before name) ∧
      (∀ name, t.entries name ≠ s.entries name → name ∈ s.made ∧ s.lease name = none ∧
        ∃ kind ∈ workspaceKinds, s.registry.lookup name = some (.text (markerText kind name))) := by
  have hinv : WorkspaceInv before s :=
    hrun.preserves (WorkspaceInv before) (fun _ _ _ h hstep => h.step hstep)
      (workspaceInv_before before)
  obtain ⟨t, counts, hloop, hclean⟩ := cleanup_cleaned listing hinv.registered ⟨0, 0⟩
  have hmade : ∀ name, Orphaned s name → name ∈ s.made ∧ name ∈ listing := by
    rintro name ⟨⟨kind, -, hmarker⟩, -⟩
    have hmem := mem_of_lookup hmarker
    have hname := hinv.names name (hinv.owned _ hmem)
    refine ⟨hinv.owned _ hmem, hlisting.mem_iff.mpr (List.mem_filter.mpr ⟨?_, ?_⟩)⟩
    · exact List.mem_map_of_mem (f := Prod.fst) hmem
    · exact ((Bool.and_eq_true _ _).mp hname).1
  have hkept : ∀ name, ¬ Orphaned s name → t.entries name = s.entries name :=
    fun name hnot => hclean.kept name fun _ => hnot
  have hleased : ∀ name, s.lease name ≠ none → t.entries name = s.entries name :=
    fun name hlease => hkept name fun horphaned => hlease horphaned.2.1
  refine ⟨t, counts, hloop, fun name files kind hkind hdir hmarker hlease => ?_,
    fun name hfull => hkept name fun horphaned => ?_, hleased, fun i name hcall => ?_,
    fun name hbefore hfull => ?_, fun name hgone => ?_⟩
  · have horphaned : Orphaned s name := ⟨⟨kind, hkind, hmarker⟩, hlease, .inr ⟨files, hdir⟩⟩
    exact hclean.gone name (hmade name horphaned).2 horphaned
  · have hname := hinv.names name (hmade name horphaned).1
    cases (not_point_of_workspace hname).symm.trans hfull
  · have hlease := hinv.leased i name hcall
    exact ⟨hlease, hleased name (by rw [hlease]; simp)⟩
  · exact (hinv.clean hclean).foreign name hbefore hfull
  · by_cases horphaned : Orphaned s name
    · exact ⟨(hmade name horphaned).1, horphaned.2.1, horphaned.1⟩
    · exact absurd (hkept name horphaned) hgone

/-- A capture that is stopped while it copies. -/
def stoppedCapture : List WorkspaceAction :=
  ([.mkdtemp "k3v", .lock false, .openMarker false, .writeMarker 200 false, .sync false,
    .work ["data"], .stop] : List WorkspaceTurn).map (.turn 0)

theorem cleanup_exact_stopped : ∃ s t counts,
    Run (Steps (workspaceStep fun _ => .capture "0")) (.before fun _ => none) stoppedCapture s ∧
    s.entries "restore-snapshot-capture-k3v" = some (.dir ["data"]) ∧
    cleanupOrphanedWorkspaces s ["restore-snapshot-capture-k3v"] = .ok (t, counts) ∧
    t.entries "restore-snapshot-capture-k3v" = none := by
  have hend : (runAll (workspaceStep fun _ => .capture "0") (.before fun _ => none) stoppedCapture).map
      (fun s => (s.entries "restore-snapshot-capture-k3v", s.registry,
        s.lease "restore-snapshot-capture-k3v")) =
      some (some (.dir ["data"]), [("restore-snapshot-capture-k3v",
        .text (markerText "snapshot-capture" "restore-snapshot-capture-k3v"))], none) := by
    decide +kernel
  obtain ⟨s, hs, hfound⟩ := Option.map_eq_some_iff.mp hend
  obtain ⟨hdir, hrest⟩ := Prod.mk.inj hfound
  obtain ⟨hregistry, hlease⟩ := Prod.mk.inj hrest
  have hlisting : Lists s ["restore-snapshot-capture-k3v"] := by
    unfold Lists
    rw [hregistry]
    exact List.Perm.refl _
  obtain ⟨t, counts, hclean, hgone, -⟩ := cleanup_exact _ _ (run_of_runAll hs) hlisting
  refine ⟨s, t, counts, run_of_runAll hs, hdir, hclean,
    hgone _ ["data"] "snapshot-capture" (by decide) hdir ?_ hlease⟩
  rw [hregistry]
  rfl

end RcloneSync
