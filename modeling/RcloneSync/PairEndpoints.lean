/-
RcloneSync/PairEndpoints.lean

The endpoints of a sync pair: what the validation of the configuration accepts
(config_validation.py), and who takes them for remote paths: the validation itself, the planner
(pair_planner.py), the vault (device_vault.py) and the list of recovery points
(recovery_points.py).

The validation and the planner look for the name of a remote in front of a colon.  The vault and
the recovery points take a colon behind a single letter for a drive, if a slash or a backslash
follows it.  A remote whose name is a single letter is therefore a remote path to two of them and
a local path to the two others.

Main result (`one_notion_of_remote_iff`): the four agree on an endpoint that is accepted exactly if
it is not spelled like a path on a drive.
-/
import RcloneSync.EndpointSpelling
import RcloneSync.HandoverImport

namespace RcloneSync

open Py

/-! ### The validation of an endpoint -/

/-- `_clean_path`. -/
def cleanPath (value : Value) : Except String String :=
  let text := strip (pyStr (pyOr value (.str "")))
  if text.toList.any fun c => c = Char.ofNat 0 || c = '\n' || c = '\r' then
    .error "enthält Steuerzeichen"
  else .ok text

/-- `[A-Za-z0-9]`. -/
def isRemoteStart (c : Char) : Bool :=
  decide ('A' ≤ c ∧ c ≤ 'Z') || decide ('a' ≤ c ∧ c ≤ 'z') || decide ('0' ≤ c ∧ c ≤ '9')

/-- `[A-Za-z0-9_. -]`. -/
def isRemoteChar (c : Char) : Bool :=
  isRemoteStart c || c = '_' || c = '.' || c = ' ' || c = '-'

/-- `_REMOTE_RE`: a name of at most 128 characters, a colon, and a line. -/
def matchesRemote (path : String) : Bool :=
  match (beforeSep ':' path).toList, afterSep ':' path with
  | c :: cs, some rest =>
    isRemoteStart c && cs.all isRemoteChar && decide (cs.length ≤ 127) &&
      !rest.toList.dropLast.contains '\n'
  | _, _ => false

/-- `_is_remote` of the validation. -/
def isRemoteEndpoint (path : String) : Bool :=
  path ≠ "" && !isAbsolutePath path && matchesRemote path && !startsWith path "-"

/-- `_is_absolute_local`, on a POSIX host. -/
def isAbsoluteLocal (path : String) : Bool := startsWith path "/"

/-- `_paths_overlap` of the validation; the paths it is called with begin with a slash or name a
remote, so that there is no home directory to expand. -/
def endpointsOverlap (resolve : Resolver) (a b : String) : Bool :=
  if a = "" ∨ b = "" ∨ isRemoteEndpoint a ≠ isRemoteEndpoint b then false
  else if isRemoteEndpoint a then
    let aa := rstripOf (· = '/') a
    let bb := rstripOf (· = '/') b
    aa = bb || startsWith aa (bb ++ "/") || startsWith bb (aa ++ "/")
  else match resolve a, resolve b with
    | some pa, some pb => pa = pb || pb.isPrefixOf pa || pa.isPrefixOf pb
    | _, _ => false

/-- The paths of a pair, both empty if one of them has control characters. -/
def cleanEndpoints (label : String) (pair : Dict) : List String × String × String :=
  match cleanPath (pair.get "remote"), cleanPath (pair.get "local") with
  | .ok remote, .ok localPath => ([], remote, localPath)
  | .error e, _ => ([label ++ " Pfad " ++ e], "", "")
  | .ok _, .error e => ([label ++ " Pfad " ++ e], "", "")

/-- The checks of the two paths. -/
def endpointErrors (resolve : Resolver) (label remote localPath : String) : List String :=
  (if !isRemoteEndpoint remote && !isAbsoluteLocal remote then
    [label ++ ".remote muss ein rclone-Pfad (remote:/ordner) oder ein absoluter lokaler Pfad sein"]
  else []) ++
  (if localPath = "" then [label ++ ".local fehlt"]
  else if !isRemoteEndpoint localPath && !isAbsoluteLocal localPath then
    [label ++ ".local muss absolut sein"]
  else []) ++
  if remote ≠ "" && localPath ≠ "" && rstripOf (· = '/') remote = rstripOf (· = '/') localPath then
    [label ++ ": Quelle und Ziel sind identisch"]
  else if isAbsoluteLocal remote && isAbsoluteLocal localPath &&
      endpointsOverlap resolve remote localPath then
    [label ++ ": Lokale Pfade dürfen nicht ineinander liegen (Endlos-Kopien)"]
  else []

/-- The direction of a pair, with the error it may have. -/
def checkDirection (label : String) (pair : Dict) : List String × String :=
  let direction := strip (lower (pair.textOr "direction" "bisync"))
  if direction = "bisync" ∨ direction = "pull" ∨ direction = "push" then ([], direction)
  else ([label ++ ".direction ist ungültig"], "bisync")

/-- The mode of a pair, with the error it may have. -/
def checkMode (label direction : String) (pair : Dict) : List String × String :=
  let mode := strip (lower (pair.textOr "mode" (if direction = "bisync" then "bisync" else "copy")))
  if direction = "bisync" then ([], "bisync")
  else if mode = "copy" ∨ mode = "sync" then ([], mode)
  else ([label ++ ".mode ist ungültig"], "copy")

/-- The part of `validate_config` that reads name, paths, direction and mode of a pair: the errors
and the pair as it is stored. -/
def checkEndpoints (resolve : Resolver) (label : String) (pair : Dict) : List String × Dict :=
  let paths := cleanEndpoints label pair
  let remote := paths.2.1
  let localPath := paths.2.2
  let direction := checkDirection label pair
  let mode := checkMode label direction.2 pair
  (paths.1 ++ endpointErrors resolve label remote localPath ++ direction.1 ++ mode.1,
    ((((pair.set "name" (.str (strip (pair.textOr "name" "")))).set "remote" (.str remote)).set
      "local" (.str localPath)).set "direction" (.str direction.2)).set "mode" (.str mode.2))

/-- The text is an endpoint that the validation accepts. -/
def AcceptedEndpoint (path : String) : Prop :=
  (∃ value, cleanPath value = .ok path) ∧
    (isRemoteEndpoint path = true ∨ isAbsoluteLocal path = true)

/-! ### The four readings -/

/-- `_is_remote` of the recovery points, word for word that of the vault. -/
def isRemotePoint (path : String) : Bool := isRemoteTarget path

/-- The text begins like a path on a drive: a character, a colon, and a slash or a backslash. -/
def DriveSpelled (path : String) : Prop :=
  ∃ c rest, c ≠ '/' ∧
    (path.toList = c :: ':' :: '/' :: rest ∨ path.toList = c :: ':' :: '\\' :: rest)

/-- All four take the text for a remote path, or none of them does. -/
def OneNotion (path : String) : Prop :=
  isRemote path = isRemoteEndpoint path ∧ isRemoteTarget path = isRemoteEndpoint path ∧
    isRemotePoint path = isRemoteEndpoint path

/-- A name of a remote in front of a colon. -/
theorem matchesRemote_spec {path : String} (h : matchesRemote path = true) :
    ∃ c cs rest, path.toList = c :: cs ++ ':' :: rest ∧ isRemoteStart c = true ∧
      ∀ d ∈ cs, isRemoteChar d = true := by
  unfold matchesRemote at h
  cases hname : (beforeSep ':' path).toList with
  | nil =>
    rw [hname] at h
    cases h
  | cons c cs =>
    cases hafter : afterSep ':' path with
    | none =>
      rw [hname, hafter] at h
      cases h
    | some rest =>
      rw [hname, hafter] at h
      simp only [Bool.and_eq_true, List.all_eq_true] at h
      obtain ⟨⟨⟨hstart, hrest⟩, _⟩, _⟩ := h
      refine ⟨c, cs, rest.toList, ?_, hstart, hrest⟩
      have hpath := congrArg String.toList (eq_of_afterSep hafter)
      rw [hpath]
      simp [hname]

theorem ne_slash_of_isRemoteChar {c : Char} (h : isRemoteChar c = true) : c ≠ '/' := by
  rintro rfl
  exact absurd h (by decide)

theorem isRemoteChar_of_isRemoteStart {c : Char} (h : isRemoteStart c = true) :
    isRemoteChar c = true := by
  unfold isRemoteChar
  rw [h]
  rfl

theorem not_isRemoteEndpoint_of_isAbsoluteLocal {path : String} (h : isAbsoluteLocal path = true) :
    isRemoteEndpoint path = false := by
  have habs : isAbsolutePath path = true := h
  unfold isRemoteEndpoint
  rw [habs]
  simp

/-- The planner agrees with the validation. -/
theorem isRemote_eq {path : String}
    (h : isRemoteEndpoint path = true ∨ isAbsoluteLocal path = true) :
    isRemote path = isRemoteEndpoint path := by
  rcases h with h | h
  · rw [h]
    unfold isRemoteEndpoint at h
    simp only [Bool.and_eq_true] at h
    obtain ⟨⟨⟨hne, habs⟩, hmatch⟩, hdash⟩ := h
    obtain ⟨c, cs, rest, hpath, _, _⟩ := matchesRemote_spec hmatch
    unfold isRemote
    rw [hne, habs, hdash, hpath]
    simp
  · have habs : isAbsolutePath path = true := h
    rw [not_isRemoteEndpoint_of_isAbsoluteLocal h]
    unfold isRemote
    rw [habs]
    simp

/-- A path that begins with a slash is a local one for the vault. -/
theorem isRemoteTarget_of_isAbsoluteLocal {path : String} (h : isAbsoluteLocal path = true) :
    isRemoteTarget path = false := by
  have hbegins : ['/'].isPrefixOf path.toList = true := h
  unfold isRemoteTarget
  split
  · rfl
  · rfl
  · rw [hbegins]
    simp

/-- For the vault a remote path is one with a colon in its first part, unless a drive stands
there. -/
theorem isRemoteTarget_iff {path : String} (h : isRemoteEndpoint path = true) :
    isRemoteTarget path = true ↔ ¬ DriveSpelled path := by
  unfold isRemoteEndpoint at h
  simp only [Bool.and_eq_true] at h
  obtain ⟨c, cs, rest, hpath, hstart, hname⟩ := matchesRemote_spec h.1.2
  have hc : c ≠ '/' := ne_slash_of_isRemoteChar (isRemoteChar_of_isRemoteStart hstart)
  unfold isRemoteTarget
  split
  · rename_i d tail htext
    refine iff_of_false Bool.false_ne_true (not_not.mpr ⟨d, tail, ?_, Or.inl htext⟩)
    rw [htext] at hpath
    rw [(List.cons.inj hpath).1]
    exact hc
  · rename_i d tail htext
    refine iff_of_false Bool.false_ne_true (not_not.mpr ⟨d, tail, ?_, Or.inr htext⟩)
    rw [htext] at hpath
    rw [(List.cons.inj hpath).1]
    exact hc
  · rename_i hslash hbackslash
    refine iff_of_true ?_ ?_
    · -- no slash stands before the colon
      have hfirst : ':' ∈ path.toList.takeWhile (fun d => decide (d ≠ '/')) := by
        have hall : ∀ d ∈ c :: cs, decide (d ≠ '/') = true := by
          intro d hd
          rcases List.mem_cons.mp hd with rfl | hd
          · exact decide_eq_true hc
          · exact decide_eq_true (ne_slash_of_isRemoteChar (hname d hd))
        rw [hpath, List.takeWhile_append_of_pos hall]
        simp
      have hhead : ['/'].isPrefixOf path.toList = false := by
        rw [hpath]
        simp [List.isPrefixOf, Ne.symm hc]
      rw [hhead, beforeSep, String.toList_ofList]
      simpa using hfirst
    · rintro ⟨d, tail, _, htext | htext⟩
      · exact hslash d tail htext
      · exact hbackslash d tail htext

/-! ### Pairs that pass the checks -/

theorem textOr_str {d : Dict} {key text : String} (h : d.lookup key = some (.str text)) :
    d.textOr key "" = text := by
  unfold Dict.textOr
  rw [Dict.get_of_lookup h]
  unfold pyOr
  by_cases hne : truthy (.str text) = true
  · rw [if_pos hne, pyStr_str]
  · rw [if_neg hne, pyStr_str]
    simpa using Eq.symm (by simpa using hne : text = "")

/-- What the checks store under the keys that they write. -/
theorem checkEndpoints_fields (resolve : Resolver) (label : String) (pair : Dict) :
    (checkEndpoints resolve label pair).2.textOr "remote" "" = (cleanEndpoints label pair).2.1 ∧
    (checkEndpoints resolve label pair).2.textOr "local" "" = (cleanEndpoints label pair).2.2 ∧
    (checkEndpoints resolve label pair).2.textOr "direction" "" = (checkDirection label pair).2 ∧
    (checkEndpoints resolve label pair).2.textOr "name" "" = strip (pair.textOr "name" "") := by
  refine ⟨textOr_str ?_, textOr_str ?_, textOr_str ?_, textOr_str ?_⟩
  all_goals simp [checkEndpoints, Dict.lookup_set]

/-- The paths of a pair that passes the checks are accepted endpoints. -/
theorem acceptedEndpoint_of_checkEndpoints {resolve : Resolver} {label : String} {pair : Dict}
    (h : (checkEndpoints resolve label pair).1 = []) :
    AcceptedEndpoint ((checkEndpoints resolve label pair).2.textOr "remote" "") ∧
      AcceptedEndpoint ((checkEndpoints resolve label pair).2.textOr "local" "") := by
  obtain ⟨hremote, hlocal, _, _⟩ := checkEndpoints_fields resolve label pair
  rw [hremote, hlocal]
  unfold checkEndpoints at h
  dsimp only at h
  simp only [List.append_eq_nil_iff] at h
  obtain ⟨⟨⟨hclean, herrors⟩, _⟩, _⟩ := h
  have hpaths : (∃ value, cleanPath value = .ok (cleanEndpoints label pair).2.1) ∧
      ∃ value, cleanPath value = .ok (cleanEndpoints label pair).2.2 := by
    unfold cleanEndpoints at hclean ⊢
    cases hr : cleanPath (pair.get "remote") with
    | error e =>
      rw [hr] at hclean
      cases hclean
    | ok r =>
      cases hl : cleanPath (pair.get "local") with
      | error e =>
        rw [hr, hl] at hclean
        cases hclean
      | ok l => exact ⟨⟨_, hr⟩, ⟨_, hl⟩⟩
  unfold endpointErrors at herrors
  simp only [List.append_eq_nil_iff] at herrors
  obtain ⟨⟨hfirst, hsecond⟩, _⟩ := herrors
  refine ⟨⟨hpaths.1, ?_⟩, ⟨hpaths.2, ?_⟩⟩
  · by_contra hnot
    obtain ⟨hnr, hna⟩ := not_or.mp hnot
    rw [if_pos (by simp [hnr, hna])] at hfirst
    cases hfirst
  · by_contra hnot
    obtain ⟨hnr, hna⟩ := not_or.mp hnot
    by_cases hempty : (cleanEndpoints label pair).2.2 = ""
    · rw [if_pos hempty] at hsecond
      cases hsecond
    · rw [if_neg hempty, if_pos (by simp [hnr, hna])] at hsecond
      cases hsecond

/-! ### The result -/

/-- **One notion of remote.**  Validation, planner, vault and recovery points agree on an accepted
endpoint if and only if it is not spelled like a path on a drive. -/
theorem one_notion_of_remote_iff (path : String) (h : AcceptedEndpoint path) :
    OneNotion path ↔ ¬ DriveSpelled path := by
  obtain ⟨_, hkind⟩ := h
  unfold OneNotion isRemotePoint
  rw [isRemote_eq hkind]
  rcases hkind with hremote | hlocal
  · rw [hremote, isRemoteTarget_iff hremote]
    simp
  · rw [not_isRemoteEndpoint_of_isAbsoluteLocal hlocal, isRemoteTarget_of_isAbsoluteLocal hlocal]
    refine iff_of_true ⟨rfl, rfl, rfl⟩ ?_
    rintro ⟨c, rest, hc, htext⟩
    have hbegins : ['/'].isPrefixOf path.toList = true := hlocal
    rcases htext with htext | htext
    · rw [htext] at hbegins
      simp [List.isPrefixOf, Ne.symm hc] at hbegins
    · rw [htext] at hbegins
      simp [List.isPrefixOf, Ne.symm hc] at hbegins

theorem one_notion_photos : OneNotion "nas:/photos" := by
  have haccepted : AcceptedEndpoint "nas:/photos" :=
    ⟨⟨.str " nas:/photos ", by decide⟩, Or.inl (by decide)⟩
  refine (one_notion_of_remote_iff "nas:/photos" haccepted).mpr ?_
  rintro ⟨c, rest, _, htext | htext⟩
  · simp at htext
  · simp at htext

/-- **A remote with a short name.**  The validation and the planner take it for a remote, the
vault and the recovery points for a drive. -/
theorem short_remote_is_a_drive :
    AcceptedEndpoint "x:/photos" ∧ isRemoteEndpoint "x:/photos" = true ∧
      isRemote "x:/photos" = true ∧ isRemoteTarget "x:/photos" = false ∧
      isRemotePoint "x:/photos" = false :=
  ⟨⟨⟨.str "x:/photos", by decide⟩, Or.inl (by decide)⟩, by decide, by decide, by decide, by decide⟩

end RcloneSync
