/-
RcloneSync/NestedTargets.lean

Vault targets inside the tree of another pair: `_strict_path_ancestor` and the loop of
`validate_config` that calls it (config_validation.py), beside the overlap of the planner
(pair_planner.py).

A pair protects the vaults with excludes that are anchored at its roots.  The validation therefore
refuses a configuration in which an endpoint of another pair is an ancestor of the target.  It
compares the texts of remote paths and the parts of local paths letter by letter.  The planner,
which has to find the same relation, does not distinguish the case, and takes the slashes behind
the colon for one.

    endpoint          target            a file of the vault as the endpoint lists it
    nas:              nas:photos        photos/Sicherpfad/x      not excluded, refused
    nas:photos        nas:photos        Sicherpfad/x             excluded
    nas:photos/Sicherpfad
                      nas:photos        x                        not excluded, and not refused

Main result (`targets_apart_iff`): in a list of pairs that passes the checks, no endpoint is an
ancestor of the target of another pair and the reserved excludes cover what the endpoints list of
the vaults of other pairs, as the planner reads paths, if and only if the ancestors spell the
common beginning as the target does and no endpoint stands in the vault of another pair.
-/
import RcloneSync.FilterDecision
import RcloneSync.PairEndpoints

namespace RcloneSync

open Py FirstMatch

/-! ### The check -/

/-- `_strict_path_ancestor`. -/
def strictPathAncestor (resolve : Resolver) (ancestor child : String) : Bool :=
  if ancestor = "" ∨ child = "" ∨ isRemoteEndpoint ancestor ≠ isRemoteEndpoint child then false
  else if isRemoteEndpoint ancestor then
    let base := rstripOf (· = '/') ancestor
    decide (rstripOf (· = '/') child ≠ base) &&
      startsWith child (base ++ if endsWith base ":" then "" else "/")
  else match resolve ancestor, resolve child with
    | some base, some leaf => decide (base ≠ leaf) && base.isPrefixOf leaf
    | _, _ => false

/-- The target of a pair, where its vault is kept. -/
def vaultTarget (pair : Dict) : String :=
  if pair.textOr "direction" "" = "pull" then pair.textOr "local" "" else pair.textOr "remote" ""

/-- The text of the error for a target inside the tree of another pair. -/
def nestedTargetText (other vaultPair : Dict) : String :=
  "Pair '" ++ other.textOr "name" "" ++ "' umfasst das verschachtelte Vault-Ziel von '" ++
    vaultPair.textOr "name" "" ++
      "'; reservierte Sicherpfad-Ablagen wären dort nicht geschützt"

/-- The loop over all ordered pairs of different pairs. -/
def nestedTargetErrors (resolve : Resolver) (pairs : List Dict) : List String :=
  (pairs.zipIdx.map fun vaultPair =>
    pairs.zipIdx.filterMap fun other =>
      if other.2 ≠ vaultPair.2 ∧ (endpoints other.1).any
          (fun e => strictPathAncestor resolve e (vaultTarget vaultPair.1)) then
        some (nestedTargetText other.1 vaultPair.1)
      else none).flatten

/-- The part of `validate_config` that reads the endpoints of the pairs: the errors and the pairs
as they are stored. -/
def checkBackupPairs (resolve : Resolver) (pairs : List Value) : List String × List Dict :=
  let checked := pairs.zipIdx.map fun raw =>
    let label := "backup.pairs[" ++ toString raw.2 ++ "]"
    match raw.1 with
    | .dict pair =>
      let c := checkEndpoints resolve label pair
      (c.1, some c.2)
    | _ => ([label ++ " muss ein Mapping sein"], none)
  let stored := checked.filterMap Prod.snd
  ((checked.map Prod.fst).flatten ++ nestedTargetErrors resolve stored, stored)

/-! ### The reading of the planner -/

/-- An endpoint is a strict ancestor of another one, as `paths_overlap` reads paths. -/
def Encloses (resolve : Resolver) (ancestor child : String) : Prop :=
  ancestor ≠ "" ∧ child ≠ "" ∧ isRemote ancestor = isRemote child ∧
    if isRemote ancestor = true then Below (canonicalRemote child) (canonicalRemote ancestor)
    else ∃ base leaf, resolve ancestor = some base ∧ resolve child = some leaf ∧
      base.length < leaf.length ∧ (base.map casefold).isPrefixOf (leaf.map casefold) = true

/-- The slashes behind the colon. -/
def leadingSlashes (value : String) : List Char :=
  (((afterSep ':' value).getD "").toList).takeWhile (· = '/')

/-- Two endpoints spell what they have in common alike: the name of the remote and the slashes
behind the colon, or the parts of the shorter path. -/
def SpelledAlike (resolve : Resolver) (ancestor child : String) : Prop :=
  if isRemote ancestor = true then
    beforeSep ':' ancestor = beforeSep ':' child ∧
      (remotePath ancestor = "" ∨ leadingSlashes ancestor = leadingSlashes child)
  else ∀ base leaf, resolve ancestor = some base → resolve child = some leaf →
    base.isPrefixOf leaf = true

/-- A file of a vault, by its parts below the target. -/
def VaultFile (file : List String) : Prop :=
  ∃ name ∈ reservedSubtrees, ∃ rest, rest ≠ [] ∧ file = name :: rest

/-- The endpoint lists the file below the target under the path `rel`. -/
def ListsAs (resolve : Resolver) (e target : String) (file rel : List String) : Prop :=
  e ≠ "" ∧ target ≠ "" ∧ isRemote e = isRemote target ∧
    if isRemote e = true then
      canonicalRemote e ++ "/" ++ join "/" rel = canonicalRemote target ++ "/" ++ join "/" file
    else ∃ base leaf front, resolve e = some base ∧ resolve target = some leaf ∧
      front ++ rel = leaf ++ file ∧ front.map casefold = base.map casefold

/-- The endpoint is a reserved subtree of the target or stands in one. -/
def InsideVault (resolve : Resolver) (e target : String) : Prop :=
  e ≠ "" ∧ target ≠ "" ∧ isRemote e = isRemote target ∧ ∃ name ∈ reservedSubtrees,
    if isRemote e = true then
      canonicalRemote e = canonicalRemote target ++ "/" ++ name ∨
        Below (canonicalRemote e) (canonicalRemote target ++ "/" ++ name)
    else ∃ base leaf, resolve e = some base ∧ resolve target = some leaf ∧
      leaf.map casefold ++ [casefold name] <+: base.map casefold

/-! ### Texts of remote endpoints -/

theorem rdropWhile_append_of_all {p : Char → Bool} {xs ts : List Char} (h : ∀ c ∈ ts, p c = true) :
    (xs ++ ts).rdropWhile p = xs.rdropWhile p := by
  induction ts using List.reverseRecOn with
  | nil => rw [List.append_nil]
  | append_singleton ts t ih =>
    rw [← List.append_assoc, List.rdropWhile_concat_pos _ _ _ (h t (by simp))]
    exact ih fun c hc => h c (List.mem_append_left _ hc)

/-- The text of a remote endpoint: its name, a colon, slashes, its path, and slashes. -/
theorem toList_remote {value : String} (h : ':' ∈ value.toList) :
    ∃ trailing : List Char, (∀ c ∈ trailing, c = '/') ∧
      value.toList = (beforeSep ':' value).toList ++ ':' ::
        (leadingSlashes value ++ (remotePath value).toList ++ trailing) := by
  obtain ⟨rest, hafter⟩ : ∃ rest, afterSep ':' value = some rest := by
    cases hafter : afterSep ':' value with
    | some rest => exact ⟨rest, rfl⟩
    | none => exact absurd h (afterSep_eq_none.mp hafter)
  have hvalue := congrArg String.toList (eq_of_afterSep hafter)
  have hdrop := List.takeWhile_append_dropWhile (p := fun c => decide (c = '/'))
    (l := rest.toList)
  have htail := List.rdropWhile_append_rtakeWhile (p := fun c => decide (c = '/'))
    (l := rest.toList.dropWhile fun c => decide (c = '/'))
  refine ⟨(rest.toList.dropWhile fun c => decide (c = '/')).rtakeWhile fun c => decide (c = '/'),
    fun c hc => by simpa using List.mem_rtakeWhile_imp hc, ?_⟩
  have hpath : (remotePath value).toList
      = (rest.toList.dropWhile fun c => decide (c = '/')).rdropWhile fun c => decide (c = '/') := by
    unfold remotePath rstripOf lstripOf
    rw [hafter, Option.getD_some, String.toList_ofList, String.toList_ofList]
  unfold leadingSlashes
  rw [hafter, Option.getD_some, hpath, List.append_assoc, htail, hdrop, hvalue]
  simp

theorem leadingSlashes_all (value : String) : ∀ c ∈ leadingSlashes value, c = '/' := by
  intro c hc
  unfold leadingSlashes at hc
  simpa using List.mem_takeWhile_imp hc

/-- A remote endpoint without the slashes at its end. -/
theorem rstrip_remote {value : String} (h : ':' ∈ value.toList) :
    (rstripOf (· = '/') value).toList
      = if remotePath value = "" then (beforeSep ':' value).toList ++ [':']
        else (beforeSep ':' value).toList ++ ':' ::
          (leadingSlashes value ++ (remotePath value).toList) := by
  obtain ⟨trailing, htrailing, hvalue⟩ := toList_remote h
  have hall : ∀ c ∈ trailing, decide (c = '/') = true := fun c hc => decide_eq_true (htrailing c hc)
  have hlead : ∀ c ∈ leadingSlashes value, decide (c = '/') = true :=
    fun c hc => decide_eq_true (leadingSlashes_all value c hc)
  unfold rstripOf
  rw [String.toList_ofList, hvalue]
  by_cases hempty : remotePath value = ""
  · have hsplit : (beforeSep ':' value).toList ++ ':' ::
        (leadingSlashes value ++ (remotePath value).toList ++ trailing)
          = ((beforeSep ':' value).toList ++ [':']) ++ (leadingSlashes value ++ trailing) := by
      simp [hempty]
    rw [if_pos hempty, hsplit, rdropWhile_append_of_all]
    · exact List.rdropWhile_concat_neg _ _ _ (by simp)
    · intro c hc
      rcases List.mem_append.mp hc with hc | hc
      · exact hlead c hc
      · exact hall c hc
  · have hsplit : (beforeSep ':' value).toList ++ ':' ::
        (leadingSlashes value ++ (remotePath value).toList ++ trailing)
          = ((beforeSep ':' value).toList ++ ':' ::
            (leadingSlashes value ++ (remotePath value).toList)) ++ trailing := by
      simp
    rw [if_neg hempty, hsplit, rdropWhile_append_of_all hall, List.rdropWhile_eq_self_iff]
    intro hne
    have hlast := (remotePath_trimmed value).2
    have hpath : (remotePath value).toList ≠ [] := fun hnil =>
      hempty (by rw [← String.toList_inj]; simpa using hnil)
    rw [List.getLast?_eq_getLast_of_ne_nil hpath] at hlast
    have hsame : ((beforeSep ':' value).toList ++ ':' ::
        (leadingSlashes value ++ (remotePath value).toList)).getLast hne
          = (remotePath value).toList.getLast hpath := by
      simp [List.getLast_append_of_ne_nil, hpath]
    rw [hsame]
    simpa using hlast

/-! ### What the text comparison finds -/

/-- A remote endpoint that the comparison takes for an ancestor is spelled like its child. -/
theorem alike_of_startsWith {a t : String} (ha : ':' ∈ a.toList)
    (h : (rstripOf (· = '/') a).toList <+: t.toList) :
    beforeSep ':' a = beforeSep ':' t ∧
      (remotePath a = "" ∨ leadingSlashes a = leadingSlashes t) := by
  obtain ⟨more, hmore⟩ := h
  have hname := colon_notMem_beforeSep a
  by_cases hempty : remotePath a = ""
  · rw [rstrip_remote ha, if_pos hempty] at hmore
    have ht : t = beforeSep ':' a ++ ":" ++ String.ofList more := by
      rw [← String.toList_inj, ← hmore]
      simp
    have hbefore : beforeSep ':' (beforeSep ':' a ++ ":" ++ String.ofList more) = beforeSep ':' a :=
      beforeSep_append hname _
    exact ⟨by rw [ht, hbefore], Or.inl hempty⟩
  · rw [rstrip_remote ha, if_neg hempty] at hmore
    have ht : t = beforeSep ':' a ++ ":" ++
        String.ofList (leadingSlashes a ++ (remotePath a).toList ++ more) := by
      rw [← String.toList_inj, ← hmore]
      simp
    have hbefore : beforeSep ':' (beforeSep ':' a ++ ":" ++
        String.ofList (leadingSlashes a ++ (remotePath a).toList ++ more)) = beforeSep ':' a :=
      beforeSep_append hname _
    refine ⟨by rw [ht, hbefore], Or.inr ?_⟩
    have hafter : afterSep ':' t
        = some (String.ofList (leadingSlashes a ++ (remotePath a).toList ++ more)) := by
      rw [ht]
      exact afterSep_append hname _
    have hall : ∀ c ∈ leadingSlashes a, decide (c = '/') = true :=
      fun c hc => decide_eq_true (leadingSlashes_all a c hc)
    have hstop : ((remotePath a).toList ++ more).takeWhile (fun c => decide (c = '/')) = [] := by
      cases hcs : (remotePath a).toList with
      | nil => exact absurd (by rw [← String.toList_inj]; simpa using hcs) hempty
      | cons c cs =>
        have hc := (remotePath_trimmed a).1
        rw [hcs] at hc
        rw [List.cons_append, List.takeWhile_cons_of_neg]
        simpa using hc
    have hslashes : leadingSlashes t
        = (leadingSlashes a ++ (remotePath a).toList ++ more).takeWhile
          (fun c => decide (c = '/')) := by
      rw [leadingSlashes, hafter, Option.getD_some, String.toList_ofList]
    rw [hslashes, List.append_assoc, List.takeWhile_append_of_pos hall, hstop, List.append_nil]

/-- What lies between an ancestor and its child on one remote. -/
theorem path_of_below {a t : String} (hname : beforeSep ':' a = beforeSep ':' t)
    (h : Below (canonicalRemote t) (canonicalRemote a)) :
    remotePath t ≠ "" ∧
      (remotePath a ≠ "" → ∃ rest, remotePath t = remotePath a ++ "/" ++ rest) := by
  obtain ⟨rest, hrest⟩ := h
  rw [canonicalRemote_eq, canonicalRemote_eq, hname] at hrest
  have hslashed : slashed (remotePath t) = slashed (remotePath a) ++ "/" ++ rest := by
    rw [← String.toList_inj] at hrest ⊢
    simpa using hrest
  have hne : remotePath t ≠ "" := by
    intro hempty
    have hlength := congrArg (fun s : String => s.toList.length) hslashed
    simp [slashed, hempty] at hlength
  refine ⟨hne, fun ha => ⟨rest, ?_⟩⟩
  rw [slashed, slashed, if_neg hne, if_neg ha] at hslashed
  rw [← String.toList_inj] at hslashed ⊢
  simpa using hslashed

/-- An ancestor that is spelled like its child is found by the comparison. -/
theorem startsWith_of_alike {a t : String} (ha : ':' ∈ a.toList) (ht : ':' ∈ t.toList)
    (hname : beforeSep ':' a = beforeSep ':' t)
    (hslashes : remotePath a = "" ∨ leadingSlashes a = leadingSlashes t)
    (h : Below (canonicalRemote t) (canonicalRemote a)) :
    rstripOf (· = '/') t ≠ rstripOf (· = '/') a ∧
      startsWith t (rstripOf (· = '/') a ++
        if endsWith (rstripOf (· = '/') a) ":" then "" else "/") = true := by
  obtain ⟨hne, hpath⟩ := path_of_below hname h
  obtain ⟨trailing, _, htext⟩ := toList_remote ht
  have hstrip := rstrip_remote ht
  rw [if_neg hne] at hstrip
  by_cases hempty : remotePath a = ""
  · have hbase : rstripOf (· = '/') a = beforeSep ':' a ++ ":" := by
      rw [← String.toList_inj, rstrip_remote ha, if_pos hempty]
      simp
    have hends : endsWith (beforeSep ':' a ++ ":") ":" = true := by
      unfold endsWith
      rw [List.isSuffixOf_iff_suffix]
      exact ⟨(beforeSep ':' a).toList, by simp⟩
    rw [hbase, if_pos hends]
    constructor
    · intro heq
      have htexts := congrArg String.toList heq
      rw [hstrip, hname, String.toList_append] at htexts
      have hnil := (List.cons.inj (List.append_cancel_left htexts)).2
      have hpath := (List.append_eq_nil_iff.mp hnil).2
      exact hne (by rw [← String.toList_inj]; simpa using hpath)
    · unfold startsWith
      rw [List.isPrefixOf_iff_prefix, htext, ← hname]
      exact ⟨leadingSlashes t ++ (remotePath t).toList ++ trailing, by simp⟩
  · obtain ⟨rest, hrest⟩ := hpath hempty
    have hlead : leadingSlashes a = leadingSlashes t := hslashes.resolve_left hempty
    have hbase := rstrip_remote ha
    rw [if_neg hempty] at hbase
    constructor
    · intro heq
      have hlength := congrArg (fun s : String => s.toList.length) heq
      simp only [hstrip, hbase, hname, hlead, hrest] at hlength
      simp at hlength
    · unfold startsWith
      rw [List.isPrefixOf_iff_prefix, String.toList_append, hbase, htext, hrest, hname, hlead]
      split
      · exact ⟨'/' :: rest.toList ++ trailing, by simp⟩
      · exact ⟨rest.toList ++ trailing, by simp⟩

theorem colon_mem_of_isRemote {value : String} (h : isRemote value = true) :
    ':' ∈ value.toList := by
  obtain ⟨rest, hrest⟩ := exists_afterSep_of_isRemote h
  by_contra hnot
  rw [afterSep_eq_none.mpr hnot] at hrest
  cases hrest

/-- **What the validation finds.**  Of the endpoints that are ancestors for the planner, the
validation finds those that are spelled like their child. -/
theorem strictPathAncestor_iff {resolve : Resolver} {ancestor child : String}
    (ha : AcceptedEndpoint ancestor) (hc : AcceptedEndpoint child)
    (h : Encloses resolve ancestor child) :
    strictPathAncestor resolve ancestor child = true ↔ SpelledAlike resolve ancestor child := by
  obtain ⟨hane, hcne, hsame, hbelow⟩ := h
  have hra := isRemote_eq ha.2
  have hrc := isRemote_eq hc.2
  have hguard : ¬ (ancestor = "" ∨ child = "" ∨
      isRemoteEndpoint ancestor ≠ isRemoteEndpoint child) := by
    rw [← hra, ← hrc]
    simp [hane, hcne, hsame]
  unfold strictPathAncestor SpelledAlike
  rw [if_neg hguard, ← hra]
  by_cases hremote : isRemote ancestor = true
  · rw [if_pos hremote] at hbelow ⊢
    rw [if_pos hremote]
    have hacolon := colon_mem_of_isRemote hremote
    have hccolon := colon_mem_of_isRemote (hsame ▸ hremote)
    dsimp only
    rw [Bool.and_eq_true, decide_eq_true_eq]
    constructor
    · rintro ⟨_, hstarts⟩
      refine alike_of_startsWith hacolon ?_
      have hbegins := List.isPrefixOf_iff_prefix.mp hstarts
      rw [String.toList_append] at hbegins
      exact (List.prefix_append _ _).trans hbegins
    · rintro ⟨hname, hslashes⟩
      exact startsWith_of_alike hacolon hccolon hname hslashes hbelow
  · rw [if_neg hremote] at hbelow ⊢
    rw [if_neg hremote]
    obtain ⟨base, leaf, hbase, hleaf, hless, _⟩ := hbelow
    rw [hbase, hleaf]
    dsimp only
    rw [Bool.and_eq_true, decide_eq_true_eq]
    constructor
    · rintro ⟨_, hbegins⟩ base' leaf' hbase' hleaf'
      obtain rfl := Option.some.inj hbase'
      obtain rfl := Option.some.inj hleaf'
      exact hbegins
    · intro hall
      refine ⟨?_, hall base leaf rfl rfl⟩
      rintro rfl
      exact absurd hless (lt_irrefl _)

/-! ### What the reserved excludes cover -/

/-- A pattern `/name/**` matches what lies below `name`, and nothing else. -/
def AnchoredMatch (hit : String → String → Bool) : Prop :=
  ∀ name ∈ reservedSubtrees, ∀ path,
    hit (reservedPattern name) path = true ↔ ∃ rest, path = name ++ "/" ++ rest

variable {hit : String → String → Bool} {resolve : Resolver} {e target : String}

theorem reservedPath_iff (hhit : AnchoredMatch hit) (path : String) :
    reservedPath hit path = true ↔ belowReserved path := by
  rw [reservedPath, List.any_map, List.any_eq_true]
  exact exists_congr fun name => and_congr_right fun hname => hhit name hname path

theorem decided_reserved_iff (hhit : AnchoredMatch hit) (path : String) :
    decided hit reservedRules path = some false ↔ belowReserved path := by
  rw [decided_reservedRules, ← reservedPath_iff hhit path]
  by_cases h : reservedPath hit path = true <;> simp [h]

theorem belowReserved_join {file : List String} (h : VaultFile file) :
    belowReserved (join "/" file) := by
  obtain ⟨name, hname, rest, hrest, rfl⟩ := h
  cases rest with
  | nil => exact absurd rfl hrest
  | cons r rest => exact ⟨name, hname, join "/" (r :: rest), rfl⟩

theorem noSlash_reserved : ∀ name ∈ reservedSubtrees, '/' ∉ name.toList := by decide

/-- Two paths of one file: one endpoint is an ancestor of the other, or they are the same, or the
first one stands below the second one, on the way to the file. -/
theorem common_file {a b r d : List Char} (h : a ++ '/' :: r = b ++ '/' :: d) :
    (∃ m, b = a ++ '/' :: m) ∨ (a = b ∧ r = d) ∨
      ∃ m, a = b ++ '/' :: m ∧ d = m ++ '/' :: r := by
  rcases List.append_eq_append_iff.mp h with ⟨m, hb, hr⟩ | ⟨m, ha, hd⟩
  · cases m with
    | nil => exact Or.inr (Or.inl ⟨by simpa using hb.symm, by simpa using hr⟩)
    | cons c m =>
      obtain ⟨rfl, -⟩ := List.cons.inj hr
      exact Or.inl ⟨m, hb⟩
  · cases m with
    | nil => exact Or.inr (Or.inl ⟨by simpa using ha, by simpa using hd.symm⟩)
    | cons c m =>
      obtain ⟨rfl, hway⟩ := List.cons.inj hd
      exact Or.inr (Or.inr ⟨m, ha, hway⟩)

/-- What an endpoint on a remote lists of a vault is covered, unless the endpoint is an ancestor
of the target or stands in the vault. -/
theorem covered_remote {ce ct : String} {file rel : List String} (hfile : VaultFile file)
    (hplace : ce ++ "/" ++ join "/" rel = ct ++ "/" ++ join "/" file) (habove : ¬ Below ct ce)
    (hinside : ∀ name ∈ reservedSubtrees, ce ≠ ct ++ "/" ++ name ∧ ¬ Below ce (ct ++ "/" ++ name)) :
    belowReserved (join "/" rel) := by
  have htexts : ce.toList ++ '/' :: (join "/" rel).toList
      = ct.toList ++ '/' :: (join "/" file).toList := by
    have := congrArg String.toList hplace
    simpa using this
  rcases common_file htexts with ⟨m, hm⟩ | ⟨-, hsame⟩ | ⟨m, hm, hway⟩
  · exact absurd ⟨String.ofList m, by rw [← String.toList_inj]; simp [hm]⟩ habove
  · rw [String.toList_inj.mp hsame]
    exact belowReserved_join hfile
  · obtain ⟨name, hname, text, htext⟩ := belowReserved_join hfile
    have hfirst : name.toList ++ '/' :: text.toList = m ++ '/' :: (join "/" rel).toList := by
      rw [← hway, htext]
      simp
    -- the name holds no slash, so the way to the file begins with it
    rcases common_file hfirst with ⟨more, rfl⟩ | ⟨rfl, -⟩ | ⟨more, hmore, -⟩
    · refine absurd ⟨String.ofList more, ?_⟩ (hinside name hname).2
      rw [← String.toList_inj, hm]
      simp
    · refine absurd ?_ (hinside name hname).1
      rw [← String.toList_inj, hm]
      simp
    · refine absurd ?_ (noSlash_reserved name hname)
      rw [hmore]
      simp

/-- What a local endpoint lists of a vault is covered, unless the endpoint is an ancestor of the
target or stands in the vault. -/
theorem covered_local {base leaf front file rel : List String} (hfile : VaultFile file)
    (hplace : front ++ rel = leaf ++ file) (hfront : front.map casefold = base.map casefold)
    (habove : ¬ (base.length < leaf.length ∧
      (base.map casefold).isPrefixOf (leaf.map casefold) = true))
    (hinside : ∀ name ∈ reservedSubtrees,
      ¬ leaf.map casefold ++ [casefold name] <+: base.map casefold) :
    belowReserved (join "/" rel) := by
  have hlength : front.length = base.length := by
    simpa using congrArg List.length hfront
  rcases List.append_eq_append_iff.mp hplace with ⟨m, hleaf, hrel⟩ | ⟨m, hm, hfilem⟩
  · cases m with
    | nil =>
      rw [show rel = file by simpa using hrel]
      exact belowReserved_join hfile
    | cons c m =>
      refine absurd ⟨?_, ?_⟩ habove
      · rw [hleaf, ← hlength]
        simp
      · rw [List.isPrefixOf_iff_prefix, ← hfront, hleaf, List.map_append]
        exact List.prefix_append _ _
  · cases m with
    | nil =>
      rw [show rel = file by simpa using hfilem.symm]
      exact belowReserved_join hfile
    | cons c m =>
      obtain ⟨name, hname, rest, _, rfl⟩ := hfile
      obtain ⟨rfl, -⟩ := List.cons.inj hfilem
      refine absurd ?_ (hinside name hname)
      rw [← hfront, hm]
      exact ⟨m.map casefold, by simp⟩

/-- **What is covered.**  What an endpoint lists of the vault of another pair is excluded, unless
the endpoint is an ancestor of the target or stands in the vault. -/
theorem reserved_covers (hhit : AnchoredMatch hit) (habove : ¬ Encloses resolve e target)
    (hinside : ¬ InsideVault resolve e target) {file rel : List String} (hfile : VaultFile file)
    (h : ListsAs resolve e target file rel) :
    decided hit reservedRules (join "/" rel) = some false := by
  obtain ⟨hene, htne, hsame, hplace⟩ := h
  rw [decided_reserved_iff hhit]
  by_cases hremote : isRemote e = true
  · rw [if_pos hremote] at hplace
    refine covered_remote hfile hplace ?_ ?_
    · intro hbelow
      exact habove ⟨hene, htne, hsame, by rwa [if_pos hremote]⟩
    · intro name hname
      rw [← not_or]
      intro hin
      exact hinside ⟨hene, htne, hsame, name, hname, by rwa [if_pos hremote]⟩
  · rw [if_neg hremote] at hplace
    obtain ⟨base, leaf, front, hbase, hleaf, hpath, hfront⟩ := hplace
    refine covered_local hfile hpath hfront ?_ ?_
    · rintro ⟨hless, hbegins⟩
      refine habove ⟨hene, htne, hsame, ?_⟩
      rw [if_neg hremote]
      exact ⟨base, leaf, hbase, hleaf, hless, hbegins⟩
    · intro name hname hin
      refine hinside ⟨hene, htne, hsame, name, hname, ?_⟩
      rw [if_neg hremote]
      exact ⟨base, leaf, hbase, hleaf, hin⟩

/-- An endpoint in a vault lists a file of it that no reserved exclude covers. -/
theorem exists_uncovered (hhit : AnchoredMatch hit) (h : InsideVault resolve e target) :
    ∃ file rel, VaultFile file ∧ ListsAs resolve e target file rel ∧
      decided hit reservedRules (join "/" rel) ≠ some false := by
  obtain ⟨hene, htne, hsame, name, hname, hin⟩ := h
  have hopen : decided hit reservedRules (join "/" ["x"]) ≠ some false := by
    rw [ne_eq, decided_reserved_iff hhit]
    rintro ⟨name', _, rest, hrest⟩
    have hslash : '/' ∈ ("x" : String).toList := by
      rw [show ("x" : String) = name' ++ "/" ++ rest from hrest]
      simp
    exact absurd hslash (by decide)
  by_cases hremote : isRemote e = true
  · rw [if_pos hremote] at hin
    rcases hin with heq | ⟨more, hmore⟩
    · refine ⟨[name, "x"], ["x"], ⟨name, hname, ["x"], by simp, rfl⟩,
        ⟨hene, htne, hsame, ?_⟩, hopen⟩
      rw [if_pos hremote, heq]
      simp [join, String.append_assoc]
    · refine ⟨[name, more, "x"], ["x"], ⟨name, hname, [more, "x"], by simp, rfl⟩,
        ⟨hene, htne, hsame, ?_⟩, hopen⟩
      rw [if_pos hremote, hmore]
      simp [join, String.append_assoc]
  · rw [if_neg hremote] at hin
    obtain ⟨base, leaf, hbase, hleaf, more, hmore⟩ := hin
    -- the parts of the endpoint below the reserved name, as it spells them
    obtain ⟨front, mid, hsplit, hfront, hmid⟩ := List.map_eq_append_iff.mp hmore.symm
    refine ⟨name :: (mid ++ ["x"]), ["x"], ⟨name, hname, mid ++ ["x"], by simp, rfl⟩,
      ⟨hene, htne, hsame, ?_⟩, hopen⟩
    rw [if_neg hremote]
    refine ⟨base, leaf, leaf ++ name :: mid, hbase, hleaf, by simp, ?_⟩
    rw [hsplit, List.map_append, List.map_append, hfront]
    simp

/-! ### ListsAs of pairs that pass the checks -/

/-- No endpoint is an ancestor of the target of another pair. -/
def TargetsApart (resolve : Resolver) (pairs : List Dict) : Prop :=
  ∀ (i j : Nat) (p q : Dict), pairs[i]? = some p → pairs[j]? = some q → i ≠ j →
    ∀ e ∈ endpoints q, ¬ Encloses resolve e (vaultTarget p)

/-- The endpoints that are ancestors of the target of another pair are spelled like it. -/
def AncestorsSpelledAlike (resolve : Resolver) (pairs : List Dict) : Prop :=
  ∀ (i j : Nat) (p q : Dict), pairs[i]? = some p → pairs[j]? = some q → i ≠ j →
    ∀ e ∈ endpoints q, Encloses resolve e (vaultTarget p) →
      SpelledAlike resolve e (vaultTarget p)

/-- The reserved excludes cover what the endpoints of a pair list of the vaults of other pairs. -/
def VaultsCovered (hit : String → String → Bool) (resolve : Resolver) (pairs : List Dict) : Prop :=
  ∀ (i j : Nat) (p q : Dict), pairs[i]? = some p → pairs[j]? = some q → i ≠ j →
    ∀ e ∈ endpoints q, ∀ file rel, VaultFile file → ListsAs resolve e (vaultTarget p) file rel →
      decided hit reservedRules (join "/" rel) = some false

/-- No endpoint stands in the vault of another pair. -/
def OutsideVaults (resolve : Resolver) (pairs : List Dict) : Prop :=
  ∀ (i j : Nat) (p q : Dict), pairs[i]? = some p → pairs[j]? = some q → i ≠ j →
    ∀ e ∈ endpoints q, ¬ InsideVault resolve e (vaultTarget p)

theorem nestedTargetErrors_eq_nil {resolve : Resolver} {pairs : List Dict}
    (h : nestedTargetErrors resolve pairs = []) {i j : Nat} {p q : Dict}
    (hp : pairs[i]? = some p) (hq : pairs[j]? = some q) (hij : i ≠ j) {e : String}
    (he : e ∈ endpoints q) : strictPathAncestor resolve e (vaultTarget p) = false := by
  by_contra hnot
  have hfound : strictPathAncestor resolve e (vaultTarget p) = true := by simpa using hnot
  have hpi : (p, i) ∈ pairs.zipIdx := List.mem_zipIdx_iff_getElem?.mpr hp
  have hqj : (q, j) ∈ pairs.zipIdx := List.mem_zipIdx_iff_getElem?.mpr hq
  unfold nestedTargetErrors at h
  have hinner := List.flatten_eq_nil_iff.mp h _ (List.mem_map_of_mem hpi)
  have hnone := List.filterMap_eq_nil_iff.mp hinner (q, j) hqj
  rw [if_pos ⟨Ne.symm hij, List.any_eq_true.mpr ⟨e, he, hfound⟩⟩] at hnone
  cases hnone

/-- The endpoints of a stored pair were accepted. -/
theorem acceptedEndpoint_of_checkBackupPairs {resolve : Resolver} {raws : List Value}
    (h : (checkBackupPairs resolve raws).1 = []) {p : Dict}
    (hp : p ∈ (checkBackupPairs resolve raws).2) :
    AcceptedEndpoint (p.textOr "remote" "") ∧ AcceptedEndpoint (p.textOr "local" "") := by
  unfold checkBackupPairs at h hp
  dsimp only at h hp
  have hflat := (List.append_eq_nil_iff.mp h).1
  obtain ⟨checked, hchecked, hstored⟩ := List.mem_filterMap.mp hp
  have hnone := List.flatten_eq_nil_iff.mp hflat _ (List.mem_map_of_mem hchecked)
  obtain ⟨⟨raw, n⟩, _, rfl⟩ := List.mem_map.mp hchecked
  cases raw with
  | dict pair =>
    obtain rfl := Option.some.inj hstored
    exact acceptedEndpoint_of_checkEndpoints hnone
  | none | bool _ | int _ | float _ | str _ | list _ => cases hstored

/-- In a list of pairs that passes the checks, an endpoint that is an ancestor of the target of
another pair and is spelled like it would have been found. -/
theorem targetsApart_iff (raws : List Value) (h : (checkBackupPairs resolve raws).1 = []) :
    TargetsApart resolve (checkBackupPairs resolve raws).2 ↔
      AncestorsSpelledAlike resolve (checkBackupPairs resolve raws).2 := by
  have hnested : nestedTargetErrors resolve (checkBackupPairs resolve raws).2 = [] :=
    (List.append_eq_nil_iff.mp h).2
  constructor
  · intro hapart i j p q hp hq hij e he hencloses
    exact absurd hencloses (hapart i j p q hp hq hij e he)
  · intro halike i j p q hp hq hij e he hencloses
    have hacceptedp := acceptedEndpoint_of_checkBackupPairs h (List.mem_of_getElem? hp)
    have hacceptedq := acceptedEndpoint_of_checkBackupPairs h (List.mem_of_getElem? hq)
    have htarget : AcceptedEndpoint (vaultTarget p) := by
      unfold vaultTarget
      split
      · exact hacceptedp.2
      · exact hacceptedp.1
    have hendpoint : AcceptedEndpoint e := by
      rcases List.mem_cons.mp he with rfl | he
      · exact hacceptedq.2
      · rw [List.mem_singleton.mp he]
        exact hacceptedq.1
    have hfound := (strictPathAncestor_iff hendpoint htarget hencloses).mpr
      (halike i j p q hp hq hij e he hencloses)
    rw [nestedTargetErrors_eq_nil hnested hp hq hij he] at hfound
    exact absurd hfound Bool.false_ne_true

/-- **Targets of other pairs.**  In a list of pairs that passes the checks, no endpoint is an
ancestor of the target of another pair and the reserved excludes cover what the endpoints list of
the vaults of other pairs, if and only if the ancestors spell the common beginning as the target
does and no endpoint stands in the vault of another pair. -/
theorem targets_apart_iff (hit : String → String → Bool) (hhit : AnchoredMatch hit)
    (resolve : Resolver) (raws : List Value) (h : (checkBackupPairs resolve raws).1 = []) :
    (TargetsApart resolve (checkBackupPairs resolve raws).2 ∧
        VaultsCovered hit resolve (checkBackupPairs resolve raws).2) ↔
      (AncestorsSpelledAlike resolve (checkBackupPairs resolve raws).2 ∧
        OutsideVaults resolve (checkBackupPairs resolve raws).2) := by
  rw [← targetsApart_iff raws h]
  refine and_congr_right fun hapart => ⟨?_, ?_⟩
  · intro hcovered i j p q hp hq hij e he hinside
    obtain ⟨file, rel, hfile, hlists, hopen⟩ := exists_uncovered hhit hinside
    exact hopen (hcovered i j p q hp hq hij e he file rel hfile hlists)
  · intro houtside i j p q hp hq hij e he file rel hfile hlists
    exact reserved_covers hhit (hapart i j p q hp hq hij e he)
      (houtside i j p q hp hq hij e he) hfile hlists

theorem anchoredMatch_subtreeHit : AnchoredMatch subtreeHit := by
  intro name hname path
  have hcheck : ∀ name ∈ reservedSubtrees, endsWith (reservedPattern name) "/**" = true ∧
      takeText ((reservedPattern name).length - 2) (reservedPattern name)
        = "/" ++ name ++ "/" := by
    decide
  obtain ⟨hend, htake⟩ := hcheck name hname
  rw [subtreeHit, hend, htake, Bool.true_and, startsWith_iff]
  refine exists_congr fun rest => ?_
  rw [show "/" ++ name ++ "/" ++ rest = "/" ++ (name ++ "/" ++ rest) by simp [String.append_assoc]]
  exact String.append_right_inj _

/-- A pair as it stands in the configuration. -/
def pushPair (name localPath remote : String) : Value :=
  .dict [("name", .str name), ("direction", .str "push"), ("mode", .str "copy"),
    ("local", .str localPath), ("remote", .str remote)]

theorem targets_apart_photos :
    (TargetsApart plainResolver (checkBackupPairs plainResolver
        [pushPair "photos" "/photos" "nas:photos", pushPair "music" "/music" "nas:music"]).2 ∧
      VaultsCovered subtreeHit plainResolver (checkBackupPairs plainResolver
        [pushPair "photos" "/photos" "nas:photos", pushPair "music" "/music" "nas:music"]).2) ↔
    (AncestorsSpelledAlike plainResolver (checkBackupPairs plainResolver
        [pushPair "photos" "/photos" "nas:photos", pushPair "music" "/music" "nas:music"]).2 ∧
      OutsideVaults plainResolver (checkBackupPairs plainResolver
        [pushPair "photos" "/photos" "nas:photos", pushPair "music" "/music" "nas:music"]).2) :=
  targets_apart_iff subtreeHit anchoredMatch_subtreeHit plainResolver _ (by decide +kernel)

/-- The second pair encloses the target of the first one, with a slash behind the colon. -/
def slashPairs : List Value :=
  [pushPair "photos" "/photos" "nas:data/photos", pushPair "data" "/data" "nas:/data"]

theorem checkBackupPairs_slashPairs :
    checkBackupPairs plainResolver slashPairs = ([], slashPairs.filterMap asDict) := by
  decide +kernel

/-- The second pair backs up the vault of the first one. -/
def vaultPairs : List Value :=
  [.dict [("name", .str "photos"), ("direction", .str "pull"), ("mode", .str "copy"),
      ("local", .str "/data"), ("remote", .str "nas:a")],
    .dict [("name", .str "vault"), ("direction", .str "bisync"), ("mode", .str "bisync"),
      ("local", .str "/data/Sicherpfad"), ("remote", .str "nas:b")]]

theorem checkBackupPairs_vaultPairs :
    checkBackupPairs plainResolver vaultPairs = ([], vaultPairs.filterMap asDict) := by
  decide +kernel

/-- **What the validation lets pass.**  Two lists of pairs pass the checks: in the first one the
second pair encloses the target of the first pair, in the second one it stands in its vault, and
its excludes do not cover the file `x` there. -/
theorem slash_hides_ancestor :
    ((checkBackupPairs plainResolver slashPairs).1 = [] ∧
      ¬ TargetsApart plainResolver (checkBackupPairs plainResolver slashPairs).2) ∧
    (checkBackupPairs plainResolver vaultPairs).1 = [] ∧
      ¬ VaultsCovered subtreeHit plainResolver (checkBackupPairs plainResolver vaultPairs).2 := by
  rw [checkBackupPairs_slashPairs, checkBackupPairs_vaultPairs]
  refine ⟨⟨rfl, fun h => ?_⟩, rfl, fun h => ?_⟩
  · have hbelow : Below (canonicalRemote "nas:data/photos") (canonicalRemote "nas:/data") :=
      ⟨"photos", by decide +kernel⟩
    refine h 0 1 _ _ rfl rfl (by decide) "nas:/data" (by decide)
      ⟨by decide, by decide, by decide, ?_⟩
    rw [if_pos (by decide)]
    exact hbelow
  · have hfile : VaultFile ["Sicherpfad", "x"] := ⟨"Sicherpfad", by decide, ["x"], by decide, rfl⟩
    have hopen := h 0 1 _ _ rfl rfl (by decide) "/data/Sicherpfad" (by decide) ["Sicherpfad", "x"]
      ["x"] hfile ⟨by decide, by decide, by decide, by
        rw [if_neg (by decide)]
        exact ⟨["/", "data", "Sicherpfad"], ["/", "data"], ["/", "data", "Sicherpfad"],
          by decide +kernel, by decide +kernel, rfl, rfl⟩⟩
    exact absurd hopen (by decide +kernel)

end RcloneSync
