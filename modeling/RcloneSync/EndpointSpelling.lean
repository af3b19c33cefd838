/-
RcloneSync/EndpointSpelling.lean

Different spellings of one endpoint, and what the pair planner makes of them.

`normalize_remote_path` takes two spellings of a remote directory for the same: repeated
slashes, `.` and `..` segments and slashes at the ends do not count.  `canonical_remote`
drops slashes at the ends of the path and nothing else.  So a spelling can be replaced by
another one exactly when the two differ at the ends of the path only
(`same_answers_iff`); in between, two spellings of one directory count as two directories.
-/
import RcloneSync.PairRunner

namespace RcloneSync

open Py

/-! ### The path of a remote endpoint -/

/-- The path behind the colon, without slashes at its ends. -/
def remotePath (value : String) : String :=
  rstripOf (· = '/') (lstripOf (· = '/') ((afterSep ':' value).getD ""))

/-- A path as it follows the colon: with a slash in front, unless it is empty. -/
def slashed (path : String) : String := if path = "" then "" else "/" ++ path

theorem rdropWhile_cons {p : Char → Bool} {c : Char} (hc : p c = true) (cs : List Char) :
    (c :: cs).rdropWhile p = if cs.rdropWhile p = [] then [] else c :: cs.rdropWhile p := by
  induction cs using List.reverseRecOn with
  | nil => simp [List.rdropWhile, hc]
  | append_singleton cs d ih =>
    rw [← List.cons_append]
    by_cases hd : p d = true
    · rw [List.rdropWhile_concat_pos _ _ _ hd, List.rdropWhile_concat_pos _ _ _ hd]
      exact ih
    · rw [List.rdropWhile_concat_neg _ _ _ hd, List.rdropWhile_concat_neg _ _ _ hd]
      simp

theorem rstripOf_slashed (path : String) :
    rstripOf (· = '/') ("/" ++ path) = slashed (rstripOf (· = '/') path) := by
  have hfront : ("/" ++ path).toList = '/' :: path.toList := by simp
  unfold rstripOf slashed
  rw [hfront, rdropWhile_cons (by simp)]
  by_cases hblank : path.toList.rdropWhile (fun c => decide (c = '/')) = []
  · rw [if_pos hblank, hblank]
    rfl
  · rw [if_neg hblank, if_neg]
    · rw [← String.toList_inj]
      simp
    · intro h
      refine hblank ?_
      rw [← String.toList_inj, String.toList_ofList] at h
      exact h

theorem canonicalRemote_eq (value : String) :
    canonicalRemote value
      = casefold (beforeSep ':' value) ++ ":" ++ slashed (remotePath value) := by
  unfold canonicalRemote remotePath
  rw [rstripOf_slashed]

/-- Neither end of the path is a slash. -/
def Trimmed (path : String) : Prop :=
  path.toList.head? ≠ some '/' ∧ path.toList.getLast? ≠ some '/'

theorem remotePath_trimmed (value : String) : Trimmed (remotePath value) := by
  have hlast : ∀ cs : List Char, (cs.rdropWhile (· = '/')).getLast? ≠ some '/' := by
    intro cs h
    obtain ⟨front, hfront⟩ := List.getLast?_eq_some_iff.mp h
    have hagain := List.rdropWhile_idempotent (fun c => decide (c = '/')) cs
    rw [hfront, List.rdropWhile_concat_pos _ _ _ (by simp)] at hagain
    have hlength := congrArg List.length hagain
    rw [List.length_append, List.length_singleton] at hlength
    have hshort := (List.rdropWhile_prefix (fun c => decide (c = '/')) front).length_le
    omega
  unfold Trimmed remotePath rstripOf lstripOf
  rw [String.toList_ofList, String.toList_ofList]
  refine ⟨?_, hlast _⟩
  generalize ((afterSep ':' value).getD "").toList = cs
  have hhead := List.head?_dropWhile_not (fun c => decide (c = '/')) cs
  cases hdrop : cs.dropWhile (fun c => decide (c = '/')) with
  | nil => simp [List.rdropWhile]
  | cons c ds =>
    rw [hdrop] at hhead
    obtain ⟨es, hes⟩ := rdropWhile_head (p := fun c => decide (c = '/')) (by simpa using hhead) ds
    rw [hes]
    intro h
    rw [List.head?_cons] at h
    rw [Option.some.inj h] at hhead
    simp at hhead

/-- A path is that of the spelling with nothing else behind the colon. -/
theorem remotePath_mk {remote path : String} (hremote : ':' ∉ remote.toList)
    (hpath : Trimmed path) : remotePath (remote ++ ":" ++ slashed path) = path := by
  have hafter : afterSep ':' (remote ++ ":" ++ slashed path) = some (slashed path) :=
    afterSep_append hremote _
  unfold remotePath rstripOf lstripOf
  rw [hafter, Option.getD_some, String.toList_ofList, ← String.toList_inj, String.toList_ofList]
  by_cases hblank : path = ""
  · subst hblank
    rfl
  · have hfront : (slashed path).toList = '/' :: path.toList := by
      unfold slashed
      rw [if_neg hblank]
      simp
    have hdrop : path.toList.dropWhile (fun c => decide (c = '/')) = path.toList := by
      cases hcs : path.toList with
      | nil => rfl
      | cons c cs =>
        have hc := hpath.1
        rw [hcs] at hc
        rw [List.dropWhile_cons_of_neg]
        simpa using hc
    rw [hfront, List.dropWhile_cons_of_pos (by simp), hdrop, List.rdropWhile_eq_self_iff]
    intro hne
    have hc := hpath.2
    rw [List.getLast?_eq_getLast_of_ne_nil hne] at hc
    simpa using hc

/-! ### Spellings with one normal form -/

theorem colon_notMem_beforeSep (value : String) : ':' ∉ (beforeSep ':' value).toList := by
  unfold beforeSep
  rw [String.toList_ofList]
  intro h
  simpa using List.mem_takeWhile_imp h

theorem eq_of_afterSep {value rest : String} (h : afterSep ':' value = some rest) :
    value = beforeSep ':' value ++ ":" ++ rest := by
  have hsplit := List.takeWhile_append_dropWhile (p := fun c => decide (c ≠ ':'))
    (l := value.toList)
  have hhead := List.head?_dropWhile_not (fun c => decide (c ≠ ':')) value.toList
  unfold afterSep at h
  cases hdrop : value.toList.dropWhile (fun c => decide (c ≠ ':')) with
  | nil =>
    rw [hdrop] at h
    cases h
  | cons c cs =>
    rw [hdrop] at h hhead hsplit
    have hc : c = ':' := by simpa using hhead
    subst hc
    rw [← String.toList_inj, ← Option.some.inj h]
    simpa [beforeSep] using hsplit.symm

theorem afterSep_eq_none {value : String} : afterSep ':' value = none ↔ ':' ∉ value.toList := by
  constructor
  · intro h hmem
    unfold afterSep at h
    cases hdrop : value.toList.dropWhile (fun c => decide (c ≠ ':')) with
    | nil => simpa using List.dropWhile_eq_nil_iff.mp hdrop ':' hmem
    | cons c cs =>
      rw [hdrop] at h
      cases h
  · intro h
    unfold afterSep
    rw [List.dropWhile_eq_nil_iff.mpr]
    intro c hc
    simpa using fun heq : c = ':' => h (heq ▸ hc)

theorem normalizeRemotePath_colon {value rest : String} (h : afterSep ':' value = some rest) :
    ∃ tail, normalizeRemotePath value = beforeSep ':' value ++ ":" ++ tail := by
  unfold normalizeRemotePath
  rw [h]
  dsimp only
  split_ifs
  · exact ⟨"", by simp⟩
  · exact ⟨"", by simp⟩
  · exact ⟨_, rfl⟩

/-- A spelling with the normal form of a remote endpoint names the same remote. -/
theorem exists_afterSep_of_normal_eq {a a' rest : String}
    (h : normalizeRemotePath a' = normalizeRemotePath a) (ha : afterSep ':' a = some rest) :
    (∃ rest', afterSep ':' a' = some rest') ∧ beforeSep ':' a' = beforeSep ':' a := by
  obtain ⟨tail, htail⟩ := normalizeRemotePath_colon ha
  cases hafter : afterSep ':' a' with
  | none =>
    have hnot := afterSep_eq_none.mp hafter
    have hplain : normalizeRemotePath a' = rstripOf (· = '/') a' := by
      unfold normalizeRemotePath
      rw [hafter]
    rw [hplain] at h
    have hcolon : ':' ∈ (rstripOf (· = '/') a').toList := by
      rw [h, htail]
      simp
    unfold rstripOf at hcolon
    rw [String.toList_ofList] at hcolon
    exact absurd ((List.rdropWhile_prefix _ _).subset hcolon) hnot
  | some rest' =>
    obtain ⟨tail', htail'⟩ := normalizeRemotePath_colon hafter
    refine ⟨⟨rest', rfl⟩, ?_⟩
    rw [htail, htail'] at h
    have hname := congrArg (beforeSep ':') h
    have hbefore : ∀ value tail : String,
        beforeSep ':' (beforeSep ':' value ++ ":" ++ tail) = beforeSep ':' value :=
      fun value tail => beforeSep_append (colon_notMem_beforeSep value) tail
    rwa [hbefore, hbefore] at hname

/-- Whether an endpoint is a remote one is seen in front of the colon. -/
theorem isRemote_mk (remote path path' : String) :
    isRemote (remote ++ ":" ++ path) = isRemote (remote ++ ":" ++ path') := by
  have hne : ∀ tail : String, remote ++ ":" ++ tail ≠ "" := by
    intro tail h
    have hlength := congrArg (fun s : String => s.toList.length) h
    simp at hlength
  unfold isRemote isAbsolutePath startsWith
  simp only [hne, ne_eq, not_false_eq_true, decide_true, Bool.true_and, String.toList_append]
  cases hremote : remote.toList with
  | nil => simp [List.isPrefixOf]
  | cons c cs => simp [List.isPrefixOf]

theorem exists_afterSep_of_isRemote {value : String} (h : isRemote value = true) :
    ∃ rest, afterSep ':' value = some rest := by
  cases hafter : afterSep ':' value with
  | some rest => exact ⟨rest, rfl⟩
  | none =>
    have hnot := afterSep_eq_none.mp hafter
    unfold isRemote at h
    simp [hnot] at h

/-! ### Overlap of remote endpoints -/

theorem startsWith_iff {s p : String} : startsWith s p = true ↔ ∃ rest, s = p ++ rest := by
  unfold startsWith
  rw [List.isPrefixOf_iff_prefix]
  constructor
  · rintro ⟨rest, hrest⟩
    exact ⟨String.ofList rest, by rw [← String.toList_inj]; simp [hrest]⟩
  · rintro ⟨rest, rfl⟩
    exact ⟨rest.toList, by simp⟩

/-- A text lies below another one: it continues it behind a slash. -/
def Below (s t : String) : Prop := ∃ rest, s = t ++ "/" ++ rest

theorem pathsOverlap_remote {resolve : Resolver} {a b : String} (ha : isRemote a = true)
    (hb : isRemote b = true) : pathsOverlap resolve a b = true ↔
      canonicalRemote a = canonicalRemote b ∨ Below (canonicalRemote a) (canonicalRemote b) ∨
        Below (canonicalRemote b) (canonicalRemote a) := by
  have hne : ∀ value, isRemote value = true → value ≠ "" := by
    rintro value h rfl
    exact absurd h (by decide)
  unfold pathsOverlap Below
  rw [if_neg (by simp [hne a ha, hne b hb, ha, hb]), if_pos ha]
  simp only [Bool.or_eq_true, decide_eq_true_eq, startsWith_iff, or_assoc]

/-- A remote endpoint overlaps no local one. -/
theorem pathsOverlap_mixed {resolve : Resolver} {a b : String} (ha : isRemote a = true)
    (hb : isRemote b = false) : pathsOverlap resolve a b = false := by
  unfold pathsOverlap
  rw [if_pos (Or.inr (Or.inr (by simp [ha, hb])))]

theorem canonicalRemote_inj {a a' : String} (hname : beforeSep ':' a' = beforeSep ':' a) :
    canonicalRemote a' = canonicalRemote a ↔ remotePath a' = remotePath a := by
  rw [canonicalRemote_eq, canonicalRemote_eq, hname]
  constructor
  · intro h
    have hslashed : slashed (remotePath a') = slashed (remotePath a) := by
      rw [← String.toList_inj] at h ⊢
      simpa using h
    unfold slashed at hslashed
    rw [← String.toList_inj] at hslashed ⊢
    split_ifs at hslashed with h₁ h₂ h₂
    · rw [h₁, h₂]
    · simp at hslashed
    · simp at hslashed
    · simpa using hslashed
  · intro h
    rw [h]

/-- The spelling of a path below another one. -/
theorem slashed_child {path name : String} (hpath : Trimmed path) (hname : Trimmed name)
    (hne : name ≠ "") : ∃ child, Trimmed child ∧ slashed child = slashed path ++ "/" ++ name := by
  have hcs : name.toList ≠ [] := by simpa using hne
  by_cases hblank : path = ""
  · refine ⟨name, hname, ?_⟩
    unfold slashed
    rw [if_pos hblank, if_neg hne]
    simp
  · have hps : path.toList ≠ [] := by simpa using hblank
    refine ⟨path ++ "/" ++ name, ⟨?_, ?_⟩, ?_⟩
    · rw [String.toList_append, String.toList_append, List.append_assoc,
        List.head?_append_of_ne_nil _ hps]
      exact hpath.1
    · rw [String.toList_append, List.getLast?_append_of_ne_nil _ hcs]
      exact hname.2
    · unfold slashed
      rw [if_neg hblank, if_neg, ← String.toList_inj]
      · simp
      · intro h
        have hlength := congrArg (fun s : String => s.toList.length) h
        simp at hlength

theorem slashed_getLast {path : String} (hpath : Trimmed path) :
    (slashed path).toList.getLast? ≠ some '/' := by
  unfold slashed
  by_cases hblank : path = ""
  · rw [if_pos hblank]
    simp
  · have hps : path.toList ≠ [] := by simpa using hblank
    rw [if_neg hblank, String.toList_append, List.getLast?_append_of_ne_nil _ hps]
    exact hpath.2

/-- Below a path there is room apart from any other path below it. -/
theorem exists_apart {resolve : Resolver} {a a' : String} (ha : isRemote a = true)
    (ha' : isRemote a' = true) (hname : beforeSep ':' a' = beforeSep ':' a)
    (hbelow : Below (canonicalRemote a') (canonicalRemote a)) :
    ∃ b, pathsOverlap resolve a b = true ∧ pathsOverlap resolve a' b = false := by
  obtain ⟨rest, hrest⟩ := exists_afterSep_of_isRemote ha
  obtain ⟨w, hw⟩ := hbelow
  -- a name of one letter that the rest does not begin with
  obtain ⟨c, hc, hcw⟩ : ∃ c : Char, c ≠ '/' ∧ w.toList.head? ≠ some c := by
    by_cases hx : w.toList.head? = some 'x'
    · exact ⟨'y', by decide, by rw [hx]; decide⟩
    · exact ⟨'x', by decide, hx⟩
  have hsingle : Trimmed (String.singleton c) := by
    constructor <;> simpa using hc
  obtain ⟨child, hchild, hslashed⟩ :=
    slashed_child (remotePath_trimmed a) hsingle (by simp [← String.toList_inj])
  have hcolon := colon_notMem_beforeSep a
  have hb : isRemote (beforeSep ':' a ++ ":" ++ slashed child) = true := by
    rw [isRemote_mk _ _ rest, ← eq_of_afterSep hrest]
    exact ha
  have hcanonical : canonicalRemote (beforeSep ':' a ++ ":" ++ slashed child)
      = canonicalRemote a ++ "/" ++ String.singleton c := by
    have hbefore : beforeSep ':' (beforeSep ':' a ++ ":" ++ slashed child) = beforeSep ':' a :=
      beforeSep_append hcolon _
    rw [canonicalRemote_eq, hbefore, remotePath_mk hcolon hchild, hslashed, canonicalRemote_eq]
    simp only [String.append_assoc]
  refine ⟨_, (pathsOverlap_remote ha hb).mpr (Or.inr (Or.inr ⟨_, hcanonical⟩)), ?_⟩
  have hrest' : w.toList ≠ [] := by
    intro hnil
    have hend : slashed (remotePath a') = slashed (remotePath a) ++ "/" := by
      rw [canonicalRemote_eq, canonicalRemote_eq, hname] at hw
      rw [← String.toList_inj] at hw ⊢
      simpa [hnil] using hw
    refine slashed_getLast (remotePath_trimmed a') ?_
    rw [hend, String.toList_append, List.getLast?_append_of_ne_nil _ (by simp)]
    rfl
  obtain ⟨d, ds, hds⟩ := List.exists_cons_of_ne_nil hrest'
  have hdc : d ≠ c := by
    rw [hds] at hcw
    simpa using hcw
  refine Bool.eq_false_iff.mpr fun hover => ?_
  rcases (pathsOverlap_remote ha' hb).mp hover with heq | ⟨v, hv⟩ | ⟨v, hv⟩
  · rw [hcanonical, hw, ← String.toList_inj] at heq
    simp [hds, hdc] at heq
  · rw [hcanonical, hw, ← String.toList_inj] at hv
    simp [hds, hdc] at hv
  · rw [hcanonical, hw, ← String.toList_inj] at hv
    simp [hds, Ne.symm hdc] at hv

/-- **Which spellings are exchangeable.**  Replacing a remote endpoint by another spelling with
the same normal form changes no answer exactly if the two differ in slashes at the ends of the
path at most. -/
theorem same_answers_iff (resolve : Resolver) {a a' : String}
    (h : normalizeRemotePath a' = normalizeRemotePath a) (ha : isRemote a = true) :
    (∀ b, pathsOverlap resolve a' b = pathsOverlap resolve a b) ↔
      remotePath a' = remotePath a := by
  obtain ⟨rest, hrest⟩ := exists_afterSep_of_isRemote ha
  obtain ⟨⟨rest', hrest'⟩, hname⟩ := exists_afterSep_of_normal_eq h hrest
  have ha' : isRemote a' = true := by
    rw [eq_of_afterSep hrest', hname, isRemote_mk _ rest' rest, ← eq_of_afterSep hrest]
    exact ha
  constructor
  · intro hsame
    by_contra hne
    have hself : pathsOverlap resolve a a = true := (pathsOverlap_remote ha ha).mpr (Or.inl rfl)
    rw [← hsame] at hself
    rcases (pathsOverlap_remote ha' ha).mp hself with heq | hbelow | hbelow
    · exact hne ((canonicalRemote_inj hname).mp heq)
    · obtain ⟨b, hb, hb'⟩ : ∃ b, pathsOverlap resolve a b = true ∧
          pathsOverlap resolve a' b = false := exists_apart ha ha' hname hbelow
      rw [hsame, hb] at hb'
      cases hb'
    · obtain ⟨b, hb, hb'⟩ : ∃ b, pathsOverlap resolve a' b = true ∧
          pathsOverlap resolve a b = false := exists_apart ha' ha hname.symm hbelow
      rw [hsame, hb'] at hb
      cases hb
  · intro hpath b
    have hcanonical := (canonicalRemote_inj hname).mpr hpath
    cases hb : isRemote b with
    | false => rw [pathsOverlap_mixed ha hb, pathsOverlap_mixed ha' hb]
    | true =>
      rw [Bool.eq_iff_iff, pathsOverlap_remote ha hb, pathsOverlap_remote ha' hb, hcanonical]

/-! ### Pairs with other spellings -/

/-- Two spellings that the planner does not tell apart: remote ones that differ at the ends of
the path only, and local ones that are one path before any link is resolved. -/
def Exchangeable (a a' : String) : Prop :=
  a' = a ∨
    (isRemote a = true ∧ normalizeRemotePath a' = normalizeRemotePath a ∧
      remotePath a' = remotePath a) ∨
    (isRemote a = false ∧ isRemote a' = false ∧ a ≠ "" ∧ a' ≠ "" ∧ parsePath a' = parsePath a)

/-- `Path(path)` reads its text before anything is resolved. -/
def ReadsPath (resolve : Resolver) : Prop :=
  ∀ a a', parsePath a' = parsePath a → resolve a' = resolve a

theorem Exchangeable.same_answer {resolve : Resolver} (hresolve : ReadsPath resolve)
    {a a' : String} (h : Exchangeable a a') (b : String) :
    pathsOverlap resolve a' b = pathsOverlap resolve a b := by
  rcases h with rfl | ⟨ha, hnormal, hpath⟩ | ⟨ha, ha', hne, hne', hparse⟩
  · rfl
  · exact (same_answers_iff resolve hnormal ha).mpr hpath b
  · unfold pathsOverlap
    rw [ha, ha', hresolve a a' hparse]
    simp only [hne, hne', false_or, Bool.false_eq_true, if_false]

theorem pairsConflict_congr {resolve : Resolver} (hresolve : ReadsPath resolve) {p p' : Dict}
    (h : List.Forall₂ Exchangeable (endpoints p) (endpoints p')) (q : Dict) :
    pairsConflict resolve p' q = pairsConflict resolve p q := by
  unfold pairsConflict
  generalize endpoints p = as at h
  generalize endpoints p' = as' at h
  induction h with
  | nil => rfl
  | @cons a a' as as' ha _ ih =>
    rw [List.any_cons, List.any_cons, ih]
    congr 2
    funext b
    exact ha.same_answer hresolve b

/-- The endpoint is spelled as its normal form is, up to slashes at the ends of the path. -/
def Tidy (value : String) : Prop :=
  normalizeRemotePath value = beforeSep ':' value ++ ":" ++ slashed (remotePath value)

/-- Two remote endpoints are one directory, or the first one is inside the second. -/
def Inside (a b : String) : Prop :=
  isRemote a = true ∧ isRemote b = true ∧
    (normalizeRemotePath a = normalizeRemotePath b ∨
      Below (normalizeRemotePath a) (normalizeRemotePath b))

theorem overlap_of_inside (resolve : Resolver) {a b : String} (ha : Tidy a) (hb : Tidy b)
    (h : Inside a b) : pathsOverlap resolve a b = true := by
  obtain ⟨hra, hrb, hinside⟩ := h
  unfold Tidy at ha hb
  rw [ha, hb] at hinside
  have hbefore : ∀ value tail : String,
      beforeSep ':' (beforeSep ':' value ++ ":" ++ tail) = beforeSep ':' value :=
    fun value tail => beforeSep_append (colon_notMem_beforeSep value) tail
  refine (pathsOverlap_remote hra hrb).mpr ?_
  rw [canonicalRemote_eq, canonicalRemote_eq]
  rcases hinside with heq | ⟨w, hw⟩
  · have hname := congrArg (beforeSep ':') heq
    rw [hbefore, hbefore] at hname
    rw [hname] at heq ⊢
    refine Or.inl ?_
    rw [← String.toList_inj] at heq ⊢
    simpa using heq
  · have hassoc : beforeSep ':' b ++ ":" ++ slashed (remotePath b) ++ "/" ++ w
        = beforeSep ':' b ++ ":" ++ (slashed (remotePath b) ++ "/" ++ w) := by
      simp only [String.append_assoc]
    have hname := congrArg (beforeSep ':') hw
    rw [hassoc, hbefore, hbefore] at hname
    rw [hname] at hw ⊢
    refine Or.inr (Or.inl ⟨w, ?_⟩)
    rw [← String.toList_inj] at hw ⊢
    simpa using hw

/-- Two pairs touch one remote directory, or one directory inside the other. -/
def Touch (p q : Dict) : Prop :=
  ∃ a ∈ endpoints p, ∃ b ∈ endpoints q, Tidy a ∧ Tidy b ∧ (Inside a b ∨ Inside b a)

theorem conflict_of_touch (resolve : Resolver) {p q : Dict} (h : Touch p q) :
    pairsConflict resolve p q = true := by
  obtain ⟨a, ha, b, hb, htidy, htidy', hinside⟩ := h
  unfold pairsConflict
  refine List.any_eq_true.mpr ⟨a, ha, List.any_eq_true.mpr ⟨b, hb, ?_⟩⟩
  rcases hinside with hinside | hinside
  · exact overlap_of_inside resolve htidy htidy' hinside
  · rw [pathsOverlap_comm]
    exact overlap_of_inside resolve htidy' htidy hinside

/-- **What the conflict relation makes of spellings.**  It is symmetric.  A remote endpoint can
be spelled in another way with the same normal form, without any answer being changed, exactly
if only slashes at the ends of its path change; then pairs can be, too.  Pairs that touch one
remote directory do not run at the same time as long as they spell it in normal form, up to
such slashes. -/
theorem conflict_spelling {resolve : Resolver} (hresolve : ReadsPath resolve) :
    (∀ a b, pathsOverlap resolve a b = pathsOverlap resolve b a) ∧
    (∀ p q, pairsConflict resolve p q = pairsConflict resolve q p) ∧
    (∀ a a', normalizeRemotePath a' = normalizeRemotePath a → isRemote a = true →
      ((∀ b, pathsOverlap resolve a' b = pathsOverlap resolve a b) ↔
        remotePath a' = remotePath a)) ∧
    (∀ p p', List.Forall₂ Exchangeable (endpoints p) (endpoints p') →
      ∀ q, pairsConflict resolve p' q = pairsConflict resolve p q) ∧
    ∀ pending running index, nextRunnablePairIndex resolve pending running = some index →
      ∀ pair, pending[index]? = some pair → ∀ item ∈ running, ¬ Touch pair item := by
  refine ⟨pathsOverlap_comm resolve, pairsConflict_comm resolve,
    fun a a' h ha => same_answers_iff resolve h ha,
    fun p p' h q => pairsConflict_congr hresolve h q, ?_⟩
  intro pending running index hnext pair hpair item hitem htouch
  obtain ⟨found, hfound, hfree⟩ := nextRunnable_spec hnext
  rw [hpair] at hfound
  rw [← Option.some.inj hfound] at hfree
  have hconflict := conflict_of_touch resolve htouch
  rw [hfree item hitem] at hconflict
  cases hconflict

/-- Nothing is a link. -/
def plainResolver : Resolver := fun path => some (parsePath path).allParts

theorem readsPath_plain : ReadsPath plainResolver := by
  intro a a' h
  unfold plainResolver
  rw [h]

theorem conflict_spelling_photos :
    (∀ b, pathsOverlap plainResolver "cloud:/photos/" b = pathsOverlap plainResolver "cloud:photos" b)
      ∧ ∀ a b, pathsOverlap plainResolver a b = pathsOverlap plainResolver b a := by
  have h := conflict_spelling readsPath_plain
  refine ⟨(h.2.2.1 "cloud:photos" "cloud:/photos/" ?_ ?_).mpr ?_, h.1⟩ <;> decide +kernel

/-- **Two spellings of one directory are two directories**, and pairs that copy into it run at
the same time. -/
theorem conflict_depends_on_spelling :
    normalizeRemotePath "cloud:photos//2024" = normalizeRemotePath "cloud:photos/2024" ∧
    pathsOverlap plainResolver "cloud:photos/2024" "cloud:photos/2024" = true ∧
    pathsOverlap plainResolver "cloud:photos//2024" "cloud:photos/2024" = false ∧
    nextRunnablePairIndex plainResolver
      [[("local", .str "/srv/a"), ("remote", .str "cloud:photos//2024")]]
      [[("local", .str "/srv/b"), ("remote", .str "cloud:photos/2024")]] = some 0 :=
  ⟨by decide +kernel, by decide +kernel, by decide +kernel, by decide +kernel⟩

end RcloneSync
