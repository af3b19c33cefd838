/-
RcloneSync/HiddenPaths.lean

Remote directories that are kept out of sight (`normalize_hidden_remote_paths` and
`is_hidden_remote_path` of `app/security.py`).

The parts of a path are read against a stack: empty parts and `.` are skipped, `..` takes
the last name off.  What `normalize_remote_path` writes is determined by the names that
remain (`dirParts`, `normalizeRemotePath_mk`), so a part that the stack does not see
changes nothing: `Respelled` inserts such parts, and `SameDirectory` is the relation it
generates.  The names of a path followed by more names are those of the path with the
names behind them, which makes whatever lies below a hidden directory hidden.

Main result: `hiddenPaths`.
-/
import RcloneSync.EndpointSpelling

namespace RcloneSync

open Py

/-! ### The test -/

/-- `DEFAULT_HIDDEN_REMOTE_PATHS`. -/
def defaultHiddenRemotePaths : List Value := [.str "pcloud:/Crypto Folder"]

/-- `normalize_hidden_remote_paths`, as a list without repetitions. -/
def normalizeHiddenRemotePaths (values : Value) : List String :=
  let items : List Value := match values with
    | .str s => [.str s]
    | .list xs => xs
    | _ => defaultHiddenRemotePaths
  firstOccurrences ((items.filter fun item =>
      strip (pyStr item) ≠ "" && (pyStr item).toList.contains ':').map
    fun item => casefold (normalizeRemotePath (pyStr item)))

/-- `is_hidden_remote_path`. -/
def isHiddenRemotePath (path : String) (hidden : List String) : Bool :=
  let normalized := casefold (normalizeRemotePath path)
  hidden.any fun blocked =>
    normalized = blocked || startsWith normalized (rstripOf (· = '/') blocked ++ "/")

/-! ### Names and parts -/

/-- A part that names a directory. -/
structure IsName (part : String) : Prop where
  nonempty : part ≠ ""
  dot : part ≠ "."
  dotdot : part ≠ ".."
  slash : '/' ∉ part.toList

/-- A part of a path under a root, on the names above it, innermost first. -/
def stackPart (kept : List String) (part : String) : List String :=
  if part = "" ∨ part = "." then kept else if part = ".." then kept.tail else part :: kept

/-- Under a root there is never a `..` to keep. -/
theorem normParts_absolute {kept : List String} (h : ∀ part ∈ kept, part ≠ "..")
    (parts : List String) :
    normParts true parts kept = (parts.foldl stackPart kept).reverse := by
  induction parts generalizing kept with
  | nil => rfl
  | cons part rest ih =>
    rw [List.foldl_cons, normParts.eq_def]
    dsimp only
    by_cases hskip : part = "" ∨ part = "."
    · have hstack : stackPart kept part = kept := if_pos hskip
      rw [if_pos hskip, hstack]
      exact ih h
    · rw [if_neg hskip]
      by_cases hup : part = ".."
      · have hstack : stackPart kept part = kept.tail := by
          unfold stackPart
          rw [if_neg hskip, if_pos hup]
        rw [if_pos hup, hstack]
        cases kept with
        | nil => exact ih h
        | cons top below =>
          dsimp only
          rw [if_neg (h top List.mem_cons_self)]
          exact ih fun p hp => h p (List.mem_cons_of_mem _ hp)
      · have hstack : stackPart kept part = part :: kept := by
          unfold stackPart
          rw [if_neg hskip, if_neg hup]
        rw [if_neg hup, hstack]
        refine ih fun p hp => ?_
        rcases List.mem_cons.mp hp with rfl | hold
        · exact hup
        · exact h p hold

@[simp] theorem stackPart_empty (kept : List String) : stackPart kept "" = kept :=
  if_pos (Or.inl rfl)

@[simp] theorem stackPart_dot (kept : List String) : stackPart kept "." = kept :=
  if_pos (Or.inr rfl)

@[simp] theorem stackPart_dotdot (kept : List String) : stackPart kept ".." = kept.tail := by
  unfold stackPart
  rw [if_neg (by decide), if_pos rfl]

theorem stackPart_name {part : String} (h : IsName part) (kept : List String) :
    stackPart kept part = part :: kept := by
  unfold stackPart
  rw [if_neg (not_or.mpr ⟨h.nonempty, h.dot⟩), if_neg h.dotdot]

theorem foldl_stackPart_names {names : List String} (h : ∀ n ∈ names, IsName n)
    (kept : List String) : names.foldl stackPart kept = names.reverse ++ kept := by
  induction names generalizing kept with
  | nil => rfl
  | cons n rest ih =>
    rw [List.foldl_cons, stackPart_name (h n List.mem_cons_self),
      ih fun p hp => h p (List.mem_cons_of_mem _ hp)]
    simp

/-- Only names are kept. -/
theorem isName_of_mem_foldl {parts : List String} (hparts : ∀ p ∈ parts, '/' ∉ p.toList)
    {kept : List String} (hkept : ∀ p ∈ kept, IsName p) :
    ∀ p ∈ parts.foldl stackPart kept, IsName p := by
  induction parts generalizing kept with
  | nil => exact hkept
  | cons part rest ih =>
    rw [List.foldl_cons]
    refine ih (fun p hp => hparts p (List.mem_cons_of_mem _ hp)) fun p hp => ?_
    unfold stackPart at hp
    split at hp
    · exact hkept p hp
    · rename_i hskip
      split at hp
      · exact hkept p (List.mem_of_mem_tail hp)
      · rename_i hup
        rcases List.mem_cons.mp hp with rfl | hold
        · obtain ⟨hempty, hdot⟩ := not_or.mp hskip
          exact ⟨hempty, hdot, hup, hparts p List.mem_cons_self⟩
        · exact hkept p hold

/-! ### The names of a directory -/

/-- The names that remain of a path, outermost first. -/
def dirParts (path : String) : List String := ((splitOn '/' path).foldl stackPart []).reverse

theorem dirParts_isName (path : String) : ∀ n ∈ dirParts path, IsName n := by
  intro n hn
  exact isName_of_mem_foldl (fun _ hp => notMem_splitOn hp)
    (fun _ hp => (List.not_mem_nil hp).elim) n (List.mem_reverse.mp hn)

theorem dirParts_append (a b : String) :
    dirParts (a ++ "/" ++ b) =
      ((splitOn '/' b).foldl stackPart (dirParts a).reverse).reverse := by
  unfold dirParts
  rw [show ("/" : String) = String.singleton '/' from rfl, splitOn_append, List.foldl_append,
    List.reverse_reverse]

/-- A part that the stack does not see may stand anywhere. -/
theorem foldl_skip {detour : List String} (h : ∀ kept, detour.foldl stackPart kept = kept)
    (before after kept : List String) :
    (before ++ detour ++ after).foldl stackPart kept = (before ++ after).foldl stackPart kept := by
  rw [List.foldl_append, List.foldl_append, h, List.foldl_append]

/-- Slashes in front do not count. -/
theorem dirParts_lstrip (path : String) : dirParts (lstripOf (· = '/') path) = dirParts path := by
  have hlist : ∀ cs : List Char,
      dirParts (String.ofList (cs.dropWhile (fun c => decide (c = '/')))) =
        dirParts (String.ofList cs) := by
    intro cs
    induction cs with
    | nil => rfl
    | cons c rest ih =>
      by_cases hc : c = '/'
      · subst hc
        rw [List.dropWhile_cons_of_pos (by simp), ih]
        have hsplit : String.ofList ('/' :: rest) = "" ++ "/" ++ String.ofList rest := by
          rw [← String.toList_inj]
          simp
        have hempty : dirParts "" = [] := by decide
        rw [hsplit, dirParts_append, hempty]
        rfl
      · rw [List.dropWhile_cons_of_neg (by simpa using hc)]
  have h := hlist path.toList
  rwa [String.ofList_toList] at h

/-- Slashes at the end do not count. -/
theorem dirParts_rstrip (path : String) : dirParts (rstripOf (· = '/') path) = dirParts path := by
  have hlist : ∀ cs : List Char,
      dirParts (String.ofList (cs.rdropWhile (fun c => decide (c = '/')))) =
        dirParts (String.ofList cs) := by
    intro cs
    induction cs using List.reverseRecOn with
    | nil => rfl
    | append_singleton rest c ih =>
      by_cases hc : c = '/'
      · subst hc
        rw [List.rdropWhile_concat_pos _ _ _ (by simp), ih]
        have hsplit : String.ofList (rest ++ ['/']) = String.ofList rest ++ "/" ++ "" := by
          rw [← String.toList_inj]
          simp
        have hblank : splitOn '/' "" = [""] := by decide
        rw [hsplit, dirParts_append, hblank, List.foldl_cons, List.foldl_nil, stackPart_empty,
          List.reverse_reverse]
      · rw [List.rdropWhile_concat_neg _ _ _ (by simpa using hc)]
  have h := hlist path.toList
  rwa [String.ofList_toList] at h

/-- The names as `normpath` writes them behind the colon. -/
def dirText (names : List String) : String := slashed (join "/" names)

theorem join_ne_empty {names : List String} (h : ∀ n ∈ names, IsName n) (hne : names ≠ []) :
    join "/" names ≠ "" := by
  intro hempty
  match names, hne with
  | [n], _ => exact (h n List.mem_cons_self).nonempty hempty
  | n :: m :: rest, _ =>
    have hlist := congrArg String.toList hempty
    rw [join_toList] at hlist
    simp at hlist

/-- The text that `normpath` makes of a rooted path. -/
theorem normPath_rooted {path : String} (h : path.toList.head? ≠ some '/') :
    normPath ("/" ++ path) = "/" ++ join "/" (dirParts path) := by
  have hroot : pathRoot ("/" ++ path).toList = "/" := by
    rw [String.toList_append]
    cases hlist : path.toList with
    | nil => rfl
    | cons c cs =>
      rw [hlist] at h
      have hc : c ≠ '/' := fun heq => h (by rw [heq]; rfl)
      show pathRoot ('/' :: c :: cs) = "/"
      unfold pathRoot
      split
      · rename_i heq
        obtain ⟨rfl, _⟩ := List.cons.inj (List.cons.inj heq).2
        exact absurd rfl hc
      · rename_i heq
        obtain ⟨rfl, _⟩ := List.cons.inj (List.cons.inj heq).2
        exact absurd rfl hc
      · rfl
      · rename_i heq
        exact absurd rfl (heq _)
  have hsplit : splitOn '/' ("/" ++ path) = "" :: splitOn '/' path := by
    have happend := splitOn_append '/' "" path
    have hblank : splitOn '/' "" = [""] := by decide
    rw [hblank] at happend
    exact happend
  have hbody : normParts true (splitOn '/' ("/" ++ path)) [] = dirParts path := by
    rw [normParts_absolute (fun _ hp => (List.not_mem_nil hp).elim), hsplit, List.foldl_cons,
      stackPart_empty]
    rfl
  have hne : "/" ++ join "/" (dirParts path) ≠ "" := by
    intro hempty
    have hlist := congrArg String.toList hempty
    simp at hlist
  unfold normPath
  dsimp only
  rw [hroot]
  rw [show decide (("/" : String) ≠ "") = true from rfl, hbody, if_neg hne]

/-- **What is written is determined by the names that remain.** -/
theorem normalizeRemotePath_mk {value rest : String} (h : afterSep ':' value = some rest) :
    normalizeRemotePath value = beforeSep ':' value ++ ":" ++ dirText (dirParts rest) := by
  have hstripped : remotePath value = rstripOf (· = '/') (lstripOf (· = '/') rest) := by
    unfold remotePath
    rw [h, Option.getD_some]
  have hparts : dirParts (remotePath value) = dirParts rest := by
    rw [hstripped, dirParts_rstrip, dirParts_lstrip]
  unfold normalizeRemotePath
  rw [h]
  dsimp only
  rw [← hstripped, ← hparts]
  by_cases hblank : remotePath value = ""
  · rw [if_pos hblank, hblank]
    have hnone : dirText (dirParts "") = "" := by decide
    rw [hnone, String.append_empty]
  · rw [if_neg hblank, normPath_rooted (remotePath_trimmed value).1]
    unfold dirText slashed
    by_cases hnone : join "/" (dirParts (remotePath value)) = ""
    · rw [if_pos hnone, hnone, String.append_empty, if_pos rfl, String.append_empty]
    · rw [if_neg hnone, if_neg]
      intro hroot
      refine hnone ?_
      have hlist := congrArg String.toList hroot
      rw [← String.toList_inj]
      simpa using hlist

theorem splitOn_join_names {names : List String} (h : ∀ n ∈ names, IsName n)
    (hne : names ≠ []) : splitOn '/' (join "/" names) = names := by
  match names, hne with
  | [n], _ => exact splitOn_of_notMem (h n List.mem_cons_self).slash
  | n :: m :: rest, _ =>
    have ih := splitOn_join_names (fun p hp => h p (List.mem_cons_of_mem _ hp))
      (List.cons_ne_nil m rest)
    have happend := splitOn_append '/' n (join "/" (m :: rest))
    rw [ih, splitOn_of_notMem (h n List.mem_cons_self).slash] at happend
    exact happend

/-- Names are read back as they are written. -/
theorem dirParts_dirText {names : List String} (h : ∀ n ∈ names, IsName n) :
    dirParts (dirText names) = names := by
  by_cases hne : names = []
  · subst hne
    decide
  · have htext : dirText names = "" ++ "/" ++ join "/" names := by
      unfold dirText slashed
      rw [if_neg (join_ne_empty h hne)]
      rfl
    have hempty : dirParts "" = [] := by decide
    rw [htext, dirParts_append, splitOn_join_names h hne, hempty, List.reverse_nil,
      foldl_stackPart_names h]
    simp

theorem rstripOf_idem (p : Char → Bool) (s : String) :
    rstripOf p (rstripOf p s) = rstripOf p s := by
  unfold rstripOf
  rw [String.toList_ofList, List.rdropWhile_idempotent]

theorem normalizeRemotePath_idem (path : String) :
    normalizeRemotePath (normalizeRemotePath path) = normalizeRemotePath path := by
  cases hafter : afterSep ':' path with
  | some rest =>
    have hcolon := colon_notMem_beforeSep path
    have hagain := normalizeRemotePath_mk (afterSep_append hcolon (dirText (dirParts rest)))
    rw [beforeSep_append hcolon, dirParts_dirText (dirParts_isName rest)] at hagain
    rw [normalizeRemotePath_mk hafter]
    exact hagain
  | none =>
    have hplain : ∀ {value : String}, afterSep ':' value = none →
        normalizeRemotePath value = rstripOf (· = '/') value := by
      intro value hvalue
      unfold normalizeRemotePath
      rw [hvalue]
    have hnone : afterSep ':' (rstripOf (· = '/') path) = none := by
      refine afterSep_eq_none.mpr fun hmem => afterSep_eq_none.mp hafter ?_
      unfold rstripOf at hmem
      rw [String.toList_ofList] at hmem
      exact (List.rdropWhile_prefix _ _).subset hmem
    rw [hplain hafter, hplain hnone, rstripOf_idem]

/-! ### Spellings of a directory -/

/-- One more part that leads nowhere: an empty one (a slash more), `.`, or a name with `..`
behind it. -/
inductive Respelled : List String → List String → Prop
  | slash (before after : List String) : Respelled (before ++ after) (before ++ [""] ++ after)
  | dot (before after : List String) : Respelled (before ++ after) (before ++ ["."] ++ after)
  | detour (before after : List String) {name : String} (h : IsName name) :
      Respelled (before ++ after) (before ++ [name, ".."] ++ after)

/-- Two spellings of one directory of a remote: any number of such parts more or less. -/
def SameDirectory (path path' : String) : Prop :=
  ∃ remote rest rest', ':' ∉ remote.toList ∧ path = remote ++ ":" ++ rest ∧
    path' = remote ++ ":" ++ rest' ∧
    Relation.EqvGen Respelled (splitOn '/' rest) (splitOn '/' rest')

theorem foldl_respelled {parts parts' : List String} (h : Respelled parts parts')
    (kept : List String) : parts'.foldl stackPart kept = parts.foldl stackPart kept := by
  cases h with
  | slash before after => exact @foldl_skip [""] stackPart_empty before after kept
  | dot before after => exact @foldl_skip ["."] stackPart_dot before after kept
  | detour before after hname =>
    refine foldl_skip (fun kept => ?_) before after kept
    rw [List.foldl_cons, List.foldl_cons, List.foldl_nil, stackPart_name hname, stackPart_dotdot]
    rfl

theorem foldl_sameParts {parts parts' : List String} (h : Relation.EqvGen Respelled parts parts')
    (kept : List String) : parts.foldl stackPart kept = parts'.foldl stackPart kept := by
  induction h with
  | rel _ _ hstep => exact (foldl_respelled hstep kept).symm
  | refl _ => rfl
  | symm _ _ _ ih => exact ih.symm
  | trans _ _ _ _ _ ih ih' => exact ih.trans ih'

/-- Two spellings of a directory have one normal form. -/
theorem SameDirectory.normalize_eq {path path' : String} (h : SameDirectory path path') :
    normalizeRemotePath path = normalizeRemotePath path' := by
  obtain ⟨remote, rest, rest', hremote, rfl, rfl, hparts⟩ := h
  have hmk : ∀ tail : String, normalizeRemotePath (remote ++ ":" ++ tail) =
      remote ++ ":" ++ dirText (dirParts tail) := by
    intro tail
    have hnormal := normalizeRemotePath_mk (afterSep_append hremote tail)
    rw [beforeSep_append hremote] at hnormal
    exact hnormal
  rw [hmk, hmk]
  unfold dirParts
  rw [foldl_sameParts hparts]

/-! ### What lies below a directory -/

/-- A path, in any spelling, that leads from a path of a remote into further names. -/
def Descendant (path below : String) : Prop :=
  ':' ∈ path.toList ∧ ∃ names, names ≠ [] ∧ (∀ n ∈ names, IsName n) ∧
    SameDirectory (path ++ "/" ++ join "/" names) below

theorem dirParts_below {names : List String} (h : ∀ n ∈ names, IsName n) (hne : names ≠ [])
    (path : String) : dirParts (path ++ "/" ++ join "/" names) = dirParts path ++ names := by
  rw [dirParts_append, splitOn_join_names h hne, foldl_stackPart_names h]
  simp

theorem join_append {sep : String} {front names : List String} (hfront : front ≠ [])
    (hnames : names ≠ []) :
    join sep (front ++ names) = join sep front ++ sep ++ join sep names := by
  match front, names, hfront, hnames with
  | [n], m :: rest, _, _ => rfl
  | n :: m :: front, names, _, hnames =>
    have ih := @join_append sep (m :: front) names (List.cons_ne_nil _ _) hnames
    show n ++ sep ++ join sep (m :: front ++ names) = _
    rw [ih]
    simp only [join, String.append_assoc]

theorem dirText_append {front names : List String} (hfront : ∀ n ∈ front, IsName n)
    (hnames : ∀ n ∈ names, IsName n) (hne : names ≠ []) :
    dirText (front ++ names) = dirText front ++ "/" ++ join "/" names := by
  unfold dirText
  by_cases hroot : front = []
  · subst hroot
    rw [List.nil_append, slashed, if_neg (join_ne_empty hnames hne)]
    show _ = slashed "" ++ "/" ++ _
    rw [slashed, if_pos rfl, String.empty_append]
  · have hall : ∀ n ∈ front ++ names, IsName n := by
      intro n hn
      rcases List.mem_append.mp hn with hold | hnew
      · exact hfront n hold
      · exact hnames n hnew
    have hshown := join_ne_empty hall (List.append_ne_nil_of_left_ne_nil hroot names)
    rw [slashed, slashed, if_neg hshown, if_neg (join_ne_empty hfront hroot),
      join_append hroot hne]
    simp only [String.append_assoc]

/-- The normal form of a path below another one continues its normal form behind a slash. -/
theorem Descendant.normalize {path below : String} (h : Descendant path below) :
    ∃ rest, normalizeRemotePath below = normalizeRemotePath path ++ "/" ++ rest := by
  obtain ⟨hcolon, names, hne, hnames, hsame⟩ := h
  cases hafter : afterSep ':' path with
  | none => exact absurd hcolon (afterSep_eq_none.mp hafter)
  | some tail =>
    have hremote := colon_notMem_beforeSep path
    have hlong : path ++ "/" ++ join "/" names =
        beforeSep ':' path ++ ":" ++ (tail ++ "/" ++ join "/" names) := by
      conv_lhs => rw [eq_of_afterSep hafter]
      simp only [String.append_assoc]
    have hnormal := normalizeRemotePath_mk
      (afterSep_append hremote (tail ++ "/" ++ join "/" names))
    rw [beforeSep_append hremote, dirParts_below hnames hne,
      dirText_append (dirParts_isName tail) hnames hne] at hnormal
    rw [← hsame.normalize_eq, hlong, normalizeRemotePath_mk hafter]
    refine ⟨join "/" names, hnormal.trans ?_⟩
    simp only [String.append_assoc]

/-! ### Hidden directories -/

theorem casefold_append (a b : String) : casefold (a ++ b) = casefold a ++ casefold b := by
  unfold casefold
  rw [← String.toList_inj]
  simp

/-- A text without the slashes at its end, and these slashes. -/
theorem rstripOf_append (text : String) :
    ∃ k, text = rstripOf (· = '/') text ++ String.ofList (List.replicate k '/') := by
  have hlist : ∀ cs : List Char, ∃ k,
      cs = cs.rdropWhile (fun c => decide (c = '/')) ++ List.replicate k '/' := by
    intro cs
    induction cs using List.reverseRecOn with
    | nil => exact ⟨0, rfl⟩
    | append_singleton front c ih =>
      by_cases hc : c = '/'
      · obtain ⟨k, hk⟩ := ih
        subst hc
        refine ⟨k + 1, ?_⟩
        rw [List.rdropWhile_concat_pos _ _ _ (by simp), List.replicate_succ', ← List.append_assoc,
          ← hk]
      · refine ⟨0, ?_⟩
        rw [List.rdropWhile_concat_neg _ _ _ (by simpa using hc)]
        simp
  obtain ⟨k, hk⟩ := hlist text.toList
  refine ⟨k, ?_⟩
  rw [← String.toList_inj]
  simpa [rstripOf] using hk

/-- A hidden name is the normal form, or it is above it. -/
theorem isHiddenRemotePath_iff {path : String} {hidden : List String} :
    isHiddenRemotePath path hidden = true ↔ ∃ blocked ∈ hidden,
      casefold (normalizeRemotePath path) = blocked ∨ ∃ rest,
        casefold (normalizeRemotePath path) = rstripOf (· = '/') blocked ++ "/" ++ rest := by
  unfold isHiddenRemotePath
  rw [List.any_eq_true]
  simp only [Bool.or_eq_true, decide_eq_true_eq, startsWith_iff]

/-- Whatever continues a hidden name behind a slash is hidden. -/
theorem hidden_below {name blocked : String} (more : String)
    (h : name = blocked ∨ ∃ rest, name = rstripOf (· = '/') blocked ++ "/" ++ rest) :
    ∃ rest, name ++ "/" ++ more = rstripOf (· = '/') blocked ++ "/" ++ rest := by
  rcases h with rfl | ⟨rest, rfl⟩
  · obtain ⟨k, hk⟩ := rstripOf_append name
    refine ⟨String.ofList (List.replicate k '/') ++ more, ?_⟩
    conv_lhs => rw [hk]
    rw [← String.toList_inj]
    simp only [String.toList_append, String.toList_ofList, List.append_assoc]
    have hslash : List.replicate k '/' ++ ("/".toList ++ more.toList) =
        "/".toList ++ (List.replicate k '/' ++ more.toList) := by
      show List.replicate k '/' ++ '/' :: more.toList = '/' :: (List.replicate k '/' ++ more.toList)
      rw [← List.cons_append, ← List.replicate_succ, List.replicate_succ', List.append_assoc]
      rfl
    rw [hslash]
  · exact ⟨rest ++ "/" ++ more, by simp only [String.append_assoc]⟩

theorem Descendant.hidden {path below : String} {hidden : List String}
    (h : Descendant path below) (hhidden : isHiddenRemotePath path hidden = true) :
    isHiddenRemotePath below hidden = true := by
  obtain ⟨blocked, hblocked, hname⟩ := isHiddenRemotePath_iff.mp hhidden
  obtain ⟨rest, hrest⟩ := h.normalize
  have hslash : casefold "/" = "/" := by decide
  refine isHiddenRemotePath_iff.mpr ⟨blocked, hblocked, Or.inr ?_⟩
  rw [hrest, casefold_append, casefold_append, hslash]
  exact hidden_below (casefold rest) hname

theorem SameDirectory.hidden_eq {path path' : String} (h : SameDirectory path path')
    (hidden : List String) : isHiddenRemotePath path hidden = isHiddenRemotePath path' hidden := by
  unfold isHiddenRemotePath
  rw [h.normalize_eq]

/-- **Hidden directories stay hidden**: the normal form of a normal form is itself; whatever
is hidden, all spellings of a directory get one answer; and what lies below a hidden path
is hidden. -/
theorem hiddenPaths :
    (∀ path, normalizeRemotePath (normalizeRemotePath path) = normalizeRemotePath path) ∧
      (∀ hidden path path', SameDirectory path path' →
        isHiddenRemotePath path hidden = isHiddenRemotePath path' hidden) ∧
      ∀ hidden path below, Descendant path below → isHiddenRemotePath path hidden = true →
        isHiddenRemotePath below hidden = true :=
  ⟨normalizeRemotePath_idem, fun hidden _ _ h => h.hidden_eq hidden,
    fun _ _ _ h hhidden => h.hidden hhidden⟩

example : isHiddenRemotePath "PCloud:Photos/..//crypto folder/./2024"
    (normalizeHiddenRemotePaths .none) = true := by
  decide +kernel

end RcloneSync
