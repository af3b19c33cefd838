/-
RcloneSync/ConfigDiff.lean

The differences between a stored configuration and the current one (`diff_config_snapshot`,
routes/api_maintenance.py).

The walk goes down where both sides are mappings.  Elsewhere it compares the two values and shows
them: whether they are set, if a key on the way has a word of the pattern, and else as JSON text.
A list, or a section that one side does not have, is such a text as a whole, with the secrets in
it; so is a value under a key that only `is_secret_key` takes for secret.

Two runs whose configurations differ in secrets alone (`Twin`) give the same answer exactly if no
secret is seen (`same_diff_iff`): in the JSON text of a value that differs, every secret has the
same characters in both runs as far as the text is shown, and the parts of a secret that is a
mapping on both sides differ at the same keys.
-/
import Mathlib.Data.List.Dedup
import Mathlib.Data.List.Lex
import Mathlib.Data.List.Sort
import Mathlib.Data.Set.Card
import Mathlib.Data.String.Basic
import RcloneSync.ConfigRedaction
import RcloneSync.JsonPieces
import RcloneSync.Regex

namespace RcloneSync

open Py Regex

/-! ### The walk -/

/-- A place at which the walk stops: the keys on the way, and the two values. -/
structure DiffPlace where
  path : List String
  old : Value
  new : Value
  deriving DecidableEq

/-- `sorted(set(old) | set(new))`. -/
def diffKeys (old new : Dict) : List String :=
  ((old.map Prod.fst ++ new.map Prod.fst).dedup).mergeSort fun a b => !decide (b < a)

theorem sizeOf_get_lt (d : Dict) (key : String) :
    sizeOf (Dict.get d key) < sizeOf (Value.dict d) := by
  induction d with
  | nil =>
    show sizeOf Value.none < _
    simp
  | cons e rest ih =>
    obtain ⟨k, v⟩ := e
    unfold Dict.get at ih ⊢
    rw [List.lookup_cons]
    split
    · simp only [Option.getD_some, Value.dict.sizeOf_spec, List.cons.sizeOf_spec,
        Prod.mk.sizeOf_spec]
      omega
    · refine ih.trans ?_
      simp only [Value.dict.sizeOf_spec, List.cons.sizeOf_spec, Prod.mk.sizeOf_spec]
      omega

/-- `walk`: the places whose values differ. -/
def walk (path : List String) (old new : Value) : List DiffPlace :=
  match old, new with
  | .dict o, .dict n =>
    (diffKeys o n).flatMap fun key => walk (path ++ [key]) (Dict.get o key) (Dict.get n key)
  | old, new => if pyEq old new then [] else [⟨path, old, new⟩]
termination_by sizeOf old
decreasing_by exact sizeOf_get_lt o key

/-- `secret_key`. -/
def diffPattern : Pattern :=
  let anything := Pattern.opt (.one (· ≠ '\n'))
  choice [literal reFold "password", literal reFold "secret", literal reFold "token",
    literal reFold "credential",
    sequence [literal reFold "private", anything, literal reFold "key"],
    sequence [literal reFold "api", anything, literal reFold "key"]]

def isSensitivePath (path : List String) : Bool :=
  path.any fun part => (search diffPattern part).isSome

/-- `safe_display`. -/
def safeDisplay (v : Value) : String :=
  let rendered := jsonDumps sortedJson v
  if rendered.length ≤ 240 then rendered else takeText 237 rendered ++ "…"

structure ConfigChange where
  path : String
  snapshot : String
  current : String
  sensitive : Bool
  deriving DecidableEq, Repr

/-- How a value under a sensitive key is shown. -/
def setOrNot (v : Value) : String := if isBlankValue v then "nicht gesetzt" else "gesetzt"

/-- `path_label`. -/
def pathLabel (path : List String) : String :=
  if join "." path = "" then "Konfiguration" else join "." path

def changeOf (p : DiffPlace) : ConfigChange where
  path := pathLabel p.path
  snapshot := if isSensitivePath p.path then setOrNot p.old else safeDisplay p.old
  current := if isSensitivePath p.path then setOrNot p.new else safeDisplay p.new
  sensitive := isSensitivePath p.path

def maxDiffChanges : Nat := 500

structure DiffResponse where
  snapshot : String
  changes : List ConfigChange
  total : Nat
  truncated : Bool
  deriving DecidableEq, Repr

/-- The answer for a snapshot and the current configuration. -/
def diffResponse (name : String) (old current : Dict) : DiffResponse :=
  let changes := (walk [] (.dict old) (.dict current)).map changeOf
  { snapshot := name
    changes := changes.take maxDiffChanges
    total := changes.length
    truncated := maxDiffChanges < changes.length }

/-! ### The request -/

/-- What opening and reading a snapshot file gives. -/
inductive SnapshotAccess
  | missing
  | failed
  | irregular
  | file (size : Nat) (raw : List UInt8)
  deriving DecidableEq, Repr

/-- The surroundings: the files of the snapshot directory, how one is read (`none` if it is no
YAML text or no valid configuration), and the current configuration. -/
structure DiffEnv where
  openSnapshot : String → SnapshotAccess
  loadConfig : List UInt8 → Option Dict
  current : Dict

structure HttpFault where
  status : Nat
  detail : String
  deriving DecidableEq, Repr

def maxConfigSnapshotBytes : Nat := 4 * 1024 * 1024

/-- `_SNAPSHOT_NAME_RE`. -/
def snapshotNamePattern : Pattern :=
  let digit := Pattern.one isDigit
  let hex := Pattern.one fun c => "0123456789abcdef".toList.contains c
  sequence [choice [literal id "config", literal id "pre-restore"], literal id "-", .times 8 digit,
    literal id "T", .times 6 digit, literal id "Z-", .times 8 hex, literal id "-", .times 4 hex,
    literal id ".yaml", .atEnd]

/-- `_SNAPSHOT_NAME_RE.fullmatch(name)`. -/
def isSnapshotName (name : String) : Bool :=
  (snapshotNamePattern.runs ⟨none, name.toList, []⟩).any fun found => found.rest = []

/-- `diff_config_snapshot`. -/
def diffConfigSnapshot (env : DiffEnv) (name : String) : Except HttpFault DiffResponse :=
  if !isSnapshotName name then .error ⟨400, "Ungültiger Snapshot-Name"⟩
  else
    match env.openSnapshot name with
    | .missing => .error ⟨404, "Snapshot nicht gefunden"⟩
    | .failed => .error ⟨400, "Snapshot konnte nicht geöffnet werden"⟩
    | .irregular => .error ⟨400, "Snapshot ist keine gültige Konfigurationsdatei"⟩
    | .file size raw =>
      if maxConfigSnapshotBytes < size then
        .error ⟨400, "Snapshot ist keine gültige Konfigurationsdatei"⟩
      else
        match env.loadConfig (raw.take (maxConfigSnapshotBytes + 1)) with
        | none => .error ⟨422, "Snapshot ist ungültig und kann nicht verglichen werden"⟩
        | some old => .ok (diffResponse name old env.current)

/-! ### Two runs -/

/-- A key that `is_secret_key` or the pattern of the diff takes for secret. -/
def isSecretName (key : String) : Bool := isSecretKey key || (search diffPattern key).isSome

mutual

/-- The values differ only in values under secret keys that are not blank. -/
def Twin : Value → Value → Prop
  | .list xs, .list ys => TwinItems xs ys
  | .dict d, .dict e => TwinEntries d e
  | v, w => v = w

def TwinItems : List Value → List Value → Prop
  | [], [] => True
  | v :: vs, w :: ws => Twin v w ∧ TwinItems vs ws
  | _, _ => False

def TwinEntries : Dict → Dict → Prop
  | [], [] => True
  | (k, v) :: d, (l, w) :: e =>
    (k = l ∧ (Twin v w ∨
      (isSecretName k = true ∧ isBlankValue v = false ∧ isBlankValue w = false))) ∧ TwinEntries d e
  | _, _ => False

end

mutual

/-- The two runs agree on which values under secret keys are equal between the two sides. -/
def Agree : Value → Value → Value → Value → Prop
  | .list os, .list ns, .list os', .list ns' => AgreeItems os ns os' ns'
  | .dict o, .dict n, .dict o', .dict n' => AgreeEntries o n o' n'
  | _, _, _, _ => True
termination_by structural o => o

def AgreeItems : List Value → List Value → List Value → List Value → Prop
  | o :: os, n :: ns, o' :: os', n' :: ns' => Agree o n o' n' ∧ AgreeItems os ns os' ns'
  | _, _, _, _ => True
termination_by structural os => os

def AgreeEntries : Dict → Dict → Dict → Dict → Prop
  | (k, v) :: o, n, (_, v') :: o', n' =>
    (∀ w w', n.lookup k = some w → n'.lookup k = some w' →
      (isSecretName k = true ∧ pyEq v w = pyEq v' w') ∨
      (isSecretName k = false ∧ Agree v w v' w')) ∧ AgreeEntries o n o' n'
  | _, _, _, _ => True
termination_by structural o => o

end

mutual

/-- No secret is a mapping on both sides. -/
def PlainSecrets : Value → Value → Prop
  | .dict o, .dict n => PlainEntries o n
  | _, _ => True
termination_by structural o => o

def PlainEntries : Dict → Dict → Prop
  | (k, v) :: o, n =>
    (∀ w, n.lookup k = some w →
      (isSecretName k = true ∧ (asDict v = none ∨ asDict w = none)) ∨
      (isSecretName k = false ∧ PlainSecrets v w)) ∧ PlainEntries o n
  | [], _ => True
termination_by structural o => o

end

/-- Two runs whose configurations differ only in secrets. -/
structure SecretTwins (o n o' n' : Dict) : Prop where
  old : Twin (.dict o) (.dict o')
  current : Twin (.dict n) (.dict n')
  agree : Agree (.dict o) (.dict n) (.dict o') (.dict n')

/-! ### Equality in the two runs -/

/-- What a key finds in twins: twins again, or secrets that are not blank. -/
theorem lookup_of_twinEntries {d e : Dict} (h : TwinEntries d e) (key : String) :
    (d.lookup key = none ∧ e.lookup key = none) ∨
      ∃ v w, d.lookup key = some v ∧ e.lookup key = some w ∧ (Twin v w ∨
        (isSecretName key = true ∧ isBlankValue v = false ∧ isBlankValue w = false)) := by
  induction d generalizing e with
  | nil =>
    cases e with
    | nil => exact .inl ⟨rfl, rfl⟩
    | cons _ _ => cases h
  | cons x d ih =>
    cases e with
    | nil => cases h
    | cons y e =>
      obtain ⟨k, v⟩ := x
      obtain ⟨l, w⟩ := y
      obtain ⟨⟨rfl, hvalue⟩, hrest⟩ := h
      by_cases hkey : key = k
      · subst hkey
        exact .inr ⟨v, w, by simp, by simp, hvalue⟩
      · have hbeq : (key == k) = false := beq_false_of_ne hkey
        simp only [List.lookup_cons, hbeq]
        exact ih hrest

theorem keys_of_twinEntries {d e : Dict} (h : TwinEntries d e) :
    d.map Prod.fst = e.map Prod.fst := by
  induction d generalizing e with
  | nil =>
    cases e with
    | nil => rfl
    | cons _ _ => cases h
  | cons x d ih =>
    cases e with
    | nil => cases h
    | cons y e =>
      obtain ⟨k, v⟩ := x
      obtain ⟨l, w⟩ := y
      obtain ⟨⟨rfl, -⟩, hrest⟩ := h
      simp [ih hrest]

/-- Twins are both lists, both mappings, or the same. -/
theorem twin_cases {v w : Value} (h : Twin v w) :
    (∃ xs ys, v = .list xs ∧ w = .list ys ∧ TwinItems xs ys) ∨
      (∃ d e, v = .dict d ∧ w = .dict e ∧ TwinEntries d e) ∨
      (v = w ∧ asList v = none ∧ asDict v = none) := by
  cases v with
  | list xs =>
    cases w with
    | list ys => exact .inl ⟨xs, ys, rfl, rfl, h⟩
    | none | bool | int | float | str | dict => cases h
  | dict d =>
    cases w with
    | dict e => exact .inr (.inl ⟨d, e, rfl, rfl, h⟩)
    | none | bool | int | float | str | list => cases h
  | none | bool | int | float | str =>
    refine .inr (.inr ⟨?_, rfl, rfl⟩)
    cases w <;> exact h

theorem asDict_of_twin {v w : Value} (h : Twin v w) : asDict v = none ↔ asDict w = none := by
  rcases twin_cases h with ⟨_, _, rfl, rfl, -⟩ | ⟨_, _, rfl, rfl, -⟩ | ⟨rfl, -, -⟩
  · exact Iff.rfl
  · simp [asDict]
  · exact Iff.rfl

theorem isBlankValue_of_twin {v w : Value} (h : Twin v w) : isBlankValue v = isBlankValue w := by
  rcases twin_cases h with ⟨_, _, rfl, rfl, -⟩ | ⟨_, _, rfl, rfl, -⟩ | ⟨rfl, -, -⟩
  · rfl
  · rfl
  · rfl

theorem pyEq_list_left {v : Value} (xs : List Value) (h : asList v = none) :
    pyEq (.list xs) v = false := by
  cases v <;> simp_all [pyEq, numberOf, asList]

theorem pyEq_list_right {v : Value} (xs : List Value) (h : asList v = none) :
    pyEq v (.list xs) = false := by
  cases v <;> simp_all [pyEq, numberOf, asList]

theorem pyEq_dict_left {v : Value} (d : Dict) (h : asDict v = none) :
    pyEq (.dict d) v = false := by
  cases v <;> simp_all [pyEq, numberOf, asDict]

theorem pyEq_dict_right {v : Value} (d : Dict) (h : asDict v = none) :
    pyEq v (.dict d) = false := by
  cases v <;> simp_all [pyEq, numberOf, asDict]

theorem pyEq_twin_scalar {o n o' n' : Value} (hlist : asList o = none) (hdict : asDict o = none)
    (ho : Twin o o') (hn : Twin n n') : pyEq o n = pyEq o' n' := by
  obtain rfl : o = o' := by
    rcases twin_cases ho with ⟨_, _, rfl, -, -⟩ | ⟨_, _, rfl, -, -⟩ | ⟨rfl, -, -⟩
    · cases hlist
    · cases hdict
    · rfl
  rcases twin_cases hn with ⟨_, _, rfl, rfl, -⟩ | ⟨_, _, rfl, rfl, -⟩ | ⟨rfl, -, -⟩
  · rw [pyEq_list_right _ hlist, pyEq_list_right _ hlist]
  · rw [pyEq_dict_right _ hdict, pyEq_dict_right _ hdict]
  · rfl

theorem twin_of_plain {k : String} {v w : Value} (hplain : isSecretName k = false)
    (h : Twin v w ∨ (isSecretName k = true ∧ isBlankValue v = false ∧ isBlankValue w = false)) :
    Twin v w := by
  rcases h with h | ⟨hsecret, -⟩
  · exact h
  · rw [hplain] at hsecret
    cases hsecret

theorem agreeEntries_cons {k l : String} {v v' : Value} {o n o' n' : Dict} :
    AgreeEntries ((k, v) :: o) n ((l, v') :: o') n' ↔
      (∀ w w', n.lookup k = some w → n'.lookup k = some w' →
        (isSecretName k = true ∧ pyEq v w = pyEq v' w') ∨
        (isSecretName k = false ∧ Agree v w v' w')) ∧ AgreeEntries o n o' n' := Iff.rfl

mutual

/-- Twins on both sides that agree are equal in both runs or in none. -/
theorem pyEq_twin : (o n o' n' : Value) → Twin o o' → Twin n n' → Agree o n o' n' →
    pyEq o n = pyEq o' n'
  | .list os, n, o', n', ho, hn, hagree => by
    cases o' with
    | list os' =>
      rcases twin_cases hn with ⟨ns, ns', rfl, rfl, hns⟩ | ⟨e, e', rfl, rfl, -⟩ | ⟨rfl, hlist, -⟩
      · exact pyEqList_twin os ns os' ns' ho hns hagree
      · rfl
      · rw [pyEq_list_left _ hlist, pyEq_list_left _ hlist]
    | none | bool | int | float | str | dict => cases ho
  | .dict d, n, o', n', ho, hn, hagree => by
    cases o' with
    | dict d' =>
      rcases twin_cases hn with ⟨ns, ns', rfl, rfl, -⟩ | ⟨e, e', rfl, rfl, he⟩ | ⟨rfl, -, hdict⟩
      · rfl
      · have hd' : d.length = d'.length := by
          simpa using congrArg List.length (keys_of_twinEntries ho)
        have he' : e.length = e'.length := by
          simpa using congrArg List.length (keys_of_twinEntries he)
        simp only [pyEq]
        rw [hd', he', pyEqEntries_twin d e d' e' ho he hagree]
      · rw [pyEq_dict_left _ hdict, pyEq_dict_left _ hdict]
    | none | bool | int | float | str | list => cases ho
  | .none, n, o', n', ho, hn, _ => pyEq_twin_scalar rfl rfl ho hn
  | .bool _, n, o', n', ho, hn, _ => pyEq_twin_scalar rfl rfl ho hn
  | .int _, n, o', n', ho, hn, _ => pyEq_twin_scalar rfl rfl ho hn
  | .float _, n, o', n', ho, hn, _ => pyEq_twin_scalar rfl rfl ho hn
  | .str _, n, o', n', ho, hn, _ => pyEq_twin_scalar rfl rfl ho hn

theorem pyEqList_twin : (os ns os' ns' : List Value) → TwinItems os os' → TwinItems ns ns' →
    AgreeItems os ns os' ns' → pyEqList os ns = pyEqList os' ns'
  | [], [], [], [], _, _, _ => rfl
  | [], _ :: _, [], _ :: _, _, _, _ => rfl
  | _ :: _, [], _ :: _, [], _, _, _ => rfl
  | o :: os, n :: ns, o' :: os', n' :: ns', ho, hn, hagree => by
    simp only [pyEqList]
    rw [pyEq_twin o n o' n' ho.1 hn.1 hagree.1, pyEqList_twin os ns os' ns' ho.2 hn.2 hagree.2]

theorem pyEqEntries_twin : (o n o' n' : Dict) → TwinEntries o o' → TwinEntries n n' →
    AgreeEntries o n o' n' → pyEqEntries o n = pyEqEntries o' n'
  | [], _, [], _, _, _, _ => rfl
  | (k, v) :: o, n, (l, v') :: o', n', ho, hn, hagree => by
    obtain ⟨⟨rfl, hvalue⟩, hrest⟩ := ho
    obtain ⟨hhead, htail⟩ := agreeEntries_cons.mp hagree
    simp only [pyEqEntries]
    rw [pyEqEntries_twin o n o' n' hrest hn htail]
    congr 1
    rcases lookup_of_twinEntries hn k with ⟨hw, hw'⟩ | ⟨w, w', hw, hw', htwin⟩
    · rw [hw, hw']
    · rw [hw, hw']
      rcases hhead w w' hw hw' with ⟨-, hequal⟩ | ⟨hplain, hagree⟩
      · exact hequal
      · exact pyEq_twin v w v' w' (twin_of_plain hplain hvalue) (twin_of_plain hplain htwin) hagree

end

/-! ### The places of the two runs -/

theorem walk_dict (path : List String) (o n : Dict) : walk path (.dict o) (.dict n) =
    (diffKeys o n).flatMap fun key => walk (path ++ [key]) (Dict.get o key) (Dict.get n key) := by
  rw [walk]

theorem walk_stop (path : List String) {o n : Value} (h : asDict o = none ∨ asDict n = none) :
    walk path o n = if pyEq o n then [] else [⟨path, o, n⟩] := by
  unfold walk
  cases o <;> cases n <;> simp_all [asDict]

/-- The same place, with the same sides blank. -/
structure SamePlace (p p' : DiffPlace) : Prop where
  path : p.path = p'.path
  old : isBlankValue p.old = isBlankValue p'.old
  new : isBlankValue p.new = isBlankValue p'.new

/-- Places that differ in both runs or in none. -/
theorem forall₂_stop {path : List String} {o n o' n' : Value}
    (hstop : asDict o = none ∨ asDict n = none) (hstop' : asDict o' = none ∨ asDict n' = none)
    (heq : pyEq o n = pyEq o' n') (ho : isBlankValue o = isBlankValue o')
    (hn : isBlankValue n = isBlankValue n') :
    List.Forall₂ SamePlace (walk path o n) (walk path o' n') := by
  rw [walk_stop path hstop, walk_stop path hstop', heq]
  split
  · exact .nil
  · exact .cons ⟨rfl, ho, hn⟩ .nil

theorem forall₂_flatMap {α β : Type} {R : β → β → Prop} {f g : α → List β} (keys : List α)
    (h : ∀ key, List.Forall₂ R (f key) (g key)) :
    List.Forall₂ R (keys.flatMap f) (keys.flatMap g) := by
  induction keys with
  | nil => exact .nil
  | cons key keys ih =>
    rw [List.flatMap_cons, List.flatMap_cons]
    exact List.rel_append (h key) ih

section Runs

variable {o n o' n' : Dict} {key : String}

theorem agree_lookup (ho : TwinEntries o o') (h : AgreeEntries o n o' n') {v v' w w' : Value}
    (hv : o.lookup key = some v) (hv' : o'.lookup key = some v') (hw : n.lookup key = some w)
    (hw' : n'.lookup key = some w') :
    (isSecretName key = true ∧ pyEq v w = pyEq v' w') ∨
      (isSecretName key = false ∧ Agree v w v' w') := by
  induction o generalizing o' with
  | nil => cases hv
  | cons x o ih =>
    cases o' with
    | nil => cases ho
    | cons y o' =>
      obtain ⟨k, a⟩ := x
      obtain ⟨l, b⟩ := y
      obtain ⟨⟨rfl, -⟩, hrest⟩ := ho
      obtain ⟨hhead, htail⟩ := agreeEntries_cons.mp h
      by_cases hkey : key = k
      · subst hkey
        rw [List.lookup_cons, beq_self_eq_true] at hv hv'
        cases hv
        cases hv'
        exact hhead w w' hw hw'
      · rw [List.lookup_cons, beq_false_of_ne hkey] at hv hv'
        exact ih hrest htail hv hv'

theorem plain_lookup (h : PlainEntries o n) {v w : Value} (hv : o.lookup key = some v)
    (hw : n.lookup key = some w) :
    (isSecretName key = true ∧ (asDict v = none ∨ asDict w = none)) ∨
      (isSecretName key = false ∧ PlainSecrets v w) := by
  induction o with
  | nil => cases hv
  | cons x o ih =>
    obtain ⟨k, a⟩ := x
    obtain ⟨hhead, htail⟩ := h
    by_cases hkey : key = k
    · subst hkey
      rw [List.lookup_cons, beq_self_eq_true] at hv
      cases hv
      exact hhead w hw
    · rw [List.lookup_cons, beq_false_of_ne hkey] at hv
      exact ih htail hv

/-- Twins, or secrets that are not blank. -/
def SecretTwin (v w : Value) : Prop :=
  Twin v w ∨ (isBlankValue v = false ∧ isBlankValue w = false)

theorem secretTwin_get (h : TwinEntries o o') (key : String) :
    SecretTwin (Dict.get o key) (Dict.get o' key) := by
  unfold Dict.get
  rcases lookup_of_twinEntries h key with ⟨hv, hv'⟩ | ⟨v, v', hv, hv', htwin⟩
  · rw [hv, hv']
    exact .inl rfl
  · rw [hv, hv']
    exact htwin.imp_right And.right

theorem twin_get (h : TwinEntries o o') (hplain : isSecretName key = false) :
    Twin (Dict.get o key) (Dict.get o' key) := by
  unfold Dict.get
  rcases lookup_of_twinEntries h key with ⟨hv, hv'⟩ | ⟨v, v', hv, hv', htwin⟩
  · rw [hv, hv']
    rfl
  · rw [hv, hv']
    exact twin_of_plain hplain htwin

theorem isBlankValue_of_secretTwin {v w : Value} (h : SecretTwin v w) :
    isBlankValue v = isBlankValue w := by
  rcases h with h | ⟨hv, hw⟩
  · exact isBlankValue_of_twin h
  · rw [hv, hw]

theorem pyEq_none_left (v : Value) : pyEq .none v = decide (v = .none) := by
  cases v <;> simp [pyEq, numberOf]

theorem pyEq_none_right (v : Value) : pyEq v .none = decide (v = .none) := by
  cases v <;> simp [pyEq, numberOf]

theorem none_of_secretTwin {v w : Value} (h : SecretTwin v w) : v = .none ↔ w = .none := by
  rcases h with h | ⟨hv, hw⟩
  · rcases twin_cases h with ⟨_, _, rfl, rfl, -⟩ | ⟨_, _, rfl, rfl, -⟩ | ⟨rfl, -, -⟩
    · exact iff_of_false nofun nofun
    · exact iff_of_false nofun nofun
    · exact Iff.rfl
  · constructor
    · rintro rfl
      cases hv
    · rintro rfl
      cases hw

theorem agree_none_right (v v' w' : Value) : Agree v .none v' w' := by
  cases v <;> trivial

theorem plainSecrets_none_right (v : Value) : PlainSecrets v .none := by
  cases v <;> trivial

theorem agree_get (ho : TwinEntries o o') (hn : TwinEntries n n') (h : AgreeEntries o n o' n')
    (hplain : isSecretName key = false) :
    Agree (Dict.get o key) (Dict.get n key) (Dict.get o' key) (Dict.get n' key) := by
  unfold Dict.get
  rcases lookup_of_twinEntries ho key with ⟨hv, -⟩ | ⟨v, v', hv, hv', -⟩
  · rw [hv]
    trivial
  rcases lookup_of_twinEntries hn key with ⟨hw, -⟩ | ⟨w, w', hw, hw', -⟩
  · rw [hw]
    exact agree_none_right _ _ _
  rw [hv, hv', hw, hw']
  rcases agree_lookup ho h hv hv' hw hw' with ⟨hsecret, -⟩ | ⟨-, hagree⟩
  · rw [hplain] at hsecret
    cases hsecret
  · exact hagree

theorem plain_get (h : PlainEntries o n) (hplain : isSecretName key = false) :
    PlainSecrets (Dict.get o key) (Dict.get n key) := by
  unfold Dict.get
  cases hv : o.lookup key with
  | none => trivial
  | some v =>
    cases hw : n.lookup key with
    | none => exact plainSecrets_none_right _
    | some w =>
      rcases plain_lookup h hv hw with ⟨hsecret, -⟩ | ⟨-, hplain⟩
      · rw [hplain] at hsecret
        cases hsecret
      · exact hplain

theorem stop_get (h : PlainEntries o n) (hsecret : isSecretName key = true) :
    asDict (Dict.get o key) = none ∨ asDict (Dict.get n key) = none := by
  unfold Dict.get
  cases hv : o.lookup key with
  | none => exact .inl rfl
  | some v =>
    cases hw : n.lookup key with
    | none => exact .inr rfl
    | some w =>
      rcases plain_lookup h hv hw with ⟨-, hstop⟩ | ⟨hplain, -⟩
      · exact hstop
      · rw [hplain] at hsecret
        cases hsecret

/-- A secret is equal on both sides in both runs or in none. -/
theorem pyEq_get (ho : TwinEntries o o') (hn : TwinEntries n n') (h : AgreeEntries o n o' n')
    (hsecret : isSecretName key = true) :
    pyEq (Dict.get o key) (Dict.get n key) = pyEq (Dict.get o' key) (Dict.get n' key) := by
  have htwin := secretTwin_get ho key
  have htwin' := secretTwin_get hn key
  unfold Dict.get at htwin htwin' ⊢
  rcases lookup_of_twinEntries ho key with ⟨hv, hv'⟩ | ⟨v, v', hv, hv', -⟩
  · rw [hv, hv']
    simp only [Option.getD_none, pyEq_none_left, none_of_secretTwin htwin']
  rcases lookup_of_twinEntries hn key with ⟨hw, hw'⟩ | ⟨w, w', hw, hw', -⟩
  · rw [hw, hw']
    simp only [Option.getD_none, pyEq_none_right, none_of_secretTwin htwin]
  rw [hv, hv', hw, hw']
  rcases agree_lookup ho h hv hv' hw hw' with ⟨-, hequal⟩ | ⟨hplain, -⟩
  · exact hequal
  · rw [hplain] at hsecret
    cases hsecret

end Runs

/-- Where no secret is a mapping on both sides, the two runs differ at the same places, with the
same sides blank. -/
theorem walk_twin (path : List String) (o n : Value) {o' n' : Value} (ho : Twin o o')
    (hn : Twin n n') (hagree : Agree o n o' n') (hplain : PlainSecrets o n)
    (hplain' : PlainSecrets o' n') :
    List.Forall₂ SamePlace (walk path o n) (walk path o' n') := by
  induction path, o, n using walk.induct generalizing o' n' with
  | case1 path o n ih =>
    rcases twin_cases ho with ⟨_, _, h, -⟩ | ⟨_, d', h, rfl, hd⟩ | ⟨-, -, h⟩
    · cases h
    · cases h
      rcases twin_cases hn with ⟨_, _, h, -⟩ | ⟨_, e', h, rfl, he⟩ | ⟨-, -, h⟩
      · cases h
      · cases h
        rw [walk_dict, walk_dict]
        have hkeys : diffKeys o n = diffKeys d' e' := by
          unfold diffKeys
          rw [keys_of_twinEntries hd, keys_of_twinEntries he]
        rw [← hkeys]
        refine forall₂_flatMap _ fun key => ?_
        cases hsecret : isSecretName key with
        | false =>
          exact ih key (twin_get hd hsecret) (twin_get he hsecret)
            (agree_get hd he hagree hsecret) (plain_get hplain hsecret) (plain_get hplain' hsecret)
        | true =>
          exact forall₂_stop (stop_get hplain hsecret) (stop_get hplain' hsecret)
            (pyEq_get hd he hagree hsecret) (isBlankValue_of_secretTwin (secretTwin_get hd key))
            (isBlankValue_of_secretTwin (secretTwin_get he key))
      · cases h
    · cases h
  | case2 path o n hstop _ | case3 path o n hstop _ =>
    have hstop : asDict o = none ∨ asDict n = none := by
      cases hd : asDict o with
      | none => exact .inl rfl
      | some d =>
        cases he : asDict n with
        | none => exact .inr rfl
        | some e => exact (hstop d e (eq_dict_of_asDict hd) (eq_dict_of_asDict he)).elim
    exact forall₂_stop hstop (hstop.imp (asDict_of_twin ho).mp (asDict_of_twin hn).mp)
      (pyEq_twin o n o' n' ho hn hagree) (isBlankValue_of_twin ho) (isBlankValue_of_twin hn)

/-! ### Where two configurations differ -/

/-- The two values at the end of a path that goes through mappings on both sides, if one of them is
no mapping. -/
def sidesAt : List String → Value → Value → Option (Value × Value)
  | [], .dict _, .dict _ => none
  | [], o, n => some (o, n)
  | key :: path, .dict o, .dict n => sidesAt path (Dict.get o key) (Dict.get n key)
  | _ :: _, _, _ => none

/-- The paths at whose ends the two configurations differ. -/
def differing (o n : Dict) : Set (List String) :=
  {path | ∃ v w, sidesAt path (.dict o) (.dict n) = some (v, w) ∧ pyEq v w = false}

/-- The first 500 of them, in the order of their keys. -/
def shownPaths (o n : Dict) : Set (List String) :=
  {path ∈ differing o n | {p ∈ differing o n | p < path}.encard < maxDiffChanges}

theorem sidesAt_stop {o n : Value} (h : asDict o = none ∨ asDict n = none) :
    sidesAt [] o n = some (o, n) ∧ ∀ key path, sidesAt (key :: path) o n = none := by
  cases o <;> cases n <;> simp_all [asDict, sidesAt]

theorem mem_diffKeys {o n : Dict} {key : String} :
    key ∈ diffKeys o n ↔ key ∈ o.map Prod.fst ∨ key ∈ n.map Prod.fst := by
  unfold diffKeys
  rw [List.mem_mergeSort, List.mem_dedup, List.mem_append]

theorem get_of_notMem {d : Dict} {key : String} (h : key ∉ d.map Prod.fst) :
    Dict.get d key = .none := by
  induction d with
  | nil => rfl
  | cons e d ih =>
    obtain ⟨hne, hd⟩ := not_or.mp (fun hmem => h (List.mem_cons.mpr hmem))
    have hbeq : (key == e.1) = false := beq_false_of_ne hne
    have hrest := ih hd
    unfold Dict.get at hrest ⊢
    rw [List.lookup_cons, hbeq]
    exact hrest

theorem mem_walk {path : List String} {o n : Value} {p : DiffPlace} :
    p ∈ walk path o n ↔ ∃ rel, p.path = path ++ rel ∧ sidesAt rel o n = some (p.old, p.new) ∧
      pyEq p.old p.new = false := by
  induction path, o, n using walk.induct with
  | case1 path o n ih =>
    rw [walk_dict, List.mem_flatMap]
    constructor
    · rintro ⟨key, -, hp⟩
      obtain ⟨rel, hpath, hsides, hdiffer⟩ := (ih key).mp hp
      exact ⟨key :: rel, by rw [hpath, List.append_assoc]; rfl, hsides, hdiffer⟩
    · rintro ⟨rel, hpath, hsides, hdiffer⟩
      cases rel with
      | nil => cases hsides
      | cons key rel =>
        refine ⟨key, ?_, (ih key).mpr
          ⟨rel, by rw [hpath, List.append_assoc]; rfl, hsides, hdiffer⟩⟩
        -- A key that neither side has leads to nothing on both sides.
        rw [mem_diffKeys]
        by_contra habsent
        obtain ⟨ho, hn⟩ := not_or.mp habsent
        rw [sidesAt, get_of_notMem ho, get_of_notMem hn] at hsides
        cases rel with
        | nil =>
          obtain ⟨hold, hnew⟩ := Prod.mk.inj (Option.some.inj hsides)
          rw [← hold, ← hnew] at hdiffer
          cases hdiffer
        | cons => cases hsides
  | case2 path o n hstop heq | case3 path o n hstop heq =>
    have hstop : asDict o = none ∨ asDict n = none := by
      cases hd : asDict o with
      | none => exact .inl rfl
      | some d =>
        cases he : asDict n with
        | none => exact .inr rfl
        | some e => exact (hstop d e (eq_dict_of_asDict hd) (eq_dict_of_asDict he)).elim
    obtain ⟨hhere, hbelow⟩ := sidesAt_stop hstop
    rw [walk_stop path hstop]
    constructor
    · intro hp
      by_cases hequal : pyEq o n = true
      · rw [if_pos hequal] at hp
        cases hp
      · rw [if_neg hequal] at hp
        rw [List.mem_singleton.mp hp]
        exact ⟨[], (List.append_nil path).symm, hhere, Bool.eq_false_of_not_eq_true hequal⟩
    · rintro ⟨rel, hpath, hsides, hdiffer⟩
      cases rel with
      | nil =>
        obtain ⟨hold, hnew⟩ := Prod.mk.inj (Option.some.inj (hhere.symm.trans hsides))
        rw [hold, hnew, hdiffer, if_neg Bool.false_ne_true, List.mem_singleton, ← hold, ← hnew]
        rw [List.append_nil] at hpath
        cases p
        simp_all
      | cons key rel =>
        rw [hbelow] at hsides
        cases hsides

theorem diffKeys_sorted (o n : Dict) : (diffKeys o n).Pairwise (· < ·) := by
  have hsorted : (diffKeys o n).Pairwise fun a b => (!decide (b < a)) = true := by
    refine List.pairwise_mergeSort (fun a b c hab hbc => ?_) (fun a b => ?_) _
    · simp only [Bool.not_eq_true', decide_eq_false_iff_not, not_lt] at hab hbc ⊢
      exact hab.trans hbc
    · simp only [Bool.or_eq_true, Bool.not_eq_true', decide_eq_false_iff_not, not_lt]
      exact le_total a b
  have hnodup : (diffKeys o n).Nodup :=
    (List.mergeSort_perm _ _).nodup_iff.mpr (List.nodup_dedup _)
  refine hsorted.imp₂ (fun a b hle hne => ?_) hnodup
  simp only [Bool.not_eq_true', decide_eq_false_iff_not, not_lt] at hle
  exact lt_of_le_of_ne hle hne

/-- The places come in the order of their paths. -/
theorem walk_sorted (path : List String) (o n : Value) :
    (walk path o n).Pairwise fun p q => p.path < q.path := by
  induction path, o, n using walk.induct with
  | case1 path o n ih =>
    rw [walk_dict, List.pairwise_flatMap]
    refine ⟨fun key _ => ih key, (diffKeys_sorted o n).imp fun {a b} hab p hp q hq => ?_⟩
    obtain ⟨rel, hpath, -⟩ := mem_walk.mp hp
    obtain ⟨rel', hpath', -⟩ := mem_walk.mp hq
    rw [hpath, hpath', List.append_assoc, List.append_assoc]
    exact List.append_left_lt (List.Lex.rel hab)
  | case2 path o n hstop heq | case3 path o n hstop heq =>
    have hstop : asDict o = none ∨ asDict n = none := by
      cases hd : asDict o with
      | none => exact .inl rfl
      | some d =>
        cases he : asDict n with
        | none => exact .inr rfl
        | some e => exact (hstop d e (eq_dict_of_asDict hd) (eq_dict_of_asDict he)).elim
    rw [walk_stop path hstop]
    by_cases hequal : pyEq o n = true
    · rw [if_pos hequal]
      exact .nil
    · rw [if_neg hequal]
      exact List.pairwise_singleton _ _

/-- The paths of the places at which the walk finds a difference. -/
def walkPaths (o n : Dict) : List (List String) :=
  (walk [] (.dict o) (.dict n)).map DiffPlace.path

theorem walkPaths_sorted (o n : Dict) : (walkPaths o n).Pairwise (· < ·) :=
  List.pairwise_map.mpr (walk_sorted [] (.dict o) (.dict n))

theorem mem_walkPaths {o n : Dict} {path : List String} :
    path ∈ walkPaths o n ↔ path ∈ differing o n := by
  unfold walkPaths
  rw [List.mem_map]
  constructor
  · rintro ⟨p, hp, rfl⟩
    obtain ⟨rel, hpath, hsides, hdiffer⟩ := mem_walk.mp hp
    rw [List.nil_append] at hpath
    exact ⟨p.old, p.new, by rw [hpath, hsides], hdiffer⟩
  · rintro ⟨v, w, hsides, hdiffer⟩
    exact ⟨⟨path, v, w⟩, mem_walk.mpr ⟨path, rfl, hsides, hdiffer⟩, rfl⟩

/-- A sorted list has as many members as it is long. -/
theorem encard_of_sorted {α : Type} [LinearOrder α] {l : List α} (h : l.Pairwise (· < ·)) :
    {x | x ∈ l}.encard = l.length := by
  have hnodup : l.Nodup := h.imp fun hab => hab.ne
  rw [← List.toFinset_card_of_nodup hnodup, ← Set.encard_coe_eq_coe_finsetCard,
    List.coe_toFinset]

/-- In a sorted list, an element stands among the first if few are smaller. -/
theorem mem_take_of_sorted {α : Type} [LinearOrder α] {l : List α} (h : l.Pairwise (· < ·))
    {x : α} {k : Nat} : x ∈ l.take k ↔ x ∈ l ∧ {y | y ∈ l ∧ y < x}.encard < k := by
  have hmiddle : ∀ front rest, l = front ++ x :: rest →
      {y | y ∈ l ∧ y < x}.encard = front.length := by
    rintro front rest rfl
    obtain ⟨hfront, hrest, hbefore⟩ := List.pairwise_append.mp h
    rw [← encard_of_sorted hfront]
    congr 1
    ext y
    constructor
    · rintro ⟨hy, hlt⟩
      rcases List.mem_append.mp hy with hy | hy
      · exact hy
      · rcases List.mem_cons.mp hy with rfl | hy
        · exact absurd hlt (lt_irrefl y)
        · exact absurd hlt ((List.pairwise_cons.mp hrest).1 y hy).asymm
    · exact fun hy => ⟨List.mem_append_left _ hy, hbefore y hy x List.mem_cons_self⟩
  constructor
  · intro hx
    obtain ⟨front, rest, hsplit⟩ := List.append_of_mem hx
    refine ⟨List.mem_of_mem_take hx, ?_⟩
    have hlength := congrArg List.length hsplit
    rw [List.length_take, List.length_append, List.length_cons] at hlength
    rw [hmiddle front (rest ++ l.drop k)
      (by rw [← List.cons_append, ← List.append_assoc, ← hsplit, List.take_append_drop])]
    exact_mod_cast (by omega : front.length < k)
  · rintro ⟨hx, hfew⟩
    obtain ⟨front, rest, hsplit⟩ := List.append_of_mem hx
    rw [hmiddle front rest hsplit] at hfew
    have hlt : front.length < k := by exact_mod_cast hfew
    rw [hsplit, List.take_append, List.take_of_length_le hlt.le]
    obtain ⟨j, hj⟩ : ∃ j, k - front.length = j + 1 := ⟨k - front.length - 1, by omega⟩
    rw [hj, List.take_succ_cons]
    exact List.mem_append_right _ List.mem_cons_self

theorem mem_shownPaths {o n : Dict} {path : List String} :
    path ∈ (walkPaths o n).take maxDiffChanges ↔ path ∈ shownPaths o n := by
  rw [mem_take_of_sorted (walkPaths_sorted o n), shownPaths, Set.mem_sep_iff, mem_walkPaths]
  simp only [mem_walkPaths]

theorem encard_differing (o n : Dict) : (differing o n).encard = (walkPaths o n).length := by
  rw [← encard_of_sorted (walkPaths_sorted o n)]
  congr 1
  ext path
  exact mem_walkPaths.symm

/-- A place of the walk, with the sides that its path leads to. -/
theorem sides_of_walk {o n : Dict} {i : Nat} {p : DiffPlace}
    (hp : (walk [] (.dict o) (.dict n))[i]? = some p) :
    sidesAt p.path (.dict o) (.dict n) = some (p.old, p.new) ∧
      (i < maxDiffChanges → p.path ∈ shownPaths o n) := by
  obtain ⟨rel, hpath, hsides, -⟩ := mem_walk.mp (List.mem_of_getElem? hp)
  rw [List.nil_append] at hpath
  refine ⟨by rw [hpath, hsides], fun hi => mem_shownPaths.mp ?_⟩
  refine List.mem_of_getElem? (i := i) ?_
  rw [List.getElem?_take, if_pos hi, walkPaths, List.getElem?_map, hp, Option.map_some]

/-! ### Secrets in a text -/

/-- The JSON text of a value at the end of a path, cut at its secrets.  Below a secret key all of it
is secret. -/
def secretPieces (path : List String) (v : Value) : List TextPiece :=
  if path.any isSecretName then [⟨true, (jsonDumps sortedJson v).toList⟩]
  else jsonPieces isSecretName v

/-- No secret of the values tells the two runs apart: each is the same text in both as long as
those before it are; or both texts are cut, and that holds of what stands before the cut. -/
def Unseen (path : List String) (v w : Value) : Prop :=
  (∀ shown, MarkedAgree shown (secretPieces path v) (secretPieces path w)) ∨
    (240 < (jsonDumps sortedJson v).length ∧ 240 < (jsonDumps sortedJson w).length ∧
      MarkedAgree 237 (secretPieces path v) (secretPieces path w))

theorem piecesText_secretPieces (path : List String) (v : Value) :
    piecesText (secretPieces path v) = (jsonDumps sortedJson v).toList := by
  unfold secretPieces
  split
  · simp
  · exact piecesText_jsonPieces isSecretName v

theorem wellCut_secretPieces (path : List String) (v : Value) : WellCut (secretPieces path v) := by
  unfold secretPieces
  split
  · exact wellCut_marked v
  · exact wellCut_jsonPieces isSecretName v

mutual

/-- The texts of twins are cut alike. -/
theorem frame_twin : (v w : Value) → Twin v w →
    List.Forall₂ SameFrame (jsonPieces isSecretName v) (jsonPieces isSecretName w)
  | .list xs, w, h => by
    cases w with
    | list ys =>
      exact .cons (.inl rfl) (List.rel_append (forall₂_joinPieces (frame_items xs ys h))
        (sameFrame_refl _))
    | none | bool | int | float | str | dict => cases h
  | .dict d, w, h => by
    cases w with
    | dict e =>
      refine .cons (.inl rfl) (List.rel_append (forall₂_joinPieces ?_) (sameFrame_refl _))
      rw [List.forall₂_map_left_iff, List.forall₂_map_right_iff]
      refine (forall₂_sortedByKey (frame_members d e h)).imp fun e e' hsame => ?_
      exact .cons (.inl (by rw [hsame.1])) hsame.2
    | none | bool | int | float | str | list => cases h
  | .none, w, h => by
    obtain rfl : Value.none = w := by cases w <;> exact h
    exact sameFrame_refl _
  | .bool b, w, h => by
    obtain rfl : Value.bool b = w := by cases w <;> exact h
    exact sameFrame_refl _
  | .int n, w, h => by
    obtain rfl : Value.int n = w := by cases w <;> exact h
    exact sameFrame_refl _
  | .float x, w, h => by
    obtain rfl : Value.float x = w := by cases w <;> exact h
    exact sameFrame_refl _
  | .str s, w, h => by
    obtain rfl : Value.str s = w := by cases w <;> exact h
    exact sameFrame_refl _

theorem frame_items : (xs ys : List Value) → TwinItems xs ys →
    List.Forall₂ (List.Forall₂ SameFrame) (itemPieces isSecretName xs) (itemPieces isSecretName ys)
  | [], [], _ => .nil
  | x :: xs, y :: ys, h => .cons (frame_twin x y h.1) (frame_items xs ys h.2)

theorem frame_members : (d e : Dict) → TwinEntries d e →
    List.Forall₂ (fun m m' => m.1 = m'.1 ∧ List.Forall₂ SameFrame m.2 m'.2)
      (memberPieces isSecretName d) (memberPieces isSecretName e)
  | [], [], _ => .nil
  | (k, v) :: d, (l, w) :: e, h => by
    obtain ⟨⟨rfl, hvalue⟩, hrest⟩ := h
    refine .cons ⟨rfl, ?_⟩ (frame_members d e hrest)
    dsimp only
    cases hsecret : isSecretName k with
    | true => exact .cons (.inr ⟨rfl, rfl⟩) .nil
    | false => exact frame_twin v w (twin_of_plain hsecret hvalue)

end

/-- The sides at the end of a path without a secret key are twins. -/
theorem twin_sides {path : List String} {o n o' n' v w v' w' : Value} (ho : Twin o o')
    (hn : Twin n n') (hpath : path.any isSecretName = false) (h : sidesAt path o n = some (v, w))
    (h' : sidesAt path o' n' = some (v', w')) : Twin v v' ∧ Twin w w' := by
  induction path generalizing o n o' n' with
  | nil =>
    have hstop : asDict o = none ∨ asDict n = none := by
      cases o <;> cases n <;> first | exact .inl rfl | exact .inr rfl | cases h
    have hstop' := hstop.imp (asDict_of_twin ho).mp (asDict_of_twin hn).mp
    obtain ⟨rfl, rfl⟩ := Prod.mk.inj (Option.some.inj ((sidesAt_stop hstop).1.symm.trans h))
    obtain ⟨rfl, rfl⟩ := Prod.mk.inj (Option.some.inj ((sidesAt_stop hstop').1.symm.trans h'))
    exact ⟨ho, hn⟩
  | cons key path ih =>
    rw [List.any_cons, Bool.or_eq_false_iff] at hpath
    rcases twin_cases ho with ⟨xs, _, rfl, -⟩ | ⟨d, d', rfl, rfl, hd⟩ | ⟨-, -, hdict⟩
    · cases h
    · rcases twin_cases hn with ⟨xs, _, rfl, -⟩ | ⟨e, e', rfl, rfl, he⟩ | ⟨-, -, hdict⟩
      · cases h
      · exact ih (twin_get hd hpath.1) (twin_get he hpath.1) hpath.2 h h'
      · rw [(sidesAt_stop (.inr hdict)).2] at h
        cases h
    · rw [(sidesAt_stop (.inl hdict)).2] at h
      cases h

theorem frame_secretPieces {path : List String} {v w : Value}
    (h : path.any isSecretName = false → Twin v w) :
    List.Forall₂ SameFrame (secretPieces path v) (secretPieces path w) := by
  unfold secretPieces
  cases hpath : path.any isSecretName with
  | true => exact .cons (.inr ⟨rfl, rfl⟩) .nil
  | false => exact frame_twin v w (h hpath)

/-- A JSON text does not end with an ellipsis. -/
theorem dumps_ne_cut (v : Value) (front : List Char) :
    (jsonDumps sortedJson v).toList ≠ front ++ ['…'] := by
  have hdigit : ∀ c : Char, c.isDigit = true → c ≠ '…' := by
    rintro c hc rfl
    cases hc
  have hnot {cs : List Char} (hcs : ∀ c ∈ cs, c ≠ '…') : cs ≠ front ++ ['…'] := by
    rintro rfl
    exact hcs '…' (List.mem_append_right _ List.mem_cons_self) rfl
  have hword {cs : List Char} (hcs : cs.all (fun c => c ≠ '…') = true) : cs ≠ front ++ ['…'] :=
    hnot (by simpa using hcs)
  have hlast {cs : List Char} {c : Char} (hc : c ≠ '…') : cs ++ [c] ≠ front ++ ['…'] := by
    intro h
    have hlast := congrArg List.getLast? h
    rw [List.getLast?_concat, List.getLast?_concat] at hlast
    exact hc (Option.some.inj hlast)
  cases v with
  | none => exact hword (by decide)
  | bool b => cases b <;> exact hword (by decide)
  | int n => exact hnot (forall_int hdigit (by decide) n)
  | float x =>
    cases x with
    | dec m k => exact hnot (forall_decRepr hdigit (by simp) m k)
    | inf | negInf | nan => exact hword (by decide)
  | str s =>
    have htext : (jsonDumps sortedJson (.str s)).toList =
        ('"' :: s.toList.flatMap (jsonChar false)) ++ ['"'] := by
      simp [jsonDumps, jsonText, sortedJson]
    rw [htext]
    exact hlast (by decide)
  | list xs =>
    rw [sortedJson_list, ← List.cons_append]
    exact hlast (by decide)
  | dict d =>
    rw [sortedJson_dict, ← List.cons_append]
    exact hlast (by decide)

theorem safeDisplay_toList (v : Value) : (safeDisplay v).toList =
    if (jsonDumps sortedJson v).length ≤ 240 then (jsonDumps sortedJson v).toList
    else (jsonDumps sortedJson v).toList.take 237 ++ ['…'] := by
  unfold safeDisplay
  dsimp only
  split
  · rfl
  · simp [takeText]

theorem safeDisplay_eq_iff (v w : Value) : safeDisplay v = safeDisplay w ↔
    (jsonDumps sortedJson v).toList = (jsonDumps sortedJson w).toList ∨
      (240 < (jsonDumps sortedJson v).length ∧ 240 < (jsonDumps sortedJson w).length ∧
        (jsonDumps sortedJson v).toList.take 237 = (jsonDumps sortedJson w).toList.take 237) := by
  rw [← String.toList_inj, safeDisplay_toList, safeDisplay_toList]
  by_cases hv : (jsonDumps sortedJson v).length ≤ 240
  · rw [if_pos hv]
    by_cases hw : (jsonDumps sortedJson w).length ≤ 240
    · rw [if_pos hw]
      exact ⟨.inl, fun h => h.resolve_right fun h => by omega⟩
    · rw [if_neg hw]
      refine iff_of_false (dumps_ne_cut v _) ?_
      rintro (h | ⟨hlong, -⟩)
      · rw [← String.length_toList, h, String.length_toList] at hv
        exact hw hv
      · omega
  · rw [if_neg hv]
    by_cases hw : (jsonDumps sortedJson w).length ≤ 240
    · rw [if_pos hw]
      refine iff_of_false (dumps_ne_cut w _).symm ?_
      rintro (h | ⟨-, hlong, -⟩)
      · rw [← String.length_toList, ← h, String.length_toList] at hw
        exact hv hw
      · omega
    · rw [if_neg hw, List.append_left_inj]
      refine ⟨fun h => .inr ⟨by omega, by omega, h⟩, ?_⟩
      rintro (h | ⟨-, -, h⟩)
      · rw [h]
      · exact h

/-- What is shown of two values is the same exactly if no secret tells them apart. -/
theorem safeDisplay_eq_iff_unseen {path : List String} {v w : Value}
    (h : path.any isSecretName = false → Twin v w) :
    safeDisplay v = safeDisplay w ↔ Unseen path v w := by
  have hframe := frame_secretPieces h
  have hv := wellCut_secretPieces path v
  have hw := wellCut_secretPieces path w
  unfold Unseen
  rw [safeDisplay_eq_iff, ← piecesText_eq_iff hframe hv hw, ← take_piecesText_iff hframe hv hw,
    piecesText_secretPieces, piecesText_secretPieces]

/-! ### The answers of the two runs -/

/-- Two places look the same: where they are, and which of their sides are blank or, without a
sensitive key, the texts of their values as far as they are shown. -/
structure SameLook (p p' : DiffPlace) : Prop where
  label : pathLabel p.path = pathLabel p'.path
  sensitive : isSensitivePath p.path = isSensitivePath p'.path
  blank : isSensitivePath p.path = true →
    isBlankValue p.old = isBlankValue p'.old ∧ isBlankValue p.new = isBlankValue p'.new
  texts : isSensitivePath p.path = false →
    safeDisplay p.old = safeDisplay p'.old ∧ safeDisplay p.new = safeDisplay p'.new

/-- As many places differ in both runs, and the first of them look the same. -/
structure SameView (o n o' n' : Dict) : Prop where
  total : (walk [] (.dict o) (.dict n)).length = (walk [] (.dict o') (.dict n')).length
  look : ∀ i < maxDiffChanges, ∀ p p', (walk [] (.dict o) (.dict n))[i]? = some p →
    (walk [] (.dict o') (.dict n'))[i]? = some p' → SameLook p p'

theorem setOrNot_inj {v w : Value} : setOrNot v = setOrNot w ↔ isBlankValue v = isBlankValue w := by
  unfold setOrNot
  cases isBlankValue v <;> cases isBlankValue w <;> decide

theorem changeOf_inj {p p' : DiffPlace} : changeOf p = changeOf p' ↔ SameLook p p' := by
  constructor
  · intro h
    obtain ⟨hlabel, hold, hnew, hsensitive⟩ := ConfigChange.mk.inj h
    rw [← hsensitive] at hold hnew
    refine ⟨hlabel, hsensitive, fun hpath => ?_, fun hpath => ?_⟩
    · rw [if_pos hpath, if_pos hpath] at hold hnew
      exact ⟨setOrNot_inj.mp hold, setOrNot_inj.mp hnew⟩
    · rw [hpath] at hold hnew
      exact ⟨hold, hnew⟩
  · rintro ⟨hlabel, hsensitive, hblank, htexts⟩
    unfold changeOf
    rw [hlabel, ← hsensitive]
    cases hpath : isSensitivePath p.path with
    | true =>
      obtain ⟨hold, hnew⟩ := hblank hpath
      rw [if_pos rfl, if_pos rfl, if_pos rfl, if_pos rfl, setOrNot_inj.mpr hold,
        setOrNot_inj.mpr hnew]
    | false =>
      obtain ⟨hold, hnew⟩ := htexts hpath
      rw [hold, hnew]
      rfl

theorem take_map_eq_iff {α β : Type} {f : α → β} {xs ys : List α} {k : Nat}
    (hlength : xs.length = ys.length) : (xs.map f).take k = (ys.map f).take k ↔
      ∀ i < k, ∀ x y, xs[i]? = some x → ys[i]? = some y → f x = f y := by
  constructor
  · intro h i hi x y hx hy
    have hat := congrArg (·[i]?) h
    simp only [List.getElem?_take, if_pos hi, List.getElem?_map, hx, hy, Option.map_some] at hat
    exact Option.some.inj hat
  · intro h
    refine List.ext_getElem? fun i => ?_
    simp only [List.getElem?_take, List.getElem?_map]
    split
    · next hi =>
      cases hx : xs[i]? with
      | none =>
        have hy : ys[i]? = none := by
          rw [List.getElem?_eq_none_iff] at hx ⊢
          omega
        rw [hy]
      | some x =>
        cases hy : ys[i]? with
        | none =>
          rw [List.getElem?_eq_none_iff] at hy
          obtain ⟨hlt, -⟩ := List.getElem?_eq_some_iff.mp hx
          omega
        | some y => exact congrArg some (h i hi x y hx hy)
    · rfl

theorem diffResponse_eq_iff (name : String) (o n o' n' : Dict) :
    diffResponse name o n = diffResponse name o' n' ↔ SameView o n o' n' := by
  unfold diffResponse
  simp only [DiffResponse.mk.injEq, List.length_map, true_and]
  constructor
  · rintro ⟨hchanges, htotal, -⟩
    refine ⟨htotal, fun i hi p p' hp hp' => ?_⟩
    exact changeOf_inj.mp ((take_map_eq_iff htotal).mp hchanges i hi p p' hp hp')
  · rintro ⟨htotal, hlook⟩
    refine ⟨(take_map_eq_iff htotal).mpr fun i hi p p' hp hp' => ?_, htotal, by rw [htotal]⟩
    exact changeOf_inj.mpr (hlook i hi p p' hp hp')

/-- No secret is seen in a text: at the first 500 paths without a key of the pattern. -/
def TextsUnseen (o n o' n' : Dict) : Prop :=
  ∀ path ∈ shownPaths o n, isSensitivePath path = false → ∀ v w v' w',
    sidesAt path (.dict o) (.dict n) = some (v, w) →
    sidesAt path (.dict o') (.dict n') = some (v', w') → Unseen path v v' ∧ Unseen path w w'

/-- No secret tells the two runs apart: neither by the parts at which it differs, nor by a part
that is blank, nor by its text. -/
structure SecretsUnseen (o n o' n' : Dict) : Prop where
  number : (differing o n).encard = (differing o' n').encard
  places : shownPaths o n = shownPaths o' n'
  blank : ∀ path ∈ shownPaths o n, isSensitivePath path = true → ∀ v w v' w',
    sidesAt path (.dict o) (.dict n) = some (v, w) →
    sidesAt path (.dict o') (.dict n') = some (v', w') →
    isBlankValue v = isBlankValue v' ∧ isBlankValue w = isBlankValue w'
  texts : TextsUnseen o n o' n'

/-- Different paths of the two runs have different labels; keys with dots can have the same. -/
def LabelsTell (o n o' n' : Dict) : Prop :=
  ∀ path ∈ shownPaths o n, ∀ path' ∈ shownPaths o' n', pathLabel path = pathLabel path' →
    path = path'

section Answers

variable {o n o' n' : Dict}

theorem texts_iff (h : SecretTwins o n o' n') {path : List String} {v w v' w' : Value}
    (hsides : sidesAt path (.dict o) (.dict n) = some (v, w))
    (hsides' : sidesAt path (.dict o') (.dict n') = some (v', w')) :
    (safeDisplay v = safeDisplay v' ∧ safeDisplay w = safeDisplay w') ↔
      Unseen path v v' ∧ Unseen path w w' := by
  have htwin (hpath : path.any isSecretName = false) : Twin v v' ∧ Twin w w' :=
    twin_sides h.old h.current hpath hsides hsides'
  rw [safeDisplay_eq_iff_unseen fun hpath => (htwin hpath).1,
    safeDisplay_eq_iff_unseen fun hpath => (htwin hpath).2]

theorem take_walkPaths_eq (hplaces : shownPaths o n = shownPaths o' n') :
    (walkPaths o n).take maxDiffChanges = (walkPaths o' n').take maxDiffChanges := by
  refine List.Pairwise.eq_of_mem_iff ((walkPaths_sorted o n).sublist (List.take_sublist _ _))
    ((walkPaths_sorted o' n').sublist (List.take_sublist _ _)) fun path => ?_
  rw [mem_shownPaths, mem_shownPaths, hplaces]

theorem path_at {i : Nat} {p : DiffPlace} (hi : i < maxDiffChanges)
    (hp : (walk [] (.dict o) (.dict n))[i]? = some p) :
    ((walkPaths o n).take maxDiffChanges)[i]? = some p.path := by
  rw [List.getElem?_take, if_pos hi, walkPaths, List.getElem?_map, hp, Option.map_some]

theorem sameView_of_unseen (h : SecretTwins o n o' n') (hunseen : SecretsUnseen o n o' n') :
    SameView o n o' n' := by
  constructor
  · have hnumber := hunseen.number
    rw [encard_differing, encard_differing, walkPaths, walkPaths, List.length_map,
      List.length_map] at hnumber
    exact_mod_cast hnumber
  · intro i hi p p' hp hp'
    have hpath : p.path = p'.path := by
      have hat := path_at hi hp
      rw [take_walkPaths_eq hunseen.places, path_at hi hp'] at hat
      exact (Option.some.inj hat).symm
    obtain ⟨hsides, hshown⟩ := sides_of_walk hp
    obtain ⟨hsides', -⟩ := sides_of_walk hp'
    rw [← hpath] at hsides'
    refine ⟨by rw [hpath], by rw [hpath], fun hsensitive => ?_, fun hsensitive => ?_⟩
    · exact hunseen.blank _ (hshown hi) hsensitive _ _ _ _ hsides hsides'
    · exact (texts_iff h hsides hsides').mpr
        (hunseen.texts _ (hshown hi) hsensitive _ _ _ _ hsides hsides')

/-- The place of the walk at one of the first paths. -/
theorem walk_of_shown {path : List String} (hpath : path ∈ shownPaths o n) {v w : Value}
    (hsides : sidesAt path (.dict o) (.dict n) = some (v, w)) :
    ∃ i < maxDiffChanges, (walk [] (.dict o) (.dict n))[i]? = some ⟨path, v, w⟩ := by
  obtain ⟨i, hi⟩ := List.mem_iff_getElem?.mp (mem_shownPaths.mpr hpath)
  rw [List.getElem?_take] at hi
  split at hi
  · next hlt =>
    rw [walkPaths, List.getElem?_map] at hi
    obtain ⟨p, hp, rfl⟩ := Option.map_eq_some_iff.mp hi
    obtain ⟨hat, -⟩ := sides_of_walk hp
    obtain ⟨hv, hw⟩ := Prod.mk.inj (Option.some.inj (hsides.symm.trans hat))
    exact ⟨i, hlt, by rw [hp, hv, hw]⟩
  · cases hi

/-- Where the first places have the same paths, a difference that is seen is seen at one of them. -/
theorem unseen_of_sameView (h : SecretTwins o n o' n') (hview : SameView o n o' n')
    (hpaths : ∀ i < maxDiffChanges, ∀ p p', (walk [] (.dict o) (.dict n))[i]? = some p →
      (walk [] (.dict o') (.dict n'))[i]? = some p' → p.path = p'.path) :
    SecretsUnseen o n o' n' := by
  have htake : (walkPaths o n).take maxDiffChanges = (walkPaths o' n').take maxDiffChanges :=
    (take_map_eq_iff hview.total).mpr hpaths
  have hlook : ∀ path ∈ shownPaths o n, ∀ v w v' w',
      sidesAt path (.dict o) (.dict n) = some (v, w) →
      sidesAt path (.dict o') (.dict n') = some (v', w') →
      SameLook ⟨path, v, w⟩ ⟨path, v', w'⟩ := by
    intro path hpath v w v' w' hsides hsides'
    obtain ⟨i, hi, hp⟩ := walk_of_shown hpath hsides
    have hat := path_at hi hp
    rw [htake, List.getElem?_take, if_pos hi, walkPaths, List.getElem?_map] at hat
    obtain ⟨p', hp', hpath'⟩ := Option.map_eq_some_iff.mp hat
    obtain ⟨hsides'', -⟩ := sides_of_walk hp'
    rw [hpath', hsides'] at hsides''
    obtain ⟨rfl, rfl⟩ := Prod.mk.inj (Option.some.inj hsides'')
    obtain rfl : p'.path = path := hpath'
    exact hview.look i hi _ _ hp hp'
  refine ⟨?_, ?_, fun path hpath hsensitive v w v' w' hsides hsides' => ?_,
    fun path hpath hsensitive v w v' w' hsides hsides' => ?_⟩
  · rw [encard_differing, encard_differing, walkPaths, walkPaths, List.length_map,
      List.length_map, hview.total]
  · ext path
    rw [← mem_shownPaths, ← mem_shownPaths, htake]
  · exact (hlook path hpath v w v' w' hsides hsides').blank hsensitive
  · exact (texts_iff h hsides hsides').mp
      ((hlook path hpath v w v' w' hsides hsides').texts hsensitive)

theorem samePlace_at (h : SecretTwins o n o' n') (hplain : PlainSecrets (.dict o) (.dict n))
    (hplain' : PlainSecrets (.dict o') (.dict n')) {i : Nat} {p p' : DiffPlace}
    (hp : (walk [] (.dict o) (.dict n))[i]? = some p)
    (hp' : (walk [] (.dict o') (.dict n'))[i]? = some p') : SamePlace p p' := by
  have hplaces := walk_twin [] _ _ h.old h.current h.agree hplain hplain'
  obtain ⟨hlt, rfl⟩ := List.getElem?_eq_some_iff.mp hp
  obtain ⟨hlt', rfl⟩ := List.getElem?_eq_some_iff.mp hp'
  exact (List.forall₂_iff_get.mp hplaces).2 i hlt hlt'

/-- Where no secret is a mapping on both sides, only its text can tell the runs apart. -/
theorem unseen_iff_of_plain (h : SecretTwins o n o' n') (hplain : PlainSecrets (.dict o) (.dict n))
    (hplain' : PlainSecrets (.dict o') (.dict n')) :
    SecretsUnseen o n o' n' ↔ TextsUnseen o n o' n' := by
  refine ⟨SecretsUnseen.texts, fun htexts => ?_⟩
  have hpaths : walkPaths o n = walkPaths o' n' :=
    map_eq_of_forall₂ ((walk_twin [] _ _ h.old h.current h.agree hplain hplain').imp
      fun _ _ hplace => hplace.path)
  refine ⟨?_, ?_, fun path hpath _ v w v' w' hsides hsides' => ?_, htexts⟩
  · rw [encard_differing, encard_differing, hpaths]
  · ext path
    rw [← mem_shownPaths, ← mem_shownPaths, hpaths]
  · obtain ⟨i, hi, hp⟩ := walk_of_shown hpath hsides
    have hat := path_at hi hp
    rw [hpaths, List.getElem?_take, if_pos hi, walkPaths, List.getElem?_map] at hat
    obtain ⟨p', hp', rfl⟩ := Option.map_eq_some_iff.mp hat
    obtain ⟨hsides'', -⟩ := sides_of_walk hp'
    obtain ⟨rfl, rfl⟩ := Prod.mk.inj (Option.some.inj (hsides'.symm.trans hsides''))
    have hplace := samePlace_at h hplain hplain' hp hp'
    exact ⟨hplace.old, hplace.new⟩

end Answers

/-- A stored configuration that is found and can be read. -/
structure Serves (env : DiffEnv) (name : String) (old : Dict) : Prop where
  valid : isSnapshotName name = true
  found : ∃ size raw, env.openSnapshot name = .file size raw ∧ size ≤ maxConfigSnapshotBytes ∧
    env.loadConfig (raw.take (maxConfigSnapshotBytes + 1)) = some old

theorem diffConfigSnapshot_ok {env : DiffEnv} {name : String} {old : Dict}
    (h : Serves env name old) :
    diffConfigSnapshot env name = .ok (diffResponse name old env.current) := by
  obtain ⟨hname, size, raw, hopen, hsize, hload⟩ := h
  unfold diffConfigSnapshot
  rw [hname, hopen]
  simp only [Bool.not_true, Bool.false_eq_true, if_false, if_neg (Nat.not_lt.mpr hsize), hload]

/-- **Two runs that differ in secrets alone give the same answer** if no secret tells them apart;
and only then, if different paths have different labels.  Where no secret is a mapping on both
sides, they do exactly if no text shows one. -/
theorem same_diff_iff {env env' : DiffEnv} {name : String} {old old' : Dict}
    (hserves : Serves env name old) (hserves' : Serves env' name old')
    (h : SecretTwins old env.current old' env'.current) :
    (SecretsUnseen old env.current old' env'.current →
      diffConfigSnapshot env name = diffConfigSnapshot env' name) ∧
    (LabelsTell old env.current old' env'.current →
      diffConfigSnapshot env name = diffConfigSnapshot env' name →
      SecretsUnseen old env.current old' env'.current) ∧
    (PlainSecrets (.dict old) (.dict env.current) →
      PlainSecrets (.dict old') (.dict env'.current) →
      (diffConfigSnapshot env name = diffConfigSnapshot env' name ↔
        TextsUnseen old env.current old' env'.current)) := by
  rw [diffConfigSnapshot_ok hserves, diffConfigSnapshot_ok hserves', Except.ok.injEq,
    diffResponse_eq_iff]
  refine ⟨sameView_of_unseen h, fun hlabels hview => ?_, fun hplain hplain' => ⟨fun hview => ?_, ?_⟩⟩
  · refine unseen_of_sameView h hview fun i hi p p' hp hp' => ?_
    exact hlabels _ ((sides_of_walk hp).2 hi) _ ((sides_of_walk hp').2 hi)
      (hview.look i hi p p' hp hp').label
  · refine (unseen_of_sameView h hview fun i _ p p' hp hp' => ?_).texts
    exact (samePlace_at h hplain hplain' hp hp').path
  · exact fun htexts => sameView_of_unseen h ((unseen_iff_of_plain h hplain hplain').mpr htexts)

/-! ### A section that only the snapshot has -/

def snapshotName : String := "config-20250725T080000Z-0123abcd-12ef.yaml"

/-- The text of a section with a password. -/
def sectionText (part secret : String) : List UInt8 :=
  (part ++ ":\n  password: " ++ secret ++ "\n").toList.map fun c => c.toNat.toUInt8

/-- A configuration with the section. -/
def sectionConfig (part secret : String) : Dict := [(part, .dict [("password", .str secret)])]

/-- A snapshot with the section, and a current configuration. -/
def sectionEnv (part secret : String) (current : Dict) : DiffEnv where
  openSnapshot name := if name = snapshotName then .file 100 (sectionText part secret) else .missing
  loadConfig raw :=
    if raw = sectionText part secret then some (sectionConfig part secret) else none
  current := current

theorem serves_section {part secret : String} (current : Dict)
    (hlength : (sectionText part secret).length ≤ maxConfigSnapshotBytes + 1) :
    Serves (sectionEnv part secret current) snapshotName (sectionConfig part secret) := by
  have hopen : (sectionEnv part secret current).openSnapshot snapshotName =
      .file 100 (sectionText part secret) := by simp [sectionEnv]
  refine ⟨by decide +kernel, 100, sectionText part secret, hopen, by decide, ?_⟩
  rw [List.take_of_length_le hlength]
  simp [sectionEnv]

theorem twin_section (part : String) {secret secret' : String} (h : secret ≠ "")
    (h' : secret' ≠ "") :
    Twin (.dict (sectionConfig part secret)) (.dict (sectionConfig part secret')) := by
  refine ⟨⟨rfl, .inl ⟨⟨rfl, .inr ⟨by decide +kernel, ?_, ?_⟩⟩, trivial⟩⟩, trivial⟩
  · simp [isBlankValue, h]
  · simp [isBlankValue, h']

theorem diffKeys_one (part : String) (v w : Value) : diffKeys [(part, v)] [(part, w)] = [part] := by
  show List.mergeSort [part, part].dedup _ = _
  simp

theorem get_one (part : String) (v : Value) : Dict.get [(part, v)] part = v := by
  simp [Dict.get]

theorem walk_section_missing (part secret : String) :
    walk [] (.dict (sectionConfig part secret)) (.dict []) =
      [⟨[part], .dict [("password", .str secret)], .none⟩] := by
  have hkeys : diffKeys (sectionConfig part secret) [] = [part] := by
    show List.mergeSort [part].dedup _ = _
    simp
  rw [walk_dict, hkeys, List.flatMap_singleton, sectionConfig, get_one, walk_stop _ (.inr rfl)]
  rfl

theorem walk_section (part : String) {secret secret' : String} (h : secret ≠ secret') :
    walk [] (.dict (sectionConfig part secret)) (.dict (sectionConfig part secret')) =
      [⟨[part, "password"], .str secret, .str secret'⟩] := by
  rw [walk_dict, sectionConfig, sectionConfig, diffKeys_one, List.flatMap_singleton, get_one,
    get_one, walk_dict, diffKeys_one, List.flatMap_singleton, get_one, get_one,
    walk_stop _ (.inl rfl)]
  simp [pyEq, h]

theorem same_diff_iff_web :
    diffConfigSnapshot (sectionEnv "web" "alpha" (sectionConfig "web" "gamma")) snapshotName =
      diffConfigSnapshot (sectionEnv "web" "beta" (sectionConfig "web" "delta")) snapshotName := by
  have htwins : SecretTwins (sectionConfig "web" "alpha") (sectionConfig "web" "gamma")
      (sectionConfig "web" "beta") (sectionConfig "web" "delta") := by
    refine ⟨twin_section _ (by decide) (by decide), twin_section _ (by decide) (by decide), ?_⟩
    refine ⟨fun w w' hw hw' => .inr ⟨by decide +kernel, ?_⟩, trivial⟩
    cases hw
    cases hw'
    refine ⟨fun w w' hw hw' => .inl ⟨by decide +kernel, ?_⟩, trivial⟩
    cases hw
    cases hw'
    decide
  have hplain : ∀ secret secret', PlainSecrets (.dict (sectionConfig "web" secret))
      (.dict (sectionConfig "web" secret')) := by
    refine fun secret secret' => ⟨fun w hw => .inr ⟨by decide +kernel, ?_⟩, trivial⟩
    cases hw
    exact ⟨fun w hw => .inl ⟨by decide +kernel, .inl rfl⟩, trivial⟩
  have hdiff := (same_diff_iff
    (serves_section (sectionConfig "web" "gamma") (by decide +kernel))
    (serves_section (sectionConfig "web" "delta") (by decide +kernel)) htwins).2.2
  refine (hdiff (hplain _ _) (hplain _ _)).mpr fun path hpath hsensitive => ?_
  -- The one place that differs has the key `password` on the way to it.
  have hwalk : walkPaths (sectionConfig "web" "alpha")
      (sectionEnv "web" "alpha" (sectionConfig "web" "gamma")).current = [["web", "password"]] :=
    congrArg (List.map DiffPlace.path) (walk_section "web" (by decide))
  have hmem := List.mem_of_mem_take (mem_shownPaths.mpr hpath)
  rw [hwalk, List.mem_singleton] at hmem
  subst hmem
  exact absurd hsensitive (by decide +kernel)

/-- **A password in a section that only the snapshot has is shown.** -/
theorem not_same_diff : ¬∀ (env env' : DiffEnv) (name : String) (old old' : Dict),
    Serves env name old → Serves env' name old' →
    SecretTwins old env.current old' env'.current →
    diffConfigSnapshot env name = diffConfigSnapshot env' name := by
  intro h
  have halpha : Serves (sectionEnv "proxy" "alpha" []) snapshotName
      (sectionConfig "proxy" "alpha") := serves_section [] (by decide +kernel)
  have hbeta : Serves (sectionEnv "proxy" "beta" []) snapshotName
      (sectionConfig "proxy" "beta") := serves_section [] (by decide +kernel)
  have hagree : Agree (.dict (sectionConfig "proxy" "alpha")) (.dict [])
      (.dict (sectionConfig "proxy" "beta")) (.dict []) :=
    ⟨fun w w' hw => (by cases hw), trivial⟩
  have hsame := h _ _ snapshotName _ _ halpha hbeta
    ⟨twin_section _ (by decide) (by decide), trivial, hagree⟩
  rw [diffConfigSnapshot_ok halpha, diffConfigSnapshot_ok hbeta, Except.ok.injEq] at hsame
  have hplace : ∀ secret, (walk [] (.dict (sectionConfig "proxy" secret)) (.dict []))[0]? =
      some ⟨["proxy"], .dict [("password", .str secret)], .none⟩ := by
    intro secret
    rw [walk_section_missing]
    rfl
  have hlook := ((diffResponse_eq_iff _ _ _ _ _).mp hsame).look 0 (by decide) _ _
    (hplace "alpha") (hplace "beta")
  exact absurd (hlook.texts (by decide +kernel)).1 (by decide +kernel)

end RcloneSync
