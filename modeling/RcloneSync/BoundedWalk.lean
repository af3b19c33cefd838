/-
RcloneSync/BoundedWalk.lean

The walk over a directory tree that counts what it reads (`bounded_walk`).

The directories that are yet to be read are on a stack.  An entry that is a directory is listed
as one even if it is a link to one, but only what is no link is put on the stack.  Every entry
counts, and the walk is over as soon as there are more than the bound.  A directory that cannot
be read is reported and left out.

Each directory has one parent, so the stack visits a forest (`isForest`) and the walk reads a
prefix of that visit (`walkLoop_visits`): no directory comes twice, each comes with all its
entries, and unless the walk is aborted none is missing (`bounded_walk`).
-/
import RcloneSync.PosixPath
import RcloneSync.StackTraversal
import Mathlib.Algebra.BigOperators.Group.Finset.Basic

namespace RcloneSync

open Forest Py

/-! ### What is on the disk -/

/-- What an entry is; a link may lead to a directory. -/
inductive NodeKind
  | file
  | directory
  | link (toDirectory : Bool)
  deriving DecidableEq

/-- A file system while nobody changes it. -/
structure WalkTree where
  /-- the entries of a directory in the order of `os.scandir`, up to an error -/
  names : PosixPath → List String
  /-- reading the directory ends in an `OSError` -/
  broken : PosixPath → Bool
  kind : PosixPath → NodeKind
  /-- `entry.is_dir()` raises an `OSError` -/
  untold : PosixPath → Bool
  /-- `Path.is_symlink` raises an `OSError` -/
  barred : PosixPath → Bool
  distinct : ∀ p, (names p).Nodup

namespace WalkTree

variable (d : WalkTree)

/-- `is_directory`; `is_dir` follows links. -/
def isDirectory (p : PosixPath) : Bool :=
  match d.untold p, d.kind p with
  | true, _ => false
  | false, .file => false
  | false, .directory => true
  | false, .link toDirectory => toDirectory

/-- `Path.is_symlink`, if it returns. -/
def isSymlink (p : PosixPath) : Bool :=
  match d.kind p with
  | .file => false
  | .directory => false
  | .link _ => true

end WalkTree

/-! ### The walk -/

/-- What ends a walk early. -/
inductive WalkError (ε : Type)
  /-- `WalkLimitError` -/
  | limit (message : String)
  /-- raised by `is_symlink` -/
  | system (path : PosixPath)
  /-- raised by `onerror` -/
  | handler (e : ε)

def scanLimitMessage : String := "Recovery-Verzeichnis überschreitet das Scanlimit"

/-- What the walk yields. -/
structure WalkRow where
  path : PosixPath
  directories : List String
  filenames : List String

/-- What the walk is told: `onerror`, and the order into which the directories are brought
that it yields. -/
structure WalkCaller (ε : Type) where
  onerror : Option (PosixPath → Except ε Unit)
  arrange : PosixPath → List String → List String
  arrange_perm : ∀ p names, (arrange p names).Perm names

structure WalkState where
  pending : List PosixPath
  scanned : Nat
  yielded : List WalkRow
  /-- the directories that `onerror` is told of -/
  reported : List PosixPath

section Walk

variable {ε : Type} (d : WalkTree) (caller : WalkCaller ε) (maxEntries : Int)

/-- The loop over the entries of a directory. -/
def readEntries (current : PosixPath) : List String → Nat → List String → List String →
    Except (WalkError ε) (Nat × List String × List String)
  | [], scanned, directories, filenames => .ok (scanned, directories, filenames)
  | name :: rest, scanned, directories, filenames =>
    if maxEntries < (scanned + 1 : Nat) then .error (.limit scanLimitMessage)
    else if d.isDirectory (current.child name) then
      readEntries current rest (scanned + 1) (directories ++ [name]) filenames
    else readEntries current rest (scanned + 1) directories (filenames ++ [name])

/-- What is put on the stack; the names are already reversed. -/
def followed (current : PosixPath) : List String → Except (WalkError ε) (List PosixPath)
  | [] => .ok []
  | name :: rest =>
    if d.barred (current.child name) then .error (.system (current.child name))
    else if d.isSymlink (current.child name) then followed current rest
    else (followed current rest).map fun paths => current.child name :: paths

/-- One pass of the loop, for the directory that was taken off the stack. -/
def walkVisit (current : PosixPath) (s : WalkState) : WalkState × Option (WalkError ε) :=
  match readEntries d maxEntries current (d.names current) s.scanned [] [] with
  | .error e => (s, some e)
  | .ok (scanned, directories, filenames) =>
    if d.broken current then
      match caller.onerror with
      | none => ({ s with scanned := scanned }, none)
      | some onerror =>
        let told := { s with scanned := scanned, reported := s.reported ++ [current] }
        match onerror current with
        | .ok () => (told, none)
        | .error e => (told, some (.handler e))
    else
      let row := { s with
        scanned := scanned
        yielded := s.yielded ++ [⟨current, directories, filenames⟩] }
      match followed d current (caller.arrange current directories).reverse with
      | .ok paths => ({ row with pending := s.pending ++ paths }, none)
      | .error e => (row, some e)

/-- `while pending`, as long as there is fuel. -/
def walkLoop : Nat → WalkState → Option (WalkState × Option (WalkError ε))
  | 0, _ => none
  | fuel + 1, s =>
    match s.pending.getLast? with
    | none => some (s, none)
    | some current =>
      match walkVisit d caller maxEntries current { s with pending := s.pending.dropLast } with
      | (t, none) => walkLoop fuel t
      | (t, some e) => some (t, some e)

/-- `bounded_walk`, until it ends or there is no fuel left. -/
def boundedWalk (fuel : Nat) (root : PosixPath) : Option (WalkState × Option (WalkError ε)) :=
  walkLoop d caller maxEntries fuel ⟨[root], 0, [], []⟩

end Walk

/-! ### What the walk is for -/

namespace WalkTree

variable (d : WalkTree)

/-- The directories that are reached from `root` without following a link. -/
inductive Reaches (root : PosixPath) : PosixPath → Prop
  | root : Reaches root root
  | into {p : PosixPath} {name : String} (h : Reaches root p) (hread : d.broken p = false)
      (hname : name ∈ d.names p) (hkind : d.kind (p.child name) = .directory)
      (htold : d.untold (p.child name) = false) : Reaches root (p.child name)

/-- The entries of a directory that are directories, or links to one. -/
def directoriesOf (p : PosixPath) : List String :=
  (d.names p).filter fun name => d.isDirectory (p.child name)

/-- The other ones. -/
def filesOf (p : PosixPath) : List String :=
  (d.names p).filter fun name => !d.isDirectory (p.child name)

def rowsOf (p : PosixPath) : List WalkRow :=
  if d.broken p then [] else [⟨p, d.directoriesOf p, d.filesOf p⟩]

variable {ε : Type} (caller : WalkCaller ε)

/-- What is told to `onerror` of a directory. -/
def reportOf (p : PosixPath) : List PosixPath :=
  if d.broken p && caller.onerror.isSome then [p] else []

/-- The directories that come on the stack for one, the first one on top. -/
def subdirs (p : PosixPath) : List PosixPath :=
  if d.broken p then []
  else ((caller.arrange p (d.directoriesOf p)).filter fun name =>
    !d.isSymlink (p.child name)).map p.child

/-- The walk is aborted at a directory by another error than that of the limit. -/
def Troubled (p : PosixPath) : Prop :=
  (d.broken p = true ∧ ∃ onerror e, caller.onerror = some onerror ∧ onerror p = .error e) ∨
  (d.broken p = false ∧ ∃ name ∈ d.directoriesOf p, d.barred (p.child name) = true)

/-- The number of entries in these directories. -/
def entryCount (order : List PosixPath) : Nat := (order.map fun p => (d.names p).length).sum

theorem entryCount_cons (p : PosixPath) (order : List PosixPath) :
    d.entryCount (p :: order) = (d.names p).length + d.entryCount order :=
  rfl

end WalkTree

/-! ### One directory -/

section Visit

variable {ε : Type} {d : WalkTree} {caller : WalkCaller ε} {maxEntries : Int}

/-- The limit is exceeded by the first entry beyond it; a negative one is that of no entries. -/
theorem readEntries_eq (current : PosixPath) (names : List String) {scanned : Nat}
    (hscanned : scanned ≤ maxEntries.toNat) (directories filenames : List String) :
    (readEntries d maxEntries current names scanned directories filenames :
        Except (WalkError ε) (Nat × List String × List String)) =
      if scanned + names.length ≤ maxEntries.toNat then
        .ok (scanned + names.length,
          directories ++ names.filter (fun name => d.isDirectory (current.child name)),
          filenames ++ names.filter fun name => !d.isDirectory (current.child name))
      else .error (.limit scanLimitMessage) := by
  induction names generalizing scanned directories filenames with
  | nil =>
    have hfits : scanned + ([] : List String).length ≤ maxEntries.toNat := hscanned
    rw [readEntries, if_pos hfits]
    simp
  | cons name rest ih =>
    rw [readEntries]
    by_cases hlimit : maxEntries < (scanned + 1 : Nat)
    · have hexceeds : ¬ scanned + (name :: rest).length ≤ maxEntries.toNat := by
        rw [List.length_cons]
        omega
      rw [if_pos hlimit, if_neg hexceeds]
    · have hnext : scanned + 1 ≤ maxEntries.toNat := by omega
      have hlength : scanned + 1 + rest.length = scanned + (name :: rest).length := by
        rw [List.length_cons]
        omega
      rw [if_neg hlimit, ih hnext, ih hnext, hlength]
      by_cases hdirectory : d.isDirectory (current.child name) = true
      · simp [hdirectory]
      · simp [hdirectory]

theorem followed_cases (current : PosixPath) (names : List String) :
    (followed d current names : Except (WalkError ε) (List PosixPath)) =
        .ok ((names.filter fun name => !d.isSymlink (current.child name)).map current.child) ∨
      ∃ name ∈ names, d.barred (current.child name) = true ∧
        (followed d current names : Except (WalkError ε) (List PosixPath)) =
          .error (.system (current.child name)) := by
  induction names with
  | nil => exact .inl rfl
  | cons name rest ih =>
    rw [followed]
    by_cases hbarred : d.barred (current.child name) = true
    · rw [if_pos hbarred]
      exact .inr ⟨name, List.mem_cons_self, hbarred, rfl⟩
    · rw [if_neg hbarred]
      rcases ih with hok | ⟨other, hother, hraised, herror⟩
      · rw [hok]
        by_cases hlink : d.isSymlink (current.child name) = true
        · rw [if_pos hlink, List.filter_cons_of_neg (by simp [hlink])]
          exact .inl rfl
        · rw [if_neg hlink, List.filter_cons_of_pos (by simp [hlink])]
          exact .inl rfl
      · refine .inr ⟨other, List.mem_cons_of_mem _ hother, hraised, ?_⟩
        rw [herror]
        split_ifs
        · rfl
        · rfl

/-- **What one pass of the loop does**: the limit, an abort, or the directory is read and those
in it are put on the stack. -/
theorem walkVisit_cases (current : PosixPath) (s : WalkState)
    (hscanned : s.scanned ≤ maxEntries.toNat) :
    (maxEntries.toNat < s.scanned + (d.names current).length ∧
      walkVisit d caller maxEntries current s = (s, some (.limit scanLimitMessage))) ∨
    (s.scanned + (d.names current).length ≤ maxEntries.toNat ∧
      walkVisit d caller maxEntries current s =
        (⟨s.pending ++ (d.subdirs caller current).reverse,
          s.scanned + (d.names current).length, s.yielded ++ d.rowsOf current,
          s.reported ++ d.reportOf caller current⟩, none)) ∨
    (d.Troubled caller current ∧ ∃ t e, walkVisit d caller maxEntries current s = (t, some e) ∧
      (∀ message, e ≠ .limit message) ∧ t.yielded = s.yielded ++ d.rowsOf current) := by
  unfold walkVisit
  rw [readEntries_eq current _ hscanned]
  by_cases hlimit : s.scanned + (d.names current).length ≤ maxEntries.toNat
  · rw [if_pos hlimit]
    refine .inr ?_
    dsimp only
    rw [List.nil_append, List.nil_append]
    unfold WalkTree.rowsOf WalkTree.reportOf WalkTree.subdirs
    by_cases hbroken : d.broken current = true
    · rw [if_pos hbroken, if_pos hbroken, if_pos hbroken]
      rw [List.reverse_nil, List.append_nil, List.append_nil, hbroken, Bool.true_and]
      cases honerror : caller.onerror with
      | none =>
        rw [Option.isSome_none, if_neg Bool.false_ne_true, List.append_nil]
        exact .inl ⟨hlimit, rfl⟩
      | some onerror =>
        rw [Option.isSome_some, if_pos rfl]
        dsimp only
        cases htold : onerror current with
        | ok u => exact .inl ⟨hlimit, rfl⟩
        | error e =>
          exact .inr ⟨.inl ⟨hbroken, onerror, e, honerror, htold⟩, _, _, rfl, nofun, rfl⟩
    · have hread : d.broken current = false := Bool.eq_false_of_not_eq_true hbroken
      rw [if_neg hbroken, if_neg hbroken, if_neg hbroken, hread, Bool.false_and,
        if_neg Bool.false_ne_true, List.append_nil]
      rcases @followed_cases ε d current (caller.arrange current (d.directoriesOf current)).reverse
        with hok | ⟨name, hname, hbarred, herror⟩
      · have hsame : followed d current (caller.arrange current
            ((d.names current).filter fun name => d.isDirectory (current.child name))).reverse =
            .ok _ := hok
        rw [hsame, List.filter_reverse, List.map_reverse]
        exact .inl ⟨hlimit, rfl⟩
      · have hsame : followed d current (caller.arrange current
            ((d.names current).filter fun name => d.isDirectory (current.child name))).reverse =
            .error _ := herror
        have hlisted : name ∈ d.directoriesOf current :=
          (caller.arrange_perm current _).mem_iff.mp (List.mem_reverse.mp hname)
        rw [hsame]
        exact .inr ⟨.inr ⟨hread, name, hlisted, hbarred⟩, _, _, rfl, nofun, rfl⟩
  · rw [if_neg hlimit]
    exact .inl ⟨not_le.mp hlimit, rfl⟩

end Visit

/-! ### The forest -/

namespace WalkTree

variable {ε : Type} {d : WalkTree} {caller : WalkCaller ε} {root : PosixPath}

theorem child_inj {p q : PosixPath} {a b : String} (h : p.child a = q.child b) :
    p = q ∧ a = b := by
  obtain ⟨hroot, hparts⟩ := PosixPath.mk.inj h
  obtain ⟨hparts, hname⟩ := List.append_inj' hparts rfl
  refine ⟨?_, (List.cons.inj hname).1⟩
  cases p
  cases q
  rw [PosixPath.mk.injEq]
  exact ⟨hroot, hparts⟩

/-- A directory comes on the stack for the one that it is in, unless it is a link. -/
theorem mem_subdirs {p q : PosixPath} : q ∈ d.subdirs caller p ↔
    d.broken p = false ∧ ∃ name ∈ d.names p, q = p.child name ∧ d.kind q = .directory ∧
      d.untold q = false := by
  unfold subdirs
  by_cases hbroken : d.broken p = true
  · rw [if_pos hbroken]
    exact ⟨nofun, fun ⟨hread, _⟩ => absurd (hbroken.symm.trans hread) nofun⟩
  · have hread : d.broken p = false := Bool.eq_false_of_not_eq_true hbroken
    rw [if_neg hbroken, List.mem_map]
    constructor
    · rintro ⟨name, hname, rfl⟩
      obtain ⟨harranged, hlink⟩ := List.mem_filter.mp hname
      have hlisted := (caller.arrange_perm p _).mem_iff.mp harranged
      obtain ⟨hmem, hdirectory⟩ := List.mem_filter.mp hlisted
      refine ⟨hread, name, hmem, rfl, ?_⟩
      unfold isDirectory at hdirectory
      unfold isSymlink at hlink
      cases htold : d.untold (p.child name) <;> cases hkind : d.kind (p.child name) <;>
        simp_all
    · rintro ⟨-, name, hname, rfl, hkind, htold⟩
      refine ⟨name, List.mem_filter.mpr ⟨?_, ?_⟩, rfl⟩
      · refine (caller.arrange_perm p _).mem_iff.mpr (List.mem_filter.mpr ⟨hname, ?_⟩)
        unfold isDirectory
        rw [htold, hkind]
      · unfold isSymlink
        rw [hkind]
        rfl

theorem isForest : IsForest (d.subdirs caller) where
  nodup p := by
    unfold subdirs
    split_ifs
    · exact List.nodup_nil
    · have hnames : (caller.arrange p (d.directoriesOf p)).Nodup :=
        (caller.arrange_perm p _).nodup_iff.mpr ((d.distinct p).filter _)
      exact (hnames.filter _).map fun a b h => (child_inj h).2
  parent hp hq := by
    obtain ⟨-, a, -, rfl, -⟩ := mem_subdirs.mp hp
    obtain ⟨-, b, -, hsame, -⟩ := mem_subdirs.mp hq
    exact (child_inj hsame).1

/-- A path below another one is longer. -/
theorem parts_lt {p q : PosixPath} (h : Relation.TransGen (ChildOf (d.subdirs caller)) p q) :
    p.parts.length < q.parts.length := by
  have hchild : ∀ {p q : PosixPath}, ChildOf (d.subdirs caller) p q →
      p.parts.length < q.parts.length := by
    intro p q hq
    obtain ⟨-, name, -, rfl, -⟩ := mem_subdirs.mp hq
    unfold PosixPath.child
    rw [List.length_append]
    exact Nat.lt_succ_self _
  induction h with
  | single hq => exact hchild hq
  | tail _ hq ih => exact ih.trans (hchild hq)

theorem separate_root : Separate (d.subdirs caller) [root] where
  nodup := List.nodup_singleton root
  apart a ha b hb hbelow := by
    rw [List.mem_singleton.mp ha, List.mem_singleton.mp hb] at hbelow
    exact lt_irrefl _ (parts_lt hbelow)

theorem reached_iff {p : PosixPath} :
    Reached (d.subdirs caller) [root] p ↔ d.Reaches root p := by
  constructor
  · rintro ⟨x, hx, hreach⟩
    obtain rfl := List.mem_singleton.mp hx
    induction hreach with
    | refl => exact .root
    | tail _ hq ih =>
      obtain ⟨hread, name, hname, rfl, hkind, htold⟩ := mem_subdirs.mp hq
      exact .into ih hread hname hkind htold
  · intro hreach
    refine ⟨root, List.mem_singleton.mpr rfl, ?_⟩
    induction hreach with
    | root => exact .refl
    | into _ hread hname hkind htold ih =>
      exact ih.tail (mem_subdirs.mpr ⟨hread, _, hname, rfl, hkind, htold⟩)

end WalkTree

/-! ### The whole walk -/

section Loop

variable {ε : Type} {d : WalkTree} {caller : WalkCaller ε} {maxEntries : Int}

/-- How a walk ends that has these directories before it. -/
inductive WalkEnd (d : WalkTree) (caller : WalkCaller ε) (maxEntries : Int) (s : WalkState)
    (order : List PosixPath) (r : WalkState × Option (WalkError ε)) : Prop
  | done (h : r.2 = none) (hlimit : s.scanned + d.entryCount order ≤ maxEntries.toNat)
      (hyielded : r.1.yielded = s.yielded ++ order.flatMap d.rowsOf)
      (hreported : r.1.reported = s.reported ++ order.flatMap (d.reportOf caller))
  | limit (h : r.2 = some (.limit scanLimitMessage))
      (hlimit : maxEntries.toNat < s.scanned + d.entryCount order)
  | aborted (p : PosixPath) (hp : p ∈ order) (htrouble : d.Troubled caller p) (e : WalkError ε)
      (h : r.2 = some e) (hother : ∀ message, e ≠ .limit message)

theorem WalkEnd.cons {s : WalkState} {pending : List PosixPath} {x : PosixPath}
    {order : List PosixPath} {r : WalkState × Option (WalkError ε)}
    (h : WalkEnd d caller maxEntries ⟨pending, s.scanned + (d.names x).length,
      s.yielded ++ d.rowsOf x, s.reported ++ d.reportOf caller x⟩ order r) :
    WalkEnd d caller maxEntries s (x :: order) r := by
  cases h with
  | done h hlimit hyielded hreported =>
    refine .done h ?_ ?_ ?_
    · rw [WalkTree.entryCount_cons, ← Nat.add_assoc]
      exact hlimit
    · rw [hyielded, List.flatMap_cons, List.append_assoc]
    · rw [hreported, List.flatMap_cons, List.append_assoc]
  | limit h hlimit =>
    refine .limit h ?_
    rw [WalkTree.entryCount_cons, ← Nat.add_assoc]
    exact hlimit
  | aborted p hp htrouble e h hother =>
    exact .aborted p (List.mem_cons_of_mem _ hp) htrouble e h hother

/-- **The walk follows the visit of the forest** until it ends. -/
theorem walkLoop_visits {stack order : List PosixPath}
    (hvisits : Visits (d.subdirs caller) stack order) (s : WalkState)
    (hpending : s.pending = stack.reverse) (hscanned : s.scanned ≤ maxEntries.toNat) :
    ∃ r, (∀ fuel, order.length < fuel → walkLoop d caller maxEntries fuel s = some r) ∧
      WalkEnd d caller maxEntries s order r ∧
      ∃ done, done <+: order ∧ r.1.yielded = s.yielded ++ done.flatMap d.rowsOf := by
  induction hvisits generalizing s with
  | nil =>
    refine ⟨(s, none), fun fuel hfuel => ?_, .done rfl ?_ ?_ ?_, [], List.prefix_rfl, ?_⟩
    · obtain ⟨fuel, rfl⟩ := Nat.exists_eq_add_one_of_ne_zero hfuel.ne'
      rw [walkLoop, hpending]
      rfl
    · exact hscanned
    all_goals exact (List.append_nil _).symm
  | @cons x stack order hvisits ih =>
    have hpop : s.pending.getLast? = some x ∧ s.pending.dropLast = stack.reverse := by
      rw [hpending, List.reverse_cons]
      simp
    -- a pass that ends the walk
    have hlast : ∀ t e, walkVisit d caller maxEntries x { s with pending := stack.reverse } =
        (t, some e) → ∀ fuel, (x :: order).length < fuel →
          walkLoop d caller maxEntries fuel s = some (t, some e) := by
      intro t e hvisit fuel hfuel
      obtain ⟨fuel, rfl⟩ := Nat.exists_eq_add_one_of_ne_zero (Nat.ne_zero_of_lt hfuel)
      rw [walkLoop, hpop.1]
      dsimp only
      rw [hpop.2, hvisit]
    rcases @walkVisit_cases ε d caller maxEntries x { s with pending := stack.reverse } hscanned
      with ⟨hexceeds, hvisit⟩ | ⟨hlimit, hvisit⟩ | ⟨htrouble, t, e, hvisit, hother, hyielded⟩
    · refine ⟨_, hlast _ _ hvisit, .limit rfl ?_, [], List.nil_prefix, ?_⟩
      · rw [WalkTree.entryCount_cons]
        exact hexceeds.trans_le (Nat.add_le_add_left (Nat.le_add_right _ _) _)
      · exact (List.append_nil _).symm
    · obtain ⟨r, hrun, hend, done, hdone, hyielded⟩ :=
        ih ⟨stack.reverse ++ (d.subdirs caller x).reverse, s.scanned + (d.names x).length,
          s.yielded ++ d.rowsOf x, s.reported ++ d.reportOf caller x⟩
          (List.reverse_append).symm hlimit
      refine ⟨r, fun fuel hfuel => ?_, ?_, x :: done, ?_, ?_⟩
      · obtain ⟨fuel, rfl⟩ := Nat.exists_eq_add_one_of_ne_zero (Nat.ne_zero_of_lt hfuel)
        rw [walkLoop, hpop.1]
        dsimp only
        rw [hpop.2, hvisit]
        exact hrun fuel (Nat.lt_of_succ_lt_succ hfuel)
      · exact hend.cons
      · exact List.cons_prefix_cons.mpr ⟨rfl, hdone⟩
      · rw [hyielded, List.flatMap_cons, List.append_assoc]
    · refine ⟨_, hlast _ _ hvisit, .aborted x List.mem_cons_self htrouble e rfl hother, [x], ?_,
        ?_⟩
      · exact List.cons_prefix_cons.mpr ⟨rfl, List.nil_prefix⟩
      · rw [hyielded, List.flatMap_singleton]

end Loop

/-! ### Each directory once -/

section Main

variable {ε : Type} {d : WalkTree} {caller : WalkCaller ε} {maxEntries : Int} {root : PosixPath}

theorem map_path_rowsOf (order : List PosixPath) :
    (order.flatMap d.rowsOf).map WalkRow.path = order.filter fun p => !d.broken p := by
  induction order with
  | nil => rfl
  | cons p order ih =>
    rw [List.flatMap_cons, List.map_append, ih]
    unfold WalkTree.rowsOf
    by_cases hbroken : d.broken p = true
    · rw [if_pos hbroken, List.filter_cons_of_neg (by simp [hbroken])]
      rfl
    · rw [if_neg hbroken, List.filter_cons_of_pos (by simp [hbroken])]
      rfl

theorem of_mem_rowsOf {row : WalkRow} {order : List PosixPath} (h : row ∈ order.flatMap d.rowsOf) :
    row.path ∈ order ∧ d.broken row.path = false ∧
      row.directories = d.directoriesOf row.path ∧ row.filenames = d.filesOf row.path := by
  obtain ⟨p, hp, hrow⟩ := List.mem_flatMap.mp h
  unfold WalkTree.rowsOf at hrow
  split_ifs at hrow with hbroken
  · cases hrow
  · obtain rfl := List.mem_singleton.mp hrow
    exact ⟨hp, Bool.eq_false_of_not_eq_true hbroken, rfl, rfl⟩

theorem mem_reportOf {p : PosixPath} {order : List PosixPath} :
    p ∈ order.flatMap (d.reportOf caller) ↔
      p ∈ order ∧ d.broken p = true ∧ caller.onerror.isSome = true := by
  rw [List.mem_flatMap]
  unfold WalkTree.reportOf
  constructor
  · rintro ⟨q, hq, hp⟩
    split_ifs at hp with htold
    · obtain rfl := List.mem_singleton.mp hp
      exact ⟨hq, (Bool.and_eq_true _ _).mp htold⟩
    · cases hp
  · rintro ⟨hp, htold⟩
    refine ⟨p, hp, ?_⟩
    rw [if_pos ((Bool.and_eq_true _ _).mpr htold)]
    exact List.mem_singleton.mpr rfl

/-- **`bounded_walk` visits each directory once.**  It ends.  What it yields are directories
that are reached without following a link, none of them twice, each with all its entries.  If
nothing else aborts it, it raises the limit error exactly if these directories and those that
cannot be read have more entries than the bound; and if nothing is raised at all, only the
directories that cannot be read are missing, and these are what `onerror` was told of. -/
theorem bounded_walk (d : WalkTree) (caller : WalkCaller ε) (maxEntries : Int) (root : PosixPath)
    (hfinite : {p | d.Reaches root p}.Finite) :
    ∃ t e, (∃ n, ∀ fuel, n ≤ fuel → boundedWalk d caller maxEntries fuel root = some (t, e)) ∧
      (t.yielded.map WalkRow.path).Nodup ∧
      (∀ row ∈ t.yielded, d.Reaches root row.path ∧ d.broken row.path = false ∧
        row.directories = d.directoriesOf row.path ∧ row.filenames = d.filesOf row.path) ∧
      ((∀ p, d.Reaches root p → ¬ d.Troubled caller p) →
        (e = none ∨ e = some (.limit scanLimitMessage)) ∧
        (e = some (.limit scanLimitMessage) ↔
          max maxEntries 0 < (∑ p ∈ hfinite.toFinset, (d.names p).length : Nat))) ∧
      (e = none →
        (∀ p, d.Reaches root p → d.broken p = false → p ∈ t.yielded.map WalkRow.path) ∧
        (caller.onerror.isSome = true →
          ∀ p, p ∈ t.reported ↔ d.Reaches root p ∧ d.broken p = true)) := by
  have hreached : {p | Reached (d.subdirs caller) [root] p} = {p | d.Reaches root p} :=
    Set.ext fun p => WalkTree.reached_iff
  obtain ⟨order, hvisits⟩ :=
    exists_visits WalkTree.isForest WalkTree.separate_root (hreached.symm ▸ hfinite)
  have hmem : ∀ p, p ∈ order ↔ d.Reaches root p := fun p =>
    (hvisits.mem_iff p).trans WalkTree.reached_iff
  have hnodup : order.Nodup := hvisits.nodup WalkTree.isForest WalkTree.separate_root
  have htotal : d.entryCount order = ∑ p ∈ hfinite.toFinset, (d.names p).length := by
    have hsame : hfinite.toFinset = order.toFinset := by
      ext p
      rw [hfinite.mem_toFinset, List.mem_toFinset, hmem]
      rfl
    rw [hsame, List.sum_toFinset _ hnodup]
    rfl
  obtain ⟨⟨t, e⟩, hrun, hend, done, hdone, hyielded⟩ :=
    walkLoop_visits hvisits ⟨[root], 0, [], []⟩ rfl (Nat.zero_le _)
  have hyielded : t.yielded = done.flatMap d.rowsOf := hyielded
  refine ⟨t, e, ⟨order.length + 1, hrun⟩, ?_, fun row hrow => ?_, fun hclear => ?_, fun hnone => ?_⟩
  · rw [hyielded, map_path_rowsOf]
    exact (hnodup.sublist hdone.sublist).filter _
  · obtain ⟨hp, hrest⟩ := of_mem_rowsOf (hyielded ▸ hrow)
    exact ⟨(hmem _).mp (hdone.subset hp), hrest⟩
  · rw [← htotal]
    have hbudget : (0 : Nat) + d.entryCount order = d.entryCount order := Nat.zero_add _
    cases hend with
    | done h hlimit =>
      have h : e = none := h
      have hlimit : 0 + d.entryCount order ≤ maxEntries.toNat := hlimit
      refine ⟨.inl h, fun hsome => ?_, fun hexceeds => ?_⟩
      · rw [h] at hsome
        cases hsome
      · omega
    | limit h hlimit =>
      have h : e = some (.limit scanLimitMessage) := h
      have hlimit : maxEntries.toNat < 0 + d.entryCount order := hlimit
      exact ⟨.inr h, fun _ => by omega, fun _ => h⟩
    | aborted p hp htrouble => exact absurd htrouble (hclear p ((hmem p).mp hp))
  · obtain rfl : e = none := hnone
    cases hend with
    | done h hlimit hall hreported =>
      have hall : t.yielded = order.flatMap d.rowsOf := hall
      have hreported : t.reported = order.flatMap (d.reportOf caller) := hreported
      refine ⟨fun p hp hread => ?_, fun hsome p => ?_⟩
      · rw [hall, map_path_rowsOf]
        exact List.mem_filter.mpr ⟨(hmem p).mpr hp, by rw [hread]; rfl⟩
      · rw [hreported, mem_reportOf, hmem]
        exact ⟨fun ⟨hp, hbroken, _⟩ => ⟨hp, hbroken⟩, fun ⟨hp, hbroken⟩ => ⟨hp, hbroken, hsome⟩⟩
    | limit h => cases h
    | aborted p hp htrouble e h => cases h

end Main

/-! ### A link to the directory that it is in -/

def home : PosixPath := ⟨"/", ["home"]⟩

/-- `docs` holds a file; `back` leads to the directory that it is in, so that its names come
again and again. -/
def loopTree : WalkTree where
  names p := if p.parts.getLast? = some "docs" then ["b.txt"] else ["docs", "back", "a.txt"]
  broken _ := false
  kind p :=
    if p.parts.getLast? = some "docs" then .directory
    else if p.parts.getLast? = some "back" then .link true
    else .file
  untold _ := false
  barred _ := false
  distinct p := by split_ifs <;> decide

/-- Nobody is told of errors, and the order is left as it is. -/
def plainCaller : WalkCaller Empty where
  onerror := none
  arrange _ names := names
  arrange_perm _ _ := .refl _

theorem reaches_loopTree {p : PosixPath} :
    loopTree.Reaches home p ↔ p ∈ ({home, home.child "docs"} : Finset PosixPath) := by
  rw [Finset.mem_insert, Finset.mem_singleton]
  constructor
  · intro hreach
    induction hreach with
    | root => exact .inl rfl
    | @into p name _ _ hname hkind _ ih =>
      rcases ih with rfl | rfl
      · have hnames : name ∈ ["docs", "back", "a.txt"] := hname
        simp only [List.mem_cons, List.not_mem_nil, or_false] at hnames
        rcases hnames with rfl | rfl | rfl
        · exact .inr rfl
        · exact absurd hkind (by decide)
        · exact absurd hkind (by decide)
      · have hnames : name ∈ ["b.txt"] := hname
        obtain rfl := List.mem_singleton.mp hnames
        exact absurd hkind (by decide)
  · rintro (rfl | rfl)
    · exact .root
    · exact .into .root rfl List.mem_cons_self rfl rfl

theorem finite_loopTree : {p | loopTree.Reaches home p}.Finite :=
  (Finset.finite_toSet {home, home.child "docs"}).subset fun _ hp => reaches_loopTree.mp hp

/-- The link is listed, but not followed: with a bound of four entries both directories come
once. -/
theorem bounded_walk_loop : ∃ t e, (∃ n, ∀ fuel, n ≤ fuel →
      boundedWalk loopTree plainCaller 4 fuel home = some (t, e)) ∧ e = none ∧
    (t.yielded.map WalkRow.path).Nodup ∧
    home ∈ t.yielded.map WalkRow.path ∧ home.child "docs" ∈ t.yielded.map WalkRow.path := by
  obtain ⟨t, e, hrun, hnodup, -, hlimit, hall⟩ :=
    bounded_walk loopTree plainCaller 4 home finite_loopTree
  have hclear : ∀ p, loopTree.Reaches home p → ¬ loopTree.Troubled plainCaller p := by
    rintro p - (⟨hbroken, -⟩ | ⟨-, name, -, hbarred⟩)
    · cases hbroken
    · cases hbarred
  obtain ⟨hends, hexceeds⟩ := hlimit hclear
  have hsame : finite_loopTree.toFinset = {home, home.child "docs"} := by
    ext p
    rw [Set.Finite.mem_toFinset]
    exact reaches_loopTree
  have hnone : e = none := by
    rcases hends with hnone | hraised
    · exact hnone
    · have htotal := hexceeds.mp hraised
      rw [hsame] at htotal
      exact absurd htotal (by decide)
  have hyields := (hall hnone).1
  exact ⟨t, e, hrun, hnone, hnodup, hyields _ (reaches_loopTree.mpr (by decide)) rfl,
    hyields _ (reaches_loopTree.mpr (by decide)) rfl⟩

/-! ### A directory that cannot be read -/

/-- One directory, which cannot be opened. -/
def lockedTree : WalkTree where
  names p := if p.parts.getLast? = some "private" then [] else ["private"]
  broken p := p.parts.getLast? = some "private"
  kind p := if p.parts.getLast? = some "private" then .directory else .file
  untold _ := false
  barred _ := false
  distinct p := by split_ifs <;> decide

/-- **A directory that cannot be read is not yielded**, though the walk ends without an error. -/
theorem locked_not_yielded :
    lockedTree.Reaches home (home.child "private") ∧
    ∃ t, boundedWalk lockedTree plainCaller 10 3 home = some (t, none) ∧
      home.child "private" ∉ t.yielded.map WalkRow.path :=
  ⟨.into .root rfl List.mem_cons_self rfl rfl, _, rfl, by decide⟩

end RcloneSync
