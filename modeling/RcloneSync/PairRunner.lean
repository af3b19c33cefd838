/-
RcloneSync/PairRunner.lean

The parallel execution of the planned pairs: the scheduling loop of `run_job` and
`_next_runnable_pair_index` (`app/jobs/rclone_sync.py`).

The loop keeps a list of pending pairs and a mapping from futures to running pairs.
A future is named by its place in the order of submission.  The loop depends on its
surroundings in three places only, and each of them is an action: what `is_cancelled()`
says at the head of a round, how paths resolve while a pair is looked for, and which
futures are done, with what outcome, when `wait` returns.  A run is any sequence of
such answers.
-/
import Mathlib.Data.List.Nodup
import Mathlib.Data.List.Perm.Basic
import RcloneSync.PairPlanner
import RcloneSync.Runs

namespace RcloneSync

open Py Runs

/-! ### Selecting and checking the pairs -/

/-- `str(pair.get("name") or "").strip()`. -/
def strippedName (pair : Dict) : String := strip (pair.textOr "name" "")

/-- What `run_job` requires of the selected pairs before it starts anything. -/
def checkPairs (pairs : List Dict) : Except String Unit :=
  if pairs = [] then .error "Keine aktiven Sync-Paare passend zur Auswahl"
  else if (pairs.map strippedName).any (· = "") then .error "Aktives Pair ohne Namen gefunden"
  else if ¬ ((pairs.map strippedName).map casefold).Nodup then
    .error "Doppelte aktive Pair-Namen gefunden"
  else .ok ()

/-! ### Results -/

/-- `mapping.setdefault(key, value)`. -/
def setDefault (d : Dict) (key : String) (v : Value) : Dict :=
  if d.has key then d else d.set key v

/-- `str(pair.get("name"))`, the key of a pair in `results_by_name`. -/
def resultKey (pair : Dict) : String := pyStr (pair.get "name")

/-- What `future.result()` does. -/
inductive WorkerEnd
  | returned (summary : Dict)
  | raised (message : String)

/-- The result of a pair that was cancelled before it started. -/
def cancelledResult (trigger : String) (pair : Dict) : Dict :=
  [("name", .str (pair.textOr "name" "?")), ("ok", .bool false), ("cancelled", .bool true),
    ("skipped", .bool true), ("error", .str "Vor Start abgebrochen"), ("trigger", .str trigger)]

/-- The result of a pair whose worker has ended. -/
def workerResult (trigger : String) (pair : Dict) : WorkerEnd → Dict
  | .returned summary => setDefault summary "trigger" (.str trigger)
  | .raised message =>
    setDefault [("name", pair.getOr "name" (.str "?")), ("ok", .bool false),
      ("error", .str message)] "trigger" (.str trigger)

/-- The results of the job, in the order of the pairs. -/
def jobResults (pairs : List Dict) (resultsByName : Dict) : List Value :=
  pairs.map fun pair => resultsByName.getOr (resultKey pair)
    (.dict [("name", pair.get "name"), ("ok", .bool false), ("error", .str "Kein Ergebnis")])

/-! ### The loop -/

/-- Where the loop stands: at `while pending or running`, at the inner `while`, at
`wait`, or behind the loop. -/
inductive Phase
  | head
  | submit
  | wait
  | left
  deriving DecidableEq

structure RunLoop where
  phase : Phase
  pending : List Dict
  running : List (Nat × Dict)
  /-- what the executor was given so far -/
  submitted : List Dict
  resultsByName : Dict

def loopStart (pairs : List Dict) : RunLoop := ⟨.head, pairs, [], [], []⟩

/-- `_next_runnable_pair_index`. -/
def nextRunnablePairIndex (resolve : Resolver) (pending running : List Dict) : Option Nat :=
  pending.findIdx? fun candidate => !running.any fun item => pairsConflict resolve candidate item

/-- What the surroundings tell the loop. -/
inductive LoopAction
  | head (cancelled : Bool)
  | submit (resolve : Resolver)
  | wait (done : List (Nat × WorkerEnd))

/-- The answers that are possible where the loop stands: `wait` returns some of the
running futures, at least one, each once. -/
def Answers (l : RunLoop) : LoopAction → Prop
  | .head _ => l.phase = .head
  | .submit _ => l.phase = .submit
  | .wait done => l.phase = .wait ∧ if l.running = [] then done.map Prod.fst = [] else
      done.map Prod.fst ≠ [] ∧ (done.map Prod.fst).Nodup ∧
        ∀ future ∈ done.map Prod.fst, future ∈ l.running.map Prod.fst

instance (l : RunLoop) : (a : LoopAction) → Decidable (Answers l a)
  | .head _ => inferInstanceAs (Decidable (l.phase = .head))
  | .submit _ => inferInstanceAs (Decidable (l.phase = .submit))
  | .wait done => inferInstanceAs (Decidable (l.phase = .wait ∧
      if l.running = [] then done.map Prod.fst = [] else
        done.map Prod.fst ≠ [] ∧ (done.map Prod.fst).Nodup ∧
          ∀ future ∈ done.map Prod.fst, future ∈ l.running.map Prod.fst))

/-- `results_by_name[name] = result` for every pending pair. -/
def cancelPending (trigger : String) (l : RunLoop) : RunLoop :=
  { l with
    pending := []
    resultsByName := l.pending.foldl
      (fun d pair => d.set (pair.textOr "name" "?") (.dict (cancelledResult trigger pair)))
      l.resultsByName }

/-- One round of the inner `while`. -/
def submitNext (resolve : Resolver) (maxParallel : Nat) (l : RunLoop) : RunLoop :=
  if l.pending ≠ [] ∧ l.running.length < maxParallel then
    match nextRunnablePairIndex resolve l.pending (l.running.map Prod.snd) with
    | none => { l with phase := .wait }
    | some index =>
      match l.pending[index]? with
      | none => { l with phase := .wait }
      | some pair =>
        { l with
          pending := l.pending.eraseIdx index
          running := l.running ++ [(l.submitted.length, pair)]
          submitted := l.submitted ++ [pair] }
  else { l with phase := .wait }

/-- `running.pop(future)` and the record of its result. -/
def collect (trigger : String) (l : RunLoop) (done : Nat × WorkerEnd) : RunLoop :=
  match l.running.lookup done.1 with
  | none => l
  | some pair =>
    { l with
      running := l.running.filter fun entry => entry.1 ≠ done.1
      resultsByName :=
        l.resultsByName.set (resultKey pair) (.dict (workerResult trigger pair done.2)) }

/-- What the loop does with an answer. -/
def loopNext (trigger : String) (maxParallel : Nat) (l : RunLoop) : LoopAction → RunLoop
  | .head cancelled =>
    if l.pending = [] ∧ l.running = [] then { l with phase := .left }
    else if cancelled ∧ l.pending ≠ [] then { cancelPending trigger l with phase := .submit }
    else { l with phase := .submit }
  | .submit resolve => submitNext resolve maxParallel l
  | .wait done => { done.foldl (collect trigger) l with phase := .head }

def loopStep (trigger : String) (maxParallel : Nat) (l : RunLoop) (a : LoopAction) :
    Option RunLoop :=
  if Answers l a then some (loopNext trigger maxParallel l a) else none

/-- The futures whose results were collected in a run. -/
def collected (as : List LoopAction) : List (Nat × WorkerEnd) :=
  as.flatMap fun a => match a with
    | .wait done => done
    | _ => []

/-! ### Names and keys -/

/-- The pairs have names, and no two of them the same key. -/
def Named (pairs : List Dict) : Prop :=
  (∀ pair ∈ pairs, strippedName pair ≠ "") ∧ (pairs.map resultKey).Nodup

theorem textOr_of_named {pair : Dict} (h : strippedName pair ≠ "") (fallback : String) :
    pair.textOr "name" fallback = resultKey pair := by
  have htrue : truthy (pair.get "name") = true := by
    by_contra hfalse
    apply h
    simp only [strippedName, Dict.textOr, pyOr, hfalse, if_false]
    decide
  simp only [Dict.textOr, pyOr, htrue, if_true, resultKey]

/-- The check of `run_job` keeps the results of two pairs apart. -/
theorem named_of_check {pairs : List Dict} (h : checkPairs pairs = .ok ()) : Named pairs := by
  unfold checkPairs at h
  split_ifs at h with hempty hblank hdouble
  have hnamed : ∀ pair ∈ pairs, strippedName pair ≠ "" := by
    intro pair hpair hname
    exact hblank (by simpa using ⟨pair, hpair, hname⟩)
  refine ⟨hnamed, List.Nodup.of_map (fun key => casefold (strip key)) ?_⟩
  have hsame : (pairs.map resultKey).map (fun key => casefold (strip key))
      = (pairs.map strippedName).map casefold := by
    rw [List.map_map, List.map_map]
    apply List.map_congr_left
    intro pair hpair
    show casefold (strip (resultKey pair)) = casefold (strippedName pair)
    rw [strippedName, textOr_of_named (hnamed pair hpair)]
  rw [hsame]
  exact hdouble

section Records

variable {α : Type*} {key : α → String} {val : α → Value}

/-- Writing other keys leaves an entry alone. -/
theorem lookup_foldl_other {items : List α} {k : String} (h : k ∉ items.map key) (d : Dict) :
    (items.foldl (fun d item => d.set (key item) (val item)) d).lookup k = d.lookup k := by
  induction items generalizing d with
  | nil => rfl
  | cons item items ih =>
    simp only [List.map_cons, List.mem_cons, not_or] at h
    rw [List.foldl_cons, ih h.2, Dict.lookup_set, if_neg h.1]

/-- Writing distinct keys leaves each with the value written for it. -/
theorem lookup_foldl_written {items : List α} (hkeys : (items.map key).Nodup) {item : α}
    (hitem : item ∈ items) (d : Dict) :
    (items.foldl (fun d item => d.set (key item) (val item)) d).lookup (key item)
      = some (val item) := by
  induction items generalizing d with
  | nil => cases hitem
  | cons first items ih =>
    obtain ⟨hfirst, hkeys⟩ := List.nodup_cons.mp hkeys
    rcases List.mem_cons.mp hitem with rfl | hitem
    · rw [List.foldl_cons, lookup_foldl_other hfirst, Dict.lookup_set, if_pos rfl]
    · exact ih hkeys hitem _

end Records

/-- Taking the entry of a key out leaves the other keys. -/
theorem perm_filter_ne {β : Type*} {entries : List (Nat × β)}
    (hkeys : (entries.map Prod.fst).Nodup) {k : Nat} (h : k ∈ entries.map Prod.fst) :
    (k :: (entries.filter fun entry => entry.1 ≠ k).map Prod.fst).Perm
      (entries.map Prod.fst) := by
  have hmap : (entries.filter fun entry => entry.1 ≠ k).map Prod.fst
      = (entries.map Prod.fst).erase k := by
    rw [hkeys.erase_eq_filter, List.filter_map]
    congr 1
    apply List.filter_congr
    intro entry _
    rw [Bool.eq_iff_iff]
    simp
  rw [hmap]
  exact (List.perm_cons_erase h).symm

/-! ### What every answer keeps -/

/-- The state of the books: each pair is pending, was submitted or was dropped; each
future is running or was taken; and what was dropped or taken has its result. -/
structure Booked (trigger : String) (maxParallel : Nat) (pairs : List Dict)
    (seen : Resolver → Prop) (taken : List (Nat × WorkerEnd)) (l : RunLoop) : Prop where
  partition : ∃ dropped : List Dict, (l.pending ++ l.submitted ++ dropped).Perm pairs ∧
    ∀ pair ∈ dropped,
      l.resultsByName.lookup (resultKey pair) = some (.dict (cancelledResult trigger pair))
  width : l.running.length ≤ maxParallel
  numbered : ∀ entry ∈ l.running, l.submitted[entry.1]? = some entry.2
  futures : (l.running.map Prod.fst ++ taken.map Prod.fst).Perm
    (List.range l.submitted.length)
  recorded : ∀ done ∈ taken, ∃ pair, l.submitted[done.1]? = some pair ∧
    l.resultsByName.lookup (resultKey pair) = some (.dict (workerResult trigger pair done.2))
  apart : l.running.Pairwise fun earlier later =>
    ∃ resolve, seen resolve ∧ pairsConflict resolve later.2 earlier.2 = false

variable {trigger : String} {maxParallel : Nat} {pairs : List Dict} {seen : Resolver → Prop}
  {taken : List (Nat × WorkerEnd)} {l : RunLoop}

theorem booked_start : Booked trigger maxParallel pairs seen [] (loopStart pairs) where
  partition := ⟨[], by simp [loopStart], by simp⟩
  width := Nat.zero_le _
  numbered := by simp [loopStart]
  futures := by simp [loopStart]
  recorded := by simp
  apart := List.Pairwise.nil

theorem Booked.phase (h : Booked trigger maxParallel pairs seen taken l) (phase : Phase) :
    Booked trigger maxParallel pairs seen taken { l with phase := phase } :=
  ⟨h.partition, h.width, h.numbered, h.futures, h.recorded, h.apart⟩

theorem Booked.widen {seen' : Resolver → Prop} (hseen : ∀ r, seen r → seen' r)
    (h : Booked trigger maxParallel pairs seen taken l) :
    Booked trigger maxParallel pairs seen' taken l :=
  ⟨h.partition, h.width, h.numbered, h.futures, h.recorded,
    h.apart.imp fun ⟨resolve, hresolve, hfree⟩ => ⟨resolve, hseen resolve hresolve, hfree⟩⟩

theorem Booked.mem_pairs (h : Booked trigger maxParallel pairs seen taken l) {pair : Dict}
    (hpair : pair ∈ l.pending ∨ pair ∈ l.submitted) : pair ∈ pairs := by
  obtain ⟨dropped, hperm, -⟩ := h.partition
  apply hperm.subset
  rcases hpair with hpair | hpair <;> simp [hpair]

/-- No future is handed out twice. -/
theorem Booked.nodup_futures (h : Booked trigger maxParallel pairs seen taken l) :
    (l.running.map Prod.fst ++ taken.map Prod.fst).Nodup :=
  h.futures.nodup_iff.mpr List.nodup_range

/-- A cancelled pair gets its result under its own key, and no other result changes. -/
theorem Booked.cancelPending (hnamed : Named pairs)
    (h : Booked trigger maxParallel pairs seen taken l) :
    Booked trigger maxParallel pairs seen taken (cancelPending trigger l) := by
  obtain ⟨dropped, hperm, hdropped⟩ := h.partition
  have hkeys : ((l.pending ++ l.submitted ++ dropped).map resultKey).Nodup :=
    (hperm.map resultKey).nodup_iff.mpr hnamed.2
  rw [List.append_assoc, List.map_append, List.nodup_append'] at hkeys
  obtain ⟨hpending, -, hdisjoint⟩ := hkeys
  -- the books are written under the key of the pair
  have hsame : (RcloneSync.cancelPending trigger l).resultsByName = l.pending.foldl
      (fun d pair => d.set (resultKey pair) (.dict (cancelledResult trigger pair)))
      l.resultsByName := by
    apply List.foldl_ext
    intro d pair hpair
    rw [textOr_of_named (hnamed.1 pair (h.mem_pairs (Or.inl hpair)))]
  have hother : ∀ pair ∈ l.submitted ++ dropped,
      (RcloneSync.cancelPending trigger l).resultsByName.lookup (resultKey pair)
        = l.resultsByName.lookup (resultKey pair) := by
    intro pair hpair
    rw [hsame]
    apply lookup_foldl_other
    intro hmem
    exact hdisjoint hmem (List.mem_map_of_mem hpair)
  refine ⟨⟨l.pending ++ dropped, ?_, ?_⟩, h.width, h.numbered, h.futures, ?_, h.apart⟩
  · show (l.submitted ++ (l.pending ++ dropped)).Perm pairs
    refine List.Perm.trans ?_ hperm
    rw [← List.append_assoc]
    exact List.perm_append_comm.append_right dropped
  · intro pair hpair
    rcases List.mem_append.mp hpair with hpair | hpair
    · rw [hsame]
      exact lookup_foldl_written hpending hpair _
    · rw [hother pair (by simp [hpair])]
      exact hdropped pair hpair
  · intro done hdone
    obtain ⟨pair, hpair, hresult⟩ := h.recorded done hdone
    refine ⟨pair, hpair, ?_⟩
    rw [hother pair (List.mem_append_left _ (List.mem_of_getElem? hpair))]
    exact hresult

/-- The pair that `_next_runnable_pair_index` finds conflicts with none of the running. -/
theorem nextRunnable_spec {resolve : Resolver} {pending running : List Dict} {index : Nat}
    (h : nextRunnablePairIndex resolve pending running = some index) :
    ∃ pair, pending[index]? = some pair ∧
      ∀ item ∈ running, pairsConflict resolve pair item = false := by
  obtain ⟨hlt, hfree, -⟩ := List.findIdx?_eq_some_iff_getElem.mp h
  refine ⟨pending[index], List.getElem?_eq_getElem hlt, ?_⟩
  intro item hitem
  by_contra hconflict
  simp only [Bool.not_eq_false] at hconflict
  simp only [Bool.not_eq_true', List.any_eq_false] at hfree
  exact hfree item hitem hconflict

/-- Where nothing runs, the first pending pair can start. -/
theorem nextRunnable_idle (resolve : Resolver) (first : Dict) (rest : List Dict) :
    nextRunnablePairIndex resolve (first :: rest) [] = some 0 := by
  simp [nextRunnablePairIndex, List.findIdx?_cons]

theorem submitNext_cases (resolve : Resolver) (maxParallel : Nat) (l : RunLoop) :
    (submitNext resolve maxParallel l = { l with phase := .wait } ∧
      (l.running = [] → 0 < maxParallel → l.pending = [])) ∨
    ∃ index pair, l.pending[index]? = some pair ∧ l.running.length < maxParallel ∧
      (∀ entry ∈ l.running, pairsConflict resolve pair entry.2 = false) ∧
      submitNext resolve maxParallel l = { l with
        pending := l.pending.eraseIdx index
        running := l.running ++ [(l.submitted.length, pair)]
        submitted := l.submitted ++ [pair] } := by
  unfold submitNext
  by_cases hroom : l.pending ≠ [] ∧ l.running.length < maxParallel
  · rw [if_pos hroom]
    cases hnext : nextRunnablePairIndex resolve l.pending (l.running.map Prod.snd) with
    | none =>
      refine Or.inl ⟨rfl, ?_⟩
      intro hidle _
      obtain ⟨first, rest, hpending⟩ := List.exists_cons_of_ne_nil hroom.1
      rw [hpending, hidle, List.map_nil, nextRunnable_idle] at hnext
      cases hnext
    | some index =>
      obtain ⟨pair, hpair, hfree⟩ := nextRunnable_spec hnext
      refine Or.inr ⟨index, pair, hpair, hroom.2, ?_, ?_⟩
      · intro entry hentry
        exact hfree entry.2 (List.mem_map_of_mem hentry)
      · simp only [hpair]
  · rw [if_neg hroom]
    refine Or.inl ⟨rfl, ?_⟩
    intro hidle hwidth
    by_contra hpending
    exact hroom ⟨hpending, by rw [hidle]; exact hwidth⟩

/-- A submitted pair moves from the pending to the running ones under a new future. -/
theorem Booked.submit {resolve : Resolver} (hresolve : seen resolve) {index : Nat} {pair : Dict}
    (h : Booked trigger maxParallel pairs seen taken l) (hpair : l.pending[index]? = some pair)
    (hroom : l.running.length < maxParallel)
    (hfree : ∀ entry ∈ l.running, pairsConflict resolve pair entry.2 = false) :
    Booked trigger maxParallel pairs seen taken { l with
      pending := l.pending.eraseIdx index
      running := l.running ++ [(l.submitted.length, pair)]
      submitted := l.submitted ++ [pair] } := by
  obtain ⟨hlt, rfl⟩ := List.getElem?_eq_some_iff.mp hpair
  obtain ⟨dropped, hperm, hdropped⟩ := h.partition
  have hkeep : ∀ {future : Nat} {old : Dict}, l.submitted[future]? = some old →
      (l.submitted ++ [l.pending[index]])[future]? = some old := by
    intro future old hold
    rw [List.getElem?_append_left (List.getElem?_eq_some_iff.mp hold).1]
    exact hold
  refine ⟨⟨dropped, ?_, hdropped⟩, ?_, ?_, ?_, ?_, ?_⟩
  · refine List.Perm.trans ?_ hperm
    apply List.Perm.append_right
    show (l.pending.eraseIdx index ++ (l.submitted ++ [l.pending[index]])).Perm _
    have hmoved : (l.pending[index] :: l.pending.eraseIdx index).Perm l.pending :=
      List.getElem_cons_eraseIdx_perm hlt
    have hfront : (l.pending.eraseIdx index ++ (l.submitted ++ [l.pending[index]])).Perm
        (l.pending.eraseIdx index ++ l.pending[index] :: l.submitted) :=
      List.perm_append_comm.append_left _
    exact (hfront.trans List.perm_middle).trans (hmoved.append_right l.submitted)
  · show (l.running ++ [(l.submitted.length, l.pending[index])]).length ≤ maxParallel
    rw [List.length_append]
    exact hroom
  · intro entry hentry
    rcases List.mem_append.mp hentry with hentry | hentry
    · exact hkeep (h.numbered entry hentry)
    · obtain rfl := List.mem_singleton.mp hentry
      exact List.getElem?_concat_length
  · show ((l.running ++ [(l.submitted.length, l.pending[index])]).map Prod.fst
      ++ taken.map Prod.fst).Perm (List.range (l.submitted ++ [l.pending[index]]).length)
    rw [List.length_append, List.length_singleton, List.range_succ, List.map_append,
      List.append_assoc]
    refine List.Perm.trans ?_ (h.futures.append_right [l.submitted.length])
    rw [List.append_assoc]
    exact List.perm_append_comm.append_left _
  · intro done hdone
    obtain ⟨old, hold, hresult⟩ := h.recorded done hdone
    exact ⟨old, hkeep hold, hresult⟩
  · refine List.pairwise_append.mpr ⟨h.apart, List.pairwise_singleton _ _, ?_⟩
    intro earlier hearlier later hlater
    obtain rfl := List.mem_singleton.mp hlater
    exact ⟨resolve, hresolve, hfree earlier hearlier⟩

/-- A collected future leaves the running ones, and the result goes to its pair. -/
theorem Booked.collect (hnamed : Named pairs) {done : Nat × WorkerEnd}
    (h : Booked trigger maxParallel pairs seen taken l)
    (hrunning : done.1 ∈ l.running.map Prod.fst) :
    Booked trigger maxParallel pairs seen (taken ++ [done]) (collect trigger l done) ∧
      (∀ future ∈ l.running.map Prod.fst, future ≠ done.1 →
        future ∈ (collect trigger l done).running.map Prod.fst) ∧
      (collect trigger l done).running.length < l.running.length := by
  obtain ⟨⟨future, pair⟩, hentry, hfuture⟩ := List.mem_map.mp hrunning
  obtain rfl : future = done.1 := hfuture
  have hnodup : (l.running.map Prod.fst).Nodup :=
    (List.nodup_append'.mp h.nodup_futures).1
  have hpair : l.submitted[done.1]? = some pair := h.numbered _ hentry
  have hlookup : l.running.lookup done.1 = some pair := lookup_of_mem hnodup hentry
  have hnext : RcloneSync.collect trigger l done = { l with
      running := l.running.filter fun entry => entry.1 ≠ done.1
      resultsByName :=
        l.resultsByName.set (resultKey pair) (.dict (workerResult trigger pair done.2)) } := by
    simp only [RcloneSync.collect, hlookup]
  rw [hnext]
  obtain ⟨dropped, hperm, hdropped⟩ := h.partition
  have hkeys : ((l.pending ++ l.submitted ++ dropped).map resultKey).Nodup :=
    (hperm.map resultKey).nodup_iff.mpr hnamed.2
  rw [List.map_append, List.map_append, List.nodup_append', List.nodup_append'] at hkeys
  obtain ⟨⟨-, hsubmitted, -⟩, -, hdisjoint⟩ := hkeys
  refine ⟨⟨⟨dropped, hperm, ?_⟩, ?_, ?_, ?_, ?_, ?_⟩, ?_, ?_⟩
  · intro old hold
    show (l.resultsByName.set _ _).lookup _ = _
    rw [Dict.lookup_set, if_neg]
    · exact hdropped old hold
    · intro hkey
      refine hdisjoint ?_ (List.mem_map_of_mem hold)
      rw [hkey]
      exact List.mem_append_right _ (List.mem_map_of_mem (List.mem_of_getElem? hpair))
  · exact (List.length_filter_le _ _).trans h.width
  · intro entry hentry
    exact h.numbered entry (List.mem_of_mem_filter hentry)
  · refine List.Perm.trans ?_ h.futures
    have hsplit := perm_filter_ne hnodup hrunning
    show ((l.running.filter fun entry => entry.1 ≠ done.1).map Prod.fst
      ++ (taken ++ [done]).map Prod.fst).Perm _
    rw [List.map_append, ← List.append_assoc]
    refine List.Perm.trans List.perm_append_comm ?_
    rw [← List.append_assoc]
    exact hsplit.append_right _
  · intro old hold
    rcases List.mem_append.mp hold with hold | hold
    · obtain ⟨before, hbefore, hresult⟩ := h.recorded old hold
      refine ⟨before, hbefore, ?_⟩
      show (l.resultsByName.set _ _).lookup _ = _
      rw [Dict.lookup_set, if_neg]
      · exact hresult
      · intro hkey
        -- the futures of two submitted pairs with one key would be the same
        have hsame : old.1 = done.1 := by
          have hlt := (List.getElem?_eq_some_iff.mp hbefore).1
          apply (List.getElem?_inj (by simpa using hlt) hsubmitted).mp
          rw [List.getElem?_map, List.getElem?_map, hbefore, hpair, Option.map_some,
            Option.map_some, hkey]
        have htwice := (List.nodup_append'.mp h.nodup_futures).2.2 hrunning
        rw [← hsame] at htwice
        exact htwice (List.mem_map_of_mem hold)
    · obtain rfl := List.mem_singleton.mp hold
      exact ⟨pair, hpair, by rw [Dict.lookup_set, if_pos rfl]⟩
  · exact h.apart.filter _
  · intro future hfuture hne
    obtain ⟨entry, hentry, rfl⟩ := List.mem_map.mp hfuture
    exact List.mem_map_of_mem (List.mem_filter.mpr ⟨hentry, by simpa using hne⟩)
  · apply List.length_filter_lt_length_iff_exists.mpr
    exact ⟨_, hentry, by simp⟩

/-- `for future in done`. -/
theorem Booked.collectAll (hnamed : Named pairs) {done : List (Nat × WorkerEnd)}
    (hdone : (done.map Prod.fst).Nodup) :
    ∀ {taken : List (Nat × WorkerEnd)} {l : RunLoop},
      Booked trigger maxParallel pairs seen taken l →
      (∀ future ∈ done.map Prod.fst, future ∈ l.running.map Prod.fst) →
      Booked trigger maxParallel pairs seen (taken ++ done)
        (done.foldl (RcloneSync.collect trigger) l) ∧
      (done.foldl (RcloneSync.collect trigger) l).running.length + done.length
        ≤ l.running.length := by
  induction done with
  | nil =>
    intro taken l h _
    rw [List.append_nil]
    exact ⟨h, Nat.le_refl _⟩
  | cons first rest ih =>
    intro taken l h hsub
    obtain ⟨hfirst, hrest⟩ := List.nodup_cons.mp hdone
    obtain ⟨hnext, hkeep, hless⟩ := h.collect hnamed (hsub first.1 (by simp))
    have hsub' : ∀ future ∈ rest.map Prod.fst,
        future ∈ (RcloneSync.collect trigger l first).running.map Prod.fst := by
      intro future hfuture
      apply hkeep future (hsub future (List.mem_cons_of_mem _ hfuture))
      rintro rfl
      exact hfirst hfuture
    obtain ⟨hbooked, hlength⟩ := ih hrest hnext hsub'
    rw [List.append_assoc] at hbooked
    refine ⟨hbooked, ?_⟩
    rw [List.length_cons]
    exact Nat.le_trans (Nat.succ_le_succ hlength) hless

theorem pending_collectAll (trigger : String) (done : List (Nat × WorkerEnd)) (l : RunLoop) :
    (done.foldl (RcloneSync.collect trigger) l).pending = l.pending := by
  induction done generalizing l with
  | nil => rfl
  | cons first rest ih =>
    rw [List.foldl_cons, ih]
    unfold RcloneSync.collect
    split <;> rfl

/-! ### Progress -/

/-- The loop waits for something, and it is left only when everything is done. -/
structure Busy (l : RunLoop) : Prop where
  waiting : l.phase = .wait → l.running = [] → l.pending = []
  left : l.phase = .left → l.pending = [] ∧ l.running = []

/-- What each place of the loop still costs before the next pair is collected. -/
def phaseCost (l : RunLoop) : Nat :=
  match l.phase with
  | .head => if l.pending = [] ∧ l.running = [] then 1 else 5
  | .submit => 4
  | .wait => 3
  | .left => 0

/-- A measure of what is left to do. -/
def remaining (l : RunLoop) : Nat :=
  3 * (l.pending.length + l.running.length) + l.pending.length + phaseCost l

theorem phaseCost_head_le (l : RunLoop) (h : l.phase = .head) : phaseCost l ≤ 5 := by
  simp only [phaseCost, h]
  split <;> omega

/-- **The step lemma.**  Whatever the loop is told, the books stay right, it never waits
for nothing while a pair is pending, and less is left to do. -/
theorem loopStep_spec (hnamed : Named pairs) (hmax : 0 < maxParallel) {as : List LoopAction}
    {a : LoopAction} {t : RunLoop}
    (h : Booked trigger maxParallel pairs (fun r => .submit r ∈ as) (collected as) l)
    (hbusy : Busy l) (hstep : loopStep trigger maxParallel l a = some t) :
    Booked trigger maxParallel pairs (fun r => .submit r ∈ as ++ [a]) (collected (as ++ [a])) t ∧
      Busy t ∧ remaining t < remaining l := by
  obtain ⟨hanswer, rfl⟩ : Answers l a ∧ loopNext trigger maxParallel l a = t := by
    unfold loopStep at hstep
    split_ifs at hstep with hanswer
    exact ⟨hanswer, Option.some.inj hstep⟩
  have hwide : Booked trigger maxParallel pairs (fun r => .submit r ∈ as ++ [a])
      (collected as) l := h.widen fun r hr => List.mem_append_left _ hr
  have hcollected : collected (as ++ [a]) = collected as ++ collected [a] :=
    List.flatMap_append
  rw [hcollected]
  cases a with
  | head cancelled =>
    have hphase : l.phase = .head := hanswer
    show Booked _ _ _ _ (collected as ++ []) _ ∧ _
    rw [List.append_nil]
    by_cases hover : l.pending = [] ∧ l.running = []
    · have hnext : loopNext trigger maxParallel l (.head cancelled) = { l with phase := .left } :=
        if_pos hover
      rw [hnext]
      refine ⟨hwide.phase _, ⟨nofun, fun _ => hover⟩, ?_⟩
      simp [remaining, phaseCost, hphase, hover]
    · by_cases hcancel : cancelled ∧ l.pending ≠ []
      · have hnext : loopNext trigger maxParallel l (.head cancelled)
            = { cancelPending trigger l with phase := .submit } := by
          show (if _ then _ else if _ then _ else _) = _
          rw [if_neg hover, if_pos hcancel]
        rw [hnext]
        refine ⟨(hwide.cancelPending hnamed).phase _, ⟨nofun, nofun⟩, ?_⟩
        simp only [remaining, phaseCost, hphase, hover, if_false, cancelPending,
          List.length_nil]
        omega
      · have hnext : loopNext trigger maxParallel l (.head cancelled)
            = { l with phase := .submit } := by
          show (if _ then _ else if _ then _ else _) = _
          rw [if_neg hover, if_neg hcancel]
        rw [hnext]
        refine ⟨hwide.phase _, ⟨nofun, nofun⟩, ?_⟩
        simp only [remaining, phaseCost, hphase, hover, if_false]
        omega
  | submit resolve =>
    have hphase : l.phase = .submit := hanswer
    show Booked _ _ _ _ (collected as ++ []) (submitNext resolve maxParallel l) ∧ _
    rw [List.append_nil]
    show _ ∧ Busy (submitNext resolve maxParallel l) ∧
      remaining (submitNext resolve maxParallel l) < _
    rcases submitNext_cases resolve maxParallel l with
      ⟨hnext, hidle⟩ | ⟨index, pair, hpair, hroom, hfree, hnext⟩
    · rw [hnext]
      refine ⟨hwide.phase _, ⟨fun _ hrunning => hidle hrunning hmax, nofun⟩, ?_⟩
      simp [remaining, phaseCost, hphase]
    · rw [hnext]
      have hlt := (List.getElem?_eq_some_iff.mp hpair).1
      refine ⟨hwide.submit (by simp) hpair hroom hfree, ⟨?_, ?_⟩, ?_⟩
      · intro hwait
        rw [hphase] at hwait
        cases hwait
      · intro hleft
        rw [hphase] at hleft
        cases hleft
      · simp only [remaining, phaseCost, hphase, List.length_append, List.length_singleton,
          List.length_eraseIdx_of_lt hlt]
        omega
  | wait done =>
    obtain ⟨hphase, hdone⟩ := hanswer
    show Booked _ _ _ _ (collected as ++ (done ++ [])) _ ∧ _
    rw [List.append_nil]
    by_cases hidle : l.running = []
    · rw [if_pos hidle] at hdone
      obtain rfl := List.map_eq_nil_iff.mp hdone
      have hpending := hbusy.waiting hphase hidle
      show Booked _ _ _ _ (collected as ++ []) { l with phase := .head } ∧
        Busy { l with phase := .head } ∧ remaining { l with phase := .head } < _
      rw [List.append_nil]
      refine ⟨hwide.phase _, ⟨nofun, nofun⟩, ?_⟩
      simp [remaining, phaseCost, hphase, hidle, hpending]
    · rw [if_neg hidle] at hdone
      obtain ⟨hsome, hnodup, hsub⟩ := hdone
      obtain ⟨hbooked, hlength⟩ := hwide.collectAll hnamed hnodup hsub
      refine ⟨hbooked.phase _, ⟨nofun, nofun⟩, ?_⟩
      have hpos : 0 < done.length := by
        rw [← List.length_map (f := Prod.fst)]
        exact List.length_pos_of_ne_nil hsome
      have hcost : phaseCost (loopNext trigger maxParallel l (.wait done)) ≤ 5 :=
        phaseCost_head_le _ rfl
      show 3 * ((done.foldl (collect trigger) l).pending.length
          + (done.foldl (collect trigger) l).running.length)
          + (done.foldl (collect trigger) l).pending.length + _ < _
      rw [pending_collectAll]
      have hbefore : remaining l
          = 3 * (l.pending.length + l.running.length) + l.pending.length + 3 := by
        simp only [remaining, phaseCost, hphase]
      rw [hbefore]
      omega

/-- **The run lemma.** -/
theorem loop_run (hnamed : Named pairs) (hmax : 0 < maxParallel) {before as : List LoopAction}
    {t : RunLoop} (hrun : Run (Steps (loopStep trigger maxParallel)) l as t)
    (h : Booked trigger maxParallel pairs (fun r => .submit r ∈ before) (collected before) l)
    (hbusy : Busy l) :
    Booked trigger maxParallel pairs (fun r => .submit r ∈ before ++ as)
        (collected (before ++ as)) t ∧
      Busy t ∧ remaining t + as.length ≤ remaining l := by
  induction hrun generalizing before with
  | nil l =>
    rw [List.append_nil]
    exact ⟨h, hbusy, Nat.le_refl _⟩
  | cons hstep _ ih =>
    obtain ⟨hnext, hbusy, hless⟩ := loopStep_spec hnamed hmax h hbusy hstep
    obtain ⟨hlast, hbusy, hmeasure⟩ := ih hnext hbusy
    rw [List.append_assoc] at hlast
    refine ⟨hlast, hbusy, ?_⟩
    rw [List.length_cons]
    omega

/-- The loop is never stuck: it goes on by itself, or a running pair ends. -/
theorem loop_goes_on (trigger : String) (maxParallel : Nat) (l : RunLoop)
    (h : l.phase ≠ .left) : ∃ a t, loopStep trigger maxParallel l a = some t := by
  have hstep : ∀ a, Answers l a → ∃ a t, loopStep trigger maxParallel l a = some t := by
    intro a ha
    exact ⟨a, _, if_pos ha⟩
  cases hphase : l.phase with
  | head => exact hstep (.head false) hphase
  | submit => exact hstep (.submit fun _ => none) hphase
  | left => exact absurd hphase h
  | wait =>
    cases hrunning : l.running with
    | nil => exact hstep (.wait []) ⟨hphase, by simp [hrunning]⟩
    | cons first rest =>
      refine hstep (.wait [(first.1, .returned [])]) ⟨hphase, ?_⟩
      rw [if_neg (by simp [hrunning])]
      exact ⟨by simp, by simp, by simp [hrunning]⟩

/-- What became of a pair: its worker ended with a result, or it was never started. -/
def PairSettled (trigger : String) (as : List LoopAction) (l : RunLoop) (pair : Dict)
    (result : Value) : Prop :=
  (∃ done ∈ collected as, l.submitted[done.1]? = some pair ∧
    result = .dict (workerResult trigger pair done.2)) ∨
  (pair ∉ l.submitted ∧ result = .dict (cancelledResult trigger pair))

theorem getOr_of_lookup {d : Dict} {key : String} {v fallback : Value}
    (h : d.lookup key = some v) : d.getOr key fallback = v := by
  rw [Dict.getOr, h, Option.getD_some]

/-- Behind the loop the books hold one result for each pair. -/
theorem Booked.settled (hnamed : Named pairs) {as : List LoopAction}
    (h : Booked trigger maxParallel pairs seen (collected as) l) (hpending : l.pending = [])
    (hrunning : l.running = []) :
    List.Forall₂ (PairSettled trigger as l) pairs (jobResults pairs l.resultsByName) := by
  obtain ⟨dropped, hperm, hdropped⟩ := h.partition
  rw [hpending, List.nil_append] at hperm
  have hdistinct : (l.submitted ++ dropped).Nodup :=
    List.Nodup.of_map resultKey ((hperm.map resultKey).nodup_iff.mpr hnamed.2)
  have hfutures := h.futures
  rw [hrunning, List.map_nil, List.nil_append] at hfutures
  unfold jobResults
  rw [List.forall₂_map_right_iff, List.forall₂_same]
  intro pair hpair
  rcases List.mem_append.mp (hperm.symm.subset hpair) with hpair | hpair
  · obtain ⟨future, hlt, hfuture⟩ := List.getElem_of_mem hpair
    obtain ⟨done, hdone, rfl⟩ := List.mem_map.mp
      (hfutures.symm.subset (List.mem_range.mpr hlt))
    obtain ⟨pair', hpair', hresult⟩ := h.recorded done hdone
    obtain rfl : pair' = pair := by
      rw [List.getElem?_eq_getElem hlt, hfuture] at hpair'
      exact (Option.some.inj hpair').symm
    exact Or.inl ⟨done, hdone, hpair', getOr_of_lookup hresult⟩
  · refine Or.inr ⟨?_, getOr_of_lookup (hdropped pair hpair)⟩
    intro hsubmitted
    exact (List.nodup_append'.mp hdistinct).2.2 hsubmitted hpair

/-- **The pair runner is right for every schedule.**  For every list of pairs that passes
the check, every limit and every sequence of answers of `is_cancelled`, of the path
resolution and of `wait`: at most `maxParallel` pairs are running, any two of them without a
conflict; each pair is submitted at most once; the loop takes no more than `4 n + 5` steps
and is stuck nowhere before its end; and there each pair has its one result in its place. -/
theorem pair_runner_correct (trigger : String) {pairs : List Dict} {maxParallel : Nat}
    (hpairs : checkPairs pairs = .ok ()) (hmax : 1 ≤ maxParallel) {as : List LoopAction}
    {l : RunLoop}
    (hrun : Run (Steps (loopStep trigger (min maxParallel pairs.length))) (loopStart pairs)
      as l) :
    l.running.length ≤ maxParallel ∧
    (l.running.Pairwise fun earlier later =>
      ∃ resolve, .submit resolve ∈ as ∧ pairsConflict resolve later.2 earlier.2 = false) ∧
    (∀ resolve, (∀ r, .submit r ∈ as → r = resolve) →
      l.running.Pairwise fun earlier later =>
        pairsConflict resolve earlier.2 later.2 = false) ∧
    l.submitted.Nodup ∧ l.submitted.Subperm pairs ∧
    (∀ entry ∈ l.running, l.submitted[entry.1]? = some entry.2) ∧
    ((collected as).map Prod.fst).Nodup ∧
    as.length ≤ 4 * pairs.length + 5 ∧
    (l.phase ≠ .left → ∃ a t, loopStep trigger (min maxParallel pairs.length) l a = some t) ∧
    (l.phase = .left →
      List.Forall₂ (PairSettled trigger as l) pairs (jobResults pairs l.resultsByName)) := by
  have hnamed := named_of_check hpairs
  have hsome : pairs ≠ [] := by
    rintro rfl
    cases hpairs
  have hwidth : 0 < min maxParallel pairs.length :=
    Nat.lt_min.mpr ⟨hmax, List.length_pos_of_ne_nil hsome⟩
  have hstart : Booked trigger (min maxParallel pairs.length) pairs
      (fun r => .submit r ∈ ([] : List LoopAction)) (collected []) (loopStart pairs) :=
    booked_start
  obtain ⟨h, hbusy, hmeasure⟩ := loop_run hnamed hwidth hrun hstart ⟨nofun, nofun⟩
  rw [List.nil_append] at h
  obtain ⟨dropped, hperm, -⟩ := h.partition
  have hkeys : ((l.pending ++ l.submitted ++ dropped).map resultKey).Nodup :=
    (hperm.map resultKey).nodup_iff.mpr hnamed.2
  have hdistinct : (l.pending ++ l.submitted).Nodup :=
    (List.nodup_append'.mp (List.Nodup.of_map resultKey hkeys)).1
  refine ⟨h.width.trans (Nat.min_le_left _ _), ?_, ?_, (List.nodup_append'.mp hdistinct).2.1,
    ?_, h.numbered, (List.nodup_append'.mp h.nodup_futures).2.1, ?_,
    loop_goes_on trigger _ l, ?_⟩
  · exact h.apart
  · intro resolve hone
    refine h.apart.imp ?_
    rintro earlier later ⟨r, hr, hfree⟩
    rw [← hone r hr, pairsConflict_comm]
    exact hfree
  · refine List.Subperm.trans ?_ hperm.subperm
    exact ((List.sublist_append_right _ _).trans (List.sublist_append_left _ _)).subperm
  · have hstart : remaining (loopStart pairs) = 3 * pairs.length + pairs.length + 5 := by
      simp [remaining, phaseCost, loopStart, hsome]
    omega
  · intro hleft
    obtain ⟨hpending, hrunning⟩ := hbusy.left hleft
    exact h.settled hnamed hpending hrunning

/-- Two pairs with nested remotes and a third one apart from them. -/
def nestedPairs : List Dict :=
  [[("name", .str "A"), ("local", .str "/a"), ("remote", .str "cloud:docs")],
    [("name", .str "B"), ("local", .str "/b"), ("remote", .str "Cloud:docs/old")],
    [("name", .str "C"), ("local", .str "/c"), ("remote", .str "cloud:docs2")]]

/-- `A` and `C` run together, `B` waits for `A` and is cancelled, `C` raises. -/
def nestedAnswers : List LoopAction :=
  let plain : Resolver := fun path => some [path]
  [.head false, .submit plain, .submit plain, .submit plain,
    .wait [(0, .returned [("name", .str "A"), ("ok", .bool true)])],
    .head true, .submit plain, .wait [(1, .raised "disk")], .head false]

theorem pair_runner_correct_nested : ∃ l,
    runAll (loopStep "manual" (min 2 nestedPairs.length)) (loopStart nestedPairs) nestedAnswers
      = some l ∧ l.phase = .left ∧ l.submitted.length = 2 ∧
    List.Forall₂ (PairSettled "manual" nestedAnswers l) nestedPairs
      (jobResults nestedPairs l.resultsByName) := by
  have hsome : ((runAll (loopStep "manual" (min 2 nestedPairs.length)) (loopStart nestedPairs)
      nestedAnswers).map fun l => (l.phase, l.submitted.length)) = some (.left, 2) := by decide
  obtain ⟨l, hl, hlast⟩ := Option.map_eq_some_iff.mp hsome
  obtain ⟨hphase, hsubmitted⟩ := Prod.ext_iff.mp hlast
  have hcorrect := pair_runner_correct "manual" (by decide) (by decide) (run_of_runAll hl)
  exact ⟨l, hl, hphase, hsubmitted, hcorrect.2.2.2.2.2.2.2.2.2 hphase⟩

end RcloneSync
