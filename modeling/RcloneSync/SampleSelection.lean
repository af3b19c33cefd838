/-
RcloneSync/SampleSelection.lean

The files of a restore drill that a byte budget pays for (jobs/restore_sampling.py).

The first pass takes the candidates in their order, each that still fits.  If it does not reach the
wanted number, a second pass keeps what is cheap: it pushes the files on a heap and gives up a
largest one whenever the budget is exceeded, which is the rule of `BudgetedChoice`.  The result is
always as many files as can be had (`select_as_many_as_fit`).
-/
import Mathlib.Algebra.Order.Ring.Nat
import Mathlib.Data.List.Sort
import Mathlib.Order.Bounds.Basic
import RcloneSync.BudgetedChoice
import RcloneSync.PyValue

namespace RcloneSync

open Py BudgetedChoice

/-! ### Candidates -/

/-- A candidate that passes the checks. -/
structure SampleFile where
  path : String
  size : Nat
  deriving DecidableEq, Repr

/-- A pair of a text and an integer; a tuple is read as a list. -/
def validCandidate (budget : Int) : Value → Option SampleFile
  | .list [.str path, .int size] =>
    if path = "" ∨ size < 0 ∨ budget < size then none else some ⟨path, size.toNat⟩
  | _ => none

/-- The first loop: candidates that are valid, each path once. -/
def eligibleFrom (budget : Int) : List String → List Value → List SampleFile
  | _, [] => []
  | seen, candidate :: candidates =>
    match validCandidate budget candidate with
    | none => eligibleFrom budget seen candidates
    | some f =>
      if f.path ∈ seen then eligibleFrom budget seen candidates
      else f :: eligibleFrom budget (f.path :: seen) candidates

/-! ### The two passes -/

/-- The greedy pass; the flag tells that the wanted number was reached. -/
def greedyFrom (sampleSize : Nat) (budget : Int) :
    List SampleFile → Int → List SampleFile → List SampleFile × Bool
  | greedy, _, [] => (greedy, false)
  | greedy, bytes, f :: fs =>
    if bytes + f.size ≤ budget then
      if (greedy ++ [f]).length = sampleSize then (greedy ++ [f], true)
      else greedyFrom sampleSize budget (greedy ++ [f]) (bytes + f.size) fs
    else greedyFrom sampleSize budget greedy bytes fs

/-- An entry of the heap: the negative size and the negative position. -/
abbrev HeapEntry := Int × Int

/-- The order of tuples. -/
def entryLE (a b : HeapEntry) : Prop := a.1 < b.1 ∨ (a.1 = b.1 ∧ a.2 ≤ b.2)

instance : DecidableRel entryLE := fun a b =>
  inferInstanceAs (Decidable (a.1 < b.1 ∨ (a.1 = b.1 ∧ a.2 ≤ b.2)))

/-- `heapq.heappush`.  Only the least entry of a heap is ever read, so it stands here in order. -/
def heappush (heap : List HeapEntry) (e : HeapEntry) : List HeapEntry :=
  heap.orderedInsert entryLE e

/-- A push, and a pop (`heapq.heappop`) if the budget is exceeded. -/
def evictStep (budget : Int) (heap : List HeapEntry) (bytes : Int) (index : Nat) (f : SampleFile) :
    List HeapEntry × Int :=
  match heappush heap (-f.size, -index) with
  | [] => ([], bytes + f.size)
  | e :: rest =>
    if budget < bytes + f.size then (rest, bytes + f.size + e.1) else (e :: rest, bytes + f.size)

/-- The second pass, from a position on. -/
def evictFrom (sampleSize : Nat) (budget : Int) :
    Nat → List HeapEntry → Int → List SampleFile → List HeapEntry
  | _, heap, _, [] => heap
  | index, heap, bytes, f :: fs =>
    let (heap, bytes) := evictStep budget heap bytes index f
    if heap.length = sampleSize then heap else evictFrom sampleSize budget (index + 1) heap bytes fs

/-- `sorted(-negative_index for …)`. -/
def positionsOf (heap : List HeapEntry) : List Nat :=
  (heap.map fun e => (-e.2).toNat).insertionSort (· ≤ ·)

/-- What is selected of the eligible candidates. -/
def selectEligible (sampleSize : Nat) (budget : Int) (eligible : List SampleFile) :
    List SampleFile :=
  let (greedy, full) := greedyFrom sampleSize budget [] 0 eligible
  if full then greedy
  else
    let selected := evictFrom sampleSize budget 0 [] 0 eligible
    if selected.length ≤ greedy.length then greedy
    else (positionsOf selected).filterMap (eligible[·]?)

/-- `select_budgeted_sample`. -/
def selectBudgetedSample (candidates : List Value) (sampleSize maxTotalBytes : Value) :
    Except PyError (List SampleFile) :=
  match sampleSize, maxTotalBytes with
  | .int sampleSize, .int budget =>
    if sampleSize ≤ 0 ∨ budget < 0 then .ok []
    else .ok (selectEligible sampleSize.toNat budget (eligibleFrom budget [] candidates))
  | _, _ => .error (.value "Sample count and byte budget must be integers")

/-! ### Valid first occurrences -/

/-- The files in their order, of each path the first. -/
def firstOfPath : List SampleFile → List SampleFile
  | [] => []
  | f :: fs => f :: (firstOfPath fs).filter fun g => g.path ≠ f.path

/-- The valid candidates, of each path the first. -/
def validFirsts (budget : Int) (candidates : List Value) : List SampleFile :=
  firstOfPath (candidates.filterMap (validCandidate budget))

theorem eligibleFrom_eq (budget : Int) (seen : List String) (candidates : List Value) :
    eligibleFrom budget seen candidates
      = (validFirsts budget candidates).filter fun f => f.path ∉ seen := by
  induction candidates generalizing seen with
  | nil => rfl
  | cons candidate candidates ih =>
    rw [eligibleFrom]
    cases hvalid : validCandidate budget candidate with
    | none =>
      have hskip :
          validFirsts budget (candidate :: candidates) = validFirsts budget candidates := by
        rw [validFirsts, List.filterMap_cons, hvalid]
        rfl
      rw [hskip]
      exact ih seen
    | some f =>
      have hcons : validFirsts budget (candidate :: candidates)
          = f :: (validFirsts budget candidates).filter fun g => g.path ≠ f.path := by
        rw [validFirsts, List.filterMap_cons, hvalid]
        rfl
      rw [hcons]
      by_cases hseen : f.path ∈ seen
      · simp only [hseen, if_true]
        rw [ih, List.filter_cons_of_neg (by simpa using hseen), List.filter_filter]
        refine List.filter_congr fun g _ => ?_
        by_cases hg : g.path = f.path
        · simp [hg, hseen]
        · simp [hg]
      · simp only [hseen, if_false]
        rw [ih, List.filter_cons_of_pos (by simpa using hseen), List.filter_filter]
        refine congrArg _ (List.filter_congr fun g _ => ?_)
        simp [Bool.and_comm]

/-- Every valid candidate is no larger than the budget. -/
theorem size_le_of_mem_validFirsts {budget : Int} {candidates : List Value} {f : SampleFile}
    (h : f ∈ validFirsts budget candidates) : (f.size : Int) ≤ budget := by
  have hmem : ∀ fs : List SampleFile, f ∈ firstOfPath fs → f ∈ fs := by
    intro fs hf
    induction fs with
    | nil => exact hf
    | cons g fs ih =>
      rcases List.mem_cons.mp hf with rfl | hf
      · exact List.mem_cons_self
      · exact List.mem_cons_of_mem _ (ih (List.mem_filter.mp hf).1)
  obtain ⟨candidate, _, hvalid⟩ := List.mem_filterMap.mp (hmem _ h)
  unfold validCandidate at hvalid
  split at hvalid
  · split_ifs at hvalid with hbad
    obtain rfl := Option.some.inj hvalid
    simp only
    omega
  · cases hvalid

/-! ### The greedy pass -/

def totalSize (fs : List SampleFile) : Nat := (fs.map SampleFile.size).sum

theorem totalSize_append (fs gs : List SampleFile) :
    totalSize (fs ++ gs) = totalSize fs + totalSize gs := by
  rw [totalSize, List.map_append, List.sum_append]
  rfl

/-- What the greedy pass picks: some of the files in their order, within the budget, and the wanted
number of them exactly if it says so. -/
theorem greedyFrom_spec {sampleSize budget : Nat} {greedy : List SampleFile} {bytes : Int}
    (fs : List SampleFile) (hbytes : bytes = totalSize greedy) (hfit : totalSize greedy ≤ budget)
    (hless : greedy.length < sampleSize) :
    ∃ picked full, greedyFrom sampleSize budget greedy bytes fs = (greedy ++ picked, full) ∧
      picked.Sublist fs ∧ totalSize (greedy ++ picked) ≤ budget ∧
      (full = true → (greedy ++ picked).length = sampleSize) ∧
      (full = false → (greedy ++ picked).length < sampleSize) := by
  induction fs generalizing greedy bytes with
  | nil =>
    refine ⟨[], false, ?_, List.Sublist.refl _, ?_, fun h => (by cases h), fun _ => ?_⟩
    · rw [List.append_nil]
      rfl
    · rwa [List.append_nil]
    · rwa [List.append_nil]
  | cons f fs ih =>
    have htotal : totalSize (greedy ++ [f]) = totalSize greedy + f.size := totalSize_append _ _
    rw [greedyFrom]
    split_ifs with hfits hfull
    · refine ⟨[f], true, rfl, ?_, ?_, fun _ => hfull, fun h => (by cases h)⟩
      · exact List.Sublist.cons_cons f (List.nil_sublist fs)
      · rw [htotal]
        omega
    · have hmore : (greedy ++ [f]).length < sampleSize := by
        rw [List.length_append, List.length_singleton] at hfull ⊢
        omega
      have hsum : bytes + f.size = totalSize (greedy ++ [f]) := by
        rw [htotal, hbytes]
        omega
      obtain ⟨picked, full, heq, hsub, hle, hyes, hno⟩ := ih hsum (by rw [htotal]; omega) hmore
      rw [List.append_assoc] at heq hle hyes hno
      exact ⟨f :: picked, full, heq, hsub.cons_cons f, hle, hyes, hno⟩
    · obtain ⟨picked, full, heq, hsub, hrest⟩ := ih hbytes hfit hless
      exact ⟨picked, full, heq, hsub.cons f, hrest⟩

/-! ### The heap -/

def entrySize (e : HeapEntry) : Nat := (-e.1).toNat

def entryPosition (e : HeapEntry) : Nat := (-e.2).toNat

/-- The sizes on a heap. -/
def sizesOf (heap : List HeapEntry) : Multiset Nat := (heap.map entrySize : List Nat)

/-- The heap between two rounds: the files of some positions before `index`, a largest one first,
with the files that were given up. -/
structure HeapFits (eligible : List SampleFile) (budget index : Nat) (heap : List HeapEntry)
    (bytes : Int) : Prop where
  sorted : heap.Pairwise entryLE
  entries : ∀ e ∈ heap, ∃ p f, p < index ∧ eligible[p]? = some f ∧ e = (-(f.size : Int), -(p : Int))
  nodup : (heap.map entryPosition).Nodup
  bytes_eq : bytes = (sizesOf heap).sum
  cheapest : ∃ given, Cheapest budget (sizesOf heap) given ∧
    sizesOf heap + given = ((eligible.take index).map SampleFile.size : List Nat)

instance : Std.Total entryLE := ⟨fun a b => by unfold entryLE; omega⟩

instance : IsTrans HeapEntry entryLE := ⟨fun a b c => by unfold entryLE; omega⟩

theorem sizesOf_cons (e : HeapEntry) (heap : List HeapEntry) :
    sizesOf (e :: heap) = entrySize e ::ₘ sizesOf heap := rfl

theorem sizesOf_perm {heap heap' : List HeapEntry} (h : heap.Perm heap') :
    sizesOf heap = sizesOf heap' :=
  Multiset.coe_eq_coe.mpr (h.map entrySize)

theorem heapFits_empty (eligible : List SampleFile) (budget : Nat) :
    HeapFits eligible budget 0 [] 0 :=
  ⟨List.Pairwise.nil, fun _ h => (by cases h), List.nodup_nil, rfl, 0,
    cheapest_zero budget (Nat.zero_le budget), by rw [List.take_zero]; rfl⟩

/-- One round of the second pass. -/
theorem HeapFits.step {eligible : List SampleFile} {budget index : Nat} {heap : List HeapEntry}
    {bytes : Int} (h : HeapFits eligible budget index heap bytes) {f : SampleFile}
    (hf : eligible[index]? = some f) :
    HeapFits eligible budget (index + 1) (evictStep budget heap bytes index f).1
      (evictStep budget heap bytes index f).2 ∧
    (evictStep budget heap bytes index f).1.length ≤ heap.length + 1 := by
  let new : HeapEntry := (-(f.size : Int), -(index : Int))
  have hsize : entrySize new = f.size := by
    show (- -(f.size : Int)).toNat = f.size
    omega
  have hpos : entryPosition new = index := by
    show (- -(index : Int)).toNat = index
    omega
  have hperm : (heappush heap new).Perm (new :: heap) := List.perm_orderedInsert entryLE new heap
  have hsorted : (heappush heap new).Pairwise entryLE := h.sorted.orderedInsert new heap
  have hentries : ∀ e ∈ heappush heap new, ∃ p g, p < index + 1 ∧ eligible[p]? = some g ∧
      e = (-(g.size : Int), -(p : Int)) := by
    intro e he
    rcases List.mem_cons.mp (hperm.mem_iff.mp he) with rfl | he
    · exact ⟨index, f, Nat.lt_succ_self index, hf, rfl⟩
    · obtain ⟨p, g, hp, hg⟩ := h.entries e he
      exact ⟨p, g, Nat.lt_succ_of_lt hp, hg⟩
  have hnodup : ((heappush heap new).map entryPosition).Nodup := by
    rw [(hperm.map entryPosition).nodup_iff, List.map_cons, List.nodup_cons, hpos]
    refine ⟨fun hmem => ?_, h.nodup⟩
    obtain ⟨e, he, heq⟩ := List.mem_map.mp hmem
    obtain ⟨p, g, hp, _, rfl⟩ := h.entries e he
    have hback : entryPosition (-(g.size : Int), -(p : Int)) = p := by
      show (- -(p : Int)).toNat = p
      omega
    omega
  obtain ⟨given, hcheap, htake⟩ := h.cheapest
  have htake' : ((eligible.take (index + 1)).map SampleFile.size : Multiset Nat)
      = f.size ::ₘ (sizesOf heap + given) := by
    rw [htake, List.take_add_one, hf, Option.toList_some, List.map_append, ← Multiset.coe_add,
      Multiset.add_comm]
    rfl
  have hpushed : sizesOf (heappush heap new) = f.size ::ₘ sizesOf heap := by
    rw [sizesOf_perm hperm, sizesOf_cons, hsize]
  have hsum : bytes + f.size = (f.size + (sizesOf heap).sum : Nat) := by
    rw [h.bytes_eq]
    omega
  have hlength : (heappush heap new).length = heap.length + 1 := hperm.length_eq
  rw [evictStep]
  cases hheap : heappush heap new with
  | nil =>
    rw [hheap] at hlength
    cases hlength
  | cons e rest =>
    rw [hheap] at hsorted hentries hnodup hpushed hlength
    dsimp only
    split_ifs with hover
    · -- The budget is exceeded: the first entry has a greatest size, and is given up.
      have hrest : ∀ x ∈ rest, x ∈ e :: rest := fun x hx => List.mem_cons_of_mem e hx
      have hmax : ∀ a ∈ f.size ::ₘ sizesOf heap, a ≤ entrySize e := by
        intro a ha
        rw [← hpushed, sizesOf_cons] at ha
        rcases Multiset.mem_cons.mp ha with rfl | ha
        · exact le_rfl
        · obtain ⟨x, hx, rfl⟩ := List.mem_map.mp (Multiset.mem_coe.mp ha)
          have hle := (List.pairwise_cons.mp hsorted).1 x hx
          unfold entryLE at hle
          unfold entrySize
          omega
      have hexceeded : budget < f.size + (sizesOf heap).sum := by omega
      have hgiven := hcheap.giveUp hexceeded (hpushed ▸ (sizesOf_cons e rest).symm) hmax
      obtain ⟨p, g, _, _, he⟩ := hentries e List.mem_cons_self
      have hesize : (e.1 : Int) = -(entrySize e : Int) := by
        rw [he]
        show -(g.size : Int) = -((- -(g.size : Int)).toNat : Int)
        omega
      have hsplit : entrySize e + (sizesOf rest).sum = f.size + (sizesOf heap).sum := by
        rw [← Multiset.sum_cons, ← Multiset.sum_cons, ← hpushed, sizesOf_cons]
      refine ⟨⟨(List.pairwise_cons.mp hsorted).2, fun x hx => hentries x (hrest x hx),
        (List.nodup_cons.mp hnodup).2, ?_, _, hgiven, ?_⟩, ?_⟩
      · simp only
        omega
      · rw [htake', ← Multiset.cons_add, ← hpushed, sizesOf_cons, Multiset.cons_add,
          Multiset.add_cons]
      · rw [List.length_cons] at hlength
        simp only
        omega
    · have hkept := hcheap.keep (show f.size + (sizesOf heap).sum ≤ budget by omega)
      refine ⟨⟨hsorted, hentries, hnodup, ?_, given, hpushed ▸ hkept, ?_⟩, hlength.le⟩
      · rw [hpushed, Multiset.sum_cons]
        exact hsum
      · rw [htake', hpushed, Multiset.cons_add]

/-- The second pass ends with the wanted number, or behind the last file. -/
theorem HeapFits.evictFrom {eligible : List SampleFile} {budget sampleSize index : Nat}
    {heap : List HeapEntry} {bytes : Int} {fs : List SampleFile}
    (h : HeapFits eligible budget index heap bytes) (hfs : fs = eligible.drop index)
    (hless : heap.length < sampleSize) :
    ∃ last bytes', HeapFits eligible budget last (evictFrom sampleSize budget index heap bytes fs)
        bytes' ∧
      ((evictFrom sampleSize budget index heap bytes fs).length = sampleSize ∨
        (evictFrom sampleSize budget index heap bytes fs).length < sampleSize ∧
          eligible.length ≤ last) := by
  induction fs generalizing index heap bytes with
  | nil =>
    have hend : eligible.length ≤ index := List.drop_eq_nil_iff.mp hfs.symm
    exact ⟨index, bytes, h, Or.inr ⟨hless, hend⟩⟩
  | cons f fs ih =>
    have hf : eligible[index]? = some f := by
      have hhead := congrArg List.head? hfs
      rwa [List.head?_cons, List.head?_drop, eq_comm] at hhead
    have hrest : fs = eligible.drop (index + 1) := by
      have htail := congrArg List.tail hfs
      rwa [List.tail_cons, List.tail_drop] at htail
    obtain ⟨hstep, hlength⟩ := h.step hf
    rw [RcloneSync.evictFrom]
    simp only
    split_ifs with hfull
    · exact ⟨index + 1, _, hstep, Or.inl hfull⟩
    · exact ih hstep hrest (by omega)

/-! ### The selection -/

/-- Rows at ascending places, in their order. -/
theorem sublist_of_places {β : Type} {xs : List β} {places : List Nat}
    (hsorted : places.Pairwise (· < ·)) (hlt : ∀ p ∈ places, p < xs.length) :
    (places.filterMap (xs[·]?)).Sublist xs ∧
      (places.filterMap (xs[·]?)).length = places.length := by
  let is : List (Fin xs.length) := places.pmap Fin.mk hlt
  have hval : is.map Fin.val = places := by
    rw [List.map_pmap]
    exact List.pmap_eq_self.mpr fun p hp => rfl
  have hmap : places.filterMap (xs[·]?) = is.map (xs[·]) := by
    rw [← hval, List.filterMap_map, ← List.filterMap_eq_map]
    refine List.filterMap_congr fun i _ => ?_
    exact List.getElem?_eq_getElem i.isLt
  have hpairwise : is.Pairwise (· < ·) := by
    have hmapped : (is.map Fin.val).Pairwise (· < ·) := hval ▸ hsorted
    exact (List.pairwise_map.mp hmapped).imp fun hij => hij
  rw [hmap]
  refine ⟨List.map_getElem_sublist hpairwise, ?_⟩
  rw [List.length_map, ← hval, List.length_map]

/-- The files of a heap, in their order. -/
theorem HeapFits.selected {eligible : List SampleFile} {budget index : Nat}
    {heap : List HeapEntry} {bytes : Int} (h : HeapFits eligible budget index heap bytes) :
    ((positionsOf heap).filterMap (eligible[·]?)).Sublist eligible ∧
    ((positionsOf heap).filterMap (eligible[·]?)).length = heap.length ∧
    totalSize ((positionsOf heap).filterMap (eligible[·]?)) ≤ budget := by
  have hperm : (positionsOf heap).Perm (heap.map entryPosition) :=
    List.perm_insertionSort (· ≤ ·) _
  have hsorted : (positionsOf heap).Pairwise (· < ·) := by
    have hle : (positionsOf heap).Pairwise (· ≤ ·) := List.pairwise_insertionSort (· ≤ ·) _
    have hne : (positionsOf heap).Pairwise (· ≠ ·) := hperm.nodup_iff.mpr h.nodup
    exact (hle.and hne).imp fun hab => lt_of_le_of_ne hab.1 hab.2
  have hentry : ∀ e ∈ heap, ∃ f, eligible[entryPosition e]? = some f ∧ f.size = entrySize e := by
    intro e he
    obtain ⟨p, f, _, hf, rfl⟩ := h.entries e he
    have hposition : entryPosition (-(f.size : Int), -(p : Int)) = p := by
      show (- -(p : Int)).toNat = p
      omega
    have hsize : entrySize (-(f.size : Int), -(p : Int)) = f.size := by
      show (- -(f.size : Int)).toNat = f.size
      omega
    refine ⟨f, ?_, hsize.symm⟩
    rw [hposition]
    exact hf
  have hlt : ∀ p ∈ positionsOf heap, p < eligible.length := by
    intro p hp
    obtain ⟨e, he, rfl⟩ := List.mem_map.mp (hperm.mem_iff.mp hp)
    obtain ⟨f, hf, _⟩ := hentry e he
    exact (List.getElem?_eq_some_iff.mp hf).1
  obtain ⟨hsub, hlength⟩ := sublist_of_places hsorted hlt
  refine ⟨hsub, ?_, ?_⟩
  · rw [hlength, hperm.length_eq, List.length_map]
  · obtain ⟨given, hcheap, _⟩ := h.cheapest
    have hsum : totalSize ((positionsOf heap).filterMap (eligible[·]?)) = (sizesOf heap).sum := by
      have hfiles := (hperm.filterMap (eligible[·]?)).map SampleFile.size
      rw [totalSize, hfiles.sum_eq, List.filterMap_map, List.map_filterMap]
      have hall :
          heap.filterMap (fun e => ((eligible[·]?) ∘ entryPosition) e |>.map SampleFile.size)
            = heap.map entrySize := by
        rw [← List.filterMap_eq_map]
        refine List.filterMap_congr fun e he => ?_
        obtain ⟨f, hf, hsize⟩ := hentry e he
        show (eligible[entryPosition e]?).map SampleFile.size = some (entrySize e)
        rw [hf, ← hsize]
        rfl
      exact congrArg List.sum hall
    rw [hsum]
    exact hcheap.fits

/-- Numbers of files that a budget pays for. -/
def affordableCounts (budget : Int) (fs : List SampleFile) : Set Nat :=
  {m | ∃ gs : List SampleFile, gs.Sublist fs ∧ (totalSize gs : Int) ≤ budget ∧ gs.length = m}

/-- What the second pass keeps at the end is as much as can be had. -/
theorem HeapFits.isGreatest {eligible : List SampleFile} {budget index : Nat}
    {heap : List HeapEntry} {bytes : Int} (h : HeapFits eligible budget index heap bytes)
    (hend : eligible.length ≤ index) :
    IsGreatest (affordableCounts budget eligible) heap.length := by
  obtain ⟨hsub, hlength, hfit⟩ := h.selected
  refine ⟨⟨_, hsub, Int.ofNat_le.mpr hfit, hlength⟩, ?_⟩
  rintro m ⟨gs, hgs, hsum, rfl⟩
  obtain ⟨given, hcheap, htake⟩ := h.cheapest
  rw [List.take_of_length_le hend] at htake
  have hle : (gs.map SampleFile.size : Multiset Nat) ≤ sizesOf heap + given := by
    rw [htake]
    exact Multiset.coe_le.mpr (hgs.map SampleFile.size).subperm
  have hcard := hcheap.card_le hle (by rw [Multiset.sum_coe]; exact Int.ofNat_le.mp hsum)
  rw [Multiset.coe_card, List.length_map] at hcard
  rwa [sizesOf, Multiset.coe_card, List.length_map] at hcard

/-- There is a greatest number, which the second pass finds when it has no limit. -/
theorem exists_greatest (budget : Nat) (eligible : List SampleFile) :
    ∃ best, IsGreatest (affordableCounts budget eligible) best := by
  have hall : eligible = eligible.drop 0 := rfl
  obtain ⟨last, bytes, hfits, hend⟩ :=
    (heapFits_empty eligible budget).evictFrom hall (Nat.succ_pos eligible.length)
  rcases hend with hfull | ⟨_, hend⟩
  · -- So many files there are not.
    obtain ⟨hsub, hlength, _⟩ := hfits.selected
    have hle := hsub.length_le
    omega
  · exact ⟨_, hfits.isGreatest hend⟩

theorem selectEligible_spec {sampleSize : Nat} (hpos : 0 < sampleSize) (budget : Nat)
    (eligible : List SampleFile) {best : Nat}
    (hbest : IsGreatest (affordableCounts budget eligible) best) :
    (selectEligible sampleSize budget eligible).Sublist eligible ∧
    totalSize (selectEligible sampleSize budget eligible) ≤ budget ∧
    (selectEligible sampleSize budget eligible).length = min sampleSize best ∧
    ((greedyFrom sampleSize budget [] 0 eligible).1.length = min sampleSize best →
      selectEligible sampleSize budget eligible
        = (greedyFrom sampleSize budget [] 0 eligible).1) := by
  have hstart : (0 : Int) = totalSize [] := rfl
  have hall : eligible = eligible.drop 0 := rfl
  obtain ⟨greedy, full, hgreedy, hsub, hfit, hyes, hno⟩ :=
    greedyFrom_spec eligible hstart (Nat.zero_le budget) hpos
  rw [List.nil_append] at hgreedy hfit hyes hno
  have hmost : ∀ gs : List SampleFile, gs.Sublist eligible → totalSize gs ≤ budget →
      gs.length ≤ best := fun gs hgs hsum => hbest.2 ⟨gs, hgs, Int.ofNat_le.mpr hsum, rfl⟩
  rw [selectEligible, hgreedy]
  cases full with
  | true =>
    have hlength := hyes rfl
    have hle := hmost greedy hsub hfit
    exact ⟨hsub, hfit, by simp only [if_true]; omega, fun _ => rfl⟩
  | false =>
    have hless := hno rfl
    obtain ⟨last, bytes, hfits, hend⟩ :=
      (heapFits_empty eligible budget).evictFrom hall hpos
    obtain ⟨hsub', hlength', hfit'⟩ := hfits.selected
    -- The second pass has reached the wanted number or the greatest one.
    have hreached : (evictFrom sampleSize budget 0 [] 0 eligible).length = min sampleSize best := by
      rcases hend with hfull | ⟨hshort, hend⟩
      · have hle := hmost _ hsub' hfit'
        omega
      · have hsame := hbest.unique (hfits.isGreatest hend)
        omega
    have hle := hmost greedy hsub hfit
    simp only [Bool.false_eq_true, if_false]
    split_ifs with hmore
    · exact ⟨hsub, hfit, by omega, fun _ => rfl⟩
    · exact ⟨hsub', hfit', hlength'.trans hreached, fun h => absurd h (by omega)⟩

/-- The greedy choice: in their order the files that still fit, up to the wanted number. -/
def greedyChoice (candidates : List Value) (sampleSize budget : Int) : List SampleFile :=
  (greedyFrom sampleSize.toNat budget [] 0 (validFirsts budget candidates)).1

/-- The files are chosen in their order, cost at most `bytes`, and are `count` or as many as that
pays for; the greedy choice is left as it is where it has so many. -/
def SelectsBest (candidates : List Value) (sampleSize budget count bytes : Int) : Prop :=
  ∃ selected best, selectBudgetedSample candidates (.int sampleSize) (.int budget) = .ok selected ∧
    selected.Sublist (validFirsts budget candidates) ∧ (totalSize selected : Int) ≤ bytes ∧
    IsGreatest (affordableCounts bytes (validFirsts budget candidates)) best ∧
    (selected.length : Int) = min count best ∧
    (((greedyChoice candidates sampleSize budget).length : Int) = min count best →
      selected = greedyChoice candidates sampleSize budget)

/-- **As many files as fit.**  Numbers below zero count as zero. -/
theorem select_as_many_as_fit (candidates : List Value) (sampleSize budget : Int) :
    SelectsBest candidates sampleSize budget (max sampleSize 0) (max budget 0) := by
  have heligible : eligibleFrom budget [] candidates = validFirsts budget candidates := by
    rw [eligibleFrom_eq]
    exact List.filter_eq_self.mpr fun f _ => by simp
  by_cases hnone : sampleSize ≤ 0 ∨ budget < 0
  · obtain ⟨best, hbest⟩ := exists_greatest budget.toNat (validFirsts budget candidates)
    have hmax : (budget.toNat : Int) = max budget 0 := by omega
    rw [hmax] at hbest
    have hzero : min (max sampleSize 0) (best : Int) = 0 := by
      rcases hnone with hn | hb
      · omega
      · -- Nothing is valid under a budget below zero.
        obtain ⟨gs, hgs, _, hlength⟩ := hbest.1
        have hempty : validFirsts budget candidates = [] := by
          refine List.eq_nil_iff_forall_not_mem.mpr fun f hf => ?_
          have hle := size_le_of_mem_validFirsts hf
          omega
        have hle := hgs.length_le
        rw [hempty, List.length_nil] at hle
        omega
    refine ⟨[], best, if_pos hnone, List.nil_sublist _, ?_, hbest, hzero.symm, fun hgreedy => ?_⟩
    · show ((0 : Nat) : Int) ≤ max budget 0
      omega
    · rw [hzero] at hgreedy
      exact (List.eq_nil_of_length_eq_zero (Int.ofNat_eq_zero.mp hgreedy)).symm
  · rw [not_or, not_le, not_lt] at hnone
    obtain ⟨hn, hb⟩ := hnone
    lift budget to Nat using hb with b
    obtain ⟨best, hbest⟩ := exists_greatest b (validFirsts b candidates)
    obtain ⟨hsub, hfit, hlength, hgreedy⟩ :=
      selectEligible_spec (show 0 < sampleSize.toNat by omega) b (validFirsts b candidates) hbest
    have hmaxb : max (b : Int) 0 = b := by omega
    have hcount : (min sampleSize.toNat best : Nat) = min (max sampleSize 0) (best : Int) := by
      omega
    refine ⟨selectEligible sampleSize.toNat b (validFirsts b candidates), best, ?_, hsub, ?_, ?_,
      ?_, fun h => hgreedy ?_⟩
    · rw [selectBudgetedSample, if_neg (by omega), heligible]
    · rw [hmaxb]
      exact Int.ofNat_le.mpr hfit
    · rwa [hmaxb]
    · rw [hlength]
      exact hcount
    · rw [← hcount] at h
      exact Int.ofNat_inj.mp h

/-- No list has fewer than no members. -/
theorem not_selects_below_zero : ¬ SelectsBest [] (-1) 0 (-1) 0 := by
  rintro ⟨selected, best, _, _, _, _, hlength, _⟩
  omega

example : selectBudgetedSample [.list [.str "a", .int 6], .list [.str "b", .int 5],
    .list [.str "b", .int 1], .list [.str "c", .int 4]] (.int 2) (.int 9)
    = .ok [⟨"b", 5⟩, ⟨"c", 4⟩] := by decide +kernel

end RcloneSync
