/-
RcloneSync/SizeFlights.lean

Size measurements that are shared (`_cached_rclone_size`, app/routes/api_storage.py).

A call looks, under the lock, for an entry of the cache and for the in-flight marker of its
key.  A call that finds neither makes a `Future`, registers it, measures, stores a success, sets
the result of the future and takes the marker away; a call that finds a marker waits for the
future behind it.  Each of these is a step of its own, so a run is any interleaving of any calls.

A `Future` is made by at most one call, and is named by it.

`cachedRcloneSize_run`: one measurement per key; an entry of the cache or the outcome of a flight
of the own key whose marker stood while the call was on; nobody waits for a flight that is over;
only complete measurements in the cache, and only so many.  What the marker does not say is that
the measurement still runs: a call that comes between the result and the removal of the marker is
answered with a measurement that was over before it (`cachedRcloneSize_late`).
-/
import Mathlib.Data.List.Nodup
import RcloneSync.Protection
import RcloneSync.Runs
import RcloneSync.SnapshotPruning

namespace RcloneSync

open Py Runs

/-! ### Measurements and their decoration -/

/-- What a call is asked for. -/
structure SizeCall where
  pair : Dict
  side : String
  path : String
  filterArgs : List String
  forceRefresh : Bool
  deadline : Option Time

structure SizeKey where
  historyKey : String
  direction : String
  side : String
  path : String
  filterArgs : List String
  deriving DecidableEq

/-- `_size_cache_key`. -/
def sizeCacheKey (env : GuardEnv) (c : SizeCall) : SizeKey where
  historyKey := rcloneHistoryKey env c.pair
  direction := lower (c.pair.textOr "direction" "")
  side := c.side
  path := c.path
  filterArgs := c.filterArgs

/-- `isinstance(result.get("count"), int) and isinstance(result.get("bytes"), int)`. -/
def hasNumbers (result : Dict) : Bool :=
  (intValue (Dict.get result "count")).isSome && (intValue (Dict.get result "bytes")).isSome

/-- `_is_successful_size`. -/
def isSuccessfulSize (result : Dict) : Bool :=
  !truthy (Dict.get result "error") && hasNumbers result

inductive SizeStatus
  | fresh
  | cached
  | partly
  | stale
  | failed
  deriving DecidableEq

def SizeStatus.text : SizeStatus → String
  | .fresh => "fresh"
  | .cached => "cached"
  | .partly => "partial"
  | .stale => "stale"
  | .failed => "failed"

def SizeStatus.state : SizeStatus → String
  | .fresh | .cached => "loaded"
  | .partly | .failed => "failed"
  | .stale => "stale"

/-- `_decorate_measurement`. -/
def decorateMeasurement (result : Dict) (measuredAt : Option Time) (status : SizeStatus) : Dict :=
  let error := pyOr (Dict.get result "measurement_error") (Dict.get result "error")
  Dict.merge result
    [("measured_at", measuredAt.elim .none timeValue),
     ("measurement_status", .str status.text),
     ("measurement_state", .str status.state),
     ("measurement_error", if truthy error then .str (pyStr error) else .none)]

/-- `clean`: what is kept of a measurement that has succeeded. -/
def cleanSize (path : String) (result : Dict) : Dict :=
  [("path", .str path), ("count", Dict.get result "count"), ("bytes", Dict.get result "bytes")]

/-- `str(result.get("error") or fallback)`. -/
def sizeError (result : Dict) (fallback : String) : Value :=
  .str (pyStr (pyOr (Dict.get result "error") (.str fallback)))

/-- When it was measured, and the clean measurement. -/
abbrev SizeEntry := Time × Dict

/-- `decorated`: what is made of a measurement; `cached` is the entry that the call has found. -/
def decoratedSize (path : String) (cached : Option SizeEntry) (measuredAt : Time)
    (result : Dict) : Dict :=
  if isSuccessfulSize result then
    decorateMeasurement (cleanSize path result) (some measuredAt) .fresh
  else if hasNumbers result then
    decorateMeasurement
      (cleanSize path result ++
        [("measurement_error", sizeError result "Messung nur teilweise erfolgreich")])
      (some measuredAt) .partly
  else
    match cached with
    | some (cachedAt, clean) =>
      Dict.set (decorateMeasurement clean (some cachedAt) .stale) "measurement_error"
        (sizeError result "Messung fehlgeschlagen")
    | none =>
      decorateMeasurement
        [("path", .str path), ("error", sizeError result "Messung fehlgeschlagen")] none .failed

/-! ### The cache -/

/-- `_size_cache`, the entry that was used longest ago first. -/
abbrev SizeCache := List (SizeKey × SizeEntry)

/-- `_size_cache.move_to_end(key)`. -/
def SizeCache.moveToEnd (cache : SizeCache) (key : SizeKey) : SizeCache :=
  cache.filter (fun e => e.1 ≠ key) ++ cache.filter (fun e => e.1 = key)

/-- `_size_cache[key] = entry`. -/
def SizeCache.set (cache : SizeCache) (key : SizeKey) (entry : SizeEntry) : SizeCache :=
  if cache.any fun e => e.1 = key then
    cache.map fun e => if e.1 = key then (key, entry) else e
  else cache ++ [(key, entry)]

/-- `while len(_size_cache) > maximum: _size_cache.popitem(last=False)`. -/
def SizeCache.trim (maximum : Nat) (cache : SizeCache) : SizeCache :=
  cache.drop (cache.length - maximum)

def SizeCache.store (maximum : Nat) (cache : SizeCache) (key : SizeKey) (entry : SizeEntry) :
    SizeCache :=
  SizeCache.trim maximum (SizeCache.moveToEnd (SizeCache.set cache key entry) key)

theorem moveToEnd_perm (cache : SizeCache) (key : SizeKey) :
    (SizeCache.moveToEnd cache key).Perm cache := by
  have hsame : (fun e : SizeKey × SizeEntry => decide (e.1 = key)) =
      fun e => !decide (e.1 ≠ key) := by
    funext e
    by_cases he : e.1 = key <;> simp [he]
  unfold SizeCache.moveToEnd
  rw [hsame]
  exact List.filter_append_perm _ _

theorem mem_cacheSet {cache : SizeCache} {key : SizeKey} {entry : SizeEntry}
    {e : SizeKey × SizeEntry} (h : e ∈ SizeCache.set cache key entry) : e = (key, entry) ∨ e ∈ cache := by
  unfold SizeCache.set at h
  split at h
  · obtain ⟨d, hd, rfl⟩ := List.mem_map.mp h
    split
    · exact .inl rfl
    · exact .inr hd
  · rcases List.mem_append.mp h with h | h
    · exact .inr h
    · exact .inl (List.mem_singleton.mp h)

/-- A dictionary has each key once. -/
theorem nodup_cacheSet {cache : SizeCache} {key : SizeKey} (h : (cache.map Prod.fst).Nodup)
    (entry : SizeEntry) : ((SizeCache.set cache key entry).map Prod.fst).Nodup := by
  unfold SizeCache.set
  split
  · have hkeys : ∀ e : SizeKey × SizeEntry,
        Prod.fst (if e.1 = key then (key, entry) else e) = e.1 := by
      intro e
      split
      · rename_i he
        exact he.symm
      · rfl
    rw [List.map_map, show (Prod.fst ∘ fun e : SizeKey × SizeEntry =>
      if e.1 = key then (key, entry) else e) = Prod.fst from funext hkeys]
    exact h
  · rename_i hnone
    rw [List.map_append, List.map_singleton]
    refine h.append (List.nodup_singleton key) ?_
    rw [List.disjoint_singleton]
    intro hkey
    obtain ⟨e, he, hekey⟩ := List.mem_map.mp hkey
    exact hnone (List.any_eq_true.mpr ⟨e, he, decide_eq_true hekey⟩)

theorem mem_store {maximum : Nat} {cache : SizeCache} {key : SizeKey} {entry : SizeEntry}
    {e : SizeKey × SizeEntry} (h : e ∈ SizeCache.store maximum cache key entry) :
    e = (key, entry) ∨ e ∈ cache :=
  mem_cacheSet ((moveToEnd_perm _ _).mem_iff.mp (List.mem_of_mem_drop h))

theorem length_store_le (maximum : Nat) (cache : SizeCache) (key : SizeKey) (entry : SizeEntry) :
    (SizeCache.store maximum cache key entry).length ≤ maximum := by
  unfold SizeCache.store SizeCache.trim
  rw [List.length_drop]
  omega

theorem nodup_store {maximum : Nat} {cache : SizeCache} {key : SizeKey}
    (h : (cache.map Prod.fst).Nodup) (entry : SizeEntry) :
    ((SizeCache.store maximum cache key entry).map Prod.fst).Nodup := by
  have hmoved : ((SizeCache.moveToEnd (SizeCache.set cache key entry) key).map Prod.fst).Nodup :=
    ((moveToEnd_perm _ _).map Prod.fst).nodup_iff.mpr (nodup_cacheSet h entry)
  exact hmoved.sublist ((List.drop_sublist _ _).map Prod.fst)

/-! ### The steps of a call -/

/-- The limits and the surroundings, and what each call is asked for. -/
structure SizeSetup where
  env : GuardEnv
  cacheTtl : Time
  maxEntries : Nat
  measurementTimeout : Time
  ask : Nat → SizeCall

def SizeSetup.key (c : SizeSetup) (i : Nat) : SizeKey := sizeCacheKey c.env (c.ask i)

def SizeSetup.path (c : SizeSetup) (i : Nat) : String := (c.ask i).path

/-- What `_rclone_size` is called with. -/
structure SizeRequest where
  path : String
  timeout : Option Time
  filterArgs : List String

/-- An exception, or what is answered. -/
abbrev SizeOutcome := Except String Dict

/-- How far a call has come. -/
inductive SizePhase
  | idle
  | called (now : Time)
  | waiting (flight : Nat)
  | leading (cached : Option SizeEntry)
  | measuring (cached : Option SizeEntry) (request : SizeRequest)
  | measured (cached : Option SizeEntry) (result : Dict)
  | storing (clean : Dict) (measuredAt : Time)
  | publishing (outcome : SizeOutcome)
  | releasing (outcome : SizeOutcome)
  | ended (flight : Option Nat) (outcome : SizeOutcome)

/-- What the measurement of a call has come to. -/
inductive SizeMeasurement
  | raised (error : String)
  | done (cached : Option SizeEntry) (measuredAt : Time) (result : Dict)

def SizeMeasurement.outcome (path : String) : SizeMeasurement → SizeOutcome
  | .raised error => .error error
  | .done cached measuredAt result => .ok (decoratedSize path cached measuredAt result)

/-- A call: its point, the result of the future that it has made, and its measurement, which is
kept past its end. -/
structure SizeLocals where
  phase : SizePhase
  future : Option SizeOutcome
  measurement : Option SizeMeasurement

structure SizeState where
  calls : Nat → SizeLocals
  cache : SizeCache
  inflight : SizeKey → Option Nat

def SizeState.init : SizeState := ⟨fun _ => ⟨.idle, none, none⟩, [], fun _ => none⟩

/-- What a call does next, with what it reads of the clock and what its measurement ends with. -/
inductive SizeTurn
  | begin (now : Time)
  | lookup
  | start (monotonic : Time)
  | finish (outcome : SizeOutcome)
  | stamp (now : Time)
  | store
  | publish
  | release
  | join

structure SizeAction where
  caller : Nat
  turn : SizeTurn

namespace SizeState

variable (s : SizeState)

def update (i : Nat) (l : SizeLocals) : SizeState :=
  { s with calls := Function.update s.calls i l }

def goOn (i : Nat) (p : SizePhase) : SizeState := s.update i { s.calls i with phase := p }

/-- The first block under the lock. -/
def lookup (c : SizeSetup) (i : Nat) (now : Time) : SizeState :=
  let cached := s.cache.lookup (c.key i)
  match cached.filter fun entry => !(c.ask i).forceRefresh && now - entry.1 ≤ c.cacheTtl with
  | some entry =>
    { s.goOn i (.ended none (.ok (decorateMeasurement entry.2 (some entry.1) .cached))) with
      cache := SizeCache.moveToEnd s.cache (c.key i) }
  | none =>
    match s.inflight (c.key i) with
    | some flight => s.goOn i (.waiting flight)
    | none =>
      { s.goOn i (.leading cached) with
        inflight := Function.update s.inflight (c.key i) (some i) }

end SizeState

/-- The time that is left, and what is measured; `none` when no time is left. -/
def sizeRequest (c : SizeSetup) (i : Nat) (monotonic : Time) : Option SizeRequest :=
  match (c.ask i).deadline with
  | none => some ⟨c.path i, none, (c.ask i).filterArgs⟩
  | some deadline =>
    if deadline - monotonic ≤ 0 then none
    else some ⟨c.path i, some (min c.measurementTimeout (max 100000 (deadline - monotonic))),
      (c.ask i).filterArgs⟩

/-- The result when no time is left. -/
def overdueSize (path : String) : Dict :=
  [("path", .str path), ("error", .str "Globale Messzeit überschritten")]

/-- The step of a call. -/
def sizeStep (c : SizeSetup) (s : SizeState) (a : SizeAction) : Option SizeState :=
  let i := a.caller
  let l := s.calls i
  match l.phase, a.turn with
  | .idle, .begin now => some (s.goOn i (.called now))
  | .called now, .lookup => some (s.lookup c i now)
  | .leading cached, .start monotonic =>
    some (s.goOn i (match sizeRequest c i monotonic with
      | some request => .measuring cached request
      | none => .measured cached (overdueSize (c.path i))))
  | .measuring _ _, .finish (.error error) =>
    some (s.update i ⟨.publishing (.error error), l.future, some (.raised error)⟩)
  | .measuring cached _, .finish (.ok result) => some (s.goOn i (.measured cached result))
  | .measured cached result, .stamp now =>
    some (s.update i
      ⟨if isSuccessfulSize result then .storing (cleanSize (c.path i) result) now
        else .publishing (.ok (decoratedSize (c.path i) cached now result)),
        l.future, some (.done cached now result)⟩)
  | .storing clean measuredAt, .store =>
    some { s.goOn i (.publishing (.ok (decorateMeasurement clean (some measuredAt) .fresh))) with
      cache := SizeCache.store c.maxEntries s.cache (c.key i) (measuredAt, clean) }
  | .publishing outcome, .publish =>
    some (s.update i ⟨.releasing outcome, some outcome, l.measurement⟩)
  | .releasing outcome, .release =>
    some { s.goOn i (.ended (some i) outcome) with
      inflight := if s.inflight (c.key i) = some i then
          Function.update s.inflight (c.key i) none
        else s.inflight }
  | .waiting flight, .join =>
    (s.calls flight).future.map fun outcome => s.goOn i (.ended (some flight) outcome)
  | _, _ => none

/-! ### What a step changes -/

def SizeLocals.to (l : SizeLocals) (p : SizePhase) : SizeLocals := { l with phase := p }

section Turns

variable (c : SizeSetup) (s : SizeState) (i : Nat)

/-- What a step of a call leaves of it, of the cache and of the markers. -/
inductive Turned : SizeLocals → SizeCache → (SizeKey → Option Nat) → Prop
  | begin (now : Time) (h : (s.calls i).phase = .idle) :
      Turned ((s.calls i).to (.called now)) s.cache s.inflight
  | hit (now : Time) (entry : SizeEntry) (h : (s.calls i).phase = .called now)
      (hentry : s.cache.lookup (c.key i) = some entry) (hforce : (c.ask i).forceRefresh = false)
      (hage : now - entry.1 ≤ c.cacheTtl) :
      Turned ((s.calls i).to
          (.ended none (.ok (decorateMeasurement entry.2 (some entry.1) .cached))))
        (SizeCache.moveToEnd s.cache (c.key i)) s.inflight
  | follow (now : Time) (flight : Nat) (h : (s.calls i).phase = .called now)
      (hmarker : s.inflight (c.key i) = some flight) :
      Turned ((s.calls i).to (.waiting flight)) s.cache s.inflight
  | lead (now : Time) (h : (s.calls i).phase = .called now)
      (hmarker : s.inflight (c.key i) = none) :
      Turned ((s.calls i).to (.leading (s.cache.lookup (c.key i)))) s.cache
        (Function.update s.inflight (c.key i) (some i))
  | start (cached : Option SizeEntry) (request : SizeRequest)
      (h : (s.calls i).phase = .leading cached) (hpath : request.path = c.path i)
      (hargs : request.filterArgs = (c.ask i).filterArgs) :
      Turned ((s.calls i).to (.measuring cached request)) s.cache s.inflight
  | overdue (cached : Option SizeEntry) (h : (s.calls i).phase = .leading cached) :
      Turned ((s.calls i).to (.measured cached (overdueSize (c.path i)))) s.cache s.inflight
  | raise (cached : Option SizeEntry) (request : SizeRequest) (error : String)
      (h : (s.calls i).phase = .measuring cached request) :
      Turned ⟨.publishing (.error error), (s.calls i).future, some (.raised error)⟩ s.cache
        s.inflight
  | finish (cached : Option SizeEntry) (request : SizeRequest) (result : Dict)
      (h : (s.calls i).phase = .measuring cached request) :
      Turned ((s.calls i).to (.measured cached result)) s.cache s.inflight
  | succeed (cached : Option SizeEntry) (result : Dict) (now : Time)
      (h : (s.calls i).phase = .measured cached result) (hsize : isSuccessfulSize result = true) :
      Turned ⟨.storing (cleanSize (c.path i) result) now, (s.calls i).future,
        some (.done cached now result)⟩ s.cache s.inflight
  | fail (cached : Option SizeEntry) (result : Dict) (now : Time)
      (h : (s.calls i).phase = .measured cached result) :
      Turned ⟨.publishing (.ok (decoratedSize (c.path i) cached now result)), (s.calls i).future,
        some (.done cached now result)⟩ s.cache s.inflight
  | store (clean : Dict) (measuredAt : Time) (h : (s.calls i).phase = .storing clean measuredAt) :
      Turned ((s.calls i).to
          (.publishing (.ok (decorateMeasurement clean (some measuredAt) .fresh))))
        (SizeCache.store c.maxEntries s.cache (c.key i) (measuredAt, clean)) s.inflight
  | publish (outcome : SizeOutcome) (h : (s.calls i).phase = .publishing outcome) :
      Turned ⟨.releasing outcome, some outcome, (s.calls i).measurement⟩ s.cache s.inflight
  | release (outcome : SizeOutcome) (h : (s.calls i).phase = .releasing outcome) :
      Turned ((s.calls i).to (.ended (some i) outcome)) s.cache
        (if s.inflight (c.key i) = some i then Function.update s.inflight (c.key i) none
          else s.inflight)
  | join (flight : Nat) (outcome : SizeOutcome) (h : (s.calls i).phase = .waiting flight)
      (hfuture : (s.calls flight).future = some outcome) :
      Turned ((s.calls i).to (.ended (some flight) outcome)) s.cache s.inflight

end Turns

variable {c : SizeSetup} {s t : SizeState}

theorem turned_lookup {i : Nat} {now : Time} (h : (s.calls i).phase = .called now) :
    ∃ l cache inflight, Turned c s i l cache inflight ∧
      s.lookup c i now = ⟨Function.update s.calls i l, cache, inflight⟩ := by
  unfold SizeState.lookup
  dsimp only
  cases hhit : (s.cache.lookup (c.key i)).filter fun entry =>
      !(c.ask i).forceRefresh && now - entry.1 ≤ c.cacheTtl with
  | some entry =>
    obtain ⟨hentry, hfresh⟩ := Option.filter_eq_some_iff.mp hhit
    obtain ⟨hforce, hage⟩ := (Bool.and_eq_true _ _).mp hfresh
    exact ⟨_, _, _, .hit now entry h hentry (Bool.not_eq_true' _ ▸ hforce)
      (of_decide_eq_true hage), rfl⟩
  | none =>
    cases hmarker : s.inflight (c.key i) with
    | some flight => exact ⟨_, _, _, .follow now flight h hmarker, rfl⟩
    | none => exact ⟨_, _, _, .lead now h hmarker, rfl⟩

theorem turned_start {i : Nat} {cached : Option SizeEntry} (monotonic : Time)
    (h : (s.calls i).phase = .leading cached) :
    ∃ l, Turned c s i l s.cache s.inflight ∧ s.goOn i (match sizeRequest c i monotonic with
      | some request => .measuring cached request
      | none => .measured cached (overdueSize (c.path i))) =
      ⟨Function.update s.calls i l, s.cache, s.inflight⟩ := by
  cases hrequest : sizeRequest c i monotonic with
  | none => exact ⟨_, .overdue cached h, rfl⟩
  | some request =>
    have hsame : request.path = c.path i ∧ request.filterArgs = (c.ask i).filterArgs := by
      unfold sizeRequest at hrequest
      split at hrequest
      · cases hrequest
        exact ⟨rfl, rfl⟩
      · obtain ⟨-, hrequest⟩ := Option.ite_none_left_eq_some.mp hrequest
        cases hrequest
        exact ⟨rfl, rfl⟩
    exact ⟨_, .start cached request h hsame.1 hsame.2, rfl⟩

/-- Everything that a step can do. -/
theorem turned_of_step {a : SizeAction} (h : sizeStep c s a = some t) :
    ∃ l cache inflight, Turned c s a.caller l cache inflight ∧
      t = ⟨Function.update s.calls a.caller l, cache, inflight⟩ := by
  unfold sizeStep at h
  dsimp only at h
  split at h
  · rename_i now hphase _
    obtain rfl := Option.some.inj h
    exact ⟨_, _, _, .begin now hphase, rfl⟩
  · rename_i now hphase _
    obtain rfl := Option.some.inj h
    exact turned_lookup hphase
  · rename_i cached monotonic hphase _
    obtain rfl := Option.some.inj h
    obtain ⟨l, hturned, hl⟩ := turned_start monotonic hphase
    exact ⟨l, _, _, hturned, hl⟩
  · rename_i cached request error hphase _
    obtain rfl := Option.some.inj h
    exact ⟨_, _, _, .raise cached request error hphase, rfl⟩
  · rename_i cached request result hphase _
    obtain rfl := Option.some.inj h
    exact ⟨_, _, _, .finish cached request result hphase, rfl⟩
  · rename_i cached result now hphase _
    obtain rfl := Option.some.inj h
    by_cases hsize : isSuccessfulSize result = true
    · rw [if_pos hsize]
      exact ⟨_, _, _, .succeed cached result now hphase hsize, rfl⟩
    · rw [if_neg hsize]
      exact ⟨_, _, _, .fail cached result now hphase, rfl⟩
  · rename_i clean measuredAt hphase _
    obtain rfl := Option.some.inj h
    exact ⟨_, _, _, .store clean measuredAt hphase, rfl⟩
  · rename_i outcome hphase _
    obtain rfl := Option.some.inj h
    exact ⟨_, _, _, .publish outcome hphase, rfl⟩
  · rename_i outcome hphase _
    obtain rfl := Option.some.inj h
    exact ⟨_, _, _, .release outcome hphase, rfl⟩
  · rename_i flight hphase _
    obtain ⟨outcome, hfuture, rfl⟩ := Option.map_eq_some_iff.mp h
    exact ⟨_, _, _, .join flight outcome hphase hfuture, rfl⟩
  · cases h

/-! ### The markers -/

/-- The call is between the registration of its future and the removal of the marker. -/
def SizePhase.leads : SizePhase → Bool
  | .leading _ | .measuring .. | .measured .. | .storing .. | .publishing _ | .releasing _ => true
  | .idle | .called _ | .waiting _ | .ended .. => false

/-- The markers that stand are those of the calls that lead. -/
def Marked (c : SizeSetup) (s : SizeState) : Prop :=
  ∀ key i, s.inflight key = some i ↔ c.key i = key ∧ (s.calls i).phase.leads = true

theorem update_leads {calls : Nat → SizeLocals} {i : Nat} {l : SizeLocals}
    (h : l.phase.leads = (calls i).phase.leads) (j : Nat) :
    (Function.update calls i l j).phase.leads = (calls j).phase.leads := by
  rcases eq_or_ne j i with rfl | hj
  · rw [Function.update_self]
    exact h
  · rw [Function.update_of_ne hj]

theorem Marked.keep {i : Nat} {l : SizeLocals} {cache : SizeCache} (h : Marked c s)
    (hl : l.phase.leads = (s.calls i).phase.leads) :
    Marked c ⟨Function.update s.calls i l, cache, s.inflight⟩ := fun key j => by
  rw [update_leads hl]
  exact h key j

theorem Marked.step {a : SizeAction} (h : Marked c s) (ht : sizeStep c s a = some t) :
    Marked c t := by
  obtain ⟨l, cache, inflight, hturned, rfl⟩ := turned_of_step ht
  cases hturned with
  | lead now hphase hmarker =>
    intro key j
    dsimp only
    rcases eq_or_ne key (c.key a.caller) with rfl | hkey
    · rw [Function.update_self]
      constructor
      · intro hj
        obtain rfl := Option.some.inj hj
        exact ⟨rfl, by rw [Function.update_self]; rfl⟩
      · rintro ⟨hj, hleads⟩
        rcases eq_or_ne j a.caller with rfl | hne
        · rfl
        · rw [Function.update_of_ne hne] at hleads
          exact absurd ((h _ j).mpr ⟨hj, hleads⟩) (by rw [hmarker]; simp)
    · rw [Function.update_of_ne hkey, h key j]
      refine and_congr_right fun hj => ?_
      have hne : j ≠ a.caller := fun hja => hkey (by rw [← hj, hja])
      rw [Function.update_of_ne hne]
  | release outcome hphase =>
    have hown : s.inflight (c.key a.caller) = some a.caller :=
      (h _ _).mpr ⟨rfl, by rw [hphase]; rfl⟩
    intro key j
    dsimp only
    rw [if_pos hown]
    rcases eq_or_ne j a.caller with rfl | hne
    · rw [Function.update_self]
      constructor
      · intro hj
        rcases eq_or_ne key (c.key a.caller) with rfl | hkey
        · rw [Function.update_self] at hj
          cases hj
        · rw [Function.update_of_ne hkey] at hj
          exact absurd ((h key _).mp hj).1 (Ne.symm hkey)
      · exact fun hj => absurd hj.2 Bool.false_ne_true
    · rw [Function.update_of_ne hne, ← h key j]
      rcases eq_or_ne key (c.key a.caller) with rfl | hkey
      · rw [Function.update_self, hown]
        exact ⟨fun hj => absurd hj (by simp), fun hj => absurd (Option.some.inj hj).symm hne⟩
      · rw [Function.update_of_ne hkey]
  | begin _ hphase | hit _ _ hphase | follow _ _ hphase | start _ _ hphase | overdue _ hphase
  | raise _ _ _ hphase | finish _ _ _ hphase | succeed _ _ _ hphase | fail _ _ _ hphase
  | store _ _ hphase | publish _ hphase | join _ _ hphase =>
    exact h.keep (by rw [hphase]; rfl)

/-! ### What the calls hold -/

/-- The entry is a measurement of a call with this key that has succeeded, whole. -/
def Whole (c : SizeSetup) (s : SizeState) (key : SizeKey) (entry : SizeEntry) : Prop :=
  ∃ i cached result, c.key i = key ∧ (s.calls i).measurement = some (.done cached entry.1 result) ∧
    isSuccessfulSize result = true ∧ entry.2 = cleanSize (c.path i) result

/-- What a call holds at each point. -/
def Holds (c : SizeSetup) (s : SizeState) (i : Nat) (l : SizeLocals) : Prop :=
  match l.phase with
  | .idle | .called _ => l.future = none ∧ l.measurement = none
  | .waiting flight => c.key flight = c.key i ∧
      ((s.calls flight).phase.leads = true ∨ (s.calls flight).future.isSome = true)
  | .leading cached | .measured cached _ => (l.future = none ∧ l.measurement = none) ∧
      ∀ entry, cached = some entry → Whole c s (c.key i) entry
  | .measuring cached request => ((l.future = none ∧ l.measurement = none) ∧
      ∀ entry, cached = some entry → Whole c s (c.key i) entry) ∧
      request.path = c.path i ∧ request.filterArgs = (c.ask i).filterArgs
  | .storing clean measuredAt => l.future = none ∧ ∃ cached result,
      l.measurement = some (.done cached measuredAt result) ∧ isSuccessfulSize result = true ∧
      clean = cleanSize (c.path i) result
  | .publishing outcome => l.future = none ∧
      ∃ m, l.measurement = some m ∧ outcome = m.outcome (c.path i)
  | .releasing outcome => l.future = some outcome
  | .ended none outcome => ∃ entry, Whole c s (c.key i) entry ∧
      outcome = .ok (decorateMeasurement entry.2 (some entry.1) .cached)
  | .ended (some flight) outcome =>
    c.key flight = c.key i ∧ (s.calls flight).future = some outcome

/-- What holds in every state of a run. -/
structure SizeInv (c : SizeSetup) (s : SizeState) : Prop where
  marked : Marked c s
  holds : ∀ i, Holds c s i (s.calls i)
  answered : ∀ i outcome, (s.calls i).future = some outcome →
    ∃ m, (s.calls i).measurement = some m ∧ outcome = m.outcome (c.path i)
  found : ∀ i entry measuredAt result,
    (s.calls i).measurement = some (.done (some entry) measuredAt result) →
    Whole c s (c.key i) entry
  whole : ∀ e ∈ s.cache, Whole c s e.1 e.2
  bounded : s.cache.length ≤ c.maxEntries
  distinct : (s.cache.map Prod.fst).Nodup

/-- Futures and measurements stay, and a call that leads has set its future when it is over. -/
structure Grows (s t : SizeState) : Prop where
  future : ∀ i outcome, (s.calls i).future = some outcome → (t.calls i).future = some outcome
  measurement : ∀ i m, (s.calls i).measurement = some m → (t.calls i).measurement = some m
  leads : ∀ i, (s.calls i).phase.leads = true →
    (t.calls i).phase.leads = true ∨ (t.calls i).future.isSome = true

theorem Grows.whole (h : Grows s t) {key : SizeKey} {entry : SizeEntry}
    (hentry : Whole c s key entry) : Whole c t key entry := by
  obtain ⟨i, cached, result, hkey, hm, hsize, hclean⟩ := hentry
  exact ⟨i, cached, result, hkey, h.measurement i _ hm, hsize, hclean⟩

theorem Grows.holds (h : Grows s t) {i : Nat} {l : SizeLocals} (hl : Holds c s i l) :
    Holds c t i l := by
  unfold Holds at hl ⊢
  cases hphase : l.phase with
  | waiting flight =>
    rw [hphase] at hl
    refine ⟨hl.1, ?_⟩
    rcases hl.2 with hleads | hfuture
    · exact h.leads flight hleads
    · obtain ⟨outcome, hfuture⟩ := Option.isSome_iff_exists.mp hfuture
      rw [h.future flight outcome hfuture]
      exact .inr rfl
  | leading | measured =>
    rw [hphase] at hl
    exact ⟨hl.1, fun entry hentry => h.whole (hl.2 entry hentry)⟩
  | measuring =>
    rw [hphase] at hl
    exact ⟨⟨hl.1.1, fun entry hentry => h.whole (hl.1.2 entry hentry)⟩, hl.2⟩
  | ended flight outcome =>
    rw [hphase] at hl
    cases flight with
    | none =>
      obtain ⟨entry, hentry, hout⟩ := hl
      exact ⟨entry, h.whole hentry, hout⟩
    | some flight => exact ⟨hl.1, h.future flight outcome hl.2⟩
  | idle | called | storing | publishing | releasing =>
    rw [hphase] at hl
    exact hl

/-- A step changes one call. -/
theorem Grows.update {i : Nat} {l : SizeLocals} {cache : SizeCache}
    {inflight : SizeKey → Option Nat}
    (hfuture : ∀ outcome, (s.calls i).future = some outcome → l.future = some outcome)
    (hmeasurement : ∀ m, (s.calls i).measurement = some m → l.measurement = some m)
    (hleads : (s.calls i).phase.leads = true →
      l.phase.leads = true ∨ l.future.isSome = true) :
    Grows s ⟨Function.update s.calls i l, cache, inflight⟩ := by
  refine ⟨fun j outcome hj => ?_, fun j m hj => ?_, fun j hj => ?_⟩
  · show (Function.update s.calls i l j).future = some outcome
    rcases eq_or_ne j i with rfl | hne
    · rw [Function.update_self]
      exact hfuture outcome hj
    · rwa [Function.update_of_ne hne]
  · show (Function.update s.calls i l j).measurement = some m
    rcases eq_or_ne j i with rfl | hne
    · rw [Function.update_self]
      exact hmeasurement m hj
    · rwa [Function.update_of_ne hne]
  · show (Function.update s.calls i l j).phase.leads = true ∨
      (Function.update s.calls i l j).future.isSome = true
    rcases eq_or_ne j i with rfl | hne
    · rw [Function.update_self]
      exact hleads hj
    · rw [Function.update_of_ne hne]
      exact .inl hj

/-- What a call holds, where its point is known. -/
theorem Holds.at_phase {i : Nat} {l : SizeLocals} {p : SizePhase} (h : Holds c s i l)
    (hp : l.phase = p) : Holds c s i ⟨p, l.future, l.measurement⟩ := by
  rw [← hp]
  exact h

theorem SizeInv.grows {a : SizeAction} (h : SizeInv c s) (ht : sizeStep c s a = some t) :
    Grows s t := by
  obtain ⟨l, cache, inflight, hturned, rfl⟩ := turned_of_step ht
  have hholds : Holds c s a.caller (s.calls a.caller) := h.holds a.caller
  cases hturned with
  | raise cached request error hphase =>
    obtain ⟨⟨⟨-, hnone⟩, -⟩, -⟩ := hholds.at_phase hphase
    exact .update (fun _ => id) (fun m hm => by cases hnone.symm.trans hm) fun _ => .inl rfl
  | succeed cached result now hphase | fail cached result now hphase =>
    obtain ⟨⟨-, hnone⟩, -⟩ := hholds.at_phase hphase
    exact .update (fun _ => id) (fun m hm => by cases hnone.symm.trans hm) fun _ => .inl rfl
  | publish outcome hphase =>
    obtain ⟨hnone, -⟩ := hholds.at_phase hphase
    exact .update (fun _ ho => by cases hnone.symm.trans ho) (fun _ => id) fun _ => .inl rfl
  | release outcome hphase =>
    have hfuture : (s.calls a.caller).future = some outcome := hholds.at_phase hphase
    exact .update (fun _ => id) (fun _ => id) fun _ => .inr (Option.isSome_of_mem hfuture)
  | begin _ hphase | hit _ _ hphase | follow _ _ hphase | join _ _ hphase =>
    exact .update (fun _ => id) (fun _ => id) fun hleads => by
      rw [hphase] at hleads
      exact absurd hleads Bool.false_ne_true
  | lead | start | overdue | finish | store =>
    exact .update (fun _ => id) (fun _ => id) fun _ => .inl rfl

theorem decoratedSize_success {result : Dict} (h : isSuccessfulSize result = true) (path : String)
    (cached : Option SizeEntry) (measuredAt : Time) :
    decoratedSize path cached measuredAt result =
      decorateMeasurement (cleanSize path result) (some measuredAt) .fresh := if_pos h

theorem SizeInv.whole_lookup (h : SizeInv c s) {key : SizeKey} {entry : SizeEntry}
    (hentry : s.cache.lookup key = some entry) : Whole c s key entry :=
  h.whole _ (mem_of_lookup hentry)

/-- What the call that has made a step holds then. -/
theorem SizeInv.holds_turned (h : SizeInv c s) {i : Nat} {l : SizeLocals} {cache : SizeCache}
    {inflight : SizeKey → Option Nat} (hturned : Turned c s i l cache inflight)
    (hgrows : Grows s t) : Holds c t i l := by
  have hholds : Holds c s i (s.calls i) := h.holds i
  cases hturned with
  | begin now hphase => exact hholds.at_phase hphase
  | hit now entry hphase hentry => exact ⟨entry, hgrows.whole (h.whole_lookup hentry), rfl⟩
  | follow now flight hphase hmarker =>
    obtain ⟨hkey, hleads⟩ := (h.marked _ _).mp hmarker
    exact ⟨hkey, hgrows.leads flight hleads⟩
  | lead now hphase hmarker =>
    exact ⟨hholds.at_phase hphase, fun entry hentry => hgrows.whole (h.whole_lookup hentry)⟩
  | start cached request hphase hpath hargs =>
    obtain ⟨hnone, hcached⟩ := hholds.at_phase hphase
    exact ⟨⟨hnone, fun entry hentry => hgrows.whole (hcached entry hentry)⟩, hpath, hargs⟩
  | overdue cached hphase =>
    obtain ⟨hnone, hcached⟩ := hholds.at_phase hphase
    exact ⟨hnone, fun entry hentry => hgrows.whole (hcached entry hentry)⟩
  | finish cached request result hphase =>
    obtain ⟨⟨hnone, hcached⟩, -⟩ := hholds.at_phase hphase
    exact ⟨hnone, fun entry hentry => hgrows.whole (hcached entry hentry)⟩
  | raise cached request error hphase =>
    obtain ⟨⟨⟨hnone, -⟩, -⟩, -⟩ := hholds.at_phase hphase
    exact ⟨hnone, _, rfl, rfl⟩
  | succeed cached result now hphase hsize =>
    obtain ⟨⟨hnone, -⟩, -⟩ := hholds.at_phase hphase
    exact ⟨hnone, cached, result, rfl, hsize, rfl⟩
  | fail cached result now hphase =>
    obtain ⟨⟨hnone, -⟩, -⟩ := hholds.at_phase hphase
    exact ⟨hnone, _, rfl, rfl⟩
  | store clean measuredAt hphase =>
    obtain ⟨hnone, cached, result, hm, hsize, rfl⟩ := hholds.at_phase hphase
    refine ⟨hnone, _, hm, ?_⟩
    exact congrArg Except.ok (decoratedSize_success hsize _ cached measuredAt).symm
  | publish outcome hphase => exact rfl
  | release outcome hphase => exact ⟨rfl, hgrows.future i outcome (hholds.at_phase hphase)⟩
  | join flight outcome hphase hfuture =>
    exact ⟨(hholds.at_phase hphase).1, hgrows.future flight outcome hfuture⟩

/-- The future of the call that has made a step is set to what its measurement comes to. -/
theorem SizeInv.answered_turned (h : SizeInv c s) {i : Nat} {l : SizeLocals} {cache : SizeCache}
    {inflight : SizeKey → Option Nat} (hturned : Turned c s i l cache inflight)
    {outcome : SizeOutcome} (hout : l.future = some outcome) :
    ∃ m, l.measurement = some m ∧ outcome = m.outcome (c.path i) := by
  have hholds : Holds c s i (s.calls i) := h.holds i
  cases hturned with
  | raise cached request error hphase =>
    obtain ⟨⟨⟨hnone, -⟩, -⟩, -⟩ := hholds.at_phase hphase
    cases hnone.symm.trans hout
  | succeed cached result now hphase | fail cached result now hphase =>
    obtain ⟨⟨hnone, -⟩, -⟩ := hholds.at_phase hphase
    cases hnone.symm.trans hout
  | publish outcome' hphase =>
    obtain rfl := Option.some.inj hout
    exact (hholds.at_phase hphase).2
  | begin | hit | follow | lead | start | overdue | finish | store | release | join =>
    exact h.answered i outcome hout

/-- The entry that a measurement falls back to was whole. -/
theorem SizeInv.found_turned (h : SizeInv c s) {i : Nat} {l : SizeLocals} {cache : SizeCache}
    {inflight : SizeKey → Option Nat} (hturned : Turned c s i l cache inflight)
    {entry : SizeEntry} {measuredAt : Time} {result : Dict}
    (hm : l.measurement = some (.done (some entry) measuredAt result)) :
    Whole c s (c.key i) entry := by
  have hholds : Holds c s i (s.calls i) := h.holds i
  cases hturned with
  | raise cached request error hphase => cases hm
  | succeed cached result' now hphase | fail cached result' now hphase =>
    cases hm
    exact (hholds.at_phase hphase).2 entry rfl
  | publish outcome hphase => exact h.found i entry measuredAt result hm
  | begin | hit | follow | lead | start | overdue | finish | store | release | join =>
    exact h.found i entry measuredAt result hm

theorem SizeInv.cache_turned (h : SizeInv c s) {i : Nat} {l : SizeLocals} {cache : SizeCache}
    {inflight : SizeKey → Option Nat} (hturned : Turned c s i l cache inflight) :
    (∀ e ∈ cache, Whole c s e.1 e.2) ∧ cache.length ≤ c.maxEntries ∧
      (cache.map Prod.fst).Nodup := by
  cases hturned with
  | hit now entry hphase =>
    have hperm := moveToEnd_perm s.cache (c.key i)
    exact ⟨fun e he => h.whole e (hperm.mem_iff.mp he), hperm.length_eq ▸ h.bounded,
      (hperm.map Prod.fst).nodup_iff.mpr h.distinct⟩
  | store clean measuredAt hphase =>
    obtain ⟨-, cached, result, hm, hsize, rfl⟩ := (h.holds i).at_phase hphase
    refine ⟨fun e he => ?_, length_store_le _ _ _ _, nodup_store h.distinct _⟩
    rcases mem_store he with rfl | he
    · exact ⟨i, cached, result, rfl, hm, hsize, rfl⟩
    · exact h.whole e he
  | begin | follow | lead | start | overdue | raise | finish | succeed | fail | publish | release
  | join => exact ⟨h.whole, h.bounded, h.distinct⟩

/-- **The step.** -/
theorem SizeInv.step {a : SizeAction} (h : SizeInv c s) (ht : sizeStep c s a = some t) :
    SizeInv c t := by
  have hgrows : Grows s t := h.grows ht
  have hmarked : Marked c t := h.marked.step ht
  obtain ⟨l, cache, inflight, hturned, rfl⟩ := turned_of_step ht
  obtain ⟨hwhole, hbounded, hdistinct⟩ := h.cache_turned hturned
  refine ⟨hmarked, fun j => ?_, fun j outcome hout => ?_, fun j entry measuredAt result hm => ?_,
    fun e he => hgrows.whole (hwhole e he), hbounded, hdistinct⟩
  · dsimp only
    rcases eq_or_ne j a.caller with rfl | hne
    · rw [Function.update_self]
      exact h.holds_turned hturned hgrows
    · rw [Function.update_of_ne hne]
      exact hgrows.holds (h.holds j)
  · revert hout
    dsimp only
    rcases eq_or_ne j a.caller with rfl | hne
    · rw [Function.update_self]
      exact h.answered_turned hturned
    · rw [Function.update_of_ne hne]
      exact h.answered j outcome
  · refine hgrows.whole ?_
    revert hm
    dsimp only
    rcases eq_or_ne j a.caller with rfl | hne
    · rw [Function.update_self]
      exact h.found_turned hturned
    · rw [Function.update_of_ne hne]
      exact h.found j entry measuredAt result

theorem sizeInv_init (c : SizeSetup) : SizeInv c .init where
  marked _ _ := ⟨fun h => (by cases h), fun h => absurd h.2 Bool.false_ne_true⟩
  holds _ := ⟨rfl, rfl⟩
  answered _ _ h := by cases h
  found _ _ _ _ h := by cases h
  whole _ h := (List.not_mem_nil h).elim
  bounded := Nat.zero_le _
  distinct := List.nodup_nil

theorem SizeInv.run {as : List SizeAction} (h : SizeInv c s)
    (hrun : Run (Steps (sizeStep c)) s as t) : SizeInv c t :=
  hrun.preserves (SizeInv c) (fun _ _ _ h hstep => h.step hstep) h

theorem SizeInv.grows_run {as : List SizeAction} (h : SizeInv c s)
    (hrun : Run (Steps (sizeStep c)) s as t) (i : Nat) {outcome : SizeOutcome}
    (hout : (s.calls i).future = some outcome) : (t.calls i).future = some outcome := by
  induction hrun with
  | nil s => exact hout
  | cons hstep _ ih => exact ih (h.step hstep) ((h.grows hstep).future i outcome hout)

/-! ### The end of a call -/

/-- The most steps that a call takes yet. -/
def SizePhase.rank : SizePhase → Nat
  | .idle => 8
  | .called _ => 7
  | .leading _ => 6
  | .measuring .. => 5
  | .measured .. => 4
  | .storing .. => 3
  | .publishing _ => 2
  | .releasing _ | .waiting _ => 1
  | .ended .. => 0

/-- The call has begun and has not ended. -/
def SizePhase.active : SizePhase → Bool
  | .idle | .ended .. => false
  | _ => true

/-- Each step of a call brings it nearer to its end, and no step of another one changes that. -/
theorem rank_step {a : SizeAction} (ht : sizeStep c s a = some t) (i : Nat) :
    (t.calls i).phase.rank + (if a.caller = i then 1 else 0) ≤ (s.calls i).phase.rank := by
  obtain ⟨l, cache, inflight, hturned, rfl⟩ := turned_of_step ht
  dsimp only
  rcases eq_or_ne i a.caller with rfl | hne
  · rw [Function.update_self, if_pos rfl]
    cases hturned with
    | begin _ hphase | hit _ _ hphase | follow _ _ hphase | lead _ hphase | start _ _ hphase
    | overdue _ hphase | raise _ _ _ hphase | finish _ _ _ hphase | succeed _ _ _ hphase
    | fail _ _ _ hphase | store _ _ hphase | publish _ hphase | release _ hphase
    | join _ _ hphase =>
      rw [hphase]
      exact Nat.le_of_ble_eq_true rfl
  · rw [Function.update_of_ne hne, if_neg (Ne.symm hne), Nat.add_zero]

theorem rank_run {as : List SizeAction} (hrun : Run (Steps (sizeStep c)) s as t) (i : Nat) :
    (t.calls i).phase.rank + as.countP (fun a => a.caller = i) ≤ (s.calls i).phase.rank := by
  induction hrun with
  | nil s => exact le_rfl
  | cons hstep _ ih =>
    have hfirst := rank_step hstep i
    rw [List.countP_cons]
    simp only [decide_eq_true_eq]
    omega

theorem ended_of_rank_zero {p : SizePhase} (h : p.rank = 0) :
    ∃ flight outcome, p = .ended flight outcome := by
  cases p with
  | ended flight outcome => exact ⟨flight, outcome, rfl⟩
  | _ => cases h

theorem SizeInv.leads_run {as : List SizeAction} (h : SizeInv c s)
    (hrun : Run (Steps (sizeStep c)) s as t) {j : Nat}
    (hj : (s.calls j).phase.leads = true ∨ (s.calls j).future.isSome = true) :
    (t.calls j).phase.leads = true ∨ (t.calls j).future.isSome = true := by
  induction hrun with
  | nil s => exact hj
  | cons hstep _ ih =>
    have hgrows := h.grows hstep
    refine ih (h.step hstep) ?_
    rcases hj with hj | hj
    · exact hgrows.leads j hj
    · obtain ⟨outcome, hj⟩ := Option.isSome_iff_exists.mp hj
      rw [hgrows.future j outcome hj]
      exact .inr rfl

theorem rank_le_of_leads {p : SizePhase} (h : p.leads = true) : p.rank ≤ 6 := by
  cases p with
  | idle | called | waiting | ended => cases h
  | _ => exact Nat.le_of_ble_eq_true rfl

theorem releasing_of_rank {p : SizePhase} (h : p.leads = true) (hrank : p.rank ≤ 1) :
    ∃ outcome, p = .releasing outcome := by
  cases p with
  | releasing outcome => exact ⟨outcome, rfl⟩
  | idle | called | waiting | ended => cases h
  | _ => exact absurd hrank (Nat.not_le_of_gt (Nat.le_of_ble_eq_true rfl))

/-- A flight is over when its call has made five steps. -/
theorem SizeInv.published (h : SizeInv c s) {as : List SizeAction}
    (hrun : Run (Steps (sizeStep c)) s as t) {j : Nat}
    (hj : (s.calls j).phase.leads = true ∨ (s.calls j).future.isSome = true)
    (hcount : 5 ≤ as.countP fun a => a.caller = j) : (t.calls j).future.isSome = true := by
  rcases hj with hleads | hfuture
  · rcases h.leads_run hrun (.inl hleads) with hleads' | hfuture
    · have hrank := rank_run hrun j
      have hle : (s.calls j).phase.rank ≤ 6 := rank_le_of_leads hleads
      obtain ⟨outcome, hphase⟩ := releasing_of_rank hleads' (by omega)
      exact Option.isSome_of_mem (((h.run hrun).holds j).at_phase hphase)
    · exact hfuture
  · obtain ⟨outcome, hfuture⟩ := Option.isSome_iff_exists.mp hfuture
    exact Option.isSome_of_mem (h.grows_run hrun j hfuture)

/-- A call that has begun, does not wait and has not ended can go on. -/
theorem can_go_on {i : Nat} (hactive : (s.calls i).phase.active = true)
    (hwaits : ∀ j, (s.calls i).phase ≠ .waiting j) :
    ∃ turn, (sizeStep c s ⟨i, turn⟩).isSome = true := by
  cases hphase : (s.calls i).phase with
  | idle | ended =>
    rw [hphase] at hactive
    cases hactive
  | waiting j => exact absurd hphase (hwaits j)
  | called now => exact ⟨.lookup, by simp only [sizeStep, hphase, Option.isSome_some]⟩
  | leading cached => exact ⟨.start 0, by simp only [sizeStep, hphase, Option.isSome_some]⟩
  | measuring cached request =>
    exact ⟨.finish (.error ""), by simp only [sizeStep, hphase, Option.isSome_some]⟩
  | measured cached result =>
    exact ⟨.stamp 0, by simp only [sizeStep, hphase, Option.isSome_some]⟩
  | storing clean measuredAt =>
    exact ⟨.store, by simp only [sizeStep, hphase, Option.isSome_some]⟩
  | publishing outcome =>
    exact ⟨.publish, by simp only [sizeStep, hphase, Option.isSome_some]⟩
  | releasing outcome =>
    exact ⟨.release, by simp only [sizeStep, hphase, Option.isSome_some]⟩

/-- A measurement can end in any way. -/
theorem can_finish {i : Nat} {cached : Option SizeEntry} {request : SizeRequest}
    (h : (s.calls i).phase = .measuring cached request) (outcome : SizeOutcome) :
    (sizeStep c s ⟨i, .finish outcome⟩).isSome = true := by
  cases outcome with
  | error e => simp only [sizeStep, h, Option.isSome_some]
  | ok result => simp only [sizeStep, h, Option.isSome_some]

theorem can_join {i j : Nat} (h : (s.calls i).phase = .waiting j)
    (hfuture : (s.calls j).future.isSome = true) :
    (sizeStep c s ⟨i, .join⟩).isSome = true := by
  simp only [sizeStep, h, Option.isSome_map, hfuture]

/-! ### Where an answer comes from -/

/-- The flight that a call that is past its lookup goes by, or the cache. -/
def SizePhase.via (i : Nat) : SizePhase → Option (Option Nat)
  | .idle | .called _ => none
  | .waiting flight => some (some flight)
  | .leading _ | .measuring .. | .measured .. | .storing .. | .publishing _ | .releasing _ =>
    some (some i)
  | .ended flight _ => some flight

/-- A call goes by the same flight to its end. -/
theorem via_step {a : SizeAction} (ht : sizeStep c s a = some t) {i : Nat} {flight : Option Nat}
    (h : (s.calls i).phase.via i = some flight) : (t.calls i).phase.via i = some flight := by
  obtain ⟨l, cache, inflight, hturned, rfl⟩ := turned_of_step ht
  dsimp only
  rcases eq_or_ne i a.caller with rfl | hne
  · rw [Function.update_self]
    cases hturned with
    | begin _ hphase | hit _ _ hphase | follow _ _ hphase | lead _ hphase =>
      rw [hphase] at h
      cases h
    | start _ _ hphase | overdue _ hphase | raise _ _ _ hphase | finish _ _ _ hphase
    | succeed _ _ _ hphase | fail _ _ _ hphase | store _ _ hphase | publish _ hphase
    | release _ hphase | join _ _ hphase =>
      rw [hphase] at h
      exact h
  · rwa [Function.update_of_ne hne]

/-- An answer stays. -/
theorem ended_step {a : SizeAction} (ht : sizeStep c s a = some t) {i : Nat}
    {flight : Option Nat} {outcome : SizeOutcome}
    (h : (s.calls i).phase = .ended flight outcome) :
    (t.calls i).phase = .ended flight outcome := by
  obtain ⟨l, cache, inflight, hturned, rfl⟩ := turned_of_step ht
  dsimp only
  rcases eq_or_ne i a.caller with rfl | hne
  · cases hturned with
    | begin _ hphase | hit _ _ hphase | follow _ _ hphase | lead _ hphase | start _ _ hphase
    | overdue _ hphase | raise _ _ _ hphase | finish _ _ _ hphase | succeed _ _ _ hphase
    | fail _ _ _ hphase | store _ _ hphase | publish _ hphase | release _ hphase
    | join _ _ hphase => cases hphase.symm.trans h
  · rwa [Function.update_of_ne hne]

/-- The call was on in a state of the run in which this held. -/
def During (c : SizeSetup) (as : List SizeAction) (t : SizeState) (i : Nat)
    (P : SizeState → Prop) : Prop :=
  ∃ as₁ as₂ u, as = as₁ ++ as₂ ∧ Run (Steps (sizeStep c)) .init as₁ u ∧
    Run (Steps (sizeStep c)) u as₂ t ∧ (u.calls i).phase.active = true ∧ P u

/-- The lookup that has found the answer. -/
def Hit (c : SizeSetup) (i : Nat) (outcome : SizeOutcome) (u : SizeState) : Prop :=
  ∃ now entry, (u.calls i).phase = .called now ∧ u.cache.lookup (c.key i) = some entry ∧
    (c.ask i).forceRefresh = false ∧ now - entry.1 ≤ c.cacheTtl ∧
    outcome = .ok (decorateMeasurement entry.2 (some entry.1) .cached)

/-- What a call goes by is settled by its lookup. -/
theorem lookup_of_via {a : SizeAction} (ht : sizeStep c s a = some t) {i : Nat}
    {flight : Option Nat} (hs : (s.calls i).phase.via i = none)
    (hvia : (t.calls i).phase.via i = some flight) :
    (flight = none ∧ (s.calls i).phase.active = true ∧
      ∃ outcome, (t.calls i).phase = .ended none outcome ∧ Hit c i outcome s) ∨
    (∃ j, flight = some j ∧ (s.calls i).phase.active = true ∧ s.inflight (c.key i) = some j) ∨
    (flight = some i ∧ (t.calls i).phase.active = true ∧ t.inflight (c.key i) = some i) := by
  obtain ⟨l, cache, inflight, hturned, rfl⟩ := turned_of_step ht
  dsimp only at hvia ⊢
  obtain rfl : i = a.caller := by
    by_contra hne
    rw [Function.update_of_ne hne, hs] at hvia
    cases hvia
  rw [Function.update_self] at hvia ⊢
  cases hturned with
  | begin now hphase => cases hvia
  | hit now entry hphase hentry hforce hage =>
    obtain rfl := Option.some.inj hvia
    refine .inl ⟨rfl, by rw [hphase]; rfl, _, rfl, now, entry, hphase, hentry, hforce, hage, rfl⟩
  | follow now j hphase hmarker =>
    obtain rfl := Option.some.inj hvia
    exact .inr (.inl ⟨j, rfl, by rw [hphase]; rfl, hmarker⟩)
  | lead now hphase hmarker =>
    obtain rfl := Option.some.inj hvia
    exact .inr (.inr ⟨rfl, rfl, Function.update_self _ _ _⟩)
  | start _ _ hphase | overdue _ hphase | raise _ _ _ hphase | finish _ _ _ hphase
  | succeed _ _ _ hphase | fail _ _ _ hphase | store _ _ hphase | publish _ hphase
  | release _ hphase | join _ _ hphase =>
    rw [hphase] at hs
    cases hs

/-- **The lookup.**  An answer of the cache was found, and the marker of the flight stood, while
the call was on. -/
theorem during_lookup {as : List SizeAction} (hrun : Run (Steps (sizeStep c)) .init as t) {i : Nat}
    {flight : Option Nat} {outcome : SizeOutcome}
    (h : (t.calls i).phase = .ended flight outcome) :
    During c as t i fun u => (flight = none ∧ Hit c i outcome u) ∨
      ∃ j, flight = some j ∧ u.inflight (c.key i) = some j := by
  have hvia : (t.calls i).phase.via i = some flight := by rw [h]; rfl
  obtain ⟨as₁, a, as₂, u, v, rfl, h₁, hu, hstep, hv, h₂⟩ := hrun.crossing
    (fun s => (s.calls i).phase.via i ≠ none) (fun hne => hne rfl) (by rw [hvia]; simp)
  obtain ⟨flight', hv⟩ := Option.ne_none_iff_exists'.mp hv
  have hend := h₂.preserves (fun s => (s.calls i).phase.via i = some flight')
    (fun _ _ _ hs hstep => via_step hstep hs) hv
  obtain rfl : flight' = flight := Option.some.inj (hend.symm.trans hvia)
  rcases lookup_of_via hstep (not_not.mp hu) hv with ⟨rfl, hactive, outcome', hended, hhit⟩ |
    ⟨j, rfl, hactive, hmarker⟩ | ⟨rfl, hactive, hmarker⟩
  · have hend := h₂.preserves (fun s => (s.calls i).phase = .ended none outcome')
      (fun _ _ _ hs hstep => ended_step hstep hs) hended
    cases hend.symm.trans h
    exact ⟨as₁, a :: as₂, u, rfl, h₁, .cons hstep h₂, hactive, .inl ⟨rfl, hhit⟩⟩
  · exact ⟨as₁, a :: as₂, u, rfl, h₁, .cons hstep h₂, hactive, .inr ⟨j, rfl, hmarker⟩⟩
  · exact ⟨as₁ ++ [a], as₂, v, (List.append_cons as₁ a as₂), h₁.append (.cons hstep (.nil v)), h₂,
      hactive, .inr ⟨i, rfl, hmarker⟩⟩

/-! ### What is called fresh -/

theorem status_decorateMeasurement (d : Dict) (measuredAt : Option Time) (status : SizeStatus) :
    Dict.get (decorateMeasurement d measuredAt status) "measurement_status" = .str status.text := by
  unfold decorateMeasurement Dict.merge
  simp only [List.foldl_cons, List.foldl_nil]
  rw [Dict.get_set_ne _ _ (by decide), Dict.get_set_ne _ _ (by decide), Dict.get_set_self]

/-- Only the numbers of the measurement itself are called fresh. -/
theorem success_of_fresh {path : String} {cached : Option SizeEntry} {measuredAt : Time}
    {result : Dict} (h : Dict.get (decoratedSize path cached measuredAt result)
      "measurement_status" = .str SizeStatus.fresh.text) : isSuccessfulSize result = true := by
  have hother : ∀ {status : SizeStatus}, status ≠ .fresh →
      Value.str status.text ≠ .str SizeStatus.fresh.text := fun {status} hne => by
    cases status with
    | fresh => exact absurd rfl hne
    | cached | partly | stale | failed => decide
  by_contra hsize
  unfold decoratedSize at h
  rw [if_neg hsize] at h
  split at h
  · rw [status_decorateMeasurement] at h
    exact hother (by decide) h
  · split at h
    · rw [Dict.get_set_ne _ _ (by decide), status_decorateMeasurement] at h
      exact hother (by decide) h
    · rw [status_decorateMeasurement] at h
      exact hother (by decide) h

theorem SizeInv.fresh (h : SizeInv c s) {i : Nat} {flight : Option Nat} {answer : Dict}
    (hended : (s.calls i).phase = .ended flight (.ok answer))
    (hfresh : Dict.get answer "measurement_status" = .str SizeStatus.fresh.text) :
    ∃ j cached measuredAt result, flight = some j ∧
      (s.calls j).measurement = some (.done cached measuredAt result) ∧
      isSuccessfulSize result = true ∧
      answer = decorateMeasurement (cleanSize (c.path i) result) (some measuredAt) .fresh := by
  have hholds := (h.holds i).at_phase hended
  cases flight with
  | none =>
    obtain ⟨entry, -, hanswer⟩ := hholds
    obtain rfl := Except.ok.inj hanswer
    rw [status_decorateMeasurement] at hfresh
    exact absurd hfresh (by decide)
  | some j =>
    obtain ⟨hkey, hfuture⟩ := hholds
    obtain ⟨m, hm, hout⟩ := h.answered j _ hfuture
    cases m with
    | raised error => cases hout
    | done cached measuredAt result =>
      obtain rfl := Except.ok.inj hout
      have hsize := success_of_fresh hfresh
      have hpath : c.path j = c.path i := congrArg SizeKey.path hkey
      refine ⟨j, cached, measuredAt, result, rfl, hm, hsize, ?_⟩
      rw [decoratedSize_success hsize, hpath]

/-! ### The runs -/

/-- `_rclone_size` is at work for the call. -/
def SizePhase.measures : SizePhase → Bool
  | .measuring .. => true
  | _ => false

theorem leads_of_measures {p : SizePhase} (h : p.measures = true) : p.leads = true := by
  cases p with
  | measuring => rfl
  | _ => cases h

/-- **Size measurements are shared.**  In every run: of each key at most one call measures, and it
measures the path of the key.  An answer is an entry of the cache that the call has found, or the
outcome of the measurement of a flight of the same key, whose marker stood while the call was on.
A call makes at most eight steps; it can always make the next one, whatever its measurement ends
with, unless it waits for a flight; and it can go on when the call of that flight has made five
steps.  The cache holds whole measurements of its keys that have succeeded, each key once, and no
more than allowed.  What is called fresh are the numbers of the flight's own measurement. -/
theorem cachedRcloneSize_run (c : SizeSetup) {as : List SizeAction} {s : SizeState}
    (hrun : Run (Steps (sizeStep c)) .init as s) :
    (∀ i j, (s.calls i).phase.measures = true → (s.calls j).phase.measures = true →
      c.key i = c.key j → i = j) ∧
    (∀ i cached request, (s.calls i).phase = .measuring cached request →
      request.path = c.path i ∧ request.filterArgs = (c.ask i).filterArgs) ∧
    (∀ i outcome, (s.calls i).phase = .ended none outcome → During c as s i (Hit c i outcome)) ∧
    (∀ i j outcome, (s.calls i).phase = .ended (some j) outcome →
      During c as s i (fun u => u.inflight (c.key i) = some j) ∧ c.key j = c.key i ∧
      (s.calls j).future = some outcome ∧
      ∃ m, (s.calls j).measurement = some m ∧ outcome = m.outcome (c.path i)) ∧
    (∀ i bs t, Run (Steps (sizeStep c)) s bs t → 8 ≤ bs.countP (fun a => a.caller = i) →
      ∃ flight outcome, (t.calls i).phase = .ended flight outcome) ∧
    (∀ i, (s.calls i).phase.active = true → (∀ j, (s.calls i).phase ≠ .waiting j) →
      (∃ turn, (sizeStep c s ⟨i, turn⟩).isSome = true) ∧ ((s.calls i).phase.measures = true →
        ∀ outcome, (sizeStep c s ⟨i, .finish outcome⟩).isSome = true)) ∧
    (∀ i j, (s.calls i).phase = .waiting j →
      ((s.calls j).phase.leads = true ∨ (s.calls j).future.isSome = true) ∧
      ∀ bs t, Run (Steps (sizeStep c)) s bs t →
      5 ≤ bs.countP (fun a => a.caller = j) → (t.calls i).phase = .waiting j →
      (sizeStep c t ⟨i, .join⟩).isSome = true) ∧
    ((∀ e ∈ s.cache, Whole c s e.1 e.2) ∧ (s.cache.map Prod.fst).Nodup ∧
      s.cache.length ≤ c.maxEntries) ∧
    (∀ i flight answer, (s.calls i).phase = .ended flight (.ok answer) →
      Dict.get answer "measurement_status" = .str "fresh" →
      ∃ j cached measuredAt result, flight = some j ∧
        (s.calls j).measurement = some (.done cached measuredAt result) ∧
        isSuccessfulSize result = true ∧
        answer = decorateMeasurement (cleanSize (c.path i) result) (some measuredAt) .fresh) := by
  have hinv : SizeInv c s := (sizeInv_init c).run hrun
  refine ⟨fun i j hi hj hkey => ?_, fun i cached request hphase => ?_, fun i outcome hended => ?_,
    fun i j outcome hended => ⟨?_, ?_⟩, fun i bs t hbs hcount => ?_,
    fun i hactive hwaits => ⟨can_go_on hactive hwaits, fun hmeasures outcome => ?_⟩,
    fun i j hwaits => ⟨((hinv.holds i).at_phase hwaits).2, fun bs t hbs hcount hstill => ?_⟩,
    ⟨hinv.whole, hinv.distinct, hinv.bounded⟩, fun i flight answer hended => hinv.fresh hended⟩
  · have hmarker := (hinv.marked (c.key i) i).mpr ⟨rfl, leads_of_measures hi⟩
    have hmarker' := (hinv.marked (c.key i) j).mpr ⟨hkey.symm, leads_of_measures hj⟩
    exact Option.some.inj (hmarker.symm.trans hmarker')
  · exact ((hinv.holds i).at_phase hphase).2
  · obtain ⟨as₁, as₂, u, has, h₁, h₂, hactive, ⟨-, hhit⟩ | ⟨j, hj, -⟩⟩ := during_lookup hrun hended
    · exact ⟨as₁, as₂, u, has, h₁, h₂, hactive, hhit⟩
    · cases hj
  · obtain ⟨as₁, as₂, u, has, h₁, h₂, hactive, ⟨hj, -⟩ | ⟨j', hj, hmarker⟩⟩ :=
      during_lookup hrun hended
    · cases hj
    · cases hj
      exact ⟨as₁, as₂, u, has, h₁, h₂, hactive, hmarker⟩
  · obtain ⟨hkey, hfuture⟩ := (hinv.holds i).at_phase hended
    obtain ⟨m, hm, hout⟩ := hinv.answered j outcome hfuture
    exact ⟨hkey, hfuture, m, hm, hout.trans (congrArg m.outcome (congrArg SizeKey.path hkey))⟩
  · have hrank := rank_run hbs i
    have hfirst : (s.calls i).phase.rank ≤ 8 := by
      cases (s.calls i).phase <;> exact Nat.le_of_ble_eq_true rfl
    exact ended_of_rank_zero (by omega)
  · cases hphase : (s.calls i).phase with
    | measuring cached request => exact can_finish hphase outcome
    | _ =>
      rw [hphase] at hmeasures
      cases hmeasures
  · obtain ⟨-, hflight⟩ := (hinv.holds i).at_phase hwaits
    exact can_join hstill (hinv.published hbs hflight hcount)

/-- Two calls of one key, the second of which wants a new measurement. -/
def refreshSetup : SizeSetup where
  env := ⟨id, fun _ => .ok .nan, fun _ _ => .nan, id⟩
  cacheTtl := 300000000
  maxEntries := 256
  measurementTimeout := 45000000
  ask i := ⟨[("id", .str "1")], "source", "gd:a", [], i = 1, none⟩

/-- The second call comes between the result and the removal of the marker. -/
def refreshRun : List SizeAction :=
  [⟨0, .begin 0⟩, ⟨0, .lookup⟩, ⟨0, .start 0⟩,
    ⟨0, .finish (.ok [("count", .int 4), ("bytes", .int 512)])⟩, ⟨0, .stamp 0⟩, ⟨0, .store⟩,
    ⟨0, .publish⟩, ⟨1, .begin 1⟩, ⟨1, .lookup⟩, ⟨0, .release⟩, ⟨1, .join⟩]

theorem refreshRun_answer : ∃ s outcome,
    Run (Steps (sizeStep refreshSetup)) .init refreshRun s ∧
    (s.calls 1).phase = .ended (some 0) outcome := by
  have hend : (runAll (sizeStep refreshSetup) .init refreshRun).map
      (fun s => ((s.calls 1).phase.rank, (s.calls 1).phase.via 1)) = some (0, some (some 0)) := by
    decide +kernel
  obtain ⟨s, hs, hcall⟩ := Option.map_eq_some_iff.mp hend
  obtain ⟨hrank, hvia⟩ := Prod.mk.inj hcall
  obtain ⟨flight, outcome, hphase⟩ := ended_of_rank_zero hrank
  rw [hphase] at hvia
  obtain rfl := Option.some.inj hvia
  exact ⟨s, outcome, run_of_runAll hs, hphase⟩

theorem cachedRcloneSize_run_refresh : ∃ s outcome,
    Run (Steps (sizeStep refreshSetup)) .init refreshRun s ∧
    (s.calls 1).phase = .ended (some 0) outcome ∧ (s.calls 0).future = some outcome := by
  obtain ⟨s, outcome, hrun, hended⟩ := refreshRun_answer
  exact ⟨s, outcome, hrun, hended,
    ((cachedRcloneSize_run refreshSetup hrun).2.2.2.1 1 0 outcome hended).2.2.1⟩

/-- **An answer that was over before it was asked for.**  Not every answer is an entry of the cache
or comes from a measurement that ran while the call was on. -/
theorem cachedRcloneSize_late : ¬ ∀ (c : SizeSetup) (as : List SizeAction) (s : SizeState),
    Run (Steps (sizeStep c)) .init as s → ∀ i flight outcome,
      (s.calls i).phase = .ended flight outcome → During c as s i fun u => Hit c i outcome u ∨
        ∃ j, flight = some j ∧ (u.calls j).phase.measures = true := by
  intro hall
  obtain ⟨s, outcome, hrun, hended⟩ := refreshRun_answer
  obtain ⟨as₁, as₂, u, has, h₁, -, hactive, h⟩ := hall _ _ _ hrun 1 _ _ hended
  have hchecked : ∀ n < 12, (runAll (sizeStep refreshSetup) .init (refreshRun.take n)).all
      (fun u => !(u.calls 1).phase.active || !(u.calls 0).phase.measures) = true := by
    decide +kernel
  have hlength : as₁.length < 12 := by
    have hle := (List.prefix_append as₁ as₂).length_le
    rw [← has] at hle
    exact Nat.lt_succ_of_le hle
  have hu := hchecked as₁.length hlength
  rw [has, List.take_left, runAll_of_run h₁] at hu
  rcases h with ⟨now, entry, -, -, hforce, -⟩ | ⟨j, hj, hmeasures⟩
  · cases hforce
  · cases hj
    simp only [Option.all_some, hactive, hmeasures, Bool.not_true, Bool.or_false] at hu
    cases hu

end RcloneSync
