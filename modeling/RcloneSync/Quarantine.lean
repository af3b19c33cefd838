/-
RcloneSync/Quarantine.lean

Quarantines over whole runs.  The operations of the guard act on one stored row, each
in one transaction, so a run is a list of operations in any order, by any process; a
preflight may have read the row long before its transaction (`seen`).

Every operation changes the quarantines in one of three ways (`guardStep_cases`): not
at all, by adding an entry under a key that has none, or by dropping the entries an
acknowledgement releases.  From this one fact follow that a stored quarantine stays
until it is released, that it blocks whatever has its key or meets its endpoints, and,
with the matching fact about baselines, that a blocked run records none.
-/
import RcloneSync.JsonSize
import RcloneSync.Protection
import RcloneSync.Runs

namespace RcloneSync

open Py Runs

variable {env : GuardEnv}

/-! ### Operations and runs -/

/-- One call of the guard. -/
inductive GuardCall
  | preflight (seen : RuntimeRow) (pair backup : Dict) (source : String) (measurement : Dict)
      (now : PyFloat)
  | record (pair : Dict) (measurement : Value) (now : PyFloat)
  | acknowledge (pair : Dict)

/-- A call at a moment with its own state of the file system. -/
structure GuardAction where
  fs : FileSystem
  call : GuardCall

/-- The row after a call; a failed call leaves it as it is. -/
def guardRow (env : GuardEnv) (row : RuntimeRow) (a : GuardAction) : RuntimeRow :=
  match a.call with
  | .preflight seen pair backup source measurement now =>
    match preflightAnomalyGuard env a.fs seen row pair backup source measurement now with
    | .ok r => r.row
    | .error _ => row
  | .record pair measurement now =>
    match recordAnomalyBaseline env row pair measurement now with
    | .ok row' => row'
    | .error _ => row
  | .acknowledge pair =>
    match acknowledgeQuarantine env a.fs row pair with
    | .ok r => r.2
    | .error _ => row

def guardStep (env : GuardEnv) (row : RuntimeRow) (a : GuardAction) (row' : RuntimeRow) : Prop :=
  row' = guardRow env row a

/-- A call that releases a quarantine entry: an acknowledgement of its pair, or of one with
conflicting endpoints. -/
def GuardAction.Releases (env : GuardEnv) (e : String × Value) (a : GuardAction) : Prop :=
  ∃ pair, a.call = .acknowledge pair ∧ releases env a.fs pair e = true

/-! ### What one call does to the state -/

@[simp] theorem normalizeState_toValue (s : GuardState) : normalizeState s.toValue = s := by
  simp [normalizeState, GuardState.toValue, dictAt, Dict.get, asDict, List.lookup_cons]

@[simp] theorem loadState_some (v : Value) : loadState (some v) = normalizeState v := rfl

theorem runtimeUpdate_ok {row : RuntimeRow} {fallback v : Value}
    {update : Value → Except PyError Value} (h : runtimeUpdate row fallback update = .ok v) :
    update (row.getD fallback) = .ok v := by
  unfold runtimeUpdate at h
  split at h
  · cases h
  · rename_i w hw
    split_ifs at h
    rw [hw, Except.ok.inj h]

/-- Bounding drops baselines only. -/
theorem boundedState_ok {s s' : GuardState} (h : boundedState env s = .ok s') :
    s'.quarantines = s.quarantines ∧ ∀ e ∈ s'.baselines, e ∈ s.baselines := by
  unfold boundedState at h
  split_ifs at h with hlen
  · simp only [bind_ok] at h
    obtain ⟨keyed, hkeyed, h⟩ := h
    obtain rfl := Except.ok.inj h
    refine ⟨rfl, fun e he => ?_⟩
    obtain ⟨k, hk, rfl⟩ := List.mem_map.mp he
    have hmem : k ∈ keyed := List.mem_mergeSort.mp (List.mem_of_mem_take hk)
    obtain ⟨x, hx, hf⟩ := exists_of_mapM hkeyed hmem
    rcases hm : measuredAt env x.2 with err | t
    · simp [hm, Except.map] at hf
    · obtain rfl : (t, x) = k := by simpa [hm, Except.map] using hf
      exact hx
  · obtain rfl := Except.ok.inj h
    exact ⟨rfl, fun e he => he⟩

/-- What a transaction of the guard does to the quarantines. -/
inductive QuarantineChange (env : GuardEnv) (s s' : GuardState) (a : GuardAction) : Prop
  | same (h : s'.quarantines = s.quarantines)
  | added (pair : Dict) (q : Dict) (hkey : ∀ d, s.quarantines.get (stateKey env pair) ≠ .dict d)
      (hq : Dict.get q "endpoints" = .dict (quarantineEndpoints a.fs pair))
      (h : s'.quarantines = s.quarantines.set (stateKey env pair) (.dict q))
  | released (pair : Dict) (hcall : a.call = .acknowledge pair)
      (h : s'.quarantines = s.quarantines.filter fun e => !releases env a.fs pair e)

theorem newQuarantine_endpoints (fs : FileSystem) (pair finding : Dict) (now : PyFloat) :
    (newQuarantine fs pair finding now).get "endpoints" = .dict (quarantineEndpoints fs pair) := by
  simp [newQuarantine, Dict.merge]

/-- The transaction of a preflight. -/
theorem preflightUpdate_ok {fs : FileSystem} {settings : GuardSettings} {pair : Dict}
    {source : String} {measurement : Dict} {now : PyFloat} {raw : Value} {finding : Dict} {v : Value}
    (h : preflightUpdate env fs settings pair source measurement now raw = .ok (finding, v)) :
    let s := normalizeState raw
    let s' := normalizeState v
    (s'.quarantines = s.quarantines ∨
      ∃ q, (∀ d, s.quarantines.get (stateKey env pair) ≠ .dict d) ∧
        Dict.get q "endpoints" = .dict (quarantineEndpoints fs pair) ∧
        s'.quarantines = s.quarantines.set (stateKey env pair) (.dict q)) ∧
      ∀ e ∈ s'.baselines, e ∈ s.baselines := by
  intro s s'
  unfold preflightUpdate at h
  simp only at h
  split at h
  · obtain ⟨-, rfl⟩ := Prod.mk.inj (Except.ok.inj h)
    simp only [s', normalizeState_toValue]
    exact ⟨Or.inl rfl, fun e he => he⟩
  · rename_i hnone
    simp only [bind_ok] at h
    obtain ⟨evaluated, -, h⟩ := h
    split_ifs at h
    all_goals
      simp only [bind_ok] at h
      obtain ⟨bounded, hbounded, h⟩ := h
      obtain ⟨-, rfl⟩ := Prod.mk.inj (Except.ok.inj h)
      obtain ⟨hq, hb⟩ := boundedState_ok hbounded
      simp only [s', normalizeState_toValue]
      refine ⟨?_, hb⟩
    · exact Or.inr ⟨_, fun d hd => hnone d hd, newQuarantine_endpoints _ _ _ _, hq⟩
    · exact Or.inl hq

/-- A preflight leaves the row alone or commits one transaction on it. -/
theorem preflight_ok {fs : FileSystem} {seen row : RuntimeRow} {pair backup : Dict}
    {source : String} {measurement : Dict} {now : PyFloat} {r : GuardResult}
    (h : preflightAnomalyGuard env fs seen row pair backup source measurement now = .ok r) :
    r.row = row ∨ ∃ settings finding v, r = ⟨finding, some v⟩ ∧
      preflightUpdate env fs settings pair source measurement now (row.getD (.dict []))
        = .ok (finding, v) := by
  unfold preflightAnomalyGuard at h
  split at h
  · obtain rfl := Except.ok.inj h
    exact Or.inl rfl
  · simp only [bind_ok] at h
    obtain ⟨settings, -, h⟩ := h
    split_ifs at h
    · obtain rfl := Except.ok.inj h
      exact Or.inl rfl
    · split at h
      · obtain rfl := Except.ok.inj h
        exact Or.inl rfl
      · simp only [bind_ok] at h
        obtain ⟨⟨finding, v⟩, hupdate, w, hw, h⟩ := h
        obtain rfl : v = w := Except.ok.inj (runtimeUpdate_ok hw)
        obtain rfl := Except.ok.inj h
        exact Or.inr ⟨settings, finding, v, rfl, hupdate⟩

theorem recordAnomalyBaseline_ok {row row' : RuntimeRow} {pair : Dict} {measurement : Value}
    {now : PyFloat} (h : recordAnomalyBaseline env row pair measurement now = .ok row') :
    (loadState row').quarantines = (loadState row).quarantines := by
  unfold recordAnomalyBaseline at h
  split at h
  · split_ifs at h
    · obtain rfl := Except.ok.inj h
      rfl
    · simp only [bind_ok] at h
      obtain ⟨count, -, bytes, -, measured, -, v, hv, h⟩ := h
      obtain rfl := Except.ok.inj h
      have hupdate := runtimeUpdate_ok hv
      rcases hb : boundedState env _ with e | bounded
      · rw [hb] at hupdate
        cases hupdate
      · rw [hb] at hupdate
        obtain rfl := Except.ok.inj hupdate
        rw [loadState_some, normalizeState_toValue, (boundedState_ok hb).1]
        rfl
  · split_ifs at h
    obtain rfl := Except.ok.inj h
    rfl

theorem acknowledgeQuarantine_ok {fs : FileSystem} {row row' : RuntimeRow} {pair : Dict}
    {released : Bool} (h : acknowledgeQuarantine env fs row pair = .ok (released, row')) :
    (loadState row').quarantines
      = (loadState row).quarantines.filter fun e => !releases env fs pair e := by
  simp only [acknowledgeQuarantine, bind_ok] at h
  obtain ⟨v, hv, h⟩ := h
  obtain ⟨-, rfl⟩ := Prod.mk.inj (Except.ok.inj h)
  have hupdate := runtimeUpdate_ok hv
  rcases hb : boundedState env _ with e | bounded
  · rw [hb] at hupdate
    cases hupdate
  · rw [hb] at hupdate
    obtain rfl := Except.ok.inj hupdate
    rw [loadState_some, normalizeState_toValue, (boundedState_ok hb).1]
    rfl

/-- **The step lemma.**  The three ways a call can change the quarantines. -/
theorem guardStep_cases {row row' : RuntimeRow} {a : GuardAction} (h : guardStep env row a row') :
    QuarantineChange env (loadState row) (loadState row') a := by
  obtain rfl : row' = guardRow env row a := h
  obtain ⟨fs, call⟩ := a
  cases call with
  | preflight seen pair backup source measurement now =>
    simp only [guardRow]
    split
    · rename_i r hr
      rcases preflight_ok hr with hrow | ⟨settings, finding, v, rfl, hupdate⟩
      · rw [hrow]
        exact .same rfl
      · rcases (preflightUpdate_ok hupdate).1 with hsame | ⟨q, hkey, hq, hset⟩
        · exact .same hsame
        · exact .added pair q hkey hq hset
    · exact .same rfl
  | record pair measurement now =>
    simp only [guardRow]
    split
    · rename_i row' hrow
      exact .same (recordAnomalyBaseline_ok hrow)
    · exact .same rfl
  | acknowledge pair =>
    simp only [guardRow]
    split
    · rename_i r hr
      exact .released pair rfl (acknowledgeQuarantine_ok hr)
    · exact .same rfl

/-! ### Stored quarantines -/

/-- The stored entry under a key. -/
def Stored (row : RuntimeRow) (key : String) (q : Dict) : Prop :=
  (loadState row).quarantines.lookup key = some (.dict q)

theorem lookup_filter {d : Dict} {key : String} {v : Value} {p : String × Value → Bool}
    (h : d.lookup key = some v) (hp : p (key, v) = true) : (d.filter p).lookup key = some v := by
  induction d with
  | nil => simp at h
  | cons e rest ih =>
    obtain ⟨k, w⟩ := e
    by_cases hk : key = k
    · subst hk
      obtain rfl : w = v := by simpa using h
      simp [hp]
    · have hbeq : (key == k) = false := by simpa using hk
      have hrest : rest.lookup key = some v := by simpa [List.lookup_cons, hbeq] using h
      rcases hpk : p (k, w) with - | -
      · simpa [List.filter_cons, hpk] using ih hrest
      · simpa [List.filter_cons, hpk, List.lookup_cons, hbeq] using ih hrest

/-- A stored entry survives every call that does not release it. -/
theorem stored_step {row row' : RuntimeRow} {a : GuardAction} {key : String} {q : Dict}
    (hs : Stored row key q) (h : guardStep env row a row') (ha : ¬ a.Releases env (key, .dict q)) :
    Stored row' key q := by
  cases guardStep_cases h with
  | same hsame =>
    rw [Stored, hsame]
    exact hs
  | added pair q' hkey _ hset =>
    have hne : key ≠ stateKey env pair := by
      rintro rfl
      exact hkey q (Dict.get_of_lookup hs)
    rw [Stored, hset, Dict.lookup_set, if_neg hne]
    exact hs
  | released pair hcall hfilter =>
    rw [Stored, hfilter]
    refine lookup_filter hs ?_
    by_contra hrel
    exact ha ⟨pair, hcall, by simpa using hrel⟩

/-- A stored entry blocks every destructive pair that has its key or meets its endpoints. -/
theorem activeQuarantine_of_stored {row : RuntimeRow} {key : String} {q : Dict}
    (hs : Stored row key q) {fs : FileSystem} {pair : Dict} (hd : isDestructive pair = true)
    (hpair : stateKey env pair = key ∨
      endpointsConflict fs (quarantineEndpoints fs pair) (.dict q) = true)
    (configured : List Value) : activeQuarantine env fs row pair configured ≠ none := by
  simp only [activeQuarantine, hd, Bool.not_true, Bool.false_eq_true, if_false]
  split
  · simp
  · rename_i hown
    rcases hpair with rfl | hconflict
    · exact absurd (Dict.get_of_lookup hs) (hown q)
    · -- the search over all entries finds this one, or an earlier one
      have hfound : ((loadState row).quarantines.find? fun e =>
          endpointsConflict fs (quarantineEndpoints fs pair) e.2).isSome := by
        rw [List.find?_isSome]
        exact ⟨_, Dict.mem_of_lookup hs, hconflict⟩
      obtain ⟨⟨k, v⟩, hfind⟩ := Option.isSome_iff_exists.mp hfound
      have hconflict' := List.find?_some hfind
      rw [hfind]
      cases v with
      | dict d => simp
      | none | bool | int | float | str | list => simp [endpointsConflict] at hconflict'

/-! ### Reachable states -/

/-- Every stored entry is the quarantine of a pair, with the endpoints the pair had then. -/
def WellRecorded (env : GuardEnv) (row : RuntimeRow) : Prop :=
  ∀ e ∈ (loadState row).quarantines, ∃ q fs pair, e = (stateKey env pair, .dict q) ∧
    Dict.get q "endpoints" = .dict (quarantineEndpoints fs pair)

theorem wellRecorded_step {row row' : RuntimeRow} {a : GuardAction} (hw : WellRecorded env row)
    (h : guardStep env row a row') : WellRecorded env row' := by
  intro e he
  cases guardStep_cases h with
  | same hsame => exact hw e (hsame ▸ he)
  | added pair q _ hq hset =>
    rw [hset] at he
    rcases Dict.mem_of_mem_set he with rfl | he
    · exact ⟨q, a.fs, pair, rfl, hq⟩
    · exact hw e he
  | released pair _ hfilter =>
    rw [hfilter] at he
    exact hw e (List.mem_filter.mp he).1

/-- The rows the calls produce, starting without a stored value. -/
def GuardReachable (env : GuardEnv) (row : RuntimeRow) : Prop :=
  ∃ as, Run (guardStep env) none as row

theorem wellRecorded_of_reachable {row : RuntimeRow} (h : GuardReachable env row) :
    WellRecorded env row := by
  obtain ⟨as, hrun⟩ := h
  refine hrun.preserves (WellRecorded env) (fun _ _ _ hw h => wellRecorded_step hw h) ?_
  intro e he
  simp [loadState, normalizeState, dictAt, Dict.get, asDict] at he

/-! ### A run under the guard -/

/-- The guard's part of `_sync_pair`: preflight, then the command unless the finding blocks it,
then the recording of the measurement if the command succeeded.  The result tells whether the
run was blocked. -/
def guardedRun (env : GuardEnv) (fs : FileSystem) (row : RuntimeRow) (pair backup : Dict)
    (source : String) (measurement : Dict) (now : PyFloat) (commandOk : Bool) :
    Except PyError (Bool × RuntimeRow) := do
  let r ← preflightAnomalyGuard env fs row row pair backup source measurement now
  if r.blocked then return (true, r.row)
  else if commandOk then
    let row' ← recordAnomalyBaseline env r.row pair (r.finding.get "measurement") now
    return (false, row')
  else return (false, r.row)

theorem preflight_baselines {fs : FileSystem} {seen row : RuntimeRow} {pair backup : Dict}
    {source : String} {measurement : Dict} {now : PyFloat} {r : GuardResult}
    (h : preflightAnomalyGuard env fs seen row pair backup source measurement now = .ok r) :
    ∀ e ∈ (loadState r.row).baselines, e ∈ (loadState row).baselines := by
  rcases preflight_ok h with hrow | ⟨settings, finding, v, rfl, hupdate⟩
  · rw [hrow]
    exact fun e he => he
  · exact (preflightUpdate_ok hupdate).2

/-- A blocked run records no baseline. -/
theorem guardedRun_blocked {fs : FileSystem} {row row' : RuntimeRow} {pair backup : Dict}
    {source : String} {measurement : Dict} {now : PyFloat} {commandOk : Bool}
    (h : guardedRun env fs row pair backup source measurement now commandOk = .ok (true, row')) :
    ∀ e ∈ (loadState row').baselines, e ∈ (loadState row).baselines := by
  simp only [guardedRun, bind_ok] at h
  obtain ⟨r, hr, h⟩ := h
  split_ifs at h
  · obtain ⟨-, rfl⟩ := Prod.mk.inj (Except.ok.inj h)
    exact preflight_baselines hr
  · simp only [bind_ok] at h
    obtain ⟨row'', -, h⟩ := h
    cases (Prod.mk.inj (Except.ok.inj h)).1
  · cases (Prod.mk.inj (Except.ok.inj h)).1

/-! ### Main result -/

/-- **Quarantines persist.**  In every reachable state a stored entry is the quarantine of a
pair; it stays as it is over every run of calls that do not release it, and at the end of each
such run it blocks every destructive pair that has its key or meets its endpoints, while a
blocked run records no new baseline. -/
theorem quarantine_persists {row row' : RuntimeRow} {as : List GuardAction} {key : String}
    {v : Value} (hreach : GuardReachable env row)
    (hstored : (loadState row).quarantines.lookup key = some v)
    (hrun : Run (Restrict (guardStep env) fun _ a => ¬ a.Releases env (key, v)) row as row') :
    (∃ q fs pair, v = .dict q ∧ key = stateKey env pair ∧
      Dict.get q "endpoints" = .dict (quarantineEndpoints fs pair)) ∧
    (loadState row').quarantines.lookup key = some v ∧
    (∀ fs pair configured, isDestructive pair = true →
      (stateKey env pair = key ∨
        endpointsConflict fs (quarantineEndpoints fs pair) v = true) →
      activeQuarantine env fs row' pair configured ≠ none) ∧
    ∀ fs pair backup source measurement now commandOk row'',
      guardedRun env fs row' pair backup source measurement now commandOk = .ok (true, row'') →
      ∀ e ∈ (loadState row'').baselines, e ∈ (loadState row').baselines := by
  obtain ⟨q, fs₀, pair₀, he, hendpoints⟩ :=
    wellRecorded_of_reachable hreach _ (Dict.mem_of_lookup hstored)
  obtain ⟨hkey, rfl⟩ := Prod.mk.inj he
  have hstored' : Stored row' key q :=
    hrun.preserves (fun row => Stored row key q)
      (fun _ _ _ hs h => stored_step hs h.1 h.2) hstored
  refine ⟨⟨q, fs₀, pair₀, rfl, hkey, hendpoints⟩, hstored', ?_, ?_⟩
  · intro fs pair configured hd hpair
    exact activeQuarantine_of_stored hstored' hd hpair configured
  · intro fs pair backup source measurement now commandOk row'' h
    exact guardedRun_blocked h

/-! ### A sample run -/

/-- The text of a value is only measured where an estimate of its length does not do. -/
theorem runtimeUpdate_bounded (row : RuntimeRow) (fallback : Value)
    (update : Value → Except PyError Value) :
    runtimeUpdate row fallback update = (update (row.getD fallback)).bind fun value =>
      if runtimeLimit < sizeBound value ∧ runtimeLimit < encodedSize value then
        .error (.value "Runtime-Wert ist zu groß")
      else .ok value := by
  unfold runtimeUpdate
  cases update (row.getD fallback) with
  | error e => rfl
  | ok value =>
    have hsize : encodedSize value ≤ sizeBound value := encodedSize_le_sizeBound value
    refine if_congr (iff_and_self.mpr fun h => ?_) rfl rfl
    exact lt_of_lt_of_le h hsize

/-- Surroundings with exact integer percentages and the text itself as its hash. -/
def sampleGuardEnv : GuardEnv where
  sha256hex s := s
  toFloat v := (pyInt v).map fun n => .dec n 0
  dropPercent old new := .dec (100 * max 0 (old - new) / max 1 old) 0
  round2 x := x

/-- A file system without symbolic links. -/
def plainFs : FileSystem := fun path => some path

def sampleMeasurement (count : Int) : Dict :=
  [("ok", .bool true), ("count", .int count), ("bytes", .int count), ("measured_at", .int 1)]

def samplePair (id loc : String) : Dict :=
  [("id", .str id), ("remote", .str ("box:" ++ id)), ("local", .str loc),
   ("direction", .str "bisync")]

/-- A good run with 1000 files, then a preflight that finds 10. -/
def sampleCalls : List GuardAction :=
  [⟨plainFs, .record (samplePair "a" "/data/a") (.dict (sampleMeasurement 1000)) (.dec 1 0)⟩,
   ⟨plainFs, .preflight none (samplePair "a" "/data/a") [] "box:a" (sampleMeasurement 10)
     (.dec 2 0)⟩]

def sampleRow : RuntimeRow := sampleCalls.foldl (guardRow sampleGuardEnv) none

/-- The quarantine of the first pair outlives the run of another one and blocks a pair below
its directory. -/
theorem quarantine_persists_sample :
    activeQuarantine sampleGuardEnv plainFs
      (guardRow sampleGuardEnv sampleRow
        ⟨plainFs, .record (samplePair "b" "/b") (.dict (sampleMeasurement 3)) (.dec 3 0)⟩)
      (samplePair "c" "/data/a/sub") [] ≠ none := by
  have hblocking : ((loadState sampleRow).quarantines.lookup
      (stateKey sampleGuardEnv (samplePair "a" "/data/a"))).any (fun v => endpointsConflict plainFs
        (quarantineEndpoints plainFs (samplePair "c" "/data/a/sub")) v) = true := by
    unfold sampleRow sampleCalls guardRow
    simp only [List.foldl_cons, List.foldl_nil, preflightAnomalyGuard, recordAnomalyBaseline,
      runtimeUpdate_bounded]
    decide +kernel
  obtain ⟨v, hv, hconflict⟩ := (Option.any_eq_true _ _).mp hblocking
  have hreach : GuardReachable sampleGuardEnv sampleRow :=
    ⟨sampleCalls, run_of_foldl (guardRow sampleGuardEnv) none sampleCalls⟩
  have hkeeps : ∀ a : GuardAction, a.call = .record (samplePair "b" "/b")
      (.dict (sampleMeasurement 3)) (.dec 3 0) → ∀ e, ¬ a.Releases sampleGuardEnv e := by
    rintro a ha e ⟨pair, hcall, -⟩
    rw [ha] at hcall
    cases hcall
  exact (quarantine_persists hreach hv (.cons ⟨rfl, hkeeps _ rfl _⟩ (.nil _))).2.2.1 plainFs
    (samplePair "c" "/data/a/sub") [] (by decide +kernel) (Or.inr hconflict)

end RcloneSync
