/-
RcloneSync/Acknowledge.lean

What is left of a quarantine after it was acknowledged.

An acknowledgement removes the stored quarantine and leaves the baseline that the pair was
measured against.  So the next preflight with the same measurement comes to the same finding
and stores the quarantine again (`unblocked_iff_evicted`); only where the baseline itself was
dropped, because there are more of them than are kept, the pair gets through.

The two preflights and the acknowledgement see the same configuration, the same file system
and, apart from their own writes, the same state.
-/
import RcloneSync.BoundedJson
import RcloneSync.Quarantine

namespace RcloneSync

open Py

/-! ### Mappings without repeated keys -/

theorem Dict.lookup_of_nodup {d : Dict} (hkeys : (d.map Prod.fst).Nodup) {key : String} {v : Value}
    (h : (key, v) ∈ d) : d.lookup key = some v := by
  induction d with
  | nil => cases h
  | cons e rest ih =>
    obtain ⟨k, w⟩ := e
    obtain ⟨hk, hkeys⟩ := List.nodup_cons.mp hkeys
    rcases List.mem_cons.mp h with heq | h
    · obtain ⟨rfl, rfl⟩ := Prod.mk.inj heq
      simp
    · have hne : (key == k) = false := by
        have hmem : key ∈ rest.map Prod.fst := List.mem_map_of_mem (f := Prod.fst) h
        simpa using fun heq : key = k => hk (heq ▸ hmem)
      rw [List.lookup_cons, hne]
      exact ih hkeys h

/-- The tables of a row have no key twice. -/
def GuardState.Keyed (s : GuardState) : Prop :=
  (s.baselines.map Prod.fst).Nodup ∧ (s.quarantines.map Prod.fst).Nodup

theorem keyed_dictAt {d : Dict} (h : (Value.dict d).wellFormed = true) (key : String) :
    ((dictAt d key).map Prod.fst).Nodup := by
  unfold dictAt Dict.get
  cases hlookup : d.lookup key with
  | none => simp [asDict]
  | some v =>
    have hv := (wellFormed_dict_iff.mp h).1 _ (Dict.mem_of_lookup hlookup)
    cases v with
    | dict inner => exact (wellFormed_dict_iff.mp hv).2
    | _ => simp [asDict]

theorem keyed_loadState {row : RuntimeRow} (h : ∀ v, row = some v → v.wellFormed = true) :
    (loadState row).Keyed := by
  have hnone : GuardState.Keyed ⟨[], []⟩ := ⟨List.nodup_nil, List.nodup_nil⟩
  cases row with
  | none => exact hnone
  | some v =>
    have hv := h v rfl
    cases v with
    | dict d => exact ⟨keyed_dictAt hv _, keyed_dictAt hv _⟩
    | _ => exact hnone

/-! ### Bounding -/

section

variable {env : GuardEnv}

theorem boundedState_short {s : GuardState} (h : s.baselines.length ≤ maxQuarantines) :
    boundedState env s = .ok s := by
  unfold boundedState
  rw [if_neg (not_lt.mpr h)]
  rfl

theorem boundedState_length {s s' : GuardState} (h : boundedState env s = .ok s') :
    s'.baselines.length ≤ maxQuarantines := by
  unfold boundedState at h
  split_ifs at h with hlen
  · obtain ⟨keyed, -, h⟩ := bind_ok.mp h
    obtain rfl := Except.ok.inj h
    show ((List.take _ _).map _).length ≤ _
    rw [List.length_map]
    exact List.length_take_le _ _
  · obtain rfl := Except.ok.inj h
    exact not_lt.mp hlen

/-- Which baselines are kept does not depend on the quarantines. -/
theorem boundedState_quarantines (s : GuardState) (quarantines : Dict) :
    boundedState env { s with quarantines := quarantines }
      = (boundedState env s).map fun s' => { s' with quarantines := quarantines } := by
  unfold boundedState
  dsimp only
  split_ifs
  · cases s.baselines.mapM fun e => (measuredAt env e.2).map fun t => (t, e) with
    | error e => rfl
    | ok keyed => rfl
  · rfl

/-- A baseline is kept as it is, or dropped. -/
theorem get_boundedState {s s' : GuardState} (hs : s.Keyed) (h : boundedState env s = .ok s')
    (key : String) : s'.baselines.get key = s.baselines.get key ∨ s'.baselines.get key = .none := by
  cases hlookup : s'.baselines.lookup key with
  | none =>
    right
    unfold Dict.get
    rw [hlookup]
    rfl
  | some v =>
    have hmem := (boundedState_ok h).2 _ (Dict.mem_of_lookup hlookup)
    left
    rw [Dict.get_of_lookup hlookup, Dict.get_of_lookup (Dict.lookup_of_nodup hs.1 hmem)]

/-! ### The finding of a preflight -/

theorem evaluateAnomaly_blocked {baseline : Value} {measurement evaluated : Dict}
    {settings : GuardSettings} (h : evaluateAnomaly env baseline measurement settings = .ok evaluated)
    (hblocked : truthy (evaluated.get "blocked") = true) :
    truthy (measurement.get "ok") = true ∧ truthy baseline = true := by
  unfold evaluateAnomaly at h
  by_cases hok : (!truthy (measurement.get "ok")) = true
  · rw [if_pos hok] at h
    rw [← Except.ok.inj h] at hblocked
    cases hblocked
  · by_cases hbase : (!truthy baseline) = true
    · rw [if_neg hok, if_pos hbase] at h
      rw [← Except.ok.inj h] at hblocked
      cases hblocked
    · exact ⟨by simpa using hok, by simpa using hbase⟩

/-- Without a baseline nothing is missing. -/
theorem evaluateAnomaly_fresh {measurement : Dict} {settings : GuardSettings}
    (h : truthy (measurement.get "ok") = true) :
    ∃ evaluated, evaluateAnomaly env .none measurement settings = .ok evaluated ∧
      truthy (evaluated.get "blocked") = false := by
  refine ⟨[("blocked", .bool false), ("measured", .bool true),
    ("reason", .str "baseline_created")], ?_, rfl⟩
  unfold evaluateAnomaly
  rw [h]
  rfl

theorem measuredFinding_blocked (pair : Dict) (source : String) (measurement evaluated : Dict) :
    (measuredFinding env pair source measurement evaluated).get "blocked"
      = evaluated.get "blocked" := by
  simp [measuredFinding, Dict.merge, Dict.get_set_ne]

variable {fs : FileSystem} {pair backup : Dict}

/-- A preflight that no stored quarantine stops, and whose guard is switched on. -/
theorem preflight_open {row : RuntimeRow} {settings : GuardSettings} (source : String)
    (measurement : Dict) (now : PyFloat)
    (hactive : activeQuarantine env fs row pair (configuredPairs backup) = none)
    (hsettings : guardSettings env backup pair = .ok settings)
    (hon : (!settings.enabled || !isDestructive pair) = false)
    (hown : ∀ d, (loadState row).quarantines.get (stateKey env pair) ≠ .dict d) :
    preflightAnomalyGuard env fs row row pair backup source measurement now = (do
      let x ← preflightUpdate env fs settings pair source measurement now (row.getD (.dict []))
      let value ← runtimeUpdate row (.dict []) fun _ => .ok x.2
      .ok ⟨x.1, some value⟩) := by
  unfold preflightAnomalyGuard
  rw [hactive]
  dsimp only
  rw [hsettings]
  show (if (!settings.enabled || !isDestructive pair) = true then _ else _) = _
  rw [if_neg (by rw [hon]; exact Bool.false_ne_true)]
  split
  · rename_i existing hexisting
    exact absurd hexisting (hown existing)
  · rfl

/-- The transaction of a preflight on a state in which the pair is not quarantined. -/
theorem preflightUpdate_open {settings : GuardSettings} {raw : Value} (source : String)
    (measurement : Dict) (now : PyFloat)
    (hown : ∀ d, (normalizeState raw).quarantines.get (stateKey env pair) ≠ .dict d) :
    preflightUpdate env fs settings pair source measurement now raw = (do
      let evaluated ← evaluateAnomaly env ((normalizeState raw).baselines.get (stateKey env pair))
        measurement settings
      let finding := measuredFinding env pair source measurement evaluated
      if truthy (finding.get "blocked") then
        let quarantine := newQuarantine fs pair finding now
        let state' ← boundedState env { normalizeState raw with
          quarantines := (normalizeState raw).quarantines.set (stateKey env pair)
            (.dict quarantine) }
        .ok (finding.set "quarantine" (.dict quarantine), state'.toValue)
      else
        let state' ← boundedState env (normalizeState raw)
        .ok (finding, state'.toValue)) := by
  unfold preflightUpdate
  dsimp only
  split
  · rename_i existing hexisting
    exact absurd hexisting (hown existing)
  · rfl

/-- A finding that quarantines the pair: what it was found from, and what is stored of it. -/
structure Quarantined (env : GuardEnv) (fs : FileSystem) (pair backup measurement : Dict)
    (row row' : RuntimeRow) (settings : GuardSettings) : Prop where
  settings_eq : guardSettings env backup pair = .ok settings
  on : (!settings.enabled || !isDestructive pair) = false
  own : ∀ d, (loadState row).quarantines.get (stateKey env pair) ≠ .dict d
  evaluated : ∃ evaluated, evaluateAnomaly env
      ((loadState row).baselines.get (stateKey env pair)) measurement settings = .ok evaluated ∧
    truthy (evaluated.get "blocked") = true
  stored : ∃ kept q, boundedState env (loadState row) = .ok kept ∧
    row' = some (GuardState.toValue
      ⟨kept.baselines, (loadState row).quarantines.set (stateKey env pair) (.dict q)⟩)

theorem quarantined_of_preflight {row : RuntimeRow} {source : String} {measurement : Dict}
    {now : PyFloat} {r : GuardResult}
    (hactive : activeQuarantine env fs row pair (configuredPairs backup) = none)
    (h : preflightAnomalyGuard env fs row row pair backup source measurement now = .ok r)
    (hblocked : r.blocked = true) :
    ∃ settings, Quarantined env fs pair backup measurement row r.row settings := by
  cases hsettings : guardSettings env backup pair with
  | error e =>
    unfold preflightAnomalyGuard at h
    rw [hactive] at h
    dsimp only at h
    rw [hsettings] at h
    cases h
  | ok settings =>
    cases hon : !settings.enabled || !isDestructive pair with
    | true =>
      unfold preflightAnomalyGuard at h
      rw [hactive] at h
      dsimp only at h
      rw [hsettings] at h
      have h : (if (!settings.enabled || !isDestructive pair) = true then _ else _) = Except.ok r := h
      rw [if_pos hon] at h
      rw [← Except.ok.inj h] at hblocked
      cases hblocked
    | false =>
      have hown : ∀ d, (loadState row).quarantines.get (stateKey env pair) ≠ .dict d := by
        intro d hd
        have hdestructive : isDestructive pair = true := by
          rw [Bool.or_eq_false_iff] at hon
          simpa using hon.2
        unfold activeQuarantine at hactive
        rw [hdestructive] at hactive
        dsimp only at hactive
        rw [hd] at hactive
        cases hactive
      rw [preflight_open source measurement now hactive hsettings hon hown] at h
      obtain ⟨x, hx, h⟩ := bind_ok.mp h
      obtain ⟨value, hvalue, h⟩ := bind_ok.mp h
      obtain rfl : x.2 = value := Except.ok.inj (runtimeUpdate_ok hvalue)
      obtain rfl := Except.ok.inj h
      rw [preflightUpdate_open source measurement now hown] at hx
      obtain ⟨evaluated, hevaluated, hx⟩ := bind_ok.mp hx
      have hfinding : (measuredFinding env pair source measurement evaluated).get "blocked"
          = evaluated.get "blocked" := measuredFinding_blocked _ _ _ _
      cases hquarantined : truthy ((measuredFinding env pair source measurement
          evaluated).get "blocked") with
      | false =>
        dsimp only at hx
        rw [hquarantined] at hx
        obtain ⟨state', -, hx⟩ := bind_ok.mp hx
        rw [← Except.ok.inj hx] at hblocked
        unfold GuardResult.blocked at hblocked
        rw [hquarantined] at hblocked
        cases hblocked
      | true =>
        dsimp only at hx
        rw [hquarantined] at hx
        obtain ⟨state', hbounded, hx⟩ := bind_ok.mp hx
        rw [hfinding] at hquarantined
        refine ⟨settings, hsettings, hon, hown, ⟨evaluated, hevaluated, hquarantined⟩, ?_⟩
        have hbounded : boundedState env { loadState row with
          quarantines := (loadState row).quarantines.set (stateKey env pair) (.dict _) }
          = .ok state' := hbounded
        rw [boundedState_quarantines] at hbounded
        cases hkept : boundedState env (loadState row) with
        | error e =>
          rw [hkept] at hbounded
          cases hbounded
        | ok kept =>
          rw [hkept] at hbounded
          refine ⟨kept, newQuarantine fs pair
            (measuredFinding env pair source measurement evaluated) now, rfl, ?_⟩
          rw [← Except.ok.inj hx, ← Except.ok.inj hbounded]

/-! ### After the acknowledgement -/

/-- The state that an acknowledgement leaves of a bounded one. -/
theorem acknowledgeQuarantine_eq {s : GuardState} (hs : s.baselines.length ≤ maxQuarantines)
    {released : Bool} {row' : RuntimeRow}
    (h : acknowledgeQuarantine env fs (some s.toValue) pair = .ok (released, row')) :
    ∃ s' : GuardState, s'.baselines = s.baselines ∧
      s'.quarantines = s.quarantines.filter (fun e => !releases env fs pair e) ∧
      row' = some s'.toValue ∧ utf8Length (jsonDumps plainJson s'.toValue) ≤ runtimeLimit := by
  unfold acknowledgeQuarantine at h
  obtain ⟨v, hv, h⟩ := bind_ok.mp h
  obtain ⟨-, rfl⟩ := Prod.mk.inj (Except.ok.inj h)
  refine ⟨⟨s.baselines, s.quarantines.filter fun e => !releases env fs pair e⟩, rfl, rfl, ?_⟩
  unfold runtimeUpdate at hv
  dsimp only at hv
  have hshort : boundedState env
      ⟨s.baselines, s.quarantines.filter fun e => !releases env fs pair e⟩ = .ok _ :=
    boundedState_short hs
  rw [Option.getD_some, normalizeState_toValue, hshort] at hv
  have hv : (if runtimeLimit < utf8Length (jsonDumps plainJson (GuardState.toValue
      ⟨s.baselines, s.quarantines.filter fun e => !releases env fs pair e⟩)) then
        Except.error _ else Except.ok _) = Except.ok v := hv
  split_ifs at hv with hsize
  rw [← Except.ok.inj hv]
  exact ⟨rfl, not_lt.mp hsize⟩

theorem configuredQuarantine_none {quarantines quarantines' current : Dict}
    (hfewer : ∀ key d, quarantines'.get key = .dict d → quarantines.get key = .dict d)
    {configured : List Value}
    (h : configuredQuarantine env fs quarantines current configured = none) :
    configuredQuarantine env fs quarantines' current configured = none := by
  induction configured with
  | nil => rfl
  | cons v rest ih =>
    cases v with
    | dict c =>
      unfold configuredQuarantine at h ⊢
      split
      · rename_i q hq
        rw [hfewer _ _ hq] at h
        dsimp only at h
        split_ifs at h ⊢ with hconflict
        exact ih h
      · refine ih ?_
        split at h
        · split_ifs at h
          exact h
        · exact h
    | none => exact ih h
    | bool b => exact ih h
    | int n => exact ih h
    | float x => exact ih h
    | str text => exact ih h
    | list xs => exact ih h

theorem lookup_of_get_dict {d : Dict} {key : String} {q : Dict} (h : d.get key = .dict q) :
    d.lookup key = some (.dict q) := by
  unfold Dict.get at h
  cases hlookup : d.lookup key with
  | none =>
    rw [hlookup] at h
    cases h
  | some v =>
    rw [hlookup] at h
    exact congrArg some h

/-- The search of `active_quarantine` ends with the pairs of the configuration. -/
theorem activeQuarantine_configured {row : RuntimeRow} {configured : List Value}
    (hdestructive : isDestructive pair = true)
    (h : activeQuarantine env fs row pair configured = none) :
    configuredQuarantine env fs (loadState row).quarantines (quarantineEndpoints fs pair) configured
      = none := by
  unfold activeQuarantine at h
  rw [hdestructive] at h
  dsimp only at h
  split at h
  · rename_i hnot
    cases hnot
  · split at h
    · cases h
    · split at h
      · cases h
      · exact h

/-- After the acknowledgement no stored quarantine stops the pair. -/
theorem activeQuarantine_released {row : RuntimeRow} {s' : GuardState}
    (hs : ((loadState row).quarantines.map Prod.fst).Nodup) {configured : List Value} {q : Dict}
    (hactive : activeQuarantine env fs row pair configured = none)
    (h : s'.quarantines = ((loadState row).quarantines.set (stateKey env pair) (.dict q)).filter
      (fun e => !releases env fs pair e)) :
    (∀ d, s'.quarantines.get (stateKey env pair) ≠ .dict d) ∧
      activeQuarantine env fs (some s'.toValue) pair configured = none := by
  have hreleased : ∀ e ∈ s'.quarantines, releases env fs pair e = false := by
    intro e he
    rw [h] at he
    simpa using (List.mem_filter.mp he).2
  have hown : ∀ d, s'.quarantines.get (stateKey env pair) ≠ .dict d := by
    intro d hd
    have hnot := hreleased _ (Dict.mem_of_lookup (lookup_of_get_dict hd))
    simp [releases] at hnot
  have hfewer : ∀ key d, s'.quarantines.get key = .dict d →
      (loadState row).quarantines.get key = .dict d := by
    intro key d hd
    have hmem := Dict.mem_of_lookup (lookup_of_get_dict hd)
    rw [h] at hmem
    have hlookup := Dict.lookup_of_nodup (nodup_set hs _ _) (List.mem_filter.mp hmem).1
    rw [Dict.lookup_set] at hlookup
    split_ifs at hlookup with hkey
    · exact absurd (hkey ▸ hd) (hown d)
    · exact Dict.get_of_lookup hlookup
  refine ⟨hown, ?_⟩
  unfold activeQuarantine
  split
  · rfl
  · rename_i hdestructive
    have hnone : s'.quarantines.find?
        (fun e => endpointsConflict fs (quarantineEndpoints fs pair) e.2) = none := by
      rw [List.find?_eq_none]
      intro e he hconflict
      have hnot := hreleased e he
      unfold releases at hnot
      rw [hconflict, Bool.or_true] at hnot
      cases hnot
    rw [loadState_some, normalizeState_toValue]
    dsimp only
    split
    · rename_i d hd
      exact absurd hd (hown d)
    · rw [hnone]
      exact configuredQuarantine_none hfewer
        (activeQuarantine_configured (by simpa using hdestructive) hactive)

/-! ### Main result -/

/-- A preflight that nothing stored stops blocks exactly if its measurement does. -/
theorem preflight_kept {s : GuardState} {settings : GuardSettings} {source : String}
    {measurement evaluated : Dict} {now : PyFloat}
    (hactive : activeQuarantine env fs (some s.toValue) pair (configuredPairs backup) = none)
    (hsettings : guardSettings env backup pair = .ok settings)
    (hon : (!settings.enabled || !isDestructive pair) = false)
    (hown : ∀ d, s.quarantines.get (stateKey env pair) ≠ .dict d)
    (hevaluated : evaluateAnomaly env (s.baselines.get (stateKey env pair)) measurement settings
      = .ok evaluated)
    (hblocked : truthy (evaluated.get "blocked") = true) {r : GuardResult}
    (h : preflightAnomalyGuard env fs (some s.toValue) (some s.toValue) pair backup source
      measurement now = .ok r) : r.blocked = true := by
  have hfinding : (measuredFinding env pair source measurement evaluated).get "blocked"
      = evaluated.get "blocked" := measuredFinding_blocked _ _ _ _
  rw [preflight_open source measurement now hactive hsettings hon
    (by rw [loadState_some, normalizeState_toValue]; exact hown)] at h
  obtain ⟨x, hx, h⟩ := bind_ok.mp h
  obtain ⟨value, -, h⟩ := bind_ok.mp h
  obtain rfl := Except.ok.inj h
  rw [Option.getD_some, preflightUpdate_open source measurement now
    (by rw [normalizeState_toValue]; exact hown), normalizeState_toValue, hevaluated] at hx
  have hx : (if truthy ((measuredFinding env pair source measurement evaluated).get "blocked")
      = true then _ else _) = Except.ok x := hx
  rw [if_pos (by rw [hfinding]; exact hblocked)] at hx
  obtain ⟨state', -, hx⟩ := bind_ok.mp hx
  obtain rfl := Except.ok.inj hx
  show truthy (Dict.get (Dict.set _ "quarantine" _) "blocked") = true
  rw [Dict.get_set_ne _ _ (by decide), hfinding]
  exact hblocked

theorem preflight_fresh {s : GuardState} {settings : GuardSettings} (source : String)
    {measurement : Dict} (now : PyFloat)
    (hactive : activeQuarantine env fs (some s.toValue) pair (configuredPairs backup) = none)
    (hsettings : guardSettings env backup pair = .ok settings)
    (hon : (!settings.enabled || !isDestructive pair) = false)
    (hown : ∀ d, s.quarantines.get (stateKey env pair) ≠ .dict d)
    (hnone : s.baselines.get (stateKey env pair) = .none)
    (hok : truthy (measurement.get "ok") = true)
    (hshort : s.baselines.length ≤ maxQuarantines)
    (hsize : utf8Length (jsonDumps plainJson s.toValue) ≤ runtimeLimit) :
    ∃ r, preflightAnomalyGuard env fs (some s.toValue) (some s.toValue) pair backup source
      measurement now = .ok r ∧ r.blocked = false := by
  obtain ⟨evaluated, hevaluated, hfree⟩ : ∃ evaluated,
      evaluateAnomaly env .none measurement settings = .ok evaluated ∧
        truthy (evaluated.get "blocked") = false := evaluateAnomaly_fresh hok
  have hfinding : (measuredFinding env pair source measurement evaluated).get "blocked"
      = evaluated.get "blocked" := measuredFinding_blocked _ _ _ _
  have hupdate : preflightUpdate env fs settings pair source measurement now s.toValue
      = .ok (measuredFinding env pair source measurement evaluated, s.toValue) := by
    rw [preflightUpdate_open source measurement now
      (by rw [normalizeState_toValue]; exact hown), normalizeState_toValue, hnone, hevaluated]
    show (if truthy ((measuredFinding env pair source measurement evaluated).get "blocked")
      = true then _ else _) = _
    rw [if_neg (by rw [hfinding, hfree]; exact Bool.false_ne_true), boundedState_short hshort]
    rfl
  have hwritten : runtimeUpdate (some s.toValue) (.dict []) (fun _ => .ok s.toValue)
      = .ok s.toValue := by
    unfold runtimeUpdate
    dsimp only
    rw [if_neg (not_lt.mpr hsize)]
  refine ⟨⟨measuredFinding env pair source measurement evaluated, some s.toValue⟩, ?_, ?_⟩
  · rw [preflight_open source measurement now hactive hsettings hon
      (by rw [loadState_some, normalizeState_toValue]; exact hown)]
    exact bind_ok.mpr ⟨_, hupdate, bind_ok.mpr ⟨_, hwritten, rfl⟩⟩
  · show truthy ((measuredFinding env pair source measurement evaluated).get "blocked") = false
    rw [hfinding]
    exact hfree

/-- **Acknowledging does not unblock.**  After a measurement quarantined a pair and the
quarantine was acknowledged, the same measurement lets the pair through exactly if its baseline
has been dropped meanwhile; while the baseline is kept, it is quarantined again. -/
theorem unblocked_iff_evicted {row row' : RuntimeRow} {source : String} {measurement : Dict}
    {now : PyFloat} {r : GuardResult} (hrow : ∀ v, row = some v → v.wellFormed = true)
    (hactive : activeQuarantine env fs row pair (configuredPairs backup) = none)
    (h : preflightAnomalyGuard env fs row row pair backup source measurement now = .ok r)
    (hblocked : r.blocked = true)
    (hack : acknowledgeQuarantine env fs r.row pair = .ok (true, row')) (now' : PyFloat) :
    (∃ r', preflightAnomalyGuard env fs row' row' pair backup source measurement now' = .ok r' ∧
      r'.blocked = false) ↔
    ∃ kept, boundedState env (loadState row) = .ok kept ∧
      kept.baselines.get (stateKey env pair) = .none := by
  obtain ⟨settings, Q⟩ := quarantined_of_preflight hactive h hblocked
  obtain ⟨kept, q, hkept, hstored⟩ := Q.stored
  obtain ⟨evaluated, hevaluated, hfound⟩ := Q.evaluated
  have hkeyed := keyed_loadState hrow
  have hshort : kept.baselines.length ≤ maxQuarantines := boundedState_length hkept
  rw [hstored] at hack
  obtain ⟨s', hbaselines, hquarantines, rfl, hsize⟩ := acknowledgeQuarantine_eq
    (s := ⟨kept.baselines, (loadState row).quarantines.set (stateKey env pair) (.dict q)⟩)
    hshort hack
  obtain ⟨hown', hactive'⟩ := activeQuarantine_released hkeyed.2 hactive hquarantines
  have hbaselines : s'.baselines = kept.baselines := hbaselines
  constructor
  · rintro ⟨r', hr', hfree⟩
    refine ⟨kept, hkept, ?_⟩
    rcases get_boundedState hkeyed hkept (stateKey env pair) with hsame | hnone
    · rw [← hsame, ← hbaselines] at hevaluated
      rw [preflight_kept hactive' Q.settings_eq Q.on hown' hevaluated hfound hr'] at hfree
      cases hfree
    · exact hnone
  · rintro ⟨kept', hkept', hnone⟩
    obtain rfl : kept = kept' := Except.ok.inj (hkept.symm.trans hkept')
    rw [← hbaselines] at hnone hshort
    exact preflight_fresh source now' hactive' Q.settings_eq Q.on hown' hnone
      (evaluateAnomaly_blocked hevaluated hfound).1 hshort hsize

end

/-! ### A quarantine that comes back -/

/-- A good run with 1000 files. -/
def measuredRow : RuntimeRow :=
  guardRow sampleGuardEnv none
    ⟨plainFs, .record (samplePair "a" "/data/a") (.dict (sampleMeasurement 1000)) (.dec 1 0)⟩

/-- The preflight that finds 10 files. -/
def measuredPreflight (row : RuntimeRow) : Except PyError GuardResult :=
  preflightAnomalyGuard sampleGuardEnv plainFs row row (samplePair "a" "/data/a") [] "box:a"
    (sampleMeasurement 10) (.dec 2 0)

theorem measuredPreflight_spec : ∃ r row', measuredPreflight measuredRow = .ok r ∧
    r.blocked = true ∧
    acknowledgeQuarantine sampleGuardEnv plainFs r.row (samplePair "a" "/data/a")
      = .ok (true, row') ∧
    (measuredPreflight row').map GuardResult.blocked = .ok true := by
  have hall : (do
      let r ← measuredPreflight measuredRow
      let released ← acknowledgeQuarantine sampleGuardEnv plainFs r.row (samplePair "a" "/data/a")
      let again ← (measuredPreflight released.2).map GuardResult.blocked
      .ok (r.blocked && (released.1 && again))) = Except.ok true := by
    simp only [measuredPreflight, measuredRow, guardRow, preflightAnomalyGuard,
      recordAnomalyBaseline, acknowledgeQuarantine, runtimeUpdate_bounded]
    decide +kernel
  obtain ⟨r, hr, hall⟩ := bind_ok.mp hall
  obtain ⟨⟨released, row'⟩, hreleased, hall⟩ := bind_ok.mp hall
  obtain ⟨again, hagain, hall⟩ := bind_ok.mp hall
  obtain ⟨hblocked, hall⟩ := (Bool.and_eq_true _ _).mp (Except.ok.inj hall)
  obtain ⟨rfl, rfl⟩ := (Bool.and_eq_true _ _).mp hall
  exact ⟨r, row', hr, hblocked, hreleased, hagain⟩

/-- The quarantine was acknowledged, and the same measurement brings it back. -/
theorem quarantine_comes_back : ∃ r row', measuredPreflight measuredRow = .ok r ∧
    r.blocked = true ∧
    acknowledgeQuarantine sampleGuardEnv plainFs r.row (samplePair "a" "/data/a")
      = .ok (true, row') ∧
    ∃ r', measuredPreflight row' = .ok r' ∧ r'.blocked = true := by
  obtain ⟨r, row', hr, hblocked, hack, hagain⟩ := measuredPreflight_spec
  refine ⟨r, row', hr, hblocked, hack, ?_⟩
  cases hr' : measuredPreflight row' with
  | error e =>
    rw [hr'] at hagain
    cases hagain
  | ok r' =>
    rw [hr'] at hagain
    exact ⟨r', rfl, Except.ok.inj hagain⟩

/-- In the sample nothing is dropped, so nothing lets the pair through. -/
theorem unblocked_iff_evicted_sample : ∃ r row', measuredPreflight measuredRow = .ok r ∧
    acknowledgeQuarantine sampleGuardEnv plainFs r.row (samplePair "a" "/data/a")
      = .ok (true, row') ∧
    ((∃ r', measuredPreflight row' = .ok r' ∧ r'.blocked = false) ↔
      ∃ kept, boundedState sampleGuardEnv (loadState measuredRow) = .ok kept ∧
        kept.baselines.get (stateKey sampleGuardEnv (samplePair "a" "/data/a")) = .none) := by
  obtain ⟨r, row', hr, hblocked, hack, -⟩ := measuredPreflight_spec
  refine ⟨r, row', hr, hack, unblocked_iff_evicted ?_ (by decide +kernel) hr hblocked hack _⟩
  intro v hv
  have hall : measuredRow.all Value.wellFormed = true := by decide +kernel
  rw [hv] at hall
  exact hall

end RcloneSync
