/-
RcloneSync/OverdueAlerts.lean

Alerts for pairs without a fresh success (`overdue.py`).

Every tick of the scheduler finds the pairs that are overdue and reports those that were not
reported within the repeat window.  When each was last reported is kept as one runtime value, from
tick to tick: keys that are no longer overdue are taken out, and of more than 512 the oldest.

A runtime value has at most 512 KiB.  A larger one is not stored, with a warning; then the next
tick reports again.

`overdue_debounced`: as long as the state is stored, a key is reported by its own history alone, at
the first tick at which it is overdue and again after the repeat window.
-/
import RcloneSync.JsonSize
import RcloneSync.LoginFailures
import RcloneSync.Protection
import RcloneSync.Tables
import Mathlib.Algebra.Order.Field.Rat
import Mathlib.Tactic.Linarith
import Mathlib.Tactic.Positivity
import Mathlib.Tactic.FieldSimp
import Mathlib.Data.String.Basic

namespace Py

/-- `a - b < seconds` on floats, where neither is rounded. -/
def PyFloat.minusBelow : PyFloat → PyFloat → Int → Bool
  | .dec m k, .dec n l, seconds => m * 10 ^ l - n * 10 ^ k < seconds * 10 ^ (k + l)
  | .negInf, .dec _ _, _ | .negInf, .inf, _ | .dec _ _, .inf, _ => true
  | _, _, _ => false

/-- The number that a finite float stands for. -/
def PyFloat.number : PyFloat → ℚ
  | .dec m k => m / 10 ^ k
  | _ => 0

theorem dec_of_number_pos {x : PyFloat} (h : 0 < x.number) : ∃ m k, x = .dec m k ∧ 0 < m := by
  cases x with
  | dec m k =>
    refine ⟨m, k, rfl, ?_⟩
    have hpos : (0 : ℚ) < 10 ^ k := by positivity
    exact_mod_cast (div_pos_iff_of_pos_right hpos).mp h
  | inf | negInf | nan => exact absurd h (lt_irrefl _)

theorem truthy_of_number_pos {x : PyFloat} (h : 0 < x.number) : x.truthy = true := by
  obtain ⟨m, k, rfl, hm⟩ := dec_of_number_pos h
  exact decide_eq_true hm.ne'

theorem minusBelow_iff {x y : PyFloat} (hx : 0 < x.number) (hy : 0 < y.number) (seconds : Int) :
    x.minusBelow y seconds = true ↔ x.number - y.number < seconds := by
  obtain ⟨m, k, rfl, -⟩ := dec_of_number_pos hx
  obtain ⟨n, l, rfl, -⟩ := dec_of_number_pos hy
  have hk : (0 : ℚ) < 10 ^ k := by positivity
  have hl : (0 : ℚ) < 10 ^ l := by positivity
  have hsame : (PyFloat.dec m k).number - (PyFloat.dec n l).number =
      (m * 10 ^ l - n * 10 ^ k) / 10 ^ (k + l) := by
    unfold PyFloat.number
    rw [pow_add]
    field_simp
  rw [hsame, div_lt_iff₀ (by positivity)]
  unfold PyFloat.minusBelow
  rw [decide_eq_true_iff]
  exact_mod_cast Iff.rfl

end Py

namespace RcloneSync

open Py

/-! ### One tick -/

/-- `alert_settings`. -/
structure AlertSettings where
  enabled : Bool
  repeatHours : Int
  hours_bounds : 1 ≤ repeatHours ∧ repeatHours ≤ 720

def AlertSettings.repeatSec (a : AlertSettings) : Int := a.repeatHours * 3600

theorem AlertSettings.repeatSec_pos (a : AlertSettings) : 0 < a.repeatSec := by
  have h := a.hours_bounds
  unfold AlertSettings.repeatSec
  omega

/-- What is read of an overdue pair. -/
structure OverdueItem where
  name : String
  historyKey : String
  deriving DecidableEq

/-- `str(item.get("history_key") or item.get("name") or "")`. -/
def OverdueItem.key (item : OverdueItem) : String :=
  if item.historyKey ≠ "" then item.historyKey else item.name

/-- When each key was last reported. -/
abbrev AlertState := List (String × PyFloat)

def maxTracked : Nat := 512

def AlertState.last (state : AlertState) (key : String) : Option PyFloat :=
  (Tables.find Prod.fst state key).map Prod.snd

/-- `state[key] = now_value`. -/
def AlertState.put (state : AlertState) (key : String) (now : PyFloat) : AlertState :=
  Tables.upsert Prod.fst (key, now) (fun e => (e.1, now)) state

/-- `_load_state`; `toFloat` is `float`, of a stored value. -/
def loadAlerts (toFloat : Value → Except PyError PyFloat) (row : RuntimeRow) : AlertState :=
  match row.getD (.dict []) with
  | .dict d => d.filterMap fun e =>
      match toFloat e.2 with
      | .ok x => some (e.1, x)
      | .error _ => none
  | _ => []

def AlertState.toValue (state : AlertState) : Value :=
  .dict (state.map fun e => (e.1, .float e.2))

/-- What is stored of the state. -/
def AlertState.trimmed (state : AlertState) : AlertState :=
  (state.mergeSort fun a b => b.2.le a.2).take maxTracked

/-- `runtime_set` takes the value. -/
def AlertState.Storable (state : AlertState) : Prop :=
  utf8Length (jsonDumps plainJson state.trimmed.toValue) ≤ runtimeLimit

instance (state : AlertState) : Decidable state.Storable := Nat.decLe _ _

/-- `_store_state`; a value that is too large is logged. -/
def storeAlerts (state : AlertState) (row : RuntimeRow) : RuntimeRow :=
  if state.Storable then some state.trimmed.toValue else row

/-- `last_sent and now_value - last_sent < repeat_sec`, negated, for `state.get(key, 0.0)`. -/
def isReportDue (now : PyFloat) (repeatSec : Int) (last : Option PyFloat) : Bool :=
  let lastSent := last.getD (.dec 0 0)
  !(lastSent.truthy && now.minusBelow lastSent repeatSec)

/-- The loop over the items: the state, and the items that are reported. -/
def reportLoop (now : PyFloat) (repeatSec : Int) :
    List OverdueItem → AlertState → AlertState × List OverdueItem
  | [], state => (state, [])
  | item :: items, state =>
    if item.key ≠ "" ∧ isReportDue now repeatSec (state.last item.key) then
      let r := reportLoop now repeatSec items (state.put item.key now)
      (r.1, item :: r.2)
    else reportLoop now repeatSec items state

/-- A tick: the settings, the time, and the items that are overdue. -/
structure OverdueTick where
  settings : AlertSettings
  now : PyFloat
  items : List OverdueItem

def OverdueTick.isOverdue (t : OverdueTick) (key : String) : Bool :=
  t.items.any fun item => item.key = key

/-- The state without the keys that are no longer overdue. -/
def OverdueTick.still (t : OverdueTick) (state : AlertState) : AlertState :=
  state.filter fun e => t.isOverdue e.1

/-- `notify_overdue`: the items that are reported, and the runtime value. -/
def notifyOverdue (toFloat : Value → Except PyError PyFloat) (t : OverdueTick) (row : RuntimeRow) :
    List OverdueItem × RuntimeRow :=
  let loaded := loadAlerts toFloat row
  let state := t.still loaded
  let recovered := loaded.filter fun e => !t.isOverdue e.1
  if t.settings.enabled = false then
    ([], if recovered ≠ [] then storeAlerts state row else row)
  else
    let (state, reported) := reportLoop t.now t.settings.repeatSec t.items state
    (reported, if reported ≠ [] ∨ recovered ≠ [] then storeAlerts state row else row)

/-! ### Ticks in a row -/

/-- The runtime value after some ticks. -/
def rowAfter (toFloat : Value → Except PyError PyFloat) (ticks : List OverdueTick) : RuntimeRow :=
  ticks.foldl (fun row t => (notifyOverdue toFloat t row).2) none

/-- The keys that a tick reports, after the ticks before it. -/
def reportedKeys (toFloat : Value → Except PyError PyFloat) (before : List OverdueTick)
    (t : OverdueTick) : List String :=
  (notifyOverdue toFloat t (rowAfter toFloat before)).1.map OverdueItem.key

/-- The keys that are overdue; an item without a key is passed over. -/
def overdueKeys (items : List OverdueItem) : List String :=
  (items.map OverdueItem.key).filter fun key => key ≠ ""

/-- When a key was last reported, by its own history: a tick at which it is not overdue forgets
it. -/
def lastReport (key : String) (ticks : List OverdueTick) : Option PyFloat :=
  ticks.foldl (fun last t =>
    if key ∈ overdueKeys t.items then
      if isReportDue t.now t.settings.repeatSec last then some t.now else last
    else none) none

/-! ### The loop -/

section Loop

variable {now : PyFloat} {repeatSec : Int} {state : AlertState} {items : List OverdueItem}
  {key : String}

theorem isReportDue_none : isReportDue now repeatSec none = true := rfl

theorem isReportDue_some_iff {last : PyFloat} (hnow : 0 < now.number) (hlast : 0 < last.number) :
    isReportDue now repeatSec (some last) = true ↔ repeatSec ≤ now.number - last.number := by
  unfold isReportDue
  dsimp only [Option.getD_some]
  rw [truthy_of_number_pos hlast, Bool.true_and, Bool.not_eq_true',
    ← not_lt, ← minusBelow_iff hnow hlast, Bool.not_eq_true]

/-- What was reported just now is not due again. -/
theorem not_isReportDue_self (hnow : 0 < now.number) (hrepeat : 0 < repeatSec) :
    isReportDue now repeatSec (some now) = false := by
  refine Bool.eq_false_of_not_eq_true fun h => ?_
  have hle := (isReportDue_some_iff hnow hnow).mp h
  rw [sub_self] at hle
  exact absurd hle (by exact_mod_cast not_le.mpr hrepeat)

theorem mem_overdueKeys : key ∈ overdueKeys items ↔
    key ≠ "" ∧ ∃ item ∈ items, item.key = key := by
  simp only [overdueKeys, List.mem_filter, List.mem_map, decide_eq_true_eq]
  exact And.comm

theorem mem_overdueKeys_cons (item : OverdueItem) : key ∈ overdueKeys (item :: items) ↔
    (key ≠ "" ∧ item.key = key) ∨ key ∈ overdueKeys items := by
  simp only [mem_overdueKeys, List.mem_cons, exists_eq_or_imp, and_or_left]

theorem last_put (state : AlertState) (key key' : String) (now : PyFloat) :
    (state.put key now).last key' = if key' = key then some now else state.last key' := by
  have hfind := @Tables.find_upsert String (String × PyFloat) _ Prod.fst (key, now)
    (fun e => (e.1, now)) (fun _ => rfl) state key'
  unfold AlertState.last AlertState.put
  rw [hfind]
  split_ifs with h
  · cases Tables.find Prod.fst state key' <;> rfl
  · rfl

theorem nodup_put (h : (state.map Prod.fst).Nodup) (key : String) (now : PyFloat) :
    ((state.put key now).map Prod.fst).Nodup := by
  unfold AlertState.put Tables.upsert
  split_ifs with hfound
  · have hkeys := @Tables.map_key_updateWhere String (String × PyFloat) Prod.fst
      (fun e => decide (e.1 = key)) (fun e => (e.1, now)) (fun _ => rfl) state
    exact hkeys ▸ h
  · rw [List.map_append, List.nodup_append]
    refine ⟨h, List.nodup_singleton _, fun a ha b hb hab => hfound ?_⟩
    obtain ⟨e, he, rfl⟩ := List.mem_map.mp ha
    rw [List.mem_singleton.mp hb] at hab
    rw [Tables.find_of_mem h he hab]
    rfl

/-- **The loop.** -/
theorem reportLoop_spec (hnow : 0 < now.number) (hrepeat : 0 < repeatSec)
    (items : List OverdueItem) (state : AlertState) :
    let r := reportLoop now repeatSec items state
    (∀ key, key ∈ r.2.map OverdueItem.key ↔
        key ∈ overdueKeys items ∧ isReportDue now repeatSec (state.last key)) ∧
      (∀ key, r.1.last key =
        if key ∈ overdueKeys items ∧ isReportDue now repeatSec (state.last key) then some now
        else state.last key) ∧
      ((state.map Prod.fst).Nodup → (r.1.map Prod.fst).Nodup) := by
  induction items generalizing state with
  | nil => exact ⟨by simp [reportLoop, overdueKeys], by simp [reportLoop, overdueKeys], id⟩
  | cons item items ih =>
    rw [reportLoop]
    split_ifs with hitem
    · obtain ⟨hkey, hdue⟩ := hitem
      obtain ⟨hreported, hlast, hnodup⟩ := ih (state.put item.key now)
      refine ⟨fun key => ?_, fun key => ?_, fun h => hnodup (nodup_put h item.key now)⟩
      · show key ∈ item.key :: List.map OverdueItem.key _ ↔ _
        rw [List.mem_cons, hreported, last_put, mem_overdueKeys_cons]
        by_cases hsame : key = item.key
        · subst hsame
          exact iff_of_true (.inl rfl) ⟨.inl ⟨hkey, rfl⟩, hdue⟩
        · rw [if_neg hsame]
          have hother : item.key ≠ key := fun h => hsame h.symm
          simp only [hsame, hother, and_false, false_or]
      · show AlertState.last (reportLoop now repeatSec items (state.put item.key now)).1 key = _
        rw [hlast, last_put]
        simp only [mem_overdueKeys_cons]
        by_cases hsame : key = item.key
        · subst hsame
          have hnot := not_isReportDue_self hnow hrepeat
          simp only [if_true, hnot, Bool.false_eq_true, and_false, if_false, hkey, ne_eq,
            not_false_eq_true, true_and, true_or, hdue]
        · have hother : item.key ≠ key := fun h => hsame h.symm
          simp only [hsame, hother, if_false, and_false, false_or]
    · obtain ⟨hreported, hlast, hnodup⟩ := ih state
      -- an item without a key, or one that is not due, adds nothing
      have hskip : ∀ key,
          (key ∈ overdueKeys (item :: items) ∧ isReportDue now repeatSec (state.last key)) ↔
            (key ∈ overdueKeys items ∧ isReportDue now repeatSec (state.last key)) := by
        intro key
        rw [mem_overdueKeys_cons]
        refine and_congr_left fun hdue => or_iff_right ?_
        rintro ⟨hkey, rfl⟩
        exact hitem ⟨hkey, hdue⟩
      refine ⟨fun key => (hreported key).trans (hskip key).symm, fun key => ?_, hnodup⟩
      rw [hlast key]
      exact if_congr (hskip key).symm rfl rfl

end Loop

/-! ### What is kept from tick to tick -/

section Ticks

variable {toFloat : Value → Except PyError PyFloat} {row : RuntimeRow} {t : OverdueTick}
  {known : String → Option PyFloat}

/-- The state after the loop of a tick. -/
def stateOf (toFloat : Value → Except PyError PyFloat) (t : OverdueTick) (row : RuntimeRow) :
    AlertState :=
  (reportLoop t.now t.settings.repeatSec t.items (t.still (loadAlerts toFloat row))).1

/-- The runtime value is what is known of each key, and nothing is known of the empty one. -/
structure Tracks (toFloat : Value → Except PyError PyFloat) (row : RuntimeRow)
    (known : String → Option PyFloat) : Prop where
  nodup : ((loadAlerts toFloat row).map Prod.fst).Nodup
  last : ∀ key, (loadAlerts toFloat row).last key = known key
  empty : known "" = none

/-- A tick with the alerts on, at a positive time, with no more overdue keys than are tracked. -/
structure OverdueTick.Valid (t : OverdueTick) : Prop where
  enabled : t.settings.enabled = true
  now_pos : 0 < t.now.number
  tracked : (overdueKeys t.items).dedup.length ≤ maxTracked

/-- What is known of a key after a tick. -/
def OverdueTick.next (t : OverdueTick) (known : String → Option PyFloat) (key : String) :
    Option PyFloat :=
  if key ∈ overdueKeys t.items then
    if isReportDue t.now t.settings.repeatSec (known key) then some t.now else known key
  else none

theorem last_ne_none {state : AlertState} {key : String} (h : key ∈ state.map Prod.fst)
    (hkeys : (state.map Prod.fst).Nodup) : state.last key ≠ none := by
  obtain ⟨e, he, rfl⟩ := List.mem_map.mp h
  unfold AlertState.last
  rw [Tables.find_of_mem hkeys he rfl]
  exact Option.some_ne_none _

/-- A stored state is loaded as it was. -/
theorem loadAlerts_toValue (hfloat : ∀ x, toFloat (.float x) = .ok x) (state : AlertState) :
    loadAlerts toFloat (some state.toValue) = state := by
  unfold loadAlerts AlertState.toValue
  simp only [Option.getD_some, List.filterMap_map]
  rw [List.filterMap_congr (g := some), List.filterMap_some]
  intro e _
  simp [hfloat]

theorem trimmed_singleton (e : String × PyFloat) : AlertState.trimmed [e] = [e] := by
  simp [AlertState.trimmed, maxTracked]

/-- A state within the bound is stored whole. -/
theorem trimmed_perm {state : AlertState} (h : state.length ≤ maxTracked) :
    state.trimmed.Perm state := by
  unfold AlertState.trimmed
  rw [List.take_of_length_le (by rwa [List.length_mergeSort])]
  exact List.mergeSort_perm _ _

/-- What is no longer overdue is not known any more. -/
theorem Tracks.still (h : Tracks toFloat row known) (t : OverdueTick) (key : String) :
    (t.still (loadAlerts toFloat row)).last key =
      if key ∈ overdueKeys t.items then known key else none := by
  have hoverdue : t.isOverdue key = true ↔ ∃ item ∈ t.items, item.key = key := by
    simp [OverdueTick.isOverdue]
  have hfind := Tables.find_filter h.nodup (fun e => t.isOverdue e.1) key
  have hlast := h.last key
  unfold AlertState.last at hlast ⊢
  unfold OverdueTick.still
  rw [hfind]
  cases hfound : Tables.find Prod.fst (loadAlerts toFloat row) key with
  | none =>
    rw [hfound] at hlast
    rw [← hlast]
    exact (ite_self _).symm
  | some e =>
    have hkey : e.1 = key := Tables.key_of_find hfound
    rw [hfound] at hlast
    have hne : key ≠ "" := by
      rintro rfl
      rw [h.empty] at hlast
      cases hlast
    rw [← hlast, Option.filter_some, hkey]
    have hmem : key ∈ overdueKeys t.items ↔ t.isOverdue key = true := by
      rw [mem_overdueKeys, hoverdue]
      exact and_iff_right hne
    by_cases hthis : t.isOverdue key = true
    · rw [if_pos hthis, if_pos (hmem.mpr hthis)]
    · rw [if_neg hthis, if_neg fun h => hthis (hmem.mp h)]
      rfl

/-- What the loop makes of what is known. -/
theorem Tracks.loop (h : Tracks toFloat row known) (ht : t.Valid) :
    ((stateOf toFloat t row).map Prod.fst).Nodup ∧
      (∀ key, (stateOf toFloat t row).last key = t.next known key) ∧
      ∀ key, key ∈ (reportLoop t.now t.settings.repeatSec t.items
          (t.still (loadAlerts toFloat row))).2.map OverdueItem.key ↔
        key ∈ overdueKeys t.items ∧ isReportDue t.now t.settings.repeatSec (known key) := by
  obtain ⟨hreported, hlast, hnodup⟩ := reportLoop_spec ht.now_pos t.settings.repeatSec_pos t.items
    (t.still (loadAlerts toFloat row))
  refine ⟨hnodup (h.nodup.sublist (List.filter_sublist.map _)), fun key => ?_, fun key => ?_⟩
  · unfold stateOf OverdueTick.next
    rw [hlast key, h.still t key]
    by_cases hkey : key ∈ overdueKeys t.items
    · simp only [hkey, if_true, true_and]
    · simp only [hkey, if_false, false_and]
  · rw [hreported key, h.still t key]
    refine and_congr_right fun hkey => ?_
    rw [if_pos hkey]

/-- Only overdue keys are known after a tick, so the state is within the bound. -/
theorem Tracks.length_stateOf (h : Tracks toFloat row known) (ht : t.Valid) :
    (stateOf toFloat t row).length ≤ maxTracked := by
  obtain ⟨hnodup, hlast, -⟩ := h.loop ht
  have hsub : (stateOf toFloat t row).map Prod.fst ⊆ (overdueKeys t.items).dedup := by
    intro key hkey
    have hne := last_ne_none hkey hnodup
    rw [hlast key] at hne
    rw [List.mem_dedup]
    by_contra hnot
    exact hne (if_neg hnot)
  have hle := (hnodup.subperm hsub).length_le
  rw [List.length_map] at hle
  exact hle.trans ht.tracked

/-- A tick that stores nothing has nothing new to know. -/
theorem Tracks.unchanged (h : Tracks toFloat row known) (ht : t.Valid)
    (hreported : (reportLoop t.now t.settings.repeatSec t.items
      (t.still (loadAlerts toFloat row))).2 = [])
    (hrecovered : (loadAlerts toFloat row).filter (fun e => !t.isOverdue e.1) = []) (key : String) :
    t.next known key = known key := by
  unfold OverdueTick.next
  split_ifs with hkey hdue
  · have hthis := ((h.loop ht).2.2 key).mpr ⟨hkey, hdue⟩
    rw [hreported] at hthis
    cases hthis
  · rfl
  · have hlast := h.still t key
    rw [if_neg hkey] at hlast
    have hall : t.still (loadAlerts toFloat row) = loadAlerts toFloat row := by
      refine List.filter_eq_self.mpr fun e he => ?_
      by_contra hnot
      have hmem : e ∈ (loadAlerts toFloat row).filter fun e => !t.isOverdue e.1 :=
        List.mem_filter.mpr ⟨he, by simpa using hnot⟩
      rw [hrecovered] at hmem
      cases hmem
    rw [hall, h.last key] at hlast
    exact hlast.symm

/-- A state that fits is known from its runtime value. -/
theorem tracks_stored (hfloat : ∀ x, toFloat (.float x) = .ok x) {state : AlertState}
    (hlength : state.length ≤ maxTracked) (hnodup : (state.map Prod.fst).Nodup)
    (hlast : ∀ key, state.last key = known key) (hempty : known "" = none) :
    Tracks toFloat (some state.trimmed.toValue) known := by
  have hperm := trimmed_perm hlength
  refine ⟨?_, fun key => ?_, hempty⟩
  · rw [loadAlerts_toValue hfloat]
    exact (hperm.map Prod.fst).nodup_iff.mpr hnodup
  · rw [loadAlerts_toValue hfloat, ← hlast key]
    exact congrArg (Option.map Prod.snd) (Tables.find_perm hperm.symm hnodup key).symm

/-- **One tick**: it reports the overdue keys that are due, and goes on with what is known then. -/
theorem Tracks.tick (hfloat : ∀ x, toFloat (.float x) = .ok x) (h : Tracks toFloat row known)
    (ht : t.Valid) (hstored : (stateOf toFloat t row).Storable) :
    Tracks toFloat (notifyOverdue toFloat t row).2 (t.next known) ∧
      ∀ key, key ∈ (notifyOverdue toFloat t row).1.map OverdueItem.key ↔
        key ∈ overdueKeys t.items ∧ isReportDue t.now t.settings.repeatSec (known key) := by
  obtain ⟨hnodup, hlast, hreported⟩ := h.loop ht
  have hempty : t.next known "" = none := if_neg fun h => (mem_overdueKeys.mp h).1 rfl
  have henabled : ¬ t.settings.enabled = false := by rw [ht.enabled]; decide
  unfold notifyOverdue
  dsimp only
  rw [if_neg henabled]
  refine ⟨?_, hreported⟩
  dsimp only
  split_ifs with hchanged
  · show Tracks toFloat (storeAlerts (stateOf toFloat t row) row) _
    unfold storeAlerts
    rw [if_pos hstored]
    exact tracks_stored hfloat (h.length_stateOf ht) hnodup hlast hempty
  · obtain ⟨hnone, hrecovered⟩ := not_or.mp hchanged
    refine ⟨h.nodup, fun key => ?_, hempty⟩
    rw [h.last key]
    exact (h.unchanged ht (not_not.mp hnone) (not_not.mp hrecovered) key).symm

end Ticks

/-! ### Every history -/

/-- The ticks are valid and in the order of their times, and what each of them knows can be
stored. -/
structure ValidTicks (toFloat : Value → Except PyError PyFloat) (ticks : List OverdueTick) :
    Prop where
  valid : ∀ t ∈ ticks, t.Valid
  ordered : ticks.Pairwise fun u v => u.now.number ≤ v.now.number
  stored : ∀ before t after, ticks = before ++ t :: after →
    (stateOf toFloat t (rowAfter toFloat before)).Storable

/-- Two ticks are the same for a key. -/
structure SameTick (key : String) (u v : OverdueTick) : Prop where
  now : u.now = v.now
  repeatSec : u.settings.repeatSec = v.settings.repeatSec
  overdue : key ∈ overdueKeys u.items ↔ key ∈ overdueKeys v.items

/-- How a key is reported by a tick after others. -/
structure Debounced (toFloat : Value → Except PyError PyFloat) (before : List OverdueTick)
    (t : OverdueTick) (key : String) : Prop where
  overdue : key ∈ reportedKeys toFloat before t → key ∈ overdueKeys t.items
  /-- at once, where it was not overdue at the tick before -/
  first : key ∈ overdueKeys t.items → (∀ u, before.getLast? = some u → key ∉ overdueKeys u.items) →
    key ∈ reportedKeys toFloat before t
  /-- again only after the repeat window -/
  again : ∀ a u b, before = a ++ u :: b → key ∈ reportedKeys toFloat a u →
    (∀ v ∈ b, key ∈ overdueKeys v.items) → key ∈ reportedKeys toFloat before t →
    t.settings.repeatSec ≤ t.now.number - u.now.number
  /-- and then it is reported -/
  due : ∀ a u b, before = a ++ u :: b → key ∈ reportedKeys toFloat a u →
    (∀ v ∈ b, key ∈ overdueKeys v.items) →
    (∀ c v d, b = c ++ v :: d → key ∉ reportedKeys toFloat (a ++ u :: c) v) →
    key ∈ overdueKeys t.items → t.settings.repeatSec ≤ t.now.number - u.now.number →
    key ∈ reportedKeys toFloat before t
  /-- whatever becomes of other keys -/
  alone : ∀ before' t', ValidTicks toFloat (before' ++ [t']) →
    List.Forall₂ (SameTick key) before before' → SameTick key t t' →
    (key ∈ reportedKeys toFloat before t ↔ key ∈ reportedKeys toFloat before' t')

section Histories

variable {toFloat : Value → Except PyError PyFloat} {before : List OverdueTick} {t : OverdueTick}
  {key : String}

theorem lastReport_concat (key : String) (before : List OverdueTick) (t : OverdueTick) :
    lastReport key (before ++ [t]) = t.next (fun key => lastReport key before) key := by
  unfold lastReport
  rw [List.foldl_append]
  rfl

theorem lastReport_overdue (before : List OverdueTick) (h : key ∈ overdueKeys t.items) :
    lastReport key (before ++ [t]) =
      if isReportDue t.now t.settings.repeatSec (lastReport key before) then some t.now
      else lastReport key before :=
  (lastReport_concat key before t).trans (if_pos h)

theorem rowAfter_concat (before : List OverdueTick) (t : OverdueTick) :
    rowAfter toFloat (before ++ [t]) = (notifyOverdue toFloat t (rowAfter toFloat before)).2 := by
  unfold rowAfter
  rw [List.foldl_append]
  rfl

theorem ValidTicks.front {after : List OverdueTick} (h : ValidTicks toFloat (before ++ after)) :
    ValidTicks toFloat before :=
  ⟨fun t ht => h.valid t (List.mem_append_left _ ht), (List.pairwise_append.mp h.ordered).1,
    fun a t b hsplit => h.stored a t (b ++ after) (by rw [hsplit, List.append_assoc]; rfl)⟩

theorem ValidTicks.last_stored (h : ValidTicks toFloat (before ++ [t])) :
    (stateOf toFloat t (rowAfter toFloat before)).Storable := h.stored before t [] rfl

theorem ValidTicks.last_valid (h : ValidTicks toFloat (before ++ [t])) : t.Valid :=
  h.valid t (List.mem_append_right _ (List.mem_singleton_self t))

/-- **After every history** the runtime value is when each key was last reported. -/
theorem tracks_rowAfter (hfloat : ∀ x, toFloat (.float x) = .ok x)
    (h : ValidTicks toFloat before) :
    Tracks toFloat (rowAfter toFloat before) fun key => lastReport key before := by
  induction before using List.reverseRecOn with
  | nil => exact ⟨List.nodup_nil, fun _ => rfl, rfl⟩
  | append_singleton before t ih =>
    have htick := ((ih h.front).tick hfloat h.last_valid h.last_stored).1
    rw [rowAfter_concat]
    exact ⟨htick.nodup, fun key => by rw [htick.last key, lastReport_concat],
      by rw [lastReport_concat]; exact htick.empty⟩

/-- A key is reported by its own history. -/
theorem mem_reportedKeys_iff (hfloat : ∀ x, toFloat (.float x) = .ok x)
    (h : ValidTicks toFloat (before ++ [t])) (key : String) :
    key ∈ reportedKeys toFloat before t ↔ key ∈ overdueKeys t.items ∧
      isReportDue t.now t.settings.repeatSec (lastReport key before) :=
  ((tracks_rowAfter hfloat h.front).tick hfloat h.last_valid h.last_stored).2 key

/-- While a key stays overdue, its last report is no older than a report before. -/
theorem lastReport_since (hfloat : ∀ x, toFloat (.float x) = .ok x) {a b : List OverdueTick}
    {u : OverdueTick} (h : ValidTicks toFloat (a ++ u :: b)) (hu : key ∈ reportedKeys toFloat a u)
    (hb : ∀ v ∈ b, key ∈ overdueKeys v.items) :
    ∃ v ∈ u :: b, lastReport key (a ++ u :: b) = some v.now := by
  induction b using List.reverseRecOn with
  | nil =>
    obtain ⟨hkey, hdue⟩ := (mem_reportedKeys_iff hfloat h key).mp hu
    refine ⟨u, List.mem_singleton_self u, ?_⟩
    rw [lastReport_overdue a hkey, if_pos hdue]
  | append_singleton b w ih =>
    have hsplit : a ++ u :: (b ++ [w]) = (a ++ u :: b) ++ [w] := by simp
    rw [hsplit] at h ⊢
    obtain ⟨v, hv, hlast⟩ := ih h.front fun v hv => hb v (List.mem_append_left _ hv)
    have hw := hb w (List.mem_append_right _ (List.mem_singleton_self w))
    rw [lastReport_overdue _ hw, hlast]
    split_ifs
    · exact ⟨w, by simp, rfl⟩
    · exact ⟨v, List.mem_append_left [w] hv, rfl⟩

/-- Without another report it is that report. -/
theorem lastReport_unrepeated (hfloat : ∀ x, toFloat (.float x) = .ok x) {a b : List OverdueTick}
    {u : OverdueTick} (h : ValidTicks toFloat (a ++ u :: b)) (hu : key ∈ reportedKeys toFloat a u)
    (hb : ∀ v ∈ b, key ∈ overdueKeys v.items)
    (hnot : ∀ c v d, b = c ++ v :: d → key ∉ reportedKeys toFloat (a ++ u :: c) v) :
    lastReport key (a ++ u :: b) = some u.now := by
  induction b using List.reverseRecOn with
  | nil =>
    obtain ⟨v, hv, hlast⟩ := lastReport_since hfloat h hu hb
    obtain rfl := List.mem_singleton.mp hv
    exact hlast
  | append_singleton b w ih =>
    have hsplit : a ++ u :: (b ++ [w]) = (a ++ u :: b) ++ [w] := by simp
    rw [hsplit] at h ⊢
    have hlast := ih h.front (fun v hv => hb v (List.mem_append_left _ hv)) fun c v d hcd =>
      hnot c v (d ++ [w]) (by rw [hcd, List.append_assoc]; rfl)
    have hw := hb w (List.mem_append_right _ (List.mem_singleton_self w))
    have hnone := hnot b w [] rfl
    rw [mem_reportedKeys_iff hfloat h key, hlast] at hnone
    rw [lastReport_overdue _ hw, hlast, if_neg fun hdue => hnone ⟨hw, hdue⟩]

theorem lastReport_congr {ticks ticks' : List OverdueTick}
    (h : List.Forall₂ (SameTick key) ticks ticks') :
    lastReport key ticks = lastReport key ticks' := by
  let report (last : Option PyFloat) (t : OverdueTick) : Option PyFloat :=
    if key ∈ overdueKeys t.items then
      if isReportDue t.now t.settings.repeatSec last then some t.now else last
    else none
  have hfrom : ∀ last, ticks.foldl report last = ticks'.foldl report last := by
    induction h with
    | nil => exact fun _ => rfl
    | cons hsame _ ih =>
      intro last
      rw [List.foldl_cons, List.foldl_cons, ih]
      simp only [report, hsame.now, hsame.repeatSec, hsame.overdue]
  exact hfrom none

end Histories

/-- **Alerts are debounced**, over every history whose states can be stored. -/
theorem overdue_debounced {toFloat : Value → Except PyError PyFloat}
    (hfloat : ∀ x, toFloat (.float x) = .ok x) {before : List OverdueTick} {t : OverdueTick}
    (h : ValidTicks toFloat (before ++ [t])) (key : String) :
    Debounced toFloat before t key := by
  have hiff := mem_reportedKeys_iff hfloat h key
  have hnow := h.last_valid.now_pos
  have hordered : ∀ u ∈ before, u.now.number ≤ t.now.number := fun u hu =>
    (List.pairwise_append.mp h.ordered).2.2 u hu t (List.mem_singleton_self t)
  refine ⟨fun hkey => (hiff.mp hkey).1, ?_, ?_, ?_, ?_⟩
  · intro hkey habsent
    refine hiff.mpr ⟨hkey, ?_⟩
    cases before using List.reverseRecOn with
    | nil => rfl
    | append_singleton before u =>
      have hu := habsent u List.getLast?_concat
      rw [lastReport_concat]
      unfold OverdueTick.next
      rw [if_neg hu]
      rfl
  · rintro a u b rfl hu hb hkey
    obtain ⟨v, hv, hlast⟩ := lastReport_since hfloat h.front hu hb
    have hdue := (hiff.mp hkey).2
    have hvalid := h.front.valid v (List.mem_append_right a hv)
    rw [hlast, isReportDue_some_iff hnow hvalid.now_pos] at hdue
    have huv : u.now.number ≤ v.now.number := by
      rcases List.mem_cons.mp hv with rfl | hv
      · exact le_rfl
      · exact (List.pairwise_cons.mp (List.pairwise_append.mp h.front.ordered).2.1).1 v hv
    linarith
  · rintro a u b rfl hu hb hnot hkey helapsed
    have hlast := lastReport_unrepeated hfloat h.front hu hb hnot
    have hvalid := h.front.valid u (List.mem_append_right a List.mem_cons_self)
    rw [hiff, hlast, isReportDue_some_iff hnow hvalid.now_pos]
    exact ⟨hkey, helapsed⟩
  · intro before' t' h' hbefore hthis
    rw [hiff, mem_reportedKeys_iff hfloat h' key, lastReport_congr hbefore, hthis.now,
      hthis.repeatSec, hthis.overdue]

/-- `float`, of a float. -/
def floatOf : Value → Except PyError PyFloat
  | .float x => .ok x
  | _ => .error (.type "float() argument must be a string or a real number")

/-- A tick with one overdue pair. -/
def photosTick (now : Int) : OverdueTick :=
  ⟨⟨true, 24, by decide⟩, .dec now 0, [⟨"Fotos", "rclone:id:1"⟩]⟩

theorem valid_photosTick {now : Int} (hnow : 0 < now) : (photosTick now).Valid := by
  refine ⟨rfl, ?_, (by decide : (overdueKeys [⟨"Fotos", "rclone:id:1"⟩]).dedup.length ≤ maxTracked)⟩
  show (0 : ℚ) < now / 10 ^ 0
  rw [pow_zero, div_one]
  exact_mod_cast hnow

/-- What is stored of the pair. -/
def photosState (now : Int) : AlertState := [("rclone:id:1", .dec now 0)]

theorem storable_photosState {now : Int}
    (h : utf8Length (jsonDumps plainJson (photosState now).toValue) ≤ runtimeLimit) :
    (photosState now).Storable := by
  unfold AlertState.Storable photosState
  rw [trimmed_singleton]
  exact h

/-- The pair is reported again after a day. -/
theorem overdue_debounced_photos :
    "rclone:id:1" ∈ reportedKeys floatOf [photosTick 1000] (photosTick 87400) := by
  have hfirst : (photosState 1000).Storable := storable_photosState (by decide +kernel)
  have hsecond : (photosState 87400).Storable := storable_photosState (by decide +kernel)
  have hrow : rowAfter floatOf [photosTick 1000] = some (photosState 1000).toValue := by
    have hstore : rowAfter floatOf [photosTick 1000] = storeAlerts (photosState 1000) none := rfl
    rw [hstore, storeAlerts, if_pos hfirst, photosState, trimmed_singleton]
  have hticks : ValidTicks floatOf ([photosTick 1000] ++ [photosTick 87400]) := by
    refine ⟨fun t ht => ?_, ?_, ?_⟩
    · rcases List.mem_cons.mp ht with rfl | ht
      · exact valid_photosTick (by decide)
      · obtain rfl := List.mem_singleton.mp ht
        exact valid_photosTick (by decide)
    · refine List.pairwise_cons.mpr ⟨fun v hv => ?_, List.pairwise_singleton _ _⟩
      obtain rfl := List.mem_singleton.mp hv
      show ((1000 : Int) : ℚ) / 10 ^ 0 ≤ ((87400 : Int) : ℚ) / 10 ^ 0
      norm_num
    · intro before t after hsplit
      match before with
      | [] =>
        obtain ⟨rfl, -⟩ := List.cons.inj hsplit
        exact hfirst
      | [u] =>
        obtain ⟨rfl, hthis⟩ := List.cons.inj hsplit
        obtain ⟨rfl, -⟩ := List.cons.inj hthis
        rw [hrow]
        exact hsecond
      | u :: v :: before =>
        have hlength := congrArg List.length hsplit
        simp at hlength
  have hreported : "rclone:id:1" ∈ reportedKeys floatOf [] (photosTick 1000) :=
    List.mem_singleton_self _
  refine (overdue_debounced (fun _ => rfl) hticks "rclone:id:1").due [] (photosTick 1000) [] rfl
    hreported ?_ ?_ (by decide) ?_
  · intro v hv
    cases hv
  · intro c v d hsplit
    exact absurd hsplit.symm (by simp)
  · show ((24 * 3600 : Int) : ℚ) ≤ ((87400 : Int) : ℚ) / 10 ^ 0 - ((1000 : Int) : ℚ) / 10 ^ 0
    norm_num

/-! ### A key that is too long -/

section LongKey

/-- A text of `n` letters. -/
def longKey (n : Nat) : String := String.ofList (List.replicate n 'x')

theorem length_jsonText_longKey (n : Nat) : n ≤ (jsonText false (longKey n)).length := by
  have hflat : ((List.replicate n 'x').flatMap (jsonChar false)).length = n := by
    have hchar : jsonChar false 'x' = ['x'] := by decide
    rw [List.length_flatMap, List.map_replicate, hchar, List.sum_replicate]
    simp
  unfold jsonText longKey
  rw [← String.length_toList, String.toList_ofList, String.toList_ofList, List.cons_append,
    List.length_cons, List.length_append, hflat]
  omega

/-- The state of one long key is too large. -/
theorem not_storable_longKey {n : Nat} (hn : runtimeLimit < n) (x : PyFloat) :
    ¬ AlertState.Storable [(longKey n, x)] := by
  have htext : jsonDumps plainJson (AlertState.toValue [(longKey n, x)]) =
      "\x7b" ++ (jsonText false (longKey n) ++ ": " ++ x.json) ++ "\x7d" := rfl
  unfold AlertState.Storable
  rw [trimmed_singleton, htext]
  have hbytes := length_le_utf8Length
    ("\x7b" ++ (jsonText false (longKey n) ++ ": " ++ x.json) ++ "\x7d")
  have hkey := length_jsonText_longKey n
  rw [String.length_append, String.length_append, String.length_append, String.length_append]
    at hbytes
  omega

/-- A tick with one overdue pair, whose key is long. -/
def longTick (n : Nat) (now : Int) : OverdueTick :=
  ⟨⟨true, 24, by decide⟩, .dec now 0, [⟨"Fotos", longKey n⟩]⟩

theorem longKey_ne {n : Nat} (hn : 0 < n) : longKey n ≠ "" := by
  intro h
  have hlength : (longKey n).toList.length = 0 := by rw [h]; rfl
  unfold longKey at hlength
  rw [String.toList_ofList, List.length_replicate] at hlength
  omega

/-- Without a stored state the pair is reported, and again no state is stored. -/
theorem notifyOverdue_longTick {n : Nat} (hn : runtimeLimit < n) (now : Int) :
    notifyOverdue floatOf (longTick n now) none = ([⟨"Fotos", longKey n⟩], none) := by
  have hne := longKey_ne (Nat.zero_lt_of_lt hn)
  have hkey : OverdueItem.key ⟨"Fotos", longKey n⟩ = longKey n := if_pos hne
  have hloop : reportLoop (.dec now 0) (24 * 3600) [⟨"Fotos", longKey n⟩] [] =
      ([(longKey n, .dec now 0)], [⟨"Fotos", longKey n⟩]) := by
    rw [reportLoop, hkey, if_pos ⟨hne, isReportDue_none⟩]
    rfl
  have hreported : reportLoop (longTick n now).now (longTick n now).settings.repeatSec
      (longTick n now).items ((longTick n now).still (loadAlerts floatOf none)) =
        ([(longKey n, .dec now 0)], [⟨"Fotos", longKey n⟩]) := hloop
  have hunstored : storeAlerts [(longKey n, .dec now 0)] none = none :=
    if_neg (not_storable_longKey hn _)
  unfold notifyOverdue
  dsimp only
  rw [hreported, hunstored]
  rfl

theorem valid_longTick {n : Nat} (hn : 0 < n) {now : Int} (hnow : 0 < now) :
    (longTick n now).Valid := by
  have hkeys : overdueKeys (longTick n now).items = [longKey n] := by
    have hkey : OverdueItem.key ⟨"Fotos", longKey n⟩ = longKey n := if_pos (longKey_ne hn)
    show List.filter _ [OverdueItem.key ⟨"Fotos", longKey n⟩] = _
    rw [hkey]
    refine List.filter_eq_self.mpr fun key hmem => ?_
    rw [List.mem_singleton.mp hmem]
    exact decide_eq_true (longKey_ne hn)
  refine ⟨rfl, ?_, ?_⟩
  · show (0 : ℚ) < now / 10 ^ 0
    rw [pow_zero, div_one]
    exact_mod_cast hnow
  · rw [hkeys]
    exact (List.dedup_sublist _).length_le.trans (by decide : 1 ≤ maxTracked)

/-- Without a stored state the pair is reported again within a second. -/
theorem longTick_again {n : Nat} (hn : runtimeLimit < n) :
    ¬ Debounced floatOf [longTick n 1000] (longTick n 1001) (longKey n) := by
  intro h
  have hkey : OverdueItem.key ⟨"Fotos", longKey n⟩ = longKey n :=
    if_pos (longKey_ne (Nat.zero_lt_of_lt hn))
  have hreported : ∀ now, longKey n ∈
      (notifyOverdue floatOf (longTick n now) none).1.map OverdueItem.key := by
    intro now
    rw [notifyOverdue_longTick hn now, List.map_singleton, hkey]
    exact List.mem_singleton_self _
  have hagain : longKey n ∈ reportedKeys floatOf [longTick n 1000] (longTick n 1001) := by
    have hrow : rowAfter floatOf [longTick n 1000] = none :=
      congrArg Prod.snd (notifyOverdue_longTick hn 1000)
    unfold reportedKeys
    rw [hrow]
    exact hreported 1001
  have helapsed := h.again [] (longTick n 1000) [] rfl (hreported 1000) nofun hagain
  have hday : ((24 * 3600 : Int) : ℚ) ≤ ((1001 : Int) : ℚ) / 10 ^ 0 - ((1000 : Int) : ℚ) / 10 ^ 0 :=
    helapsed
  norm_num at hday

theorem valid_longTicks {n : Nat} (hn : 0 < n) :
    (∀ u ∈ [longTick n 1000] ++ [longTick n 1001], u.Valid) ∧
      ([longTick n 1000] ++ [longTick n 1001]).Pairwise
        fun u v => u.now.number ≤ v.now.number := by
  refine ⟨fun u hu => ?_, List.pairwise_cons.mpr ⟨fun v hv => ?_, List.pairwise_singleton _ _⟩⟩
  · rcases List.mem_cons.mp hu with rfl | hu
    · exact valid_longTick hn (by decide)
    · obtain rfl := List.mem_singleton.mp hu
      exact valid_longTick hn (by decide)
  · obtain rfl := List.mem_singleton.mp hv
    show ((1000 : Int) : ℚ) / 10 ^ 0 ≤ ((1001 : Int) : ℚ) / 10 ^ 0
    norm_num

end LongKey

/-- A pair with a key of 600000 letters is reported at every tick. -/
theorem not_overdue_debounced : ¬ ∀ (before : List OverdueTick) (t : OverdueTick) (key : String),
    (∀ u ∈ before ++ [t], u.Valid) →
    (before ++ [t]).Pairwise (fun u v => u.now.number ≤ v.now.number) →
    Debounced floatOf before t key := by
  intro h
  obtain ⟨hvalid, hordered⟩ := valid_longTicks (show 0 < 600000 by decide)
  exact longTick_again (show runtimeLimit < 600000 by decide) (h _ _ _ hvalid hordered)

end RcloneSync
