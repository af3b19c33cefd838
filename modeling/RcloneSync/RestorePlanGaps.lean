/-
RcloneSync/RestorePlanGaps.lean

The gaps between restore checks that the restore plan warns about (`build_plan` of
`app/routes/api_restore_plan.py`).

The plan does not list the occurrences of its schedule.  It looks at one anchor a day for
a year and a day, and at each takes the next occurrence and the one before that.  The two
are neighbours with the anchor between them, the first of them possibly at the anchor; and
a gap of a day or more always has an anchor in it.  So the largest distance found is that
of the longest such gap, of all that begin no later than the last anchor.

`next` and `prev` stand for the cron library.

Main result: `scheduleView_gaps`.  A gap that begins exactly at the last anchor is seen
too, 366 days after the plan was made (`scheduleView_lastAnchor`).
-/
import RcloneSync.JobStore
import Mathlib.Data.List.Range
import Mathlib.Tactic.Linarith

namespace RcloneSync

/-! ### The plan's view of its schedule -/

/-- A second and a day on the clock of `Time`. -/
def second : Time := 1000000

def dayLength : Time := 86400 * second

/-- `MAX_EVIDENCE_AGE_SEC`. -/
def maxEvidenceAge : Time := 7 * 24 * 3600 * second

/-- The stored schedule: whether it is switched on, whether it is a cron expression of five
fields, and the occurrence behind and in front of a point in time, `none` where the library
raises. -/
structure CheckSchedule where
  active : Bool
  valid : Bool
  next : Time → Option Time
  prev : Time → Option Time

/-- What `build_plan` learns of the schedule. -/
structure ScheduleView where
  runs : List Time
  maxInterval : Time
  scheduleError : Bool
  deriving DecidableEq, Repr

/-- The next occurrence at an anchor, seen from the one before it. -/
def intervalAt (s : CheckSchedule) (anchor : Time) : Option Time :=
  (s.next anchor).bind fun nextRun => (s.prev (nextRun - second)).map fun previous =>
    nextRun - previous

/-- `max_interval` after the anchors of the given days. -/
def maxInterval (s : CheckSchedule) (current : Time) : List Nat → Time → Option Time
  | [], longest => some longest
  | day :: rest, longest =>
    (intervalAt s (current + day * dayLength)).bind fun interval =>
      maxInterval s current rest (max longest interval)

/-- `build_plan`, as far as the schedule is concerned. -/
def scheduleView (s : CheckSchedule) (current : Time) : ScheduleView :=
  if s.active then
    let seen := do
      if !s.valid then none
      let first ← s.next current
      let second ← s.next first
      let longest ← maxInterval s current (List.range 367) 0
      some (⟨[first, second], longest, false⟩ : ScheduleView)
    seen.getD ⟨[], 0, true⟩
  else ⟨[], 0, false⟩

/-- The warning that the distance reaches the time a proof is good for. -/
def ScheduleView.gapWarning (v : ScheduleView) : Bool := maxEvidenceAge ≤ v.maxInterval

/-! ### Neighbouring occurrences -/

/-- The library finds the nearest occurrence on either side, and occurrences, being whole
minutes, are more than a second apart. -/
structure NearestOccurrences (s : CheckSchedule) (occurs : Time → Prop) : Prop where
  next : ∀ t, ∃ n, s.next t = some n ∧ occurs n ∧ t < n ∧ ∀ o, occurs o → t < o → n ≤ o
  prev : ∀ t, ∃ p, s.prev t = some p ∧ occurs p ∧ p < t ∧ ∀ o, occurs o → o < t → o ≤ p
  apart : ∀ o o', occurs o → occurs o' → o < o' → o + second < o'

/-- No occurrence lies between the two. -/
structure Consecutive (occurs : Time → Prop) (p n : Time) : Prop where
  first : occurs p
  second : occurs n
  lt : p < n
  nearest : ∀ o, occurs o → p < o → n ≤ o

section Gaps

variable {s : CheckSchedule} {occurs : Time → Prop} {current : Time}

/-- At an anchor the plan sees the two occurrences around it. -/
theorem intervalAt_between (h : NearestOccurrences s occurs) {p n anchor : Time}
    (hgap : Consecutive occurs p n) (hfirst : p ≤ anchor) (hsecond : anchor < n) :
    intervalAt s anchor = some (n - p) := by
  obtain ⟨n', hnext, hoccurs, hafter, hnearest⟩ := h.next anchor
  have hn : n' = n := le_antisymm (hnearest n hgap.second hsecond)
    (hgap.nearest n' hoccurs (lt_of_le_of_lt hfirst hafter))
  subst hn
  obtain ⟨p', hprev, hbefore, hless, hlast⟩ := h.prev (n' - second)
  have hroom := h.apart p n' hgap.first hgap.second hgap.lt
  have hp : p' = p := by
    refine le_antisymm (not_lt.mp fun hlt => ?_) (hlast p hgap.first (by linarith))
    have hle := hgap.nearest p' hbefore hlt
    have hpos : 0 < second := by decide
    linarith
  subst hp
  unfold intervalAt
  rw [hnext, Option.bind_some, hprev]
  rfl

/-- Every anchor lies in a gap. -/
theorem exists_around (h : NearestOccurrences s occurs) (anchor : Time) :
    ∃ p n, Consecutive occurs p n ∧ p ≤ anchor ∧ anchor < n := by
  obtain ⟨n, _, hoccurs, hafter, hnearest⟩ := h.next anchor
  obtain ⟨p, _, hbefore, hless, hlast⟩ := h.prev n
  refine ⟨p, n, ⟨hbefore, hoccurs, hless, fun o ho hpo => ?_⟩, ?_, hafter⟩
  · by_contra hlt
    exact absurd hpo (not_lt.mpr (hlast o ho (not_le.mp hlt)))
  · by_contra hlt
    exact absurd hless (not_lt.mpr (hnearest p hbefore (not_le.mp hlt)))

/-- A gap of a day or more has an anchor in it, if it ends after the first anchor and begins
no later than the last. -/
theorem exists_anchor {p n : Time} (hlong : dayLength ≤ n - p) {days : Nat}
    (hbegin : p ≤ current + days * dayLength) (hend : current < n) :
    ∃ day, day ≤ days ∧ p ≤ current + day * dayLength ∧ current + day * dayLength < n := by
  classical
  have hreached : ∃ day : Nat, p ≤ current + day * dayLength := ⟨days, hbegin⟩
  refine ⟨Nat.find hreached, Nat.find_min' hreached hbegin, Nat.find_spec hreached, ?_⟩
  -- the day before, if there is one, the anchor had not reached the gap
  cases hday : Nat.find hreached with
  | zero => simpa using hend
  | succ before =>
    have hnot := not_le.mp (@Nat.find_min _ _ hreached before (hday ▸ Nat.lt_succ_self before))
    have hstep : ((before + 1 : Nat) : Int) * dayLength = before * dayLength + dayLength := by
      rw [Nat.cast_succ, add_mul, one_mul]
    rw [hstep]
    linarith

/-! ### The largest distance -/

/-- The fold keeps the largest of the distances it finds. -/
theorem maxInterval_spec (h : NearestOccurrences s occurs) (days : List Nat) (longest : Time) :
    ∃ m, maxInterval s current days longest = some m ∧ longest ≤ m ∧
      (∀ day ∈ days, ∀ interval, intervalAt s (current + day * dayLength) = some interval →
        interval ≤ m) ∧
      (m = longest ∨ ∃ day ∈ days, intervalAt s (current + day * dayLength) = some m) := by
  induction days generalizing longest with
  | nil => exact ⟨longest, rfl, le_refl _, fun _ h => (List.not_mem_nil h).elim, Or.inl rfl⟩
  | cons day rest ih =>
    obtain ⟨p, n, hgap, hfirst, hsecond⟩ := exists_around h (current + day * dayLength)
    have hseen := intervalAt_between h hgap hfirst hsecond
    obtain ⟨m, hm, hle, hall, hfound⟩ := ih (max longest (n - p))
    refine ⟨m, ?_, (le_max_left _ _).trans hle, fun d hd interval hinterval => ?_, ?_⟩
    · rw [maxInterval, hseen, Option.bind_some]
      exact hm
    · rcases List.mem_cons.mp hd with rfl | hlater
      · obtain rfl := Option.some.inj (hseen.symm.trans hinterval)
        exact (le_max_right _ _).trans hle
      · exact hall d hlater interval hinterval
    · rcases hfound with hmax | ⟨d, hd, hinterval⟩
      · rcases max_choice longest (n - p) with hkeep | htake
        · exact Or.inl (hmax.trans hkeep)
        · refine Or.inr ⟨day, List.mem_cons_self, ?_⟩
          rw [hmax, htake]
          exact hseen
      · exact Or.inr ⟨d, List.mem_cons_of_mem _ hd, hinterval⟩

/-- The gaps the plan has to find: a day or longer, not over yet, and begun when the last
anchor is reached. -/
structure PlanGap (occurs : Time → Prop) (current p n : Time) : Prop where
  consecutive : Consecutive occurs p n
  long : dayLength ≤ n - p
  began : p ≤ current + 366 * dayLength
  lasts : current < n

theorem scheduleView_spec (h : NearestOccurrences s occurs) (hactive : s.active = true)
    (hvalid : s.valid = true) :
    (scheduleView s current).scheduleError = false ∧
      (∃ p n, Consecutive occurs p n ∧ p ≤ current + 366 * dayLength ∧ current < n ∧
        (scheduleView s current).maxInterval = n - p) ∧
      ∀ p n, PlanGap occurs current p n → n - p ≤ (scheduleView s current).maxInterval := by
  obtain ⟨first, hfirst, _⟩ := h.next current
  obtain ⟨following, hfollowing, _⟩ := h.next first
  obtain ⟨m, hm, _, hall, hfound⟩ := @maxInterval_spec s occurs current h (List.range 367) 0
  have hview : scheduleView s current = ⟨[first, following], m, false⟩ := by
    unfold scheduleView
    simp only [hactive, if_true, hvalid, Bool.not_true, Bool.false_eq_true, if_false, hfirst,
      hfollowing, hm, Option.bind_eq_bind, Option.bind_some, Option.getD_some]
  rw [hview]
  refine ⟨rfl, ?_, fun p n hgap => ?_⟩
  · have hpos : ∀ p n, Consecutive occurs p n → 0 < n - p := fun p n hgap => by
      have hlt := hgap.lt
      linarith
    -- the first anchor already finds a distance, so the starting value is not the largest
    have hzero : m ≠ 0 := by
      obtain ⟨p, n, hgap, hbefore, hafter⟩ := exists_around h (current + (0 : Nat) * dayLength)
      have hle := hall 0 (by simp) _ (intervalAt_between h hgap hbefore hafter)
      exact ((hpos p n hgap).trans_le hle).ne'
    obtain ⟨day, hday, hinterval⟩ := hfound.resolve_left hzero
    obtain ⟨p, n, hgap, hbefore, hafter⟩ := exists_around h (current + day * dayLength)
    have hseen := intervalAt_between h hgap hbefore hafter
    have hlast : day ≤ 366 := Nat.lt_succ_iff.mp (List.mem_range.mp hday)
    have hlength : 0 < dayLength := by decide
    have hanchor : (day : Int) * dayLength ≤ 366 * dayLength :=
      mul_le_mul_of_nonneg_right (by exact_mod_cast hlast) hlength.le
    have hstart : 0 ≤ (day : Int) * dayLength :=
      mul_nonneg (Int.natCast_nonneg day) hlength.le
    refine ⟨p, n, hgap, by linarith, by linarith, ?_⟩
    exact (Option.some.inj (hseen.symm.trans hinterval)).symm
  · obtain ⟨day, hday, hbefore, hafter⟩ :=
      @exists_anchor current p n hgap.long 366 hgap.began hgap.lasts
    exact hall day (List.mem_range.mpr (Nat.lt_succ_iff.mpr hday)) _
      (intervalAt_between h hgap.consecutive hbefore hafter)

theorem gapWarning_iff (h : NearestOccurrences s occurs) (hactive : s.active = true)
    (hvalid : s.valid = true) (current : Time) :
    (scheduleView s current).gapWarning = true ↔
      ∃ p n, PlanGap occurs current p n ∧ maxEvidenceAge ≤ n - p := by
  obtain ⟨_, ⟨p, n, hgap, hbefore, hafter, hmax⟩, hall⟩ :=
    @scheduleView_spec s occurs current h hactive hvalid
  unfold ScheduleView.gapWarning
  rw [decide_eq_true_iff]
  constructor
  · intro hage
    rw [hmax] at hage
    have hday : dayLength ≤ maxEvidenceAge := by decide
    exact ⟨p, n, ⟨hgap, hday.trans hage, hbefore, hafter⟩, hage⟩
  · rintro ⟨p', n', hgap', hage⟩
    exact hage.trans (hall p' n' hgap')

end Gaps

/-! ### A schedule at midnight -/

section Midnights

/-- The next day behind `d` that the schedule runs on, within a week. -/
def dayAfter (runsOn : Int → Bool) (d : Int) : Option Int :=
  ((List.range 7).find? fun k : Nat => runsOn (d + 1 + k)).map fun k : Nat => d + 1 + k

def dayBefore (runsOn : Int → Bool) (d : Int) : Option Int :=
  ((List.range 7).find? fun k : Nat => runsOn (d - 1 - k)).map fun k : Nat => d - 1 - k

/-- A schedule that runs at midnight, universal time, of the days it runs on. -/
def midnightSchedule (runsOn : Int → Bool) : CheckSchedule where
  active := true
  valid := true
  next t := (dayAfter runsOn (t / dayLength)).map (· * dayLength)
  prev t := (dayBefore runsOn ((t - 1) / dayLength + 1)).map (· * dayLength)

def Midnights (runsOn : Int → Bool) (t : Time) : Prop :=
  ∃ d : Int, runsOn d = true ∧ t = d * dayLength

variable {runsOn : Int → Bool}

theorem dayAfter_spec (hweekly : ∀ d, ∃ k < 7, runsOn (d + (k : Nat)) = true) (d : Int) :
    ∃ n, dayAfter runsOn d = some n ∧ runsOn n = true ∧ d < n ∧
      ∀ o, runsOn o = true → d < o → n ≤ o := by
  cases hfind : (List.range 7).find? fun k : Nat => runsOn (d + 1 + k) with
  | none =>
    obtain ⟨k, hk, hruns⟩ := hweekly (d + 1)
    have hnot := List.find?_range_eq_none.mp hfind k hk
    rw [hruns] at hnot
    cases hnot
  | some k =>
    obtain ⟨hruns, _, hnot⟩ := List.find?_range_eq_some.mp hfind
    refine ⟨d + 1 + k, ?_, hruns, by omega, fun o ho hafter => ?_⟩
    · unfold dayAfter
      rw [hfind]
      rfl
    · by_contra hlt
      have hearlier := hnot (o - d - 1).toNat (by omega)
      rw [show d + 1 + ((o - d - 1).toNat : Int) = o by omega, ho] at hearlier
      cases hearlier

theorem dayBefore_spec (hweekly : ∀ d, ∃ k < 7, runsOn (d + (k : Nat)) = true) (d : Int) :
    ∃ p, dayBefore runsOn d = some p ∧ runsOn p = true ∧ p < d ∧
      ∀ o, runsOn o = true → o < d → o ≤ p := by
  cases hfind : (List.range 7).find? fun k : Nat => runsOn (d - 1 - k) with
  | none =>
    obtain ⟨k, hk, hruns⟩ := hweekly (d - 7)
    have hnot := List.find?_range_eq_none.mp hfind (6 - k) (by omega)
    rw [show d - 1 - ((6 - k : Nat) : Int) = d - 7 + k by omega, hruns] at hnot
    cases hnot
  | some k =>
    obtain ⟨hruns, _, hnot⟩ := List.find?_range_eq_some.mp hfind
    refine ⟨d - 1 - k, ?_, hruns, by omega, fun o ho hbefore => ?_⟩
    · unfold dayBefore
      rw [hfind]
      rfl
    · by_contra hlt
      have hlater := hnot (d - 1 - o).toNat (by omega)
      rw [show d - 1 - ((d - 1 - o).toNat : Int) = o by omega, ho] at hlater
      cases hlater

theorem midnights_nearest (hweekly : ∀ d, ∃ k < 7, runsOn (d + (k : Nat)) = true) :
    NearestOccurrences (midnightSchedule runsOn) (Midnights runsOn) := by
  have hlength : 0 < dayLength := by decide
  refine ⟨fun t => ?_, fun t => ?_, ?_⟩
  · obtain ⟨n, hnext, hruns, hafter, hnearest⟩ := dayAfter_spec hweekly (t / dayLength)
    refine ⟨n * dayLength, ?_, ⟨n, hruns, rfl⟩, Int.lt_mul_of_ediv_lt hlength hafter, ?_⟩
    · show (dayAfter runsOn (t / dayLength)).map (· * dayLength) = _
      rw [hnext]
      rfl
    · rintro o ⟨d, hd, rfl⟩ hlt
      exact mul_le_mul_of_nonneg_right (hnearest d hd (Int.ediv_lt_of_lt_mul hlength hlt))
        hlength.le
  · obtain ⟨p, hprev, hruns, hbefore, hlast⟩ :=
      dayBefore_spec hweekly ((t - 1) / dayLength + 1)
    refine ⟨p * dayLength, ?_, ⟨p, hruns, rfl⟩, ?_, ?_⟩
    · show (dayBefore runsOn ((t - 1) / dayLength + 1)).map (· * dayLength) = _
      rw [hprev]
      rfl
    · have hle := Int.mul_le_of_le_ediv hlength (Int.lt_add_one_iff.mp hbefore)
      exact Int.lt_of_le_sub_one hle
    · rintro o ⟨d, hd, rfl⟩ hlt
      refine mul_le_mul_of_nonneg_right (hlast d hd ?_) hlength.le
      exact Int.lt_add_one_iff.mpr ((Int.le_ediv_iff_mul_le hlength).mpr (Int.le_sub_one_of_lt hlt))
  · rintro _ _ ⟨d, _, rfl⟩ ⟨e, _, rfl⟩ hlt
    have hde : d < e := lt_of_mul_lt_mul_right hlt hlength.le
    have hstep : (d + 1) * dayLength ≤ e * dayLength :=
      mul_le_mul_of_nonneg_right (Int.add_one_le_iff.mpr hde) hlength.le
    have hroom : second < dayLength := by decide
    linarith

end Midnights

/-- The day of the month of a day since 1970-01-01. -/
def dayOfMonth (d : Int) : Int :=
  let z := d + 719468
  let dayOfEra := z - z / 146097 * 146097
  let yearOfEra :=
    (dayOfEra - dayOfEra / 1460 + dayOfEra / 36524 - dayOfEra / 146096) / 365
  let dayOfYear := dayOfEra - (365 * yearOfEra + yearOfEra / 4 - yearOfEra / 100)
  let month := (5 * dayOfYear + 2) / 153
  dayOfYear - (153 * month + 2) / 5 + 1

/-- The day of the week, Sunday as zero. -/
def dayOfWeek (d : Int) : Int := (d + 4) % 7

/-- `0 0 1-25 * 1`: the first twenty-five days of a month, and Mondays. -/
def runsUntil25th (d : Int) : Bool := dayOfMonth d ≤ 25 || dayOfWeek d = 1

theorem runsUntil25th_weekly (d : Int) : ∃ k < 7, runsUntil25th (d + (k : Nat)) = true := by
  refine ⟨((4 - d) % 7).toNat, by omega, ?_⟩
  have hmonday : dayOfWeek (d + ((4 - d) % 7).toNat) = 1 := by
    unfold dayOfWeek
    omega
  unfold runsUntil25th
  rw [hmonday, Bool.or_eq_true]
  exact Or.inr rfl

example : dayOfMonth 20325 = 25 ∧ dayOfWeek 20325 = 1 := by decide

/-! ### The warning -/

/-- **The plan finds the longest gap**: for a schedule that is switched on and accepted, the
distance it shows is that of two neighbouring occurrences; no gap of a day or more is
longer, of those that end after now and begin within 366 days, the last moment included;
and it warns exactly if one of these reaches the time a proof is good for. -/
theorem scheduleView_gaps {s : CheckSchedule} {occurs : Time → Prop}
    (h : NearestOccurrences s occurs) (hactive : s.active = true) (hvalid : s.valid = true)
    (current : Time) :
    (scheduleView s current).scheduleError = false ∧
      (∃ p n, Consecutive occurs p n ∧ (scheduleView s current).maxInterval = n - p) ∧
      (∀ p n, PlanGap occurs current p n → n - p ≤ (scheduleView s current).maxInterval) ∧
      ((scheduleView s current).gapWarning = true ↔
        ∃ p n, PlanGap occurs current p n ∧ maxEvidenceAge ≤ n - p) := by
  obtain ⟨hfine, ⟨p, n, hgap, hbefore, hafter, hmax⟩, hall⟩ :=
    @scheduleView_spec s occurs current h hactive hvalid
  exact ⟨hfine, ⟨p, n, hgap, hmax⟩, hall, gapWarning_iff h hactive hvalid current⟩

theorem scheduleView_gaps_until25th :
    (scheduleView (midnightSchedule runsUntil25th) 0).scheduleError = false ∧
      (∃ p n, Consecutive (Midnights runsUntil25th) p n ∧
        (scheduleView (midnightSchedule runsUntil25th) 0).maxInterval = n - p) ∧
      (∀ p n, PlanGap (Midnights runsUntil25th) 0 p n →
        n - p ≤ (scheduleView (midnightSchedule runsUntil25th) 0).maxInterval) ∧
      ((scheduleView (midnightSchedule runsUntil25th) 0).gapWarning = true ↔
        ∃ p n, PlanGap (Midnights runsUntil25th) 0 p n ∧ maxEvidenceAge ≤ n - p) :=
  scheduleView_gaps (midnights_nearest runsUntil25th_weekly) rfl rfl 0

/-- 2024-08-24, midnight: 366 days before a 25th of August that is a Monday. -/
def lastAnchorNow : Time := 19959 * dayLength

theorem noLongGap_half : ∀ k < 186, runsUntil25th (19953 + (k : Nat)) = true →
    ∃ j < 6, runsUntil25th (19953 + (k : Nat) + 1 + (j : Nat)) = true := by
  decide +kernel

theorem noLongGap_rest : ∀ k < 186, runsUntil25th (20139 + (k : Nat)) = true →
    ∃ j < 6, runsUntil25th (20139 + (k : Nat) + 1 + (j : Nat)) = true := by
  decide +kernel

/-- Until the last anchor, no day of the schedule is followed by six days without it. -/
theorem noLongGap_before : ∀ k < 372, runsUntil25th (19953 + (k : Nat)) = true →
    ∃ j < 6, runsUntil25th (19953 + (k : Nat) + 1 + (j : Nat)) = true := by
  intro k hk
  by_cases hhalf : k < 186
  · exact noLongGap_half k hhalf
  · have hrest := noLongGap_rest (k - 186) (by omega)
    have hday : (20139 : Int) + ((k - 186 : Nat) : Int) = 19953 + (k : Int) := by omega
    rwa [hday] at hrest

/-- The 25th of August 2025 is. -/
theorem longGap_after : runsUntil25th 20325 = true ∧ runsUntil25th 20332 = true ∧
    ∀ j < 6, runsUntil25th (20326 + (j : Nat)) = false := by
  decide +kernel

/-- **A gap that begins at the last anchor is seen**, though it does not begin before it: on
2024-08-24, `0 0 1-25 * 1` leads to the warning, and the only gap of seven days in sight
begins 366 days later to the second. -/
theorem scheduleView_lastAnchor :
    NearestOccurrences (midnightSchedule runsUntil25th) (Midnights runsUntil25th) ∧
      (scheduleView (midnightSchedule runsUntil25th) lastAnchorNow).gapWarning = true ∧
      ¬ ∃ p n, Consecutive (Midnights runsUntil25th) p n ∧ dayLength ≤ n - p ∧
        p < lastAnchorNow + 366 * dayLength ∧ lastAnchorNow < n ∧ maxEvidenceAge ≤ n - p := by
  have hnear := midnights_nearest runsUntil25th_weekly
  have hlength : 0 < dayLength := by decide
  refine ⟨hnear, ?_, ?_⟩
  · obtain ⟨hfirst, hsecond, hnone⟩ := longGap_after
    refine (gapWarning_iff hnear rfl rfl lastAnchorNow).mpr ⟨20325 * dayLength, 20332 * dayLength,
      ⟨⟨⟨20325, hfirst, rfl⟩, ⟨20332, hsecond, rfl⟩, by decide, ?_⟩, by decide, by decide,
        by decide⟩, by decide⟩
    rintro o ⟨d, hd, rfl⟩ hlt
    have hafter : 20325 < d := lt_of_mul_lt_mul_right hlt hlength.le
    have hlate : 20332 ≤ d := by
      by_contra hearly
      have hnot := hnone (d - 20326).toNat (by omega)
      rw [show (20326 : Int) + (d - 20326).toNat = d by omega, hd] at hnot
      cases hnot
    exact mul_le_mul_of_nonneg_right hlate hlength.le
  · rintro ⟨p, n, hgap, _, hbegin, hend, hage⟩
    obtain ⟨d, hd, rfl⟩ := hgap.first
    obtain ⟨e, _, rfl⟩ := hgap.second
    have hbegin : d < 19959 + 366 := by
      refine lt_of_mul_lt_mul_right ?_ hlength.le
      rw [add_mul]
      exact hbegin
    have hend : 19959 < e := lt_of_mul_lt_mul_right hend hlength.le
    have hweek : 7 ≤ e - d := by
      refine le_of_mul_le_mul_right ?_ hlength
      rw [sub_mul]
      exact hage
    -- the schedule runs every Monday, so the gap is not longer than a week
    have hruns : ∀ o, runsUntil25th o = true → d < o → e ≤ o := fun o ho hlt =>
      le_of_mul_le_mul_right
        (hgap.nearest (o * dayLength) ⟨o, ho, rfl⟩ (mul_lt_mul_of_pos_right hlt hlength)) hlength
    obtain ⟨k, hk, hmonday⟩ := runsUntil25th_weekly (d + 1)
    have hshort := hruns _ hmonday (by omega)
    have hday : (19953 : Int) + (d - 19953).toNat = d := by omega
    obtain ⟨j, hj, hagain⟩ := noLongGap_before (d - 19953).toNat (by omega) (hday.symm ▸ hd)
    rw [hday] at hagain
    have hsooner := hruns _ hagain (by omega)
    omega

end RcloneSync
