import ForestPanel.TrafficReset.CycleLaws

/-!
# The reset day that is shown

The days to the next reset, counted apart from the sweep: within the month by the numbers of
the days, over the year by the seconds between two times. They agree with the anchors but for
the days that February lacks, and for the part of a day that a division drops.
-/
namespace ForestPanel.TrafficReset

open Calendar

/-- The length of the month of a time, by the day before the next one. -/
def lastDayOf (zone : Zone) (t : Int) : Int :=
  dayOf (zone.day (zone.date (monthOf (zone.day t) + 1) 0))

def calcResetDayByMonthFirstDay (zone : Zone) (now : Int) : Int :=
  lastDayOf zone now - dayOf (zone.day now)

def calcResetDayByExpireDay (zone : Zone) (expiredAt now : Int) : Int :=
  let day := dayOf (zone.day expiredAt)
  let today := dayOf (zone.day now)
  let lastDay := lastDayOf zone now
  if today ≤ day ∧ lastDay ≤ day then lastDay - today
  else if today ≤ day then day - today
  else lastDay - today + day

def calcResetDayByYearFirstDay (zone : Zone) (now : Int) : Int :=
  (zone.date (12 * (monthOf (zone.day now) / 12 + 1)) 1 - now).tdiv 86400

/-- The start of the year 1, in UTC: the time that goes with an error. -/
def zeroTime : Int := -62135596800

/-- `time.ParseInLocation` of the year and the month and day of a date, in its decimal text:
the year has four digits and the day is one of the month. -/
def parseInLocation (zone : Zone) (year month day : Int) : Option Int :=
  if 1000 ≤ year ∧ year ≤ 9999 ∧ day ≤ daysIn (12 * year + month) then
    some (zone.date (12 * year + month) day)
  else none

def calcResetDayByYearExpiredAt (zone : Zone) (expiredAt now : Int) : Int :=
  let target := zone.day expiredAt
  let parsed := parseInLocation zone (monthOf (zone.day now) / 12) (monthOf target % 12)
    (dayOf target)
  -- the error is dropped, and a year after the zero time is the year 2
  let nowYear := parsed.getD zeroTime
  let nextYear := match parsed with
    | some t => zone.addMonths t 12
    | none => zeroTime + 365 * 86400
  if now < nowYear then (nowYear - now).tdiv 86400 else (nextYear - now).tdiv 86400

def NextAnchor (zone : Zone) (method expiredAt start d : Int) : Prop :=
  (∃ k, d = anchorDay zone method expiredAt k) ∧ start ≤ d ∧
    ∀ k, start ≤ anchorDay zone method expiredAt k → d ≤ anchorDay zone method expiredAt k

/-- The days to the next anchor, from today or, when today's is done, from tomorrow on. -/
def ShowsNext (zone : Zone) (method expiredAt now days : Int) : Prop :=
  NextAnchor zone method expiredAt (zone.day now) (zone.day now + days) ∨
    NextAnchor zone method expiredAt (zone.day now + 1) (zone.day now + days)

/-- A day of January past the day of the expiry, which February does not have. -/
def BeforeFebruary (zone : Zone) (expiredAt now : Int) : Prop :=
  let today := zone.day now
  monthOf today % 12 = 0 ∧ daysIn (monthOf today + 1) < dayOf (zone.day expiredAt) ∧
    dayOf (zone.day expiredAt) < dayOf today

def OnLeapDay (zone : Zone) (expiredAt : Int) : Prop :=
  monthOf (zone.day expiredAt) % 12 = 1 ∧ dayOf (zone.day expiredAt) = 29

instance (zone : Zone) (expiredAt : Int) : Decidable (OnLeapDay zone expiredAt) :=
  inferInstanceAs (Decidable (_ ∧ _))

/-- It is midnight. With an expiry on 29 February, the year is a leap year, and from that day
on it is not midnight. -/
def WholeDays (zone : Zone) (expiredAt now : Int) : Prop :=
  let year := monthOf (zone.day now) / 12
  year ≤ 9999 ∧
    if OnLeapDay zone expiredAt then
      isLeap year ∧ (zone.second now = 0 ↔ zone.day now < monthStart (12 * year + 1) + 28)
    else zone.second now = 0

theorem lastDayOf_eq (zone : Zone) (t : Int) :
    lastDayOf zone t = daysIn (monthOf (zone.day t)) := by
  have last : zone.day (zone.date (monthOf (zone.day t) + 1) 0) =
      monthStart (monthOf (zone.day t) + 1) - 1 := by
    rw [Zone.date, Zone.day_midnight]
    omega
  rw [lastDayOf, last, dayOf_last]

private theorem anchorDay_le (zone : Zone) (method expiredAt : Int) {j k : Int} (order : j ≤ k) :
    anchorDay zone method expiredAt j ≤ anchorDay zone method expiredAt k := by
  rcases Int.lt_or_eq_of_le order with before | same
  · exact Int.le_of_lt (anchorDay_lt zone method expiredAt before)
  · rw [same]

section

variable {zone : Zone} {method expiredAt now : Int}

private theorem nextAnchor_iff {start k : Int}
    (before : anchorDay zone method expiredAt (k - 1) < start)
    (here : start ≤ anchorDay zone method expiredAt k) (d : Int) :
    NextAnchor zone method expiredAt start d ↔ d = anchorDay zone method expiredAt k := by
  have least : ∀ j, start ≤ anchorDay zone method expiredAt j →
      anchorDay zone method expiredAt k ≤ anchorDay zone method expiredAt j := by
    intro j later
    apply anchorDay_le
    by_contra earlier
    have order := anchorDay_le zone method expiredAt (show j ≤ k - 1 by omega)
    omega
  constructor
  · rintro ⟨⟨j, rfl⟩, later, first⟩
    exact Int.le_antisymm (first k here) (least j later)
  · rintro rfl
    exact ⟨⟨k, rfl⟩, here, least⟩

private theorem showsNext_iff {k : Int}
    (before : anchorDay zone method expiredAt (k - 1) < zone.day now)
    (here : zone.day now ≤ anchorDay zone method expiredAt k) (days : Int) :
    ShowsNext zone method expiredAt now days ↔
      zone.day now + days = anchorDay zone method expiredAt k ∨
        zone.day now = anchorDay zone method expiredAt k ∧
          zone.day now + days = anchorDay zone method expiredAt (k + 1) := by
  have next := (anchorDay_succ zone method expiredAt k).1
  rw [ShowsNext, nextAnchor_iff before here]
  by_cases today : zone.day now = anchorDay zone method expiredAt k
  · rw [nextAnchor_iff (k := k + 1) (by rw [Int.add_sub_cancel]; omega) (by omega)]
    simp only [today, true_and]
  · rw [nextAnchor_iff (k := k) (by omega) (by omega)]
    simp only [today, false_and, or_false, or_self]

end

private theorem january_of_long {m : Int} (long : daysIn (m + 1) + 2 ≤ daysIn m) :
    m % 12 = 0 := by
  rw [daysIn_eq, daysIn_eq] at long
  split_ifs at long <;> omega

private theorem expireDay_shows (zone : Zone) (expiredAt now : Int) :
    ShowsNext zone 1 expiredAt now (calcResetDayByExpireDay zone expiredAt now) ↔
      ¬BeforeFebruary zone expiredAt now := by
  have anchors : ∀ k, anchorDay zone 1 expiredAt k = clippedDay k (dayOf (zone.day expiredAt)) :=
    fun _ => rfl
  unfold calcResetDayByExpireDay BeforeFebruary
  dsimp only
  rw [lastDayOf_eq]
  have positive := (dayOf_bounds (zone.day expiredAt)).1
  have whole := monthStart_add_dayOf (zone.day now)
  have within := dayOf_bounds (zone.day now)
  have starts := monthStart_succ (monthOf (zone.day now))
  by_cases later : dayOf (zone.day now) ≤ dayOf (zone.day expiredAt)
  · -- the anchor of this month
    have before := clippedDay_bounds (monthOf (zone.day now) - 1) positive
    rw [Int.sub_add_cancel] at before
    have here : anchorDay zone 1 expiredAt (monthOf (zone.day now)) =
        monthStart (monthOf (zone.day now)) +
          min (dayOf (zone.day expiredAt)) (daysIn (monthOf (zone.day now))) - 1 := rfl
    rw [showsNext_iff (k := monthOf (zone.day now)) (by rw [anchors]; omega) (by omega)]
    have shown : ∀ february : Prop, ¬(monthOf (zone.day now) % 12 = 0 ∧ february ∧
        dayOf (zone.day expiredAt) < dayOf (zone.day now)) := fun _ h => by omega
    simp only [shown, not_false_eq_true, iff_true]
    left
    split
    · omega
    · omega
  · -- the anchor of the next month
    have before : anchorDay zone 1 expiredAt (monthOf (zone.day now)) =
        monthStart (monthOf (zone.day now)) +
          min (dayOf (zone.day expiredAt)) (daysIn (monthOf (zone.day now))) - 1 := rfl
    have here : anchorDay zone 1 expiredAt (monthOf (zone.day now) + 1) =
        monthStart (monthOf (zone.day now) + 1) +
          min (dayOf (zone.day expiredAt)) (daysIn (monthOf (zone.day now) + 1)) - 1 := rfl
    have short := daysIn_bounds (monthOf (zone.day now) + 1)
    rw [showsNext_iff (k := monthOf (zone.day now) + 1) (by rw [Int.add_sub_cancel]; omega)
      (by omega), if_neg (fun h => later h.1), if_neg later]
    constructor
    · rintro (shown | ⟨today, -⟩)
      · rintro ⟨january, missing, past⟩
        omega
      · omega
    · intro shown
      left
      by_contra missed
      have missing : daysIn (monthOf (zone.day now) + 1) < dayOf (zone.day expiredAt) := by omega
      exact shown ⟨january_of_long (by omega), missing, by omega⟩

private theorem tdiv_midnight (zone : Zone) {d now : Int} (ahead : now ≤ zone.midnight d) :
    (zone.midnight d - now).tdiv 86400 =
      d - zone.day now - if zone.second now = 0 then 0 else 1 := by
  have now' := zone.midnight_add_second now
  have second := zone.second_bounds now
  rw [Int.tdiv_eq_ediv_of_nonneg (by omega)]
  unfold Zone.midnight at *
  split <;> omega

private theorem fits_every_year {d m : Int} (month : m % 12 = monthOf d % 12)
    (common : ¬(monthOf d % 12 = 1 ∧ dayOf d = 29)) : dayOf d ≤ daysIn m := by
  have within := (dayOf_bounds d).2
  rw [daysIn_eq] at within ⊢
  rw [month]
  split_ifs at within ⊢ <;> omega

private theorem leapDay_fits {m : Int} (february : m % 12 = 1) :
    29 ≤ daysIn m ↔ isLeap (m / 12) := by
  rw [daysIn_eq, if_pos february]
  split <;> simp_all

private theorem not_isLeap_succ {year : Int} (leap : isLeap year) : ¬isLeap (year + 1) := by
  unfold isLeap at *
  omega

private theorem year_of_clock (zone : Zone) (now : Nat) :
    1000 ≤ monthOf (zone.day now) / 12 := by
  by_contra early
  have before : monthOf (zone.day now) + 1 ≤ 12 * 1000 := by omega
  have ends := (monthOf_spec (zone.day now)).2
  have order := monthStart_le before
  rw [monthStart_year] at order
  have bounds := zone.bounded
  have start : yearStart 1000 = -354285 := by decide
  unfold Zone.day at *
  omega

private theorem yearExpiredAt_neg {zone : Zone} {expiredAt : Int} {now : Nat}
    (unparsed : parseInLocation zone (monthOf (zone.day now) / 12)
      (monthOf (zone.day expiredAt) % 12) (dayOf (zone.day expiredAt)) = none) :
    calcResetDayByYearExpiredAt zone expiredAt now < 0 := by
  unfold calcResetDayByYearExpiredAt
  dsimp only
  rw [unparsed, Option.getD_none, if_neg (by unfold zeroTime; omega)]
  unfold zeroTime
  have turned : (-62135596800 + 365 * 86400 - (now : Int)) = -(62104060800 + now) := by omega
  dsimp only
  rw [turned, Int.neg_tdiv, Int.tdiv_eq_ediv_of_nonneg (by omega)]
  omega

private theorem not_showsNext_of_neg {zone : Zone} {method expiredAt now days : Int}
    (past : days < 0) : ¬ShowsNext zone method expiredAt now days := by
  rintro (⟨-, here, -⟩ | ⟨-, here, -⟩)
  · omega
  · omega

private theorem addMonths_date (zone : Zone) {m day : Int} (positive : 1 ≤ day)
    (fits : day ≤ daysIn m) (k : Int) :
    zone.addMonths (zone.date m day) k = zone.date (m + k) day := by
  have starts := monthStart_succ m
  have started : monthStart m ≤ monthStart m + day - 1 := by omega
  have ends : monthStart m + day - 1 < monthStart (m + 1) := by omega
  have shown : zone.day (zone.date m day) = monthStart m + day - 1 := zone.day_midnight _
  have second : zone.second (zone.date m day) = 0 := zone.second_midnight _
  have number : monthStart m + day - 1 - monthStart m + 1 = day := by omega
  rw [Zone.addMonths, shown, second, monthOf_eq started ends, dayOf_eq started ends, number,
    Int.add_zero]

private theorem yearExpiredAt_of_date {zone : Zone} {expiredAt now : Int}
    (clock : 1000 ≤ monthOf (zone.day now) / 12) (digits : monthOf (zone.day now) / 12 ≤ 9999)
    (fits : dayOf (zone.day expiredAt) ≤
      daysIn (12 * (monthOf (zone.day now) / 12) + monthOf (zone.day expiredAt) % 12)) :
    calcResetDayByYearExpiredAt zone expiredAt now =
      (let m := 12 * (monthOf (zone.day now) / 12) + monthOf (zone.day expiredAt) % 12
      let d := monthStart m + dayOf (zone.day expiredAt) - 1
      (if zone.day now < d then d else monthStart (m + 12) + dayOf (zone.day expiredAt) - 1) -
        zone.day now - if zone.second now = 0 then 0 else 1) := by
  have positive := (dayOf_bounds (zone.day expiredAt)).1
  have ends := (monthOf_spec (zone.day now)).2
  have order := @monthStart_le (monthOf (zone.day now) + 1)
    (12 * (monthOf (zone.day now) / 12) + monthOf (zone.day expiredAt) % 12 + 12) (by omega)
  have parsed : parseInLocation zone (monthOf (zone.day now) / 12)
      (monthOf (zone.day expiredAt) % 12) (dayOf (zone.day expiredAt)) = some (zone.date
        (12 * (monthOf (zone.day now) / 12) + monthOf (zone.day expiredAt) % 12)
        (dayOf (zone.day expiredAt))) := by
    rw [parseInLocation, if_pos ⟨clock, digits, fits⟩]
  unfold calcResetDayByYearExpiredAt
  dsimp only
  rw [parsed, Option.getD_some]
  dsimp only
  rw [addMonths_date zone positive fits]
  unfold Zone.date
  simp only [zone.lt_midnight_iff]
  split
  next coming => exact tdiv_midnight zone (Int.le_of_lt ((zone.lt_midnight_iff _ _).mpr coming))
  next come => exact tdiv_midnight zone (Int.le_of_lt ((zone.lt_midnight_iff _ _).mpr (by omega)))

/-- The anchors of three years, when the date is one in this year. A day is the anchor of the
next year but after 29 February. -/
private theorem anchors_of_date {zone : Zone} {expiredAt now : Int}
    (fits : dayOf (zone.day expiredAt) ≤
      daysIn (12 * (monthOf (zone.day now) / 12) + monthOf (zone.day expiredAt) % 12)) :
    let year := monthOf (zone.day now) / 12
    let m := 12 * year + monthOf (zone.day expiredAt) % 12
    anchorDay zone 4 expiredAt (year - 1) < zone.day now ∧
      anchorDay zone 4 expiredAt year = monthStart m + dayOf (zone.day expiredAt) - 1 ∧
      zone.day now < anchorDay zone 4 expiredAt (year + 1) ∧
      anchorDay zone 4 expiredAt (year + 1) = monthStart (m + 12) + dayOf (zone.day expiredAt) - 1 -
        if OnLeapDay zone expiredAt then 1 else 0 := by
  have anchors : ∀ k, anchorDay zone 4 expiredAt k =
      clippedDay (12 * k + monthOf (zone.day expiredAt) % 12) (dayOf (zone.day expiredAt)) :=
    fun _ => rfl
  obtain ⟨started, ends⟩ := monthOf_spec (zone.day now)
  have bounds : 12 * (monthOf (zone.day now) / 12) ≤ monthOf (zone.day now) ∧
      monthOf (zone.day now) + 1 ≤ 12 * (monthOf (zone.day now) / 12 + 1) := by omega
  have opens := monthStart_le bounds.1
  have closes := monthStart_le bounds.2
  have positive := (dayOf_bounds (zone.day expiredAt)).1
  have range : 0 ≤ monthOf (zone.day expiredAt) % 12 ∧
    monthOf (zone.day expiredAt) % 12 < 12 := by omega
  dsimp only
  generalize monthOf (zone.day now) / 12 = year at *
  have next : 12 * (year + 1) + monthOf (zone.day expiredAt) % 12 =
      12 * year + monthOf (zone.day expiredAt) % 12 + 12 := by omega
  have within : (12 * year + monthOf (zone.day expiredAt) % 12) % 12 =
        monthOf (zone.day expiredAt) % 12 ∧
      (12 * year + monthOf (zone.day expiredAt) % 12) / 12 = year ∧
      (12 * year + monthOf (zone.day expiredAt) % 12 + 12) % 12 =
        monthOf (zone.day expiredAt) % 12 ∧
      (12 * year + monthOf (zone.day expiredAt) % 12 + 12) / 12 = year + 1 := by omega
  refine ⟨?_, ?_, ?_, ?_⟩
  · have past := clippedDay_bounds (12 * (year - 1) + monthOf (zone.day expiredAt) % 12) positive
    have order := @monthStart_le (12 * (year - 1) + monthOf (zone.day expiredAt) % 12 + 1)
      (12 * year) (by omega)
    rw [anchors]
    omega
  · rw [anchors, clippedDay, min_eq_left fits]
  · have later := clippedDay_bounds (12 * (year + 1) + monthOf (zone.day expiredAt) % 12) positive
    have order := @monthStart_le (12 * (year + 1))
      (12 * (year + 1) + monthOf (zone.day expiredAt) % 12) (by omega)
    rw [anchors]
    omega
  · rw [anchors, next, clippedDay]
    split
    next leapDay =>
      have leap : isLeap year := by
        rw [leapDay.2, leapDay_fits (within.1.trans leapDay.1), within.2.1] at fits
        exact fits
      have common : daysIn (12 * year + monthOf (zone.day expiredAt) % 12 + 12) = 28 := by
        rw [daysIn_eq, if_pos (within.2.2.1.trans leapDay.1), within.2.2.2,
          if_neg (not_isLeap_succ leap)]
      rw [leapDay.2, common]
      omega
    next common =>
      have fits' := fits_every_year within.2.2.1 common
      rw [min_eq_left fits']
      omega

private theorem yearExpiredAt_shows (zone : Zone) (expiredAt : Int) (now : Nat) :
    ShowsNext zone 4 expiredAt now (calcResetDayByYearExpiredAt zone expiredAt now) ↔
      WholeDays zone expiredAt now := by
  have clock := year_of_clock zone now
  have within : (12 * (monthOf (zone.day now) / 12) + monthOf (zone.day expiredAt) % 12) % 12 =
        monthOf (zone.day expiredAt) % 12 ∧
      (12 * (monthOf (zone.day now) / 12) + monthOf (zone.day expiredAt) % 12) / 12 =
        monthOf (zone.day now) / 12 := by omega
  unfold WholeDays
  dsimp only
  by_cases valid : monthOf (zone.day now) / 12 ≤ 9999 ∧ dayOf (zone.day expiredAt) ≤
      daysIn (12 * (monthOf (zone.day now) / 12) + monthOf (zone.day expiredAt) % 12)
  · obtain ⟨digits, fits⟩ := valid
    obtain ⟨before, this, after, later⟩ := anchors_of_date fits
    rw [yearExpiredAt_of_date clock digits fits]
    have leap : OnLeapDay zone expiredAt → isLeap (monthOf (zone.day now) / 12) ∧
        12 * (monthOf (zone.day now) / 12) + monthOf (zone.day expiredAt) % 12 =
          12 * (monthOf (zone.day now) / 12) + 1 := by
      intro leapDay
      rw [leapDay.2, leapDay_fits (within.1.trans leapDay.1), within.2] at fits
      exact ⟨fits, by rw [leapDay.1]⟩
    simp only [digits, true_and]
    by_cases coming : zone.day now < anchorDay zone 4 expiredAt (monthOf (zone.day now) / 12)
    · -- the date of this year is still to come
      rw [showsNext_iff before (Int.le_of_lt coming), if_pos (this ▸ coming), ← this]
      have shown : zone.day now + (anchorDay zone 4 expiredAt (monthOf (zone.day now) / 12) -
            zone.day now - (if zone.second now = 0 then 0 else 1)) =
          anchorDay zone 4 expiredAt (monthOf (zone.day now) / 12) ↔ zone.second now = 0 := by
        split <;> omega
      have ahead : zone.day now ≠ anchorDay zone 4 expiredAt (monthOf (zone.day now) / 12) :=
        Int.ne_of_lt coming
      simp only [shown, ahead, false_and, or_false]
      split
      next leapDay =>
        obtain ⟨year, february⟩ := leap leapDay
        rw [leapDay.2, february] at this
        have early : zone.day now < monthStart (12 * (monthOf (zone.day now) / 12) + 1) + 28 := by
          omega
        simp only [year, early, true_and, iff_true]
      next => rfl
    · -- the date of the next year
      have gap := monthStart_add_twelve
        (12 * (monthOf (zone.day now) / 12) + monthOf (zone.day expiredAt) % 12)
      have only : ∀ days, anchorDay zone 4 expiredAt (monthOf (zone.day now) / 12) <
          zone.day now + days → (ShowsNext zone 4 expiredAt now days ↔ zone.day now + days =
            anchorDay zone 4 expiredAt (monthOf (zone.day now) / 12 + 1)) := by
        intro days far
        by_cases today : zone.day now = anchorDay zone 4 expiredAt (monthOf (zone.day now) / 12)
        · rw [showsNext_iff before (Int.le_of_eq today)]
          simp only [Int.ne_of_gt far, false_or, and_iff_right today]
        · rw [showsNext_iff (k := monthOf (zone.day now) / 12 + 1)
            (by rw [Int.add_sub_cancel]; omega) (Int.le_of_lt after)]
          simp only [Int.ne_of_lt after, false_and, or_false]
      rw [this] at coming
      rw [if_neg coming, only _ (by split at later <;> split <;> omega), later]
      by_cases leapDay : OnLeapDay zone expiredAt
      · obtain ⟨year, february⟩ := leap leapDay
        rw [leapDay.2, february] at coming
        have late : ¬zone.day now < monthStart (12 * (monthOf (zone.day now) / 12) + 1) + 28 := by
          omega
        simp only [if_pos leapDay, year, late, true_and, iff_false]
        split <;> omega
      · simp only [if_neg leapDay]
        split <;> omega
  · have unparsed : parseInLocation zone (monthOf (zone.day now) / 12)
        (monthOf (zone.day expiredAt) % 12) (dayOf (zone.day expiredAt)) = none :=
      if_neg fun parsed => valid parsed.2
    simp only [not_showsNext_of_neg (yearExpiredAt_neg unparsed), false_iff]
    rintro ⟨digits, whole⟩
    refine valid ⟨digits, ?_⟩
    by_cases leapDay : OnLeapDay zone expiredAt
    · rw [if_pos leapDay] at whole
      rw [leapDay.2, leapDay_fits (within.1.trans leapDay.1), within.2]
      exact whole.1
    · exact fits_every_year within.1 leapDay

/-- Both days that are shown agree with the anchors exactly when no February is in the way,
and over the year when no part of a day is left. -/
theorem shown_day_agrees_iff (zone : Zone) (expiredAt : Int) (now : Nat) :
    (ShowsNext zone 1 expiredAt now (calcResetDayByExpireDay zone expiredAt now) ↔
      ¬BeforeFebruary zone expiredAt now) ∧
    (ShowsNext zone 4 expiredAt now (calcResetDayByYearExpiredAt zone expiredAt now) ↔
      WholeDays zone expiredAt now) :=
  ⟨expireDay_shows zone expiredAt now, yearExpiredAt_shows zone expiredAt now⟩

instance (zone : Zone) (expiredAt now : Int) : Decidable (BeforeFebruary zone expiredAt now) :=
  inferInstanceAs (Decidable (_ ∧ _ ∧ _))

instance (zone : Zone) (expiredAt now : Int) : Decidable (WholeDays zone expiredAt now) :=
  inferInstanceAs (Decidable (_ ∧ _))

/-- On 31 January 2026, with an expiry on the 30th of a month, 2 March is shown; on 1 March 2026,
with an expiry on 29 February, a day long gone. -/
theorem shown_day_disagrees :
    (∃ (zone : Zone) (expiredAt : Int) (now : Nat),
      ¬ShowsNext zone 1 expiredAt now (calcResetDayByExpireDay zone expiredAt now)) ∧
    ∃ (zone : Zone) (expiredAt : Int) (now : Nat),
      ¬ShowsNext zone 4 expiredAt now (calcResetDayByYearExpiredAt zone expiredAt now) := by
  constructor
  · refine ⟨⟨0, by decide⟩, 1798588800, 1769860800, ?_⟩
    rw [expireDay_shows]
    decide +kernel
  · refine ⟨⟨0, by decide⟩, 1835395200, 1772366400, ?_⟩
    rw [yearExpiredAt_shows]
    decide +kernel

theorem expireDay_le (zone : Zone) (expiredAt now : Int) :
    calcResetDayByExpireDay zone expiredAt now ≤ 30 := by
  have longest := daysIn_bounds (monthOf (zone.day now))
  have this := dayOf_bounds (zone.day now)
  have target := dayOf_bounds (zone.day expiredAt)
  have longest' := daysIn_bounds (monthOf (zone.day expiredAt))
  unfold calcResetDayByExpireDay
  dsimp only
  rw [lastDayOf_eq]
  split_ifs <;> omega

theorem yearExpiredAt_le (zone : Zone) (expiredAt : Int) (now : Nat) :
    calcResetDayByYearExpiredAt zone expiredAt now ≤ 366 := by
  have clock := year_of_clock zone now
  by_cases valid : monthOf (zone.day now) / 12 ≤ 9999 ∧ dayOf (zone.day expiredAt) ≤
      daysIn (12 * (monthOf (zone.day now) / 12) + monthOf (zone.day expiredAt) % 12)
  · obtain ⟨digits, fits⟩ := valid
    rw [yearExpiredAt_of_date clock digits fits]
    have started := (monthOf_spec (zone.day now)).1
    have opens := @monthStart_le (12 * (monthOf (zone.day now) / 12)) (monthOf (zone.day now))
      (by omega)
    have year := monthStart_add_twelve (12 * (monthOf (zone.day now) / 12))
    have later := monthStart_add_twelve
      (12 * (monthOf (zone.day now) / 12) + monthOf (zone.day expiredAt) % 12)
    have within := @monthStart_le
      (12 * (monthOf (zone.day now) / 12) + monthOf (zone.day expiredAt) % 12 + 1)
      (12 * (monthOf (zone.day now) / 12) + 12) (by omega)
    have next := monthStart_succ
      (12 * (monthOf (zone.day now) / 12) + monthOf (zone.day expiredAt) % 12)
    dsimp only
    split <;> split <;> omega
  · have past := @yearExpiredAt_neg zone expiredAt now (if_neg fun parsed => valid parsed.2)
    omega

end ForestPanel.TrafficReset
