import Mathlib.Data.Int.Notation
import Mathlib.Tactic.Cases
import Mathlib.Tactic.IntervalCases
import Mathlib.Tactic.SplitIfs

/-!
# The Gregorian calendar

Days are numbered from 1 January 1970, months from January of the year 0: the month `m` is
the `m % 12`-th, from zero, of the year `m / 12`. A month past the end of a year is then a
month of another year, and a day past the end of a month a day of a later one, as date
functions that normalise their arguments have it.
-/
namespace Calendar

def isLeap (year : Int) : Prop := year % 4 = 0 ∧ (year % 100 ≠ 0 ∨ year % 400 = 0)

instance (year : Int) : Decidable (isLeap year) := inferInstanceAs (Decidable (_ ∧ _))

/-- 1 January, by the number of leap years before. -/
def yearStart (year : Int) : Int :=
  365 * year + (year + 3) / 4 - (year + 99) / 100 + (year + 399) / 400 - 719528

/-- The days of a year before its `k`-th month. -/
def daysBefore (leap : Prop) [Decidable leap] (k : Int) : Int :=
  (367 * k + 5) / 12 - if k < 2 then 0 else if leap then 1 else 2

example : (List.range 13).map (fun k : Nat => daysBefore False k) =
    [0, 31, 59, 90, 120, 151, 181, 212, 243, 273, 304, 334, 365] := by decide

def monthStart (m : Int) : Int := yearStart (m / 12) + daysBefore (isLeap (m / 12)) (m % 12)

def daysIn (m : Int) : Int := monthStart (m + 1) - monthStart m

/-- The year of a day; the first guess is off by one year at most. -/
def yearOf (d : Int) : Int :=
  let guess := (d + 719528) * 400 / 146097
  if d < yearStart guess then guess - 1
  else if d < yearStart (guess + 1) then guess
  else guess + 1

/-- The month of a day; the first guess is off by one month at most. -/
def monthOf (d : Int) : Int :=
  let guess := 12 * yearOf d + (d - yearStart (yearOf d)) / 31
  if d < monthStart (guess + 1) then guess else guess + 1

/-- The day within its month, from one. -/
def dayOf (d : Int) : Int := d - monthStart (monthOf d) + 1

theorem yearStart_succ (year : Int) :
    yearStart (year + 1) = yearStart year + if isLeap year then 366 else 365 := by
  unfold yearStart
  by_cases leap : isLeap year
  · rw [if_pos leap]
    unfold isLeap at leap
    omega
  · rw [if_neg leap]
    unfold isLeap at leap
    omega

/-- A year is 365.2425 days on average. -/
private theorem yearStart_mean (year : Int) :
    146097 * year - 396 ≤ 400 * (yearStart year + 719528) ∧
      400 * (yearStart year + 719528) ≤ 146097 * year + 699 := by
  unfold yearStart
  omega

theorem yearOf_spec (d : Int) : yearStart (yearOf d) ≤ d ∧ d < yearStart (yearOf d + 1) := by
  unfold yearOf
  dsimp only
  have guessed := Int.mul_ediv_self_le (x := (d + 719528) * 400) (k := 146097) (by decide)
  have missed := Int.lt_mul_ediv_self_add (x := (d + 719528) * 400) (k := 146097) (by decide)
  generalize (d + 719528) * 400 / 146097 = guess at *
  split
  · have before := yearStart_mean (guess - 1)
    rw [Int.sub_add_cancel]
    omega
  · split
    · omega
    · have after := yearStart_mean (guess + 1 + 1)
      omega

/-- The 31-day months are every second one, but for July and August. -/
theorem daysIn_eq (m : Int) : daysIn m =
    if m % 12 = 1 then (if isLeap (m / 12) then 29 else 28)
    else if m % 12 = 3 ∨ m % 12 = 5 ∨ m % 12 = 8 ∨ m % 12 = 10 then 30 else 31 := by
  unfold daysIn monthStart
  by_cases last : m % 12 = 11
  · have year : (m + 1) / 12 = m / 12 + 1 := by omega
    have month : (m + 1) % 12 = 0 := by omega
    rw [year, month, yearStart_succ, last]
    by_cases leap : isLeap (m / 12)
    · simp [daysBefore, leap]
    · simp [daysBefore, leap]
  · have year : (m + 1) / 12 = m / 12 := by omega
    have month : (m + 1) % 12 = m % 12 + 1 := by omega
    rw [year, month]
    have first : 0 ≤ m % 12 := by omega
    have before : m % 12 < 11 := by omega
    generalize m % 12 = k at *
    by_cases leap : isLeap (m / 12)
    · interval_cases k <;> simp [daysBefore, leap]
    · interval_cases k <;> simp [daysBefore, leap]

theorem daysIn_bounds (m : Int) : 28 ≤ daysIn m ∧ daysIn m ≤ 31 := by
  rw [daysIn_eq]
  split_ifs <;> omega

theorem monthStart_succ (m : Int) : monthStart (m + 1) = monthStart m + daysIn m := by
  unfold daysIn
  omega

/-- A year is twelve months. -/
theorem monthStart_year (year : Int) : monthStart (12 * year) = yearStart year := by
  have first : 12 * year % 12 = 0 := by omega
  rw [monthStart, first, Int.mul_ediv_cancel_left _ (by decide)]
  unfold daysBefore
  omega

/-- The same month of the next year. -/
theorem monthStart_add_twelve (m : Int) :
    monthStart m + 365 ≤ monthStart (m + 12) ∧ monthStart (m + 12) ≤ monthStart m + 366 := by
  have year : (m + 12) / 12 = m / 12 + 1 := by omega
  have month : (m + 12) % 12 = m % 12 := by omega
  rw [monthStart, monthStart, year, month, yearStart_succ]
  generalize m % 12 = k
  unfold daysBefore
  split_ifs <;> omega

theorem monthStart_lt {m n : Int} (before : m < n) : monthStart m + 28 ≤ monthStart n := by
  obtain ⟨k, rfl⟩ : ∃ k : Nat, n = m + 1 + k := ⟨(n - m - 1).toNat, by omega⟩
  clear before
  induction k with
  | zero =>
    have length := daysIn_bounds m
    have next : m + 1 + ((0 : Nat) : Int) = m + 1 := by omega
    rw [next, monthStart_succ]
    omega
  | succ k ih =>
    have length := daysIn_bounds (m + 1 + k)
    have next : m + 1 + ((k + 1 : Nat) : Int) = m + 1 + k + 1 := by omega
    rw [next, monthStart_succ]
    omega

theorem monthStart_le {m n : Int} (before : m ≤ n) : monthStart m ≤ monthStart n := by
  rcases Int.lt_or_eq_of_le before with earlier | same
  · have later := monthStart_lt earlier
    omega
  · rw [same]

/-- The months are told apart by their first days. -/
theorem lt_of_monthStart_lt {m n : Int} (before : monthStart m < monthStart n) : m < n := by
  by_contra later
  have order := monthStart_le (Int.not_lt.mp later)
  omega

/-- Before the `k`-th month of a year there are more than 30 days for each month, and less
than 31 for all but the first ones. -/
private theorem monthStart_mean (m : Int) :
    31 * (m % 12) - 7 ≤ monthStart m - yearStart (m / 12) ∧
      monthStart m - yearStart (m / 12) ≤ 31 * (m % 12) := by
  unfold monthStart
  have first : 0 ≤ m % 12 := by omega
  have last : m % 12 < 12 := by omega
  generalize m % 12 = k at *
  by_cases leap : isLeap (m / 12)
  · interval_cases k <;> simp [daysBefore, leap]
  · interval_cases k <;> simp [daysBefore, leap]

theorem monthOf_spec (d : Int) : monthStart (monthOf d) ≤ d ∧ d < monthStart (monthOf d + 1) := by
  obtain ⟨started, ends⟩ := yearOf_spec d
  unfold monthOf
  dsimp only
  generalize yearOf d = year at *
  have opens := monthStart_year year
  have closes := monthStart_year (year + 1)
  have guessed : (d - yearStart year) / 31 < 12 := by
    rw [yearStart_succ] at ends
    split at ends <;> omega
  generalize hk : (d - yearStart year) / 31 = k at *
  have within : (12 * year + k) / 12 = year ∧ (12 * year + k) % 12 = k := by omega
  have mean := monthStart_mean (12 * year + k)
  rw [within.1, within.2] at mean
  split
  next before =>
    exact ⟨by omega, before⟩
  next after =>
    refine ⟨by omega, ?_⟩
    by_cases december : k = 11
    · have next : 12 * year + k + 1 + 1 = 12 * (year + 1) + 1 := by omega
      have later := @monthStart_lt (12 * (year + 1)) (12 * (year + 1) + 1) (by omega)
      rw [next]
      omega
    · have within' : (12 * year + k + 1 + 1) % 12 = 0 ∨
        (12 * year + k + 1 + 1) / 12 = year ∧ (12 * year + k + 1 + 1) % 12 = k + 2 := by omega
      rcases within' with beyond | ⟨same, month⟩
      · have next : 12 * year + k + 1 + 1 = 12 * (year + 1) := by omega
        rw [next, closes]
        exact ends
      · have mean' := monthStart_mean (12 * year + k + 1 + 1)
        rw [same, month] at mean'
        omega

/-- The month of a day is the one that has begun and not ended. -/
theorem monthOf_eq {d m : Int} (started : monthStart m ≤ d) (ends : d < monthStart (m + 1)) :
    monthOf d = m := by
  obtain ⟨started', ends'⟩ := monthOf_spec d
  have up : monthOf d < m + 1 := lt_of_monthStart_lt (by omega)
  have down : m < monthOf d + 1 := lt_of_monthStart_lt (by omega)
  omega

theorem dayOf_bounds (d : Int) : 1 ≤ dayOf d ∧ dayOf d ≤ daysIn (monthOf d) := by
  obtain ⟨started, ends⟩ := monthOf_spec d
  rw [monthStart_succ] at ends
  unfold dayOf
  omega

/-- A day from its month and its number. -/
theorem monthStart_add_dayOf (d : Int) : monthStart (monthOf d) + dayOf d - 1 = d := by
  unfold dayOf
  omega

theorem dayOf_eq {d m : Int} (started : monthStart m ≤ d) (ends : d < monthStart (m + 1)) :
    dayOf d = d - monthStart m + 1 := by
  rw [dayOf, monthOf_eq started ends]

/-- The last day of a month, as the day before the next one. -/
theorem dayOf_last (m : Int) : dayOf (monthStart (m + 1) - 1) = daysIn m := by
  have length := daysIn_bounds m
  have next := monthStart_succ m
  rw [dayOf_eq (m := m) (by omega) (by omega)]
  omega

/-- A time zone with a fixed offset from UTC, in seconds. -/
structure Zone where
  offset : Int
  bounded : -86400 < offset ∧ offset < 86400

namespace Zone

def day (zone : Zone) (t : Int) : Int := (t + zone.offset) / 86400

/-- The seconds since the local midnight. -/
def second (zone : Zone) (t : Int) : Int := (t + zone.offset) % 86400

/-- The Unix time of the local midnight that opens a day. -/
def midnight (zone : Zone) (d : Int) : Int := 86400 * d - zone.offset

/-- The midnight of a day of a month, normalised. -/
def date (zone : Zone) (m day : Int) : Int := zone.midnight (monthStart m + day - 1)

/-- The same day, by its number, and the same time of the day of another month, normalised. -/
def addMonths (zone : Zone) (t k : Int) : Int :=
  zone.date (monthOf (zone.day t) + k) (dayOf (zone.day t)) + zone.second t

theorem second_bounds (zone : Zone) (t : Int) : 0 ≤ zone.second t ∧ zone.second t < 86400 := by
  unfold second
  omega

theorem midnight_add_second (zone : Zone) (t : Int) :
    zone.midnight (zone.day t) + zone.second t = t := by
  unfold midnight day second
  omega

@[simp] theorem day_midnight (zone : Zone) (d : Int) : zone.day (zone.midnight d) = d := by
  unfold day midnight
  omega

@[simp] theorem second_midnight (zone : Zone) (d : Int) : zone.second (zone.midnight d) = 0 := by
  unfold second midnight
  omega

/-- A midnight has come when its day has. -/
theorem midnight_le_iff (zone : Zone) (d t : Int) : zone.midnight d ≤ t ↔ d ≤ zone.day t := by
  unfold midnight day
  omega

theorem lt_midnight_iff (zone : Zone) (d t : Int) : t < zone.midnight d ↔ zone.day t < d := by
  unfold midnight day
  omega

/-- Later on the same day. -/
theorem day_midnight_add (zone : Zone) {d s : Int} (begun : 0 ≤ s) (ends : s < 86400) :
    zone.day (zone.midnight d + s) = d := by
  unfold day midnight
  omega

theorem day_addMonths (zone : Zone) (t k : Int) :
    zone.day (zone.addMonths t k) =
      monthStart (monthOf (zone.day t) + k) + dayOf (zone.day t) - 1 := by
  obtain ⟨begun, ends⟩ := zone.second_bounds t
  exact zone.day_midnight_add begun ends

end Zone

end Calendar
