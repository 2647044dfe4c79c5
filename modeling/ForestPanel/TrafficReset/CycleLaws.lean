import ForestPanel.TrafficReset.Cycle

/-!
# Cycles bracket the time

Every method has its anchors, one for each month or one for each year, and a cycle goes from
one to the next. The cycle that is computed is the one `now` lies in, but for the last days
of March that February does not have: a month before them is March again, whose anchor is
still to come.
-/
namespace ForestPanel.TrafficReset

open Calendar Passport Relational

/-- A day of a month, or its last one. -/
def clippedDay (m day : Int) : Int := monthStart m + min day (daysIn m) - 1

/-- The day of the `k`-th anchor, with `k` a month or a year. -/
def anchorDay (zone : Zone) (method expiredAt k : Int) : Int :=
  let target := zone.day expiredAt
  match method with
  | 0 => monthStart k
  | 1 => clippedDay k (dayOf target)
  | 3 => yearStart k
  | _ => clippedDay (12 * k + monthOf target % 12) (dayOf target)

/-- `start` is an anchor that has come, and the next one has not. -/
def Brackets (zone : Zone) (method expiredAt now start : Int) : Prop :=
  ∃ k, start = zone.midnight (anchorDay zone method expiredAt k) ∧ start ≤ now ∧
    now < zone.midnight (anchorDay zone method expiredAt (k + 1))

/-- A day of March that February does not have, before the day of the expiry. -/
def PastFebruary (zone : Zone) (expiredAt now : Int) : Prop :=
  let today := zone.day now
  monthOf today % 12 = 2 ∧ daysIn (monthOf today - 1) < dayOf today ∧
    dayOf today < dayOf (zone.day expiredAt)

instance (zone : Zone) (expiredAt now : Int) : Decidable (PastFebruary zone expiredAt now) :=
  inferInstanceAs (Decidable (_ ∧ _ ∧ _))

theorem clippedDay_bounds (m : Int) {day : Int} (positive : 1 ≤ day) :
    monthStart m ≤ clippedDay m day ∧ clippedDay m day < monthStart (m + 1) := by
  have length := daysIn_bounds m
  have next := monthStart_succ m
  unfold clippedDay
  omega

theorem clippedDate_eq (zone : Zone) (m day : Int) :
    trafficResetClippedDate zone m day = zone.midnight (clippedDay m day) := by
  have last : zone.day (zone.date (m + 1) 0) = monthStart (m + 1) - 1 := by
    rw [Zone.date, Zone.day_midnight]
    omega
  unfold trafficResetClippedDate
  dsimp only
  rw [last, dayOf_last]
  unfold Zone.date clippedDay
  congr 2
  split <;> omega

theorem anchorDay_succ (zone : Zone) (method expiredAt k : Int) :
    anchorDay zone method expiredAt k < anchorDay zone method expiredAt (k + 1) ∧
      anchorDay zone method expiredAt (k + 1) ≤ anchorDay zone method expiredAt k + 399 := by
  have positive := (dayOf_bounds (zone.day expiredAt)).1
  have later : 12 * (k + 1) + monthOf (zone.day expiredAt) % 12 =
      12 * k + monthOf (zone.day expiredAt) % 12 + 12 := by omega
  unfold anchorDay
  dsimp only
  split
  · have length := daysIn_bounds k
    rw [monthStart_succ]
    omega
  · have this := clippedDay_bounds k positive
    have next := clippedDay_bounds (k + 1) positive
    have starts := monthStart_succ k
    have starts' := monthStart_succ (k + 1)
    have lengths := daysIn_bounds k
    have lengths' := daysIn_bounds (k + 1)
    omega
  · rw [yearStart_succ]
    split <;> omega
  · generalize 12 * k + monthOf (zone.day expiredAt) % 12 = m at later ⊢
    rw [later]
    have this := clippedDay_bounds m positive
    have next := clippedDay_bounds (m + 12) positive
    have starts := monthStart_succ m
    have starts' := monthStart_succ (m + 12)
    have year := monthStart_add_twelve m
    have lengths := daysIn_bounds m
    have lengths' := daysIn_bounds (m + 12)
    omega

theorem anchorDay_lt (zone : Zone) (method expiredAt : Int) {j k : Int} (before : j < k) :
    anchorDay zone method expiredAt j < anchorDay zone method expiredAt k := by
  obtain ⟨n, rfl⟩ : ∃ n : Nat, k = j + 1 + n := ⟨(k - j - 1).toNat, by omega⟩
  clear before
  induction n with
  | zero =>
    have step := anchorDay_succ zone method expiredAt j
    have same : j + 1 + ((0 : Nat) : Int) = j + 1 := by omega
    rw [same]
    exact step.1
  | succ n ih =>
    have step := anchorDay_succ zone method expiredAt (j + 1 + n)
    have next : j + 1 + ((n + 1 : Nat) : Int) = j + 1 + n + 1 := by omega
    rw [next]
    omega

theorem anchor_unique {zone : Zone} {method expiredAt d j k : Int}
    (come : anchorDay zone method expiredAt j ≤ d)
    (ahead : d < anchorDay zone method expiredAt (j + 1))
    (come' : anchorDay zone method expiredAt k ≤ d)
    (ahead' : d < anchorDay zone method expiredAt (k + 1)) : j = k := by
  rcases Int.lt_trichotomy j k with before | same | after
  · have order : j + 1 = k ∨ j + 1 < k := by omega
    rcases order with rfl | earlier
    · omega
    · have later := anchorDay_lt zone method expiredAt earlier
      omega
  · exact same
  · have order : k + 1 = j ∨ k + 1 < j := by omega
    rcases order with rfl | earlier
    · omega
    · have later := anchorDay_lt zone method expiredAt earlier
      omega

private theorem brackets_of_days {zone : Zone} {method expiredAt now : Int} (k : Int)
    (come : anchorDay zone method expiredAt k ≤ zone.day now)
    (ahead : zone.day now < anchorDay zone method expiredAt (k + 1)) :
    Brackets zone method expiredAt now (zone.midnight (anchorDay zone method expiredAt k)) :=
  ⟨k, rfl, (zone.midnight_le_iff _ _).mpr come, (zone.lt_midnight_iff _ _).mpr ahead⟩

private theorem monthOf_prev (zone : Zone) (now : Int) :
    monthOf (zone.day (zone.addMonths now (-1))) =
      if daysIn (monthOf (zone.day now) - 1) < dayOf (zone.day now) then monthOf (zone.day now)
      else monthOf (zone.day now) - 1 := by
  rw [zone.day_addMonths]
  have this := dayOf_bounds (zone.day now)
  generalize zone.day now = d at *
  have before : monthOf d + -1 = monthOf d - 1 := by omega
  have starts := monthStart_succ (monthOf d - 1)
  have starts' := monthStart_succ (monthOf d)
  have short := daysIn_bounds (monthOf d - 1)
  have long := daysIn_bounds (monthOf d)
  rw [Int.sub_add_cancel] at starts
  rw [before]
  split
  next missing => exact monthOf_eq (by omega) (by omega)
  next there =>
    refine monthOf_eq (by omega) ?_
    rw [Int.sub_add_cancel]
    omega

private theorem march_of_short {m : Int} (short : daysIn (m - 1) + 2 ≤ daysIn m) :
    m % 12 = 2 := by
  rw [daysIn_eq, daysIn_eq] at short
  split_ifs at short <;> omega

theorem pastFebruary_iff (zone : Zone) (expiredAt now : Int) :
    PastFebruary zone expiredAt now ↔
      zone.day now < clippedDay (monthOf (zone.day now)) (dayOf (zone.day expiredAt)) ∧
        daysIn (monthOf (zone.day now) - 1) < dayOf (zone.day now) := by
  have whole := monthStart_add_dayOf (zone.day now)
  have target := dayOf_bounds (zone.day expiredAt)
  have longest := daysIn_bounds (monthOf (zone.day expiredAt))
  unfold PastFebruary clippedDay
  dsimp only
  constructor
  · rintro ⟨march, missing, before⟩
    have length : daysIn (monthOf (zone.day now)) = 31 := by
      rw [daysIn_eq, march]
      simp
    refine ⟨?_, missing⟩
    omega
  · rintro ⟨before, missing⟩
    refine ⟨march_of_short ?_, missing, ?_⟩
    · omega
    · omega

private theorem monthlyAnchor_brackets (zone : Zone) (expiredAt now : Int) :
    Brackets zone 1 expiredAt now (trafficResetMonthlyAnchor zone expiredAt now) ↔
      ¬PastFebruary zone expiredAt now := by
  rw [pastFebruary_iff]
  unfold trafficResetMonthlyAnchor
  dsimp only
  rw [monthOf_prev, clippedDate_eq, clippedDate_eq]
  have positive := (dayOf_bounds (zone.day expiredAt)).1
  have month := monthOf_spec (zone.day now)
  have anchors : ∀ k, anchorDay zone 1 expiredAt k = clippedDay k (dayOf (zone.day expiredAt)) :=
    fun _ => rfl
  split
  next coming =>
    rw [zone.lt_midnight_iff] at coming
    split
    next missing =>
      -- the anchor that is taken is the one still to come
      constructor
      · rintro ⟨k, -, come, -⟩
        have come' := (zone.midnight_le_iff _ _).mp come
        omega
      · intro absent
        exact absurd ⟨coming, missing⟩ absent
    next there =>
      have before := clippedDay_bounds (monthOf (zone.day now) - 1) positive
      rw [Int.sub_add_cancel] at before
      have bracketed : Brackets zone 1 expiredAt now (zone.midnight
          (clippedDay (monthOf (zone.day now) - 1) (dayOf (zone.day expiredAt)))) := by
        refine brackets_of_days (monthOf (zone.day now) - 1) ?_ ?_
        · rw [anchors]
          omega
        · rw [anchors, Int.sub_add_cancel]
          exact coming
      simp only [bracketed, true_iff]
      exact fun skipped => there skipped.2
  next come =>
    have come' :
        clippedDay (monthOf (zone.day now)) (dayOf (zone.day expiredAt)) ≤ zone.day now := by
      rw [zone.lt_midnight_iff] at come
      omega
    have next := clippedDay_bounds (monthOf (zone.day now) + 1) positive
    have bracketed : Brackets zone 1 expiredAt now
        (zone.midnight (clippedDay (monthOf (zone.day now)) (dayOf (zone.day expiredAt)))) := by
      refine brackets_of_days (monthOf (zone.day now)) ?_ ?_
      · rw [anchors]
        exact come'
      · rw [anchors]
        omega
    simp only [bracketed, true_iff]
    exact fun skipped => by omega

private theorem yearlyAnchor_brackets (zone : Zone) (expiredAt now : Int) :
    Brackets zone 4 expiredAt now (trafficResetYearlyAnchor zone expiredAt now) := by
  unfold trafficResetYearlyAnchor
  dsimp only
  rw [clippedDate_eq, clippedDate_eq]
  have positive := (dayOf_bounds (zone.day expiredAt)).1
  obtain ⟨started, ends⟩ := monthOf_spec (zone.day now)
  have year : 12 * (monthOf (zone.day now) / 12) ≤ monthOf (zone.day now) ∧
      monthOf (zone.day now) + 1 ≤ 12 * (monthOf (zone.day now) / 12 + 1) := by omega
  have opens := monthStart_le year.1
  have closes := monthStart_le year.2
  generalize monthOf (zone.day now) / 12 = y at *
  have range : 0 ≤ monthOf (zone.day expiredAt) % 12 ∧
    monthOf (zone.day expiredAt) % 12 < 12 := by omega
  have anchors : ∀ k, anchorDay zone 4 expiredAt k =
      clippedDay (12 * k + monthOf (zone.day expiredAt) % 12) (dayOf (zone.day expiredAt)) :=
    fun _ => rfl
  generalize monthOf (zone.day expiredAt) % 12 = month at *
  split
  next coming =>
    rw [zone.lt_midnight_iff] at coming
    have before := clippedDay_bounds (12 * (y - 1) + month) positive
    have later := @monthStart_le (12 * (y - 1) + month + 1) (12 * y) (by omega)
    refine anchors (y - 1) ▸ brackets_of_days (y - 1) ?_ ?_
    · rw [anchors]
      omega
    · rw [anchors, Int.sub_add_cancel]
      exact coming
  next come =>
    rw [zone.lt_midnight_iff] at come
    have next := clippedDay_bounds (12 * (y + 1) + month) positive
    have after := @monthStart_le (12 * (y + 1)) (12 * (y + 1) + month) (by omega)
    refine anchors y ▸ brackets_of_days y ?_ ?_
    · rw [anchors]
      omega
    · rw [anchors]
      omega

private theorem first_brackets (zone : Zone) (expiredAt now : Int) :
    Brackets zone 0 expiredAt now (zone.date (monthOf (zone.day now)) 1) ∧
      Brackets zone 3 expiredAt now (zone.date (12 * (monthOf (zone.day now) / 12)) 1) := by
  obtain ⟨started, ends⟩ := monthOf_spec (zone.day now)
  have first : ∀ m, zone.date m 1 = zone.midnight (monthStart m) := by
    intro m
    rw [Zone.date, Int.add_sub_cancel]
  constructor
  · rw [first]
    have anchors : ∀ k, anchorDay zone 0 expiredAt k = monthStart k := fun _ => rfl
    exact anchors _ ▸ brackets_of_days _ started ends
  · have year : 12 * (monthOf (zone.day now) / 12) ≤ monthOf (zone.day now) ∧
        monthOf (zone.day now) + 1 ≤ 12 * (monthOf (zone.day now) / 12 + 1) := by omega
    have opens := monthStart_le year.1
    have closes := monthStart_le year.2
    rw [monthStart_year] at closes
    rw [first, monthStart_year] at *
    have anchors : ∀ k, anchorDay zone 3 expiredAt k = yearStart k := fun _ => rfl
    refine anchors _ ▸ brackets_of_days _ ?_ ?_
    · rw [anchors]
      omega
    · rw [anchors]
      omega

theorem start_brackets {zone : Zone} {method expiredAt now start : Int}
    (cycle : trafficResetStart zone method expiredAt now = some start) :
    Brackets zone method expiredAt now start ↔
      ¬(method = 1 ∧ PastFebruary zone expiredAt now) := by
  unfold trafficResetStart at cycle
  split at cycle
  next =>
    obtain rfl := Option.some.inj cycle
    simp only [(first_brackets zone expiredAt now).1, true_iff]
    exact fun monthly => absurd monthly.1 (by decide)
  next =>
    obtain rfl := Option.some.inj cycle
    rw [monthlyAnchor_brackets]
    simp
  next =>
    obtain rfl := Option.some.inj cycle
    simp only [(first_brackets zone expiredAt now).2, true_iff]
    exact fun monthly => absurd monthly.1 (by decide)
  next =>
    obtain rfl := Option.some.inj cycle
    simp only [yearlyAnchor_brackets, true_iff]
    exact fun monthly => absurd monthly.1 (by decide)
  next => cases cycle

end ForestPanel.TrafficReset
