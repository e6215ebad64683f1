import Mathlib.Data.Nat.Find

/-!
# The Gregorian calendar

Days are numbered from the first of January of year 0, in the calendar of
today extended backwards. The year of a day is the last one that has begun by
then, and its month likewise, so that dates follow one another as their days
do (`date_lt`). The day of a date is found again by adding up (`dayOf_date`).
-/

namespace Calendar

/-- A year of 366 days. -/
def isLeap (year : Nat) : Bool := decide (year % 4 = 0 ∧ (year % 100 ≠ 0 ∨ year % 400 = 0))

/-- The days before the first of January of a year. -/
def daysBeforeYear (year : Nat) : Nat :=
  365 * year + (year + 3) / 4 - (year + 99) / 100 + (year + 399) / 400

/-- The days of a year before the first of a month. Months are numbered from 0. -/
def daysBeforeMonth (leap : Bool) (month : Nat) : Nat :=
  [0, 31, 59, 90, 120, 151, 181, 212, 243, 273, 304, 334].getD month 365 +
    if leap && decide (2 ≤ month) then 1 else 0

/-- The year of a day. -/
def yearOf (day : Nat) : Nat := Nat.findGreatest (fun year => daysBeforeYear year ≤ day) (day / 365)

/-- The month of a day of a year. -/
def monthOf (leap : Bool) (dayOfYear : Nat) : Nat :=
  Nat.findGreatest (fun month => daysBeforeMonth leap month ≤ dayOfYear) 11

/-- A date, with its month and its day of the month numbered from 0. -/
structure Date where
  year : Nat
  month : Nat
  day : Nat
  deriving DecidableEq, Repr

/-- The date of a day. -/
def date (day : Nat) : Date :=
  let year := yearOf day
  let dayOfYear := day - daysBeforeYear year
  let month := monthOf (isLeap year) dayOfYear
  ⟨year, month, dayOfYear - daysBeforeMonth (isLeap year) month⟩

/-- The day of a date. -/
def dayOf (d : Date) : Nat := daysBeforeYear d.year + daysBeforeMonth (isLeap d.year) d.month + d.day

/-- Dates in the order of the calendar. -/
def Date.Lt (d d' : Date) : Prop :=
  d.year < d'.year ∨ d.year = d'.year ∧ (d.month < d'.month ∨ d.month = d'.month ∧ d.day < d'.day)

/-! ## Years -/

theorem daysBeforeYear_succ (year : Nat) :
    daysBeforeYear (year + 1) = daysBeforeYear year + if isLeap year then 366 else 365 := by
  -- one more multiple of each divisor, if the year is one itself
  have hfour : (year + 1 + 3) / 4 = (year + 3) / 4 + if year % 4 = 0 then 1 else 0 := by
    split <;> omega
  have hcentury : (year + 1 + 99) / 100 = (year + 99) / 100 + if year % 100 = 0 then 1 else 0 := by
    split <;> omega
  have hfourth : (year + 1 + 399) / 400 = (year + 399) / 400 + if year % 400 = 0 then 1 else 0 := by
    split <;> omega
  have hroom : (year + 99) / 100 ≤ 365 * year + (year + 3) / 4 := by omega
  have hmultiple : year % 400 = 0 → year % 100 = 0 ∧ year % 4 = 0 := by omega
  have hmultiple' : year % 100 = 0 → year % 4 = 0 := by omega
  unfold daysBeforeYear
  rw [hfour, hcentury, hfourth]
  by_cases h4 : year % 4 = 0
  · by_cases h100 : year % 100 = 0
    · by_cases h400 : year % 400 = 0
      · have hleap : isLeap year = true := decide_eq_true ⟨h4, .inr h400⟩
        rw [if_pos h4, if_pos h100, if_pos h400, if_pos hleap]
        omega
      · have hcommon : ¬ isLeap year = true := fun hleap =>
          (of_decide_eq_true hleap).2.elim (fun h => h h100) h400
        rw [if_pos h4, if_pos h100, if_neg h400, if_neg hcommon]
        omega
    · have hleap : isLeap year = true := decide_eq_true ⟨h4, .inl h100⟩
      rw [if_pos h4, if_neg h100, if_neg (fun h => h100 (hmultiple h).1), if_pos hleap]
      omega
  · rw [if_neg h4, if_neg (fun h => h4 (hmultiple' h)), if_neg (fun h => h4 (hmultiple h).2),
      if_neg fun hleap : isLeap year = true => h4 (of_decide_eq_true hleap).1]
    omega

theorem daysBeforeYear_mono {year year' : Nat} (h : year ≤ year') :
    daysBeforeYear year ≤ daysBeforeYear year' := by
  induction h with
  | refl => exact Nat.le_refl _
  | step _ ih =>
    rw [daysBeforeYear_succ]
    omega

theorem daysBeforeYear_yearOf (day : Nat) : daysBeforeYear (yearOf day) ≤ day :=
  Nat.findGreatest_spec (P := fun year => daysBeforeYear year ≤ day) (Nat.zero_le _) (Nat.zero_le day)

theorem lt_daysBeforeYear (day : Nat) : day < daysBeforeYear (yearOf day + 1) := by
  by_cases h : yearOf day + 1 ≤ day / 365
  · exact Nat.not_le.mp (Nat.findGreatest_is_greatest (P := fun year => daysBeforeYear year ≤ day)
      (Nat.lt_add_one _) h)
  · -- a year has 365 days at least
    unfold daysBeforeYear
    omega

theorem yearOf_mono {day day' : Nat} (h : day ≤ day') : yearOf day ≤ yearOf day' := by
  by_contra hlt
  have hbefore := daysBeforeYear_mono (Nat.lt_iff_add_one_le.mp (Nat.not_le.mp hlt))
  have hfirst := daysBeforeYear_yearOf day
  have hlast := lt_daysBeforeYear day'
  omega

/-- The years up to a bound are those of the days before its end. -/
theorem yearOf_le {day year : Nat} (h : day < daysBeforeYear (year + 1)) : yearOf day ≤ year := by
  by_contra hlt
  have hbefore := daysBeforeYear_mono (Nat.lt_iff_add_one_le.mp (Nat.not_le.mp hlt))
  have hfirst := daysBeforeYear_yearOf day
  omega

theorem dayOfYear_lt (day : Nat) : day - daysBeforeYear (yearOf day) < 366 := by
  have hlast := lt_daysBeforeYear day
  have hyear := daysBeforeYear_succ (yearOf day)
  split at hyear <;> omega

/-! ## Months -/

theorem daysBeforeMonth_monthOf (leap : Bool) (dayOfYear : Nat) :
    daysBeforeMonth leap (monthOf leap dayOfYear) ≤ dayOfYear :=
  Nat.findGreatest_spec (P := fun month => daysBeforeMonth leap month ≤ dayOfYear) (Nat.zero_le _)
    (by simp [daysBeforeMonth])

theorem monthOf_le (leap : Bool) (dayOfYear : Nat) : monthOf leap dayOfYear ≤ 11 :=
  Nat.findGreatest_le 11

theorem monthOf_mono (leap : Bool) {dayOfYear dayOfYear' : Nat} (h : dayOfYear ≤ dayOfYear') :
    monthOf leap dayOfYear ≤ monthOf leap dayOfYear' :=
  Nat.findGreatest_mono_left (fun _ hmonth => Nat.le_trans hmonth h) 11

/-- A day of a month, numbered from 0, has two digits at most. -/
theorem dayOfMonth_lt {leap : Bool} {dayOfYear : Nat} (h : dayOfYear < 366) :
    dayOfYear - daysBeforeMonth leap (monthOf leap dayOfYear) < 32 := by
  have hle := monthOf_le leap dayOfYear
  by_cases hlast : monthOf leap dayOfYear = 11
  · rw [hlast]
    cases leap <;> simp only [daysBeforeMonth] <;> simp <;> omega
  · have hnext := Nat.findGreatest_is_greatest (P := fun month => daysBeforeMonth leap month ≤ dayOfYear)
      (n := 11) (Nat.lt_add_one _) (by rw [← monthOf]; omega)
    have hlength : ∀ leap, ∀ month < 11,
        daysBeforeMonth leap (month + 1) ≤ daysBeforeMonth leap month + 31 := by decide
    have hmonth := hlength leap (monthOf leap dayOfYear) (by omega)
    rw [← monthOf, Nat.not_le] at hnext
    omega

/-! ## Dates -/

theorem dayOf_date (day : Nat) : dayOf (date day) = day := by
  have hyear := daysBeforeYear_yearOf day
  have hmonth := daysBeforeMonth_monthOf (isLeap (yearOf day)) (day - daysBeforeYear (yearOf day))
  rw [dayOf]
  dsimp only [date]
  omega

/-- Dates follow one another as their days do. -/
theorem date_lt {day day' : Nat} (h : day < day') : (date day).Lt (date day') := by
  rcases Nat.lt_or_eq_of_le (yearOf_mono (Nat.le_of_lt h)) with hyear | hyear
  · exact .inl hyear
  refine .inr ⟨hyear, ?_⟩
  have hfirst := daysBeforeYear_yearOf day
  have hmonth := daysBeforeMonth_monthOf (isLeap (yearOf day)) (day - daysBeforeYear (yearOf day))
  simp only [date]
  rw [← hyear]
  have hlater : day - daysBeforeYear (yearOf day) < day' - daysBeforeYear (yearOf day) := by omega
  rcases Nat.lt_or_eq_of_le (monthOf_mono (isLeap (yearOf day)) (Nat.le_of_lt hlater)) with hm | hm
  · exact .inl hm
  · refine .inr ⟨hm, ?_⟩
    rw [← hm]
    omega

end Calendar
