import FrameLoop.Timestamp
import Mathlib.Tactic

/-!
# The calendar

A number of days becomes a date that exists (`dateOfDays_valid`), and the date becomes the same
number of days again (`daysOfDate_dateOfDays`). Years are counted from March in eras of 400
years. An era has four centuries, a century 25 groups of four years; the last group of a
century, but not that of an era, is a day short (`Falls`).

Whether every date that exists comes of a number of days is not part of this: nothing here goes
from a date to its days and back.
-/

namespace FrameLoop.Calendar

variable {c q y doy doe era days : Int}

/-! ## The years of an era -/

/-- **Where a day of an era falls**: in a century of the era, a group of four years, a year of
the group and a day of the year, all counted from zero. Only a last year has a 365th day, and
not the last one of a century within the era. -/
structure Falls (doe c q y doy : Int) : Prop where
  century : 0 ≤ c ∧ c ≤ 3
  group : 0 ≤ q ∧ q ≤ 24
  year : 0 ≤ y ∧ y ≤ 3
  day : 0 ≤ doy ∧ doy ≤ 365
  leap : doy = 365 → y = 3 ∧ (q = 24 → c = 3)
  days_eq : doe = 36524 * c + 1461 * q + 365 * y + doy

theorem exists_falls (low : 0 ≤ doe) (high : doe ≤ 146096) : ∃ c q y doy, Falls doe c q y doy := by
  obtain ⟨c, century, r, hr, full, split⟩ : ∃ c : Int, (0 ≤ c ∧ c ≤ 3) ∧
      ∃ r : Int, (0 ≤ r ∧ r ≤ 36524) ∧ (r = 36524 → c = 3) ∧ doe = 36524 * c + r :=
    ⟨min (doe / 36524) 3, by omega, doe - 36524 * min (doe / 36524) 3, by omega, by omega,
      by omega⟩
  refine ⟨c, r / 1461, min (r % 1461 / 365) 3, r % 1461 - 365 * min (r % 1461 / 365) 3,
    century, ?_, ?_, ?_, ?_, ?_⟩
  all_goals omega

namespace Falls

/-- The year of the era, by days of which the leap days have been taken out. -/
theorem year_eq (falls : Falls doe c q y doy) :
    (doe - doe / 1460 + doe / 36524 - doe / 146096) / 365 = 100 * c + 4 * q + y := by
  obtain ⟨hc, hq, hy, hd, leap, days_eq⟩ := falls
  have centuries : doe / 36524 - doe / 146096 = c := by
    rcases Int.lt_or_le doe 146096 with before | last
    · have one : doe / 146096 = 0 := by omega
      have other : doe / 36524 = c := by omega
      omega
    · obtain rfl : doe = 146096 := by omega
      omega
  -- a group has 1461 days and not 1460, so towards its end one more is taken out
  have groups : doe / 1460 = 25 * c + q + (q + 24 * c + 365 * y + doy) / 1460 := by omega
  have first : doy = 0 → (q + 24 * c + 365 * y + doy) / 1460 = 0 := by omega
  have last : doy = 365 → (q + 24 * c + 365 * y + doy) / 1460 = 1 := by omega
  have taken : doe - doe / 1460 + doe / 36524 - doe / 146096 =
      365 * (100 * c + 4 * q + y) + (doy - (q + 24 * c + 365 * y + doy) / 1460) := by
    omega
  rw [taken]
  omega

/-- The days of an era before a year. -/
theorem before_year (falls : Falls doe c q y doy) :
    365 * (100 * c + 4 * q + y) + (100 * c + 4 * q + y) / 4 - (100 * c + 4 * q + y) / 100 =
      doe - doy := by
  obtain ⟨hc, hq, hy, hd, leap, days_eq⟩ := falls
  omega

end Falls

/-! ## From days to a date -/

/-- **The date of a day that falls in an era.** Ten months of a year that begins in March belong
to the year of its March, the last two to the next year. -/
theorem dateOfDays_eq (falls : Falls (days + 719468 - era * 146097) c q y doy) :
    dateOfDays days =
      let year := 100 * c + 4 * q + y + era * 400
      let month := (5 * doy + 2) / 153
      let day := (doy - (153 * month + 2) / 5 + 1).toNat
      if month < 10 then (year, (month + 3).toNat, day)
      else (year + 1, (month - 9).toNat, day) := by
  have which : (days + 719468) / 146097 = era := by
    obtain ⟨hc, hq, hy, hd, leap, days_eq⟩ := falls
    omega
  obtain ⟨low, high⟩ := falls.day
  unfold dateOfDays
  simp (disch := decide) only [Int.fdiv_eq_ediv_of_nonneg, which, falls.year_eq,
    falls.before_year, sub_sub_cancel]
  split
  · rw [if_neg (by omega)]
  · rw [if_pos (by omega)]

theorem exists_date (days : Int) :
    ∃ era c q y doy, Falls (days + 719468 - era * 146097) c q y doy := by
  refine ⟨(days + 719468) / 146097, exists_falls ?_ ?_⟩
  all_goals omega

/-- A year of 366 days that begins in March ends in the February of a leap year. -/
theorem isLeap_of_last (falls : Falls doe c q y 365) (era : Int) :
    isLeap (100 * c + 4 * q + y + era * 400 + 1) = true := by
  obtain ⟨hc, hq, -, -, leap, -⟩ := falls
  obtain ⟨rfl, last⟩ := leap rfl
  unfold isLeap
  simp (disch := decide) only [Int.fmod_eq_emod_of_nonneg, Bool.or_eq_true, Bool.and_eq_true,
    beq_iff_eq, bne_iff_ne]
  omega

/-- The lengths of the months from March to December, as the days before them say. -/
theorem daysInMonth_of_early (year : Int) {k : Nat} (early : k < 10) :
    (daysInMonth year (k + 3) : Int) = (153 * ((k : Int) + 1) + 2) / 5 - (153 * k + 2) / 5 := by
  interval_cases k <;> rfl

theorem daysInMonth_le (year : Int) (month : Nat) : daysInMonth year month ≤ 31 := by
  unfold daysInMonth
  split_ifs <;> decide

/-- **A number of days becomes a date that exists.** -/
theorem dateOfDays_valid (days : Int) :
    (1 ≤ (dateOfDays days).2.1 ∧ (dateOfDays days).2.1 ≤ 12) ∧
      1 ≤ (dateOfDays days).2.2 ∧
      (dateOfDays days).2.2 ≤ daysInMonth (dateOfDays days).1 (dateOfDays days).2.1 := by
  obtain ⟨era, c, q, y, doy, falls⟩ := exists_date days
  have leap : doy = 365 → isLeap (100 * c + 4 * q + y + era * 400 + 1) = true := by
    rintro rfl
    exact isLeap_of_last falls era
  obtain ⟨low, high⟩ := falls.day
  rw [dateOfDays_eq falls]
  generalize 100 * c + 4 * q + y + era * 400 = year at leap
  generalize hmonth : (5 * doy + 2) / 153 = month
  obtain ⟨k, rfl⟩ := Int.eq_ofNat_of_zero_le (show 0 ≤ month by omega)
  dsimp only
  split
  · next early =>
    have length := daysInMonth_of_early year (k := k) (by omega)
    have named : ((k : Int) + 3).toNat = k + 3 := by omega
    rw [named]
    dsimp only
    omega
  · next late =>
    obtain rfl | rfl : k = 10 ∨ k = 11 := by omega
    · show (1 ≤ 1 ∧ 1 ≤ 12) ∧ 1 ≤ (doy - (153 * 10 + 2) / 5 + 1).toNat ∧
        (doy - (153 * 10 + 2) / 5 + 1).toNat ≤ 31
      omega
    · show (1 ≤ 2 ∧ 2 ≤ 12) ∧ 1 ≤ (doy - (153 * 11 + 2) / 5 + 1).toNat ∧
        (doy - (153 * 11 + 2) / 5 + 1).toNat ≤ if isLeap (year + 1) then 29 else 28
      split
      · omega
      · next common =>
        have short : doy ≠ 365 := fun last => common (leap last)
        omega

/-- **A date that days became is made of as many days.** -/
theorem daysOfDate_dateOfDays (days : Int) :
    daysOfDate (dateOfDays days).1 (dateOfDays days).2.1 (dateOfDays days).2.2 = days := by
  obtain ⟨era, c, q, y, doy, falls⟩ := exists_date days
  have start := falls.before_year
  obtain ⟨low, high⟩ := falls.day
  obtain ⟨first, last⟩ : 0 ≤ 100 * c + 4 * q + y ∧ 100 * c + 4 * q + y ≤ 399 := by
    obtain ⟨hc, hq, hy, -, -, -⟩ := falls
    omega
  rw [dateOfDays_eq falls]
  generalize 100 * c + 4 * q + y = year at start first last
  generalize hmonth : (5 * doy + 2) / 153 = month
  have which : (year + era * 400) / 400 = era := by omega
  have inMonth : 0 ≤ doy - (153 * month + 2) / 5 := by omega
  have day : (153 * month + 2) / 5 + ((doy - (153 * month + 2) / 5 + 1).toNat : Int) - 1 = doy := by
    omega
  unfold daysOfDate
  dsimp only
  split
  · next early =>
    have counted : ((month + 3).toNat : Int) - 3 = month := by omega
    simp (disch := decide) only [Int.fdiv_eq_ediv_of_nonneg]
    rw [if_neg (by omega), if_pos (by omega), counted, which, day, add_sub_cancel_right]
    omega
  · next late =>
    have counted : ((month - 9).toNat : Int) + 9 = month := by omega
    simp (disch := decide) only [Int.fdiv_eq_ediv_of_nonneg]
    rw [if_pos (by omega), if_neg (by omega), add_sub_cancel_right, counted, which, day,
      add_sub_cancel_right]
    omega

end FrameLoop.Calendar
