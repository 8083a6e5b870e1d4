import TransferLifecycle.Instant.Calendar

set_option autoImplicit false

/- The date of a day names a day that exists, and the day is found again by its date. A day of an era
is taken apart by centuries, by cycles of four years and by years; the last part of each may have one
day more than the others. -/
namespace TransferLifecycle

/-- A day of an era by its century, the cycle of four years in it, the year in the cycle and the day
in the year. A day 365 is there only in the last year of a cycle, and in the last year of a century
only if the century is the last one. -/
structure EraDay where
  century : Nat
  cycle : Nat
  year : Nat
  day : Nat
  century_le : century ≤ 3
  cycle_le : cycle ≤ 24
  year_le : year ≤ 3
  day_le : day ≤ 365
  leap : day = 365 → year = 3 ∧ (cycle < 24 ∨ century = 3)

namespace EraDay

/-- The days of the era before this one. -/
def count (d : EraDay) : Nat := 36524 * d.century + 1461 * d.cycle + 365 * d.year + d.day

/-- The years of the era before that of the day. -/
def years (d : EraDay) : Nat := 100 * d.century + 4 * d.cycle + d.year

theorem years_le (d : EraDay) : d.years ≤ 399 := by
  have hc := d.century_le
  have hq := d.cycle_le
  have hy := d.year_le
  unfold years
  omega

theorem count_lt (d : EraDay) : d.count < 146097 := by
  obtain ⟨c, q, y, n, hc, hq, hy, hn, hleap⟩ := d
  simp only [count]
  omega

theorem exists_count {n : Nat} (h : n < 146097) : ∃ d : EraDay, d.count = n := by
  obtain ⟨c, r, hc, hr, hlast, rfl⟩ :
      ∃ c r, c ≤ 3 ∧ r ≤ 36524 ∧ (r = 36524 → c = 3) ∧ n = 36524 * c + r :=
    ⟨min (n / 36524) 3, n - 36524 * min (n / 36524) 3, by omega, by omega, by omega, by omega⟩
  obtain ⟨q, s, hq, hs, hcycle, rfl⟩ :
      ∃ q s, q ≤ 24 ∧ s ≤ 1460 ∧ (s = 1460 → q < 24 ∨ c = 3) ∧ r = 1461 * q + s :=
    ⟨r / 1461, r % 1461, by omega, by omega, by omega, by omega⟩
  obtain ⟨y, d, hy, hd, hyear, rfl⟩ :
      ∃ y d, y ≤ 3 ∧ d ≤ 365 ∧ (d = 365 → y = 3) ∧ s = 365 * y + d :=
    ⟨min (s / 365) 3, s - 365 * min (s / 365) 3, by omega, by omega, by omega, by omega⟩
  refine ⟨⟨c, q, y, d, hc, hq, hy, hd, fun h => ⟨hyear h, hcycle ?_⟩⟩, ?_⟩
  · rw [h, hyear h]
  · simp only [count]
    omega

/-- A division by the days of a part may count the day that the last part has more; these are the
three places where it does. -/
theorem div_years (d : EraDay) :
    (d.count - d.count / 1460 + d.count / 36524 - d.count / 146096) / 365 = d.years := by
  obtain ⟨c, q, y, n, hc, hq, hy, hn, hleap⟩ := d
  simp only [count, years]
  have cycles : (36524 * c + 1461 * q + 365 * y + n) / 1460 =
      25 * c + q + if 1460 ≤ 24 * c + q + 365 * y + n then 1 else 0 := by
    split <;> omega
  have centuries : (36524 * c + 1461 * q + 365 * y + n) / 36524 =
      c + if 1461 * q + 365 * y + n = 36524 then 1 else 0 := by
    split <;> omega
  have eras : (36524 * c + 1461 * q + 365 * y + n) / 146096 =
      if 36524 * c + 1461 * q + 365 * y + n = 146096 then 1 else 0 := by
    split <;> omega
  rw [cycles, centuries, eras]
  split <;> split <;> split <;> omega

/-- The days of the era, year by year: every fourth year has one more, but not every hundredth. -/
theorem count_eq (d : EraDay) : d.count + d.years / 100 = 365 * d.years + d.years / 4 + d.day := by
  obtain ⟨c, q, y, n, hc, hq, hy, hn, hleap⟩ := d
  simp only [count, years]
  have hundreds : (100 * c + 4 * q + y) / 100 = c := by omega
  have fours : (100 * c + 4 * q + y) / 4 = 25 * c + q := by omega
  rw [hundreds, fours]
  omega

/-- The months of the year before that of the day, from March on. -/
def months (d : EraDay) : Nat := (5 * d.day + 2) / 153

theorem months_le (d : EraDay) : d.months ≤ 11 := by
  have h := d.day_le
  unfold months
  omega

/-- The day in its month. -/
def dayOfMonth (d : EraDay) : Nat := d.day + 1 - (153 * d.months + 2) / 5

theorem dayOfYear_eq (d : EraDay) : Date.dayOfYear d.months d.dayOfMonth = d.day := by
  simp only [Date.dayOfYear, dayOfMonth, months]
  omega

/-- The date of a day of an era. The year ends with February. -/
def date (d : EraDay) (era : Int) : Date :=
  if d.months < 10 then ⟨era * 400 + d.years, d.months + 3, d.dayOfMonth⟩
  else ⟨era * 400 + d.years + 1, d.months - 9, d.dayOfMonth⟩

theorem ofDays_eq (d : EraDay) (era : Int) :
    Date.ofDays (era * Date.daysPerEra + d.count - Date.daysToEpoch) = d.date era := by
  have small := d.count_lt
  have shifted : era * Date.daysPerEra + d.count - Date.daysToEpoch + Date.daysToEpoch =
      d.count + era * Date.daysPerEra := by omega
  have eras : (d.count + era * Date.daysPerEra) / Date.daysPerEra = era := by
    unfold Date.daysPerEra
    omega
  have inside : ((d.count + era * Date.daysPerEra) % Date.daysPerEra).toNat = d.count := by
    unfold Date.daysPerEra
    omega
  have months : (5 * d.day + 2) / 153 = d.months := rfl
  have ofMonth : d.day + 1 - (153 * d.months + 2) / 5 = d.dayOfMonth := rfl
  have day : d.count + d.years / 100 - d.years / 4 - 365 * d.years = d.day := by
    have balance := d.count_eq
    omega
  have hm := d.months_le
  simp only [Date.ofDays, shifted, eras, inside, div_years, day, months, ofMonth, date]
  by_cases late : d.months < 10
  · have after : ¬ d.months + 3 ≤ 2 := by omega
    simp only [late, after, if_true, if_false]
  · have before : d.months - 9 ≤ 2 := by omega
    simp only [late, before, if_true, if_false]

theorem toDays_date (d : EraDay) (era : Int) :
    (d.date era).toDays = era * Date.daysPerEra + d.count - Date.daysToEpoch := by
  have hy := d.years_le
  have hm := d.months_le
  have month : ((d.date era).month + 9) % 12 = d.months := by
    unfold date
    split <;> simp only <;> omega
  have year : (if (d.date era).month ≤ 2 then (d.date era).year - 1 else (d.date era).year) =
      era * 400 + d.years := by
    unfold date
    split <;> simp only <;> split <;> omega
  have day : (d.date era).day = d.dayOfMonth := by
    unfold date
    split <;> rfl
  have eras : (era * 400 + d.years) / 400 = era := by omega
  have inside : (era * 400 + d.years) % 400 = d.years := by omega
  have balance := d.count_eq
  simp only [Date.toDays, year, month, day, dayOfYear_eq, eras, inside]
  omega

theorem isLeapYear_of_last_day (d : EraDay) (last : d.day = 365) (era : Int) :
    Date.isLeapYear (era * 400 + d.years + 1) = true := by
  obtain ⟨c, q, y, n, hc, hq, hy, hn, hleap⟩ := d
  obtain ⟨rfl, full⟩ := hleap last
  have fourth : (era * 400 + (100 * c + 4 * q + 3 : Nat) + 1) % 4 = 0 := by omega
  have hundredth : (era * 400 + (100 * c + 4 * q + 3 : Nat) + 1) % 100 ≠ 0 ∨
      (era * 400 + (100 * c + 4 * q + 3 : Nat) + 1) % 400 = 0 := by omega
  simp only [Date.isLeapYear, years, fourth]
  simpa using hundredth

theorem one_le_dayOfMonth (d : EraDay) : 1 ≤ d.dayOfMonth := by
  simp only [dayOfMonth, months]
  omega

/-- The month has the day. -/
theorem dayOfMonth_le (d : EraDay) (era : Int) :
    d.dayOfMonth ≤ Date.daysInMonth (d.date era).year (d.date era).month := by
  have hd := d.day_le
  by_cases february : d.months = 11
  · have named : d.date era = ⟨era * 400 + d.years + 1, 2, d.dayOfMonth⟩ := by
      simp [date, february]
    rw [named]
    simp only [Date.daysInMonth, if_true]
    split
    next leap =>
      simp only [dayOfMonth, february]
      omega
    next common =>
      have notLast : d.day ≠ 365 := fun last => common (d.isLeapYear_of_last_day last era)
      simp only [dayOfMonth, february]
      omega
  · have hm := d.months_le
    have other : (d.date era).month ≠ 2 := by
      unfold date
      split <;> simp only <;> omega
    have short : (d.date era).month = 4 ∨ (d.date era).month = 6 ∨ (d.date era).month = 9 ∨
        (d.date era).month = 11 ↔ d.months = 1 ∨ d.months = 3 ∨ d.months = 6 ∨ d.months = 8 := by
      unfold date
      split <;> simp only <;> omega
    rw [Date.daysInMonth, if_neg other]
    by_cases thirty : d.months = 1 ∨ d.months = 3 ∨ d.months = 6 ∨ d.months = 8
    · rw [if_pos (short.2 thirty)]
      simp only [dayOfMonth, months] at thirty ⊢
      omega
    · rw [if_neg fun h => thirty (short.1 h)]
      simp only [dayOfMonth, months]
      omega

theorem isValid_date (d : EraDay) {era : Int} (least : -262143 ≤ (d.date era).year)
    (most : (d.date era).year ≤ 262142) : (d.date era).isValid = true := by
  have hm := d.months_le
  have month : 1 ≤ (d.date era).month ∧ (d.date era).month ≤ 12 := by
    unfold date
    split <;> simp only <;> omega
  have day : (d.date era).day = d.dayOfMonth := by
    unfold date
    split <;> rfl
  simp only [Date.isValid, Bool.and_eq_true, decide_eq_true_eq, day]
  exact ⟨⟨⟨⟨⟨least, most⟩, month.1⟩, month.2⟩, d.one_le_dayOfMonth⟩, d.dayOfMonth_le era⟩

end EraDay

namespace Date

theorem daysInMonth_le (year : Int) (month : Nat) : daysInMonth year month ≤ 31 := by
  unfold daysInMonth
  split <;> split <;> omega

/-- A date that exists has a month and a day of up to two digits. -/
theorem bounds_of_isValid {d : Date} (valid : d.isValid = true) :
    (1 ≤ d.month ∧ d.month ≤ 12) ∧ 1 ≤ d.day ∧ d.day ≤ 31 := by
  simp only [isValid, Bool.and_eq_true, decide_eq_true_eq] at valid
  obtain ⟨⟨⟨⟨-, least⟩, most⟩, first⟩, last⟩ := valid
  exact ⟨⟨least, most⟩, first, Nat.le_trans last (daysInMonth_le d.year d.month)⟩

/-- Every day is a day of some era. -/
theorem exists_eraDay (days : Int) :
    ∃ (d : EraDay) (era : Int), ofDays days = d.date era ∧
      days = era * daysPerEra + d.count - daysToEpoch := by
  have positive : 0 ≤ (days + daysToEpoch) % daysPerEra := Int.emod_nonneg _ (by decide)
  have bound : ((days + daysToEpoch) % daysPerEra).toNat < 146097 := by
    have small := Int.emod_lt_of_pos (days + daysToEpoch) (b := daysPerEra) (by decide)
    unfold daysPerEra at *
    omega
  obtain ⟨d, counted⟩ := EraDay.exists_count bound
  have split : days = (days + daysToEpoch) / daysPerEra * daysPerEra + d.count - daysToEpoch := by
    have whole := Int.mul_ediv_add_emod (days + daysToEpoch) daysPerEra
    rw [Int.mul_comm] at whole
    rw [counted]
    omega
  refine ⟨d, _, ?_, split⟩
  rw [← d.ofDays_eq, ← split]

theorem toDays_ofDays (days : Int) : (ofDays days).toDays = days := by
  obtain ⟨d, era, dated, rfl⟩ := exists_eraDay days
  rw [dated, d.toDays_date]

theorem isValid_ofDays {days : Int} (least : -262143 ≤ (ofDays days).year)
    (most : (ofDays days).year ≤ 262142) : (ofDays days).isValid = true := by
  obtain ⟨d, era, dated, -⟩ := exists_eraDay days
  rw [dated] at least most ⊢
  exact d.isValid_date least most

end Date

end TransferLifecycle
