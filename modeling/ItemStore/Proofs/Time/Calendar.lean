import Mathlib.Tactic.IntervalCases
import ItemStore.Time.Timestamp
/-!
# The calendar counts days

A day number and the calendar day it is worked out to are the same day: counting the days up to that calendar day gives
the number back, and its month has that day (`calendarDay_spec`).
-/
namespace ItemStore

/-! ## Years of an era -/

/-- The day of the era on which its year `k` begins. -/
def yearStart (k : Int) : Int := 365 * k + k / 4 - k / 100 + k / 400

theorem isLeapYear_iff {y : Int} : isLeapYear y = true ↔ y % 4 = 0 ∧ (y % 100 ≠ 0 ∨ y % 400 = 0) := by
  simp [isLeapYear]

/-- A year that begins in March ends with the leap day of the next. -/
theorem yearStart_succ (k : Int) : yearStart (k + 1) = yearStart k + 365 + (if isLeapYear (k + 1) then 1 else 0) := by
  unfold yearStart
  split
  · next h =>
    rw [isLeapYear_iff] at h
    omega
  · next h =>
    rw [isLeapYear_iff] at h
    omega

theorem isLeapYear_add_eras (k era : Int) : isLeapYear (k + 400 * era) = isLeapYear k := by
  rw [Bool.eq_iff_iff, isLeapYear_iff, isLeapYear_iff]
  omega

/-- The year that a day of the era falls into. -/
theorem yearOfEra_spec {day year : Int} (h0 : 0 ≤ day) (h1 : day < 146097)
    (hyear : year = (day - day / 1460 + day / 36524 - day / 146096) / 365) :
    0 ≤ year ∧ year < 400 ∧ yearStart year ≤ day ∧ day < yearStart (year + 1) := by
  have hbounds : 0 ≤ year ∧ year < 400 := by omega
  refine ⟨hbounds.1, hbounds.2, ?_⟩
  unfold yearStart
  by_cases hlast : day = 146096
  · subst hlast
    have hyear : year = 399 := by omega
    rw [hyear]
    decide
  -- but for its last day, an era is four centuries of 36524 days
  have hera : day / 146096 = 0 := by omega
  have hfirst : year / 400 = 0 := by omega
  have hcentury : day / 36524 = 0 ∨ day / 36524 = 1 ∨ day / 36524 = 2 ∨ day / 36524 = 3 := by omega
  rw [hera] at hyear
  have hhundred : year / 100 = day / 36524 := by
    rcases hcentury with h | h | h | h <;> rw [h] at hyear ⊢ <;> omega
  have hfour : year / 4 ≤ day / 1460 := by
    rcases hcentury with h | h | h | h <;> rw [h] at hyear <;> omega
  have hfour' : day / 1460 ≤ (year + 1) / 4 := by
    rcases hcentury with h | h | h | h <;> rw [h] at hyear <;> omega
  rw [hfirst, hhundred]
  constructor
  · omega
  · by_cases hend : year + 1 = 100 * (day / 36524 + 1)
    · omega
    · have hsame : (year + 1) / 100 = day / 36524 := by omega
      have hsame' : (year + 1) / 400 = 0 := by omega
      omega

/-- The day of the year that a day of the era is.  Only before a leap year's March has it a day 365. -/
theorem dayOfYear_spec {day year dayOfYear : Int} (h0 : 0 ≤ day) (h1 : day < 146097)
    (hyear : year = (day - day / 1460 + day / 36524 - day / 146096) / 365)
    (hday : dayOfYear = day - (365 * year + year / 4 - year / 100)) :
    (0 ≤ year ∧ year < 400) ∧ day = yearStart year + dayOfYear ∧ 0 ≤ dayOfYear ∧
      (dayOfYear ≤ 364 ∨ dayOfYear = 365 ∧ isLeapYear (year + 1) = true) := by
  obtain ⟨hlow, hhigh, hstart, hend⟩ := yearOfEra_spec h0 h1 hyear
  have hfirst : year / 400 = 0 := by omega
  have hsum : day = yearStart year + dayOfYear := by
    rw [hday, yearStart]
    omega
  rw [yearStart_succ] at hend
  refine ⟨⟨hlow, hhigh⟩, hsum, by omega, ?_⟩
  split at hend
  · next hleap =>
    by_cases hlast : dayOfYear ≤ 364
    · exact .inl hlast
    · exact .inr ⟨by omega, hleap⟩
  · exact .inl (by omega)

/-! ## Months of a year -/

/-- The months but February lie five in 153 days, counted from March. -/
theorem daysInMonth_eq (y : Int) {m : Nat} (h : 1 ≤ m ∧ m ≤ 12) (hm : m ≠ 2) :
    (daysInMonth y m : Int) = (153 * ((m + 9) % 12 + 1) + 2) / 5 - (153 * ((m + 9) % 12) + 2) / 5 := by
  obtain ⟨hlow, hhigh⟩ := h
  interval_cases m
  case «2» => exact absurd rfl hm
  all_goals rfl

/-- The calendar month, and the day in it, of a day of the year that begins in March.  Only in a leap year has it a day
365. -/
theorem monthOfYear_spec {day month : Int} {m d : Nat} (y : Int) (h0 : 0 ≤ day)
    (h1 : day ≤ 364 ∨ day = 365 ∧ isLeapYear y = true) (hmonth : month = (5 * day + 2) / 153)
    (hm : (m : Int) = if month < 10 then month + 3 else month - 9) (hd : (d : Int) = day - (153 * month + 2) / 5 + 1) :
    (1 ≤ m ∧ m ≤ 12) ∧ (1 ≤ d ∧ d ≤ daysInMonth y m) ∧
    (153 * (((m : Int) + 9) % 12) + 2) / 5 + d - 1 = day := by
  have hbounds : 0 ≤ month ∧ month ≤ 11 := by omega
  have hyear : (1 ≤ m ∧ m ≤ 12) ∧ ((m : Int) + 9) % 12 = month ∧ (m = 2 ↔ month = 11) := by
    split at hm <;> omega
  obtain ⟨hrange, hback, hfebruary⟩ := hyear
  refine ⟨hrange, ⟨by omega, ?_⟩, by rw [hback]; omega⟩
  by_cases htwo : m = 2
  · rw [daysInMonth, if_pos htwo]
    have hlast : month = 11 := hfebruary.1 htwo
    rcases h1 with h1 | ⟨h1, hleap⟩
    · split <;> omega
    · rw [hleap, if_pos rfl]
      omega
  · have hdays := daysInMonth_eq y hrange htwo
    rw [hback] at hdays
    omega

/-! ## Days -/

/-- Counted from the year that begins in March, the day number is made of era, year and day of the year. -/
theorem dayNumber_eq (era : Int) {year day : Int} {m d : Nat} (hyear : 0 ≤ year ∧ year < 400)
    (hday : (153 * (((m : Int) + 9) % 12) + 2) / 5 + d - 1 = day) :
    dayNumber (year + era * 400 + if m ≤ 2 then 1 else 0) m d =
      era * 146097 + (yearStart year + day) - 719468 := by
  have hmarch : ∀ y, y = year + era * 400 + (if m ≤ 2 then 1 else 0) →
      (if m ≤ 2 then y - 1 else y) = year + era * 400 := by
    intro y hy
    split at hy <;> split <;> omega
  have hof : (year + era * 400) % 400 = year := by omega
  have hera : (year + era * 400) / 400 = era := by omega
  unfold dayNumber yearStart
  simp only [hmarch _ rfl, hof, hera, hday]
  omega

/-- **The calendar day of a day number is one of the calendar, and is that day.** -/
theorem calendarDay_spec (n : Int) : ∃ (y : Int) (m d : Nat), calendarDay n = (y, m, d) ∧ dayNumber y m d = n ∧
    (1 ≤ m ∧ m ≤ 12) ∧ 1 ≤ d ∧ d ≤ daysInMonth y m := by
  obtain ⟨era, hera⟩ : ∃ era, era = (n + 719468) / 146097 := ⟨_, rfl⟩
  obtain ⟨day, hday⟩ : ∃ day, day = (n + 719468) % 146097 := ⟨_, rfl⟩
  obtain ⟨year, hyear⟩ : ∃ year, year = (day - day / 1460 + day / 36524 - day / 146096) / 365 := ⟨_, rfl⟩
  obtain ⟨dayOfYear, hdayOfYear⟩ : ∃ d, d = day - (365 * year + year / 4 - year / 100) := ⟨_, rfl⟩
  obtain ⟨month, hmonth⟩ : ∃ month, month = (5 * dayOfYear + 2) / 153 := ⟨_, rfl⟩
  obtain ⟨hrange, hsum, hfirst, hlast⟩ := dayOfYear_spec (by omega) (by omega) hyear hdayOfYear
  have hbounds : 0 ≤ dayOfYear ∧ dayOfYear ≤ 365 ∧ 0 ≤ month ∧ month ≤ 11 := by omega
  obtain ⟨m, hm⟩ : ∃ m : Nat, (m : Int) = if month < 10 then month + 3 else month - 9 :=
    ⟨(if month < 10 then month + 3 else month - 9).toNat, by split <;> omega⟩
  obtain ⟨d, hd⟩ : ∃ d : Nat, (d : Int) = dayOfYear - (153 * month + 2) / 5 + 1 :=
    ⟨(dayOfYear - (153 * month + 2) / 5 + 1).toNat, by omega⟩
  have heq : calendarDay n = (year + era * 400 + (if m ≤ 2 then 1 else 0), m, d) := by
    simp only [calendarDay, ← hday, ← hera, ← hyear, ← hdayOfYear, ← hmonth, ← hm, ← hd, Int.toNat_natCast,
      Nat.cast_le_ofNat]
  -- the leap day comes before March, in the calendar year that has already begun
  have hleap : dayOfYear ≤ 364 ∨ dayOfYear = 365 ∧
      isLeapYear (year + era * 400 + if m ≤ 2 then 1 else 0) = true := by
    refine hlast.imp_right fun ⟨hfull, hleap⟩ => ⟨hfull, ?_⟩
    have hm2 : m ≤ 2 := by split at hm <;> omega
    have hnext : year + era * 400 + 1 = year + 1 + 400 * era := by omega
    rw [if_pos hm2, hnext, isLeapYear_add_eras, hleap]
  obtain ⟨hmrange, hdrange, hback⟩ := monthOfYear_spec _ hfirst hleap hmonth hm hd
  refine ⟨_, m, d, heq, ?_, hmrange, hdrange⟩
  rw [dayNumber_eq era hrange hback]
  omega

end ItemStore
