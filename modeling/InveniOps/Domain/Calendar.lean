import Mathlib.Tactic.IntervalCases
import InveniOps.Domain.Dates

/-!
# The calendar

`civilOfDays` inverted, and the fields of a time value: the time value is counted back from
them.
-/

namespace InveniOps.Domain

/-- The number of days since the Unix epoch, from the year, month and day. -/
def daysOfCivil (year : ℤ) (month day : ℕ) : ℤ :=
  let shiftedYear := if month ≤ 2 then year - 1 else year
  let yearOfEra := (shiftedYear % 400).toNat
  let shifted := if 2 < month then month - 3 else month + 9
  let dayOfEra := 365 * yearOfEra + yearOfEra / 4 - yearOfEra / 100
    + ((153 * shifted + 2) / 5 + day - 1)
  shiftedYear / 400 * 146097 + dayOfEra - 719468

section

variable {n q c : ℕ}

/-- The centuries of an era that end within its first `n` days are those of its years. -/
lemma century_yearOfEra (hn : n < 146096) (hc : c = n / 36524) (hq : q = (n - n / 1460 + c) / 365) :
    q / 100 = c := by
  have hle : c ≤ 3 := by omega
  interval_cases c <;> omega

lemma bounds_yearOfEra (hn : n < 146097)
    (hq : q = (n - n / 1460 + n / 36524 - n / 146096) / 365) :
    q ≤ 399 ∧ 365 * q + q / 4 - q / 100 ≤ n ∧ n ≤ 365 * q + q / 4 - q / 100 + 365 := by
  rcases Nat.lt_succ_iff_lt_or_eq.1 hn with hlt | rfl
  · rw [Nat.div_eq_of_lt hlt, Nat.sub_zero] at hq
    obtain ⟨c, hc⟩ : ∃ c, c = n / 36524 := ⟨_, rfl⟩
    rw [← hc] at hq
    have hcentury := century_yearOfEra hlt hc hq
    have hle : c ≤ 3 := by omega
    refine ⟨by omega, ?_, ?_⟩
    · interval_cases c <;> omega
    · interval_cases c <;> omega
  · -- the last day of an era is a leap day, which the formula for `q` takes off
    subst hq
    decide

end

/-- The days before a day of the year `q` of an era, in the month `s` after March. -/
lemma daysOfCivil_eq (era : ℤ) {q s : ℕ} (day : ℕ) (hq : q ≤ 399) (hs : s ≤ 11) :
    daysOfCivil (q + era * 400 + (if (if s < 10 then s + 3 else s - 9) ≤ 2 then 1 else 0))
        (if s < 10 then s + 3 else s - 9) day
      = era * 146097
        + ((365 * q + q / 4 - q / 100 + ((153 * s + 2) / 5 + day - 1) : ℕ) : ℤ) - 719468 := by
  rcases Nat.lt_or_ge s 10 with hlt | hge
  · have hyear : ((q : ℤ) + era * 400) % 400 = q := by omega
    have hera : ((q : ℤ) + era * 400) / 400 = era := by omega
    simp only [daysOfCivil, if_pos hlt, if_neg (by omega : ¬ s + 3 ≤ 2),
      if_pos (by omega : 2 < s + 3), add_zero, hyear, hera, Int.toNat_natCast, Nat.add_sub_cancel]
  · have hyear : ((q : ℤ) + era * 400 + 1 - 1) % 400 = q := by omega
    have hera : ((q : ℤ) + era * 400 + 1 - 1) / 400 = era := by omega
    simp only [daysOfCivil, if_neg (by omega : ¬ s < 10), if_pos (by omega : s - 9 ≤ 2),
      if_neg (by omega : ¬ 2 < s - 9), hyear, hera, Int.toNat_natCast,
      Nat.sub_add_cancel (by omega : 9 ≤ s)]

/-- A day is counted by its era, its year of the era, its month after March and its day. -/
lemma civilOfDays_spec (days : ℤ) : ∃ (era : ℤ) (q s day : ℕ), q ≤ 399 ∧ s ≤ 11 ∧ 1 ≤ day ∧
    day ≤ 31 ∧
    civilOfDays days = (q + era * 400 + (if (if s < 10 then s + 3 else s - 9) ≤ 2 then 1 else 0),
      if s < 10 then s + 3 else s - 9, day) ∧
    days = era * 146097
      + ((365 * q + q / 4 - q / 100 + ((153 * s + 2) / 5 + day - 1) : ℕ) : ℤ) - 719468 := by
  obtain ⟨n, hn⟩ : ∃ n, n = ((days + 719468) % 146097).toNat := ⟨_, rfl⟩
  obtain ⟨q, hq⟩ : ∃ q, q = (n - n / 1460 + n / 36524 - n / 146096) / 365 := ⟨_, rfl⟩
  obtain ⟨r, hr⟩ : ∃ r, r = n - (365 * q + q / 4 - q / 100) := ⟨_, rfl⟩
  obtain ⟨s, hs⟩ : ∃ s, s = (5 * r + 2) / 153 := ⟨_, rfl⟩
  obtain ⟨hyears, hlow, hhigh⟩ := bounds_yearOfEra (by omega : n < 146097) hq
  have hmonths : s ≤ 11 := by omega
  have hdays : (153 * s + 2) / 5 ≤ r ∧ r ≤ (153 * s + 2) / 5 + 30 := by
    clear hq hn hr hlow hhigh
    interval_cases s <;> omega
  refine ⟨(days + 719468) / 146097, q, s, r - (153 * s + 2) / 5 + 1, hyears, hmonths, by omega,
    by omega, ?_, by omega⟩
  subst hs hr hq hn
  rfl

/-- The days of the calendar are counted back. -/
lemma daysOfCivil_civilOfDays (days : ℤ) :
    daysOfCivil (civilOfDays days).1 (civilOfDays days).2.1 (civilOfDays days).2.2 = days := by
  obtain ⟨era, q, s, day, hq, hs, -, -, hcivil, hdays⟩ := civilOfDays_spec days
  rw [hcivil, daysOfCivil_eq era day hq hs, hdays]

lemma civilOfDays_bounds (days : ℤ) :
    (1 ≤ (civilOfDays days).2.1 ∧ (civilOfDays days).2.1 ≤ 12) ∧
      1 ≤ (civilOfDays days).2.2 ∧ (civilOfDays days).2.2 ≤ 31 := by
  obtain ⟨era, q, s, day, -, hs, hday, hday', hcivil, -⟩ := civilOfDays_spec days
  rw [hcivil]
  refine ⟨?_, hday, hday'⟩
  simp only
  split_ifs <;> omega

/-! ### Time values and their fields -/

/-- Year, month, day and time of a day of the calendar. -/
structure DateFields where
  year : ℤ
  month : ℕ
  day : ℕ
  hours : ℕ
  minutes : ℕ
  seconds : ℕ
  milliseconds : ℕ
deriving DecidableEq

/-- The fields of a time value. -/
def dateFields (t : ℤ) : DateFields :=
  let civil := civilOfDays (t / 86400000)
  let ms := (t % 86400000).toNat
  ⟨civil.1, civil.2.1, civil.2.2, ms / 3600000, ms / 60000 % 60, ms / 1000 % 60, ms % 1000⟩

/-- `MakeDate`; minutes may run past the hour. -/
def DateFields.time (f : DateFields) : ℤ :=
  daysOfCivil f.year f.month f.day * 86400000
    + ((f.hours * 3600000 + f.minutes * 60000 + f.seconds * 1000 + f.milliseconds : ℕ) : ℤ)

/-- The fields are those of a time value. -/
def DateFields.Legal (f : DateFields) : Prop := dateFields f.time = f

instance (f : DateFields) : Decidable f.Legal := inferInstanceAs (Decidable (_ = _))

@[simp] lemma time_dateFields (t : ℤ) : (dateFields t).time = t := by
  have hms : ((t % 86400000).toNat / 3600000 * 3600000 + (t % 86400000).toNat / 60000 % 60 * 60000
      + (t % 86400000).toNat / 1000 % 60 * 1000 + (t % 86400000).toNat % 1000 : ℕ)
      = (t % 86400000).toNat := by
    omega
  have hdays := daysOfCivil_civilOfDays (t / 86400000)
  simp only [DateFields.time, dateFields, hdays, hms]
  omega

lemma legal_dateFields (t : ℤ) : (dateFields t).Legal := by
  rw [DateFields.Legal, time_dateFields]

/-- The fields of a date have the digits that the format leaves them. -/
lemma bounds_dateFields (t : ℤ) :
    (dateFields t).month < 10 ^ 2 ∧ (dateFields t).day < 10 ^ 2 ∧ (dateFields t).hours < 10 ^ 2 ∧
      (dateFields t).minutes < 10 ^ 2 ∧ (dateFields t).seconds < 10 ^ 2 ∧
      (dateFields t).milliseconds < 10 ^ 3 := by
  obtain ⟨⟨-, hmonth⟩, -, hday⟩ := civilOfDays_bounds (t / 86400000)
  simp only [dateFields]
  omega

lemma bounds_year {t : ℤ} (ht : -MAX_TIME ≤ t ∧ t ≤ MAX_TIME) :
    -999999 ≤ (dateFields t).year ∧ (dateFields t).year ≤ 999999 := by
  obtain ⟨era, q, s, day, hq, hs, -, hday, hcivil, hdays⟩ := civilOfDays_spec (t / 86400000)
  simp only [dateFields, hcivil]
  rw [MAX_TIME] at ht
  split_ifs <;> omega

/-! ### Whole minutes -/

/-- A whole minute has the fields of its times. -/
lemma dateFields_wholeMinute (t : ℤ) :
    dateFields (t - t % 60000) = { dateFields t with seconds := 0, milliseconds := 0 } := by
  have hday : (t - t % 60000) / 86400000 = t / 86400000 := by omega
  have hms : ((t - t % 60000) % 86400000).toNat
      = (t % 86400000).toNat - (t % 86400000).toNat % 60000 := by
    omega
  simp only [dateFields, hday, hms, DateFields.mk.injEq, true_and]
  omega

lemma time_wholeMinute (t : ℤ) :
    { dateFields t with seconds := 0, milliseconds := 0 : DateFields }.time = t - t % 60000 := by
  rw [← dateFields_wholeMinute, time_dateFields]

lemma seconds_or_milliseconds_pos (t : ℤ) :
    0 < (dateFields t).seconds ∨ 0 < (dateFields t).milliseconds ↔ t % 60000 ≠ 0 := by
  simp only [dateFields]
  omega

lemma time_nextMinute (f : DateFields) :
    { f with minutes := f.minutes + 1 : DateFields }.time = f.time + 60000 := by
  simp only [DateFields.time]
  push_cast
  omega

end InveniOps.Domain
