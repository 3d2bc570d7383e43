import Mathlib.Data.Int.ConditionallyCompleteOrder
import Mathlib.Data.Prod.Lex
import Mathlib.Tactic.IntervalCases
import Tickscope.Lib.Calendar

/-!
# The calendar, day by day

`civilFromDays` computes the date of a day by divisions. Here it is proved to be the proleptic
Gregorian calendar: the date of the next day is the next date (`civilFromDays_succ`), by the lengths
of the months and the rule of the leap years. So a later day has a later date, and `timegm` takes
the fields of `gmtime` back to the time.

A year that starts in March has `daysBefore` days before it, and `marchDate` is the date of one of its
days; every day is one of a year (`exists_year`), and of no other.
-/

namespace Tickscope.Lib.Calendar

/-! ## The rule -/

def IsLeap (year : Int) : Prop := year % 4 = 0 ∧ (year % 100 ≠ 0 ∨ year % 400 = 0)

instance (year : Int) : Decidable (IsLeap year) := inferInstanceAs (Decidable (_ ∧ _))

def daysInMonth (year month : Int) : Int :=
  if month = 2 then if IsLeap year then 29 else 28
  else if month = 4 ∨ month = 6 ∨ month = 9 ∨ month = 11 then 30
  else 31

/-- The next date, of year, month and day. -/
def nextDate : Int × Int × Int → Int × Int × Int
  | (year, month, day) =>
      if day < daysInMonth year month then (year, month, day + 1)
      else if month < 12 then (year, month + 1, 1)
      else (year + 1, 1, 1)

/-! ## Years that start in March -/

/-- The number of days from 0000-03-01 to the start of a year. -/
def daysBefore (year : Int) : Int := 365 * year + year / 4 - year / 100 + year / 400

/-- The leap day of a year that starts in March is one of the next calendar year. -/
def daysInYear (year : Int) : Int := if IsLeap (year + 1) then 366 else 365

/-- The date of a day of a year. -/
def marchDate (year doy : Int) : Int × Int × Int :=
  let m := (5 * doy + 2) / 153
  (if m < 10 then year else year + 1, if m < 10 then m + 3 else m - 9,
    doy - (153 * m + 2) / 5 + 1)

theorem daysBefore_succ (year : Int) : daysBefore (year + 1) = daysBefore year + daysInYear year := by
  unfold daysBefore daysInYear
  split
  case isTrue leap =>
    unfold IsLeap at leap
    omega
  case isFalse leap =>
    unfold IsLeap at leap
    omega

theorem two_le_daysInYear (year : Int) : 2 ≤ daysInYear year := by
  unfold daysInYear
  split <;> decide

theorem exists_year (day : Int) :
    ∃ year doy, 0 ≤ doy ∧ doy < daysInYear year ∧ day = daysBefore year + doy := by
  induction day using Int.induction_on with
  | zero => exact ⟨0, 0, le_rfl, by decide, by decide⟩
  | succ day ih =>
      obtain ⟨year, doy, nonneg, lt, same⟩ := ih
      by_cases last : doy + 1 = daysInYear year
      · have := two_le_daysInYear (year + 1)
        exact ⟨year + 1, 0, le_rfl, by omega, by rw [daysBefore_succ]; omega⟩
      · exact ⟨year, doy + 1, by omega, by omega, by omega⟩
  | pred day ih =>
      obtain ⟨year, doy, nonneg, lt, same⟩ := ih
      by_cases first : doy = 0
      · have := two_le_daysInYear (year - 1)
        have before := daysBefore_succ (year - 1)
        rw [sub_add_cancel] at before
        exact ⟨year - 1, daysInYear (year - 1) - 1, by omega, by omega, by omega⟩
      · exact ⟨year, doy - 1, by omega, by omega, by omega⟩

/-- A year by its place in its four years, theirs in its century, and its century in 400 years. -/
theorem yearOfEra_eq {f q v doy : Int} (hf : 0 ≤ f ∧ f ≤ 3) (hq : 0 ≤ q ∧ q ≤ 24)
    (hv : 0 ≤ v ∧ v ≤ 3) (nonneg : 0 ≤ doy)
    (le : doy ≤ 364 ∨ doy = 365 ∧ v = 3 ∧ (q < 24 ∨ f = 3)) :
    yearOfEra (36524 * f + 1461 * q + 365 * v + doy) = 100 * f + 4 * q + v := by
  generalize hd : 36524 * f + 1461 * q + 365 * v + doy = doe
  have cycles : doe / 1460 = 25 * f + q ∨ doe / 1460 = 25 * f + q + 1 ∧ v = 3 ∧ 1 ≤ doy := by
    omega
  have centuries : doe / 36524 - doe / 146096 = f := by
    by_cases last : doe = 146096
    · omega
    · have none : doe / 146096 = 0 := by omega
      have some : doe / 36524 = f := by omega
      omega
  unfold yearOfEra
  omega

theorem daysBeforeYear_eq {f q v : Int} (hq : 0 ≤ q ∧ q ≤ 24) (hv : 0 ≤ v ∧ v ≤ 3) :
    daysBeforeYear (100 * f + 4 * q + v) = 36524 * f + 1461 * q + 365 * v := by
  have cycles : (100 * f + 4 * q + v) / 4 = 25 * f + q := by omega
  have centuries : (100 * f + 4 * q + v) / 100 = f := by omega
  rw [daysBeforeYear, cycles, centuries]
  omega

theorem civilFromDays_era {f q v doy : Int} (hf : 0 ≤ f ∧ f ≤ 3) (hq : 0 ≤ q ∧ q ≤ 24)
    (hv : 0 ≤ v ∧ v ≤ 3) (nonneg : 0 ≤ doy)
    (le : doy ≤ 364 ∨ doy = 365 ∧ v = 3 ∧ (q < 24 ∨ f = 3)) (era : Int) :
    civilFromDays (36524 * f + 1461 * q + 365 * v + doy + 146097 * era - 719468) =
      marchDate (100 * f + 4 * q + v + 400 * era) doy := by
  have year := yearOfEra_eq hf hq hv nonneg le
  have before := daysBeforeYear_eq (f := f) hq hv
  have upper : 36524 * f + 1461 * q + 365 * v + doy < 146097 := by omega
  rw [civilFromDays, sub_add_cancel, Int.add_mul_emod_self_left,
    Int.emod_eq_of_lt (by omega) upper, Int.add_mul_ediv_left _ _ (by decide),
    Int.ediv_eq_zero_of_lt (by omega) upper, year, before, zero_add, add_sub_cancel_left]
  rfl

theorem le_of_lt_daysInYear {year doy : Int} (lt : doy < daysInYear year) :
    doy ≤ 364 ∨ doy = 365 ∧ year % 4 = 3 ∧ (year % 100 / 4 < 24 ∨ year % 400 / 100 = 3) := by
  unfold daysInYear at lt
  split at lt
  case isTrue leap =>
    unfold IsLeap at leap
    omega
  case isFalse => omega

theorem civilFromDays_eq {year doy : Int} (nonneg : 0 ≤ doy) (lt : doy < daysInYear year) :
    civilFromDays (daysBefore year + doy - 719468) = marchDate year doy := by
  have years : year = 100 * (year % 400 / 100) + 4 * (year % 100 / 4) + year % 4 +
      400 * (year / 400) := by omega
  have days : daysBefore year + doy = 36524 * (year % 400 / 100) + 1461 * (year % 100 / 4) +
      365 * (year % 4) + doy + 146097 * (year / 400) := by
    unfold daysBefore
    omega
  rw [days, civilFromDays_era (by omega) (by omega) (by omega) nonneg (le_of_lt_daysInYear lt),
    ← years]

/-! ## The next date -/

/-- The lengths of the months from March on, where the year cuts February short. -/
theorem daysInMonth_march (year : Int) {m : Int} (lo : 0 ≤ m) (hi : m ≤ 11) :
    daysInMonth (if m < 10 then year else year + 1) (if m < 10 then m + 3 else m - 9) =
      min ((153 * (m + 1) + 2) / 5) (daysInYear year) - (153 * m + 2) / 5 := by
  by_cases leap : IsLeap (year + 1)
  · rw [daysInYear, if_pos leap]
    interval_cases m <;> simp [daysInMonth, leap]
  · rw [daysInYear, if_neg leap]
    interval_cases m <;> simp [daysInMonth, leap]

theorem nextDate_marchDate {year doy : Int} (nonneg : 0 ≤ doy) (lt : doy + 1 < daysInYear year) :
    nextDate (marchDate year doy) = marchDate year (doy + 1) := by
  have le := le_of_lt_daysInYear lt
  have lo : 0 ≤ (5 * doy + 2) / 153 := by omega
  have hi : (5 * doy + 2) / 153 ≤ 11 := by omega
  rw [marchDate, marchDate, nextDate, daysInMonth_march year lo hi]
  split
  case isTrue same =>
    have month : (5 * (doy + 1) + 2) / 153 = (5 * doy + 2) / 153 := by omega
    rw [month, add_sub_right_comm]
  case isFalse beyond =>
    have month : (5 * (doy + 1) + 2) / 153 = (5 * doy + 2) / 153 + 1 := by omega
    have day : doy + 1 - (153 * ((5 * doy + 2) / 153 + 1) + 2) / 5 + 1 = 1 := by omega
    rw [month, day]
    have earlier : (5 * doy + 2) / 153 ≤ 10 := by omega
    generalize (5 * doy + 2) / 153 = m at *
    interval_cases m <;> rfl

/-- The last day of February is the last day of its year. -/
theorem nextDate_marchDate_last {year doy : Int} (last : doy + 1 = daysInYear year) :
    nextDate (marchDate year doy) = marchDate (year + 1) 0 := by
  have le := le_of_lt_daysInYear (show doy < daysInYear year by omega)
  have february : (5 * doy + 2) / 153 = 11 := by
    unfold daysInYear at last
    split at last <;> omega
  rw [marchDate, marchDate, nextDate, february, daysInMonth_march year (by decide) le_rfl]
  rw [if_neg (by omega)]
  rfl

/-- Every day is a day of a year. -/
theorem exists_marchDate (days : Int) :
    ∃ year doy, 0 ≤ doy ∧ doy < daysInYear year ∧ days + 719468 = daysBefore year + doy ∧
      civilFromDays days = marchDate year doy := by
  obtain ⟨year, doy, nonneg, lt, same⟩ := exists_year (days + 719468)
  have date := civilFromDays_eq nonneg lt
  rw [← same, add_sub_cancel_right] at date
  exact ⟨year, doy, nonneg, lt, same, date⟩

/-- `civilFromDays` follows the calendar. -/
theorem civilFromDays_succ (days : Int) :
    civilFromDays (days + 1) = nextDate (civilFromDays days) := by
  obtain ⟨year, doy, nonneg, lt, same, date⟩ := exists_marchDate days
  rw [date]
  by_cases last : doy + 1 = daysInYear year
  · have first := two_le_daysInYear (year + 1)
    rw [nextDate_marchDate_last last, ← civilFromDays_eq le_rfl (by omega), daysBefore_succ, ← last]
    congr 1
    omega
  · rw [nextDate_marchDate nonneg (by omega), ← civilFromDays_eq (by omega) (by omega)]
    congr 1
    omega

example : civilFromDays 0 = (1970, 1, 1) := by decide

/-! ## Order -/

/-- A date for comparing, by the year first. -/
def dateKey (date : Int × Int × Int) : Int ×ₗ Int ×ₗ Int := toLex (date.1, toLex date.2)

theorem dateKey_lt_nextDate (date : Int × Int × Int) : dateKey date < dateKey (nextDate date) := by
  obtain ⟨year, month, day⟩ := date
  rw [nextDate, dateKey, dateKey, Prod.Lex.toLex_lt_toLex, Prod.Lex.toLex_lt_toLex]
  split
  · exact .inr ⟨rfl, .inr ⟨rfl, Int.lt_succ day⟩⟩
  · split
    · exact .inr ⟨rfl, .inl (Int.lt_succ month)⟩
    · exact .inl (Int.lt_succ year)

/-- A later day has a later date. -/
theorem strictMono_civilFromDays : StrictMono fun days => dateKey (civilFromDays days) :=
  strictMono_int_of_lt_succ fun days => by
    rw [civilFromDays_succ]
    exact dateKey_lt_nextDate _

/-- The minute of a time for comparing, by the date first. -/
def minuteKey (tm : Tm) : (Int ×ₗ Int ×ₗ Int) ×ₗ Int ×ₗ Int :=
  toLex (dateKey (tm.year, tm.month, tm.day), toLex (tm.hour, tm.minute))

theorem strictMono_gmtime : StrictMono fun minutes => minuteKey (gmtime (minutes * 60)) :=
  strictMono_int_of_lt_succ fun minutes => by
    rw [minuteKey, minuteKey, Prod.Lex.toLex_lt_toLex, Prod.Lex.toLex_lt_toLex]
    simp only [gmtime]
    by_cases sameDay : (minutes + 1) * 60 / 86400 = minutes * 60 / 86400
    · refine .inr ⟨by rw [sameDay], ?_⟩
      omega
    · have nextDay : (minutes + 1) * 60 / 86400 = minutes * 60 / 86400 + 1 := by omega
      rw [nextDay]
      exact .inl (strictMono_civilFromDays (Int.lt_succ _))

/-! ## Ranges -/

theorem marchDate_range {year doy : Int} (nonneg : 0 ≤ doy) (lt : doy < daysInYear year) :
    (1 ≤ (marchDate year doy).2.1 ∧ (marchDate year doy).2.1 ≤ 12) ∧
      1 ≤ (marchDate year doy).2.2 ∧ (marchDate year doy).2.2 ≤ 31 := by
  have le := le_of_lt_daysInYear lt
  simp only [marchDate]
  refine ⟨?_, by omega, by omega⟩
  split <;> omega

theorem civilFromDays_range (days : Int) :
    (1 ≤ (civilFromDays days).2.1 ∧ (civilFromDays days).2.1 ≤ 12) ∧
      1 ≤ (civilFromDays days).2.2 ∧ (civilFromDays days).2.2 ≤ 31 := by
  obtain ⟨year, doy, nonneg, lt, -, date⟩ := exists_marchDate days
  rw [date]
  exact marchDate_range nonneg lt

theorem year_le_of_le {days days' : Int} (le : days ≤ days') :
    (civilFromDays days).1 ≤ (civilFromDays days').1 := by
  have keys := strictMono_civilFromDays.monotone le
  simp only [dateKey, Prod.Lex.toLex_le_toLex] at keys
  rcases keys with lt | ⟨same, -⟩
  · exact lt.le
  · exact same.le

/-! ## Back to the time -/

theorem daysFromCivil_marchDate {year doy : Int} (nonneg : 0 ≤ doy) (lt : doy < daysInYear year) :
    daysFromCivil (marchDate year doy).1 (marchDate year doy).2.1 (marchDate year doy).2.2 =
      daysBefore year + doy - 719468 := by
  have le := le_of_lt_daysInYear lt
  simp only [marchDate, daysFromCivil, daysBefore]
  by_cases early : (5 * doy + 2) / 153 < 10
  · simp only [if_pos early, if_neg (show ¬ (5 * doy + 2) / 153 + 3 ≤ 2 by omega)]
    omega
  · simp only [if_neg early, if_pos (show (5 * doy + 2) / 153 - 9 ≤ 2 by omega)]
    omega

theorem timegm_gmtime (time : Int) : timegm (gmtime time) = time := by
  obtain ⟨year, doy, nonneg, lt, same, date⟩ := exists_marchDate (time / 86400)
  have days := daysFromCivil_marchDate nonneg lt
  rw [← date] at days
  simp only [timegm, gmtime, days]
  omega

end Tickscope.Lib.Calendar
