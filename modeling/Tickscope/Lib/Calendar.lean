import Tickscope.Lib.Stdio

/-!
# The UTC calendar

`gmtime`, `timegm` and `strptime` over the proleptic Gregorian calendar, with times in
seconds since 1970-01-01. A year of the computation starts in March, so that the
leap day is its last day; 146097 is the number of days in 400 years and 719468
the number of days from 0000-03-01 to 1970-01-01.
-/

namespace Tickscope.Lib

/-- `struct tm`, with the full year and months from 1. -/
structure Tm where
  year : Int
  month : Int
  day : Int
  hour : Int
  minute : Int
  second : Int
deriving DecidableEq

namespace Calendar

/-- The number of days from 1970-01-01 to a date. -/
def daysFromCivil (year month day : Int) : Int :=
  let y := if month ≤ 2 then year - 1 else year
  let m := if month ≤ 2 then month + 9 else month - 3
  365 * y + y / 4 - y / 100 + y / 400 + (153 * m + 2) / 5 + (day - 1) - 719468

/-- The year within 400 years of a day within 400 years. -/
def yearOfEra (doe : Int) : Int :=
  (doe - doe / 1460 + doe / 36524 - doe / 146096) / 365

/-- The number of days before a year within 400 years. -/
def daysBeforeYear (yoe : Int) : Int := 365 * yoe + yoe / 4 - yoe / 100

/-- The year, month and day of a number of days from 1970-01-01. -/
def civilFromDays (days : Int) : Int × Int × Int :=
  let z := days + 719468
  let doe := z % 146097
  let doy := doe - daysBeforeYear (yearOfEra doe)
  let m := (5 * doy + 2) / 153
  let year := yearOfEra doe + 400 * (z / 146097)
  (if m < 10 then year else year + 1, if m < 10 then m + 3 else m - 9,
    doy - (153 * m + 2) / 5 + 1)

/-- `gmtime_r`. -/
def gmtime (time : Int) : Tm :=
  let date := civilFromDays (time / 86400)
  let rest := time % 86400
  ⟨date.1, date.2.1, date.2.2, rest / 3600, rest % 3600 / 60, rest % 60⟩

/-- `timegm`. -/
def timegm (tm : Tm) : Int :=
  daysFromCivil tm.year tm.month tm.day * 86400 + tm.hour * 3600 + tm.minute * 60 + tm.second

/-! ## `strptime` -/

/-- The digits of a number up to `hi`, with `room` for more of them. -/
def moreDigits (hi : Nat) : Nat → Nat → Str → Nat × Str
  | room + 1, val, b :: s =>
      if val * 10 ≤ hi ∧ isDigit b then moreDigits hi room (val * 10 + (b.toNat - 48)) s
      else (val, b :: s)
  | _, val, s => (val, s)

/-- A numeric field: spaces, then at most `width` digits of a number from `lo` to `hi`. -/
def scanNumber (lo hi width : Nat) (s : Str) : Option (Nat × Str) :=
  match s.dropWhile (· = 32) with
  | [] => none
  | b :: s =>
      if isDigit b then
        let number := moreDigits hi (width - 1) (b.toNat - 48) s
        if lo ≤ number.1 ∧ number.1 ≤ hi then some number else none
      else none

/-- A character of the format. -/
def scanChar (c : UInt8) : Str → Option Str
  | [] => none
  | b :: s => if b = c then some s else none

/-- `%Y-%m-%d`, and what follows it. -/
def scanDate (s : Str) : Option (Tm × Str) :=
  (scanNumber 0 9999 4 s).bind fun (year, s) =>
  (scanChar 45 s).bind fun s =>
  (scanNumber 1 12 2 s).bind fun (month, s) =>
  (scanChar 45 s).bind fun s =>
  (scanNumber 1 31 2 s).map fun (day, s) => (⟨year, month, day, 0, 0, 0⟩, s)

/-- `%Y-%m-%dT%H:%M:%S`, and what follows it. -/
def scanDateTime (s : Str) : Option (Tm × Str) :=
  (scanDate s).bind fun (date, s) =>
  (scanChar 84 s).bind fun s =>
  (scanNumber 0 23 2 s).bind fun (hour, s) =>
  (scanChar 58 s).bind fun s =>
  (scanNumber 0 59 2 s).bind fun (minute, s) =>
  (scanChar 58 s).bind fun s =>
  (scanNumber 0 61 2 s).map fun (second, s) =>
    ({ date with hour := hour, minute := minute, second := second }, s)

end Calendar

end Tickscope.Lib
