import BearerToken.Binary64

/-!
# Calendar moments

A time in epoch milliseconds as a date and time of day in UTC. The milliseconds are divided by one
thousand in 64-bit binary arithmetic and the fraction is rounded to microseconds, a tie going to the
even one, so a far date shows the rounding of the division. The calendar is the Gregorian one,
extended in both directions, and dates are given for the years 1 to 9999.
-/

namespace BearerToken

/-- A date and time of day in UTC. -/
structure Moment where
  year : Nat
  month : Nat
  day : Nat
  hour : Nat
  minute : Nat
  second : Nat
  microsecond : Nat
  deriving Repr, DecidableEq

/-- Why a time has no calendar date. -/
inductive CalendarError where
  /-- The time has a year outside 1 to 9999. -/
  | yearOutOfRange (year : Int)
  /-- The year does not fit the 32 bits in which calendars count years from 1900. -/
  | yearTooWide
  /-- The seconds are beyond the range of binary numbers. -/
  | tooLarge
  /-- The seconds do not fit the 64 bits of a clock. -/
  | beyondClock
  deriving Repr, DecidableEq

namespace CalendarError

def message : CalendarError → String
  | .yearOutOfRange year => "year " ++ Numeral.write year ++ " is out of range"
  | .yearTooWide => "[Errno 75] Value too large for defined data type"
  | .tooLarge => "integer division result too large for a float"
  | .beyondClock => "timestamp out of range for platform time_t"

end CalendarError

namespace Moment

/-- Year, month and day of the day `days` after 1970-01-01. Years are counted from March within eras
of 400 years, so that the leap day is the last day of a year. -/
def civil (days : Int) : Int × Nat × Nat :=
  let shifted := days + 719468
  let era := shifted / 146097
  let dayOfEra := (shifted % 146097).toNat
  let yearOfEra := (dayOfEra - dayOfEra / 1460 + dayOfEra / 36524 - dayOfEra / 146096) / 365
  let dayOfYear := dayOfEra - (365 * yearOfEra + yearOfEra / 4 - yearOfEra / 100)
  let marchMonth := (5 * dayOfYear + 2) / 153
  let day := dayOfYear - (153 * marchMonth + 2) / 5 + 1
  let month := if marchMonth < 10 then marchMonth + 3 else marchMonth - 9
  let year := era * 400 + yearOfEra + (if month ≤ 2 then 1 else 0)
  (year, month, day)

/-- Whole seconds and microseconds of a time in milliseconds, the seconds rounded down. -/
def split (ms : Int) : Except CalendarError (Int × Nat) :=
  match Binary64.ofRatio (ms < 0) ms.natAbs 1000 with
  | .finite negative mantissa exponent _ =>
    let (num, den) := Binary64.ratio mantissa exponent
    let signed (n : Nat) : Int := if negative then -(n : Int) else n
    let micros : Nat :=
      match Binary64.ofRatio false (num % den * 1000000) den with
      | .finite _ m e _ =>
        let (n, d) := Binary64.ratio m e
        roundHalfEven n d
      | _ => 0
    let total := signed (num / den) * 1000000 + signed micros
    .ok (total / 1000000, (total % 1000000).toNat)
  | _ => .error .tooLarge

/-- A year as 32 bits hold it after counting from 1900. -/
def keptYear (year : Int) : Except CalendarError Int :=
  if year - 1900 < -2 ^ 31 || 2 ^ 31 ≤ year - 1900 then .error .yearTooWide
  else .ok (year.bmod (2 ^ 32))

/-- The moment of a time in epoch milliseconds. -/
def ofMillis (ms : Int) : Except CalendarError Moment := do
  let (seconds, microsecond) ← split ms
  -- the bound is compared as a binary number, so 2 ^ 63 itself passes here
  if 2 ^ 63 < seconds.natAbs then .error .beyondClock
  else
    let (year, month, day) := civil (seconds / 86400)
    let year ← keptYear year
    if year < 1 || 9999 < year then .error (.yearOutOfRange year)
    else
      let ofDay := (seconds % 86400).toNat
      .ok ⟨year.toNat, month, day, ofDay / 3600, ofDay / 60 % 60, ofDay % 60, microsecond⟩

/-- Date and time of day with a separator between them; the fraction of a second is written with
six digits, and left out when it is zero. -/
def write (separator : Char) (t : Moment) : String :=
  let pad := Numeral.padded
  let fraction := if t.microsecond = 0 then [] else '.' :: pad 6 t.microsecond
  String.ofList (pad 4 t.year ++ '-' :: pad 2 t.month ++ '-' :: pad 2 t.day ++ separator ::
    pad 2 t.hour ++ ':' :: pad 2 t.minute ++ ':' :: pad 2 t.second ++ fraction ++
    ['+', '0', '0', ':', '0', '0'])

/-- The form with a `T` between date and time. -/
def iso (t : Moment) : String := t.write 'T'

/-- The form with a space between date and time. -/
def plain (t : Moment) : String := t.write ' '

example : (ofMillis 253402300799999).toOption.map iso =
    some "9999-12-31T23:59:59.998993+00:00" := by
  decide +kernel

end Moment

end BearerToken
