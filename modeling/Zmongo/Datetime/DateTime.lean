import Zmongo.Datetime.Time

/-!
# `DateTime`

The type `DateTime` of `datetime.zig`, an instant as a number of microseconds since the beginning
of 1970 in UTC, with the two directions between an instant and its calendar fields:

* `DateTime.initUTC` composes an instant from a date and a time, by a closed formula for the
  number of days;
* `DateTime.date` and `DateTime.time` take an instant apart, the date by dividing through the
  cycles of the calendar from 1 March 2000 on, the time of day by a remainder.

Every operation is computed at the width the source computes it at, so each of these definitions
ends in a value, an error or a trap.  The definitions here follow the source line by line; what
they mean is the subject of `Datetime.Compose` and `Datetime.Decompose`.
-/

set_option autoImplicit false

open Zig IntType

namespace Datetime

/-- An instant: microseconds since 1970-01-01 00:00:00 UTC. -/
@[ext] structure DateTime where
  /-- The microseconds. -/
  micros : Int64
  deriving DecidableEq, Repr

/-- The unit of a Unix timestamp. -/
inductive TimestampPrecision where
  | seconds
  | milliseconds
  | microseconds
  deriving DecidableEq, Repr

/-- The unit of an amount of time. -/
inductive TimeUnit where
  | days
  | hours
  | minutes
  | seconds
  | milliseconds
  | microseconds
  deriving DecidableEq, Repr

namespace DateTime

abbrev microsecondsInADay : ℤ := 86400000000
abbrev microsecondsInAnHour : ℤ := 3600000000
abbrev microsecondsInAMin : ℤ := 60000000
abbrev microsecondsInASec : ℤ := 1000000

/-! ## From a timestamp -/

/-- The instant of a Unix timestamp, if it is one of the years -4712 to 9999. -/
def fromUnix (value : Int64) (precision : TimestampPrecision) : Result DateTime :=
  match precision with
  | .seconds =>
    if value.toInt < -210863520000 ∨ value.toInt > 253402300799 then .error .outsideJulianPeriod
    else do pure ⟨Int64.ofInt (← i64.mul value.toInt 1000000)⟩
  | .milliseconds =>
    if value.toInt < -210863520000000 ∨ value.toInt > 253402300799999 then
      .error .outsideJulianPeriod
    else do pure ⟨Int64.ofInt (← i64.mul value.toInt 1000)⟩
  | .microseconds =>
    if value.toInt < -210863520000000000 ∨ value.toInt > 253402300799999999 then
      .error .outsideJulianPeriod
    else .ok ⟨value⟩

/-! ## From calendar fields -/

/-- The local constant `date_micros` of `initUTC`. -/
def dateMicros (year : Int16) (month day : UInt8) : Result ℤ := do
  let yearBase := 4800
  -- months are counted from March, so that a leap day is the last day of its year
  let monthAdj ← i32.sub month.toNat 3
  let carry := if monthAdj < 0 then 1 else 0
  let adjust := if carry = 1 then 12 else 0
  -- `year`, `year_base` and `carry` agree on `i16`: the sum is widened to `i64` only afterwards
  let yearAdj ← i16.sub (← i16.add year.toInt yearBase) carry
  let monthDays := divTrunc (← i32.add (← i32.mul (← i32.add monthAdj adjust) 62719) 769) 2048
  let leapDays ←
    i64.add (← i64.sub (divTrunc yearAdj 4) (divTrunc yearAdj 100)) (divTrunc yearAdj 400)
  let days ← i64.add (← i64.add (← i64.mul yearAdj 365) leapDays) monthDays
  let days ← i64.sub (← i64.add days (← u8.sub day.toNat 1)) 2472632
  i64.mul days microsecondsInADay

/-- The local constant `time_micros` of `initUTC`. -/
def timeMicros (hour min sec : UInt8) (micros : UInt32) : Result ℤ := do
  let hours ← i64.mul hour.toNat microsecondsInAnHour
  let mins ← i64.mul min.toNat microsecondsInAMin
  let secs ← i64.mul sec.toNat microsecondsInASec
  i64.add (← i64.add (← i64.add hours mins) secs) micros.toNat

/-- The instant of a date and a time, in UTC. -/
def initUTC (year : Int16) (month day hour min sec : UInt8) (micros : UInt32) :
    Result DateTime :=
  if Date.valid year month day = false then .error .invalidDate
  else if Time.valid hour min sec micros = false then .error .invalidTime
  else do
    let dateMicros ← dateMicros year month day
    let timeMicros ← timeMicros hour min sec micros
    fromUnix (Int64.ofInt (← i64.add dateMicros timeMicros)) .microseconds

/-- `dt` moved by `value` units. -/
def add (dt : DateTime) (value : Int64) (unit : TimeUnit) : Result DateTime := do
  let micros := dt.micros.toInt
  let value := value.toInt
  match unit with
  | .days => fromUnix (Int64.ofInt
      (← i64.add micros (← i64.mul value microsecondsInADay))) .microseconds
  | .hours => fromUnix (Int64.ofInt
      (← i64.add micros (← i64.mul value microsecondsInAnHour))) .microseconds
  | .minutes => fromUnix (Int64.ofInt
      (← i64.add micros (← i64.mul value microsecondsInAMin))) .microseconds
  | .seconds => fromUnix (Int64.ofInt
      (← i64.add micros (← i64.mul value microsecondsInASec))) .microseconds
  | .milliseconds => fromUnix (Int64.ofInt
      (← i64.add micros (← i64.mul value 1000))) .microseconds
  | .microseconds => fromUnix (Int64.ofInt (← i64.add micros value)) .microseconds

/-! ## To calendar fields -/

/-- The table of `DateTime.date`: the month lengths of a leap year, from March. -/
def monthDays : List UInt8 := [31, 30, 31, 30, 31, 31, 30, 31, 30, 31, 31, 29]

/-- The loop of `DateTime.date` over the months, at `month` with the entries of the table from
there on: while the month does not reach past `remDays`, go on to the next one.  Past the last
entry the source indexes out of the table. -/
def monthLoop : List UInt8 → ℤ → ℤ → Result (ℤ × ℤ)
  | [], _, _ => .trap .indexOutOfBounds
  | length :: table, month, remDays =>
    if length.toNat ≤ remDays then do
      monthLoop table (← u8.add month 1) (← i64.sub remDays length.toNat)
    else .ok (month, remDays)

/-- `date` up to the local variable `days`: the days from 1 March 2000 to the instant. -/
def daysSinceLeapEpoch (dt : DateTime) : Result ℤ := do
  -- 1 March 2000, right after a leap day at the end of a cycle of 400 years
  let leapEpoch := 946684800 + 86400 * (31 + 29)
  let secs ← i64.sub (divTrunc dt.micros.toInt 1000000) leapEpoch
  let days := divTrunc secs 86400
  if rem secs 86400 < 0 then i64.sub days 1 else pure days

/-- `if (rem < 0) { rem += n; quot -= 1; }` -/
def borrow (n rem quot : ℤ) : Result (ℤ × ℤ) :=
  if rem < 0 then do
    let rem ← i64.add rem n
    let quot ← i64.sub quot 1
    pure (rem, quot)
  else pure (rem, quot)

/-- `if (cycles == n) { cycles -= 1; }` -/
def cap (n cycles : ℤ) : Result ℤ :=
  if cycles = n then i64.sub cycles 1 else pure cycles

/-- `date` from `days` up to the month loop: the local variables `year` and `rem_days`.  The year
starts in March, and `rem_days` are the days since then. -/
def yearAndRemDays (days : ℤ) : Result (ℤ × ℤ) := do
  let daysPer400y := 365 * 400 + 97
  let daysPer100y := 365 * 100 + 24
  let daysPer4y := 365 * 4 + 1
  let (remDays, qcCycles) ← borrow daysPer400y (rem days daysPer400y) (divTrunc days daysPer400y)
  let cCycles ← cap 4 (divTrunc remDays daysPer100y)
  let remDays ← i64.sub remDays (← i64.mul cCycles daysPer100y)
  let qCycles ← cap 25 (divTrunc remDays daysPer4y)
  let remDays ← i64.sub remDays (← i64.mul qCycles daysPer4y)
  let remYears ← cap 4 (divTrunc remDays 365)
  let remDays ← i64.sub remDays (← i64.mul remYears 365)
  let year ← i64.add remYears (← i64.mul 4 qCycles)
  let year ← i64.add year (← i64.mul 100 cCycles)
  let year ← i64.add year (← i64.mul 400 qcCycles)
  let year ← i64.add year 2000
  pure (year, remDays)

/-- `month += 2; if (month >= 12) { year += 1; month -= 12; }` -/
def fromMarch (year month : ℤ) : Result (ℤ × ℤ) := do
  let month ← u8.add month 2
  if month ≥ 12 then do
    let year ← i64.add year 1
    let month ← u8.sub month 12
    pure (year, month)
  else pure (year, month)

/-- The date of an instant. -/
def date (dt : DateTime) : Result Date := do
  let days ← daysSinceLeapEpoch dt
  let (year, remDays) ← yearAndRemDays days
  let (month, remDays) ← monthLoop monthDays 0 remDays
  let (year, month) ← fromMarch year month
  let year ← i16.cast Int16.ofInt year
  let month ← u8.add month 1
  let day ← u8.cast UInt8.ofInt (← i64.add remDays 1)
  pure { year, month := UInt8.ofInt month, day }

/-- The time of day of an instant. -/
def time (dt : DateTime) : Result Time := do
  let micros := mod dt.micros.toInt microsecondsInADay
  let hour ← u8.cast UInt8.ofInt (divTrunc micros microsecondsInAnHour)
  let min ← u8.cast UInt8.ofInt (divTrunc (rem micros microsecondsInAnHour) microsecondsInAMin)
  let sec ← u8.cast UInt8.ofInt (divTrunc (rem micros microsecondsInAMin) microsecondsInASec)
  let micros ← u32.cast UInt32.ofInt (rem micros microsecondsInASec)
  pure { hour, min, sec, micros }

/-- The Unix timestamp of an instant, rounded towards 1970. -/
def unix (self : DateTime) (precision : TimestampPrecision) : Int64 :=
  match precision with
  | .seconds => Int64.ofInt (divTrunc self.micros.toInt 1000000)
  | .milliseconds => Int64.ofInt (divTrunc self.micros.toInt 1000)
  | .microseconds => self.micros

/-- Earlier, equal or later. -/
def order (a b : DateTime) : Ordering := Datetime.order a.micros.toInt b.micros.toInt

end DateTime
end Datetime
