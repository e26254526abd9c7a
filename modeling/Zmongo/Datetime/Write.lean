import Zmongo.Datetime.DateTime
import Zmongo.Zig.Buffer

/-!
# Writing dates and times

The writers of `datetime.zig`: `writeDate` and `writeTime`, which lay a date or a time out at fixed
offsets of a buffer, `DateTime.bufWrite`, which puts the two together, and the functions `format`
and `jsonStringify` of the three types, which have the buffers.

A writer returns the bytes it leaves in the slice it was given and the length of the text.  The
buffers are `undefined` in the source, so `format` and `jsonStringify` take what happens to be in
them as an argument, and return the bytes they hand on to `out`.
-/

set_option autoImplicit false

open Zig IntType

namespace Datetime

/-- A function that writes a text into the slice it is given, and returns its length. -/
abbrev Writer : Type := List UInt8 → Result (List UInt8 × ℕ)

/-- The two digits of a number, from a table. -/
def paddingTwoDigits (value : ℕ) : Result (List UInt8) :=
  if value < 61 then
    let digits := ascii <| "0001020304050607080910111213141516171819" ++
      "2021222324252627282930313233343536373839" ++
      "4041424344454647484950515253545556575859" ++
      "60"
    .ok ((digits.drop (value * 2)).take 2)
  else .trap .reachedUnreachable

/-- `writeDate` up to the local variable `buf`: the year, and the offset `buf` starts at.  The sign
is not left to the formatter, which would count it as one of the four places. -/
def writeYear (into : List UInt8) (year : Int16) : Result (List UInt8 × ℕ) :=
  if year.toInt < 0 then do
    let negated ← u16.cast Int.toNat (← i16.mul year.toInt (-1))
    let (into, _) ← onSlice into 1 into.length (formatIntBuf · negated 4)
    let into ← store into 0 ['-'.toUInt8]
    pure (into, 5)
  else do
    let (into, _) ← formatIntBuf into (← u16.cast Int.toNat year.toInt) 4
    pure (into, 4)

/-- `writeDate` on the slice `buf`: the month and the day. -/
def writeMonthDay (buf : List UInt8) (month day : UInt8) : Result (List UInt8 × Unit) := do
  let buf ← store buf 0 ['-'.toUInt8]
  let buf ← store buf 1 (← paddingTwoDigits month.toNat)
  let buf ← store buf 3 ['-'.toUInt8]
  let buf ← store buf 4 (← paddingTwoDigits day.toNat)
  pure (buf, ())

/-- A date in ISO 8601. -/
def writeDate (into : List UInt8) (date : Date) : Result (List UInt8 × ℕ) := do
  let (into, start) ← writeYear into date.year
  let (into, _) ← onSlice into start into.length (writeMonthDay · date.month date.day)
  pure (into, if date.year.toInt < 0 then 11 else 10)

/-- A time in RFC 3339, with no fraction, milliseconds or microseconds. -/
def writeTime (into : List UInt8) (time : Time) : Result (List UInt8 × ℕ) := do
  let into ← store into 0 (← paddingTwoDigits time.hour.toNat)
  let into ← store into 2 [':'.toUInt8]
  let into ← store into 3 (← paddingTwoDigits time.min.toNat)
  let into ← store into 5 [':'.toUInt8]
  let into ← store into 6 (← paddingTwoDigits time.sec.toNat)
  let micros := time.micros.toNat
  if micros = 0 then pure (into, 8)
  else if micros % 1000 = 0 then do
    let into ← store into 8 ['.'.toUInt8]
    let (into, _) ← onSlice into 9 12 (formatIntBuf · (micros / 1000) 3)
    pure (into, 12)
  else do
    let into ← store into 8 ['.'.toUInt8]
    let (into, _) ← onSlice into 9 15 (formatIntBuf · micros 6)
    pure (into, 15)

/-- The date, `T`, the time, `Z`. -/
def DateTime.bufWrite (self : DateTime) (buf : List UInt8) : Result (List UInt8 × ℕ) := do
  let (buf, dateN) ← writeDate buf (← self.date)
  let buf ← store buf dateN ['T'.toUInt8]
  let timeStart := dateN + 1
  let time ← self.time
  let (buf, timeN) ← onSlice buf timeStart buf.length (writeTime · time)
  let timeStop := timeStart + timeN
  let buf ← store buf timeStop ['Z'.toUInt8]
  pure (buf, timeStop + 1)

/-! ## The functions with the buffers -/

/-- The byte `"`. -/
def quote : UInt8 := 34

/-- The text a writer leaves at the front of the buffer, as it goes to `out`. -/
def formatWith (write : Writer) (buf : List UInt8) : Result (List UInt8) := do
  let (buf, n) ← write buf
  slice buf 0 n

/-- The text a writer leaves, in quotes. -/
def jsonWith (write : Writer) (buf : List UInt8) (stop : ℕ) : Result (List UInt8) := do
  let (buf, n) ← onSlice buf 1 stop write
  let buf ← store buf 0 [quote]
  let buf ← store buf (n + 1) [quote]
  slice buf 0 (n + 2)

def Date.format (self : Date) (buf : Vector UInt8 11) : Result (List UInt8) :=
  formatWith (writeDate · self) buf.toList

def Date.jsonStringify (self : Date) (buf : Vector UInt8 13) : Result (List UInt8) :=
  jsonWith (writeDate · self) buf.toList 12

def Time.format (self : Time) (buf : Vector UInt8 15) : Result (List UInt8) :=
  formatWith (writeTime · self) buf.toList

def Time.jsonStringify (self : Time) (buf : Vector UInt8 17) : Result (List UInt8) :=
  jsonWith (writeTime · self) buf.toList 16

def DateTime.format (self : DateTime) (buf : Vector UInt8 28) : Result (List UInt8) :=
  formatWith self.bufWrite buf.toList

/-- Here the opening quote is written first. -/
def DateTime.jsonStringify (self : DateTime) (buf : Vector UInt8 30) : Result (List UInt8) := do
  let buf ← store buf.toList 0 [quote]
  let (buf, n) ← onSlice buf 1 buf.length self.bufWrite
  let buf ← store buf (n + 1) [quote]
  slice buf 0 (n + 2)

end Datetime
