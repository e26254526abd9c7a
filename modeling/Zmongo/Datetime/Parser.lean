import Zmongo.Datetime.DateTime
import Zmongo.Zig.Buffer
import Zmongo.Zig.Trace

/-!
# The parser

`Parser` of `datetime.zig`, a position in an input, with the scanners for dates and times, and the
three functions that use it: `Date.parse`, `Time.parse` and `DateTime.parseRFC3339`.

A scanner is a run that reads the input: it takes the parser and returns it moved on, and its
events are the bytes it reads and the positions it moves to.  Where the source returns an optional
the scanner returns an `Option`, together with the parser as it is then; an error and a trap end
the run.  A position is a plain number, as an input in memory is shorter than an address; the
arithmetic on the numbers that are read is checked at the width of the source.
-/

set_option autoImplicit false

open Zig IntType

namespace Datetime

/-- A position in an input. -/
structure Parser where
  /-- The input. -/
  input : List UInt8
  /-- The position. -/
  pos : ℕ
  deriving DecidableEq, Repr

/-- `return error.e` -/
def fail {α : Type} (e : Error) : Traced Error α := .lift (.error e)

/-- `x orelse return error.e` -/
def orElseFail {α : Type} (x : Option α) (e : Error) : Traced Error α :=
  match x with
  | some a => pure a
  | none => fail e

namespace Parser

/-- The parser at the beginning of an input. -/
def init (input : List UInt8) : Parser := { pos := 0, input }

/-- The number of bytes from the position on.  A difference of two lengths fits unless it is
negative. -/
def unconsumed (self : Parser) : Traced Error ℕ :=
  .lift (if self.pos ≤ self.input.length then .ok (self.input.length - self.pos)
    else .trap .integerOverflow)

/-- The bytes from the position on. -/
def rest (self : Parser) : Traced Error (List UInt8) :=
  .lift (slice self.input self.pos self.input.length)

/-- Move past the byte `c`, if it is the next one.  The source leaves it to the caller to check that
there is a next one. -/
def consumeIf (self : Parser) (c : UInt8) : Traced Error (Bool × Parser) := do
  let pos := self.pos
  if (← .read self.input pos) ≠ c then pure (false, self)
  else do
    .seek (pos + 1)
    pure (true, { self with pos := pos + 1 })

/-- The loop of `nanoseconds` over the `n` bytes of the input from `start + i` on: the value and the
length of the run of digits there.  The loop ends with the run, however long that is. -/
def nanosecondsLoop (input : List UInt8) (start : ℕ) : ℕ → ℕ → ℤ → Traced Error (ℤ × ℕ)
  | 0, i, value => pure (value, i)
  | n + 1, i, value => do
    let b ← .read input (start + i)
    -- the subtraction wraps around
    let digit := b - 48
    if digit > 9 then pure (value, i)
    else do
      let value ← .lift (usize.mul value 10)
      let value ← .lift (usize.add value digit.toNat)
      nanosecondsLoop input start n (i + 1) value

/-- A fraction of a second in decimal, as nanoseconds. -/
def nanoseconds (self : Parser) : Traced Error (Option ℤ × Parser) := do
  let start := self.pos
  let input ← self.rest
  if input.length = 0 then pure (none, self)
  else do
    let (value, len) ← nanosecondsLoop self.input start input.length 0 0
    if len > 9 then pure (none, self)
    else do
      .seek (start + len)
      let nanos ← .lift (usize.mul value (10 ^ (9 - len)))
      pure (some nanos, { self with pos := start + len })

/-- The loop of `paddedInt` over the `n` bytes of the input from `i` on. -/
def paddedIntLoop (t : IntType) (input : List UInt8) : ℕ → ℕ → ℤ → Traced Error (Option ℤ)
  | 0, _, value => pure (some value)
  | n + 1, i, value => do
    let b ← .read input i
    -- the subtraction wraps around
    let digit := b - 48
    if digit > 9 then pure none
    else do
      let value ← .lift (t.mul value 10)
      let value ← .lift (t.add value digit.toNat)
      paddedIntLoop t input n (i + 1) value

/-- A number of exactly `size` digits, computed at type `t`. -/
def paddedInt {α : Type} (self : Parser) (t : IntType) (mk : ℤ → α) (size : ℕ) :
    Traced Error (Option α × Parser) := do
  let stop := self.pos + size
  if stop > self.input.length then pure (none, self)
  else
    match ← paddedIntLoop t self.input size self.pos 0 with
    | none => pure (none, self)
    | some value => do
      .seek stop
      pure (some (mk value), { self with pos := stop })

/-- `self.paddedInt(T, size) orelse return error.e` -/
def paddedIntOrFail {α : Type} (self : Parser) (t : IntType) (mk : ℤ → α) (size : ℕ) (e : Error) :
    Traced Error (α × Parser) := do
  let (value, self) ← self.paddedInt t mk size
  pure (← orElseFail value e, self)

/-- `if (self.consumeIf(c) == false) return error.e` -/
def consumeOrFail (self : Parser) (c : UInt8) (e : Error) : Traced Error Parser := do
  let (consumed, self) ← self.consumeIf c
  if consumed = false then fail e else pure self

/-- `!(stop or self.consumeIf(c) == false)` -/
def consumeUnless (self : Parser) (stop : Bool) (c : UInt8) : Traced Error (Bool × Parser) :=
  if stop then pure (false, self) else self.consumeIf c

/-- `time` behind the decimal point: the nanoseconds, cast to microseconds. -/
def fraction (self : Parser) : Traced Error (UInt32 × Parser) := do
  let (nanos, self) ← self.nanoseconds
  let nanos ← orElseFail nanos .invalidTime
  pure (← .lift (u32.cast UInt32.ofInt (nanos / 1000)), self)

/-- A time.  It need not be all of the input, but the length of the input decides which separators
the scanner looks for. -/
def time (self : Parser) : Traced Error (Time × Parser) := do
  let len ← self.unconsumed
  if len < 5 then fail .invalidTime
  else do
    let (hour, self) ← self.paddedIntOrFail u8 UInt8.ofInt 2 .invalidTime
    let self ← self.consumeOrFail ':'.toUInt8 .invalidTime
    let (min, self) ← self.paddedIntOrFail u8 UInt8.ofInt 2 .invalidTime
    let (colon, self) ← self.consumeUnless (len = 5) ':'.toUInt8
    if colon = false then pure (← .lift (Time.init hour min 0 0), self)
    else do
      let (sec, self) ← self.paddedIntOrFail u8 UInt8.ofInt 2 .invalidTime
      let (point, self) ← self.consumeUnless (len = 8) '.'.toUInt8
      if point = false then pure (← .lift (Time.init hour min sec 0), self)
      else do
        let (micros, self) ← self.fraction
        pure (← .lift (Time.init hour min sec micros), self)

/-- `iso8601Date` from the month on. -/
def monthAndDay (self : Parser) (withDashes : Bool) : Traced Error ((UInt8 × UInt8) × Parser) := do
  let (month, self) ← self.paddedIntOrFail u8 UInt8.ofInt 2 .invalidDate
  let (dash, self) ← self.consumeIf '-'.toUInt8
  if dash = !withDashes then fail .invalidDate
  else do
    let (day, self) ← self.paddedIntOrFail u8 UInt8.ofInt 2 .invalidDate
    pure ((month, day), self)

/-- A date, with both dashes or with none.  It need not be all of the input. -/
def iso8601Date (self : Parser) : Traced Error (Date × Parser) := do
  let len ← self.unconsumed
  if len < 8 then fail .invalidDate
  else do
    let (negative, self) ← self.consumeIf '-'.toUInt8
    let (year, self) ← self.paddedIntOrFail i16 Int16.ofInt 4 .invalidDate
    let (withDashes, self) ← self.consumeIf '-'.toUInt8
    if withDashes = true ∧ len < 10 then fail .invalidDate
    else do
      let ((month, day), self) ← self.monthAndDay withDashes
      let year ← .lift (if negative then i16.sub 0 year.toInt else pure year.toInt)
      pure (← .lift (Date.init (.ofInt year) month day), self)

/-- The loop of `std.mem.eql` over the bytes of the input from `i` on. -/
def eqlLoop (input : List UInt8) : ℕ → List UInt8 → Traced Error Bool
  | _, [] => pure true
  | i, c :: text => do
    if (← .read input i) ≠ c then pure false else eqlLoop input (i + 1) text

/-- `std.mem.eql` of the slice of the input from `start` on, `len` bytes long, and a text. -/
def eql (input : List UInt8) (start len : ℕ) (text : List UInt8) : Traced Error Bool :=
  if len ≠ text.length then pure false else eqlLoop input start text

/-- The `switch` of `parseRFC3339` over what follows the time. -/
def suffix (self : Parser) : Traced Error Unit := do
  match ← self.unconsumed with
  | 0 => fail .invalidDateTime
  | 1 => do
    let _ ← self.consumeOrFail 'Z'.toUInt8 .invalidDateTime
    pure ()
  | 6 => do
    -- `suffix[i]` is the byte of the input at `self.pos + i`
    let suffix ← self.rest
    let sign ← .read self.input self.pos
    if sign ≠ '+'.toUInt8 ∧ sign ≠ '-'.toUInt8 then fail .invalidDateTime
    else do
      let utc ← eql self.input (self.pos + 1) (suffix.length - 1) (ascii "00:00")
      if utc = false then fail .nonUTCNotSupported else pure ()
  | _ => fail .invalidDateTime

end Parser

/-- All of the input as a date. -/
def Date.parse (input : List UInt8) : Traced Error Date := do
  let (date, parser) ← (Parser.init input).iso8601Date
  if (← parser.unconsumed) ≠ 0 then fail .invalidDate else pure date

/-- All of the input as a time. -/
def Time.parse (input : List UInt8) : Traced Error Time := do
  let (time, parser) ← (Parser.init input).time
  if (← parser.unconsumed) ≠ 0 then fail .invalidTime else pure time

/-- All of the input as an instant: a date, `T`, a time, and UTC as one of three suffixes. -/
def DateTime.parseRFC3339 (input : List UInt8) : Traced Error DateTime := do
  let (dt, parser) ← (Parser.init input).iso8601Date
  if dt.year.toInt < -4712 ∨ dt.year.toInt > 9999 then fail .outsideJulianPeriod
  else do
    let parser ← parser.consumeOrFail 'T'.toUInt8 .invalidDateTime
    let (tm, parser) ← parser.time
    parser.suffix
    .lift (DateTime.initUTC dt.year dt.month dt.day tm.hour tm.min tm.sec tm.micros)

end Datetime
