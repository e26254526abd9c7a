import Zmongo.Datetime.DateTime
import Zmongo.Zig.Buffer

/-!
# Scanning a text

The scanners of the parser once more, as functions of the text that is left: no position, no length
and no read, so nothing to be out of bounds.  A scanner returns what it found and the text after
it.

The one read out of bounds of the source is in `rfc3339`, which looks for a `T` without asking
whether there is anything.  The lengths the source compares before it reads on are not there in the
scanners: they follow from what is found, and the `*_of_short` lemmas say so.
-/

set_option autoImplicit false

open Zig IntType Decimal

namespace Datetime
namespace Scan

/-! ## Scanners -/

/-- Move past the byte `c`, if the text begins with it. -/
def skip (c : UInt8) : List UInt8 → Bool × List UInt8
  | [] => (false, [])
  | b :: l => if b = c then (true, l) else (false, b :: l)

/-- The text after the byte `c`, which it has to begin with. -/
def expect (c : UInt8) (e : Error) (l : List UInt8) : Result (List UInt8) :=
  if (skip c l).1 then .ok (skip c l).2 else .error e

/-- A number of exactly `n` digits. -/
def number (n : ℕ) (e : Error) (l : List UInt8) : Result (ℕ × List UInt8) :=
  match readDigits n l with
  | some x => .ok x
  | none => .error e

/-- A fraction of a second, in microseconds. -/
def fraction (l : List UInt8) : Result (ℕ × List UInt8) :=
  if l = [] then .error .invalidTime
  else if 2 ^ 64 ≤ value (run l) then .trap .integerOverflow
  else if 9 < (run l).length then .error .invalidTime
  else .ok (value (run l) * 10 ^ (9 - (run l).length) / 1000, l.drop (run l).length)

/-- A time. -/
def time (l : List UInt8) : Result (Time × List UInt8) := do
  let (hour, l) ← number 2 .invalidTime l
  let l ← expect ':'.toUInt8 .invalidTime l
  let (min, l) ← number 2 .invalidTime l
  let (colon, l) := skip ':'.toUInt8 l
  if colon = false then pure (← Time.init (.ofNat hour) (.ofNat min) 0 0, l)
  else do
    let (sec, l) ← number 2 .invalidTime l
    let (point, l) := skip '.'.toUInt8 l
    if point = false then pure (← Time.init (.ofNat hour) (.ofNat min) (.ofNat sec) 0, l)
    else do
      let (micros, l) ← fraction l
      pure (← Time.init (.ofNat hour) (.ofNat min) (.ofNat sec) (.ofNat micros), l)

/-- The month and the day of a date. -/
def monthAndDay (withDashes : Bool) (l : List UInt8) : Result ((ℕ × ℕ) × List UInt8) := do
  let (month, l) ← number 2 .invalidDate l
  let (dash, l) := skip '-'.toUInt8 l
  if dash = !withDashes then .error .invalidDate
  else do
    let (day, l) ← number 2 .invalidDate l
    pure ((month, day), l)

/-- A date. -/
def date (l : List UInt8) : Result (Date × List UInt8) := do
  let (negative, l) := skip '-'.toUInt8 l
  let (year, l) ← number 4 .invalidDate l
  let (withDashes, l) := skip '-'.toUInt8 l
  let ((month, day), l) ← monthAndDay withDashes l
  let year : ℤ := if negative then -year else year
  pure (← Date.init (.ofInt year) (.ofNat month) (.ofNat day), l)

/-- UTC, as what follows a time. -/
def utc (l : List UInt8) : Result Unit :=
  if l.length = 1 then if l = ['Z'.toUInt8] then .ok () else .error .invalidDateTime
  else if l.length = 6 then
    if l.head? ≠ some '+'.toUInt8 ∧ l.head? ≠ some '-'.toUInt8 then .error .invalidDateTime
    else if l.tail ≠ ascii "00:00" then .error .nonUTCNotSupported
    else .ok ()
  else .error .invalidDateTime

/-- An instant. -/
def rfc3339 (l : List UInt8) : Result DateTime := do
  let (d, l) ← date l
  if d.year.toInt < -4712 ∨ d.year.toInt > 9999 then .error .outsideJulianPeriod
  else if l = [] then .trap .indexOutOfBounds
  else do
    let l ← expect 'T'.toUInt8 .invalidDateTime l
    let (t, l) ← time l
    utc l
    DateTime.initUTC d.year d.month d.day t.hour t.min t.sec t.micros

/-! ## The text that is left -/

theorem skip_suffix (c : UInt8) (l : List UInt8) : (skip c l).2 <:+ l := by
  cases l with
  | nil => exact List.suffix_rfl
  | cons b l =>
    rw [skip]
    split_ifs
    · exact List.suffix_cons b l
    · exact List.suffix_rfl

@[simp] theorem skip_self (c : UInt8) (l : List UInt8) : skip c (c :: l) = (true, l) :=
  if_pos rfl

theorem skip_of_head? {c : UInt8} {l : List UInt8} (h : l.head? ≠ some c) :
    skip c l = (false, l) := by
  cases l with
  | nil => rfl
  | cons b l => exact if_neg fun hb ↦ h (by rw [hb, List.head?_cons])

/-- The byte was there, and is gone, or it was not. -/
theorem skip_cases (c : UInt8) (l : List UInt8) :
    (∃ r, l = c :: r ∧ skip c l = (true, r)) ∨ l.head? ≠ some c ∧ skip c l = (false, l) := by
  by_cases h : l.head? = some c
  · obtain ⟨r, rfl⟩ := List.head?_eq_some_iff.mp h
    exact .inl ⟨r, rfl, skip_self c r⟩
  · exact .inr ⟨h, skip_of_head? h⟩

theorem expect_eq_ok_iff {c : UInt8} {e : Error} {l r : List UInt8} :
    expect c e l = .ok r ↔ l = c :: r := by
  rw [expect]
  rcases skip_cases c l with ⟨r', rfl, h⟩ | ⟨hne, h⟩
  · simp [h]
  · simp only [h, Bool.false_eq_true, if_false, reduceCtorEq, false_iff]
    rintro rfl
    exact hne rfl

@[simp] theorem expect_self (c : UInt8) (e : Error) (l : List UInt8) :
    expect c e (c :: l) = .ok l :=
  expect_eq_ok_iff.mpr rfl

theorem expect_suffix {c : UInt8} {e : Error} {l r : List UInt8} (h : expect c e l = .ok r) :
    r <:+ l := by
  rw [expect_eq_ok_iff.mp h]
  exact List.suffix_cons c r

theorem expect_eq {c : UInt8} {e : Error} {l : List UInt8} (h : l.head? ≠ some c) :
    expect c e l = .error e := by
  rw [expect, skip_of_head? h]
  rfl

theorem number_eq_ok_iff {n v : ℕ} {e : Error} {l r : List UInt8} :
    number n e l = .ok (v, r) ↔ ∃ ds : Numeral n, ds.value = v ∧ l = ds.bytes ++ r := by
  rw [number, ← readDigits_eq_some_iff]
  cases readDigits n l <;> simp

theorem number_spec {n : ℕ} {e : Error} {l : List UInt8} {x : ℕ × List UInt8}
    (h : number n e l = .ok x) : x.2 <:+ l ∧ l.length = n + x.2.length ∧ x.1 < 10 ^ n := by
  obtain ⟨ds, hv, rfl⟩ := number_eq_ok_iff.mp h
  rw [← hv]
  exact ⟨List.suffix_append _ _, by rw [List.length_append, ds.length_bytes], ds.value_lt⟩

/-- A number that is not there is the error. -/
theorem number_cases (n : ℕ) (e : Error) (l : List UInt8) :
    number n e l = .error e ∨ ∃ x, number n e l = .ok x := by
  rw [number]
  cases readDigits n l with
  | none => exact .inl rfl
  | some x => exact .inr ⟨x, rfl⟩

theorem expect_cases (c : UInt8) (e : Error) (l : List UInt8) :
    expect c e l = .error e ∨ ∃ r, l = c :: r ∧ expect c e l = .ok r := by
  rcases skip_cases c l with ⟨r, rfl, h⟩ | ⟨hne, -⟩
  · exact .inr ⟨r, rfl, expect_eq_ok_iff.mpr rfl⟩
  · exact .inl (expect_eq hne)

/-- A text too short for hours and minutes is no time. -/
theorem time_of_short {l : List UInt8} (h : l.length < 5) : time l = .error .invalidTime := by
  rw [time]
  rcases number_cases 2 .invalidTime l with h1 | ⟨⟨hour, l1⟩, h1⟩
  · rw [h1, Outcome.error_bind]
  have hlen1 := (number_spec h1).2.1
  rw [h1, Outcome.ok_bind]
  dsimp only at hlen1 ⊢
  rcases expect_cases ':'.toUInt8 .invalidTime l1 with h2 | ⟨l2, rfl, h2⟩
  · rw [h2, Outcome.error_bind]
  rw [h2, Outcome.ok_bind]
  rcases number_cases 2 .invalidTime l2 with h3 | ⟨⟨min, l3⟩, h3⟩
  · rw [h3, Outcome.error_bind]
  have hlen3 := (number_spec h3).2.1
  rw [List.length_cons] at hlen1
  omega

theorem length_skip (c : UInt8) (l : List UInt8) :
    l.length = (skip c l).2.length + (skip c l).1.toNat := by
  rcases skip_cases c l with ⟨r, rfl, h⟩ | ⟨-, h⟩
  · rw [h]
    rfl
  · rw [h]
    rfl

/-- A text too short for a month and a day has neither. -/
theorem monthAndDay_of_short {withDashes : Bool} {l : List UInt8}
    (h : l.length < 4 + withDashes.toNat) : monthAndDay withDashes l = .error .invalidDate := by
  rw [monthAndDay]
  rcases number_cases 2 .invalidDate l with h1 | ⟨⟨month, l1⟩, h1⟩
  · rw [h1, Outcome.error_bind]
  have hlen1 := (number_spec h1).2.1
  have hskip := length_skip '-'.toUInt8 l1
  rw [h1, Outcome.ok_bind]
  dsimp only at hlen1 ⊢
  by_cases hdash : (skip '-'.toUInt8 l1).1 = !withDashes
  · rw [if_pos hdash]
  rw [if_neg hdash]
  rcases number_cases 2 .invalidDate (skip '-'.toUInt8 l1).2 with h2 | ⟨⟨day, l2⟩, h2⟩
  · rw [h2, Outcome.error_bind]
  have hlen2 := (number_spec h2).2.1
  rw [Bool.not_eq_not.mp hdash] at hskip
  omega

/-- A text too short for a date is none. -/
theorem date_of_short {l : List UInt8} (h : l.length < 8) : date l = .error .invalidDate := by
  have hskip := length_skip '-'.toUInt8 l
  rw [date]
  rcases number_cases 4 .invalidDate (skip '-'.toUInt8 l).2 with h1 | ⟨⟨year, l1⟩, h1⟩
  · simp only [h1, Outcome.error_bind]
  have hlen1 := (number_spec h1).2.1
  have hskip1 := length_skip '-'.toUInt8 l1
  dsimp only at hlen1
  simp only [h1, Outcome.ok_bind]
  rw [monthAndDay_of_short (by omega), Outcome.error_bind]

end Scan

end Datetime
