import Zmongo.Zig.Int
import Zmongo.Gregorian.DayNumber

/-!
# `Date`

The type `Date` of `datetime.zig`, a year, a month and a day, with `Date.valid`, `Date.init` and
`Date.order`.  Nothing in the type itself says that the day exists: a `Date` is three integers of
the widths of the source, and `Date.valid` is the check.

`Date.valid_iff` reads the check as the calendar's own condition, so that a valid date is a
`Gregorian.Civil` (`Date.civil`), and `Date.order_eq` says that `Date.order` is the order of the
days themselves.
-/

set_option autoImplicit false

open Zig

namespace Datetime

/-- The errors of `datetime.zig`. -/
inductive Error where
  | invalidDate
  | invalidTime
  | invalidDateTime
  | outsideJulianPeriod
  | nonUTCNotSupported
  deriving DecidableEq, Repr

/-- What a call of a function of `datetime.zig` ends with. -/
abbrev Result (α : Type) : Type := Outcome Error α

/-- `std.math.order` -/
def order (a b : ℤ) : Ordering := compare a b

/-- A date, not necessarily one that exists. -/
@[ext] structure Date where
  /-- The year, astronomical: year 0 is the year before year 1. -/
  year : Int16
  /-- The month, counted from 1. -/
  month : UInt8
  /-- The day of the month, counted from 1. -/
  day : UInt8
  deriving DecidableEq, Repr

namespace Date

/-- The table of `Date.valid`: the month lengths of a common year, from January. -/
def monthDays : Vector UInt8 12 := #v[31, 28, 31, 30, 31, 30, 31, 31, 30, 31, 30, 31]

/-- Does the date exist? -/
def valid (year : Int16) (month day : UInt8) : Bool :=
  if h : month.toNat = 0 ∨ month.toNat > 12 then false
  else if day.toNat = 0 then false
  else
    let maxDays := if month.toNat = 2 ∧
        (rem year.toInt 400 = 0 ∨ (rem year.toInt 100 ≠ 0 ∧ rem year.toInt 4 = 0)) then 29
      else monthDays[month.toNat - 1]
    if day > maxDays then false else true

/-- A date that exists, or an error. -/
def init (year : Int16) (month day : UInt8) : Result Date :=
  if !valid year month day then .error .invalidDate
  else .ok { year, month, day }

/-- Earlier, equal or later. -/
def order (a b : Date) : Ordering :=
  let yearOrder := Datetime.order a.year.toInt b.year.toInt
  if yearOrder ≠ .eq then yearOrder
  else
    let monthOrder := Datetime.order a.month.toNat b.month.toNat
    if monthOrder ≠ .eq then monthOrder
    else Datetime.order a.day.toNat b.day.toNat

/-! ## Dates of the calendar -/

/-- The date exists. -/
def Valid (d : Date) : Prop := valid d.year d.month d.day = true

instance : DecidablePred Valid := fun _ ↦ inferInstanceAs (Decidable (valid _ _ _ = true))

theorem init_eq_ok_iff {year : Int16} {month day : UInt8} {d : Date} :
    init year month day = .ok d ↔ d = ⟨year, month, day⟩ ∧ d.Valid := by
  rw [init]
  refine ⟨?_, ?_⟩
  · intro h
    split_ifs at h with hv
    rw [Outcome.ok.injEq] at h
    subst h
    exact ⟨rfl, by simpa [Valid] using hv⟩
  · rintro ⟨rfl, hv⟩
    rw [if_neg (by simpa [Valid] using hv)]

theorem init_ends (year : Int16) (month day : UInt8) : (init year month day).Ends := by
  rw [init]
  split_ifs <;> exact trivial

/-- The leap rule of `Date.valid`, by remainders of the sign of the year. -/
theorem leap_iff (y : ℤ) :
    rem y 400 = 0 ∨ (rem y 100 ≠ 0 ∧ rem y 4 = 0) ↔ Gregorian.IsLeap y := by
  simp only [Gregorian.IsLeap, rem_eq_zero_iff, ne_eq]

theorem monthDays_toNat {y : ℤ} {m : ℕ} (h0 : 1 ≤ m) (h : m - 1 < 12)
    (hy : ¬(m = 2 ∧ Gregorian.IsLeap y)) :
    (monthDays[m - 1]).toNat = Gregorian.monthLength y m := by
  have hm : m ≤ 12 := by omega
  interval_cases m <;> simp_all [monthDays, Gregorian.monthLength]

/-- **The check is the calendar's.** -/
theorem valid_iff {year : Int16} {month day : UInt8} : valid year month day = true ↔
    (1 ≤ month.toNat ∧ month.toNat ≤ 12) ∧ 1 ≤ day.toNat ∧
      day.toNat ≤ Gregorian.monthLength year.toInt month.toNat := by
  by_cases h1 : month.toNat = 0 ∨ month.toNat > 12
  · rw [valid, dif_pos h1]
    simp only [Bool.false_eq_true, false_iff]
    omega
  by_cases h2 : day.toNat = 0
  · rw [valid, dif_neg h1, if_pos h2]
    simp only [Bool.false_eq_true, false_iff]
    omega
  have hmax : (if month.toNat = 2 ∧ Gregorian.IsLeap year.toInt then 29
      else monthDays[month.toNat - 1]).toNat =
        Gregorian.monthLength year.toInt month.toNat := by
    split_ifs with h
    · simp [Gregorian.monthLength, h]
    · exact monthDays_toNat (by omega) (by omega) h
  simp only [valid, dif_neg h1, if_neg h2, leap_iff]
  rw [← hmax, Bool.if_false_left, Bool.and_true, Bool.not_eq_true', decide_eq_false_iff_not,
    gt_iff_lt, UInt8.not_lt, UInt8.le_iff_toNat_le]
  omega

theorem Valid.month_pos {d : Date} (h : d.Valid) : 1 ≤ d.month.toNat := (valid_iff.mp h).1.1

theorem Valid.month_le {d : Date} (h : d.Valid) : d.month.toNat ≤ 12 := (valid_iff.mp h).1.2

theorem Valid.day_pos {d : Date} (h : d.Valid) : 1 ≤ d.day.toNat := (valid_iff.mp h).2.1

theorem Valid.day_le {d : Date} (h : d.Valid) :
    d.day.toNat ≤ Gregorian.monthLength d.year.toInt d.month.toNat := (valid_iff.mp h).2.2

theorem Valid.day_le_31 {d : Date} (h : d.Valid) : d.day.toNat ≤ 31 :=
  h.day_le.trans (Gregorian.monthLength_le _ _)

/-- A valid date, as a date of the calendar. -/
def civil (d : Date) (h : d.Valid) : Gregorian.Civil :=
  ⟨d.year.toInt, d.month.toNat, d.day.toNat, h.month_pos, h.month_le, h.day_pos, h.day_le⟩

theorem civil_injective {a b : Date} {ha : a.Valid} {hb : b.Valid} (h : a.civil ha = b.civil hb) :
    a = b := by
  simp only [civil, Gregorian.Civil.mk.injEq] at h
  exact Date.ext (Int16.toInt_inj.mp h.1) (UInt8.toNat_inj.mp h.2.1) (UInt8.toNat_inj.mp h.2.2)

/-- A date of the calendar whose year is an `i16`, as a `Date`. -/
def ofCivil (c : Gregorian.Civil) : Date :=
  ⟨Int16.ofInt c.year, UInt8.ofNat c.month, UInt8.ofNat c.day⟩

section OfCivil

variable {c : Gregorian.Civil}

theorem toNat_month_ofCivil : (ofCivil c).month.toNat = c.month :=
  UInt8.toNat_ofNat_of_lt (c.month_le.trans_lt (by decide))

theorem toNat_day_ofCivil : (ofCivil c).day.toNat = c.day :=
  UInt8.toNat_ofNat_of_lt ((c.day_le.trans (Gregorian.monthLength_le _ _)).trans_lt (by decide))

variable (h : IntType.i16.Holds c.year)
include h

theorem toInt_year_ofCivil : (ofCivil c).year.toInt = c.year :=
  Int16.toInt_ofInt_of_le h.1 h.2

theorem valid_ofCivil : (ofCivil c).Valid := by
  rw [Valid, valid_iff, toNat_month_ofCivil, toNat_day_ofCivil, toInt_year_ofCivil h]
  exact ⟨⟨c.month_pos, c.month_le⟩, c.day_pos, c.day_le⟩

theorem civil_ofCivil : (ofCivil c).civil (valid_ofCivil h) = c :=
  Gregorian.Civil.ext (toInt_year_ofCivil h) toNat_month_ofCivil toNat_day_ofCivil

end OfCivil

/-! ## The order of dates -/

theorem order_of_lt {a b : Date} {ha : a.Valid} {hb : b.Valid} (h : a.civil ha < b.civil hb) :
    order a b = .lt ∧ order b a = .gt := by
  simp only [Gregorian.Civil.lt_iff, civil] at h
  rcases h with hy | ⟨hy, hm | ⟨hm, hd⟩⟩
  · simp [order, Datetime.order, compare_lt_iff_lt.mpr hy, compare_gt_iff_gt.mpr hy]
  · have hm' : (a.month.toNat : ℤ) < b.month.toNat := by exact_mod_cast hm
    simp [order, Datetime.order, hy, compare_lt_iff_lt.mpr hm', compare_gt_iff_gt.mpr hm']
  · have hd' : (a.day.toNat : ℤ) < b.day.toNat := by exact_mod_cast hd
    simp [order, Datetime.order, hy, hm, compare_lt_iff_lt.mpr hd', compare_gt_iff_gt.mpr hd']

@[simp] theorem order_self (a : Date) : order a a = .eq := by
  simp [order, Datetime.order]

/-- **`Date.order` is the order of the days.** -/
theorem order_eq {a b : Date} (ha : a.Valid) (hb : b.Valid) (e : ℤ) :
    order a b = compare ((a.civil ha).dayNumber e) ((b.civil hb).dayNumber e) := by
  have hmono := Gregorian.Civil.dayNumber_strictMono e
  rcases lt_trichotomy (a.civil ha) (b.civil hb) with h | h | h
  · rw [compare_lt_iff_lt.mpr (hmono h), (order_of_lt h).1]
  · rw [h, compare_eq_iff_eq.mpr rfl, civil_injective h, order_self]
  · rw [compare_gt_iff_gt.mpr (hmono h), (order_of_lt h).2]

end Date
end Datetime
