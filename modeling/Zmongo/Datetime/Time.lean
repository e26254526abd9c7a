import Zmongo.Datetime.Date

/-!
# `Time`

The type `Time` of `datetime.zig`, a time of day to the microsecond, with `Time.valid`,
`Time.init` and `Time.order`.

A valid time is a number of microseconds since midnight (`Time.ofDay`), below the number of
microseconds of a day, and every such number is one valid time only (`Time.ofDay_injective`).
`Time.order` is the order of these numbers.
-/

set_option autoImplicit false

open Zig

namespace Datetime

/-- A time of day, not necessarily one that exists. -/
@[ext] structure Time where
  /-- The hour. -/
  hour : UInt8
  /-- The minute of the hour. -/
  min : UInt8
  /-- The second of the minute.  There are no leap seconds. -/
  sec : UInt8
  /-- The microsecond of the second. -/
  micros : UInt32
  deriving DecidableEq, Repr

namespace Time

/-- Does the time exist? -/
def valid (hour min sec : UInt8) (micros : UInt32) : Bool :=
  if hour > 23 then false
  else if min > 59 then false
  else if sec > 59 then false
  else if micros > 999999 then false
  else true

/-- A time that exists, or an error. -/
def init (hour min sec : UInt8) (micros : UInt32) : Result Time :=
  if !valid hour min sec micros then .error .invalidTime
  else .ok { hour, min, sec, micros }

/-- Earlier, equal or later. -/
def order (a b : Time) : Ordering :=
  let hourOrder := Datetime.order a.hour.toNat b.hour.toNat
  if hourOrder ≠ .eq then hourOrder
  else
    let minOrder := Datetime.order a.min.toNat b.min.toNat
    if minOrder ≠ .eq then minOrder
    else
      let secOrder := Datetime.order a.sec.toNat b.sec.toNat
      if secOrder ≠ .eq then secOrder
      else Datetime.order a.micros.toNat b.micros.toNat

/-! ## Microseconds since midnight -/

/-- The time exists. -/
def Valid (t : Time) : Prop := valid t.hour t.min t.sec t.micros = true

instance : DecidablePred Valid := fun _ ↦ inferInstanceAs (Decidable (valid _ _ _ _ = true))

theorem init_eq_ok_iff {hour min sec : UInt8} {micros : UInt32} {t : Time} :
    init hour min sec micros = .ok t ↔ t = ⟨hour, min, sec, micros⟩ ∧ t.Valid := by
  rw [init]
  refine ⟨?_, ?_⟩
  · intro h
    split_ifs at h with hv
    rw [Outcome.ok.injEq] at h
    subst h
    exact ⟨rfl, by simpa [Valid] using hv⟩
  · rintro ⟨rfl, hv⟩
    rw [if_neg (by simpa [Valid] using hv)]

theorem init_ends (hour min sec : UInt8) (micros : UInt32) : (init hour min sec micros).Ends := by
  rw [init]
  split_ifs <;> exact trivial

theorem valid_iff {hour min sec : UInt8} {micros : UInt32} : valid hour min sec micros = true ↔
    hour.toNat ≤ 23 ∧ min.toNat ≤ 59 ∧ sec.toNat ≤ 59 ∧ micros.toNat ≤ 999999 := by
  simp only [valid, Bool.if_false_left, Bool.and_true, Bool.and_eq_true, Bool.not_eq_true',
    decide_eq_false_iff_not, gt_iff_lt, UInt8.not_lt, UInt32.not_lt, UInt8.le_iff_toNat_le,
    UInt32.le_iff_toNat_le, UInt8.reduceToNat, UInt32.reduceToNat]

/-- The number of microseconds of a day. -/
def dayMicros : ℤ := 86400000000

/-- The microseconds since midnight. -/
def ofDay (t : Time) : ℤ :=
  3600000000 * t.hour.toNat + 60000000 * t.min.toNat + 1000000 * t.sec.toNat + t.micros.toNat

theorem ofDay_nonneg (t : Time) : 0 ≤ t.ofDay := by
  rw [ofDay]
  omega

theorem Valid.ofDay_lt {t : Time} (h : t.Valid) : t.ofDay < dayMicros := by
  rw [Valid, valid_iff] at h
  rw [ofDay, dayMicros]
  omega

theorem ofDay_injective {a b : Time} (ha : a.Valid) (hb : b.Valid) (h : a.ofDay = b.ofDay) :
    a = b := by
  rw [Valid, valid_iff] at ha hb
  rw [ofDay, ofDay] at h
  refine Time.ext (UInt8.toNat_inj.mp ?_) (UInt8.toNat_inj.mp ?_) (UInt8.toNat_inj.mp ?_)
    (UInt32.toNat_inj.mp ?_) <;> omega

@[simp] theorem order_self (a : Time) : order a a = .eq := by
  simp [order, Datetime.order]

theorem order_of_lt {a b : Time} (ha : a.Valid) (hb : b.Valid) (h : a.ofDay < b.ofDay) :
    order a b = .lt ∧ order b a = .gt := by
  have hlex : (a.hour.toNat : ℤ) < b.hour.toNat ∨ a.hour.toNat = b.hour.toNat ∧
      ((a.min.toNat : ℤ) < b.min.toNat ∨ a.min.toNat = b.min.toNat ∧
        ((a.sec.toNat : ℤ) < b.sec.toNat ∨ a.sec.toNat = b.sec.toNat ∧
          (a.micros.toNat : ℤ) < b.micros.toNat)) := by
    rw [Valid, valid_iff] at ha hb
    rw [ofDay, ofDay] at h
    omega
  rcases hlex with h | ⟨hh, h | ⟨hm, h | ⟨hs, h⟩⟩⟩
  · simp [order, Datetime.order, compare_lt_iff_lt.mpr h, compare_gt_iff_gt.mpr h]
  · simp [order, Datetime.order, hh, compare_lt_iff_lt.mpr h, compare_gt_iff_gt.mpr h]
  · simp [order, Datetime.order, hh, hm, compare_lt_iff_lt.mpr h, compare_gt_iff_gt.mpr h]
  · simp [order, Datetime.order, hh, hm, hs, compare_lt_iff_lt.mpr h, compare_gt_iff_gt.mpr h]

/-- **`Time.order` is the order of the microseconds since midnight.** -/
theorem order_eq {a b : Time} (ha : a.Valid) (hb : b.Valid) :
    order a b = compare a.ofDay b.ofDay := by
  rcases lt_trichotomy a.ofDay b.ofDay with h | h | h
  · rw [compare_lt_iff_lt.mpr h, (order_of_lt ha hb h).1]
  · rw [h, compare_eq_iff_eq.mpr rfl, ofDay_injective ha hb h, order_self]
  · rw [compare_gt_iff_gt.mpr h, (order_of_lt hb ha h).2]

end Time
end Datetime
