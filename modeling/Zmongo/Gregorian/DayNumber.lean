import Zmongo.Gregorian.Calendar
import Mathlib.Order.Interval.Finset.Basic
import Mathlib.Data.Int.ConditionallyCompleteOrder
import Mathlib.Tactic.Linarith
import Mathlib.Tactic.Ring

/-!
# Counting the days of the proleptic Gregorian calendar

`yearStart e y` is the signed number of days from 1 January of year `e` to 1 January of year `y`,
and `dayNumber e y m d` the signed number of days from there to the `d`-th of month `m` of year
`y`.  Both are sums of year and month lengths, counted the way a wall calendar counts, so there is
nothing in them to get wrong.  What programs use instead is a closed formula, and
`yearStart_eq` is the one all such formulas can be checked against.

The main results are `dayNumber_strictMono` and `dayNumber_surjective`: a later date has a larger
number and every number is a day, with no gap and no overlap at a month, a leap day or a century.
`dayNumber_unique` adds that the count is determined by its zero and by `next`.
-/

set_option autoImplicit false

open Finset

namespace Gregorian

/-! ## Years -/

/-- The signed number of days from 1 January of year `e` to 1 January of year `y`. -/
def yearStart (e y : ℤ) : ℤ :=
  ∑ k ∈ range (y - e).toNat, (yearLength (e + k) : ℤ) -
    ∑ k ∈ range (e - y).toNat, (yearLength (y + k) : ℤ)

@[simp] theorem yearStart_self (e : ℤ) : yearStart e e = 0 := by
  simp [yearStart]

/-- A year later is one year's length of days later, on both sides of the epoch. -/
theorem yearStart_succ (e y : ℤ) : yearStart e (y + 1) = yearStart e y + yearLength y := by
  rw [yearStart, yearStart]
  rcases lt_or_ge y e with h | h
  · have hy : (e - y).toNat = (e - (y + 1)).toNat + 1 := by omega
    have h0 : (y - e).toNat = 0 ∧ (y + 1 - e).toNat = 0 := by omega
    have hshift : ∀ k : ℕ, y + ((k + 1 : ℕ) : ℤ) = y + 1 + k := by
      intro k
      omega
    rw [h0.1, h0.2, hy, sum_range_succ']
    simp only [hshift, Nat.cast_zero, add_zero, range_zero, sum_empty]
    ring
  · have hy : (y + 1 - e).toNat = (y - e).toNat + 1 := by omega
    have h0 : (e - y).toNat = 0 ∧ (e - (y + 1)).toNat = 0 := by omega
    have hlast : e + ((y - e).toNat : ℤ) = y := by omega
    rw [h0.1, h0.2, hy, sum_range_succ, hlast]
    simp only [range_zero, sum_empty, sub_zero]

/-- The number of leap years before year `y`, up to a constant. -/
def leapsBefore (y : ℤ) : ℤ := (y - 1) / 4 - (y - 1) / 100 + (y - 1) / 400

theorem leapsBefore_succ (y : ℤ) :
    leapsBefore (y + 1) = leapsBefore y + if IsLeap y then 1 else 0 := by
  unfold leapsBefore IsLeap
  split_ifs <;> omega

theorem yearLength_eq (y : ℤ) : (yearLength y : ℤ) = 365 + if IsLeap y then 1 else 0 := by
  rw [yearLength]
  split <;> rfl

/-- **The sum of year lengths in closed form.** -/
theorem yearStart_eq (e y : ℤ) : yearStart e y = 365 * (y - e) + leapsBefore y - leapsBefore e := by
  induction y using Int.inductionOn' (b := e) with
  | zero => simp
  | succ k _ ih =>
    rw [yearStart_succ, ih, leapsBefore_succ, yearLength_eq]
    ring
  | pred k _ ih =>
    have hs := yearStart_succ e (k - 1)
    have hl := leapsBefore_succ (k - 1)
    rw [sub_add_cancel] at hs hl
    rw [yearLength_eq, ih, hl] at hs
    linarith

theorem yearStart_mono (e : ℤ) : Monotone (yearStart e) :=
  monotone_int_of_le_succ fun y ↦ by rw [yearStart_succ]; omega

/-! ## Days -/

/-- The signed number of days from 1 January of year `e` to the `d`-th of month `m` of year `y`. -/
def dayNumber (e y : ℤ) (m d : ℕ) : ℤ := yearStart e y + monthStart y m + (d - 1)

namespace Civil

/-- The number of the day `c`, counted from 1 January of year `e`. -/
def dayNumber (e : ℤ) (c : Civil) : ℤ := Gregorian.dayNumber e c.year c.month c.day

@[simp] theorem dayNumber_newYear (e y : ℤ) : (newYear y).dayNumber e = yearStart e y := by
  simp [dayNumber, Gregorian.dayNumber, newYear]

/-- **The day after a date has the next number.** -/
theorem dayNumber_next (e : ℤ) (c : Civil) : c.next.dayNumber e = c.dayNumber e + 1 := by
  have hd := c.day_le
  rw [next]
  split_ifs with h1 h2
  · simp only [dayNumber, Gregorian.dayNumber]
    push_cast
    ring
  · simp only [dayNumber, Gregorian.dayNumber, monthStart_succ _ c.month_pos]
    push_cast
    omega
  · have hm : c.month = 12 := le_antisymm c.month_le (by omega)
    have hy := monthStart_succ c.year c.month_pos
    rw [hm, monthStart_thirteen] at hy
    rw [dayNumber_newYear, yearStart_succ, dayNumber, Gregorian.dayNumber, hm]
    rw [hm] at h1 hd
    omega

/-- The day before a date has the number before. -/
theorem dayNumber_prev (e : ℤ) (c : Civil) : c.prev.dayNumber e = c.dayNumber e - 1 := by
  have hd := c.day_pos
  rw [prev]
  split_ifs with h1 h2
  · simp only [dayNumber, Gregorian.dayNumber]
    omega
  · have hm := monthStart_succ c.year (m := c.month - 1) (by omega)
    rw [Nat.sub_add_cancel c.month_pos] at hm
    simp only [dayNumber, Gregorian.dayNumber, hm]
    omega
  · have hm : c.month = 1 := le_antisymm (by omega) c.month_pos
    have hy := monthStart_succ (c.year - 1) (m := 12) (by omega)
    have hs := yearStart_succ e (c.year - 1)
    rw [sub_add_cancel] at hs
    rw [monthStart_thirteen, monthLength] at hy
    simp only [dayNumber, Gregorian.dayNumber, hm, monthStart_one, hs]
    norm_num at hy
    omega

theorem yearStart_le_dayNumber (e : ℤ) (c : Civil) : yearStart e c.year ≤ c.dayNumber e := by
  have hd := c.day_pos
  rw [dayNumber, Gregorian.dayNumber]
  omega

theorem dayNumber_lt_monthStart (e : ℤ) (c : Civil) :
    c.dayNumber e < yearStart e c.year + monthStart c.year (c.month + 1) := by
  have hd := c.day_le
  rw [dayNumber, Gregorian.dayNumber, monthStart_succ _ c.month_pos]
  omega

theorem dayNumber_lt_yearStart (e : ℤ) (c : Civil) : c.dayNumber e < yearStart e (c.year + 1) := by
  have hm : monthStart c.year (c.month + 1) ≤ monthStart c.year 13 :=
    monthStart_mono c.year (Nat.succ_le_succ c.month_le)
  have hlt := dayNumber_lt_monthStart e c
  rw [yearStart_succ, ← monthStart_thirteen]
  omega

/-- A later date has a larger number: the years, and within a year the months, are laid out one
after the other without overlap. -/
theorem dayNumber_strictMono (e : ℤ) : StrictMono (dayNumber e) := by
  intro a b hab
  rcases lt_iff.mp hab with hy | ⟨hy, hm | ⟨hm, hd⟩⟩
  · calc a.dayNumber e < yearStart e (a.year + 1) := dayNumber_lt_yearStart e a
      _ ≤ yearStart e b.year := yearStart_mono e hy
      _ ≤ b.dayNumber e := yearStart_le_dayNumber e b
  · have hlt := dayNumber_lt_monthStart e a
    have hmono : monthStart a.year (a.month + 1) ≤ monthStart a.year b.month :=
      monthStart_mono a.year hm
    have hb := b.day_pos
    simp only [dayNumber, Gregorian.dayNumber, hy] at *
    omega
  · simp only [dayNumber, Gregorian.dayNumber, hy, hm]
    omega

/-- Every integer is the number of a day. -/
theorem dayNumber_surjective (e : ℤ) : Function.Surjective (dayNumber e) := by
  intro n
  induction n using Int.induction_on with
  | zero => exact ⟨newYear e, by simp⟩
  | succ k ih =>
    obtain ⟨c, hc⟩ := ih
    exact ⟨c.next, by rw [dayNumber_next, hc]⟩
  | pred k ih =>
    obtain ⟨c, hc⟩ := ih
    exact ⟨c.prev, by rw [dayNumber_prev, hc]⟩

theorem dayNumber_injective (e : ℤ) : Function.Injective (dayNumber e) :=
  (dayNumber_strictMono e).injective

theorem next_prev (c : Civil) : c.prev.next = c :=
  dayNumber_injective 0 (by rw [dayNumber_next, dayNumber_prev, sub_add_cancel])

/-- The day count is the only one with its zero that goes up by one from a day to the next. -/
theorem dayNumber_unique (e : ℤ) {N : Civil → ℤ} (h0 : N (newYear e) = 0)
    (hnext : ∀ c, N c.next = N c + 1) (c : Civil) : N c = c.dayNumber e := by
  suffices h : ∀ (n : ℤ) (c : Civil), c.dayNumber e = n → N c = n from h _ c rfl
  intro n
  induction n using Int.induction_on with
  | zero =>
    intro c hc
    have hc' : c = newYear e :=
      dayNumber_injective e (by rw [hc, dayNumber_newYear, yearStart_self])
    rw [hc', h0]
  | succ k ih =>
    intro c hc
    have hprev := ih c.prev (by rw [dayNumber_prev, hc, add_sub_cancel_right])
    rw [← next_prev c, hnext, hprev]
  | pred k ih =>
    intro c hc
    have hn := ih c.next (by rw [dayNumber_next, hc, sub_add_cancel])
    rw [hnext] at hn
    omega

end Civil
end Gregorian
