import Mathlib.Algebra.BigOperators.Intervals
import Mathlib.Algebra.Order.BigOperators.Group.Finset
import Mathlib.Data.Prod.Lex
import Mathlib.Order.Interval.Finset.Nat
import Mathlib.Tactic.IntervalCases

/-!
# The proleptic Gregorian calendar

The calendar of the leap rule and the twelve month lengths, extended to every year in both
directions: years are integers, with a year 0 between the years -1 and 1.

`Civil` is a date of this calendar.  It carries the proof that its month and its day exist, so
there is no 31 April to exclude later.  `Civil.next` and `Civil.prev` step from a day to its
neighbours, and dates are ordered by year, then month, then day.  How many days lie between two
dates is the subject of `Gregorian.DayNumber`.
-/

set_option autoImplicit false

open Finset

namespace Gregorian

/-! ## Lengths of years and months -/

/-- Every fourth year, but of the centuries only every fourth one. -/
def IsLeap (y : ℤ) : Prop := y % 400 = 0 ∨ y % 100 ≠ 0 ∧ y % 4 = 0

instance : DecidablePred IsLeap := fun y ↦
  inferInstanceAs (Decidable (y % 400 = 0 ∨ y % 100 ≠ 0 ∧ y % 4 = 0))

/-- The number of days of year `y`. -/
def yearLength (y : ℤ) : ℕ := if IsLeap y then 366 else 365

/-- The number of days of month `m` of year `y`, months counted from 1. -/
def monthLength (y : ℤ) (m : ℕ) : ℕ :=
  if m = 2 then if IsLeap y then 29 else 28
  else if m = 4 ∨ m = 6 ∨ m = 9 ∨ m = 11 then 30
  else 31

/-- The number of days of year `y` before its month `m`. -/
def monthStart (y : ℤ) (m : ℕ) : ℕ := ∑ k ∈ Ico 1 m, monthLength y k

theorem monthLength_le (y : ℤ) (m : ℕ) : monthLength y m ≤ 31 := by
  rw [monthLength]
  split_ifs <;> omega

theorem monthLength_ge (y : ℤ) (m : ℕ) : 28 ≤ monthLength y m := by
  rw [monthLength]
  split_ifs <;> omega

@[simp] theorem monthStart_one (y : ℤ) : monthStart y 1 = 0 := by
  simp [monthStart]

theorem monthStart_succ (y : ℤ) {m : ℕ} (hm : 1 ≤ m) :
    monthStart y (m + 1) = monthStart y m + monthLength y m :=
  sum_Ico_succ_top hm _

theorem monthStart_mono (y : ℤ) {m n : ℕ} (h : m ≤ n) : monthStart y m ≤ monthStart y n :=
  sum_le_sum_of_subset (Ico_subset_Ico le_rfl h)

/-- The months make up the year. -/
theorem monthStart_thirteen (y : ℤ) : monthStart y 13 = yearLength y := by
  rw [monthStart, yearLength]
  split <;> rename_i h <;> simp [sum_Ico_succ_top, monthLength, h]

/-! ## Dates -/

/-- A date of the calendar. -/
@[ext] structure Civil where
  /-- The year. -/
  year : ℤ
  /-- The month, counted from 1. -/
  month : ℕ
  /-- The day of the month, counted from 1. -/
  day : ℕ
  month_pos : 1 ≤ month
  month_le : month ≤ 12
  day_pos : 1 ≤ day
  day_le : day ≤ monthLength year month
  deriving DecidableEq

namespace Civil

/-- The first day of year `y`. -/
def newYear (y : ℤ) : Civil := ⟨y, 1, 1, le_rfl, by omega, le_rfl, by simp [monthLength]⟩

/-- The day after `c`. -/
def next (c : Civil) : Civil :=
  if hd : c.day < monthLength c.year c.month then
    ⟨c.year, c.month, c.day + 1, c.month_pos, c.month_le, by omega, hd⟩
  else if hm : c.month < 12 then
    ⟨c.year, c.month + 1, 1, by omega, hm, le_rfl, (monthLength_ge _ _).trans' (by omega)⟩
  else newYear (c.year + 1)

/-- The day before `c`. -/
def prev (c : Civil) : Civil :=
  if hd : 1 < c.day then
    ⟨c.year, c.month, c.day - 1, c.month_pos, c.month_le, by omega, by have := c.day_le; omega⟩
  else if hm : 1 < c.month then
    ⟨c.year, c.month - 1, monthLength c.year (c.month - 1), by omega,
      by have := c.month_le; omega, (monthLength_ge _ _).trans' (by omega), le_rfl⟩
  else ⟨c.year - 1, 12, 31, by omega, le_rfl, by omega, by simp [monthLength]⟩

/-- The date as the key it is ordered by. -/
def key (c : Civil) : ℤ ×ₗ ℕ ×ₗ ℕ := toLex (c.year, toLex (c.month, c.day))

theorem key_injective : Function.Injective key := by
  intro a b h
  simp only [key, toLex_inj, Prod.mk.injEq] at h
  exact Civil.ext h.1 h.2.1 h.2.2

noncomputable instance : LinearOrder Civil := LinearOrder.lift' key key_injective

theorem lt_iff {a b : Civil} : a < b ↔
    a.year < b.year ∨ a.year = b.year ∧ (a.month < b.month ∨ a.month = b.month ∧ a.day < b.day) :=
  (Prod.Lex.lt_iff ..).trans (or_congr_right (and_congr_right fun _ ↦ Prod.Lex.lt_iff ..))

end Civil
end Gregorian
