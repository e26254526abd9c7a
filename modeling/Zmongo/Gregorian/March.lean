import Zmongo.Gregorian.DayNumber

/-!
# Years that start in March

Programs that convert dates like to begin the year in March.  The leap day is then the last day of
the year, so the months of such a year are always at the same offsets (`marchStart`), and the year
`Y`, which runs from March of the year `Y` to February of the year `Y + 1`, is a day longer
exactly when the February at its end is.

`dayNumber_march` is the day number in these coordinates, and `Civil.ofMarch` the date with a given
year from March and a given number of days since then.
-/

set_option autoImplicit false

open Finset

namespace Gregorian

/-- The length of the `k`-th month from March, 0 for March; February counts as in a leap year. -/
def marchLength (k : ℕ) : ℕ := monthLength 0 ((k + 2) % 12 + 1)

/-- The days of a year from March before its `k`-th month. -/
def marchStart (k : ℕ) : ℕ := ∑ j ∈ range k, marchLength j

@[simp] theorem marchStart_zero : marchStart 0 = 0 := rfl

theorem marchStart_succ (k : ℕ) : marchStart (k + 1) = marchStart k + marchLength k :=
  sum_range_succ _ _

theorem marchStart_twelve : marchStart 12 = 366 := by decide

/-- The calendar month of the `k`-th month from March. -/
def marchMonth (k : ℕ) : ℕ := if k ≤ 9 then k + 3 else k - 9

/-- The calendar year of the `k`-th month of the year `Y` from March. -/
def marchYear (Y : ℤ) (k : ℕ) : ℤ := if k ≤ 9 then Y else Y + 1

theorem monthLength_march (Y : ℤ) {k : ℕ} (hk : k < 11) :
    monthLength (marchYear Y k) (marchMonth k) = marchLength k := by
  interval_cases k <;> rfl

theorem monthLength_february (Y : ℤ) :
    monthLength (marchYear Y 11) (marchMonth 11) = if IsLeap (Y + 1) then 29 else 28 := rfl

/-- **The day number by years from March.**  A year from March starts 306 days before the next
1 January. -/
theorem dayNumber_march (e Y : ℤ) {k : ℕ} (hk : k < 12) (d : ℕ) :
    dayNumber e (marchYear Y k) (marchMonth k) d =
      yearStart e (Y + 1) - 306 + marchStart k + (d - 1) := by
  have hstart : k ≤ 9 →
      monthStart Y (k + 3) = marchStart k + 59 + if IsLeap Y then 1 else 0 := by
    intro h9
    have hfeb : monthStart Y 3 = 59 + if IsLeap Y then 1 else 0 := by
      rw [monthStart_succ Y (by omega), monthStart_succ Y (by omega), monthStart_one]
      by_cases h : IsLeap Y <;> simp [monthLength, h]
    induction k with
    | zero => rw [hfeb, marchStart_zero]
    | succ k ih =>
      have hlen : monthLength Y (k + 3) = marchLength k := by
        have h := monthLength_march Y (k := k) (by omega)
        rwa [marchYear, marchMonth, if_pos (by omega), if_pos (by omega)] at h
      rw [Nat.add_right_comm, monthStart_succ Y (by omega), ih (by omega) (by omega), hlen,
        marchStart_succ]
      omega
  by_cases h9 : k ≤ 9
  · have hY := yearStart_succ e Y
    rw [yearLength_eq] at hY
    rw [dayNumber, marchYear, marchMonth, if_pos h9, if_pos h9, hstart h9, hY]
    push_cast
    ring
  · rw [dayNumber, marchYear, marchMonth, if_neg h9, if_neg h9]
    obtain rfl | rfl : k = 10 ∨ k = 11 := by omega
    · rw [show marchStart 10 = 306 by decide, monthStart_one]
      push_cast
      ring
    · rw [show marchStart 11 = 337 by decide, monthStart_succ _ le_rfl, monthStart_one]
      simp only [monthLength]
      norm_num
      ring

/-- The day is one of its month: in the last month from March the length of the year says so. -/
theorem march_day_le (Y : ℤ) {k r : ℕ} (hk : k < 12) (hr : r < marchLength k)
    (hY : marchStart k + r < yearLength (Y + 1)) :
    r + 1 ≤ monthLength (marchYear Y k) (marchMonth k) := by
  by_cases h11 : k < 11
  · rw [monthLength_march Y h11]
    exact hr
  · obtain rfl : k = 11 := by omega
    rw [show marchStart 11 = 337 by decide, yearLength] at hY
    rw [monthLength_february]
    split_ifs at hY ⊢ <;> omega

/-- The day `r` days into the `k`-th month of the year `Y` from March. -/
def Civil.ofMarch (Y : ℤ) (k r : ℕ) (hk : k < 12) (hr : r < marchLength k)
    (hY : marchStart k + r < yearLength (Y + 1)) : Civil where
  year := marchYear Y k
  month := marchMonth k
  day := r + 1
  month_pos := by rw [marchMonth]; split <;> omega
  month_le := by rw [marchMonth]; split <;> omega
  day_pos := by omega
  day_le := march_day_le Y hk hr hY

theorem Civil.dayNumber_ofMarch (e : ℤ) {Y : ℤ} {k r : ℕ} (hk : k < 12) (hr : r < marchLength k)
    (hY : marchStart k + r < yearLength (Y + 1)) :
    (Civil.ofMarch Y k r hk hr hY).dayNumber e =
      yearStart e (Y + 1) - 306 + (marchStart k + r) := by
  rw [Civil.dayNumber, Civil.ofMarch, dayNumber_march e Y hk]
  push_cast
  ring

end Gregorian
