import Zmongo.Zig.Int

/-!
# The arithmetic of `int64_t`

In C a signed operation whose exact result does not fit its type has no defined behaviour, and
neither has a division by zero.  An operation here is a value or `none`, so a function computed with
them is defined on its arguments if it is `some`.

`saturate` is the nearest value of the type.  On the way to it a result may be saturated as often as
one likes, as long as what is multiplied by is positive (`saturate_saturate_mul`).
-/

set_option autoImplicit false

open Zig IntType

namespace C

/-- `INT64_MIN` -/
def int64Min : ℤ := -9223372036854775808

/-- `INT64_MAX` -/
def int64Max : ℤ := 9223372036854775807

/-- The exact result of an operation, if it is a value of the type. -/
def int64 (x : ℤ) : Option ℤ := if i64.Holds x then some x else none

/-- `-a` -/
def neg (a : ℤ) : Option ℤ := int64 (-a)

/-- `a + b` -/
def add (a b : ℤ) : Option ℤ := int64 (a + b)

/-- `a - b` -/
def sub (a b : ℤ) : Option ℤ := int64 (a - b)

/-- `a * b` -/
def mul (a b : ℤ) : Option ℤ := int64 (a * b)

/-- `a / b`, rounded towards zero. -/
def div (a b : ℤ) : Option ℤ := if b = 0 then none else int64 (a.tdiv b)

theorem holds_toInt (a : Int64) : i64.Holds a.toInt := by
  have hl := a.le_toInt
  have hu := a.toInt_lt
  rw [holds_i64]
  omega

section

variable {x a b : ℤ}

theorem int64_some (h : i64.Holds x) : int64 x = some x := if_pos h

theorem add_some (h : i64.Holds (a + b)) : add a b = some (a + b) := int64_some h

theorem sub_some (h : i64.Holds (a - b)) : sub a b = some (a - b) := int64_some h

theorem mul_some (h : i64.Holds (a * b)) : mul a b = some (a * b) := int64_some h

theorem neg_some (h : i64.Holds (-a)) : neg a = some (-a) := int64_some h

/-- A quotient fits, but for the negative of the least value. -/
theorem holds_tdiv (ha : i64.Holds a) (hb : b ≠ 0) (h : ¬(a = int64Min ∧ b = -1)) :
    i64.Holds (a.tdiv b) := by
  have hquot := Int.natAbs_tdiv a b
  rw [int64Min] at h
  rw [holds_i64] at ha ⊢
  by_cases h1 : b.natAbs = 1
  · rcases (by omega : b = 1 ∨ b = -1) with rfl | rfl
    · rw [Int.tdiv_one]
      exact ha
    · rw [Int.tdiv_neg, Int.tdiv_one]
      omega
  · have hle : a.natAbs / b.natAbs ≤ a.natAbs / 2 := Nat.div_le_div_left (by omega) (by omega)
    change _ = a.natAbs / b.natAbs at hquot
    omega

theorem div_some (ha : i64.Holds a) (hb : b ≠ 0) (h : ¬(a = int64Min ∧ b = -1)) :
    div a b = some (a.tdiv b) := by
  rw [div, if_neg hb, int64_some (holds_tdiv ha hb h)]

end

/-! ## Saturation -/

/-- The nearest value of the type. -/
def saturate (x : ℤ) : ℤ := max int64Min (min int64Max x)

theorem holds_saturate (x : ℤ) : i64.Holds (saturate x) := by
  rw [holds_i64, saturate, int64Min, int64Max]
  omega

theorem saturate_of_holds {x : ℤ} (h : i64.Holds x) : saturate x = x := by
  rw [holds_i64] at h
  rw [saturate, int64Min, int64Max]
  omega

/-- A value that does not fit is saturated to the bound on its side. -/
theorem saturate_of_not_holds {x : ℤ} (h : ¬i64.Holds x) :
    saturate x = if x < 0 then int64Min else int64Max := by
  rw [holds_i64] at h
  rw [saturate, int64Min, int64Max]
  split_ifs <;> omega

theorem saturate_of_le {x : ℤ} (h : int64Max ≤ x) : saturate x = int64Max := by
  rw [saturate, min_eq_left h]
  rfl

theorem saturate_of_ge {x : ℤ} (h : x ≤ int64Min) : saturate x = int64Min :=
  max_eq_left ((min_le_right _ _).trans h)

/-- Before a multiplication it does not matter whether a value is saturated. -/
theorem saturate_saturate_mul {c : ℤ} (hc : 0 < c) (x : ℤ) :
    saturate (saturate x * c) = saturate (x * c) := by
  by_cases hle : int64Max ≤ x
  · have hmax : int64Max ≤ int64Max * c := by
      rw [int64Max]
      omega
    have hx : int64Max ≤ x * c := hmax.trans (mul_le_mul_of_nonneg_right hle hc.le)
    rw [saturate_of_le hle, saturate_of_le hmax, saturate_of_le hx]
  by_cases hge : x ≤ int64Min
  · have hmin : int64Min * c ≤ int64Min := by
      rw [int64Min]
      omega
    have hx : x * c ≤ int64Min := (mul_le_mul_of_nonneg_right hge hc.le).trans hmin
    rw [saturate_of_ge hge, saturate_of_ge hmin, saturate_of_ge hx]
  have hx : i64.Holds x := by
    rw [int64Max] at hle
    rw [int64Min] at hge
    rw [holds_i64]
    omega
  rw [saturate_of_holds hx]

end C
