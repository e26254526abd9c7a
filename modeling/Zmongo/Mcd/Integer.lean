import Zmongo.C.Int64

/-!
# Overflow checks

The three functions of `mcd-integer.h`, which find out whether an operation on `int64_t` would
overflow without overflowing themselves.

The checks of the product and of the sum are exact, and defined on all arguments
(`mulWouldOverflow_eq`, `addWouldOverflow_eq`).  The check of the difference misses one value: the
exact difference `2 ^ 63`, which is the first one that is too large (`subWouldOverflow_eq`).
-/

set_option autoImplicit false

open Zig IntType C

namespace Mcd

/-- `_mcd_i64_mul_would_overflow` -/
def mulWouldOverflow (left right : Int64) : Option Bool :=
  let left := left.toInt
  let right := right.toInt
  if right = -1 then pure (left = int64Min)
  else if right = 0 then pure false
  else if left > 0 then
    if right > 0 then do
      let maxFac ← div int64Max right
      pure (left > maxFac)
    else do
      let minFac ← div int64Min left
      pure (right < minFac)
  else
    if right > 0 then do
      let minFac ← div int64Min right
      pure (left < minFac)
    else if left = 0 then pure false
    else do
      let maxFac ← div int64Max left
      pure (right < maxFac)

/-- `_mcd_i64_add_would_overflow` -/
def addWouldOverflow (left right : Int64) : Option Bool :=
  let left := left.toInt
  let right := right.toInt
  if right < 0 then do
    let legroom ← sub int64Min right
    pure (left < legroom)
  else if right > 0 then do
    let headroom ← sub int64Max right
    pure (left > headroom)
  else pure false

/-- `_mcd_i64_sub_would_overflow` -/
def subWouldOverflow (left right : Int64) : Option Bool :=
  if right.toInt > 0 then do addWouldOverflow left (Int64.ofInt (← neg right.toInt))
  else if right.toInt < 0 then
    if left.toInt > 0 then do addWouldOverflow (Int64.ofInt (← neg left.toInt)) right
    else pure false
  else pure false

/-! ## What the checks say -/

theorem pure_decide_eq {p q : Prop} [Decidable p] [Decidable q] (h : p ↔ ¬q) :
    (pure (decide p) : Option Bool) = some (!decide q) := by
  simp [h]

/-- The greatest value divided: the quotient is the last factor whose product fits. -/
theorem tdiv_max_lt_iff {a b : ℤ} (hb : 0 < b) : int64Max.tdiv b < a ↔ int64Max < a * b := by
  rw [Int.tdiv_eq_ediv_of_nonneg (by decide), Int.ediv_lt_iff_lt_mul hb]

/-- The least value divided. -/
theorem lt_tdiv_min_iff {a b : ℤ} (hb : 0 < b) : a < int64Min.tdiv b ↔ a * b < int64Min := by
  have hneg : int64Min.tdiv b = -((-int64Min).tdiv b) := by rw [Int.neg_tdiv, neg_neg]
  rw [hneg, Int.tdiv_eq_ediv_of_nonneg (by decide), lt_neg, Int.ediv_lt_iff_lt_mul hb, neg_mul,
    neg_lt_neg_iff]

/-- The greatest value divided by a negative one. -/
theorem lt_tdiv_max_iff {a b : ℤ} (hb : b < 0) : a < int64Max.tdiv b ↔ int64Max < a * b := by
  have hneg : int64Max.tdiv b = -(int64Max.tdiv (-b)) := by rw [Int.tdiv_neg, neg_neg]
  rw [hneg, lt_neg, tdiv_max_lt_iff (Int.neg_pos_of_neg hb), neg_mul_neg]

theorem not_holds_iff {x : ℤ} : ¬i64.Holds x ↔ x < int64Min ∨ int64Max < x := by
  rw [holds_i64, int64Min, int64Max]
  omega

/-- **The check of the product is exact**, and none of its divisions is undefined. -/
theorem mulWouldOverflow_eq (left right : Int64) :
    mulWouldOverflow left right = some (!i64.Holds (left.toInt * right.toInt)) := by
  have hl := holds_toInt left
  have hr := holds_toInt right
  rw [mulWouldOverflow]
  generalize left.toInt = x at *
  generalize right.toInt = y at *
  have hmin : i64.Holds int64Min := by decide
  have hmax : i64.Holds int64Max := by decide
  have hpos : 0 < int64Max := by decide
  have hneg : int64Min < 0 := by decide
  split_ifs with h1 h0 hx hy hy hx0
  · refine pure_decide_eq ?_
    rw [holds_i64] at hl
    rw [h1, not_holds_iff, int64Min, int64Max]
    omega
  · rw [h0, mul_zero]
    rfl
  · have hprod : 0 < x * y := mul_pos hx hy
    rw [div_some hmax h0 (by omega)]
    refine pure_decide_eq ?_
    rw [gt_iff_lt, tdiv_max_lt_iff hy, not_holds_iff]
    omega
  · have hprod : x * y < 0 := mul_neg_of_pos_of_neg hx (by omega)
    rw [div_some hmin (by omega) (by omega)]
    refine pure_decide_eq ?_
    rw [lt_tdiv_min_iff hx, not_holds_iff, mul_comm y]
    omega
  · have hprod : x * y ≤ 0 := mul_nonpos_of_nonpos_of_nonneg (by omega) hy.le
    rw [div_some hmin h0 (by omega)]
    refine pure_decide_eq ?_
    rw [lt_tdiv_min_iff hy, not_holds_iff]
    omega
  · rw [hx0, zero_mul]
    rfl
  · have hprod : 0 < x * y := mul_pos_of_neg_of_neg (by omega) (by omega)
    rw [div_some hmax hx0 (by omega)]
    refine pure_decide_eq ?_
    rw [lt_tdiv_max_iff (by omega), not_holds_iff, mul_comm y]
    omega

/-- **The check of the sum is exact**, and defined on all arguments. -/
theorem addWouldOverflow_eq (left right : Int64) :
    addWouldOverflow left right = some (!i64.Holds (left.toInt + right.toInt)) := by
  have hl := holds_toInt left
  have hr := holds_toInt right
  rw [addWouldOverflow]
  generalize left.toInt = x at *
  generalize right.toInt = y at *
  rw [holds_i64] at hl hr
  split_ifs with h h'
  · rw [sub_some (by rw [holds_i64, int64Min]; omega)]
    refine pure_decide_eq ?_
    rw [not_holds_iff, int64Min, int64Max]
    omega
  · rw [sub_some (by rw [holds_i64, int64Max]; omega)]
    refine pure_decide_eq ?_
    rw [not_holds_iff, int64Min, int64Max]
    omega
  · have hy : y = 0 := by omega
    have hx : i64.Holds x := by
      rw [holds_i64]
      omega
    simp [hy, hx]

/-- **The check of the difference misses one value**, `2 ^ 63`. -/
theorem subWouldOverflow_eq (left right : Int64) : subWouldOverflow left right =
    some (!decide (i64.Holds (left.toInt - right.toInt) ∨ left.toInt - right.toInt = 2 ^ 63)) := by
  have hl := holds_toInt left
  have hr := holds_toInt right
  rw [holds_i64] at hl hr
  rw [subWouldOverflow]
  split_ifs with h h' hx
  · have hneg : i64.Holds (-right.toInt) := by
      rw [holds_i64]
      omega
    have hsame : i64.Holds (left.toInt + -right.toInt) ↔
        i64.Holds (left.toInt - right.toInt) ∨ left.toInt - right.toInt = 2 ^ 63 := by
      rw [holds_i64, holds_i64]
      omega
    rw [neg_some hneg, Option.bind_eq_bind, Option.bind_some, addWouldOverflow_eq,
      toInt_ofInt_i64 hneg, decide_eq_decide.mpr hsame]
  · -- the negated difference is compared, and `-2 ^ 63` is a value of the type
    have hneg : i64.Holds (-left.toInt) := by
      rw [holds_i64]
      omega
    have hsame : i64.Holds (-left.toInt + right.toInt) ↔
        i64.Holds (left.toInt - right.toInt) ∨ left.toInt - right.toInt = 2 ^ 63 := by
      rw [holds_i64, holds_i64]
      omega
    rw [neg_some hneg, Option.bind_eq_bind, Option.bind_some, addWouldOverflow_eq,
      toInt_ofInt_i64 hneg, decide_eq_decide.mpr hsame]
  · refine pure_decide_eq (p := False) ?_
    rw [false_iff, not_not, holds_i64]
    omega
  · refine pure_decide_eq (p := False) ?_
    rw [false_iff, not_not, holds_i64]
    omega

/-- **What the checks say**, on all arguments: that of a product and that of a sum say whether it
overflows, and that of a difference says so but for the difference `2 ^ 63`. -/
theorem wouldOverflow_iff (left right : Int64) :
    (∃ b, mulWouldOverflow left right = some b ∧
      (b = true ↔ ¬i64.Holds (left.toInt * right.toInt))) ∧
    (∃ b, addWouldOverflow left right = some b ∧
      (b = true ↔ ¬i64.Holds (left.toInt + right.toInt))) ∧
    ∃ b, subWouldOverflow left right = some b ∧
      (b = true ↔ ¬i64.Holds (left.toInt - right.toInt) ∧ left.toInt - right.toInt ≠ 2 ^ 63) := by
  refine ⟨⟨_, mulWouldOverflow_eq left right, ?_⟩, ⟨_, addWouldOverflow_eq left right, ?_⟩,
    ⟨_, subWouldOverflow_eq left right, ?_⟩⟩
  · rw [Bool.not_eq_true', decide_eq_false_iff_not]
  · rw [Bool.not_eq_true', decide_eq_false_iff_not]
  · rw [Bool.not_eq_true', decide_eq_false_iff_not, not_or]

end Mcd
