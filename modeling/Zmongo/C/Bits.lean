import Mathlib.Data.Nat.Log
import Mathlib.Algebra.Ring.Nat

/-!
# Filling a number with ones

`smear j x` shifts a number to the right by one place, two places, four places and so on, and keeps
what there was.  After `j` rounds every one has spread over `2 ^ j` places (`testBit_smear`), so all
places below the first one are filled (`smear_eq`).  The number above that is the next power of two.
-/

set_option autoImplicit false

namespace C

/-- Shift by `1`, `2`, ..., `2 ^ (j - 1)` places, and keep what there was. -/
def smear (x : ℕ) : ℕ → ℕ
  | 0 => x
  | j + 1 => smear x j ||| smear x j >>> 2 ^ j

variable {x j i : ℕ}

/-- A one comes from a place not too far above. -/
theorem testBit_smear : (smear x j).testBit i ↔ ∃ d < 2 ^ j, x.testBit (i + d) := by
  induction j generalizing i with
  | zero => simp [smear]
  | succ j ih =>
    rw [smear, Nat.testBit_or, Nat.testBit_shiftRight, Bool.or_eq_true, ih, ih, Nat.pow_succ]
    refine ⟨?_, ?_⟩
    · rintro (⟨d, hd, h⟩ | ⟨d, hd, h⟩)
      · exact ⟨d, by omega, h⟩
      · refine ⟨2 ^ j + d, by omega, ?_⟩
        rwa [← Nat.add_assoc, Nat.add_comm i]
    · rintro ⟨d, hd, h⟩
      by_cases hlt : d < 2 ^ j
      · exact .inl ⟨d, hlt, h⟩
      · refine .inr ⟨d - 2 ^ j, by omega, ?_⟩
        rwa [show 2 ^ j + i + (d - 2 ^ j) = i + d by omega]

theorem testBit_smear_of_lt (hx : x < 2 ^ 2 ^ j) : (smear x j).testBit i ↔ 2 ^ i ≤ x := by
  rw [testBit_smear]
  refine ⟨?_, ?_⟩
  · rintro ⟨d, -, h⟩
    exact (Nat.pow_le_pow_right (by decide) (Nat.le_add_right i d)).trans
      (Nat.ge_two_pow_of_testBit h)
  · intro h
    obtain ⟨k, hk, hbit⟩ := Nat.exists_ge_and_testBit_of_ge_two_pow h
    have hlt : k < 2 ^ j :=
      (Nat.pow_lt_pow_iff_right (by decide)).mp ((Nat.ge_two_pow_of_testBit hbit).trans_lt hx)
    exact ⟨k - i, by omega, by rwa [show i + (k - i) = k by omega]⟩

/-- **All places below the first one are filled.** -/
theorem smear_eq {n : ℕ} (hn : 0 < n) (hx : n - 1 < 2 ^ 2 ^ j) :
    smear (n - 1) j = 2 ^ Nat.clog 2 n - 1 := by
  refine Nat.eq_of_testBit_eq fun i ↦ ?_
  rw [Bool.eq_iff_iff, testBit_smear_of_lt hx, Nat.testBit_two_pow_sub_one, decide_eq_true_iff,
    Nat.lt_clog_iff_pow_lt (by decide)]
  omega

end C
