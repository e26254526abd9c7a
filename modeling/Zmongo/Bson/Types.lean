import Zmongo.C.Bits

/-!
# Powers of two

The two inline functions of `bson-types.h`, which sizes of buffers are rounded up with.  The next
power of two is right up to `2 ^ 63`; it is up to the caller not to ask for more, and then it is
zero, as it is of zero (`nextPowerOfTwo_eq`).
-/

set_option autoImplicit false

open C

namespace Bson

/-- `bson_next_power_of_two`, with words of 64 bits. -/
def nextPowerOfTwo (v : UInt64) : UInt64 :=
  let v := v - 1
  let v := v ||| v >>> 1
  let v := v ||| v >>> 2
  let v := v ||| v >>> 4
  let v := v ||| v >>> 8
  let v := v ||| v >>> 16
  let v := v ||| v >>> 32
  v + 1

/-- `bson_is_power_of_two` -/
def isPowerOfTwo (v : UInt32) : Bool := v ≠ 0 ∧ v &&& (v - 1) = 0

theorem toNat_nextPowerOfTwo (v : UInt64) :
    (nextPowerOfTwo v).toNat = (smear (v - 1).toNat 6 + 1) % 2 ^ 64 := by
  simp [nextPowerOfTwo, smear]

theorem nextPowerOfTwo_zero : nextPowerOfTwo 0 = 0 := by decide

theorem toNat_nextPowerOfTwo_of_pos {v : UInt64} (hv : 0 < v.toNat) :
    (nextPowerOfTwo v).toNat = 2 ^ Nat.clog 2 v.toNat % 2 ^ 64 := by
  have hlt := v.toNat_lt
  have hsub : (v - 1).toNat = v.toNat - 1 :=
    UInt64.toNat_sub_of_le v 1 (by rw [UInt64.le_iff_toNat_le]; exact hv)
  have hpos : 0 < 2 ^ Nat.clog 2 v.toNat := Nat.two_pow_pos _
  rw [toNat_nextPowerOfTwo, hsub, smear_eq hv (by omega), Nat.sub_add_cancel hpos]

/-- The value of the next power of two, of any argument. -/
theorem nextPowerOfTwo_eq (v : UInt64) :
    (nextPowerOfTwo v).toNat =
      if 1 ≤ v.toNat ∧ v.toNat ≤ 2 ^ 63 then 2 ^ Nat.clog 2 v.toNat else 0 := by
  have hlt := v.toNat_lt
  rcases Nat.eq_zero_or_pos v.toNat with h0 | hpos
  · obtain rfl : v = 0 := UInt64.toNat_inj.mp h0
    rw [nextPowerOfTwo_zero]
    rfl
  · rw [toNat_nextPowerOfTwo_of_pos hpos]
    split_ifs with h
    · have hle : Nat.clog 2 v.toNat ≤ 63 := (Nat.clog_le_iff_le_pow (by decide)).mpr h.2
      exact Nat.mod_eq_of_lt (Nat.pow_lt_pow_right (by decide) (by omega))
    · have hge : 63 < Nat.clog 2 v.toNat := (Nat.lt_clog_iff_pow_lt (by decide)).mpr (by omega)
      exact Nat.mod_eq_zero_of_dvd (Nat.pow_dvd_pow 2 hge)

theorem isPowerOfTwo_iff (v : UInt32) : isPowerOfTwo v ↔ v.toNat.isPowerOfTwo := by
  rw [isPowerOfTwo, decide_eq_true_iff, ← Nat.ne_zero_and_sub_one_eq_zero_iff_isPowerOfTwo, ne_eq,
    ne_eq, ← UInt32.toNat_inj, ← UInt32.toNat_inj, UInt32.toNat_and, UInt32.toNat_zero]
  refine and_congr_right fun hv ↦ ?_
  have hone : 1 ≤ v := by
    rw [UInt32.le_iff_toNat_le]
    exact Nat.one_le_iff_ne_zero.mpr hv
  rw [UInt32.toNat_sub_of_le v 1 hone]
  rfl

/-- **The next power of two** is the least one that is not below the argument, if there is one in
the type, and zero if not.  It is the argument itself exactly if that is a power of two, or zero. -/
theorem nextPowerOfTwo_spec :
    (∀ v : UInt64, 1 ≤ v.toNat → v.toNat ≤ 2 ^ 63 → (nextPowerOfTwo v).toNat.isPowerOfTwo ∧
      v ≤ nextPowerOfTwo v ∧ ∀ w, v.toNat ≤ w → w.isPowerOfTwo → (nextPowerOfTwo v).toNat ≤ w) ∧
    (∀ v : UInt64, v.toNat < 1 ∨ 2 ^ 63 < v.toNat → nextPowerOfTwo v = 0) ∧
    ∀ v : UInt32, nextPowerOfTwo v.toUInt64 = v.toUInt64 ↔ v = 0 ∨ isPowerOfTwo v := by
  refine ⟨?_, ?_, ?_⟩
  · intro v h1 h63
    rw [UInt64.le_iff_toNat_le, nextPowerOfTwo_eq, if_pos ⟨h1, h63⟩]
    refine ⟨⟨_, rfl⟩, Nat.le_pow_clog (by decide) _, ?_⟩
    rintro w hw ⟨k, rfl⟩
    exact Nat.pow_le_pow_right (by decide) ((Nat.clog_le_iff_le_pow (by decide)).mpr hw)
  · intro v hv
    rw [← UInt64.toNat_inj, nextPowerOfTwo_eq, if_neg (by omega)]
    rfl
  · intro v
    have hlt := v.toNat_lt
    rw [isPowerOfTwo_iff, ← UInt64.toNat_inj, nextPowerOfTwo_eq, UInt32.toNat_toUInt64,
      ← UInt32.toNat_inj, UInt32.toNat_zero]
    rcases Nat.eq_zero_or_pos v.toNat with h0 | hpos
    · simp [h0]
    · rw [if_pos (by omega)]
      refine ⟨?_, ?_⟩
      · intro h
        exact .inr ⟨_, h.symm⟩
      · rintro (h | ⟨k, hk⟩)
        · omega
        · rw [hk, Nat.clog_pow 2 k (by decide)]

/-- Around the greatest power of two of the type. -/
theorem nextPowerOfTwo_spec_max :
    ((nextPowerOfTwo 5).toNat.isPowerOfTwo ∧ 5 ≤ nextPowerOfTwo 5 ∧ (nextPowerOfTwo 5).toNat ≤ 8) ∧
    nextPowerOfTwo 0x8000000000000001 = 0 :=
  have h5 := nextPowerOfTwo_spec.1 5 (by decide) (by decide)
  ⟨⟨h5.1, h5.2.1, h5.2.2 8 (by decide) ⟨3, rfl⟩⟩,
    nextPowerOfTwo_spec.2.1 _ (by decide)⟩

end Bson
