import Mathlib.Data.Int.Order.Basic
import Mathlib.Algebra.Ring.Int.Defs

/-!
# Comparisons of signed and unsigned integers

The functions of `bson-cmp.h`, which compare integers of different signedness by their values: C
itself would convert the signed one.  A macro of the header defines a comparison for the four
combinations of signedness at once, here a `CmpSet`.

Every comparison is that of the integers (`cmp_computes`), and so the range checks built on them are
right for every type (`inRange_decides`).
-/

set_option autoImplicit false

namespace Bson

/-! ## Comparisons -/

/-- The functions that `BSON_CMP_SET` defines of one comparison.  The letters are the signedness of
the arguments. -/
structure CmpSet where
  ss : Int64 → Int64 → Bool
  uu : UInt64 → UInt64 → Bool
  su : Int64 → UInt64 → Bool
  us : UInt64 → Int64 → Bool

/-- `bson_cmp_equal` -/
def cmpEqual : CmpSet where
  ss t u := t = u
  uu t u := t = u
  su t u := if t < 0 then false else t.toUInt64 = u
  us t u := if u < 0 then false else t = u.toUInt64

/-- `bson_cmp_not_equal` -/
def cmpNotEqual : CmpSet where
  ss t u := !cmpEqual.ss t u
  uu t u := !cmpEqual.uu t u
  su t u := !cmpEqual.su t u
  us t u := !cmpEqual.us t u

/-- `bson_cmp_less` -/
def cmpLess : CmpSet where
  ss t u := t < u
  uu t u := t < u
  su t u := if t < 0 then true else t.toUInt64 < u
  us t u := if u < 0 then false else t < u.toUInt64

/-- `bson_cmp_greater` -/
def cmpGreater : CmpSet where
  ss t u := cmpLess.ss u t
  uu t u := cmpLess.uu u t
  su t u := cmpLess.us u t
  us t u := cmpLess.su u t

/-- `bson_cmp_less_equal` -/
def cmpLessEqual : CmpSet where
  ss t u := !cmpGreater.ss t u
  uu t u := !cmpGreater.uu t u
  su t u := !cmpGreater.su t u
  us t u := !cmpGreater.us t u

/-- `bson_cmp_greater_equal` -/
def cmpGreaterEqual : CmpSet where
  ss t u := !cmpLess.ss t u
  uu t u := !cmpLess.uu t u
  su t u := !cmpLess.su t u
  us t u := !cmpLess.us t u

/-- The four functions compare the values. -/
structure CmpSet.Computes (c : CmpSet) (r : ℤ → ℤ → Prop) : Prop where
  ss : ∀ t u, c.ss t u ↔ r t.toInt u.toInt
  uu : ∀ t u, c.uu t u ↔ r t.toNat u.toNat
  su : ∀ t u, c.su t u ↔ r t.toInt u.toNat
  us : ∀ t u, c.us t u ↔ r t.toNat u.toInt

theorem toInt_neg_iff {t : Int64} : t < 0 ↔ t.toInt < 0 := by
  rw [Int64.lt_iff_toInt_lt, Int64.toInt_zero]

/-- The conversion to the unsigned type keeps what is not negative. -/
theorem toNat_toUInt64 {t : Int64} (h : ¬t < 0) : (t.toUInt64.toNat : ℤ) = t.toInt := by
  have hint : t.toInt = if 2 * t.toUInt64.toNat < 2 ^ 64 then (t.toUInt64.toNat : ℤ)
      else t.toUInt64.toNat - 2 ^ 64 := BitVec.toInt_eq_toNat_cond t.toBitVec
  have hlt := t.toUInt64.toNat_lt
  rw [toInt_neg_iff] at h
  split_ifs at hint <;> omega

theorem cmpEqual_computes : cmpEqual.Computes (· = ·) := by
  refine ⟨fun t u ↦ ?_, fun t u ↦ ?_, fun t u ↦ ?_, fun t u ↦ ?_⟩
  · rw [cmpEqual, decide_eq_true_iff, Int64.toInt_inj]
  · rw [cmpEqual, decide_eq_true_iff, Int.natCast_inj, UInt64.toNat_inj]
  · by_cases h : t < 0
    · have hneg := toInt_neg_iff.mp h
      simp only [cmpEqual, h, if_true, false_iff, Bool.false_eq_true]
      omega
    · simp only [cmpEqual, h, if_false, decide_eq_true_iff]
      rw [← UInt64.toNat_inj, ← toNat_toUInt64 h, Int.natCast_inj]
  · by_cases h : u < 0
    · have hneg := toInt_neg_iff.mp h
      simp only [cmpEqual, h, if_true, false_iff, Bool.false_eq_true]
      omega
    · simp only [cmpEqual, h, if_false, decide_eq_true_iff]
      rw [← UInt64.toNat_inj, ← toNat_toUInt64 h, Int.natCast_inj]

theorem cmpLess_computes : cmpLess.Computes (· < ·) := by
  refine ⟨fun t u ↦ ?_, fun t u ↦ ?_, fun t u ↦ ?_, fun t u ↦ ?_⟩
  · rw [cmpLess, decide_eq_true_iff, Int64.lt_iff_toInt_lt]
  · rw [cmpLess, decide_eq_true_iff, Int.ofNat_lt, UInt64.lt_iff_toNat_lt]
  · by_cases h : t < 0
    · have hneg := toInt_neg_iff.mp h
      simp only [cmpLess, h, if_true, true_iff]
      omega
    · simp only [cmpLess, h, if_false, decide_eq_true_iff]
      rw [UInt64.lt_iff_toNat_lt, ← toNat_toUInt64 h, Int.ofNat_lt]
  · by_cases h : u < 0
    · have hneg := toInt_neg_iff.mp h
      simp only [cmpLess, h, if_true, false_iff, Bool.false_eq_true]
      omega
    · simp only [cmpLess, h, if_false, decide_eq_true_iff]
      rw [UInt64.lt_iff_toNat_lt, ← toNat_toUInt64 h, Int.ofNat_lt]

/-- The comparison that answers the opposite. -/
theorem CmpSet.Computes.not {c : CmpSet} {r s : ℤ → ℤ → Prop} (h : c.Computes r)
    (hs : ∀ x y, s x y ↔ ¬r x y) :
    (CmpSet.mk (fun t u ↦ !c.ss t u) (fun t u ↦ !c.uu t u) (fun t u ↦ !c.su t u)
      (fun t u ↦ !c.us t u)).Computes s := by
  constructor
  · intro t u
    simp [hs, ← h.ss]
  · intro t u
    simp [hs, ← h.uu]
  · intro t u
    simp [hs, ← h.su]
  · intro t u
    simp [hs, ← h.us]

/-- The comparison with the arguments exchanged. -/
theorem CmpSet.Computes.swap {c : CmpSet} {r : ℤ → ℤ → Prop} (h : c.Computes r) :
    (CmpSet.mk (fun t u ↦ c.ss u t) (fun t u ↦ c.uu u t) (fun t u ↦ c.us u t)
      (fun t u ↦ c.su u t)).Computes fun x y ↦ r y x :=
  ⟨fun t u ↦ h.ss u t, fun t u ↦ h.uu u t, fun t u ↦ h.us u t, fun t u ↦ h.su u t⟩

theorem cmpGreater_computes : cmpGreater.Computes (· > ·) := cmpLess_computes.swap

theorem cmpLessEqual_computes : cmpLessEqual.Computes (· ≤ ·) :=
  cmpGreater_computes.not fun _ _ ↦ not_lt.symm

theorem cmpGreaterEqual_computes : cmpGreaterEqual.Computes (· ≥ ·) :=
  cmpLess_computes.not fun _ _ ↦ not_lt.symm

/-- **The comparisons are those of the values**, whatever the signedness of the arguments. -/
theorem cmp_computes :
    cmpEqual.Computes (· = ·) ∧ cmpNotEqual.Computes (· ≠ ·) ∧ cmpLess.Computes (· < ·) ∧
    cmpGreater.Computes (· > ·) ∧ cmpLessEqual.Computes (· ≤ ·) ∧
    cmpGreaterEqual.Computes (· ≥ ·) :=
  ⟨cmpEqual_computes, cmpEqual_computes.not fun _ _ ↦ Iff.rfl, cmpLess_computes,
    cmpGreater_computes, cmpLessEqual_computes, cmpGreaterEqual_computes⟩

/-! ## Ranges -/

/-- The functions that `BSON_IN_RANGE_SET_SIGNED` and `BSON_IN_RANGE_SET_UNSIGNED` define of one
type. -/
structure InRangeSet where
  signed : Int64 → Bool
  unsigned : UInt64 → Bool

/-- `BSON_IN_RANGE_SET_SIGNED` -/
def inRangeSetSigned (min max : Int64) : InRangeSet where
  signed value := cmpGreaterEqual.ss value min && cmpLessEqual.ss value max
  unsigned value := cmpGreaterEqual.us value min && cmpLessEqual.us value max

/-- `BSON_IN_RANGE_SET_UNSIGNED` -/
def inRangeSetUnsigned (max : UInt64) : InRangeSet where
  signed value := cmpGreaterEqual.su value 0 && cmpLessEqual.su value max
  unsigned value := cmpLessEqual.uu value max

/-- The integer types, with the sizes of a 64-bit machine. -/
inductive CType where
  | signedChar | short | int | long | longLong
  | unsignedChar | unsignedShort | unsignedInt | unsignedLong | unsignedLongLong
  | int8T | int16T | int32T | int64T
  | uint8T | uint16T | uint32T | uint64T
  | ssizeT | sizeT
  deriving DecidableEq, Repr

/-- `bson_in_range` -/
def inRange : CType → InRangeSet
  | .signedChar => inRangeSetSigned (-128) 127
  | .short => inRangeSetSigned (-32768) 32767
  | .int => inRangeSetSigned (-2147483648) 2147483647
  | .long => inRangeSetSigned (-9223372036854775808) 9223372036854775807
  | .longLong => inRangeSetSigned (-9223372036854775808) 9223372036854775807
  | .unsignedChar => inRangeSetUnsigned 255
  | .unsignedShort => inRangeSetUnsigned 65535
  | .unsignedInt => inRangeSetUnsigned 4294967295
  | .unsignedLong => inRangeSetUnsigned 18446744073709551615
  | .unsignedLongLong => inRangeSetUnsigned 18446744073709551615
  | .int8T => inRangeSetSigned (-128) 127
  | .int16T => inRangeSetSigned (-32768) 32767
  | .int32T => inRangeSetSigned (-2147483648) 2147483647
  | .int64T => inRangeSetSigned (-9223372036854775808) 9223372036854775807
  | .uint8T => inRangeSetUnsigned 255
  | .uint16T => inRangeSetUnsigned 65535
  | .uint32T => inRangeSetUnsigned 4294967295
  | .uint64T => inRangeSetUnsigned 18446744073709551615
  | .ssizeT => inRangeSetSigned (-9223372036854775808) 9223372036854775807
  | .sizeT => inRangeSetUnsigned 18446744073709551615

/-- The number of bits of a type, and whether it has a sign. -/
def CType.layout : CType → Bool × ℕ
  | .signedChar | .int8T => (true, 8)
  | .short | .int16T => (true, 16)
  | .int | .int32T => (true, 32)
  | .long | .longLong | .int64T | .ssizeT => (true, 64)
  | .unsignedChar | .uint8T => (false, 8)
  | .unsignedShort | .uint16T => (false, 16)
  | .unsignedInt | .uint32T => (false, 32)
  | .unsignedLong | .unsignedLongLong | .uint64T | .sizeT => (false, 64)

/-- The number is a value of a type of this layout. -/
def Represents : Bool × ℕ → ℤ → Prop
  | (true, n), x => -2 ^ (n - 1) ≤ x ∧ x < 2 ^ (n - 1)
  | (false, n), x => 0 ≤ x ∧ x < 2 ^ n

/-- The two functions decide whether a value is one of the type. -/
structure InRangeSet.Decides (s : InRangeSet) (r : ℤ → Prop) : Prop where
  signed : ∀ value, s.signed value ↔ r value.toInt
  unsigned : ∀ value, s.unsigned value ↔ r value.toNat

theorem inRangeSetSigned_decides {min max : Int64} {n : ℕ} (hmin : min.toInt = -2 ^ (n - 1))
    (hmax : max.toInt = 2 ^ (n - 1) - 1) :
    (inRangeSetSigned min max).Decides (Represents (true, n)) := by
  refine ⟨fun value ↦ ?_, fun value ↦ ?_⟩
  · rw [inRangeSetSigned, Bool.and_eq_true, cmpGreaterEqual_computes.ss,
      cmpLessEqual_computes.ss, hmin, hmax, Int.le_sub_one_iff]
    rfl
  · rw [inRangeSetSigned, Bool.and_eq_true, cmpGreaterEqual_computes.us,
      cmpLessEqual_computes.us, hmin, hmax, Int.le_sub_one_iff]
    rfl

theorem inRangeSetUnsigned_decides {max : UInt64} {n : ℕ} (hmax : (max.toNat : ℤ) = 2 ^ n - 1) :
    (inRangeSetUnsigned max).Decides (Represents (false, n)) := by
  refine ⟨fun value ↦ ?_, fun value ↦ ?_⟩
  · rw [inRangeSetUnsigned, Bool.and_eq_true, cmpGreaterEqual_computes.su,
      cmpLessEqual_computes.su, hmax, Int.le_sub_one_iff]
    rfl
  · rw [inRangeSetUnsigned, cmpLessEqual_computes.uu, hmax, Int.le_sub_one_iff]
    exact (and_iff_right (Int.natCast_nonneg _)).symm

/-- **The range checks** let exactly the values of the type pass. -/
theorem inRange_decides (t : CType) : (inRange t).Decides (Represents t.layout) := by
  cases t with
  | signedChar | short | int | long | longLong | int8T | int16T | int32T | int64T | ssizeT =>
    exact inRangeSetSigned_decides (by decide) (by decide)
  | unsignedChar | unsignedShort | unsignedInt | unsignedLong | unsignedLongLong | uint8T | uint16T
  | uint32T | uint64T | sizeT => exact inRangeSetUnsigned_decides (by decide)

end Bson
