import Zmongo.Zig.Outcome
import Mathlib.Data.Int.Notation
import Mathlib.Tactic.Linarith

/-!
# Integers of a fixed width

An arithmetic expression is computed at the width its operands agree on, and a safety check stops
the run when the exact result does not fit.  The model keeps the value as an `ℤ`, and the width is
the operation's: `i16.add a b` is the sum of `a` and `b` computed as `i16`.  Whether an expression
overflows is then a question about exact integers, one `Holds` for each operation.

Fields and arguments of a fixed width are the `IntN` and `UIntN` of core, so that a value outside
the width cannot be built; `IntType.cast` is the only way from an exact integer back to one of them.
-/

set_option autoImplicit false

namespace Zig

/-- An integer type: its signedness and its number of bits. -/
inductive IntType where
  | signed (bits : ℕ)
  | unsigned (bits : ℕ)
  deriving DecidableEq, Repr

namespace IntType

abbrev i16 : IntType := signed 16
abbrev i32 : IntType := signed 32
abbrev i64 : IntType := signed 64
abbrev u8 : IntType := unsigned 8
abbrev u16 : IntType := unsigned 16
abbrev u32 : IntType := unsigned 32
abbrev usize : IntType := unsigned 64

/-- The value `x` fits the type. -/
def Holds : IntType → ℤ → Prop
  | signed n, x => -2 ^ (n - 1) ≤ x ∧ x < 2 ^ (n - 1)
  | unsigned n, x => 0 ≤ x ∧ x < 2 ^ n

instance : ∀ (t : IntType) (x : ℤ), Decidable (t.Holds x)
  | signed n, x => inferInstanceAs (Decidable (-2 ^ (n - 1) ≤ x ∧ x < 2 ^ (n - 1)))
  | unsigned n, x => inferInstanceAs (Decidable (0 ≤ x ∧ x < 2 ^ n))

@[simp] theorem holds_signed (n : ℕ) (x : ℤ) :
    (signed n).Holds x ↔ -2 ^ (n - 1) ≤ x ∧ x < 2 ^ (n - 1) := Iff.rfl

@[simp] theorem holds_unsigned (n : ℕ) (x : ℤ) :
    (unsigned n).Holds x ↔ 0 ≤ x ∧ x < 2 ^ n := Iff.rfl

theorem holds_i16 {x : ℤ} : i16.Holds x ↔ -32768 ≤ x ∧ x ≤ 32767 := by
  rw [holds_signed]; omega

theorem holds_i32 {x : ℤ} : i32.Holds x ↔ -2147483648 ≤ x ∧ x ≤ 2147483647 := by
  rw [holds_signed]; omega

theorem holds_i64 {x : ℤ} :
    i64.Holds x ↔ -9223372036854775808 ≤ x ∧ x ≤ 9223372036854775807 := by
  rw [holds_signed]; omega

theorem holds_u8 {x : ℤ} : u8.Holds x ↔ 0 ≤ x ∧ x ≤ 255 := by
  rw [holds_unsigned]; omega

theorem holds_u16 {x : ℤ} : u16.Holds x ↔ 0 ≤ x ∧ x ≤ 65535 := by
  rw [holds_unsigned]; omega

theorem holds_u32 {x : ℤ} : u32.Holds x ↔ 0 ≤ x ∧ x ≤ 4294967295 := by
  rw [holds_unsigned]; omega

theorem holds_usize {x : ℤ} : usize.Holds x ↔ 0 ≤ x ∧ x ≤ 18446744073709551615 := by
  rw [holds_unsigned]; omega

variable {ε α : Type}

/-- The exact result `x` of an operation computed at type `t`. -/
def checked (t : IntType) (x : ℤ) : Outcome ε ℤ :=
  if t.Holds x then .ok x else .trap .integerOverflow

/-- `a + b` at type `t`. -/
def add (t : IntType) (a b : ℤ) : Outcome ε ℤ := t.checked (a + b)

/-- `a - b` at type `t`. -/
def sub (t : IntType) (a b : ℤ) : Outcome ε ℤ := t.checked (a - b)

/-- `a * b` at type `t`. -/
def mul (t : IntType) (a b : ℤ) : Outcome ε ℤ := t.checked (a * b)

/-- `@intCast`: the value `x` as a value of the type `α`, which holds the integers `t` holds. -/
def cast (t : IntType) (mk : ℤ → α) (x : ℤ) : Outcome ε α :=
  if t.Holds x then .ok (mk x) else .trap .castTruncated

theorem checked_ok {t : IntType} {x : ℤ} (h : t.Holds x) : (t.checked x : Outcome ε ℤ) = .ok x :=
  if_pos h

theorem checked_trap {t : IntType} {x : ℤ} (h : ¬t.Holds x) :
    (t.checked x : Outcome ε ℤ) = .trap .integerOverflow :=
  if_neg h

theorem add_ok {t : IntType} {a b : ℤ} (h : t.Holds (a + b)) :
    (t.add a b : Outcome ε ℤ) = .ok (a + b) :=
  checked_ok h

theorem sub_ok {t : IntType} {a b : ℤ} (h : t.Holds (a - b)) :
    (t.sub a b : Outcome ε ℤ) = .ok (a - b) :=
  checked_ok h

theorem mul_ok {t : IntType} {a b : ℤ} (h : t.Holds (a * b)) :
    (t.mul a b : Outcome ε ℤ) = .ok (a * b) :=
  checked_ok h

theorem cast_ok {t : IntType} {mk : ℤ → α} {x : ℤ} (h : t.Holds x) :
    (t.cast mk x : Outcome ε α) = .ok (mk x) :=
  if_pos h

end IntType

/-- `@divTrunc`: the quotient, rounded towards zero. -/
def divTrunc (a b : ℤ) : ℤ := a.tdiv b

/-- `@rem`: the remainder of `divTrunc`, of the sign of `a`. -/
def rem (a b : ℤ) : ℤ := a.tmod b

/-- `@mod` by a positive `b`: the remainder of the quotient rounded down. -/
def mod (a b : ℤ) : ℤ := a % b

/-! ## Casts to a fixed width -/

theorem toInt_ofInt_i16 {x : ℤ} (h : IntType.i16.Holds x) : (Int16.ofInt x).toInt = x :=
  Int16.toInt_ofInt_of_le h.1 h.2

theorem toInt_ofInt_i64 {x : ℤ} (h : IntType.i64.Holds x) : (Int64.ofInt x).toInt = x :=
  Int64.toInt_ofInt_of_le h.1 h.2

theorem toNat_ofInt_u8 {x : ℤ} (h : IntType.u8.Holds x) : ((UInt8.ofInt x).toNat : ℤ) = x := by
  rw [IntType.holds_u8] at h
  rw [UInt8.ofInt, UInt8.toNat_ofNat']
  omega

theorem toNat_ofInt_u32 {x : ℤ} (h : IntType.u32.Holds x) : ((UInt32.ofInt x).toNat : ℤ) = x := by
  rw [IntType.holds_u32] at h
  rw [UInt32.ofInt, UInt32.toNat_ofNat']
  omega

theorem ofInt_natCast_u8 (n : ℕ) : UInt8.ofInt n = UInt8.ofNat n := by
  rw [← UInt8.toNat_inj, UInt8.ofInt, UInt8.toNat_ofNat', UInt8.toNat_ofNat']
  omega

theorem ofInt_natCast_u32 (n : ℕ) : UInt32.ofInt n = UInt32.ofNat n := by
  rw [← UInt32.toNat_inj, UInt32.ofInt, UInt32.toNat_ofNat', UInt32.toNat_ofNat']
  omega

/-! ## Truncating division

`omega` knows the rounded-down quotient only, so a proof about `divTrunc` and `rem` splits on the
sign of the dividend first. -/

theorem divTrunc_of_nonneg {a : ℤ} (b : ℤ) (h : 0 ≤ a) : divTrunc a b = a / b :=
  Int.tdiv_eq_ediv_of_nonneg h

theorem divTrunc_of_nonpos {a : ℤ} (b : ℤ) (h : a ≤ 0) : divTrunc a b = -(-a / b) := by
  rw [← Int.tdiv_eq_ediv_of_nonneg (by omega : 0 ≤ -a), Int.neg_tdiv, neg_neg, divTrunc]

theorem rem_of_nonneg {a : ℤ} (b : ℤ) (h : 0 ≤ a) : rem a b = a % b :=
  Int.tmod_eq_emod_of_nonneg h

theorem rem_of_nonpos {a : ℤ} (b : ℤ) (h : a ≤ 0) : rem a b = -(-a % b) := by
  rw [← Int.tmod_eq_emod_of_nonneg (by omega : 0 ≤ -a), Int.neg_tmod, neg_neg, rem]

theorem rem_eq_zero_iff {a b : ℤ} : rem a b = 0 ↔ a % b = 0 := by
  rw [rem, ← Int.dvd_iff_tmod_eq_zero, Int.dvd_iff_emod_eq_zero]

/-- `divTrunc` rounds down, or up when the dividend is negative and does not divide. -/
theorem divTrunc_eq {a b : ℤ} (hb : 0 < b) :
    divTrunc a b = a / b + if a < 0 ∧ a % b ≠ 0 then 1 else 0 := by
  rw [divTrunc, Int.tdiv_eq_ediv, Int.sign_eq_one_of_pos hb]
  simp only [Int.dvd_iff_emod_eq_zero, ← not_lt, ne_eq, ite_or]
  by_cases h : a < 0 <;> by_cases hm : a % b = 0 <;> simp [h, hm]

/-- Dividing brings the value closer to zero. -/
theorem divTrunc_bounds {a n B : ℤ} (hn : 0 < n) (hl : -B ≤ a) (hu : a ≤ B) :
    -B ≤ divTrunc a n ∧ divTrunc a n ≤ B := by
  rcases le_total 0 a with h | h
  · rw [divTrunc_of_nonneg n h]
    have hle := Int.ediv_le_self n h
    have hnn := Int.ediv_nonneg h hn.le
    omega
  · have h' : 0 ≤ -a := by omega
    rw [divTrunc_of_nonpos n h]
    have hle := Int.ediv_le_self n h'
    have hnn := Int.ediv_nonneg h' hn.le
    omega

/-- What is left of a value after the way to `divTrunc` and back: it loses less than `b`. -/
theorem divTrunc_mul_near {a b : ℤ} (hb : 0 < b) : |divTrunc a b * b - a| < b := by
  have hlt : |a.tmod b| < b := by
    rw [Int.abs_eq_natAbs, Int.natAbs_tmod]
    have := Nat.mod_lt a.natAbs (Int.natAbs_pos.mpr hb.ne')
    omega
  have hsum : a.tdiv b * b + a.tmod b = a := Int.tdiv_mul_add_tmod a b
  have hmod : divTrunc a b * b - a = -a.tmod b := by
    rw [divTrunc]
    omega
  rwa [hmod, abs_neg]

theorem divTrunc_mul_cancel {a b : ℤ} (h : b ∣ a) : divTrunc a b * b = a :=
  Int.tdiv_mul_cancel h

theorem divTrunc_mono {a a' b : ℤ} (hb : 0 < b) (h : a ≤ a') : divTrunc a b ≤ divTrunc a' b :=
  Int.tdiv_le_tdiv hb h

end Zig
