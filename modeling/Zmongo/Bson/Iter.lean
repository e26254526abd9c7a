import Zmongo.Zig.Int
import Zmongo.Bson.Oid

/-!
# Reading a document

The inline readers of `bson-iter.h`, which read the value an iterator stands on without any check.
A reader that leaves the document is undefined, which is `none`.

The integers of a document are read as what they are on every machine, whichever machine has stored
them.  The length of a string is stored with the NUL byte behind it as an `int32_t`, so a string is
read as it is up to `2 ^ 31 - 2` bytes, and as an empty one from there on (`utf8_eq_some_iff`).  A
date is a number of milliseconds; its seconds are rounded towards 1970, and the microseconds have
the sign of the date (`timevalUnsafe_eq_some`).
-/

set_option autoImplicit false

open Zig C

namespace Bson

/-- `bson_iter_t` -/
structure Iter where
  /-- The raw buffer being iterated. -/
  raw : List UInt8
  /-- The offset of the first data byte. -/
  d1 : ℕ
  /-- The offset of the second data byte. -/
  d2 : ℕ

/-- `struct timeval` -/
structure Timeval where
  tvSec : Int64
  tvUsec : Int64
  deriving DecidableEq, Repr

/-- `bson_decimal128_t` -/
structure Decimal128 where
  low : UInt64
  high : UInt64
  deriving DecidableEq, Repr

namespace Iter

variable (order : ByteOrder) (iter : Iter)

/-- `bson_iter_utf8_len_unsafe` -/
def utf8LenUnsafe : Option UInt32 := do
  let raw ← word32.memcpy order iter.raw iter.d1
  let native := uint32FromLe order raw
  let len := native.toInt32
  pure (if len ≤ 0 then 0 else (len - 1).toUInt32)

/-- `bson_iter_code_unsafe`: the length, and where the string is in the buffer. -/
def codeUnsafe : Option (UInt32 × ℕ) := do
  let length ← utf8LenUnsafe order iter
  pure (length, iter.d2)

/-- `bson_iter_utf8_unsafe`: the length, and where the string is in the buffer. -/
def utf8Unsafe : Option (UInt64 × ℕ) := do
  let length ← utf8LenUnsafe order iter
  pure (length.toUInt64, iter.d2)

/-- `bson_iter_int32_unsafe` -/
def int32Unsafe : Option Int32 := do
  let raw ← word32.memcpy order iter.raw iter.d1
  let native := uint32FromLe order raw
  pure native.toInt32

/-- `bson_iter_int64_unsafe` -/
def int64Unsafe : Option Int64 := do
  let raw ← word64.memcpy order iter.raw iter.d1
  let native := uint64FromLe order raw
  pure native.toInt64

/-- `bson_iter_oid_unsafe` -/
def oidUnsafe : Option Oid := do
  let l ← memcpy iter.raw iter.d1 12
  if h : l.toArray.size = 12 then pure { bytes := ⟨l.toArray, h⟩ } else none

/-- `bson_iter_decimal128_unsafe` -/
def decimal128Unsafe : Option Decimal128 := do
  let lowLe ← word64.memcpy order iter.raw iter.d1
  let highLe ← word64.memcpy order iter.raw (iter.d1 + 8)
  pure { low := uint64FromLe order lowLe, high := uint64FromLe order highLe }

/-- `bson_iter_time_t_unsafe` -/
def timeTUnsafe : Option Int64 := do
  pure ((← int64Unsafe order iter) / 1000)

/-- `bson_iter_timeval_unsafe` -/
def timevalUnsafe : Option Timeval := do
  let value ← int64Unsafe order iter
  pure { tvSec := value / 1000, tvUsec := value % 1000 * 1000 }

/-- `bson_iter_bool_unsafe` -/
def boolUnsafe : Option Bool := do
  let l ← memcpy iter.raw iter.d1 1
  pure (l.any (· ≠ 0))

/-! ## Fields -/

variable {order iter}

/-- The iterator stands on a value of these bytes. -/
def StandsOn (iter : Iter) (l : List UInt8) : Prop :=
  ∃ p s, iter.raw = p ++ (l ++ s) ∧ iter.d1 = p.length

theorem StandsOn.memcpy {l : List UInt8} (h : iter.StandsOn l) :
    memcpy iter.raw iter.d1 l.length = some l := by
  obtain ⟨p, s, hraw, hd1⟩ := h
  rw [hraw]
  exact memcpy_append hd1 rfl

theorem StandsOn.word_memcpy {α : Type} {W : Word α} {writer fixed : ByteOrder} {v : α}
    (h : iter.StandsOn (W.field writer fixed v)) (reader : ByteOrder) :
    ∃ raw, W.memcpy reader iter.raw iter.d1 = some raw ∧ W.between reader fixed raw = v := by
  obtain ⟨p, s, hraw, hd1⟩ := h
  rw [hraw]
  exact W.memcpy_field writer reader fixed v hd1

theorem StandsOn.left {l m : List UInt8} (h : iter.StandsOn (l ++ m)) : iter.StandsOn l := by
  obtain ⟨p, s, hraw, hd1⟩ := h
  exact ⟨p, m ++ s, by rw [hraw, List.append_assoc], hd1⟩

theorem StandsOn.right {l m : List UInt8} (h : iter.StandsOn (l ++ m)) :
    StandsOn { iter with d1 := iter.d1 + l.length } m := by
  obtain ⟨p, s, hraw, hd1⟩ := h
  exact ⟨p ++ l, s, by simp [hraw], by simp [hd1]⟩

variable {writer reader : ByteOrder}

theorem int32Unsafe_eq {v : Int32}
    (h : iter.StandsOn (word32.field writer .littleEndian v.toUInt32)) :
    int32Unsafe reader iter = some v := by
  obtain ⟨raw, hraw, hv⟩ := h.word_memcpy reader
  rw [int32Unsafe, hraw, Option.bind_eq_bind, Option.bind_some, uint32FromLe, hv]
  rfl

theorem int64Unsafe_eq {v : Int64}
    (h : iter.StandsOn (word64.field writer .littleEndian v.toUInt64)) :
    int64Unsafe reader iter = some v := by
  obtain ⟨raw, hraw, hv⟩ := h.word_memcpy reader
  rw [int64Unsafe, hraw, Option.bind_eq_bind, Option.bind_some, uint64FromLe, hv]
  rfl

theorem decimal128Unsafe_eq {d : Decimal128}
    (h : iter.StandsOn (word64.field writer .littleEndian d.low ++
      word64.field writer .littleEndian d.high)) :
    decimal128Unsafe reader iter = some d := by
  obtain ⟨low, hlow, hl⟩ := h.left.word_memcpy reader
  obtain ⟨high, hhigh, hh⟩ := h.right.word_memcpy reader
  rw [Word.length_field] at hhigh
  change word64.memcpy reader iter.raw (iter.d1 + 8) = some high at hhigh
  rw [decimal128Unsafe, hlow, hhigh]
  simp only [Option.bind_eq_bind, Option.bind_some, uint64FromLe, hl, hh]
  rfl

theorem oidUnsafe_eq {oid : Oid} (h : iter.StandsOn oid.bytes.toList) :
    oidUnsafe iter = some oid := by
  have hread := h.memcpy
  rw [Vector.length_toList] at hread
  rw [oidUnsafe, hread, Option.bind_eq_bind, Option.bind_some, dif_pos (by simp)]
  rfl

theorem boolUnsafe_eq {b : Bool} (h : iter.StandsOn [b.toUInt8]) : boolUnsafe iter = some b := by
  have hread := h.memcpy
  rw [List.length_singleton] at hread
  rw [boolUnsafe, hread]
  cases b <;> rfl

/-- **Every reader reads what a machine has stored**, on that machine or on any other. -/
theorem readers_eq (writer reader : ByteOrder) (iter : Iter) :
    (∀ v : Int32, iter.StandsOn (word32.field writer .littleEndian v.toUInt32) →
      int32Unsafe reader iter = some v) ∧
    (∀ v : Int64, iter.StandsOn (word64.field writer .littleEndian v.toUInt64) →
      int64Unsafe reader iter = some v) ∧
    (∀ d : Decimal128, iter.StandsOn (word64.field writer .littleEndian d.low ++
      word64.field writer .littleEndian d.high) → decimal128Unsafe reader iter = some d) ∧
    (∀ oid : Oid, iter.StandsOn oid.bytes.toList → oidUnsafe iter = some oid) ∧
    ∀ b : Bool, iter.StandsOn [b.toUInt8] → boolUnsafe iter = some b :=
  ⟨fun _ ↦ int32Unsafe_eq, fun _ ↦ int64Unsafe_eq, fun _ ↦ decimal128Unsafe_eq,
    fun _ ↦ oidUnsafe_eq, fun _ ↦ boolUnsafe_eq⟩

/-- What a machine with the most significant byte first has stored is read by one with the least
significant byte first. -/
theorem readers_eq_big_little :
    int32Unsafe .littleEndian ⟨[0x10, 0x00, 0xFE, 0xFF, 0xFF, 0xFF, 0x00], 2, 2⟩ = some (-2) ∧
    int64Unsafe .littleEndian ⟨[0x12, 0x00, 3, 0, 0, 0, 0, 0, 0, 0, 0x00], 2, 2⟩ = some 3 ∧
    decimal128Unsafe .littleEndian
      ⟨[0x13, 0x00, 1, 0, 0, 0, 0, 0, 0, 0, 2, 0, 0, 0, 0, 0, 0, 0, 0x00], 2, 2⟩ =
        some ⟨1, 2⟩ ∧
    oidUnsafe ⟨[0x07, 0x00, 1, 2, 3, 4, 5, 6, 7, 8, 9, 10, 11, 12, 0x00], 2, 2⟩ =
      some ⟨#v[1, 2, 3, 4, 5, 6, 7, 8, 9, 10, 11, 12]⟩ ∧
    boolUnsafe ⟨[0x08, 0x00, 1, 0x00], 2, 2⟩ = some true :=
  ⟨(readers_eq .bigEndian .littleEndian _).1 _ ⟨[0x10, 0x00], [0x00], by decide, rfl⟩,
    (readers_eq .bigEndian .littleEndian _).2.1 _ ⟨[0x12, 0x00], [0x00], by decide, rfl⟩,
    (readers_eq .bigEndian .littleEndian _).2.2.1 _ ⟨[0x13, 0x00], [0x00], by decide, rfl⟩,
    (readers_eq .bigEndian .littleEndian _).2.2.2.1 _ ⟨[0x07, 0x00], [0x00], rfl, rfl⟩,
    (readers_eq .bigEndian .littleEndian _).2.2.2.2 _ ⟨[0x08, 0x00], [0x00], rfl, rfl⟩⟩

/-! ## Strings -/

/-- The bytes that a caller of `bson_iter_utf8_unsafe` is shown. -/
def utf8 (order : ByteOrder) (iter : Iter) : Option (List UInt8) := do
  let (length, str) ← utf8Unsafe order iter
  memcpy iter.raw str length.toNat

/-- Code is a string like any other. -/
theorem codeUnsafe_eq (order : ByteOrder) (iter : Iter) : codeUnsafe order iter =
    (utf8Unsafe order iter).map fun (length, str) ↦ (length.toUInt32, str) := by
  rw [codeUnsafe, utf8Unsafe]
  cases h : utf8LenUnsafe order iter with
  | none => rfl
  | some length => simp

theorem toInt32_nonpos_iff (n : UInt32) : n.toInt32 ≤ 0 ↔ n.toNat = 0 ∨ 2 ^ 31 ≤ n.toNat := by
  have hn := n.toNat_lt
  have hint : n.toInt32.toInt = if 2 * n.toNat < 2 ^ 32 then (n.toNat : ℤ) else n.toNat - 2 ^ 32 :=
    BitVec.toInt_eq_toNat_cond n.toBitVec
  rw [Int32.le_iff_toInt_le, hint, Int32.toInt_zero]
  split_ifs <;> omega

theorem utf8LenUnsafe_eq {n : UInt32} (h : iter.StandsOn (word32.field writer .littleEndian n)) :
    utf8LenUnsafe reader iter =
      some (if n.toNat = 0 ∨ 2 ^ 31 ≤ n.toNat then 0 else n - 1) := by
  obtain ⟨raw, hraw, hv⟩ := h.word_memcpy reader
  rw [utf8LenUnsafe, hraw, Option.bind_eq_bind, Option.bind_some, uint32FromLe, hv]
  simp only [toInt32_nonpos_iff, Int32.toUInt32_sub, UInt32.toUInt32_toInt32]
  rfl

theorem utf8_eq (reader : ByteOrder) {text : List UInt8} (hlen : text.length + 1 < 2 ^ 32)
    (h : iter.StandsOn (word32.field writer .littleEndian (UInt32.ofNat (text.length + 1)) ++
      (text ++ [0]))) (hd2 : iter.d2 = iter.d1 + 4) :
    utf8 reader iter = some (if text.length + 1 < 2 ^ 31 then text else []) := by
  have hn : (UInt32.ofNat (text.length + 1)).toNat = text.length + 1 :=
    UInt32.toNat_ofNat_of_lt' hlen
  have htext := h.right.left
  rw [Word.length_field] at htext
  rw [utf8, utf8Unsafe, utf8LenUnsafe_eq h.left, hn]
  simp only [Option.bind_eq_bind, Option.bind_some, Option.pure_def, hd2, UInt32.toNat_toUInt64]
  by_cases hsmall : text.length + 1 < 2 ^ 31
  · have hone : (1 : UInt32) ≤ UInt32.ofNat (text.length + 1) := by
      rw [UInt32.le_iff_toNat_le, hn]
      exact Nat.le_add_left 1 _
    rw [if_neg (by omega), UInt32.toNat_sub_of_le _ _ hone, hn, if_pos hsmall]
    exact htext.memcpy
  · rw [if_pos (by omega), if_neg hsmall]
    -- the length is taken for a negative one, and nothing is read
    exact (htext.left (l := [])).memcpy

/-- **A string is read as it is** if its length, with the NUL byte, is an `int32_t`.  From there on
it is read as empty. -/
theorem utf8_eq_some_iff (writer reader : ByteOrder) {text : List UInt8}
    (hlen : text.length + 1 < 2 ^ 32)
    (h : iter.StandsOn (word32.field writer .littleEndian (UInt32.ofNat (text.length + 1)) ++
      (text ++ [0]))) (hd2 : iter.d2 = iter.d1 + 4) :
    (utf8 reader iter = some text ↔ text.length + 1 < 2 ^ 31) ∧
    (2 ^ 31 ≤ text.length + 1 → utf8 reader iter = some []) := by
  have hread := utf8_eq reader hlen h hd2
  by_cases hsmall : text.length + 1 < 2 ^ 31
  · rw [if_pos hsmall] at hread
    exact ⟨iff_of_true hread hsmall, fun hlarge ↦ absurd hsmall (not_lt.mpr hlarge)⟩
  · rw [if_neg hsmall] at hread
    refine ⟨iff_of_false (fun htext ↦ ?_) hsmall, fun _ ↦ hread⟩
    -- nothing is read, but the text is longer than that
    rw [hread, Option.some.injEq] at htext
    rw [← htext] at hsmall
    exact hsmall (by decide)

/-- A document that holds `hi`. -/
theorem utf8_eq_some_hi :
    (utf8 .bigEndian ⟨[0x02, 0x61, 0x00, 3, 0, 0, 0, 0x68, 0x69, 0x00, 0x00], 3, 7⟩ =
      some [0x68, 0x69] ↔ 2 + 1 < 2 ^ 31) ∧
    (2 ^ 31 ≤ 2 + 1 →
      utf8 .bigEndian ⟨[0x02, 0x61, 0x00, 3, 0, 0, 0, 0x68, 0x69, 0x00, 0x00], 3, 7⟩ = some []) :=
  utf8_eq_some_iff .littleEndian .bigEndian (by decide) ⟨[0x02, 0x61, 0x00], [0x00], rfl, rfl⟩ rfl

/-! ## Dates -/

theorem toInt_seconds (value : Int64) : (value / 1000).toInt = divTrunc value.toInt 1000 :=
  Int64.toInt_div_of_ne_right value 1000 (by decide)

theorem toInt_micros (value : Int64) :
    (value % 1000 * 1000).toInt = rem value.toInt 1000 * 1000 := by
  have hrem : -1000 < rem value.toInt 1000 ∧ rem value.toInt 1000 < 1000 := by
    rcases le_total 0 value.toInt with h | h
    · rw [rem_of_nonneg _ h]
      omega
    · rw [rem_of_nonpos _ h]
      omega
  have hmod : (value % 1000).toInt = rem value.toInt 1000 := Int64.toInt_mod value 1000
  have hunit : (1000 : Int64).toInt = 1000 := rfl
  rw [Int64.toInt_mul, hmod, hunit]
  exact Int.bmod_eq_of_le (by omega) (by omega)

/-- The parts make up the milliseconds again. -/
theorem seconds_micros_sum (value : Int64) :
    (value / 1000).toInt * 1000000 + (value % 1000 * 1000).toInt = value.toInt * 1000 := by
  have hsum : divTrunc value.toInt 1000 * 1000 + rem value.toInt 1000 = value.toInt :=
    Int.tdiv_mul_add_tmod _ _
  rw [toInt_seconds, toInt_micros]
  omega

theorem timeTUnsafe_eq {value : Int64} (h : int64Unsafe order iter = some value) :
    timeTUnsafe order iter = some (value / 1000) := by
  rw [timeTUnsafe, h]
  rfl

theorem timevalUnsafe_eq {value : Int64} (h : int64Unsafe order iter = some value) :
    timevalUnsafe order iter = some ⟨value / 1000, value % 1000 * 1000⟩ := by
  rw [timevalUnsafe, h]
  rfl

/-- **The parts of a date.**  The seconds and microseconds make up the milliseconds of the date, and
the microseconds are negative for a date before 1970 that is not on a second. -/
theorem timevalUnsafe_eq_some {value : Int64} (h : int64Unsafe order iter = some value) :
    ∃ tv, timevalUnsafe order iter = some tv ∧ timeTUnsafe order iter = some tv.tvSec ∧
      tv.tvSec.toInt * 1000000 + tv.tvUsec.toInt = value.toInt * 1000 ∧
      |tv.tvUsec.toInt| < 1000000 ∧
      (tv.tvUsec.toInt < 0 ↔ value.toInt < 0 ∧ ¬(1000 : ℤ) ∣ value.toInt) := by
  refine ⟨_, timevalUnsafe_eq h, timeTUnsafe_eq h, seconds_micros_sum value, ?_⟩
  rw [toInt_micros]
  rcases le_total 0 value.toInt with h0 | h0
  · rw [rem_of_nonneg _ h0, abs_lt]
    omega
  · rw [rem_of_nonpos _ h0, abs_lt]
    omega

/-- Half a second before 1970. -/
theorem timevalUnsafe_eq_some_1969 :
    ∃ tv, timevalUnsafe .littleEndian
      ⟨[0x09, 0x00, 0x0C, 0xFE, 0xFF, 0xFF, 0xFF, 0xFF, 0xFF, 0xFF, 0x00], 2, 2⟩ = some tv ∧
      timeTUnsafe .littleEndian
        ⟨[0x09, 0x00, 0x0C, 0xFE, 0xFF, 0xFF, 0xFF, 0xFF, 0xFF, 0xFF, 0x00], 2, 2⟩ =
          some tv.tvSec ∧
      tv.tvSec.toInt * 1000000 + tv.tvUsec.toInt = (-500 : Int64).toInt * 1000 ∧
      |tv.tvUsec.toInt| < 1000000 ∧
      (tv.tvUsec.toInt < 0 ↔ (-500 : Int64).toInt < 0 ∧ ¬(1000 : ℤ) ∣ (-500 : Int64).toInt) :=
  timevalUnsafe_eq_some (by decide)

end Iter
end Bson
