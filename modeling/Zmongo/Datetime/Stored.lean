import Zmongo.Bson.Iter
import Zmongo.Datetime.Unix

/-!
# Instants in a document

The date of a document is the `unix` timestamp of an instant in milliseconds.  Whichever machine has
stored it, a reader gets the instant back to less than a millisecond, the `time_t` it gets is the
timestamp in seconds, and the `struct timeval` is the instant that is read back
(`DateTime.stored`).
-/

set_option autoImplicit false

open Zig IntType C Bson

namespace Datetime
namespace DateTime

/-- Rounding twice towards zero is rounding once. -/
theorem unix_milliseconds_seconds (dt : DateTime) :
    dt.unix .milliseconds / 1000 = dt.unix .seconds := by
  rw [← Int64.toInt_inj, Iter.toInt_seconds, toInt_unix, toInt_unix, TimestampPrecision.micros,
    TimestampPrecision.micros]
  rcases le_total 0 dt.micros.toInt with h | h
  · rw [divTrunc_of_nonneg _ h, divTrunc_of_nonneg _ h, divTrunc_of_nonneg _ (by omega)]
    omega
  · rw [divTrunc_of_nonpos _ h, divTrunc_of_nonpos _ h, divTrunc_of_nonpos _ (by omega)]
    omega

/-- **An instant that is stored in a document** on one machine and read on another. -/
theorem stored (writer reader : ByteOrder) {iter : Iter} {dt : DateTime} (hp : dt.InPeriod)
    (h : iter.StandsOn (word64.field writer .littleEndian (dt.unix .milliseconds).toUInt64)) :
    iter.timeTUnsafe reader = some (dt.unix .seconds) ∧
    ∃ value tv dt', iter.int64Unsafe reader = some value ∧ iter.timevalUnsafe reader = some tv ∧
      fromUnix value .milliseconds = .ok dt' ∧
      tv.tvSec.toInt * 1000000 + tv.tvUsec.toInt = dt'.micros.toInt ∧
      |dt'.micros.toInt - dt.micros.toInt| < 1000 ∧
      (dt' = dt ↔ (1000 : ℤ) ∣ dt.micros.toInt) := by
  have hvalue : iter.int64Unsafe reader = some (dt.unix .milliseconds) := Iter.int64Unsafe_eq h
  obtain ⟨dt', hdt', hmicros⟩ := fromUnix_unix hp .milliseconds
  rw [TimestampPrecision.micros] at hmicros
  refine ⟨?_, _, _, dt', hvalue, Iter.timevalUnsafe_eq hvalue, hdt', ?_, ?_, ?_⟩
  · rw [Iter.timeTUnsafe_eq hvalue, unix_milliseconds_seconds]
  · rw [Iter.seconds_micros_sum, toInt_unix, TimestampPrecision.micros, hmicros]
  · rw [hmicros]
    exact divTrunc_mul_near (by decide)
  · refine ⟨?_, ?_⟩
    · rintro rfl
      exact hmicros ▸ Int.dvd_mul_left _ _
    · intro hdvd
      rw [divTrunc_mul_cancel hdvd] at hmicros
      rw [DateTime.ext_iff, ← Int64.toInt_inj]
      exact hmicros

/-- The instant 1.5 milliseconds before 1970. -/
theorem stored_1969 :
    Iter.timeTUnsafe .bigEndian
      ⟨[0x09, 0x00, 0xFF, 0xFF, 0xFF, 0xFF, 0xFF, 0xFF, 0xFF, 0xFF, 0x00], 2, 2⟩ =
        some (unix ⟨-1500⟩ .seconds) ∧
    ∃ value tv dt', Iter.int64Unsafe .bigEndian
        ⟨[0x09, 0x00, 0xFF, 0xFF, 0xFF, 0xFF, 0xFF, 0xFF, 0xFF, 0xFF, 0x00], 2, 2⟩ =
          some value ∧
      Iter.timevalUnsafe .bigEndian
        ⟨[0x09, 0x00, 0xFF, 0xFF, 0xFF, 0xFF, 0xFF, 0xFF, 0xFF, 0xFF, 0x00], 2, 2⟩ = some tv ∧
      fromUnix value .milliseconds = .ok dt' ∧
      tv.tvSec.toInt * 1000000 + tv.tvUsec.toInt = dt'.micros.toInt ∧
      |dt'.micros.toInt - (⟨-1500⟩ : DateTime).micros.toInt| < 1000 ∧
      (dt' = ⟨-1500⟩ ↔ (1000 : ℤ) ∣ (⟨-1500⟩ : DateTime).micros.toInt) :=
  stored .littleEndian .bigEndian (by decide) ⟨[0x09, 0x00], [0x00], by decide, rfl⟩

end DateTime
end Datetime
