import Zmongo.Datetime.Accept

/-!
# Unix timestamps

A document stores an instant as its timestamp in milliseconds, so what is read back is not the
instant of the text but that of `unix` and `fromUnix` one after the other.  At every precision the
way there and back stays in the period and loses less than a unit (`fromUnix_unix`), towards 1970,
and it never exchanges two instants (`unix_mono`).

What it loses of the instant of a text is the digits of the fraction after the third, and nothing
if there are none (`parse_millis`).
-/

set_option autoImplicit false

open Zig IntType Decimal

namespace Datetime

/-! ## There and back -/

theorem TimestampPrecision.micros_pos (precision : TimestampPrecision) : 0 < precision.micros := by
  cases precision <;> decide

namespace DateTime

theorem toInt_unix (dt : DateTime) (precision : TimestampPrecision) :
    (dt.unix precision).toInt = divTrunc dt.micros.toInt precision.micros := by
  have hl := dt.micros.le_toInt
  have hu := dt.micros.toInt_lt
  cases precision with
  | seconds | milliseconds =>
    rw [TimestampPrecision.micros, unix, toInt_ofInt_i64]
    -- the quotient is between zero and the dividend
    rw [holds_i64]
    rcases le_total 0 dt.micros.toInt with h | h
    · rw [divTrunc_of_nonneg _ h]
      omega
    · rw [divTrunc_of_nonpos _ h]
      omega
  | microseconds => exact (Int.tdiv_one _).symm

theorem unix_mono {a b : DateTime} (h : a.micros ≤ b.micros) (precision : TimestampPrecision) :
    a.unix precision ≤ b.unix precision := by
  rw [Int64.le_iff_toInt_le] at h ⊢
  rw [toInt_unix, toInt_unix]
  exact divTrunc_mono precision.micros_pos h

/-- **A timestamp is read back** as an instant of the period. -/
theorem fromUnix_unix {dt : DateTime} (h : dt.InPeriod) (precision : TimestampPrecision) :
    ∃ dt', fromUnix (dt.unix precision) precision = .ok dt' ∧
      dt'.micros.toInt = divTrunc dt.micros.toInt precision.micros * precision.micros := by
  rw [InPeriod] at h
  have hb : -210863520000000000 ≤ divTrunc dt.micros.toInt precision.micros * precision.micros ∧
      divTrunc dt.micros.toInt precision.micros * precision.micros ≤ 253402300799999999 := by
    rcases le_total 0 dt.micros.toInt with h0 | h0
    · rw [divTrunc_of_nonneg _ h0]
      cases precision <;> rw [TimestampPrecision.micros] <;> omega
    · rw [divTrunc_of_nonpos _ h0]
      cases precision <;> rw [TimestampPrecision.micros] <;> omega
  rw [fromUnix_eq, toInt_unix, if_pos hb]
  exact ⟨_, rfl, toInt_ofMicros (by rw [holds_i64]; omega)⟩

/-! ## The fraction of a text -/

/-- The digits behind the first decimal point of a text, none if there is no point. -/
def fractionDigits (s : List UInt8) : List UInt8 :=
  run (s.dropWhile fun b ↦ b ≠ '.'.toUInt8).tail

theorem fractionDigits_append {l ds r : List UInt8} (hl : '.'.toUInt8 ∉ l) (hds : Digits ds)
    (hr : ∀ b ∈ r.head?, ¬IsDigit b) : fractionDigits (l ++ '.'.toUInt8 :: (ds ++ r)) = ds := by
  have hl' : ∀ b ∈ l, decide (b ≠ '.'.toUInt8) = true := by
    intro b hb
    rw [decide_eq_true_iff]
    rintro rfl
    exact hl hb
  rw [fractionDigits, List.dropWhile_append_of_pos hl', List.dropWhile_cons_of_neg (by simp),
    List.tail_cons, run_append hds hr]

theorem point_notMem_numeral {n : ℕ} (ds : Numeral n) : '.'.toUInt8 ∉ ds.bytes :=
  fun h ↦ absurd (ds.digits_bytes _ h) (by decide)

theorem point_notMem_dash (b : Bool) : '.'.toUInt8 ∉ dash b := by cases b <;> decide

theorem point_notMem_date {D : List UInt8} {d : Date} (h : DateText D d) : '.'.toUInt8 ∉ D := by
  cases h
  simp only [List.mem_append, point_notMem_numeral, point_notMem_dash, or_self, not_false_iff]

theorem point_notMem_seconds (hour min sec : Numeral 2) :
    '.'.toUInt8 ∉ secondsText hour min sec := by
  simp only [secondsText, minutesText, List.mem_append, List.mem_cons, point_notMem_numeral,
    or_false, false_or]
  decide

/-- Three digits of a fraction are milliseconds. -/
theorem thousand_dvd_fraction {n v : ℕ} (hn : n ≤ 3) : 1000 ∣ v * 10 ^ (9 - n) / 1000 := by
  obtain ⟨k, hk⟩ : ∃ k, 9 - n = k + 6 := ⟨3 - n, by omega⟩
  rw [hk, pow_add, show v * (10 ^ k * 10 ^ 6) = v * 10 ^ k * 1000 * 1000 by ring,
    Nat.mul_div_cancel _ (by omega)]
  exact Nat.dvd_mul_left _ _

theorem thousand_dvd_instant {d : Date} {t : Time} (h : 1000 ∣ t.micros.toNat) :
    1000 ∣ instant d t := by
  rw [instant, Time.ofDay, Time.dayMicros]
  omega

/-- An accepted text denotes an instant of the period, of whole milliseconds if the fraction has no
more than three digits. -/
theorem parse_millis {s : List UInt8} {dt : DateTime} (h : (parseRFC3339 s).outcome = .ok dt) :
    dt.InPeriod ∧ ((fractionDigits s).length ≤ 3 → 1000 ∣ dt.micros.toInt) := by
  obtain ⟨d, t, l, Z, hdate, hp, htime, hZ, hdt⟩ := parse_eq_ok_iff.mp h
  obtain ⟨hd, D, rfl, hD⟩ := Scan.date_eq_ok_iff.mp hdate
  obtain ⟨ht, htext⟩ := Scan.time_eq_ok_iff.mp htime
  have hb := (instant_bounds hd ht).mp hp
  rw [initUTC_eq hd ht hp, Outcome.ok.injEq] at hdt
  have hmicros : dt.micros.toInt = instant d t := by
    rw [← hdt, toInt_ofMicros (by rw [holds_i64]; omega)]
  rw [InPeriod, hmicros]
  refine ⟨hb, fun hlen ↦ thousand_dvd_instant ?_⟩
  obtain ⟨X, more, rfl, hX, hmore⟩ | ⟨hour, min, sec, -, -, -, rfl⟩ := htext
  · cases hX with
    | minutes hour min => exact dvd_zero _
    | seconds hour min sec => exact dvd_zero _
    | fraction hour min sec ds hds hne h9 =>
      have hs : D ++ 'T'.toUInt8 :: (secondsText hour min sec ++ '.'.toUInt8 :: ds ++ Z) =
          (D ++ 'T'.toUInt8 :: secondsText hour min sec) ++ '.'.toUInt8 :: (ds ++ Z) := by simp
      have hpoint : '.'.toUInt8 ∉ D ++ 'T'.toUInt8 :: secondsText hour min sec := by
        simp only [List.mem_append, List.mem_cons, point_notMem_date hD, point_notMem_seconds,
          or_false, false_or]
        decide
      rw [hs, fractionDigits_append hpoint hds hmore] at hlen
      have hlt := value_mul_pow_lt hds h9
      rw [UInt32.toNat_ofNat_of_lt' (by rw [UInt32.size]; omega)]
      exact thousand_dvd_fraction hlen
  · exact dvd_zero _

/-- **The instant of a text, stored in milliseconds**: it is read back to less than a millisecond,
exactly if the fraction has no more than three digits, and the order of two texts is kept. -/
theorem parse_unix_milliseconds :
    (∀ s dt, (parseRFC3339 s).outcome = .ok dt →
      ∃ dt', fromUnix (dt.unix .milliseconds) .milliseconds = .ok dt' ∧
        |dt'.micros.toInt - dt.micros.toInt| < 1000 ∧
        ((fractionDigits s).length ≤ 3 → dt' = dt)) ∧
    ∀ s₁ s₂ dt₁ dt₂, (parseRFC3339 s₁).outcome = .ok dt₁ → (parseRFC3339 s₂).outcome = .ok dt₂ →
      dt₁.micros ≤ dt₂.micros → dt₁.unix .milliseconds ≤ dt₂.unix .milliseconds := by
  refine ⟨fun s dt h ↦ ?_, fun s₁ s₂ dt₁ dt₂ _ _ hle ↦ unix_mono hle _⟩
  obtain ⟨hp, hdvd⟩ := parse_millis h
  obtain ⟨dt', hdt', hmicros⟩ := fromUnix_unix hp .milliseconds
  refine ⟨dt', hdt', ?_, fun hlen ↦ ?_⟩
  · rw [hmicros]
    exact divTrunc_mul_near (TimestampPrecision.micros_pos .milliseconds)
  · rw [TimestampPrecision.micros, divTrunc_mul_cancel (hdvd hlen)] at hmicros
    rw [DateTime.ext_iff, ← Int64.toInt_inj]
    exact hmicros

set_option maxRecDepth 4000 in
/-- Half a millisecond before 1970 is stored as the beginning of 1970, and the beginning of 2024, to
the millisecond, as what it is. -/
theorem parse_unix_milliseconds_1969 :
    (∃ dt', fromUnix (unix ⟨-500⟩ .milliseconds) .milliseconds = .ok dt' ∧
      |dt'.micros.toInt - (⟨-500⟩ : DateTime).micros.toInt| < 1000 ∧
      ((fractionDigits (ascii "1969-12-31T23:59:59.9995Z")).length ≤ 3 → dt' = ⟨-500⟩)) ∧
    (∃ dt', fromUnix (unix ⟨1704067200001000⟩ .milliseconds) .milliseconds = .ok dt' ∧
      |dt'.micros.toInt - (⟨1704067200001000⟩ : DateTime).micros.toInt| < 1000 ∧
      ((fractionDigits (ascii "2024-01-01T00:00:00.001Z")).length ≤ 3 →
        dt' = ⟨1704067200001000⟩)) ∧
    unix ⟨-500⟩ .milliseconds ≤ unix ⟨1704067200001000⟩ .milliseconds :=
  ⟨parse_unix_milliseconds.1 _ _ (by decide), parse_unix_milliseconds.1 _ _ (by decide),
    parse_unix_milliseconds.2 (ascii "1969-12-31T23:59:59.9995Z")
      (ascii "2024-01-01T00:00:00.001Z") _ _ (by decide) (by decide) (by decide)⟩

end DateTime
end Datetime
