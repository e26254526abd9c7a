import Zmongo.Datetime.DateTime
import Zmongo.Gregorian.March

/-!
# What `initUTC` computes

`initUTC` never sums up a year or a month: it counts the days of a date by a closed formula, in
years from March on a base of 4800.  `formulaDays_eq` is the one place where that formula meets
the calendar, and `initUTC_eq` what follows for the function: between the years -4712 and 9999 it
returns `instant`, the day number and the microseconds since midnight put together.

The formula does not check the year, and the sum `year + year_base` is computed as `i16`.  So the
behaviour outside these years comes in two parts: up to 27967 the bounds of `fromUnix` reject the
instant (`initUTC_outside`), and from 27968 on the sum overflows (`initUTC_trap`).
-/

set_option autoImplicit false

open Zig IntType Gregorian

namespace Datetime

/-! ## The instants of the type -/

/-- The years of the Julian period up to the last one with four digits. -/
def Date.InPeriod (d : Date) : Prop := -4712 ≤ d.year.toInt ∧ d.year.toInt ≤ 9999

instance : DecidablePred Date.InPeriod := fun d ↦
  inferInstanceAs (Decidable (-4712 ≤ d.year.toInt ∧ d.year.toInt ≤ 9999))

/-- The number of a date, counted from 1970-01-01. -/
def Date.dayNumber (d : Date) : ℤ := Gregorian.dayNumber 1970 d.year.toInt d.month.toNat d.day.toNat

theorem Date.dayNumber_civil {d : Date} (h : d.Valid) :
    (d.civil h).dayNumber 1970 = d.dayNumber := rfl

theorem Date.dayNumber_injective {a b : Date} (ha : a.Valid) (hb : b.Valid)
    (h : a.dayNumber = b.dayNumber) : a = b :=
  Date.civil_injective (Civil.dayNumber_injective 1970 h : a.civil ha = b.civil hb)

theorem yearStart_first : yearStart 1970 (-4712) = -2440550 := by rw [yearStart_eq]; rfl

theorem yearStart_last : yearStart 1970 10000 = 2932897 := by rw [yearStart_eq]; rfl

/-- The days of the period are consecutive. -/
theorem civil_inPeriod_iff (c : Civil) :
    -4712 ≤ c.year ∧ c.year ≤ 9999 ↔
      -2440550 ≤ c.dayNumber 1970 ∧ c.dayNumber 1970 < 2932897 := by
  have hge := Civil.yearStart_le_dayNumber 1970 c
  have hlt := Civil.dayNumber_lt_yearStart 1970 c
  have hmono := yearStart_mono 1970
  rw [← yearStart_first, ← yearStart_last]
  refine ⟨?_, ?_⟩
  · rintro ⟨h1, h2⟩
    exact ⟨(hmono h1).trans hge, hlt.trans_le (hmono (Int.add_one_le_of_lt (by omega)))⟩
  · rintro ⟨h1, h2⟩
    have h1' := hmono.reflect_lt (h1.trans_lt hlt)
    have h2' := hmono.reflect_lt (hge.trans_lt h2)
    omega

theorem Date.inPeriod_iff {d : Date} (h : d.Valid) :
    d.InPeriod ↔ -2440550 ≤ d.dayNumber ∧ d.dayNumber < 2932897 :=
  civil_inPeriod_iff (d.civil h)

/-- The microseconds of one unit of a timestamp. -/
def TimestampPrecision.micros : TimestampPrecision → ℤ
  | .seconds => 1000000
  | .milliseconds => 1000
  | .microseconds => 1

namespace DateTime

/-- The instant is one `fromUnix` accepts. -/
def InPeriod (dt : DateTime) : Prop :=
  -210863520000000000 ≤ dt.micros.toInt ∧ dt.micros.toInt ≤ 253402300799999999

instance : DecidablePred InPeriod := fun dt ↦ inferInstanceAs
  (Decidable (-210863520000000000 ≤ dt.micros.toInt ∧ dt.micros.toInt ≤ 253402300799999999))

/-- The instant of a date and a time, counted on the calendar. -/
def instant (d : Date) (t : Time) : ℤ := Time.dayMicros * d.dayNumber + t.ofDay

theorem instant_bounds {d : Date} {t : Time} (hd : d.Valid) (ht : t.Valid) :
    d.InPeriod ↔ -210863520000000000 ≤ instant d t ∧ instant d t ≤ 253402300799999999 := by
  have h0 := t.ofDay_nonneg
  have h1 := ht.ofDay_lt
  rw [Date.inPeriod_iff hd, instant]
  rw [Time.dayMicros] at *
  omega

/-! ## The closed formula -/

/-- The number of days `dateMicros` computes, in exact integers. -/
def formulaDays (yearAdj monthAdj day : ℤ) : ℤ :=
  yearAdj * 365 + (divTrunc yearAdj 4 - divTrunc yearAdj 100 + divTrunc yearAdj 400) +
    divTrunc (monthAdj * 62719 + 769) 2048 + (day - 1) - 2472632

/-- The multiply-and-shift formula for the days before a month, counted from March. -/
theorem divTrunc_month {k : ℕ} (hk : k < 12) :
    divTrunc ((k : ℤ) * 62719 + 769) 2048 = marchStart k := by
  interval_cases k <;> decide

/-- **The closed formula is the day number.**  From the year -4800 on, the truncating divisions
round down. -/
theorem formulaDays_eq {Y : ℤ} (hY : -4800 ≤ Y) {k : ℕ} (hk : k < 12) (d : ℕ) :
    formulaDays (Y + 4800) k d = Gregorian.dayNumber 1970 (marchYear Y k) (marchMonth k) d := by
  have hYnn : 0 ≤ Y + 4800 := by omega
  rw [formulaDays, divTrunc_month hk, divTrunc_of_nonneg _ hYnn, divTrunc_of_nonneg _ hYnn,
    divTrunc_of_nonneg _ hYnn, dayNumber_march 1970 Y hk, yearStart_eq, leapsBefore, leapsBefore]
  omega

/-- Before that the formula is off, but far below the period. -/
theorem formulaDays_lt {Y : ℤ} (hY : Y < -4800) {k : ℕ} (hk : k < 12) {d : ℕ} (hd : d ≤ 31) :
    formulaDays (Y + 4800) k d < -2440550 := by
  have hYnp : Y + 4800 ≤ 0 := by omega
  have hm : marchStart k ≤ 337 := by interval_cases k <;> decide
  rw [formulaDays, divTrunc_month hk, divTrunc_of_nonpos _ hYnp, divTrunc_of_nonpos _ hYnp,
    divTrunc_of_nonpos _ hYnp]
  omega

/-- The months from March and the calendar months are the same months. -/
theorem exists_march (y : ℤ) {m : ℕ} (h1 : 1 ≤ m) (h12 : m ≤ 12) :
    ∃ k : ℕ, k < 12 ∧ (k : ℤ) = m - 3 + (if (m : ℤ) - 3 < 0 then 12 else 0) ∧ marchMonth k = m ∧
      marchYear (y - if (m : ℤ) - 3 < 0 then 1 else 0) k = y := by
  by_cases h3 : 3 ≤ m
  · refine ⟨m - 3, by omega, ?_, ?_, ?_⟩
    · rw [if_neg (by omega)]
      omega
    · rw [marchMonth, if_pos (by omega)]
      omega
    · rw [marchYear, if_pos (by omega), if_neg (by omega), sub_zero]
  · refine ⟨m + 9, by omega, ?_, ?_, ?_⟩
    · rw [if_pos (by omega)]
      push_cast
      omega
    · rw [marchMonth, if_neg (by omega)]
      omega
    · rw [marchYear, if_neg (by omega), if_pos (by omega), sub_add_cancel]

/-! ## The parts of `initUTC` -/

theorem timeMicros_eq {t : Time} (ht : t.Valid) :
    timeMicros t.hour t.min t.sec t.micros = .ok t.ofDay := by
  obtain ⟨hh, hm, hs, hu⟩ := Time.valid_iff.mp ht
  simp (disch := (simp only [holds_i64]; omega)) only [timeMicros, microsecondsInAnHour,
    microsecondsInAMin, microsecondsInASec, mul_ok, add_ok, Outcome.ok_bind]
  rw [Time.ofDay]
  congr 1
  ring

/-- Up to the year 27967 nothing overflows, and `dateMicros` is the formula. -/
theorem dateMicros_eq {d : Date} (hd : d.Valid) (hy : d.year.toInt ≤ 27967) {Y : ℤ} {k : ℕ}
    (hk : k < 12) (hadj : (k : ℤ) = d.month.toNat - 3 +
      (if (d.month.toNat : ℤ) - 3 < 0 then 12 else 0))
    (hY : Y = d.year.toInt - if (d.month.toNat : ℤ) - 3 < 0 then 1 else 0) :
    dateMicros d.year d.month d.day =
      .ok (formulaDays (Y + 4800) k d.day.toNat * 86400000000) := by
  have hyl := d.year.le_toInt
  have hm1 := hd.month_pos
  have hm12 := hd.month_le
  have hd1 := hd.day_pos
  have hd31 := hd.day_le_31
  have hcarry : (if (if (d.month.toNat : ℤ) - 3 < 0 then (1 : ℤ) else 0) = 1 then (12 : ℤ) else 0) =
      if (d.month.toNat : ℤ) - 3 < 0 then 12 else 0 := by
    split_ifs <;> simp_all
  have hYl : d.year.toInt + 4800 - (if (d.month.toNat : ℤ) - 3 < 0 then 1 else 0) = Y + 4800 := by
    rw [hY]
    ring
  have hYb : -32767 ≤ Y + 4800 ∧ Y + 4800 ≤ 32767 := by
    rw [hY]
    split_ifs <;> omega
  have h4 := divTrunc_bounds (n := 4) (by omega) hYb.1 hYb.2
  have h100 := divTrunc_bounds (n := 100) (by omega) hYb.1 hYb.2
  have h400 := divTrunc_bounds (n := 400) (by omega) hYb.1 hYb.2
  have hm := divTrunc_month hk
  have hms : marchStart k ≤ 337 := by interval_cases k <;> decide
  simp (disch := (simp only [holds_i16, holds_i32, holds_i64, holds_u8]; omega)) only
    [dateMicros, sub_ok, add_ok, mul_ok, Outcome.ok_bind, hcarry, ← hadj, hYl, hm,
      microsecondsInADay]
  rw [formulaDays, hm]

/-- From the year 27968 on, `year + year_base` does not fit an `i16`. -/
theorem dateMicros_trap {d : Date} (hd : d.Valid) (hy : 27967 < d.year.toInt) :
    dateMicros d.year d.month d.day = .trap .integerOverflow := by
  have hm1 := hd.month_pos
  have hm12 := hd.month_le
  have hover : ¬i16.Holds (d.year.toInt + 4800) := by
    rw [holds_i16]
    omega
  rw [dateMicros, sub_ok (by rw [holds_i32]; omega), Outcome.ok_bind, IntType.add,
    checked_trap hover, Outcome.trap_bind]

theorem dateMicros_eq_dayNumber {d : Date} (hd : d.Valid) (hl : -4712 ≤ d.year.toInt)
    (hu : d.year.toInt ≤ 27967) :
    dateMicros d.year d.month d.day = .ok (d.dayNumber * 86400000000) := by
  obtain ⟨k, hk, hadj, hmonth, hyear⟩ := exists_march d.year.toInt hd.month_pos hd.month_le
  rw [dateMicros_eq hd hu hk hadj rfl, formulaDays_eq (by split <;> omega) hk, hmonth, hyear,
    Date.dayNumber]

theorem formulaDays_bounds {yearAdj day : ℤ} {k : ℕ} (hl : -32767 ≤ yearAdj) (hu : yearAdj ≤ 32767)
    (hk : k < 12) (hd : 1 ≤ day) (hd' : day ≤ 31) :
    -20000000 ≤ formulaDays yearAdj k day ∧ formulaDays yearAdj k day ≤ 20000000 := by
  have h4 := divTrunc_bounds (n := 4) (by omega) hl hu
  have h100 := divTrunc_bounds (n := 100) (by omega) hl hu
  have h400 := divTrunc_bounds (n := 400) (by omega) hl hu
  have hm : marchStart k ≤ 337 := by interval_cases k <;> decide
  rw [formulaDays, divTrunc_month hk]
  omega

/-- Outside the period, but where the sum fits, `dateMicros` is outside the period as well. -/
theorem dateMicros_outside {d : Date} (hd : d.Valid) (hp : ¬d.InPeriod)
    (hu : d.year.toInt ≤ 27967) :
    ∃ n : ℤ, dateMicros d.year d.month d.day = .ok (n * 86400000000) ∧ -20000000 ≤ n ∧
      n ≤ 20000000 ∧ (n < -2440550 ∨ 2932897 ≤ n) := by
  obtain ⟨k, hk, hadj, hmonth, hyear⟩ := exists_march d.year.toInt hd.month_pos hd.month_le
  have hd1 := hd.day_pos
  have hd31 := hd.day_le_31
  have hyl := d.year.le_toInt
  refine ⟨_, dateMicros_eq hd hu hk hadj rfl, ?_, ?_, ?_⟩
  · exact (formulaDays_bounds (by split <;> omega) (by split <;> omega) hk (by omega)
      (by omega)).1
  · exact (formulaDays_bounds (by split <;> omega) (by split <;> omega) hk (by omega)
      (by omega)).2
  · rcases lt_or_ge (d.year.toInt - if (d.month.toNat : ℤ) - 3 < 0 then 1 else 0) (-4800)
      with hY | hY
    · exact .inl (formulaDays_lt hY hk hd31)
    · rw [formulaDays_eq hY hk, hmonth, hyear, ← Date.dayNumber]
      rw [Date.inPeriod_iff hd] at hp
      omega

/-! ## The function -/

/-- An exact number of microseconds as an instant. -/
def ofMicros (x : ℤ) : DateTime := ⟨Int64.ofInt x⟩

theorem toInt_ofMicros {x : ℤ} (h : i64.Holds x) : (ofMicros x).micros.toInt = x :=
  toInt_ofInt_i64 h

@[simp] theorem ofMicros_toInt (dt : DateTime) : ofMicros dt.micros.toInt = dt := by
  rw [ofMicros, Int64.ofInt_toInt]

/-- The bounds at the three precisions are the same bounds. -/
theorem fromUnix_eq (v : Int64) (precision : TimestampPrecision) : fromUnix v precision =
    if -210863520000000000 ≤ v.toInt * precision.micros ∧
        v.toInt * precision.micros ≤ 253402300799999999 then
      .ok (ofMicros (v.toInt * precision.micros))
    else .error .outsideJulianPeriod := by
  cases precision with
  | seconds | milliseconds =>
    rw [fromUnix, TimestampPrecision.micros]
    split_ifs
    any_goals omega
    · rfl
    · rw [mul_ok (by rw [holds_i64]; omega)]
      rfl
  | microseconds =>
    rw [fromUnix, TimestampPrecision.micros, mul_one, ofMicros_toInt]
    split_ifs
    any_goals omega
    · rfl
    · rfl

theorem fromUnix_micros {x : ℤ} (h : i64.Holds x) :
    fromUnix (Int64.ofInt x) .microseconds =
      if -210863520000000000 ≤ x ∧ x ≤ 253402300799999999 then .ok (ofMicros x)
      else .error .outsideJulianPeriod := by
  rw [fromUnix_eq, toInt_ofInt_i64 h, TimestampPrecision.micros, mul_one]

section InitUTC

variable {d : Date} {t : Time} (hd : d.Valid) (ht : t.Valid)
include hd ht

/-- After the two checks, `initUTC` is its arithmetic. -/
theorem initUTC_of_valid :
    initUTC d.year d.month d.day t.hour t.min t.sec t.micros = (do
      let dateMicros ← dateMicros d.year d.month d.day
      let micros ← i64.add dateMicros t.ofDay
      fromUnix (Int64.ofInt micros) .microseconds) := by
  rw [initUTC, if_neg (by simpa [Date.Valid] using hd), if_neg (by simpa [Time.Valid] using ht),
    timeMicros_eq ht]
  rfl

/-- **`initUTC` composes the instant of its fields.** -/
theorem initUTC_eq (hp : d.InPeriod) :
    initUTC d.year d.month d.day t.hour t.min t.sec t.micros = .ok (ofMicros (instant d t)) := by
  have hb := (instant_bounds hd ht).mp hp
  have hi : d.dayNumber * 86400000000 + t.ofDay = instant d t := by
    rw [instant, Time.dayMicros]
    ring
  have hfit : i64.Holds (instant d t) := by
    rw [holds_i64]
    omega
  rw [initUTC_of_valid hd ht, dateMicros_eq_dayNumber hd hp.1 (by have := hp.2; omega),
    Outcome.ok_bind, add_ok (by rwa [hi]), Outcome.ok_bind, hi, fromUnix_micros hfit, if_pos hb]

/-- Outside the period, but where the sum fits, the bounds of `fromUnix` reject the instant. -/
theorem initUTC_outside (hp : ¬d.InPeriod) (hu : d.year.toInt ≤ 27967) :
    initUTC d.year d.month d.day t.hour t.min t.sec t.micros = .error .outsideJulianPeriod := by
  obtain ⟨n, hn, hl, hu', hout⟩ := dateMicros_outside hd hp hu
  have h0 := t.ofDay_nonneg
  have h1 := ht.ofDay_lt
  rw [Time.dayMicros] at h1
  have hfit : i64.Holds (n * 86400000000 + t.ofDay) := by
    rw [holds_i64]
    omega
  rw [initUTC_of_valid hd ht, hn, Outcome.ok_bind, add_ok hfit, Outcome.ok_bind,
    fromUnix_micros hfit, if_neg (by omega)]

/-- From the year 27968 on, `initUTC` overflows. -/
theorem initUTC_trap (hu : 27967 < d.year.toInt) :
    initUTC d.year d.month d.day t.hour t.min t.sec t.micros = .trap .integerOverflow := by
  rw [initUTC_of_valid hd ht, dateMicros_trap hd hu, Outcome.trap_bind]

end InitUTC

/-- **`initUTC` computes the proleptic Gregorian calendar.**  The day number is the one of the
calendar library: it is `0` on 1970-01-01, and goes up by one from each date to the next.  No other
number does that. -/
theorem initUTC_calendar :
    (Civil.newYear 1970).dayNumber 1970 = 0 ∧
    (∀ c : Civil, c.next.dayNumber 1970 = c.dayNumber 1970 + 1) ∧
    (∀ N : Civil → ℤ, N (Civil.newYear 1970) = 0 → (∀ c, N c.next = N c + 1) →
      ∀ c, N c = c.dayNumber 1970) ∧
    ∀ (d : Date) (t : Time) (hd : d.Valid), t.Valid → d.InPeriod →
      ∃ dt, initUTC d.year d.month d.day t.hour t.min t.sec t.micros = .ok dt ∧
        dt.micros.toInt = 86400000000 * (d.civil hd).dayNumber 1970 + 3600000000 * t.hour.toNat +
          60000000 * t.min.toNat + 1000000 * t.sec.toNat + t.micros.toNat := by
  refine ⟨by simp, Civil.dayNumber_next 1970, fun _ ↦ Civil.dayNumber_unique 1970,
    fun d t hd ht hp ↦ ⟨_, initUTC_eq hd ht hp, ?_⟩⟩
  have hb := (instant_bounds hd ht).mp hp
  have hfit : i64.Holds (instant d t) := by
    rw [holds_i64]
    omega
  rw [toInt_ofMicros hfit, instant, Date.dayNumber_civil, Time.ofDay, Time.dayMicros]
  ring

/-! ## Every argument tuple -/

/-- What `initUTC` is to do with a tuple of arguments: to end, with the error of the first check
that fails, or else with an instant. -/
structure Classified (year : Int16) (month day hour min sec : UInt8) (micros : UInt32) : Prop where
  ends : (initUTC year month day hour min sec micros).Ends
  invalidDate : initUTC year month day hour min sec micros = .error .invalidDate ↔
    Date.valid year month day = false
  invalidTime : initUTC year month day hour min sec micros = .error .invalidTime ↔
    Date.valid year month day = true ∧ Time.valid hour min sec micros = false
  outside : initUTC year month day hour min sec micros = .error .outsideJulianPeriod ↔
    Date.valid year month day = true ∧ Time.valid hour min sec micros = true ∧
      (year.toInt < -4712 ∨ 9999 < year.toInt)
  instant : (∃ dt, initUTC year month day hour min sec micros = .ok dt) ↔
    Date.valid year month day = true ∧ Time.valid hour min sec micros = true ∧
      -4712 ≤ year.toInt ∧ year.toInt ≤ 9999

/-- **The tuples `initUTC` classifies.**  On the others, `year + year_base` overflows. -/
theorem initUTC_classified_iff (year : Int16) (month day hour min sec : UInt8) (micros : UInt32) :
    Classified year month day hour min sec micros ↔
      (Date.valid year month day = true → Time.valid hour min sec micros = true →
        year.toInt ≤ 27967) := by
  cases hd : Date.valid year month day with
  | false =>
    have h : initUTC year month day hour min sec micros = .error .invalidDate := if_pos hd
    exact ⟨fun _ ↦ by simp, fun _ ↦ by constructor <;> simp [h, hd]⟩
  | true =>
    cases ht : Time.valid hour min sec micros with
    | false =>
      have h : initUTC year month day hour min sec micros = .error .invalidTime := by
        rw [initUTC, if_neg (by simp [hd]), if_pos ht]
      exact ⟨fun _ ↦ by simp, fun _ ↦ by constructor <;> simp [h, hd, ht]⟩
    | true =>
      have hd' : Date.Valid ⟨year, month, day⟩ := hd
      have ht' : Time.Valid ⟨hour, min, sec, micros⟩ := ht
      refine ⟨?_, ?_⟩
      · intro h _ _
        by_contra hy
        exact absurd h.ends (by rw [initUTC_trap hd' ht' (not_le.mp hy)]; exact id)
      · intro hy
        have hy := hy rfl rfl
        by_cases hp : Date.InPeriod ⟨year, month, day⟩
        · have h := initUTC_eq hd' ht' hp
          rw [Date.InPeriod] at hp
          dsimp only at h hp
          constructor <;> simp [h, hd, ht] <;> omega
        · have h := initUTC_outside hd' ht' hp hy
          rw [Date.InPeriod] at hp
          dsimp only at h hp
          constructor <;> simp [h, hd, ht] <;> omega

/-- 27968-01-01 is a valid date, and its year overflows. -/
theorem initUTC_27968_not_classified : ¬Classified 27968 1 1 0 0 0 0 :=
  fun h ↦ absurd h.ends (by decide)

end DateTime
end Datetime
