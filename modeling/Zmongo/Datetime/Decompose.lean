import Zmongo.Datetime.Compose

/-!
# What `date` and `time` compute

`date` divides the days since 1 March 2000 through the cycles of the calendar: 400 years, 100
years, 4 years and single years, and then the months of a year from March.  `yearAndRemDays_eq`
and `monthLoop_eq` are the two halves of that, and neither leaves a day out: the day a cycle has in
excess of its parts is what the caps `== 4` and `== 25` are for.

So `date` is right about the day it looks at, which is `DateTime.day`.  The two functions do not
look at the same one.  `time` takes the remainder of the microseconds rounded down, `date` the
quotient of the seconds rounded towards 1970, and `day_eq` says where they differ: on the instants
that are `LateBefore1970`, inside the last second of a day before 1970, `date` is a day ahead.
-/

set_option autoImplicit false

open Zig IntType Gregorian

namespace Datetime
namespace DateTime

variable {dt : DateTime}

/-! ## The time of day -/

/-- **`time` is the time since midnight**, for every instant. -/
theorem time_eq (dt : DateTime) :
    ∃ t, time dt = .ok t ∧ t.Valid ∧ t.ofDay = dt.micros.toInt % Time.dayMicros := by
  rw [time, mod, microsecondsInADay, Time.dayMicros]
  have h0 : 0 ≤ dt.micros.toInt % 86400000000 := by omega
  have h1 : dt.micros.toInt % 86400000000 < 86400000000 := by omega
  generalize dt.micros.toInt % 86400000000 = x at h0 h1 ⊢
  have hmin : 0 ≤ x % 3600000000 := by omega
  have hsec : 0 ≤ x % 60000000 := by omega
  simp only [microsecondsInAnHour, microsecondsInAMin, microsecondsInASec,
    rem_of_nonneg _ h0, divTrunc_of_nonneg _ h0, divTrunc_of_nonneg _ hmin,
    divTrunc_of_nonneg _ hsec]
  have c1 : u8.Holds (x / 3600000000) := by rw [holds_u8]; omega
  have c2 : u8.Holds (x % 3600000000 / 60000000) := by rw [holds_u8]; omega
  have c3 : u8.Holds (x % 60000000 / 1000000) := by rw [holds_u8]; omega
  have c4 : u32.Holds (x % 1000000) := by rw [holds_u32]; omega
  have e1 := toNat_ofInt_u8 c1
  have e2 := toNat_ofInt_u8 c2
  have e3 := toNat_ofInt_u8 c3
  have e4 := toNat_ofInt_u32 c4
  simp only [cast_ok c1, cast_ok c2, cast_ok c3, cast_ok c4, Outcome.ok_bind, Outcome.pure_eq_ok]
  refine ⟨_, rfl, ?_, ?_⟩
  · rw [Time.Valid, Time.valid_iff]
    dsimp only
    omega
  · rw [Time.ofDay]
    dsimp only
    omega

/-! ## The day -/

/-- The day `date` looks at: the seconds are rounded towards 1970 before the day is taken. -/
def day (dt : DateTime) : ℤ := divTrunc dt.micros.toInt 1000000 / 86400

/-- The instant is before 1970, in the last second of its day and past the beginning of it. -/
def LateBefore1970 (dt : DateTime) : Prop :=
  dt.micros.toInt < 0 ∧ 86399000000 < dt.micros.toInt % Time.dayMicros

instance : DecidablePred LateBefore1970 := fun dt ↦ inferInstanceAs
  (Decidable (dt.micros.toInt < 0 ∧ 86399000000 < dt.micros.toInt % Time.dayMicros))

/-- `date` looks at the day of the instant, or at the day after it. -/
theorem day_eq (dt : DateTime) :
    day dt = dt.micros.toInt / Time.dayMicros + if dt.LateBefore1970 then 1 else 0 := by
  simp only [day, divTrunc_eq (show (0 : ℤ) < 1000000 by omega), LateBefore1970, Time.dayMicros]
  split_ifs <;> omega

theorem daysSinceLeapEpoch_eq (dt : DateTime) : daysSinceLeapEpoch dt = .ok (day dt - 11017) := by
  have hl := dt.micros.le_toInt
  have hu := dt.micros.toInt_lt
  have hs : -9223372036855 ≤ divTrunc dt.micros.toInt 1000000 ∧
      divTrunc dt.micros.toInt 1000000 ≤ 9223372036855 := by
    rw [divTrunc_eq (by omega)]
    split_ifs <;> omega
  rw [daysSinceLeapEpoch, day]
  generalize divTrunc dt.micros.toInt 1000000 = s at hs ⊢
  rw [sub_ok (by rw [holds_i64]; omega), Outcome.ok_bind]
  -- 951868800 seconds are 11017 days, so the correction makes the quotient one rounded down
  rcases le_total 0 (s - (946684800 + 86400 * (31 + 29))) with h | h
  · rw [rem_of_nonneg _ h, divTrunc_of_nonneg _ h, if_neg (by omega), Outcome.pure_eq_ok]
    congr 1
    omega
  · rw [rem_of_nonpos _ h, divTrunc_of_nonpos _ h]
    split_ifs
    · rw [sub_ok (by rw [holds_i64]; omega)]
      congr 1
      omega
    · rw [Outcome.pure_eq_ok]
      congr 1
      omega

/-! ## The year -/

/-- With the correction, quotient and remainder are rounded down. -/
theorem borrow_eq {days : ℤ} (hl : -200000000 ≤ days) (hu : days ≤ 200000000) :
    borrow 146097 (rem days 146097) (divTrunc days 146097) =
      .ok (days % 146097, days / 146097) := by
  rw [borrow]
  rcases le_total 0 days with h | h
  · rw [rem_of_nonneg _ h, divTrunc_of_nonneg _ h, if_neg (by omega), Outcome.pure_eq_ok]
  · rw [rem_of_nonpos _ h, divTrunc_of_nonpos _ h]
    split_ifs
    · rw [add_ok (by rw [holds_i64]; omega), Outcome.ok_bind, sub_ok (by rw [holds_i64]; omega),
        Outcome.ok_bind, Outcome.pure_eq_ok]
      congr 2 <;> omega
    · rw [Outcome.pure_eq_ok]
      congr 2 <;> omega

/-- The cap takes a count of `n`, which is one too many, back to `n - 1`. -/
theorem cap_eq {n x : ℤ} (hx : x ≤ n) (hn : 0 < n) (hn' : n ≤ 25) :
    cap n x = .ok (min x (n - 1)) := by
  rw [cap]
  split_ifs with h
  · rw [sub_ok (by rw [holds_i64]; omega)]
    congr 1
    omega
  · rw [Outcome.pure_eq_ok]
    congr 1
    omega

/-- One kind of cycles taken off the days: the last one may be longer than the others. -/
theorem cycles_eq {α : Type} {n len d : ℤ} (h0 : 0 ≤ d) (hd : d / len ≤ n) (hlen : 0 < len)
    (hlen' : len ≤ 36524) (hn : 0 < n) (hn' : n ≤ 25) (hfit : d ≤ 146096)
    (k : ℤ → ℤ → Result α) :
    (cap n (divTrunc d len) >>= fun c ↦ i64.mul c len >>= fun m ↦ i64.sub d m >>= k c) =
      k (min (d / len) (n - 1)) (d - min (d / len) (n - 1) * len) := by
  have hq : 0 ≤ d / len := Int.ediv_nonneg h0 hlen.le
  rw [divTrunc_of_nonneg _ h0, cap_eq hd hn hn', Outcome.ok_bind]
  obtain ⟨c, hc⟩ : ∃ c, c = min (d / len) (n - 1) := ⟨_, rfl⟩
  have hcb : 0 ≤ c ∧ c ≤ 24 := by omega
  have hm0 : 0 ≤ c * len := mul_nonneg hcb.1 hlen.le
  have hm : c * len ≤ 24 * 36524 := mul_le_mul hcb.2 hlen' hlen.le (by omega)
  rw [← hc, mul_ok (by rw [holds_i64]; omega), Outcome.ok_bind, sub_ok (by rw [holds_i64]; omega),
    Outcome.ok_bind]

/-- **Dividing through the cycles leaves nothing out**: the days are those up to the beginning of
the year, from March, and those since then, of which there are no more than the year has. -/
theorem yearAndRemDays_eq {days : ℤ} (hl : -200000000 ≤ days) (hu : days ≤ 200000000) :
    ∃ Y r : ℤ, yearAndRemDays days = .ok (Y, r) ∧ 0 ≤ r ∧ r < yearLength (Y + 1) ∧
      days + 11017 = yearStart 1970 (Y + 1) - 306 + r := by
  rw [yearAndRemDays]
  norm_num only
  rw [borrow_eq hl hu, Outcome.ok_bind]
  dsimp only
  -- the days into the cycle of 400 years
  have hqc : days = 146097 * (days / 146097) + days % 146097 := by omega
  have hd : 0 ≤ days % 146097 ∧ days % 146097 < 146097 := by omega
  have hqcb : -1400 ≤ days / 146097 ∧ days / 146097 ≤ 1400 := by omega
  generalize days / 146097 = qc at *
  generalize days % 146097 = d at *
  -- the days into its century, one more than a century has at the very end
  rw [cycles_eq hd.1 (by omega) (by omega) (by omega) (by omega) (by omega) (by omega)]
  obtain ⟨c, hc⟩ : ∃ c, c = min (d / 36524) (4 - 1) := ⟨_, rfl⟩
  rw [← hc]
  have hd' : 0 ≤ d - c * 36524 ∧ d - c * 36524 ≤ 36524 := by omega
  have hc3 : d - c * 36524 = 36524 → c = 3 := by omega
  generalize hdd : d - c * 36524 = d' at *
  -- the days into the four years
  rw [cycles_eq hd'.1 (by omega) (by omega) (by omega) (by omega) (by omega) (by omega)]
  obtain ⟨q, hq⟩ : ∃ q, q = min (d' / 1461) (25 - 1) := ⟨_, rfl⟩
  rw [← hq]
  have hd'' : 0 ≤ d' - q * 1461 ∧ d' - q * 1461 ≤ 1460 := by omega
  generalize hdd' : d' - q * 1461 = d'' at *
  -- the days into the year
  rw [cycles_eq hd''.1 (by omega) (by omega) (by omega) (by omega) (by omega) (by omega)]
  obtain ⟨y, hy⟩ : ∃ y, y = min (d'' / 365) (4 - 1) := ⟨_, rfl⟩
  rw [← hy]
  simp (disch := (simp only [holds_i64]; omega)) only [mul_ok, add_ok, Outcome.ok_bind,
    Outcome.pure_eq_ok]
  have hcb : 0 ≤ c ∧ c ≤ 3 := by omega
  have hqb : 0 ≤ q ∧ q ≤ 24 := by omega
  have hyb : 0 ≤ y ∧ y ≤ 3 := by omega
  have hr : 0 ≤ d'' - y * 365 ∧ d'' - y * 365 ≤ 365 := by omega
  have hr365 : d'' - y * 365 = 365 → y = 3 ∧ (q = 24 → c = 3) := by omega
  clear hc hq hy
  generalize hY : y + 4 * q + 100 * c + 400 * qc + 2000 = Y
  have h4 : Y / 4 = q + 25 * c + 100 * qc + 500 := by omega
  have h100 : Y / 100 = c + 4 * qc + 20 := by omega
  have h400 : Y / 400 = qc + 5 := by omega
  refine ⟨_, _, rfl, hr.1, ?_, ?_⟩
  · rw [yearLength]
    split_ifs with hleap
    · omega
    · rw [IsLeap] at hleap
      omega
  · rw [yearStart_eq, leapsBefore, leapsBefore, add_sub_cancel_right, h4, h100, h400]
    omega

/-! ## The month -/

theorem monthDays_drop {k : ℕ} (hk : k < 12) :
    monthDays.drop k = UInt8.ofNat (marchLength k) :: monthDays.drop (k + 1) := by
  interval_cases k <;> rfl

/-- **The month loop stays inside the table**, because a year from March has no more than 366
days, and stops at the month the day is in. -/
theorem monthLoop_eq {n k : ℕ} (hk : k + n = 12) {r : ℤ} (h0 : 0 ≤ r)
    (hr : marchStart k + r < 366) :
    ∃ K r' : ℕ, monthLoop (monthDays.drop k) k r = .ok (K, r') ∧ K < 12 ∧ r' < marchLength K ∧
      (marchStart K + r' : ℤ) = marchStart k + r := by
  induction n generalizing k r with
  | zero =>
    obtain rfl : k = 12 := hk
    rw [marchStart_twelve] at hr
    omega
  | succ n ih =>
    have hk12 : k < 12 := by omega
    have hlen : (UInt8.ofNat (marchLength k)).toNat = marchLength k :=
      UInt8.toNat_ofNat_of_lt ((monthLength_le _ _).trans_lt (by decide))
    rw [monthDays_drop hk12, monthLoop, hlen]
    split_ifs with h
    · have hs := marchStart_succ k
      obtain ⟨K, r', hrun, hrest⟩ := ih (k := k + 1) (by omega) (r := r - marchLength k) (by omega)
        (by rw [hs]; omega)
      refine ⟨K, r', ?_, hrest.1, hrest.2.1, by omega⟩
      rw [add_ok (by rw [holds_u8]; omega), Outcome.ok_bind, sub_ok (by rw [holds_i64]; omega),
        Outcome.ok_bind]
      exact_mod_cast hrun
    · exact ⟨k, r.toNat, by rw [Int.toNat_of_nonneg h0], hk12, by omega, by omega⟩

/-! ## The date -/

theorem fromMarch_eq {Y : ℤ} {K : ℕ} (hK : K < 12) (hY : -10000 ≤ Y ∧ Y ≤ 10000) :
    fromMarch Y K = .ok (marchYear Y K, marchMonth K - 1) := by
  rw [fromMarch, add_ok (by rw [holds_u8]; omega), Outcome.ok_bind, marchYear, marchMonth]
  split_ifs
  · omega
  · rw [add_ok (by rw [holds_i64]; omega), Outcome.ok_bind, sub_ok (by rw [holds_u8]; omega),
      Outcome.ok_bind, Outcome.pure_eq_ok]
    congr 2
    omega
  · rw [Outcome.pure_eq_ok]
    congr 2
    omega
  · omega

/-- **`date` is the date of its day**, for every day of the period. -/
theorem date_eq (hl : -2440550 ≤ day dt) (hu : day dt < 2932897) :
    ∃ d, date dt = .ok d ∧ d.Valid ∧ d.InPeriod ∧ d.dayNumber = day dt := by
  have hdays : -200000000 ≤ day dt - 11017 ∧ day dt - 11017 ≤ 200000000 := by omega
  obtain ⟨Y, r, hyr, hr0, hr, hdays⟩ := yearAndRemDays_eq hdays.1 hdays.2
  have hlen : yearLength (Y + 1) ≤ 366 := by
    rw [yearLength]
    split <;> omega
  obtain ⟨K, r', hloop, hK, hr', hsum⟩ :=
    monthLoop_eq (n := 12) (k := 0) rfl hr0 (by rw [marchStart_zero]; omega)
  rw [marchStart_zero] at hsum
  have hfit : marchStart K + r' < yearLength (Y + 1) := by omega
  have hnum := Civil.dayNumber_ofMarch 1970 hK hr' hfit
  generalize hc : Civil.ofMarch Y K r' hK hr' hfit = c at hnum
  have hyear : c.year = marchYear Y K := by rw [← hc, Civil.ofMarch]
  have hmonth : c.month = marchMonth K := by rw [← hc, Civil.ofMarch]
  have hday : c.day = r' + 1 := by rw [← hc, Civil.ofMarch]
  have hp := (civil_inPeriod_iff c).mpr (by omega)
  have hi16 : i16.Holds c.year := by rw [holds_i16]; omega
  have hYb : -10000 ≤ Y ∧ Y ≤ 10000 := by
    rw [hyear, marchYear] at hp
    split at hp <;> omega
  refine ⟨Date.ofCivil c, ?_, Date.valid_ofCivil hi16, ?_, ?_⟩
  · have h31 : r' + 1 ≤ 31 := hday ▸ c.day_le.trans (monthLength_le _ _)
    have h12 : marchMonth K ≤ 12 := hmonth ▸ c.month_le
    have h1 : 1 ≤ marchMonth K := hmonth ▸ c.month_pos
    rw [Nat.cast_zero, List.drop_zero] at hloop
    rw [hyear] at hi16
    rw [date, daysSinceLeapEpoch_eq, Outcome.ok_bind, hyr, Outcome.ok_bind]
    dsimp only
    rw [hloop, Outcome.ok_bind]
    dsimp only
    rw [fromMarch_eq hK hYb, Outcome.ok_bind]
    dsimp only
    rw [cast_ok hi16, Outcome.ok_bind, add_ok (by rw [holds_u8]; omega), Outcome.ok_bind,
      add_ok (by rw [holds_i64]; omega), Outcome.ok_bind, cast_ok (by rw [holds_u8]; omega),
      Outcome.ok_bind, Outcome.pure_eq_ok, Date.ofCivil, hyear, hmonth, hday, sub_add_cancel,
      ← Nat.cast_succ, ofInt_natCast_u8, ofInt_natCast_u8]
  · rw [Date.InPeriod, Date.toInt_year_ofCivil hi16]
    exact hp
  · rw [← Date.dayNumber_civil (Date.valid_ofCivil hi16), Date.civil_ofCivil hi16]
    omega

end DateTime
end Datetime
