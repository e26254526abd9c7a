import Zmongo.Datetime.Decompose

/-!
# Instants and calendar fields

`Fields` are a date and a time that exist, in the years of the period.  They are what `initUTC` is
for, and on them it is an order isomorphism onto the instants `fromUnix` accepts:
`Fields.instant` is strictly monotone, and every instant of the period is the instant of some
fields (`exists_fields`).

`date` and `time` are not quite its inverse.  `exists_decompose` has what they return on an instant
of the period: always the fields of an instant, but on a `LateBefore1970` instant those of the
instant a day later.
-/

set_option autoImplicit false

open Zig IntType Gregorian

namespace Datetime

/-- The calendar fields of an instant of the period. -/
@[ext] structure Fields where
  /-- The date. -/
  date : Date
  /-- The time of day. -/
  time : Time
  date_valid : date.Valid
  time_valid : time.Valid
  inPeriod : date.InPeriod

namespace Fields

/-- The instant `initUTC` composes of the fields. -/
def initUTC (f : Fields) : Result DateTime :=
  DateTime.initUTC f.date.year f.date.month f.date.day f.time.hour f.time.min f.time.sec
    f.time.micros

/-- The instant of the fields, counted on the calendar. -/
def instant (f : Fields) : ℤ := DateTime.instant f.date f.time

theorem instant_bounds (f : Fields) :
    -210863520000000000 ≤ f.instant ∧ f.instant ≤ 253402300799999999 :=
  (DateTime.instant_bounds f.date_valid f.time_valid).mp f.inPeriod

theorem instant_holds (f : Fields) : i64.Holds f.instant := by
  have h := f.instant_bounds
  rw [holds_i64]
  omega

theorem initUTC_eq (f : Fields) : f.initUTC = .ok (DateTime.ofMicros f.instant) :=
  DateTime.initUTC_eq f.date_valid f.time_valid f.inPeriod

theorem toInt_instant (f : Fields) : (DateTime.ofMicros f.instant).micros.toInt = f.instant :=
  DateTime.toInt_ofMicros f.instant_holds

/-- The instant takes the date and the time apart again. -/
theorem instant_div_mod (f : Fields) : f.instant / Time.dayMicros = f.date.dayNumber ∧
    f.instant % Time.dayMicros = f.time.ofDay := by
  have h0 := f.time.ofDay_nonneg
  have h1 := f.time_valid.ofDay_lt
  rw [instant, DateTime.instant]
  rw [Time.dayMicros] at *
  omega

theorem instant_injective : Function.Injective instant := by
  intro a b h
  have ha := a.instant_div_mod
  have hb := b.instant_div_mod
  rw [h] at ha
  exact Fields.ext
    (Date.dayNumber_injective a.date_valid b.date_valid (ha.1.symm.trans hb.1))
    (Time.ofDay_injective a.time_valid b.time_valid (ha.2.symm.trans hb.2))

/-- **The order of the fields is the order of the instants**: the date first, then the time. -/
theorem compare_instant (a b : Fields) : compare a.instant b.instant =
    if a.date = b.date then Time.order a.time b.time else Date.order a.date b.date := by
  have ha0 := a.time.ofDay_nonneg
  have ha1 := a.time_valid.ofDay_lt
  have hb0 := b.time.ofDay_nonneg
  have hb1 := b.time_valid.ofDay_lt
  have hinst : ∀ f : Fields, f.instant = 86400000000 * f.date.dayNumber + f.time.ofDay :=
    fun _ ↦ rfl
  rw [Time.dayMicros] at ha1 hb1
  split_ifs with h
  · rw [Time.order_eq a.time_valid b.time_valid, hinst, hinst, h, ← cmp_eq_compare, cmp_add_left,
      cmp_eq_compare]
  · have hne : a.date.dayNumber ≠ b.date.dayNumber :=
      fun he ↦ h (Date.dayNumber_injective a.date_valid b.date_valid he)
    rw [Date.order_eq a.date_valid b.date_valid 1970, Date.dayNumber_civil, Date.dayNumber_civil]
    rcases lt_or_gt_of_ne hne with hlt | hgt
    · rw [compare_lt_iff_lt.mpr hlt, compare_lt_iff_lt, hinst, hinst]
      omega
    · rw [compare_gt_iff_gt.mpr hgt, compare_gt_iff_gt, hinst, hinst]
      omega

/-- The years before 1970 are those of the instants before 1970. -/
theorem instant_neg_iff (f : Fields) : f.instant < 0 ↔ f.date.year.toInt < 1970 := by
  have hge : yearStart 1970 f.date.year.toInt ≤ f.date.dayNumber :=
    Civil.yearStart_le_dayNumber 1970 (f.date.civil f.date_valid)
  have hlt : f.date.dayNumber < yearStart 1970 (f.date.year.toInt + 1) :=
    Civil.dayNumber_lt_yearStart 1970 (f.date.civil f.date_valid)
  have hmono := yearStart_mono 1970
  have hself := yearStart_self 1970
  have hdiv := f.instant_div_mod.1
  rw [Time.dayMicros] at hdiv
  refine ⟨?_, ?_⟩
  · intro h
    exact hmono.reflect_lt (by omega)
  · intro h
    have hle := hmono (Int.add_one_le_of_lt h)
    omega

/-- The instants `date` is a day ahead on, by their fields. -/
theorem late_iff (f : Fields) : (DateTime.ofMicros f.instant).LateBefore1970 ↔
    f.date.year.toInt < 1970 ∧ f.time.hour = 23 ∧ f.time.min = 59 ∧ f.time.sec = 59 ∧
      0 < f.time.micros := by
  obtain ⟨hh, hm, hs, hu⟩ := Time.valid_iff.mp f.time_valid
  rw [DateTime.LateBefore1970, f.toInt_instant, f.instant_neg_iff, f.instant_div_mod.2,
    Time.ofDay, ← UInt8.toNat_inj, ← UInt8.toNat_inj, ← UInt8.toNat_inj, UInt32.lt_iff_toNat_lt]
  simp only [UInt8.reduceToNat, UInt32.reduceToNat]
  omega

end Fields

/-- **Every instant of the period has fields.** -/
theorem exists_fields {x : ℤ} (hl : -210863520000000000 ≤ x) (hu : x ≤ 253402300799999999) :
    ∃ f : Fields, f.instant = x := by
  have hfit : i64.Holds x := by
    rw [holds_i64]
    omega
  obtain ⟨c, hc⟩ := Civil.dayNumber_surjective 1970 (x / Time.dayMicros)
  obtain ⟨t, -, ht, htx⟩ := DateTime.time_eq (DateTime.ofMicros x)
  rw [DateTime.toInt_ofMicros hfit] at htx
  rw [Time.dayMicros] at hc htx
  have hp := (civil_inPeriod_iff c).mpr (by omega)
  have hi16 : i16.Holds c.year := by
    rw [holds_i16]
    omega
  refine ⟨⟨Date.ofCivil c, t, Date.valid_ofCivil hi16, ht, ?_⟩, ?_⟩
  · rwa [Date.InPeriod, Date.toInt_year_ofCivil hi16]
  · rw [Fields.instant, DateTime.instant, ← Date.dayNumber_civil (Date.valid_ofCivil hi16),
      Date.civil_ofCivil hi16, hc, htx, Time.dayMicros]
    omega

namespace DateTime

/-- **What `date` and `time` return on an instant of the period.** -/
theorem exists_decompose {dt : DateTime} (hp : dt.InPeriod) :
    ∃ f : Fields, dt.date = .ok f.date ∧ dt.time = .ok f.time ∧
      f.instant = dt.micros.toInt + if dt.LateBefore1970 then Time.dayMicros else 0 := by
  obtain ⟨t, htime, ht, htx⟩ := time_eq dt
  have hday := day_eq dt
  have hlate : dt.LateBefore1970 → dt.micros.toInt < 0 := And.left
  rw [InPeriod] at hp
  have hl : -2440550 ≤ day dt := by
    rw [hday, Time.dayMicros]
    split_ifs <;> omega
  have hu : day dt < 2932897 := by
    rw [hday, Time.dayMicros]
    split_ifs with h
    · have := hlate h
      omega
    · omega
  obtain ⟨d, hdate, hd, hdp, hdx⟩ := date_eq hl hu
  refine ⟨⟨d, t, hd, ht, hdp⟩, hdate, htime, ?_⟩
  rw [Fields.instant, instant, hdx, htx, hday, Time.dayMicros]
  split_ifs <;> omega

/-- **`initUTC` is an order isomorphism** from the calendar fields of the period onto the instants
`fromUnix` accepts. -/
theorem initUTC_orderIso :
    (∀ a b : Fields, ∃ x y, a.initUTC = .ok x ∧ b.initUTC = .ok y ∧
      order x y = if a.date = b.date then Time.order a.time b.time
        else Date.order a.date b.date) ∧
    ∀ v : Int64, (∃ dt, fromUnix v .microseconds = .ok dt) ↔
      ∃! f : Fields, ∃ dt, f.initUTC = .ok dt ∧ dt.micros = v := by
  refine ⟨fun a b ↦ ⟨_, _, a.initUTC_eq, b.initUTC_eq, ?_⟩, fun v ↦ ?_⟩
  · rw [order, a.toInt_instant, b.toInt_instant, Datetime.order, Fields.compare_instant]
  have hmem : ∀ f : Fields, (∃ dt, f.initUTC = .ok dt ∧ dt.micros = v) ↔
      f.instant = v.toInt := by
    intro f
    refine ⟨?_, ?_⟩
    · rintro ⟨dt, hdt, rfl⟩
      rw [f.initUTC_eq, Outcome.ok.injEq] at hdt
      rw [← hdt, f.toInt_instant]
    · intro h
      exact ⟨_, f.initUTC_eq, by rw [h, ofMicros, Int64.ofInt_toInt]⟩
  simp only [hmem]
  refine ⟨?_, ?_⟩
  · rintro ⟨dt, hdt⟩
    rw [fromUnix] at hdt
    split_ifs at hdt with h
    obtain ⟨f, hf⟩ := exists_fields (x := v.toInt) (by omega) (by omega)
    exact ⟨f, hf, fun g hg ↦ Fields.instant_injective (hg.trans hf.symm)⟩
  · rintro ⟨f, hf, -⟩
    have hb := f.instant_bounds
    rw [hf] at hb
    exact ⟨⟨v⟩, if_neg (by omega)⟩

/-- **From Unix seconds to the calendar and back.**  Whole seconds are never late before 1970. -/
theorem fromUnix_seconds {v : Int64} {dt : DateTime} (h : fromUnix v .seconds = .ok dt) :
    ∃ d t, dt.date = .ok d ∧ dt.time = .ok t ∧
      (d.Valid ∧ d.InPeriod ∧ d.dayNumber = v.toInt / 86400) ∧
      (∀ d' : Date, d'.Valid → d'.InPeriod → d'.dayNumber = v.toInt / 86400 → d' = d) ∧
      initUTC d.year d.month d.day t.hour t.min t.sec t.micros = .ok dt := by
  rw [fromUnix_eq, TimestampPrecision.micros] at h
  split_ifs at h with hv
  have hdt : dt.micros.toInt = v.toInt * 1000000 := by
    rw [← Outcome.ok.inj h, toInt_ofMicros (by rw [holds_i64]; omega)]
  have hlate : ¬dt.LateBefore1970 := by
    rw [LateBefore1970, hdt, Time.dayMicros]
    omega
  have hin : dt.InPeriod := by
    rw [InPeriod, hdt]
    omega
  obtain ⟨f, hdate, htime, hf⟩ := exists_decompose hin
  rw [if_neg hlate, add_zero] at hf
  have hday : f.date.dayNumber = v.toInt / 86400 := by
    rw [← f.instant_div_mod.1, hf, hdt, Time.dayMicros]
    omega
  refine ⟨f.date, f.time, hdate, htime, ⟨f.date_valid, f.inPeriod, hday⟩, ?_, ?_⟩
  · intro d' hd' _ hn
    exact Date.dayNumber_injective hd' f.date_valid (hn.trans hday.symm)
  · rw [initUTC_eq f.date_valid f.time_valid f.inPeriod, ← Fields.instant, hf, ofMicros_toInt]

/-- The second before 1970: `date` goes back to the last day of 1969. -/
theorem fromUnix_neg_one : ∃ d t, date ⟨-1000000⟩ = .ok d ∧ time ⟨-1000000⟩ = .ok t ∧
    (d.Valid ∧ d.InPeriod ∧ d.dayNumber = (-1 : Int64).toInt / 86400) ∧
    (∀ d' : Date, d'.Valid → d'.InPeriod → d'.dayNumber = (-1 : Int64).toInt / 86400 → d' = d) ∧
    initUTC d.year d.month d.day t.hour t.min t.sec t.micros = .ok ⟨-1000000⟩ :=
  fromUnix_seconds (v := -1) (by decide)

/-- **When `date` and `time` undo `initUTC`**: always, but for the last second of a day before
1970. -/
theorem initUTC_decompose_iff {d : Date} {t : Time} (hd : d.Valid) (ht : t.Valid)
    (hp : d.InPeriod) :
    (∃ dt, initUTC d.year d.month d.day t.hour t.min t.sec t.micros = .ok dt ∧
      dt.date = .ok d ∧ dt.time = .ok t) ↔
    ¬(d.year.toInt < 1970 ∧ t.hour = 23 ∧ t.min = 59 ∧ t.sec = 59 ∧ 0 < t.micros) := by
  let f : Fields := ⟨d, t, hd, ht, hp⟩
  have hin : (ofMicros f.instant).InPeriod := by
    rw [InPeriod, f.toInt_instant]
    exact f.instant_bounds
  obtain ⟨g, hdate, htime, hg⟩ := exists_decompose hin
  rw [← f.late_iff, initUTC_eq hd ht hp]
  rw [f.toInt_instant] at hg
  refine ⟨?_, ?_⟩
  · rintro ⟨dt, hdt, hdtd, hdtt⟩ hlate
    rw [Outcome.ok.injEq] at hdt
    rw [← hdt] at hdtd hdtt
    have hgd : g.date = d := Outcome.ok.inj (hdate.symm.trans hdtd)
    have hgt : g.time = t := Outcome.ok.inj (htime.symm.trans hdtt)
    have hgf : g = f := Fields.ext hgd hgt
    rw [hgf, if_pos hlate, Time.dayMicros] at hg
    omega
  · intro hlate
    rw [if_neg hlate, add_zero] at hg
    have hgf : g = f := Fields.instant_injective hg
    rw [hgf] at hdate htime
    exact ⟨_, rfl, hdate, htime⟩

/-- The last second of 1969 but one is taken apart as it was put together. -/
theorem initUTC_1969_decompose :
    (∃ dt, initUTC 1969 12 31 23 59 58 500000 = .ok dt ∧
      dt.date = .ok ⟨1969, 12, 31⟩ ∧ dt.time = .ok ⟨23, 59, 58, 500000⟩) ↔
    ¬((1969 : Int16).toInt < 1970 ∧ (23 : UInt8) = 23 ∧ (59 : UInt8) = 59 ∧ (58 : UInt8) = 59 ∧
      (0 : UInt32) < 500000) :=
  initUTC_decompose_iff (d := ⟨1969, 12, 31⟩) (t := ⟨23, 59, 58, 500000⟩) (by decide) (by decide)
    (by decide)

/-- A microsecond into the last second of 1969, `date` is already in 1970. -/
theorem initUTC_1969_not_decompose : Date.valid 1969 12 31 = true ∧
    Time.valid 23 59 59 1 = true ∧
    ¬∃ dt, initUTC 1969 12 31 23 59 59 1 = .ok dt ∧
      dt.date = .ok ⟨1969, 12, 31⟩ ∧ dt.time = .ok ⟨23, 59, 59, 1⟩ := by
  refine ⟨by decide, by decide, ?_⟩
  rintro ⟨dt, hdt, hdate, -⟩
  have hmicros : initUTC 1969 12 31 23 59 59 1 = .ok ⟨-999999⟩ := by decide
  rw [hmicros, Outcome.ok.injEq] at hdt
  rw [← hdt] at hdate
  exact absurd hdate (by decide)

end DateTime
end Datetime
