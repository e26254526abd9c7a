import Zmongo.Datetime.Accept
import Zmongo.Datetime.Print

/-!
# Printing and parsing

The texts of `Datetime.Print` are texts of the grammar: `dateText_text` and `exists_timeText_text`
are the two directions of one layout, the numerals and the fraction of the writer being numerals
and a fraction of the same value for the parser.  So a time is parsed from its own text
(`Time.format_parse`), and the text of fields is parsed as the instant of these fields
(`DateTime.parse_text`).

That is not yet a round trip of instants.  The fields that are printed are those `date` and `time`
return, and for an instant `LateBefore1970` these are the fields of another instant.
-/

set_option autoImplicit false

open Zig IntType Decimal

namespace Datetime

/-- What is printed of a date, in terms of the grammar. -/
theorem Date.text_eq (d : Date) : d.text = dash (decide (d.year.toInt < 0)) ++
    ((Numeral.ofNat 4 d.year.toInt.natAbs).bytes ++ (dash true ++
      ((Numeral.ofNat 2 d.month.toNat).bytes ++ (dash true ++
        (Numeral.ofNat 2 d.day.toNat).bytes)))) := by
  simp [Date.text, yearText, dash, Numeral.ofNat]

/-- What is printed of a date is a text of this date. -/
theorem dateText_text {d : Date} (hy : d.year.toInt.natAbs < 10 ^ 4) (hm : d.month.toNat < 10 ^ 2)
    (hd : d.day.toNat < 10 ^ 2) : DateText d.text d := by
  have h := DateText.mk (decide (d.year.toInt < 0)) true (.ofNat 4 d.year.toInt.natAbs)
    (.ofNat 2 d.month.toNat) (.ofNat 2 d.day.toNat)
  rw [Numeral.value_ofNat hy, Numeral.value_ofNat hm, Numeral.value_ofNat hd] at h
  have hyear : (if decide (d.year.toInt < 0) = true then -(d.year.toInt.natAbs : ℤ)
      else d.year.toInt.natAbs) = d.year.toInt := by
    simp only [decide_eq_true_eq]
    split_ifs <;> omega
  rwa [hyear, Int16.ofInt_toInt, UInt8.ofNat_toNat, UInt8.ofNat_toNat, ← Date.text_eq] at h

/-- What is printed of a time is a text of this time. -/
theorem exists_timeText_text {t : Time} (ht : t.Valid) : ∃ more, TimeText t.text t more := by
  obtain ⟨hh, hm, hs, hu⟩ := Time.valid_iff.mp ht
  have hour := Numeral.value_ofNat (n := 2) (v := t.hour.toNat) (by omega)
  have min := Numeral.value_ofNat (n := 2) (v := t.min.toNat) (by omega)
  have sec := Numeral.value_ofNat (n := 2) (v := t.sec.toNat) (by omega)
  have hbytes : t.text = secondsText (.ofNat 2 t.hour.toNat) (.ofNat 2 t.min.toNat)
      (.ofNat 2 t.sec.toNat) ++ fractionText t.micros.toNat := by
    simp [Time.text, secondsText, minutesText, Numeral.ofNat]
  have hfraction : ∀ ds : List UInt8, Digits ds → ds ≠ [] → ds.length ≤ 9 →
      value ds * 10 ^ (9 - ds.length) / 1000 = t.micros.toNat →
      TimeText (secondsText (.ofNat 2 t.hour.toNat) (.ofNat 2 t.min.toNat)
        (.ofNat 2 t.sec.toNat) ++ '.'.toUInt8 :: ds) t IsDigit := by
    intro ds hds hne hlen hval
    have h := TimeText.fraction (.ofNat 2 t.hour.toNat) (.ofNat 2 t.min.toNat)
      (.ofNat 2 t.sec.toNat) ds hds hne hlen
    rwa [hour, min, sec, hval, UInt8.ofNat_toNat, UInt8.ofNat_toNat, UInt8.ofNat_toNat,
      UInt32.ofNat_toNat] at h
  rw [hbytes, fractionText]
  split_ifs with h0 h1
  · have h := TimeText.seconds (.ofNat 2 t.hour.toNat) (.ofNat 2 t.min.toNat)
      (.ofNat 2 t.sec.toNat)
    have hmicros : (0 : UInt32) = t.micros := UInt32.toNat_inj.mp h0.symm
    rw [hour, min, sec, UInt8.ofNat_toNat, UInt8.ofNat_toNat, UInt8.ofNat_toNat, hmicros] at h
    exact ⟨_, by rwa [List.append_nil]⟩
  · refine ⟨_, hfraction (digits 3 (t.micros.toNat / 1000)) (digits_digits _ _) ?_ ?_ ?_⟩
    · exact List.ne_nil_of_length_eq_add_one (length_digits 3 _)
    · rw [length_digits]
      omega
    · rw [length_digits, value_digits (by omega)]
      omega
  · refine ⟨_, hfraction (digits 6 t.micros.toNat) (digits_digits _ _) ?_ ?_ ?_⟩
    · exact List.ne_nil_of_length_eq_add_one (length_digits 6 _)
    · rw [length_digits]
      omega
    · rw [length_digits, value_digits (by omega)]
      omega

theorem Time.parse_text {t : Time} (ht : t.Valid) : (Time.parse t.text).outcome = .ok t :=
  time_parse_eq_ok_iff.mpr ⟨ht, exists_timeText_text ht⟩

/-- **A time is parsed from its own text**, and so it is the only one with this text. -/
theorem Time.format_parse {t : Time} (ht : t.Valid) : (∀ buf, t.format buf = .ok t.text) ∧
    (Time.parse t.text).outcome = .ok t ∧
      ∀ t' : Time, t'.Valid → ∀ buf buf', t.format buf = t'.format buf' → t = t' := by
  refine ⟨Time.format_eq ht, Time.parse_text ht, ?_⟩
  intro t' ht' buf buf' h
  rw [Time.format_eq ht, Time.format_eq ht', Outcome.ok.injEq] at h
  have hparse := Time.parse_text ht
  rw [h, Time.parse_text ht', Outcome.ok.injEq] at hparse
  exact hparse.symm

/-- The last time of the day with a fraction of three digits, the first of them being zero. -/
theorem Time.format_parse_last_milli :
    (∀ buf, format ⟨23, 59, 59, 5000⟩ buf = .ok (text ⟨23, 59, 59, 5000⟩)) ∧
    (parse (text ⟨23, 59, 59, 5000⟩)).outcome = .ok ⟨23, 59, 59, 5000⟩ ∧
      ∀ t' : Time, t'.Valid → ∀ buf buf',
        format ⟨23, 59, 59, 5000⟩ buf = t'.format buf' → ⟨23, 59, 59, 5000⟩ = t' :=
  Time.format_parse (by decide)

namespace DateTime

/-- **The text of fields is parsed as their instant.** -/
theorem parse_text (f : Fields) : (parseRFC3339 f.text).outcome = .ok (ofMicros f.instant) := by
  have hp := f.inPeriod
  have hm := f.date_valid.month_le
  have hd := f.date_valid.day_le_31
  rw [Date.InPeriod] at hp
  have hdate := dateText_text (d := f.date) (by omega) (by omega) (by omega)
  refine parse_of_composed ⟨f.date.text, f.time.text, ascii "Z", f.date, f.time, ?_,
    date_parse_eq_ok_iff.mpr ⟨f.date_valid, hdate⟩, f.inPeriod, Time.parse_text f.time_valid,
    .inl rfl, f.initUTC_eq⟩
  rw [Fields.text, List.append_assoc, List.append_assoc]
  rfl

/-- **When an instant is parsed from its own text**: when it is not late before 1970. -/
theorem format_parse_iff {dt : DateTime} (h : dt.InPeriod) :
    (∀ buf, ∃ text, dt.format buf = .ok text ∧ (parseRFC3339 text).outcome = .ok dt) ↔
      ¬dt.LateBefore1970 := by
  obtain ⟨f, hdate, htime, hf⟩ := exists_decompose h
  have hparse := parse_text f
  refine ⟨?_, ?_⟩
  · intro hround hlate
    obtain ⟨text, hformat, hdt⟩ := hround (Vector.replicate 28 0)
    rw [format_eq hdate htime, Outcome.ok.injEq] at hformat
    rw [← hformat, hparse, Outcome.ok.injEq] at hdt
    rw [← hdt, f.toInt_instant, if_pos (hdt ▸ hlate), Time.dayMicros] at hf
    omega
  · intro hlate buf
    rw [if_neg hlate, add_zero] at hf
    rw [hf, ofMicros_toInt] at hparse
    exact ⟨f.text, format_eq hdate htime buf, hparse⟩

/-- A second and a half before 1970 is parsed from its own text. -/
theorem format_parse_1969 :
    (∀ buf, ∃ text, format ⟨-1500000⟩ buf = .ok text ∧
      (parseRFC3339 text).outcome = .ok ⟨-1500000⟩) ↔ ¬LateBefore1970 ⟨-1500000⟩ :=
  format_parse_iff (by decide)

set_option maxRecDepth 4000 in
/-- The microsecond before 1970 is printed as the last one of 1970-01-01. -/
theorem format_parse_neg_one_ne : InPeriod ⟨-1⟩ ∧
    ¬∀ buf, ∃ text, format ⟨-1⟩ buf = .ok text ∧ (parseRFC3339 text).outcome = .ok ⟨-1⟩ := by
  refine ⟨by decide, fun h ↦ ?_⟩
  obtain ⟨text, hformat, hparse⟩ := h (Vector.replicate 28 0)
  have htext : format ⟨-1⟩ (Vector.replicate 28 0) = .ok (ascii "1970-01-01T23:59:59.999999Z") := by
    decide
  rw [htext, Outcome.ok.injEq] at hformat
  rw [← hformat] at hparse
  exact absurd hparse (by decide)

end DateTime
end Datetime
