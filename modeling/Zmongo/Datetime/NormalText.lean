import Zmongo.Datetime.Normal
import Zmongo.Datetime.Printed
import Zmongo.Datetime.Unix

/-!
# Normal forms of times and instants

Which of the texts that are parsed are printed again as they are.  Of a time it is the `NormalTime`
texts, with seconds and with no fraction, one of three digits that is not zero, or one of six that
does not end in three zeros (`time_format_parse_iff`).  Of an instant it is the texts that are put
together of a normal date, a normal time and `Z`, unless the instant is `LateBefore1970`
(`DateTime.parse_format_iff`).
-/

set_option autoImplicit false

open Zig IntType Decimal

namespace Datetime

/-! ## Times -/

/-- The fraction is as short as the writer makes it. -/
def NormalFraction (r : List UInt8) : Prop :=
  r = [] ∨ (∃ ms : Numeral 3, ms.value ≠ 0 ∧ r = '.'.toUInt8 :: ms.bytes) ∨
    ∃ us : Numeral 6, us.value % 1000 ≠ 0 ∧ r = '.'.toUInt8 :: us.bytes

/-- The text has seconds, and a normal fraction. -/
def NormalTime (s : List UInt8) : Prop :=
  ∃ hour min sec r, s = secondsText hour min sec ++ r ∧ NormalFraction r

theorem secondsText_append_inj {hour hour' min min' sec sec' : Numeral 2} {r r' : List UInt8}
    (h : secondsText hour min sec ++ r = secondsText hour' min' sec' ++ r') :
    hour = hour' ∧ min = min' ∧ sec = sec' ∧ r = r' := by
  simp only [secondsText, minutesText, List.append_assoc, List.cons_append] at h
  obtain ⟨hhour, h⟩ := Numeral.append_inj h
  obtain ⟨hmin, h⟩ := Numeral.append_inj (List.cons.inj h).2
  obtain ⟨hsec, h⟩ := Numeral.append_inj (List.cons.inj h).2
  exact ⟨hhour, hmin, hsec, h⟩

theorem Time.text_eq (t : Time) : t.text = secondsText (.ofNat 2 t.hour.toNat)
    (.ofNat 2 t.min.toNat) (.ofNat 2 t.sec.toNat) ++ fractionText t.micros.toNat := by
  simp [Time.text, secondsText, minutesText, Numeral.ofNat]

theorem normalFraction_fractionText {u : ℕ} (hu : u < 10 ^ 6) :
    NormalFraction (fractionText u) := by
  rw [fractionText]
  split_ifs with h h'
  · exact .inl rfl
  · refine .inr (.inl ⟨.ofNat 3 (u / 1000), ?_, rfl⟩)
    rw [Numeral.value_ofNat (by omega)]
    omega
  · refine .inr (.inr ⟨.ofNat 6 u, ?_, rfl⟩)
    rwa [Numeral.value_ofNat hu]

/-- What is printed of the microseconds in a normal fraction is the fraction. -/
theorem NormalFraction.fractionText_eq {ds : List UInt8} (h : NormalFraction ('.'.toUInt8 :: ds)) :
    fractionText (fractionMicros ds) = '.'.toUInt8 :: ds := by
  rcases h with h | ⟨ms, hms, h⟩ | ⟨us, hus, h⟩
  · cases h
  · obtain rfl : ds = ms.bytes := (List.cons.inj h).2
    have hmicros : fractionMicros ms.bytes = ms.value * 1000 := by
      rw [fractionMicros, ms.length_bytes, Numeral.value]
      omega
    rw [hmicros, fractionText, if_neg (by omega), if_pos (by omega),
      Nat.mul_div_cancel _ (by omega)]
    exact congrArg _ (congrArg Numeral.bytes ms.ofNat_value)
  · obtain rfl : ds = us.bytes := (List.cons.inj h).2
    have hmicros : fractionMicros us.bytes = us.value := by
      rw [fractionMicros, us.length_bytes, Numeral.value]
      omega
    rw [hmicros, fractionText, if_neg (by omega), if_neg hus]
    exact congrArg _ (congrArg Numeral.bytes us.ofNat_value)

theorem normalTime_text {t : Time} (ht : t.Valid) : NormalTime t.text := by
  have hu := (Time.valid_iff.mp ht).2.2.2
  exact ⟨_, _, _, _, t.text_eq, normalFraction_fractionText (by omega)⟩

/-- A normal text of a time is what is printed. -/
theorem TimeLayout.text_eq {s : List UInt8} {t : Time} (h : TimeLayout s t) (hs : NormalTime s) :
    t.text = s := by
  obtain ⟨hour', min', sec', r', hs', hr⟩ := hs
  obtain ⟨hour, min, hhour, hmin, ⟨hlayout, -⟩ | ⟨sec, hsec, hlayout⟩⟩ := h
  · have hlen := congrArg List.length (hlayout.symm.trans hs')
    rw [length_minutesText, List.length_append, length_secondsText] at hlen
    omega
  rw [t.text_eq, hhour, hmin, hsec, hour.ofNat_value, min.ofNat_value, sec.ofNat_value]
  rcases hlayout with ⟨hlayout, hmicros⟩ | ⟨ds, hds, hpos, h9, hlayout, hmicros⟩
  · rw [hmicros, hlayout]
    simp [fractionText]
  · obtain ⟨-, -, -, rfl⟩ := secondsText_append_inj (hlayout.symm.trans hs')
    rw [hmicros, hr.fractionText_eq, hlayout]

/-- **The texts of times that are printed as they are**: the normal ones. -/
theorem time_format_parse_iff {s : List UInt8} {t : Time} (h : (Time.parse s).outcome = .ok t)
    (buf : Vector UInt8 15) : t.format buf = .ok s ↔ NormalTime s := by
  obtain ⟨ht, htext⟩ := time_parse_eq_ok_iff.mp h
  rw [Time.format_eq ht, Outcome.ok.injEq]
  refine ⟨?_, ?_⟩
  · rintro rfl
    exact normalTime_text ht
  · exact (exists_timeText_iff.mp htext).text_eq

/-- A fraction of two digits is printed with three. -/
theorem time_format_parse_two_digits :
    Time.format ⟨1, 2, 3, 450000⟩ (Vector.replicate 15 0) = .ok (ascii "01:02:03.45") ↔
      NormalTime (ascii "01:02:03.45") :=
  time_format_parse_iff (by decide) _

/-! ## Instants -/

namespace DateTime

/-- The text is put together of a dashed date, with no sign in front of the year 0, a normal time
and `Z`. -/
def NormalInstant (s : List UInt8) : Prop :=
  ∃ negative year month day X, (negative = true → year.value ≠ 0) ∧ NormalTime X ∧
    s = layout negative true year month day ++ 'T'.toUInt8 :: (X ++ ['Z'.toUInt8])

theorem layout_append_inj {negative negative' dashes dashes' : Bool} {year year' : Numeral 4}
    {month month' day day' : Numeral 2} {r r' : List UInt8}
    (h : layout negative dashes year month day ++ r =
      layout negative' dashes' year' month' day' ++ r') :
    layout negative dashes year month day = layout negative' dashes' year' month' day' ∧
      r = r' := by
  have hlayout := h
  simp only [layout, List.append_assoc] at h
  obtain ⟨hnegative, h⟩ := dash_append_inj h
  obtain ⟨hyear, h⟩ := Numeral.append_inj h
  obtain ⟨hdashes, h⟩ := dash_append_inj h
  obtain ⟨hmonth, h⟩ := Numeral.append_inj h
  obtain ⟨-, h⟩ := dash_append_inj h
  obtain ⟨hday, h⟩ := Numeral.append_inj h
  exact ⟨by rw [hnegative, hyear, hdashes, hmonth, hday], h⟩

/-- A sign in front of the year 0 is the one thing that is not normal in a dashed date. -/
theorem not_zero_prefix {negative dashes : Bool} {year : Numeral 4} {month day : Numeral 2}
    (h : negative = true → year.value ≠ 0) :
    ¬ascii "-0000" <+: layout negative dashes year month day := by
  rintro ⟨r, hr⟩
  have hzero : ascii "-0000" ++ r = dash true ++ ((Numeral.ofNat 4 0).bytes ++ r) := rfl
  rw [hzero, layout] at hr
  obtain ⟨hnegative, hr⟩ := dash_append_inj hr
  obtain ⟨hyear, -⟩ := Numeral.append_inj hr
  refine h hnegative.symm ?_
  rw [← hyear, Numeral.value_ofNat (by omega)]

theorem normalInstant_text (f : Fields) : NormalInstant f.text := by
  have hp := f.inPeriod
  rw [Date.InPeriod] at hp
  have htext : f.text = f.date.text ++ 'T'.toUInt8 :: (f.time.text ++ ['Z'.toUInt8]) := by
    simp [Fields.text]
  refine ⟨decide (f.date.year.toInt < 0), .ofNat 4 f.date.year.toInt.natAbs,
    .ofNat 2 f.date.month.toNat, .ofNat 2 f.date.day.toNat, f.time.text, ?_,
    normalTime_text f.time_valid, ?_⟩
  · intro hneg
    rw [decide_eq_true_iff] at hneg
    rw [Numeral.value_ofNat (by omega)]
    omega
  · rw [htext, f.date.text_eq]
    rfl

/-- `Z` is the one suffix that ends in `Z`. -/
theorem append_zone_inj {X X' Z : List UInt8} (hZ : Zone Z)
    (h : X' ++ ['Z'.toUInt8] = X ++ Z) : X' = X := by
  have hlast := congrArg List.getLast? h
  rcases hZ with rfl | rfl | rfl
  · exact List.append_cancel_right h
  · exact absurd (by simpa [ascii] using hlast : 'Z'.toUInt8 = '0'.toUInt8) (by decide)
  · exact absurd (by simpa [ascii] using hlast : 'Z'.toUInt8 = '0'.toUInt8) (by decide)

/-- A point at the end is not a normal fraction. -/
theorem not_normalTime_point (hour min sec : Numeral 2) :
    ¬NormalTime (secondsText hour min sec ++ ['.'.toUInt8]) := by
  rintro ⟨hour', min', sec', r, h, hr⟩
  obtain ⟨-, -, -, rfl⟩ := secondsText_append_inj h
  rcases hr with h | ⟨ms, -, h⟩ | ⟨us, -, h⟩
  · cases h
  · exact ms.bytes_ne_nil (List.cons.inj h).2.symm
  · exact us.bytes_ne_nil (List.cons.inj h).2.symm

/-- A normal text is that of the fields it is parsed as. -/
theorem NormalInstant.text_eq {s : List UInt8} {dt : DateTime} (hs : NormalInstant s)
    (h : (parseRFC3339 s).outcome = .ok dt) :
    ∃ f : Fields, f.text = s ∧ f.instant = dt.micros.toInt := by
  obtain ⟨negative, year, month, day, X, hzero, hX, rfl⟩ := hs
  obtain ⟨d, t, l, Z, hdate, hp, htime, hZ, hdt⟩ := parse_eq_ok_iff.mp h
  obtain ⟨hd, D, hD, hdateText⟩ := Scan.date_eq_ok_iff.mp hdate
  have hlayout := dateText_iff.mp hdateText
  obtain ⟨_, _, _, _, _, hDlayout, -⟩ := id hlayout
  rw [← layout] at hDlayout
  obtain ⟨hDD, hl⟩ := layout_append_inj (hDlayout ▸ hD)
  obtain ⟨-, rfl⟩ := List.cons.inj hl
  rw [← hDlayout] at hDD
  have hdtext : d.text = D :=
    hlayout.text_eq ⟨negative, year, month, day, hDD.symm⟩ (hDD ▸ not_zero_prefix hzero)
  obtain ⟨ht, ⟨X', more, hXX, hX', -⟩ | ⟨hour, min, sec, hXX, -⟩⟩ := Scan.time_eq_ok_iff.mp htime
  · obtain rfl := append_zone_inj hZ hXX
    have httext := (exists_timeText_iff.mp ⟨more, hX'⟩).text_eq hX
    let f : Fields := ⟨d, t, hd, ht, hp⟩
    have hf : f.initUTC = .ok dt := hdt
    rw [f.initUTC_eq, Outcome.ok.injEq] at hf
    refine ⟨f, ?_, by rw [← hf, f.toInt_instant]⟩
    rw [Fields.text, hdtext, httext, hDD]
    simp
  · rw [← List.singleton_append (l := Z), ← List.append_assoc] at hXX
    rw [append_zone_inj hZ hXX] at hX
    exact absurd hX (not_normalTime_point hour min sec)

/-- **The texts of instants that are printed as they are**: the normal ones, if the instant is not
late before 1970. -/
theorem parse_format_iff {s : List UInt8} {dt : DateTime} (h : (parseRFC3339 s).outcome = .ok dt)
    (buf : Vector UInt8 28) : dt.format buf = .ok s ↔ NormalInstant s ∧ ¬dt.LateBefore1970 := by
  obtain ⟨g, hdate, htime, hg⟩ := exists_printed (parse_millis h).1
  rw [format_eq hdate htime, Outcome.ok.injEq]
  refine ⟨?_, ?_⟩
  · rintro rfl
    refine ⟨normalInstant_text g, fun hlate ↦ ?_⟩
    rw [parse_text, Outcome.ok.injEq] at h
    rw [← g.toInt_instant, h, printed, if_pos hlate, Time.dayMicros] at hg
    omega
  · rintro ⟨hs, hlate⟩
    obtain ⟨f, hf, hinst⟩ := hs.text_eq h
    rw [printed_of_not_late hlate, ← hinst] at hg
    rw [Fields.instant_injective hg, hf]

set_option maxRecDepth 4000 in
/-- A suffix of six characters is printed as `Z`. -/
theorem parse_format_zone : format ⟨-1500000⟩ (Vector.replicate 28 0) =
    .ok (ascii "1969-12-31T23:59:58.500+00:00") ↔
      NormalInstant (ascii "1969-12-31T23:59:58.500+00:00") ∧ ¬LateBefore1970 ⟨-1500000⟩ :=
  parse_format_iff (by decide) _

end DateTime
end Datetime
