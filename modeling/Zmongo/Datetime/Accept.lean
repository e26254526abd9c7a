import Zmongo.Datetime.Calendar
import Zmongo.Datetime.Refine

/-!
# What the parser accepts

`Date.parse` and `Time.parse` accept the texts of dates and times that exist
(`date_parse_eq_ok_iff`, `time_parse_eq_ok_iff`).  `parseRFC3339` is to accept what is `Composed` of
such texts, and it does (`parse_of_composed`).  It accepts one kind of text besides: in an
`EmptyFraction` the suffix follows right after a decimal point.  At the end of the input a point
with no digits behind it is an error, but in front of a suffix the scanner takes the empty run of
digits for a fraction.
-/

set_option autoImplicit false

open Zig Decimal

namespace Datetime

/-! ## The grammar, from outside -/

theorem length_minutesText (hour min : Numeral 2) : (minutesText hour min).length = 5 := by
  rw [minutesText, List.length_append, List.length_cons, hour.length_bytes, min.length_bytes]

theorem length_secondsText (hour min sec : Numeral 2) : (secondsText hour min sec).length = 8 := by
  rw [secondsText, List.length_append, List.length_cons, length_minutesText, sec.length_bytes]

theorem Zone.ne_nil {Z : List UInt8} (h : Zone Z) : Z ≠ [] := by
  rcases h with rfl | rfl | rfl <;> decide

/-- A suffix does not begin with anything that would be read as more of a time. -/
theorem Zone.not_more {Z X : List UInt8} {t : Time} {more : UInt8 → Prop} (h : Zone Z)
    (hX : TimeText X t more) : ∀ b ∈ Z.head?, ¬more b := by
  rcases h with rfl | rfl | rfl <;> rintro b ⟨rfl⟩ <;> cases hX <;> decide

theorem Zone.not_isDigit {Z : List UInt8} (h : Zone Z) : ∀ b ∈ Z.head?, ¬IsDigit b := by
  rcases h with rfl | rfl | rfl <;> rintro b ⟨rfl⟩ <;> decide

/-! ## What follows a text -/

namespace Scan

theorem date_append {D : List UInt8} {d : Date} (hd : d.Valid) (hD : DateText D d)
    (r : List UInt8) : date (D ++ r) = .ok (d, r) :=
  date_eq_ok_iff.mpr ⟨hd, D, rfl, hD⟩

theorem time_append_zone {X Z : List UInt8} {t : Time} {more : UInt8 → Prop} (ht : t.Valid)
    (hX : TimeText X t more) (hZ : Zone Z) : time (X ++ Z) = .ok (t, Z) :=
  time_eq_ok_iff.mpr ⟨ht, .inl ⟨X, more, rfl, hX, hZ.not_more hX⟩⟩

/-- A suffix right after the decimal point: there the run of digits is empty, and is read. -/
theorem time_append_point {hour min sec : Numeral 2} {t : Time} {Z : List UInt8} (ht : t.Valid)
    (h : t = ⟨.ofNat hour.value, .ofNat min.value, .ofNat sec.value, 0⟩) (hZ : Zone Z) :
    time (secondsText hour min sec ++ '.'.toUInt8 :: Z) = .ok (t, Z) :=
  time_eq_ok_iff.mpr ⟨ht, .inr ⟨hour, min, sec, rfl, hZ.ne_nil, hZ.not_isDigit, h⟩⟩

end Scan

/-! ## `Date.parse` and `Time.parse` -/

theorem date_parse_eq_ok_iff {s : List UInt8} {d : Date} :
    (Date.parse s).outcome = .ok d ↔ d.Valid ∧ DateText s d := by
  rw [Parser.date_parse_outcome, Outcome.bind_eq_ok_iff]
  refine ⟨?_, ?_⟩
  · rintro ⟨⟨d', r⟩, hdate, h⟩
    split_ifs at h with hr
    rw [Outcome.ok.injEq] at h
    obtain ⟨hv, ds, rfl, hds⟩ := Scan.date_eq_ok_iff.mp hdate
    dsimp only at h hr
    rw [hr, List.append_nil]
    exact ⟨h ▸ hv, h ▸ hds⟩
  · rintro ⟨hv, hds⟩
    have hdate := Scan.date_append hv hds []
    rw [List.append_nil] at hdate
    exact ⟨_, hdate, rfl⟩

theorem time_parse_eq_ok_iff {s : List UInt8} {t : Time} :
    (Time.parse s).outcome = .ok t ↔ t.Valid ∧ ∃ more, TimeText s t more := by
  rw [Parser.time_parse_outcome, Outcome.bind_eq_ok_iff]
  refine ⟨?_, ?_⟩
  · rintro ⟨⟨t', r⟩, htime, h⟩
    split_ifs at h with hr
    rw [Outcome.ok.injEq] at h
    dsimp only at h hr
    rw [hr, h] at htime
    obtain ⟨hv, ⟨ds, more, rfl, hds, -⟩ | ⟨_, _, _, _, hne, -⟩⟩ := Scan.time_eq_ok_iff.mp htime
    · exact ⟨hv, more, by rwa [List.append_nil]⟩
    · exact absurd rfl hne
  · rintro ⟨hv, more, hds⟩
    exact ⟨(t, []), Scan.time_eq_ok_iff.mpr ⟨hv, .inl ⟨s, more, by simp, hds, by simp⟩⟩, rfl⟩

namespace DateTime

/-! ## `parseRFC3339` -/

theorem parse_eq_ok_iff {s : List UInt8} {dt : DateTime} : (parseRFC3339 s).outcome = .ok dt ↔
    ∃ d t l Z, Scan.date s = .ok (d, 'T'.toUInt8 :: l) ∧ d.InPeriod ∧ Scan.time l = .ok (t, Z) ∧
      Zone Z ∧ initUTC d.year d.month d.day t.hour t.min t.sec t.micros = .ok dt := by
  rw [Parser.parseRFC3339_outcome, Scan.rfc3339, Outcome.bind_eq_ok_iff]
  refine ⟨?_, ?_⟩
  · rintro ⟨⟨d, l1⟩, hdate, h⟩
    dsimp only at h
    split_ifs at h with hyear hnil
    obtain ⟨l, hl, h⟩ := Outcome.bind_eq_ok_iff.mp h
    obtain ⟨⟨t, Z⟩, htime, h⟩ := Outcome.bind_eq_ok_iff.mp h
    obtain ⟨⟨⟩, hZ, h⟩ := Outcome.bind_eq_ok_iff.mp h
    rw [Scan.expect_eq_ok_iff] at hl
    rw [hl] at hdate
    exact ⟨d, t, l, Z, hdate, by rw [Date.InPeriod]; omega, htime, Scan.utc_eq_ok_iff.mp hZ, h⟩
  · rintro ⟨d, t, l, Z, hdate, hp, htime, hZ, h⟩
    rw [Date.InPeriod] at hp
    refine ⟨_, hdate, ?_⟩
    dsimp only
    rw [if_neg (by omega), if_neg (List.cons_ne_nil _ _), Scan.expect_self, Outcome.ok_bind, htime,
      Outcome.ok_bind, Scan.utc_eq_ok_iff.mpr hZ, Outcome.ok_bind, h]

/-- The text is composed of a date, `T`, a time and a suffix, and `dt` is the instant of the date
and the time. -/
def Composed (s : List UInt8) (dt : DateTime) : Prop :=
  ∃ D X Z d t, s = D ++ (ascii "T" ++ (X ++ Z)) ∧ (Date.parse D).outcome = .ok d ∧ d.InPeriod ∧
    (Time.parse X).outcome = .ok t ∧ Zone Z ∧
    initUTC d.year d.month d.day t.hour t.min t.sec t.micros = .ok dt

/-- The text is composed in the same way, of a time with seconds, but for a decimal point in front
of the suffix. -/
def EmptyFraction (s : List UInt8) : Prop :=
  ∃ D X Z d t, s = D ++ (ascii "T" ++ (X ++ (ascii "." ++ Z))) ∧ (Date.parse D).outcome = .ok d ∧
    d.InPeriod ∧ (Time.parse X).outcome = .ok t ∧ X.length = 8 ∧ Zone Z

/-- A time of eight characters is one with seconds. -/
theorem exists_secondsText {X : List UInt8} {t : Time} {more : UInt8 → Prop}
    (h : TimeText X t more) (hlen : X.length = 8) : ∃ hour min sec,
      X = secondsText hour min sec ∧
        t = ⟨.ofNat hour.value, .ofNat min.value, .ofNat sec.value, 0⟩ := by
  cases h with
  | minutes hour min => rw [length_minutesText] at hlen; omega
  | seconds hour min sec => exact ⟨hour, min, sec, rfl, rfl⟩
  | fraction hour min sec ds hds hne h9 =>
    rw [List.length_append, length_secondsText, List.length_cons] at hlen
    omega

theorem parse_of_composed {s : List UInt8} {dt : DateTime} (h : Composed s dt) :
    (parseRFC3339 s).outcome = .ok dt := by
  obtain ⟨D, X, Z, d, t, rfl, hD, hp, hX, hZ, hdt⟩ := h
  obtain ⟨hd, hD⟩ := date_parse_eq_ok_iff.mp hD
  obtain ⟨ht, more, hX⟩ := time_parse_eq_ok_iff.mp hX
  exact parse_eq_ok_iff.mpr
    ⟨d, t, X ++ Z, Z, Scan.date_append hd hD _, hp, Scan.time_append_zone ht hX hZ, hZ, hdt⟩

/-- Nothing else is accepted than what is composed, but for the empty fractions. -/
theorem composed_or_emptyFraction {s : List UInt8} {dt : DateTime}
    (h : (parseRFC3339 s).outcome = .ok dt) : Composed s dt ∨ EmptyFraction s := by
  obtain ⟨d, t, l, Z, hdate, hp, htime, hZ, hdt⟩ := parse_eq_ok_iff.mp h
  obtain ⟨hd, D, rfl, hD⟩ := Scan.date_eq_ok_iff.mp hdate
  have hD := date_parse_eq_ok_iff.mpr ⟨hd, hD⟩
  obtain ⟨ht, ⟨X, more, rfl, hX, -⟩ | ⟨hour, min, sec, rfl, -, -, ht'⟩⟩ :=
    Scan.time_eq_ok_iff.mp htime
  · exact .inl ⟨D, X, Z, d, t, rfl, hD, hp, time_parse_eq_ok_iff.mpr ⟨ht, more, hX⟩, hZ, hdt⟩
  · have hX := TimeText.seconds hour min sec
    rw [← ht'] at hX
    exact .inr ⟨D, _, Z, d, t, rfl, hD, hp, time_parse_eq_ok_iff.mpr ⟨ht, _, hX⟩,
      length_secondsText hour min sec, hZ⟩

/-- No time ends in a decimal point. -/
theorem not_timeText_point {hour min sec : Numeral 2} {t : Time} {more : UInt8 → Prop} :
    ¬TimeText (secondsText hour min sec ++ ascii ".") t more := by
  intro h
  have hlen : (secondsText hour min sec ++ ascii ".").length = 9 := by
    rw [List.length_append, length_secondsText]
    rfl
  generalize secondsText hour min sec ++ ascii "." = X at h hlen
  cases h with
  | minutes hour min => rw [length_minutesText] at hlen; omega
  | seconds hour min sec => rw [length_secondsText] at hlen; omega
  | fraction hour min sec ds hds hne h9 =>
    have hpos := List.length_pos_iff.mpr hne
    rw [List.length_append, length_secondsText, List.length_cons] at hlen
    omega

/-- An empty fraction is accepted, and is not composed of anything. -/
theorem EmptyFraction.parse {s : List UInt8} (h : EmptyFraction s) :
    ∃ dt, (parseRFC3339 s).outcome = .ok dt ∧ ∀ dt, ¬Composed s dt := by
  obtain ⟨D, X, Z, d, t, rfl, hD, hp, hX, hlen, hZ⟩ := h
  obtain ⟨hd, hD⟩ := date_parse_eq_ok_iff.mp hD
  obtain ⟨ht, more, hX⟩ := time_parse_eq_ok_iff.mp hX
  obtain ⟨hour, min, sec, rfl, ht'⟩ := exists_secondsText hX hlen
  have hdate := Scan.date_append hd hD (ascii "T" ++ (secondsText hour min sec ++ (ascii "." ++ Z)))
  have htime := Scan.time_append_point ht ht' hZ
  refine ⟨_, parse_eq_ok_iff.mpr ⟨d, t, _, Z, hdate, hp, htime, hZ, initUTC_eq hd ht hp⟩, ?_⟩
  rintro dt ⟨D', X', Z', d', t', hs, hD', -, hX', hZ', -⟩
  obtain ⟨hd', hD'⟩ := date_parse_eq_ok_iff.mp hD'
  obtain ⟨ht', more', hX'⟩ := time_parse_eq_ok_iff.mp hX'
  -- the scanners are functions, so both readings of the text end the time at the same place
  rw [hs, Scan.date_append hd' hD', Outcome.ok.injEq, Prod.mk.injEq] at hdate
  have hrest : X' ++ Z' = secondsText hour min sec ++ (ascii "." ++ Z) :=
    List.append_cancel_left hdate.2
  have htime' := Scan.time_append_zone ht' hX' hZ'
  rw [hrest] at htime'
  have hZZ : Z = Z' := congrArg Prod.snd (Outcome.ok.inj (htime.symm.trans htime'))
  rw [← hZZ, ← List.append_assoc] at hrest
  rw [List.append_cancel_right hrest] at hX'
  exact not_timeText_point hX'

/-- **`parseRFC3339` accepts what is composed of dates and times**, on every text but an empty
fraction. -/
theorem parseRFC3339_composed_iff (s : List UInt8) :
    (∀ dt, (parseRFC3339 s).outcome = .ok dt ↔ Composed s dt) ↔ ¬EmptyFraction s := by
  refine ⟨?_, ?_⟩
  · intro h hs
    obtain ⟨dt, hdt, hnot⟩ := hs.parse
    exact hnot dt ((h dt).mp hdt)
  · intro h dt
    exact ⟨fun hdt ↦ (composed_or_emptyFraction hdt).resolve_right h, parse_of_composed⟩

set_option maxRecDepth 4000 in
/-- With a point right before the `Z`, the time of day is none that `Time.parse` accepts. -/
theorem parse_2023_point_not_composed :
    ¬∀ dt, (parseRFC3339 (ascii "2023-01-01T10:20:30.Z")).outcome = .ok dt ↔
      Composed (ascii "2023-01-01T10:20:30.Z") dt := by
  have hempty : EmptyFraction (ascii "2023-01-01T10:20:30.Z") :=
    ⟨ascii "2023-01-01", ascii "10:20:30", ascii "Z", ⟨2023, 1, 1⟩, ⟨10, 20, 30, 0⟩, by decide,
      by decide, by decide, by decide, by decide, .inl rfl⟩
  intro h
  obtain ⟨dt, hdt, hnot⟩ := hempty.parse
  exact hnot dt ((h dt).mp hdt)

end DateTime
end Datetime
