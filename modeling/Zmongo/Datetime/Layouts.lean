import Zmongo.Datetime.Bounds

/-!
# The layouts that are parsed

`Date.parse` and `Time.parse` once more, layout by layout: which bytes they accept and which numbers
these are (`date_parse_layouts`, `time_parse_layouts`).

Nothing stops a run of `Date.parse`.  A run of `Time.parse` is stopped by a `HugeFraction`, and that
is all that stops it (`time_parse_eq_trap_iff`): the digits of a fraction are added up to the end of
the run, and only then counted.
-/

set_option autoImplicit false

open Zig IntType Decimal Traced

namespace Datetime

variable {s : List UInt8}

/-! ## Dates -/

/-- The text is `YYYY-MM-DD` or `YYYYMMDD`, with a sign or without, and these are the numbers of the
date. -/
def DateLayout (s : List UInt8) (d : Date) : Prop :=
  ∃ (negative dashes : Bool) (year : Numeral 4) (month day : Numeral 2),
    s = dash negative ++ (year.bytes ++ (dash dashes ++ (month.bytes ++ (dash dashes ++
      day.bytes)))) ∧
    d.year.toInt = (if negative then -(year.value : ℤ) else year.value) ∧
    d.month.toNat = month.value ∧ d.day.toNat = day.value

theorem dateText_iff {d : Date} : DateText s d ↔ DateLayout s d := by
  refine ⟨?_, ?_⟩
  · rintro ⟨negative, dashes, year, month, day⟩
    have hy := year.value_lt
    have hm := month.value_lt
    have hd := day.value_lt
    refine ⟨negative, dashes, year, month, day, rfl, toInt_ofInt_i16 ?_, ?_, ?_⟩
    · rw [holds_i16]
      split_ifs <;> omega
    · exact UInt8.toNat_ofNat_of_lt (by rw [UInt8.size]; omega)
    · exact UInt8.toNat_ofNat_of_lt (by rw [UInt8.size]; omega)
  · rintro ⟨negative, dashes, year, month, day, rfl, hy, hm, hd⟩
    have h := DateText.mk negative dashes year month day
    rwa [← hy, ← hm, ← hd, Int16.ofInt_toInt, UInt8.ofNat_toNat, UInt8.ofNat_toNat] at h

theorem date_parse_ends (s : List UInt8) : (Date.parse s).outcome.Ends := by
  rw [Parser.date_parse_outcome]
  refine (Scan.date_ends s).bind fun x _ ↦ ?_
  split_ifs <;> trivial

theorem date_parse_safe (s : List UInt8) : (Date.parse s).SafeTo s.length fun _ ↦ True := by
  refine (Parser.iso8601Date_safe rfl).bind fun ⟨d, p⟩ _ ↦ ?_
  refine (Parser.unconsumed_safe _ p).bind fun n _ ↦ ?_
  exact safeTo_ite (fun _ ↦ fail_safe _) fun _ ↦ safeTo_pure trivial

/-- **`Date.parse` accepts its grammar**: an optional sign, and the three numbers with both dashes
or with none, of a date that exists.  It stays inside its input, and everything else is an error. -/
theorem date_parse_layouts (s : List UInt8) :
    (∀ e ∈ (Date.parse s).events, e.Within s.length) ∧
    (∀ d, (Date.parse s).outcome = .ok d ↔
      DateLayout s d ∧ Date.valid d.year d.month d.day = true) ∧
    ((∀ d, (Date.parse s).outcome ≠ .ok d) → ∃ e, (Date.parse s).outcome = .error e) := by
  have hends := date_parse_ends s
  refine ⟨(date_parse_safe s).1.within_of_ends hends, ?_, ?_⟩
  · intro d
    rw [date_parse_eq_ok_iff, dateText_iff, Date.Valid, and_comm]
  · intro hok
    cases h : (Date.parse s).outcome with
    | ok d => exact absurd h (hok d)
    | error e => exact ⟨e, rfl⟩
    | trap t => exact absurd h (Outcome.ends_iff.mp hends t)

/-! ## Times -/

/-- The number of microseconds in a fraction of at most nine digits. -/
def fractionMicros (ds : List UInt8) : ℕ := value ds * 10 ^ (9 - ds.length) / 1000

/-- The text is `HH:MM`, `HH:MM:SS` or `HH:MM:SS.F`, and these are the numbers of the time. -/
def TimeLayout (s : List UInt8) (t : Time) : Prop :=
  ∃ hour min : Numeral 2, t.hour.toNat = hour.value ∧ t.min.toNat = min.value ∧
    (s = minutesText hour min ∧ t.sec.toNat = 0 ∧ t.micros.toNat = 0 ∨
      ∃ sec : Numeral 2, t.sec.toNat = sec.value ∧
        (s = secondsText hour min sec ∧ t.micros.toNat = 0 ∨
          ∃ ds, Digits ds ∧ 1 ≤ ds.length ∧ ds.length ≤ 9 ∧
            s = secondsText hour min sec ++ '.'.toUInt8 :: ds ∧
            t.micros.toNat = fractionMicros ds))

theorem exists_timeText_iff {t : Time} : (∃ more, TimeText s t more) ↔ TimeLayout s t := by
  have hnum : ∀ ds : Numeral 2, (UInt8.ofNat ds.value).toNat = ds.value := by
    intro ds
    have hlt := ds.value_lt
    exact UInt8.toNat_ofNat_of_lt (by rw [UInt8.size]; omega)
  have hmicros : ∀ ds : List UInt8, Digits ds → ds.length ≤ 9 →
      (UInt32.ofNat (fractionMicros ds)).toNat = fractionMicros ds := by
    intro ds hds h9
    have hlt := value_mul_pow_lt hds h9
    exact UInt32.toNat_ofNat_of_lt' (by rw [UInt32.size, fractionMicros]; omega)
  refine ⟨?_, ?_⟩
  · rintro ⟨more, h⟩
    cases h with
    | minutes hour min => exact ⟨hour, min, hnum hour, hnum min, .inl ⟨rfl, rfl, rfl⟩⟩
    | seconds hour min sec =>
      exact ⟨hour, min, hnum hour, hnum min, .inr ⟨sec, hnum sec, .inl ⟨rfl, rfl⟩⟩⟩
    | fraction hour min sec ds hds hne h9 =>
      have hpos := List.length_pos_iff.mpr hne
      exact ⟨hour, min, hnum hour, hnum min, .inr ⟨sec, hnum sec, .inr
        ⟨ds, hds, hpos, h9, rfl, hmicros ds hds h9⟩⟩⟩
  · obtain ⟨h, m, sec', u⟩ := t
    rintro ⟨hour, min, hh, hm, hrest⟩
    obtain rfl : h = .ofNat hour.value := UInt8.toNat_inj.mp (hh.trans (hnum hour).symm)
    obtain rfl : m = .ofNat min.value := UInt8.toNat_inj.mp (hm.trans (hnum min).symm)
    rcases hrest with ⟨rfl, hs, hu⟩ | ⟨sec, hs, hrest⟩
    · obtain rfl : sec' = 0 := UInt8.toNat_inj.mp hs
      obtain rfl : u = 0 := UInt32.toNat_inj.mp hu
      exact ⟨_, .minutes hour min⟩
    obtain rfl : sec' = .ofNat sec.value := UInt8.toNat_inj.mp (hs.trans (hnum sec).symm)
    rcases hrest with ⟨rfl, hu⟩ | ⟨ds, hds, hpos, h9, rfl, hu⟩
    · obtain rfl : u = 0 := UInt32.toNat_inj.mp hu
      exact ⟨_, .seconds hour min sec⟩
    · obtain rfl : u = .ofNat (fractionMicros ds) :=
        UInt32.toNat_inj.mp (hu.trans (hmicros ds hds h9).symm)
      exact ⟨_, .fraction hour min sec ds hds (List.length_pos_iff.mp hpos) h9⟩

/-- **`Time.parse` accepts its grammar**: hours and minutes, with seconds or without, and after the
seconds a fraction of one to nine digits, of which microseconds are kept. -/
theorem time_parse_layouts (s : List UInt8) (t : Time) : (Time.parse s).outcome = .ok t ↔
    TimeLayout s t ∧ t.hour.toNat ≤ 23 ∧ t.min.toNat ≤ 59 ∧ t.sec.toNat ≤ 59 := by
  rw [time_parse_eq_ok_iff, exists_timeText_iff, Time.Valid, Time.valid_iff]
  refine ⟨?_, ?_⟩
  · rintro ⟨⟨hh, hm, hs, -⟩, htext⟩
    exact ⟨htext, hh, hm, hs⟩
  · rintro ⟨htext, hh, hm, hs⟩
    refine ⟨⟨hh, hm, hs, ?_⟩, htext⟩
    obtain ⟨_, _, -, -, ⟨-, -, hu⟩ | ⟨_, -, ⟨-, hu⟩ | ⟨ds, hds, -, h9, -, hu⟩⟩⟩ := htext
    · omega
    · omega
    · have hlt := value_mul_pow_lt hds h9
      rw [hu, fractionMicros]
      omega

/-! ## Long fractions -/

/-- The text is a time with seconds and a fraction of ten digits or more. -/
def Overlong (s : List UInt8) : Prop :=
  ∃ hour min sec ds, s = secondsText hour min sec ++ (ascii "." ++ ds) ∧ Digits ds ∧
    10 ≤ ds.length

/-- The fraction begins with digits of a value of more than 64 bits. -/
def HugeFraction (s : List UInt8) : Prop :=
  ∃ hour min sec ds r, s = secondsText hour min sec ++ (ascii "." ++ (ds ++ r)) ∧ Digits ds ∧
    2 ^ 64 ≤ value ds

theorem time_parse_eq_trap_iff {t : Trap} : (Time.parse s).outcome = .trap t ↔
    HugeFraction s ∧ t = .integerOverflow := by
  rw [Parser.time_parse_outcome, Outcome.bind_eq_trap_iff, Scan.time_eq_trap_iff]
  refine ⟨?_, ?_⟩
  · rintro (⟨ht, h⟩ | ⟨x, -, h⟩)
    · exact ⟨h, ht⟩
    · split_ifs at h
  · rintro ⟨h, ht⟩
    exact .inl ⟨ht, h⟩

/-- Digits that fit are counted in the end, and ten of them are too many. -/
theorem time_parse_of_overlong (h : Overlong s) (hs : ¬HugeFraction s) :
    (Time.parse s).outcome = .error .invalidTime := by
  obtain ⟨hour, min, sec, ds, rfl, hds, hlen⟩ := h
  have h64 : ¬2 ^ 64 ≤ value ds := by
    intro h64
    exact hs ⟨hour, min, sec, ds, [], by rw [List.append_nil], hds, h64⟩
  have hrun : run ds = ds := by
    have h := run_append (r := []) hds (by simp)
    rwa [List.append_nil] at h
  have hfraction : Scan.fraction ds = .error .invalidTime := by
    rw [Scan.fraction, hrun, if_neg (by rintro rfl; simp at hlen), if_neg h64, if_pos (by omega)]
  have htime := Scan.time_fraction hour min sec ds
  rw [hfraction, Outcome.error_bind] at htime
  rw [Parser.time_parse_outcome]
  exact (congrArg (· >>= _) htime).trans rfl

/-- A run on the text is not stopped, and if the fraction is too long the result is the error. -/
def RejectsOverlong (s : List UInt8) : Prop :=
  (∀ t, (Time.parse s).outcome ≠ .trap t) ∧
    (Overlong s → (Time.parse s).outcome = .error .invalidTime)

/-- **A fraction that is too long is rejected** unless its value does not fit 64 bits. -/
theorem time_parse_overlong_iff (s : List UInt8) : RejectsOverlong s ↔ ¬HugeFraction s := by
  refine ⟨?_, ?_⟩
  · rintro ⟨htrap, -⟩ hs
    exact htrap _ (time_parse_eq_trap_iff.mpr ⟨hs, rfl⟩)
  · intro hs
    exact ⟨fun t ht ↦ hs (time_parse_eq_trap_iff.mp ht).1, fun h ↦ time_parse_of_overlong h hs⟩

set_option maxRecDepth 4000 in
/-- The fraction has twenty digits, and they are worth `2 ^ 64`. -/
theorem time_parse_two_pow_64_not_rejected :
    ¬RejectsOverlong (ascii "10:20:30.18446744073709551616") := by
  have htrap : (Time.parse (ascii "10:20:30.18446744073709551616")).outcome =
      .trap .integerOverflow := by decide
  exact fun h ↦ h.1 _ htrap

end Datetime
