import Zmongo.Datetime.Layouts

/-!
# What the errors say

An error of `parseRFC3339` names the first part of the text that is wrong.  `Blames s e` is what
each of the five errors says about a text, and `parse_eq_error_iff` is that an error is returned
exactly if it is the one to blame.

Where a date ends does not depend on what follows it, so a text that begins with a date begins with
something that `Date.parse` accepts.  A time in the middle of a text goes on as long as it can be
read on; `TimeThen` says where it ends.
-/

set_option autoImplicit false

open Zig IntType Decimal

namespace Datetime

variable {s l r : List UInt8}

/-! ## Beginnings of a text -/

/-- The text begins with a date that exists, and goes on with `r`. -/
def DateThen (s : List UInt8) (d : Date) (r : List UInt8) : Prop :=
  ∃ D, s = D ++ r ∧ (Date.parse D).outcome = .ok d

/-- The text begins with a time that exists, which cannot be read on, and goes on with `r`.  It may
have a decimal point with nothing behind it, unless that is the end of the text. -/
def TimeThen (l : List UInt8) (t : Time) (r : List UInt8) : Prop :=
  t.Valid ∧ ((∃ X more, l = X ++ r ∧ TimeText X t more ∧ ∀ b ∈ r.head?, ¬more b) ∨
    ∃ hour min sec, l = secondsText hour min sec ++ '.'.toUInt8 :: r ∧ r ≠ [] ∧
      (∀ b ∈ r.head?, ¬IsDigit b) ∧
      t = ⟨.ofNat hour.value, .ofNat min.value, .ofNat sec.value, 0⟩)

/-- A sign, and five characters that are not `00:00`. -/
def Offset (r : List UInt8) : Prop :=
  ∃ sign offset, r = sign :: offset ∧ (sign = '+'.toUInt8 ∨ sign = '-'.toUInt8) ∧
    offset.length = 5 ∧ offset ≠ ascii "00:00"

theorem dateThen_iff {d : Date} : DateThen s d r ↔ Scan.date s = .ok (d, r) := by
  rw [Scan.date_eq_ok_iff, DateThen]
  simp only [date_parse_eq_ok_iff]
  refine ⟨?_, ?_⟩
  · rintro ⟨D, hs, hd, hD⟩
    exact ⟨hd, D, hs, hD⟩
  · rintro ⟨hd, D, hs, hD⟩
    exact ⟨D, hs, hd, hD⟩

theorem timeThen_iff {t : Time} : TimeThen l t r ↔ Scan.time l = .ok (t, r) :=
  Scan.time_eq_ok_iff.symm

/-! ## The errors of the scanners -/

theorem Date.init_failsWith (year : Int16) (month day : UInt8) :
    (Date.init year month day).FailsWith .invalidDate := by
  rw [Date.init]
  split_ifs
  · exact Outcome.failsWith_error _
  · exact Outcome.failsWith_ok _ _

theorem Time.init_failsWith (hour min sec : UInt8) (micros : UInt32) :
    (Time.init hour min sec micros).FailsWith .invalidTime := by
  rw [Time.init]
  split_ifs
  · exact Outcome.failsWith_error _
  · exact Outcome.failsWith_ok _ _

namespace Scan

theorem number_failsWith (n : ℕ) (e : Error) (l : List UInt8) : (number n e l).FailsWith e := by
  rw [number]
  split
  · exact Outcome.failsWith_ok _ _
  · exact Outcome.failsWith_error _

theorem fraction_failsWith (l : List UInt8) : (fraction l).FailsWith .invalidTime := by
  rw [fraction]
  split_ifs
  · exact Outcome.failsWith_error _
  · exact Outcome.failsWith_trap _ _
  · exact Outcome.failsWith_error _
  · exact Outcome.failsWith_ok _ _

/-- What is wrong with a date is `InvalidDate`. -/
theorem date_failsWith (l : List UInt8) : (date l).FailsWith .invalidDate := by
  have hmonthAndDay : ∀ b l, (monthAndDay b l).FailsWith .invalidDate := by
    intro b l
    refine (number_failsWith _ _ _).bind fun x ↦ ?_
    dsimp only
    split_ifs
    · exact Outcome.failsWith_error _
    · exact (number_failsWith _ _ _).bind fun _ ↦ Outcome.failsWith_ok _ _
  refine (number_failsWith _ _ _).bind fun x ↦ (hmonthAndDay _ _).bind fun y ↦ ?_
  exact (Date.init_failsWith _ _ _).bind fun _ ↦ Outcome.failsWith_ok _ _

/-- What is wrong with a time is `InvalidTime`. -/
theorem time_failsWith (l : List UInt8) : (time l).FailsWith .invalidTime := by
  have hinit : ∀ (h m sec : UInt8) (u : UInt32) (r : List UInt8),
      (Time.init h m sec u >>= fun t ↦ (.ok (t, r) : Result _)).FailsWith .invalidTime :=
    fun h m sec u r ↦ (Time.init_failsWith h m sec u).bind fun _ ↦ Outcome.failsWith_ok _ _
  rcases time_shape l with h | ⟨hour, min, r, rfl, hr⟩ | ⟨hour, min, sec, r, rfl, hr⟩ |
    ⟨hour, min, sec, r, rfl⟩
  · rw [h]
    exact Outcome.failsWith_error _
  · rw [time_minutes hour min hr]
    exact hinit _ _ _ _ _
  · rw [time_seconds hour min sec hr]
    exact hinit _ _ _ _ _
  · rw [time_fraction]
    exact (fraction_failsWith r).bind fun x ↦ hinit _ _ _ _ _

theorem time_eq_error_iff {e : Error} : time l = .error e ↔
    e = .invalidTime ∧ (∀ t r, ¬TimeThen l t r) ∧ ¬HugeFraction l := by
  have htrap : ∀ t, time l = .trap t ↔ t = .integerOverflow ∧ HugeFraction l :=
    fun t ↦ time_eq_trap_iff
  simp only [timeThen_iff]
  refine ⟨?_, ?_⟩
  · intro h
    refine ⟨time_failsWith l e h, ?_, ?_⟩
    · intro t r ht
      rw [ht] at h
      cases h
    · intro hf
      rw [(htrap _).mpr ⟨rfl, hf⟩] at h
      cases h
  · rintro ⟨rfl, hok, hf⟩
    cases h : time l with
    | ok x => exact absurd h (hok x.1 x.2)
    | error e => rw [time_failsWith l e h]
    | trap t => exact absurd ((htrap t).mp h).2 hf

theorem utc_eq_offset_iff : utc r = .error .nonUTCNotSupported ↔ Offset r := by
  rw [utc, Offset]
  refine ⟨?_, ?_⟩
  · intro h
    split_ifs at h with h1 hz h6 hsign htail
    · cases h
    · cases h
    · obtain ⟨b, r, rfl⟩ := List.exists_cons_of_length_pos (by omega : 0 < r.length)
      simp only [List.head?_cons, ne_eq, Option.some.injEq, not_and_or, not_not] at hsign
      exact ⟨b, r, rfl, hsign, by simpa using h6, htail⟩
    · cases h
  · rintro ⟨sign, offset, rfl, hsign, hlen, hne⟩
    rw [if_neg (by simp [hlen]), if_pos (by simp [hlen]), if_neg, List.tail_cons, if_pos hne]
    simp only [List.head?_cons, ne_eq, Option.some.injEq]
    exact fun h ↦ hsign.elim h.1 h.2

theorem utc_error_cases {e : Error} (h : utc r = .error e) :
    e = .nonUTCNotSupported ∨ e = .invalidDateTime := by
  rw [utc] at h
  split_ifs at h <;> cases h
  · exact .inr rfl
  · exact .inr rfl
  · exact .inl rfl
  · exact .inr rfl

theorem utc_eq_error_iff {e : Error} : utc r = .error e ↔
    e = .nonUTCNotSupported ∧ Offset r ∨ e = .invalidDateTime ∧ ¬Zone r ∧ ¬Offset r := by
  refine ⟨?_, ?_⟩
  · intro h
    rcases utc_error_cases h with rfl | rfl
    · exact .inl ⟨rfl, utc_eq_offset_iff.mp h⟩
    · refine .inr ⟨rfl, ?_, ?_⟩
      · rw [← utc_eq_ok_iff, h]
        rintro ⟨⟩
      · rw [← utc_eq_offset_iff, h]
        rintro ⟨⟩
  · rintro (⟨rfl, h⟩ | ⟨rfl, hz, ho⟩)
    · exact utc_eq_offset_iff.mpr h
    cases h : utc r with
    | ok x => exact absurd (utc_eq_ok_iff.mp h) hz
    | error e =>
      rcases utc_error_cases h with rfl | rfl
      · exact absurd (utc_eq_offset_iff.mp h) ho
      · rfl
    | trap t => exact absurd h (Outcome.ends_iff.mp (utc_ends r) t)

end Scan

/-! ## The errors of `parseRFC3339` -/

namespace DateTime

/-- The error names what is wrong with the text first. -/
inductive Blames (s : List UInt8) : Error → Prop
  | date (hdate : ∀ d r, ¬DateThen s d r) : Blames s .invalidDate
  | period (d : Date) (r : List UInt8) (hdate : DateThen s d r) (hp : ¬d.InPeriod) :
    Blames s .outsideJulianPeriod
  | separator (d : Date) (b : UInt8) (r : List UInt8) (hdate : DateThen s d (b :: r))
      (hp : d.InPeriod) (hb : b ≠ 'T'.toUInt8) : Blames s .invalidDateTime
  | time (d : Date) (l : List UInt8) (hdate : DateThen s d ('T'.toUInt8 :: l)) (hp : d.InPeriod)
      (htime : ∀ t r, ¬TimeThen l t r) (hf : ¬HugeFraction l) : Blames s .invalidTime
  | zone (d : Date) (l : List UInt8) (t : Time) (r : List UInt8)
      (hdate : DateThen s d ('T'.toUInt8 :: l)) (hp : d.InPeriod) (htime : TimeThen l t r)
      (hz : ¬Zone r) (ho : ¬Offset r) : Blames s .invalidDateTime
  | offset (d : Date) (l : List UInt8) (t : Time) (r : List UInt8)
      (hdate : DateThen s d ('T'.toUInt8 :: l)) (hp : d.InPeriod) (htime : TimeThen l t r)
      (ho : Offset r) : Blames s .nonUTCNotSupported

theorem rfc3339_of_not_inPeriod {d : Date} (hdate : DateThen s d r) (hp : ¬d.InPeriod) :
    Scan.rfc3339 s = .error .outsideJulianPeriod := by
  rw [Date.InPeriod] at hp
  rw [Scan.rfc3339, dateThen_iff.mp hdate, Outcome.ok_bind]
  exact if_pos (by omega)

/-- What can go wrong behind a date.  The instant of a date and a time that exist is no error. -/
theorem rfc3339_eq_error_iff_rest {d : Date} {e : Error} (hdate : DateThen s d r)
    (hp : d.InPeriod) : Scan.rfc3339 s = .error e ↔
      (∃ b l, r = b :: l ∧ b ≠ 'T'.toUInt8 ∧ e = .invalidDateTime) ∨
      ∃ l, r = 'T'.toUInt8 :: l ∧
        (Scan.time l = .error e ∨ ∃ t r', TimeThen l t r' ∧ Scan.utc r' = .error e) := by
  have hscan := dateThen_iff.mp hdate
  have hdv := (Scan.date_eq_ok_iff.mp hscan).1
  have hyear : ¬(d.year.toInt < -4712 ∨ d.year.toInt > 9999) := by
    rw [Date.InPeriod] at hp
    omega
  have htimes : ∀ l, (Scan.time l >>= fun x ↦ Scan.utc x.2 >>= fun _ ↦
      initUTC d.year d.month d.day x.1.hour x.1.min x.1.sec x.1.micros) = .error e ↔
        Scan.time l = .error e ∨ ∃ t r', TimeThen l t r' ∧ Scan.utc r' = .error e := by
    intro l
    rw [Outcome.bind_eq_error_iff]
    refine or_congr_right ⟨?_, ?_⟩
    · rintro ⟨⟨t, r'⟩, htime, h⟩
      refine ⟨t, r', timeThen_iff.mpr htime, ?_⟩
      rcases Outcome.bind_eq_error_iff.mp h with h | ⟨-, -, h⟩
      · exact h
      · rw [initUTC_eq hdv (Scan.time_valid htime) hp] at h
        cases h
    · rintro ⟨t, r', htime, h⟩
      exact ⟨(t, r'), timeThen_iff.mp htime, Outcome.bind_eq_error_iff.mpr (.inl h)⟩
  rw [Scan.rfc3339, hscan, Outcome.ok_bind]
  dsimp only
  rw [if_neg hyear]
  cases r with
  | nil => simp
  | cons b l =>
    rw [if_neg (List.cons_ne_nil b l)]
    by_cases hb : b = 'T'.toUInt8
    · rw [hb, Scan.expect_self, Outcome.ok_bind]
      refine (htimes l).trans ?_
      simp
    · rw [Scan.expect_eq (by simpa using hb), Outcome.error_bind]
      simp [hb, eq_comm]

/-- **The error of a text that is no instant** is the one that names what is wrong first. -/
theorem parse_eq_error_iff (s : List UInt8) (e : Error) :
    (parseRFC3339 s).outcome = .error e ↔ Blames s e := by
  rw [Parser.parseRFC3339_outcome]
  refine ⟨?_, ?_⟩
  · intro h
    by_cases hno : ∀ d r, ¬DateThen s d r
    · cases hdate : Scan.date s with
      | ok x => exact absurd (dateThen_iff.mpr hdate) (hno x.1 x.2)
      | error e' =>
        rw [Scan.rfc3339, hdate, Outcome.error_bind, Outcome.error.injEq] at h
        rw [← h, Scan.date_failsWith s e' hdate]
        exact .date hno
      | trap t => exact absurd hdate (Outcome.ends_iff.mp (Scan.date_ends s) t)
    push Not at hno
    obtain ⟨d, r, hdate⟩ := hno
    by_cases hp : d.InPeriod
    · rcases (rfc3339_eq_error_iff_rest hdate hp).mp h with ⟨b, l, rfl, hb, rfl⟩ |
        ⟨l, rfl, htime | ⟨t, r', htime, hutc⟩⟩
      · exact .separator d b l hdate hp hb
      · obtain ⟨rfl, hok, hf⟩ := Scan.time_eq_error_iff.mp htime
        exact .time d l hdate hp hok hf
      · rcases Scan.utc_eq_error_iff.mp hutc with ⟨rfl, ho⟩ | ⟨rfl, hz, ho⟩
        · exact .offset d l t r' hdate hp htime ho
        · exact .zone d l t r' hdate hp htime hz ho
    · rw [rfc3339_of_not_inPeriod hdate hp, Outcome.error.injEq] at h
      rw [← h]
      exact .period d r hdate hp
  · intro h
    cases h with
    | date hdate =>
      cases h : Scan.date s with
      | ok x => exact absurd (dateThen_iff.mpr h) (hdate x.1 x.2)
      | error e' => rw [Scan.rfc3339, h, Outcome.error_bind, Scan.date_failsWith s e' h]
      | trap t => exact absurd h (Outcome.ends_iff.mp (Scan.date_ends s) t)
    | period d r hdate hp => exact rfc3339_of_not_inPeriod hdate hp
    | separator d b r hdate hp hb =>
      exact (rfc3339_eq_error_iff_rest hdate hp).mpr (.inl ⟨b, r, rfl, hb, rfl⟩)
    | time d l hdate hp htime hf =>
      exact (rfc3339_eq_error_iff_rest hdate hp).mpr
        (.inr ⟨l, rfl, .inl (Scan.time_eq_error_iff.mpr ⟨rfl, htime, hf⟩)⟩)
    | zone d l t r hdate hp htime hz ho =>
      have hutc := Scan.utc_eq_error_iff.mpr (.inr ⟨rfl, hz, ho⟩)
      exact (rfc3339_eq_error_iff_rest hdate hp).mpr (.inr ⟨l, rfl, .inr ⟨t, r, htime, hutc⟩⟩)
    | offset d l t r hdate hp htime ho =>
      have hutc := Scan.utc_eq_error_iff.mpr (.inl ⟨rfl, ho⟩)
      exact (rfc3339_eq_error_iff_rest hdate hp).mpr (.inr ⟨l, rfl, .inr ⟨t, r, htime, hutc⟩⟩)

end DateTime
end Datetime
