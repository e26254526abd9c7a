import Zmongo.Datetime.RoundTrip
import Zmongo.Datetime.Add

/-!
# The instant that is printed

What `date` and `time` return, and what `format` prints, are the fields of the instant itself or,
if it is `LateBefore1970`, those of the instant a day later (`exists_printed`).  So `printed` is all
that has to be known of an instant to say

* which instants are printed alike (`format_eq_iff`),
* when the fields go back although the instant goes on (`fields_order_iff`),
* what a day more or less does to the fields (`add_days_fields`),
* where an instant ends that is printed and parsed again and again (`resaves_eq`): at the last
  second of 1970-01-01 in the end, a day at a time.
-/

set_option autoImplicit false

open Zig IntType

namespace Datetime

/-- Fields are parsed from their own text, and so no other fields have it. -/
theorem Fields.text_injective : Function.Injective Fields.text := by
  intro f g h
  have hparse := DateTime.parse_text f
  rw [h, DateTime.parse_text g, Outcome.ok.injEq] at hparse
  refine Fields.instant_injective ?_
  rw [← f.toInt_instant, ← g.toInt_instant, hparse]

namespace DateTime

/-- The instant whose fields `date` and `time` return. -/
def printed (dt : DateTime) : ℤ :=
  dt.micros.toInt + if dt.LateBefore1970 then Time.dayMicros else 0

theorem exists_printed {dt : DateTime} (h : dt.InPeriod) :
    ∃ f : Fields, dt.date = .ok f.date ∧ dt.time = .ok f.time ∧ f.instant = dt.printed :=
  exists_decompose h

theorem printed_of_not_late {dt : DateTime} (h : ¬dt.LateBefore1970) :
    dt.printed = dt.micros.toInt := by
  rw [printed, if_neg h, add_zero]

/-! ## Instants that are printed alike -/

/-- `b` is a day after `a`, and `a` is in the last second before 1970. -/
def DayAfterLate (a b : DateTime) : Prop :=
  -1000000 < a.micros.toInt ∧ a.micros.toInt < 0 ∧
    b.micros.toInt = a.micros.toInt + Time.dayMicros

theorem printed_eq_iff {a b : DateTime} :
    a.printed = b.printed ↔ a = b ∨ DayAfterLate a b ∨ DayAfterLate b a := by
  have hext : a = b ↔ a.micros.toInt = b.micros.toInt := by
    rw [DateTime.ext_iff, Int64.toInt_inj]
  rw [hext, printed, printed]
  simp only [DayAfterLate, LateBefore1970, Time.dayMicros]
  split_ifs <;> omega

/-- **Which instants are printed alike**: no two but those of the last second before 1970 and of the
last second of 1970-01-01. -/
theorem format_eq_iff {a b : DateTime} (ha : a.InPeriod) (hb : b.InPeriod)
    (buf buf' : Vector UInt8 28) :
    a.format buf = b.format buf' ↔ a = b ∨ DayAfterLate a b ∨ DayAfterLate b a := by
  obtain ⟨f, hfd, hft, hf⟩ := exists_printed ha
  obtain ⟨g, hgd, hgt, hg⟩ := exists_printed hb
  rw [format_eq hfd hft, format_eq hgd hgt, Outcome.ok.injEq, Fields.text_injective.eq_iff,
    ← Fields.instant_injective.eq_iff, hf, hg, printed_eq_iff]

/-- The microsecond before 1970, and the last one of 1970-01-01. -/
theorem format_eq_neg_one : format ⟨-1⟩ (Vector.replicate 28 0) =
    format ⟨86399999999⟩ (Vector.replicate 28 0) ↔
      (⟨-1⟩ : DateTime) = ⟨86399999999⟩ ∨ DayAfterLate ⟨-1⟩ ⟨86399999999⟩ ∨
        DayAfterLate ⟨86399999999⟩ ⟨-1⟩ :=
  format_eq_iff (by decide) (by decide) _ _

/-! ## The order of the fields -/

theorem printed_le_iff {a b : DateTime} (h : a.micros < b.micros) : b.printed ≤ a.printed ↔
    a.LateBefore1970 ∧ ¬b.LateBefore1970 ∧ b.micros.toInt ≤ a.micros.toInt + Time.dayMicros := by
  rw [Int64.lt_iff_toInt_lt] at h
  rw [printed, printed]
  simp only [LateBefore1970, Time.dayMicros]
  split_ifs <;> omega

/-- **Fields that go back**: dates never do, but of the fields of a later instant it can be that
they are not later. -/
theorem fields_order_iff {a b : DateTime} (ha : a.InPeriod) (hb : b.InPeriod)
    (h : a.micros < b.micros) : ∃ d d' t t', a.date = .ok d ∧ b.date = .ok d' ∧ a.time = .ok t ∧
      b.time = .ok t' ∧ Date.order d d' ≠ .gt ∧
      ((if d = d' then Time.order t t' else Date.order d d') ≠ .lt ↔
        a.LateBefore1970 ∧ ¬b.LateBefore1970 ∧
          b.micros.toInt ≤ a.micros.toInt + Time.dayMicros) := by
  obtain ⟨f, hfd, hft, hf⟩ := exists_printed ha
  obtain ⟨g, hgd, hgt, hg⟩ := exists_printed hb
  refine ⟨f.date, g.date, f.time, g.time, hfd, hgd, hft, hgt, ?_, ?_⟩
  · rw [Date.order_eq f.date_valid g.date_valid 1970, Date.dayNumber_civil, Date.dayNumber_civil,
      ← f.instant_div_mod.1, ← g.instant_div_mod.1, hf, hg, ne_eq, compare_gt_iff_gt]
    rw [Int64.lt_iff_toInt_lt] at h
    rw [printed, printed]
    simp only [LateBefore1970, Time.dayMicros]
    split_ifs <;> omega
  · rw [← Fields.compare_instant, hf, hg, ne_eq, compare_lt_iff_lt, not_lt, printed_le_iff h]

/-- The last second of 1969 but for its beginning, and the beginning of 1970. -/
theorem fields_order_1970 : ∃ d d' t t', date ⟨-500000⟩ = .ok d ∧ date ⟨0⟩ = .ok d' ∧
    time ⟨-500000⟩ = .ok t ∧ time ⟨0⟩ = .ok t' ∧ Date.order d d' ≠ .gt ∧
      ((if d = d' then Time.order t t' else Date.order d d') ≠ .lt ↔
        LateBefore1970 ⟨-500000⟩ ∧ ¬LateBefore1970 ⟨0⟩ ∧
          (0 : Int64).toInt ≤ (-500000 : Int64).toInt + Time.dayMicros) :=
  fields_order_iff (by decide) (by decide) (by decide)

/-! ## A day more or less -/

/-- **Moved by whole days**, an instant keeps its time of day, and its date moves by the same number
of days, but for the day that `date` is ahead before or after. -/
theorem add_days_fields {dt dt' : DateTime} {value : Int64} (h : dt.InPeriod)
    (hadd : add dt value .days = .ok dt') : ∃ d d' t, dt.date = .ok d ∧ dt'.date = .ok d' ∧
      dt.time = .ok t ∧ dt'.time = .ok t ∧
      d'.dayNumber = d.dayNumber + value.toInt +
        (if dt'.LateBefore1970 then 1 else 0) - if dt.LateBefore1970 then 1 else 0 := by
  obtain ⟨-, h', hmicros⟩ := add_eq_ok_iff.mp hadd
  obtain ⟨f, hfd, hft, hf⟩ := exists_printed h
  obtain ⟨g, hgd, hgt, hg⟩ := exists_printed h'
  rw [TimeUnit.amount, TimeUnit.micros] at hmicros
  have htime : f.time = g.time := by
    refine Time.ofDay_injective f.time_valid g.time_valid ?_
    rw [← f.instant_div_mod.2, ← g.instant_div_mod.2, hf, hg, printed, printed, Time.dayMicros]
    split_ifs <;> omega
  refine ⟨f.date, g.date, f.time, hfd, hgd, hft, htime ▸ hgt, ?_⟩
  rw [← f.instant_div_mod.1, ← g.instant_div_mod.1, hf, hg, printed, printed, Time.dayMicros]
  split_ifs <;> omega

/-- A day after the last microsecond before 1970 the date is the same. -/
theorem add_day_fields : ∃ d d' t, date ⟨-1⟩ = .ok d ∧ date ⟨86399999999⟩ = .ok d' ∧
    time ⟨-1⟩ = .ok t ∧ time ⟨86399999999⟩ = .ok t ∧
      d'.dayNumber = d.dayNumber + (1 : Int64).toInt +
        (if LateBefore1970 ⟨86399999999⟩ then 1 else 0) - if LateBefore1970 ⟨-1⟩ then 1 else 0 :=
  add_days_fields (by decide) (by decide)

/-! ## Printed and parsed again and again -/

/-- The instant that is parsed from the text of an instant. -/
def resave (dt : DateTime) (buf : Vector UInt8 28) : Result DateTime := do
  let text ← dt.format buf
  (parseRFC3339 text).outcome

/-- The same, once for every buffer. -/
def resaves (dt : DateTime) : List (Vector UInt8 28) → Result DateTime
  | [] => .ok dt
  | buf :: bufs => do resaves (← dt.resave buf) bufs

/-- What is parsed is the instant that is printed. -/
theorem resave_eq {dt : DateTime} (h : dt.InPeriod) (buf : Vector UInt8 28) :
    ∃ dt', dt.resave buf = .ok dt' ∧ dt'.InPeriod ∧ dt'.micros.toInt = dt.printed := by
  obtain ⟨f, hdate, htime, hf⟩ := exists_printed h
  refine ⟨ofMicros f.instant, ?_, ?_, ?_⟩
  · rw [resave, format_eq hdate htime, Outcome.ok_bind, parse_text]
  · rw [InPeriod, f.toInt_instant]
    exact f.instant_bounds
  · rw [f.toInt_instant, hf]

/-- **An instant that is printed and parsed again and again** stays where it is, or, if it is
`LateBefore1970`, goes on a day at a time until it is in 1970. -/
theorem resaves_eq {dt : DateTime} (h : dt.InPeriod) (bufs : List (Vector UInt8 28)) :
    ∃ dt', dt.resaves bufs = .ok dt' ∧ dt'.InPeriod ∧ dt'.micros.toInt =
      if dt.LateBefore1970 then
        min (dt.micros.toInt + bufs.length * Time.dayMicros) (dt.micros.toInt % Time.dayMicros)
      else dt.micros.toInt := by
  induction bufs generalizing dt with
  | nil =>
    refine ⟨dt, rfl, h, ?_⟩
    simp only [LateBefore1970, List.length_nil, Nat.cast_zero, Time.dayMicros]
    split_ifs <;> omega
  | cons buf bufs ih =>
    obtain ⟨a, ha, hp, hmicros⟩ := resave_eq h buf
    obtain ⟨dt', hdt', hp', hmicros'⟩ := ih hp
    refine ⟨dt', by rw [resaves, ha, Outcome.ok_bind, hdt'], hp', ?_⟩
    rw [hmicros', List.length_cons]
    simp only [LateBefore1970, hmicros, printed, Time.dayMicros]
    push_cast
    split_ifs <;> omega

/-- Twice, from the last second of 1969-12-29. -/
theorem resaves_two : ∃ dt',
    resaves ⟨-172800500000⟩ [Vector.replicate 28 0, Vector.replicate 28 0] = .ok dt' ∧
      dt'.InPeriod ∧ dt'.micros.toInt = if LateBefore1970 ⟨-172800500000⟩ then
        min ((-172800500000 : Int64).toInt + (2 : ℕ) * Time.dayMicros)
          ((-172800500000 : Int64).toInt % Time.dayMicros)
        else (-172800500000 : Int64).toInt :=
  resaves_eq (by decide) _

end DateTime
end Datetime
