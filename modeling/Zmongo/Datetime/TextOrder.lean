import Zmongo.Datetime.Printed
import Zmongo.Text.Order

/-!
# The order of the texts

What is printed of dates, times and instants, compared byte by byte, as a reader does who sorts the
texts without parsing them.

* Times are in order (`time_format_lt_iff`): a fraction that is left out is an early one.
* Dates are in order from the year 0 on (`date_format_lt_iff`).  Of two years before year 0 the
  later one is printed first, because the sign is not part of the numeral.
* Instants are not (`instant_format_lt_iff`).  The `Z` behind a fraction that is left out is above
  every digit and above the point, so a whole second is behind the rest of its second, and a whole
  millisecond behind the rest of its millisecond.
-/

set_option autoImplicit false

open Zig IntType Decimal

namespace Datetime

/-! ## Fractions -/

/-- The digits behind the third one, where there are any. -/
def lastDigits (u : ℕ) : List UInt8 := if u = 0 then [] else digits 3 u

/-- The fraction, three digits at a time. -/
theorem fractionText_eq (u : ℕ) : fractionText u =
    if u = 0 then [] else '.'.toUInt8 :: (digits 3 (u / 1000) ++ lastDigits (u % 1000)) := by
  have hsix : digits 6 u = digits 3 (u / 1000) ++ digits 3 (u % 1000) := digits_add 3 3 u
  rw [fractionText, lastDigits, hsix]
  split_ifs <;> simp

/-- The place of the digits behind the third one among those that a letter follows. -/
def lastRank (u : ℕ) : ℕ := if u = 0 then 1000 else u

/-- The place of a fraction among those that a letter follows: one that is left out is behind all
others, and one of three digits is behind those of six that begin with it. -/
def fractionRank (u : ℕ) : ℕ := if u = 0 then 1001000 else u / 1000 * 1001 + lastRank (u % 1000)

section Fraction

variable {u v : ℕ}

theorem lastDigits_lt_iff (hu : u < 10 ^ 3) (hv : v < 10 ^ 3) :
    lastDigits u < lastDigits v ↔ u < v := by
  have hlt := digits_lt_iff hu hv
  obtain ⟨b, l, hb, -⟩ := exists_digits_cons 2 v
  rw [lastDigits, lastDigits]
  split_ifs with h h'
  · simp [h, h']
  · simp only [hb, List.nil_lt_cons, true_iff]
    omega
  · simp only [List.not_lt_nil, false_iff]
    omega
  · exact hlt

theorem fractionText_lt_iff (hu : u < 10 ^ 6) (hv : v < 10 ^ 6) :
    fractionText u < fractionText v ↔ u < v := by
  have hlast := lastDigits_lt_iff (u := u % 1000) (v := v % 1000) (by omega) (by omega)
  rw [fractionText_eq, fractionText_eq]
  split_ifs with h h'
  · simp [h, h']
  · simp only [List.nil_lt_cons, true_iff]
    omega
  · simp only [List.not_lt_nil, false_iff]
    omega
  · rw [List.cons_lt_cons_self, digits_append_lt_iff (by omega) (by omega), hlast]
    omega

theorem lastRank_bounds (hu : u < 10 ^ 3) : 1 ≤ lastRank u ∧ lastRank u ≤ 1000 := by
  rw [lastRank]
  split_ifs <;> omega

/-- A byte above the digits turns the rule round that the shorter text is the first. -/
theorem lastDigits_append_lt_iff {z : UInt8} (hz : 57 < z) (hu : u < 10 ^ 3) (hv : v < 10 ^ 3) :
    lastDigits u ++ [z] < lastDigits v ++ [z] ↔ lastRank u < lastRank v := by
  rw [lastDigits, lastDigits, lastRank, lastRank]
  split_ifs with h h' h'
  · simp [List.lt_irrefl]
  · have hgt := digits_append_lt_cons hz 2 v [z] []
    simp only [List.nil_append, List.lt_asymm hgt, false_iff]
    omega
  · simp only [List.nil_append, digits_append_lt_cons hz 2 u [z] [], true_iff]
    omega
  · rw [digits_append_lt_iff hu hv]
    simp [List.lt_irrefl]

theorem fractionText_append_lt_iff {z : UInt8} (hz : 57 < z) (hu : u < 10 ^ 6) (hv : v < 10 ^ 6) :
    fractionText u ++ [z] < fractionText v ++ [z] ↔ fractionRank u < fractionRank v := by
  have hpoint : '.'.toUInt8 < z := UInt8.lt_trans (by decide : '.'.toUInt8 < 57) hz
  have hrank := lastRank_bounds (u := u % 1000) (by omega)
  have hrank' := lastRank_bounds (u := v % 1000) (by omega)
  have hlast := lastDigits_append_lt_iff (u := u % 1000) (v := v % 1000) hz (by omega) (by omega)
  rw [fractionText_eq, fractionText_eq, fractionRank, fractionRank]
  split_ifs with h h' h'
  · simp [List.lt_irrefl]
  · simp only [List.nil_append, List.cons_append, List.cons_lt_cons_iff, UInt8.lt_asymm hpoint,
      false_or]
    refine ⟨fun hz ↦ absurd hz.1 (UInt8.ne_of_lt hpoint).symm, fun hlt ↦ ?_⟩
    omega
  · simp only [List.nil_append, List.cons_append, List.cons_lt_cons_iff, hpoint, true_or, true_iff]
    omega
  · rw [List.cons_append, List.cons_append, List.cons_lt_cons_self, List.append_assoc,
      List.append_assoc, digits_append_lt_iff (by omega) (by omega), hlast]
    omega

end Fraction

/-! ## Times -/

namespace Time

/-- The seconds since midnight. -/
def seconds (t : Time) : ℕ := 3600 * t.hour.toNat + 60 * t.min.toNat + t.sec.toNat

theorem ofDay_eq (t : Time) : t.ofDay = 1000000 * t.seconds + t.micros.toNat := by
  rw [ofDay, seconds]
  omega

section Order

variable {a b : Time} (ha : a.Valid) (hb : b.Valid)
include ha hb

/-- The seconds are compared first, and then the fractions with all that follows. -/
theorem text_append_lt_iff (x y : List UInt8) : a.text ++ x < b.text ++ y ↔
    a.seconds < b.seconds ∨ a.seconds = b.seconds ∧
      fractionText a.micros.toNat ++ x < fractionText b.micros.toNat ++ y := by
  obtain ⟨hh, hm, hs, -⟩ := valid_iff.mp ha
  obtain ⟨hh', hm', hs', -⟩ := valid_iff.mp hb
  simp (disch := omega) only [text, List.append_assoc, digits_append_lt_iff, List.cons_append,
    List.nil_append, List.cons_lt_cons_self]
  simp only [seconds]
  grind

theorem text_lt_iff : a.text < b.text ↔ order a b = .lt := by
  have hu := (valid_iff.mp ha).2.2.2
  have hu' := (valid_iff.mp hb).2.2.2
  have h := text_append_lt_iff ha hb [] []
  simp only [List.append_nil] at h
  rw [h, fractionText_lt_iff (by omega) (by omega), order_eq ha hb, compare_lt_iff_lt, ofDay_eq,
    ofDay_eq]
  omega

/-- **The texts of times are in the order of the times.** -/
theorem time_format_lt_iff (buf buf' : Vector UInt8 15) :
    ∃ s s', a.format buf = .ok s ∧ b.format buf' = .ok s' ∧ (s < s' ↔ order a b = .lt) :=
  ⟨_, _, format_eq ha buf, format_eq hb buf', text_lt_iff ha hb⟩

end Order

/-- Noon, and the microsecond after it. -/
theorem format_lt_noon : ∃ s s', format ⟨12, 0, 0, 0⟩ (Vector.replicate 15 0) = .ok s ∧
    format ⟨12, 0, 0, 1⟩ (Vector.replicate 15 0) = .ok s' ∧
      (s < s' ↔ order ⟨12, 0, 0, 0⟩ ⟨12, 0, 0, 1⟩ = .lt) :=
  time_format_lt_iff (by decide) (by decide) _ _

end Time

/-! ## Dates -/

namespace Date

/-- Both years are before year 0, and they are not the same. -/
def Mirrored (a b : Date) : Prop :=
  a.year.toInt < 0 ∧ b.year.toInt < 0 ∧ a.year.toInt ≠ b.year.toInt

instance (a b : Date) : Decidable (Mirrored a b) :=
  inferInstanceAs (Decidable (a.year.toInt < 0 ∧ b.year.toInt < 0 ∧ a.year.toInt ≠ b.year.toInt))

/-- What `Date.order` compares. -/
theorem order_eq_lt_iff {a b : Date} (ha : a.Valid) (hb : b.Valid) : order a b = .lt ↔
    a.year.toInt < b.year.toInt ∨ a.year.toInt = b.year.toInt ∧
      (a.month.toNat < b.month.toNat ∨ a.month.toNat = b.month.toNat ∧
        a.day.toNat < b.day.toNat) := by
  rw [order_eq ha hb 1970, compare_lt_iff_lt,
    (Gregorian.Civil.dayNumber_strictMono 1970).lt_iff_lt, Gregorian.Civil.lt_iff]
  rfl

section Order

variable {a b : Date} (ha : a.Valid) (hb : b.Valid) (hya : a.year.toInt.natAbs < 10 ^ 4)
  (hyb : b.year.toInt.natAbs < 10 ^ 4)
include ha hb hya hyb

theorem text_append_lt_iff (x y : List UInt8) : a.text ++ x < b.text ++ y ↔
    (if Mirrored a b then order b a = .lt else order a b = .lt) ∨ a = b ∧ x < y := by
  have hm := ha.month_le
  have hm' := hb.month_le
  have hd := ha.day_le_31
  have hd' := hb.day_le_31
  have hdash : '-'.toUInt8 < 48 := by decide
  have heq : a = b ↔ a.year.toInt = b.year.toInt ∧ a.month.toNat = b.month.toNat ∧
      a.day.toNat = b.day.toNat := by
    rw [Date.ext_iff, Int16.toInt_inj, UInt8.toNat_inj, UInt8.toNat_inj]
  rw [order_eq_lt_iff ha hb, order_eq_lt_iff hb ha, heq, text, text, yearText, yearText]
  have hmir : Mirrored a b ↔
      a.year.toInt < 0 ∧ b.year.toInt < 0 ∧ a.year.toInt ≠ b.year.toInt := Iff.rfl
  by_cases hneg : a.year.toInt < 0 <;> by_cases hneg' : b.year.toInt < 0
  · simp (disch := omega) only [hneg, hneg', if_true, List.append_assoc, List.cons_append,
      List.nil_append, List.cons_lt_cons_self, digits_append_lt_iff]
    split_ifs with h <;> rw [hmir] at h <;> grind
  · have hlt := cons_lt_digits_append hdash 3 b.year.toInt.natAbs
    simp only [hneg, hneg', if_true, if_false, List.append_assoc, List.cons_append,
      List.nil_append, hlt, true_iff]
    split_ifs with h <;> rw [hmir] at h <;> grind
  · have hlt := cons_lt_digits_append hdash 3 a.year.toInt.natAbs
    simp only [hneg, hneg', if_true, if_false, List.append_assoc, List.cons_append,
      List.nil_append, List.lt_asymm (hlt _ _), false_iff]
    split_ifs with h <;> rw [hmir] at h <;> grind
  · simp (disch := omega) only [hneg, hneg', if_false, List.append_assoc, List.cons_append,
      List.nil_append, List.cons_lt_cons_self, digits_append_lt_iff]
    split_ifs with h <;> rw [hmir] at h <;> grind

/-- **The texts of dates are in the order of the dates**, but for two years before year 0. -/
theorem date_format_lt_iff (buf buf' : Vector UInt8 11) :
    ∃ s s', a.format buf = .ok s ∧ b.format buf' = .ok s' ∧
      (s < s' ↔ if Mirrored a b then order b a = .lt else order a b = .lt) := by
  have hm := ha.month_le
  have hm' := hb.month_le
  have hd := ha.day_le_31
  have hd' := hb.day_le_31
  have h := text_append_lt_iff ha hb hya hyb [] []
  simp only [List.append_nil, List.not_lt_nil, and_false, or_false] at h
  exact ⟨_, _, format_eq (by omega) (by omega) hya buf, format_eq (by omega) (by omega) hyb buf', h⟩

end Order

/-- Two years before year 0: the later one is printed first. -/
theorem format_lt_neg : ∃ s s', format ⟨-2, 1, 1⟩ (Vector.replicate 11 0) = .ok s ∧
    format ⟨-1, 1, 1⟩ (Vector.replicate 11 0) = .ok s' ∧
      (s < s' ↔ if Mirrored ⟨-2, 1, 1⟩ ⟨-1, 1, 1⟩ then order ⟨-1, 1, 1⟩ ⟨-2, 1, 1⟩ = .lt
        else order ⟨-2, 1, 1⟩ ⟨-1, 1, 1⟩ = .lt) :=
  date_format_lt_iff (by decide) (by decide) (by decide) (by decide) _ _

theorem order_eq_lt_iff_dayNumber {a b : Date} (ha : a.Valid) (hb : b.Valid) :
    order a b = .lt ↔ a.dayNumber < b.dayNumber := by
  rw [order_eq ha hb 1970, compare_lt_iff_lt, dayNumber_civil, dayNumber_civil]

end Date

/-! ## Instants -/

/-- The two numbers are in the same multiple of `unit`, and the earlier one is the beginning. -/
def FromStart (unit x y : ℤ) : Prop := x / unit = y / unit ∧ min x y % unit = 0

instance (unit x y : ℤ) : Decidable (FromStart unit x y) :=
  inferInstanceAs (Decidable (x / unit = y / unit ∧ min x y % unit = 0))

theorem fractionRank_lt_iff {u v : ℕ} (hu : u < 10 ^ 6) (hv : v < 10 ^ 6) :
    fractionRank u < fractionRank v ↔
      if min u v = 0 ∨ u / 1000 = v / 1000 ∧ min u v % 1000 = 0 then v < u else u < v := by
  rw [fractionRank, fractionRank, lastRank, lastRank]
  split_ifs <;> omega

namespace Fields

/-- The texts of the two are in the wrong order, if they are not the same. -/
def TextSwapped (f g : Fields) : Prop :=
  f.date.Mirrored g.date ∨ FromStart 1000000 f.instant g.instant ∨
    FromStart 1000 f.instant g.instant

instance (f g : Fields) : Decidable (TextSwapped f g) :=
  inferInstanceAs (Decidable (f.date.Mirrored g.date ∨ _ ∨ _))

/-- The instant in seconds and microseconds. -/
theorem instant_eq (f : Fields) : f.instant =
    1000000 * (86400 * f.date.dayNumber + f.time.seconds) + f.time.micros.toNat := by
  rw [instant, DateTime.instant, Time.ofDay_eq, Time.dayMicros]
  ring

theorem text_lt_iff (f g : Fields) : f.text < g.text ↔
    if f.TextSwapped g then g.instant < f.instant else f.instant < g.instant := by
  have hp := f.inPeriod
  have hp' := g.inPeriod
  have ht := Time.valid_iff.mp f.time_valid
  have ht' := Time.valid_iff.mp g.time_valid
  rw [Date.InPeriod] at hp hp'
  have hs : f.time.seconds < 86400 := by
    rw [Time.seconds]
    omega
  have hs' : g.time.seconds < 86400 := by
    rw [Time.seconds]
    omega
  have hsame : f.date = g.date ↔ f.date.dayNumber = g.date.dayNumber :=
    ⟨congrArg _, Date.dayNumber_injective f.date_valid g.date_valid⟩
  have hmir : f.date.Mirrored g.date → f.date.dayNumber ≠ g.date.dayNumber := by
    intro hm he
    exact hm.2.2 (congrArg (·.year.toInt) (hsame.mpr he))
  have hdate := Date.text_append_lt_iff f.date_valid g.date_valid (by omega) (by omega)
    ('T'.toUInt8 :: (f.time.text ++ ['Z'.toUInt8])) ('T'.toUInt8 :: (g.time.text ++ ['Z'.toUInt8]))
  rw [List.cons_lt_cons_self, Time.text_append_lt_iff f.time_valid g.time_valid,
    fractionText_append_lt_iff (by decide) (by omega) (by omega),
    fractionRank_lt_iff (by omega) (by omega), Date.order_eq_lt_iff_dayNumber f.date_valid
    g.date_valid, Date.order_eq_lt_iff_dayNumber g.date_valid f.date_valid, hsame] at hdate
  have htext : ∀ h : Fields, h.text = h.date.text ++ ('T'.toUInt8 :: (h.time.text ++
      ['Z'.toUInt8])) := by
    intro h
    simp [text]
  rw [htext f, htext g, hdate]
  simp only [TextSwapped, FromStart, f.instant_eq, g.instant_eq]
  generalize f.date.dayNumber = d at *
  generalize g.date.dayNumber = d' at *
  by_cases hm : f.date.Mirrored g.date
  · have hne := hmir hm
    simp only [hm, if_true, true_or]
    omega
  · simp only [hm, if_false, false_or]
    split_ifs <;> omega

end Fields

namespace DateTime

/-- **The texts of instants are in the order of the instants that are printed**, but for years
before year 0, and but for the beginning of a second or of a millisecond and what follows in it. -/
theorem instant_format_lt_iff {a b : DateTime} (ha : a.InPeriod) (hb : b.InPeriod)
    (buf buf' : Vector UInt8 28) : ∃ d d' s s', a.date = .ok d ∧ b.date = .ok d' ∧
      a.format buf = .ok s ∧ b.format buf' = .ok s' ∧
      (s < s' ↔ if d.Mirrored d' ∨ FromStart 1000000 a.printed b.printed ∨
          FromStart 1000 a.printed b.printed then b.printed < a.printed
        else a.printed < b.printed) := by
  obtain ⟨f, hfd, hft, hf⟩ := exists_printed ha
  obtain ⟨g, hgd, hgt, hg⟩ := exists_printed hb
  refine ⟨_, _, _, _, hfd, hgd, format_eq hfd hft buf, format_eq hgd hgt buf', ?_⟩
  rw [f.text_lt_iff, ← hf, ← hg]
  exact Iff.rfl

/-- The beginning of 1970 is printed behind the microsecond after it. -/
theorem format_lt_epoch : ∃ d d' s s', date ⟨0⟩ = .ok d ∧ date ⟨1⟩ = .ok d' ∧
    format ⟨0⟩ (Vector.replicate 28 0) = .ok s ∧ format ⟨1⟩ (Vector.replicate 28 0) = .ok s' ∧
      (s < s' ↔ if d.Mirrored d' ∨ FromStart 1000000 (printed ⟨0⟩) (printed ⟨1⟩) ∨
          FromStart 1000 (printed ⟨0⟩) (printed ⟨1⟩) then printed ⟨1⟩ < printed ⟨0⟩
        else printed ⟨0⟩ < printed ⟨1⟩) :=
  instant_format_lt_iff (by decide) (by decide) _ _

end DateTime
end Datetime
