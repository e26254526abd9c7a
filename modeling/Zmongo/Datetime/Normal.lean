import Zmongo.Datetime.Layouts
import Zmongo.Datetime.RoundTrip

/-!
# The texts of a date

A text of a date determines its sign, its dashes and its three numerals (`layout_inj`), so no two
dates have a text in common.  `Date.format` writes one text of a date, the dashed one, and this is
the normal form of the texts that are parsed as the date (`date_parse_normal`).

It is so up to the year 9999.  `writeDate` has four places for a year, and of a year of five digits
it leaves four: the dates that are printed alike are those that are alike but for a fifth digit, and
the year -32768 is not printed at all (`date_format_apart_iff`).
-/

set_option autoImplicit false

open Zig IntType Decimal

namespace Datetime

/-! ## One date for a text -/

/-- The bytes of a date, with a sign or without, and with both dashes or with none. -/
def layout (negative dashes : Bool) (year : Numeral 4) (month day : Numeral 2) : List UInt8 :=
  dash negative ++ (year.bytes ++ (dash dashes ++ (month.bytes ++ (dash dashes ++ day.bytes))))

/-- The scanner sees whether there is a dash in front of a numeral. -/
theorem dash_append_inj {b b' : Bool} {n : ℕ} {ds ds' : Numeral (n + 1)} {l l' : List UInt8}
    (h : dash b ++ (ds.bytes ++ l) = dash b' ++ (ds'.bytes ++ l')) :
    b = b' ∧ ds.bytes ++ l = ds'.bytes ++ l' := by
  have hskip := congrArg (Scan.skip '-'.toUInt8) h
  rwa [Scan.skip_dash, Scan.skip_dash, Prod.mk.injEq] at hskip

theorem layout_inj {negative negative' dashes dashes' : Bool} {year year' : Numeral 4}
    {month month' day day' : Numeral 2}
    (h : layout negative dashes year month day = layout negative' dashes' year' month' day') :
    negative = negative' ∧ dashes = dashes' ∧ year = year' ∧ month = month' ∧ day = day' := by
  obtain ⟨hnegative, h⟩ := dash_append_inj h
  obtain ⟨hyear, h⟩ := Numeral.append_inj h
  obtain ⟨hdashes, h⟩ := dash_append_inj h
  obtain ⟨hmonth, h⟩ := Numeral.append_inj h
  rw [hdashes] at h
  exact ⟨hnegative, hdashes, hyear, hmonth, Numeral.ext (List.append_cancel_left h)⟩

theorem DateLayout.unique {s : List UInt8} {d d' : Date} (h : DateLayout s d)
    (h' : DateLayout s d') : d = d' := by
  obtain ⟨negative, dashes, year, month, day, hs, hy, hm, hd⟩ := h
  obtain ⟨negative', dashes', year', month', day', hs', hy', hm', hd'⟩ := h'
  obtain ⟨rfl, -, rfl, rfl, rfl⟩ := layout_inj (hs.symm.trans hs')
  exact Date.ext (Int16.toInt_inj.mp (hy.trans hy'.symm))
    (UInt8.toNat_inj.mp (hm.trans hm'.symm)) (UInt8.toNat_inj.mp (hd.trans hd'.symm))

/-! ## Dates that are printed alike -/

theorem Date.year_ne_of_format {d : Date} {buf : Vector UInt8 11} {text : List UInt8}
    (h : d.format buf = .ok text) : d.year.toInt ≠ -32768 := by
  intro hy
  rw [Date.format_eq_trap hy] at h
  cases h

section Cut

variable {d : Date} (h : d.Valid)
include h

/-- What is printed of a date that exists, if the year can be printed. -/
theorem Date.Valid.format (hy : d.year.toInt ≠ -32768) (buf : Vector UInt8 11) :
    d.format buf = .ok d.cut.text := by
  have hm := h.month_le
  have hd := h.day_le_31
  exact Date.format_cut (by omega) (by omega) hy buf

theorem Date.Valid.dateLayout_cut : DateLayout d.cut.text d.cut := by
  have hmin := d.year.le_toInt
  have hmax := d.year.toInt_lt
  have hy := natAbs_cutYear d.year.toInt
  have hm : d.cut.month.toNat ≤ 12 := h.month_le
  have hd : d.cut.day.toNat ≤ 31 := h.day_le_31
  refine dateText_iff.mp (dateText_text ?_ (by omega) (by omega))
  rw [d.toInt_year_cut, hy]
  split_ifs <;> omega

end Cut

/-- The dates differ in nothing but a fifth digit of the year. -/
def SameFourDigits (a b : Date) : Prop :=
  a.year ≠ b.year ∧ cutYear a.year.toInt = cutYear b.year.toInt ∧ a.month = b.month ∧ a.day = b.day

/-- Both dates are printed, and if the texts are the same then the dates are. -/
def FormatsApart (a b : Date) : Prop :=
  ∀ buf buf', ∃ text text', a.format buf = .ok text ∧ b.format buf' = .ok text' ∧
    (text = text' → a = b)

theorem Date.cut_eq_iff {a b : Date} : a.cut = b.cut ↔
    cutYear a.year.toInt = cutYear b.year.toInt ∧ a.month = b.month ∧ a.day = b.day := by
  rw [Date.ext_iff, ← Int16.toInt_inj, a.toInt_year_cut, b.toInt_year_cut]
  rfl

/-- **Two dates are told apart by their texts** if both can be printed and no fifth digit is needed
for it. -/
theorem date_format_apart_iff {a b : Date} (ha : a.Valid) (hb : b.Valid) : FormatsApart a b ↔
    a.year.toInt ≠ -32768 ∧ b.year.toInt ≠ -32768 ∧ ¬SameFourDigits a b := by
  refine ⟨?_, ?_⟩
  · intro h
    obtain ⟨text, text', hformat, hformat', htext⟩ :=
      h (Vector.replicate 11 0) (Vector.replicate 11 0)
    have hya := Date.year_ne_of_format hformat
    have hyb := Date.year_ne_of_format hformat'
    refine ⟨hya, hyb, ?_⟩
    rintro ⟨hne, hsame⟩
    rw [ha.format hya, Date.cut_eq_iff.mpr hsame, Outcome.ok.injEq] at hformat
    rw [hb.format hyb, Outcome.ok.injEq] at hformat'
    exact hne (congrArg Date.year (htext (hformat.symm.trans hformat')))
  · rintro ⟨hya, hyb, hsame⟩ buf buf'
    refine ⟨a.cut.text, b.cut.text, ha.format hya buf, hb.format hyb buf', ?_⟩
    intro htext
    have hcut := Date.cut_eq_iff.mp (ha.dateLayout_cut.unique (htext ▸ hb.dateLayout_cut))
    have hyear : a.year = b.year := by
      by_contra hne
      exact hsame ⟨hne, hcut⟩
    exact Date.ext hyear hcut.2.1 hcut.2.2

/-- The last day of the last year of four digits, and the same day of the year with the sign. -/
theorem date_format_apart_9999 : FormatsApart ⟨9999, 12, 31⟩ ⟨-9999, 12, 31⟩ ↔
    Int16.toInt 9999 ≠ -32768 ∧ Int16.toInt (-9999) ≠ -32768 ∧
      ¬SameFourDigits ⟨9999, 12, 31⟩ ⟨-9999, 12, 31⟩ :=
  date_format_apart_iff (by decide) (by decide)

set_option maxRecDepth 4000 in
/-- The year 12345 is printed as 1234. -/
theorem date_format_12345_not_apart : Date.init 12345 1 1 = .ok ⟨12345, 1, 1⟩ ∧
    Date.init 1234 1 1 = .ok ⟨1234, 1, 1⟩ ∧ ¬FormatsApart ⟨12345, 1, 1⟩ ⟨1234, 1, 1⟩ := by
  refine ⟨by decide, by decide, fun h ↦ ?_⟩
  obtain ⟨text, text', hformat, hformat', htext⟩ :=
    h (Vector.replicate 11 0) (Vector.replicate 11 0)
  have h12345 : Date.format ⟨12345, 1, 1⟩ (Vector.replicate 11 0) = .ok (ascii "1234-01-01") := by
    decide
  have h1234 : Date.format ⟨1234, 1, 1⟩ (Vector.replicate 11 0) = .ok (ascii "1234-01-01") := by
    decide
  rw [h12345, Outcome.ok.injEq] at hformat
  rw [h1234, Outcome.ok.injEq] at hformat'
  exact absurd (htext (hformat.symm.trans hformat')) (by decide)

/-! ## The normal form -/

/-- The text has both dashes. -/
def Dashed (s : List UInt8) : Prop :=
  ∃ negative year month day, s = layout negative true year month day

theorem dashed_text (d : Date) : Dashed d.text :=
  ⟨_, _, _, _, d.text_eq⟩

theorem DateLayout.natAbs_year_lt {s : List UInt8} {d : Date} (h : DateLayout s d) :
    d.year.toInt.natAbs < 10 ^ 4 := by
  obtain ⟨negative, -, year, -, -, -, hy, -⟩ := h
  have hlt := year.value_lt
  split_ifs at hy <;> omega

/-- A text with both dashes is what is printed, unless it has a sign in front of the year 0. -/
theorem DateLayout.text_eq {s : List UInt8} {d : Date} (h : DateLayout s d) (hs : Dashed s)
    (hzero : ¬ascii "-0000" <+: s) : d.text = s := by
  obtain ⟨negative, dashes, year, month, day, hlayout, hy, hm, hd⟩ := h
  obtain ⟨_, _, _, _, hdashed⟩ := hs
  obtain ⟨-, rfl, -⟩ := layout_inj (hlayout.symm.trans hdashed)
  have hnegative : decide (d.year.toInt < 0) = negative := by
    rw [hy]
    cases negative with
    | false => simp
    | true =>
      have hpos : 0 < year.value := by
        refine Nat.pos_of_ne_zero fun h0 ↦ ?_
        refine hzero ⟨dash true ++ (month.bytes ++ (dash true ++ day.bytes)), ?_⟩
        rw [hlayout, ← year.ofNat_value, h0]
        rfl
      simpa using hpos
  have hyear : d.year.toInt.natAbs = year.value := by
    rw [hy]
    split_ifs <;> omega
  rw [d.text_eq, hnegative, hyear, hm, hd, year.ofNat_value, month.ofNat_value, day.ofNat_value,
    hlayout]

/-- What is printed of a date that was parsed. -/
theorem date_format_of_parse {s : List UInt8} {d : Date} (h : (Date.parse s).outcome = .ok d) :
    (∀ buf, d.format buf = .ok d.text) ∧ (Date.parse d.text).outcome = .ok d ∧
      (Dashed s → ¬ascii "-0000" <+: s → d.text = s) := by
  obtain ⟨hv, htext⟩ := date_parse_eq_ok_iff.mp h
  have hlayout := dateText_iff.mp htext
  have hyear := hlayout.natAbs_year_lt
  have hm := hv.month_le
  have hd := hv.day_le_31
  exact ⟨Date.format_eq (by omega) (by omega) hyear,
    date_parse_eq_ok_iff.mpr ⟨hv, dateText_text hyear (by omega) (by omega)⟩, hlayout.text_eq⟩

/-- **Parsing and printing normalises a text**: the result is the dashed text of the same date, and
it is the same for two texts when the dates are. -/
theorem date_parse_normal {s s' : List UInt8} {d d' : Date} (h : (Date.parse s).outcome = .ok d)
    (h' : (Date.parse s').outcome = .ok d') :
    (∃ text, (∀ buf, d.format buf = .ok text) ∧ (Date.parse text).outcome = .ok d ∧ Dashed text ∧
      (Dashed s → ¬ascii "-0000" <+: s → text = s)) ∧
        ∀ buf buf', d.format buf = d'.format buf' ↔ d = d' := by
  obtain ⟨hformat, hparse, hs⟩ := date_format_of_parse h
  obtain ⟨hformat', hparse', -⟩ := date_format_of_parse h'
  refine ⟨⟨d.text, hformat, hparse, dashed_text d, hs⟩, fun buf buf' ↦ ⟨?_, ?_⟩⟩
  · intro htext
    rw [hformat, hformat', Outcome.ok.injEq] at htext
    rw [htext, hparse', Outcome.ok.injEq] at hparse
    exact hparse.symm
  · rintro rfl
    rw [hformat, hformat]

/-- A compact text and a dashed one, of a year before year 0. -/
theorem date_parse_normal_ides :
    (∃ text, (∀ buf, Date.format ⟨-43, 3, 15⟩ buf = .ok text) ∧
      (Date.parse text).outcome = .ok ⟨-43, 3, 15⟩ ∧ Dashed text ∧
        (Dashed (ascii "-00430315") → ¬ascii "-0000" <+: ascii "-00430315" →
          text = ascii "-00430315")) ∧
      ∀ buf buf', Date.format ⟨-43, 3, 15⟩ buf = Date.format ⟨-43, 3, 15⟩ buf' ↔
        Date.mk (-43) 3 15 = ⟨-43, 3, 15⟩ := by
  have h : (Date.parse (ascii "-00430315")).outcome = .ok ⟨-43, 3, 15⟩ := by decide
  have h' : (Date.parse (ascii "-0043-03-15")).outcome = .ok ⟨-43, 3, 15⟩ := by decide
  exact date_parse_normal h h'

end Datetime
