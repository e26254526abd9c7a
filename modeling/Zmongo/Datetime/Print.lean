import Zmongo.Datetime.Write
import Zmongo.Datetime.Calendar

/-!
# What the writers write

`Date.text`, `Time.text` and `Fields.text` are the texts as such, without a buffer, and `Writes`
says that a writer leaves a text in any slice with room for it.  `writeTime` writes `Time.text`.
`writeDate` writes `Date.text` up to the year 9999, which is as far as its fixed offsets are right:
the month and the day are written over a fifth digit, so of other dates it writes the text of
`Date.cut`.

For an instant of the period that is enough (`bufWrite_writes`): by `exists_decompose` the date and
the time are the fields of an instant of the period, and the text of such fields is between 20 and
28 bytes long.
-/

set_option autoImplicit false

open Zig IntType Decimal

namespace Datetime

/-! ## The texts -/

/-- The fraction of a second, as short as the writer makes it. -/
def fractionText (micros : ℕ) : List UInt8 :=
  if micros = 0 then []
  else if micros % 1000 = 0 then ['.'.toUInt8] ++ digits 3 (micros / 1000)
  else ['.'.toUInt8] ++ digits 6 micros

/-- The year with its sign. -/
def yearText (year : ℤ) : List UInt8 :=
  (if year < 0 then ['-'.toUInt8] else []) ++ digits 4 year.natAbs

/-- The year with its sign, with all its digits. -/
def yearDigits (year : ℤ) : List UInt8 :=
  (if year < 0 then ['-'.toUInt8] else []) ++ decimal 4 year.natAbs

/-- `-YYYY-MM-DD`, or without the sign. -/
def Date.text (d : Date) : List UInt8 :=
  yearText d.year.toInt ++ (['-'.toUInt8] ++ digits 2 d.month.toNat ++ ['-'.toUInt8] ++
    digits 2 d.day.toNat)

/-- `HH:MM:SS`, and the fraction. -/
def Time.text (t : Time) : List UInt8 :=
  digits 2 t.hour.toNat ++ [':'.toUInt8] ++ digits 2 t.min.toNat ++ [':'.toUInt8] ++
    digits 2 t.sec.toNat ++ fractionText t.micros.toNat

/-- The text of an instant, by its fields. -/
def Fields.text (f : Fields) : List UInt8 :=
  f.date.text ++ ['T'.toUInt8] ++ f.time.text ++ ['Z'.toUInt8]

theorem length_yearText (year : ℤ) :
    (yearText year).length = if year < 0 then 5 else 4 := by
  rw [yearText]
  split_ifs <;> simp

theorem Date.length_text (d : Date) : d.text.length = if d.year.toInt < 0 then 11 else 10 := by
  rw [Date.text, List.length_append, length_yearText]
  split_ifs <;> simp

theorem length_fractionText (micros : ℕ) : (fractionText micros).length =
    if micros = 0 then 0 else if micros % 1000 = 0 then 4 else 7 := by
  rw [fractionText]
  split_ifs <;> simp

theorem Time.length_text (t : Time) :
    t.text.length = 8 + (fractionText t.micros.toNat).length := by
  simp only [Time.text, List.length_append, List.length_cons, List.length_nil, length_digits]

theorem Fields.length_text (f : Fields) : 20 ≤ f.text.length ∧ f.text.length ≤ 28 := by
  rw [Fields.text, List.length_append, List.length_append, List.length_append, Date.length_text,
    Time.length_text, length_fractionText, List.length_singleton, List.length_singleton]
  split_ifs <;> omega

/-! ## Years of five digits -/

/-- The year, without its last digit if it has five. -/
def cutYear (year : ℤ) : ℤ := if year.natAbs < 10 ^ 4 then year else divTrunc year 10

/-- The date, with the year cut. -/
def Date.cut (d : Date) : Date := ⟨.ofInt (cutYear d.year.toInt), d.month, d.day⟩

theorem natAbs_cutYear (year : ℤ) : (cutYear year).natAbs =
    if year.natAbs < 10 ^ 4 then year.natAbs else year.natAbs / 10 := by
  rw [cutYear]
  split_ifs
  · rfl
  · exact Int.natAbs_tdiv year 10

theorem cutYear_neg_iff {year : ℤ} : cutYear year < 0 ↔ year < 0 := by
  rw [cutYear]
  split_ifs with h
  · rfl
  · rcases le_total 0 year with h0 | h0
    · rw [divTrunc_of_nonneg 10 h0]
      omega
    · rw [divTrunc_of_nonpos 10 h0]
      omega

/-- The digits of a year are those of the year cut, and at most one more. -/
theorem exists_yearDigits (year : Int16) : ∃ rest,
    yearDigits year.toInt = yearText (cutYear year.toInt) ++ rest ∧ rest.length ≤ 1 := by
  have hmin := year.le_toInt
  have hmax := year.toInt_lt
  have hcut := natAbs_cutYear year.toInt
  rw [yearDigits, yearText, if_congr cutYear_neg_iff rfl rfl]
  by_cases h : year.toInt.natAbs < 10 ^ 4
  · rw [if_pos h] at hcut
    exact ⟨[], by rw [hcut, decimal_of_lt (by omega) h, List.append_nil], Nat.zero_le _⟩
  · rw [if_neg h] at hcut
    have hdecimal := decimal_of_le (not_lt.mp h) (by omega)
    exact ⟨[digitByte (year.toInt.natAbs % 10)], by rw [hcut, hdecimal, List.append_assoc], le_rfl⟩

theorem Date.toInt_year_cut (d : Date) : d.cut.year.toInt = cutYear d.year.toInt := by
  have hmin := d.year.le_toInt
  have hmax := d.year.toInt_lt
  have hcut := natAbs_cutYear d.year.toInt
  refine toInt_ofInt_i16 ?_
  rw [holds_i16]
  split_ifs at hcut <;> omega

theorem Date.cut_of_lt {d : Date} (h : d.year.toInt.natAbs < 10 ^ 4) : d.cut = d := by
  rw [Date.cut, cutYear, if_pos h, Int16.ofInt_toInt]

/-! ## The writers -/

/-- The writer leaves the text in any slice with room for it. -/
def Writes (write : Writer) (text : List UInt8) : Prop :=
  ∀ buf : List UInt8, text.length ≤ buf.length → write buf = .ok (put text buf, text.length)

set_option maxRecDepth 4000 in
/-- The table has the digits of every number up to 60. -/
theorem paddingTwoDigits_table : ∀ v < 61, paddingTwoDigits v = .ok (digits 2 v) := by decide

theorem paddingTwoDigits_eq {v : ℕ} (h : v < 61) : paddingTwoDigits v = .ok (digits 2 v) :=
  paddingTwoDigits_table v h

/-- The year and its sign are written with all the digits there are, and taken for four digits. -/
theorem writeYear_eq {year : Int16} (h : year.toInt ≠ -32768) {buf : List UInt8}
    (hbuf : (yearDigits year.toInt).length ≤ buf.length) : writeYear buf year =
      .ok (put (yearDigits year.toInt) buf, if year.toInt < 0 then 5 else 4) := by
  have hmin := year.le_toInt
  have hmax := year.toInt_lt
  rw [yearDigits, List.length_append] at hbuf
  rw [yearDigits]
  simp only [writeYear]
  by_cases hneg : year.toInt < 0
  · rw [if_pos hneg, List.length_singleton] at hbuf
    obtain ⟨b, rest, rfl⟩ := List.exists_cons_of_length_pos (by omega : 0 < buf.length)
    have hmul : i16.Holds (year.toInt * -1) := by
      rw [holds_i16]
      omega
    have hcast : u16.Holds (year.toInt * -1) := by
      rw [holds_u16]
      omega
    have hnat : (year.toInt * -1).toNat = year.toInt.natAbs := by omega
    have hdigits : onSlice (put [b] (b :: rest)) 1 (b :: rest).length
        (formatIntBuf · year.toInt.natAbs 4) =
          (.ok (put ([b] ++ decimal 4 year.toInt.natAbs) (b :: rest),
            (decimal 4 year.toInt.natAbs).length) : Result _) :=
      onSlice_put rfl hbuf le_rfl fun part hpart ↦ formatIntBuf_decimal (by omega)
    change onSlice (b :: rest) 1 (b :: rest).length _ = _ at hdigits
    simp only [if_pos hneg, mul_ok hmul, cast_ok hcast, hnat, hdigits, Outcome.ok_bind]
    rfl
  · rw [if_neg hneg, List.length_nil, zero_add] at hbuf
    have hcast : u16.Holds year.toInt := by
      rw [holds_u16]
      omega
    have hnat : year.toInt.toNat = year.toInt.natAbs := by omega
    simp only [if_neg hneg, cast_ok hcast, Outcome.ok_bind, hnat, formatIntBuf_decimal hbuf,
      List.nil_append, Outcome.pure_eq_ok]

theorem writeMonthDay_eq {month day : UInt8} (hm : month.toNat < 61) (hd : day.toNat < 61)
    {buf : List UInt8} (hbuf : 6 ≤ buf.length) :
    writeMonthDay buf month day = .ok (put (['-'.toUInt8] ++ digits 2 month.toNat ++
      ['-'.toUInt8] ++ digits 2 day.toNat) buf, ()) := by
  simp (disch := (simp <;> omega)) only [writeMonthDay, store_zero, store_put,
    paddingTwoDigits_eq hm, paddingTwoDigits_eq hd, Outcome.ok_bind, Outcome.pure_eq_ok]

/-- **`writeDate` writes the date with its year cut to four digits.** -/
theorem writeDate_cut {d : Date} (hy : d.year.toInt ≠ -32768) (hm : d.month.toNat < 61)
    (hd : d.day.toNat < 61) : Writes (writeDate · d) d.cut.text := by
  intro buf hbuf
  obtain ⟨rest, hdigits, hrest⟩ := exists_yearDigits d.year
  have hlen : (yearText (cutYear d.year.toInt)).length = if d.year.toInt < 0 then 5 else 4 := by
    rw [length_yearText, if_congr cutYear_neg_iff rfl rfl]
  have htext : d.cut.text = yearText (cutYear d.year.toInt) ++ (['-'.toUInt8] ++
      digits 2 d.month.toNat ++ ['-'.toUInt8] ++ digits 2 d.day.toNat) := by
    rw [Date.text, d.toInt_year_cut]
    rfl
  have hlen' : d.cut.text.length = (yearText (cutYear d.year.toInt)).length + 6 := by
    rw [htext]
    simp
  have hyear : (yearDigits d.year.toInt).length ≤ buf.length := by
    rw [hdigits, List.length_append]
    omega
  -- the month and the day begin right behind four digits, and cover a fifth
  have hpart : onSlice (put (yearDigits d.year.toInt) buf)
      (yearText (cutYear d.year.toInt)).length (put (yearDigits d.year.toInt) buf).length
        (writeMonthDay · d.month d.day) = .ok (put d.cut.text buf, ()) := by
    rw [length_put hyear, hdigits, htext]
    refine onSlice_put_cover rfl ?_ ?_ le_rfl fun part hpart ↦ writeMonthDay_eq hm hd (by omega)
    · simp
      omega
    · simpa using hlen' ▸ hbuf
  simp only [writeDate, writeYear_eq hy hyear, Outcome.ok_bind, ← hlen, hpart, Outcome.pure_eq_ok]
  rw [hlen', hlen]
  split_ifs <;> rfl

/-- **`writeDate` writes the date**, in the years -9999 to 9999. -/
theorem writeDate_writes {d : Date} (hy : d.year.toInt.natAbs < 10 ^ 4) (hm : d.month.toNat < 61)
    (hd : d.day.toNat < 61) : Writes (writeDate · d) d.text := by
  have h := writeDate_cut (d := d) (by omega) hm hd
  rwa [Date.cut_of_lt hy] at h

/-- **`writeTime` writes the time.** -/
theorem writeTime_writes {t : Time} (ht : t.Valid) : Writes (writeTime · t) t.text := by
  intro buf hbuf
  obtain ⟨hh, hm, hs, hu⟩ := Time.valid_iff.mp ht
  rw [Time.length_text, length_fractionText] at hbuf
  rw [Time.length_text, length_fractionText, Time.text, fractionText]
  simp only [writeTime, paddingTwoDigits_eq (show t.hour.toNat < 61 by omega),
    paddingTwoDigits_eq (show t.min.toNat < 61 by omega),
    paddingTwoDigits_eq (show t.sec.toNat < 61 by omega), Outcome.ok_bind]
  split_ifs at * with h0 h1
  all_goals
    simp (disch := (simp <;> omega)) only [store_zero, store_put, Outcome.ok_bind,
      Outcome.pure_eq_ok, List.append_nil]
  · rw [onSlice_formatIntBuf (by simp) (by omega) (by omega) (by omega) (by omega),
      Outcome.ok_bind, List.append_assoc _ ['.'.toUInt8]]
  · rw [onSlice_formatIntBuf (by simp) (by omega) (by omega) (by omega) (by omega),
      Outcome.ok_bind, List.append_assoc _ ['.'.toUInt8]]

/-! ## The functions with the buffers -/

section With

variable {write : Writer} {text : List UInt8} (hw : Writes write text)
include hw

theorem formatWith_eq {buf : List UInt8} (h : text.length ≤ buf.length) :
    formatWith write buf = .ok text := by
  rw [formatWith, hw buf h, Outcome.ok_bind]
  exact slice_put h

theorem Writes.onSlice {pre buf : List UInt8} {start stop : ℕ} (hstart : pre.length = start)
    (h : start + text.length ≤ stop) (hstop : stop ≤ buf.length) :
    onSlice (put pre buf) start stop write = .ok (put (pre ++ text) buf, text.length) :=
  onSlice_put hstart h hstop fun part hpart ↦ hw part (by omega)

theorem jsonWith_eq {buf : List UInt8} {stop : ℕ} (h : 1 + text.length ≤ stop)
    (hstop : stop < buf.length) : jsonWith write buf stop = .ok ([quote] ++ text ++ [quote]) := by
  obtain ⟨b, rest, rfl⟩ := List.exists_cons_of_length_pos (by omega : 0 < buf.length)
  have htext : onSlice (put [b] (b :: rest)) 1 stop write =
      .ok (put ([b] ++ text) (b :: rest), text.length) := hw.onSlice rfl h hstop.le
  have hopen : store (put ([b] ++ text) (b :: rest)) 0 [quote] =
      (.ok (put ([quote] ++ text) (b :: rest)) : Result _) := by
    simp [store, put]
  have hlen : ([quote] ++ text ++ [quote]).length = text.length + 2 := by simp
  change onSlice (b :: rest) 1 stop write = _ at htext
  rw [jsonWith, htext, Outcome.ok_bind]
  dsimp only
  rw [hopen, Outcome.ok_bind, store_put (by simp)
    (by rw [List.length_singleton]; omega), Outcome.ok_bind, ← hlen, slice_put (by omega)]

end With

theorem Time.format_eq {t : Time} (ht : t.Valid) (buf : Vector UInt8 15) :
    t.format buf = .ok t.text := by
  refine formatWith_eq (writeTime_writes ht) ?_
  rw [Time.length_text, length_fractionText, Vector.length_toList]
  split_ifs <;> omega

theorem Time.jsonStringify_eq {t : Time} (ht : t.Valid) (buf : Vector UInt8 17) :
    t.jsonStringify buf = .ok ([quote] ++ t.text ++ [quote]) := by
  refine jsonWith_eq (writeTime_writes ht) ?_ ?_
  · rw [Time.length_text, length_fractionText]
    split_ifs <;> omega
  · rw [Vector.length_toList]
    omega

section Date

variable {d : Date} (hm : d.month.toNat < 61) (hd : d.day.toNat < 61)

/-- The one year whose number without the sign is not a number of its type. -/
theorem Date.format_eq_trap (hy : d.year.toInt = -32768) (buf : Vector UInt8 11) :
    d.format buf = .trap .integerOverflow := by
  have hmul : (i16.mul d.year.toInt (-1) : Result ℤ) = .trap .integerOverflow := by
    rw [hy]
    rfl
  simp only [Date.format, formatWith, writeDate, writeYear, if_pos (by omega : d.year.toInt < 0),
    hmul, Outcome.trap_bind]

include hm hd

theorem Date.format_cut (hy : d.year.toInt ≠ -32768) (buf : Vector UInt8 11) :
    d.format buf = .ok d.cut.text := by
  refine formatWith_eq (writeDate_cut hy hm hd) ?_
  rw [Date.length_text, Vector.length_toList]
  split_ifs <;> omega

theorem Date.jsonStringify_cut (hy : d.year.toInt ≠ -32768) (buf : Vector UInt8 13) :
    d.jsonStringify buf = .ok ([quote] ++ d.cut.text ++ [quote]) := by
  refine jsonWith_eq (writeDate_cut hy hm hd) ?_ ?_
  · rw [Date.length_text]
    split_ifs <;> omega
  · rw [Vector.length_toList]
    omega

theorem Date.format_eq (hy : d.year.toInt.natAbs < 10 ^ 4) (buf : Vector UInt8 11) :
    d.format buf = .ok d.text := by
  rw [Date.format_cut hm hd (by omega), Date.cut_of_lt hy]

theorem Date.jsonStringify_eq (hy : d.year.toInt.natAbs < 10 ^ 4) (buf : Vector UInt8 13) :
    d.jsonStringify buf = .ok ([quote] ++ d.text ++ [quote]) := by
  rw [Date.jsonStringify_cut hm hd (by omega), Date.cut_of_lt hy]

end Date

/-! ## Instants -/

namespace DateTime

variable {dt : DateTime}

/-- **`bufWrite` writes the fields of the instant**, those `date` and `time` return. -/
theorem bufWrite_writes {f : Fields} (hdate : dt.date = .ok f.date) (htime : dt.time = .ok f.time) :
    Writes dt.bufWrite f.text := by
  intro buf hbuf
  have hm := f.date_valid.month_le
  have hd := f.date_valid.day_le_31
  have hp := f.inPeriod
  rw [Date.InPeriod] at hp
  have hlen : f.text.length = f.date.text.length + 1 + f.time.text.length + 1 := by
    simp only [Fields.text, List.length_append, List.length_singleton]
  have hwrite := writeDate_writes (d := f.date) (by omega) (by omega) (by omega) buf (by omega)
  dsimp only at hwrite
  rw [bufWrite, hdate, Outcome.ok_bind, hwrite, Outcome.ok_bind]
  dsimp only
  rw [store_put rfl (by rw [List.length_singleton]; omega), Outcome.ok_bind, htime,
    Outcome.ok_bind, length_put (by rw [List.length_append, List.length_singleton]; omega),
    (writeTime_writes f.time_valid).onSlice (by rw [List.length_append]; rfl) (by omega) le_rfl,
    Outcome.ok_bind]
  dsimp only
  rw [store_put (by simp only [List.length_append, List.length_singleton])
    (by rw [List.length_singleton]; omega), Outcome.ok_bind, hlen]
  rfl

theorem format_eq {f : Fields} (hdate : dt.date = .ok f.date) (htime : dt.time = .ok f.time)
    (buf : Vector UInt8 28) : dt.format buf = .ok f.text :=
  formatWith_eq (bufWrite_writes hdate htime) (by
    rw [Vector.length_toList]
    exact f.length_text.2)

theorem jsonStringify_eq {f : Fields} (hdate : dt.date = .ok f.date)
    (htime : dt.time = .ok f.time) (buf : Vector UInt8 30) :
    dt.jsonStringify buf = .ok ([quote] ++ f.text ++ [quote]) := by
  have hlen := f.length_text.2
  have hbuf : buf.toList.length = 30 := Vector.length_toList
  have hend : ([quote] ++ f.text ++ [quote]).length = f.text.length + 2 := by simp
  have htext : onSlice (put [quote] buf.toList) 1 buf.toList.length dt.bufWrite =
      .ok (put ([quote] ++ f.text) buf.toList, f.text.length) :=
    (bufWrite_writes hdate htime).onSlice rfl (by omega) le_rfl
  rw [jsonStringify, store_zero (by rw [List.length_singleton]; omega), Outcome.ok_bind,
    length_put (by rw [List.length_singleton]; omega), htext, Outcome.ok_bind]
  dsimp only
  rw [store_put (by simp [Nat.add_comm]) (by rw [List.length_singleton]; omega), Outcome.ok_bind,
    ← hend, slice_put (by omega)]

/-- **Every instant of the period can be printed**: `date` and `time` return fields that exist, and
`bufWrite` fits the buffers of `format` and `jsonStringify`. -/
theorem bufWrite_safe (h : dt.InPeriod) :
    ∃ d t, dt.date = .ok d ∧ d.Valid ∧ d.InPeriod ∧ dt.time = .ok t ∧ t.Valid ∧
      ∃ text : List UInt8, 20 ≤ text.length ∧ text.length ≤ 28 ∧
        (∀ buf : List UInt8, 28 ≤ buf.length →
          dt.bufWrite buf = .ok (put text buf, text.length)) ∧
        (∀ buf, dt.format buf = .ok text) ∧
        ∀ buf, dt.jsonStringify buf = .ok ([quote] ++ text ++ [quote]) := by
  obtain ⟨f, hdate, htime, -⟩ := exists_decompose h
  have hlen := f.length_text
  refine ⟨f.date, f.time, hdate, f.date_valid, f.inPeriod, htime, f.time_valid, f.text, hlen.1,
    hlen.2, fun buf hbuf ↦ ?_, format_eq hdate htime, jsonStringify_eq hdate htime⟩
  exact bufWrite_writes hdate htime buf (hlen.2.trans hbuf)

/-- The first instant of the period can be printed. -/
theorem bufWrite_first_safe :
    ∃ d t, date ⟨-210863520000000000⟩ = .ok d ∧ d.Valid ∧ d.InPeriod ∧
      time ⟨-210863520000000000⟩ = .ok t ∧ t.Valid ∧
      ∃ text : List UInt8, 20 ≤ text.length ∧ text.length ≤ 28 ∧
        (∀ buf : List UInt8, 28 ≤ buf.length →
          bufWrite ⟨-210863520000000000⟩ buf = .ok (put text buf, text.length)) ∧
        (∀ buf, format ⟨-210863520000000000⟩ buf = .ok text) ∧
        ∀ buf, jsonStringify ⟨-210863520000000000⟩ buf = .ok ([quote] ++ text ++ [quote]) :=
  bufWrite_safe (by decide)

end DateTime
end Datetime
