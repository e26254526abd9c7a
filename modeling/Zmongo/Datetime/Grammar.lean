import Zmongo.Datetime.Scan

/-!
# The texts of dates and times

`DateText` and `TimeText` are the grammars, with the value a text denotes: a date with both dashes
or with none, and a time with minutes, with seconds or with a fraction of one to nine digits.

The scanners accept more than a grammar does: they stop somewhere in a text, and where they stop
depends on what follows.  `date_eq_ok_iff` and `time_eq_ok_iff` say exactly what they accept.  A
date is read off the front of any text.  A time is read off the front if what follows cannot be read
as more of it, and there is one case besides: a decimal point with no digits behind it is read as
part of the time, provided that something follows.
-/

set_option autoImplicit false

open Zig IntType Decimal

namespace Datetime

/-! ## The grammars -/

/-- A dash, or nothing. -/
def dash (b : Bool) : List UInt8 := if b then ['-'.toUInt8] else []

/-- The texts of dates. -/
inductive DateText : List UInt8 → Date → Prop
  | mk (negative dashes : Bool) (year : Numeral 4) (month day : Numeral 2) :
    DateText (dash negative ++ (year.bytes ++ (dash dashes ++ (month.bytes ++ (dash dashes ++
        day.bytes)))))
      ⟨.ofInt (if negative then -year.value else year.value), .ofNat month.value,
        .ofNat day.value⟩

/-- `hh:mm` -/
def minutesText (hour min : Numeral 2) : List UInt8 := hour.bytes ++ ':'.toUInt8 :: min.bytes

/-- `hh:mm:ss` -/
def secondsText (hour min sec : Numeral 2) : List UInt8 :=
  minutesText hour min ++ ':'.toUInt8 :: sec.bytes

/-- The texts of times.  The third argument has the bytes that would be read as more of the time if
they came next. -/
inductive TimeText : List UInt8 → Time → (UInt8 → Prop) → Prop
  | minutes (hour min : Numeral 2) :
    TimeText (minutesText hour min) ⟨.ofNat hour.value, .ofNat min.value, 0, 0⟩ (· = ':'.toUInt8)
  | seconds (hour min sec : Numeral 2) :
    TimeText (secondsText hour min sec)
      ⟨.ofNat hour.value, .ofNat min.value, .ofNat sec.value, 0⟩ (· = '.'.toUInt8)
  | fraction (hour min sec : Numeral 2) (ds : List UInt8) (hds : Digits ds) (hne : ds ≠ [])
      (hlen : ds.length ≤ 9) :
    TimeText (secondsText hour min sec ++ '.'.toUInt8 :: ds)
      ⟨.ofNat hour.value, .ofNat min.value, .ofNat sec.value,
        .ofNat (value ds * 10 ^ (9 - ds.length) / 1000)⟩ IsDigit

/-- UTC. -/
def Zone (l : List UInt8) : Prop := l = ascii "Z" ∨ l = ascii "+00:00" ∨ l = ascii "-00:00"

namespace Scan

variable {l r : List UInt8}

/-! ## Dates -/

@[simp] theorem number_append {n : ℕ} (e : Error) (ds : Numeral n) (r : List UInt8) :
    number n e (ds.bytes ++ r) = .ok (ds.value, r) :=
  number_eq_ok_iff.mpr ⟨ds, rfl, rfl⟩

/-- A numeral does not begin with a separator. -/
theorem head?_numeral {n : ℕ} (ds : Numeral (n + 1)) (r : List UInt8) {c : UInt8}
    (hc : ¬IsDigit c) : (ds.bytes ++ r).head? ≠ some c := by
  obtain ⟨b, l, hb⟩ := List.exists_cons_of_ne_nil ds.bytes_ne_nil
  have hd : IsDigit b := ds.digits_bytes b (by rw [hb]; exact List.mem_cons_self)
  rw [hb, List.cons_append, List.head?_cons]
  rintro ⟨rfl⟩
  exact hc hd

theorem skip_dash (b : Bool) {n : ℕ} (ds : Numeral (n + 1)) (r : List UInt8) :
    skip '-'.toUInt8 (dash b ++ (ds.bytes ++ r)) = (b, ds.bytes ++ r) := by
  cases b with
  | true => exact skip_self _ _
  | false => exact skip_of_head? (head?_numeral ds r (by decide))

theorem exists_skip_dash (l : List UInt8) :
    ∃ b r, l = dash b ++ r ∧ skip '-'.toUInt8 l = (b, r) := by
  rcases skip_cases '-'.toUInt8 l with ⟨r, hl, h⟩ | ⟨-, h⟩
  · exact ⟨true, r, hl, h⟩
  · exact ⟨false, l, rfl, h⟩

theorem monthAndDay_eq_ok_iff {withDashes : Bool} {m d : ℕ} :
    monthAndDay withDashes l = .ok ((m, d), r) ↔ ∃ month day : Numeral 2,
      l = month.bytes ++ (dash withDashes ++ (day.bytes ++ r)) ∧ month.value = m ∧
        day.value = d := by
  refine ⟨?_, ?_⟩
  · intro h
    rw [monthAndDay, Outcome.bind_eq_ok_iff] at h
    obtain ⟨⟨_, l1⟩, h1, h⟩ := h
    obtain ⟨month, rfl, rfl⟩ := number_eq_ok_iff.mp h1
    obtain ⟨b, l2, rfl, hskip⟩ := exists_skip_dash l1
    simp only [hskip] at h
    split_ifs at h with hb
    rw [Outcome.bind_eq_ok_iff] at h
    obtain ⟨⟨_, l3⟩, h3, h⟩ := h
    obtain ⟨day, rfl, rfl⟩ := number_eq_ok_iff.mp h3
    simp only [Outcome.pure_eq_ok, Outcome.ok.injEq, Prod.mk.injEq] at h
    obtain ⟨⟨rfl, rfl⟩, rfl⟩ := h
    exact ⟨month, day, by rw [Bool.not_eq_not.mp hb], rfl, rfl⟩
  · rintro ⟨month, day, rfl, rfl, rfl⟩
    simp only [monthAndDay, number_append, Outcome.ok_bind, skip_dash]
    rw [if_neg (Bool.eq_not.not.mpr (not_not_intro rfl))]
    rfl

/-- **What the scanner accepts as a date**: the text of a date that exists, whatever follows. -/
theorem date_eq_ok_iff {d : Date} :
    date l = .ok (d, r) ↔ d.Valid ∧ ∃ ds, l = ds ++ r ∧ DateText ds d := by
  refine ⟨?_, ?_⟩
  · intro h
    obtain ⟨negative, l0, rfl, h0⟩ := exists_skip_dash l
    simp only [date, h0, Outcome.bind_eq_ok_iff] at h
    obtain ⟨⟨_, l1⟩, h1, h⟩ := h
    obtain ⟨year, rfl, rfl⟩ := number_eq_ok_iff.mp h1
    obtain ⟨dashes, l2, rfl, h2⟩ := exists_skip_dash l1
    simp only [h2] at h
    obtain ⟨⟨⟨_, _⟩, l3⟩, h3, d', hd', h⟩ := h
    obtain ⟨month, day, rfl, rfl, rfl⟩ := monthAndDay_eq_ok_iff.mp h3
    simp only [Outcome.pure_eq_ok, Outcome.ok.injEq, Prod.mk.injEq] at h
    obtain ⟨rfl, rfl⟩ := h
    obtain ⟨hd, hv⟩ := Date.init_eq_ok_iff.mp hd'
    refine ⟨hv, _, ?_, hd ▸ DateText.mk negative dashes year month day⟩
    simp only [List.append_assoc]
  · rintro ⟨hv, _, rfl, ⟨negative, dashes, year, month, day⟩⟩
    have hmd : monthAndDay dashes (month.bytes ++ (dash dashes ++ (day.bytes ++ r))) =
        .ok ((month.value, day.value), r) := monthAndDay_eq_ok_iff.mpr ⟨month, day, rfl, rfl, rfl⟩
    simp only [date, List.append_assoc, skip_dash, number_append, Outcome.ok_bind, hmd]
    rw [Date.init_eq_ok_iff.mpr ⟨rfl, hv⟩]
    rfl

theorem date_suffix {x : Date × List UInt8} (h : date l = .ok x) : x.2 <:+ l := by
  obtain ⟨-, ds, rfl, -⟩ := date_eq_ok_iff.mp h
  exact List.suffix_append _ _

theorem number_ends (n : ℕ) (e : Error) (l : List UInt8) : (number n e l).Ends := by
  rcases number_cases n e l with h | ⟨x, h⟩
  · rw [h]
    exact trivial
  · rw [h]
    exact trivial

/-- A date is a value or an error. -/
theorem date_ends (l : List UInt8) : (date l).Ends := by
  have hmonthAndDay : ∀ b l, (monthAndDay b l).Ends := by
    intro b l
    refine (number_ends _ _ _).bind fun x _ ↦ ?_
    dsimp only
    split_ifs
    · exact trivial
    · exact (number_ends _ _ _).bind fun _ _ ↦ trivial
  refine (number_ends _ _ _).bind fun x _ ↦ (hmonthAndDay _ _).bind fun y _ ↦ ?_
  exact (Date.init_ends _ _ _).bind fun _ _ ↦ trivial

/-! ## Times -/

theorem fraction_eq_ok_iff {u : ℕ} : fraction l = .ok (u, r) ↔
    l ≠ [] ∧ ∃ ds, l = ds ++ r ∧ Digits ds ∧ ds.length ≤ 9 ∧ (∀ b ∈ r.head?, ¬IsDigit b) ∧
      u = value ds * 10 ^ (9 - ds.length) / 1000 := by
  rw [fraction]
  refine ⟨?_, ?_⟩
  · intro h
    split_ifs at h with h0 h64 h9
    simp only [Outcome.ok.injEq, Prod.mk.injEq] at h
    obtain ⟨rfl, rfl⟩ := h
    exact ⟨h0, run l, (run_append_drop l).symm, digits_run l, not_lt.mp h9,
      head?_drop_run l, rfl⟩
  · rintro ⟨h0, ds, rfl, hd, h9, hr, rfl⟩
    have hlt : value ds < 10 ^ 9 := (value_lt hd).trans_le (Nat.pow_le_pow_right (by omega) h9)
    rw [run_append hd hr, if_neg h0, if_neg (by omega), if_neg (by omega), List.drop_left]

/-- The overflow does not wait for the end of the run: any digits at the front that are worth
`2 ^ 64` are enough. -/
theorem fraction_eq_trap_iff {t : Trap} : fraction l = .trap t ↔
    t = .integerOverflow ∧ ∃ ds r, l = ds ++ r ∧ Digits ds ∧ 2 ^ 64 ≤ value ds := by
  rw [fraction]
  refine ⟨?_, ?_⟩
  · intro h
    split_ifs at h with h0 h64 h9
    exact ⟨(Outcome.trap.inj h).symm, run l, _, (run_append_drop l).symm, digits_run l, h64⟩
  · rintro ⟨rfl, ds, r, rfl, hd, h64⟩
    have hne : ds ++ r ≠ [] := by
      rintro h
      rw [(List.append_eq_nil_iff.mp h).1] at h64
      exact absurd h64 (by decide)
    have hrun : run (ds ++ r) = ds ++ run r := by
      rw [run, List.takeWhile_append_of_pos (by simpa [Digits] using hd), run]
    have hle : value ds ≤ value (ds ++ run r) := by
      rw [value, value, valueFrom_append]
      exact le_valueFrom _ _
    rw [if_neg hne, hrun, if_pos (h64.trans hle)]

section Time

variable (hour min sec : Numeral 2)

theorem time_minutes (h : r.head? ≠ some ':'.toUInt8) : time (minutesText hour min ++ r) =
    Time.init (.ofNat hour.value) (.ofNat min.value) 0 0 >>= fun t ↦ .ok (t, r) := by
  simp only [time, minutesText, List.append_assoc, List.cons_append, number_append,
    Outcome.ok_bind, expect_self, skip_of_head? h, if_true]
  rfl

theorem time_seconds (h : r.head? ≠ some '.'.toUInt8) : time (secondsText hour min sec ++ r) =
    Time.init (.ofNat hour.value) (.ofNat min.value) (.ofNat sec.value) 0 >>=
      fun t ↦ .ok (t, r) := by
  simp only [time, secondsText, minutesText, List.append_assoc, List.cons_append, number_append,
    Outcome.ok_bind, expect_self, skip_self, skip_of_head? h, if_true, Bool.true_eq_false, if_false]
  rfl

theorem time_fraction (r : List UInt8) :
    time (secondsText hour min sec ++ '.'.toUInt8 :: r) = fraction r >>= fun x ↦
      Time.init (.ofNat hour.value) (.ofNat min.value) (.ofNat sec.value) (.ofNat x.1) >>=
        fun t ↦ .ok (t, x.2) := by
  simp only [time, secondsText, minutesText, List.append_assoc, List.cons_append, number_append,
    Outcome.ok_bind, expect_self, skip_self, Bool.true_eq_false, if_false]
  rfl

end Time

/-- The scanner fails on a text, or the text begins in one of the three layouts. -/
theorem time_shape (l : List UInt8) : time l = .error .invalidTime ∨
    (∃ hour min r, l = minutesText hour min ++ r ∧ r.head? ≠ some ':'.toUInt8) ∨
    (∃ hour min sec r, l = secondsText hour min sec ++ r ∧ r.head? ≠ some '.'.toUInt8) ∨
    ∃ hour min sec r, l = secondsText hour min sec ++ '.'.toUInt8 :: r := by
  rcases number_cases 2 .invalidTime l with h1 | ⟨⟨_, l1⟩, h1⟩
  · exact .inl (by rw [time, h1, Outcome.error_bind])
  obtain ⟨hour, rfl, rfl⟩ := number_eq_ok_iff.mp h1
  rcases expect_cases ':'.toUInt8 .invalidTime l1 with h2 | ⟨l2, rfl, h2⟩
  · exact .inl (by simp only [time, h1, Outcome.ok_bind, h2, Outcome.error_bind])
  rcases number_cases 2 .invalidTime l2 with h3 | ⟨⟨_, l3⟩, h3⟩
  · exact .inl (by simp only [time, h1, Outcome.ok_bind, h2, h3, Outcome.error_bind])
  obtain ⟨min, rfl, rfl⟩ := number_eq_ok_iff.mp h3
  rcases skip_cases ':'.toUInt8 l3 with ⟨l4, rfl, h4⟩ | ⟨hne, -⟩
  · rcases number_cases 2 .invalidTime l4 with h5 | ⟨⟨_, l5⟩, h5⟩
    · exact .inl (by simp only [time, h1, Outcome.ok_bind, h2, h3, h4, Bool.true_eq_false, if_false,
        h5, Outcome.error_bind])
    obtain ⟨sec, rfl, rfl⟩ := number_eq_ok_iff.mp h5
    rcases skip_cases '.'.toUInt8 l5 with ⟨l6, rfl, -⟩ | ⟨hne, -⟩
    · exact .inr (.inr (.inr ⟨hour, min, sec, l6, by simp [secondsText, minutesText]⟩))
    · exact .inr (.inr (.inl ⟨hour, min, sec, l5, by simp [secondsText, minutesText], hne⟩))
  · exact .inr (.inl ⟨hour, min, l3, by simp [minutesText], hne⟩)

theorem init_bind_eq_ok_iff {h m sec : UInt8} {u : UInt32} {t : Time} {r' : List UInt8} :
    (Time.init h m sec u >>= fun t ↦ (.ok (t, r') : Result _)) = .ok (t, r) ↔
      t.Valid ∧ t = ⟨h, m, sec, u⟩ ∧ r' = r := by
  simp only [Outcome.bind_eq_ok_iff, Time.init_eq_ok_iff, Outcome.ok.injEq, Prod.mk.injEq]
  refine ⟨?_, ?_⟩
  · rintro ⟨_, ⟨rfl, hv⟩, rfl, rfl⟩
    exact ⟨hv, rfl, rfl⟩
  · rintro ⟨hv, rfl, rfl⟩
    exact ⟨_, ⟨rfl, hv⟩, rfl, rfl⟩

/-- **What the scanner accepts as a time.** -/
theorem time_eq_ok_iff {t : Time} : time l = .ok (t, r) ↔ t.Valid ∧
    ((∃ ds more, l = ds ++ r ∧ TimeText ds t more ∧ ∀ b ∈ r.head?, ¬more b) ∨
      ∃ hour min sec, l = secondsText hour min sec ++ '.'.toUInt8 :: r ∧ r ≠ [] ∧
        (∀ b ∈ r.head?, ¬IsDigit b) ∧
        t = ⟨.ofNat hour.value, .ofNat min.value, .ofNat sec.value, 0⟩) := by
  refine ⟨?_, ?_⟩
  · intro h
    rcases time_shape l with he | ⟨hour, min, r', rfl, hr⟩ | ⟨hour, min, sec, r', rfl, hr⟩ |
      ⟨hour, min, sec, r', rfl⟩
    · rw [he] at h
      cases h
    · rw [time_minutes hour min hr, init_bind_eq_ok_iff] at h
      obtain ⟨hv, rfl, rfl⟩ := h
      refine ⟨hv, .inl ⟨_, _, rfl, .minutes hour min, ?_⟩⟩
      rintro b hb rfl
      exact hr hb
    · rw [time_seconds hour min sec hr, init_bind_eq_ok_iff] at h
      obtain ⟨hv, rfl, rfl⟩ := h
      refine ⟨hv, .inl ⟨_, _, rfl, .seconds hour min sec, ?_⟩⟩
      rintro b hb rfl
      exact hr hb
    · rw [time_fraction, Outcome.bind_eq_ok_iff] at h
      obtain ⟨⟨u, r''⟩, hf, h⟩ := h
      obtain ⟨hne, ds, rfl, hds, hlen, hr, rfl⟩ := fraction_eq_ok_iff.mp hf
      obtain ⟨hv, rfl, rfl⟩ := init_bind_eq_ok_iff.mp h
      refine ⟨hv, ?_⟩
      by_cases h0 : ds = []
      · rw [h0] at hne ⊢
        exact .inr ⟨hour, min, sec, rfl, hne, hr, rfl⟩
      · exact .inl ⟨_, _, by simp, .fraction hour min sec ds hds h0 hlen, hr⟩
  · rintro ⟨hv, ⟨_, _, rfl, htext, hr⟩ | ⟨hour, min, sec, rfl, hne, hr, rfl⟩⟩
    · cases htext with
      | minutes hour min =>
        rw [time_minutes hour min fun hb ↦ hr _ hb rfl, init_bind_eq_ok_iff]
        exact ⟨hv, rfl, rfl⟩
      | seconds hour min sec =>
        rw [time_seconds hour min sec fun hb ↦ hr _ hb rfl, init_bind_eq_ok_iff]
        exact ⟨hv, rfl, rfl⟩
      | fraction hour min sec ds hds hne hlen =>
        rw [List.append_assoc, List.cons_append, time_fraction, fraction_eq_ok_iff.mpr
          ⟨by simp [hne], ds, rfl, hds, hlen, hr, rfl⟩, Outcome.ok_bind, init_bind_eq_ok_iff]
        exact ⟨hv, rfl, rfl⟩
    · rw [time_fraction, fraction_eq_ok_iff.mpr
        ⟨hne, [], rfl, digits_nil, Nat.zero_le _, hr, rfl⟩, Outcome.ok_bind, init_bind_eq_ok_iff]
      exact ⟨hv, rfl, rfl⟩

theorem time_suffix {x : Time × List UInt8} (h : time l = .ok x) : x.2 <:+ l := by
  obtain ⟨-, ⟨ds, -, rfl, -⟩ | ⟨hour, min, sec, rfl, -⟩⟩ := time_eq_ok_iff.mp h
  · exact List.suffix_append _ _
  · exact (List.suffix_cons _ _).trans (List.suffix_append _ _)

/-- **When the scanner overflows on a time**: a fraction of a value of 64 bits or more. -/
theorem time_eq_trap_iff {t : Trap} : time l = .trap t ↔ t = .integerOverflow ∧
    ∃ hour min sec ds r, l = secondsText hour min sec ++ '.'.toUInt8 :: (ds ++ r) ∧
      Digits ds ∧ 2 ^ 64 ≤ value ds := by
  have hinit : ∀ (h m s : UInt8) (u : UInt32) (r : List UInt8),
      (Time.init h m s u >>= fun t ↦ (.ok (t, r) : Result _)) ≠ .trap t := by
    intro h m s u r
    exact Outcome.ends_iff.mp ((Time.init_ends h m s u).bind fun _ _ ↦ Outcome.ends_ok _) t
  refine ⟨?_, ?_⟩
  · intro h
    rcases time_shape l with he | ⟨hour, min, r', rfl, hr⟩ | ⟨hour, min, sec, r', rfl, hr⟩ |
      ⟨hour, min, sec, r', rfl⟩
    · rw [he] at h
      cases h
    · rw [time_minutes hour min hr] at h
      exact absurd h (hinit _ _ _ _ _)
    · rw [time_seconds hour min sec hr] at h
      exact absurd h (hinit _ _ _ _ _)
    · rw [time_fraction, Outcome.bind_eq_trap_iff] at h
      rcases h with h | ⟨x, -, h⟩
      · obtain ⟨rfl, ds, r, rfl, hds, h64⟩ := fraction_eq_trap_iff.mp h
        exact ⟨rfl, hour, min, sec, ds, r, rfl, hds, h64⟩
      · exact absurd h (hinit _ _ _ _ _)
  · rintro ⟨rfl, hour, min, sec, ds, r, rfl, hds, h64⟩
    rw [time_fraction, fraction_eq_trap_iff.mpr ⟨rfl, ds, r, rfl, hds, h64⟩, Outcome.trap_bind]

/-! ## UTC -/

theorem utc_eq_ok_iff : utc l = .ok () ↔ Zone l := by
  rw [utc, Zone]
  refine ⟨?_, ?_⟩
  · intro h
    split_ifs at h with h1 hz h6 hsign htail
    · exact .inl hz
    · obtain ⟨b, l, rfl⟩ := List.exists_cons_of_length_pos (by omega : 0 < l.length)
      simp only [List.head?_cons, ne_eq, Option.some.injEq, List.tail_cons, not_and_or,
        not_not] at hsign htail
      rcases hsign with rfl | rfl
      · exact .inr (.inl (by rw [htail]; rfl))
      · exact .inr (.inr (by rw [htail]; rfl))
  · rintro (rfl | rfl | rfl) <;> decide

end Scan
end Datetime
