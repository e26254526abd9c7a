import Zmongo.Datetime.Grammar
import Zmongo.Datetime.Parser

/-!
# The parser is the scanner

`Parser.on s l` is the parser with `l` left of `s`.  The theorems here say that each function of the
parser ends on it as the scanner of `Datetime.Scan` does on `l`, with the parser moved on to what is
left then (`time_on`, `iso8601Date_on`, `suffix_on`), and that the three functions for a whole input
end as the scanners on that input (`date_parse_outcome`, `time_parse_outcome`,
`parseRFC3339_outcome`).

They are equations between outcomes, so errors and traps are the same ones.  A function that looks
at the next byte has the hypothesis that there is one; what is behind the end is
`consumeOrFail_on_nil`.
-/

set_option autoImplicit false

open Zig IntType Decimal

namespace Datetime

namespace Parser

open Scan

variable {s l : List UInt8}

/-- The parser with `l` left of `s`. -/
def on (s l : List UInt8) : Parser := ⟨s, s.length - l.length⟩

@[simp] theorem input_on (s l : List UInt8) : (on s l).input = s := rfl

theorem init_eq_on (s : List UInt8) : init s = on s s := by
  rw [init, on, Nat.sub_self]

/-- The text `l` is in the input at index `i`. -/
def Occurs (s : List UInt8) (i : ℕ) (l : List UInt8) : Prop :=
  ∀ j, j < l.length → s[i + j]? = l[j]?

theorem Occurs.read {i : ℕ} {b : UInt8} (h : Occurs s i (b :: l)) :
    (Traced.read s i : Traced Error UInt8).outcome = .ok b :=
  Traced.outcome_read s (h 0 (Nat.zero_lt_succ _))

theorem Occurs.tail {i : ℕ} {b : UInt8} (h : Occurs s i (b :: l)) : Occurs s (i + 1) l := by
  intro j hj
  have hj' := h (j + 1) (Nat.succ_lt_succ hj)
  rwa [List.getElem?_cons_succ, show i + (j + 1) = i + 1 + j by omega] at hj'

/-! ## The primitive scanners -/

section

variable (h : l <:+ s)
include h

theorem pos_on_add : (on s l).pos + l.length = s.length := Nat.sub_add_cancel h.length_le

/-- The input from the position on is what is left. -/
theorem occurs_on : Occurs s (on s l).pos l := by
  intro i _
  obtain ⟨pre, rfl⟩ := h
  have hpos : (on (pre ++ l) l).pos = pre.length := by
    rw [on, List.length_append, Nat.add_sub_cancel]
  rw [hpos, List.getElem?_append_right (Nat.le_add_right _ _), Nat.add_sub_cancel_left]

theorem unconsumed_on : (on s l).unconsumed.outcome = .ok l.length := by
  have hpos : s.length - l.length + l.length = s.length := pos_on_add h
  rw [unconsumed, Traced.outcome_lift, on]
  dsimp only
  rw [if_pos (by omega)]
  congr 1
  omega

theorem rest_on : (on s l).rest.outcome = .ok l := by
  obtain ⟨pre, rfl⟩ := h
  have hpos : (pre ++ l).length - l.length = pre.length := by
    rw [List.length_append, Nat.add_sub_cancel]
  rw [rest, Traced.outcome_lift, on]
  dsimp only
  rw [hpos, slice, if_pos ⟨by simp, le_rfl⟩, List.take_length, List.drop_left]

end

/-- The parser moved on by `n` bytes. -/
theorem on_advance {r : List UInt8} {n : ℕ} (h : l <:+ s) (hr : l.length = n + r.length) :
    (⟨s, (on s l).pos + n⟩ : Parser) = on s r := by
  have hpos : s.length - l.length + l.length = s.length := pos_on_add h
  simp only [on, Parser.mk.injEq, true_and]
  omega

theorem consumeIf_on (h : l <:+ s) (hne : l ≠ []) (c : UInt8) :
    ((on s l).consumeIf c).outcome = .ok ((skip c l).1, on s (skip c l).2) := by
  obtain ⟨b, l, rfl⟩ := List.exists_cons_of_ne_nil hne
  simp only [consumeIf, Traced.outcome_bind, Traced.outcome_ite, input_on, (occurs_on h).read,
    Outcome.ok_bind, Traced.outcome_seek, Traced.outcome_pure, skip]
  by_cases hb : b = c
  · rw [if_neg (not_not_intro hb), if_pos hb,
      on_advance h (r := l) (by rw [List.length_cons, Nat.add_comm])]
  · rw [if_pos hb, if_neg hb]

/-- Behind the end there is nothing to look at. -/
theorem consumeIf_on_nil (s : List UInt8) (c : UInt8) :
    ((on s []).consumeIf c).outcome = .trap .indexOutOfBounds := by
  simp only [consumeIf, Traced.outcome_bind, on, List.length_nil, Nat.sub_zero, Traced.read,
    List.getElem?_eq_none le_rfl, Outcome.trap_bind]

/-- The run of digits in a fraction: its value, or the overflow when that does not fit. -/
theorem nanosecondsLoop_outcome {start i v : ℕ} (hs : Occurs s (start + i) l)
    (hv : v < 2 ^ 64) : (nanosecondsLoop s start l.length i v).outcome =
      if 2 ^ 64 ≤ valueFrom v (run l) then .trap .integerOverflow
      else .ok ((valueFrom v (run l) : ℤ), i + (run l).length) := by
  induction l generalizing i v with
  | nil => rw [run_nil, valueFrom_nil, if_neg hv.not_ge]; rfl
  | cons b l ih =>
    simp only [List.length_cons, nanosecondsLoop, Traced.outcome_bind, hs.read, Outcome.ok_bind,
      Traced.outcome_ite, Traced.outcome_lift]
    by_cases hb : IsDigit b
    · have hle := le_valueFrom (v * 10 + digitValue b) (run l)
      rw [if_neg (UInt8.not_lt.mpr hb), run_cons hb, valueFrom_cons, ← digitValue]
      by_cases hmul : v * 10 < 2 ^ 64
      · rw [mul_ok (by rw [holds_usize]; omega), Outcome.ok_bind]
        by_cases hadd : v * 10 + digitValue b < 2 ^ 64
        · rw [add_ok (by rw [holds_usize]; omega), Outcome.ok_bind]
          have hih := ih (i := i + 1) hs.tail hadd
          rw [Nat.cast_add, Nat.cast_mul, Nat.cast_ofNat] at hih
          rw [hih, List.length_cons, Nat.add_assoc, Nat.add_comm 1]
        · rw [IntType.add, checked_trap (by rw [holds_usize]; omega), Outcome.trap_bind,
            if_pos (by omega)]
      · rw [IntType.mul, checked_trap (by rw [holds_usize]; omega), Outcome.trap_bind,
          if_pos (by omega)]
    · rw [if_pos (UInt8.not_le.mp hb), run_cons_of_not hb, valueFrom_nil, if_neg hv.not_ge]
      rfl

theorem nanoseconds_on (h : l <:+ s) : (on s l).nanoseconds.outcome =
    if l = [] then .ok (none, on s l)
    else if 2 ^ 64 ≤ value (run l) then .trap .integerOverflow
    else if 9 < (run l).length then .ok (none, on s l)
    else .ok (some ((value (run l) * 10 ^ (9 - (run l).length) : ℕ) : ℤ),
      on s (l.drop (run l).length)) := by
  have hs : Occurs s ((on s l).pos + 0) l := occurs_on h
  have hloop := nanosecondsLoop_outcome hs (Nat.two_pow_pos 64)
  rw [Nat.zero_add, ← value, Nat.cast_zero] at hloop
  simp only [nanoseconds, Traced.outcome_bind, rest_on h, Outcome.ok_bind, Traced.outcome_ite,
    List.length_eq_zero_iff, input_on, hloop]
  split_ifs with h0 h64 h9
  · rfl
  · rfl
  · simp only [Outcome.ok_bind, gt_iff_lt, h9, if_true, Traced.outcome_pure]
  · have hlt := value_mul_pow_lt (digits_run l) (not_lt.mp h9)
    have hmul : usize.Holds (value (run l) * 10 ^ (9 - (run l).length) : ℤ) := by
      rw [holds_usize]
      exact ⟨by positivity, by exact_mod_cast hlt.le.trans (by norm_num)⟩
    have hadv := on_advance h (r := l.drop (run l).length) (n := (run l).length) (by
      have := (List.takeWhile_prefix (IsDigit ·) (l := l)).length_le
      rw [run, List.length_drop]
      omega)
    simp only [Outcome.ok_bind, gt_iff_lt, h9, if_false, Traced.outcome_seek,
      Traced.outcome_lift, mul_ok hmul, Traced.outcome_pure, hadv]
    push_cast
    rfl

/-- The digits of a number of fixed width. -/
theorem paddedIntLoop_outcome {t : IntType} {i v : ℕ} (hs : Occurs s i l)
    (hfit : ∀ x : ℕ, x < (v + 1) * 10 ^ l.length → t.Holds x) :
    (paddedIntLoop t s l.length i v).outcome =
      .ok (if Digits l then some (valueFrom v l : ℤ) else none) := by
  induction l generalizing i v with
  | nil =>
    rw [if_pos digits_nil]
    rfl
  | cons b l ih =>
    simp only [List.length_cons, paddedIntLoop, Traced.outcome_bind, hs.read, Outcome.ok_bind,
      Traced.outcome_ite, Traced.outcome_lift]
    by_cases hb : IsDigit b
    · have hlt := digitValue_lt hb
      have hle : (v * 10 + digitValue b + 1) * 10 ^ l.length ≤ (v + 1) * 10 ^ (l.length + 1) := by
        rw [pow_succ', ← mul_assoc]
        exact Nat.mul_le_mul_right _ (by omega)
      have hpos : v * 10 + digitValue b < (v * 10 + digitValue b + 1) * 10 ^ l.length :=
        Nat.lt_of_lt_of_le (Nat.lt_succ_self _) (Nat.le_mul_of_pos_right _ (by positivity))
      have hmul : t.Holds ((v : ℤ) * 10) := by
        exact_mod_cast hfit (v * 10) (by rw [List.length_cons]; omega)
      have hadd : t.Holds ((v : ℤ) * 10 + digitValue b) := by
        exact_mod_cast hfit (v * 10 + digitValue b) (by rw [List.length_cons]; omega)
      rw [if_neg (UInt8.not_lt.mpr hb), ← digitValue, mul_ok hmul, Outcome.ok_bind, add_ok hadd,
        Outcome.ok_bind]
      have hih := ih (v := v * 10 + digitValue b) hs.tail fun x hx ↦ hfit x (hx.trans_le hle)
      rw [Nat.cast_add, Nat.cast_mul, Nat.cast_ofNat] at hih
      rw [hih]
      simp only [valueFrom_cons, digits_cons, hb, true_and]
    · rw [if_pos (UInt8.not_le.mp hb), if_neg fun hd ↦ hb (digits_cons.mp hd).1]
      rfl

theorem paddedInt_on {α : Type} {t : IntType} {mk : ℤ → α} {n : ℕ} (h : l <:+ s)
    (hfit : ∀ x : ℕ, x < 10 ^ n → t.Holds x) : ((on s l).paddedInt t mk n).outcome =
      .ok (match readDigits n l with
        | some (v, r) => (some (mk v), on s r)
        | none => (none, on s l)) := by
  have hpos : (on s l).pos + l.length = s.length := pos_on_add h
  by_cases hn : n ≤ l.length
  · have htake : (l.take n).length = n := List.length_take_of_le hn
    have hloop := paddedIntLoop_outcome (s := s) (l := l.take n) (i := (on s l).pos) (v := 0)
      (t := t) (fun j hj ↦ by
        rw [occurs_on h j (by omega), List.getElem?_take_of_lt (by omega)])
      (by rwa [Nat.zero_add, one_mul, htake])
    rw [htake, ← value, Nat.cast_zero] at hloop
    have hstop : ¬(on s l).pos + n > (on s l).input.length := by
      rw [input_on]
      omega
    simp only [paddedInt]
    rw [if_neg hstop, Traced.outcome_bind, input_on, hloop, Outcome.ok_bind]
    by_cases hd : Digits (l.take n)
    · have hadv := on_advance h (r := l.drop n) (n := n) (by rw [List.length_drop]; omega)
      simp only [readDigits, hn, hd, if_true, and_self, Traced.outcome_bind, Traced.outcome_seek,
        Outcome.ok_bind, Traced.outcome_pure, hadv]
    · simp only [readDigits, hd, if_false, and_false, Traced.outcome_pure]
  · have hstop : (on s l).pos + n > (on s l).input.length := by
      rw [input_on]
      omega
    simp only [paddedInt]
    rw [if_pos hstop, readDigits, if_neg fun h ↦ hn h.1, Traced.outcome_pure]

theorem paddedIntOrFail_on {α : Type} {t : IntType} {mk : ℤ → α} {n : ℕ} (h : l <:+ s)
    (hfit : ∀ x : ℕ, x < 10 ^ n → t.Holds x) (e : Error) :
    ((on s l).paddedIntOrFail t mk n e).outcome =
      number n e l >>= fun x ↦ .ok (mk x.1, on s x.2) := by
  simp only [paddedIntOrFail, Traced.outcome_bind, paddedInt_on h hfit, Outcome.ok_bind, number]
  cases readDigits n l <;> rfl

theorem consumeOrFail_on (h : l <:+ s) (hne : l ≠ []) (c : UInt8) (e : Error) :
    ((on s l).consumeOrFail c e).outcome = expect c e l >>= fun r ↦ .ok (on s r) := by
  simp only [consumeOrFail, Traced.outcome_bind, consumeIf_on h hne, Outcome.ok_bind, expect]
  cases (skip c l).1 <;> rfl

theorem consumeOrFail_on_nil (s : List UInt8) (c : UInt8) (e : Error) :
    ((on s []).consumeOrFail c e).outcome = .trap .indexOutOfBounds := by
  rw [consumeOrFail, Traced.outcome_bind, consumeIf_on_nil, Outcome.trap_bind]

theorem consumeUnless_on {stop : Bool} (h : l <:+ s) (hstop : stop = true ↔ l = []) (c : UInt8) :
    ((on s l).consumeUnless stop c).outcome = .ok ((skip c l).1, on s (skip c l).2) := by
  by_cases hl : l = []
  · rw [consumeUnless, if_pos (hstop.mpr hl), hl]
    rfl
  · rw [consumeUnless, if_neg (mt hstop.mp hl), consumeIf_on h hl]

/-! ## The scanners -/

theorem holds_two (x : ℕ) (hx : x < 10 ^ 2) : u8.Holds x := by
  rw [holds_u8]
  omega

theorem holds_four (x : ℕ) (hx : x < 10 ^ 4) : i16.Holds x := by
  rw [holds_i16]
  omega

theorem fraction_on (h : l <:+ s) : (on s l).fraction.outcome =
    Scan.fraction l >>= fun x ↦ .ok (UInt32.ofNat x.1, on s x.2) := by
  simp only [Parser.fraction, Traced.outcome_bind, nanoseconds_on h, Scan.fraction]
  split_ifs with h0 h64 h9
  · rfl
  · rfl
  · rfl
  · have hlt := value_mul_pow_lt (digits_run l) (not_lt.mp h9)
    simp only [Outcome.ok_bind, orElseFail, Traced.outcome_pure, Traced.outcome_lift]
    generalize value (run l) * 10 ^ (9 - (run l).length) = n at hlt ⊢
    have hdiv : (n : ℤ) / 1000 = ((n / 1000 : ℕ) : ℤ) := by omega
    rw [hdiv, cast_ok (by rw [holds_u32]; omega), Outcome.ok_bind, ofInt_natCast_u32]

theorem time_on (h : l <:+ s) :
    (on s l).time.outcome = Scan.time l >>= fun x ↦ .ok (x.1, on s x.2) := by
  simp only [Parser.time, Traced.outcome_bind, unconsumed_on h, Outcome.ok_bind,
    Traced.outcome_ite]
  by_cases hlen : l.length < 5
  · rw [if_pos hlen, time_of_short hlen]
    rfl
  rw [if_neg hlen, paddedIntOrFail_on h holds_two, Scan.time]
  simp only [Outcome.bind_assoc, Outcome.ok_bind, Outcome.pure_eq_ok, Traced.outcome_pure,
    Traced.outcome_lift, ofInt_natCast_u8]
  refine Outcome.bind_congr fun x hx ↦ ?_
  obtain ⟨hs1, hlen1, -⟩ := number_spec hx
  rw [consumeOrFail_on (hs1.trans h) (by rintro h0; rw [h0] at hlen1; simp at hlen1; omega),
    Outcome.bind_assoc]
  refine Outcome.bind_congr fun l2 hl2 ↦ ?_
  have hs2 := ((expect_suffix hl2).trans hs1).trans h
  rw [expect_eq_ok_iff] at hl2
  rw [hl2, List.length_cons] at hlen1
  rw [Outcome.ok_bind, paddedIntOrFail_on hs2 holds_two, Outcome.bind_assoc]
  refine Outcome.bind_congr fun y hy ↦ ?_
  obtain ⟨hs3, hlen3, -⟩ := number_spec hy
  rw [Outcome.ok_bind, consumeUnless_on (hs3.trans hs2) (by
    rw [decide_eq_true_iff, ← List.length_eq_zero_iff]
    omega), Outcome.ok_bind]
  rcases skip_cases ':'.toUInt8 y.2 with ⟨l4, hl4, hskip⟩ | ⟨-, hskip⟩
  · have hs4 : l4 <:+ s := ((List.suffix_cons _ l4).trans (hl4 ▸ hs3)).trans hs2
    rw [hl4, List.length_cons] at hlen3
    simp only [hskip, Bool.true_eq_false, if_false]
    rw [paddedIntOrFail_on hs4 holds_two, Outcome.bind_assoc, Outcome.bind_assoc]
    refine Outcome.bind_congr fun z hz ↦ ?_
    obtain ⟨hs5, hlen5, -⟩ := number_spec hz
    rw [Outcome.ok_bind, consumeUnless_on (hs5.trans hs4) (by
      rw [decide_eq_true_iff, ← List.length_eq_zero_iff]
      omega), Outcome.ok_bind]
    have hs6 := ((skip_suffix '.'.toUInt8 z.2).trans hs5).trans hs4
    simp only [ofInt_natCast_u8]
    split_ifs
    · simp only [Outcome.bind_assoc, Outcome.ok_bind]
    · rw [fraction_on hs6]
      simp only [Outcome.bind_assoc, Outcome.ok_bind]
  · rw [hskip]
    simp only [if_true, Outcome.bind_assoc, Outcome.ok_bind, ofInt_natCast_u8]

theorem monthAndDay_on {withDashes : Bool} (h : l <:+ s) (hlen : 3 ≤ l.length) :
    ((on s l).monthAndDay withDashes).outcome = Scan.monthAndDay withDashes l >>=
      fun x ↦ .ok ((.ofNat x.1.1, .ofNat x.1.2), on s x.2) := by
  simp only [Parser.monthAndDay, Traced.outcome_bind, Traced.outcome_ite, Traced.outcome_pure,
    Scan.monthAndDay, Outcome.pure_eq_ok]
  rw [paddedIntOrFail_on h holds_two, Outcome.bind_assoc, Outcome.bind_assoc]
  refine Outcome.bind_congr fun x hx ↦ ?_
  obtain ⟨hs1, hlen1, -⟩ := number_spec hx
  have hne : x.2 ≠ [] := by
    rw [← List.length_pos_iff]
    omega
  have hs2 := ((skip_suffix '-'.toUInt8 x.2).trans hs1).trans h
  rw [Outcome.ok_bind, consumeIf_on (hs1.trans h) hne, Outcome.ok_bind]
  split_ifs
  · rfl
  · rw [paddedIntOrFail_on hs2 holds_two]
    simp only [Outcome.bind_assoc, Outcome.ok_bind, ofInt_natCast_u8]

theorem iso8601Date_on (h : l <:+ s) :
    (on s l).iso8601Date.outcome = Scan.date l >>= fun x ↦ .ok (x.1, on s x.2) := by
  simp only [Parser.iso8601Date, Traced.outcome_bind, unconsumed_on h, Outcome.ok_bind,
    Traced.outcome_ite]
  by_cases hlen : l.length < 8
  · rw [if_pos hlen, date_of_short hlen]
    rfl
  have hs0 := (skip_suffix '-'.toUInt8 l).trans h
  have hlen0 := length_skip '-'.toUInt8 l
  have hle0 := Bool.toNat_le (skip '-'.toUInt8 l).1
  rw [if_neg hlen, consumeIf_on h (by rintro rfl; exact hlen (by decide)), Scan.date,
    Outcome.ok_bind, paddedIntOrFail_on hs0 holds_four]
  simp only [Outcome.bind_assoc, Outcome.ok_bind, Traced.outcome_pure, Traced.outcome_lift]
  refine Outcome.bind_congr fun x hx ↦ ?_
  obtain ⟨hs1, hlen1, hlt⟩ := number_spec hx
  have hlen2 := length_skip '-'.toUInt8 x.2
  have hs2 := ((skip_suffix '-'.toUInt8 x.2).trans hs1).trans hs0
  rw [consumeIf_on (hs1.trans hs0) (by rw [← List.length_pos_iff]; omega), Outcome.ok_bind]
  by_cases hdash : (skip '-'.toUInt8 x.2).1 = true ∧ l.length < 10
  · have hone : (skip '-'.toUInt8 x.2).1.toNat = 1 := by rw [hdash.1]; rfl
    rw [if_pos hdash, monthAndDay_of_short (by omega)]
    rfl
  have hrest : 3 ≤ (skip '-'.toUInt8 x.2).2.length := by
    cases hd : (skip '-'.toUInt8 x.2).1 with
    | true =>
      have hge : ¬l.length < 10 := fun hlt ↦ hdash ⟨hd, hlt⟩
      rw [hd, Bool.toNat_true] at hlen2
      omega
    | false =>
      rw [hd, Bool.toNat_false] at hlen2
      omega
  rw [if_neg hdash, monthAndDay_on hs2 hrest]
  simp only [Outcome.bind_assoc, Outcome.ok_bind, Outcome.pure_eq_ok]
  refine Outcome.bind_congr fun y _ ↦ ?_
  have hyear : i16.Holds (x.1 : ℤ) := holds_four _ hlt
  rw [holds_i16] at hyear
  rw [toInt_ofInt_i16 (holds_four _ hlt)]
  cases (skip '-'.toUInt8 l).1 with
  | true =>
    simp only [if_true]
    rw [sub_ok (by rw [holds_i16]; omega)]
    simp only [Outcome.ok_bind, zero_sub]
  | false => simp only [Bool.false_eq_true, if_false, Outcome.ok_bind]

/-- The comparison with a text of the same length. -/
theorem eqlLoop_outcome {text : List UInt8} {i : ℕ} (hlen : l.length = text.length)
    (hs : Occurs s i l) :
    (eqlLoop s i text).outcome = .ok (decide (l = text)) := by
  induction text generalizing l i with
  | nil =>
    rw [List.length_eq_zero_iff.mp hlen]
    rfl
  | cons c text ih =>
    obtain ⟨b, l, rfl⟩ := List.exists_cons_of_length_pos (by rw [hlen]; exact Nat.zero_lt_succ _)
    simp only [eqlLoop, Traced.outcome_bind, hs.read, Outcome.ok_bind, Traced.outcome_ite]
    by_cases hb : b = c
    · rw [if_neg (not_not_intro hb), ih (by simpa using hlen) hs.tail]
      simp [hb]
    · rw [if_pos hb]
      simp [hb]

theorem suffix_on (h : l <:+ s) : (on s l).suffix.outcome = utc l := by
  rw [Parser.suffix, Traced.outcome_bind, unconsumed_on h, Outcome.ok_bind, utc]
  split
  case h_1 hlen =>
    rw [if_neg (by omega), if_neg (by omega)]
    rfl
  case h_2 hlen =>
    obtain ⟨b, rfl⟩ := List.length_eq_one_iff.mp hlen
    rw [if_pos hlen, Traced.outcome_bind, consumeOrFail_on h (List.cons_ne_nil b [])]
    rcases expect_cases 'Z'.toUInt8 .invalidDateTime [b] with he | ⟨r, hr, he⟩
    · rw [he, if_neg]
      · rfl
      · rintro hb
        rw [expect_eq_ok_iff.mpr hb] at he
        cases he
    · obtain ⟨rfl, rfl⟩ := List.cons.inj hr
      rw [he, if_pos rfl]
      rfl
  case h_3 hlen =>
    obtain ⟨b, l, rfl⟩ := List.exists_cons_of_length_pos (by omega : 0 < l.length)
    have htext : l.length = (ascii "00:00").length := Nat.succ_injective hlen
    have heql := eqlLoop_outcome htext (occurs_on h).tail
    rw [hlen]
    simp only [Traced.outcome_bind, rest_on h, Outcome.ok_bind, input_on, (occurs_on h).read,
      Traced.outcome_ite, eql, List.length_cons, Nat.add_sub_cancel, htext, heql]
    rw [if_neg (by decide : ¬6 = 1), if_pos trivial]
    simp only [ne_eq, not_true_eq_false, if_false, Outcome.ok_bind, List.head?_cons,
      Option.some.injEq, List.tail_cons, decide_eq_false_iff_not]
    rfl
  case h_4 h0 h1 h6 =>
    rw [if_neg h1, if_neg h6]
    rfl

/-! ## The functions for a whole input -/

theorem date_parse_outcome (s : List UInt8) : (Date.parse s).outcome = Scan.date s >>= fun x ↦
    if x.2 = [] then .ok x.1 else .error .invalidDate := by
  simp only [Date.parse, Traced.outcome_bind, init_eq_on, iso8601Date_on List.suffix_rfl,
    Outcome.bind_assoc, Outcome.ok_bind, Traced.outcome_ite]
  refine Outcome.bind_congr fun x hx ↦ ?_
  rw [unconsumed_on (date_suffix hx), Outcome.ok_bind]
  simp only [ne_eq, ite_not, List.length_eq_zero_iff]
  rfl

theorem time_parse_outcome (s : List UInt8) : (Time.parse s).outcome = Scan.time s >>= fun x ↦
    if x.2 = [] then .ok x.1 else .error .invalidTime := by
  simp only [Time.parse, Traced.outcome_bind, init_eq_on, time_on List.suffix_rfl,
    Outcome.bind_assoc, Outcome.ok_bind, Traced.outcome_ite]
  refine Outcome.bind_congr fun x hx ↦ ?_
  rw [unconsumed_on (time_suffix hx), Outcome.ok_bind]
  simp only [ne_eq, ite_not, List.length_eq_zero_iff]
  rfl

theorem parseRFC3339_outcome (s : List UInt8) : (DateTime.parseRFC3339 s).outcome = rfc3339 s := by
  simp only [DateTime.parseRFC3339, Traced.outcome_bind, init_eq_on,
    iso8601Date_on List.suffix_rfl, Outcome.bind_assoc, Outcome.ok_bind, Traced.outcome_ite,
    rfc3339]
  refine Outcome.bind_congr fun x hx ↦ ?_
  have hs1 := date_suffix hx
  split_ifs with hyear hnil
  · rfl
  · rw [hnil, consumeOrFail_on_nil, Outcome.trap_bind]
  · rw [consumeOrFail_on hs1 hnil, Outcome.bind_assoc]
    refine Outcome.bind_congr fun l hl ↦ ?_
    have hs2 := (expect_suffix hl).trans hs1
    rw [Outcome.ok_bind, time_on hs2, Outcome.bind_assoc]
    refine Outcome.bind_congr fun y hy ↦ ?_
    rw [Outcome.ok_bind, suffix_on ((time_suffix hy).trans hs2)]
    rfl

end Parser
end Datetime
