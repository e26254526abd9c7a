import Zmongo.Datetime.Accept

/-!
# The reads of the parser

No function of the parser moves the position past the end, whatever position it starts from, and a
read past the end is stopped by the bounds check (`parseRFC3339_safe`).  So what is left to know is
when a run of `parseRFC3339` ends by itself, and there the scanner is the shorter text to look at:
it traps where the source looks for a `T` behind the end of the input, and where the digits of a
fraction do not fit a `usize` (`rfc3339_eq_trap_iff`).
-/

set_option autoImplicit false

open Zig IntType Decimal Traced

namespace Datetime

variable {s : List UInt8} {α : Type}

/-! ## Staying inside the input -/

theorem fail_safe {n : ℕ} {Q : α → Prop} (e : Error) : (fail e : Traced Error α).SafeTo n Q :=
  safeTo_lift fun _ h ↦ nomatch h

theorem orElseFail_safe {n : ℕ} (x : Option α) (e : Error) :
    (orElseFail x e).SafeTo n fun _ ↦ True := by
  cases x with
  | none => exact fail_safe e
  | some a => exact safeTo_pure trivial

namespace Parser

/-- The parser that is returned is one of the same input. -/
def Of (s : List UInt8) (x : α × Parser) : Prop := x.2.input = s

variable {p : Parser} (hp : p.input = s)
include hp

theorem consumeIf_safe (c : UInt8) : (p.consumeIf c).SafeTo s.length (Of s) := by
  subst hp
  refine (safeTo_read p.input p.pos).bind fun b hb ↦ safeTo_ite (fun _ ↦ safeTo_pure rfl) fun _ ↦ ?_
  exact (safeTo_seek hb).bind fun _ _ ↦ safeTo_pure rfl

theorem rest_safe : p.rest.SafeTo s.length fun l ↦ p.pos + l.length = s.length := by
  subst hp
  refine safeTo_lift fun l hl ↦ ?_
  rw [slice] at hl
  split_ifs at hl with h
  rw [Outcome.ok.injEq] at hl
  rw [← hl, List.length_drop, List.length_take]
  omega

omit hp in
theorem nanosecondsLoop_safe (start n i : ℕ) (value : ℤ) :
    (nanosecondsLoop s start n i value).SafeTo s.length fun x ↦ x.2 ≤ i + n := by
  induction n generalizing i value with
  | zero => exact safeTo_pure le_rfl
  | succ n ih =>
    refine (safeTo_read s _).bind fun b _ ↦ safeTo_ite (fun _ ↦ safeTo_pure ?_) fun _ ↦ ?_
    · exact Nat.le_add_right i (n + 1)
    refine safeTo_lift_bind fun v ↦ ?_
    refine safeTo_lift_bind fun v ↦ ?_
    refine (ih (i + 1) v).mono fun x hx ↦ ?_
    omega

theorem nanoseconds_safe : p.nanoseconds.SafeTo s.length (Of s) := by
  subst hp
  refine (rest_safe rfl).bind fun input hinput ↦ safeTo_ite (fun _ ↦ safeTo_pure rfl) fun _ ↦ ?_
  refine (nanosecondsLoop_safe p.pos input.length 0 0).bind fun ⟨value, len⟩ hlen ↦ ?_
  refine safeTo_ite (fun _ ↦ safeTo_pure rfl) fun _ ↦ ?_
  refine (safeTo_seek (by dsimp only at hlen; omega)).bind fun _ _ ↦ ?_
  exact safeTo_lift_bind fun _ ↦ safeTo_pure rfl

theorem fraction_safe : p.fraction.SafeTo s.length (Of s) := by
  refine (nanoseconds_safe hp).bind fun ⟨nanos, p⟩ hp ↦ ?_
  refine (orElseFail_safe _ _).bind fun nanos _ ↦ ?_
  exact safeTo_lift_bind fun _ ↦ safeTo_pure hp

omit hp in
theorem paddedIntLoop_safe (t : IntType) (n i : ℕ) (value : ℤ) :
    (paddedIntLoop t s n i value).SafeTo s.length fun _ ↦ True := by
  induction n generalizing i value with
  | zero => exact safeTo_pure trivial
  | succ n ih =>
    refine (safeTo_read s i).bind fun b _ ↦ safeTo_ite (fun _ ↦ safeTo_pure trivial) fun _ ↦ ?_
    refine safeTo_lift_bind fun v ↦ ?_
    exact safeTo_lift_bind fun v ↦ ih (i + 1) v

theorem paddedInt_safe (t : IntType) (mk : ℤ → α) (size : ℕ) :
    (p.paddedInt t mk size).SafeTo s.length (Of s) := by
  subst hp
  refine safeTo_ite (fun _ ↦ safeTo_pure rfl) fun hstop ↦ ?_
  refine (paddedIntLoop_safe t size p.pos 0).bind fun value _ ↦ ?_
  cases value with
  | none => exact safeTo_pure rfl
  | some value => exact (safeTo_seek (not_lt.mp hstop)).bind fun _ _ ↦ safeTo_pure rfl

theorem paddedIntOrFail_safe (t : IntType) (mk : ℤ → α) (size : ℕ) (e : Error) :
    (p.paddedIntOrFail t mk size e).SafeTo s.length (Of s) := by
  refine (paddedInt_safe hp t mk size).bind fun ⟨value, p⟩ hp ↦ ?_
  exact (orElseFail_safe value e).bind fun _ _ ↦ safeTo_pure hp

theorem consumeOrFail_safe (c : UInt8) (e : Error) :
    (p.consumeOrFail c e).SafeTo s.length (·.input = s) := by
  refine (consumeIf_safe hp c).bind fun ⟨consumed, p⟩ hp ↦ ?_
  exact safeTo_ite (fun _ ↦ fail_safe e) fun _ ↦ safeTo_pure hp

theorem consumeUnless_safe (stop : Bool) (c : UInt8) :
    (p.consumeUnless stop c).SafeTo s.length (Of s) :=
  safeTo_ite (fun _ ↦ safeTo_pure hp) fun _ ↦ consumeIf_safe hp c

omit hp in
theorem unconsumed_safe (n : ℕ) (p : Parser) : p.unconsumed.SafeTo n fun _ ↦ True :=
  safeTo_lift fun _ _ ↦ trivial

/-- The value of an outcome, with the parser. -/
theorem return_safe (x : Result α) :
    (do pure (← .lift x, p) : Traced Error (α × Parser)).SafeTo s.length (Of s) :=
  safeTo_lift_bind fun _ ↦ safeTo_pure hp

theorem time_safe : p.time.SafeTo s.length (Of s) := by
  refine (unconsumed_safe _ p).bind fun len _ ↦ safeTo_ite (fun _ ↦ fail_safe _) fun _ ↦ ?_
  refine (paddedIntOrFail_safe hp _ _ _ _).bind fun ⟨hour, p⟩ hp ↦ ?_
  refine (consumeOrFail_safe hp _ _).bind fun p hp ↦ ?_
  refine (paddedIntOrFail_safe hp _ _ _ _).bind fun ⟨min, p⟩ hp ↦ ?_
  refine (consumeUnless_safe hp _ _).bind fun ⟨colon, p⟩ hp ↦ ?_
  refine safeTo_ite (fun _ ↦ return_safe hp _) fun _ ↦ ?_
  refine (paddedIntOrFail_safe hp _ _ _ _).bind fun ⟨sec, p⟩ hp ↦ ?_
  refine (consumeUnless_safe hp _ _).bind fun ⟨point, p⟩ hp ↦ ?_
  refine safeTo_ite (fun _ ↦ return_safe hp _) fun _ ↦ ?_
  exact (fraction_safe hp).bind fun ⟨micros, p⟩ hp ↦ return_safe hp _

theorem monthAndDay_safe (withDashes : Bool) :
    (p.monthAndDay withDashes).SafeTo s.length (Of s) := by
  refine (paddedIntOrFail_safe hp _ _ _ _).bind fun ⟨month, p⟩ hp ↦ ?_
  refine (consumeIf_safe hp _).bind fun ⟨dash, p⟩ hp ↦ safeTo_ite (fun _ ↦ fail_safe _) fun _ ↦ ?_
  exact (paddedIntOrFail_safe hp _ _ _ _).bind fun ⟨day, p⟩ hp ↦ safeTo_pure hp

theorem iso8601Date_safe : p.iso8601Date.SafeTo s.length (Of s) := by
  refine (unconsumed_safe _ p).bind fun len _ ↦ safeTo_ite (fun _ ↦ fail_safe _) fun _ ↦ ?_
  refine (consumeIf_safe hp _).bind fun ⟨negative, p⟩ hp ↦ ?_
  refine (paddedIntOrFail_safe hp _ _ _ _).bind fun ⟨year, p⟩ hp ↦ ?_
  refine (consumeIf_safe hp _).bind fun ⟨withDashes, p⟩ hp ↦ ?_
  refine safeTo_ite (fun _ ↦ fail_safe _) fun _ ↦ ?_
  refine (monthAndDay_safe hp withDashes).bind fun ⟨⟨month, day⟩, p⟩ hp ↦ ?_
  refine safeTo_lift_bind fun year ↦ ?_
  exact return_safe hp _

omit hp in
theorem eqlLoop_safe (i : ℕ) (text : List UInt8) :
    (eqlLoop s i text).SafeTo s.length fun _ ↦ True := by
  induction text generalizing i with
  | nil => exact safeTo_pure trivial
  | cons c text ih =>
    exact (safeTo_read s i).bind fun b _ ↦
      safeTo_ite (fun _ ↦ safeTo_pure trivial) fun _ ↦ ih (i + 1)

theorem suffix_safe : p.suffix.SafeTo s.length fun _ ↦ True := by
  refine (unconsumed_safe _ p).bind fun n _ ↦ ?_
  subst hp
  split
  · exact fail_safe _
  · exact (consumeOrFail_safe rfl _ _).bind fun _ _ ↦ safeTo_pure trivial
  · refine (rest_safe rfl).bind fun suffix _ ↦ (safeTo_read p.input p.pos).bind fun sign _ ↦ ?_
    refine safeTo_ite (fun _ ↦ fail_safe _) fun _ ↦ ?_
    refine SafeTo.bind (P := fun _ ↦ True) ?_ fun utc _ ↦
      safeTo_ite (fun _ ↦ fail_safe _) fun _ ↦ safeTo_pure trivial
    exact safeTo_ite (fun _ ↦ safeTo_pure trivial) fun _ ↦ eqlLoop_safe _ _
  · exact fail_safe _

end Parser

/-- **The parser stays inside its input** unless the bounds check stops it. -/
theorem DateTime.parseRFC3339_safe (s : List UInt8) :
    (parseRFC3339 s).SafeTo s.length fun _ ↦ True := by
  refine (Parser.iso8601Date_safe rfl).bind fun ⟨d, p⟩ hp ↦ ?_
  refine safeTo_ite (fun _ ↦ fail_safe _) fun _ ↦ ?_
  refine (Parser.consumeOrFail_safe hp _ _).bind fun p hp ↦ ?_
  refine (Parser.time_safe hp).bind fun ⟨t, p⟩ hp ↦ ?_
  exact (Parser.suffix_safe hp).bind fun _ _ ↦ safeTo_lift fun _ _ ↦ trivial

/-! ## Ending in a value or an error -/

namespace Scan

variable {l : List UInt8}

theorem utc_ends (l : List UInt8) : (utc l).Ends := by
  rw [utc]
  split_ifs <;> trivial

theorem time_valid {t : Time} {r : List UInt8} (h : time l = .ok (t, r)) : t.Valid :=
  (time_eq_ok_iff.mp h).1

/-- **When the scanner is stopped**: after a date with nothing behind it, and in a time. -/
theorem rfc3339_eq_trap_iff {t : Trap} : rfc3339 l = .trap t ↔
    ∃ d r, date l = .ok (d, r) ∧ d.InPeriod ∧
      (r = [] ∧ t = .indexOutOfBounds ∨ ∃ r', r = 'T'.toUInt8 :: r' ∧ time r' = .trap t) := by
  rw [rfc3339, Outcome.bind_eq_trap_iff]
  refine ⟨?_, ?_⟩
  · rintro (h | ⟨⟨d, r⟩, hdate, h⟩)
    · exact absurd h (Outcome.ends_iff.mp (date_ends l) t)
    dsimp only at h
    split_ifs at h with hyear hnil
    · have hp : d.InPeriod := by rw [Date.InPeriod]; omega
      exact ⟨d, r, hdate, hp, .inl ⟨hnil, (Outcome.trap.inj h).symm⟩⟩
    have hp : d.InPeriod := by rw [Date.InPeriod]; omega
    rcases expect_cases 'T'.toUInt8 .invalidDateTime r with he | ⟨r', hr, he⟩
    · rw [he, Outcome.error_bind] at h
      cases h
    rw [he, Outcome.ok_bind, Outcome.bind_eq_trap_iff] at h
    rcases h with h | ⟨⟨tm, r''⟩, htime, h⟩
    · exact ⟨d, r, hdate, hp, .inr ⟨r', hr, h⟩⟩
    -- the suffix is a value or an error, and so is the instant of a date and a time that exist
    refine absurd h (Outcome.ends_iff.mp ((utc_ends r'').bind fun _ _ ↦ ?_) t)
    rw [DateTime.initUTC_eq (date_eq_ok_iff.mp hdate).1 (time_valid htime) hp]
    exact Outcome.ends_ok _
  · rintro ⟨d, r, hdate, hp, h⟩
    rw [Date.InPeriod] at hp
    refine .inr ⟨(d, r), hdate, ?_⟩
    dsimp only
    rw [if_neg (by omega)]
    rcases h with ⟨rfl, rfl⟩ | ⟨r', rfl, htime⟩
    · rw [if_pos rfl]
    · rw [if_neg (List.cons_ne_nil _ _), expect_self, Outcome.ok_bind, htime, Outcome.trap_bind]

end Scan

namespace DateTime

/-- The text is a date, of a year that an instant can be in, and nothing else. -/
def DateOnly (s : List UInt8) : Prop := ∃ d, (Date.parse s).outcome = .ok d ∧ d.InPeriod

/-- The text goes up to the fraction of the seconds, after such a date, and the fraction begins with
digits of a value of more than 64 bits. -/
def LongFraction (s : List UInt8) : Prop :=
  ∃ D d hour min sec ds r,
    s = D ++ (ascii "T" ++ (secondsText hour min sec ++ (ascii "." ++ (ds ++ r)))) ∧
      (Date.parse D).outcome = .ok d ∧ d.InPeriod ∧ Digits ds ∧ 2 ^ 64 ≤ value ds

theorem parse_eq_trap_iff {s : List UInt8} {t : Trap} : (parseRFC3339 s).outcome = .trap t ↔
    DateOnly s ∧ t = .indexOutOfBounds ∨ LongFraction s ∧ t = .integerOverflow := by
  rw [Parser.parseRFC3339_outcome, Scan.rfc3339_eq_trap_iff]
  refine ⟨?_, ?_⟩
  · rintro ⟨d, r, hdate, hp, h⟩
    obtain ⟨hd, D, rfl, hD⟩ := Scan.date_eq_ok_iff.mp hdate
    have hD := date_parse_eq_ok_iff.mpr ⟨hd, hD⟩
    rcases h with ⟨rfl, ht⟩ | ⟨r', rfl, htime⟩
    · rw [List.append_nil]
      exact .inl ⟨⟨d, hD, hp⟩, ht⟩
    · obtain ⟨ht, hour, min, sec, ds, r, rfl, hds, h64⟩ := Scan.time_eq_trap_iff.mp htime
      exact .inr ⟨⟨D, d, hour, min, sec, ds, r, rfl, hD, hp, hds, h64⟩, ht⟩
  · rintro (⟨⟨d, hD, hp⟩, rfl⟩ | ⟨⟨D, d, hour, min, sec, ds, r, rfl, hD, hp, hds, h64⟩, rfl⟩)
    · obtain ⟨hd, hD⟩ := date_parse_eq_ok_iff.mp hD
      have hdate := Scan.date_append hd hD []
      rw [List.append_nil] at hdate
      exact ⟨d, [], hdate, hp, .inl ⟨rfl, rfl⟩⟩
    · obtain ⟨hd, hD⟩ := date_parse_eq_ok_iff.mp hD
      exact ⟨d, _, Scan.date_append hd hD _, hp, .inr ⟨_, rfl,
        Scan.time_eq_trap_iff.mpr ⟨rfl, hour, min, sec, ds, r, rfl, hds, h64⟩⟩⟩

/-- The run stays inside its input and ends in a value or an error. -/
def ReadsInside (s : List UInt8) : Prop :=
  (∀ e ∈ (parseRFC3339 s).events, e.Within s.length) ∧ (parseRFC3339 s).outcome.Ends

instance : DecidablePred ReadsInside :=
  fun s ↦ inferInstanceAs (Decidable ((∀ e ∈ (parseRFC3339 s).events, e.Within s.length) ∧ _))

/-- **`parseRFC3339` stays inside its input and ends in a value or an error**, on every text but a
date alone and a fraction of more than 64 bits. -/
theorem parseRFC3339_readsInside_iff (s : List UInt8) :
    ReadsInside s ↔ ¬DateOnly s ∧ ¬LongFraction s := by
  refine ⟨?_, ?_⟩
  · rintro ⟨-, hends⟩
    rw [Outcome.ends_iff] at hends
    exact ⟨fun hs ↦ hends _ (parse_eq_trap_iff.mpr (.inl ⟨hs, rfl⟩)),
      fun hs ↦ hends _ (parse_eq_trap_iff.mpr (.inr ⟨hs, rfl⟩))⟩
  · rintro ⟨hdate, hlong⟩
    have hends : (parseRFC3339 s).outcome.Ends := by
      rw [Outcome.ends_iff]
      intro t ht
      rcases parse_eq_trap_iff.mp ht with ⟨hs, -⟩ | ⟨hs, -⟩
      · exact hdate hs
      · exact hlong hs
    exact ⟨(parseRFC3339_safe s).1.within_of_ends hends, hends⟩

set_option maxRecDepth 4000 in
/-- The `T` is looked for behind the end of the input. -/
theorem parse_2023_01_01_not_readsInside : ¬ReadsInside (ascii "2023-01-01") := by decide

end DateTime
end Datetime
