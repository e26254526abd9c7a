import Zmongo.Datetime.Compose

/-!
# Moving an instant

`DateTime.moved` says what `add` is for: the instant a number of microseconds away, if it is one of
the period.  On exact integers that is nothing but an addition with a check at the end, so what is
moved can be moved back, and two moves can be made in either order.

`add` makes the same check at the end, but it has computed the sum as an `i64` by then.  As long as
that fits, `add` is `moved` (`add_of_fits`), and otherwise the run is stopped before the check
(`add_of_not_fits`).
-/

set_option autoImplicit false

open Zig IntType

namespace Datetime

/-- The microseconds of one unit of time. -/
def TimeUnit.micros : TimeUnit → ℤ
  | .days => 86400000000
  | .hours => 3600000000
  | .minutes => 60000000
  | .seconds => 1000000
  | .milliseconds => 1000
  | .microseconds => 1

theorem TimeUnit.micros_pos (unit : TimeUnit) : 0 < unit.micros := by
  cases unit <;> decide

/-- The exact number of microseconds of `value` units. -/
def TimeUnit.amount (unit : TimeUnit) (value : Int64) : ℤ := value.toInt * unit.micros

namespace DateTime

/-! ## On exact integers -/

/-- The instant `amount` microseconds after `dt`, if it is one of the period. -/
def moved (dt : DateTime) (amount : ℤ) : Result DateTime :=
  if -210863520000000000 ≤ dt.micros.toInt + amount ∧
      dt.micros.toInt + amount ≤ 253402300799999999 then
    .ok (ofMicros (dt.micros.toInt + amount))
  else .error .outsideJulianPeriod

theorem moved_eq_ok_iff {dt dt' : DateTime} {amount : ℤ} : dt.moved amount = .ok dt' ↔
    dt'.InPeriod ∧ dt'.micros.toInt = dt.micros.toInt + amount := by
  rw [moved]
  refine ⟨?_, ?_⟩
  · intro h
    split_ifs at h with hb
    have hmicros := toInt_ofMicros (x := dt.micros.toInt + amount) (by rw [holds_i64]; omega)
    rw [← Outcome.ok.inj h, InPeriod, hmicros]
    exact ⟨hb, rfl⟩
  · rintro ⟨hp, hmicros⟩
    rw [InPeriod, hmicros] at hp
    rw [if_pos hp, ← hmicros, ofMicros_toInt]

/-! ## `add` -/

/-- The sum of `add` fits the type it is computed at, and so does the amount on the way there. -/
def AddFits (dt : DateTime) (value : Int64) (unit : TimeUnit) : Prop :=
  i64.Holds (unit.amount value) ∧ i64.Holds (dt.micros.toInt + unit.amount value)

/-- The six branches of `add` are one. -/
theorem add_eq (dt : DateTime) (value : Int64) (unit : TimeUnit) : add dt value unit = (do
    let amount ← i64.mul value.toInt unit.micros
    let micros ← i64.add dt.micros.toInt amount
    fromUnix (Int64.ofInt micros) .microseconds) := by
  cases unit with
  | days | hours | minutes | seconds | milliseconds => rfl
  | microseconds =>
    have hl := value.le_toInt
    have hu := value.toInt_lt
    rw [TimeUnit.micros, mul_ok (by rw [holds_i64]; omega), mul_one]
    rfl

theorem add_of_fits {dt : DateTime} {value : Int64} {unit : TimeUnit} (h : AddFits dt value unit) :
    add dt value unit = dt.moved (unit.amount value) := by
  rw [add_eq, mul_ok h.1, Outcome.ok_bind, ← TimeUnit.amount, add_ok h.2, Outcome.ok_bind,
    fromUnix_micros h.2, moved]

theorem add_of_not_fits {dt : DateTime} {value : Int64} {unit : TimeUnit}
    (h : ¬AddFits dt value unit) : add dt value unit = .trap .integerOverflow := by
  rw [add_eq]
  by_cases hmul : i64.Holds (unit.amount value)
  · rw [mul_ok hmul, Outcome.ok_bind, ← TimeUnit.amount, IntType.add,
      checked_trap fun hadd ↦ h ⟨hmul, hadd⟩, Outcome.trap_bind]
  · rw [IntType.mul, ← TimeUnit.amount, checked_trap hmul, Outcome.trap_bind]

/-- **What a successful `add` returns.** -/
theorem add_eq_ok_iff {dt dt' : DateTime} {value : Int64} {unit : TimeUnit} :
    add dt value unit = .ok dt' ↔ AddFits dt value unit ∧ dt'.InPeriod ∧
      dt'.micros.toInt = dt.micros.toInt + unit.amount value := by
  by_cases h : AddFits dt value unit
  · rw [add_of_fits h, moved_eq_ok_iff]
    exact (and_iff_right h).symm
  · rw [add_of_not_fits h]
    exact iff_of_false (by simp) fun h' ↦ h h'.1

/-- The amount back is the amount there, negated: an amount between two instants of the period is
far from the end of `i64`, where negation is not exact. -/
theorem amount_neg {dt dt' : DateTime} {value : Int64} {unit : TimeUnit} (hdt : dt.InPeriod)
    (hdt' : dt'.InPeriod) (h : dt'.micros.toInt = dt.micros.toInt + unit.amount value) :
    unit.amount (-value) = -unit.amount value := by
  have hpos := unit.micros_pos
  rw [InPeriod] at hdt hdt'
  rw [TimeUnit.amount] at h ⊢
  have hle : value.toInt.natAbs ≤ (value.toInt * unit.micros).natAbs := by
    rw [Int.natAbs_mul]
    exact Nat.le_mul_of_pos_right _ (Int.natAbs_pos.mpr hpos.ne')
  have hneg : (-value).toInt = -value.toInt := by
    rw [Int64.toInt_neg]
    exact Int.bmod_eq_of_le (by omega) (by omega)
  rw [hneg, TimeUnit.amount, neg_mul]

/-- An `add` that succeeds can be undone. -/
theorem add_neg {dt dt' : DateTime} {value : Int64} {unit : TimeUnit} (hdt : dt.InPeriod)
    (h : add dt value unit = .ok dt') : add dt' (-value) unit = .ok dt := by
  obtain ⟨⟨hmul, -⟩, hdt', hmicros⟩ := add_eq_ok_iff.mp h
  have hneg := amount_neg hdt hdt' hmicros
  rw [add_eq_ok_iff, AddFits, hneg]
  rw [InPeriod] at hdt hdt'
  rw [holds_i64] at hmul ⊢
  rw [holds_i64]
  refine ⟨by omega, hdt, by omega⟩

/-! ## Several moves -/

/-- One `add` after the other. -/
def adds (dt : DateTime) : List (Int64 × TimeUnit) → Result DateTime
  | [] => .ok dt
  | (value, unit) :: moves => do adds (← add dt value unit) moves

/-- The amounts add up. -/
theorem micros_of_adds {dt dt' : DateTime} {moves : List (Int64 × TimeUnit)}
    (h : adds dt moves = .ok dt') :
    dt'.micros.toInt = dt.micros.toInt + (moves.map fun m ↦ m.2.amount m.1).sum := by
  induction moves generalizing dt with
  | nil => rw [Outcome.ok.inj h, List.map_nil, List.sum_nil, add_zero]
  | cons m moves ih =>
    obtain ⟨a, ha, h⟩ := Outcome.bind_eq_ok_iff.mp h
    obtain ⟨-, -, hmicros⟩ := add_eq_ok_iff.mp ha
    rw [ih h, hmicros, List.map_cons, List.sum_cons, add_assoc]

/-- **Moves lead to the same instant in every order** they can be made in. -/
theorem adds_perm {dt a b : DateTime} {moves moves' : List (Int64 × TimeUnit)}
    (hperm : moves.Perm moves') (ha : adds dt moves = .ok a) (hb : adds dt moves' = .ok b) :
    a = b := by
  have hsum := (hperm.map fun m ↦ m.2.amount m.1).sum_eq
  rw [DateTime.ext_iff, ← Int64.toInt_inj, micros_of_adds ha, micros_of_adds hb, hsum]

theorem adds_two {dt a b : DateTime} {v w : Int64} {unit unit' : TimeUnit}
    (ha : add dt v unit = .ok a) (hb : add a w unit' = .ok b) :
    adds dt [(v, unit), (w, unit')] = .ok b := by
  rw [adds, ha, Outcome.ok_bind, adds, hb, Outcome.ok_bind, adds]

/-! ## Exact, or an error -/

theorem moved_ends (dt : DateTime) (amount : ℤ) : (dt.moved amount).Ends := by
  rw [moved]
  split_ifs <;> trivial

/-- The result of `add` is the exact sum, or the error if that is outside the period.  A successful
`add` can be undone, and in two of them the order does not matter. -/
def AddExact (dt : DateTime) (value : Int64) (unit : TimeUnit) : Prop :=
  add dt value unit = dt.moved (unit.amount value) ∧
    (∀ dt', add dt value unit = .ok dt' → add dt' (-value) unit = .ok dt) ∧
    ∀ (value' : Int64) (unit' : TimeUnit) (a b c d : DateTime), add dt value unit = .ok a →
      add a value' unit' = .ok b → add dt value' unit' = .ok c → add c value unit = .ok d → b = d

/-- **`add` is exact or an error** on the amounts that fit, and on no others. -/
theorem add_exact_iff {dt : DateTime} (hdt : dt.InPeriod) (value : Int64) (unit : TimeUnit) :
    AddExact dt value unit ↔ AddFits dt value unit := by
  refine ⟨?_, ?_⟩
  · rintro ⟨h, -⟩
    by_contra hfits
    have hends := moved_ends dt (unit.amount value)
    rw [← h, add_of_not_fits hfits] at hends
    exact hends
  · intro hfits
    refine ⟨add_of_fits hfits, fun dt' h ↦ add_neg hdt h, ?_⟩
    intro value' unit' a b c d ha hb hc hd
    exact adds_perm (.swap _ _ _) (adds_two ha hb) (adds_two hc hd)

/-- From 1969 to 1970. -/
theorem add_day_exact : AddExact ⟨-1500000⟩ 1 .days ↔ AddFits ⟨-1500000⟩ 1 .days :=
  add_exact_iff (by decide) 1 .days

/-- The number of days is too large for the microseconds of it to fit. -/
theorem add_106751992_days_not_moved : InPeriod ⟨0⟩ ∧ ¬AddExact ⟨0⟩ 106751992 .days := by
  have hne : add ⟨0⟩ 106751992 .days ≠ moved ⟨0⟩ (TimeUnit.amount .days 106751992) := by decide
  exact ⟨by decide, fun h ↦ hne h.1⟩

end DateTime
end Datetime
