import Mathlib.Data.List.Induction
import Mathlib.Data.Nat.Digits.Defs
import Mathlib.Tactic.Ring

/-!
# Numbers in any base

`value b l` is the number that a list of digits denotes in base `b`, the most significant digit
first.  Mathlib's `Nat.ofDigits` has the least significant one first.  `digits b w n` writes a
number with a fixed number of digits, and the two are inverse to each other in both directions
(`value_digits`, `digits_value`): below `b ^ w` a number and its `w` digits are the same thing.

Lists of digits of one length are ordered as their numbers (`value_lt_iff`, `digits_lt_iff`), and if
every digit is itself written out in a smaller base, the number stays the same (`value_flatMap`).
A digit is often kept as something else that has its order, such as a byte; `List.map_lt_map_iff`
carries the order of the digits over to that.
-/

set_option autoImplicit false

/-! ## Lists -/

namespace List

variable {α β : Type}

/-- What a function does to the members, another one undoes. -/
theorem map_map_eq_self {f : α → β} {g : β → α} {l : List α}
    (h : ∀ a ∈ l, g (f a) = a) : (l.map f).map g = l := by
  rw [List.map_map]
  exact (List.map_congr_left h).trans l.map_id

variable [LT α] [LT β]

/-- Fronts of the same length are compared first. -/
theorem append_lt_append_iff {a b x y : List α} (h : a.length = b.length) :
    a ++ x < b ++ y ↔ a < b ∨ a = b ∧ x < y := by
  induction a generalizing b with
  | nil =>
    obtain rfl : b = [] := List.eq_nil_of_length_eq_zero h.symm
    simp
  | cons c a ih =>
    obtain ⟨d, b, rfl⟩ := List.exists_cons_of_length_eq_add_one h.symm
    rw [List.cons_append, List.cons_append, List.cons_lt_cons_iff, List.cons_lt_cons_iff,
      ih (by simpa using h), List.cons.injEq]
    tauto

/-- A function that keeps the order of the members keeps the order of the lists. -/
theorem map_lt_map_iff {f : α → β} {l m : List α}
    (hlt : ∀ a ∈ l, ∀ b ∈ m, f a < f b ↔ a < b) (heq : ∀ a ∈ l, ∀ b ∈ m, f a = f b ↔ a = b) :
    l.map f < m.map f ↔ l < m := by
  induction l generalizing m with
  | nil => cases m <;> simp
  | cons a l ih =>
    cases m with
    | nil => simp
    | cons b m =>
      simp only [List.forall_mem_cons] at hlt heq
      rw [List.map_cons, List.map_cons, List.cons_lt_cons_iff, List.cons_lt_cons_iff, hlt.1.1,
        heq.1.1, ih (fun c hc ↦ (hlt.2 c hc).2) fun c hc ↦ (heq.2 c hc).2]

end List

namespace Radix

/-! ## The number of a list of digits -/

/-- The number of a list of digits. -/
def value (b : ℕ) (l : List ℕ) : ℕ := Nat.ofDigits b l.reverse

@[simp] theorem value_nil (b : ℕ) : value b [] = 0 := rfl

theorem value_append (b : ℕ) (l m : List ℕ) :
    value b (l ++ m) = value b l * b ^ m.length + value b m := by
  rw [value, List.reverse_append, Nat.ofDigits_append, List.length_reverse, value, value]
  ring

theorem value_cons (b d : ℕ) (l : List ℕ) : value b (d :: l) = d * b ^ l.length + value b l := by
  rw [← List.singleton_append, value_append]
  simp [value]

theorem value_append_singleton (b : ℕ) (l : List ℕ) (d : ℕ) :
    value b (l ++ [d]) = value b l * b + d := by
  rw [value_append]
  simp [value]

/-- A fold over the digits, from any number on. -/
theorem foldl_eq_value (b v : ℕ) (l : List ℕ) :
    l.foldl (fun v d ↦ v * b + d) v = v * b ^ l.length + value b l := by
  induction l generalizing v with
  | nil => simp
  | cons d l ih =>
    rw [List.foldl_cons, ih, value_cons, List.length_cons, pow_succ]
    ring

/-- Digits that may be larger than the base. -/
theorem value_mul_add_le {b c : ℕ} {l : List ℕ} (hl : ∀ d ∈ l, d ≤ c) :
    value (b + 1) l * b + c ≤ c * (b + 1) ^ l.length := by
  induction l with
  | nil => simp
  | cons d l ih =>
    rw [List.forall_mem_cons] at hl
    have hd : d * (b + 1) ^ l.length * b ≤ c * (b + 1) ^ l.length * b :=
      Nat.mul_le_mul_right _ (Nat.mul_le_mul_right _ hl.1)
    have hpow : c * (b + 1) ^ (l.length + 1) =
        c * (b + 1) ^ l.length * b + c * (b + 1) ^ l.length := by ring
    rw [value_cons, List.length_cons, hpow, add_mul, add_assoc]
    exact Nat.add_le_add hd (ih hl.2)

section

variable {b : ℕ} {l m : List ℕ}

theorem value_lt (hb : 1 < b) (hl : ∀ d ∈ l, d < b) : value b l < b ^ l.length := by
  rw [← List.length_reverse]
  exact Nat.ofDigits_lt_base_pow_length hb fun d hd ↦ hl d (List.mem_reverse.mp hd)

/-- **Lists of digits of one length are ordered as their numbers.** -/
theorem value_lt_iff (hb : 1 < b) (hlen : l.length = m.length) (hl : ∀ d ∈ l, d < b)
    (hm : ∀ d ∈ m, d < b) : value b l < value b m ↔ l < m := by
  induction l generalizing m with
  | nil =>
    obtain rfl : m = [] := List.eq_nil_of_length_eq_zero hlen.symm
    simp
  | cons d l ih =>
    obtain ⟨e, m, rfl⟩ := List.exists_cons_of_length_eq_add_one hlen.symm
    rw [List.length_cons, List.length_cons, Nat.add_right_cancel_iff] at hlen
    rw [List.forall_mem_cons] at hl hm
    have hvl := value_lt hb hl.2
    have hvm := value_lt hb hm.2
    rw [List.cons_lt_cons_iff, value_cons, value_cons, ← ih hlen hl.2 hm.2, hlen]
    rw [hlen] at hvl
    -- the first digits decide, as what follows them is below one unit of theirs
    rcases lt_trichotomy d e with h | rfl | h
    · have hstep : (d + 1) * b ^ m.length ≤ e * b ^ m.length := Nat.mul_le_mul_right _ h
      rw [add_one_mul] at hstep
      omega
    · simp
    · have hstep : (e + 1) * b ^ m.length ≤ d * b ^ m.length := Nat.mul_le_mul_right _ h
      rw [add_one_mul] at hstep
      omega

/-- **Digits written out in a smaller base.** -/
theorem value_flatMap {k : ℕ} {f : ℕ → List ℕ} (hlen : ∀ d ∈ l, (f d).length = k)
    (hval : ∀ d ∈ l, value b (f d) = d) : value b (l.flatMap f) = value (b ^ k) l := by
  induction l with
  | nil => rfl
  | cons d l ih =>
    rw [List.forall_mem_cons] at hlen hval
    have hlength : (l.flatMap f).length = k * l.length := by
      rw [List.length_flatMap, List.map_congr_left hlen.2, List.map_const', List.sum_replicate_nat,
        mul_comm]
    rw [List.flatMap_cons, value_append, value_cons, hval.1, ih hlen.2 hval.2, hlength, pow_mul]

end

/-! ## Writing a number -/

/-- The last `w` digits of `n`. -/
def digits (b : ℕ) : ℕ → ℕ → List ℕ
  | 0, _ => []
  | w + 1, n => digits b w (n / b) ++ [n % b]

variable {b : ℕ}

@[simp] theorem length_digits (b w n : ℕ) : (digits b w n).length = w := by
  induction w generalizing n with
  | zero => rfl
  | succ w ih => rw [digits, List.length_append, ih, List.length_singleton]

theorem digits_lt (hb : 0 < b) (w n : ℕ) : ∀ d ∈ digits b w n, d < b := by
  induction w generalizing n with
  | zero => simp [digits]
  | succ w ih =>
    rw [digits, List.forall_mem_append, List.forall_mem_singleton]
    exact ⟨ih (n / b), Nat.mod_lt n hb⟩

/-- What is in front of the last `w` digits is lost. -/
theorem value_digits_mod (b w n : ℕ) : value b (digits b w n) = n % b ^ w := by
  induction w generalizing n with
  | zero => rw [digits, value_nil, pow_zero, Nat.mod_one]
  | succ w ih =>
    rw [digits, value_append_singleton, ih, pow_succ', Nat.mod_mul, add_comm, mul_comm]

/-- A number below `b ^ w` is read back from its `w` digits. -/
theorem value_digits {w n : ℕ} (h : n < b ^ w) : value b (digits b w n) = n := by
  rw [value_digits_mod, Nat.mod_eq_of_lt h]

/-- Digits are those of the number they denote. -/
theorem digits_value {l : List ℕ} (hl : ∀ d ∈ l, d < b) : digits b l.length (value b l) = l := by
  induction l using List.reverseRecOn with
  | nil => rfl
  | append_singleton l d ih =>
    rw [List.forall_mem_append, List.forall_mem_singleton] at hl
    have hdiv : (value b l * b + d) / b = value b l := by
      rw [mul_comm, Nat.mul_add_div (Nat.zero_lt_of_lt hl.2), Nat.div_eq_of_lt hl.2, add_zero]
    have hmod : (value b l * b + d) % b = d := by
      rw [mul_comm, Nat.mul_add_mod, Nat.mod_eq_of_lt hl.2]
    rw [List.length_append, List.length_singleton, digits, value_append_singleton, hdiv, hmod,
      ih hl.1]

/-- **The digits of numbers** are ordered as the numbers. -/
theorem digits_lt_iff (hb : 1 < b) {w m n : ℕ} (hm : m < b ^ w) (hn : n < b ^ w) :
    digits b w m < digits b w n ↔ m < n := by
  have hb0 : 0 < b := Nat.zero_lt_of_lt hb
  rw [← value_lt_iff hb (by simp) (digits_lt hb0 w m) (digits_lt hb0 w n), value_digits hm,
    value_digits hn]

/-- The digits of a number are those of its front and its back. -/
theorem digits_add (b w v n : ℕ) :
    digits b (w + v) n = digits b w (n / b ^ v) ++ digits b v (n % b ^ v) := by
  induction v generalizing n with
  | zero => simp [digits]
  | succ v ih =>
    have hfront : n / b / b ^ v = n / b ^ (v + 1) := by
      rw [Nat.div_div_eq_div_mul, pow_succ']
    have hback : n % b ^ (v + 1) / b = n / b % b ^ v := by
      rw [pow_succ', Nat.mod_mul_right_div_self]
    have hlast : n % b ^ (v + 1) % b = n % b :=
      Nat.mod_mod_of_dvd n (dvd_pow_self b v.succ_ne_zero)
    rw [← add_assoc, digits, ih, hfront, digits, hback, hlast, List.append_assoc]

end Radix
