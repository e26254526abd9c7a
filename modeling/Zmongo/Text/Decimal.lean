import Mathlib.Data.Nat.Log
import Mathlib.Data.List.TakeWhile
import Mathlib.Tactic.Linarith
import Zmongo.Text.Radix

/-!
# Decimal numerals in ASCII

A numeral is a list of bytes, all of them `IsDigit`.  `value` is the number it denotes and `digits`
writes a number with a fixed number of digits.  Both are those of base 10 with a byte for each digit
(`value_eq`, `digits_eq`), so they are inverse to each other in both directions (`value_digits`,
`digits_value`).  `decimal w n` is what a formatter with zero fill prints, at least `w` digits wide
and wider when `n` needs more.

For reading, `readDigits n` takes exactly `n` digits off the front of a text, and
`List.takeWhile IsDigit` is the whole run of digits there.
-/

set_option autoImplicit false

namespace Decimal

/-! ## Digits -/

/-- The byte is one of `0` to `9`.  The subtraction wraps around, so a byte below `0` is far above
`9` after it. -/
def IsDigit (b : UInt8) : Prop := b - 48 ≤ 9

instance : DecidablePred IsDigit := fun b ↦ inferInstanceAs (Decidable (b - 48 ≤ 9))

/-- The digit a byte stands for. -/
def digitValue (b : UInt8) : ℕ := (b - 48).toNat

/-- The byte of a digit. -/
def digitByte (d : ℕ) : UInt8 := UInt8.ofNat (48 + d)

theorem isDigit_iff {b : UInt8} : IsDigit b ↔ 48 ≤ b.toNat ∧ b.toNat ≤ 57 := by
  have hb := b.toNat_lt
  rw [IsDigit, UInt8.le_iff_toNat_le, UInt8.toNat_sub]
  simp only [UInt8.reduceToNat]
  omega

theorem digitValue_eq {b : UInt8} (h : IsDigit b) : digitValue b = b.toNat - 48 := by
  rw [isDigit_iff] at h
  rw [digitValue, UInt8.toNat_sub]
  simp only [UInt8.reduceToNat]
  omega

theorem digitValue_lt {b : UInt8} (h : IsDigit b) : digitValue b < 10 := by
  rw [digitValue_eq h]
  have := (isDigit_iff.mp h).2
  omega

theorem toNat_digitByte {d : ℕ} (h : d < 10) : (digitByte d).toNat = 48 + d :=
  UInt8.toNat_ofNat_of_lt (by rw [UInt8.size]; omega)

theorem isDigit_digitByte {d : ℕ} (h : d < 10) : IsDigit (digitByte d) := by
  rw [isDigit_iff, toNat_digitByte h]
  omega

theorem digitValue_digitByte {d : ℕ} (h : d < 10) : digitValue (digitByte d) = d := by
  rw [digitValue_eq (isDigit_digitByte h), toNat_digitByte h, Nat.add_sub_cancel_left]

theorem digitByte_digitValue {b : UInt8} (h : IsDigit b) : digitByte (digitValue b) = b := by
  have hb := isDigit_iff.mp h
  rw [← UInt8.toNat_inj, toNat_digitByte (digitValue_lt h), digitValue_eq h]
  omega

/-! ## The number a numeral denotes -/

/-- The text is a numeral. -/
def Digits (l : List UInt8) : Prop := ∀ b ∈ l, IsDigit b

instance (l : List UInt8) : Decidable (Digits l) := inferInstanceAs (Decidable (∀ b ∈ l, IsDigit b))

/-- Read on from `v`, a digit at a time. -/
def valueFrom (v : ℕ) (l : List UInt8) : ℕ := l.foldl (fun v b ↦ v * 10 + digitValue b) v

/-- The number a numeral denotes. -/
def value (l : List UInt8) : ℕ := valueFrom 0 l

@[simp] theorem digits_nil : Digits [] := by simp [Digits]

@[simp] theorem digits_cons {b : UInt8} {l : List UInt8} : Digits (b :: l) ↔ IsDigit b ∧ Digits l :=
  List.forall_mem_cons

@[simp] theorem valueFrom_nil (v : ℕ) : valueFrom v [] = v := rfl

@[simp] theorem valueFrom_cons (v : ℕ) (b : UInt8) (l : List UInt8) :
    valueFrom v (b :: l) = valueFrom (v * 10 + digitValue b) l := rfl

theorem valueFrom_append (v : ℕ) (l m : List UInt8) :
    valueFrom v (l ++ m) = valueFrom (valueFrom v l) m :=
  List.foldl_append

theorem valueFrom_eq_radix (v : ℕ) (l : List UInt8) :
    valueFrom v l = v * 10 ^ l.length + Radix.value 10 (l.map digitValue) := by
  rw [valueFrom, ← List.length_map digitValue, ← Radix.foldl_eq_value, List.foldl_map]

/-- The number of a numeral is that of its digits. -/
theorem value_eq (l : List UInt8) : value l = Radix.value 10 (l.map digitValue) := by
  rw [value, valueFrom_eq_radix, zero_mul, zero_add]

theorem valueFrom_eq (v : ℕ) (l : List UInt8) : valueFrom v l = v * 10 ^ l.length + value l := by
  rw [valueFrom_eq_radix, value_eq]

theorem forall_mem_map_digitValue {l : List UInt8} (h : Digits l) :
    ∀ d ∈ l.map digitValue, d < 10 :=
  List.forall_mem_map.mpr fun b hb ↦ digitValue_lt (h b hb)

theorem map_digitByte_digitValue {l : List UInt8} (h : Digits l) :
    (l.map digitValue).map digitByte = l :=
  List.map_map_eq_self fun b hb ↦ digitByte_digitValue (h b hb)

theorem map_digitValue_digitByte {l : List ℕ} (h : ∀ d ∈ l, d < 10) :
    (l.map digitByte).map digitValue = l :=
  List.map_map_eq_self fun d hd ↦ digitValue_digitByte (h d hd)

/-- The numbers denoted on the way are never larger than the one at the end. -/
theorem le_valueFrom (v : ℕ) (l : List UInt8) : v ≤ valueFrom v l := by
  rw [valueFrom_eq]
  exact (Nat.le_mul_of_pos_right v (by positivity)).trans (Nat.le_add_right _ _)

theorem value_lt {l : List UInt8} (h : Digits l) : value l < 10 ^ l.length := by
  rw [value_eq, ← List.length_map digitValue]
  exact Radix.value_lt (by decide) (forall_mem_map_digitValue h)

/-- A numeral filled up to `n` digits on the right, as the digits of a fraction are. -/
theorem value_mul_pow_lt {l : List UInt8} (hd : Digits l) {n : ℕ} (hn : l.length ≤ n) :
    value l * 10 ^ (n - l.length) < 10 ^ n := by
  have hpow : 10 ^ l.length * 10 ^ (n - l.length) = 10 ^ n := by
    rw [← pow_add, Nat.add_sub_cancel' hn]
  rw [← hpow]
  exact Nat.mul_lt_mul_of_pos_right (value_lt hd) (by positivity)

/-! ## Writing a number -/

/-- The last `w` decimal digits of `n`. -/
def digits : ℕ → ℕ → List UInt8
  | 0, _ => []
  | w + 1, n => digits w (n / 10) ++ [digitByte (n % 10)]

/-- The numeral of a number is that of its digits. -/
theorem digits_eq (w n : ℕ) : digits w n = (Radix.digits 10 w n).map digitByte := by
  induction w generalizing n with
  | zero => rfl
  | succ w ih => rw [digits, Radix.digits, ih, List.map_append, List.map_singleton]

@[simp] theorem length_digits (w n : ℕ) : (digits w n).length = w := by
  rw [digits_eq, List.length_map, Radix.length_digits]

theorem digits_digits (w n : ℕ) : Digits (digits w n) := by
  rw [digits_eq]
  exact List.forall_mem_map.mpr fun d hd ↦ isDigit_digitByte (Radix.digits_lt (by decide) w n d hd)

/-- A number below `10 ^ w` is read back from its `w` digits. -/
theorem value_digits {w n : ℕ} (h : n < 10 ^ w) : value (digits w n) = n := by
  rw [value_eq, digits_eq, map_digitValue_digitByte (Radix.digits_lt (by decide) w n),
    Radix.value_digits h]

/-- A numeral is the digits of the number it denotes. -/
theorem digits_value {l : List UInt8} (h : Digits l) : digits l.length (value l) = l := by
  rw [digits_eq, value_eq, ← List.length_map digitValue,
    Radix.digits_value (forall_mem_map_digitValue h), map_digitByte_digitValue h]

/-- The number `n` in decimal, filled with zeros to at least `w` digits. -/
def decimal (w n : ℕ) : List UInt8 := digits (max w (Nat.log 10 n + 1)) n

/-- A number below `10 ^ w` is not wider than its field. -/
theorem decimal_of_lt {w n : ℕ} (hw : 0 < w) (h : n < 10 ^ w) : decimal w n = digits w n := by
  have hlog : Nat.log 10 n < w := Nat.log_lt_of_lt_pow' hw.ne' h
  rw [decimal, max_eq_left (by omega)]

/-- A number that is one digit wider than its field. -/
theorem decimal_of_le {w n : ℕ} (h : 10 ^ w ≤ n) (hlt : n < 10 ^ (w + 1)) :
    decimal w n = digits w (n / 10) ++ [digitByte (n % 10)] := by
  have hlog : Nat.log 10 n = w := Nat.log_eq_of_pow_le_of_lt_pow h hlt
  rw [decimal, hlog, max_eq_right (Nat.le_succ w), digits]

/-! ## Reading a numeral off a text -/

/-- A numeral of `n` digits. -/
@[ext] structure Numeral (n : ℕ) where
  /-- The digits. -/
  bytes : List UInt8
  length_bytes : bytes.length = n
  digits_bytes : Digits bytes

namespace Numeral

variable {n : ℕ}

/-- The number a numeral denotes. -/
def value (ds : Numeral n) : ℕ := Decimal.value ds.bytes

/-- The last `n` digits of a number. -/
def ofNat (n v : ℕ) : Numeral n := ⟨digits n v, length_digits n v, digits_digits n v⟩

theorem value_lt (ds : Numeral n) : ds.value < 10 ^ n := by
  have h := Decimal.value_lt ds.digits_bytes
  rwa [ds.length_bytes] at h

theorem value_ofNat {v : ℕ} (h : v < 10 ^ n) : (ofNat n v).value = v := value_digits h

/-- A numeral is determined by the number it denotes. -/
theorem ofNat_value (ds : Numeral n) : ofNat n ds.value = ds := by
  obtain ⟨ds, rfl, hd⟩ := ds
  exact Numeral.ext (digits_value hd)

/-- Where a numeral ends is no question, whatever follows. -/
theorem append_inj {ds ds' : Numeral n} {l l' : List UInt8} (h : ds.bytes ++ l = ds'.bytes ++ l') :
    ds = ds' ∧ l = l' := by
  obtain ⟨hbytes, hl⟩ := List.append_inj h (ds.length_bytes.trans ds'.length_bytes.symm)
  exact ⟨Numeral.ext hbytes, hl⟩

theorem bytes_ne_nil (ds : Numeral (n + 1)) : ds.bytes ≠ [] := by
  rw [← List.length_pos_iff, ds.length_bytes]
  omega

end Numeral

/-- Exactly `n` digits at the front of a text: the number they denote and what follows them. -/
def readDigits (n : ℕ) (l : List UInt8) : Option (ℕ × List UInt8) :=
  if n ≤ l.length ∧ Digits (l.take n) then some (value (l.take n), l.drop n) else none

@[simp] theorem readDigits_append {n : ℕ} (ds : Numeral n) (r : List UInt8) :
    readDigits n (ds.bytes ++ r) = some (ds.value, r) := by
  obtain ⟨ds, rfl, hd⟩ := ds
  rw [readDigits, List.take_left, List.drop_left, if_pos ⟨by simp, hd⟩]
  rfl

theorem readDigits_eq_some_iff {n v : ℕ} {l r : List UInt8} :
    readDigits n l = some (v, r) ↔ ∃ ds : Numeral n, ds.value = v ∧ l = ds.bytes ++ r := by
  refine ⟨?_, ?_⟩
  · intro h
    rw [readDigits, Option.ite_none_right_eq_some, Option.some_inj, Prod.mk.injEq] at h
    obtain ⟨⟨hlen, hd⟩, hv, hr⟩ := h
    exact ⟨⟨l.take n, List.length_take_of_le hlen, hd⟩, hv, by rw [← hr, List.take_append_drop]⟩
  · rintro ⟨ds, rfl, rfl⟩
    exact readDigits_append ds r

/-- The run of digits at the front of a text. -/
def run (l : List UInt8) : List UInt8 := l.takeWhile (IsDigit ·)

@[simp] theorem run_nil : run [] = [] := rfl

theorem run_cons {b : UInt8} (h : IsDigit b) (l : List UInt8) : run (b :: l) = b :: run l :=
  List.takeWhile_cons_of_pos (by simpa using h)

theorem run_cons_of_not {b : UInt8} (h : ¬IsDigit b) (l : List UInt8) : run (b :: l) = [] :=
  List.takeWhile_cons_of_neg (by simpa using h)

theorem digits_run (l : List UInt8) : Digits (run l) := by
  intro b hb
  simpa using List.mem_takeWhile_imp hb

/-- The run ends where the digits do. -/
theorem run_append {ds r : List UInt8} (hd : Digits ds) (hr : ∀ b ∈ r.head?, ¬IsDigit b) :
    run (ds ++ r) = ds := by
  rw [run, List.takeWhile_append_of_pos (by simpa [Digits] using hd)]
  cases r with
  | nil => simp
  | cons b r => simp [hr b rfl]

/-- What follows the run does not begin with a digit. -/
theorem head?_drop_run (l : List UInt8) : ∀ b ∈ (l.drop (run l).length).head?, ¬IsDigit b := by
  induction l with
  | nil => simp
  | cons b l ih =>
    by_cases hb : IsDigit b
    · rwa [run_cons hb, List.length_cons, List.drop_succ_cons]
    · simpa [run_cons_of_not hb] using hb

theorem run_append_drop (l : List UInt8) : run l ++ l.drop (run l).length = l :=
  List.prefix_iff_eq_append.mp (List.takeWhile_prefix _)

end Decimal
