import Zmongo.Text.Radix

/-!
# Unsigned integers in memory

A machine keeps the bytes of an unsigned integer in memory from the least significant one on or
from the most significant one on.  `load` reads bytes as an integer on a machine of the given byte
order and `store` is the inverse (`load_store`, `store_load`).

An unsigned integer type whose bytes can be swapped is a `Word`.  On every machine the conversion of
a `Word` `between` the byte order of the machine and a fixed one makes what is stored the same on
all machines (`Word.store_between`) and what is loaded too (`Word.between_load`).
-/

set_option autoImplicit false

namespace C

/-! ## Bytes -/

/-- The order of the bytes of an integer. -/
inductive ByteOrder where
  | littleEndian
  | bigEndian
  deriving DecidableEq, Repr

/-- The number of a list of bytes, the least significant one first. -/
def little (l : List UInt8) : ℕ := Radix.value 256 (l.reverse.map UInt8.toNat)

/-- The last `w` bytes of a number, the least significant one first. -/
def bytes : ℕ → ℕ → List UInt8
  | 0, _ => []
  | w + 1, n => UInt8.ofNat n :: bytes w (n / 256)

/-- The bytes of an unsigned integer, as an unsigned integer. -/
def load (order : ByteOrder) (l : List UInt8) : ℕ :=
  match order with
  | .littleEndian => little l
  | .bigEndian => little l.reverse

/-- The `w` bytes of an unsigned integer. -/
def store (order : ByteOrder) (w n : ℕ) : List UInt8 :=
  match order with
  | .littleEndian => bytes w n
  | .bigEndian => (bytes w n).reverse

@[simp] theorem little_nil : little [] = 0 := rfl

theorem little_cons (b : UInt8) (l : List UInt8) : little (b :: l) = little l * 256 + b.toNat := by
  rw [little, List.reverse_cons, List.map_append, List.map_singleton, Radix.value_append_singleton,
    little]

theorem forall_mem_map_toNat (l : List UInt8) : ∀ d ∈ l.map UInt8.toNat, d < 256 := by
  intro d hd
  obtain ⟨b, -, rfl⟩ := List.mem_map.mp hd
  exact b.toNat_lt

theorem little_lt (l : List UInt8) : little l < 256 ^ l.length := by
  have h := Radix.value_lt (by decide) (forall_mem_map_toNat l.reverse)
  rwa [List.length_map, List.length_reverse] at h

theorem map_ofNat_toNat (l : List UInt8) : (l.map UInt8.toNat).map UInt8.ofNat = l :=
  List.map_map_eq_self fun _ _ ↦ UInt8.ofNat_toNat

theorem map_toNat_ofNat {l : List ℕ} (h : ∀ d ∈ l, d < 256) :
    (l.map UInt8.ofNat).map UInt8.toNat = l :=
  List.map_map_eq_self fun d hd ↦ UInt8.toNat_ofNat_of_lt' (h d hd)

/-- The bytes of a number are its digits. -/
theorem bytes_eq (w n : ℕ) : bytes w n = ((Radix.digits 256 w n).map UInt8.ofNat).reverse := by
  induction w generalizing n with
  | zero => rfl
  | succ w ih =>
    have hb : UInt8.ofNat n = UInt8.ofNat (n % 256) := by
      rw [← UInt8.toNat_inj, UInt8.toNat_ofNat', UInt8.toNat_ofNat', Nat.mod_mod]
    rw [bytes, Radix.digits, List.map_append, List.map_singleton, List.reverse_append,
      List.reverse_singleton, List.singleton_append, ih, hb]

@[simp] theorem length_bytes (w n : ℕ) : (bytes w n).length = w := by
  rw [bytes_eq, List.length_reverse, List.length_map, Radix.length_digits]

theorem little_bytes {w n : ℕ} (h : n < 256 ^ w) : little (bytes w n) = n := by
  rw [little, bytes_eq, List.reverse_reverse, map_toNat_ofNat (Radix.digits_lt (by decide) w n),
    Radix.value_digits h]

theorem bytes_little (l : List UInt8) : bytes l.length (little l) = l := by
  rw [bytes_eq, little, ← List.length_reverse, ← List.length_map UInt8.toNat,
    Radix.digits_value (forall_mem_map_toNat l.reverse), map_ofNat_toNat, List.reverse_reverse]

@[simp] theorem length_store (order : ByteOrder) (w n : ℕ) : (store order w n).length = w := by
  cases order <;> simp [store]

theorem load_lt (order : ByteOrder) (l : List UInt8) : load order l < 256 ^ l.length := by
  cases order with
  | littleEndian => exact little_lt l
  | bigEndian =>
    rw [← List.length_reverse]
    exact little_lt l.reverse

theorem load_store (order : ByteOrder) {w n : ℕ} (h : n < 256 ^ w) :
    load order (store order w n) = n := by
  cases order with
  | littleEndian => exact little_bytes h
  | bigEndian => rw [load, store, List.reverse_reverse, little_bytes h]

theorem store_load (order : ByteOrder) (l : List UInt8) :
    store order l.length (load order l) = l := by
  cases order with
  | littleEndian => exact bytes_little l
  | bigEndian => rw [load, store, ← List.length_reverse, bytes_little, List.reverse_reverse]

theorem map_toNat_lt_iff {l m : List UInt8} : l.map UInt8.toNat < m.map UInt8.toNat ↔ l < m :=
  List.map_lt_map_iff (fun _ _ _ _ ↦ UInt8.lt_iff_toNat_lt.symm) fun _ _ _ _ ↦ UInt8.toNat_inj

/-- **In big endian order** integers are ordered as their bytes. -/
theorem load_bigEndian_lt_iff {l m : List UInt8} (h : l.length = m.length) :
    load .bigEndian l < load .bigEndian m ↔ l < m := by
  rw [load, load, little, little, List.reverse_reverse, List.reverse_reverse,
    Radix.value_lt_iff (by decide) (by simpa using h) (forall_mem_map_toNat l)
      (forall_mem_map_toNat m), map_toNat_lt_iff]

/-- `memcpy` of `n` bytes from the offset `off` of a buffer, if they are all in it. -/
def memcpy (raw : List UInt8) (off n : ℕ) : Option (List UInt8) :=
  if off + n ≤ raw.length then some ((raw.drop off).take n) else none

theorem memcpy_append {p l s : List UInt8} {off n : ℕ} (hoff : off = p.length)
    (hn : n = l.length) : memcpy (p ++ (l ++ s)) off n = some l := by
  rw [memcpy, if_pos (by simp only [List.length_append]; omega), hoff, hn, List.drop_left,
    List.take_left]

/-! ## Masks and shifts -/

/-- One byte, masked out. -/
theorem and_mask (n k : ℕ) : n &&& 255 * 2 ^ k = n / 2 ^ k % 256 * 2 ^ k := by
  have h : n / 2 ^ k % 256 = n >>> k &&& 255 := by
    rw [Nat.shiftRight_eq_div_pow]
    exact (Nat.and_two_pow_sub_one_eq_mod _ 8).symm
  rw [h, ← Nat.shiftLeft_eq, ← Nat.shiftLeft_eq]
  refine Nat.eq_of_testBit_eq fun i ↦ ?_
  simp only [Nat.testBit_and, Nat.testBit_shiftLeft, Nat.testBit_shiftRight]
  by_cases hi : k ≤ i
  · simp [hi]
  · simp [hi]

/-- One byte more, below those that there are. -/
theorem or_byte {a x k m : ℕ} (hm : m = k + 8) :
    a * 2 ^ m ||| x % 256 * 2 ^ k = (a * 256 + x % 256) * 2 ^ k := by
  have hx : x % 256 < 256 := Nat.mod_lt x (by decide)
  have hlt : x % 256 * 2 ^ k < 2 ^ m := by
    rw [hm, pow_add, mul_comm (2 ^ k)]
    exact Nat.mul_lt_mul_of_pos_right hx (by positivity)
  rw [mul_comm a, ← Nat.two_pow_add_eq_or_of_lt hlt, hm, pow_add]
  ring

/-- A byte moved up, without leaving the integer. -/
theorem shiftLeft_mask {m n k j w : ℕ} (hm : m = 255 * 2 ^ k) (hw : k + j + 8 ≤ w) :
    (n &&& m) <<< j % 2 ^ w = n / 2 ^ k % 256 * 2 ^ (k + j) := by
  have hlt : n / 2 ^ k % 256 * 2 ^ (k + j) < 2 ^ w := by
    refine lt_of_lt_of_le ?_ (Nat.pow_le_pow_right (by decide) hw)
    rw [pow_add _ (k + j), mul_comm]
    exact Nat.mul_lt_mul_of_pos_left (Nat.mod_lt _ (by decide)) (by positivity)
  rw [hm, and_mask, Nat.shiftLeft_eq, mul_assoc, ← pow_add, Nat.mod_eq_of_lt hlt]

/-- A byte moved down. -/
theorem shiftRight_mask {m n k j : ℕ} (hm : m = 255 * 2 ^ (k + j)) :
    (n &&& m) >>> j = n / 2 ^ (k + j) % 256 * 2 ^ k := by
  rw [hm, and_mask, Nat.shiftRight_eq_div_pow, pow_add, ← mul_assoc,
    Nat.mul_div_cancel _ (by positivity)]

/-! ## Swapping bytes -/

/-- An unsigned integer type with an operation that swaps the bytes. -/
structure Word (α : Type) where
  /-- The number of bytes. -/
  width : ℕ
  toNat : α → ℕ
  ofNat : ℕ → α
  swap : α → α
  toNat_lt : ∀ v, toNat v < 256 ^ width
  ofNat_toNat : ∀ v, ofNat (toNat v) = v
  toNat_ofNat : ∀ n, n < 256 ^ width → toNat (ofNat n) = n
  toNat_swap : ∀ v, toNat (swap v) = little (bytes width (toNat v)).reverse

namespace Word

variable {α : Type} (W : Word α)

/-- The conversion between the byte order of the machine and `fixed`, which is its own inverse. -/
def between (order fixed : ByteOrder) (v : α) : α := if order = fixed then v else W.swap v

theorem bytes_swap (v : α) :
    bytes W.width (W.toNat (W.swap v)) = (bytes W.width (W.toNat v)).reverse := by
  have h := bytes_little (bytes W.width (W.toNat v)).reverse
  rwa [List.length_reverse, length_bytes, ← W.toNat_swap] at h

theorem ext_bytes {u v : α} (h : bytes W.width (W.toNat u) = bytes W.width (W.toNat v)) :
    u = v := by
  rw [← W.ofNat_toNat u, ← W.ofNat_toNat v, ← little_bytes (W.toNat_lt u), h,
    little_bytes (W.toNat_lt v)]

/-- **Swapping is an involution.** -/
theorem swap_swap (v : α) : W.swap (W.swap v) = v :=
  W.ext_bytes (by rw [W.bytes_swap, W.bytes_swap, List.reverse_reverse])

theorem between_between (order fixed : ByteOrder) (v : α) :
    W.between order fixed (W.between order fixed v) = v := by
  rw [between, between]
  split_ifs with h
  · rfl
  · exact W.swap_swap v

/-- **What is stored** does not depend on the machine. -/
theorem store_between (order fixed : ByteOrder) (v : α) :
    store order W.width (W.toNat (W.between order fixed v)) =
      store fixed W.width (W.toNat v) := by
  rw [between]
  split_ifs with h
  · rw [h]
  · cases order <;> cases fixed
    · exact absurd rfl h
    · rw [store, store, W.bytes_swap]
    · rw [store, store, W.bytes_swap, List.reverse_reverse]
    · exact absurd rfl h

/-- **What is loaded** does not depend on the machine. -/
theorem between_load (order fixed : ByteOrder) {l : List UInt8} (hl : l.length = W.width) :
    W.toNat (W.between order fixed (W.ofNat (load order l))) = load fixed l := by
  have hlt := load_lt order l
  have hstore := W.store_between order fixed (W.between order fixed (W.ofNat (load order l)))
  rw [W.between_between, W.toNat_ofNat _ (hl ▸ hlt), ← hl, store_load] at hstore
  have hload := congrArg (load fixed) hstore
  rw [load_store fixed (hl ▸ W.toNat_lt _)] at hload
  exact hload.symm

/-- **What one machine stores, another loads.** -/
theorem between_load_store (writer reader fixed : ByteOrder) (v : α) :
    W.between reader fixed (W.ofNat (load reader (store writer W.width
      (W.toNat (W.between writer fixed v))))) = v := by
  have hlen := length_store writer W.width (W.toNat (W.between writer fixed v))
  have h := W.between_load reader fixed hlen
  rw [W.store_between, load_store fixed (W.toNat_lt v)] at h
  rw [← W.ofNat_toNat (W.between reader fixed _), W.store_between, h, W.ofNat_toNat]

/-- `memcpy` into a variable of the type. -/
def memcpy (order : ByteOrder) (raw : List UInt8) (off : ℕ) : Option α :=
  (C.memcpy raw off W.width).map fun l ↦ W.ofNat (load order l)

/-- The bytes of a value in memory, converted by the machine that stores it. -/
def field (writer fixed : ByteOrder) (v : α) : List UInt8 :=
  store writer W.width (W.toNat (W.between writer fixed v))

@[simp] theorem length_field (writer fixed : ByteOrder) (v : α) :
    (W.field writer fixed v).length = W.width :=
  length_store _ _ _

/-- **A field of a buffer** is the same value for every machine that reads it. -/
theorem memcpy_field {p s : List UInt8} {off : ℕ} (writer reader fixed : ByteOrder) (v : α)
    (hoff : off = p.length) :
    ∃ raw, W.memcpy reader (p ++ (W.field writer fixed v ++ s)) off = some raw ∧
      W.between reader fixed raw = v := by
  refine ⟨W.ofNat (load reader (W.field writer fixed v)), ?_, ?_⟩
  · rw [memcpy, memcpy_append hoff (by rw [length_field]), Option.map_some]
  · exact W.between_load_store writer reader fixed v

end Word
end C
