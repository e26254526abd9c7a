import Zmongo.Text.Decimal

/-!
# The order of texts

Texts are ordered byte by byte, a text before every longer one that begins with it: this is the
order `<` of lists.  Numerals of one width are ordered as the numbers they denote
(`digits_lt_iff`), and what follows them decides between equal ones (`digits_append_lt_iff`).  So
the order of a text that is put together of numerals of fixed width is the lexicographic order of
the numbers.
-/

set_option autoImplicit false

namespace Decimal

theorem digitByte_lt_iff {d e : ℕ} (hd : d < 10) (he : e < 10) :
    digitByte d < digitByte e ↔ d < e := by
  rw [UInt8.lt_iff_toNat_lt, toNat_digitByte hd, toNat_digitByte he]
  omega

theorem digitByte_inj {d e : ℕ} (hd : d < 10) (he : e < 10) :
    digitByte d = digitByte e ↔ d = e := by
  rw [← UInt8.toNat_inj, toNat_digitByte hd, toNat_digitByte he]
  omega

theorem digits_inj {w m n : ℕ} (hm : m < 10 ^ w) (hn : n < 10 ^ w) :
    digits w m = digits w n ↔ m = n := by
  refine ⟨?_, ?_⟩
  · intro h
    rw [← value_digits hm, h, value_digits hn]
  · rintro rfl
    rfl

/-- **Numerals of one width are ordered as their numbers.** -/
theorem digits_lt_iff {w m n : ℕ} (hm : m < 10 ^ w) (hn : n < 10 ^ w) :
    digits w m < digits w n ↔ m < n := by
  have hlt (n : ℕ) : ∀ d ∈ Radix.digits 10 w n, d < 10 := Radix.digits_lt (by decide) w n
  rw [digits_eq, digits_eq,
    List.map_lt_map_iff (fun d hd e he ↦ digitByte_lt_iff (hlt m d hd) (hlt n e he))
      fun d hd e he ↦ digitByte_inj (hlt m d hd) (hlt n e he),
    Radix.digits_lt_iff (by decide) hm hn]

theorem digits_append_lt_iff {w m n : ℕ} {x y : List UInt8} (hm : m < 10 ^ w) (hn : n < 10 ^ w) :
    digits w m ++ x < digits w n ++ y ↔ m < n ∨ m = n ∧ x < y := by
  rw [List.append_lt_append_iff (by simp), digits_lt_iff hm hn, digits_inj hm hn]

/-- The digits of a number are those of its front and its back. -/
theorem digits_add (w v n : ℕ) :
    digits (w + v) n = digits w (n / 10 ^ v) ++ digits v (n % 10 ^ v) := by
  rw [digits_eq, Radix.digits_add, List.map_append, ← digits_eq, ← digits_eq]

/-- A numeral begins with a digit. -/
theorem exists_digits_cons (w n : ℕ) : ∃ b l, digits (w + 1) n = b :: l ∧ IsDigit b := by
  obtain ⟨b, l, h⟩ := List.exists_cons_of_length_eq_add_one (length_digits (w + 1) n)
  exact ⟨b, l, h, digits_digits (w + 1) n b (by rw [h]; exact List.mem_cons_self)⟩

/-- A text that begins with a byte below the digits is before one that begins with a numeral. -/
theorem cons_lt_digits_append {b : UInt8} (h : b < 48) (w n : ℕ) (x y : List UInt8) :
    b :: x < digits (w + 1) n ++ y := by
  obtain ⟨c, l, hc, hd⟩ := exists_digits_cons w n
  rw [isDigit_iff] at hd
  rw [UInt8.lt_iff_toNat_lt] at h
  simp only [UInt8.reduceToNat] at h
  rw [hc, List.cons_append, List.cons_lt_cons_iff, UInt8.lt_iff_toNat_lt]
  exact .inl (by omega)

/-- A text that begins with a byte above the digits is behind one that begins with a numeral. -/
theorem digits_append_lt_cons {b : UInt8} (h : 57 < b) (w n : ℕ) (x y : List UInt8) :
    digits (w + 1) n ++ x < b :: y := by
  obtain ⟨c, l, hc, hd⟩ := exists_digits_cons w n
  rw [isDigit_iff] at hd
  rw [UInt8.lt_iff_toNat_lt] at h
  simp only [UInt8.reduceToNat] at h
  rw [hc, List.cons_append, List.cons_lt_cons_iff, UInt8.lt_iff_toNat_lt]
  exact .inl (by omega)

end Decimal
