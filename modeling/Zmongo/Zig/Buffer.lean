import Zmongo.Zig.Outcome
import Zmongo.Text.Decimal

/-!
# Writing into a buffer

A slice `[]u8` that is written through is its bytes before and its bytes after: a function that
takes one returns the bytes it leaves.  `store` is an assignment to an element or to a fixed number
of them, `onSlice` runs such a function on a part of the buffer.  Both are bounds checked.

What a writer leaves is mostly the text it wrote on top of what was there, and `put text buf` is
the buffer after that.  A writer that goes from left to right keeps this form, `store_put` and
`onSlice_put` being the steps, and in the end `slice_put` takes the text out again.  One that starts
again before the end of its text has `onSlice_put_cover`.  The bytes of the buffer before the run
occur in these lemmas, but not in the text: nothing in it depends on memory that was undefined.
-/

set_option autoImplicit false

namespace Zig

/-- A string literal, as the bytes of its ASCII characters. -/
def ascii (s : String) : List UInt8 := s.toList.map Char.toUInt8

variable {ε α : Type}

/-! ## Operations on a buffer -/

/-- `buf[i..][0..n].* = bytes`, for `bytes` of length `n`. -/
def store (buf : List UInt8) (i : ℕ) (bytes : List UInt8) : Outcome ε (List UInt8) :=
  if i + bytes.length ≤ buf.length then
    .ok (buf.take i ++ bytes ++ buf.drop (i + bytes.length))
  else .trap .indexOutOfBounds

/-- `buf[start..stop]`, to read from. -/
def slice (buf : List UInt8) (start stop : ℕ) : Outcome ε (List UInt8) :=
  if start ≤ stop ∧ stop ≤ buf.length then .ok ((buf.take stop).drop start)
  else .trap .indexOutOfBounds

/-- `f(buf[start..stop])`, for a function that writes into the slice it is given. -/
def onSlice (buf : List UInt8) (start stop : ℕ)
    (f : List UInt8 → Outcome ε (List UInt8 × α)) : Outcome ε (List UInt8 × α) := do
  let (part, a) ← f (← slice buf start stop)
  pure (buf.take start ++ part ++ buf.drop stop, a)

/-- The buffer after `text` was written over the front of it. -/
def put (text buf : List UInt8) : List UInt8 := text ++ buf.drop text.length

/-- `std.fmt.formatIntBuf` in base 10 with zero fill: the number in at least `width` digits, and in
all the digits it has.  The source asserts that they fit. -/
def formatIntBuf (buf : List UInt8) (value width : ℕ) : Outcome ε (List UInt8 × ℕ) :=
  let text := Decimal.decimal width value
  if text.length ≤ buf.length then .ok (put text buf, text.length)
  else .trap .reachedUnreachable

/-! ## Writing from left to right -/

@[simp] theorem put_nil (buf : List UInt8) : put [] buf = buf := rfl

theorem length_put {text buf : List UInt8} (h : text.length ≤ buf.length) :
    (put text buf).length = buf.length := by
  rw [put, List.length_append, List.length_drop]
  omega

theorem take_put (text buf : List UInt8) : (put text buf).take text.length = text := by
  rw [put, List.take_left]

/-- Behind the text nothing has changed. -/
theorem drop_put {text buf : List UInt8} {n : ℕ} (h : text.length ≤ n) :
    (put text buf).drop n = buf.drop n := by
  obtain ⟨m, rfl⟩ := Nat.exists_eq_add_of_le h
  rw [put, ← List.drop_drop, List.drop_left, List.drop_drop]

/-- A text that reaches as far covers the one before it. -/
theorem put_put {text text' : List UInt8} (h : text.length ≤ text'.length) (buf : List UInt8) :
    put text' (put text buf) = put text' buf := by
  rw [put, drop_put h, put]

/-- The front of a text is a text itself, and the rest of it is what the buffer has behind it. -/
theorem put_put_append (text rest buf : List UInt8) :
    put text (put (text ++ rest) buf) = put (text ++ rest) buf := by
  rw [put, put, List.append_assoc, List.drop_left]

/-- What is stored right behind the text becomes part of it. -/
theorem store_put {text buf bytes : List UInt8} {i : ℕ} (hi : text.length = i)
    (h : i + bytes.length ≤ buf.length) :
    (store (put text buf) i bytes : Outcome ε _) = .ok (put (text ++ bytes) buf) := by
  subst hi
  rw [store, if_pos (by rw [length_put (by omega)]; exact h), take_put,
    drop_put (Nat.le_add_right _ _), put, List.length_append]

theorem store_zero {buf bytes : List UInt8} (h : bytes.length ≤ buf.length) :
    (store buf 0 bytes : Outcome ε _) = .ok (put bytes buf) := by
  have hnil : (store (put [] buf) 0 bytes : Outcome ε _) = .ok (put ([] ++ bytes) buf) :=
    store_put rfl (by omega)
  rwa [put_nil, List.nil_append] at hnil

theorem slice_put {text buf : List UInt8} (h : text.length ≤ buf.length) :
    (slice (put text buf) 0 text.length : Outcome ε _) = .ok text := by
  rw [slice, if_pos ⟨Nat.zero_le _, by rw [length_put h]; exact h⟩, take_put, List.drop_zero]

/-- What is written into a slice right behind the text becomes part of it as well. -/
theorem onSlice_put {text text' buf : List UInt8} {start stop : ℕ} {a : α}
    {f : List UInt8 → Outcome ε (List UInt8 × α)} (hstart : text.length = start)
    (h : start + text'.length ≤ stop) (hstop : stop ≤ buf.length)
    (hf : ∀ part : List UInt8, part.length = stop - start → f part = .ok (put text' part, a)) :
    onSlice (put text buf) start stop f = .ok (put (text ++ text') buf, a) := by
  subst hstart
  have hlen : (put text buf).length = buf.length := length_put (by omega)
  have hpart : ((put text buf).take stop).drop text.length =
      (buf.drop text.length).take (stop - text.length) := by
    rw [List.drop_take, drop_put le_rfl]
  have hrest : buf.drop (text.length + text'.length) =
      ((buf.drop text.length).take (stop - text.length)).drop text'.length ++ buf.drop stop := by
    rw [List.drop_take, List.drop_drop]
    conv_lhs => rw [← List.take_append_drop (stop - text.length - text'.length) (buf.drop _)]
    rw [List.drop_drop]
    congr 2
    omega
  rw [onSlice, slice, if_pos ⟨by omega, by omega⟩, Outcome.ok_bind, hpart,
    hf _ (by rw [List.length_take, List.length_drop]; omega), Outcome.ok_bind]
  dsimp only
  rw [Outcome.pure_eq_ok, take_put, drop_put (by omega), put, put, List.length_append, hrest]
  simp only [List.append_assoc]

/-- What is written into a slice behind the front of a text takes the place of the rest. -/
theorem onSlice_put_cover {text rest text' buf : List UInt8} {start stop : ℕ} {a : α}
    {f : List UInt8 → Outcome ε (List UInt8 × α)} (hstart : text.length = start)
    (hrest : rest.length ≤ text'.length) (h : start + text'.length ≤ stop)
    (hstop : stop ≤ buf.length)
    (hf : ∀ part : List UInt8, part.length = stop - start → f part = .ok (put text' part, a)) :
    onSlice (put (text ++ rest) buf) start stop f = .ok (put (text ++ text') buf, a) := by
  have hcover : (text ++ rest).length ≤ (text ++ text').length := by
    simpa using hrest
  have hlen : (put (text ++ rest) buf).length = buf.length :=
    length_put (hcover.trans (by rw [List.length_append]; omega))
  have hslice : onSlice (put text (put (text ++ rest) buf)) start stop f =
      .ok (put (text ++ text') (put (text ++ rest) buf), a) :=
    onSlice_put hstart h (hlen.symm ▸ hstop) hf
  rwa [put_put_append, put_put hcover] at hslice

theorem formatIntBuf_decimal {buf : List UInt8} {value width : ℕ}
    (h : (Decimal.decimal width value).length ≤ buf.length) :
    (formatIntBuf buf value width : Outcome ε _) =
      .ok (put (Decimal.decimal width value) buf, (Decimal.decimal width value).length) :=
  if_pos h

theorem formatIntBuf_eq {buf : List UInt8} {value width : ℕ} (hw : 0 < width)
    (hv : value < 10 ^ width) (h : width ≤ buf.length) :
    (formatIntBuf buf value width : Outcome ε _) =
      .ok (put (Decimal.digits width value) buf, width) := by
  have hdecimal := Decimal.decimal_of_lt hw hv
  have hlen : (Decimal.decimal width value).length = width := by
    rw [hdecimal, Decimal.length_digits]
  rw [formatIntBuf_decimal (by rwa [hlen]), hlen, hdecimal]

/-- A number behind the text, in a slice wide enough for its digits. -/
theorem onSlice_formatIntBuf {text buf : List UInt8} {start stop value width : ℕ}
    (hstart : text.length = start) (hw : 0 < width) (hv : value < 10 ^ width)
    (h : start + width ≤ stop) (hstop : stop ≤ buf.length) :
    (onSlice (put text buf) start stop (formatIntBuf · value width) : Outcome ε _) =
      .ok (put (text ++ Decimal.digits width value) buf, width) := by
  refine onSlice_put hstart (by rwa [Decimal.length_digits]) hstop fun part hpart ↦ ?_
  exact formatIntBuf_eq hw hv (by omega)

end Zig
