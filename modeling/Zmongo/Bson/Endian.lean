import Zmongo.C.Bytes

/-!
# Byte orders

The byte swaps and conversions of `bson-endian.h`.  A document has its integers in little endian
order and the time of an object id in big endian order, whatever the machine.

The three fallback swaps of the header move every byte to the other end of the integer, as the swaps
built into a compiler do, so they are the swaps of a `Word` and the conversions are those `between`
the order of the machine and that of the document.
-/

set_option autoImplicit false

open C

namespace Bson

/-! ## The swaps -/

/-- `__bson_uint16_swap_slow` -/
def uint16SwapSlow (v : UInt16) : UInt16 := ((v &&& 0x00FF) <<< 8) ||| ((v &&& 0xFF00) >>> 8)

/-- `__bson_uint32_swap_slow` -/
def uint32SwapSlow (v : UInt32) : UInt32 :=
  ((v &&& 0x000000FF) <<< 24) ||| ((v &&& 0x0000FF00) <<< 8) ||| ((v &&& 0x00FF0000) >>> 8) |||
    ((v &&& 0xFF000000) >>> 24)

/-- `__bson_uint64_swap_slow` -/
def uint64SwapSlow (v : UInt64) : UInt64 :=
  ((v &&& 0x00000000000000FF) <<< 56) ||| ((v &&& 0x000000000000FF00) <<< 40) |||
    ((v &&& 0x0000000000FF0000) <<< 24) ||| ((v &&& 0x00000000FF000000) <<< 8) |||
    ((v &&& 0x000000FF00000000) >>> 8) ||| ((v &&& 0x0000FF0000000000) >>> 24) |||
    ((v &&& 0x00FF000000000000) >>> 40) ||| ((v &&& 0xFF00000000000000) >>> 56)

theorem toNat_uint16SwapSlow (v : UInt16) :
    (uint16SwapSlow v).toNat = little (bytes 2 v.toNat).reverse := by
  simp only [uint16SwapSlow, UInt16.toNat_or, UInt16.toNat_and, UInt16.toNat_shiftLeft,
    UInt16.toNat_shiftRight, UInt16.reduceToNat, Nat.reduceMod]
  rw [shiftLeft_mask (m := 0x00FF) (k := 0) rfl (by decide),
    shiftRight_mask (m := 0xFF00) (k := 0) rfl, or_byte rfl]
  simp [bytes, little_cons]

theorem toNat_uint32SwapSlow (v : UInt32) :
    (uint32SwapSlow v).toNat = little (bytes 4 v.toNat).reverse := by
  simp only [uint32SwapSlow, UInt32.toNat_or, UInt32.toNat_and, UInt32.toNat_shiftLeft,
    UInt32.toNat_shiftRight, UInt32.reduceToNat, Nat.reduceMod]
  rw [shiftLeft_mask (m := 0x000000FF) (k := 0) rfl (by decide),
    shiftLeft_mask (m := 0x0000FF00) (k := 8) rfl (by decide),
    shiftRight_mask (m := 0x00FF0000) (k := 8) rfl, shiftRight_mask (m := 0xFF000000) (k := 0) rfl]
  iterate 3 rw [or_byte rfl]
  simp [bytes, little_cons, Nat.div_div_eq_div_mul]

theorem toNat_uint64SwapSlow (v : UInt64) :
    (uint64SwapSlow v).toNat = little (bytes 8 v.toNat).reverse := by
  simp only [uint64SwapSlow, UInt64.toNat_or, UInt64.toNat_and, UInt64.toNat_shiftLeft,
    UInt64.toNat_shiftRight, UInt64.reduceToNat, Nat.reduceMod]
  rw [shiftLeft_mask (m := 0x00000000000000FF) (k := 0) rfl (by decide),
    shiftLeft_mask (m := 0x000000000000FF00) (k := 8) rfl (by decide),
    shiftLeft_mask (m := 0x0000000000FF0000) (k := 16) rfl (by decide),
    shiftLeft_mask (m := 0x00000000FF000000) (k := 24) rfl (by decide),
    shiftRight_mask (m := 0x000000FF00000000) (k := 24) rfl,
    shiftRight_mask (m := 0x0000FF0000000000) (k := 16) rfl,
    shiftRight_mask (m := 0x00FF000000000000) (k := 8) rfl,
    shiftRight_mask (m := 0xFF00000000000000) (k := 0) rfl]
  iterate 7 rw [or_byte rfl]
  simp [bytes, little_cons, Nat.div_div_eq_div_mul]

/-! ## The conversions -/

/-- `uint16_t` with `BSON_UINT16_SWAP_LE_BE` -/
def word16 : Word UInt16 where
  width := 2
  toNat := UInt16.toNat
  ofNat := UInt16.ofNat
  swap := uint16SwapSlow
  toNat_lt := UInt16.toNat_lt
  ofNat_toNat _ := UInt16.ofNat_toNat
  toNat_ofNat _ := UInt16.toNat_ofNat_of_lt
  toNat_swap := toNat_uint16SwapSlow

/-- `uint32_t` with `BSON_UINT32_SWAP_LE_BE` -/
def word32 : Word UInt32 where
  width := 4
  toNat := UInt32.toNat
  ofNat := UInt32.ofNat
  swap := uint32SwapSlow
  toNat_lt := UInt32.toNat_lt
  ofNat_toNat _ := UInt32.ofNat_toNat
  toNat_ofNat _ := UInt32.toNat_ofNat_of_lt
  toNat_swap := toNat_uint32SwapSlow

/-- `uint64_t` with `BSON_UINT64_SWAP_LE_BE` -/
def word64 : Word UInt64 where
  width := 8
  toNat := UInt64.toNat
  ofNat := UInt64.ofNat
  swap := uint64SwapSlow
  toNat_lt := UInt64.toNat_lt
  ofNat_toNat _ := UInt64.ofNat_toNat
  toNat_ofNat _ := UInt64.toNat_ofNat_of_lt
  toNat_swap := toNat_uint64SwapSlow

section

variable (order : ByteOrder)

/-- `BSON_UINT16_FROM_LE` -/
def uint16FromLe : UInt16 → UInt16 := word16.between order .littleEndian

/-- `BSON_UINT16_TO_LE` -/
def uint16ToLe : UInt16 → UInt16 := word16.between order .littleEndian

/-- `BSON_UINT16_FROM_BE` -/
def uint16FromBe : UInt16 → UInt16 := word16.between order .bigEndian

/-- `BSON_UINT16_TO_BE` -/
def uint16ToBe : UInt16 → UInt16 := word16.between order .bigEndian

/-- `BSON_UINT32_FROM_LE` -/
def uint32FromLe : UInt32 → UInt32 := word32.between order .littleEndian

/-- `BSON_UINT32_TO_LE` -/
def uint32ToLe : UInt32 → UInt32 := word32.between order .littleEndian

/-- `BSON_UINT32_FROM_BE` -/
def uint32FromBe : UInt32 → UInt32 := word32.between order .bigEndian

/-- `BSON_UINT32_TO_BE` -/
def uint32ToBe : UInt32 → UInt32 := word32.between order .bigEndian

/-- `BSON_UINT64_FROM_LE` -/
def uint64FromLe : UInt64 → UInt64 := word64.between order .littleEndian

/-- `BSON_UINT64_TO_LE` -/
def uint64ToLe : UInt64 → UInt64 := word64.between order .littleEndian

/-- `BSON_UINT64_FROM_BE` -/
def uint64FromBe : UInt64 → UInt64 := word64.between order .bigEndian

/-- `BSON_UINT64_TO_BE` -/
def uint64ToBe : UInt64 → UInt64 := word64.between order .bigEndian

end

/-! ## From one machine to another -/

/-- Every value that is converted with `conv`, stored by `writer`, loaded by `reader` and converted
with `back` is the same again, and the bytes in between are those of `fixed`. -/
def Portable {α : Type} (W : Word α) (fixed : ByteOrder) (conv back : ByteOrder → α → α) : Prop :=
  ∀ writer reader v,
    store writer W.width (W.toNat (conv writer v)) = store fixed W.width (W.toNat v) ∧
    back reader (W.ofNat (load reader (store fixed W.width (W.toNat v)))) = v

theorem portable_between {α : Type} (W : Word α) (fixed : ByteOrder) :
    Portable W fixed (fun order ↦ W.between order fixed) (fun order ↦ W.between order fixed) := by
  intro writer reader v
  have hload := W.between_load_store fixed reader fixed v
  rw [W.store_between] at hload
  exact ⟨W.store_between writer fixed v, hload⟩

/-- **The conversions are portable.** -/
theorem portable :
    Portable word16 .littleEndian uint16ToLe uint16FromLe ∧
    Portable word16 .bigEndian uint16ToBe uint16FromBe ∧
    Portable word32 .littleEndian uint32ToLe uint32FromLe ∧
    Portable word32 .bigEndian uint32ToBe uint32FromBe ∧
    Portable word64 .littleEndian uint64ToLe uint64FromLe ∧
    Portable word64 .bigEndian uint64ToBe uint64FromBe :=
  ⟨portable_between _ _, portable_between _ _, portable_between _ _, portable_between _ _,
    portable_between _ _, portable_between _ _⟩

end Bson
