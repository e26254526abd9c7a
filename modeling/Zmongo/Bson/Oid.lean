import Mathlib.Data.List.Basic
import Mathlib.Data.List.OfFn
import Mathlib.Data.Nat.ModEq
import Mathlib.Tactic.IntervalCases
import Zmongo.Bson.Endian

/-!
# Object ids

The inline functions of `bson-oid.h`.  An object id is twelve bytes: the time of its generation in
big endian order, and then bytes that tell apart the ids of one second.

As text an object id is 24 hexadecimal digits.  The parser takes every text of 24 bytes, capital
letters too and anything that is not a digit for a zero.  What a character is worth is said once
more, by the ranges of the digits and the letters (`hexValue`, `readAs`), and the table of the
parser is that (`toNat_parseHexChar`).  `initFromStringUnsafe_eq_iff` says which texts are read as
an id.  The order of ids is that of their texts, and an id of an earlier second is before one of a
later second on every machine (`compareUnsafe_order`).

The hash is the number of the bytes in base 33 (`hashUnsafe_eq`), which tells apart the ids of a
second as far as that number does (`hashUnsafe_eq_iff`).
-/

set_option autoImplicit false

open C

namespace Bson

/-- `bson_oid_t` -/
structure Oid where
  bytes : Vector UInt8 12
  deriving DecidableEq

namespace Oid

/-- The sign of `memcmp` of two ranges of the same length: the first bytes that differ decide. -/
def memcmp : List UInt8 → List UInt8 → Ordering
  | a :: l, b :: m => if a < b then .lt else if b < a then .gt else memcmp l m
  | _, _ => .eq

/-- `bson_oid_compare_unsafe` -/
def compareUnsafe (oid1 oid2 : Oid) : Ordering := memcmp oid1.bytes.toList oid2.bytes.toList

/-- `bson_oid_equal_unsafe` -/
def equalUnsafe (oid1 oid2 : Oid) : Bool := memcmp oid1.bytes.toList oid2.bytes.toList = .eq

/-- `bson_oid_hash_unsafe` -/
def hashUnsafe (oid : Oid) : UInt32 :=
  oid.bytes.toList.foldl (fun hash b ↦ ((hash <<< 5) + hash) + b.toUInt32) 5381

/-- `bson_oid_parse_hex_char` -/
def parseHexChar (hex : UInt8) : UInt8 :=
  match Char.ofUInt8 hex with
  | '0' => 0
  | '1' => 1
  | '2' => 2
  | '3' => 3
  | '4' => 4
  | '5' => 5
  | '6' => 6
  | '7' => 7
  | '8' => 8
  | '9' => 9
  | 'a' | 'A' => 0xa
  | 'b' | 'B' => 0xb
  | 'c' | 'C' => 0xc
  | 'd' | 'D' => 0xd
  | 'e' | 'E' => 0xe
  | 'f' | 'F' => 0xf
  | _ => 0

/-- `bson_oid_init_from_string_unsafe` -/
def initFromStringUnsafe (str : Vector UInt8 24) : Oid where
  bytes := Vector.ofFn fun i ↦
    (parseHexChar str[2 * i.val] <<< 4) ||| parseHexChar str[2 * i.val + 1]

/-- `bson_oid_get_time_t_unsafe`.  A `time_t` holds every value of the type. -/
def getTimeTUnsafe (order : ByteOrder) (oid : Oid) : UInt32 :=
  uint32FromBe order (UInt32.ofNat (load order (oid.bytes.toList.take 4)))

/-! ## Hexadecimal digits -/

/-- The digit of a number below 16, in lower case. -/
def hexDigit (d : ℕ) : UInt8 := UInt8.ofNat (if d < 10 then 48 + d else 87 + d)

/-- The digits of a byte. -/
def hexByte (b : UInt8) : List UInt8 := [hexDigit (b.toNat / 16), hexDigit (b.toNat % 16)]

/-- The text of an object id. -/
def hexText (oid : Oid) : List UInt8 := oid.bytes.toList.flatMap hexByte

/-- The number a character stands for as a digit: from 48 on there are `0` to `9`, from 97 on `a` to
`f`, and from 65 on `A` to `F`.  Other characters stand for zero. -/
def hexValue (hex : UInt8) : ℕ :=
  if 48 ≤ hex ∧ hex ≤ 57 then hex.toNat - 48
  else if 97 ≤ hex ∧ hex ≤ 102 then hex.toNat - 87
  else if 65 ≤ hex ∧ hex ≤ 70 then hex.toNat - 55
  else 0

/-- A character with a small letter in the place of a capital one, and `0` in the place of what is
no digit. -/
def readAs (hex : UInt8) : UInt8 :=
  if 48 ≤ hex ∧ hex ≤ 57 ∨ 97 ≤ hex ∧ hex ≤ 102 then hex
  else if 65 ≤ hex ∧ hex ≤ 70 then hex + 32
  else 48

theorem hexValue_lt (hex : UInt8) : hexValue hex < 16 := by
  simp only [hexValue, UInt8.le_iff_toNat_le, UInt8.reduceToNat]
  split_ifs <;> omega

theorem toNat_parseHexChar_ofNat :
    ∀ n < 256, (parseHexChar (UInt8.ofNat n)).toNat = hexValue (UInt8.ofNat n) := by
  decide +kernel

/-- **The table of the parser** is that of the hexadecimal digits. -/
theorem toNat_parseHexChar (hex : UInt8) : (parseHexChar hex).toNat = hexValue hex := by
  have h := toNat_parseHexChar_ofNat hex.toNat hex.toNat_lt
  rwa [UInt8.ofNat_toNat] at h

theorem parseHexChar_lt (hex : UInt8) : (parseHexChar hex).toNat < 16 := by
  rw [toNat_parseHexChar]
  exact hexValue_lt hex

theorem toNat_hexDigit {d : ℕ} (h : d < 16) :
    (hexDigit d).toNat = if d < 10 then 48 + d else 87 + d := by
  rw [hexDigit, UInt8.toNat_ofNat_of_lt' (by rw [UInt8.size]; split_ifs <;> omega)]

theorem hexDigit_lt_iff {d e : ℕ} (hd : d < 16) (he : e < 16) :
    hexDigit d < hexDigit e ↔ d < e := by
  rw [UInt8.lt_iff_toNat_lt, toNat_hexDigit hd, toNat_hexDigit he]
  split_ifs <;> omega

theorem hexDigit_inj {d e : ℕ} (hd : d < 16) (he : e < 16) : hexDigit d = hexDigit e ↔ d = e := by
  rw [← UInt8.toNat_inj, toNat_hexDigit hd, toNat_hexDigit he]
  split_ifs <;> omega

theorem toNat_readAs (hex : UInt8) : (readAs hex).toNat =
    if 48 ≤ hex.toNat ∧ hex.toNat ≤ 57 ∨ 97 ≤ hex.toNat ∧ hex.toNat ≤ 102 then hex.toNat
    else if 65 ≤ hex.toNat ∧ hex.toNat ≤ 70 then hex.toNat + 32
    else 48 := by
  simp only [readAs, UInt8.le_iff_toNat_le, UInt8.reduceToNat]
  split_ifs with hdigit hcapital
  · rfl
  · rw [UInt8.toNat_add]
    simp only [UInt8.reduceToNat]
    omega
  · rfl

/-- The digit of the number a character stands for. -/
theorem hexDigit_hexValue (hex : UInt8) : hexDigit (hexValue hex) = readAs hex := by
  rw [← UInt8.toNat_inj, toNat_hexDigit (hexValue_lt hex), toNat_readAs]
  simp only [hexValue, UInt8.le_iff_toNat_le, UInt8.reduceToNat]
  split_ifs <;> omega

theorem hexValue_hexDigit {d : ℕ} (h : d < 16) : hexValue (hexDigit d) = d := by
  simp only [hexValue, UInt8.le_iff_toNat_le, UInt8.reduceToNat, toNat_hexDigit h]
  split_ifs <;> omega

theorem readAs_hexDigit {d : ℕ} (h : d < 16) : readAs (hexDigit d) = hexDigit d := by
  rw [← hexDigit_hexValue, hexValue_hexDigit h]

theorem hexValue_readAs (hex : UInt8) : hexValue (readAs hex) = hexValue hex := by
  rw [← hexDigit_hexValue, hexValue_hexDigit (hexValue_lt hex)]

theorem hexByte_lt_iff (b c : UInt8) : hexByte b < hexByte c ↔ b < c := by
  have hb := b.toNat_lt
  have hc := c.toNat_lt
  rw [hexByte, hexByte, List.cons_lt_cons_iff, List.cons_lt_cons_iff,
    hexDigit_lt_iff (by omega) (by omega), hexDigit_inj (by omega) (by omega),
    hexDigit_lt_iff (by omega) (by omega), UInt8.lt_iff_toNat_lt]
  simp only [List.not_lt_nil, and_false, or_false]
  omega

theorem hexByte_inj (b c : UInt8) : hexByte b = hexByte c ↔ b = c := by
  have hb := b.toNat_lt
  have hc := c.toNat_lt
  rw [hexByte, hexByte, List.cons.injEq, List.cons.injEq, hexDigit_inj (by omega) (by omega),
    hexDigit_inj (by omega) (by omega), ← UInt8.toNat_inj]
  simp only [and_true]
  omega

/-- Two digits are read as a byte. -/
theorem toNat_pair {x y : UInt8} (hx : x.toNat < 16) (hy : y.toNat < 16) :
    ((x <<< 4) ||| y).toNat = x.toNat * 16 + y.toNat := by
  have hor := Nat.two_pow_add_eq_or_of_lt (i := 4) hy x.toNat
  simp only [UInt8.toNat_or, UInt8.toNat_shiftLeft, UInt8.reduceToNat, Nat.reduceMod,
    Nat.shiftLeft_eq]
  rw [Nat.mod_eq_of_lt (by omega), mul_comm, ← hor, mul_comm]

theorem hexByte_pair (a b : UInt8) :
    hexByte ((parseHexChar a <<< 4) ||| parseHexChar b) = [readAs a, readAs b] := by
  have ha := parseHexChar_lt a
  have hb := parseHexChar_lt b
  have hhigh : ((parseHexChar a).toNat * 16 + (parseHexChar b).toNat) / 16 =
    (parseHexChar a).toNat := by omega
  have hlow : ((parseHexChar a).toNat * 16 + (parseHexChar b).toNat) % 16 =
    (parseHexChar b).toNat := by omega
  rw [hexByte, toNat_pair ha hb, hhigh, hlow, toNat_parseHexChar, toNat_parseHexChar,
    hexDigit_hexValue, hexDigit_hexValue]

/-! ## Texts -/

theorem flatMap_hexByte_lt_iff {l m : List UInt8} (h : l.length = m.length) :
    l.flatMap hexByte < m.flatMap hexByte ↔ l < m := by
  induction l generalizing m with
  | nil =>
    obtain rfl : m = [] := List.eq_nil_of_length_eq_zero h.symm
    simp
  | cons b l ih =>
    obtain ⟨c, m, rfl⟩ := List.exists_cons_of_length_eq_add_one h.symm
    rw [List.flatMap_cons, List.flatMap_cons, List.append_lt_append_iff (by simp [hexByte]),
      hexByte_lt_iff, hexByte_inj, ih (by simpa using h), List.cons_lt_cons_iff]

theorem flatMap_hexByte_inj {l m : List UInt8} (h : l.length = m.length) :
    l.flatMap hexByte = m.flatMap hexByte ↔ l = m := by
  refine ⟨?_, ?_⟩
  · intro heq
    induction l generalizing m with
    | nil => exact (List.eq_nil_of_length_eq_zero h.symm).symm
    | cons b l ih =>
      obtain ⟨c, m, rfl⟩ := List.exists_cons_of_length_eq_add_one h.symm
      obtain ⟨hbyte, hrest⟩ := List.append_inj heq (by simp [hexByte])
      rw [(hexByte_inj b c).mp hbyte, ih (by simpa using h) hrest]
  · rintro rfl
    rfl

theorem toList_inj {a b : Oid} : a.bytes.toList = b.bytes.toList ↔ a = b := by
  cases a
  cases b
  simp [Vector.toList_inj]

theorem hexText_inj {a b : Oid} : hexText a = hexText b ↔ a = b := by
  rw [hexText, hexText, flatMap_hexByte_inj (by simp), toList_inj]

theorem hexText_initFromStringUnsafe (str : Vector UInt8 24) :
    hexText (initFromStringUnsafe str) = str.toList.map readAs := by
  have hstr : str.toList = List.ofFn fun k : Fin (2 * 12) ↦ str[k.val] := by
    rw [← Vector.toList_ofFn, Vector.toList_inj]
    ext i hi
    simp
  rw [hexText, initFromStringUnsafe, Vector.toList_ofFn, List.flatMap_def, List.map_ofFn, hstr,
    List.map_ofFn, List.ofFn_mul']
  congr 2
  ext1 i
  simp [hexByte_pair]

/-- The digits of an id are read as what they are. -/
theorem map_readAs_hexText (oid : Oid) : (hexText oid).map readAs = hexText oid := by
  rw [hexText, List.map_flatMap]
  refine List.flatMap_congr fun b _ ↦ ?_
  have hb := b.toNat_lt
  rw [hexByte, List.map_cons, List.map_singleton, readAs_hexDigit (by omega),
    readAs_hexDigit (by omega)]

/-- The first digits of an id are those of its first bytes. -/
theorem take_hexText (oid : Oid) :
    (hexText oid).take 8 = (oid.bytes.toList.take 4).flatMap hexByte := by
  have hlen : ((oid.bytes.toList.take 4).flatMap hexByte).length = 8 := by
    simp [List.length_flatMap, hexByte]
  have h := List.take_append_drop 4 oid.bytes.toList
  rw [hexText, ← h, List.flatMap_append, List.take_left' hlen, h]

/-- The digits of bytes are read as the digits of their numbers. -/
theorem map_flatMap_hexByte (l : List UInt8) :
    (l.flatMap hexByte).map hexValue =
      (l.map UInt8.toNat).flatMap fun d ↦ [d / 16, d % 16] := by
  rw [List.map_flatMap, List.flatMap_map]
  refine List.flatMap_congr fun b _ ↦ ?_
  have hb := b.toNat_lt
  rw [hexByte, List.map_cons, List.map_singleton, hexValue_hexDigit (by omega),
    hexValue_hexDigit (by omega)]

/-- **The texts that are read as an object id** are its 24 digits, with capital letters or small
ones, and with anything that is not a digit in the place of a zero.  Its own text is one of them. -/
theorem initFromStringUnsafe_eq_iff (oid : Oid) :
    (∀ str, initFromStringUnsafe str = oid ↔ str.toList.map readAs = hexText oid) ∧
    (hexText oid).map readAs = hexText oid := by
  refine ⟨fun str ↦ ?_, map_readAs_hexText oid⟩
  rw [← hexText_inj, hexText_initFromStringUnsafe]

/-! ## Order -/

theorem memcmp_eq_lt_iff {l m : List UInt8} (h : l.length = m.length) :
    memcmp l m = .lt ↔ l < m := by
  induction l generalizing m with
  | nil =>
    obtain rfl : m = [] := List.eq_nil_of_length_eq_zero h.symm
    simp [memcmp]
  | cons b l ih =>
    obtain ⟨c, m, rfl⟩ := List.exists_cons_of_length_eq_add_one h.symm
    rw [memcmp, List.cons_lt_cons_iff, ← ih (by simpa using h)]
    split_ifs with hlt hgt
    · simp [hlt]
    · have hne : b ≠ c := by
        rintro rfl
        exact hlt hgt
      simp [hlt, hne]
    · simp [UInt8.le_antisymm (UInt8.not_lt.mp hgt) (UInt8.not_lt.mp hlt)]

theorem memcmp_eq_gt_iff {l m : List UInt8} (h : l.length = m.length) :
    memcmp l m = .gt ↔ m < l := by
  induction l generalizing m with
  | nil =>
    obtain rfl : m = [] := List.eq_nil_of_length_eq_zero h.symm
    simp [memcmp]
  | cons b l ih =>
    obtain ⟨c, m, rfl⟩ := List.exists_cons_of_length_eq_add_one h.symm
    rw [memcmp, List.cons_lt_cons_iff, ← ih (by simpa using h)]
    split_ifs with hlt hgt
    · have hgt : ¬c < b := UInt8.not_lt.mpr (UInt8.le_of_lt hlt)
      have hne : c ≠ b := by
        rintro rfl
        exact hgt hlt
      simp [hgt, hne]
    · simp [hgt]
    · simp [UInt8.le_antisymm (UInt8.not_lt.mp hgt) (UInt8.not_lt.mp hlt)]

theorem memcmp_eq_eq_iff {l m : List UInt8} (h : l.length = m.length) :
    memcmp l m = .eq ↔ l = m := by
  induction l generalizing m with
  | nil =>
    obtain rfl : m = [] := List.eq_nil_of_length_eq_zero h.symm
    simp [memcmp]
  | cons b l ih =>
    obtain ⟨c, m, rfl⟩ := List.exists_cons_of_length_eq_add_one h.symm
    rw [memcmp, List.cons.injEq, ← ih (by simpa using h)]
    split_ifs with hlt hgt
    · have hne : b ≠ c := UInt8.ne_of_lt hlt
      simp [hne]
    · have hne : b ≠ c := (UInt8.ne_of_lt hgt).symm
      simp [hne]
    · simp [UInt8.le_antisymm (UInt8.not_lt.mp hgt) (UInt8.not_lt.mp hlt)]

/-- The time of an id is the number of its first four bytes. -/
theorem toNat_getTimeTUnsafe (order : ByteOrder) (oid : Oid) :
    (getTimeTUnsafe order oid).toNat = load .bigEndian (oid.bytes.toList.take 4) :=
  word32.between_load order .bigEndian (by simp [word32])

/-- **The time of an id that is read from a text** is the number of the first eight digits. -/
theorem getTimeTUnsafe_initFromStringUnsafe (order : ByteOrder) (str : Vector UInt8 24) :
    (getTimeTUnsafe order (initFromStringUnsafe str)).toNat =
      Radix.value 16 ((str.toList.take 8).map hexValue) := by
  have hdigits : (str.toList.take 8).map hexValue =
      ((hexText (initFromStringUnsafe str)).take 8).map hexValue := by
    rw [hexText_initFromStringUnsafe, ← List.map_take, List.map_map]
    exact List.map_congr_left fun hex _ ↦ (hexValue_readAs hex).symm
  have hbyte : ∀ d, Radix.value 16 [d / 16, d % 16] = d := by
    intro d
    rw [Radix.value_cons, Radix.value_cons, Radix.value_nil, List.length_singleton, List.length_nil]
    omega
  rw [hdigits, take_hexText, map_flatMap_hexByte,
    Radix.value_flatMap (k := 2) (fun _ _ ↦ rfl) fun d _ ↦ hbyte d, toNat_getTimeTUnsafe, load,
    little, List.reverse_reverse]
  rfl

/-- **The order of object ids** is that of their texts, and refines the order of their times. -/
theorem compareUnsafe_order (order : ByteOrder) (a b : Oid) :
    (compareUnsafe a b = .lt ↔ hexText a < hexText b) ∧
    (compareUnsafe a b = .gt ↔ hexText b < hexText a) ∧
    (equalUnsafe a b ↔ a = b) ∧
    (compareUnsafe a b = .eq ↔ equalUnsafe a b) ∧
    (getTimeTUnsafe order a < getTimeTUnsafe order b → compareUnsafe a b = .lt) := by
  have hlen : a.bytes.toList.length = b.bytes.toList.length := by simp
  have hlt : compareUnsafe a b = .lt ↔ a.bytes.toList < b.bytes.toList := memcmp_eq_lt_iff hlen
  refine ⟨?_, ?_, ?_, ?_, ?_⟩
  · rw [hlt, hexText, hexText, flatMap_hexByte_lt_iff hlen]
  · rw [hexText, hexText, flatMap_hexByte_lt_iff hlen.symm]
    exact memcmp_eq_gt_iff hlen
  · rw [equalUnsafe, decide_eq_true_iff, memcmp_eq_eq_iff hlen, toList_inj]
  · rw [compareUnsafe, equalUnsafe, decide_eq_true_iff]
  · intro htime
    rw [UInt32.lt_iff_toNat_lt, toNat_getTimeTUnsafe, toNat_getTimeTUnsafe,
      load_bigEndian_lt_iff (by simp)] at htime
    rw [hlt, ← List.take_append_drop 4 a.bytes.toList, ← List.take_append_drop 4 b.bytes.toList,
      List.append_lt_append_iff (by simp)]
    exact .inl htime

/-! ## The hash -/

/-- One round of the hash. -/
theorem hash_round (v : ℕ) (b : UInt8) :
    ((UInt32.ofNat v <<< 5) + UInt32.ofNat v) + b.toUInt32 = UInt32.ofNat (v * 33 + b.toNat) := by
  have hb : b.toNat < 256 := b.toNat_lt
  rw [← UInt32.toNat_inj]
  simp only [UInt32.toNat_add, UInt32.toNat_shiftLeft, UInt32.toNat_ofNat', UInt32.reduceToNat,
    UInt8.toNat_toUInt32, Nat.reduceMod, Nat.shiftLeft_eq]
  omega

theorem foldl_hash (v : ℕ) (l : List UInt8) :
    l.foldl (fun (hash : UInt32) b ↦ ((hash <<< 5) + hash) + b.toUInt32) (UInt32.ofNat v) =
      UInt32.ofNat (v * 33 ^ l.length + Radix.value 33 (l.map UInt8.toNat)) := by
  rw [← List.length_map UInt8.toNat, ← Radix.foldl_eq_value]
  induction l generalizing v with
  | nil => rfl
  | cons b l ih => rw [List.foldl_cons, hash_round, ih, List.map_cons, List.foldl_cons]

theorem hashUnsafe_eq (oid : Oid) :
    hashUnsafe oid =
      UInt32.ofNat (5381 * 33 ^ 12 + Radix.value 33 (oid.bytes.toList.map UInt8.toNat)) := by
  have h := foldl_hash 5381 oid.bytes.toList
  rwa [Vector.length_toList] at h

theorem ofNat_inj_iff_modEq (m n : ℕ) : UInt32.ofNat m = UInt32.ofNat n ↔ m ≡ n [MOD 2 ^ 32] := by
  rw [← UInt32.toNat_inj, UInt32.toNat_ofNat', UInt32.toNat_ofNat', Nat.ModEq]

/-- A few bytes are a small number in base 33. -/
theorem value_lt_of_length_le {l : List UInt8} (h : l.length ≤ 5) :
    Radix.value 33 (l.map UInt8.toNat) < 2 ^ 32 := by
  have hle : ∀ d ∈ l.map UInt8.toNat, d ≤ 255 :=
    fun d hd ↦ Nat.le_of_lt_succ (forall_mem_map_toNat l d hd)
  have hvalue : Radix.value 33 (l.map UInt8.toNat) * 32 + 255 ≤ 255 * 33 ^ _ :=
    Radix.value_mul_add_le hle
  have hpow : 33 ^ l.length ≤ 33 ^ 5 := Nat.pow_le_pow_right (by decide) h
  rw [List.length_map] at hvalue
  omega

/-- **Ids with the same hash.**  If two ids differ in no more than five consecutive bytes, their
hashes are the same exactly if the numbers of these bytes in base 33 are. -/
theorem hashUnsafe_eq_iff {a b : Oid} {p u v s : List UInt8} (ha : a.bytes.toList = p ++ u ++ s)
    (hb : b.bytes.toList = p ++ v ++ s) (hlen : u.length = v.length) (h5 : u.length ≤ 5) :
    hashUnsafe a = hashUnsafe b ↔
      Radix.value 33 (u.map UInt8.toNat) = Radix.value 33 (v.map UInt8.toNat) := by
  have hu := value_lt_of_length_le h5
  have hv := value_lt_of_length_le (hlen ▸ h5)
  have hcop : Nat.Coprime (2 ^ 32) (33 ^ s.length) := Nat.Coprime.pow _ _ (by decide)
  rw [hashUnsafe_eq, hashUnsafe_eq, ha, hb, ofNat_inj_iff_modEq]
  simp only [List.map_append, Radix.value_append, List.length_map, hlen]
  refine ⟨?_, ?_⟩
  · intro h
    -- what is in front of the bytes and behind them cancels, and so does the power of 33
    have hmid := Nat.ModEq.add_right_cancel' _ (Nat.ModEq.add_left_cancel' _ h)
    have hnum := Nat.ModEq.add_left_cancel' _ (Nat.ModEq.cancel_right_of_coprime hcop hmid)
    exact Nat.ModEq.eq_of_lt_of_lt hnum hu hv
  · intro h
    rw [h]

/-- A unit more in one byte and 33 less in the next one do not change the hash. -/
theorem hashUnsafe_eq_counter :
    hashUnsafe ⟨#v[0, 0, 0, 0, 0, 0, 0, 0, 0, 0, 0, 33]⟩ =
      hashUnsafe ⟨#v[0, 0, 0, 0, 0, 0, 0, 0, 0, 0, 1, 0]⟩ ↔
    Radix.value 33 ([0, 33].map UInt8.toNat) = Radix.value 33 ([1, 0].map UInt8.toNat) :=
  hashUnsafe_eq_iff (p := List.replicate 10 0) (s := []) rfl rfl rfl (by decide)

end Oid
end Bson
