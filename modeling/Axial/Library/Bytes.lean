/-
This file collects the byte-level facts a fixed on-disk layout needs: arrays of
a fixed length, the little-endian spelling of a number, and the reading and
overwriting of one region of a longer string of bytes. Nothing here knows what
the bytes mean.
-/

import Mathlib

namespace Bytes

open List Option

/-! ### Arrays of a fixed length -/

/-- A byte array whose length is part of its type. -/
abbrev Fixed (count : Nat) := {bytes : List UInt8 // bytes.length = count}

/-- The array of zero bytes. -/
def Fixed.zero (count : Nat) : Fixed count := ⟨List.replicate count 0, length_replicate⟩

variable {count : Nat}

@[simp] theorem Fixed.length_val (bytes : Fixed count) :
    bytes.val.length = count := bytes.property

/-- Take an exact array from a list of bytes. -/
def Fixed.ofList? (count : Nat) (bytes : List UInt8) : Option (Fixed count) :=
  if exact : bytes.length = count then some ⟨bytes, exact⟩ else none

theorem Fixed.ofList?_eq_some (bytes : List UInt8) (array : Fixed count) :
    Fixed.ofList? count bytes = some array ↔ bytes = array.val := by
  unfold Fixed.ofList?
  constructor
  · intro read
    split at read
    · exact congrArg Subtype.val (some_inj.mp read)
    · cases read
  · rintro rfl
    rw [dif_pos array.property]

/-! ### Little-endian numbers -/

/-- The `width` low bytes of a number, least significant first. -/
def littleEndian : Nat → Nat → List UInt8
  | 0, _ => []
  | width + 1, value => UInt8.ofNat (value % 256) :: littleEndian width (value / 256)

/-- The number a little-endian byte string spells. -/
def fromLittleEndian : List UInt8 → Nat
  | [] => 0
  | byte :: rest => byte.toNat + 256 * fromLittleEndian rest

@[simp] theorem littleEndian_length (width value : Nat) :
    (littleEndian width value).length = width := by
  induction width generalizing value with
  | zero => rfl
  | succ width ih =>
    rw [littleEndian, length_cons, ih]

theorem fromLittleEndian_lt (bytes : List UInt8) :
    fromLittleEndian bytes < 256 ^ bytes.length := by
  induction bytes with
  | nil => simp [fromLittleEndian]
  | cons byte rest ih =>
    have small := byte.toNat_lt
    rw [fromLittleEndian, length_cons, Nat.pow_succ]
    omega

theorem fromLittleEndian_littleEndian (width value : Nat) (small : value < 256 ^ width) :
    fromLittleEndian (littleEndian width value) = value := by
  induction width generalizing value with
  | zero =>
    simp only [pow_zero, Nat.lt_one_iff] at small
    rw [littleEndian, fromLittleEndian, small]
  | succ width ih =>
    have quotient : value / 256 < 256 ^ width := by
      rw [Nat.pow_succ] at small
      omega
    have low : (UInt8.ofNat (value % 256)).toNat = value % 256 := by
      rw [UInt8.toNat_ofNat']
      omega
    rw [littleEndian, fromLittleEndian, ih _ quotient, low]
    omega

theorem littleEndian_fromLittleEndian (bytes : List UInt8) :
    littleEndian bytes.length (fromLittleEndian bytes) = bytes := by
  induction bytes with
  | nil => rfl
  | cons byte rest ih =>
    have small := byte.toNat_lt
    have low : (byte.toNat + 256 * fromLittleEndian rest) % 256 = byte.toNat := by omega
    have high : (byte.toNat + 256 * fromLittleEndian rest) / 256 = fromLittleEndian rest := by
      omega
    rw [length_cons, fromLittleEndian, littleEndian, low, high, ih,
      UInt8.ofNat_toNat]

/-! ### Big-endian numbers -/

/-- The `width` low bytes of a number, most significant first. -/
def bigEndian (width value : Nat) : List UInt8 := (littleEndian width value).reverse

/-! ### Text -/

/-- The UTF-8 bytes of a string. -/
def utf8 (value : String) : List UInt8 := value.toByteArray.data.toList

/-- The string a list of bytes spells in UTF-8. -/
def fromUtf8 (bytes : List UInt8) : Option String := String.fromUTF8? ⟨bytes.toArray⟩

theorem fromUtf8_eq_some (bytes : List UInt8) (value : String) :
    fromUtf8 bytes = some value ↔ bytes = utf8 value := by
  have spelled : (⟨bytes.toArray⟩ : ByteArray) = value.toByteArray ↔ bytes = utf8 value := by
    constructor
    · intro same
      rw [utf8, ← same]
    · rintro rfl
      rfl
  unfold fromUtf8 String.fromUTF8?
  rw [← spelled]
  split
  · rw [some_inj]
    constructor
    · rintro rfl
      rfl
    · intro same
      exact String.toByteArray_inj.mp same
  · rename_i invalid
    simp only [reduceCtorEq, false_iff]
    intro same
    exact invalid (same ▸ value.isValidUTF8)

theorem utf8_injective : Function.Injective utf8 := by
  intro first second same
  exact some_inj.mp
    (((fromUtf8_eq_some _ first).mpr same.symm).symm.trans ((fromUtf8_eq_some _ second).mpr rfl))

theorem utf8_ofList (chars : List Char) :
    utf8 (String.ofList chars) = chars.flatMap String.utf8EncodeChar := by
  simp [utf8, List.utf8Encode]

variable {chars : List Char}

theorem utf8_of_ascii (ascii : ∀ char ∈ chars, char.toNat < 0x80) :
    utf8 (String.ofList chars) = chars.map fun char => UInt8.ofNat char.toNat := by
  rw [utf8_ofList]
  induction chars with
  | nil => rfl
  | cons char chars ih =>
    have one : char.utf8Size = 1 := by
      rw [Char.utf8Size_eq_one_iff, UInt32.le_iff_toNat_le]
      exact Nat.le_of_lt_succ (ascii char mem_cons_self)
    rw [flatMap_cons, String.utf8EncodeChar_eq_singleton one,
      ih fun other member => ascii other (mem_cons_of_mem _ member)]
    rfl

theorem utf8_length (value : String) :
    (utf8 value).length = (value.toList.map Char.utf8Size).sum := by
  show value.utf8ByteSize = _
  rw [← String.ofList_toList (s := value)]
  generalize value.toList = chars
  rw [String.toList_ofList]
  induction chars with
  | nil => rfl
  | cons char rest ih =>
    rw [String.ofList_cons, String.utf8ByteSize_append, String.utf8ByteSize_singleton,
      ih, map_cons, sum_cons]

/-- A character of ASCII takes one byte. -/
theorem utf8_length_of_ascii (ascii : ∀ char ∈ chars, char.toNat < 0x80) :
    (utf8 (String.ofList chars)).length = chars.length := by
  have one : ∀ char ∈ chars, char.utf8Size = 1 := fun char member => by
    rw [Char.utf8Size_eq_one_iff, UInt32.le_iff_toNat_le]
    exact Nat.le_of_lt_succ (ascii char member)
  rw [utf8_length, String.toList_ofList, map_congr_left one, map_const', sum_replicate,
    smul_eq_mul, Nat.mul_one]

theorem toNat_toLower_lt {char : Char} (ascii : char.toNat < 0x80) : char.toLower.toNat < 0x80 := by
  by_cases upper : char.isUpper = true
  · have range : char.toNat ≤ 90 := by
      simp only [Char.isUpper, decide_eq_true_eq] at upper
      exact upper.2
    rw [Char.toLower_eq_of_isUpper upper, Char.toNat_ofNat]
    split <;> omega
  · rw [Char.toLower_eq_of_not_isUpper upper]
    exact ascii

/-! ### Regions -/

/-- The `count` bytes starting at `start`. -/
def slice (bytes : List UInt8) (start count : Nat) : List UInt8 :=
  (bytes.drop start).take count

/-- Overwrite the bytes from `start` on with `data`. -/
def splice (bytes : List UInt8) (start : Nat) (data : List UInt8) : List UInt8 :=
  bytes.take start ++ data ++ bytes.drop (start + data.length)

variable {bytes : List UInt8} {start : Nat}

theorem slice_length (inside : start + count ≤ bytes.length) :
    (slice bytes start count).length = count := by
  rw [slice, length_take, length_drop]
  omega

section

variable (front : List UInt8) (back : List UInt8)

include front back

theorem slice_append_left (start count : Nat) (inside : start + count ≤ front.length) :
    slice (front ++ back) start count = slice front start count := by
  rw [slice, slice, drop_append_of_le_length (by omega),
    take_append_of_le_length (by rw [length_drop]; omega)]

theorem slice_append_right (start count : Nat) (outside : front.length ≤ start) :
    slice (front ++ back) start count = slice back (start - front.length) count := by
  rw [slice, slice, drop_append, drop_eq_nil_of_le outside, nil_append]

theorem slice_prefix (count : Nat) (exact : front.length = count) :
    slice (front ++ back) 0 count = front := by
  rw [slice, drop_zero, ← exact, take_left]

end

variable {data : List UInt8}

section

variable (inside : start + data.length ≤ bytes.length)

include inside

theorem splice_length : (splice bytes start data).length = bytes.length := by
  rw [splice, length_append, length_append, length_take, length_drop]
  omega

/-- The region that was overwritten holds the new bytes. -/
theorem slice_splice_self : slice (splice bytes start data) start data.length = data := by
  have front : (bytes.take start).length = start := by
    rw [length_take]
    omega
  rw [splice, append_assoc, slice_append_right _ _ _ _ (by omega), front, Nat.sub_self,
    slice_prefix _ _ _ rfl]

/-- A region disjoint from the overwritten one keeps its bytes. -/
theorem slice_splice_disjoint {other : Nat}
    (disjoint : other + count ≤ start ∨ start + data.length ≤ other) :
    slice (splice bytes start data) other count = slice bytes other count := by
  have front : (bytes.take start).length = start := by
    rw [length_take]
    omega
  rcases disjoint with before | after
  · rw [splice, append_assoc, slice_append_left _ _ _ _ (by omega)]
    rw [← take_append_drop start bytes, slice_append_left _ _ _ _ (by omega),
      take_append_drop]
  · rw [splice, slice_append_right _ _ _ _ (by rw [length_append]; omega)]
    rw [slice, slice, drop_drop, length_append, front]
    congr 2
    omega

end

/-- Writing back what a region already holds changes nothing. -/
theorem splice_slice_self (inside : start + count ≤ bytes.length) :
    splice bytes start (slice bytes start count) = bytes := by
  rw [splice, slice_length inside, slice, ← drop_drop, append_assoc,
    take_append_drop, take_append_drop]

/-- The last of two writes to one region wins. -/
theorem splice_splice_self {first second : List UInt8}
    (inside : start + first.length ≤ bytes.length) (same : second.length = first.length) :
    splice (splice bytes start first) start second = splice bytes start second := by
  have front : (bytes.take start).length = start := by
    rw [length_take]
    omega
  have head : (splice bytes start first).take start = bytes.take start := by
    rw [splice, append_assoc, take_append_of_le_length (by omega),
      take_take, Nat.min_self]
  have tail : (splice bytes start first).drop (start + second.length) =
      bytes.drop (start + second.length) := by
    rw [splice, drop_append, drop_eq_nil_of_le (by
      rw [length_append]; omega), nil_append, drop_drop, length_append, front,
      same]
    congr 1
    omega
  rw [splice, head, tail, splice]

/-! ### Torn writes -/

/-- Every byte of `region` comes from one of two strings of the same length: what an
interrupted overwrite of `old` by `new` can leave behind. -/
def Mixture (old new region : List UInt8) : Prop :=
  region.length = new.length ∧ old.length = new.length ∧
    ∀ index : Nat, region[index]? = old[index]? ∨ region[index]? = new[index]?

variable {old new : List UInt8}

theorem mixture_old (same : old.length = new.length) :
    Mixture old new old := ⟨same, same, fun _ => Or.inl rfl⟩

/-- A byte on which both strings agree survives the interruption. -/
theorem Mixture.agreed {region : List UInt8} (mixture : Mixture old new region) {index : Nat}
    {byte : UInt8} (inOld : old[index]? = some byte) (inNew : new[index]? = some byte) :
    region[index]? = some byte := by
  rcases mixture.2.2 index with fromOld | fromNew
  · rw [fromOld, inOld]
  · rw [fromNew, inNew]

end Bytes
