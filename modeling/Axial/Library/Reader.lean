/-
This file is a small calculus of canonical byte formats. A reader consumes a
prefix of its input; it is exact for a writer when it accepts precisely the
strings that the writer produces from a valid value. Exactness is both halves
of a codec at once: what is written is read back, and whatever is read would
have been written the same way. It composes along the sequencing of readers.
-/

import Axial.Library.Bytes

namespace Reader

open Bytes List Option

/-- A computation that consumes a prefix of a byte string or fails. -/
abbrev ByteReader := StateT (List UInt8) Option

variable {Value Next : Type}

/-! ### Checks in sequence -/

theorem bind_eq_some {first : Option Value} {next : Value → Option Next} {result : Next} :
    first >>= next = some result ↔ ∃ value, first = some value ∧ next value = some result :=
  bind_eq_some_iff

theorem pure_eq_some {value result : Value} : (pure value : Option Value) = some result ↔
    value = result := some_inj

/-! ### Running a reader -/

theorem run_bind_eq_some (reader : ByteReader Value) (next : Value → ByteReader Next)
    (input : List UInt8) (result : Next × List UInt8) :
    (reader >>= next).run input = some result ↔
      ∃ value rest, reader.run input = some (value, rest) ∧
        (next value).run rest = some result := by
  rw [StateT.run_bind]
  constructor
  · intro read
    obtain ⟨⟨value, rest⟩, first, second⟩ := bind_eq_some_iff.mp read
    exact ⟨value, rest, first, second⟩
  · rintro ⟨value, rest, first, second⟩
    exact bind_eq_some_iff.mpr ⟨(value, rest), first, second⟩

theorem run_pure_eq_some (value : Value) (input : List UInt8) (result : Value × List UInt8) :
    (pure value : ByteReader Value).run input = some result ↔ (value, input) = result := by
  rw [StateT.run_pure]
  exact some_inj

/-! ### Primitive readers -/

/-- Read the next `count` bytes. -/
def take (count : Nat) : ByteReader (List UInt8) := fun input =>
  if count ≤ input.length then some (input.take count, input.drop count) else none

/-- Read a fixed-length array. -/
def array (count : Nat) : ByteReader (Fixed count) := do
  let bytes ← take count
  match Fixed.ofList? count bytes with
  | some value => pure value
  | none => failure

/-- Read one byte. -/
def byte : ByteReader UInt8 := fun input =>
  match input with
  | [] => none
  | first :: rest => some (first, rest)

/-- Read a little-endian number of `width` bytes. -/
def number (width : Nat) : ByteReader Nat := do
  let bytes ← take width
  pure (fromLittleEndian bytes)

/-- Fail unless the condition holds. -/
def require (condition : Prop) [Decidable condition] : ByteReader Unit := fun input =>
  if condition then some ((), input) else none

/-- Return the value of a lookup that may fail. -/
def lift (value : Option Value) : ByteReader Value := fun input =>
  value.map fun found => (found, input)

/-- Read a little-endian 16-bit number. -/
def uint16 : ByteReader UInt16 := do
  let value ← number 2
  pure (UInt16.ofNat value)

/-- Read a little-endian 32-bit number. -/
def uint32 : ByteReader UInt32 := do
  let value ← number 4
  pure (UInt32.ofNat value)

/-- Read a little-endian 64-bit number. -/
def uint64 : ByteReader UInt64 := do
  let value ← number 8
  pure (UInt64.ofNat value)

/-- Skip `count` bytes, all of which have to be zero. -/
def zeros (count : Nat) : ByteReader Unit := do
  let bytes ← take count
  require (∀ byte ∈ bytes, byte = 0)

/-- How many bytes are left. -/
def left : ByteReader Nat := fun input => some (input.length, input)

/-- Read everything that is left. -/
def remainder : ByteReader (List UInt8) := fun input => some (input, [])

/-- Read `count` values in a row. -/
def many (reader : ByteReader Value) : Nat → ByteReader (List Value)
  | 0 => pure []
  | count + 1 => do
    let first ← reader
    let rest ← many reader count
    pure (first :: rest)

/-- Read a value if it is announced. -/
def announced (present : Prop) [Decidable present] (reader : ByteReader Value) :
    ByteReader (Option Value) :=
  if present then do
    let value ← reader
    pure (some value)
  else
    pure none

/-- Run a reader that has to consume its whole input. -/
def decode (reader : ByteReader Value) (input : List UInt8) : Option Value :=
  match reader.run input with
  | some (value, []) => some value
  | _ => none

section

variable (input rest : List UInt8)

theorem run_take_eq_some (count : Nat) (value : List UInt8) :
    (take count).run input = some (value, rest) ↔
      value.length = count ∧ input = value ++ rest := by
  show (if count ≤ input.length then some (input.take count, input.drop count) else none) = _ ↔ _
  constructor
  · intro read
    split at read
    · rename_i enough
      obtain ⟨rfl, rfl⟩ := Prod.mk.inj (some_inj.mp read)
      exact ⟨by rw [length_take]; omega, (take_append_drop count input).symm⟩
    · cases read
  · rintro ⟨rfl, rfl⟩
    rw [if_pos (by rw [length_append]; omega), take_left, drop_left]

theorem run_array_eq_some (count : Nat) (value : Fixed count) :
    (array count).run input = some (value, rest) ↔ input = value.val ++ rest := by
  unfold array
  rw [run_bind_eq_some]
  constructor
  · rintro ⟨bytes, after, read, made⟩
    obtain ⟨length, rfl⟩ := (run_take_eq_some _ _ _ _).mp read
    cases array : Fixed.ofList? count bytes with
    | none => rw [array] at made; cases made
    | some found =>
      rw [array] at made
      obtain ⟨rfl, rfl⟩ := Prod.mk.inj ((run_pure_eq_some _ _ _).mp made)
      rw [(Fixed.ofList?_eq_some _ _).mp array]
  · rintro rfl
    refine ⟨value.val, rest, (run_take_eq_some _ _ _ _).mpr ⟨value.property, rfl⟩, ?_⟩
    rw [(Fixed.ofList?_eq_some value.val value).mpr rfl]
    rfl

theorem run_byte_eq_some (value : UInt8) :
    byte.run input = some (value, rest) ↔ input = value :: rest := by
  cases input with
  | nil =>
    show none = some (value, rest) ↔ _
    simp only [reduceCtorEq]
  | cons first tail =>
    show some (first, tail) = some (value, rest) ↔ _
    simp only [some_inj, Prod.mk.injEq, List.cons.injEq]

theorem run_number_eq_some (width : Nat) (value : Nat) :
    (number width).run input = some (value, rest) ↔
      value < 256 ^ width ∧ input = littleEndian width value ++ rest := by
  unfold number
  rw [run_bind_eq_some]
  constructor
  · rintro ⟨bytes, after, read, made⟩
    obtain ⟨rfl, rfl⟩ := (run_take_eq_some _ _ _ _).mp read
    obtain ⟨rfl, rfl⟩ := Prod.mk.inj ((run_pure_eq_some _ _ _).mp made)
    exact ⟨fromLittleEndian_lt bytes, by rw [littleEndian_fromLittleEndian]⟩
  · rintro ⟨small, rfl⟩
    refine ⟨littleEndian width value, rest,
      (run_take_eq_some _ _ _ _).mpr ⟨littleEndian_length _ _, rfl⟩, ?_⟩
    rw [fromLittleEndian_littleEndian width value small]
    rfl

theorem run_require_eq_some (condition : Prop) [Decidable condition]
    (result : Unit × List UInt8) :
    (require condition).run input = some result ↔ condition ∧ ((), input) = result := by
  show (if condition then some ((), input) else none) = some result ↔ _
  split
  · rename_i holds
    simp only [some_inj, holds, true_and]
  · rename_i fails
    simp only [reduceCtorEq, fails, false_and]

theorem run_lift_eq_some (value : Option Value) (result : Value × List UInt8) :
    (lift value).run input = some result ↔ ∃ found, value = some found ∧ (found, input) = result := by
  show value.map _ = some result ↔ _
  exact map_eq_some_iff

theorem run_uint16_eq_some (value : UInt16) :
    uint16.run input = some (value, rest) ↔ input = littleEndian 2 value.toNat ++ rest := by
  unfold uint16
  simp only [run_bind_eq_some, run_number_eq_some, run_pure_eq_some, Prod.mk.injEq]
  constructor
  · rintro ⟨number, after, ⟨small, rfl⟩, rfl, rfl⟩
    rw [UInt16.toNat_ofNat', Nat.mod_eq_of_lt (by omega)]
  · rintro rfl
    exact ⟨value.toNat, rest, ⟨value.toNat_lt, rfl⟩, UInt16.ofNat_toNat, rfl⟩

theorem run_uint32_eq_some (value : UInt32) :
    uint32.run input = some (value, rest) ↔ input = littleEndian 4 value.toNat ++ rest := by
  unfold uint32
  simp only [run_bind_eq_some, run_number_eq_some, run_pure_eq_some, Prod.mk.injEq]
  constructor
  · rintro ⟨number, after, ⟨small, rfl⟩, rfl, rfl⟩
    rw [UInt32.toNat_ofNat', Nat.mod_eq_of_lt (by omega)]
  · rintro rfl
    exact ⟨value.toNat, rest, ⟨value.toNat_lt, rfl⟩, UInt32.ofNat_toNat, rfl⟩

theorem run_uint64_eq_some (value : UInt64) :
    uint64.run input = some (value, rest) ↔ input = littleEndian 8 value.toNat ++ rest := by
  unfold uint64
  simp only [run_bind_eq_some, run_number_eq_some, run_pure_eq_some, Prod.mk.injEq]
  constructor
  · rintro ⟨number, after, ⟨small, rfl⟩, rfl, rfl⟩
    rw [UInt64.toNat_ofNat', Nat.mod_eq_of_lt (by omega)]
  · rintro rfl
    exact ⟨value.toNat, rest, ⟨value.toNat_lt, rfl⟩, UInt64.ofNat_toNat, rfl⟩

theorem run_zeros_eq_some (count : Nat) (value : Unit) :
    (zeros count).run input = some (value, rest) ↔ input = List.replicate count 0 ++ rest := by
  unfold zeros
  simp only [run_bind_eq_some, run_take_eq_some, run_require_eq_some, Prod.mk.injEq]
  constructor
  · rintro ⟨bytes, after, ⟨length, rfl⟩, allZero, _, rfl⟩
    rw [eq_replicate_of_mem allZero, length]
  · rintro rfl
    exact ⟨List.replicate count 0, rest, ⟨length_replicate, rfl⟩,
      fun byte member => eq_of_mem_replicate member, trivial, rfl⟩

theorem run_left_eq_some (result : Nat × List UInt8) :
    left.run input = some result ↔ (input.length, input) = result := some_inj

theorem run_remainder_eq_some (value : List UInt8) :
    remainder.run input = some (value, rest) ↔ rest = [] ∧ input = value := by
  show some (input, []) = some (value, rest) ↔ _
  simp only [some_inj, Prod.mk.injEq]
  constructor
  · rintro ⟨rfl, rfl⟩
    exact ⟨rfl, rfl⟩
  · rintro ⟨rfl, rfl⟩
    exact ⟨rfl, rfl⟩

/-! ### Sequencing

What a reader that starts with a primitive accepts: one existential for the value and one for
the input left over, so that a whole format unfolds field by field. -/

variable (result : Next × List UInt8)

theorem take_bind (count : Nat) (next : List UInt8 → ByteReader Next) :
    (take count >>= next).run input = some result ↔
      ∃ value rest, value.length = count ∧ input = value ++ rest ∧
        (next value).run rest = some result := by
  simp only [run_bind_eq_some, run_take_eq_some, and_assoc]

theorem array_bind (count : Nat) (next : Fixed count → ByteReader Next) :
    (array count >>= next).run input = some result ↔
      ∃ value rest, input = value.val ++ rest ∧ (next value).run rest = some result := by
  simp only [run_bind_eq_some, run_array_eq_some]

theorem byte_bind (next : UInt8 → ByteReader Next) :
    (byte >>= next).run input = some result ↔
      ∃ value rest, input = value :: rest ∧ (next value).run rest = some result := by
  simp only [run_bind_eq_some, run_byte_eq_some]

theorem number_bind (width : Nat) (next : Nat → ByteReader Next) :
    (number width >>= next).run input = some result ↔
      ∃ value rest, value < 256 ^ width ∧ input = littleEndian width value ++ rest ∧
        (next value).run rest = some result := by
  simp only [run_bind_eq_some, run_number_eq_some, and_assoc]

theorem uint16_bind (next : UInt16 → ByteReader Next) :
    (uint16 >>= next).run input = some result ↔
      ∃ value rest, input = littleEndian 2 value.toNat ++ rest ∧
        (next value).run rest = some result := by
  simp only [run_bind_eq_some, run_uint16_eq_some]

theorem uint32_bind (next : UInt32 → ByteReader Next) :
    (uint32 >>= next).run input = some result ↔
      ∃ value rest, input = littleEndian 4 value.toNat ++ rest ∧
        (next value).run rest = some result := by
  simp only [run_bind_eq_some, run_uint32_eq_some]

theorem uint64_bind (next : UInt64 → ByteReader Next) :
    (uint64 >>= next).run input = some result ↔
      ∃ value rest, input = littleEndian 8 value.toNat ++ rest ∧
        (next value).run rest = some result := by
  simp only [run_bind_eq_some, run_uint64_eq_some]

theorem zeros_bind (count : Nat) (next : Unit → ByteReader Next) :
    (zeros count >>= next).run input = some result ↔
      ∃ rest, input = List.replicate count 0 ++ rest ∧ (next ()).run rest = some result := by
  simp only [run_bind_eq_some, run_zeros_eq_some]
  exact ⟨fun ⟨_, rest, read, later⟩ => ⟨rest, read, later⟩,
    fun ⟨rest, read, later⟩ => ⟨(), rest, read, later⟩⟩

theorem require_bind (condition : Prop) [Decidable condition] (next : Unit → ByteReader Next) :
    (require condition >>= next).run input = some result ↔
      condition ∧ (next ()).run input = some result := by
  simp only [run_bind_eq_some, run_require_eq_some, Prod.mk.injEq]
  constructor
  · rintro ⟨_, _, ⟨holds, _, rfl⟩, later⟩
    exact ⟨holds, later⟩
  · rintro ⟨holds, later⟩
    exact ⟨(), input, ⟨holds, trivial, rfl⟩, later⟩

theorem lift_bind (value : Option Value) (next : Value → ByteReader Next) :
    (lift value >>= next).run input = some result ↔
      ∃ found, value = some found ∧ (next found).run input = some result := by
  simp only [run_bind_eq_some, run_lift_eq_some, Prod.mk.injEq]
  constructor
  · rintro ⟨_, _, ⟨found, equal, rfl, rfl⟩, later⟩
    exact ⟨found, equal, later⟩
  · rintro ⟨found, equal, later⟩
    exact ⟨found, input, ⟨found, equal, rfl, rfl⟩, later⟩

theorem left_bind (next : Nat → ByteReader Next) :
    (left >>= next).run input = some result ↔ (next input.length).run input = some result := by
  simp only [run_bind_eq_some, run_left_eq_some, Prod.mk.injEq]
  constructor
  · rintro ⟨_, _, ⟨rfl, rfl⟩, later⟩
    exact later
  · intro later
    exact ⟨_, _, ⟨rfl, rfl⟩, later⟩

theorem remainder_bind (next : List UInt8 → ByteReader Next) :
    (remainder >>= next).run input = some result ↔ (next input).run [] = some result := by
  simp only [run_bind_eq_some, run_remainder_eq_some]
  constructor
  · rintro ⟨_, _, ⟨rfl, rfl⟩, later⟩
    exact later
  · intro later
    exact ⟨input, [], ⟨rfl, rfl⟩, later⟩

end

/-! ### Exact readers -/

/-- The reader accepts exactly the strings that begin with what the writer makes of a valid
value, and returns that value. -/
def Exact (reader : ByteReader Value) (write : Value → List UInt8) (valid : Value → Prop) : Prop :=
  ∀ input value rest, reader.run input = some (value, rest) ↔
    valid value ∧ input = write value ++ rest

variable {write : Value → List UInt8} {reader : ByteReader Value} {valid : Value → Prop}

theorem Exact.many (exact : Exact reader write valid) (count : Nat) :
    Exact (many reader count) (fun values => values.flatMap write)
      (fun values => values.length = count ∧ ∀ value ∈ values, valid value) := by
  induction count with
  | zero =>
    intro input values rest
    show (pure [] : ByteReader (List Value)).run input = _ ↔ _
    rw [run_pure_eq_some]
    constructor
    · intro equal
      obtain ⟨rfl, rfl⟩ := Prod.mk.inj equal
      exact ⟨⟨rfl, by simp⟩, rfl⟩
    · rintro ⟨⟨empty, _⟩, rfl⟩
      rw [length_eq_zero_iff.mp empty]
      rfl
  | succ count ih =>
    intro input values rest
    rw [Reader.many, run_bind_eq_some]
    simp only [run_bind_eq_some, run_pure_eq_some, Prod.mk.injEq]
    constructor
    · rintro ⟨first, after, readFirst, others, last, readOthers, rfl, rfl⟩
      obtain ⟨firstValid, rfl⟩ := (exact _ _ _).mp readFirst
      obtain ⟨⟨length, othersValid⟩, rfl⟩ := (ih _ _ _).mp readOthers
      refine ⟨⟨by rw [length_cons, length], ?_⟩, ?_⟩
      · intro value member
        rcases mem_cons.mp member with rfl | later
        · exact firstValid
        · exact othersValid value later
      · rw [flatMap_cons, append_assoc]
    · rintro ⟨⟨length, allValid⟩, rfl⟩
      cases values with
      | nil => cases length
      | cons first others =>
        refine ⟨first, others.flatMap write ++ rest, ?_, others, rest, ?_, rfl, rfl⟩
        · exact (exact _ _ _).mpr
            ⟨allValid first mem_cons_self, by rw [flatMap_cons, append_assoc]⟩
        · refine (ih _ _ _).mpr ⟨⟨by simpa using length, ?_⟩, rfl⟩
          exact fun value member => allValid value (mem_cons_of_mem _ member)

/-- An announced value is written when it is there. -/
theorem Exact.announced (exact : Exact reader write valid) (present : Prop) [Decidable present] :
    Exact (announced present reader) (fun value => value.toList.flatMap write)
      (fun value => (value.isSome = true ↔ present) ∧ ∀ found ∈ value, valid found) := by
  intro input value rest
  unfold Reader.announced
  split
  · rename_i holds
    rw [run_bind_eq_some]
    simp only [run_pure_eq_some, Prod.mk.injEq, holds, iff_true]
    constructor
    · rintro ⟨found, after, read, rfl, rfl⟩
      obtain ⟨foundValid, rfl⟩ := (exact _ _ _).mp read
      refine ⟨⟨rfl, fun other same => ?_⟩, ?_⟩
      · rw [← some_inj.mp same]
        exact foundValid
      · rw [toList_some, flatMap_cons, flatMap_nil, List.append_nil]
    · rintro ⟨⟨isSome, valid⟩, rfl⟩
      obtain ⟨found, rfl⟩ := isSome_iff_exists.mp isSome
      refine ⟨found, rest, (exact _ _ _).mpr ⟨valid found rfl, ?_⟩, rfl, rfl⟩
      rw [toList_some, flatMap_cons, flatMap_nil, List.append_nil]
  · rename_i fails
    simp only [run_pure_eq_some, Prod.mk.injEq, fails, iff_false, Bool.not_eq_true,
      isSome_eq_false_iff, isNone_iff_eq_none]
    constructor
    · rintro ⟨rfl, rfl⟩
      exact ⟨⟨rfl, fun _ absent => by cases absent⟩, rfl⟩
    · rintro ⟨⟨rfl, _⟩, rfl⟩
      exact ⟨rfl, rfl⟩

theorem decode_eq_some (reader : ByteReader Value) (input : List UInt8) (value : Value) :
    decode reader input = some value ↔ reader.run input = some (value, []) := by
  unfold decode
  split
  · rename_i found equal
    rw [equal, some_inj, some_inj, Prod.mk.injEq]
    exact ⟨fun same => ⟨same, rfl⟩, fun same => same.1⟩
  · rename_i rejected
    simp only [reduceCtorEq, false_iff]
    exact rejected value

/-- An exact reader in front of the rest of a format. -/
theorem Exact.bind (exact : Exact reader write valid) (next : Value → ByteReader Next)
    (input : List UInt8) (result : Next × List UInt8) :
    (reader >>= next).run input = some result ↔
      ∃ value rest, valid value ∧ input = write value ++ rest ∧
        (next value).run rest = some result := by
  simp only [run_bind_eq_some, exact _ _ _, and_assoc]

/-- A whole-input decoder built from an exact reader is the inverse of the writer. -/
theorem Exact.decode_eq_some (exact : Exact reader write valid) (input : List UInt8) (value : Value)
    : decode reader input = some value ↔ valid value ∧ input = write value := by
  rw [Reader.decode_eq_some, exact, List.append_nil]

end Reader
