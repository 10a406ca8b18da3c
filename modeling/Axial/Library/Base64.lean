/-
This file is about the unpadded Base64 spelling of a string of bytes, with the
alphabet that is safe in names. A spelling is a list of six-bit digits, each with
its symbol; where two spellings are compared without regard to case, the digits
below 26 and those below 52 are the same letters.
-/

import Mathlib

namespace Base64

open List Option

/-! ### Digits -/

abbrev Digit := Fin 64

/-- The six low bits of a number. -/
def digit (value : Nat) : Digit := Fin.ofNat 64 value

theorem val_digit (value : Nat) : (digit value).val = value % 64 := rfl

/-- The six-bit digits of a string of bytes, the last one filled up with zeros. -/
def digits : List UInt8 → List Digit
  | first :: second :: third :: rest =>
    digit (first.toNat / 4) :: digit (first.toNat * 16 + second.toNat / 16) ::
      digit (second.toNat * 4 + third.toNat / 64) :: digit third.toNat :: digits rest
  | [first, second] =>
    [digit (first.toNat / 4), digit (first.toNat * 16 + second.toNat / 16),
      digit (second.toNat * 4)]
  | [first] => [digit (first.toNat / 4), digit (first.toNat * 16)]
  | [] => []

/-- Whole triples of bytes are spelled by themselves. -/
theorem digits_append (front back : List UInt8) (aligned : 3 ∣ front.length) :
    digits (front ++ back) = digits front ++ digits back := by
  induction front using digits.induct with
  | case1 first second third rest ih =>
    have shorter : 3 ∣ rest.length := by
      simp only [length_cons] at aligned
      omega
    simp only [cons_append, digits, ih shorter]
  | case2 | case3 =>
    simp only [length_cons, length_nil] at aligned
    omega
  | case4 => rfl

/-! ### Symbols -/

def alphabet : List Char :=
  "ABCDEFGHIJKLMNOPQRSTUVWXYZabcdefghijklmnopqrstuvwxyz0123456789-_".toList

def symbol (digit : Digit) : Char := alphabet.getD digit.val '_'

/-- `URL_SAFE_NO_PAD.encode`. -/
def encode (bytes : List UInt8) : String := String.ofList ((digits bytes).map symbol)

/-- Letters, digits, and the two signs of the alphabet. -/
def plain (char : Char) : Bool := char.isAlphanum || char = '-' || char = '_'

theorem plain_symbol : ∀ digit : Digit, plain (symbol digit) = true := by
  decide +kernel

/-! ### Decoding -/

def value (char : Char) : Option Digit :=
  if inside : alphabet.idxOf char < 64 then some ⟨alphabet.idxOf char, inside⟩ else none

/-- The bytes of a spelling; the digits that fill it up have to be zeros. -/
def bytes : List Digit → Option (List UInt8)
  | first :: second :: third :: fourth :: rest =>
    (bytes rest).map fun rest =>
      UInt8.ofNat (first.val * 4 + second.val / 16) ::
        UInt8.ofNat (second.val * 16 + third.val / 4) ::
        UInt8.ofNat (third.val * 64 + fourth.val) :: rest
  | [first, second, third] =>
    if third.val % 4 = 0 then
      some [UInt8.ofNat (first.val * 4 + second.val / 16),
        UInt8.ofNat (second.val * 16 + third.val / 4)]
    else none
  | [first, second] =>
    if second.val % 16 = 0 then some [UInt8.ofNat (first.val * 4 + second.val / 16)] else none
  | [_] => none
  | [] => some []

/-- `URL_SAFE_NO_PAD.decode`. -/
def decode (spelling : String) : Option (List UInt8) := spelling.toList.mapM value >>= bytes

theorem value_symbol : ∀ digit : Digit, value (symbol digit) = some digit := by
  decide +kernel

theorem ofNat_eq (byte : UInt8) {number : Nat} (same : number % 256 = byte.toNat) :
    UInt8.ofNat number = byte :=
  UInt8.toNat_inj.mp ((UInt8.toNat_ofNat' ..).trans same)

/-- The digits of a string of bytes are read back. -/
theorem bytes_digits (spelt : List UInt8) : bytes (digits spelt) = some spelt := by
  induction spelt using digits.induct with
  | case1 first second third rest ih =>
    have one := first.toNat_lt
    have two := second.toNat_lt
    have three := third.toNat_lt
    rw [digits, bytes, ih, map_some, some_inj]
    simp only [val_digit]
    rw [ofNat_eq first (by omega), ofNat_eq second (by omega),
      ofNat_eq third (by omega)]
  | case2 first second =>
    have one := first.toNat_lt
    have two := second.toNat_lt
    rw [digits, bytes, if_pos (by rw [val_digit]; omega)]
    simp only [val_digit]
    rw [ofNat_eq first (by omega),
      ofNat_eq second (by omega)]
  | case3 first =>
    have one := first.toNat_lt
    rw [digits, bytes, if_pos (by rw [val_digit]; omega)]
    simp only [val_digit]
    rw [ofNat_eq first (by omega)]
  | case4 => rfl

/-- What is encoded decodes to itself. -/
theorem decode_encode (spelt : List UInt8) : decode (encode spelt) = some spelt := by
  have symbols : ((digits spelt).map symbol).mapM value = some (digits spelt) := by
    rw [mapM_map]
    induction digits spelt with
    | nil => rfl
    | cons digit digits ih =>
      rw [mapM_cons, ih, Function.comp_apply, value_symbol]
      rfl
  unfold decode encode
  rw [String.toList_ofList, symbols, bind_eq_bind, bind_some, bytes_digits]

/-! ### Letters without their case -/

/-- Two digits with the same symbol, or with the two cases of one letter. -/
def SameLetter (first second : Digit) : Prop :=
  first = second ∨ first.val < 26 ∧ second.val = first.val + 26 ∨
    second.val < 26 ∧ first.val = second.val + 26

instance (first second : Digit) : Decidable (SameLetter first second) :=
  inferInstanceAs (Decidable (_ ∨ _))

/-- The digit of the same letter in lower case. -/
def lower (digit : Digit) : Digit := if digit.val < 26 then digit + 26 else digit

theorem toLower_symbol_eq : ∀ digit : Digit, (symbol digit).toLower = symbol (lower digit) := by
  decide +kernel

theorem toLower_symbol (first second : Digit) :
    (symbol first).toLower = (symbol second).toLower ↔ SameLetter first second := by
  have apart : symbol (lower first) = symbol (lower second) ↔ lower first = lower second :=
    ⟨fun same => Option.some.inj (by rw [← value_symbol, same, value_symbol]),
      fun same => by rw [same]⟩
  rw [toLower_symbol_eq, toLower_symbol_eq, apart]
  have value (digit : Digit) :
      (lower digit).val = if digit.val < 26 then digit.val + 26 else digit.val := by
    unfold lower
    split
    · rw [Fin.val_add, Nat.mod_eq_of_lt (by change digit.val + 26 < 64; omega)]
      rfl
    · rfl
  rw [Fin.ext_iff, value, value]
  unfold SameLetter
  rw [Fin.ext_iff]
  split <;> split <;> omega

/-- Two spellings are the same in lower case if they are letter for letter. -/
theorem map_toLower_symbol (first second : List Digit) :
    first.map (fun digit => (symbol digit).toLower) =
        second.map (fun digit => (symbol digit).toLower) ↔
      List.Forall₂ SameLetter first second := by
  rw [← List.forall₂_eq_eq_eq, List.forall₂_map_left_iff, List.forall₂_map_right_iff]
  simp only [toLower_symbol]

end Base64
