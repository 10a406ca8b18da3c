/-
This file is about values that are written one after another into a string of bytes.
Where each can be split off the front of what follows it, the whole string tells all of
them apart; a length written ahead of a value, and a count ahead of a list, see to that.
-/

import Axial.Library.Bytes

namespace Framing

open Bytes List

variable {Value Byte : Type}

/-- Of the values that may be written, each is told apart at the front of a longer string. -/
def SplitsOff (valid : Value → Prop) (write : Value → List Byte) : Prop :=
  ∀ first second rest rest', valid first → valid second →
    write first ++ rest = write second ++ rest' → first = second ∧ rest = rest'

variable {write : Value → List Byte} {valid : Value → Prop}

theorem SplitsOff.injective (splits : SplitsOff valid write) {first second : Value}
    (firstValid : valid first) (secondValid : valid second) (same : write first = write second) :
    first = second :=
  (splits first second [] [] firstValid secondValid (by rw [same])).1

/-- What is always of one length can be split off. -/
theorem splitsOff_of_length (length : Nat) (fixed : ∀ value, (write value).length = length)
    (injective : ∀ first second, valid first → valid second → write first = write second →
      first = second) : SplitsOff valid write := by
  intro first second rest rest' firstValid secondValid same
  have parts := append_inj same (by rw [fixed, fixed])
  exact ⟨injective first second firstValid secondValid parts.1, parts.2⟩

variable {seconds firsts : List Value}

/-- Lists of one length are told apart by what is written of their values. -/
theorem SplitsOff.flatMap (splits : SplitsOff valid write) {rest rest' : List Byte}
    (length : firsts.length = seconds.length) (firstsValid : ∀ value ∈ firsts, valid value)
    (secondsValid : ∀ value ∈ seconds, valid value)
    (same : firsts.flatMap write ++ rest = seconds.flatMap write ++ rest') :
    firsts = seconds ∧ rest = rest' := by
  induction firsts generalizing seconds with
  | nil =>
    rw [length_nil] at length
    rw [length_eq_zero_iff.mp length.symm] at same ⊢
    exact ⟨rfl, same⟩
  | cons first firsts ih =>
    cases seconds with
    | nil => cases length
    | cons second seconds =>
      rw [flatMap_cons, flatMap_cons, append_assoc, append_assoc] at same
      obtain ⟨heads, tails⟩ := splits first second _ _ (firstsValid first mem_cons_self)
        (secondsValid second mem_cons_self) same
      obtain ⟨values, rests⟩ := ih (Nat.succ.inj length)
        (fun value member => firstsValid value (mem_cons_of_mem _ member))
        (fun value member => secondsValid value (mem_cons_of_mem _ member)) tails
      rw [heads, values]
      exact ⟨rfl, rests⟩

theorem SplitsOff.flatMap_injective (splits : SplitsOff valid write)
    (length : firsts.length = seconds.length) (firstsValid : ∀ value ∈ firsts, valid value)
    (secondsValid : ∀ value ∈ seconds, valid value)
    (same : firsts.flatMap write = seconds.flatMap write) : firsts = seconds := by
  have together : firsts.flatMap write ++ [] = seconds.flatMap write ++ [] := by rw [same]
  exact (splits.flatMap length firstsValid secondsValid together).1

/-- Where nothing is written as the empty string, lists are told apart without their lengths. -/
theorem SplitsOff.flatMap_injective_of_ne_nil (splits : SplitsOff valid write)
    (nonempty : ∀ value, write value ≠ []) (firstsValid : ∀ value ∈ firsts, valid value)
    (secondsValid : ∀ value ∈ seconds, valid value)
    (same : firsts.flatMap write = seconds.flatMap write) : firsts = seconds := by
  induction firsts generalizing seconds with
  | nil =>
    cases seconds with
    | nil => rfl
    | cons second seconds =>
      rw [flatMap_nil, flatMap_cons] at same
      exact absurd (append_eq_nil_iff.mp same.symm).1 (nonempty second)
  | cons first firsts ih =>
    cases seconds with
    | nil =>
      rw [flatMap_nil, flatMap_cons] at same
      exact absurd (append_eq_nil_iff.mp same).1 (nonempty first)
    | cons second seconds =>
      rw [flatMap_cons, flatMap_cons] at same
      obtain ⟨heads, tails⟩ := splits first second _ _ (firstsValid first mem_cons_self)
        (secondsValid second mem_cons_self) same
      rw [heads, ih
        (fun value member => firstsValid value (mem_cons_of_mem _ member))
        (fun value member => secondsValid value (mem_cons_of_mem _ member)) tails]

/-! ### Numbers -/

theorem bigEndian_length (width value : Nat) : (bigEndian width value).length = width := by
  rw [bigEndian, length_reverse, littleEndian_length]

theorem splitsOff_bigEndian (width : Nat) :
    SplitsOff (fun value => value < 256 ^ width) (bigEndian width) := by
  refine splitsOff_of_length width (bigEndian_length width) ?_
  intro first second firstSmall secondSmall same
  rw [← fromLittleEndian_littleEndian width first firstSmall,
    ← fromLittleEndian_littleEndian width second secondSmall, reverse_injective same]

/-! ### Lengths ahead -/

/-- A string with its length ahead of it. -/
def counted (width : Nat) (bytes : List UInt8) : List UInt8 :=
  bigEndian width bytes.length ++ bytes

theorem splitsOff_counted (width : Nat) :
    SplitsOff (fun bytes : List UInt8 => bytes.length < 256 ^ width) (counted width) := by
  intro first second rest rest' firstSmall secondSmall same
  rw [counted, counted, append_assoc, append_assoc] at same
  obtain ⟨length, same⟩ := splitsOff_bigEndian width _ _ _ _ firstSmall secondSmall same
  exact append_inj same length

theorem counted_ne_nil {width : Nat} (positive : 0 < width) (bytes : List UInt8) :
    counted width bytes ≠ [] := by
  intro empty
  have length := congrArg List.length empty
  rw [counted, length_append, bigEndian_length, length_nil] at length
  omega

end Framing
