/-
This file is about a list that is cut into pieces of one size, the last of which
may be shorter. The pieces in their order are the list again, also when each is
first written out by a function that is told where in the list the piece begins.
-/

import Mathlib

namespace Chunks

open List

variable {Value Written : Type}

/-- The piece with an index. -/
def chunk (size : Nat) (values : List Value) (index : Nat) : List Value :=
  (values.drop (index * size)).take size

theorem chunk_length (size : Nat) (values : List Value) (index : Nat) :
    (chunk size values index).length = min (values.length - index * size) size := by
  rw [chunk, length_take, length_drop, min_comm]

theorem take_succ_mul (size : Nat) (values : List Value) (count : Nat) :
    values.take ((count + 1) * size) = values.take (count * size) ++ chunk size values count := by
  rw [Nat.succ_mul, take_add, chunk]

/-- Writing that respects concatenation can be done piece by piece. -/
theorem flatMap_chunk (size : Nat) (write : Nat → List Value → List Written)
    (empty : ∀ start, write start [] = [])
    (append : ∀ start first second,
      write start (first ++ second) = write start first ++ write (start + first.length) second)
    (values : List Value) (count : Nat) :
    (List.range count).flatMap (fun index => write (index * size) (chunk size values index)) =
      write 0 (values.take (count * size)) := by
  induction count with
  | zero => rw [range_zero, flatMap_nil, Nat.zero_mul, take_zero, empty]
  | succ count ih =>
    rw [range_succ, flatMap_append, ih, flatMap_singleton,
      take_succ_mul, append, Nat.zero_add]
    by_cases whole : count * size ≤ values.length
    · rw [length_take, Nat.min_eq_left whole]
    · have nothing : chunk size values count = [] := by
        rw [chunk, drop_eq_nil_of_le (Nat.le_of_not_le whole), take_nil]
      rw [nothing, empty, empty]

/-- How many pieces there are. -/
theorem length_le_mul {size : Nat} (some : 0 < size) (length : Nat) :
    length ≤ (length + (size - 1)) / size * size := by
  have split := Nat.div_add_mod (length + (size - 1)) size
  have small := Nat.mod_lt (length + (size - 1)) some
  rw [Nat.mul_comm] at split
  omega

end Chunks
