/-
This file holds what comparison functions have in common. A function into `Ordering`
is read through keys of a linear order, with `Ordering.Compares` between the two; and
texts of decimal digits are read as numbers, whose order is not that of the texts.
-/

import Mathlib.Data.List.Lex
import Mathlib.Data.Prod.Lex
import Mathlib.Data.String.Basic
import Mathlib.Order.Compare
import Mathlib.Tactic.Linarith
import Mathlib.Tactic.Ring

namespace Axial.Comparison

open List

variable {Item Key First Second : Type}

/-! ### Comparison functions -/

/-- What a comparison function owes to be an order of its items. -/
structure TotalOrder (order : Item → Item → Ordering) : Prop where
  eq_iff : ∀ left right, order left right = .eq ↔ left = right
  swap : ∀ left right, (order left right).swap = order right left
  trans : ∀ first second third,
    order first second = .lt → order second third = .lt → order first third = .lt

theorem compares_compare [LinearOrder Key] (left right : Key) :
    (compare left right).Compares left right :=
  (compare_iff left right).mp rfl

variable {second first : Ordering}

theorem compares_then [LinearOrder First] [LinearOrder Second] {left right : First}
    {left' right' : Second} (leading : first.Compares left right)
    (following : second.Compares left' right') :
    (first.then second).Compares (toLex (left, left')) (toLex (right, right')) := by
  cases first with
  | lt | gt => exact Prod.Lex.toLex_lt_toLex.mpr (.inl leading)
  | eq =>
    cases second with
    | lt => exact Prod.Lex.toLex_lt_toLex.mpr (.inr ⟨leading, following⟩)
    | gt => exact Prod.Lex.toLex_lt_toLex.mpr (.inr ⟨leading.symm, following⟩)
    | eq => exact congrArg toLex (Prod.ext leading following)

theorem compares_cons [LinearOrder Item] {left right : Item} {lefts rights : List Item}
    (leading : first.Compares left right) (following : first = .eq → second.Compares lefts rights) :
    (first.then second).Compares (left :: lefts) (right :: rights) := by
  cases first with
  | lt | gt => exact List.Lex.rel leading
  | eq =>
    obtain rfl : left = right := leading
    have following := following rfl
    cases second with
    | lt | gt => exact List.Lex.cons following
    | eq => exact congrArg (left :: ·) following

/-- Lists are compared as they are ordered, by their first difference. -/
theorem compares_compareLex [LinearOrder Item] (lefts rights : List Item) :
    (List.compareLex compare lefts rights).Compares lefts rights := by
  induction lefts generalizing rights with
  | nil =>
    cases rights with
    | nil => exact rfl
    | cons right rights => exact List.Lex.nil
  | cons left lefts ih =>
    cases rights with
    | nil => exact List.Lex.nil
    | cons right rights =>
      rw [List.compareLex_cons_cons]
      exact compares_cons (compares_compare left right) fun _ => ih rights

/-- A comparison of keys is an order of the items, if no two items have one key. -/
theorem totalOrder_of_key [LinearOrder Key] {order : Item → Item → Ordering} {key : Item → Key}
    (injective : Function.Injective key)
    (compares : ∀ left right, (order left right).Compares (key left) (key right)) :
    TotalOrder order where
  eq_iff left right := (compares left right).eq_eq.trans injective.eq_iff
  swap left right := (Ordering.compares_swap.mpr (compares left right)).inj (compares right left)
  trans first second third before after := by
    rw [(compares _ _).eq_lt] at before after ⊢
    exact before.trans after

/-! ### Numbers in decimal -/

/-- The number that digits stand for. -/
def number (value : Char → Nat) (digits : List Char) : Nat :=
  digits.foldl (fun sum digit => 10 * sum + value digit) 0

theorem foldl_eq_number (value : Char → Nat) (digits : List Char) (sum : Nat) :
    digits.foldl (fun sum digit => 10 * sum + value digit) sum =
      sum * 10 ^ digits.length + number value digits := by
  induction digits generalizing sum with
  | nil => simp [number]
  | cons digit digits ih =>
    simp only [number, foldl_cons, length_cons]
    rw [ih, ih (10 * 0 + value digit)]
    ring

theorem number_cons (value : Char → Nat) (digit : Char) (digits : List Char) :
    number value (digit :: digits) = value digit * 10 ^ digits.length + number value digits := by
  rw [number, foldl_cons, foldl_eq_number, Nat.mul_zero, Nat.zero_add]

variable {digits : List Char} {value : Char → Nat}

theorem number_lt (decimal : ∀ digit ∈ digits, value digit < 10) :
    number value digits < 10 ^ digits.length := by
  induction digits with
  | nil => simp [number]
  | cons digit digits ih =>
    have leading : value digit < 10 := decimal digit mem_cons_self
    have following := ih fun digit member =>
      decimal digit (mem_cons_of_mem _ member)
    rw [number_cons, length_cons, pow_succ]
    nlinarith [Nat.mul_le_mul_right (10 ^ digits.length) (show value digit ≤ 9 by omega)]

/-- Digits that read alike make one number. -/
theorem number_congr {value' : Char → Nat} (same : ∀ digit ∈ digits, value digit = value' digit) :
    number value digits = number value' digits := by
  induction digits with
  | nil => rfl
  | cons digit digits ih =>
    rw [number_cons, number_cons, same digit mem_cons_self,
      ih fun digit member => same digit (mem_cons_of_mem _ member)]

/-! ### Numerals as texts -/

/-- What an ASCII digit stands for. -/
def digitValue (digit : Char) : Nat := digit.toNat - '0'.toNat

variable {digit : Char}

theorem isDigit_bounds (decimal : digit.isDigit = true) : 48 ≤ digit.toNat ∧ digit.toNat ≤ 57 := by
  simp only [Char.isDigit, ge_iff_le, Bool.and_eq_true, decide_eq_true_eq,
    UInt32.le_iff_toNat_le] at decimal
  exact decimal

theorem digitValue_lt (decimal : digit.isDigit = true) : digitValue digit < 10 := by
  have bounds := isDigit_bounds decimal
  have zero : '0'.toNat = 48 := rfl
  unfold digitValue
  omega

variable {right left : Char}

/-- Digits are in the order of what they stand for. -/
theorem compares_digitValue (leftDecimal : left.isDigit = true)
    (rightDecimal : right.isDigit = true) :
    (compare (digitValue left) (digitValue right)).Compares left right := by
  have leftBounds := isDigit_bounds leftDecimal
  have rightBounds := isDigit_bounds rightDecimal
  have zero : '0'.toNat = 48 := rfl
  have values := compares_compare (digitValue left) (digitValue right)
  cases order : compare (digitValue left) (digitValue right) <;> rw [order] at values <;>
    simp only [Ordering.compares_lt, Ordering.compares_eq, Ordering.compares_gt, digitValue]
      at values ⊢
  · exact UInt32.lt_iff_toNat_lt.mpr (show left.toNat < right.toNat by omega)
  · exact Char.toNat_inj.mp (by omega)
  · exact UInt32.lt_iff_toNat_lt.mpr (show right.toNat < left.toNat by omega)

/-- The order of two numerals as texts: by as many leading digits as the shorter one has, then by
length. -/
def numeralOrder (left right : List Char) : Ordering :=
  let width := min left.length right.length
  (compare (number digitValue (left.take width)) (number digitValue (right.take width))).then
    (compare left.length right.length)

variable {rights lefts : List Char}

theorem compare_number_cons (length : lefts.length = rights.length)
    (leftDecimal : ∀ digit ∈ lefts, digit.isDigit = true)
    (rightDecimal : ∀ digit ∈ rights, digit.isDigit = true) :
    compare (number digitValue (left :: lefts)) (number digitValue (right :: rights)) =
      (compare (digitValue left) (digitValue right)).then
        (compare (number digitValue lefts) (number digitValue rights)) := by
  have leftBound := number_lt fun digit member => digitValue_lt (leftDecimal digit member)
  have rightBound := number_lt fun digit member => digitValue_lt (rightDecimal digit member)
  rw [← length] at rightBound
  rw [number_cons, number_cons, ← length]
  generalize 10 ^ lefts.length = unit at leftBound rightBound ⊢
  rcases lt_trichotomy (digitValue left) (digitValue right) with below | same | above
  · rw [compare_lt_iff_lt.mpr below]
    exact compare_lt_iff_lt.mpr (by nlinarith)
  · rw [compare_eq_iff_eq.mpr same, same]
    simp [compare, compareOfLessAndEq]
  · rw [compare_gt_iff_gt.mpr above]
    exact compare_gt_iff_gt.mpr (by nlinarith)

theorem numeralOrder_cons (leftDecimal : ∀ digit ∈ lefts, digit.isDigit = true)
    (rightDecimal : ∀ digit ∈ rights, digit.isDigit = true) :
    numeralOrder (left :: lefts) (right :: rights) =
      (compare (digitValue left) (digitValue right)).then (numeralOrder lefts rights) := by
  have lengths : compare (left :: lefts).length (right :: rights).length =
      compare lefts.length rights.length := by
    simp [compare, compareOfLessAndEq]
  simp only [numeralOrder, lengths]
  rw [length_cons, length_cons, Nat.succ_min_succ, take_succ_cons,
    take_succ_cons, compare_number_cons (by simp), Ordering.then_assoc]
  · exact fun digit member => leftDecimal digit (mem_of_mem_take member)
  · exact fun digit member => rightDecimal digit (mem_of_mem_take member)

theorem nil_lt_numeral {rest : List Char} (ending : ∀ char ∈ rest.head?, char < '0')
    (decimal : 48 ≤ digit.toNat) : rest < digit :: digits := by
  cases rest with
  | nil => exact List.Lex.nil
  | cons char rest =>
    have below : char < '0' := ending char rfl
    have atLeast : '0' ≤ digit := UInt32.le_iff_toNat_le.mpr decimal
    exact List.Lex.rel (lt_of_lt_of_le below atLeast)

/-- Two texts that begin with different numerals, each up to the end or to a character below the
digits, are in the order of these numerals as texts. -/
theorem numeralOrder_compares {leftRest rightRest : List Char}
    (leftDecimal : ∀ digit ∈ lefts, digit.isDigit = true)
    (rightDecimal : ∀ digit ∈ rights, digit.isDigit = true)
    (leftEnd : ∀ char ∈ leftRest.head?, char < '0')
    (rightEnd : ∀ char ∈ rightRest.head?, char < '0') (different : lefts ≠ rights) :
    (numeralOrder lefts rights).Compares (lefts ++ leftRest) (rights ++ rightRest) := by
  induction lefts generalizing rights with
  | nil =>
    cases rights with
    | nil => exact absurd rfl different
    | cons right rights =>
      have digit := isDigit_bounds (rightDecimal right mem_cons_self)
      exact nil_lt_numeral leftEnd digit.1
  | cons left lefts ih =>
    have leftRest : ∀ digit ∈ lefts, digit.isDigit = true := fun digit member =>
      leftDecimal digit (mem_cons_of_mem _ member)
    cases rights with
    | nil =>
      have digit := isDigit_bounds (leftDecimal left mem_cons_self)
      exact nil_lt_numeral rightEnd digit.1
    | cons right rights =>
      have rightRest : ∀ digit ∈ rights, digit.isDigit = true := fun digit member =>
        rightDecimal digit (mem_cons_of_mem _ member)
      rw [numeralOrder_cons leftRest rightRest]
      refine compares_cons ?_ ?_
      · exact compares_digitValue (leftDecimal left mem_cons_self)
          (rightDecimal right mem_cons_self)
      · intro same
        refine ih leftRest rightRest fun equal => different ?_
        have digits := compares_digitValue (leftDecimal left mem_cons_self)
          (rightDecimal right mem_cons_self)
        rw [same] at digits
        rw [show left = right from digits, equal]

end Axial.Comparison
