/-
This file is the theory of a slot that is kept on two sides and written in
turns. Frames carry a generation; each new frame goes to the side its
generation has for home, so the frame in force is never the one being
overwritten. Reading the slot back compares what the two sides are found to
hold. The results say what one write, whole or torn, does to that comparison.
-/

import Mathlib

namespace DoubleSlot

open Function Option

variable {Frame : Type}

/-! ### Sides -/

/-- The side a generation is written to. -/
def home (generation : Nat) : Fin 2 := if generation % 2 = 0 then 1 else 0

/-- The opposite side. -/
def other (side : Fin 2) : Fin 2 := if side = 0 then 1 else 0

@[simp] theorem other_other (side : Fin 2) : other (other side) = side := by
  revert side
  decide

theorem other_ne (side : Fin 2) : other side ≠ side := by
  revert side
  decide

theorem eq_other_of_ne {first second : Fin 2} (different : first ≠ second) :
    first = other second := by
  revert first second
  decide

theorem home_succ (generation : Nat) : home (generation + 1) = other (home generation) := by
  unfold home
  rcases Nat.mod_two_eq_zero_or_one generation with even | odd
  · rw [if_pos even, if_neg (by omega)]
    rfl
  · rw [if_neg (by omega : ¬ generation % 2 = 0), if_pos (by omega)]
    rfl

/-! ### Selection -/

/-- What one side of a slot is found to hold. -/
inductive Probe (Frame : Type) where
  | empty
  | torn
  | valid (frame : Frame)
  deriving DecidableEq

/-- The rules of one kind of slot: how frames are counted, which frame may be the only one ever
written, and which frame may replace which. -/
structure Discipline (Frame : Type) where
  generation : Frame → Nat
  first : Frame → Bool
  follows : Frame → Frame → Bool
  follows_generation : ∀ {previous next}, follows previous next = true →
    generation next = generation previous + 1
  first_generation : ∀ {frame}, first frame = true → generation frame = 1

/-- The frame in force on a pair of sides; the outer option is failure. -/
def select (discipline : Discipline Frame) : Probe Frame → Probe Frame → Option (Option Frame)
  | .empty, .empty => some none
  | .valid frame, .torn => some (some frame)
  | .torn, .valid frame => some (some frame)
  | .valid frame, .empty => if discipline.first frame then some (some frame) else none
  | .empty, .valid frame => if discipline.first frame then some (some frame) else none
  | .valid first, .valid second =>
    if discipline.generation first < discipline.generation second then
      if discipline.follows first second then some (some second) else none
    else if discipline.generation second < discipline.generation first then
      if discipline.follows second first then some (some first) else none
    else
      none
  | .torn, .torn => none
  | .torn, .empty => none
  | .empty, .torn => none

section

variable (discipline : Discipline Frame)

include discipline

theorem select_comm (first second : Probe Frame) :
    select discipline first second = select discipline second first := by
  cases first <;> cases second <;> try rfl
  rename_i left right
  simp only [select]
  rcases Nat.lt_trichotomy (discipline.generation left) (discipline.generation right) with
    less | equal | greater
  · simp only [if_pos less, if_neg (Nat.lt_asymm less)]
  · simp only [equal, lt_self_iff_false, if_false]
  · simp only [if_pos greater, if_neg (Nat.lt_asymm greater)]

/-- The frame in force on a slot. -/
def current (discipline : Discipline Frame) (sides : Fin 2 → Probe Frame) :
    Option (Option Frame) :=
  select discipline (sides 0) (sides 1)

/-- Selection does not care which side is named first. -/
theorem current_eq (sides : Fin 2 → Probe Frame) (side : Fin 2) :
    current discipline sides = select discipline (sides side) (sides (other side)) := by
  rcases Fin.exists_fin_two.mp ⟨side, rfl⟩ with rfl | rfl
  · rfl
  · exact select_comm _ _ _

theorem current_eq_blank (sides : Fin 2 → Probe Frame) :
    current discipline sides = some none ↔ ∀ side, sides side = .empty := by
  rw [Fin.forall_fin_two, current]
  cases first : sides 0 <;> cases second : sides 1 <;> simp [select]
  all_goals split <;> simp

/-- What the other side may hold next to the frame in force. -/
def Beside (discipline : Discipline Frame) (frame : Frame) : Probe Frame → Prop
  | .torn => True
  | .empty => discipline.first frame = true
  | .valid previous => discipline.follows previous frame = true

/-- A slot has a frame in force exactly when some side holds it and the other side holds
nothing that contradicts it. -/
theorem current_eq_some (sides : Fin 2 → Probe Frame) (frame : Frame) :
    current discipline sides = some (some frame) ↔
      ∃ side, sides side = .valid frame ∧ Beside discipline frame (sides (other side)) := by
  constructor
  · intro selected
    unfold current at selected
    cases first : sides 0 with
    | empty =>
      cases second : sides 1 with
      | empty | torn => simp [first, second, select] at selected
      | valid right =>
        simp only [first, second, select, ite_none_right_eq_some, Option.some.injEq]
          at selected
        obtain ⟨isFirst, rfl⟩ := selected
        exact ⟨1, second, by show Beside _ _ (sides 0); rw [first]; exact isFirst⟩
    | torn =>
      cases second : sides 1 with
      | empty | torn => simp [first, second, select] at selected
      | valid right =>
        simp only [first, second, select, Option.some.injEq] at selected
        obtain rfl := selected
        exact ⟨1, second, by show Beside _ _ (sides 0); rw [first]; trivial⟩
    | valid left =>
      cases second : sides 1 with
      | empty =>
        simp only [first, second, select, ite_none_right_eq_some, Option.some.injEq]
          at selected
        obtain ⟨isFirst, rfl⟩ := selected
        exact ⟨0, first, by show Beside _ _ (sides 1); rw [second]; exact isFirst⟩
      | torn =>
        simp only [first, second, select, Option.some.injEq] at selected
        obtain rfl := selected
        exact ⟨0, first, by show Beside _ _ (sides 1); rw [second]; trivial⟩
      | valid right =>
        simp only [first, second, select] at selected
        split at selected
        · obtain ⟨follows, equal⟩ := ite_none_right_eq_some.mp selected
          obtain rfl := some_inj.mp (some_inj.mp equal)
          exact ⟨1, second, by show Beside _ _ (sides 0); rw [first]; exact follows⟩
        · split at selected
          · obtain ⟨follows, equal⟩ := ite_none_right_eq_some.mp selected
            obtain rfl := some_inj.mp (some_inj.mp equal)
            exact ⟨0, first, by show Beside _ _ (sides 1); rw [second]; exact follows⟩
          · cases selected
  · rintro ⟨side, holds, beside⟩
    rw [current_eq discipline sides side, holds]
    cases opposite : sides (other side) with
    | empty =>
      rw [opposite] at beside
      exact if_pos beside
    | torn => rfl
    | valid previous =>
      rw [opposite] at beside
      have later := discipline.follows_generation beside
      simp only [select]
      rw [if_neg (by omega), if_pos (by omega)]
      exact if_pos beside

end

/-! ### Writing in turns -/

/-- Every frame sits on the side its generation has for home. -/
def Placed (discipline : Discipline Frame) (sides : Fin 2 → Probe Frame) : Prop :=
  ∀ side frame, sides side = .valid frame → home (discipline.generation frame) = side

/-- The frame that may be written next: a first one on a blank slot, a successor otherwise. -/
def Admits (discipline : Discipline Frame) : Option Frame → Frame → Prop
  | none, next => discipline.first next = true
  | some frame, next => discipline.follows frame next = true

variable {discipline : Discipline Frame} {sides : Fin 2 → Probe Frame} {frame : Frame}

theorem Placed.current (placed : Placed discipline sides)
    (selected : current discipline sides = some (some frame)) :
    sides (home (discipline.generation frame)) = .valid frame ∧
      Beside discipline frame (sides (other (home (discipline.generation frame)))) := by
  obtain ⟨side, holds, beside⟩ := (current_eq_some _ _ _).mp selected
  rw [placed side frame holds]
  exact ⟨holds, beside⟩

variable {next : Frame}

/-- A successor's home is the side the frame in force is not on. -/
theorem home_of_follows (follows : discipline.follows frame next = true) :
    home (discipline.generation next) = other (home (discipline.generation frame)) := by
  rw [discipline.follows_generation follows, home_succ]

/-- A whole write of an admitted frame puts it in force. -/
theorem Placed.current_write (placed : Placed discipline sides) {inForce : Option Frame}
    (selected : DoubleSlot.current discipline sides = some inForce)
    (admits : Admits discipline inForce next) :
    DoubleSlot.current discipline (update sides (home (discipline.generation next))
      (.valid next)) = some (some next) := by
  refine (current_eq_some _ _ _).mpr ⟨_, update_self .., ?_⟩
  rw [update_of_ne (other_ne _)]
  cases inForce with
  | none =>
    rw [(current_eq_blank _ _).mp selected]
    exact admits
  | some frame =>
    rw [home_of_follows admits, other_other, (placed.current selected).1]
    exact admits

variable {side : Fin 2}

/-- Tearing the side that is about to be overwritten leaves the frame in force. -/
theorem Placed.current_torn (placed : Placed discipline sides)
    (selected : DoubleSlot.current discipline sides = some (some frame))
    (away : side = other (home (discipline.generation frame))) :
    DoubleSlot.current discipline (update sides side .torn) = some (some frame) := by
  refine (current_eq_some _ _ _).mpr ⟨home (discipline.generation frame), ?_, ?_⟩
  · rw [update_of_ne (by rw [away]; exact (other_ne _).symm),
      (placed.current selected).1]
  · rw [away, update_self]
    trivial

/-- So does blanking it, when the frame in force is a first frame. -/
theorem Placed.current_blanked (placed : Placed discipline sides)
    (selected : DoubleSlot.current discipline sides = some (some frame))
    (away : side = other (home (discipline.generation frame)))
    (isFirst : discipline.first frame = true) :
    DoubleSlot.current discipline (update sides side .empty) = some (some frame) := by
  refine (current_eq_some _ _ _).mpr ⟨home (discipline.generation frame), ?_, ?_⟩
  · rw [update_of_ne (by rw [away]; exact (other_ne _).symm),
      (placed.current selected).1]
  · rw [away, update_self]
    exact isFirst

/-- A torn side next to a blank one is not readable at all. -/
theorem current_torn_blank (discipline : Discipline Frame) (torn : sides side = .torn)
    (blank : sides (other side) = .empty) : current discipline sides = none := by
  rw [current_eq discipline sides side, torn, blank]
  rfl

end DoubleSlot
