/-
This file is about histories: what a machine that performs one action after another has gone
through. A relation between states that every performance respects holds between what an
earlier performance left and what a later one found, so that facts about single performances
become facts about any two of a history.
-/

import Mathlib

namespace History

open List

variable {State Action Outcome : Type}

/-- One performance. -/
structure Moment (State Action Outcome : Type) where
  before : State
  action : Action
  outcome : Outcome
  after : State

variable (perform : Action → State → State × Outcome)

/-- What a list of actions goes through. -/
def history : List Action → State → List (Moment State Action Outcome)
  | [], _ => []
  | action :: rest, state =>
    ⟨state, action, (perform action state).2, (perform action state).1⟩ ::
      history rest (perform action state).1

variable {perform}

variable {actions : List Action} {start : State} {moment : Moment State Action Outcome}

section

variable (member : moment ∈ history perform actions start)

include member

/-- A moment of a history is a performance. -/
theorem performed : perform moment.action moment.before = (moment.after, moment.outcome) := by
  induction actions generalizing start with
  | nil => cases member
  | cons action rest ih =>
    rcases mem_cons.mp member with rfl | later
    · rfl
    · exact ih later

theorem after_eq : moment.after = (perform moment.action moment.before).1 := by
  rw [performed member]

theorem outcome_eq : moment.outcome = (perform moment.action moment.before).2 := by
  rw [performed member]

end

/-- A history performs the actions that it is given. -/
theorem map_action (actions : List Action) (start : State) :
    (history perform actions start).map (·.action) = actions := by
  induction actions generalizing start with
  | nil => rfl
  | cons action rest ih =>
    exact congrArg (action :: ·) (ih _)

/-- What every performance of a history preserves holds throughout it. -/
theorem invariant {holds : State → Prop} {actions : List Action} {start : State}
    (preserved : ∀ moment ∈ history perform actions start, holds moment.before →
      holds moment.after)
    (initially : holds start) :
    ∀ moment ∈ history perform actions start, holds moment.before := by
  induction actions generalizing start with
  | nil => exact fun _ member => nomatch member
  | cons action rest ih =>
    intro moment member
    rcases mem_cons.mp member with rfl | later
    · exact initially
    · exact ih
        (fun other inside => preserved other (mem_cons_of_mem _ inside))
        (preserved _ mem_cons_self initially) moment later

/-- What a history starts with reaches all its moments along a relation that every performance
respects. -/
theorem reaches (later : State → State → Prop) (refl : ∀ state, later state state)
    (trans : ∀ {first second third}, later first second → later second third →
      later first third)
    (advances : ∀ moment ∈ history perform actions start, later moment.before moment.after) :
    ∀ moment ∈ history perform actions start, later start moment.before := by
  induction actions generalizing start with
  | nil => exact fun _ member => nomatch member
  | cons action rest ih =>
    intro moment member
    rcases mem_cons.mp member with rfl | inside
    · exact refl start
    · exact trans (advances _ mem_cons_self)
        (ih (fun other there => advances other (mem_cons_of_mem _ there))
          moment inside)

/-- What a performance left is related to what any later one found. -/
theorem pairwise (later : State → State → Prop) (refl : ∀ state, later state state)
    (trans : ∀ {first second third}, later first second → later second third →
      later first third)
    (advances : ∀ moment ∈ history perform actions start, later moment.before moment.after) :
    (history perform actions start).Pairwise fun earlier next =>
      later earlier.after next.before := by
  induction actions generalizing start with
  | nil => exact List.Pairwise.nil
  | cons action rest ih =>
    have rest := fun other there => advances other (mem_cons_of_mem _ there)
    exact List.Pairwise.cons (reaches later refl trans rest) (ih rest)

variable {front back : List (Moment State Action Outcome)} {first : Moment State Action Outcome}

/-- A moment begins where the one before it ended. -/
theorem chained {next : Moment State Action Outcome}
    (moments : history perform actions start = front ++ first :: next :: back) :
    next.before = first.after := by
  induction front generalizing actions start with
  | nil =>
    match actions, moments with
    | [_], moments => cases (List.cons.inj moments).2
    | _ :: _ :: _, moments =>
      obtain ⟨here, later⟩ := List.cons.inj moments
      rw [← here, ← (List.cons.inj later).1]
  | cons moment front ih =>
    cases actions with
    | nil => cases moments
    | cons action actions => exact ih (List.cons.inj moments).2

/-- What holds after a moment and is preserved by the moments that follow holds before the one
that comes after these. -/
theorem until_next {holds : State → Prop} {middle : List (Moment State Action Outcome)}
    {last : Moment State Action Outcome}
    (moments : history perform actions start = front ++ first :: (middle ++ last :: back))
    (begins : holds first.after)
    (preserved : ∀ moment ∈ middle, holds moment.before → holds moment.after) :
    holds last.before := by
  induction middle generalizing front first with
  | nil => exact chained moments ▸ begins
  | cons next middle ih =>
    refine @ih (front ++ [first]) next ?_ ?_ ?_
    · rw [moments, append_assoc]
      rfl
    · exact preserved next mem_cons_self (chained moments ▸ begins)
    · exact fun moment member => preserved moment (mem_cons_of_mem _ member)

end History
