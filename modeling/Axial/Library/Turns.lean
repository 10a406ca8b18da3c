/-
This file is about systems whose actors take turns. Something is inevitable when turns can be
given in such a way that it comes about whatever the actors do in them; what an actor may do
in a turn is not for the one who gives it to choose.
-/

import Mathlib

namespace Turns

variable {State Actor : Type} {act : Actor → State → State → Prop}

/-- Turns can be given so that the goal is reached: it is not said that it is reached under any
turns, and where there are always others to give it may never be. -/
inductive Inevitable (act : Actor → State → State → Prop) (goal : State → Prop) : State → Prop
  | reached {state : State} (here : goal state) : Inevitable act goal state
  | turn {state : State} (actor : Actor) (can : ∃ after, act actor state after)
      (next : ∀ after, act actor state after → Inevitable act goal after) :
      Inevitable act goal state

variable {goal later holds : State → Prop} {state : State}

theorem Inevitable.trans (first : Inevitable act goal state)
    (second : ∀ middle, goal middle → Inevitable act later middle) :
    Inevitable act later state := by
  induction first with
  | reached here => exact second _ here
  | turn actor can _ ih => exact .turn actor can ih

theorem Inevitable.mono (first : Inevitable act goal state)
    (weaker : ∀ middle, goal middle → later middle) : Inevitable act later state :=
  first.trans fun middle here => .reached (weaker middle here)

/-- One turn. -/
theorem Inevitable.once (actor : Actor) (can : ∃ after, act actor state after)
    (next : ∀ after, act actor state after → goal after) : Inevitable act goal state :=
  .turn actor can fun after taken => .reached (next after taken)

/-- A goal that a rank counts down to. -/
theorem Inevitable.of_rank {rank : State → Nat} (actor : Actor)
    (step : ∀ before, holds before → rank before ≠ 0 → (∃ after, act actor before after) ∧
      ∀ after, act actor before after → holds after ∧ rank after < rank before)
    (initially : holds state) :
    Inevitable act (fun last => holds last ∧ rank last = 0) state := by
  induction counted : rank state using Nat.strong_induction_on generalizing state with
  | _ count ih =>
    by_cases done : rank state = 0
    · exact .reached ⟨initially, done⟩
    · obtain ⟨can, next⟩ := step state initially done
      exact .turn actor can fun after taken =>
        ih (rank after) (counted ▸ (next after taken).2) (next after taken).1 rfl

end Turns
