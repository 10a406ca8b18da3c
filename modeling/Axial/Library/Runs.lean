/-
This file is about runs, finite sequences of steps of any relation: what each
step preserves a run preserves, also when only those steps are considered that
leave some view of the state as it is. The same is said of the folds of a
function that may fail.
-/

import Mathlib

namespace Runs

open Relation

variable {State View : Type} {step : State → State → Prop}

/-- An invariant of the steps is an invariant of the runs. -/
theorem invariant {holds : State → Prop}
    (preserved : ∀ before after, step before after → holds before → holds after)
    {start finish : State} (run : ReflTransGen step start finish) (initially : holds start) :
    holds finish := by
  induction run with
  | refl => exact initially
  | tail _ last ih => exact preserved _ _ last ih

variable {start : State}

/-- A rank that no step lowers is not lowered by a run. -/
theorem rank_le {rank : State → Nat}
    (rising : ∀ before after, step before after → rank before ≤ rank after) {finish : State}
    (run : ReflTransGen step start finish) : rank start ≤ rank finish := by
  induction run with
  | refl => exact le_rfl
  | tail _ last ih => exact ih.trans (rising _ _ last)

variable {holds : State → Prop}

/-- If every step either keeps a view or raises its rank, then a run that ends with the view it
began with kept it throughout, and preserves what such steps preserve. -/
theorem frozen {view : State → View} {rank : View → Nat}
    (ratchet : ∀ before after, step before after →
      view after = view before ∨ rank (view before) < rank (view after))
    (preserved : ∀ before after, step before after → view after = view before →
      holds before → holds after) {finish : State} (run : ReflTransGen step start finish)
    (same : view finish = view start) (initially : holds start) : holds finish := by
  have rising : ∀ before after, step before after →
      rank (view before) ≤ rank (view after) := by
    intro before after taken
    rcases ratchet before after taken with kept | raised
    · rw [kept]
    · exact raised.le
  induction run with
  | refl => exact initially
  | @tail middle last earlier taken ih =>
    have lower : rank (view start) ≤ rank (view middle) := rank_le rising earlier
    rcases ratchet middle last taken with kept | raised
    · exact preserved _ _ taken kept (ih (kept.symm.trans same))
    · rw [same] at raised
      omega

/-- Goals that can be reached one at a time, without giving up the earlier ones, can be reached
together. -/
theorem sweep {Goal : Type} {reached : Goal → State → Prop}
    (one : ∀ state goal, holds state → ∃ later, ReflTransGen step state later ∧ holds later ∧
      reached goal later ∧ ∀ other, reached other state → reached other later) (goals : List Goal)
    (initially : holds start) :
    ∃ finish, ReflTransGen step start finish ∧ holds finish ∧
      (∀ goal ∈ goals, reached goal finish) ∧
      ∀ other, reached other start → reached other finish := by
  induction goals generalizing start with
  | nil => exact ⟨start, .refl, initially, nofun, fun _ before => before⟩
  | cons goal goals ih =>
    obtain ⟨middle, early, held, here, kept⟩ := one start goal initially
    obtain ⟨finish, late, holdsLast, rest, keptLast⟩ := ih held
    refine ⟨finish, early.trans late, holdsLast, fun other member => ?_,
      fun other before => keptLast other (kept other before)⟩
    rcases List.mem_cons.mp member with rfl | later
    · exact keptLast _ here
    · exact rest other later

/-! ### Folds that may fail -/

variable {Input : Type} {advance : State → Input → Option State}

theorem foldlM_cons_eq_some {input : Input} {inputs : List Input} {finish : State} :
    (input :: inputs).foldlM advance start = some finish ↔
      ∃ middle, advance start input = some middle ∧ inputs.foldlM advance middle = some finish := by
  rw [List.foldlM_cons]
  exact Option.bind_eq_some_iff

/-- What every step of a fold preserves, the fold preserves. -/
theorem foldlM_invariant {holds : State → Prop} {inputs : List Input} {start finish : State}
    (folded : inputs.foldlM advance start = some finish)
    (preserved : ∀ before, ∀ input ∈ inputs, ∀ after, advance before input = some after →
      holds before → holds after)
    (initially : holds start) : holds finish := by
  induction inputs generalizing start with
  | nil =>
    cases folded
    exact initially
  | cons input inputs ih =>
    obtain ⟨middle, here, later⟩ := foldlM_cons_eq_some.mp folded
    exact ih later
      (fun before other member => preserved before other (List.mem_cons_of_mem _ member))
      (preserved start input List.mem_cons_self middle here initially)

/-- Where each step goes through if and only if what came so far still fits together with its input,
a fold goes through to its end if and only if all of its inputs fit. -/
theorem foldlM_eq_some_iff {holds : List Input → State → Prop} {fits : List Input → Prop}
    {inputs : List Input} {start : State}
    (initially : holds [] start) (empty : fits [])
    (closed : ∀ first second, fits (first ++ second) → fits first)
    (step : ∀ before input after state, inputs = before ++ input :: after → holds before state →
      fits before → ((∃ next, advance state input = some next) ↔ fits (before ++ [input])))
    (kept : ∀ before input after state next, inputs = before ++ input :: after →
      holds before state → advance state input = some next → holds (before ++ [input]) next) :
    ((∃ finish, inputs.foldlM advance start = some finish) ↔ fits inputs) ∧
      ∀ finish, inputs.foldlM advance start = some finish → holds inputs finish := by
  suffices ∀ rest before state, inputs = before ++ rest → holds before state → fits before →
      ((∃ finish, rest.foldlM advance state = some finish) ↔ fits inputs) ∧
        ∀ finish, rest.foldlM advance state = some finish → holds inputs finish from
    this inputs [] start rfl initially empty
  intro rest
  induction rest with
  | nil =>
    rintro before state rfl here fit
    rw [List.append_nil]
    refine ⟨⟨fun _ => fit, fun _ => ⟨state, rfl⟩⟩, fun finish same => ?_⟩
    cases same
    exact here
  | cons input rest ih =>
    intro before state split here fit
    have later (next : State) (advanced : advance state input = some next) :=
      ih (before ++ [input]) next (by rw [split, List.append_assoc]; rfl)
        (kept before input rest state next split here advanced)
        ((step before input rest state split here fit).mp ⟨next, advanced⟩)
    simp only [foldlM_cons_eq_some]
    refine ⟨⟨?_, fun all => ?_⟩, ?_⟩
    · rintro ⟨finish, next, advanced, folded⟩
      exact (later next advanced).1.mp ⟨finish, folded⟩
    · obtain ⟨next, advanced⟩ := (step before input rest state split here fit).mpr
        (closed (before ++ [input]) rest (by rwa [List.append_assoc, List.singleton_append, ← split]))
      obtain ⟨finish, folded⟩ := (later next advanced).1.mpr all
      exact ⟨finish, next, advanced, folded⟩
    · rintro finish ⟨next, advanced, folded⟩
      exact (later next advanced).2 finish folded

end Runs
