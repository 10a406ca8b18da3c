/-
This file is about parties that take units of several resources, here called
gates, one gate after the other in a fixed order. Whoever finds too few units
waits at the gate, and those who wait there are served in the order in which
they came. Among parties that all wait somewhere, one can be served.
-/

import Mathlib

namespace Gates

open Multiset

variable {Gate Party : Type}

/-- What the units that a list of needs comes to at a gate. -/
def owed [DecidableEq Gate] (needs : List (Gate × Nat)) (gate : Gate) : Nat :=
  (needs.map fun need => if need.1 = gate then need.2 else 0).sum

/-- A party that waits: it has been given some of the units it needs at one gate, and holds units
of others. -/
structure Waiter (Gate : Type) where
  gate : Gate
  need : Nat
  given : Nat
  ticket : Nat
  held : Gate → Nat

section Needs

variable [DecidableEq Gate]

theorem owed_nil (gate : Gate) : owed [] gate = 0 := rfl

theorem owed_cons (need : Gate × Nat) (needs : List (Gate × Nat)) (gate : Gate) :
    owed (need :: needs) gate = (if need.1 = gate then need.2 else 0) + owed needs gate := rfl

theorem owed_append (first second : List (Gate × Nat)) (gate : Gate) :
    owed (first ++ second) gate = owed first gate + owed second gate := by
  unfold owed
  rw [List.map_append, List.sum_append]

theorem exists_of_owed {needs : List (Gate × Nat)} {gate : Gate} (some : owed needs gate ≠ 0) :
    ∃ need ∈ needs, need.1 = gate := by
  by_contra nobody
  push Not at nobody
  refine some (List.sum_eq_zero fun units member => ?_)
  obtain ⟨need, there, rfl⟩ := List.mem_map.mp member
  exact if_neg (nobody need there)

end Needs

variable [LinearOrder Gate]

/-- The units of a gate that a waiting party has, of those it holds and those it has been given. -/
def Waiter.units (waiter : Waiter Gate) (gate : Gate) : Nat :=
  waiter.held gate + if waiter.gate = gate then waiter.given else 0

/-- The party that came first stands at the last gate where anybody waits. There nobody holds
units, and only the first has been given some. -/
theorem exists_served {waiters : Multiset (Waiter Gate)} {limit available : Gate → Nat}
    (somebody : waiters ≠ 0)
    (conserved : ∀ gate, available gate + (waiters.map fun waiter => waiter.units gate).sum =
      limit gate)
    (ordered : ∀ waiter ∈ waiters, ∀ gate, waiter.held gate ≠ 0 → gate < waiter.gate)
    (distinct : (waiters.map Waiter.ticket).Nodup)
    (inTurn : ∀ waiter ∈ waiters, waiter.given ≠ 0 → ∀ other ∈ waiters,
      other.gate = waiter.gate → waiter.ticket ≤ other.ticket)
    (fits : ∀ waiter ∈ waiters, waiter.need ≤ limit waiter.gate) :
    ∃ waiter ∈ waiters,
      (∀ other ∈ waiters, other.gate = waiter.gate → waiter.ticket ≤ other.ticket) ∧
      waiter.need ≤ available waiter.gate + waiter.given := by
  obtain ⟨some, member⟩ := exists_mem_of_ne_zero somebody
  obtain ⟨top, topMember, last⟩ := Set.exists_max_image {waiter | waiter ∈ waiters} Waiter.gate
    (finite_toSet waiters) ⟨some, member⟩
  obtain ⟨first, ⟨firstMember, atTop⟩, earliest⟩ := Set.exists_min_image
    {waiter | waiter ∈ waiters ∧ waiter.gate = top.gate} Waiter.ticket
    ((finite_toSet waiters).subset fun _ both => both.1) ⟨top, topMember, rfl⟩
  have leads : ∀ other ∈ waiters, other.gate = first.gate → first.ticket ≤ other.ticket :=
    fun other there same => earliest other ⟨there, same.trans atTop⟩
  have unheld : ∀ other ∈ waiters, other.held first.gate = 0 := by
    intro other there
    by_contra holds
    have beyond := ordered other there _ holds
    rw [atTop] at beyond
    exact absurd (last other there) (not_le.mpr beyond)
  refine ⟨first, firstMember, leads, ?_⟩
  obtain ⟨others, rfl⟩ := exists_cons_of_mem firstMember
  rw [map_cons, nodup_cons] at distinct
  -- whoever else has been given units here would have come before the first
  have nothing : (others.map fun waiter => waiter.units first.gate).sum = 0 := by
    refine sum_eq_zero fun units there => ?_
    obtain ⟨other, inside, rfl⟩ := mem_map.mp there
    have within : other ∈ first ::ₘ others := mem_cons_of_mem inside
    unfold Waiter.units
    rw [unheld other within, Nat.zero_add, ite_eq_right_iff]
    intro same
    by_contra given
    have before := inTurn other within given first firstMember same.symm
    have equal := le_antisymm before (leads other within same)
    exact distinct.1 (mem_map.mpr ⟨other, inside, equal⟩)
  have whole := conserved first.gate
  rw [map_cons, sum_cons, nothing] at whole
  unfold Waiter.units at whole
  rw [unheld first firstMember, if_pos rfl] at whole
  have enough := fits first firstMember
  omega

end Gates
