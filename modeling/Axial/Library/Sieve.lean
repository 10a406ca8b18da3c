/-
This file is about lists that are gone through once from the front, keeping each
element that nothing kept before it covers. Where covering is reflexive and
transitive, what is left out at first would have been left out later, so that parts
of a list may be gone through by themselves beforehand, in any grouping.
-/

import Mathlib

namespace Sieve

variable {Element : Type} (covers : Element → Element → Prop) [DecidableRel covers]

/-- Keeps an element if nothing covers it. -/
def add (kept : List Element) (element : Element) : List Element :=
  if ∃ other ∈ kept, covers other element then kept else kept ++ [element]

/-- What is kept of a list, after what is kept already. -/
def sieveFrom (kept elements : List Element) : List Element := elements.foldl (add covers) kept

def sieve (elements : List Element) : List Element := sieveFrom covers [] elements

variable {covers}

variable {kept : List Element} {element : Element}

theorem add_of_covered (covered : ∃ other ∈ kept, covers other element) :
    add covers kept element = kept :=
  if_pos covered

theorem subset_add (kept : List Element) (element : Element) : kept ⊆ add covers kept element := by
  unfold add
  split
  · exact List.Subset.refl _
  · exact List.subset_append_left _ _

theorem subset_sieveFrom (kept elements : List Element) :
    kept ⊆ sieveFrom covers kept elements := by
  induction elements generalizing kept with
  | nil => exact List.Subset.refl _
  | cons element elements ih =>
    exact List.Subset.trans (subset_add kept element) (ih _)

theorem sieveFrom_append (kept first second : List Element) :
    sieveFrom covers kept (first ++ second) =
      sieveFrom covers (sieveFrom covers kept first) second :=
  List.foldl_append

/-- Every element is covered by what is kept. -/
theorem covered_of_mem [Std.Refl covers] {elements : List Element} (member : element ∈ elements) :
    ∃ other ∈ sieveFrom covers kept elements, covers other element := by
  induction elements generalizing kept with
  | nil => cases member
  | cons first elements ih =>
    rcases List.mem_cons.mp member with rfl | later
    · have covered : ∃ other ∈ add covers kept element, covers other element := by
        unfold add
        split
        · assumption
        · exact ⟨element, List.mem_append_right _ (List.mem_singleton_self _), refl_of covers _⟩
      obtain ⟨other, stays, above⟩ := covered
      exact ⟨other, subset_sieveFrom _ elements stays, above⟩
    · exact ih later

/-- A list may be gone through by itself before. -/
theorem sieveFrom_sieveFrom [Std.Refl covers] [IsTrans Element covers]
    (kept before elements : List Element) :
    sieveFrom covers kept (sieveFrom covers before elements) =
      sieveFrom covers (sieveFrom covers kept before) elements := by
  induction elements generalizing before with
  | nil => rfl
  | cons element elements ih =>
    have one : sieveFrom covers kept (add covers before element) =
        add covers (sieveFrom covers kept before) element := by
      by_cases covered : ∃ other ∈ before, covers other element
      · rw [add_of_covered covered]
        obtain ⟨other, member, above⟩ := covered
        obtain ⟨top, stays, higher⟩ :
            ∃ top ∈ sieveFrom covers kept before, covers top other := covered_of_mem member
        exact (add_of_covered ⟨top, stays, trans_of covers higher above⟩).symm
      · rw [add, if_neg covered, sieveFrom_append]
        rfl
    show sieveFrom covers kept (sieveFrom covers (add covers before element) elements) = _
    rw [ih, one]
    rfl

theorem sieve_append_sieve [Std.Refl covers] [IsTrans Element covers]
    (first second : List Element) :
    sieve covers (first ++ sieve covers second) = sieve covers (first ++ second) := by
  unfold sieve
  rw [sieveFrom_append, sieveFrom_append, sieveFrom_sieveFrom]
  rfl

theorem sieve_sieve [Std.Refl covers] [IsTrans Element covers] (elements : List Element) :
    sieve covers (sieve covers elements) = sieve covers elements :=
  sieve_append_sieve [] elements

theorem sieve_sieve_append [Std.Refl covers] [IsTrans Element covers]
    (first second : List Element) :
    sieve covers (sieve covers first ++ second) = sieve covers (first ++ second) := by
  have again : sieve covers (sieve covers first) = sieve covers first := sieve_sieve first
  unfold sieve at again ⊢
  rw [sieveFrom_append, sieveFrom_append, again]

end Sieve
