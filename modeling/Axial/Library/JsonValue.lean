/-
This file is about JSON values as programs hold them, objects as lists of members whose
order is arbitrary but whose keys differ, and about their canonical form, with the members
of every object in the order of their keys. Two values have one canonical form exactly
when they are the same value.
-/

import Mathlib.Data.List.Sort
import Mathlib.Data.String.Basic

namespace Json

open List

inductive Value (Number : Type) where
  | null
  | boolean (value : Bool)
  | number (value : Number)
  | text (value : String)
  | array (values : List (Value Number))
  | object (members : List (String × Value Number))

variable {Number : Type}

abbrev Member (Number : Type) := String × Value Number

/-- In the order of the keys. -/
def sortMembers (members : List (Member Number)) : List (Member Number) :=
  members.insertionSort fun left right => left.1 ≤ right.1

mutual

/-- The keys of every object differ. -/
def Value.WellFormed : Value Number → Prop
  | .array values => WellFormedAll values
  | .object members => (members.map Prod.fst).Nodup ∧ WellFormedMembers members
  | .null | .boolean _ | .number _ | .text _ => True

def WellFormedAll : List (Value Number) → Prop
  | [] => True
  | value :: values => value.WellFormed ∧ WellFormedAll values

def WellFormedMembers : List (Member Number) → Prop
  | [] => True
  | (_, value) :: members => value.WellFormed ∧ WellFormedMembers members

end

mutual

/-- Sorting by the keys and changing the values may be done in either order. -/
def Value.canonical : Value Number → Value Number
  | .array values => .array (canonicalAll values)
  | .object members => .object (sortMembers (canonicalMembers members))
  | .null => .null
  | .boolean value => .boolean value
  | .number value => .number value
  | .text value => .text value

def canonicalAll : List (Value Number) → List (Value Number)
  | [] => []
  | value :: values => value.canonical :: canonicalAll values

def canonicalMembers : List (Member Number) → List (Member Number)
  | [] => []
  | (key, value) :: members => (key, value.canonical) :: canonicalMembers members

end

mutual

/-- Equality up to the order of members: as many of them, and each is found in the other. -/
def Value.Same : Value Number → Value Number → Prop
  | .null, .null => True
  | .boolean left, .boolean right => left = right
  | .number left, .number right => left = right
  | .text left, .text right => left = right
  | .array lefts, .array rights => SameAll lefts rights
  | .object lefts, .object rights => lefts.length = rights.length ∧ SameMembers lefts rights
  | _, _ => False

def SameAll : List (Value Number) → List (Value Number) → Prop
  | [], [] => True
  | left :: lefts, right :: rights => left.Same right ∧ SameAll lefts rights
  | _, _ => False

def SameMembers : List (Member Number) → List (Member Number) → Prop
  | [], _ => True
  | (key, value) :: lefts, rights =>
    (∃ other, (key, other) ∈ rights ∧ value.Same other) ∧ SameMembers lefts rights

end

/-! ### Sorting -/

variable {Item Key : Type}

theorem insertionSort_eq_iff [LinearOrder Key] {key : Item → Key} {lefts rights : List Item}
    (distinct : (lefts.map key).Nodup) :
    lefts.insertionSort (fun left right => key left ≤ key right) =
      rights.insertionSort (fun left right => key left ≤ key right) ↔ lefts.Perm rights := by
  have : Std.Total fun left right : Item => key left ≤ key right :=
    ⟨fun left right => le_total _ _⟩
  have : IsTrans Item fun left right : Item => key left ≤ key right :=
    ⟨fun first second third => le_trans⟩
  constructor
  · intro same
    exact (perm_insertionSort _ lefts).symm.trans
      (same ▸ perm_insertionSort _ rights)
  · intro permuted
    let le := fun left right : Item => key left ≤ key right
    have sorted := (perm_insertionSort le lefts).trans
      (permuted.trans (perm_insertionSort le rights).symm)
    refine sorted.eq_of_pairwise ?_ (pairwise_insertionSort le lefts)
      (pairwise_insertionSort le rights)
    intro left right leftIn rightIn below above
    refine inj_on_of_nodup_map distinct ?_ ?_ (le_antisymm below above)
    · exact (mem_insertionSort _).mp leftIn
    · exact permuted.mem_iff.mpr ((mem_insertionSort _).mp rightIn)

theorem canonicalMembers_eq (members : List (Member Number)) :
    canonicalMembers members = members.map fun member => (member.1, member.2.canonical) := by
  induction members with
  | nil => rfl
  | cons member members ih =>
    rw [canonicalMembers, ih, map_cons]

theorem keys_canonicalMembers (members : List (Member Number)) :
    (canonicalMembers members).map Prod.fst = members.map Prod.fst := by
  rw [canonicalMembers_eq, map_map]
  rfl

/-! ### Canonical values -/

/-- Members with different keys are a permutation of others when there are as many of them and
each is found among the others. -/
theorem perm_iff_subset {key : Item → Key} {lefts rights : List Item}
    (distinct : (lefts.map key).Nodup) :
    lefts.Perm rights ↔ lefts.length = rights.length ∧ lefts ⊆ rights := by
  constructor
  · intro permuted
    exact ⟨permuted.length_eq, permuted.subset⟩
  · rintro ⟨length, subset⟩
    exact (subperm_of_subset (List.Nodup.of_map key distinct) subset).perm_of_length_le
      length.ge

theorem canonicalMembers_subset_iff {lefts rights : List (Member Number)} :
    canonicalMembers lefts ⊆ canonicalMembers rights ↔
      ∀ left ∈ lefts, ∃ other, (left.1, other) ∈ rights ∧ left.2.canonical = other.canonical := by
  rw [canonicalMembers_eq, canonicalMembers_eq]
  constructor
  · intro subset left member
    obtain ⟨⟨key, other⟩, found, same⟩ :=
      mem_map.mp (subset (mem_map_of_mem member))
    obtain ⟨rfl, values⟩ := Prod.mk.inj same
    exact ⟨other, found, values.symm⟩
  · intro each member isMember
    obtain ⟨left, leftIn, rfl⟩ := mem_map.mp isMember
    obtain ⟨other, found, same⟩ := each left leftIn
    exact mem_map.mpr ⟨_, found, by rw [same]⟩

theorem wellFormedMembers_iff (members : List (Member Number)) :
    WellFormedMembers members ↔ ∀ member ∈ members, member.2.WellFormed := by
  induction members with
  | nil => simp only [WellFormedMembers, not_mem_nil, false_implies, implies_true]
  | cons first rest ih =>
    rw [WellFormedMembers, ih, forall_mem_cons]

mutual

theorem Value.canonical_wellFormed : ∀ value : Value Number, value.WellFormed →
    value.canonical.WellFormed
  | .array values, well => canonicalAll_wellFormed values well
  | .object members, well => by
    have permuted : (sortMembers (canonicalMembers members)).Perm (canonicalMembers members) :=
      perm_insertionSort _ _
    refine ⟨?_, (wellFormedMembers_iff _).mpr fun member isMember => ?_⟩
    · rw [(permuted.map Prod.fst).nodup_iff, keys_canonicalMembers]
      exact well.1
    · exact (wellFormedMembers_iff _).mp (canonicalMembers_wellFormed members well.2) member
        (permuted.mem_iff.mp isMember)
  | .null, _ | .boolean _, _ | .number _, _ | .text _, _ => trivial

theorem canonicalAll_wellFormed : ∀ values : List (Value Number), WellFormedAll values →
    WellFormedAll (canonicalAll values)
  | [], _ => trivial
  | value :: values, well =>
    ⟨value.canonical_wellFormed well.1, canonicalAll_wellFormed values well.2⟩

theorem canonicalMembers_wellFormed : ∀ members : List (Member Number),
    WellFormedMembers members → WellFormedMembers (canonicalMembers members)
  | [], _ => trivial
  | (_, value) :: members, well =>
    ⟨value.canonical_wellFormed well.1, canonicalMembers_wellFormed members well.2⟩

end

mutual

/-- Values are the same exactly when they have one canonical form. -/
theorem Value.canonical_eq_iff : ∀ left right : Value Number, left.WellFormed →
    right.WellFormed → (left.canonical = right.canonical ↔ left.Same right)
  | .array lefts, right, leftWell, rightWell => by
    cases right with
    | array rights =>
      rw [Value.canonical, Value.canonical, Value.array.injEq, Value.Same]
      exact canonicalAll_eq_iff lefts rights leftWell rightWell
    | _ => simp only [Value.canonical, reduceCtorEq, Value.Same]
  | .object lefts, right, leftWell, rightWell => by
    cases right with
    | object rights =>
      have distinct : ((canonicalMembers lefts).map Prod.fst).Nodup := by
        rw [keys_canonicalMembers]
        exact leftWell.1
      rw [Value.canonical, Value.canonical, Value.object.injEq, Value.Same, sortMembers,
        sortMembers, insertionSort_eq_iff distinct, perm_iff_subset distinct,
        canonicalMembers_subset_iff, canonicalMembers_eq, canonicalMembers_eq, length_map,
        length_map]
      exact and_congr_right fun _ =>
        sameMembers_iff lefts rights leftWell.2 rightWell.2
    | _ => simp only [Value.canonical, reduceCtorEq, Value.Same]
  | .null, right, _, _ => by cases right <;> simp only [Value.canonical, reduceCtorEq, Value.Same]
  | .boolean _, right, _, _ => by
    cases right <;> simp only [Value.canonical, reduceCtorEq, Value.Same, Value.boolean.injEq]
  | .number _, right, _, _ => by
    cases right <;> simp only [Value.canonical, reduceCtorEq, Value.Same, Value.number.injEq]
  | .text _, right, _, _ => by
    cases right <;> simp only [Value.canonical, reduceCtorEq, Value.Same, Value.text.injEq]

theorem canonicalAll_eq_iff : ∀ lefts rights : List (Value Number), WellFormedAll lefts →
    WellFormedAll rights → (canonicalAll lefts = canonicalAll rights ↔ SameAll lefts rights)
  | [], rights, _, _ => by
    cases rights <;> simp only [canonicalAll, reduceCtorEq, SameAll]
  | left :: lefts, [], _, _ => by simp only [canonicalAll, reduceCtorEq, SameAll]
  | left :: lefts, right :: rights, leftWell, rightWell => by
    rw [canonicalAll, canonicalAll, List.cons.injEq, SameAll,
      left.canonical_eq_iff right leftWell.1 rightWell.1,
      canonicalAll_eq_iff lefts rights leftWell.2 rightWell.2]

theorem sameMembers_iff : ∀ lefts rights : List (Member Number), WellFormedMembers lefts →
    WellFormedMembers rights →
    ((∀ left ∈ lefts, ∃ other, (left.1, other) ∈ rights ∧
      left.2.canonical = other.canonical) ↔ SameMembers lefts rights)
  | [], rights, _, _ => by simp only [not_mem_nil, false_implies, implies_true, SameMembers]
  | (key, value) :: lefts, rights, leftWell, rightWell => by
    rw [forall_mem_cons, SameMembers, sameMembers_iff lefts rights leftWell.2 rightWell]
    refine and_congr_left fun _ => exists_congr fun other => and_congr_right fun member => ?_
    exact value.canonical_eq_iff other leftWell.1
      ((wellFormedMembers_iff rights).mp rightWell _ member)

end

/-! ### Documents -/

/-- A value the keys of whose objects differ, as a map of members gives it. -/
abbrev Document (Number : Type) := {value : Value Number // value.WellFormed}

def Document.canonical (document : Document Number) : Document Number :=
  ⟨document.val.canonical, document.val.canonical_wellFormed document.property⟩

theorem Document.canonical_eq_iff (left right : Document Number) :
    left.canonical = right.canonical ↔ left.val.Same right.val := by
  rw [Subtype.ext_iff]
  exact left.val.canonical_eq_iff right.val left.property right.property

end Json
