/-
This file models how the libraries of a version are put over those of the version it
inherits from, `merge_libraries_prefer_first` of `core/minecraft/src/launch/mod.rs`.
A library is left out if it is there already, or if it is plain and one of the same
key that is taken under no rules was kept before. What two versions are merged with
later does not matter to what they lose, so a chain of versions may be merged in any
grouping.

The hash maps of a library are finite maps, equal if they have the same entries.
-/

import Axial.Library.Sieve
import Axial.Minecraft.Libraries

namespace Axial.Minecraft.Launch

/-! ### Libraries -/

structure Rule where
  action : String
  os : Option OsRule
  features : Option (Finmap fun _ : String => Bool)
  deriving DecidableEq

structure LibraryDownload where
  artifact : Option LibraryArtifact
  classifiers : Finmap fun _ : String => LibraryArtifact
  deriving DecidableEq

structure ExtractRule where
  exclude : List String
  deriving DecidableEq

structure Library where
  name : String
  downloads : Option LibraryDownload
  url : String
  rules : List Rule
  natives : Finmap fun _ : String => String
  extract : Option ExtractRule
  sha1 : String
  sha256 : String
  checksums : List String
  size : Int
  deriving DecidableEq

def libraryHasNativeClassifierVariants (library : Library) : Bool :=
  library.natives ≠ ∅ || library.downloads.any fun downloads => downloads.classifiers ≠ ∅

/-- The group and the artifact of a coordinate, and its classifier. -/
def libraryMergeKey (name : String) : String :=
  match splitOn ':' name with
  | group :: artifact :: rest =>
    match rest[1]? with
    | some classifier => group ++ ":" ++ artifact ++ ":" ++ classifier
    | none => group ++ ":" ++ artifact
  | _ => name

/-! ### Merging -/

structure Merging where
  seen : List String
  unconditionalSeen : List String
  merged : List Library

def Merging.step (state : Merging) (library : Library) : Merging :=
  if library ∈ state.merged then state
  else
    let key := libraryMergeKey library.name
    let duplicate := key ∈ state.seen
    let state := { state with seen := state.seen.insert key }
    if duplicate ∧ library.rules = [] ∧ ¬libraryHasNativeClassifierVariants library = true ∧
        key ∈ state.unconditionalSeen then
      state
    else
      let unconditionalSeen :=
        if library.rules = [] then state.unconditionalSeen.insert key else state.unconditionalSeen
      { state with unconditionalSeen, merged := state.merged ++ [library] }

def mergeLibrariesPreferFirst (preferred fallback : List Library) : List Library :=
  ((preferred ++ fallback).foldl Merging.step ⟨[], [], []⟩).merged

/-! ### What a library makes superfluous -/

def Library.key (library : Library) : String := libraryMergeKey library.name

/-- Taken in every environment, and only once. -/
def Library.Plain (library : Library) : Prop :=
  library.rules = [] ∧ ¬libraryHasNativeClassifierVariants library = true

/-- A library makes itself superfluous, and the plain ones of its key if it has no rules. -/
def Library.Covers (first second : Library) : Prop :=
  first = second ∨ first.rules = [] ∧ first.key = second.key ∧ second.Plain

instance : DecidableRel Library.Covers := fun _ _ =>
  inferInstanceAs (Decidable (_ ∨ _ ∧ _ ∧ _ ∧ _))

instance : Std.Refl Library.Covers := ⟨fun _ => Or.inl rfl⟩

instance : IsTrans Library Library.Covers where
  trans first second third above below := by
    rcases above with rfl | ⟨everywhere, same, plain⟩
    · exact below
    · rcases below with rfl | ⟨-, again, other⟩
      · exact Or.inr ⟨everywhere, same, plain⟩
      · exact Or.inr ⟨everywhere, same.trans again, other⟩

/-- What the sets of keys are of: all that were kept, and those that have no rules. -/
structure Merging.Represents (state : Merging) : Prop where
  seen : ∀ library ∈ state.merged, library.key ∈ state.seen
  unconditionalSeen : ∀ key, key ∈ state.unconditionalSeen ↔
    ∃ library ∈ state.merged, library.rules = [] ∧ library.key = key

variable {state : Merging}

theorem Merging.Represents.step (represents : state.Represents) (library : Library) :
    (state.step library).Represents ∧
      (state.step library).merged = Sieve.add Library.Covers state.merged library := by
  unfold Merging.step Sieve.add
  dsimp only
  split
  · rename_i again
    rw [if_pos ⟨library, again, Or.inl rfl⟩]
    exact ⟨represents, rfl⟩
  · rename_i fresh
    have grown : ∀ other ∈ state.merged, other.key ∈ state.seen.insert library.key :=
      fun other member => List.mem_insert_of_mem (represents.seen other member)
    split
    · rename_i superfluous
      obtain ⟨-, plain, native, unconditional⟩ := superfluous
      obtain ⟨other, member, everywhere, same⟩ :=
        (represents.unconditionalSeen _).mp unconditional
      rw [if_pos ⟨other, member, Or.inr ⟨everywhere, same, plain, native⟩⟩]
      exact ⟨⟨grown, represents.unconditionalSeen⟩, rfl⟩
    · rename_i needed
      have uncovered : ¬∃ other ∈ state.merged, other.Covers library := by
        rintro ⟨other, member, rfl | ⟨everywhere, same, plain, native⟩⟩
        · exact fresh member
        · have known : library.key ∈ state.seen := same ▸ represents.seen other member
          exact needed ⟨known, plain, native,
            (represents.unconditionalSeen _).mpr ⟨other, member, everywhere, same⟩⟩
      rw [if_neg uncovered]
      refine ⟨⟨fun other member => ?_, fun key => ?_⟩, rfl⟩
      · rcases List.mem_append.mp member with earlier | last
        · exact grown other earlier
        · rw [List.mem_singleton.mp last]
          exact List.mem_insert_self
      · simp only [List.mem_append, List.mem_singleton, or_and_right, exists_or,
          exists_eq_left, ← represents.unconditionalSeen]
        split
        · rename_i everywhere
          simp only [everywhere, true_and, List.mem_insert_iff]
          rw [or_comm, eq_comm]
          rfl
        · rename_i conditional
          simp only [conditional, false_and, or_false]

theorem Merging.Represents.foldl (represents : state.Represents) (libraries : List Library) :
    (libraries.foldl Merging.step state).merged =
      Sieve.sieveFrom Library.Covers state.merged libraries := by
  induction libraries generalizing state with
  | nil => rfl
  | cons library libraries ih =>
    obtain ⟨represents, kept⟩ := represents.step library
    rw [List.foldl_cons, ih represents, kept]
    rfl

/-- A merge keeps what nothing before it makes superfluous. -/
theorem mergeLibrariesPreferFirst_eq (preferred fallback : List Library) :
    mergeLibrariesPreferFirst preferred fallback =
      Sieve.sieve Library.Covers (preferred ++ fallback) :=
  (show Merging.Represents ⟨[], [], []⟩ from ⟨nofun, fun _ => by simp⟩).foldl _

/-! ### Chains of versions -/

/-- The ways to merge the versions of a chain, the version itself first. -/
inductive Inheritance where
  | version (libraries : List Library)
  | inheriting (child parent : Inheritance)

def Inheritance.libraries : Inheritance → List Library
  | version libraries => libraries
  | inheriting child parent => mergeLibrariesPreferFirst child.libraries parent.libraries

/-- All that the versions of a chain declare. -/
def Inheritance.declared : Inheritance → List Library
  | version libraries => libraries
  | inheriting child parent => child.declared ++ parent.declared

/-- However a chain is grouped, it is one merge of all its libraries. -/
theorem Inheritance.sieve_libraries (chain : Inheritance) :
    Sieve.sieve Library.Covers chain.libraries = Sieve.sieve Library.Covers chain.declared := by
  induction chain with
  | version libraries => rfl
  | inheriting child parent childHypothesis parentHypothesis =>
    rw [libraries, declared, mergeLibrariesPreferFirst_eq, Sieve.sieve_sieve,
      ← Sieve.sieve_sieve_append, ← Sieve.sieve_append_sieve, childHypothesis, parentHypothesis,
      Sieve.sieve_append_sieve, Sieve.sieve_sieve_append]

theorem Inheritance.libraries_eq (child parent : Inheritance) :
    mergeLibrariesPreferFirst child.libraries parent.libraries =
      Sieve.sieve Library.Covers (child.declared ++ parent.declared) := by
  have whole := (Inheritance.inheriting child parent).sieve_libraries
  rwa [libraries, declared, mergeLibrariesPreferFirst_eq, Sieve.sieve_sieve,
    ← mergeLibrariesPreferFirst_eq] at whole

/-- Merging once is enough, merges may be grouped, and the libraries of a version depend only on
what its chain declares. -/
theorem merge_idempotent_assoc :
    (∀ libraries, mergeLibrariesPreferFirst (mergeLibrariesPreferFirst libraries []) [] =
      mergeLibrariesPreferFirst libraries []) ∧
    (∀ first second third,
      mergeLibrariesPreferFirst (mergeLibrariesPreferFirst first second) third =
        mergeLibrariesPreferFirst first (mergeLibrariesPreferFirst second third)) ∧
    ∀ child parent other ancestor : Inheritance,
      child.declared ++ parent.declared = other.declared ++ ancestor.declared →
      mergeLibrariesPreferFirst child.libraries parent.libraries =
        mergeLibrariesPreferFirst other.libraries ancestor.libraries := by
  refine ⟨fun libraries => ?_, fun first second third => ?_,
    fun child parent other ancestor same => ?_⟩
  · simp only [mergeLibrariesPreferFirst_eq, List.append_nil, Sieve.sieve_sieve]
  · simp only [mergeLibrariesPreferFirst_eq]
    rw [Sieve.sieve_sieve_append, Sieve.sieve_append_sieve, List.append_assoc]
  · rw [Inheritance.libraries_eq, Inheritance.libraries_eq, same]

end Axial.Minecraft.Launch
