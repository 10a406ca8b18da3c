/-
This file proves that the choice of a version does not depend on the order in which the
provider lists things (`core/app/src/content/resolve.rs`). Versions are ranked by
channel, publication and id, and dependencies by kind, project and version, and both
ranks tell any two of them apart; so a choice made from another listing is of the same
version, and its dependencies are taken in the same order.
-/

import Axial.App.CandidateRanking

namespace Axial.App

open Axial.Comparison List Option

/-! ### The choices -/

def pickVersion (versions : List ContentVersion) (forced : Option String) :
    Option ContentVersion :=
  match forced with
  | some forced => versions.find? fun version => version.id = forced && version.primaryFile.isSome
  | none => maxBy compareVersionRank (versions.filter fun version => version.primaryFile.isSome)

def newerVersion (versions : List ContentVersion) (currentVersionId : String) :
    Option ContentVersion :=
  match pickVersion versions none with
  | none => none
  | some picked =>
    if picked.id = currentVersionId then none
    else
      match versions.find? fun version => version.id = currentVersionId with
      | some current => if compareVersionRank picked current = .gt then some picked else none
      | none => some picked

/-! ### Ranks -/

/-- A text that may be absent, which it is before all others. -/
def absentFirst : Option String → WithBot String
  | none => ⊥
  | some text => ↑text

theorem absentFirst_injective : Function.Injective absentFirst := by
  rintro (_ | left) (_ | right) same
  · rfl
  · cases same
  · cases same
  · rw [WithBot.coe_injective same]

theorem compares_absentFirst (left right : Option String) :
    (compare left right).Compares (absentFirst left) (absentFirst right) := by
  rcases left with _ | left <;> rcases right with _ | right
  · exact rfl
  · exact WithBot.bot_lt_coe _
  · exact WithBot.bot_lt_coe _
  · have compares := compares_compare left right
    change (compare left right).Compares (left : WithBot String) (right : WithBot String)
    revert compares
    generalize compare left right = order
    cases order
    · exact WithBot.coe_lt_coe.mpr
    · exact congrArg _
    · exact WithBot.coe_lt_coe.mpr

/-- What a version is ranked by. -/
def ContentVersion.rank (version : ContentVersion) : Nat ×ₗ WithBot String ×ₗ String :=
  toLex (releaseChannelRank version.channel, toLex (absentFirst version.published, version.id))

theorem compareVersionRank_compares (left right : ContentVersion) :
    (compareVersionRank left right).Compares left.rank right.rank :=
  compares_then (compares_compare _ _)
    (compares_then (compares_absentFirst left.published right.published) (compares_compare _ _))

variable {right left : ContentVersion}

theorem id_eq_of_rank_eq (same : left.rank = right.rank) : left.id = right.id :=
  (Prod.mk.inj (toLex.injective (Prod.mk.inj (toLex.injective same)).2)).2

/-- What a dependency is taken by. -/
def ContentDependency.rank (dependency : ContentDependency) :
    Nat ×ₗ WithBot String ×ₗ WithBot String :=
  toLex (dependencyKindRank dependency.kind,
    toLex (absentFirst dependency.projectId, absentFirst dependency.versionId))

theorem compareDependencies_compares (left right : ContentDependency) :
    (compareDependencies left right).Compares left.rank right.rank :=
  compares_then (compares_compare _ _)
    (compares_then (compares_absentFirst left.projectId right.projectId)
      (compares_absentFirst left.versionId right.versionId))

theorem dependencyKindRank_injective : Function.Injective dependencyKindRank := by
  intro left right same
  cases left <;> cases right <;> first | rfl | exact absurd same (by decide)

theorem dependency_rank_injective : Function.Injective ContentDependency.rank := by
  rintro ⟨project, version, kind⟩ ⟨project', version', kind'⟩ same
  obtain ⟨kinds, rest⟩ := Prod.mk.inj (toLex.injective same)
  obtain ⟨projects, versions⟩ := Prod.mk.inj (toLex.injective rest)
  obtain rfl : kind = kind' := dependencyKindRank_injective kinds
  obtain rfl : project = project' := absentFirst_injective projects
  obtain rfl : version = version' := absentFirst_injective versions
  rfl

/-- Dependencies are taken in one order, however they are listed. -/
theorem sortDependencies_perm {listed relisted : List ContentDependency}
    (permuted : listed.Perm relisted) : sortDependencies listed = sortDependencies relisted := by
  have sorted : ∀ dependencies, (sortDependencies dependencies).Pairwise
      fun left right => left.rank ≤ right.rank := by
    intro dependencies
    simp only [sortDependencies, (compareDependencies_compares _ _).ne_gt]
    exact pairwise_insertionSort
      (fun left right : ContentDependency => left.rank ≤ right.rank) dependencies
  refine List.Perm.eq_of_pairwise ?_ (sorted listed) (sorted relisted) ?_
  · intro left right _ _ le ge
    exact dependency_rank_injective (le_antisymm le ge)
  · exact (perm_insertionSort _ _).trans
      (permuted.trans (perm_insertionSort _ _).symm)

/-! ### Listings -/

/-- A version, and the same with its dependencies listed in another order. -/
structure Relisted (version other : ContentVersion) : Prop where
  dependencies : version.dependencies.Perm other.dependencies
  rest : other = { version with dependencies := other.dependencies }

/-- The same versions, listed in another order and each with its dependencies in another order. -/
def ListedAnew (versions others : List ContentVersion) : Prop :=
  ∃ permuted, versions.Perm permuted ∧ List.Forall₂ Relisted permuted others

variable {version other : ContentVersion}

section

variable (relisted : Relisted version other)

include relisted

theorem Relisted.id_eq :
    other.id = version.id := by rw [relisted.rest]

theorem Relisted.rank_eq : other.rank = version.rank := by
  rw [relisted.rest]
  rfl

theorem Relisted.primaryFile_eq : other.primaryFile = version.primaryFile := by
  rw [relisted.rest]
  rfl

theorem Relisted.versionMatchesTarget_eq (target : ResolutionTarget) (kind : ContentKind) :
    versionMatchesTarget other target kind = versionMatchesTarget version target kind := by
  rw [relisted.rest]
  rfl

end

variable {versions others : List ContentVersion}

theorem ListedAnew.exists_relisted (anew : ListedAnew versions others) (member : version ∈ versions)
    : ∃ other ∈ others, Relisted version other := by
  obtain ⟨permuted, perm, pairs⟩ := anew
  obtain ⟨index, inside, rfl⟩ := getElem_of_mem (perm.subset member)
  have bound : index < others.length := pairs.length_eq ▸ inside
  exact ⟨others[index], getElem_mem _, List.Forall₂.get pairs inside bound⟩

theorem ListedAnew.exists_listed (anew : ListedAnew versions others) (member : other ∈ others) :
    ∃ version ∈ versions, Relisted version other := by
  obtain ⟨permuted, perm, pairs⟩ := anew
  obtain ⟨index, inside, rfl⟩ := getElem_of_mem member
  have bound : index < permuted.length := pairs.length_eq ▸ inside
  exact ⟨permuted[index], perm.symm.subset (getElem_mem _),
    List.Forall₂.get pairs bound inside⟩

theorem map_id_of_relisted (pairs : List.Forall₂ Relisted versions others) :
    versions.map ContentVersion.id = others.map ContentVersion.id := by
  induction pairs with
  | nil => rfl
  | cons relisted _ ih =>
    rw [map_cons, map_cons, relisted.id_eq, ih]

theorem ListedAnew.ids (anew : ListedAnew versions others)
    (distinct : (versions.map ContentVersion.id).Nodup) : (others.map ContentVersion.id).Nodup := by
  obtain ⟨permuted, perm, pairs⟩ := anew
  rw [← map_id_of_relisted pairs]
  exact ((perm.map _).nodup_iff).mp distinct

/-! ### What is chosen -/

/-- The choice is the highest of the suitable versions, if there is one. -/
structure Chooses (suitable : ContentVersion → Bool) (versions : List ContentVersion)
    (choice : Option ContentVersion) : Prop where
  none : choice = none → ∀ version ∈ versions, suitable version = false
  some : ∀ chosen, choice = some chosen → chosen ∈ versions ∧ suitable chosen = true ∧
    ∀ version ∈ versions, suitable version = true → version.rank ≤ chosen.rank

theorem rank_le_foldl (versions : List ContentVersion) (first : ContentVersion) :
    ∀ version ∈ first :: versions, version.rank ≤ (versions.foldl (fun best next =>
      if compareVersionRank best next = .gt then best else next) first).rank := by
  induction versions generalizing first with
  | nil => simp
  | cons next versions ih =>
    intro version member
    rw [foldl_cons]
    set best := if compareVersionRank first next = .gt then first else next with chosen
    have later := ih best
    have above : first.rank ≤ best.rank ∧ next.rank ≤ best.rank := by
      rw [chosen]
      split
      · rename_i greater
        rw [(compareVersionRank_compares _ _).eq_gt] at greater
        exact ⟨le_rfl, greater.le⟩
      · rename_i notGreater
        exact ⟨(compareVersionRank_compares _ _).ne_gt.mp notGreater, le_rfl⟩
    have reached := later best mem_cons_self
    rcases mem_cons.mp member with rfl | member
    · exact above.1.trans reached
    · rcases mem_cons.mp member with rfl | member
      · exact above.2.trans reached
      · exact later version (mem_cons_of_mem _ member)

theorem chooses_maxBy (suitable : ContentVersion → Bool) (versions : List ContentVersion) :
    Chooses suitable versions (maxBy compareVersionRank (versions.filter suitable)) where
  none nothing version member := by
    by_contra unsuitable
    have kept : version ∈ versions.filter suitable :=
      mem_filter.mpr ⟨member, by simpa using unsuitable⟩
    obtain ⟨best, found⟩ := @exists_maxBy _ compareVersionRank _ (ne_nil_of_mem kept)
    rw [nothing] at found
    cases found
  some chosen found := by
    have kept := mem_filter.mp (maxBy_mem found)
    refine ⟨kept.1, kept.2, fun version member suits => ?_⟩
    have inside := mem_filter.mpr ⟨member, suits⟩
    cases listed : versions.filter suitable with
    | nil => simp [listed] at inside
    | cons first rest =>
      rw [listed, maxBy, some_inj] at found
      rw [← found]
      exact rank_le_foldl rest first version (listed ▸ inside)

theorem eq_of_id_eq (distinct : (versions.map ContentVersion.id).Nodup)
    (member : version ∈ versions) (otherMember : other ∈ versions) (same : version.id = other.id) :
    version = other :=
  inj_on_of_nodup_map distinct member otherMember same

variable {suitable : ContentVersion → Bool}

theorem chooses_find (distinct : (versions.map ContentVersion.id).Nodup) (id : String)
    (named : ∀ version, suitable version = true → version.id = id) :
    Chooses suitable versions (versions.find? suitable) where
  none nothing := by simpa using find?_eq_none.mp nothing
  some chosen found := by
    have suits := find?_some found
    have inside := mem_of_find?_eq_some found
    refine ⟨inside, suits, fun version member other => le_of_eq ?_⟩
    rw [eq_of_id_eq distinct member inside ((named _ other).trans (named _ suits).symm)]

/-- What is chosen from one listing is chosen from another. -/
theorem Chooses.relisted {choice otherChoice : Option ContentVersion}
    (chooses : Chooses suitable versions choice)
    (otherChooses : Chooses suitable others otherChoice) (anew : ListedAnew versions others)
    (distinct : (versions.map ContentVersion.id).Nodup)
    (invariant : ∀ version other, Relisted version other → suitable other = suitable version) :
    Option.Rel Relisted choice otherChoice := by
  rcases choice with _ | chosen <;> rcases otherChoice with _ | otherChosen
  · exact .none
  · obtain ⟨inside, suits, -⟩ := otherChooses.some otherChosen rfl
    obtain ⟨version, member, relisted⟩ := anew.exists_listed inside
    have unsuitable := chooses.none rfl version member
    rw [← invariant _ _ relisted, suits] at unsuitable
    cases unsuitable
  · obtain ⟨inside, suits, -⟩ := chooses.some chosen rfl
    obtain ⟨other, member, relisted⟩ := anew.exists_relisted inside
    have unsuitable := otherChooses.none rfl other member
    rw [invariant _ _ relisted, suits] at unsuitable
    cases unsuitable
  · obtain ⟨inside, suits, highest⟩ := chooses.some chosen rfl
    obtain ⟨otherInside, otherSuits, otherHighest⟩ := otherChooses.some otherChosen rfl
    obtain ⟨other, member, relisted⟩ := anew.exists_relisted inside
    obtain ⟨version, listed, otherRelisted⟩ := anew.exists_listed otherInside
    have below := otherHighest other member ((invariant _ _ relisted).trans suits)
    have above := highest version listed ((invariant _ _ otherRelisted).symm.trans otherSuits)
    rw [relisted.rank_eq] at below
    rw [← otherRelisted.rank_eq] at above
    have ids : version.id = chosen.id :=
      otherRelisted.id_eq.symm.trans (id_eq_of_rank_eq (le_antisymm above below))
    rw [eq_of_id_eq distinct listed inside ids] at otherRelisted
    exact .some otherRelisted

section

variable (anew : ListedAnew versions others) (distinct : (versions.map ContentVersion.id).Nodup)

include anew distinct

/-- What is found by its id is found by it in another listing. -/
theorem find_named_relisted (id : String)
    (named : ∀ version, suitable version = true → version.id = id)
    (invariant : ∀ version other, Relisted version other → suitable other = suitable version) :
    Option.Rel Relisted (versions.find? suitable) (others.find? suitable) :=
  (chooses_find distinct id named).relisted (chooses_find (anew.ids distinct) id named) anew
    distinct invariant

theorem pickVersion_relisted (forced : Option String) :
    Option.Rel Relisted (pickVersion versions forced) (pickVersion others forced) := by
  unfold pickVersion
  cases forced with
  | none =>
    refine (chooses_maxBy _ versions).relisted (chooses_maxBy _ others) anew distinct ?_
    intro version other relisted
    rw [relisted.primaryFile_eq]
  | some id =>
    refine find_named_relisted anew distinct id ?_ ?_
    · intro version suits
      exact of_decide_eq_true (Bool.and_eq_true_iff.mp suits).1
    · intro version other relisted
      rw [relisted.primaryFile_eq, relisted.id_eq]

theorem pickCompatibleVersion_relisted (forced : Option String) (target : ResolutionTarget)
    (kind : ContentKind) :
    Option.Rel Relisted (pickCompatibleVersion versions forced target kind)
      (pickCompatibleVersion others forced target kind) := by
  unfold pickCompatibleVersion
  cases forced with
  | none =>
    refine (chooses_maxBy _ versions).relisted (chooses_maxBy _ others) anew distinct ?_
    intro version other relisted
    rw [relisted.primaryFile_eq, relisted.versionMatchesTarget_eq]
  | some id =>
    refine find_named_relisted anew distinct id ?_ ?_
    · intro version suits
      exact of_decide_eq_true (Bool.and_eq_true_iff.mp suits).1
    · intro version other relisted
      rw [relisted.versionMatchesTarget_eq, relisted.id_eq]

theorem find_relisted (id : String) :
    Option.Rel Relisted (versions.find? fun version => version.id = id)
      (others.find? fun version => version.id = id) := by
  refine find_named_relisted anew distinct id ?_ ?_
  · exact fun version named => of_decide_eq_true named
  · intro version other relisted
    rw [relisted.id_eq]

end

theorem Relisted.compareVersionRank_eq {left' right' : ContentVersion} (first : Relisted left left')
    (second : Relisted right right') :
    compareVersionRank left' right' = compareVersionRank left right := by
  rw [first.rest, second.rest]
  rfl

theorem newerVersion_relisted (anew : ListedAnew versions others)
    (distinct : (versions.map ContentVersion.id).Nodup) (currentVersionId : String) :
    Option.Rel Relisted (newerVersion versions currentVersionId)
      (newerVersion others currentVersionId) := by
  have picks := pickVersion_relisted anew distinct none
  have finds := find_relisted anew distinct currentVersionId
  unfold newerVersion
  revert picks finds
  generalize pickVersion versions none = picked, pickVersion others none = otherPicked,
    versions.find? (fun version => version.id = currentVersionId) = found,
    others.find? (fun version => version.id = currentVersionId) = otherFound
  intro picks finds
  cases picks with
  | none => exact .none
  | some relisted =>
    simp only [relisted.id_eq]
    split
    · exact .none
    · cases finds with
      | none => exact .some relisted
      | some current =>
        simp only [relisted.compareVersionRank_eq current]
        split
        · exact .some relisted
        · exact .none

/-- However the provider lists the versions, and the dependencies of each, the same version is
chosen, and dependencies are taken in the same order. -/
theorem choice_of_listing (versions others : List ContentVersion)
    (distinct : (versions.map ContentVersion.id).Nodup) (anew : ListedAnew versions others) :
    (∀ forced target kind, Option.Rel Relisted (pickCompatibleVersion versions forced target kind)
        (pickCompatibleVersion others forced target kind)) ∧
      (∀ forced, Option.Rel Relisted (pickVersion versions forced) (pickVersion others forced)) ∧
      (∀ currentVersionId, Option.Rel Relisted (newerVersion versions currentVersionId)
        (newerVersion others currentVersionId)) ∧
      ∀ version other identities, Relisted version other →
        sortDependencies
            (canonicalizeVersionOnlyDependencies version.dependencies identities) =
          sortDependencies
            (canonicalizeVersionOnlyDependencies other.dependencies identities) :=
  ⟨pickCompatibleVersion_relisted anew distinct, pickVersion_relisted anew distinct,
    newerVersion_relisted anew distinct, fun _ _ _ relisted =>
      sortDependencies_perm (relisted.dependencies.map _)⟩

/-- A version with two dependencies, listed in this order. -/
def versionNamed (id : String) (dependencies : List ContentDependency) : ContentVersion :=
  { sodiumVersion with id, dependencies }

def fabricApi : ContentDependency := ⟨some "P7dR8mSH", none, .required⟩

def iris : ContentDependency := ⟨none, some "iris-1", .incompatible⟩

theorem choice_of_listing_sodium :
    Option.Rel Relisted
      (newerVersion [versionNamed "a" [fabricApi, iris], versionNamed "b" [iris, fabricApi]] "a")
      (newerVersion [versionNamed "b" [fabricApi, iris], versionNamed "a" [fabricApi, iris]]
        "a") :=
  (choice_of_listing [versionNamed "a" [fabricApi, iris], versionNamed "b" [iris, fabricApi]]
    [versionNamed "b" [fabricApi, iris], versionNamed "a" [fabricApi, iris]] (by decide)
    ⟨[versionNamed "b" [iris, fabricApi], versionNamed "a" [fabricApi, iris]],
      List.Perm.swap _ _ _, .cons ⟨List.Perm.swap _ _ _, rfl⟩
        (.cons ⟨List.Perm.refl _, rfl⟩ .nil)⟩).2.2.1 "a"

end Axial.App
