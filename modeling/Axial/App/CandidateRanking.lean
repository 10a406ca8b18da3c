/-
This file proves what `rank_candidates` returns: a candidate for each loader worth
considering and each release that some item supports with it, with the number of items
that do. The releases are sorted by a key that some of them share, such as 1.20 and
1.020, and equal ones are removed where they stand side by side: where no two of the
releases share a key, no candidate is repeated.
-/

import Axial.App.Compatibility
import Axial.Library.Comparison

namespace Axial.App

open Axial.Comparison List
open Axial.Minecraft (LoaderComponentId)

/-! ### Releases -/

section Destutter

variable {Item : Type} [DecidableEq Item]

theorem mem_destutter_iff {item : Item} {items : List Item} :
    item ∈ items.destutter (· ≠ ·) ↔ item ∈ items := by
  refine ⟨fun member => (destutter_sublist _ _).subset member, fun member => ?_⟩
  cases items with
  | nil => cases member
  | cons first rest =>
    rw [destutter_cons']
    induction rest generalizing first with
    | nil => exact member
    | cons second rest ih =>
      by_cases different : first ≠ second
      · rw [destutter'_cons_pos _ different]
        rcases mem_cons.mp member with rfl | later
        · exact mem_cons_self
        · exact mem_cons_of_mem _ (ih _ later)
      · rw [destutter'_cons_neg _ different]
        obtain rfl : first = second := not_not.mp different
        exact ih _ (by simpa using member)

/-- In an order by a key that tells the items apart, no item is left twice once equal neighbours
are removed. -/
theorem nodup_destutter {Key : Type} [LinearOrder Key] (key : Item → Key) {items : List Item}
    (sorted : items.Pairwise fun left right => key right ≤ key left)
    (separate : ∀ left ∈ items, ∀ right ∈ items, key left = key right → left = right) :
    (items.destutter (· ≠ ·)).Nodup := by
  have chain : (items.destutter (· ≠ ·)).IsChain fun left right => key right < key left := by
    have neighbours := isChain_iff_getElem.mp (isChain_destutter (· ≠ ·) items)
    have kept := pairwise_iff_getElem.mp
      (sorted.sublist (destutter_sublist (· ≠ ·) items))
    rw [isChain_iff_getElem]
    intro index inside
    refine lt_of_le_of_ne (kept index (index + 1) (by omega) inside (by omega)) fun same => ?_
    exact neighbours index inside (separate _ (mem_destutter_iff.mp (getElem_mem _)) _
      (mem_destutter_iff.mp (getElem_mem _)) same.symm)
  have decreasing := isChain_iff_pairwise.mp chain
  exact decreasing.imp fun below equal => absurd (congrArg key equal) (ne_of_gt below)

end Destutter

/-- A version that an item can be installed in, and the releases it is for. -/
def Offered (items : List CompatItem) (gameVersion : String) : Prop :=
  ∃ item ∈ items, ∃ version ∈ item.versions,
    version.installable = true ∧ gameVersion ∈ version.gameVersions

variable {items : List CompatItem} {gameVersion : String}

theorem mem_candidateGameVersions :
    gameVersion ∈ candidateGameVersions items ↔
      isReleaseVersion gameVersion = true ∧ Offered items gameVersion := by
  unfold candidateGameVersions dedupConsecutive Offered
  rw [mem_destutter_iff, mem_insertionSort, mem_filter, and_comm]
  simp only [mem_flatMap, mem_filter]
  refine and_congr_right fun _ => ⟨?_, ?_⟩
  · rintro ⟨version, ⟨⟨item, member, listed⟩, installable⟩, named⟩
    exact ⟨item, member, version, listed, installable, named⟩
  · rintro ⟨item, member, version, listed, installable, named⟩
    exact ⟨version, ⟨⟨item, member, listed⟩, installable⟩, named⟩

/-- No two of the releases that the items are for have one key. -/
def KeysSeparate (items : List CompatItem) : Prop :=
  ∀ left right, isReleaseVersion left = true → Offered items left → isReleaseVersion right = true →
    Offered items right → versionKey left = versionKey right → left = right

theorem nodup_candidateGameVersions (separate : KeysSeparate items) :
    (candidateGameVersions items).Nodup := by
  refine nodup_destutter versionKey ?_ ?_
  · exact pairwise_insertionSort _ _
  · intro left leftMember right rightMember
    have leftOffered := mem_candidateGameVersions.mp (mem_destutter_iff.mpr leftMember)
    have rightOffered := mem_candidateGameVersions.mp (mem_destutter_iff.mpr rightMember)
    exact separate left right leftOffered.1 leftOffered.2 rightOffered.1 rightOffered.2

/-! ### Loaders -/

/-- An installable version of an item that needs a loader is for this one. -/
def Ships (items : List CompatItem) (loader : LoaderComponentId) : Prop :=
  ∃ item ∈ items, item.kind.filtersByLoader = true ∧
    ∃ version ∈ item.versions, version.installable = true ∧ loader ∈ version.loaders

/-- The loaders worth considering: those that items which need one ship for, and none at all if
there are no such loaders. -/
def Considered (items : List CompatItem) : Option LoaderComponentId → Prop
  | some loader => Ships items loader
  | none => ∀ loader, ¬ Ships items loader

theorem mem_rankedLoaders (loader : LoaderComponentId) : loader ∈ rankedLoaders := by
  cases loader <;> decide

/-- The loaders that items which need one ship for. -/
def shippedLoaders (items : List CompatItem) : List LoaderComponentId :=
  rankedLoaders.filter fun loader => items.any fun item =>
    item.kind.filtersByLoader && item.versions.any fun version =>
      version.installable && decide (loader ∈ version.loaders)

theorem mem_shippedLoaders {loader : LoaderComponentId} :
    loader ∈ shippedLoaders items ↔ Ships items loader := by
  simp [shippedLoaders, Ships, mem_rankedLoaders]

theorem candidateLoaders_eq (items : List CompatItem) :
    candidateLoaders items =
      if shippedLoaders items = [] then [none] else (shippedLoaders items).map some := by
  unfold candidateLoaders
  split
  case isTrue => rfl
  case isFalse unfiltered =>
    rw [if_pos]
    refine eq_nil_iff_forall_not_mem.mpr fun loader member => unfiltered ?_
    obtain ⟨item, inside, filtered, -⟩ := mem_shippedLoaders.mp member
    exact any_eq_true.mpr ⟨item, inside, filtered⟩

variable {loader : Option LoaderComponentId}

theorem mem_candidateLoaders : loader ∈ candidateLoaders items ↔ Considered items loader := by
  rw [candidateLoaders_eq]
  cases loader with
  | none =>
    simp only [Considered, ← mem_shippedLoaders, ← eq_nil_iff_forall_not_mem]
    by_cases nothing : shippedLoaders items = [] <;> simp [nothing]
  | some loader =>
    simp only [Considered, ← mem_shippedLoaders]
    by_cases nothing : shippedLoaders items = [] <;> simp [nothing]

theorem nodup_candidateLoaders (items : List CompatItem) : (candidateLoaders items).Nodup := by
  rw [candidateLoaders_eq]
  split
  · exact nodup_singleton _
  · have ranked : rankedLoaders.Nodup := by decide
    exact (ranked.filter _).map (Option.some_injective _)

theorem loaderKey_injective : Function.Injective loaderKey := by
  intro left right same
  rcases left with _ | left <;> rcases right with _ | right
  · rfl
  · cases right <;> exact absurd same (by decide)
  · cases left <;> exact absurd same (by decide)
  · cases left <;> cases right <;> first | rfl | exact absurd same (by decide)

/-! ### Candidates -/

/-- The items that a pair supports. -/
def supporting (items : List CompatItem) (loader : Option LoaderComponentId)
    (gameVersion : String) : List CompatItem :=
  items.filter fun item => itemSupports item loader gameVersion

variable {item : CompatItem}

theorem offered_of_supports (member : item ∈ items)
    (supports : itemSupports item loader gameVersion = true) : Offered items gameVersion := by
  obtain ⟨version, listed, holds⟩ := any_eq_true.mp supports
  simp only [Bool.and_eq_true, any_eq_true, decide_eq_true_eq] at holds
  obtain ⟨⟨installable, named, inside, rfl⟩, -⟩ := holds
  exact ⟨item, member, version, listed, installable, inside⟩

theorem length_supporting (items : List CompatItem) (loader : Option LoaderComponentId)
    (gameVersion : String) :
    items.length - (items.filter fun item => !itemSupports item loader gameVersion).length =
      (supporting items loader gameVersion).length := by
  have parts := length_eq_length_filter_add (l := items)
    fun item => itemSupports item loader gameVersion
  rw [supporting]
  omega

variable {candidate : CompatCandidate}

theorem rankCandidate_eq_some (built : rankCandidate items loader gameVersion = some candidate) :
    candidate.loader = loaderKey loader ∧ candidate.gameVersion = gameVersion ∧
      supporting items loader gameVersion ≠ [] ∧
      candidate.supportedCount = (supporting items loader gameVersion).length ∧
      candidate.totalCount = items.length ∧
      (candidate.complete = true ↔
        (supporting items loader gameVersion).length = items.length) := by
  simp only [rankCandidate, length_supporting, Option.ite_none_left_eq_some,
    Option.some.injEq] at built
  obtain ⟨some, rfl⟩ := built
  exact ⟨rfl, rfl, fun none => some (length_eq_zero_iff.mpr none), rfl, rfl,
    decide_eq_true_iff⟩

theorem mem_rankCandidates :
    candidate ∈ rankCandidates items ↔
      ∃ loader ∈ candidateLoaders items, ∃ gameVersion ∈ candidateGameVersions items,
        rankCandidate items loader gameVersion = some candidate := by
  rw [rankCandidates, mem_insertionSort]
  simp only [mem_flatMap, mem_filterMap]

/-- Where a candidate stands. -/
def CompatCandidate.place (candidate : CompatCandidate) : Natᵒᵈ ×ₗ (List Nat)ᵒᵈ ×ₗ Nat :=
  toLex (OrderDual.toDual candidate.supportedCount,
    toLex (OrderDual.toDual (versionKey candidate.gameVersion), loaderRank candidate.loader))

theorem order_versionKeys (left right : CompatCandidate) :
    (compare (versionKey right.gameVersion) (versionKey left.gameVersion)).Compares
      (OrderDual.toDual (versionKey left.gameVersion))
      (OrderDual.toDual (versionKey right.gameVersion)) := by
  rw [← Ordering.compares_swap, toDual_compares_toDual, Ordering.compares_swap]
  exact compares_compareLex _ _

theorem candidateOrder_compares (left right : CompatCandidate) :
    (candidateOrder left right).Compares left.place right.place :=
  compares_then (compares_compare (OrderDual.toDual left.supportedCount) _)
    (compares_then (order_versionKeys left right)
      (compares_compare (loaderRank left.loader) _))

theorem pairwise_candidateOrder (candidates : List CompatCandidate) :
    (candidates.insertionSort fun left right => candidateOrder left right ≠ .gt).Pairwise
      fun left right => candidateOrder left right ≠ .gt := by
  simp only [(candidateOrder_compares _ _).ne_gt]
  exact pairwise_insertionSort (fun left right => left.place ≤ right.place) candidates

/-- Every pair that is worth considering and that some item supports has a candidate, no other
has, and each candidate tells how many items its pair supports, and whether that is all of them;
the candidates are in order. Where no two of the releases share a key, no pair has two. -/
structure RanksSupported (items : List CompatItem) (candidates : List CompatCandidate) :
    Prop where
  every : ∀ loader gameVersion, Considered items loader → isReleaseVersion gameVersion = true →
    (∃ item ∈ items, itemSupports item loader gameVersion = true) →
    ∃ candidate ∈ candidates, candidate.loader = loaderKey loader ∧
      candidate.gameVersion = gameVersion
  other : ∀ candidate ∈ candidates, ∃ loader, Considered items loader ∧
    candidate.loader = loaderKey loader ∧ isReleaseVersion candidate.gameVersion = true ∧
    (∃ item ∈ items, itemSupports item loader candidate.gameVersion = true) ∧
    candidate.supportedCount =
      (items.filter fun item => itemSupports item loader candidate.gameVersion).length ∧
    candidate.totalCount = items.length ∧
    (candidate.complete = true ↔
      ∀ item ∈ items, itemSupports item loader candidate.gameVersion = true)
  ordered : candidates.Pairwise fun left right => candidateOrder left right ≠ .gt
  once : KeysSeparate items →
    (candidates.map fun candidate => (candidate.loader, candidate.gameVersion)).Nodup

theorem exists_candidate (considered : Considered items loader)
    (release : isReleaseVersion gameVersion = true) (member : item ∈ items)
    (supports : itemSupports item loader gameVersion = true) :
    ∃ candidate ∈ rankCandidates items, candidate.loader = loaderKey loader ∧
      candidate.gameVersion = gameVersion := by
  have supported : (supporting items loader gameVersion).length ≠ 0 :=
    (length_pos_of_mem (mem_filter.mpr ⟨member, supports⟩)).ne'
  have offered := mem_candidateGameVersions.mpr ⟨release, offered_of_supports member supports⟩
  cases built : rankCandidate items loader gameVersion with
  | none => simp [rankCandidate, length_supporting, supported] at built
  | some candidate =>
    obtain ⟨named, version, -⟩ := rankCandidate_eq_some built
    exact ⟨candidate, mem_rankCandidates.mpr ⟨loader, mem_candidateLoaders.mpr considered,
      gameVersion, offered, built⟩, named, version⟩

theorem candidate_supported (ranked : candidate ∈ rankCandidates items) :
    ∃ loader, Considered items loader ∧
      candidate.loader = loaderKey loader ∧ isReleaseVersion candidate.gameVersion = true ∧
      (∃ item ∈ items, itemSupports item loader candidate.gameVersion = true) ∧
      candidate.supportedCount =
        (items.filter fun item => itemSupports item loader candidate.gameVersion).length ∧
      candidate.totalCount = items.length ∧
      (candidate.complete = true ↔
        ∀ item ∈ items, itemSupports item loader candidate.gameVersion = true) := by
  obtain ⟨loader, considered, gameVersion, offered, built⟩ := mem_rankCandidates.mp ranked
  obtain ⟨named, rfl, some, count, total, complete⟩ := rankCandidate_eq_some built
  obtain ⟨item, kept⟩ := exists_mem_of_ne_nil _ some
  refine ⟨loader, mem_candidateLoaders.mp considered, named,
    (mem_candidateGameVersions.mp offered).1, ⟨item, mem_filter.mp kept⟩, count, total, ?_⟩
  rw [complete, supporting, length_filter_eq_length_iff]

theorem map_filterMap_sublist {First Second : Type} {make : First → Option Second}
    {back : Second → First} (inverse : ∀ first second, make first = some second →
      back second = first) (firsts : List First) :
    ((firsts.filterMap make).map back).Sublist firsts := by
  induction firsts with
  | nil => exact List.Sublist.refl _
  | cons first firsts ih =>
    cases made : make first with
    | none => simpa [made] using ih.cons first
    | some second => simpa [made, inverse first second made] using ih.cons_cons first

/-- Where the releases are distinct, so are the pairs of a loader and a release. -/
theorem nodup_rankCandidates (separate : KeysSeparate items) :
    ((rankCandidates items).map fun candidate =>
      (candidate.loader, candidate.gameVersion)).Nodup := by
  rw [rankCandidates, ((perm_insertionSort _ _).map _).nodup_iff, map_flatMap,
    nodup_flatMap]
  have pairs : ∀ loader pair, pair ∈ ((candidateGameVersions items).filterMap
      (rankCandidate items loader)).map (fun candidate =>
        (candidate.loader, candidate.gameVersion)) → pair.1 = loaderKey loader := by
    intro loader pair member
    obtain ⟨candidate, listed, rfl⟩ := mem_map.mp member
    obtain ⟨gameVersion, -, built⟩ := mem_filterMap.mp listed
    exact (rankCandidate_eq_some built).1
  constructor
  · intro loader considered
    refine List.Nodup.of_map Prod.snd ?_
    refine (nodup_candidateGameVersions separate).sublist ?_
    rw [map_map]
    exact map_filterMap_sublist (fun _ _ built => (rankCandidate_eq_some built).2.1) _
  · refine (nodup_candidateLoaders items).imp fun different => ?_
    intro pair first second
    exact different (loaderKey_injective ((pairs _ _ first).symm.trans (pairs _ _ second)))

theorem rankCandidates_supported (items : List CompatItem) :
    RanksSupported items (rankCandidates items) where
  every _ _ considered release := fun ⟨_, member, supports⟩ =>
    exists_candidate considered release member supports
  other _ ranked := candidate_supported ranked
  ordered := pairwise_candidateOrder _
  once := nodup_rankCandidates

/-- A resource pack with one version, for these releases. -/
def packFor (gameVersions : List String) : CompatItem where
  canonicalId := ⟨"modrinth:AANobbMI"⟩
  title := "Pack"
  kind := .resourcePack
  versions := [{ loaders := [], gameVersions, installable := true }]

/-- A resource pack is supported with every loader, and gets the candidate without one only; and
one whose release is listed twice, with another spelling of it between, gets two. -/
theorem rankCandidates_pack :
    (itemSupports (packFor ["1.21.1"]) (some .fabric) "1.21.1" = true ∧
        isReleaseVersion "1.21.1" = true ∧
        ∀ candidate ∈ rankCandidates [packFor ["1.21.1"]],
          candidate.loader ≠ loaderKey (some .fabric)) ∧
      (rankCandidates [packFor ["1.20", "1.020", "1.20"]]).map CompatCandidate.gameVersion =
        ["1.20", "1.020", "1.20"] := by
  decide

end Axial.App
