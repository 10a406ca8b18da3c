/-
This file compares the projection of a known-good inventory with the table that a
component transaction writes. A projection that returns has sorted its entries and has
found no path twice and none below another, in their exact spelling. Its rows are made
and accepted if and only if their paths are representable and their contents are known by a
digest alone.
-/

import Axial.Minecraft.KnownGoodRows

namespace Axial.Minecraft

open Bytes List
open Fallible
open PathTree

variable {unicode : Unicode}

/-! ### Inventories that were built -/

variable {inventory : KnownGoodInventory unicode} {entry : KnownGoodEntry unicode} {Value : Type}

namespace InventoryBuilder

variable {urlIsSupported : String → Bool} {builder after : InventoryBuilder unicode}

/-- The keys of a table after an insertion. -/
theorem length_keys_insert {Key : Type} [DecidableEq Key] (entries : AList fun _ : Key => Value)
    (key : Key) (value : Value) :
    (entries.insert key value).keys.length =
      if key ∈ entries then entries.keys.length else entries.keys.length + 1 := by
  rw [AList.keys_insert, length_cons]
  split
  · rename_i member
    have some : 0 < entries.keys.length := length_pos_of_mem (AList.mem_keys.mp member)
    rw [length_erase_of_mem (AList.mem_keys.mp member)]
    omega
  · rename_i absent
    rw [erase_of_not_mem fun member => absent (AList.mem_keys.mpr member)]

theorem insertWithRepairSource_few {providerUrl : Option String}
    (inserted : builder.insertWithRepairSource urlIsSupported entry providerUrl = .ok after)
    (few : builder.entries.keys.length ≤ maxKnownGoodEntries) :
    after.entries.keys.length ≤ maxKnownGoodEntries := by
  unfold insertWithRepairSource at inserted
  obtain ⟨repairSource, -, inserted⟩ := bind_eq_ok.mp inserted
  split at inserted
  · rename_i existing found
    rw [ite_throw_eq_ok] at inserted
    obtain ⟨-, inserted⟩ := inserted
    have member : entry.inventoryKey ∈ builder.entries := by
      rw [← AList.lookup_isSome, found]
      rfl
    split at inserted
    · rw [ite_throw_eq_ok] at inserted
      cases inserted.2
      exact few
    · cases inserted
      rw [length_keys_insert, if_pos member]
      exact few
    · cases inserted
      exact few
  · rename_i absent
    rw [ite_throw_eq_ok] at inserted
    obtain ⟨room, inserted⟩ := inserted
    cases inserted
    have notMember : entry.inventoryKey ∉ builder.entries := AList.lookup_eq_none.mp absent
    rw [length_keys_insert, if_neg notMember]
    omega

theorem perform_few {insertion : Insertion unicode}
    (performed : builder.perform urlIsSupported insertion = .ok after)
    (few : builder.entries.keys.length ≤ maxKnownGoodEntries) :
    after.entries.keys.length ≤ maxKnownGoodEntries := by
  unfold perform insert insertPreservingRepairSource at performed
  cases insertion with
  | plain | withRepairSource => exact insertWithRepairSource_few performed few
  | preserving sourceInventory ordinal entry =>
    dsimp only at performed
    split at performed
    · split at performed
      · exact insertWithRepairSource_few performed few
      · cases performed
    · exact insertWithRepairSource_few performed few

/-- No inventory has more entries than the builder allows. -/
theorem build_few {insertions : List (Insertion unicode)}
    (built : build urlIsSupported insertions = .ok inventory) :
    inventory.entries.length ≤ maxKnownGoodEntries := by
  unfold build at built
  cases folded : insertions.foldlM (perform urlIsSupported) (⟨∅⟩ : InventoryBuilder unicode) with
  | error error =>
    rw [folded] at built
    cases built
  | ok builder =>
    rw [folded] at built
    cases built
    have few := foldlM_invariant folded (fun before insertion _ after performed few =>
      perform_few performed few) (Nat.zero_le _)
    unfold finish
    dsimp only
    rw [length_map, length_map, length_insertionSort]
    simpa [AList.keys, List.keys] using few

end InventoryBuilder

/-! ### What the projection promises -/

/-- The bytes that an entry has in the projection. -/
def KnownGoodIntegrity.bytes (integrity : KnownGoodIntegrity) : Nat :=
  (integrity.contentSize.map UInt64.toNat).getD 0

variable {projected : ManagedComponentProjectionEntry unicode} {count total : Nat}

theorem projectEntry_eq_ok {component : ManagedKnownGoodComponent} {bytes : Nat} :
    projectEntry component count bytes projected = .ok total ↔
      managedComponentRootKindIsSupported component projected.entry = true ∧
        (∃ size, projected.entry.integrity.contentSize = some size ∧
          size.toNat ≤ maxTier2ArtifactBytes) ∧
        bytes + projected.entry.integrity.bytes ≤ maxTier2AggregateBytes ∧
        bytes + projected.entry.integrity.bytes = total := by
  unfold projectEntry KnownGoodIntegrity.bytes
  dsimp only
  rw [ite_throw_eq_ok, Bool.not_eq_false]
  refine and_congr_right fun _ => ?_
  cases projected.entry.integrity.contentSize with
  | none => simp
  | some size =>
    have limit : maxTier2AggregateBytes < 2 ^ 64 := by decide
    simp only [ite_throw_eq_ok, Except.ok.injEq, Option.map_some, Option.getD_some,
      Option.some.injEq, exists_eq_left', not_lt, ge_iff_le, not_le, gt_iff_lt]
    refine and_congr_right fun _ => ⟨fun ⟨_, small, same⟩ => ⟨small, same⟩,
      fun ⟨small, same⟩ => ⟨by omega, small, same⟩⟩

theorem foldlM_projectEntry {component : ManagedKnownGoodComponent} {start : Nat}
    {entries : List (ManagedComponentProjectionEntry unicode)}
    (folded : entries.foldlM (projectEntry component count) start = .ok total)
    (small : start ≤ maxTier2AggregateBytes) :
    (∀ projected ∈ entries, managedComponentRootKindIsSupported component projected.entry = true ∧
      ∃ size, projected.entry.integrity.contentSize = some size ∧
        size.toNat ≤ maxTier2ArtifactBytes) ∧
      start + (entries.map fun projected => projected.entry.integrity.bytes).sum ≤
        maxTier2AggregateBytes := by
  induction entries generalizing start with
  | nil => simpa using small
  | cons projected entries ih =>
    obtain ⟨middle, here, later⟩ := foldlM_cons_eq_ok.mp folded
    obtain ⟨supported, sized, within, rfl⟩ := projectEntry_eq_ok.mp here
    obtain ⟨each, total⟩ := ih later within
    refine ⟨forall_mem_cons.mpr ⟨⟨supported, sized⟩, each⟩, ?_⟩
    rw [map_cons, sum_cons]
    omega

/-- The root and the path of an entry. -/
def ManagedComponentProjectionEntry.place (projected : ManagedComponentProjectionEntry unicode) :
    KnownGoodRoot unicode × String := (projected.entry.root, projected.entry.path.value)

/-- The table of the paths has every path once. -/
theorem foldlM_insertPath {entries : List (ManagedComponentProjectionEntry unicode)}
    {start entriesByPath : EntriesByPath unicode}
    (folded : entries.foldlM (insertPath count) start = .ok entriesByPath) :
    (entries.map ManagedComponentProjectionEntry.place).Nodup ∧
      (∀ projected ∈ entries, projected.place ∉ start) ∧
      ∀ place, place ∈ entriesByPath ↔
        place ∈ start ∨ place ∈ entries.map ManagedComponentProjectionEntry.place := by
  induction entries generalizing start with
  | nil =>
    rw [foldlM_nil_eq_ok] at folded
    subst folded
    simp
  | cons projected entries ih =>
    obtain ⟨middle, here, later⟩ := foldlM_cons_eq_ok.mp folded
    unfold insertPath at here
    split at here
    · cases here
    · rename_i absent
      cases here
      obtain ⟨distinct, fresh, found⟩ := ih later
      have notMember : projected.place ∉ start := AList.lookup_eq_none.mp absent
      have apart : ∀ other ∈ entries, other.place ≠ projected.place := by
        intro other member same
        refine fresh other member ?_
        rw [AList.mem_insert]
        exact Or.inl same
      refine ⟨?_, ?_, fun place => ?_⟩
      · rw [map_cons, nodup_cons]
        refine ⟨fun member => ?_, distinct⟩
        obtain ⟨other, inside, same⟩ := mem_map.mp member
        exact apart other inside same
      · refine forall_mem_cons.mpr ⟨notMember, fun other member inside => ?_⟩
        refine fresh other member ?_
        rw [AList.mem_insert]
        exact Or.inr inside
      · rw [found, AList.mem_insert, map_cons, mem_cons]
        unfold ManagedComponentProjectionEntry.place
        tauto

theorem validateManagedComponentPathTree_ok
    {entries : List (ManagedComponentProjectionEntry unicode)}
    (valid : validateManagedComponentPathTree count entries = .ok ()) :
    (entries.map ManagedComponentProjectionEntry.place).Nodup ∧
      ∀ projected ∈ entries, ∀ other ∈ entries, projected.entry.root = other.entry.root →
        projected.entry.path.value ∉ ancestorPaths other.entry.path.value := by
  unfold validateManagedComponentPathTree at valid
  obtain ⟨entriesByPath, folded, checked⟩ := bind_eq_ok.mp valid
  obtain ⟨distinct, -, found⟩ := foldlM_insertPath folded
  refine ⟨distinct, fun projected member other inside sameRoot ancestor => ?_⟩
  have clear := forM_eq_ok.mp (forM_eq_ok.mp checked other inside) _ ancestor
  split at clear
  · cases clear
  · rename_i absent
    refine AList.lookup_eq_none.mp absent ((found _).mpr (Or.inr ?_))
    rw [← sameRoot]
    exact mem_map_of_mem member

/-- The entries of a projection, for a component that has a table. -/
structure Projects (component : ManagedComponentKind)
    (entries : List (ManagedComponentProjectionEntry unicode)) : Prop where
  few : entries.length ≤ maxTier2Entries
  ordinals : (entries.map ManagedComponentProjectionEntry.inventoryOrdinal).Nodup
  placed : ∀ projected ∈ entries, projected.inventoryOrdinal < maxTier2Entries
  roots : ∀ projected ∈ entries,
    projected.entry.root = (componentProjectionContract unicode component).2
  kinds : ∀ projected ∈ entries,
    ∃ kind, componentArtifactKind component projected.entry.kind = .ok kind
  small : ∀ projected ∈ entries, projected.entry.integrity.bytes ≤ maxTier2ArtifactBytes
  total : (entries.map fun projected => projected.entry.integrity.bytes).sum ≤
    maxTier2AggregateBytes
  sorted : entries.Pairwise fun first second =>
    first.entry.path.value < second.entry.path.value
  apart : entries.Pairwise fun first second =>
    ¬segments first.entry.path.value <+: segments second.entry.path.value ∧
      ¬segments second.entry.path.value <+: segments first.entry.path.value

theorem selected_ordinals (inventory : KnownGoodInventory unicode)
    (component : ManagedKnownGoodComponent) :
    ((inventory.selected component).map ManagedComponentProjectionEntry.inventoryOrdinal).Sublist
      (List.range inventory.entries.length) := by
  unfold KnownGoodInventory.selected
  refine (filter_sublist.map _).trans ?_
  rw [map_map]
  exact (zipIdx_map_snd 0 inventory.entries ▸ range_eq_range' ▸ List.Sublist.refl _)

theorem kind_of_supported {component : ManagedComponentKind}
    (supported : managedComponentRootKindIsSupported
      (componentProjectionContract unicode component).1 entry = true) :
    entry.root = (componentProjectionContract unicode component).2 ∧
      ∃ kind, componentArtifactKind component entry.kind = .ok kind := by
  obtain ⟨root, path, kind, integrity⟩ := entry
  cases component <;> cases root <;> cases kind <;>
    first
    | exact ⟨rfl, _, rfl⟩
    | cases supported

/-- A path whose segments another begins with is one of its ancestors. -/
theorem mem_ancestorPaths {path other : String} (begins : segments path <+: segments other)
    (apart : path ≠ other) : path ∈ ancestorPaths other := by
  have whole : segments path = (segments other).take (segments path).length :=
    prefix_iff_eq_take.mp begins
  have shorter : (segments path).length < (segments other).length := by
    refine lt_of_le_of_ne begins.length_le fun same => apart ?_
    rw [← joinSegments_segments path, begins.eq_of_length same, joinSegments_segments]
  have some : 0 < (segments path).length := length_pos_of_ne_nil (segments_ne_nil _)
  unfold ancestorPaths
  refine mem_map.mpr ⟨(segments path).length, mem_range'_1.mpr ⟨some, by omega⟩, ?_⟩
  rw [← whole, joinSegments_segments]

/-- Entries of one root that are sorted by their keys are sorted by their paths. -/
theorem path_le_of_sortKey {first second : ManagedComponentProjectionEntry unicode}
    (sameRoot : first.entry.root = second.entry.root) (sorted : first.sortKey ≤ second.sortKey) :
    first.entry.path.value ≤ second.entry.path.value := by
  unfold ManagedComponentProjectionEntry.sortKey at sorted
  rw [sameRoot] at sorted
  simp only [Prod.Lex.toLex_le_toLex, lt_irrefl, true_and, false_or] at sorted
  exact sorted.elim le_of_lt fun same => same.1.le

variable {projection : ManagedComponentProjection unicode}

/-- What the projection checks, of all the entries that it returns. -/
theorem projects_of_projection {component : ManagedComponentKind}
    (bounded : inventory.entries.length ≤ maxKnownGoodEntries)
    (projected : inventory.managedComponentProjection (componentProjectionContract unicode component).1 =
      .ok projection) :
    Projects component projection.entries ∧
      projection.component = (componentProjectionContract unicode component).1 ∧
      projection.entries.Perm
        (inventory.selected (componentProjectionContract unicode component).1) := by
  unfold KnownGoodInventory.managedComponentProjection at projected
  dsimp only at projected
  rw [ite_throw_eq_ok] at projected
  obtain ⟨few, projected⟩ := projected
  obtain ⟨total, folded, projected⟩ := bind_eq_ok.mp projected
  obtain ⟨⟨⟩, valid, projected⟩ := bind_eq_ok.mp projected
  cases pure_eq_ok.mp projected
  generalize found : inventory.selected (componentProjectionContract unicode component).1 =
    selected at *
  have perm : (selected.insertionSort fun first second => first.sortKey ≤ second.sortKey).Perm
    selected := perm_insertionSort _ _
  have ordered := pairwise_insertionSort
    (fun first second : ManagedComponentProjectionEntry unicode => first.sortKey ≤ second.sortKey)
    selected
  have ordinals := found ▸ selected_ordinals inventory _
  obtain ⟨each, bytes⟩ := foldlM_projectEntry folded (Nat.zero_le _)
  obtain ⟨distinct, clear⟩ := validateManagedComponentPathTree_ok valid
  dsimp only at distinct clear ⊢
  have members {projected : ManagedComponentProjectionEntry unicode} :
      projected ∈ selected.insertionSort (fun first second => first.sortKey ≤ second.sortKey) ↔
        projected ∈ selected := perm.mem_iff
  have placed (projected : ManagedComponentProjectionEntry unicode) (member : projected ∈ selected) :
      projected.inventoryOrdinal < maxTier2Entries := by
    have inside := mem_range.mp (ordinals.subset (mem_map_of_mem member))
    exact inside.trans_le bounded
  have roots (projected : ManagedComponentProjectionEntry unicode) (member : projected ∈ selected) :
      projected.entry.root = (componentProjectionContract unicode component).2 :=
    (kind_of_supported (each projected member).1).1
  have sorted : (selected.insertionSort fun first second =>
      first.sortKey ≤ second.sortKey).Pairwise fun first second =>
        first.entry.path.value < second.entry.path.value := by
    refine (ordered.and (pairwise_map.mp distinct)).imp_of_mem
      fun {first second} member inside both => ?_
    have sameRoot := (roots first (members.mp member)).trans (roots second (members.mp inside)).symm
    exact lt_of_le_of_ne (path_le_of_sortKey sameRoot both.1)
      fun same => both.2 (Prod.ext sameRoot same)
  refine ⟨⟨?_, ?_, ?_, ?_, ?_, ?_, ?_, sorted, ?_⟩, rfl, perm⟩
  · rw [perm.length_eq]
    omega
  · rw [(perm.map _).nodup_iff]
    exact ordinals.nodup nodup_range
  · exact fun projected member => placed projected (members.mp member)
  · exact fun projected member => roots projected (members.mp member)
  · exact fun projected member => (kind_of_supported (each projected (members.mp member)).1).2
  · intro projected member
    obtain ⟨size, sized, small⟩ := (each projected (members.mp member)).2
    unfold KnownGoodIntegrity.bytes
    rw [sized]
    exact small
  · rw [(perm.map _).sum_eq]
    omega
  · refine sorted.imp_of_mem fun {first second} member inside before => ?_
    have sameRoot := (roots first (members.mp member)).trans (roots second (members.mp inside)).symm
    exact ⟨fun begins => clear first member second inside sameRoot (mem_ancestorPaths begins before.ne),
      fun begins => clear second inside first member sameRoot.symm
        (mem_ancestorPaths begins before.ne')⟩

/-! ### The rows of a projection -/

/-- A row has what the entry says. -/
structure RowOf (component : ManagedComponentKind) (projected : ManagedComponentProjectionEntry unicode)
    (row : ComponentProjectionRow unicode) : Prop where
  root : projected.entry.root = (componentProjectionContract unicode component).2
  ordinal : projected.inventoryOrdinal = row.inventoryOrdinal.toNat
  path : projected.entry.path = row.path
  kind : componentArtifactKind component projected.entry.kind = .ok row.kind
  integrity : projected.entry.integrity = .sha1 ⟨row.sha1⟩ row.size

theorem projectionRow_eq_ok {component : ManagedComponentKind} {keys : List PortablePathKey}
    {row : ComponentProjectionRow unicode} :
    projectionRow component keys projected = .ok row ↔
      RowOf component projected row ∧ projected.entry.path.key ∉ keys := by
  unfold projectionRow
  rw [ite_throw_eq_ok, not_not, PortableRelativePath.new_value]
  dsimp only
  rw [ite_throw_eq_ok]
  constructor
  · rintro ⟨root, fresh, made⟩
    obtain ⟨kind, accepted, made⟩ := bind_eq_ok.mp made
    obtain ⟨⟨sha1, size⟩, contents, made⟩ := bind_eq_ok.mp made
    rw [ite_throw_eq_ok] at made
    obtain ⟨small, made⟩ := made
    cases made
    refine ⟨⟨root, ?_, rfl, accepted, ?_⟩, fresh⟩
    · rw [UInt32.toNat_ofNat_of_lt' (not_le.mp small)]
    · unfold sha1Integrity at contents
      split at contents
      · rename_i digest size' same
        cases contents
        rw [same]
      · cases contents
      · cases contents
      · cases contents
  · rintro ⟨⟨root, ordinal, path, kind, integrity⟩, fresh⟩
    refine ⟨root, fresh, bind_eq_ok.mpr ⟨row.kind, kind, ?_⟩⟩
    rw [integrity]
    refine bind_eq_ok.mpr ⟨(row.sha1, row.size), rfl, ?_⟩
    have small : projected.inventoryOrdinal < 2 ^ 32 := ordinal ▸ row.inventoryOrdinal.toNat_lt
    rw [ite_throw_eq_ok]
    refine ⟨by omega, ?_⟩
    rw [ordinal, UInt32.ofNat_toNat, path]

theorem foldlM_appendRow {component : ManagedComponentKind}
    {entries : List (ManagedComponentProjectionEntry unicode)}
    {start rows : List (ComponentProjectionRow unicode)} :
    entries.foldlM (appendRow component) start = .ok rows ↔
      ∃ more, rows = start ++ more ∧ List.Forall₂ (RowOf component) entries more ∧
        (∀ row ∈ more, row.path.key ∉ start.map fun row => row.path.key) ∧
        (more.map fun row => row.path.key).Nodup := by
  induction entries generalizing start with
  | nil =>
    rw [foldlM_nil_eq_ok]
    constructor
    · rintro rfl
      exact ⟨[], (List.append_nil _).symm, List.Forall₂.nil, nofun, nodup_nil⟩
    · rintro ⟨more, rfl, rowsOf, -⟩
      cases rowsOf
      exact (List.append_nil _).symm
  | cons projected entries ih =>
    simp only [foldlM_cons_eq_ok, appendRow, bind_eq_ok, pure_eq_ok, projectionRow_eq_ok, ih]
    constructor
    · rintro ⟨middle, ⟨row, ⟨rowOf, fresh⟩, rfl⟩, more, rfl, rowsOf, apart, distinct⟩
      refine ⟨row :: more, by simp, List.Forall₂.cons rowOf rowsOf, ?_, ?_⟩
      · refine forall_mem_cons.mpr ⟨rowOf.path ▸ fresh, fun other member inside => ?_⟩
        refine apart other member ?_
        rw [map_append]
        exact mem_append_left _ inside
      · rw [map_cons, nodup_cons]
        refine ⟨fun member => ?_, distinct⟩
        obtain ⟨other, inside, same⟩ := mem_map.mp member
        refine apart other inside ?_
        rw [map_append, same]
        exact mem_append_right _ (mem_singleton_self _)
    · rintro ⟨more, rfl, rowsOf, apart, distinct⟩
      cases rowsOf with
      | cons rowOf rowsOf =>
        rename_i row more
        rw [map_cons, nodup_cons] at distinct
        refine ⟨start ++ [row], ⟨row, ⟨rowOf, ?_⟩, rfl⟩, more, by simp, rowsOf, ?_, distinct.2⟩
        · rw [rowOf.path]
          exact apart row mem_cons_self
        · intro other member inside
          rw [map_append, mem_append] at inside
          rcases inside with before | here
          · exact apart other (mem_cons_of_mem _ member) before
          · rw [map_singleton, mem_singleton] at here
            exact distinct.1 (here ▸ mem_map_of_mem member)


/-- Rows are made of the entries that are known by a digest alone, when no two paths have the same
key. -/
theorem projectionRows_eq_ok {component : ManagedComponentKind}
    {rows : List (ComponentProjectionRow unicode)}
    (same : projection.component = (componentProjectionContract unicode component).1) :
    projectionRows component projection = .ok rows ↔
      List.Forall₂ (RowOf component) projection.entries rows ∧
        (rows.map fun row => row.path.key).Nodup := by
  unfold projectionRows
  rw [if_neg (not_not.mpr same), foldlM_appendRow]
  simp

section Rows

variable {component : ManagedComponentKind} {entries : List (ManagedComponentProjectionEntry unicode)}
  {rows : List (ComponentProjectionRow unicode)}

theorem map_rowsOf {ofEntry : ManagedComponentProjectionEntry unicode → Value}
    {ofRow : ComponentProjectionRow unicode → Value}
    (rowsOf : List.Forall₂ (RowOf component) entries rows)
    (agree : ∀ projected row, RowOf component projected row → ofEntry projected = ofRow row) :
    entries.map ofEntry = rows.map ofRow := by
  induction rowsOf with
  | nil => rfl
  | cons rowOf _ ih => rw [map_cons, map_cons, agree _ _ rowOf, ih]

theorem accepts_of_kind {kind : KnownGoodArtifactKind} {artifact : ManagedComponentArtifactKind}
    (accepted : componentArtifactKind component kind = .ok artifact) :
    component.accepts artifact = true := by
  cases component <;> cases kind <;> cases accepted <;> rfl

theorem accepts_of_rowsOf (rowsOf : List.Forall₂ (RowOf component) entries rows) :
    ∀ row ∈ rows, component.accepts row.kind = true := by
  induction rowsOf with
  | nil => exact nofun
  | cons rowOf _ ih =>
    exact forall_mem_cons.mpr ⟨accepts_of_kind rowOf.kind, ih⟩

/-- The rows of a projection are as the table wants them, up to what they are together. -/
theorem Projects.listed (projects : Projects component entries)
    (rowsOf : List.Forall₂ (RowOf component) entries rows) : Listed component rows := by
  have ordinals : entries.map ManagedComponentProjectionEntry.inventoryOrdinal =
      (rows.map ComponentProjectionRow.inventoryOrdinal).map UInt32.toNat := by
    rw [map_map]
    exact map_rowsOf rowsOf fun projected row rowOf => rowOf.ordinal
  have paths : entries.map (fun projected => projected.entry.path) =
      rows.map ComponentProjectionRow.path :=
    map_rowsOf rowsOf fun projected row rowOf => rowOf.path
  have bytes : entries.map (fun projected => projected.entry.integrity.bytes) =
      rows.map fun row => row.size.toNat := by
    refine map_rowsOf rowsOf fun projected row rowOf => ?_
    rw [rowOf.integrity]
    rfl
  refine ⟨?_, ?_, fun row member => ?_, fun row member => ?_, fun row member => ?_, ?_, ?_, ?_⟩
  · rw [← rowsOf.length_eq]
    exact projects.few
  · have distinct := projects.ordinals
    rw [ordinals] at distinct
    exact distinct.of_map _
  · have inside : row.inventoryOrdinal.toNat ∈
        entries.map ManagedComponentProjectionEntry.inventoryOrdinal := by
      rw [ordinals]
      exact mem_map_of_mem (mem_map_of_mem member)
    obtain ⟨projected, present, same⟩ := mem_map.mp inside
    rw [← same]
    exact projects.placed projected present
  · have inside : row.size.toNat ∈
        entries.map fun projected => projected.entry.integrity.bytes := by
      rw [bytes]
      exact mem_map_of_mem member
    obtain ⟨projected, present, same⟩ := mem_map.mp inside
    rw [← same]
    exact projects.small projected present
  · exact accepts_of_rowsOf rowsOf row member
  · rw [← bytes]
    exact projects.total
  · have sorted : (entries.map fun projected => projected.entry.path).Pairwise
        fun first second => first.value < second.value := pairwise_map.mpr projects.sorted
    rw [paths, pairwise_map] at sorted
    exact sorted
  · have apart : (entries.map fun projected => projected.entry.path).Pairwise
        fun first second => ¬segments first.value <+: segments second.value ∧
          ¬segments second.value <+: segments first.value := pairwise_map.mpr projects.apart
    rw [paths, pairwise_map] at apart
    exact apart

/-- Each entry that is known by a digest alone has a row. -/
theorem Projects.exists_rows (projects : Projects component entries)
    (digests : ∀ projected ∈ entries, ∃ digest size, projected.entry.integrity = .sha1 digest size) :
    ∃ rows, List.Forall₂ (RowOf component) entries rows := by
  have each : ∀ projected ∈ entries, ∃ row, RowOf component projected row := by
    intro projected member
    obtain ⟨digest, size, integrity⟩ := digests projected member
    obtain ⟨kind, accepted⟩ := projects.kinds projected member
    have small := projects.placed projected member
    have limit : maxTier2Entries < 2 ^ 32 := by decide
    refine ⟨⟨UInt32.ofNat projected.inventoryOrdinal, projected.entry.path, kind, size,
      digest.toBytes⟩, projects.roots projected member, ?_, rfl, accepted, integrity⟩
    rw [UInt32.toNat_ofNat_of_lt' (small.trans limit)]
  clear projects digests
  induction entries with
  | nil => exact ⟨[], List.Forall₂.nil⟩
  | cons projected entries ih =>
    obtain ⟨row, rowOf⟩ := each projected mem_cons_self
    obtain ⟨rows, rowsOf⟩ := ih fun other member =>
      each other (mem_cons_of_mem _ member)
    exact ⟨row :: rows, List.Forall₂.cons rowOf rowsOf⟩

theorem digests_of_rowsOf (rowsOf : List.Forall₂ (RowOf component) entries rows) :
    ∀ projected ∈ entries, ∃ digest size, projected.entry.integrity = .sha1 digest size := by
  induction rowsOf with
  | nil => exact nofun
  | cons rowOf _ ih =>
    exact forall_mem_cons.mpr ⟨⟨_, _, rowOf.integrity⟩, ih⟩

/-- Rows that fit together have different keys. -/
theorem Fits.keys_nodup (fits : Fits rows) (listed : Listed component rows) :
    (rows.map fun row => row.path.key).Nodup := by
  rw [List.Nodup, pairwise_map]
  refine listed.sorted.imp_of_mem fun {first second} member inside before same => ?_
  have whole (row : ComponentProjectionRow unicode) :
      (row.path.value, true) ∈ beginnings row.path.value := by
    have some : 0 < (segments row.path.value).length :=
      length_pos_of_ne_nil (segments_ne_nil _)
    refine mem_beginnings.mpr ⟨(segments row.path.value).length - 1, by omega, ?_, ?_⟩
    · rw [Nat.sub_add_cancel some, take_length, joinSegments_segments]
    · rw [Nat.sub_add_cancel some, decide_eq_true rfl]
  have keyed (row : ComponentProjectionRow unicode) :
      portableKey unicode row.path.value = some row.path.key := by
    rw [portableKey, PortableRelativePath.new_value]
    rfl
  have representable := (fits_iff listed.apart).mp fits
  refine before.ne (representable.spellings _ (mem_map_of_mem member) _
    (mem_map_of_mem inside) _ (whole first) _ (whole second) ?_)
  rw [keyed, keyed, same]

end Rows

/-- The paths of the entries of a component. -/
def KnownGoodInventory.paths (inventory : KnownGoodInventory unicode)
    (component : ManagedKnownGoodComponent) : List (PortableRelativePath unicode) :=
  (inventory.selected component).map fun projected => projected.entry.path

/-- Rows are made of a projection and accepted one by one. -/
def RowsAccepted (component : ManagedComponentKind) (projection : ManagedComponentProjection unicode) :
    Prop :=
  ∃ rows validator last, projectionRows component projection = .ok rows ∧
    ComponentRowValidator.new unicode rows.length = some validator ∧
    validator.pushAll component (rows.map ComponentProjectionRow.tableRow) = some last

/-- For every inventory that was built and every component whose projection returns: rows are made of
its entries and accepted one by one if and only if all of them are known by a digest and
the paths are representable. -/
theorem projection_rows_accepted_iff (urlIsSupported : String → Bool)
    (insertions : List (InventoryBuilder.Insertion unicode))
    (inventory : KnownGoodInventory unicode)
    (built : InventoryBuilder.build urlIsSupported insertions = .ok inventory)
    (component : ManagedComponentKind) (projection : ManagedComponentProjection unicode)
    (projected : inventory.managedComponentProjection
      (componentProjectionContract unicode component).1 = .ok projection) :
    RowsAccepted component projection ↔
      (∀ projected ∈ inventory.selected (componentProjectionContract unicode component).1,
        ∃ digest size, projected.entry.integrity = .sha1 digest size) ∧
      Representable (inventory.paths (componentProjectionContract unicode component).1) := by
  obtain ⟨projects, sameComponent, perm⟩ :=
    projects_of_projection (InventoryBuilder.build_few built) projected
  unfold RowsAccepted
  simp only [projectionRows_eq_ok sameComponent]
  have representable {rows : List (ComponentProjectionRow unicode)}
      (rowsOf : List.Forall₂ (RowOf component) projection.entries rows) :
      Fits rows ↔
        Representable (inventory.paths (componentProjectionContract unicode component).1) := by
    have paths : projection.entries.map (fun projected => projected.entry.path) =
        rows.map ComponentProjectionRow.path :=
      map_rowsOf rowsOf fun projected row rowOf => rowOf.path
    have same := perm.map fun projected => projected.entry.path
    rw [paths] at same
    rw [fits_iff (projects.listed rowsOf).apart]
    exact ⟨fun holds => holds.perm same, fun holds => holds.perm same.symm⟩
  constructor
  · rintro ⟨rows, validator, last, ⟨rowsOf, -⟩, made, pushed⟩
    have listed := projects.listed rowsOf
    refine ⟨fun projected member => ?_, (representable rowsOf).mp
      ((ComponentRowValidator.pushAll_iff made listed).mp ⟨last, pushed⟩)⟩
    exact digests_of_rowsOf rowsOf projected (perm.mem_iff.mpr member)
  · rintro ⟨digests, holds⟩
    obtain ⟨rows, rowsOf⟩ := projects.exists_rows
      fun projected member => digests projected (perm.mem_iff.mp member)
    have listed := projects.listed rowsOf
    have fits := (representable rowsOf).mpr holds
    have made : ∃ validator, ComponentRowValidator.new unicode rows.length = some validator :=
      ⟨_, if_neg (not_lt.mpr listed.few)⟩
    obtain ⟨validator, made⟩ := made
    obtain ⟨last, pushed⟩ := (ComponentRowValidator.pushAll_iff made listed).mpr fits
    exact ⟨rows, validator, last, ⟨rowsOf, fits.keys_nodup listed⟩, made, pushed⟩

/-! ### Two spellings of one name -/

/-- The inventory that is built, and its projection. -/
def projectionOf (insertions : List (InventoryBuilder.Insertion unicode))
    (component : ManagedComponentKind) :
    Option (KnownGoodInventory unicode × ManagedComponentProjection unicode) :=
  match InventoryBuilder.build (fun _ => true) insertions with
  | .error _ => none
  | .ok inventory =>
    match inventory.managedComponentProjection (componentProjectionContract unicode component).1 with
    | .error _ => none
    | .ok projection => some (inventory, projection)

theorem projectionOf_eq_some {insertions : List (InventoryBuilder.Insertion unicode)}
    {component : ManagedComponentKind}
    (made : projectionOf insertions component = some (inventory, projection)) :
    InventoryBuilder.build (fun _ => true) insertions = .ok inventory ∧
      inventory.managedComponentProjection (componentProjectionContract unicode component).1 =
        .ok projection := by
  unfold projectionOf at made
  split at made
  · cases made
  · rename_i built
    split at made
    · cases made
    · rename_i projected
      cases made
      exact ⟨built, projected⟩

/-- The rows are made and refused. -/
def rowsRefused (component : ManagedComponentKind) (projection : ManagedComponentProjection unicode) :
    Bool :=
  match projectionRows component projection with
  | .error _ => false
  | .ok rows =>
    (ComponentRowValidator.new unicode rows.length).any fun validator =>
      (validator.pushAll component (rows.map ComponentProjectionRow.tableRow)).isNone

theorem not_rowsAccepted {component : ManagedComponentKind}
    (refused : rowsRefused component projection = true) : ¬RowsAccepted component projection := by
  rintro ⟨rows, validator, last, made, new, pushed⟩
  unfold rowsRefused at refused
  rw [made] at refused
  dsimp only at refused
  rw [new, Option.any_some, pushed] at refused
  cases refused

/-- A library in the root of its component. -/
def plainLibrary (path : PortableRelativePath Unicode.plain) :
    InventoryBuilder.Insertion Unicode.plain :=
  .plain ⟨.libraries, path, .library, .sha1 ⟨Fixed.zero 20⟩ 5⟩

/-- Two libraries in directories whose names differ in the case of a letter. -/
def caseVariants : List (InventoryBuilder.Insertion Unicode.plain) :=
  [plainLibrary ⟨"Foo/a.jar", by decide, by decide⟩,
    plainLibrary ⟨"foo/b.jar", by decide, by decide⟩]

theorem rows_of_case_variants_are_refused :
    ∃ inventory projection,
      InventoryBuilder.build (fun _ => true) caseVariants = .ok inventory ∧
      inventory.managedComponentProjection (componentProjectionContract Unicode.plain .libraries).1 =
        .ok projection ∧
      ¬RowsAccepted .libraries projection := by
  have refused : (projectionOf caseVariants .libraries).any
      (fun made => rowsRefused .libraries made.2) = true := by
    decide +kernel
  obtain ⟨⟨inventory, projection⟩, made, refused⟩ := (Option.any_eq_true _ _).mp refused
  have ⟨built, projected⟩ := projectionOf_eq_some made
  exact ⟨inventory, projection, built, projected, not_rowsAccepted refused⟩

/-- Two libraries in two directories. -/
def twoDirectories : List (PortableRelativePath Unicode.plain) :=
  [⟨"bar/b.jar", by decide, by decide⟩, ⟨"foo/a.jar", by decide, by decide⟩]

theorem representable_twoDirectories : Representable twoDirectories where
  spellings := by decide +kernel
  fanout dir := by
    refine (List.toFinset_card_le _).trans ((List.length_filterMap_le ..).trans ?_)
    decide
  bytes := by decide +kernel
  few := by decide +kernel
  keys := by decide +kernel

/-- The two libraries are projected, and their rows are accepted. -/
theorem projection_rows_accepted_iff_for_two_libraries :
    ∃ (inventory : KnownGoodInventory Unicode.plain)
      (projection : ManagedComponentProjection Unicode.plain),
      inventory.managedComponentProjection (componentProjectionContract Unicode.plain .libraries).1 =
        .ok projection ∧
      projection.entries.length = 2 ∧ RowsAccepted .libraries projection := by
  have pair : (projectionOf (twoDirectories.reverse.map plainLibrary) .libraries).any (fun made =>
      made.2.entries.length = 2 ∧ made.1.paths .libraries = twoDirectories ∧
        ∀ projected ∈ made.1.selected .libraries,
          projected.entry.integrity = .sha1 ⟨Fixed.zero 20⟩ 5) = true := by
    decide +kernel
  obtain ⟨⟨inventory, projection⟩, made, found⟩ := (Option.any_eq_true _ _).mp pair
  have ⟨built, projected⟩ := projectionOf_eq_some made
  obtain ⟨two, paths, digests⟩ := of_decide_eq_true found
  exact ⟨inventory, projection, projected, two,
    (projection_rows_accepted_iff _ _ inventory built .libraries projection projected).mpr
      ⟨fun projected member => ⟨_, _, digests projected member⟩,
        paths ▸ representable_twoDirectories⟩⟩

end Axial.Minecraft
