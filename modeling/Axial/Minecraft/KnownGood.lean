/-
This file models the known-good inventory of `core/minecraft/src/known_good.rs`: the
files that a version is made of, how the builder collects them, and the projection of
the inventory on one component. The rows that a component transaction takes from
a projection are those of `core/minecraft/src/managed_component_lifecycle.rs`.
-/

import Axial.Library.Fallible
import Axial.Minecraft.ComponentRow
import Mathlib.Data.List.Sort
import Mathlib.Data.Prod.Lex
import Mathlib.Data.String.Basic

namespace Axial.Minecraft

open Bytes

abbrev maxKnownGoodEntries : Nat := 200000

/-! ### Entries -/

abbrev KnownGoodRelativePath (unicode : Unicode) := PortableRelativePath unicode

/-- A path of one segment. -/
structure KnownGoodId (unicode : Unicode) where
  path : KnownGoodRelativePath unicode
  single : '/' ∉ path.value.toList
  deriving DecidableEq

def KnownGoodId.new (unicode : Unicode) (value : String) : Option (KnownGoodId unicode) := do
  let path ← PortableRelativePath.new unicode value
  if single : '/' ∉ path.value.toList then return ⟨path, single⟩ else none

/-- Kept by the source as its forty lowercase hexadecimal digits. -/
structure Sha1Digest where
  toBytes : Fixed 20
  deriving DecidableEq

def Sha1Digest.asStr (digest : Sha1Digest) : String :=
  String.ofList (digest.toBytes.val.flatMap fun byte =>
    [Axial.Fs.hexDigit (byte.toNat / 16), Axial.Fs.hexDigit (byte.toNat % 16)])

structure KnownGoodLinkTarget where
  value : String
  deriving DecidableEq

inductive ManagedKnownGoodComponent where
  | versionBundle
  | libraries
  | assets
  deriving DecidableEq

inductive KnownGoodRoot (unicode : Unicode) where
  | versions
  | libraries
  | assets
  | managedRuntime (component : KnownGoodId unicode)
  deriving DecidableEq

inductive KnownGoodArtifactKind where
  | versionMetadata
  | clientJar
  | library
  | nativeLibrary
  | assetIndex
  | assetObject
  | logConfig
  | runtimeManifestProof
  | runtimeReadyMarker
  | runtimeFile
  | runtimeExecutable
  | runtimeDirectory
  | runtimeLink
  deriving DecidableEq

inductive KnownGoodIntegrity where
  | sha1 (digest : Sha1Digest) (size : UInt64)
  | exactBytes (digest : Sha1Digest) (size : UInt64)
  | directory
  | linkTarget (target : KnownGoodLinkTarget)
  deriving DecidableEq

structure KnownGoodEntry (unicode : Unicode) where
  root : KnownGoodRoot unicode
  path : KnownGoodRelativePath unicode
  kind : KnownGoodArtifactKind
  integrity : KnownGoodIntegrity
  deriving DecidableEq

inductive KnownGoodInventoryError where
  | unsafePath
  | conflictingEntry
  | invalidRepairSource
  | conflictingRepairSource
  | tooManyEntries

variable {unicode : Unicode}

namespace KnownGoodRoot

def stableId : KnownGoodRoot unicode → String
  | .versions => "versions"
  | .libraries => "libraries"
  | .assets => "assets"
  | .managedRuntime _ => "managed_runtime"

def scopeId : KnownGoodRoot unicode → String
  | .managedRuntime component => component.path.value
  | _ => ""

/-- The place of the constructor in the derived order. -/
def rank : KnownGoodRoot unicode → Nat
  | .versions => 0
  | .libraries => 1
  | .assets => 2
  | .managedRuntime _ => 3

end KnownGoodRoot

/-! ### Repair sources -/

/-- `KnownGoodStandaloneLeafRepairSourceContract`. -/
structure RepairSourceContract (unicode : Unicode) where
  root : KnownGoodRoot unicode
  path : KnownGoodRelativePath unicode
  kind : KnownGoodArtifactKind
  digest : Sha1Digest
  size : UInt64
  providerUrl : String
  deriving DecidableEq

def assetObjectBaseUrl : String := "https://resources.download.minecraft.net"

def assetObjectPath (digest : Sha1Digest) : String :=
  "objects/" ++ String.ofList (digest.asStr.toList.take 2) ++ "/" ++ digest.asStr

def assetObjectProviderUrl (digest : Sha1Digest) : String :=
  assetObjectBaseUrl ++ "/" ++ String.ofList (digest.asStr.toList.take 2) ++ "/" ++ digest.asStr

def assetIndexPathIsCanonical (path : KnownGoodRelativePath unicode) : Bool :=
  let chars := path.value.toList
  let leading := "indexes/".toList
  let trailing := ".json".toList
  leading.isPrefixOf chars && trailing.isSuffixOf (chars.drop leading.length) &&
    (KnownGoodId.new unicode (String.ofList
      ((chars.drop leading.length).take (chars.length - leading.length - trailing.length)))).isSome

/-- The contract of an entry. `urlIsSupported` stands for the parsed address in
`repair_provider_url_is_supported`. -/
def RepairSourceContract.new (urlIsSupported : String → Bool) (entry : KnownGoodEntry unicode)
    (providerUrl : String) : Except KnownGoodInventoryError (RepairSourceContract unicode) :=
  match entry.integrity with
  | .sha1 digest size =>
    let supported := match entry.root, entry.kind with
      | .libraries, .library | .libraries, .nativeLibrary => 0 < size && urlIsSupported providerUrl
      | .assets, .assetIndex =>
        0 < size && assetIndexPathIsCanonical entry.path && urlIsSupported providerUrl
      | .assets, .assetObject =>
        entry.path.value = assetObjectPath digest && providerUrl = assetObjectProviderUrl digest
      | _, _ => false
    if supported then .ok ⟨entry.root, entry.path, entry.kind, digest, size, providerUrl⟩
    else .error .invalidRepairSource
  | _ => .error .invalidRepairSource

def RepairSourceContract.accepts (urlIsSupported : String → Bool)
    (contract : RepairSourceContract unicode) (entry : KnownGoodEntry unicode) : Bool :=
  match RepairSourceContract.new urlIsSupported entry contract.providerUrl with
  | .ok candidate => candidate = contract
  | .error _ => false

/-! ### The inventory and its builder -/

structure KnownGoodInventory (unicode : Unicode) where
  entries : List (KnownGoodEntry unicode)
  /-- `standalone_leaf_repair_sources`, by the ordinals of their entries. -/
  repairSources : AList fun _ : Nat => RepairSourceContract unicode

/-- The root, its scope and the path of an entry. -/
abbrev InventoryKey := String ×ₗ String ×ₗ String

def KnownGoodEntry.inventoryKey (entry : KnownGoodEntry unicode) : InventoryKey :=
  toLex (entry.root.stableId, toLex (entry.root.scopeId, entry.path.value))

structure PendingInventoryEntry (unicode : Unicode) where
  entry : KnownGoodEntry unicode
  repairSource : Option (RepairSourceContract unicode)

structure InventoryBuilder (unicode : Unicode) where
  entries : AList fun _ : InventoryKey => PendingInventoryEntry unicode

namespace InventoryBuilder

variable (urlIsSupported : String → Bool)

/-- The contract of the address that an entry comes with. -/
def repairSourceOf (entry : KnownGoodEntry unicode) :
    Option String → Except KnownGoodInventoryError (Option (RepairSourceContract unicode))
  | some providerUrl => (RepairSourceContract.new urlIsSupported entry providerUrl).map some
  | none => .ok none

/-- `insert_with_standalone_leaf_repair_source`. -/
def insertWithRepairSource (builder : InventoryBuilder unicode) (entry : KnownGoodEntry unicode)
    (providerUrl : Option String) :
    Except KnownGoodInventoryError (InventoryBuilder unicode) := do
  let repairSource ← repairSourceOf urlIsSupported entry providerUrl
  match builder.entries.lookup entry.inventoryKey with
  | some existing =>
    if existing.entry ≠ entry then .error .conflictingEntry
    else match existing.repairSource, repairSource with
      | some source, some candidate =>
        if source ≠ candidate then .error .conflictingRepairSource else .ok builder
      | none, some candidate =>
        .ok ⟨builder.entries.insert entry.inventoryKey ⟨existing.entry, some candidate⟩⟩
      | _, none => .ok builder
  | none =>
    if builder.entries.keys.length ≥ maxKnownGoodEntries then .error .tooManyEntries
    else .ok ⟨builder.entries.insert entry.inventoryKey ⟨entry, repairSource⟩⟩

def insert (builder : InventoryBuilder unicode) (entry : KnownGoodEntry unicode) :
    Except KnownGoodInventoryError (InventoryBuilder unicode) :=
  builder.insertWithRepairSource urlIsSupported entry none

/-- `insert_preserving_standalone_leaf_repair_source`. -/
def insertPreservingRepairSource (builder : InventoryBuilder unicode)
    (sourceInventory : KnownGoodInventory unicode) (sourceInventoryOrdinal : Nat)
    (entry : KnownGoodEntry unicode) : Except KnownGoodInventoryError (InventoryBuilder unicode) :=
  match sourceInventory.repairSources.lookup sourceInventoryOrdinal with
  | some contract =>
    if contract.accepts urlIsSupported entry then
      builder.insertWithRepairSource urlIsSupported entry (some contract.providerUrl)
    else .error .invalidRepairSource
  | none => builder.insertWithRepairSource urlIsSupported entry none

/-- The entries in the order of their keys. -/
def finish (builder : InventoryBuilder unicode) : KnownGoodInventory unicode :=
  let pending := (builder.entries.entries.insertionSort fun first second =>
    first.1 ≤ second.1).map fun entry => entry.2
  { entries := pending.map PendingInventoryEntry.entry
    repairSources := (pending.zipIdx.filterMap fun (entry, inventoryOrdinal) =>
      entry.repairSource.map fun source => Sigma.mk inventoryOrdinal source).toAList }

/-- One call on a builder. -/
inductive Insertion (unicode : Unicode) where
  | plain (entry : KnownGoodEntry unicode)
  | withRepairSource (entry : KnownGoodEntry unicode) (providerUrl : String)
  | preserving (sourceInventory : KnownGoodInventory unicode) (sourceInventoryOrdinal : Nat)
      (entry : KnownGoodEntry unicode)

def perform (builder : InventoryBuilder unicode) :
    Insertion unicode → Except KnownGoodInventoryError (InventoryBuilder unicode)
  | .plain entry => builder.insert urlIsSupported entry
  | .withRepairSource entry providerUrl =>
    builder.insertWithRepairSource urlIsSupported entry (some providerUrl)
  | .preserving sourceInventory sourceInventoryOrdinal entry =>
    builder.insertPreservingRepairSource urlIsSupported sourceInventory sourceInventoryOrdinal entry

/-- An inventory is built by insertions none of which is refused. -/
def build (insertions : List (Insertion unicode)) :
    Except KnownGoodInventoryError (KnownGoodInventory unicode) :=
  (insertions.foldlM (perform urlIsSupported) ⟨∅⟩).map finish

end InventoryBuilder

/-! ### The projection on a component -/

inductive ManagedComponentProjectionError where
  | tooManyEntries (selectedEntryCount : Nat)
  | unsupportedRootKind (selectedEntryCount inventoryOrdinal : Nat)
  | unsupportedIntegrity (selectedEntryCount inventoryOrdinal : Nat)
  | artifactByteLimitExceeded (selectedEntryCount inventoryOrdinal expectedByteCount : Nat)
  | aggregateByteCountOverflow (selectedEntryCount inventoryOrdinal : Nat)
  | aggregateByteLimitExceeded (selectedEntryCount expectedByteCount : Nat)
  | pathCollision (selectedEntryCount firstInventoryOrdinal secondInventoryOrdinal : Nat)

structure ManagedComponentProjectionEntry (unicode : Unicode) where
  inventoryOrdinal : Nat
  entry : KnownGoodEntry unicode

structure ManagedComponentProjection (unicode : Unicode) where
  component : ManagedKnownGoodComponent
  entries : List (ManagedComponentProjectionEntry unicode)
  expectedContentByteCount : Nat

def managedComponentForKind : KnownGoodArtifactKind → Option ManagedKnownGoodComponent
  | .versionMetadata | .clientJar | .logConfig => some .versionBundle
  | .library | .nativeLibrary => some .libraries
  | .assetIndex | .assetObject => some .assets
  | _ => none

def managedComponentRootKindIsSupported (component : ManagedKnownGoodComponent)
    (entry : KnownGoodEntry unicode) : Bool :=
  match component, entry.root, entry.kind with
  | .versionBundle, .versions, .versionMetadata | .versionBundle, .versions, .clientJar
  | .versionBundle, .assets, .logConfig
  | .libraries, .libraries, .library | .libraries, .libraries, .nativeLibrary
  | .assets, .assets, .assetIndex | .assets, .assets, .assetObject => true
  | _, _, _ => false

def KnownGoodIntegrity.contentSize : KnownGoodIntegrity → Option UInt64
  | .sha1 _ size | .exactBytes _ size => some size
  | .directory | .linkTarget _ => none

/-- One selected entry is checked and its bytes are counted. -/
def projectEntry (component : ManagedKnownGoodComponent) (selectedEntryCount : Nat)
    (expectedContentByteCount : Nat) (projected : ManagedComponentProjectionEntry unicode) :
    Except ManagedComponentProjectionError Nat :=
  let inventoryOrdinal := projected.inventoryOrdinal
  if managedComponentRootKindIsSupported component projected.entry = false then
    .error (.unsupportedRootKind selectedEntryCount inventoryOrdinal)
  else match projected.entry.integrity.contentSize with
    | none => .error (.unsupportedIntegrity selectedEntryCount inventoryOrdinal)
    | some size =>
      let total := expectedContentByteCount + size.toNat
      if size.toNat > maxTier2ArtifactBytes then
        .error (.artifactByteLimitExceeded selectedEntryCount inventoryOrdinal size.toNat)
      else if total ≥ 2 ^ 64 then
        .error (.aggregateByteCountOverflow selectedEntryCount inventoryOrdinal)
      else if total > maxTier2AggregateBytes then
        .error (.aggregateByteLimitExceeded selectedEntryCount total)
      else .ok total

/-- Root, path and ordinal, by which the selected entries are sorted. -/
def ManagedComponentProjectionEntry.sortKey (projected : ManagedComponentProjectionEntry unicode) :
    Nat ×ₗ String ×ₗ String ×ₗ Nat :=
  toLex (projected.entry.root.rank, toLex (projected.entry.root.scopeId,
    toLex (projected.entry.path.value, projected.inventoryOrdinal)))

abbrev EntriesByPath (unicode : Unicode) := AList fun _ : KnownGoodRoot unicode × String => Nat

def insertPath (selectedEntryCount : Nat) (entriesByPath : EntriesByPath unicode)
    (projected : ManagedComponentProjectionEntry unicode) :
    Except ManagedComponentProjectionError (EntriesByPath unicode) :=
  match entriesByPath.lookup (projected.entry.root, projected.entry.path.value) with
  | some firstInventoryOrdinal =>
    .error (.pathCollision selectedEntryCount firstInventoryOrdinal projected.inventoryOrdinal)
  | none =>
    .ok (entriesByPath.insert (projected.entry.root, projected.entry.path.value)
      projected.inventoryOrdinal)

/-- What stands before each separator of a path. -/
def ancestorPaths (path : String) : List String :=
  (List.range' 1 ((segments path).length - 1)).map fun depth => joinSegments ((segments path).take depth)

def validateAncestors (selectedEntryCount : Nat) (entriesByPath : EntriesByPath unicode)
    (projected : ManagedComponentProjectionEntry unicode) :
    Except ManagedComponentProjectionError Unit :=
  (ancestorPaths projected.entry.path.value).forM fun ancestorPath =>
    match entriesByPath.lookup (projected.entry.root, ancestorPath) with
    | some firstInventoryOrdinal =>
      .error (.pathCollision selectedEntryCount firstInventoryOrdinal projected.inventoryOrdinal)
    | none => .ok ()

def validateManagedComponentPathTree (selectedEntryCount : Nat)
    (entries : List (ManagedComponentProjectionEntry unicode)) :
    Except ManagedComponentProjectionError Unit := do
  let entriesByPath ← entries.foldlM (insertPath selectedEntryCount) ∅
  entries.forM (validateAncestors selectedEntryCount entriesByPath)

namespace KnownGoodInventory

/-- The entries of a component with their places in the inventory. -/
def selected (inventory : KnownGoodInventory unicode) (component : ManagedKnownGoodComponent) :
    List (ManagedComponentProjectionEntry unicode) :=
  (inventory.entries.zipIdx.map fun (entry, inventoryOrdinal) => ⟨inventoryOrdinal, entry⟩).filter
    fun projected => managedComponentForKind projected.entry.kind = some component

def managedComponentProjection (inventory : KnownGoodInventory unicode)
    (component : ManagedKnownGoodComponent) :
    Except ManagedComponentProjectionError (ManagedComponentProjection unicode) :=
  let selected := inventory.selected component
  if selected.length > maxTier2Entries then .error (.tooManyEntries selected.length)
  else do
    let expectedContentByteCount ← selected.foldlM (projectEntry component selected.length) 0
    let entries := selected.insertionSort fun first second => first.sortKey ≤ second.sortKey
    validateManagedComponentPathTree selected.length entries
    return ⟨component, entries, expectedContentByteCount⟩

end KnownGoodInventory

/-! ### The rows of a transaction -/

inductive PrepareComponentIntentError where
  | projection

structure ComponentProjectionRow (unicode : Unicode) where
  inventoryOrdinal : UInt32
  path : PortableRelativePath unicode
  kind : ManagedComponentArtifactKind
  size : UInt64
  sha1 : Fixed 20

def componentProjectionContract (unicode : Unicode) :
    ManagedComponentKind → ManagedKnownGoodComponent × KnownGoodRoot unicode
  | .libraries => (.libraries, .libraries)
  | .assets => (.assets, .assets)

def componentArtifactKind : ManagedComponentKind → KnownGoodArtifactKind →
    Except PrepareComponentIntentError ManagedComponentArtifactKind
  | .libraries, .library => .ok .library
  | .libraries, .nativeLibrary => .ok .nativeLibrary
  | .assets, .assetIndex => .ok .assetIndex
  | .assets, .assetObject => .ok .assetObject
  | _, _ => .error .projection

def sha1Integrity : KnownGoodIntegrity → Except PrepareComponentIntentError (Fixed 20 × UInt64)
  | .sha1 digest size => .ok (digest.toBytes, size)
  | .exactBytes _ _ | .directory | .linkTarget _ => .error .projection

/-- The row of one entry. The portable paths are those of the rows before it. -/
def projectionRow (component : ManagedComponentKind) (portablePaths : List PortablePathKey)
    (projected : ManagedComponentProjectionEntry unicode) :
    Except PrepareComponentIntentError (ComponentProjectionRow unicode) :=
  if projected.entry.root ≠ (componentProjectionContract unicode component).2 then .error .projection
  else match PortableRelativePath.new unicode projected.entry.path.value with
    | none => .error .projection
    | some path =>
      if path.key ∈ portablePaths then .error .projection
      else do
        let kind ← componentArtifactKind component projected.entry.kind
        let (sha1, size) ← sha1Integrity projected.entry.integrity
        (if projected.inventoryOrdinal ≥ 2 ^ 32 then .error .projection
          else .ok ⟨UInt32.ofNat projected.inventoryOrdinal, path, kind, size, sha1⟩)

/-- The rows with that of the next entry. -/
def appendRow (component : ManagedComponentKind) (rows : List (ComponentProjectionRow unicode))
    (projected : ManagedComponentProjectionEntry unicode) :
    Except PrepareComponentIntentError (List (ComponentProjectionRow unicode)) := do
  let row ← projectionRow component (rows.map fun row => row.path.key) projected
  return rows ++ [row]

def projectionRows (component : ManagedComponentKind) (projection : ManagedComponentProjection unicode) :
    Except PrepareComponentIntentError (List (ComponentProjectionRow unicode)) :=
  if projection.component ≠ (componentProjectionContract unicode component).1 then
    .error .projection
  else projection.entries.foldlM (appendRow component) []

/-- The row of the table for a file that is not there yet, in a directory that is. -/
def ComponentProjectionRow.tableRow (row : ComponentProjectionRow unicode) :
    ComponentTableRow unicode where
  inventoryOrdinal := row.inventoryOrdinal
  finalSize := row.size
  finalSha1 := row.sha1
  kind := row.kind
  path := row.path
  firstCreatedDepth := none
  prior := none

end Axial.Minecraft
