/-
This file models the activation contract of an authenticated receipt in
`core/minecraft/src/known_good.rs`, the hash of a stream of counted fields, and shows that
it tells receipts apart exactly by their version, inventory, effective version and
environment, whatever the order of a map's iteration.
-/

import Axial.Library.JsonValue
import Axial.Minecraft.KnownGood
import Axial.Minecraft.Libraries
import Axial.Performance.GraphDigest

namespace Axial.Minecraft

open Bytes Reader Framing List Option

variable {unicode : Unicode}

def KnownGoodArtifactKind.stableId : KnownGoodArtifactKind → String
  | .versionMetadata => "version_metadata"
  | .clientJar => "client_jar"
  | .library => "library"
  | .nativeLibrary => "native_library"
  | .assetIndex => "asset_index"
  | .assetObject => "asset_object"
  | .logConfig => "log_config"
  | .runtimeManifestProof => "runtime_manifest_proof"
  | .runtimeReadyMarker => "runtime_ready_marker"
  | .runtimeFile => "runtime_file"
  | .runtimeExecutable => "runtime_executable"
  | .runtimeDirectory => "runtime_directory"
  | .runtimeLink => "runtime_link"

/-! ### Fields

What is written to the hash, field by field. -/

/-- The root, the path and the kind that an entry and a repair source begin with. -/
def placeFields (root : KnownGoodRoot unicode) (path : KnownGoodRelativePath unicode)
    (kind : KnownGoodArtifactKind) : List (List UInt8) :=
  [utf8 root.stableId, utf8 root.scopeId, utf8 path.value, utf8 kind.stableId]

def integrityFields : KnownGoodIntegrity → List (List UInt8)
  | .sha1 digest size => [utf8 "sha1", utf8 digest.asStr, bigEndian 8 size.toNat]
  | .exactBytes digest size => [utf8 "exact_bytes", utf8 digest.asStr, bigEndian 8 size.toNat]
  | .directory => [utf8 "directory"]
  | .linkTarget target => [utf8 "link_target", utf8 target.value]

def entryFields (numbered : KnownGoodEntry unicode × Nat) : List (List UInt8) :=
  [utf8 "inventory.entry.v1", bigEndian 8 numbered.2] ++
    (placeFields numbered.1.root numbered.1.path numbered.1.kind ++
      integrityFields numbered.1.integrity)

def repairSourceFields (source : Sigma fun _ : Nat => RepairSourceContract unicode) :
    List (List UInt8) :=
  [utf8 "inventory.standalone_leaf_repair_source.v1", bigEndian 8 source.1] ++
    (placeFields source.2.root source.2.path source.2.kind ++
      [utf8 source.2.digest.asStr, bigEndian 8 source.2.size.toNat, utf8 source.2.providerUrl])

/-- The repair sources in the order of their ordinals. -/
def KnownGoodInventory.sortedRepairSources (inventory : KnownGoodInventory unicode) :
    List (Sigma fun _ : Nat => RepairSourceContract unicode) :=
  inventory.repairSources.entries.insertionSort fun left right => left.1 ≤ right.1

/-- `hash_inventory_activation_contract`. -/
def inventoryFields (inventory : KnownGoodInventory unicode) : List (List UInt8) :=
  [utf8 "inventory.entries.v1", bigEndian 8 inventory.entries.length] ++
    (inventory.entries.zipIdx.flatMap entryFields ++
      ([utf8 "inventory.standalone_leaf_repair_sources.v1",
          bigEndian 8 inventory.sortedRepairSources.length] ++
        inventory.sortedRepairSources.flatMap repairSourceFields))

def featureFields (feature : String × Bool) : List (List UInt8) :=
  [utf8 feature.1, [if feature.2 then 1 else 0]]

def Environment.sortedFeatures (environment : Environment) : List (String × Bool) :=
  environment.features.insertionSort fun left right => left.1 ≤ right.1

/-- `hash_environment_activation_contract`. -/
def environmentFields (environment : Environment) : List (List UInt8) :=
  [utf8 "environment.v1", utf8 environment.osName, utf8 environment.osArch,
    utf8 environment.osVersion, bigEndian 8 environment.sortedFeatures.length] ++
    environment.sortedFeatures.flatMap featureFields

/-! ### Receipts -/

/-- Lengths, counts and ordinals of what is in memory fit a `usize`. -/
structure Addressable (inventory : KnownGoodInventory unicode) (environment : Environment) :
    Prop where
  fields : ∀ field ∈ inventoryFields inventory ++ environmentFields environment,
    field.length < 256 ^ 8
  entries : inventory.entries.length < 256 ^ 8
  ordinals : ∀ source ∈ inventory.repairSources.entries, source.1 < 256 ^ 8
  repairSources : inventory.repairSources.entries.length < 256 ^ 8
  features : environment.features.length < 256 ^ 8

structure AuthenticatedKnownGoodReceipt (unicode : Unicode) (VersionJson : Type) where
  versionId : KnownGoodId unicode
  inventory : KnownGoodInventory unicode
  effectiveVersion : VersionJson
  environment : Environment
  /-- The features are a map. -/
  features : (environment.features.map Prod.fst).Nodup
  addressable : Addressable inventory environment

abbrev managedInstallActivationContractPrefix : String := "managed-install-activation-v1"

/-- `ManagedInstallActivationContractId::from_digest`. -/
def activationContractIdFromDigest (digest : List UInt8) : String :=
  managedInstallActivationContractPrefix ++ "." ++ Base64.encode digest

/-- What `KnownGoodActivationContractHasher` is fed, from `new` to `finish`. -/
def hashedFields (domain : String) (fields : List (List UInt8)) : List UInt8 :=
  utf8 domain ++ 0 :: fields.flatMap (counted 8)

section

variable {VersionJson Number : Type} (sha256 : List UInt8 → List UInt8)
  (toValue : VersionJson → Option (Json.Document Number))
  (toVec : Json.Document Number → Option (List UInt8))

def canonicalJsonBytes (version : VersionJson) : Option (List UInt8) := do
  toVec (← toValue version).canonical

def contractFields (receipt : AuthenticatedKnownGoodReceipt unicode VersionJson)
    (effectiveVersion : List UInt8) : List (List UInt8) :=
  [utf8 "version_id", utf8 receipt.versionId.path.value] ++
    (inventoryFields receipt.inventory ++
      ([utf8 "effective_version.canonical_json.v1", effectiveVersion] ++
        environmentFields receipt.environment))

def AuthenticatedKnownGoodReceipt.activationContractId
    (receipt : AuthenticatedKnownGoodReceipt unicode VersionJson) : Option String := do
  let effectiveVersion ← canonicalJsonBytes toValue toVec receipt.effectiveVersion
  return activationContractIdFromDigest (sha256
    (hashedFields "axial.known_good.activation_contract.v1"
      (contractFields receipt effectiveVersion)))

/-- Two receipts stand for one contract. Maps are the same in any order of their entries, and JSON
values in any order of their members. -/
structure SameContract (left right : AuthenticatedKnownGoodReceipt unicode VersionJson) :
    Prop where
  versionId : left.versionId = right.versionId
  entries : left.inventory.entries = right.inventory.entries
  repairSources :
    left.inventory.repairSources.entries.Perm right.inventory.repairSources.entries
  effectiveVersion : ∃ value other, toValue left.effectiveVersion = some value ∧
    toValue right.effectiveVersion = some other ∧ value.val.Same other.val
  osName : left.environment.osName = right.environment.osName
  osArch : left.environment.osArch = right.environment.osArch
  osVersion : left.environment.osVersion = right.environment.osVersion
  features : left.environment.features.Perm right.environment.features

end

/-! ### Fields told apart -/

theorem Sha1Digest.asStr_injective : Function.Injective Sha1Digest.asStr := by
  rintro ⟨first⟩ ⟨second⟩ same
  rw [Sha1Digest.mk.injEq]
  exact Subtype.ext (Performance.hexEncode_injective same)

theorem KnownGoodArtifactKind.stableId_injective : Function.Injective stableId := by
  intro first second same
  cases first <;> cases second <;> first | rfl | exact absurd same (by decide)

theorem KnownGoodRoot.eq_of_ids {first second : KnownGoodRoot unicode}
    (stable : first.stableId = second.stableId) (scope : first.scopeId = second.scopeId) :
    first = second := by
  cases first <;> cases second <;>
    simp only [stableId, String.reduceEq, managedRuntime.injEq] at stable ⊢
  obtain ⟨_, _⟩ := ‹KnownGoodId unicode›
  rw [KnownGoodId.mk.injEq]
  exact PortableRelativePath.ext scope

variable {rest' rest : List (List UInt8)}

/-- A root, a path and a kind are told apart. -/
theorem places_split {root root' : KnownGoodRoot unicode}
    {path path' : KnownGoodRelativePath unicode} {kind kind' : KnownGoodArtifactKind}
    (same : placeFields root path kind ++ rest = placeFields root' path' kind' ++ rest') :
    (root = root' ∧ path = path' ∧ kind = kind') ∧ rest = rest' := by
  simp only [placeFields, cons_append, nil_append, List.cons.injEq] at same
  obtain ⟨stable, scope, paths, kinds, rests⟩ := same
  exact ⟨⟨KnownGoodRoot.eq_of_ids (utf8_injective stable) (utf8_injective scope),
    PortableRelativePath.ext (utf8_injective paths),
    KnownGoodArtifactKind.stableId_injective (utf8_injective kinds)⟩, rests⟩

theorem size_injective {first second : UInt64}
    (same : bigEndian 8 first.toNat = bigEndian 8 second.toNat) : first = second :=
  UInt64.toNat_inj.mp
    ((splitsOff_bigEndian 8).injective first.toNat_lt second.toNat_lt same)

/-- The tag in front tells the four kinds of integrity apart. -/
theorem splitsOff_integrity :
    SplitsOff (fun _ : KnownGoodIntegrity => True) integrityFields := by
  have tags : utf8 "sha1" ≠ utf8 "exact_bytes" ∧ utf8 "sha1" ≠ utf8 "directory" ∧
      utf8 "sha1" ≠ utf8 "link_target" ∧ utf8 "exact_bytes" ≠ utf8 "directory" ∧
      utf8 "exact_bytes" ≠ utf8 "link_target" ∧ utf8 "directory" ≠ utf8 "link_target" := by
    simp only [ne_eq, utf8_injective.eq_iff, String.reduceEq, not_false_eq_true, and_self]
  obtain ⟨sha1Exact, sha1Directory, sha1Link, exactDirectory, exactLink, directoryLink⟩ := tags
  intro first second rest rest' _ _ same
  cases first <;> cases second <;>
    simp only [integrityFields, cons_append, nil_append, List.cons.injEq, true_and,
      sha1Exact, sha1Directory, sha1Link, exactDirectory, exactLink, directoryLink,
      sha1Exact.symm, sha1Directory.symm, sha1Link.symm, exactDirectory.symm, exactLink.symm,
      directoryLink.symm, false_and] at same
  case sha1.sha1 =>
    obtain ⟨digests, sizes, rests⟩ := same
    rw [KnownGoodIntegrity.sha1.injEq]
    exact ⟨⟨Sha1Digest.asStr_injective (utf8_injective digests), size_injective sizes⟩, rests⟩
  case exactBytes.exactBytes =>
    obtain ⟨digests, sizes, rests⟩ := same
    rw [KnownGoodIntegrity.exactBytes.injEq]
    exact ⟨⟨Sha1Digest.asStr_injective (utf8_injective digests), size_injective sizes⟩, rests⟩
  case directory.directory => exact ⟨rfl, same⟩
  case linkTarget.linkTarget first second =>
    obtain ⟨targets, rests⟩ := same
    cases first
    cases second
    rw [KnownGoodIntegrity.linkTarget.injEq, KnownGoodLinkTarget.mk.injEq]
    exact ⟨utf8_injective targets, rests⟩

theorem splitsOff_entry : SplitsOff (fun numbered : KnownGoodEntry unicode × Nat =>
    numbered.2 < 256 ^ 8) entryFields := by
  rintro ⟨⟨root, path, kind, integrity⟩, ordinal⟩ ⟨⟨root', path', kind', integrity'⟩, ordinal'⟩
    rest rest' small small' same
  simp only [entryFields, cons_append, nil_append, append_assoc, List.cons.injEq,
    true_and] at same
  obtain ⟨ordinals, same⟩ := same
  obtain ⟨⟨rfl, rfl, rfl⟩, tails⟩ := places_split same
  obtain ⟨rfl, rests⟩ := splitsOff_integrity _ _ _ _ trivial trivial tails
  cases (splitsOff_bigEndian 8).injective small small' ordinals
  exact ⟨rfl, rests⟩

theorem splitsOff_repairSource : SplitsOff
    (fun source : Sigma fun _ : Nat => RepairSourceContract unicode => source.1 < 256 ^ 8)
    repairSourceFields := by
  rintro ⟨ordinal, root, path, kind, digest, size, url⟩
    ⟨ordinal', root', path', kind', digest', size', url'⟩ rest rest' small small' same
  simp only [repairSourceFields, cons_append, nil_append, append_assoc,
    List.cons.injEq, true_and] at same
  obtain ⟨ordinals, same⟩ := same
  obtain ⟨⟨rfl, rfl, rfl⟩, tails⟩ := places_split same
  simp only [List.cons.injEq] at tails
  obtain ⟨digests, sizes, urls, rests⟩ := tails
  cases (splitsOff_bigEndian 8).injective small small' ordinals
  cases Sha1Digest.asStr_injective (utf8_injective digests)
  cases size_injective sizes
  cases utf8_injective urls
  exact ⟨rfl, rests⟩

theorem splitsOff_feature : SplitsOff (fun _ : String × Bool => True) featureFields := by
  rintro ⟨name, enabled⟩ ⟨name', enabled'⟩ rest rest' _ _ same
  simp only [featureFields, cons_append, nil_append, List.cons.injEq, and_true] at same
  obtain ⟨names, flags, rests⟩ := same
  have bytes : enabled = enabled' := by
    cases enabled <;> cases enabled' <;> first | rfl | exact absurd flags (by simp)
  rw [utf8_injective names, bytes]
  exact ⟨rfl, rests⟩

/-! ### Streams told apart -/

theorem length_zipIdx_lt {entries : List (KnownGoodEntry unicode)}
    (few : entries.length < 256 ^ 8) : ∀ numbered ∈ entries.zipIdx, numbered.2 < 256 ^ 8 := by
  intro numbered member
  have inside := snd_lt_of_mem_zipIdx member
  omega

/-- An inventory, and what follows it, are told apart. -/
theorem inventories_split {left right : KnownGoodInventory unicode}
    {leftEnvironment rightEnvironment : Environment} (leftFits : Addressable left leftEnvironment)
    (rightFits : Addressable right rightEnvironment)
    (same : inventoryFields left ++ rest = inventoryFields right ++ rest') :
    (left.entries = right.entries ∧
      left.repairSources.entries.Perm right.repairSources.entries) ∧ rest = rest' := by
  have sorted : ∀ inventory : KnownGoodInventory unicode,
      inventory.sortedRepairSources.Perm inventory.repairSources.entries :=
    fun inventory => perm_insertionSort _ _
  simp only [inventoryFields, cons_append, nil_append, append_assoc,
    List.cons.injEq, true_and] at same
  obtain ⟨entryCounts, same⟩ := same
  have entryCount := (splitsOff_bigEndian 8).injective leftFits.entries rightFits.entries
    entryCounts
  obtain ⟨numbered, same⟩ := splitsOff_entry.flatMap
    (by rw [length_zipIdx, length_zipIdx, entryCount])
    (length_zipIdx_lt leftFits.entries) (length_zipIdx_lt rightFits.entries) same
  simp only [List.cons.injEq, true_and] at same
  obtain ⟨sourceCounts, same⟩ := same
  have sourceCount := (splitsOff_bigEndian 8).injective
    ((sorted left).length_eq ▸ leftFits.repairSources)
    ((sorted right).length_eq ▸ rightFits.repairSources) sourceCounts
  obtain ⟨sources, rests⟩ := splitsOff_repairSource.flatMap sourceCount
    (fun source member => leftFits.ordinals source ((sorted left).mem_iff.mp member))
    (fun source member => rightFits.ordinals source ((sorted right).mem_iff.mp member)) same
  refine ⟨⟨?_, (sorted left).symm.trans (sources ▸ sorted right)⟩, rests⟩
  rw [← zipIdx_map_fst 0 left.entries, numbered, zipIdx_map_fst]

theorem environments_split {left right : Environment}
    (leftFew : left.features.length < 256 ^ 8) (rightFew : right.features.length < 256 ^ 8)
    (same : environmentFields left = environmentFields right) :
    left.osName = right.osName ∧ left.osArch = right.osArch ∧ left.osVersion = right.osVersion ∧
      left.features.Perm right.features := by
  have sorted : ∀ environment : Environment,
      environment.sortedFeatures.Perm environment.features :=
    fun environment => perm_insertionSort _ _
  simp only [environmentFields, cons_append, nil_append, List.cons.injEq, true_and]
    at same
  obtain ⟨names, archs, versions, counts, same⟩ := same
  have count := (splitsOff_bigEndian 8).injective ((sorted left).length_eq ▸ leftFew)
    ((sorted right).length_eq ▸ rightFew) counts
  have features := splitsOff_feature.flatMap_injective count (fun _ _ => trivial)
    (fun _ _ => trivial) same
  exact ⟨utf8_injective names, utf8_injective archs, utf8_injective versions,
    (sorted left).symm.trans (features ▸ sorted right)⟩

/-- The lengths ahead of the fields tell their streams apart. -/
theorem hashedFields_injective {domain : String} {lefts rights : List (List UInt8)}
    (leftShort : ∀ field ∈ lefts, field.length < 256 ^ 8)
    (rightShort : ∀ field ∈ rights, field.length < 256 ^ 8)
    (same : hashedFields domain lefts = hashedFields domain rights) : lefts = rights := by
  have streams := (List.cons.inj (append_cancel_left same)).2
  exact (splitsOff_counted 8).flatMap_injective_of_ne_nil (counted_ne_nil (by decide)) leftShort
    rightShort streams

theorem activationContractIdFromDigest_injective :
    Function.Injective activationContractIdFromDigest := by
  intro first second same
  have encoded := String.append_right_inj _ |>.mp same
  have decoded := congrArg Base64.decode encoded
  rw [Base64.decode_encode, Base64.decode_encode] at decoded
  exact some_inj.mp decoded

/-! ### The contract -/

section

variable {VersionJson Number : Type} {sha256 : List UInt8 → List UInt8}
  {toValue : VersionJson → Option (Json.Document Number)}
  {toVec : Json.Document Number → Option (List UInt8)}
  {left right : AuthenticatedKnownGoodReceipt unicode VersionJson}

theorem KnownGoodRelativePath.length_lt (path : KnownGoodRelativePath unicode) :
    (utf8 path.value).length < 256 ^ 8 := by
  have bounded := path.bounded
  rw [boundedPath, Bool.and_eq_true, decide_eq_true_eq] at bounded
  exact bounded.1.trans_lt (by decide)

variable {receipt : AuthenticatedKnownGoodReceipt unicode VersionJson}

theorem contractFields_short {effectiveVersion : List UInt8}
    (short : effectiveVersion.length < 256 ^ 8) :
    ∀ field ∈ contractFields receipt effectiveVersion, field.length < 256 ^ 8 := by
  have names : (utf8 "version_id").length < 256 ^ 8 ∧
      (utf8 "effective_version.canonical_json.v1").length < 256 ^ 8 := by
    decide
  intro field member
  simp only [contractFields, mem_append, mem_cons, not_mem_nil, or_false]
    at member
  rcases member with (rfl | rfl) | inventory | (rfl | rfl) | environment
  · exact names.1
  · exact KnownGoodRelativePath.length_lt _
  · exact receipt.addressable.fields field (mem_append_left _ inventory)
  · exact names.2
  · exact short
  · exact receipt.addressable.fields field (mem_append_right _ environment)

theorem activationContractId_eq_some {id : String} :
    receipt.activationContractId sha256 toValue toVec = some id ↔
      ∃ value bytes, toValue receipt.effectiveVersion = some value ∧
        toVec value.canonical = some bytes ∧
        activationContractIdFromDigest (sha256
          (hashedFields "axial.known_good.activation_contract.v1"
            (contractFields receipt bytes))) = id := by
  simp only [AuthenticatedKnownGoodReceipt.activationContractId, canonicalJsonBytes, bind_eq_some,
    pure_eq_some]
  constructor
  · rintro ⟨bytes, ⟨value, found, written⟩, made⟩
    exact ⟨value, bytes, found, written, made⟩
  · rintro ⟨value, bytes, found, written, made⟩
    exact ⟨bytes, ⟨value, found, written⟩, made⟩

/-- Receipts with equal fields stand for one contract. -/
theorem sameContract_of_fields {value other : Json.Document Number} {bytes otherBytes : List UInt8}
    (faithful : ∀ first second written, toVec first = some written →
      toVec second = some written → first = second)
    (found : toValue left.effectiveVersion = some value)
    (otherFound : toValue right.effectiveVersion = some other)
    (written : toVec value.canonical = some bytes)
    (otherWritten : toVec other.canonical = some otherBytes)
    (same : contractFields left bytes = contractFields right otherBytes) :
    SameContract toValue left right := by
  simp only [contractFields, cons_append, nil_append, List.cons.injEq, true_and] at same
  obtain ⟨versions, same⟩ := same
  obtain ⟨⟨entries, repairSources⟩, tails⟩ :=
    inventories_split left.addressable right.addressable same
  simp only [List.cons.injEq, true_and] at tails
  obtain ⟨rfl, environments⟩ := tails
  obtain ⟨osName, osArch, osVersion, features⟩ :=
    environments_split left.addressable.features right.addressable.features environments
  have canonical := faithful _ _ _ written otherWritten
  refine ⟨?_, entries, repairSources, ⟨value, other, found, otherFound,
    (Json.Document.canonical_eq_iff value other).mp canonical⟩, osName, osArch, osVersion, features⟩
  have paths := PortableRelativePath.ext (utf8_injective versions)
  cases leftVersion : left.versionId
  cases rightVersion : right.versionId
  rw [leftVersion, rightVersion] at paths
  exact KnownGoodId.mk.injEq .. ▸ paths

/-- Maps are written in the order of their keys, so their own order does not matter. -/
theorem activationContractId_eq_of_same (same : SameContract toValue left right) :
    left.activationContractId sha256 toValue toVec =
      right.activationContractId sha256 toValue toVec := by
  obtain ⟨value, other, found, otherFound, equal⟩ := same.effectiveVersion
  have canonical := (Json.Document.canonical_eq_iff value other).mpr equal
  have versions : canonicalJsonBytes toValue toVec left.effectiveVersion =
      canonicalJsonBytes toValue toVec right.effectiveVersion := by
    rw [canonicalJsonBytes, canonicalJsonBytes, found, otherFound]
    exact congrArg toVec canonical
  have sources : left.inventory.sortedRepairSources = right.inventory.sortedRepairSources :=
    (Json.insertionSort_eq_iff left.inventory.repairSources.nodupKeys).mpr same.repairSources
  have inventories : inventoryFields left.inventory = inventoryFields right.inventory := by
    rw [inventoryFields, inventoryFields, same.entries, sources]
  have features : left.environment.sortedFeatures =
      right.environment.sortedFeatures :=
    (Json.insertionSort_eq_iff left.features).mpr same.features
  have environments : environmentFields left.environment = environmentFields right.environment := by
    rw [environmentFields, environmentFields, same.osName, same.osArch, same.osVersion, features]
  unfold AuthenticatedKnownGoodReceipt.activationContractId contractFields
  rw [versions, same.versionId, inventories, environments]

end

/-- The identifier of an activation contract tells receipts apart by what they say, and by
nothing else. -/
theorem activationContractId_identifies {VersionJson Number : Type}
    (sha256 : List UInt8 → List UInt8) (toValue : VersionJson → Option (Json.Document Number))
    (toVec : Json.Document Number → Option (List UInt8))
    (injective : Function.Injective sha256)
    (faithful : ∀ first second written, toVec first = some written →
      toVec second = some written → first = second)
    (short : ∀ document written, toVec document = some written → written.length < 256 ^ 8) :
    (∀ (left right : AuthenticatedKnownGoodReceipt unicode VersionJson) (leftId rightId : String),
      left.activationContractId sha256 toValue toVec = some leftId →
      right.activationContractId sha256 toValue toVec = some rightId →
      (leftId = rightId ↔ SameContract toValue left right)) ∧
    (∀ left right : AuthenticatedKnownGoodReceipt unicode VersionJson,
      SameContract toValue left right →
      left.activationContractId sha256 toValue toVec =
        right.activationContractId sha256 toValue toVec) := by
  refine ⟨fun left right leftId rightId leftMade rightMade => ⟨fun same => ?_, fun same => ?_⟩,
    fun left right => activationContractId_eq_of_same⟩
  · obtain ⟨value, bytes, found, written, rfl⟩ := activationContractId_eq_some.mp leftMade
    obtain ⟨other, otherBytes, otherFound, otherWritten, rfl⟩ :=
      activationContractId_eq_some.mp rightMade
    have fields := hashedFields_injective (contractFields_short (short _ _ written))
      (contractFields_short (short _ _ otherWritten))
      (injective (activationContractIdFromDigest_injective same))
    exact sameContract_of_fields faithful found otherFound written otherWritten fields
  · have equal : left.activationContractId sha256 toValue toVec =
        right.activationContractId sha256 toValue toVec := activationContractId_eq_of_same same
    rw [leftMade, rightMade] at equal
    exact some_inj.mp equal

/-! ### Receipts of two libraries -/

def plainEnvironment (features : List (String × Bool)) : Environment :=
  ⟨"linux", "x86_64", "6.1", features⟩

def libraryEntry (path : KnownGoodRelativePath Unicode.plain) : KnownGoodEntry Unicode.plain :=
  ⟨.libraries, path, .library, .sha1 ⟨Fixed.zero 20⟩ 5⟩

/-- Two libraries, the second of which can be repaired. -/
def twoLibraries : KnownGoodInventory Unicode.plain where
  entries := [libraryEntry ⟨"com/b.jar", by decide, by decide⟩,
    libraryEntry ⟨"net/a.jar", by decide, by decide⟩]
  repairSources := AList.singleton 1 ⟨.libraries, ⟨"net/a.jar", by decide, by decide⟩, .library,
    ⟨Fixed.zero 20⟩, 5, "https://libraries.minecraft.net/net/a.jar"⟩

def versionReceipt (effectiveVersion : Json.Document Empty) (features : List (String × Bool))
    (distinct : (features.map Prod.fst).Nodup)
    (fits : Addressable twoLibraries (plainEnvironment features)) :
    AuthenticatedKnownGoodReceipt Unicode.plain (Json.Document Empty) where
  versionId := ⟨⟨"1.21", by decide, by decide⟩, by decide⟩
  inventory := twoLibraries
  effectiveVersion
  environment := plainEnvironment features
  features := distinct
  addressable := fits

def versionText (kind : String) : List UInt8 :=
  utf8 ("\x7b\"id\":\"1.21\",\"type\":\"" ++ kind ++ "\"\x7d")

def versionKinds : List String := ["release", "snapshot"]

/-- Of one version in two kinds the JSON is written, in the order of the keys, and of nothing
else. -/
def writeVersion (document : Json.Document Empty) : Option (List UInt8) :=
  match document.val with
  | .object [(first, .text id), (second, .text kind)] =>
    if first = "id" ∧ id = "1.21" ∧ second = "type" ∧ kind ∈ versionKinds then
      some (versionText kind)
    else none
  | _ => none

theorem writeVersion_eq_some {document : Json.Document Empty} {written : List UInt8}
    (made : writeVersion document = some written) :
    ∃ kind ∈ versionKinds, document.val = .object [("id", .text "1.21"), ("type", .text kind)] ∧
      written = versionText kind := by
  unfold writeVersion at made
  split at made
  · rename_i kind value
    obtain ⟨⟨rfl, rfl, rfl, known⟩, same⟩ := ite_none_right_eq_some.mp made
    exact ⟨kind, known, value, (some_inj.mp same).symm⟩
  · cases made

theorem versionText_injective : ∀ kind ∈ versionKinds, ∀ other ∈ versionKinds,
    versionText kind = versionText other → kind = other := by
  decide

theorem versionText_short : ∀ kind ∈ versionKinds, (versionText kind).length < 256 ^ 8 := by
  decide

theorem libraries_fit {features : List (String × Bool)}
    (fields : ∀ field ∈ environmentFields (plainEnvironment features), field.length < 256 ^ 8)
    (few : features.length < 256 ^ 8) :
    Addressable twoLibraries (plainEnvironment features) where
  fields field member := by
    rcases mem_append.mp member with inventory | environment
    · exact (by decide +kernel : ∀ field ∈ inventoryFields twoLibraries, field.length < 256 ^ 8)
        field inventory
    · exact fields field environment
  entries := by decide
  ordinals := by decide
  repairSources := by decide
  features := few

def releaseReceipt : AuthenticatedKnownGoodReceipt Unicode.plain (Json.Document Empty) :=
  versionReceipt ⟨.object [("id", .text "1.21"), ("type", .text "release")],
      by decide, trivial, trivial, trivial⟩
    [("demo", true), ("quick", false)] (by decide) (libraries_fit (by decide) (by decide))

/-- The members and the features of the release the other way round. -/
def reorderedReceipt : AuthenticatedKnownGoodReceipt Unicode.plain (Json.Document Empty) :=
  versionReceipt ⟨.object [("type", .text "release"), ("id", .text "1.21")],
      by decide, trivial, trivial, trivial⟩
    [("quick", false), ("demo", true)] (by decide) (libraries_fit (by decide) (by decide))

def snapshotReceipt : AuthenticatedKnownGoodReceipt Unicode.plain (Json.Document Empty) :=
  versionReceipt ⟨.object [("id", .text "1.21"), ("type", .text "snapshot")],
      by decide, trivial, trivial, trivial⟩
    [("demo", true), ("quick", false)] (by decide) (libraries_fit (by decide) (by decide))

theorem activationContractId_identifies_versions : ∃ release snapshot,
    releaseReceipt.activationContractId id some writeVersion = some release ∧
    reorderedReceipt.activationContractId id some writeVersion = some release ∧
    snapshotReceipt.activationContractId id some writeVersion = some snapshot ∧
    release ≠ snapshot := by
  obtain ⟨identifies, ordered⟩ := @activationContractId_identifies Unicode.plain _ _ id some
    writeVersion Function.injective_id
    (fun first second written firstMade secondMade => by
      obtain ⟨kind, known, value, rfl⟩ := writeVersion_eq_some firstMade
      obtain ⟨other, otherKnown, otherValue, same⟩ := writeVersion_eq_some secondMade
      cases versionText_injective kind known other otherKnown same
      exact Subtype.ext (value.trans otherValue.symm))
    (fun document written made => by
      obtain ⟨kind, known, -, rfl⟩ := writeVersion_eq_some made
      exact versionText_short kind known)
  have release := (@activationContractId_eq_some _ _ _ id some writeVersion releaseReceipt _).mpr
    ⟨_, versionText "release", rfl, rfl, rfl⟩
  have snapshot := (@activationContractId_eq_some _ _ _ id some writeVersion snapshotReceipt _).mpr
    ⟨_, versionText "snapshot", rfl, rfl, rfl⟩
  refine ⟨_, _, release, ?_, snapshot, fun same => ?_⟩
  · rw [← release]
    refine (ordered releaseReceipt reorderedReceipt ⟨rfl, rfl, .refl _, ⟨_, _, rfl, rfl, rfl, ?_⟩,
      rfl, rfl, rfl, .swap _ _ _⟩).symm
    exact ⟨⟨_, mem_cons_of_mem _ mem_cons_self, rfl⟩, ⟨_, mem_cons_self, rfl⟩, trivial⟩
  · obtain ⟨_, _, ⟨⟩, ⟨⟩, -, -, ⟨other, member, kinds⟩, -⟩ :=
      ((identifies _ _ _ _ release snapshot).mp same).effectiveVersion
    rcases mem_cons.mp member with first | second
    · exact absurd (congrArg Prod.fst first) (by decide : "type" ≠ "id")
    · cases mem_singleton.mp second
      exact absurd kinds (by decide : "release" ≠ "snapshot")

end Axial.Minecraft
