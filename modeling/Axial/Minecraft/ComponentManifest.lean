/-
This file models the intent manifest of a component table in
`core/minecraft/src/managed_component_table.rs`, the list of its shards with
their lengths, totals and checksums, and proves its encoding canonical.
-/

import Axial.Minecraft.ComponentShard

namespace Axial.Minecraft

open Bytes Reader List Option

abbrev componentIntentHeaderBytes : Nat := 128
abbrev componentIntentDescriptorBytes : Nat := 64
abbrev maxComponentIntentBytes : Nat :=
  componentIntentHeaderBytes + maxComponentTableShards * componentIntentDescriptorBytes

/-- `AXCPINT\0`. -/
def intentMagic : Fixed 8 := ⟨[0x41, 0x58, 0x43, 0x50, 0x49, 0x4e, 0x54, 0x00], rfl⟩

structure ComponentShardDescriptor where
  shardIndex : UInt32
  firstRow : UInt32
  rowCount : UInt32
  byteLen : UInt32
  finalBytes : UInt64
  priorBytes : UInt64
  sha256 : Fixed 32
  deriving DecidableEq

structure ComponentIntentManifest where
  component : ManagedComponentKind
  totalRows : UInt32
  finalBytes : UInt64
  priorBytes : UInt64
  transactionNonce : Fixed 16
  logicalRowsSha256 : Fixed 32
  projectionSha256 : Fixed 32
  shards : List ComponentShardDescriptor
  deriving DecidableEq

/-! ### Validation -/

/-- One turn of the loop of `validate_manifest`: the totals so far and those with one more
descriptor. -/
def validateDescriptor (totalRows index : Nat) (totals : Nat × Nat)
    (descriptor : ComponentShardDescriptor) : Option (Nat × Nat) := do
  let expectedRows ← expectedShardRowCount totalRows index
  guard (descriptor.shardIndex.toNat = index ∧
    descriptor.firstRow.toNat = index * componentTableRowsPerShard ∧
    descriptor.rowCount.toNat = expectedRows ∧
    componentTableHeaderBytes ≤ descriptor.byteLen.toNat ∧
    descriptor.byteLen.toNat ≤ maxComponentTableShardBytes ∧
    descriptor.finalBytes.toNat ≤ maxTier2AggregateBytes ∧
    descriptor.priorBytes.toNat ≤ maxTier2AggregateBytes)
  let finalBytes ← checkedAggregate totals.1 descriptor.finalBytes.toNat
  let priorBytes ← checkedAggregate totals.2 descriptor.priorBytes.toNat
  return (finalBytes, priorBytes)

def validateDescriptors (totalRows : Nat) :
    Nat → Nat × Nat → List ComponentShardDescriptor → Option (Nat × Nat)
  | _, totals, [] => some totals
  | index, totals, descriptor :: descriptors => do
    validateDescriptors totalRows (index + 1)
      (← validateDescriptor totalRows index totals descriptor) descriptors

def validateManifest (manifest : ComponentIntentManifest) : Option Unit := do
  let expectedCount ← expectedShardCount manifest.totalRows.toNat
  guard (manifest.shards.length = expectedCount ∧
    manifest.finalBytes.toNat ≤ maxTier2AggregateBytes ∧
    manifest.priorBytes.toNat ≤ maxTier2AggregateBytes)
  let totals ← validateDescriptors manifest.totalRows.toNat 0 (0, 0) manifest.shards
  guard (totals = (manifest.finalBytes.toNat, manifest.priorBytes.toNat))

/-! ### Bytes -/

def descriptorBytes (descriptor : ComponentShardDescriptor) : List UInt8 :=
  littleEndian 4 descriptor.shardIndex.toNat ++ (littleEndian 4 descriptor.firstRow.toNat ++
    (littleEndian 4 descriptor.rowCount.toNat ++ (littleEndian 4 descriptor.byteLen.toNat ++
      (littleEndian 8 descriptor.finalBytes.toNat ++ (littleEndian 8 descriptor.priorBytes.toNat ++
        descriptor.sha256.val)))))

def readDescriptor : ByteReader ComponentShardDescriptor := do
  let shardIndex ← uint32
  let firstRow ← uint32
  let rowCount ← uint32
  let byteLen ← uint32
  let finalBytes ← uint64
  let priorBytes ← uint64
  let sha256 ← array 32
  pure ⟨shardIndex, firstRow, rowCount, byteLen, finalBytes, priorBytes, sha256⟩

def manifestHeader (manifest : ComponentIntentManifest) : List UInt8 :=
  intentMagic.val ++ (littleEndian 2 formatVersion ++ (manifest.component.toByte :: 0 ::
    (littleEndian 4 manifest.shards.length ++ (littleEndian 4 manifest.totalRows.toNat ++
      (littleEndian 2 componentIntentDescriptorBytes ++ (littleEndian 2 0 ++
        (littleEndian 8 manifest.finalBytes.toNat ++ (littleEndian 8 manifest.priorBytes.toNat ++
          (manifest.transactionNonce.val ++ (manifest.logicalRowsSha256.val ++
            (manifest.projectionSha256.val ++
              (littleEndian 4 (manifest.shards.length * componentIntentDescriptorBytes) ++
                littleEndian 4 0))))))))))))

def encodeComponentIntentManifest (manifest : ComponentIntentManifest) : Option (List UInt8) := do
  validateManifest manifest
  let descriptorsLen := manifest.shards.length * componentIntentDescriptorBytes
  guard (componentIntentHeaderBytes + descriptorsLen ≤ maxComponentIntentBytes)
  guard (manifest.shards.length < 2 ^ 32 ∧ descriptorsLen < 2 ^ 32)
  return manifestHeader manifest ++ manifest.shards.flatMap descriptorBytes

def readManifest : ByteReader ComponentIntentManifest := do
  let magic ← array 8
  require (magic = intentMagic)
  let version ← number 2
  require (version = formatVersion)
  let componentByte ← byte
  let component ← lift (ManagedComponentKind.fromByte componentByte)
  let padding ← byte
  require (padding = 0)
  let shardCount ← number 4
  let totalRows ← uint32
  let descriptorBytes ← number 2
  let reserved ← number 2
  require (descriptorBytes = componentIntentDescriptorBytes ∧ reserved = 0)
  let finalBytes ← uint64
  let priorBytes ← uint64
  let transactionNonce ← array 16
  let logicalRowsSha256 ← array 32
  let projectionSha256 ← array 32
  let descriptorsLen ← number 4
  let reserved ← number 4
  let rest ← left
  require (reserved = 0 ∧ shardCount ≤ maxComponentTableShards ∧
    descriptorsLen = shardCount * componentIntentDescriptorBytes ∧ rest = descriptorsLen)
  let shards ← many readDescriptor shardCount
  pure ⟨component, totalRows, finalBytes, priorBytes, transactionNonce, logicalRowsSha256,
    projectionSha256, shards⟩

def decodeComponentIntentManifest (bytes : List UInt8) : Option ComponentIntentManifest := do
  guard (componentIntentHeaderBytes ≤ bytes.length ∧ bytes.length ≤ maxComponentIntentBytes)
  let manifest ← decode readManifest bytes
  validateManifest manifest
  guard (encodeComponentIntentManifest manifest = some bytes)
  return manifest

/-! ### The codec -/

theorem readDescriptor_exact : Exact readDescriptor descriptorBytes fun _ => True := by
  intro input descriptor rest
  unfold readDescriptor
  simp only [uint32_bind, uint64_bind, array_bind, run_pure_eq_some, true_and]
  constructor
  · rintro ⟨_, _, rfl, _, _, rfl, _, _, rfl, _, _, rfl, _, _, rfl, _, _, rfl, _, _, rfl, equal⟩
    cases equal
    simp only [descriptorBytes, append_assoc]
  · rintro rfl
    exact ⟨_, _, by simp only [descriptorBytes, append_assoc], _, _, rfl, _, _, rfl, _, _, rfl,
      _, _, rfl, _, _, rfl, _, _, rfl, rfl⟩

theorem descriptorBytes_length (descriptor : ComponentShardDescriptor) :
    (descriptorBytes descriptor).length = componentIntentDescriptorBytes := by
  simp only [descriptorBytes, length_append, littleEndian_length, Fixed.length_val]

theorem descriptors_length (descriptors : List ComponentShardDescriptor) :
    (descriptors.flatMap descriptorBytes).length =
      descriptors.length * componentIntentDescriptorBytes := by
  induction descriptors with
  | nil => rfl
  | cons descriptor descriptors ih =>
    rw [flatMap_cons, length_append, ih, descriptorBytes_length,
      length_cons, Nat.succ_mul, Nat.add_comm]

theorem manifestHeader_length (manifest : ComponentIntentManifest) :
    (manifestHeader manifest).length = componentIntentHeaderBytes := by
  simp only [manifestHeader, length_append, length_cons, littleEndian_length,
    Fixed.length_val]

theorem decode_readManifest_eq_some (bytes : List UInt8) (manifest : ComponentIntentManifest) :
    decode readManifest bytes = some manifest ↔
      manifest.shards.length ≤ maxComponentTableShards ∧
      bytes = manifestHeader manifest ++ manifest.shards.flatMap descriptorBytes := by
  rw [decode_eq_some]
  unfold readManifest
  simp only [array_bind, require_bind, number_bind, byte_bind, lift_bind, uint32_bind, uint64_bind,
    left_bind, (readDescriptor_exact.many _).bind, run_pure_eq_some,
    ManagedComponentKind.fromByte_eq_some]
  constructor
  · rintro ⟨_, _, rfl, rfl, _, _, _, rfl, rfl, _, _, rfl, _, rfl, _, _, rfl, rfl, count, _, _,
      rfl, _, _, rfl, _, _, _, rfl, _, _, _, rfl, ⟨rfl, rfl⟩, _, _, rfl, _, _, rfl, _, _, rfl, _, _,
      rfl, _, _, rfl, _, _, _, rfl, _, _, _, rfl, ⟨rfl, few, rfl, -⟩, shards, _, ⟨rfl, -⟩, rfl, equal⟩
    cases equal
    refine ⟨few, ?_⟩
    simp only [manifestHeader, append_assoc, cons_append, List.append_nil]
  · rintro ⟨few, rfl⟩
    have shardsFit : manifest.shards.length < 256 ^ 4 := few.trans_lt (by decide)
    have bytesFit : manifest.shards.length * componentIntentDescriptorBytes < 256 ^ 4 :=
      (Nat.mul_le_mul_right _ few).trans_lt (by decide)
    exact ⟨_, _, by simp only [manifestHeader, append_assoc, cons_append], rfl,
      formatVersion, _, by decide, rfl, rfl, _, _, rfl, manifest.component, rfl, 0, _, rfl, rfl,
      manifest.shards.length, _, shardsFit, rfl, manifest.totalRows, _, rfl,
      componentIntentDescriptorBytes, _, by decide, rfl, 0, _, by decide, rfl, ⟨rfl, rfl⟩,
      manifest.finalBytes, _, rfl, manifest.priorBytes, _, rfl, manifest.transactionNonce, _, rfl,
      manifest.logicalRowsSha256, _, rfl, manifest.projectionSha256, _, rfl, _, _, bytesFit, rfl, 0,
      _, by decide, rfl, ⟨rfl, few, rfl, descriptors_length _⟩, manifest.shards, [],
      ⟨rfl, fun _ _ => trivial⟩, (List.append_nil _).symm, rfl⟩

theorem shards_length_le {manifest : ComponentIntentManifest}
    (valid : validateManifest manifest = some ()) :
    manifest.shards.length ≤ maxComponentTableShards := by
  simp only [validateManifest, bind_eq_some, guard_eq_some', exists_const] at valid
  obtain ⟨count, expected, ⟨same, -⟩, -⟩ := valid
  unfold expectedShardCount at expected
  dsimp only at expected
  split_ifs at expected with _ few
  cases expected
  exact same ▸ few

theorem encodeManifest_eq_some (manifest : ComponentIntentManifest) (bytes : List UInt8) :
    encodeComponentIntentManifest manifest = some bytes ↔ validateManifest manifest = some () ∧
      bytes = manifestHeader manifest ++ manifest.shards.flatMap descriptorBytes := by
  unfold encodeComponentIntentManifest
  simp only [bind_eq_some, guard_eq_some', exists_const, pure_eq_some]
  constructor
  · rintro ⟨_, valid, -, -, rfl⟩
    exact ⟨valid, rfl⟩
  · rintro ⟨valid, rfl⟩
    have few := shards_length_le valid
    have count : maxComponentTableShards = 782 := rfl
    refine ⟨(), valid, ?_, ⟨?_, ?_⟩, rfl⟩
    · exact Nat.add_le_add_left (Nat.mul_le_mul_right _ few) _
    · omega
    · simp only [componentIntentDescriptorBytes]
      omega

/-- The manifest codec is canonical. -/
theorem decodeManifest_eq_some (bytes : List UInt8) (manifest : ComponentIntentManifest) :
    decodeComponentIntentManifest bytes = some manifest ↔
      encodeComponentIntentManifest manifest = some bytes := by
  unfold decodeComponentIntentManifest
  simp only [bind_eq_some, guard_eq_some', exists_const, pure_eq_some]
  constructor
  · rintro ⟨-, found, -, _, -, encoded, rfl⟩
    exact encoded
  · intro encoded
    have ⟨valid, same⟩ := (encodeManifest_eq_some manifest bytes).mp encoded
    have few := shards_length_le valid
    have length : bytes.length = componentIntentHeaderBytes +
        manifest.shards.length * componentIntentDescriptorBytes := by
      rw [same, length_append, manifestHeader_length, descriptors_length]
    refine ⟨⟨?_, ?_⟩, manifest, (decode_readManifest_eq_some _ _).mpr ⟨few, same⟩, (), valid,
      encoded, rfl⟩
    · rw [length]
      exact Nat.le_add_right _ _
    · rw [length]
      exact Nat.add_le_add_left (Nat.mul_le_mul_right _ few) _

end Axial.Minecraft
