/-
This file models the journal of created ancestors in
`core/minecraft/src/managed_component_ancestor_journal.rs`. An authority is made
from the encoded intent of a component table and the list of the ancestors, the
targets, and cuts the list into shards of 256 records, each with a header that
binds it to the intent and to the list, and a checksum. The file proves that the
journal takes the targets of every finished table, that the shards are the list,
and that a shard is read from its own bytes only.
-/

import Axial.Library.Chunks
import Axial.Minecraft.CreatedAncestors

namespace Axial.Minecraft

open Bytes Reader List
open Option (bind_eq_bind bind_eq_some_iff bind_some guard_eq_some' isSome_iff_exists some_inj)

abbrev componentAncestorRecordsPerShard : Nat := 256
abbrev componentAncestorJournalHeaderBytes : Nat := 128
abbrev componentAncestorJournalRecordPrefixBytes : Nat := 12
abbrev componentAncestorJournalChecksumBytes : Nat := 32
abbrev maxComponentAncestorJournalShardBytes : Nat :=
  componentAncestorJournalHeaderBytes + componentAncestorRecordsPerShard *
    (componentAncestorJournalRecordPrefixBytes + maxComponentPathBytes) +
    componentAncestorJournalChecksumBytes
abbrev ancestorJournalFormatVersion : Nat := 2
abbrev componentRootTarget : UInt8 := 1
abbrev relativeTarget : UInt8 := 2

/-- `AXCPANC\0`. -/
def journalMagic : Fixed 8 := ⟨[0x41, 0x58, 0x43, 0x50, 0x41, 0x4e, 0x43, 0x00], rfl⟩

def checksumDomain : List UInt8 := utf8 "axial.component.ancestor-journal.shard.v2" ++ [0]

def targetListDomain : List UInt8 := utf8 "axial.component.ancestor-journal.targets.v1" ++ [0]

def portableTargetDomain : List UInt8 :=
  utf8 "axial.component.ancestor-journal.portable-target.v1" ++ [0]

variable {unicode : Unicode}

structure ComponentAncestorJournalBinding where
  component : ManagedComponentKind
  shardCount : UInt32
  totalRecords : UInt32
  totalPathBytes : UInt32
  transactionNonce : Fixed 16
  intentSha256 : Fixed 32
  targetListSha256 : Fixed 32
  deriving DecidableEq

@[ext]
structure ComponentAncestorJournalRecord (unicode : Unicode) where
  ordinal : UInt32
  target : ComponentCreatedAncestor unicode
  deriving DecidableEq

structure ComponentAncestorJournalShard (unicode : Unicode) where
  binding : ComponentAncestorJournalBinding
  shardIndex : UInt32
  records : List (ComponentAncestorJournalRecord unicode)

structure ComponentAncestorJournalAuthority (unicode : Unicode) where
  binding : ComponentAncestorJournalBinding
  targets : List (ComponentCreatedAncestor unicode)

/-! ### Targets -/

def targetKind : ComponentCreatedAncestor unicode → UInt8
  | .componentRoot => componentRootTarget
  | .relative _ => relativeTarget

/-- `target_path_bytes`. -/
def targetPath : ComponentCreatedAncestor unicode → List UInt8
  | .componentRoot => []
  | .relative path => utf8 path.value

def validateTarget : ComponentCreatedAncestor unicode → Option Unit
  | .componentRoot => some ()
  | .relative path =>
    guard (¬(path.value = "" ∨ (utf8 path.value).length > maxComponentPathBytes))

def ComponentAncestorJournalRecord.new (ordinal : Nat) (target : ComponentCreatedAncestor unicode) :
    Option (ComponentAncestorJournalRecord unicode) := do
  validateTarget target
  guard (ordinal < 2 ^ 32)
  return ⟨UInt32.ofNat ordinal, target⟩

/-- The path of the portable key, the empty one for the root. -/
def portableTargetPath (target : ComponentCreatedAncestor unicode) : List UInt8 :=
  (target.key.map fun key => utf8 key.value).getD []

/-- What `portable_target_sha256` hashes. -/
def portableTarget (target : ComponentCreatedAncestor unicode) : List UInt8 :=
  portableTargetDomain ++ (targetKind target ::
    (littleEndian 2 (portableTargetPath target).length ++ portableTargetPath target))

def portableTargetSha256 (sha256 : List UInt8 → Fixed 32)
    (target : ComponentCreatedAncestor unicode) : Option (Fixed 32) := do
  guard ((portableTargetPath target).length < 2 ^ 16)
  return sha256 (portableTarget target)

/-- The state of the loop of `validate_targets`. -/
structure TargetValidation (unicode : Unicode) where
  pathBytes : Nat
  previous : Option (ComponentCreatedAncestor unicode)
  portableTargets : List (Fixed 32)
  exactTargets : List UInt8

/-- One turn of the loop of `validate_targets`. -/
def validateNextTarget (sha256 : List UInt8 → Fixed 32) (state : TargetValidation unicode)
    (numbered : ComponentCreatedAncestor unicode × Nat) : Option (TargetValidation unicode) := do
  let (target, ordinal) := numbered
  validateTarget target
  guard (¬(target = .componentRoot ∧ ordinal ≠ 0))
  guard (state.previous.all fun previous => !target.le previous)
  let portable ← portableTargetSha256 sha256 target
  guard (portable ∉ state.portableTargets)
  let path := targetPath target
  guard (ordinal < 2 ^ 32 ∧ path.length < 2 ^ 16)
  let pathBytes ← addWithin maxCreatedAncestorPathBytes state.pathBytes path.length
  return {
    pathBytes := pathBytes
    previous := some target
    portableTargets := portable :: state.portableTargets
    exactTargets := state.exactTargets ++ littleEndian 4 ordinal ++ [targetKind target] ++
      littleEndian 2 path.length ++ path }

def validateTargets (sha256 : List UInt8 → Fixed 32)
    (targets : List (ComponentCreatedAncestor unicode)) (totalRecords : UInt32) :
    Option (Nat × Fixed 32) := do
  guard (targets.length ≤ maxCreatedAncestors)
  let state ← targets.zipIdx.foldlM (validateNextTarget sha256) {
    pathBytes := 0
    previous := none
    portableTargets := []
    exactTargets := targetListDomain ++ littleEndian 4 totalRecords.toNat }
  return (state.pathBytes, sha256 state.exactTargets)

/-! ### Geometry -/

def expectedAncestorJournalShardCount (totalRecords : Nat) : Option Nat :=
  if totalRecords > maxCreatedAncestors then none
  else some ((totalRecords + (componentAncestorRecordsPerShard - 1)) /
    componentAncestorRecordsPerShard)

def expectedShardRecordCount (totalRecords shardIndex : Nat) : Option Nat := do
  let shardCount ← expectedAncestorJournalShardCount totalRecords
  guard (shardIndex < shardCount)
  return min (totalRecords - shardIndex * componentAncestorRecordsPerShard)
    componentAncestorRecordsPerShard

/-- The records of a shard are the targets in order, with the ordinals from the first one on. -/
def validateRecords : Nat → List (ComponentAncestorJournalRecord unicode) →
    List (ComponentCreatedAncestor unicode) → Option Unit
  | first, record :: records, target :: targets => do
    guard (record.ordinal.toNat = first ∧ record.target = target)
    validateTarget record.target
    validateRecords (first + 1) records targets
  | _, _, _ => some ()

namespace ComponentAncestorJournalShard

def validateGeometry (shard : ComponentAncestorJournalShard unicode) : Option Unit := do
  let totalRecords := shard.binding.totalRecords.toNat
  let expectedShards ← expectedAncestorJournalShardCount totalRecords
  guard (totalRecords ≠ 0 ∧ shard.binding.shardCount.toNat = expectedShards ∧
    shard.binding.totalPathBytes.toNat ≤ maxCreatedAncestorPathBytes ∧
    shard.shardIndex.toNat < expectedShards)
  let expectedRecords ← expectedShardRecordCount totalRecords shard.shardIndex.toNat
  guard (shard.records.length = expectedRecords)

/-- `validate_shard`. -/
def validate (shard : ComponentAncestorJournalShard unicode)
    (expectedTargets : List (ComponentCreatedAncestor unicode)) : Option Unit := do
  guard (expectedTargets.length = shard.binding.totalRecords.toNat)
  shard.validateGeometry
  let first := shard.shardIndex.toNat * componentAncestorRecordsPerShard
  guard (first + shard.records.length ≤ expectedTargets.length)
  validateRecords first shard.records ((expectedTargets.drop first).take shard.records.length)

end ComponentAncestorJournalShard

/-! ### Bytes -/

def encodedRecordLen (record : ComponentAncestorJournalRecord unicode) : Option Nat := do
  validateTarget record.target
  let length := componentAncestorJournalRecordPrefixBytes + (targetPath record.target).length
  guard (length < 2 ^ 16)
  return length

def ancestorRecordBytes (record : ComponentAncestorJournalRecord unicode) : List UInt8 :=
  littleEndian 2 (componentAncestorJournalRecordPrefixBytes + (targetPath record.target).length) ++
    (littleEndian 2 (targetPath record.target).length ++ (littleEndian 4 record.ordinal.toNat ++
      (targetKind record.target :: 0 :: (littleEndian 2 0 ++ targetPath record.target))))

def encodeRecord (record : ComponentAncestorJournalRecord unicode) : Option (List UInt8) := do
  let _ ← encodedRecordLen record
  guard ((targetPath record.target).length < 2 ^ 16)
  return ancestorRecordBytes record

def decodeTarget (unicode : Unicode) (kind : UInt8) (pathBytes : List UInt8) :
    Option (ComponentCreatedAncestor unicode) :=
  if kind = componentRootTarget ∧ pathBytes = [] then some .componentRoot
  else if kind = relativeTarget ∧ pathBytes ≠ [] then do
    let pathText ← fromUtf8 pathBytes
    let path ← PortableRelativePath.new unicode pathText
    guard (utf8 path.value = pathBytes)
    return .relative path
  else none

def decodeRecord (unicode : Unicode) : ByteReader (ComponentAncestorJournalRecord unicode) := do
  let start ← left
  let recordLen ← number 2
  let pathLen ← number 2
  require (componentAncestorJournalRecordPrefixBytes ≤ recordLen ∧
    pathLen ≤ maxComponentPathBytes ∧
    recordLen = componentAncestorJournalRecordPrefixBytes + pathLen ∧ recordLen ≤ start)
  let ordinal ← uint32
  let kind ← byte
  let padding ← byte
  let reserved ← number 2
  require (padding = 0 ∧ reserved = 0)
  let pathBytes ← take pathLen
  let target ← lift (decodeTarget unicode kind pathBytes)
  let _ ← lift (validateTarget target)
  let finish ← left
  require (start = recordLen + finish)
  pure ⟨ordinal, target⟩

/-- The bytes of the paths of all records, which is bounded. -/
def shardPathBytes (records : List (ComponentAncestorJournalRecord unicode)) : Option Nat :=
  records.foldlM (fun total record =>
    addWithin maxCreatedAncestorPathBytes total (targetPath record.target).length) 0

def ancestorJournalHeader (binding : ComponentAncestorJournalBinding)
    (shardIndex : UInt32) (firstOrdinal recordCount recordsLen pathBytes : Nat) : List UInt8 :=
  journalMagic.val ++ (littleEndian 2 ancestorJournalFormatVersion ++
    (binding.component.toByte :: 0 :: (littleEndian 4 shardIndex.toNat ++
      (littleEndian 4 binding.shardCount.toNat ++
        (littleEndian 4 firstOrdinal ++
          (littleEndian 4 recordCount ++ (littleEndian 4 binding.totalRecords.toNat ++
            (littleEndian 4 recordsLen ++ (littleEndian 4 binding.totalPathBytes.toNat ++
              (littleEndian 4 pathBytes ++ (littleEndian 4 0 ++ (binding.transactionNonce.val ++
                (binding.intentSha256.val ++ binding.targetListSha256.val)))))))))))))

def journalChecksum (sha256 : List UInt8 → Fixed 32) (body : List UInt8) : Fixed 32 :=
  sha256 (checksumDomain ++ body)

def encodeComponentAncestorJournalShard (sha256 : List UInt8 → Fixed 32)
    (shard : ComponentAncestorJournalShard unicode) : Option (List UInt8) := do
  shard.validateGeometry
  let recordsLen := (← shard.records.mapM encodedRecordLen).sum
  let pathBytes ← shardPathBytes shard.records
  let bodyLen := componentAncestorJournalHeaderBytes + recordsLen
  guard (bodyLen + componentAncestorJournalChecksumBytes ≤ maxComponentAncestorJournalShardBytes)
  let firstOrdinal := shard.shardIndex.toNat * componentAncestorRecordsPerShard
  guard (firstOrdinal < 2 ^ 32 ∧ shard.records.length < 2 ^ 32 ∧ recordsLen < 2 ^ 32 ∧
    pathBytes < 2 ^ 32)
  let header := ancestorJournalHeader shard.binding shard.shardIndex firstOrdinal
    shard.records.length recordsLen pathBytes
  guard (header.length = componentAncestorJournalHeaderBytes)
  let body := header ++ (← shard.records.mapM encodeRecord).flatten
  guard (body.length = bodyLen)
  return body ++ (journalChecksum sha256 body).val

/-- The body of a shard, and the first ordinal it says. -/
def readAncestorJournal (unicode : Unicode) (expectedBinding : ComponentAncestorJournalBinding) :
    ByteReader (ComponentAncestorJournalShard unicode × Nat) := do
  let magic ← array 8
  require (magic = journalMagic)
  let version ← number 2
  require (version = ancestorJournalFormatVersion)
  let componentByte ← byte
  let component ← lift (ManagedComponentKind.fromByte componentByte)
  let padding ← byte
  require (padding = 0)
  let shardIndex ← uint32
  let shardCount ← uint32
  let firstOrdinal ← number 4
  let recordCount ← number 4
  let totalRecords ← uint32
  let recordsLen ← number 4
  let totalPathBytes ← uint32
  let encodedShardPathBytes ← number 4
  let reserved ← number 4
  require (reserved = 0)
  let transactionNonce ← array 16
  let intentSha256 ← array 32
  let targetListSha256 ← array 32
  let binding : ComponentAncestorJournalBinding := ⟨component, shardCount, totalRecords,
    totalPathBytes, transactionNonce, intentSha256, targetListSha256⟩
  let rest ← left
  require (binding = expectedBinding ∧ recordCount ≤ componentAncestorRecordsPerShard ∧
    recordsLen = rest)
  let records ← many (decodeRecord unicode) recordCount
  let pathBytes ← lift (shardPathBytes records)
  require (pathBytes = encodedShardPathBytes)
  pure (⟨binding, shardIndex, records⟩, firstOrdinal)

def decodeComponentAncestorJournalShard (sha256 : List UInt8 → Fixed 32) (bytes : List UInt8)
    (expectedBinding : ComponentAncestorJournalBinding)
    (expectedTargets : List (ComponentCreatedAncestor unicode)) :
    Option (ComponentAncestorJournalShard unicode) := do
  guard (componentAncestorJournalHeaderBytes + componentAncestorJournalChecksumBytes ≤
    bytes.length ∧ bytes.length ≤ maxComponentAncestorJournalShardBytes)
  let bodyLen := bytes.length - componentAncestorJournalChecksumBytes
  let body := bytes.take bodyLen
  guard (bytes.drop bodyLen = (journalChecksum sha256 body).val)
  let (shard, firstOrdinal) ← decode (readAncestorJournal unicode expectedBinding) body
  shard.validate expectedTargets
  guard (firstOrdinal = shard.shardIndex.toNat * componentAncestorRecordsPerShard)
  guard (encodeComponentAncestorJournalShard sha256 shard = some bytes)
  return shard

/-! ### The authority -/

namespace ComponentAncestorJournalAuthority

variable (sha256 : List UInt8 → Fixed 32)

def new (encodedIntent : List UInt8) (targets : List (ComponentCreatedAncestor unicode)) :
    Option (ComponentAncestorJournalAuthority unicode) := do
  let intent ← decodeComponentIntentManifest encodedIntent
  guard (targets.length < 2 ^ 32)
  let totalRecords := UInt32.ofNat targets.length
  let (totalPathBytes, targetListSha256) ← validateTargets sha256 targets totalRecords
  let shardCount ← expectedAncestorJournalShardCount targets.length
  guard (shardCount < 2 ^ 32 ∧ totalPathBytes < 2 ^ 32)
  return {
    binding := {
      component := intent.component
      shardCount := UInt32.ofNat shardCount
      totalRecords := totalRecords
      totalPathBytes := UInt32.ofNat totalPathBytes
      transactionNonce := intent.transactionNonce
      intentSha256 := sha256 encodedIntent
      targetListSha256 := targetListSha256 }
    targets := targets }

def createShard (authority : ComponentAncestorJournalAuthority unicode) (shardIndex : Nat)
    (records : List (ComponentAncestorJournalRecord unicode)) :
    Option (ComponentAncestorJournalShard unicode) := do
  guard (shardIndex < 2 ^ 32)
  let shard : ComponentAncestorJournalShard unicode :=
    ⟨authority.binding, UInt32.ofNat shardIndex, records⟩
  shard.validate authority.targets
  return shard

def encodeShard (authority : ComponentAncestorJournalAuthority unicode)
    (shard : ComponentAncestorJournalShard unicode) : Option (List UInt8) := do
  guard (shard.binding = authority.binding)
  shard.validate authority.targets
  encodeComponentAncestorJournalShard sha256 shard

def decodeShard (authority : ComponentAncestorJournalAuthority unicode) (bytes : List UInt8) :
    Option (ComponentAncestorJournalShard unicode) :=
  decodeComponentAncestorJournalShard sha256 bytes authority.binding authority.targets

end ComponentAncestorJournalAuthority

/-! ### Records -/

theorem validateTarget_eq (target : ComponentCreatedAncestor unicode) :
    validateTarget target = some () := by
  cases target with
  | componentRoot => rfl
  | relative path =>
    rw [validateTarget, guard_eq_some', not_or, not_lt]
    exact ⟨value_ne_empty path, (path_length path).2⟩

theorem targetPath_length (target : ComponentCreatedAncestor unicode) :
    (targetPath target).length = target.pathLen ∧
      (targetPath target).length ≤ maxComponentPathBytes := by
  cases target with
  | componentRoot => exact ⟨rfl, Nat.zero_le _⟩
  | relative path => exact ⟨rfl, (path_length path).2⟩

section

variable (record : ComponentAncestorJournalRecord unicode)

include record

theorem encodedRecordLen_eq :
    encodedRecordLen record =
      some (componentAncestorJournalRecordPrefixBytes + (targetPath record.target).length) := by
  have short := (targetPath_length record.target).2
  simp only [maxComponentPathBytes, maxPortableRelativePathBytes] at short
  unfold encodedRecordLen
  rw [validateTarget_eq]
  simp only [bind_eq_bind, bind_some, guard]
  rw [if_pos (by simp only [componentAncestorJournalRecordPrefixBytes]; omega)]
  rfl

theorem encodeRecord_eq : encodeRecord record = some (ancestorRecordBytes record) := by
  have short := (targetPath_length record.target).2
  simp only [maxComponentPathBytes, maxPortableRelativePathBytes] at short
  unfold encodeRecord
  rw [encodedRecordLen_eq]
  simp only [bind_eq_bind, bind_some, guard]
  rw [if_pos (by omega)]
  rfl

theorem ancestorRecordBytes_length :
    (ancestorRecordBytes record).length =
      componentAncestorJournalRecordPrefixBytes + (targetPath record.target).length := by
  unfold ancestorRecordBytes
  simp only [length_append, length_cons, littleEndian_length,
    componentAncestorJournalRecordPrefixBytes]
  omega

end

theorem decodeTarget_eq_some (kind : UInt8) (pathBytes : List UInt8)
    (target : ComponentCreatedAncestor unicode) :
    decodeTarget unicode kind pathBytes = some target ↔
      kind = targetKind target ∧ pathBytes = targetPath target := by
  have apart : relativeTarget ≠ componentRootTarget := by decide
  unfold decodeTarget
  cases target with
  | componentRoot =>
    by_cases root : kind = componentRootTarget ∧ pathBytes = []
    · rw [if_pos root]
      exact ⟨fun _ => root, fun _ => rfl⟩
    · rw [if_neg root]
      refine ⟨fun read => ?_, fun same => absurd same root⟩
      split at read
      · simp [bind_eq_some_iff] at read
      · cases read
  | relative path =>
    have some : utf8 path.value ≠ [] :=
      fun empty => (path_length path).1 (length_eq_zero_iff.mpr empty)
    by_cases relative : kind = relativeTarget ∧ pathBytes ≠ []
    · rw [if_neg fun root => relative.2 root.2, if_pos relative]
      simp only [bind_eq_some, guard_eq_some', exists_const, pure_eq_some,
        ComponentCreatedAncestor.relative.injEq, fromUtf8_eq_some]
      constructor
      · rintro ⟨text, -, path, -, same, rfl⟩
        exact ⟨relative.1, same.symm⟩
      · rintro ⟨-, rfl⟩
        exact ⟨path.value, rfl, path, path.new_value, rfl, rfl⟩
    · refine ⟨fun read => ?_, fun same => absurd ⟨same.1, same.2.symm ▸ some⟩ relative⟩
      rw [if_neg relative] at read
      split at read
      · cases read
      · cases read

theorem decodeRecord_exact :
    Exact (decodeRecord unicode) ancestorRecordBytes fun _ => True := by
  intro input record rest
  unfold decodeRecord
  simp only [left_bind, number_bind, require_bind, uint32_bind, byte_bind, take_bind, lift_bind,
    run_pure_eq_some, decodeTarget_eq_some, validateTarget_eq, true_and]
  constructor
  · rintro ⟨_, _, _, rfl, _, _, _, rfl, ⟨-, -, rfl, -⟩, ordinal, _, rfl, _, _, rfl, _, _, rfl, _, _,
      _, rfl, ⟨rfl, rfl⟩, _, _, rfl, rfl, target, ⟨rfl, rfl⟩, _, -, equal⟩
    cases equal
    simp only [ancestorRecordBytes, append_assoc, cons_append]
  · rintro rfl
    have short := (targetPath_length record.target).2
    have whole : (ancestorRecordBytes record ++ rest).length =
        componentAncestorJournalRecordPrefixBytes + (targetPath record.target).length +
          rest.length := by
      rw [length_append, ancestorRecordBytes_length]
    have fits : componentAncestorJournalRecordPrefixBytes + (targetPath record.target).length <
        256 ^ 2 := (Nat.add_le_add_left short _).trans_lt (by decide)
    exact ⟨_, _, fits, by simp only [ancestorRecordBytes, append_assoc, cons_append], _, _,
      short.trans_lt (by decide), rfl,
      ⟨Nat.le_add_right _ _, short, rfl, whole ▸ Nat.le_add_right _ _⟩, record.ordinal, _, rfl, _, _,
      rfl, 0, _, rfl, 0, _, by decide, rfl, ⟨rfl, rfl⟩, _, _, rfl, rfl, record.target, ⟨rfl, rfl⟩, (),
      whole, rfl⟩

/-! ### Shards -/

/-- The records of some targets, with ordinals from a first one on. -/
def ancestorRecords : Nat → List (ComponentCreatedAncestor unicode) →
    List (ComponentAncestorJournalRecord unicode)
  | _, [] => []
  | first, target :: targets => ⟨UInt32.ofNat first, target⟩ :: ancestorRecords (first + 1) targets

section

variable (first : Nat) (targets : List (ComponentCreatedAncestor unicode))

include first targets

theorem ancestorRecords_append (others : List (ComponentCreatedAncestor unicode)) :
    ancestorRecords first (targets ++ others) =
      ancestorRecords first targets ++ ancestorRecords (first + targets.length) others := by
  induction targets generalizing first with
  | nil => rfl
  | cons target targets ih =>
    rw [cons_append, ancestorRecords, ancestorRecords, ih, cons_append,
      length_cons, Nat.add_right_comm, Nat.add_assoc]

theorem ancestorRecords_target :
    (ancestorRecords first targets).map ComponentAncestorJournalRecord.target = targets := by
  induction targets generalizing first with
  | nil => rfl
  | cons target targets ih =>
    rw [ancestorRecords, map_cons, ih]

theorem ancestorRecords_ordinal (fits : first + targets.length ≤ 2 ^ 32) :
    (ancestorRecords first targets).map (fun record => record.ordinal.toNat) =
      List.range' first targets.length := by
  induction targets generalizing first with
  | nil => rfl
  | cons target targets ih =>
    rw [length_cons] at fits ⊢
    rw [ancestorRecords, map_cons, ih _ (by omega), range'_succ,
      UInt32.toNat_ofNat_of_lt' (by simp only [UInt32.size]; omega)]

theorem ancestorRecords_length : (ancestorRecords first targets).length = targets.length := by
  have same := congrArg List.length (ancestorRecords_target first targets)
  rwa [length_map] at same

end

theorem validateRecords_eq_some (first : Nat)
    (records : List (ComponentAncestorJournalRecord unicode))
    (targets : List (ComponentCreatedAncestor unicode)) (same : records.length = targets.length)
    (fits : first + targets.length ≤ 2 ^ 32) :
    validateRecords first records targets = some () ↔ records = ancestorRecords first targets := by
  induction records generalizing first targets with
  | nil =>
    rw [length_eq_zero_iff.mp same.symm]
    exact ⟨fun _ => rfl, fun _ => rfl⟩
  | cons record records ih =>
    cases targets with
    | nil => cases same
    | cons target targets =>
      rw [length_cons] at fits
      have number : (UInt32.ofNat first).toNat = first :=
        UInt32.toNat_ofNat_of_lt' (by simp only [UInt32.size]; omega)
      have later := ih (first + 1) targets (Nat.succ.inj same) (by omega)
      simp only [validateRecords, bind_eq_some, guard_eq_some', exists_const,
        validateTarget_eq, later, ancestorRecords, List.cons.injEq,
        ComponentAncestorJournalRecord.ext_iff, ← UInt32.toNat_inj, number, true_and]

theorem shardPathBytes_eq (records : List (ComponentAncestorJournalRecord unicode))
    (few : records.length ≤ componentAncestorRecordsPerShard) :
    shardPathBytes records =
      some (records.map fun record => (targetPath record.target).length).sum := by
  have general (total : Nat)
      (fits : total + records.length * maxComponentPathBytes ≤ maxCreatedAncestorPathBytes) :
      records.foldlM (fun total record =>
        addWithin maxCreatedAncestorPathBytes total (targetPath record.target).length) total =
          some (total + (records.map fun record => (targetPath record.target).length).sum) := by
    clear few
    induction records generalizing total with
    | nil => rfl
    | cons record records ih =>
      have short := (targetPath_length record.target).2
      rw [length_cons, Nat.succ_mul] at fits
      rw [foldlM_cons, addWithin, if_pos (by omega), map_cons, sum_cons]
      refine (ih _ (by omega)).trans ?_
      rw [Nat.add_assoc]
  unfold shardPathBytes
  have fits := Nat.mul_le_mul_right maxComponentPathBytes few
  rw [general 0 (by
    rw [Nat.zero_add]
    exact fits.trans (by decide)), Nat.zero_add]

namespace ComponentAncestorJournalShard

variable {shard : ComponentAncestorJournalShard unicode}

/-- What the geometry of a shard says. -/
theorem validateGeometry_eq_some :
    shard.validateGeometry = some () ↔
      shard.binding.totalRecords.toNat ≤ maxCreatedAncestors ∧
      shard.binding.totalRecords.toNat ≠ 0 ∧
      shard.binding.shardCount.toNat = (shard.binding.totalRecords.toNat +
        (componentAncestorRecordsPerShard - 1)) / componentAncestorRecordsPerShard ∧
      shard.binding.totalPathBytes.toNat ≤ maxCreatedAncestorPathBytes ∧
      shard.shardIndex.toNat < shard.binding.shardCount.toNat ∧
      shard.records.length = min (shard.binding.totalRecords.toNat -
        shard.shardIndex.toNat * componentAncestorRecordsPerShard)
        componentAncestorRecordsPerShard := by
  simp only [validateGeometry, expectedShardRecordCount, expectedAncestorJournalShardCount,
    bind_eq_some, guard_eq_some', exists_const, pure_eq_some]
  by_cases few : shard.binding.totalRecords.toNat > maxCreatedAncestors
  · simp only [if_pos few, reduceCtorEq, false_and, exists_false, false_iff]
    exact fun bounded => absurd bounded.1 (not_le.mpr few)
  · simp only [if_neg few, some_inj, exists_eq_left', not_lt.mp few, true_and]
    constructor
    · rintro ⟨⟨some, count, short, inside⟩, _, ⟨-, rfl⟩, rows⟩
      exact ⟨some, count, short, count ▸ inside, rows⟩
    · rintro ⟨some, count, short, inside, rows⟩
      exact ⟨⟨some, count, short, count ▸ inside⟩, _, ⟨count ▸ inside, rfl⟩, rows⟩

variable {targets : List (ComponentCreatedAncestor unicode)}

/-- Where the geometry of a shard is right, its records are checked to be one piece. -/
theorem validateRecords_piece (all : targets.length = shard.binding.totalRecords.toNat)
    (geometry : shard.validateGeometry = some ()) :
    (shard.shardIndex.toNat * componentAncestorRecordsPerShard + shard.records.length ≤
        targets.length ∧
      validateRecords (shard.shardIndex.toNat * componentAncestorRecordsPerShard) shard.records
        ((targets.drop (shard.shardIndex.toNat * componentAncestorRecordsPerShard)).take
          shard.records.length) = some ()) ↔
    shard.records = ancestorRecords (shard.shardIndex.toNat * componentAncestorRecordsPerShard)
      (Chunks.chunk componentAncestorRecordsPerShard targets shard.shardIndex.toNat) := by
  obtain ⟨few, -, count, -, inside, rows⟩ := validateGeometry_eq_some.mp geometry
  rw [← all] at few count rows
  have within : shard.shardIndex.toNat * componentAncestorRecordsPerShard +
      shard.records.length ≤ targets.length := by
    simp only [componentAncestorRecordsPerShard] at count rows ⊢
    omega
  have piece : (targets.drop (shard.shardIndex.toNat * componentAncestorRecordsPerShard)).take
      shard.records.length =
        Chunks.chunk componentAncestorRecordsPerShard targets shard.shardIndex.toNat := by
    rw [Chunks.chunk, rows, ← length_drop, take_eq_take_iff]
    omega
  have same : shard.records.length =
      (Chunks.chunk componentAncestorRecordsPerShard targets shard.shardIndex.toNat).length := by
    rw [Chunks.chunk_length, rows]
  have fits : shard.shardIndex.toNat * componentAncestorRecordsPerShard +
      (Chunks.chunk componentAncestorRecordsPerShard targets shard.shardIndex.toNat).length ≤
        2 ^ 32 := by
    rw [← same]
    exact within.trans (few.trans (by decide))
  rw [piece, validateRecords_eq_some _ _ _ same fits]
  exact and_iff_right within

/-- A valid shard is one piece of the targets. -/
theorem validate_eq_some (targets : List (ComponentCreatedAncestor unicode)) :
    shard.validate targets = some () ↔
      targets.length = shard.binding.totalRecords.toNat ∧ shard.validateGeometry = some () ∧
      shard.records = ancestorRecords (shard.shardIndex.toNat * componentAncestorRecordsPerShard)
        (Chunks.chunk componentAncestorRecordsPerShard targets shard.shardIndex.toNat) := by
  simp only [validate, bind_eq_some, guard_eq_some', exists_const]
  constructor
  · rintro ⟨all, _, geometry, valid⟩
    exact ⟨all, geometry, (validateRecords_piece all geometry).mp valid⟩
  · rintro ⟨all, geometry, records⟩
    exact ⟨all, (), geometry, (validateRecords_piece all geometry).mpr records⟩

/-! ### The codec -/

/-- The bytes of a shard before its checksum. -/
def journalBody (shard : ComponentAncestorJournalShard unicode) : List UInt8 :=
  ancestorJournalHeader shard.binding shard.shardIndex
    (shard.shardIndex.toNat * componentAncestorRecordsPerShard) shard.records.length
    (shard.records.flatMap ancestorRecordBytes).length
    (shard.records.map fun record => (targetPath record.target).length).sum ++
  shard.records.flatMap ancestorRecordBytes

theorem ancestorJournalHeader_length (binding : ComponentAncestorJournalBinding)
    (shardIndex : UInt32) (firstOrdinal recordCount recordsLen pathBytes : Nat) :
    (ancestorJournalHeader binding shardIndex firstOrdinal recordCount recordsLen
      pathBytes).length = componentAncestorJournalHeaderBytes := by
  simp only [ancestorJournalHeader, length_append, length_cons, littleEndian_length,
    Fixed.length_val]

theorem ancestorRecords_short (records : List (ComponentAncestorJournalRecord unicode)) :
    (records.flatMap ancestorRecordBytes).length ≤ records.length *
      (componentAncestorJournalRecordPrefixBytes + maxComponentPathBytes) ∧
    (records.map fun record => (targetPath record.target).length).sum ≤
      records.length * maxComponentPathBytes := by
  induction records with
  | nil => exact ⟨Nat.zero_le _, Nat.zero_le _⟩
  | cons record records ih =>
    have short := (targetPath_length record.target).2
    have ⟨whole, paths⟩ := ih
    rw [flatMap_cons, length_append, ancestorRecordBytes_length, length_cons,
      Nat.succ_mul, map_cons, sum_cons, Nat.succ_mul]
    omega

theorem encode_eq (sha256 : List UInt8 → Fixed 32) (geometry : shard.validateGeometry = some ()) :
    encodeComponentAncestorJournalShard sha256 shard =
      some (shard.journalBody ++ (journalChecksum sha256 shard.journalBody).val) := by
  obtain ⟨few, -, count, -, inside, rows⟩ := validateGeometry_eq_some.mp geometry
  have fewRows : shard.records.length ≤ componentAncestorRecordsPerShard := rows ▸ min_le_right _ _
  have ⟨whole, paths⟩ := ancestorRecords_short shard.records
  have lengths : shard.records.mapM encodedRecordLen =
      some (shard.records.map fun record => (ancestorRecordBytes record).length) := by
    rw [funext encodedRecordLen_eq]
    simp only [ancestorRecordBytes_length]
    exact mapM_pure
  have written : shard.records.mapM encodeRecord =
      some (shard.records.map ancestorRecordBytes) := by
    rw [funext encodeRecord_eq]
    exact mapM_pure
  have total : (shard.records.map fun record => (ancestorRecordBytes record).length).sum =
      (shard.records.flatMap ancestorRecordBytes).length := by
    rw [length_flatMap]
  have bound : maxComponentAncestorJournalShardBytes = 128 + 256 * (12 + 512) + 32 := rfl
  have first : shard.shardIndex.toNat * componentAncestorRecordsPerShard < 2 ^ 32 := by
    simp only [componentAncestorRecordsPerShard, maxCreatedAncestors] at few count ⊢
    omega
  unfold encodeComponentAncestorJournalShard
  simp only [geometry, lengths, written, shardPathBytes_eq _ fewRows, total, bind_eq_bind,
    bind_some, bind_eq_some_iff, guard_eq_some', exists_const, Option.pure_def,
    some_inj, ancestorJournalHeader_length, length_append, ← flatMap_def]
  simp only [componentAncestorRecordsPerShard, componentAncestorJournalRecordPrefixBytes,
    maxComponentPathBytes, maxPortableRelativePathBytes] at fewRows whole paths
  refine ⟨?_, ⟨first, by omega, by omega, by omega⟩, trivial, trivial, rfl⟩
  rw [bound]
  simp only [componentAncestorJournalHeaderBytes, componentAncestorJournalChecksumBytes]
  omega

theorem decode_readAncestorJournal_eq_some (body : List UInt8)
    (expected : ComponentAncestorJournalBinding) (firstOrdinal : Nat) :
    decode (readAncestorJournal unicode expected) body = some (shard, firstOrdinal) ↔
      shard.binding = expected ∧ shard.records.length ≤ componentAncestorRecordsPerShard ∧
      firstOrdinal < 256 ^ 4 ∧ (shard.records.flatMap ancestorRecordBytes).length < 256 ^ 4 ∧
      ∃ pathBytes, shardPathBytes shard.records = some pathBytes ∧ pathBytes < 256 ^ 4 ∧
        body = ancestorJournalHeader shard.binding shard.shardIndex firstOrdinal
          shard.records.length (shard.records.flatMap ancestorRecordBytes).length pathBytes ++
            shard.records.flatMap ancestorRecordBytes := by
  rw [decode_eq_some]
  unfold readAncestorJournal
  simp only [array_bind, require_bind, number_bind, byte_bind, lift_bind, uint32_bind, left_bind,
    (decodeRecord_exact.many _).bind, run_pure_eq_some, ManagedComponentKind.fromByte_eq_some]
  constructor
  · rintro ⟨_, _, rfl, rfl, _, _, _, rfl, rfl, _, _, rfl, component, rfl, _, _, rfl, rfl, index, _,
      rfl, count, _, rfl, first, _, firstFits, rfl, records, _, _, rfl, total, _, rfl, recordsLen, _,
      recordsFit, rfl, totalPath, _, rfl, pathBytes, _, pathFits, rfl, _, _, _, rfl, rfl, nonce, _,
      rfl, intent, _, rfl, targets, _, rfl, ⟨same, few, rfl⟩, records, _, ⟨rfl, -⟩, rfl, found, summed,
      rfl, equal⟩
    cases equal
    rw [List.append_nil] at recordsFit ⊢
    refine ⟨same, few, firstFits, recordsFit, _, summed, pathFits, ?_⟩
    simp only [ancestorJournalHeader, append_assoc, cons_append]
  · rintro ⟨same, few, firstFits, recordsFit, pathBytes, summed, pathFits, rfl⟩
    have rowsFit : shard.records.length < 256 ^ 4 := few.trans_lt (by decide)
    exact ⟨_, _, by simp only [ancestorJournalHeader, append_assoc, cons_append], rfl, _, _,
      by decide, rfl, rfl, _, _, rfl, shard.binding.component, rfl, 0, _, rfl, rfl, shard.shardIndex, _,
      rfl, shard.binding.shardCount, _, rfl, firstOrdinal, _, firstFits, rfl, shard.records.length, _,
      rowsFit, rfl, shard.binding.totalRecords, _, rfl, _, _, recordsFit, rfl,
      shard.binding.totalPathBytes, _, rfl, pathBytes, _, pathFits, rfl, 0, _, by decide, rfl, rfl,
      shard.binding.transactionNonce, _, rfl, shard.binding.intentSha256, _, rfl,
      shard.binding.targetListSha256, _, rfl, ⟨same, few, rfl⟩, shard.records, [],
      ⟨rfl, fun _ _ => trivial⟩, (List.append_nil _).symm, pathBytes, summed, rfl, rfl⟩

/-- A shard is decoded from its canonical bytes only. -/
theorem decodeShard_eq_some (sha256 : List UInt8 → Fixed 32) (bytes : List UInt8)
    (binding : ComponentAncestorJournalBinding)
    (targets : List (ComponentCreatedAncestor unicode)) :
    decodeComponentAncestorJournalShard sha256 bytes binding targets = some shard ↔
      shard.binding = binding ∧ shard.validate targets = some () ∧
      encodeComponentAncestorJournalShard sha256 shard = some bytes := by
  simp only [decodeComponentAncestorJournalShard, bind_eq_some, guard_eq_some', exists_const,
    pure_eq_some]
  constructor
  · rintro ⟨-, -, ⟨found, first⟩, read, _, valid, -, encoded, rfl⟩
    exact ⟨((decode_readAncestorJournal_eq_some _ _ _).mp read).1, valid, encoded⟩
  · rintro ⟨same, valid, encoded⟩
    have geometry := ((validate_eq_some _).mp valid).2.1
    obtain ⟨few, -, count, -, inside, rows⟩ := validateGeometry_eq_some.mp geometry
    have fewRows : shard.records.length ≤ componentAncestorRecordsPerShard :=
      rows ▸ min_le_right _ _
    have ⟨whole, paths⟩ := ancestorRecords_short shard.records
    have written := some_inj.mp ((encode_eq sha256 geometry).symm.trans encoded)
    have body : shard.journalBody.length = componentAncestorJournalHeaderBytes +
        (shard.records.flatMap ancestorRecordBytes).length := by
      rw [journalBody, length_append, ancestorJournalHeader_length]
    have length : bytes.length - componentAncestorJournalChecksumBytes =
        shard.journalBody.length := by
      rw [← written, length_append, Fixed.length_val]
      exact Nat.add_sub_cancel _ _
    have bound : maxComponentAncestorJournalShardBytes = 128 + 256 * (12 + 512) + 32 := rfl
    have first : shard.shardIndex.toNat * componentAncestorRecordsPerShard < 256 ^ 4 := by
      simp only [componentAncestorRecordsPerShard, maxCreatedAncestors] at few count ⊢
      omega
    rw [length, ← written, take_left, drop_left, length_append, Fixed.length_val, body]
    simp only [componentAncestorRecordsPerShard, componentAncestorJournalRecordPrefixBytes,
      maxComponentPathBytes, maxPortableRelativePathBytes] at fewRows whole paths
    refine ⟨⟨Nat.add_le_add_right (Nat.le_add_right _ _) _, ?_⟩, rfl, (shard, _), (decode_readAncestorJournal_eq_some _ _ _).mpr
      ⟨same, fewRows, first, by omega, _, shardPathBytes_eq _ fewRows, by omega, rfl⟩, (), valid, rfl,
      encode_eq sha256 geometry, rfl⟩
    rw [bound]
    simp only [componentAncestorJournalHeaderBytes]
    omega

theorem slice_ancestorJournalHeader (binding : ComponentAncestorJournalBinding)
    (shardIndex : UInt32) (firstOrdinal recordCount recordsLen pathBytes : Nat) :
    slice (ancestorJournalHeader binding shardIndex firstOrdinal recordCount recordsLen pathBytes)
      64 32 = binding.intentSha256.val := by
  simp [slice, ancestorJournalHeader, drop_append, drop_eq_nil_of_le]

/-- The bytes that are decoded say which intent they are bound to. -/
theorem intent_of_decodeShard {sha256 : List UInt8 → Fixed 32} {bytes : List UInt8}
    {binding : ComponentAncestorJournalBinding}
    (decoded : decodeComponentAncestorJournalShard sha256 bytes binding targets = some shard) :
    binding.intentSha256.val = slice bytes 64 32 := by
  obtain ⟨rfl, valid, encoded⟩ := (decodeShard_eq_some _ _ _ _).mp decoded
  have geometry := ((validate_eq_some _).mp valid).2.1
  cases (encode_eq sha256 geometry).symm.trans encoded
  rw [journalBody, append_assoc, slice_append_left _ _ _ _ (by
    rw [ancestorJournalHeader_length]
    decide), slice_ancestorJournalHeader]

end ComponentAncestorJournalShard

/-! ### Targets that are accepted -/

theorem portableTarget_key {first second : ComponentCreatedAncestor unicode}
    (same : portableTarget first = portableTarget second) : first.key = second.key := by
  have parts := append_cancel_left same
  obtain ⟨kind, rest⟩ := List.cons.inj parts
  obtain ⟨-, path⟩ := append_inj rest (by rw [littleEndian_length, littleEndian_length])
  cases first with
  | componentRoot =>
    cases second with
    | componentRoot => rfl
    | relative _ => exact absurd kind (by simp only [targetKind]; decide)
  | relative first =>
    cases second with
    | componentRoot => exact absurd kind (by simp only [targetKind]; decide)
    | relative second =>
      have value : first.key.value = second.key.value := utf8_injective path
      show some first.key = some second.key
      rw [show first.key = ⟨first.key.value⟩ from rfl, value]

theorem portableTargetSha256_eq (sha256 : List UInt8 → Fixed 32)
    (target : ComponentCreatedAncestor unicode) :
    portableTargetSha256 sha256 target = some (sha256 (portableTarget target)) := by
  have short : (portableTargetPath target).length < 2 ^ 16 := by
    cases target with
    | componentRoot => exact Nat.two_pow_pos 16
    | relative path =>
      have key := @fromNormalized_length unicode path.value
      have bounded := (path_length path).2
      simp only [maxComponentPathBytes, maxPortableRelativePathBytes] at bounded
      exact Nat.lt_of_le_of_lt key (by omega)
  simp only [portableTargetSha256, bind_eq_some, guard_eq_some', exists_const,
    Option.pure_def]
  exact ⟨short, trivial⟩

/-- The loop takes targets that increase, are short enough together and whose portable hashes are
new. -/
theorem foldlM_validateNextTarget (sha256 : List UInt8 → Fixed 32)
    (targets : List (ComponentCreatedAncestor unicode)) (ordinal : Nat)
    (state : TargetValidation unicode) (begun : ordinal ≠ 0 → state.previous.isSome = true)
    (increasing : (state.previous.toList ++ targets).Pairwise fun first second =>
      second.le first = false)
    (distinct : (targets.map fun target => sha256 (portableTarget target)).Nodup)
    (fresh : ∀ target ∈ targets, sha256 (portableTarget target) ∉ state.portableTargets)
    (few : ordinal + targets.length ≤ 2 ^ 32)
    (short : state.pathBytes + targetPathBytes targets ≤ maxCreatedAncestorPathBytes) :
    ∃ final, (targets.zipIdx ordinal).foldlM (validateNextTarget sha256) state = some final ∧
      final.pathBytes = state.pathBytes + targetPathBytes targets := by
  induction targets generalizing ordinal state with
  | nil => exact ⟨state, rfl, rfl⟩
  | cons target targets ih =>
    have ⟨length, bounded⟩ := targetPath_length target
    have bytes : targetPathBytes (target :: targets) = target.pathLen + targetPathBytes targets := by
      rw [targetPathBytes, map_cons, sum_cons, targetPathBytes]
    rw [bytes] at short ⊢
    rw [length_cons] at few
    obtain ⟨notLater, distinct⟩ := nodup_cons.mp distinct
    have after : ∀ previous ∈ state.previous, target.le previous = false := by
      intro previous last
      rw [Option.mem_def.mp last, Option.toList_some] at increasing
      exact rel_of_pairwise_cons increasing mem_cons_self
    let next : TargetValidation unicode := {
      pathBytes := state.pathBytes + (targetPath target).length
      previous := some target
      portableTargets := sha256 (portableTarget target) :: state.portableTargets
      exactTargets := state.exactTargets ++ littleEndian 4 ordinal ++ [targetKind target] ++
        littleEndian 2 (targetPath target).length ++ targetPath target }
    have taken : validateNextTarget sha256 state (target, ordinal) = some next := by
      simp only [validateNextTarget, validateTarget_eq, portableTargetSha256_eq, bind_eq_bind,
        bind_some, bind_eq_some_iff, guard_eq_some', exists_const,
        Option.pure_def, some_inj]
      refine ⟨?_, ?_, fresh target mem_cons_self, ⟨by omega, ?_⟩, _, ?_, rfl⟩
      · -- the root comes before all others
        rintro ⟨rfl, later⟩
        obtain ⟨previous, last⟩ := isSome_iff_exists.mp (begun later)
        exact Bool.noConfusion (after previous last)
      · rw [Option.all_eq_true]
        intro previous last
        rw [after previous last]
        rfl
      · exact Nat.lt_of_le_of_lt bounded (by decide)
      · rw [addWithin, if_pos (by omega)]
    obtain ⟨final, folded, total⟩ := ih (ordinal + 1) next (fun _ => rfl)
      (increasing.sublist (sublist_append_right _ _)) distinct
      (fun other member => by
        rw [mem_cons, not_or]
        exact ⟨fun same => notLater (mem_map.mpr ⟨other, member, same⟩),
          fresh other (mem_cons_of_mem _ member)⟩) (by omega) (by dsimp only [next]; omega)
    refine ⟨final, ?_, ?_⟩
    · rw [zipIdx_cons]
      exact Runs.foldlM_cons_eq_some.mpr ⟨next, taken, folded⟩
    · rw [total, ← Nat.add_assoc, ← length]

/-! ### The authority -/

namespace ComponentAncestorJournalAuthority

variable {sha256 : List UInt8 → Fixed 32} {encodedIntent : List UInt8}
  {targets : List (ComponentCreatedAncestor unicode)}
  {authority : ComponentAncestorJournalAuthority unicode}

theorem pathBytes_le_of_validateTargets {totalRecords : UInt32} {result : Nat × Fixed 32}
    (valid : validateTargets sha256 targets totalRecords = some result) :
    result.1 ≤ maxCreatedAncestorPathBytes := by
  simp only [validateTargets, bind_eq_some, guard_eq_some', exists_const, pure_eq_some]
    at valid
  obtain ⟨-, final, folded, rfl⟩ := valid
  let holds (state : TargetValidation unicode) : Prop :=
    state.pathBytes ≤ maxCreatedAncestorPathBytes
  refine @Runs.foldlM_invariant _ _ _ holds _ _ _ folded (fun before numbered _ after taken _ => ?_)
    (Nat.zero_le _)
  simp only [validateNextTarget, bind_eq_some, guard_eq_some', exists_const, pure_eq_some]
    at taken
  obtain ⟨-, -, -, -, portable, -, -, -, pathBytes, counted, rfl⟩ := taken
  exact (ComponentRowValidator.le_of_addWithin counted).1

section

variable (made : new sha256 encodedIntent targets = some authority)

include made

/-- What an authority is bound to. -/
theorem new_eq_some :
    authority.targets = targets ∧ authority.binding.intentSha256 = sha256 encodedIntent ∧
      targets.length ≤ maxCreatedAncestors ∧
      authority.binding.totalRecords.toNat = targets.length ∧
      authority.binding.shardCount.toNat = (targets.length +
        (componentAncestorRecordsPerShard - 1)) / componentAncestorRecordsPerShard ∧
      authority.binding.totalPathBytes.toNat ≤ maxCreatedAncestorPathBytes := by
  simp only [new, bind_eq_some, guard_eq_some', exists_const, pure_eq_some] at made
  obtain ⟨intent, -, fits, ⟨pathBytes, digest⟩, valid, shardCount, counted, ⟨countFits, pathFits⟩,
    rfl⟩ := made
  have short := pathBytes_le_of_validateTargets valid
  unfold expectedAncestorJournalShardCount at counted
  split_ifs at counted with many
  cases counted
  refine ⟨rfl, rfl, not_lt.mp many, UInt32.toNat_ofNat_of_lt' fits,
    UInt32.toNat_ofNat_of_lt' countFits, ?_⟩
  exact (UInt32.toNat_ofNat_of_lt' pathFits).trans_le short

/-- Which shards an authority creates. -/
theorem createShard_eq_some (shardIndex : Nat)
    (records : List (ComponentAncestorJournalRecord unicode))
    (shard : ComponentAncestorJournalShard unicode) :
    authority.createShard shardIndex records = some shard ↔
      shardIndex < authority.binding.shardCount.toNat ∧
      records = ancestorRecords (shardIndex * componentAncestorRecordsPerShard)
        (Chunks.chunk componentAncestorRecordsPerShard targets shardIndex) ∧
      shard = ⟨authority.binding, UInt32.ofNat shardIndex, records⟩ := by
  obtain ⟨rfl, -, few, total, count, short⟩ := new_eq_some made
  simp only [createShard, bind_eq_some, guard_eq_some', exists_const, pure_eq_some]
  constructor
  · rintro ⟨fits, _, valid, rfl⟩
    obtain ⟨-, geometry, same⟩ := (ComponentAncestorJournalShard.validate_eq_some _).mp valid
    obtain ⟨-, -, -, -, inside, -⟩ :=
      ComponentAncestorJournalShard.validateGeometry_eq_some.mp geometry
    have number : (UInt32.ofNat shardIndex).toNat = shardIndex := UInt32.toNat_ofNat_of_lt' fits
    rw [number] at inside same
    exact ⟨inside, same, rfl⟩
  · rintro ⟨inside, rfl, rfl⟩
    have fits := inside.trans authority.binding.shardCount.toNat_lt
    have number : (UInt32.ofNat shardIndex).toNat = shardIndex := UInt32.toNat_ofNat_of_lt' fits
    have some : authority.targets.length ≠ 0 := by
      rw [count] at inside
      simp only [componentAncestorRecordsPerShard] at inside
      omega
    refine ⟨fits, (), (ComponentAncestorJournalShard.validate_eq_some _).mpr ⟨total.symm,
      ComponentAncestorJournalShard.validateGeometry_eq_some.mpr ?_, ?_⟩, rfl⟩
    · dsimp only
      rw [number, total, ancestorRecords_length, Chunks.chunk_length]
      exact ⟨few, some, count, short, inside, rfl⟩
    · dsimp only
      rw [number]

/-- The shards of an authority, in order. -/
def shards (authority : ComponentAncestorJournalAuthority unicode) :
    List (ComponentAncestorJournalShard unicode) :=
  (List.range authority.binding.shardCount.toNat).map fun index =>
    ⟨authority.binding, UInt32.ofNat index,
      ancestorRecords (index * componentAncestorRecordsPerShard)
        (Chunks.chunk componentAncestorRecordsPerShard authority.targets index)⟩

theorem createShard_iff_shards (shardIndex : Nat)
    (records : List (ComponentAncestorJournalRecord unicode))
    (shard : ComponentAncestorJournalShard unicode) :
    authority.createShard shardIndex records = some shard ↔
      authority.shards[shardIndex]? = some shard ∧ records = shard.records := by
  have same := (new_eq_some made).1
  rw [createShard_eq_some made, shards, getElem?_map, same]
  by_cases inside : shardIndex < authority.binding.shardCount.toNat
  · rw [getElem?_range inside, Option.map_some, some_inj]
    constructor
    · rintro ⟨-, rfl, rfl⟩
      exact ⟨rfl, rfl⟩
    · rintro ⟨rfl, rfl⟩
      exact ⟨inside, rfl, rfl⟩
  · have nothing : (List.range authority.binding.shardCount.toNat)[shardIndex]? = none :=
      getElem?_eq_none (by rw [length_range]; exact not_lt.mp inside)
    rw [nothing]
    exact ⟨fun created => absurd created.1 inside, fun found => by cases found.1⟩

/-- The shards hold the targets, in order. -/
theorem shards_records :
    authority.shards.flatMap ComponentAncestorJournalShard.records = ancestorRecords 0 targets := by
  obtain ⟨rfl, -, -, -, count, -⟩ := new_eq_some made
  have whole : authority.targets.length ≤
      authority.binding.shardCount.toNat * componentAncestorRecordsPerShard := by
    rw [count]
    exact Chunks.length_le_mul (by decide) _
  rw [shards, flatMap_map]
  refine (Chunks.flatMap_chunk componentAncestorRecordsPerShard ancestorRecords (fun _ => rfl)
    ancestorRecords_append authority.targets authority.binding.shardCount.toNat).trans ?_
  rw [take_of_length_le whole]

end

theorem decodeShard_iff (bytes : List UInt8) (shard : ComponentAncestorJournalShard unicode) :
    authority.decodeShard sha256 bytes = some shard ↔
      authority.encodeShard sha256 shard = some bytes := by
  simp only [encodeShard, bind_eq_some, guard_eq_some', exists_const, decodeShard,
    ComponentAncestorJournalShard.decodeShard_eq_some]
  constructor
  · rintro ⟨same, valid, encoded⟩
    exact ⟨same, (), valid, encoded⟩
  · rintro ⟨same, _, valid, encoded⟩
    exact ⟨same, valid, encoded⟩

/-- What is encoded is a shard of the authority, and every shard is encoded. -/
theorem encodeShard_isSome (made : new sha256 encodedIntent targets = some authority)
    (shard : ComponentAncestorJournalShard unicode) :
    (authority.encodeShard sha256 shard).isSome = true ↔ shard ∈ authority.shards := by
  have created : (∃ shardIndex, authority.createShard shardIndex shard.records = some shard) ↔
      shard ∈ authority.shards := by
    rw [mem_iff_getElem?]
    simp only [createShard_iff_shards made, and_true]
  rw [← created, isSome_iff_exists]
  simp only [encodeShard, createShard, bind_eq_some, guard_eq_some', exists_const,
    pure_eq_some]
  constructor
  · rintro ⟨bytes, same, _, valid, -⟩
    refine ⟨shard.shardIndex.toNat, shard.shardIndex.toNat_lt, ?_⟩
    rw [UInt32.ofNat_toNat, ← same]
    exact ⟨(), valid, rfl⟩
  · rintro ⟨shardIndex, -, _, valid, same⟩
    rw [same] at valid
    have geometry := ((ComponentAncestorJournalShard.validate_eq_some _).mp valid).2.1
    exact ⟨_, same ▸ rfl, (), valid, ComponentAncestorJournalShard.encode_eq sha256 geometry⟩

/-- The targets of a finished table are accepted. -/
theorem new_of_finished {manifest : ComponentIntentManifest}
    {summary : ComponentTableSummary unicode} (table : FinishedTable sha256 manifest summary)
    (encoded : encodeComponentIntentManifest manifest = some encodedIntent)
    {hashed : Set (List UInt8)} (injective : Set.InjOn sha256 hashed)
    (portable : ∀ target ∈ summary.createdAncestors, portableTarget target ∈ hashed) :
    ∃ authority : ComponentAncestorJournalAuthority unicode,
      new sha256 encodedIntent summary.createdAncestors = some authority := by
  obtain ⟨created, sound, same⟩ := table.createdAncestors
  rw [same] at portable ⊢
  have few := sound.sorted_few
  have short := sound.sorted_short
  have distinct : (created.sorted.map fun target => sha256 (portableTarget target)).Nodup := by
    refine List.Nodup.map_on ?_ (List.Nodup.of_map _ sound.keys_nodup)
    intro first firstMember second secondMember equal
    exact inj_on_of_nodup_map sound.keys_nodup firstMember secondMember
      (portableTarget_key (injective (portable _ firstMember) (portable _ secondMember) equal))
  obtain ⟨final, folded, total⟩ := foldlM_validateNextTarget sha256 created.sorted 0
    ⟨0, none, [], targetListDomain ++ littleEndian 4 (UInt32.ofNat created.sorted.length).toNat⟩
    (fun some => absurd rfl some) sound.increasing distinct (fun _ _ => not_mem_nil)
    (by rw [Nat.zero_add]; exact few.trans (by decide)) (by rw [Nat.zero_add]; exact short)
  rw [Nat.zero_add] at total
  have valid : validateTargets sha256 created.sorted (UInt32.ofNat created.sorted.length) =
      some (final.pathBytes, sha256 final.exactTargets) := by
    unfold validateTargets
    rw [folded]
    simp [guard, few]
  have counted : expectedAncestorJournalShardCount created.sorted.length =
      some ((created.sorted.length + (componentAncestorRecordsPerShard - 1)) /
        componentAncestorRecordsPerShard) :=
    if_neg (not_lt.mpr few)
  simp only [new, (decodeManifest_eq_some _ _).mpr encoded, valid, counted, bind_eq_bind,
    bind_some, bind_eq_some_iff, guard_eq_some', exists_const, Option.pure_def,
    some_inj]
  simp only [maxCreatedAncestors, maxCreatedAncestorPathBytes, componentAncestorRecordsPerShard]
    at few short ⊢
  exact ⟨_, by omega, ⟨by omega, by omega⟩, rfl⟩

end ComponentAncestorJournalAuthority

/-- The journal covers every finished table. The targets and the encoded intent are accepted; the
authority creates exactly the shards of one list; each is read back from its bytes; their records
are the targets in order; and nothing is read but the bytes of such a shard, which an authority for
another intent does not read. -/
theorem ancestorJournal_covers {sha256 : List UInt8 → Fixed 32}
    {manifest : ComponentIntentManifest} {summary : ComponentTableSummary unicode}
    (table : FinishedTable sha256 manifest summary) {hashed : Set (List UInt8)}
    (injective : Set.InjOn sha256 hashed)
    (portable : ∀ target ∈ summary.createdAncestors, portableTarget target ∈ hashed) :
    ∃ encodedIntent, encodeComponentIntentManifest manifest = some encodedIntent ∧
    ∃ (authority : ComponentAncestorJournalAuthority unicode)
      (shards : List (ComponentAncestorJournalShard unicode)),
      ComponentAncestorJournalAuthority.new sha256 encodedIntent summary.createdAncestors =
        some authority ∧
      (shards.length = authority.binding.shardCount.toNat ∧
        ∀ shardIndex records shard, authority.createShard shardIndex records = some shard ↔
          shards[shardIndex]? = some shard ∧ records = shard.records) ∧
      (∀ shard ∈ shards, ∃ bytes, authority.encodeShard sha256 shard = some bytes ∧
        authority.decodeShard sha256 bytes = some shard) ∧
      ((shards.flatMap ComponentAncestorJournalShard.records).map
          ComponentAncestorJournalRecord.target = summary.createdAncestors ∧
        (shards.flatMap ComponentAncestorJournalShard.records).map
          (fun record => record.ordinal.toNat) = List.range summary.createdAncestors.length ∧
        ∀ record ∈ shards.flatMap ComponentAncestorJournalShard.records,
          ComponentAncestorJournalRecord.new record.ordinal.toNat record.target = some record) ∧
      (∀ bytes shard, authority.decodeShard sha256 bytes = some shard ↔
        shard ∈ shards ∧ authority.encodeShard sha256 shard = some bytes) ∧
      (encodedIntent ∈ hashed → ∀ otherIntent ∈ hashed, otherIntent ≠ encodedIntent →
        ∀ (targets : List (ComponentCreatedAncestor unicode)) otherAuthority,
          ComponentAncestorJournalAuthority.new sha256 otherIntent targets = some otherAuthority →
          ∀ bytes, (authority.decodeShard sha256 bytes).isSome = true →
            otherAuthority.decodeShard sha256 bytes = none) := by
  have encoded := (encodeManifest_eq_some manifest _).mpr ⟨table.valid, rfl⟩
  obtain ⟨authority, made⟩ :=
    ComponentAncestorJournalAuthority.new_of_finished table encoded injective portable
  obtain ⟨-, bound, few, -⟩ := ComponentAncestorJournalAuthority.new_eq_some made
  have records := ComponentAncestorJournalAuthority.shards_records made
  have encodes := ComponentAncestorJournalAuthority.encodeShard_isSome made
  refine ⟨_, encoded, authority, authority.shards, made,
    ⟨by rw [ComponentAncestorJournalAuthority.shards, length_map, length_range],
      ComponentAncestorJournalAuthority.createShard_iff_shards made⟩, ?_, ⟨?_, ?_, ?_⟩, ?_, ?_⟩
  · intro shard member
    obtain ⟨bytes, written⟩ := isSome_iff_exists.mp ((encodes shard).mpr member)
    exact ⟨bytes, written,
      (ComponentAncestorJournalAuthority.decodeShard_iff bytes shard).mpr written⟩
  · rw [records, ancestorRecords_target]
  · rw [records, ancestorRecords_ordinal _ _ (by
      rw [Nat.zero_add]
      exact few.trans (by decide)), range_eq_range']
  · intro record member
    simp only [ComponentAncestorJournalRecord.new, validateTarget_eq, bind_eq_bind,
      bind_some, bind_eq_some_iff, guard_eq_some', exists_const,
      Option.pure_def, UInt32.ofNat_toNat]
    exact ⟨record.ordinal.toNat_lt, trivial⟩
  · intro bytes shard
    rw [ComponentAncestorJournalAuthority.decodeShard_iff, ← encodes]
    exact (and_iff_right_of_imp fun written => isSome_iff_exists.mpr ⟨bytes, written⟩).symm
  · intro ours otherIntent theirs other targets otherAuthority otherMade bytes read
    have otherBound := (ComponentAncestorJournalAuthority.new_eq_some otherMade).2.1
    obtain ⟨shard, read⟩ := isSome_iff_exists.mp read
    refine Option.eq_none_iff_forall_ne_some.mpr fun otherShard otherRead => other ?_
    refine injective theirs ours ?_
    rw [← bound, ← otherBound]
    exact Subtype.ext ((ComponentAncestorJournalShard.intent_of_decodeShard otherRead).trans
      (ComponentAncestorJournalShard.intent_of_decodeShard read).symm)

/-- A digest that tells strings of different lengths apart. -/
def lengthDigest (bytes : List UInt8) : Fixed 32 :=
  ⟨littleEndian 32 bytes.length, littleEndian_length _ _⟩

/-- A table of one library, for which two directories are to be created. -/
def plainTable : Option (ComponentIntentManifest × ComponentTableSummary Unicode.plain) := do
  let builder ← ComponentTableBuilder.new Unicode.plain .libraries 1 (Fixed.zero 16)
  let row ← plainRow "a/b/c.jar" 0
  (builder.pushShards lengthDigest [[row]]).1.finish lengthDigest

theorem ancestorJournal_covers_plainTable :
    ∃ manifest summary, plainTable = some (manifest, summary) ∧
      summary.createdAncestors.length = 2 ∧
      ∃ encodedIntent, encodeComponentIntentManifest manifest = some encodedIntent ∧
      ∃ (authority : ComponentAncestorJournalAuthority Unicode.plain)
        (shards : List (ComponentAncestorJournalShard Unicode.plain)),
        ComponentAncestorJournalAuthority.new lengthDigest encodedIntent
          summary.createdAncestors = some authority ∧
        (shards.flatMap ComponentAncestorJournalShard.records).map
          ComponentAncestorJournalRecord.target = summary.createdAncestors := by
  have run : (plainTable.any fun table => table.2.createdAncestors.length = 2 ∧
      ∀ first ∈ table.2.createdAncestors, ∀ second ∈ table.2.createdAncestors,
        lengthDigest (portableTarget first) = lengthDigest (portableTarget second) →
          portableTarget first = portableTarget second) = true := by
    decide
  obtain ⟨⟨manifest, summary⟩, finished, checked⟩ := (Option.any_eq_true _ _).mp run
  obtain ⟨two, apart⟩ := of_decide_eq_true checked
  have built := finished
  simp only [plainTable, bind_eq_some] at built
  obtain ⟨builder, made, row, -, table⟩ := built
  obtain ⟨encodedIntent, encoded, authority, shards, accepted, -, -, ⟨covered, -⟩, -⟩ :=
    @ancestorJournal_covers _ _ _ _ (.built made table)
      {bytes | ∃ target ∈ summary.createdAncestors, portableTarget target = bytes}
      (by
        rintro _ ⟨first, firstMember, rfl⟩ _ ⟨second, secondMember, rfl⟩ same
        exact apart first firstMember second secondMember same)
      fun target member => ⟨target, member, rfl⟩
  exact ⟨manifest, summary, finished, two, encodedIntent, encoded, authority, shards, accepted,
    covered⟩

end Axial.Minecraft
