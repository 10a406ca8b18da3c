/-
This file models the encoding of one shard of a component table in
`core/minecraft/src/managed_component_table.rs` and proves it canonical: what
`encode_component_table_shard` writes is exactly what
`decode_component_table_shard` accepts.
-/

import Axial.Minecraft.ComponentRow

namespace Axial.Minecraft

open Bytes Reader List

abbrev maxComponentTableShards : Nat :=
  (maxComponentTableRows + (componentTableRowsPerShard - 1)) / componentTableRowsPerShard
abbrev componentTableHeaderBytes : Nat := 72
abbrev componentTableRowPrefixBytes : Nat := 44
abbrev priorBytes : Nat := 28
abbrev maxComponentTableShardBytes : Nat := componentTableHeaderBytes +
  componentTableRowsPerShard * (componentTableRowPrefixBytes + maxComponentPathBytes + priorBytes)
abbrev formatVersion : Nat := 2
abbrev noCreatedAncestor : UInt16 := 65535

/-- `AXCPTBL\0`. -/
def tableMagic : Fixed 8 := ⟨[0x41, 0x58, 0x43, 0x50, 0x54, 0x42, 0x4c, 0x00], rfl⟩

variable {unicode : Unicode}

structure ComponentTableShard (unicode : Unicode) where
  component : ManagedComponentKind
  shardIndex : UInt32
  shardCount : UInt32
  firstRow : UInt32
  totalRows : UInt32
  transactionNonce : Fixed 16
  rows : List (ComponentTableRow unicode)

/-! ### Geometry -/

def expectedShardCount (totalRows : Nat) : Option Nat :=
  if totalRows > maxComponentTableRows then none
  else
    let count := (totalRows + (componentTableRowsPerShard - 1)) / componentTableRowsPerShard
    if count ≤ maxComponentTableShards then some count else none

def expectedShardRowCount (totalRows shardIndex : Nat) : Option Nat :=
  let firstRow := shardIndex * componentTableRowsPerShard
  if firstRow ≤ totalRows then some (min (totalRows - firstRow) componentTableRowsPerShard)
  else none

def validateShardGeometry (shard : ComponentTableShard unicode) : Option Unit := do
  let shardCount ← expectedShardCount shard.totalRows.toNat
  guard (shard.totalRows.toNat ≠ 0 ∧ shard.shardCount.toNat = shardCount ∧
    shard.shardIndex.toNat < shardCount ∧
    shard.firstRow.toNat = shard.shardIndex.toNat * componentTableRowsPerShard)
  let rowCount ← expectedShardRowCount shard.totalRows.toNat shard.shardIndex.toNat
  guard (shard.rows.length = rowCount)

/-- A fresh validator after all rows of a shard. -/
def validateShardRows (shard : ComponentTableShard unicode) :
    Option (ComponentRowValidator unicode) := do
  (← ComponentRowValidator.new unicode shard.rows.length).pushAll shard.component shard.rows

/-! ### Rows -/

def encodePrior (prior : ComponentPriorFile) : List UInt8 :=
  littleEndian 8 prior.size.toNat ++ prior.sha1.val

def decodePrior : ByteReader ComponentPriorFile := do
  let size ← uint64
  let sha1 ← array 20
  pure ⟨size, sha1⟩

/-- The length of a record, which the source computes with a check against `u16::MAX`. -/
def recordLen (row : ComponentTableRow unicode) : Nat :=
  componentTableRowPrefixBytes + (utf8 row.path.value).length +
    if row.prior.isSome then priorBytes else 0

def encodedRowLen (row : ComponentTableRow unicode) : Option Nat :=
  if recordLen row < 2 ^ 16 then some (recordLen row) else none

def rowBytes (row : ComponentTableRow unicode) : List UInt8 :=
  littleEndian 2 (recordLen row) ++ (littleEndian 2 (utf8 row.path.value).length ++
    (littleEndian 4 row.inventoryOrdinal.toNat ++ (littleEndian 8 row.finalSize.toNat ++
      (row.finalSha1.val ++ (row.kind.toByte :: (if row.prior.isSome then 1 else 0) ::
        (littleEndian 2 (row.firstCreatedDepth.getD noCreatedAncestor).toNat ++
          (littleEndian 2 (segments row.path.value).length ++ (littleEndian 2 0 ++
            (utf8 row.path.value ++ row.prior.toList.flatMap encodePrior)))))))))

def encodeRow (row : ComponentTableRow unicode) : Option (List UInt8) := do
  let _ ← encodedRowLen row
  guard ((utf8 row.path.value).length < 2 ^ 16)
  guard ((segments row.path.value).length < 2 ^ 16)
  return rowBytes row

def decodeRow (unicode : Unicode) : ByteReader (ComponentTableRow unicode) := do
  let start ← left
  let recordLen ← number 2
  let pathLen ← number 2
  require (componentTableRowPrefixBytes ≤ recordLen ∧ pathLen ≠ 0 ∧
    pathLen ≤ maxComponentPathBytes ∧ recordLen ≤ start)
  let inventoryOrdinal ← uint32
  let finalSize ← uint64
  let finalSha1 ← array 20
  let kindByte ← byte
  let kind ← lift (ManagedComponentArtifactKind.fromByte kindByte)
  let flags ← byte
  require (flags &&& ~~~1 = 0)
  let depth ← uint16
  let segmentCount ← number 2
  let reserved ← number 2
  require (reserved = 0)
  require (recordLen = componentTableRowPrefixBytes + pathLen +
    if flags &&& 1 ≠ 0 then priorBytes else 0)
  let pathBytes ← take pathLen
  let pathText ← lift (fromUtf8 pathBytes)
  let path ← lift (PortableRelativePath.new unicode pathText)
  require (utf8 path.value = pathBytes ∧ segmentCount = (segments path.value).length)
  let prior ← announced (flags &&& 1 ≠ 0) decodePrior
  let finish ← left
  require (start = recordLen + finish)
  pure {
    inventoryOrdinal := inventoryOrdinal
    finalSize := finalSize
    finalSha1 := finalSha1
    kind := kind
    path := path
    firstCreatedDepth := if depth = noCreatedAncestor then none else some depth
    prior := prior }

/-- What a row of a validated shard satisfies and its encoding relies on. -/
def Encodable (row : ComponentTableRow unicode) : Prop :=
  (segments row.path.value).length < 2 ^ 16 ∧ row.firstCreatedDepth ≠ some noCreatedAncestor

theorem decodePrior_exact : Exact decodePrior encodePrior fun _ => True := by
  intro input prior rest
  unfold decodePrior
  simp only [uint64_bind, array_bind, run_pure_eq_some, Prod.mk.injEq, true_and]
  constructor
  · rintro ⟨size, _, rfl, sha1, _, rfl, rfl, rfl⟩
    rw [encodePrior, append_assoc]
  · rintro rfl
    exact ⟨_, _, by rw [encodePrior, append_assoc], _, _, rfl, rfl, rfl⟩

theorem value_ne_empty (path : PortableRelativePath unicode) : path.value ≠ "" := by
  intro empty
  have valid := path.names "" (by rw [empty]; decide)
  exact ne_empty_of_valid valid.2 rfl

theorem path_length (path : PortableRelativePath unicode) :
    (utf8 path.value).length ≠ 0 ∧ (utf8 path.value).length ≤ maxComponentPathBytes := by
  refine ⟨fun empty => value_ne_empty path ?_, ?_⟩
  · exact String.utf8ByteSize_eq_zero_iff.mp empty
  · have bounded := path.bounded
    unfold boundedPath at bounded
    exact of_decide_eq_true (Bool.and_eq_true_iff.mp bounded).1

theorem flag_of_byte : ∀ flags : UInt8, flags &&& ~~~1 = 0 →
    flags = if flags &&& 1 ≠ 0 then 1 else 0 := by
  decide +kernel

/-- A path that is read back with its own spelling was read from it. -/
theorem new_eq_some {text : String} {path : PortableRelativePath unicode} :
    PortableRelativePath.new unicode text = some path ∧ utf8 path.value = utf8 text ↔
      text = path.value := by
  constructor
  · rintro ⟨-, same⟩
    exact (Option.some_inj.mp
      (((fromUtf8_eq_some _ text).mpr same).symm.trans ((fromUtf8_eq_some _ _).mpr rfl)))
  · rintro rfl
    exact ⟨path.new_value, rfl⟩

theorem recordLen_bounds (row : ComponentTableRow unicode) :
    componentTableRowPrefixBytes ≤ recordLen row ∧
      recordLen row ≤ componentTableRowPrefixBytes + maxComponentPathBytes + priorBytes := by
  have short := (path_length row.path).2
  unfold recordLen
  split <;> omega

theorem rowBytes_length (row : ComponentTableRow unicode) :
    (rowBytes row).length = recordLen row := by
  have prior : (row.prior.toList.flatMap encodePrior).length =
      if row.prior.isSome then priorBytes else 0 := by
    cases row.prior with
    | none => rfl
    | some prior => simp [encodePrior]
  unfold rowBytes recordLen
  simp only [length_append, length_cons, littleEndian_length, Fixed.length_val, prior]
  simp only [componentTableRowPrefixBytes]
  omega

theorem decodeRow_exact : Exact (decodeRow unicode) rowBytes Encodable := by
  intro input row rest
  unfold decodeRow
  simp only [left_bind, number_bind, require_bind, uint32_bind, uint64_bind, array_bind, byte_bind,
    lift_bind, uint16_bind, take_bind, (decodePrior_exact.announced _).bind,
    run_pure_eq_some, fromUtf8_eq_some, ManagedComponentArtifactKind.fromByte_eq_some]
  constructor
  · rintro ⟨length, _, lengthFits, rfl, pathLen, _, pathFits, rfl, lengths, ordinal, _, rfl, size,
      _, rfl, sha1, _, rfl, _, _, rfl, kind, rfl, flags, _, rfl, canonical, depth, _, rfl,
      segmentCount, _, segmentsFit, rfl, _, _, _, rfl, rfl, rfl, _, _, rfl, rfl, text, rfl, path,
      read, ⟨same, rfl⟩, prior, _, ⟨present, -⟩, rfl, finish, equal⟩
    obtain ⟨rfl, rfl⟩ := Prod.mk.inj equal
    obtain rfl : text = path.value := new_eq_some.mp ⟨read, same⟩
    have flag : flags = if prior.isSome then 1 else 0 := by
      rw [flag_of_byte flags canonical]
      simp only [present]
    have depthSame : (if depth = noCreatedAncestor then none else some depth).getD
        noCreatedAncestor = depth := by
      split
      · rename_i absent
        exact absent.symm
      · rfl
    refine ⟨⟨segmentsFit, ?_⟩, ?_⟩
    · dsimp only
      split
      · exact (Option.some_ne_none _).symm
      · rename_i there
        exact fun same => there (Option.some_inj.mp same)
    · have announcedLen : (if flags &&& 1 ≠ 0 then priorBytes else 0) =
          if prior.isSome = true then priorBytes else 0 := by simp only [present]
      simp only [rowBytes, recordLen, depthSame, ← flag, announcedLen, append_assoc,
        cons_append]
  · rintro ⟨⟨fewSegments, noAncestor⟩, rfl⟩
    obtain ⟨someBytes, fewBytes⟩ := path_length row.path
    obtain ⟨atLeast, atMost⟩ := recordLen_bounds row
    have whole : (rowBytes row ++ rest).length = recordLen row + rest.length := by
      rw [length_append, rowBytes_length]
    have flag : (if row.prior.isSome = true then (1 : UInt8) else 0) &&& 1 ≠ 0 ↔
        row.prior.isSome = true := by
      cases row.prior.isSome <;> decide
    have canonical : (if row.prior.isSome = true then (1 : UInt8) else 0) &&& ~~~1 = 0 := by
      cases row.prior.isSome <;> decide
    have depthSame : (if row.firstCreatedDepth.getD noCreatedAncestor = noCreatedAncestor then none
        else some (row.firstCreatedDepth.getD noCreatedAncestor)) = row.firstCreatedDepth := by
      cases depth : row.firstCreatedDepth with
      | none => rfl
      | some depth' =>
        have there : depth' ≠ noCreatedAncestor := fun same => noAncestor (depth.trans (same ▸ rfl))
        exact if_neg there
    simp only [componentTableRowPrefixBytes, maxComponentPathBytes, priorBytes,
      maxPortableRelativePathBytes] at atMost fewBytes
    refine ⟨recordLen row, _, by omega, by
      simp only [rowBytes, append_assoc, cons_append], (utf8 row.path.value).length, _,
      by omega, rfl, ⟨atLeast, someBytes, fewBytes, by omega⟩, row.inventoryOrdinal, _, rfl,
      row.finalSize, _, rfl, row.finalSha1, _, rfl, _, _, rfl, row.kind, rfl, _, _, rfl, canonical,
      row.firstCreatedDepth.getD noCreatedAncestor, _, rfl, (segments row.path.value).length, _,
      fewSegments, rfl, 0, _, by decide, rfl, rfl, ?_, _, _, rfl, rfl, row.path.value, rfl,
      row.path, row.path.new_value, ⟨rfl, rfl⟩, row.prior, rest, ⟨flag.symm, fun _ _ => trivial⟩,
      rfl, ?_, ?_⟩
    · unfold recordLen
      simp only [flag]
    · exact whole
    · rw [depthSame]

/-! ### Shards -/

def shardHeader (shard : ComponentTableShard unicode) (finalBytes priorBytes recordsLen : Nat) :
    List UInt8 :=
  tableMagic.val ++ (littleEndian 2 formatVersion ++ (shard.component.toByte :: 0 ::
    (littleEndian 4 shard.shardIndex.toNat ++ (littleEndian 4 shard.shardCount.toNat ++
      (littleEndian 4 shard.firstRow.toNat ++ (littleEndian 4 shard.rows.length ++
        (littleEndian 4 shard.totalRows.toNat ++ (shard.transactionNonce.val ++
          (littleEndian 8 finalBytes ++ (littleEndian 8 priorBytes ++
            (littleEndian 4 recordsLen ++ littleEndian 4 0)))))))))))

def encodeComponentTableShard (shard : ComponentTableShard unicode) : Option (List UInt8) := do
  validateShardGeometry shard
  let validator ← validateShardRows shard
  let records := (← shard.rows.mapM encodeRow).flatten
  guard (records.length < 2 ^ 32)
  guard (shard.rows.length < 2 ^ 32)
  return shardHeader shard validator.finalBytes validator.priorBytes records.length ++ records

/-- The fields of a shard as they stand in its bytes, with the totals of its header. -/
def readShard (unicode : Unicode) : ByteReader (ComponentTableShard unicode × Nat × Nat) := do
  let magic ← array 8
  require (magic = tableMagic)
  let version ← number 2
  require (version = formatVersion)
  let componentByte ← byte
  let component ← lift (ManagedComponentKind.fromByte componentByte)
  let padding ← byte
  require (padding = 0)
  let shardIndex ← uint32
  let shardCount ← uint32
  let firstRow ← uint32
  let rowCount ← number 4
  let totalRows ← uint32
  let transactionNonce ← array 16
  let finalBytes ← number 8
  let priorBytes ← number 8
  let recordsLen ← number 4
  let reserved ← number 4
  let records ← left
  require (reserved = 0 ∧ recordsLen = records ∧ rowCount ≤ componentTableRowsPerShard)
  let rows ← many (decodeRow unicode) rowCount
  pure (⟨component, shardIndex, shardCount, firstRow, totalRows, transactionNonce, rows⟩,
    finalBytes, priorBytes)

def decodeComponentTableShard (unicode : Unicode) (bytes : List UInt8) :
    Option (ComponentTableShard unicode) := do
  guard (componentTableHeaderBytes ≤ bytes.length ∧ bytes.length ≤ maxComponentTableShardBytes)
  let (shard, finalBytes, priorBytes) ← decode (readShard unicode) bytes
  validateShardGeometry shard
  let validator ← validateShardRows shard
  guard (validator.finalBytes = finalBytes ∧ validator.priorBytes = priorBytes)
  return shard

theorem decode_readShard_eq_some (bytes : List UInt8) (shard : ComponentTableShard unicode)
    (finalBytes priorBytes : Nat) :
    decode (readShard unicode) bytes = some (shard, finalBytes, priorBytes) ↔
      shard.rows.length ≤ componentTableRowsPerShard ∧ finalBytes < 256 ^ 8 ∧
      priorBytes < 256 ^ 8 ∧ (shard.rows.flatMap rowBytes).length < 256 ^ 4 ∧
      (∀ row ∈ shard.rows, Encodable row) ∧
      bytes = shardHeader shard finalBytes priorBytes (shard.rows.flatMap rowBytes).length ++
        shard.rows.flatMap rowBytes := by
  rw [decode_eq_some]
  unfold readShard
  simp only [array_bind, require_bind, number_bind, byte_bind, lift_bind, uint32_bind, left_bind,
    (decodeRow_exact.many _).bind, run_pure_eq_some, ManagedComponentKind.fromByte_eq_some]
  constructor
  · rintro ⟨_, _, rfl, rfl, _, _, _, rfl, rfl, _, _, rfl, component, rfl, _, _, rfl, rfl,
      shardIndex, _, rfl, shardCount, _, rfl, firstRow, _, rfl, rowCount, _, _, rfl, totalRows, _,
      rfl, nonce, _, rfl, final, _, finalFits, rfl, prior, _, priorFits, rfl, recordsLen, _,
      recordsFit, rfl, _, _, _, rfl, ⟨rfl, rfl, few⟩, rows, _, ⟨rfl, encodable⟩, rfl, equal⟩
    cases equal
    rw [List.append_nil] at recordsFit ⊢
    refine ⟨few, finalFits, priorFits, recordsFit, encodable, ?_⟩
    simp only [shardHeader, append_assoc, cons_append]
  · rintro ⟨few, finalFits, priorFits, recordsFit, encodable, rfl⟩
    have rowsFit : shard.rows.length < 256 ^ 4 := few.trans_lt (by decide)
    refine ⟨_, _, by simp only [shardHeader, append_assoc, cons_append], rfl, formatVersion,
      _, by decide, rfl, rfl, _, _, rfl, shard.component, rfl, 0, _, rfl, rfl, shard.shardIndex, _, rfl,
      shard.shardCount, _, rfl, shard.firstRow, _, rfl, shard.rows.length, _, rowsFit, rfl,
      shard.totalRows, _, rfl, shard.transactionNonce, _, rfl, finalBytes, _, finalFits, rfl,
      priorBytes, _, priorFits, rfl, _, _, recordsFit, rfl, 0, _, by decide, rfl, ⟨rfl, rfl, few⟩,
      shard.rows, [], ⟨rfl, encodable⟩, (List.append_nil _).symm, rfl⟩

/-! ### The codec -/

variable {shard : ComponentTableShard unicode}

theorem rows_length_le (valid : validateShardGeometry shard = some ()) :
    shard.rows.length ≤ componentTableRowsPerShard := by
  simp only [validateShardGeometry, bind_eq_some, Option.guard_eq_some', exists_const] at valid
  obtain ⟨shardCount, -, -, rowCount, expected, same⟩ := valid
  simp only [expectedShardRowCount] at expected
  split_ifs at expected
  cases expected
  rw [same]
  exact min_le_right _ _

/-- The rows of a validated shard can be encoded, and its totals fit in the header. -/
theorem encodable_of_validated {validator : ComponentRowValidator unicode}
    (valid : validateShardRows shard = some validator) :
    (∀ row ∈ shard.rows, Encodable row) ∧ validator.finalBytes ≤ maxTier2AggregateBytes ∧
      validator.priorBytes ≤ maxTier2AggregateBytes := by
  obtain ⟨fresh, made, pushed⟩ := Option.bind_eq_some_iff.mp valid
  unfold ComponentRowValidator.new at made
  split_ifs at made
  cases made
  refine ⟨fun row member => ?_, ComponentRowValidator.totals_le pushed
    ⟨Nat.zero_le _, Nat.zero_le _⟩⟩
  obtain ⟨before, next, accepted⟩ := ComponentRowValidator.exists_push_of_pushAll pushed member
  obtain ⟨few, created, -⟩ := ComponentRowValidator.push_eq_some accepted
  refine ⟨few, fun absent => ?_⟩
  rw [absent] at created
  have deep := ComponentRowValidator.depth_lt_of_addFrom created
  have depth : noCreatedAncestor.toNat = 65535 := rfl
  omega

theorem encodeRow_eq_some {row : ComponentTableRow unicode} (encodable : Encodable row) :
    encodeRow row = some (rowBytes row) := by
  have ⟨_, atMost⟩ := recordLen_bounds row
  have ⟨_, fewBytes⟩ := path_length row.path
  simp only [componentTableRowPrefixBytes, maxComponentPathBytes, priorBytes,
    maxPortableRelativePathBytes] at atMost fewBytes
  unfold encodeRow encodedRowLen
  rw [if_pos (by omega)]
  simp only [Option.bind_eq_bind, Option.bind_some, guard, encodable.1, if_true]
  rw [if_pos (by omega)]
  rfl

theorem mapM_encodeRow {rows : List (ComponentTableRow unicode)}
    (encodable : ∀ row ∈ rows, Encodable row) :
    rows.mapM encodeRow = some (rows.map rowBytes) := by
  induction rows with
  | nil => rfl
  | cons row rows ih =>
    rw [mapM_cons, encodeRow_eq_some (encodable row mem_cons_self),
      ih fun other member => encodable other (mem_cons_of_mem _ member)]
    rfl

theorem records_length {rows : List (ComponentTableRow unicode)} :
    (rows.flatMap rowBytes).length ≤ rows.length *
      (componentTableRowPrefixBytes + maxComponentPathBytes + priorBytes) := by
  induction rows with
  | nil => exact Nat.zero_le _
  | cons row rows ih =>
    have one := (recordLen_bounds row).2
    rw [flatMap_cons, length_append, rowBytes_length, length_cons, Nat.succ_mul]
    omega

theorem shardHeader_length (shard : ComponentTableShard unicode) (finalBytes prior records : Nat) :
    (shardHeader shard finalBytes prior records).length = componentTableHeaderBytes := by
  simp only [shardHeader, length_append, length_cons, littleEndian_length,
    Fixed.length_val]

/-- What a shard is encoded as, if it is. -/
theorem encode_eq_some (shard : ComponentTableShard unicode) (bytes : List UInt8) :
    encodeComponentTableShard shard = some bytes ↔
      validateShardGeometry shard = some () ∧ ∃ validator, validateShardRows shard = some validator ∧
        bytes = shardHeader shard validator.finalBytes validator.priorBytes
          (shard.rows.flatMap rowBytes).length ++ shard.rows.flatMap rowBytes := by
  unfold encodeComponentTableShard
  simp only [bind_eq_some, Option.guard_eq_some', exists_const, pure_eq_some]
  constructor
  · rintro ⟨_, geometry, validator, rows, records, written, -, -, rfl⟩
    cases (mapM_encodeRow (encodable_of_validated rows).1).symm.trans written
    exact ⟨geometry, validator, rows, by rw [flatMap_def]⟩
  · rintro ⟨geometry, validator, rows, rfl⟩
    have few := rows_length_le geometry
    have short := @records_length _ shard.rows
    simp only [componentTableRowsPerShard, componentTableRowPrefixBytes, maxComponentPathBytes,
      maxPortableRelativePathBytes, priorBytes] at few short
    rw [flatMap_def] at short
    refine ⟨(), geometry, validator, rows, _, mapM_encodeRow (encodable_of_validated rows).1,
      by omega, by omega, by rw [flatMap_def]⟩

/-- The shard codec is canonical: encoding and decoding are inverse to each other, on all shards
and all byte strings, and no encoding is longer than a shard may be. -/
theorem shardCodec_canonical (shard : ComponentTableShard unicode) (bytes : List UInt8) :
    (encodeComponentTableShard shard = some bytes → bytes.length ≤ maxComponentTableShardBytes ∧
      decodeComponentTableShard unicode bytes = some shard) ∧
    (decodeComponentTableShard unicode bytes = some shard →
      encodeComponentTableShard shard = some bytes) := by
  rw [encode_eq_some]
  unfold decodeComponentTableShard
  simp only [bind_eq_some, Option.guard_eq_some', exists_const, pure_eq_some]
  constructor
  · rintro ⟨geometry, validator, rows, rfl⟩
    have few := rows_length_le geometry
    have short := @records_length _ shard.rows
    have ⟨encodable, finalFits, priorFits⟩ := encodable_of_validated rows
    have length : ∀ final prior records, (shardHeader shard final prior records ++
        shard.rows.flatMap rowBytes).length =
          componentTableHeaderBytes + (shard.rows.flatMap rowBytes).length := by
      intro final prior records
      rw [length_append, shardHeader_length]
    simp only [componentTableRowsPerShard, componentTableRowPrefixBytes, maxComponentPathBytes,
      maxPortableRelativePathBytes, priorBytes, maxTier2AggregateBytes] at few short finalFits priorFits
    have bound : maxComponentTableShardBytes = 72 + 256 * (44 + 512 + 28) := rfl
    refine ⟨?_, ⟨?_, ?_⟩, ⟨shard, validator.finalBytes, validator.priorBytes⟩, ?_, (), geometry,
      validator, rows, ⟨rfl, rfl⟩, rfl⟩
    · rw [length, bound]
      simp only [componentTableHeaderBytes]
      omega
    · rw [length]
      exact Nat.le_add_right _ _
    · rw [length, bound]
      simp only [componentTableHeaderBytes]
      omega
    · exact (decode_readShard_eq_some _ _ _ _).mpr
        ⟨few, by omega, by omega, by omega, encodable, rfl⟩
  · rintro ⟨-, ⟨found, finalBytes, priorBytes⟩, read, _, geometry, validator, rows, totals, rfl⟩
    obtain ⟨rfl, rfl⟩ := totals
    obtain ⟨-, -, -, -, -, same⟩ := (decode_readShard_eq_some _ _ _ _).mp read
    exact ⟨geometry, validator, rows, same⟩

end Axial.Minecraft
