/-
This file models the two streaming ends of a component table in
`core/minecraft/src/managed_component_table.rs`: the builder that is given the
rows of one shard after the other, and the parser that is given the bytes. Both
push each shard through a validator of the whole sequence. A shard with its bytes
and its descriptor is sealed, and the file proves that the builder's runs and the
parser's runs are the two readings of one list of sealed shards.
-/

import Axial.Library.Runs
import Axial.Minecraft.ComponentManifest

namespace Axial.Minecraft

open Bytes Reader List

variable {unicode : Unicode}

/-! ### The sequence of all shards -/

/-- The validator of all shards. A hash in progress is what was hashed so far. -/
structure ComponentTableSequenceValidator (unicode : Unicode) where
  component : ManagedComponentKind
  totalRows : UInt32
  shardCount : Nat
  transactionNonce : Fixed 16
  nextShard : Nat
  rows : ComponentRowValidator unicode
  logicalRows : List UInt8
  projection : List UInt8

structure ComponentTableSummary (unicode : Unicode) where
  rowCount : Nat
  finalBytes : Nat
  stagedBytes : Nat
  priorBytes : Nat
  createdAncestors : List (ComponentCreatedAncestor unicode)
  logicalRowsSha256 : Fixed 32
  projectionSha256 : Fixed 32

/-- `axial.component.projection.v1\0`. -/
def projectionDomain : List UInt8 :=
  utf8 "axial.component.projection.v1" ++ [0]

/-- `axial.component.rows.v1\0`. -/
def logicalRowsDomain : List UInt8 :=
  utf8 "axial.component.rows.v1" ++ [0]

def updateProjectionHash (hashed : List UInt8) (row : ComponentTableRow unicode) :
    Option (List UInt8) := do
  let path := utf8 row.path.value
  guard (path.length < 2 ^ 16)
  return hashed ++ littleEndian 4 row.inventoryOrdinal.toNat ++ [row.kind.toByte] ++
    littleEndian 8 row.finalSize.toNat ++ row.finalSha1.val ++ littleEndian 2 path.length ++ path

/-- The values of the table of created ancestors, sorted. -/
def CreatedAncestors.sorted (created : CreatedAncestors unicode) :
    List (ComponentCreatedAncestor unicode) :=
  (created.ancestors.entries.map Sigma.snd).insertionSort fun first second => first.le second

namespace ComponentTableSequenceValidator

def new (unicode : Unicode) (component : ManagedComponentKind) (totalRows : UInt32)
    (transactionNonce : Fixed 16) : Option (ComponentTableSequenceValidator unicode) := do
  let shardCount ← expectedShardCount totalRows.toNat
  let rows ← ComponentRowValidator.new unicode totalRows.toNat
  return {
    component := component
    totalRows := totalRows
    shardCount := shardCount
    transactionNonce := transactionNonce
    nextShard := 0
    rows := rows
    logicalRows := logicalRowsDomain ++ [component.toByte] ++ littleEndian 4 totalRows.toNat
    projection := projectionDomain ++ [component.toByte] ++ littleEndian 4 totalRows.toNat }

/-- One turn of the loop of `push`. -/
def pushRow (sequence : ComponentTableSequenceValidator unicode) (row : ComponentTableRow unicode) :
    Option (ComponentTableSequenceValidator unicode) := do
  let rows ← sequence.rows.push sequence.component row
  let projection ← updateProjectionHash sequence.projection row
  return { sequence with rows := rows, projection := projection }

def push (sequence : ComponentTableSequenceValidator unicode) (shard : ComponentTableShard unicode)
    (encoded : List UInt8) : Option (ComponentTableSequenceValidator unicode) := do
  guard (shard.component = sequence.component ∧ shard.totalRows = sequence.totalRows ∧
    shard.shardCount.toNat = sequence.shardCount ∧ shard.shardIndex.toNat = sequence.nextShard ∧
    shard.transactionNonce = sequence.transactionNonce ∧
    componentTableHeaderBytes ≤ encoded.length)
  let sequence ← shard.rows.foldlM pushRow sequence
  return { sequence with
    logicalRows := sequence.logicalRows ++ encoded.drop componentTableHeaderBytes
    nextShard := sequence.nextShard + 1 }

def finish (sha256 : List UInt8 → Fixed 32) (sequence : ComponentTableSequenceValidator unicode) :
    Option (ComponentTableSummary unicode) := do
  guard (sequence.nextShard = sequence.shardCount ∧
    sequence.rows.rowCount = sequence.totalRows.toNat)
  sequence.rows.validateCreatedDepths
  return {
    rowCount := sequence.rows.rowCount
    finalBytes := sequence.rows.finalBytes
    stagedBytes := sequence.rows.stagedBytes
    priorBytes := sequence.rows.priorBytes
    createdAncestors := sequence.rows.created.sorted
    logicalRowsSha256 := sha256 sequence.logicalRows
    projectionSha256 := sha256 sequence.projection }

end ComponentTableSequenceValidator

/-! ### The builder -/

def tableShardTotals (shard : ComponentTableShard unicode) : Option (Nat × Nat) :=
  shard.rows.foldlM (fun (finalBytes, priorBytes) row => do
    let finalBytes ← checkedAggregate finalBytes row.finalSize.toNat
    let priorBytes ← checkedAggregate priorBytes row.quarantineBytes
    return (finalBytes, priorBytes)) (0, 0)

structure ComponentTableBuilder (unicode : Unicode) where
  sequence : ComponentTableSequenceValidator unicode
  descriptors : List ComponentShardDescriptor
  poisoned : Bool

namespace ComponentTableBuilder

variable (sha256 : List UInt8 → Fixed 32)

def new (unicode : Unicode) (component : ManagedComponentKind) (totalRows : Nat)
    (transactionNonce : Fixed 16) : Option (ComponentTableBuilder unicode) := do
  guard (totalRows < 2 ^ 32)
  let sequence ← ComponentTableSequenceValidator.new unicode component (UInt32.ofNat totalRows)
    transactionNonce
  return { sequence := sequence, descriptors := [], poisoned := false }

/-- What `push_shard` does before it validates globally: the shard of the rows, its bytes and its
descriptor. -/
def sealShard (builder : ComponentTableBuilder unicode) (rows : List (ComponentTableRow unicode)) :
    Option (ComponentTableShard unicode × List UInt8 × ComponentShardDescriptor) := do
  let sequence := builder.sequence
  guard (builder.poisoned = false ∧ sequence.nextShard < sequence.shardCount)
  let expectedRows ← expectedShardRowCount sequence.totalRows.toNat sequence.nextShard
  guard (rows.length = expectedRows ∧ rows.length ≤ componentTableRowsPerShard)
  let firstRow := sequence.nextShard * componentTableRowsPerShard
  guard (sequence.nextShard < 2 ^ 32 ∧ sequence.shardCount < 2 ^ 32 ∧ firstRow < 2 ^ 32)
  let shard : ComponentTableShard unicode := {
    component := sequence.component
    shardIndex := UInt32.ofNat sequence.nextShard
    shardCount := UInt32.ofNat sequence.shardCount
    firstRow := UInt32.ofNat firstRow
    totalRows := sequence.totalRows
    transactionNonce := sequence.transactionNonce
    rows := rows }
  let encoded ← encodeComponentTableShard shard
  let (finalBytes, priorBytes) ← tableShardTotals shard
  guard (rows.length < 2 ^ 32 ∧ encoded.length < 2 ^ 32)
  return (shard, encoded, {
    shardIndex := shard.shardIndex
    firstRow := shard.firstRow
    rowCount := UInt32.ofNat rows.length
    byteLen := UInt32.ofNat encoded.length
    finalBytes := UInt64.ofNat finalBytes
    priorBytes := UInt64.ofNat priorBytes
    sha256 := sha256 encoded })

/-- The bytes and the descriptor are the answer of a call that succeeds. Which rows a sequence has
taken that refused a later one is not kept: a poisoned builder does not look at it again. -/
def pushShard (builder : ComponentTableBuilder unicode) (rows : List (ComponentTableRow unicode)) :
    ComponentTableBuilder unicode × Option (List UInt8 × ComponentShardDescriptor) :=
  match builder.sealShard sha256 rows with
  | none => (builder, none)
  | some (shard, encoded, descriptor) =>
    match builder.sequence.push shard encoded with
    | none => ({ builder with poisoned := true }, none)
    | some sequence => ({
        sequence := sequence
        descriptors := builder.descriptors ++ [descriptor]
        poisoned := false }, some (encoded, descriptor))

def finish (builder : ComponentTableBuilder unicode) :
    Option (ComponentIntentManifest × ComponentTableSummary unicode) := do
  guard (builder.poisoned = false)
  let summary ← builder.sequence.finish sha256
  let manifest : ComponentIntentManifest := {
    component := builder.sequence.component
    totalRows := builder.sequence.totalRows
    finalBytes := UInt64.ofNat summary.finalBytes
    priorBytes := UInt64.ofNat summary.priorBytes
    transactionNonce := builder.sequence.transactionNonce
    logicalRowsSha256 := summary.logicalRowsSha256
    projectionSha256 := summary.projectionSha256
    shards := builder.descriptors }
  validateManifest manifest
  return (manifest, summary)

/-- Any number of calls: the builder at the end, and the rows and the bytes of the calls that
succeeded. -/
def pushShards (builder : ComponentTableBuilder unicode) :
    List (List (ComponentTableRow unicode)) →
      ComponentTableBuilder unicode × List (List (ComponentTableRow unicode) × List UInt8)
  | [] => (builder, [])
  | rows :: calls =>
    let (next, answer) := builder.pushShard sha256 rows
    let (last, emitted) := next.pushShards calls
    (last, (answer.toList.map fun (encoded, _) => (rows, encoded)) ++ emitted)

end ComponentTableBuilder

/-! ### The parser -/

structure ComponentTableParser (unicode : Unicode) where
  manifest : ComponentIntentManifest
  sequence : ComponentTableSequenceValidator unicode

namespace ComponentTableParser

variable (sha256 : List UInt8 → Fixed 32)

def new (unicode : Unicode) (manifest : ComponentIntentManifest) :
    Option (ComponentTableParser unicode) := do
  validateManifest manifest
  let sequence ← ComponentTableSequenceValidator.new unicode manifest.component manifest.totalRows
    manifest.transactionNonce
  return { manifest := manifest, sequence := sequence }

def parseNext (parser : ComponentTableParser unicode) (bytes : List UInt8) :
    Option (ComponentTableParser unicode × ComponentTableShard unicode) := do
  let descriptor ← parser.manifest.shards[parser.sequence.nextShard]?
  guard (descriptor.byteLen.toNat = bytes.length ∧ sha256 bytes = descriptor.sha256)
  let shard ← decodeComponentTableShard unicode bytes
  let (finalBytes, priorBytes) ← tableShardTotals shard
  guard (descriptor.shardIndex = shard.shardIndex ∧ descriptor.firstRow = shard.firstRow ∧
    descriptor.rowCount.toNat = shard.rows.length ∧ descriptor.finalBytes.toNat = finalBytes ∧
    descriptor.priorBytes.toNat = priorBytes)
  let sequence ← parser.sequence.push shard bytes
  return ({ parser with sequence := sequence }, shard)

def finish (parser : ComponentTableParser unicode) : Option (ComponentTableSummary unicode) := do
  let summary ← parser.sequence.finish sha256
  guard (summary.finalBytes = parser.manifest.finalBytes.toNat ∧
    summary.priorBytes = parser.manifest.priorBytes.toNat ∧
    summary.logicalRowsSha256 = parser.manifest.logicalRowsSha256 ∧
    summary.projectionSha256 = parser.manifest.projectionSha256)
  return summary

/-- Parse all shards, in order. -/
def parseAll (parser : ComponentTableParser unicode) :
    List (List UInt8) → Option (ComponentTableParser unicode × List (ComponentTableShard unicode))
  | [] => some (parser, [])
  | bytes :: later => do
    let (next, shard) ← parser.parseNext sha256 bytes
    let (last, shards) ← next.parseAll later
    return (last, shard :: shards)

end ComponentTableParser

/-! ### What a sequence keeps -/

namespace ComponentTableSequenceValidator

/-- Both sequences are of one table. -/
structure SameTable (sequence start : ComponentTableSequenceValidator unicode) : Prop where
  component : sequence.component = start.component
  totalRows : sequence.totalRows = start.totalRows
  shardCount : sequence.shardCount = start.shardCount
  transactionNonce : sequence.transactionNonce = start.transactionNonce

variable {sequence next start : ComponentTableSequenceValidator unicode}
  {shard : ComponentTableShard unicode} {encoded : List UInt8}
  {holds : ComponentRowValidator unicode → Prop}

theorem SameTable.refl (sequence : ComponentTableSequenceValidator unicode) :
    SameTable sequence sequence :=
  ⟨rfl, rfl, rfl, rfl⟩

theorem SameTable.trans (second : SameTable next sequence) (first : SameTable sequence start) :
    SameTable next start :=
  ⟨second.component.trans first.component, second.totalRows.trans first.totalRows,
    second.shardCount.trans first.shardCount,
    second.transactionNonce.trans first.transactionNonce⟩

theorem pushRow_eq_some {row : ComponentTableRow unicode}
    (pushed : sequence.pushRow row = some next) :
    sequence.rows.push sequence.component row = some next.rows ∧ SameTable next sequence ∧
      next.nextShard = sequence.nextShard := by
  simp only [pushRow, bind_eq_some, pure_eq_some] at pushed
  obtain ⟨rows, accepted, projection, -, rfl⟩ := pushed
  exact ⟨accepted, ⟨rfl, rfl, rfl, rfl⟩, rfl⟩

/-- What a shard that is pushed has to be, and what the push leaves as it is. -/
theorem push_eq_some (pushed : sequence.push shard encoded = some next) :
    (shard.component = sequence.component ∧ shard.totalRows = sequence.totalRows ∧
      shard.shardCount.toNat = sequence.shardCount ∧ shard.shardIndex.toNat = sequence.nextShard ∧
      shard.transactionNonce = sequence.transactionNonce) ∧
    SameTable next sequence ∧ next.nextShard = sequence.nextShard + 1 := by
  simp only [push, bind_eq_some, Option.guard_eq_some', exists_const, pure_eq_some] at pushed
  obtain ⟨⟨component, totalRows, shardCount, index, nonce, -⟩, middle, folded, rfl⟩ := pushed
  let kept (state : ComponentTableSequenceValidator unicode) : Prop :=
    SameTable state sequence ∧ state.nextShard = sequence.nextShard
  have same : kept middle := Runs.foldlM_invariant folded
    (fun before row _ after taken same =>
      have step := (pushRow_eq_some taken).2
      ⟨step.1.trans same.1, step.2.trans same.2⟩)
    ⟨SameTable.refl sequence, rfl⟩
  exact ⟨⟨component, totalRows, shardCount, index, nonce⟩,
    ⟨same.1.component, same.1.totalRows, same.1.shardCount, same.1.transactionNonce⟩,
    congrArg (· + 1) same.2⟩

/-- What every row preserves, a shard preserves. -/
theorem push_invariant (preserved : ∀ component before row next,
      before.push component row = some next → holds before → holds next)
    (pushed : sequence.push shard encoded = some next) (initially : holds sequence.rows) :
    holds next.rows := by
  simp only [push, bind_eq_some, Option.guard_eq_some', exists_const, pure_eq_some] at pushed
  obtain ⟨-, middle, folded, rfl⟩ := pushed
  let kept (state : ComponentTableSequenceValidator unicode) : Prop := holds state.rows
  have held : kept middle := Runs.foldlM_invariant folded
    (fun before row _ after taken => preserved _ _ _ _ (pushRow_eq_some taken).1) initially
  exact held

end ComponentTableSequenceValidator

theorem tableShardTotals_le {shard : ComponentTableShard unicode} {totals : Nat × Nat}
    (counted : tableShardTotals shard = some totals) :
    totals.1 ≤ maxTier2AggregateBytes ∧ totals.2 ≤ maxTier2AggregateBytes := by
  let within (totals : Nat × Nat) : Prop :=
    totals.1 ≤ maxTier2AggregateBytes ∧ totals.2 ≤ maxTier2AggregateBytes
  refine @Runs.foldlM_invariant _ _ _ within _ _ _ counted (fun before row _ after added _ => ?_)
    ⟨Nat.zero_le _, Nat.zero_le _⟩
  simp only [bind_eq_some, pure_eq_some] at added
  obtain ⟨final, finalAdded, prior, priorAdded, rfl⟩ := added
  exact ⟨(ComponentRowValidator.le_of_addWithin finalAdded).1,
    (ComponentRowValidator.le_of_addWithin priorAdded).1⟩

/-! ### Sealed shards -/

/-- A shard with its bytes and the descriptor of both. -/
structure SealedShard (unicode : Unicode) (sha256 : List UInt8 → Fixed 32) where
  shard : ComponentTableShard unicode
  encoded : List UInt8
  descriptor : ComponentShardDescriptor
  canonical : encodeComponentTableShard shard = some encoded
  totals : tableShardTotals shard =
    some (descriptor.finalBytes.toNat, descriptor.priorBytes.toNat)
  index : descriptor.shardIndex = shard.shardIndex
  first : descriptor.firstRow = shard.firstRow
  count : descriptor.rowCount.toNat = shard.rows.length
  length : descriptor.byteLen.toNat = encoded.length
  digest : sha256 encoded = descriptor.sha256

variable {sha256 : List UInt8 → Fixed 32}

/-- Push sealed shards in order. -/
def ComponentTableSequenceValidator.pushAll (sequence : ComponentTableSequenceValidator unicode)
    (pieces : List (SealedShard unicode sha256)) :
    Option (ComponentTableSequenceValidator unicode) :=
  pieces.foldlM (fun sequence piece => sequence.push piece.shard piece.encoded) sequence

theorem ComponentTableSequenceValidator.pushAll_sameTable
    {sequence last : ComponentTableSequenceValidator unicode}
    {pieces : List (SealedShard unicode sha256)} (pushed : sequence.pushAll pieces = some last) :
    SameTable last sequence ∧ last.nextShard = sequence.nextShard + pieces.length := by
  induction pieces generalizing sequence with
  | nil =>
    cases pushed
    exact ⟨.refl _, rfl⟩
  | cons piece pieces ih =>
    obtain ⟨middle, here, later⟩ := Runs.foldlM_cons_eq_some.mp pushed
    obtain ⟨-, same, next⟩ := push_eq_some here
    have ⟨sameLater, count⟩ := ih later
    refine ⟨sameLater.trans same, ?_⟩
    rw [count, next, length_cons]
    omega

/-- What every row preserves, any number of shards preserve. -/
theorem ComponentTableSequenceValidator.pushAll_invariant
    {sequence last : ComponentTableSequenceValidator unicode}
    {holds : ComponentRowValidator unicode → Prop} (preserved : ∀ component before row next,
      before.push component row = some next → holds before → holds next)
    {pieces : List (SealedShard unicode sha256)} (pushed : sequence.pushAll pieces = some last)
    (initially : holds sequence.rows) : holds last.rows := by
  let kept (state : ComponentTableSequenceValidator unicode) : Prop := holds state.rows
  exact @Runs.foldlM_invariant _ _ _ kept _ _ _ pushed
    (fun before piece _ after taken => push_invariant preserved taken) initially

/-- The totals of a row validator are in bounds. -/
def ComponentRowValidator.Bounded (rows : ComponentRowValidator unicode) : Prop :=
  rows.finalBytes ≤ maxTier2AggregateBytes ∧ rows.priorBytes ≤ maxTier2AggregateBytes

theorem ComponentRowValidator.bounded_of_push (component : ManagedComponentKind)
    (before : ComponentRowValidator unicode) (row : ComponentTableRow unicode)
    (next : ComponentRowValidator unicode) (accepted : before.push component row = some next)
    (_ : before.Bounded) : next.Bounded := by
  obtain ⟨-, -, final, prior, -⟩ := ComponentRowValidator.push_eq_some accepted
  exact ⟨(ComponentRowValidator.le_of_addWithin final).1,
    (ComponentRowValidator.le_of_addWithin prior).1⟩

theorem ComponentRowValidator.bounded_of_new {expectedRows : Nat}
    {rows : ComponentRowValidator unicode}
    (made : ComponentRowValidator.new unicode expectedRows = some rows) : rows.Bounded := by
  unfold ComponentRowValidator.new at made
  split_ifs at made
  cases made
  exact ⟨Nat.zero_le _, Nat.zero_le _⟩

/-! ### Runs of the builder -/

variable {calls : List (List (ComponentTableRow unicode))}

namespace ComponentTableBuilder

variable {builder : ComponentTableBuilder unicode} {rows : List (ComponentTableRow unicode)}

/-- What is sealed is a sealed shard of the rows. -/
theorem sealShard_eq_some {shard : ComponentTableShard unicode} {encoded : List UInt8}
    {descriptor : ComponentShardDescriptor}
    (made : builder.sealShard sha256 rows = some (shard, encoded, descriptor)) :
    ∃ piece : SealedShard unicode sha256, piece.shard = shard ∧ piece.encoded = encoded ∧
      piece.descriptor = descriptor ∧ shard.rows = rows := by
  simp only [sealShard, bind_eq_some, Option.guard_eq_some', exists_const, pure_eq_some,
    Prod.mk.injEq] at made
  obtain ⟨-, -, -, -, -, encoded, canonical, ⟨finalBytes, priorBytes⟩, totals, ⟨fewRows, short⟩,
    rfl, rfl, rfl⟩ := made
  have ⟨final, prior⟩ := tableShardTotals_le totals
  refine ⟨⟨_, encoded, _, canonical, ?_, rfl, rfl, ?_, ?_, rfl⟩, rfl, rfl, rfl, rfl⟩
  · dsimp only
    rw [UInt64.toNat_ofNat_of_lt' (Nat.lt_of_le_of_lt final (by decide)),
      UInt64.toNat_ofNat_of_lt' (Nat.lt_of_le_of_lt prior (by decide)), totals]
  · exact UInt32.toNat_ofNat_of_lt' fewRows
  · exact UInt32.toNat_ofNat_of_lt' short

/-- A sealed shard that the sequence takes next is what the builder makes of its rows. -/
theorem sealShard_of_push {piece : SealedShard unicode sha256}
    {next : ComponentTableSequenceValidator unicode} (sound : builder.poisoned = false)
    (pushed : builder.sequence.push piece.shard piece.encoded = some next) :
    builder.sealShard sha256 piece.shard.rows =
      some (piece.shard, piece.encoded, piece.descriptor) := by
  obtain ⟨⟨component, totalRows, shardCount, index, nonce⟩, -⟩ :=
    ComponentTableSequenceValidator.push_eq_some pushed
  obtain ⟨geometry, -⟩ := (encode_eq_some _ _).mp piece.canonical
  have few := rows_length_le geometry
  simp only [validateShardGeometry, bind_eq_some, Option.guard_eq_some', exists_const] at geometry
  obtain ⟨expected, counted, ⟨-, count, inside, first⟩, rowCount, expectedRows, rowsSame⟩ := geometry
  rw [totalRows, index] at expectedRows
  have shardFits := piece.shard.shardCount.toNat_lt
  have firstFits := piece.shard.firstRow.toNat_lt
  have shortBytes := piece.descriptor.byteLen.toNat_lt
  rw [piece.length] at shortBytes
  rw [index] at first inside
  have sameIndex : UInt32.ofNat builder.sequence.nextShard = piece.shard.shardIndex := by
    rw [← index, UInt32.ofNat_toNat]
  have sameFirst : UInt32.ofNat (builder.sequence.nextShard * componentTableRowsPerShard) =
      piece.shard.firstRow := by
    rw [← first, UInt32.ofNat_toNat]
  have same : ({
      component := builder.sequence.component
      shardIndex := UInt32.ofNat builder.sequence.nextShard
      shardCount := UInt32.ofNat builder.sequence.shardCount
      firstRow := UInt32.ofNat (builder.sequence.nextShard * componentTableRowsPerShard)
      totalRows := builder.sequence.totalRows
      transactionNonce := builder.sequence.transactionNonce
      rows := piece.shard.rows } : ComponentTableShard unicode) = piece.shard := by
    rw [sameIndex, sameFirst, ← component, ← totalRows, ← shardCount, ← nonce, UInt32.ofNat_toNat]
  have described : ({
      shardIndex := UInt32.ofNat builder.sequence.nextShard
      firstRow := UInt32.ofNat (builder.sequence.nextShard * componentTableRowsPerShard)
      rowCount := UInt32.ofNat piece.shard.rows.length
      byteLen := UInt32.ofNat piece.encoded.length
      finalBytes := UInt64.ofNat piece.descriptor.finalBytes.toNat
      priorBytes := UInt64.ofNat piece.descriptor.priorBytes.toNat
      sha256 := sha256 piece.encoded } : ComponentShardDescriptor) = piece.descriptor := by
    rw [sameIndex, sameFirst, ← piece.index, ← piece.first, ← piece.count, ← piece.length,
      piece.digest, UInt32.ofNat_toNat, UInt32.ofNat_toNat, UInt64.ofNat_toNat, UInt64.ofNat_toNat]
  simp only [sealShard, bind_eq_some, Option.guard_eq_some', exists_const, pure_eq_some,
    Prod.mk.injEq, same]
  have perShard : componentTableRowsPerShard = 256 := rfl
  exact ⟨⟨sound, by omega⟩, rowCount, expectedRows, ⟨rowsSame, few⟩, by omega, piece.encoded,
    piece.canonical, (_, _), piece.totals, by omega, trivial, rfl, described⟩

/-- What a call can come to. -/
theorem pushShard_cases (builder : ComponentTableBuilder unicode)
    (rows : List (ComponentTableRow unicode)) :
    builder.pushShard sha256 rows = (builder, none) ∨
    builder.pushShard sha256 rows = ({ builder with poisoned := true }, none) ∨
    ∃ (piece : SealedShard unicode sha256) (next : ComponentTableSequenceValidator unicode),
      piece.shard.rows = rows ∧ builder.sequence.push piece.shard piece.encoded = some next ∧
      builder.pushShard sha256 rows =
        (⟨next, builder.descriptors ++ [piece.descriptor], false⟩,
          some (piece.encoded, piece.descriptor)) := by
  unfold pushShard
  cases made : builder.sealShard sha256 rows with
  | none => exact .inl rfl
  | some parts =>
    obtain ⟨shard, encoded, descriptor⟩ := parts
    obtain ⟨piece, rfl, rfl, rfl, same⟩ := sealShard_eq_some made
    dsimp only
    cases pushed : builder.sequence.push piece.shard piece.encoded with
    | none => exact .inr (.inl rfl)
    | some next => exact .inr (.inr ⟨piece, next, same, pushed, rfl⟩)

/-- A poisoned builder refuses all rows and stays as it is. -/
theorem pushShards_poisoned (poisoned : builder.poisoned = true)
    (calls : List (List (ComponentTableRow unicode))) :
    builder.pushShards sha256 calls = (builder, []) := by
  have refused : ∀ rows, builder.pushShard sha256 rows = (builder, none) := by
    intro rows
    have unsealed : builder.sealShard sha256 rows = none := by
      simp only [sealShard, poisoned, Bool.true_eq_false, false_and]
      rfl
    unfold pushShard
    rw [unsealed]
  induction calls with
  | nil => rfl
  | cons rows calls ih =>
    rw [pushShards, refused]
    dsimp only
    rw [ih]
    rfl

/-- A run at whose end the builder is not poisoned is a list of sealed shards. -/
theorem pushShards_sealed (sound : (builder.pushShards sha256 calls).1.poisoned = false) :
    ∃ pieces : List (SealedShard unicode sha256),
      builder.sequence.pushAll pieces = some (builder.pushShards sha256 calls).1.sequence ∧
      (builder.pushShards sha256 calls).1.descriptors =
        builder.descriptors ++ pieces.map SealedShard.descriptor ∧
      (builder.pushShards sha256 calls).2 =
        pieces.map fun piece => (piece.shard.rows, piece.encoded) := by
  induction calls generalizing builder with
  | nil => exact ⟨[], rfl, (List.append_nil _).symm, rfl⟩
  | cons rows calls ih =>
    rw [pushShards] at sound ⊢
    rcases @pushShard_cases _ sha256 builder rows with
      refused | poisoned | ⟨piece, next, rfl, pushed, accepted⟩
    · rw [refused] at sound ⊢
      exact ih sound
    · rw [poisoned] at sound
      dsimp only at sound
      rw [pushShards_poisoned rfl] at sound
      cases sound
    · rw [accepted] at sound ⊢
      obtain ⟨pieces, pushedAll, descriptors, emitted⟩ := ih sound
      refine ⟨piece :: pieces, Runs.foldlM_cons_eq_some.mpr ⟨next, pushed, pushedAll⟩, ?_, ?_⟩
      · dsimp only
        rw [descriptors, map_cons, append_assoc]
        rfl
      · dsimp only
        rw [emitted]
        rfl

/-- Sealed shards that the sequence takes are a run. -/
theorem pushShards_of_pushAll {pieces : List (SealedShard unicode sha256)}
    {last : ComponentTableSequenceValidator unicode} (sound : builder.poisoned = false)
    (pushed : builder.sequence.pushAll pieces = some last) :
    builder.pushShards sha256 (pieces.map fun piece => piece.shard.rows) =
      (⟨last, builder.descriptors ++ pieces.map SealedShard.descriptor, false⟩,
        pieces.map fun piece => (piece.shard.rows, piece.encoded)) := by
  induction pieces generalizing builder with
  | nil =>
    cases pushed
    rw [map_nil, map_nil, List.append_nil, ← sound]
    rfl
  | cons piece pieces ih =>
    obtain ⟨next, here, later⟩ := Runs.foldlM_cons_eq_some.mp pushed
    have accepted : builder.pushShard sha256 piece.shard.rows =
        (⟨next, builder.descriptors ++ [piece.descriptor], false⟩,
          some (piece.encoded, piece.descriptor)) := by
      unfold pushShard
      rw [sealShard_of_push sound here]
      dsimp only
      rw [here]
    rw [map_cons, pushShards, accepted]
    dsimp only
    rw [@ih ⟨next, builder.descriptors ++ [piece.descriptor], false⟩ rfl later,
      append_assoc]
    rfl

theorem pushShards_append (builder : ComponentTableBuilder unicode)
    (calls later : List (List (ComponentTableRow unicode))) :
    builder.pushShards sha256 (calls ++ later) =
      (((builder.pushShards sha256 calls).1.pushShards sha256 later).1,
        (builder.pushShards sha256 calls).2 ++
          ((builder.pushShards sha256 calls).1.pushShards sha256 later).2) := by
  induction calls generalizing builder with
  | nil => rfl
  | cons rows calls ih =>
    simp only [cons_append, pushShards, ih, append_assoc]

end ComponentTableBuilder

/-! ### Runs of the parser -/

namespace ComponentTableParser

variable {parser : ComponentTableParser unicode}

theorem parseNext_eq_some (bytes : List UInt8) (next : ComponentTableParser unicode)
    (shard : ComponentTableShard unicode) :
    parser.parseNext sha256 bytes = some (next, shard) ↔
      ∃ (piece : SealedShard unicode sha256) (sequence : ComponentTableSequenceValidator unicode),
        piece.shard = shard ∧ piece.encoded = bytes ∧
        parser.manifest.shards[parser.sequence.nextShard]? = some piece.descriptor ∧
        parser.sequence.push piece.shard piece.encoded = some sequence ∧
        next = { parser with sequence := sequence } := by
  simp only [parseNext, bind_eq_some, Option.guard_eq_some', exists_const, pure_eq_some,
    Prod.mk.injEq]
  constructor
  · rintro ⟨descriptor, found, ⟨length, digest⟩, shard, decoded, ⟨finalBytes, priorBytes⟩, totals,
      ⟨index, first, count, rfl, rfl⟩, sequence, pushed, rfl, rfl⟩
    exact ⟨⟨shard, bytes, descriptor, (shardCodec_canonical _ _).2 decoded, totals, index, first,
      count, length, digest⟩, sequence, rfl, rfl, found, pushed, rfl⟩
  · rintro ⟨piece, sequence, rfl, rfl, found, pushed, rfl⟩
    exact ⟨piece.descriptor, found, ⟨piece.length, piece.digest⟩, piece.shard,
      ((shardCodec_canonical _ _).1 piece.canonical).2, _, piece.totals,
      ⟨piece.index, piece.first, piece.count, rfl, rfl⟩, sequence, pushed, rfl, rfl⟩

theorem cons_prefix_drop {Value : Type} (value : Value) (values all : List Value) (index : Nat) :
    value :: values <+: all.drop index ↔ all[index]? = some value ∧ values <+: all.drop (index + 1) := by
  rw [← head?_drop, ← tail_drop]
  cases all.drop index with
  | nil => simp
  | cons first later => simp [cons_prefix_cons, eq_comm]

/-- What a parser accepts is a list of sealed shards with the next descriptors of its manifest. -/
theorem parseAll_eq_some (blobs : List (List UInt8)) (last : ComponentTableParser unicode)
    (shards : List (ComponentTableShard unicode)) :
    parser.parseAll sha256 blobs = some (last, shards) ↔
      ∃ (pieces : List (SealedShard unicode sha256))
        (sequence : ComponentTableSequenceValidator unicode),
        shards = pieces.map SealedShard.shard ∧ blobs = pieces.map SealedShard.encoded ∧
        pieces.map SealedShard.descriptor <+: parser.manifest.shards.drop parser.sequence.nextShard ∧
        parser.sequence.pushAll pieces = some sequence ∧
        last = { parser with sequence := sequence } := by
  induction blobs generalizing parser last shards with
  | nil =>
    simp only [parseAll, Option.some_inj, Prod.mk.injEq]
    constructor
    · rintro ⟨rfl, rfl⟩
      exact ⟨[], parser.sequence, rfl, rfl, List.nil_prefix, rfl, rfl⟩
    · rintro ⟨pieces, sequence, rfl, none, -, pushed, rfl⟩
      obtain rfl := map_eq_nil_iff.mp none.symm
      cases pushed
      exact ⟨rfl, rfl⟩
  | cons bytes blobs ih =>
    simp only [parseAll, bind_eq_some, pure_eq_some, Prod.mk.injEq, Prod.exists, parseNext_eq_some,
      ih]
    constructor
    · rintro ⟨_, _, ⟨piece, middle, rfl, rfl, found, pushed, rfl⟩, _, _,
        ⟨pieces, sequence, rfl, rfl, before, pushedAll, rfl⟩, rfl, rfl⟩
      have count := (ComponentTableSequenceValidator.push_eq_some pushed).2.2
      dsimp only at before
      rw [count] at before
      exact ⟨piece :: pieces, sequence, rfl, rfl, (cons_prefix_drop _ _ _ _).mpr ⟨found, before⟩,
        Runs.foldlM_cons_eq_some.mpr ⟨middle, pushed, pushedAll⟩, rfl⟩
    · rintro ⟨pieces, sequence, rfl, same, before, pushedAll, rfl⟩
      obtain ⟨piece, pieces, rfl, rfl, rfl⟩ := map_eq_cons_iff.mp same.symm
      obtain ⟨middle, pushed, later⟩ := Runs.foldlM_cons_eq_some.mp pushedAll
      obtain ⟨found, rest⟩ := (cons_prefix_drop _ _ _ _).mp before
      have count := (ComponentTableSequenceValidator.push_eq_some pushed).2.2
      rw [← count] at rest
      exact ⟨_, _, ⟨piece, middle, rfl, rfl, found, pushed, rfl⟩, _, _,
        ⟨pieces, sequence, rfl, rfl, rest, later, rfl⟩, rfl, rfl⟩

end ComponentTableParser

/-! ### The builder and the parser agree -/

variable {summary : ComponentTableSummary unicode} {component : ManagedComponentKind}
  {transactionNonce : Fixed 16}

namespace ComponentTableSequenceValidator

/-- A new sequence is determined by what it is of. -/
theorem new_eq_some {totalRows : UInt32} {sequence : ComponentTableSequenceValidator unicode}
    (made : new unicode component totalRows transactionNonce = some sequence) :
    (sequence.component = component ∧ sequence.totalRows = totalRows ∧
      sequence.transactionNonce = transactionNonce) ∧
    expectedShardCount totalRows.toNat = some sequence.shardCount ∧ sequence.nextShard = 0 ∧
    ComponentRowValidator.new unicode totalRows.toNat = some sequence.rows := by
  simp only [new, bind_eq_some, pure_eq_some] at made
  obtain ⟨shardCount, expected, rows, fresh, rfl⟩ := made
  exact ⟨⟨rfl, rfl, rfl⟩, expected, rfl, fresh⟩

theorem finish_eq_some {sequence : ComponentTableSequenceValidator unicode}
    (finished : sequence.finish sha256 = some summary) :
    sequence.nextShard = sequence.shardCount ∧ summary.finalBytes = sequence.rows.finalBytes ∧
      summary.priorBytes = sequence.rows.priorBytes := by
  simp only [finish, bind_eq_some, Option.guard_eq_some', exists_const, pure_eq_some] at finished
  obtain ⟨⟨all, -⟩, -, -, rfl⟩ := finished
  exact ⟨all, rfl, rfl⟩

end ComponentTableSequenceValidator

variable {manifest : ComponentIntentManifest}

theorem shards_length_of_validated (valid : validateManifest manifest = some ()) :
    expectedShardCount manifest.totalRows.toNat = some manifest.shards.length := by
  simp only [validateManifest, bind_eq_some, Option.guard_eq_some', exists_const] at valid
  obtain ⟨count, expected, ⟨same, -⟩, -⟩ := valid
  rw [expected, same]

theorem ComponentTableBuilder.finish_eq_some (builder : ComponentTableBuilder unicode)
    (manifest : ComponentIntentManifest) (summary : ComponentTableSummary unicode) :
    builder.finish sha256 = some (manifest, summary) ↔
      builder.poisoned = false ∧ builder.sequence.finish sha256 = some summary ∧
      validateManifest manifest = some () ∧
      manifest = {
        component := builder.sequence.component
        totalRows := builder.sequence.totalRows
        finalBytes := UInt64.ofNat summary.finalBytes
        priorBytes := UInt64.ofNat summary.priorBytes
        transactionNonce := builder.sequence.transactionNonce
        logicalRowsSha256 := summary.logicalRowsSha256
        projectionSha256 := summary.projectionSha256
        shards := builder.descriptors } := by
  simp only [finish, bind_eq_some, Option.guard_eq_some', exists_const, pure_eq_some, Prod.mk.injEq]
  constructor
  · rintro ⟨sound, _, finished, _, valid, rfl, rfl⟩
    exact ⟨sound, finished, valid, rfl⟩
  · rintro ⟨sound, finished, valid, rfl⟩
    exact ⟨sound, summary, finished, (), valid, rfl, rfl⟩

/-- What a builder finishes the parser accepts, with the same rows and the same summary. -/
theorem parser_accepts {totalRows : Nat} {builder : ComponentTableBuilder unicode}
    (made : ComponentTableBuilder.new unicode component totalRows transactionNonce = some builder)
    (finished : (builder.pushShards sha256 calls).1.finish sha256 = some (manifest, summary)) :
    ∃ parser last shards, ComponentTableParser.new unicode manifest = some parser ∧
      parser.parseAll sha256 ((builder.pushShards sha256 calls).2.map Prod.snd) =
        some (last, shards) ∧
      shards.map ComponentTableShard.rows = (builder.pushShards sha256 calls).2.map Prod.fst ∧
      last.finish sha256 = some summary := by
  obtain ⟨sound, sequenceFinished, valid, fields⟩ :=
    (ComponentTableBuilder.finish_eq_some _ _ _).mp finished
  obtain ⟨pieces, pushed, descriptors, emitted⟩ := ComponentTableBuilder.pushShards_sealed sound
  simp only [ComponentTableBuilder.new, bind_eq_some, Option.guard_eq_some', exists_const,
    pure_eq_some] at made
  obtain ⟨-, start, begun, rfl⟩ := made
  obtain ⟨⟨component, totalRows, nonce⟩, -, zero, fresh⟩ :=
    ComponentTableSequenceValidator.new_eq_some begun
  have ⟨same, _⟩ := ComponentTableSequenceValidator.pushAll_sameTable pushed
  obtain ⟨-, final, prior⟩ := ComponentTableSequenceValidator.finish_eq_some sequenceFinished
  have ⟨finalFits, priorFits⟩ := ComponentTableSequenceValidator.pushAll_invariant
    ComponentRowValidator.bounded_of_push pushed (ComponentRowValidator.bounded_of_new fresh)
  rw [emitted, map_map, map_map]
  refine ⟨⟨manifest, start⟩, ⟨manifest, _⟩, pieces.map SealedShard.shard, ?_,
    (ComponentTableParser.parseAll_eq_some _ _ _).mpr ⟨pieces, _, rfl, rfl, ?_, pushed, rfl⟩,
    map_map, ?_⟩
  · unfold ComponentTableParser.new
    rw [valid, fields, same.component, same.totalRows, same.transactionNonce]
    dsimp only
    rw [component, totalRows, nonce]
    simp only [Option.bind_eq_bind, Option.bind_some, begun]
    rfl
  · dsimp only
    rw [zero, drop_zero, fields]
    dsimp only
    rw [descriptors]
    exact prefix_rfl
  · unfold ComponentTableParser.finish
    simp only [sequenceFinished, Option.bind_eq_bind, Option.bind_some, fields]
    rw [UInt64.toNat_ofNat_of_lt' (by rw [final]; exact Nat.lt_of_le_of_lt finalFits (by decide)),
      UInt64.toNat_ofNat_of_lt' (by rw [prior]; exact Nat.lt_of_le_of_lt priorFits (by decide))]
    simp [guard]

/-- What a parser accepts a builder makes of the parsed rows. -/
theorem builder_rebuilds {parser last : ComponentTableParser unicode} {blobs : List (List UInt8)}
    {shards : List (ComponentTableShard unicode)}
    (made : ComponentTableParser.new unicode manifest = some parser)
    (parsed : parser.parseAll sha256 blobs = some (last, shards))
    (finished : last.finish sha256 = some summary) :
    ∃ builder, ComponentTableBuilder.new unicode manifest.component manifest.totalRows.toNat
        manifest.transactionNonce = some builder ∧
      (builder.pushShards sha256 (shards.map ComponentTableShard.rows)).2.map Prod.fst =
        shards.map ComponentTableShard.rows ∧
      (builder.pushShards sha256 (shards.map ComponentTableShard.rows)).2.map Prod.snd = blobs ∧
      (builder.pushShards sha256 (shards.map ComponentTableShard.rows)).1.finish sha256 =
        some (manifest, summary) := by
  simp only [ComponentTableParser.new, bind_eq_some, pure_eq_some] at made
  obtain ⟨_, valid, start, begun, rfl⟩ := made
  obtain ⟨pieces, sequence, rfl, rfl, before, pushed, rfl⟩ :=
    (ComponentTableParser.parseAll_eq_some _ _ _).mp parsed
  simp only [ComponentTableParser.finish, bind_eq_some, Option.guard_eq_some', exists_const,
    pure_eq_some] at finished
  obtain ⟨_, sequenceFinished, ⟨final, prior, logicalRows, projection⟩, rfl⟩ := finished
  obtain ⟨⟨component, totalRows, nonce⟩, expected, zero, -⟩ :=
    ComponentTableSequenceValidator.new_eq_some begun
  have ⟨same, count⟩ := ComponentTableSequenceValidator.pushAll_sameTable pushed
  obtain ⟨all, -, -⟩ := ComponentTableSequenceValidator.finish_eq_some sequenceFinished
  -- the parser has used all descriptors of its manifest
  have complete : pieces.map SealedShard.descriptor = manifest.shards := by
    rw [zero, drop_zero] at before
    have whole := Option.some_inj.mp (expected.symm.trans (shards_length_of_validated valid))
    refine before.eq_of_length ?_
    rw [length_map, ← whole, ← same.shardCount, ← all, count, zero, Nat.zero_add]
  refine ⟨⟨start, [], false⟩, ?_, ?_⟩
  · unfold ComponentTableBuilder.new
    rw [UInt32.ofNat_toNat, begun]
    simp [guard, manifest.totalRows.toNat_lt]
  · rw [map_map]
    have rebuilt := @ComponentTableBuilder.pushShards_of_pushAll _ _ ⟨start, [], false⟩ _ _ rfl pushed
    simp only [Function.comp_def, rebuilt, map_map, nil_append, true_and]
    refine (ComponentTableBuilder.finish_eq_some _ _ _).mpr ⟨rfl, sequenceFinished, valid, ?_⟩
    dsimp only
    rw [complete, final, prior, logicalRows, projection, same.component, same.totalRows,
      same.transactionNonce, component, totalRows, nonce, UInt64.ofNat_toNat, UInt64.ofNat_toNat]

/-- The builder and the parser agree over whole runs. What any calls lead a new builder to finish,
failed calls among them, has a manifest that is read back from its bytes, and a parser of it accepts
the emitted bytes, gives the pushed rows and finishes with the same summary. What a parser accepts
and finishes, a builder makes of the parsed rows. A call that fails before the global validation can
be left out of every run. One that fails there poisons the builder, and whatever it leaves of the
sequence, every later call fails. -/
theorem builder_parser_agree (unicode : Unicode) (sha256 : List UInt8 → Fixed 32) :
    (∀ component totalRows transactionNonce builder calls manifest summary,
      ComponentTableBuilder.new unicode component totalRows transactionNonce = some builder →
      (builder.pushShards sha256 calls).1.finish sha256 = some (manifest, summary) →
      (∃ encoded, encodeComponentIntentManifest manifest = some encoded ∧
        decodeComponentIntentManifest encoded = some manifest) ∧
      ∃ parser last shards, ComponentTableParser.new unicode manifest = some parser ∧
        parser.parseAll sha256 ((builder.pushShards sha256 calls).2.map Prod.snd) =
          some (last, shards) ∧
        shards.map ComponentTableShard.rows = (builder.pushShards sha256 calls).2.map Prod.fst ∧
        last.finish sha256 = some summary) ∧
    (∀ manifest parser blobs last shards summary,
      ComponentTableParser.new unicode manifest = some parser →
      parser.parseAll sha256 blobs = some (last, shards) → last.finish sha256 = some summary →
      ∃ builder, ComponentTableBuilder.new unicode manifest.component manifest.totalRows.toNat
          manifest.transactionNonce = some builder ∧
        (builder.pushShards sha256 (shards.map ComponentTableShard.rows)).2.map Prod.fst =
          shards.map ComponentTableShard.rows ∧
        (builder.pushShards sha256 (shards.map ComponentTableShard.rows)).2.map Prod.snd = blobs ∧
        (builder.pushShards sha256 (shards.map ComponentTableShard.rows)).1.finish sha256 =
          some (manifest, summary)) ∧
    (∀ (builder : ComponentTableBuilder unicode) calls rows later,
      (builder.pushShards sha256 calls).1.sealShard sha256 rows = none →
      builder.pushShards sha256 (calls ++ rows :: later) =
        builder.pushShards sha256 (calls ++ later)) ∧
    ∀ (builder : ComponentTableBuilder unicode) rows shard encoded descriptor,
      builder.sealShard sha256 rows = some (shard, encoded, descriptor) →
      builder.sequence.push shard encoded = none →
      (builder.pushShard sha256 rows).2 = none ∧ (builder.pushShard sha256 rows).1.poisoned = true ∧
      ∀ (left : ComponentTableBuilder unicode) later, left.poisoned = true →
        (left.pushShards sha256 later).2 = [] ∧
          (left.pushShards sha256 later).1.finish sha256 = none := by
  refine ⟨fun component totalRows nonce builder calls manifest summary made finished => ⟨?_,
    parser_accepts made finished⟩, fun manifest parser blobs last shards summary made parsed
    finished => builder_rebuilds made parsed finished, fun builder calls rows later unsealed => ?_,
    fun builder rows shard encoded descriptor made refused => ?_⟩
  · obtain ⟨-, -, valid, -⟩ := (ComponentTableBuilder.finish_eq_some _ _ _).mp finished
    have encoded := (encodeManifest_eq_some manifest _).mpr ⟨valid, rfl⟩
    exact ⟨_, encoded, (decodeManifest_eq_some _ _).mpr encoded⟩
  · have same : (builder.pushShards sha256 calls).1.pushShard sha256 rows =
        ((builder.pushShards sha256 calls).1, none) := by
      unfold ComponentTableBuilder.pushShard
      rw [unsealed]
    rw [ComponentTableBuilder.pushShards_append, ComponentTableBuilder.pushShards_append,
      ComponentTableBuilder.pushShards, same]
    rfl
  · have poisoned : builder.pushShard sha256 rows = ({ builder with poisoned := true }, none) := by
      unfold ComponentTableBuilder.pushShard
      rw [made]
      dsimp only
      rw [refused]
    rw [poisoned]
    refine ⟨rfl, rfl, fun left later stuck => ?_⟩
    rw [ComponentTableBuilder.pushShards_poisoned stuck]
    refine ⟨rfl, ?_⟩
    unfold ComponentTableBuilder.finish
    rw [stuck]
    rfl

/-- A library in a directory that is to be created. -/
def plainRow (path : String) (inventoryOrdinal : UInt32) :
    Option (ComponentTableRow Unicode.plain) := do
  let path ← PortableRelativePath.new Unicode.plain path
  return ⟨inventoryOrdinal, 5, Fixed.zero 20, .library, path, some 1, none⟩

/-- Too few rows, a row twice and rows out of order are refused, and the builder goes on. -/
example : (do
    let builder ← ComponentTableBuilder.new Unicode.plain .libraries 2 (Fixed.zero 16)
    let first ← plainRow "a/b.jar" 0
    let second ← plainRow "a/c.jar" 1
    let (last, emitted) := builder.pushShards (fun _ => Fixed.zero 32)
      [[first], [second, second], [second, first], [first, second]]
    let (_, summary) ← last.finish fun _ => Fixed.zero 32
    return (emitted.length, summary.createdAncestors.length)) = some (1, 1) := by
  decide +kernel

end Axial.Minecraft
