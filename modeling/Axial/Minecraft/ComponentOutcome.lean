/-
This file models the outcome and the settlement of a component transaction in
`core/minecraft/src/managed_component_publication.rs`: the record of how the
transaction ended, and the file that keeps it together with the intent it
settles. It shows both to be canonical codecs that reach every accepted intent and
bind it.
-/

import Axial.Minecraft.ComponentManifest

namespace Axial.Minecraft

open Bytes Reader List Option

abbrev publicationFormatVersion : UInt16 := 2
abbrev componentOutcomeBodyBytes : Nat := 152
abbrev componentOutcomeBytes : Nat := componentOutcomeBodyBytes + 32
abbrev componentSettlementHeaderBytes : Nat := 96
abbrev maxComponentSettlementBytes : Nat :=
  componentSettlementHeaderBytes + componentOutcomeBytes + maxComponentIntentBytes

/-- `AXCPOUT\0`. -/
def outcomeMagic : Fixed 8 := ⟨[0x41, 0x58, 0x43, 0x50, 0x4f, 0x55, 0x54, 0x00], rfl⟩

/-- `AXCPSET\0`. -/
def settlementMagic : Fixed 8 := ⟨[0x41, 0x58, 0x43, 0x50, 0x53, 0x45, 0x54, 0x00], rfl⟩

def outcomeChecksumDomain : List UInt8 := utf8 "axial.component.outcome.v2\x00"

inductive ComponentTerminalOutcome where
  | committed
  | rolledBack
  deriving DecidableEq

inductive ComponentRollbackEffect where
  | none
  | execution
  | reconciliation
  deriving DecidableEq

def ComponentTerminalOutcome.toByte : ComponentTerminalOutcome → UInt8
  | .committed => 1
  | .rolledBack => 2

def ComponentTerminalOutcome.fromByte (value : UInt8) : Option ComponentTerminalOutcome :=
  if value = 1 then some .committed
  else if value = 2 then some .rolledBack
  else Option.none

def ComponentRollbackEffect.toByte : ComponentRollbackEffect → UInt8
  | .none => 0
  | .execution => 1
  | .reconciliation => 2

def ComponentRollbackEffect.fromByte (value : UInt8) : Option ComponentRollbackEffect :=
  if value = 0 then some .none
  else if value = 1 then some .execution
  else if value = 2 then some .reconciliation
  else Option.none

structure ComponentOutcomeRecord where
  component : ManagedComponentKind
  terminal : ComponentTerminalOutcome
  effect : ComponentRollbackEffect
  totalRows : UInt32
  shardCount : UInt32
  finalBytes : UInt64
  priorBytes : UInt64
  transactionNonce : Fixed 16
  intentSha256 : Fixed 32
  logicalRowsSha256 : Fixed 32
  projectionSha256 : Fixed 32
  deriving DecidableEq

structure ComponentSettlementRecord where
  outcome : ComponentOutcomeRecord
  intent : ComponentIntentManifest
  encodedIntent : List UInt8

/-! ### The records -/

def effectIsValid : ComponentTerminalOutcome → ComponentRollbackEffect → Bool
  | .committed, .none => true
  | .rolledBack, .execution => true
  | .rolledBack, .reconciliation => true
  | _, _ => false

def validateOutcome (outcome : ComponentOutcomeRecord) : Option Unit := do
  guard (effectIsValid outcome.terminal outcome.effect = true ∧
    outcome.totalRows.toNat ≤ maxComponentTableRows)
  let expectedCount ← expectedShardCount outcome.totalRows.toNat
  guard (outcome.shardCount.toNat = expectedCount ∧
    outcome.finalBytes.toNat ≤ maxTier2AggregateBytes ∧
    outcome.priorBytes.toNat ≤ maxTier2AggregateBytes)

section

variable (sha256 : List UInt8 → Fixed 32)

def ComponentOutcomeRecord.forIntent (encodedIntent : List UInt8)
    (terminal : ComponentTerminalOutcome) (effect : ComponentRollbackEffect) :
    Option ComponentOutcomeRecord := do
  let intent ← decodeComponentIntentManifest encodedIntent
  guard (intent.shards.length < 2 ^ 32)
  let outcome : ComponentOutcomeRecord := {
    component := intent.component
    terminal
    effect
    totalRows := intent.totalRows
    shardCount := UInt32.ofNat intent.shards.length
    finalBytes := intent.finalBytes
    priorBytes := intent.priorBytes
    transactionNonce := intent.transactionNonce
    intentSha256 := sha256 encodedIntent
    logicalRowsSha256 := intent.logicalRowsSha256
    projectionSha256 := intent.projectionSha256 }
  validateOutcome outcome
  return outcome

def ComponentOutcomeRecord.bindsIntent (outcome : ComponentOutcomeRecord)
    (intent : ComponentIntentManifest) (encodedIntent : List UInt8) : Option Unit :=
  guard (outcome.component = intent.component ∧ outcome.totalRows = intent.totalRows ∧
    outcome.shardCount.toNat = intent.shards.length ∧ outcome.finalBytes = intent.finalBytes ∧
    outcome.priorBytes = intent.priorBytes ∧
    outcome.transactionNonce = intent.transactionNonce ∧
    outcome.intentSha256 = sha256 encodedIntent ∧
    outcome.logicalRowsSha256 = intent.logicalRowsSha256 ∧
    outcome.projectionSha256 = intent.projectionSha256)

/-! ### The outcome -/

def outcomeChecksum (body : List UInt8) : Fixed 32 := sha256 (outcomeChecksumDomain ++ body)

def outcomeBody (outcome : ComponentOutcomeRecord) : List UInt8 :=
  outcomeMagic.val ++ (littleEndian 2 publicationFormatVersion.toNat ++
    (outcome.component.toByte :: outcome.terminal.toByte :: outcome.effect.toByte :: 0 ::
      (littleEndian 2 0 ++ (littleEndian 4 outcome.totalRows.toNat ++
        (littleEndian 4 outcome.shardCount.toNat ++ (littleEndian 8 outcome.finalBytes.toNat ++
          (littleEndian 8 outcome.priorBytes.toNat ++ (outcome.transactionNonce.val ++
            (outcome.intentSha256.val ++ (outcome.logicalRowsSha256.val ++
              outcome.projectionSha256.val))))))))))

def encodeComponentOutcome (outcome : ComponentOutcomeRecord) : Option (List UInt8) := do
  validateOutcome outcome
  let body := outcomeBody outcome
  guard (body.length = componentOutcomeBodyBytes)
  return body ++ (outcomeChecksum sha256 body).val

def readOutcome : ByteReader ComponentOutcomeRecord := do
  let magic ← array 8
  require (magic = outcomeMagic)
  let version ← uint16
  require (version = publicationFormatVersion)
  let componentByte ← byte
  let component ← lift (ManagedComponentKind.fromByte componentByte)
  let terminalByte ← byte
  let terminal ← lift (ComponentTerminalOutcome.fromByte terminalByte)
  let effectByte ← byte
  let effect ← lift (ComponentRollbackEffect.fromByte effectByte)
  let padding ← byte
  require (padding = 0)
  let reserved ← number 2
  require (reserved = 0)
  let totalRows ← uint32
  let shardCount ← uint32
  let finalBytes ← uint64
  let priorBytes ← uint64
  let transactionNonce ← array 16
  let intentSha256 ← array 32
  let logicalRowsSha256 ← array 32
  let projectionSha256 ← array 32
  pure ⟨component, terminal, effect, totalRows, shardCount, finalBytes, priorBytes,
    transactionNonce, intentSha256, logicalRowsSha256, projectionSha256⟩

def decodeComponentOutcome (bytes : List UInt8) : Option ComponentOutcomeRecord := do
  guard (bytes.length = componentOutcomeBytes)
  let body := bytes.take componentOutcomeBodyBytes
  guard (bytes.drop componentOutcomeBodyBytes = (outcomeChecksum sha256 body).val)
  let outcome ← decode readOutcome body
  validateOutcome outcome
  guard (encodeComponentOutcome sha256 outcome = some bytes)
  return outcome

/-! ### The settlement -/

def settlementHeader (component : ManagedComponentKind)
    (encodedOutcome encodedIntent : List UInt8) (totalBytes : Nat) : List UInt8 :=
  settlementMagic.val ++ (littleEndian 2 publicationFormatVersion.toNat ++
    (component.toByte :: 0 :: (littleEndian 4 encodedOutcome.length ++
      (littleEndian 4 encodedIntent.length ++ ((sha256 encodedOutcome).val ++
        ((sha256 encodedIntent).val ++ (littleEndian 4 totalBytes ++
          (littleEndian 4 0 ++ littleEndian 4 0))))))))

def encodeComponentSettlement (outcome : ComponentOutcomeRecord) (encodedIntent : List UInt8) :
    Option (List UInt8) := do
  let intent ← decodeComponentIntentManifest encodedIntent
  outcome.bindsIntent sha256 intent encodedIntent
  let encodedOutcome ← encodeComponentOutcome sha256 outcome
  let totalBytes := componentSettlementHeaderBytes + encodedOutcome.length + encodedIntent.length
  guard (totalBytes ≤ maxComponentSettlementBytes)
  guard (encodedOutcome.length < 2 ^ 32 ∧ encodedIntent.length < 2 ^ 32 ∧ totalBytes < 2 ^ 32)
  let header := settlementHeader sha256 outcome.component encodedOutcome encodedIntent totalBytes
  guard (header.length = componentSettlementHeaderBytes)
  return header ++ (encodedOutcome ++ encodedIntent)

def readSettlement (total : Nat) : ByteReader ComponentSettlementRecord := do
  let magic ← array 8
  require (magic = settlementMagic)
  let version ← uint16
  require (version = publicationFormatVersion)
  let componentByte ← byte
  let component ← lift (ManagedComponentKind.fromByte componentByte)
  let padding ← byte
  require (padding = 0)
  let outcomeLen ← number 4
  let intentLen ← number 4
  let outcomeSha256 ← array 32
  let intentSha256 ← array 32
  let totalLen ← number 4
  let reserved ← number 4
  require (reserved = 0)
  let reserved ← number 4
  let rest ← left
  -- The position is what is not left.
  require (reserved = 0 ∧ total - rest = componentSettlementHeaderBytes ∧
    outcomeLen = componentOutcomeBytes ∧ intentLen ≤ maxComponentIntentBytes ∧
    totalLen = total ∧ componentSettlementHeaderBytes + outcomeLen + intentLen = total)
  let encodedOutcome ← take outcomeLen
  let encodedIntent ← take intentLen
  require (outcomeSha256 = sha256 encodedOutcome ∧ intentSha256 = sha256 encodedIntent)
  let outcome ← lift (decodeComponentOutcome sha256 encodedOutcome)
  require (outcome.component = component)
  let intent ← lift (decodeComponentIntentManifest encodedIntent)
  let _ ← lift (outcome.bindsIntent sha256 intent encodedIntent)
  pure ⟨outcome, intent, encodedIntent⟩

def decodeComponentSettlement (bytes : List UInt8) : Option ComponentSettlementRecord := do
  guard (componentSettlementHeaderBytes + componentOutcomeBytes ≤ bytes.length ∧
    bytes.length ≤ maxComponentSettlementBytes)
  let record ← decode (readSettlement sha256 bytes.length) bytes
  guard (encodeComponentSettlement sha256 record.outcome record.encodedIntent = some bytes)
  return record

end

/-! ### Validity -/

theorem ComponentTerminalOutcome.fromByte_eq_some (value : UInt8)
    (terminal : ComponentTerminalOutcome) :
    fromByte value = some terminal ↔ value = terminal.toByte := by
  revert value
  cases terminal <;> decide +kernel

theorem ComponentRollbackEffect.fromByte_eq_some (value : UInt8)
    (effect : ComponentRollbackEffect) :
    fromByte value = some effect ↔ value = effect.toByte := by
  revert value
  cases effect <;> decide +kernel

theorem validateManifest_eq_some {manifest : ComponentIntentManifest}
    (valid : validateManifest manifest = some ()) :
    expectedShardCount manifest.totalRows.toNat = some manifest.shards.length ∧
      manifest.finalBytes.toNat ≤ maxTier2AggregateBytes ∧
      manifest.priorBytes.toNat ≤ maxTier2AggregateBytes := by
  simp only [validateManifest, bind_eq_some, guard_eq_some', exists_const] at valid
  obtain ⟨count, expected, ⟨same, final, prior⟩, -⟩ := valid
  exact ⟨same ▸ expected, final, prior⟩

theorem le_of_expectedShardCount {totalRows count : Nat}
    (expected : expectedShardCount totalRows = some count) :
    totalRows ≤ maxComponentTableRows ∧ count ≤ maxComponentTableShards := by
  unfold expectedShardCount at expected
  dsimp only at expected
  split_ifs at expected with many few
  cases expected
  exact ⟨Nat.not_lt.mp many, few⟩

theorem validateOutcome_eq_some (outcome : ComponentOutcomeRecord) :
    validateOutcome outcome = some () ↔
      effectIsValid outcome.terminal outcome.effect = true ∧
      expectedShardCount outcome.totalRows.toNat = some outcome.shardCount.toNat ∧
      outcome.finalBytes.toNat ≤ maxTier2AggregateBytes ∧
      outcome.priorBytes.toNat ≤ maxTier2AggregateBytes := by
  simp only [validateOutcome, bind_eq_some, guard_eq_some', exists_const]
  constructor
  · rintro ⟨⟨effect, -⟩, count, expected, same, final, prior⟩
    exact ⟨effect, same ▸ expected, final, prior⟩
  · rintro ⟨effect, expected, final, prior⟩
    exact ⟨⟨effect, (le_of_expectedShardCount expected).1⟩, _, expected, rfl, final, prior⟩

/-! ### The outcome codec -/

theorem outcomeBody_length (outcome : ComponentOutcomeRecord) :
    (outcomeBody outcome).length = componentOutcomeBodyBytes := by
  simp only [outcomeBody, length_append, length_cons, littleEndian_length,
    Fixed.length_val]

theorem readOutcome_eq_some (bytes : List UInt8) (outcome : ComponentOutcomeRecord) :
    decode readOutcome bytes = some outcome ↔ bytes = outcomeBody outcome := by
  rw [decode_eq_some]
  unfold readOutcome
  simp only [array_bind, require_bind, number_bind, byte_bind, lift_bind, uint16_bind, uint32_bind,
    uint64_bind, run_pure_eq_some, ManagedComponentKind.fromByte_eq_some,
    ComponentTerminalOutcome.fromByte_eq_some, ComponentRollbackEffect.fromByte_eq_some]
  constructor
  · rintro ⟨_, _, rfl, rfl, _, _, rfl, rfl, _, _, rfl, _, rfl, _, _, rfl, _, rfl, _, _, rfl, _, rfl,
      _, _, rfl, rfl, _, _, _, rfl, rfl, _, _, rfl, _, _, rfl, _, _, rfl, _, _, rfl, _, _, rfl,
      _, _, rfl, _, _, rfl, _, _, rfl, equal⟩
    cases equal
    simp only [outcomeBody, List.append_nil]
  · rintro rfl
    exact ⟨_, _, rfl, rfl, _, _, rfl, rfl, _, _, rfl, _, rfl, _, _, rfl, _, rfl, _, _, rfl, _, rfl,
      _, _, rfl, rfl, 0, _, by decide, rfl, rfl, _, _, rfl, _, _, rfl, _, _, rfl, _, _, rfl,
      _, _, rfl, _, _, rfl, _, _, rfl, _, [], (List.append_nil _).symm, rfl⟩

section

variable (sha256 : List UInt8 → Fixed 32)

theorem encodeOutcome_eq_some (outcome : ComponentOutcomeRecord) (bytes : List UInt8) :
    encodeComponentOutcome sha256 outcome = some bytes ↔ validateOutcome outcome = some () ∧
      bytes = outcomeBody outcome ++ (outcomeChecksum sha256 (outcomeBody outcome)).val := by
  unfold encodeComponentOutcome
  simp only [bind_eq_some, guard_eq_some', exists_const, pure_eq_some, outcomeBody_length,
    true_and]
  constructor
  · rintro ⟨_, valid, rfl⟩
    exact ⟨valid, rfl⟩
  · rintro ⟨valid, rfl⟩
    exact ⟨(), valid, rfl⟩

variable {outcome : ComponentOutcomeRecord} {bytes : List UInt8}

theorem encodedOutcome_length (encoded : encodeComponentOutcome sha256 outcome = some bytes) :
    bytes.length = componentOutcomeBytes := by
  rw [((encodeOutcome_eq_some sha256 outcome bytes).mp encoded).2, length_append,
    outcomeBody_length, Fixed.length_val]

/-- The outcome codec is canonical. -/
theorem decodeOutcome_eq_some (bytes : List UInt8) (outcome : ComponentOutcomeRecord) :
    decodeComponentOutcome sha256 bytes = some outcome ↔
      encodeComponentOutcome sha256 outcome = some bytes := by
  unfold decodeComponentOutcome
  simp only [bind_eq_some, guard_eq_some', exists_const, pure_eq_some]
  constructor
  · rintro ⟨-, -, _, -, _, -, encoded, rfl⟩
    exact encoded
  · intro encoded
    have ⟨valid, same⟩ := (encodeOutcome_eq_some sha256 outcome bytes).mp encoded
    have body : bytes.take componentOutcomeBodyBytes = outcomeBody outcome := by
      rw [same, ← outcomeBody_length outcome, take_left]
    refine ⟨encodedOutcome_length sha256 encoded, ?_, outcome, ?_, (), valid, encoded, rfl⟩
    · rw [body, same, ← outcomeBody_length outcome, drop_left]
    · rw [body]
      exact (readOutcome_eq_some _ _).mpr rfl

/-! ### The settlement codec -/

variable {intent : ComponentIntentManifest} {encodedIntent : List UInt8}
  {terminal : ComponentTerminalOutcome} {effect : ComponentRollbackEffect}

theorem bindsIntent_forIntent (decoded : decodeComponentIntentManifest encodedIntent = some intent)
    (made : ComponentOutcomeRecord.forIntent sha256 encodedIntent terminal effect = some outcome) :
    outcome.bindsIntent sha256 intent encodedIntent = some () := by
  simp only [ComponentOutcomeRecord.forIntent, decoded, bind_eq_bind, bind_some,
    bind_eq_some_iff, guard_eq_some', exists_const, Option.pure_def,
    some_inj] at made
  obtain ⟨few, _, -, rfl⟩ := made
  rw [ComponentOutcomeRecord.bindsIntent, guard_eq_some']
  exact ⟨rfl, rfl, UInt32.toNat_ofNat_of_lt' few, rfl, rfl, rfl, rfl, rfl, rfl⟩

/-- Every accepted intent has an outcome for each admissible ending. -/
theorem forIntent_eq_some (decoded : decodeComponentIntentManifest encodedIntent = some intent)
    (admissible : effectIsValid terminal effect = true) :
    ∃ outcome, ComponentOutcomeRecord.forIntent sha256 encodedIntent terminal effect =
      some outcome ∧ outcome.terminal = terminal ∧ outcome.effect = effect ∧
      validateOutcome outcome = some () := by
  have encoded := (decodeManifest_eq_some _ _).mp decoded
  have valid := ((encodeManifest_eq_some _ _).mp encoded).1
  have ⟨expected, final, prior⟩ := validateManifest_eq_some valid
  have few : intent.shards.length < 2 ^ 32 := (shards_length_le valid).trans_lt (by decide)
  have count : (UInt32.ofNat intent.shards.length).toNat = intent.shards.length :=
    UInt32.toNat_ofNat_of_lt' few
  let outcome : ComponentOutcomeRecord := ⟨intent.component, terminal, effect, intent.totalRows,
    UInt32.ofNat intent.shards.length, intent.finalBytes, intent.priorBytes,
    intent.transactionNonce, sha256 encodedIntent, intent.logicalRowsSha256,
    intent.projectionSha256⟩
  have outcomeValid : validateOutcome outcome = some () :=
    (validateOutcome_eq_some outcome).mpr ⟨admissible, count.symm ▸ expected, final, prior⟩
  refine ⟨outcome, ?_, rfl, rfl, outcomeValid⟩
  simp only [ComponentOutcomeRecord.forIntent, decoded, bind_eq_bind, bind_some,
    bind_eq_some_iff, guard_eq_some', exists_const, Option.pure_def,
    some_inj]
  exact ⟨few, (), outcomeValid, rfl⟩

theorem settlementHeader_length (component : ManagedComponentKind)
    (encodedOutcome encodedIntent : List UInt8) (totalBytes : Nat) :
    (settlementHeader sha256 component encodedOutcome encodedIntent totalBytes).length =
      componentSettlementHeaderBytes := by
  simp only [settlementHeader, length_append, length_cons, littleEndian_length,
    Fixed.length_val]

theorem decodedIntent_length (decoded : decodeComponentIntentManifest encodedIntent = some intent) :
    encodedIntent.length ≤ maxComponentIntentBytes := by
  simp only [decodeComponentIntentManifest, bind_eq_some, guard_eq_some', exists_const]
    at decoded
  exact decoded.1.2

/-- The bytes of a settlement, from its parts. -/
def settlementBytes (component : ManagedComponentKind)
    (encodedOutcome encodedIntent : List UInt8) : List UInt8 :=
  settlementHeader sha256 component encodedOutcome encodedIntent
    (componentSettlementHeaderBytes + encodedOutcome.length + encodedIntent.length) ++
    (encodedOutcome ++ encodedIntent)

theorem encodeSettlement_eq_some (outcome : ComponentOutcomeRecord)
    (encodedIntent bytes : List UInt8) :
    encodeComponentSettlement sha256 outcome encodedIntent = some bytes ↔
      ∃ intent, decodeComponentIntentManifest encodedIntent = some intent ∧
        outcome.bindsIntent sha256 intent encodedIntent = some () ∧
        ∃ encodedOutcome, encodeComponentOutcome sha256 outcome = some encodedOutcome ∧
          bytes = settlementBytes sha256 outcome.component encodedOutcome encodedIntent := by
  unfold encodeComponentSettlement
  simp only [bind_eq_some, guard_eq_some', exists_const, pure_eq_some,
    settlementHeader_length, true_and]
  constructor
  · rintro ⟨intent, decoded, _, binds, encodedOutcome, encoded, -, -, rfl⟩
    exact ⟨intent, decoded, binds, encodedOutcome, encoded, rfl⟩
  · rintro ⟨intent, decoded, binds, encodedOutcome, encoded, rfl⟩
    have length := encodedOutcome_length sha256 encoded
    have bounded := decodedIntent_length decoded
    have limit : maxComponentIntentBytes = 50176 := rfl
    refine ⟨intent, decoded, (), binds, encodedOutcome, encoded, ?_, ⟨?_, ?_, ?_⟩, rfl⟩
    · rw [length]
      exact Nat.add_le_add_left bounded _
    · rw [length]
      decide
    · omega
    · rw [length]
      exact (Nat.add_le_add_left bounded _).trans_lt (by decide)

variable {encodedOutcome : List UInt8}

theorem settlementBytes_length
    (encoded : encodeComponentOutcome sha256 outcome = some encodedOutcome)
    (component : ManagedComponentKind) (encodedIntent : List UInt8) :
    (settlementBytes sha256 component encodedOutcome encodedIntent).length =
      componentSettlementHeaderBytes + componentOutcomeBytes + encodedIntent.length := by
  rw [settlementBytes, length_append, length_append, settlementHeader_length,
    encodedOutcome_length sha256 encoded, ← Nat.add_assoc]

/-- What the settlement reader makes of the bytes of a settlement. -/
theorem readSettlement_settlementBytes
    (decoded : decodeComponentIntentManifest encodedIntent = some intent)
    (binds : outcome.bindsIntent sha256 intent encodedIntent = some ())
    (encoded : encodeComponentOutcome sha256 outcome = some encodedOutcome) :
    decode (readSettlement sha256
      (componentSettlementHeaderBytes + componentOutcomeBytes + encodedIntent.length))
      (settlementBytes sha256 outcome.component encodedOutcome encodedIntent) =
      some ⟨outcome, intent, encodedIntent⟩ := by
  have length := encodedOutcome_length sha256 encoded
  have bounded := decodedIntent_length decoded
  have outcomeLen : encodedOutcome.length < 256 ^ 4 := by
    rw [length]
    decide
  have intentLen : encodedIntent.length < 256 ^ 4 := bounded.trans_lt (by decide)
  have totalLen : componentSettlementHeaderBytes + encodedOutcome.length + encodedIntent.length <
      256 ^ 4 := by
    rw [length]
    exact (Nat.add_le_add_left bounded _).trans_lt (by decide)
  rw [decode_eq_some]
  unfold readSettlement
  simp only [array_bind, require_bind, number_bind, byte_bind, lift_bind, uint16_bind, left_bind,
    take_bind, run_pure_eq_some, ManagedComponentKind.fromByte_eq_some, decodeOutcome_eq_some]
  refine ⟨_, _, by simp only [settlementBytes, settlementHeader, append_assoc,
    cons_append], rfl, _, _, rfl, rfl, _, _, rfl, _, rfl, 0, _, rfl, rfl, _, _, outcomeLen,
    rfl, _, _, intentLen, rfl, _, _, rfl, _, _, rfl, _, _, totalLen, rfl, 0, _, by decide, rfl,
    rfl, 0, _, by decide, rfl, ⟨rfl, ?_, length, bounded, by rw [length], by rw [length]⟩,
    encodedOutcome, _, rfl, rfl, encodedIntent, [], rfl, (List.append_nil _).symm, ⟨rfl, rfl⟩,
    outcome, encoded, rfl, intent, decoded, (), binds, rfl⟩
  rw [length_append, length]
  omega

/-- The settlement codec is canonical, and what it accepts is bound to its intent. -/
theorem decodeSettlement_eq_some (bytes : List UInt8) (record : ComponentSettlementRecord) :
    decodeComponentSettlement sha256 bytes = some record ↔
      encodeComponentSettlement sha256 record.outcome record.encodedIntent = some bytes ∧
      decodeComponentIntentManifest record.encodedIntent = some record.intent := by
  unfold decodeComponentSettlement
  simp only [bind_eq_some, guard_eq_some', exists_const, pure_eq_some]
  constructor
  · rintro ⟨-, _, read, encoded, rfl⟩
    refine ⟨encoded, ?_⟩
    obtain ⟨intent, decoded, binds, encodedOutcome, outcomeEncoded, rfl⟩ :=
      (encodeSettlement_eq_some sha256 _ _ _).mp encoded
    rw [settlementBytes_length sha256 outcomeEncoded,
      readSettlement_settlementBytes sha256 decoded binds outcomeEncoded] at read
    exact decoded.trans
      (congrArg (some ∘ ComponentSettlementRecord.intent) (some_inj.mp read))
  · rintro ⟨encoded, decoded⟩
    obtain ⟨intent, same, binds, encodedOutcome, outcomeEncoded, rfl⟩ :=
      (encodeSettlement_eq_some sha256 _ _ _).mp encoded
    cases decoded.symm.trans same
    have length := settlementBytes_length sha256 outcomeEncoded record.outcome.component
      record.encodedIntent
    refine ⟨⟨?_, ?_⟩, record, ?_, encoded, rfl⟩
    · rw [length]
      exact Nat.le_add_right _ _
    · rw [length]
      exact Nat.add_le_add_left (decodedIntent_length decoded) _
    · rw [length]
      exact readSettlement_settlementBytes sha256 decoded binds outcomeEncoded

/-! ### The two records together -/

/-- An accepted intent can always be settled: every admissible ending has an outcome, the outcome
and its settlement are written within their lengths, and both are read back. -/
theorem settles {intent : ComponentIntentManifest} {encodedIntent : List UInt8}
    {terminal : ComponentTerminalOutcome} {effect : ComponentRollbackEffect}
    (decoded : decodeComponentIntentManifest encodedIntent = some intent)
    (admissible : effectIsValid terminal effect = true) :
    ∃ outcome outcomeBytes settlement,
      ComponentOutcomeRecord.forIntent sha256 encodedIntent terminal effect = some outcome ∧
      outcome.terminal = terminal ∧ outcome.effect = effect ∧
      encodeComponentOutcome sha256 outcome = some outcomeBytes ∧
      outcomeBytes.length = componentOutcomeBytes ∧
      decodeComponentOutcome sha256 outcomeBytes = some outcome ∧
      encodeComponentSettlement sha256 outcome encodedIntent = some settlement ∧
      settlement.length ≤ maxComponentSettlementBytes ∧
      decodeComponentSettlement sha256 settlement = some ⟨outcome, intent, encodedIntent⟩ := by
  obtain ⟨outcome, made, sameTerminal, sameEffect, valid⟩ :=
    forIntent_eq_some sha256 decoded admissible
  have binds := bindsIntent_forIntent sha256 decoded made
  have outcomeEncoded := (encodeOutcome_eq_some sha256 outcome _).mpr ⟨valid, rfl⟩
  have encoded := (encodeSettlement_eq_some sha256 outcome encodedIntent _).mpr
    ⟨intent, decoded, binds, _, outcomeEncoded, rfl⟩
  refine ⟨outcome, _, _, made, sameTerminal, sameEffect, outcomeEncoded,
    encodedOutcome_length sha256 outcomeEncoded, (decodeOutcome_eq_some sha256 _ _).mpr
    outcomeEncoded, encoded, ?_, (decodeSettlement_eq_some sha256 _ _).mpr ⟨encoded, decoded⟩⟩
  rw [settlementBytes_length sha256 outcomeEncoded]
  exact Nat.add_le_add_left (decodedIntent_length decoded) _

theorem decodedSettlement_binds {record : ComponentSettlementRecord}
    (accepted : decodeComponentSettlement sha256 bytes = some record) :
    record.outcome.bindsIntent sha256 record.intent record.encodedIntent = some () := by
  have ⟨encoded, decoded⟩ := (decodeSettlement_eq_some sha256 _ _).mp accepted
  obtain ⟨intent, same, binds, -⟩ := (encodeSettlement_eq_some sha256 _ _ _).mp encoded
  cases decoded.symm.trans same
  exact binds

/-- The outcome and the settlement of a component transaction are canonical formats. -/
theorem componentPublication_canonical :
    (∀ encodedIntent intent terminal effect,
      decodeComponentIntentManifest encodedIntent = some intent →
      effectIsValid terminal effect = true →
      ∃ outcome outcomeBytes settlement,
        ComponentOutcomeRecord.forIntent sha256 encodedIntent terminal effect = some outcome ∧
        outcome.terminal = terminal ∧ outcome.effect = effect ∧
        encodeComponentOutcome sha256 outcome = some outcomeBytes ∧
        outcomeBytes.length = componentOutcomeBytes ∧
        decodeComponentOutcome sha256 outcomeBytes = some outcome ∧
        encodeComponentSettlement sha256 outcome encodedIntent = some settlement ∧
        settlement.length ≤ maxComponentSettlementBytes ∧
        decodeComponentSettlement sha256 settlement = some ⟨outcome, intent, encodedIntent⟩) ∧
    (∀ bytes outcome, decodeComponentOutcome sha256 bytes = some outcome ↔
      encodeComponentOutcome sha256 outcome = some bytes) ∧
    (∀ bytes record, decodeComponentSettlement sha256 bytes = some record ↔
      encodeComponentSettlement sha256 record.outcome record.encodedIntent = some bytes ∧
      decodeComponentIntentManifest record.encodedIntent = some record.intent) ∧
    (∀ bytes record, decodeComponentSettlement sha256 bytes = some record →
      record.outcome.bindsIntent sha256 record.intent record.encodedIntent = some ()) ∧
    (∀ left right outcome, decodeComponentOutcome sha256 left = some outcome →
      decodeComponentOutcome sha256 right = some outcome → left = right) ∧
    (∀ left right record, decodeComponentSettlement sha256 left = some record →
      decodeComponentSettlement sha256 right = some record → left = right) := by
  refine ⟨fun _ _ _ _ => settles sha256, decodeOutcome_eq_some sha256,
    decodeSettlement_eq_some sha256, fun _ _ => decodedSettlement_binds sha256, ?_, ?_⟩
  · intro left right outcome first second
    have firstEncoded := (decodeOutcome_eq_some sha256 _ _).mp first
    exact some_inj.mp
      (firstEncoded.symm.trans ((decodeOutcome_eq_some sha256 _ _).mp second))
  · intro left right record first second
    have firstEncoded := ((decodeSettlement_eq_some sha256 _ _).mp first).1
    exact some_inj.mp
      (firstEncoded.symm.trans ((decodeSettlement_eq_some sha256 _ _).mp second).1)

end

/-- A hash that is the end of what is hashed. -/
def lastBytes (bytes : List UInt8) : Fixed 32 :=
  ⟨(bytes.reverse ++ List.replicate 32 0).take 32, by simp⟩

/-- An intent whose rows fill one shard and begin another. -/
def twoShards : ComponentIntentManifest where
  component := .libraries
  totalRows := 258
  finalBytes := 9000
  priorBytes := 70
  transactionNonce := ⟨List.replicate 16 7, by simp⟩
  logicalRowsSha256 := lastBytes [1]
  projectionSha256 := lastBytes [2]
  shards := [⟨0, 0, 256, 40000, 8000, 70, lastBytes [3]⟩, ⟨1, 256, 2, 300, 1000, 0, lastBytes [4]⟩]

theorem componentPublication_canonical_twoShards :
    ∃ encodedIntent outcome outcomeBytes settlement,
      encodeComponentIntentManifest twoShards = some encodedIntent ∧
      outcome.terminal = .rolledBack ∧ outcomeBytes.length = componentOutcomeBytes ∧
      decodeComponentOutcome lastBytes outcomeBytes = some outcome ∧
      decodeComponentSettlement lastBytes settlement = some ⟨outcome, twoShards, encodedIntent⟩ ∧
      outcome.bindsIntent lastBytes twoShards encodedIntent = some () := by
  have written := (encodeManifest_eq_some twoShards _).mpr ⟨by decide, rfl⟩
  obtain ⟨settles, -, -, binds, -⟩ := componentPublication_canonical lastBytes
  obtain ⟨outcome, outcomeBytes, settlement, -, terminal, -, -, length, outcomes, -, -, settled⟩ :=
    settles _ _ .rolledBack .execution ((decodeManifest_eq_some _ _).mpr written) rfl
  exact ⟨_, outcome, outcomeBytes, settlement, written, terminal, length, outcomes, settled,
    binds settlement _ settled⟩

end Axial.Minecraft
