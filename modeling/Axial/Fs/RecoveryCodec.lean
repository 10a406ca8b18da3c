/-
This file models the payload of a recovery frame and proves the codec of
recovery frames canonical: what `encode_recovery_frame` writes is exactly what
`probe_recovery_frame` accepts.
-/

import Axial.Fs.Recovery

namespace Axial.Fs

open Bytes Reader ControlFrame DoubleSlot List Option

/-! ### Fields -/

/-- `u8::from(bool)`. -/
def bit (value : Bool) : UInt8 := if value then 1 else 0

/-- Two optional fields announced in the two low bits of a byte. -/
def presenceFlags (old new : Bool) : UInt8 := bit old ||| (bit new <<< 1)

theorem presence_of_flags : ∀ flags : UInt8, flags &&& ~~~3 = 0 →
    flags = presenceFlags (decide (flags &&& 1 ≠ 0)) (decide (flags &&& 2 ≠ 0)) := by
  decide +kernel

/-- Flags that announce two fields as they stand are the flags of these fields. -/
theorem flags_eq_presenceFlags {flags : UInt8} {old new : Bool} (canonical : flags &&& ~~~3 = 0)
    (oldFlag : old = true ↔ flags &&& 1 ≠ 0) (newFlag : new = true ↔ flags &&& 2 ≠ 0) :
    flags = presenceFlags old new := by
  have oldBit : decide (flags &&& 1 ≠ 0) = old := by
    rw [Bool.eq_iff_iff, decide_eq_true_iff, oldFlag]
  have newBit : decide (flags &&& 2 ≠ 0) = new := by
    rw [Bool.eq_iff_iff, decide_eq_true_iff, newFlag]
  rw [← oldBit, ← newBit]
  exact presence_of_flags flags canonical

theorem presenceFlags_canonical (old new : Bool) :
    presenceFlags old new &&& ~~~3 = 0 ∧
      (presenceFlags old new &&& 1 ≠ 0 ↔ old = true) ∧
      (presenceFlags old new &&& 2 ≠ 0 ↔ new = true) ∧
      (presenceFlags old new ≠ 0 ↔ (old || new) = true) := by
  revert old new
  decide

def encodeName (name : RecoveryName) : List UInt8 :=
  littleEndian 2 (utf8 name.value).length ++ utf8 name.value

def decodeName (host : Host) : ByteReader RecoveryName := do
  let length ← number 2
  let bytes ← take length
  let value ← lift (fromUtf8 bytes)
  lift (RecoveryName.newExact host value)

def encodeProof (proof : RecoveryFileProof) : List UInt8 :=
  littleEndian 8 proof.size.toNat ++ proof.sha256.val

def decodeProof : ByteReader RecoveryFileProof := do
  let size ← uint64
  let sha256 ← array 32
  pure ⟨size, sha256⟩

theorem newExact_eq_some (host : Host) (value : String) (name : RecoveryName) :
    RecoveryName.newExact host value = some name ↔
      validateName host name.value = true ∧ value = name.value := by
  unfold RecoveryName.newExact
  rw [ite_none_right_eq_some, some_inj]
  constructor
  · rintro ⟨valid, rfl⟩
    exact ⟨valid, rfl⟩
  · rintro ⟨valid, rfl⟩
    exact ⟨valid, rfl⟩

variable {host : Host}

theorem utf8_length_of_validateName {value : String} (valid : validateName host value = true) :
    (utf8 value).length ≤ maxNameBytes := by
  by_contra long
  have tooLong : decide ((utf8 value).length > maxNameBytes) = true :=
    decide_eq_true (Nat.lt_of_not_le long)
  unfold validateName at valid
  rw [tooLong] at valid
  simp at valid

theorem decodeName_exact (host : Host) :
    Exact (decodeName host) encodeName fun name => validateName host name.value = true := by
  intro input name rest
  unfold decodeName
  simp only [number_bind, take_bind, lift_bind, run_lift_eq_some, fromUtf8_eq_some,
    newExact_eq_some, Prod.mk.injEq]
  constructor
  · rintro ⟨length, _, _, rfl, bytes, _, rfl, rfl, value, rfl, _, ⟨valid, rfl⟩, rfl, rfl⟩
    exact ⟨valid, by rw [encodeName, append_assoc]⟩
  · rintro ⟨valid, rfl⟩
    have short := utf8_length_of_validateName valid
    simp only [maxNameBytes] at short
    exact ⟨_, _, by omega, by rw [encodeName, append_assoc], _, _, rfl, rfl, name.value,
      rfl, name, ⟨valid, rfl⟩, rfl, rfl⟩

theorem decodeProof_exact : Exact decodeProof encodeProof fun _ => True := by
  intro input proof rest
  unfold decodeProof
  simp only [uint64_bind, array_bind, run_pure_eq_some, Prod.mk.injEq, true_and]
  constructor
  · rintro ⟨size, _, rfl, sha256, _, rfl, rfl, rfl⟩
    rw [encodeProof, append_assoc]
  · rintro rfl
    exact ⟨_, _, by rw [encodeProof, append_assoc], _, _, rfl, rfl, rfl⟩

/-! ### Records -/

def encodeRecord (record : RecoveryRecord) : List UInt8 :=
  record.operationId.val ++ (record.phase.toByte ::
    presenceFlags record.old.isSome record.new.isSome ::
    UInt8.ofNat record.destinationParent.length :: (List.replicate 5 0 ++
      ((record.destinationParent.flatMap encodeName ++ encodeName record.destinationLeaf) ++
        (record.old.toList.flatMap encodeProof ++ record.new.toList.flatMap encodeProof))))

def readRecord (host : Host) : ByteReader RecoveryRecord := do
  let operationId ← array 16
  let phaseByte ← byte
  let phase ← lift (RecoveryPhase.decode phaseByte)
  let flags ← byte
  require (flags &&& ~~~3 = 0)
  let countByte ← byte
  require (countByte.toNat + 1 ≤ maxComponents)
  zeros 5
  let destinationParent ← many (decodeName host) countByte.toNat
  let destinationLeaf ← decodeName host
  let old ← announced (flags &&& 1 ≠ 0) decodeProof
  let new ← announced (flags &&& 2 ≠ 0) decodeProof
  pure ⟨operationId, phase, destinationParent, destinationLeaf, old, new⟩

def decodeRecord (host : Host) (payload : List UInt8) : Option RecoveryRecord :=
  decode (readRecord host) payload

/-- What a record needs in order to be spelled in a frame: few enough components, with portable
names. -/
def RecoveryRecord.Spellable (host : Host) (record : RecoveryRecord) : Prop :=
  record.destinationParent.length + 1 ≤ maxComponents ∧
    ∀ name ∈ record.destinationParent ++ [record.destinationLeaf],
      validateName host name.value = true

theorem readRecord_exact (host : Host) :
    Exact (readRecord host) encodeRecord (RecoveryRecord.Spellable host) := by
  intro input record rest
  unfold readRecord
  simp only [array_bind, byte_bind, lift_bind, require_bind, zeros_bind,
    ((decodeName_exact host).many _).bind, (decodeName_exact host).bind,
    (decodeProof_exact.announced _).bind, run_pure_eq_some, RecoveryPhase.decode_eq_some]
  constructor
  · rintro ⟨operationId, _, rfl, phaseByte, _, rfl, phase, rfl, flags, _, rfl, canonical,
      countByte, _, rfl, few, _, rfl, parent, _, ⟨length, parentValid⟩, rfl, leaf, _, leafValid,
      rfl, old, _, ⟨oldFlag, _⟩, rfl, new, _, ⟨newFlag, _⟩, rfl, equal⟩
    obtain ⟨rfl, rfl⟩ := Prod.mk.inj equal
    have flagsEq : flags = presenceFlags old.isSome new.isSome :=
      flags_eq_presenceFlags canonical oldFlag newFlag
    have count : countByte = UInt8.ofNat parent.length := by
      rw [length, UInt8.ofNat_toNat]
    refine ⟨⟨by rw [length]; exact few, ?_⟩, ?_⟩
    · intro name member
      rcases mem_append.mp member with inParent | isLeaf
      · exact parentValid name inParent
      · rw [mem_singleton.mp isLeaf]
        exact leafValid
    · simp only [encodeRecord, flagsEq, count, append_assoc, cons_append]
  · rintro ⟨⟨few, names⟩, rfl⟩
    obtain ⟨canonical, oldFlag, newFlag, _⟩ :=
      presenceFlags_canonical record.old.isSome record.new.isSome
    have count : (UInt8.ofNat record.destinationParent.length).toNat =
        record.destinationParent.length := by
      simp only [maxComponents] at few
      rw [UInt8.toNat_ofNat']
      omega
    have parentValid : ∀ name ∈ record.destinationParent,
        validateName host name.value = true :=
      fun name member => names name (mem_append_left _ member)
    have leafValid : validateName host record.destinationLeaf.value = true :=
      names _ (mem_append_right _ mem_cons_self)
    refine ⟨record.operationId, _, by simp only [encodeRecord, append_assoc,
      cons_append], record.phase.toByte, _, rfl, record.phase, rfl, _, _, rfl, canonical,
      _, _, rfl, by rw [count]; exact few, _, rfl, record.destinationParent, _,
      ⟨count.symm, parentValid⟩, rfl, record.destinationLeaf, _, leafValid, rfl, record.old, _,
      ⟨oldFlag.symm, fun _ _ => trivial⟩, rfl, record.new, _, ⟨newFlag.symm, fun _ _ => trivial⟩, rfl,
      rfl⟩

theorem decodeRecord_eq_some (host : Host) (payload : List UInt8) (record : RecoveryRecord) :
    decodeRecord host payload = some record ↔
      record.Spellable host ∧ payload = encodeRecord record :=
  (readRecord_exact host).decode_eq_some payload record

variable {record : RecoveryRecord}

theorem spellable_of_validate (valid : record.validate host = true) : record.Spellable host :=
  have parts := of_decide_eq_true valid
  ⟨parts.2.1, parts.2.2.1⟩

theorem encodeName_length_le {name : RecoveryName} (valid : validateName host name.value = true) :
    (encodeName name).length ≤ 257 := by
  have short := utf8_length_of_validateName valid
  simp only [maxNameBytes] at short
  rw [encodeName, length_append, littleEndian_length]
  omega

theorem encodeProof_length (proof : RecoveryFileProof) : (encodeProof proof).length = 40 := by
  rw [encodeProof, length_append, littleEndian_length, Fixed.length_val]

theorem flatMap_length_le {Value : Type} {write : Value → List UInt8} {bound : Nat}
    (values : List Value) (short : ∀ value ∈ values, (write value).length ≤ bound) :
    (values.flatMap write).length ≤ values.length * bound := by
  induction values with
  | nil => exact Nat.zero_le _
  | cons value values ih =>
    have head := short value mem_cons_self
    have tail := ih fun other member =>
      short other (mem_cons_of_mem _ member)
    rw [flatMap_cons, length_append, length_cons, Nat.succ_mul]
    omega

/-- The bound the source asserts for the longest payload (`MAX_RECORD_PAYLOAD_BYTES`). -/
theorem encodeRecord_length_le (spellable : record.Spellable host) :
    (encodeRecord record).length ≤ 24 + maxComponents * (2 + maxNameBytes) + 2 * 40 := by
  obtain ⟨few, names⟩ := spellable
  have parent : (record.destinationParent.flatMap encodeName).length ≤
      record.destinationParent.length * 257 :=
    flatMap_length_le _ fun name member =>
      encodeName_length_le (names name (mem_append_left _ member))
  have leaf := encodeName_length_le (names record.destinationLeaf
    (mem_append_right _ mem_cons_self))
  have old := flatMap_length_le record.old.toList fun proof _ => (encodeProof_length proof).le
  have new := flatMap_length_le record.new.toList fun proof _ => (encodeProof_length proof).le
  have oldCount := @Option.length_toList_le _ record.old
  have newCount := @Option.length_toList_le _ record.new
  simp only [encodeRecord, length_append, length_cons, Fixed.length_val,
    length_replicate, maxComponents, maxNameBytes] at *
  omega

/-! ### Frames -/

/-- The frame that may stand alone in a slot whose other side was never used. -/
def isFirstRecoveryFrame (frame : RecoveryFrame) : Bool :=
  frame.generation = 1 &&
    frame.record.any fun record => record.phase = .stagePrepared

def recoveryFormat (host : Host) : Format RecoveryRecord where
  domain := .recovery
  encodeRecord := encodeRecord
  decodeRecord := decodeRecord host
  validate := validateRecoveryFrame host
  first := isFirstRecoveryFrame
  advance := validateRecoveryAdvance host
  validate_generation := by
    intro frame valid
    exact of_decide_eq_true (Bool.and_eq_true_iff.mp valid).1
  decode_sound := by
    intro payload record decoded
    exact ((decodeRecord_eq_some host payload record).mp decoded).2
  decode_complete := by
    intro generation record valid
    have recordValid : record.validate host = true := (Bool.and_eq_true_iff.mp valid).2
    exact (decodeRecord_eq_some host _ _).mpr ⟨spellable_of_validate recordValid, rfl⟩
  fits := by
    intro generation record valid
    have recordValid : record.validate host = true := (Bool.and_eq_true_iff.mp valid).2
    have bounded := encodeRecord_length_le (spellable_of_validate recordValid)
    simp only [maxComponents, maxNameBytes] at bounded
    simp only [headerBytes, bodyBytes, frameBytes]
    omega
  advance_validate := by
    intro previous next advances
    exact ((validateRecoveryAdvance_iff host previous next).mp advances).1
  advance_generation := by
    intro previous next advances
    have step := ((validateRecoveryAdvance_iff host _ next).mp advances).2.1
    exact ((nextGeneration_eq_some _ _).mp step).2
  advance_first := by
    intro next advances
    obtain ⟨_, step, live⟩ := (validateRecoveryAdvance_iff host none next).mp advances
    have generation : next.generation = 1 := (nextGeneration_eq_some none _).mp step
    unfold isFirstRecoveryFrame
    rw [generation]
    cases held : next.record with
    | none => rw [held] at live; cases live
    | some record => rw [held] at live; exact live
  first_generation := by
    intro frame isFirst
    exact of_decide_eq_true (Bool.and_eq_true_iff.mp isFirst).1

def encodeRecoveryFrame (host : Host) (frame : RecoveryFrame) (address : Address) :
    Option (List UInt8) :=
  encodeFrame (recoveryFormat host) host frame address

abbrev SelectedRecoveryFrame := Selected RecoveryRecord

abbrev RecoveryProbe := DoubleSlot.Probe SelectedRecoveryFrame

def probeRecoveryFrame (host : Host) (encoded : List UInt8) (slot : Fin 64) (side : Fin 2) :
    Option RecoveryProbe :=
  probeFrame (recoveryFormat host) host encoded slot side

end Axial.Fs
