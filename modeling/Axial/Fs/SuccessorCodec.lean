/-
This file models the payload of a successor frame and proves the codec of
successor frames canonical, as `RecoveryCodec` does for recovery frames.
-/

import Axial.Fs.RecoveryCodec
import Axial.Fs.Successor

namespace Axial.Fs

open Bytes Reader ControlFrame DoubleSlot List

/-! ### Acknowledgements -/

def encodeAcknowledgement (acknowledgement : SuccessorAcknowledgement) : List UInt8 :=
  UInt8.ofNat acknowledgement.recoverySlot.val :: UInt8.ofNat acknowledgement.recoverySide.val ::
    (List.replicate 6 0 ++ (littleEndian 8 acknowledgement.recoveryGeneration.toNat ++
      (acknowledgement.operationId.val ++ acknowledgement.frameSha256.val)))

/-- An index below a bound, from its byte. -/
def indexOfByte (count : Nat) (byte : UInt8) : Option (Fin count) :=
  if inside : byte.toNat < count then some ⟨byte.toNat, inside⟩ else none

theorem indexOfByte_eq_some {count : Nat} (small : count ≤ 256) (byte : UInt8)
    (index : Fin count) :
    indexOfByte count byte = some index ↔ byte = UInt8.ofNat index.val := by
  unfold indexOfByte
  constructor
  · intro found
    split at found
    · rw [← Option.some_inj.mp found, UInt8.ofNat_toNat]
    · cases found
  · rintro rfl
    have bound := index.isLt
    have value : (UInt8.ofNat index.val).toNat = index.val := by
      rw [UInt8.toNat_ofNat']
      omega
    rw [dif_pos (by omega)]
    simp only [value]

def readAcknowledgement : ByteReader SuccessorAcknowledgement := do
  let slotByte ← byte
  let sideByte ← byte
  zeros 6
  let recoveryGeneration ← uint64
  let operationId ← array 16
  let frameSha256 ← array 32
  -- The source leaves these two bounds to the validation of the whole record.
  let recoverySlot ← lift (indexOfByte 64 slotByte)
  let recoverySide ← lift (indexOfByte 2 sideByte)
  pure ⟨recoverySlot, recoverySide, recoveryGeneration, operationId, frameSha256⟩

theorem readAcknowledgement_exact :
    Exact readAcknowledgement encodeAcknowledgement fun _ => True := by
  intro input acknowledgement rest
  unfold readAcknowledgement
  simp only [byte_bind, zeros_bind, uint64_bind, array_bind, lift_bind, run_pure_eq_some,
    indexOfByte_eq_some (by decide : 64 ≤ 256), indexOfByte_eq_some (by decide : 2 ≤ 256),
    true_and]
  constructor
  · rintro ⟨slotByte, _, rfl, sideByte, _, rfl, _, rfl, generation, _, rfl, operationId, _, rfl,
      frameSha256, _, rfl, slot, rfl, side, rfl, equal⟩
    obtain ⟨rfl, rfl⟩ := Prod.mk.inj equal
    simp only [encodeAcknowledgement, append_assoc, cons_append]
  · rintro rfl
    exact ⟨_, _, by simp only [encodeAcknowledgement, append_assoc, cons_append], _, _,
      rfl, _, rfl, _, _, rfl, _, _, rfl, _, _, rfl, _, rfl, _, rfl, rfl⟩

theorem encodeAcknowledgement_length (acknowledgement : SuccessorAcknowledgement) :
    (encodeAcknowledgement acknowledgement).length = acknowledgementBytes := by
  simp only [encodeAcknowledgement, length_cons, length_append, length_replicate,
    littleEndian_length, Fixed.length_val]

/-! ### Records -/

/-- A payload of announced length; a missing one announces no bytes. -/
def readPayload (present : Prop) [Decidable present] (length : Nat) :
    ByteReader (Option (List UInt8)) :=
  if present then do
    let payload ← take length
    pure (some payload)
  else do
    require (length = 0)
    pure none

theorem readPayload_bind {Next : Type} (present : Prop) [Decidable present] (length : Nat)
    (next : Option (List UInt8) → ByteReader Next) (input : List UInt8)
    (result : Next × List UInt8) :
    (readPayload present length >>= next).run input = some result ↔
      ∃ payload rest, (payload.isSome = true ↔ present) ∧ payloadLength payload = length ∧
        input = payload.getD [] ++ rest ∧ (next payload).run rest = some result := by
  unfold readPayload
  split
  · rename_i holds
    simp only [bind_assoc, take_bind, pure_bind, holds, iff_true]
    constructor
    · rintro ⟨payload, rest, rfl, rfl, later⟩
      exact ⟨some payload, rest, rfl, rfl, rfl, later⟩
    · rintro ⟨payload, rest, isSome, rfl, rfl, later⟩
      obtain ⟨found, rfl⟩ := Option.isSome_iff_exists.mp isSome
      exact ⟨found, rest, rfl, rfl, later⟩
  · rename_i fails
    simp only [bind_assoc, require_bind, pure_bind, fails, iff_false, Bool.not_eq_true,
      Option.isSome_eq_false_iff, Option.isNone_iff_eq_none]
    constructor
    · rintro ⟨rfl, later⟩
      exact ⟨none, input, rfl, rfl, rfl, later⟩
    · rintro ⟨payload, rest, rfl, rfl, rfl, later⟩
      exact ⟨rfl, later⟩

def encodeSuccessorRecord (record : SuccessorRecord) : List UInt8 :=
  record.ownerClass.toByte ::
    presenceFlags record.oldPayload.isSome record.newPayload.isSome ::
    (littleEndian 2 record.ownerSchema.toNat ++ (littleEndian 2 record.ownerId.length ++
      (UInt8.ofNat record.acknowledgements.length :: (List.replicate 1 0 ++
        (record.transferId.val ++ (littleEndian 4 (payloadLength record.oldPayload) ++
          (littleEndian 4 (payloadLength record.newPayload) ++ (List.replicate 16 0 ++
            (record.ownerId ++ (record.acknowledgements.flatMap encodeAcknowledgement ++
              (record.oldPayload.getD [] ++ record.newPayload.getD [])))))))))))

def readSuccessorRecord : ByteReader SuccessorRecord := do
  let classByte ← byte
  let ownerClass ← lift (SuccessorOwnerClass.decode classByte)
  let flags ← byte
  require (flags &&& ~~~3 = 0 ∧ flags ≠ 0)
  let ownerSchema ← uint16
  let ownerLength ← number 2
  let acknowledgementCount ← byte
  zeros 1
  let transferId ← array 16
  let oldLength ← number 4
  let newLength ← number 4
  zeros 16
  let ownerId ← take ownerLength
  let acknowledgements ← many readAcknowledgement acknowledgementCount.toNat
  let oldPayload ← readPayload (flags &&& 1 ≠ 0) oldLength
  let newPayload ← readPayload (flags &&& 2 ≠ 0) newLength
  pure ⟨ownerClass, ownerSchema, ownerId, transferId, oldPayload, newPayload, acknowledgements⟩

def decodeSuccessorRecord (payload : List UInt8) : Option SuccessorRecord := do
  let record ← decode readSuccessorRecord payload
  if record.validate then some record else none

/-- The lengths a successor record's own fields can spell. -/
def SuccessorRecord.Spellable (record : SuccessorRecord) : Prop :=
  (record.oldPayload.isSome || record.newPayload.isSome) = true ∧
    record.ownerId.length < 256 ^ 2 ∧ record.acknowledgements.length < 256 ∧
    payloadLength record.oldPayload < 256 ^ 4 ∧ payloadLength record.newPayload < 256 ^ 4

theorem readSuccessorRecord_exact :
    Exact readSuccessorRecord encodeSuccessorRecord SuccessorRecord.Spellable := by
  intro input record rest
  unfold readSuccessorRecord
  simp only [byte_bind, lift_bind, require_bind, uint16_bind, number_bind, zeros_bind,
    array_bind, take_bind, (readAcknowledgement_exact.many _).bind, readPayload_bind,
    run_pure_eq_some, SuccessorOwnerClass.decode_eq_some]
  constructor
  · rintro ⟨classByte, _, rfl, ownerClass, rfl, flags, _, rfl, ⟨canonical, nonzero⟩, schema, _,
      rfl, ownerLength, _, ownerSmall, rfl, countByte, _, rfl, _, rfl, transferId, _, rfl,
      oldLength, _, oldSmall, rfl, newLength, _, newSmall, rfl, _, rfl, ownerId, _, rfl, rfl,
      acknowledgements, _, ⟨length, _⟩, rfl, old, _, oldFlag, rfl, rfl, new, _, newFlag, rfl,
      rfl, equal⟩
    obtain ⟨rfl, rfl⟩ := Prod.mk.inj equal
    have flagsEq : flags = presenceFlags old.isSome new.isSome :=
      flags_eq_presenceFlags canonical oldFlag newFlag
    have count : countByte = UInt8.ofNat acknowledgements.length := by
      rw [length, UInt8.ofNat_toNat]
    refine ⟨⟨?_, ownerSmall, by rw [length]; exact countByte.toNat_lt, oldSmall, newSmall⟩, ?_⟩
    · rw [flagsEq] at nonzero
      exact (presenceFlags_canonical old.isSome new.isSome).2.2.2.mp nonzero
    · simp only [encodeSuccessorRecord, flagsEq, count, append_assoc, cons_append]
  · rintro ⟨⟨present, ownerSmall, few, oldSmall, newSmall⟩, rfl⟩
    obtain ⟨canonical, oldFlag, newFlag, nonzero⟩ :=
      presenceFlags_canonical record.oldPayload.isSome record.newPayload.isSome
    have count : (UInt8.ofNat record.acknowledgements.length).toNat =
        record.acknowledgements.length := by
      rw [UInt8.toNat_ofNat']
      omega
    exact ⟨_, _, by simp only [encodeSuccessorRecord, append_assoc, cons_append],
      record.ownerClass, rfl, _, _, rfl, ⟨canonical, nonzero.mpr present⟩, _, _, rfl, _, _,
      ownerSmall, rfl, _, _, rfl, _, rfl, _, _, rfl, _, _, oldSmall, rfl, _, _, newSmall, rfl, _,
      rfl, _, _, rfl, rfl, _, _, ⟨count.symm, fun _ _ => trivial⟩, rfl, record.oldPayload, _,
      oldFlag.symm, rfl, rfl, record.newPayload, _, newFlag.symm, rfl, rfl, rfl⟩

theorem spellable_of_validate_successor {record : SuccessorRecord}
    (valid : record.validate = true) : record.Spellable := by
  obtain ⟨_, _, owner, _, present, _, few, payloads, _⟩ := of_decide_eq_true valid
  simp only [maxOwnerIdBytes, maxAcknowledgements, maxDomainPayloadBytes, bodyBytes, frameBytes,
    headerBytes, recordHeaderBytes, acknowledgementBytes] at owner few payloads
  exact ⟨Bool.or_eq_true_iff.mpr present, by omega, by omega, by omega, by omega⟩

theorem decodeSuccessorRecord_eq_some (payload : List UInt8) (record : SuccessorRecord) :
    decodeSuccessorRecord payload = some record ↔
      record.validate = true ∧ payload = encodeSuccessorRecord record := by
  unfold decodeSuccessorRecord
  rw [Option.bind_eq_bind, Option.bind_eq_some_iff]
  simp only [Option.ite_none_right_eq_some, Option.some_inj]
  constructor
  · rintro ⟨found, decoded, valid, rfl⟩
    exact ⟨valid, ((readSuccessorRecord_exact.decode_eq_some _ _).mp decoded).2⟩
  · rintro ⟨valid, rfl⟩
    exact ⟨record, (readSuccessorRecord_exact.decode_eq_some _ _).mpr
      ⟨spellable_of_validate_successor valid, rfl⟩, valid, rfl⟩

theorem getD_nil_length (payload : Option (List UInt8)) :
    (payload.getD []).length = payloadLength payload := by
  cases payload <;> rfl

theorem encodeSuccessorRecord_length (record : SuccessorRecord) :
    (encodeSuccessorRecord record).length = recordHeaderBytes + record.ownerId.length +
      record.acknowledgements.length * acknowledgementBytes +
      payloadLength record.oldPayload + payloadLength record.newPayload := by
  have acknowledgements : (record.acknowledgements.flatMap encodeAcknowledgement).length =
      record.acknowledgements.length * acknowledgementBytes := by
    rw [length_flatMap, map_congr_left fun acknowledgement _ =>
      encodeAcknowledgement_length acknowledgement, map_const', sum_replicate,
      smul_eq_mul]
  simp only [encodeSuccessorRecord, length_cons, length_append, littleEndian_length,
    Fixed.length_val, length_replicate, acknowledgements, getD_nil_length,
    recordHeaderBytes]
  omega

/-! ### Frames -/

/-- The frame that may stand alone in a slot whose other side was never used. -/
def isFirstSuccessorFrame (frame : SuccessorFrame) : Bool :=
  frame.generation = 1 && frame.record.isSome

def successorFormat : Format SuccessorRecord where
  domain := .successor
  encodeRecord := encodeSuccessorRecord
  decodeRecord := decodeSuccessorRecord
  validate := validateSuccessorFrame
  first := isFirstSuccessorFrame
  advance := validateSuccessorAdvance
  validate_generation := by
    intro frame valid zero
    have positive := ((validateSuccessorFrame_iff frame).mp valid).1.1
    rw [zero] at positive
    exact absurd positive (by decide)
  decode_sound := by
    intro payload record decoded
    exact ((decodeSuccessorRecord_eq_some payload record).mp decoded).2
  decode_complete := by
    intro generation record valid
    exact (decodeSuccessorRecord_eq_some _ _).mpr
      ⟨((validateSuccessorFrame_iff _).mp valid).2.2 record rfl, rfl⟩
  fits := by
    intro generation record valid
    have recordValid := ((validateSuccessorFrame_iff _).mp valid).2.2 record rfl
    have bounded := (of_decide_eq_true recordValid).2.2.2.2.2.2.2.2.2.2.2
    rw [encodeSuccessorRecord_length]
    omega
  advance_validate := by
    intro previous next advances
    exact ((validateSuccessorAdvance_iff previous next).mp advances).1
  advance_generation := by
    intro previous next advances
    have step := ((validateSuccessorAdvance_iff _ next).mp advances).2.1
    exact ((nextGeneration_eq_some _ _).mp step).2
  advance_first := by
    intro next advances
    obtain ⟨_, step, live⟩ := (validateSuccessorAdvance_iff none next).mp advances
    have generation : next.generation = 1 := (nextGeneration_eq_some none _).mp step
    have occupied : next.record.isSome = true := by
      cases held : next.record with
      | none => rw [held] at live; exact absurd rfl live
      | some record => rfl
    unfold isFirstSuccessorFrame
    rw [generation, occupied]
    rfl
  first_generation := by
    intro frame isFirst
    exact of_decide_eq_true (Bool.and_eq_true_iff.mp isFirst).1

def encodeSuccessorFrame (host : Host) (frame : SuccessorFrame) (laneNonce : Nonce)
    (slot : Fin 64) : Option (List UInt8) :=
  encodeFrame successorFormat host frame ⟨laneNonce, slot, generationSide frame.generation⟩

abbrev SuccessorProbe := DoubleSlot.Probe SelectedSuccessorFrame

/-- `probe_frame` of `successor.rs`. -/
def probeSuccessorFrame (host : Host) (encoded : List UInt8) (slot : Fin 64) (side : Fin 2) :
    Option SuccessorProbe :=
  probeFrame successorFormat host encoded slot side

/-! ### Both domains -/

/-- The frame codec is a canonical bijection in both domains. Valid frames have an encoding at
every address of their side, it probes as the frame itself, and whatever probes as valid is 16
KiB long, re-encodes to the same bytes, and is valid neither at another address nor in the
other domain. -/
theorem frameCodecs_canonical (host : Host) :
    (∀ frame address, validateRecoveryFrame host frame = true →
      address.side = generationSide frame.generation →
      ∃ bytes, encodeRecoveryFrame host frame address = some bytes) ∧
    (∀ frame address bytes, encodeRecoveryFrame host frame address = some bytes →
      probeRecoveryFrame host bytes address.slot address.side =
        some (.valid ⟨address.lane, frame⟩)) ∧
    (∀ bytes slot side selected,
      probeRecoveryFrame host bytes slot side = some (.valid selected) →
      bytes.length = frameBytes ∧
      encodeRecoveryFrame host selected.frame ⟨selected.laneNonce, slot, side⟩ = some bytes ∧
      (∀ otherSlot otherSide found,
        probeRecoveryFrame host bytes otherSlot otherSide = some (.valid found) →
        otherSlot = slot ∧ otherSide = side) ∧
      ∀ otherSlot otherSide found,
        probeSuccessorFrame host bytes otherSlot otherSide ≠ some (.valid found)) ∧
    (∀ frame laneNonce slot, validateSuccessorFrame frame = true →
      ∃ bytes, encodeSuccessorFrame host frame laneNonce slot = some bytes) ∧
    (∀ frame laneNonce slot bytes, encodeSuccessorFrame host frame laneNonce slot = some bytes →
      probeSuccessorFrame host bytes slot (generationSide frame.generation) =
        some (.valid ⟨laneNonce, frame⟩)) ∧
    ∀ bytes slot side selected,
      probeSuccessorFrame host bytes slot side = some (.valid selected) →
      bytes.length = frameBytes ∧ side = generationSide selected.frame.generation ∧
      encodeSuccessorFrame host selected.frame selected.laneNonce slot = some bytes ∧
      ∀ otherSlot otherSide found,
        probeSuccessorFrame host bytes otherSlot otherSide = some (.valid found) →
        otherSlot = slot ∧ otherSide = side := by
  refine ⟨?_, ?_, ?_, ?_, ?_, ?_⟩
  · intro frame address valid sided
    exact encodeFrame_isSome (recoveryFormat host) host frame address valid sided
  · intro frame address bytes encoded
    exact (probeFrame_eq_valid ..).mpr encoded
  · intro bytes slot side selected probed
    have encoded := (probeFrame_eq_valid ..).mp probed
    refine ⟨(encodeFrame_eq_some encoded).2.2.1, encoded, ?_, ?_⟩
    · intro otherSlot otherSide found elsewhere
      exact (encodeFrame_determines ((probeFrame_eq_valid ..).mp elsewhere) encoded).2
    · intro otherSlot otherSide found elsewhere
      have same := (encodeFrame_determines ((probeFrame_eq_valid ..).mp elsewhere) encoded).1
      exact absurd (show Domain.successor = Domain.recovery from same) (by decide)
  · intro frame laneNonce slot valid
    exact encodeFrame_isSome successorFormat host frame _ valid rfl
  · intro frame laneNonce slot bytes encoded
    exact (probeFrame_eq_valid ..).mpr encoded
  · intro bytes slot side selected probed
    have encoded := (probeFrame_eq_valid ..).mp probed
    obtain ⟨_, sided, length, _⟩ := encodeFrame_eq_some encoded
    refine ⟨length, sided, ?_, ?_⟩
    · rw [encodeSuccessorFrame, ← sided]
      exact encoded
    · intro otherSlot otherSide found elsewhere
      exact (encodeFrame_determines ((probeFrame_eq_valid ..).mp elsewhere) encoded).2

end Axial.Fs
