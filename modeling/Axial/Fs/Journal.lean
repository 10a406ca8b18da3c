/-
This file models the `RecoveryJournal` of `recovery.rs`: its state, the operations
that prepare a write, the acceptance of a written frame, and `decode_control`,
which rebuilds a journal from the bytes of the control file.
-/

import Axial.Fs.SuccessorCodec

namespace Axial.Fs

open Bytes Reader ControlFrame DoubleSlot

/-! ### State -/

/-- A frame that is physically present, with the digest of its 16 KiB. -/
structure RecoveryFrameReceipt where
  frame : RecoveryFrame
  digest : Fixed 32
  deriving DecidableEq

structure RecoveryRegistration where
  slot : Fin 64
  operationId : Fixed 16
  deriving DecidableEq

/-- The one frame write that may be in flight. -/
inductive PendingWrite where
  | recovery (registration : RecoveryRegistration) (intended : RecoveryFrame) (offset : Nat)
      (encoded : List UInt8)
  | successor (slot : Fin 64) (intended : SuccessorFrame) (offset : Nat)
      (encoded : List UInt8)

structure SuccessorOwnerKey where
  slot : Fin 64
  generation : UInt64
  transferId : Fixed 16

structure RecoveryJournal where
  laneNonce : Nonce
  slots : Fin 64 → Option RecoveryFrame
  physical : Fin 64 → Fin 2 → Option RecoveryFrameReceipt
  successors : Fin 64 → Option SelectedSuccessorFrame
  pending : Option PendingWrite
  checkedOut : Bool

/-- The record a slot is occupied by, as `records` lists them. -/
def RecoveryJournal.liveRecord (journal : RecoveryJournal) (slot : Fin 64) :
    Option RecoveryRecord :=
  Fs.liveRecord (journal.slots slot)

/-! ### Checks before a write -/

/-- What a pin says to a recovery write: only the tombstone of the pinned frame may pass, and
only on the other side. -/
def pinAllows (pin : Fin 2) (previous : Option RecoveryFrame) (frame : RecoveryFrame) : Bool :=
  let writeSide := generationSide frame.generation
  let selectedSide := (previous.map fun found => generationSide found.generation).getD
    (other writeSide)
  frame.record.isNone && pin = selectedSide && pin ≠ writeSide

def validateRecoveryTransition (host : Host) (journal : RecoveryJournal)
    (registration : RecoveryRegistration) (frame : RecoveryFrame) : Bool :=
  let previous := journal.slots registration.slot
  let previousRecord := previous.bind Frame.record
  registration.operationId ≠ Fixed.zero 16 &&
  previousRecord.all (fun record => record.operationId = registration.operationId) &&
  (frame.record.isSome || previousRecord.isSome) &&
  frame.record.all (fun record => record.operationId = registration.operationId) &&
  validateRecoveryAdvance host previous frame &&
  validateLaneSlots host journal.slots (some (registration.slot, frame)) &&
  match recoveryPinSide journal.laneNonce journal.successors registration.slot with
  | none => false
  | some none => true
  | some (some pin) => pinAllows pin previous frame

def validateSuccessorTransition (journal : RecoveryJournal) (slot : Fin 64)
    (frame : SuccessorFrame) : Bool :=
  validateSuccessorAdvance ((journal.successors slot).map Selected.frame) frame &&
  validateSuccessorLane journal.laneNonce journal.successors (some (slot, frame))

def validateCandidate (host : Host) (journal : RecoveryJournal)
    (registration : RecoveryRegistration) (frame : RecoveryFrame) : Bool :=
  !journal.checkedOut && journal.pending.isNone &&
    validateRecoveryTransition host journal registration frame

def validatePending (host : Host) (journal : RecoveryJournal) : Bool :=
  match journal.pending with
  | none => false
  | some (.recovery registration intended _ _) =>
    validateRecoveryTransition host journal registration intended
  | some (.successor slot intended _ _) => validateSuccessorTransition journal slot intended

/-! ### Preparing a write -/

/-- The part of `write` before any I/O: `create_reserved` and `advance` pass a record, `clear`
passes `none`. -/
def prepareWrite (host : Host) (journal : RecoveryJournal)
    (registration : RecoveryRegistration) (record : Option RecoveryRecord) :
    Option PendingWrite := do
  let generation ← nextRecoveryGeneration
    ((journal.slots registration.slot).map Frame.generation)
  let frame : RecoveryFrame := ⟨generation, record⟩
  if validateCandidate host journal registration frame then
    let side := generationSide generation
    let encoded ← encodeRecoveryFrame host frame ⟨journal.laneNonce, registration.slot, side⟩
    some (.recovery registration frame (offset .recovery registration.slot side) encoded)
  else
    none

/-- Find a slot for a new record and check that it could be created there. -/
def reserve (host : Host) (journal : RecoveryJournal) (record : RecoveryRecord) :
    Option RecoveryRegistration := do
  if journal.checkedOut then none else
  let slot ← (List.finRange 64).find? fun slot =>
    recoverySlotReusable (journal.slots slot) &&
      recoveryPinSide journal.laneNonce journal.successors slot = some none
  let registration : RecoveryRegistration := ⟨slot, record.operationId⟩
  let generation ← nextRecoveryGeneration ((journal.slots slot).map Frame.generation)
  if validateCandidate host journal registration ⟨generation, some record⟩ then
    some registration
  else
    none

def successorPending (host : Host) (journal : RecoveryJournal) (slot : Fin 64)
    (frame : SuccessorFrame) : Option PendingWrite := do
  if validateSuccessorTransition journal slot frame then
    let encoded ← encodeSuccessorFrame host frame journal.laneNonce slot
    some (.successor slot frame (offset .successor slot (generationSide frame.generation))
      encoded)
  else
    none

/-- The acknowledgement of the frame a registration names. -/
def acknowledge (journal : RecoveryJournal) (registration : RecoveryRegistration) :
    Option SuccessorAcknowledgement := do
  let frame ← journal.slots registration.slot
  let side := generationSide frame.generation
  let receipt ← journal.physical registration.slot side
  if frame.record.map RecoveryRecord.operationId = some registration.operationId ∧
      receipt.frame.generation = frame.generation ∧
      receipt.frame.record.map RecoveryRecord.operationId = some registration.operationId then
    some ⟨registration.slot, side, receipt.frame.generation, registration.operationId,
      receipt.digest⟩
  else
    none

abbrev RegisteredRecovery := RecoveryRegistration × RecoveryRecord

/-- The entries of a state manifest, one for each acknowledgement. `virtual` is the lane as it
would be with the recoveries seen so far committed. -/
def readManifest (host : Host) (journal : RecoveryJournal) :
    Option (Fixed 16) → List SuccessorAcknowledgement → (Fin 64 → Option RecoveryFrame) →
      ByteReader ((Fin 64 → Option RecoveryFrame) × List RegisteredRecovery)
  | _, [], virtual => pure (virtual, [])
  | previous, acknowledgement :: rest, virtual => do
    let operation ← array 16
    require (acknowledgement.operationId = operation ∧
      ∀ prior ∈ previous, prior.val < operation.val)
    let receipt ← lift (journal.physical acknowledgement.recoverySlot
      acknowledgement.recoverySide)
    let recovery ← lift receipt.frame.record
    require (receipt.frame.generation = acknowledgement.recoveryGeneration ∧
      receipt.digest = acknowledgement.frameSha256 ∧ recovery.operationId = operation ∧
      recovery.phase = .stagePrepared ∧ recovery.new = none)
    let new ← decodeProof
    let desired := { recovery with phase := .removeCommitted, new := some new }
    require (desired.validate host = true)
    let (virtual, recoveries) ← readManifest host journal (some operation) rest
      (Function.update virtual acknowledgement.recoverySlot
        (some ⟨receipt.frame.generation, some desired⟩))
    pure (virtual, (⟨acknowledgement.recoverySlot, operation⟩, desired) :: recoveries)

/-- The recoveries a successor of class `State` would commit. -/
def stateRecoveries (host : Host) (journal : RecoveryJournal) (record : SuccessorRecord) :
    Option (List RegisteredRecovery) := do
  let manifest ← record.newPayload
  let reader : ByteReader ((Fin 64 → Option RecoveryFrame) × List RegisteredRecovery) := do
    let header ← array 3
    require (record.oldPayload = none ∧
      header.val.take 2 = littleEndian 2 record.ownerSchema.toNat ∧
      (header.val[2]?).map UInt8.toNat = some record.acknowledgements.length ∧
      ∀ slot, (journal.liveRecord slot).isSome = true →
        ∃ acknowledgement ∈ record.acknowledgements, acknowledgement.recoverySlot = slot)
    readManifest host journal none record.acknowledgements journal.slots
  let (virtual, recoveries) ← decode reader manifest
  if validateLaneSlots host virtual none then some recoveries else none

/-- The part of `create_successor` before any I/O. `transfer` is the random identifier drawn
for the transfer; it and the acknowledgements replace what the caller's record says. -/
def prepareSuccessor (host : Host) (journal : RecoveryJournal) (record : SuccessorRecord)
    (registrations : List RecoveryRegistration) (transfer : Nonce) : Option PendingWrite := do
  if journal.checkedOut ∨ journal.pending.isSome then none else
  let acknowledgements ← registrations.mapM (acknowledge journal)
  let slot ← (List.finRange 64).find? fun slot =>
    (liveSuccessor (journal.successors slot)).isNone
  let generation ← nextSuccessorGeneration
    ((journal.successors slot).map fun selected => selected.frame.generation)
  let record := { record with
    transferId := transfer.val
    acknowledgements := acknowledgements }
  if record.ownerClass = .state ∧ stateRecoveries host journal record = none then none else
  successorPending host journal slot ⟨generation, some record⟩

def selectedLiveSuccessor (journal : RecoveryJournal) (key : SuccessorOwnerKey) :
    Option SuccessorRecord := do
  let selected ← journal.successors key.slot
  let record ← selected.frame.record
  if selected.frame.generation = key.generation ∧ record.transferId = key.transferId then
    some record
  else
    none

/-- The recoveries of an acknowledgement are done: its frame has been tombstoned. -/
def acknowledgementReady (journal : RecoveryJournal)
    (acknowledgement : SuccessorAcknowledgement) : Bool :=
  (journal.slots acknowledgement.recoverySlot).any fun frame =>
    frame.generation = acknowledgement.recoveryGeneration + 1 && frame.record.isNone

/-- The part of `tombstone_successor` after reconciliation and before any I/O. -/
def prepareTombstone (host : Host) (journal : RecoveryJournal) (key : SuccessorOwnerKey) :
    Option PendingWrite := do
  if journal.checkedOut ∨ journal.pending.isSome then none else
  let record ← selectedLiveSuccessor journal key
  if ∀ acknowledgement ∈ record.acknowledgements,
      acknowledgementReady journal acknowledgement = true then
    successorPending host journal key.slot ⟨key.generation + 1, none⟩
  else
    none

/-! ### Accepting a write -/

/-- `accept_pending`: the written frame is in force. -/
def acceptPending (host : Host) (journal : RecoveryJournal) : RecoveryJournal :=
  match journal.pending with
  | none => journal
  | some (.recovery registration intended _ encoded) =>
    { journal with
      slots := Function.update journal.slots registration.slot (some intended)
      physical := Function.update journal.physical registration.slot
        (Function.update (journal.physical registration.slot)
          (generationSide intended.generation) (some ⟨intended, host.sha256 encoded⟩))
      pending := none }
  | some (.successor slot intended _ _) =>
    { journal with
      successors := Function.update journal.successors slot
        (some ⟨journal.laneNonce, intended⟩)
      pending := none }

/-! ### Rebuilding a journal from the control file -/

/-- `RECOVERY_CONTROL_BYTES`. -/
abbrev controlBytes : Nat := 64 * 2 * frameBytes + 64 * 2 * frameBytes

/-- The frame regions of a control file. -/
abbrev Regions := Domain → Fin 64 → Fin 2 → List UInt8

def controlRegions (control : List UInt8) : Regions := fun domain slot side =>
  slice control (offset domain slot side) frameBytes

/-- The side on which the retained journal has the very first frame of a recovery slot in
flight. -/
def firstRecoverySide (retained : Option RecoveryJournal) (slot : Fin 64) : Option (Fin 2) := do
  let journal ← retained
  match journal.pending with
  | some (.recovery registration intended _ _) =>
    if registration.slot = slot ∧ journal.slots slot = none then
      some (generationSide intended.generation)
    else
      none
  | _ => none

def firstSuccessorSide (retained : Option RecoveryJournal) (slot : Fin 64) :
    Option (Fin 2) := do
  let journal ← retained
  match journal.pending with
  | some (.successor pending intended _ _) =>
    if pending = slot ∧ journal.successors slot = none then
      some (generationSide intended.generation)
    else
      none
  | _ => none

def recoverySalvaged : Salvage RecoveryRecord
  | .torn, .empty => true
  | _, _ => false

def successorSalvaged : Salvage SuccessorRecord
  | .empty, .empty => true
  | .torn, .empty => true
  | _, _ => false

def readRecoverySlot (host : Host) (regions : Regions) (retained : Option RecoveryJournal)
    (slot : Fin 64) : Option (SlotReading RecoveryRecord) :=
  readSlot (recoveryFormat host) recoverySalvaged host (regions .recovery slot) slot
    (firstRecoverySide retained slot)

def readSuccessorSlot (host : Host) (regions : Regions) (retained : Option RecoveryJournal)
    (slot : Fin 64) : Option (SlotReading SuccessorRecord) :=
  readSlot successorFormat successorSalvaged host (regions .successor slot) slot
    (firstSuccessorSide retained slot)

/-- The receipt of one side. -/
def receipt (host : Host) (probe : RecoveryProbe) (region : List UInt8) :
    Option RecoveryFrameReceipt :=
  match probe with
  | .valid selected => some ⟨selected.frame, host.sha256 region⟩
  | _ => none

def admitLaneNonce (current : Option Nonce) (nonce : Nonce) : Option (Option Nonce) :=
  if ∀ found ∈ current, found = nonce then some (some nonce) else none

/-- The lane nonces of the valid sides of a slot. -/
def sideNonces {Record : Type} (sides : Fin 2 → DoubleSlot.Probe (Selected Record)) :
    List Nonce :=
  (List.finRange 2).flatMap fun side =>
    match sides side with
    | .valid selected => [selected.laneNonce]
    | _ => []

/-- Every lane nonce the control file is found to mention. -/
def laneNonces (recovery : Fin 64 → SlotReading RecoveryRecord)
    (successors : Fin 64 → SlotReading SuccessorRecord) : List Nonce :=
  ((List.finRange 64).flatMap fun slot =>
    sideNonces (recovery slot).sides ++
      (recovery slot).selected.toList.map Selected.laneNonce) ++
  (List.finRange 64).flatMap fun slot =>
    (successors slot).selected.toList.map Selected.laneNonce

/-- A live successor's acknowledgement matches the lane: the slot still holds the acknowledged
frame or its immediate tombstone, and the acknowledged frame is physically there. -/
def acknowledgementHolds (slots : Fin 64 → Option RecoveryFrame)
    (physical : Fin 64 → Fin 2 → Option RecoveryFrameReceipt)
    (acknowledgement : SuccessorAcknowledgement) : Bool :=
  match slots acknowledgement.recoverySlot,
    physical acknowledgement.recoverySlot acknowledgement.recoverySide with
  | some selected, some receipt =>
    ((selected.generation = acknowledgement.recoveryGeneration &&
        selected.record.map RecoveryRecord.operationId = some acknowledgement.operationId) ||
      (selected.generation = acknowledgement.recoveryGeneration + 1 &&
        selected.record.isNone)) &&
    receipt.frame.generation = acknowledgement.recoveryGeneration &&
    receipt.frame.record.map RecoveryRecord.operationId = some acknowledgement.operationId &&
    receipt.digest = acknowledgement.frameSha256
  | _, _ => false

/-- The journal the frames of a control file amount to. `fresh` is the nonce drawn at random
for a control file without any frame. -/
def observe (host : Host) (regions : Regions) (retained : Option RecoveryJournal)
    (fresh : Nonce) : Option RecoveryJournal := do
  let recovery ← Table.collect (readRecoverySlot host regions retained)
  let successors ← Table.collect (readSuccessorSlot host regions retained)
  let nonce ← (laneNonces recovery successors).foldlM admitLaneNonce none
  let laneNonce := (nonce.or (retained.map RecoveryJournal.laneNonce)).getD fresh
  let observed : RecoveryJournal :=
    { laneNonce := laneNonce
      slots := fun slot => (recovery slot).selected.map Selected.frame
      physical := fun slot side =>
        receipt host ((recovery slot).sides side) (regions .recovery slot side)
      successors := fun slot => (successors slot).selected
      pending := none
      checkedOut := false }
  if (∀ journal ∈ retained, journal.laneNonce = laneNonce) ∧
      validateLaneSlots host observed.slots none = true ∧
      validateSuccessorLane laneNonce observed.successors none = true ∧
      ∀ slot, ∀ acknowledgement ∈ liveAcknowledgements (observed.successors slot),
        acknowledgementHolds observed.slots observed.physical acknowledgement = true then
    some observed
  else
    none

/-- The comparison with a retained journal: everything but the side being written has to agree,
and the slot being written has to hold its predecessor or the intended frame. -/
def compareRetained (host : Host) (control : List UInt8) (cached observed : RecoveryJournal) :
    Option Bool :=
  if validatePending host cached then
    match cached.pending with
    | none => none
    | some (.recovery registration intended offset encoded) =>
      let side := generationSide intended.generation
      if observed.successors = cached.successors ∧
          (∀ slot, slot ≠ registration.slot → observed.slots slot = cached.slots slot) ∧
          ∀ slot candidate, slot ≠ registration.slot ∨ candidate ≠ side →
            observed.physical slot candidate = cached.physical slot candidate then
        if observed.slots registration.slot = cached.slots registration.slot then some false
        else if observed.slots registration.slot = some intended ∧
            slice control offset frameBytes = encoded then some true
        else none
      else
        none
    | some (.successor pending intended offset encoded) =>
      if observed.slots = cached.slots ∧ observed.physical = cached.physical ∧
          ∀ slot, slot ≠ pending → observed.successors slot = cached.successors slot then
        if observed.successors pending = cached.successors pending then some false
        else if (observed.successors pending).map Selected.frame = some intended ∧
            slice control offset frameBytes = encoded then some true
        else none
      else
        none
  else
    none

def decodeControl (host : Host) (control : List UInt8) (retained : Option RecoveryJournal)
    (fresh : Nonce) : Option (RecoveryJournal × Bool) := do
  if control.length ≠ controlBytes then none else
  let observed ← observe host (controlRegions control) retained fresh
  match retained with
  | none => some (observed, false)
  | some cached =>
    let intended ← compareRetained host control cached observed
    some (observed, intended)

end Axial.Fs
