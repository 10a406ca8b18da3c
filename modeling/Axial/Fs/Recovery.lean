/-
This file models the recovery records of `recovery.rs` and the rules they have to
obey: portable names, phases, the validation of one record, the footprint a
record lays claim to, the advance of one slot, and the lane of all 64 slots.
-/

import Axial.Fs.FrameSlot

namespace Axial.Fs

open Bytes ControlFrame List Option

abbrev maxComponents : Nat := 32
abbrev maxNameBytes : Nat := 255
abbrev maxNameUtf16Units : Nat := 255
abbrev maxRecoverableFileBytes : Nat := 16 * 1024 * 1024
abbrev maxLiveProofBytes : Nat := 128 * 1024 * 1024
def rootLeaseName : String := ".axial-root.lease"
def recoveryStagePrefix : String := ".axial-rstage-"
def recoveryParkPrefix : String := ".axial-rpark-"

/-! ### Names -/

structure RecoveryName where
  value : String
  deriving DecidableEq

/-- How many UTF-16 code units a string takes. -/
def utf16Units (value : String) : Nat :=
  (value.toList.map fun char => if char.toNat < 0x10000 then 1 else 2).sum

/-- `char::is_control`, the Unicode category `Cc`. -/
def isControl (char : Char) : Bool :=
  char.toNat < 0x20 || (0x7f ≤ char.toNat && char.toNat ≤ 0x9f)

def eqIgnoreAsciiCase (first second : List Char) : Bool :=
  first.map Char.toLower = second.map Char.toLower

def windowsDeviceName (value : String) : Bool :=
  let basename := (value.toList.takeWhile fun char => char ≠ '.').rdropWhile
    fun char => char = '.' ∨ char = ' '
  if ["CON", "PRN", "AUX", "NUL", "CLOCK$", "CONIN$", "CONOUT$"].any
      fun device => eqIgnoreAsciiCase basename device.toList then
    true
  else
    match basename.getLast? with
    | none => false
    | some digit =>
      (('0' ≤ digit ∧ digit ≤ '9') ∨ digit ∈ ['\u00b9', '\u00b2', '\u00b3']) &&
        (eqIgnoreAsciiCase basename.dropLast "COM".toList ||
          eqIgnoreAsciiCase basename.dropLast "LPT".toList)

/-- The characters no portable name contains, `<>:"/\|?*`. -/
def reservedNameBytes : List UInt8 := [0x3c, 0x3e, 0x3a, 0x22, 0x2f, 0x5c, 0x7c, 0x3f, 0x2a]

def validateName (host : Host) (value : String) : Bool :=
  !(value = "" || value = "." || value = ".." ||
    (utf8 value).length > maxNameBytes ||
    utf16Units value > maxNameUtf16Units ||
    host.nfc value ≠ value ||
    (utf8 value).any (fun byte => byte ∈ reservedNameBytes) ||
    value.toList.any isControl ||
    value.toList.getLast?.any (fun char => char = '.' ∨ char = ' ') ||
    windowsDeviceName value)

def RecoveryName.newExact (host : Host) (value : String) : Option RecoveryName :=
  if validateName host value then some ⟨value⟩ else none

def portableNameKey (host : Host) (name : String) : String := host.nfc (host.caseFold name)

def coordinateKey (host : Host) (parent : List RecoveryName) (leaf : RecoveryName) : String :=
  host.nfc (host.caseFold ("/".intercalate ((parent ++ [leaf]).map RecoveryName.value)))

def hexDigit (nibble : Nat) : Char := "0123456789abcdef".toList.getD nibble '0'

/-- The private leaf of an operation: the prefix and the identifier in hexadecimal. The source
asserts that the result is a portable name. -/
def recoveryPrivateLeaf (leading : String) (operationId : Fixed 16) : RecoveryName :=
  ⟨leading ++ String.ofList (operationId.val.flatMap fun byte =>
    [hexDigit (byte.toNat / 16), hexDigit (byte.toNat % 16)])⟩

def recoveryStageLeaf (operationId : Fixed 16) : RecoveryName :=
  recoveryPrivateLeaf recoveryStagePrefix operationId

def recoveryParkLeaf (operationId : Fixed 16) : RecoveryName :=
  recoveryPrivateLeaf recoveryParkPrefix operationId

/-! ### Phases -/

inductive RecoveryPhase where
  | stagePrepared
  | stageSealed
  | replacePrepared
  | publishPrepared
  | removePrepared
  | removeCommitted
  deriving DecidableEq

namespace RecoveryPhase

/-- The `repr(u8)` discriminant. -/
def toByte : RecoveryPhase → UInt8
  | stagePrepared => 1
  | stageSealed => 2
  | replacePrepared => 3
  | publishPrepared => 4
  | removePrepared => 5
  | removeCommitted => 6

def decode (tag : UInt8) : Option RecoveryPhase :=
  match tag with
  | 1 => some stagePrepared
  | 2 => some stageSealed
  | 3 => some replacePrepared
  | 4 => some publishPrepared
  | 5 => some removePrepared
  | 6 => some removeCommitted
  | _ => none

def ownsTarget : RecoveryPhase → Bool
  | stageSealed | replacePrepared | publishPrepared | removeCommitted => true
  | _ => false

def ownsPark : RecoveryPhase → Bool
  | removePrepared => false
  | _ => true

theorem decode_eq_some (tag : UInt8) (phase : RecoveryPhase) :
    decode tag = some phase ↔ tag = phase.toByte := by
  constructor
  · intro decoded
    unfold decode at decoded
    split at decoded <;> cases decoded <;> rfl
  · rintro rfl
    cases phase <;> rfl

end RecoveryPhase

/-! ### Records -/

structure RecoveryFileProof where
  size : UInt64
  sha256 : Fixed 32
  deriving DecidableEq

structure RecoveryRecord where
  operationId : Fixed 16
  phase : RecoveryPhase
  destinationParent : List RecoveryName
  destinationLeaf : RecoveryName
  old : Option RecoveryFileProof
  new : Option RecoveryFileProof
  deriving DecidableEq

def footprintKeys (host : Host) (record : RecoveryRecord) : List String :=
  [coordinateKey host record.destinationParent (recoveryStageLeaf record.operationId)] ++
  (if record.old.isSome ∧ record.phase.ownsPark then
    [coordinateKey host record.destinationParent (recoveryParkLeaf record.operationId)]
  else
    []) ++
  (if record.phase.ownsTarget then
    [coordinateKey host record.destinationParent record.destinationLeaf]
  else
    [])

/-- The proofs a record carries. -/
def RecoveryRecord.proofs (record : RecoveryRecord) : List RecoveryFileProof :=
  record.old.toList ++ record.new.toList

/-- Which proofs each phase has to carry. -/
def RecoveryRecord.phaseProofs (record : RecoveryRecord) : Bool :=
  match record.phase with
  | .stagePrepared => record.new.isNone
  | .stageSealed => record.new.isSome
  | .replacePrepared => record.old.isSome && record.new.isSome
  | .publishPrepared | .removePrepared | .removeCommitted => record.new.isSome

def RecoveryRecord.validate (host : Host) (record : RecoveryRecord) : Bool :=
  decide (record.operationId ≠ Fixed.zero 16 ∧
    record.destinationParent.length + 1 ≤ maxComponents ∧
    (∀ name ∈ record.destinationParent ++ [record.destinationLeaf],
      validateName host name.value = true) ∧
    (record.destinationParent ≠ [] ∨
      portableNameKey host record.destinationLeaf.value ≠ portableNameKey host rootLeaseName) ∧
    (footprintKeys host record).Nodup ∧
    (∀ proof ∈ record.proofs, proof.size.toNat ≤ maxRecoverableFileBytes) ∧
    record.phaseProofs = true)

abbrev RecoveryFrame := Frame RecoveryRecord

def validateRecoveryFrame (host : Host) (frame : RecoveryFrame) : Bool :=
  frame.generation ≠ 0 && frame.record.all (RecoveryRecord.validate host)

def nextRecoveryGeneration (current : Option UInt64) : Option UInt64 := nextGeneration current

def recoverySlotReusable (frame : Option RecoveryFrame) : Bool :=
  match frame with
  | none => true
  | some frame => frame.record.isNone && frame.generation < maxGeneration - 2

/-- The phase changes a live record may make; the flag says whether it replaces an old file. -/
def RecoveryPhase.advances : RecoveryPhase → RecoveryPhase → Bool → Bool
  | .stagePrepared, .stageSealed, _ => true
  | .stageSealed, .replacePrepared, true => true
  | .stageSealed, .publishPrepared, false => true
  | .replacePrepared, .publishPrepared, true => true
  | .replacePrepared, .removePrepared, true => true
  | .publishPrepared, .removeCommitted, _ => true
  | .stageSealed, .removePrepared, _ => true
  | .publishPrepared, .removePrepared, _ => true
  | _, _, _ => false

/-- The change of record `validate_recovery_advance` accepts. -/
def advancesRecord : Option RecoveryRecord → Option RecoveryRecord → Bool
  | none, some next => next.phase = .stagePrepared
  | some previous, none => previous.phase ≠ .stageSealed
  | some previous, some next =>
    previous.operationId = next.operationId &&
    previous.destinationParent = next.destinationParent &&
    previous.destinationLeaf = next.destinationLeaf &&
    previous.old = next.old &&
    (previous.new.isNone || next.new = previous.new) &&
    previous.phase.advances next.phase previous.old.isSome
  | none, none => false

def validateRecoveryAdvance (host : Host) (previous : Option RecoveryFrame)
    (next : RecoveryFrame) : Bool :=
  validateRecoveryFrame host next &&
  some next.generation = nextRecoveryGeneration (previous.map Frame.generation) &&
  advancesRecord (previous.bind Frame.record) next.record

/-! ### The lane of all slots -/

/-- What `validate_lane_slots` has accumulated. -/
structure LaneScan where
  operationIds : List (Fixed 16)
  footprints : List String
  liveProofBytes : Nat

def RecoveryRecord.proofBytes (record : RecoveryRecord) : Nat :=
  (record.proofs.map fun proof => proof.size.toNat).sum

def scanLaneSlot (host : Host) (scan : LaneScan) (frame : Option RecoveryFrame) :
    Option LaneScan :=
  match frame with
  | none => some scan
  | some frame =>
    if frame.generation = maxGeneration then
      none
    else
      match frame.record with
      | none => some scan
      | some record => do
        let operationIds ← Table.insertNew scan.operationIds record.operationId
        let footprints ← Table.insertAll scan.footprints (footprintKeys host record)
        let liveProofBytes := scan.liveProofBytes + record.proofBytes
        if liveProofBytes ≤ maxLiveProofBytes then
          some ⟨operationIds, footprints, liveProofBytes⟩
        else
          none

def validateLaneSlots (host : Host) (slots : Fin 64 → Option RecoveryFrame)
    (change : Option (Fin 64 × RecoveryFrame)) : Bool :=
  (((List.finRange 64).map (changed slots change)).foldlM (scanLaneSlot host)
    ⟨[], [], 0⟩).isSome

/-! ### What the validators accept -/

/-- What an accepted advance of a slot says. -/
theorem validateRecoveryAdvance_iff (host : Host) (previous : Option RecoveryFrame)
    (next : RecoveryFrame) :
    validateRecoveryAdvance host previous next = true ↔ validateRecoveryFrame host next = true ∧
      nextRecoveryGeneration (previous.map Frame.generation) = some next.generation ∧
      advancesRecord (previous.bind Frame.record) next.record = true := by
  unfold validateRecoveryAdvance
  rw [Bool.and_eq_true, Bool.and_eq_true, decide_eq_true_iff, and_assoc,
    eq_comm (a := some next.generation)]

/-! ### Lanes -/

/-- The record a slot is occupied by. -/
def liveRecord (frame : Option RecoveryFrame) : Option RecoveryRecord :=
  frame.bind Frame.record

def liveOperationIds (frame : Option RecoveryFrame) : List (Fixed 16) :=
  (liveRecord frame).toList.map RecoveryRecord.operationId

def liveFootprints (host : Host) (frame : Option RecoveryFrame) : List String :=
  (liveRecord frame).toList.flatMap (footprintKeys host)

def liveBytes (frame : Option RecoveryFrame) : Nat :=
  ((liveRecord frame).toList.map RecoveryRecord.proofBytes).sum

theorem scanLaneSlot_eq_some (host : Host) (scan next : LaneScan)
    (frame : Option RecoveryFrame) (operations : scan.operationIds.Nodup)
    (footprints : scan.footprints.Nodup) (budget : scan.liveProofBytes ≤ maxLiveProofBytes) :
    scanLaneSlot host scan frame = some next ↔
      (∀ found, frame = some found → found.generation ≠ maxGeneration) ∧
      (scan.operationIds ++ liveOperationIds frame).Nodup ∧
      (scan.footprints ++ liveFootprints host frame).Nodup ∧
      scan.liveProofBytes + liveBytes frame ≤ maxLiveProofBytes ∧
      next = ⟨scan.operationIds ++ liveOperationIds frame,
        scan.footprints ++ liveFootprints host frame, scan.liveProofBytes + liveBytes frame⟩ := by
  cases frame with
  | none =>
    simp only [scanLaneSlot, some_inj, liveOperationIds, liveFootprints, liveBytes,
      liveRecord, bind_none, toList_none, map_nil, flatMap_nil,
      List.append_nil, sum_nil, Nat.add_zero, operations, footprints, budget, true_and,
      reduceCtorEq, false_implies, implies_true]
    exact eq_comm
  | some frame =>
    unfold scanLaneSlot
    by_cases exhausted : frame.generation = maxGeneration
    · simp [exhausted]
    simp only [exhausted, if_false, Option.some.injEq, forall_eq', ne_eq, not_false_eq_true,
      true_and]
    cases live : frame.record with
    | none =>
      simp only [some_inj, liveOperationIds, liveFootprints, liveBytes, liveRecord,
        bind_some, live, toList_none, map_nil, flatMap_nil,
        List.append_nil, sum_nil, Nat.add_zero, operations, footprints, budget, true_and]
      exact eq_comm
    | some record =>
      simp only [liveOperationIds, liveFootprints, liveBytes, liveRecord, bind_some, live,
        toList_some, map_cons, map_nil, flatMap_cons, flatMap_nil,
        List.append_nil, sum_cons, sum_nil, Nat.add_zero, bind_eq_bind,
        bind_eq_some_iff, Table.insertAll_eq_some footprints, Table.insertNew_eq_some,
        ite_none_right_eq_some, some_inj]
      have fresh : (scan.operationIds ++ [record.operationId]).Nodup ↔
          record.operationId ∉ scan.operationIds := by
        rw [nodup_append']
        simp [operations]
      rw [fresh]
      constructor
      · rintro ⟨_, ⟨fresh, rfl⟩, _, ⟨apart, rfl⟩, within, rfl⟩
        exact ⟨fresh, apart, within, rfl⟩
      · rintro ⟨fresh, apart, within, rfl⟩
        exact ⟨_, ⟨fresh, rfl⟩, _, ⟨apart, rfl⟩, within, rfl⟩

theorem scanLane_isSome (host : Host) (scan : LaneScan) (frames : List (Option RecoveryFrame))
    (operations : scan.operationIds.Nodup) (footprints : scan.footprints.Nodup)
    (budget : scan.liveProofBytes ≤ maxLiveProofBytes) :
    (frames.foldlM (scanLaneSlot host) scan).isSome = true ↔
      (∀ frame ∈ frames, ∀ found, frame = some found → found.generation ≠ maxGeneration) ∧
      (scan.operationIds ++ frames.flatMap liveOperationIds).Nodup ∧
      (scan.footprints ++ frames.flatMap (liveFootprints host)).Nodup ∧
      scan.liveProofBytes + (frames.map liveBytes).sum ≤ maxLiveProofBytes := by
  induction frames generalizing scan with
  | nil => simp [operations, footprints, budget]
  | cons frame frames ih =>
    rw [foldlM_cons, bind_eq_bind]
    simp only [forall_mem_cons, flatMap_cons, map_cons, sum_cons]
    rw [← append_assoc, ← append_assoc, ← Nat.add_assoc]
    cases stepped : scanLaneSlot host scan frame with
    | none =>
      simp only [bind_none, isSome_none, Bool.false_eq_true, false_iff]
      rintro ⟨⟨alive, _⟩, operationsLater, footprintsLater, budgetLater⟩
      have accepted := (scanLaneSlot_eq_some host scan _ frame operations footprints budget).mpr
        ⟨alive, (nodup_append'.mp operationsLater).1,
          (nodup_append'.mp footprintsLater).1, by omega, rfl⟩
      rw [stepped] at accepted
      cases accepted
    | some next =>
      obtain ⟨alive, operationsNext, footprintsNext, budgetNext, rfl⟩ :=
        (scanLaneSlot_eq_some host scan next frame operations footprints budget).mp stepped
      rw [bind_some, ih _ operationsNext footprintsNext budgetNext]
      exact ⟨fun ⟨rest, later⟩ => ⟨⟨alive, rest⟩, later⟩,
        fun ⟨⟨_, rest⟩, later⟩ => ⟨rest, later⟩⟩

/-- What `validate_lane_slots` promises of a lane, slot by slot and pair by pair. -/
structure LaneValid (host : Host) (slots : Fin 64 → Option RecoveryFrame) : Prop where
  generations : ∀ slot frame, slots slot = some frame → frame.generation ≠ maxGeneration
  operationIds : ∀ first second, first ≠ second →
    List.Disjoint (liveOperationIds (slots first)) (liveOperationIds (slots second))
  ownFootprints : ∀ slot, (liveFootprints host (slots slot)).Nodup
  footprints : ∀ first second, first ≠ second →
    List.Disjoint (liveFootprints host (slots first)) (liveFootprints host (slots second))
  budget : ∑ slot, liveBytes (slots slot) ≤ maxLiveProofBytes

theorem liveOperationIds_nodup (frame : Option RecoveryFrame) :
    (liveOperationIds frame).Nodup := by
  unfold liveOperationIds
  cases liveRecord frame with
  | none => exact nodup_nil
  | some record => exact nodup_singleton _

theorem validateLaneSlots_iff (host : Host) (slots : Fin 64 → Option RecoveryFrame)
    (change : Option (Fin 64 × RecoveryFrame)) :
    validateLaneSlots host slots change = true ↔ LaneValid host (changed slots change) := by
  unfold validateLaneSlots
  rw [scanLane_isSome host _ _ nodup_nil nodup_nil (Nat.zero_le _)]
  generalize changed slots change = lane
  have total : (((List.finRange 64).map lane).map liveBytes).sum =
      ∑ slot, liveBytes (lane slot) := by
    rw [List.map_map, ← ofFn_eq_map, sum_ofFn]
    rfl
  rw [total, nil_append, nil_append, Nat.zero_add, flatMap_map,
    flatMap_map, Table.nodup_flatMap_finRange, Table.nodup_flatMap_finRange]
  simp only [List.mem_map, mem_finRange, true_and, forall_exists_index,
    forall_apply_eq_imp_iff]
  constructor
  · rintro ⟨generations, ⟨_, operationIds⟩, ⟨ownFootprints, footprints⟩, budget⟩
    exact ⟨generations, operationIds, ownFootprints, footprints, budget⟩
  · rintro ⟨generations, operationIds, ownFootprints, footprints, budget⟩
    exact ⟨generations, ⟨fun slot => liveOperationIds_nodup _, operationIds⟩,
      ⟨ownFootprints, footprints⟩, budget⟩

end Axial.Fs
