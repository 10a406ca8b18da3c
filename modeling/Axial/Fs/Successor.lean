/-
This file models the successor records of `successor.rs`: a successor takes over
live recovery records by acknowledging their frames, and pins those frames until
it is itself tombstoned. Here are the validation of one record, the advance of
one slot, the lane of all slots and the pins.
-/

import Axial.Fs.FrameSlot

namespace Axial.Fs

open Bytes ControlFrame List Option

abbrev recordHeaderBytes : Nat := 48
abbrev acknowledgementBytes : Nat := 64
abbrev maxOwnerIdBytes : Nat := 255
abbrev maxAcknowledgements : Nat := 32
abbrev maxDomainPayloadBytes : Nat :=
  bodyBytes - headerBytes - recordHeaderBytes - 1 - acknowledgementBytes

inductive SuccessorOwnerClass where
  | state
  | performance
  | minecraft
  deriving DecidableEq

namespace SuccessorOwnerClass

/-- The `repr(u8)` discriminant. -/
def toByte : SuccessorOwnerClass → UInt8
  | state => 1
  | performance => 2
  | minecraft => 3

def decode (tag : UInt8) : Option SuccessorOwnerClass :=
  match tag with
  | 1 => some state
  | 2 => some performance
  | 3 => some minecraft
  | _ => none

theorem decode_eq_some (tag : UInt8) (ownerClass : SuccessorOwnerClass) :
    decode tag = some ownerClass ↔ tag = ownerClass.toByte := by
  constructor
  · intro decoded
    unfold decode at decoded
    split at decoded <;> cases decoded <;> rfl
  · rintro rfl
    cases ownerClass <;> rfl

end SuccessorOwnerClass

/-- One recovery frame a successor takes over. -/
structure SuccessorAcknowledgement where
  recoverySlot : Fin 64
  recoverySide : Fin 2
  recoveryGeneration : UInt64
  operationId : Fixed 16
  frameSha256 : Fixed 32
  deriving DecidableEq

def SuccessorAcknowledgement.validate (acknowledgement : SuccessorAcknowledgement) : Bool :=
  decide (1 ≤ acknowledgement.recoveryGeneration.toNat ∧
    acknowledgement.recoveryGeneration.toNat < maxGeneration.toNat - 1 ∧
    acknowledgement.recoverySide = generationSide acknowledgement.recoveryGeneration ∧
    acknowledgement.operationId ≠ Fixed.zero 16)

structure SuccessorRecord where
  ownerClass : SuccessorOwnerClass
  ownerSchema : UInt16
  ownerId : List UInt8
  transferId : Fixed 16
  oldPayload : Option (List UInt8)
  newPayload : Option (List UInt8)
  acknowledgements : List SuccessorAcknowledgement
  deriving DecidableEq

/-- The length of a payload that may be missing. -/
def payloadLength (payload : Option (List UInt8)) : Nat := (payload.map List.length).getD 0

def SuccessorRecord.validate (record : SuccessorRecord) : Bool :=
  decide (record.ownerSchema ≠ 0 ∧ record.ownerId ≠ [] ∧
    record.ownerId.length ≤ maxOwnerIdBytes ∧ record.transferId ≠ Fixed.zero 16 ∧
    (record.oldPayload.isSome ∨ record.newPayload.isSome) ∧
    1 ≤ record.acknowledgements.length ∧
    record.acknowledgements.length ≤ maxAcknowledgements ∧
    payloadLength record.oldPayload + payloadLength record.newPayload ≤
      maxDomainPayloadBytes ∧
    (∀ acknowledgement ∈ record.acknowledgements, acknowledgement.validate = true) ∧
    (record.acknowledgements.map SuccessorAcknowledgement.recoverySlot).Nodup ∧
    (record.acknowledgements.map SuccessorAcknowledgement.operationId).Nodup ∧
    headerBytes + recordHeaderBytes + record.ownerId.length +
      record.acknowledgements.length * acknowledgementBytes +
      payloadLength record.oldPayload + payloadLength record.newPayload ≤ bodyBytes)

abbrev SuccessorFrame := Frame SuccessorRecord

/-- Live frames have odd generations, tombstones even ones. -/
def validateSuccessorFrame (frame : SuccessorFrame) : Bool :=
  decide (1 ≤ frame.generation.toNat ∧ frame.generation.toNat < maxGeneration.toNat) &&
    (frame.record.isSome != decide (frame.generation.toNat % 2 = 0)) &&
    frame.record.all SuccessorRecord.validate

abbrev SelectedSuccessorFrame := Selected SuccessorRecord

def nextSuccessorGeneration (current : Option UInt64) : Option UInt64 := nextGeneration current

def validateSuccessorAdvance (previous : Option SuccessorFrame) (next : SuccessorFrame) : Bool :=
  validateSuccessorFrame next &&
  some next.generation = nextSuccessorGeneration (previous.map Frame.generation) &&
  ((previous.bind Frame.record).isSome != next.record.isSome)

/-! ### The lane of all slots -/

/-- What live successors may not share. The source keeps one set for each of these kinds, and a
flag for the owner of class `State`. -/
inductive SuccessorKey where
  | stateOwner
  | owner (ownerClass : SuccessorOwnerClass) (ownerId : List UInt8)
  | transfer (transferId : Fixed 16)
  | recoverySlot (slot : Fin 64)
  | operation (operationId : Fixed 16)
  deriving DecidableEq

def SuccessorRecord.keys (record : SuccessorRecord) : List SuccessorKey :=
  (if record.ownerClass = .state then [.stateOwner] else []) ++
  [.owner record.ownerClass record.ownerId, .transfer record.transferId] ++
  record.acknowledgements.map (fun acknowledgement =>
    .recoverySlot acknowledgement.recoverySlot) ++
  record.acknowledgements.map (fun acknowledgement => .operation acknowledgement.operationId)

def scanSuccessorSlot (laneNonce : Nonce) (seen : List SuccessorKey)
    (selected : Option SelectedSuccessorFrame) : Option (List SuccessorKey) :=
  match selected with
  | none => some seen
  | some selected =>
    if selected.laneNonce = laneNonce ∧ validateSuccessorFrame selected.frame then
      match selected.frame.record with
      | none => some seen
      | some record => Table.insertAll seen record.keys
    else
      none

/-- The check of all successors of a lane. The lane's nonce is nonzero by its type; a changed
frame belongs to the lane it is written in. -/
def validateSuccessorLane (laneNonce : Nonce) (slots : Fin 64 → Option SelectedSuccessorFrame)
    (change : Option (Fin 64 × SuccessorFrame)) : Bool :=
  (((List.finRange 64).map (changed slots (change.map fun (slot, frame) =>
    (slot, ⟨laneNonce, frame⟩)))).foldlM (scanSuccessorSlot laneNonce) []).isSome

/-- The record of a live successor. -/
def liveSuccessor (selected : Option SelectedSuccessorFrame) : Option SuccessorRecord :=
  selected.bind fun found => found.frame.record

/-- What a live successor acknowledges. -/
def liveAcknowledgements (selected : Option SelectedSuccessorFrame) :
    List SuccessorAcknowledgement :=
  (liveSuccessor selected).toList.flatMap SuccessorRecord.acknowledgements

/-- The side of a recovery slot that is pinned, if any; the outer option is failure. -/
def recoveryPinSide (laneNonce : Nonce) (slots : Fin 64 → Option SelectedSuccessorFrame)
    (recoverySlot : Fin 64) : Option (Option (Fin 2)) :=
  if validateSuccessorLane laneNonce slots none then
    some ((((List.finRange 64).flatMap fun slot => liveAcknowledgements (slots slot)).find?
      fun acknowledgement => acknowledgement.recoverySlot = recoverySlot).map
        SuccessorAcknowledgement.recoverySide)
  else
    none

/-! ### What the validators accept -/

theorem validateSuccessorFrame_iff (frame : SuccessorFrame) :
    validateSuccessorFrame frame = true ↔
      (1 ≤ frame.generation.toNat ∧ frame.generation.toNat < maxGeneration.toNat) ∧
      (frame.record.isSome = true ↔ ¬ frame.generation.toNat % 2 = 0) ∧
      ∀ record, frame.record = some record → record.validate = true := by
  unfold validateSuccessorFrame
  rw [Bool.and_eq_true, Bool.and_eq_true, decide_eq_true_iff, bne_iff_ne, and_assoc]
  have parity : frame.record.isSome ≠ decide (frame.generation.toNat % 2 = 0) ↔
      (frame.record.isSome = true ↔ ¬ frame.generation.toNat % 2 = 0) := by
    by_cases even : frame.generation.toNat % 2 = 0 <;> cases frame.record <;> simp [even]
  rw [parity]
  cases frame.record <;> simp

theorem validateSuccessorAdvance_iff (previous : Option SuccessorFrame)
    (next : SuccessorFrame) :
    validateSuccessorAdvance previous next = true ↔ validateSuccessorFrame next = true ∧
      nextSuccessorGeneration (previous.map Frame.generation) = some next.generation ∧
      ((previous.bind Frame.record).isSome ≠ next.record.isSome) := by
  unfold validateSuccessorAdvance
  rw [Bool.and_eq_true, Bool.and_eq_true, decide_eq_true_iff, bne_iff_ne, and_assoc,
    eq_comm (a := some next.generation)]

def liveKeys (selected : Option SelectedSuccessorFrame) : List SuccessorKey :=
  (liveSuccessor selected).toList.flatMap SuccessorRecord.keys

variable {seen : List SuccessorKey}

theorem scanSuccessorSlot_eq_some (laneNonce : Nonce) (distinct : seen.Nodup)
    (selected : Option SelectedSuccessorFrame) (all : List SuccessorKey) :
    scanSuccessorSlot laneNonce seen selected = some all ↔
      (∀ found, selected = some found →
        found.laneNonce = laneNonce ∧ validateSuccessorFrame found.frame = true) ∧
      (seen ++ liveKeys selected).Nodup ∧ all = seen ++ liveKeys selected := by
  cases selected with
  | none =>
    simp only [scanSuccessorSlot, some_inj, liveKeys, liveSuccessor, bind_none,
      toList_none, flatMap_nil, List.append_nil, reduceCtorEq, false_implies,
      implies_true, distinct, true_and]
    exact eq_comm
  | some selected =>
    unfold scanSuccessorSlot
    rw [ite_none_right_eq_some]
    simp only [Option.some.injEq, forall_eq']
    refine and_congr_right fun _ => ?_
    cases live : selected.frame.record with
    | none =>
      simp only [some_inj, liveKeys, liveSuccessor, bind_some, live,
        toList_none, flatMap_nil, List.append_nil, distinct, true_and]
      exact eq_comm
    | some record =>
      simp only [liveKeys, liveSuccessor, bind_some, live, toList_some,
        flatMap_cons, flatMap_nil, List.append_nil]
      exact Table.insertAll_eq_some distinct _ _

theorem scanSuccessorLane_isSome (laneNonce : Nonce) (distinct : seen.Nodup)
    (selected : List (Option SelectedSuccessorFrame)) :
    (selected.foldlM (scanSuccessorSlot laneNonce) seen).isSome = true ↔
      (∀ entry ∈ selected, ∀ found, entry = some found →
        found.laneNonce = laneNonce ∧ validateSuccessorFrame found.frame = true) ∧
      (seen ++ selected.flatMap liveKeys).Nodup := by
  induction selected generalizing seen with
  | nil => simp [distinct]
  | cons entry selected ih =>
    rw [foldlM_cons, bind_eq_bind]
    simp only [forall_mem_cons, flatMap_cons]
    rw [← append_assoc]
    cases stepped : scanSuccessorSlot laneNonce seen entry with
    | none =>
      simp only [bind_none, isSome_none, Bool.false_eq_true, false_iff]
      rintro ⟨⟨valid, _⟩, later⟩
      have accepted := (scanSuccessorSlot_eq_some laneNonce distinct entry _).mpr
        ⟨valid, (nodup_append'.mp later).1, rfl⟩
      rw [stepped] at accepted
      cases accepted
    | some all =>
      obtain ⟨valid, next, rfl⟩ :=
        (scanSuccessorSlot_eq_some laneNonce distinct entry all).mp stepped
      rw [bind_some, ih next]
      exact ⟨fun ⟨rest, later⟩ => ⟨⟨valid, rest⟩, later⟩,
        fun ⟨⟨_, rest⟩, later⟩ => ⟨rest, later⟩⟩

/-- What `validate_successor_lane` promises of a lane. -/
structure SuccessorLaneValid (laneNonce : Nonce)
    (slots : Fin 64 → Option SelectedSuccessorFrame) : Prop where
  frames : ∀ slot selected, slots slot = some selected →
    selected.laneNonce = laneNonce ∧ validateSuccessorFrame selected.frame = true
  ownKeys : ∀ slot, (liveKeys (slots slot)).Nodup
  keys : ∀ first second, first ≠ second →
    List.Disjoint (liveKeys (slots first)) (liveKeys (slots second))

theorem validateSuccessorLane_iff (laneNonce : Nonce)
    (slots : Fin 64 → Option SelectedSuccessorFrame)
    (change : Option (Fin 64 × SuccessorFrame)) :
    validateSuccessorLane laneNonce slots change = true ↔
      SuccessorLaneValid laneNonce (changed slots (change.map fun (slot, frame) =>
        (slot, ⟨laneNonce, frame⟩))) := by
  unfold validateSuccessorLane
  generalize changed slots _ = lane
  rw [scanSuccessorLane_isSome laneNonce nodup_nil, nil_append, flatMap_map,
    Table.nodup_flatMap_finRange]
  simp only [List.mem_map, mem_finRange, true_and, forall_exists_index,
    forall_apply_eq_imp_iff]
  constructor
  · rintro ⟨frames, ownKeys, keys⟩
    exact ⟨frames, ownKeys, keys⟩
  · rintro ⟨frames, ownKeys, keys⟩
    exact ⟨frames, ownKeys, keys⟩

/-! ### Pins -/

/-- The acknowledgements in force, each with the slot of the successor that made it. -/
def Acknowledges (slots : Fin 64 → Option SelectedSuccessorFrame) (slot : Fin 64)
    (acknowledgement : SuccessorAcknowledgement) : Prop :=
  acknowledgement ∈ liveAcknowledgements (slots slot)

variable {slots : Fin 64 → Option SelectedSuccessorFrame}
  {acknowledgement : SuccessorAcknowledgement} {slot : Fin 64}

theorem recoverySlot_mem_liveKeys (acknowledged : Acknowledges slots slot acknowledgement) :
    .recoverySlot acknowledgement.recoverySlot ∈ liveKeys (slots slot) := by
  obtain ⟨record, live, member⟩ := mem_flatMap.mp acknowledged
  refine mem_flatMap.mpr ⟨record, live, ?_⟩
  exact mem_append_left _ (mem_append_right _ (List.mem_map_of_mem member))

variable {laneNonce : Nonce}

/-- No recovery slot is acknowledged twice. -/
theorem SuccessorLaneValid.acknowledgement_unique (valid : SuccessorLaneValid laneNonce slots)
    {first second : Fin 64} {one other : SuccessorAcknowledgement}
    (left : Acknowledges slots first one) (right : Acknowledges slots second other)
    (same : one.recoverySlot = other.recoverySlot) : first = second ∧ one = other := by
  have slotsEq : first = second := by
    by_contra different
    have inSecond := recoverySlot_mem_liveKeys right
    rw [← same] at inSecond
    exact valid.keys first second different (recoverySlot_mem_liveKeys left) inSecond
  subst slotsEq
  refine ⟨rfl, ?_⟩
  unfold Acknowledges liveAcknowledgements at left right
  cases live : liveSuccessor (slots first) with
  | none =>
    rw [live] at left
    cases left
  | some record =>
    rw [live, toList_some, flatMap_singleton] at left right
    obtain ⟨selected, held, recordEq⟩ := bind_eq_some_iff.mp live
    have recordValid := ((validateSuccessorFrame_iff _).mp
      (valid.frames first selected held).2).2.2 record recordEq
    have distinct := of_decide_eq_true recordValid
    exact inj_on_of_nodup_map distinct.2.2.2.2.2.2.2.2.2.1 left right same

theorem mem_allAcknowledgements (slots : Fin 64 → Option SelectedSuccessorFrame)
    (acknowledgement : SuccessorAcknowledgement) :
    acknowledgement ∈ (List.finRange 64).flatMap (fun slot =>
      liveAcknowledgements (slots slot)) ↔
      ∃ slot, Acknowledges slots slot acknowledgement := by
  rw [mem_flatMap]
  exact ⟨fun ⟨slot, _, member⟩ => ⟨slot, member⟩,
    fun ⟨slot, member⟩ => ⟨slot, mem_finRange slot, member⟩⟩

/-- In a valid lane a slot is unpinned exactly when nobody acknowledges it. -/
theorem recoveryPinSide_eq_none (valid : validateSuccessorLane laneNonce slots none = true)
    (recoverySlot : Fin 64) :
    recoveryPinSide laneNonce slots recoverySlot = some none ↔
      ∀ slot acknowledgement, Acknowledges slots slot acknowledgement →
        acknowledgement.recoverySlot ≠ recoverySlot := by
  unfold recoveryPinSide
  rw [if_pos valid, some_inj, map_eq_none_iff, find?_eq_none]
  simp only [mem_allAcknowledgements, decide_eq_true_iff, forall_exists_index]
  exact ⟨fun none slot acknowledgement member => none acknowledgement slot member,
    fun none acknowledgement slot member => none slot acknowledgement member⟩

/-- In a valid lane the pinned side is that of the one acknowledgement of the slot. -/
theorem recoveryPinSide_of_acknowledges (valid : validateSuccessorLane laneNonce slots none = true)
    (acknowledged : Acknowledges slots slot acknowledgement) :
    recoveryPinSide laneNonce slots acknowledgement.recoverySlot =
      some (some acknowledgement.recoverySide) := by
  have lane : SuccessorLaneValid laneNonce slots :=
    (validateSuccessorLane_iff laneNonce slots none).mp valid
  unfold recoveryPinSide
  rw [if_pos valid, some_inj, map_eq_some_iff]
  cases search : ((List.finRange 64).flatMap fun slot =>
      liveAcknowledgements (slots slot)).find? fun candidate =>
        candidate.recoverySlot = acknowledgement.recoverySlot with
  | none =>
    have absent := find?_eq_none.mp search acknowledgement
      ((mem_allAcknowledgements _ _).mpr ⟨slot, acknowledged⟩)
    exact absurd (decide_eq_true rfl) absent
  | some candidate =>
    have found := find?_some search
    have same : candidate.recoverySlot = acknowledgement.recoverySlot := of_decide_eq_true found
    obtain ⟨place, member⟩ := (mem_allAcknowledgements _ _).mp (mem_of_find?_eq_some search)
    rw [(lane.acknowledgement_unique member acknowledged same).2]
    exact ⟨acknowledgement, rfl, rfl⟩

end Axial.Fs
