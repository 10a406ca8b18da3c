/-
This file follows one prepared write into the control file. A write that arrives
whole turns a control file that loads as a journal into one that loads as the
journal with the write accepted; the pins are what makes this true for the
frames that live successors acknowledge.
-/

import Axial.Fs.Loading

namespace Axial.Fs

open Bytes Reader ControlFrame DoubleSlot Function List Option

/-! ### Regions of the control file -/

/-- Replace the contents of one region. -/
def Regions.write (regions : Regions) (domain : Domain) (slot : Fin 64) (side : Fin 2)
    (bytes : List UInt8) : Regions :=
  update regions domain (update (regions domain) slot
    (update (regions domain slot) side bytes))

theorem Regions.write_self (regions : Regions) (domain : Domain) (slot : Fin 64)
    (side : Fin 2) (bytes : List UInt8) :
    regions.write domain slot side bytes domain slot =
      update (regions domain slot) side bytes := by
  rw [Regions.write, update_self, update_self]

theorem Regions.write_domain (regions : Regions) (domain other : Domain) (slot : Fin 64)
    (side : Fin 2) (bytes : List UInt8) (different : other ≠ domain) :
    regions.write domain slot side bytes other = regions other := by
  rw [Regions.write, update_of_ne different]

theorem Regions.write_slot (regions : Regions) (domain : Domain) (slot other : Fin 64)
    (side : Fin 2) (bytes : List UInt8) (different : other ≠ slot) :
    regions.write domain slot side bytes domain other = regions domain other := by
  rw [Regions.write, update_self, update_of_ne different]

theorem offset_inside (domain : Domain) (slot : Fin 64) (side : Fin 2) :
    offset domain slot side + frameBytes ≤ controlBytes := by
  cases domain <;> simp only [offset, Domain.base, frameBytes, controlBytes] <;> omega

theorem offset_disjoint {domain other : Domain} {slot otherSlot : Fin 64}
    {side otherSide : Fin 2} (different : domain ≠ other ∨ slot ≠ otherSlot ∨ side ≠ otherSide) :
    offset domain slot side + frameBytes ≤ offset other otherSlot otherSide ∨
      offset other otherSlot otherSide + frameBytes ≤ offset domain slot side := by
  have apart : domain = other →
      slot.val * 2 + side.val ≠ otherSlot.val * 2 + otherSide.val := by
    rintro rfl same
    rcases different with impossible | slots | sides
    · exact impossible rfl
    · exact slots (Fin.ext (by omega))
    · exact sides (Fin.ext (by omega))
  cases domain <;> cases other <;>
    simp only [offset, Domain.base, frameBytes, forall_const, reduceCtorEq, false_implies]
      at apart ⊢ <;> omega

variable {control : List UInt8}

/-- Overwriting one frame of the control file replaces one region. -/
theorem controlRegions_splice {bytes : List UInt8} (domain : Domain) (slot : Fin 64) (side : Fin 2)
    (length : control.length = controlBytes) (sized : bytes.length = frameBytes) :
    controlRegions (splice control (offset domain slot side) bytes) =
      (controlRegions control).write domain slot side bytes := by
  have inside := offset_inside domain slot side
  have fits : offset domain slot side + bytes.length ≤ control.length := by
    rw [sized, length]
    exact inside
  have kept : ∀ other otherSlot otherSide,
      domain ≠ other ∨ slot ≠ otherSlot ∨ side ≠ otherSide →
      controlRegions (splice control (offset domain slot side) bytes) other otherSlot otherSide =
        controlRegions control other otherSlot otherSide := by
    intro other otherSlot otherSide different
    refine slice_splice_disjoint fits ?_
    rw [sized]
    exact (offset_disjoint different).symm
  funext other otherSlot otherSide
  by_cases sameDomain : other = domain
  · subst sameDomain
    by_cases sameSlot : otherSlot = slot
    · subst sameSlot
      rw [Regions.write_self]
      by_cases sameSide : otherSide = side
      · subst sameSide
        rw [update_self, controlRegions, ← sized]
        exact slice_splice_self fits
      · rw [update_of_ne sameSide]
        exact kept _ _ _ (Or.inr (Or.inr (Ne.symm sameSide)))
    · rw [Regions.write_slot _ _ _ _ _ _ sameSlot]
      exact kept _ _ _ (Or.inr (Or.inl (Ne.symm sameSlot)))
  · rw [Regions.write_domain _ _ _ _ _ _ sameDomain]
    exact kept _ _ _ (Or.inl (Ne.symm sameDomain))

theorem controlRegions_length (length : control.length = controlBytes) (domain : Domain)
    (slot : Fin 64) (side : Fin 2) :
    (controlRegions control domain slot side).length = frameBytes :=
  slice_length (by rw [length]; exact offset_inside domain slot side)

/-! ### Prepared writes -/

namespace PendingWrite

def domain : PendingWrite → Domain
  | recovery .. => .recovery
  | successor .. => .successor

def slot : PendingWrite → Fin 64
  | recovery registration .. => registration.slot
  | successor slot .. => slot

def side : PendingWrite → Fin 2
  | recovery _ intended .. => generationSide intended.generation
  | successor _ intended .. => generationSide intended.generation

def offset : PendingWrite → Nat
  | recovery _ _ offset _ => offset
  | successor _ _ offset _ => offset

def encoded : PendingWrite → List UInt8
  | recovery _ _ _ encoded => encoded
  | successor _ _ _ encoded => encoded

end PendingWrite

/-- The regions after a pending write has left `bytes` behind. -/
def Regions.pending (regions : Regions) (pending : PendingWrite) (bytes : List UInt8) :
    Regions :=
  regions.write pending.domain pending.slot pending.side bytes

theorem Regions.pending_self (regions : Regions) (pending : PendingWrite) (bytes : List UInt8) :
    regions.pending pending bytes pending.domain pending.slot =
      update (regions pending.domain pending.slot) pending.side bytes :=
  regions.write_self ..

/-- What every operation guarantees of the write it prepares: the transition is valid, and the
bytes are those of the intended frame at its place. -/
def Prepared (host : Host) (journal : RecoveryJournal) : PendingWrite → Prop
  | .recovery registration intended offset encoded =>
    validateRecoveryTransition host journal registration intended = true ∧
    offset = ControlFrame.offset .recovery registration.slot
      (generationSide intended.generation) ∧
    encodeRecoveryFrame host intended
      ⟨journal.laneNonce, registration.slot, generationSide intended.generation⟩ = some encoded
  | .successor slot intended offset encoded =>
    validateSuccessorTransition journal slot intended = true ∧
    offset = ControlFrame.offset .successor slot (generationSide intended.generation) ∧
    encodeSuccessorFrame host intended journal.laneNonce slot = some encoded ∧
    ∀ record, intended.record = some record → ∀ acknowledgement ∈ record.acknowledgements,
      acknowledgementHolds journal.slots journal.physical acknowledgement = true

variable {journal : RecoveryJournal} {host : Host}

theorem Prepared.offset {pending : PendingWrite} (prepared : Prepared host journal pending) :
    pending.offset = ControlFrame.offset pending.domain pending.slot pending.side := by
  cases pending <;> exact prepared.2.1

theorem Prepared.encoded_length {pending : PendingWrite} (prepared : Prepared host journal pending)
    : pending.encoded.length = frameBytes := by
  cases pending with
  | recovery => exact (encodeFrame_eq_some prepared.2.2).2.2.1
  | successor => exact (encodeFrame_eq_some prepared.2.2.1).2.2.1

variable {registration : RecoveryRegistration}

theorem prepareWrite_prepared {record : Option RecoveryRecord} {pending : PendingWrite}
    (accepted : prepareWrite host journal registration record = some pending) :
    Prepared host journal pending ∧ journal.pending = none ∧ journal.checkedOut = false := by
  unfold prepareWrite at accepted
  simp only [bind_eq_some, ite_none_right_eq_some, some_inj] at accepted
  obtain ⟨generation, _, candidate, encoded, written, rfl⟩ := accepted
  unfold validateCandidate at candidate
  rw [Bool.and_eq_true, Bool.and_eq_true] at candidate
  obtain ⟨⟨free, idle⟩, valid⟩ := candidate
  exact ⟨⟨valid, rfl, written⟩, isNone_iff_eq_none.mp idle, by simpa using free⟩

theorem successorPending_eq_some {slot : Fin 64} {frame : SuccessorFrame} {pending : PendingWrite}
    (accepted : successorPending host journal slot frame = some pending) :
    ∃ encoded, validateSuccessorTransition journal slot frame = true ∧
      encodeSuccessorFrame host frame journal.laneNonce slot = some encoded ∧
      pending = .successor slot frame
        (ControlFrame.offset .successor slot (generationSide frame.generation)) encoded := by
  unfold successorPending at accepted
  simp only [bind_eq_some, ite_none_right_eq_some, some_inj] at accepted
  obtain ⟨valid, encoded, written, rfl⟩ := accepted
  exact ⟨encoded, valid, written, rfl⟩

theorem acknowledgementHolds_iff (slots : Fin 64 → Option RecoveryFrame)
    (physical : Fin 64 → Fin 2 → Option RecoveryFrameReceipt)
    (acknowledgement : SuccessorAcknowledgement) :
    acknowledgementHolds slots physical acknowledgement = true ↔
      ∃ selected receipt, slots acknowledgement.recoverySlot = some selected ∧
        physical acknowledgement.recoverySlot acknowledgement.recoverySide = some receipt ∧
        ((selected.generation = acknowledgement.recoveryGeneration ∧
            selected.record.map RecoveryRecord.operationId =
              some acknowledgement.operationId) ∨
          (selected.generation = acknowledgement.recoveryGeneration + 1 ∧
            selected.record = none)) ∧
        receipt.frame.generation = acknowledgement.recoveryGeneration ∧
        receipt.frame.record.map RecoveryRecord.operationId =
          some acknowledgement.operationId ∧
        receipt.digest = acknowledgement.frameSha256 := by
  unfold acknowledgementHolds
  cases slots acknowledgement.recoverySlot with
  | none => simp
  | some selected =>
    cases physical acknowledgement.recoverySlot acknowledgement.recoverySide with
    | none => simp
    | some receipt =>
      simp only [Bool.and_eq_true, Bool.or_eq_true, decide_eq_true_iff,
        isNone_iff_eq_none, Option.some.injEq, and_assoc]
      constructor
      · intro holds
        exact ⟨selected, receipt, rfl, rfl, holds⟩
      · rintro ⟨_, _, rfl, rfl, holds⟩
        exact holds

variable {acknowledgement : SuccessorAcknowledgement}

/-- An acknowledgement that was just made names what is in force and on disk. -/
theorem acknowledge_holds (made : acknowledge journal registration = some acknowledgement) :
    acknowledgementHolds journal.slots journal.physical acknowledgement = true := by
  unfold acknowledge at made
  simp only [bind_eq_some, ite_none_right_eq_some, some_inj] at made
  obtain ⟨frame, held, receipt, present, ⟨operation, generation, receiptOperation⟩, rfl⟩ := made
  exact (acknowledgementHolds_iff ..).mpr ⟨frame, receipt, held, present,
    Or.inl ⟨generation.symm, operation⟩, rfl, receiptOperation, rfl⟩

variable {registrations : List RecoveryRegistration}

theorem mem_mapM_acknowledge {acknowledgements : List SuccessorAcknowledgement}
    (made : registrations.mapM (acknowledge journal) = some acknowledgements)
    (member : acknowledgement ∈ acknowledgements) :
    ∃ registration, acknowledge journal registration = some acknowledgement := by
  induction registrations generalizing acknowledgements with
  | nil =>
    obtain rfl : [] = acknowledgements := some_inj.mp made
    cases member
  | cons registration registrations ih =>
    simp only [mapM_cons, bind_eq_some, pure_eq_some] at made
    obtain ⟨first, madeFirst, others, madeOthers, rfl⟩ := made
    rcases mem_cons.mp member with rfl | later
    · exact ⟨registration, madeFirst⟩
    · exact ih madeOthers later

variable {record : SuccessorRecord} {transfer : Nonce}

/-- What an accepted `create_successor` writes. -/
theorem prepareSuccessor_eq_some {pending : PendingWrite}
    (accepted : prepareSuccessor host journal record registrations transfer = some pending) :
    journal.pending = none ∧ journal.checkedOut = false ∧
    ∃ acknowledgements slot generation,
      registrations.mapM (acknowledge journal) = some acknowledgements ∧
      nextSuccessorGeneration ((journal.successors slot).map fun selected =>
        selected.frame.generation) = some generation ∧
      (record.ownerClass = .state → stateRecoveries host journal { record with
        transferId := transfer.val
        acknowledgements := acknowledgements } ≠ none) ∧
      successorPending host journal slot ⟨generation, some { record with
        transferId := transfer.val
        acknowledgements := acknowledgements }⟩ = some pending := by
  unfold prepareSuccessor at accepted
  rw [ite_none_left_eq_some] at accepted
  obtain ⟨ready, accepted⟩ := accepted
  simp only [bind_eq_some, ite_none_left_eq_some]
    at accepted
  obtain ⟨acknowledgements, made, slot, _, generation, next, owned, written⟩ := accepted
  obtain ⟨free, idle⟩ := not_or.mp ready
  refine ⟨by simpa using idle, by simpa using free, acknowledgements, slot, generation, made,
    next, ?_, written⟩
  intro isState missing
  exact owned ⟨isState, missing⟩

theorem prepareSuccessor_prepared {pending : PendingWrite}
    (accepted : prepareSuccessor host journal record registrations transfer = some pending) :
    Prepared host journal pending ∧ journal.pending = none ∧ journal.checkedOut = false := by
  obtain ⟨idle, free, acknowledgements, slot, generation, made, _, _, written⟩ :=
    prepareSuccessor_eq_some accepted
  obtain ⟨encoded, valid, encodes, rfl⟩ := successorPending_eq_some written
  refine ⟨⟨valid, rfl, encodes, ?_⟩, idle, free⟩
  intro found recordEq acknowledgement member
  obtain rfl := some_inj.mp recordEq
  obtain ⟨registration, madeOne⟩ := mem_mapM_acknowledge made member
  exact acknowledge_holds madeOne

variable {key : SuccessorOwnerKey}

/-- What an accepted `tombstone_successor` writes. -/
theorem prepareTombstone_eq_some {pending : PendingWrite}
    (accepted : prepareTombstone host journal key = some pending) :
    journal.pending = none ∧ journal.checkedOut = false ∧
    ∃ record, selectedLiveSuccessor journal key = some record ∧
      (∀ acknowledgement ∈ record.acknowledgements,
        acknowledgementReady journal acknowledgement = true) ∧
      successorPending host journal key.slot ⟨key.generation + 1, none⟩ = some pending := by
  unfold prepareTombstone at accepted
  rw [ite_none_left_eq_some] at accepted
  obtain ⟨ready, accepted⟩ := accepted
  simp only [bind_eq_some, ite_none_right_eq_some]
    at accepted
  obtain ⟨record, selected, done, written⟩ := accepted
  obtain ⟨free, idle⟩ := not_or.mp ready
  exact ⟨by simpa using idle, by simpa using free, record, selected, done, written⟩

theorem prepareTombstone_prepared {pending : PendingWrite}
    (accepted : prepareTombstone host journal key = some pending) :
    Prepared host journal pending ∧ journal.pending = none ∧ journal.checkedOut = false := by
  obtain ⟨idle, free, _, _, _, written⟩ := prepareTombstone_eq_some accepted
  obtain ⟨encoded, valid, encodes, rfl⟩ := successorPending_eq_some written
  exact ⟨⟨valid, rfl, encodes, nofun⟩, idle, free⟩

/-! ### Slots of a control file that loads -/

/-- A control file that a fresh start reads as this journal. -/
abbrev Intact (host : Host) (regions : Regions) (journal : RecoveryJournal) : Prop :=
  Observed host regions none journal

/-- What a fresh start finds in a recovery slot. -/
structure RecoverySides (host : Host) (regions : Regions) (journal : RecoveryJournal)
    (slot : Fin 64) (sides : Fin 2 → RecoveryProbe) : Prop where
  read : readSides (recoveryFormat host) host (regions .recovery slot) slot = some sides
  selected : current (recoveryFormat host).discipline sides =
    some ((journal.slots slot).map (Selected.mk journal.laneNonce))
  lanes : ∀ side selected, sides side = .valid selected →
    selected.laneNonce = journal.laneNonce
  physical : ∀ side, journal.physical slot side =
    receipt host (sides side) (regions .recovery slot side)

/-- What a fresh start finds in a successor slot. -/
structure SuccessorSides (host : Host) (regions : Regions) (journal : RecoveryJournal)
    (slot : Fin 64) (sides : Fin 2 → SuccessorProbe) : Prop where
  read : readSides successorFormat host (regions .successor slot) slot = some sides
  selected : current successorFormat.discipline sides = some (journal.successors slot)

theorem readsRecovery_iff (host : Host) (regions : Regions) (journal : RecoveryJournal)
    (slot : Fin 64) :
    ReadsRecovery host regions none journal slot ↔
      ∃ sides, RecoverySides host regions journal slot sides := by
  constructor
  · rintro ⟨reading, read, selected, lanes, physical⟩
    obtain ⟨readable, selects⟩ := (readSlot_none_eq_some ..).mp read
    exact ⟨reading.sides, readable, by rw [selects, selected], lanes, physical⟩
  · rintro ⟨sides, read, selected, lanes, physical⟩
    exact ⟨⟨sides, _⟩, (readSlot_none_eq_some ..).mpr ⟨read, selected⟩, rfl, lanes, physical⟩

theorem readsSuccessor_iff (host : Host) (regions : Regions) (journal : RecoveryJournal)
    (slot : Fin 64) :
    ReadsSuccessor host regions none journal slot ↔
      ∃ sides, SuccessorSides host regions journal slot sides := by
  constructor
  · rintro ⟨reading, read, selected⟩
    obtain ⟨readable, selects⟩ := (readSlot_none_eq_some ..).mp read
    exact ⟨reading.sides, readable, by rw [selects, selected]⟩
  · rintro ⟨sides, read, selected⟩
    exact ⟨⟨sides, _⟩, (readSlot_none_eq_some ..).mpr ⟨read, selected⟩, rfl⟩

variable {regions : Regions} {frame : RecoveryFrame} {sides : Fin 2 → RecoveryProbe}

/-- The frame in force in a recovery slot is physically present on its own side. -/
theorem RecoverySides.inForce {slot : Fin 64}
    (found : RecoverySides host regions journal slot sides) (held : journal.slots slot = some frame)
    :
    sides (generationSide frame.generation) = .valid ⟨journal.laneNonce, frame⟩ ∧
      Beside (recoveryFormat host).discipline ⟨journal.laneNonce, frame⟩
        (sides (other (generationSide frame.generation))) := by
  have selected := found.selected
  rw [held] at selected
  exact (readSides_placed found.read).current selected

theorem SuccessorSides.inForce {slot : Fin 64} {sides : Fin 2 → SuccessorProbe}
    (found : SuccessorSides host regions journal slot sides) {selected : SelectedSuccessorFrame}
    (held : journal.successors slot = some selected) :
    sides (generationSide selected.frame.generation) = .valid selected ∧
      Beside successorFormat.discipline selected
        (sides (other (generationSide selected.frame.generation))) := by
  have inForce := found.selected
  rw [held] at inForce
  exact (readSides_placed found.read).current inForce

/-- A receipt belongs to a frame that probes as valid, on the side of its generation. -/
theorem RecoverySides.receipt {slot : Fin 64}
    (found : RecoverySides host regions journal slot sides) {side : Fin 2}
    {present : RecoveryFrameReceipt} (held : journal.physical slot side = some present) :
    sides side = .valid ⟨journal.laneNonce, present.frame⟩ ∧
      present.digest = host.sha256 (regions .recovery slot side) ∧
      generationSide present.frame.generation = side := by
  rw [found.physical side] at held
  cases probed : sides side with
  | empty | torn => rw [probed] at held; cases held
  | valid selected =>
    rw [probed] at held
    obtain rfl := some_inj.mp held
    have lane := found.lanes side selected probed
    refine ⟨?_, rfl, readSides_placed found.read side selected probed⟩
    show DoubleSlot.Probe.valid selected = _
    rw [← lane]

/-! ### Pins -/

/-- What a valid transition says about an acknowledgement of the slot it writes: it is the
tombstone of the very frame that is acknowledged, on the side opposite to it. -/
theorem pinned_transition (intact : Intact host regions journal)
    (valid : validateRecoveryTransition host journal registration frame = true) {slot : Fin 64}
    (acknowledged : Acknowledges journal.successors slot acknowledgement)
    (same : acknowledgement.recoverySlot = registration.slot) :
    frame.record = none ∧
      frame.generation = acknowledgement.recoveryGeneration + 1 ∧
      acknowledgement.recoverySide ≠ generationSide frame.generation := by
  have lane : validateSuccessorLane journal.laneNonce journal.successors none = true :=
    (validateSuccessorLane_iff ..).mpr intact.successorLane
  have pin := recoveryPinSide_of_acknowledges lane acknowledged
  rw [same] at pin
  unfold validateRecoveryTransition at valid
  rw [pin] at valid
  simp only [Bool.and_eq_true, Bool.or_eq_true, pinAllows, decide_eq_true_iff,
    isNone_iff_eq_none] at valid
  obtain ⟨⟨⟨⟨⟨⟨_, _⟩, occupied⟩, _⟩, advances⟩, _⟩, ⟨tombstone, _⟩, away⟩ := valid
  obtain ⟨selected, _, held, _, inForce, _⟩ :=
    (acknowledgementHolds_iff ..).mp (intact.acknowledged slot acknowledgement acknowledged)
  rw [same] at held
  rw [held, tombstone] at occupied
  have previousLive : selected.record ≠ none := by
    intro absent
    simp [absent] at occupied
  have generation : selected.generation = acknowledgement.recoveryGeneration := by
    rcases inForce with ⟨generation, _⟩ | ⟨_, absent⟩
    · exact generation
    · exact absurd absent previousLive
  obtain ⟨_, stepped, _⟩ := (validateRecoveryAdvance_iff ..).mp advances
  rw [held] at stepped
  have next : frame.generation = selected.generation + 1 :=
    eq_add_one_of_nextGeneration stepped
  exact ⟨tombstone, by rw [next, generation], away⟩

/-! ### Whole writes -/

theorem transition_advances
    (valid : validateRecoveryTransition host journal registration frame = true) :
    validateRecoveryAdvance host (journal.slots registration.slot) frame = true ∧
      LaneValid host (update journal.slots registration.slot (some frame)) := by
  unfold validateRecoveryTransition at valid
  simp only [Bool.and_eq_true] at valid
  exact ⟨valid.1.1.2, (validateLaneSlots_iff ..).mp valid.1.2⟩

/-- A recovery frame that arrives whole. -/
theorem intact_recoveryWrite (intact : Intact host regions journal) {encoded : List UInt8}
    (valid : validateRecoveryTransition host journal registration frame = true)
    (written : encodeRecoveryFrame host frame
      ⟨journal.laneNonce, registration.slot, generationSide frame.generation⟩ = some encoded) :
    Intact host (regions.write .recovery registration.slot (generationSide frame.generation)
      encoded)
    { journal with
      slots := update journal.slots registration.slot (some frame)
      physical := update journal.physical registration.slot
        (update (journal.physical registration.slot) (generationSide frame.generation)
          (some ⟨frame, host.sha256 encoded⟩)) } := by
  obtain ⟨advances, laneSlots⟩ := transition_advances valid
  refine ⟨fun slot => (readsRecovery_iff ..).mpr ?_, fun slot => (readsSuccessor_iff ..).mpr ?_,
    laneSlots, intact.successorLane, ?_, intact.pending, intact.checkedOut⟩
  · obtain ⟨sides, found⟩ := (readsRecovery_iff ..).mp (intact.recovery slot)
    by_cases same : slot = registration.slot
    · subst same
      obtain ⟨read, selected⟩ := readSides_write found.read found.selected advances written
      refine ⟨_, by rw [Regions.write_self]; exact read,
        by rw [selected]; simp only [update_self, map_some], ?_, ?_⟩
      · intro side candidate holds
        by_cases here : side = generationSide frame.generation
        · subst here
          rw [update_self] at holds
          injection holds with equal
          rw [← equal]
        · rw [update_of_ne here] at holds
          exact found.lanes side candidate holds
      · intro side
        simp only [update_self, Regions.write_self]
        by_cases here : side = generationSide frame.generation
        · subst here
          rw [update_self, update_self, update_self]
          rfl
        · rw [update_of_ne here, update_of_ne here, update_of_ne here]
          exact found.physical side
    · refine ⟨sides, ?_, ?_, found.lanes, ?_⟩
      · rw [Regions.write_slot _ _ _ _ _ _ same]
        exact found.read
      · simp only [update_of_ne same]
        exact found.selected
      · intro side
        simp only [update_of_ne same, Regions.write_slot _ _ _ _ _ _ same]
        exact found.physical side
  · obtain ⟨sides, read, selected⟩ := (readsSuccessor_iff ..).mp (intact.successors slot)
    refine ⟨sides, ?_, selected⟩
    rw [Regions.write_domain _ _ _ _ _ _ (by decide)]
    exact read
  · intro slot acknowledgement acknowledged
    have before := intact.acknowledged slot acknowledgement acknowledged
    obtain ⟨selected, present, held, onDisk, inForce, rest⟩ :=
      (acknowledgementHolds_iff ..).mp before
    refine (acknowledgementHolds_iff ..).mpr ?_
    by_cases same : acknowledgement.recoverySlot = registration.slot
    · obtain ⟨tombstone, generation, away⟩ :=
        pinned_transition intact valid acknowledged same
      refine ⟨frame, present, ?_, ?_, Or.inr ⟨generation, tombstone⟩, rest⟩
      · simp only [same, update_self]
      · simp only [same, update_self, update_of_ne away]
        rw [← same]
        exact onDisk
    · refine ⟨selected, present, ?_, ?_, inForce, rest⟩
      · simp only [update_of_ne same]
        exact held
      · simp only [update_of_ne same]
        exact onDisk

theorem changed_selected (journal : RecoveryJournal) (slot : Fin 64) (frame : SuccessorFrame) :
    changed journal.successors ((some (slot, frame)).map fun (slot, frame) =>
      (slot, (⟨journal.laneNonce, frame⟩ : SelectedSuccessorFrame))) =
      update journal.successors slot (some ⟨journal.laneNonce, frame⟩) := rfl

/-- A successor frame that arrives whole. -/
theorem intact_successorWrite (intact : Intact host regions journal) {slot : Fin 64}
    {frame : SuccessorFrame} {encoded : List UInt8}
    (valid : validateSuccessorTransition journal slot frame = true)
    (written : encodeSuccessorFrame host frame journal.laneNonce slot = some encoded)
    (holds : ∀ record, frame.record = some record →
      ∀ acknowledgement ∈ record.acknowledgements,
        acknowledgementHolds journal.slots journal.physical acknowledgement = true) :
    Intact host (regions.write .successor slot (generationSide frame.generation) encoded)
    { journal with
      successors := update journal.successors slot
        (some ⟨journal.laneNonce, frame⟩) } := by
  unfold validateSuccessorTransition at valid
  rw [Bool.and_eq_true] at valid
  have lane := (validateSuccessorLane_iff ..).mp valid.2
  rw [changed_selected] at lane
  refine ⟨fun place => (readsRecovery_iff ..).mpr ?_,
    fun place => (readsSuccessor_iff ..).mpr ?_, intact.laneSlots, lane, ?_, intact.pending,
    intact.checkedOut⟩
  · obtain ⟨sides, read, selected, lanes, physical⟩ :=
      (readsRecovery_iff ..).mp (intact.recovery place)
    have same := Regions.write_domain regions .successor .recovery slot
      (generationSide frame.generation) encoded (by decide)
    exact ⟨sides, by rw [same]; exact read, selected, lanes, by rw [same]; exact physical⟩
  · obtain ⟨sides, read, selected⟩ := (readsSuccessor_iff ..).mp (intact.successors place)
    by_cases same : place = slot
    · subst same
      have ownLane : journal.successors place =
          ((journal.successors place).map Selected.frame).map
            (Selected.mk journal.laneNonce) := by
        cases inForce : journal.successors place with
        | none => rfl
        | some found =>
          rw [map_some, map_some,
            ← (intact.successorLane.frames place found inForce).1]
      rw [ownLane] at selected
      obtain ⟨readNext, selectedNext⟩ := readSides_write read selected valid.1 written
      refine ⟨_, by rw [Regions.write_self]; exact readNext, ?_⟩
      rw [selectedNext]
      simp only [update_self]
    · refine ⟨sides, ?_, ?_⟩
      · rw [Regions.write_slot _ _ _ _ _ _ same]
        exact read
      · simp only [update_of_ne same]
        exact selected
  · intro place acknowledgement acknowledged
    by_cases same : place = slot
    · subst same
      obtain ⟨record, live, member⟩ := mem_flatMap.mp acknowledged
      simp only [liveSuccessor, update_self, bind_some, mem_toList]
        at live
      exact holds record live acknowledgement member
    · refine intact.acknowledged place acknowledgement ?_
      simp only [Acknowledges, update_of_ne same] at acknowledged
      exact acknowledged

/-- The journal with a prepared write in flight. -/
def RecoveryJournal.sending (journal : RecoveryJournal) (pending : PendingWrite) :
    RecoveryJournal :=
  { journal with pending := some pending }

/-- A prepared write that arrives whole leaves a control file that loads as the journal with
the write accepted. -/
theorem Intact.accept (intact : Intact host regions journal) {pending : PendingWrite}
    (prepared : Prepared host journal pending) :
    Intact host (regions.pending pending pending.encoded)
      (acceptPending host (journal.sending pending)) := by
  have idle := intact.pending
  cases pending with
  | recovery registration intended offset encoded =>
    have written := intact_recoveryWrite intact prepared.1 prepared.2.2
    simp only [idle] at written
    exact written
  | successor slot intended offset encoded =>
    have written := intact_successorWrite intact prepared.1 prepared.2.2.1 prepared.2.2.2
    simp only [idle] at written
    exact written

end Axial.Fs
