/-
This file asks whether a lane can always be emptied by accepted operations. It can,
as long as no successor has taken over a record whose stage is sealed: such a record
may not be cleared, and the pin keeps it from moving on.
-/

import Axial.Fs.Pins

namespace Axial.Fs

open Bytes Reader ControlFrame DoubleSlot Relation Function List Store
open Option (any_some bind_eq_bind bind_eq_some_iff bind_some map_some mem_toList some_inj)

/-! ### Lanes that shrink -/

variable {frame : RecoveryFrame} {slot : Fin 64}

/-- Replacing one slot by something smaller keeps a lane valid. -/
theorem LaneValid.shrink {host : Host} {slots : Fin 64 → Option RecoveryFrame}
    (valid : LaneValid host slots) (generation : frame.generation ≠ maxGeneration)
    (operationIds : liveOperationIds (some frame) ⊆ liveOperationIds (slots slot))
    (footprints : (liveFootprints host (some frame)).Sublist (liveFootprints host (slots slot)))
    (bytes : liveBytes (some frame) ≤ liveBytes (slots slot)) :
    LaneValid host (update slots slot (some frame)) := by
  have operations : ∀ other, liveOperationIds (update slots slot (some frame) other) ⊆
      liveOperationIds (slots other) := by
    intro other
    by_cases same : other = slot
    · subst same
      rw [update_self]
      exact operationIds
    · rw [update_of_ne same]
      exact List.Subset.refl _
  have prints : ∀ other, (liveFootprints host
      (update slots slot (some frame) other)).Sublist
        (liveFootprints host (slots other)) := by
    intro other
    by_cases same : other = slot
    · subst same
      rw [update_self]
      exact footprints
    · rw [update_of_ne same]
  refine ⟨fun other found held => ?_, fun first second different => ?_,
    fun other => (valid.ownFootprints other).sublist (prints other),
    fun first second different => ?_, ?_⟩
  · by_cases same : other = slot
    · subst same
      rw [update_self, some_inj] at held
      rw [← held]
      exact generation
    · rw [update_of_ne same] at held
      exact valid.generations other found held
  · exact disjoint_of_subset_left (operations first)
      (disjoint_of_subset_right (operations second)
        (valid.operationIds first second different))
  · exact disjoint_of_subset_left (prints first).subset
      (disjoint_of_subset_right (prints second).subset
        (valid.footprints first second different))
  · refine (Finset.sum_le_sum fun other _ => ?_).trans valid.budget
    by_cases same : other = slot
    · subst same
      rw [update_self]
      exact bytes
    · rw [update_of_ne same]

/-! ### Transitions that are always open -/

variable {journal : RecoveryJournal} {regions : Regions}

/-- The frame in force in a slot is a valid one. -/
theorem Intact.frame_valid {host : Host} (intact : Intact host regions journal)
    (held : journal.slots slot = some frame) : validateRecoveryFrame host frame = true := by
  obtain ⟨sides, found⟩ := (readsRecovery_iff ..).mp (intact.recovery slot)
  have probed := (readSides_eq_some ..).mp found.read (generationSide frame.generation)
  rw [(found.inForce held).1] at probed
  exact (encodeFrame_eq_some ((probeFrame_eq_valid ..).mp probed)).1

variable {generation : UInt64}

theorem nextGeneration_succ (positive : generation ≠ 0)
    (below : generation.toNat + 1 < maxGeneration.toNat) :
    nextGeneration (some generation) = some (generation + 1) ∧
      (generation + 1).toNat = generation.toNat + 1 ∧ generation + 1 ≠ 0 ∧
      generation + 1 ≠ maxGeneration := by
  have bound := maxGeneration.toNat_lt
  have sum : (generation + 1).toNat = generation.toNat + 1 := by
    rw [UInt64.toNat_add]
    exact Nat.mod_eq_of_lt (by simp only [UInt64.toNat_one]; omega)
  refine ⟨(nextGeneration_eq_some ..).mpr ⟨positive, sum⟩, sum, fun zero => ?_, fun last => ?_⟩
  · rw [zero] at sum
    cases sum
  · rw [← last, sum] at below
    exact lt_irrefl _ below

variable {live : RecoveryRecord} {registration : RecoveryRegistration}

theorem validateRecoveryTransition_of {host : Host} {previous : RecoveryFrame}
    (held : journal.slots registration.slot = some previous)
    (occupied : previous.record = some live) (own : live.operationId = registration.operationId)
    (named : registration.operationId ≠ Fixed.zero 16)
    (kept : ∀ record, frame.record = some record →
      record.operationId = registration.operationId)
    (advance : validateRecoveryAdvance host (some previous) frame = true)
    (lane : LaneValid host (update journal.slots registration.slot (some frame)))
    (pin : recoveryPinSide journal.laneNonce journal.successors registration.slot = some none ∨
      ∃ side, recoveryPinSide journal.laneNonce journal.successors registration.slot =
        some (some side) ∧ pinAllows side (some previous) frame = true) :
    validateRecoveryTransition host journal registration frame = true := by
  have changes : validateLaneSlots host journal.slots (some (registration.slot, frame)) = true :=
    (validateLaneSlots_iff ..).mpr lane
  have matching : frame.record.all (fun record =>
      decide (record.operationId = registration.operationId)) = true := by
    cases recorded : frame.record with
    | none => rfl
    | some record => exact decide_eq_true (kept record recorded)
  unfold validateRecoveryTransition
  simp only [held, bind_some, occupied, Option.all_some, own, Option.isSome_some,
    Bool.or_true, advance, changes, matching, named, ne_eq, not_false_eq_true, decide_true,
    Bool.and_true, Bool.true_and]
  rcases pin with unpinned | ⟨side, pinned, allowed⟩
  · rw [unpinned]
  · rw [pinned]
    exact allowed

/-- The pin of a slot that holds a live record is the side of the frame in force. -/
theorem Intact.pin_of_live {host : Host} (intact : Intact host regions journal)
    (held : journal.slots slot = some frame) (occupied : frame.record = some live) :
    recoveryPinSide journal.laneNonce journal.successors slot = some none ∨
      recoveryPinSide journal.laneNonce journal.successors slot =
        some (some (generationSide frame.generation)) := by
  have lane : validateSuccessorLane journal.laneNonce journal.successors none = true :=
    (validateSuccessorLane_iff ..).mpr intact.successorLane
  by_cases pinned : ∃ successor acknowledgement,
      Acknowledges journal.successors successor acknowledgement ∧
        acknowledgement.recoverySlot = slot
  · obtain ⟨successor, acknowledgement, acknowledged, same⟩ := pinned
    right
    rw [← same, recoveryPinSide_of_acknowledges lane acknowledged]
    obtain ⟨selected, present, inForce, onDisk, current, generation, _⟩ :=
      (acknowledgementHolds_iff ..).mp
        (intact.acknowledged successor acknowledgement acknowledged)
    rw [same, held, some_inj] at inForce
    subst inForce
    have equal : frame.generation = acknowledgement.recoveryGeneration := by
      rcases current with ⟨equal, _⟩ | ⟨_, absent⟩
      · exact equal
      · rw [occupied] at absent
        cases absent
    obtain ⟨sides, found⟩ :=
      (readsRecovery_iff ..).mp (intact.recovery acknowledgement.recoverySlot)
    rw [equal, ← generation, (found.receipt onDisk).2.2]
  · left
    refine (recoveryPinSide_eq_none lane slot).mpr fun successor acknowledgement acknowledged =>
      fun same => pinned ⟨successor, acknowledgement, acknowledged, same⟩

/-- A live record whose stage is not sealed can be cleared, pinned or not. -/
theorem Intact.clear_valid {host : Host} (intact : Intact host regions journal)
    (held : journal.slots slot = some frame) (occupied : frame.record = some live)
    (unsealed : live.phase ≠ .stageSealed)
    (below : frame.generation.toNat + 1 < maxGeneration.toNat) :
    validateRecoveryTransition host journal ⟨slot, live.operationId⟩
      ⟨frame.generation + 1, none⟩ = true := by
  have valid := intact.frame_valid held
  unfold validateRecoveryFrame at valid
  rw [Bool.and_eq_true, decide_eq_true_iff, occupied] at valid
  obtain ⟨next, _, notZero, notLast⟩ := nextGeneration_succ valid.1 below
  have opposite : generationSide (frame.generation + 1) =
      other (generationSide frame.generation) := by
    rw [generationSide_eq_home, generationSide_eq_home,
      ((nextGeneration_eq_some ..).mp next).2, home_succ]
  refine validateRecoveryTransition_of held occupied rfl
    (of_decide_eq_true valid.2).1 nofun ?_ ?_ ?_
  · refine (validateRecoveryAdvance_iff ..).mpr ⟨?_, next, ?_⟩
    · unfold validateRecoveryFrame
      rw [Bool.and_eq_true, decide_eq_true_iff]
      exact ⟨notZero, rfl⟩
    · show advancesRecord ((some frame).bind Frame.record) none = true
      rw [bind_some, occupied]
      exact decide_eq_true unsealed
  · exact intact.laneSlots.shrink notLast (nil_subset _) (nil_sublist _)
      (Nat.zero_le _)
  · refine (intact.pin_of_live held occupied).imp_right fun pinned => ⟨_, pinned, ?_⟩
    simp only [pinAllows, map_some, Option.getD_some, opposite, Option.isNone_none,
      decide_true, Bool.true_and, decide_eq_true_iff]
    exact (other_ne _).symm

/-- A sealed stage that nobody has taken over can be abandoned. -/
theorem Intact.abandon_valid {host : Host} (intact : Intact host regions journal)
    (held : journal.slots slot = some frame) (occupied : frame.record = some live)
    (isSealed : live.phase = .stageSealed)
    (unpinned : recoveryPinSide journal.laneNonce journal.successors slot = some none)
    (below : frame.generation.toNat + 1 < maxGeneration.toNat) :
    validateRecoveryTransition host journal ⟨slot, live.operationId⟩
      ⟨frame.generation + 1, some { live with phase := .removePrepared }⟩ = true := by
  have valid := intact.frame_valid held
  unfold validateRecoveryFrame at valid
  rw [Bool.and_eq_true, decide_eq_true_iff, occupied] at valid
  obtain ⟨next, _, notZero, notLast⟩ := nextGeneration_succ valid.1 below
  obtain ⟨named, depth, names, root, distinct, sizes, proofs⟩ :=
    of_decide_eq_true valid.2
  have fewer : (footprintKeys host { live with phase := .removePrepared }).Sublist
      (footprintKeys host live) := by
    unfold footprintKeys
    rw [append_assoc, append_assoc]
    refine List.Sublist.append (List.Sublist.refl _) ?_
    rw [if_neg (fun owns => by cases owns.2), if_neg (fun owns => by cases owns)]
    exact nil_sublist _
  have validNext : RecoveryRecord.validate host { live with phase := .removePrepared } = true := by
    refine decide_eq_true ⟨named, depth, names, root,
      distinct.sublist fewer, sizes, ?_⟩
    unfold RecoveryRecord.phaseProofs at proofs ⊢
    rw [isSealed] at proofs
    exact proofs
  refine validateRecoveryTransition_of held occupied rfl named ?_ ?_ ?_ (Or.inl unpinned)
  · intro record recorded
    rw [← some_inj.mp recorded]
  · refine (validateRecoveryAdvance_iff ..).mpr ⟨?_, next, ?_⟩
    · unfold validateRecoveryFrame
      rw [Bool.and_eq_true, decide_eq_true_iff]
      exact ⟨notZero, validNext⟩
    · show advancesRecord ((some frame).bind Frame.record) (some _) = true
      rw [bind_some, occupied]
      simp [advancesRecord, isSealed, RecoveryPhase.advances]
  · refine intact.laneSlots.shrink notLast ?_ ?_ ?_
    · rw [held]
      unfold liveOperationIds liveRecord
      rw [bind_some, bind_some, occupied]
      exact List.Subset.refl _
    · rw [held]
      unfold liveFootprints liveRecord
      rw [bind_some, bind_some, occupied, Option.toList_some, Option.toList_some,
        flatMap_singleton, flatMap_singleton]
      exact fewer
    · rw [held]
      unfold liveBytes liveRecord
      rw [bind_some, bind_some, occupied]
      exact le_rfl

/-! ### Emptying the recovery slots -/

/-- No recovery record and no successor is live. -/
def RecoveryJournal.Drained (journal : RecoveryJournal) : Prop :=
  (∀ slot, journal.liveRecord slot = none) ∧ ∀ slot, liveSuccessor (journal.successors slot) = none

/-- Accepted operations can empty the lane. -/
def Store.Drainable (host : Host) (store : Store) : Prop :=
  ∃ later, ReflTransGen (Store.Step host) store later ∧ later.journal.Drained

/-- What is live is far enough from the last generation to be abandoned and cleared. -/
structure RecoveryJournal.Margin (journal : RecoveryJournal) : Prop where
  slots : ∀ slot frame record, journal.slots slot = some frame → frame.record = some record →
    frame.generation.toNat + 2 < maxGeneration.toNat
  successors : ∀ slot selected record, journal.successors slot = some selected →
    selected.frame.record = some record →
    selected.frame.generation.toNat + 1 < maxGeneration.toNat

/-- A live successor acknowledges a record whose stage is sealed. -/
def RecoveryJournal.SealedPinned (journal : RecoveryJournal) : Prop :=
  ∃ successor acknowledgement live, Acknowledges journal.successors successor acknowledgement ∧
    journal.liveRecord acknowledgement.recoverySlot = some live ∧ live.phase = .stageSealed

variable {record : Option RecoveryRecord}

/-- A valid transition of a store that loads can be carried out. -/
theorem Store.Loads.write {host : Host} {store : Store} (loads : store.Loads host)
    (valid : validateRecoveryTransition host store.journal registration ⟨generation, record⟩ =
      true) :
    ∃ later, Store.Step host store later ∧
      later.journal.slots = update store.journal.slots registration.slot
        (some ⟨generation, record⟩) ∧
      later.journal.successors = store.journal.successors := by
  obtain ⟨encoded, accepts⟩ := loads.accepts_write valid
  exact ⟨_, .commit store _ accepts, rfl, rfl⟩

variable {acknowledgement : SuccessorAcknowledgement} {later : Store}

section Sweep

variable {host : Host} {store : Store}

/-- What emptying the recovery slots needs and keeps. -/
structure Store.Clearable (host : Host) (store : Store) : Prop where
  loads : store.Loads host
  margin : store.journal.Margin
  unsealed : ¬ store.journal.SealedPinned

/-- A slot whose record is not live any more does not stand in the way. -/
theorem Store.Clearable.cleared (clearable : store.Clearable host) (loads : later.Loads host)
    (slots : later.journal.slots = update store.journal.slots slot (some frame))
    (successors : later.journal.successors = store.journal.successors)
    (absent : frame.record = none) : later.Clearable host := by
  refine ⟨loads, ⟨fun other found record held live => ?_, ?_⟩, ?_⟩
  · rw [slots] at held
    by_cases same : other = slot
    · rw [same, update_self, some_inj] at held
      rw [← held, absent] at live
      cases live
    · rw [update_of_ne same] at held
      exact clearable.margin.slots other found record held live
  · rw [successors]
    exact clearable.margin.successors
  · rintro ⟨successor, acknowledgement, live, acknowledged, occupied, isSealed⟩
    rw [successors] at acknowledged
    rw [RecoveryJournal.liveRecord, slots] at occupied
    by_cases same : acknowledgement.recoverySlot = slot
    · rw [same, update_self, Fs.liveRecord, bind_some, absent] at occupied
      cases occupied
    · rw [update_of_ne same] at occupied
      exact clearable.unsealed
        ⟨successor, acknowledgement, live, acknowledged, occupied, isSealed⟩

/-- The step that clears a slot clears nothing else. -/
theorem liveRecord_cleared {later : RecoveryJournal}
    (slots : later.slots = update journal.slots slot (some frame))
    (absent : frame.record = none) :
    later.liveRecord slot = none ∧
      ∀ other, journal.liveRecord other = none → later.liveRecord other = none := by
  have here : later.liveRecord slot = none := by
    rw [RecoveryJournal.liveRecord, slots, update_self]
    exact absent
  refine ⟨here, fun other before => ?_⟩
  by_cases same : other = slot
  · rw [same]
    exact here
  · rw [RecoveryJournal.liveRecord, slots, update_of_ne same]
    exact before

/-- A record whose stage is not sealed is cleared by one operation. -/
theorem Store.Loads.clear (loads : store.Loads host) (held : store.journal.slots slot = some frame)
    (occupied : frame.record = some live) (unsealed : live.phase ≠ .stageSealed)
    (below : frame.generation.toNat + 1 < maxGeneration.toNat) :
    ∃ later, Store.Step host store later ∧
      later.journal.slots =
        update store.journal.slots slot (some ⟨frame.generation + 1, none⟩) ∧
      later.journal.successors = store.journal.successors := by
  obtain ⟨_, intact⟩ := (loads_iff host store).mp loads
  have valid := intact.clear_valid held occupied unsealed below
  exact loads.write valid

/-- A slot can be vacated: its record is cleared, after abandoning it if its stage is sealed and
nobody has taken it over. -/
theorem Store.Loads.vacate (loads : store.Loads host) (held : store.journal.slots slot = some frame)
    (occupied : frame.record = some live) (unpinned : live.phase = .stageSealed →
      recoveryPinSide store.journal.laneNonce store.journal.successors slot = some none)
    (below : frame.generation.toNat + 2 < maxGeneration.toNat) :
    ∃ later tombstone, ReflTransGen (Store.Step host) store later ∧
      later.journal.slots = update store.journal.slots slot (some tombstone) ∧
      later.journal.successors = store.journal.successors ∧ tombstone.record = none := by
  obtain ⟨_, intact⟩ := (loads_iff host store).mp loads
  by_cases isSealed : live.phase = .stageSealed
  · have valid := intact.abandon_valid held occupied isSealed (unpinned isSealed) (by omega)
    have advance := ((validateRecoveryAdvance_iff ..).mp (transition_advances valid).1).2.1
    obtain ⟨middle, first, slotsMiddle, successorsMiddle⟩ := loads.write valid
    rw [show (⟨slot, live.operationId⟩ : RecoveryRegistration).slot = slot from rfl, held]
      at advance
    have sum := ((nextGeneration_eq_some ..).mp advance).2
    have heldMiddle : middle.journal.slots slot = some
        ⟨frame.generation + 1, some { live with phase := .removePrepared }⟩ := by
      rw [slotsMiddle, update_self]
    obtain ⟨later, second, slots, successors⟩ :=
      (first.loads loads).clear heldMiddle rfl nofun (by
        show (frame.generation + 1).toNat + 1 < _
        rw [show (frame.generation + 1).toNat = frame.generation.toNat + 1 from sum]
        exact below)
    rw [slotsMiddle, update_idem] at slots
    exact ⟨later, _, .tail (.single first) second, slots, successors.trans successorsMiddle, rfl⟩
  · obtain ⟨later, step, slots, successors⟩ := loads.clear held occupied isSealed (by omega)
    exact ⟨later, _, .single step, slots, successors, rfl⟩

/-- Every slot can be cleared. -/
theorem Store.Clearable.clear (clearable : store.Clearable host) (slot : Fin 64) :
    ∃ later, ReflTransGen (Store.Step host) store later ∧ later.Clearable host ∧
      later.journal.liveRecord slot = none ∧
      ∀ other, store.journal.liveRecord other = none → later.journal.liveRecord other = none := by
  obtain ⟨_, intact⟩ := (loads_iff host store).mp clearable.loads
  cases occupied : store.journal.liveRecord slot with
  | none => exact ⟨store, .refl, clearable, occupied, fun _ before => before⟩
  | some live =>
    obtain ⟨frame, held, recorded⟩ := bind_eq_some_iff.mp occupied
    have unpinned : live.phase = .stageSealed →
        recoveryPinSide store.journal.laneNonce store.journal.successors slot = some none := by
      intro isSealed
      refine (recoveryPinSide_eq_none
        ((validateSuccessorLane_iff ..).mpr intact.successorLane) slot).mpr ?_
      intro successor acknowledgement acknowledged same
      exact clearable.unsealed
        ⟨successor, acknowledgement, live, acknowledged, same ▸ occupied, isSealed⟩
    obtain ⟨later, tombstone, run, slots, successors, absent⟩ := clearable.loads.vacate held
      recorded unpinned (clearable.margin.slots slot frame live held recorded)
    obtain ⟨here, others⟩ := liveRecord_cleared slots absent
    have loadsLater := Runs.invariant (fun _ _ step => step.loads) run clearable.loads
    exact ⟨later, run, clearable.cleared loadsLater slots successors absent, here, others⟩

/-- Replacing a successor by a tombstone keeps the lane of successors valid. -/
theorem SuccessorLaneValid.tombstone {laneNonce : Nonce}
    {slots : Fin 64 → Option SelectedSuccessorFrame} (valid : SuccessorLaneValid laneNonce slots)
    (frame : validateSuccessorFrame ⟨generation, none⟩ = true) :
    SuccessorLaneValid laneNonce
      (update slots slot (some ⟨laneNonce, ⟨generation, none⟩⟩)) := by
  have fewer : ∀ other, (liveKeys (update slots slot
      (some ⟨laneNonce, ⟨generation, none⟩⟩) other)).Sublist (liveKeys (slots other)) := by
    intro other
    by_cases same : other = slot
    · rw [same, update_self]
      exact nil_sublist _
    · rw [update_of_ne same]
  refine ⟨fun other found held => ?_, fun other => (valid.ownKeys other).sublist (fewer other),
    fun first second different => ?_⟩
  · by_cases same : other = slot
    · rw [same, update_self, some_inj] at held
      rw [← held]
      exact ⟨rfl, frame⟩
    · rw [update_of_ne same] at held
      exact valid.frames other found held
  · exact disjoint_of_subset_left (fewer first).subset
      (disjoint_of_subset_right (fewer second).subset (valid.keys first second different))

/-- A live successor whose recoveries are all cleared can be tombstoned. -/
theorem Store.Loads.tombstone (loads : store.Loads host) {selected : SelectedSuccessorFrame}
    {record : SuccessorRecord} (held : store.journal.successors slot = some selected)
    (live : selected.frame.record = some record)
    (ready : ∀ acknowledgement ∈ record.acknowledgements,
      acknowledgementReady store.journal acknowledgement = true)
    (below : selected.frame.generation.toNat + 1 < maxGeneration.toNat) :
    ∃ later, Store.Step host store later ∧ later.journal.slots = store.journal.slots ∧
      later.journal.successors = update store.journal.successors slot
        (some ⟨store.journal.laneNonce, ⟨selected.frame.generation + 1, none⟩⟩) := by
  obtain ⟨_, intact⟩ := (loads_iff host store).mp loads
  obtain ⟨range, parity, _⟩ := (validateSuccessorFrame_iff _).mp
    (intact.successorLane.frames slot selected held).2
  have nonzero : selected.frame.generation ≠ 0 := by
    intro zero
    rw [zero] at range
    exact absurd range.1 (by decide)
  obtain ⟨next, sum, _, _⟩ := nextGeneration_succ nonzero below
  have odd := parity.mp (Option.isSome_iff_exists.mpr ⟨record, live⟩)
  have frameValid : validateSuccessorFrame ⟨selected.frame.generation + 1, none⟩ = true := by
    refine (validateSuccessorFrame_iff _).mpr ⟨?_, ?_, nofun⟩
    · show 1 ≤ (selected.frame.generation + 1).toNat ∧ _ < _
      rw [sum]
      exact ⟨Nat.le_add_left _ _, below⟩
    · show false = true ↔ ¬ (selected.frame.generation + 1).toNat % 2 = 0
      rw [sum]
      refine iff_of_false nofun (not_not.mpr ?_)
      omega
  have valid : validateSuccessorTransition store.journal slot
      ⟨selected.frame.generation + 1, none⟩ = true := by
    unfold validateSuccessorTransition
    rw [Bool.and_eq_true, held]
    refine ⟨(validateSuccessorAdvance_iff ..).mpr ⟨frameValid, next, ?_⟩,
      (validateSuccessorLane_iff ..).mpr (intact.successorLane.tombstone frameValid)⟩
    rw [map_some, bind_some, live]
    exact nofun
  obtain ⟨encoded, written⟩ := encodeFrame_isSome successorFormat host
    ⟨selected.frame.generation + 1, none⟩
    ⟨store.journal.laneNonce, slot, generationSide (selected.frame.generation + 1)⟩ frameValid rfl
  have accepted : prepareTombstone host store.journal
      ⟨slot, selected.frame.generation, record.transferId⟩ =
      some (.successor slot ⟨selected.frame.generation + 1, none⟩
        (offset .successor slot (generationSide (selected.frame.generation + 1))) encoded) := by
    have isLive : selectedLiveSuccessor store.journal
        ⟨slot, selected.frame.generation, record.transferId⟩ = some record := by
      unfold selectedLiveSuccessor
      simp only [held, live, bind_eq_bind, bind_some, and_self, if_true]
    unfold prepareTombstone
    rw [intact.checkedOut, intact.pending]
    simp only [Bool.false_eq_true, Option.isSome_none, or_self, if_false, isLive,
      bind_eq_bind, bind_some]
    rw [if_pos ready]
    unfold successorPending
    rw [if_pos valid]
    simp only [bind_eq_some]
    exact ⟨encoded, written, rfl⟩
  exact ⟨_, .commit store _ (.tombstoneSuccessor _ accepted), rfl, rfl⟩

/-- What tombstoning the successors needs and keeps. -/
structure Store.Closable (host : Host) (store : Store) : Prop where
  loads : store.Loads host
  cleared : ∀ slot, store.journal.liveRecord slot = none
  margin : ∀ slot selected record, store.journal.successors slot = some selected →
    selected.frame.record = some record →
    selected.frame.generation.toNat + 1 < maxGeneration.toNat

/-- Once all records are cleared every acknowledgement is ready. -/
theorem Store.Closable.ready (closable : store.Closable host)
    (acknowledged : Acknowledges store.journal.successors slot acknowledgement) :
    acknowledgementReady store.journal acknowledgement = true := by
  obtain ⟨_, intact⟩ := (loads_iff host store).mp closable.loads
  obtain ⟨frame, _, held, _, current, _⟩ :=
    (acknowledgementHolds_iff ..).mp (intact.acknowledged slot acknowledgement acknowledged)
  have cleared := closable.cleared acknowledgement.recoverySlot
  rw [RecoveryJournal.liveRecord, held, Fs.liveRecord, bind_some] at cleared
  unfold acknowledgementReady
  rw [held, any_some, Bool.and_eq_true, decide_eq_true_iff]
  rcases current with ⟨_, live⟩ | ⟨next, absent⟩
  · rw [cleared] at live
    cases live
  · exact ⟨next, Option.isNone_iff_eq_none.mpr absent⟩

/-- Every successor can be tombstoned. -/
theorem Store.Closable.close (closable : store.Closable host) (slot : Fin 64) :
    ∃ later, ReflTransGen (Store.Step host) store later ∧ later.Closable host ∧
      liveSuccessor (later.journal.successors slot) = none ∧
      ∀ other, liveSuccessor (store.journal.successors other) = none →
        liveSuccessor (later.journal.successors other) = none := by
  cases occupied : liveSuccessor (store.journal.successors slot) with
  | none => exact ⟨store, .refl, closable, occupied, fun _ before => before⟩
  | some record =>
    obtain ⟨selected, held, live⟩ := bind_eq_some_iff.mp occupied
    have ready : ∀ acknowledgement ∈ record.acknowledgements,
        acknowledgementReady store.journal acknowledgement = true := by
      intro acknowledgement member
      have acknowledged : Acknowledges store.journal.successors slot acknowledgement := by
        refine mem_flatMap.mpr ⟨record, ?_, member⟩
        rw [occupied]
        exact mem_toList.mpr rfl
      exact closable.ready acknowledged
    obtain ⟨later, step, slots, successors⟩ :=
      closable.loads.tombstone held live ready (closable.margin slot selected record held live)
    have here : liveSuccessor (later.journal.successors slot) = none := by
      rw [successors, update_self]
      rfl
    have others : ∀ other, other ≠ slot →
        later.journal.successors other = store.journal.successors other := by
      intro other different
      rw [successors, update_of_ne different]
    refine ⟨later, .single step, ⟨step.loads closable.loads, fun other => ?_,
      fun other found current heldLater liveLater => ?_⟩, here, fun other before => ?_⟩
    · rw [RecoveryJournal.liveRecord, slots]
      exact closable.cleared other
    · by_cases same : other = slot
      · rw [same] at heldLater
        rw [heldLater] at here
        exact absurd (here.symm.trans liveLater) nofun
      · rw [others other same] at heldLater
        exact closable.margin other found current heldLater liveLater
    · by_cases same : other = slot
      · rw [same]
        exact here
      · rw [others other same]
        exact before

/-- A lane without a pinned sealed record can be emptied: first the records, then the
successors that acknowledge them. -/
theorem Store.Clearable.drainable (clearable : store.Clearable host) : store.Drainable host := by
  obtain ⟨middle, early, held, cleared, _⟩ := Runs.sweep
    (fun _ slot clearable => Store.Clearable.clear clearable slot) (List.finRange 64) clearable
  have closable : middle.Closable host :=
    ⟨held.loads, fun slot => cleared slot (mem_finRange slot), held.margin.successors⟩
  obtain ⟨later, late, last, closed, _⟩ := Runs.sweep
    (fun _ slot closable => Store.Closable.close closable slot) (List.finRange 64) closable
  exact ⟨later, early.trans late, last.cleared, fun slot => closed slot (mem_finRange slot)⟩

end Sweep

/-! ### A record that is stuck -/

/-- A successor write creates a live successor, or tombstones one whose recoveries are done. -/
theorem Accepts.successor_cases {host : Host} {target : Fin 64} {intended : SuccessorFrame}
    {offset : Nat} {encoded : List UInt8}
    (accepts : Accepts host journal (.successor target intended offset encoded)) :
    intended.record ≠ none ∨
      ∃ record, liveSuccessor (journal.successors target) = some record ∧
        ∀ acknowledgement ∈ record.acknowledgements,
          acknowledgementReady journal acknowledgement = true := by
  cases accepts with
  | write registration record accepted =>
    unfold prepareWrite at accepted
    simp only [bind_eq_some, Option.ite_none_right_eq_some, some_inj, reduceCtorEq,
      and_false, exists_false] at accepted
  | createSuccessor record registrations transfer accepted =>
    obtain ⟨_, _, _, slot, generation, _, _, _, written⟩ := prepareSuccessor_eq_some accepted
    obtain ⟨_, _, _, same⟩ := successorPending_eq_some written
    injection same with _ frame
    left
    rw [frame]
    exact nofun
  | tombstoneSuccessor key accepted =>
    obtain ⟨_, _, record, selected, ready, written⟩ := prepareTombstone_eq_some accepted
    obtain ⟨_, _, _, same⟩ := successorPending_eq_some written
    injection same with slot
    subst slot
    unfold selectedLiveSuccessor at selected
    simp only [bind_eq_some, Option.ite_none_right_eq_some, some_inj] at selected
    obtain ⟨found, held, current, live, _, rfl⟩ := selected
    exact Or.inr ⟨current, bind_eq_some_iff.mpr ⟨found, held, live⟩, ready⟩

variable {before after : Store} {successor : Fin 64}

/-- A sealed record that is pinned stays so under every accepted operation. -/
theorem Store.Step.stuck {host : Host} (step : Store.Step host before after)
    (loads : before.Loads host)
    (acknowledged : Acknowledges before.journal.successors successor acknowledgement)
    (occupied : before.journal.liveRecord acknowledgement.recoverySlot = some live)
    (isSealed : live.phase = .stageSealed) :
    Acknowledges after.journal.successors successor acknowledgement ∧
      after.journal.liveRecord acknowledgement.recoverySlot = some live := by
  obtain ⟨_, intact⟩ := (loads_iff host before).mp loads
  cases step with
  | commit pending accepts =>
    have prepared := accepts.prepared
    cases pending with
    | recovery registration intended offset encoded =>
      refine ⟨acknowledged, ?_⟩
      show Fs.liveRecord (update before.journal.slots registration.slot (some intended)
        acknowledgement.recoverySlot) = some live
      by_cases same : acknowledgement.recoverySlot = registration.slot
      · -- only a tombstone passes the pin, and none of a sealed stage
        have tombstone := (pinned_transition intact prepared.1 acknowledged same).1
        have advance :=
          ((validateRecoveryAdvance_iff ..).mp (transition_advances prepared.1).1).2.2
        rw [← same, tombstone, show (before.journal.slots acknowledgement.recoverySlot).bind
          Frame.record = some live from occupied] at advance
        exact absurd isSealed (of_decide_eq_true advance)
      · rw [update_of_ne same]
        exact occupied
    | successor target intended offset encoded =>
      refine ⟨?_, occupied⟩
      show acknowledgement ∈ liveAcknowledgements (update before.journal.successors
        target (some ⟨before.journal.laneNonce, intended⟩) successor)
      by_cases same : successor = target
      · exfalso
        subst same
        obtain ⟨record, current, member⟩ := mem_flatMap.mp acknowledged
        have current := mem_toList.mp current
        have changes :=
          ((validateSuccessorAdvance_iff ..).mp (Bool.and_eq_true_iff.mp prepared.1).1).2.2
        rw [Option.bind_map, show (before.journal.successors successor).bind
          (Frame.record ∘ Selected.frame) = some record from current] at changes
        rcases accepts.successor_cases with created | ⟨other, isLive, ready⟩
        · rw [Option.isSome_some, Option.isSome_iff_ne_none.mpr created] at changes
          exact changes rfl
        · rw [current, some_inj] at isLive
          subst isLive
          have done := ready acknowledgement member
          obtain ⟨frame, held, recorded⟩ := bind_eq_some_iff.mp occupied
          unfold acknowledgementReady at done
          rw [held, any_some, recorded] at done
          simp at done
      · rw [update_of_ne same]
        exact acknowledged

theorem Store.Loads.stuck_run {host : Host} {store : Store} (loads : store.Loads host)
    (run : ReflTransGen (Store.Step host) store later)
    (acknowledged : Acknowledges store.journal.successors successor acknowledgement)
    (occupied : store.journal.liveRecord acknowledgement.recoverySlot = some live)
    (isSealed : live.phase = .stageSealed) :
    later.journal.liveRecord acknowledgement.recoverySlot = some live := by
  let Stuck := fun store : Store => store.Loads host ∧
    Acknowledges store.journal.successors successor acknowledgement ∧
    store.journal.liveRecord acknowledgement.recoverySlot = some live
  have preserved : ∀ before after, Store.Step host before after → Stuck before → Stuck after :=
    fun _ _ step ⟨loads, acknowledged, occupied⟩ =>
      ⟨step.loads loads, step.stuck loads acknowledged occupied isSealed⟩
  have kept : Stuck later := Runs.invariant preserved run ⟨loads, acknowledged, occupied⟩
  exact kept.2.2

/-! ### Runs that take over no sealed record -/

/-- The write creates a successor that acknowledges a record whose stage is sealed. -/
def PendingWrite.TakesSealed (pending : PendingWrite) (journal : RecoveryJournal) : Prop :=
  match pending with
  | .recovery .. => False
  | .successor _ intended .. =>
    ∃ record acknowledgement live, intended.record = some record ∧
      acknowledgement ∈ record.acknowledgements ∧
      journal.liveRecord acknowledgement.recoverySlot = some live ∧ live.phase = .stageSealed

/-- An accepted operation that takes over no sealed record. -/
inductive Store.CarefulStep (host : Host) : Store → Store → Prop where
  | commit (store : Store) (pending : PendingWrite)
      (accepts : Accepts host store.journal pending)
      (careful : ¬ pending.TakesSealed store.journal) :
      Store.CarefulStep host store (store.commit host pending)

theorem Store.CarefulStep.step {host : Host} (careful : Store.CarefulStep host before after) :
    Store.Step host before after := by
  cases careful with
  | commit pending accepts => exact .commit before pending accepts

theorem Store.CarefulStep.unsealed {host : Host} (careful : Store.CarefulStep host before after)
    (loads : before.Loads host) (unsealed : ¬ before.journal.SealedPinned) :
    ¬ after.journal.SealedPinned := by
  obtain ⟨_, intact⟩ := (loads_iff host before).mp loads
  rintro ⟨successor, acknowledgement, live, acknowledged, occupied, isSealed⟩
  cases careful with
  | commit pending accepts careful =>
    have prepared := accepts.prepared
    cases pending with
    | recovery registration intended offset encoded =>
      change Fs.liveRecord (update before.journal.slots registration.slot (some intended)
        acknowledgement.recoverySlot) = some live at occupied
      by_cases same : acknowledgement.recoverySlot = registration.slot
      · have tombstone := (pinned_transition intact prepared.1 acknowledged same).1
        rw [same, update_self, Fs.liveRecord, bind_some, tombstone] at occupied
        cases occupied
      · rw [update_of_ne same] at occupied
        exact unsealed ⟨successor, acknowledgement, live, acknowledged, occupied, isSealed⟩
    | successor target intended offset encoded =>
      change acknowledgement ∈ liveAcknowledgements (update before.journal.successors
        target (some ⟨before.journal.laneNonce, intended⟩) successor) at acknowledged
      by_cases same : successor = target
      · rw [same, update_self] at acknowledged
        obtain ⟨record, current, member⟩ := mem_flatMap.mp acknowledged
        exact careful ⟨record, acknowledgement, live, mem_toList.mp current, member,
          occupied, isSealed⟩
      · rw [update_of_ne same] at acknowledged
        exact unsealed ⟨successor, acknowledgement, live, acknowledged, occupied, isSealed⟩

/-- A lane that accepted operations have led to, and whose live generations leave room, can be
emptied by accepted operations exactly when no live successor acknowledges a sealed record; and
such a record can be tombstoned exactly when no live successor acknowledges it. Runs that never
let a successor take over a sealed record therefore stay clear of the trap. -/
theorem lane_drains_iff (host : Host) (laneNonce : Nonce) (store : Store)
    (run : ReflTransGen (Store.Step host) (.blank laneNonce) store)
    (margin : store.journal.Margin) :
    (store.Drainable host ↔ ¬ store.journal.SealedPinned) ∧
    (∀ slot live, store.journal.liveRecord slot = some live → live.phase = .stageSealed →
      ((∃ later, ReflTransGen (Store.Step host) store later ∧
          later.journal.liveRecord slot = none) ↔
        ∀ successor acknowledgement,
          Acknowledges store.journal.successors successor acknowledgement →
          acknowledgement.recoverySlot ≠ slot)) ∧
    (ReflTransGen (Store.CarefulStep host) (.blank laneNonce) store → store.Drainable host) := by
  have loads : store.Loads host :=
    Runs.invariant (fun _ _ step => step.loads) run (loads_blank host laneNonce)
  obtain ⟨_, intact⟩ := (loads_iff host store).mp loads
  have drains : ¬ store.journal.SealedPinned → store.Drainable host := fun unsealed =>
    Store.Clearable.drainable ⟨loads, margin, unsealed⟩
  refine ⟨⟨?_, drains⟩, fun slot live occupied isSealed => ⟨?_, fun unpinned => ?_⟩, ?_⟩
  · rintro ⟨later, onward, cleared, _⟩
      ⟨successor, acknowledgement, live, acknowledged, occupied, isSealed⟩
    have still := loads.stuck_run onward acknowledged occupied isSealed
    rw [cleared] at still
    cases still
  · rintro ⟨later, onward, cleared⟩ successor acknowledgement acknowledged rfl
    have still := loads.stuck_run onward acknowledged occupied isSealed
    rw [cleared] at still
    cases still
  · obtain ⟨frame, held, recorded⟩ := bind_eq_some_iff.mp occupied
    have free := (recoveryPinSide_eq_none
      ((validateSuccessorLane_iff ..).mpr intact.successorLane) slot).mpr unpinned
    obtain ⟨later, tombstone, onward, slots, _, absent⟩ := loads.vacate held recorded
      (fun _ => free) (margin.slots slot frame live held recorded)
    exact ⟨later, onward, (liveRecord_cleared slots absent).1⟩
  · intro careful
    let Free := fun store : Store => store.Loads host ∧ ¬ store.journal.SealedPinned
    have preserved : ∀ before after, Store.CarefulStep host before after →
        Free before → Free after :=
      fun _ _ step ⟨loads, unsealed⟩ => ⟨step.step.loads loads, step.unsealed loads unsealed⟩
    have free : Free store := by
      refine Runs.invariant preserved careful ⟨loads_blank host laneNonce, ?_⟩
      rintro ⟨_, _, _, acknowledged, _⟩
      cases acknowledged
    exact drains free.2

/-! ### An example -/

/-- Where one slot is occupied, what is found is its entry. -/
theorem eq_of_single {Entry : Type} {entry found : Entry}
    (held : update (fun _ => none) 0 (some entry) slot = some found) : found = entry := by
  by_cases same : slot = 0
  · rw [same, update_self, some_inj] at held
    exact held.symm
  · rw [update_of_ne same] at held
    cases held

theorem margin_level (encoded : List UInt8) :
    ((Store.blank levelNonce).commit plainHost (levelWrite encoded)).journal.Margin := by
  refine ⟨fun slot frame record held live => ?_, nofun⟩
  change update (fun _ => none) 0 (some ⟨1, some levelRecord⟩) slot = some frame at held
  rw [eq_of_single held]
  decide

theorem lane_drains_iff_level :
    ∃ encoded, ((Store.blank levelNonce).commit plainHost (levelWrite encoded)).Drainable
      plainHost := by
  obtain ⟨encoded, accepts⟩ := accepts_level
  refine ⟨encoded, (lane_drains_iff plainHost levelNonce _
    (.single (.commit _ _ accepts)) (margin_level encoded)).1.mpr ?_⟩
  rintro ⟨_, _, _, acknowledged, _⟩
  cases acknowledged

attribute [local instance] sides_ne_zero slots_ne_zero in
def sealedJournal : RecoveryJournal :=
  acceptPending plainHost (stagedJournal.sending (sealWrite []))

attribute [local instance] sides_ne_zero slots_ne_zero in
/-- A successor of the class that does not look at phases. -/
def performanceSuccessor : SuccessorRecord :=
  ⟨.performance, 1, [1], levelOperation, none, some [1],
    [⟨0, 1, 2, levelOperation, ⟨List.replicate 32 1, length_ones⟩⟩]⟩

/-- A successor of a class other than `State` is accepted without a look at the phases of the
records it takes over. -/
theorem Store.Loads.accepts_successor {host : Host} {store : Store} (loads : store.Loads host)
    {record : SuccessorRecord} {registrations : List RecoveryRegistration} {transfer : Nonce}
    {acknowledgements : List SuccessorAcknowledgement} {slot : Fin 64} {generation : UInt64}
    (otherClass : record.ownerClass ≠ .state)
    (made : registrations.mapM (acknowledge store.journal) = some acknowledgements)
    (free : (List.finRange 64).find? (fun slot =>
      (liveSuccessor (store.journal.successors slot)).isNone) = some slot)
    (next : nextSuccessorGeneration ((store.journal.successors slot).map fun selected =>
      selected.frame.generation) = some generation)
    (valid : validateSuccessorTransition store.journal slot ⟨generation, some { record with
      transferId := transfer.val
      acknowledgements := acknowledgements }⟩ = true) :
    ∃ encoded, Accepts host store.journal (.successor slot ⟨generation, some { record with
      transferId := transfer.val
      acknowledgements := acknowledgements }⟩ (offset .successor slot (generationSide generation))
        encoded) := by
  obtain ⟨_, intact⟩ := (loads_iff host store).mp loads
  have frame := ((validateSuccessorAdvance_iff ..).mp (Bool.and_eq_true_iff.mp valid).1).1
  obtain ⟨encoded, written⟩ := encodeFrame_isSome successorFormat host _
    ⟨store.journal.laneNonce, slot, generationSide generation⟩ frame rfl
  refine ⟨encoded, .createSuccessor record registrations transfer ?_⟩
  unfold prepareSuccessor
  rw [intact.checkedOut, intact.pending]
  simp only [Bool.false_eq_true, Option.isSome_none, or_self, if_false, made, free, next,
    bind_eq_bind, bind_some, otherClass, false_and]
  unfold successorPending
  rw [if_pos valid]
  simp only [bind_eq_some]
  exact ⟨encoded, written, rfl⟩

theorem sealedPinned_level :
    ∃ store, ReflTransGen (Store.Step plainHost) (.blank levelNonce) store ∧
      store.journal.Margin ∧ store.journal.SealedPinned := by
  have loads := loads_blank plainHost levelNonce
  obtain ⟨first, acceptsFirst⟩ := accepts_level
  let staged := (Store.blank levelNonce).commit plainHost (levelWrite first)
  have loadsStaged : staged.Loads plainHost := loads.commit acceptsFirst.prepared
  obtain ⟨second, acceptsSecond⟩ := accepts_seal acceptsFirst
  let sealed := staged.commit plainHost (sealWrite second)
  have loadsSealed : sealed.Loads plainHost := loadsStaged.commit acceptsSecond.prepared
  have journal : sealed.journal = sealedJournal := rfl
  have made : [⟨0, levelOperation⟩].mapM (acknowledge sealed.journal) =
      some performanceSuccessor.acknowledgements := by
    rw [journal]
    decide
  have free : (List.finRange 64).find? (fun slot =>
      (liveSuccessor (sealed.journal.successors slot)).isNone) = some 0 := by
    rw [journal]
    decide
  have valid : validateSuccessorTransition sealed.journal 0 ⟨1, some performanceSuccessor⟩ =
      true := by
    rw [journal]
    decide
  obtain ⟨third, acceptsThird⟩ := @Loads.accepts_successor plainHost sealed loadsSealed
    performanceSuccessor _ levelNonce _ 0 1 nofun made free rfl valid
  refine ⟨_, .tail (.tail (.single (.commit _ _ acceptsFirst)) (.commit _ _ acceptsSecond))
    (.commit _ _ acceptsThird), ⟨fun slot frame record held live => ?_,
    fun slot selected record held live => ?_⟩, 0, ⟨0, 1, 2, levelOperation,
      ⟨List.replicate 32 1, rfl⟩⟩, sealedLevel, ?_, rfl, rfl⟩
  · change update (update (fun _ => none) 0 (some ⟨1, some levelRecord⟩)) 0
      (some ⟨2, some sealedLevel⟩) slot = some frame at held
    rw [update_idem] at held
    rw [eq_of_single held]
    decide
  · change update (fun _ => none) 0
      (some ⟨levelNonce, ⟨1, some performanceSuccessor⟩⟩) slot = some selected at held
    rw [eq_of_single held]
    decide
  · exact mem_singleton_self _

/-- A sealed record that a successor of class `Performance` has taken over is stuck. -/
theorem sealedSuccessor_not_drainable :
    ¬ ∀ (host : Host) (laneNonce : Nonce) (store : Store),
      ReflTransGen (Store.Step host) (.blank laneNonce) store → store.journal.Margin →
      store.Drainable host := by
  intro drains
  obtain ⟨store, run, margin, successor, acknowledgement, live, acknowledged, occupied,
    isSealed⟩ := sealedPinned_level
  obtain ⟨later, onward, cleared, _⟩ := drains plainHost levelNonce store run margin
  have loads : store.Loads plainHost :=
    Runs.invariant (fun _ _ step => step.loads) run (loads_blank plainHost levelNonce)
  have still := loads.stuck_run onward acknowledged occupied isSealed
  rw [cleared] at still
  cases still

end Axial.Fs
