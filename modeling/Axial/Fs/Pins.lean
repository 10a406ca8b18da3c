/-
This file is about runs of accepted operations that reach the disk. A control
file that loads keeps loading, and as long as a successor is live the frames it
acknowledges stay where they are.
-/

import Axial.Fs.Writes
import Axial.Library.Runs

namespace Axial.Fs

open Bytes Reader ControlFrame DoubleSlot Relation Function List Option

/-! ### Stores -/

/-- The bytes of a control file and the journal held in memory. -/
structure Store where
  control : List UInt8
  journal : RecoveryJournal

/-- A fresh start reads the control file as the journal. A control file without any frame
leaves the nonce to chance; then the draw is the journal's own. -/
def Store.Loads (host : Host) (store : Store) : Prop :=
  decodeControl host store.control none store.journal.laneNonce = some (store.journal, false)

theorem decodeControl_fresh_eq_some (host : Host) (control : List UInt8) (fresh : Nonce)
    (journal : RecoveryJournal) (intended : Bool) :
    decodeControl host control none fresh = some (journal, intended) ↔
      intended = false ∧ control.length = controlBytes ∧
      Intact host (controlRegions control) journal ∧
      (journal.Blank → journal.laneNonce = fresh) := by
  unfold decodeControl
  rw [ite_none_left_eq_some, not_not, bind_eq_bind, bind_eq_some_iff]
  simp only [observe_eq_some, some_inj, Prod.mk.injEq, not_mem_none,
    false_implies, implies_true, true_and, map_none, getD_none]
  constructor
  · rintro ⟨length, observed, ⟨intact, blank⟩, rfl, rfl⟩
    exact ⟨rfl, length, intact, blank⟩
  · rintro ⟨rfl, length, intact, blank⟩
    exact ⟨length, journal, ⟨intact, blank⟩, rfl, rfl⟩

theorem Store.loads_iff (host : Host) (store : Store) :
    store.Loads host ↔ store.control.length = controlBytes ∧
      Intact host (controlRegions store.control) store.journal := by
  unfold Store.Loads
  rw [decodeControl_fresh_eq_some]
  simp only [true_and, implies_true, and_true]

/-! ### Blank control files -/

def RecoveryJournal.blank (laneNonce : Nonce) : RecoveryJournal where
  laneNonce := laneNonce
  slots := fun _ => none
  physical := fun _ _ => none
  successors := fun _ => none
  pending := none
  checkedOut := false

/-- A control file that was only given its length. -/
def Store.blank (laneNonce : Nonce) : Store where
  control := List.replicate controlBytes 0
  journal := .blank laneNonce

theorem controlRegions_replicate (domain : Domain) (slot : Fin 64) (side : Fin 2) :
    controlRegions (List.replicate controlBytes 0) domain slot side =
      List.replicate frameBytes 0 := by
  have inside := offset_inside domain slot side
  rw [controlRegions, slice, drop_replicate, take_replicate]
  congr 1
  omega

theorem intact_blank (host : Host) (laneNonce : Nonce) :
    Intact host (controlRegions (List.replicate controlBytes 0)) (.blank laneNonce) := by
  have empty : ∀ {Record : Type} (format : Format Record) domain slot,
      readSides format host (controlRegions (List.replicate controlBytes 0) domain slot) slot =
        some fun _ => .empty := by
    intro Record format domain slot
    refine (readSides_eq_some ..).mpr fun side => (probeFrame_eq_empty ..).mpr ?_
    exact controlRegions_replicate domain slot side
  refine ⟨fun slot => (readsRecovery_iff ..).mpr ⟨_, empty _ _ slot, rfl, ?_, fun _ => rfl⟩,
    fun slot => (readsSuccessor_iff ..).mpr ⟨_, empty _ _ slot, rfl⟩, ?_, ?_, ?_, rfl, rfl⟩
  · intro side selected impossible
    cases impossible
  · have noBytes : ∑ slot, liveBytes ((RecoveryJournal.blank laneNonce).slots slot) = 0 :=
      Finset.sum_eq_zero fun _ _ => rfl
    exact ⟨nofun, fun _ _ _ => disjoint_nil_left _, fun _ => nodup_nil,
      fun _ _ _ => disjoint_nil_left _, by rw [noBytes]; exact Nat.zero_le _⟩
  · exact ⟨nofun, fun _ => nodup_nil, fun _ _ _ => disjoint_nil_left _⟩
  · intro slot acknowledgement impossible
    cases impossible

theorem loads_blank (host : Host) (laneNonce : Nonce) : (Store.blank laneNonce).Loads host :=
  (Store.loads_iff ..).mpr ⟨length_replicate, intact_blank host laneNonce⟩

/-! ### Operations -/

/-- The writes the journal's operations prepare. -/
inductive Accepts (host : Host) (journal : RecoveryJournal) : PendingWrite → Prop where
  | write {pending : PendingWrite} (registration : RecoveryRegistration)
      (record : Option RecoveryRecord)
      (accepted : prepareWrite host journal registration record = some pending) :
      Accepts host journal pending
  | createSuccessor {pending : PendingWrite} (record : SuccessorRecord)
      (registrations : List RecoveryRegistration) (transfer : Nonce)
      (accepted : prepareSuccessor host journal record registrations transfer = some pending) :
      Accepts host journal pending
  | tombstoneSuccessor {pending : PendingWrite} (key : SuccessorOwnerKey)
      (accepted : prepareTombstone host journal key = some pending) :
      Accepts host journal pending

variable {host : Host} {journal : RecoveryJournal} {pending : PendingWrite}

theorem Accepts.prepared (accepts : Accepts host journal pending) :
    Prepared host journal pending := by
  cases accepts with
  | write _ _ accepted => exact (prepareWrite_prepared accepted).1
  | createSuccessor _ _ _ accepted => exact (prepareSuccessor_prepared accepted).1
  | tombstoneSuccessor _ accepted => exact (prepareTombstone_prepared accepted).1

/-- The store once a write has arrived and been accepted. -/
def Store.commit (host : Host) (store : Store) (pending : PendingWrite) : Store where
  control := splice store.control pending.offset pending.encoded
  journal := acceptPending host (store.journal.sending pending)

/-- One accepted operation whose write arrives. -/
inductive Store.Step (host : Host) : Store → Store → Prop where
  | commit (store : Store) (pending : PendingWrite)
      (accepts : Accepts host store.journal pending) :
      Store.Step host store (store.commit host pending)

variable {store : Store}

/-- The regions of the control file once a prepared write has left `bytes` behind. -/
theorem controlRegions_pending (prepared : Prepared host store.journal pending) (bytes : List UInt8)
    (length : store.control.length = controlBytes) (sized : bytes.length = frameBytes) :
    controlRegions (splice store.control pending.offset bytes) =
      (controlRegions store.control).pending pending bytes := by
  rw [prepared.offset]
  exact controlRegions_splice _ _ _ length sized

theorem splice_pending_length (prepared : Prepared host store.journal pending) (bytes : List UInt8)
    (length : store.control.length = controlBytes) (sized : bytes.length = frameBytes) :
    (splice store.control pending.offset bytes).length = controlBytes := by
  rw [prepared.offset, splice_length, length]
  rw [sized, length]
  exact offset_inside _ _ _

/-- A prepared write that arrives leaves a store that loads. -/
theorem Store.Loads.commit {host : Host} {store : Store} (loads : store.Loads host)
    {pending : PendingWrite} (prepared : Prepared host store.journal pending) :
    (store.commit host pending).Loads host := by
  obtain ⟨length, intact⟩ := (Store.loads_iff host store).mp loads
  refine (Store.loads_iff host _).mpr
    ⟨splice_pending_length prepared _ length prepared.encoded_length, ?_⟩
  show Intact host (controlRegions (splice store.control pending.offset pending.encoded)) _
  rw [controlRegions_pending prepared _ length prepared.encoded_length]
  exact intact.accept prepared

variable {before after : Store}

theorem Store.Step.loads (step : Store.Step host before after) (loads : before.Loads host) :
    after.Loads host := by
  cases step with
  | commit pending accepts => exact loads.commit accepts.prepared

/-! ### Acknowledged frames -/

variable {acknowledgement : SuccessorAcknowledgement} {slot : Fin 64}

/-- In a store that loads, an acknowledged frame is on disk and the slot holds it or its
immediate tombstone. -/
theorem Intact.acknowledgedFrame {regions : Regions} (intact : Intact host regions journal)
    (acknowledged : Acknowledges journal.successors slot acknowledgement) :
    ∃ present, journal.physical acknowledgement.recoverySlot acknowledgement.recoverySide =
        some present ∧
      present.frame.generation = acknowledgement.recoveryGeneration ∧
      present.digest = acknowledgement.frameSha256 ∧
      (journal.slots acknowledgement.recoverySlot = some present.frame ∨
        ∃ tombstone, journal.slots acknowledgement.recoverySlot = some tombstone ∧
          tombstone.record = none ∧ tombstone.generation = present.frame.generation + 1) := by
  obtain ⟨selected, present, held, onDisk, inForce, generation, operation, digest⟩ :=
    (acknowledgementHolds_iff ..).mp (intact.acknowledged slot acknowledgement acknowledged)
  refine ⟨present, onDisk, generation, digest, ?_⟩
  rcases inForce with ⟨same, _⟩ | ⟨next, absent⟩
  · left
    obtain ⟨sides, found⟩ :=
      (readsRecovery_iff ..).mp (intact.recovery acknowledgement.recoverySlot)
    obtain ⟨presentSide, _, placed⟩ := found.receipt onDisk
    have selectedSide := (found.inForce held).1
    rw [same, ← generation, placed, presentSide] at selectedSide
    injection selectedSide with equal
    injection equal with _ frames
    rw [held, frames]
  · right
    exact ⟨selected, held, absent, by rw [next, generation]⟩

/-- The rank of a successor slot: how many frames it has been given. -/
def successorRank (selected : Option SelectedSuccessorFrame) : Nat :=
  (selected.map fun found => found.frame.generation.toNat).getD 0

theorem successorRank_advance {frame : SuccessorFrame}
    (valid : validateSuccessorTransition journal slot frame = true) :
    successorRank (journal.successors slot) < frame.generation.toNat := by
  unfold validateSuccessorTransition at valid
  rw [Bool.and_eq_true] at valid
  have stepped := ((validateSuccessorAdvance_iff ..).mp valid.1).2.1
  cases inForce : journal.successors slot with
  | none =>
    rw [inForce] at stepped
    have first : frame.generation = 1 := (nextGeneration_eq_some none _).mp stepped
    rw [first]
    decide
  | some selected =>
    rw [inForce] at stepped
    have next := ((nextGeneration_eq_some (some _) _).mp stepped).2
    show selected.frame.generation.toNat < frame.generation.toNat
    rw [next]
    exact Nat.lt_succ_self _

/-- A step leaves a successor slot alone or raises its rank. -/
theorem Store.Step.successors_ratchet (step : Store.Step host before after) (slot : Fin 64) :
    after.journal.successors slot = before.journal.successors slot ∨
      successorRank (before.journal.successors slot) <
        successorRank (after.journal.successors slot) := by
  cases step with
  | commit pending accepts =>
    have prepared := accepts.prepared
    cases pending with
    | recovery registration intended offset encoded => exact Or.inl rfl
    | successor target intended offset encoded =>
      show update before.journal.successors target
        (some ⟨before.journal.laneNonce, intended⟩) slot = _ ∨ successorRank _ < successorRank
          (update before.journal.successors target
            (some ⟨before.journal.laneNonce, intended⟩) slot)
      by_cases same : slot = target
      · subst same
        rw [update_self]
        exact Or.inr (successorRank_advance prepared.1)
      · rw [update_of_ne same]
        exact Or.inl rfl

/-- A step does not overwrite a frame that a live successor acknowledges. -/
theorem Store.Step.pinned (step : Store.Step host before after) (loads : before.Loads host)
    (acknowledged : Acknowledges before.journal.successors slot acknowledgement) :
    controlRegions after.control .recovery acknowledgement.recoverySlot
        acknowledgement.recoverySide =
      controlRegions before.control .recovery acknowledgement.recoverySlot
        acknowledgement.recoverySide ∧
    after.journal.physical acknowledgement.recoverySlot acknowledgement.recoverySide =
      before.journal.physical acknowledgement.recoverySlot acknowledgement.recoverySide := by
  obtain ⟨length, intact⟩ := (Store.loads_iff host before).mp loads
  cases step with
  | commit pending accepts =>
    have prepared := accepts.prepared
    have regions := controlRegions_pending prepared _ length prepared.encoded_length
    show controlRegions (splice before.control pending.offset pending.encoded) _ _ _ = _ ∧ _
    rw [regions]
    cases pending with
    | successor target intended offset encoded =>
      refine ⟨?_, rfl⟩
      have kept := Regions.write_domain (controlRegions before.control) .successor .recovery
        target (generationSide intended.generation) encoded (by decide)
      exact congrFun (congrFun kept _) _
    | recovery registration intended offset encoded =>
      show (controlRegions before.control).write .recovery registration.slot
          (generationSide intended.generation) encoded .recovery _ _ = _ ∧
        update before.journal.physical registration.slot _ _ _ = _
      by_cases same : acknowledgement.recoverySlot = registration.slot
      · have away := (pinned_transition intact prepared.1 acknowledged same).2.2
        rw [same, Regions.write_self, update_self, update_of_ne away,
          update_of_ne away]
        exact ⟨rfl, rfl⟩
      · rw [Regions.write_slot _ _ _ _ _ _ same, update_of_ne same]
        exact ⟨rfl, rfl⟩

/-- The store reached still loads, its successor slot is as it was, and the acknowledged frame
has neither moved nor changed since `start`. -/
structure Store.Keeps (host : Host) (start : Store) (slot : Fin 64)
    (selected : SelectedSuccessorFrame) (acknowledgement : SuccessorAcknowledgement)
    (reached : Store) : Prop where
  loads : reached.Loads host
  successor : reached.journal.successors slot = some selected
  region : controlRegions reached.control .recovery acknowledgement.recoverySlot
      acknowledgement.recoverySide =
    controlRegions start.control .recovery acknowledgement.recoverySlot
      acknowledgement.recoverySide
  physical : reached.journal.physical acknowledgement.recoverySlot
      acknowledgement.recoverySide =
    start.journal.physical acknowledgement.recoverySlot acknowledgement.recoverySide

/-- Accepted writes preserve loadability and pins. From a store that loads, every recovery
transition that validates and every operation that is accepted can be written and leaves a
store that loads; and over any run of accepted operations that does not touch a live successor,
each frame it acknowledges keeps its bytes and its receipt, and the acknowledged slot holds that
frame or its immediate tombstone. -/
theorem acceptedWrites_preserve_loading_and_pins (host : Host) (store : Store)
    (loads : store.Loads host) :
    (∀ registration frame,
      validateRecoveryTransition host store.journal registration frame = true →
      ∃ encoded, encodeRecoveryFrame host frame ⟨store.journal.laneNonce, registration.slot,
          generationSide frame.generation⟩ = some encoded ∧
        (store.commit host (.recovery registration frame (offset .recovery registration.slot
          (generationSide frame.generation)) encoded)).Loads host) ∧
    (∀ later, ReflTransGen (Store.Step host) store later → later.Loads host) ∧
    ∀ later, ReflTransGen (Store.Step host) store later → ∀ slot selected record,
      store.journal.successors slot = some selected → selected.frame.record = some record →
      later.journal.successors slot = some selected →
      ∀ acknowledgement ∈ record.acknowledgements,
        controlRegions later.control .recovery acknowledgement.recoverySlot
            acknowledgement.recoverySide =
          controlRegions store.control .recovery acknowledgement.recoverySlot
            acknowledgement.recoverySide ∧
        ∃ present,
          store.journal.physical acknowledgement.recoverySlot acknowledgement.recoverySide =
            some present ∧
          later.journal.physical acknowledgement.recoverySlot acknowledgement.recoverySide =
            some present ∧
          present.frame.generation = acknowledgement.recoveryGeneration ∧
          present.digest = acknowledgement.frameSha256 ∧
          (later.journal.slots acknowledgement.recoverySlot = some present.frame ∨
            ∃ tombstone, later.journal.slots acknowledgement.recoverySlot = some tombstone ∧
              tombstone.record = none ∧
              tombstone.generation = present.frame.generation + 1) := by
  have runLoads : ∀ later, ReflTransGen (Store.Step host) store later → later.Loads host :=
    fun later run => Runs.invariant (fun _ _ step => step.loads) run loads
  refine ⟨?_, runLoads, ?_⟩
  · intro registration frame valid
    have advances := (transition_advances valid).1
    obtain ⟨encoded, written⟩ := encodeFrame_isSome (recoveryFormat host) host frame
      ⟨store.journal.laneNonce, registration.slot, generationSide frame.generation⟩
      ((validateRecoveryAdvance_iff ..).mp advances).1 rfl
    exact ⟨encoded, written, loads.commit ⟨valid, rfl, written⟩⟩
  · intro later run slot selected record inForce live still acknowledgement member
    have acknowledgedBy : ∀ journal : RecoveryJournal, journal.successors slot = some selected →
        Acknowledges journal.successors slot acknowledgement := by
      intro journal held
      refine mem_flatMap.mpr ⟨record, ?_, member⟩
      rw [held]
      exact mem_toList.mpr live
    obtain ⟨_, intactStore⟩ := (Store.loads_iff host store).mp loads
    obtain ⟨_, intactLater⟩ := (Store.loads_iff host later).mp (runLoads later run)
    have preserved : ∀ before after, Store.Step host before after →
        after.journal.successors slot = before.journal.successors slot →
        store.Keeps host slot selected acknowledgement before →
        store.Keeps host slot selected acknowledgement after := by
      rintro before after step same ⟨loaded, held, region, physical⟩
      have pinned := step.pinned loaded (acknowledgedBy _ held)
      exact ⟨step.loads loaded, same.trans held, pinned.1.trans region,
        pinned.2.trans physical⟩
    have kept : store.Keeps host slot selected acknowledgement later := by
      refine Runs.frozen (fun _ _ step => step.successors_ratchet slot) preserved run ?_ ?_
      · exact still.trans inForce.symm
      · exact ⟨loads, inForce, rfl, rfl⟩
    obtain ⟨present, onDisk, generation, digest, holds⟩ :=
      intactLater.acknowledgedFrame (acknowledgedBy _ still)
    exact ⟨kept.region, present, by rw [← kept.physical, onDisk], onDisk, generation, digest,
      holds⟩

/-- A valid transition of a store that loads is accepted. -/
theorem Store.Loads.accepts_write {host : Host} {store : Store} (loads : store.Loads host)
    {registration : RecoveryRegistration} {generation : UInt64} {record : Option RecoveryRecord}
    (valid : validateRecoveryTransition host store.journal registration ⟨generation, record⟩ =
      true) :
    ∃ encoded, Accepts host store.journal (.recovery registration ⟨generation, record⟩
      (offset .recovery registration.slot (generationSide generation)) encoded) := by
  obtain ⟨_, intact⟩ := (Store.loads_iff host store).mp loads
  obtain ⟨frame, next, _⟩ :=
    (validateRecoveryAdvance_iff ..).mp (transition_advances valid).1
  obtain ⟨encoded, written⟩ := encodeFrame_isSome (recoveryFormat host) host
    ⟨generation, record⟩ ⟨store.journal.laneNonce, registration.slot, generationSide generation⟩
    frame rfl
  have candidate : validateCandidate host store.journal registration ⟨generation, record⟩ =
      true := by
    unfold validateCandidate
    rw [intact.checkedOut, intact.pending, valid]
    rfl
  refine ⟨encoded, .write registration record ?_⟩
  unfold prepareWrite
  simp only [bind_eq_some, Option.ite_none_right_eq_some, Option.some_inj]
  exact ⟨generation, next, candidate, encoded, written, rfl⟩

/-! ### An example -/

/-- A host on which every digest is the same and every name is spelled one way. -/
def plainHost : Host where
  platform := 1
  sha256 _ := ⟨List.replicate 32 1, rfl⟩
  nfc value := value
  caseFold value := value

def levelOperation : Fixed 16 := ⟨List.replicate 16 7, rfl⟩

def levelNonce : Nonce := ⟨levelOperation, by decide⟩

/-- A new file staged for `saves/level.dat`. -/
def levelRecord : RecoveryRecord :=
  ⟨levelOperation, .stagePrepared, [⟨"saves"⟩], ⟨"level.dat"⟩, none, none⟩

attribute [local instance] sides_ne_zero slots_ne_zero in
/-- The write that creates it in the first slot of a blank lane. -/
def levelWrite (encoded : List UInt8) : PendingWrite :=
  .recovery ⟨0, levelOperation⟩ ⟨1, some levelRecord⟩ (offset .recovery 0 0) encoded

theorem validate_level :
    validateRecoveryTransition plainHost (RecoveryJournal.blank levelNonce) ⟨0, levelOperation⟩
      ⟨1, some levelRecord⟩ = true := by
  decide

theorem prepareWrite_level :
    ∃ encoded, prepareWrite plainHost (RecoveryJournal.blank levelNonce) ⟨0, levelOperation⟩
      (some levelRecord) = some (levelWrite encoded) := by
  obtain ⟨encoded, written⟩ := encodeFrame_isSome (recoveryFormat plainHost) plainHost
    ⟨1, some levelRecord⟩ ⟨levelNonce, 0, 0⟩
    ((validateRecoveryAdvance_iff ..).mp (transition_advances validate_level).1).1 rfl
  refine ⟨encoded, ?_⟩
  have candidate : validateCandidate plainHost (RecoveryJournal.blank levelNonce)
      ⟨0, levelOperation⟩ ⟨1, some levelRecord⟩ = true := validate_level
  unfold prepareWrite
  simp only [bind_eq_some, ite_none_right_eq_some, some_inj]
  exact ⟨1, by decide, candidate, encoded, written, rfl⟩

theorem accepts_level :
    ∃ encoded, Accepts plainHost (Store.blank levelNonce).journal (levelWrite encoded) := by
  obtain ⟨encoded, prepared⟩ := prepareWrite_level
  exact ⟨encoded, .write ⟨0, levelOperation⟩ (some levelRecord) prepared⟩

theorem length_ones : (List.replicate 32 (1 : UInt8)).length = 32 := rfl

/-- The level once its stage is sealed. -/
def sealedLevel : RecoveryRecord :=
  { levelRecord with phase := .stageSealed, new := some ⟨1, ⟨List.replicate 32 1, length_ones⟩⟩ }

/-- The journal after the level was staged and sealed. Digests are constant here, so the bytes
of the frames do not matter. -/
def stagedJournal : RecoveryJournal :=
  acceptPending plainHost ((RecoveryJournal.blank levelNonce).sending (levelWrite []))

attribute [local instance] sides_ne_zero slots_ne_zero in
/-- The write that seals it, into the other side of the slot. -/
def sealWrite (encoded : List UInt8) : PendingWrite :=
  .recovery ⟨0, levelOperation⟩ ⟨2, some sealedLevel⟩ (offset .recovery 0 1) encoded

theorem accepts_seal {encoded : List UInt8}
    (accepts : Accepts plainHost (Store.blank levelNonce).journal (levelWrite encoded)) :
    ∃ later, Accepts plainHost
      ((Store.blank levelNonce).commit plainHost (levelWrite encoded)).journal
      (sealWrite later) := by
  have loads := (loads_blank plainHost levelNonce).commit accepts.prepared
  refine @Store.Loads.accepts_write plainHost _ loads ⟨0, levelOperation⟩ 2 (some sealedLevel) ?_
  show validateRecoveryTransition plainHost stagedJournal ⟨0, levelOperation⟩
    ⟨2, some sealedLevel⟩ = true
  decide

/-- The first write leaves the other side of the slot as it was. -/
theorem other_side_blank (encoded bytes : List UInt8) :
    (controlRegions (Store.blank levelNonce).control).pending (levelWrite encoded) bytes
      .recovery 0 1 = List.replicate frameBytes 0 := by
  have here := congrFun ((controlRegions (Store.blank levelNonce).control).pending_self
    (levelWrite encoded) bytes) 1
  rw [update_of_ne (show 1 ≠ (levelWrite encoded).side from
    show (1 : Fin 2) ≠ generationSide 1 by decide)] at here
  exact here.trans (controlRegions_replicate ..)

theorem acceptedWrites_preserve_loading_and_pins_level :
    ∃ encoded, encodeRecoveryFrame plainHost ⟨1, some levelRecord⟩ ⟨levelNonce, 0, 0⟩ =
        some encoded ∧
      ((Store.blank levelNonce).commit plainHost (levelWrite encoded)).Loads plainHost :=
  (acceptedWrites_preserve_loading_and_pins plainHost (.blank levelNonce)
    (loads_blank plainHost levelNonce)).1 ⟨0, levelOperation⟩ ⟨1, some levelRecord⟩ validate_level

end Axial.Fs
