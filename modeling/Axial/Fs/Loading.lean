/-
This file says what it means that a control file loads as a journal. `observe`
runs over all slots and gathers nonces on the way; here its result is described
slot by slot, in the form every later argument about the control file uses.
-/

import Axial.Fs.Journal

namespace Axial.Fs

open Bytes Reader ControlFrame DoubleSlot List

/-! ### Lane nonces -/

theorem admitLaneNonce_eq_some (current : Option Nonce) (nonce : Nonce)
    (result : Option Nonce) :
    admitLaneNonce current nonce = some result ↔
      (∀ found ∈ current, found = nonce) ∧ result = some nonce := by
  unfold admitLaneNonce
  rw [Option.ite_none_right_eq_some, Option.some_inj, eq_comm (a := some nonce)]

/-- Admission succeeds when there is at most one nonce, and results in it. -/
theorem admitLaneNonces_eq_some (nonces : List Nonce) (start result : Option Nonce) :
    nonces.foldlM admitLaneNonce start = some result ↔
      (∀ nonce, nonce ∈ start ∨ nonce ∈ nonces → result = some nonce) ∧
      ∀ nonce, result = some nonce → nonce ∈ start ∨ nonce ∈ nonces := by
  induction nonces generalizing start with
  | nil =>
    show some start = some result ↔ _
    rw [Option.some_inj]
    constructor
    · rintro rfl
      simp
    · rintro ⟨agrees, mentioned⟩
      cases start with
      | none =>
        cases result with
        | none => rfl
        | some nonce => simpa using mentioned nonce rfl
      | some nonce => exact (agrees nonce (Or.inl rfl)).symm
  | cons head nonces ih =>
    rw [foldlM_cons, Option.bind_eq_bind, Option.bind_eq_some_iff]
    constructor
    · rintro ⟨next, admitted, later⟩
      obtain ⟨same, rfl⟩ := (admitLaneNonce_eq_some _ _ _).mp admitted
      obtain ⟨agrees, mentioned⟩ := (ih _).mp later
      refine ⟨?_, ?_⟩
      · rintro nonce (early | late)
        · rw [same nonce early]
          exact agrees head (Or.inl rfl)
        · rcases mem_cons.mp late with rfl | later
          · exact agrees nonce (Or.inl rfl)
          · exact agrees nonce (Or.inr later)
      · intro nonce found
        rcases mentioned nonce found with early | late
        · rw [← Option.some_inj.mp early]
          exact Or.inr mem_cons_self
        · exact Or.inr (mem_cons_of_mem _ late)
    · rintro ⟨agrees, mentioned⟩
      have atHead := agrees head (Or.inr mem_cons_self)
      have same : ∀ found ∈ start, found = head := by
        intro found member
        exact Option.some_inj.mp ((agrees found (Or.inl member)).symm.trans atHead)
      refine ⟨some head, (admitLaneNonce_eq_some _ _ _).mpr ⟨same, rfl⟩,
        (ih _).mpr ⟨?_, ?_⟩⟩
      · rintro nonce (early | late)
        · rw [← Option.some_inj.mp early]
          exact atHead
        · exact agrees nonce (Or.inr (mem_cons_of_mem _ late))
      · intro nonce found
        rw [atHead] at found
        exact Or.inl found

/-! ### Reading one slot -/

variable {Record : Type}

/-- A slot that is read as blank has no valid side, and a slot with a frame in force has it on
some side. -/
theorem readSlot_selected {format : Format Record} {salvaged : Salvage Record} {host : Host}
    {regions : Fin 2 → List UInt8} {slot : Fin 64} {firstWriteSide : Option (Fin 2)}
    {reading : SlotReading Record} (salvagedBlank : ∀ left right, salvaged left right = true →
      (∀ selected, left ≠ .valid selected) ∧ ∀ selected, right ≠ .valid selected)
    (read : readSlot format salvaged host regions slot firstWriteSide = some reading) :
    readSides format host regions slot = some reading.sides ∧
    (reading.selected = none → ∀ side selected, reading.sides side ≠ .valid selected) ∧
    ∀ selected, reading.selected = some selected →
      current format.discipline reading.sides = some (some selected) := by
  unfold readSlot at read
  rw [Option.bind_eq_bind, Option.bind_eq_some_iff] at read
  obtain ⟨sides, readable, selection⟩ := read
  split at selection
  · rename_i inForce selects
    obtain rfl := Option.some_inj.mp selection
    refine ⟨readable, ?_, ?_⟩
    · rintro rfl side selected
      show sides side ≠ _
      rw [(current_eq_blank _ _).mp selects side]
      exact nofun
    · rintro selected rfl
      exact selects
  · split at selection
    · rename_i side
      obtain ⟨salvage, equal⟩ := Option.ite_none_right_eq_some.mp selection
      obtain rfl := Option.some_inj.mp equal
      obtain ⟨notLeft, notRight⟩ := salvagedBlank _ _ salvage
      refine ⟨readable, fun _ candidate => ?_, nofun⟩
      by_cases same : candidate = side
      · rw [same]
        exact notLeft
      · rw [eq_other_of_ne same]
        exact notRight
    · cases selection

theorem recoverySalvaged_blank (left right : RecoveryProbe)
    (salvage : recoverySalvaged left right = true) :
    (∀ selected, left ≠ .valid selected) ∧ ∀ selected, right ≠ .valid selected := by
  cases left <;> cases right <;> simp_all [recoverySalvaged]

/-! ### Control files as journals -/

/-- What the journal says about a recovery slot is what the slot reads as. -/
def ReadsRecovery (host : Host) (regions : Regions) (retained : Option RecoveryJournal)
    (journal : RecoveryJournal) (slot : Fin 64) : Prop :=
  ∃ reading, readRecoverySlot host regions retained slot = some reading ∧
    reading.selected = (journal.slots slot).map (Selected.mk journal.laneNonce) ∧
    (∀ side selected, reading.sides side = .valid selected →
      selected.laneNonce = journal.laneNonce) ∧
    ∀ side, journal.physical slot side =
      receipt host (reading.sides side) (regions .recovery slot side)

/-- What the journal says about a successor slot is what the slot reads as. -/
def ReadsSuccessor (host : Host) (regions : Regions) (retained : Option RecoveryJournal)
    (journal : RecoveryJournal) (slot : Fin 64) : Prop :=
  ∃ reading, readSuccessorSlot host regions retained slot = some reading ∧
    reading.selected = journal.successors slot

/-- A journal that is exactly what a control file shows. -/
structure Observed (host : Host) (regions : Regions) (retained : Option RecoveryJournal)
    (journal : RecoveryJournal) : Prop where
  recovery : ∀ slot, ReadsRecovery host regions retained journal slot
  successors : ∀ slot, ReadsSuccessor host regions retained journal slot
  laneSlots : LaneValid host journal.slots
  successorLane : SuccessorLaneValid journal.laneNonce journal.successors
  acknowledged : ∀ slot acknowledgement, Acknowledges journal.successors slot acknowledgement →
    acknowledgementHolds journal.slots journal.physical acknowledgement = true
  pending : journal.pending = none
  checkedOut : journal.checkedOut = false

/-- No frame was ever written. -/
def RecoveryJournal.Blank (journal : RecoveryJournal) : Prop :=
  (∀ slot, journal.slots slot = none) ∧ ∀ slot, journal.successors slot = none

instance (journal : RecoveryJournal) : Decidable journal.Blank :=
  inferInstanceAs (Decidable ((∀ _, _ = none) ∧ ∀ _, _ = none))

theorem mem_sideNonces (sides : Fin 2 → DoubleSlot.Probe (Selected Record)) (nonce : Nonce) :
    nonce ∈ sideNonces sides ↔
      ∃ side selected, sides side = .valid selected ∧ selected.laneNonce = nonce := by
  unfold sideNonces
  simp only [mem_flatMap, mem_finRange, true_and]
  refine exists_congr fun side => ?_
  cases sides side <;> simp [eq_comm]

theorem mem_laneNonces (recovery : Fin 64 → SlotReading RecoveryRecord)
    (successors : Fin 64 → SlotReading SuccessorRecord) (nonce : Nonce) :
    nonce ∈ laneNonces recovery successors ↔
      (∃ slot side selected, (recovery slot).sides side = .valid selected ∧
        selected.laneNonce = nonce) ∨
      (∃ slot selected, (recovery slot).selected = some selected ∧
        selected.laneNonce = nonce) ∨
      ∃ slot selected, (successors slot).selected = some selected ∧
        selected.laneNonce = nonce := by
  unfold laneNonces
  simp only [mem_append, mem_flatMap, mem_finRange, true_and, mem_sideNonces,
    mem_map, Option.mem_toList, exists_or, or_assoc]

theorem observe_eq_some (host : Host) (regions : Regions) (retained : Option RecoveryJournal)
    (fresh : Nonce) (journal : RecoveryJournal) :
    observe host regions retained fresh = some journal ↔
      Observed host regions retained journal ∧
      (∀ cached ∈ retained, cached.laneNonce = journal.laneNonce) ∧
      (journal.Blank →
        journal.laneNonce = (retained.map RecoveryJournal.laneNonce).getD fresh) := by
  unfold observe
  simp only [bind_eq_some, Table.collect_eq_some, admitLaneNonces_eq_some,
    Option.ite_none_right_eq_some, Option.some_inj]
  constructor
  · rintro ⟨recovery, readRecovery, successors, readSuccessors, nonce, ⟨agrees, mentioned⟩,
      ⟨retainedLane, laneSlots, successorLane, acknowledged⟩, rfl⟩
    have lane : ∀ found ∈ laneNonces recovery successors,
        found = (nonce.or (retained.map RecoveryJournal.laneNonce)).getD fresh := by
      intro found member
      rw [agrees found (Or.inr member)]
      rfl
    refine ⟨⟨fun slot => ?_, fun slot => ⟨successors slot, readSuccessors slot, rfl⟩,
      (validateLaneSlots_iff ..).mp laneSlots, (validateSuccessorLane_iff ..).mp successorLane,
      acknowledged, rfl, rfl⟩, retainedLane, ?_⟩
    · refine ⟨recovery slot, readRecovery slot, ?_, ?_, fun side => rfl⟩
      · cases inForce : (recovery slot).selected with
        | none => simp [inForce]
        | some selected =>
          have member := lane selected.laneNonce ((mem_laneNonces ..).mpr
            (Or.inr (Or.inl ⟨slot, selected, inForce, rfl⟩)))
          simp only [inForce, Option.map_some, ← member]
      · intro side selected holds
        exact lane _ ((mem_laneNonces ..).mpr (Or.inl ⟨slot, side, selected, holds, rfl⟩))
    · rintro ⟨noSlots, noSuccessors⟩
      have noNonce : nonce = none := by
        rw [Option.eq_none_iff_forall_not_mem]
        intro found isFound
        rcases mentioned found isFound with impossible | member
        · cases impossible
        · rcases (mem_laneNonces ..).mp member with ⟨slot, side, selected, holds, _⟩ |
            ⟨slot, selected, inForce, _⟩ | ⟨slot, selected, inForce, _⟩
          · have blank := Option.map_eq_none_iff.mp (noSlots slot)
            exact (readSlot_selected recoverySalvaged_blank (readRecovery slot)).2.1 blank side
              selected holds
          · have blank := Option.map_eq_none_iff.mp (noSlots slot)
            rw [inForce] at blank
            cases blank
          · have blank := noSuccessors slot
            rw [show (successors slot).selected = none from blank] at inForce
            cases inForce
      rw [noNonce]
      rfl
  · rintro ⟨observed, retainedLane, blankLane⟩
    choose recovery readRecovery selects lanes receipts using observed.recovery
    choose successors readSuccessors successorSelects using observed.successors
    have lane : ∀ found ∈ laneNonces recovery successors, found = journal.laneNonce := by
      intro found member
      rcases (mem_laneNonces ..).mp member with ⟨slot, side, selected, holds, rfl⟩ |
        ⟨slot, selected, inForce, rfl⟩ | ⟨slot, selected, inForce, rfl⟩
      · exact lanes slot side selected holds
      · rw [selects slot] at inForce
        obtain ⟨frame, _, rfl⟩ := Option.map_eq_some_iff.mp inForce
        rfl
      · rw [successorSelects slot] at inForce
        exact (observed.successorLane.frames slot selected inForce).1
    have slotsEq : (fun slot => (recovery slot).selected.map Selected.frame) =
        journal.slots := by
      funext slot
      rw [selects slot, Option.map_map]
      exact Option.map_id'
    have physicalEq : (fun slot side => receipt host ((recovery slot).sides side)
        (regions .recovery slot side)) = journal.physical := by
      funext slot side
      exact (receipts slot side).symm
    have successorsEq : (fun slot => (successors slot).selected) = journal.successors := by
      funext slot
      exact successorSelects slot
    have nonceValue : ((if laneNonces recovery successors = [] then none
        else some journal.laneNonce : Option Nonce).or
          (retained.map RecoveryJournal.laneNonce)).getD fresh = journal.laneNonce := by
      split
      · rename_i unmentioned
        refine (blankLane ⟨fun slot => ?_, fun slot => ?_⟩).symm
        · by_contra present
          obtain ⟨frame, held⟩ := Option.ne_none_iff_exists'.mp present
          have member : journal.laneNonce ∈ laneNonces recovery successors :=
            (mem_laneNonces ..).mpr (Or.inr (Or.inl ⟨slot, ⟨journal.laneNonce, frame⟩,
              by rw [selects slot, held]; rfl, rfl⟩))
          rw [unmentioned] at member
          cases member
        · by_contra present
          obtain ⟨selected, held⟩ := Option.ne_none_iff_exists'.mp present
          have member : selected.laneNonce ∈ laneNonces recovery successors :=
            (mem_laneNonces ..).mpr (Or.inr (Or.inr ⟨slot, selected,
              by rw [successorSelects slot, held], rfl⟩))
          rw [unmentioned] at member
          cases member
      · rfl
    refine ⟨recovery, readRecovery, successors, readSuccessors,
      if laneNonces recovery successors = [] then none else some journal.laneNonce,
      ⟨?_, ?_⟩, ?_, ?_⟩
    · rintro nonce (impossible | member)
      · cases impossible
      · rw [if_neg (ne_nil_of_mem member), lane nonce member]
    · intro nonce found
      split at found
      · cases found
      · rename_i mentioned
        obtain ⟨first, member⟩ := exists_mem_of_ne_nil _ mentioned
        rw [← Option.some_inj.mp found, ← lane first member]
        exact Or.inr member
    all_goals rw [nonceValue]
    · rw [slotsEq, physicalEq, successorsEq]
      exact ⟨retainedLane, (validateLaneSlots_iff ..).mpr observed.laneSlots,
        (validateSuccessorLane_iff ..).mpr observed.successorLane,
        fun slot acknowledgement member => observed.acknowledged slot acknowledgement
          (by rw [Acknowledges, ← successorSelects slot]; exact member)⟩
    · rw [slotsEq, physicalEq, successorsEq]
      have idle := observed.pending
      have free := observed.checkedOut
      cases journal
      simp only at idle free
      rw [idle, free]

end Axial.Fs
