/-
This file compares two readings of a control file: the one a fresh start makes and
the one made against a journal that is still in memory. They differ at most on the
one side that a write was in flight for.
-/

import Axial.Fs.Pins

namespace Axial.Fs

open Bytes ControlFrame DoubleSlot Function

/-! ### What a retained journal adds -/

variable {host : Host} {slot : Fin 64}

/-- A slot whose sides select is read the same way whether or not its first write is in
flight. -/
theorem readSlot_of_current {Record : Type} {format : Format Record} (salvaged : Salvage Record)
    {regions : Fin 2 → List UInt8} (firstWriteSide : Option (Fin 2))
    {sides : Fin 2 → DoubleSlot.Probe (Selected Record)} {selected : Option (Selected Record)}
    (read : readSides format host regions slot = some sides)
    (selects : current format.discipline sides = some selected) :
    readSlot format salvaged host regions slot firstWriteSide = some ⟨sides, selected⟩ := by
  unfold readSlot
  rw [read]
  show Option.bind _ _ = _
  rw [Option.bind_some, selects]

variable {journal : RecoveryJournal} {regions : Regions}

theorem ReadsRecovery.retain (reads : ReadsRecovery host regions none journal slot)
    (retained : Option RecoveryJournal) : ReadsRecovery host regions retained journal slot := by
  obtain ⟨sides, found⟩ := (readsRecovery_iff ..).mp reads
  exact ⟨⟨sides, _⟩, readSlot_of_current _ _ found.read found.selected, rfl, found.lanes,
    found.physical⟩

theorem ReadsSuccessor.retain (reads : ReadsSuccessor host regions none journal slot)
    (retained : Option RecoveryJournal) : ReadsSuccessor host regions retained journal slot := by
  obtain ⟨sides, found⟩ := (readsSuccessor_iff ..).mp reads
  exact ⟨⟨sides, _⟩, readSlot_of_current _ _ found.read found.selected, rfl⟩

theorem Intact.retain (intact : Intact host regions journal) (retained : Option RecoveryJournal) :
    Observed host regions retained journal :=
  ⟨fun slot => (intact.recovery slot).retain retained,
    fun slot => (intact.successors slot).retain retained, intact.laneSlots, intact.successorLane,
    intact.acknowledged, intact.pending, intact.checkedOut⟩

variable {retained : Option RecoveryJournal}

/-- A control file that a fresh start reads is read the same way against any retained journal
of the same lane. -/
theorem Observed.unique {observed : RecoveryJournal}
    (seen : Observed host regions retained observed) (intact : Intact host regions journal)
    (lane : observed.laneNonce = journal.laneNonce) : observed = journal := by
  have again := intact.retain retained
  have slots : observed.slots = journal.slots := by
    funext slot
    obtain ⟨reading, read, selected, -⟩ := seen.recovery slot
    obtain ⟨other, readOther, selectedOther, -⟩ := again.recovery slot
    obtain rfl : reading = other := Option.some_inj.mp (read.symm.trans readOther)
    rw [selectedOther, lane] at selected
    refine (Option.map_injective ?_ selected).symm
    intro first second same
    injection same
  have physical : observed.physical = journal.physical := by
    funext slot side
    obtain ⟨reading, read, -, -, receipts⟩ := seen.recovery slot
    obtain ⟨other, readOther, -, -, receiptsOther⟩ := again.recovery slot
    obtain rfl : reading = other := Option.some_inj.mp (read.symm.trans readOther)
    rw [receipts, receiptsOther]
  have successors : observed.successors = journal.successors := by
    funext slot
    obtain ⟨reading, read, selected⟩ := seen.successors slot
    obtain ⟨other, readOther, selectedOther⟩ := again.successors slot
    obtain rfl : reading = other := Option.some_inj.mp (read.symm.trans readOther)
    rw [← selected, selectedOther]
  have idle := seen.pending.trans intact.pending.symm
  have free := seen.checkedOut.trans intact.checkedOut.symm
  cases observed
  cases journal
  simp only at lane slots physical successors idle free
  subst lane slots physical successors idle free
  rfl

/-! ### One side changed -/

/-- Two journals that differ at most in the receipt of one side. -/
structure RecoveryJournal.AgreesBeside (journal : RecoveryJournal) (domain : Domain)
    (slot : Fin 64) (side : Fin 2) (predecessor : RecoveryJournal) : Prop where
  laneNonce : journal.laneNonce = predecessor.laneNonce
  slots : journal.slots = predecessor.slots
  successors : journal.successors = predecessor.successors
  physical : ∀ other candidate, domain = .successor ∨ other ≠ slot ∨ candidate ≠ side →
    journal.physical other candidate = predecessor.physical other candidate
  pending : journal.pending = predecessor.pending
  checkedOut : journal.checkedOut = predecessor.checkedOut

/-- No live successor acknowledges a frame on this side. -/
def RecoveryJournal.Unpinned (journal : RecoveryJournal) (domain : Domain) (slot : Fin 64)
    (side : Fin 2) : Prop :=
  domain = .recovery → ∀ successor acknowledgement,
    Acknowledges journal.successors successor acknowledgement →
    acknowledgement.recoverySlot = slot → acknowledgement.recoverySide ≠ side

theorem Prepared.unpinned (intact : Intact host regions journal) {pending : PendingWrite}
    (prepared : Prepared host journal pending) :
    journal.Unpinned pending.domain pending.slot pending.side := by
  cases pending with
  | recovery registration intended offset encoded =>
    intro _ successor acknowledgement acknowledged same
    exact (pinned_transition intact prepared.1 acknowledged same).2.2
  | successor => exact nofun

variable {region : List UInt8} {side : Fin 2}

/-- If the slot of an unpinned side still reads as before, whatever the side now holds, so does
the whole control file. -/
theorem Intact.beside (intact : Intact host regions journal) {domain : Domain}
    (unpinned : journal.Unpinned domain slot side) {after : RecoveryJournal}
    (agrees : after.AgreesBeside domain slot side journal) (reads : match domain with
      | .recovery =>
        ReadsRecovery host (regions.write domain slot side region) retained after slot
      | .successor =>
        ReadsSuccessor host (regions.write domain slot side region) retained after slot) :
    Observed host (regions.write domain slot side region) retained after := by
  obtain ⟨laneNonce, slots, successors, physical, idle, free⟩ := agrees
  refine ⟨fun other => ?_, fun other => ?_, by rw [slots]; exact intact.laneSlots,
    by rw [laneNonce, successors]; exact intact.successorLane, ?_, idle.trans intact.pending,
    free.trans intact.checkedOut⟩
  · by_cases here : domain = .recovery ∧ other = slot
    · obtain ⟨rfl, rfl⟩ := here
      exact reads
    · have away : regions.write domain slot side region .recovery other =
          regions .recovery other := by
        by_cases same : domain = .recovery
        · subst same
          exact Regions.write_slot _ _ _ _ _ _ fun equal => here ⟨rfl, equal⟩
        · exact congrFun (Regions.write_domain _ _ _ _ _ _ (Ne.symm same)) other
      have beside : ∀ candidate, domain = .successor ∨ other ≠ slot ∨ candidate ≠ side := by
        intro candidate
        cases domain with
        | recovery => exact Or.inr (Or.inl fun equal => here ⟨rfl, equal⟩)
        | successor => exact Or.inl rfl
      obtain ⟨reading, read, selected, lanes, receipts⟩ :=
        (intact.recovery other).retain retained
      refine ⟨reading, ?_, ?_, ?_, fun candidate => ?_⟩
      · unfold readRecoverySlot at read ⊢
        rw [away]
        exact read
      · rw [slots, laneNonce]
        exact selected
      · rw [laneNonce]
        exact lanes
      · rw [physical other candidate (beside candidate), away]
        exact receipts candidate
  · by_cases here : domain = .successor ∧ other = slot
    · obtain ⟨rfl, rfl⟩ := here
      exact reads
    · have away : regions.write domain slot side region .successor other =
          regions .successor other := by
        by_cases same : domain = .successor
        · subst same
          exact Regions.write_slot _ _ _ _ _ _ fun equal => here ⟨rfl, equal⟩
        · exact congrFun (Regions.write_domain _ _ _ _ _ _ (Ne.symm same)) other
      obtain ⟨reading, read, selected⟩ := (intact.successors other).retain retained
      refine ⟨reading, ?_, ?_⟩
      · unfold readSuccessorSlot at read ⊢
        rw [away]
        exact read
      · rw [successors]
        exact selected
  · intro successor acknowledgement acknowledged
    rw [successors] at acknowledged
    have before := intact.acknowledged successor acknowledgement acknowledged
    unfold acknowledgementHolds at before ⊢
    rw [slots, physical]
    · exact before
    · cases domain with
      | recovery =>
        by_cases same : acknowledgement.recoverySlot = slot
        · exact Or.inr (Or.inr (unpinned rfl successor acknowledgement acknowledged same))
        · exact Or.inr (Or.inl same)
      | successor => exact Or.inl rfl

/-! ### Receipts -/

/-- The journal with the receipt of one side replaced. -/
def RecoveryJournal.withReceipt (journal : RecoveryJournal) (domain : Domain) (slot : Fin 64)
    (side : Fin 2) (present : Option RecoveryFrameReceipt) : RecoveryJournal :=
  match domain with
  | .recovery =>
    { journal with
      physical := update journal.physical slot
        (update (journal.physical slot) side present) }
  | .successor => journal

theorem RecoveryJournal.withReceipt_agrees (journal : RecoveryJournal) (domain : Domain)
    (slot : Fin 64) (side : Fin 2) (present : Option RecoveryFrameReceipt) :
    (journal.withReceipt domain slot side present).AgreesBeside domain slot side journal := by
  cases domain with
  | recovery =>
    refine ⟨rfl, rfl, rfl, fun other candidate beside => ?_, rfl, rfl⟩
    show update journal.physical slot _ other candidate = _
    by_cases same : other = slot
    · subst same
      have away : candidate ≠ side :=
        (beside.resolve_left nofun).resolve_left fun different => different rfl
      rw [update_self, update_of_ne away]
    · rw [update_of_ne same]
  | successor => exact ⟨rfl, rfl, rfl, fun _ _ _ => rfl, rfl, rfl⟩

/-- Reading a recovery slot again after one side of it changed. -/
theorem readsRecovery_rewrite {sides : Fin 2 → RecoveryProbe}
    (found : RecoverySides host regions journal slot sides) {left : RecoveryProbe}
    (read : readRecoverySlot host (regions.write .recovery slot side region) retained slot =
      some ⟨update sides side left,
        (journal.slots slot).map (Selected.mk journal.laneNonce)⟩)
    (lanes : ∀ candidate, left = .valid candidate → candidate.laneNonce = journal.laneNonce) :
    ReadsRecovery host (regions.write .recovery slot side region) retained
      (journal.withReceipt .recovery slot side (receipt host left region)) slot := by
  refine ⟨_, read, rfl, fun other candidate holds => ?_, fun other => ?_⟩
  · change update sides side left other = .valid candidate at holds
    by_cases here : other = side
    · rw [here, update_self] at holds
      exact lanes candidate holds
    · rw [update_of_ne here] at holds
      exact found.lanes other candidate holds
  · show update journal.physical slot _ slot other =
      receipt host (update sides side left other) _
    rw [update_self, Regions.write_self]
    by_cases here : other = side
    · rw [here, update_self, update_self, update_self]
    · rw [update_of_ne here, update_of_ne here, update_of_ne here]
      exact found.physical other

end Axial.Fs
