/-
This file decides what a crash in the middle of a frame write does to the control
file. A slot that was written before comes back as it was; the very first write to
a slot does not survive being torn, because a torn side beside an unused one is a
history the selection of frames rejects.
-/

import Axial.Fs.Retained

namespace Axial.Fs

open Bytes ControlFrame DoubleSlot Relation Function List Option Regions Store

/-! ### Crashes -/

/-- The bytes the side being written held before. -/
def Store.oldRegion (store : Store) (pending : PendingWrite) : List UInt8 :=
  controlRegions store.control pending.domain pending.slot pending.side

/-- What a crash during a write may leave on its side: a byte mixture of the old and the new
contents, which the checksum rejects unless it is one of the two. -/
structure Interrupted (host : Host) (store : Store) (pending : PendingWrite)
    (region : List UInt8) : Prop where
  mixture : Mixture (store.oldRegion pending) pending.encoded region
  rejected : region = store.oldRegion pending ∨ region = pending.encoded ∨
    Torn host pending.domain region

/-- The control file after the crash. -/
def Store.crashed (store : Store) (pending : PendingWrite) (region : List UInt8) : List UInt8 :=
  splice store.control pending.offset region

/-- The slot a write goes to has a frame in force. -/
def PendingWrite.used (pending : PendingWrite) (journal : RecoveryJournal) : Bool :=
  match pending with
  | .recovery registration .. => (journal.slots registration.slot).isSome
  | .successor slot .. => (journal.successors slot).isSome

/-- The receipt of the side a write overwrites. -/
def PendingWrite.overwritten (pending : PendingWrite) (journal : RecoveryJournal) :
    Option RecoveryFrameReceipt :=
  match pending with
  | .recovery registration intended .. =>
    journal.physical registration.slot (generationSide intended.generation)
  | .successor .. => none

/-- The journal before a write, as a fresh start would find it: without any frame on disk the
nonce of the lane is drawn again. -/
def Store.predecessor (store : Store) (fresh : Nonce) : RecoveryJournal :=
  { store.journal with
    laneNonce := if store.journal.Blank then fresh else store.journal.laneNonce }

/-- The journal with the write accepted. -/
def Store.intended (host : Host) (store : Store) (pending : PendingWrite) : RecoveryJournal :=
  acceptPending host (store.journal.sending pending)

/-- Every fresh start after the crash finds the predecessor, up to the receipt of a side whose
bytes are gone, or the intended journal. -/
def Store.Recovers (host : Host) (store : Store) (pending : PendingWrite)
    (region : List UInt8) : Prop :=
  ∀ fresh, ∃ journal,
    decodeControl host (store.crashed pending region) none fresh = some (journal, false) ∧
    (journal.AgreesBeside pending.domain pending.slot pending.side (store.predecessor fresh) ∨
      journal = store.intended host pending)

/-- Every fresh start after the crash finds the predecessor, receipts included, or the intended
journal. -/
def Store.RecoversExactly (host : Host) (store : Store) (pending : PendingWrite)
    (region : List UInt8) : Prop :=
  ∀ fresh,
    decodeControl host (store.crashed pending region) none fresh =
        some (store.predecessor fresh, false) ∨
      decodeControl host (store.crashed pending region) none fresh =
        some (store.intended host pending, false)

/-! ### Reachable stores -/

/-- What accepted operations, crashes and restarts can lead to. -/
inductive Reachable (host : Host) : Store → Prop where
  | blank (laneNonce : Nonce) : Reachable host (.blank laneNonce)
  | commit {store : Store} (pending : PendingWrite) (reachable : Reachable host store)
      (accepts : Accepts host store.journal pending) :
      Reachable host (store.commit host pending)
  | restart {store : Store} {journal : RecoveryJournal} (pending : PendingWrite)
      (region : List UInt8) (fresh : Nonce) (reachable : Reachable host store)
      (accepts : Accepts host store.journal pending)
      (interrupted : Interrupted host store pending region)
      (restarted : decodeControl host (store.crashed pending region) none fresh =
        some (journal, false)) :
      Reachable host ⟨store.crashed pending region, journal⟩

/-! ### Sides that have been used -/

/-- Both sides of a slot whose frame in force is not its first one start with the magic, whole
or torn: no mixture of later frames can blank them. -/
structure Anchored (regions : Regions) (journal : RecoveryJournal) : Prop where
  recovery : ∀ slot frame, journal.slots slot = some frame → isFirstRecoveryFrame frame = false →
    ∀ side, (regions .recovery slot side)[0]? = some 0x41
  successor : ∀ slot selected, journal.successors slot = some selected →
    isFirstSuccessorFrame selected.frame = false →
    ∀ side, (regions .successor slot side)[0]? = some 0x41

variable {host : Host} {slot : Fin 64} {side : Fin 2}

/-- The side a frame is valid on starts with the magic. -/
theorem head_of_valid {Record : Type} {format : Format Record} {regions : Fin 2 → List UInt8}
    {sides : Fin 2 → DoubleSlot.Probe (Selected Record)}
    (read : readSides format host regions slot = some sides) {selected : Selected Record}
    (holds : sides side = .valid selected) : (regions side)[0]? = some 0x41 := by
  have probed := (readSides_eq_some ..).mp read side
  rw [holds] at probed
  exact (encodeFrame_eq_some ((probeFrame_eq_valid ..).mp probed)).2.2.2

variable {journal : RecoveryJournal} {pending : PendingWrite}

theorem Prepared.encoded_head (prepared : Prepared host journal pending) :
    pending.encoded[0]? = some 0x41 := by
  cases pending with
  | recovery => exact (encodeFrame_eq_some prepared.2.2).2.2.2
  | successor => exact (encodeFrame_eq_some prepared.2.2.1).2.2.2

variable {frame : RecoveryFrame}

/-- The write of a used slot goes to the side opposite to its frame in force. -/
theorem side_of_recovery {registration : RecoveryRegistration} {intended : RecoveryFrame}
    (valid : validateRecoveryTransition host journal registration intended = true)
    (held : journal.slots registration.slot = some frame) :
    generationSide intended.generation = other (generationSide frame.generation) := by
  have advances := (transition_advances valid).1
  rw [held] at advances
  rw [generationSide_eq_home, generationSide_eq_home,
    (recoveryFormat host).advance_generation advances, home_succ]

theorem side_of_successor {intended : SuccessorFrame} {selected : SelectedSuccessorFrame}
    (valid : validateSuccessorTransition journal slot intended = true)
    (held : journal.successors slot = some selected) :
    generationSide intended.generation = other (generationSide selected.frame.generation) := by
  unfold validateSuccessorTransition at valid
  rw [Bool.and_eq_true, held] at valid
  rw [generationSide_eq_home, generationSide_eq_home,
    successorFormat.advance_generation valid.1, home_succ]

variable {regions : Regions}

section

variable (intact : Intact host regions journal)

include intact

theorem Anchored.accept (anchored : Anchored regions journal)
    (prepared : Prepared host journal pending) :
    Anchored (regions.pending pending pending.encoded)
      (acceptPending host (journal.sending pending)) := by
  have head := prepared.encoded_head
  cases pending with
  | recovery registration intended offset encoded =>
    refine ⟨fun slot frame held notFirst side => ?_, fun slot selected held notFirst side => ?_⟩
    · show (regions.write .recovery registration.slot (generationSide intended.generation)
        encoded .recovery slot side)[0]? = _
      change update journal.slots registration.slot (some intended) slot = some frame
        at held
      by_cases same : slot = registration.slot
      · subst same
        rw [update_self, some_inj] at held
        subst held
        rw [write_self]
        by_cases here : side = generationSide intended.generation
        · rw [here, update_self]
          exact head
        · rw [update_of_ne here]
          cases before : journal.slots registration.slot with
          | none =>
            have advances := (transition_advances prepared.1).1
            rw [before] at advances
            have isFirst : isFirstRecoveryFrame intended = true :=
              (recoveryFormat host).advance_first advances
            rw [isFirst] at notFirst
            cases notFirst
          | some previous =>
            obtain ⟨sides, found⟩ :=
              (readsRecovery_iff ..).mp (intact.recovery registration.slot)
            have opposite : side = generationSide previous.generation := by
              rw [side_of_recovery prepared.1 before] at here
              rw [eq_other_of_ne here, other_other]
            rw [opposite]
            exact head_of_valid found.read (found.inForce before).1
      · rw [update_of_ne same] at held
        rw [write_slot _ _ _ _ _ _ same]
        exact anchored.recovery slot frame held notFirst side
    · show (regions.write .recovery registration.slot (generationSide intended.generation)
        encoded .successor slot side)[0]? = _
      rw [write_domain _ _ _ _ _ _ (by decide)]
      exact anchored.successor slot selected held notFirst side
  | successor target intended offset encoded =>
    refine ⟨fun slot frame held notFirst side => ?_, fun slot selected held notFirst side => ?_⟩
    · show (regions.write .successor target (generationSide intended.generation)
        encoded .recovery slot side)[0]? = _
      rw [write_domain _ _ _ _ _ _ (by decide)]
      exact anchored.recovery slot frame held notFirst side
    · show (regions.write .successor target (generationSide intended.generation)
        encoded .successor slot side)[0]? = _
      change update journal.successors target (some ⟨journal.laneNonce, intended⟩) slot =
        some selected at held
      by_cases same : slot = target
      · subst same
        rw [update_self, some_inj] at held
        subst held
        rw [write_self]
        by_cases here : side = generationSide intended.generation
        · rw [here, update_self]
          exact head
        · rw [update_of_ne here]
          cases before : journal.successors slot with
          | none =>
            have valid := prepared.1
            unfold validateSuccessorTransition at valid
            rw [Bool.and_eq_true, before] at valid
            have isFirst : isFirstSuccessorFrame intended = true :=
              successorFormat.advance_first valid.1
            rw [isFirst] at notFirst
            cases notFirst
          | some previous =>
            obtain ⟨sides, found⟩ := (readsSuccessor_iff ..).mp (intact.successors slot)
            have opposite : side = generationSide previous.frame.generation := by
              rw [side_of_successor prepared.1 before] at here
              rw [eq_other_of_ne here, other_other]
            rw [opposite]
            exact head_of_valid found.read (found.inForce before).1
      · rw [update_of_ne same] at held
        rw [write_slot _ _ _ _ _ _ same]
        exact anchored.successor slot selected held notFirst side

/-! ### Torn writes -/

/-- The journal without the receipt of the side a write has torn. -/
def RecoveryJournal.dropReceipt (journal : RecoveryJournal) (pending : PendingWrite) :
    RecoveryJournal :=
  journal.withReceipt pending.domain pending.slot pending.side none

variable {region : List UInt8}

/-- Torn bytes beside a frame in force change nothing but the receipt of their side. -/
theorem Intact.torn_recovery (held : journal.slots slot = some frame)
    (away : side = other (generationSide frame.generation)) (torn : Torn host .recovery region)
    (anchored : isFirstRecoveryFrame frame = false → region[0]? = some 0x41)
    (unpinned : journal.Unpinned .recovery slot side) :
    Intact host (regions.write .recovery slot side region)
      (journal.withReceipt .recovery slot side none) := by
  refine intact.beside unpinned (journal.withReceipt_agrees ..) ?_
  obtain ⟨sides, found⟩ := (readsRecovery_iff ..).mp (intact.recovery slot)
  have selected := found.selected
  rw [held] at selected
  obtain ⟨left, notValid, read, selects⟩ := readSides_torn found.read selected away torn anchored
  have noReceipt : receipt host left region = none := by
    cases left with
    | valid candidate => exact absurd rfl (notValid candidate)
    | empty => rfl
    | torn => rfl
  have reads := readsRecovery_rewrite found
    (readSlot_of_current recoverySalvaged (firstRecoverySide none slot)
      (by rw [write_self]; exact read) (by rw [held]; exact selects))
    fun candidate holds => absurd holds (notValid candidate)
  rw [noReceipt] at reads
  exact reads

/-- A torn write of a used slot leaves the frame in force, and everything else, in place. -/
theorem Intact.torn (anchored : Anchored regions journal) (prepared : Prepared host journal pending)
    (torn : Torn host pending.domain region) (used : pending.used journal = true)
    (mixture : Mixture (regions pending.domain pending.slot pending.side) pending.encoded
      region) : Intact host (regions.pending pending region) (journal.dropReceipt pending) := by
  have head := prepared.encoded_head
  have unpinned := prepared.unpinned intact
  cases pending with
  | recovery registration intended offset encoded =>
    obtain ⟨frame, held⟩ := isSome_iff_exists.mp used
    exact intact.torn_recovery held (side_of_recovery prepared.1 held) torn
      (fun notFirst => mixture.agreed (anchored.recovery _ frame held notFirst _) head) unpinned
  | successor target intended offset encoded =>
    obtain ⟨inForce, held⟩ := isSome_iff_exists.mp used
    obtain ⟨sides, read, selected⟩ := (readsSuccessor_iff ..).mp (intact.successors target)
    rw [held] at selected
    obtain ⟨left, notValid, readAfter, selects⟩ := readSides_torn read selected
      (side_of_successor prepared.1 held) torn fun notFirst =>
        mixture.agreed (anchored.successor _ inForce held notFirst _) head
    refine intact.beside unpinned (journal.withReceipt_agrees ..) ?_
    show ReadsSuccessor host (regions.write .successor target _ region) none journal target
    exact ⟨_, readSlot_of_current successorSalvaged (firstSuccessorSide none target)
      (by rw [write_self]; exact readAfter) selects, held.symm⟩

end

/-- A torn first write leaves a control file that no journal is read from. -/
theorem Intact.torn_unused {host : Host} {regions : Regions} {journal : RecoveryJournal}
    (intact : Intact host regions journal) {pending : PendingWrite} {region : List UInt8}
    (torn : Torn host pending.domain region) (unused : pending.used journal = false)
    (different : region ≠ regions pending.domain pending.slot pending.side)
    (after : RecoveryJournal) : ¬ Intact host (regions.pending pending region) after := by
  intro intactAfter
  cases pending with
  | recovery registration intended offset encoded =>
    obtain ⟨sides, found⟩ := (readsRecovery_iff ..).mp (intact.recovery registration.slot)
    obtain ⟨sidesAfter, foundAfter⟩ :=
      (readsRecovery_iff ..).mp (intactAfter.recovery registration.slot)
    have selected := found.selected
    rw [isSome_eq_false_iff.mp unused |> isNone_iff_eq_none.mp] at selected
    have readAfter := foundAfter.read
    rw [Regions.pending] at readAfter
    have written := write_self regions .recovery registration.slot
      (generationSide intended.generation) region
    have unreadable := readSides_torn_blank found.read selected torn different
      (written ▸ readAfter)
    rw [foundAfter.selected] at unreadable
    cases unreadable
  | successor target intended offset encoded =>
    obtain ⟨sides, found⟩ := (readsSuccessor_iff ..).mp (intact.successors target)
    obtain ⟨sidesAfter, foundAfter⟩ :=
      (readsSuccessor_iff ..).mp (intactAfter.successors target)
    have selected := found.selected
    rw [isSome_eq_false_iff.mp unused |> isNone_iff_eq_none.mp] at selected
    have readAfter := foundAfter.read
    rw [Regions.pending] at readAfter
    have written := write_self regions .successor target
      (generationSide intended.generation) region
    have unreadable := readSides_torn_blank found.read selected torn different
      (written ▸ readAfter)
    rw [foundAfter.selected] at unreadable
    cases unreadable

/-! ### Crashes of reachable stores -/

/-- A control file shows at most one journal, up to the nonce of a lane without frames. -/
theorem Intact.frames_unique {first second : RecoveryJournal}
    (intactFirst : Intact host regions first) (intactSecond : Intact host regions second) :
    first.slots = second.slots ∧ first.successors = second.successors := by
  refine ⟨funext fun slot => ?_, funext fun slot => ?_⟩
  · obtain ⟨sides, found⟩ := (readsRecovery_iff ..).mp (intactFirst.recovery slot)
    obtain ⟨others, again⟩ := (readsRecovery_iff ..).mp (intactSecond.recovery slot)
    obtain rfl : sides = others := some_inj.mp (found.read.symm.trans again.read)
    have selected := some_inj.mp (found.selected.symm.trans again.selected)
    have frames := congrArg (Option.map Selected.frame) selected
    rw [Option.map_map, Option.map_map] at frames
    calc first.slots slot
        = (first.slots slot).map (Selected.frame ∘ Selected.mk first.laneNonce) :=
          Option.map_id'.symm
      _ = (second.slots slot).map (Selected.frame ∘ Selected.mk second.laneNonce) := frames
      _ = second.slots slot := Option.map_id'
  · obtain ⟨sides, found⟩ := (readsSuccessor_iff ..).mp (intactFirst.successors slot)
    obtain ⟨others, again⟩ := (readsSuccessor_iff ..).mp (intactSecond.successors slot)
    obtain rfl : sides = others := some_inj.mp (found.read.symm.trans again.read)
    exact some_inj.mp (found.selected.symm.trans again.selected)

theorem Anchored.congr {regions : Regions} {first second : RecoveryJournal}
    (anchored : Anchored regions first)
    (same : first.slots = second.slots ∧ first.successors = second.successors) :
    Anchored regions second := by
  refine ⟨?_, ?_⟩
  · rw [← same.1]
    exact anchored.recovery
  · rw [← same.2]
    exact anchored.successor

/-- Interrupting a later write leaves the magic on both sides of its slot. -/
theorem Anchored.torn (anchored : Anchored regions journal)
    (prepared : Prepared host journal pending)
    (mixture : Mixture (regions pending.domain pending.slot pending.side) pending.encoded
      region) : Anchored (regions.pending pending region) journal := by
  have head := prepared.encoded_head
  have kept : ∀ domain slot,
      (∀ side, (regions domain slot side)[0]? = some 0x41) →
      ∀ side, (regions.pending pending region domain slot side)[0]? = some 0x41 := by
    intro domain slot heads side
    rw [Regions.pending]
    by_cases sameDomain : domain = pending.domain
    · subst sameDomain
      by_cases sameSlot : slot = pending.slot
      · subst sameSlot
        rw [write_self]
        by_cases here : side = pending.side
        · rw [here, update_self]
          exact mixture.agreed (heads _) head
        · rw [update_of_ne here]
          exact heads side
      · rw [write_slot _ _ _ _ _ _ sameSlot]
        exact heads side
    · rw [write_domain _ _ _ _ _ _ sameDomain]
      exact heads side
  exact ⟨fun slot frame held notFirst => kept _ _ (anchored.recovery slot frame held notFirst),
    fun slot selected held notFirst => kept _ _ (anchored.successor slot selected held notFirst)⟩

variable {store : Store}

/-- What a crash in a prepared write of a store that loads can lead to. -/
theorem Store.crash_cases (loads : store.Loads host)
    (anchored : Anchored (controlRegions store.control) store.journal)
    (prepared : Prepared host store.journal pending)
    (interrupted : Interrupted host store pending region) :
    (store.crashed pending region).length = controlBytes ∧
    controlRegions (store.crashed pending region) =
      (controlRegions store.control).pending pending region ∧
    ((region = store.oldRegion pending ∧ store.crashed pending region = store.control) ∨
      (region = pending.encoded ∧
        Intact host (controlRegions (store.crashed pending region))
          (store.intended host pending)) ∨
      (region ≠ store.oldRegion pending ∧ region ≠ pending.encoded ∧
        pending.used store.journal = true ∧
        Intact host (controlRegions (store.crashed pending region))
          (store.journal.dropReceipt pending)) ∨
      (region ≠ store.oldRegion pending ∧ region ≠ pending.encoded ∧
        pending.used store.journal = false ∧
        ∀ after, ¬ Intact host (controlRegions (store.crashed pending region)) after)) := by
  obtain ⟨length, intact⟩ := (loads_iff host store).mp loads
  have sized : region.length = frameBytes :=
    interrupted.mixture.1.trans prepared.encoded_length
  have regions := controlRegions_pending prepared region length sized
  refine ⟨splice_pending_length prepared region length sized, regions, ?_⟩
  rw [Store.crashed, regions]
  by_cases old : region = store.oldRegion pending
  · refine Or.inl ⟨old, ?_⟩
    rw [old, prepared.offset]
    exact splice_slice_self (by rw [length]; exact offset_inside _ _ _)
  by_cases new : region = pending.encoded
  · refine Or.inr (Or.inl ⟨new, ?_⟩)
    rw [new]
    exact intact.accept prepared
  have torn := (interrupted.rejected.resolve_left old).resolve_left new
  cases used : pending.used store.journal with
  | true =>
    exact Or.inr (Or.inr (Or.inl ⟨old, new, rfl,
      intact.torn anchored prepared torn used interrupted.mixture⟩))
  | false =>
    exact Or.inr (Or.inr (Or.inr ⟨old, new, rfl, intact.torn_unused torn used old⟩))

/-- A reachable store loads, and its used sides are anchored. -/
theorem Reachable.sound (reachable : Reachable host store) :
    store.Loads host ∧ Anchored (controlRegions store.control) store.journal := by
  induction reachable with
  | blank laneNonce => exact ⟨loads_blank host laneNonce, nofun, nofun⟩
  | @commit store pending reachable accepts ih =>
    obtain ⟨loads, anchored⟩ := ih
    obtain ⟨length, intact⟩ := (loads_iff host store).mp loads
    have prepared := accepts.prepared
    refine ⟨loads.commit prepared, ?_⟩
    show Anchored (controlRegions (splice store.control pending.offset pending.encoded)) _
    rw [controlRegions_pending prepared _ length prepared.encoded_length]
    exact anchored.accept intact prepared
  | @restart store journal pending region fresh reachable accepts interrupted restarted
      ih =>
    obtain ⟨loads, anchored⟩ := ih
    obtain ⟨_, intact⟩ := (loads_iff host store).mp loads
    have prepared := accepts.prepared
    obtain ⟨_, length, intactAfter, _⟩ := (decodeControl_fresh_eq_some ..).mp restarted
    refine ⟨(loads_iff host _).mpr ⟨length, intactAfter⟩, ?_⟩
    obtain ⟨_, regions, old | new | torn | lost⟩ :=
      crash_cases loads anchored prepared interrupted
    · show Anchored (controlRegions (store.crashed pending region)) journal
      rw [old.2] at intactAfter ⊢
      exact anchored.congr (intact.frames_unique intactAfter)
    · refine Anchored.congr ?_ (new.2.frames_unique intactAfter)
      show Anchored (controlRegions (store.crashed pending region)) _
      rw [regions, new.1]
      exact anchored.accept intact prepared
    · refine @Anchored.congr _ (store.journal.dropReceipt pending) _ ?_
        (torn.2.2.2.frames_unique intactAfter)
      show Anchored (controlRegions (store.crashed pending region)) _
      rw [regions]
      refine (anchored.torn prepared interrupted.mixture).congr ?_
      cases pending <;> exact ⟨rfl, rfl⟩
    · exact absurd intactAfter (lost.2.2.2 journal)

/-! ### What a fresh start finds -/

theorem PendingWrite.used_not_blank (used : pending.used journal = true) : ¬ journal.Blank := by
  rintro ⟨noSlots, noSuccessors⟩
  cases pending with
  | recovery registration =>
    rw [PendingWrite.used, noSlots] at used
    cases used
  | successor slot =>
    rw [PendingWrite.used, noSuccessors] at used
    cases used

theorem Store.predecessor_of_not_blank (written : ¬ store.journal.Blank) (fresh : Nonce) :
    store.predecessor fresh = store.journal := by
  rw [Store.predecessor, if_neg written]

/-- A lane without any frame shows no nonce of its own. -/
theorem Intact.redraw (intact : Intact host regions journal) (blank : journal.Blank) (fresh : Nonce)
    : Intact host regions { journal with laneNonce := fresh } := by
  refine ⟨fun slot => (readsRecovery_iff ..).mpr ?_, intact.successors, intact.laneSlots, ?_,
    intact.acknowledged, intact.pending, intact.checkedOut⟩
  · obtain ⟨sides, found⟩ := (readsRecovery_iff ..).mp (intact.recovery slot)
    have selected := found.selected
    rw [blank.1 slot] at selected
    refine ⟨sides, found.read, ?_, fun side frame holds => ?_, found.physical⟩
    · show current _ sides = some ((journal.slots slot).map (Selected.mk fresh))
      rw [blank.1 slot]
      exact selected
    · rw [(current_eq_blank _ _).mp selected side] at holds
      cases holds
  · obtain ⟨_, distinct, disjoint⟩ := intact.successorLane
    refine ⟨fun slot selected held => ?_, distinct, disjoint⟩
    change journal.successors slot = some selected at held
    rw [blank.2 slot] at held
    cases held

theorem Store.crashed_old (loads : store.Loads host)
    (same : store.crashed pending region = store.control) (fresh : Nonce) :
    decodeControl host (store.crashed pending region) none fresh =
      some (store.predecessor fresh, false) := by
  obtain ⟨length, intact⟩ := (loads_iff host store).mp loads
  rw [same]
  refine (decodeControl_fresh_eq_some ..).mpr ⟨rfl, length, ?_⟩
  by_cases blank : store.journal.Blank
  · rw [Store.predecessor, if_pos blank]
    exact ⟨intact.redraw blank fresh, fun _ => rfl⟩
  · rw [predecessor_of_not_blank blank]
    exact ⟨intact, fun impossible => absurd impossible blank⟩

theorem Store.intended_not_blank (host : Host) (store : Store) (pending : PendingWrite) :
    ¬ (store.intended host pending).Blank := by
  rintro ⟨noSlots, noSuccessors⟩
  cases pending with
  | recovery registration intended =>
    have held := noSlots registration.slot
    change update store.journal.slots registration.slot (some intended) _ = none at held
    rw [update_self] at held
    cases held
  | successor slot intended =>
    have held := noSuccessors slot
    change update store.journal.successors slot
      (some ⟨store.journal.laneNonce, intended⟩) _ = none at held
    rw [update_self] at held
    cases held

/-- A written slot is not the slot it was: the generations differ. -/
theorem Prepared.changes (prepared : Prepared host store.journal pending) :
    (store.intended host pending).slots ≠ store.journal.slots ∨
      (store.intended host pending).successors ≠ store.journal.successors := by
  cases pending with
  | recovery registration intended offset encoded =>
    refine Or.inl fun same => ?_
    have held := congrFun same registration.slot
    change update store.journal.slots registration.slot (some intended) _ = _ at held
    rw [update_self] at held
    have opposite := side_of_recovery prepared.1 held.symm
    exact other_ne _ opposite.symm
  | successor slot intended offset encoded =>
    refine Or.inr fun same => ?_
    have held := congrFun same slot
    change update store.journal.successors slot
      (some ⟨store.journal.laneNonce, intended⟩) _ = _ at held
    rw [update_self] at held
    have opposite := side_of_successor prepared.1 held.symm
    exact other_ne _ opposite.symm

theorem RecoveryJournal.dropReceipt_eq_self_iff (journal : RecoveryJournal)
    (pending : PendingWrite) :
    journal.dropReceipt pending = journal ↔ pending.overwritten journal = none := by
  cases pending with
  | recovery registration intended offset encoded =>
    constructor
    · intro same
      have physical := congrFun (congrFun (congrArg RecoveryJournal.physical same)
        registration.slot) (generationSide intended.generation)
      change update journal.physical registration.slot (update
        (journal.physical registration.slot) (generationSide intended.generation) none) _ _ = _
        at physical
      rw [update_self, update_self] at physical
      exact physical.symm
    · intro absent
      change journal.physical registration.slot (generationSide intended.generation) = none
        at absent
      show { journal with
        physical := update journal.physical registration.slot
          (update (journal.physical registration.slot)
            (generationSide intended.generation) none) } = journal
      rw [← absent, update_eq_self, update_eq_self]
  | successor => exact ⟨fun _ => rfl, fun _ => rfl⟩

/-- A write into a reachable control file that is interrupted is recovered by a fresh start,
unless it is the first one of its slot and was cut short: then no journal is read any more. When
a later write of a slot is cut short, the receipt of the frame that was being overwritten is gone
with it; where there was none, the predecessor comes back exactly. -/
theorem interruptedWrite_recovers_iff (host : Host) (store : Store)
    (reachable : Reachable host store) (pending : PendingWrite)
    (accepts : Accepts host store.journal pending) (region : List UInt8)
    (interrupted : Interrupted host store pending region) :
    (store.Recovers host pending region ↔
      pending.used store.journal = true ∨ region = store.oldRegion pending ∨
        region = pending.encoded) ∧
    (store.RecoversExactly host pending region ↔
      (pending.used store.journal = true ∧ pending.overwritten store.journal = none) ∨
        region = store.oldRegion pending ∨ region = pending.encoded) ∧
    (¬ store.Recovers host pending region →
      ∀ fresh, decodeControl host (store.crashed pending region) none fresh = none) := by
  obtain ⟨loads, anchored⟩ := reachable.sound
  have prepared := accepts.prepared
  obtain ⟨length, -, old | new | torn | lost⟩ :=
    crash_cases loads anchored prepared interrupted
  · have recovers := crashed_old loads old.2
    have agrees : store.Recovers host pending region := fun fresh =>
      ⟨_, recovers fresh, Or.inl ⟨rfl, rfl, rfl, fun _ _ _ => rfl, rfl, rfl⟩⟩
    exact ⟨iff_of_true agrees (Or.inr (Or.inl old.1)),
      iff_of_true (fun fresh => Or.inl (recovers fresh)) (Or.inr (Or.inl old.1)),
      fun fails => absurd agrees fails⟩
  · have recovers : ∀ fresh, decodeControl host (store.crashed pending region) none fresh =
        some (store.intended host pending, false) := fun fresh =>
      (decodeControl_fresh_eq_some ..).mpr ⟨rfl, length, new.2,
        fun blank => absurd blank (store.intended_not_blank host pending)⟩
    have agrees : store.Recovers host pending region := fun fresh =>
      ⟨_, recovers fresh, Or.inr rfl⟩
    exact ⟨iff_of_true agrees (Or.inr (Or.inr new.1)),
      iff_of_true (fun fresh => Or.inr (recovers fresh)) (Or.inr (Or.inr new.1)),
      fun fails => absurd agrees fails⟩
  · obtain ⟨notOld, notNew, used, intact⟩ := torn
    have written := PendingWrite.used_not_blank used
    have predecessor := predecessor_of_not_blank written
    have agreement : (store.journal.dropReceipt pending).AgreesBeside pending.domain pending.slot
        pending.side store.journal := store.journal.withReceipt_agrees ..
    have recovers : ∀ fresh, decodeControl host (store.crashed pending region) none fresh =
        some (store.journal.dropReceipt pending, false) := by
      refine fun fresh => (decodeControl_fresh_eq_some ..).mpr ⟨rfl, length, intact, ?_⟩
      rintro ⟨noSlots, noSuccessors⟩
      rw [agreement.slots] at noSlots
      rw [agreement.successors] at noSuccessors
      exact absurd ⟨noSlots, noSuccessors⟩ written
    have agrees : store.Recovers host pending region := fun fresh =>
      ⟨_, recovers fresh, Or.inl ((predecessor fresh).symm ▸ agreement)⟩
    refine ⟨iff_of_true agrees (Or.inl used), ⟨fun exactly => ?_, ?_⟩,
      fun fails => absurd agrees fails⟩
    · refine Or.inl ⟨used, ?_⟩
      have found := exactly store.journal.laneNonce
      rw [recovers, predecessor] at found
      rcases found with same | same
      · injection same with same
        injection same with same
        exact (store.journal.dropReceipt_eq_self_iff pending).mp same
      · injection same with same
        injection same with same
        rcases prepared.changes with slots | successors
        · rw [← same] at slots
          exact absurd agreement.slots slots
        · rw [← same] at successors
          exact absurd agreement.successors successors
    · rintro (⟨-, absent⟩ | old | new) fresh
      · left
        rw [recovers, predecessor, (store.journal.dropReceipt_eq_self_iff pending).mpr absent]
      · exact absurd old notOld
      · exact absurd new notNew
  · obtain ⟨notOld, notNew, unused, unreadable⟩ := lost
    have nothing : ∀ fresh,
        decodeControl host (store.crashed pending region) none fresh = none := by
      intro fresh
      refine eq_none_iff_forall_not_mem.mpr ?_
      rintro ⟨journal, intended⟩ found
      exact unreadable journal ((decodeControl_fresh_eq_some ..).mp found).2.2.1
    have fails : ¬ store.Recovers host pending region := by
      intro recovers
      obtain ⟨journal, found, -⟩ := recovers store.journal.laneNonce
      rw [nothing] at found
      cases found
    refine ⟨iff_of_false fails ?_, iff_of_false (fun exactly => ?_) ?_, fun _ => nothing⟩
    · rintro (used | old | new)
      · rw [unused] at used
        cases used
      · exact notOld old
      · exact notNew new
    · rcases exactly store.journal.laneNonce with found | found
      · rw [nothing] at found
        cases found
      · rw [nothing] at found
        cases found
    · rintro (⟨used, -⟩ | old | new)
      · rw [unused] at used
        cases used
      · exact notOld old
      · exact notNew new

/-- A side that only got the first byte of a frame. -/
def firstByte : List UInt8 := 0x41 :: List.replicate (frameBytes - 1) 0

theorem firstByte_torn : Torn plainHost .recovery firstByte := by
  refine ⟨congrArg (· + 1) length_replicate, fun same => ?_⟩
  have digest : ∀ body side, (checksum plainHost .recovery body side).val =
      List.replicate 32 1 := fun _ _ => rfl
  rw [digest, firstByte, show bodyBytes = bodyBytes - 1 + 1 from rfl, drop_succ_cons,
    drop_replicate, replicate_inj] at same
  exact absurd same (by decide)

theorem firstByte_marked : firstByte ≠ List.replicate frameBytes 0 := by
  rw [show frameBytes = frameBytes - 1 + 1 from rfl, replicate_succ]
  intro same
  injection same with heads
  exact absurd heads (by decide)

/-- Of a write into a blank side only the first byte may arrive. -/
theorem interrupted_firstByte {store : Store} {pending : PendingWrite}
    (prepared : Prepared plainHost store.journal pending) (domain : pending.domain = .recovery)
    (blank : store.oldRegion pending = List.replicate frameBytes 0) :
    Interrupted plainHost store pending firstByte := by
  have zeros : List.replicate frameBytes (0 : UInt8) = 0 :: List.replicate (frameBytes - 1) 0 :=
    replicate_succ
  have head : pending.encoded[0]? = some 0x41 := prepared.encoded_head
  refine ⟨⟨?_, ?_, ?_⟩, Or.inr (Or.inr (domain ▸ firstByte_torn))⟩
  · exact firstByte_torn.length.trans prepared.encoded_length.symm
  · rw [blank]
    exact length_replicate.trans prepared.encoded_length.symm
  · intro index
    rw [blank]
    cases index with
    | zero => exact Or.inr head.symm
    | succ index =>
      left
      rw [firstByte, getElem?_cons_succ, zeros, getElem?_cons_succ]

/-- A level is staged, and of the write that seals it only the first byte arrives. -/
theorem interruptedWrite_recovers_iff_sealed :
    ∃ store pending, Reachable plainHost store ∧ Accepts plainHost store.journal pending ∧
      Interrupted plainHost store pending firstByte ∧ pending.used store.journal = true ∧
      firstByte ≠ store.oldRegion pending ∧ store.RecoversExactly plainHost pending firstByte := by
  obtain ⟨first, acceptsFirst⟩ := accepts_level
  obtain ⟨second, accepts⟩ := accepts_seal acceptsFirst
  have reached := (Reachable.blank levelNonce).commit _ acceptsFirst
  have blank : ((Store.blank levelNonce).commit plainHost (levelWrite first)).oldRegion
      (sealWrite second) = List.replicate frameBytes 0 := by
    show controlRegions (splice _ _ (levelWrite first).encoded) .recovery 0 1 = _
    rw [controlRegions_pending acceptsFirst.prepared _ length_replicate
      acceptsFirst.prepared.encoded_length]
    exact other_side_blank ..
  have interrupted := interrupted_firstByte accepts.prepared rfl blank
  exact ⟨_, _, reached, accepts, interrupted, rfl, fun same => firstByte_marked (same.trans blank),
    (interruptedWrite_recovers_iff plainHost _ reached _ accepts _ interrupted).2.1.mpr
      (Or.inl ⟨rfl, rfl⟩)⟩

/-- A first write of which only the first byte arrived is not recovered from. -/
theorem interruptedFirstWrite_not_recovered :
    ¬ ∀ (host : Host) (store : Store), Reachable host store → ∀ pending,
      Accepts host store.journal pending → ∀ region, Interrupted host store pending region →
        store.Recovers host pending region := by
  intro recovers
  obtain ⟨encoded, accepts⟩ := accepts_level
  have prepared := accepts.prepared
  have blank : (Store.blank levelNonce).oldRegion (levelWrite encoded) =
      List.replicate frameBytes 0 := controlRegions_replicate ..
  have interrupted := interrupted_firstByte prepared rfl blank
  obtain ⟨journal, found, -⟩ := recovers plainHost (.blank levelNonce) (.blank levelNonce) _
    accepts _ interrupted levelNonce
  have intact := ((decodeControl_fresh_eq_some ..).mp found).2.2.1
  rw [Store.crashed, controlRegions_pending prepared _ length_replicate
    firstByte_torn.length] at intact
  refine @Intact.torn_unused _ _ _ (intact_blank plainHost levelNonce) (levelWrite encoded) _
    firstByte_torn rfl ?_ journal intact
  exact fun same => firstByte_marked (same.trans blank)

end Axial.Fs
