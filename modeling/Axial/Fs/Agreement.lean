/-
This file proves that the journal in memory never drifts from the control file,
whatever steps of driving a write fail. A write that is in flight has changed one
side at most, and rereading the file against the journal tells what became of it.
-/

import Axial.Fs.CrashConsistency
import Axial.Fs.Driving

namespace Axial.Fs

open Bytes Reader ControlFrame DoubleSlot Relation Function Store

/-! ### Rereading against a retained journal -/

/-- Outside the pending write's own slot and side, two journals say the same. -/
structure RecoveryJournal.MatchesOutside (observed : RecoveryJournal) (pending : PendingWrite)
    (cached : RecoveryJournal) : Prop where
  slots : ∀ slot, pending.domain = .successor ∨ slot ≠ pending.slot →
    observed.slots slot = cached.slots slot
  successors : ∀ slot, pending.domain = .recovery ∨ slot ≠ pending.slot →
    observed.successors slot = cached.successors slot
  physical : ∀ slot side, pending.domain = .successor ∨ slot ≠ pending.slot ∨
    side ≠ pending.side → observed.physical slot side = cached.physical slot side

/-- The slot of the pending write holds what the cached journal says. -/
def PendingWrite.HoldsPredecessor (pending : PendingWrite)
    (observed cached : RecoveryJournal) : Prop :=
  match pending with
  | .recovery registration .. =>
    observed.slots registration.slot = cached.slots registration.slot
  | .successor slot .. => observed.successors slot = cached.successors slot

/-- The slot of the pending write holds the intended frame. -/
def PendingWrite.HoldsIntended (pending : PendingWrite) (observed : RecoveryJournal) : Prop :=
  match pending with
  | .recovery registration intended .. => observed.slots registration.slot = some intended
  | .successor slot intended .. =>
    (observed.successors slot).map Selected.frame = some intended

theorem compareRetained_eq_some (host : Host) (control : List UInt8)
    (cached observed : RecoveryJournal) {pending : PendingWrite}
    (sent : cached.pending = some pending) (intended : Bool) :
    compareRetained host control cached observed = some intended ↔
      validatePending host cached = true ∧ observed.MatchesOutside pending cached ∧
      if intended then
        ¬ pending.HoldsPredecessor observed cached ∧ pending.HoldsIntended observed ∧
          slice control pending.offset frameBytes = pending.encoded
      else
        pending.HoldsPredecessor observed cached := by
  unfold compareRetained
  rw [Option.ite_none_right_eq_some, sent]
  refine and_congr_right fun _ => ?_
  cases pending with
  | recovery registration frame offset encoded =>
    have outside : (observed.successors = cached.successors ∧
        (∀ slot, slot ≠ registration.slot → observed.slots slot = cached.slots slot) ∧
        ∀ slot candidate, slot ≠ registration.slot ∨ candidate ≠ generationSide frame.generation →
          observed.physical slot candidate = cached.physical slot candidate) ↔
        observed.MatchesOutside (.recovery registration frame offset encoded) cached := by
      constructor
      · rintro ⟨successors, slots, physical⟩
        exact ⟨fun slot beside => slots slot (beside.resolve_left fun absurd => by cases absurd),
          fun slot _ => congrFun successors slot,
          fun slot side beside => physical slot side (beside.resolve_left fun absurd => by cases absurd)⟩
      · rintro ⟨slots, successors, physical⟩
        exact ⟨funext fun slot => successors slot (Or.inl rfl),
          fun slot different => slots slot (Or.inr different),
          fun slot side beside => physical slot side (Or.inr beside)⟩
    simp only [Option.ite_none_right_eq_some, outside]
    refine and_congr_right fun _ => ?_
    show (if observed.slots registration.slot = cached.slots registration.slot then _ else _) = _ ↔ _
    by_cases same : observed.slots registration.slot = cached.slots registration.slot
    · cases intended with
      | true | false => simp [same, PendingWrite.HoldsPredecessor]
    · cases intended with
      | true =>
        simp [same, PendingWrite.HoldsPredecessor, PendingWrite.HoldsIntended,
          PendingWrite.offset, PendingWrite.encoded]
      | false => simp [same, PendingWrite.HoldsPredecessor]
  | successor target frame offset encoded =>
    have outside : (observed.slots = cached.slots ∧ observed.physical = cached.physical ∧
        ∀ slot, slot ≠ target → observed.successors slot = cached.successors slot) ↔
        observed.MatchesOutside (.successor target frame offset encoded) cached := by
      constructor
      · rintro ⟨slots, physical, successors⟩
        exact ⟨fun slot _ => congrFun slots slot,
          fun slot beside => successors slot (beside.resolve_left fun absurd => by cases absurd),
          fun slot side _ => congrFun (congrFun physical slot) side⟩
      · rintro ⟨slots, successors, physical⟩
        exact ⟨funext fun slot => slots slot (Or.inl rfl),
          funext fun slot => funext fun side => physical slot side (Or.inl rfl),
          fun slot different => successors slot (Or.inr different)⟩
    simp only [Option.ite_none_right_eq_some, outside]
    refine and_congr_right fun _ => ?_
    show (if observed.successors target = cached.successors target then _ else _) = _ ↔ _
    by_cases same : observed.successors target = cached.successors target
    · cases intended with
      | true | false => simp [same, PendingWrite.HoldsPredecessor]
    · cases intended with
      | true =>
        simp [same, PendingWrite.HoldsPredecessor, PendingWrite.HoldsIntended,
          PendingWrite.offset, PendingWrite.encoded, ← and_assoc]
      | false => simp [same, PendingWrite.HoldsPredecessor]

theorem decodeControl_retained_eq_some (host : Host) (control : List UInt8)
    (cached : RecoveryJournal) (fresh : Nonce) (observed : RecoveryJournal) (intended : Bool) :
    decodeControl host control (some cached) fresh = some (observed, intended) ↔
      control.length = controlBytes ∧
      Observed host (controlRegions control) (some cached) observed ∧
      cached.laneNonce = observed.laneNonce ∧
      compareRetained host control cached observed = some intended := by
  unfold decodeControl
  rw [Option.ite_none_left_eq_some, not_not, Option.bind_eq_bind, Option.bind_eq_some_iff]
  simp only [observe_eq_some, Option.mem_some_iff, forall_eq', Option.map_some, Option.getD_some,
    bind_eq_some, Option.some_inj, Prod.mk.injEq]
  refine and_congr_right fun _ => ?_
  constructor
  · rintro ⟨_, ⟨seen, lane, _⟩, _, compared, rfl, rfl⟩
    exact ⟨seen, lane, compared⟩
  · rintro ⟨seen, lane, compared⟩
    exact ⟨observed, ⟨seen, lane, fun _ => lane.symm⟩, intended, compared, rfl, rfl⟩

/-! ### A write in flight -/

/-- A store that loads, with a prepared write in flight that has left `region` on its side. -/
def Store.sending (base : Store) (pending : PendingWrite) (region : Fixed frameBytes) : Store where
  control := splice base.control pending.offset region.val
  journal := base.journal.sending pending

/-- The journal in memory is what the control file shows, but for one prepared write that may
have changed its own side. -/
inductive Store.Consistent (host : Host) : Store → Prop where
  | settled {store : Store} (loads : store.Loads host) : Consistent host store
  | sending {base : Store} (loads : base.Loads host) (pending : PendingWrite)
      (prepared : Prepared host base.journal pending) (region : Fixed frameBytes) :
      Consistent host (base.sending pending region)

theorem Prepared.validatePending {host : Host} {journal : RecoveryJournal}
    {pending : PendingWrite} (prepared : Prepared host journal pending) :
    validatePending host (journal.sending pending) = true := by
  cases pending with
  | recovery | successor => exact prepared.1

/-- The intended journal matches outside the pending write, and no longer holds the
predecessor. -/
theorem Prepared.intended_matches {host : Host} {base : Store} {pending : PendingWrite}
    (prepared : Prepared host base.journal pending) :
    (base.intended host pending).MatchesOutside pending (base.journal.sending pending) ∧
    ¬ pending.HoldsPredecessor (base.intended host pending) (base.journal.sending pending) ∧
    pending.HoldsIntended (base.intended host pending) := by
  cases pending with
  | recovery registration intended offset encoded =>
    refine ⟨⟨fun slot beside => ?_, fun _ _ => rfl, fun slot side beside => ?_⟩, fun same => ?_,
      update_self ..⟩
    · exact update_of_ne (beside.resolve_left fun absurd => by cases absurd) ..
    · show update base.journal.physical registration.slot _ slot side = _
      by_cases same : slot = registration.slot
      · subst same
        have away := (beside.resolve_left fun absurd => by cases absurd).resolve_left fun different => different rfl
        rw [update_self]
        exact update_of_ne away ..
      · rw [update_of_ne same]
        rfl
    · change update base.journal.slots registration.slot (some intended) _ =
        base.journal.slots registration.slot at same
      rw [update_self] at same
      exact other_ne _ (side_of_recovery prepared.1 same.symm).symm
  | successor target intended offset encoded =>
    refine ⟨⟨fun _ _ => rfl, fun slot beside => ?_, fun _ _ _ => rfl⟩, fun same => ?_, ?_⟩
    · exact update_of_ne (beside.resolve_left fun absurd => by cases absurd) ..
    · change update base.journal.successors target
        (some ⟨base.journal.laneNonce, intended⟩) _ = base.journal.successors target at same
      rw [update_self] at same
      exact other_ne _ (side_of_successor prepared.1 same.symm).symm
    · show (update base.journal.successors target
        (some ⟨base.journal.laneNonce, intended⟩) target).map Selected.frame = some intended
      rw [update_self]
      rfl

/-- A torn first write in flight leaves the slot as blank as it was. -/
theorem readSlot_torn_first {Record : Type} {format : Format Record} {salvaged : Salvage Record}
    {host : Host} {regions : Fin 2 → List UInt8} {slot : Fin 64} {side : Fin 2}
    {sides : Fin 2 → DoubleSlot.Probe (Selected Record)} (salvage : salvaged .torn .empty = true)
    (read : readSides format host regions slot = some (update sides side .torn))
    (blank : current format.discipline sides = some none) :
    readSlot format salvaged host regions slot (some side) =
      some ⟨update sides side .torn, none⟩ := by
  have empty := (current_eq_blank _ _).mp blank
  have beside : update sides side .torn (other side) = .empty := by
    rw [update_of_ne (other_ne side), empty]
  have here : update sides side .torn side = .torn := update_self ..
  unfold readSlot
  rw [read]
  show Option.bind (some _) _ = _
  rw [Option.bind_some, current_torn_blank _ here beside]
  show (if salvaged _ _ then _ else _) = _
  rw [here, beside, if_pos salvage]

variable {region : Fixed frameBytes}

section InFlight

variable {host : Host} {base : Store} {pending : PendingWrite}

section

variable (loads : base.Loads host) (prepared : Prepared host base.journal pending)

include loads prepared

theorem Store.sending_slice (region : Fixed frameBytes) :
    slice (base.sending pending region).control pending.offset frameBytes = region.val := by
  obtain ⟨length, _⟩ := (loads_iff host base).mp loads
  have fits : pending.offset + region.val.length ≤ base.control.length := by
    rw [prepared.offset, region.length_val, length]
    exact offset_inside _ _ _
  have sliced := slice_splice_self fits
  rw [region.length_val] at sliced
  exact sliced

/-- Rereading reports the intended journal exactly when the side holds the encoded frame. -/
theorem Store.reread_intended (region : Fixed frameBytes) (fresh : Nonce)
    (observed : RecoveryJournal) :
    decodeControl host (base.sending pending region).control
        (some (base.sending pending region).journal) fresh = some (observed, true) ↔
      region.val = pending.encoded ∧ observed = base.intended host pending := by
  rw [decodeControl_retained_eq_some, compareRetained_eq_some host _ _ _
    (show (base.sending pending region).journal.pending = some pending from rfl),
    sending_slice loads prepared]
  constructor
  · rintro ⟨_, seen, lane, -, -, -, -, whole⟩
    have committed := (loads_iff host _).mp (loads.commit prepared)
    rw [Store.sending, whole] at seen
    refine ⟨whole, seen.unique committed.2 ?_⟩
    rw [← lane]
    cases pending <;> rfl
  · rintro ⟨whole, rfl⟩
    have committed := (loads_iff host _).mp (loads.commit prepared)
    obtain ⟨beside, changed, holds⟩ := prepared.intended_matches
    rw [Store.sending, whole]
    refine ⟨committed.1, committed.2.retain _, ?_, prepared.validatePending, beside, changed, holds,
      rfl⟩
    cases pending <;> rfl

/-- The slot of a pending write, read against the journal that has it in flight, still selects
what was in force, and shows no frame of another lane. -/
def Store.SelectsPredecessor (host : Host) (store : Store) (pending : PendingWrite) : Prop :=
  match pending with
  | .recovery registration .. =>
    ∃ reading, readRecoverySlot host (controlRegions store.control) (some store.journal)
        registration.slot = some reading ∧
      reading.selected = (store.journal.slots registration.slot).map
        (Selected.mk store.journal.laneNonce) ∧
      ∀ side selected, reading.sides side = .valid selected →
        selected.laneNonce = store.journal.laneNonce
  | .successor slot .. =>
    ∃ reading, readSuccessorSlot host (controlRegions store.control) (some store.journal) slot =
        some reading ∧
      reading.selected = store.journal.successors slot

theorem Store.sending_regions (region : Fixed frameBytes) :
    (base.sending pending region).control.length = controlBytes ∧
      controlRegions (base.sending pending region).control =
        (controlRegions base.control).pending pending region.val := by
  obtain ⟨length, _⟩ := (loads_iff host base).mp loads
  exact ⟨splice_pending_length prepared _ length region.length_val,
    controlRegions_pending prepared _ length region.length_val⟩

/-- The journal that is reread when the slot of the pending write still selects the
predecessor. -/
theorem Store.SelectsPredecessor.observed
    (selects : (base.sending pending region).SelectsPredecessor host pending) :
    ∃ observed, observed.AgreesBeside pending.domain pending.slot pending.side base.journal ∧
      Observed host (controlRegions (base.sending pending region).control)
        (some (base.sending pending region).journal) observed := by
  obtain ⟨_, intact⟩ := (loads_iff host base).mp loads
  have regions := (sending_regions loads prepared region).2
  cases pending with
  | recovery registration intended offset encoded =>
    obtain ⟨reading, read, selected, lanes⟩ := selects
    rw [regions] at read ⊢
    obtain ⟨sides, found⟩ := (readsRecovery_iff ..).mp (intact.recovery registration.slot)
    have readable := (readSlot_selected recoverySalvaged_blank read).1
    rw [Regions.pending, PendingWrite.domain, PendingWrite.slot, Regions.write_self] at readable
    have updated := readSides_update_inv found.read readable
    refine ⟨_, base.journal.withReceipt_agrees .recovery registration.slot
      (generationSide intended.generation) (receipt host
        (reading.sides (generationSide intended.generation)) region.val),
      intact.beside (prepared.unpinned intact) (base.journal.withReceipt_agrees ..) ?_⟩
    refine readsRecovery_rewrite found ?_ fun candidate holds => lanes _ candidate holds
    exact read.trans (congrArg some (congr (congrArg SlotReading.mk updated) selected))
  | successor target intended offset encoded =>
    obtain ⟨reading, read, selected⟩ := selects
    rw [regions] at read ⊢
    exact ⟨base.journal, ⟨rfl, rfl, rfl, fun _ _ _ => rfl, rfl, rfl⟩,
      intact.beside (prepared.unpinned intact) ⟨rfl, rfl, rfl, fun _ _ _ => rfl, rfl, rfl⟩
        ⟨reading, read, selected⟩⟩

/-- Rereading reports the predecessor exactly when the slot still selects it. -/
theorem Store.reread_predecessor (region : Fixed frameBytes) (fresh : Nonce) :
    (∃ observed, decodeControl host (base.sending pending region).control
        (some (base.sending pending region).journal) fresh = some (observed, false)) ↔
      (base.sending pending region).SelectsPredecessor host pending := by
  have sent : (base.sending pending region).journal.pending = some pending := rfl
  constructor
  · rintro ⟨observed, found⟩
    rw [decodeControl_retained_eq_some, compareRetained_eq_some host _ _ _ sent] at found
    obtain ⟨_, seen, lane, -, -, holds⟩ := found
    cases pending with
    | recovery registration intended offset encoded =>
      obtain ⟨reading, read, selected, lanes, -⟩ := seen.recovery registration.slot
      rw [show observed.slots registration.slot = _ from holds, ← lane] at selected
      exact ⟨reading, read, selected, fun side candidate valid =>
        (lanes side candidate valid).trans lane.symm⟩
    | successor target intended offset encoded =>
      obtain ⟨reading, read, selected⟩ := seen.successors target
      exact ⟨reading, read, selected.trans holds⟩
  · intro selects
    obtain ⟨observed, agrees, seen⟩ := selects.observed loads prepared
    refine ⟨observed, ?_⟩
    rw [decodeControl_retained_eq_some, compareRetained_eq_some host _ _ _ sent]
    refine ⟨(sending_regions loads prepared region).1, seen, agrees.laneNonce.symm,
      prepared.validatePending, ⟨fun slot _ => congrFun agrees.slots slot,
        fun slot _ => congrFun agrees.successors slot, agrees.physical⟩, ?_⟩
    cases pending with
    | recovery registration => exact congrFun agrees.slots registration.slot
    | successor target => exact congrFun agrees.successors target

end

section

variable (loads : base.Loads host)

include loads

/-- The side as it was keeps the predecessor in force. -/
theorem Store.selectsPredecessor_old {region : Fixed frameBytes}
    (old : (base.sending pending region).control = base.control) :
    (base.sending pending region).SelectsPredecessor host pending := by
  obtain ⟨_, intact⟩ := (loads_iff host base).mp loads
  have retained := intact.retain (some (base.sending pending region).journal)
  unfold Store.SelectsPredecessor
  rw [old]
  cases pending with
  | recovery registration =>
    obtain ⟨reading, read, selected, lanes, -⟩ := retained.recovery registration.slot
    exact ⟨reading, read, selected, lanes⟩
  | successor target =>
    obtain ⟨reading, read, selected⟩ := retained.successors target
    exact ⟨reading, read, selected⟩

/-- A torn side keeps the predecessor in force, also where the slot had none. -/
theorem Store.selectsPredecessor_torn (prepared : Prepared host base.journal pending)
    (torn : Torn host pending.domain region.val) (marked : ¬ ∀ byte ∈ region.val, byte = 0) :
    (base.sending pending region).SelectsPredecessor host pending := by
  obtain ⟨_, intact⟩ := (loads_iff host base).mp loads
  have regions := (sending_regions loads prepared region).2
  cases pending with
  | recovery registration intended offset encoded =>
    have probed := (@Torn.probe _ host (recoveryFormat host) _ torn registration.slot
      (generationSide intended.generation)).resolve_right fun blank => marked blank.2
    obtain ⟨sides, found⟩ := (readsRecovery_iff ..).mp (intact.recovery registration.slot)
    have read := readSides_update found.read probed.1
    have here := (controlRegions base.control).pending_self
      (.recovery registration intended offset encoded) region.val
    change Regions.pending _ _ _ .recovery registration.slot = _ at here
    refine ⟨⟨update sides (generationSide intended.generation) .torn,
      (base.journal.slots registration.slot).map (Selected.mk base.journal.laneNonce)⟩, ?_, rfl,
      fun side candidate holds => ?_⟩
    · unfold readRecoverySlot
      rw [regions, here]
      have selected := found.selected
      cases held : base.journal.slots registration.slot with
      | some frame =>
        rw [held] at selected
        exact readSlot_of_current _ _ read
          ((readSides_placed found.read).current_torn selected (side_of_recovery prepared.1 held))
      | none =>
        rw [held] at selected
        have inFlight : firstRecoverySide (some (base.sending (.recovery registration intended
            offset encoded) region).journal) registration.slot =
            some (generationSide intended.generation) := if_pos ⟨rfl, held⟩
        rw [inFlight]
        exact readSlot_torn_first rfl read selected
    · change update sides (generationSide intended.generation) .torn side =
        .valid candidate at holds
      by_cases here : side = generationSide intended.generation
      · rw [here, update_self] at holds
        cases holds
      · rw [update_of_ne here] at holds
        exact found.lanes side candidate holds
  | successor target intended offset encoded =>
    have probed := (@Torn.probe _ host successorFormat _ torn target
      (generationSide intended.generation)).resolve_right fun blank => marked blank.2
    obtain ⟨sides, found⟩ := (readsSuccessor_iff ..).mp (intact.successors target)
    have read := readSides_update found.read probed.1
    have here := (controlRegions base.control).pending_self
      (.successor target intended offset encoded) region.val
    change Regions.pending _ _ _ .successor target = _ at here
    refine ⟨⟨update sides (generationSide intended.generation) .torn,
      base.journal.successors target⟩, ?_, rfl⟩
    unfold readSuccessorSlot
    rw [regions, here]
    have selected := found.selected
    cases held : base.journal.successors target with
    | some inForce =>
      rw [held] at selected
      exact readSlot_of_current _ _ read
        ((readSides_placed found.read).current_torn selected (side_of_successor prepared.1 held))
    | none =>
      rw [held] at selected
      have inFlight : firstSuccessorSide (some (base.sending (.successor target intended offset
          encoded) region).journal) target = some (generationSide intended.generation) :=
        if_pos ⟨rfl, held⟩
      rw [inFlight]
      exact readSlot_torn_first rfl read selected

variable {control : List UInt8} {fresh : Nonce}

/-- Whatever the control file holds otherwise, rereading reports the intended journal only if
the side holds the encoded frame, and what it then reports is that journal. -/
theorem Store.reread_accepted (prepared : Prepared host base.journal pending)
    {observed : RecoveryJournal}
    (reread : decodeControl host control (some (base.journal.sending pending)) fresh =
      some (observed, true)) :
    slice control pending.offset frameBytes = pending.encoded ∧
      observed = base.intended host pending := by
  rw [decodeControl_retained_eq_some, compareRetained_eq_some host _ _ _
    (show (base.journal.sending pending).pending = some pending from rfl)] at reread
  obtain ⟨_, seen, lane, -, outside, -, holds, whole⟩ := reread
  refine ⟨whole, ?_⟩
  obtain ⟨_, intact⟩ := (loads_iff host base).mp loads
  change base.journal.laneNonce = observed.laneNonce at lane
  have idle := seen.pending
  have free := seen.checkedOut.trans intact.checkedOut.symm
  cases pending with
  | recovery registration intended offset encoded =>
    have slots : observed.slots = update base.journal.slots registration.slot
        (some intended) := by
      funext slot
      by_cases same : slot = registration.slot
      · rw [same, update_self]
        exact holds
      · rw [update_of_ne same]
        exact outside.slots slot (Or.inr same)
    have written : observed.physical registration.slot (generationSide intended.generation) =
        some ⟨intended, host.sha256 encoded⟩ := by
      obtain ⟨reading, read, -, -, receipts⟩ := seen.recovery registration.slot
      have readable := (readSlot_selected recoverySalvaged_blank read).1
      have probed := (readSides_eq_some ..).mp readable (generationSide intended.generation)
      have region : controlRegions control .recovery registration.slot
          (generationSide intended.generation) = encoded := by
        rw [controlRegions, ← prepared.2.1]
        exact whole
      rw [region, (probeFrame_eq_valid _ _ _ _ _ ⟨base.journal.laneNonce, intended⟩).mpr
        prepared.2.2] at probed
      rw [receipts, ← Option.some_inj.mp probed, region]
      rfl
    have physical : observed.physical = update base.journal.physical registration.slot
        (update (base.journal.physical registration.slot)
          (generationSide intended.generation) (some ⟨intended, host.sha256 encoded⟩)) := by
      funext slot side
      by_cases same : slot = registration.slot
      · subst same
        rw [update_self]
        by_cases here : side = generationSide intended.generation
        · rw [here, update_self]
          exact written
        · rw [update_of_ne here]
          exact outside.physical _ side (Or.inr (Or.inr here))
      · rw [update_of_ne same]
        exact outside.physical slot side (Or.inr (Or.inl same))
    have successors : observed.successors = base.journal.successors :=
      funext fun slot => outside.successors slot (Or.inl rfl)
    cases observed
    simp only at lane slots physical successors idle free
    subst lane slots physical successors idle free
    rfl
  | successor target intended offset encoded =>
    have successors : observed.successors = update base.journal.successors target
        (some ⟨base.journal.laneNonce, intended⟩) := by
      funext slot
      by_cases same : slot = target
      · rw [same, update_self]
        obtain ⟨selected, held, frame⟩ := Option.map_eq_some_iff.mp holds
        have own := (seen.successorLane.frames target selected held).1
        rw [held, ← frame, lane, ← own]
      · rw [update_of_ne same]
        exact outside.successors slot (Or.inr same)
    have slots : observed.slots = base.journal.slots :=
      funext fun slot => outside.slots slot (Or.inl rfl)
    have physical : observed.physical = base.journal.physical :=
      funext fun slot => funext fun side => outside.physical slot side (Or.inl rfl)
    cases observed
    simp only at lane slots physical successors idle free
    subst lane slots physical successors idle free
    rfl

/-- Whatever the control file holds otherwise, where rereading reports the predecessor it shows
the predecessor, up to the receipt of the side being written. -/
theorem Store.reread_kept {observed : RecoveryJournal}
    (reread : decodeControl host control (some (base.journal.sending pending)) fresh =
      some (observed, false)) :
    observed.AgreesBeside pending.domain pending.slot pending.side base.journal := by
  rw [decodeControl_retained_eq_some, compareRetained_eq_some host _ _ _
    (show (base.journal.sending pending).pending = some pending from rfl)] at reread
  obtain ⟨_, seen, lane, -, outside, holds⟩ := reread
  obtain ⟨_, intact⟩ := (loads_iff host base).mp loads
  refine ⟨lane.symm, funext fun slot => ?_, funext fun slot => ?_, outside.physical,
    seen.pending.trans intact.pending.symm, seen.checkedOut.trans intact.checkedOut.symm⟩
  · cases pending with
    | recovery registration =>
      by_cases same : slot = registration.slot
      · rw [same]
        exact holds
      · exact outside.slots slot (Or.inr same)
    | successor => exact outside.slots slot (Or.inl rfl)
  · cases pending with
    | recovery => exact outside.successors slot (Or.inl rfl)
    | successor target =>
      by_cases same : slot = target
      · rw [same]
        exact holds
      · exact outside.successors slot (Or.inr same)

end

end InFlight

/-! ### Runs of operations -/

section Preservation

variable {host : Host} {base store : Store} {pending : PendingWrite}

section

variable (loads : base.Loads host) (prepared : Prepared host base.journal pending)

include loads prepared

theorem Store.overwrite_sending (first second : Fixed frameBytes) :
    (base.sending pending first).overwrite pending second = base.sending pending second := by
  obtain ⟨length, _⟩ := (loads_iff host base).mp loads
  have same : splice (splice base.control pending.offset first.val) pending.offset second.val =
      splice base.control pending.offset second.val := by
    refine splice_splice_self ?_ ?_
    · rw [prepared.offset, first.length_val, length]
      exact offset_inside _ _ _
    · rw [first.length_val, second.length_val]
  exact congrArg (Store.mk · _) same

/-- Putting a prepared write into flight changes no bytes yet. -/
theorem Store.sending_old :
    ∃ old : Fixed frameBytes, old.val = base.oldRegion pending ∧
      base.sending pending old = { base with journal := base.journal.sending pending } := by
  obtain ⟨length, _⟩ := (loads_iff host base).mp loads
  refine ⟨⟨base.oldRegion pending, controlRegions_length length ..⟩, rfl, ?_⟩
  have same : splice base.control pending.offset (base.oldRegion pending) = base.control := by
    rw [prepared.offset]
    exact splice_slice_self (by rw [length]; exact offset_inside _ _ _)
  exact congrArg (Store.mk · _) same

/-- Accepting the encoded frame on the side settles the write. -/
theorem Store.Consistent.accept (whole : region.val = pending.encoded) :
    Store.Consistent host
      { base.sending pending region with journal := base.intended host pending } := by
  have committed := loads.commit prepared
  rw [show ({ base.sending pending region with journal := base.intended host pending } : Store) =
    base.commit host pending from by rw [Store.sending, whole]; rfl]
  exact .settled committed

theorem Store.Consistent.settle (region : Fixed frameBytes) (reloadFails : Bool) :
    ((base.sending pending region).settlePendingReload host reloadFails).1.Consistent host := by
  have unsettled := Store.Consistent.sending loads pending prepared region
  unfold Store.settlePendingReload
  split
  · exact unsettled
  · split
    · rename_i observed reread
      obtain ⟨whole, rfl⟩ := (reread_intended loads prepared region _ observed).mp reread
      exact .accept loads prepared whole
    · exact unsettled

theorem Store.Consistent.drive (region : Fixed frameBytes) (faults : DriveFaults) :
    ((base.sending pending region).drivePending host faults).1.Consistent host := by
  have settles := Store.Consistent.settle loads prepared faults.synced faults.reloadFails
  unfold Store.drivePending
  rw [show (base.sending pending region).journal.pending = some pending from rfl]
  simp only [overwrite_sending loads prepared]
  split
  · exact .sending loads pending prepared faults.written
  · split
    · split
      · exact settles
      · exact .sending loads pending prepared faults.synced
    · split
      · rename_i accepted
        refine .accept loads prepared ?_
        rw [← accepted.2]
        exact (sending_slice loads prepared faults.synced).symm
      · exact settles

end

theorem Store.Consistent.reconcile (consistent : store.Consistent host)
    (faults : ReconcileFaults) :
    (store.reconcileUncertain host faults).1.Consistent host := by
  cases consistent with
  | settled loads =>
    obtain ⟨_, intact⟩ := (loads_iff host store).mp loads
    unfold Store.reconcileUncertain
    rw [intact.checkedOut, intact.pending]
    exact .settled loads
  | @sending base loads pending prepared region =>
    have unsettled := Store.Consistent.sending loads pending prepared faults.synced
    unfold Store.reconcileUncertain
    split
    · exact .sending loads pending prepared region
    · rw [show (base.sending pending region).journal.pending = some pending from rfl]
      simp only [overwrite_sending loads prepared]
      split
      · exact unsettled
      · split
        · exact unsettled
        · rename_i observed reread
          obtain ⟨whole, rfl⟩ :=
            (reread_intended loads prepared faults.synced _ observed).mp reread
          exact .accept loads prepared whole
        · exact .drive loads prepared faults.synced faults.retry

/-- An operation that prepares a write does so from a settled store. -/
theorem Store.Consistent.send (consistent : store.Consistent host) (faults : DriveFaults)
    {accepted : Option PendingWrite}
    (prepares : ∀ pending, accepted = some pending →
      Prepared host store.journal pending ∧ store.journal.pending = none) :
    (store.send host faults accepted).1.Consistent host := by
  cases accepted with
  | none => exact consistent
  | some pending =>
    obtain ⟨prepared, idle⟩ := prepares pending rfl
    cases consistent with
    | settled loads =>
      obtain ⟨old, _, same⟩ := sending_old loads prepared
      have driven := Store.Consistent.drive loads prepared old faults
      rw [same] at driven
      exact driven
    | sending => cases idle

theorem Store.Consistent.perform (consistent : store.Consistent host) (operation : Operation)
    (faults : Faults) : (store.perform host faults operation).1.Consistent host := by
  have writes : ∀ registration record,
      (store.send host faults.drive
        (prepareWrite host store.journal registration record)).1.Consistent host := by
    intro registration record
    refine consistent.send faults.drive fun pending accepted => ?_
    obtain ⟨prepared, idle, _⟩ := prepareWrite_prepared accepted
    exact ⟨prepared, idle⟩
  cases operation with
  | reserve => exact consistent
  | createReserved registration record | advance registration record =>
    exact writes registration (some record)
  | clear registration => exact writes registration none
  | createSuccessor record registrations transfer =>
    refine consistent.send faults.drive fun pending accepted => ?_
    obtain ⟨prepared, idle, _⟩ := prepareSuccessor_prepared accepted
    exact ⟨prepared, idle⟩
  | tombstoneSuccessor key =>
    have after := consistent.reconcile faults.reconcile
    show (store.tombstoneSuccessor host faults key).1.Consistent host
    unfold Store.tombstoneSuccessor
    split
    · exact consistent
    · generalize store.reconcileUncertain host faults.reconcile = outcome at after ⊢
      obtain ⟨reconciled, settled⟩ := outcome
      simp only at after ⊢
      split
      · exact after
      · split
        · exact after
        · refine after.send faults.drive fun pending accepted => ?_
          obtain ⟨prepared, idle, _⟩ := prepareTombstone_prepared accepted
          exact ⟨prepared, idle⟩
  | reconcileUncertain => exact consistent.reconcile faults.reconcile

/-- The journal in memory and the control file stay consistent over any run of operations and
faults. -/
theorem Store.Loads.run (loads : base.Loads host)
    (run : ReflTransGen (Store.Performs host) base store) : store.Consistent host := by
  refine Runs.invariant ?_ run (.settled loads)
  rintro before _ ⟨operation, faults, rfl⟩ consistent
  exact consistent.perform operation faults

end Preservation

/-! ### Agreement -/

/-- What reconciling a store with a write in flight does. -/
structure Store.Reconciles (host : Host) (store : Store) (pending : PendingWrite) : Prop where
  /-- Any control file that is accepted as the intended one has the encoded frame on the side
  and shows what is cached everywhere else. -/
  accepted : ∀ control fresh observed,
    decodeControl host control (some store.journal) fresh = some (observed, true) →
      slice control pending.offset frameBytes = pending.encoded ∧
      observed = acceptPending host store.journal
  /-- Any control file that is accepted as the predecessor shows what is cached outside the
  side. -/
  kept : ∀ control fresh observed,
    decodeControl host control (some store.journal) fresh = some (observed, false) →
      observed.AgreesBeside pending.domain pending.slot pending.side
        { store.journal with pending := none }
  intended : ∀ (region : Fixed frameBytes) fresh,
    (∃ observed, decodeControl host (store.overwrite pending region).control
      (some store.journal) fresh = some (observed, true)) ↔ region.val = pending.encoded
  predecessor : ∀ (region : Fixed frameBytes) fresh,
    (∃ observed, decodeControl host (store.overwrite pending region).control
      (some store.journal) fresh = some (observed, false)) ↔
      (store.overwrite pending region).SelectsPredecessor host pending
  /-- Some bytes on the side make the file load as the predecessor, -/
  restorable : ∃ old : Fixed frameBytes,
    decodeControl host (store.overwrite pending old).control none store.journal.laneNonce =
      some ({ store.journal with pending := none }, false)
  /-- and any such bytes are reported as the predecessor, -/
  restored : ∀ old : Fixed frameBytes,
    decodeControl host (store.overwrite pending old).control none store.journal.laneNonce =
      some ({ store.journal with pending := none }, false) →
    (store.overwrite pending old).SelectsPredecessor host pending
  /-- as is any torn side, that of a first write included. -/
  torn : ∀ region : Fixed frameBytes, Torn host pending.domain region.val →
    (¬ ∀ byte ∈ region.val, byte = 0) →
    (store.overwrite pending region).SelectsPredecessor host pending
  /-- Once the file could be read, the write is accepted, driven again or refused. -/
  outcome : ∀ faults : ReconcileFaults, faults.syncFails = false → faults.readFails = false →
    (faults.synced.val = pending.encoded →
      store.reconcileUncertain host faults =
        ({ store.overwrite pending faults.synced with
          journal := acceptPending host store.journal }, true)) ∧
    ((store.overwrite pending faults.synced).SelectsPredecessor host pending →
      store.reconcileUncertain host faults =
        (store.overwrite pending faults.synced).drivePending host faults.retry) ∧
    (faults.synced.val ≠ pending.encoded →
      ¬ (store.overwrite pending faults.synced).SelectsPredecessor host pending →
      store.reconcileUncertain host faults = (store.overwrite pending faults.synced, false))
  failed : ∀ faults : ReconcileFaults, (store.reconcileUncertain host faults).2 = false →
    (store.reconcileUncertain host faults).1.journal = store.journal

theorem Store.sending_reconciles {host : Host} {base : Store} {pending : PendingWrite}
    (loads : base.Loads host) (prepared : Prepared host base.journal pending)
    (region : Fixed frameBytes) :
    (base.sending pending region).Reconciles host pending := by
  obtain ⟨length, intact⟩ := (loads_iff host base).mp loads
  have settled : ({ base.journal.sending pending with pending := none } : RecoveryJournal) =
      base.journal :=
    congrArg (fun idle => { base.journal with pending := idle }) intact.pending.symm
  have rewrites := overwrite_sending loads prepared region
  refine ⟨fun control fresh observed reread => reread_accepted loads prepared reread,
    fun control fresh observed reread => ?_, fun after fresh => ?_, fun after fresh => ?_, ?_,
    fun old restored => ?_, fun after torn marked => ?_, fun faults synced read => ?_,
    fun faults failed => reconcileUncertain_failed failed⟩
  · rw [show (base.sending pending region).journal = base.journal.sending pending from rfl,
      settled]
    exact reread_kept loads reread
  · rw [rewrites]
    constructor
    · rintro ⟨observed, reread⟩
      exact ((reread_intended loads prepared after fresh observed).mp reread).1
    · intro whole
      exact ⟨_, (reread_intended loads prepared after fresh _).mpr ⟨whole, rfl⟩⟩
  · rw [rewrites]
    exact reread_predecessor loads prepared after fresh
  · obtain ⟨old, _, same⟩ := sending_old loads prepared
    refine ⟨old, ?_⟩
    rw [rewrites, same, show (base.sending pending region).journal =
      base.journal.sending pending from rfl, settled]
    exact loads
  · rw [rewrites] at restored ⊢
    rw [show (base.sending pending region).journal = base.journal.sending pending from rfl,
      settled] at restored
    have again : Store.Loads host ⟨(base.sending pending old).control, base.journal⟩ := restored
    have same : Store.sending ⟨(base.sending pending old).control, base.journal⟩ pending old =
        base.sending pending old := overwrite_sending loads prepared old old
    have kept : (Store.sending ⟨(base.sending pending old).control, base.journal⟩ pending
        old).control = (base.sending pending old).control := congrArg Store.control same
    have selects := @selectsPredecessor_old host _ pending again old kept
    rw [same] at selects
    exact selects
  · rw [rewrites]
    exact selectsPredecessor_torn loads prepared torn marked
  · have free : (base.sending pending region).journal.checkedOut = false := intact.checkedOut
    have sent : (base.sending pending region).journal.pending = some pending := rfl
    unfold Store.reconcileUncertain
    simp only [free, sent, rewrites, synced, read, Bool.false_eq_true, if_false, or_self]
    refine ⟨fun whole => ?_, fun selects => ?_, fun notWhole notSelected => ?_⟩
    · rw [(reread_intended loads prepared faults.synced _ _).mpr ⟨whole, rfl⟩]
      rfl
    · obtain ⟨observed, reread⟩ :=
        (reread_predecessor loads prepared faults.synced _).mpr selects
      rw [reread]
    · cases reread : decodeControl host (base.sending pending faults.synced).control
          (some (base.sending pending faults.synced).journal)
          (base.sending pending faults.synced).journal.laneNonce with
      | none => rfl
      | some result =>
        obtain ⟨observed, intended⟩ := result
        cases intended with
        | true =>
          exact absurd ((reread_intended loads prepared faults.synced _ _).mp reread).1
            notWhole
        | false =>
          exact absurd ((reread_predecessor loads prepared faults.synced _).mp
            ⟨observed, reread⟩) notSelected

/-- Over every run of operations and faults from a control file that loads, the journal in
memory is what a fresh start reads whenever no write is in flight; and while one is, rereading
the control file accepts only what agrees with the journal outside the side being written, and
tells the intended frame, the predecessor and anything else apart. -/
theorem cachedJournal_agrees_with_control (host : Host) (start store : Store)
    (loads : start.Loads host) (run : ReflTransGen (Store.Performs host) start store) :
    (store.journal.pending = none →
      decodeControl host store.control none store.journal.laneNonce =
        some (store.journal, false)) ∧
    ∀ pending, store.journal.pending = some pending → store.Reconciles host pending := by
  cases loads.run run with
  | settled settled =>
    have idle := ((loads_iff host store).mp settled).2.pending
    refine ⟨fun _ => settled, fun pending sent => ?_⟩
    rw [idle] at sent
    cases sent
  | @sending base loaded pending prepared region =>
    refine ⟨nofun, fun found sent => ?_⟩
    obtain rfl := Option.some_inj.mp sent
    exact sending_reconciles loaded prepared region

/-- The write of the level fails and leaves `region` on the side. -/
theorem performs_level (region : Fixed frameBytes) :
    ∃ encoded, Prepared plainHost (Store.blank levelNonce).journal (levelWrite encoded) ∧
      ReflTransGen (Store.Performs plainHost) (.blank levelNonce)
        ((Store.blank levelNonce).sending (levelWrite encoded) region) := by
  obtain ⟨encoded, accepted⟩ := prepareWrite_level
  refine ⟨encoded, (prepareWrite_prepared accepted).1, .single
    ⟨.createReserved ⟨0, levelOperation⟩ levelRecord,
      ⟨⟨region, false, false, ⟨region, true, region, none, false, false⟩⟩,
        ⟨region, true, region, none, false, false⟩⟩, ?_⟩⟩
  show _ = (Store.send plainHost _ _ (prepareWrite plainHost _ _ (some levelRecord))).1
  rw [show (Store.blank levelNonce).journal = RecoveryJournal.blank levelNonce from rfl, accepted]
  rfl

theorem cachedJournal_agrees_with_control_level :
    ∃ encoded, ((Store.blank levelNonce).sending (levelWrite encoded)
      (Fixed.zero frameBytes)).Reconciles plainHost (levelWrite encoded) := by
  obtain ⟨encoded, _, run⟩ := performs_level (Fixed.zero frameBytes)
  exact ⟨encoded, (cachedJournal_agrees_with_control plainHost _ _
    (loads_blank plainHost levelNonce) run).2 _ rfl⟩

/-- Rereading accepts a control file with other bytes on a side that is not being written: next
to a first frame, the other side may be blank or torn. -/
theorem reread_accepts_torn_beside :
    ¬ ∀ (host : Host) (start store : Store), start.Loads host →
      ReflTransGen (Store.Performs host) start store →
      ∀ pending, store.journal.pending = some pending →
      ∀ control fresh observed intended,
        decodeControl host control (some store.journal) fresh = some (observed, intended) →
      ∀ domain slot side,
        (domain, slot, side) ≠ (pending.domain, pending.slot, pending.side) →
        controlRegions control domain slot side = controlRegions store.control domain slot side := by
  intro same
  obtain ⟨encoded, prepared, run⟩ := performs_level (Fixed.zero frameBytes)
  have loads := loads_blank plainHost levelNonce
  let committed := (Store.blank levelNonce).commit plainHost (levelWrite encoded)
  obtain ⟨length, intact⟩ : committed.control.length = controlBytes ∧
      Intact plainHost (controlRegions committed.control) committed.journal :=
    (loads_iff ..).mp (loads.commit prepared)
  have held : committed.journal.slots 0 = some ⟨1, some levelRecord⟩ := rfl
  have absent : committed.journal.physical 0 1 = none := rfl
  have kept : committed.journal.withReceipt .recovery 0 1 none = committed.journal := by
    show { committed.journal with
      physical := update committed.journal.physical 0
        (update (committed.journal.physical 0) 1 none) } = committed.journal
    rw [← absent, update_eq_self, update_eq_self]
  have beside := intact.torn_recovery held (show (1 : Fin 2) = _ by decide) firstByte_torn nofun
    (fun _ _ _ acknowledged => nomatch acknowledged)
  rw [kept, ← controlRegions_splice .recovery 0 1 length firstByte_torn.length] at beside
  have fits : offset .recovery 0 1 + firstByte.length ≤ committed.control.length := by
    rw [firstByte_torn.length, length]
    exact offset_inside _ _ _
  obtain ⟨outside, changed, holds⟩ := prepared.intended_matches
  have reread : decodeControl plainHost (splice committed.control (offset .recovery 0 1) firstByte)
      (some ((Store.blank levelNonce).journal.sending (levelWrite encoded))) levelNonce =
      some (committed.journal, true) := by
    rw [decodeControl_retained_eq_some, compareRetained_eq_some plainHost _ _ _
      (show ((Store.blank levelNonce).journal.sending (levelWrite encoded)).pending =
        some (levelWrite encoded) from rfl)]
    refine ⟨(splice_length fits).trans length, beside.retain _, rfl, prepared.validatePending,
      outside, changed, holds, ?_⟩
    have sized : encoded.length = frameBytes := prepared.encoded_length
    have whole : slice committed.control (offset .recovery 0 0) encoded.length = encoded := by
      refine slice_splice_self ?_
      show offset .recovery 0 0 + encoded.length ≤ (List.replicate controlBytes 0).length
      rw [sized, List.length_replicate]
      exact offset_inside _ _ _
    rw [sized] at whole
    refine (slice_splice_disjoint fits ?_).trans whole
    rw [firstByte_torn.length]
    exact Or.inl le_rfl
  have equal := same plainHost _ _ loads run (levelWrite encoded) rfl _ _ _ _ reread .recovery 0 1
    (show (Domain.recovery, (0 : Fin 64), (1 : Fin 2)) ≠ (.recovery, 0, generationSide 1) by decide)
  have written : controlRegions (splice committed.control (offset .recovery 0 1) firstByte)
      .recovery 0 1 = firstByte := by
    rw [controlRegions, ← firstByte_torn.length]
    exact slice_splice_self fits
  have blank : controlRegions ((Store.blank levelNonce).sending (levelWrite encoded)
      (Fixed.zero frameBytes)).control .recovery 0 1 = List.replicate frameBytes 0 := by
    rw [(sending_regions loads prepared _).2]
    exact other_side_blank ..
  rw [written, blank] at equal
  exact firstByte_marked equal

end Axial.Fs
