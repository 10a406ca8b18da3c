/-
This file proves what the replay of an interrupted replacement does in every run,
with crashes between any of its actions: each action succeeds and leads to a
topology that is accepted again, the loop ends within its bound, and neither the
old nor the new file is lost where the replacement has one of them to keep.
-/

import Axial.Fs.Pins
import Axial.Fs.Replay

namespace Axial.Fs

open Bytes Relation Function List Option RecoveryPhase

/-! ### One action -/

/-- The record of a later phase. -/
def RecoveryRecord.inPhase (record : RecoveryRecord) (phase : RecoveryPhase) : RecoveryRecord :=
  { record with phase := phase }

theorem RecoveryPhase.ownsBoth_ne_stagePrepared {phase : RecoveryPhase}
    (owns : phase.ownsBoth = true) : phase ≠ .stagePrepared := by
  rintro rfl
  cases owns

variable {record : RecoveryRecord} {next : RecoveryPhase}

theorem validate_inPhase {host : Host} (valid : record.validate host = true)
    (replaces : record.old.isSome = true) (owns : record.phase.ownsBoth = true)
    (later : next ≠ .stagePrepared) : (record.inPhase next).validate host = true := by
  obtain ⟨operation, depth, names, lease, footprints, sizes, proofs⟩ :=
    of_decide_eq_true valid
  rw [RecoveryPhase.ownsBoth, Bool.and_eq_true] at owns
  have fewer : (footprintKeys host (record.inPhase next)).Sublist (footprintKeys host record) := by
    unfold footprintKeys
    rw [if_pos (c := record.old.isSome = true ∧ record.phase.ownsPark = true) ⟨replaces, owns.2⟩,
      if_pos (c := record.phase.ownsTarget = true) owns.1]
    refine ((List.Sublist.refl _).append ?_).append ?_
    · split_ifs
      · exact List.Sublist.refl _
      · exact nil_sublist _
    · split_ifs
      · exact List.Sublist.refl _
      · exact nil_sublist _
  have fresh : record.new.isSome = true := by
    unfold RecoveryRecord.phaseProofs at proofs
    revert proofs owns
    cases record.phase <;> simp [RecoveryPhase.ownsTarget, RecoveryPhase.ownsPark]
  have carried : (record.inPhase next).phaseProofs = true := by
    unfold RecoveryRecord.phaseProofs RecoveryRecord.inPhase
    cases next <;> simp_all
  exact decide_eq_true
    ⟨operation, depth, names, lease, footprints.sublist fewer, sizes, carried⟩

/-- The entries of a plan whose record has gone on to another phase. -/
def ReplayPlan.advanced (plan : ReplayPlan) (next : RecoveryPhase) : ReplayPlan :=
  ⟨plan.record.inPhase next, fun coordinate =>
    if next = .removePrepared ∧ coordinate ≠ .stage then .unowned else plan.entry coordinate⟩

theorem projected_target (record : RecoveryRecord) :
    (projectedNames record .target).isSome = record.phase.ownsTarget := by
  simp only [projectedNames]
  cases record.phase.ownsTarget <;> rfl

theorem projected_park (replaces : record.old.isSome = true) :
    (projectedNames record .park).isSome = record.phase.ownsPark := by
  simp only [projectedNames, replaces]
  cases record.phase.ownsPark <;> rfl

/-- A record that claims both leaves projects all three. -/
theorem projected_of_ownsBoth (replaces : record.old.isSome = true)
    (owns : record.phase.ownsBoth = true) (coordinate : ReplayCoordinate) :
    (projectedNames record coordinate).isSome = true := by
  rw [RecoveryPhase.ownsBoth, Bool.and_eq_true] at owns
  cases coordinate with
  | stage => rfl
  | target => exact (projected_target record).trans owns.1
  | park => exact (projected_park replaces).trans owns.2

theorem advanced_entry {host : Host} {media : ReplayMedia} {plan : ReplayPlan}
    (observes : Observes host media plan) (owns : plan.record.phase.ownsBoth = true)
    (target : next = .removePrepared ∨ next.ownsBoth = true) (coordinate : ReplayCoordinate) :
    (plan.advanced next).entry coordinate =
      openObserved host (plan.record.inPhase next) coordinate (media.disk coordinate) := by
  have before : openObserved host plan.record coordinate (media.disk coordinate) = _ :=
    openObserved_sealed (ownsBoth_ne_stagePrepared owns)
      (projected_of_ownsBoth observes.replaces owns coordinate) (media.disk coordinate)
  have replaces : (plan.record.inPhase next).old.isSome = true := observes.replaces
  show (if next = .removePrepared ∧ coordinate ≠ .stage then .unowned
    else plan.entry coordinate) = _
  rw [observes.entries coordinate, before]
  by_cases hidden : next = .removePrepared ∧ coordinate ≠ .stage
  · rw [if_pos hidden]
    refine ((openObserved_eq_unowned ..).mpr ?_).symm
    obtain ⟨rfl, elsewhere⟩ := hidden
    cases coordinate with
    | stage => exact absurd rfl elsewhere
    | target => exact projected_target _
    | park =>
      have park : (plan.record.inPhase .removePrepared).old.isSome = true := observes.replaces
      exact projected_park park
  · rw [if_neg hidden]
    refine (@openObserved_sealed host (plan.record.inPhase next) ?_ coordinate ?_ _).symm
    · rcases target with rfl | both
      · exact RecoveryPhase.noConfusion
      · exact ownsBoth_ne_stagePrepared both
    · rcases target with rfl | both
      · rw [not_and_not_right] at hidden
        rw [hidden rfl]
        rfl
      · exact projected_of_ownsBoth replaces both coordinate

theorem observes_advance {host : Host} {media : ReplayMedia} {plan : ReplayPlan}
    (observes : Observes host media plan) (allowed : plan.record.phase.advances next true = true)
    (owns : plan.record.phase.ownsBoth = true)
    (target : next = .removePrepared ∨ next.ownsBoth = true) :
    advanceReplayPhase host media plan next =
        some (.again { media with record := some (plan.record.inPhase next) }
          (plan.advanced next)) ∧
      Observes host { media with record := some (plan.record.inPhase next) }
        (plan.advanced next) := by
  have later : next ≠ .stagePrepared := by
    rcases target with rfl | both
    · exact RecoveryPhase.noConfusion
    · exact ownsBoth_ne_stagePrepared both
  have valid := validate_inPhase observes.valid observes.replaces owns later
  have accepted : advancesRecord media.record (some (plan.record.inPhase next)) = true := by
    rw [observes.durable]
    simp [advancesRecord, RecoveryRecord.inPhase, observes.replaces, allowed]
  refine ⟨?_, rfl, fun coordinate => advanced_entry observes owns target coordinate, valid,
    observes.replaces, fun coordinate content there => ?_⟩
  · unfold advanceReplayPhase
    dsimp only
    exact if_pos ⟨valid, accepted⟩
  · refine observes.recoverable coordinate content ?_
    unfold projectedFile at there ⊢
    rw [if_pos (projected_of_ownsBoth observes.replaces owns coordinate)]
    split_ifs at there
    exact there

theorem topology_of_sealed {plan : ReplayPlan}
    (sealedPhase : plan.record.phase ≠ .stagePrepared) :
    plan.topology = ⟨plan.record.new = plan.record.old,
      carrier (plan.entry .stage) false plan.record,
      carrier (plan.entry .target) false plan.record,
      carrier (plan.entry .park) false plan.record⟩ := by
  have unsealed : decide (plan.record.phase = .stagePrepared) = false :=
    decide_eq_false sealedPhase
  unfold ReplayPlan.topology
  rw [unsealed]

theorem topology_advanced (plan : ReplayPlan) (next : RecoveryPhase)
    (owns : plan.record.phase.ownsBoth = true)
    (target : next = .removePrepared ∨ next.ownsBoth = true) :
    (plan.advanced next).topology = plan.topology.after (.advance next) := by
  have later : (plan.advanced next).record.phase ≠ .stagePrepared := by
    rcases target with rfl | both
    · exact RecoveryPhase.noConfusion
    · exact ownsBoth_ne_stagePrepared both
  rw [topology_of_sealed later,
    topology_of_sealed (ownsBoth_ne_stagePrepared owns)]
  unfold ReplacementTopology.after
  by_cases hidden : next = .removePrepared
  · subst hidden
    rfl
  · have entries : (plan.advanced next).entry = plan.entry :=
      funext fun _ => if_neg fun both => hidden both.1
    rw [entries]
    exact (if_neg hidden).symm

/-- What an action is expected to lead to. -/
structure Leads (host : Host) (media : ReplayMedia) (plan : ReplayPlan)
    (action : ReplacementAction) (later : ReplayMedia) (after : ReplayPlan) : Prop where
  observes : Observes host later after
  record : after.record = plan.record.inPhase (action.phaseAfter plan.record.phase)
  disk : later.disk = action.effect media.disk
  topology : after.topology = plan.topology.after action

/-- An action succeeds, and leads to what it is expected to. -/
abbrev Performs (host : Host) (unix : Bool) (mode : ReplayMode) (media : ReplayMedia)
    (plan : ReplayPlan) (action : ReplacementAction) : Prop :=
  ∃ later after, performReplayAction host unix mode media plan action =
    some (.again later after) ∧ Leads host media plan action later after

variable {host : Host} {unix : Bool} {mode : ReplayMode} {media : ReplayMedia}
  {plan : ReplayPlan}

section

variable (observes : Observes host media plan)

include observes

theorem performs_advance (selected : mode = .selected)
    (supported : plan.topology.supports plan.record.phase (.advance next) = true) :
    Performs host unix mode media plan (.advance next) := by
  simp only [ReplacementTopology.supports, Bool.and_eq_true, Bool.or_eq_true,
    decide_eq_true_eq] at supported
  obtain ⟨⟨⟨⟨⟨allowed, owns⟩, notSealed⟩, target⟩, parked⟩, _⟩ := supported
  have goal : next = .removePrepared ∨ next.ownsBoth = true := by
    by_cases hidden : next = .removePrepared
    · exact .inl hidden
    · rw [if_neg hidden] at target
      exact .inr target
  have unprepared : next ≠ .stagePrepared := by
    rintro rfl
    rcases goal with impossible | impossible <;> cases impossible
  obtain ⟨advances, observesLater⟩ := observes_advance observes allowed owns goal
  refine ⟨_, _, ?_, observesLater, rfl, rfl, topology_advanced plan next owns goal⟩
  have unrefused : ¬(mode = .successor ∨ next = .stagePrepared ∨ next = .stageSealed) := by
    rw [selected]
    simp [unprepared, notSealed]
  simp only [performReplayAction, if_neg unrefused]
  by_cases publishing : next = .publishPrepared
  · rw [if_pos publishing]
    rcases parked with other | old
    · exact absurd publishing other
    · obtain ⟨_, proof, _, found⟩ := (carrier_matchesOld ..).mp old
      simp only [found]
      exact advances
  · rw [if_neg publishing]
    exact advances

variable {proof : Option RecoveryFileProof} {destination source : ReplayCoordinate}

theorem performs_rename (owns : plan.record.phase.ownsBoth = true)
    (found : plan.entry source = .file proof) (free : plan.entry destination = .absent) :
    ∃ after, renameReplayFile media plan source destination proof =
        some (.again ⟨media.record, media.disk.moved source destination⟩ after) ∧
      after = ⟨plan.record, update (update plan.entry source .absent)
        destination (plan.entry source)⟩ ∧
      Observes host ⟨media.record, media.disk.moved source destination⟩ after :=
  observes_rename observes (ownsBoth_ne_stagePrepared owns) found free
    (by cases proof <;> simp [revalidate])

theorem performs_parkTarget
    (supported : plan.topology.supports plan.record.phase .parkTarget = true) :
    Performs host unix mode media plan .parkTarget := by
  simp only [ReplacementTopology.supports, Bool.and_eq_true, decide_eq_true_eq] at supported
  obtain ⟨⟨owns, target⟩, park⟩ := supported
  obtain ⟨_, old, replaced, found⟩ := (carrier_matchesOld ..).mp target
  obtain ⟨after, renamed, rfl, observesLater⟩ :=
    performs_rename observes owns found ((carrier_eq_absent ..).mp park)
  refine ⟨_, _, ?_, observesLater, rfl, rfl, ?_⟩
  · simp only [performReplayAction, replaced, bind_eq_bind, bind_some]
    exact renamed
  · rfl

theorem performs_restorePark
    (supported : plan.topology.supports plan.record.phase .restorePark = true) :
    Performs host unix mode media plan .restorePark := by
  simp only [ReplacementTopology.supports, Bool.and_eq_true, decide_eq_true_eq] at supported
  obtain ⟨⟨⟨owns, _⟩, park⟩, target⟩ := supported
  obtain ⟨_, old, replaced, found⟩ := (carrier_matchesOld ..).mp park
  obtain ⟨after, renamed, rfl, observesLater⟩ :=
    performs_rename observes owns found ((carrier_eq_absent ..).mp target)
  refine ⟨_, _, ?_, observesLater, rfl, rfl, rfl⟩
  simp only [performReplayAction, replaced, bind_eq_bind, bind_some]
  exact renamed

theorem performs_publishStage
    (supported : plan.topology.supports plan.record.phase .publishStage = true) :
    Performs host unix mode media plan .publishStage := by
  simp only [ReplacementTopology.supports, Bool.and_eq_true, decide_eq_true_eq] at supported
  obtain ⟨⟨⟨owns, stage⟩, target⟩, _⟩ := supported
  obtain ⟨_, new, replacing, found⟩ := (carrier_matchesNew ..).mp stage
  obtain ⟨after, renamed, rfl, observesLater⟩ :=
    performs_rename observes owns found ((carrier_eq_absent ..).mp target)
  have sealedPhase := ownsBoth_ne_stagePrepared owns
  refine ⟨_, _, ?_, observesLater, rfl, rfl, ?_⟩
  · simp only [performReplayAction, publishReplayStage, replacing]
    exact renamed
  · rw [topology_of_sealed sealedPhase]
    exact topology_of_sealed sealedPhase

theorem performs_removePark
    (supported : plan.topology.supports plan.record.phase .removePark = true) :
    Performs host unix mode media plan .removePark := by
  simp only [ReplacementTopology.supports, Bool.and_eq_true] at supported
  obtain ⟨_, old, replaced, found⟩ := (carrier_matchesOld ..).mp supported.1.2
  obtain ⟨after, removed, rfl, observesLater⟩ :=
    @observes_remove host media plan observes .park _ plan.record.old found
      (by simp [revalidate, replaced])
  exact ⟨_, _, removed, observesLater, rfl, rfl, rfl⟩

theorem performs_removeStage
    (supported : plan.topology.supports plan.record.phase .removeStage = true) :
    Performs host unix mode media plan .removeStage := by
  have found : ∃ proof, plan.entry .stage = .file proof ∧ revalidate proof
      (if plan.record.phase ≠ .stagePrepared then plan.record.new else none) = true := by
    simp only [ReplacementTopology.supports] at supported
    by_cases prepared : plan.record.phase = .stagePrepared
    · rw [if_pos prepared, decide_eq_true_eq] at supported
      obtain ⟨_, proof, found⟩ := (carrier_eq_unsealed ..).mp supported
      exact ⟨proof, found, by simp [prepared, revalidate]⟩
    · rw [if_neg prepared, Bool.and_eq_true] at supported
      obtain ⟨_, new, replacing, found⟩ := (carrier_matchesNew ..).mp supported.1
      exact ⟨some new, found, by simp [prepared, revalidate, replacing]⟩
  obtain ⟨proof, found, kept⟩ := found
  obtain ⟨after, removed, rfl, observesLater⟩ := observes_remove observes found kept
  exact ⟨_, _, removed, observesLater, rfl, rfl, rfl⟩

theorem performs_withdrawal (supported : plan.topology.supports plan.record.phase .noEffect = true)
    (withdraws : plan.record.phase.withdraws = true) :
    Performs host unix mode media plan .noEffect := by
  simp only [ReplacementTopology.supports, Bool.and_eq_true, Bool.or_eq_true, Bool.not_eq_true',
    withdraws, Bool.true_eq_false, false_or] at supported
  obtain ⟨_, allowed, owns⟩ := supported
  obtain ⟨advances, observesLater⟩ := observes_advance observes allowed owns (.inl rfl)
  refine ⟨_, _, ?_, observesLater, ?_, rfl, topology_advanced plan _ owns (.inl rfl)⟩
  · simp only [performReplayAction, if_pos (of_decide_eq_true withdraws)]
    exact advances
  · show _ = plan.record.inPhase (if plan.record.phase.withdraws then _ else _)
    rw [if_pos withdraws]
    rfl

/-- An action that does not end the replay succeeds, with the effect it is expected to have. -/
theorem performs_of_action (committed : mode = .successor → plan.record.phase = .removeCommitted)
    {action : ReplacementAction} (chosen : plan.topology.action plan.record.phase = some action)
    (goesOn : action.finishes plan.record.phase = false) :
    Performs host unix mode media plan action := by
  have supported := supports_of_action _ _ _ chosen
  cases action with
  | advance next =>
    refine performs_advance observes ?_ supported
    cases mode with
    | selected => rfl
    | successor =>
      simp only [ReplacementTopology.supports, committed rfl, RecoveryPhase.advances,
        Bool.false_and, Bool.false_eq_true] at supported
  | removeStage => exact performs_removeStage observes supported
  | parkTarget => exact performs_parkTarget observes supported
  | publishStage => exact performs_publishStage observes supported
  | restorePark => exact performs_restorePark observes supported
  | removePark => exact performs_removePark observes supported
  | noEffect =>
    refine performs_withdrawal observes supported ?_
    rwa [ReplacementAction.finishes, Bool.not_eq_false'] at goesOn
  | applied => cases goesOn

/-- Whether a record that is done with is still planned with by a later replay. -/
def retains (unix : Bool) (mode : ReplayMode) : Bool := mode = .successor ∨ unix = false

variable {action : ReplacementAction}

/-- An action that ends the replay leaves the files alone. -/
theorem performs_finish (chosen : plan.topology.action plan.record.phase = some action)
    (ends : action.finishes plan.record.phase = true) :
    performReplayAction host unix mode media plan action = some (.finished
      { media with record := if retains unix mode then media.record else none }) := by
  have supported := supports_of_action _ _ _ chosen
  have unsealed : plan.record.phase ≠ .stageSealed := by
    cases action <;> simp_all [ReplacementAction.finishes, ReplacementTopology.supports]
  have retired : retireReplayRecord unix mode media = some (.finished
      { media with record := if retains unix mode then media.record else none }) := by
    unfold retireReplayRecord retains
    rw [observes.durable]
    by_cases keeps : mode = .successor ∨ unix = false
    · simp [keeps, ← observes.durable]
    · simp [keeps, advancesRecord, unsealed]
  cases action with
  | noEffect =>
    have stays : ¬(plan.record.phase = .replacePrepared ∨
        plan.record.phase = .publishPrepared) := by
      rwa [ReplacementAction.finishes, Bool.not_eq_true', RecoveryPhase.withdraws,
        decide_eq_false_iff_not] at ends
    simp only [performReplayAction, if_neg stays]
    exact retired
  | applied => exact retired
  | _ => cases ends

/-! ### What is kept -/

/-- A leaf holds the file of a proof. -/
def HoldsFile (host : Host) (disk : ReplacementDisk) (coordinate : ReplayCoordinate)
    (proof : Option RecoveryFileProof) : Prop :=
  ∃ bytes, disk coordinate = some bytes ∧ proof.isSome = true ∧ proveFile host bytes = proof

/-- One of the two files is in its place, or the old one is parked. -/
def Secured (host : Host) (record : RecoveryRecord) (disk : ReplacementDisk) : Prop :=
  HoldsFile host disk .target record.old ∨ HoldsFile host disk .target record.new ∨
    HoldsFile host disk .park record.old

/-- The old file is at the target or parked, or the new one is at the target or staged. -/
def Kept (host : Host) (record : RecoveryRecord) (disk : ReplacementDisk) : Prop :=
  Secured host record disk ∨ HoldsFile host disk .stage record.new

/-- A replacement has something to keep from the start when one of its files is secured, or when
the new one is committed. -/
def Engaged (host : Host) (record : RecoveryRecord) (found : ReplacementDisk) : Prop :=
  Secured host record found ∨ record.phase = .removeCommitted

variable {coordinate : ReplayCoordinate}

theorem holdsFile_of_entry {proof : RecoveryFileProof}
    (found : plan.entry coordinate = .file (some proof)) :
    HoldsFile host media.disk coordinate (some proof) := by
  obtain ⟨_, bytes, held, proven⟩ :=
    (openObserved_eq_file ..).mp ((observes.entries coordinate).symm.trans found)
  refine ⟨bytes, held, rfl, ?_⟩
  split_ifs at proven
  exact proven

variable {unsealed : Bool}

theorem holdsFile_of_matchesOld
    (old : (carrier (plan.entry coordinate) unsealed plan.record).matchesOld = true) :
    HoldsFile host media.disk coordinate plan.record.old := by
  obtain ⟨_, proof, carried, found⟩ := (carrier_matchesOld ..).mp old
  rw [carried]
  exact holdsFile_of_entry observes found

theorem holdsFile_of_matchesNew
    (new : (carrier (plan.entry coordinate) unsealed plan.record).matchesNew = true) :
    HoldsFile host media.disk coordinate plan.record.new := by
  obtain ⟨_, proof, carried, found⟩ := (carrier_matchesNew ..).mp new
  rw [carried]
  exact holdsFile_of_entry observes found

theorem nothing_of_absent (absent : carrier (plan.entry coordinate) unsealed plan.record = .absent)
    : media.disk coordinate = none :=
  ((openObserved_eq_absent ..).mp
    ((observes.entries coordinate).symm.trans ((carrier_eq_absent ..).mp absent))).2

end

variable {disk : ReplacementDisk}

/-- The file of a leaf is found where it was moved to. -/
theorem holdsFile_moved (held : HoldsFile host disk source proof) :
    HoldsFile host (disk.moved source destination) destination proof := by
  obtain ⟨bytes, there, rest⟩ := held
  exact ⟨bytes, (update_self ..).trans there, rest⟩

/-- An action leaves target and park alone, or has one of the files secured, which then was
secured before it or committed. -/
theorem action_leaves_or_secures (observes : Observes host media plan)
    (chosen : plan.topology.action plan.record.phase = some action)
    (goesOn : action.finishes plan.record.phase = false) :
    ((action.effect media.disk .target = media.disk .target ∧
        action.effect media.disk .park = media.disk .park) ∧
      plan.record.phase ≠ .removeCommitted ∧
      (action.phaseAfter plan.record.phase = .removeCommitted →
        Secured host plan.record media.disk) ∧
      (action.phaseAfter plan.record.phase = .removePrepared →
        plan.record.phase = .removePrepared ∨ media.disk .park = none)) ∨
    (Secured host plan.record (action.effect media.disk) ∧
      (Secured host plan.record media.disk ∨ plan.record.phase = .removeCommitted) ∧
      action.phaseAfter plan.record.phase ≠ .removePrepared) := by
  have supported := supports_of_action _ _ _ chosen
  have elsewhere : ∀ {phase : RecoveryPhase}, phase.ownsBoth = true → phase ≠ .removePrepared := by
    rintro _ owns rfl
    cases owns
  cases action with
  | advance next =>
    simp only [ReplacementTopology.supports, Bool.and_eq_true, Bool.or_eq_true,
      decide_eq_true_eq] at supported
    obtain ⟨⟨⟨⟨⟨allowed, owns⟩, _⟩, target⟩, _⟩, committing⟩ := supported
    refine .inl ⟨⟨rfl, rfl⟩, ?_, ?_, ?_⟩
    · intro done
      rw [done] at allowed
      cases allowed
    · intro done
      rcases committing with other | new
      · exact absurd done other
      · exact .inr (.inl (holdsFile_of_matchesNew observes new))
    · intro removing
      have next : next = .removePrepared := removing
      rw [if_pos next, decide_eq_true_eq] at target
      exact .inr (nothing_of_absent observes target)
  | removeStage =>
    have rest : ∀ coordinate, coordinate ≠ .stage →
        ReplacementAction.removeStage.effect media.disk coordinate = media.disk coordinate := by
      intro coordinate other
      show update media.disk .stage none coordinate = media.disk coordinate
      exact update_of_ne other _ _
    refine .inl ⟨⟨rest .target (by decide), rest .park (by decide)⟩, ?_, ?_, .inl⟩
    all_goals
      intro done
      have done : plan.record.phase = .removeCommitted := done
      simp [ReplacementTopology.supports, done] at supported
  | parkTarget =>
    simp only [ReplacementTopology.supports, Bool.and_eq_true] at supported
    have held := holdsFile_of_matchesOld observes supported.1.2
    exact .inr ⟨.inr (.inr (holdsFile_moved held)), .inl (.inl held),
      elsewhere supported.1.1⟩
  | publishStage =>
    simp only [ReplacementTopology.supports, Bool.and_eq_true, Bool.or_eq_true,
      decide_eq_true_eq] at supported
    obtain ⟨⟨⟨owns, stage⟩, _⟩, committed | parked⟩ := supported
    · exact .inr ⟨.inr (.inl (holdsFile_moved (holdsFile_of_matchesNew observes stage))),
        .inr committed, elsewhere owns⟩
    · exact .inr ⟨.inr (.inl (holdsFile_moved (holdsFile_of_matchesNew observes stage))),
        .inl (.inr (.inr (holdsFile_of_matchesOld observes parked))), elsewhere owns⟩
  | restorePark =>
    simp only [ReplacementTopology.supports, Bool.and_eq_true] at supported
    obtain ⟨⟨⟨owns, _⟩, park⟩, _⟩ := supported
    have held := holdsFile_of_matchesOld observes park
    exact .inr ⟨.inl (holdsFile_moved held), .inl (.inr (.inr held)), elsewhere owns⟩
  | removePark =>
    simp only [ReplacementTopology.supports, Bool.and_eq_true] at supported
    obtain ⟨bytes, there, rest⟩ := holdsFile_of_matchesNew observes supported.2
    exact .inr ⟨.inr (.inl ⟨bytes, (update_of_ne (by decide) ..).trans there, rest⟩),
      .inl (.inr (.inl ⟨bytes, there, rest⟩)), elsewhere supported.1.1⟩
  | noEffect =>
    rw [ReplacementAction.finishes, Bool.not_eq_false'] at goesOn
    have after : ReplacementAction.noEffect.phaseAfter plan.record.phase = .removePrepared :=
      if_pos goesOn
    simp only [ReplacementTopology.supports, Bool.and_eq_true, Bool.or_eq_true,
      decide_eq_true_eq] at supported
    obtain ⟨⟨⟨⟨_, uncommitted⟩, _⟩, park⟩, _⟩ := supported
    refine .inl ⟨⟨rfl, rfl⟩, uncommitted, fun done => ?_, fun _ => ?_⟩
    · rw [after] at done
      cases done
    · exact park.imp_right (nothing_of_absent observes)
  | applied => cases goesOn

/-! ### Invariants -/

/-- What holds of the files in any state of a replay that was started on `found`. -/
structure Guarded (host : Host) (start : RecoveryRecord) (found : ReplacementDisk)
    (phase : RecoveryPhase) (disk : ReplacementDisk) : Prop where
  keeps : Engaged host start found → Secured host start disk ∨
    phase = .removeCommitted ∧ HoldsFile host disk .stage start.new
  untouched : ¬Engaged host start found →
    disk .target = found .target ∧ disk .park = found .park ∧ phase ≠ .removeCommitted
  parked : phase = .removePrepared → disk .park = none ∨
    start.phase = .removePrepared ∧ disk .park = found .park ∧ disk .target = found .target

/-- The plan, and how it stands to the record and the files the replay was started on. -/
structure Tracks (host : Host) (mode : ReplayMode) (start : RecoveryRecord)
    (found : ReplacementDisk) (media : ReplayMedia) (plan : ReplayPlan) : Prop where
  observes : Observes host media plan
  record : plan.record = start.inPhase plan.record.phase
  committed : mode = .successor → plan.record.phase = .removeCommitted
  guarded : Guarded host start found plan.record.phase media.disk

variable {start : RecoveryRecord} {found : ReplacementDisk}

theorem secured_congr {disk other : ReplacementDisk} {record : RecoveryRecord}
    (target : disk .target = other .target) (park : disk .park = other .park) :
    Secured host record disk ↔ Secured host record other := by
  unfold Secured HoldsFile
  rw [target, park]

theorem Tracks.secured_iff (tracks : Tracks host mode start found media plan) :
    Secured host plan.record disk ↔ Secured host start disk := by
  rw [tracks.record]
  rfl

theorem guarded_start (observes : Observes host media plan)
    (accepted : (plan.topology.action plan.record.phase).isSome = true) :
    Guarded host plan.record media.disk plan.record.phase media.disk := by
  refine ⟨fun engaged => ?_, fun free => ⟨rfl, rfl, fun done => free (.inr done)⟩,
    fun removing => .inr ⟨removing, rfl, rfl⟩⟩
  rcases engaged with secured | committed
  · exact .inl secured
  · rw [committed] at accepted
    rcases committed_of_action _ accepted with target | target | park | stage
    · exact .inl (.inl (holdsFile_of_matchesOld observes target))
    · exact .inl (.inr (.inl (holdsFile_of_matchesNew observes target)))
    · exact .inl (.inr (.inr (holdsFile_of_matchesOld observes park)))
    · exact .inr ⟨committed, holdsFile_of_matchesNew observes stage⟩

section

variable (tracks : Tracks host mode start found media plan)

include tracks

theorem guarded_action (chosen : plan.topology.action plan.record.phase = some action)
    (goesOn : action.finishes plan.record.phase = false) :
    Guarded host start found (action.phaseAfter plan.record.phase)
      (action.effect media.disk) := by
  have guarded := tracks.guarded
  have leaves := action_leaves_or_secures tracks.observes chosen goesOn
  rw [tracks.secured_iff, tracks.secured_iff] at leaves
  rcases leaves with ⟨⟨target, park⟩, uncommitted, committing, removing⟩ |
    ⟨secured, before, elsewhere⟩
  · have same := @secured_congr host _ _ start target park
    refine ⟨fun engaged => ?_, fun free => ?_, fun done => ?_⟩
    · rcases guarded.keeps engaged with secured | ⟨committed, _⟩
      · exact .inl (same.mpr secured)
      · exact absurd committed uncommitted
    · obtain ⟨targetBefore, parkBefore, _⟩ := guarded.untouched free
      refine ⟨target.trans targetBefore, park.trans parkBefore, fun done => free (.inl ?_)⟩
      exact (secured_congr targetBefore parkBefore).mp (committing done)
    · rw [target, park]
      rcases removing done with already | nothing
      · exact guarded.parked already
      · exact .inl nothing
  · refine ⟨fun _ => .inl secured, fun free => ?_, fun done => absurd done elsewhere⟩
    obtain ⟨target, park, uncommitted⟩ := guarded.untouched free
    rcases before with secured | committed
    · exact absurd (.inl ((secured_congr target park).mp secured)) free
    · exact absurd committed uncommitted

/-- An action that does not end the replay leads to a plan that is tracked as well, and chosen
for again. -/
theorem tracks_action {action : ReplacementAction}
    (chosen : plan.topology.action plan.record.phase = some action)
    (goesOn : action.finishes plan.record.phase = false) :
    ∃ later after, performReplayAction host unix mode media plan action =
        some (.again later after) ∧ Tracks host mode start found later after ∧
      after.topology = plan.topology.after action ∧
      after.record.phase = action.phaseAfter plan.record.phase := by
  obtain ⟨later, after, performed, leads⟩ :=
    @performs_of_action host unix mode media plan tracks.observes tracks.committed action chosen
      goesOn
  have phase : after.record.phase = action.phaseAfter plan.record.phase := by
    rw [leads.record]
    rfl
  refine ⟨later, after, performed, ⟨leads.observes, ?_, fun successor => ?_, ?_⟩,
    leads.topology, phase⟩
  · rw [leads.record, tracks.record]
    rfl
  · have committed := tracks.committed successor
    have supported := supports_of_action _ _ _ chosen
    rw [phase]
    cases action with
    | advance next => simp [ReplacementTopology.supports, committed, RecoveryPhase.advances]
        at supported
    | noEffect => simp [ReplacementTopology.supports, committed] at supported
    | _ => exact committed
  · rw [phase, leads.disk]
    exact guarded_action tracks chosen goesOn

/-- What the files are like when the replay of a record is over. -/
structure ReplayEnds (host : Host) (record : RecoveryRecord) (found disk : ReplacementDisk) :
    Prop where
  stage : disk .stage = none
  park : disk .park = none ∨ record.phase = .removePrepared ∧ disk .park = found .park
  target : HoldsFile host disk .target record.old ∨ HoldsFile host disk .target record.new ∨
    disk .target = found .target

theorem ends_of_finish (chosen : plan.topology.action plan.record.phase = some action)
    (ends : action.finishes plan.record.phase = true) : ReplayEnds host start found media.disk := by
  have supported := supports_of_action _ _ _ chosen
  cases action with
  | noEffect =>
    simp only [ReplacementTopology.supports, Bool.and_eq_true, Bool.or_eq_true,
      decide_eq_true_eq] at supported
    obtain ⟨⟨⟨⟨stage, uncommitted⟩, _⟩, park⟩, _⟩ := supported
    have parked : media.disk .park = none ∨ start.phase = .removePrepared ∧
        media.disk .park = found .park ∧ media.disk .target = found .target := by
      rcases park with removing | absent
      · exact tracks.guarded.parked removing
      · exact .inl (nothing_of_absent tracks.observes absent)
    refine ⟨nothing_of_absent tracks.observes stage,
      parked.imp_right fun left => ⟨left.1, left.2.1⟩, ?_⟩
    rcases parked with nothing | ⟨_, _, same⟩
    · by_cases engaged : Engaged host start found
      · rcases tracks.guarded.keeps engaged with (old | new | ⟨bytes, there, _⟩) | committed
        · exact .inl old
        · exact .inr (.inl new)
        · rw [nothing] at there
          cases there
        · exact absurd committed.1 uncommitted
      · exact .inr (.inr (tracks.guarded.untouched engaged).1)
    · exact .inr (.inr same)
  | applied =>
    simp only [ReplacementTopology.supports, Bool.and_eq_true, decide_eq_true_eq] at supported
    obtain ⟨⟨⟨_, stage⟩, target⟩, park⟩ := supported
    have new := holdsFile_of_matchesNew tracks.observes target
    rw [tracks.record] at new
    exact ⟨nothing_of_absent tracks.observes stage, .inl (nothing_of_absent tracks.observes park),
      .inr (.inl new)⟩
  | _ => cases ends

/-! ### Runs -/

/-- The next action ends the replay. -/
def ReplayPlan.AtEnd (plan : ReplayPlan) : Prop :=
  ∃ action, plan.topology.action plan.record.phase = some action ∧
    action.finishes plan.record.phase = true

/-- What holds of every state of a run that was started on `start` and `found`. -/
def Standing (host : Host) (unix : Bool) (mode : ReplayMode) (start : RecoveryRecord)
    (found : ReplacementDisk) (state : ReplayState) : Prop :=
  match state.process with
  | .replaying remaining plan => remaining ≤ maxReplacementReplayActions ∧
    Tracks host mode start found state.media plan ∧
    plan.topology.settles remaining plan.record.phase = true
  | .returned => (∃ phase, Guarded host start found phase state.media.disk) ∧
    ReplayEnds host start found state.media.disk ∧
    (state.media.record = none ∨ retains unix mode = true ∧
      ∃ plan, Tracks host mode start found state.media plan ∧ plan.AtEnd)
  | .refused => False

theorem Tracks.chosen (chosen : plan.topology.action plan.record.phase = some action) :
    replacementAction host plan = some action :=
  (replacementAction_eq_some ..).mpr ⟨tracks.observes.valid, tracks.observes.replaces, chosen⟩

end

variable {state : ReplayState}

/-- A new process plans with what an earlier one had come to. -/
theorem restart_of_tracks (tracks : Tracks host mode start found state.media plan)
    (accepted : (plan.topology.action plan.record.phase).isSome = true) :
    state.restart host = ⟨state.media, .replaying maxReplacementReplayActions plan⟩ := by
  obtain ⟨action, chosen⟩ := isSome_iff_exists.mp accepted
  have planned := tracks.observes.planReplayRecord
    (isSome_of_eq_some (tracks.chosen chosen))
  unfold ReplayState.restart
  simp only [tracks.observes.durable, planned]

theorem standing_restart (standing : Standing host unix mode start found state) :
    Standing host unix mode start found (state.restart host) := by
  have replanned : ∀ {plan : ReplayPlan}, Tracks host mode start found state.media plan →
      (plan.topology.action plan.record.phase).isSome = true →
      Standing host unix mode start found (state.restart host) := by
    intro plan tracks accepted
    rw [restart_of_tracks tracks accepted]
    exact ⟨le_rfl, tracks, settles_of_action _ _ accepted⟩
  cases now : state.process with
  | replaying remaining plan =>
    simp only [Standing, now] at standing
    obtain ⟨_, _, _, chosen, _⟩ := settles_succ standing.2.2
    exact replanned standing.2.1 (isSome_of_eq_some chosen)
  | returned =>
    simp only [Standing, now] at standing
    obtain ⟨guarded, ends, idle | ⟨kept, plan, tracks, action, chosen, finishes⟩⟩ := standing
    · have gone : state.restart host = ⟨state.media, .returned⟩ := by
        unfold ReplayState.restart
        simp only [idle]
      rw [gone]
      exact ⟨guarded, ends, .inl idle⟩
    · exact replanned tracks (isSome_of_eq_some chosen)
  | refused =>
    simp only [Standing, now] at standing

/-- The turn that ends a replay. -/
theorem turn_of_finish {remaining : Nat} (now : state.process = .replaying (remaining + 1) plan)
    (tracks : Tracks host mode start found state.media plan) (atEnd : plan.AtEnd) :
    state.turn host unix mode =
      ⟨{ state.media with record := if retains unix mode then state.media.record else none },
        .returned⟩ := by
  obtain ⟨action, chosen, finishes⟩ := atEnd
  unfold ReplayState.turn
  simp only [now, tracks.chosen chosen, bind_some,
    performs_finish tracks.observes chosen finishes]

theorem standing_turn (standing : Standing host unix mode start found state) :
    Standing host unix mode start found (state.turn host unix mode) := by
  cases now : state.process with
  | replaying remaining plan =>
    simp only [Standing, now] at standing
    obtain ⟨bound, tracks, settles⟩ := standing
    obtain ⟨earlier, action, rfl, chosen, next⟩ := settles_succ settles
    cases finishes : action.finishes plan.record.phase with
    | true =>
      have ends := ends_of_finish tracks chosen finishes
      rw [turn_of_finish now tracks ⟨action, chosen, finishes⟩]
      refine ⟨⟨_, tracks.guarded⟩, ends, ?_⟩
      cases kept : retains unix mode with
      | true => exact .inr ⟨rfl, plan, tracks, action, chosen, finishes⟩
      | false => exact .inl rfl
    | false =>
      obtain ⟨later, after, performed, tracksLater, topology, phase⟩ :=
        @tracks_action host unix mode _ _ _ _ tracks _ chosen finishes
      have turned : state.turn host unix mode = ⟨later, .replaying earlier after⟩ := by
        unfold ReplayState.turn
        simp only [now, tracks.chosen chosen, bind_some, performed]
      rw [turned]
      refine ⟨(Nat.le_succ _).trans bound, tracksLater, ?_⟩
      rw [topology, phase]
      exact next finishes
  | returned =>
    have stays : state.turn host unix mode = state := by
      unfold ReplayState.turn
      simp only [now]
    rwa [stays]
  | refused => simp only [Standing, now] at standing

theorem standing_steps {before after : ReplayState}
    (step : before.Steps host unix mode after)
    (standing : Standing host unix mode start found before) :
    Standing host unix mode start found after := by
  rcases step with rfl | rfl
  · exact standing_turn standing
  · exact standing_restart standing

/-- Without a crash the loop returns within the turns it has left. -/
theorem returns_of_standing (remaining : Nat) (standing : Standing host unix mode start found state)
    (now : state.process = .replaying remaining plan) :
    ∃ turns ≤ remaining,
      ((ReplayState.turn host unix mode)^[turns] state).process = .returned := by
  induction remaining generalizing state plan with
  | zero =>
    simp only [Standing, now] at standing
    cases standing.2.2
  | succ earlier ih =>
    have later := standing_turn standing
    cases next : (state.turn host unix mode).process with
    | returned => exact ⟨1, Nat.succ_le_succ (Nat.zero_le _), next⟩
    | refused => simp only [Standing, next] at later
    | replaying left after =>
      have fewer : left = earlier := by
        simp only [ReplayState.turn, now] at next
        split at next
        · cases next
        · cases next
          rfl
        · cases next
      subst fewer
      obtain ⟨turns, within, returned⟩ := ih later next
      exact ⟨turns + 1, Nat.succ_le_succ within, returned⟩

/-- A replay that is over, or on its way to see that there is nothing left to do. -/
def Resting (host : Host) (unix : Bool) (mode : ReplayMode) (start : RecoveryRecord)
    (found : ReplacementDisk) (media : ReplayMedia) (state : ReplayState) : Prop :=
  state.media = media ∧ (state.process = .returned ∨ retains unix mode = true ∧
    ∃ plan remaining, state.process = .replaying (remaining + 1) plan ∧
      Tracks host mode start found media plan ∧ plan.AtEnd)

/-- Whatever happens after the replay is over, the files and the record stay as they are. -/
theorem rests_of_returned {later : ReplayState}
    (standing : Standing host unix mode start found state) (ended : state.process = .returned)
    (run : ReflTransGen (ReplayState.Steps host unix mode) state later) :
    later.media = state.media := by
  simp only [Standing, ended] at standing
  have rests : Resting host unix mode start found state.media later := by
    refine Runs.invariant ?_ run ⟨rfl, .inl ended⟩
    rintro before after (rfl | rfl) ⟨same, resting⟩
    · rcases resting with returned | ⟨kept, plan, remaining, now, tracks, atEnd⟩
      · have stays : before.turn host unix mode = before := by
          unfold ReplayState.turn
          simp only [returned]
        rw [stays]
        exact ⟨same, .inl returned⟩
      · rw [← same] at tracks
        rw [turn_of_finish now tracks atEnd, if_pos kept]
        exact ⟨same, .inl rfl⟩
    · rcases standing.2.2 with idle | ⟨kept, plan, tracks, action, chosen, finishes⟩
      · have gone : before.restart host = ⟨before.media, .returned⟩ := by
          unfold ReplayState.restart
          simp only [same, idle]
        rw [gone]
        exact ⟨same, .inl rfl⟩
      · rw [← same] at tracks
        rw [restart_of_tracks tracks (isSome_of_eq_some chosen)]
        rw [same] at tracks
        exact ⟨same, .inr ⟨kept, plan, _, rfl, tracks, action, chosen, finishes⟩⟩
  exact rests.1

/-- A state in a run of the replay of a record, which began with the files as in `disk`. -/
def ReplayReaches (host : Host) (unix : Bool) (mode : ReplayMode) (record : RecoveryRecord)
    (disk : ReplacementDisk) (state : ReplayState) : Prop :=
  ∃ plan, planReplayRecord host record disk = some plan ∧
    ReflTransGen (ReplayState.Steps host unix mode)
      ⟨⟨some record, disk⟩, .replaying maxReplacementReplayActions plan⟩ state

theorem standing_of_reaches (committed : mode = .successor → record.phase = .removeCommitted)
    (reaches : ReplayReaches host unix mode record disk state) :
    Standing host unix mode record disk state := by
  obtain ⟨plan, planned, run⟩ := reaches
  obtain ⟨rfl, observes, accepted⟩ := observes_of_planReplayRecord planned
  obtain ⟨action, chosen⟩ := isSome_iff_exists.mp accepted
  have classified := isSome_of_eq_some ((replacementAction_eq_some ..).mp chosen).2.2
  have initially : Standing host unix mode plan.record disk
      ⟨⟨some plan.record, disk⟩, .replaying maxReplacementReplayActions plan⟩ :=
    ⟨le_rfl, ⟨observes, rfl, committed, guarded_start observes classified⟩,
      settles_of_action _ _ classified⟩
  exact @Runs.invariant _ _ (Standing host unix mode plan.record disk)
    (fun _ _ step => standing_steps step) _ _ run initially

/-- A run of the replay of a replacement, with crashes between its actions, only meets
topologies that are accepted again and returns within its bound. If there is something to keep at
the start, the old or the new file is kept throughout, and if not the target and the park leaf are
never touched. What it ends with a further replay does not change. -/
theorem replacementReplay_crashSafe (host : Host) (unix : Bool) (mode : ReplayMode)
    (record : RecoveryRecord) (disk : ReplacementDisk)
    (committed : mode = .successor → record.phase = .removeCommitted) (state : ReplayState)
    (reaches : ReplayReaches host unix mode record disk state) :
    state.process ≠ .refused ∧
      (∀ remaining plan, state.process = .replaying remaining plan →
        planReplayRecord host plan.record state.media.disk = some plan) ∧
      (∃ turns ≤ maxReplacementReplayActions,
        ((ReplayState.turn host unix mode)^[turns] state).process = .returned) ∧
      (Engaged host record disk → Kept host record state.media.disk) ∧
      (¬Engaged host record disk →
        state.media.disk .target = disk .target ∧ state.media.disk .park = disk .park) ∧
      (state.process = .returned → ReplayEnds host record disk state.media.disk ∧
        ∀ later, ReflTransGen (ReplayState.Steps host unix mode) state later →
          later.media = state.media) := by
  have standing := standing_of_reaches committed reaches
  have guarded : ∃ phase, Guarded host record disk phase state.media.disk := by
    cases now : state.process <;> simp only [Standing, now] at standing
    · exact ⟨_, standing.2.1.guarded⟩
    · exact standing.1
  obtain ⟨phase, guarded⟩ := guarded
  refine ⟨fun refused => ?_, fun remaining plan now => ?_, ?_, fun engaged => ?_,
    fun free => ?_, fun ended => ⟨?_, fun later run => rests_of_returned standing ended run⟩⟩
  · simp only [Standing, refused] at standing
  · simp only [Standing, now] at standing
    obtain ⟨_, tracks, settles⟩ := standing
    obtain ⟨_, _, _, chosen, _⟩ := settles_succ settles
    exact tracks.observes.planReplayRecord (isSome_of_eq_some (tracks.chosen chosen))
  · cases now : state.process with
    | replaying remaining plan =>
      obtain ⟨turns, within, returned⟩ := returns_of_standing remaining standing now
      simp only [Standing, now] at standing
      exact ⟨turns, within.trans standing.1, returned⟩
    | returned => exact ⟨0, Nat.zero_le _, now⟩
    | refused => simp only [Standing, now] at standing
  · exact (guarded.keeps engaged).imp_right And.right
  · exact ⟨(guarded.untouched free).1, (guarded.untouched free).2.1⟩
  · simp only [Standing, ended] at standing
    exact standing.2.1

/-! ### A sealed stage without an old file -/

/-- `saves/level.dat` of two bytes is to be replaced by the staged file of one. -/
def levelReplacement : RecoveryRecord :=
  { levelRecord with
    phase := .stageSealed
    old := some ⟨2, plainHost.sha256 []⟩
    new := some ⟨1, plainHost.sha256 []⟩ }

def levelStaged (target : Option (List UInt8)) : ReplacementDisk
  | .stage => some [7]
  | .target => target
  | .park => none

/-- How the replay of the replacement starts. -/
def levelStart (target : Option (List UInt8)) : ReplayState where
  media := ⟨some levelReplacement, levelStaged target⟩
  process := .replaying maxReplacementReplayActions ⟨levelReplacement, fun coordinate =>
    openObserved plainHost levelReplacement coordinate (levelStaged target coordinate)⟩

theorem reaches_level (target : Option (List UInt8)) (turns : Nat)
    (accepted : (planReplayRecord plainHost levelReplacement (levelStaged target)).isSome = true) :
    ReplayReaches plainHost true .selected levelReplacement (levelStaged target)
      ((ReplayState.turn plainHost true .selected)^[turns] (levelStart target)) := by
  obtain ⟨plan, planned⟩ := isSome_iff_exists.mp accepted
  obtain ⟨record, observes, _⟩ := observes_of_planReplayRecord planned
  have same : plan = ⟨levelReplacement, fun coordinate =>
      openObserved plainHost levelReplacement coordinate (levelStaged target coordinate)⟩ := by
    obtain ⟨_, entry⟩ := plan
    subst record
    congr
    funext coordinate
    exact observes.entries coordinate
  refine ⟨plan, planned, ?_⟩
  rw [same]
  show ReflTransGen _ (levelStart target) _
  induction turns with
  | zero => exact .refl
  | succ turns ih =>
    rw [iterate_succ_apply']
    exact ih.tail (.inl rfl)

theorem replacementReplay_crashSafe_level :
    Kept plainHost levelReplacement ((ReplayState.turn plainHost true .selected)^[2]
      (levelStart (some [8, 8]))).media.disk :=
  (replacementReplay_crashSafe plainHost true .selected levelReplacement
    (levelStaged (some [8, 8])) nofun _
    (reaches_level (some [8, 8]) 2 (by decide))).2.2.2.1
      (.inl (.inl ⟨[8, 8], rfl, rfl, by decide⟩))

/-- With neither of the files at the target the replay gives up the staged one, and the target is
still without a file when it ends. -/
theorem stagedReplacement_dropped :
    ∃ state, ReplayReaches plainHost true .selected levelReplacement (levelStaged none) state ∧
      state.process = .returned ∧ state.media.disk .target = none ∧
      ¬Kept plainHost levelReplacement state.media.disk := by
  refine ⟨_, reaches_level none 3 (by decide), ?_, ?_, ?_⟩
  · rfl
  · rfl
  · have empty : ∀ coordinate, ((ReplayState.turn plainHost true .selected)^[3]
        (levelStart none)).media.disk coordinate = none := by
      decide
    rintro ((⟨_, held, _⟩ | ⟨_, held, _⟩ | ⟨_, held, _⟩) | ⟨_, held, _⟩) <;>
      · rw [empty] at held
        cases held

end Axial.Fs
