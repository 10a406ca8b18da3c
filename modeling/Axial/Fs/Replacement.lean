/-
This file models how an interrupted replacement is classified: what each of the
stage, target and park leaves was seen to hold, and the action
`classify_replacement` in `recovery.rs` chooses from that and the phase.

The actions are also given their effect on what is seen. There are finitely
many topologies, so what that machine does from every one of them is found out
by going through them all.
-/

import Axial.Fs.Recovery

namespace Axial.Fs

instance : Fintype RecoveryPhase where
  elems := {.stagePrepared, .stageSealed, .replacePrepared, .publishPrepared, .removePrepared,
    .removeCommitted}
  complete phase := by cases phase <;> decide

/-! ### Classification -/

inductive ReplacementCarrier where
  | unobserved
  | absent
  | unsealed
  | other
  | old
  | new
  | oldAndNew
  deriving DecidableEq

instance : Fintype ReplacementCarrier where
  elems := {.unobserved, .absent, .unsealed, .other, .old, .new, .oldAndNew}
  complete carrier := by cases carrier <;> decide

namespace ReplacementCarrier

def isObserved (carrier : ReplacementCarrier) : Bool := carrier ≠ unobserved

def matchesOld : ReplacementCarrier → Bool
  | old | oldAndNew => true
  | _ => false

def matchesNew : ReplacementCarrier → Bool
  | new | oldAndNew => true
  | _ => false

def hasValidProofRole (carrier : ReplacementCarrier) (proofsEqual : Bool) : Bool :=
  match carrier with
  | oldAndNew => proofsEqual
  | old | new => !proofsEqual
  | _ => true

/-- The carrier of a file that is, or is not, the old one and the new one. -/
def ofMatches : Bool → Bool → ReplacementCarrier
  | true, true => oldAndNew
  | true, false => old
  | false, true => new
  | false, false => other

section

variable (isOld : Bool) (isNew : Bool)

include isOld isNew

@[simp]
theorem matchesOld_ofMatches : (ofMatches isOld isNew).matchesOld = isOld := by
  cases isOld <;> cases isNew <;> rfl

@[simp]
theorem matchesNew_ofMatches : (ofMatches isOld isNew).matchesNew = isNew := by
  cases isOld <;> cases isNew <;> rfl

@[simp]
theorem ofMatches_ne_absent : ofMatches isOld isNew ≠ absent := by
  cases isOld <;> cases isNew <;> decide

@[simp]
theorem ofMatches_ne_unobserved : ofMatches isOld isNew ≠ unobserved := by
  cases isOld <;> cases isNew <;> decide

@[simp]
theorem ofMatches_ne_unsealed : ofMatches isOld isNew ≠ unsealed := by
  cases isOld <;> cases isNew <;> decide

end

end ReplacementCarrier

structure ReplacementTopology where
  proofsEqual : Bool
  stage : ReplacementCarrier
  target : ReplacementCarrier
  park : ReplacementCarrier
  deriving DecidableEq, Fintype

def ReplacementTopology.fromRecord (host : Host) (record : RecoveryRecord)
    (stage target park : ReplacementCarrier) : Option ReplacementTopology :=
  if record.validate host then
    record.old.map fun old => ⟨record.new = some old, stage, target, park⟩
  else
    none

inductive ReplacementAction where
  | advance (phase : RecoveryPhase)
  | removeStage
  | parkTarget
  | publishStage
  | restorePark
  | removePark
  | noEffect
  | applied

/-- `classify_replacement` once it has built the topology. -/
def ReplacementTopology.action (topology : ReplacementTopology) (phase : RecoveryPhase) :
    Option ReplacementAction :=
  if topology.stage = .unobserved ∨ topology.target.isObserved ≠ phase.ownsTarget ∨
      topology.park.isObserved ≠ phase.ownsPark ∨
      [topology.stage, topology.target, topology.park].any
        (fun carrier => !carrier.hasValidProofRole topology.proofsEqual) then
    none
  else
  let stageNew := topology.stage.matchesNew
  let targetOld := topology.target.matchesOld
  let targetNew := topology.target.matchesNew
  let parkOld := topology.park.matchesOld
  match phase with
  | .stagePrepared =>
    match topology.stage with
    | .unsealed => if topology.park = .absent then some .removeStage else none
    | .absent => if topology.park = .absent then some .noEffect else none
    | _ => none
  | .stageSealed =>
    if stageNew ∧ topology.park = .absent then
      if targetOld then some (.advance .replacePrepared)
      else if topology.target ∈ [.absent, .other, .new] then some (.advance .removePrepared)
      else none
    else
      none
  | .replacePrepared =>
    if stageNew ∧ targetOld ∧ topology.park = .absent then
      some .parkTarget
    else if stageNew ∧ topology.target = .absent ∧ parkOld then
      some (.advance .publishPrepared)
    else if stageNew ∧ topology.park = .absent ∧ topology.target ∈ [.absent, .other, .new] then
      some (.advance .removePrepared)
    else if topology.stage = .absent ∧ targetOld ∧ topology.park = .absent then
      some .noEffect
    else if topology.stage = .absent ∧ topology.target = .absent ∧ parkOld then
      some .restorePark
    else
      none
  | .publishPrepared =>
    if stageNew ∧ topology.target = .absent ∧ parkOld then
      some .publishStage
    else if topology.stage = .absent ∧ targetNew ∧ parkOld then
      some .removePark
    else if topology.stage = .absent ∧ targetNew ∧ topology.park = .absent then
      some (.advance .removeCommitted)
    else if stageNew ∧ targetOld ∧ topology.park = .absent then
      some (.advance .removePrepared)
    else if topology.stage = .absent ∧ topology.target = .old ∧ topology.park = .absent then
      some .noEffect
    else if topology.stage = .absent ∧ topology.target = .absent ∧ parkOld then
      some .restorePark
    else
      none
  | .removePrepared =>
    match topology.stage with
    | .new | .oldAndNew => some .removeStage
    | .absent => some .noEffect
    | _ => none
  | .removeCommitted =>
    if stageNew ∧ targetOld ∧ topology.park = .absent then
      some .parkTarget
    else if stageNew ∧ topology.target = .absent ∧ (topology.park = .absent ∨ parkOld) then
      some .publishStage
    else if topology.stage = .absent ∧ targetNew ∧ parkOld then
      some .removePark
    else if topology.stage = .absent ∧ targetNew ∧ topology.park = .absent then
      some .applied
    else
      none

def classifyReplacement (host : Host) (record : RecoveryRecord)
    (stage target park : ReplacementCarrier) : Option ReplacementAction := do
  let topology ← ReplacementTopology.fromRecord host record stage target park
  topology.action record.phase

theorem classifyReplacement_eq_some (host : Host) (record : RecoveryRecord)
    (stage target park : ReplacementCarrier) (action : ReplacementAction) :
    classifyReplacement host record stage target park = some action ↔
      record.validate host = true ∧ record.old.isSome = true ∧
        (⟨record.new = record.old, stage, target, park⟩ : ReplacementTopology).action
          record.phase = some action := by
  unfold classifyReplacement ReplacementTopology.fromRecord
  by_cases valid : record.validate host = true <;> cases record.old <;> simp [valid]

/-! ### The effect of an action -/

/-- The phases in which a replacement without effect still has its removal to prepare. -/
def RecoveryPhase.withdraws (phase : RecoveryPhase) : Bool :=
  phase = .replacePrepared ∨ phase = .publishPrepared

/-- The action ends the replay. -/
def ReplacementAction.finishes (action : ReplacementAction) (phase : RecoveryPhase) : Bool :=
  match action with
  | .noEffect => !phase.withdraws
  | .applied => true
  | _ => false

def ReplacementAction.phaseAfter (action : ReplacementAction) (phase : RecoveryPhase) :
    RecoveryPhase :=
  match action with
  | .advance next => next
  | .noEffect => if phase.withdraws then .removePrepared else phase
  | _ => phase

/-- With the removal prepared only the stage is still looked at. -/
def ReplacementTopology.withdrawn (topology : ReplacementTopology) : ReplacementTopology :=
  { topology with target := .unobserved, park := .unobserved }

/-- What is seen once the action is done. -/
def ReplacementTopology.after (topology : ReplacementTopology) :
    ReplacementAction → ReplacementTopology
  | .advance next => if next = .removePrepared then topology.withdrawn else topology
  | .removeStage => { topology with stage := .absent }
  | .parkTarget => { topology with target := .absent, park := topology.target }
  | .publishStage => { topology with stage := .absent, target := topology.stage }
  | .restorePark => { topology with target := topology.park, park := .absent }
  | .removePark => { topology with park := .absent }
  | .noEffect => topology.withdrawn
  | .applied => topology

/-- At most so many actions, each chosen for what is seen after the one before, end the replay. -/
def ReplacementTopology.settles : Nat → ReplacementTopology → RecoveryPhase → Bool
  | 0, _, _ => false
  | bound + 1, topology, phase =>
    match topology.action phase with
    | none => false
    | some action =>
      action.finishes phase || settles bound (topology.after action)
        (action.phaseAfter phase)

/-! ### What the actions rely on -/

/-- A sealed record that claims both of the destination and the park leaf. -/
def RecoveryPhase.ownsBoth (phase : RecoveryPhase) : Bool :=
  phase.ownsTarget && phase.ownsPark

/-- What an action relies on. -/
def ReplacementTopology.supports (topology : ReplacementTopology) (phase : RecoveryPhase) :
    ReplacementAction → Bool
  | .advance next =>
    phase.advances next true && phase.ownsBoth && next ≠ .stageSealed &&
      (if next = .removePrepared then topology.park = .absent else next.ownsBoth) &&
      (next ≠ .publishPrepared || topology.park.matchesOld) &&
      (next ≠ .removeCommitted || topology.target.matchesNew)
  | .removeStage =>
    if phase = .stagePrepared then topology.stage = .unsealed
    else topology.stage.matchesNew && phase = .removePrepared
  | .parkTarget => phase.ownsBoth && topology.target.matchesOld && topology.park = .absent
  | .publishStage =>
    phase.ownsBoth && topology.stage.matchesNew && topology.target = .absent &&
      (phase = .removeCommitted || topology.park.matchesOld)
  | .restorePark =>
    phase.ownsBoth && phase ≠ .removeCommitted && topology.park.matchesOld &&
      topology.target = .absent
  | .removePark => phase.ownsBoth && topology.park.matchesOld && topology.target.matchesNew
  | .noEffect =>
    topology.stage = .absent && phase ≠ .removeCommitted && phase ≠ .stageSealed &&
      (phase = .removePrepared || topology.park = .absent) &&
      (!phase.withdraws || (phase.advances .removePrepared true && phase.ownsBoth))
  | .applied =>
    phase = .removeCommitted && topology.stage = .absent && topology.target.matchesNew &&
      topology.park = .absent

abbrev maxReplacementReplayActions : Nat := 8

/--
What is seen by each accepted action: what it relies on, one of the three leaves without a file
or out of sight, and a replay that ends within the bound.
-/
theorem accepted_of_action : ∀ (topology : ReplacementTopology) (phase : RecoveryPhase),
    (topology.action phase).isSome = true →
      (topology.action phase).all (topology.supports phase) = true ∧
        (topology.stage = .absent ∨ topology.target ∈ [.absent, .unobserved] ∨
          topology.park ∈ [.absent, .unobserved]) ∧
        topology.settles maxReplacementReplayActions phase = true := by
  decide +kernel

theorem supports_of_action (topology : ReplacementTopology) (phase : RecoveryPhase)
    (action : ReplacementAction) (chosen : topology.action phase = some action) :
    topology.supports phase action = true := by
  simpa [chosen] using (accepted_of_action topology phase (by rw [chosen]; rfl)).1

/-- One of the three leaves is without a file, or out of sight. -/
theorem carriers_of_action (topology : ReplacementTopology) (phase : RecoveryPhase)
    (accepted : (topology.action phase).isSome = true) :
    topology.stage = .absent ∨ topology.target ∈ [.absent, .unobserved] ∨
      topology.park ∈ [.absent, .unobserved] :=
  (accepted_of_action topology phase accepted).2.1

/-- From whatever is accepted the actions end within the bound of the replay loop. -/
theorem settles_of_action (topology : ReplacementTopology) (phase : RecoveryPhase)
    (accepted : (topology.action phase).isSome = true) :
    topology.settles maxReplacementReplayActions phase = true :=
  (accepted_of_action topology phase accepted).2.2

/-- A committed replacement has a file to be seen. -/
theorem committed_of_action : ∀ (topology : ReplacementTopology),
    (topology.action .removeCommitted).isSome = true → topology.target.matchesOld = true ∨
      topology.target.matchesNew = true ∨ topology.park.matchesOld = true ∨
      topology.stage.matchesNew = true := by
  decide +kernel

/-- What a settling topology does next. -/
theorem settles_succ {bound : Nat} {topology : ReplacementTopology} {phase : RecoveryPhase}
    (settles : topology.settles bound phase = true) :
    ∃ earlier action, bound = earlier + 1 ∧ topology.action phase = some action ∧
      (action.finishes phase = false →
        (topology.after action).settles earlier (action.phaseAfter phase) = true) := by
  cases bound with
  | zero => cases settles
  | succ earlier =>
    unfold ReplacementTopology.settles at settles
    split at settles
    · cases settles
    · rename_i action chosen
      refine ⟨earlier, action, rfl, chosen, fun goesOn => ?_⟩
      rwa [goesOn, Bool.false_or] at settles

end Axial.Fs
