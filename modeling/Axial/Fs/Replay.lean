/-
This file models the replay of an interrupted replacement in
`recovery_runtime.rs`: what a replay sees of the stage, target and park leaves
when it plans, the effect of each action on the files and on the durable phase,
the loop of `replay_replacement`, and the runs of that loop with a crash and a
new start between any two of its actions.

Directories, handles and the other records of the lane are left out, and so is
the exclusive authority over a file, which every file of a replacement is opened
with.
-/

import Axial.Fs.Replacement
import Axial.Library.Runs

namespace Axial.Fs

open Relation Function List Option

/-! ### Files -/

inductive ReplayCoordinate where
  | stage
  | target
  | park
  deriving DecidableEq

instance : Fintype ReplayCoordinate where
  elems := {.stage, .target, .park}
  complete coordinate := by cases coordinate <;> decide

/-- What the three leaves of a replacement hold. -/
abbrev ReplacementDisk := ReplayCoordinate → Option (List UInt8)

def ReplacementDisk.renameNoReplace (disk : ReplacementDisk)
    (source destination : ReplayCoordinate) : Option ReplacementDisk :=
  match disk source, disk destination with
  | some content, none =>
    some (update (update disk source none) destination (some content))
  | _, _ => none

def ReplacementDisk.remove (disk : ReplacementDisk) (coordinate : ReplayCoordinate) :
    Option ReplacementDisk :=
  if (disk coordinate).isSome then some (update disk coordinate none) else none

def proveFile (host : Host) (content : List UInt8) : Option RecoveryFileProof :=
  if content.length ≤ maxRecoverableFileBytes then
    some ⟨.ofNat content.length, host.sha256 content⟩
  else
    none

/-! ### Plans -/

inductive ObservedEntry where
  | absent
  | file (proof : Option RecoveryFileProof)
  | unowned
  | unownedOccupied

structure ReplayPlan where
  record : RecoveryRecord
  entry : ReplayCoordinate → ObservedEntry

def projectedNames (record : RecoveryRecord) : ReplayCoordinate → Option RecoveryName
  | .stage => some (recoveryStageLeaf record.operationId)
  | .target => if record.phase.ownsTarget then some record.destinationLeaf else none
  | .park =>
    if record.old.isSome ∧ record.phase.ownsPark then
      some (recoveryParkLeaf record.operationId)
    else
      none

/-- Which files are proven when a replay plans. -/
def proofProjection (record : RecoveryRecord) : ReplayCoordinate → Bool
  | .target => true
  | .stage | .park => record.phase ≠ .stagePrepared

/-- What is planned with at a leaf that holds `content`. -/
def openObserved (host : Host) (record : RecoveryRecord) (coordinate : ReplayCoordinate)
    (content : Option (List UInt8)) : ObservedEntry :=
  if (projectedNames record coordinate).isNone then .unowned else
  match content with
  | none => .absent
  | some content =>
    .file (if proofProjection record coordinate then proveFile host content else none)

def carrier (entry : ObservedEntry) (unsealed : Bool) (record : RecoveryRecord) :
    ReplacementCarrier :=
  match entry with
  | .unowned => .unobserved
  | .absent => .absent
  | .unownedOccupied => .other
  | .file proof =>
    if unsealed then .unsealed else
    .ofMatches (record.old.any fun old => proof = some old)
      (record.new.any fun new => proof = some new)

def replacementAction (host : Host) (plan : ReplayPlan) : Option ReplacementAction :=
  classifyReplacement host plan.record
    (carrier (plan.entry .stage) (plan.record.phase = .stagePrepared) plan.record)
    (carrier (plan.entry .target) false plan.record)
    (carrier (plan.entry .park) false plan.record)

/-- What is found at a leaf the record projects. -/
def projectedFile (record : RecoveryRecord) (disk : ReplacementDisk)
    (coordinate : ReplayCoordinate) : Option (List UInt8) :=
  if (projectedNames record coordinate).isSome then disk coordinate else none

/-- `plan_replay_records` for one record, which is to replace a file. -/
def planReplayRecord (host : Host) (record : RecoveryRecord) (disk : ReplacementDisk) :
    Option ReplayPlan :=
  let coordinates : List ReplayCoordinate := [.stage, .target, .park]
  if record.old.isSome ∧ coordinates.countP (fun coordinate =>
      (projectedFile record disk coordinate).isSome) > 2 then
    none
  else if coordinates.any fun coordinate => (projectedFile record disk coordinate).any fun content =>
      content.length > maxRecoverableFileBytes then
    none
  else
    let plan : ReplayPlan :=
      ⟨record, fun coordinate => openObserved host record coordinate (disk coordinate)⟩
    if (replacementAction host plan).isSome then some plan else none

/-! ### Actions -/

/-- A replay of the records of the lane itself, or of those a state successor took over. -/
inductive ReplayMode where
  | selected
  | successor
  deriving DecidableEq

/-- What a crash leaves: the record a replay would plan with, if any, and the files. -/
structure ReplayMedia where
  record : Option RecoveryRecord
  disk : ReplacementDisk

/-- What one turn of the loop comes to. -/
inductive ReplayTurn where
  | again (media : ReplayMedia) (plan : ReplayPlan)
  | finished (media : ReplayMedia)

/-- The journal takes the advance of its record, and the plan follows. -/
def advanceReplayPhase (host : Host) (media : ReplayMedia) (plan : ReplayPlan)
    (phase : RecoveryPhase) : Option ReplayTurn :=
  let intended := { plan.record with phase := phase }
  if intended.validate host ∧ advancesRecord media.record (some intended) then
    some (.again { media with record := some intended }
      ⟨intended, fun coordinate =>
        if phase = .removePrepared ∧ coordinate ≠ .stage then .unowned
        else plan.entry coordinate⟩)
  else
    none

/-- The file of a plan is still as it was proven. -/
def revalidate (proof expected : Option RecoveryFileProof) : Bool :=
  expected.all fun expected => proof = some expected

def renameReplayFile (media : ReplayMedia) (plan : ReplayPlan)
    (source destination : ReplayCoordinate) (expected : Option RecoveryFileProof) :
    Option ReplayTurn :=
  match plan.entry source, plan.entry destination with
  | .file proof, .absent =>
    if revalidate proof expected then
      (media.disk.renameNoReplace source destination).map fun disk =>
        .again { media with disk := disk }
          ⟨plan.record, update (update plan.entry source .absent) destination
            (.file proof)⟩
    else
      none
  | _, _ => none

def removeReplayFile (media : ReplayMedia) (plan : ReplayPlan) (coordinate : ReplayCoordinate)
    (expected : Option RecoveryFileProof) : Option ReplayTurn :=
  match plan.entry coordinate with
  | .file proof =>
    if revalidate proof expected then
      (media.disk.remove coordinate).map fun disk =>
        .again { media with disk := disk }
          ⟨plan.record, update plan.entry coordinate .absent⟩
    else
      none
  | _ => none

def publishReplayStage (media : ReplayMedia) (plan : ReplayPlan) : Option ReplayTurn :=
  renameReplayFile media plan .stage .target plan.record.new

section Setting

variable (host : Host) (unix : Bool) (mode : ReplayMode)

/-- `retire_replay_record`. A successor's record is planned with for as long as the successor
lives, also once the slot it came from is clear. -/
def retireReplayRecord (media : ReplayMedia) : Option ReplayTurn :=
  match media.record with
  | none => some (.finished media)
  | some record =>
    if mode = .successor ∨ unix = false then some (.finished media)
    else if advancesRecord (some record) none then some (.finished { media with record := none })
    else none

def performReplayAction (media : ReplayMedia) (plan : ReplayPlan) :
    ReplacementAction → Option ReplayTurn
  | .advance phase =>
    if mode = .successor ∨ phase = .stagePrepared ∨ phase = .stageSealed then
      none
    else if phase = .publishPrepared then
      match plan.entry .park with
      | .file _ => advanceReplayPhase host media plan phase
      | _ => none
    else
      advanceReplayPhase host media plan phase
  | .removeStage =>
    removeReplayFile media plan .stage
      (if plan.record.phase ≠ .stagePrepared then plan.record.new else none)
  | .parkTarget => do
    let expected ← plan.record.old
    renameReplayFile media plan .target .park (some expected)
  | .publishStage => publishReplayStage media plan
  | .restorePark => do
    let expected ← plan.record.old
    renameReplayFile media plan .park .target (some expected)
  | .removePark => removeReplayFile media plan .park plan.record.old
  | .noEffect =>
    if plan.record.phase = .replacePrepared ∨ plan.record.phase = .publishPrepared then
      advanceReplayPhase host media plan .removePrepared
    else
      retireReplayRecord unix mode media
  | .applied => retireReplayRecord unix mode media

/-! ### Runs -/

/-- Where the replay of a record stands. `remaining` counts the turns its loop has left. -/
inductive ReplayProcess where
  | replaying (remaining : Nat) (plan : ReplayPlan)
  | returned
  | refused

structure ReplayState where
  media : ReplayMedia
  process : ReplayProcess

/-- A new process plans with what the media hold. -/
def ReplayState.restart (state : ReplayState) : ReplayState where
  media := state.media
  process :=
    match state.media.record with
    | none => .returned
    | some record =>
      match planReplayRecord host record state.media.disk with
      | none => .refused
      | some plan => .replaying maxReplacementReplayActions plan

/-- One turn of the loop of `replay_replacement`. -/
def ReplayState.turn (state : ReplayState) : ReplayState :=
  match state.process with
  | .replaying (remaining + 1) plan =>
    match (replacementAction host plan).bind
        (performReplayAction host unix mode state.media plan) with
    | none => ⟨state.media, .refused⟩
    | some (.again media plan) => ⟨media, .replaying remaining plan⟩
    | some (.finished media) => ⟨media, .returned⟩
  | .replaying 0 _ => ⟨state.media, .refused⟩
  | _ => state

/-- The next turn of the loop, or a crash and a new start. -/
def ReplayState.Steps (before after : ReplayState) : Prop :=
  after = before.turn host unix mode ∨ after = before.restart host

end Setting

/-! ### What a plan sees -/

def ReplayPlan.topology (plan : ReplayPlan) : ReplacementTopology where
  proofsEqual := plan.record.new = plan.record.old
  stage := carrier (plan.entry .stage) (plan.record.phase = .stagePrepared) plan.record
  target := carrier (plan.entry .target) false plan.record
  park := carrier (plan.entry .park) false plan.record

section

variable (entry : ObservedEntry) (unsealed : Bool) (record : RecoveryRecord)

include entry unsealed record

theorem carrier_eq_absent : carrier entry unsealed record = .absent ↔ entry = .absent := by
  cases entry <;> cases unsealed <;> simp [carrier]

theorem carrier_eq_unobserved : carrier entry unsealed record = .unobserved ↔ entry = .unowned := by
  cases entry <;> cases unsealed <;> simp [carrier]

theorem carrier_eq_unsealed :
    carrier entry unsealed record = .unsealed ↔
      unsealed = true ∧ ∃ proof, entry = .file proof := by
  cases entry <;> cases unsealed <;> simp [carrier]

theorem carrier_matchesOld :
    (carrier entry unsealed record).matchesOld = true ↔
      unsealed = false ∧ ∃ old, record.old = some old ∧ entry = .file (some old) := by
  cases entry with
  | file proof =>
    cases unsealed with
    | false =>
      show (ReplacementCarrier.ofMatches _ _).matchesOld = true ↔ _
      simp [Option.any_eq_true]
    | true => simp [carrier, ReplacementCarrier.matchesOld]
  | _ => simp [carrier, ReplacementCarrier.matchesOld]

theorem carrier_matchesNew :
    (carrier entry unsealed record).matchesNew = true ↔
      unsealed = false ∧ ∃ new, record.new = some new ∧ entry = .file (some new) := by
  cases entry with
  | file proof =>
    cases unsealed with
    | false =>
      show (ReplacementCarrier.ofMatches _ _).matchesNew = true ↔ _
      simp [Option.any_eq_true]
    | true => simp [carrier, ReplacementCarrier.matchesNew]
  | _ => simp [carrier, ReplacementCarrier.matchesNew]

end

theorem replacementAction_eq_some (host : Host) (plan : ReplayPlan)
    (action : ReplacementAction) :
    replacementAction host plan = some action ↔ plan.record.validate host = true ∧
      plan.record.old.isSome = true ∧ plan.topology.action plan.record.phase = some action :=
  classifyReplacement_eq_some ..

/-! ### Plans in step with the media -/

section

variable (host : Host) (record : RecoveryRecord) (coordinate : ReplayCoordinate)
  (content : Option (List UInt8))

include host record coordinate content

theorem openObserved_eq_absent :
    openObserved host record coordinate content = .absent ↔
      (projectedNames record coordinate).isSome = true ∧ content = none := by
  unfold openObserved
  cases projectedNames record coordinate <;> cases content <;> simp

theorem openObserved_eq_unowned :
    openObserved host record coordinate content = .unowned ↔
      (projectedNames record coordinate).isSome = false := by
  unfold openObserved
  cases projectedNames record coordinate <;> cases content <;> simp

theorem openObserved_eq_file (proof : Option RecoveryFileProof) :
    openObserved host record coordinate content = .file proof ↔
      (projectedNames record coordinate).isSome = true ∧ ∃ bytes, content = some bytes ∧
        (if proofProjection record coordinate then proveFile host bytes else none) = proof := by
  unfold openObserved
  cases projectedNames record coordinate <;> cases content <;> simp

end

/-- The plan is the one the media would be planned with. -/
structure Observes (host : Host) (media : ReplayMedia) (plan : ReplayPlan) : Prop where
  durable : media.record = some plan.record
  entries : ∀ coordinate, plan.entry coordinate =
    openObserved host plan.record coordinate (media.disk coordinate)
  valid : plan.record.validate host = true
  replaces : plan.record.old.isSome = true
  recoverable : ∀ coordinate content,
    projectedFile plan.record media.disk coordinate = some content →
      content.length ≤ maxRecoverableFileBytes

variable {plan : ReplayPlan} {media : ReplayMedia}

theorem projectedFile_of_absent {host : Host} (observes : Observes host media plan)
    {coordinate : ReplayCoordinate}
    (unseen : plan.entry coordinate = .absent ∨ plan.entry coordinate = .unowned) :
    projectedFile plan.record media.disk coordinate = none := by
  rw [observes.entries coordinate, openObserved_eq_absent, openObserved_eq_unowned] at unseen
  unfold projectedFile
  rcases unseen with ⟨_, nothing⟩ | hidden
  · rw [nothing, ite_self]
  · rw [hidden]
    rfl

/-- Planning again gives the plan back. -/
theorem Observes.planReplayRecord {host : Host} (observes : Observes host media plan)
    (accepted : (replacementAction host plan).isSome = true) :
    Axial.Fs.planReplayRecord host plan.record media.disk = some plan := by
  obtain ⟨action, chosen⟩ := isSome_iff_exists.mp accepted
  have classified := ((replacementAction_eq_some ..).mp chosen).2.2
  have missing : ∃ coordinate, projectedFile plan.record media.disk coordinate = none := by
    rcases carriers_of_action _ _ (isSome_of_eq_some classified) with stage | rest | rest
    · exact ⟨.stage, projectedFile_of_absent observes (.inl ((carrier_eq_absent ..).mp stage))⟩
    · rcases mem_pair.mp rest with gone | hidden
      · exact ⟨.target, projectedFile_of_absent observes (.inl ((carrier_eq_absent ..).mp gone))⟩
      · exact ⟨.target,
          projectedFile_of_absent observes (.inr ((carrier_eq_unobserved ..).mp hidden))⟩
    · rcases mem_pair.mp rest with gone | hidden
      · exact ⟨.park, projectedFile_of_absent observes (.inl ((carrier_eq_absent ..).mp gone))⟩
      · exact ⟨.park,
          projectedFile_of_absent observes (.inr ((carrier_eq_unobserved ..).mp hidden))⟩
  have same : plan = ⟨plan.record, fun coordinate =>
      openObserved host plan.record coordinate (media.disk coordinate)⟩ := by
    cases plan
    congr
    funext coordinate
    exact observes.entries coordinate
  unfold Axial.Fs.planReplayRecord
  rw [if_neg, if_neg, ← same, if_pos accepted]
  · simp only [any_cons, any_nil, Bool.or_false, Bool.or_eq_true, Option.any_eq_true,
      decide_eq_true_eq, not_or, not_exists, not_and, not_lt]
    exact ⟨observes.recoverable .stage, observes.recoverable .target, observes.recoverable .park⟩
  · rintro ⟨_, many⟩
    obtain ⟨coordinate, nothing⟩ := missing
    simp only [countP_cons, countP_nil] at many
    cases coordinate <;> rw [nothing] at many <;> simp only [isSome_none] at many <;>
      split_ifs at many <;> omega

theorem observes_of_planReplayRecord {host : Host} {record : RecoveryRecord}
    {disk : ReplacementDisk} (planned : planReplayRecord host record disk = some plan) :
    plan.record = record ∧ Observes host ⟨some record, disk⟩ plan ∧
      (replacementAction host plan).isSome = true := by
  unfold planReplayRecord at planned
  dsimp only at planned
  split_ifs at planned with _ small accepted
  cases planned
  obtain ⟨action, chosen⟩ := isSome_iff_exists.mp accepted
  obtain ⟨valid, replaces, _⟩ := (replacementAction_eq_some ..).mp chosen
  refine ⟨rfl, ⟨rfl, fun _ => rfl, valid, replaces, ?_⟩, accepted⟩
  simp only [any_cons, any_nil, Bool.or_false, Bool.or_eq_true, Option.any_eq_true,
    decide_eq_true_eq, not_or, not_exists, not_and, not_lt] at small
  obtain ⟨stage, target, park⟩ := small
  intro coordinate
  cases coordinate with
  | stage => exact stage
  | target => exact target
  | park => exact park

/-! ### The effect of an action on the files -/

def ReplacementDisk.moved (disk : ReplacementDisk) (source destination : ReplayCoordinate) :
    ReplacementDisk :=
  update (update disk source none) destination (disk source)

def ReplacementAction.effect (disk : ReplacementDisk) : ReplacementAction → ReplacementDisk
  | .removeStage => update disk .stage none
  | .parkTarget => disk.moved .target .park
  | .publishStage => disk.moved .stage .target
  | .restorePark => disk.moved .park .target
  | .removePark => update disk .park none
  | .advance _ | .noEffect | .applied => disk

/-- A sealed file is proven wherever it is seen. -/
theorem openObserved_sealed {host : Host} {record : RecoveryRecord}
    (sealedPhase : record.phase ≠ .stagePrepared) {coordinate : ReplayCoordinate}
    (projected : (projectedNames record coordinate).isSome = true)
    (content : Option (List UInt8)) :
    openObserved host record coordinate content =
      content.elim .absent fun bytes => .file (proveFile host bytes) := by
  have proven : proofProjection record coordinate = true := by
    cases coordinate <;> simp [proofProjection, sealedPhase]
  unfold openObserved
  rw [if_neg (by rw [isNone_iff_eq_none, ← not_isSome_iff_eq_none, projected]
                 simp)]
  cases content with
  | none => rfl
  | some bytes => rw [proven]; rfl

theorem observes_rename {host : Host} (observes : Observes host media plan)
    (sealedPhase : plan.record.phase ≠ .stagePrepared) {source destination : ReplayCoordinate}
    {proof expected : Option RecoveryFileProof} (found : plan.entry source = .file proof)
    (free : plan.entry destination = .absent) (kept : revalidate proof expected = true) :
    ∃ after, renameReplayFile media plan source destination expected =
        some (.again ⟨media.record, media.disk.moved source destination⟩ after) ∧
      after = ⟨plan.record, update (update plan.entry source .absent)
        destination (plan.entry source)⟩ ∧
      Observes host ⟨media.record, media.disk.moved source destination⟩ after := by
  obtain ⟨projected, bytes, held, proven⟩ :=
    (openObserved_eq_file ..).mp ((observes.entries source).symm.trans found)
  obtain ⟨projectedToo, nothing⟩ :=
    (openObserved_eq_absent ..).mp ((observes.entries destination).symm.trans free)
  refine ⟨_, ?_, rfl, ?_⟩
  · unfold renameReplayFile
    simp only [found, free, kept, if_true, ReplacementDisk.renameNoReplace, held, nothing,
      map_some, ReplacementDisk.moved]
  · refine ⟨observes.durable, fun coordinate => ?_, observes.valid, observes.replaces, ?_⟩
    · show update (update plan.entry source .absent) destination
          (plan.entry source) coordinate = openObserved host plan.record coordinate
            (update (update media.disk source none) destination
              (media.disk source) coordinate)
      by_cases arrived : coordinate = destination
      · rw [arrived, update_self, update_self, observes.entries source,
          openObserved_sealed sealedPhase projected, openObserved_sealed sealedPhase projectedToo]
      · rw [update_of_ne arrived, update_of_ne arrived]
        by_cases left : coordinate = source
        · rw [left, update_self, update_self,
            openObserved_sealed sealedPhase projected]
          rfl
        · rw [update_of_ne left, update_of_ne left, observes.entries]
    · intro coordinate content there
      by_cases arrived : coordinate = destination
      · refine observes.recoverable source content ?_
        unfold projectedFile at there ⊢
        rw [arrived, if_pos projectedToo] at there
        rw [if_pos projected]
        simpa only [ReplacementDisk.moved, update_self] using there
      · refine observes.recoverable coordinate content ?_
        unfold projectedFile at there ⊢
        simp only [ReplacementDisk.moved, update_of_ne arrived] at there
        by_cases left : coordinate = source
        · rw [left, update_self, ite_self] at there
          cases there
        · rwa [update_of_ne left] at there

theorem observes_remove {host : Host} {media : ReplayMedia} {plan : ReplayPlan}
    (observes : Observes host media plan) {coordinate : ReplayCoordinate}
    {proof expected : Option RecoveryFileProof} (found : plan.entry coordinate = .file proof)
    (kept : revalidate proof expected = true) :
    ∃ after, removeReplayFile media plan coordinate expected =
        some (.again ⟨media.record, update media.disk coordinate none⟩ after) ∧
      after = ⟨plan.record, update plan.entry coordinate .absent⟩ ∧
      Observes host ⟨media.record, update media.disk coordinate none⟩ after := by
  obtain ⟨projected, bytes, held, _⟩ :=
    (openObserved_eq_file ..).mp ((observes.entries coordinate).symm.trans found)
  refine ⟨_, ?_, rfl, ?_⟩
  · unfold removeReplayFile
    simp only [found, kept, if_true, ReplacementDisk.remove, held, isSome_some,
      map_some]
  · refine ⟨observes.durable, fun other => ?_, observes.valid, observes.replaces, ?_⟩
    · show update plan.entry coordinate .absent other = openObserved host plan.record
          other (update media.disk coordinate none other)
      by_cases same : other = coordinate
      · rw [same, update_self, update_self]
        exact ((openObserved_eq_absent ..).mpr ⟨projected, rfl⟩).symm
      · rw [update_of_ne same, update_of_ne same, observes.entries]
    · intro other content there
      refine observes.recoverable other content ?_
      unfold projectedFile at there ⊢
      by_cases same : other = coordinate
      · rw [same] at there
        simp only [update_self, ite_self, reduceCtorEq] at there
      · simpa only [update_of_ne same] using there

end Axial.Fs
