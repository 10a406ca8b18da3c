/-
This file embeds how an install of game files is settled: activation with a checkpoint,
acknowledgement and marking ready, for vanilla and loader installs, by the worker that
installs and by the recovery after it. The functions are programs whose calls reach the
database, the publication layer and the queue; what these answer is decided by the effect
of each call, and the publication layer may answer almost anything.
-/

import Axial.Install.Queue
import Axial.Library.Program

namespace Axial.Install.Publication

open Program

/-! ### Checkpoints and the publication layer -/

inductive CheckpointKind where
  | final
  | base
  | rolledBack
  deriving DecidableEq

structure PublicationCheckpoint where
  kind : CheckpointKind
  versionId : String
  evidenceId : String
  contractId : Option String

/-- What the publication layer says about the identities it gives out. -/
structure Identities where
  parsesEvidence : String → Bool
  matchesVersion : (evidenceId versionId : String) → Bool
  /-- `verify_managed_install_publication_evidence_root` -/
  rooted : String → Bool
  parsesContract : String → Bool

structure CommittedEvidence where
  versionId : String
  id : String
  contractId : Option String
  deriving DecidableEq

structure RolledBackEvidence where
  id : String
  deriving DecidableEq

inductive DurableOutcome where
  | noEffect
  | committed (evidence : CommittedEvidence)
  | rolledBack (evidence : RolledBackEvidence)
  | mismatch
  | indeterminate
  deriving DecidableEq

structure InstallReceipt where
  versionId : String

/-- A publication of a version that is not known to have happened. -/
structure PublicationRecovery where
  versionId : String
  deriving DecidableEq

inductive LoaderOrigin where
  | base
  | child
  deriving DecidableEq

/-- The same of a loader install, for its base or for the version itself. -/
structure LoaderPublicationRecovery where
  origin : LoaderOrigin
  versionId : String
  deriving DecidableEq

/-- The rest of a loader install once its base is active. -/
structure LoaderContinuation where
  versionId : String
  deriving DecidableEq

structure LoaderBaseCommit where
  baseVersionId : String
  continuation : LoaderContinuation

inductive LoaderPublicationOutcome where
  | baseCommitted (commit : LoaderBaseCommit)
  | childCommitted (receipt : InstallReceipt)

inductive DownloadError where
  | cancelled
  | publicationIndeterminate (recovery : PublicationRecovery)
  | other

inductive LoaderInstallError where
  | publicationIndeterminate (recovery : LoaderPublicationRecovery)
  | other

/-- What an inspection finds out about a receipt, or about the commit of a base. -/
inductive InspectedState where
  | noEffect
  | mismatch
  | receiptMismatch (evidence : CommittedEvidence)
  | rolledBack (evidence : RolledBackEvidence)
  | indeterminate
  | awaitingActivation (contractId evidenceId : String)

structure ReconstructionReceipt where
  versionId : String
  contractId : Option String

structure ActivatedVersion where
  versionId : String
  contractId : String

/-! ### The state of one install -/

inductive RetainedInstall where
  | retry
  | publication (recovery : PublicationRecovery)
  | loaderPublication (recovery : LoaderPublicationRecovery)
  | outcome (outcome : DurableOutcome)
  | acknowledgement (continuation : Option LoaderContinuation)
  deriving DecidableEq

inductive WorkFailure where
  | failed (error : InstallError)
  | unsettled (retained : RetainedInstall)

/-- `From<InstallError>` -/
def InstallError.into (_ : InstallError) : WorkFailure := .unsettled .retry

inductive VersionState where
  | activating
  | ready
  deriving DecidableEq

/-- A row of the table `installed_versions`. -/
structure InstalledVersion where
  contractId : String
  installId : String
  state : VersionState

inductive Phase where
  | queued
  | running
  | settlementRequired
  | settled (outcome : InstallOutcome)
  deriving DecidableEq

/-- What the queue's database holds that an install has to do with, and the work that is
retained for it in memory. -/
structure Store where
  phase : Phase
  checkpoint : Option PublicationCheckpoint
  /-- By library and version. -/
  versions : String × String → Option InstalledVersion
  retained : Option RetainedInstall

/-- An install of game files: its id, its library and what is to be installed. -/
structure NativeInstall where
  id : String
  libraryId : String
  item : InstallItem
  identities : Identities

namespace NativeInstall

variable (install : NativeInstall)

/-- The version the install is for. -/
def target : String := install.item.versionId

def isBase (versionId : String) : Bool :=
  install.item.loader.any fun loader => loader.minecraftVersion = versionId

/-- `PublicationCheckpoint::verify` -/
def verifies (checkpoint : PublicationCheckpoint) : Bool :=
  let isTarget := decide (checkpoint.versionId = install.target)
  let isBase := install.isBase checkpoint.versionId
  install.identities.parsesEvidence checkpoint.evidenceId &&
    install.identities.matchesVersion checkpoint.evidenceId checkpoint.versionId &&
    install.identities.rooted checkpoint.evidenceId &&
    (match checkpoint.kind with
      | .final => isTarget
      | .base => isBase
      | .rolledBack => isTarget || isBase) &&
    match checkpoint.kind with
      | .rolledBack => checkpoint.contractId.isNone
      | _ => checkpoint.contractId.any install.identities.parsesContract

end NativeInstall

/-! ### Calls -/

/-- Steps that may fail and change nothing that is modelled here. -/
inductive Stage where
  | inventory
  | candidates
  | recordedMetadata
  | resumeBase
  | authority

inductive Op where
  | cancelled
  | resolveLoader
  | install (versionId : String)
  | installBuild (versionId : String)
  | retryPublication (recovery : PublicationRecovery)
  | retryLoaderPublication (recovery : LoaderPublicationRecovery)
  | continueLoader (continuation : LoaderContinuation)
  | classify
  | retryOutcome
  | inspectReceipt (receipt : InstallReceipt)
  | inspectBase (commit : LoaderBaseCommit)
  | acknowledge
  | reconstruct (versionId contractId : String)
  | attempt (stage : Stage)
  | readCheckpoint
  | hasActivation
  | writeActivation (activated : ActivatedVersion) (checkpoint : PublicationCheckpoint)
  | writeCheckpoint (checkpoint : PublicationCheckpoint)
  | writeReady (checkpoint : PublicationCheckpoint)
  | complete (outcome : InstallOutcome)
  | retain (retained : RetainedInstall)
  | requeue

/-- What a call returns; where the database may fail, `none` or `false` says that it did. -/
def Op.Answer : Op → Type
  | .cancelled => Bool
  | .resolveLoader => Option InstallError
  | .install _ => Except DownloadError InstallReceipt
  | .installBuild _ => Except LoaderInstallError LoaderPublicationOutcome
  | .retryPublication _ => Except DownloadError InstallReceipt
  | .retryLoaderPublication _ => Except LoaderInstallError LoaderPublicationOutcome
  | .continueLoader _ => Except LoaderInstallError InstallReceipt
  | .classify => DurableOutcome
  | .retryOutcome => DurableOutcome
  | .inspectReceipt _ => InspectedState
  | .inspectBase _ => InspectedState
  | .acknowledge => Bool
  | .reconstruct .. => Option ReconstructionReceipt
  | .attempt _ => Bool
  | .readCheckpoint => Option (Option PublicationCheckpoint)
  | .hasActivation => Option Bool
  | .writeActivation .. => Bool
  | .writeCheckpoint _ => Bool
  | .writeReady _ => Bool
  | .complete _ => Bool
  | .retain _ => Unit
  | .requeue => Bool

abbrev Work (Value : Type) : Type := Program Op Op.Answer WorkFailure Value

inductive RecoveryAction where
  | complete
  | requeue
  | continue (continuation : LoaderContinuation)

/-! ### The functions of the queue -/

abbrev ask {Failure : Type} (op : Op) : Program Op Op.Answer Failure op.Answer := perform op

/-- Stops unless the answer is positive. -/
def orFail {Failure : Type} (failure : Failure) : Bool → Program Op Op.Answer Failure Unit
  | true => pure ()
  | false => .fail failure

def attemptIf (wanted : Prop) [Decidable wanted] (failure : WorkFailure) (stage : Stage) :
    Work Unit :=
  if wanted then do orFail failure (← ask (.attempt stage)) else pure ()

def acknowledgeIf (wanted : Prop) [Decidable wanted] (failure : WorkFailure) : Work Unit :=
  if wanted then do orFail failure (← ask .acknowledge) else pure ()

def persistActivation (activated : ActivatedVersion) (checkpoint : PublicationCheckpoint) :
    Program Op Op.Answer InstallError Unit := do
  orFail .settlementRequired (← ask (.attempt .inventory))
  if activated.versionId ≠ checkpoint.versionId ∨
      some activated.contractId ≠ checkpoint.contractId then
    .fail .settlementRequired
  else
    orFail .storage (← ask (.writeActivation activated checkpoint))

def persistCheckpoint (checkpoint : PublicationCheckpoint) :
    Program Op Op.Answer InstallError Unit := do
  orFail .storage (← ask (.writeCheckpoint checkpoint))

def markReady (checkpoint : PublicationCheckpoint) : Work Unit := do
  orFail (InstallError.into .storage) (← ask (.writeReady checkpoint))

/-- Persists the rollback and acknowledges its evidence. -/
def settleRollback (checkpoint : PublicationCheckpoint) : Work Unit := do
  (persistCheckpoint checkpoint).mapError InstallError.into
  match ← ask .acknowledge with
  | true => .fail (.failed .failed)
  | false => .fail (.unsettled (.acknowledgement none))

def classifyFailure (versionId : String) : Work Unit := do
  match ← ask .classify with
  | .noEffect => .fail (.failed .failed)
  | .rolledBack evidence => settleRollback ⟨.rolledBack, versionId, evidence.id, none⟩
  | outcome => .fail (.unsettled (.outcome outcome))

/-- `unsettled_receipt` and `unsettled_base` -/
def unsettledInspection : InspectedState → WorkFailure
  | .noEffect => .unsettled (.outcome .noEffect)
  | .mismatch => .unsettled (.outcome .mismatch)
  | .receiptMismatch evidence => .unsettled (.outcome (.committed evidence))
  | .rolledBack evidence => .unsettled (.outcome (.rolledBack evidence))
  | .indeterminate => .unsettled (.outcome .indeterminate)
  -- The callers do not come here with a verified receipt.
  | .awaitingActivation .. => .unsettled .retry

def settleReceipt (receipt : InstallReceipt) : Work Unit := do
  match ← ask (.inspectReceipt receipt) with
  | .awaitingActivation contractId evidenceId =>
    let checkpoint : PublicationCheckpoint :=
      ⟨.final, receipt.versionId, evidenceId, some contractId⟩
    (persistActivation ⟨receipt.versionId, contractId⟩ checkpoint).mapError fun _ =>
      InstallError.into .storage
    match ← ask .acknowledge with
    | true => markReady checkpoint
    | false => .fail (.unsettled (.acknowledgement none))
  | state => .fail (unsettledInspection state)

/-- What follows on the continuation of a loader install. -/
def settleContinuation (versionId : String) :
    Except LoaderInstallError InstallReceipt → Work Unit
  | .ok receipt => settleReceipt receipt
  | .error (.publicationIndeterminate recovery) => .fail (.unsettled (.loaderPublication recovery))
  | .error .other => classifyFailure versionId

def settleLoader (versionId : String) : LoaderPublicationOutcome → Work Unit
  | .childCommitted receipt => settleReceipt receipt
  | .baseCommitted commit => do
    match ← ask (.inspectBase commit) with
    | .awaitingActivation contractId evidenceId =>
      let checkpoint : PublicationCheckpoint :=
        ⟨.base, commit.baseVersionId, evidenceId, some contractId⟩
      orFail (InstallError.into .storage) (← ask (.attempt .authority))
      (persistActivation ⟨commit.baseVersionId, contractId⟩ checkpoint).mapError fun _ =>
        InstallError.into .storage
      match ← ask .acknowledge with
      | true =>
        markReady checkpoint
        settleContinuation versionId (← ask (.continueLoader commit.continuation))
      | false => .fail (.unsettled (.acknowledgement (some commit.continuation)))
    | state => .fail (unsettledInspection state)

namespace NativeInstall

variable (install : NativeInstall)

/-- The checkpoint of the install, if it can be read and verified. -/
def readCheckpoint : Program Op Op.Answer InstallError (Option PublicationCheckpoint) := do
  match ← ask .readCheckpoint with
  | none => .fail .storage
  | some none => pure none
  | some (some checkpoint) =>
    if install.verifies checkpoint then pure (some checkpoint) else .fail .settlementRequired

/-- The first half of `recover_publication`: what became of the publication. Where retained
work settles it, the recovery is through. -/
def recoverRetained (checkpoint : Option PublicationCheckpoint) :
    Option RetainedInstall → Work (RecoveryAction ⊕ DurableOutcome)
  | some (.publication recovery) => do
    match ← ask (.retryPublication recovery) with
    | .ok receipt => settleReceipt receipt
    | .error (.publicationIndeterminate recovery) => .fail (.unsettled (.publication recovery))
    | .error _ => classifyFailure install.target
    pure (.inl .complete)
  | some (.loaderPublication recovery) => do
    match ← ask (.retryLoaderPublication recovery) with
    | .ok outcome => settleLoader install.target outcome
    | .error (.publicationIndeterminate recovery) =>
      .fail (.unsettled (.loaderPublication recovery))
    | .error .other => classifyFailure install.target
    pure (.inl .complete)
  | some (.acknowledgement continuation) => do
    match ← ask .acknowledge, continuation with
    | false, continuation => .fail (.unsettled (.acknowledgement continuation))
    | true, none => pure (.inr .noEffect)
    | true, some continuation =>
      match checkpoint with
      | none => .fail (InstallError.into .settlementRequired)
      | some checkpoint =>
        markReady checkpoint
        pure (.inl (.continue continuation))
  | some (.outcome .indeterminate) => do pure (.inr (← ask .retryOutcome))
  | some (.outcome (.committed evidence)) => pure (.inr (.committed evidence))
  | some (.outcome (.rolledBack evidence)) => pure (.inr (.rolledBack evidence))
  | _ => do
    orFail (InstallError.into .invalidRequest) (← ask (.attempt .candidates))
    pure (.inr (← ask .classify))

/-- Whether evidence of a commit may take the place of a checkpoint. -/
def supersedes (observed previous : PublicationCheckpoint) : Bool :=
  (previous.kind = .base && observed.kind = .final) ||
    (previous.kind = observed.kind && previous.evidenceId = observed.evidenceId &&
      previous.contractId = observed.contractId)

/-- Whether evidence of a rollback may take the place of a checkpoint. -/
def rollsBack (evidence : RolledBackEvidence) (previous : PublicationCheckpoint) : Bool :=
  (previous.kind = .base && install.identities.matchesVersion evidence.id install.target) ||
    (previous.kind = .rolledBack && previous.evidenceId = evidence.id)

def rolledBackVersion (evidence : RolledBackEvidence) : Option String :=
  if install.identities.matchesVersion evidence.id install.target then some install.target
  else install.item.loader.map (·.minecraftVersion)

def committedKind (evidence : CommittedEvidence) : Option CheckpointKind :=
  if evidence.versionId = install.target then some .final
  else if install.isBase evidence.versionId then some .base
  else none

/-- The middle of `recover_publication`: the checkpoint that the outcome stands for. -/
def resolveOutcome (checkpoint : Option PublicationCheckpoint) :
    DurableOutcome → Work (RecoveryAction ⊕ PublicationCheckpoint × Option CommittedEvidence)
  | .noEffect =>
    match checkpoint with
    | some checkpoint =>
      if checkpoint.kind = .rolledBack then .fail (.failed .failed)
      else pure (.inr (checkpoint, none))
    | none => do
      match ← ask .hasActivation with
      | none => .fail (InstallError.into .storage)
      | some true => .fail (InstallError.into .settlementRequired)
      | some false => pure (.inl .requeue)
  | .committed evidence =>
    match install.committedKind evidence with
    | none => .fail (.unsettled (.outcome (.committed evidence)))
    | some kind =>
      let observed : PublicationCheckpoint :=
        ⟨kind, evidence.versionId, evidence.id, evidence.contractId⟩
      if install.verifies observed ∧ checkpoint.all (supersedes observed) then
        pure (.inr (observed, some evidence))
      else .fail (.unsettled (.outcome (.committed evidence)))
  | .rolledBack evidence =>
    if checkpoint.all (install.rollsBack evidence) then
      match install.rolledBackVersion evidence with
      | none => .fail (InstallError.into .settlementRequired)
      | some versionId =>
        let checkpoint : PublicationCheckpoint := ⟨.rolledBack, versionId, evidence.id, none⟩
        if install.verifies checkpoint then do
          settleRollback checkpoint
          -- A settled rollback has failed the install.
          .fail (.failed .failed)
        else .fail (InstallError.into .settlementRequired)
    else .fail (.unsettled (.outcome (.rolledBack evidence)))
  | outcome => .fail (.unsettled (.outcome outcome))

/-- What is retained of an activation that did not come about. -/
def unactivated : Option CommittedEvidence → WorkFailure
  | some evidence => .unsettled (.outcome (.committed evidence))
  | none => .unsettled .retry

/-- The contract that a reconstruction is to have: that of the evidence, if there is any. -/
def expectedContract (contract : String) : Option CommittedEvidence → Option String
  | some evidence => evidence.contractId
  | none => some contract

/-- The last part of `recover_publication`: activates once more what the checkpoint says. -/
def reactivate (checkpoint : PublicationCheckpoint) (evidence : Option CommittedEvidence) :
    Work RecoveryAction := do
  match checkpoint.contractId.filter install.identities.parsesContract with
  | none => .fail (unactivated evidence)
  | some contract =>
    orFail (unactivated evidence) (← ask (.attempt .recordedMetadata))
    match ← ask (.reconstruct checkpoint.versionId contract) with
    | none => .fail (unactivated evidence)
    | some receipt =>
      attemptIf (checkpoint.kind = .base) (unactivated evidence) .resumeBase
      match receipt.contractId with
      | none => .fail (unactivated evidence)
      | some observed =>
        if expectedContract contract evidence ≠ some observed then .fail (unactivated evidence)
        else
          attemptIf (checkpoint.kind = .base) (InstallError.into .storage) .authority
          (persistActivation ⟨receipt.versionId, observed⟩ checkpoint).mapError fun _ =>
            InstallError.into .storage
          let continuation : Option LoaderContinuation :=
            if checkpoint.kind = .base then some ⟨install.target⟩ else none
          acknowledgeIf evidence.isSome (.unsettled (.acknowledgement continuation))
          markReady checkpoint
          match continuation with
          | some continuation => pure (.continue continuation)
          | none => pure .complete

def recoverPublication (retained : Option RetainedInstall) : Work RecoveryAction := do
  let checkpoint ← install.readCheckpoint.mapError fun _ => .unsettled (retained.getD .retry)
  match ← install.recoverRetained checkpoint retained with
  | .inl action => pure action
  | .inr outcome =>
    match ← install.resolveOutcome checkpoint outcome with
    | .inl action => pure action
    | .inr (checkpoint, evidence) => install.reactivate checkpoint evidence

/-! ### The tasks -/

/-- An install that cannot be completed is retained. -/
def completeOrRetain (outcome : InstallOutcome) : Program Op Op.Answer InstallError Unit := do
  match ← ask (.complete outcome) with
  | true => pure ()
  | false => ask (.retain .retry)

/-- What a task does with what settling comes to. -/
def conclude (failed : InstallError → InstallOutcome) :
    Except WorkFailure Unit → Program Op Op.Answer InstallError Unit
  | .ok () => completeOrRetain .succeeded
  | .error (.failed error) => completeOrRetain (failed error)
  | .error (.unsettled retained) => ask (.retain retained)

/-- A vanilla install up to its end. -/
def runVanilla : Work Unit := do
  match ← ask (.install install.target) with
  | .ok receipt => settleReceipt receipt
  | .error .cancelled => .fail (.failed .cancelled)
  | .error (.publicationIndeterminate recovery) => .fail (.unsettled (.publication recovery))
  | .error .other => classifyFailure install.target

/-- A loader install up to its end. -/
def runLoader : Work Unit := do
  match ← ask .resolveLoader with
  | some error => .fail (.failed error)
  | none =>
    match ← ask (.installBuild install.target) with
    | .ok outcome => settleLoader install.target outcome
    | .error (.publicationIndeterminate recovery) =>
      .fail (.unsettled (.loaderPublication recovery))
    | .error .other => classifyFailure install.target

/-- The worker of an install that has been started. -/
def run : Program Op Op.Answer InstallError Unit := do
  match ← ask .cancelled with
  | true => completeOrRetain .cancelled
  | false =>
    (if install.item.loader.isSome then install.runLoader else install.runVanilla).handle
      (conclude fun error => if error = .cancelled then .cancelled else .failed)

/-- The recovery task of `recover_interrupted_with`, with the work that was retained. -/
def recover (retained : Option RetainedInstall) : Program Op Op.Answer InstallError Unit :=
  (install.recoverPublication retained).handle fun
    | .ok .complete => conclude (fun _ => .failed) (.ok ())
    | .ok .requeue => do orFail .storage (← ask .requeue)
    | .ok (.continue continuation) => do
      let result ← ask (.continueLoader continuation)
      (settleContinuation install.target result).handle (conclude fun _ => .failed)
    | .error failure => conclude (fun _ => .failed) (.error failure)

end NativeInstall

end Axial.Install.Publication
