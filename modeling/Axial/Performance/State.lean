/-
This file models the durable state of a composition and its rollback snapshots, as
`core/performance/src/state/mod.rs` validates them, with the part of the validation that
is in `core/performance/src/install/plan.rs`; and how `core/performance/src/install/artifact.rs`
builds the state of a sealed plan, and a snapshot is built of a state.
-/

import Axial.Performance.InstallPlan

namespace Axial.Performance

open Bytes Fallible
open Axial.Minecraft (PortablePathKey trim)

/-! ### Data -/

abbrev stateMaxInstalledMods : Nat := 256
abbrev stateTokenMaxChars : Nat := 256
abbrev stateTimestampMaxChars : Nat := 64
abbrev rollbackSchemaVersion : Int := 4
abbrev rollbackSnapshotIdMaxBytes : Nat := 96

inductive ManagedArtifactProvider where
  | modrinth
  deriving DecidableEq

structure ManagedArtifactSource where
  provider : ManagedArtifactProvider
  deriving DecidableEq

structure ManagedArtifactIntegrity where
  sha512 : String
  deriving DecidableEq

structure InstalledMod where
  projectId : String
  versionId : String
  filename : String
  role : ManagedArtifactRole
  size : Nat
  ownershipClass : OwnershipClass
  source : ManagedArtifactSource
  integrity : ManagedArtifactIntegrity
  deriving DecidableEq

structure CompositionState where
  compositionId : String
  family : VersionFamily
  tier : CompositionTier
  gameVersion : String
  loader : String
  graphSha512 : String
  dependencyEdges : List ManagedDependencyEdge
  installedMods : List InstalledMod
  installedAt : String
  deriving DecidableEq

inductive RollbackSnapshotState where
  | managedStateAbsent
  | managedComposition (state : CompositionState)
  deriving DecidableEq

def RollbackSnapshotState.state : RollbackSnapshotState → Option CompositionState
  | managedStateAbsent => none
  | managedComposition state => some state

/-- The mods of the state that a snapshot restores. -/
def RollbackSnapshotState.installedMods (target : RollbackSnapshotState) : List InstalledMod :=
  target.state.toList.flatMap (·.installedMods)

structure RollbackArtifact where
  filename : String
  storedFilename : String
  projectId : String
  versionId : String
  ownershipClass : OwnershipClass
  size : Nat
  sha512 : String
  deriving DecidableEq

structure RollbackSnapshot where
  id : String
  schemaVersion : Int
  createdAt : String
  target : RollbackSnapshotState
  artifacts : List RollbackArtifact

inductive StateError where
  | invalidFilename (filename : String)
  | invalidOwnership (filename ownershipClass : String)
  | invalidIntegrity (filename reason : String)
  | invalidRollbackId
  | invalidRollback (message : String)
  | invalidState (message : String)

abbrev StateChecked := Except StateError

/-- The `Debug` text. -/
def OwnershipClass.debug : OwnershipClass → String
  | compositionManaged => "CompositionManaged"
  | userManaged => "UserManaged"

/-! ### The graph of a state -/

def CanonicalGraphNode.fromInstalled (installed : InstalledMod) : CanonicalGraphNode where
  projectId := installed.projectId
  versionId := installed.versionId
  filename := installed.filename
  role := installed.role
  size := installed.size
  sha512 := installed.integrity.sha512

/-- What has been seen of the mods. -/
structure InstalledScan where
  previous : Option String
  projects : List String
  filenames : List PortablePathKey
  aggregateBytes : Nat

def InstalledScan.start : InstalledScan := ⟨none, [], [], 0⟩

/-- What has been seen of the edges. -/
structure EdgeScan where
  previous : Option ManagedDependencyEdge
  seen : List ManagedDependencyEdge

def EdgeScan.start : EdgeScan := ⟨none, []⟩

def installedVersion (installedMods : List InstalledMod) (projectId : String) : Option String :=
  (installedMods.find? fun installed => installed.projectId = projectId).map (·.versionId)

def admitStateEdge (installedMods : List InstalledMod) (scan : EdgeScan)
    (edge : ManagedDependencyEdge) : PlanChecked EdgeScan := do
  if scan.previous.any fun previous => edge.key ≤ previous.key then throw .duplicateEdge
  edge.validate
  if edge ∈ scan.seen then throw .duplicateEdge
  if installedVersion installedMods edge.childProjectId = none then throw .unknownEdgeEndpoint
  if installedVersion installedMods edge.parentProjectId = none then throw .unknownEdgeEndpoint
  if installedVersion installedMods edge.childProjectId ≠ some edge.childVersionId then
    throw .dependencyVersionMismatch
  return ⟨some edge, scan.seen ++ [edge]⟩

def installedRoots (installedMods : List InstalledMod) : List String :=
  (installedMods.filter fun installed => installed.role = .root).map (·.projectId)

def unreachableInstalled (state : CompositionState) (installed : InstalledMod) : Bool :=
  installed.role = .requiredDependency &&
    decide (installed.projectId ∉ Closure.reachable (adjacent state.dependencyEdges)
      (state.installedMods.map (·.projectId)) (installedRoots state.installedMods))

variable (libraries : PlanLibraries)

def admitInstalled (scan : InstalledScan) (installed : InstalledMod) :
    PlanChecked InstalledScan := do
  validateModrinthId installed.projectId .invalidProjectId
  validateModrinthId installed.versionId .invalidVersionId
  validatePortableJarFilename libraries.unicode installed.filename
  validateArtifactSize installed.size
  validateSha512 installed.integrity.sha512
  if scan.previous.any fun previous => installed.projectId ≤ previous then
    throw .duplicateArtifact
  if installed.projectId ∈ scan.projects then throw .duplicateArtifact
  let key ← portableFilenameKey libraries.unicode installed.filename
  if key ∈ scan.filenames then throw .duplicateFilename
  let total ← addBytes scan.aggregateBytes installed.size
  return ⟨some installed.projectId, scan.projects ++ [installed.projectId],
    scan.filenames ++ [key], total⟩

def canonicalStateGraphDigest (state : CompositionState) : PlanChecked String := do
  if maxManagedPlanNodes < state.installedMods.length then throw .tooManyArtifacts
  if maxManagedPlanEdges < state.dependencyEdges.length then throw .tooManyEdges
  validateRequiredText state.compositionId maxCompositionIdBytes .invalidCompositionId
  validateTargetValue state.gameVersion
  validateTargetValue state.loader
  let scan ← state.installedMods.foldlM (admitInstalled libraries) .start
  let _ ← state.dependencyEdges.foldlM (admitStateEdge state.installedMods) .start
  if state.installedMods.any (unreachableInstalled state) then throw .unreachableDependency
  return graphDigest libraries.sha512
    ⟨state.compositionId, state.family, state.tier, state.gameVersion, state.loader,
      scan.aggregateBytes⟩
    (state.installedMods.map .fromInstalled) state.dependencyEdges

def validateStateGraph (state : CompositionState) : PlanChecked Unit := do
  let digest ← canonicalStateGraphDigest libraries state
  if digest ≠ state.graphSha512 then throw .invalidGraphDigest

/-! ### States -/

/-- A text without surrounding whitespace, not empty, and not too long. -/
def boundedText (value : String) (maxChars : Nat) : Bool :=
  trim value = value && value ≠ "" && decide (value.toList.length ≤ maxChars)

def validateStateToken (label value : String) : StateChecked Unit :=
  if boundedText value stateTokenMaxChars && !value.toList.any isControl then .ok ()
  else .error (.invalidState (label ++ " is invalid"))

def isValidSha512 (value : String) : Bool :=
  (utf8 value).length = 128 &&
    value.toList.all fun char =>
      char.isDigit || ('a' ≤ char && char ≤ 'f') || ('A' ≤ char && char ≤ 'F')

def validateSha512Integrity (filename sha512 : String) : StateChecked Unit :=
  if isValidSha512 sha512 then .ok ()
  else .error (.invalidIntegrity filename "SHA-512 metadata must be 128 hexadecimal characters")

/-- The `portable_filename_key` of states. -/
def stateFilenameKey (filename : String) : StateChecked PortablePathKey :=
  match filenameKey libraries.unicode filename with
  | none => .error (.invalidFilename filename)
  | some key => .ok key

/-- The project ids, in lower case, and the file names that have been seen. -/
abbrev IdentityScan : Type := List String × List PortablePathKey

def admitIdentity (scan : IdentityScan) (installed : InstalledMod) : StateChecked IdentityScan := do
  let filenameKey ← stateFilenameKey libraries installed.filename
  validateStateToken "managed project id" installed.projectId
  validateStateToken "managed version id" installed.versionId
  if toAsciiLowercase installed.projectId ∈ scan.1 then
    throw (.invalidState "performance state contains colliding project ids")
  if filenameKey ∈ scan.2 then
    throw (.invalidState "performance state contains colliding filenames")
  if installed.ownershipClass ≠ .compositionManaged then
    throw (.invalidOwnership installed.filename installed.ownershipClass.debug)
  if managedArtifactMaxBytes < installed.size then
    throw (.invalidIntegrity installed.filename "managed artifact exceeds the byte budget")
  validateSha512Integrity installed.filename installed.integrity.sha512
  return (scan.1 ++ [toAsciiLowercase installed.projectId], scan.2 ++ [filenameKey])

def validateState (state : CompositionState) : StateChecked Unit := do
  (validateStateGraph libraries state).mapError fun error => .invalidState error.message
  if !boundedText state.installedAt stateTimestampMaxChars then
    throw (.invalidState "performance state timestamp is invalid")
  if stateMaxInstalledMods < state.installedMods.length then
    throw (.invalidState "performance state installed artifact count exceeds the limit")
  let _ ← state.installedMods.foldlM (admitIdentity libraries) ([], [])

/-! ### Snapshots -/

def validateRollbackSnapshotId (snapshotId : String) : StateChecked Unit :=
  if snapshotId ≠ "" ∧ (utf8 snapshotId).length ≤ rollbackSnapshotIdMaxBytes ∧
      snapshotId.toList.all fun char => char.isAlphanum || char = '-' || char = '_' then
    .ok ()
  else .error .invalidRollbackId

def addRollbackBytes (total : Nat) (artifact : RollbackArtifact) : StateChecked Nat :=
  match checkedAdd total artifact.size with
  | none => .error (.invalidRollback "rollback artifact byte total overflowed")
  | some total => .ok total

def validateRollbackArtifactBudget (snapshot : RollbackSnapshot) : StateChecked Unit := do
  let total ← snapshot.artifacts.foldlM addRollbackBytes 0
  if managedArtifactMaxBytes < total then
    throw (.invalidRollback "rollback snapshot exceeds the aggregate artifact budget")

def metadataDiffers (artifact : RollbackArtifact) (installed : InstalledMod) : Bool :=
  artifact.projectId ≠ installed.projectId || artifact.versionId ≠ installed.versionId ||
    artifact.ownershipClass ≠ .compositionManaged ||
    artifact.ownershipClass ≠ installed.ownershipClass || artifact.size ≠ installed.size ||
    !sameAsciiCase artifact.sha512 installed.integrity.sha512

/-- The names, and the stored names, that have been seen of the artifacts. -/
abbrev ArtifactScan : Type := List PortablePathKey × List PortablePathKey

def admitArtifact (installedMods : List InstalledMod) (scan : ArtifactScan)
    (artifact : RollbackArtifact) : StateChecked ArtifactScan := do
  let filenameKey ← stateFilenameKey libraries artifact.filename
  if filenameKey ∈ scan.1 then
    throw (.invalidRollback "rollback contains colliding artifact identities")
  let storedKey ← stateFilenameKey libraries artifact.storedFilename
  if storedKey ∈ scan.2 then
    throw (.invalidRollback "rollback contains colliding artifact identities")
  validateStateToken "rollback project id" artifact.projectId
  validateStateToken "rollback version id" artifact.versionId
  validateSha512Integrity artifact.filename artifact.sha512
  match installedMods.find? fun installed => installed.filename = artifact.filename with
  | none =>
    throw (.invalidRollback ("artifact " ++ artifact.filename ++ " is not in the rollback state"))
  | some installed =>
    if metadataDiffers artifact installed then
      throw (.invalidRollback
        ("artifact " ++ artifact.filename ++ " metadata does not match rollback state"))
    return (scan.1 ++ [filenameKey], scan.2 ++ [storedKey])

def validateRollbackSnapshot (snapshot : RollbackSnapshot) : StateChecked Unit := do
  if snapshot.schemaVersion ≠ rollbackSchemaVersion then
    throw (.invalidRollback ("unsupported schema version " ++ toString snapshot.schemaVersion))
  validateRollbackSnapshotId snapshot.id
  if !boundedText snapshot.createdAt stateTimestampMaxChars then
    throw (.invalidRollback "rollback timestamp is invalid")
  if stateMaxInstalledMods < snapshot.artifacts.length then
    throw (.invalidRollback "rollback artifact count exceeds the limit")
  validateRollbackArtifactBudget snapshot
  snapshot.target.state.toList.forM (validateState libraries)
  let scan ← snapshot.artifacts.foldlM (admitArtifact libraries snapshot.target.installedMods)
    ([], [])
  if scan.1.length ≠ snapshot.target.installedMods.length then
    throw (.invalidRollback "rollback artifacts do not cover the managed state")

/-! ### Building -/

def installedFromPin (pin : ManagedArtifactPin) : InstalledMod where
  projectId := pin.projectId
  versionId := pin.versionId
  filename := pin.filename
  role := pin.role
  size := pin.size
  ownershipClass := .compositionManaged
  source := ⟨.modrinth⟩
  integrity := ⟨pin.sha512⟩

def installedGraphFromPlan (plan : ManagedCompositionInstallPlan) : List InstalledMod :=
  plan.pins.map installedFromPin

def stateFromPlan (plan : ManagedCompositionInstallPlan) (installedMods : List InstalledMod)
    (now : String) : CompositionState where
  compositionId := plan.compositionId
  family := plan.family
  tier := plan.tier
  gameVersion := plan.gameVersion
  loader := plan.loader
  graphSha512 := plan.graphDigest
  dependencyEdges := plan.edges
  installedMods
  installedAt := now

/-- `format!("artifact-{index:03}.bin")`. -/
def storedFilename (index : Nat) : String :=
  let digits := toString index
  "artifact-" ++ String.ofList (List.replicate (3 - digits.toList.length) '0') ++ digits ++ ".bin"

def rollbackArtifact (installed : InstalledMod) (index : Nat) : RollbackArtifact where
  filename := installed.filename
  storedFilename := storedFilename index
  projectId := installed.projectId
  versionId := installed.versionId
  ownershipClass := installed.ownershipClass
  size := installed.size
  sha512 := toAsciiLowercase installed.integrity.sha512

/-- The snapshot that `save_rollback_snapshot_target` builds. -/
def rollbackSnapshot (target : RollbackSnapshotState) (id now : String) : RollbackSnapshot where
  id
  schemaVersion := rollbackSchemaVersion
  createdAt := now
  target
  artifacts := target.installedMods.zipIdx.map fun (installed, index) =>
    rollbackArtifact installed index

end Axial.Performance
