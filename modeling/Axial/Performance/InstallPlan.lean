/-
This file models the managed install plans of `core/performance/src/install/plan.rs`.
A plan pins the artifacts of a composition and the edges on which they depend on each
other; sealing it checks the graph, sorts it, and hashes it. What sealing established
is pulled out once, of the pins and edges as they were given, and holds of them in
their sorted order.
-/

import Axial.Library.Closure
import Axial.Performance.Planner

namespace Axial.Performance

open Bytes Fallible
open Axial.Minecraft (PortableFileName PortablePathKey trim)

/-! ### Bounds -/

abbrev managedArtifactMaxBytes : Nat := 536870912
abbrev maxManagedPlanNodes : Nat := 256
abbrev maxManagedPlanEdges : Nat := 4096
abbrev maxCompositionIdBytes : Nat := 256
abbrev maxTargetValueBytes : Nat := 128
abbrev maxDownloadUrlBytes : Nat := 8192
abbrev modrinthIdBytes : Nat := 8
abbrev sha512HexBytes : Nat := 128

/-- What a parsed URL says. -/
structure Url where
  scheme : String
  host : Option String
  username : String
  password : Option String
  fragment : Option String

/-- What plans take from linked libraries: the Unicode tables, the parser of URLs, and the hash
function. -/
structure PlanLibraries where
  unicode : Minecraft.Unicode
  parseUrl : String → Option Url
  sha512 : List UInt8 → List UInt8

/-! ### Errors -/

inductive ManagedInstallPlanError where
  | managedModeRequired
  | invalidCompositionId
  | invalidTarget
  | loaderMismatch
  | invalidProjectId
  | invalidVersionId
  | invalidFilename
  | invalidDownloadUrl
  | invalidArtifactSize
  | invalidSha512
  | tooManyRoots
  | tooManyArtifacts
  | tooManyEdges
  | artifactBytesExceeded
  | duplicateRoot
  | duplicateArtifact
  | duplicateFilename
  | rootSetMismatch
  | unexpectedEmptyRootGraph
  | duplicateEdge
  | unknownEdgeEndpoint
  | dependencyVersionMismatch
  | unreachableDependency
  | invalidGraphDigest
  deriving DecidableEq

def ManagedInstallPlanError.message : ManagedInstallPlanError → String
  | managedModeRequired => "managed composition mode is required"
  | invalidCompositionId => "managed composition id is invalid"
  | invalidTarget => "managed composition target is invalid"
  | loaderMismatch => "managed composition loader does not match its exact target"
  | invalidProjectId => "managed artifact project id is invalid"
  | invalidVersionId => "managed artifact version id is invalid"
  | invalidFilename => "managed artifact filename is not a portable jar basename"
  | invalidDownloadUrl => "managed artifact download url is invalid"
  | invalidArtifactSize => "managed artifact size is invalid"
  | invalidSha512 => "managed artifact SHA-512 is not canonical"
  | tooManyRoots => "managed composition has too many declarative roots"
  | tooManyArtifacts => "managed composition has too many artifacts"
  | tooManyEdges => "managed composition has too many dependency edges"
  | artifactBytesExceeded => "managed composition artifact bytes exceed the staging bound"
  | duplicateRoot => "managed composition declares a duplicate root"
  | duplicateArtifact => "managed composition contains a duplicate artifact"
  | duplicateFilename => "managed composition contains a non-portable filename collision"
  | rootSetMismatch => "managed composition root artifacts do not match its declarative roots"
  | unexpectedEmptyRootGraph => "managed composition without roots must have an empty graph"
  | duplicateEdge => "managed composition contains a duplicate dependency edge"
  | unknownEdgeEndpoint => "managed composition dependency edge has an unknown endpoint"
  | dependencyVersionMismatch =>
    "managed composition dependency edge does not pin the exact child version"
  | unreachableDependency => "managed composition contains an unreachable required dependency"
  | invalidGraphDigest => "managed composition graph digest is invalid"

abbrev PlanChecked := Except ManagedInstallPlanError

/-! ### Checks of texts -/

def isAsciiControl (char : Char) : Bool := char.toNat < 0x20 || char.toNat = 0x7f

def isLowerHexDigit (char : Char) : Bool := char.isDigit || ('a' ≤ char && char ≤ 'f')

def isModrinthId (value : String) : Bool :=
  (utf8 value).length = modrinthIdBytes && value.toList.all Char.isAlphanum

def validateModrinthId (value : String) (error : ManagedInstallPlanError) : PlanChecked Unit :=
  if isModrinthId value then .ok () else .error error

def isRequiredText (value : String) (maxBytes : Nat) : Bool :=
  !(value = "" || decide (maxBytes < (utf8 value).length) || trim value ≠ value ||
    value.toList.any isAsciiControl)

def validateRequiredText (value : String) (maxBytes : Nat) (error : ManagedInstallPlanError) :
    PlanChecked Unit :=
  if isRequiredText value maxBytes then .ok () else .error error

def validateTargetValue (value : String) : PlanChecked Unit := do
  validateRequiredText value maxTargetValueBytes .invalidTarget
  if Minecraft.isAscii value then .ok () else .error .invalidTarget

/-- The key of a file name that is portable as it is spelled. -/
def filenameKey (unicode : Minecraft.Unicode) (filename : String) : Option PortablePathKey :=
  (PortableFileName.newExact unicode filename).map PortableFileName.key

def portableFilenameKey (unicode : Minecraft.Unicode) (filename : String) :
    PlanChecked PortablePathKey :=
  match filenameKey unicode filename with
  | none => .error .invalidFilename
  | some key => .ok key

def validatePortableJarFilename (unicode : Minecraft.Unicode) (filename : String) :
    PlanChecked Unit := do
  let key ← portableFilenameKey unicode filename
  if ".jar".toList <:+ key.value.toList then .ok () else .error .invalidFilename

/-- A URL that a release build downloads from. -/
def isDownloadUrl (parseUrl : String → Option Url) (url : String) : Bool :=
  !(url = "" || decide (maxDownloadUrlBytes < (utf8 url).length) ||
      url.toList.any fun char => isAsciiControl char || char = ' ') &&
    (parseUrl url).any fun parsed =>
      parsed.scheme = "https" && parsed.host.isSome && parsed.username = "" &&
        parsed.password.isNone && parsed.fragment.isNone

def validateDownloadUrl (parseUrl : String → Option Url) (url : String) : PlanChecked Unit :=
  if isDownloadUrl parseUrl url then .ok () else .error .invalidDownloadUrl

def isCanonicalSha512 (sha512 : String) : Bool :=
  (utf8 sha512).length = sha512HexBytes && sha512.toList.all isLowerHexDigit

def validateSha512 (sha512 : String) : PlanChecked Unit :=
  if isCanonicalSha512 sha512 then .ok () else .error .invalidSha512

def validateArtifactSize (size : Nat) : PlanChecked Unit :=
  if size = 0 ∨ managedArtifactMaxBytes < size then .error .invalidArtifactSize else .ok ()

/-! ### Pins and edges -/

inductive ManagedArtifactRole where
  | root
  | requiredDependency
  deriving DecidableEq

def ManagedArtifactRole.canonicalName : ManagedArtifactRole → String
  | root => "root"
  | requiredDependency => "required_dependency"

structure ManagedArtifactPin where
  projectId : String
  versionId : String
  filename : String
  downloadUrl : String
  size : Nat
  sha512 : String
  role : ManagedArtifactRole
  deriving DecidableEq

def ManagedArtifactPin.validate (libraries : PlanLibraries) (pin : ManagedArtifactPin) :
    PlanChecked Unit := do
  validateModrinthId pin.projectId .invalidProjectId
  validateModrinthId pin.versionId .invalidVersionId
  validatePortableJarFilename libraries.unicode pin.filename
  validateDownloadUrl libraries.parseUrl pin.downloadUrl
  validateArtifactSize pin.size
  validateSha512 pin.sha512

/-- A dependency of one project on an exact version of another, as a plan or a state has it. -/
structure ManagedDependencyEdge where
  parentProjectId : String
  childProjectId : String
  childVersionId : String
  deriving DecidableEq

namespace ManagedDependencyEdge

def validate (edge : ManagedDependencyEdge) : PlanChecked Unit := do
  validateModrinthId edge.parentProjectId .invalidProjectId
  validateModrinthId edge.childProjectId .invalidProjectId
  validateModrinthId edge.childVersionId .invalidVersionId

/-- What edges are ordered by. -/
def key (edge : ManagedDependencyEdge) : String ×ₗ String ×ₗ String :=
  toLex (edge.parentProjectId, toLex (edge.childProjectId, edge.childVersionId))

theorem key_injective : Function.Injective key := by
  intro first second same
  have projects := congrArg (fun key => (ofLex key).1) same
  have rest := congrArg (fun key => ofLex (ofLex key).2) same
  cases first
  cases second
  simp only [key, ofLex_toLex, Prod.mk.injEq] at projects rest
  rw [mk.injEq]
  exact ⟨projects, rest⟩

end ManagedDependencyEdge

/-- The projects that edges lead to from a project, in the order of the edges. -/
def adjacent (edges : List ManagedDependencyEdge) (projectId : String) : List String :=
  (edges.filter fun edge => edge.parentProjectId = projectId).map (·.childProjectId)

/-! ### The digest -/

structure CanonicalGraphNode where
  projectId : String
  versionId : String
  filename : String
  role : ManagedArtifactRole
  size : Nat
  sha512 : String
  deriving DecidableEq

def CanonicalGraphNode.fromPin (pin : ManagedArtifactPin) : CanonicalGraphNode where
  projectId := pin.projectId
  versionId := pin.versionId
  filename := pin.filename
  role := pin.role
  size := pin.size
  sha512 := pin.sha512

structure CanonicalGraphDigestInputs where
  compositionId : String
  family : VersionFamily
  tier : CompositionTier
  gameVersion : String
  loader : String
  aggregateBytes : Nat

def familyName : VersionFamily → String
  | .A => "A"
  | .B => "B"
  | .C => "C"
  | .D => "D"
  | .E => "E"
  | .F => "F"

def tierName : CompositionTier → String
  | .extended => "extended"
  | .core => "core"
  | .vanillaEnhanced => "vanilla_enhanced"

/-- The bytes that a labelled field adds to what is hashed. -/
def hashField (label : String) (value : List UInt8) : List UInt8 :=
  bigEndian 8 (utf8 label).length ++ utf8 label ++ bigEndian 8 value.length ++ value

def CanonicalGraphNode.fields (node : CanonicalGraphNode) : List UInt8 :=
  hashField "pin_project" (utf8 node.projectId) ++ hashField "pin_version" (utf8 node.versionId) ++
    hashField "pin_filename" (utf8 node.filename) ++
    hashField "pin_role" (utf8 node.role.canonicalName) ++
    hashField "pin_size" (bigEndian 8 node.size) ++ hashField "pin_sha512" (utf8 node.sha512)

def ManagedDependencyEdge.fields (edge : ManagedDependencyEdge) : List UInt8 :=
  hashField "edge_parent" (utf8 edge.parentProjectId) ++
    hashField "edge_child" (utf8 edge.childProjectId) ++
    hashField "edge_child_version" (utf8 edge.childVersionId)

/-- All that is hashed of a graph, in order. -/
def canonicalGraph (inputs : CanonicalGraphDigestInputs) (pins : List CanonicalGraphNode)
    (edges : List ManagedDependencyEdge) : List UInt8 :=
  hashField "domain" (utf8 "axial.managed-composition-install-plan.v1") ++
    hashField "composition" (utf8 inputs.compositionId) ++
    hashField "family" (utf8 (familyName inputs.family)) ++
    hashField "tier" (utf8 (tierName inputs.tier)) ++
    hashField "game_version" (utf8 inputs.gameVersion) ++
    hashField "loader" (utf8 inputs.loader) ++
    hashField "aggregate_bytes" (bigEndian 8 inputs.aggregateBytes) ++
    hashField "pin_count" (bigEndian 8 pins.length) ++ pins.flatMap CanonicalGraphNode.fields ++
    hashField "edge_count" (bigEndian 8 edges.length) ++ edges.flatMap ManagedDependencyEdge.fields

/-- `hex::encode`. -/
def hexEncode (bytes : List UInt8) : String :=
  String.ofList (bytes.flatMap fun byte =>
    [Axial.Fs.hexDigit (byte.toNat / 16), Axial.Fs.hexDigit (byte.toNat % 16)])

def graphDigest (sha512 : List UInt8 → List UInt8) (inputs : CanonicalGraphDigestInputs)
    (pins : List CanonicalGraphNode) (edges : List ManagedDependencyEdge) : String :=
  hexEncode (sha512 (canonicalGraph inputs pins edges))

/-! ### Sealing -/

structure ManagedCompositionInstallPlan where
  compositionId : String
  family : VersionFamily
  tier : CompositionTier
  gameVersion : String
  loader : String
  pins : List ManagedArtifactPin
  edges : List ManagedDependencyEdge
  aggregateBytes : Nat
  graphDigest : String

def checkedAdd (left right : Nat) : Option Nat :=
  if left + right < 2 ^ 64 then some (left + right) else none

/-- The sum of sizes so far with one more, within the bound. -/
def addBytes (total size : Nat) : PlanChecked Nat :=
  match (checkedAdd total size).filter fun bytes => bytes ≤ managedArtifactMaxBytes with
  | none => .error .artifactBytesExceeded
  | some total => .ok total

/-- What has been seen of the pins. -/
structure PinScan where
  projects : List String
  filenames : List PortablePathKey
  aggregateBytes : Nat

def PinScan.start : PinScan := ⟨[], [], 0⟩

def admitRoot (roots : List String) (managedMod : ManagedMod) : PlanChecked (List String) := do
  validateModrinthId managedMod.projectId .invalidProjectId
  if managedMod.projectId ∈ roots then throw .duplicateRoot
  return roots ++ [managedMod.projectId]

variable (libraries : PlanLibraries)

def admitPin (scan : PinScan) (pin : ManagedArtifactPin) : PlanChecked PinScan := do
  pin.validate libraries
  if pin.projectId ∈ scan.projects then throw .duplicateArtifact
  let key ← portableFilenameKey libraries.unicode pin.filename
  if key ∈ scan.filenames then throw .duplicateFilename
  let total ← addBytes scan.aggregateBytes pin.size
  return ⟨scan.projects ++ [pin.projectId], scan.filenames ++ [key], total⟩

/-- The version that is pinned of a project. -/
def pinnedVersion (pins : List ManagedArtifactPin) (projectId : String) : Option String :=
  (pins.find? fun pin => pin.projectId = projectId).map (·.versionId)

def admitEdge (pins : List ManagedArtifactPin) (seen : List ManagedDependencyEdge)
    (edge : ManagedDependencyEdge) : PlanChecked (List ManagedDependencyEdge) := do
  edge.validate
  if edge ∈ seen then throw .duplicateEdge
  if pinnedVersion pins edge.parentProjectId = none then throw .unknownEdgeEndpoint
  if pinnedVersion pins edge.childProjectId = none then throw .unknownEdgeEndpoint
  if pinnedVersion pins edge.childProjectId ≠ some edge.childVersionId then
    throw .dependencyVersionMismatch
  return seen ++ [edge]

def rootPins (pins : List ManagedArtifactPin) : List String :=
  (pins.filter fun pin => pin.role = .root).map (·.projectId)

/-- A required dependency that no path from a root leads to. -/
def unreachable (pins : List ManagedArtifactPin) (edges : List ManagedDependencyEdge)
    (roots : List String) (pin : ManagedArtifactPin) : Bool :=
  pin.role = .requiredDependency &&
    decide (pin.projectId ∉ Closure.reachable (adjacent edges) (pins.map (·.projectId)) roots)

/-- Everything that is checked before a plan is sealed, and the sum of its sizes. -/
def sealable (declarative : CompositionPlan) (gameVersion loader : String)
    (pins : List ManagedArtifactPin) (edges : List ManagedDependencyEdge) : PlanChecked Nat := do
  if declarative.mode ≠ .managed then throw .managedModeRequired
  validateRequiredText declarative.compositionId maxCompositionIdBytes .invalidCompositionId
  validateTargetValue gameVersion
  validateTargetValue loader
  if loader ≠ declarative.loader then throw .loaderMismatch
  if maxManagedPlanNodes < pins.length then throw .tooManyArtifacts
  if maxManagedPlanEdges < edges.length then throw .tooManyEdges
  if maxManagedPlanNodes < declarative.mods.length then throw .tooManyRoots
  let roots ← declarative.mods.foldlM admitRoot []
  let scan ← pins.foldlM (admitPin libraries) .start
  if roots.toFinset ≠ (rootPins pins).toFinset then throw .rootSetMismatch
  if roots = [] ∧ (pins ≠ [] ∨ edges ≠ []) then throw .unexpectedEmptyRootGraph
  let _ ← edges.foldlM (admitEdge pins) []
  if pins.any (unreachable pins edges roots) then throw .unreachableDependency
  return scan.aggregateBytes

def sortPins (pins : List ManagedArtifactPin) : List ManagedArtifactPin :=
  pins.insertionSort fun left right => left.projectId ≤ right.projectId

def sortEdges (edges : List ManagedDependencyEdge) : List ManagedDependencyEdge :=
  edges.insertionSort fun left right => left.key ≤ right.key

/-- `ManagedCompositionInstallPlan::seal`. -/
def sealPlan (declarative : CompositionPlan) (gameVersion loader : String)
    (pins : List ManagedArtifactPin) (edges : List ManagedDependencyEdge) :
    PlanChecked ManagedCompositionInstallPlan := do
  let aggregateBytes ← sealable libraries declarative gameVersion loader pins edges
  return {
    compositionId := declarative.compositionId
    family := declarative.family
    tier := declarative.tier
    gameVersion
    loader
    pins := sortPins pins
    edges := sortEdges edges
    aggregateBytes
    graphDigest := graphDigest libraries.sha512
      ⟨declarative.compositionId, declarative.family, declarative.tier, gameVersion, loader,
        aggregateBytes⟩
      ((sortPins pins).map .fromPin) (sortEdges edges) }

end Axial.Performance
