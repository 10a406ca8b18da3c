/-
This file models the performance manifest, the catalogue of compositions of managed
mods with its emergency disables, and the checks of
`core/performance/src/resolve/validation.rs` that a manifest passes before any plan
is made from it.
-/

import Axial.Performance.Version

namespace Axial.Performance

open Axial.Minecraft (trim)

abbrev maxManifestItems : Nat := 256
abbrev maxFilterItems : Nat := 64
abbrev maxIdChars : Nat := 128
abbrev maxNameChars : Nat := 256
abbrev maxDescriptionChars : Nat := 1024
abbrev maxVersionRangeChars : Nat := 256
abbrev maxExactGameVersionChars : Nat := 64
abbrev maxHardwareValue : Int := 1048576
abbrev modrinthProjectIdChars : Nat := 8
abbrev performanceManifestSchemaVersion : Int := 3

/-- The version of the launcher, from its package manifest. -/
def runningAppVersion : String := "0.4.0-rc.1"

/-! ### Data -/

inductive VersionFamily where
  | A
  | B
  | C
  | D
  | E
  | F
  deriving DecidableEq

inductive PerformanceMode where
  | managed
  | vanilla
  | custom
  deriving DecidableEq

inductive CompositionTier where
  | extended
  | core
  | vanillaEnhanced
  deriving DecidableEq

inductive ModCondition where
  | always
  | hardware
  | versionRange
  | recommend
  deriving DecidableEq

inductive EmergencyDisableTarget where
  | composition
  | artifact
  deriving DecidableEq

inductive OwnershipClass where
  | compositionManaged
  | userManaged
  deriving DecidableEq

structure ManagedArtifactDefinition where
  id : String
  projectId : String
  slug : String
  ownershipClass : OwnershipClass
  deriving DecidableEq

structure HardwareRequirement where
  gpuVendor : String
  gpuArchMin : Int
  minRamMb : Int
  minCores : Int
  deriving DecidableEq

structure ManagedMod where
  artifactId : String
  projectId : String
  slug : String
  name : String
  condition : ModCondition
  versionRange : String
  exactGameVersions : List String
  hardwareReq : Option HardwareRequirement
  mutualExclusions : List String
  deriving DecidableEq

structure CompositionDef where
  id : String
  displayName : String
  description : String
  families : List VersionFamily
  loaders : List String
  tier : CompositionTier
  mods : List ManagedMod
  jvmPreset : String
  deriving DecidableEq

structure EmergencyDisable where
  id : String
  target : EmergencyDisableTarget
  targetId : String
  reason : String
  families : List VersionFamily
  loaders : List String
  tiers : List CompositionTier
  deriving DecidableEq

structure Manifest where
  schemaVersion : Int
  generatedAt : String
  minimumAppVersion : String
  ruleChannel : String
  artifacts : List ManagedArtifactDefinition
  compositions : List CompositionDef
  emergencyDisables : List EmergencyDisable

inductive ResolveError where
  | unsupportedSchema
  | manifestBound (field : String)
  | missingMinimumAppVersion
  | invalidMinimumAppVersion (value : String)
  | invalidRunningAppVersion (value : String)
  | unsupportedAppVersion (required running : String)
  | missingRuleChannel
  | unsupportedRuleChannel (channel : String)
  | missingArtifactId
  | duplicateArtifactId (id : String)
  | missingArtifactProjectId (id : String)
  | missingArtifactSlug (id : String)
  | invalidArtifactOwnership (id : String)
  | missingManagedModArtifactId
  | unknownManagedModArtifact (artifactId : String)
  | managedModProjectMismatch (artifactId expected actual : String)
  | managedModSlugMismatch (artifactId expected actual : String)
  | invalidManagedModVersionRange (artifactId versionRange : String)
  | conflictingManagedModVersionSelectors (artifactId : String)
  | invalidManagedModExactGameVersion (artifactId gameVersion : String)
  | duplicateManagedModExactGameVersion (artifactId gameVersion : String)
  | invalidManagedModHardwareRequirement (artifactId field : String) (value : Int)
  | invalidManagedModMutualExclusion (artifactId field value : String)
  | missingCompositionId
  | duplicateCompositionId (id : String)
  | missingEmergencyDisableId
  | missingEmergencyDisableTargetId
  | missingEmergencyDisableReason
  | duplicateEmergencyDisableId (id : String)
  | unknownEmergencyDisableComposition (targetId : String)
  | unknownEmergencyDisableArtifact (targetId : String)
  deriving DecidableEq

abbrev Checked := Except ResolveError

/-! ### Checks of texts and counts -/

def validateCount (actual max : Nat) (field : String) : Checked Unit :=
  if max < actual then .error (.manifestBound field) else .ok ()

def validateText (value : String) (max : Nat) (field : String) : Checked Unit :=
  if max < value.toList.length || value.toList.any isControl then .error (.manifestBound field)
  else .ok ()

def validateOptionalText (value : String) (max : Nat) (field : String) : Checked Unit :=
  if value = "" then .ok () else validateText value max field

def validateModrinthProjectId (projectId field : String) : Checked Unit :=
  if (Bytes.utf8 projectId).length ≠ modrinthProjectIdChars ||
      !projectId.toList.all Char.isAlphanum then
    .error (.manifestBound field)
  else .ok ()

def toAsciiLowercase (value : String) : String := String.ofList (value.toList.map Char.toLower)

def validateUniqueText (values : List String) (field : String) : Checked Unit :=
  if (values.map toAsciiLowercase).Nodup then .ok () else .error (.manifestBound field)

/-- A list of values each of which is checked, and none of which has the key of an earlier one. -/
def checkDistinct {Item Key : Type} [DecidableEq Key] (check : Item → Checked Unit)
    (key : Item → Key) (duplicate : Item → ResolveError) (seen : List Key) :
    List Item → Checked Unit
  | [] => .ok ()
  | item :: items => do
    check item
    if key item ∈ seen then throw (duplicate item)
    checkDistinct check key duplicate (key item :: seen) items

def validateAppVersionCompatibilityWithRunning
    (minimumAppVersion runningAppVersion : String) : Checked Unit :=
  match parseAppVersion minimumAppVersion, parseAppVersion runningAppVersion with
  | .error .missing, _ => .error .missingMinimumAppVersion
  | .error (.invalid trimmed), _ => .error (.invalidMinimumAppVersion trimmed)
  | .ok _, .error _ => .error (.invalidRunningAppVersion (trim runningAppVersion))
  | .ok minimum, .ok running =>
    if compareAppVersions minimum running = .gt then
      .error (.unsupportedAppVersion (trim minimumAppVersion) runningAppVersion)
    else .ok ()

def validateAppVersionCompatibility (minimumAppVersion : String) : Checked Unit :=
  validateAppVersionCompatibilityWithRunning minimumAppVersion runningAppVersion

def validateRuleChannel (ruleChannel : String) : Checked Unit :=
  if trim ruleChannel = "" then .error .missingRuleChannel
  else if ruleChannel ∉ ["bundled", "local", "remote"] then
    .error (.unsupportedRuleChannel ruleChannel)
  else .ok ()

variable (tables : UnicodeTables)

/-! ### Artifacts -/

/-- The checks of an artifact before and after the one for a repeated id. -/
def validateArtifactTexts (artifact : ManagedArtifactDefinition) : Checked Unit := do
  validateText artifact.id maxIdChars "artifact id"
  validateText artifact.projectId maxIdChars "artifact project id"
  validateText artifact.slug maxIdChars "artifact slug"
  if trim artifact.id = "" then throw .missingArtifactId

def validateArtifactSource (artifact : ManagedArtifactDefinition) : Checked Unit := do
  if trim artifact.projectId = "" then throw (.missingArtifactProjectId artifact.id)
  validateModrinthProjectId artifact.projectId "artifact Modrinth project id"
  if trim artifact.slug = "" then throw (.missingArtifactSlug artifact.id)
  if trim artifact.slug ≠ artifact.slug then throw (.manifestBound "artifact slug padding")
  if artifact.ownershipClass ≠ .compositionManaged then
    throw (.invalidArtifactOwnership artifact.id)

/-- The private `validate_artifacts`: the ids are distinct in lower case. -/
def validateArtifacts (seen : List String) : List ManagedArtifactDefinition → Checked Unit
  | [] => .ok ()
  | artifact :: artifacts => do
    validateArtifactTexts artifact
    if tables.toLowercase artifact.id ∈ seen then throw (.duplicateArtifactId artifact.id)
    validateArtifactSource artifact
    validateArtifacts (tables.toLowercase artifact.id :: seen) artifacts

/-- The artifact a managed mod refers to, in the map that `validate_artifacts` returns. -/
def referredArtifact (artifacts : List ManagedArtifactDefinition) (artifactId : String) :
    Option ManagedArtifactDefinition :=
  artifacts.find? fun artifact =>
    tables.toLowercase artifact.id = tables.toLowercase artifactId

def declaredArtifactTargets (artifacts : List ManagedArtifactDefinition) : List String :=
  artifacts.flatMap fun artifact =>
    [tables.toLowercase artifact.id, tables.toLowercase artifact.projectId]

/-! ### Managed mods -/

def validateManagedModVersionRange (managedMod : ManagedMod) : Checked Unit :=
  let trimmed := trim managedMod.versionRange
  (splitWhitespace trimmed).forM fun condition =>
    if (parseVersion tables (splitRangeCondition condition).2).isNone then
      .error (.invalidManagedModVersionRange managedMod.artifactId trimmed)
    else .ok ()

def validateExactGameVersion (managedMod : ManagedMod) (gameVersion : String) : Checked Unit := do
  validateText gameVersion maxExactGameVersionChars "managed mod exact game version"
  if gameVersion = "" || trim gameVersion ≠ gameVersion ||
      (parseVersion tables gameVersion).isNone then
    throw (.invalidManagedModExactGameVersion managedMod.artifactId gameVersion)

def validateManagedModExactGameVersions (managedMod : ManagedMod) : Checked Unit := do
  if trim managedMod.versionRange ≠ "" ∧ managedMod.exactGameVersions ≠ [] then
    throw (.conflictingManagedModVersionSelectors managedMod.artifactId)
  checkDistinct (validateExactGameVersion tables managedMod) id
    (.duplicateManagedModExactGameVersion managedMod.artifactId) []
    managedMod.exactGameVersions

def validateManagedModHardwareReq (managedMod : ManagedMod) : Checked Unit :=
  match managedMod.hardwareReq with
  | none => .ok ()
  | some requirement => do
    validateOptionalText requirement.gpuVendor 64 "managed mod hardware gpu vendor"
    [("gpu_arch_min", requirement.gpuArchMin), ("min_ram_mb", requirement.minRamMb),
      ("min_cores", requirement.minCores)].forM fun (field, value) =>
        if value < 0 || maxHardwareValue < value then
          throw (ResolveError.invalidManagedModHardwareRequirement managedMod.artifactId field
            value)
        else pure ()

def validateExclusion (managedMod : ManagedMod) (exclusion : String) : Checked Unit := do
  if trim exclusion = "" || trim exclusion ≠ exclusion then
    throw (.invalidManagedModMutualExclusion managedMod.artifactId "entry" exclusion)
  validateText exclusion maxIdChars "managed mod mutual exclusion"

def validateManagedModMutualExclusions (managedMod : ManagedMod) : Checked Unit := do
  validateCount managedMod.mutualExclusions.length maxFilterItems
    "managed mod mutual exclusion count"
  checkDistinct (validateExclusion managedMod) tables.toLowercase
    (.invalidManagedModMutualExclusion managedMod.artifactId "duplicate") []
    managedMod.mutualExclusions

def validateManagedModTexts (managedMod : ManagedMod) : Checked Unit := do
  validateText managedMod.artifactId maxIdChars "managed mod artifact id"
  validateText managedMod.projectId maxIdChars "managed mod project id"
  validateText managedMod.slug maxIdChars "managed mod slug"
  validateText managedMod.name maxNameChars "managed mod name"
  validateOptionalText managedMod.versionRange maxVersionRangeChars "managed mod version range"
  validateCount managedMod.exactGameVersions.length maxFilterItems
    "managed mod exact game version count"
  if trim managedMod.artifactId = "" then throw .missingManagedModArtifactId

/-- What a mod says of the artifact it refers to. -/
def validateManagedModSource (artifact : ManagedArtifactDefinition) (managedMod : ManagedMod) :
    Checked Unit := do
  validateModrinthProjectId managedMod.projectId "managed mod Modrinth project id"
  if trim managedMod.slug ≠ managedMod.slug then
    throw (.manifestBound "managed mod slug padding")
  if managedMod.projectId ≠ artifact.projectId then
    throw (.managedModProjectMismatch managedMod.artifactId artifact.projectId
      managedMod.projectId)
  if managedMod.slug ≠ artifact.slug then
    throw (.managedModSlugMismatch managedMod.artifactId artifact.slug managedMod.slug)

def validateManagedModArtifact (artifacts : List ManagedArtifactDefinition)
    (managedMod : ManagedMod) : Checked Unit := do
  validateManagedModTexts managedMod
  match referredArtifact tables artifacts managedMod.artifactId with
  | none => throw (.unknownManagedModArtifact managedMod.artifactId)
  | some artifact => do
    validateManagedModSource artifact managedMod
    validateManagedModVersionRange tables managedMod
    validateManagedModExactGameVersions tables managedMod
    validateManagedModHardwareReq managedMod
    validateManagedModMutualExclusions tables managedMod

/-! ### Compositions and disables -/

def validateComposition (composition : CompositionDef) : Checked Unit := do
  validateText composition.id maxIdChars "composition id"
  validateText composition.displayName maxNameChars "composition display name"
  validateText composition.description maxDescriptionChars "composition description"
  validateOptionalText composition.jvmPreset maxNameChars "composition jvm preset"
  validateCount composition.families.length maxFilterItems "composition family count"
  validateCount composition.loaders.length maxFilterItems "composition loader count"
  validateCount composition.mods.length maxManifestItems "composition mod count"
  validateUniqueText composition.loaders "composition loaders"
  composition.loaders.forM fun loader => validateText loader maxIdChars "composition loader"
  if composition.id = "" then throw .missingCompositionId

/-- The checks of a disable before and after the one for a repeated id. -/
def validateDisableTexts (disable : EmergencyDisable) : Checked Unit := do
  validateText disable.id maxIdChars "emergency disable id"
  validateText disable.targetId maxIdChars "emergency disable target"
  validateText disable.reason maxDescriptionChars "emergency disable reason"
  validateCount disable.families.length maxFilterItems "emergency family count"
  validateCount disable.loaders.length maxFilterItems "emergency loader count"
  validateCount disable.tiers.length maxFilterItems "emergency tier count"
  validateUniqueText disable.loaders "emergency loaders"
  disable.loaders.forM fun loader => validateText loader maxIdChars "emergency loader"
  if trim disable.id = "" then throw .missingEmergencyDisableId

def validateDisableTarget (manifest : Manifest) (disable : EmergencyDisable) : Checked Unit := do
  if trim disable.targetId = "" then throw .missingEmergencyDisableTargetId
  if trim disable.reason = "" then throw .missingEmergencyDisableReason
  match disable.target with
  | .composition =>
    if disable.targetId ∉ manifest.compositions.map CompositionDef.id then
      throw (.unknownEmergencyDisableComposition disable.targetId)
  | .artifact =>
    if tables.toLowercase disable.targetId ∉ declaredArtifactTargets tables manifest.artifacts then
      throw (.unknownEmergencyDisableArtifact disable.targetId)

def validateDisables (manifest : Manifest) (seen : List String) :
    List EmergencyDisable → Checked Unit
  | [] => .ok ()
  | disable :: disables => do
    validateDisableTexts disable
    if disable.id ∈ seen then throw (.duplicateEmergencyDisableId disable.id)
    validateDisableTarget tables manifest disable
    validateDisables manifest (disable.id :: seen) disables

/-- `validate_manifest`; `timestamp` is whether a text is a date and time of RFC 3339. -/
def validateManifest (timestamp : String → Bool) (manifest : Manifest) : Checked Unit := do
  if manifest.schemaVersion ≠ performanceManifestSchemaVersion then throw .unsupportedSchema
  validateText manifest.generatedAt 64 "generated_at"
  if !timestamp manifest.generatedAt then throw (.manifestBound "generated_at")
  validateText manifest.minimumAppVersion 64 "minimum_app_version"
  validateText manifest.ruleChannel 32 "rule_channel"
  validateCount manifest.artifacts.length maxManifestItems "artifact count"
  validateCount manifest.compositions.length maxManifestItems "composition count"
  validateCount manifest.emergencyDisables.length maxManifestItems "emergency disable count"
  validateAppVersionCompatibility manifest.minimumAppVersion
  validateRuleChannel manifest.ruleChannel
  validateArtifacts tables [] manifest.artifacts
  checkDistinct validateComposition CompositionDef.id
    (fun composition => .duplicateCompositionId composition.id) [] manifest.compositions
  manifest.compositions.forM fun composition =>
    composition.mods.forM (validateManagedModArtifact tables manifest.artifacts)
  validateDisables tables manifest [] manifest.emergencyDisables

end Axial.Performance
