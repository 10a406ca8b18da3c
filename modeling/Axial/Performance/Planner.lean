/-
This file models the planner of `core/performance/src/resolve/planner.rs`: which
composition of managed mods an instance gets, and which of its mods. Emergency
disables are meant to take out a composition, or every mod of an artifact. They do
take out compositions; a mod they take out where its spelling of the artifact and
theirs differ from the artifact's own in the case of ASCII letters only, while a
manifest is accepted with any Unicode case.
-/

import Axial.Performance.Manifest

namespace Axial.Performance

open Fallible
open Axial.Fs (eqIgnoreAsciiCase)
open Axial.Minecraft (trim)

/-! ### Requests and plans -/

structure HardwareProfile where
  totalRamMb : Int
  logicalCores : Int
  gpuVendor : String
  gpuArch : Int

structure ResolutionRequest where
  gameVersion : String
  loader : String
  mode : PerformanceMode
  hardware : HardwareProfile
  installedMods : List String

structure CompositionPlan where
  compositionId : String
  family : VersionFamily
  loader : String
  mode : PerformanceMode
  tier : CompositionTier
  mods : List ManagedMod
  jvmPreset : String
  warnings : List String
  fallbackReason : String

/-- `eq_ignore_ascii_case`. -/
def sameAsciiCase (first second : String) : Bool := eqIgnoreAsciiCase first.toList second.toList

variable (tables : UnicodeTables)

def classifyVersion (mcVersion : String) : VersionFamily :=
  match parseVersion tables mcVersion with
  | none => .F
  | some version =>
    if version.isSnapshot then .F
    else if compareReleaseVersion tables version 1 6 0 = .lt then .A
    else if compareReleaseVersion tables version 1 7 10 ≠ .gt then .B
    else if compareReleaseVersion tables version 1 12 2 ≠ .gt then .C
    else if compareReleaseVersion tables version 1 15 2 ≠ .gt then .D
    else if compareReleaseVersion tables version 1 20 1 ≠ .gt then .E
    else .F

def normalizeLoader (loader : String) : String :=
  let trimmed := tables.toLowercase (trim loader)
  if trimmed = "" then "vanilla" else trimmed

def vanillaEnhancedPlan (family : VersionFamily) (loader : String) (mode : PerformanceMode) :
    CompositionPlan where
  compositionId := ""
  family
  loader
  mode
  tier := .vanillaEnhanced
  mods := []
  jvmPreset := ""
  warnings := []
  fallbackReason := ""

/-! ### Disables -/

def disableApplies (disable : EmergencyDisable) (family : VersionFamily) (loader : String)
    (tier : CompositionTier) : Bool :=
  (disable.families = [] || decide (family ∈ disable.families)) &&
    (disable.loaders = [] || disable.loaders.any fun candidate => sameAsciiCase candidate loader) &&
    (disable.tiers = [] || decide (tier ∈ disable.tiers))

def activeCompositionDisable (manifest : Manifest) (definition : CompositionDef)
    (family : VersionFamily) (loader : String) : Option EmergencyDisable :=
  manifest.emergencyDisables.find? fun disable =>
    disable.target = .composition && disable.targetId = definition.id &&
      disableApplies disable family loader definition.tier

def artifactTargetMatches (manifest : Manifest) (disable : EmergencyDisable)
    (managedMod : ManagedMod) : Bool :=
  match manifest.artifacts.find? fun artifact =>
      sameAsciiCase artifact.id managedMod.artifactId with
  | none => false
  | some artifact =>
    sameAsciiCase disable.targetId artifact.id || sameAsciiCase disable.targetId artifact.projectId

def activeArtifactDisable (manifest : Manifest) (managedMod : ManagedMod)
    (family : VersionFamily) (loader : String) (tier : CompositionTier) :
    Option EmergencyDisable :=
  manifest.emergencyDisables.find? fun disable =>
    disable.target = .artifact && artifactTargetMatches manifest disable managedMod &&
      disableApplies disable family loader tier

/-! ### Mods -/

def satisfiesHardware (managedMod : ManagedMod) (hardware : HardwareProfile) : Bool × String :=
  match managedMod.hardwareReq with
  | none => (true, "")
  | some requirement =>
    if requirement.gpuVendor ≠ "" && !sameAsciiCase hardware.gpuVendor requirement.gpuVendor then
      if sameAsciiCase requirement.gpuVendor "nvidia" then
        (false, managedMod.slug ++ " skipped: no NVIDIA Turing+ GPU detected")
      else (false, managedMod.slug ++ " skipped: unsupported GPU vendor")
    else if requirement.gpuArchMin > 0 && hardware.gpuArch < requirement.gpuArchMin then
      (false, managedMod.slug ++ " skipped: no NVIDIA Turing+ GPU detected")
    else if requirement.minRamMb > 0 && hardware.totalRamMb < requirement.minRamMb then
      (false, managedMod.slug ++ " skipped: not enough system RAM")
    else if requirement.minCores > 0 && hardware.logicalCores < requirement.minCores then
      (false, managedMod.slug ++ " skipped: not enough CPU cores")
    else (true, "")

/-- Whether the range and the list of versions of a mod admit the game version. -/
def versionAdmits (managedMod : ManagedMod) (gameVersion : String) : Bool :=
  (managedMod.exactGameVersions = [] ||
      managedMod.exactGameVersions.any fun candidate => candidate = gameVersion) &&
    (trim managedMod.versionRange = "" ||
      (parseVersion tables gameVersion).any fun version =>
        versionInRange tables version managedMod.versionRange)

def shouldIncludeMod (managedMod : ManagedMod) (gameVersion : String)
    (hardware : HardwareProfile) (installed : List String) : Bool × String :=
  if !versionAdmits tables managedMod gameVersion then (false, "")
  else if managedMod.condition = .recommend then (false, "")
  else
    match satisfiesHardware managedMod hardware with
    | (false, warning) => (false, warning)
    | (true, _) =>
      match managedMod.mutualExclusions.find? fun exclusion =>
          tables.toLowercase exclusion ∈ installed with
      | some exclusion =>
        (false, managedMod.slug ++ " skipped: incompatible with managed mod " ++ exclusion)
      | none => (true, "")

/-! ### Warnings -/

def pushUniqueWarning (warnings : List String) (warning : String) : List String :=
  if warning ∈ warnings then warnings else warnings ++ [warning]

def compositionDisableWarning (disable : EmergencyDisable) (compositionId : String) : String :=
  compositionId ++ " skipped by emergency disable " ++ disable.id ++ ": " ++ disable.reason

def artifactDisableWarning (disable : EmergencyDisable) (managedMod : ManagedMod) : String :=
  managedMod.slug ++ " skipped by emergency disable " ++ disable.id ++ ": " ++ disable.reason

/-! ### Plans -/

/-- What has been found of a composition: its mods, all warnings, those of mods left out. -/
structure ActiveMods where
  mods : List ManagedMod
  warnings : List String
  inactiveWarnings : List String

/-- A manifest and a request that is to be planned by it. -/
structure Planning where
  manifest : Manifest
  request : ResolutionRequest

namespace Planning

variable (planning : Planning)

def family : VersionFamily := classifyVersion tables planning.request.gameVersion

def loader : String := normalizeLoader tables planning.request.loader

def installedSet : List String := planning.request.installedMods.map tables.toLowercase

def matchingCompositions (tier : CompositionTier) : List CompositionDef :=
  planning.manifest.compositions.filter fun definition =>
    definition.tier = tier && decide (planning.family tables ∈ definition.families) &&
      definition.loaders.any fun candidate => sameAsciiCase candidate (planning.loader tables)

def considerMod (tier : CompositionTier) (active : ActiveMods) (managedMod : ManagedMod) :
    ActiveMods :=
  match activeArtifactDisable planning.manifest managedMod (planning.family tables)
      (planning.loader tables) tier with
  | some disable =>
    let warning := artifactDisableWarning disable managedMod
    { active with
      warnings := pushUniqueWarning active.warnings warning
      inactiveWarnings := pushUniqueWarning active.inactiveWarnings warning }
  | none =>
    let (included, warning) := shouldIncludeMod tables managedMod planning.request.gameVersion
      planning.request.hardware (planning.installedSet tables)
    { mods := if included then active.mods ++ [managedMod] else active.mods
      warnings :=
        if warning = "" then active.warnings else pushUniqueWarning active.warnings warning
      inactiveWarnings :=
        if warning = "" then active.inactiveWarnings
        else pushUniqueWarning active.inactiveWarnings warning }

def activeMods (definition : CompositionDef) (warnings : List String) : ActiveMods :=
  definition.mods.foldl (planning.considerMod tables definition.tier)
    { mods := [], warnings, inactiveWarnings := [] }

/-- The plan of a composition that is not disabled, if it has mods enough; and otherwise the
warnings and the reason that the search goes on with. -/
def considerComposition (definition : CompositionDef) (fallback : List String × String) :
    CompositionPlan ⊕ (List String × String) :=
  let active := planning.activeMods tables definition fallback.1
  if 2 ≤ active.mods.length ∨ definition.tier = .vanillaEnhanced then
    .inl
      { compositionId := definition.id, family := planning.family tables
        loader := planning.loader tables, mode := planning.request.mode, tier := definition.tier
        mods := active.mods, jvmPreset := definition.jvmPreset, warnings := active.warnings
        fallbackReason := fallback.2 }
  else
    .inr (pushUniqueWarning (active.inactiveWarnings.foldl pushUniqueWarning fallback.1)
        (definition.id ++
          " skipped: not enough compatible performance mods for this instance"),
      if fallback.2 = "" then
        "A faster performance bundle is not compatible with this instance, so Axial chose a safer option."
      else fallback.2)

/-- The loop over the compositions. -/
def searchCompositions (fallback : List String × String) :
    List CompositionDef → CompositionPlan ⊕ (List String × String)
  | [] => .inr fallback
  | definition :: definitions =>
    match activeCompositionDisable planning.manifest definition (planning.family tables)
        (planning.loader tables) with
    | some disable =>
      searchCompositions
        (pushUniqueWarning fallback.1 (compositionDisableWarning disable definition.id),
          if fallback.2 = "" then
            "A faster performance bundle is temporarily unavailable, so Axial chose the safest available option."
          else fallback.2) definitions
    | none =>
      match planning.considerComposition tables definition fallback with
      | .inl plan => .inl plan
      | .inr fallback => searchCompositions fallback definitions

def tiers : List CompositionTier := [.extended, .core, .vanillaEnhanced]

def candidates : List CompositionDef := tiers.flatMap (planning.matchingCompositions tables)

def resolve : CompositionPlan :=
  match planning.searchCompositions tables ([], "") (planning.candidates tables) with
  | .inl plan => plan
  | .inr (warnings, reason) =>
    { vanillaEnhancedPlan (planning.family tables) (planning.loader tables)
        planning.request.mode with
      warnings
      fallbackReason :=
        if warnings = [] then ""
        else if reason = "" then
          "Managed performance bundles are temporarily unavailable, so Axial will only tune launcher settings."
        else reason }

end Planning

def resolvePlan (manifest : Option Manifest) (request : ResolutionRequest) : CompositionPlan :=
  let family := classifyVersion tables request.gameVersion
  let loader := normalizeLoader tables request.loader
  if request.mode = .vanilla ∨ request.mode = .custom then
    vanillaEnhancedPlan family loader request.mode
  else
    match manifest with
    | none => vanillaEnhancedPlan family loader request.mode
    | some manifest => Planning.resolve tables { manifest, request }

end Axial.Performance
