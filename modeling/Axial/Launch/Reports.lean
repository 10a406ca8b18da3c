/-
This file embeds the terminal report of a launch and what the durable boundary makes of it: every
text is checked as a token, a version or a detail and replaced where it fails, times are put in
one form, and the logs are redacted again and cut to their share of a report.
-/

import Axial.Launch.CrashEvidence
import Axial.Launch.LogCollector

namespace Axial.Launch.Terminal

open Bytes Axial.Minecraft Crash

/-! ### What is linked -/

/-- The times, which are read and written to the millisecond, the numbers with a point, and the
text of JSON. A time that is written in twenty-four bytes is read as it was. -/
structure Formats where
  Instant : Type
  parse : String → Option Instant
  format : Instant → String
  parse_format : ∀ instant, (format instant).utf8ByteSize = 24 → parse (format instant) =
    some instant
  Percent : Type
  percentEq : DecidableEq Percent
  /-- A difference as a part of a baseline, in percent. -/
  percent : Int → Nat → Percent
  isFinite : Percent → Bool
  finite : ∀ delta baseline, 0 < baseline → isFinite (percent delta baseline) = true
  evidenceText : CrashEvidence → String

instance (formats : Formats) : DecidableEq formats.Percent := formats.percentEq

/-! ### Records -/

inductive ReportError where
  | invalid
  | tooLarge
  | conflictingSession
  | storage
  deriving DecidableEq

inductive FailureClass where
  | unknown
  | jvmUnsupportedOption
  | jvmExperimentalUnlock
  | jvmOptionOrdering
  | javaRuntimeMismatch
  | rosettaRequired
  | outOfMemory
  | graphicsUnavailable
  | graphicsDriverCrash
  | missingDependency
  | modTransformationFailure
  | modAttributedCrash
  | classpathModuleConflict
  | launcherManagedArtifactSignature
  | authModeIncompatible
  | loaderBootstrapFailure
  | startupStalled
  deriving DecidableEq

inductive SessionOutcomeKind where
  | clean
  | stopped
  | failed
  | unknown
  deriving DecidableEq

inductive SessionExitReason where
  | spawnFailed
  | cleanExit
  | externalUserClosed
  | launcherStopped
  | startupStalled
  | startupFailed
  | crashedBeforeBoot
  | crashedAfterBoot
  | unknownExit
  deriving DecidableEq

structure SessionOutcome where
  kind : SessionOutcomeKind
  reason : SessionExitReason
  failureClass : Option FailureClass
  summary : String
  deriving DecidableEq

namespace SessionOutcome

/-- `summary`, which does not look at the field of that name. -/
def summaryOf (reason : SessionExitReason) (failureClass : Option FailureClass) : String :=
  if reason = .startupFailed ∧ failureClass = some .graphicsUnavailable then
    "The game could not create a window because OpenGL is unavailable."
  else match reason with
    | .spawnFailed => "The game process could not be started."
    | .cleanExit => "The game closed normally."
    | .externalUserClosed => "The game was closed outside the launcher after startup."
    | .launcherStopped => "The game was stopped from the launcher."
    | .startupStalled => "Game startup did not complete."
    | .startupFailed => "The game could not finish starting."
    | .crashedBeforeBoot => "The game exited unexpectedly during startup."
    | .crashedAfterBoot => "The game exited unexpectedly after startup."
    | .unknownExit => "The game exited without enough evidence to classify the result."

/-- The outcome with the text that belongs to it. -/
def summarised (outcome : SessionOutcome) : SessionOutcome :=
  { outcome with summary := summaryOf outcome.reason outcome.failureClass }

@[simp] theorem summarised_summarised (outcome : SessionOutcome) :
    outcome.summarised.summarised = outcome.summarised := rfl

end SessionOutcome

structure LaunchProofStageEvidence where
  id : String
  system : String
  summary : String
  details : List String
  deriving DecidableEq

structure LaunchProofStage where
  stage : String
  label : String
  startedAtMs : UInt64
  endedAtMs : Option UInt64
  durationMs : Option UInt64
  result : Option String
  warnings : List String
  fallbackReason : Option String
  evidence : List LaunchProofStageEvidence
  deriving DecidableEq

structure LaunchProofScenario where
  scenarioId : String
  performanceMode : String
  requestedMemoryMb : Option Int32
  versionId : Option String
  benchmarkProfile : Option String
  benchmarkRunType : Option String
  benchmarkMode : Option String
  benchmarkId : Option String
  deriving DecidableEq

structure LaunchProofDevice where
  tier : String
  totalMemoryMb : Option UInt64
  cpuThreads : Option UInt64
  deriving DecidableEq

structure LaunchProofResourceBudget where
  hostTotalMemoryMb : Option UInt64
  hostAvailableMemoryMb : Option UInt64
  hostUsedMemoryMb : Option UInt64
  hostCpuThreads : Option UInt64
  hostCpuLoad1mX100 : Option UInt64
  hostCpuLoad5mX100 : Option UInt64
  hostCpuLoad15mX100 : Option UInt64
  launcherProcessMemoryMb : Option UInt64
  activeSessionCount : UInt64
  activeInstallCount : UInt64
  activeMemoryAllocationMb : UInt64
  requestedMemoryMb : Option Int32
  estimatedRemainingMemoryMb : Option Int64
  memoryHeadroomMb : UInt64
  memoryPressure : Bool
  cpuPressure : Bool
  installPressure : Bool
  launchDiskAvailableMb : Option UInt64
  launchDiskHeadroomMb : UInt64
  diskPressure : Bool
  deriving DecidableEq

structure LaunchProofComparisonBaseline where
  performanceMode : String
  versionId : String
  requestedMemoryMb : Option Int32
  deviceTier : String
  benchmarkProfile : Option String
  benchmarkRunType : Option String
  benchmarkMode : Option String
  deriving DecidableEq

section Formats

variable (formats : Formats)

structure LaunchProofComparison where
  baselineSessionId : String
  baselineRecordedAt : String
  baseline : LaunchProofComparisonBaseline
  matchedSampleCount : Nat
  metricName : String
  currentValueMs : UInt64
  baselineValueMs : UInt64
  deltaMs : Int64
  deltaPercent : formats.Percent
  deriving DecidableEq

structure LaunchProofRecord where
  schema : String
  schemaVersion : Nat
  sessionId : String
  instanceId : String
  versionId : String
  launchedAt : String
  recordedAt : String
  outcome : String
  sessionOutcome : SessionOutcome
  scenario : LaunchProofScenario
  device : LaunchProofDevice
  resourceBudget : Option LaunchProofResourceBudget
  exitCode : Option Int32
  bootDurationMs : Option UInt64
  crashEvidence : Option CrashEvidence
  stages : List LaunchProofStage
  comparison : Option (LaunchProofComparison formats)
  logs : List LogEntry
  logsDropped : UInt64
  deriving DecidableEq

end Formats

def outcomeName (outcome : SessionOutcome) : String :=
  match outcome.kind with
  | .clean => "exited"
  | .stopped => "stopped"
  | .failed => "failed"
  | .unknown => "unknown"

/-! ### Texts -/

abbrev maxReportBytes : Nat := 256 * 1024

def tokenChar (char : Char) : Bool :=
  char.isAlphanum || char = '_' || char = '.' || char = '-' || char = '+'

def validReportId (value : String) : Bool :=
  value ≠ "" && value.utf8ByteSize ≤ 96 &&
    value.toList.all fun char => char.isAlphanum || char = '_' || char = '-'

def safeToken (value : String) (redactor : Redactor) : Option String :=
  if value ≠ "" ∧ value.utf8ByteSize ≤ 96 ∧ value.toList.all tokenChar ∧
      redactor.redactLine value = value then some value
  else none

def isLoaderId (value : String) : Bool :=
  installedVersionIdPrefix.toList.isPrefixOf value.toList

def safeVersionId (value : String) (redactor : Redactor) : Option String :=
  if ¬isLoaderId value then safeToken value redactor
  else match decodeInstalledVersionId value with
    | .error _ => none
    | .ok identity =>
      if redactor.containsSecret value.toList then none
      else if redactor.redactLine identity.minecraftVersion = identity.minecraftVersion ∧
          redactor.redactLine identity.loaderVersion = identity.loaderVersion then some value
      else none

def safeDetail (value : String) (redactor : Redactor) : Option String :=
  let safe := redactor.redactLine value
  if safe = value ∧ safe.toList.length ≤ 180 then some safe else none

def scenarioIdForPerformanceMode (performanceMode : String) : String :=
  let mode := trim performanceMode
  if mode = "managed" then "managed_launch"
  else if mode = "vanilla" then "vanilla_launch"
  else if mode = "custom" then "custom_launch"
  else "unknown_launch"

section Formats

variable (formats : Formats)

def canonicalTime (value : String) : Except ReportError String :=
  match formats.parse value with
  | none => .error .invalid
  | some instant =>
    if (formats.format instant).utf8ByteSize = 24 then .ok (formats.format instant)
    else .error .invalid

def metricDeltaMs (currentValueMs baselineValueMs : UInt64) : Int64 :=
  if baselineValueMs ≤ currentValueMs then
    Int64.ofInt (min (currentValueMs.toNat - baselineValueMs.toNat : Nat) (2 ^ 63 - 1))
  else Int64.ofInt (-min (baselineValueMs.toNat - currentValueMs.toNat : Nat) (2 ^ 63 - 1))

def launchStageComparisonMetricName : String := "total_completed_stage_duration_ms"
def launchBootComparisonMetricName : String := "boot_duration_ms"

/-! ### Sanitising -/

def sanitizeScenario (redactor : Redactor) (scenario : LaunchProofScenario) :
    LaunchProofScenario :=
  let performanceMode := (safeToken scenario.performanceMode redactor).getD "unknown"
  { scenario with
    performanceMode
    scenarioId := scenarioIdForPerformanceMode performanceMode
    versionId := scenario.versionId.bind (safeVersionId · redactor)
    benchmarkProfile := scenario.benchmarkProfile.bind (safeToken · redactor)
    benchmarkRunType := scenario.benchmarkRunType.bind (safeToken · redactor)
    benchmarkMode := scenario.benchmarkMode.bind (safeToken · redactor)
    benchmarkId := scenario.benchmarkId.bind (safeToken · redactor) }

def sanitizeEvidence (redactor : Redactor) (evidence : LaunchProofStageEvidence) :
    Option LaunchProofStageEvidence := do
  return {
    id := ← safeToken evidence.id redactor
    system := ← safeToken evidence.system redactor
    summary := ← safeDetail evidence.summary redactor
    details := (evidence.details.filterMap (safeDetail · redactor)).take 4 }

def sanitizeStage (redactor : Redactor) (stage : LaunchProofStage) :
    Except ReportError LaunchProofStage :=
  if stage.endedAtMs.any fun ended => decide (ended < stage.startedAtMs) then .error .invalid
  else .ok { stage with
    stage := (safeToken stage.stage redactor).getD "unknown"
    label := (safeDetail stage.label redactor).getD "Launch stage"
    result := stage.result.bind (safeToken · redactor)
    fallbackReason := stage.fallbackReason.bind (safeDetail · redactor)
    warnings := (stage.warnings.filterMap (safeDetail · redactor)).take 8
    evidence := (stage.evidence.filterMap (sanitizeEvidence redactor)).take 4
    durationMs := stage.endedAtMs.map fun ended => ended - stage.startedAtMs }

def redactEntry (redactor : Redactor) (entry : LogEntry) : LogEntry :=
  { entry with
    truncated := entry.truncated || decide (maxLogLineChars < entry.text.toList.length)
    text := redactor.redactLine entry.text }

/-- The loop that redacts the entries and checks their order. -/
def redactEntries (redactor : Redactor) : Nat → List LogEntry → Except ReportError (List LogEntry)
  | _, [] => .ok []
  | previous, entry :: rest =>
    if entry.sequence ≤ previous then .error .invalid
    else do
      let rest ← redactEntries redactor entry.sequence rest
      return redactEntry redactor entry :: rest

/-- What the entries count for in a report. -/
def logBytes (entries : List LogEntry) : Nat :=
  (entries.map fun entry => entry.text.utf8ByteSize + 100).sum

/-- The loop that drops the oldest entries beyond the share of a report. -/
def dropBytes : List LogEntry → List LogEntry
  | [] => []
  | entry :: rest =>
    if maxReportBytes / 3 < logBytes (entry :: rest) then dropBytes rest else entry :: rest

def keptEntries (entries : List LogEntry) : List LogEntry :=
  dropBytes (entries.drop (entries.length - maxLogEntries))

def saturatingAdd (first : UInt64) (second : Nat) : UInt64 :=
  UInt64.ofNat (min (first.toNat + second) (2 ^ 64 - 1))

def sanitizeBaseline (redactor : Redactor) (baseline : LaunchProofComparisonBaseline) :
    Option LaunchProofComparisonBaseline := do
  return { baseline with
    versionId := ← safeVersionId baseline.versionId redactor
    performanceMode := ← safeToken baseline.performanceMode redactor
    deviceTier := ← safeToken baseline.deviceTier redactor
    benchmarkProfile := baseline.benchmarkProfile.bind (safeToken · redactor)
    benchmarkRunType := baseline.benchmarkRunType.bind (safeToken · redactor)
    benchmarkMode := baseline.benchmarkMode.bind (safeToken · redactor) }

variable {formats}

def sanitizeComparison (sessionId : String) (redactor : Redactor)
    (comparison : LaunchProofComparison formats) :
    Except ReportError (LaunchProofComparison formats) :=
  if ¬validReportId comparison.baselineSessionId ∨ comparison.baselineSessionId = sessionId ∨
      redactor.containsSecret comparison.baselineSessionId.toList ∨
      comparison.baselineValueMs = 0 ∨ comparison.matchedSampleCount = 0 ∨
      ¬formats.isFinite comparison.deltaPercent ∨
      comparison.metricName ∉ [launchBootComparisonMetricName, launchStageComparisonMetricName] then
    .error .invalid
  else do
    let baselineRecordedAt ← canonicalTime formats comparison.baselineRecordedAt
    match sanitizeBaseline redactor comparison.baseline with
    | none => throw .invalid
    | some baseline =>
      let deltaMs := metricDeltaMs comparison.currentValueMs comparison.baselineValueMs
      return { comparison with
        baselineRecordedAt, baseline, deltaMs
        deltaPercent := formats.percent deltaMs.toInt comparison.baselineValueMs.toNat }

def sanitizeReport (report : LaunchProofRecord formats) (redactor : Redactor) :
    Except ReportError (LaunchProofRecord formats) := do
  if report.schema ≠ "axial.launch.proof" ∨ report.schemaVersion ≠ 4 ∨
      ¬validReportId report.sessionId ∨ ¬validReportId report.instanceId ∨
      redactor.containsSecret report.sessionId.toList ∨
      redactor.containsSecret report.instanceId.toList then
    throw .invalid
  let launchedAt ← canonicalTime formats report.launchedAt
  let recordedAt ← canonicalTime formats report.recordedAt
  if recordedAt < launchedAt then throw .invalid
  let stages ← (report.stages.take 32).mapM (sanitizeStage redactor)
  let crashEvidence := report.crashEvidence.filter fun evidence =>
    !redactor.containsSecret (formats.evidenceText evidence).toList
  let entries ← redactEntries redactor 0 report.logs
  let logs := keptEntries entries
  let comparison ← report.comparison.mapM (sanitizeComparison report.sessionId redactor)
  return { report with
    launchedAt, recordedAt
    versionId := (safeVersionId report.versionId redactor).getD "unknown"
    outcome := outcomeName report.sessionOutcome
    sessionOutcome := report.sessionOutcome.summarised
    scenario := sanitizeScenario redactor report.scenario
    device := { report.device with
      tier := (safeToken report.device.tier redactor).getD "unknown" }
    stages, crashEvidence, logs
    logsDropped := saturatingAdd report.logsDropped (entries.length - logs.length)
    comparison }

end Formats

end Axial.Launch.Terminal
