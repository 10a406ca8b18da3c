/-
This file embeds the comparison of a report with earlier ones. What it takes from reports that have
been sanitised passes the checks again, so that the comparison stays as it is when the report that
it belongs to is sanitised.
-/

import Axial.Launch.ReportSanitising

namespace Axial.Launch.Terminal

open Axial.Minecraft List

variable {formats : Formats}

/-! ### Comparing -/

def normalizedDimension (value : String) : Option String :=
  let value := trim value
  if value = "" ∨ value = "unknown" then none else some value

def requiredDimensionsMatch (left right : String) : Bool :=
  match normalizedDimension left, normalizedDimension right with
  | some left, some right => left = right
  | _, _ => false

def optionalBenchmarkDimensionsMatch (left right : Option String) : Bool :=
  match left.bind normalizedDimension, right.bind normalizedDimension with
  | some left, some right => left = right
  | none, none => true
  | _, _ => false

def launchProofOutcomeIsComparable (outcome : String) : Bool := outcome = "exited"

namespace LaunchProofRecord

variable (report : LaunchProofRecord formats)

def knownLaunchMode : Option String :=
  (normalizedDimension report.scenario.performanceMode).filter fun mode =>
    mode ∈ ["managed", "vanilla", "custom"] &&
      requiredDimensionsMatch report.scenario.scenarioId (scenarioIdForPerformanceMode mode)

def normalizedVersionTarget : Option String :=
  (report.scenario.versionId.bind normalizedDimension).or (normalizedDimension report.versionId)

/-- `launch_total_completed_stage_duration_ms` -/
def totalCompletedStageDurationMs : Option UInt64 :=
  let durations := report.stages.filterMap fun stage => stage.endedAtMs.map fun ended =>
    stage.durationMs.getD (if ended < stage.startedAtMs then 0 else ended - stage.startedAtMs)
  if durations.isEmpty then none
  else some (durations.foldl (fun total duration => saturatingAdd total duration.toNat) 0)

end LaunchProofRecord

def launchModesAreComparable (current candidate : LaunchProofRecord formats) : Bool :=
  match current.knownLaunchMode, candidate.knownLaunchMode with
  | some "managed", some mode => mode = "vanilla" || mode = "managed"
  | some "vanilla", some mode => mode = "vanilla"
  | some "custom", some mode => mode = "custom"
  | _, _ => false

def requiredVersionTargetsMatch (current candidate : LaunchProofRecord formats) : Bool :=
  match current.normalizedVersionTarget, candidate.normalizedVersionTarget with
  | some current, some candidate => current = candidate
  | _, _ => false

def comparisonDimensionsMatch (current candidate : LaunchProofRecord formats) : Bool :=
  let scenario := current.scenario
  let other := candidate.scenario
  current.sessionId ≠ candidate.sessionId &&
    launchModesAreComparable current candidate &&
    requiredVersionTargetsMatch current candidate &&
    scenario.requestedMemoryMb = other.requestedMemoryMb &&
    requiredDimensionsMatch current.device.tier candidate.device.tier &&
    (optionalBenchmarkDimensionsMatch scenario.benchmarkProfile other.benchmarkProfile ||
      (current.knownLaunchMode = some "managed" && candidate.knownLaunchMode = some "vanilla" &&
        scenario.benchmarkProfile = some "managed_default" &&
        other.benchmarkProfile = some "vanilla_baseline" &&
        scenario.benchmarkMode ∈ [some "qualification", some "release_validation"])) &&
    optionalBenchmarkDimensionsMatch scenario.benchmarkRunType other.benchmarkRunType &&
    optionalBenchmarkDimensionsMatch scenario.benchmarkMode other.benchmarkMode

def reportPrecedes (candidate current : LaunchProofRecord formats) : Bool :=
  candidate.recordedAt < current.recordedAt ||
    candidate.recordedAt = current.recordedAt && candidate.sessionId < current.sessionId

def comparisonBaselineModeRank (current candidate : LaunchProofRecord formats) : Nat :=
  if current.knownLaunchMode = some "managed" ∧ candidate.knownLaunchMode = some "vanilla" then 0
  else 1

abbrev Metric (formats : Formats) : Type :=
  String × UInt64 × (LaunchProofRecord formats → Option UInt64)

def launchComparisonMetricForCurrent (current : LaunchProofRecord formats) :
    Option (Metric formats) :=
  match current.bootDurationMs with
  | some boot => some (launchBootComparisonMetricName, boot, (·.bootDurationMs))
  | none => current.totalCompletedStageDurationMs.map fun total =>
    (launchStageComparisonMetricName, total, (·.totalCompletedStageDurationMs))

def comparisonBaselineSnapshot (report : LaunchProofRecord formats) :
    Option LaunchProofComparisonBaseline := do
  return {
    performanceMode := ← report.knownLaunchMode
    versionId := ← report.normalizedVersionTarget
    requestedMemoryMb := report.scenario.requestedMemoryMb
    deviceTier := ← normalizedDimension report.device.tier
    benchmarkProfile := report.scenario.benchmarkProfile.bind normalizedDimension
    benchmarkRunType := report.scenario.benchmarkRunType.bind normalizedDimension
    benchmarkMode := report.scenario.benchmarkMode.bind normalizedDimension }

/-- The candidates that a report is compared with, with their values. -/
def comparisonMatches (current : LaunchProofRecord formats)
    (metricValue : LaunchProofRecord formats → Option UInt64)
    (candidates : List (LaunchProofRecord formats)) :
    List (LaunchProofRecord formats × UInt64) :=
  candidates.filterMap fun candidate =>
    if reportPrecedes candidate current && launchProofOutcomeIsComparable candidate.outcome &&
        comparisonDimensionsMatch current candidate then
      ((metricValue candidate).filter fun value => decide (0 < value)).map (candidate, ·)
    else none

/-- Whether a candidate comes first: by its mode, then the latest. -/
def baselineFirst (current : LaunchProofRecord formats)
    (left right : LaunchProofRecord formats × UInt64) : Bool :=
  let leftRank := comparisonBaselineModeRank current left.1
  let rightRank := comparisonBaselineModeRank current right.1
  leftRank < rightRank || leftRank = rightRank &&
    (right.1.recordedAt < left.1.recordedAt || right.1.recordedAt = left.1.recordedAt &&
      right.1.sessionId ≤ left.1.sessionId)

def buildComparisonFromCandidates (current : LaunchProofRecord formats)
    (candidates : List (LaunchProofRecord formats)) : Option (LaunchProofComparison formats) :=
  if ¬launchProofOutcomeIsComparable current.outcome then none
  else do
    let (metricName, currentValueMs, metricValue) ← launchComparisonMetricForCurrent current
    let matched := comparisonMatches current metricValue candidates
    let (baseline, baselineValueMs) ←
      (matched.insertionSort fun left right => baselineFirst current left right).head?
    let deltaMs := metricDeltaMs currentValueMs baselineValueMs
    return {
      baselineSessionId := baseline.sessionId
      baselineRecordedAt := baseline.recordedAt
      baseline := ← comparisonBaselineSnapshot baseline
      matchedSampleCount := matched.length
      metricName, currentValueMs, baselineValueMs, deltaMs
      deltaPercent := formats.percent deltaMs.toInt baselineValueMs.toNat }

/-! ### Texts that have passed -/

variable {char : Char}

theorem isWhitespace_of_tokenChar (token : tokenChar char = true) : isWhitespace char = false := by
  simp only [tokenChar, Bool.or_eq_true, decide_eq_true_eq] at token
  rcases token with (((letter | rfl) | rfl) | rfl) | rfl
  · exact isWhitespace_of_isAlphanum letter
  iterate 4 decide

theorem isWhitespace_of_plain (plain : Base64.plain char = true) : isWhitespace char = false := by
  simp only [Base64.plain, Bool.or_eq_true, decide_eq_true_eq] at plain
  rcases plain with (letter | rfl) | rfl
  · exact isWhitespace_of_isAlphanum letter
  iterate 2 decide

variable {value : String} {redactor : Redactor}

theorem safeToken_plain {token : String} (safe : safeToken value redactor = some token) :
    ∀ char ∈ value.toList, isWhitespace char = false := by
  unfold safeToken at safe
  split at safe
  · rename_i passes
    exact fun char member =>
      isWhitespace_of_tokenChar (all_eq_true.mp passes.2.2.1 char member)
  · cases safe

variable {version : String}

/-- A version that passes has no white space. -/
theorem safeVersionId_plain (safe : safeVersionId value redactor = some version) :
    ∀ char ∈ value.toList, isWhitespace char = false := by
  unfold safeVersionId at safe
  split at safe
  · exact safeToken_plain safe
  · split at safe
    · cases safe
    · rename_i identity decoded
      obtain ⟨spelling, _⟩ := versionId_eq (versionId_of_decode decoded)
      intro char member
      rw [spelling] at member
      exact isWhitespace_of_plain (plain_of_mem member)

variable {dimension : String}

theorem normalizedDimension_eq (plain : ∀ char ∈ value.toList, isWhitespace char = false)
    (normalized : normalizedDimension value = some dimension) : dimension = value := by
  unfold normalizedDimension at normalized
  rw [trim_eq_self plain] at normalized
  dsimp only at normalized
  split at normalized
  · cases normalized
  · exact (Option.some.inj normalized).symm

theorem normalizedDimension_token (safe : safeToken value noSecrets = some value)
    (normalized : normalizedDimension value = some dimension) :
    safeToken dimension noSecrets = some dimension := by
  rw [normalizedDimension_eq (safeToken_plain safe) normalized]
  exact safe

theorem normalizedDimension_version (safe : safeVersionId value noSecrets = some value)
    (normalized : normalizedDimension value = some dimension) :
    safeVersionId dimension noSecrets = some dimension := by
  rw [normalizedDimension_eq (safeVersionId_plain safe) normalized]
  exact safe

/-! ### A report after it has been sanitised -/

/-- The texts of a scenario have passed. -/
structure LaunchProofScenario.Passed (scenario : LaunchProofScenario) : Prop where
  performanceMode : safeToken scenario.performanceMode noSecrets = some scenario.performanceMode
  scenarioId : scenario.scenarioId = scenarioIdForPerformanceMode scenario.performanceMode
  versionId : ∀ version ∈ scenario.versionId, safeVersionId version noSecrets = some version
  benchmarkProfile : ∀ profile ∈ scenario.benchmarkProfile,
    safeToken profile noSecrets = some profile
  benchmarkRunType : ∀ runType ∈ scenario.benchmarkRunType,
    safeToken runType noSecrets = some runType
  benchmarkMode : ∀ mode ∈ scenario.benchmarkMode, safeToken mode noSecrets = some mode
  benchmarkId : ∀ id ∈ scenario.benchmarkId, safeToken id noSecrets = some id

theorem Keeps.passed {α : Type} {safe again : α → Option α} (keeps : Keeps safe again)
    {value : Option α} : ∀ kept ∈ value.bind safe, again kept = some kept := by
  intro kept member
  obtain ⟨text, _, passes⟩ := Option.bind_eq_some_iff.mp member
  exact keeps _ _ passes

theorem sanitizeScenario_passed (scenario : LaunchProofScenario) :
    (sanitizeScenario noSecrets scenario).Passed := by
  have tokens := safeToken_again noSecrets
  have mode := tokens.getD safeToken_unknown scenario.performanceMode
  unfold sanitizeScenario
  constructor
  · exact mode
  · rfl
  · exact (safeVersionId_again noSecrets).passed
  · exact tokens.passed
  · exact tokens.passed
  · exact tokens.passed
  · exact tokens.passed

/-- What a comparison takes from an earlier report has passed. -/
structure Candidate (report : LaunchProofRecord formats) : Prop where
  sessionId : validReportId report.sessionId = true
  recordedAt : Canonical formats report.recordedAt
  versionId : safeVersionId report.versionId noSecrets = some report.versionId
  scenario : report.scenario.Passed
  tier : safeToken report.device.tier noSecrets = some report.device.tier

theorem sanitizeReport_candidate {report candidate : LaunchProofRecord formats}
    (sanitised : sanitizeReport report noSecrets = .ok candidate) : Candidate candidate := by
  obtain ⟨_, _, _, _, accepted, rfl⟩ := sanitizeReport_eq_ok.mp sanitised
  unfold Terminal.sanitised
  constructor
  · exact accepted.sessionId
  · exact canonicalTime_canonical accepted.recorded
  · exact (safeVersionId_again noSecrets).getD safeVersionId_unknown report.versionId
  · exact sanitizeScenario_passed report.scenario
  · exact (safeToken_again noSecrets).getD safeToken_unknown report.device.tier

/-! ### A comparison that is built -/

theorem knownLaunchMode_passed {report : LaunchProofRecord formats} (candidate : Candidate report)
    {mode : String} (known : report.knownLaunchMode = some mode) :
    safeToken mode noSecrets = some mode := by
  obtain ⟨normalized, _⟩ := Option.filter_eq_some_iff.mp known
  exact normalizedDimension_token candidate.scenario.performanceMode normalized

theorem normalizedVersionTarget_passed {report : LaunchProofRecord formats}
    (candidate : Candidate report) (target : report.normalizedVersionTarget = some version) :
    safeVersionId version noSecrets = some version := by
  rcases Option.or_eq_some_iff.mp target with own | ⟨_, reported⟩
  · obtain ⟨value, there, normalized⟩ := Option.bind_eq_some_iff.mp own
    exact normalizedDimension_version (candidate.scenario.versionId value there) normalized
  · exact normalizedDimension_version candidate.versionId reported

theorem bind_dimension {value : Option String}
    (passed : ∀ some ∈ value, safeToken some noSecrets = Option.some some) :
    ∀ dimension ∈ value.bind normalizedDimension,
      safeToken dimension noSecrets = some dimension := by
  intro dimension member
  obtain ⟨text, there, normalized⟩ := Option.bind_eq_some_iff.mp member
  exact normalizedDimension_token (passed text there) normalized

theorem bind_passes {value : Option String}
    (passed : ∀ some ∈ value, safeToken some noSecrets = Option.some some) :
    value.bind (safeToken · noSecrets) = value := by
  cases value with
  | none => rfl
  | some text => exact passed text rfl

/-- The texts of a baseline have passed. -/
structure LaunchProofComparisonBaseline.Passed (baseline : LaunchProofComparisonBaseline) :
    Prop where
  performanceMode : safeToken baseline.performanceMode noSecrets = some baseline.performanceMode
  versionId : safeVersionId baseline.versionId noSecrets = some baseline.versionId
  deviceTier : safeToken baseline.deviceTier noSecrets = some baseline.deviceTier
  benchmarkProfile : ∀ profile ∈ baseline.benchmarkProfile,
    safeToken profile noSecrets = some profile
  benchmarkRunType : ∀ runType ∈ baseline.benchmarkRunType,
    safeToken runType noSecrets = some runType
  benchmarkMode : ∀ mode ∈ baseline.benchmarkMode, safeToken mode noSecrets = some mode

variable {baseline : LaunchProofComparisonBaseline}

theorem comparisonBaselineSnapshot_passed {report : LaunchProofRecord formats}
    (candidate : Candidate report) (taken : comparisonBaselineSnapshot report = some baseline) :
    baseline.Passed := by
  unfold comparisonBaselineSnapshot at taken
  obtain ⟨mode, known, taken⟩ := Option.bind_eq_some_iff.mp taken
  obtain ⟨version, target, taken⟩ := Option.bind_eq_some_iff.mp taken
  obtain ⟨tier, normalized, taken⟩ := Option.bind_eq_some_iff.mp taken
  obtain rfl := Option.some.inj taken
  exact ⟨knownLaunchMode_passed candidate known, normalizedVersionTarget_passed candidate target,
    normalizedDimension_token candidate.tier normalized,
    bind_dimension candidate.scenario.benchmarkProfile,
    bind_dimension candidate.scenario.benchmarkRunType,
    bind_dimension candidate.scenario.benchmarkMode⟩

theorem LaunchProofComparisonBaseline.Passed.sanitizeBaseline_eq (passed : baseline.Passed) :
    sanitizeBaseline noSecrets baseline = some baseline := by
  unfold sanitizeBaseline
  rw [passed.versionId, passed.performanceMode, passed.deviceTier,
    bind_passes passed.benchmarkProfile, bind_passes passed.benchmarkRunType,
    bind_passes passed.benchmarkMode]
  rfl

/-- What a comparison that is built is made of. -/
structure Compared (current : LaunchProofRecord formats)
    (candidates : List (LaunchProofRecord formats))
    (comparison : LaunchProofComparison formats) : Prop where
  baseline : ∃ report ∈ candidates, comparisonDimensionsMatch current report = true ∧
    comparison.baselineSessionId = report.sessionId ∧
    comparison.baselineRecordedAt = report.recordedAt ∧
    comparisonBaselineSnapshot report = some comparison.baseline
  positive : 0 < comparison.baselineValueMs
  some : 0 < comparison.matchedSampleCount
  counted : comparison.matchedSampleCount ≤ candidates.length
  metric : comparison.metricName ∈ [launchBootComparisonMetricName, launchStageComparisonMetricName]
  delta : comparison.deltaMs =
    metricDeltaMs comparison.currentValueMs comparison.baselineValueMs
  percent : comparison.deltaPercent =
    formats.percent comparison.deltaMs.toInt comparison.baselineValueMs.toNat

variable {candidates : List (LaunchProofRecord formats)}
  {comparison : LaunchProofComparison formats} {current : LaunchProofRecord formats}

theorem buildComparison_compared
    (built : buildComparisonFromCandidates current candidates = some comparison) :
    Compared current candidates comparison := by
  unfold buildComparisonFromCandidates at built
  split at built
  · cases built
  obtain ⟨⟨metricName, currentValueMs, metricValue⟩, metric, built⟩ :=
    Option.bind_eq_some_iff.mp built
  obtain ⟨⟨report, baselineValueMs⟩, first, built⟩ := Option.bind_eq_some_iff.mp built
  obtain ⟨baseline, taken, built⟩ := Option.bind_eq_some_iff.mp built
  obtain rfl := Option.some.inj built
  have member : (report, baselineValueMs) ∈ comparisonMatches current metricValue candidates :=
    (mem_insertionSort _).mp (mem_of_mem_head? first)
  obtain ⟨candidate, inside, matched⟩ := mem_filterMap.mp member
  split at matched
  · rename_i passes
    rw [Bool.and_eq_true, Bool.and_eq_true] at passes
    obtain ⟨value, filtered, same⟩ := Option.map_eq_some_iff.mp matched
    obtain ⟨rfl, rfl⟩ := Prod.mk.inj same
    refine ⟨⟨candidate, inside, passes.2, rfl, rfl, taken⟩,
      of_decide_eq_true (Option.filter_eq_some_iff.mp filtered).2,
      length_pos_of_mem member, length_filterMap_le _ _, ?_, rfl, rfl⟩
    unfold launchComparisonMetricForCurrent at metric
    split at metric
    · obtain ⟨rfl, _⟩ := Prod.mk.inj (Option.some.inj metric)
      exact mem_cons_self
    · obtain ⟨total, _, same⟩ := Option.map_eq_some_iff.mp metric
      obtain ⟨rfl, _⟩ := Prod.mk.inj same
      exact mem_cons_of_mem _ mem_cons_self
  · cases matched

theorem Compared.passed (compared : Compared current candidates comparison)
    (passed : ∀ candidate ∈ candidates, Candidate candidate) : comparison.baseline.Passed := by
  obtain ⟨report, inside, _, _, _, taken⟩ := compared.baseline
  exact comparisonBaselineSnapshot_passed (passed report inside) taken

/-- A comparison with sanitised reports stays as it is. -/
theorem Compared.stable (compared : Compared current candidates comparison)
    (passed : ∀ candidate ∈ candidates, Candidate candidate) :
    sanitizeComparison current.sessionId noSecrets comparison = .ok comparison := by
  obtain ⟨report, inside, dimensions, sessionId, recordedAt, _⟩ := compared.baseline
  have candidate := passed report inside
  have other : comparison.baselineSessionId ≠ current.sessionId := by
    intro same
    simp only [comparisonDimensionsMatch, Bool.and_eq_true, decide_eq_true_eq] at dimensions
    exact dimensions.1.1.1.1.1.1.1 (same.symm.trans sessionId)
  have positive : 0 < comparison.baselineValueMs.toNat := compared.positive
  have valid : ¬(¬validReportId comparison.baselineSessionId ∨
      comparison.baselineSessionId = current.sessionId ∨
      noSecrets.containsSecret comparison.baselineSessionId.toList ∨
      comparison.baselineValueMs = 0 ∨ comparison.matchedSampleCount = 0 ∨
      ¬formats.isFinite comparison.deltaPercent ∨
      comparison.metricName ∉
        [launchBootComparisonMetricName, launchStageComparisonMetricName]) := by
    rw [containsSecret_noSecrets, compared.percent, formats.finite _ _ positive, sessionId,
      candidate.sessionId]
    have nonzero : comparison.baselineValueMs ≠ 0 := by
      intro zero
      rw [zero] at positive
      exact absurd positive (by decide)
    have counted := compared.some.ne'
    have metric := compared.metric
    rw [sessionId] at other
    simp only [not_true_eq_false, other, nonzero, counted, metric, or_self, not_false_eq_true,
      Bool.false_eq_true]
  have canonical : canonicalTime formats comparison.baselineRecordedAt =
      .ok comparison.baselineRecordedAt := by
    rw [recordedAt]
    exact candidate.recordedAt
  unfold sanitizeComparison
  rw [if_neg valid, canonical, (compared.passed passed).sanitizeBaseline_eq]
  show Except.ok _ = Except.ok _
  rw [← compared.delta, ← compared.percent]

end Axial.Launch.Terminal
