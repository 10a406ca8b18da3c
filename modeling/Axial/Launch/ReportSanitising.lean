/-
This file shows what sanitising a report again does to it. Every text that is checked, the times,
the stages, the comparison and the number of entries stay as they are. Only a line of the log may
change: what is shown of it is checked again, and may look sensitive only now, or end in a blank.
-/

import Axial.Launch.Reports

namespace Axial.Launch.Terminal

open Words Axial.Minecraft Crash List Fallible

/-- What the durable boundary redacts with. -/
abbrev noSecrets : Redactor := .new []

theorem containsSecret_noSecrets (value : List Char) : noSecrets.containsSecret value = false := rfl

/-! ### Lines -/

/-- A line that is replaced by a marker, or of which what is shown passes the checks again and does
not end in a blank. -/
def Settles (redactor : Redactor) (line : String) : Prop :=
  maxRawLineBytes < line.utf8ByteSize ∨ redactor.withholds line = true ∨
    noSecrets.Presentable line.toList

/-- What the source writes itself passes the checks. -/
theorem own_texts_settle :
    (noSecrets.redactLine redactedLine = redactedLine ∧
      noSecrets.redactLine oversizedLine = oversizedLine ∧
      logTextLooksSensitive redactedLine.toList = false) ∧
    safeToken "unknown" noSecrets = some "unknown" ∧
      safeVersionId "unknown" noSecrets = some "unknown" ∧
      safeDetail "Launch stage" noSecrets = some "Launch stage" := by
  decide +kernel

theorem redactLine_redactedLine : noSecrets.redactLine redactedLine = redactedLine :=
  own_texts_settle.1.1

theorem redactLine_oversizedLine : noSecrets.redactLine oversizedLine = oversizedLine :=
  own_texts_settle.1.2.1

theorem redactedLine_insensitive : logTextLooksSensitive redactedLine.toList = false :=
  own_texts_settle.1.2.2

theorem withholds_noSecrets {redactor : Redactor} {line : String}
    (passed : redactor.withholds line = false) : noSecrets.withholds line = false := by
  rw [Redactor.withholds_eq_false] at passed ⊢
  exact ⟨rfl, passed.2⟩

theorem shown_small (line : List Char) :
    ¬maxRawLineBytes < (String.ofList (Redactor.shown line)).utf8ByteSize := by
  have size := Redactor.utf8ByteSize_le (Redactor.shown line)
  have length := Redactor.length_shown_le line
  have limits : 4 * maxLogLineChars ≤ maxRawLineBytes := by decide
  omega

/-- What is shown of a line is clean if it is left as it is. -/
theorem clean_of_redactLine {line : List Char}
    (again : noSecrets.redactLine (String.ofList (Redactor.shown line)) =
      String.ofList (Redactor.shown line)) :
    noSecrets.Clean (String.ofList (Redactor.shown line)) := by
  refine ⟨rfl, Bool.eq_false_of_not_eq_true fun sensitive => ?_, again⟩
  have withheld : noSecrets.withholds (String.ofList (Redactor.shown line)) = true := by
    rw [Redactor.withholds, sensitive, Bool.or_true]
  rw [Redactor.redactLine, if_neg (shown_small line), if_pos withheld] at again
  rw [← again, redactedLine_insensitive] at sensitive
  cases sensitive

/-- A line is left as it is by a second redaction exactly if it settles. -/
theorem redactLine_again_iff (redactor : Redactor) (line : String) :
    noSecrets.redactLine (redactor.redactLine line) = redactor.redactLine line ↔
      Settles redactor line := by
  unfold Settles
  by_cases oversized : maxRawLineBytes < line.utf8ByteSize
  · rw [Redactor.redactLine.eq_def redactor, if_pos oversized]
    exact iff_of_true redactLine_oversizedLine (.inl oversized)
  · rw [Redactor.redactLine.eq_def redactor, if_neg oversized]
    cases passes : redactor.withholds line with
    | true =>
      rw [if_pos rfl]
      exact iff_of_true redactLine_redactedLine (.inr (.inl rfl))
    | false =>
      rw [if_neg Bool.false_ne_true, ← Redactor.clean_shown_iff (withholds_noSecrets passes)]
      constructor
      · exact fun again => .inr (.inr (clean_of_redactLine again))
      · rintro (large | withheld | clean)
        · exact absurd large oversized
        · cases withheld
        · exact clean.again

variable {value : String}

/-- A text that a redactor leaves as it is, one without secrets does too. -/
theorem redactLine_noSecrets {redactor : Redactor} (same : redactor.redactLine value = value) :
    noSecrets.redactLine value = value := by
  unfold Redactor.redactLine at same
  split at same
  · rw [← same]
    exact redactLine_oversizedLine
  · rename_i small
    split at same
    · rw [← same]
      exact redactLine_redactedLine
    · rename_i passes
      have passed := withholds_noSecrets (Bool.eq_false_of_not_eq_true passes)
      rw [Redactor.redactLine, if_neg small, if_neg (by rw [passed]; exact Bool.false_ne_true)]
      exact same

theorem length_redactLine (redactor : Redactor) (line : String) :
    (redactor.redactLine line).toList.length ≤ maxLogLineChars := by
  unfold Redactor.redactLine
  split
  · decide
  · split
    · decide
    · rw [String.toList_ofList]
      exact Redactor.length_shown_le _

/-! ### Texts that are kept -/

/-- What one check keeps, another keeps too, and neither changes it. -/
def Keeps {α : Type} (safe again : α → Option α) : Prop :=
  ∀ value kept, safe value = some kept → again kept = some kept

theorem safeToken_again (redactor : Redactor) :
    Keeps (safeToken · redactor) (safeToken · noSecrets) := by
  intro value kept safe
  dsimp only [safeToken] at safe
  split at safe
  · rename_i passes
    obtain rfl := Option.some.inj safe
    exact if_pos ⟨passes.1, passes.2.1, passes.2.2.1, redactLine_noSecrets passes.2.2.2⟩
  · cases safe

theorem safeVersionId_again (redactor : Redactor) :
    Keeps (safeVersionId · redactor) (safeVersionId · noSecrets) := by
  intro value kept safe
  dsimp only [safeVersionId] at safe
  split at safe
  · rename_i plain
    have same := safeToken_again redactor _ _ safe
    obtain rfl : kept = value := by
      dsimp only [safeToken] at safe
      split at safe
      · exact (Option.some.inj safe).symm
      · cases safe
    dsimp only [safeVersionId]
    rw [if_pos plain]
    exact same
  · rename_i loader
    split at safe
    · cases safe
    · rename_i identity decoded
      split at safe
      · cases safe
      · split at safe
        · rename_i coordinates
          obtain rfl := Option.some.inj safe
          dsimp only [safeVersionId]
          rw [if_neg loader, decoded]
          dsimp only
          rw [containsSecret_noSecrets, if_neg Bool.false_ne_true]
          exact if_pos ⟨redactLine_noSecrets coordinates.1, redactLine_noSecrets coordinates.2⟩
        · cases safe

theorem safeDetail_again (redactor : Redactor) :
    Keeps (safeDetail · redactor) (safeDetail · noSecrets) := by
  intro value kept safe
  dsimp only [safeDetail] at safe
  split at safe
  · rename_i passes
    obtain ⟨same, short⟩ := passes
    rw [same] at short safe
    obtain rfl := Option.some.inj safe
    have again := redactLine_noSecrets same
    dsimp only [safeDetail]
    rw [again]
    exact if_pos ⟨rfl, short⟩
  · cases safe

theorem safeToken_unknown : safeToken "unknown" noSecrets = some "unknown" := own_texts_settle.2.1

theorem safeVersionId_unknown : safeVersionId "unknown" noSecrets = some "unknown" :=
  own_texts_settle.2.2.1

theorem safeDetail_label : safeDetail "Launch stage" noSecrets = some "Launch stage" :=
  own_texts_settle.2.2.2

section Keeps

variable {α : Type} {safe again : α → Option α}

/-- A text that is kept or replaced is kept afterwards. -/
theorem Keeps.getD (keeps : Keeps safe again) {fallback : α}
    (falls : again fallback = some fallback) (value : α) :
    again ((safe value).getD fallback) = some ((safe value).getD fallback) := by
  cases found : safe value with
  | none => exact falls
  | some kept => exact keeps _ _ found

theorem Keeps.bind (keeps : Keeps safe again) (value : Option α) :
    (value.bind safe).bind again = value.bind safe := by
  cases found : value.bind safe with
  | none => rfl
  | some kept =>
    obtain ⟨text, _, safe⟩ := Option.bind_eq_some_iff.mp found
    exact keeps _ _ safe

/-- A list of what is kept, cut to a length, stays as it is. -/
theorem Keeps.filterMap (keeps : Keeps safe again) (count : Nat) (values : List α) :
    (((values.filterMap safe).take count).filterMap again).take count =
      (values.filterMap safe).take count := by
  have kept : ∀ value ∈ (values.filterMap safe).take count, again value = some value := by
    intro value member
    obtain ⟨text, _, safe⟩ := mem_filterMap.mp (mem_of_mem_take member)
    exact keeps _ _ safe
  rw [filterMap_congr kept, filterMap_some, take_take, min_self]

end Keeps

/-! ### Records -/

theorem sanitizeScenario_again (redactor : Redactor) (scenario : LaunchProofScenario) :
    sanitizeScenario noSecrets (sanitizeScenario redactor scenario) =
      sanitizeScenario redactor scenario := by
  have tokens := safeToken_again redactor
  have mode := tokens.getD safeToken_unknown scenario.performanceMode
  simp only [sanitizeScenario, mode, Option.getD_some, tokens.bind,
    (safeVersionId_again redactor).bind]

theorem sanitizeEvidence_again (redactor : Redactor) :
    Keeps (sanitizeEvidence redactor) (sanitizeEvidence noSecrets) := by
  intro evidence kept safe
  obtain ⟨id, tokenId, safe⟩ := Option.bind_eq_some_iff.mp safe
  obtain ⟨system, tokenSystem, safe⟩ := Option.bind_eq_some_iff.mp safe
  obtain ⟨summary, detail, safe⟩ := Option.bind_eq_some_iff.mp safe
  obtain rfl := Option.some.inj safe
  have tokenId := safeToken_again redactor _ _ tokenId
  have tokenSystem := safeToken_again redactor _ _ tokenSystem
  have detail := safeDetail_again redactor _ _ detail
  dsimp only at tokenId tokenSystem detail
  rw [sanitizeEvidence, tokenId, tokenSystem, detail, (safeDetail_again redactor).filterMap]
  rfl

theorem sanitizeStage_again {redactor : Redactor} {stage kept : LaunchProofStage}
    (sanitised : sanitizeStage redactor stage = .ok kept) :
    sanitizeStage noSecrets kept = .ok kept := by
  unfold sanitizeStage at sanitised
  split at sanitised
  · cases sanitised
  · rename_i ordered
    obtain rfl := Except.ok.inj sanitised
    have tokens := safeToken_again redactor
    have details := safeDetail_again redactor
    have name := tokens.getD safeToken_unknown stage.stage
    have label := details.getD safeDetail_label stage.label
    unfold sanitizeStage
    rw [if_neg ordered]
    dsimp only at name label ⊢
    rw [name, label, tokens.bind, details.bind, details.filterMap,
      (sanitizeEvidence_again redactor).filterMap]
    rfl

theorem sanitizeBaseline_again (redactor : Redactor) :
    Keeps (sanitizeBaseline redactor) (sanitizeBaseline noSecrets) := by
  intro baseline kept safe
  obtain ⟨version, versionId, safe⟩ := Option.bind_eq_some_iff.mp safe
  obtain ⟨mode, tokenMode, safe⟩ := Option.bind_eq_some_iff.mp safe
  obtain ⟨tier, tokenTier, safe⟩ := Option.bind_eq_some_iff.mp safe
  obtain rfl := Option.some.inj safe
  have tokens := safeToken_again redactor
  have versionId := safeVersionId_again redactor _ _ versionId
  have tokenMode := tokens _ _ tokenMode
  have tokenTier := tokens _ _ tokenTier
  dsimp only at versionId tokenMode tokenTier
  rw [sanitizeBaseline, versionId, tokenMode, tokenTier, tokens.bind, tokens.bind, tokens.bind]
  rfl

variable {formats : Formats}

/-- A time that is in the one form. -/
def Canonical (formats : Formats) (time : String) : Prop := canonicalTime formats time = .ok time

variable {time : String}

theorem canonicalTime_canonical (canonical : canonicalTime formats value = .ok time) :
    Canonical formats time := by
  unfold canonicalTime at canonical
  split at canonical
  · cases canonical
  · rename_i instant _
    split at canonical
    · rename_i size
      obtain rfl := Except.ok.inj canonical
      unfold Canonical canonicalTime
      rw [formats.parse_format instant size]
      exact if_pos size
    · cases canonical

theorem Canonical.size (canonical : Canonical formats time) : time.utf8ByteSize = 24 := by
  unfold Canonical canonicalTime at canonical
  split at canonical
  · cases canonical
  · split at canonical
    · rename_i size
      obtain rfl := Except.ok.inj canonical
      exact size
    · cases canonical

variable {sessionId : String} {kept : LaunchProofComparison formats}

/-- The number of samples is kept, and the difference is a number. -/
theorem sanitizeComparison_number {redactor : Redactor} {comparison : LaunchProofComparison formats}
    (sanitised : sanitizeComparison sessionId redactor comparison = .ok kept) :
    kept.matchedSampleCount = comparison.matchedSampleCount ∧
      formats.isFinite kept.deltaPercent = true := by
  unfold sanitizeComparison at sanitised
  split at sanitised
  · cases sanitised
  rename_i valid
  obtain ⟨recordedAt, _, sanitised⟩ := bind_eq_ok.mp sanitised
  split at sanitised
  · cases sanitised
  obtain rfl := Except.ok.inj sanitised
  simp only [not_or] at valid
  refine ⟨rfl, formats.finite _ _ (Nat.pos_of_ne_zero fun zero => valid.2.2.2.1 ?_)⟩
  exact UInt64.toNat_inj.mp zero

theorem sanitizeComparison_again {redactor : Redactor} {comparison : LaunchProofComparison formats}
    (sanitised : sanitizeComparison sessionId redactor comparison = .ok kept) :
    sanitizeComparison sessionId noSecrets kept = .ok kept := by
  unfold sanitizeComparison at sanitised
  split at sanitised
  · cases sanitised
  rename_i valid
  obtain ⟨recordedAt, canonical, sanitised⟩ := bind_eq_ok.mp sanitised
  split at sanitised
  · cases sanitised
  rename_i baseline passes
  obtain rfl := Except.ok.inj sanitised
  simp only [not_or, not_not] at valid
  obtain ⟨session, other, _, positive, counted, _, metric⟩ := valid
  have nonzero : 0 < comparison.baselineValueMs.toNat := by
    refine Nat.pos_of_ne_zero fun zero => positive ?_
    exact UInt64.toNat_inj.mp zero
  unfold sanitizeComparison
  rw [if_neg]
  · rw [canonicalTime_canonical canonical, sanitizeBaseline_again redactor _ _ passes]
    rfl
  · simp only [session, other, containsSecret_noSecrets, positive, counted, metric,
      formats.finite _ _ nonzero, not_true_eq_false, not_false_eq_true, Bool.false_eq_true, or_self]

/-! ### Entries -/

/-- The entries of a report that is sanitised, as they were: the last ones that it has room for. -/
def retainedLogs (redactor : Redactor) (logs : List LogEntry) : List LogEntry :=
  logs.drop (logs.length - (keptEntries (logs.map (redactEntry redactor))).length)

variable {entries : List LogEntry}

theorem redactEntries_eq_ok {redactor : Redactor} {redacted : List LogEntry} {previous : Nat} :
    redactEntries redactor previous entries = .ok redacted ↔
      redacted = entries.map (redactEntry redactor) ∧
        (entries.Pairwise fun first second => first.sequence < second.sequence) ∧
        ∀ entry ∈ entries, previous < entry.sequence := by
  induction entries generalizing previous redacted with
  | nil =>
    rw [redactEntries, Except.ok.injEq, map_nil]
    exact ⟨fun same => ⟨same.symm, .nil, nofun⟩, fun ⟨same, _⟩ => same.symm⟩
  | cons entry rest ih =>
    rw [redactEntries, map_cons, pairwise_cons, forall_mem_cons]
    split
    · rename_i late
      exact ⟨nofun, fun ⟨_, _, later, _⟩ => absurd later (Nat.not_lt_of_le late)⟩
    · rename_i later
      rw [bind_eq_ok]
      constructor
      · rintro ⟨others, rest, same⟩
        obtain ⟨rfl, ordered, following⟩ := ih.mp rest
        obtain rfl := Except.ok.inj same
        exact ⟨rfl, ⟨following, ordered⟩, Nat.lt_of_not_le later, fun other member =>
          (Nat.lt_of_not_le later).trans (following other member)⟩
      · rintro ⟨rfl, ⟨following, ordered⟩, _⟩
        exact ⟨_, ih.mpr ⟨rfl, ordered, following⟩, rfl⟩

theorem dropBytes_suffix (entries : List LogEntry) : dropBytes entries <:+ entries := by
  induction entries with
  | nil => exact suffix_rfl
  | cons entry rest ih =>
    rw [dropBytes]
    split
    · exact ih.trans (suffix_cons _ _)
    · exact suffix_rfl

theorem dropBytes_le (entries : List LogEntry) :
    logBytes (dropBytes entries) ≤ maxReportBytes / 3 := by
  induction entries with
  | nil => exact Nat.zero_le _
  | cons entry rest ih =>
    rw [dropBytes]
    split
    · exact ih
    · rename_i fits
      exact Nat.le_of_not_lt fits

theorem dropBytes_of_le (fits : logBytes entries ≤ maxReportBytes / 3) :
    dropBytes entries = entries := by
  cases entries with
  | nil => rfl
  | cons entry rest => rw [dropBytes, if_neg (Nat.not_lt_of_le fits)]

theorem keptEntries_suffix (entries : List LogEntry) : keptEntries entries <:+ entries :=
  (dropBytes_suffix _).trans (drop_suffix _ _)

theorem keptEntries_again (entries : List LogEntry) :
    keptEntries (keptEntries entries) = keptEntries entries := by
  have few : (keptEntries entries).length ≤ maxLogEntries := by
    refine (dropBytes_suffix _).length_le.trans ?_
    rw [length_drop]
    omega
  have none : (keptEntries entries).length - maxLogEntries = 0 := by omega
  rw [keptEntries, none, drop_zero]
  exact dropBytes_of_le (dropBytes_le _)

theorem keptEntries_map (redactor : Redactor) (logs : List LogEntry) :
    keptEntries (logs.map (redactEntry redactor)) =
      (retainedLogs redactor logs).map (redactEntry redactor) := by
  have kept := suffix_iff_eq_drop.mp (keptEntries_suffix (logs.map (redactEntry redactor)))
  rw [length_map] at kept
  rw [retainedLogs, map_drop]
  exact kept

theorem redactEntry_again_iff (redactor : Redactor) (entry : LogEntry) :
    redactEntry noSecrets (redactEntry redactor entry) = redactEntry redactor entry ↔
      Settles redactor entry.text := by
  have short := decide_eq_false (Nat.not_lt_of_le (length_redactLine redactor entry.text))
  rw [← redactLine_again_iff]
  constructor
  · exact fun same => congrArg LogEntry.text same
  · intro same
    unfold redactEntry
    dsimp only
    rw [same, short, Bool.or_false]

/-- The entries that are kept stay as they are exactly if their lines settle. -/
theorem keptEntries_again_iff (redactor : Redactor) (logs : List LogEntry) :
    keptEntries ((keptEntries (logs.map (redactEntry redactor))).map (redactEntry noSecrets)) =
        keptEntries (logs.map (redactEntry redactor)) ↔
      ∀ entry ∈ retainedLogs redactor logs, Settles redactor entry.text := by
  constructor
  · intro same entry member
    -- A suffix that is as long as the whole is the whole.
    have whole := (keptEntries_suffix _).eq_of_length
      ((congrArg List.length same).trans (length_map (redactEntry noSecrets)).symm)
    rw [whole, keptEntries_map, map_map, map_inj_left] at same
    exact (redactEntry_again_iff redactor entry).mp (same entry member)
  · intro settle
    have same : (keptEntries (logs.map (redactEntry redactor))).map (redactEntry noSecrets) =
        keptEntries (logs.map (redactEntry redactor)) := by
      rw [keptEntries_map, map_map, map_inj_left]
      exact fun entry member => (redactEntry_again_iff redactor entry).mpr (settle entry member)
    rw [same, keptEntries_again]

theorem saturatingAdd_zero (value : UInt64) : saturatingAdd value 0 = value := by
  have small := value.toNat_lt
  rw [saturatingAdd, Nat.add_zero, min_eq_left (by omega), UInt64.ofNat_toNat]

/-! ### Reports -/

/-- What sanitising a report makes of it, where it is accepted. -/
def sanitised (redactor : Redactor) (report : LaunchProofRecord formats)
    (launchedAt recordedAt : String) (stages : List LaunchProofStage) (comparison : Option (LaunchProofComparison formats)) :
    LaunchProofRecord formats :=
  let entries := report.logs.map (redactEntry redactor)
  { report with
    launchedAt, recordedAt
    versionId := (safeVersionId report.versionId redactor).getD "unknown"
    outcome := outcomeName report.sessionOutcome
    sessionOutcome := report.sessionOutcome.summarised
    scenario := sanitizeScenario redactor report.scenario
    device := { report.device with
      tier := (safeToken report.device.tier redactor).getD "unknown" }
    stages
    crashEvidence := report.crashEvidence.filter fun evidence =>
      !redactor.containsSecret (formats.evidenceText evidence).toList
    logs := keptEntries entries
    logsDropped := saturatingAdd report.logsDropped (entries.length - (keptEntries entries).length)
    comparison }

/-- What a report is accepted for. -/
structure Accepted (redactor : Redactor) (report : LaunchProofRecord formats)
    (launchedAt recordedAt : String) (stages : List LaunchProofStage)
    (comparison : Option (LaunchProofComparison formats)) : Prop where
  schema : report.schema = "axial.launch.proof"
  schemaVersion : report.schemaVersion = 4
  sessionId : validReportId report.sessionId = true
  instanceId : validReportId report.instanceId = true
  secretSession : ¬redactor.containsSecret report.sessionId.toList
  secretInstance : ¬redactor.containsSecret report.instanceId.toList
  launched : canonicalTime formats report.launchedAt = .ok launchedAt
  recorded : canonicalTime formats report.recordedAt = .ok recordedAt
  inOrder : ¬recordedAt < launchedAt
  staged : (report.stages.take 32).mapM (sanitizeStage redactor) = .ok stages
  ordered : report.logs.Pairwise fun first second => first.sequence < second.sequence
  numbered : ∀ entry ∈ report.logs, 0 < entry.sequence
  compared : report.comparison.mapM (sanitizeComparison report.sessionId redactor) =
    .ok comparison

theorem sanitizeReport_eq_ok {report kept : LaunchProofRecord formats} {redactor : Redactor} :
    sanitizeReport report redactor = .ok kept ↔
      ∃ launchedAt recordedAt stages comparison,
        Accepted redactor report launchedAt recordedAt stages comparison ∧
          kept = sanitised redactor report launchedAt recordedAt stages comparison := by
  unfold sanitizeReport
  rw [guard_eq_ok]
  simp only [not_or, not_not]
  constructor
  · rintro ⟨⟨schema, schemaVersion, sessionId, instanceId, secretSession, secretInstance⟩, rest⟩
    obtain ⟨launchedAt, launched, rest⟩ := bind_eq_ok.mp rest
    obtain ⟨recordedAt, recorded, rest⟩ := bind_eq_ok.mp rest
    obtain ⟨inOrder, rest⟩ := guard_eq_ok.mp rest
    obtain ⟨stages, staged, rest⟩ := bind_eq_ok.mp rest
    obtain ⟨entries, redacted, rest⟩ := bind_eq_ok.mp rest
    obtain ⟨comparison, compared, rest⟩ := bind_eq_ok.mp rest
    obtain ⟨rfl, ordered, numbered⟩ := redactEntries_eq_ok.mp redacted
    exact ⟨launchedAt, recordedAt, stages, comparison, ⟨schema, schemaVersion, sessionId,
      instanceId, secretSession, secretInstance, launched, recorded, inOrder, staged, ordered,
      numbered, compared⟩, (pure_eq_ok.mp rest).symm⟩
  · rintro ⟨launchedAt, recordedAt, stages, comparison, accepted, rfl⟩
    refine ⟨⟨accepted.schema, accepted.schemaVersion, accepted.sessionId, accepted.instanceId,
      accepted.secretSession, accepted.secretInstance⟩, ?_⟩
    exact bind_eq_ok.mpr ⟨_, accepted.launched, bind_eq_ok.mpr ⟨_,
      accepted.recorded, guard_eq_ok.mpr ⟨accepted.inOrder, bind_eq_ok.mpr ⟨_,
        accepted.staged, bind_eq_ok.mpr ⟨_, redactEntries_eq_ok.mpr ⟨rfl,
          accepted.ordered, accepted.numbered⟩, bind_eq_ok.mpr ⟨_, accepted.compared,
            rfl⟩⟩⟩⟩⟩⟩

theorem mapM_stages {redactor : Redactor} {stages kept : List LaunchProofStage}
    (sanitised : stages.mapM (sanitizeStage redactor) = .ok kept) :
    kept.mapM (sanitizeStage noSecrets) = .ok kept ∧ kept.length = stages.length := by
  induction stages generalizing kept with
  | nil =>
    obtain rfl := pure_eq_ok.mp sanitised
    exact ⟨rfl, rfl⟩
  | cons stage rest ih =>
    rw [mapM_cons] at sanitised
    obtain ⟨first, passed, sanitised⟩ := bind_eq_ok.mp sanitised
    obtain ⟨others, later, sanitised⟩ := bind_eq_ok.mp sanitised
    obtain rfl := pure_eq_ok.mp sanitised
    obtain ⟨again, length⟩ := ih later
    refine ⟨?_, by rw [length_cons, length_cons, length]⟩
    rw [mapM_cons, sanitizeStage_again passed, again]
    rfl

theorem exists_of_mapM {First Second : Type} {make : First → Except ReportError Second}
    {value : Option First} {kept : Option Second} (made : value.mapM make = .ok kept)
    {result : Second} (member : result ∈ kept) : ∃ input ∈ value, make input = .ok result := by
  cases value with
  | none =>
    obtain rfl := pure_eq_ok.mp made
    cases member
  | some input =>
    rw [Option.mapM_some] at made
    obtain ⟨first, here, made⟩ := bind_eq_ok.mp made
    obtain rfl := pure_eq_ok.mp made
    exact ⟨input, rfl, Option.mem_some.mp member ▸ here⟩

theorem mapM_comparison {redactor : Redactor}
    {comparison kept : Option (LaunchProofComparison formats)}
    (sanitised : comparison.mapM (sanitizeComparison sessionId redactor) = .ok kept) :
    kept.mapM (sanitizeComparison sessionId noSecrets) = .ok kept := by
  cases comparison with
  | none =>
    obtain rfl := pure_eq_ok.mp sanitised
    rfl
  | some comparison =>
    rw [Option.mapM_some] at sanitised
    obtain ⟨first, passed, sanitised⟩ := bind_eq_ok.mp sanitised
    obtain rfl := pure_eq_ok.mp sanitised
    rw [Option.mapM_some, sanitizeComparison_again passed]
    rfl

section Again

variable (redactor : Redactor) (report : LaunchProofRecord formats)
  (launchedAt recordedAt : String) (stages : List LaunchProofStage)
  (comparison : Option (LaunchProofComparison formats))

theorem sanitised_logs :
    (sanitised redactor report launchedAt recordedAt stages comparison).logs =
      keptEntries (report.logs.map (redactEntry redactor)) := by
  rw [sanitised]

variable {redactor report launchedAt recordedAt stages comparison} in
/-- A report that has been sanitised is accepted again, with the same times, stages and
comparison. -/
theorem Accepted.again
    (accepted : Accepted redactor report launchedAt recordedAt stages comparison) :
    Accepted noSecrets (sanitised redactor report launchedAt recordedAt stages comparison)
      launchedAt recordedAt stages comparison := by
  obtain ⟨staged, length⟩ := mapM_stages accepted.staged
  have few : stages.take 32 = stages := by
    refine take_of_length_le ?_
    rw [length]
    exact length_take_le _ _
  have kept : keptEntries (report.logs.map (redactEntry redactor)) <:+
      report.logs.map (redactEntry redactor) := keptEntries_suffix _
  have launched : canonicalTime formats launchedAt = .ok launchedAt :=
    canonicalTime_canonical accepted.launched
  have recorded : canonicalTime formats recordedAt = .ok recordedAt :=
    canonicalTime_canonical accepted.recorded
  constructor
  · exact accepted.schema
  · exact accepted.schemaVersion
  · exact accepted.sessionId
  · exact accepted.instanceId
  · rw [containsSecret_noSecrets]
    exact Bool.false_ne_true
  · rw [containsSecret_noSecrets]
    exact Bool.false_ne_true
  · exact launched
  · exact recorded
  · exact accepted.inOrder
  · rw [sanitised]
    dsimp only
    rw [few, staged]
  · rw [sanitised_logs]
    have ordered : (report.logs.map (redactEntry redactor)).Pairwise fun first second =>
        first.sequence < second.sequence := pairwise_map.mpr accepted.ordered
    exact ordered.sublist kept.sublist
  · rw [sanitised_logs]
    intro entry member
    obtain ⟨was, inside, rfl⟩ := mem_map.mp (kept.subset member)
    exact accepted.numbered was inside
  · exact mapM_comparison accepted.compared

/-- Sanitising a report again only redacts its log again. -/
theorem sanitised_again :
    sanitised noSecrets (sanitised redactor report launchedAt recordedAt stages comparison)
        launchedAt recordedAt stages comparison =
      let kept := sanitised redactor report launchedAt recordedAt stages comparison
      let entries := kept.logs.map (redactEntry noSecrets)
      { kept with
        logs := keptEntries entries
        logsDropped := saturatingAdd kept.logsDropped
          (entries.length - (keptEntries entries).length) } := by
  have version := (safeVersionId_again redactor).getD safeVersionId_unknown report.versionId
  have tier := (safeToken_again redactor).getD safeToken_unknown report.device.tier
  have evidence : ∀ kept : Option CrashEvidence, (kept.filter fun evidence =>
      !noSecrets.containsSecret (formats.evidenceText evidence).toList) = kept := by
    intro kept
    cases kept with
    | none => rfl
    | some evidence => rfl
  unfold sanitised
  rw [version, tier, sanitizeScenario_again, SessionOutcome.summarised_summarised, evidence]
  rfl

end Again

/-- A report that has been sanitised stays as it is when it is sanitised again exactly if the lines
of its log settle. -/
theorem sanitizeReport_again_iff {redactor : Redactor} {report kept : LaunchProofRecord formats}
    (sanitised : sanitizeReport report redactor = .ok kept) :
    sanitizeReport kept noSecrets = .ok kept ↔
      ∀ entry ∈ retainedLogs redactor report.logs, Settles redactor entry.text := by
  obtain ⟨launchedAt, recordedAt, stages, comparison, accepted, rfl⟩ :=
    sanitizeReport_eq_ok.mp sanitised
  have again := sanitised_again redactor report launchedAt recordedAt stages comparison
  have logs := sanitised_logs redactor report launchedAt recordedAt stages comparison
  have readmitted := accepted.again
  rw [← keptEntries_again_iff, ← logs]
  clear sanitised logs
  generalize Terminal.sanitised redactor report launchedAt recordedAt stages comparison = kept at *
  constructor
  · intro same
    obtain ⟨_, _, _, _, _, same⟩ := sanitizeReport_eq_ok.mp same
    have logs := congrArg LaunchProofRecord.logs same
    rw [sanitised_logs] at logs
    exact logs.symm
  · intro same
    refine sanitizeReport_eq_ok.mpr ⟨_, _, _, _, readmitted, ?_⟩
    rw [again]
    dsimp only
    rw [same, length_map, Nat.sub_self, saturatingAdd_zero]

end Axial.Launch.Terminal
