/-
This file embeds the transaction that records a terminal report, and shows exactly which reports it
records. The report is sanitised when it is given, when it is written and when it is read back, and
what is read is compared with what was given. So a report is recorded if it stays as it is when it
is sanitised again and the evidence of its crash can be read; otherwise nothing is recorded.
-/

import Axial.Launch.Recovery
import Axial.Launch.ReportStore

namespace Axial.Launch.Terminal

open Axial.Minecraft Crash List Fallible

/-! ### The table -/

/-- A report whose numbers are within their types. -/
structure Ranged {formats : Formats} (report : LaunchProofRecord formats) : Prop where
  sequences : ∀ entry ∈ report.logs, entry.sequence < 2 ^ 64
  counted : ∀ comparison ∈ report.comparison, comparison.matchedSampleCount < 2 ^ 64

/-- A report that JSON can hold. -/
structure Representable {formats : Formats} (report : LaunchProofRecord formats) : Prop
    extends Ranged report where
  schemaVersion : report.schemaVersion < 2 ^ 32
  percent : ∀ comparison ∈ report.comparison, formats.isFinite comparison.deltaPercent = true

/-- How reports are written as JSON and read: as they were, but the evidence of a crash is read by
its own reader. -/
structure ReportCodec (formats : Formats) where
  Payload : Type
  encode : LaunchProofRecord formats → Payload
  parse : Payload → Option (LaunchProofRecord formats)
  size : Payload → Nat
  parse_encode : ∀ report, Representable report → parse (encode report) =
    (report.crashEvidence.mapM fun evidence => CrashEvidence.deserialize evidence.serialize).map
      fun crashEvidence => { report with crashEvidence }

variable {formats : Formats} (codec : ReportCodec formats)

structure ReportRow where
  instanceId : String
  recordedAt : String
  payload : codec.Payload

/-- The table `launch_reports`. -/
abbrev ReportTable : Type := AList fun _ : String => ReportRow codec

variable {codec}

def encodeReport (report : LaunchProofRecord formats) : Except ReportError codec.Payload := do
  let report ← sanitizeReport report noSecrets
  let bytes := codec.encode report
  if maxReportBytes < codec.size bytes then throw .tooLarge
  return bytes

def decodeReport (bytes : codec.Payload) : Except ReportError (LaunchProofRecord formats) :=
  if maxReportBytes < codec.size bytes then .error .tooLarge
  else match codec.parse bytes with
    | none => .error .invalid
    | some report => sanitizeReport report noSecrets

def decodeStoredReport (sessionId : String) (row : ReportRow codec) :
    Except ReportError (LaunchProofRecord formats) := do
  let saved ← decodeReport row.payload
  match codec.parse row.payload with
  | none => throw .invalid
  | some original =>
    if saved.sessionId ≠ sessionId ∨ saved.instanceId ≠ row.instanceId ∨
        saved.recordedAt ≠ row.recordedAt ∨ saved ≠ original then
      throw .invalid
    return saved

def storedReport (reports : ReportTable codec) (sessionId : String) :
    Except ReportError (Option (LaunchProofRecord formats)) :=
  match reports.lookup sessionId with
  | none => .ok none
  | some row => (decodeStoredReport sessionId row).map some

/-- `get` -/
def getReport (reports : ReportTable codec) (sessionId : String) :
    Except ReportError (Option (LaunchProofRecord formats)) :=
  if ¬validReportId sessionId then .error .invalid else storedReport reports sessionId

/-- The order of the latest reports. -/
def laterRow (left right : Σ _ : String, ReportRow codec) : Bool :=
  right.2.recordedAt < left.2.recordedAt ||
    right.2.recordedAt = left.2.recordedAt && right.1 ≤ left.1

def latestRows (reports : ReportTable codec) : List (Σ _ : String, ReportRow codec) :=
  (reports.entries.insertionSort fun left right => laterRow left right).take 100

/-- `insert_report`, with the checks of the table. -/
def insertReport (report : LaunchProofRecord formats) (payload : codec.Payload)
    (reports : ReportTable codec) : Except ReportError (ReportTable codec) :=
  if report.sessionId ∈ reports ∨ report.sessionId = "" ∨ 96 < report.sessionId.utf8ByteSize ∨
      report.instanceId = "" ∨ 96 < report.instanceId.utf8ByteSize ∨
      report.recordedAt.utf8ByteSize ≠ 24 then .error .storage
  else .ok (reports.insert report.sessionId ⟨report.instanceId, report.recordedAt, payload⟩)

section Record

variable {Intents : Type} (acknowledge : LaunchProofRecord formats → Intents → Option Intents)

def acknowledged (report : LaunchProofRecord formats) (reports : ReportTable codec)
    (intents : Intents) : Except ReportError (ReportTable codec × Intents) :=
  match acknowledge report intents with
  | none => .error .invalid
  | some intents => .ok (reports, intents)

def LaunchProofRecord.withoutLogs (report : LaunchProofRecord formats) :
    LaunchProofRecord formats :=
  { report with logs := [] }

def LaunchProofRecord.withComparison (report : LaunchProofRecord formats)
    (comparison : Option (LaunchProofComparison formats)) : LaunchProofRecord formats :=
  { report with comparison }

/-- The end of `record` for a report that is not stored. -/
def recordNew (report : LaunchProofRecord formats) (reports : ReportTable codec)
    (intents : Intents) : Except ReportError (ReportTable codec × Intents) := do
  let candidates ← (latestRows reports).mapM (decodeReport ·.2.payload)
  let comparison := buildComparisonFromCandidates report
    (candidates.map LaunchProofRecord.withoutLogs)
  let report := report.withComparison comparison
  let payload ← encodeReport report
  let reports ← insertReport report payload reports
  match ← storedReport reports report.sessionId with
  | none => throw .invalid
  | some saved =>
    if saved ≠ report then throw .invalid
    acknowledged acknowledge saved reports intents

/-- `LaunchReportStore::record`, a transaction on both tables. -/
def record (report : LaunchProofRecord formats) (redactor : Redactor)
    (reports : ReportTable codec) (intents : Intents) :
    Except ReportError (ReportTable codec × Intents) := do
  let report ← sanitizeReport report redactor
  let report := report.withComparison none
  match ← storedReport reports report.sessionId with
  | some saved =>
    let saved := saved.withComparison none
    if saved ≠ report then throw .conflictingSession
    acknowledged acknowledge saved reports intents
  | none => recordNew acknowledge report reports intents

end Record

/-! ### Reading what was written -/

/-- The evidence of a crash can be read back. -/
def EvidenceReadable (report : LaunchProofRecord formats) : Prop :=
  ∀ evidence ∈ report.crashEvidence, evidence.Readable

variable {report : LaunchProofRecord formats}

/-- A report that is written is read as it is, if the evidence in it can be read. -/
theorem parse_encode_iff {parsed : LaunchProofRecord formats} (representable : Representable report)
    :
    codec.parse (codec.encode report) = some parsed ↔
      parsed = report ∧ EvidenceReadable report := by
  rw [codec.parse_encode report representable]
  unfold EvidenceReadable
  cases held : report.crashEvidence with
  | none =>
    have same : { report with crashEvidence := none } = report := by rw [← held]
    show some { report with crashEvidence := none } = some parsed ↔ _
    rw [same, Option.some.injEq]
    exact ⟨fun same => ⟨same.symm, nofun⟩, fun ⟨same, _⟩ => same.symm⟩
  | some evidence =>
    have same : { report with crashEvidence := some evidence } = report := by rw [← held]
    rw [Option.mapM_some, evidence.deserialize_serialize]
    constructor
    · intro read
      split at read
      · rename_i readable
        refine ⟨(Option.some.inj read).symm.trans same, fun other member => ?_⟩
        exact Option.mem_some.mp member ▸ readable
      · cases read
    · rintro ⟨rfl, readable⟩
      rw [if_pos (readable evidence rfl)]
      exact congrArg some same

variable {kept : LaunchProofRecord formats} {redactor : Redactor}

theorem sanitizeReport_representable (ranged : Ranged report)
    (sanitised : sanitizeReport report redactor = .ok kept) : Representable kept := by
  obtain ⟨launchedAt, recordedAt, stages, comparison, accepted, rfl⟩ :=
    sanitizeReport_eq_ok.mp sanitised
  constructor
  · constructor
    · rw [sanitised_logs]
      intro entry member
      obtain ⟨was, inside, rfl⟩ := mem_map.mp ((keptEntries_suffix _).subset member)
      exact ranged.sequences was inside
    · intro inner member
      obtain ⟨was, inside, passed⟩ := exists_of_mapM accepted.compared member
      rw [(sanitizeComparison_number passed).1]
      exact ranged.counted was inside
  · rw [show (Terminal.sanitised redactor report launchedAt recordedAt stages
      comparison).schemaVersion = 4 from accepted.schemaVersion]
    decide
  · intro inner member
    obtain ⟨_, _, passed⟩ := exists_of_mapM accepted.compared member
    exact (sanitizeComparison_number passed).2

theorem sanitised_withComparison (redactor : Redactor) (report : LaunchProofRecord formats)
    (launchedAt recordedAt : String) (stages : List LaunchProofStage)
    (first second third : Option (LaunchProofComparison formats)) :
    sanitised redactor (report.withComparison first) launchedAt recordedAt stages second =
      (sanitised redactor report launchedAt recordedAt stages third).withComparison second := by
  rw [sanitised, sanitised, LaunchProofRecord.withComparison, LaunchProofRecord.withComparison]

/-- A report that stays as it is does so with another comparison that stays as it is. -/
theorem withComparison_again (same : sanitizeReport report noSecrets = .ok report)
    {comparison : Option (LaunchProofComparison formats)}
    (stable : comparison.mapM (sanitizeComparison report.sessionId noSecrets) = .ok comparison) :
    sanitizeReport (report.withComparison comparison) noSecrets =
      .ok (report.withComparison comparison) := by
  obtain ⟨launchedAt, recordedAt, stages, old, accepted, same⟩ := sanitizeReport_eq_ok.mp same
  have admissible : Accepted noSecrets (report.withComparison comparison) launchedAt recordedAt
      stages comparison :=
    ⟨accepted.schema, accepted.schemaVersion, accepted.sessionId, accepted.instanceId,
      accepted.secretSession, accepted.secretInstance, accepted.launched, accepted.recorded,
      accepted.inOrder, accepted.staged, accepted.ordered, accepted.numbered, stable⟩
  refine sanitizeReport_eq_ok.mpr ⟨_, _, _, _, admissible, ?_⟩
  rw [sanitised_withComparison noSecrets report launchedAt recordedAt stages comparison comparison
    old, ← same]

/-! ### Rows -/

variable {bytes : codec.Payload}

theorem decodeReport_eq_ok :
    decodeReport bytes = .ok report ↔ ¬maxReportBytes < codec.size bytes ∧
      ∃ parsed, codec.parse bytes = some parsed ∧ sanitizeReport parsed noSecrets = .ok report := by
  rw [decodeReport, ite_throw_eq_ok]
  refine and_congr_right fun _ => ?_
  cases codec.parse bytes with
  | none => exact ⟨nofun, fun ⟨_, found, _⟩ => nomatch found⟩
  | some parsed =>
    exact ⟨fun decoded => ⟨parsed, rfl, decoded⟩, fun ⟨_, found, decoded⟩ =>
      Option.some.inj found ▸ decoded⟩

theorem encodeReport_eq_ok :
    encodeReport report = .ok bytes ↔ ∃ kept, sanitizeReport report noSecrets = .ok kept ∧
      ¬maxReportBytes < codec.size bytes ∧ codec.encode kept = bytes := by
  rw [encodeReport, bind_eq_ok]
  refine exists_congr fun kept => and_congr_right fun _ => ?_
  dsimp only
  rw [guard_eq_ok, pure_eq_ok]
  exact ⟨fun ⟨fits, same⟩ => ⟨same ▸ fits, same⟩, fun ⟨fits, same⟩ => ⟨same ▸ fits, same⟩⟩

variable {sessionId : String}

theorem decodeStoredReport_eq_ok {row : ReportRow codec} :
    decodeStoredReport sessionId row = .ok report ↔ decodeReport row.payload = .ok report ∧
      codec.parse row.payload = some report ∧ report.sessionId = sessionId ∧
      report.instanceId = row.instanceId ∧ report.recordedAt = row.recordedAt := by
  rw [decodeStoredReport, bind_eq_ok]
  constructor
  · rintro ⟨saved, decoded, rest⟩
    split at rest
    · cases rest
    · rename_i original parsed
      obtain ⟨same, rest⟩ := guard_eq_ok.mp rest
      obtain rfl := pure_eq_ok.mp rest
      simp only [not_or, not_not] at same
      obtain ⟨session, instanceId, recordedAt, rfl⟩ := same
      exact ⟨decoded, parsed, session, instanceId, recordedAt⟩
  · rintro ⟨decoded, parsed, session, instanceId, recordedAt⟩
    refine ⟨report, decoded, ?_⟩
    rw [parsed]
    refine guard_eq_ok.mpr ⟨?_, rfl⟩
    simp only [session, instanceId, recordedAt, ne_eq, not_true_eq_false, or_self,
      not_false_eq_true]

variable {reports : ReportTable codec}

theorem storedReport_eq_some :
    storedReport reports sessionId = .ok (some report) ↔
      ∃ row, reports.lookup sessionId = some row ∧
        decodeStoredReport sessionId row = .ok report := by
  rw [storedReport]
  cases reports.lookup sessionId with
  | none => exact ⟨nofun, fun ⟨_, found, _⟩ => nomatch found⟩
  | some row =>
    dsimp only
    cases decoded : decodeStoredReport sessionId row with
    | error error => exact ⟨nofun, fun ⟨_, found, other⟩ => by
        obtain rfl := Option.some.inj found
        rw [decoded] at other
        cases other⟩
    | ok saved =>
      constructor
      · intro same
        obtain rfl := Option.some.inj (Except.ok.inj same)
        exact ⟨row, rfl, decoded⟩
      · rintro ⟨_, found, other⟩
        obtain rfl := Option.some.inj found
        rw [decoded] at other
        obtain rfl := Except.ok.inj other
        rfl

/-- Every row is read as the report of its session. -/
def ReportTable.Sound (reports : ReportTable codec) : Prop :=
  ∀ sessionId row, reports.lookup sessionId = some row →
    ∃ report, decodeStoredReport sessionId row = .ok report

/-- The reports of the latest rows are read, and have been sanitised. -/
theorem ReportTable.Sound.latest (sound : reports.Sound) :
    ∃ candidates : List (LaunchProofRecord formats),
      (latestRows reports).mapM (decodeReport ·.2.payload) = .ok candidates ∧
      candidates.length ≤ 100 ∧ ∀ candidate ∈ candidates, Candidate candidate := by
  have readable : ∀ row ∈ latestRows reports, ∃ report : LaunchProofRecord formats,
      decodeReport row.2.payload = .ok report ∧ Candidate report := by
    intro row member
    have inside : row ∈ reports.entries :=
      (mem_insertionSort _).mp (mem_of_mem_take member)
    obtain ⟨report, stored⟩ := sound row.1 row.2 (AList.mem_lookup_iff.mpr inside)
    have decoded := (decodeStoredReport_eq_ok.mp stored).1
    obtain ⟨_, parsed, _, sanitised⟩ := decodeReport_eq_ok.mp decoded
    exact ⟨report, decoded, sanitizeReport_candidate sanitised⟩
  have few : (latestRows reports).length ≤ 100 := length_take_le _ _
  revert readable few
  generalize 100 = limit
  generalize latestRows reports = rows
  intro readable few
  induction rows generalizing limit with
  | nil => exact ⟨[], rfl, Nat.zero_le _, fun _ member => nomatch member⟩
  | cons row rows ih =>
    obtain ⟨report, decoded, candidate⟩ := readable row mem_cons_self
    obtain ⟨candidates, rest, short, passed⟩ := ih rows.length
      (fun other member => readable other (mem_cons_of_mem _ member)) le_rfl
    refine ⟨report :: candidates, ?_, ?_, ?_⟩
    · rw [mapM_cons, decoded]
      simp only [bind, Except.bind, rest]
      rfl
    · rw [length_cons] at few ⊢
      omega
    · exact forall_mem_cons.mpr ⟨candidate, passed⟩

/-! ### Recording a report -/

/-- The comparison of a report with the latest ones. -/
def derivedComparison (reports : ReportTable codec) (report : LaunchProofRecord formats) :
    Option (LaunchProofComparison formats) :=
  match (latestRows reports).mapM (decodeReport ·.2.payload) with
  | .error _ => none
  | .ok candidates =>
    buildComparisonFromCandidates report (candidates.map LaunchProofRecord.withoutLogs)

/-- A report as it is recorded. -/
def recordedReport (reports : ReportTable codec) (report : LaunchProofRecord formats) :
    LaunchProofRecord formats :=
  report.withComparison (derivedComparison reports (report.withComparison none))

/-- A comparison with reports of a table stays as it is. -/
theorem ReportTable.Sound.derived (sound : reports.Sound) (report : LaunchProofRecord formats)
    {inner : LaunchProofComparison formats} (member : inner ∈ derivedComparison reports report) :
    sanitizeComparison report.sessionId noSecrets inner = .ok inner ∧
      inner.matchedSampleCount < 2 ^ 64 := by
  obtain ⟨candidates, read, few, passed⟩ := sound.latest
  rw [derivedComparison, read] at member
  have compared := buildComparison_compared (Option.mem_def.mp member)
  have cleared : ∀ candidate ∈ candidates.map LaunchProofRecord.withoutLogs,
      Candidate candidate := by
    intro candidate member
    obtain ⟨was, inside, rfl⟩ := mem_map.mp member
    have candidate := passed was inside
    exact ⟨candidate.sessionId, candidate.recordedAt, candidate.versionId, candidate.scenario,
      candidate.tier⟩
  have counted := compared.counted
  rw [length_map] at counted
  exact ⟨compared.stable cleared, (counted.trans few).trans_lt (by decide)⟩

theorem ReportTable.Sound.mapM_derived (sound : reports.Sound) (report : LaunchProofRecord formats)
    :
    (derivedComparison reports report).mapM (sanitizeComparison report.sessionId noSecrets) =
      .ok (derivedComparison reports report) := by
  cases derived : derivedComparison reports report with
  | none => rfl
  | some inner =>
    rw [Option.mapM_some, (sound.derived report derived).1]
    rfl

section Record

variable {Intents : Type} (acknowledge : LaunchProofRecord formats → Intents → Option Intents)

variable {table : ReportTable codec} {intents after : Intents}

theorem acknowledged_eq_ok :
    acknowledged acknowledge report reports intents = .ok (table, after) ↔
      acknowledge report intents = some after ∧ table = reports := by
  unfold acknowledged
  cases acknowledge report intents with
  | none => exact ⟨nofun, fun ⟨found, _⟩ => nomatch found⟩
  | some other =>
    rw [Except.ok.injEq, Prod.mk.injEq, Option.some.injEq, and_comm, eq_comm (a := table)]

variable {final : LaunchProofRecord formats}

/-- A report is recorded if it can be written and is read back as it was. -/
theorem recordNew_eq_ok (sound : reports.Sound)
    (derived : report.withComparison (derivedComparison reports report) = final) :
    recordNew acknowledge report reports intents = .ok (table, after) ↔
      ∃ payload, encodeReport final = .ok payload ∧ insertReport final payload reports = .ok table ∧
        storedReport table final.sessionId = .ok (some final) ∧
        acknowledge final intents = some after := by
  obtain ⟨candidates, read, _, _⟩ := sound.latest
  rw [derivedComparison, read] at derived
  unfold recordNew
  rw [bind_eq_ok]
  constructor
  · rintro ⟨others, again, recorded⟩
    obtain rfl := Except.ok.inj (read.symm.trans again)
    dsimp only at derived recorded
    rw [derived] at recorded
    obtain ⟨payload, encoded, recorded⟩ := bind_eq_ok.mp recorded
    obtain ⟨inserted, insert, recorded⟩ := bind_eq_ok.mp recorded
    obtain ⟨found, stored, recorded⟩ := bind_eq_ok.mp recorded
    cases found with
    | none => cases recorded
    | some saved =>
      obtain ⟨same, kept⟩ := guard_eq_ok.mp recorded
      obtain ⟨acked, rfl⟩ := (acknowledged_eq_ok acknowledge).mp kept
      obtain rfl := not_not.mp same
      exact ⟨payload, encoded, insert, stored, acked⟩
  · rintro ⟨payload, encoded, insert, stored, acked⟩
    refine ⟨candidates, read, ?_⟩
    dsimp only at derived ⊢
    rw [derived]
    refine bind_eq_ok.mpr ⟨payload, encoded, bind_eq_ok.mpr ⟨table, insert,
      bind_eq_ok.mpr ⟨_, stored, ?_⟩⟩⟩
    exact guard_eq_ok.mpr ⟨not_not.mpr rfl,
      (acknowledged_eq_ok acknowledge).mpr ⟨acked, rfl⟩⟩

/-- The row that a report is inserted as. -/
theorem insertReport_eq_ok {payload : codec.Payload} :
    insertReport report payload reports = .ok table ↔
      ¬(report.sessionId ∈ reports ∨ report.sessionId = "" ∨ 96 < report.sessionId.utf8ByteSize ∨
        report.instanceId = "" ∨ 96 < report.instanceId.utf8ByteSize ∨
        report.recordedAt.utf8ByteSize ≠ 24) ∧
      reports.insert report.sessionId ⟨report.instanceId, report.recordedAt, payload⟩ = table := by
  rw [insertReport, ite_throw_eq_ok, Except.ok.injEq]

/-- What is recorded keeps a table sound. -/
theorem ReportTable.Sound.record {report : LaunchProofRecord formats} {redactor : Redactor}
    {reports table : ReportTable codec} {intents after : Intents} (sound : reports.Sound)
    (recorded : record acknowledge report redactor reports intents = .ok (table, after)) :
    ReportTable.Sound table := by
  unfold Terminal.record at recorded
  obtain ⟨kept, _, recorded⟩ := bind_eq_ok.mp recorded
  obtain ⟨found, _, recorded⟩ := bind_eq_ok.mp recorded
  cases found with
  | some saved =>
    obtain ⟨_, recorded⟩ := guard_eq_ok.mp recorded
    obtain ⟨_, rfl⟩ := (acknowledged_eq_ok acknowledge).mp recorded
    exact sound
  | none =>
    obtain ⟨final, derived⟩ : ∃ final, (kept.withComparison none).withComparison
        (derivedComparison reports (kept.withComparison none)) = final := ⟨_, rfl⟩
    obtain ⟨payload, _, insert, stored, _⟩ :=
      (recordNew_eq_ok acknowledge sound derived).mp recorded
    obtain ⟨_, rfl⟩ := insertReport_eq_ok.mp insert
    intro sessionId row present
    obtain ⟨stored, there, decoded⟩ := storedReport_eq_some.mp stored
    by_cases same : sessionId = final.sessionId
    · subst same
      obtain rfl := Option.some.inj (present.symm.trans there)
      exact ⟨_, decoded⟩
    · rw [AList.lookup_insert_ne same] at present
      exact sound sessionId row present

/-- A table that was written by recording reports, whatever happens to the intents between. -/
inductive Recorded : ReportTable codec → Prop
  | empty : Recorded ∅
  | record {reports table : ReportTable codec} {report : LaunchProofRecord formats}
      {redactor : Redactor} {intents after : Intents} : Recorded reports →
      record acknowledge report redactor reports intents = .ok (table, after) → Recorded table

theorem Recorded.sound (recorded : Recorded acknowledge reports) : reports.Sound := by
  induction recorded with
  | empty => exact fun _ _ present => by rw [AList.lookup_empty] at present; cases present
  | record _ recorded ih => exact ih.record acknowledge recorded

/-- A report that is not stored is recorded exactly if it stays as it is when it is sanitised again
and its evidence can be read; what is stored is the report with its comparison. -/
theorem record_eq_ok (ranged : Ranged report)
    (sanitised : sanitizeReport report redactor = .ok kept) (sound : reports.Sound)
    (absent : reports.lookup kept.sessionId = none) (derived : recordedReport reports kept = final)
    (fits : codec.size (codec.encode final) ≤ maxReportBytes)
    (acked : ∃ after, acknowledge final intents = some after) :
    (∃ table after, record acknowledge report redactor reports intents = .ok (table, after) ∧
        getReport table kept.sessionId = .ok (some final)) ↔
      sanitizeReport final noSecrets = .ok final ∧ EvidenceReadable final := by
  have session : final.sessionId = kept.sessionId := by
    rw [← derived]
    rfl
  have begun : ∀ table after,
      record acknowledge report redactor reports intents = .ok (table, after) ↔
        recordNew acknowledge (kept.withComparison none) reports intents = .ok (table, after) := by
    intro table after
    have lookup : storedReport reports kept.sessionId = .ok none := by rw [storedReport, absent]
    unfold Terminal.record
    constructor
    · intro recorded
      obtain ⟨_, same, recorded⟩ := bind_eq_ok.mp recorded
      obtain rfl := Except.ok.inj (sanitised.symm.trans same)
      obtain ⟨_, stored, recorded⟩ := bind_eq_ok.mp recorded
      obtain rfl := Except.ok.inj (lookup.symm.trans stored)
      exact recorded
    · intro recorded
      exact bind_eq_ok.mpr ⟨kept, sanitised, bind_eq_ok.mpr ⟨none, lookup,
        recorded⟩⟩
  have written : (kept.withComparison none).withComparison
      (derivedComparison reports (kept.withComparison none)) = final := derived
  have representable := sanitizeReport_representable ranged sanitised
  have final_ranged : Ranged final := by
    rw [← derived]
    exact ⟨representable.sequences, fun inner member => (sound.derived _ member).2⟩
  constructor
  · rintro ⟨table, after, recorded, _⟩
    obtain ⟨payload, encoded, insert, stored, _⟩ :=
      (recordNew_eq_ok acknowledge sound written).mp ((begun table after).mp recorded)
    obtain ⟨_, rfl⟩ := insertReport_eq_ok.mp insert
    obtain ⟨row, present, decoded⟩ := storedReport_eq_some.mp stored
    rw [AList.lookup_insert] at present
    obtain rfl := Option.some.inj present
    obtain ⟨_, parsed, _⟩ := decodeStoredReport_eq_ok.mp decoded
    obtain ⟨again, sanitised, _, rfl⟩ := encodeReport_eq_ok.mp encoded
    obtain ⟨rfl, readable⟩ :=
      (parse_encode_iff (sanitizeReport_representable final_ranged sanitised)).mp parsed
    exact ⟨sanitised, readable⟩
  · rintro ⟨same, readable⟩
    obtain ⟨after, acked⟩ := acked
    have final_representable := sanitizeReport_representable final_ranged same
    have parsed : codec.parse (codec.encode final) = some final :=
      (parse_encode_iff final_representable).mpr ⟨rfl, readable⟩
    have small : ¬maxReportBytes < codec.size (codec.encode final) := Nat.not_lt_of_le fits
    have stored : storedReport (reports.insert final.sessionId
        ⟨final.instanceId, final.recordedAt, codec.encode final⟩) final.sessionId =
          .ok (some final) := by
      refine storedReport_eq_some.mpr ⟨_, AList.lookup_insert _, ?_⟩
      exact decodeStoredReport_eq_ok.mpr ⟨decodeReport_eq_ok.mpr ⟨small, final, parsed, same⟩,
        parsed, rfl, rfl, rfl⟩
    obtain ⟨_, _, _, _, accepted, shape⟩ := sanitizeReport_eq_ok.mp same
    have valid := accepted.sessionId
    have instanceId := accepted.instanceId
    have size : final.recordedAt.utf8ByteSize = 24 := by
      rw [shape]
      exact (canonicalTime_canonical accepted.recorded).size
    refine ⟨_, after, (begun _ _).mpr ((recordNew_eq_ok acknowledge sound written).mpr ⟨codec.encode final,
      encodeReport_eq_ok.mpr ⟨final, same, small, rfl⟩, insertReport_eq_ok.mpr ⟨?_, rfl⟩, stored,
      acked⟩), ?_⟩
    · simp only [validReportId, Bool.and_eq_true, decide_eq_true_eq] at valid instanceId
      rintro (present | empty | long | empty | long | other)
      · rw [session] at present
        exact AList.lookup_eq_none.mp absent present
      · exact valid.1.1 empty
      · exact Nat.not_lt_of_le valid.1.2 long
      · exact instanceId.1.1 empty
      · exact Nat.not_lt_of_le instanceId.1.2 long
      · exact other size
    · rw [getReport, ← session, if_neg (not_not.mpr valid)]
      exact stored

end Record

/-! ### With the intents -/

section Intents

variable {evidence : Evidence} (view : LaunchProofRecord formats → evidence.Report)

/-- `acknowledge_terminal`; the table of intents may be missing. -/
def acknowledgeIntents (report : LaunchProofRecord formats) :
    Option (IntentTable evidence) → Option (Option (IntentTable evidence))
  | none => some none
  | some table => (acknowledgeTerminal (view report) table).map some

/-- A row that agrees with a report. -/
def Agrees (report : evidence.Report) (row : KeyedRow evidence) : Prop :=
  KeyedRow.readable row = true ∧ ∃ record, decodeIntent evidence row.1 row.2.payload = .ok record ∧
    (evidence.terminalSnapshot record report).isSome = true ∧
    ∀ settlement ∈ row.2.settlement, ∃ observation,
      evidence.decodeSettlement record row.2.payload settlement = some observation ∧
        evidence.matchesReport observation report = true

/-- The rows of intents do not contradict a report: one at most is for its session, and agrees. -/
def Uncontradicted (report : LaunchProofRecord formats)
    (intents : Option (IntentTable evidence)) : Prop :=
  ∀ table ∈ intents, (reportedRows (view report) table).length ≤ 1 ∧
    ∀ row ∈ reportedRows (view report) table, Agrees (view report) row

theorem Uncontradicted.acknowledged {intents : Option (IntentTable evidence)}
    (uncontradicted : Uncontradicted view report intents) :
    ∃ after, acknowledgeIntents view report intents = some after := by
  cases intents with
  | none => exact ⟨none, rfl⟩
  | some table =>
    obtain ⟨few, agree⟩ := uncontradicted table rfl
    suffices ∃ after, acknowledgeTerminal (view report) table = some after by
      obtain ⟨after, acked⟩ := this
      exact ⟨some after, by rw [acknowledgeIntents, acked]; rfl⟩
    unfold acknowledgeTerminal
    split
    · exact ⟨table, rfl⟩
    · rename_i key row single
      obtain ⟨readable, record, decoded, terminal, matched⟩ :=
        agree ⟨key, row⟩ (by rw [single]; exact mem_singleton_self _)
      obtain ⟨session, terminal⟩ := Option.isSome_iff_exists.mp terminal
      dsimp only at decoded matched
      rw [if_pos readable, decoded]
      dsimp only
      rw [terminal]
      dsimp only
      cases settled : row.settlement with
      | none => exact ⟨_, if_pos rfl⟩
      | some settlement =>
        obtain ⟨observation, observed, agrees⟩ := matched settlement settled
        refine ⟨_, if_pos ?_⟩
        dsimp only
        rw [observed]
        exact agrees
    · rename_i single several
      match rows : reportedRows (view report) table with
      | [] => exact absurd rows single
      | [⟨key, row⟩] => exact absurd rows (several key row)
      | _ :: _ :: _ =>
        rw [rows] at few
        exact absurd few (by simp)

/-- Sanitising a report again changes nothing, what is encoded is decoded as it was, and the report
is recorded and got with its comparison. -/
structure Faithful (report kept : LaunchProofRecord formats) (redactor : Redactor)
    (reports : ReportTable codec) (intents : Option (IntentTable evidence)) : Prop where
  again : sanitizeReport kept noSecrets = .ok kept
  decoded : ∀ bytes : codec.Payload, encodeReport kept = .ok bytes → decodeReport bytes = .ok kept
  recorded : ∃ table after,
    record (acknowledgeIntents view) report redactor reports intents = .ok (table, after) ∧
      getReport table kept.sessionId = .ok (some (recordedReport reports kept))

/-- The lines that are kept of the log settle, and the evidence that is kept can be read. -/
structure Settled (redactor : Redactor) (report : LaunchProofRecord formats) : Prop where
  logs : ∀ entry ∈ retainedLogs redactor report.logs, Settles redactor entry.text
  evidence : ∀ evidence ∈ report.crashEvidence,
    redactor.containsSecret (formats.evidenceText evidence).toList = false → evidence.Readable

/-- A report that is accepted, not stored yet, small enough and not contradicted by the intents is
recorded faithfully exactly if its log settles and its evidence can be read. -/
theorem faithful_iff {report kept : LaunchProofRecord formats} {redactor : Redactor}
    {reports : ReportTable codec} {intents : Option (IntentTable evidence)}
    (ranged : Ranged report) (sanitised : sanitizeReport report redactor = .ok kept)
    (recorded : Recorded (acknowledgeIntents view) reports)
    (absent : reports.lookup kept.sessionId = none)
    (fits : codec.size (codec.encode (recordedReport reports kept)) ≤ maxReportBytes)
    (uncontradicted : Uncontradicted view (recordedReport reports kept) intents) :
    Faithful view report kept redactor reports intents ↔ Settled redactor report := by
  have sound := recorded.sound
  have again := sanitizeReport_again_iff sanitised
  have stored := record_eq_ok (acknowledgeIntents view) ranged sanitised sound absent rfl fits
    uncontradicted.acknowledged
  have evidence : EvidenceReadable kept ↔ ∀ evidence ∈ report.crashEvidence,
      redactor.containsSecret (formats.evidenceText evidence).toList = false →
        evidence.Readable := by
    obtain ⟨launchedAt, recordedAt, stages, comparison, _, rfl⟩ := sanitizeReport_eq_ok.mp sanitised
    unfold EvidenceReadable Terminal.sanitised
    simp only [Option.mem_def, Option.filter_eq_some_iff, Bool.not_eq_true', and_imp]
  constructor
  · intro faithful
    exact ⟨again.mp faithful.again, evidence.mp (stored.mp faithful.recorded).2⟩
  · intro settled
    have same := again.mpr settled.logs
    have readable := evidence.mpr settled.evidence
    refine ⟨same, fun bytes encoded => ?_, stored.mpr ⟨?_, readable⟩⟩
    · obtain ⟨other, sanitised_again, small, rfl⟩ := encodeReport_eq_ok.mp encoded
      obtain rfl := Except.ok.inj (same.symm.trans sanitised_again)
      refine decodeReport_eq_ok.mpr ⟨small, kept, ?_, same⟩
      exact (parse_encode_iff (sanitizeReport_representable ranged sanitised)).mpr ⟨rfl, readable⟩
    · exact withComparison_again same (sound.mapM_derived (kept.withComparison none))

end Intents

/-! ### A report that is not recorded -/

/-- Times as they are written, and differences as pairs. -/
def plainFormats : Formats where
  Instant := {time : String // time.utf8ByteSize = 24}
  parse time := if size : time.utf8ByteSize = 24 then some ⟨time, size⟩ else none
  format := (·.val)
  parse_format instant _ := dif_pos instant.property
  Percent := Int × Nat
  percentEq := inferInstance
  percent delta baseline := (delta, baseline)
  isFinite percent := decide (0 < percent.2)
  finite _ _ positive := decide_eq_true positive
  evidenceText _ := ""

/-- Reports that are their own payload. -/
def plainCodec : ReportCodec plainFormats where
  Payload := LaunchProofRecord plainFormats
  encode report := report
  parse report := (report.crashEvidence.mapM fun evidence =>
    CrashEvidence.deserialize evidence.serialize).map fun crashEvidence =>
      { report with crashEvidence }
  size _ := 0
  parse_encode _ _ := rfl

def plainReport (logs : List LogEntry) : LaunchProofRecord plainFormats where
  schema := "axial.launch.proof"
  schemaVersion := 4
  sessionId := "session"
  instanceId := "instance"
  versionId := "1.21.1"
  launchedAt := "2026-01-01T00:00:00.000Z"
  recordedAt := "2026-01-01T00:00:02.000Z"
  outcome := "exited"
  sessionOutcome := ⟨.clean, .cleanExit, none, ""⟩
  scenario := ⟨"vanilla_launch", "vanilla", none, some "1.21.1", none, none, none, none⟩
  device := ⟨"mid", none, none⟩
  resourceBudget := none
  exitCode := some 0
  bootDurationMs := some 1000
  crashEvidence := none
  stages := []
  comparison := none
  logs
  logsDropped := 0

def plainView (report : LaunchProofRecord plainFormats) : plainEvidence.Report := report.sessionId

/-- A report of another session, with a line that is kept. -/
def laterReport : LaunchProofRecord plainFormats :=
  { plainReport [⟨1, .stdout, "Saving chunks", false⟩] with
    sessionId := "later", recordedAt := "2026-01-01T00:00:04.000Z" }

theorem ranged_laterReport : Ranged laterReport :=
  ⟨forall_mem_singleton.mpr (by decide), fun _ member => absurd member (Option.not_mem_none _)⟩

/-- It is recorded faithfully after an earlier one, with a comparison. -/
theorem faithful_laterReport : ∃ kept table,
    record (acknowledgeIntents plainView) (plainReport []) noSecrets (∅ : ReportTable plainCodec)
      (none : Option (IntentTable plainEvidence)) = .ok (table, none) ∧
    sanitizeReport laterReport noSecrets = .ok kept ∧
    Faithful plainView laterReport kept noSecrets table none ∧
    kept.logs = laterReport.logs ∧ (recordedReport table kept).comparison.isSome = true := by
  have found : (record (acknowledgeIntents plainView) (plainReport []) noSecrets
      (∅ : ReportTable plainCodec) (none : Option (IntentTable plainEvidence))).toOption.any
        (fun made => made.2.isNone && (sanitizeReport laterReport noSecrets).toOption.any fun kept =>
          (made.1.lookup kept.sessionId).isNone && decide (kept.logs = laterReport.logs) &&
            (recordedReport made.1 kept).comparison.isSome) = true := by
    decide +kernel
  cases earlier : record (acknowledgeIntents plainView) (plainReport []) noSecrets
      (∅ : ReportTable plainCodec) (none : Option (IntentTable plainEvidence)) with
  | error error =>
    rw [earlier] at found
    cases found
  | ok made =>
    obtain ⟨table, after⟩ := made
    cases sanitised : sanitizeReport laterReport noSecrets with
    | error error =>
      rw [earlier, sanitised] at found
      cases after <;> cases found
    | ok kept =>
      rw [earlier, sanitised] at found
      simp only [Except.toOption, Option.any_some, Bool.and_eq_true, decide_eq_true_eq,
        Option.isNone_iff_eq_none] at found
      obtain ⟨rfl, ⟨absent, logs⟩, compared⟩ := found
      refine ⟨kept, table, rfl, rfl, (faithful_iff plainView ranged_laterReport sanitised
        (.record .empty earlier) absent (Nat.zero_le _)
        fun _ member => absurd member (Option.not_mem_none _)).mpr ⟨fun entry member => ?_,
          fun _ member => absurd member (Option.not_mem_none _)⟩, logs, compared⟩
      cases mem_singleton.mp (mem_of_mem_drop member)
      exact (redactLine_again_iff noSecrets "Saving chunks").mp (by decide +kernel)

/-- A line that begins with an option only after its tab is dropped. -/
def tabbedReport : LaunchProofRecord plainFormats := plainReport [⟨1, .stdout, "\t-dfoo", false⟩]

/-- It is accepted, changed when it is sanitised again, and not recorded. -/
theorem tabbedReport_unrecordable : ∃ kept, sanitizeReport tabbedReport noSecrets = .ok kept ∧
    sanitizeReport kept noSecrets ≠ .ok kept ∧
    record (acknowledgeIntents plainView) tabbedReport noSecrets (∅ : ReportTable plainCodec) none =
      .error .invalid := by
  have changed : (sanitizeReport tabbedReport noSecrets).toOption.any
      (fun kept => decide ((sanitizeReport kept noSecrets).toOption ≠ some kept)) = true := by
    decide +kernel
  have refused : (match record (acknowledgeIntents plainView) tabbedReport noSecrets
      (∅ : ReportTable plainCodec) none with
    | .error error => decide (error = .invalid)
    | .ok _ => false) = true := by
    decide +kernel
  cases sanitised : sanitizeReport tabbedReport noSecrets with
  | error error =>
    rw [sanitised] at changed
    cases changed
  | ok kept =>
    rw [sanitised] at changed
    refine ⟨kept, rfl, fun same => ?_, ?_⟩
    · refine of_decide_eq_true changed ?_
      rw [same]
      rfl
    · revert refused
      cases record (acknowledgeIntents plainView) tabbedReport noSecrets
        (∅ : ReportTable plainCodec) none with
      | error error => exact fun refused => congrArg _ (of_decide_eq_true refused)
      | ok _ => exact fun refused => nomatch refused

end Axial.Launch.Terminal
