/-
This file treats the scan that looks for interrupted launches at a start. It reads the
unacknowledged rows in the order of their keys within a budget of records and bytes, passes
over those that are settled, acknowledges those that have a report, and lists the others.
A scan that has listed them has listed exactly these; one that is incomplete has
acknowledged a row; and where the settled rows leave room for a report, repeated scans get
through.
-/

import Axial.Launch.Intent

namespace Axial.Launch

open List Option AList

variable {evidence : Evidence}

/-! ### The scan -/

def IntentState.authorized : IntentState → Bool
  | .accepted | .interrupted => true
  | _ => false

namespace IntentRow

/-- Whether the scan sees a row. -/
def unresolved (row : IntentRow evidence) : Bool := row.state.authorized && !row.terminalAck

def acknowledged (row : IntentRow evidence) : IntentRow evidence := { row with terminalAck := true }

def bytes (row : IntentRow evidence) : Nat :=
  evidence.size row.payload + row.settlement.elim 0 evidence.settlementSize

end IntentRow

/-- A row with its key. -/
abbrev KeyedRow (evidence : Evidence) : Type := Σ _ : String, IntentRow evidence

/-- Whether the columns of a row are within their bounds. -/
def KeyedRow.readable (row : KeyedRow evidence) : Bool :=
  row.1.length = 36 && evidence.size row.2.payload ≤ maxPayloadBytes

/-- The rows that a report is for. -/
def reportedRows (report : evidence.Report) (table : IntentTable evidence) :
    List (KeyedRow evidence) :=
  table.entries.filter fun row => row.2.state.authorized &&
    (evidence.payloadSession row.2.payload = some (evidence.reportSession report) : Bool)

/-- `acknowledge_terminal`; `none` is a report that is invalid. -/
def acknowledgeTerminal (report : evidence.Report) (table : IntentTable evidence) :
    Option (IntentTable evidence) :=
  match reportedRows report table with
  | [] => some table
  | [⟨key, row⟩] =>
    if KeyedRow.readable ⟨key, row⟩ then
      match decodeIntent evidence key row.payload with
      | .error _ => none
      | .ok record =>
        match evidence.terminalSnapshot record report with
        | none => none
        | some _ =>
          let matched := match row.settlement with
            | none => true
            | some settlement =>
              match evidence.decodeSettlement record row.payload settlement with
              | none => false
              | some observation => evidence.matchesReport observation report
          if matched then some (table.insert key row.acknowledged) else none
    else none
  | _ => none

structure RecoveryLimits where
  records : Nat
  bytes : Nat

structure RecoveryScan where
  interrupted : List IntentRecord
  bytes : Nat
  examined : Nat
  acknowledged : Bool

def RecoveryScan.start : RecoveryScan := ⟨[], 0, 0, false⟩

def RecoveryScan.exhausted (scan : RecoveryScan) : LaunchError :=
  if scan.acknowledged then .recoveryIncomplete else .atCapacity

/-- The loop of `interrupted_records_with_limits` over the rows that its cursor comes to. -/
def scanRows (limits : RecoveryLimits) (reports : Reports evidence) :
    List (KeyedRow evidence) → RecoveryScan → IntentTable evidence →
      Except LaunchError (List IntentRecord) × IntentTable evidence
  | [], scan, table => (.ok scan.interrupted, table)
  | ⟨key, row⟩ :: rest, scan, table =>
    if ¬KeyedRow.readable ⟨key, row⟩ then (.error .intentUnavailable, table)
    else if scan.examined = limits.records ∨ limits.bytes < scan.bytes + row.bytes then
      (.error scan.exhausted, table)
    else
      let scan := { scan with examined := scan.examined + 1, bytes := scan.bytes + row.bytes }
      match decodeIntent evidence key row.payload with
      | .error error => (.error error, table)
      | .ok record =>
        match row.settlement with
        | some settlement =>
          match evidence.decodeSettlement record row.payload settlement with
          | none => (.error .intentUnavailable, table)
          | some _ => scanRows limits reports rest scan table
        | none =>
          if record.context.any fun context => !evidence.parsesContext context then
            (.error .intentUnavailable, table)
          else if limits.bytes < scan.bytes + reports.bytes record.sessionId then
            (.error scan.exhausted, table)
          else
            let scan := { scan with bytes := scan.bytes + reports.bytes record.sessionId }
            match reports.get record.sessionId with
            | .error _ => (.error .intentUnavailable, table)
            | .ok none =>
              scanRows limits reports rest
                { scan with interrupted := scan.interrupted ++ [record] } table
            | .ok (some report) =>
              match evidence.terminalSnapshot record report with
              | none => (.error .intentUnavailable, table)
              | some _ =>
                match acknowledgeTerminal report table with
                | none => (.error .intentUnavailable, table)
                | some after =>
                  scanRows limits reports rest { scan with acknowledged := true } after

/-- The rows that the scan sees, in the order of their keys. -/
def unresolvedRows (table : IntentTable evidence) : List (KeyedRow evidence) :=
  (table.entries.filter fun row => row.2.unresolved).insertionSort fun first second =>
    first.1 ≤ second.1

def interruptedRecords (limits : RecoveryLimits) (reports : Reports evidence)
    (table : IntentTable evidence) :
    Except LaunchError (List IntentRecord) × IntentTable evidence :=
  scanRows limits reports (unresolvedRows table) .start table

/-! ### One row -/

/-- What the scan makes of a row, and whether it acknowledges it. -/
inductive Visited (reports : Reports evidence) (row : KeyedRow evidence) (scan : RecoveryScan) :
    RecoveryScan → Bool → Prop
  | settled {record : IntentRecord} {settlement : evidence.Settlement}
      {observation : evidence.Observation}
      (decoded : decodeIntent evidence row.1 row.2.payload = .ok record)
      (kept : row.2.settlement = some settlement)
      (valid : evidence.decodeSettlement record row.2.payload settlement = some observation) :
    Visited reports row scan
      { scan with examined := scan.examined + 1, bytes := scan.bytes + row.2.bytes } false
  | interrupted {record : IntentRecord}
      (decoded : decodeIntent evidence row.1 row.2.payload = .ok record)
      (unsettled : row.2.settlement = none)
      (unreported : reports.get record.sessionId = .ok none) :
    Visited reports row scan
      { scan with
        examined := scan.examined + 1
        bytes := scan.bytes + row.2.bytes + reports.bytes record.sessionId
        interrupted := scan.interrupted ++ [record] } false
  | reported {record : IntentRecord} {report : evidence.Report} {session : evidence.Session}
      (decoded : decodeIntent evidence row.1 row.2.payload = .ok record)
      (unsettled : row.2.settlement = none)
      (found : reports.get record.sessionId = .ok (some report))
      (terminal : evidence.terminalSnapshot record report = some session) :
    Visited reports row scan
      { scan with
        examined := scan.examined + 1
        bytes := scan.bytes + row.2.bytes + reports.bytes record.sessionId
        acknowledged := true } true

/-- The table after a row has been visited. -/
def visitedTable (row : KeyedRow evidence) (table : IntentTable evidence) :
    Bool → IntentTable evidence
  | true => table.insert row.1 row.2.acknowledged
  | false => table

/-- Whether the budget does not cover a row. -/
def Exceeds (limits : RecoveryLimits) (reports : Reports evidence) (scan : RecoveryScan)
    (row : KeyedRow evidence) : Prop :=
  scan.examined = limits.records ∨ limits.bytes < scan.bytes + row.2.bytes ∨
    ∃ record, decodeIntent evidence row.1 row.2.payload = .ok record ∧
      row.2.settlement = none ∧
      limits.bytes < scan.bytes + row.2.bytes + reports.bytes record.sessionId

/-- A row that is settled, or that has a report, as it should be. -/
def Sound (reports : Reports evidence) (table : IntentTable evidence)
    (row : KeyedRow evidence) : Prop :=
  KeyedRow.readable row = true ∧ ∃ record, decodeIntent evidence row.1 row.2.payload = .ok record ∧
    match row.2.settlement with
    | some settlement =>
      (evidence.decodeSettlement record row.2.payload settlement).isSome = true
    | none => (∀ context, record.context = some context → evidence.parsesContext context = true) ∧
      ∃ report, reports.get record.sessionId = .ok (some report) ∧
        (evidence.terminalSnapshot record report).isSome = true ∧
        (reportedRows report table).length ≤ 1

/-- A scan stops at the first of its rows, where that is not sound or exceeds the budget, or it
visits it. -/
inductive Scans (limits : RecoveryLimits) (reports : Reports evidence) (row : KeyedRow evidence)
    (rest : List (KeyedRow evidence)) (scan : RecoveryScan) (table : IntentTable evidence) : Prop
  | refuses (unsound : ¬Sound reports table row)
      (stopped : scanRows limits reports (row :: rest) scan table =
        (.error .intentUnavailable, table))
  | exhausted (exceeds : Exceeds limits reports scan row)
      (stopped : scanRows limits reports (row :: rest) scan table = (.error scan.exhausted, table))
  | visits {next : RecoveryScan} {acked : Bool} (visited : Visited reports row scan next acked)
      (goesOn : scanRows limits reports (row :: rest) scan table =
        scanRows limits reports rest next (visitedTable row table acked))

variable {key : String} {payload : evidence.Payload}

theorem decodeIntent_error {error : LaunchError}
    (failed : decodeIntent evidence key payload = .error error) : error = .intentUnavailable := by
  unfold decodeIntent at failed
  split at failed
  · exact (Except.error.inj failed).symm
  · split at failed
    · exact (Except.error.inj failed).symm
    · split at failed
      · exact (Except.error.inj failed).symm
      · split at failed
        · exact (Except.error.inj failed).symm
        · cases failed

variable {record : IntentRecord}

theorem decodeIntent_parse (decoded : decodeIntent evidence key payload = .ok record) :
    evidence.parse payload = some record := by
  unfold decodeIntent at decoded
  split at decoded
  · cases decoded
  · split at decoded
    · cases decoded
    · rename_i parsed
      split at decoded
      · cases decoded
      · split at decoded
        · cases decoded
        · cases decoded
          exact parsed

variable {reports : Reports evidence} {table : IntentTable evidence} {row : KeyedRow evidence}
  {report : evidence.Report}

/-- The row that a report is for is among those with its session. -/
theorem mem_reportedRows (present : table.lookup row.1 = some row.2)
    (authorized : row.2.state.authorized = true)
    (decoded : decodeIntent evidence row.1 row.2.payload = .ok record)
    (found : reports.get record.sessionId = .ok (some report)) :
    row ∈ reportedRows report table := by
  refine mem_filter.mpr ⟨mem_lookup_iff.mp present, ?_⟩
  rw [authorized, evidence.located _ _ (decodeIntent_parse decoded), reports.named _ _ found]
  simp

/-- An unsettled row is acknowledged if it is the only one of its session. -/
theorem acknowledgeTerminal_eq {session : evidence.Session}
    (readable : KeyedRow.readable row = true) (member : row ∈ reportedRows report table)
    (decoded : decodeIntent evidence row.1 row.2.payload = .ok record)
    (unsettled : row.2.settlement = none)
    (terminal : evidence.terminalSnapshot record report = some session) :
    acknowledgeTerminal report table =
      if (reportedRows report table).length ≤ 1 then
        some (visitedTable row table true) else none := by
  unfold acknowledgeTerminal
  split
  · rename_i empty
    rw [empty] at member
    cases member
  · rename_i key other single
    rw [single, mem_singleton] at member
    subst member
    rw [if_pos readable, if_pos (by rw [single]; exact le_rfl)]
    dsimp only at decoded unsettled
    rw [decoded]
    dsimp only
    rw [terminal]
    dsimp only
    rw [unsettled]
    rfl
  · rename_i several many
    rw [if_neg]
    intro few
    match rows : reportedRows report table with
    | [] => exact several rows
    | [⟨key, other⟩] => exact many key other rows
    | _ :: _ :: _ =>
      rw [rows] at few
      simp at few

variable {settlement : evidence.Settlement}

theorem Sound.of_settled (sound : Sound reports table row)
    (decoded : decodeIntent evidence row.1 row.2.payload = .ok record)
    (kept : row.2.settlement = some settlement) :
    (evidence.decodeSettlement record row.2.payload settlement).isSome = true := by
  obtain ⟨_, other, again, valid⟩ := sound
  rw [decoded] at again
  cases again
  rw [kept] at valid
  exact valid

theorem Sound.of_unsettled (sound : Sound reports table row)
    (decoded : decodeIntent evidence row.1 row.2.payload = .ok record)
    (unsettled : row.2.settlement = none) :
    (∀ context, record.context = some context → evidence.parsesContext context = true) ∧
      ∃ report, reports.get record.sessionId = .ok (some report) ∧
        (evidence.terminalSnapshot record report).isSome = true ∧
        (reportedRows report table).length ≤ 1 := by
  obtain ⟨_, other, again, valid⟩ := sound
  rw [decoded] at again
  cases again
  rw [unsettled] at valid
  exact valid

variable {limits : RecoveryLimits} {rest : List (KeyedRow evidence)} {scan : RecoveryScan}

/-- What becomes of an unsettled row that the budget covers up to its report. -/
theorem scanRows_unsettled (present : table.lookup row.1 = some row.2)
    (authorized : row.2.state.authorized = true) (readable : KeyedRow.readable row = true)
    (room : ¬(scan.examined = limits.records ∨ limits.bytes < scan.bytes + row.2.bytes))
    (decoded : decodeIntent evidence row.1 row.2.payload = .ok record)
    (unsettled : row.2.settlement = none) :
    Scans limits reports row rest scan table := by
  have unfolded := scanRows.eq_2 limits reports scan table row.1 row.2 rest
  simp only [readable, not_true_eq_false, if_false, if_neg room, decoded, unsettled] at unfolded
  by_cases context : (record.context.any fun context => !evidence.parsesContext context) = true
  case pos =>
    refine .refuses (fun sound => ?_) (by rw [unfolded, if_pos context])
    obtain ⟨text, kept, unparsed⟩ := (Option.any_eq_true ..).mp context
    rw [(sound.of_unsettled decoded unsettled).1 text kept] at unparsed
    cases unparsed
  rw [if_neg context] at unfolded
  by_cases full : limits.bytes < scan.bytes + row.2.bytes + reports.bytes record.sessionId
  case pos =>
    exact .exhausted (.inr (.inr ⟨record, decoded, unsettled, full⟩))
      (by rw [unfolded, if_pos full]; rfl)
  rw [if_neg full] at unfolded
  have unsound : (∀ report, reports.get record.sessionId = .ok (some report) →
      (evidence.terminalSnapshot record report).isSome = true →
      ¬(reportedRows report table).length ≤ 1) → ¬Sound reports table row := by
    intro none sound
    obtain ⟨report, found, terminal, single⟩ := (sound.of_unsettled decoded unsettled).2
    exact none report found terminal single
  match found : reports.get record.sessionId with
  | .error _ =>
    rw [found] at unfolded
    refine .refuses (unsound fun report other => ?_) unfolded
    rw [found] at other
    cases other
  | .ok none =>
    rw [found] at unfolded
    exact .visits (.interrupted decoded unsettled found) unfolded
  | .ok (some report) =>
    rw [found] at unfolded
    dsimp only at unfolded
    have same : ∀ other, reports.get record.sessionId = .ok (some other) → other = report := by
      intro other again
      rw [found] at again
      cases again
      rfl
    cases terminal : evidence.terminalSnapshot record report with
    | none =>
      rw [terminal] at unfolded
      refine .refuses (unsound fun other again snapshot => ?_) unfolded
      rw [same other again, terminal] at snapshot
      cases snapshot
    | some session =>
      rw [terminal, acknowledgeTerminal_eq readable (mem_reportedRows present authorized decoded
        found) decoded unsettled terminal] at unfolded
      by_cases single : (reportedRows report table).length ≤ 1
      · rw [if_pos single] at unfolded
        exact .visits (.reported decoded unsettled found terminal) unfolded
      · rw [if_neg single] at unfolded
        refine .refuses (unsound fun other again _ => ?_) unfolded
        rw [same other again]
        exact single

/-- What becomes of a row that the scan comes to. -/
theorem scanRows_cons (limits : RecoveryLimits) (reports : Reports evidence)
    (rest : List (KeyedRow evidence)) (scan : RecoveryScan)
    (present : table.lookup row.1 = some row.2) (unresolved : row.2.unresolved = true) :
    Scans limits reports row rest scan table := by
  obtain ⟨key, row⟩ := row
  have authorized : row.state.authorized = true := by
    unfold IntentRow.unresolved at unresolved
    exact (Bool.and_eq_true_iff.mp unresolved).1
  by_cases readable : KeyedRow.readable ⟨key, row⟩ = true
  case neg =>
    refine .refuses (fun sound => readable sound.1) ?_
    simp only [scanRows, if_pos readable]
  by_cases full : scan.examined = limits.records ∨ limits.bytes < scan.bytes + row.bytes
  case pos =>
    refine .exhausted (full.imp_right .inl) ?_
    simp only [scanRows, readable, not_true_eq_false, if_false, if_pos full]
  cases decoded : decodeIntent evidence key row.payload with
  | error error =>
    refine .refuses ?_ ?_
    · rintro ⟨_, record, valid, _⟩
      rw [decoded] at valid
      cases valid
    · simp only [scanRows, readable, not_true_eq_false, if_false, if_neg full, decoded,
        decodeIntent_error decoded]
  | ok record =>
    cases kept : row.settlement with
    | some settlement =>
      cases valid : evidence.decodeSettlement record row.payload settlement with
      | none =>
        refine .refuses ?_ ?_
        · intro sound
          have decodes := sound.of_settled decoded kept
          dsimp only at decodes
          rw [valid] at decodes
          cases decodes
        · simp only [scanRows, readable, not_true_eq_false, if_false, if_neg full, decoded, kept,
            valid]
      | some observation =>
        refine .visits (.settled decoded kept valid) ?_
        simp only [scanRows, readable, not_true_eq_false, if_false, if_neg full, decoded, kept,
          valid, visitedTable]
    | none => exact scanRows_unsettled present authorized readable full decoded kept

/-! ### The whole scan -/

/-- The rows that are still to come are as they were. -/
def Present (table : IntentTable evidence) (rest : List (KeyedRow evidence)) : Prop :=
  (rest.map (·.1)).Nodup ∧
    ∀ row ∈ rest, table.lookup row.1 = some row.2 ∧ row.2.unresolved = true

theorem Present.tail {table : IntentTable evidence} {row : KeyedRow evidence}
    {rest : List (KeyedRow evidence)} (present : Present table (row :: rest)) (acked : Bool) :
    Present (visitedTable row table acked) rest := by
  obtain ⟨nodup, here⟩ := present
  rw [map_cons, nodup_cons] at nodup
  refine ⟨nodup.2, fun other member => ?_⟩
  obtain ⟨lookup, unresolved⟩ := here other (mem_cons_of_mem _ member)
  have apart : other.1 ≠ row.1 := by
    intro same
    exact nodup.1 (same ▸ List.mem_map_of_mem member)
  refine ⟨?_, unresolved⟩
  cases acked with
  | false => exact lookup
  | true => exact (lookup_insert_ne apart).trans lookup

theorem present_unresolvedRows (table : IntentTable evidence) :
    Present table (unresolvedRows table) := by
  have permuted := perm_insertionSort (fun first second : KeyedRow evidence =>
    first.1 ≤ second.1) (table.entries.filter fun row => row.2.unresolved)
  constructor
  · have keys : (table.entries.map (·.1)).Nodup := table.nodupKeys
    refine ((permuted.map (·.1)).nodup_iff).mpr ?_
    exact keys.sublist (filter_sublist.map _)
  · intro row member
    obtain ⟨entry, unresolved⟩ := mem_filter.mp (permuted.mem_iff.mp member)
    exact ⟨mem_lookup_iff.mpr entry, unresolved⟩

/-- What a scan lists of a row. -/
def openRecord (reports : Reports evidence) (row : KeyedRow evidence) : Option IntentRecord :=
  match decodeIntent evidence row.1 row.2.payload with
  | .error _ => none
  | .ok record =>
    let settled := row.2.settlement.any fun settlement =>
      (evidence.decodeSettlement record row.2.payload settlement).isSome
    match settled, reports.get record.sessionId with
    | false, .ok none => some record
    | _, _ => none

variable {next : RecoveryScan} {acked : Bool}

theorem Visited.lists (visited : Visited reports row scan next acked) :
    next.interrupted = scan.interrupted ++ (openRecord reports row).toList := by
  cases visited with
  | settled decoded kept valid =>
    simp only [openRecord, decoded, kept, any_some, valid, isSome_some,
      toList_none, List.append_nil]
  | interrupted decoded unsettled unreported =>
    simp only [openRecord, decoded, unsettled, any_none, unreported, toList_some]
  | reported decoded unsettled found terminal =>
    simp only [openRecord, decoded, unsettled, any_none, found, toList_none,
      List.append_nil]

variable {after : IntentTable evidence}

theorem scanRows_lists (scan : RecoveryScan) {records : List IntentRecord}
    (present : Present table rest)
    (through : scanRows limits reports rest scan table = (.ok records, after)) :
    records = scan.interrupted ++ rest.filterMap (openRecord reports) := by
  induction rest generalizing scan table with
  | nil =>
    cases through
    exact (List.append_nil _).symm
  | cons row rest ih =>
    obtain ⟨lookup, unresolved⟩ := present.2 row mem_cons_self
    cases scanRows_cons limits reports rest scan lookup unresolved with
    | refuses _ stopped | exhausted _ stopped =>
      rw [through] at stopped
      cases stopped
    | @visits next acked visited goesOn =>
      rw [goesOn] at through
      rw [ih _ (present.tail acked) through, visited.lists, append_assoc]
      congr 1
      cases listed : openRecord reports row with
      | none =>
        rw [filterMap_cons_none listed]
        rfl
      | some record =>
        rw [filterMap_cons_some listed]
        rfl

/-- A row may be acknowledged if its report matches its record and its settlement. -/
def Reported (reports : Reports evidence) (key : String) (row : IntentRow evidence) : Prop :=
  row.unresolved = true ∧ ∃ record report, decodeIntent evidence key row.payload = .ok record ∧
    reports.get record.sessionId = .ok (some report) ∧
    (evidence.terminalSnapshot record report).isSome = true ∧
    ∀ settlement, row.settlement = some settlement →
      ∃ observation, evidence.decodeSettlement record row.payload settlement = some observation ∧
        evidence.matchesReport observation report = true

/-- The tables before and after a scan: some rows have been acknowledged. -/
structure Acknowledges (reports : Reports evidence) (before after : IntentTable evidence) :
    Prop where
  kept : ∀ key row, before.lookup key = some row → after.lookup key = some row ∨
    Reported reports key row ∧ after.lookup key = some row.acknowledged
  absent : ∀ key, before.lookup key = none → after.lookup key = none

theorem Acknowledges.refl (reports : Reports evidence) (table : IntentTable evidence) :
    Acknowledges reports table table where
  kept _ _ lookup := .inl lookup
  absent _ lookup := lookup

theorem acknowledged_unresolved (row : IntentRow evidence) :
    row.acknowledged.unresolved = false := by
  simp [IntentRow.acknowledged, IntentRow.unresolved]

theorem Acknowledges.trans {before middle : IntentTable evidence}
    (first : Acknowledges reports before middle) (second : Acknowledges reports middle after) :
    Acknowledges reports before after where
  kept key row lookup := by
    rcases first.kept key row lookup with same | ⟨reported, acked⟩
    · exact second.kept key row same
    · rcases second.kept key row.acknowledged acked with same | ⟨again, _⟩
      · exact .inr ⟨reported, same⟩
      · rw [Reported, acknowledged_unresolved] at again
        exact absurd again.1 Bool.false_ne_true
  absent key lookup := second.absent key (first.absent key lookup)

theorem Visited.acknowledges (visited : Visited reports row scan next acked)
    (lookup : table.lookup row.1 = some row.2) (unresolved : row.2.unresolved = true) :
    Acknowledges reports table (visitedTable row table acked) := by
  cases visited with
  | settled | interrupted => exact .refl reports table
  | @reported record report session decoded unsettled found terminal =>
    constructor
    · intro key other here
      by_cases same : key = row.1
      · subst same
        rw [lookup] at here
        cases here
        refine .inr ⟨⟨unresolved, record, report, decoded, found, by rw [terminal]; rfl, ?_⟩,
          lookup_insert _⟩
        intro settlement kept
        rw [unsettled] at kept
        cases kept
      · exact .inl ((lookup_insert_ne same).trans here)
    · intro key here
      by_cases same : key = row.1
      · rw [same, lookup] at here
        cases here
      · exact (lookup_insert_ne same).trans here

/-- Acknowledged rows have reports that match, and nothing else has changed. -/
theorem scanRows_acknowledges (limits : RecoveryLimits) (reports : Reports evidence)
    (scan : RecoveryScan) (present : Present table rest) :
    Acknowledges reports table (scanRows limits reports rest scan table).2 := by
  induction rest generalizing scan table with
  | nil => exact .refl reports table
  | cons row rest ih =>
    obtain ⟨lookup, unresolved⟩ := present.2 row mem_cons_self
    cases scanRows_cons limits reports rest scan lookup unresolved with
    | refuses _ stopped | exhausted _ stopped =>
      rw [stopped]
      exact .refl reports table
    | @visits next acked visited goesOn =>
      rw [goesOn]
      exact (visited.acknowledges lookup unresolved).trans
        (ih _ (present.tail acked))

/-- A scan that is incomplete has acknowledged a row. -/
theorem scanRows_incomplete (present : Present table rest)
    (incomplete : (scanRows limits reports rest scan table).1 = .error .recoveryIncomplete) :
    scan.acknowledged = true ∨ ∃ row ∈ rest,
      (scanRows limits reports rest scan table).2.lookup row.1 = some row.2.acknowledged := by
  induction rest generalizing scan table with
  | nil => cases incomplete
  | cons row rest ih =>
    obtain ⟨lookup, unresolved⟩ := present.2 row mem_cons_self
    cases scanRows_cons limits reports rest scan lookup unresolved with
    | refuses _ stopped =>
      rw [stopped] at incomplete
      cases incomplete
    | exhausted _ stopped =>
      rw [stopped] at incomplete
      unfold RecoveryScan.exhausted at incomplete
      dsimp only at incomplete
      split at incomplete
      · exact .inl ‹_›
      · cases incomplete
    | visits visited goesOn =>
      rw [goesOn] at incomplete ⊢
      cases visited with
      | reported =>
        refine .inr ⟨row, mem_cons_self, ?_⟩
        rcases (scanRows_acknowledges limits reports _ (present.tail true)).kept row.1
          row.2.acknowledged (lookup_insert _) with same | ⟨again, _⟩
        · exact same
        · rw [Reported, acknowledged_unresolved] at again
          exact absurd again.1 Bool.false_ne_true
      | settled | interrupted =>
        rcases ih (present.tail false) incomplete with
          before | ⟨other, member, acked⟩
        · exact .inl before
        · exact .inr ⟨other, mem_cons_of_mem _ member, acked⟩

/-! ### How many rows are left -/

theorem mem_unresolvedRows :
    row ∈ unresolvedRows table ↔ table.lookup row.1 = some row.2 ∧ row.2.unresolved = true := by
  constructor
  · exact (present_unresolvedRows table).2 row
  · rintro ⟨lookup, unresolved⟩
    refine (perm_insertionSort _ _).mem_iff.mpr ?_
    exact mem_filter.mpr ⟨mem_lookup_iff.mp lookup, unresolved⟩

theorem Acknowledges.unresolved {before : IntentTable evidence}
    (acknowledges : Acknowledges reports before after) (member : row ∈ unresolvedRows after) :
    row ∈ unresolvedRows before := by
  obtain ⟨lookup, unresolved⟩ := mem_unresolvedRows.mp member
  cases was : before.lookup row.1 with
  | none =>
    rw [acknowledges.absent row.1 was] at lookup
    cases lookup
  | some earlier =>
    rcases acknowledges.kept row.1 earlier was with same | ⟨_, acked⟩
    · rw [same] at lookup
      cases lookup
      exact mem_unresolvedRows.mpr ⟨was, unresolved⟩
    · rw [acked] at lookup
      rw [← Option.some.inj lookup, acknowledged_unresolved] at unresolved
      cases unresolved

/-- Rows are only ever acknowledged, so a row more that is makes them fewer. -/
theorem Acknowledges.fewer {before : IntentTable evidence}
    (acknowledges : Acknowledges reports before after) (member : row ∈ unresolvedRows before)
    (acked : after.lookup row.1 = some row.2.acknowledged) :
    (unresolvedRows after).length < (unresolvedRows before).length := by
  have missing : row.1 ∉ (unresolvedRows after).map (·.1) := by
    intro still
    obtain ⟨other, there, same⟩ := List.mem_map.mp still
    obtain ⟨lookup, unresolved⟩ := mem_unresolvedRows.mp there
    rw [same, acked] at lookup
    rw [← Option.some.inj lookup, acknowledged_unresolved] at unresolved
    cases unresolved
  have nodup : (row.1 :: (unresolvedRows after).map (·.1)).Nodup :=
    nodup_cons.mpr ⟨missing, (present_unresolvedRows after).1⟩
  have inside : (row.1 :: (unresolvedRows after).map (·.1)) ⊆
      (unresolvedRows before).map (·.1) := by
    intro key here
    rcases mem_cons.mp here with rfl | later
    · exact List.mem_map_of_mem member
    · obtain ⟨other, there, rfl⟩ := List.mem_map.mp later
      exact List.mem_map_of_mem (acknowledges.unresolved there)
  have bound := (nodup.subperm inside).length_le
  rw [length_cons, length_map, length_map] at bound
  exact bound

/-! ### Scans that get through -/

/-- No two rows share a session. -/
def Distinct (table : IntentTable evidence) : Prop :=
  ∀ first second : KeyedRow evidence, table.lookup first.1 = some first.2 →
    table.lookup second.1 = some second.2 → first.2.state.authorized = true →
    second.2.state.authorized = true → ∀ sessionId,
    evidence.payloadSession first.2.payload = some sessionId →
    evidence.payloadSession second.2.payload = some sessionId → first = second

/-- A launch that has a valid settlement or a report that matches. -/
def Accounted (reports : Reports evidence) (row : KeyedRow evidence) : Prop :=
  KeyedRow.readable row = true ∧ ∃ record, decodeIntent evidence row.1 row.2.payload = .ok record ∧
    match row.2.settlement with
    | some settlement =>
      (evidence.decodeSettlement record row.2.payload settlement).isSome = true
    | none => (∀ context, record.context = some context → evidence.parsesContext context = true) ∧
      ∃ report, reports.get record.sessionId = .ok (some report) ∧
        (evidence.terminalSnapshot record report).isSome = true

theorem Distinct.single (distinct : Distinct table) (report : evidence.Report) :
    (reportedRows report table).length ≤ 1 := by
  have nodup : (reportedRows report table).Nodup :=
    (List.Nodup.of_map _ table.nodupKeys).filter _
  have same : ∀ first ∈ reportedRows report table, ∀ second ∈ reportedRows report table,
      first = second := by
    intro first firstMember second secondMember
    obtain ⟨firstEntry, firstFits⟩ := mem_filter.mp firstMember
    obtain ⟨secondEntry, secondFits⟩ := mem_filter.mp secondMember
    simp only [Bool.and_eq_true, decide_eq_true_eq] at firstFits secondFits
    exact distinct first second (mem_lookup_iff.mpr firstEntry)
      (mem_lookup_iff.mpr secondEntry) firstFits.1 secondFits.1 _ firstFits.2 secondFits.2
  match rows : reportedRows report table with
  | [] => exact Nat.zero_le 1
  | [_] => exact le_rfl
  | first :: second :: rest =>
    rw [rows] at nodup same
    have equal := same first mem_cons_self second
      (mem_cons_of_mem _ mem_cons_self)
    rw [equal] at nodup
    exact absurd mem_cons_self (nodup_cons.mp nodup).1

theorem Accounted.sound (accounted : Accounted reports row) (distinct : Distinct table) :
    Sound reports table row := by
  obtain ⟨readable, record, decoded, valid⟩ := accounted
  refine ⟨readable, record, decoded, ?_⟩
  cases kept : row.2.settlement with
  | some settlement =>
    rw [kept] at valid
    exact valid
  | none =>
    rw [kept] at valid
    obtain ⟨context, report, found, terminal⟩ := valid
    exact ⟨context, report, found, terminal, distinct.single report⟩

theorem Acknowledges.before {before : IntentTable evidence}
    (acknowledges : Acknowledges reports before after) (lookup : after.lookup row.1 = some row.2) :
    ∃ earlier, before.lookup row.1 = some earlier ∧ row.2.payload = earlier.payload ∧
      row.2.state = earlier.state := by
  cases was : before.lookup row.1 with
  | none =>
    rw [acknowledges.absent row.1 was] at lookup
    cases lookup
  | some earlier =>
    refine ⟨earlier, rfl, ?_⟩
    rcases acknowledges.kept row.1 earlier was with same | ⟨_, acked⟩
    · rw [same] at lookup
      rw [← Option.some.inj lookup]
      exact ⟨rfl, rfl⟩
    · rw [acked] at lookup
      rw [← Option.some.inj lookup]
      exact ⟨rfl, rfl⟩

theorem Acknowledges.distinct {before : IntentTable evidence}
    (acknowledges : Acknowledges reports before after) (distinct : Distinct before) :
    Distinct after := by
  intro first second firstHere secondHere firstAuthorized secondAuthorized sessionId
    firstSession secondSession
  obtain ⟨firstEarlier, firstWas, firstPayload, firstState⟩ := acknowledges.before firstHere
  obtain ⟨secondEarlier, secondWas, secondPayload, secondState⟩ := acknowledges.before secondHere
  have same := distinct ⟨first.1, firstEarlier⟩ ⟨second.1, secondEarlier⟩ firstWas secondWas
    (firstState ▸ firstAuthorized) (secondState ▸ secondAuthorized) sessionId
    (firstPayload ▸ firstSession) (secondPayload ▸ secondSession)
  have key : first.1 = second.1 := congrArg (·.1) same
  obtain ⟨key', row⟩ := first
  obtain ⟨other, row'⟩ := second
  dsimp only at key firstHere secondHere
  subst key
  rw [firstHere] at secondHere
  rw [Option.some.inj secondHere]

def settledRows (rows : List (KeyedRow evidence)) : List (KeyedRow evidence) :=
  rows.filter fun row => row.2.settlement.isSome

def settledBytes (rows : List (KeyedRow evidence)) : Nat :=
  ((settledRows rows).map fun row => row.2.bytes).sum

/-- What is left of the budget covers all rows that are settled and any one that has a report. -/
structure Affords (limits : RecoveryLimits) (reports : Reports evidence)
    (rows : List (KeyedRow evidence)) (examined bytes : Nat) : Prop where
  count : examined + (settledRows rows).length ≤ limits.records
  size : bytes + settledBytes rows ≤ limits.bytes
  report : ∀ row ∈ rows, row.2.settlement = none → ∀ record,
    decodeIntent evidence row.1 row.2.payload = .ok record →
    examined + (settledRows rows).length < limits.records ∧
      bytes + settledBytes rows + row.2.bytes + reports.bytes record.sessionId ≤ limits.bytes

theorem settledRows_cons_settled (rest : List (KeyedRow evidence))
    (kept : row.2.settlement = some settlement) :
    settledRows (row :: rest) = row :: settledRows rest := by
  rw [settledRows, filter_cons, if_pos (by rw [kept]; rfl)]
  rfl

theorem Affords.settled {examined bytes : Nat}
    (affords : Affords limits reports (row :: rest) examined bytes)
    (kept : row.2.settlement = some settlement) :
    Affords limits reports rest (examined + 1) (bytes + row.2.bytes) := by
  have rows := settledRows_cons_settled rest kept
  have sum : settledBytes (row :: rest) = row.2.bytes + settledBytes rest := by
    rw [settledBytes, rows, map_cons, sum_cons]
    rfl
  have count : (settledRows (row :: rest)).length = (settledRows rest).length + 1 := by
    rw [rows, length_cons]
  obtain ⟨records, fits, report⟩ := affords
  rw [count] at records
  rw [sum] at fits
  refine ⟨by omega, by omega, fun other member unsettled record decoded => ?_⟩
  have room := report other (mem_cons_of_mem _ member) unsettled record decoded
  rw [count, sum] at room
  omega

/-- The budget covers the row that comes next. -/
theorem Affords.covers (affords : Affords limits reports (row :: rest) scan.examined scan.bytes)
    (decodes : ∃ record, decodeIntent evidence row.1 row.2.payload = .ok record) :
    ¬Exceeds limits reports scan row := by
  cases kept : row.2.settlement with
  | some settlement =>
    have next := affords.settled kept
    rintro (full | full | ⟨record, _, unsettled, _⟩)
    · have := next.count
      omega
    · have := next.size
      omega
    · rw [kept] at unsettled
      cases unsettled
  | none =>
    obtain ⟨record, decoded⟩ := decodes
    have room := affords.report row mem_cons_self kept record decoded
    rintro (full | full | ⟨other, again, _, full⟩)
    · omega
    · omega
    · rw [decoded] at again
      cases again
      omega

theorem scanRows_through (scan : RecoveryScan) (present : Present table rest)
    (distinct : Distinct table) (accounted : ∀ row ∈ rest, Accounted reports row)
    (room : scan.acknowledged = true ∨ Affords limits reports rest scan.examined scan.bytes) :
    (scanRows limits reports rest scan table).1 = .ok scan.interrupted ∨
      (scanRows limits reports rest scan table).1 = .error .recoveryIncomplete := by
  induction rest generalizing scan table with
  | nil => exact .inl rfl
  | cons row rest ih =>
    obtain ⟨lookup, unresolved⟩ := present.2 row mem_cons_self
    have here := accounted row mem_cons_self
    cases scanRows_cons limits reports rest scan lookup unresolved with
    | refuses unsound => exact absurd (here.sound distinct) unsound
    | exhausted exceeds stopped =>
      rw [stopped]
      rcases room with acknowledged | affords
      · exact .inr (by simp only [RecoveryScan.exhausted, acknowledged, if_true])
      · obtain ⟨_, record, decoded, _⟩ := here
        exact absurd exceeds (affords.covers ⟨record, decoded⟩)
    | @visits next acked visited goesOn =>
      rw [goesOn]
      have later := ih next (present.tail acked)
        ((visited.acknowledges lookup unresolved).distinct distinct)
        fun other member => accounted other (mem_cons_of_mem _ member)
      cases visited with
      | settled decoded kept valid =>
        exact later (room.imp_right fun affords => affords.settled kept)
      | reported => exact later (.inl rfl)
      | interrupted decoded unsettled unreported =>
        obtain ⟨_, found, _⟩ := ((here.sound distinct).of_unsettled decoded unsettled).2
        rw [unreported] at found
        cases found

/-- The table after a number of scans. -/
def rescanned (limits : RecoveryLimits) (reports : Reports evidence) (scans : Nat)
    (table : IntentTable evidence) : IntentTable evidence :=
  (fun table => (interruptedRecords limits reports table).2)^[scans] table

theorem rescanned_succ {scans : Nat} :
    rescanned limits reports (scans + 1) table =
      rescanned limits reports scans (interruptedRecords limits reports table).2 := rfl

theorem interruptedRecords_acknowledges (limits : RecoveryLimits) (reports : Reports evidence)
    (table : IntentTable evidence) :
    Acknowledges reports table (interruptedRecords limits reports table).2 :=
  scanRows_acknowledges limits reports .start (present_unresolvedRows table)

theorem interruptedRecords_fewer
    (incomplete : (interruptedRecords limits reports table).1 = .error .recoveryIncomplete) :
    (unresolvedRows (interruptedRecords limits reports table).2).length <
      (unresolvedRows table).length := by
  rcases scanRows_incomplete (present_unresolvedRows table) incomplete with started | acked
  · cases started
  · obtain ⟨row, member, acked⟩ := acked
    exact (interruptedRecords_acknowledges limits reports table).fewer member acked

theorem rescanned_complete (limits : RecoveryLimits) (reports : Reports evidence)
    (table : IntentTable evidence) :
    ∃ scans, (interruptedRecords limits reports (rescanned limits reports scans table)).1 ≠
      .error .recoveryIncomplete := by
  induction rows : (unresolvedRows table).length using Nat.strongRecOn generalizing table with
  | ind count ih =>
    by_cases incomplete :
        (interruptedRecords limits reports table).1 = .error .recoveryIncomplete
    · have fewer := interruptedRecords_fewer incomplete
      rw [rows] at fewer
      obtain ⟨scans, complete⟩ := ih _ fewer _ rfl
      exact ⟨scans + 1, complete⟩
    · exact ⟨0, incomplete⟩

theorem Affords.sublist {rows fewer : List (KeyedRow evidence)}
    (affords : Affords limits reports rows 0 0) (inside : fewer.Subperm rows) :
    Affords limits reports fewer 0 0 := by
  obtain ⟨list, permuted, sublist⟩ := inside.filter fun row : KeyedRow evidence =>
    row.2.settlement.isSome
  have count : (settledRows fewer).length ≤ (settledRows rows).length :=
    permuted.length_eq ▸ sublist.length_le
  have sum : settledBytes fewer ≤ settledBytes rows := by
    have smaller := (sublist.map fun row => row.2.bytes).sum_le_sum fun _ _ => Nat.zero_le _
    rwa [(permuted.map fun row => row.2.bytes).sum_eq] at smaller
  obtain ⟨records, bytes, report⟩ := affords
  refine ⟨by omega, by omega, fun row member unsettled record decoded => ?_⟩
  have room := report row (inside.subset member) unsettled record decoded
  omega

theorem Acknowledges.subperm {before : IntentTable evidence}
    (acknowledges : Acknowledges reports before after) :
    (unresolvedRows after).Subperm (unresolvedRows before) :=
  (List.Nodup.of_map _ (present_unresolvedRows after).1).subperm fun _ member =>
    acknowledges.unresolved member

/-- Where all launches are accounted for and the budget affords them, repeated scans end with
nothing left to report. -/
theorem rescanned_through (distinct : Distinct table)
    (accounted : ∀ row ∈ unresolvedRows table, Accounted reports row)
    (affords : Affords limits reports (unresolvedRows table) 0 0) :
    ∃ scans, (interruptedRecords limits reports (rescanned limits reports scans table)).1 =
      .ok [] := by
  induction rows : (unresolvedRows table).length using Nat.strongRecOn generalizing table with
  | ind count ih =>
    rcases scanRows_through .start (present_unresolvedRows table) distinct accounted
      (.inr affords) with through | incomplete
    · exact ⟨0, through⟩
    · have acknowledges := interruptedRecords_acknowledges limits reports table
      have fewer := interruptedRecords_fewer incomplete
      rw [rows] at fewer
      obtain ⟨scans, through⟩ := ih _ fewer (acknowledges.distinct distinct)
        (fun row member => accounted row (acknowledges.unresolved member))
        (affords.sublist acknowledges.subperm) rfl
      exact ⟨scans + 1, through⟩

/-- The scan lists exactly what is open, acknowledges only what its report matches, makes
progress where it is incomplete, and gets through where all launches are accounted for and the
budget affords the settled ones together with any report. -/
theorem interruptedRecords_laws (limits : RecoveryLimits) (reports : Reports evidence)
    (table : IntentTable evidence) :
    (∀ records, (interruptedRecords limits reports table).1 = .ok records →
      records = (unresolvedRows table).filterMap (openRecord reports)) ∧
    Acknowledges reports table (interruptedRecords limits reports table).2 ∧
    ((interruptedRecords limits reports table).1 = .error .recoveryIncomplete →
      (unresolvedRows (interruptedRecords limits reports table).2).length <
        (unresolvedRows table).length) ∧
    (∃ scans, (interruptedRecords limits reports (rescanned limits reports scans table)).1 ≠
      .error .recoveryIncomplete) ∧
    (Distinct table → (∀ row ∈ unresolvedRows table, Accounted reports row) →
      Affords limits reports (unresolvedRows table) 0 0 →
      ∃ scans, (interruptedRecords limits reports (rescanned limits reports scans table)).1 =
        .ok []) := by
  refine ⟨fun records through => ?_, interruptedRecords_acknowledges limits reports table,
    interruptedRecords_fewer, rescanned_complete limits reports table, rescanned_through⟩
  exact scanRows_lists .start (present_unresolvedRows table)
    (Prod.ext through rfl)

/-! ### Too many settled rows -/

/-- Settled rows beyond the budget of records stop every scan. -/
theorem scanRows_overflow (present : Present table rest)
    (accounted : ∀ row ∈ rest, Accounted reports row)
    (settled : ∀ row ∈ rest, row.2.settlement.isSome = true) (nothing : scan.acknowledged = false)
    (many : limits.records < scan.examined + rest.length) (room : scan.examined ≤ limits.records) :
    scanRows limits reports rest scan table = (.error .atCapacity, table) := by
  induction rest generalizing scan with
  | nil =>
    rw [length_nil] at many
    omega
  | cons row rest ih =>
    obtain ⟨lookup, unresolved⟩ := present.2 row mem_cons_self
    obtain ⟨readable, record, decoded, valid⟩ := accounted row mem_cons_self
    obtain ⟨settlement, kept⟩ := isSome_iff_exists.mp (settled row mem_cons_self)
    rw [kept] at valid
    by_cases full : scan.examined = limits.records
    · have stopped := scanRows.eq_2 limits reports scan table row.1 row.2 rest
      rw [if_neg (not_not_intro readable), if_pos (Or.inl full), RecoveryScan.exhausted,
        nothing] at stopped
      exact stopped
    cases scanRows_cons limits reports rest scan lookup unresolved with
    | refuses unsound =>
      refine absurd ⟨readable, record, decoded, ?_⟩ unsound
      rw [kept]
      exact valid
    | exhausted _ stopped =>
      rw [stopped, RecoveryScan.exhausted, nothing]
      rfl
    | visits visited goesOn =>
      rw [goesOn]
      rw [length_cons] at many
      cases visited with
      | settled =>
        refine ih (present.tail false)
          (fun other member => accounted other (mem_cons_of_mem _ member))
          (fun other member => settled other (mem_cons_of_mem _ member)) nothing ?_ ?_
        · dsimp only
          omega
        · dsimp only
          omega
      | interrupted _ unsettled | reported _ unsettled =>
        rw [kept] at unsettled
        cases unsettled

/-! ### Records that are their own payload -/

instance : Inhabited LaunchRequest := ⟨⟨"instance", none, none, none, none, none, none⟩⟩

/-- Records are stored as they are, and a report is the identity of its session. -/
def plainEvidence : Evidence where
  Payload := IntentRecord
  Settlement := Unit
  Observation := Unit
  Report := String
  Session := String
  payloadEq := inferInstance
  settlementEq := inferInstance
  size := fun _ => 0
  encode := some
  parse := some
  faithful := fun _ _ encoded => ⟨encoded.symm, Nat.zero_le _⟩
  settlementSize := fun _ => 0
  decodeSettlement := fun _ _ settlement => some settlement
  matchesReport := fun _ _ => true
  terminalSnapshot := fun record report =>
    if report = record.sessionId then some report else none
  reportSession := fun report => report
  payloadSession := fun record => some record.sessionId
  located := fun _ _ parsed => congrArg (·.map (·.sessionId)) parsed
  parsesContext := fun _ => true
  observed := fun _ record => record.sessionId

def firstKey : String := "00000000-0000-4000-8000-000000000001"
def secondKey : String := "00000000-0000-4000-8000-000000000002"

/-- A launch whose session is named like its key. -/
def plainRecord (key : String) : IntentRecord :=
  ⟨{ (default : LaunchRequest) with intentKey := some key }, none, key, none⟩

def plainRow (key : String) (settlement : Option Unit) : IntentRow plainEvidence :=
  ⟨plainRecord key, .accepted, none, false, settlement⟩

def noReports : Reports plainEvidence := ⟨fun _ => 0, fun _ => .ok none, fun _ _ found => by
  cases found⟩

/-- A report for the session of the second key alone. -/
def secondReport : Reports plainEvidence where
  bytes := fun _ => 1
  get := fun sessionId => .ok (if sessionId = secondKey then some sessionId else none)
  named := by
    intro sessionId report found
    by_cases second : sessionId = secondKey
    · rw [if_pos second] at found
      exact (Option.some.inj (Except.ok.inj found)).symm
    · rw [if_neg second] at found
      cases Except.ok.inj found

def twoRows (first second : Option Unit) : IntentTable plainEvidence :=
  (AList.singleton firstKey (plainRow firstKey first)).insert secondKey
    (plainRow secondKey second)

def tightLimits : RecoveryLimits := ⟨1, 1⟩

theorem decodeIntent_plain {settlement : Option Unit} (valid : validIntentKey key = true) :
    decodeIntent plainEvidence key (plainRow key settlement).payload = .ok (plainRecord key) := by
  have validated : (plainRecord key).request.validate = .ok () := by
    have spelt : validateIntentKey key = .ok () := if_pos valid
    simp [LaunchRequest.validate, plainRecord, default, spelt]
  have small : ¬maxPayloadBytes < plainEvidence.size (plainRow key settlement).payload :=
    Nat.not_lt_zero _
  have parsed : plainEvidence.parse (plainRow key settlement).payload =
    some (plainRecord key) := rfl
  have named : ¬((plainRecord key).request.intentKey ≠ some key ∨
      ¬validIntentKey (plainRecord key).sessionId = true) := by
    simp [plainRecord, valid]
  rw [decodeIntent, if_neg small, parsed]
  dsimp only
  rw [validated]
  exact if_neg named

theorem twoRows_entries (first second : Option Unit) :
    (twoRows first second).entries =
      [⟨secondKey, plainRow secondKey second⟩, ⟨firstKey, plainRow firstKey first⟩] := by
  refine AList.entries_insert_of_notMem fun same => ?_
  rw [AList.mem_keys, AList.keys_singleton, mem_singleton] at same
  exact absurd same (by decide)

theorem validIntentKey_first : validIntentKey firstKey = true := by decide

theorem validIntentKey_second : validIntentKey secondKey = true := by decide

/-- The rows of a table of two. -/
theorem mem_twoRows {first second : Option Unit} {row : KeyedRow plainEvidence}
    (member : row ∈ unresolvedRows (twoRows first second)) :
    row = ⟨secondKey, plainRow secondKey second⟩ ∨ row = ⟨firstKey, plainRow firstKey first⟩ := by
  have entry := mem_of_mem_filter ((perm_insertionSort _ _).mem_iff.mp member)
  rw [twoRows_entries] at entry
  simpa using entry

theorem accounted_settled (valid : validIntentKey key = true) (reports : Reports plainEvidence) :
    Accounted reports ⟨key, plainRow key (some ())⟩ := by
  refine ⟨?_, plainRecord key, decodeIntent_plain valid, rfl⟩
  have length : key.length = 36 := by
    rw [validIntentKey, Bool.and_eq_true, Bool.and_eq_true] at valid
    exact of_decide_eq_true valid.1.1
  rw [KeyedRow.readable, Bool.and_eq_true]
  exact ⟨decide_eq_true length, decide_eq_true (Nat.zero_le _)⟩

/-- Two settled launches are both accounted for, but a budget of one record never gets past
them. -/
theorem settled_rows_starve :
    (∀ row ∈ unresolvedRows (twoRows (some ()) (some ())), Accounted noReports row) ∧
    ∀ scans, (interruptedRecords tightLimits noReports
      (rescanned tightLimits noReports scans (twoRows (some ()) (some ())))).1 =
        .error .atCapacity := by
  have accounted : ∀ row ∈ unresolvedRows (twoRows (some ()) (some ())),
      Accounted noReports row := by
    intro row member
    rcases mem_twoRows member with rfl | rfl
    · exact accounted_settled validIntentKey_second noReports
    · exact accounted_settled validIntentKey_first noReports
  have settled : ∀ row ∈ unresolvedRows (twoRows (some ()) (some ())),
      row.2.settlement.isSome = true := by
    intro row member
    rcases mem_twoRows member with rfl | rfl
    · rfl
    · rfl
  have many : (unresolvedRows (twoRows (some ()) (some ()))).length = 2 := by decide
  have stopped : interruptedRecords tightLimits noReports (twoRows (some ()) (some ())) =
      (.error .atCapacity, twoRows (some ()) (some ())) :=
    scanRows_overflow (present_unresolvedRows _) accounted settled rfl
      (by rw [many]; decide) (by decide)
  refine ⟨accounted, fun scans => ?_⟩
  have unchanged : rescanned tightLimits noReports scans (twoRows (some ()) (some ())) =
      twoRows (some ()) (some ()) := by
    induction scans with
    | zero => rfl
    | succ scans ih => rw [rescanned_succ, stopped, ih]
  rw [unchanged, stopped]

/-- One settled launch and one with a report are got past with a budget of two records. -/
theorem interruptedRecords_laws_twoRows :
    ∃ scans, (interruptedRecords ⟨2, 1⟩ secondReport
      (rescanned ⟨2, 1⟩ secondReport scans (twoRows (some ()) none))).1 = .ok [] := by
  refine (interruptedRecords_laws ⟨2, 1⟩ secondReport (twoRows (some ()) none)).2.2.2.2
    ?_ ?_ ?_
  · intro first second firstHere secondHere _ _ sessionId firstSession secondSession
    have entry : ∀ {row : KeyedRow plainEvidence},
        (twoRows (some ()) none).lookup row.1 = some row.2 →
          row = ⟨secondKey, plainRow secondKey none⟩ ∨
            row = ⟨firstKey, plainRow firstKey (some ())⟩ := by
      intro row here
      have member := mem_lookup_iff.mp here
      rw [twoRows_entries] at member
      simpa using member
    have keys : firstKey ≠ secondKey := by decide
    rcases entry firstHere with rfl | rfl <;> rcases entry secondHere with rfl | rfl
    · rfl
    · exact absurd ((Option.some.inj secondSession).trans (Option.some.inj firstSession).symm) keys
    · exact absurd ((Option.some.inj firstSession).trans (Option.some.inj secondSession).symm) keys
    · rfl
  · intro row member
    rcases mem_twoRows member with rfl | rfl
    · refine ⟨by decide, plainRecord secondKey, decodeIntent_plain validIntentKey_second,
        fun _ _ => rfl, secondKey, ?_, ?_⟩
      · exact congrArg Except.ok (if_pos rfl)
      · have terminal : plainEvidence.terminalSnapshot (plainRecord secondKey) secondKey =
            some secondKey := by
          simp [plainEvidence, plainRecord]
        rw [terminal]
        rfl
    · exact accounted_settled validIntentKey_first secondReport
  · have one : settledRows (unresolvedRows (twoRows (some ()) none)) =
        [⟨firstKey, plainRow firstKey (some ())⟩] := by
      rfl
    refine ⟨?_, ?_, fun row member unsettled record decoded => ?_⟩
    · rw [one]
      decide
    · rw [settledBytes, one]
      decide
    · rw [settledBytes, one]
      rcases mem_twoRows member with rfl | rfl
      · exact ⟨Nat.one_lt_two, le_rfl⟩
      · cases unsettled

end Axial.Launch
