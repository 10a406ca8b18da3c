/-
This file follows launch intents through histories: any interleaving of their operations, any
failures of the accesses to the table, and any restarts over the same table. Along a history a
row stays, names the same launch and the same session, and never becomes pending again once it
has been decided, and the entries in memory mirror their rows. From this a key is accepted at
most once.
-/

import Axial.Library.History
import Axial.Launch.Recovery

namespace Axial.Launch

open History AList

/-! ### Actions -/

/-- The critical sections. `reserve_context` is a reservation and a claim; `abandon` without an
acceptance is its first section and a settlement. -/
inductive IntentAction (evidence : Evidence) where
  | reserveIdentity (access : Access evidence) (fresh : FreshId) (request : LaunchRequest)
      (context : Option String)
  | claim (key : String)
  | accept (write : Bool) (key : String) (binding : IntentBinding)
  | settle (write : Bool) (key : String) (result : Except LaunchError evidence.Session)
  | abandon (key : String)
  | snapshot (access : Access evidence) (key : String)
  | record (access : Access evidence) (key : String)
  | observe (accepted : AcceptedIntent evidence) (settlement : evidence.Settlement)
  | acknowledge (report : evidence.Report)
  | restart
  | recover (limits : RecoveryLimits) (reports : Reports evidence)

inductive IntentOutcome (evidence : Evidence) where
  | nothing
  | reserved (result : Except LaunchError String)
  | claimed (result : Except LaunchError (Option String))
  | accepted (result : Except LaunchError (AcceptedIntent evidence))
  | told (result : Except LaunchError (Option (LaunchIntentStatus evidence)))
  | recorded (result : Except LaunchError (Option IntentRecord))
  | interrupted (result : Except LaunchError (List IntentRecord))

variable {evidence : Evidence}

namespace LaunchIntents

def perform : IntentAction evidence → LaunchIntents evidence →
    LaunchIntents evidence × IntentOutcome evidence
  | .reserveIdentity access fresh request context, intents =>
    let (result, after) := reserveIdentity access fresh request context intents
    (after, .reserved result)
  | .claim key, intents =>
    let (result, after) := claim key intents
    (after, .claimed result)
  | .accept write key binding, intents =>
    let (result, after) := accept write key binding intents
    (after, .accepted result)
  | .settle write key result, intents => (settle write key result intents, .nothing)
  | .abandon key, intents => (abandon key intents, .nothing)
  | .snapshot access key, intents =>
    let (result, after) := snapshot access key intents
    (after, .told result)
  | .record access key, intents =>
    let (result, after) := record access key intents
    (after, .recorded result)
  | .observe accepted settlement, intents => (observe accepted settlement intents, .nothing)
  | .acknowledge report, intents =>
    ({ intents with table := (acknowledgeTerminal report intents.table).getD intents.table },
      .nothing)
  | .restart, intents => (restart intents, .nothing)
  | .recover limits reports, intents =>
    let (result, table) := interruptedRecords limits reports intents.table
    ({ intents with table }, .interrupted result)

theorem perform_reserveIdentity (access : Access evidence) (fresh : FreshId)
    (request : LaunchRequest) (context : Option String) (intents : LaunchIntents evidence) :
    perform (.reserveIdentity access fresh request context) intents =
      ((reserveIdentity access fresh request context intents).2,
        .reserved (reserveIdentity access fresh request context intents).1) := rfl

theorem perform_claim (key : String) (intents : LaunchIntents evidence) :
    perform (.claim key) intents = ((claim key intents).2, .claimed (claim key intents).1) := rfl

theorem perform_accept (write : Bool) (key : String) (binding : IntentBinding)
    (intents : LaunchIntents evidence) :
    perform (.accept write key binding) intents =
      ((accept write key binding intents).2, .accepted (accept write key binding intents).1) := rfl

theorem perform_snapshot (access : Access evidence) (key : String)
    (intents : LaunchIntents evidence) :
    perform (.snapshot access key) intents =
      ((snapshot access key intents).2, .told (snapshot access key intents).1) := rfl

theorem perform_record (access : Access evidence) (key : String)
    (intents : LaunchIntents evidence) :
    perform (.record access key) intents =
      ((record access key intents).2, .recorded (record access key intents).1) := rfl

theorem perform_recover (limits : RecoveryLimits) (reports : Reports evidence)
    (intents : LaunchIntents evidence) :
    perform (.recover limits reports) intents =
      ({ intents with table := (interruptedRecords limits reports intents.table).2 },
        .interrupted (interruptedRecords limits reports intents.table).1) := rfl

end LaunchIntents

/-! ### Rows over time -/

namespace IntentRecord

/-- Whether two records are of the same launch. A later one may have a binding. -/
def Agrees (record other : IntentRecord) : Prop :=
  other.request = record.request ∧ other.context = record.context ∧
    other.sessionId = record.sessionId

theorem Agrees.refl (record : IntentRecord) : record.Agrees record := ⟨rfl, rfl, rfl⟩

variable {second first : IntentRecord}

theorem Agrees.trans {third : IntentRecord} (early : first.Agrees second)
    (late : second.Agrees third) : first.Agrees third :=
  ⟨late.1.trans early.1, late.2.1.trans early.2.1, late.2.2.trans early.2.2⟩

theorem Agrees.symm (agrees : first.Agrees second) : second.Agrees first :=
  ⟨agrees.1.symm, agrees.2.1.symm, agrees.2.2.symm⟩

end IntentRecord

/-- The record that a row of a key holds. -/
def Holds (key : String) (row : IntentRow evidence) (record : IntentRecord) : Prop :=
  decodeIntent evidence key row.payload = .ok record

variable {key : String} {row : IntentRow evidence}

theorem Holds.unique {record other : IntentRecord} (holds : Holds key row record)
    (again : Holds key row other) : record = other :=
  Except.ok.inj (holds.symm.trans again)

/-- What may become of a row. -/
structure RowLater (key : String) (row after : IntentRow evidence) : Prop where
  decided : row.state ≠ .pending → after.state ≠ .pending
  agrees : ∀ record, Holds key row record → ∃ later, Holds key after later ∧ record.Agrees later

theorem RowLater.refl (key : String) (row : IntentRow evidence) : RowLater key row row where
  decided decided := decided
  agrees record holds := ⟨record, holds, .refl record⟩

theorem RowLater.trans {first second third : IntentRow evidence} (early : RowLater key first second)
    (late : RowLater key second third) :
    RowLater key first third where
  decided decided := late.decided (early.decided decided)
  agrees record holds := by
    obtain ⟨middle, held, first⟩ := early.agrees record holds
    obtain ⟨last, heldLast, second⟩ := late.agrees middle held
    exact ⟨last, heldLast, first.trans second⟩

/-- A row whose payload stays. -/
theorem RowLater.of_payload {after : IntentRow evidence} (payload : after.payload = row.payload)
    (decided : row.state ≠ .pending → after.state ≠ .pending) : RowLater key row after where
  decided := decided
  agrees record holds := ⟨record, by rw [Holds, payload]; exact holds, .refl record⟩

/-- What may become of a table. -/
def Later (before after : IntentTable evidence) : Prop :=
  ∀ key row, before.lookup key = some row →
    ∃ next, after.lookup key = some next ∧ RowLater key row next

theorem Later.refl (table : IntentTable evidence) : Later table table :=
  fun key row present => ⟨row, present, .refl key row⟩

theorem Later.trans {first second third : IntentTable evidence} (early : Later first second)
    (late : Later second third) : Later first third := by
  intro key row present
  obtain ⟨middle, there, before⟩ := early key row present
  obtain ⟨last, here, after⟩ := late key middle there
  exact ⟨last, here, before.trans after⟩

theorem Later.insert {table : IntentTable evidence} {key : String} {after : IntentRow evidence}
    (later : ∀ row, table.lookup key = some row → RowLater key row after) :
    Later table (table.insert key after) := by
  intro other row present
  by_cases same : other = key
  · subst same
    exact ⟨after, lookup_insert _, later row present⟩
  · exact ⟨row, by rw [lookup_insert_ne same]; exact present, .refl other row⟩

variable {table : IntentTable evidence}

theorem Later.insert_row {after : IntentRow evidence} (present : table.lookup key = some row)
    (later : RowLater key row after) : Later table (table.insert key after) :=
  .insert fun _ there => Option.some.inj (present.symm.trans there) ▸ later

/-! ### Loading -/

/-- The status that an undamaged row stands for. -/
inductive Stands (record : IntentRecord) (row : IntentRow evidence) :
    LaunchIntentStatus evidence → Prop
  | preparing (pending : row.state = .pending) (context : record.context.isSome = true) :
    Stands record row .preparing
  | accepted (authorized : row.state.authorized = true) (session : evidence.Session) :
    Stands record row (.accepted session)
  | interrupted (authorized : row.state.authorized = true) :
    Stands record row (.interrupted record.sessionId)
  | rejected (rejected : row.state = .rejected) (error : LaunchError) :
    Stands record row (.rejected error)

/-- The row of a launch that has been rejected. -/
def IntentRow.refused (row : IntentRow evidence) (error : LaunchError) : IntentRow evidence :=
  { row with state := .rejected, error := some (some error) }

/-- What loading gives. -/
inductive Loaded (key : String) (table : IntentTable evidence) :
    Except LaunchError (Option (IntentEntry evidence)) × IntentTable evidence → Prop
  | failed (error : LaunchError) : Loaded key table (.error error, table)
  | absent (missing : table.lookup key = none) : Loaded key table (.ok none, table)
  | found {row : IntentRow evidence} {record : IntentRecord} {status : LaunchIntentStatus evidence}
      (present : table.lookup key = some row) (holds : Holds key row record)
      (stands : Stands record row status)
      (settled : row.settlement.isSome = true → row.state.authorized = true) :
    Loaded key table (.ok (some ⟨record, false, false, status⟩), table)
  | refused {row : IntentRow evidence} {record : IntentRecord} (error : LaunchError)
      (present : table.lookup key = some row) (holds : Holds key row record)
      (pending : row.state = .pending) (context : record.context = none)
      (unsettled : row.settlement.isSome = false) :
    Loaded key table (.ok (some ⟨record, false, false, .rejected error⟩),
      table.insert key (row.refused error))

theorem rejectRow_eq (write : Bool) (key : String) (error : LaunchError)
    (table : IntentTable evidence) :
    (write = false ∨ table.lookup key = none) ∧
      rejectRow write key error table = (.error .intentUnavailable, table) ∨
      ∃ row, write = true ∧ table.lookup key = some row ∧
        rejectRow write key error table = (.ok (), table.insert key (row.refused error)) := by
  cases write with
  | false => exact .inl ⟨.inl rfl, rfl⟩
  | true =>
    cases present : table.lookup key with
    | none =>
      refine .inl ⟨.inr rfl, ?_⟩
      unfold rejectRow
      rw [present]
    | some row =>
      refine .inr ⟨row, rfl, rfl, ?_⟩
      unfold rejectRow
      rw [present]
      rfl

theorem rowStatus_of_authorized (access : Access evidence) (key : String) (record : IntentRecord)
    (table : IntentTable evidence) (authorized : row.state.authorized = true) :
    rowStatus access key record row table = (match
      terminalSession access record row.payload row.settlement with
      | .error error => .error error
      | .ok (some session) => .ok (.accepted session)
      | .ok none => .ok (.interrupted record.sessionId), table) := by
  rcases row with ⟨payload, state, error, terminalAck, settlement⟩
  cases state with
  | pending | rejected => cases authorized
  | accepted | interrupted => rfl

theorem rowStatus_of_pending (access : Access evidence) (key : String) (record : IntentRecord)
    (table : IntentTable evidence) (pending : row.state = .pending) :
    rowStatus access key record row table =
      if record.context.isSome then (.ok .preparing, table)
      else match rejectRow access.write key .preparationFailed table with
        | (.ok (), after) => (.ok (.rejected .preparationFailed), after)
        | (.error error, after) => (.error error, after) := by
  rcases row with ⟨payload, state, error, terminalAck, settlement⟩
  cases pending
  rfl

theorem rowStatus_of_rejected (access : Access evidence) (key : String) (record : IntentRecord)
    (table : IntentTable evidence) (rejected : row.state = .rejected) :
    rowStatus access key record row table = (match row.error with
      | some (some error) => .ok (.rejected error)
      | _ => .error .intentUnavailable, table) := by
  rcases row with ⟨payload, state, error, terminalAck, settlement⟩
  cases rejected
  rfl

theorem rowStatus_cases (access : Access evidence) (record : IntentRecord)
    (present : table.lookup key = some row) :
    (∃ error, rowStatus access key record row table = (.error error, table)) ∨
    (∃ status, Stands record row status ∧
      rowStatus access key record row table = (.ok status, table)) ∨
    ∃ error, row.state = .pending ∧ record.context = none ∧
      rowStatus access key record row table =
        (.ok (.rejected error), table.insert key (row.refused error)) := by
  have authorized : ∀ {status}, row.state.authorized = true →
      (∃ error, rowStatus access key record row table = (.error error, table)) ∨
      (∃ status, Stands record row status ∧
        rowStatus access key record row table = (.ok status, table)) ∨ status := by
    intro status authorized
    have unfolded := rowStatus_of_authorized access key record table authorized
    cases terminal : terminalSession access record row.payload row.settlement with
    | error error => exact .inl ⟨error, by rw [unfolded, terminal]⟩
    | ok session =>
      cases session with
      | some session =>
        exact .inr (.inl ⟨_, .accepted authorized session, by rw [unfolded, terminal]⟩)
      | none => exact .inr (.inl ⟨_, .interrupted authorized, by rw [unfolded, terminal]⟩)
  cases state : row.state with
  | pending =>
    have unfolded := rowStatus_of_pending access key record table state
    by_cases context : record.context.isSome = true
    · rw [if_pos context] at unfolded
      exact .inr (.inl ⟨_, .preparing state context, unfolded⟩)
    · rw [if_neg context] at unfolded
      rcases rejectRow_eq access.write key .preparationFailed table with
        ⟨_, unwritten⟩ | ⟨other, _, there, written⟩
      · exact .inl ⟨_, by rw [unfolded, unwritten]⟩
      · obtain rfl := Option.some.inj (present.symm.trans there)
        refine .inr (.inr ⟨.preparationFailed, rfl, ?_, by rw [unfolded, written]⟩)
        exact Option.not_isSome_iff_eq_none.mp context
  | rejected =>
    have unfolded := rowStatus_of_rejected access key record table state
    rcases kept : row.error with _ | _ | error
    · exact .inl ⟨_, by rw [unfolded, kept]⟩
    · exact .inl ⟨_, by rw [unfolded, kept]⟩
    · exact .inr (.inl ⟨_, .rejected state error, by rw [unfolded, kept]⟩)
  | accepted | interrupted => exact authorized (by rw [state]; rfl)

theorem load_loaded (access : Access evidence) (key : String) (table : IntentTable evidence) :
    Loaded key table (load access key table) := by
  unfold load
  split
  case isFalse => exact .failed _
  split
  case h_1 missing => exact .absent missing
  rename_i row present
  split
  case h_1 => exact .failed _
  rename_i record decoded
  split
  case isTrue => exact .failed _
  rename_i sound
  have settled : row.settlement.isSome = true → row.state.authorized = true := by
    intro settled
    rw [not_and] at sound
    cases state : row.state with
    | accepted | interrupted => rfl
    | pending | rejected => exact absurd ⟨by simp [state], by simp [state]⟩ (sound settled)
  have held : Holds key row record := decoded
  rcases rowStatus_cases access record present with
    ⟨error, failed⟩ | ⟨status, stands, told⟩ | ⟨error, pending, context, refused⟩
  · rw [failed]
    exact .failed error
  · rw [told]
    exact .found present held stands settled
  · rw [refused]
    refine .refused error present held pending context ?_
    by_contra kept
    have authorized := settled (Bool.eq_true_of_not_eq_false kept)
    rw [pending] at authorized
    cases authorized

/-! ### Writing rows -/

theorem Holds.valid {record : IntentRecord} (holds : Holds key row record) :
    record.request.validate = .ok () ∧
      record.request.intentKey = some key ∧ validIntentKey record.sessionId = true := by
  unfold Holds decodeIntent at holds
  split at holds
  case isTrue => cases holds
  split at holds
  case h_1 => cases holds
  split at holds
  case h_1 => cases holds
  rename_i validated
  split at holds
  case isTrue => cases holds
  rename_i named
  rw [not_or, not_not, not_not] at named
  obtain rfl := Except.ok.inj holds
  exact ⟨validated, named⟩

variable {payload : evidence.Payload}

/-- A valid record that is written can be read. -/
theorem decodeIntent_encode {record : IntentRecord}
    (encoded : evidence.encode record = some payload) (validated : record.request.validate = .ok ())
    (named : record.request.intentKey = some key) (session : validIntentKey record.sessionId = true)
    : decodeIntent evidence key payload = .ok record := by
  obtain ⟨parsed, small⟩ := evidence.faithful record payload encoded
  have spelt : ¬(record.request.intentKey ≠ some key ∨
      ¬validIntentKey record.sessionId = true) := by
    rw [not_or, not_not, not_not]
    exact ⟨named, session⟩
  rw [decodeIntent, if_neg (Nat.not_lt.mpr small), parsed]
  dsimp only
  rw [validated]
  exact if_neg spelt

/-- The row of a launch that has been accepted. -/
def IntentRow.taken (row : IntentRow evidence) (payload : evidence.Payload) :
    IntentRow evidence :=
  { row with payload, state := .accepted }

/-- What an acceptance that succeeds does. -/
structure Accepts (key : String) (binding : IntentBinding) (intents after : LaunchIntents evidence)
    (accepted : AcceptedIntent evidence) (entry : IntentEntry evidence)
    (row : IntentRow evidence) : Prop where
  known : intents.entries.lookup key = some entry
  present : intents.table.lookup key = some row
  claimed : entry.claimed = true
  unaccepted : entry.accepted = false
  preparing : entry.status.isPreparing = true
  pending : row.state = .pending
  holds : Holds key row entry.record
  encoded : evidence.encode { entry.record with binding := some binding } = some accepted.payload
  authority : accepted = ⟨key, accepted.payload, { entry.record with binding := some binding }⟩
  result : after = { intents with
    entries := intents.entries.insert key
      { entry with record := { entry.record with binding := some binding }, accepted := true }
    table := intents.table.insert key (row.taken accepted.payload) }

theorem acceptRow_eq_some {record : IntentRecord} {after : IntentTable evidence}
    (accepted : LaunchIntents.acceptRow key record payload table = some after) :
    ∃ row, table.lookup key = some row ∧ row.state = .pending ∧ Holds key row record ∧
      after = table.insert key (row.taken payload) := by
  unfold LaunchIntents.acceptRow at accepted
  split at accepted
  case h_1 => cases accepted
  rename_i row present
  split at accepted
  case isFalse => cases accepted
  rename_i passed
  obtain ⟨pending, _, decoded⟩ := passed
  refine ⟨row, present, pending, ?_, (Option.some.inj accepted).symm⟩
  unfold Holds
  cases read : decodeIntent evidence key row.payload with
  | error error =>
    rw [read] at decoded
    cases decoded
  | ok other =>
    rw [read] at decoded
    exact congrArg Except.ok (Option.some.inj decoded)

theorem accept_cases (write : Bool) (key : String) (binding : IntentBinding)
    (intents : LaunchIntents evidence) :
    (∃ error, LaunchIntents.accept write key binding intents = (.error error, intents)) ∨
      ∃ accepted after entry row, Accepts key binding intents after accepted entry row ∧
        LaunchIntents.accept write key binding intents = (.ok accepted, after) := by
  unfold LaunchIntents.accept
  split
  case h_1 => exact .inl ⟨_, rfl⟩
  rename_i entry known
  split
  case isTrue => exact .inl ⟨_, rfl⟩
  rename_i passed
  simp only [not_or, not_not, Bool.not_eq_true, Bool.not_eq_false] at passed
  obtain ⟨claimed, unaccepted, preparing, _, _⟩ := passed
  dsimp only
  split
  case h_2 => exact .inl ⟨_, rfl⟩
  rename_i payload encoded
  split
  case h_1 => exact .inl ⟨_, rfl⟩
  rename_i table written
  obtain ⟨row, present, pending, holds, rfl⟩ := acceptRow_eq_some written
  exact .inr ⟨_, _, entry, row,
    ⟨known, present, claimed, unaccepted, preparing, pending, holds, encoded, rfl, rfl⟩, rfl⟩

theorem Accepts.written {key : String} {binding : IntentBinding}
    {intents after : LaunchIntents evidence} {accepted : AcceptedIntent evidence}
    {entry : IntentEntry evidence} {row : IntentRow evidence}
    (accepts : Accepts key binding intents after accepted entry row) :
    Holds key (row.taken accepted.payload) { entry.record with binding := some binding } := by
  obtain ⟨validated, named, session⟩ := accepts.holds.valid
  exact decodeIntent_encode accepts.encoded validated named session

variable {intents after : LaunchIntents evidence} {entry : IntentEntry evidence}

theorem Accepts.later {binding : IntentBinding} {accepted : AcceptedIntent evidence}
    (accepts : Accepts key binding intents after accepted entry row) :
    RowLater key row (row.taken accepted.payload) where
  decided _ := by
    intro pending
    cases pending
  agrees record holds := by
    obtain rfl := accepts.holds.unique holds
    exact ⟨_, accepts.written, rfl, rfl, rfl⟩

/-! ### Entries mirror their rows -/

structure Mirrored (key : String) (entry : IntentEntry evidence) (row : IntentRow evidence) :
    Prop where
  agrees : ∃ record, Holds key row record ∧ record.Agrees entry.record
  unclaimed : entry.claimed = false → entry.status.isPreparing = true → row.state = .pending
  claimed : entry.accepted = true → entry.claimed = true
  session : ∀ sessionId, entry.status = .interrupted sessionId →
    sessionId = entry.record.sessionId

def Consistent (intents : LaunchIntents evidence) : Prop :=
  ∀ key entry, intents.entries.lookup key = some entry →
    ∃ row, intents.table.lookup key = some row ∧ Mirrored key entry row

theorem Consistent.set (consistent : Consistent intents) (mirrored : Mirrored key entry row) :
    Consistent { intents with
      entries := intents.entries.insert key entry
      table := intents.table.insert key row } := by
  intro other found known
  by_cases same : other = key
  · subst same
    rw [lookup_insert] at known
    obtain rfl := Option.some.inj known
    exact ⟨row, lookup_insert _, mirrored⟩
  · rw [lookup_insert_ne same] at known ⊢
    exact consistent other found known

theorem Consistent.set_entry (consistent : Consistent intents)
    (present : intents.table.lookup key = some row) (mirrored : Mirrored key entry row) :
    Consistent { intents with entries := intents.entries.insert key entry } := by
  intro other found known
  by_cases same : other = key
  · subst same
    rw [lookup_insert] at known
    obtain rfl := Option.some.inj known
    exact ⟨row, present, mirrored⟩
  · rw [lookup_insert_ne same] at known
    exact consistent other found known

/-- A change of a table that keeps all payloads, and the states of the rows that an entry could
still claim. -/
theorem Consistent.set_table (consistent : Consistent intents)
    (kept : ∀ key entry row, intents.entries.lookup key = some entry →
      intents.table.lookup key = some row →
      ∃ after, table.lookup key = some after ∧ after.payload = row.payload ∧
        (entry.claimed = true ∨ after.state = row.state)) : Consistent { intents with table } := by
  intro key entry known
  obtain ⟨row, present, mirrored⟩ := consistent key entry known
  obtain ⟨after, there, payload, state⟩ := kept key entry row known present
  obtain ⟨record, holds, agrees⟩ := mirrored.agrees
  refine ⟨after, there, ⟨record, by rw [Holds, payload]; exact holds, agrees⟩,
    fun unclaimed preparing => ?_, mirrored.claimed, mirrored.session⟩
  rcases state with claimed | same
  · rw [unclaimed] at claimed
    cases claimed
  · rw [same]
    exact mirrored.unclaimed unclaimed preparing

variable {status : LaunchIntentStatus evidence}

theorem Stands.preparing_pending {record : IntentRecord} (stands : Stands record row status)
    (preparing : status.isPreparing = true) : row.state = .pending := by
  cases stands with
  | preparing pending => exact pending
  | _ => cases preparing

theorem Stands.session {record : IntentRecord} (stands : Stands record row status)
    {sessionId : String} (interrupted : status = .interrupted sessionId) :
    sessionId = record.sessionId := by
  cases stands with
  | interrupted =>
    cases interrupted
    rfl
  | _ => cases interrupted

theorem Stands.mirrored {record : IntentRecord} (stands : Stands record row status)
    (holds : Holds key row record) : Mirrored key ⟨record, false, false, status⟩ row where
  agrees := ⟨record, holds, .refl record⟩
  unclaimed _ preparing := stands.preparing_pending preparing
  claimed accepted := nomatch accepted
  session _ interrupted := stands.session interrupted

theorem RowLater.refused (key : String) (row : IntentRow evidence) (error : LaunchError) :
    RowLater key row (row.refused error) :=
  .of_payload rfl fun _ pending => nomatch pending

variable {result : Except LaunchError (Option (IntentEntry evidence)) × IntentTable evidence}

theorem Loaded.later (loaded : Loaded key table result) : Later table result.2 := by
  cases loaded with
  | failed | absent | found => exact .refl table
  | refused error present => exact .insert_row present (.refused key _ error)

/-- Loading a key that no entry could still claim. -/
theorem Loaded.consistent (loaded : Loaded key intents.table result)
    (consistent : Consistent intents)
    (unclaimable : ∀ entry, intents.entries.lookup key = some entry → entry.claimed = true) :
    Consistent { intents with table := result.2 } := by
  cases loaded with
  | failed | absent | found => exact consistent
  | @refused row _ error present =>
    refine consistent.set_table fun other entry found known there => ?_
    by_cases same : other = key
    · subst same
      obtain rfl := Option.some.inj (present.symm.trans there)
      exact ⟨_, lookup_insert _, rfl, .inl (unclaimable entry known)⟩
    · exact ⟨found, by rw [lookup_insert_ne same]; exact there, rfl, .inr rfl⟩

/-- Loading the entry of a key that has none. -/
theorem Loaded.entered (loaded : Loaded key intents.table (.ok (some entry), table))
    (consistent : Consistent intents) (unknown : intents.entries.lookup key = none) :
    Consistent { intents with entries := intents.entries.insert key entry, table } := by
  have later := loaded.consistent consistent fun entry known => by
    rw [unknown] at known
    cases known
  cases loaded with
  | found present holds stands => exact later.set_entry present (stands.mirrored holds)
  | @refused row record error present holds pending =>
    have stands : Stands record (row.refused error) (.rejected error) := .rejected rfl error
    exact later.set_entry (lookup_insert _) (stands.mirrored holds)

/-! ### What each operation keeps -/

/-- What every operation respects. -/
def Evolves (before after : LaunchIntents evidence) : Prop :=
  Later before.table after.table ∧ (Consistent before → Consistent after)

theorem Evolves.refl (intents : LaunchIntents evidence) : Evolves intents intents :=
  ⟨.refl intents.table, fun consistent => consistent⟩

namespace LaunchIntents

/-- What entering a key does. -/
inductive Entered (key : String) (intents : LaunchIntents evidence) :
    Except LaunchError (Option (IntentEntry evidence)) × LaunchIntents evidence → Prop
  | known {entry : IntentEntry evidence} (known : intents.entries.lookup key = some entry) :
    Entered key intents (.ok (some entry), intents)
  | failed (error : LaunchError) (unknown : intents.entries.lookup key = none) :
    Entered key intents (.error error, intents)
  | absent (unknown : intents.entries.lookup key = none)
      (missing : intents.table.lookup key = none) : Entered key intents (.ok none, intents)
  | loaded {entry : IntentEntry evidence} {table : IntentTable evidence}
      (unknown : intents.entries.lookup key = none)
      (loaded : Loaded key intents.table (.ok (some entry), table)) :
    Entered key intents (.ok (some entry),
      { intents with entries := intents.entries.insert key entry, table })

theorem enter_entered (access : Access evidence) (key : String)
    (intents : LaunchIntents evidence) : Entered key intents (enter access key intents) := by
  unfold enter
  split
  case h_1 known => exact .known known
  rename_i unknown
  split
  case isTrue => exact .failed _ unknown
  have loaded := load_loaded access key intents.table
  split
  · rename_i entry table result
    rw [result] at loaded
    exact .loaded unknown loaded
  · rename_i table result
    rw [result] at loaded
    cases loaded with
    | absent missing => exact .absent unknown missing
  · rename_i error table result
    rw [result] at loaded
    cases loaded with
    | failed => exact .failed _ unknown

theorem Entered.evolves
    {result : Except LaunchError (Option (IntentEntry evidence)) × LaunchIntents evidence}
    (entered : Entered key intents result) : Evolves intents result.2 := by
  cases entered with
  | known | failed | absent => exact .refl intents
  | loaded unknown loaded =>
    exact ⟨loaded.later, fun consistent => loaded.entered consistent unknown⟩

theorem Entered.lookup (entered : Entered key intents (.ok (some entry), after)) :
    after.entries.lookup key = some entry := by
  cases entered with
  | known known => exact known
  | loaded => exact lookup_insert _

/-- What a reservation does. -/
inductive Reserves (key : String) (request : LaunchRequest) (context : Option String)
    (intents : LaunchIntents evidence) :
    Except LaunchError String × LaunchIntents evidence → Prop
  | refused {after : LaunchIntents evidence}
      {result : Except LaunchError (Option (IntentEntry evidence))} (error : LaunchError)
      (entered : Entered key intents (result, after)) :
    Reserves key request context intents (.error error, after)
  | existing {after : LaunchIntents evidence} {entry : IntentEntry evidence}
      (entered : Entered key intents (.ok (some entry), after))
      (effect : request.sameEffect entry.record.request = true)
      (same : context = entry.record.context) :
    Reserves key request context intents (.ok entry.record.sessionId, after)
  | inserted {record : IntentRecord} {payload : evidence.Payload}
      (ofRequest : record.request = request) (ofContext : record.context = context)
      (missing : intents.table.lookup key = none)
      (decoded : decodeIntent evidence key payload = .ok record) :
    Reserves key request context intents (.ok record.sessionId, { intents with
      entries := intents.entries.insert key ⟨record, false, false, .preparing⟩
      table := intents.table.insert key ⟨payload, .pending, none, false, none⟩ })

theorem reserveIdentity_reserves (access : Access evidence) (fresh : FreshId)
    (request : LaunchRequest) (context : Option String) (intents : LaunchIntents evidence) :
    (∃ error, reserveIdentity access fresh request context intents = (.error error, intents)) ∨
      ∃ key, request.intentKey = some key ∧ Reserves key request context intents
        (reserveIdentity access fresh request context intents) := by
  unfold reserveIdentity
  split
  case h_1 => exact .inl ⟨_, rfl⟩
  case h_2 => exact .inl ⟨_, rfl⟩
  rename_i key validated named
  refine .inr ⟨key, named, ?_⟩
  have entered := enter_entered access key intents
  split
  · rename_i error after result
    rw [result] at entered
    exact .refused error entered
  · rename_i entry after result
    rw [result] at entered
    split
    case isTrue => exact .refused _ entered
    rename_i agreed
    rw [not_or, not_not, not_not] at agreed
    exact .existing entered agreed.1 agreed.2
  · rename_i after result
    rw [result] at entered
    cases entered with
    | absent unknown missing =>
      unfold insertNew
      split
      case h_2 => exact .refused _ (.absent unknown missing)
      rename_i payload encoded _
      exact .inserted rfl rfl missing (decodeIntent_encode encoded validated named fresh.property)

theorem claim_cases (key : String) (intents : LaunchIntents evidence) :
    (claim key intents).2 = intents ∧ (∀ sessionId, (claim key intents).1 ≠ .ok (some sessionId)) ∨
      ∃ entry, intents.entries.lookup key = some entry ∧ entry.claimed = false ∧
        entry.status.isPreparing = true ∧
        claim key intents = (.ok (some entry.record.sessionId), { intents with
          entries := intents.entries.insert key { entry with claimed := true } }) := by
  unfold claim
  split
  case h_1 => exact .inl ⟨rfl, fun _ told => nomatch told⟩
  rename_i entry known
  split
  case isTrue => exact .inl ⟨rfl, fun _ told => nomatch told⟩
  rename_i passed
  simp only [not_or, Bool.not_eq_true, Bool.not_eq_false] at passed
  exact .inr ⟨entry, known, passed.1, passed.2, rfl⟩

/-- What a settlement does to an entry that is still preparing. -/
inductive Settles (write : Bool) (key : String) (entry : IntentEntry evidence)
    (intents : LaunchIntents evidence) :
    Except LaunchError evidence.Session → LaunchIntents evidence → Prop
  | accepted (session : evidence.Session) :
    Settles write key entry intents (.ok session) { intents with
      entries := intents.entries.insert key { entry with status := .accepted session } }
  | unwritten (error published : LaunchError)
      (failed : write = false ∨ intents.table.lookup key = none) :
    Settles write key entry intents (.error error) { intents with
      entries := intents.entries.insert key { entry with status := .rejected published } }
  | written {row : IntentRow evidence} (error : LaunchError)
      (present : intents.table.lookup key = some row) :
    Settles write key entry intents (.error error) { intents with
      entries := intents.entries.insert key { entry with status := .rejected error }
      table := intents.table.insert key (row.refused error) }

theorem settle_settles (write : Bool) (key : String)
    (result : Except LaunchError evidence.Session) (intents : LaunchIntents evidence) :
    settle write key result intents = intents ∨
      ∃ entry, intents.entries.lookup key = some entry ∧ entry.status.isPreparing = true ∧
        Settles write key entry intents result (settle write key result intents) := by
  unfold settle
  split
  case h_1 => exact .inl rfl
  rename_i entry known
  split
  case isFalse => exact .inl rfl
  rename_i preparing
  refine .inr ⟨entry, known, preparing, ?_⟩
  split
  · exact .accepted _
  · rename_i error
    rcases rejectRow_eq write key error intents.table with
      ⟨failed, unwritten⟩ | ⟨row, _, present, written⟩
    · rw [unwritten]
      exact .unwritten error _ failed
    · rw [written]
      exact .written error present

theorem Settles.evolves {write : Bool} {result : Except LaunchError evidence.Session}
    (settles : Settles write key entry intents result after)
    (known : intents.entries.lookup key = some entry) : Evolves intents after := by
  cases settles with
  | accepted | unwritten =>
    refine ⟨.refl _, fun consistent => ?_⟩
    obtain ⟨row, present, mirrored⟩ := consistent key entry known
    exact consistent.set_entry present ⟨mirrored.agrees, (fun _ preparing => nomatch preparing),
      mirrored.claimed, fun _ interrupted => nomatch interrupted⟩
  | written error present =>
    refine ⟨.insert_row present (.refused key _ error), fun consistent => ?_⟩
    obtain ⟨row, there, mirrored⟩ := consistent key entry known
    obtain rfl := Option.some.inj (present.symm.trans there)
    exact consistent.set ⟨mirrored.agrees, (fun _ preparing => nomatch preparing),
      mirrored.claimed, fun _ interrupted => nomatch interrupted⟩

theorem abandon_cases (key : String) (intents : LaunchIntents evidence) :
    abandon key intents = intents ∨
      ∃ entry, intents.entries.lookup key = some entry ∧ entry.accepted = true ∧
        abandon key intents = { intents with
          entries := intents.entries.insert key
            { entry with status := .interrupted entry.record.sessionId } } := by
  unfold abandon
  split
  case h_1 => exact .inl rfl
  rename_i entry known
  split
  case isFalse => exact .inl rfl
  rename_i accepted
  exact .inr ⟨entry, known, accepted, rfl⟩

/-- A status is told from memory or from the table. -/
theorem snapshot_cases (access : Access evidence) (key : String)
    (intents : LaunchIntents evidence) :
    (∃ error, snapshot access key intents = (.error error, intents)) ∨
    (∃ entry, intents.entries.lookup key = some entry ∧
      snapshot access key intents = (.ok (some entry.status), intents)) ∨
    ∃ result, Loaded key intents.table result ∧
      (∀ entry, intents.entries.lookup key = some entry → entry.accepted = true ∧
        ∃ row, intents.table.lookup key = some row ∧ row.settlement.isSome = true) ∧
      snapshot access key intents =
        (result.1.map (Option.map (·.status)), { intents with table := result.2 }) := by
  have fromTable : loadStatus access key intents =
      ((load access key intents.table).1.map (Option.map (·.status)),
        { intents with table := (load access key intents.table).2 }) := by
    unfold loadStatus
    split
    · rename_i entry table result
      rw [result]
      rfl
    · rename_i error table result
      rw [result]
      rfl
  have loaded := load_loaded access key intents.table
  unfold snapshot
  split
  case isTrue => exact .inl ⟨_, rfl⟩
  split
  · rename_i entry known
    split
    · rename_i accepted
      split
      · rename_i row _ present
        split
        · rename_i settled
          refine .inr (.inr ⟨_, loaded, fun other again => ?_, fromTable⟩)
          obtain rfl := Option.some.inj (known.symm.trans again)
          exact ⟨accepted, row, present, settled⟩
        · exact .inr (.inl ⟨entry, known, rfl⟩)
      · exact .inl ⟨_, rfl⟩
    · exact .inr (.inl ⟨entry, known, rfl⟩)
  · rename_i unknown
    refine .inr (.inr ⟨_, loaded, fun other again => ?_, fromTable⟩)
    rw [unknown] at again
    cases again

/-- A record is read from memory or from the table. -/
theorem record_cases (access : Access evidence) (key : String) (intents : LaunchIntents evidence) :
    (∃ error, record access key intents = (.error error, intents)) ∨
    (∃ entry, intents.entries.lookup key = some entry ∧
      record access key intents = (.ok (some entry.record), intents)) ∨
    ∃ result, Loaded key intents.table result ∧ intents.entries.lookup key = none ∧
      record access key intents =
        (result.1.map (Option.map (·.record)), { intents with table := result.2 }) := by
  have loaded := load_loaded access key intents.table
  unfold record
  split
  case isTrue => exact .inl ⟨_, rfl⟩
  split
  · rename_i entry known
    exact .inr (.inl ⟨entry, known, rfl⟩)
  · rename_i unknown
    refine .inr (.inr ⟨_, loaded, unknown, ?_⟩)
    split
    · rename_i entry table result
      rw [result]
      rfl
    · rename_i error table result
      rw [result]
      rfl

/-- A change of a table that keeps the payloads and the states of all rows. -/
def SameRows (before after : IntentTable evidence) : Prop :=
  ∀ key row, before.lookup key = some row → ∃ next, after.lookup key = some next ∧
    next.payload = row.payload ∧ next.state = row.state

theorem SameRows.refl (table : IntentTable evidence) : SameRows table table :=
  fun _ row present => ⟨row, present, rfl, rfl⟩

theorem SameRows.insert {after : IntentRow evidence} (present : table.lookup key = some row)
    (payload : after.payload = row.payload) (state : after.state = row.state) :
    SameRows table (table.insert key after) := by
  intro other found there
  by_cases same : other = key
  · subst same
    obtain rfl := Option.some.inj (present.symm.trans there)
    exact ⟨after, lookup_insert _, payload, state⟩
  · exact ⟨found, by rw [lookup_insert_ne same]; exact there, rfl, rfl⟩

theorem observe_sameRows (accepted : AcceptedIntent evidence) (settlement : evidence.Settlement)
    (intents : LaunchIntents evidence) :
    ∃ table, SameRows intents.table table ∧
      observe accepted settlement intents = { intents with table } := by
  unfold observe
  split
  case h_1 => exact ⟨_, .refl _, rfl⟩
  rename_i row present
  split
  case isFalse => exact ⟨_, .refl _, rfl⟩
  refine ⟨_, ?_, rfl⟩
  exact .insert present rfl rfl

theorem acknowledgeTerminal_sameRows (report : evidence.Report) (table : IntentTable evidence) :
    SameRows table ((acknowledgeTerminal report table).getD table) := by
  cases acknowledged : acknowledgeTerminal report table with
  | none => exact .refl table
  | some after =>
    unfold acknowledgeTerminal at acknowledged
    split at acknowledged
    · obtain rfl := Option.some.inj acknowledged
      exact .refl table
    · rename_i key row single
      have member : (⟨key, row⟩ : KeyedRow evidence) ∈ reportedRows report table := by
        rw [single]
        exact List.mem_singleton_self _
      have present : table.lookup key = some row :=
        mem_lookup_iff.mpr (List.mem_of_mem_filter member)
      split at acknowledged
      case isFalse => cases acknowledged
      split at acknowledged
      case h_1 => cases acknowledged
      split at acknowledged
      case h_1 => cases acknowledged
      obtain ⟨_, written⟩ := Option.ite_none_right_eq_some.mp acknowledged
      obtain rfl := Option.some.inj written
      exact .insert present rfl rfl
    · cases acknowledged

theorem recover_sameRows (limits : RecoveryLimits) (reports : Reports evidence)
    (table : IntentTable evidence) :
    SameRows table (interruptedRecords limits reports table).2 := by
  intro key row present
  rcases (interruptedRecords_acknowledges limits reports table).kept key row present with
    same | ⟨_, acknowledged⟩
  · exact ⟨row, same, rfl, rfl⟩
  · exact ⟨_, acknowledged, rfl, rfl⟩

/-- What one operation does. -/
inductive Changes (intents : LaunchIntents evidence) :
    IntentAction evidence → LaunchIntents evidence → Prop
  | nothing {action : IntentAction evidence} : Changes intents action intents
  | entered {action : IntentAction evidence} {key : String}
      {result : Except LaunchError (Option (IntentEntry evidence)) × LaunchIntents evidence}
      (entered : Entered key intents result) : Changes intents action result.2
  | inserted {action : IntentAction evidence} {key : String} {record : IntentRecord}
      {payload : evidence.Payload} (missing : intents.table.lookup key = none)
      (decoded : decodeIntent evidence key payload = .ok record) :
      Changes intents action { intents with
        entries := intents.entries.insert key ⟨record, false, false, .preparing⟩
        table := intents.table.insert key ⟨payload, .pending, none, false, none⟩ }
  | claimed {action : IntentAction evidence} {key : String} {entry : IntentEntry evidence}
      (known : intents.entries.lookup key = some entry)
      (preparing : entry.status.isPreparing = true) :
      Changes intents action { intents with
        entries := intents.entries.insert key { entry with claimed := true } }
  | accepted {action : IntentAction evidence} {key : String} {binding : IntentBinding}
      {after : LaunchIntents evidence} {accepted : AcceptedIntent evidence}
      {entry : IntentEntry evidence} {row : IntentRow evidence}
      (accepts : Accepts key binding intents after accepted entry row) :
      Changes intents action after
  | settled {write : Bool} {key : String} {result : Except LaunchError evidence.Session}
      {entry : IntentEntry evidence} {after : LaunchIntents evidence}
      (known : intents.entries.lookup key = some entry)
      (preparing : entry.status.isPreparing = true)
      (settles : Settles write key entry intents result after) :
      Changes intents (.settle write key result) after
  | abandoned {key : String} {entry : IntentEntry evidence}
      (known : intents.entries.lookup key = some entry) (accepted : entry.accepted = true) :
      Changes intents (.abandon key) { intents with
        entries := intents.entries.insert key
          { entry with status := .interrupted entry.record.sessionId } }
  | loaded {action : IntentAction evidence} {key : String}
      {result : Except LaunchError (Option (IntentEntry evidence)) × IntentTable evidence}
      (loaded : Loaded key intents.table result)
      (decided : ∀ entry, intents.entries.lookup key = some entry → entry.accepted = true) :
      Changes intents action { intents with table := result.2 }
  | rows {action : IntentAction evidence} {table : IntentTable evidence}
      (same : SameRows intents.table table) : Changes intents action { intents with table }
  | restarted {action : IntentAction evidence} : Changes intents action (restart intents)

theorem perform_changes (action : IntentAction evidence) (intents : LaunchIntents evidence) :
    Changes intents action (perform action intents).1 := by
  cases action with
  | reserveIdentity access fresh request context =>
    rw [perform_reserveIdentity]
    rcases reserveIdentity_reserves access fresh request context intents with
      ⟨error, refused⟩ | ⟨key, _, reserves⟩
    · rw [refused]
      exact .nothing
    · generalize reserveIdentity access fresh request context intents = result at reserves
      cases reserves with
      | refused error entered | existing entered => exact .entered entered
      | inserted _ _ missing decoded => exact .inserted missing decoded
  | claim key =>
    rw [perform_claim]
    rcases claim_cases key intents with ⟨same, _⟩ | ⟨entry, known, _, preparing, claimed⟩
    · rw [same]
      exact .nothing
    · rw [claimed]
      exact .claimed known preparing
  | accept write key binding =>
    rw [perform_accept]
    rcases accept_cases write key binding intents with
      ⟨error, failed⟩ | ⟨accepted, after, entry, row, accepts, succeeded⟩
    · rw [failed]
      exact .nothing
    · rw [succeeded]
      exact .accepted accepts
  | settle write key result =>
    rcases settle_settles write key result intents with same | ⟨entry, known, preparing, settles⟩
    · rw [perform, same]
      exact .nothing
    · exact .settled known preparing settles
  | abandon key =>
    rcases abandon_cases key intents with same | ⟨entry, known, accepted, abandoned⟩
    · rw [perform, same]
      exact .nothing
    · rw [perform, abandoned]
      exact .abandoned known accepted
  | snapshot access key =>
    rw [perform_snapshot]
    rcases snapshot_cases access key intents with
      ⟨error, same⟩ | ⟨entry, _, same⟩ | ⟨result, loaded, decided, told⟩
    · rw [same]
      exact .nothing
    · rw [same]
      exact .nothing
    · rw [told]
      exact .loaded loaded fun entry known => (decided entry known).1
  | record access key =>
    rw [perform_record]
    rcases record_cases access key intents with
      ⟨error, same⟩ | ⟨entry, _, same⟩ | ⟨result, loaded, unknown, read⟩
    · rw [same]
      exact .nothing
    · rw [same]
      exact .nothing
    · rw [read]
      refine .loaded loaded fun entry known => ?_
      rw [unknown] at known
      cases known
  | observe accepted settlement =>
    obtain ⟨table, same, observed⟩ := observe_sameRows accepted settlement intents
    rw [perform, observed]
    exact .rows same
  | acknowledge report => exact .rows (acknowledgeTerminal_sameRows report intents.table)
  | restart => exact .restarted
  | recover limits reports => exact .rows (recover_sameRows limits reports intents.table)

theorem Changes.evolves {action : IntentAction evidence} (changes : Changes intents action after) :
    Evolves intents after := by
  cases changes with
  | nothing => exact .refl intents
  | entered entered => exact entered.evolves
  | @inserted _ _ record payload missing decoded =>
    refine ⟨.insert fun row present => ?_, fun consistent => consistent.set ?_⟩
    · rw [missing] at present
      cases present
    · exact ⟨⟨record, decoded, .refl record⟩, fun _ _ => rfl, (fun accepted => nomatch accepted),
        fun _ interrupted => nomatch interrupted⟩
  | claimed known =>
    refine ⟨.refl _, fun consistent => ?_⟩
    obtain ⟨row, present, mirrored⟩ := consistent _ _ known
    exact consistent.set_entry present
      ⟨mirrored.agrees, (fun unclaimed => nomatch unclaimed), fun _ => rfl, mirrored.session⟩
  | accepted accepts =>
    rw [accepts.result]
    refine ⟨.insert_row accepts.present accepts.later, fun consistent => ?_⟩
    obtain ⟨_, _, mirrored⟩ := consistent _ _ accepts.known
    refine consistent.set ⟨⟨_, accepts.written, .refl _⟩, fun unclaimed => ?_,
      fun _ => accepts.claimed, fun sessionId interrupted => ?_⟩
    · rw [accepts.claimed] at unclaimed
      cases unclaimed
    · exact mirrored.session sessionId interrupted
  | settled known _ settles => exact settles.evolves known
  | abandoned known =>
    refine ⟨.refl _, fun consistent => ?_⟩
    obtain ⟨row, present, mirrored⟩ := consistent _ _ known
    refine consistent.set_entry present ⟨mirrored.agrees, (fun _ preparing => nomatch preparing),
      mirrored.claimed, fun _ interrupted => ?_⟩
    cases interrupted
    rfl
  | loaded loaded decided =>
    refine ⟨loaded.later, fun consistent => loaded.consistent consistent fun entry known => ?_⟩
    obtain ⟨row, _, mirrored⟩ := consistent _ entry known
    exact mirrored.claimed (decided entry known)
  | rows same =>
    refine ⟨fun key row present => ?_, fun consistent => consistent.set_table
      fun key entry row _ present => ?_⟩
    · obtain ⟨after, there, payload, state⟩ := same key row present
      exact ⟨after, there, .of_payload payload fun decided => state ▸ decided⟩
    · obtain ⟨after, there, payload, state⟩ := same key row present
      exact ⟨after, there, payload, .inr state⟩
  | restarted => exact ⟨.refl _, fun _ key _ known =>
      nomatch (lookup_empty key).symm.trans known⟩

end LaunchIntents

end Axial.Launch
