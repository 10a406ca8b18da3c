/-
This file embeds the launch intents of the coordinator: the records of what is to be
launched, the table that keeps them, the entries that mirror them in memory, and the
operations that reserve an intent, accept it, settle it and tell its status. Each
operation is one critical section; which of its accesses to the database succeed, and what
the reports hold, is given to it.
-/

import Axial.Minecraft.LoaderIdentity

namespace Axial.Launch

open Bytes

/-! ### Requests and records -/

inductive LaunchError where
  | invalidRequest
  | invalidIntent
  | intentConflict
  | interrupted
  | intentUnavailable
  | recoveryIncomplete
  | atCapacity
  | invalidUsername
  | invalidMemory
  | instanceNotFound
  | instanceBusy
  | instanceChanged
  | accountChanged
  | accountUnavailable
  | onlineAccountUnavailable
  | profileUnsettled
  | libraryUnavailable
  | installedVersionsDegraded
  | installUnavailable
  | runtimeUnavailable
  | settingsChanged
  | performanceUnsettled
  | performanceUnavailable
  | planRejected
  | cancelled
  | closed
  | preparationFailed
  /-- With the name of its cause. -/
  | runtimeFailure (cause : String)
  deriving DecidableEq

structure LaunchRequest where
  instanceId : String
  versionId : Option String
  username : Option String
  maxMemoryMb : Option Int
  minMemoryMb : Option Int
  clientStartedAtMs : Option Int
  intentKey : Option String
  deriving DecidableEq

def isLowerHex (char : Char) : Bool :=
  ('0' ≤ char && char ≤ '9') || ('a' ≤ char && char ≤ 'f')

/-- Whether a text is how a UUID other than nil is spelt. -/
def validIntentKey (key : String) : Bool :=
  let chars := key.toList
  chars.length = 36 &&
    (chars.zipIdx.all fun (char, index) =>
      if index ∈ [8, 13, 18, 23] then char = '-' else isLowerHex char) &&
    chars.any fun char => char ≠ '-' && char ≠ '0'

def validateIntentKey (key : String) : Except LaunchError Unit :=
  if validIntentKey key then .ok () else .error .invalidIntent

/-- `settings::validate_username` -/
def validUsername (name : String) : Bool :=
  let chars := name.toList
  3 ≤ chars.length && chars.length ≤ 16 && chars.all fun char => char.isAlphanum || char = '_'

namespace LaunchRequest

def validate (request : LaunchRequest) : Except LaunchError Unit := do
  if let some key := request.intentKey then validateIntentKey key
  if let some name := request.username then
    let trimmed := Minecraft.trim name
    if trimmed ≠ "" ∧ ¬validUsername trimmed then throw .invalidUsername
  if ([request.maxMemoryMb, request.minMemoryMb].reduceOption.any fun memory =>
      !(0 ≤ memory && memory ≤ 1024 * 1024)) then
    throw .invalidMemory
  if request.clientStartedAtMs.any (· < 0) then throw .invalidRequest

def sameEffect (request other : LaunchRequest) : Bool :=
  request.instanceId = other.instanceId && request.versionId = other.versionId &&
    request.username = other.username && request.maxMemoryMb = other.maxMemoryMb &&
    request.minMemoryMb = other.minMemoryMb

end LaunchRequest

structure IntentBinding where
  version : Nat
  libraryId : String
  libraryRoot : Fixed 32
  applicationRoot : Fixed 32
  directoryName : String
  directoryReceipt : String
  deriving DecidableEq

structure IntentRecord where
  request : LaunchRequest
  context : Option String
  sessionId : String
  binding : Option IntentBinding
  deriving DecidableEq

abbrev maxPayloadBytes : Nat := 16384

/-- How records, settlements and reports are read and written, and what a report or an
observation says of a record. A record that is written is read back, and it fits its row. -/
structure Evidence where
  Payload : Type
  Settlement : Type
  Observation : Type
  Report : Type
  Session : Type
  payloadEq : DecidableEq Payload
  settlementEq : DecidableEq Settlement
  size : Payload → Nat
  encode : IntentRecord → Option Payload
  parse : Payload → Option IntentRecord
  faithful : ∀ record payload, encode record = some payload →
    parse payload = some record ∧ size payload ≤ maxPayloadBytes
  settlementSize : Settlement → Nat
  decodeSettlement : IntentRecord → Payload → Settlement → Option Observation
  matchesReport : Observation → Report → Bool
  terminalSnapshot : IntentRecord → Report → Option Session
  reportSession : Report → String
  /-- The field `session_id` of a payload, as the database reads it. -/
  payloadSession : Payload → Option String
  located : ∀ payload record, parse payload = some record →
    payloadSession payload = some record.sessionId
  /-- Whether a context is the text of a scenario. -/
  parsesContext : String → Bool
  /-- `ObservedSettlement::snapshot` -/
  observed : Observation → IntentRecord → Session

variable (evidence : Evidence)

instance : DecidableEq evidence.Payload := evidence.payloadEq

instance : DecidableEq evidence.Settlement := evidence.settlementEq

def decodeIntent (key : String) (payload : evidence.Payload) : Except LaunchError IntentRecord :=
  if maxPayloadBytes < evidence.size payload then .error .intentUnavailable
  else match evidence.parse payload with
    | none => .error .intentUnavailable
    | some record =>
      match record.request.validate with
      | .error _ => .error .intentUnavailable
      | .ok () =>
        if record.request.intentKey ≠ some key ∨ ¬validIntentKey record.sessionId then
          .error .intentUnavailable
        else .ok record

/-! ### The table and the entries -/

inductive IntentState where
  | pending
  | accepted
  | rejected
  | interrupted
  deriving DecidableEq

/-- A row of the table `launch_intents`. An error may be one that cannot be read. -/
structure IntentRow where
  payload : evidence.Payload
  state : IntentState
  error : Option (Option LaunchError)
  terminalAck : Bool
  settlement : Option evidence.Settlement

abbrev IntentTable : Type := AList fun _ : String => IntentRow evidence

inductive LaunchIntentStatus where
  | preparing
  | accepted (session : evidence.Session)
  | rejected (error : LaunchError)
  | interrupted (sessionId : String)

namespace LaunchIntentStatus

variable {evidence}

def isPreparing : LaunchIntentStatus evidence → Bool
  | preparing => true
  | _ => false

def isRejected : LaunchIntentStatus evidence → Bool
  | rejected _ => true
  | _ => false

end LaunchIntentStatus

structure IntentEntry where
  record : IntentRecord
  claimed : Bool
  accepted : Bool
  status : LaunchIntentStatus evidence

structure LaunchIntents where
  entries : AList fun _ : String => IntentEntry evidence
  capacity : Nat
  table : IntentTable evidence

/-- The table `launch_reports`: the size of each report, and the report itself, which is for the
session it is stored under. -/
structure Reports where
  bytes : String → Nat
  get : String → Except LaunchError (Option evidence.Report)
  named : ∀ sessionId report, get sessionId = .ok (some report) →
    evidence.reportSession report = sessionId

/-- What an operation meets: which accesses to the table succeed, and the reports. -/
structure Access where
  check : Bool
  read : Bool
  write : Bool
  reports : Reports evidence

/-- Authority over an accepted row. -/
structure AcceptedIntent where
  key : String
  payload : evidence.Payload
  record : IntentRecord

/-- The identity of a session that has been made up: it is spelt as it has to be. -/
abbrev FreshId : Type := {id : String // validIntentKey id = true}

variable {evidence}

/-! ### The operations -/

def rejectRow (write : Bool) (key : String) (error : LaunchError) (table : IntentTable evidence) :
    Except LaunchError Unit × IntentTable evidence :=
  match write, table.lookup key with
  | true, some row =>
    (.ok (), table.insert key { row with state := .rejected, error := some (some error) })
  | _, _ => (.error .intentUnavailable, table)

def terminalSession (access : Access evidence) (record : IntentRecord)
    (payload : evidence.Payload) (settlement : Option evidence.Settlement) :
    Except LaunchError (Option evidence.Session) := do
  let observation ← match settlement with
    | none => pure none
    | some settlement =>
      match evidence.decodeSettlement record payload settlement with
      | none => throw .intentUnavailable
      | some observation => pure (some observation)
  match ← access.reports.get record.sessionId with
  | some report =>
    if observation.any fun observation => !evidence.matchesReport observation report then
      throw .intentUnavailable
    match evidence.terminalSnapshot record report with
    | none => throw .intentUnavailable
    | some session => pure (some session)
  | none => pure (observation.map (evidence.observed · record))

/-- The status that a row stands for. A pending row without a context is rejected first. -/
def rowStatus (access : Access evidence) (key : String) (record : IntentRecord)
    (row : IntentRow evidence) (table : IntentTable evidence) :
    Except LaunchError (LaunchIntentStatus evidence) × IntentTable evidence :=
  match row.state with
  | .pending =>
    if record.context.isSome then (.ok .preparing, table)
    else match rejectRow access.write key .preparationFailed table with
      | (.ok (), after) => (.ok (.rejected .preparationFailed), after)
      | (.error error, after) => (.error error, after)
  | .accepted | .interrupted =>
    (match terminalSession access record row.payload row.settlement with
      | .error error => .error error
      | .ok (some session) => .ok (.accepted session)
      | .ok none => .ok (.interrupted record.sessionId), table)
  | .rejected =>
    (match row.error with
      | some (some error) => .ok (.rejected error)
      | _ => .error .intentUnavailable, table)

def load (access : Access evidence) (key : String) (table : IntentTable evidence) :
    Except LaunchError (Option (IntentEntry evidence)) × IntentTable evidence :=
  if access.read then
    match table.lookup key with
    | none => (.ok none, table)
    | some row =>
      match decodeIntent evidence key row.payload with
      | .error error => (.error error, table)
      | .ok record =>
        if row.settlement.isSome ∧ row.state ≠ .accepted ∧ row.state ≠ .interrupted then
          (.error .intentUnavailable, table)
        else match rowStatus access key record row table with
          | (.ok status, after) => (.ok (some ⟨record, false, false, status⟩), after)
          | (.error error, after) => (.error error, after)
  else (.error .intentUnavailable, table)

namespace LaunchIntents

/-- The entry of a key, brought into memory if it is only in the table. -/
def enter (access : Access evidence) (key : String) (intents : LaunchIntents evidence) :
    Except LaunchError (Option (IntentEntry evidence)) × LaunchIntents evidence :=
  match intents.entries.lookup key with
  | some entry => (.ok (some entry), intents)
  | none =>
    if intents.capacity ≤ intents.entries.entries.length then (.error .atCapacity, intents)
    else match load access key intents.table with
      | (.ok (some entry), table) =>
        (.ok (some entry), { intents with entries := intents.entries.insert key entry, table })
      | (.ok none, table) => (.ok none, { intents with table })
      | (.error error, table) => (.error error, { intents with table })

/-- Writes a new row and its entry. -/
def insertNew (write : Bool) (key : String) (record : IntentRecord)
    (intents : LaunchIntents evidence) : Except LaunchError String × LaunchIntents evidence :=
  match write, evidence.encode record, intents.table.lookup key with
  | true, some payload, none =>
    (.ok record.sessionId, { intents with
      entries := intents.entries.insert key ⟨record, false, false, .preparing⟩
      table := intents.table.insert key ⟨payload, .pending, none, false, none⟩ })
  | _, _, _ => (.error .intentUnavailable, intents)

def reserveIdentity (access : Access evidence) (fresh : FreshId) (request : LaunchRequest)
    (context : Option String) (intents : LaunchIntents evidence) :
    Except LaunchError String × LaunchIntents evidence :=
  match request.validate, request.intentKey with
  | .error error, _ => (.error error, intents)
  | .ok (), none => (.error .invalidIntent, intents)
  | .ok (), some key =>
    match enter access key intents with
    | (.error error, after) => (.error error, after)
    | (.ok (some entry), after) =>
      if ¬request.sameEffect entry.record.request ∨ context ≠ entry.record.context then
        (.error .intentConflict, after)
      else (.ok entry.record.sessionId, after)
    | (.ok none, after) =>
      insertNew access.write key ⟨request, context, fresh.val, none⟩ after

/-- The second half of `reserve_context`, after the identity has been reserved; `none` says
that the intent exists. -/
def claim (key : String) (intents : LaunchIntents evidence) :
    Except LaunchError (Option String) × LaunchIntents evidence :=
  match intents.entries.lookup key with
  | none => (.error .intentUnavailable, intents)
  | some entry =>
    if entry.claimed ∨ ¬entry.status.isPreparing then (.ok none, intents)
    else (.ok (some entry.record.sessionId), { intents with
      entries := intents.entries.insert key { entry with claimed := true } })

/-- The transaction of `accept`. -/
def acceptRow (key : String) (record : IntentRecord) (payload : evidence.Payload)
    (table : IntentTable evidence) : Option (IntentTable evidence) :=
  match table.lookup key with
  | none => none
  | some row =>
    if row.state = .pending ∧ row.settlement = none ∧
        (decodeIntent evidence key row.payload).toOption = some record then
      some (table.insert key { row with payload, state := .accepted })
    else none

def accept (write : Bool) (key : String) (binding : IntentBinding)
    (intents : LaunchIntents evidence) :
    Except LaunchError (AcceptedIntent evidence) × LaunchIntents evidence :=
  match intents.entries.lookup key with
  | none => (.error .intentUnavailable, intents)
  | some entry =>
    if ¬entry.claimed ∨ entry.accepted ∨ ¬entry.status.isPreparing ∨ binding.version ≠ 1 ∨
        binding.directoryName ≠ entry.record.request.instanceId then
      (.error .intentConflict, intents)
    else
      let record := { entry.record with binding := some binding }
      match write, evidence.encode record with
      | true, some payload =>
        match acceptRow key entry.record payload intents.table with
        | none => (.error .intentUnavailable, intents)
        | some table =>
          (.ok ⟨key, payload, record⟩, { intents with
            entries := intents.entries.insert key { entry with record, accepted := true }
            table })
      | _, _ => (.error .intentUnavailable, intents)

def settle (write : Bool) (key : String) (result : Except LaunchError evidence.Session)
    (intents : LaunchIntents evidence) : LaunchIntents evidence :=
  match intents.entries.lookup key with
  | none => intents
  | some entry =>
    if entry.status.isPreparing then
      match result with
      | .ok session =>
        { intents with
          entries := intents.entries.insert key { entry with status := .accepted session } }
      | .error error =>
        let rejected := rejectRow write key error intents.table
        -- The verdict is published also where it could not be written.
        let published := match rejected.1 with
          | .ok () => error
          | .error unwritten => unwritten
        { intents with
          entries := intents.entries.insert key { entry with status := .rejected published }
          table := rejected.2 }
    else intents

/-- The first section of `abandon`. Without an acceptance, `settle` follows. -/
def abandon (key : String) (intents : LaunchIntents evidence) : LaunchIntents evidence :=
  match intents.entries.lookup key with
  | none => intents
  | some entry =>
    if entry.accepted then
      { intents with
        entries := intents.entries.insert key
          { entry with status := .interrupted entry.record.sessionId } }
    else intents

/-- The status of a key that is only in the table. -/
def loadStatus (access : Access evidence) (key : String) (intents : LaunchIntents evidence) :
    Except LaunchError (Option (LaunchIntentStatus evidence)) × LaunchIntents evidence :=
  match load access key intents.table with
  | (.ok entry, table) => (.ok (entry.map (·.status)), { intents with table })
  | (.error error, table) => (.error error, { intents with table })

def snapshot (access : Access evidence) (key : String) (intents : LaunchIntents evidence) :
    Except LaunchError (Option (LaunchIntentStatus evidence)) × LaunchIntents evidence :=
  if ¬validIntentKey key then (.error .invalidIntent, intents)
  else match intents.entries.lookup key with
    | some entry =>
      if entry.accepted then
        match access.check, intents.table.lookup key with
        | true, some row =>
          if row.settlement.isSome then loadStatus access key intents
          else (.ok (some entry.status), intents)
        | _, _ => (.error .intentUnavailable, intents)
      else (.ok (some entry.status), intents)
    | none => loadStatus access key intents

def record (access : Access evidence) (key : String) (intents : LaunchIntents evidence) :
    Except LaunchError (Option IntentRecord) × LaunchIntents evidence :=
  if ¬validIntentKey key then (.error .invalidIntent, intents)
  else match intents.entries.lookup key with
    | some entry => (.ok (some entry.record), intents)
    | none =>
      match load access key intents.table with
      | (.ok entry, table) => (.ok (entry.map (·.record)), { intents with table })
      | (.error error, table) => (.error error, { intents with table })

/-- A new start over the same table. -/
def restart (intents : LaunchIntents evidence) : LaunchIntents evidence :=
  { intents with entries := ∅ }

/-- `AcceptedIntent::observe`: the session writes what it has settled. -/
def observe (accepted : AcceptedIntent evidence) (settlement : evidence.Settlement)
    (intents : LaunchIntents evidence) : LaunchIntents evidence :=
  match intents.table.lookup accepted.key with
  | none => intents
  | some row =>
    if row.payload = accepted.payload ∧ row.state = .accepted ∧ row.settlement = none then
      { intents with
        table := intents.table.insert accepted.key { row with settlement := some settlement } }
    else intents

end LaunchIntents

end Axial.Launch
