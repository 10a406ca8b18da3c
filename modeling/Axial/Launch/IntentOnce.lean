/-
This file shows that a launch intent authorises at most one process. Over a history that starts
with no entries in memory, whatever the table holds, a key is accepted at most once, its session
is always the same, another effect or context under the same key is refused, and a key whose row
has been decided cannot be claimed.
-/

import Axial.Launch.IntentRuns

namespace Axial.Launch

open History LaunchIntents

variable {evidence : Evidence}

abbrev IntentMoment (evidence : Evidence) : Type :=
  Moment (LaunchIntents evidence) (IntentAction evidence) (IntentOutcome evidence)

/-- Fresh launch intents over a table. -/
def LaunchIntents.start (capacity : Nat) (table : IntentTable evidence) : LaunchIntents evidence :=
  ⟨∅, capacity, table⟩

/-! ### What a moment says -/

def AcceptsKey (moment : IntentMoment evidence) (key : String) : Prop :=
  ∃ write binding accepted, moment.action = .accept write key binding ∧
    moment.outcome = .accepted (.ok accepted)

/-- `reserve_context` returns `New`. -/
def ClaimsKey (moment : IntentMoment evidence) (key : String) : Prop :=
  ∃ sessionId, moment.action = .claim key ∧ moment.outcome = .claimed (.ok (some sessionId))

def AsksFor (moment : IntentMoment evidence) (key : String) (request : LaunchRequest)
    (context : Option String) : Prop :=
  request.intentKey = some key ∧
    ∃ access fresh, moment.action = .reserveIdentity access fresh request context

def Grants (moment : IntentMoment evidence) : Prop :=
  ∃ sessionId, moment.outcome = .reserved (.ok sessionId)

/-- The ways in which the session of a key is told. -/
inductive NamesSession (moment : IntentMoment evidence) (key sessionId : String) : Prop
  | reserved {request context}
      (asks : AsksFor moment key request context)
      (outcome : moment.outcome = .reserved (.ok sessionId))
  | claimed (action : moment.action = .claim key)
      (outcome : moment.outcome = .claimed (.ok (some sessionId)))
  | accepted {write binding accepted}
      (action : moment.action = .accept write key binding)
      (outcome : moment.outcome = .accepted (.ok accepted))
      (named : accepted.record.sessionId = sessionId)
  | recorded {access record}
      (action : moment.action = .record access key)
      (outcome : moment.outcome = .recorded (.ok (some record)))
      (named : record.sessionId = sessionId)
  | told {access} (action : moment.action = .snapshot access key)
      (outcome : moment.outcome = .told (.ok (some (.interrupted sessionId))))
  | recovered {records record}
      (outcome : moment.outcome = .interrupted (.ok records)) (member : record ∈ records)
      (ofKey : record.request.intentKey = some key) (named : record.sessionId = sessionId)

/-! ### What a table says -/

def Decided (table : IntentTable evidence) (key : String) : Prop :=
  ∃ row, table.lookup key = some row ∧ row.state ≠ .pending

/-- A record of the key's launch. -/
def Describes (table : IntentTable evidence) (key : String) (record : IntentRecord) : Prop :=
  ∃ row later, table.lookup key = some row ∧ Holds key row later ∧ record.Agrees later

variable {key : String} {after before : IntentTable evidence}

theorem Later.decided (later : Later before after) (decided : Decided before key) :
    Decided after key := by
  obtain ⟨row, present, state⟩ := decided
  obtain ⟨next, there, rowLater⟩ := later key row present
  exact ⟨next, there, rowLater.decided state⟩

variable {record : IntentRecord}

theorem Later.describes (later : Later before after) (describes : Describes before key record) :
    Describes after key record := by
  obtain ⟨row, middle, present, holds, agrees⟩ := describes
  obtain ⟨next, there, rowLater⟩ := later key row present
  obtain ⟨last, held, again⟩ := rowLater.agrees middle holds
  exact ⟨next, last, there, held, agrees.trans again⟩

theorem Describes.agrees {table : IntentTable evidence} {other : IntentRecord}
    (describes : Describes table key record) (again : Describes table key other) :
    record.Agrees other := by
  obtain ⟨row, later, present, holds, agrees⟩ := describes
  obtain ⟨row', later', present', holds', agrees'⟩ := again
  obtain rfl := Option.some.inj (present.symm.trans present')
  obtain rfl := holds.unique holds'
  exact agrees.trans agrees'.symm

variable {entry : IntentEntry evidence} {intents : LaunchIntents evidence}

theorem Consistent.describes (consistent : Consistent intents)
    (known : intents.entries.lookup key = some entry) :
    Describes intents.table key entry.record := by
  obtain ⟨row, present, mirrored⟩ := consistent key entry known
  obtain ⟨record, holds, agrees⟩ := mirrored.agrees
  exact ⟨row, record, present, holds, agrees.symm⟩

theorem Loaded.describes {table : IntentTable evidence}
    (loaded : Loaded key table (.ok (some entry), after)) : Describes after key entry.record := by
  cases loaded with
  | found present holds => exact ⟨_, _, present, holds, .refl _⟩
  | refused error present holds => exact ⟨_, _, AList.lookup_insert _, holds, .refl _⟩

variable {sessionId : String}

theorem Loaded.session {table : IntentTable evidence}
    (loaded : Loaded key table (.ok (some entry), after))
    (interrupted : entry.status = .interrupted sessionId) : sessionId = entry.record.sessionId := by
  cases loaded with
  | found present holds stands => exact stands.session interrupted
  | refused => cases interrupted

variable {reports : Reports evidence}

/-- The records that a scan lists are held by rows that it has seen. -/
theorem openRecord_holds {row : KeyedRow evidence} (opened : openRecord reports row = some record) :
    Holds row.1 row.2 record := by
  unfold openRecord at opened
  split at opened
  case h_1 => cases opened
  rename_i decoded
  dsimp only at opened
  split at opened
  · obtain rfl := Option.some.inj opened
    exact decoded
  · cases opened

variable {records : List IntentRecord}

theorem interruptedRecords_lists {limits : RecoveryLimits} {table : IntentTable evidence}
    (through : (interruptedRecords limits reports table).1 = .ok records) :
    records = (unresolvedRows table).filterMap (openRecord reports) :=
  scanRows_lists .start (present_unresolvedRows table) (Prod.ext through rfl)

variable {request : LaunchRequest} {context : Option String}

/-- The record of a reservation that is granted. -/
theorem LaunchIntents.Reserves.describes {after : LaunchIntents evidence}
    (reserves : Reserves key request context intents (.ok sessionId, after))
    (consistent : Consistent intents) :
    ∃ record, Describes after.table key record ∧ record.sessionId = sessionId ∧
      request.sameEffect record.request = true ∧ context = record.context := by
  cases reserves with
  | @existing after entry entered effect same =>
    exact ⟨entry.record, (entered.evolves.2 consistent).describes entered.lookup, rfl, effect,
      same⟩
  | @inserted record payload ofRequest ofContext missing decoded =>
    refine ⟨record, ⟨_, record, AList.lookup_insert _, decoded, .refl record⟩, rfl, ?_,
      ofContext.symm⟩
    rw [ofRequest]
    simp [LaunchRequest.sameEffect]

/-! ### Single moments -/

section Moments

variable {moment : IntentMoment evidence}
  (performed : LaunchIntents.perform moment.action moment.before = (moment.after, moment.outcome))

include performed

theorem moment_later : Later moment.before.table moment.after.table := by
  have evolves := (perform_changes moment.action moment.before).evolves
  rw [performed] at evolves
  exact evolves.1

theorem moment_consistent (consistent : Consistent moment.before) : Consistent moment.after := by
  have evolves := (perform_changes moment.action moment.before).evolves
  rw [performed] at evolves
  exact evolves.2 consistent

/-- An acceptance finds the row pending and leaves it decided. -/
theorem acceptsKey_decides (accepts : AcceptsKey moment key) :
    ¬Decided moment.before.table key ∧ Decided moment.after.table key := by
  obtain ⟨write, binding, accepted, action, outcome⟩ := accepts
  rw [action, outcome] at performed
  rcases accept_cases write key binding moment.before with
    ⟨error, failed⟩ | ⟨_, after, entry, row, accepts, succeeded⟩
  · rw [perform_accept, failed] at performed
    exact nomatch IntentOutcome.accepted.inj (Prod.mk.inj performed).2
  · rw [perform_accept, succeeded] at performed
    rw [← (Prod.mk.inj performed).1]
    refine ⟨fun decided => ?_, ?_⟩
    · obtain ⟨other, present, state⟩ := decided
      obtain rfl := Option.some.inj (accepts.present.symm.trans present)
      exact state accepts.pending
    · rw [accepts.result]
      exact ⟨_, AList.lookup_insert _, fun pending => nomatch pending⟩

/-- A claim finds the row pending. -/
theorem claimsKey_pending (consistent : Consistent moment.before) (claims : ClaimsKey moment key) :
    ¬Decided moment.before.table key := by
  obtain ⟨sessionId, action, outcome⟩ := claims
  rw [action, outcome, perform_claim] at performed
  rcases claim_cases key moment.before with
    ⟨_, none⟩ | ⟨entry, known, unclaimed, preparing, _⟩
  · exact absurd (IntentOutcome.claimed.inj (Prod.mk.inj performed).2) (none sessionId)
  · intro decided
    obtain ⟨other, present, state⟩ := decided
    obtain ⟨row, there, mirrored⟩ := consistent key entry known
    obtain rfl := Option.some.inj (present.symm.trans there)
    exact state (mirrored.unclaimed unclaimed preparing)

/-- What a reservation that is granted has found or written. -/
theorem grants_describes (consistent : Consistent moment.before)
    (asks : AsksFor moment key request context)
    (outcome : moment.outcome = .reserved (.ok sessionId)) :
    ∃ record, Describes moment.after.table key record ∧ record.sessionId = sessionId ∧
      request.sameEffect record.request = true ∧ context = record.context := by
  obtain ⟨ofKey, access, fresh, action⟩ := asks
  rw [action, outcome, perform_reserveIdentity] at performed
  obtain ⟨after, granted⟩ := Prod.mk.inj performed
  have granted := IntentOutcome.reserved.inj granted
  rcases reserveIdentity_reserves access fresh request context moment.before with
    ⟨error, refused⟩ | ⟨other, named, reserves⟩
  · rw [refused] at granted
    cases granted
  · obtain rfl := Option.some.inj (ofKey.symm.trans named)
    rw [show LaunchIntents.reserveIdentity access fresh request context moment.before =
      (.ok sessionId, moment.after) from Prod.ext granted after] at reserves
    exact reserves.describes consistent

/-- A reservation is granted or refused. -/
theorem asksFor_outcome (asks : AsksFor moment key request context) :
    Grants moment ∨ ∃ error, moment.outcome = .reserved (.error error) := by
  obtain ⟨_, access, fresh, action⟩ := asks
  rw [action, perform_reserveIdentity] at performed
  obtain ⟨_, told⟩ := Prod.mk.inj performed
  cases result :
      (LaunchIntents.reserveIdentity access fresh request context moment.before).1 with
  | ok sessionId => exact .inl ⟨sessionId, by rw [← told, result]⟩
  | error error => exact .inr ⟨error, by rw [← told, result]⟩

/-- Only a scan lists interrupted launches. -/
theorem recovers_of_interrupted (outcome : moment.outcome = .interrupted (.ok records)) :
    ∃ limits reports, moment.action = .recover limits reports := by
  rw [outcome] at performed
  cases action : moment.action with
  | recover limits reports => exact ⟨limits, reports, rfl⟩
  | _ =>
    rw [action] at performed
    exact nomatch (Prod.mk.inj performed).2

/-- What is listed as interrupted is in the table and unresolved. -/
theorem row_of_interrupted (outcome : moment.outcome = .interrupted (.ok records))
    (member : record ∈ records) (ofKey : record.request.intentKey = some key) :
    ∃ row, moment.before.table.lookup key = some row ∧ row.unresolved = true ∧
      Holds key row record := by
  obtain ⟨limits, reports, action⟩ := recovers_of_interrupted performed outcome
  rw [action, outcome, perform_recover] at performed
  have told := IntentOutcome.interrupted.inj (Prod.mk.inj performed).2
  rw [interruptedRecords_lists told] at member
  obtain ⟨⟨other, row⟩, unresolved, opened⟩ := List.mem_filterMap.mp member
  have holds : Holds other row record := openRecord_holds opened
  obtain rfl := Option.some.inj (ofKey.symm.trans holds.valid.2.1)
  obtain ⟨present, unresolved⟩ := mem_unresolvedRows.mp unresolved
  exact ⟨row, present, unresolved, holds⟩

/-- The session that is told is that of the key's launch. -/
theorem namesSession_describes (consistent : Consistent moment.before)
    (names : NamesSession moment key sessionId) :
    ∃ record, Describes moment.after.table key record ∧ record.sessionId = sessionId := by
  have later := moment_later performed
  cases names with
  | reserved asks outcome =>
    obtain ⟨record, describes, named, _⟩ := grants_describes performed consistent asks outcome
    exact ⟨record, describes, named⟩
  | claimed action outcome =>
    rw [action, outcome, perform_claim] at performed
    have told := IntentOutcome.claimed.inj (Prod.mk.inj performed).2
    rcases claim_cases key moment.before with
      ⟨_, none⟩ | ⟨entry, known, _, _, claimed⟩
    · exact absurd told (none sessionId)
    · rw [claimed] at told
      exact ⟨entry.record, later.describes (consistent.describes known),
        Option.some.inj (Except.ok.inj told)⟩
  | @accepted write binding accepted action outcome named =>
    rw [action, outcome, perform_accept] at performed
    have told := IntentOutcome.accepted.inj (Prod.mk.inj performed).2
    rcases accept_cases write key binding moment.before with
      ⟨error, failed⟩ | ⟨_, after, entry, row, accepts, succeeded⟩
    · rw [failed] at told
      cases told
    · rw [succeeded] at told
      obtain rfl := Except.ok.inj told
      refine ⟨entry.record, later.describes (consistent.describes accepts.known), ?_⟩
      rw [← named, accepts.authority]
  | @recorded access record action outcome named =>
    rw [action, outcome, perform_record] at performed
    obtain ⟨after, told⟩ := Prod.mk.inj performed
    have told := IntentOutcome.recorded.inj told
    rcases record_cases access key moment.before with
      ⟨error, failed⟩ | ⟨entry, known, read⟩ | ⟨result, loaded, _, read⟩
    · rw [failed] at told
      cases told
    · rw [read] at told
      obtain rfl := Option.some.inj (Except.ok.inj told)
      exact ⟨entry.record, later.describes (consistent.describes known), named⟩
    · rw [read] at told after
      obtain ⟨result, table⟩ := result
      rcases result with error | _ | entry
      · cases told
      · cases told
      · obtain rfl := Option.some.inj (Except.ok.inj told)
        rw [← after]
        exact ⟨entry.record, loaded.describes, named⟩
  | @told access action outcome =>
    rw [action, outcome, perform_snapshot] at performed
    obtain ⟨after, told⟩ := Prod.mk.inj performed
    have told := IntentOutcome.told.inj told
    rcases snapshot_cases access key moment.before with
      ⟨error, failed⟩ | ⟨entry, known, read⟩ | ⟨result, loaded, _, read⟩
    · rw [failed] at told
      cases told
    · rw [read] at told
      obtain ⟨row, _, mirrored⟩ := consistent key entry known
      exact ⟨entry.record, later.describes (consistent.describes known),
        (mirrored.session sessionId (Option.some.inj (Except.ok.inj told))).symm⟩
    · rw [read] at told after
      obtain ⟨result, table⟩ := result
      rcases result with error | _ | entry
      · cases told
      · cases told
      · have status := Option.some.inj (Except.ok.inj told)
        rw [← after]
        exact ⟨entry.record, loaded.describes, (loaded.session status).symm⟩
  | @recovered records record outcome member ofKey named =>
    obtain ⟨row, present, _, holds⟩ := row_of_interrupted performed outcome member ofKey
    exact ⟨record, later.describes ⟨row, record, present, holds, .refl record⟩, named⟩

end Moments

/-! ### Histories -/

/-- What fresh launch intents go through over a table. -/
def intentHistory (capacity : Nat) (table : IntentTable evidence)
    (actions : List (IntentAction evidence)) : List (IntentMoment evidence) :=
  history LaunchIntents.perform actions (.start capacity table)

section History

variable {capacity : Nat} {table : IntentTable evidence} {actions : List (IntentAction evidence)}

theorem intentHistory_consistent {moment : IntentMoment evidence}
    (member : moment ∈ intentHistory capacity table actions) : Consistent moment.before :=
  invariant (fun _ inside => moment_consistent (performed inside))
    (fun key entry known => by
      rw [LaunchIntents.start, AList.lookup_empty] at known
      cases known) moment member

/-- What holds of what an earlier moment left and of a later moment. -/
theorem intentHistory_pairwise {relates : IntentMoment evidence → IntentMoment evidence → Prop}
    (related : ∀ earlier ∈ intentHistory capacity table actions,
      ∀ next ∈ intentHistory capacity table actions,
      Later earlier.after.table next.before.table → relates earlier next) :
    (intentHistory capacity table actions).Pairwise relates := by
  have later : (intentHistory capacity table actions).Pairwise fun earlier next =>
      Later earlier.after.table next.before.table :=
    pairwise (fun before after => Later before.table after.table)
      (fun state => .refl state.table) Later.trans
      fun _ inside => moment_later (performed inside)
  exact later.imp_of_mem fun {earlier next} first second before =>
    related earlier first next second before

end History

theorem sameEffect_trans {first second third : LaunchRequest}
    (early : first.sameEffect third = true) (late : second.sameEffect third = true) :
    second.sameEffect first = true := by
  simp only [LaunchRequest.sameEffect, Bool.and_eq_true, decide_eq_true_eq] at *
  simp [early, late]

/-- A launch intent authorises at most one process. -/
theorem intents_authorise_once (capacity : Nat) (table : IntentTable evidence)
    (actions : List (IntentAction evidence)) :
    ((intentHistory capacity table actions).Pairwise fun earlier later => ∀ key,
      AcceptsKey earlier key → ¬AcceptsKey later key) ∧
    ((intentHistory capacity table actions).Pairwise fun earlier later => ∀ key first second,
      NamesSession earlier key first → NamesSession later key second → second = first) ∧
    ((intentHistory capacity table actions).Pairwise fun earlier later =>
      ∀ key request context, AsksFor earlier key request context → Grants earlier →
      ∀ other otherContext, AsksFor later key other otherContext →
      ¬other.sameEffect request = true ∨ otherContext ≠ context →
        ∃ error, later.outcome = .reserved (.error error)) ∧
    (∀ moment ∈ intentHistory capacity table actions, ∀ key record,
      Describes moment.before.table key record → ∀ other otherContext,
      AsksFor moment key other otherContext →
      ¬other.sameEffect record.request = true ∨ otherContext ≠ record.context →
        ∃ error, moment.outcome = .reserved (.error error)) ∧
    (∀ moment ∈ intentHistory capacity table actions, ∀ key,
      Decided moment.before.table key → ¬ClaimsKey moment key) ∧
    (intentHistory capacity table actions).Pairwise fun earlier later => ∀ key,
      Decided earlier.after.table key → ¬ClaimsKey later key := by
  refine ⟨?_, ?_, ?_, ?_, ?_, ?_⟩
  · refine intentHistory_pairwise fun earlier first next second later key accepts again => ?_
    have left := (acceptsKey_decides (performed first) accepts).2
    exact (acceptsKey_decides (performed second) again).1 (later.decided left)
  · refine intentHistory_pairwise fun earlier first next second later key one other names
      again => ?_
    obtain ⟨record, describes, session⟩ :=
      namesSession_describes (performed first) (intentHistory_consistent first) names
    obtain ⟨record', describes', session'⟩ :=
      namesSession_describes (performed second) (intentHistory_consistent second) again
    have agrees := ((later.trans (moment_later (performed second))).describes describes).agrees
      describes'
    rw [← session, ← session']
    exact agrees.2.2
  · refine intentHistory_pairwise fun earlier first next second later key request context asks
      grants other otherContext again differs => ?_
    obtain ⟨sessionId, outcome⟩ := grants
    obtain ⟨record, describes, _, effect, same⟩ :=
      grants_describes (performed first) (intentHistory_consistent first) asks outcome
    rcases asksFor_outcome (performed second) again with ⟨otherId, granted⟩ | refused
    · obtain ⟨record', describes', _, effect', same'⟩ :=
        grants_describes (performed second) (intentHistory_consistent second) again granted
      have agrees := ((later.trans (moment_later (performed second))).describes describes).agrees
        describes'
      rw [agrees.1] at effect'
      rw [agrees.2.1] at same'
      rcases differs with differs | differs
      · exact absurd (sameEffect_trans effect effect') differs
      · exact absurd (same'.trans same.symm) differs
    · exact refused
  · intro moment member key record describes other otherContext asks differs
    rcases asksFor_outcome (performed member) asks with ⟨otherId, granted⟩ | refused
    · obtain ⟨record', describes', _, effect, same⟩ :=
        grants_describes (performed member) (intentHistory_consistent member) asks granted
      have agrees := ((moment_later (performed member)).describes describes).agrees describes'
      rw [agrees.1] at effect
      rw [agrees.2.1] at same
      rcases differs with differs | differs
      · exact absurd effect differs
      · exact absurd same differs
    · exact refused
  · intro moment member key decided claims
    exact claimsKey_pending (performed member) (intentHistory_consistent member) claims decided
  · refine intentHistory_pairwise fun earlier first next second later key decided claims => ?_
    exact claimsKey_pending (performed second) (intentHistory_consistent second) claims
      (later.decided decided)

end Axial.Launch
