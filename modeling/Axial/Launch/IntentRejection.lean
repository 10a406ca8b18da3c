/-
This file asks whether a rejected launch stays rejected. A settlement publishes its rejection
also where it could not be written, so that a restart may find the launch preparing or accepted
again. In histories in which a rejection that is not written only concerns a row that is
rejected anyway when it is loaded, and in which no accepted launch is abandoned after it has been
rejected, what has been told stands.
-/

import Axial.Launch.IntentOnce

namespace Axial.Launch

open History LaunchIntents AList

variable {evidence : Evidence}

/-! ### Rejections -/

/-- A row that loading rejects. -/
def Refused (table : IntentTable evidence) (key : String) : Prop :=
  ∃ row, table.lookup key = some row ∧ (row.state = .rejected ∨
    row.state = .pending ∧ ∃ record, Holds key row record ∧ record.context = none)

/-- A waiter of the key is told of a rejection. -/
def Published (intents : LaunchIntents evidence) (key : String) : Prop :=
  ∃ entry, intents.entries.lookup key = some entry ∧ entry.status.isRejected = true

/-- Rejected in the table and, if there is an entry, in memory. -/
structure Rejected (intents : LaunchIntents evidence) (key : String) : Prop where
  row : Refused intents.table key
  entry : ∀ entry, intents.entries.lookup key = some entry → entry.status.isRejected = true

/-- The rejections in memory are those of the table. -/
def Recorded (intents : LaunchIntents evidence) : Prop :=
  Consistent intents ∧ ∀ key, Published intents key → Refused intents.table key

/-- A rejection that is not written concerns a row that loading rejects, and an accepted launch
is not abandoned after it has been rejected. -/
def Safe : IntentAction evidence → LaunchIntents evidence → Prop
  | .settle false key (.error _), intents => ∀ entry,
    intents.entries.lookup key = some entry → entry.status.isPreparing = true →
      Refused intents.table key
  | .abandon key, intents => ∀ entry, intents.entries.lookup key = some entry →
    entry.accepted = true → entry.status.isRejected = false
  | _, _ => True

variable {key : String} {intents : LaunchIntents evidence}

theorem Published.rejected (published : Published intents key) (recorded : Recorded intents) :
    Rejected intents key := by
  refine ⟨recorded.2 key published, fun entry known => ?_⟩
  obtain ⟨other, there, rejected⟩ := published
  obtain rfl := Option.some.inj (known.symm.trans there)
  exact rejected

/-- What an operation keeps: rejections, and that those in memory are in the table. -/
def Keeps (before after : LaunchIntents evidence) : Prop :=
  (Recorded before → ∀ key, Published after key → Refused after.table key) ∧
    ∀ key, Rejected before key → Rejected after key

theorem Keeps.refl (intents : LaunchIntents evidence) : Keeps intents intents :=
  ⟨fun recorded => recorded.2, fun _ rejected => rejected⟩

variable {after : IntentTable evidence}

/-- Rejected rows stay so where their payload stays and where their state stays or becomes
rejected. -/
theorem Refused.of_rows {before : IntentTable evidence}
    (kept : ∀ row, before.lookup key = some row → ∃ next, after.lookup key = some next ∧
      next.payload = row.payload ∧ (next.state = row.state ∨ next.state = .rejected))
    (refused : Refused before key) : Refused after key := by
  obtain ⟨row, present, state⟩ := refused
  obtain ⟨next, there, payload, same | rejected⟩ := kept row present
  · refine ⟨next, there, state.imp (same.trans ·) fun pending => ?_⟩
    obtain ⟨pending, record, holds, context⟩ := pending
    exact ⟨same.trans pending, record, by rw [Holds, payload]; exact holds, context⟩
  · exact ⟨next, there, .inl rejected⟩

theorem Refused.insert {table : IntentTable evidence} {key other : String}
    {row after : IntentRow evidence} (refused : Refused table key)
    (present : table.lookup other = some row) (payload : after.payload = row.payload)
    (state : after.state = row.state ∨ after.state = .rejected) :
    Refused (table.insert other after) key := by
  refine refused.of_rows fun found there => ?_
  by_cases same : key = other
  · subst same
    obtain rfl := Option.some.inj (present.symm.trans there)
    exact ⟨after, lookup_insert _, payload, state⟩
  · exact ⟨found, by rw [lookup_insert_ne same]; exact there, rfl, .inl rfl⟩

variable {table : IntentTable evidence} {entry : IntentEntry evidence}

/-- A row that loading rejects is rejected by loading, or it cannot be loaded. -/
theorem Loaded.of_refused (loaded : Loaded key table (.ok (some entry), after))
    (refused : Refused table key) : entry.status.isRejected = true := by
  obtain ⟨other, there, state⟩ := refused
  cases loaded with
  | refused => rfl
  | @found row record status present holds stands =>
    obtain rfl := Option.some.inj (present.symm.trans there)
    cases stands with
    | rejected => rfl
    | preparing pending context =>
      rcases state with rejected | ⟨_, record', holds', none⟩
      · rw [pending] at rejected
        cases rejected
      · obtain rfl := holds.unique holds'
        rw [none] at context
        cases context
    | _ authorized =>
      rcases state with rejected | ⟨pending, _⟩
      · rw [rejected] at authorized
        cases authorized
      · rw [pending] at authorized
        cases authorized

/-- What loading rejects is in the table. -/
theorem Loaded.refused_of_rejected (loaded : Loaded key table (.ok (some entry), after))
    (rejected : entry.status.isRejected = true) : Refused after key := by
  cases loaded with
  | refused error present =>
    exact ⟨_, lookup_insert _, .inl rfl⟩
  | @found row record status present holds stands =>
    cases stands with
    | rejected state => exact ⟨row, present, .inl state⟩
    | _ => cases rejected

variable {other : String}

theorem Loaded.refused_stays
    {result : Except LaunchError (Option (IntentEntry evidence)) × IntentTable evidence}
    (loaded : Loaded key table result) (refused : Refused table other) :
    Refused result.2 other := by
  cases loaded with
  | failed | absent | found => exact refused
  | refused error present => exact refused.insert present rfl (.inr rfl)

variable {row : IntentRow evidence}

/-- A row that has a settlement is not rejected by loading. -/
theorem Loaded.of_settled (loaded : Loaded key table (.ok (some entry), after))
    (there : table.lookup key = some row) (settled : row.settlement.isSome = true) :
    entry.status.isRejected = false := by
  cases loaded with
  | refused error present holds pending context unsettled =>
    obtain rfl := Option.some.inj (present.symm.trans there)
    rw [settled] at unsettled
    cases unsettled
  | found present holds stands authorized =>
    obtain rfl := Option.some.inj (present.symm.trans there)
    cases stands with
    | rejected state =>
      have authorized := authorized settled
      rw [state] at authorized
      cases authorized
    | _ => rfl

/-! ### What each operation keeps -/

/-- A change of the table alone. -/
theorem Keeps.of_table (kept : ∀ key, Refused intents.table key → Refused table key) :
    Keeps intents { intents with table } :=
  ⟨fun recorded key published => kept key (recorded.2 key published),
    fun key rejected => ⟨kept key rejected.row, rejected.entry⟩⟩

/-- A change of one key alone. -/
theorem Keeps.at_key {before after : LaunchIntents evidence} (key : String)
    (entries : ∀ other, other ≠ key → after.entries.lookup other = before.entries.lookup other)
    (rows : ∀ other, Refused before.table other → other ≠ key → Refused after.table other)
    (published : Recorded before → Published after key → Refused after.table key)
    (rejected : Rejected before key → Rejected after key) : Keeps before after := by
  refine ⟨fun recorded other publishedAfter => ?_, fun other rejectedBefore => ?_⟩
  · by_cases same : other = key
    · subst same
      exact published recorded publishedAfter
    · refine rows other (recorded.2 other ?_) same
      obtain ⟨entry, known, status⟩ := publishedAfter
      exact ⟨entry, (entries other same).symm.trans known, status⟩
  · by_cases same : other = key
    · subst same
      exact rejected rejectedBefore
    · refine ⟨rows other rejectedBefore.row same, fun entry known => ?_⟩
      exact rejectedBefore.entry entry ((entries other same).symm.trans known)

theorem Refused.insert_ne (refused : Refused table other) (different : other ≠ key) :
    Refused (table.insert key row) other := by
  obtain ⟨found, there, state⟩ := refused
  exact ⟨found, by rw [lookup_insert_ne different]; exact there, state⟩

/-- An entry that is not rejected takes the place of one that is not. -/
theorem Keeps.of_entry {after : IntentEntry evidence}
    (known : intents.entries.lookup key = some entry) (active : entry.status.isRejected = false)
    (activeAfter : after.status.isRejected = false)
    (rows : ∀ other, Refused intents.table other → other ≠ key → Refused table other) :
    Keeps intents { intents with entries := intents.entries.insert key after, table } := by
  refine .at_key key (fun other different => lookup_insert_ne different) rows
    (fun _ published => ?_) fun rejected => ?_
  · obtain ⟨found, there, status⟩ := published
    rw [lookup_insert] at there
    obtain rfl := Option.some.inj there
    rw [activeAfter] at status
    cases status
  · have status := rejected.entry entry known
    rw [active] at status
    cases status

theorem isRejected_of_isPreparing {status : LaunchIntentStatus evidence}
    (preparing : status.isPreparing = true) : status.isRejected = false := by
  cases status with
  | preparing => rfl
  | _ => cases preparing

namespace LaunchIntents

theorem Entered.keeps
    {result : Except LaunchError (Option (IntentEntry evidence)) × LaunchIntents evidence}
    (entered : Entered key intents result) : Keeps intents result.2 := by
  cases entered with
  | known | failed | absent => exact .refl intents
  | @loaded entry table unknown loaded =>
    refine .at_key key (fun other different => lookup_insert_ne different)
      (fun other refused _ => loaded.refused_stays refused)
      (fun _ published => ?_) fun rejected => ⟨loaded.refused_stays rejected.row, ?_⟩
    · obtain ⟨found, there, status⟩ := published
      rw [lookup_insert] at there
      obtain rfl := Option.some.inj there
      exact loaded.refused_of_rejected status
    · intro found there
      rw [lookup_insert] at there
      obtain rfl := Option.some.inj there
      exact loaded.of_refused rejected.row

theorem Changes.keeps {action : IntentAction evidence} {after : LaunchIntents evidence}
    (changes : Changes intents action after) (safe : Safe action intents) :
    Keeps intents after := by
  cases changes with
  | nothing => exact .refl intents
  | entered entered => exact entered.keeps
  | @inserted _ key _ _ missing =>
    refine .at_key key (fun other different => lookup_insert_ne different)
      (fun other refused different => refused.insert_ne different)
      (fun _ published => ?_) fun rejected => ?_
    · obtain ⟨found, there, status⟩ := published
      rw [lookup_insert] at there
      obtain rfl := Option.some.inj there
      cases status
    · obtain ⟨row, present, _⟩ := rejected.row
      rw [missing] at present
      cases present
  | claimed known preparing =>
    have active := isRejected_of_isPreparing preparing
    exact .of_entry known active active fun _ refused _ => refused
  | accepted accepts =>
    rw [accepts.result]
    have active := isRejected_of_isPreparing accepts.preparing
    exact .of_entry accepts.known active active fun _ refused different =>
      refused.insert_ne different
  | @settled write key _ entry _ known preparing settles =>
    have active := isRejected_of_isPreparing preparing
    have unrejected : ¬Rejected intents key := by
      intro rejected
      have status := rejected.entry entry known
      rw [active] at status
      cases status
    cases settles with
    | accepted session => exact .of_entry known active rfl fun _ refused _ => refused
    | unwritten error published failed =>
      refine .at_key key (fun other different => lookup_insert_ne different)
        (fun _ refused _ => refused) (fun recorded _ => ?_) fun rejected =>
          absurd rejected unrejected
      rcases failed with unwritten | missing
      · subst unwritten
        exact safe entry known preparing
      · obtain ⟨row, present, _⟩ := recorded.1 key entry known
        rw [missing] at present
        cases present
    | written error present =>
      exact .at_key key (fun other different => lookup_insert_ne different)
        (fun _ refused different => refused.insert_ne different)
        (fun _ _ => ⟨_, lookup_insert _, .inl rfl⟩) fun rejected =>
          absurd rejected unrejected
  | @abandoned key entry known accepted =>
    exact .of_entry known (safe entry known accepted) rfl fun _ refused _ => refused
  | loaded loaded => exact .of_table fun _ refused => loaded.refused_stays refused
  | rows same =>
    refine .of_table fun key refused => refused.of_rows fun row present => ?_
    obtain ⟨next, there, payload, state⟩ := same key row present
    exact ⟨next, there, payload, .inl state⟩
  | restarted =>
    have unknown : ∀ key entry, (restart intents).entries.lookup key ≠ some entry := by
      intro key entry known
      rw [restart, lookup_empty] at known
      cases known
    refine ⟨fun _ key published => ?_, fun key rejected => ⟨rejected.row, fun entry known => ?_⟩⟩
    · obtain ⟨entry, known, _⟩ := published
      exact absurd known (unknown key entry)
    · exact absurd known (unknown key entry)

end LaunchIntents

/-! ### Histories -/

/-- A status or a waiter tells that a key is rejected. -/
def TellsRejected (moment : IntentMoment evidence) (key : String) : Prop :=
  (∃ access error, moment.action = .snapshot access key ∧
    moment.outcome = .told (.ok (some (.rejected error)))) ∨ Published moment.after key

/-- A status other than rejected is told of a key, the key is claimed, or a scan counts it among
the interrupted launches. -/
def Revives (moment : IntentMoment evidence) (key : String) : Prop :=
  (∃ access status, moment.action = .snapshot access key ∧
    moment.outcome = .told (.ok (some status)) ∧ status.isRejected = false) ∨
  ClaimsKey moment key ∨
  ∃ records record, moment.outcome = .interrupted (.ok records) ∧ record ∈ records ∧
    record.request.intentKey = some key

section Moments

variable {moment : IntentMoment evidence}
  (performed : LaunchIntents.perform moment.action moment.before = (moment.after, moment.outcome))

include performed

section

variable (safe : Safe moment.action moment.before)

include safe

theorem moment_keeps : Keeps moment.before moment.after := by
  have keeps := (perform_changes moment.action moment.before).keeps safe
  rw [performed] at keeps
  exact keeps

theorem moment_recorded (recorded : Recorded moment.before) : Recorded moment.after :=
  ⟨moment_consistent performed recorded.1, (moment_keeps performed safe).1 recorded⟩

/-- What is told is so. -/
theorem tellsRejected_rejected (recorded : Recorded moment.before)
    (tells : TellsRejected moment key) : Rejected moment.after key := by
  have recordedAfter := moment_recorded performed safe recorded
  rcases tells with ⟨access, error, action, outcome⟩ | published
  case inr => exact published.rejected recordedAfter
  rw [action, outcome, perform_snapshot] at performed
  obtain ⟨after, told⟩ := Prod.mk.inj performed
  have told := IntentOutcome.told.inj told
  rcases snapshot_cases access key moment.before with
    ⟨error, failed⟩ | ⟨entry, known, read⟩ | ⟨result, loaded, decided, read⟩
  · rw [failed] at told
    cases told
  · rw [read] at told after
    refine Published.rejected ⟨entry, ?_, ?_⟩ recordedAfter
    · rw [← after]
      exact known
    · rw [Option.some.inj (Except.ok.inj told)]
      rfl
  · rw [read] at told after
    obtain ⟨result, table⟩ := result
    rcases result with error | _ | entry
    · cases told
    · cases told
    · have same : entry.status = .rejected error := Option.some.inj (Except.ok.inj told)
      have status : entry.status.isRejected = true := by
        rw [same]
        rfl
      rw [← after]
      refine ⟨loaded.refused_of_rejected status, fun other known => ?_⟩
      -- The row of an entry that is asked for has a settlement, so it is not rejected.
      obtain ⟨_, row, present, settled⟩ := decided other known
      rw [loaded.of_settled present settled] at status
      cases status

end

/-- What is rejected is not revived. -/
theorem revives_unrejected (revives : Revives moment key) : ¬Rejected moment.before key := by
  intro rejected
  rcases revives with ⟨access, status, action, outcome, active⟩ | claims | interrupted
  · rw [action, outcome, perform_snapshot] at performed
    have told := IntentOutcome.told.inj (Prod.mk.inj performed).2
    rcases snapshot_cases access key moment.before with
      ⟨error, failed⟩ | ⟨entry, known, read⟩ | ⟨result, loaded, _, read⟩
    · rw [failed] at told
      cases told
    · rw [read] at told
      have status := rejected.entry entry known
      rw [Option.some.inj (Except.ok.inj told), active] at status
      cases status
    · rw [read] at told
      obtain ⟨result, table⟩ := result
      rcases result with error | _ | entry
      · cases told
      · cases told
      · have same : entry.status = status := Option.some.inj (Except.ok.inj told)
        have rejectedStatus := loaded.of_refused rejected.row
        rw [same, active] at rejectedStatus
        cases rejectedStatus
  · obtain ⟨sessionId, action, outcome⟩ := claims
    rw [action, outcome, perform_claim] at performed
    rcases claim_cases key moment.before with
      ⟨_, none⟩ | ⟨entry, known, _, preparing, _⟩
    · exact none sessionId (IntentOutcome.claimed.inj (Prod.mk.inj performed).2)
    · have status := rejected.entry entry known
      rw [isRejected_of_isPreparing preparing] at status
      cases status
  · obtain ⟨records, record, outcome, member, ofKey⟩ := interrupted
    obtain ⟨row, present, unresolved, _⟩ := row_of_interrupted performed outcome member ofKey
    obtain ⟨found, there, state⟩ := rejected.row
    obtain rfl := Option.some.inj (present.symm.trans there)
    rw [IntentRow.unresolved, Bool.and_eq_true] at unresolved
    rcases state with rejectedState | ⟨pending, _⟩
    · rw [rejectedState] at unresolved
      cases unresolved.1
    · rw [pending] at unresolved
      cases unresolved.1

end Moments

/-- In a history whose steps are safe, a key that has been told to be rejected stays so. -/
theorem rejection_stays (capacity : Nat) (table : IntentTable evidence)
    (actions : List (IntentAction evidence))
    (safe : ∀ moment ∈ intentHistory capacity table actions, Safe moment.action moment.before) :
    (intentHistory capacity table actions).Pairwise fun earlier later => ∀ key,
      TellsRejected earlier key → ¬Revives later key := by
  have start : Recorded (LaunchIntents.start capacity table) := by
    have unknown : ∀ key entry,
        (LaunchIntents.start capacity table).entries.lookup key ≠ some entry := by
      intro key entry known
      rw [LaunchIntents.start, lookup_empty] at known
      cases known
    refine ⟨fun key entry known => absurd known (unknown key entry), fun key published => ?_⟩
    obtain ⟨entry, known, _⟩ := published
    exact absurd known (unknown key entry)
  have recorded : ∀ moment ∈ intentHistory capacity table actions, Recorded moment.before :=
    invariant (fun moment inside => moment_recorded (performed inside) (safe moment inside)) start
  have later : (intentHistory capacity table actions).Pairwise fun earlier next =>
      ∀ key, Rejected earlier.after key → Rejected next.before key :=
    pairwise (fun before after => ∀ key, Rejected before key → Rejected after key)
      (fun _ _ rejected => rejected) (fun early late key rejected => late key (early key rejected))
      fun moment inside => (moment_keeps (performed inside) (safe moment inside)).2
  refine later.imp_of_mem fun {earlier next} first second stays key tells revives => ?_
  have rejected := tellsRejected_rejected (performed first) (safe earlier first)
    (recorded earlier first) tells
  exact revives_unrejected (performed second) revives (stays key rejected)

/-! ### A rejection that is not written -/

def allSucceeds : Access plainEvidence := ⟨true, true, true, noReports⟩

def plainRequest : LaunchRequest := { (default : LaunchRequest) with intentKey := some firstKey }

/-- A launch for a benchmark is claimed and rejected; then the launcher starts again. The write
of the rejection may fail. -/
def rejectedLaunch (write : Bool) : List (IntentAction plainEvidence) :=
  [.reserveIdentity allSucceeds ⟨secondKey, validIntentKey_second⟩ plainRequest (some "scenario"),
    .claim firstKey, .settle write firstKey (.error .accountUnavailable),
    .snapshot allSucceeds firstKey, .restart, .snapshot allSucceeds firstKey]

def rejectedHistory (write : Bool) : List (IntentMoment plainEvidence) :=
  intentHistory 1 ∅ (rejectedLaunch write)

/-- Where the write succeeds, the rejection stays. -/
theorem rejection_stays_written :
    (rejectedHistory true).Pairwise fun earlier later => ∀ key,
      TellsRejected earlier key → ¬Revives later key := by
  refine rejection_stays 1 ∅ (rejectedLaunch true) fun moment member => ?_
  have performs : moment.action ∈ rejectedLaunch true := by
    have action := List.mem_map_of_mem (f := (·.action)) member
    rwa [intentHistory, map_action] at action
  generalize moment.action = action at performs
  simp only [rejectedLaunch, List.mem_cons, List.not_mem_nil, or_false] at performs
  rcases performs with rfl | rfl | rfl | rfl | rfl | rfl <;> trivial

/-- Whether the status that a moment tells is rejected, and whether it is preparing. -/
def toldStatus (moment : IntentMoment plainEvidence) : Option (Bool × Bool) :=
  match moment.outcome with
  | .told (.ok (some status)) => some (status.isRejected, status.isPreparing)
  | _ => none

theorem toldStatus_eq_some {moment : IntentMoment plainEvidence} {rejected preparing : Bool}
    (told : toldStatus moment = some (rejected, preparing)) :
    ∃ status, moment.outcome = .told (.ok (some status)) ∧ status.isRejected = rejected := by
  unfold toldStatus at told
  split at told
  · rename_i status outcome
    exact ⟨status, outcome, congrArg (·.1) (Option.some.inj told)⟩
  · cases told

/-- The look before the restart, and that after it. -/
def firstLook : Fin (rejectedHistory false).length := ⟨3, Nat.lt_of_sub_eq_succ rfl⟩

def lastLook : Fin (rejectedHistory false).length := ⟨5, Nat.lt_of_sub_eq_succ rfl⟩

/-- Where the write fails, a rejection that has been told is followed by a launch that is
preparing. -/
theorem unwritten_rejection_revives :
    ¬(rejectedHistory false).Pairwise fun earlier later => ∀ key,
      TellsRejected earlier key → ¬Revives later key := by
  intro stays
  have early : toldStatus ((rejectedHistory false).get firstLook) = some (true, false) := by
    decide
  have late : toldStatus ((rejectedHistory false).get lastLook) = some (false, true) := by
    decide
  obtain ⟨first, firstOutcome, rejected⟩ := toldStatus_eq_some early
  obtain ⟨last, lastOutcome, active⟩ := toldStatus_eq_some late
  refine List.pairwise_iff_get.mp stays firstLook lastLook (by decide) firstKey
    (.inl ⟨allSucceeds, ?_⟩) (.inl ⟨allSucceeds, last, rfl, lastOutcome, active⟩)
  cases first with
  | rejected error => exact ⟨error, rfl, firstOutcome⟩
  | _ => cases rejected

end Axial.Launch
