/-
This file models how the setup of an instance is queued,
`enqueue_setup_with_placement` in `install/queue.rs`: the content of the setup and,
where the version is not ready, the install of the version before it. Both are
admitted under one lock, but each in a transaction of its own, so the second can be
refused when the first is already there. The recovery of a content that waits for
its settlement comes after the lock, and may refuse the call too. What it settles,
and what `resume_queued` starts, are steps of the queue of their own.
-/

import Axial.Install.Order

namespace Axial.Install

open Fallible InstallQueue

/-! ### The call -/

/-- What one of the two admissions meets: what the registry answers it, the clock, whether the owner
is closing and whether its transaction commits, and the names for a new entry. -/
structure Attempt where
  id : String
  operationId : String
  libraries : InstallQueue.InstanceLibraries
  now : Int
  closing : Bool
  stored : Bool

/-- A call of `enqueue_setup_with_placement`, with what it finds of the version, what its requests
are resolved to, and what `recover_install` answers it. -/
structure SetupCall where
  request : Request
  prerequisite : Request
  work : SetupWork
  pin : GenerationPin
  front : Bool
  ready : Except InstallError Bool
  target : Request → Except InstallError InstallItem
  first : Attempt
  second : Attempt
  recovery : Except InstallError Unit

namespace Attempt

def admission (attempt : Attempt) (request : Request) (item : InstallItem) (pin : GenerationPin)
    (setup : Option SetupWork) (front : Bool) : InstallQueue.Admission :=
  ⟨attempt.id, attempt.operationId, request, item, pin, setup, front⟩

def admitLocked (attempt : Attempt) (admission : InstallQueue.Admission) (queue : InstallQueue) :
    Except InstallError (InstallQueue × String) :=
  InstallQueue.admitLocked attempt.libraries attempt.now attempt.closing attempt.stored admission
    queue

end Attempt

namespace SetupCall

/-- What is known before the lock is taken: the item of the prerequisite, where it is needed, and
that of the content. -/
def resolved (call : SetupCall) : Except InstallError (Option InstallItem × InstallItem) := do
  if call.request ≠ call.work.request ∨ call.prerequisite ≠ call.work.prerequisite then
    throw .invalidRequest
  let ready ← call.ready
  let prerequisiteItem ← if ready then pure none else some <$> call.target call.prerequisite
  let item ← call.target call.request
  return (prerequisiteItem, item)

def contentAdmission (call : SetupCall) (attempt : Attempt) (item : InstallItem) (front : Bool) :
    InstallQueue.Admission :=
  attempt.admission call.request item call.pin (some call.work) front

def prerequisiteAdmission (call : SetupCall) (attempt : Attempt) (item : InstallItem)
    (front : Bool) : InstallQueue.Admission :=
  attempt.admission call.prerequisite item call.pin none front

/-- The two admissions under the lock: the queue they leave and their answer. -/
def admitSetup (call : SetupCall) (queue : InstallQueue) :
    InstallQueue × Except InstallError String :=
  match call.resolved with
  | .error error => (queue, .error error)
  | .ok (prerequisiteItem, item) =>
    let existingContent := (queue.findPending call.request).isSome
    if call.front then
      match call.first.admitLocked (call.contentAdmission call.first item true) queue with
      | .error error => (queue, .error error)
      | .ok (after, id) =>
        match prerequisiteItem with
        | none => (after, .ok id)
        | some prerequisiteItem =>
          match call.second.admitLocked
            (call.prerequisiteAdmission call.second prerequisiteItem true) after with
          | .error error => (after, .error error)
          | .ok (last, _) => (last, .ok id)
    else
      match prerequisiteItem with
      | none =>
        match call.first.admitLocked (call.contentAdmission call.first item false) queue with
        | .error error => (queue, .error error)
        | .ok (after, id) => (after, .ok id)
      | some prerequisiteItem =>
        match call.first.admitLocked
          (call.prerequisiteAdmission call.first prerequisiteItem existingContent) queue with
        | .error error => (queue, .error error)
        | .ok (after, _) =>
          match call.second.admitLocked (call.contentAdmission call.second item false) after with
          | .error error => (after, .error error)
          | .ok (last, id) => (last, .ok id)

/-- `started.view_model.phase_id == "settlement_required"`, of the install that is answered. -/
def asksForRecovery (queue : InstallQueue) (id : String) : Bool :=
  (queue.entries.lookup id).any fun entry =>
    entry.status.viewModel.phaseId = "settlement_required"

/-- What the call answers after the lock. -/
def answer (call : SetupCall) (queue : InstallQueue) (id : String) : Except InstallError String :=
  if asksForRecovery queue id then call.recovery.map fun _ => id else .ok id

/-- `enqueue_setup_with_placement`: the queue as it is when the lock is released, and the answer. -/
def enqueueSetup (call : SetupCall) (queue : InstallQueue) :
    InstallQueue × Except InstallError String :=
  match call.admitSetup queue with
  | (after, .error error) => (after, .error error)
  | (after, .ok id) => (after, call.answer after id)

/-- The two admissions in their order, where the prerequisite is needed. -/
def admissions (call : SetupCall) (prerequisiteItem item : InstallItem) (queue : InstallQueue) :
    InstallQueue.Admission × InstallQueue.Admission :=
  if call.front then
    (call.contentAdmission call.first item true,
      call.prerequisiteAdmission call.second prerequisiteItem true)
  else
    (call.prerequisiteAdmission call.first prerequisiteItem
        (queue.findPending call.request).isSome,
      call.contentAdmission call.second item false)

end SetupCall

namespace InstallQueue

/-! ### What an admission asks and does -/

/-- What an admission asks of the queue, when an entry with this id was added to it before. -/
def Accepts (attempt : Attempt) (admission : Admission) (added : Option String)
    (queue : InstallQueue) : Prop :=
  admitsContent attempt.libraries admission.pin.libraryId admission.request = .ok () ∧
    queue.closed = false ∧ attempt.closing = false ∧
    match queue.findPending admission.request with
    | some ⟨id, existing⟩ =>
      existing.item = admission.item ∧ existing.pin = some admission.pin ∧
        (admission.front = true → id ∈ queue.queued → attempt.stored = true)
    | none =>
      queue.occupied + added.toList.length < maxInstalls ∧ attempt.stored = true ∧
        queue.rows.lookup admission.id = none ∧ added ≠ some admission.id

/-- The id of the entry that an admission adds. -/
def addedBy (admission : Admission) (queue : InstallQueue) : Option String :=
  if (queue.findPending admission.request).isSome then none else some admission.id

/-- Where the queue ends up after an admission of a request. -/
structure Admits (admission : Admission) (queue after : InstallQueue) (id : String) : Prop where
  active : after.active = queue.active
  closed : after.closed = queue.closed
  found : ∃ entry, after.entries.lookup id = some entry ∧ entry.status.done = false ∧
    entry.request = admission.request
  others : ∀ other, other ≠ id → after.entries.lookup other = queue.entries.lookup other
  otherRows : ∀ other, other ≠ id → after.rows.lookup other = queue.rows.lookup other
  shown : ∀ entry, after.entries.lookup id = some entry → entry.status.viewModel.phaseId =
    match queue.findPending admission.request with
    | some existing => existing.2.status.viewModel.phaseId
    | none => "queued"
  placed : match queue.findPending admission.request with
    | some existing => existing.1 = id ∧
      if admission.front = true ∧ id ∈ queue.queued then
        after.queued = (queue.bringForward id).queued ∧ after.rows = (queue.bringForward id).rows
      else after.queued = queue.queued ∧ after.rows = queue.rows
    | none => id = admission.id ∧ queue.rows.lookup id = none ∧
      after.rows.lookup id ≠ none ∧
      after.queued = if admission.front then id :: queue.queued else queue.queued ++ [id]

variable {queue after : InstallQueue} {id : String} {attempt : Attempt} {admission : Admission}

variable {other : String}

theorem bringForward_others (different : other ≠ id) :
    (queue.bringForward id).rows.lookup other = queue.rows.lookup other := by
  unfold bringForward
  dsimp only
  split
  · exact AList.lookup_insert_ne different
  · rfl

theorem admit_spec
    (admitted : attempt.admitLocked admission queue = .ok (after, id)) :
    queue.Admits admission after id := by
  unfold Attempt.admitLocked admitLocked at admitted
  simp only [guard_eq_ok, bind_eq_ok] at admitted
  obtain ⟨_, _, _, admitted⟩ := admitted
  cases found : queue.findPending admission.request with
  | none =>
    rw [found] at admitted
    unfold admitNew at admitted
    simp only [guard_eq_ok, pure_eq_ok, Prod.mk.injEq] at admitted
    obtain ⟨-, saved, rfl, rfl⟩ := admitted
    have unstored : queue.rows.lookup admission.id = none := by
      rw [not_or] at saved
      exact Option.not_isSome_iff_eq_none.mp saved.2
    refine ⟨rfl, rfl, ⟨admission.entry, AList.lookup_insert _, rfl, rfl⟩, fun other different => ?_,
      fun other different => ?_, fun entry there => ?_, ?_⟩
    · exact AList.lookup_insert_ne different
    · exact AList.lookup_insert_ne different
    · rw [found]
      obtain rfl := Option.some.inj ((AList.lookup_insert _).symm.trans there)
      rfl
    · rw [found]
      refine ⟨rfl, unstored, ?_, rfl⟩
      rw [AList.lookup_insert]
      exact Option.some_ne_none _
  | some pending =>
    obtain ⟨name, existing⟩ := pending
    obtain ⟨there, notDone, request⟩ := findPending_eq_some found
    rw [found] at admitted
    unfold admitExisting at admitted
    simp only [guard_eq_ok, pure_eq_ok, Prod.mk.injEq] at admitted
    obtain ⟨-, -, rfl, rfl⟩ := admitted
    by_cases moved : admission.front = true ∧ name ∈ queue.queued
    · rw [if_pos moved]
      refine ⟨rfl, rfl, ⟨_, AList.lookup_insert _, notDone, request⟩, fun other different => ?_,
        fun other different => bringForward_others different, fun entry there => ?_, ?_⟩
      · exact AList.lookup_insert_ne different
      · rw [found]
        obtain rfl := Option.some.inj ((AList.lookup_insert _).symm.trans there)
        rfl
      · rw [found]
        exact ⟨rfl, by rw [if_pos moved]; exact ⟨rfl, rfl⟩⟩
    · rw [if_neg moved]
      refine ⟨rfl, rfl, ⟨_, AList.lookup_insert _, notDone, request⟩, fun other different => ?_,
        fun other different => rfl, fun entry there => ?_, ?_⟩
      · exact AList.lookup_insert_ne different
      · rw [found]
        obtain rfl := Option.some.inj ((AList.lookup_insert _).symm.trans there)
        rfl
      · rw [found]
        exact ⟨rfl, by rw [if_neg moved]; exact ⟨rfl, rfl⟩⟩

/-- An admission goes through exactly when it is accepted. -/
theorem admit_ok_iff :
    (∃ result, attempt.admitLocked admission queue = .ok result) ↔
      queue.Accepts attempt admission none := by
  unfold Attempt.admitLocked admitLocked Accepts
  simp only [guard_eq_ok, bind_eq_ok]
  cases found : queue.findPending admission.request with
  | none =>
    unfold admitNew
    simp only [guard_eq_ok, pure_eq_ok]
    constructor
    · rintro ⟨_, ⟨⟩, content, shut, room, saved, -⟩
      rw [not_or, Bool.not_eq_true, Bool.not_eq_true] at shut
      rw [not_or, Bool.not_eq_false, Option.not_isSome_iff_eq_none] at saved
      exact ⟨content, shut.1, shut.2, Nat.lt_of_not_le room, saved.1, saved.2,
        (Option.some_ne_none _).symm⟩
    · rintro ⟨content, notClosed, notClosing, room, stored, unstored, -⟩
      refine ⟨_, ⟨⟩, content, ?_, Nat.not_le_of_lt room, ?_, rfl⟩
      · rw [notClosed, notClosing]
        exact fun either => Bool.false_ne_true (or_self_iff.mp either)
      · rw [stored, unstored]
        simp
  | some pending =>
    obtain ⟨name, existing⟩ := pending
    unfold admitExisting
    simp only [guard_eq_ok, pure_eq_ok]
    constructor
    · rintro ⟨_, ⟨⟩, content, shut, same, saved, -⟩
      rw [not_or, Bool.not_eq_true, Bool.not_eq_true] at shut
      rw [not_or, not_not, not_not] at same
      refine ⟨content, shut.1, shut.2, same.1, same.2, fun front waits => ?_⟩
      by_contra unstored
      exact saved ⟨front, waits, Bool.not_eq_true _ ▸ unstored⟩
    · rintro ⟨content, notClosed, notClosing, item, pin, saved⟩
      refine ⟨_, ⟨⟩, content, ?_, ?_, ?_, rfl⟩
      · rw [notClosed, notClosing]
        exact fun either => Bool.false_ne_true (or_self_iff.mp either)
      · rw [item, pin]
        simp
      · rintro ⟨front, waits, unstored⟩
        rw [saved front waits] at unstored
        cases unstored

/-! ### The second admission -/

variable {request : Request} {entry : Entry}

/-- The pending entry of a request, where each request has one at most. -/
theorem findPending_eq_some_iff (coherent : queue.Coherent) :
    queue.findPending request = some ⟨id, entry⟩ ↔
      queue.entries.lookup id = some entry ∧ entry.status.done = false ∧
        entry.request = request := by
  refine ⟨findPending_eq_some, fun ⟨found, notDone, same⟩ => ?_⟩
  cases pending : queue.findPending request with
  | none => exact absurd same (findPending_eq_none pending found notDone)
  | some other =>
    obtain ⟨name, existing⟩ := other
    obtain ⟨there, alsoNot, alike⟩ := findPending_eq_some pending
    obtain rfl := coherent.requests found there notDone alsoNot (same.trans alike.symm)
    rw [found, Option.some_inj] at there
    rw [there]

/-- An admission adds an entry for its request, or finds the one that is pending. -/
inductive Placed (admission : Admission) (queue after : InstallQueue) (id : String) : Prop
  | anew (unknown : queue.findPending admission.request = none) (named : id = admission.id)
      (unstored : queue.rows.lookup id = none)
      (queued : after.queued = if admission.front then id :: queue.queued else queue.queued ++ [id])
  | again {before : Entry} (pending : queue.findPending admission.request = some ⟨id, before⟩)
      (there : queue.entries.lookup id = some before) (notDone : before.status.done = false)
      (requested : before.request = admission.request)
      (moved : if admission.front = true ∧ id ∈ queue.queued then
          after.queued = (queue.bringForward id).queued ∧ after.rows = (queue.bringForward id).rows
        else after.queued = queue.queued ∧ after.rows = queue.rows)

theorem Admits.cases (admits : queue.Admits admission after id) :
    Placed admission queue after id := by
  have placed := admits.placed
  cases pending : queue.findPending admission.request with
  | none =>
    rw [pending] at placed
    exact .anew pending placed.1 placed.2.1 placed.2.2.2
  | some existing =>
    rw [pending] at placed
    obtain ⟨name, before⟩ := existing
    obtain ⟨rfl, moved⟩ := placed
    obtain ⟨there, notDone, requested⟩ := findPending_eq_some pending
    exact .again pending there notDone requested moved

/-- An admission leaves the pending entries of other requests alone. -/
theorem Admits.findPending (coherent : queue.Coherent) (coherentAfter : after.Coherent)
    (admits : queue.Admits admission after id) (different : request ≠ admission.request) :
    after.findPending request = queue.findPending request := by
  refine Option.ext fun ⟨name, entry⟩ => ?_
  rw [findPending_eq_some_iff coherent, findPending_eq_some_iff coherentAfter]
  by_cases same : name = id
  · obtain ⟨admitted, there, -, requested⟩ := admits.found
    have notAfter : ¬(after.entries.lookup name = some entry ∧ entry.status.done = false ∧
        entry.request = request) := by
      rintro ⟨found, -, alike⟩
      rw [same, there, Option.some_inj] at found
      exact different (alike.symm.trans (found ▸ requested))
    have notBefore : ¬(queue.entries.lookup name = some entry ∧ entry.status.done = false ∧
        entry.request = request) := by
      rintro ⟨found, -, alike⟩
      rw [same] at found
      cases admits.cases with
      | anew _ _ unstored =>
        rw [coherent.unknown unstored] at found
        cases found
      | again _ before _ requestedBefore =>
        rw [found, Option.some_inj] at before
        exact different (alike.symm.trans (before ▸ requestedBefore))
    exact iff_of_false notAfter notBefore
  · rw [admits.others name same]

theorem admit_coherent (coherent : queue.Coherent)
    (admitted : attempt.admitLocked admission queue = .ok (after, id)) : after.Coherent := by
  have changes : ∃ id, Changes ⟨True, False, True⟩ queue id after :=
    admitLocked_changes coherent (fun keys => keys.elim) admitted
  obtain ⟨_, changes⟩ := changes
  exact coherent.changes changes

variable {queued : List String}

theorem length_moved {id : String} (distinct : queued.Nodup) (waits : id ∈ queued) :
    (id :: queued.filter fun other => other ≠ id).length = queued.length := by
  have erased : queued.filter (fun other => other ≠ id) = queued.erase id := by
    rw [distinct.erase_eq_filter]
    refine List.filter_congr fun other _ => ?_
    simp [bne, beq_eq_decide]
  rw [erased, List.length_cons, List.length_erase_of_mem waits]
  have some := List.length_pos_of_mem waits
  omega

theorem Admits.occupied (coherent : queue.Coherent) (admits : queue.Admits admission after id) :
    after.occupied = queue.occupied + (queue.addedBy admission).toList.length := by
  unfold InstallQueue.occupied addedBy
  rw [admits.active]
  cases admits.cases with
  | anew unknown _ _ queued =>
    rw [unknown, queued, Option.isSome_none, if_neg Bool.false_ne_true]
    split <;> simp <;> omega
  | again pending _ _ _ moved =>
    rw [pending, Option.isSome_some, if_pos rfl]
    split at moved
    · rename_i front
      have length := length_moved coherent.distinct front.2
      rw [moved.1]
      show (id :: queue.queued.filter fun other => other ≠ id).length + _ = _
      rw [length]
      rfl
    · rw [moved.1]
      rfl

variable {name : String}

theorem Admits.mem_queued (admits : queue.Admits admission after id) (different : name ≠ id) :
    name ∈ after.queued ↔ name ∈ queue.queued := by
  cases admits.cases with
  | anew _ _ _ queued =>
    rw [queued]
    split <;> simp [different]
  | again _ _ _ _ moved =>
    split at moved
    · rw [moved.1]
      show name ∈ id :: queue.queued.filter (fun other => other ≠ id) ↔ _
      simp [different]
    · rw [moved.1]

theorem Admits.rows_eq_none (coherent : queue.Coherent) (coherentAfter : after.Coherent)
    (admits : queue.Admits admission after id) (name : String) :
    after.rows.lookup name = none ↔
      queue.rows.lookup name = none ∧ queue.addedBy admission ≠ some name := by
  obtain ⟨admitted, there, -⟩ := admits.found
  have storedAfter : after.rows.lookup id ≠ none := by
    intro unstored
    rw [coherentAfter.unknown unstored] at there
    cases there
  unfold addedBy
  cases admits.cases with
  | anew unknown named =>
    rw [unknown, Option.isSome_none, if_neg Bool.false_ne_true, ← named]
    by_cases same : name = id
    · rw [same]
      exact iff_of_false storedAfter fun both => both.2 rfl
    · rw [admits.otherRows name same]
      exact ⟨fun unstored => ⟨unstored, fun equal => same (Option.some.inj equal).symm⟩, And.left⟩
  | again pending before =>
    rw [pending, Option.isSome_some, if_pos rfl]
    by_cases same : name = id
    · rw [same]
      refine iff_of_false storedAfter fun ⟨unstored, _⟩ => ?_
      rw [coherent.unknown unstored] at before
      cases before
    · rw [admits.otherRows name same]
      exact ⟨fun unstored => ⟨unstored, nofun⟩, And.left⟩

/-- The second admission is accepted by the queue after the first exactly when the queue before
accepts it beside the first one's new entry. -/
theorem Admits.accepts_iff (coherent : queue.Coherent) (coherentAfter : after.Coherent)
    (admits : queue.Admits admission after id) {other : Admission} {next : Attempt}
    (different : other.request ≠ admission.request) :
    after.Accepts next other none ↔ queue.Accepts next other (queue.addedBy admission) := by
  unfold Accepts
  rw [admits.findPending coherent coherentAfter different, admits.closed,
    admits.occupied coherent]
  refine and_congr_right fun _ => and_congr_right fun _ => and_congr_right fun _ => ?_
  cases pending : queue.findPending other.request with
  | none =>
    dsimp only
    rw [admits.rows_eq_none coherent coherentAfter]
    simp
  | some existing =>
    obtain ⟨name, entry⟩ := existing
    obtain ⟨found, -, requested⟩ := findPending_eq_some
      ((admits.findPending coherent coherentAfter different).trans pending)
    obtain ⟨admitted, there, -, alike⟩ := admits.found
    have apart : name ≠ id := by
      rintro rfl
      rw [found, Option.some_inj] at there
      exact different (requested.symm.trans (there ▸ alike))
    dsimp only
    rw [admits.mem_queued apart]

/-! ### Entries that stay -/

/-- Neither the queue nor its table has gained, lost or moved an entry. -/
structure SameEntries (queue after : InstallQueue) : Prop where
  queued : after.queued = queue.queued
  active : after.active = queue.active
  entries : ∀ id, after.entries.lookup id = none ↔ queue.entries.lookup id = none
  rows : ∀ id, after.rows.lookup id = none ↔ queue.rows.lookup id = none
  order : ∀ first ∈ queue.queued, ∀ second ∈ queue.queued,
    after.Earlier first second ↔ queue.Earlier first second

theorem SameEntries.refl (queue : InstallQueue) : queue.SameEntries queue :=
  ⟨rfl, rfl, fun _ => Iff.rfl, fun _ => Iff.rfl, fun _ _ _ _ => Iff.rfl⟩

/-- An admission adds an entry, or moves one that is not the first of the queue and the table yet. -/
def Disturbs (admission : Admission) (queue : InstallQueue) : Prop :=
  match queue.findPending admission.request with
  | none => True
  | some existing => admission.front = true ∧ existing.1 ∈ queue.queued ∧
    (queue.queued.head? ≠ some existing.1 ∨
      ∃ other ∈ queue.queued, other ≠ existing.1 ∧ ¬queue.Earlier existing.1 other)

theorem Earlier.asymm {first second : String} (earlier : queue.Earlier first second) :
    ¬queue.Earlier second first := by
  rintro ⟨right, left, keyRight, keyLeft, above⟩
  obtain ⟨left', right', keyLeft', keyRight', below⟩ := earlier
  rw [keyLeft, Option.some_inj] at keyLeft'
  rw [keyRight, Option.some_inj] at keyRight'
  exact (keyLeft' ▸ keyRight' ▸ below).asymm above

theorem bringForward_earlier (coherent : queue.Coherent) (waits : id ∈ queue.queued)
    (member : other ∈ queue.queued) (different : other ≠ id) :
    (queue.bringForward id).Earlier id other := by
  obtain ⟨_, row, _, stored, _, phase, _⟩ := coherent.of_queued waits
  obtain ⟨_, rowOther, _, storedOther, _, phaseOther, _⟩ := coherent.of_queued member
  obtain ⟨least, minimal⟩ : ∃ least, queue.minAccepted = some least :=
    Option.isSome_iff_exists.mp (List.isSome_min?_of_mem
      (List.mem_map_of_mem (mem_queuedRows.mpr ⟨stored, phase⟩)))
  have smallest := minAccepted_le minimal storedOther phaseOther
  unfold bringForward
  simp only [stored, minimal]
  refine ⟨Row.key { row with acceptedAt := least - 1 }, rowOther.key, ?_, ?_, ?_⟩
  · unfold keyOf
    rw [AList.lookup_insert]
    rfl
  · unfold keyOf
    rw [AList.lookup_insert_ne different, storedOther]
    rfl
  · refine Prod.Lex.toLex_lt_toLex.mpr (.inl ?_)
    show least - 1 < rowOther.acceptedAt
    omega

theorem earlier_congr {first second : String}
    (left : after.rows.lookup first = queue.rows.lookup first)
    (right : after.rows.lookup second = queue.rows.lookup second) :
    after.Earlier first second ↔ queue.Earlier first second := by
  unfold Earlier keyOf
  rw [left, right]

theorem moved_eq_iff (distinct : queued.Nodup) :
    (id :: queued.filter fun other => other ≠ id) = queued ↔ queued.head? = some id := by
  constructor
  · intro same
    rw [← same]
    rfl
  · intro head
    obtain ⟨rest, rfl⟩ := List.head?_eq_some_iff.mp head
    have fresh := (List.nodup_cons.mp distinct).1
    rw [List.filter_cons_of_neg (by simp), List.filter_eq_self.mpr]
    intro other member
    refine decide_eq_true ?_
    rintro rfl
    exact fresh member

section

variable (coherent : queue.Coherent)

include coherent

/-- An admission that goes through keeps the entries exactly when it disturbs none. -/
theorem Admits.sameEntries_iff (coherentAfter : after.Coherent)
    (admits : queue.Admits admission after id) :
    queue.SameEntries after ↔ ¬queue.Disturbs admission := by
  have occupied := admits.occupied coherent
  have rows := admits.rows_eq_none coherent coherentAfter
  unfold Disturbs
  unfold addedBy at occupied rows
  cases admits.cases with
  | anew unknown =>
    rw [unknown] at occupied ⊢
    refine iff_of_false (fun same => ?_) fun not => not trivial
    unfold InstallQueue.occupied at occupied
    rw [same.queued, same.active] at occupied
    simp at occupied
  | again pending before _ _ placed =>
    rw [pending] at rows ⊢
    dsimp only
    obtain ⟨admitted, there, -⟩ := admits.found
    have entries (name : String) :
        after.entries.lookup name = none ↔ queue.entries.lookup name = none := by
      by_cases same : name = id
      · rw [same, before, there]
        simp
      · rw [admits.others name same]
    have rowsSame (name : String) :
        after.rows.lookup name = none ↔ queue.rows.lookup name = none := by
      rw [rows]
      simp
    by_cases moved : admission.front = true ∧ id ∈ queue.queued
    · rw [if_pos moved] at placed
      have queuedAfter : after.queued = id :: queue.queued.filter fun other => other ≠ id :=
        placed.1
      have rowsAfter := placed.2
      have firstNow (other : String) (member : other ∈ queue.queued) (different : other ≠ id) :
          after.Earlier id other :=
        (earlier_congr (by rw [rowsAfter]) (by rw [rowsAfter])).mpr
          (bringForward_earlier coherent moved.2 member different)
      constructor
      · rintro same ⟨-, -, notFirst | ⟨other, member, different, notEarlier⟩⟩
        · exact notFirst ((moved_eq_iff coherent.distinct).mp (queuedAfter.symm.trans same.queued))
        · exact notEarlier ((same.order id moved.2 other member).mp
            (firstNow other member different))
      · intro still
        have head : queue.queued.head? = some id := by
          by_contra other
          exact still ⟨moved.1, moved.2, .inl other⟩
        have first (other : String) (member : other ∈ queue.queued) (different : other ≠ id) :
            queue.Earlier id other := by
          by_contra notEarlier
          exact still ⟨moved.1, moved.2, .inr ⟨other, member, different, notEarlier⟩⟩
        refine ⟨queuedAfter.trans ((moved_eq_iff coherent.distinct).mpr head), admits.active,
          entries, rowsSame, fun one inside other member => ?_⟩
        by_cases here : one = id
        · by_cases also : other = id
          · rw [here, also]
            exact iff_of_false (fun earlier => earlier.asymm earlier) fun earlier =>
              earlier.asymm earlier
          · rw [here]
            exact iff_of_true (firstNow other member also) (first other member also)
        · by_cases also : other = id
          · rw [also]
            exact iff_of_false (firstNow one inside here).asymm (first one inside here).asymm
          · exact earlier_congr (admits.otherRows one here) (admits.otherRows other also)
    · rw [if_neg moved] at placed
      have rowsAfter := placed.2
      constructor
      · rintro - ⟨front, waits, -⟩
        exact moved ⟨front, waits⟩
      · intro
        exact ⟨placed.1, admits.active, entries, rowsSame,
          fun one _ other _ => earlier_congr (by rw [rowsAfter]) (by rw [rowsAfter])⟩

/-! ### An install that waits for its settlement -/

omit coherent in
theorem SameEntries.symm (same : queue.SameEntries after) : after.SameEntries queue where
  queued := same.queued.symm
  active := same.active.symm
  entries id := (same.entries id).symm
  rows id := (same.rows id).symm
  order first inFirst second inSecond := by
    rw [same.queued] at inFirst inSecond
    exact (same.order first inFirst second inSecond).symm

omit coherent in
theorem SameEntries.trans {last : InstallQueue} (same : queue.SameEntries after)
    (next : after.SameEntries last) : queue.SameEntries last where
  queued := next.queued.trans same.queued
  active := next.active.trans same.active
  entries id := (next.entries id).trans (same.entries id)
  rows id := (next.rows id).trans (same.rows id)
  order first inFirst second inSecond := by
    refine (next.order first ?_ second ?_).trans (same.order first inFirst second inSecond)
    · rwa [same.queued]
    · rwa [same.queued]

omit coherent in
theorem SameEntries.disturbs_iff (same : queue.SameEntries after)
    (pending : after.findPending admission.request = queue.findPending admission.request) :
    after.Disturbs admission ↔ queue.Disturbs admission := by
  unfold Disturbs
  rw [pending]
  cases queue.findPending admission.request with
  | none => exact Iff.rfl
  | some existing =>
    dsimp only
    rw [same.queued]
    refine and_congr_right fun _ => and_congr_right fun waits => or_congr_right ?_
    refine exists_congr fun other => and_congr_right fun member => and_congr_right fun _ => ?_
    exact not_congr (same.order _ waits _ member)

/-- What waits for its settlement is active, as what is queued shows other phases. -/
theorem active_of_unsettled (waits : queue.Waits)
    (pending : queue.findPending request = some ⟨id, entry⟩)
    (unsettled : entry.status.viewModel.phaseId = "settlement_required") :
    queue.active = some id := by
  obtain ⟨found, notDone, -⟩ := findPending_eq_some pending
  rcases coherent.placed found notDone with ⟨queued, -⟩ | ⟨active, -⟩
  · have shown := (waits id queued).1 entry found
    rw [unsettled] at shown
    rcases shown with shown | shown <;> exact absurd shown (by decide)
  · exact active

/-- An active install is not moved. -/
theorem not_disturbs_of_active (pending : queue.findPending admission.request = some ⟨id, entry⟩)
    (active : queue.active = some id) : ¬queue.Disturbs admission := by
  unfold Disturbs
  rw [pending]
  rintro ⟨-, waits, -⟩
  obtain ⟨_, _, _, _, _, _, left⟩ := coherent.of_active active
  exact left waits

/-! ### Which entry comes first -/

/-- The entry of a request is active or stands in the queue before another one. -/
def Ahead (queue : InstallQueue) (request : Request) (id : String) : Prop :=
  ∃ name entry, queue.entries.lookup name = some entry ∧ entry.status.done = false ∧
    entry.request = request ∧
      (queue.active = some name ∨
        ∃ before between later, queue.queued = before ++ name :: between ++ id :: later)

/-- An entry that is active, or before which the other does not stand, is ahead of it unless the
other is active. -/
theorem ahead_iff {other : Entry} (found : queue.entries.lookup name = some entry)
    (notDone : entry.status.done = false) (there : queue.entries.lookup id = some other)
    (alsoNot : other.status.done = false) (different : entry.request ≠ other.request)
    (either : queue.active = some name ∨
      ∃ before rest, queue.queued = before ++ name :: rest ∧ id ∉ before) :
    queue.Ahead entry.request id ↔ queue.active ≠ some id := by
  have apart : id ≠ name := by
    rintro rfl
    rw [found, Option.some_inj] at there
    exact different (congrArg Entry.request there)
  constructor
  · rintro ⟨ahead, listed, here, pending, requested, works | ⟨before, between, later, split⟩⟩ active
    · rw [active, Option.some_inj] at works
      rw [← works, there, Option.some_inj] at here
      exact different (requested.symm.trans (congrArg Entry.request here.symm))
    · obtain ⟨-, -, -, -, -, -, left⟩ := coherent.of_active active
      exact left (by rw [split]; simp)
  · intro idle
    refine ⟨name, entry, found, notDone, rfl, either.imp_right ?_⟩
    rintro ⟨before, rest, split, missing⟩
    have waits : id ∈ queue.queued := by
      rcases coherent.placed there alsoNot with ⟨waits, -⟩ | ⟨active, -⟩
      · exact waits
      · exact absurd active idle
    rw [split, List.mem_append, List.mem_cons] at waits
    rcases waits with early | same | later
    · exact absurd early missing
    · exact absurd same apart
    · obtain ⟨between, after, rfl⟩ := List.append_of_mem later
      exact ⟨before, between, after, by rw [split, List.append_assoc, List.cons_append]⟩

/-- An admission is not of an entry that is there for another request. -/
theorem Admits.apart (admits : queue.Admits admission after id)
    (found : queue.entries.lookup name = some entry) (different : entry.request ≠ admission.request)
    : name ≠ id := by
  rintro rfl
  cases admits.cases with
  | anew _ _ unstored =>
    rw [coherent.unknown unstored] at found
    cases found
  | again _ before _ requested =>
    rw [found, Option.some_inj] at before
    exact different (before ▸ requested)

/-- An entry that was admitted to the front is active or the first of the queue. -/
theorem Admits.front (admits : queue.Admits admission after id) (front : admission.front = true) :
    after.active = some id ∨ ∃ rest, after.queued = id :: rest := by
  cases admits.cases with
  | anew _ _ _ queued => exact .inr ⟨_, queued.trans (if_pos front)⟩
  | again _ before notDone _ moved =>
    rcases coherent.placed before notDone with ⟨waits, -⟩ | ⟨active, -⟩
    · rw [if_pos ⟨front, waits⟩] at moved
      exact .inr ⟨_, moved.1⟩
    · exact .inl (admits.active.trans active)

/-- The entry of a request is active after its admission only where it was pending and active
before. -/
theorem Admits.active_iff (admits : queue.Admits admission after id) :
    (∀ name entry, queue.findPending admission.request = some ⟨name, entry⟩ →
      queue.active ≠ some name) ↔ after.active ≠ some id := by
  rw [admits.active]
  cases admits.cases with
  | anew unknown _ unstored =>
    rw [unknown]
    refine iff_of_true (by rintro _ _ ⟨⟩) fun active => ?_
    obtain ⟨_, _, _, stored, _⟩ := coherent.of_active active
    rw [unstored] at stored
    cases stored
  | again pending =>
    rw [pending]
    constructor
    · intro idle
      exact idle id _ rfl
    · rintro idle name entry ⟨⟩
      exact idle

end

section

variable {last : InstallQueue} {first second : String} {content runtime : Admission}
  (coherent : queue.Coherent) (coherentAfter : after.Coherent) (coherentLast : last.Coherent)
  (different : content.request ≠ runtime.request)

include coherent coherentAfter coherentLast different

/-- The content is admitted, and then the runtime before it. -/
theorem ahead_of_front (admitsContent : queue.Admits content after first)
    (admitsRuntime : after.Admits runtime last second) (front : runtime.front = true) :
    last.Ahead runtime.request first ↔
      ∀ id entry, queue.findPending content.request = some ⟨id, entry⟩ →
        queue.active ≠ some id := by
  obtain ⟨contentEntry, contentFound, contentPending, contentRequest⟩ := admitsContent.found
  obtain ⟨runtimeEntry, runtimeFound, runtimePending, runtimeRequest⟩ := admitsRuntime.found
  have apart : first ≠ second :=
    admitsRuntime.apart coherentAfter contentFound (by rwa [contentRequest])
  rw [admitsContent.active_iff coherent, ← admitsRuntime.active, ← runtimeRequest]
  rw [← admitsRuntime.others first apart] at contentFound
  refine ahead_iff coherentLast runtimeFound runtimePending contentFound contentPending ?_ ?_
  · rw [contentRequest, runtimeRequest]
    exact different.symm
  · refine (admitsRuntime.front coherentAfter front).imp_right ?_
    rintro ⟨rest, queued⟩
    exact ⟨[], rest, queued, List.not_mem_nil⟩

/-- The runtime is admitted, to the front if the content is there already, and then the content
after it. -/
theorem ahead_of_back (admitsRuntime : queue.Admits runtime after first)
    (admitsContent : after.Admits content last second) (back : content.front = false)
    (front : runtime.front = (queue.findPending content.request).isSome) :
    last.Ahead runtime.request second ↔
      ∀ id entry, queue.findPending content.request = some ⟨id, entry⟩ →
        queue.active ≠ some id := by
  obtain ⟨runtimeEntry, runtimeFound, runtimePending, runtimeRequest⟩ := admitsRuntime.found
  obtain ⟨contentEntry, contentFound, contentPending, contentRequest⟩ := admitsContent.found
  have apart : first ≠ second :=
    admitsContent.apart coherentAfter runtimeFound (by rw [runtimeRequest]; exact different.symm)
  have same := admitsRuntime.findPending coherent coherentAfter different
  have activeContent := admitsContent.active_iff coherentAfter
  rw [same, admitsRuntime.active] at activeContent
  rw [activeContent, ← runtimeRequest]
  have runtimeLast := runtimeFound
  rw [← admitsContent.others first apart] at runtimeLast
  refine ahead_iff coherentLast runtimeLast runtimePending contentFound contentPending ?_ ?_
  · rw [contentRequest, runtimeRequest]
    exact different.symm
  · rw [admitsContent.active]
    cases admitsContent.cases with
    | anew _ _ unstored queued =>
      rw [back, if_neg Bool.false_ne_true] at queued
      rcases coherentAfter.placed runtimeFound runtimePending with ⟨waits, -⟩ | ⟨works, -⟩
      · obtain ⟨before, rest, split⟩ := List.append_of_mem waits
        refine .inr ⟨before, rest ++ [second], ?_, fun early => ?_⟩
        · rw [queued, split, List.append_assoc, List.cons_append]
        · have member : second ∈ after.queued := by
            rw [split]
            exact List.mem_append_left _ early
          obtain ⟨_, _, _, stored, _⟩ := coherentAfter.of_queued member
          rw [unstored] at stored
          cases stored
      · exact .inl works
    | again pending _ _ _ placed =>
      rw [← same, pending] at front
      rw [if_neg fun moved => Bool.false_ne_true (back.symm.trans moved.1)] at placed
      refine (admitsRuntime.front coherent front).imp_right ?_
      rintro ⟨rest, queued⟩
      exact ⟨[], rest, placed.1.trans queued, List.not_mem_nil⟩

variable {entry : Entry} {id : String}
  (pending : queue.findPending content.request = some ⟨id, entry⟩) (active : queue.active = some id)

include pending active

/-- The content is active and is admitted first: only the runtime is added or moved. -/
theorem same_of_front (admitsContent : queue.Admits content after first)
    (admitsRuntime : after.Admits runtime last second) :
    queue.SameEntries last ↔ ¬queue.Disturbs runtime := by
  have kept : queue.SameEntries after :=
    (admitsContent.sameEntries_iff coherent coherentAfter).mpr
      (not_disturbs_of_active coherent pending active)
  have same := admitsContent.findPending coherent coherentAfter different.symm
  rw [← kept.disturbs_iff same, ← admitsRuntime.sameEntries_iff coherentAfter coherentLast]
  exact ⟨fun whole => kept.symm.trans whole, fun rest => kept.trans rest⟩

theorem same_of_back (admitsRuntime : queue.Admits runtime after first)
    (admitsContent : after.Admits content last second) :
    queue.SameEntries last ↔ ¬queue.Disturbs runtime := by
  have same := admitsRuntime.findPending coherent coherentAfter different
  have kept : after.SameEntries last :=
    (admitsContent.sameEntries_iff coherentAfter coherentLast).mpr
      (not_disturbs_of_active coherentAfter (same.trans pending)
        (admitsRuntime.active.trans active))
  rw [← admitsRuntime.sameEntries_iff coherent coherentAfter]
  exact ⟨fun whole => whole.trans kept.symm, fun front => front.trans kept⟩

end

end InstallQueue

namespace SetupCall

variable {call : SetupCall} {queue : InstallQueue}

/-- The call is all or nothing and ordered: what is refused leaves the entries as they were, and
where the prerequisite is needed, it goes before the content. -/
structure InOneGo (call : SetupCall) (queue : InstallQueue) : Prop where
  refused : ∀ error, (call.enqueueSetup queue).2 = .error error →
    queue.SameEntries (call.enqueueSetup queue).1
  ordered : ∀ id, (call.enqueueSetup queue).2 = .ok id → call.ready = .ok false →
    (call.enqueueSetup queue).1.Ahead call.prerequisite id

/-- The pending content waits for its settlement. -/
def Unsettled (call : SetupCall) (queue : InstallQueue) : Prop :=
  ∃ id entry, queue.findPending call.request = some ⟨id, entry⟩ ∧
    entry.status.viewModel.phaseId = "settlement_required"

/-- The pending content waits for its settlement, and is not recovered. -/
def Unrecovered (call : SetupCall) (queue : InstallQueue) : Prop :=
  call.Unsettled queue ∧ ∃ error, call.recovery = .error error

/-- Of the two admissions, that of the prerequisite. -/
def ofPrerequisite (call : SetupCall)
    (admissions : InstallQueue.Admission × InstallQueue.Admission) : InstallQueue.Admission :=
  if call.front then admissions.2 else admissions.1

/-- Where both entries are asked for and the first admission goes through: if it disturbs the queue,
the second one is accepted beside it, and if the second one is accepted, the content is not the
active entry, or it waits for its settlement, is not recovered, and the prerequisite does not
disturb the queue. -/
def Joint (call : SetupCall) (queue : InstallQueue) : Prop :=
  ∀ prerequisiteItem item, call.resolved = .ok (some prerequisiteItem, item) →
    let admissions := call.admissions prerequisiteItem item queue
    queue.Accepts call.first admissions.1 none →
      (queue.Disturbs admissions.1 →
        queue.Accepts call.second admissions.2 (queue.addedBy admissions.1)) ∧
      (queue.Accepts call.second admissions.2 (queue.addedBy admissions.1) →
        (call.Unrecovered queue → ¬queue.Disturbs (call.ofPrerequisite admissions)) ∧
        (¬call.Unrecovered queue →
          ∀ id entry, queue.findPending call.request = some ⟨id, entry⟩ → queue.active ≠ some id))

theorem inOneGo_of_error {after : InstallQueue} {error : InstallError}
    (run : call.enqueueSetup queue = (after, .error error)) :
    call.InOneGo queue ↔ queue.SameEntries after := by
  constructor
  · intro inOneGo
    have kept := inOneGo.refused error (by rw [run])
    rwa [run] at kept
  · intro kept
    refine ⟨fun _ _ => by rwa [run], fun id admitted => ?_⟩
    rw [run] at admitted
    cases admitted

theorem inOneGo_of_ok {last : InstallQueue} {id : String}
    (run : call.enqueueSetup queue = (last, .ok id)) (notReady : call.ready = .ok false) :
    call.InOneGo queue ↔ last.Ahead call.prerequisite id := by
  constructor
  · intro inOneGo
    have placed := inOneGo.ordered id (by rw [run]) notReady
    rwa [run] at placed
  · intro placed
    refine ⟨fun error failed => ?_, fun other admitted _ => ?_⟩
    · rw [run] at failed
      cases failed
    · rw [run] at admitted ⊢
      cases admitted
      exact placed

/-! ### The answer -/

theorem asksForRecovery_iff {admission : InstallQueue.Admission} {after : InstallQueue}
    {id : String} (admits : queue.Admits admission after id) :
    asksForRecovery after id = true ↔
      ∃ name entry, queue.findPending admission.request = some ⟨name, entry⟩ ∧
        entry.status.viewModel.phaseId = "settlement_required" := by
  obtain ⟨admitted, there, -⟩ := admits.found
  have shown := admits.shown admitted there
  rw [asksForRecovery, there, Option.any_some, decide_eq_true_iff, shown]
  cases pending : queue.findPending admission.request with
  | none =>
    refine iff_of_false (by decide) ?_
    rintro ⟨_, _, found, -⟩
    cases found
  | some existing =>
    constructor
    · intro unsettled
      exact ⟨existing.1, existing.2, rfl, unsettled⟩
    · rintro ⟨name, entry, found, unsettled⟩
      rw [Option.some.inj found]
      exact unsettled

section

variable {after : InstallQueue} {id : String}
  (asks : asksForRecovery after id = true ↔ call.Unsettled queue)

include asks

theorem answer_of_unrecovered (unrecovered : call.Unrecovered queue) :
    ∃ error, call.answer after id = .error error := by
  obtain ⟨unsettled, error, failed⟩ := unrecovered
  refine ⟨error, ?_⟩
  rw [answer, if_pos (asks.mpr unsettled), failed]
  rfl

theorem answer_of_recovered (recovered : ¬call.Unrecovered queue) :
    call.answer after id = .ok id := by
  unfold answer
  split
  · rename_i unsettled
    cases outcome : call.recovery with
    | ok => rfl
    | error error => exact absurd ⟨asks.mp unsettled, error, outcome⟩ recovered
  · rfl

end

/-! ### Both admissions -/

theorem resolved_eq_ok {prerequisiteItem : Option InstallItem} {item : InstallItem}
    (resolved : call.resolved = .ok (prerequisiteItem, item)) :
    (call.request = call.work.request ∧ call.prerequisite = call.work.prerequisite) ∧
      (prerequisiteItem.isSome = true ↔ call.ready = .ok false) := by
  unfold SetupCall.resolved at resolved
  simp only [guard_eq_ok, bind_eq_ok] at resolved
  obtain ⟨same, ready, found, resolved⟩ := resolved
  rw [not_or, not_not, not_not] at same
  refine ⟨same, ?_⟩
  rw [found]
  cases ready with
  | true =>
    simp only [if_true, pure_bind, bind_eq_ok, pure_eq_ok, Prod.mk.injEq] at resolved
    obtain ⟨_, _, rfl, _⟩ := resolved
    simp
  | false =>
    simp only [Bool.false_eq_true, if_false, bind_eq_ok, pure_eq_ok, Prod.mk.injEq] at resolved
    obtain ⟨made, mapped, _, _, rfl, _⟩ := resolved
    cases target : call.target call.prerequisite with
    | error error =>
      rw [target] at mapped
      cases mapped
    | ok prerequisiteItem =>
      rw [target] at mapped
      cases mapped
      simp

theorem admitSetup_needed {prerequisiteItem item : InstallItem}
    (resolved : call.resolved = .ok (some prerequisiteItem, item)) :
    call.admitSetup queue =
      match call.first.admitLocked (call.admissions prerequisiteItem item queue).1 queue with
      | .error error => (queue, .error error)
      | .ok (after, first) =>
        match call.second.admitLocked (call.admissions prerequisiteItem item queue).2 after with
        | .error error => (after, .error error)
        | .ok (last, second) => (last, .ok (if call.front then first else second)) := by
  unfold admitSetup admissions
  rw [resolved]
  cases call.front <;> rfl

theorem admitSetup_alone {item : InstallItem} (resolved : call.resolved = .ok (none, item)) :
    call.admitSetup queue =
      match call.first.admitLocked (call.contentAdmission call.first item call.front) queue with
      | .error error => (queue, .error error)
      | .ok (after, id) => (after, .ok id) := by
  unfold admitSetup
  rw [resolved]
  cases call.front <;> rfl

/-- Where the prerequisite is not needed there is only one admission, and what is recovered after it
is not moved by it. -/
theorem inOneGo_of_ready {item : InstallItem} (coherent : queue.Coherent) (waits : queue.Waits)
    (resolved : call.resolved = .ok (none, item)) : call.InOneGo queue := by
  have needed := (resolved_eq_ok resolved).2
  rw [Option.isSome_none] at needed
  refine ⟨fun error failed => ?_, fun id _ notReady => ?_⟩
  · rw [enqueueSetup, admitSetup_alone resolved] at failed ⊢
    cases admitted : call.first.admitLocked (call.contentAdmission call.first item call.front) queue with
    | error refusal => exact .refl queue
    | ok result =>
      obtain ⟨after, id⟩ := result
      have admits := admit_spec admitted
      have asks := asksForRecovery_iff admits
      rw [admitted] at failed
      by_cases unrecovered : call.Unrecovered queue
      · obtain ⟨⟨name, entry, pending, unsettled⟩, -⟩ := unrecovered
        have active := active_of_unsettled coherent waits pending unsettled
        exact (admits.sameEntries_iff coherent (admit_coherent coherent admitted)).mpr
          (not_disturbs_of_active coherent pending active)
      · have answered := failed.symm.trans (answer_of_recovered asks unrecovered)
        cases answered
  · exact absurd (needed.mpr notReady) Bool.false_ne_true

section

variable (content : call.request.isContent = true) (runtime : call.prerequisite.isContent = false)
  {prerequisiteItem item : InstallItem}

include content runtime

theorem request_ne_prerequisite : call.request ≠ call.prerequisite := by
  intro same
  rw [same, runtime] at content
  cases content

theorem admissions_different :
    (call.admissions prerequisiteItem item queue).2.request ≠
      (call.admissions prerequisiteItem item queue).1.request := by
  have different := request_ne_prerequisite content runtime
  unfold admissions
  cases call.front
  · exact different
  · exact different.symm

section

variable (coherent : queue.Coherent) {after last : InstallQueue} {first second : String}
  (firstAdmitted : call.first.admitLocked (call.admissions prerequisiteItem item queue).1 queue =
    .ok (after, first))
  (secondAdmitted : call.second.admitLocked (call.admissions prerequisiteItem item queue).2 after =
    .ok (last, second))

include coherent firstAdmitted secondAdmitted

/-- Where both are admitted, the prerequisite is ahead unless the content was active already. -/
theorem ahead_of_admitted : last.Ahead call.prerequisite (if call.front then first else second) ↔
    ∀ id entry, queue.findPending call.request = some ⟨id, entry⟩ → queue.active ≠ some id := by
  have different := request_ne_prerequisite content runtime
  have coherentAfter := admit_coherent coherent firstAdmitted
  have coherentLast := admit_coherent coherentAfter secondAdmitted
  have admitsFirst := admit_spec firstAdmitted
  have admitsSecond := admit_spec secondAdmitted
  unfold admissions at admitsFirst admitsSecond
  cases front : call.front with
  | true =>
    rw [front, if_pos rfl] at admitsFirst admitsSecond
    exact ahead_of_front coherent coherentAfter coherentLast different admitsFirst
      admitsSecond rfl
  | false =>
    rw [front, if_neg Bool.false_ne_true] at admitsFirst admitsSecond
    exact ahead_of_back coherent coherentAfter coherentLast different admitsFirst
      admitsSecond rfl rfl

/-- Where both are admitted and the content was active already, only the prerequisite is added or
moved. -/
theorem same_of_admitted {id : String} {entry : Entry}
    (pending : queue.findPending call.request = some ⟨id, entry⟩)
    (active : queue.active = some id) : queue.SameEntries last ↔
      ¬queue.Disturbs (call.ofPrerequisite (call.admissions prerequisiteItem item queue)) := by
  have different := request_ne_prerequisite content runtime
  have coherentAfter := admit_coherent coherent firstAdmitted
  have coherentLast := admit_coherent coherentAfter secondAdmitted
  have admitsFirst := admit_spec firstAdmitted
  have admitsSecond := admit_spec secondAdmitted
  unfold ofPrerequisite
  unfold admissions at admitsFirst admitsSecond ⊢
  cases front : call.front with
  | true =>
    rw [front, if_pos rfl] at admitsFirst admitsSecond
    exact same_of_front coherent coherentAfter coherentLast different pending active
      admitsFirst admitsSecond
  | false =>
    rw [front, if_neg Bool.false_ne_true] at admitsFirst admitsSecond
    exact same_of_back coherent coherentAfter coherentLast different pending active
      admitsFirst admitsSecond

/-- What is answered waits for its settlement exactly if the pending content did before. -/
theorem asks_of_admitted :
    asksForRecovery last (if call.front then first else second) = true ↔
      call.Unsettled queue := by
  have different := request_ne_prerequisite content runtime
  have coherentAfter := admit_coherent coherent firstAdmitted
  have admitsFirst := admit_spec firstAdmitted
  have admitsSecond := admit_spec secondAdmitted
  unfold admissions at admitsFirst admitsSecond
  cases front : call.front with
  | true =>
    rw [front, if_pos rfl] at admitsFirst admitsSecond
    obtain ⟨admitted, found, -, requested⟩ := admitsFirst.found
    have apart : first ≠ second := admitsSecond.apart coherentAfter found (by rwa [requested])
    rw [if_pos rfl, asksForRecovery, admitsSecond.others first apart]
    exact asksForRecovery_iff admitsFirst
  | false =>
    rw [front, if_neg Bool.false_ne_true] at admitsFirst admitsSecond
    rw [if_neg Bool.false_ne_true, asksForRecovery_iff admitsSecond]
    have same := admitsFirst.findPending coherent coherentAfter different
    exact exists_congr fun name => exists_congr fun entry => and_congr_left fun _ => by
      rw [← same]
      exact Iff.rfl

end

end

/-- The call is all or nothing and ordered exactly when its two admissions go together. -/
theorem inOneGo_iff (coherent : queue.Coherent) (waits : queue.Waits)
    (content : call.work.request.isContent = true)
    (runtime : call.work.prerequisite.isContent = false) :
    call.InOneGo queue ↔ call.Joint queue := by
  cases resolved : call.resolved with
  | error error =>
    have refused : call.enqueueSetup queue = (queue, .error error) := by
      unfold enqueueSetup admitSetup
      rw [resolved]
    refine iff_of_true ((inOneGo_of_error refused).mpr (.refl queue)) fun _ _ same => ?_
    rw [resolved] at same
    cases same
  | ok pair =>
    obtain ⟨prerequisiteItem, item⟩ := pair
    cases prerequisiteItem with
    | none =>
      refine iff_of_true (inOneGo_of_ready coherent waits resolved) fun _ _ same => ?_
      rw [resolved] at same
      cases same
    | some prerequisiteItem =>
      obtain ⟨⟨sameRequest, samePrerequisite⟩, needed⟩ := resolved_eq_ok resolved
      rw [← sameRequest] at content
      rw [← samePrerequisite] at runtime
      have notReady := needed.mp rfl
      have admits : call.admitSetup queue = _ := admitSetup_needed resolved
      have different := @admissions_different call queue content runtime prerequisiteItem item
      have joint : call.Joint queue ↔ _ :=
        ⟨fun joint => joint prerequisiteItem item resolved, fun joint _ _ same => by
          rw [resolved] at same
          cases same
          exact joint⟩
      rw [joint]
      have ahead := @ahead_of_admitted call queue content runtime prerequisiteItem item coherent
      have still := @same_of_admitted call queue content runtime prerequisiteItem item coherent
      have asks := @asks_of_admitted call queue content runtime prerequisiteItem item coherent
      clear joint
      generalize call.admissions prerequisiteItem item queue = admissions
        at admits different ahead still asks ⊢
      cases firstAdmitted : call.first.admitLocked admissions.1 queue with
      | error error =>
        have run : call.enqueueSetup queue = (queue, .error error) := by
          rw [enqueueSetup, admits, firstAdmitted]
        refine iff_of_true ((inOneGo_of_error run).mpr (.refl queue)) fun accepts => ?_
        obtain ⟨result, admitted⟩ := admit_ok_iff.mpr accepts
        rw [firstAdmitted] at admitted
        cases admitted
      | ok result =>
        obtain ⟨after, first⟩ := result
        have admitsFirst := admit_spec firstAdmitted
        have coherentAfter := admit_coherent coherent firstAdmitted
        have accepts := admit_ok_iff.mp ⟨_, firstAdmitted⟩
        have acceptsSecond := @Admits.accepts_iff _ _ _ _ coherent coherentAfter
          admitsFirst _ call.second different
        rw [firstAdmitted] at admits
        dsimp only at admits ⊢
        rw [← acceptsSecond]
        cases secondAdmitted : call.second.admitLocked admissions.2 after with
        | error error =>
          have run : call.enqueueSetup queue = (after, .error error) := by
            rw [enqueueSetup, admits, secondAdmitted]
          have refusedSecond : ¬after.Accepts call.second admissions.2 none := by
            intro accepted
            obtain ⟨_, admitted⟩ := admit_ok_iff.mpr accepted
            rw [secondAdmitted] at admitted
            cases admitted
          rw [inOneGo_of_error run, admitsFirst.sameEntries_iff coherent coherentAfter]
          constructor
          · intro calm _
            exact ⟨fun disturbs => absurd disturbs calm,
              fun accepted => absurd accepted refusedSecond⟩
          · intro joint disturbs
            exact refusedSecond ((joint accepts).1 disturbs)
        | ok result =>
          obtain ⟨last, second⟩ := result
          have run : call.enqueueSetup queue =
              (last, call.answer last (if call.front then first else second)) := by
            rw [enqueueSetup, admits, secondAdmitted]
          have order := ahead firstAdmitted secondAdmitted
          have asked := asks firstAdmitted secondAdmitted
          have accepted := admit_ok_iff.mp ⟨_, secondAdmitted⟩
          by_cases unrecovered : call.Unrecovered queue
          · -- The recovery refuses the call, whose first half is the active content.
            obtain ⟨error, failed⟩ := answer_of_unrecovered asked unrecovered
            obtain ⟨name, entry, pending, unsettled⟩ := unrecovered.1
            rw [failed] at run
            rw [inOneGo_of_error run, still firstAdmitted secondAdmitted pending
              (active_of_unsettled coherent waits pending unsettled)]
            constructor
            · intro calm _
              exact ⟨fun _ => accepted,
                fun _ => ⟨fun _ => calm, fun recovered => absurd unrecovered recovered⟩⟩
            · intro joint
              exact ((joint accepts).2 accepted).1 unrecovered
          · rw [answer_of_recovered asked unrecovered] at run
            rw [inOneGo_of_ok run notReady, order]
            constructor
            · intro idle _
              exact ⟨fun _ => accepted,
                fun _ => ⟨fun failed => absurd failed unrecovered, fun _ => idle⟩⟩
            · intro joint
              exact ((joint accepts).2 accepted).2 unrecovered

/-! ### A setup of which half is admitted -/

def emptyQueue : InstallQueue := ⟨[], none, ∅, false, ∅⟩

theorem emptyQueue_coherent : emptyQueue.Coherent where
  standing id := .absent ⟨List.not_mem_nil, nofun⟩
  distinct := List.nodup_nil
  requests found := by cases found
  capacity := Nat.zero_le _

def plannedContent : Request :=
  .content "instance" "Setting up World" (.install [⟨"modrinth:AANobbMI", .mod, none⟩] false)

/-- A setup at the back of the queue whose version is not installed. The transaction of its content
commits or does not. -/
def plannedSetup (stored : Bool) : SetupCall where
  request := plannedContent
  prerequisite := .vanilla "1.21.4"
  work := ⟨"instance", plannedContent, .vanilla "1.21.4"⟩
  pin := ⟨"library", 1⟩
  front := false
  ready := .ok false
  target _ := .ok ⟨"1.21.4", none, none⟩
  first := ⟨"first", "operation", some fun _ => .ok "library", 0, false, true⟩
  second := ⟨"second", "other", some fun _ => .ok "library", 0, false, stored⟩
  recovery := .ok ()

theorem emptyQueue_waits : emptyQueue.Waits := fun _ member => absurd member List.not_mem_nil

/-- The setup is refused, and its prerequisite stays in the queue. -/
theorem half_admitted : emptyQueue.Coherent ∧ emptyQueue.Waits ∧
    (plannedSetup false).work.request.isContent = true ∧
    (plannedSetup false).work.prerequisite.isContent = false ∧
      ¬(plannedSetup false).InOneGo emptyQueue := by
  refine ⟨emptyQueue_coherent, emptyQueue_waits, rfl, rfl, fun inOneGo => ?_⟩
  have kept := (inOneGo.refused .storage rfl).queued
  exact absurd kept (by decide)

theorem inOneGo_iff_stored : (plannedSetup true).InOneGo emptyQueue := by
  refine (inOneGo_iff emptyQueue_coherent emptyQueue_waits rfl rfl).mpr
    fun prerequisiteItem item resolved => ?_
  cases resolved
  refine fun _ => ⟨fun _ => ⟨rfl, rfl, rfl, by decide, rfl, rfl, by decide⟩, fun _ => ⟨?_, ?_⟩⟩
  · rintro ⟨⟨_, _, found, -⟩, -⟩
    cases found
  · intro _ id entry found
    cases found

end SetupCall

end Axial.Install
