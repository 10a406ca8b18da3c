/-
This file shows that what each operation of the queue does to it is made of the
changes of one install. What an operation needs for that is said with it: an
admitted install is new to the table, what ends or retains an install finds it in the
active slot.
-/

import Axial.Install.Lifecycle

namespace Axial.Install.InstallQueue

open Fallible Relation List AList

variable {queue after : InstallQueue} {id : String} {care : Care}

theorem Changes.one (change : Change care queue id after) : Changes care queue id after :=
  .single change

variable {status : InstallStatus} {phase : RowPhase}

/-- What the status of a pending install is replaced by, and its row by a waiting or an unsettled
one, is written to the table or not. -/
theorem tryWriteStatus_changes (coherent : queue.Coherent) (stored : Bool)
    (active : queue.active = some id) (installId : status.installId = id)
    (notDone : status.done = false) (unsettled : phase = .running ∨ phase = .settlementRequired) :
    Changes care queue id (queue.tryWriteStatus stored status phase) := by
  unfold tryWriteStatus
  split
  · obtain ⟨_, row, _, found, _⟩ := coherent.of_active active
    rw [writeStatus_of_found (by rw [installId]; exact found), installId]
    exact .one (.record active found installId notDone unsettled)
  · exact .refl

/-- The installs are in the places they were in. -/
structure SamePlaces (queue after : InstallQueue) : Prop where
  active : after.active = queue.active
  queued : after.queued = queue.queued
  closed : after.closed = queue.closed

theorem SamePlaces.refl (queue : InstallQueue) : SamePlaces queue queue := ⟨rfl, rfl, rfl⟩

theorem SamePlaces.trans {last : InstallQueue} (first : SamePlaces queue after)
    (second : SamePlaces after last) : SamePlaces queue last :=
  ⟨second.active.trans first.active, second.queued.trans first.queued,
    second.closed.trans first.closed⟩

theorem setEntry_places (queue : InstallQueue) (id : String) (entry : Entry) :
    SamePlaces queue (queue.setEntry id entry) := ⟨rfl, rfl, rfl⟩

theorem writeStatus_places (queue : InstallQueue) (status : InstallStatus) (phase : RowPhase) :
    SamePlaces queue (queue.writeStatus status phase) := by
  unfold writeStatus
  split <;> exact ⟨rfl, rfl, rfl⟩

theorem tryWriteStatus_places (queue : InstallQueue) (stored : Bool) (status : InstallStatus)
    (phase : RowPhase) : SamePlaces queue (queue.tryWriteStatus stored status phase) := by
  unfold tryWriteStatus
  split
  · exact writeStatus_places queue status phase
  · exact .refl queue

/-! ### Admission -/

variable {row : Row}

theorem mem_queuedRows : (⟨id, row⟩ : Σ _ : String, Row) ∈ queue.queuedRows ↔
    queue.rows.lookup id = some row ∧ row.phase = .queued := by
  unfold queuedRows
  rw [mem_filter, decide_eq_true_iff]
  exact and_congr_left' mem_lookup_iff.symm

theorem minAccepted_le {least : Int} (minimal : queue.minAccepted = some least)
    (stored : queue.rows.lookup id = some row) (phase : row.phase = .queued) :
    least ≤ row.acceptedAt := by
  have listed := mem_map_of_mem (f := fun row : Σ _ : String, Row => row.2.acceptedAt)
    (mem_queuedRows.mpr ⟨stored, phase⟩)
  exact (min?_eq_some_iff.mp minimal).2 _ listed

theorem lt_nextRowid (stored : queue.rows.lookup id = some row) : row.rowid < queue.nextRowid := by
  have bound (rowids : List Nat) {rowid : Nat} (member : rowid ∈ rowids) :
      rowid ≤ rowids.foldr max 0 := by
    induction rowids with
    | nil => cases member
    | cons first rest ih =>
      rcases mem_cons.mp member with rfl | later
      · exact le_max_left _ _
      · exact (ih later).trans (le_max_right _ _)
  have listed := mem_map_of_mem (f := fun row : Σ _ : String, Row => row.2.rowid)
    (mem_lookup_iff.mp stored)
  exact Nat.lt_succ_of_le (bound _ listed)

variable {request : Request}

theorem findPending_eq_some {entry : Entry} (found : queue.findPending request = some ⟨id, entry⟩) :
    queue.entries.lookup id = some entry ∧ entry.status.done = false ∧
      entry.request = request := by
  have member := mem_lookup_iff.mpr (mem_of_find?_eq_some found)
  have holds := find?_some found
  simp only [Bool.and_eq_true, Bool.not_eq_true', decide_eq_true_iff] at holds
  exact ⟨member, holds.1, holds.2⟩

theorem findPending_eq_none (missing : queue.findPending request = none) {other : String}
    {entry : Entry} (found : queue.entries.lookup other = some entry)
    (notDone : entry.status.done = false) : entry.request ≠ request := by
  intro same
  refine find?_eq_none.mp missing ⟨other, entry⟩ (mem_lookup_iff.mp found) ?_
  simp only [notDone, same, Bool.not_false, decide_true, Bool.and_self]

section

variable (coherent : queue.Coherent)

include coherent

theorem bringForward_changes (waits : id ∈ queue.queued) :
    Changes care queue id (queue.bringForward id) := by
  obtain ⟨_, row, _, stored, _, phase, _⟩ := coherent.of_queued waits
  have some_least : ∃ least, queue.minAccepted = some least :=
    Option.isSome_iff_exists.mp (isSome_min?_of_mem
      (mem_map_of_mem (mem_queuedRows.mpr ⟨stored, phase⟩)))
  obtain ⟨least, minimal⟩ := some_least
  unfold bringForward
  simp only [stored, minimal]
  refine .one (.front waits stored fun _ other member found storedOther => ?_)
  obtain ⟨_, again, _, storedAgain, _, phaseOther, _⟩ := coherent.of_queued member
  rw [storedOther] at storedAgain
  cases storedAgain
  have smallest := minAccepted_le minimal storedOther phaseOther
  omega

variable {stored : Bool} {admission : Admission} {name : String}

theorem admitExisting_changes {existing : Entry} (found : queue.entries.lookup id = some existing)
    (admitted : admitExisting stored admission id existing queue = .ok (after, name)) :
    Changes care queue id after := by
  unfold admitExisting at admitted
  simp only [guard_eq_ok, pure_eq_ok, Prod.mk.injEq] at admitted
  obtain ⟨_, _, rfl, _⟩ := admitted
  have edited (middle : InstallQueue) (found : middle.entries.lookup id = some existing)
      (setup : Option SetupWork) :
      Change care middle id (middle.setEntry id { existing with setup }) :=
    .edit found ⟨rfl, rfl, rfl⟩ rfl (fun _ => ⟨rfl, rfl⟩) (fun _ => rfl) (fun _ => .inl rfl)
  split
  · rename_i moved
    exact (bringForward_changes coherent moved.2).tail (edited (queue.bringForward id) found _)
  · exact .one (edited queue found _)

/-- The clock has not fallen behind a queued row, where an admission reads it for its key. -/
def InTime (queue : InstallQueue) (now : Int) (admission : Admission) : Prop :=
  admission.front = false → queue.findPending admission.request = none →
    ∀ id row, queue.rows.lookup id = some row → row.phase = .queued → row.acceptedAt ≤ now

variable {now : Int}

theorem admitNew_changes (alone : queue.findPending admission.request = none)
    (inTime : care.keys → queue.InTime now admission)
    (admitted : admitNew now stored admission queue = .ok (after, name)) :
    Changes care queue admission.id after := by
  unfold admitNew at admitted
  simp only [guard_eq_ok, pure_eq_ok, Prod.mk.injEq] at admitted
  obtain ⟨room, saved, rfl, _⟩ := admitted
  have unstored : queue.rows.lookup admission.id = none := by
    rw [not_or] at saved
    exact Option.not_isSome_iff_eq_none.mp saved.2
  have unknown := coherent.unknown unstored
  refine .one (.enter unknown unstored ⟨rfl, rfl, rfl, rfl, rfl⟩ rfl rfl rfl
    (fun other found there notDone => findPending_eq_none alone there notDone)
    (Nat.lt_of_not_le room) rfl rfl ?_)
  cases front : admission.front with
  | true =>
    refine .inl ⟨rfl, fun _ other member found there => ?_⟩
    obtain ⟨_, again, _, storedAgain, _, phase, _⟩ := coherent.of_queued member
    rw [there] at storedAgain
    cases storedAgain
    cases minimal : queue.minAccepted with
    | none =>
      have empty := min?_eq_none_iff.mp minimal
      have listed := mem_map_of_mem (f := fun row : Σ _ : String, Row => row.2.acceptedAt)
        (mem_queuedRows.mpr ⟨there, phase⟩)
      rw [empty] at listed
      cases listed
    | some least =>
      have smallest := minAccepted_le minimal there phase
      refine Prod.Lex.toLex_lt_toLex.mpr (.inl ?_)
      show least - 1 < found.acceptedAt
      omega
  | false =>
    refine .inr ⟨rfl, fun ordered other member found there => ?_⟩
    obtain ⟨_, again, _, storedAgain, _, phase, _⟩ := coherent.of_queued member
    rw [there] at storedAgain
    cases storedAgain
    have earlier := inTime ordered front alone other found there phase
    rcases earlier.lt_or_eq with lower | same
    · exact Prod.Lex.toLex_lt_toLex.mpr (.inl lower)
    · exact Prod.Lex.toLex_lt_toLex.mpr (.inr ⟨same, lt_nextRowid there⟩)

variable {libraries : InstanceLibraries} {closing : Bool}

/-- `admit_locked` changes the install it finds, or the one it creates. -/
theorem admitLocked_changes (inTime : care.keys → queue.InTime now admission)
    (admitted : admitLocked libraries now closing stored admission queue = .ok (after, name)) :
    ∃ id, Changes care queue id after := by
  unfold admitLocked at admitted
  simp only [guard_eq_ok, bind_eq_ok] at admitted
  obtain ⟨_, _, _, admitted⟩ := admitted
  cases found : queue.findPending admission.request with
  | none =>
    rw [found] at admitted
    exact ⟨_, admitNew_changes coherent found inTime admitted⟩
  | some entry =>
    rw [found] at admitted
    exact ⟨_, admitExisting_changes coherent (findPending_eq_some found).1 admitted⟩

theorem removeQueued_changes (removed : removeQueued id stored queue = .ok after) :
    Changes care queue id after := by
  unfold removeQueued at removed
  simp only [guard_eq_ok] at removed
  obtain ⟨_, waits, removed⟩ := removed
  rw [not_not] at waits
  obtain ⟨entry, row, found, storedRow, pending, _, lease, retained, _⟩ := coherent.of_queued waits
  rw [found] at removed
  simp only [guard_eq_ok, pure_eq_ok] at removed
  obtain ⟨_, rfl⟩ := removed
  have named : (entry.status.finish .removed none).installId = id := pending.entryId
  rw [writeStatus_of_found (by rw [named]; exact storedRow), named]
  have keeps : Keeps entry
      { entry with status := entry.status.finish .removed none, pin := none, setup := none } :=
    ⟨rfl, rfl, rfl⟩
  exact .one (.withdraw waits found storedRow keeps rfl lease retained)

end

theorem cancel_changes (cancelled : cancel id queue = .ok after) : Changes care queue id after := by
  unfold cancel at cancelled
  cases found : queue.entries.lookup id with
  | none =>
    rw [found] at cancelled
    cases cancelled
  | some entry =>
    rw [found] at cancelled
    simp only at cancelled
    split at cancelled
    · cases cancelled
    · cases cancelled
      exact .one (.edit found ⟨rfl, rfl, rfl⟩ rfl (fun _ => ⟨rfl, rfl⟩) (fun _ => rfl)
        (fun _ => .inl rfl))

/-! ### Starting -/

/-- The rows of the queued installs are ordered as they are queued. -/
def Ordered (queue : InstallQueue) : Prop := queue.queued.Pairwise queue.Earlier

theorem startNext_of_active (conditions : StartConditions) (busy : queue.active.isSome = true) :
    startNext conditions queue = (queue, none) := by
  unfold startNext
  rw [if_pos (.inr (.inl busy))]

section

variable (coherent : queue.Coherent)

include coherent

/-- `start_next` changes the install at the head of the queue, and starts it only into an empty
slot. -/
theorem startNext_changes {conditions : StartConditions}
    (saved : care.labels → conditions.storedRunning = true) (ordered : care.keys → queue.Ordered) :
    ∃ id, Changes care queue id (startNext conditions queue).1 ∧
      ∀ started, (startNext conditions queue).2 = some started →
        queue.active = none ∧ (startNext conditions queue).1.active = some started.id := by
  unfold startNext
  split
  · exact ⟨"", .refl, nofun⟩
  rename_i opened
  have idle : queue.active = none := by
    cases active : queue.active with
    | none => rfl
    | some other =>
      rw [active] at opened
      exact absurd (.inr (.inl rfl)) opened
  split
  · exact ⟨"", .refl, nofun⟩
  rename_i id rest first
  have waits : id ∈ queue.queued := by
    rw [first]
    exact mem_cons_self
  obtain ⟨entry, row, found, storedRow, pending, _, lease, retained, _⟩ := coherent.of_queued waits
  simp only [found]
  split
  · exact ⟨"", .refl, nofun⟩
  split
  · exact ⟨"", .refl, nofun⟩
  have named : (Entry.starting entry conditions.now).status.installId = id := pending.entryId
  have keeps : Keeps entry (Entry.starting entry conditions.now) := ⟨rfl, rfl, rfl⟩
  split
  · rename_i unsaved
    refine ⟨id, .one (.edit found keeps rfl (fun _ => ⟨rfl, rfl⟩) (fun done => ?_) fun _ =>
      .inr ⟨fun labels => ?_, rfl⟩), nofun⟩
    · rw [pending.notDone] at done
      cases done
    · rw [saved labels] at unsaved
      cases unsaved
  rw [writeStatus_of_found (by rw [named]; exact storedRow), named]
  have begun : Change care queue id _ :=
    .begin first idle found storedRow keeps pending.notDone
  have active := (coherent.change begun).of_active rfl
  split
  · exact ⟨id, .one begun, fun started same => ⟨idle, by cases same; rfl⟩⟩
  split
  · refine ⟨id, (Changes.one begun).tail ?_, nofun⟩
    have storedBegun := lookup_insert (a := id) (b := ({ row with
      status := (Entry.starting entry conditions.now).status, phase := .running } : Row)) queue.rows
    have waiting : (Entry.waiting (Entry.starting entry conditions.now)).status.installId = id :=
      pending.entryId
    rw [writeStatus_of_found (by rw [waiting]; exact storedBegun), waiting]
    refine .back rfl (lookup_insert _) storedBegun ⟨rfl, rfl, rfl⟩ pending.notDone lease
      retained rfl fun keys other member => ?_
    have before := ordered keys
    rw [Ordered, first] at before
    obtain ⟨left, right, keyLeft, keyRight, less⟩ := (pairwise_cons.mp before).1 other member
    exact ⟨left, right, (keyOf_insert storedRow rfl id).trans keyLeft,
      (keyOf_insert storedRow rfl other).trans keyRight, less⟩
  · refine ⟨id, (Changes.one begun).tail (.edit (lookup_insert _) ⟨rfl, rfl, rfl⟩ rfl
      (fun elsewhere => absurd rfl elsewhere) (fun done => ?_) fun still => ?_), nofun⟩
    · cases pending.notDone.symm.trans done
    · obtain ⟨_, _, _, _, _, _, left⟩ := active
      exact absurd still left

/-! ### Progress, completion and retention -/

/-- What the worker of the active install edits. -/
theorem edit_active (active : queue.active = some id) {entry next : Entry}
    (found : queue.entries.lookup id = some entry) (keeps : Keeps entry next)
    (done : next.status.done = entry.status.done) :
    Change care queue id (queue.setEntry id next) := by
  obtain ⟨_, _, again, _, pending, _, left⟩ := coherent.of_active active
  rw [found] at again
  cases again
  refine .edit found keeps done (fun elsewhere => absurd active elsewhere) (fun was => ?_)
    fun waits => absurd waits left
  cases pending.notDone.symm.trans was

theorem progress_changes (active : queue.active = some id) (event : DownloadProgress) :
    Changes care queue id (progress id event queue) := by
  unfold progress
  split
  · exact .refl
  obtain ⟨entry, _, found, _⟩ := coherent.of_active active
  simp only [found]
  split
  · exact .refl
  · exact .one (edit_active coherent active found ⟨rfl, rfl, rfl⟩ rfl)

/-- `complete` settles the active install, or leaves it active. -/
theorem complete_changes (active : queue.active = some id) (outcome : InstallOutcome)
    (error : Option InstallError) (stored : Bool) :
    Changes care queue id (complete id outcome error stored queue).1 ∧
      (complete id outcome error stored queue).1.active =
        if (complete id outcome error stored queue).2 then none else some id := by
  obtain ⟨entry, row, found, storedRow, pending, _⟩ := coherent.of_active active
  have named : (Entry.completed entry outcome error).status.installId = id := pending.entryId
  unfold complete
  simp only [found]
  rw [if_neg (by rw [pending.notDone]; exact Bool.false_ne_true)]
  split
  · exact ⟨.one (edit_active coherent active found ⟨rfl, rfl, rfl⟩ rfl), active⟩
  · rw [writeStatus_of_found (by rw [named]; exact storedRow), named]
    exact ⟨.one (.finish active found storedRow ⟨rfl, rfl, rfl⟩ rfl rfl rfl), rfl⟩

end

theorem complete_done (outcome : InstallOutcome) (error : Option InstallError) (stored : Bool)
    (settled : (complete id outcome error stored queue).2 = true) :
    ∃ entry, (complete id outcome error stored queue).1.entries.lookup id = some entry ∧
      entry.status.done = true := by
  unfold complete at settled ⊢
  split at settled
  · cases settled
  rename_i entry found
  split at settled
  · rename_i done
    simp only [done, if_true]
    exact ⟨entry, found, done⟩
  rename_i pending
  split at settled
  · cases settled
  rename_i saved
  simp only [if_neg pending, if_neg saved]
  exact ⟨_, lookup_insert _, rfl⟩

theorem retainLease_changes (coherent : queue.Coherent) (active : queue.active = some id)
    (lease : Lease) : Changes care queue id (retainLease id lease queue) := by
  obtain ⟨entry, _, found, _⟩ := coherent.of_active active
  unfold retainLease
  simp only [found]
  exact .one (edit_active coherent active found ⟨rfl, rfl, rfl⟩ rfl)

theorem retainUnsettled_changes (coherent : queue.Coherent) (active : queue.active = some id)
    (retained : RetainedInstall) (stored : Bool) :
    Changes care queue id (retainUnsettled id retained stored queue) := by
  obtain ⟨entry, _, found, _, pending, _⟩ := coherent.of_active active
  unfold retainUnsettled
  simp only [found]
  have edited : Change care queue id (queue.setEntry id { entry with
      status := InstallStatus.unsettled entry.status, retained := some retained }) :=
    edit_active coherent active found ⟨rfl, rfl, rfl⟩ rfl
  exact (Changes.one edited).trans (tryWriteStatus_changes (coherent.change edited) stored active
    pending.entryId pending.notDone (.inr rfl))

/-! ### Recovery -/

theorem claimNative_changes (flags : care.flags)
    (claimed : claimNative id queue = .ok (some after)) :
    Changes care queue id after ∧ after.active = queue.active ∧ queue.active = some id ∧
      (∃ entry, queue.entries.lookup id = some entry ∧ entry.recoveryRunning = false) ∧
        ∃ entry, after.entries.lookup id = some entry ∧ entry.recoveryRunning = true := by
  unfold claimNative at claimed
  cases found : queue.entries.lookup id with
  | none =>
    rw [found] at claimed
    cases claimed
  | some entry =>
    simp only [found] at claimed
    split at claimed
    · cases claimed
    simp only [ite_throw_eq_ok] at claimed
    obtain ⟨here, free, _, _, claimed⟩ := claimed
    cases claimed
    rw [not_or, not_not] at here
    exact ⟨.one (.flag found flags), rfl, here.1, ⟨entry, rfl, by simpa using free⟩,
      _, lookup_insert _, rfl⟩

section

variable (coherent : queue.Coherent)

include coherent

theorem claimContent_changes (flags : care.flags) (active : queue.active = some id)
    (claimed : claimContent id queue = .ok after) :
    Changes care queue id after ∧ after.active = queue.active ∧
      (∃ entry, queue.entries.lookup id = some entry ∧ entry.recoveryRunning = false) ∧
        ∃ entry, after.entries.lookup id = some entry ∧ entry.recoveryRunning = true := by
  obtain ⟨entry, _, found, _⟩ := coherent.of_active active
  unfold claimContent at claimed
  simp only [found, ite_throw_eq_ok] at claimed
  obtain ⟨free, claimed⟩ := claimed
  cases claimed
  have flagged : Change care queue id (queue.setEntry id { entry with recoveryRunning := true }) :=
    .flag found flags
  have edited : Change care (queue.setEntry id { entry with recoveryRunning := true }) id
      ((queue.setEntry id { entry with recoveryRunning := true }).setEntry id { entry with
        recoveryRunning := true
        status := { entry.status with
          viewModel := .starting
          revision := nextRevision entry.status.revision } }) :=
    edit_active (coherent.change flagged) active (lookup_insert _) ⟨rfl, rfl, rfl⟩ rfl
  rw [setEntry, setEntry, insert_insert] at edited
  exact ⟨(Changes.one flagged).tail edited, rfl, ⟨entry, found, by simpa using free⟩, _,
    lookup_insert _, rfl⟩

theorem takeRetained_changes (active : queue.active = some id) :
    Changes care queue id (takeRetained id queue) := by
  obtain ⟨entry, _, found, _⟩ := coherent.of_active active
  unfold takeRetained
  simp only [found]
  exact .one (edit_active coherent active found ⟨rfl, rfl, rfl⟩ rfl)

theorem requeueRecovered_changes (active : queue.active = some id)
    (first : care.keys → ∀ other ∈ queue.queued, queue.Earlier id other)
    (requeued : requeueRecovered id stored queue = .ok after) :
    Changes care queue id after ∧ after.active = none := by
  obtain ⟨entry, row, found, storedRow, pending, _⟩ := coherent.of_active active
  unfold requeueRecovered at requeued
  simp only [found, ite_throw_eq_ok] at requeued
  obtain ⟨_, requeued⟩ := requeued
  cases requeued
  have named : (InstallStatus.requeued entry.status).installId = id := pending.entryId
  rw [writeStatus_of_found (by rw [named]; exact storedRow), named]
  have keeps : Keeps entry { entry with
      status := InstallStatus.requeued entry.status, recoveryLease := none, retained := none } :=
    ⟨rfl, rfl, rfl⟩
  exact ⟨.one (.back active found storedRow keeps pending.notDone rfl rfl rfl first), rfl⟩

/-- `recovery_finished`, of an install that is settled, is done, or is still active. -/
theorem recoveryFinished_changes (flags : care.flags) {settled stored : Bool}
    (known : settled = true ∨
      (∃ entry, queue.entries.lookup id = some entry ∧ entry.status.done = true) ∨
        queue.active = some id) :
    Changes care queue id (recoveryFinished id settled stored queue) ∧
      (recoveryFinished id settled stored queue).active = queue.active := by
  unfold recoveryFinished
  cases found : queue.entries.lookup id with
  | none => exact ⟨.refl, rfl⟩
  | some entry =>
    simp only
    have flagged : Change care queue id
        (queue.setEntry id { entry with recoveryRunning := false }) := .flag found flags
    split
    · exact ⟨.one flagged, rfl⟩
    · rename_i unsettled
      rw [not_or] at unsettled
      have active : queue.active = some id := by
        rcases known with yes | ⟨again, foundAgain, done⟩ | active
        · exact absurd yes unsettled.1
        · rw [found] at foundAgain
          cases foundAgain
          exact absurd done unsettled.2
        · exact active
      have notDone : entry.status.done = false := by simpa using unsettled.2
      obtain ⟨_, _, again, _, pending, _⟩ := coherent.of_active active
      rw [found] at again
      cases again
      have edited : Change care (queue.setEntry id { entry with recoveryRunning := false }) id
          ((queue.setEntry id { entry with recoveryRunning := false }).setEntry id { entry with
            recoveryRunning := false, status := InstallStatus.unsettled entry.status }) :=
        edit_active (coherent.change flagged) active (lookup_insert _) ⟨rfl, rfl, rfl⟩ rfl
      have both := (Changes.one flagged).tail edited
      rw [setEntry, setEntry, insert_insert] at both
      have named : (InstallStatus.unsettled entry.status).installId = id := pending.entryId
      exact ⟨both.trans (tryWriteStatus_changes (coherent.changes both) stored active named notDone
        (.inr rfl)), (tryWriteStatus_places _ _ _ _).active⟩

end

/-! ### What leaves the active slot alone -/

theorem admitLocked_active
    (admitted : admitLocked libraries now closing stored admission queue = .ok (after, name)) :
    after.active = queue.active := by
  unfold admitLocked at admitted
  simp only [guard_eq_ok, bind_eq_ok] at admitted
  obtain ⟨_, _, _, admitted⟩ := admitted
  split at admitted
  · unfold admitExisting at admitted
    simp only [guard_eq_ok, pure_eq_ok, Prod.mk.injEq] at admitted
    obtain ⟨_, _, rfl, _⟩ := admitted
    show InstallQueue.active (if _ then _ else _) = _
    split <;> rfl
  · unfold admitNew at admitted
    simp only [guard_eq_ok, pure_eq_ok, Prod.mk.injEq] at admitted
    obtain ⟨_, _, rfl, _⟩ := admitted
    rfl

theorem removeQueued_active (removed : removeQueued id stored queue = .ok after) :
    after.active = queue.active := by
  unfold removeQueued at removed
  simp only [guard_eq_ok] at removed
  obtain ⟨_, _, removed⟩ := removed
  split at removed
  · cases removed
  · simp only [guard_eq_ok, pure_eq_ok] at removed
    obtain ⟨_, rfl⟩ := removed
    exact (writeStatus_places _ _ _).active

theorem cancel_places (cancelled : cancel id queue = .ok after) : SamePlaces queue after := by
  unfold cancel at cancelled
  split at cancelled
  · cases cancelled
  · split at cancelled
    · cases cancelled
    · cases cancelled
      exact ⟨rfl, rfl, rfl⟩

theorem progress_places (event : DownloadProgress) :
    SamePlaces queue (progress id event queue) := by
  unfold progress
  split
  · exact .refl queue
  dsimp only
  split
  · exact .refl queue
  · split <;> exact ⟨rfl, rfl, rfl⟩

theorem retainLease_places (lease : Lease) : SamePlaces queue (retainLease id lease queue) := by
  unfold retainLease
  split <;> exact ⟨rfl, rfl, rfl⟩

theorem retainUnsettled_places (retained : RetainedInstall) (stored : Bool) :
    SamePlaces queue (retainUnsettled id retained stored queue) := by
  unfold retainUnsettled
  split
  · exact .refl queue
  · exact (setEntry_places _ _ _).trans (tryWriteStatus_places _ _ _ _)

theorem takeRetained_places : SamePlaces queue (takeRetained id queue) := by
  unfold takeRetained
  split <;> exact ⟨rfl, rfl, rfl⟩

theorem claimNative_places (claimed : claimNative id queue = .ok (some after)) :
    SamePlaces queue after := by
  unfold claimNative at claimed
  split at claimed
  · cases claimed
  split at claimed
  · cases claimed
  simp only [ite_throw_eq_ok] at claimed
  obtain ⟨_, _, _, _, claimed⟩ := claimed
  cases claimed
  exact ⟨rfl, rfl, rfl⟩

theorem claimContent_places (claimed : claimContent id queue = .ok after) :
    SamePlaces queue after := by
  unfold claimContent at claimed
  split at claimed
  · cases claimed
  · simp only [ite_throw_eq_ok] at claimed
    obtain ⟨_, claimed⟩ := claimed
    cases claimed
    exact ⟨rfl, rfl, rfl⟩

theorem recoveryFinished_places (settled stored : Bool) :
    SamePlaces queue (recoveryFinished id settled stored queue) := by
  unfold recoveryFinished
  split
  · exact .refl queue
  split
  · exact ⟨rfl, rfl, rfl⟩
  · exact (setEntry_places _ _ _).trans (tryWriteStatus_places _ _ _ _)

/-! ### What stays, in any state -/

/-- Every entry has a row. -/
def Backed (queue : InstallQueue) : Prop :=
  ∀ id, queue.rows.lookup id = none → queue.entries.lookup id = none

/-- Entries and rows stay, and what is done stays done. -/
structure Extends (queue after : InstallQueue) : Prop where
  entries : queue.Backed → ∀ id entry, queue.entries.lookup id = some entry →
    ∃ next, after.entries.lookup id = some next ∧
      (entry.status.done = true → next.status.done = true)
  backed : queue.Backed → after.Backed

namespace Extends

variable {last : InstallQueue} {entry next : Entry}

theorem of_eq (entries : after.entries = queue.entries) (rows : after.rows = queue.rows) :
    Extends queue after where
  entries _ id entry found := ⟨entry, by rw [entries]; exact found, fun was => was⟩
  backed backed id := by
    rw [entries, rows]
    exact backed id

theorem refl (queue : InstallQueue) : Extends queue queue := of_eq rfl rfl

theorem trans (first : Extends queue after) (second : Extends after last) :
    Extends queue last where
  entries backed id entry found := by
    obtain ⟨middle, there, done⟩ := first.entries backed id entry found
    obtain ⟨next, here, still⟩ := second.entries (first.backed backed) id middle there
    exact ⟨next, here, fun was => still (done was)⟩
  backed backed := second.backed (first.backed backed)

theorem setEntry (found : queue.entries.lookup id = some entry)
    (done : entry.status.done = true → next.status.done = true) :
    Extends queue (queue.setEntry id next) where
  entries _ other before there := by
    by_cases same : other = id
    · subst same
      cases found.symm.trans there
      exact ⟨next, lookup_insert _, done⟩
    · exact ⟨before, (lookup_insert_ne same).trans there, fun was => was⟩
  backed backed other missing := by
    have absent := backed other missing
    have different : other ≠ id := by
      rintro rfl
      cases found.symm.trans absent
    exact (lookup_insert_ne different).trans absent

/-- A row is written over one that is there. -/
theorem insertRow {replaced : Row} (stored : queue.rows.lookup id = some replaced) :
    Extends queue { queue with rows := queue.rows.insert id row } where
  entries _ _ entry found := ⟨entry, found, fun was => was⟩
  backed backed other missing := by
    by_cases same : other = id
    · subst same
      cases (lookup_insert queue.rows).symm.trans missing
    · exact backed other ((lookup_insert_ne same).symm.trans missing)

theorem writeStatus (status : InstallStatus) (phase : RowPhase) :
    Extends queue (queue.writeStatus status phase) := by
  unfold InstallQueue.writeStatus
  split
  · exact refl queue
  · rename_i stored
    exact insertRow stored

theorem tryWriteStatus (stored : Bool) (status : InstallStatus) (phase : RowPhase) :
    Extends queue (queue.tryWriteStatus stored status phase) := by
  unfold InstallQueue.tryWriteStatus
  split
  · exact writeStatus status phase
  · exact refl queue

/-- A status is written, and the entry with it. -/
theorem save (found : queue.entries.lookup id = some entry)
    (done : entry.status.done = true → next.status.done = true) :
    Extends queue ((queue.writeStatus status phase).setEntry id next) := by
  have same : (queue.writeStatus status phase).entries = queue.entries := by
    unfold InstallQueue.writeStatus
    split <;> rfl
  exact (writeStatus status phase).trans (setEntry (by rw [same]; exact found) done)

end Extends

theorem bringForward_extends : Extends queue (queue.bringForward id) := by
  have moved {rows : AList fun _ : String => Row} (extends_ : Extends queue { queue with rows }) :
      Extends queue { queue with
        rows, queued := id :: queue.queued.filter fun other => other ≠ id } :=
    extends_.trans (.of_eq rfl rfl)
  unfold bringForward
  cases stored : queue.rows.lookup id with
  | none => exact moved (.refl queue)
  | some row =>
    cases queue.minAccepted with
    | none => exact moved (.refl queue)
    | some least => exact moved (.insertRow stored)

theorem admitLocked_extends
    (admitted : admitLocked libraries now closing stored admission queue = .ok (after, name)) :
    Extends queue after := by
  unfold admitLocked at admitted
  simp only [guard_eq_ok, bind_eq_ok] at admitted
  obtain ⟨_, _, _, admitted⟩ := admitted
  split at admitted
  · rename_i id existing found
    unfold admitExisting at admitted
    simp only [guard_eq_ok, pure_eq_ok, Prod.mk.injEq] at admitted
    obtain ⟨_, _, rfl, _⟩ := admitted
    have there := (findPending_eq_some found).1
    split
    · exact bringForward_extends.trans (.setEntry there fun was => was)
    · exact .setEntry there fun was => was
  · unfold admitNew at admitted
    simp only [guard_eq_ok, pure_eq_ok, Prod.mk.injEq] at admitted
    obtain ⟨_, saved, rfl, _⟩ := admitted
    rw [not_or] at saved
    have unstored := Option.not_isSome_iff_eq_none.mp saved.2
    refine ⟨fun backed other entry found => ?_, fun backed other missing => ?_⟩
    · have different : other ≠ admission.id := by
        rintro rfl
        cases (backed _ unstored).symm.trans found
      exact ⟨entry, (lookup_insert_ne different).trans found, fun was => was⟩
    · by_cases same : other = admission.id
      · subst same
        cases (lookup_insert queue.rows).symm.trans missing
      · exact (lookup_insert_ne same).trans
          (backed other ((lookup_insert_ne same).symm.trans missing))

theorem removeQueued_extends (removed : removeQueued id stored queue = .ok after) :
    Extends queue after := by
  unfold removeQueued at removed
  simp only [guard_eq_ok] at removed
  obtain ⟨_, _, removed⟩ := removed
  split at removed
  · cases removed
  · rename_i entry found
    simp only [guard_eq_ok, pure_eq_ok] at removed
    obtain ⟨_, rfl⟩ := removed
    exact (Extends.save found fun _ => rfl).trans (.of_eq rfl rfl)

theorem cancel_extends (cancelled : cancel id queue = .ok after) : Extends queue after := by
  unfold cancel at cancelled
  split at cancelled
  · cases cancelled
  · rename_i entry found
    split at cancelled
    · cases cancelled
    · cases cancelled
      exact .setEntry found fun was => was

theorem startNext_extends (conditions : StartConditions) :
    Extends queue (startNext conditions queue).1 := by
  unfold startNext
  split
  · exact .refl queue
  split
  · exact .refl queue
  rename_i id rest _
  cases found : queue.entries.lookup id with
  | none => exact .refl queue
  | some entry =>
    dsimp only
    split
    · exact .refl queue
    split
    · exact .refl queue
    split
    · exact .setEntry found fun was => was
    have begun : Extends queue { (queue.writeStatus (Entry.starting entry conditions.now).status
        .running).setEntry id (Entry.starting entry conditions.now) with
          active := some id, queued := rest } := by
      refine (Extends.save found ?_).trans (.of_eq rfl rfl)
      exact fun was => was
    split
    · exact begun
    split
    · refine begun.trans ((Extends.save (lookup_insert _) ?_).trans (.of_eq rfl rfl))
      exact fun was => was
    · exact begun.trans (.setEntry (lookup_insert _) fun was => was)

theorem progress_extends (event : DownloadProgress) :
    Extends queue (progress id event queue) := by
  unfold progress
  split
  · exact .refl queue
  cases found : queue.entries.lookup id with
  | none => exact .refl queue
  | some entry =>
    dsimp only
    split
    · exact .refl queue
    · exact .setEntry found fun was => was

theorem complete_extends (outcome : InstallOutcome) (error : Option InstallError) (stored : Bool) :
    Extends queue (complete id outcome error stored queue).1 := by
  unfold complete
  cases found : queue.entries.lookup id with
  | none => exact .refl queue
  | some entry =>
    dsimp only
    split
    · exact .refl queue
    split
    · exact .setEntry found fun was => was
    · exact (Extends.save found fun _ => rfl).trans (.of_eq rfl rfl)

theorem retainLease_extends (lease : Lease) : Extends queue (retainLease id lease queue) := by
  unfold retainLease
  cases found : queue.entries.lookup id with
  | none => exact .refl queue
  | some entry => exact .setEntry found fun was => was

theorem retainUnsettled_extends (retained : RetainedInstall) (stored : Bool) :
    Extends queue (retainUnsettled id retained stored queue) := by
  unfold retainUnsettled
  cases found : queue.entries.lookup id with
  | none => exact .refl queue
  | some entry =>
    refine Extends.trans (.setEntry found ?_) (.tryWriteStatus _ _ _)
    exact fun was => was

theorem takeRetained_extends : Extends queue (takeRetained id queue) := by
  unfold takeRetained
  cases found : queue.entries.lookup id with
  | none => exact .refl queue
  | some entry => exact .setEntry found fun was => was

theorem claimNative_extends (claimed : claimNative id queue = .ok (some after)) :
    Extends queue after := by
  unfold claimNative at claimed
  cases found : queue.entries.lookup id with
  | none =>
    rw [found] at claimed
    cases claimed
  | some entry =>
    rw [found] at claimed
    dsimp only at claimed
    split at claimed
    · cases claimed
    simp only [ite_throw_eq_ok] at claimed
    obtain ⟨_, _, _, _, claimed⟩ := claimed
    cases claimed
    exact .setEntry found fun was => was

theorem claimContent_extends (claimed : claimContent id queue = .ok after) :
    Extends queue after := by
  unfold claimContent at claimed
  cases found : queue.entries.lookup id with
  | none =>
    rw [found] at claimed
    cases claimed
  | some entry =>
    rw [found] at claimed
    simp only [ite_throw_eq_ok] at claimed
    obtain ⟨_, claimed⟩ := claimed
    cases claimed
    exact .setEntry found fun was => was

theorem requeueRecovered_extends (requeued : requeueRecovered id stored queue = .ok after) :
    Extends queue after := by
  unfold requeueRecovered at requeued
  cases found : queue.entries.lookup id with
  | none =>
    rw [found] at requeued
    cases requeued
  | some entry =>
    rw [found] at requeued
    simp only [ite_throw_eq_ok] at requeued
    obtain ⟨_, requeued⟩ := requeued
    cases requeued
    refine (Extends.save found ?_).trans (.of_eq rfl rfl)
    exact fun was => was

theorem recoveryFinished_extends (settled stored : Bool) :
    Extends queue (recoveryFinished id settled stored queue) := by
  unfold recoveryFinished
  cases found : queue.entries.lookup id with
  | none => exact .refl queue
  | some entry =>
    dsimp only
    split
    · exact .setEntry found fun was => was
    · refine Extends.trans (.setEntry found ?_) (.tryWriteStatus _ _ _)
      exact fun was => was

end Axial.Install.InstallQueue
