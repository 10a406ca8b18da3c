/-
This file says how an install goes through the queue: it enters and waits, works in
the active slot, may be put back, and settles for good. A queue is coherent if its
entry, its row and its place agree for every install, and the few changes that lead
from one stage to the next keep it so. What a change has to take care of beyond
that, for the order of the rows or for the shown phases, is a parameter.
-/

import Axial.Install.Queue

namespace Axial.Install

open InstallQueue List Option AList

namespace InstallQueue

variable {row : Row} {status : InstallStatus}

theorem writeStatus_of_found {queue : InstallQueue}
    (found : queue.rows.lookup status.installId = some row) (phase : RowPhase) :
    queue.writeStatus status phase =
      { queue with rows := queue.rows.insert status.installId { row with status, phase } } := by
  unfold writeStatus
  rw [found]

/-! ### Standings -/

/-- The entry and the row of an install that is not done. -/
structure Pending (id : String) (entry : Entry) (row : Row) : Prop where
  notDone : entry.status.done = false
  rowNotDone : row.status.done = false
  entryId : entry.status.installId = id
  rowId : row.status.installId = id
  request : entry.request = row.request

/-- An install is nowhere in the queue. -/
def Gone (queue : InstallQueue) (id : String) : Prop :=
  id ∉ queue.queued ∧ queue.active ≠ some id

/-- How the entry and the row of an install go with its place in the queue. -/
inductive Standing (queue : InstallQueue) (id : String) : Option Entry → Option Row → Prop
  | absent (gone : queue.Gone id) : Standing queue id none none
  | past {row : Row} (gone : queue.Gone id) (terminal : row.phase = .terminal) :
    Standing queue id none (some row)
  | settled {entry : Entry} {row : Row} (gone : queue.Gone id) (terminal : row.phase = .terminal)
    (done : entry.status.done = true) (status : entry.status = row.status)
    (lease : entry.recoveryLease = none) (retained : entry.retained = none) :
    Standing queue id (some entry) (some row)
  | waiting {entry : Entry} {row : Row} (waits : id ∈ queue.queued) (idle : queue.active ≠ some id)
    (phase : row.phase = .queued) (pending : Pending id entry row)
    (lease : entry.recoveryLease = none) (retained : entry.retained = none) :
    Standing queue id (some entry) (some row)
  | working {entry : Entry} {row : Row} (works : queue.active = some id) (left : id ∉ queue.queued)
    (phase : row.phase = .running ∨ row.phase = .settlementRequired)
    (pending : Pending id entry row) : Standing queue id (some entry) (some row)

/-- How many installs are not done. -/
def occupied (queue : InstallQueue) : Nat :=
  queue.queued.length + if queue.active.isSome then 1 else 0

structure Coherent (queue : InstallQueue) : Prop where
  standing : ∀ id, Standing queue id (queue.entries.lookup id) (queue.rows.lookup id)
  distinct : queue.queued.Nodup
  requests : ∀ {first second : String} {left right : Entry},
    queue.entries.lookup first = some left → queue.entries.lookup second = some right →
      left.status.done = false → right.status.done = false → left.request = right.request →
        first = second
  capacity : queue.occupied ≤ maxInstalls

variable {queue after : InstallQueue} {id : String}

/-- An install that has been put stands as what was put. -/
theorem standing_put {next : Entry} {row : Row} (put : Standing after id (some next) (some row)) :
    Standing after id ((queue.entries.insert id next).lookup id)
      ((queue.rows.insert id row).lookup id) := by
  rwa [lookup_insert, lookup_insert]

theorem Standing.congr {entry : Option Entry} {row : Option Row}
    (standing : Standing queue id entry row)
    (waits : id ∈ after.queued ↔ id ∈ queue.queued)
    (works : after.active = some id ↔ queue.active = some id) : Standing after id entry row := by
  have gone : queue.Gone id → after.Gone id := fun both =>
    ⟨fun member => both.1 (waits.mp member), fun active => both.2 (works.mp active)⟩
  cases standing with
  | absent none => exact .absent (gone none)
  | past none terminal => exact .past (gone none) terminal
  | settled none terminal done status lease retained =>
    exact .settled (gone none) terminal done status lease retained
  | waiting member idle phase pending lease retained =>
    exact .waiting (waits.mpr member) (fun active => idle (works.mp active)) phase pending lease
      retained
  | working active left phase pending =>
    exact .working (works.mpr active) (fun member => left (waits.mp member)) phase pending

variable {next : Entry}

namespace Coherent

variable (coherent : queue.Coherent)
include coherent

/-- An install that waits. -/
theorem of_queued (member : id ∈ queue.queued) :
    ∃ entry row, queue.entries.lookup id = some entry ∧ queue.rows.lookup id = some row ∧
      Pending id entry row ∧ row.phase = .queued ∧ entry.recoveryLease = none ∧
        entry.retained = none ∧ queue.active ≠ some id := by
  have standing := coherent.standing id
  generalize queue.entries.lookup id = found, queue.rows.lookup id = stored at standing ⊢
  cases standing with
  | absent gone | past gone _ | settled gone => exact absurd member gone.1
  | waiting _ idle phase pending lease retained =>
    exact ⟨_, _, rfl, rfl, pending, phase, lease, retained, idle⟩
  | working _ left => exact absurd member left

/-- An install that works. -/
theorem of_active (active : queue.active = some id) :
    ∃ entry row, queue.entries.lookup id = some entry ∧ queue.rows.lookup id = some row ∧
      Pending id entry row ∧ (row.phase = .running ∨ row.phase = .settlementRequired) ∧
        id ∉ queue.queued := by
  have standing := coherent.standing id
  generalize queue.entries.lookup id = found, queue.rows.lookup id = stored at standing ⊢
  cases standing with
  | absent gone | past gone _ | settled gone => exact absurd active gone.2
  | waiting _ idle => exact absurd active idle
  | working _ left phase pending => exact ⟨_, _, rfl, rfl, pending, phase, left⟩

/-- An install that is not done has its place. -/
theorem placed {entry : Entry} (found : queue.entries.lookup id = some entry)
    (notDone : entry.status.done = false) :
    (id ∈ queue.queued ∧ queue.active ≠ some id) ∨
      (queue.active = some id ∧ id ∉ queue.queued) := by
  have standing := coherent.standing id
  rw [found] at standing
  generalize queue.rows.lookup id = stored at standing ⊢
  cases standing with
  | settled _ _ done =>
    rw [notDone] at done
    cases done
  | waiting waits idle => exact .inl ⟨waits, idle⟩
  | working works left => exact .inr ⟨works, left⟩

/-- An install that is done. -/
theorem of_done {entry : Entry} (found : queue.entries.lookup id = some entry)
    (done : entry.status.done = true) :
    ∃ row, queue.rows.lookup id = some row ∧ queue.Gone id ∧ row.phase = .terminal ∧
      entry.status = row.status ∧ entry.recoveryLease = none ∧ entry.retained = none := by
  have standing := coherent.standing id
  rw [found] at standing
  generalize queue.rows.lookup id = stored at standing ⊢
  cases standing with
  | settled gone terminal _ status lease retained =>
    exact ⟨_, rfl, gone, terminal, status, lease, retained⟩
  | waiting _ _ _ pending | working _ _ _ pending =>
    rw [pending.notDone] at done
    cases done

/-- An install whose row is terminal. -/
theorem of_terminal (stored : queue.rows.lookup id = some row) (terminal : row.phase = .terminal) :
    queue.Gone id ∧ ∀ entry, queue.entries.lookup id = some entry →
      entry.status.done = true ∧ entry.status = row.status ∧ entry.recoveryLease = none ∧
        entry.retained = none := by
  have standing := coherent.standing id
  rw [stored] at standing
  generalize queue.entries.lookup id = found at standing ⊢
  cases standing with
  | past gone =>
    refine ⟨gone, fun entry same => ?_⟩
    cases same
  | settled gone _ done status lease retained =>
    refine ⟨gone, fun entry same => ?_⟩
    rw [← some_inj.mp same]
    exact ⟨done, status, lease, retained⟩
  | waiting _ _ phase =>
    rw [terminal] at phase
    cases phase
  | working _ _ phase =>
    rw [terminal] at phase
    rcases phase with wrong | wrong <;> cases wrong

/-- An install without a row. -/
theorem unknown (unstored : queue.rows.lookup id = none) : queue.entries.lookup id = none := by
  have standing := coherent.standing id
  rw [unstored] at standing
  generalize queue.entries.lookup id = found at standing ⊢
  cases standing with
  | absent => rfl

/-- What changes at one install only, and is coherent there, is coherent. -/
theorem update
    (entries : ∀ other, other ≠ id → after.entries.lookup other = queue.entries.lookup other)
    (rows : ∀ other, other ≠ id → after.rows.lookup other = queue.rows.lookup other)
    (waits : ∀ other, other ≠ id → (other ∈ after.queued ↔ other ∈ queue.queued))
    (works : ∀ other, other ≠ id → (after.active = some other ↔ queue.active = some other))
    (standing : Standing after id (after.entries.lookup id) (after.rows.lookup id))
    (distinct : after.queued.Nodup) (capacity : after.occupied ≤ maxInstalls)
    (alone : ∀ entry, after.entries.lookup id = some entry → entry.status.done = false →
      ∀ other found, other ≠ id → queue.entries.lookup other = some found →
        found.status.done = false → found.request ≠ entry.request) : after.Coherent where
  standing other := by
    by_cases same : other = id
    · rw [same]
      exact standing
    · rw [entries other same, rows other same]
      exact (coherent.standing other).congr (waits other same) (works other same)
  distinct := distinct
  capacity := capacity
  requests := by
    intro first second left right foundFirst foundSecond notDoneLeft notDoneRight equal
    by_cases isFirst : first = id <;> by_cases isSecond : second = id
    · rw [isFirst, isSecond]
    · rw [isFirst] at foundFirst
      rw [entries second isSecond] at foundSecond
      exact absurd equal.symm
        (alone left foundFirst notDoneLeft second right isSecond foundSecond notDoneRight)
    · rw [isSecond] at foundSecond
      rw [entries first isFirst] at foundFirst
      exact absurd equal
        (alone right foundSecond notDoneRight first left isFirst foundFirst notDoneLeft)
    · rw [entries first isFirst] at foundFirst
      rw [entries second isSecond] at foundSecond
      exact coherent.requests foundFirst foundSecond notDoneLeft notDoneRight equal

/-- An install that keeps its request is alone with it. -/
theorem alone {entry : Entry} (found : queue.entries.lookup id = some entry)
    (notDone : entry.status.done = false) (request : next.request = entry.request) (other : String)
    (right : Entry) (different : other ≠ id) (foundOther : queue.entries.lookup other = some right)
    (pending : right.status.done = false) : right.request ≠ next.request := by
  intro equal
  exact different
    (coherent.requests foundOther found pending notDone (equal.trans request))

end Coherent

/-! ### Changes -/

/-- What changes take care of, besides the standings. -/
structure Care where
  /-- What waits shows that it is queued. -/
  labels : Prop
  /-- The rows are ordered as the queue is. -/
  keys : Prop
  /-- A recovery may begin or end. -/
  flags : Prop

def keyOf (queue : InstallQueue) (id : String) : Option (ℤ ×ₗ ℕ) :=
  (queue.rows.lookup id).map Row.key

/-- The row of an install is ordered before that of another one. -/
def Earlier (queue : InstallQueue) (first second : String) : Prop :=
  ∃ left right, queue.keyOf first = some left ∧ queue.keyOf second = some right ∧ left < right

structure Keeps (entry next : Entry) : Prop where
  request : next.request = entry.request
  installId : next.status.installId = entry.status.installId
  running : next.recoveryRunning = entry.recoveryRunning

/-- Write an entry and a row. -/
def put (queue : InstallQueue) (id : String) (entry : Entry) (row : Row) : InstallQueue :=
  { queue with entries := queue.entries.insert id entry, rows := queue.rows.insert id row }

/-- The changes of one install. -/
inductive Change (care : Care) (queue : InstallQueue) (id : String) : InstallQueue → Prop
  | edit {entry next} (found : queue.entries.lookup id = some entry)
    (keeps : Keeps entry next) (done : next.status.done = entry.status.done)
    (held : queue.active ≠ some id →
      next.recoveryLease = entry.recoveryLease ∧ next.retained = entry.retained)
    (final : entry.status.done = true → next.status = entry.status)
    (label : id ∈ queue.queued →
      next.status.viewModel.phaseId = entry.status.viewModel.phaseId ∨
        (¬care.labels ∧ next.status.viewModel.phaseId = "starting")) :
    Change care queue id (queue.setEntry id next)
  | flag {entry recoveryRunning} (found : queue.entries.lookup id = some entry)
    (allowed : care.flags) : Change care queue id (queue.setEntry id { entry with recoveryRunning })
  | close : Change care queue id { queue with closed := true }
  | record {row status phase}
    (active : queue.active = some id) (stored : queue.rows.lookup id = some row)
    (installId : status.installId = id) (notDone : status.done = false)
    (unsettled : phase = .running ∨ phase = .settlementRequired) :
    Change care queue id
      { queue with rows := queue.rows.insert id { row with status, phase } }
  | enter {entry row queued}
    (unknown : queue.entries.lookup id = none) (unstored : queue.rows.lookup id = none)
    (pending : Pending id entry row) (phase : row.phase = .queued)
    (lease : entry.recoveryLease = none) (retained : entry.retained = none)
    (alone : ∀ other found, queue.entries.lookup other = some found →
      found.status.done = false → found.request ≠ entry.request)
    (room : queue.occupied < maxInstalls)
    (label : entry.status.viewModel.phaseId = "queued")
    (rowLabel : row.status.viewModel.phaseId = "queued")
    (placed : (queued = id :: queue.queued ∧
        (care.keys → ∀ other ∈ queue.queued, ∀ stored, queue.rows.lookup other = some stored →
          row.key < stored.key)) ∨
      (queued = queue.queued ++ [id] ∧
        (care.keys → ∀ other ∈ queue.queued, ∀ stored, queue.rows.lookup other = some stored →
          stored.key < row.key))) :
    Change care queue id { queue.put id entry row with queued }
  | begin {entry next row rest}
    (first : queue.queued = id :: rest) (idle : queue.active = none)
    (found : queue.entries.lookup id = some entry) (stored : queue.rows.lookup id = some row)
    (keeps : Keeps entry next) (notDone : next.status.done = false) :
    Change care queue id
      { queue.put id next { row with status := next.status, phase := .running } with
        active := some id, queued := rest }
  | back {entry next row} (active : queue.active = some id)
    (found : queue.entries.lookup id = some entry) (stored : queue.rows.lookup id = some row)
    (keeps : Keeps entry next) (notDone : next.status.done = false)
    (lease : next.recoveryLease = none) (retained : next.retained = none)
    (label : next.status.viewModel.phaseId = "queued")
    (first : care.keys → ∀ other ∈ queue.queued, queue.Earlier id other) :
    Change care queue id
      { queue.put id next { row with status := next.status, phase := .queued } with
        active := none, queued := id :: queue.queued }
  | withdraw {entry next row} (waits : id ∈ queue.queued)
    (found : queue.entries.lookup id = some entry) (stored : queue.rows.lookup id = some row)
    (keeps : Keeps entry next) (done : next.status.done = true)
    (lease : next.recoveryLease = none) (retained : next.retained = none) :
    Change care queue id
      { queue.put id next { row with status := next.status, phase := .terminal } with
        queued := queue.queued.erase id }
  | finish {entry next row} (active : queue.active = some id)
    (found : queue.entries.lookup id = some entry) (stored : queue.rows.lookup id = some row)
    (keeps : Keeps entry next) (done : next.status.done = true)
    (lease : next.recoveryLease = none) (retained : next.retained = none) :
    Change care queue id
      { queue.put id next { row with status := next.status, phase := .terminal } with
        active := none }
  | front {row acceptedAt} (waits : id ∈ queue.queued)
    (stored : queue.rows.lookup id = some row)
    (first : care.keys → ∀ other ∈ queue.queued, ∀ found, queue.rows.lookup other = some found →
      acceptedAt < found.acceptedAt) :
    Change care queue id
      { queue with
        rows := queue.rows.insert id { row with acceptedAt }
        queued := id :: queue.queued.filter fun other => other ≠ id }

variable {care : Care}

variable {other : String}

namespace Change

section

variable (change : Change care queue id after)

include change

/-- A change leaves the other installs alone. -/
theorem others (different : other ≠ id) :
    after.entries.lookup other = queue.entries.lookup other ∧
      after.rows.lookup other = queue.rows.lookup other := by
  have entries (entry : Entry) : (queue.entries.insert id entry).lookup other =
      queue.entries.lookup other := lookup_insert_ne different
  have rows (row : Row) : (queue.rows.insert id row).lookup other = queue.rows.lookup other :=
    lookup_insert_ne different
  cases change with
  | edit | flag => exact ⟨entries _, rfl⟩
  | close => exact ⟨rfl, rfl⟩
  | record | front => exact ⟨rfl, rows _⟩
  | enter | begin | back | withdraw | finish => exact ⟨entries _, rows _⟩

/-- The other installs keep their places. -/
theorem places (different : other ≠ id) :
    (other ∈ after.queued ↔ other ∈ queue.queued) ∧
      (after.active = some other ↔ queue.active = some other) := by
  have unequal : some id ≠ some other := fun same => different (some_inj.mp same).symm
  cases change with
  | edit | flag | close | record => exact ⟨Iff.rfl, Iff.rfl⟩
  | enter _ _ _ _ _ _ _ _ _ _ placed =>
    refine ⟨?_, Iff.rfl⟩
    rcases placed with ⟨rfl, _⟩ | ⟨rfl, _⟩
    · exact mem_cons.trans (or_iff_right different)
    · exact mem_append.trans (or_iff_left (by simpa using different))
  | begin first idle =>
    refine ⟨?_, ?_⟩
    · rw [first]
      exact (mem_cons.trans (or_iff_right different)).symm
    · rw [idle]
      exact ⟨fun same => absurd same unequal, nofun⟩
  | back active =>
    refine ⟨mem_cons.trans (or_iff_right different), ?_⟩
    rw [active]
    exact ⟨nofun, fun same => absurd same unequal⟩
  | withdraw => exact ⟨mem_erase_of_ne different, Iff.rfl⟩
  | finish active =>
    refine ⟨Iff.rfl, ?_⟩
    rw [active]
    exact ⟨nofun, fun same => absurd same unequal⟩
  | front =>
    refine ⟨(mem_cons.trans (or_iff_right different)).trans ?_, Iff.rfl⟩
    simp [different]

/-- A terminal row stays. -/
theorem terminal (coherent : queue.Coherent) (stored : queue.rows.lookup other = some row)
    (terminal : row.phase = .terminal) : after.rows.lookup other = some row := by
  by_cases same : other = id
  · subst same
    have gone := (coherent.of_terminal stored terminal).1
    cases change with
    | edit | flag | close => exact stored
    | record active | back active | finish active => exact absurd active gone.2
    | enter _ unstored =>
      rw [unstored] at stored
      cases stored
    | begin first =>
      rw [Gone, first] at gone
      exact absurd mem_cons_self gone.1
    | withdraw waits | front waits => exact absurd waits gone.1
  · rw [(change.others same).2]
    exact stored

/-- An entry stays, and unless it may change whether it is being recovered; what is done stays
done. -/
theorem entry {entry : Entry} (found : queue.entries.lookup other = some entry) :
    ∃ next, after.entries.lookup other = some next ∧
      (¬ care.flags → next.recoveryRunning = entry.recoveryRunning) ∧
        (queue.Coherent → entry.status.done = true → next.status.done = true) := by
  by_cases same : other = id
  · subst same
    cases change with
    | edit foundEntry keeps done =>
      rw [found] at foundEntry
      cases foundEntry
      exact ⟨_, lookup_insert _, fun _ => keeps.running, fun _ was => done.trans was⟩
    | flag foundEntry allowed =>
      rw [found] at foundEntry
      cases foundEntry
      exact ⟨_, lookup_insert _, fun forbidden => absurd allowed forbidden, fun _ was => was⟩
    | close | record | front => exact ⟨entry, found, fun _ => rfl, fun _ was => was⟩
    | enter unknown =>
      rw [found] at unknown
      cases unknown
    | begin first _ foundEntry _ keeps =>
      rw [found] at foundEntry
      cases foundEntry
      refine ⟨_, lookup_insert _, fun _ => keeps.running, fun coherent was => ?_⟩
      obtain ⟨_, _, gone, _⟩ := coherent.of_done found was
      rw [Gone, first] at gone
      exact absurd mem_cons_self gone.1
    | back active foundEntry _ keeps =>
      rw [found] at foundEntry
      cases foundEntry
      refine ⟨_, lookup_insert _, fun _ => keeps.running, fun coherent was => ?_⟩
      obtain ⟨_, _, gone, _⟩ := coherent.of_done found was
      exact absurd active gone.2
    | withdraw _ foundEntry _ keeps done | finish _ foundEntry _ keeps done =>
      rw [found] at foundEntry
      cases foundEntry
      exact ⟨_, lookup_insert _, fun _ => keeps.running, fun _ _ => done⟩
  · exact ⟨entry, (change.others same).1.trans found, fun _ => rfl, fun _ was => was⟩

end

end Change

theorem Pending.keeps {entry : Entry} (pending : Pending id entry row) (keeps : Keeps entry next)
    (notDone : next.status.done = false) (phase : RowPhase) :
    Pending id next { row with status := next.status, phase } where
  notDone := notDone
  rowNotDone := notDone
  entryId := keeps.installId.trans pending.entryId
  rowId := keeps.installId.trans pending.entryId
  request := keeps.request.trans pending.request

section

variable (change : Change care queue id after) (coherent : queue.Coherent)

include change coherent

/-- A change leaves the install that it is about well placed. -/
theorem Change.standing : Standing after id (after.entries.lookup id) (after.rows.lookup id) := by
  cases change with
  | @edit entry next found keeps done held final =>
    have same : (queue.setEntry id next).entries.lookup id = some next := lookup_insert _
    have standing := coherent.standing id
    rw [same]
    rw [found] at standing
    show Standing _ id _ (queue.rows.lookup id)
    generalize queue.rows.lookup id = stored at standing ⊢
    cases standing with
    | settled gone terminal was status lease retained =>
      obtain ⟨leaseKept, retainedKept⟩ := held gone.2
      exact .settled gone terminal (done.trans was) ((final was).trans status)
        (leaseKept.trans lease) (retainedKept.trans retained)
    | waiting waits idle phase pending lease retained =>
      obtain ⟨leaseKept, retainedKept⟩ := held idle
      exact .waiting waits idle phase
        ⟨done.trans pending.notDone, pending.rowNotDone, keeps.installId.trans pending.entryId,
          pending.rowId, keeps.request.trans pending.request⟩
        (leaseKept.trans lease) (retainedKept.trans retained)
    | working works left phase pending =>
      exact .working works left phase
        ⟨done.trans pending.notDone, pending.rowNotDone, keeps.installId.trans pending.entryId,
          pending.rowId, keeps.request.trans pending.request⟩
  | @flag entry recoveryRunning found =>
    have same : (queue.setEntry id { entry with recoveryRunning }).entries.lookup id =
        some { entry with recoveryRunning } := lookup_insert _
    have standing := coherent.standing id
    rw [same]
    rw [found] at standing
    show Standing _ id _ (queue.rows.lookup id)
    generalize queue.rows.lookup id = stored at standing ⊢
    cases standing with
    | settled gone terminal was status lease retained =>
      exact .settled gone terminal was status lease retained
    | waiting waits idle phase pending lease retained =>
      exact .waiting waits idle phase ⟨pending.notDone, pending.rowNotDone, pending.entryId,
        pending.rowId, pending.request⟩ lease retained
    | working works left phase pending =>
      exact .working works left phase ⟨pending.notDone, pending.rowNotDone, pending.entryId,
        pending.rowId, pending.request⟩
  | close => exact (coherent.standing id).congr Iff.rfl Iff.rfl
  | @record row status phase active stored installId notDone unsettled =>
    obtain ⟨entry, _, found, storedSame, pending, _, left⟩ := coherent.of_active active
    rw [stored] at storedSame
    cases storedSame
    show Standing _ id (queue.entries.lookup id) ((queue.rows.insert id _).lookup id)
    rw [found, lookup_insert]
    exact .working active left unsettled
      ⟨pending.notDone, notDone, pending.entryId, installId, pending.request⟩
  | enter unknown unstored pending phase lease retained alone room label rowLabel placed =>
    refine standing_put ?_
    have idle : queue.active ≠ some id := by
      intro active
      obtain ⟨_, _, found, _⟩ := coherent.of_active active
      rw [unknown] at found
      cases found
    refine .waiting ?_ idle phase pending lease retained
    rcases placed with ⟨rfl, _⟩ | ⟨rfl, _⟩
    · exact mem_cons_self
    · exact mem_append_right _ mem_cons_self
  | @begin entry next row rest first idle found stored keeps notDone =>
    obtain ⟨_, _, foundSame, storedSame, pending, _⟩ :=
      coherent.of_queued (first ▸ mem_cons_self : id ∈ queue.queued)
    rw [found] at foundSame
    rw [stored] at storedSame
    cases foundSame
    cases storedSame
    refine standing_put ?_
    have distinct := coherent.distinct
    rw [first] at distinct
    exact .working rfl (nodup_cons.mp distinct).1 (.inl rfl)
      (pending.keeps keeps notDone .running)
  | back active found stored keeps notDone lease retained =>
    obtain ⟨_, _, foundSame, storedSame, pending, _⟩ := coherent.of_active active
    rw [found] at foundSame
    rw [stored] at storedSame
    cases foundSame
    cases storedSame
    refine standing_put ?_
    exact .waiting mem_cons_self nofun rfl (pending.keeps keeps notDone .queued) lease retained
  | withdraw waits found stored keeps done lease retained =>
    obtain ⟨_, _, _, _, _, _, _, _, idle⟩ := coherent.of_queued waits
    refine standing_put ?_
    exact .settled ⟨coherent.distinct.not_mem_erase, idle⟩ rfl done rfl lease retained
  | finish active found stored keeps done lease retained =>
    obtain ⟨_, _, _, _, _, _, left⟩ := coherent.of_active active
    refine standing_put ?_
    exact .settled ⟨left, nofun⟩ rfl done rfl lease retained
  | front waits stored =>
    obtain ⟨entry, _, found, storedSame, pending, phase, lease, retained, idle⟩ :=
      coherent.of_queued waits
    rw [stored] at storedSame
    cases storedSame
    show Standing _ id (queue.entries.lookup id) ((queue.rows.insert id _).lookup id)
    rw [found, lookup_insert]
    exact .waiting mem_cons_self idle phase
      ⟨pending.notDone, pending.rowNotDone, pending.entryId, pending.rowId, pending.request⟩
      lease retained

theorem Change.distinct : after.queued.Nodup := by
  have distinct := coherent.distinct
  cases change with
  | edit | flag | close | record | finish => exact distinct
  | enter unknown _ _ _ _ _ _ _ _ _ placed =>
    have fresh : id ∉ queue.queued := by
      intro member
      obtain ⟨_, _, found, _⟩ := coherent.of_queued member
      rw [unknown] at found
      cases found
    rcases placed with ⟨rfl, _⟩ | ⟨rfl, _⟩
    · exact distinct.cons fresh
    · exact List.Nodup.append distinct (nodup_singleton id)
        (disjoint_singleton.mpr fresh)
  | begin first =>
    rw [first] at distinct
    exact distinct.of_cons
  | back active =>
    obtain ⟨_, _, _, _, _, _, left⟩ := coherent.of_active active
    exact distinct.cons left
  | withdraw => exact distinct.erase id
  | front =>
    refine (distinct.filter _).cons fun member => ?_
    have unequal := of_mem_filter member
    simp at unequal

theorem Change.capacity : after.occupied ≤ maxInstalls := by
  have capacity := coherent.capacity
  cases change with
  | edit | flag | close | record => exact capacity
  | @enter entry row queued _ _ _ _ _ _ _ room _ _ placed =>
    have longer : queued.length = queue.queued.length + 1 := by
      rcases placed with ⟨rfl, _⟩ | ⟨rfl, _⟩
      · rfl
      · exact length_append
    have count : InstallQueue.occupied { queue.put id entry row with queued } =
        queue.occupied + 1 := by
      show queued.length + _ = queue.queued.length + _ + 1
      rw [longer]
      exact Nat.add_right_comm _ _ _
    rw [count]
    exact room
  | begin first idle =>
    unfold occupied at capacity ⊢
    rw [first, idle] at capacity
    exact capacity
  | back active =>
    unfold occupied at capacity ⊢
    rw [active] at capacity
    exact capacity
  | withdraw waits =>
    unfold occupied at capacity ⊢
    exact (Nat.add_le_add_right (length_erase_le) _).trans capacity
  | finish active =>
    unfold occupied at capacity ⊢
    exact (Nat.add_le_add_left (Nat.zero_le _) _).trans capacity
  | front waits =>
    unfold occupied at capacity ⊢
    have shorter : (queue.queued.filter fun other => other ≠ id).length < queue.queued.length :=
      length_filter_lt_length_iff_exists.mpr ⟨id, waits, by simp⟩
    exact (Nat.add_le_add_right shorter _).trans capacity

theorem Change.alone (entry : Entry) (found : after.entries.lookup id = some entry)
    (notDone : entry.status.done = false) (other : String) (right : Entry) (different : other ≠ id)
    (foundOther : queue.entries.lookup other = some right) (pending : right.status.done = false) :
    right.request ≠ entry.request := by
  -- The entry of a change that keeps the request was not done before either.
  have kept {before next : Entry} (was : queue.entries.lookup id = some before)
      (keeps : Keeps before next) (wasNotDone : before.status.done = false)
      (now : (queue.entries.insert id next).lookup id = some entry) :
      right.request ≠ entry.request := by
    rw [lookup_insert] at now
    cases now
    exact coherent.alone was wasNotDone keeps.request other right different foundOther pending
  have same (now : queue.entries.lookup id = some entry) : right.request ≠ entry.request :=
    coherent.alone now notDone rfl other right different foundOther pending
  have settled {next : Entry} (done : next.status.done = true)
      (now : (queue.entries.insert id next).lookup id = some entry) :
      right.request ≠ entry.request := by
    rw [lookup_insert] at now
    cases now
    rw [done] at notDone
    cases notDone
  cases change with
  | edit was keeps done =>
    have now := found
    rw [show (queue.setEntry id _).entries.lookup id = _ from lookup_insert _] at now
    cases now
    exact kept was keeps (done.symm.trans notDone) found
  | flag was =>
    have now := found
    rw [show (queue.setEntry id _).entries.lookup id = _ from lookup_insert _] at now
    cases now
    exact coherent.alone was notDone rfl other right different foundOther pending
  | close | record | front => exact same found
  | enter _ _ _ _ _ _ alone =>
    rw [show (queue.put id _ _).entries.lookup id = _ from lookup_insert _] at found
    cases found
    exact alone other right foundOther pending
  | begin first _ was _ keeps =>
    obtain ⟨_, _, again, _, waiting, _⟩ :=
      coherent.of_queued (first ▸ mem_cons_self : id ∈ queue.queued)
    rw [was] at again
    cases again
    exact kept was keeps waiting.notDone found
  | back active was _ keeps =>
    obtain ⟨_, _, again, _, working, _⟩ := coherent.of_active active
    rw [was] at again
    cases again
    exact kept was keeps working.notDone found
  | withdraw _ _ _ _ done | finish _ _ _ _ done => exact settled done found

end

/-! ### Several changes -/

/-- A change keeps a queue coherent. -/
theorem Coherent.change (coherent : queue.Coherent) (change : Change care queue id after) :
    after.Coherent :=
  coherent.update (fun _ different => (change.others different).1)
    (fun _ different => (change.others different).2) (fun _ different => (change.places different).1)
    (fun _ different => (change.places different).2) (change.standing coherent)
    (change.distinct coherent) (change.capacity coherent) (change.alone coherent)

/-- A row keeps its key when its status and its phase change. -/
theorem keyOf_insert (stored : queue.rows.lookup id = some row) {phase : RowPhase}
    (rows : after.rows = queue.rows.insert id { row with status, phase }) (other : String) :
    after.keyOf other = queue.keyOf other := by
  unfold keyOf
  rw [rows]
  by_cases same : other = id
  · rw [same, lookup_insert, stored]
    rfl
  · rw [lookup_insert_ne same]

/-- Several changes of one install. -/
abbrev Changes (care : Care) (queue : InstallQueue) (id : String) : InstallQueue → Prop :=
  Relation.ReflTransGen (fun before after => Change care before id after) queue

theorem Coherent.changes (coherent : queue.Coherent) (changes : Changes care queue id after) :
    after.Coherent :=
  Runs.invariant (fun _ _ change before => before.change change) changes coherent

section

variable (changes : Changes care queue id after)

include changes

theorem Changes.others (different : other ≠ id) :
    after.entries.lookup other = queue.entries.lookup other ∧
      after.rows.lookup other = queue.rows.lookup other := by
  induction changes with
  | refl => exact ⟨rfl, rfl⟩
  | tail _ change ih =>
    exact ⟨(change.others different).1.trans ih.1,
      (change.others different).2.trans ih.2⟩

theorem Changes.terminal (coherent : queue.Coherent) (stored : queue.rows.lookup other = some row)
    (terminal : row.phase = .terminal) : after.rows.lookup other = some row := by
  induction changes with
  | refl => exact stored
  | tail earlier change ih =>
    exact change.terminal (coherent.changes earlier) ih terminal

theorem Changes.entry (coherent : queue.Coherent) {entry : Entry}
    (found : queue.entries.lookup other = some entry) :
    ∃ next, after.entries.lookup other = some next ∧
      (¬ care.flags → next.recoveryRunning = entry.recoveryRunning) ∧
        (entry.status.done = true → next.status.done = true) := by
  induction changes with
  | refl => exact ⟨entry, found, fun _ => rfl, fun was => was⟩
  | tail earlier change ih =>
    obtain ⟨middle, there, running, done⟩ := ih
    obtain ⟨next, here, runningNext, doneNext⟩ := change.entry there
    exact ⟨next, here, fun forbidden => (runningNext forbidden).trans (running forbidden),
      fun was => doneNext (coherent.changes earlier) (done was)⟩

end

end InstallQueue
end Axial.Install
