/-
This file lets the operations of the install queue interleave. A system is a queue with
the tasks that work on its installs, each at a point where it does not hold the lock; an
action is what one critical section does, or a crash with a restart. What the rest of the
code relies on is that a recovery is claimed only for the install in the active slot, and
after the worker of that install is through; under this condition the queue is coherent in
all that can be reached.
-/

import Axial.Install.Restart

namespace Axial.Install

open InstallQueue Relation Multiset

/-! ### Tasks and actions -/

/-- Who works on an install. -/
inductive Worker where
  | installer (content : Bool)
  | contentRecovery
  | nativeRecovery
  deriving DecidableEq

/-- A task between two critical sections. -/
inductive Task where
  /-- `recover_content` after its first section. -/
  | checked (id : String) (claim : ContentClaim)
  /-- A recovery that has yet to take the retained work. -/
  | fetching (id : String) (lease : Lease)
  | working (worker : Worker) (id : String) (lease : Lease)
  /-- `retain_work` before its first section. -/
  | retaining (worker : Worker) (id : String) (lease : Lease) (retained : RetainedInstall)
  /-- Before `retain_unsettled`. -/
  | unsettling (worker : Worker) (id : String) (retained : RetainedInstall)
  /-- The content recovery has been joined, or it panicked; its status is read next. -/
  | returned (id : String) (joined : Bool)
  /-- Before `recovery_finished`. -/
  | finishing (id : String) (settled : Bool)
  deriving DecidableEq

/-- What a task does next. What its work comes to is not decided here. -/
inductive Move where
  /-- A pending setup was found, or the database could not be read. -/
  | drop
  | claim (spawned : Bool)
  | take
  | report (event : DownloadProgress)
  | complete (outcome : InstallOutcome) (error : Option InstallError) (stored : Bool)
  | leave (retained : RetainedInstall)
  /-- The work panics. -/
  | abort
  | requeue (stored : Bool)
  | retain
  | settle (stored : Bool)
  | read
  | finish (stored : Bool)

inductive Action where
  /-- An enqueue of setup work admits twice with nothing in between. -/
  | admits (libraries : InstanceLibraries) (now : Int) (closing stored : Bool)
      (admission : Admission)
  | remove (id : String) (stored : Bool)
  | cancel (id : String)
  | closeAdmission
  | start (conditions : StartConditions)
  | check (id : String)
  | claimNative (id : String) (spawned : Bool)
  | move (task : Task) (move : Move)
  | restart (library : Option GenerationPin) (acquired : Bool)

structure System where
  queue : InstallQueue
  tasks : Multiset Task

/-- What is left of a worker that is through, or that panicked. -/
def Worker.afterwards (id : String) (settled joined : Bool) : Worker → Multiset Task
  | .installer _ => 0
  | .contentRecovery => {.returned id joined}
  | .nativeRecovery => {.finishing id settled}

/-- Work that could not be settled is given up. -/
def Worker.giveUp (worker : Worker) (id : String) (lease : Lease) (retained : RetainedInstall) :
    Task :=
  match worker with
  | .nativeRecovery => .unsettling worker id retained
  | _ => .retaining worker id lease retained

/-- What is kept of an outcome that could not be persisted. -/
def Worker.keeps (outcome : InstallOutcome) (error : Option InstallError) :
    Worker → RetainedInstall
  | .installer content => if content then .content (some (outcome, error)) else .retry
  | .contentRecovery => .content (some (outcome, error))
  | .nativeRecovery => .retry

def InstallQueue.isDone (queue : InstallQueue) (id : String) : Bool :=
  (queue.entries.lookup id).any fun entry => entry.status.done

/-- A critical section of a task, and the tasks that it leaves. -/
def Task.move (queue : InstallQueue) : Task → Move → Option (InstallQueue × Multiset Task)
  | .checked _ _, .drop => some (queue, 0)
  | .checked id claim, .claim spawned =>
    match claimContent id queue with
    | .error _ => some (queue, 0)
    | .ok after =>
      some (after, {if spawned then .working .contentRecovery id claim.lease
        else .finishing id false})
  | .fetching id lease, .take =>
    some (takeRetained id queue, {.working .nativeRecovery id lease})
  | .working worker id lease, .report event =>
    some (InstallQueue.progress id event queue, {.working worker id lease})
  | .working worker id lease, .complete outcome error stored =>
    let completed := InstallQueue.complete id outcome error stored queue
    some (completed.1,
      if completed.2 then worker.afterwards id true true
      else {worker.giveUp id lease (worker.keeps outcome error)})
  | .working worker id lease, .leave retained => some (queue, {worker.giveUp id lease retained})
  | .working worker id _, .abort => some (queue, worker.afterwards id false false)
  | .working .nativeRecovery id _, .requeue stored =>
    match requeueRecovered id stored queue with
    | .error _ => some (queue, {.finishing id false})
    | .ok after => some (after, {.finishing id true})
  | .retaining worker id lease retained, .retain =>
    some (retainLease id lease queue, {.unsettling worker id retained})
  | .unsettling worker id retained, .settle stored =>
    some (retainUnsettled id retained stored queue, worker.afterwards id false true)
  | .returned id joined, .read => some (queue, {.finishing id (joined && queue.isDone id)})
  | .finishing id settled, .finish stored => some (recoveryFinished id settled stored queue, 0)
  | _, _ => none

def System.perform (system : System) : Action → Option System
  | .admits libraries now closing stored admission =>
    match admitLocked libraries now closing stored admission system.queue with
    | .error _ => none
    | .ok (queue, _) => some { system with queue }
  | .remove id stored =>
    match removeQueued id stored system.queue with
    | .error _ => none
    | .ok queue => some { system with queue }
  | .cancel id =>
    match InstallQueue.cancel id system.queue with
    | .error _ => none
    | .ok queue => some { system with queue }
  | .closeAdmission => some { system with queue := { system.queue with closed := true } }
  | .start conditions =>
    let (queue, started) := startNext conditions system.queue
    match started with
    | none => some { system with queue }
    | some started =>
      some ⟨queue, .working (.installer started.content) started.id started.lease ::ₘ system.tasks⟩
  | .check id =>
    if (system.queue.entries.lookup id).any fun entry => entry.request.isContent then
      match checkContent id system.queue with
      | .error _ => none
      | .ok claim => some { system with tasks := .checked id claim ::ₘ system.tasks }
    else none
  | .claimNative id spawned =>
    match InstallQueue.claimNative id system.queue with
    | .error _ | .ok none => none
    | .ok (some queue) =>
      let lease := ((system.queue.entries.lookup id).bind Entry.recoveryLease).getD []
      some ⟨queue, (if spawned then .fetching id lease else .finishing id false) ::ₘ system.tasks⟩
  | .move task move =>
    if task ∈ system.tasks then
      (task.move system.queue move).map fun (queue, tasks) =>
        ⟨queue, tasks + system.tasks.erase task⟩
    else none
  | .restart library acquired =>
    match InstallQueue.new library acquired system.queue with
    | .error _ => none
    | .ok queue => some ⟨queue, 0⟩

/-! ### Runs -/

/-- Nothing has been admitted yet. -/
def System.fresh : System where
  queue := { queued := [], active := none, entries := ∅, closed := false, rows := ∅ }
  tasks := 0

/-- The install that a task may still complete or retain. -/
def Task.works : Task → Option String
  | .fetching id _ | .working _ id _ | .retaining _ id _ _ | .unsettling _ id _ => some id
  | _ => none

/-- An install may be claimed for a recovery if it is active and nobody works on it. -/
def System.Free (system : System) (id : String) : Prop :=
  system.queue.active = some id ∧ id ∉ system.tasks.filterMap Task.works

/-- What an action relies on. -/
def System.Orderly (care : Care) (system : System) : Action → Prop
  | .admits _ now _ _ admission => care.keys → system.queue.InTime now admission
  | .start conditions => care.labels → conditions.storedRunning = true
  | .claimNative id _ =>
    (∃ after, InstallQueue.claimNative id system.queue = .ok (some after)) → system.Free id
  | .move (.checked id _) (.claim _) =>
    (∃ after, claimContent id system.queue = .ok after) → system.Free id
  | .move (.working .nativeRecovery id _) (.requeue _) =>
    care.keys → ∀ other ∈ system.queue.queued, system.queue.Earlier id other
  | _ => True

/-- A step of the system that meets the conditions. -/
def System.Step (care : Care) (before after : System) : Prop :=
  ∃ action, before.Orderly care action ∧ before.perform action = some after

/-- A run of such steps. -/
abbrev System.Run (care : Care) : System → System → Prop := ReflTransGen (System.Step care)

/-! ### Duties -/

/-- The install that a task recovers, up to `recovery_finished`. -/
def Task.recovers : Task → Option String
  | .working (.installer _) _ _ | .retaining (.installer _) _ _ _
  | .unsettling (.installer _) _ _ | .checked _ _ => none
  | .fetching id _ | .working _ id _ | .retaining _ id _ _ | .unsettling _ id _ | .returned id _
  | .finishing id _ => some id

/-- The install whose recovery ended without settling it. -/
def Task.ends : Task → Option String
  | .returned id _ | .finishing id false => some id
  | _ => none

variable {task : Task}

theorem Task.recovers_of_ends {id : String} (ends : task.ends = some id) :
    task.recovers = some id := by
  cases task with
  | returned => exact ends
  | finishing other settled =>
    cases settled with
    | true => cases ends
    | false => exact ends
  | _ => cases ends

def InstallQueue.Recovering (queue : InstallQueue) (id : String) : Prop :=
  ∃ entry, queue.entries.lookup id = some entry ∧ entry.recoveryRunning = true

/-- What the tasks owe to a queue: those that work do so on the active install, one at most;
recoveries are flagged and not doubled; one that ended leaves its install done or active. -/
structure Duties (queue : InstallQueue) (workers recoveries ended : Multiset String) : Prop where
  works : ∀ id ∈ workers, queue.active = some id
  single : workers.card ≤ 1
  distinct : recoveries.Nodup
  running : ∀ id ∈ recoveries, queue.Recovering id
  ends : ∀ id ∈ ended, queue.isDone id = true ∨ (queue.active = some id ∧ workers = 0)

namespace Duties

variable {queue after : InstallQueue} {workers recoveries ended : Multiset String} {id : String}

section

variable (duties : Duties queue (id ::ₘ workers) recoveries ended)

include duties

theorem idle : workers = 0 := by
  have single := duties.single
  rw [card_cons] at single
  exact card_eq_zero.mp (by omega)

theorem active :
    queue.active = some id := duties.works id (mem_cons_self _ _)

theorem done {other : String} (member : other ∈ ended) : queue.isDone other = true := by
  rcases duties.ends other member with done | ⟨_, none⟩
  · exact done
  · exact absurd none (cons_ne_zero)

end

/-- A queue may change where it keeps what is done and flagged, and the active install. -/
theorem transfer (duties : Duties queue workers recoveries ended)
    (done : ∀ other, queue.isDone other = true → after.isDone other = true)
    (running : ∀ other ∈ recoveries, queue.Recovering other → after.Recovering other)
    (same : after.active = queue.active) : Duties after workers recoveries ended where
  works other member := same.trans (duties.works other member)
  single := duties.single
  distinct := duties.distinct
  running other member := running other member (duties.running other member)
  ends other member := (duties.ends other member).imp (done other) fun both =>
    ⟨same.trans both.1, both.2⟩

/-- The active install may leave its slot when its worker is through. -/
theorem vacate (duties : Duties queue (id ::ₘ workers) recoveries ended)
    (done : ∀ other, queue.isDone other = true → after.isDone other = true)
    (running : ∀ other ∈ recoveries, queue.Recovering other → after.Recovering other) :
    Duties after workers recoveries ended where
  works other member := by
    rw [duties.idle] at member
    cases notMem_zero _ member
  single := by
    rw [duties.idle]
    exact Nat.zero_le 1
  distinct := duties.distinct
  running other member := running other member (duties.running other member)
  ends other member := .inl (done other (duties.done member))

/-- A worker may end. -/
theorem stop (duties : Duties queue (id ::ₘ workers) recoveries ended) :
    Duties queue workers recoveries (id ::ₘ ended) where
  works other member := duties.works other (mem_cons_of_mem member)
  single := (card_le_card (le_cons_self _ _)).trans duties.single
  distinct := duties.distinct
  running := duties.running
  ends other member := by
    rcases mem_cons.mp member with rfl | before
    · exact .inr ⟨duties.active, duties.idle⟩
    · exact .inl (duties.done before)

theorem forget (duties : Duties queue workers recoveries (id ::ₘ ended)) :
    Duties queue workers recoveries ended :=
  { duties with ends := fun other member => duties.ends other (mem_cons_of_mem member) }

theorem unflag (duties : Duties queue workers (id ::ₘ recoveries) ended) :
    Duties queue workers recoveries ended :=
  { duties with
    distinct := (nodup_cons.mp duties.distinct).2
    running := fun other member => duties.running other (mem_cons_of_mem member) }

section

variable (duties : Duties queue workers recoveries ended)

include duties

theorem owe (done : queue.isDone id = true) : Duties queue workers recoveries (id ::ₘ ended) :=
  { duties with
    ends := fun other member => by
      rcases mem_cons.mp member with rfl | before
      · exact .inl done
      · exact duties.ends other before }

/-- A recovery may begin on the active install when nobody works on it. -/
theorem begin (within : ∀ other ∈ ended, other ∈ recoveries) (free : id ∉ workers)
    (active : queue.active = some id) (unflagged : ¬ queue.Recovering id)
    (done : ∀ other, queue.isDone other = true → after.isDone other = true)
    (running : ∀ other, queue.Recovering other → after.Recovering other)
    (flagged : after.Recovering id) (same : after.active = queue.active) :
    Duties after (id ::ₘ workers) (id ::ₘ recoveries) ended := by
  have none : workers = 0 := by
    refine eq_zero_of_forall_notMem fun other member => ?_
    have again := (duties.works other member).symm.trans active
    rw [Option.some_inj] at again
    exact free (again ▸ member)
  have fresh : id ∉ recoveries := fun member => unflagged (duties.running id member)
  refine ⟨?_, ?_, nodup_cons.mpr ⟨fresh, duties.distinct⟩, ?_, ?_⟩
  · intro other member
    rw [none] at member
    rw [mem_singleton.mp member]
    exact same.trans active
  · rw [none]
    exact le_rfl
  · intro other member
    rcases mem_cons.mp member with rfl | before
    · exact flagged
    · exact running other (duties.running other before)
  · intro other member
    rcases duties.ends other member with was | ⟨here, _⟩
    · exact .inl (done other was)
    · have again := here.symm.trans active
      rw [Option.some_inj] at again
      exact absurd (within other member) (again ▸ fresh)

theorem vacant (empty : queue.active = none) : workers = 0 := by
  refine eq_zero_of_forall_notMem fun other member => ?_
  cases empty.symm.trans (duties.works other member)

/-- From an empty slot an install may be started, with or without a worker. -/
theorem start (empty : queue.active = none)
    (done : ∀ other, queue.isDone other = true → after.isDone other = true)
    (running : ∀ other, queue.Recovering other → after.Recovering other) :
    Duties after workers recoveries ended ∧
      (after.active = some id → Duties after (id ::ₘ workers) recoveries ended) := by
  have finished : ∀ other ∈ ended, after.isDone other = true := by
    intro other member
    rcases duties.ends other member with was | ⟨active, _⟩
    · exact done other was
    · cases empty.symm.trans active
  have flagged : ∀ other ∈ recoveries, after.Recovering other :=
    fun other member => running other (duties.running other member)
  have none := duties.vacant empty
  rw [none]
  refine ⟨⟨fun other member => absurd member (notMem_zero other), Nat.zero_le 1,
    duties.distinct, flagged, fun other member => .inl (finished other member)⟩, fun active =>
    ⟨fun other member => ?_, le_rfl, duties.distinct, flagged,
      fun other member => .inl (finished other member)⟩⟩
  rw [mem_singleton.mp member]
  exact active

end

end Duties

/-- The tasks keep their duties. -/
def Owes (queue : InstallQueue) (tasks : Multiset Task) : Prop :=
  Duties queue (tasks.filterMap Task.works) (tasks.filterMap Task.recovers)
    (tasks.filterMap Task.ends)

structure System.Coherent (system : System) : Prop where
  queue : system.queue.Coherent
  owes : Owes system.queue system.tasks

section Tasks

variable {queue after : InstallQueue} {rest : Multiset Task} {id : String} {worker : Worker}

def Worker.recovered (id : String) : Worker → Multiset String
  | .installer _ => 0
  | _ => {id}

/-- What a queue owes while a worker is at an install beside other tasks. -/
abbrev OwesWith (queue : InstallQueue) (worker : Worker) (id : String) (rest : Multiset Task) :
    Prop :=
  Duties queue (id ::ₘ rest.filterMap Task.works)
    (worker.recovered id + rest.filterMap Task.recovers) (rest.filterMap Task.ends)

/-- A task that works, in numbers. -/
theorem owes_worker {task : Task} (works : task.works = some id) (ends : task.ends = none)
    (recovers : task.recovers = none ∧ worker.recovered id = 0 ∨
      task.recovers = some id ∧ worker.recovered id = {id}) :
    Owes queue (task ::ₘ rest) ↔ OwesWith queue worker id rest := by
  unfold Owes
  rw [filterMap_cons_some _ _ _ works, filterMap_cons_none _ _ ends]
  rcases recovers with ⟨none, zero⟩ | ⟨some, one⟩
  · rw [filterMap_cons_none _ _ none, OwesWith, zero, zero_add]
  · rw [filterMap_cons_some _ _ _ some, OwesWith, one, singleton_add]

variable {lease : Lease}

theorem owes_working :
    Owes queue (.working worker id lease ::ₘ rest) ↔ OwesWith queue worker id rest := by
  cases worker with
  | installer => exact owes_worker rfl rfl (.inl ⟨rfl, rfl⟩)
  | contentRecovery | nativeRecovery => exact owes_worker rfl rfl (.inr ⟨rfl, rfl⟩)

variable {retained : RetainedInstall}

theorem owes_retaining :
    Owes queue (.retaining worker id lease retained ::ₘ rest) ↔ OwesWith queue worker id rest := by
  cases worker with
  | installer => exact owes_worker rfl rfl (.inl ⟨rfl, rfl⟩)
  | contentRecovery | nativeRecovery => exact owes_worker rfl rfl (.inr ⟨rfl, rfl⟩)

theorem owes_unsettling :
    Owes queue (.unsettling worker id retained ::ₘ rest) ↔ OwesWith queue worker id rest := by
  cases worker with
  | installer => exact owes_worker rfl rfl (.inl ⟨rfl, rfl⟩)
  | contentRecovery | nativeRecovery => exact owes_worker rfl rfl (.inr ⟨rfl, rfl⟩)

theorem owes_giveUp :
    Owes queue ({worker.giveUp id lease retained} + rest) ↔ OwesWith queue worker id rest := by
  rw [singleton_add]
  cases worker with
  | installer | contentRecovery => exact owes_retaining
  | nativeRecovery => exact owes_unsettling

theorem owes_checked {claim : ContentClaim} :
    Owes queue (.checked id claim ::ₘ rest) ↔ Owes queue rest := by
  unfold Owes
  rw [filterMap_cons_none (f := Task.works) _ _ rfl,
    filterMap_cons_none (f := Task.recovers) _ _ rfl,
    filterMap_cons_none (f := Task.ends) _ _ rfl]

theorem owes_fetching : Owes queue (.fetching id lease ::ₘ rest) ↔
    Duties queue (id ::ₘ rest.filterMap Task.works) (id ::ₘ rest.filterMap Task.recovers)
      (rest.filterMap Task.ends) := by
  rw [← singleton_add id (rest.filterMap Task.recovers)]
  exact @owes_worker queue rest id .nativeRecovery _ rfl rfl (.inr ⟨rfl, rfl⟩)

theorem recovers_of_ended {tasks : Multiset Task} (other : String)
    (ended : other ∈ tasks.filterMap Task.ends) : other ∈ tasks.filterMap Task.recovers := by
  obtain ⟨task, member, ends⟩ := (mem_filterMap _ _).mp ended
  exact (mem_filterMap _ _).mpr ⟨task, member, Task.recovers_of_ends ends⟩

/-- A recovery that ended without settling its install. -/
theorem owes_ended {task : Task} (works : task.works = none) (ends : task.ends = some id) :
    Owes queue (task ::ₘ rest) ↔
      Duties queue (rest.filterMap Task.works) (id ::ₘ rest.filterMap Task.recovers)
        (id ::ₘ rest.filterMap Task.ends) := by
  unfold Owes
  rw [filterMap_cons_none _ _ works, filterMap_cons_some _ _ _ (Task.recovers_of_ends ends),
    filterMap_cons_some _ _ _ ends]

theorem owes_settled : Owes queue (.finishing id true ::ₘ rest) ↔
    Duties queue (rest.filterMap Task.works) (id ::ₘ rest.filterMap Task.recovers)
      (rest.filterMap Task.ends) := by
  unfold Owes
  rw [filterMap_cons_none (f := Task.works) _ _ rfl,
    filterMap_cons_some Task.recovers _ _ rfl,
    filterMap_cons_none (f := Task.ends) _ _ rfl]

/-- What is left of a worker that is through. -/
theorem owes_afterwards {settled : Bool} (duties : Duties queue (rest.filterMap Task.works)
    (worker.recovered id + rest.filterMap Task.recovers) (id ::ₘ rest.filterMap Task.ends)) :
    Owes queue (worker.afterwards id settled joined + rest) := by
  cases worker with
  | installer =>
    refine (zero_add rest).symm ▸ ?_
    unfold Worker.recovered at duties
    rw [zero_add] at duties
    exact duties.forget
  | contentRecovery =>
    unfold Worker.recovered at duties
    rw [singleton_add] at duties
    exact singleton_add _ _ ▸ (owes_ended rfl rfl).mpr duties
  | nativeRecovery =>
    unfold Worker.recovered at duties
    rw [singleton_add] at duties
    refine singleton_add _ _ ▸ ?_
    cases settled with
    | true => exact owes_settled.mpr duties.forget
    | false => exact (owes_ended rfl rfl).mpr duties

end Tasks

/-! ### Steps -/

section Steps

variable {queue after : InstallQueue} {rest : Multiset Task} {id : String} {care : Care}

theorem InstallQueue.isDone_iff : queue.isDone id = true ↔
    ∃ entry, queue.entries.lookup id = some entry ∧ entry.status.done = true :=
  Option.any_eq_true _ _

section

variable (changes : Changes care queue id after)

include changes

theorem InstallQueue.Changes.isDone (coherent : queue.Coherent) (other : String)
    (done : queue.isDone other = true) : after.isDone other = true := by
  rw [isDone_iff] at done ⊢
  obtain ⟨entry, found, was⟩ := done
  obtain ⟨next, there, _, still⟩ := changes.entry coherent found
  exact ⟨next, there, still was⟩

theorem InstallQueue.Changes.recovering (coherent : queue.Coherent) (kept : ¬ care.flags)
    (other : String) (flagged : queue.Recovering other) : after.Recovering other := by
  obtain ⟨entry, found, running⟩ := flagged
  obtain ⟨next, there, same, _⟩ := changes.entry coherent found
  exact ⟨next, there, (same kept).trans running⟩

theorem InstallQueue.Changes.recovering_of_flagged (flagged : after.Recovering id) (other : String)
    (before : queue.Recovering other) : after.Recovering other := by
  by_cases same : other = id
  · rw [same]
    exact flagged
  · obtain ⟨entry, found, running⟩ := before
    exact ⟨entry, (changes.others same).1.trans found, running⟩

variable {recoveries workers ended : Multiset String}

theorem InstallQueue.Changes.recovering_of_distinct
    (duties : Duties queue workers (id ::ₘ recoveries) ended) (other : String)
    (member : other ∈ recoveries) (before : queue.Recovering other) : after.Recovering other := by
  have different : other ≠ id := by
    rintro rfl
    exact (nodup_cons.mp duties.distinct).1 member
  obtain ⟨entry, found, running⟩ := before
  exact ⟨entry, (changes.others different).1.trans found, running⟩

end

/-- The same care, whether recoveries may begin and end or not. -/
abbrev InstallQueue.Care.flagging (care : Care) (flags : Prop) : Care := { care with flags }

/-- Changes that flag nothing, and leave the active slot alone, leave all duties as they are. -/
theorem Duties.changes (duties : Duties queue workers recoveries ended) (coherent : queue.Coherent)
    (changes : Changes (care.flagging False) queue id after) (active : after.active = queue.active)
    : Duties after workers recoveries ended :=
  duties.transfer (changes.isDone coherent)
    (fun other _ => changes.recovering coherent not_false other) active

/-- What a task does is made of changes of one install, and the duties are kept. -/
theorem Task.move_coherent {move : Move} {next : Multiset Task} (coherent : queue.Coherent)
    (owes : Owes queue (task ::ₘ rest))
    (orderly : System.Orderly care ⟨queue, task ::ₘ rest⟩ (.move task move))
    (moved : task.move queue move = some (after, next)) :
    (∃ id, Changes (care.flagging True) queue id after) ∧ Owes after (next + rest) := by
  unfold Task.move at moved
  split at moved
  case h_1 =>
    cases moved
    exact ⟨⟨"", .refl⟩, (zero_add rest).symm ▸ owes_checked.mp owes⟩
  case h_2 id claim spawned =>
    have duties := owes_checked.mp owes
    cases claimed : claimContent id queue with
    | error =>
      rw [claimed] at moved
      cases moved
      exact ⟨⟨"", .refl⟩, (zero_add rest).symm ▸ duties⟩
    | ok after =>
      rw [claimed] at moved
      cases moved
      obtain ⟨active, free⟩ := orderly ⟨after, claimed⟩
      rw [filterMap_cons_none (f := Task.works) _ _ rfl] at free
      obtain ⟨changes, same, ⟨entry, found, idle⟩, flagged⟩ :=
        @claimContent_changes queue after id (care.flagging True) coherent trivial active claimed
      have begun := duties.begin recovers_of_ended free active (fun ⟨again, foundAgain, running⟩ => by
          cases found.symm.trans foundAgain
          cases idle.symm.trans running)
        (changes.isDone coherent) (changes.recovering_of_flagged flagged) flagged same
      refine ⟨⟨id, changes⟩, (singleton_add _ rest).symm ▸ ?_⟩
      cases spawned with
      | true => exact owes_working.mpr begun
      | false => exact (owes_ended rfl rfl).mpr begun.stop
  case h_3 id lease =>
    cases moved
    have duties := owes_fetching.mp owes
    have changes (flags : Prop) :
        Changes (care.flagging flags) queue id (takeRetained id queue) :=
      takeRetained_changes coherent duties.active
    refine ⟨⟨id, changes True⟩, (singleton_add _ rest).symm ▸ owes_working.mpr ?_⟩
    exact duties.changes coherent (changes False) takeRetained_places.active
  case h_4 worker id lease event =>
    cases moved
    have duties := owes_working.mp owes
    have changes (flags : Prop) :
        Changes (care.flagging flags) queue id (InstallQueue.progress id event queue) :=
      progress_changes coherent duties.active event
    refine ⟨⟨id, changes True⟩, (singleton_add _ rest).symm ▸ owes_working.mpr ?_⟩
    exact duties.changes coherent (changes False) (progress_places event).active
  case h_5 worker id lease outcome error stored =>
    cases moved
    have duties := owes_working.mp owes
    have changes (flags : Prop) := @complete_changes queue id (care.flagging flags) coherent
      duties.active outcome error stored
    refine ⟨⟨id, (changes True).1⟩, ?_⟩
    obtain ⟨changed, active⟩ := changes False
    split
    · rename_i settled
      have done := isDone_iff.mpr (complete_done outcome error stored settled)
      exact owes_afterwards ((duties.vacate (changed.isDone coherent) fun other _ =>
        changed.recovering coherent not_false other).owe done)
    · rename_i unsettled
      rw [if_neg unsettled] at active
      exact owes_giveUp.mpr (duties.changes coherent changed (active.trans duties.active.symm))
  case h_6 worker id lease retained =>
    cases moved
    exact ⟨⟨"", .refl⟩, owes_giveUp.mpr (owes_working.mp owes)⟩
  case h_7 worker id lease =>
    cases moved
    exact ⟨⟨"", .refl⟩, owes_afterwards (owes_working.mp owes).stop⟩
  case h_8 id lease stored =>
    have duties := owes_working.mp owes
    cases requeued : requeueRecovered id stored queue with
    | error =>
      rw [requeued] at moved
      cases moved
      exact ⟨⟨"", .refl⟩, (singleton_add _ rest).symm ▸ (owes_ended rfl rfl).mpr duties.stop⟩
    | ok after =>
      rw [requeued] at moved
      cases moved
      have changes (flags : Prop) : Changes (care.flagging flags) queue id after ∧ _ :=
        requeueRecovered_changes coherent duties.active orderly requeued
      refine ⟨⟨id, (changes True).1⟩, (singleton_add _ rest).symm ▸ owes_settled.mpr ?_⟩
      have changed := (changes False).1
      have vacated := duties.vacate (changed.isDone coherent) fun other _ =>
        changed.recovering coherent not_false other
      exact vacated
  case h_9 worker id lease retained =>
    cases moved
    have duties := owes_retaining.mp owes
    have changes (flags : Prop) :
        Changes (care.flagging flags) queue id (retainLease id lease queue) :=
      retainLease_changes coherent duties.active lease
    refine ⟨⟨id, changes True⟩, (singleton_add _ rest).symm ▸ owes_unsettling.mpr ?_⟩
    exact duties.changes coherent (changes False) (retainLease_places lease).active
  case h_10 worker id retained stored =>
    cases moved
    have duties := owes_unsettling.mp owes
    have changes (flags : Prop) :
        Changes (care.flagging flags) queue id (retainUnsettled id retained stored queue) :=
      retainUnsettled_changes coherent duties.active retained stored
    exact ⟨⟨id, changes True⟩,
      owes_afterwards (duties.changes coherent (changes False) (retainUnsettled_places retained stored).active).stop⟩
  case h_11 id joined =>
    cases moved
    have duties := (owes_ended rfl rfl).mp owes
    refine ⟨⟨"", .refl⟩, (singleton_add _ rest).symm ▸ ?_⟩
    cases joined && queue.isDone id with
    | true => exact owes_settled.mpr duties.forget
    | false => exact (owes_ended rfl rfl).mpr duties
  case h_12 id settled stored =>
    cases moved
    cases settled with
    | true =>
      have duties := owes_settled.mp owes
      obtain ⟨changes, active⟩ :=
        @recoveryFinished_changes queue id (care.flagging True) coherent trivial true stored
          (.inl rfl)
      exact ⟨⟨id, changes⟩, (zero_add rest).symm ▸
        duties.unflag.transfer (changes.isDone coherent) (changes.recovering_of_distinct duties)
          active⟩
    | false =>
      have duties := (owes_ended rfl rfl).mp owes
      obtain ⟨changes, active⟩ :=
        @recoveryFinished_changes queue id (care.flagging True) coherent trivial false stored
          (.inr ((duties.ends id (mem_cons_self _ _)).imp isDone_iff.mp And.left))
      exact ⟨⟨id, changes⟩, (zero_add rest).symm ▸
        duties.unflag.forget.transfer (changes.isDone coherent)
          (changes.recovering_of_distinct duties) active⟩
  case h_13 => cases moved

theorem Owes.changes (owes : Owes queue rest) (coherent : queue.Coherent)
    (changes : Changes (care.flagging False) queue id after)
    (active : after.active = queue.active) : Owes after rest :=
  Duties.changes owes coherent changes active

end Steps

namespace System

variable {care : Care} {system after : System}

/-- What an action does to a queue is made of changes of one install, or is a restart, and the
system stays coherent. -/
theorem Coherent.perform (coherent : system.Coherent)
    (ordered : care.keys → system.queue.Ordered) {action : Action}
    (orderly : system.Orderly care action) (performed : system.perform action = some after) :
    after.Coherent ∧
      ((∃ id, Changes (care.flagging True) system.queue id after.queue) ∨
        ∃ library acquired, InstallQueue.new library acquired system.queue = .ok after.queue) := by
  have kept {queue : InstallQueue}
      (changes : ∀ flags, ∃ id, Changes (care.flagging flags) system.queue id queue)
      (active : queue.active = system.queue.active) :
      Coherent { system with queue } ∧
        ((∃ id, Changes (care.flagging True) system.queue id queue) ∨
          ∃ library acquired, InstallQueue.new library acquired system.queue = .ok queue) := by
    obtain ⟨id, flagging⟩ := changes True
    obtain ⟨_, flagless⟩ := changes False
    exact ⟨⟨coherent.queue.changes flagging, coherent.owes.changes coherent.queue flagless active⟩,
      .inl ⟨id, flagging⟩⟩
  cases action with
  | admits libraries now closing stored admission =>
    simp only [System.perform] at performed
    split at performed
    · cases performed
    · rename_i queue name admitted
      cases performed
      exact kept (fun flags => admitLocked_changes coherent.queue orderly admitted)
        (admitLocked_active admitted)
  | remove id stored =>
    simp only [System.perform] at performed
    split at performed
    · cases performed
    · rename_i queue removed
      cases performed
      exact kept (fun flags => ⟨id, removeQueued_changes coherent.queue removed⟩)
        (removeQueued_active removed)
  | cancel id =>
    simp only [System.perform] at performed
    split at performed
    · cases performed
    · rename_i queue cancelled
      cases performed
      exact kept (fun flags => ⟨id, cancel_changes cancelled⟩) (cancel_places cancelled).active
  | closeAdmission =>
    cases performed
    exact kept (fun flags => ⟨"", .one .close⟩) rfl
  | start conditions =>
    have changes (flags : Prop) := @startNext_changes system.queue (care.flagging flags)
      coherent.queue conditions orderly ordered
    cases busy : system.queue.active.isSome with
    | true =>
      simp only [System.perform, startNext_of_active conditions busy] at performed
      cases performed
      exact ⟨coherent, .inl ⟨"", .refl⟩⟩
    | false =>
      have empty : system.queue.active = none := Option.not_isSome_iff_eq_none.mp (by
        rw [busy]
        exact Bool.false_ne_true)
      obtain ⟨id, flagging, _⟩ := changes True
      obtain ⟨_, flagless, started⟩ := changes False
      have later := coherent.queue.changes flagging
      have duties (name : String) := @Duties.start _ _ _ _ _ name coherent.owes empty
        (flagless.isDone coherent.queue) (flagless.recovering coherent.queue not_false)
      simp only [System.perform] at performed
      split at performed
      · cases performed
        exact ⟨⟨later, (duties "").1⟩, .inl ⟨id, flagging⟩⟩
      · rename_i start begun
        cases performed
        refine ⟨⟨later, owes_working.mpr ?_⟩, .inl ⟨id, flagging⟩⟩
        rw [OwesWith, Worker.recovered, zero_add]
        exact (duties start.id).2 (started start begun).2
  | check id =>
    simp only [System.perform] at performed
    split at performed
    · split at performed
      · cases performed
      · cases performed
        exact ⟨⟨coherent.queue, owes_checked.mpr coherent.owes⟩, .inl ⟨"", .refl⟩⟩
    · cases performed
  | claimNative id spawned =>
    simp only [System.perform] at performed
    split at performed
    · cases performed
    · cases performed
    · rename_i queue claimed
      cases performed
      obtain ⟨active, free⟩ := orderly ⟨queue, claimed⟩
      obtain ⟨changes, same, _, ⟨entry, found, idle⟩, flagged⟩ :=
        @claimNative_changes system.queue queue id (care.flagging True) trivial claimed
      have begun := Duties.begin coherent.owes recovers_of_ended free active
        (fun ⟨again, foundAgain, running⟩ => by
          cases found.symm.trans foundAgain
          cases idle.symm.trans running)
        (changes.isDone coherent.queue) (changes.recovering_of_flagged flagged) flagged same
      refine ⟨⟨coherent.queue.changes changes, ?_⟩, .inl ⟨id, changes⟩⟩
      cases spawned with
      | true => exact owes_fetching.mpr begun
      | false => exact (owes_ended rfl rfl).mpr begun.stop
  | move task move =>
    simp only [System.perform] at performed
    split at performed
    · rename_i member
      obtain ⟨⟨queue, tasks⟩, moved, rfl⟩ := Option.map_eq_some_iff.mp performed
      have split : system.tasks = task ::ₘ system.tasks.erase task :=
        (cons_erase member).symm
      have owes := coherent.owes
      rw [split] at owes
      have same : system = ⟨system.queue, task ::ₘ system.tasks.erase task⟩ := by
        rw [← split]
      rw [same] at orderly
      obtain ⟨⟨id, changes⟩, owed⟩ := Task.move_coherent coherent.queue owes orderly moved
      exact ⟨⟨coherent.queue.changes changes, owed⟩, .inl ⟨id, changes⟩⟩
    · cases performed
  | restart library acquired =>
    simp only [System.perform] at performed
    split at performed
    · cases performed
    · rename_i queue built
      cases performed
      refine ⟨⟨coherent.queue.new built, ?_⟩, .inr ⟨library, acquired, built⟩⟩
      exact ⟨fun id member => absurd member (notMem_zero id), Nat.zero_le 1,
        nodup_zero, fun id member => absurd member (notMem_zero id),
        fun id member => absurd member (notMem_zero id)⟩

end System

end Axial.Install
