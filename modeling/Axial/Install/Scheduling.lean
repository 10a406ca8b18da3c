/-
This file follows who starts the next install. Calls of `resume_queued` try to, and where
an install has to wait one of them leaves an observer, which a flag keeps from being
doubled; the observer tries again at every change until there is nothing left to wait
for. Since it clears the flag only some time after it decided to end, a call in between
finds the flag set and leaves nobody; where no call does so, no install is left waiting
without an observer.
-/

import Axial.Install.Guarantees

namespace Axial.Install

open InstallQueue Relation List Option

/-! ### Calls and observers -/

/-- A call of `resume_queued`, by what it does next. -/
inductive Call where
  /-- It calls `start_next`. -/
  | begun
  /-- It looks whether an observer is needed. -/
  | started
  /-- It swaps the flag. -/
  | needed
  /-- It found the flag clear and spawns an observer. -/
  | claimed
  deriving DecidableEq

/-- A scheduling observer, by what it does next. -/
inductive Observer where
  | checking
  | waiting
  | starting
  /-- It has broken out of its loop and clears the flag. -/
  | exiting
  deriving DecidableEq

structure Scheduler where
  system : System
  closing : Bool
  observersClosed : Bool
  scheduling : Bool
  calls : Multiset Call
  observers : Multiset Observer

inductive SchedulerAction where
  | act (action : Action)
  | closeOwner
  | closeObservers
  | resume
  | callStart (conditions : StartConditions)
  | callCheck
  | callSwap
  | callSpawn
  | observe
  | wake
  | observerStart (conditions : StartConditions)
  | clear

/-- Whether a task that does this is one whose join resumes the queue. -/
def Task.resumes (next : Multiset Task) : Task → Move → Bool
  | .finishing _ true, .finish _ => true
  | .working (.installer _) _ _, .abort => false
  | .working (.installer _) _ _, _ | .unsettling (.installer _) _ _, _ => next = 0
  | _, _ => false

namespace Scheduler

variable (scheduler : Scheduler)

/-- The check of an observer, to end. -/
def settles : Bool :=
  scheduler.system.queue.closed || scheduler.closing || scheduler.system.queue.active.isSome ||
    scheduler.system.queue.queued.isEmpty

/-- The check of a call, for an observer. -/
def needsScheduler : Bool :=
  !scheduler.system.queue.closed && scheduler.system.queue.active.isNone &&
    !scheduler.system.queue.queued.isEmpty

/-- The state that `start_next` meets. -/
def conditions (conditions : StartConditions) : StartConditions :=
  { conditions with
    closing := scheduler.closing, observersClosed := scheduler.observersClosed }

/-- The calls and the observers after one of them has done something. -/
def callTo (call : Call) (next : Multiset Call) : Multiset Call :=
  next + scheduler.calls.erase call

def observerTo (observer : Observer) (next : Multiset Observer) : Multiset Observer :=
  next + scheduler.observers.erase observer

/-- What the rest of the code does, besides starting an install. Admissions, ended installers and
finished recoveries resume the queue, and so does the start-up after a restart. -/
def act (action : Action) : Option Scheduler :=
  match action with
  | .start _ => none
  | .admits libraries now _ stored admission =>
    (scheduler.system.perform (.admits libraries now scheduler.closing stored admission)).map
      fun system => { scheduler with system, calls := .begun ::ₘ scheduler.calls }
  | .restart library acquired =>
    (scheduler.system.perform (.restart library acquired)).map fun system =>
      { system
        closing := false
        observersClosed := false
        scheduling := false
        calls := {.begun}
        observers := 0 }
  | .move task move =>
    if task ∈ scheduler.system.tasks then
      (task.move scheduler.system.queue move).map fun (queue, next) =>
        { scheduler with
          system := ⟨queue, next + scheduler.system.tasks.erase task⟩
          calls := if task.resumes next move then .begun ::ₘ scheduler.calls else scheduler.calls }
    else none
  | action => (scheduler.system.perform action).map fun system => { scheduler with system }

def perform : SchedulerAction → Option Scheduler
  | .act action => scheduler.act action
  | .closeOwner => some { scheduler with closing := true }
  | .closeObservers =>
    if scheduler.system.queue.closed then some { scheduler with observersClosed := true } else none
  | .resume => some { scheduler with calls := .begun ::ₘ scheduler.calls }
  | .callStart conditions =>
    if .begun ∈ scheduler.calls then
      (scheduler.system.perform (.start (scheduler.conditions conditions))).map fun system =>
        { scheduler with system, calls := scheduler.callTo .begun {.started} }
    else none
  | .callCheck =>
    if .started ∈ scheduler.calls then
      some { scheduler with
        calls := scheduler.callTo .started (if scheduler.needsScheduler then {.needed} else 0) }
    else none
  | .callSwap =>
    if .needed ∈ scheduler.calls then
      some { scheduler with
        scheduling := true
        calls := scheduler.callTo .needed (if scheduler.scheduling then 0 else {.claimed}) }
    else none
  | .callSpawn =>
    if .claimed ∈ scheduler.calls then
      if scheduler.observersClosed then
        some { scheduler with scheduling := false, calls := scheduler.callTo .claimed 0 }
      else
        some { scheduler with
          calls := scheduler.callTo .claimed 0, observers := .checking ::ₘ scheduler.observers }
    else none
  | .observe =>
    if .checking ∈ scheduler.observers then
      some { scheduler with
        observers := scheduler.observerTo .checking
          (if scheduler.settles then {.exiting} else {.waiting}) }
    else none
  | .wake =>
    if .waiting ∈ scheduler.observers then
      some { scheduler with observers := scheduler.observerTo .waiting {.starting} }
    else none
  | .observerStart conditions =>
    if .starting ∈ scheduler.observers then
      (scheduler.system.perform (.start (scheduler.conditions conditions))).map fun system =>
        { scheduler with system, observers := scheduler.observerTo .starting {.checking} }
    else none
  | .clear =>
    if .exiting ∈ scheduler.observers then
      some { scheduler with
        scheduling := false, observers := scheduler.observerTo .exiting 0 }
    else none

end Scheduler

/-! ### What leaves the queue idle -/

/-- Installs wait and none is active. -/
def InstallQueue.Idle (queue : InstallQueue) : Prop := queue.queued ≠ [] ∧ queue.active = none

/-- A recovery is being joined that will resume the queue. -/
def Rejoining (queue : InstallQueue) (tasks : Multiset Task) : Prop :=
  ∃ id, .finishing id true ∈ tasks ∨ (.returned id true ∈ tasks ∧ queue.isDone id = true)

section Moves

variable {queue after : InstallQueue} {id : String}

theorem InstallQueue.SamePlaces.idle (same : SamePlaces queue after) (idle : after.Idle) :
    queue.Idle :=
  ⟨same.queued ▸ idle.1, same.active ▸ idle.2⟩

theorem InstallQueue.Extends.isDone (kept : Extends queue after) (backed : queue.Backed)
    (done : queue.isDone id = true) : after.isDone id = true := by
  rw [isDone_iff] at done ⊢
  obtain ⟨entry, found, was⟩ := done
  obtain ⟨next, there, still⟩ := kept.entries backed id entry found
  exact ⟨next, there, still was⟩

theorem Rejoining.mono {tasks more : Multiset Task} (rejoining : Rejoining queue tasks)
    (kept : Extends queue after) (backed : queue.Backed) (within : tasks ≤ more) :
    Rejoining after more := by
  obtain ⟨id, finishing | ⟨returned, done⟩⟩ := rejoining
  · exact ⟨id, .inl (Multiset.mem_of_le within finishing)⟩
  · exact ⟨id, .inr ⟨Multiset.mem_of_le within returned, kept.isDone backed done⟩⟩

theorem InstallQueue.complete_closed (outcome : InstallOutcome) (error : Option InstallError)
    (stored : Bool) : (InstallQueue.complete id outcome error stored queue).1.closed =
      queue.closed := by
  unfold InstallQueue.complete
  split
  · rfl
  split
  · rfl
  split
  · rfl
  · exact (writeStatus_places _ _ _).closed

variable {stored : Bool}

theorem InstallQueue.complete_places {outcome : InstallOutcome} {error : Option InstallError}
    (unsettled : (InstallQueue.complete id outcome error stored queue).2 ≠ true) :
    SamePlaces queue (InstallQueue.complete id outcome error stored queue).1 := by
  unfold InstallQueue.complete at unsettled ⊢
  split
  · exact .refl queue
  · rename_i entry found
    simp only [found] at unsettled
    split
    · exact .refl queue
    · split
      · exact setEntry_places _ _ _
      · simp_all

theorem InstallQueue.removeQueued_queued (removed : removeQueued id stored queue = .ok after) :
    after.closed = queue.closed ∧ after.queued = queue.queued.erase id := by
  unfold removeQueued at removed
  simp only [Fallible.guard_eq_ok] at removed
  obtain ⟨_, _, removed⟩ := removed
  split at removed
  · cases removed
  · simp only [Fallible.guard_eq_ok, Fallible.pure_eq_ok] at removed
    obtain ⟨_, rfl⟩ := removed
    exact ⟨(writeStatus_places _ _ _).closed,
      congrArg (List.erase · id) (writeStatus_places _ _ _).queued⟩

variable {next : Multiset Task} {task : Task} {move : Move}

/-- A task that leaves the queue idle resumes it, or its join will. -/
theorem Task.move_idle (moved : task.move queue move = some (after, next)) :
    Extends queue after ∧ after.closed = queue.closed ∧
      (after.Idle → queue.Idle ∨ task.resumes next move = true ∨ Rejoining after next) := by
  have same {after : InstallQueue} {next : Multiset Task} (kept : Extends queue after)
      (places : SamePlaces queue after) : Extends queue after ∧ after.closed = queue.closed ∧
        (after.Idle → queue.Idle ∨ task.resumes next move = true ∨ Rejoining after next) :=
    ⟨kept, places.closed, fun idle => .inl (places.idle idle)⟩
  unfold Task.move at moved
  split at moved
  case h_1 =>
    cases moved
    exact same (.refl queue) (.refl queue)
  case h_2 id claim spawned =>
    cases claimed : claimContent id queue with
    | error =>
      rw [claimed] at moved
      cases moved
      exact same (.refl queue) (.refl queue)
    | ok after =>
      rw [claimed] at moved
      cases moved
      exact same (claimContent_extends claimed) (claimContent_places claimed)
  case h_3 id lease =>
    cases moved
    exact same takeRetained_extends takeRetained_places
  case h_4 worker id lease event =>
    cases moved
    exact same (progress_extends event) (progress_places event)
  case h_5 worker id lease outcome error stored =>
    cases moved
    refine ⟨complete_extends outcome error stored, complete_closed outcome error stored,
      fun idle => ?_⟩
    by_cases settled : (InstallQueue.complete id outcome error stored queue).2 = true
    · have done := isDone_iff.mpr (complete_done outcome error stored settled)
      rw [if_pos settled]
      refine .inr ?_
      cases worker with
      | installer => exact .inl (by simp [Task.resumes, Worker.afterwards])
      | contentRecovery => exact .inr ⟨id, .inr ⟨Multiset.mem_singleton_self _, done⟩⟩
      | nativeRecovery => exact .inr ⟨id, .inl (Multiset.mem_singleton_self _)⟩
    · exact .inl ((complete_places settled).idle idle)
  case h_6 =>
    cases moved
    exact same (.refl queue) (.refl queue)
  case h_7 =>
    cases moved
    exact same (.refl queue) (.refl queue)
  case h_8 id lease stored =>
    cases requeued : requeueRecovered id stored queue with
    | error =>
      rw [requeued] at moved
      cases moved
      exact same (.refl queue) (.refl queue)
    | ok after =>
      rw [requeued] at moved
      cases moved
      refine ⟨requeueRecovered_extends requeued, ?_, fun _ =>
        .inr (.inr ⟨id, .inl (Multiset.mem_singleton_self _)⟩)⟩
      unfold requeueRecovered at requeued
      split at requeued
      · cases requeued
      · simp only [Fallible.ite_throw_eq_ok, Except.ok.injEq] at requeued
        obtain ⟨_, rfl⟩ := requeued
        exact (writeStatus_places _ _ _).closed
  case h_9 worker id lease retained =>
    cases moved
    exact same (retainLease_extends lease) (retainLease_places lease)
  case h_10 worker id retained stored =>
    cases moved
    exact same (retainUnsettled_extends retained stored) (retainUnsettled_places retained stored)
  case h_11 =>
    cases moved
    exact same (.refl queue) (.refl queue)
  case h_12 id settled stored =>
    cases moved
    exact same (recoveryFinished_extends settled stored) (recoveryFinished_places settled stored)
  case h_13 => cases moved

/-- A recovery that is joined goes on until it resumes the queue. -/
theorem Task.move_rejoining {rest : Multiset Task}
    (moved : task.move queue move = some (after, next)) (backed : queue.Backed)
    (rejoining : Rejoining queue (task ::ₘ rest)) :
    task.resumes next move = true ∨ Rejoining after (next + rest) := by
  have kept := (Task.move_idle moved).1
  obtain ⟨id, finishing | ⟨returned, done⟩⟩ := rejoining
  · rcases Multiset.mem_cons.mp finishing with rfl | member
    · cases move with
      | finish => exact .inl rfl
      | _ => cases moved
    · exact .inr ⟨id, .inl (Multiset.mem_add.mpr (.inr member))⟩
  · rcases Multiset.mem_cons.mp returned with rfl | member
    · cases move with
      | read =>
        cases moved
        refine .inr ⟨id, .inl (Multiset.mem_add.mpr (.inl ?_))⟩
        rw [done]
        exact Multiset.mem_singleton_self _
      | _ => cases moved
    · exact .inr ⟨id, .inr ⟨Multiset.mem_add.mpr (.inr member), kept.isDone backed done⟩⟩

end Moves

/-! ### The flag -/

namespace Scheduler

variable {before after : Scheduler}

/-- Nothing has been admitted yet. The start-up resumes the queue. -/
def fresh : Scheduler where
  system := .fresh
  closing := false
  observersClosed := false
  scheduling := false
  calls := {.begun}
  observers := 0

/-- No call swaps the flag after an observer decided to end and before it clears the flag. -/
def Orderly (scheduler : Scheduler) : SchedulerAction → Prop
  | .callSwap => .exiting ∉ scheduler.observers
  | _ => True

def Step (before after : Scheduler) : Prop :=
  ∃ action, before.Orderly action ∧ before.perform action = some after

/-- Installs wait and none is active, while the queue is open: neither it nor its owner is closing. -/
def Stuck (scheduler : Scheduler) : Prop :=
  scheduler.system.queue.closed = false ∧ scheduler.closing = false ∧ scheduler.system.queue.Idle

/-- An observer that has not broken out of its loop. -/
def Observed (scheduler : Scheduler) : Prop := ∃ observer ∈ scheduler.observers, observer ≠ .exiting

/-- How many calls and observers have claimed the flag. -/
def claims (scheduler : Scheduler) : Nat :=
  scheduler.calls.count .claimed + scheduler.observers.card

structure Watched (scheduler : Scheduler) : Prop where
  flag : scheduler.claims = if scheduler.scheduling then 1 else 0
  shut : scheduler.observersClosed = true → scheduler.system.queue.closed = true
  backed : scheduler.system.queue.Backed
  watched : scheduler.Stuck → scheduler.calls ≠ 0 ∨
    Rejoining scheduler.system.queue scheduler.system.tasks ∨ scheduler.Observed

theorem startNext_closed {queue : InstallQueue} (conditions : StartConditions) :
    (startNext conditions queue).1.closed = queue.closed := by
  unfold startNext
  split
  · rfl
  split
  · rfl
  split
  · rfl
  split
  · rfl
  split
  · rfl
  dsimp only
  split
  · rfl
  have begun (status : InstallStatus) (phase : RowPhase) :=
    (writeStatus_places queue status phase).closed
  split
  · exact begun _ _
  split
  · exact ((writeStatus_places _ _ _).closed).trans (begun _ _)
  · exact begun _ _

/-- A start only touches the system, and closes nothing. -/
theorem start_spec {system next : System} {conditions : StartConditions}
    (started : system.perform (.start conditions) = some next) :
    Extends system.queue next.queue ∧ next.queue.closed = system.queue.closed := by
  have kept : Extends system.queue (startNext conditions system.queue).1 :=
    startNext_extends conditions
  have closed : (startNext conditions system.queue).1.closed = system.queue.closed :=
    startNext_closed conditions
  simp only [System.perform] at started
  split at started <;> cases started <;> exact ⟨kept, closed⟩

/-! ### The watch -/

variable {scheduler : Scheduler}

variable {call : Call}

theorem count_callTo (member : call ∈ scheduler.calls) (next : Multiset Call) :
    (scheduler.callTo call next).count .claimed + (if call = .claimed then 1 else 0) =
      next.count .claimed + scheduler.calls.count .claimed := by
  unfold callTo
  rw [← Multiset.cons_erase member, Multiset.erase_cons_head, Multiset.count_add,
    Multiset.count_cons]
  simp only [eq_comm, Nat.add_assoc]

theorem card_observerTo {observer : Observer} (member : observer ∈ scheduler.observers)
    (next : Multiset Observer) :
    (scheduler.observerTo observer next).card + 1 = next.card + scheduler.observers.card := by
  unfold observerTo
  rw [← Multiset.cons_erase member, Multiset.erase_cons_head, Multiset.card_add,
    Multiset.card_cons, Nat.add_assoc]

theorem callTo_ne_zero (other : Call) {next : Multiset Call} (present : other ∈ next) :
    scheduler.callTo call next ≠ 0 :=
  fun empty => Multiset.notMem_zero other (empty ▸ Multiset.mem_add.mpr (.inl present))

theorem mem_observerTo (observer : Observer) {old : Observer} :
    observer ∈ scheduler.observerTo old {observer} :=
  Multiset.mem_add.mpr (.inl (Multiset.mem_singleton_self observer))

/-- A start keeps the rest of the watch. -/
theorem Watched.start (watched : Watched before) {next : System} {conditions : StartConditions}
    (started : before.system.perform (.start conditions) = some next) :
    next.queue.Backed ∧ (before.observersClosed = true → next.queue.closed = true) := by
  obtain ⟨kept, closed⟩ := start_spec started
  exact ⟨kept.backed watched.backed, fun shut => closed.trans (watched.shut shut)⟩

/-- What the rest of the code does leaves an idle queue only with somebody to resume it. -/
theorem Watched.act (watched : Watched before) {action : Action}
    (performed : before.act action = some after) : Watched after := by
  -- What leaves the places as they were, or fewer installs waiting.
  have still {queue : InstallQueue} {tasks : Multiset Task} (kept : Extends before.system.queue queue)
      (closed : before.system.queue.closed = true → queue.closed = true)
      (within : before.system.tasks ≤ tasks)
      (idle : Stuck { before with system := ⟨queue, tasks⟩ } → before.Stuck) :
      Watched { before with system := ⟨queue, tasks⟩ } := by
    refine ⟨watched.flag, fun shut => closed (watched.shut shut), kept.backed watched.backed,
      fun stuck => ?_⟩
    rcases watched.watched (idle stuck) with calls | rejoining | observed
    · exact .inl calls
    · exact .inr (.inl (rejoining.mono kept watched.backed within))
    · exact .inr (.inr observed)
  have places {queue : InstallQueue} {tasks : Multiset Task} (kept : Extends before.system.queue queue)
      (same : SamePlaces before.system.queue queue) (within : before.system.tasks ≤ tasks) :
      Watched { before with system := ⟨queue, tasks⟩ } :=
    still kept same.closed.trans within fun stuck =>
      ⟨same.closed.symm.trans stuck.1, stuck.2.1, same.idle stuck.2.2⟩
  cases action with
  | start => cases performed
  | admits libraries now closing stored admission =>
    obtain ⟨system, acted, rfl⟩ := map_eq_some_iff.mp performed
    simp only [System.perform] at acted
    split at acted
    · cases acted
    · rename_i queue name admitted
      cases acted
      refine ⟨?_, fun shut => ?_, (admitLocked_extends admitted).backed watched.backed,
        fun _ => .inl (Multiset.cons_ne_zero)⟩
      · unfold claims
        rw [Multiset.count_cons_of_ne (by decide)]
        exact watched.flag
      · -- A closed queue admits nothing.
        unfold admitLocked at admitted
        simp only [Fallible.guard_eq_ok, Fallible.bind_eq_ok] at admitted
        obtain ⟨_, _, opened, _⟩ := admitted
        exact absurd (.inl (watched.shut shut)) opened
  | remove id stored =>
    obtain ⟨system, acted, rfl⟩ := map_eq_some_iff.mp performed
    simp only [System.perform] at acted
    split at acted
    · cases acted
    · rename_i queue removed
      cases acted
      obtain ⟨closed, queued⟩ := removeQueued_queued removed
      refine still (removeQueued_extends removed) closed.trans le_rfl fun stuck => ?_
      obtain ⟨opened, going, waits, idle⟩ := stuck
      refine ⟨closed.symm.trans opened, going, fun empty => waits ?_,
        (removeQueued_active removed).symm.trans idle⟩
      show queue.queued = []
      rw [queued, empty]
      rfl
  | cancel id =>
    obtain ⟨system, acted, rfl⟩ := map_eq_some_iff.mp performed
    simp only [System.perform] at acted
    split at acted
    · cases acted
    · rename_i queue cancelled
      cases acted
      exact places (cancel_extends cancelled) (cancel_places cancelled) le_rfl
  | closeAdmission =>
    cases performed
    exact still (.of_eq rfl rfl) (fun _ => rfl) le_rfl fun stuck => by cases stuck.1
  | check id =>
    obtain ⟨system, acted, rfl⟩ := map_eq_some_iff.mp performed
    simp only [System.perform] at acted
    split at acted
    · split at acted
      · cases acted
      · cases acted
        exact places (.refl _) (.refl _) (Multiset.le_cons_self _ _)
    · cases acted
  | claimNative id spawned =>
    obtain ⟨system, acted, rfl⟩ := map_eq_some_iff.mp performed
    simp only [System.perform] at acted
    split at acted
    · cases acted
    · cases acted
    · rename_i queue claimed
      cases acted
      exact places (claimNative_extends claimed) (claimNative_places claimed)
        (Multiset.le_cons_self _ _)
  | move task move =>
    simp only [Scheduler.act] at performed
    split at performed
    · rename_i member
      obtain ⟨⟨queue, next⟩, moved, rfl⟩ := map_eq_some_iff.mp performed
      obtain ⟨kept, closed, idle⟩ := Task.move_idle moved
      refine ⟨?_, fun shut => closed.trans (watched.shut shut), kept.backed watched.backed,
        fun stuck => ?_⟩
      · unfold claims
        dsimp only
        split
        · rw [Multiset.count_cons_of_ne (by decide)]
          exact watched.flag
        · exact watched.flag
      · by_cases resumes : task.resumes next move = true
        · refine .inl ?_
          dsimp only
          rw [if_pos resumes]
          exact Multiset.cons_ne_zero
        · dsimp only
          rw [if_neg resumes]
          obtain ⟨opened, going, idleNow⟩ := stuck
          rcases idle idleNow with was | now | rejoining
          · rcases watched.watched ⟨closed.symm.trans opened, going, was⟩ with
              calls | rejoining | observed
            · exact .inl calls
            · rw [← Multiset.cons_erase member] at rejoining
              rcases Task.move_rejoining moved watched.backed rejoining with now | rejoining
              · exact absurd now resumes
              · exact .inr (.inl rejoining)
            · exact .inr (.inr observed)
          · exact absurd now resumes
          · exact .inr (.inl (rejoining.mono (.refl _)
              (kept.backed watched.backed) (Multiset.le_add_right _ _)))
    · cases performed
  | restart library acquired =>
    obtain ⟨system, acted, rfl⟩ := map_eq_some_iff.mp performed
    simp only [System.perform] at acted
    split at acted
    · cases acted
    · rename_i queue built
      cases acted
      refine ⟨rfl, (fun shut => by cases shut), fun id missing => ?_,
        fun _ => .inl (Multiset.singleton_ne_zero _)⟩
      refine eq_none_iff_forall_ne_some.mpr fun entry found => ?_
      obtain ⟨row, there, _⟩ := (new_entries built).2 entry found
      rw [new_rows built] at missing
      cases missing.symm.trans there

/-- Every step keeps the watch. -/
theorem Watched.step (watched : Watched before) (step : Step before after) : Watched after := by
  obtain ⟨action, orderly, performed⟩ := step
  have flag := watched.flag
  unfold claims at flag
  cases action with
  | act action => exact watched.act performed
  | closeOwner =>
    cases performed
    exact ⟨watched.flag, watched.shut, watched.backed, fun stuck => by cases stuck.2.1⟩
  | closeObservers =>
    simp only [perform] at performed
    split at performed
    · rename_i closed
      cases performed
      exact ⟨watched.flag, fun _ => closed, watched.backed, watched.watched⟩
    · cases performed
  | resume =>
    cases performed
    refine ⟨?_, watched.shut, watched.backed, fun _ => .inl (Multiset.cons_ne_zero)⟩
    unfold claims
    rw [Multiset.count_cons_of_ne (by decide)]
    exact flag
  | callStart conditions =>
    simp only [perform] at performed
    split at performed
    · rename_i member
      obtain ⟨next, started, rfl⟩ := map_eq_some_iff.mp performed
      obtain ⟨backed, shut⟩ := watched.start started
      refine ⟨?_, shut, backed, fun _ => .inl (callTo_ne_zero .started (Multiset.mem_singleton_self _))⟩
      have count := count_callTo member {.started}
      simp at count
      unfold claims
      dsimp only
      rw [count]
      exact flag
    · cases performed
  | callCheck =>
    simp only [perform] at performed
    split at performed
    · rename_i member
      cases performed
      refine ⟨?_, watched.shut, watched.backed, fun stuck => ?_⟩
      · have count := count_callTo member (if before.needsScheduler then {.needed} else 0)
        have none : Multiset.count Call.claimed
            (if before.needsScheduler then {.needed} else 0) = 0 := by
          split <;> rfl
        simp [none] at count
        unfold claims
        dsimp only
        rw [count]
        exact flag
      · obtain ⟨opened, _, queued, active⟩ := stuck
        have needed : before.needsScheduler = true := by
          unfold needsScheduler
          rw [show before.system.queue.closed = false from opened,
            show before.system.queue.active = none from active]
          cases listed : before.system.queue.queued with
          | nil => exact absurd listed queued
          | cons => rfl
        refine .inl (callTo_ne_zero .needed ?_)
        rw [if_pos needed]
        exact Multiset.mem_singleton_self _
    · cases performed
  | callSwap =>
    simp only [perform] at performed
    split at performed
    · rename_i member
      cases performed
      have count := count_callTo member (if before.scheduling then 0 else {.claimed})
      cases set : before.scheduling with
      | true =>
        rw [set] at flag count
        simp at flag count
        refine ⟨?_, watched.shut, watched.backed, fun _ => ?_⟩
        · unfold claims
          dsimp only
          simp [count, flag]
        · -- The flag is another call's or an observer's, and that one does not end.
          by_cases claimed : before.calls.count .claimed = 0
          · obtain ⟨observer, there⟩ := Multiset.card_pos_iff_exists_mem.mp
              (show 0 < before.observers.card by omega)
            refine .inr (.inr ⟨observer, there, fun same => orderly (same ▸ there)⟩)
          · refine .inl fun empty => ?_
            rw [show before.callTo .needed 0 = 0 from empty] at count
            exact claimed count.symm
      | false =>
        rw [set] at flag count
        simp at flag count
        refine ⟨?_, watched.shut, watched.backed, fun _ =>
          .inl (callTo_ne_zero .claimed (Multiset.mem_singleton_self _))⟩
        unfold claims
        dsimp only
        simp [count, flag]
    · cases performed
  | callSpawn =>
    simp only [perform] at performed
    split at performed
    · rename_i member
      have count := count_callTo member 0
      simp at count
      have set : before.scheduling = true := by
        by_contra clear
        rw [if_neg clear] at flag
        omega
      rw [set] at flag
      simp at flag
      split at performed
      · rename_i shut
        cases performed
        refine ⟨?_, watched.shut, watched.backed, fun stuck => ?_⟩
        · show (before.callTo .claimed 0).count .claimed + before.observers.card = 0
          omega
        · cases (watched.shut shut).symm.trans stuck.1
      · cases performed
        refine ⟨?_, watched.shut, watched.backed, fun _ =>
          .inr (.inr ⟨.checking, Multiset.mem_cons_self _ _, nofun⟩)⟩
        unfold claims
        dsimp only
        rw [Multiset.card_cons, set]
        simp
        omega
    · cases performed
  | observe =>
    simp only [perform] at performed
    split at performed
    · rename_i member
      cases performed
      refine ⟨?_, watched.shut, watched.backed, fun stuck => .inr (.inr ?_)⟩
      · have card := card_observerTo member (if before.settles then {.exiting} else {.waiting})
        have one : (if before.settles then {.exiting} else {.waiting} : Multiset Observer).card = 1 := by
          split <;> rfl
        unfold claims
        dsimp only
        omega
      · obtain ⟨opened, going, queued, active⟩ := stuck
        have waits : before.settles = false := by
          unfold settles
          rw [show before.system.queue.closed = false from opened,
            show before.closing = false from going,
            show before.system.queue.active = none from active]
          cases listed : before.system.queue.queued with
          | nil => exact absurd listed queued
          | cons => rfl
        refine ⟨.waiting, ?_, nofun⟩
        rw [waits]
        exact mem_observerTo .waiting
    · cases performed
  | wake =>
    simp only [perform] at performed
    split at performed
    · rename_i member
      cases performed
      refine ⟨?_, watched.shut, watched.backed, fun _ =>
        .inr (.inr ⟨.starting, mem_observerTo .starting, nofun⟩)⟩
      have card := card_observerTo member {.starting}
      rw [Multiset.card_singleton] at card
      unfold claims
      dsimp only
      omega
    · cases performed
  | observerStart conditions =>
    simp only [perform] at performed
    split at performed
    · rename_i member
      obtain ⟨next, started, rfl⟩ := map_eq_some_iff.mp performed
      obtain ⟨backed, shut⟩ := watched.start started
      refine ⟨?_, shut, backed, fun _ =>
        .inr (.inr ⟨.checking, mem_observerTo .checking, nofun⟩)⟩
      have card := card_observerTo member {.checking}
      rw [Multiset.card_singleton] at card
      unfold claims
      dsimp only
      omega
    · cases performed
  | clear =>
    simp only [perform] at performed
    split at performed
    · rename_i member
      cases performed
      have card := card_observerTo member 0
      have positive := Multiset.card_pos_iff_exists_mem.mpr ⟨_, member⟩
      have set : before.scheduling = true := by
        by_contra clear
        rw [if_neg clear] at flag
        omega
      rw [set] at flag
      simp at flag card
      refine ⟨?_, watched.shut, watched.backed, fun stuck => ?_⟩
      · show before.calls.count .claimed + (before.observerTo .exiting 0).card = 0
        omega
      · -- The observer that ends was the only one.
        rcases watched.watched stuck with calls | rejoining | ⟨observer, there, going⟩
        · exact .inl calls
        · exact .inr (.inl rejoining)
        · have single : before.observers.card = 1 := by omega
          obtain ⟨only, same⟩ := Multiset.card_eq_one.mp single
          rw [same, Multiset.mem_singleton] at there member
          exact absurd (there.trans member.symm) going
    · cases performed

/-! ### Runs -/

theorem fresh_watched : Watched fresh where
  flag := rfl
  shut := nofun
  backed _ _ := rfl
  watched _ := .inl (Multiset.singleton_ne_zero _)

/-- Where no call swaps the flag of an observer that is about to clear it: if installs wait and none
is active while neither queue nor owner is closing, no call is in progress and no recovery is being
joined, which counts as a call of `join_worker`, then an observer is there that has not passed its
check. -/
theorem observed_of_run (run : ReflTransGen Step fresh scheduler) (stuck : scheduler.Stuck)
    (quiet : scheduler.calls = 0)
    (joined : ¬ Rejoining scheduler.system.queue scheduler.system.tasks) :
    ∃ observer ∈ scheduler.observers, observer ≠ .exiting := by
  have watched := Runs.invariant (fun _ _ step held => Watched.step held step) run fresh_watched
  rcases watched.watched stuck with calls | rejoining | observed
  · exact absurd quiet calls
  · exact absurd rejoining joined
  · exact observed

/-- Several actions, one after the other. -/
def performAll (scheduler : Scheduler) (actions : List SchedulerAction) : Option Scheduler :=
  actions.foldlM perform scheduler

theorem run_of_performAll {actions : List SchedulerAction}
    (orderly : ∀ scheduler : Scheduler, ∀ action ∈ actions, scheduler.Orderly action)
    (performed : before.performAll actions = some after) : ReflTransGen Step before after := by
  induction actions generalizing before with
  | nil =>
    cases performed
    exact .refl
  | cons action actions ih =>
    obtain ⟨middle, first, rest⟩ := Runs.foldlM_cons_eq_some.mp performed
    exact .head ⟨action, orderly before action mem_cons_self, first⟩
      (ih (fun scheduler other member =>
        orderly scheduler other (mem_cons_of_mem _ member)) rest)

/-- The library is in use. -/
def busy : StartConditions := { System.ready with acquired := false }

/-- An install has to wait. -/
def waits : List SchedulerAction :=
  [.callStart busy, .callCheck, .act (.admits none 0 false true (System.gameAdmission "a" "1.20")),
    .callStart busy, .callCheck]

theorem observed_of_run_waiting :
    ∃ middle ∈ fresh.performAll waits, ∃ after ∈ middle.performAll [.callSwap, .callSpawn],
      (after.system.queue.queued = ["a"] ∧ after.calls = 0) ∧
        ∃ observer ∈ after.observers, observer ≠ .exiting := by
  have reached : ∃ middle ∈ fresh.performAll waits, .exiting ∉ middle.observers ∧
      ∃ swapped ∈ middle.perform .callSwap, ∃ after ∈ swapped.perform .callSpawn,
        (after.system.queue.queued = ["a"] ∧ after.calls = 0) ∧
          after.system.queue.closed = false ∧ after.closing = false ∧
            after.system.queue.active = none ∧ after.system.tasks = 0 := by
    decide
  obtain ⟨middle, first, apart, swapped, swap, after, spawn, ⟨queued, quiet⟩, opened, going, idle,
    none⟩ := reached
  have early : ReflTransGen Step fresh middle := by
    refine run_of_performAll (fun scheduler action member => ?_) first
    simp only [waits, mem_cons, not_mem_nil, or_false] at member
    rcases member with rfl | rfl | rfl | rfl | rfl <;> trivial
  have run : ReflTransGen Step fresh after :=
    (early.tail ⟨.callSwap, apart, swap⟩).tail ⟨.callSpawn, trivial, spawn⟩
  refine ⟨middle, first, after, ?_, ⟨queued, quiet⟩, observed_of_run run
    ⟨opened, going, by rw [queued]; exact cons_ne_nil _ _, idle⟩ quiet ?_⟩
  · exact Runs.foldlM_cons_eq_some.mpr ⟨swapped, swap, Runs.foldlM_cons_eq_some.mpr
      ⟨after, spawn, rfl⟩⟩
  · rintro ⟨id, finishing | ⟨returned, _⟩⟩
    · rw [none] at finishing
      exact Multiset.notMem_zero _ finishing
    · rw [none] at returned
      exact Multiset.notMem_zero _ returned

/-- An observer decides to end while an install is active; that install ends, and the call that
should start the next one finds the library in use and the flag set; then the flag is cleared. -/
def lostWakeup : List SchedulerAction :=
  waits ++ [.callSwap, .callSpawn, .observe, .resume, .callStart System.ready, .callCheck, .wake,
    .observerStart System.ready, .observe,
    .act (.admits none 1 false true (System.gameAdmission "b" "1.21")),
    .callStart System.ready, .callCheck,
    .act (.move (.working (.installer false) "a" [libraryArtifact "l"])
      (.complete .succeeded none true)),
    .callStart busy, .callCheck, .callSwap, .clear]

theorem unobserved :
    ∃ after ∈ fresh.performAll lostWakeup,
      (after.system.queue.closed = false ∧ after.closing = false ∧
        after.system.queue.queued = ["b"] ∧ after.system.queue.active = none) ∧
      after.calls = 0 ∧ after.system.tasks = 0 ∧ after.observers = 0 := by
  decide

end Scheduler

end Axial.Install
