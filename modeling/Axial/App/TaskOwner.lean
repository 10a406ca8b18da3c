/-
This file models the task owner of `tasks/owner.rs`: the admission of tasks up to
a capacity, the supervisor that follows each accepted task to its settlement, and
the closing of the owner. A step is what one task or caller does in one go, under
the owner's lock or between two waits, and the steps of all of them interleave in
any way.
-/

import Axial.Library.Runs

namespace Axial.App

open Relation List Option AList

abbrev TaskId : Type := Nat
/-- `u64::MAX`. -/
abbrev lastTaskId : Nat := 2 ^ 64 - 1

inductive SpawnError where
  | invalidCapacity
  | atCapacity
  | closed
  | noRuntime
  | identityExhausted

inductive TaskJoinError where
  | panicked
  | interrupted

variable {Guard : Type}

/-! ### The owner -/

structure TaskRecord (Guard : Type) where
  cancelled : Bool
  unsettled : Bool
  retained : Option Guard

structure TaskOwner (Guard : Type) where
  capacity : Nat
  closing : Bool
  tasks : AList fun _ : TaskId => TaskRecord Guard

structure OwnerSnapshot where
  closing : Bool
  running : List TaskId
  unsettled : List TaskId

namespace TaskOwner

def new (maxActive : Nat) : Except SpawnError (TaskOwner Guard) :=
  if maxActive = 0 then .error .invalidCapacity else .ok ⟨maxActive, false, ∅⟩

def snapshot (owner : TaskOwner Guard) : OwnerSnapshot :=
  let (unsettled, running) := owner.tasks.entries.partition fun entry => entry.2.unsettled
  ⟨owner.closing, running.map Sigma.fst, unsettled.map Sigma.fst⟩

/-- Change the record of a task, if there is one. -/
def modify (owner : TaskOwner Guard) (id : TaskId)
    (change : TaskRecord Guard → TaskRecord Guard) : TaskOwner Guard :=
  match owner.tasks.lookup id with
  | none => owner
  | some record => { owner with tasks := owner.tasks.insert id (change record) }

/-- The part of `try_spawn` that accepts a task: the owner and the next identity after it, and the
identity given out. -/
def trySpawn (owner : TaskOwner Guard) (nextTaskId : Nat) (runtime : Bool) (retained : Guard) :
    TaskOwner Guard × Nat × Except SpawnError TaskId :=
  if runtime = false then (owner, nextTaskId, .error .noRuntime)
  else if owner.closing then (owner, nextTaskId, .error .closed)
  else if owner.tasks.keys.length ≥ owner.capacity then (owner, nextTaskId, .error .atCapacity)
  else if nextTaskId + 1 > lastTaskId then (owner, nextTaskId, .error .identityExhausted)
  else
    ({ owner with tasks := owner.tasks.insert nextTaskId ⟨false, false, some retained⟩ },
      nextTaskId + 1, .ok nextTaskId)

def takeRetained (owner : TaskOwner Guard) (id : TaskId) : TaskOwner Guard × Option Guard :=
  (owner.modify id fun record => { record with retained := none },
    (owner.tasks.lookup id).bind TaskRecord.retained)

def remove (owner : TaskOwner Guard) (id : TaskId) : TaskOwner Guard :=
  { owner with tasks := owner.tasks.erase id }

def markUnsettled (owner : TaskOwner Guard) (id : TaskId) : TaskOwner Guard :=
  owner.modify id fun record => { record with unsettled := true }

def cancel (owner : TaskOwner Guard) (id : TaskId) : TaskOwner Guard :=
  owner.modify id fun record => { record with cancelled := true }

/-- Whether a receipt is issued. -/
def shutdownReceipt (owner : TaskOwner Guard) : Bool :=
  owner.closing && owner.tasks.entries.isEmpty

def tryCloseIdle (owner : TaskOwner Guard) : TaskOwner Guard × Except OwnerSnapshot Unit :=
  if owner.tasks.entries.isEmpty = false then (owner, .error owner.snapshot)
  else ({ owner with closing := true }, .ok ())

def closeAdmission (owner : TaskOwner Guard) : TaskOwner Guard := { owner with closing := true }

end TaskOwner

/-! ### Supervisors -/

/-- How far the supervisor of a task has come. -/
inductive Stage (Guard : Type) where
  | awaiting
  | returned
  | releasing (retained : Option Guard)
  | released
  | settled
  /-- A destructor of the guards panicked. -/
  | unwound
  | failed (error : TaskJoinError)
  | noted (error : TaskJoinError)
  /-- The supervisor itself was dropped while it waited. -/
  | abandoned

/-- The work of the task came to its end. -/
def Stage.completed : Stage Guard → Bool
  | .returned | .releasing _ | .released | .settled | .unwound => true
  | _ => false

/-- The work of the task panicked, or was interrupted. -/
def Stage.broken : Stage Guard → Bool
  | .failed _ | .noted _ | .abandoned => true
  | _ => false

/-- A task and what it was accepted with. -/
structure Supervisor (Guard : Type) where
  guard : Guard
  stage : Stage Guard

/-- The owner with all of its tasks. `released` lists the guards that have been dropped. -/
structure OwnerProcess (Guard : Type) where
  owner : TaskOwner Guard
  nextTaskId : Nat
  supervisors : TaskId → Option (Supervisor Guard)
  released : List (TaskId × Guard)

namespace OwnerProcess

def start (owner : TaskOwner Guard) (nextTaskId : Nat) : OwnerProcess Guard where
  owner := owner
  nextTaskId := nextTaskId
  supervisors _ := none
  released := []

/-- The guards of a record that is dropped from the table as a whole. -/
def dropped (process : OwnerProcess Guard) (id : TaskId) : List (TaskId × Guard) :=
  (((process.owner.tasks.lookup id).bind TaskRecord.retained).map fun guard => (id, guard)).toList

def goOn (process : OwnerProcess Guard) (id : TaskId) (supervisor : Supervisor Guard) :
    TaskId → Option (Supervisor Guard) :=
  Function.update process.supervisors id (some supervisor)

inductive Step : OwnerProcess Guard → OwnerProcess Guard → Prop
  | spawned {process runtime retained owner next id}
      (accepted : process.owner.trySpawn process.nextTaskId runtime retained =
        (owner, next, .ok id)) :
      Step process ⟨owner, next, process.goOn id ⟨retained, .awaiting⟩,
        process.released ++ process.dropped id⟩
  | refused {process runtime retained owner next error}
      (declined : process.owner.trySpawn process.nextTaskId runtime retained =
        (owner, next, .error error)) :
      Step process { process with owner := owner, nextTaskId := next }
  /-- Other owners draw identities from the same counter. -/
  | elsewhere {process next} (later : process.nextTaskId ≤ next) :
      Step process { process with nextTaskId := next }
  | returned {process id guard}
      (now : process.supervisors id = some ⟨guard, .awaiting⟩) :
      Step process { process with supervisors := process.goOn id ⟨guard, .returned⟩ }
  | failed {process id guard error}
      (now : process.supervisors id = some ⟨guard, .awaiting⟩) :
      Step process { process with supervisors := process.goOn id ⟨guard, .failed error⟩ }
  | abandoned {process id guard}
      (now : process.supervisors id = some ⟨guard, .awaiting⟩) :
      Step process { process with
        owner := process.owner.markUnsettled id
        supervisors := process.goOn id ⟨guard, .abandoned⟩ }
  | takes {process id guard}
      (now : process.supervisors id = some ⟨guard, .returned⟩) :
      Step process { process with
        owner := (process.owner.takeRetained id).1
        supervisors := process.goOn id
          ⟨guard, .releasing (process.owner.takeRetained id).2⟩ }
  | drops {process id guard retained}
      (now : process.supervisors id = some ⟨guard, .releasing retained⟩) :
      Step process { process with
        supervisors := process.goOn id ⟨guard, .released⟩
        released := process.released ++ (retained.map fun guard => (id, guard)).toList }
  | unwinds {process id guard retained}
      (now : process.supervisors id = some ⟨guard, .releasing retained⟩) :
      Step process { process with
        owner := process.owner.markUnsettled id
        supervisors := process.goOn id ⟨guard, .unwound⟩
        released := process.released ++ (retained.map fun guard => (id, guard)).toList }
  | settles {process id guard}
      (now : process.supervisors id = some ⟨guard, .released⟩) :
      Step process { process with
        owner := process.owner.remove id
        supervisors := process.goOn id ⟨guard, .settled⟩
        released := process.released ++ process.dropped id }
  | notes {process id guard error}
      (now : process.supervisors id = some ⟨guard, .failed error⟩) :
      Step process { process with
        owner := process.owner.markUnsettled id
        supervisors := process.goOn id ⟨guard, .noted error⟩ }
  | cancels {process} (id : TaskId) :
      Step process { process with owner := process.owner.cancel id }
  | closes {process} :
      Step process { process with owner := process.owner.closeAdmission }
  | triesToClose {process} :
      Step process { process with owner := process.owner.tryCloseIdle.1 }

end OwnerProcess

/-! ### The owner's operations -/

variable {next : Nat} {other : TaskId} {runtime : Bool}

namespace TaskOwner

variable (owner : TaskOwner Guard) (id : TaskId)

section

variable (change : TaskRecord Guard → TaskRecord Guard)

include change

theorem lookup_modify_self :
    (owner.modify id change).tasks.lookup id = (owner.tasks.lookup id).map change := by
  unfold modify
  cases found : owner.tasks.lookup id with
  | none => exact found
  | some record => exact lookup_insert _

theorem lookup_modify_of_ne (apart : other ≠ id) :
    (owner.modify id change).tasks.lookup other = owner.tasks.lookup other := by
  unfold modify
  cases owner.tasks.lookup id with
  | none => rfl
  | some record => exact lookup_insert_ne apart

/-- Changing a record leaves as many of them as there were. -/
theorem length_modify : (owner.modify id change).tasks.keys.length = owner.tasks.keys.length := by
  unfold modify
  cases found : owner.tasks.lookup id with
  | none => rfl
  | some record =>
    have member : id ∈ owner.tasks.keys :=
      lookup_isSome.mp (isSome_of_eq_some found)
    show (AList.insert id (change record) owner.tasks).keys.length = _
    rw [keys_insert, length_cons, length_erase_of_mem member]
    exact Nat.succ_pred_eq_of_pos (length_pos_of_mem member)

theorem modify_frame :
    (owner.modify id change).capacity = owner.capacity ∧
      (owner.modify id change).closing = owner.closing := by
  unfold modify
  cases owner.tasks.lookup id with
  | none | some => exact ⟨rfl, rfl⟩

end

variable {after : TaskOwner Guard} {nextTaskId : Nat}

theorem trySpawn_eq_ok {retained : Guard}
    (accepted : owner.trySpawn nextTaskId runtime retained = (after, next, .ok id)) :
    owner.closing = false ∧ owner.tasks.keys.length < owner.capacity ∧ id = nextTaskId ∧
      next = nextTaskId + 1 ∧
      after = { owner with tasks := owner.tasks.insert id ⟨false, false, some retained⟩ } := by
  unfold trySpawn at accepted
  split_ifs at accepted with _ isOpen room _ <;> cases accepted
  exact ⟨Bool.not_eq_true _ ▸ isOpen, Nat.lt_of_not_le room, rfl, rfl, rfl⟩

theorem trySpawn_eq_error {retained : Guard} {error : SpawnError}
    (declined : owner.trySpawn nextTaskId runtime retained = (after, next, .error error)) :
    after = owner ∧ next = nextTaskId := by
  unfold trySpawn at declined
  split_ifs at declined <;> cases declined <;> exact ⟨rfl, rfl⟩

/-- A closing owner accepts nothing, and is not changed by being asked. -/
theorem trySpawn_of_closing (closing : owner.closing = true) (nextTaskId : Nat) (runtime : Bool)
    (retained : Guard) :
    ∃ error, owner.trySpawn nextTaskId runtime retained = (owner, nextTaskId, .error error) := by
  unfold trySpawn
  cases runtime with
  | false => exact ⟨_, rfl⟩
  | true =>
    rw [closing]
    exact ⟨_, rfl⟩

theorem tasks_tryCloseIdle : owner.tryCloseIdle.1.tasks = owner.tasks ∧
    owner.tryCloseIdle.1.capacity = owner.capacity := by
  unfold tryCloseIdle
  split <;> exact ⟨rfl, rfl⟩

theorem closing_tryCloseIdle (closing : owner.closing = true) :
    owner.tryCloseIdle.1.closing = true := by
  unfold tryCloseIdle
  split
  · exact closing
  · rfl

/-- A busy owner stays open. -/
theorem tryCloseIdle_of_busy (busy : owner.tasks.entries ≠ []) :
    owner.tryCloseIdle = (owner, .error owner.snapshot) := by
  unfold tryCloseIdle
  rw [if_pos]
  rwa [isEmpty_eq_false_iff]

end TaskOwner

/-! ### What the table says of a task -/

/-- What the record of a task says as far as it matters: whether it is unsettled and what it
retains. -/
def TaskOwner.entry (owner : TaskOwner Guard) (id : TaskId) : Option (Bool × Option Guard) :=
  (owner.tasks.lookup id).map fun record => (record.unsettled, record.retained)

/-- What the record says at each stage. -/
def Supervisor.entry (supervisor : Supervisor Guard) : Option (Bool × Option Guard) :=
  match supervisor.stage with
  | .awaiting | .returned | .failed _ => some (false, some supervisor.guard)
  | .noted _ | .abandoned => some (true, some supervisor.guard)
  | .releasing _ | .released => some (false, none)
  | .unwound => some (true, none)
  | .settled => none

namespace OwnerProcess

/-- The table agrees with the supervisors, and no guard was dropped but after its task. -/
structure Consistent (process : OwnerProcess Guard) : Prop where
  bounded : process.owner.tasks.keys.length ≤ process.owner.capacity
  fresh : ∀ id, process.nextTaskId ≤ id → process.supervisors id = none
  entries : ∀ id, process.owner.entry id = (process.supervisors id).bind Supervisor.entry
  released : ∀ id guard, (id, guard) ∈ process.released →
    ∃ supervisor, process.supervisors id = some supervisor ∧ supervisor.stage.completed = true

variable {process after : OwnerProcess Guard} {id : TaskId}

theorem goOn_self (supervisor : Supervisor Guard) :
    process.goOn id supervisor id = some supervisor :=
  Function.update_self ..

theorem goOn_of_ne (supervisor : Supervisor Guard) (apart : other ≠ id) :
    process.goOn id supervisor other = process.supervisors other :=
  Function.update_of_ne apart ..

variable {owner : TaskOwner Guard} {supervisor : Supervisor Guard}
  {released : List (TaskId × Guard)}

/-- One task goes on and the others stay. -/
theorem Consistent.goOn (consistent : process.Consistent) {before : Supervisor Guard}
    (now : process.supervisors id = some before)
    (bounded : owner.tasks.keys.length ≤ owner.capacity)
    (others : ∀ other, other ≠ id → owner.entry other = process.owner.entry other)
    (own : owner.entry id = supervisor.entry)
    (keeps : before.stage.completed = true → supervisor.stage.completed = true)
    (dropped : ∀ entry ∈ released, entry ∈ process.released ∨
      entry.1 = id ∧ supervisor.stage.completed = true) :
    Consistent ⟨owner, process.nextTaskId, process.goOn id supervisor, released⟩ := by
  refine ⟨bounded, fun other fresh => ?_, fun other => ?_, fun other guard member => ?_⟩
  · have apart : other ≠ id := by
      rintro rfl
      rw [consistent.fresh _ fresh] at now
      cases now
    exact (goOn_of_ne supervisor apart).trans (consistent.fresh other fresh)
  · show owner.entry other = (process.goOn id supervisor other).bind Supervisor.entry
    by_cases same : other = id
    · rw [same, goOn_self]
      exact own
    · rw [goOn_of_ne supervisor same, others other same]
      exact consistent.entries other
  · show ∃ found, process.goOn id supervisor other = some found ∧ _
    by_cases same : other = id
    · rw [same, goOn_self]
      refine ⟨supervisor, rfl, ?_⟩
      rcases dropped _ member with earlier | ⟨_, completed⟩
      · obtain ⟨found, there, completed⟩ := consistent.released other guard earlier
        rw [same, now] at there
        cases there
        exact keeps completed
      · exact completed
    · rw [goOn_of_ne supervisor same]
      rcases dropped _ member with earlier | ⟨own, _⟩
      · exact consistent.released other guard earlier
      · exact absurd own same

theorem Consistent.entry (consistent : process.Consistent)
    (now : process.supervisors id = some supervisor) :
    process.owner.entry id = supervisor.entry := by
  rw [consistent.entries id, now]
  rfl

theorem entry_modify_self (owner : TaskOwner Guard) (id : TaskId)
    (change : TaskRecord Guard → TaskRecord Guard) :
    (owner.modify id change).entry id = (owner.tasks.lookup id).map fun record =>
      ((change record).unsettled, (change record).retained) := by
  unfold TaskOwner.entry
  rw [TaskOwner.lookup_modify_self, Option.map_map]
  rfl

theorem entry_modify_of_ne (owner : TaskOwner Guard) {id : TaskId}
    (change : TaskRecord Guard → TaskRecord Guard) (apart : other ≠ id) :
    (owner.modify id change).entry other = owner.entry other := by
  unfold TaskOwner.entry
  rw [TaskOwner.lookup_modify_of_ne _ _ _ apart]

theorem bounded_modify (owner : TaskOwner Guard) (id : TaskId)
    (change : TaskRecord Guard → TaskRecord Guard)
    (bounded : owner.tasks.keys.length ≤ owner.capacity) :
    (owner.modify id change).tasks.keys.length ≤ (owner.modify id change).capacity := by
  rw [TaskOwner.length_modify, (TaskOwner.modify_frame ..).1]
  exact bounded

variable {retained : Option Guard} {unsettled : Bool}

theorem entry_markUnsettled (entry : owner.entry id = some (unsettled, retained)) :
    (owner.markUnsettled id).entry id = some (true, retained) := by
  unfold TaskOwner.markUnsettled
  rw [entry_modify_self]
  obtain ⟨record, found, same⟩ := map_eq_some_iff.mp entry
  rw [found, ← (Prod.mk.inj same).2]
  rfl

theorem entry_takeRetained (entry : owner.entry id = some (unsettled, retained)) :
    (owner.takeRetained id).1.entry id = some (unsettled, none) := by
  unfold TaskOwner.takeRetained
  rw [entry_modify_self]
  obtain ⟨record, found, same⟩ := map_eq_some_iff.mp entry
  rw [found, ← (Prod.mk.inj same).1]
  rfl

/-- Marking a task as unsettled is all a supervisor does that does not release its guards. -/
theorem Consistent.unsettle (consistent : process.Consistent) {before : Supervisor Guard}
    (now : process.supervisors id = some before) (was : before.entry = some (false, retained))
    (is : supervisor.entry = some (true, retained))
    (keeps : before.stage.completed = true → supervisor.stage.completed = true)
    (dropped : ∀ entry ∈ released, entry ∈ process.released ∨
      entry.1 = id ∧ supervisor.stage.completed = true) :
    Consistent ⟨process.owner.markUnsettled id, process.nextTaskId,
      process.goOn id supervisor, released⟩ := by
  refine consistent.goOn now (bounded_modify _ _ _ consistent.bounded)
    (fun other apart => entry_modify_of_ne _ _ apart) ?_ keeps dropped
  rw [is]
  exact entry_markUnsettled ((consistent.entry now).trans was)

theorem mem_append_retained {completed : Prop} (done : completed) :
    ∀ entry ∈ released ++ (retained.map fun guard => (id, guard)).toList,
      entry ∈ released ∨ entry.1 = id ∧ completed := by
  intro entry member
  rcases mem_append.mp member with earlier | now
  · exact .inl earlier
  · rw [mem_toList, map_eq_some_iff] at now
    obtain ⟨guard, _, rfl⟩ := now
    exact .inr ⟨rfl, done⟩

theorem consistent_spawned (consistent : process.Consistent) {retained : Guard}
    (accepted : process.owner.trySpawn process.nextTaskId runtime retained =
      (owner, next, .ok id)) :
    Consistent ⟨owner, next, process.goOn id ⟨retained, .awaiting⟩,
      process.released ++ process.dropped id⟩ := by
  obtain ⟨_, room, rfl, rfl, rfl⟩ := TaskOwner.trySpawn_eq_ok _ _ accepted
  have unknown := consistent.fresh process.nextTaskId le_rfl
  have absent : process.owner.tasks.lookup process.nextTaskId = none := by
    have entry := consistent.entries process.nextTaskId
    rw [unknown] at entry
    exact map_eq_none_iff.mp entry
  have missing : process.nextTaskId ∉ process.owner.tasks.keys :=
    lookup_eq_none.mp absent
  have nothing : process.dropped process.nextTaskId = [] := by
    unfold dropped
    rw [absent]
    rfl
  rw [nothing, List.append_nil]
  refine ⟨?_, fun other fresh => ?_, fun other => ?_, fun other guard member => ?_⟩
  · show (AList.insert _ _ _).keys.length ≤ _
    rw [keys_insert, erase_of_not_mem missing]
    exact room
  · have apart : other ≠ process.nextTaskId := Nat.ne_of_gt fresh
    exact (goOn_of_ne _ apart).trans (consistent.fresh other ((Nat.le_succ _).trans fresh))
  · show TaskOwner.entry _ other = (process.goOn _ _ other).bind Supervisor.entry
    by_cases same : other = process.nextTaskId
    · rw [same, goOn_self]
      unfold TaskOwner.entry
      rw [lookup_insert]
      rfl
    · rw [goOn_of_ne _ same]
      unfold TaskOwner.entry
      rw [lookup_insert_ne same]
      exact consistent.entries other
  · obtain ⟨found, there, completed⟩ := consistent.released other guard member
    have apart : other ≠ process.nextTaskId := by
      rintro rfl
      rw [unknown] at there
      cases there
    exact ⟨found, (goOn_of_ne _ apart).trans there, completed⟩

variable {guard : Guard}

theorem consistent_settles (consistent : process.Consistent)
    (now : process.supervisors id = some ⟨guard, .released⟩) :
    Consistent ⟨process.owner.remove id, process.nextTaskId, process.goOn id ⟨guard, .settled⟩,
      process.released ++ process.dropped id⟩ := by
  refine consistent.goOn now ?_ (fun other apart => ?_) ?_ (fun _ => rfl)
    (mem_append_retained rfl)
  · show (AList.erase id process.owner.tasks).keys.length ≤ process.owner.capacity
    rw [keys_erase]
    exact (length_erase_le ..).trans consistent.bounded
  · show ((AList.erase id process.owner.tasks).lookup other).map _ = _
    rw [lookup_erase_ne apart]
    rfl
  · show ((AList.erase id process.owner.tasks).lookup id).map _ = none
    rw [lookup_erase]
    rfl

theorem consistent_step (step : process.Step after) (consistent : process.Consistent) :
    after.Consistent := by
  cases step with
  | spawned accepted => exact consistent_spawned consistent accepted
  | refused declined =>
    obtain ⟨rfl, rfl⟩ := TaskOwner.trySpawn_eq_error _ declined
    exact consistent
  | elsewhere later =>
    exact ⟨consistent.bounded, fun id fresh => consistent.fresh id (later.trans fresh),
      consistent.entries, consistent.released⟩
  | returned now =>
    exact consistent.goOn now consistent.bounded (fun _ _ => rfl)
      (Eq.trans (consistent.entry now) rfl)
      (fun _ => rfl) fun _ => .inl
  | failed now =>
    exact consistent.goOn now consistent.bounded (fun _ _ => rfl)
      (Eq.trans (consistent.entry now) rfl)
      (fun done => done) fun _ => .inl
  | abandoned now | notes now =>
    exact consistent.unsettle now rfl rfl (fun done => done) fun _ => .inl
  | takes now =>
    exact consistent.goOn now (bounded_modify _ _ _ consistent.bounded)
      (fun _ apart => entry_modify_of_ne _ _ apart)
      (entry_takeRetained (consistent.entry now)) (fun _ => rfl) fun _ => .inl
  | drops now =>
    exact consistent.goOn now consistent.bounded (fun _ _ => rfl)
      (Eq.trans (consistent.entry now) rfl)
      (fun _ => rfl) (mem_append_retained rfl)
  | unwinds now =>
    exact consistent.unsettle now rfl rfl (fun _ => rfl) (mem_append_retained rfl)
  | settles now => exact consistent_settles consistent now
  | cancels id =>
    refine ⟨bounded_modify _ _ _ consistent.bounded, consistent.fresh, fun other => ?_,
      consistent.released⟩
    refine Eq.trans ?_ (consistent.entries other)
    by_cases same : other = id
    · rw [same]
      exact entry_modify_self ..
    · exact entry_modify_of_ne _ _ same
  | closes => exact ⟨consistent.bounded, consistent.fresh, consistent.entries,
      consistent.released⟩
  | triesToClose =>
    obtain ⟨tasks, capacity⟩ := process.owner.tasks_tryCloseIdle
    refine ⟨?_, consistent.fresh, fun other => ?_, consistent.released⟩
    · show process.owner.tryCloseIdle.1.tasks.keys.length ≤ process.owner.tryCloseIdle.1.capacity
      rw [tasks, capacity]
      exact consistent.bounded
    · refine Eq.trans ?_ (consistent.entries other)
      show (process.owner.tryCloseIdle.1.tasks.lookup other).map _ = _
      rw [tasks]
      rfl

/-! ### Any run -/

/-- A task that broke stays broken, and an owner that is closing stays so with no task it did not
have. -/
structure Outlives (before after : OwnerProcess Guard) : Prop where
  broken : ∀ id supervisor, before.supervisors id = some supervisor →
    supervisor.stage.broken = true → ∃ later, after.supervisors id = some later ∧
      later.guard = supervisor.guard ∧ later.stage.broken = true
  closing : before.owner.closing = true → after.owner.closing = true ∧
    ∀ id, before.supervisors id = none → after.supervisors id = none

theorem Outlives.goOn {process : OwnerProcess Guard} {id : TaskId} {stage next : Stage Guard}
    (now : process.supervisors id = some ⟨guard, stage⟩)
    (stays : stage.broken = true → next.broken = true)
    (closing : process.owner.closing = true → owner.closing = true)
    (released : List (TaskId × Guard)) :
    Outlives process ⟨owner, process.nextTaskId, process.goOn id ⟨guard, next⟩, released⟩ := by
  refine ⟨fun other supervisor there broken => ?_, fun shut => ⟨closing shut, ?_⟩⟩
  · by_cases same : other = id
    · rw [same, now] at there
      cases there
      exact ⟨⟨guard, next⟩, by rw [same]; exact goOn_self _, rfl, stays broken⟩
    · exact ⟨supervisor, (goOn_of_ne _ same).trans there, rfl, broken⟩
  · intro other unknown
    have apart : other ≠ id := by
      rintro rfl
      rw [now] at unknown
      cases unknown
    exact (goOn_of_ne _ apart).trans unknown

theorem Outlives.of_owner {process : OwnerProcess Guard}
    (closing : process.owner.closing = true → owner.closing = true) :
    Outlives process { process with owner := owner, nextTaskId := next } :=
  ⟨fun _ supervisor there broken => ⟨supervisor, there, rfl, broken⟩,
    fun shut => ⟨closing shut, fun _ unknown => unknown⟩⟩

theorem closing_modify (owner : TaskOwner Guard) (id : TaskId)
    (change : TaskRecord Guard → TaskRecord Guard) (closing : owner.closing = true) :
    (owner.modify id change).closing = true :=
  (TaskOwner.modify_frame ..).2.trans closing

theorem outlives_step (step : process.Step after) (consistent : process.Consistent) :
    Outlives process after := by
  cases step with
  | @spawned _ retained owner next id accepted =>
    obtain ⟨isOpen, _, rfl, _⟩ := TaskOwner.trySpawn_eq_ok _ _ accepted
    refine ⟨fun other supervisor there broken => ?_, fun shut => ?_⟩
    · have apart : other ≠ process.nextTaskId := by
        rintro rfl
        rw [consistent.fresh _ le_rfl] at there
        cases there
      exact ⟨supervisor, (goOn_of_ne _ apart).trans there, rfl, broken⟩
    · rw [isOpen] at shut
      cases shut
  | refused declined =>
    obtain ⟨rfl, rfl⟩ := TaskOwner.trySpawn_eq_error _ declined
    exact .of_owner fun shut => shut
  | elsewhere later => exact .of_owner fun shut => shut
  | returned now | drops now => exact .goOn now nofun (fun shut => shut) _
  | failed now => exact .goOn now (fun _ => rfl) (fun shut => shut) _
  | abandoned now | notes now => exact .goOn now (fun _ => rfl) (closing_modify _ _ _) _
  | takes now | unwinds now => exact .goOn now nofun (closing_modify _ _ _) _
  | @settles id _ now =>
    have closing : process.owner.closing = true → (process.owner.remove id).closing = true :=
      fun shut => shut
    exact .goOn now nofun closing _
  | cancels id => exact .of_owner (closing_modify _ _ _)
  | closes => exact .of_owner fun _ => rfl
  | triesToClose => exact .of_owner (TaskOwner.closing_tryCloseIdle _)

variable {before later : OwnerProcess Guard}

theorem consistent_run (consistent : before.Consistent) (run : ReflTransGen Step before later) :
    later.Consistent := by
  induction run with
  | refl => exact consistent
  | tail _ step ih => exact consistent_step step ih

theorem outlives_run (consistent : before.Consistent) (run : ReflTransGen Step before later) :
    Outlives before later := by
  induction run with
  | refl => exact .of_owner fun shut => shut
  | tail earlier step ih =>
    have last := outlives_step step (consistent_run consistent earlier)
    refine ⟨fun id supervisor there broken => ?_, fun shut => ?_⟩
    · obtain ⟨middle, now, same, stillBroken⟩ :=
        ih.broken id supervisor there broken
      obtain ⟨final, nowFinal, sameFinal, finallyBroken⟩ := last.broken id middle now stillBroken
      exact ⟨final, nowFinal, sameFinal.trans same, finallyBroken⟩
    · obtain ⟨shutToo, unknown⟩ := ih.closing shut
      obtain ⟨shutLast, unknownLast⟩ := last.closing shutToo
      exact ⟨shutLast, fun id before => unknownLast id (unknown id before)⟩

theorem consistent_start (owner : TaskOwner Guard) (nextTaskId : Nat)
    (empty : owner.tasks = ∅) : (start owner nextTaskId).Consistent := by
  refine ⟨?_, fun _ _ => rfl, fun id => ?_, nofun⟩
  · show owner.tasks.keys.length ≤ owner.capacity
    rw [empty]
    exact Nat.zero_le _
  · show (owner.tasks.lookup id).map _ = none
    rw [empty, lookup_empty]
    rfl

/-- The record of a broken task is there, with what the task was accepted with. -/
theorem Consistent.retains (consistent : process.Consistent)
    (now : process.supervisors id = some supervisor) (broken : supervisor.stage.broken = true) :
    ∃ record, process.owner.tasks.lookup id = some record ∧
      record.retained = some supervisor.guard ∧
      ((∀ error, supervisor.stage ≠ .failed error) → record.unsettled = true) := by
  have entry := consistent.entry now
  obtain ⟨guard, stage⟩ := supervisor
  cases stage with
  | failed error =>
    obtain ⟨record, found, same⟩ := map_eq_some_iff.mp entry
    exact ⟨record, found, (Prod.mk.inj same).2, fun noted => absurd rfl (noted error)⟩
  | noted | abandoned =>
    obtain ⟨record, found, same⟩ := map_eq_some_iff.mp entry
    exact ⟨record, found, (Prod.mk.inj same).2, fun _ => (Prod.mk.inj same).1⟩
  | _ => cases broken

theorem shutdownReceipt_iff (owner : TaskOwner Guard) :
    owner.shutdownReceipt = true ↔ owner.closing = true ∧ ∀ id, owner.entry id = none := by
  have empty : owner.tasks.entries = [] ↔ ∀ id, owner.entry id = none := by
    have missing : ∀ id, owner.entry id = none ↔ id ∉ owner.tasks.entries.keys := by
      intro id
      unfold TaskOwner.entry
      rw [map_eq_none_iff, lookup_eq_none]
      rfl
    simp only [missing]
    constructor
    · intro nothing id
      rw [nothing]
      exact not_mem_nil
    · intro nothing
      exact map_eq_nil_iff.mp (eq_nil_iff_forall_not_mem.mpr nothing)
  rw [TaskOwner.shutdownReceipt, Bool.and_eq_true, List.isEmpty_iff, empty]

/-- Once a receipt can be issued it can be issued for ever. -/
theorem receipt_step (step : process.Step after) (consistent : process.Consistent)
    (receipt : process.owner.shutdownReceipt = true) : after.owner.shutdownReceipt = true := by
  rw [shutdownReceipt_iff] at receipt ⊢
  obtain ⟨closing, empty⟩ := receipt
  have finished : ∀ {id : TaskId} {supervisor : Supervisor Guard},
      process.supervisors id = some supervisor → supervisor.entry = none :=
    fun now => (consistent.entry now).symm.trans (empty _)
  cases step with
  | spawned accepted =>
    have isOpen := (TaskOwner.trySpawn_eq_ok _ _ accepted).1
    rw [closing] at isOpen
    cases isOpen
  | refused declined =>
    obtain ⟨rfl, rfl⟩ := TaskOwner.trySpawn_eq_error _ declined
    exact ⟨closing, empty⟩
  | elsewhere later => exact ⟨closing, empty⟩
  | returned now | failed now | abandoned now | takes now | drops now | unwinds now | settles now
  | notes now =>
    cases finished now
  | cancels id =>
    refine ⟨closing_modify _ _ _ closing, fun other => ?_⟩
    by_cases same : other = id
    · rw [same]
      exact (entry_modify_self ..).trans (empty id)
    · exact (entry_modify_of_ne _ _ same).trans (empty other)
  | closes => exact ⟨rfl, empty⟩
  | triesToClose =>
    refine ⟨TaskOwner.closing_tryCloseIdle _ closing, fun other => ?_⟩
    show (process.owner.tryCloseIdle.1.tasks.lookup other).map _ = none
    rw [process.owner.tasks_tryCloseIdle.1]
    exact empty other

theorem receipt_run (consistent : before.Consistent) (run : ReflTransGen Step before later)
    (receipt : before.owner.shutdownReceipt = true) : later.owner.shutdownReceipt = true := by
  induction run with
  | refl => exact receipt
  | tail earlier step ih =>
    exact receipt_step step (consistent_run consistent earlier) ih

end OwnerProcess

open OwnerProcess in
/-- In every run of an owner: there are never more tasks than its capacity; once it is closing it
takes nothing in; guards are dropped only of tasks whose work came to its end, and a task that
broke keeps its record, its guards and, once that is noted, its mark for ever; a receipt is issued
only by an owner that is closing without any task, and that it remains; and a busy owner does not
close when asked to close if idle. -/
theorem taskOwner_protocol (maxActive nextTaskId : Nat) (owner : TaskOwner Guard)
    (made : TaskOwner.new maxActive = .ok owner) (process : OwnerProcess Guard)
    (reached : ReflTransGen Step (start owner nextTaskId) process) :
    process.owner.tasks.keys.length ≤ process.owner.capacity ∧
    (process.owner.closing = true →
      (∀ id runtime retained, ∃ error,
        process.owner.trySpawn id runtime retained = (process.owner, id, .error error)) ∧
      ∀ later, ReflTransGen Step process later → later.owner.closing = true ∧
        ∀ id, process.supervisors id = none → later.supervisors id = none) ∧
    (∀ id guard, (id, guard) ∈ process.released →
      ∃ supervisor, process.supervisors id = some supervisor ∧
        supervisor.stage.completed = true) ∧
    (∀ id supervisor, process.supervisors id = some supervisor →
      supervisor.stage.broken = true → ∀ later, ReflTransGen Step process later →
        ∃ now record, later.supervisors id = some now ∧ now.stage.broken = true ∧
          later.owner.tasks.lookup id = some record ∧
          record.retained = some supervisor.guard ∧
          ((∀ error, now.stage ≠ .failed error) → record.unsettled = true)) ∧
    (process.owner.shutdownReceipt = true → ∀ later, ReflTransGen Step process later →
      later.owner.closing = true ∧ ∀ id, later.owner.tasks.lookup id = none) ∧
    (process.owner.tasks.entries ≠ [] →
      process.owner.tryCloseIdle = (process.owner, .error process.owner.snapshot)) := by
  have empty : owner.tasks = ∅ := by
    unfold TaskOwner.new at made
    split at made <;> cases made
    rfl
  have consistent := consistent_run (consistent_start owner nextTaskId empty) reached
  refine ⟨consistent.bounded, fun closing => ⟨TaskOwner.trySpawn_of_closing _ closing,
    fun later run => (outlives_run consistent run).closing closing⟩, consistent.released,
    fun id supervisor there broken later run => ?_, fun receipt later run => ?_,
    TaskOwner.tryCloseIdle_of_busy _⟩
  · obtain ⟨now, nowThere, same, stillBroken⟩ :=
      (outlives_run consistent run).broken id supervisor there broken
    obtain ⟨record, found, retained, unsettled⟩ :=
      (consistent_run consistent run).retains nowThere stillBroken
    exact ⟨now, record, nowThere, stillBroken, found, same ▸ retained, unsettled⟩
  · obtain ⟨closing, nothing⟩ :=
      (shutdownReceipt_iff _).mp (receipt_run consistent run receipt)
    exact ⟨closing, fun id => map_eq_none_iff.mp (nothing id)⟩

/-- An owner for a single task, with a guard that is only counted. -/
def singleOwner : TaskOwner Unit := ⟨1, false, ∅⟩

open OwnerProcess in
theorem taskOwner_protocol_single :
    ∃ process, ReflTransGen Step (start singleOwner 1) process ∧
      process.supervisors 1 = some ⟨(), .failed .panicked⟩ ∧
      ∃ now record, process.supervisors 1 = some now ∧ now.stage.broken = true ∧
        process.owner.tasks.lookup 1 = some record ∧ record.retained = some () ∧
        ((∀ error, now.stage ≠ .failed error) → record.unsettled = true) := by
  have accepted : singleOwner.trySpawn 1 true () =
      ({ singleOwner with tasks := singleOwner.tasks.insert 1 ⟨false, false, some ()⟩ }, 2,
        .ok 1) := rfl
  have spawned : Step (start singleOwner 1) _ := Step.spawned accepted
  have reached := (ReflTransGen.single spawned).tail (@Step.failed _ _ 1 () .panicked rfl)
  refine ⟨_, reached, rfl, ?_⟩
  exact (taskOwner_protocol 1 1 singleOwner rfl _ reached).2.2.2.1 1 _ rfl rfl _ .refl

end Axial.App
