/-
This file models the capacity of `core/resource/src/lib.rs`: the semaphores of
a `PhysicalWorkOwner`, the permits that admissions and scratch reservations
take from them one after the other, and the counters of admissions and running
workers. A task may be dropped wherever it waits. Permits go to those who wait
at a semaphore in the order in which they came.
-/

import Axial.Library.Gates
import Axial.Library.Runs

namespace Axial.Resource

open Relation Gates Function List Option

/-! ### Requests -/

abbrev scratchUnitBytes : Nat := 2 ^ 20

/-- `u32::MAX`. -/
abbrev u32Max : Nat := 2 ^ 32 - 1

inductive PhysicalWorkClass where
  | foreground
  | background
  | crashCollection
  deriving DecidableEq

inductive PhysicalIoClass where
  | metadata
  | read
  | write
  | heavy
  deriving DecidableEq

inductive PhysicalWorkError where
  | scratchLimit
  | unavailable
  | workerLimit
  | cancelled
  | deadline
  deriving DecidableEq

structure PhysicalWorkRequest where
  workClass : PhysicalWorkClass
  io : PhysicalIoClass
  scratchBytes : Nat
  parallelism : Nat
  deriving DecidableEq

/-- The semaphores in the order in which an admission takes from them. -/
inductive Gate where
  | scratch
  | background
  | crash
  | heavy
  | workers
  deriving DecidableEq

def Gate.index : Gate → Nat
  | .scratch => 0
  | .background => 1
  | .crash => 2
  | .heavy => 3
  | .workers => 4

/-- The gates in the order in which every task goes through those it needs. -/
def Gate.all : List Gate := [.scratch, .background, .crash, .heavy, .workers]

instance : LinearOrder Gate :=
  LinearOrder.lift' Gate.index fun first second => by cases first <;> cases second <;> decide

/-- The limits of an owner. Every owner that the program makes has room for one task at each of
the gates where a task takes a single permit. -/
structure PhysicalWorkLimits where
  workers : Nat
  background : Nat
  crash : Nat
  heavy : Nat
  scratchBytes : Nat
  background_pos : 0 < background
  crash_pos : 0 < crash
  heavy_pos : 0 < heavy

/-- `PROCESS_LIMITS`. -/
def processLimits : PhysicalWorkLimits where
  workers := 4
  background := 2
  crash := 2
  heavy := 1
  scratchBytes := 512 * scratchUnitBytes
  background_pos := by decide
  crash_pos := by decide
  heavy_pos := by decide

/-- `div_ceil(SCRATCH_UNIT_BYTES)`. -/
def scratchUnits (bytes : Nat) : Nat := (bytes + (scratchUnitBytes - 1)) / scratchUnitBytes

/-- The permits that the semaphores start with. -/
def PhysicalWorkLimits.permits (limits : PhysicalWorkLimits) : Gate → Nat
  | .scratch => scratchUnits limits.scratchBytes
  | .background => limits.background
  | .crash => limits.crash
  | .heavy => limits.heavy
  | .workers => limits.workers

def scratchNeed (bytes : Nat) : List (Gate × Nat) :=
  if bytes = 0 then [] else [(.scratch, scratchUnits bytes)]

def PhysicalWorkClass.needs : PhysicalWorkClass → List (Gate × Nat)
  | .foreground => []
  | .background => [(.background, 1)]
  | .crashCollection => [(.background, 1), (.crash, 1)]

def PhysicalIoClass.needs : PhysicalIoClass → List (Gate × Nat)
  | .heavy => [(.heavy, 1)]
  | _ => []

/-- What is on its way to an admission or to a standalone scratch permit. -/
inductive Purpose where
  | admission (request : PhysicalWorkRequest)
  | scratch (bytes : Nat)

/-- The permits that `admit` and `try_admit`, or `reserve_scratch` and `try_reserve_scratch`, take
from the semaphores, in their order. -/
def Purpose.needs : Purpose → List (Gate × Nat)
  | .admission request => scratchNeed request.scratchBytes ++ request.workClass.needs ++
      request.io.needs ++ [(.workers, request.parallelism)]
  | .scratch bytes => scratchNeed bytes

/-! ### Tasks -/

inductive TaskStage where
  /-- About to take from the next semaphore. -/
  | acquiring
  /-- In the queue of the next semaphore, which has assigned some of the permits. -/
  | waiting (ticket given : Nat)
  /-- The admission or the standalone permit is there. -/
  | admitted
  /-- The worker has counted itself in. -/
  | running
  /-- The admission has counted itself out and the worker has not yet. -/
  | ending
  /-- The permits are given back, after an error or because the admission is dropped. -/
  | releasing (failed : Option PhysicalWorkError)
  deriving DecidableEq

/-- The `PhysicalWorkAdmission` is not dropped. -/
def TaskStage.live : TaskStage → Bool
  | .admitted | .running => true
  | _ => false

/-- The `RunningWorker` is not dropped. -/
def TaskStage.counted : TaskStage → Bool
  | .running | .ending => true
  | _ => false

/-- A call that takes permits, or what it has returned. `blocking` tells `admit` from `try_admit`. -/
structure PhysicalWorkTask where
  purpose : Purpose
  blocking : Bool
  held : Gate → Nat
  remaining : List (Gate × Nat)
  stage : TaskStage

namespace PhysicalWorkTask

def ticket (task : PhysicalWorkTask) : Option Nat :=
  match task.stage with
  | .waiting ticket _ => some ticket
  | _ => none

/-- What the semaphore in whose queue the task stands has assigned to it. -/
def given (task : PhysicalWorkTask) (gate : Gate) : Nat :=
  match task.stage, task.remaining with
  | .waiting _ given, need :: _ => if need.1 = gate then given else 0
  | _, _ => 0

def waitsAt (task : PhysicalWorkTask) (gate : Gate) : Prop :=
  ∃ ticket given count rest, task.stage = .waiting ticket given ∧
    task.remaining = (gate, count) :: rest

/-- The permits of a semaphore that the task has in any way. -/
def permits (task : PhysicalWorkTask) (gate : Gate) : Nat := task.held gate + task.given gate

/-- There is a `PhysicalWorkAdmission` of the class. -/
def live (workClass : PhysicalWorkClass) (task : PhysicalWorkTask) : Bool :=
  match task.purpose with
  | .admission request => task.stage.live && request.workClass == workClass
  | .scratch _ => false

/-- The parallelism that a `RunningWorker` of the class has counted in. -/
def parallelism (workClass : PhysicalWorkClass) (task : PhysicalWorkTask) : Nat :=
  match task.purpose with
  | .admission request =>
    if task.stage.counted = true ∧ request.workClass = workClass then request.parallelism else 0
  | .scratch _ => 0

/-- The task when it has passed the gate before it. -/
def passed (task : PhysicalWorkTask) : PhysicalWorkTask :=
  match task.remaining with
  | (gate, count) :: rest => { task with
      held := update task.held gate (task.held gate + count)
      remaining := rest
      stage := .acquiring }
  | [] => task

/-- The task as it waits in a queue. -/
def waiter (task : PhysicalWorkTask) : Waiter Gate where
  gate := (task.remaining.headD (.workers, 0)).1
  need := (task.remaining.headD (.workers, 0)).2
  given := task.given (task.remaining.headD (.workers, 0)).1
  ticket := task.ticket.getD 0
  held := task.held

end PhysicalWorkTask

/-! ### Owners -/

structure PhysicalWorkOwner where
  limits : PhysicalWorkLimits
  available : Gate → Nat
  active : PhysicalWorkClass → Nat
  running : PhysicalWorkClass → Nat
  tasks : Multiset PhysicalWorkTask
  nextTicket : Nat

namespace PhysicalWorkOwner

def new (limits : PhysicalWorkLimits) : PhysicalWorkOwner where
  limits := limits
  available := limits.permits
  active _ := 0
  running _ := 0
  tasks := 0
  nextTicket := 0

/-- `validate_parallelism`. -/
def validateParallelism (owner : PhysicalWorkOwner) (parallelism : Nat) :
    Except PhysicalWorkError Unit :=
  if parallelism = 0 ∨ parallelism > owner.limits.workers then .error .workerLimit else .ok ()

/-- What `reserve_scratch_inner` checks before it takes anything. -/
def validateScratch (owner : PhysicalWorkOwner) (bytes : Nat) : Except PhysicalWorkError Unit :=
  if bytes > owner.limits.scratchBytes then .error .scratchLimit
  else if scratchUnits bytes > u32Max then .error .scratchLimit
  else .ok ()

/-- A call of `admit` or `try_admit`, or of `reserve_scratch` or `try_reserve_scratch`, up to the
first semaphore. -/
def enter (owner : PhysicalWorkOwner) (purpose : Purpose) (blocking : Bool) :
    Except PhysicalWorkError PhysicalWorkOwner := do
  match purpose with
  | .admission request =>
    owner.validateParallelism request.parallelism
    owner.validateScratch request.scratchBytes
  | .scratch bytes => owner.validateScratch bytes
  return { owner with tasks := ⟨purpose, blocking, 0, purpose.needs, .acquiring⟩ ::ₘ owner.tasks }

/-- The semaphore can serve a newcomer at once. -/
def Open (owner : PhysicalWorkOwner) (gate : Gate) (count : Nat) : Prop :=
  count ≤ owner.available gate ∧ ∀ task ∈ owner.tasks, ¬task.waitsAt gate

inductive Step : PhysicalWorkOwner → PhysicalWorkOwner → Prop
  | enters {owner after purpose blocking}
      (accepted : owner.enter purpose blocking = .ok after) : Step owner after
  | passes {owner task others gate count rest}
      (there : owner.tasks = task ::ₘ others) (now : task.stage = .acquiring)
      (next : task.remaining = (gate, count) :: rest) (small : count ≤ u32Max)
      (free : owner.Open gate count) :
      Step owner { owner with
        available := update owner.available gate (owner.available gate - count)
        tasks := { task with
          held := update task.held gate (task.held gate + count)
          remaining := rest } ::ₘ others }
  | queues {owner task others gate count rest}
      (there : owner.tasks = task ::ₘ others) (now : task.stage = .acquiring)
      (next : task.remaining = (gate, count) :: rest) (small : count ≤ u32Max)
      (waits : task.blocking = true) (short : ¬owner.Open gate count) :
      Step owner { owner with
        tasks := { task with stage := .waiting owner.nextTicket 0 } ::ₘ others
        nextTicket := owner.nextTicket + 1 }
  | unavailable {owner task others gate count rest}
      (there : owner.tasks = task ::ₘ others) (now : task.stage = .acquiring)
      (next : task.remaining = (gate, count) :: rest) (small : count ≤ u32Max)
      (refuses : task.blocking = false) (short : ¬owner.Open gate count) :
      Step owner { owner with
        tasks := { task with stage := .releasing (some .unavailable) } ::ₘ others }
  | overflows {owner task others gate count rest}
      (there : owner.tasks = task ::ₘ others) (now : task.stage = .acquiring)
      (next : task.remaining = (gate, count) :: rest) (large : u32Max < count) :
      Step owner { owner with
        tasks := { task with stage := .releasing (some .workerLimit) } ::ₘ others }
  /-- The semaphore assigns permits to the first in its queue. -/
  | assigns {owner task others gate count ticket given rest} (units : Nat)
      (there : owner.tasks = task ::ₘ others) (now : task.stage = .waiting ticket given)
      (next : task.remaining = (gate, count) :: rest)
      (first : ∀ other ∈ others, other.waitsAt gate → ∀ later ∈ other.ticket, ticket ≤ later)
      (enough : units ≤ owner.available gate) (wanted : given + units ≤ count) :
      Step owner { owner with
        available := update owner.available gate (owner.available gate - units)
        tasks := { task with stage := .waiting ticket (given + units) } ::ₘ others }
  /-- The task that was assigned all it waited for goes on. -/
  | granted {owner task others gate count ticket rest}
      (there : owner.tasks = task ::ₘ others) (now : task.stage = .waiting ticket count)
      (next : task.remaining = (gate, count) :: rest) :
      Step owner { owner with
        tasks := { task with
          held := update task.held gate (task.held gate + count)
          remaining := rest
          stage := .acquiring } ::ₘ others }
  /-- The future of the call is dropped, by a cancellation, a deadline or its owner. -/
  | abandoned {owner task others} (failed : Option PhysicalWorkError)
      (there : owner.tasks = task ::ₘ others)
      (now : task.stage = .acquiring ∨ ∃ ticket given, task.stage = .waiting ticket given)
      (waits : task.blocking = true) :
      Step owner { owner with
        tasks := { task with held := task.permits, stage := .releasing failed } ::ₘ others }
  | admits {owner task others request}
      (there : owner.tasks = task ::ₘ others) (now : task.stage = .acquiring)
      (all : task.remaining = []) (made : task.purpose = .admission request) :
      Step owner { owner with
        active := update owner.active request.workClass
          (owner.active request.workClass + 1)
        tasks := { task with stage := .admitted } ::ₘ others }
  | reserves {owner task others bytes}
      (there : owner.tasks = task ::ₘ others) (now : task.stage = .acquiring)
      (all : task.remaining = []) (made : task.purpose = .scratch bytes) :
      Step owner { owner with tasks := { task with stage := .admitted } ::ₘ others }
  /-- `RunningWorker::new`. -/
  | runs {owner task others request}
      (there : owner.tasks = task ::ₘ others) (now : task.stage = .admitted)
      (made : task.purpose = .admission request) :
      Step owner { owner with
        running := update owner.running request.workClass
          (owner.running request.workClass + request.parallelism)
        tasks := { task with stage := .running } ::ₘ others }
  /-- The admission is dropped by the worker, before its own count. -/
  | finishes {owner task others request}
      (there : owner.tasks = task ::ₘ others) (now : task.stage = .running)
      (made : task.purpose = .admission request) :
      Step owner { owner with
        active := update owner.active request.workClass
          (owner.active request.workClass - 1)
        tasks := { task with stage := .ending } ::ₘ others }
  /-- The admission is dropped without having run. -/
  | unused {owner task others request}
      (there : owner.tasks = task ::ₘ others) (now : task.stage = .admitted)
      (made : task.purpose = .admission request) :
      Step owner { owner with
        active := update owner.active request.workClass
          (owner.active request.workClass - 1)
        tasks := { task with stage := .releasing none } ::ₘ others }
  | freed {owner task others bytes}
      (there : owner.tasks = task ::ₘ others) (now : task.stage = .admitted)
      (made : task.purpose = .scratch bytes) :
      Step owner { owner with tasks := { task with stage := .releasing none } ::ₘ others }
  /-- A permit is dropped. -/
  | returns {owner task others} (gate : Gate)
      (there : owner.tasks = task ::ₘ others)
      (now : task.stage = .ending ∨ ∃ failed, task.stage = .releasing failed) :
      Step owner { owner with
        available := update owner.available gate (owner.available gate + task.held gate)
        tasks := { task with held := update task.held gate 0 } ::ₘ others }
  /-- The `RunningWorker` is dropped. -/
  | ends {owner task others request}
      (there : owner.tasks = task ::ₘ others) (now : task.stage = .ending)
      (made : task.purpose = .admission request) (nothing : ∀ gate, task.held gate = 0) :
      Step owner { owner with
        running := update owner.running request.workClass
          (owner.running request.workClass - request.parallelism)
        tasks := others }
  | leaves {owner task others failed}
      (there : owner.tasks = task ::ₘ others) (now : task.stage = .releasing failed)
      (nothing : ∀ gate, task.held gate = 0) :
      Step owner { owner with tasks := others }

variable {owner after : PhysicalWorkOwner} {task moved : PhysicalWorkTask}
  {others tasks : Multiset PhysicalWorkTask} {gate : Gate} {nextTicket : Nat}

/-! ### Queues -/

/-- Those who wait have tickets of their own, and only the first at a semaphore has been assigned
anything. -/
structure InTurn (tasks : Multiset PhysicalWorkTask) (nextTicket : Nat) : Prop where
  distinct : (tasks.filterMap PhysicalWorkTask.ticket).Nodup
  issued : ∀ task ∈ tasks, ∀ ticket ∈ task.ticket, ticket < nextTicket
  first : ∀ task ∈ tasks, ∀ gate, task.given gate ≠ 0 → ∀ other ∈ tasks, other.waitsAt gate →
    ∀ ticket ∈ task.ticket, ∀ later ∈ other.ticket, ticket ≤ later

theorem ticket_of_given (assigned : task.given gate ≠ 0) : ∃ ticket, task.ticket = some ticket := by
  unfold PhysicalWorkTask.given at assigned
  unfold PhysicalWorkTask.ticket
  split at assigned
  · rename_i ticket given need rest stage remaining
    rw [stage]
    exact ⟨ticket, rfl⟩
  · exact absurd rfl assigned

theorem InTurn.tail (turn : InTurn (task ::ₘ others) nextTicket) : InTurn others nextTicket where
  distinct := by
    have distinct := turn.distinct
    rw [Multiset.filterMap_cons] at distinct
    exact Multiset.nodup_of_le (Multiset.le_add_left _ _) distinct
  issued member inside := turn.issued member (Multiset.mem_cons_of_mem inside)
  first member inside gate assigned other there :=
    turn.first member (Multiset.mem_cons_of_mem inside) gate assigned other
      (Multiset.mem_cons_of_mem there)

theorem InTurn.quiet (turn : InTurn others nextTicket) (silent : task.ticket = none) :
    InTurn (task ::ₘ others) nextTicket where
  distinct := by
    rw [Multiset.filterMap_cons_none _ _ silent]
    exact turn.distinct
  issued := by
    intro member inside ticket has
    rcases Multiset.mem_cons.mp inside with rfl | inside
    · rw [silent] at has
      cases has
    · exact turn.issued member inside ticket has
  first := by
    intro member inside gate assigned other there waits ticket has later hasToo
    rcases Multiset.mem_cons.mp inside with rfl | inside
    · rw [silent] at has
      cases has
    rcases Multiset.mem_cons.mp there with rfl | there
    · rw [silent] at hasToo
      cases hasToo
    · exact turn.first member inside gate assigned other there waits ticket has later hasToo

/-- A task that comes last, or that was there before and is first at the semaphore where it is
assigned more. -/
theorem InTurn.cons {ticket : Nat} (turn : InTurn others nextTicket)
    (has : task.ticket = some ticket) (issued : ticket < nextTicket)
    (fresh : ∀ other ∈ others, ticket ∉ other.ticket)
    (leads : ∀ gate, task.given gate ≠ 0 → ∀ other ∈ others, other.waitsAt gate →
      ∀ later ∈ other.ticket, ticket ≤ later)
    (follows : ∀ gate, task.waitsAt gate → ∀ other ∈ others, other.given gate ≠ 0 →
      ∀ earlier ∈ other.ticket, earlier ≤ ticket) :
    InTurn (task ::ₘ others) nextTicket where
  distinct := by
    rw [Multiset.filterMap_cons_some _ _ _ has, Multiset.nodup_cons]
    refine ⟨fun inside => ?_, turn.distinct⟩
    obtain ⟨other, there, same⟩ := (Multiset.mem_filterMap _ _).mp inside
    exact fresh other there same
  issued := by
    intro member inside other hasOther
    rcases Multiset.mem_cons.mp inside with rfl | inside
    · cases has.symm.trans hasOther
      exact issued
    · exact turn.issued member inside other hasOther
  first := by
    intro member inside gate assigned other there waits early hasEarly later hasLater
    rcases Multiset.mem_cons.mp inside with own | within
    · subst own
      cases has.symm.trans hasEarly
      rcases Multiset.mem_cons.mp there with rfl | beside
      · cases has.symm.trans hasLater
        exact le_rfl
      · exact leads gate assigned other beside waits later hasLater
    · rcases Multiset.mem_cons.mp there with rfl | beside
      · cases has.symm.trans hasLater
        exact follows gate waits member within assigned early hasEarly
      · exact turn.first member within gate assigned other beside waits early hasEarly later
          hasLater

/-! ### Books -/

/-- What a single task has, and may still ask for. -/
structure Sound (limits : PhysicalWorkLimits) (task : PhysicalWorkTask) : Prop where
  fits : ∀ need ∈ task.purpose.needs, need.2 ≤ limits.permits need.1
  /-- Until it gives them back, the task has the permits of the gates it has passed. -/
  taken : task.stage ≠ .ending → (∀ failed, task.stage ≠ .releasing failed) →
    ∃ taken, task.purpose.needs = taken ++ task.remaining ∧ ∀ gate, task.held gate = owed taken gate
  complete : task.stage = .admitted ∨ task.stage = .running → task.remaining = []
  queued : ∀ ticket given, task.stage = .waiting ticket given →
    ∃ gate count rest, task.remaining = (gate, count) :: rest ∧ given ≤ count

/-- What holds of every owner that was reached. -/
structure Consistent (owner : PhysicalWorkOwner) : Prop where
  conserved : ∀ gate, owner.available gate + (owner.tasks.map fun task => task.permits gate).sum =
    owner.limits.permits gate
  active : ∀ workClass, owner.active workClass =
    owner.tasks.countP fun task => task.live workClass = true
  running : ∀ workClass, owner.running workClass =
    (owner.tasks.map fun task => task.parallelism workClass).sum
  sound : ∀ task ∈ owner.tasks, Sound owner.limits task
  inTurn : InTurn owner.tasks owner.nextTicket

/-- A step of one task balances the books if what the task gains the owner loses. -/
theorem Consistent.replace (consistent : owner.Consistent) (there : owner.tasks = task ::ₘ others)
    (becomes : after.tasks = moved ::ₘ others) (limits : after.limits = owner.limits)
    (permits : ∀ gate, after.available gate + moved.permits gate =
      owner.available gate + task.permits gate)
    (active : ∀ workClass, after.active workClass + (task.live workClass).toNat =
      owner.active workClass + (moved.live workClass).toNat)
    (running : ∀ workClass, after.running workClass + task.parallelism workClass =
      owner.running workClass + moved.parallelism workClass)
    (sound : Sound owner.limits moved) (inTurn : InTurn (moved ::ₘ others) after.nextTicket) :
    after.Consistent := by
  have ⟨conserved, counted, busy, allSound, _⟩ := consistent
  simp only [there, Multiset.map_cons, Multiset.sum_cons] at conserved busy
  simp only [there, Multiset.countP_cons] at counted
  refine ⟨fun gate => ?_, fun workClass => ?_, fun workClass => ?_, ?_, becomes ▸ inTurn⟩
  · have before := conserved gate
    have balance := permits gate
    rw [becomes, limits, Multiset.map_cons, Multiset.sum_cons]
    omega
  · have before := counted workClass
    have balance := active workClass
    rw [becomes, Multiset.countP_cons]
    revert before balance
    cases task.live workClass <;> cases moved.live workClass <;> simp <;> omega
  · have before := busy workClass
    have balance := running workClass
    rw [becomes, Multiset.map_cons, Multiset.sum_cons]
    omega
  · intro other member
    rw [limits]
    rw [becomes] at member
    rcases Multiset.mem_cons.mp member with rfl | inside
    · exact sound
    · exact allSound other (there ▸ Multiset.mem_cons_of_mem inside)

theorem permits_of_silent (silent : task.ticket = none) (gate : Gate) :
    task.permits gate = task.held gate := by
  have nothing : task.given gate = 0 := by
    by_contra assigned
    obtain ⟨ticket, has⟩ := ticket_of_given assigned
    rw [silent] at has
    cases has
  unfold PhysicalWorkTask.permits
  rw [nothing, Nat.add_zero]

theorem ticket_of_stage (stage : ∀ ticket given, task.stage ≠ .waiting ticket given) :
    task.ticket = none := by
  unfold PhysicalWorkTask.ticket
  split
  · rename_i ticket given now
    exact absurd now (stage ticket given)
  · rfl

variable {bytes : Nat}

theorem validateScratch_ok (valid : owner.validateScratch bytes = .ok ()) :
    ∀ need ∈ scratchNeed bytes, need.2 ≤ owner.limits.permits need.1 := by
  unfold validateScratch at valid
  unfold scratchNeed
  split_ifs at valid ⊢ with large many empty
  · exact nofun
  · intro need member
    cases mem_singleton.mp member
    exact Nat.div_le_div_right (by omega)

/-- What may be entered fits in the semaphores. -/
theorem enter_ok {purpose : Purpose} {blocking : Bool}
    (accepted : owner.enter purpose blocking = .ok after) :
    after = { owner with
      tasks := ⟨purpose, blocking, 0, purpose.needs, .acquiring⟩ ::ₘ owner.tasks } ∧
    ∀ need ∈ purpose.needs, need.2 ≤ owner.limits.permits need.1 := by
  cases purpose with
  | scratch bytes =>
    simp only [enter, bind, Except.bind, pure, Except.pure] at accepted
    split at accepted
    · cases accepted
    · rename_i valid
      cases accepted
      exact ⟨rfl, validateScratch_ok valid⟩
  | admission request =>
    simp only [enter, bind, Except.bind, pure, Except.pure] at accepted
    split at accepted
    · cases accepted
    rename_i workers
    split at accepted
    · cases accepted
    rename_i scratch
    cases accepted
    unfold validateParallelism at workers
    split_ifs at workers with outside
    refine ⟨rfl, fun need member => ?_⟩
    have one := owner.limits.background_pos
    have two := owner.limits.crash_pos
    have three := owner.limits.heavy_pos
    simp only [Purpose.needs, mem_append, mem_singleton] at member
    rcases member with ((bytes | ofClass) | ofIo) | rfl
    · exact validateScratch_ok scratch need bytes
    · cases kind : request.workClass <;> rw [kind] at ofClass <;>
        simp only [PhysicalWorkClass.needs, mem_cons, not_mem_nil, or_false] at ofClass
      · subst ofClass
        exact one
      · rcases ofClass with rfl | rfl
        · exact one
        · exact two
    · cases kind : request.io <;> rw [kind] at ofIo <;>
        simp only [PhysicalIoClass.needs, mem_cons, not_mem_nil, or_false] at ofIo
      subst ofIo
      exact three
    · exact Nat.le_of_not_lt fun more => outside (.inr more)

section

variable (consistent : owner.Consistent)

include consistent

/-- An entered task is in the books from the beginning. -/
theorem Consistent.enters {purpose : Purpose} {blocking : Bool}
    (fits : ∀ need ∈ purpose.needs, need.2 ≤ owner.limits.permits need.1) :
    Consistent { owner with
      tasks := ⟨purpose, blocking, 0, purpose.needs, .acquiring⟩ ::ₘ owner.tasks } := by
  have silent : PhysicalWorkTask.ticket ⟨purpose, blocking, 0, purpose.needs, .acquiring⟩ = none :=
    rfl
  refine ⟨fun gate => ?_, fun workClass => ?_, fun workClass => ?_, ?_,
    consistent.inTurn.quiet silent⟩
  · rw [Multiset.map_cons, Multiset.sum_cons, permits_of_silent silent]
    exact (congrArg _ (Nat.zero_add _)).trans (consistent.conserved gate)
  · rw [Multiset.countP_cons_of_neg _ (by cases purpose <;> exact Bool.false_ne_true)]
    exact consistent.active workClass
  · have nothing : PhysicalWorkTask.parallelism workClass
        ⟨purpose, blocking, 0, purpose.needs, .acquiring⟩ = 0 := by
      cases purpose <;> rfl
    rw [Multiset.map_cons, Multiset.sum_cons, nothing, Nat.zero_add]
    exact consistent.running workClass
  · intro member inside
    rcases Multiset.mem_cons.mp inside with rfl | inside
    · exact ⟨fits, fun _ _ => ⟨[], rfl, fun _ => rfl⟩, fun now => by simp at now, nofun⟩
    · exact consistent.sound member inside

/-- The books after a task that holds nothing and counts for nothing has left. -/
theorem Consistent.leaves (there : owner.tasks = task ::ₘ others) (becomes : after.tasks = others)
    (limits : after.limits = owner.limits) (tickets : after.nextTicket = owner.nextTicket)
    (same : after.available = owner.available) (permits : ∀ gate, task.permits gate = 0)
    (active : ∀ workClass, after.active workClass = owner.active workClass ∧
      task.live workClass = false) (running : ∀ workClass, after.running workClass =
      owner.running workClass - task.parallelism workClass) : after.Consistent := by
  have ⟨conserved, counted, busy, allSound, inTurn⟩ := consistent
  simp only [there, Multiset.map_cons, Multiset.sum_cons] at conserved busy
  simp only [there, Multiset.countP_cons] at counted
  refine ⟨fun gate => ?_, fun workClass => ?_, fun workClass => ?_, ?_, ?_⟩
  · have before := conserved gate
    rw [permits gate, Nat.zero_add] at before
    rw [becomes, limits, same]
    exact before
  · have ⟨kept, dead⟩ := active workClass
    have before := counted workClass
    rw [dead, if_neg Bool.false_ne_true, Nat.add_zero] at before
    rw [becomes, kept]
    exact before
  · rw [becomes, running workClass, busy workClass, Nat.add_sub_cancel_left]
  · intro other member
    rw [limits]
    rw [becomes] at member
    exact allSound other (there ▸ Multiset.mem_cons_of_mem member)
  · rw [becomes, tickets]
    exact (there ▸ inTurn : InTurn (task ::ₘ others) owner.nextTicket).tail

/-! ### Steps -/

theorem Consistent.mine (there : owner.tasks = task ::ₘ others) : Sound owner.limits task :=
  consistent.sound task (there ▸ Multiset.mem_cons_self task others)

theorem Consistent.turn (there : owner.tasks = task ::ₘ others) :
    InTurn (task ::ₘ others) owner.nextTicket := there ▸ consistent.inTurn

theorem Consistent.activeOf (there : owner.tasks = task ::ₘ others) {workClass : PhysicalWorkClass}
    (live : task.live workClass = true) : 0 < owner.active workClass := by
  rw [consistent.active, there]
  exact Multiset.countP_pos.mpr ⟨task, Multiset.mem_cons_self task others, live⟩

end

variable {limits : PhysicalWorkLimits} {rest : List (Gate × Nat)} {count : Nat}

/-- The books of an owner after a task has passed a gate, the permits of which it holds now. -/
theorem Sound.pass (sound : Sound limits task) (unended : task.stage ≠ .ending)
    (unreleased : ∀ failed, task.stage ≠ .releasing failed)
    (next : task.remaining = (gate, count) :: rest) :
    Sound limits { task with
      held := update task.held gate (task.held gate + count)
      remaining := rest
      stage := .acquiring } := by
  refine ⟨sound.fits, fun _ _ => ?_, fun now => by simp at now, nofun⟩
  obtain ⟨taken, plan, holds⟩ := sound.taken unended unreleased
  refine ⟨taken ++ [(gate, count)], ?_, fun other => ?_⟩
  · show task.purpose.needs = taken ++ [(gate, count)] ++ rest
    rw [plan, next, append_assoc]
    rfl
  · rw [owed_append, owed_cons, owed_nil, ← holds]
    by_cases own : gate = other
    · subst own
      rw [if_pos rfl]
      exact update_self ..
    · rw [if_neg own]
      exact update_of_ne (Ne.symm own) ..

variable {stage : TaskStage}

/-- Only the stage changes, and not to one where a task would have to have everything. -/
theorem Sound.stay (sound : Sound limits task) (unended : task.stage ≠ .ending)
    (unreleased : ∀ failed, task.stage ≠ .releasing failed)
    (complete : stage = .admitted ∨ stage = .running → task.remaining = [])
    (queued : ∀ ticket given, stage = .waiting ticket given →
      ∃ gate count rest, task.remaining = (gate, count) :: rest ∧ given ≤ count) :
    Sound limits { task with stage := stage } :=
  ⟨sound.fits, fun _ _ => sound.taken unended unreleased, complete, queued⟩

variable {held : Gate → Nat}

/-- A task that gives its permits back. -/
theorem Sound.release (sound : Sound limits task)
    (back : stage = .ending ∨ ∃ failed, stage = .releasing failed) :
    Sound limits { task with held := held, stage := stage } := by
  refine ⟨sound.fits, fun unended unreleased => ?_, fun now => ?_, fun ticket given now => ?_⟩
  all_goals rcases back with rfl | ⟨failed, rfl⟩
  · exact absurd rfl unended
  · exact absurd rfl (unreleased failed)
  all_goals simp at now

theorem live_congr (purpose : moved.purpose = task.purpose)
    (stage : moved.stage.live = task.stage.live) (workClass : PhysicalWorkClass) :
    moved.live workClass = task.live workClass := by
  unfold PhysicalWorkTask.live
  rw [purpose, stage]

theorem parallelism_congr (purpose : moved.purpose = task.purpose)
    (stage : moved.stage.counted = task.stage.counted) (workClass : PhysicalWorkClass) :
    moved.parallelism workClass = task.parallelism workClass := by
  unfold PhysicalWorkTask.parallelism
  rw [purpose, stage]

variable {request : PhysicalWorkRequest}

theorem live_admission (made : task.purpose = .admission request) (workClass : PhysicalWorkClass) :
    task.live workClass = (task.stage.live && request.workClass == workClass) := by
  unfold PhysicalWorkTask.live
  rw [made]

theorem parallelism_admission (made : task.purpose = .admission request)
    (workClass : PhysicalWorkClass) :
    task.parallelism workClass =
      if task.stage.counted = true ∧ request.workClass = workClass then request.parallelism
      else 0 := by
  unfold PhysicalWorkTask.parallelism
  rw [made]

theorem live_scratch (made : task.purpose = .scratch bytes) (workClass : PhysicalWorkClass) :
    task.live workClass = false := by
  unfold PhysicalWorkTask.live
  rw [made]

theorem active_same (purpose : moved.purpose = task.purpose)
    (stage : moved.stage.live = task.stage.live) (workClass : PhysicalWorkClass) :
    owner.active workClass + (task.live workClass).toNat =
      owner.active workClass + (moved.live workClass).toNat := by
  rw [live_congr purpose stage]

theorem active_scratch (made : task.purpose = .scratch bytes)
    (same : moved.purpose = task.purpose) (workClass : PhysicalWorkClass) :
    owner.active workClass + (task.live workClass).toNat =
      owner.active workClass + (moved.live workClass).toNat := by
  rw [live_scratch made, live_scratch (same.trans made)]

theorem running_same (purpose : moved.purpose = task.purpose)
    (stage : moved.stage.counted = task.stage.counted) (workClass : PhysicalWorkClass) :
    owner.running workClass + task.parallelism workClass =
      owner.running workClass + moved.parallelism workClass := by
  rw [parallelism_congr purpose stage]

theorem live_of_dropped (dropped : task.stage.live = false) (workClass : PhysicalWorkClass) :
    task.live workClass = false := by
  unfold PhysicalWorkTask.live
  split
  · rw [dropped, Bool.false_and]
  · rfl

theorem parallelism_of_uncounted (uncounted : task.stage.counted = false)
    (workClass : PhysicalWorkClass) : task.parallelism workClass = 0 := by
  unfold PhysicalWorkTask.parallelism
  split
  · rw [if_neg (fun both => Bool.false_ne_true (uncounted.symm.trans both.1))]
  · rfl

section

variable (made : task.purpose = .admission request) (same : moved.purpose = task.purpose)

include made same

theorem active_admitted (before : task.stage.live = false) (now : moved.stage.live = true)
    (workClass : PhysicalWorkClass) :
    update owner.active request.workClass (owner.active request.workClass + 1) workClass +
        (task.live workClass).toNat =
      owner.active workClass + (moved.live workClass).toNat := by
  rw [live_admission made, live_admission (same.trans made), before, now]
  by_cases own : workClass = request.workClass
  · subst own
    rw [update_self, Bool.true_and, beq_self_eq_true]
    rfl
  · rw [update_of_ne own, Bool.true_and, beq_false_of_ne (Ne.symm own)]
    rfl

theorem active_dropped (before : task.stage.live = true) (now : moved.stage.live = false)
    (some : 0 < owner.active request.workClass) (workClass : PhysicalWorkClass) :
    update owner.active request.workClass (owner.active request.workClass - 1) workClass +
        (task.live workClass).toNat =
      owner.active workClass + (moved.live workClass).toNat := by
  rw [live_admission made, live_admission (same.trans made), before, now]
  by_cases own : workClass = request.workClass
  · subst own
    rw [update_self, Bool.true_and, beq_self_eq_true]
    exact Nat.sub_add_cancel some
  · rw [update_of_ne own, Bool.true_and, beq_false_of_ne (Ne.symm own)]
    rfl

theorem running_begun (before : task.stage.counted = false) (now : moved.stage.counted = true)
    (workClass : PhysicalWorkClass) :
    update owner.running request.workClass
        (owner.running request.workClass + request.parallelism) workClass +
        task.parallelism workClass =
      owner.running workClass + moved.parallelism workClass := by
  rw [parallelism_admission made, parallelism_admission (same.trans made), before, now]
  by_cases own : workClass = request.workClass
  · subst own
    rw [update_self, if_neg (fun both => Bool.false_ne_true both.1), if_pos ⟨rfl, rfl⟩,
      Nat.add_zero]
  · rw [update_of_ne own, if_neg (fun both => own both.2.symm),
      if_neg (fun both => own both.2.symm)]

end

theorem running_ended (made : task.purpose = .admission request)
    (before : task.stage.counted = true) (workClass : PhysicalWorkClass) :
    update owner.running request.workClass
        (owner.running request.workClass - request.parallelism) workClass =
      owner.running workClass - task.parallelism workClass := by
  rw [parallelism_admission made, before]
  by_cases own : workClass = request.workClass
  · subst own
    rw [update_self, if_pos ⟨rfl, rfl⟩]
  · rw [update_of_ne own, if_neg (fun both => own both.2.symm), Nat.sub_zero]

/-- A step of one task that no counter takes notice of. -/
theorem Consistent.quiet {available : Gate → Nat} (consistent : owner.Consistent)
    (there : owner.tasks = task ::ₘ others)
    (live : ∀ workClass, moved.live workClass = task.live workClass)
    (counted : ∀ workClass, moved.parallelism workClass = task.parallelism workClass)
    (permits : ∀ gate, available gate + moved.permits gate =
      owner.available gate + task.permits gate)
    (sound : Sound owner.limits moved) (inTurn : InTurn (moved ::ₘ others) nextTicket) :
    Consistent { owner with
      available := available, tasks := moved ::ₘ others, nextTicket := nextTicket } := by
  refine @Consistent.replace owner _ task moved others consistent there rfl rfl permits
    (fun workClass => ?_) (fun workClass => ?_) sound inTurn
  · rw [live]
  · rw [counted]

/-- A step between two stages without a ticket, with the permits held. -/
theorem Consistent.restage {active running : PhysicalWorkClass → Nat}
    (consistent : owner.Consistent) (there : owner.tasks = task ::ₘ others)
    (silent : task.ticket = none) (quiet : moved.ticket = none) (same : moved.held = task.held)
    (counted : ∀ workClass, active workClass + (task.live workClass).toNat =
      owner.active workClass + (moved.live workClass).toNat)
    (busy : ∀ workClass, running workClass + task.parallelism workClass =
      owner.running workClass + moved.parallelism workClass)
    (sound : Sound owner.limits moved) :
    Consistent { owner with active := active, running := running, tasks := moved ::ₘ others } := by
  refine consistent.replace there rfl rfl (fun gate => ?_) counted busy sound
    ((consistent.turn there).tail.quiet quiet)
  rw [permits_of_silent quiet, permits_of_silent silent, same]

/-- What a task takes from a semaphore the owner is short of. -/
theorem balance_taken (enough : count ≤ owner.available gate) (other : Gate) :
    update owner.available gate (owner.available gate - count) other +
        update held gate (held gate + count) other =
      owner.available other + held other := by
  by_cases own : other = gate
  · rw [own, update_self, update_self]
    omega
  · rw [update_of_ne own, update_of_ne own]

theorem given_waiting {ticket given : Nat} (now : task.stage = .waiting ticket given)
    (next : task.remaining = (gate, count) :: rest) (other : Gate) :
    task.given other = if gate = other then given else 0 := by
  unfold PhysicalWorkTask.given
  rw [now, next]

theorem given_stage (ticket given : Nat) (next : task.remaining = (gate, count) :: rest)
    (other : Gate) :
    PhysicalWorkTask.given { task with stage := .waiting ticket given } other =
      if gate = other then given else 0 := by
  simp only [PhysicalWorkTask.given, next]

theorem waitsAt_waiting {other : Gate} (waits : task.waitsAt other)
    (next : task.remaining = (gate, count) :: rest) : gate = other := by
  obtain ⟨_, _, _, _, _, same⟩ := waits
  rw [next] at same
  cases same
  rfl

theorem consistent_step (step : owner.Step after) (consistent : owner.Consistent) :
    after.Consistent := by
  cases step with
  | enters accepted =>
    obtain ⟨rfl, fits⟩ := enter_ok accepted
    exact consistent.enters fits
  | @passes task others gate count rest there now next small free =>
    have silent : task.ticket = none := ticket_of_stage (by simp [now])
    refine consistent.quiet there (live_congr rfl rfl) (parallelism_congr rfl rfl)
      (fun other => ?_) ?_ ((consistent.turn there).tail.quiet silent)
    · rw [permits_of_silent, permits_of_silent silent]
      · exact balance_taken free.1 other
      · exact silent
    · have passed := (consistent.mine there).pass (by simp [now]) (by simp [now]) next
      rw [← now] at passed
      exact passed
  | @queues task others gate count rest there now next small waits short =>
    have silent : task.ticket = none := ticket_of_stage (by simp [now])
    have turn := (consistent.turn there).tail
    refine consistent.quiet there (live_congr rfl (by rw [now]; rfl))
      (parallelism_congr rfl (by rw [now]; rfl)) (fun other => ?_) ?_ ?_
    · rw [permits_of_silent silent]
      show owner.available other + (task.held other + _) = _
      rw [given_stage _ _ next, ite_self, Nat.add_zero]
    · refine (consistent.mine there).stay (by simp [now]) (by simp [now])
        (fun done => by simp at done) fun ticket given same => ?_
      cases same
      exact ⟨gate, count, rest, next, Nat.zero_le _⟩
    · refine InTurn.cons ⟨turn.distinct, fun member inside ticket has =>
        (turn.issued member inside ticket has).trans (Nat.lt_succ_self _), turn.first⟩ rfl
        (Nat.lt_succ_self _) (fun other inside has => ?_) (fun other assigned => ?_) ?_
      · exact absurd (turn.issued other inside _ has) (lt_irrefl _)
      · rw [given_stage _ _ next, ite_self] at assigned
        exact absurd rfl assigned
      · exact fun _ _ other inside _ earlier has => (turn.issued other inside earlier has).le
  | @unavailable task others gate count rest there now next small refuses short
  | @overflows task others gate count rest there now next large =>
    exact consistent.restage there (ticket_of_stage (by simp [now])) rfl rfl
      (active_same rfl (by rw [now]; rfl)) (running_same rfl (by rw [now]; rfl))
      ((consistent.mine there).release (.inr ⟨_, rfl⟩))
  | @assigns task others gate count ticket given rest units there now next first enough wanted =>
    have turn := consistent.turn there
    have has : task.ticket = some ticket := by
      unfold PhysicalWorkTask.ticket
      rw [now]
    refine consistent.quiet there (live_congr rfl (by rw [now]; rfl))
      (parallelism_congr rfl (by rw [now]; rfl)) (fun other => ?_) ?_ ?_
    · unfold PhysicalWorkTask.permits
      rw [given_stage _ _ next, given_waiting now next]
      dsimp only
      by_cases own : other = gate
      · subst own
        rw [update_self, if_pos rfl, if_pos rfl]
        omega
      · rw [update_of_ne own, if_neg (Ne.symm own), if_neg (Ne.symm own)]
    · refine (consistent.mine there).stay (by simp [now]) (by simp [now])
        (fun done => by simp at done) fun _ _ same => ?_
      cases same
      exact ⟨gate, count, rest, next, wanted⟩
    · refine turn.tail.cons rfl (turn.issued task (Multiset.mem_cons_self ..) ticket has)
        (fun other inside hasToo => ?_) (fun other assigned => ?_)
        fun other waits member inside assigned earlier hasEarlier => ?_
      · have distinct := turn.distinct
        rw [Multiset.filterMap_cons_some _ _ _ has, Multiset.nodup_cons] at distinct
        exact distinct.1 ((Multiset.mem_filterMap _ _).mpr ⟨other, inside, hasToo⟩)
      · rw [given_stage _ _ next] at assigned
        have own : gate = other := by
          by_contra different
          exact assigned (if_neg different)
        exact own ▸ first
      · have own : gate = other := waitsAt_waiting waits next
        subst own
        exact turn.first member (Multiset.mem_cons_of_mem inside) gate assigned task
          (Multiset.mem_cons_self ..) ⟨_, _, _, _, now, next⟩ earlier hasEarlier ticket has
  | @granted task others gate count ticket rest there now next =>
    have silent : ∀ held, PhysicalWorkTask.ticket
        ⟨task.purpose, task.blocking, held, rest, .acquiring⟩ = none := fun _ => rfl
    refine consistent.quiet there (live_congr rfl (by rw [now]; rfl))
      (parallelism_congr rfl (by rw [now]; rfl)) (fun other => ?_)
      ((consistent.mine there).pass (by simp [now]) (by simp [now]) next)
      ((consistent.turn there).tail.quiet rfl)
    rw [permits_of_silent (silent _)]
    unfold PhysicalWorkTask.permits
    rw [given_waiting now next]
    dsimp only
    by_cases own : other = gate
    · subst own
      rw [update_self, if_pos rfl]
    · rw [update_of_ne own, if_neg (Ne.symm own), Nat.add_zero]
  | @abandoned task others failed there now waits =>
    refine consistent.quiet there (live_congr rfl ?_) (parallelism_congr rfl ?_) (fun other => ?_)
      ((consistent.mine there).release (.inr ⟨_, rfl⟩)) ((consistent.turn there).tail.quiet rfl)
    · rcases now with now | ⟨_, _, now⟩ <;> rw [now] <;> rfl
    · rcases now with now | ⟨_, _, now⟩ <;> rw [now] <;> rfl
    · rw [permits_of_silent rfl]
  | @admits task others request there now all made =>
    exact consistent.restage there (ticket_of_stage (by simp [now])) rfl rfl
      (active_admitted made rfl (by rw [now]; rfl) rfl) (running_same rfl (by rw [now]; rfl))
      ((consistent.mine there).stay (by simp [now]) (by simp [now]) (fun _ => all) nofun)
  | @reserves task others bytes there now all made =>
    exact consistent.restage there (ticket_of_stage (by simp [now])) rfl rfl
      (active_scratch made rfl) (running_same rfl (by rw [now]; rfl))
      ((consistent.mine there).stay (by simp [now]) (by simp [now]) (fun _ => all) nofun)
  | @runs task others request there now made =>
    have all := (consistent.mine there).complete (.inl now)
    exact consistent.restage there (ticket_of_stage (by simp [now])) rfl rfl
      (active_same rfl (by rw [now]; rfl)) (running_begun made rfl (by rw [now]; rfl) rfl)
      ((consistent.mine there).stay (by simp [now]) (by simp [now]) (fun _ => all) nofun)
  | @finishes task others request there now made =>
    have live : task.live request.workClass = true := by
      rw [live_admission made, now, beq_self_eq_true]
      rfl
    exact consistent.restage there (ticket_of_stage (by simp [now])) rfl rfl
      (active_dropped made rfl (by rw [now]; rfl) rfl (consistent.activeOf there live))
      (running_same rfl (by rw [now]; rfl)) ((consistent.mine there).release (.inl rfl))
  | @unused task others request there now made =>
    have live : task.live request.workClass = true := by
      rw [live_admission made, now, beq_self_eq_true]
      rfl
    exact consistent.restage there (ticket_of_stage (by simp [now])) rfl rfl
      (active_dropped made rfl (by rw [now]; rfl) rfl (consistent.activeOf there live))
      (running_same rfl (by rw [now]; rfl)) ((consistent.mine there).release (.inr ⟨_, rfl⟩))
  | @freed task others bytes there now made =>
    exact consistent.restage there (ticket_of_stage (by simp [now])) rfl rfl
      (active_scratch made rfl) (running_same rfl (by rw [now]; rfl))
      ((consistent.mine there).release (.inr ⟨_, rfl⟩))
  | @returns task others gate there now =>
    have silent : task.ticket = none := by
      rcases now with now | ⟨failed, now⟩ <;> exact ticket_of_stage (by simp [now])
    refine consistent.quiet there (live_congr rfl rfl) (parallelism_congr rfl rfl)
      (fun other => ?_) ((consistent.mine there).release now)
      ((consistent.turn there).tail.quiet silent)
    rw [permits_of_silent, permits_of_silent silent]
    · dsimp only
      by_cases own : other = gate
      · subst own
        rw [update_self, update_self, Nat.add_zero]
      · rw [update_of_ne own, update_of_ne own]
    · exact silent
  | @ends task others request there now made nothing =>
    have silent : task.ticket = none := ticket_of_stage (by simp [now])
    refine consistent.leaves there rfl rfl rfl rfl
      (fun gate => (permits_of_silent silent gate).trans (nothing gate))
      (fun workClass => ⟨rfl, live_of_dropped (by rw [now]; rfl) workClass⟩)
      (running_ended made (by rw [now]; rfl))
  | @leaves task others failed there now nothing =>
    have silent : task.ticket = none := ticket_of_stage (by simp [now])
    refine consistent.leaves there rfl rfl rfl rfl
      (fun gate => (permits_of_silent silent gate).trans (nothing gate))
      (fun workClass => ⟨rfl, live_of_dropped (by rw [now]; rfl) workClass⟩) fun workClass => ?_
    rw [parallelism_of_uncounted (by rw [now]; rfl), Nat.sub_zero]

theorem consistent_new (limits : PhysicalWorkLimits) : (new limits).Consistent := by
  refine ⟨fun gate => rfl, fun _ => rfl, fun _ => rfl, nofun, ?_, nofun, nofun⟩
  exact Multiset.nodup_zero

theorem consistent_run (limits : PhysicalWorkLimits)
    (reached : ReflTransGen Step (new limits) owner) : owner.Consistent :=
  @Runs.invariant _ Step Consistent (fun _ _ step => consistent_step step) _ _ reached
    (consistent_new limits)

theorem limits_step (step : owner.Step after) : after.limits = owner.limits := by
  cases step with
  | enters accepted =>
    obtain ⟨rfl, -⟩ := enter_ok accepted
    rfl
  | _ => rfl

theorem limits_run (limits : PhysicalWorkLimits) (reached : ReflTransGen Step (new limits) owner) :
    owner.limits = limits := by
  induction reached with
  | refl => rfl
  | tail _ step ih => exact (limits_step step).trans ih

/-! ### Background work -/

theorem owed_background (request : PhysicalWorkRequest)
    (background : request.workClass = .background ∨ request.workClass = .crashCollection) :
    owed (Purpose.admission request).needs .background = 1 := by
  have noScratch : owed (scratchNeed request.scratchBytes) .background = 0 := by
    unfold scratchNeed
    split <;> rfl
  have noIo : owed request.io.needs .background = 0 := by cases request.io <;> rfl
  simp only [Purpose.needs, owed_append, noScratch, noIo]
  rcases background with kind | kind <;> rw [kind] <;> rfl

/-- Who has been admitted has all that it asked for. -/
theorem Sound.held_of_reached (sound : Sound limits task)
    (reached : task.stage = .admitted ∨ task.stage = .running) (gate : Gate) :
    task.permits gate = owed task.purpose.needs gate := by
  obtain ⟨taken, plan, holds⟩ := sound.taken
    (by rcases reached with now | now <;> simp [now])
    (by rcases reached with now | now <;> simp [now])
  have silent : task.ticket = none :=
    ticket_of_stage (by rcases reached with now | now <;> simp [now])
  rw [sound.complete reached, List.append_nil] at plan
  rw [permits_of_silent silent, holds, plan]

/-- Live background and crash work holds a background permit. -/
theorem Sound.background (sound : Sound limits task) :
    (if task.live .background = true then 1 else 0) +
      (if task.live .crashCollection = true then 1 else 0) ≤ task.permits .background := by
  by_cases live : task.live .background = true ∨ task.live .crashCollection = true
  · cases made : task.purpose with
    | scratch bytes => simp [live_scratch made] at live
    | admission request =>
      simp only [live_admission made, Bool.and_eq_true, beq_iff_eq] at live ⊢
      have stage : task.stage.live = true := live.elim (·.1) (·.1)
      have background : request.workClass = .background ∨
          request.workClass = .crashCollection := live.imp (·.2) (·.2)
      have reached : task.stage = .admitted ∨ task.stage = .running := by
        revert stage
        cases task.stage <;> simp [TaskStage.live]
      have holding := sound.held_of_reached reached .background
      rw [made, owed_background request background] at holding
      rcases background with kind | kind <;> simp [kind, stage, holding]
  · have ⟨first, second⟩ := not_or.mp live
    rw [if_neg first, if_neg second]
    exact Nat.zero_le _

theorem background_le (consistent : owner.Consistent) :
    (owner.tasks.countP fun task => task.live .background = true) +
      (owner.tasks.countP fun task => task.live .crashCollection = true) ≤
      owner.limits.background := by
  have counts (tasks : Multiset PhysicalWorkTask) (sound : ∀ task ∈ tasks,
      Sound owner.limits task) :
      (tasks.countP fun task => task.live .background = true) +
        (tasks.countP fun task => task.live .crashCollection = true) ≤
        (tasks.map fun task => task.permits .background).sum := by
    induction tasks using Multiset.induction_on with
    | empty => rfl
    | cons task tasks ih =>
      have here := (sound task (Multiset.mem_cons_self ..)).background
      have rest := ih fun other inside =>
        sound other (Multiset.mem_cons_of_mem inside)
      rw [Multiset.countP_cons, Multiset.countP_cons, Multiset.map_cons, Multiset.sum_cons]
      omega
  have whole : _ = owner.limits.background := consistent.conserved .background
  have most := counts owner.tasks consistent.sound
  omega

/-! ### Release -/

/-- A task that releases can give back what it holds at some gates, and changes no others. -/
theorem returns_all (gates : List Gate) (there : owner.tasks = task ::ₘ others)
    (now : task.stage = .ending ∨ ∃ failed, task.stage = .releasing failed) :
    ∃ available held, ReflTransGen Step owner { owner with
        available := available, tasks := { task with held := held } ::ₘ others } ∧
      (∀ gate, available gate + held gate = owner.available gate + task.held gate) ∧
      ∀ gate ∈ gates, held gate = 0 := by
  induction gates with
  | nil =>
    refine ⟨owner.available, task.held, ?_, fun _ => rfl, nofun⟩
    rw [← there]
  | cons gate gates ih =>
    obtain ⟨available, held, run, balance, nothing⟩ := ih
    have more : Step _ _ := @Step.returns
      { owner with available := available, tasks := { task with held := held } ::ₘ others }
      { task with held := held } others gate rfl now
    refine ⟨_, _, run.tail more, fun other => ?_, fun other member => ?_⟩
    · dsimp only
      rw [← balance]
      by_cases own : other = gate
      · rw [own, update_self, update_self, Nat.add_zero]
      · rw [update_of_ne own, update_of_ne own]
    · dsimp only
      by_cases own : other = gate
      · rw [own, update_self]
      · rw [update_of_ne own]
        exact nothing other ((mem_cons.mp member).resolve_left own)

/-- A task that releases gives everything back and is gone. -/
theorem released {failed : Option PhysicalWorkError} (there : owner.tasks = task ::ₘ others)
    (now : task.stage = .releasing failed) :
    ReflTransGen Step owner { owner with
      available := fun gate => owner.available gate + task.held gate, tasks := others } := by
  obtain ⟨available, held, run, balance, nothing⟩ :=
    returns_all Gate.all there (.inr ⟨failed, now⟩)
  have empty : ∀ gate, held gate = 0 := fun gate => nothing gate (by cases gate <;> decide)
  have whole : available = fun gate => owner.available gate + task.held gate := by
    funext gate
    rw [← balance, empty, Nat.add_zero]
  rw [← whole]
  exact run.tail (@Step.leaves _ { task with held := held } others failed rfl now empty)

/-! ### Progress -/

theorem needs_sublist (purpose : Purpose) :
    (purpose.needs.map Prod.fst).Sublist Gate.all := by
  have scratch (bytes : Nat) : ((scratchNeed bytes).map Prod.fst).Sublist [Gate.scratch] := by
    unfold scratchNeed
    split
    · exact nil_sublist _
    · exact List.Sublist.refl _
  cases purpose with
  | scratch bytes => exact (scratch bytes).trans (sublist_append_left [Gate.scratch] _)
  | admission request =>
    have ofClass : (request.workClass.needs.map Prod.fst).Sublist [Gate.background, Gate.crash] := by
      cases request.workClass <;> decide
    have ofIo : (request.io.needs.map Prod.fst).Sublist [Gate.heavy] := by
      cases request.io <;> decide
    simp only [Purpose.needs, map_append]
    exact (((scratch request.scratchBytes).append ofClass).append ofIo).append
      (List.Sublist.refl [Gate.workers])

theorem needs_ordered (purpose : Purpose) :
    purpose.needs.Pairwise fun first second => first.1 < second.1 := by
  have whole : Gate.all.Pairwise (· < ·) := by decide
  exact pairwise_map.mp (whole.sublist (needs_sublist purpose))

/-- A waiting task stands before the gate that its first remaining need names. -/
theorem Sound.waits (sound : Sound limits task) (waits : task.ticket.isSome) :
    ∃ ticket given gate count rest,
      task.stage = .waiting ticket given ∧ task.remaining = (gate, count) :: rest ∧
      task.waiter = ⟨gate, count, given, ticket, task.held⟩ ∧ given ≤ count := by
  unfold PhysicalWorkTask.ticket at waits
  split at waits
  · rename_i ticket given now
    obtain ⟨gate, count, rest, next, enough⟩ := sound.queued ticket given now
    refine ⟨ticket, given, gate, count, rest, now, next, ?_, enough⟩
    unfold PhysicalWorkTask.waiter PhysicalWorkTask.ticket
    rw [next, now]
    simp only [headD_cons, given_waiting now next, if_true, getD_some]
  · cases waits

theorem waiter_units (sound : Sound limits task) (waits : task.ticket.isSome) (gate : Gate) :
    task.waiter.units gate = task.permits gate := by
  obtain ⟨ticket, given, stand, count, rest, now, next, same, -⟩ := sound.waits waits
  rw [same]
  unfold Waiter.units PhysicalWorkTask.permits
  rw [given_waiting now next]
  by_cases own : stand = gate
  · rw [if_pos own, if_pos own]
  · rw [if_neg own, if_neg own]

/-- What a waiting task holds is of gates before the one where it waits. -/
theorem waiter_ordered (sound : Sound limits task) (waits : task.ticket.isSome) (gate : Gate)
    (holds : task.waiter.held gate ≠ 0) : gate < task.waiter.gate := by
  obtain ⟨ticket, given, stand, count, rest, now, next, same, -⟩ := sound.waits waits
  obtain ⟨taken, plan, held⟩ := sound.taken (by simp [now]) (by simp [now])
  rw [same] at holds ⊢
  dsimp only at holds
  rw [held] at holds
  obtain ⟨need, member, rfl⟩ := exists_of_owed holds
  have ordered := needs_ordered task.purpose
  rw [plan, next, pairwise_append] at ordered
  exact ordered.2.2 need member (stand, count) mem_cons_self

theorem waiter_fits (sound : Sound limits task) (waits : task.ticket.isSome) :
    task.waiter.need ≤ limits.permits task.waiter.gate := by
  obtain ⟨ticket, given, stand, count, rest, now, next, same, -⟩ := sound.waits waits
  obtain ⟨taken, plan, -⟩ := sound.taken (by simp [now]) (by simp [now])
  rw [same]
  refine sound.fits (stand, count) ?_
  rw [plan, next]
  exact mem_append_right _ mem_cons_self

theorem waiter_tickets (waiting : ∀ task ∈ tasks, task.ticket.isSome = true) :
    (tasks.map PhysicalWorkTask.waiter).map Waiter.ticket =
      tasks.filterMap PhysicalWorkTask.ticket := by
  induction tasks using Multiset.induction_on with
  | empty => rfl
  | cons task tasks ih =>
    have ⟨ticket, has⟩ := isSome_iff_exists.mp (waiting task (Multiset.mem_cons_self ..))
    rw [Multiset.map_cons, Multiset.map_cons, Multiset.filterMap_cons_some _ _ _ has,
      ih fun other inside => waiting other (Multiset.mem_cons_of_mem inside)]
    unfold PhysicalWorkTask.waiter
    rw [has]
    rfl

/-- If everybody waits, somebody is assigned all that it waits for, and goes on. -/
theorem proceeds (consistent : owner.Consistent) (somebody : owner.tasks ≠ 0)
    (waiting : ∀ task ∈ owner.tasks, task.ticket.isSome = true) :
    ∃ task others later, owner.tasks = task ::ₘ others ∧ ReflTransGen Step owner later ∧
      later.tasks = task.passed ::ₘ others := by
  have sound (task : PhysicalWorkTask) (member : task ∈ owner.tasks) :
      Sound owner.limits task := consistent.sound task member
  have conserved : ∀ gate, owner.available gate + ((owner.tasks.map PhysicalWorkTask.waiter).map
      fun waiter => waiter.units gate).sum = owner.limits.permits gate := by
    intro gate
    rw [Multiset.map_map, ← consistent.conserved gate]
    exact congrArg (fun sum => _ + Multiset.sum sum) (Multiset.map_congr rfl fun task member =>
      waiter_units (sound task member) (waiting task member) gate)
  have tickets : ((owner.tasks.map PhysicalWorkTask.waiter).map Waiter.ticket).Nodup := by
    rw [waiter_tickets waiting]
    exact consistent.inTurn.distinct
  have inTurn : ∀ waiter ∈ owner.tasks.map PhysicalWorkTask.waiter, waiter.given ≠ 0 →
      ∀ other ∈ owner.tasks.map PhysicalWorkTask.waiter, other.gate = waiter.gate →
        waiter.ticket ≤ other.ticket := by
    simp only [Multiset.forall_mem_map_iff]
    intro task member assigned other there meet
    obtain ⟨ticket, given, gate, count, rest, now, next, same, -⟩ :=
      (sound task member).waits (waiting task member)
    obtain ⟨later, _, stand, _, _, nowToo, nextToo, sameToo, -⟩ :=
      (sound other there).waits (waiting other there)
    rw [same] at assigned meet ⊢
    rw [sameToo] at meet ⊢
    dsimp only at assigned meet ⊢
    subst meet
    refine consistent.inTurn.first task member stand ?_ other there ⟨_, _, _, _, nowToo, nextToo⟩
      ticket ?_ later ?_
    · rw [given_waiting now next, if_pos rfl]
      exact assigned
    · unfold PhysicalWorkTask.ticket
      rw [now]
      rfl
    · unfold PhysicalWorkTask.ticket
      rw [nowToo]
      rfl
  obtain ⟨waiter, member, first, enough⟩ := @exists_served Gate _
    (owner.tasks.map PhysicalWorkTask.waiter) owner.limits.permits owner.available
    (by rwa [Ne, Multiset.map_eq_zero]) conserved
    (by
      simp only [Multiset.forall_mem_map_iff]
      exact fun task member => waiter_ordered (sound task member) (waiting task member))
    tickets inTurn
    (by
      simp only [Multiset.forall_mem_map_iff]
      exact fun task member => waiter_fits (sound task member) (waiting task member))
  obtain ⟨task, inside, rfl⟩ := Multiset.mem_map.mp member
  obtain ⟨ticket, given, gate, count, rest, now, next, same, partly⟩ :=
    (sound task inside).waits (waiting task inside)
  obtain ⟨others, there⟩ := Multiset.exists_cons_of_mem inside
  rw [same] at first enough
  dsimp only at first enough
  simp only [Multiset.forall_mem_map_iff] at first
  have leads : ∀ other ∈ others, other.waitsAt gate → ∀ later ∈ other.ticket, ticket ≤ later := by
    intro other beside waits later has
    have member : other ∈ owner.tasks := there ▸ Multiset.mem_cons_of_mem beside
    obtain ⟨_, _, stand, _, _, _, nextToo, sameToo, -⟩ :=
      (sound other member).waits (waiting other member)
    have before := first other member
    have hasWaiter : other.waiter.ticket = later := by
      unfold PhysicalWorkTask.waiter
      rw [mem_def.mp has]
      rfl
    rw [hasWaiter, sameToo] at before
    exact before (waitsAt_waiting waits nextToo)
  have assigned := Step.assigns (count - given) there now next leads (by omega) (by omega)
  rw [Nat.add_sub_cancel' partly] at assigned
  have granted := @Step.granted { owner with
      available := update owner.available gate (owner.available gate - (count - given))
      tasks := { task with stage := .waiting ticket count } ::ₘ others }
    { task with stage := .waiting ticket count } others gate count ticket rest rfl rfl next
  refine ⟨task, others, _, there, (ReflTransGen.single assigned).tail granted, ?_⟩
  unfold PhysicalWorkTask.passed
  rw [next]

/-! ### The law -/

/-- Over every run of an owner: what the tasks have of a semaphore and what is available make up
its limit; the active counter is the number of live admissions and the running counter the
parallelism of those whose worker is counted; background and crash work stays within the background
limit; a call that is given up, or has failed, gives everything back; and where all that there is
waits, one goes on. -/
theorem physicalWork_conserved (limits : PhysicalWorkLimits) (owner : PhysicalWorkOwner)
    (reached : ReflTransGen Step (new limits) owner) :
    (∀ gate, owner.available gate + (owner.tasks.map fun task => task.permits gate).sum =
      limits.permits gate) ∧
    (∀ workClass, (owner.active workClass = owner.tasks.countP fun task =>
        task.live workClass = true) ∧
      owner.running workClass =
        (owner.tasks.map fun task => task.parallelism workClass).sum) ∧
    ((owner.tasks.countP fun task => task.live .background = true) +
      (owner.tasks.countP fun task => task.live .crashCollection = true) ≤ limits.background) ∧
    (∀ task others, owner.tasks = task ::ₘ others →
      (∃ failed, task.stage = .releasing failed) ∨
        task.blocking = true ∧ (task.stage = .acquiring ∨ task.ticket.isSome = true) →
      ReflTransGen Step owner { owner with
        available := fun gate => owner.available gate + task.permits gate, tasks := others }) ∧
    (owner.tasks ≠ 0 → (∀ task ∈ owner.tasks, task.ticket.isSome = true) →
      ∃ task others later, owner.tasks = task ::ₘ others ∧ ReflTransGen Step owner later ∧
        later.tasks = task.passed ::ₘ others) := by
  have consistent := consistent_run limits reached
  have same := limits_run limits reached
  refine ⟨?_, fun workClass => ⟨consistent.active workClass, consistent.running workClass⟩, ?_,
    fun task others there leaving => ?_, proceeds consistent⟩
  · rw [← same]
    exact consistent.conserved
  · rw [← same]
    exact background_le consistent
  · rcases leaving with ⟨failed, now⟩ | ⟨waits, now⟩
    · have back := released there now
      have silent : task.ticket = none := ticket_of_stage (by simp [now])
      simp only [permits_of_silent silent]
      exact back
    · have stage : task.stage = .acquiring ∨ ∃ ticket given, task.stage = .waiting ticket given :=
        now.imp_right fun waits => by
          obtain ⟨ticket, given, _, _, _, waiting, _⟩ := (consistent.mine there).waits waits
          exact ⟨ticket, given, waiting⟩
      have abandoned := Step.abandoned none there stage waits
      exact .head abandoned (@released _ { task with
        held := task.permits, stage := .releasing none } others none rfl rfl)

theorem waitsAt_iff : (task.ticket.isSome = true ∧ ∃ need ∈ task.remaining.head?, need.1 = gate) ↔
    task.waitsAt gate := by
  unfold PhysicalWorkTask.waitsAt PhysicalWorkTask.ticket
  constructor
  · rintro ⟨waits, ⟨_, count⟩, first, rfl⟩
    obtain ⟨rest, remaining⟩ := head?_eq_some_iff.mp first
    split at waits
    · exact ⟨_, _, count, rest, ‹_›, remaining⟩
    · cases waits
  · rintro ⟨ticket, given, count, rest, stage, remaining⟩
    rw [stage, remaining]
    exact ⟨rfl, _, rfl, rfl⟩

instance : Decidable (task.waitsAt gate) := decidable_of_iff _ waitsAt_iff

instance (gate : Gate) (count : Nat) : Decidable (owner.Open gate count) := instDecidableAnd

/-- A heavy call in the foreground and one in the background, and two that come later. -/
def heavyCall : Purpose := .admission ⟨.foreground, .heavy, 0, 2⟩
def quietCall : Purpose := .admission ⟨.background, .read, 0, 1⟩
def laterCall : Purpose := .admission ⟨.foreground, .read, 1, 2⟩
def lastCall : Purpose := .admission ⟨.crashCollection, .write, 0, 1⟩

/-- A run comes to such an owner. -/
def Comes (owner : PhysicalWorkOwner) (holds : PhysicalWorkOwner → Prop) : Prop :=
  ∃ last, ReflTransGen Step owner last ∧ holds last

theorem Comes.head {holds : PhysicalWorkOwner → Prop} (step : Step owner after)
    (rest : Comes after holds) : Comes owner holds := by
  obtain ⟨last, run, held⟩ := rest
  exact ⟨last, .head step run, held⟩

/-- A call that has passed some of its gates. -/
def holding (purpose : Purpose) (count : Nat) (stage : TaskStage) : PhysicalWorkTask where
  purpose := purpose
  blocking := true
  held := (purpose.needs.take count).foldl
    (fun held need => update held need.1 (held need.1 + need.2)) 0
  remaining := purpose.needs.drop count
  stage := stage

/-- Two calls are admitted and leave one worker. The next call needs two of them and is assigned
the one, and a last call waits behind it. -/
def crowd : List PhysicalWorkTask :=
  [holding lastCall 2 (.waiting 1 0), holding laterCall 1 (.waiting 0 1),
    holding quietCall 2 .admitted, holding heavyCall 2 .admitted]

theorem exists_crowd : Comes (new processLimits) fun owner => owner.tasks = crowd := by
  refine .head (@Step.enters _ _ heavyCall true rfl) ?_
  refine .head (@Step.passes _ _ 0 _ _ _ rfl rfl rfl (by decide) (by decide)) ?_
  refine .head (@Step.passes _ _ 0 _ _ _ rfl rfl rfl (by decide) (by decide)) ?_
  refine .head (@Step.admits _ _ 0 _ rfl rfl rfl rfl) ?_
  refine .head (@Step.enters _ _ quietCall true rfl) ?_
  refine .head (@Step.passes _ _ (crowd.drop 3) _ _ _ rfl rfl rfl (by decide) (by decide)) ?_
  refine .head (@Step.passes _ _ (crowd.drop 3) _ _ _ rfl rfl rfl (by decide) (by decide)) ?_
  refine .head (@Step.admits _ _ (crowd.drop 3) _ rfl rfl rfl rfl) ?_
  refine .head (@Step.enters _ _ laterCall true rfl) ?_
  refine .head (@Step.passes _ _ (crowd.drop 2) _ _ _ rfl rfl rfl (by decide) (by decide)) ?_
  refine .head (@Step.queues _ _ (crowd.drop 2) _ _ _ rfl rfl rfl (by decide) rfl (by decide)) ?_
  refine .head (@Step.assigns _ _ (crowd.drop 2) _ _ _ _ _ 1 rfl rfl rfl (by decide) (by decide)
    (by decide)) ?_
  refine .head (@Step.enters _ _ lastCall true rfl) ?_
  refine .head (@Step.passes _ _ (crowd.drop 1) _ _ _ rfl rfl rfl (by decide) (by decide)) ?_
  refine .head (@Step.passes _ _ (crowd.drop 1) _ _ _ rfl rfl rfl (by decide) (by decide)) ?_
  refine .head (@Step.queues _ _ (crowd.drop 1) _ _ _ rfl rfl rfl (by decide) rfl (by decide)) ?_
  exact ⟨_, .refl, rfl⟩

/-- The second call that waits can be given up, with what it holds and was assigned. -/
theorem physicalWork_conserved_crowd : ∃ owner : PhysicalWorkOwner, owner.tasks = crowd ∧
    owner.available .workers = 0 ∧ owner.active .foreground = 1 ∧ owner.active .background = 1 ∧
    owner.active .crashCollection = 0 ∧ ReflTransGen Step owner { owner with
      available := fun gate =>
        owner.available gate + (holding laterCall 1 (.waiting 0 1)).permits gate
      tasks := crowd.eraseIdx 1 } := by
  obtain ⟨owner, reached, tasks⟩ := exists_crowd
  obtain ⟨whole, counted, -, given, -⟩ := physicalWork_conserved processLimits owner reached
  rw [tasks] at whole counted
  have workers : owner.available .workers + 4 = 4 := whole .workers
  exact ⟨owner, tasks, by omega, (counted .foreground).1, (counted .background).1,
    (counted .crashCollection).1, given _ _ (tasks.trans (Multiset.coe_eq_coe.mpr (.swap ..)))
      (.inr ⟨rfl, .inr rfl⟩)⟩

/-- Three workers' worth of parallelism for one admission in the foreground. -/
def parallelRequest : PhysicalWorkRequest := ⟨.foreground, .read, 0, 3⟩

/-- A call of `admit` that takes a scratch unit before it waits for a worker. -/
def scratchRequest : PhysicalWorkRequest := ⟨.foreground, .read, 1, 1⟩

def entered (purpose : Purpose) : PhysicalWorkTask := ⟨purpose, true, 0, purpose.needs, .acquiring⟩

/-- One admission runs, and the running counter shows its three workers. Before anything is
admitted at all, a call on its way holds a unit of scratch. -/
theorem counters_apart :
    (∃ owner, ReflTransGen Step (new processLimits) owner ∧ owner.running .foreground = 3 ∧
      owner.active .foreground = 1 ∧
      (owner.tasks.countP fun task => task.live .foreground = true) = 1) ∧
    ∃ owner, ReflTransGen Step (new processLimits) owner ∧
      (∀ workClass, (owner.tasks.countP fun task => task.live workClass = true) = 0) ∧
      (∀ task ∈ owner.tasks, ∀ bytes, task.purpose ≠ .scratch bytes) ∧
      owner.available .scratch < processLimits.permits .scratch := by
  have free (purpose : Purpose) (gate : Gate) (count : Nat)
      (fits : count ≤ processLimits.permits gate) :
      Open { new processLimits with tasks := entered purpose ::ₘ 0 } gate count := by
    refine ⟨fits, fun task member waits => ?_⟩
    obtain ⟨_, _, _, _, now, _⟩ := waits
    rw [Multiset.mem_cons.mp member |>.resolve_right (Multiset.notMem_zero task)] at now
    cases now
  constructor
  · have entering := @Step.enters (new processLimits) _ (.admission parallelRequest) true rfl
    have passing := @Step.passes { new processLimits with
        tasks := entered (.admission parallelRequest) ::ₘ 0 }
      (entered (.admission parallelRequest)) 0 .workers 3 [] rfl rfl rfl (by decide)
      (free _ _ _ (by decide))
    let passed : PhysicalWorkTask := { entered (.admission parallelRequest) with
      held := update 0 .workers 3, remaining := [] }
    let owner : PhysicalWorkOwner := { new processLimits with
      available := update processLimits.permits .workers 1, tasks := passed ::ₘ 0 }
    have admitting := @Step.admits owner passed 0 parallelRequest rfl rfl rfl rfl
    have running := @Step.runs { owner with
        active := update (fun _ => 0) .foreground 1
        tasks := { passed with stage := .admitted } ::ₘ 0 }
      { passed with stage := .admitted } 0 parallelRequest rfl rfl rfl
    exact ⟨_, (((ReflTransGen.single entering).tail passing).tail admitting).tail running,
      rfl, rfl, rfl⟩
  · have entering := @Step.enters (new processLimits) _ (.admission scratchRequest) true rfl
    have passing := @Step.passes { new processLimits with
        tasks := entered (.admission scratchRequest) ::ₘ 0 }
      (entered (.admission scratchRequest)) 0 .scratch 1 [(.workers, 1)] rfl rfl (by decide)
      (by decide) (free _ _ _ (by decide))
    refine ⟨_, (ReflTransGen.single entering).tail passing,
      fun workClass => by cases workClass <;> rfl, fun task member bytes => ?_, by decide⟩
    rw [Multiset.mem_cons.mp member |>.resolve_right (Multiset.notMem_zero task)]
    exact nofun

/-! ### What is admitted together -/

/-- In every run what was admitted together fits the limits together, at every semaphore, and a
semaphore assigns permits to nobody before those who came earlier. -/
theorem admitted_fit (limits : PhysicalWorkLimits) (owner : PhysicalWorkOwner)
    (reached : ReflTransGen Step (new limits) owner) :
    (∀ gate, ((owner.tasks.filter fun task =>
      task.stage = .admitted ∨ task.stage = .running).map fun task =>
        owed task.purpose.needs gate).sum ≤ limits.permits gate) ∧
    (owner.tasks.filterMap PhysicalWorkTask.ticket).Nodup ∧
    ∀ task ∈ owner.tasks, ∀ other ∈ owner.tasks, ∀ gate, task.given gate ≠ 0 →
      other.waitsAt gate → ∀ ticket ∈ task.ticket, ∀ later ∈ other.ticket, ticket ≤ later := by
  have consistent := consistent_run limits reached
  refine ⟨fun gate => ?_, consistent.inTurn.distinct, fun task here other there gate given waits =>
    consistent.inTurn.first task here gate given other there waits⟩
  have counts (tasks : Multiset PhysicalWorkTask)
      (sound : ∀ task ∈ tasks, Sound owner.limits task) :
      ((tasks.filter fun task => task.stage = .admitted ∨ task.stage = .running).map fun task =>
          owed task.purpose.needs gate).sum ≤
        (tasks.map fun task => task.permits gate).sum := by
    induction tasks using Multiset.induction_on with
    | empty => rfl
    | cons task tasks ih =>
      have here := sound task (Multiset.mem_cons_self ..)
      have rest := ih fun other inside =>
        sound other (Multiset.mem_cons_of_mem inside)
      rw [Multiset.map_cons, Multiset.sum_cons]
      by_cases granted : task.stage = .admitted ∨ task.stage = .running
      · rw [Multiset.filter_cons_of_pos _ (by exact granted), Multiset.map_cons, Multiset.sum_cons,
          here.held_of_reached granted]
        exact Nat.add_le_add_left rest _
      · rw [Multiset.filter_cons_of_neg _ (by exact granted)]
        exact rest.trans (Nat.le_add_left _ _)
  have whole := consistent.conserved gate
  have most := counts owner.tasks consistent.sound
  rw [limits_run limits reached] at whole
  omega

/-- The two admitted calls have three workers together, and the call that was assigned the last one
came before the other that waits. -/
theorem admitted_fit_crowd : ∃ owner : PhysicalWorkOwner, owner.tasks = crowd ∧
    3 ≤ processLimits.permits .workers ∧ (owner.tasks.filterMap PhysicalWorkTask.ticket).Nodup ∧
    ∀ ticket ∈ (holding laterCall 1 (.waiting 0 1)).ticket,
      ∀ later ∈ (holding lastCall 2 (.waiting 1 0)).ticket, ticket ≤ later := by
  obtain ⟨owner, reached, tasks⟩ := exists_crowd
  obtain ⟨fits, apart, turns⟩ := admitted_fit processLimits owner reached
  rw [tasks] at fits turns
  exact ⟨owner, tasks, fits .workers, apart, turns _ (mem_cons_of_mem _ mem_cons_self) _
    mem_cons_self .workers (by decide) (by decide)⟩

end PhysicalWorkOwner

end Axial.Resource
