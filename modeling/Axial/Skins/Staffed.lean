/-
This file shows that the service is never left without the workers that it needs: a choice
that waits has a worker that will claim it, a gate that is taken has a task that will give
it back, and a caller that sleeps has a worker whose end will wake it.
-/

import Axial.Skins.Answers

namespace Axial.Skins

open Accounts Program Function

/-- A worker is where it will claim the choice, if the choice still waits. -/
def Stage.Ready : Stage → Prop
  | .scheduled | .gated | .finished => True
  | .applying _ _ | .leaving => False

/-- The choice has a worker that will claim it. -/
def Staff (tasks : TaskId → Option Task) (account : String) (generation : Nat) : Prop :=
  ∃ id scheduled stage, tasks id = some (.worker ⟨scheduled, stage⟩) ∧
    scheduled.accountId = account ∧ scheduled.generation = generation ∧ stage.Ready

/-- The account has some worker. -/
def Watched (tasks : TaskId → Option Task) (account : String) : Prop :=
  ∃ id worker, tasks id = some (.worker worker) ∧ worker.scheduled.accountId = account

/-- What the service needs to go on. -/
structure Staffed (system : System) : Prop where
  bounded : ∃ bound, ∀ id, bound ≤ id → system.tasks id = none
  own : ∀ id scheduled pending rest,
    system.tasks id = some (.worker ⟨scheduled, .applying pending rest⟩) →
      scheduled.generation = pending.generation
  staff : ∀ account slot pending, system.pending.accounts account = some slot →
    slot.queued = some pending → Staff system.tasks account pending.generation
  held : ∀ account id, system.gates account = some id →
    ∃ task, system.tasks id = some task ∧ task.holds = some account
  watched : ∀ id remaining account generation,
    system.callers id = some ⟨remaining, .asleep account generation false⟩ →
      Watched system.tasks account

/-! ### Tasks -/

variable {scheduled : PendingSkin}

section tasks

variable {tasks later : TaskId → Option Task} {id : TaskId} {new : Option Task}
  {account : String} {generation : Nat}

/-- A worker stays where the task that changes is not one, or goes on as one. -/
theorem Staff.update (staff : Staff tasks account generation)
    (goes : ∀ scheduled stage, tasks id = some (.worker ⟨scheduled, stage⟩) →
      scheduled.accountId = account → scheduled.generation = generation → stage.Ready →
      Staff (Function.update tasks id new) account generation) :
    Staff (Function.update tasks id new) account generation := by
  obtain ⟨other, scheduled, stage, found, own, same, ready⟩ := staff
  by_cases equal : other = id
  · subst equal
    exact goes scheduled stage found own same ready
  · exact ⟨other, scheduled, stage, by rwa [update_of_ne equal], own, same, ready⟩

/-- The changed task is such a worker. -/
theorem staff_self {stage : Stage} (ready : stage.Ready) :
    Staff (Function.update tasks id (some (.worker ⟨scheduled, stage⟩))) scheduled.accountId
      scheduled.generation :=
  ⟨id, scheduled, stage, update_self .., rfl, rfl, ready⟩

theorem Staff.update_of_fresh (staff : Staff tasks account generation) (fresh : tasks id = none) :
    Staff (Function.update tasks id new) account generation :=
  staff.update fun _ _ found => by
    rw [fresh] at found
    cases found

theorem Watched.update (watched : Watched tasks account)
    (goes : ∀ worker, tasks id = some (.worker worker) → worker.scheduled.accountId = account →
      Watched (Function.update tasks id new) account) :
    Watched (Function.update tasks id new) account := by
  obtain ⟨other, worker, found, own⟩ := watched
  by_cases equal : other = id
  · subst equal
    exact goes worker found own
  · exact ⟨other, worker, by rwa [update_of_ne equal], own⟩

theorem watched_self {worker : Worker} :
    Watched (Function.update tasks id (some (.worker worker))) worker.scheduled.accountId :=
  ⟨id, worker, update_self .., rfl⟩

end tasks

/-! ### Steps -/

section steps

variable {system last : System} {action : Action} {events : List Event} {account : String}
  {generation : Nat}

variable {id : TaskId} {tasks : TaskId → Option Task} {new : Option Task}

theorem bounded_update (bounded : ∃ bound, ∀ other, bound ≤ other → tasks other = none) :
    ∃ bound, ∀ other, bound ≤ other → Function.update tasks id new other = none := by
  obtain ⟨bound, none⟩ := bounded
  refine ⟨max bound (id + 1), fun other beyond => ?_⟩
  have above : id < other := (le_max_right bound (id + 1)).trans beyond
  rw [update_of_ne above.ne']
  exact none other ((le_max_left bound (id + 1)).trans beyond)

theorem Step.bounded (step : Step system action last)
    (bounded : ∃ bound, ∀ id, bound ≤ id → system.tasks id = none) :
    ∃ bound, ∀ id, bound ≤ id → last.tasks id = none := by
  cases step with
  | queue | reset | ensureSpawned | abandon | enterGate | claim | claimNothing | reply | finish
  | release | enterReset | replyReset | endReset =>
    exact bounded_update bounded
  | @leave id scheduled next admitted task fresh =>
    rcases System.spawnQueued_cases ({ system with
        active := Function.update system.active scheduled.generation false }.withTask id none)
      next scheduled.accountId admitted with same | ⟨_, _, same⟩
    · rw [System.notify_tasks, same]
      exact bounded_update bounded
    · rw [System.notify_tasks, same]
      exact bounded_update (bounded_update bounded)
  | _ => exact bounded

variable {pending : PendingSkin} {state : PendingSkins}

/-- A claim for a generation takes that generation. -/
theorem PendingSkins.claim_generation
    (claimed : (state.claim account (some generation)).2 = .ok (some pending)) :
    generation = pending.generation := by
  cases found : state.accounts account with
  | none =>
    rw [claim, withSlot_of_none state _ _ found] at claimed
    cases claimed
  | some slot =>
    rw [claim, (withSlot_of_some state (·.claim (some generation)) (.ok none) found).2,
      Slot.claim] at claimed
    split at claimed
    · cases claimed
    · split at claimed
      · cases claimed
      · split at claimed
        · cases claimed
        · rename_i same
          cases claimed
          simpa using same

theorem Step.own (step : Step system action last) (staffed : Staffed system)
    {rest : SkinProgram Unit}
    (found : last.tasks id = some (.worker ⟨scheduled, .applying pending rest⟩)) :
    scheduled.generation = pending.generation := by
  cases step.applies found with
  | kept before aside | replied before same taken history => exact staffed.own _ _ _ _ before
  | claimed before fresh claimed queue history => exact PendingSkins.claim_generation claimed

/-- A choice of the generation waits. -/
def Waiting (state : PendingSkins) (account : String) (generation : Nat) : Prop :=
  ∃ slot, state.accounts account = some slot ∧ Slot.isGeneration slot.queued generation = true

theorem due_of_waiting (waiting : Waiting state account generation) :
    ∃ pending, state.queued account = some pending ∧ pending.generation = generation ∧
      state.dueGeneration account generation = some pending.due := by
  obtain ⟨slot, found, waits⟩ := waiting
  obtain ⟨pending, queued, same⟩ := Slot.isGeneration_iff.mp waits
  have here : state.queued account = some pending := by
    rw [PendingSkins.queued, found, Option.bind_some, queued]
  refine ⟨pending, here, same, ?_⟩
  rw [PendingSkins.dueGeneration, here, Option.filter_some, if_pos (decide_eq_true same)]
  rfl

/-- With the gate in hand, a worker claims its choice if it waits. -/
theorem Sound.claims (sound : Sound system)
    (task : system.tasks id = some (.worker ⟨scheduled, .gated⟩))
    (waiting : Waiting system.pending scheduled.accountId scheduled.generation) :
    ∃ pending, (system.pending.claim scheduled.accountId (some scheduled.generation)).2 =
      .ok (some pending) := by
  obtain ⟨slot, found, waits⟩ := waiting
  obtain ⟨pending, queued, same⟩ := Slot.isGeneration_iff.mp waits
  have idle : slot.running = none := by
    cases running : slot.running with
    | none => rfl
    | some other =>
      obtain ⟨holder, claimed, rest, applies⟩ := sound.running _ _ _ found running
      have fits := sound.fits scheduled.accountId
      rw [found] at fits
      have own := (SlotFits.running fits other running).1
      have mine := sound.gated id _ _ task rfl
      have theirs := sound.gated holder _ _ applies rfl
      rw [(sound.applying _ _ _ _ applies).1, own, mine] at theirs
      cases theirs
      cases task.symm.trans applies
  refine ⟨pending, ?_⟩
  rw [PendingSkins.claim, (PendingSkins.withSlot_of_some system.pending _ _ found).2, Slot.claim,
    idle, queued]
  simp [same]

variable {other : TaskId}

/-- When a worker leaves, the other tasks stay. -/
theorem leave_tasks {next : TaskId} {admitted : Bool} {found : Task}
    (fresh : system.tasks next = none) (here : system.tasks other = some found)
    (apart : system.tasks id ≠ some found) :
    (({ system with
        active := Function.update system.active scheduled.generation false }.withTask id
          none).spawnQueued scheduled.accountId next admitted).tasks other = some found := by
  refine System.spawnQueued_of_fresh ?_ (update_of_apart here apart)
  rw [System.withTask_tasks, update_apply]
  split
  · rfl
  · exact fresh

/-- As long as a choice waits, the worker that will claim it stays. -/
theorem Step.staff (step : Step system action last) (sound : Sound system)
    (staff : Staff system.tasks account generation)
    (waiting : Waiting last.pending account generation) :
    Staff last.tasks account generation := by
  cases step with
  | queue id fresh queued | reset id fresh cancelled
  | ensureSpawned task caller inactive queued fresh => exact staff.update_of_fresh fresh
  | abandon task gone =>
    refine staff.update fun scheduled stage found own same ready => ?_
    cases task.symm.trans found
    obtain ⟨pending, _, _, due⟩ := due_of_waiting waiting
    subst own same
    cases gone.symm.trans due
  | enterGate task queued reached free | release task =>
    refine staff.update fun scheduled stage found own same ready => ?_
    cases task.symm.trans found
    subst own same
    exact staff_self trivial
  | claim task claimed =>
    refine staff.update fun scheduled stage found own same ready => ?_
    cases task.symm.trans found
    subst own same
    obtain ⟨slot, _, idle, queued, now⟩ := PendingSkins.claim_spec claimed
    obtain ⟨after, left, waits⟩ := waiting
    cases now.symm.trans left
    rw [Slot.claim_of_queued idle queued] at waits
    cases waits
  | claimNothing task nothing =>
    refine staff.update fun scheduled stage found own same ready => ?_
    cases task.symm.trans found
    subst own same
    obtain ⟨pending, claimed⟩ := sound.claims task waiting
    exact absurd claimed (nothing pending)
  | reply task taken | finish task ended =>
    refine staff.update fun scheduled stage found own same ready => ?_
    cases task.symm.trans found
    exact ready.elim
  | leave admitted task fresh =>
    obtain ⟨other, scheduled, stage, found, own, same, ready⟩ := staff
    refine ⟨other, scheduled, stage, leave_tasks fresh found ?_, own, same, ready⟩
    rw [task]
    rintro equal
    cases equal
    exact ready
  | enterReset task free | replyReset task taken | endReset task ended =>
    refine staff.update fun scheduled stage found own same ready => ?_
    cases task.symm.trans found
  | _ => exact staff

/-- The holder of a gate stays one where the task that changes is not it, or goes on holding. -/
theorem held_update (held : ∃ task, tasks other = some task ∧ task.holds = some account)
    (keeps : ∀ old, tasks id = some old → old.holds = some account →
      ∃ later, new = some later ∧ later.holds = some account) :
    ∃ task, Function.update tasks id new other = some task ∧ task.holds = some account := by
  obtain ⟨task, found, holds⟩ := held
  by_cases same : other = id
  · subst same
    rw [update_self]
    exact keeps task found holds
  · exact ⟨task, by rwa [update_of_ne same], holds⟩

/-- A gate that is taken from a free one, or given back. -/
theorem gate_update {gates : String → Option TaskId} {mine : String} {holder : Option TaskId}
    (found : Function.update gates mine holder account = some id) :
    (account = mine ∧ holder = some id) ∨ (account ≠ mine ∧ gates account = some id) := by
  by_cases same : account = mine
  · subst same
    rw [update_self] at found
    exact .inl ⟨rfl, found⟩
  · rw [update_of_ne same] at found
    exact .inr ⟨same, found⟩

theorem Step.held (step : Step system action last)
    (held : ∀ account id, system.gates account = some id →
      ∃ task, system.tasks id = some task ∧ task.holds = some account)
    (gate : last.gates account = some id) :
    ∃ task, last.tasks id = some task ∧ task.holds = some account := by
  have fresh {other : TaskId} {new : Option Task} (none : system.tasks other = none)
      (gate : system.gates account = some id) :
      ∃ task, Function.update system.tasks other new id = some task ∧
        task.holds = some account :=
    held_update (held account id gate) fun old found => by
      rw [none] at found
      cases found
  have idle {other : TaskId} {new : Option Task} {old : Task}
      (found : system.tasks other = some old) (free : old.holds ≠ some account)
      (gate : system.gates account = some id) :
      ∃ task, Function.update system.tasks other new id = some task ∧
        task.holds = some account :=
    held_update (held account id gate) fun task same holds => by
      cases found.symm.trans same
      exact absurd holds free
  have goes {other : TaskId} {old new : Task} (found : system.tasks other = some old)
      (same : new.holds = old.holds) (gate : system.gates account = some id) :
      ∃ task, Function.update system.tasks other (some new) id = some task ∧
        task.holds = some account :=
    held_update (held account id gate) fun task here holds => by
      cases found.symm.trans here
      exact ⟨new, rfl, same.trans holds⟩
  have gives {other : TaskId} {new : Option Task} {old : Task} {mine : String}
      (found : system.tasks other = some old) (holds : old.holds = some mine)
      (gate : Function.update system.gates mine none account = some id) :
      ∃ task, Function.update system.tasks other new id = some task ∧
        task.holds = some account := by
    rcases gate_update gate with ⟨_, same⟩ | ⟨apart, gate⟩
    · cases same
    · exact idle found (fun mine => apart (Option.some.inj (mine.symm.trans holds))) gate
  have takes {other : TaskId} {old new : Task} {mine : String}
      (found : system.tasks other = some old) (none : old.holds = none)
      (holds : new.holds = some mine)
      (gate : Function.update system.gates mine (some other) account = some id) :
      ∃ task, Function.update system.tasks other (some new) id = some task ∧
        task.holds = some account := by
    rcases gate_update gate with ⟨rfl, same⟩ | ⟨_, gate⟩
    · cases same
      exact ⟨new, update_self .., holds⟩
    · exact idle found (by rw [none]; exact nofun) gate
  cases step with
  | queue other none queued | reset other none cancelled
  | ensureSpawned task caller inactive queued none => exact fresh none gate
  | abandon task gone => exact idle task nofun gate
  | enterGate task queued reached free | enterReset task free => exact takes task rfl rfl gate
  | claim task claimed | reply task taken | finish task ended | replyReset task taken =>
    exact goes task rfl gate
  | claimNothing task nothing | release task | endReset task ended => exact gives task rfl gate
  | leave admitted task none =>
    have gate : system.gates account = some id := by
      rw [← gate]
      simp
    obtain ⟨found, here, holds⟩ := held account id gate
    refine ⟨found, leave_tasks none here ?_, holds⟩
    rw [task]
    rintro same
    cases same
    cases holds
  | _ => exact held account id gate

/-- Nobody sleeps unnoticed after a notification. -/
theorem notify_ne_asleep {stage : CallerStage} :
    stage.notify ≠ .asleep account generation false := by
  cases stage <;> exact nofun

variable {remaining : List (String × Nat)}

theorem not_asleep_notify {callers : Nat → Option Caller} {id : Nat} :
    ((callers id).map fun caller => { caller with stage := caller.stage.notify }) ≠
      some ⟨remaining, .asleep account generation false⟩ := by
  intro asleep
  obtain ⟨caller, _, same⟩ := Option.map_eq_some_iff.mp asleep
  exact notify_ne_asleep (congrArg Caller.stage same)

/-- A caller that sleeps unnoticed slept before, or has found nothing just now. -/
theorem Step.sleeps (step : Step system action last) {id : Nat}
    (asleep : last.callers id = some ⟨remaining, .asleep account generation false⟩) :
    (system.callers id = some ⟨remaining, .asleep account generation false⟩ ∧
        ∀ task, action ≠ .leave task) ∨
      (system.outcomeFor account generation = none ∧ Awaited system account generation ∧
        last.tasks = system.tasks) := by
  have update {other : Nat} {new : Caller}
      (asleep : Function.update system.callers other (some new) id =
        some ⟨remaining, .asleep account generation false⟩) :
      new = ⟨remaining, .asleep account generation false⟩ ∨
        system.callers id = some ⟨remaining, .asleep account generation false⟩ := by
    by_cases same : id = other
    · subst same
      rw [update_self] at asleep
      exact .inl (Option.some.inj asleep)
    · rw [update_of_ne same] at asleep
      exact .inr asleep
  cases step with
  | cancelSelected | reset | accountRemoved | ensureWorker | ensureSpawned | release | leave
  | endReset =>
    exact absurd asleep not_asleep_notify
  | flushGeneration other fresh accepted =>
    refine .inl ⟨(update asleep).resolve_left fun same => ?_, nofun⟩
    have stage := congrArg Caller.stage same
    unfold askedStage at stage
    split at stage <;> cases stage
  | flushAccount other fresh =>
    refine .inl ⟨(update asleep).resolve_left fun same => ?_, nofun⟩
    have stage := congrArg Caller.stage same
    dsimp only at stage
    split at stage <;> cases stage
  | flushPending | askNextExpedited | askNextRefused | answerRefused | ensureFailed | arm | wake
  | pollTold =>
    exact .inl ⟨(update asleep).resolve_left nofun, nofun⟩
  | pollUnknown caller unknown =>
    rcases update asleep with same | before
    · cases same
      exact .inr ⟨unknown, ⟨_, _, caller, rfl⟩, rfl⟩
    · exact .inl ⟨before, nofun⟩
  | _ => exact .inl ⟨asleep, nofun⟩

/-- An account keeps its workers until they leave. -/
theorem Step.watched (step : Step system action last) (watched : Watched system.tasks account)
    (stays : ∀ task, action ≠ .leave task) : Watched last.tasks account := by
  have fresh {id : TaskId} {new : Option Task} (none : system.tasks id = none) :
      Watched (Function.update system.tasks id new) account :=
    watched.update fun worker found => by
      rw [none] at found
      cases found
  have goes {id : TaskId} {scheduled : PendingSkin} {stage later : Stage}
      (task : system.tasks id = some (.worker ⟨scheduled, stage⟩)) :
      Watched (Function.update system.tasks id (some (.worker ⟨scheduled, later⟩))) account :=
    watched.update fun worker found own => by
      cases task.symm.trans found
      subst own
      exact watched_self
  have resets {id : TaskId} {reset : Reset} {new : Option Task}
      (task : system.tasks id = some (.reset reset)) :
      Watched (Function.update system.tasks id new) account :=
    watched.update fun worker found own => by cases task.symm.trans found
  cases step with
  | queue id none queued | reset id none cancelled
  | ensureSpawned task caller inactive queued none => exact fresh none
  | abandon task gone | enterGate task queued reached free | claim task claimed | release task
  | claimNothing task nothing | reply task taken | finish task ended =>
    exact goes task
  | leave admitted task none => exact absurd rfl (stays _)
  | enterReset task free | replyReset task taken | endReset task ended => exact resets task
  | _ => exact watched

/-- What waits after a move waited before, is new, or has just ended an attempt. -/
theorem Move.waits {next now : Nat} {slot : Option Slot} {after : Slot}
    (move : Move account next now slot events (some after)) (queued : after.queued = some pending) :
    (∃ before waiting, slot = some before ∧ before.queued = some waiting ∧
        waiting.generation = pending.generation) ∨
      .accepted account pending.generation ∈ events ∨
      ∃ outcome, .finished account pending.generation outcome ∈ events := by
  have waits {before : Slot} (kept : ∃ waiting, before.queued = some waiting ∧
      waiting.accountId = pending.accountId ∧ waiting.generation = pending.generation)
      (here : slot = some before) : ∃ before waiting, slot = some before ∧
        before.queued = some waiting ∧ waiting.generation = pending.generation := by
    obtain ⟨waiting, was, _, same⟩ := kept
    exact ⟨before, waiting, here, was, same⟩
  cases move with
  | rest | send | written => exact .inl (waits ⟨pending, queued, rfl, rfl⟩ rfl)
  | insert own top new =>
    cases queued
    exact .inr (.inl List.mem_cons_self)
  | claim idle waiting =>
    rw [Slot.claim_of_queued idle waiting] at queued
    cases queued
  | begin begun =>
    rw [(Slot.beginEffect_of_ok begun).1] at queued
    exact .inl ⟨_, pending, rfl, queued, rfl⟩
  | @finish slot ended outcome running =>
    obtain ⟨_, _, _, kept | ⟨back, _⟩⟩ := Slot.finish_spec running outcome now
    · exact .inl (waits ⟨pending, kept ▸ queued, rfl, rfl⟩ rfl)
    · cases back.symm.trans queued
      exact .inr (.inr ⟨outcome, List.mem_cons_self⟩)
  | cancel answered => exact .inl (waits ((taking_cancel answered).queued pending queued) rfl)
  | library taken _ _ =>
    exact .inl (waits ((taking_libraryChanged _ _).queued pending queued) rfl)
  | remove taken => cases queued
  | expedite silent => exact .inl (waits ((calm_expedite _ now).queued pending queued) rfl)
  | expediteGeneration silent generation =>
    exact .inl (waits ((calm_expediteGeneration _ generation now).queued pending queued) rfl)
  | rebase before current =>
    exact .inl (waits ((calm_rebase _ before current).queued pending queued) rfl)

/-- Where a slot says nothing, a choice waits or runs. -/
theorem Slot.some_of_unknown {slot : Slot} (unknown : slot.outcome generation = none) :
    (∃ pending, slot.queued = some pending) ∨ ∃ pending, slot.running = some pending := by
  rw [outcome_of_other] at unknown
  · split at unknown
    · cases unknown
    · rename_i busy
      cases queued : slot.queued with
      | some pending => exact .inl ⟨pending, rfl⟩
      | none =>
        cases running : slot.running with
        | some pending => exact .inr ⟨pending, rfl⟩
        | none => exact absurd (.inr ⟨by rw [queued]; rfl, by rw [running]; rfl⟩) busy
  · intro outcome completed
    rw [Slot.outcome, completed] at unknown
    simp at unknown

/-- The service stays staffed. -/
theorem Staffed.step (staffed : Staffed system) (step : Step system action last)
    (sound : Sound system) (moved : Moved system action last events) (wanted : Wanted system) :
    Staffed last where
  bounded := step.bounded staffed.bounded
  own _ _ _ _ := step.own staffed
  held _ _ := step.held staffed.held
  staff account after pending left queued := by
    have move := moved.moves account
    rw [left] at move
    have waiting : Waiting last.pending account pending.generation :=
      ⟨after, left, Slot.isGeneration_iff.mpr ⟨pending, queued, rfl⟩⟩
    rcases move.waits queued with ⟨slot, waits, here, was, same⟩ | accepted | ⟨outcome, ends⟩
    · have staff := staffed.staff account slot waits here was
      rw [same] at staff
      exact step.staff sound staff waiting
    · obtain ⟨id, placed, task, own, same⟩ := moved.explained _ accepted
      exact ⟨id, placed, .scheduled, task, own, same, trivial⟩
    · obtain ⟨id, scheduled, ended, rest, rfl, task, own, same, _⟩ := moved.explained _ ends
      cases step with
      | finish found ended =>
        cases task.symm.trans found
        rw [← own, ← same, ← (sound.applying _ _ _ _ task).1, ← staffed.own _ _ _ _ task]
        exact staff_self trivial
  watched id remaining account generation asleep := by
    rcases step.sleeps asleep with ⟨before, stays⟩ | ⟨unknown, awaited, same⟩
    · exact step.watched (staffed.watched _ _ _ _ before) stays
    · obtain ⟨slot, found⟩ := sound.slot_of_accepted (wanted.awaited _ _ awaited)
      rw [System.outcomeFor, PendingSkins.outcome, found, Option.bind_some] at unknown
      rw [same]
      rcases Slot.some_of_unknown unknown with ⟨pending, queued⟩ | ⟨pending, running⟩
      · obtain ⟨other, scheduled, stage, task, own, _⟩ :=
          staffed.staff account slot pending found queued
        exact ⟨other, _, task, own⟩
      · obtain ⟨other, scheduled, rest, task⟩ := sound.running _ _ _ found running
        have fits := sound.fits account
        rw [found] at fits
        refine ⟨other, _, task, (sound.applying _ _ _ _ task).1.trans ?_⟩
        exact (SlotFits.running fits pending running).1

end steps

end Axial.Skins
