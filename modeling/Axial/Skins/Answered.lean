/-
This file shows that a caller that waits is answered. From every state that the service
reaches, turns of the tasks, the clock and the caller itself can be given so that the caller
is told an outcome, whatever the provider, the account service and the library answer: no
wake-up is lost, no gate stays taken, and no choice waits without a worker.
-/

import Axial.Library.Turns
import Axial.Skins.Staffed

namespace Axial.Skins

open Accounts Program Turns Function Option

/-! ### Turns -/

/-- Those who take turns; users do what they like, and are not among them. -/
inductive Actor where
  | clock
  | task (id : TaskId)
  | caller (id : Nat)

def Action.actor : Action → Option Actor
  | .tick => some .clock
  | .askNext id | .answerRefused id | .ensureWorker id | .arm id | .poll id | .wake id =>
    some (.caller id)
  | .abandon id | .enterGate id | .claim id | .reply id _ _ | .finish id | .release id | .leave id
  | .enterReset id | .replyReset id _ _ | .endReset id => some (.task id)
  | _ => none

/-- What an actor may do in a turn. -/
def Acts (actor : Actor) (before after : System) : Prop :=
  ∃ action, action.actor = some actor ∧ Step before action after

/-- What is true of the service in every state that it reaches. -/
structure Going (system : System) : Prop where
  sound : Sound system
  attempting : Attempting False system
  accounted : AllAccounted system
  wanted : Wanted system
  staffed : Staffed system

variable {system last : System} {action : Action}

theorem Going.step (going : Going system) (step : Step system action last) : Going last := by
  have prepared := going.attempting.prepared
  obtain ⟨events, moved⟩ := step.move going.sound prepared
  exact
    { sound := step.sound going.sound prepared
      attempting := step.attempting going.sound moved going.attempting nofun nofun
      accounted := moved.accounted going.sound going.attempting going.accounted
      wanted := going.wanted.step step moved going.accounted
      staffed := going.staffed.step step going.sound moved going.wanted }

theorem Going.acts {actor : Actor} (going : Going system) (acts : Acts actor system last) :
    Going last :=
  acts.elim fun _ ⟨_, step⟩ => going.step step

/-- Every call can be answered. -/
theorem exists_callEffect (question : SkinCall) (state : PendingSkins) :
    ∃ answer after, callEffect question state answer after := by
  cases question with
  | sync | written => exact ⟨.error .unavailable, state, rfl, fun _ same => by cases same; rfl⟩
  | normalize png => exact ⟨.error .invalidImage, state, rfl, fun _ same => by cases same; rfl⟩
  | beginEffectWithSkin pending => exact ⟨_, _, .inr (.inr ⟨rfl, rfl⟩)⟩
  | beginEffect | isCurrent => exact ⟨_, _, rfl, rfl⟩
  | rebaseAccount before current => exact ⟨(), _, rfl⟩
  | captureAccount accountId => exact ⟨.error .notFound, state, rfl⟩
  | credentials | commitProfile | texture => exact ⟨.error .unavailable, state, rfl⟩
  | checkCapture | keep | clearApplied => exact ⟨.ok (), state, rfl⟩
  | sendUpload | sendCape | sendReset | unsettle | settle => exact ⟨(), state, rfl⟩
  | skin | readPng => exact ⟨.ok none, state, rfl⟩
  | markAppliedIfCurrent accountId textureKey revision => exact ⟨.ok true, state, rfl⟩

/-! ### What a task does in its turn -/

/-- What a task may do, by where it is. -/
def Does (system : System) (id : TaskId) (last : System) : Task → Prop
  | .worker ⟨scheduled, .scheduled⟩ =>
    (system.pending.dueGeneration scheduled.accountId scheduled.generation = none ∧
        last = system.withTask id (some (.worker ⟨scheduled, .leaving⟩))) ∨
      ((∃ due, system.pending.dueGeneration scheduled.accountId scheduled.generation = some due) ∧
        last = (system.withTask id (some (.worker ⟨scheduled, .gated⟩))).withGate
          scheduled.accountId (some id))
  | .worker ⟨scheduled, .gated⟩ =>
    (∃ pending,
        (system.pending.claim scheduled.accountId (some scheduled.generation)).2 =
          .ok (some pending) ∧
        last = ({ system with
            pending := (system.pending.claim scheduled.accountId (some scheduled.generation)).1
          }.withTask id (some (.worker ⟨scheduled, .applying pending (apply pending)⟩))).record
            [.claimed pending.accountId pending.generation]) ∨
      ((∀ pending,
          (system.pending.claim scheduled.accountId (some scheduled.generation)).2 ≠
            .ok (some pending)) ∧
        last = (system.withTask id (some (.worker ⟨scheduled, .leaving⟩))).withGate
          scheduled.accountId none)
  | .worker ⟨scheduled, .applying pending rest⟩ =>
    (∃ (question : SkinCall) (next : question.Answer → SkinProgram Unit)
        (answer : question.Answer) (state : PendingSkins), rest = .call question next ∧
        callEffect question system.pending answer state ∧
        last = ({ system with pending := state }.withTask id
          (some (.worker ⟨scheduled, .applying pending (next answer)⟩))).record
            (callEvents pending question answer)) ∨
      ∃ outcome, Ended rest outcome ∧
        last = ({ system with
            pending := system.pending.finish pending outcome system.now
          }.withTask id (some (.worker ⟨scheduled, .finished⟩))).record
            [.finished pending.accountId pending.generation outcome]
  | .worker ⟨scheduled, .finished⟩ =>
    last = ((system.withTask id (some (.worker ⟨scheduled, .scheduled⟩))).withGate
      scheduled.accountId none).notify
  | .worker ⟨scheduled, .leaving⟩ => ∃ next admitted, system.tasks next = none ∧
    last = (({ system with
        active := update system.active scheduled.generation false
      }.withTask id none).spawnQueued scheduled.accountId next admitted).notify
  | .reset ⟨capture, skin, .waiting⟩ =>
    last = (system.withTask id
      (some (.reset ⟨capture, skin, .running (resetAccount capture skin)⟩))).withGate
        capture.record.accountId.text (some id)
  | .reset ⟨capture, skin, .running rest⟩ =>
    (∃ (question : SkinCall) (next : question.Answer → SkinProgram Unit)
        (answer : question.Answer) (state : PendingSkins), rest = .call question next ∧
        callEffect question system.pending answer state ∧
        last = { system with pending := state }.withTask id
          (some (.reset ⟨capture, skin, .running (next answer)⟩))) ∨
      ∃ outcome, Ended rest outcome ∧
        last = ((system.withTask id none).withGate capture.record.accountId.text none).notify

theorem Acts.does {id : TaskId} {task : Task} (acts : Acts (.task id) system last)
    (here : system.tasks id = some task) : Does system id last task := by
  obtain ⟨action, actor, step⟩ := acts
  cases step with
  | abandon found gone =>
    cases actor
    cases here.symm.trans found
    exact .inl ⟨gone, rfl⟩
  | enterGate found queued reached free =>
    cases actor
    cases here.symm.trans found
    exact .inr ⟨⟨_, queued⟩, rfl⟩
  | claim found claimed =>
    cases actor
    cases here.symm.trans found
    exact .inl ⟨_, claimed, rfl⟩
  | claimNothing found nothing =>
    cases actor
    cases here.symm.trans found
    exact .inr ⟨nothing, rfl⟩
  | reply found taken | replyReset found taken =>
    cases actor
    cases here.symm.trans found
    exact .inl ⟨_, _, _, _, rfl, taken, rfl⟩
  | finish found ended | endReset found ended =>
    cases actor
    cases here.symm.trans found
    exact .inr ⟨_, ended, rfl⟩
  | release found | enterReset found free =>
    cases actor
    cases here.symm.trans found
    exact rfl
  | leave admitted found fresh =>
    cases actor
    cases here.symm.trans found
    exact ⟨_, admitted, fresh, rfl⟩
  | _ => cases actor

/-! ### A caller that sleeps -/

/-- The caller sleeps, waiting for the choice. -/
def Sleeps (id : Nat) (account : String) (generation : Nat) (system : System) : Prop :=
  ∃ remaining notified,
    system.callers id = some ⟨remaining, .asleep account generation notified⟩

/-- The caller has been notified. -/
def Woken (id : Nat) (account : String) (generation : Nat) (system : System) : Prop :=
  ∃ remaining, system.callers id = some ⟨remaining, .asleep account generation true⟩

/-- The slot of the account is as it should be. -/
def Has (account : String) (wanted : Slot → Prop) (system : System) : Prop :=
  ∃ slot, system.pending.accounts account = some slot ∧ wanted slot

variable {caller : Nat} {account : String} {generation : Nat}

theorem Woken.sleeps (woken : Woken caller account generation system) :
    Sleeps caller account generation system :=
  woken.imp fun _ found => ⟨true, found⟩

theorem Sleeps.notify (sleeps : Sleeps caller account generation system) :
    Woken caller account generation system.notify := by
  obtain ⟨remaining, notified, found⟩ := sleeps
  exact ⟨remaining, congrArg (Option.map _) found⟩

/-- What waits in a slot, as far as workers look at it. -/
def Slot.due (slot : Slot) : Option (Nat × Nat) :=
  slot.queued.map fun entry => (entry.generation, entry.due)

variable {slot : Slot}

/-- The newest choice, what runs and what waits stay as they are in a call. -/
theorem callEffect_slot {question : SkinCall} {answer : question.Answer}
    {state after : PendingSkins} (taken : callEffect question state answer after)
    (found : state.accounts account = some slot) :
    ∃ later, after.accounts account = some later ∧ later.generation = slot.generation ∧
      later.running = slot.running ∧ later.due = slot.due := by
  obtain ⟨later, now, rfl | ⟨pending, rfl⟩ | ⟨before, current, rfl⟩⟩ := slot_of_call taken found
  · exact ⟨_, now, rfl, rfl, rfl⟩
  · refine ⟨_, now, ?_⟩
    rcases slot.beginEffect_or pending with same | same
    all_goals
      rw [same]
      exact ⟨rfl, rfl, rfl⟩
  · refine ⟨_, now, rfl, rfl, ?_⟩
    unfold Slot.due Slot.rebase
    rw [map_map]
    congr 1
    funext entry
    dsimp only [comp_apply]
    split <;> rfl

/-- Whatever happens, it comes to be so, with the caller notified. -/
abbrev Rouses (caller : Nat) (account : String) (generation : Nat) (wanted : System → Prop)
    (system : System) : Prop :=
  Inevitable Acts (fun last => Going last ∧ Woken caller account generation last ∧ wanted last)
    system

/-! ### Attempts come to their end -/

variable {rest : SkinProgram Unit} {wanted : Slot → Prop} {outcome : Outcome}

section attempts

variable {id : TaskId} {scheduled pending : PendingSkin} {newest : Nat}

/-- Nothing runs, and the last choice that did keeps its completion. -/
def Slot.Rests (newest done : Nat) (slot : Slot) : Prop :=
  slot.generation = newest ∧ slot.running = none ∧
    ∃ outcome, slot.completed = some (done, outcome)

/-- An attempt that makes no more calls comes to its end. -/
theorem inevitable_ended (ended : Ended rest outcome) (going : Going system)
    (sleeps : Sleeps caller account generation system)
    (task : system.tasks id = some (.worker ⟨scheduled, .applying pending rest⟩))
    (own : pending.accountId = account) (slots : Has account (·.generation = newest) system) :
    Inevitable Acts (fun last => Going last ∧ Sleeps caller account generation last ∧
      last.tasks id = some (.worker ⟨scheduled, .finished⟩) ∧
      Has account (Slot.Rests newest pending.generation) last) system := by
  refine .once (.task id) ⟨_, .finish id, rfl, .finish task ended⟩ fun last acts => ?_
  refine ⟨going.acts acts, ?_⟩
  rcases acts.does task with ⟨question, next, _, _, rfl, _⟩ | ⟨outcome, _, rfl⟩
  · cases ended
  · obtain ⟨slot, found, rfl⟩ := slots
    obtain ⟨_, _, other, here, running⟩ := going.sound.applying _ _ _ _ task
    rw [own] at here
    cases found.symm.trans here
    obtain ⟨idle, same, completed, _⟩ := Slot.finish_spec running outcome system.now
    refine ⟨sleeps, by simp, _, ?_, same, idle, outcome, completed⟩
    rw [← own] at found ⊢
    exact PendingSkins.finish_accounts found

section

variable (going : Going system) (sleeps : Sleeps caller account generation system)

include going sleeps

/-- An attempt comes to its end, whatever its calls are answered. -/
theorem inevitable_finished
    (task : system.tasks id = some (.worker ⟨scheduled, .applying pending rest⟩))
    (own : pending.accountId = account) (slots : Has account (·.generation = newest) system) :
    Inevitable Acts (fun last => Going last ∧ Sleeps caller account generation last ∧
      last.tasks id = some (.worker ⟨scheduled, .finished⟩) ∧
      Has account (Slot.Rests newest pending.generation) last) system := by
  induction rest generalizing system with
  | finish value => exact inevitable_ended .finish going sleeps task own slots
  | fail error => exact inevitable_ended (.fail error) going sleeps task own slots
  | call question next ih =>
    obtain ⟨answer, state, taken⟩ := exists_callEffect question system.pending
    refine .turn (.task id) ⟨_, .reply id question answer, rfl, .reply task taken⟩
      fun last acts => ?_
    rcases acts.does task with ⟨_, _, answer, state, same, taken, rfl⟩ | ⟨outcome, ended, _⟩
    · cases same
      obtain ⟨slot, found, rfl⟩ := slots
      obtain ⟨later, now, same, _⟩ := callEffect_slot taken found
      exact ih answer (going.acts acts) sleeps (by simp) ⟨later, now, same⟩
    · cases ended

/-- A worker that has finished wakes those who sleep. -/
theorem inevitable_released (task : system.tasks id = some (.worker ⟨scheduled, .finished⟩))
    (slots : Has account wanted system) :
    Rouses caller account generation (Has account wanted) system := by
  refine .once (.task id) ⟨_, .release id, rfl, .release task⟩ fun last acts => ?_
  refine ⟨going.acts acts, ?_⟩
  cases acts.does task
  exact ⟨sleeps.notify, slots⟩

/-- A choice that runs comes to rest, and those who sleep are woken. -/
theorem inevitable_rest_of_running
    (slots : Has account (fun slot => slot.generation = newest ∧ slot.running = some pending)
      system) :
    Rouses caller account generation (Has account (Slot.Rests newest pending.generation)) system := by
  obtain ⟨slot, found, same, running⟩ := slots
  obtain ⟨id, scheduled, rest, task⟩ := going.sound.running _ _ _ found running
  have fits := going.sound.fits account
  rw [found] at fits
  have own := (SlotFits.running fits pending running).1
  refine (inevitable_finished going sleeps task own ⟨slot, found, same⟩).trans ?_
  rintro middle ⟨going, sleeps, task, slots⟩
  exact inevitable_released going sleeps task slots

end

end attempts

/-! ### Choices that wait are claimed -/

section claims

variable {id : TaskId} {scheduled : PendingSkin} {newest due : Nat}

/-- Nothing runs, and the newest choice waits. -/
def Slot.Awaits (newest due : Nat) (slot : Slot) : Prop :=
  slot.generation = newest ∧ slot.running = none ∧ slot.due = some (newest, due)

theorem Slot.Awaits.waiting (slots : Has account (Slot.Awaits newest due) system) :
    Waiting system.pending account newest ∧
      system.pending.dueGeneration account newest = some due := by
  obtain ⟨slot, found, _, _, waits⟩ := slots
  obtain ⟨pending, queued, same⟩ := map_eq_some_iff.mp waits
  cases same
  refine ⟨⟨slot, found, Slot.isGeneration_iff.mpr ⟨pending, queued, rfl⟩⟩, ?_⟩
  rw [PendingSkins.dueGeneration, PendingSkins.queued, found, bind_some, queued]
  simp

/-- A worker that holds the gate claims the choice that waits, and applies it. -/
theorem inevitable_rest_of_gated (going : Going system)
    (sleeps : Sleeps caller account generation system)
    (task : system.tasks id = some (.worker ⟨scheduled, .gated⟩))
    (own : scheduled.accountId = account) (mine : scheduled.generation = newest)
    (slots : Has account (Slot.Awaits newest due) system) :
    Rouses caller account generation (Has account (Slot.Rests newest newest)) system := by
  subst own mine
  obtain ⟨pending, claimed⟩ := going.sound.claims task (Slot.Awaits.waiting slots).1
  refine .turn (.task id) ⟨_, .claim id, rfl, .claim task claimed⟩ fun last acts => ?_
  have goes := going.acts acts
  rcases acts.does task with ⟨taken, claims, rfl⟩ | ⟨nothing, _⟩
  · obtain ⟨slot, found, idle, queued, now⟩ := PendingSkins.claim_spec claims
    obtain ⟨same, here, newest, _⟩ := slots
    cases found.symm.trans here
    rw [Slot.claim_of_queued idle queued] at now
    refine (inevitable_rest_of_running goes sleeps ⟨_, now, newest, rfl⟩).mono ?_
    rintro last ⟨going, woken, slots⟩
    rw [← PendingSkins.claim_generation claims] at slots
    exact ⟨going, woken, slots⟩
  · exact absurd claimed (nothing pending)

/-- Time passes until the choice is due. -/
theorem inevitable_due (going : Going system) (sleeps : Sleeps caller account generation system)
    (task : system.tasks id = some (.worker ⟨scheduled, .scheduled⟩))
    (slots : Has account (Slot.Awaits newest due) system) :
    Inevitable Acts (fun last => (Going last ∧ Sleeps caller account generation last ∧
      last.tasks id = some (.worker ⟨scheduled, .scheduled⟩) ∧
      Has account (Slot.Awaits newest due) last) ∧ due - last.now = 0) system := by
  refine @Inevitable.of_rank _ _ Acts (fun last => Going last ∧
    Sleeps caller account generation last ∧
    last.tasks id = some (.worker ⟨scheduled, .scheduled⟩) ∧
    Has account (Slot.Awaits newest due) last) system (fun last => due - last.now) .clock ?_
    ⟨going, sleeps, task, slots⟩
  rintro before ⟨going, sleeps, task, slots⟩ early
  refine ⟨⟨_, .tick, rfl, .tick⟩, fun last acts => ?_⟩
  have goes := going.acts acts
  obtain ⟨action, actor, step⟩ := acts
  cases step with
  | tick => exact ⟨⟨goes, sleeps, task, slots⟩, by dsimp only; omega⟩
  | _ => cases actor

/-- A worker stands before the gate of the account, with a choice that is due. -/
structure Ready (caller : Nat) (account : String) (generation : Nat) (id : TaskId)
    (scheduled : PendingSkin) (newest due : Nat) (system : System) : Prop where
  going : Going system
  sleeps : Sleeps caller account generation system
  task : system.tasks id = some (.worker ⟨scheduled, .scheduled⟩)
  own : scheduled.accountId = account
  mine : scheduled.generation = newest
  reached : due ≤ system.now
  slots : Has account (Slot.Awaits newest due) system

/-- A reset comes to its end, and gives the gate back. -/
theorem inevitable_reset {other : TaskId} {capture : CapturedAccount} {skin : Bool}
    (ready : Ready caller account generation id scheduled newest due system)
    (reset : system.tasks other = some (.reset ⟨capture, skin, .running rest⟩))
    (own : capture.record.accountId.text = account) :
    Inevitable Acts (fun last => Ready caller account generation id scheduled newest due last ∧
      last.gates account = none) system := by
  have apart (system : System) (task : system.tasks id = some (.worker ⟨scheduled, .scheduled⟩))
      {rest : SkinProgram Unit}
      (reset : system.tasks other = some (.reset ⟨capture, skin, .running rest⟩)) : id ≠ other := by
    rintro rfl
    cases task.symm.trans reset
  have ends {rest : SkinProgram Unit} {outcome : Outcome} (ended : Ended rest outcome)
      (system : System) (ready : Ready caller account generation id scheduled newest due system)
      (reset : system.tasks other = some (.reset ⟨capture, skin, .running rest⟩)) :
      Inevitable Acts (fun last => Ready caller account generation id scheduled newest due last ∧
        last.gates account = none) system := by
    refine .once (.task other) ⟨_, .endReset other, rfl, .endReset reset ended⟩ fun last acts => ?_
    have goes := ready.going.acts acts
    rcases acts.does reset with ⟨question, next, _, _, rfl, _⟩ | ⟨outcome, _, rfl⟩
    · cases ended
    · refine ⟨⟨goes, ready.sleeps.notify.sleeps, ?_, ready.own, ready.mine, ready.reached,
        ready.slots⟩, ?_⟩
      · simpa [update_of_ne (apart system ready.task reset)] using ready.task
      · simp [own]
  induction rest generalizing system with
  | finish value => exact ends .finish system ready reset
  | fail error => exact ends (.fail error) system ready reset
  | call question next ih =>
    obtain ⟨answer, state, taken⟩ := exists_callEffect question system.pending
    refine .turn (.task other) ⟨_, .replyReset other question answer, rfl, .replyReset reset taken⟩
      fun last acts => ?_
    have goes := ready.going.acts acts
    rcases acts.does reset with ⟨_, _, answer, state, same, taken, rfl⟩ | ⟨outcome, ended, _⟩
    · cases same
      obtain ⟨slot, found, newest, idle, waits⟩ := ready.slots
      obtain ⟨later, now, same, running, queued⟩ := callEffect_slot taken found
      refine ih answer ⟨goes, ready.sleeps, ?_, ready.own, ready.mine,
        ready.reached, later, now, same.trans newest, running.trans idle, queued.trans waits⟩
        (by simp)
      simpa [update_of_ne (apart system ready.task reset)] using ready.task
    · cases ended

/-- The gate of the account becomes free, or another worker claims the choice. -/
theorem inevitable_free (ready : Ready caller account generation id scheduled newest due system) :
    Inevitable Acts (fun last =>
      (Ready caller account generation id scheduled newest due last ∧ last.gates account = none) ∨
        (Going last ∧ Woken caller account generation last ∧
          Has account (Slot.Rests newest newest) last)) system := by
  cases gate : system.gates account with
  | none => exact .reached (.inl ⟨ready, gate⟩)
  | some holder =>
    obtain ⟨task, found, holds⟩ := ready.going.staffed.held account holder gate
    have apart (unlike : task ≠ .worker ⟨scheduled, .scheduled⟩) : id ≠ holder := by
      rintro rfl
      cases ready.task.symm.trans found
      exact unlike rfl
    match task with
    | .worker ⟨claimer, .gated⟩ =>
      cases holds
      have can : ∃ after, Acts (.task holder) system after := by
        by_cases claims : ∃ pending, (system.pending.claim claimer.accountId
            (some claimer.generation)).2 = .ok (some pending)
        · obtain ⟨pending, claimed⟩ := claims
          exact ⟨_, .claim holder, rfl, .claim found claimed⟩
        · exact ⟨_, .claim holder, rfl, .claimNothing found fun pending claimed =>
            claims ⟨pending, claimed⟩⟩
      refine .turn (.task holder) can fun last acts => ?_
      have goes := ready.going.acts acts
      rcases acts.does found with ⟨taken, claims, rfl⟩ | ⟨nothing, rfl⟩
      · obtain ⟨slot, here, idle, queued, now⟩ := PendingSkins.claim_spec claims
        obtain ⟨same, there, newest, _, waits⟩ := ready.slots
        cases here.symm.trans there
        rw [Slot.due, queued] at waits
        cases waits
        rw [Slot.claim_of_queued idle queued] at now
        exact (inevitable_rest_of_running goes ready.sleeps ⟨_, now, newest, rfl⟩).mono
          fun last done => .inr done
      · refine .reached (.inl ⟨⟨goes, ready.sleeps, ?_, ready.own, ready.mine, ready.reached,
          ready.slots⟩, by simp⟩)
        simpa [update_of_ne (apart nofun)] using ready.task
    | .worker ⟨claimer, .applying pending rest⟩ =>
      cases holds
      obtain ⟨own, _, slot, here, running⟩ := ready.going.sound.applying _ _ _ _ found
      obtain ⟨same, there, _, idle, _⟩ := ready.slots
      rw [← own] at here
      cases here.symm.trans there
      cases running.symm.trans idle
    | .worker ⟨claimer, .finished⟩ =>
      cases holds
      refine .once (.task holder) ⟨_, .release holder, rfl, .release found⟩ fun last acts => ?_
      have goes := ready.going.acts acts
      cases acts.does found
      refine .inl ⟨⟨goes, ready.sleeps.notify.sleeps, ?_, ready.own, ready.mine, ready.reached,
        ready.slots⟩, by simp⟩
      simpa [update_of_ne (apart nofun)] using ready.task
    | .reset ⟨capture, skin, .running rest⟩ =>
      exact (inevitable_reset ready found (Option.some.inj holds)).mono fun last free => .inl free

/-- A worker whose choice waits claims it when it is due, and applies it. -/
theorem inevitable_rest_of_scheduled (going : Going system)
    (sleeps : Sleeps caller account generation system)
    (task : system.tasks id = some (.worker ⟨scheduled, .scheduled⟩))
    (own : scheduled.accountId = account) (mine : scheduled.generation = newest)
    (slots : Has account (Slot.Awaits newest due) system) :
    Rouses caller account generation (Has account (Slot.Rests newest newest)) system := by
  refine (inevitable_due going sleeps task slots).trans ?_
  rintro middle ⟨⟨going, sleeps, task, slots⟩, reached⟩
  refine (inevitable_free ⟨going, sleeps, task, own, mine, by omega, slots⟩).trans ?_
  rintro middle (⟨ready, free⟩ | done)
  · have waits := (Slot.Awaits.waiting ready.slots).2
    rw [← ready.own] at free waits
    rw [← ready.mine] at waits
    refine .turn (.task id) ⟨_, .enterGate id, rfl, .enterGate ready.task waits ready.reached free⟩
      fun last acts => ?_
    have goes := ready.going.acts acts
    rcases acts.does ready.task with ⟨gone, _⟩ | ⟨_, rfl⟩
    · cases gone.symm.trans waits
    · have gated : ((middle.withTask id (some (.worker ⟨scheduled, .gated⟩))).withGate
          scheduled.accountId (some id)).tasks id = some (.worker ⟨scheduled, .gated⟩) := by simp
      exact inevitable_rest_of_gated goes ready.sleeps gated ready.own ready.mine ready.slots
  · exact .reached done

/-- What waits where nothing runs is claimed and applied. -/
theorem inevitable_rest_of_waiting (going : Going system)
    (sleeps : Sleeps caller account generation system)
    (slots : Has account (fun slot => slot.running = none ∧ slot.queued ≠ none) system) :
    ∃ newest, Rouses caller account generation (Has account (Slot.Rests newest newest)) system := by
  obtain ⟨slot, found, idle, waits⟩ := slots
  obtain ⟨pending, queued⟩ := ne_none_iff_exists'.mp waits
  have fits := going.sound.fits account
  rw [found] at fits
  have newest := (SlotFits.queued fits pending queued).2
  have slots : Has account (Slot.Awaits pending.generation pending.due) system :=
    ⟨slot, found, newest.symm, idle, by rw [Slot.due, queued]; rfl⟩
  obtain ⟨id, scheduled, stage, task, own, mine, ready⟩ :=
    going.staffed.staff account slot pending found queued
  refine ⟨pending.generation, ?_⟩
  cases stage with
  | scheduled => exact inevitable_rest_of_scheduled going sleeps task own mine slots
  | gated => exact inevitable_rest_of_gated going sleeps task own mine slots
  | applying | leaving => exact ready.elim
  | finished =>
    refine .turn (.task id) ⟨_, .release id, rfl, .release task⟩ fun last acts => ?_
    have goes := going.acts acts
    cases acts.does task
    have released : ((system.withTask id (some (.worker ⟨scheduled, .scheduled⟩))).withGate
        scheduled.accountId none).notify.tasks id = some (.worker ⟨scheduled, .scheduled⟩) := by
      simp
    exact inevitable_rest_of_scheduled goes sleeps.notify.sleeps released own mine slots

@[simp] theorem System.spawnQueued_callers {next : TaskId} {admitted : Bool} :
    (system.spawnQueued account next admitted).callers = system.callers := by
  rcases system.spawnQueued_cases next account admitted with same | ⟨_, _, same⟩ <;> rw [same]
  rfl

/-- A worker that leaves wakes those who sleep. -/
theorem inevitable_left (going : Going system) (sleeps : Sleeps caller account generation system)
    (task : system.tasks id = some (.worker ⟨scheduled, .leaving⟩))
    (slots : Has account wanted system) :
    Rouses caller account generation (Has account wanted) system := by
  obtain ⟨bound, beyond⟩ := going.staffed.bounded
  refine .once (.task id) ⟨_, .leave id, rfl, .leave false task (beyond bound le_rfl)⟩
    fun last acts => ⟨going.acts acts, ?_⟩
  obtain ⟨next, admitted, _, rfl⟩ := acts.does task
  refine ⟨Sleeps.notify ?_, ?_⟩
  · unfold Sleeps
    rw [System.spawnQueued_callers]
    exact sleeps
  · unfold Has
    rw [System.notify_pending, System.spawnQueued_pending]
    exact slots

/-- Where nothing waits and nothing runs, the workers of the account leave, and wake those who
sleep. -/
theorem inevitable_woken (going : Going system) (sleeps : Sleeps caller account generation system)
    (slots : Has account (fun slot => slot.running = none ∧ slot.queued = none) system) :
    Rouses caller account generation (Has account (fun slot => slot.running = none ∧ slot.queued = none)) system := by
  obtain ⟨remaining, notified, asleep⟩ := sleeps
  cases notified with
  | true => exact .reached ⟨going, ⟨remaining, asleep⟩, slots⟩
  | false =>
    have sleeps : Sleeps caller account generation system := ⟨remaining, false, asleep⟩
    obtain ⟨id, ⟨scheduled, stage⟩, task, own⟩ := going.staffed.watched _ _ _ _ asleep
    obtain ⟨slot, found, idle, empty⟩ := slots
    have slots : Has account (fun slot => slot.running = none ∧ slot.queued = none) system :=
      ⟨slot, found, idle, empty⟩
    have nothing (other : String) (same : other = account) (wanted : Nat) :
        system.pending.dueGeneration other wanted = none := by
      rw [same, PendingSkins.dueGeneration, PendingSkins.queued, found, bind_some, empty]
      rfl
    cases stage with
    | scheduled =>
      have gone := nothing scheduled.accountId own scheduled.generation
      refine .turn (.task id) ⟨_, .abandon id, rfl, .abandon task gone⟩ fun last acts => ?_
      have goes := going.acts acts
      rcases acts.does task with ⟨_, rfl⟩ | ⟨⟨due, waits⟩, _⟩
      · have left : (system.withTask id (some (.worker ⟨scheduled, .leaving⟩))).tasks id =
            some (.worker ⟨scheduled, .leaving⟩) := by simp
        exact inevitable_left goes sleeps left slots
      · cases gone.symm.trans waits
    | gated =>
      have unclaimed (pending : PendingSkin) : (system.pending.claim scheduled.accountId
          (some scheduled.generation)).2 ≠ .ok (some pending) := by
        intro claimed
        obtain ⟨other, here, _, queued, _⟩ := PendingSkins.claim_spec claimed
        rw [show scheduled.accountId = account from own, found] at here
        cases here
        cases queued.symm.trans empty
      refine .turn (.task id) ⟨_, .claim id, rfl, .claimNothing task unclaimed⟩ fun last acts => ?_
      have goes := going.acts acts
      rcases acts.does task with ⟨pending, claimed, _⟩ | ⟨_, rfl⟩
      · exact absurd claimed (unclaimed pending)
      · have left : ((system.withTask id (some (.worker ⟨scheduled, .leaving⟩))).withGate
            scheduled.accountId none).tasks id = some (.worker ⟨scheduled, .leaving⟩) := by simp
        exact inevitable_left goes sleeps left slots
    | applying pending rest =>
      obtain ⟨same, _, other, here, running⟩ := going.sound.applying _ _ _ _ task
      rw [← same, show scheduled.accountId = account from own, found] at here
      cases here
      cases running.symm.trans idle
    | finished => exact inevitable_released going sleeps task slots
    | leaving => exact inevitable_left going sleeps task slots

end claims

/-! ### Callers are told -/

section told

/-- The queue has something to say of the choice. -/
def Known (account : String) (generation : Nat) (system : System) : Prop :=
  ∃ outcome, system.outcomeFor account generation = some outcome

theorem known_of_slot (found : system.pending.accounts account = some slot)
    (said : slot.outcome generation ≠ none) : Known account generation system := by
  obtain ⟨outcome, same⟩ := ne_none_iff_exists'.mp said
  exact ⟨outcome, by rw [System.outcomeFor, PendingSkins.outcome, found, bind_some, same]⟩

theorem known_of_rest {newest : Nat} (slots : Has account (Slot.Rests newest newest) system) :
    Known account generation system := by
  obtain ⟨slot, found, same, _, outcome, completed⟩ := slots
  refine known_of_slot found ?_
  by_cases mine : newest = generation
  · simp [Slot.outcome, completed, mine]
  · rw [outcome_of_other]
    · rw [if_pos (.inl (same.trans_ne mine))]
      exact some_ne_none _
    · intro other here
      cases completed.symm.trans here
      exact mine rfl

theorem known_of_idle
    (slots : Has account (fun slot => slot.running = none ∧ slot.queued = none) system) :
    Known account generation system := by
  obtain ⟨slot, found, idle, empty⟩ := slots
  refine known_of_slot found fun unknown => ?_
  rcases Slot.some_of_unknown unknown with ⟨pending, queued⟩ | ⟨pending, running⟩
  · cases empty.symm.trans queued
  · cases idle.symm.trans running

/-- Where nothing runs, the queue comes to say something, and those who sleep are woken. -/
theorem inevitable_known_of_idle (going : Going system)
    (sleeps : Sleeps caller account generation system)
    (slots : Has account (fun slot => slot.running = none) system) :
    Rouses caller account generation (Known account generation) system := by
  obtain ⟨slot, found, idle⟩ := slots
  by_cases empty : slot.queued = none
  · refine (inevitable_woken going sleeps ⟨slot, found, idle, empty⟩).mono ?_
    exact fun last ⟨going, woken, slots⟩ => ⟨going, woken, known_of_idle slots⟩
  · obtain ⟨newest, rests⟩ := inevitable_rest_of_waiting going sleeps ⟨slot, found, idle, empty⟩
    exact rests.mono fun last ⟨going, woken, slots⟩ => ⟨going, woken, known_of_rest slots⟩

/-- The queue comes to say something of a choice that a caller sleeps for, and wakes it. -/
theorem inevitable_known (going : Going system)
    (sleeps : Sleeps caller account generation system) :
    Rouses caller account generation (Known account generation) system := by
  have awaited : Awaited system account generation := by
    obtain ⟨remaining, notified, asleep⟩ := sleeps
    exact ⟨caller, _, asleep, rfl⟩
  obtain ⟨slot, found⟩ := going.sound.slot_of_accepted (going.wanted.awaited _ _ awaited)
  cases running : slot.running with
  | none => exact inevitable_known_of_idle going sleeps ⟨slot, found, running⟩
  | some pending =>
    refine (inevitable_rest_of_running going sleeps ⟨slot, found, rfl, running⟩).trans ?_
    rintro middle ⟨going, woken, slot, found, _, idle, _⟩
    exact inevitable_known_of_idle going woken.sleeps ⟨slot, found, idle⟩

/-- What a caller may do, by where it is. -/
def Calls (system : System) (id : Nat) (last : System) : Caller → Prop
  | ⟨remaining, .refused account generation⟩ => ∃ outcome,
    last = (system.withCaller id remaining .between).record [.told account generation outcome]
  | ⟨remaining, .entered account generation⟩ =>
    last = (system.withCaller id remaining (.polling account generation)).notify ∨
      (∃ next task, last =
        ((system.spawn next task).withCaller id remaining (.polling account generation)).notify) ∨
      ∃ outcome,
        last = (system.withCaller id remaining .between).record [.told account generation outcome]
  | ⟨remaining, .polling account generation⟩ =>
    last = system.withCaller id remaining (.armed account generation false)
  | ⟨remaining, .armed account generation notified⟩ =>
    (∃ outcome,
        last = (system.withCaller id remaining .between).record
          [.told account generation outcome]) ∨
      (system.outcomeFor account generation = none ∧
        last = system.withCaller id remaining (.asleep account generation notified))
  | ⟨remaining, .asleep account generation _⟩ =>
    last = system.withCaller id remaining (.polling account generation)
  | ⟨_, .between⟩ => True

variable {found : Caller}

theorem Acts.calls (acts : Acts (.caller caller) system last)
    (here : system.callers caller = some found) : Calls system caller last found := by
  obtain ⟨action, actor, step⟩ := acts
  cases step with
  | askNextExpedited there expedited | askNextRefused there refused =>
    cases actor
    cases here.symm.trans there
    trivial
  | answerRefused there =>
    cases actor
    cases here.symm.trans there
    exact ⟨_, rfl⟩
  | ensureWorker there active =>
    cases actor
    cases here.symm.trans there
    exact .inl rfl
  | ensureSpawned task there inactive queued fresh =>
    cases actor
    cases here.symm.trans there
    exact .inr (.inl ⟨_, _, rfl⟩)
  | ensureFailed there inactive queued =>
    cases actor
    cases here.symm.trans there
    exact .inr (.inr ⟨_, rfl⟩)
  | arm there | wake there =>
    cases actor
    cases here.symm.trans there
    exact rfl
  | pollTold there known =>
    cases actor
    cases here.symm.trans there
    exact .inl ⟨_, rfl⟩
  | pollUnknown there unknown =>
    cases actor
    cases here.symm.trans there
    exact .inr ⟨unknown, rfl⟩
  | _ => cases actor

/-- The caller has just been told what became of the choice. -/
def Answered (id : Nat) (account : String) (generation : Nat) (system : System) : Prop :=
  ∃ remaining outcome, system.callers id = some ⟨remaining, .between⟩ ∧
    system.history.head? = some (.told account generation outcome)

variable {remaining : List (String × Nat)}

theorem answered_record :
    Answered caller account generation
      ((system.withCaller caller remaining .between).record [.told account generation outcome]) :=
  ⟨remaining, outcome, update_self .., rfl⟩

/-- A caller that has armed is told, or finds nothing and falls asleep. -/
theorem inevitable_polled {notified : Bool} (going : Going system)
    (armed : system.callers caller = some ⟨remaining, .armed account generation notified⟩) :
    Inevitable Acts (fun last => Answered caller account generation last ∨
      (Going last ∧ Sleeps caller account generation last ∧ system.outcomeFor account generation =
        none)) system := by
  have can : ∃ after, Acts (.caller caller) system after := by
    cases known : system.outcomeFor account generation with
    | none => exact ⟨_, .poll caller, rfl, .pollUnknown armed known⟩
    | some outcome => exact ⟨_, .poll caller, rfl, .pollTold armed known⟩
  refine .once (.caller caller) can fun last acts => ?_
  have goes := going.acts acts
  rcases acts.calls armed with ⟨outcome, rfl⟩ | ⟨unknown, rfl⟩
  · exact .inl answered_record
  · exact .inr ⟨goes, ⟨remaining, notified, update_self ..⟩, unknown⟩

/-- A caller that looks for its outcome is told, or finds nothing and falls asleep. -/
theorem inevitable_looked (going : Going system)
    (polling : system.callers caller = some ⟨remaining, .polling account generation⟩) :
    Inevitable Acts (fun last => Answered caller account generation last ∨
      (Going last ∧ Sleeps caller account generation last ∧ system.outcomeFor account generation =
        none)) system := by
  refine .turn (.caller caller) ⟨_, .arm caller, rfl, .arm polling⟩ fun last acts => ?_
  have goes := going.acts acts
  cases acts.calls polling
  exact inevitable_polled goes (update_self ..)

/-- A caller that sleeps is told. -/
theorem inevitable_answered_of_sleeps (going : Going system)
    (sleeps : Sleeps caller account generation system) :
    Inevitable Acts (Answered caller account generation) system := by
  refine (inevitable_known going sleeps).trans ?_
  rintro middle ⟨going, ⟨remaining, woken⟩, outcome, known⟩
  refine .turn (.caller caller) ⟨_, .wake caller, rfl, .wake woken⟩ fun last acts => ?_
  have goes := going.acts acts
  cases acts.calls woken
  refine (inevitable_looked goes (update_self ..)).mono fun last done => ?_
  refine done.resolve_right fun ⟨_, _, unknown⟩ => ?_
  cases known.symm.trans unknown

theorem inevitable_answered_of_polling (going : Going system)
    (polling : system.callers caller = some ⟨remaining, .polling account generation⟩) :
    Inevitable Acts (Answered caller account generation) system := by
  refine (inevitable_looked going polling).trans fun middle done => ?_
  rcases done with answered | ⟨going, sleeps, _⟩
  · exact .reached answered
  · exact inevitable_answered_of_sleeps going sleeps

theorem polling_notify :
    (system.withCaller caller remaining (.polling account generation)).notify.callers caller =
      some ⟨remaining, .polling account generation⟩ := by
  simp [System.notify, System.withCaller, CallerStage.notify]

/-- A caller that waits is told. -/
theorem inevitable_answered (going : Going system) (here : system.callers caller = some found)
    (awaits : found.stage.awaits = some (account, generation)) :
    Inevitable Acts (Answered caller account generation) system := by
  obtain ⟨remaining, stage⟩ := found
  cases stage with
  | between => cases awaits
  | refused other id =>
    cases awaits
    refine .once (.caller caller) ⟨_, .answerRefused caller, rfl, .answerRefused here⟩
      fun last acts => ?_
    obtain ⟨outcome, rfl⟩ := acts.calls here
    exact answered_record
  | entered other id =>
    cases awaits
    have can : ∃ after, Acts (.caller caller) system after := by
      cases active : system.active generation with
      | true => exact ⟨_, .ensureWorker caller, rfl, .ensureWorker here (.inl active)⟩
      | false =>
        cases queued : system.pending.queued account with
        | none => exact ⟨_, .ensureWorker caller, rfl, .ensureWorker here (.inr queued)⟩
        | some next => exact ⟨_, .ensureWorker caller, rfl, .ensureFailed here active queued⟩
    refine .turn (.caller caller) can fun last acts => ?_
    have goes := going.acts acts
    rcases acts.calls here with rfl | ⟨next, task, rfl⟩ | ⟨outcome, rfl⟩
    · exact inevitable_answered_of_polling goes polling_notify
    · exact inevitable_answered_of_polling goes polling_notify
    · exact .reached answered_record
  | polling other id =>
    cases awaits
    exact inevitable_answered_of_polling going here
  | armed other id notified =>
    cases awaits
    refine (inevitable_polled going here).trans fun middle done => ?_
    rcases done with answered | ⟨going, sleeps, _⟩
    · exact .reached answered
    · exact inevitable_answered_of_sleeps going sleeps
  | asleep other id notified =>
    cases awaits
    exact inevitable_answered_of_sleeps going ⟨remaining, notified, here⟩

end told

/-! ### Runs -/

/-- What callers are told is true, and turns can be given so that those that wait are told. In these
turns nobody makes a request: an endless series of flushes is not excluded. -/
structure Informed (system : System) : Prop where
  truthful : Throughout Event.Truthful system.history
  answered : ∀ id found account generation, system.callers id = some found →
    found.stage.awaits = some (account, generation) →
      Inevitable Acts (Answered id account generation) system

/-- A step that forgets nothing that a caller should be told. -/
def RememberingStep (before after : System) : Prop :=
  ∃ action, Step before action after ∧ ¬Forgets before action

/-- What holds of the service in all runs of such steps. -/
structure Remembering (system : System) : Prop where
  going : Going system
  remembered : Remembered system
  truthful : Throughout Event.Truthful system.history

theorem going_initial : Going .initial where
  sound := sound_initial
  attempting _ _ _ _ _ found := by cases found
  accounted _ _ found := by cases found
  wanted := by
    refine ⟨?_, ?_⟩
    · rintro account generation ⟨id, caller, found, _⟩
      cases found
    · rintro account generation ⟨id, caller, found, _⟩
      cases found
  staffed :=
    { bounded := ⟨0, fun _ _ => rfl⟩
      own := fun _ _ _ _ found => by cases found
      staff := fun _ _ _ found => by cases found
      held := fun _ _ found => by cases found
      watched := fun _ _ _ _ found => by cases found }

theorem remembering_initial : Remembering .initial where
  going := going_initial
  remembered := by
    rintro account generation ⟨id, caller, found, _⟩
    cases found
  truthful := trivial

theorem Remembering.step {before after : System} (remembering : Remembering before)
    (taken : RememberingStep before after) : Remembering after := by
  obtain ⟨action, step, remembers⟩ := taken
  obtain ⟨going, remembered, truthful⟩ := remembering
  obtain ⟨events, moved⟩ := step.move going.sound going.attempting.prepared
  exact
    { going := going.step step
      remembered := step.remembered remembered going.sound moved going.accounted remembers
      truthful := moved.truthful going.sound going.accounted going.wanted remembered remembers
        truthful }

/-- In every run that forgets nothing that a caller should be told, callers are told a success
only after the choice has succeeded, and a cancellation only when the choice was overtaken and has
not succeeded; and every caller that waits will be told. -/
theorem informed_of_run {system : System}
    (run : Relation.ReflTransGen RememberingStep .initial system) : Informed system := by
  have remembering := @Runs.invariant _ _ Remembering (fun _ _ step holds => holds.step step) _ _
    run remembering_initial
  exact ⟨remembering.truthful, fun _ _ _ _ here awaits =>
    inevitable_answered remembering.going here awaits⟩

theorem lenient_remembering : Lenient fun system action => ¬Forgets system action where
  queue _ _ _ _ := fun (.overwrites _ _ _ overwrites) => overwrites
  flush _ _ nobody := fun (.overwrites awaited _ _ _) => by
    obtain ⟨id, caller, found, _⟩ := awaited
    rw [nobody id] at found
    cases found
  enterGate _ _ := fun (.overwrites _ _ _ overwrites) => overwrites
  claim _ _ := fun (.overwrites _ _ _ overwrites) => overwrites
  reply _ _ _ _ _ := fun (.overwrites _ _ _ overwrites) => overwrites

/-- A caller waits while its choice is applied; it will be told. -/
theorem informed_of_run_waiting : ∃ system,
    system.callers 0 = some ⟨[], .entered "a" 1⟩ ∧ Informed system := by
  obtain ⟨system, run, _, _, callers, _⟩ := applying_bareChoice_written lenient_remembering
  refine ⟨system, ?_, informed_of_run run⟩
  rw [callers]
  rfl

/-! ### The staff of the service -/

/-- In every run, until the service is closing, the choices of an account are its own, and the newer
one waits. What waits has a worker ready for it, what runs is applied by one worker, the gate of an
account is taken by the one task that holds it, and a caller sleeps only while its account has a
worker. -/
theorem service_is_staffed (reached : Reachable system) :
    (∀ account slot, system.pending.accounts account = some slot →
      (∀ pending, slot.queued = some pending →
        pending.accountId = account ∧ Staff system.tasks account pending.generation) ∧
      (∀ pending, slot.running = some pending →
        pending.accountId = account ∧
          (∀ waiting, slot.queued = some waiting → pending.generation < waiting.generation) ∧
          ∃! id, ∃ scheduled rest,
            system.tasks id = some (.worker ⟨scheduled, .applying pending rest⟩))) ∧
    (∀ account id, system.gates account = some id ↔
      ∃ task, system.tasks id = some task ∧ task.holds = some account) ∧
    ∀ id remaining account generation,
      system.callers id = some ⟨remaining, .asleep account generation false⟩ →
        Watched system.tasks account := by
  have going : Going system :=
    Runs.invariant (fun _ _ stepped holds => holds.step stepped.choose_spec) reached going_initial
  have staffed := going.staffed
  refine ⟨fun account slot found => ?_, fun account id => ⟨staffed.held account id, ?_⟩,
    staffed.watched⟩
  · have fits : SlotFits system.pending.nextGeneration system.history account slot := by
      have fits := going.sound.fits account
      rwa [found] at fits
    refine ⟨fun pending waits =>
      ⟨(fits.queued pending waits).1, staffed.staff account slot pending found waits⟩,
      fun pending runs => ⟨(fits.running pending runs).1,
        fun waiting waits => fits.apart waiting pending waits runs, ?_⟩⟩
    obtain ⟨id, scheduled, rest, task⟩ := going.sound.running account slot pending found runs
    refine ⟨id, ⟨scheduled, rest, task⟩, ?_⟩
    rintro other ⟨claimed, later, same⟩
    exact going.sound.single same task rfl
  · rintro ⟨task, found, holds⟩
    exact going.sound.gated id task account found holds

/-- While a choice is applied, its worker holds the gate. -/
theorem service_is_staffed_applying : ∃ system account, Reachable system ∧
    system.callers 0 = some ⟨[], .entered account 1⟩ ∧
    ∀ id, system.gates account = some id ↔
      ∃ task, system.tasks id = some task ∧ task.holds = some account := by
  obtain ⟨system, run, _, _, callers, _⟩ := applying_bareChoice_written lenient_remembering
  have reached := reachable_of_allowed run
  refine ⟨system, "a", reached, ?_, (service_is_staffed reached).2.1 "a"⟩
  rw [callers]
  rfl

/-! ### A success that is reported as a cancellation -/

/-- The slot after the choice has succeeded. -/
def doneSlot : Slot := ⟨none, none, 1, true, false, none, some (1, .ok ())⟩

theorem exists_applied : ∃ system, Reachable system ∧ system.pending = bareSkins doneSlot ∧
    system.callers = update (fun _ => none) 0 (some ⟨[], .entered "a" 1⟩) ∧
    .finished "a" 1 (.ok ()) ∈ system.history := by
  have begun : (bareSkins (bareSlot true)).beginEffect bareChoice =
      (bareSkins (bareSlot true), .ok ()) := bareSkins_withSlot _ _ _
  have rebased : (bareSkins (bareSlot true)).rebaseAccount bareAccount bareAccount =
      bareSkins (bareSlot true) := congrArg Prod.fst (bareSkins_withSlot _ _ _)
  have current := (bareSkins_isCurrent true).symm
  have stands := (applying_bareChoice_written lenient_all).reply lenient_all true rfl ⟨rfl, current⟩
  have checked := stands.reply lenient_all (.ok ()) rfl rfl
  have started := checked.reply lenient_all (.ok ()) rfl
    ⟨congrArg Prod.fst begun.symm, congrArg Prod.snd begun.symm⟩
  have synced := started.reply lenient_all (.ok bareProfile) rfl ⟨rfl, nofun⟩
  have committed := synced.reply lenient_all (.ok bareAccount) rfl rfl
  have rebased := committed.reply lenient_all () rfl rebased.symm
  have again := rebased.reply lenient_all (.ok ()) rfl rfl
  have cleared := again.reply lenient_all (.ok ()) rfl rfl
  have newest := cleared.reply lenient_all true rfl ⟨rfl, current⟩
  have marked := newest.reply lenient_all (.ok true) rfl rfl
  have settled := marked.reply lenient_all () rfl rfl
  obtain ⟨system, run, pending, _, callers, task⟩ :=
    settled.reply lenient_all true rfl ⟨rfl, current⟩
  refine ⟨_, (reachable_of_allowed run).tail ⟨_, .finish task .finish⟩, ?_, callers,
    List.mem_cons_self⟩
  refine (congrArg (fun state => state.finish bareChoice (.ok ()) system.now) pending).trans ?_
  exact congrArg Prod.fst (bareSkins_withSlot (bareSlot true)
    (fun slot => (slot.finish bareChoice (.ok ()) system.now, ())) ())

/-- Another caller expedites the account between the success of a choice and the look of the
caller that waits for it, who is told of a cancellation. -/
theorem exists_misinformed : ∃ system, Reachable system ∧ ¬Informed system := by
  obtain ⟨system, reached, pending, callers, finished⟩ := exists_applied
  have expedited : (system.pending.expedite "a" system.now).1 =
      bareSkins { doneSlot with completed := none } := by
    rw [pending]
    exact congrArg Prod.fst (bareSkins_withSlot _ _ _)
  obtain ⟨system, reached, pending, entered, finished⟩ : ∃ later, Reachable later ∧
      later.pending = bareSkins { doneSlot with completed := none } ∧
      later.callers 0 = some ⟨[], .entered "a" 1⟩ ∧ .finished "a" 1 (.ok ()) ∈ later.history := by
    refine ⟨_, reached.tail ⟨_, @Step.flushAccount _ "a" 1 (by rw [callers]; rfl)⟩, expedited, ?_,
      finished⟩
    rw [System.withCaller, callers]
    rfl
  have empty : system.pending.queued "a" = none := by
    rw [pending, PendingSkins.queued, bareSkins_accounts]
    rfl
  have lost : system.outcomeFor "a" 1 = some (.error .cancelled) := by
    rw [System.outcomeFor, pending, PendingSkins.outcome, bareSkins_accounts]
    rfl
  have looked := reached.tail ⟨_, .ensureWorker entered (.inr empty)⟩
  have armed := looked.tail ⟨_, .arm polling_notify⟩
  have told := armed.tail ⟨_, .pollTold (update_self 0 _ _) lost⟩
  refine ⟨_, told, fun informed => ?_⟩
  exact informed.truthful.1.2 finished

end Axial.Skins
