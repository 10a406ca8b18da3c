/-
This file shows that every step of the service is a move of each slot, and with it what is
true in all states that the service reaches: the slots fit the history, a task that holds
the gate of an account is the only one that does, and a choice runs exactly while the task
that claimed it applies it.
-/

import Axial.Skins.Moves
import Axial.Skins.Ownership

namespace Axial.Skins

open Accounts Program Function List PendingSkins

/-! ### The parts of a state after a step -/

namespace System

variable (system : System)

@[simp] theorem notify_pending : system.notify.pending = system.pending := rfl
@[simp] theorem notify_history : system.notify.history = system.history := rfl
@[simp] theorem notify_tasks : system.notify.tasks = system.tasks := rfl
@[simp] theorem notify_gates : system.notify.gates = system.gates := rfl

variable (events : List Event)

@[simp] theorem record_pending : (system.record events).pending = system.pending := rfl
@[simp] theorem record_history :
    (system.record events).history = events.reverse ++ system.history := rfl
@[simp] theorem record_tasks : (system.record events).tasks = system.tasks := rfl
@[simp] theorem record_gates : (system.record events).gates = system.gates := rfl

variable (id : TaskId) (task : Option Task)

@[simp] theorem withTask_pending : (system.withTask id task).pending = system.pending := rfl
@[simp] theorem withTask_history : (system.withTask id task).history = system.history := rfl
@[simp] theorem withTask_gates : (system.withTask id task).gates = system.gates := rfl
@[simp] theorem withTask_tasks :
    (system.withTask id task).tasks = update system.tasks id task := rfl

variable (remaining : List (String × Nat)) (stage : CallerStage)

@[simp] theorem withCaller_pending :
    (system.withCaller id remaining stage).pending = system.pending := rfl
@[simp] theorem withCaller_history :
    (system.withCaller id remaining stage).history = system.history := rfl
@[simp] theorem withCaller_tasks :
    (system.withCaller id remaining stage).tasks = system.tasks := rfl
@[simp] theorem withCaller_gates :
    (system.withCaller id remaining stage).gates = system.gates := rfl

variable (account : String) (holder : Option TaskId)

@[simp] theorem withGate_pending : (system.withGate account holder).pending = system.pending := rfl
@[simp] theorem withGate_history : (system.withGate account holder).history = system.history := rfl
@[simp] theorem withGate_tasks : (system.withGate account holder).tasks = system.tasks := rfl
@[simp] theorem withGate_gates :
    (system.withGate account holder).gates = update system.gates account holder := rfl

variable (pending : PendingSkin)

@[simp] theorem spawn_pending : (system.spawn pending id).pending = system.pending := rfl
@[simp] theorem spawn_history : (system.spawn pending id).history = system.history := rfl
@[simp] theorem spawn_gates : (system.spawn pending id).gates = system.gates := rfl
@[simp] theorem spawn_tasks : (system.spawn pending id).tasks =
    update system.tasks id (some (.worker ⟨pending, .scheduled⟩)) := rfl

variable (admitted : Bool)

/-- Spawning for what waits spawns a worker or changes nothing. -/
theorem spawnQueued_cases : system.spawnQueued account id admitted = system ∨
    ∃ next, system.pending.queued account = some next ∧
      system.spawnQueued account id admitted = system.spawn next id := by
  unfold spawnQueued
  split
  · exact .inl rfl
  · rename_i next queued
    split
    · exact .inr ⟨next, queued, rfl⟩
    · exact .inl rfl

variable {system id account admitted} in
/-- The tasks afterwards are those before and perhaps a new worker. -/
theorem spawnQueued_tasks {other : TaskId} {found : Task}
    (after : (system.spawnQueued account id admitted).tasks other = some found) :
    (∃ next, found = .worker ⟨next, .scheduled⟩) ∨ system.tasks other = some found := by
  rcases system.spawnQueued_cases id account admitted with same | ⟨next, _, same⟩
  · rw [same] at after
    exact .inr after
  · rw [same, spawn_tasks] at after
    by_cases equal : other = id
    · subst equal
      cases (update_self ..).symm.trans after
      exact .inl ⟨next, rfl⟩
    · rw [update_of_ne equal] at after
      exact .inr after

@[simp] theorem spawnQueued_pending :
    (system.spawnQueued account id admitted).pending = system.pending := by
  rcases system.spawnQueued_cases id account admitted with same | ⟨next, _, same⟩ <;> rw [same]
  rfl

@[simp] theorem spawnQueued_history :
    (system.spawnQueued account id admitted).history = system.history := by
  rcases system.spawnQueued_cases id account admitted with same | ⟨next, _, same⟩ <;> rw [same]
  rfl

@[simp] theorem spawnQueued_gates :
    (system.spawnQueued account id admitted).gates = system.gates := by
  rcases system.spawnQueued_cases id account admitted with same | ⟨next, _, same⟩ <;> rw [same]
  rfl

end System

namespace PendingSkins

variable {Value : Type} (state : PendingSkins) {account other : String}
  (change : Slot → Slot × Value) (absent : Value)

theorem withSlot_of_some {slot : Slot} (found : state.accounts account = some slot) :
    (state.withSlot account change absent).1.accounts account = some (change slot).1 ∧
      (state.withSlot account change absent).2 = (change slot).2 := by
  unfold withSlot
  rw [found]
  exact ⟨update_self .., rfl⟩

theorem withSlot_of_none (missing : state.accounts account = none) :
    state.withSlot account change absent = (state, absent) := by
  unfold withSlot
  rw [missing]

theorem withSlot_other (apart : other ≠ account) :
    (state.withSlot account change absent).1.accounts other = state.accounts other := by
  unfold withSlot
  split
  · rfl
  · exact update_of_ne apart ..

@[simp]
theorem withSlot_nextGeneration :
    (state.withSlot account change absent).1.nextGeneration = state.nextGeneration := by
  unfold withSlot
  split <;> rfl

/-- Whatever is done with the slot of one account is a move, if it is one of that slot. -/
theorem move_withSlot {state : PendingSkins} {next now : Nat} {events : List Event}
    {change : Slot → Slot × Value} {absent : Value} (mine : String)
    (silent : mine ≠ account → Silent mine events)
    (missing : state.accounts account = none → Silent account events)
    (moves : ∀ slot, state.accounts account = some slot →
      Move account next now (some slot) events (some (change slot).1)) :
    Move mine next now (state.accounts mine) events
      ((state.withSlot account change absent).1.accounts mine) := by
  by_cases same : mine = account
  · subst same
    cases found : state.accounts mine with
    | none =>
      rw [withSlot_of_none state change absent found, found]
      exact .rest (missing found)
    | some slot =>
      rw [(withSlot_of_some state change absent found).1]
      exact moves slot found
  · rw [withSlot_other state change absent same]
    exact .rest (silent same)

end PendingSkins

/-! ### Tasks and gates -/

/-- The account whose gate a task holds. -/
def Task.holds : Task → Option String
  | .worker ⟨scheduled, .gated⟩ => some scheduled.accountId
  | .worker ⟨scheduled, .applying _ _⟩ => some scheduled.accountId
  | .worker ⟨scheduled, .finished⟩ => some scheduled.accountId
  | .reset ⟨capture, _, .running _⟩ => some capture.record.accountId.text
  | _ => none

/-- A task that holds the gate of an account is the one that the gate names. -/
def Gated (system : System) : Prop :=
  ∀ id task account, system.tasks id = some task → task.holds = some account →
    system.gates account = some id

/-- What is true of the service at all times. -/
structure Sound (system : System) : Prop where
  fits : ∀ account, Fits system.pending.nextGeneration system.history account
    (system.pending.accounts account)
  gated : Gated system
  applying : ∀ id scheduled pending rest,
    system.tasks id = some (.worker ⟨scheduled, .applying pending rest⟩) →
      scheduled.accountId = pending.accountId ∧ Owns (· = pending) rest ∧
        ∃ slot, system.pending.accounts pending.accountId = some slot ∧
          slot.running = some pending
  resetting : ∀ id capture skin rest,
    system.tasks id = some (.reset ⟨capture, skin, .running rest⟩) → Owns (fun _ => False) rest
  running : ∀ account slot pending, system.pending.accounts account = some slot →
    slot.running = some pending →
      ∃ id scheduled rest, system.tasks id = some (.worker ⟨scheduled, .applying pending rest⟩)

variable {generation : Option Nat}

/-- What is claimed for an account belongs to it. -/
theorem Sound.claim_account {system : System} (sound : Sound system) {account : String}
    {pending : PendingSkin}
    (claimed : (system.pending.claim account generation).2 = .ok (some pending)) :
    pending.accountId = account := by
  have fits := sound.fits account
  cases found : system.pending.accounts account with
  | none =>
    rw [PendingSkins.claim, withSlot_of_none _ _ _ found] at claimed
    cases claimed
  | some slot =>
    rw [found] at fits
    rw [PendingSkins.claim, (withSlot_of_some _ _ _ found).2] at claimed
    exact (SlotFits.queued fits pending (Slot.claim_of_ok claimed).2.1).1

/-! ### Calls are moves -/

theorem silent_nil {account : String} : Silent account [] := nofun

variable {event : Event}

/-- Events about the choices of one account are silent about the others. -/
theorem silent_single {mine account : String} (apart : mine ≠ account)
    (about : ∀ other generation, event.About other generation → other = account) :
    Silent mine [event] := by
  intro other member generation is
  cases mem_singleton.mp member
  exact apart (about mine generation is)

variable {next now : Nat} {pending : PendingSkin} {state after : PendingSkins} {slot : Slot}

/-- Beginning the effect of a choice is a move, whether it succeeds or not. -/
theorem move_of_beginEffect {events : List Event}
    (found : state.accounts pending.accountId = some slot)
    (began : (state.beginEffect pending).2 = .ok () →
      events = [.began pending.accountId pending.generation])
    (refused : ∀ error, (state.beginEffect pending).2 = .error error → events = [])
    (account : String) :
    Move account next now (state.accounts account) events
      ((state.beginEffect pending).1.accounts account) := by
  have answer : (state.beginEffect pending).2 = (slot.beginEffect pending).2 :=
    (withSlot_of_some state _ _ found).2
  rw [answer] at began refused
  cases result : (slot.beginEffect pending).2 with
  | ok =>
    rw [began result]
    refine move_withSlot account (fun apart => silent_single apart
      fun _ _ about => about.1.symm) (fun missing => by rw [found] at missing; cases missing)
      fun other same => ?_
    cases found.symm.trans same
    exact .begin result
  | error error =>
    rw [refused error result]
    refine move_withSlot account (fun _ => silent_nil) (fun _ => silent_nil)
      fun other same => ?_
    cases found.symm.trans same
    rw [(Slot.beginEffect_of_error result).1]
    exact .rest silent_nil

/-- A request that writes, or its answer, is a move that leaves the slot as it is. -/
theorem move_of_event (event : Event) (found : state.accounts pending.accountId = some slot)
    (about : ∀ other generation, event.About other generation → other = pending.accountId)
    (moves : Move pending.accountId next now (some slot) [event] (some slot)) (account : String) :
    Move account next now (state.accounts account) [event] (state.accounts account) := by
  by_cases same : account = pending.accountId
  · subst same
    rw [found]
    exact moves
  · exact .rest (silent_single same about)

variable {call : SkinCall}

/-- A call for a choice that runs moves the slot of its account as recorded, and no other. -/
theorem move_of_call {answer : call.Answer} (owned : AsksAbout (· = pending) call)
    (taken : callEffect call state answer after)
    (found : state.accounts pending.accountId = some slot) (running : slot.running = some pending)
    (started : sends call = true → slot.effectStarted = true) (account : String) :
    Move account next now (state.accounts account) (callEvents pending call answer)
      (after.accounts account) := by
  cases call with
  | beginEffectWithSkin other =>
    cases (show other = pending from owned)
    rcases taken with ⟨rfl, error, rfl⟩ | ⟨rfl, rfl⟩ | ⟨rfl, rfl⟩
    · exact .rest silent_nil
    · exact .rest silent_nil
    · refine move_of_beginEffect found (fun began => ?_) (fun error refused => ?_) account
      · rw [began]
        rfl
      · rw [refused]
        rfl
  | beginEffect other =>
    cases (show other = pending from owned)
    obtain ⟨rfl, rfl⟩ := taken
    refine move_of_beginEffect found (fun began => ?_) (fun error refused => ?_) account
    · rw [began]
      rfl
    · rw [refused]
      rfl
  | isCurrent | sync | normalize =>
    cases taken.1
    exact .rest silent_nil
  | rebaseAccount before current =>
    cases (show after = _ from taken)
    exact move_withSlot account (fun _ => silent_nil) (fun _ => silent_nil)
      fun other _ => .rebase before current
  | sendUpload | sendCape =>
    cases (show after = _ from taken)
    exact move_of_event (.sent pending.accountId pending.generation) found
      (fun _ _ about => about.1.symm) (.send running (started rfl)) account
  | written =>
    cases taken.1
    exact move_of_event (.written pending.accountId pending.generation answer) found
      (fun _ _ about => about.1.symm) (.written running) account
  | _ =>
    cases (show after = state from taken)
    exact .rest silent_nil

/-- A reset moves slots at most by a rebase. -/
theorem move_of_reset {answer : call.Answer} (owned : AsksAbout (fun _ => False) call)
    (taken : callEffect call state answer after) (account : String) :
    Move account next now (state.accounts account) [] (after.accounts account) := by
  cases call with
  | beginEffectWithSkin | beginEffect | isCurrent => exact owned.elim
  | rebaseAccount before current =>
    cases (show after = _ from taken)
    exact move_withSlot account (fun _ => silent_nil) (fun _ => silent_nil)
      fun other _ => .rebase before current
  | written | sync | normalize =>
    cases taken.1
    exact .rest silent_nil
  | _ =>
    cases (show after = state from taken)
    exact .rest silent_nil

/-- No call makes a generation. -/
theorem callEffect_nextGeneration {answer : call.Answer}
    (taken : callEffect call state answer after) : after.nextGeneration = state.nextGeneration := by
  cases call with
  | beginEffectWithSkin other =>
    rcases taken with ⟨rfl, _⟩ | ⟨rfl, _⟩ | ⟨rfl, _⟩
    · rfl
    · rfl
    · exact withSlot_nextGeneration ..
  | beginEffect other =>
    rw [taken.1]
    exact withSlot_nextGeneration ..
  | isCurrent | written | sync | normalize => rw [taken.1]
  | rebaseAccount before current =>
    rw [show after = _ from taken]
    exact withSlot_nextGeneration ..
  | _ => rw [show after = state from taken]

/-! ### The operations of the queue are moves -/

/-- A new choice is newer than all that there were. -/
theorem move_of_insert {history : List Event} {placed : PendingSkin}
    (fits : ∀ account, Fits state.nextGeneration history account (state.accounts account))
    (inserted : state.insert pending = some (after, placed)) (account : String) :
    state.nextGeneration ≤ after.nextGeneration ∧
      Move account after.nextGeneration now (state.accounts account)
        [.accepted placed.accountId placed.generation] (after.accounts account) := by
  unfold PendingSkins.insert at inserted
  split at inserted
  · cases inserted
    refine ⟨Nat.le_succ _, ?_⟩
    dsimp only [PendingSkins.put]
    by_cases same : account = pending.accountId
    · subst same
      rw [update_self]
      refine @Move.insert _ _ _ _ { pending with generation := state.nextGeneration + 1 } rfl
        le_rfl ?_
      cases found : state.accounts pending.accountId with
      | none => exact Nat.succ_pos _
      | some slot =>
        have fit := fits pending.accountId
        rw [found] at fit
        exact Nat.lt_succ_of_le (SlotFits.newest fit)
    · rw [update_of_ne same]
      exact .rest (silent_single same fun _ _ about => about.1.symm)
  · cases inserted

theorem move_of_cancel {account : String} {answer : Except ProfileMediaError Bool}
    (answered : (state.cancel account generation).2 = answer) (mine : String) :
    Move mine next now (state.accounts mine) (cancelEvents state account generation answer)
      ((state.cancel account generation).1.accounts mine) := by
  have silent (apart : mine ≠ account) :
      Silent mine (cancelEvents state account generation answer) := by
    intro event member other about
    unfold cancelEvents at member
    split at member
    · obtain ⟨id, _, rfl⟩ := mem_map.mp member
      exact apart about.1.symm
    · cases member
  refine move_withSlot mine silent (fun missing => ?_) fun slot found => ?_
  · have none : (((state.accounts account).map (·.cancelHits generation)).getD []) = [] := by
      rw [missing]
      rfl
    unfold cancelEvents
    rw [none]
    split <;> exact silent_nil
  · have same : (state.cancel account generation).2 = (slot.cancel generation).2 :=
      (withSlot_of_some state _ _ found).2
    by_cases taken : (slot.cancel generation).2 = .ok true
    · have events : cancelEvents state account generation answer =
          (slot.cancelHits generation).map (.cancelled account) := by
        rw [← answered, same, taken, cancelEvents, found]
        rfl
      rw [events]
      exact .cancel taken
    · have events : cancelEvents state account generation answer = [] := by
        rw [← answered, same]
        unfold cancelEvents
        split
        · rename_i answered
          exact absurd answered taken
        · rfl
      rw [events, Slot.cancel_of_not_true taken]
      exact .rest silent_nil

theorem move_of_libraryChanged (change : SkinLibraryChange) (account : String) :
    Move account next now (state.accounts account) [.withdrawn (libraryHits state change)]
      ((state.libraryChanged change).accounts account) := by
  cases found : state.accounts account with
  | none =>
    have still : (state.libraryChanged change).accounts account = none := by
      simp [PendingSkins.libraryChanged, found]
    rw [still]
    refine .rest fun event member generation hit => ?_
    cases mem_singleton.mp member
    obtain ⟨slot, same, _⟩ := hit
    cases found.symm.trans same
  | some slot =>
    have changed : (state.libraryChanged change).accounts account =
        some (slot.libraryChanged change) := by
      simp [PendingSkins.libraryChanged, found]
    rw [changed]
    refine .library (fun generation hit => ?_) (fun generation waits gone => ⟨slot, found, ?_⟩)
      fun generation runs stood struck => ⟨slot, found, ?_⟩
    · obtain ⟨other, same, taken⟩ := hit
      cases found.symm.trans same
      cases change with
      | removed textureKey =>
        refine taken.imp (fun ⟨waits, holds⟩ => ⟨waits, ?_⟩) fun ⟨runs, holds⟩ => ⟨runs, ?_⟩
        · simp [Slot.libraryChanged, holds, Slot.isGeneration]
        · simp [Slot.libraryChanged, holds]
      | replaced oldTextureKey newTextureKey revision =>
        exact .inr ⟨taken.1, by simp [Slot.libraryChanged, taken.2]⟩
    · cases change with
      | removed textureKey =>
        refine .inl ⟨waits, ?_⟩
        by_contra kept
        simp only [Slot.libraryChanged, kept, if_false] at gone
        exact gone waits
      | replaced oldTextureKey newTextureKey revision =>
        obtain ⟨pending, queued, rfl⟩ := Slot.isGeneration_iff.mp waits
        refine absurd ?_ gone
        rw [Slot.libraryChanged, queued, Option.map_some, Slot.isGeneration, Option.any_some]
        split <;> exact decide_eq_true rfl
    · cases change with
      | removed textureKey => exact .inr ⟨runs, by simpa [Slot.libraryChanged, stood] using struck⟩
      | replaced oldTextureKey newTextureKey revision =>
        exact ⟨runs, by simpa [Slot.libraryChanged, stood] using struck⟩

theorem move_of_removal (removed account : String) :
    Move account next now (state.accounts account) [.withdrawn (removalHits state removed)]
      ((state.invalidateAccount removed).accounts account) := by
  refine move_withSlot account (fun apart => ?_) (fun missing => ?_) fun slot found => ?_
  · intro event member generation hit
    cases mem_singleton.mp member
    exact apart hit.1
  · intro event member generation hit
    cases mem_singleton.mp member
    obtain ⟨_, slot, same, _⟩ := hit
    rw [missing] at same
    cases same
  · refine .remove fun generation => ⟨fun hit => ?_, fun taken => ⟨rfl, slot, found, taken⟩⟩
    obtain ⟨_, other, same, taken⟩ := hit
    cases found.symm.trans same
    exact taken

theorem move_of_expedite {events : List Event} (silent : ∀ account, Silent account events)
    (account mine : String) :
    Move mine next now (state.accounts mine) events
      ((state.expedite account now).1.accounts mine) :=
  move_withSlot mine (fun _ => silent mine) (fun _ => silent account)
    fun _ _ => .expedite (silent account)

theorem move_of_expediteGeneration {events : List Event}
    (silent : ∀ account, Silent account events) (account : String) (generation : Nat)
    (mine : String) :
    Move mine next now (state.accounts mine) events
      ((state.expediteGeneration account generation now).1.accounts mine) :=
  move_withSlot mine (fun _ => silent mine) (fun _ => silent account)
    fun _ _ => .expediteGeneration (silent account) generation

theorem move_of_claim {account : String}
    (claimed : (state.claim account generation).2 = .ok (some pending))
    (own : pending.accountId = account) (mine : String) :
    Move mine next now (state.accounts mine) [.claimed pending.accountId pending.generation]
      ((state.claim account generation).1.accounts mine) := by
  refine move_withSlot mine (fun apart => silent_single (apart.trans_eq own.symm)
    fun _ _ about => about.1.symm) (fun missing => ?_) fun slot found => ?_
  · rw [PendingSkins.claim, withSlot_of_none state _ _ missing] at claimed
    cases claimed
  · rw [PendingSkins.claim, (withSlot_of_some state _ _ found).2] at claimed
    obtain ⟨idle, queued, same⟩ := Slot.claim_of_ok claimed
    rw [same, own]
    exact .claim idle queued

theorem move_of_finish {outcome : Outcome} (found : state.accounts pending.accountId = some slot)
    (running : slot.running = some pending) (mine : String) :
    Move mine next now (state.accounts mine)
      [.finished pending.accountId pending.generation outcome]
      ((state.finish pending outcome now).accounts mine) := by
  refine move_withSlot mine (fun apart => silent_single apart
    fun _ _ about => about.1.symm) (fun missing => ?_) fun other same => ?_
  · rw [found] at missing
    cases missing
  · cases found.symm.trans same
    exact .finish running

/-! ### Steps are moves -/

theorem silent_told (account : String) (told : String) (generation : Nat) (outcome : Outcome) :
    Silent account [.told told generation outcome] := by
  intro event member other about
  cases mem_singleton.mp member
  exact about

/-- A worker is about to send a request that writes only when the effect has begun. -/
def Prepared (system : System) : Prop :=
  ∀ id scheduled pending call next slot,
    system.tasks id = some (.worker ⟨scheduled, .applying pending (.call call next)⟩) →
      sends call = true → system.pending.accounts pending.accountId = some slot →
        slot.effectStarted = true

/-- The step is the answer to a call of a task that applies a choice of the account. -/
def Replies (system : System) (action : Action) (account : String) : Prop :=
  ∃ id scheduled pending rest call answer, action = .reply id call answer ∧
    system.tasks id = some (.worker ⟨scheduled, .applying pending rest⟩) ∧
    pending.accountId = account

/-- The choice that a caller waits for. -/
def CallerStage.awaits : CallerStage → Option (String × Nat)
  | .between => none
  | .refused account generation | .entered account generation | .polling account generation
  | .armed account generation _ | .asleep account generation _ => some (account, generation)

/-- A caller waits for the choice. -/
def Awaited (system : System) (account : String) (generation : Nat) : Prop :=
  ∃ id caller, system.callers id = some caller ∧ caller.stage.awaits = some (account, generation)

/-- What a caller is told: what the queue says, or that nothing is known, or that no worker could
be had. A choice that could not be expedited is reported as cancelled. -/
def Tells (system : System) (action : Action) (account : String) (generation : Nat)
    (outcome : Outcome) : Prop :=
  (Awaited system account generation ∧ (outcome = .error .busy ∨ outcome = .error .staleIntent ∨
      system.outcomeFor account generation = some outcome)) ∨
    (∃ id remaining, action = .askNext id ∧
      system.callers id = some ⟨(account, generation) :: remaining, .between⟩ ∧
      (system.pending.expediteGeneration account generation system.now).2 = false ∧
      outcome = .error .cancelled)

/-- Where an event of a step comes from, if it is not one that takes choices back. -/
def Explained (system : System) (action : Action) (last : System) : Event → Prop
  | .finished account generation outcome => ∃ id scheduled pending rest, action = .finish id ∧
      system.tasks id = some (.worker ⟨scheduled, .applying pending rest⟩) ∧
      pending.accountId = account ∧ pending.generation = generation ∧ Ended rest outcome
  | .claimed account _ => ∃ id scheduled pending rest slot,
      last.tasks id = some (.worker ⟨scheduled, .applying pending rest⟩) ∧
      last.pending.accounts account = some slot ∧ slot.running = some pending
  | .accepted account generation => ∃ id placed,
      last.tasks id = some (.worker ⟨placed, .scheduled⟩) ∧
      placed.accountId = account ∧ placed.generation = generation
  | .began account _ | .sent account _ | .written account _ _ => Replies system action account
  | .told account generation outcome => Tells system action account generation outcome
  | _ => True

/-- A step moves every slot as it records. -/
structure Moved (system : System) (action : Action) (last : System) (events : List Event) :
    Prop where
  history : last.history = events.reverse ++ system.history
  more : system.pending.nextGeneration ≤ last.pending.nextGeneration
  moves : ∀ account, Move account last.pending.nextGeneration system.now
    (system.pending.accounts account) events (last.pending.accounts account)
  explained : ∀ event ∈ events, Explained system action last event
  /-- Only cancellations come in numbers. -/
  plain : (∃ event, events = [event]) ∨
    ∀ event ∈ events, ∃ account generation, event = .cancelled account generation

variable {system last : System} {action : Action}

theorem explained_cancelEvents {account : String} {answer : Except ProfileMediaError Bool} :
    ∀ event ∈ cancelEvents state account generation answer,
      Explained system action last event := by
  intro event member
  unfold cancelEvents at member
  split at member
  · obtain ⟨id, _, rfl⟩ := mem_map.mp member
    trivial
  · cases member

theorem plain_cancelEvents {account : String} {answer : Except ProfileMediaError Bool} :
    ∀ event ∈ cancelEvents state account generation answer,
      ∃ account generation, event = .cancelled account generation := by
  intro event member
  unfold cancelEvents at member
  split at member
  · obtain ⟨id, _, rfl⟩ := mem_map.mp member
    exact ⟨account, id, rfl⟩
  · cases member

theorem plain_callEvents {answer : call.Answer} :
    (∃ event, callEvents pending call answer = [event]) ∨
      ∀ event ∈ callEvents pending call answer,
        ∃ account generation, event = .cancelled account generation := by
  unfold callEvents
  split
  all_goals
    first
    | exact .inl ⟨_, rfl⟩
    | exact .inr nofun

theorem explained_callEvents {answer : call.Answer}
    (replies : Replies system action pending.accountId) :
    ∀ event ∈ callEvents pending call answer, Explained system action last event := by
  intro event member
  unfold callEvents at member
  split at member
  all_goals
    first
    | (cases mem_singleton.mp member; exact replies)
    | cases member

theorem explained_single (explained : Explained system action last event) :
    ∀ other ∈ [event], Explained system action last other := by
  intro other member
  cases mem_singleton.mp member
  exact explained

/-- What a claim finds, and what it leaves. -/
theorem PendingSkins.claim_spec {account : String}
    (claimed : (state.claim account generation).2 = .ok (some pending)) :
    ∃ slot, state.accounts account = some slot ∧ slot.running = none ∧
      slot.queued = some pending ∧
      (state.claim account generation).1.accounts account = some (slot.claim none).1 := by
  cases found : state.accounts account with
  | none =>
    rw [claim, withSlot_of_none state _ _ found] at claimed
    cases claimed
  | some slot =>
    have spec := withSlot_of_some state (·.claim generation) (.ok none) found
    rw [claim, spec.2] at claimed
    obtain ⟨idle, queued, same⟩ := Slot.claim_of_ok claimed
    exact ⟨slot, rfl, idle, queued, by rw [← same]; exact spec.1⟩

theorem Step.move (step : Step system action last)
    (sound : Sound system) (prepared : Prepared system) :
    ∃ events, Moved system action last events := by
  have still {account : String} {next : Nat} {events : List Event}
      (silent : ∀ account, Silent account events) :
      Move account next system.now (system.pending.accounts account) events
        (system.pending.accounts account) := .rest (silent account)
  have nothing (account : String) : Silent account [] := silent_nil
  have aside (next : Nat) (account : String) :
      Move account next system.now (system.pending.accounts account) []
        (system.pending.accounts account) := .rest silent_nil
  cases step with
  | tick | flushPending | ensureWorker | ensureSpawned | arm | pollUnknown | wake | abandon
  | enterGate | claimNothing | release | enterReset | endReset =>
    exact ⟨[], rfl, le_rfl, aside _, nofun, .inr nofun⟩
  | queue id fresh queued =>
    have moves (account : String) : _ ≤ _ ∧ Move account _ system.now _ _ _ :=
      move_of_insert sound.fits queued account
    exact ⟨[.accepted _ _], rfl, (moves "").1, fun account => (moves account).2,
      explained_single ⟨id, _, update_self .., rfl, rfl⟩, .inl ⟨_, rfl⟩⟩
  | @cancelSelected account generation =>
    exact ⟨cancelEvents _ _ _ _, rfl, (withSlot_nextGeneration _ _ _).ge,
      move_of_cancel rfl, explained_cancelEvents,
      .inr plain_cancelEvents⟩
  | reset id fresh cancelled =>
    exact ⟨cancelEvents _ _ _ _, rfl, (withSlot_nextGeneration _ _ _).ge,
      move_of_cancel cancelled, explained_cancelEvents,
      .inr plain_cancelEvents⟩
  | libraryChanged => exact ⟨[.withdrawn _], rfl, le_rfl, move_of_libraryChanged _,
      explained_single trivial,
      .inl ⟨_, rfl⟩⟩
  | accountRemoved =>
    exact ⟨[.withdrawn _], rfl, (withSlot_nextGeneration _ _ _).ge,
      move_of_removal _, explained_single trivial,
      .inl ⟨_, rfl⟩⟩
  | flushGeneration | askNextExpedited =>
    exact ⟨[], rfl, (withSlot_nextGeneration _ _ _).ge,
      move_of_expediteGeneration nothing _ _, nofun, .inr nofun⟩
  | flushAccount id fresh =>
    exact ⟨[], rfl, (withSlot_nextGeneration _ _ _).ge, move_of_expedite nothing _,
      nofun, .inr nofun⟩
  | askNextRefused caller refused =>
    exact ⟨[.told _ _ _], rfl, (withSlot_nextGeneration _ _ _).ge,
      move_of_expediteGeneration (fun _ => silent_told _ _ _ _) _ _,
      explained_single (.inr ⟨_, _, rfl, caller, refused, rfl⟩), .inl ⟨_, rfl⟩⟩
  | @answerRefused _ account generation _ caller =>
    refine ⟨[.told _ _ _], rfl, le_rfl, fun _ => still fun _ => silent_told _ _ _ _,
      explained_single (.inl ⟨⟨_, _, caller, rfl⟩, .inr ?_⟩), .inl ⟨_, rfl⟩⟩
    cases system.outcomeFor account generation with
    | none => exact .inl rfl
    | some outcome => exact .inr rfl
  | ensureFailed caller inactive queued =>
    exact ⟨[.told _ _ _], rfl, le_rfl, fun _ => still fun _ => silent_told _ _ _ _,
      explained_single (.inl ⟨⟨_, _, caller, rfl⟩, .inl rfl⟩), .inl ⟨_, rfl⟩⟩
  | pollTold caller known =>
    exact ⟨[.told _ _ _], rfl, le_rfl, fun _ => still fun _ => silent_told _ _ _ _,
      explained_single (.inl ⟨⟨_, _, caller, rfl⟩, .inr (.inr known)⟩), .inl ⟨_, rfl⟩⟩
  | claim task claimed =>
    obtain ⟨slot, _, idle, queued, after⟩ := claim_spec claimed
    have own := sound.claim_account claimed
    refine ⟨[.claimed _ _], rfl, (withSlot_nextGeneration _ _ _).ge,
      move_of_claim claimed own, explained_single ?_, .inl ⟨_, rfl⟩⟩
    refine ⟨_, _, _, _, (slot.claim none).1, update_self .., ?_, ?_⟩
    · rw [own]
      exact after
    · rw [Slot.claim_of_queued idle queued]
  | reply task taken =>
    obtain ⟨_, owns, slot, found, running⟩ := sound.applying _ _ _ _ task
    refine ⟨callEvents _ _ _, rfl, (callEffect_nextGeneration taken).ge, fun account => ?_,
      explained_callEvents ⟨_, _, _, _, _, _, rfl, task, rfl⟩, plain_callEvents⟩
    exact move_of_call owns.1 taken found running
      (fun send => prepared _ _ _ _ _ _ task send found) account
  | finish task ended =>
    obtain ⟨_, _, slot, found, running⟩ := sound.applying _ _ _ _ task
    exact ⟨[.finished _ _ _], rfl, (withSlot_nextGeneration _ _ _).ge,
      move_of_finish found running, explained_single ⟨_, _, _, _, rfl, task, rfl, rfl, ended⟩,
      .inl ⟨_, rfl⟩⟩
  | leave admitted task fresh =>
    refine ⟨[], by simp, by simp, fun account => ?_, nofun, .inr nofun⟩
    simpa using aside _ account
  | replyReset task taken =>
    exact ⟨[], rfl, (callEffect_nextGeneration taken).ge,
      move_of_reset (sound.resetting _ _ _ _ task).1 taken, nofun, .inr nofun⟩

/-! ### Gates -/

section gates

/-- A step in which no task begins to hold a gate. -/
theorem Gated.keep (gated : Gated system) (gates : last.gates = system.gates)
    (tasks : ∀ id task, last.tasks id = some task →
      task.holds = none ∨ ∃ old, system.tasks id = some old ∧ old.holds = task.holds) :
    Gated last := by
  intro id task account found holds
  rw [gates]
  rcases tasks id task found with none | ⟨old, before, same⟩
  · rw [none] at holds
    cases holds
  · exact gated id old account before (same.trans holds)

/-- A step in which a task takes a gate that was free. -/
theorem Gated.take (gated : Gated system) {id : TaskId} {account : String}
    (free : system.gates account = none)
    (gates : last.gates = update system.gates account (some id))
    (mine : ∀ task, last.tasks id = some task → task.holds = some account)
    (others : ∀ other, other ≠ id → last.tasks other = system.tasks other) : Gated last := by
  intro other task held found holds
  rw [gates]
  by_cases same : other = id
  · subst same
    cases (mine task found).symm.trans holds
    exact update_self ..
  · have before := gated other task held (others other same ▸ found) holds
    have apart : held ≠ account := by
      rintro rfl
      rw [free] at before
      cases before
    rwa [update_of_ne apart]

/-- A step in which a task gives its gate back. -/
theorem Gated.give (gated : Gated system) {id : TaskId} {old : Task} {account : String}
    (before : system.tasks id = some old) (held : old.holds = some account)
    (gates : last.gates = update system.gates account none)
    (mine : ∀ task, last.tasks id = some task → task.holds = none)
    (others : ∀ other, other ≠ id → last.tasks other = system.tasks other) : Gated last := by
  intro other task holding found holds
  rw [gates]
  by_cases same : other = id
  · subst same
    rw [mine task found] at holds
    cases holds
  · have kept := gated other task holding (others other same ▸ found) holds
    have apart : holding ≠ account := by
      rintro rfl
      cases kept.symm.trans (gated id old holding before held)
      exact same rfl
    rwa [update_of_ne apart]

/-- One task is replaced by one that holds the same gate, or none. -/
theorem holds_of_update {tasks : TaskId → Option Task} {id : TaskId} {old : Option Task}
    {new : Option Task} (before : tasks id = old)
    (keeps : ∀ task, new = some task → task.holds = none ∨ ∃ was, old = some was ∧
      was.holds = task.holds) (other : TaskId) (task : Task)
    (found : update tasks id new other = some task) :
    task.holds = none ∨ ∃ was, tasks other = some was ∧ was.holds = task.holds := by
  by_cases same : other = id
  · subst same
    rw [update_self] at found
    rcases keeps task found with none | ⟨was, was_old, same⟩
    · exact .inl none
    · exact .inr ⟨was, before.trans was_old, same⟩
  · rw [update_of_ne same] at found
    exact .inr ⟨task, found, rfl⟩

end gates

/-- Every step keeps gates with their holders. -/
theorem Step.gated (step : Step system action last)
    (gated : Gated system) : Gated last := by
  have same (id : TaskId) (task : Task) (found : system.tasks id = some task) :
      task.holds = none ∨ ∃ old, system.tasks id = some old ∧ old.holds = task.holds :=
    .inr ⟨task, found, rfl⟩
  have idle {id : TaskId} {new : Option Task} (free : ∀ task, new = some task → task.holds = none) :
      ∀ other task, update system.tasks id new other = some task →
        task.holds = none ∨ ∃ old, system.tasks other = some old ∧ old.holds = task.holds :=
    holds_of_update rfl fun task found => .inl (free task found)
  cases step with
  | tick | cancelSelected | libraryChanged | accountRemoved | flushGeneration | flushAccount
  | flushPending | askNextExpedited | askNextRefused | answerRefused | ensureWorker | arm | wake
  | ensureFailed | pollTold | pollUnknown =>
    exact gated
  | queue | reset | ensureSpawned task caller inactive queued fresh | abandon task gone =>
    exact gated.keep rfl (idle fun task same => by cases same; rfl)
  | enterGate task queued reached free | enterReset task free =>
    refine gated.take free rfl (fun new found => ?_) fun other apart => update_of_ne apart ..
    cases (update_self ..).symm.trans found
    rfl
  | claim task claimed | reply task taken | finish task ended | replyReset task taken =>
    exact gated.keep rfl (holds_of_update task fun new same => by
      cases same
      exact .inr ⟨_, rfl, rfl⟩)
  | claimNothing task nothing | release task =>
    refine gated.give task rfl rfl (fun new found => ?_) fun other apart => update_of_ne apart ..
    cases (update_self ..).symm.trans found
    rfl
  | leave admitted task fresh =>
    refine gated.keep (by simp) fun id new found => ?_
    rcases System.spawnQueued_tasks found with spawned | before
    · obtain ⟨next, rfl⟩ := spawned
      exact .inl rfl
    · exact idle (fun _ same => by cases same) id new before
  | endReset task ended =>
    refine gated.give task rfl rfl (fun new found => ?_) fun other apart => update_of_ne apart ..
    cases (update_self ..).symm.trans found

/-! ### Tasks that apply -/

/-- What runs goes on running unless its attempt ends. -/
theorem Move.running_kept {account : String} {next now : Nat} {events : List Event} {slot : Slot}
    {after : Option Slot} {pending : PendingSkin}
    (move : Move account next now (some slot) events after) (running : slot.running = some pending)
    (unfinished : ∀ generation outcome, .finished account generation outcome ∉ events) :
    ∃ last, after = some last ∧ last.running = some pending := by
  cases move with
  | rest | send | written => exact ⟨slot, rfl, running⟩
  | insert | remove => exact ⟨_, rfl, running⟩
  | claim idle queued =>
    rw [idle] at running
    cases running
  | begin begun => exact ⟨_, rfl, by rw [(Slot.beginEffect_of_ok begun).1]; exact running⟩
  | finish _ => exact absurd mem_cons_self (unfinished _ _)
  | cancel answered => exact ⟨_, rfl, (taking_cancel answered).running.trans running⟩
  | @library _ change _ taken _ _ =>
    exact ⟨_, rfl, (taking_libraryChanged slot change).running.trans running⟩
  | expedite silent => exact ⟨_, rfl, (calm_expedite slot now).running.trans running⟩
  | expediteGeneration silent generation =>
    exact ⟨_, rfl, (calm_expediteGeneration slot generation now).running.trans running⟩
  | rebase before after => exact ⟨_, rfl, (calm_rebase slot before after).running.trans running⟩

/-- What runs after a move ran before, or was claimed. -/
theorem Move.running_before {account : String} {next now : Nat} {events : List Event}
    {slot : Option Slot} {last : Slot} {pending : PendingSkin}
    (move : Move account next now slot events (some last)) (running : last.running = some pending) :
    (∃ before, slot = some before ∧ before.running = some pending ∧
        ∀ generation outcome, .finished account generation outcome ∉ events) ∨
      events = [.claimed account pending.generation] := by
  have silent_unfinished {events : List Event} (silent : Silent account events)
      (generation : Nat) (outcome : Outcome) : .finished account generation outcome ∉ events :=
    fun member => silent _ member generation ⟨rfl, rfl⟩
  cases move with
  | rest silent => exact .inl ⟨last, rfl, running, silent_unfinished silent⟩
  | insert own top fresh =>
    cases slot with
    | none => cases running
    | some slot => exact .inl ⟨slot, rfl, running, by simp⟩
  | claim idle queued =>
    rw [Slot.claim_of_queued idle queued] at running
    cases running
    exact .inr rfl
  | @begin slot _ begun =>
    rw [(Slot.beginEffect_of_ok begun).1] at running
    exact .inl ⟨slot, rfl, running, by simp⟩
  | send | written => exact .inl ⟨last, rfl, running, by simp⟩
  | @finish slot ended outcome was =>
    rw [(Slot.finish_spec was outcome now).1] at running
    cases running
  | @cancel slot generation answered =>
    refine .inl ⟨slot, rfl, (taking_cancel answered).running.symm.trans running, ?_⟩
    simp
  | @library slot change _ taken _ _ =>
    exact .inl ⟨slot, rfl, (taking_libraryChanged slot change).running.symm.trans running, by simp⟩
  | @remove slot _ taken => exact .inl ⟨slot, rfl, running, by simp⟩
  | @expedite slot _ silent =>
    exact .inl ⟨slot, rfl, (calm_expedite slot now).running.symm.trans running,
      silent_unfinished silent⟩
  | @expediteGeneration slot _ silent generation =>
    exact .inl ⟨slot, rfl, (calm_expediteGeneration slot generation now).running.symm.trans running,
      silent_unfinished silent⟩
  | @rebase slot before after =>
    exact .inl ⟨slot, rfl, (calm_rebase slot before after).running.symm.trans running, nofun⟩

theorem update_eq_some {Value : Type} {tasks : TaskId → Option Value} {id other : TaskId}
    {new : Option Value} {value : Value}
    (found : update tasks id new other = some value) :
    (other = id ∧ new = some value) ∨ (other ≠ id ∧ tasks other = some value) := by
  by_cases same : other = id
  · subst same
    rw [update_self] at found
    exact .inl ⟨rfl, found⟩
  · rw [update_of_ne same] at found
    exact .inr ⟨same, found⟩

/-- The task whose attempt an action is about. -/
def Action.attempts : Action → Option TaskId
  | .reply id _ _ | .finish id => some id
  | _ => none

/-- How a task comes to apply a choice: it did before, and it was not its step; it has claimed the
choice; or it got an answer. -/
inductive Applies (system : System) (last : System) (id : TaskId) (scheduled pending : PendingSkin)
    (rest : SkinProgram Unit) : Action → Prop
  | kept {action : Action}
      (before : system.tasks id = some (.worker ⟨scheduled, .applying pending rest⟩))
      (aside : action.attempts ≠ some id) : Applies system last id scheduled pending rest action
  | claimed (before : system.tasks id = some (.worker ⟨scheduled, .gated⟩))
      (fresh : rest = apply pending)
      (claimed : (system.pending.claim scheduled.accountId (some scheduled.generation)).2 =
        .ok (some pending))
      (queue : last.pending =
        (system.pending.claim scheduled.accountId (some scheduled.generation)).1)
      (history : last.history =
        .claimed pending.accountId pending.generation :: system.history) :
      Applies system last id scheduled pending rest (.claim id)
  | replied {call : SkinCall} {answer : call.Answer}
      {next : call.Answer → SkinProgram Unit}
      (before : system.tasks id =
        some (.worker ⟨scheduled, .applying pending (.call call next)⟩))
      (goes : rest = next answer) (taken : callEffect call system.pending answer last.pending)
      (history : last.history = (callEvents pending call answer).reverse ++ system.history) :
      Applies system last id scheduled pending rest (.reply id call answer)

theorem Step.applies (step : Step system action last)
    {id : TaskId} {scheduled pending : PendingSkin} {rest : SkinProgram Unit}
    (found : last.tasks id = some (.worker ⟨scheduled, .applying pending rest⟩)) :
    Applies system last id scheduled pending rest action := by
  cases step with
  | queue | reset | ensureSpawned | abandon | enterGate | claimNothing | release | enterReset
  | replyReset | endReset =>
    rcases update_eq_some found with ⟨_, same⟩ | ⟨_, before⟩
    · cases same
    · exact .kept before nofun
  | claim task claimed =>
    rcases update_eq_some found with ⟨rfl, same⟩ | ⟨_, before⟩
    · cases same
      exact .claimed task rfl claimed rfl rfl
    · exact .kept before nofun
  | reply task taken =>
    rcases update_eq_some found with ⟨rfl, same⟩ | ⟨apart, before⟩
    · cases same
      exact .replied task rfl taken rfl
    · exact .kept before fun same => apart (Option.some.inj same).symm
  | finish task ended =>
    rcases update_eq_some found with ⟨_, same⟩ | ⟨apart, before⟩
    · cases same
    · exact .kept before fun same => apart (Option.some.inj same).symm
  | leave admitted task fresh =>
    rcases System.spawnQueued_tasks found with ⟨next, same⟩ | before
    · cases same
    · rcases update_eq_some before with ⟨_, same⟩ | ⟨_, before⟩
      · cases same
      · exact .kept before nofun
  | _ => exact .kept found nofun

end Axial.Skins
