/-
This file shows that what is true of the service at first stays true of it, step by step:
slots fit the history, gates name their holders, and a choice runs exactly while the task
that claimed it applies it, whose rest of calls is one that an attempt goes through.
-/

import Axial.Skins.Attempt
import Axial.Skins.ServiceMoves

namespace Axial.Skins

open Accounts Program Function

/-! ### Tasks from step to step -/

variable {id other : TaskId}

theorem update_of_apart {Value : Type} {tasks : TaskId → Option Value} {new : Option Value}
    {value : Value} (found : tasks other = some value) (apart : tasks id ≠ some value) :
    update tasks id new other = some value := by
  rw [update_of_ne]
  · exact found
  · rintro rfl
    exact apart found

variable {system last : System} {action : Action}

variable {account : String}

theorem System.spawnQueued_of_fresh {admitted : Bool} {task : Task} (fresh : system.tasks id = none)
    (found : system.tasks other = some task) :
    (system.spawnQueued account id admitted).tasks other = some task := by
  rcases system.spawnQueued_cases id account admitted with same | ⟨next, _, same⟩
  · rwa [same]
  · rw [same]
    exact update_of_apart found (by rw [fresh]; exact nofun)

variable {pending scheduled : PendingSkin} {rest : SkinProgram Unit}

/-- A task that applies a choice goes on to, unless it comes to the end. -/
theorem Step.continues (step : Step system action last)
    (found : system.tasks id = some (.worker ⟨scheduled, .applying pending rest⟩)) :
    action = .finish id ∨
      ∃ later, last.tasks id = some (.worker ⟨scheduled, .applying pending later⟩) := by
  cases step with
  | queue other fresh queued | reset other fresh cancelled
  | ensureSpawned task caller inactive queued fresh =>
    exact .inr ⟨rest, update_of_apart found (by rw [fresh]; exact nofun)⟩
  | abandon task gone | enterGate task queued reached free | claim task claimed | release task
  | claimNothing task nothing | enterReset task free | replyReset task taken
  | endReset task ended =>
    exact .inr ⟨rest, update_of_apart found (by rw [task]; exact nofun)⟩
  | @reply other _ _ _ next answer _ task taken =>
    by_cases same : id = other
    · subst same
      cases task.symm.trans found
      exact .inr ⟨next answer, update_self ..⟩
    · exact .inr ⟨rest, (update_of_ne same ..).trans found⟩
  | @finish other _ _ _ _ task ended =>
    by_cases same : id = other
    · subst same
      exact .inl rfl
    · exact .inr ⟨rest, (update_of_ne same ..).trans found⟩
  | @leave other left next admitted task fresh =>
    refine .inr ⟨rest, System.spawnQueued_of_fresh ?_ ?_⟩
    · rw [System.withTask_tasks, update_apply]
      split
      · rfl
      · exact fresh
    · exact update_of_apart found (by rw [task]; exact nofun)
  | _ => exact .inr ⟨rest, found⟩

/-- The calls of a reset are those of a reset. -/
theorem Step.resets (step : Step system action last) (owned : ∀ id capture skin rest,
      system.tasks id = some (.reset ⟨capture, skin, .running rest⟩) → Owns (fun _ => False) rest)
    {capture : CapturedAccount} {skin : Bool}
    (found : last.tasks id = some (.reset ⟨capture, skin, .running rest⟩)) :
    Owns (fun _ => False) rest := by
  have kept {other : TaskId} {new : Option Task}
      (after : update system.tasks other new id = some (.reset ⟨capture, skin, .running rest⟩))
      (unlike : new ≠ some (.reset ⟨capture, skin, .running rest⟩)) :
      Owns (fun _ => False) rest := by
    rcases update_eq_some after with ⟨_, same⟩ | ⟨_, before⟩
    · exact absurd same unlike
    · exact owned id capture skin rest before
  cases step with
  | queue | reset | ensureSpawned | abandon | enterGate | claim | claimNothing | reply | finish
  | release | endReset =>
    exact kept found nofun
  | leave admitted task fresh =>
    rcases System.spawnQueued_tasks found with ⟨next, same⟩ | before
    · cases same
    · exact kept before nofun
  | enterReset task free =>
    rcases update_eq_some found with ⟨rfl, same⟩ | ⟨_, before⟩
    · cases same
      exact owns_resetAccount _ _
    · exact owned id capture skin rest before
  | replyReset task taken =>
    rcases update_eq_some found with ⟨rfl, same⟩ | ⟨_, before⟩
    · cases same
      exact (owned _ _ _ _ task).2 _
    · exact owned id capture skin rest before
  | _ => exact owned id capture skin rest found

/-! ### Soundness -/

variable {events : List Event}

theorem Moved.fits (moved : Moved system action last events) (sound : Sound system)
    (account : String) :
    Fits last.pending.nextGeneration last.history account (last.pending.accounts account) := by
  rw [moved.history]
  exact (moved.moves account).fits moved.more (sound.fits account)

/-- While a task applies a choice, only its own end is recorded as the end of one of the account. -/
theorem Moved.unfinished (moved : Moved system action last events) (sound : Sound system)
    (found : system.tasks id = some (.worker ⟨scheduled, .applying pending rest⟩))
    (unended : action ≠ .finish id) (generation : Nat) (outcome : Outcome) :
    .finished pending.accountId generation outcome ∉ events := by
  intro member
  obtain ⟨other, claimed, choice, later, rfl, task, same, _⟩ :=
    moved.explained _ member
  have mine := sound.gated id _ _ found rfl
  have theirs := sound.gated other _ _ task rfl
  rw [(sound.applying id _ _ _ found).1, ← same, ← (sound.applying other _ _ _ task).1] at mine
  cases mine.symm.trans theirs
  exact unended rfl

/-- A choice that is applied is the one that runs. -/
theorem Step.sound_applying (step : Step system action last) (sound : Sound system)
    (moved : Moved system action last events)
    (found : last.tasks id = some (.worker ⟨scheduled, .applying pending rest⟩)) :
    scheduled.accountId = pending.accountId ∧ Owns (· = pending) rest ∧
      ∃ slot, last.pending.accounts pending.accountId = some slot ∧
        slot.running = some pending := by
  have goes {rest : SkinProgram Unit}
      (before : system.tasks id = some (.worker ⟨scheduled, .applying pending rest⟩))
      (unended : action ≠ .finish id) : ∃ slot,
      last.pending.accounts pending.accountId = some slot ∧ slot.running = some pending := by
    obtain ⟨_, _, slot, here, running⟩ := sound.applying _ _ _ _ before
    have move := moved.moves pending.accountId
    rw [here] at move
    exact move.running_kept running (moved.unfinished sound before unended)
  cases step.applies found with
  | kept before aside =>
    obtain ⟨own, owns, _⟩ := sound.applying _ _ _ _ before
    exact ⟨own, owns, goes before fun same => aside (by rw [same]; rfl)⟩
  | claimed before fresh claimed queue history =>
    obtain ⟨slot, _, idle, queued, after⟩ := PendingSkins.claim_spec claimed
    have own := sound.claim_account claimed
    refine ⟨own.symm, fresh ▸ owns_apply pending, (slot.claim none).1, ?_, ?_⟩
    · rw [queue, own, after]
    · rw [Slot.claim_of_queued idle queued]
  | replied before same taken history =>
    obtain ⟨own, owns, _⟩ := sound.applying _ _ _ _ before
    exact ⟨own, same ▸ owns.2 _, goes before nofun⟩

variable {slot : Slot}

theorem PendingSkins.finish_accounts {state : PendingSkins} {outcome : Outcome} {now : Nat}
    (found : state.accounts pending.accountId = some slot) :
    (state.finish pending outcome now).accounts pending.accountId =
      some (slot.finish pending outcome now) :=
  (withSlot_of_some state (fun slot => (slot.finish pending outcome now, ())) () found).1

/-- A choice that runs is applied by a task. -/
theorem Step.sound_running (step : Step system action last) (sound : Sound system)
    (moved : Moved system action last events) (found : last.pending.accounts account = some slot)
    (running : slot.running = some pending) :
    ∃ id scheduled rest,
      last.tasks id = some (.worker ⟨scheduled, .applying pending rest⟩) := by
  have move := moved.moves account
  rw [found] at move
  rcases move.running_before running with ⟨before, here, ran, unfinished⟩ | same
  · obtain ⟨id, scheduled, rest, task⟩ := sound.running _ _ _ here ran
    rcases step.continues task with rfl | ⟨later, goes⟩
    · cases step with
      | @finish _ _ _ _ outcome same ended =>
        cases task.symm.trans same
        have fits := sound.fits account
        rw [here] at fits
        obtain ⟨rfl, _⟩ := SlotFits.running fits pending ran
        cases found.symm.trans (PendingSkins.finish_accounts here)
        rw [(Slot.finish_spec ran outcome system.now).1] at running
        cases running
    · exact ⟨id, scheduled, later, goes⟩
  · obtain ⟨id, scheduled, other, rest, slot, task, here, runs⟩ :=
      moved.explained (.claimed account pending.generation) (by rw [same]; exact List.mem_cons_self)
    cases found.symm.trans here
    cases running.symm.trans runs
    exact ⟨id, scheduled, rest, task⟩

theorem Step.sound (step : Step system action last) (sound : Sound system)
    (prepared : Prepared system) : Sound last := by
  obtain ⟨events, moved⟩ := step.move sound prepared
  exact
    { fits := moved.fits sound
      gated := step.gated sound.gated
      applying := fun _ _ _ _ => step.sound_applying sound moved
      resetting := fun _ _ _ _ => step.resets sound.resetting
      running := fun _ _ _ => step.sound_running sound moved }

end Axial.Skins
