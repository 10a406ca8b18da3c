/-
This file shows what the callers of the flushes are told. They are told a success only after
the choice has succeeded, and, as long as no completion is forgotten that a caller still
needs, they are told of a cancellation only when the choice was overtaken and has not
succeeded.
-/

import Axial.Skins.Accounted

namespace Axial.Skins

open Accounts Program List Option PendingSkins Slot

/-! ### Completions that are needed -/

/-- The choice has concluded by itself: to report it as cancelled would be wrong. -/
def Settled (history : List Event) (account : String) (generation : Nat) : Prop :=
  Succeeded history account generation ∨
    (Concluded history account generation ∧ ¬Overtaken history account generation)

/-- The queue keeps the completion of the choice. -/
def Kept (system : System) (account : String) (generation : Nat) : Prop :=
  ∃ slot outcome, system.pending.accounts account = some slot ∧
    slot.completed = some (generation, outcome)

/-- The action clears or replaces the completion that the slot of the account keeps. -/
def Overwrites (system : System) (account : String) : Action → Prop
  | .flushAccount other => other = account
  | .flushGeneration other generation =>
    other = account ∧ Slot.isGeneration (system.pending.queued account) generation = true
  | .askNext id => ∃ generation remaining,
    system.callers id = some ⟨(account, generation) :: remaining, .between⟩ ∧
      Slot.isGeneration (system.pending.queued account) generation = true
  | .cancelSelected other generation =>
    other = account ∧ Slot.isGeneration (system.pending.queued account) generation = true
  | .reset capture _ =>
    capture.record.accountId.text = account ∧ (system.pending.queued account).isSome = true
  | .finish id => ∃ scheduled pending rest,
    system.tasks id = some (.worker ⟨scheduled, .applying pending rest⟩) ∧
      pending.accountId = account
  | _ => False

/-- The action forgets what a caller should be told: it overwrites the completion of a choice that
has concluded and that a caller waits for; it asks about such a choice whose completion has been
overwritten; or it comes to such a choice in a list of intents. -/
inductive Forgets (system : System) : Action → Prop
  | overwrites {action account generation} (awaited : Awaited system account generation)
      (kept : Kept system account generation)
      (settled : Settled system.history account generation)
      (overwrites : Overwrites system account action) : Forgets system action
  | late {account generation} (settled : Settled system.history account generation)
      (lost : ¬Kept system account generation) :
      Forgets system (.flushGeneration account generation)
  | listed {id account generation remaining}
      (caller : system.callers id = some ⟨(account, generation) :: remaining, .between⟩)
      (settled : Settled system.history account generation) : Forgets system (.askNext id)

/-! ### What a slot says -/

section slots

variable {history : List Event} {account : String} {generation next : Nat} {slot : Slot}

theorem finished_of_outcome (accounted : Accounted history account slot)
    (said : slot.outcome generation = some (.ok ())) : Succeeded history account generation := by
  unfold Slot.outcome at said
  split at said
  · rename_i other outcome completed
    split at said
    · rename_i same
      cases said
      exact same ▸ (accounted.completed other _ completed).1
    · split at said
      · cases said
      · split at said <;> cases said
  · split at said
    · cases said
    · split at said <;> cases said

/-- Without a completion, a slot says that a choice was cancelled where it neither is the newest
one nor can become alive again. -/
theorem outcome_of_other (other : ∀ outcome, slot.completed ≠ some (generation, outcome)) :
    slot.outcome generation =
      if slot.generation ≠ generation ∨ (slot.queued.isNone ∧ slot.running.isNone) then
        some (.error .cancelled)
      else none := by
  have plain : (if slot.generation ≠ generation then some (.error .cancelled)
      else if slot.queued.isNone ∧ slot.running.isNone then some (.error .cancelled)
      else none : Option Outcome) =
      if slot.generation ≠ generation ∨ (slot.queued.isNone ∧ slot.running.isNone) then
        some (.error .cancelled)
      else none := by
    split_ifs <;> simp_all
  unfold Slot.outcome
  split
  · rename_i completed outcome same
    rw [if_neg]
    · exact plain
    · rintro rfl
      exact other outcome same
  · exact plain

section

variable (accounted : Accounted history account slot)

include accounted

/-- A choice that is not alive was overtaken, unless it has concluded. -/
theorem Accounted.overtaken_of_dead (accepted : .accepted account generation ∈ history)
    (unsettled : ¬Settled history account generation) (dead : ¬slot.Alive generation) :
    Overtaken history account generation := by
  rcases accounted.known generation accepted with alive | overtaken | concluded
  · exact absurd alive dead
  · exact overtaken
  · exact by_contra fun standing => unsettled (.inr ⟨concluded, standing⟩)

/-- A choice that is not the newest one was overtaken. -/
theorem Accounted.overtaken_of_newer (fits : SlotFits next history account slot)
    (accepted : .accepted account generation ∈ history) (newer : slot.generation ≠ generation) :
    Overtaken history account generation := by
  have older := fits.known _ accepted generation ⟨rfl, rfl⟩
  exact .inr (.inr ⟨slot.generation, accounted.newest (by omega), by omega⟩)

theorem overtaken_of_outcome (fits : SlotFits next history account slot)
    (accepted : .accepted account generation ∈ history) (kept : Settled history account generation →
      ∃ outcome, slot.completed = some (generation, outcome))
    (said : slot.outcome generation = some (.error .cancelled)) :
    Overtaken history account generation ∧ ¬Succeeded history account generation := by
  by_cases here : ∃ outcome, slot.completed = some (generation, outcome)
  · obtain ⟨outcome, completed⟩ := here
    have same : outcome = .error .cancelled := by
      simpa [Slot.outcome, completed] using said
    obtain ⟨_, overtaken, succeeded⟩ := accounted.completed generation outcome completed
    refine ⟨overtaken same, fun done => ?_⟩
    rw [succeeded done] at same
    cases same
  · have unsettled := mt kept here
    rw [outcome_of_other fun outcome same => here ⟨outcome, same⟩] at said
    refine ⟨?_, fun done => unsettled (.inl done)⟩
    split at said
    · rename_i gone
      rcases gone with newer | ⟨queued, running⟩
      · exact accounted.overtaken_of_newer fits accepted newer
      · refine accounted.overtaken_of_dead accepted unsettled ?_
        rw [Slot.Alive, isNone_iff_eq_none.mp queued, isNone_iff_eq_none.mp running]
        exact fun either => Bool.false_ne_true (or_self_iff.mp either)
    · cases said

/-- A choice that is alive has not concluded. -/
theorem Accounted.unsettled (alive : slot.Alive generation) :
    ¬Settled history account generation := by
  rintro (succeeded | ⟨concluded, _⟩)
  · exact accounted.concluded generation succeeded.concluded alive
  · exact accounted.concluded generation concluded alive

end

end slots

/-! ### Steps keep completions -/

variable {now : Nat}

section completions

variable {state after : PendingSkins} {account other : String} {slot : Slot}

/-- The slot of the account is still there, with the completion that it had. -/
def Completes (state : PendingSkins) (account : String) (completed : Option (Nat × Outcome)) :
    Prop :=
  ∃ slot, state.accounts account = some slot ∧ slot.completed = completed

theorem completes_withSlot {Value : Type} {change : Slot → Slot × Value} {absent : Value}
    (found : state.accounts account = some slot)
    (same : other = account → (change slot).1.completed = slot.completed) :
    Completes (state.withSlot other change absent).1 account slot.completed := by
  by_cases mine : other = account
  · subst mine
    exact ⟨_, (withSlot_of_some state change absent found).1, same rfl⟩
  · exact ⟨slot, (withSlot_other state change absent (Ne.symm mine)).trans found, rfl⟩

theorem Slot.takeQueued_of_none (idle : slot.queued = none) : slot.takeQueued = slot := by
  unfold takeQueued
  rw [if_neg (by simp [idle])]

theorem Slot.cancel_completed {generation : Option Nat}
    (idle : slot.queued = none ∨ generation.any fun id => slot.generation ≠ id) :
    (slot.cancel generation).1.completed = slot.completed := by
  unfold cancel
  split
  · rfl
  · rename_i fresh
    have taken : slot.takeQueued.completed = slot.completed := by
      rw [takeQueued_of_none (idle.resolve_right fresh)]
    split
    · split <;> exact taken
    · exact taken

theorem Slot.claim_completed (slot : Slot) (generation : Option Nat) :
    (slot.claim generation).1.completed = slot.completed := by
  unfold claim
  split
  · rfl
  · split
    · rfl
    · split <;> rfl

theorem completes_insert {pending placed : PendingSkin}
    (inserted : state.insert pending = some (after, placed))
    (found : state.accounts account = some slot) : Completes after account slot.completed := by
  unfold PendingSkins.insert at inserted
  split at inserted
  · cases inserted
    by_cases mine : account = pending.accountId
    · subst mine
      refine ⟨_, Function.update_self .., ?_⟩
      rw [found]
      rfl
    · exact ⟨slot, (Function.update_of_ne mine ..).trans found, rfl⟩
  · cases inserted

theorem Slot.expediteGeneration_completed {generation : Nat}
    (waits : isGeneration slot.queued generation = false) :
    (slot.expediteGeneration generation now).1.completed = slot.completed := by
  unfold expediteGeneration
  split
  · rfl
  · split
    · rename_i entry queued
      rw [queued] at waits
      rw [if_neg (of_decide_eq_false waits)]
    · rfl

variable {question : SkinCall}

/-- What a call does to a slot: it begins an effect, rebases what waits, or does nothing. -/
theorem slot_of_call {answer : question.Answer} (taken : callEffect question state answer after)
    (found : state.accounts account = some slot) :
    ∃ later, after.accounts account = some later ∧
      (later = slot ∨ (∃ pending, later = (slot.beginEffect pending).1) ∨
        ∃ before current, later = slot.rebase before current) := by
  have withSlot {Value : Type} {other : String} {change : Slot → Slot × Value} {absent : Value} :
      ∃ later, (state.withSlot other change absent).1.accounts account = some later ∧
        (later = slot ∨ later = (change slot).1) := by
    by_cases mine : account = other
    · subst mine
      exact ⟨_, (withSlot_of_some state change absent found).1, .inr rfl⟩
    · exact ⟨slot, (withSlot_other state change absent mine).trans found, .inl rfl⟩
  have begun (pending : PendingSkin) : ∃ later,
      (state.beginEffect pending).1.accounts account = some later ∧
        (later = slot ∨ (∃ pending, later = (slot.beginEffect pending).1) ∨
          ∃ before current, later = slot.rebase before current) := by
    obtain ⟨later, now, same⟩ : ∃ later, (state.beginEffect pending).1.accounts account =
        some later ∧ (later = slot ∨ later = (slot.beginEffect pending).1) := withSlot
    exact ⟨later, now, same.imp_right fun same => .inl ⟨pending, same⟩⟩
  cases question with
  | beginEffectWithSkin pending =>
    rcases taken with ⟨rfl, _⟩ | ⟨rfl, _⟩ | ⟨rfl, _⟩
    · exact ⟨slot, found, .inl rfl⟩
    · exact ⟨slot, found, .inl rfl⟩
    · exact begun pending
  | beginEffect pending => exact taken.1 ▸ begun pending
  | rebaseAccount before current =>
    cases (show after = _ from taken)
    obtain ⟨later, now, same⟩ : ∃ later, (state.rebaseAccount before current).accounts account =
        some later ∧ (later = slot ∨ later = slot.rebase before current) := withSlot
    exact ⟨later, now, same.imp_right fun same => .inr ⟨before, current, same⟩⟩
  | isCurrent | written | sync | normalize => exact ⟨slot, taken.1 ▸ found, .inl rfl⟩
  | _ =>
    cases (show after = state from taken)
    exact ⟨slot, found, .inl rfl⟩

/-- The beginning of an effect changes nothing but the flag that says so. -/
theorem Slot.beginEffect_or (slot : Slot) (pending : PendingSkin) :
    (slot.beginEffect pending).1 = slot ∨
      (slot.beginEffect pending).1 = { slot with effectStarted := true } := by
  cases result : (slot.beginEffect pending).2 with
  | ok => exact .inr (beginEffect_of_ok result).1
  | error error => exact .inl (beginEffect_of_error result).1

theorem completes_of_call {answer : question.Answer}
    (taken : callEffect question state answer after) (found : state.accounts account = some slot) :
    Completes after account slot.completed := by
  obtain ⟨later, now, rfl | ⟨pending, rfl⟩ | ⟨before, current, rfl⟩⟩ := slot_of_call taken found
  · exact ⟨_, now, rfl⟩
  · refine ⟨_, now, ?_⟩
    rcases slot.beginEffect_or pending with same | same <;> rw [same]
  · exact ⟨_, now, rfl⟩

variable {system last : System} {action : Action}

theorem queued_of_found (found : system.pending.accounts account = some slot) :
    system.pending.queued account = slot.queued := by
  rw [PendingSkins.queued, found, bind_some]

theorem Step.completes (step : Step system action last) (sound : Sound system)
    (found : system.pending.accounts account = some slot)
    (keeps : ¬Overwrites system account action) :
    Completes last.pending account slot.completed := by
  have fits := sound.fits account
  rw [found] at fits
  have queued := queued_of_found found
  have here : Completes system.pending account slot.completed := ⟨slot, found, rfl⟩
  cases step with
  | queue id fresh placed => exact completes_insert placed found
  | @cancelSelected other generation =>
    refine completes_withSlot found fun same => cancel_completed ?_
    cases waits : slot.queued with
    | none => exact .inl rfl
    | some pending =>
      refine .inr (decide_eq_true fun equal => keeps ⟨same, ?_⟩)
      rw [queued, waits, isGeneration_iff]
      exact ⟨pending, rfl, (SlotFits.queued fits pending waits).2.trans equal⟩
  | reset id fresh cancelled =>
    refine completes_withSlot found fun same => cancel_completed (.inl ?_)
    cases waits : slot.queued with
    | none => rfl
    | some pending => exact absurd ⟨same, by rw [queued, waits]; rfl⟩ keeps
  | @libraryChanged change =>
    refine ⟨slot.libraryChanged change, by simp [PendingSkins.libraryChanged, found], ?_⟩
    cases change <;> rfl
  | accountRemoved => exact completes_withSlot found fun _ => rfl
  | flushGeneration id fresh accepted =>
    refine completes_withSlot found fun same => expediteGeneration_completed ?_
    exact Bool.eq_false_iff.mpr fun waits => keeps ⟨same, by rw [queued]; exact waits⟩
  | flushAccount id fresh => exact completes_withSlot found fun same => absurd same keeps
  | askNextExpedited caller expedited | askNextRefused caller refused =>
    refine completes_withSlot found fun same => expediteGeneration_completed ?_
    exact Bool.eq_false_iff.mpr fun waits =>
      keeps ⟨_, _, same ▸ caller, by rw [queued]; exact waits⟩
  | claim task claimed =>
    exact completes_withSlot found fun _ => slot.claim_completed _
  | reply task taken | replyReset task taken => exact completes_of_call taken found
  | finish task ended =>
    exact completes_withSlot found fun same => absurd ⟨_, _, _, task, same⟩ keeps
  | leave admitted task fresh =>
    rw [System.notify_pending, System.spawnQueued_pending]
    exact here
  | _ => exact here

end completions

/-! ### Callers from step to step -/

/-- A choice is among those that a caller has still to go through. -/
def Listed (system : System) (account : String) (generation : Nat) : Prop :=
  ∃ id caller, system.callers id = some caller ∧ (account, generation) ∈ caller.remaining

/-- A caller begins to wait for a choice. -/
inductive Asks (system : System) (account : String) (generation : Nat) : Action → Prop
  | generation (accepted : .accepted account generation ∈ system.history) :
      Asks system account generation (.flushGeneration account generation)
  | account (expedited : (system.pending.expedite account system.now).2 = some generation) :
      Asks system account generation (.flushAccount account)
  | listed {id remaining}
      (caller : system.callers id = some ⟨(account, generation) :: remaining, .between⟩)
      (expedited : (system.pending.expediteGeneration account generation system.now).2 = true) :
      Asks system account generation (.askNext id)

/-- Where the callers come from after a step. -/
structure Comes (system : System) (action : Action) (caller : Caller) : Prop where
  awaits : ∀ account generation, caller.stage.awaits = some (account, generation) →
    Awaited system account generation ∨ Asks system account generation action
  listed : ∀ account generation, (account, generation) ∈ caller.remaining →
    Listed system account generation ∨
      system.pending.isActiveIntent account generation = true

section callers

variable {system last middle : System} {action : Action} {id : Nat} {caller : Caller}
  {account : String} {generation : Nat}

theorem CallerStage.awaits_notify (stage : CallerStage) : stage.notify.awaits = stage.awaits := by
  cases stage <;> rfl

theorem comes_of_caller (found : system.callers id = some caller) : Comes system action caller where
  awaits _ _ awaits := .inl ⟨id, caller, found, awaits⟩
  listed _ _ member := .inl ⟨id, caller, found, member⟩

/-- All of these callers come from the state before. -/
def AllCome (system : System) (action : Action) (callers : Nat → Option Caller) : Prop :=
  ∀ id caller, callers id = some caller → Comes system action caller

variable {callers : Nat → Option Caller}

theorem AllCome.notify (come : AllCome system action callers) :
    AllCome system action fun id => (callers id).map fun caller =>
      { caller with stage := caller.stage.notify } := by
  intro id caller found
  obtain ⟨before, earlier, rfl⟩ := map_eq_some_iff.mp found
  have comes := come id before earlier
  exact ⟨fun account generation awaits => comes.awaits account generation
    (before.stage.awaits_notify ▸ awaits), comes.listed⟩

theorem AllCome.update (come : AllCome system action callers) {new : Caller}
    (comes : Comes system action new) :
    AllCome system action (Function.update callers id (some new)) := by
  intro other caller found
  by_cases same : other = id
  · subst same
    rw [Function.update_self] at found
    cases found
    exact comes
  · rw [Function.update_of_ne same] at found
    exact come other caller found

variable {remaining : List (String × Nat)} {stage : CallerStage}

/-- A caller that goes on waiting for the same, or is answered. -/
theorem comes_of_stage {later : CallerStage} (found : system.callers id = some ⟨remaining, stage⟩)
    (same : later.awaits = stage.awaits ∨ later.awaits = none) :
    Comes system action ⟨remaining, later⟩ where
  awaits account generation awaits := by
    rcases same with same | none
    · exact .inl ⟨id, _, found, same ▸ awaits⟩
    · cases none.symm.trans awaits
  listed _ _ member := .inl ⟨id, _, found, member⟩

/-- A caller that waits for nothing. -/
theorem comes_between (listed : ∀ account generation, (account, generation) ∈ remaining →
      Listed system account generation ∨
        system.pending.isActiveIntent account generation = true) :
    Comes system action ⟨remaining, .between⟩ where
  awaits _ _ awaits := by cases awaits
  listed := listed

theorem comes_alone (awaits : ∀ account generation, stage.awaits = some (account, generation) →
      Asks system account generation action) : Comes system action ⟨[], stage⟩ where
  awaits account generation same := .inr (awaits account generation same)
  listed _ _ member := absurd member not_mem_nil

theorem Step.comes (step : Step system action last) : AllCome system action last.callers := by
  have same : AllCome system action system.callers := fun _ _ found => comes_of_caller found
  cases step with
  | cancelSelected | reset | accountRemoved | release | endReset => exact same.notify
  | flushGeneration id fresh accepted =>
    refine same.update (comes_alone fun account generation awaits => ?_)
    unfold askedStage at awaits
    split at awaits
    all_goals
      cases awaits
      exact .generation accepted
  | @flushAccount account id fresh =>
    refine same.update (comes_alone fun account generation awaits => ?_)
    split at awaits
    · rename_i expedited
      cases awaits
      exact .account expedited
    · cases awaits
  | flushPending id fresh listed =>
    exact same.update (comes_between fun account generation member =>
      .inr ((listed account generation).mp member))
  | askNextExpedited caller expedited =>
    refine same.update ⟨fun account generation awaits => ?_, fun account generation member => ?_⟩
    · cases awaits
      exact .inr (.listed caller expedited)
    · exact .inl ⟨_, _, caller, mem_cons_of_mem _ member⟩
  | askNextRefused caller refused =>
    exact same.update (comes_between fun account generation member =>
      .inl ⟨_, _, caller, mem_cons_of_mem _ member⟩)
  | answerRefused caller | ensureFailed caller inactive queued | pollTold caller known =>
    exact same.update (comes_of_stage caller (.inr rfl))
  | @ensureWorker id account generation remaining caller active
  | @ensureSpawned id account generation remaining _ task caller inactive queued fresh =>
    have comes : Comes system (.ensureWorker id) ⟨remaining, .polling account generation⟩ :=
      comes_of_stage caller (.inl rfl)
    exact (same.update comes).notify
  | arm caller | pollUnknown caller unknown | wake caller =>
    exact same.update (comes_of_stage caller (.inl rfl))
  | @leave id scheduled next admitted task fresh =>
    refine AllCome.notify ?_
    rcases System.spawnQueued_cases _ next scheduled.accountId admitted with equal | ⟨_, _, equal⟩
    all_goals
      rw [equal]
      exact same
  | _ => exact same

end callers

/-! ### What callers wait for -/

/-- What callers wait for, or will, was accepted. -/
structure Wanted (system : System) : Prop where
  awaited : ∀ account generation, Awaited system account generation →
    .accepted account generation ∈ system.history
  listed : ∀ account generation, Listed system account generation →
    .accepted account generation ∈ system.history

/-- Completions are kept where callers need them. -/
def Remembered (system : System) : Prop :=
  ∀ account generation, Awaited system account generation →
    Settled system.history account generation → Kept system account generation

section waits

variable {system last : System} {action : Action} {events history : List Event}
  {account : String} {generation : Nat} {slot : Slot}

/-- A choice becomes settled only by the end of its attempt. -/
theorem settled_of_append (settled : Settled (events.reverse ++ history) account generation) :
    (∃ outcome, .finished account generation outcome ∈ events) ∨
      Settled history account generation := by
  by_cases ends : ∃ outcome, .finished account generation outcome ∈ events
  · exact .inl ends
  · have unfinished (outcome : Outcome) : .finished account generation outcome ∉ events :=
      fun member => ends ⟨outcome, member⟩
    refine .inr (settled.imp (fun done => ?_) fun ⟨concluded, standing⟩ => ?_)
    · exact (mem_append_iff.mp done).resolve_right (unfinished _)
    · exact ⟨(concluded_append_iff unfinished).mp concluded, mt Overtaken.append standing⟩

variable {outcome : Outcome}

/-- The end of an attempt is kept as a completion. -/
theorem Move.completed_of_finished {next : Nat} {before after : Option Slot}
    (move : Move account next now before events after)
    (ends : .finished account generation outcome ∈ events) :
    ∃ slot, after = some slot ∧ slot.completed = some (generation, outcome) := by
  cases move with
  | rest silent | expedite silent | expediteGeneration silent id =>
    exact absurd ⟨rfl, rfl⟩ (silent _ ends generation)
  | finish running =>
    cases mem_singleton.mp ends
    exact ⟨_, rfl, (finish_spec running outcome now).2.2.1⟩
  | cancel | _ => simp at ends

theorem alive_of_active (active : system.pending.isActiveIntent account generation = true) :
    ∃ slot, system.pending.accounts account = some slot ∧ slot.Alive generation := by
  obtain ⟨slot, found, is⟩ := Option.any_eq_true _ _ |>.mp active
  refine ⟨slot, found, ?_⟩
  cases queued : slot.queued with
  | none => exact .inr (by simpa [queued] using is)
  | some pending => exact .inl (by simpa [queued] using is)

theorem alive_of_expedited (expedited : (system.pending.expedite account now).2 = some generation) :
    ∃ slot, system.pending.accounts account = some slot ∧ slot.Alive generation := by
  cases found : system.pending.accounts account with
  | none =>
    rw [PendingSkins.expedite, withSlot_of_none _ _ _ found] at expedited
    cases expedited
  | some slot =>
    refine ⟨slot, rfl, ?_⟩
    rw [PendingSkins.expedite, (withSlot_of_some _ _ _ found).2] at expedited
    unfold Slot.expedite at expedited
    split at expedited
    · rename_i entry queued
      cases expedited
      exact .inl (isGeneration_iff.mpr ⟨entry, queued, rfl⟩)
    · obtain ⟨running, runs, rfl⟩ := map_eq_some_iff.mp expedited
      exact .inr (isGeneration_iff.mpr ⟨running, runs, rfl⟩)

theorem alive_of_expeditedGeneration
    (expedited : (system.pending.expediteGeneration account generation now).2 = true) :
    ∃ slot, system.pending.accounts account = some slot ∧ slot.Alive generation := by
  cases found : system.pending.accounts account with
  | none =>
    rw [PendingSkins.expediteGeneration, withSlot_of_none _ _ _ found] at expedited
    cases expedited
  | some slot =>
    refine ⟨slot, rfl, ?_⟩
    rw [PendingSkins.expediteGeneration, (withSlot_of_some _ _ _ found).2]
      at expedited
    unfold Slot.expediteGeneration at expedited
    split at expedited
    · cases expedited
    · split at expedited
      · rename_i entry queued
        split at expedited
        · rename_i same
          exact .inl (isGeneration_iff.mpr ⟨entry, queued, same⟩)
        · exact .inr expedited
      · exact .inr expedited

/-- A choice that cannot be expedited, although it is the newest one, is not alive. -/
theorem Slot.dead_of_refused (newest : slot.generation = generation)
    (refused : (slot.expediteGeneration generation now).2 = false) : ¬slot.Alive generation := by
  unfold expediteGeneration at refused
  rw [if_neg (not_not.mpr newest)] at refused
  split at refused
  · rename_i entry queued
    split at refused
    · cases refused
    · rename_i other
      rintro (waiting | runs)
      · rw [queued] at waiting
        exact other (of_decide_eq_true waiting)
      · rw [runs] at refused
        cases refused
  · rename_i idle
    rintro (waiting | runs)
    · rw [idle] at waiting
      cases waiting
    · rw [runs] at refused
      cases refused

/-- What a caller begins to wait for is alive, unless it asks for what was accepted some time. -/
theorem Asks.alive (asks : Asks system account generation action) :
    (∃ slot, system.pending.accounts account = some slot ∧ slot.Alive generation) ∨
      (.accepted account generation ∈ system.history ∧
        action = .flushGeneration account generation) := by
  cases asks with
  | generation accepted => exact .inr ⟨accepted, rfl⟩
  | account expedited => exact .inl (alive_of_expedited expedited)
  | listed caller expedited => exact .inl (alive_of_expeditedGeneration expedited)

/-- What a caller begins to wait for keeps its completion. -/
theorem Asks.kept (asks : Asks system account generation action) (accounted : AllAccounted system)
    (remembers : ¬Forgets system action) (settled : Settled system.history account generation) :
    Kept system account generation ∧ ¬Overwrites system account action := by
  have dead (slot : Slot) (found : system.pending.accounts account = some slot) :
      ¬slot.Alive generation :=
    fun alive => (accounted account slot found).unsettled alive settled
  rcases asks.alive with ⟨slot, found, alive⟩ | ⟨_, rfl⟩
  · exact absurd alive (dead slot found)
  · refine ⟨by_contra fun lost => remembers (.late settled lost), ?_⟩
    rintro ⟨_, waiting⟩
    obtain ⟨pending, queued, same⟩ := isGeneration_iff.mp waiting
    obtain ⟨slot, found, waits⟩ := bind_eq_some_iff.mp queued
    exact dead slot found (.inl (isGeneration_iff.mpr ⟨pending, waits, same⟩))

theorem Wanted.step (wanted : Wanted system) (step : Step system action last)
    (moved : Moved system action last events) (accounted : AllAccounted system) : Wanted last := by
  have later {event : Event} (member : event ∈ system.history) : event ∈ last.history := by
    rw [moved.history]
    exact mem_append_right _ member
  have alive {account : String} {generation : Nat}
      (living : ∃ slot, system.pending.accounts account = some slot ∧ slot.Alive generation) :
      .accepted account generation ∈ last.history := by
    obtain ⟨slot, found, alive⟩ := living
    exact later ((accounted account slot found).alive generation alive)
  refine ⟨?_, ?_⟩
  · rintro account generation ⟨id, caller, found, awaits⟩
    rcases (step.comes id caller found).awaits account generation awaits with before | asks
    · exact later (wanted.awaited account generation before)
    · rcases asks.alive with living | ⟨accepted, _⟩
      · exact alive living
      · exact later accepted
  · rintro account generation ⟨id, caller, found, member⟩
    rcases (step.comes id caller found).listed account generation member with before | active
    · exact later (wanted.listed account generation before)
    · exact alive (alive_of_active active)

theorem Step.remembered (step : Step system action last) (remembered : Remembered system)
    (sound : Sound system) (moved : Moved system action last events)
    (accounted : AllAccounted system) (remembers : ¬Forgets system action) : Remembered last := by
  rintro account generation ⟨id, caller, found, awaits⟩ settled
  rw [moved.history] at settled
  rcases settled_of_append settled with ⟨outcome, ends⟩ | settled
  · obtain ⟨slot, now, completed⟩ := (moved.moves account).completed_of_finished ends
    exact ⟨slot, outcome, now, completed⟩
  · have before : Kept system account generation ∧ ¬Overwrites system account action := by
      rcases (step.comes id caller found).awaits account generation awaits with before | asks
      · have kept := remembered account generation before settled
        exact ⟨kept, fun overwrites => remembers (.overwrites before kept settled overwrites)⟩
      · exact asks.kept accounted remembers settled
    obtain ⟨⟨slot, outcome, here, completed⟩, keeps⟩ := before
    obtain ⟨after, now, same⟩ := step.completes sound here keeps
    exact ⟨after, outcome, now, same.trans completed⟩

/-! ### What callers are told -/

/-- What a caller is told is true of what has happened. -/
def Event.Truthful (earlier : List Event) : Event → Prop
  | .told account generation (.ok ()) => Succeeded earlier account generation
  | .told account generation (.error .cancelled) =>
    Overtaken earlier account generation ∧ ¬Succeeded earlier account generation
  | _ => True

/-- There is a slot where a choice was accepted. -/
theorem Sound.slot_of_accepted (sound : Sound system)
    (accepted : .accepted account generation ∈ system.history) :
    ∃ slot, system.pending.accounts account = some slot := by
  have fits := sound.fits account
  cases found : system.pending.accounts account with
  | none =>
    rw [found] at fits
    exact absurd ⟨rfl, rfl⟩ (fits _ accepted generation)
  | some slot => exact ⟨slot, rfl⟩

theorem tells_truthful (sound : Sound system) (accounted : AllAccounted system)
    (wanted : Wanted system) (remembered : Remembered system) (remembers : ¬Forgets system action)
    (tells : Tells system action account generation outcome) :
    Event.Truthful system.history (.told account generation outcome) := by
  rcases tells with ⟨awaited, rfl | rfl | said⟩ | ⟨id, remaining, rfl, caller, refused, rfl⟩
  · trivial
  · trivial
  · have accepted := wanted.awaited account generation awaited
    obtain ⟨slot, found⟩ := sound.slot_of_accepted accepted
    have fits := sound.fits account
    rw [found] at fits
    have accounted := accounted account slot found
    have said : slot.outcome generation = some outcome := by
      simpa only [System.outcomeFor, PendingSkins.outcome, found, bind_some] using said
    match outcome with
    | .ok () => exact finished_of_outcome accounted said
    | .error error =>
      by_cases cancelled : error = .cancelled
      · subst cancelled
        refine overtaken_of_outcome accounted fits accepted (fun settled => ?_) said
        obtain ⟨same, outcome, here, completed⟩ := remembered account generation awaited settled
        cases found.symm.trans here
        exact ⟨outcome, completed⟩
      · cases error <;> trivial
  · have unsettled : ¬Settled system.history account generation :=
      fun settled => remembers (.listed caller settled)
    have accepted := wanted.listed account generation ⟨id, _, caller, mem_cons_self⟩
    obtain ⟨slot, found⟩ := sound.slot_of_accepted accepted
    have fits := sound.fits account
    rw [found] at fits
    have accounted := accounted account slot found
    refine ⟨?_, fun done => unsettled (.inl done)⟩
    rw [PendingSkins.expediteGeneration, (withSlot_of_some _ _ _ found).2] at refused
    by_cases newer : slot.generation = generation
    · exact accounted.overtaken_of_dead accepted unsettled (dead_of_refused newer refused)
    · exact accounted.overtaken_of_newer fits accepted newer

theorem Moved.truthful (moved : Moved system action last events) (sound : Sound system)
    (accounted : AllAccounted system) (wanted : Wanted system) (remembered : Remembered system)
    (remembers : ¬Forgets system action)
    (truthful : Throughout Event.Truthful system.history) :
    Throughout Event.Truthful last.history := by
  rw [moved.history]
  refine throughout_of_step moved.plain (fun _ _ _ => trivial) (fun event member => ?_) truthful
  cases event with
  | told account generation outcome =>
    exact tells_truthful sound accounted wanted remembered remembers (moved.explained _ member)
  | _ => trivial

end waits

end Axial.Skins
