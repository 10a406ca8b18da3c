/-
This file accounts for every choice that was accepted: it waits or runs, it was overtaken
(cancelled, withdrawn or superseded), or it has concluded, by a success or by a failure that
is not retried. The completion that a slot keeps agrees with what has happened, as long as
it is kept.
-/

import Axial.Skins.Unrepeated

namespace Axial.Skins

open Accounts Program List Option

/-! ### What becomes of a choice -/

/-- The choice was cancelled, withdrawn or superseded. -/
def Overtaken (history : List Event) (account : String) (generation : Nat) : Prop :=
  .cancelled account generation ∈ history ∨
    (∃ hits, .withdrawn hits ∈ history ∧ hits account generation) ∨
    ∃ newer, .accepted account newer ∈ history ∧ generation < newer

def Succeeded (history : List Event) (account : String) (generation : Nat) : Prop :=
  .finished account generation (.ok ()) ∈ history

/-- The outcomes after which a choice is not retried, and which are its own. -/
def conclusive : Outcome → Bool
  | .ok () => true
  | .error error => !Slot.retries (some error) && error ≠ .cancelled

def Concluded (history : List Event) (account : String) (generation : Nat) : Prop :=
  ∃ outcome, .finished account generation outcome ∈ history ∧ conclusive outcome = true

variable {history events : List Event} {account : String} {generation : Nat}

theorem Succeeded.concluded (succeeded : Succeeded history account generation) :
    Concluded history account generation := ⟨.ok (), succeeded, rfl⟩

theorem Overtaken.append (overtaken : Overtaken history account generation) :
    Overtaken (events.reverse ++ history) account generation :=
  overtaken.imp (mem_append_right _) (Or.imp
    (fun ⟨hits, member, hit⟩ => ⟨hits, mem_append_right _ member, hit⟩)
    fun ⟨newer, member, less⟩ => ⟨newer, mem_append_right _ member, less⟩)

theorem mem_append_iff {event : Event} :
    event ∈ events.reverse ++ history ↔ event ∈ history ∨ event ∈ events := by
  rw [mem_append, mem_reverse]
  exact or_comm

theorem concluded_append_iff
    (unfinished : ∀ outcome, .finished account generation outcome ∉ events) :
    Concluded (events.reverse ++ history) account generation ↔
      Concluded history account generation := by
  refine ⟨fun ⟨outcome, member, final⟩ => ⟨outcome, ?_, final⟩,
    fun ⟨outcome, member, final⟩ => ⟨outcome, mem_append_right _ member, final⟩⟩
  exact (mem_append_iff.mp member).resolve_right (unfinished outcome)

/-! ### Slots -/

namespace Slot

/-- The choice waits or runs. -/
def Alive (slot : Slot) (generation : Nat) : Prop :=
  isGeneration slot.queued generation = true ∨ isGeneration slot.running generation = true

end Slot

/-- The slot accounts for all choices of the account. -/
structure Accounted (history : List Event) (account : String) (slot : Slot) : Prop where
  newest : 0 < slot.generation → .accepted account slot.generation ∈ history
  alive : ∀ generation, slot.Alive generation → .accepted account generation ∈ history
  struck : slot.cancelled = true → ∀ pending, slot.running = some pending →
    Overtaken history account pending.generation
  known : ∀ generation, .accepted account generation ∈ history → slot.Alive generation ∨
    Overtaken history account generation ∨ Concluded history account generation
  concluded : ∀ generation, Concluded history account generation → ¬slot.Alive generation
  completed : ∀ generation outcome, slot.completed = some (generation, outcome) →
    .finished account generation outcome ∈ history ∧
      (outcome = .error .cancelled → Overtaken history account generation) ∧
      (Succeeded history account generation → outcome = .ok ())

theorem accounted_initial (silent : Silent account history) :
    Accounted history account .initial where
  newest positive := absurd positive (lt_irrefl 0)
  alive _ alive := alive.elim nofun nofun
  struck struck := nomatch struck
  known generation member := absurd ⟨rfl, rfl⟩ (silent _ member generation)
  concluded _ _ alive := alive.elim nofun nofun
  completed _ _ completed := nomatch completed

/-- What is left to show of a move that ends no attempt. -/
structure Carried (history events : List Event) (account : String) (before after : Slot) :
    Prop where
  unfinished : ∀ generation outcome, .finished account generation outcome ∉ events
  newest : 0 < after.generation → .accepted account after.generation ∈ events.reverse ++ history
  struck : after.cancelled = true → ∀ pending, after.running = some pending →
    Overtaken (events.reverse ++ history) account pending.generation
  accepted : ∀ generation, .accepted account generation ∈ events → after.Alive generation
  lives : ∀ generation, before.Alive generation → after.Alive generation ∨
    Overtaken (events.reverse ++ history) account generation
  lived : ∀ generation, after.Alive generation → before.Alive generation ∨
    (.accepted account generation ∈ events ∧
      ∀ outcome, .finished account generation outcome ∉ history)
  completed : after.completed = none ∨ after.completed = before.completed

variable {after before : Slot}

theorem Accounted.carry (accounted : Accounted history account before)
    (carried : Carried history events account before after) :
    Accounted (events.reverse ++ history) account after where
  newest := carried.newest
  alive generation alive := by
    rcases carried.lived generation alive with lived | ⟨fresh, _⟩
    · exact mem_append_right _ (accounted.alive generation lived)
    · exact mem_append_iff.mpr (.inr fresh)
  struck := carried.struck
  known generation member := by
    rcases mem_append_iff.mp member with earlier | fresh
    · rcases accounted.known generation earlier with alive | overtaken | concluded
      · exact (carried.lives generation alive).imp_right .inl
      · exact .inr (.inl overtaken.append)
      · exact .inr (.inr ((concluded_append_iff (carried.unfinished generation)).mpr concluded))
    · exact .inl (carried.accepted generation fresh)
  concluded generation concluded alive := by
    have concluded := (concluded_append_iff (carried.unfinished generation)).mp concluded
    rcases carried.lived generation alive with lived | ⟨_, unfinished⟩
    · exact accounted.concluded generation concluded lived
    · obtain ⟨outcome, member, _⟩ := concluded
      exact unfinished outcome member
  completed generation outcome completed := by
    rcases carried.completed with none | same
    · rw [none] at completed
      cases completed
    · obtain ⟨member, overtaken, succeeded⟩ :=
        accounted.completed generation outcome (same ▸ completed)
      refine ⟨mem_append_right _ member, fun is => (overtaken is).append, fun done => ?_⟩
      exact succeeded ((mem_append_iff.mp done).resolve_right (carried.unfinished generation _))

/-- A move that takes nothing away and adds nothing. -/
theorem carried_of_same (accounted : Accounted history account before)
    (newest : after.generation = before.generation) (running : after.running = before.running)
    (cancelled : after.cancelled = before.cancelled)
    (queued : ∀ generation, Slot.isGeneration after.queued generation =
      Slot.isGeneration before.queued generation)
    (completed : after.completed = none ∨ after.completed = before.completed)
    (unfinished : ∀ generation outcome, .finished account generation outcome ∉ events)
    (unaccepted : ∀ generation, .accepted account generation ∉ events) :
    Carried history events account before after where
  unfinished := unfinished
  newest positive := by
    rw [newest] at positive ⊢
    exact mem_append_right _ (accounted.newest positive)
  struck struck pending runs := by
    rw [cancelled] at struck
    rw [running] at runs
    exact (accounted.struck struck pending runs).append
  accepted generation member := absurd member (unaccepted generation)
  lives generation alive := by
    rw [Slot.Alive, queued, running]
    exact .inl alive
  lived generation alive := by
    rw [Slot.Alive, queued, running] at alive
    exact .inl alive
  completed := completed

variable {pending : PendingSkin} {slot : Slot} {next : Nat}

theorem carried_insert (fits : SlotFits next history account slot)
    (accounted : Accounted history account slot) (fresh : slot.generation < pending.generation) :
    Carried history [.accepted account pending.generation] account slot (slot.insert pending) where
  unfinished := by simp
  newest _ := mem_cons_self
  struck struck running runs := (accounted.struck struck running runs).append
  accepted generation member := by
    cases mem_singleton.mp member
    exact .inl (decide_eq_true rfl)
  lives generation alive := by
    rcases alive with waits | runs
    · obtain ⟨waiting, queued, rfl⟩ := Slot.isGeneration_iff.mp waits
      refine .inr (.inr (.inr ⟨pending.generation, mem_cons_self, ?_⟩))
      exact (fits.queued waiting queued).2.trans_lt fresh
    · exact .inl (.inr runs)
  lived generation alive := by
    rcases alive with waits | runs
    · cases of_decide_eq_true waits
      refine .inr ⟨mem_cons_self, fun outcome member => ?_⟩
      exact absurd (fits.known _ member _ ⟨rfl, rfl⟩) fresh.not_ge
    · exact .inl (.inr runs)
  completed := .inr rfl

theorem carried_claim (accounted : Accounted history account slot) (idle : slot.running = none)
    (queued : slot.queued = some pending) :
    Carried history [.claimed account pending.generation] account slot (slot.claim none).1 := by
  rw [Slot.claim_of_queued idle queued]
  exact
    { unfinished := by simp
      newest := fun positive => mem_append_right _ (accounted.newest positive)
      struck := nofun
      accepted := by simp
      lives := fun generation alive => .inl (.inr (alive.elim (queued ▸ ·) (by rw [idle]; nofun)))
      lived := fun generation alive => .inl (.inl (alive.elim nofun (queued.symm ▸ ·)))
      completed := .inr rfl }

theorem Slot.takeQueued_completed (slot : Slot) :
    slot.takeQueued.completed = none ∨ slot.takeQueued.completed = slot.completed := by
  unfold takeQueued
  split
  · exact .inl rfl
  · exact .inr rfl

/-- A cancellation keeps the completion or forgets it, and whom it strikes it reports. -/
theorem Slot.cancel_struck {generation : Option Nat}
    (answered : (slot.cancel generation).2 = .ok true) :
    ((slot.cancel generation).1.completed = none ∨
        (slot.cancel generation).1.completed = slot.completed) ∧
      ((slot.cancel generation).1.cancelled = true → slot.cancelled = true ∨
        ∀ pending, slot.running = some pending →
          pending.generation ∈ slot.cancelHits generation) := by
  unfold cancel at answered ⊢
  split_ifs at answered ⊢ with stale runs started
  · exact ⟨slot.takeQueued_completed, fun struck => .inl (by simpa using struck)⟩
  · refine ⟨slot.takeQueued_completed, fun _ => .inr fun pending running => ?_⟩
    rw [running] at runs
    have unbegun : slot.effectStarted = false := by simpa using started
    have matched : generation.all (fun id => decide (pending.generation = id)) = true := runs
    refine mem_append_right _ ?_
    rw [running, filter_some, if_pos (by rw [matched, unbegun]; rfl)]
    exact mem_cons_self
  · exact ⟨slot.takeQueued_completed, fun struck => .inl (by simpa using struck)⟩

section

variable (accounted : Accounted history account slot)

include accounted

theorem carried_cancel {id : Option Nat} (answered : (slot.cancel id).2 = .ok true) :
    Carried history ((slot.cancelHits id).map (.cancelled account)) account slot
      (slot.cancel id).1 := by
  obtain ⟨queued, running, same, _, _, _⟩ := Slot.cancel_of_true answered
  obtain ⟨completed, struck⟩ := Slot.cancel_struck answered
  have hit {generation : Nat} (member : generation ∈ slot.cancelHits id) :
      Overtaken (((slot.cancelHits id).map (.cancelled account)).reverse ++ history) account
        generation :=
    .inl (mem_append_iff.mpr (.inr (List.mem_map.mpr ⟨generation, member, rfl⟩)))
  exact
    { unfinished := by simp
      newest := fun positive => by
        rw [same] at positive ⊢
        exact mem_append_right _ (accounted.newest positive)
      struck := fun cancelled pending runs => by
        rw [running] at runs
        rcases struck cancelled with before | hits
        · exact (accounted.struck before pending runs).append
        · exact hit (hits pending runs)
      accepted := by simp
      lives := fun generation alive => by
        rcases alive with waits | runs
        · obtain ⟨pending, waiting, rfl⟩ := Slot.isGeneration_iff.mp waits
          refine .inr (hit (mem_append_left _ ?_))
          rw [waiting]
          exact mem_cons_self
        · exact .inl (.inr (running.symm ▸ runs))
      lived := fun generation alive => by
        rw [Slot.Alive, queued, running] at alive
        exact .inl (alive.imp nofun fun runs => runs)
      completed := completed }

variable {hits : String → Nat → Prop}

theorem carried_library {change : SkinLibraryChange}
    (dropped : ∀ generation, Slot.isGeneration slot.queued generation →
      ¬Slot.isGeneration (slot.libraryChanged change).queued generation → hits account generation)
    (struck : ∀ generation, Slot.isGeneration slot.running generation → slot.cancelled = false →
      (slot.libraryChanged change).cancelled → hits account generation) :
    Carried history [.withdrawn hits] account slot (slot.libraryChanged change) := by
  have taking := taking_libraryChanged slot change
  have completed : (slot.libraryChanged change).completed = slot.completed := by
    cases change <;> rfl
  have hit {generation : Nat} (taken : hits account generation) :
      Overtaken ([.withdrawn hits].reverse ++ history) account generation :=
    .inr (.inl ⟨hits, mem_cons_self, taken⟩)
  exact
    { unfinished := by simp
      newest := fun positive => by
        rw [taking.generation] at positive ⊢
        exact mem_append_right _ (accounted.newest positive)
      struck := fun cancelled pending runs => by
        rw [taking.running] at runs
        cases before : slot.cancelled with
        | true => exact (accounted.struck before pending runs).append
        | false => exact hit (struck _ (Slot.isGeneration_iff.mpr ⟨pending, runs, rfl⟩) before
            cancelled)
      accepted := by simp
      lives := fun generation alive => by
        rcases alive with waits | runs
        · by_cases still : Slot.isGeneration (slot.libraryChanged change).queued generation = true
          · exact .inl (.inl still)
          · exact .inr (hit (dropped generation waits still))
        · exact .inl (.inr (taking.running.symm ▸ runs))
      lived := fun generation alive => by
        rcases alive with waits | runs
        · obtain ⟨pending, queued, same⟩ := Slot.isGeneration_iff.mp waits
          obtain ⟨waiting, before, _, equal⟩ := taking.queued pending queued
          exact .inl (.inl (Slot.isGeneration_iff.mpr ⟨waiting, before, equal.trans same⟩))
        · exact .inl (.inr (taking.running ▸ runs))
      completed := .inr completed }

theorem carried_remove (taken : ∀ generation, hits account generation ↔ slot.Alive generation) :
    Carried history [.withdrawn hits] account slot slot.invalidate := by
  have hit {generation : Nat} (alive : slot.Alive generation) :
      Overtaken ([.withdrawn hits].reverse ++ history) account generation :=
    .inr (.inl ⟨hits, mem_cons_self, (taken generation).mpr alive⟩)
  exact
    { unfinished := by simp
      newest := fun positive => mem_append_right _ (accounted.newest positive)
      struck := fun _ pending runs => hit (.inr (Slot.isGeneration_iff.mpr ⟨pending, runs, rfl⟩))
      accepted := by simp
      lives := fun generation alive => .inr (hit alive)
      lived := fun generation alive => .inl (alive.imp nofun id)
      completed := .inr rfl }

/-- A choice that no longer stands was overtaken. -/
theorem Accounted.overtaken (fits : SlotFits next history account slot)
    (running : slot.running = some pending) (fallen : slot.isCurrent pending = false) :
    Overtaken history account pending.generation := by
  cases struck : slot.cancelled with
  | true => exact accounted.struck struck pending running
  | false =>
    have other : slot.generation ≠ pending.generation := by
      simpa [Slot.isCurrent, struck] using fallen
    have older := (fits.running pending running).2
    exact .inr (.inr ⟨slot.generation, accounted.newest (by omega), by omega⟩)

end

/-- The end of an attempt whose choice stands, with a failure that is retried, puts it back. -/
theorem Slot.finish_retries {error : ProfileMediaError} (running : slot.running = some pending)
    (retried : retries (some error) = true) (stands : slot.isCurrent pending = true) (now : Nat) :
    isGeneration (slot.finish pending (.error error) now).queued pending.generation = true := by
  simp only [isCurrent, Bool.and_eq_true, Bool.not_eq_true', decide_eq_true_eq] at stands
  obtain ⟨uncancelled, same⟩ := stands
  simp [finish, isGeneration, running, same, retried, uncancelled]

variable {outcome : Outcome} {now : Nat}

/-- What becomes of a choice whose attempt ends. -/
theorem finish_known (fits : SlotFits next history account slot)
    (accounted : Accounted history account slot) (running : slot.running = some pending)
    (ended : outcome = .error .cancelled → slot.isCurrent pending = false) :
    (slot.finish pending outcome now).Alive pending.generation ∨
      Overtaken (.finished account pending.generation outcome :: history) account
        pending.generation ∨
      Concluded (.finished account pending.generation outcome :: history) account
        pending.generation := by
  have fallen (gone : slot.isCurrent pending = false) :
      Overtaken (.finished account pending.generation outcome :: history) account
        pending.generation :=
    @Overtaken.append _ [_] _ _ (accounted.overtaken fits running gone)
  by_cases final : conclusive outcome = true
  · exact .inr (.inr ⟨outcome, mem_cons_self, final⟩)
  cases outcome with
  | ok => exact absurd rfl final
  | error error =>
    by_cases cancelled : error = .cancelled
    · exact .inr (.inl (fallen (ended (congrArg _ cancelled))))
    · have retried : Slot.retries (some error) = true := by
        simpa [conclusive, cancelled] using final
      cases stands : slot.isCurrent pending with
      | true => exact .inl (.inl (Slot.finish_retries running retried stands now))
      | false => exact .inr (.inl (fallen stands))

theorem accounted_finish (fits : SlotFits next history account slot)
    (accounted : Accounted history account slot) (running : slot.running = some pending)
    (ended : outcome = .error .cancelled → slot.isCurrent pending = false) :
    Accounted (.finished account pending.generation outcome :: history) account
      (slot.finish pending outcome now) := by
  obtain ⟨idle, newest, completed, waits⟩ := Slot.finish_spec running outcome now
  have runs : Slot.isGeneration slot.running pending.generation = true :=
    Slot.isGeneration_iff.mpr ⟨pending, running, rfl⟩
  have carry {generation : Nat} (overtaken : Overtaken history account generation) :
      Overtaken (.finished account pending.generation outcome :: history) account generation :=
    @Overtaken.append _ [_] _ _ overtaken
  have lived {generation : Nat} (alive : (slot.finish pending outcome now).Alive generation) :
      slot.Alive generation ∧
        (generation = pending.generation → ∃ error, outcome = .error error ∧
          Slot.retries (some error) = true) := by
    rw [Slot.Alive, idle] at alive
    have alive := alive.resolve_right nofun
    rcases waits with kept | ⟨back, _, failed⟩
    · rw [kept] at alive
      refine ⟨.inl alive, ?_⟩
      rintro rfl
      obtain ⟨waiting, queued, same⟩ := Slot.isGeneration_iff.mp alive
      exact absurd same (fits.apart waiting pending queued running).ne'
    · rw [back] at alive
      cases of_decide_eq_true alive
      exact ⟨.inr runs, fun _ => failed⟩
  exact
    { newest := fun positive => by
        rw [newest] at positive ⊢
        exact mem_cons_of_mem _ (accounted.newest positive)
      alive := fun generation alive =>
        mem_cons_of_mem _ (accounted.alive generation (lived alive).1)
      struck := by
        rw [idle]
        exact fun _ _ => nofun
      known := fun generation member => by
        have earlier := (mem_cons.mp member).resolve_left nofun
        rcases accounted.known generation earlier with alive | overtaken | concluded
        · rcases alive with stays | runs'
          · obtain ⟨waiting, queued, rfl⟩ := Slot.isGeneration_iff.mp stays
            rcases waits with kept | ⟨_, stands, _⟩
            · exact .inl (.inl (kept.symm ▸ stays))
            · have same := of_decide_eq_true ((Bool.and_eq_true _ _).mp stands).2
              have younger := fits.apart waiting pending queued running
              exact absurd ((fits.queued waiting queued).2.trans same) younger.ne'
          · rw [running] at runs'
            cases of_decide_eq_true runs'
            exact finish_known fits accounted running ended
        · exact .inr (.inl (carry overtaken))
        · exact .inr (.inr (concluded.imp fun _ ⟨member, final⟩ =>
            ⟨mem_cons_of_mem _ member, final⟩))
      concluded := fun generation ⟨last, member, final⟩ alive => by
        rcases mem_cons.mp member with same | earlier
        · cases same
          obtain ⟨error, rfl, retried⟩ := (lived alive).2 rfl
          rw [conclusive, retried] at final
          cases final
        · exact accounted.concluded generation ⟨last, earlier, final⟩ (lived alive).1
      completed := fun generation last same => by
        cases completed.symm.trans same
        refine ⟨mem_cons_self, fun is => ?_, fun succeeded => ?_⟩
        · exact carry (accounted.overtaken fits running (ended is))
        · rcases mem_cons.mp succeeded with same | earlier
          · cases same
            rfl
          · exact absurd (.inr runs) (accounted.concluded _ (Succeeded.concluded earlier)) }

/-! ### Moves and steps -/

theorem Slot.expedite_spec (slot : Slot) (now : Nat) :
    (slot.expedite now).1.completed = none ∧ ∀ generation,
      isGeneration (slot.expedite now).1.queued generation =
        isGeneration slot.queued generation := by
  unfold expedite
  split
  · rename_i entry queued
    exact ⟨rfl, fun _ => by rw [queued]; rfl⟩
  · exact ⟨rfl, fun _ => rfl⟩

theorem Slot.expediteGeneration_spec (slot : Slot) (generation now : Nat) :
    ((slot.expediteGeneration generation now).1.completed = none ∨
        (slot.expediteGeneration generation now).1.completed = slot.completed) ∧
      ∀ id, isGeneration (slot.expediteGeneration generation now).1.queued id =
        isGeneration slot.queued id := by
  unfold expediteGeneration
  split
  · exact ⟨.inr rfl, fun _ => rfl⟩
  · split
    · rename_i entry queued
      split
      · exact ⟨.inl rfl, fun _ => by rw [queued]; rfl⟩
      · exact ⟨.inr rfl, fun _ => rfl⟩
    · exact ⟨.inr rfl, fun _ => rfl⟩

theorem Slot.rebase_queued (slot : Slot) (before after : CapturedAccount) (generation : Nat) :
    isGeneration (slot.rebase before after).queued generation =
      isGeneration slot.queued generation := by
  unfold rebase
  cases slot.queued with
  | none => rfl
  | some entry =>
    simp only [isGeneration, map_some, any_some]
    split <;> rfl

/-- What every move keeps. -/
theorem Move.accounted {later : Nat} {slot : Option Slot}
    (move : Move account later now slot events (some after)) (fits : Fits next history account slot)
    (accounted : ∀ before, slot = some before → Accounted history account before)
    (ended : ∀ before pending outcome, slot = some before → before.running = some pending →
      .finished account pending.generation outcome ∈ events → outcome = .error .cancelled →
      before.isCurrent pending = false) : Accounted (events.reverse ++ history) account after := by
  cases move with
  | rest silent =>
    have before := accounted after rfl
    exact before.carry (carried_of_same before rfl rfl rfl (fun _ => rfl) (.inr rfl)
      (fun _ _ member => silent _ member _ ⟨rfl, rfl⟩) fun _ member => silent _ member _ ⟨rfl, rfl⟩)
  | @insert _ pending own top fresh =>
    cases slot with
    | none =>
      exact (accounted_initial fits).carry
        (carried_insert (@slotFits_initial later _ _ fits) (accounted_initial fits) fresh)
    | some slot => exact (accounted slot rfl).carry (carried_insert fits (accounted slot rfl) fresh)
  | claim idle queued =>
    exact (accounted _ rfl).carry (carried_claim (accounted _ rfl) idle queued)
  | begin begun =>
    rw [(Slot.beginEffect_of_ok begun).1]
    exact (accounted _ rfl).carry (carried_of_same (accounted _ rfl) rfl rfl rfl (fun _ => rfl)
      (.inr rfl) (by simp) (by simp))
  | send | written =>
    exact (accounted _ rfl).carry (carried_of_same (accounted _ rfl) rfl rfl rfl (fun _ => rfl)
      (.inr rfl) (by simp) (by simp))
  | finish running =>
    exact accounted_finish fits (accounted _ rfl) running
      (ended _ _ _ rfl running mem_cons_self)
  | cancel answered => exact (accounted _ rfl).carry (carried_cancel (accounted _ rfl) answered)
  | library taken dropped struck =>
    exact (accounted _ rfl).carry (carried_library (accounted _ rfl) dropped struck)
  | remove taken => exact (accounted _ rfl).carry (carried_remove (accounted _ rfl) taken)
  | @expedite slot _ silent =>
    have calm := calm_expedite slot now
    obtain ⟨completed, queued⟩ := slot.expedite_spec now
    exact (accounted _ rfl).carry (carried_of_same (accounted _ rfl) calm.generation calm.running
      calm.cancelled queued (.inl completed) (fun _ _ member => silent _ member _ ⟨rfl, rfl⟩)
      fun _ member => silent _ member _ ⟨rfl, rfl⟩)
  | @expediteGeneration slot _ silent generation =>
    have calm := calm_expediteGeneration slot generation now
    obtain ⟨completed, queued⟩ := slot.expediteGeneration_spec generation now
    exact (accounted _ rfl).carry (carried_of_same (accounted _ rfl) calm.generation calm.running
      calm.cancelled queued completed (fun _ _ member => silent _ member _ ⟨rfl, rfl⟩)
      fun _ member => silent _ member _ ⟨rfl, rfl⟩)
  | @rebase slot before current =>
    exact (accounted _ rfl).carry (carried_of_same (accounted _ rfl) rfl rfl rfl
      (slot.rebase_queued before current) (.inr rfl) nofun nofun)

/-- Every slot accounts for the choices of its account. -/
def AllAccounted (system : System) : Prop :=
  ∀ account slot, system.pending.accounts account = some slot →
    Accounted system.history account slot

variable {system last : System} {action : Action} {spared : Prop}

/-- An attempt that ends as cancelled is one whose choice does not stand. -/
theorem Moved.ended (moved : Moved system action last events) (sound : Sound system)
    (attempting : Attempting spared system) (found : system.pending.accounts account = some slot)
    (running : slot.running = some pending)
    (member : .finished account pending.generation outcome ∈ events)
    (cancelled : outcome = .error .cancelled) : slot.isCurrent pending = false := by
  obtain ⟨id, scheduled, other, rest, _, task, rfl, _, ends⟩ := moved.explained _ member
  obtain ⟨_, _, same, here, runs⟩ := sound.applying _ _ _ _ task
  cases found.symm.trans here
  cases running.symm.trans runs
  obtain ⟨attempt, fits, goes, _⟩ := attempting _ _ _ _ _ task found
  rw [cancelled] at ends
  have fallen := (goes.ended ends).1 rfl
  rw [fits.current] at fallen
  exact Bool.eq_false_iff.mpr fallen

theorem Moved.accounted (moved : Moved system action last events) (sound : Sound system)
    (attempting : Attempting spared system) (accounted : AllAccounted system) :
    AllAccounted last := by
  intro account after left
  have move := moved.moves account
  rw [left] at move
  rw [moved.history]
  exact move.accounted (sound.fits account) (accounted account) fun _ _ _ found running =>
    moved.ended sound attempting found running

end Axial.Skins
