/-
This file shows when a choice that may have reached the provider is never repeated. In every
run, the effect of a choice begins only while it is the newest one and has not been taken
back, and a choice that was cancelled before its effect is not written. That a choice which
may have been written is never put back into the queue holds in every run in which the
account service does not fail in passing after the write, while the choice still stands.
-/

import Axial.Skins.Soundness

namespace Axial.Skins

open Accounts Program List Option

/-- A write of the choice was answered that is not known to have had no effect. -/
def Wrote (history : List Event) (account : String) (generation : Nat) : Prop :=
  ∃ answer, .written account generation answer ∈ history ∧ hadNoEffect answer = false

/-- The account service fails in passing after a write of a choice that still stands. -/
def Strikes (system : System) : Action → Prop
  | .reply id question answer => ∃ scheduled pending next,
      system.tasks id = some (.worker ⟨scheduled, .applying pending (.call question next)⟩) ∧
      system.pending.isCurrent pending = true ∧ refusesPassing question answer = true ∧
      Wrote system.history pending.accountId pending.generation
  | _ => False

/-- No choice waits that may have been written. -/
def Unrepeated (system : System) : Prop :=
  ∀ account slot pending, system.pending.accounts account = some slot →
    slot.queued = some pending → ¬Wrote system.history account pending.generation

/-- An attempt is about a choice as its slot has it. -/
structure Attempt.Matches (attempt : Attempt) (slot : Slot) (pending : PendingSkin) : Prop where
  current : attempt.current ↔ slot.isCurrent pending = true
  begun : attempt.begun ↔ slot.effectStarted = true

/-- Every application has the calls of an attempt before it; where runs are spared, the attempt
knows what was written. -/
def Attempting (spared : Prop) (system : System) : Prop :=
  ∀ id scheduled pending rest slot,
    system.tasks id = some (.worker ⟨scheduled, .applying pending rest⟩) →
      system.pending.accounts pending.accountId = some slot →
        ∃ attempt : Attempt, attempt.Matches slot pending ∧ attempt.Goes rest ∧
          (spared → ¬attempt.struck ∧
            (attempt.written ↔ Wrote system.history pending.accountId pending.generation))

/-! ### Attempts -/

variable {rest : SkinProgram Unit} {question : SkinCall}

namespace Attempt

variable {attempt : Attempt} {standing : Prop}

/-- An attempt for which the choice stands no longer. -/
theorem Goes.lower (goes : attempt.Goes rest) (lowered : standing → attempt.current) :
    Goes rest { attempt with current := standing } := by
  cases rest with
  | finish value => exact goes
  | fail error => exact ⟨fun same => mt lowered (goes.1 same),
      fun wrote retried => (goes.2 wrote retried).imp_left (mt lowered)⟩
  | call question next =>
    rintro answer after ⟨still, lower, answers, rfl⟩
    have same : Attempt.after { attempt with current := standing } still question answer =
        attempt.after still question answer := by
      unfold Attempt.after
      split <;> rfl
    rw [same]
    exact goes answer _ ⟨still, lowered ∘ lower, answers, rfl⟩

theorem Goes.ended {outcome : Outcome} (goes : attempt.Goes rest) (ends : Ended rest outcome) :
    Attempt.ended outcome attempt := by
  cases ends with
  | finish | fail => exact goes

/-- A request that writes is sent after the effect has begun. -/
theorem Goes.begun {next : question.Answer → SkinProgram Unit}
    (goes : attempt.Goes (.call question next)) (send : sends question = true) : attempt.begun := by
  cases question with
  | sendUpload | sendCape =>
    exact (goes () _ ⟨False, nofun, trivial, rfl⟩).1 trivial
  | _ => cases send

theorem after_current (question : SkinCall) (answer : question.Answer) :
    (attempt.after standing question answer).current = standing := by
  unfold after
  split <;> rfl

theorem after_written (pending : PendingSkin) (question : SkinCall) (answer : question.Answer) :
    (attempt.after standing question answer).written ↔
      attempt.written ∨ Wrote (callEvents pending question answer) pending.accountId
        pending.generation := by
  have wrote {events : List Event} (unwritten : ∀ other,
      .written pending.accountId pending.generation other ∉ events) :
      attempt.written ↔ attempt.written ∨ Wrote events pending.accountId pending.generation :=
    ⟨.inl, fun either => either.elim id fun ⟨other, member, _⟩ => absurd member (unwritten other)⟩
  cases question with
  | written =>
    refine or_congr_right ⟨fun effective => ⟨answer, mem_singleton.mpr rfl, effective⟩, ?_⟩
    rintro ⟨other, member, effective⟩
    cases mem_singleton.mp member
    exact effective
  | beginEffectWithSkin other =>
    match answer with
    | .ok (.ok ()) => exact wrote (by simp [callEvents])
    | .ok (.error _) => exact wrote nofun
    | .error _ => exact wrote nofun
  | beginEffect other =>
    match answer with
    | .ok () => exact wrote (by simp [callEvents])
    | .error _ => exact wrote nofun
  | sendUpload | sendCape => exact wrote (by simp [callEvents])
  | _ => exact wrote nofun

theorem after_struck (question : SkinCall) (answer : question.Answer)
    (struck : (attempt.after standing question answer).struck) :
    attempt.struck ∨ (attempt.written ∧ standing ∧ refusesPassing question answer = true) := by
  unfold after at struck
  split at struck
  all_goals first | exact .inl struck | exact struck

end Attempt

/-! ### Answers -/

section answers

variable {state after : PendingSkins} {pending : PendingSkin} {slot last : Slot}
  {attempt : Attempt}

theorem Attempt.Matches.quiet (fits : attempt.Matches slot pending)
    (begun : ∀ standing answer, (attempt.after standing question answer).begun = attempt.begun)
    (answer : question.Answer) :
    (attempt.after (slot.isCurrent pending = true) question answer).Matches slot pending where
  current := by rw [Attempt.after_current]
  begun := by
    rw [begun]
    exact fits.begun

/-- The beginning of an effect is answered as an attempt expects it. -/
theorem beginEffect_spec (found : state.accounts pending.accountId = some slot)
    (running : slot.running = some pending) :
    ((state.beginEffect pending).2 = .ok () ∧ slot.isCurrent pending = true ∧
        (state.beginEffect pending).1.accounts pending.accountId =
          some { slot with effectStarted := true }) ∨
      ((state.beginEffect pending).2 = .error .cancelled ∧ ¬slot.isCurrent pending = true ∧
        (state.beginEffect pending).1.accounts pending.accountId = some slot) := by
  obtain ⟨after, answer⟩ := PendingSkins.withSlot_of_some state (·.beginEffect pending)
    (.error .cancelled) found
  rw [PendingSkins.beginEffect, answer, after]
  cases result : (slot.beginEffect pending).2 with
  | ok =>
    obtain ⟨same, uncancelled, newest, _⟩ := Slot.beginEffect_of_ok result
    exact .inl ⟨rfl, by simp [Slot.isCurrent, uncancelled, newest], by rw [same]⟩
  | error error =>
    obtain ⟨same, rfl, fallen⟩ := Slot.beginEffect_of_error result
    refine .inr ⟨rfl, ?_, by rw [same]⟩
    rw [fallen (Slot.isGeneration_iff.mpr ⟨pending, running, rfl⟩)]
    exact Bool.false_ne_true

/-- A call answers as an attempt expects it, and leaves a slot as the attempt goes on with. -/
theorem answers_of_call {answer : question.Answer} (owned : AsksAbout (· = pending) question)
    (taken : callEffect question state answer after)
    (found : state.accounts pending.accountId = some slot) (running : slot.running = some pending)
    (left : after.accounts pending.accountId = some last) (fits : attempt.Matches slot pending) :
    Attempt.Answers (slot.isCurrent pending = true) question answer ∧
      (attempt.after (slot.isCurrent pending = true) question answer).Matches last pending := by
  have same (kept : after = state) : last = slot := by
    rw [kept, found] at left
    exact (Option.some.inj left).symm
  cases question with
  | beginEffectWithSkin other =>
    cases (show other = pending from owned)
    rcases taken with ⟨kept, error, rfl⟩ | ⟨kept, rfl⟩ | ⟨rfl, rfl⟩
    · cases same kept
      exact ⟨.inl ⟨error, rfl⟩, Iff.rfl, fits.begun⟩
    · cases same kept
      exact ⟨.inr (.inl rfl), Iff.rfl, fits.begun⟩
    · rcases beginEffect_spec found running with ⟨began, stands, now⟩ | ⟨refused, fallen, now⟩
      · cases left.symm.trans now
        rw [began]
        exact ⟨.inr (.inr (.inl ⟨rfl, stands⟩)), Iff.rfl, iff_of_true trivial rfl⟩
      · cases left.symm.trans now
        rw [refused]
        exact ⟨.inr (.inr (.inr ⟨rfl, fallen⟩)), Iff.rfl, fits.begun⟩
  | beginEffect other =>
    cases (show other = pending from owned)
    obtain ⟨rfl, rfl⟩ := taken
    rcases beginEffect_spec found running with ⟨began, stands, now⟩ | ⟨refused, fallen, now⟩
    · cases left.symm.trans now
      rw [began]
      exact ⟨.inl ⟨rfl, stands⟩, Iff.rfl, iff_of_true trivial rfl⟩
    · cases left.symm.trans now
      rw [refused]
      exact ⟨.inr ⟨rfl, fallen⟩, Iff.rfl, fits.begun⟩
  | isCurrent other =>
    cases (show other = pending from owned)
    obtain ⟨kept, rfl⟩ := taken
    cases same kept
    refine ⟨?_, fits.quiet (fun _ _ => rfl) _⟩
    simp only [Attempt.Answers, PendingSkins.isCurrent, found, any_some]
  | rebaseAccount before current =>
    refine ⟨trivial, ?_⟩
    rw [show after = _ from taken] at left
    by_cases mine : pending.accountId = before.record.accountId.text
    · rw [mine] at found left
      have now := (PendingSkins.withSlot_of_some state
        (fun slot => (slot.rebase before current, ())) () found).1
      cases left.symm.trans now
      exact ⟨Iff.rfl, fits.begun⟩
    · rw [PendingSkins.rebaseAccount, PendingSkins.withSlot_other _ _ _ mine, found] at left
      cases left
      exact ⟨Iff.rfl, fits.begun⟩
  | written | sync | normalize =>
    cases same taken.1
    exact ⟨taken.2, fits.quiet (fun _ _ => rfl) _⟩
  | _ =>
    cases same taken
    exact ⟨trivial, fits.quiet (fun _ _ => rfl) _⟩

end answers

/-! ### Steps of others -/

variable {account : String} {scheduled : PendingSkin} {history : List Event} {id : TaskId}
  {next now generation : Nat}

section aside

variable {system last : System} {action : Action} {events : List Event}

variable {slot : Slot}

/-- While a choice runs, a move that is not of its attempt leaves its effect as it is, and the
choice stands at most as long as before. -/
theorem Move.aside {after : Slot} {pending : PendingSkin}
    (move : Move account next now (some slot) events (some after))
    (running : slot.running = some pending) (older : pending.generation ≤ slot.generation)
    (unbegun : ∀ generation, .began account generation ∉ events)
    (unfinished : ∀ generation outcome, .finished account generation outcome ∉ events) :
    (after.isCurrent pending = true → slot.isCurrent pending = true) ∧
      after.effectStarted = slot.effectStarted := by
  have taking (taken : Taking slot after) :
      (after.isCurrent pending = true → slot.isCurrent pending = true) ∧
        after.effectStarted = slot.effectStarted := by
    refine ⟨fun still => ?_, taken.effectStarted⟩
    rw [Slot.isCurrent, taken.generation] at still
    simp only [Slot.isCurrent, Bool.and_eq_true, Bool.not_eq_true', decide_eq_true_eq] at still ⊢
    refine ⟨?_, still.2⟩
    cases struck : slot.cancelled with
    | false => rfl
    | true =>
      rw [taken.cancelled struck] at still
      exact still.1
  have calm (calm : Calm slot after) := taking
    ⟨calm.generation, calm.running, calm.effectStarted, calm.cancelled.trans, calm.queued⟩
  cases move with
  | rest | send | written => exact ⟨id, rfl⟩
  | insert own top fresh =>
    refine ⟨fun still => ?_, rfl⟩
    have same := of_decide_eq_true ((Bool.and_eq_true _ _).mp still).2
    exact absurd (fresh.trans_eq same) older.not_gt
  | claim idle queued =>
    rw [idle] at running
    cases running
  | begin begun => exact absurd mem_cons_self (unbegun _)
  | finish _ => exact absurd mem_cons_self (unfinished _ _)
  | cancel answered => exact taking (taking_cancel answered)
  | library taken _ _ => exact taking (taking_libraryChanged slot _)
  | remove taken => exact taking (taking_invalidate slot)
  | expedite silent => exact calm (calm_expedite slot now)
  | expediteGeneration silent generation => exact calm (calm_expediteGeneration slot generation now)
  | rebase before after => exact calm (calm_rebase slot before after)

/-- The gate keeps the attempts of others away from the account. -/
theorem Sound.unreplied (sound : Sound system) {pending : PendingSkin}
    (found : system.tasks id = some (.worker ⟨scheduled, .applying pending rest⟩))
    (aside : action.attempts ≠ some id) : ¬Replies system action pending.accountId := by
  rintro ⟨other, claimed, choice, later, question, answer, rfl, task, same⟩
  have mine := sound.gated id _ _ found rfl
  have theirs := sound.gated other _ _ task rfl
  rw [(sound.applying id _ _ _ found).1, ← same, ← (sound.applying other _ _ _ task).1] at mine
  cases mine.symm.trans theirs
  exact aside rfl

theorem wrote_append :
    Wrote (events.reverse ++ history) account generation ↔
      Wrote history account generation ∨ Wrote events account generation := by
  simp only [Wrote, mem_append, mem_reverse, or_and_right, exists_or]
  exact or_comm

/-- What others do leaves an attempt as it is, but that the choice may cease to stand. -/
theorem Step.attempting_aside (sound : Sound system) (moved : Moved system action last events)
    {pending : PendingSkin}
    (found : system.tasks id = some (.worker ⟨scheduled, .applying pending rest⟩))
    (aside : action.attempts ≠ some id) {after : Slot}
    (before : system.pending.accounts pending.accountId = some slot)
    (left : last.pending.accounts pending.accountId = some after) :
    (after.isCurrent pending = true → slot.isCurrent pending = true) ∧
      after.effectStarted = slot.effectStarted ∧
      (Wrote last.history pending.accountId pending.generation ↔
        Wrote system.history pending.accountId pending.generation) := by
  have unreplied := sound.unreplied found aside
  have unfinished := moved.unfinished sound found fun same => aside (by rw [same]; rfl)
  obtain ⟨_, _, other, same, running⟩ := sound.applying _ _ _ _ found
  cases before.symm.trans same
  have fits := sound.fits pending.accountId
  rw [before] at fits
  have move := moved.moves pending.accountId
  rw [before, left] at move
  obtain ⟨lowered, begun⟩ := move.aside running (SlotFits.running fits pending running).2
    (fun _ member => unreplied (moved.explained _ member)) unfinished
  refine ⟨lowered, begun, ?_⟩
  rw [moved.history, wrote_append]
  refine or_iff_left ?_
  rintro ⟨answer, member, _⟩
  exact unreplied (moved.explained _ member)

end aside

/-! ### Steps -/

variable {later : Nat}

section steps

variable {system last : System} {action : Action} {events : List Event} {spared : Prop}

theorem Step.attempting (step : Step system action last) (sound : Sound system)
    (moved : Moved system action last events) (attempting : Attempting spared system)
    (spares : spared → ¬Strikes system action) (unrepeated : spared → Unrepeated system) :
    Attempting spared last := by
  intro id scheduled pending rest after found left
  cases step.applies found with
  | kept before aside =>
    obtain ⟨_, _, slot, here, running⟩ := sound.applying _ _ _ _ before
    obtain ⟨attempt, fits, goes, knows⟩ := attempting _ _ _ _ _ before here
    obtain ⟨lowered, begun, wrote⟩ := Step.attempting_aside sound moved before aside here left
    refine ⟨_, ⟨Iff.rfl, ?_⟩, goes.lower (fits.current.mpr ∘ lowered), fun spare => ?_⟩
    · rw [begun]
      exact fits.begun
    · rw [wrote]
      exact knows spare
  | claimed before fresh claimed queue history =>
    obtain ⟨slot, here, idle, queued, now⟩ := PendingSkins.claim_spec claimed
    have own := sound.claim_account claimed
    rw [queue, own, now, Slot.claim_of_queued idle queued] at left
    cases left
    subst fresh
    refine ⟨⟨_, False, False, False, False⟩, ⟨Iff.rfl, iff_of_false not_false nofun⟩,
      Attempt.goes_apply pending not_false not_false,
      fun spare => ⟨not_false, iff_of_false not_false ?_⟩⟩
    rw [history, own]
    rintro ⟨answer, member, effective⟩
    rcases mem_cons.mp member with same | earlier
    · cases same
    · exact unrepeated spare _ _ _ here queued ⟨answer, earlier, effective⟩
  | @replied question answer next before same taken history =>
    obtain ⟨_, owns, slot, here, running⟩ := sound.applying _ _ _ _ before
    obtain ⟨attempt, fits, goes, knows⟩ := attempting _ _ _ _ _ before here
    obtain ⟨answers, now⟩ := answers_of_call owns.1 taken here running left fits
    refine ⟨_, now, same ▸ (goes answer _ ⟨_, fits.current.mpr, answers, rfl⟩).2,
      fun spare => ⟨fun struck => ?_, ?_⟩⟩
    · rcases Attempt.after_struck question answer struck with already | ⟨wrote, stands, refuses⟩
      · exact (knows spare).1 already
      · refine spares spare ⟨_, _, _, before, ?_, refuses, (knows spare).2.mp wrote⟩
        simpa only [PendingSkins.isCurrent, here, any_some] using stands
    · rw [history, Attempt.after_written pending, wrote_append, (knows spare).2]

/-- An effect has begun where a request is about to be sent that writes. -/
theorem Attempting.prepared (attempting : Attempting spared system) : Prepared system := by
  intro id scheduled pending question next slot found send here
  obtain ⟨attempt, fits, goes, _⟩ := attempting _ _ _ _ _ found here
  exact fits.begun.mp (goes.begun send)

/-- What waits after a move waited before, is new, or has been put back because its attempt has
failed in passing although it still stands. -/
theorem Move.unrepeated {slot : Option Slot} {after : Slot} {pending : PendingSkin}
    (move : Move account later now slot events (some after)) (fits : Fits next history account slot)
    (queued : after.queued = some pending)
    (waited : ∀ before waiting, slot = some before → before.queued = some waiting →
      ¬Wrote history account waiting.generation)
    (finished : ∀ before failed outcome error, slot = some before →
      before.running = some failed →
      .finished account failed.generation outcome ∈ events → outcome = .error error →
      Slot.retries (some error) = true → before.isCurrent failed = true →
      ¬Wrote history account failed.generation) :
    ¬Wrote (events.reverse ++ history) account pending.generation := by
  have fresh (unwritten : ∀ answer, .written account pending.generation answer ∉ events)
      (earlier : ¬Wrote history account pending.generation) :
      ¬Wrote (events.reverse ++ history) account pending.generation := by
    rw [wrote_append]
    rintro (wrote | ⟨answer, member, _⟩)
    · exact earlier wrote
    · exact unwritten answer member
  have waits {before : Slot} (here : slot = some before)
      (kept : ∃ waiting, before.queued = some waiting ∧ waiting.accountId = pending.accountId ∧
        waiting.generation = pending.generation)
      (unwritten : ∀ answer, .written account pending.generation answer ∉ events) :
      ¬Wrote (events.reverse ++ history) account pending.generation := by
    obtain ⟨waiting, was, _, same⟩ := kept
    exact fresh unwritten (same ▸ waited before waiting here was)
  have silently (silent : Silent account events) (answer) :
      .written account pending.generation answer ∉ events :=
    fun member => silent _ member _ ⟨rfl, rfl⟩
  cases move with
  | rest silent => exact waits rfl ⟨pending, queued, rfl, rfl⟩ (silently silent)
  | insert own top new =>
    cases queued
    refine fresh (by simp) ?_
    rintro ⟨answer, member, _⟩
    cases slot with
    | none => exact fits _ member _ ⟨rfl, rfl⟩
    | some slot => exact absurd (SlotFits.known fits _ member _ ⟨rfl, rfl⟩) new.not_ge
  | claim idle waiting =>
    rw [Slot.claim_of_queued idle waiting] at queued
    cases queued
  | begin begun =>
    rw [(Slot.beginEffect_of_ok begun).1] at queued
    exact waits rfl ⟨pending, queued, rfl, rfl⟩ (by simp)
  | send _ started => exact waits rfl ⟨pending, queued, rfl, rfl⟩ (by simp)
  | written running =>
    refine waits rfl ⟨pending, queued, rfl, rfl⟩ fun answer member => ?_
    have same := (Event.written.inj (mem_singleton.mp member)).2.1
    exact absurd (SlotFits.apart fits pending _ queued running) same.not_gt
  | @finish slot ended outcome running =>
    obtain ⟨_, _, _, kept | ⟨back, stands, error, failed, retried⟩⟩ :=
      Slot.finish_spec running outcome now
    · exact waits rfl ⟨pending, kept ▸ queued, rfl, rfl⟩ (by simp)
    · cases back.symm.trans queued
      exact fresh (by simp)
        (finished slot ended outcome error rfl running mem_cons_self failed retried stands)
  | cancel answered => exact waits rfl ((taking_cancel answered).queued pending queued) (by simp)
  | library taken _ _ =>
    exact waits rfl ((taking_libraryChanged _ _).queued pending queued) (by simp)
  | remove taken => cases queued
  | expedite silent => exact waits rfl ((calm_expedite _ now).queued pending queued) (silently silent)
  | expediteGeneration silent generation =>
    exact waits rfl ((calm_expediteGeneration _ generation now).queued pending queued)
      (silently silent)
  | rebase before current =>
    exact waits rfl ((calm_rebase _ before current).queued pending queued) nofun

theorem Moved.unrepeated (moved : Moved system action last events) (sound : Sound system)
    (attempting : Attempting spared system) (spare : spared) (unrepeated : Unrepeated system) :
    Unrepeated last := by
  intro account after pending left queued
  have move := moved.moves account
  rw [left] at move
  rw [moved.history]
  refine move.unrepeated (sound.fits account) queued (unrepeated account) ?_
  rintro slot failed outcome error here running member rfl retried stands
  obtain ⟨id, scheduled, ended, rest, _, task, rfl, _, ends⟩ := moved.explained _ member
  obtain ⟨_, _, other, same, runs⟩ := sound.applying _ _ _ _ task
  cases here.symm.trans same
  cases running.symm.trans runs
  obtain ⟨attempt, fits, goes, knows⟩ := attempting _ _ _ _ _ task here
  rw [← (knows spare).2]
  intro wrote
  rcases (goes.ended ends).2 wrote retried with fallen | struck
  · exact fallen (fits.current.mpr stands)
  · exact (knows spare).1 struck

end steps

/-! ### Histories in order -/

/-- Where an event stands in what has happened before it. -/
def Event.Orderly (earlier : List Event) : Event → Prop
  | .began account generation =>
    (∀ other, .accepted account other ∈ earlier → other ≤ generation) ∧
      .cancelled account generation ∉ earlier ∧
      ∀ hits, .withdrawn hits ∈ earlier → ¬hits account generation
  | .sent account generation => .cancelled account generation ∉ earlier
  | .claimed account generation => ¬Wrote earlier account generation
  | _ => True

/-- Every event of a history, newest first, stands as it should to what came before it. -/
def Throughout (stands : List Event → Event → Prop) : List Event → Prop
  | [] => True
  | event :: earlier => stands earlier event ∧ Throughout stands earlier

variable {stands : List Event → Event → Prop} {earlier : List Event}

theorem throughout_append {later : List Event}
    (anywhere : ∀ event ∈ later, ∀ before, stands before event)
    (throughout : Throughout stands earlier) : Throughout stands (later ++ earlier) := by
  induction later with
  | nil => exact throughout
  | cons event later ih =>
    exact ⟨anywhere event mem_cons_self _, ih fun other member =>
      anywhere other (mem_cons_of_mem _ member)⟩

/-- The events of a step stand where they happened; only cancellations come in numbers, and stand
anywhere. -/
theorem throughout_of_step {events : List Event} (plain : (∃ event, events = [event]) ∨
      ∀ event ∈ events, ∃ account generation, event = .cancelled account generation)
    (cancelled : ∀ before account generation, stands before (.cancelled account generation))
    (each : ∀ event ∈ events, stands earlier event) (throughout : Throughout stands earlier) :
    Throughout stands (events.reverse ++ earlier) := by
  rcases plain with ⟨event, rfl⟩ | numbers
  · exact ⟨each event mem_cons_self, throughout⟩
  · refine throughout_append (fun event member before => ?_) throughout
    obtain ⟨account, generation, rfl⟩ := numbers event (mem_reverse.mp member)
    exact cancelled before account generation

/-- A history in which every event stands as it should. -/
def Orderly (history : List Event) : Prop :=
  Throughout (fun earlier event => event.Orderly earlier) history

section order

variable {system last : System} {action : Action} {events : List Event} {spared : Prop}

/-- The order of what a move records. -/
theorem Move.orderly {slot after : Option Slot} {event : Event}
    (move : Move account later now slot events after) (fits : Fits next history account slot)
    (member : event ∈ events) (about : event.About account generation)
    (waited : ∀ before waiting, slot = some before → before.queued = some waiting →
      ¬Wrote history account waiting.generation) : event.Orderly history := by
  cases move with
  | rest silent | expedite silent | expediteGeneration silent other =>
    exact absurd about (silent event member generation)
  | insert | written | finish | library | remove =>
    cases mem_singleton.mp member
    trivial
  | claim idle queued =>
    cases mem_singleton.mp member
    exact waited _ _ rfl queued
  | begin begun =>
    cases mem_singleton.mp member
    obtain ⟨_, uncancelled, newest, running⟩ := Slot.beginEffect_of_ok begun
    refine ⟨fun other accepted => ?_, fun cancelled => ?_, fun hits withdrawn hit => ?_⟩
    · exact (SlotFits.known fits _ accepted other ⟨rfl, rfl⟩).trans_eq newest
    · have struck := ((SlotFits.cancelled fits _ cancelled).2 running).1
      rw [uncancelled] at struck
      cases struck
    · have struck := (SlotFits.withdrawn fits hits withdrawn _ hit).2 running
      rw [uncancelled] at struck
      cases struck
  | send running started =>
    cases mem_singleton.mp member
    intro cancelled
    have unbegun := ((SlotFits.cancelled fits _ cancelled).2
      (Slot.isGeneration_iff.mpr ⟨_, running, rfl⟩)).2
    rw [started] at unbegun
    cases unbegun
  | cancel answered =>
    obtain ⟨id, _, rfl⟩ := List.mem_map.mp member
    trivial
  | rebase before current => cases member

/-- Every event is about some choice, or stands anywhere. -/
theorem Event.about_or (event : Event) :
    (∃ account generation, event.About account generation) ∨ ∀ earlier, event.Orderly earlier := by
  cases event with
  | withdrawn | told => exact .inr fun _ => trivial
  | _ => exact .inl ⟨_, _, rfl, rfl⟩

theorem Moved.orderly (moved : Moved system action last events) (sound : Sound system)
    (unrepeated : Unrepeated system) (orderly : Orderly system.history) :
    Orderly last.history := by
  rw [moved.history]
  refine throughout_of_step moved.plain (fun _ _ _ => trivial) (fun event member => ?_) orderly
  rcases event.about_or with ⟨account, generation, about⟩ | anywhere
  · exact (moved.moves account).orderly (sound.fits account) member about (unrepeated account)
  · exact anywhere _

/-! ### Runs -/

/-- What is never repeated, and in what order things have happened. -/
structure Linearizable (system : System) : Prop where
  /-- At most one choice of an account is applied. -/
  single : ∀ id other scheduled claimed pending choice rest later,
    system.tasks id = some (.worker ⟨scheduled, .applying pending rest⟩) →
      system.tasks other = some (.worker ⟨claimed, .applying choice later⟩) →
        pending.accountId = choice.accountId → id = other
  orderly : Orderly system.history
  unrepeated : Unrepeated system

/-- A step of the service in which the account service does not fail in passing after a write of
a choice that still stands. -/
def SparedStep (before after : System) : Prop :=
  ∃ action, Step before action after ∧ ¬Strikes before action

/-- What holds of the service in all such runs. -/
structure Spared (system : System) : Prop where
  sound : Sound system
  attempting : Attempting True system
  unrepeated : Unrepeated system
  orderly : Orderly system.history

theorem sound_initial : Sound .initial where
  fits _ := fun _ member => nomatch member
  gated _ _ _ found := by cases found
  applying _ _ _ _ found := by cases found
  resetting _ _ _ _ found := by cases found
  running _ _ _ found := by cases found

theorem spared_initial : Spared .initial where
  sound := sound_initial
  attempting _ _ _ _ _ found := by cases found
  unrepeated _ _ _ found := by cases found
  orderly := trivial

theorem Spared.step {before after : System} (spared : Spared before)
    (step : SparedStep before after) : Spared after := by
  obtain ⟨action, step, spares⟩ := step
  have prepared := spared.attempting.prepared
  obtain ⟨events, moved⟩ := step.move spared.sound prepared
  exact
    { sound := step.sound spared.sound prepared
      attempting := step.attempting spared.sound moved spared.attempting (fun _ => spares)
        fun _ => spared.unrepeated
      unrepeated := moved.unrepeated spared.sound spared.attempting trivial spared.unrepeated
      orderly := moved.orderly spared.sound spared.unrepeated spared.orderly }

theorem Sound.single (sound : Sound system) {other : TaskId} {claimed pending choice : PendingSkin}
    {later : SkinProgram Unit}
    (found : system.tasks id = some (.worker ⟨scheduled, .applying pending rest⟩))
    (task : system.tasks other = some (.worker ⟨claimed, .applying choice later⟩))
    (same : pending.accountId = choice.accountId) : id = other := by
  have mine := sound.gated id _ _ found rfl
  have theirs := sound.gated other _ _ task rfl
  rw [(sound.applying id _ _ _ found).1, same, ← (sound.applying other _ _ _ task).1] at mine
  exact Option.some.inj (mine.symm.trans theirs)

theorem Spared.linearizable (spared : Spared system) : Linearizable system where
  single _ _ _ _ _ _ _ _ := spared.sound.single
  orderly := spared.orderly
  unrepeated := spared.unrepeated

end order

/-- In every run in which the account service does not fail in passing after a write of a choice
that still stands, at most one choice of an account is applied at a time, effects begin for the
newest choice that was not taken back, cancelled choices are not written, and no choice waits or
is claimed again that may have been written. -/
theorem linearizable_of_run {system : System}
    (run : Relation.ReflTransGen SparedStep .initial system) : Linearizable system :=
  (@Runs.invariant _ _ Spared (fun _ _ step spared => spared.step step) _ _ run
    spared_initial).linearizable

/-! ### A choice that is repeated -/

/-- A step with an action that is allowed in the state before. -/
def AllowedStep (allowed : System → Action → Prop) (before after : System) : Prop :=
  ∃ action, Step before action after ∧ allowed before action

/-- The service comes to this state in some run. -/
def Reachable (system : System) : Prop :=
  Relation.ReflTransGen (fun before after => ∃ action, Step before action after) .initial system

theorem reachable_of_allowed {allowed : System → Action → Prop} {system : System}
    (run : Relation.ReflTransGen (AllowedStep allowed) .initial system) : Reachable system :=
  run.lift id fun _ _ ⟨action, step, _⟩ => ⟨action, step⟩

/-- A run of allowed steps comes to where the first task has these calls of an attempt still to
make, and nobody but the first caller waits. -/
def Applying (allowed : System → Action → Prop) (scheduled pending : PendingSkin)
    (state : PendingSkins) (history : List Event) (rest : SkinProgram Unit) : Prop :=
  ∃ system, Relation.ReflTransGen (AllowedStep allowed) .initial system ∧
    system.pending = state ∧ system.history = history ∧
    system.callers = Function.update (fun _ => none) 0
      (some ⟨[], .entered pending.accountId pending.generation⟩) ∧
    system.tasks 0 = some (.worker ⟨scheduled, .applying pending rest⟩)

/-- The steps of one worker are allowed, up to passing failures of the account service. -/
structure Lenient (allowed : System → Action → Prop) : Prop where
  queue : ∀ system capture textureKey skinRevision,
    allowed system (.queue capture textureKey skinRevision)
  flush : ∀ system account, (∀ id, system.callers id = none) →
    allowed system (.flushAccount account)
  enterGate : ∀ system id, allowed system (.enterGate id)
  claim : ∀ system id, allowed system (.claim id)
  reply : ∀ system id question answer, refusesPassing question answer = false →
    allowed system (.reply id question answer)

theorem lenient_spared : Lenient fun system action => ¬Strikes system action where
  queue _ _ _ _ := id
  flush _ _ _ := id
  enterGate _ _ := id
  claim _ _ := id
  reply _ _ _ _ granted := by
    rintro ⟨_, _, _, _, _, refused, _⟩
    rw [granted] at refused
    cases refused

theorem lenient_all : Lenient fun _ _ => True :=
  ⟨fun _ _ _ _ => trivial, fun _ _ _ => trivial, fun _ _ => trivial, fun _ _ => trivial,
    fun _ _ _ _ _ => trivial⟩

variable {allowed : System → Action → Prop}

theorem Applying.reply {scheduled pending : PendingSkin} {state after : PendingSkins}
    {history : List Event} {question : SkinCall} {next : question.Answer → SkinProgram Unit}
    (lenient : Lenient allowed)
    (applying : Applying allowed scheduled pending state history (.call question next))
    (answer : question.Answer) (granted : refusesPassing question answer = false)
    (taken : callEffect question state answer after) :
    Applying allowed scheduled pending after
      ((callEvents pending question answer).reverse ++ history) (next answer) := by
  obtain ⟨system, reached, rfl, rfl, callers, task⟩ := applying
  exact ⟨_, reached.tail ⟨_, .reply task taken, lenient.reply _ _ _ _ granted⟩, rfl, rfl, callers,
    by simp⟩

/-- An account of a player whose profile has neither skins nor capes. -/
def bareAccount : CapturedAccount where
  record :=
    { accountId := ⟨"a"⟩
      kind := .microsoft
      displayName := "Player"
      loginId := some "l"
      minecraftProfileId := some "p"
      offlineUuid := none
      minecraftProfile := none
      ownsMinecraftJava := true
      accountRevision := 1
      profileRevision := 1
      credentialRevision := 1
      createdRevision := 1
      createdAt := ""
      updatedAt := "" }
  selectionRevision := 1
  selectedAccountId := none
  mode := .online

def bareProfile : MinecraftProfile := ⟨"p", "Player", [], []⟩

def bareCredentials : Credentials := ⟨"m", none, 0, "t", 0⟩

def bareSkin : SavedSkinSnapshot := ⟨"t", .classic, none, 0⟩

/-- The first choice that is queued for this account. -/
def bareChoice : PendingSkin := ⟨"a", 1, 1, 1, "t", 0, 1, 0⟩

/-- The slot while the choice is applied. -/
def bareSlot (started : Bool) : Slot := ⟨none, some bareChoice, 1, started, false, none, none⟩

def bareSkins (slot : Slot) : PendingSkins := PendingSkins.put ⟨1, fun _ => none⟩ "a" slot

theorem bareSkins_accounts (slot : Slot) : (bareSkins slot).accounts "a" = some slot := by
  simp [bareSkins, PendingSkins.put]

theorem bareSkins_withSlot {Value : Type} (slot : Slot) (change : Slot → Slot × Value)
    (absent : Value) :
    (bareSkins slot).withSlot "a" change absent = (bareSkins (change slot).1, (change slot).2) := by
  unfold PendingSkins.withSlot
  rw [bareSkins_accounts]
  simp [bareSkins, PendingSkins.put]

theorem entered_of_expedited {expedited : PendingSkins × Option Nat} {pending : PendingSkins}
    {generation : Nat} (same : expedited = (pending, some generation)) (account : String) :
    (match expedited.2 with
      | some generation => CallerStage.entered account generation
      | none => .between) = .entered account generation := by
  rw [same]

theorem applying_bareChoice (lenient : Lenient allowed) :
    Applying allowed { bareChoice with due := 10 } bareChoice (bareSkins (bareSlot false))
      [.claimed "a" 1, .accepted "a" 1] (apply bareChoice) := by
  have queued : System.initial.pending.queue bareAccount "t" 0 0 =
      some (bareSkins (Slot.initial.insert { bareChoice with due := 10 }),
        { bareChoice with due := 10 }) := rfl
  have expedited : (bareSkins (Slot.initial.insert { bareChoice with due := 10 })).expedite "a" 0 =
      (bareSkins (Slot.initial.insert bareChoice), some 1) := bareSkins_withSlot _ _ _
  have claimed : (bareSkins (Slot.initial.insert bareChoice)).claim "a" (some 1) =
      (bareSkins (bareSlot false), .ok (some bareChoice)) := bareSkins_withSlot _ _ _
  have due : (bareSkins (Slot.initial.insert bareChoice)).dueGeneration "a" 1 = some 0 := by
    rw [PendingSkins.dueGeneration, PendingSkins.queued, bareSkins_accounts]
    rfl
  have first : Relation.ReflTransGen (AllowedStep allowed) .initial _ :=
    Relation.ReflTransGen.refl.tail ⟨_, .queue 0 rfl queued, lenient.queue _ _ _ _⟩
  have second : Relation.ReflTransGen (AllowedStep allowed) .initial _ :=
    first.tail ⟨_, @Step.flushAccount _ "a" 0 rfl, lenient.flush _ _ fun _ => rfl⟩
  have third : Relation.ReflTransGen (AllowedStep allowed) .initial _ := second.tail ⟨_, @Step.enterGate _ 0 { bareChoice with due := 10 } 0
    (by simp) ((congrArg (fun found => found.1.dueGeneration "a" 1) expedited).trans due)
    le_rfl rfl, lenient.enterGate _ _⟩
  have fourth : Relation.ReflTransGen (AllowedStep allowed) .initial _ := third.tail ⟨_, @Step.claim _ 0 { bareChoice with due := 10 }
    bareChoice (by simp) ((congrArg (fun found => (found.1.claim "a" (some 1)).2) expedited).trans
      (congrArg Prod.snd claimed)), lenient.claim _ _⟩
  refine ⟨_, fourth, ?_, rfl, ?_, by simp⟩
  · exact (congrArg (fun found => (found.1.claim "a" (some 1)).1) expedited).trans
      (congrArg Prod.fst claimed)
  · exact congrArg (fun stage => Function.update (fun _ => none) 0 (some (Caller.mk [] stage)))
      (entered_of_expedited expedited "a")

/-- The choice has been written, and the worker asks whether it still stands. -/
theorem applying_bareChoice_written (lenient : Lenient allowed) :
    Applying allowed { bareChoice with due := 10 } bareChoice (bareSkins (bareSlot true))
      [.written "a" 1 (.ok (some bareProfile)), .sent "a" 1, .began "a" 1, .claimed "a" 1,
        .accepted "a" 1]
      (applyUploaded bareChoice bareAccount "t" "p" none bareProfile) := by
  have begun : (bareSkins (bareSlot false)).beginEffect bareChoice =
      (bareSkins (bareSlot true), .ok ()) := bareSkins_withSlot _ _ _
  have captured := (applying_bareChoice lenient).reply lenient (.ok bareAccount) rfl rfl
  have known := captured.reply lenient (.ok bareCredentials) rfl rfl
  have synced := known.reply lenient (.ok bareProfile) rfl ⟨rfl, nofun⟩
  have found := synced.reply lenient (.ok (some bareSkin)) rfl rfl
  have read := found.reply lenient (.ok (some .empty)) rfl rfl
  have checked := read.reply lenient (.ok ()) rfl rfl
  have started := checked.reply lenient (.ok (.ok ())) rfl (.inr (.inr ⟨congrArg Prod.fst begun.symm,
    congrArg (Except.ok ∘ Prod.snd) begun.symm⟩))
  have noted := started.reply lenient () rfl rfl
  have normalized := noted.reply lenient (.ok .empty) rfl ⟨rfl, nofun⟩
  have sent := normalized.reply lenient () rfl rfl
  exact sent.reply lenient (.ok (some bareProfile)) rfl ⟨rfl, nofun⟩

theorem bareSkins_isCurrent (started : Bool) :
    (bareSkins (bareSlot started)).isCurrent bareChoice = true := by
  rw [PendingSkins.isCurrent, show bareChoice.accountId = "a" from rfl, bareSkins_accounts]
  rfl

/-- A spared run in which a choice is written. -/
theorem linearizable_of_run_written : ∃ system,
    .written "a" 1 (.ok (some bareProfile)) ∈ system.history ∧ Linearizable system := by
  obtain ⟨system, run, _, history, _⟩ := applying_bareChoice_written lenient_spared
  refine ⟨system, ?_, linearizable_of_run run⟩
  rw [history]
  exact mem_cons_self

/-- The account service fails in passing after the upload, and the choice that has been written
waits again. -/
theorem exists_repeated : ∃ system, Reachable system ∧ ¬Linearizable system := by
  have finished (now : Nat) : (bareSkins (bareSlot true)).finish bareChoice
      (.error .unavailable) now = bareSkins
        { queued := some { bareChoice with due := now + 10 }
          running := none
          generation := 1
          effectStarted := true
          cancelled := false
          error := some .unavailable
          completed := some (1, .error .unavailable) } :=
    congrArg Prod.fst (bareSkins_withSlot (bareSlot true)
      (fun slot => (slot.finish bareChoice (.error .unavailable) now, ())) ())
  obtain ⟨system, run, written, happened, _, task⟩ :=
    (applying_bareChoice_written lenient_all).reply lenient_all true rfl ⟨rfl, (bareSkins_isCurrent true).symm⟩
  -- The check of the account fails, and with it the attempt.
  obtain ⟨refused, reached, pending, history, task⟩ : ∃ refused, Reachable refused ∧
      refused.pending = system.pending ∧ refused.history = system.history ∧
      refused.tasks 0 = some (.worker ⟨{ bareChoice with due := 10 },
        .applying bareChoice (.fail .unavailable)⟩) := by
    refine ⟨_, (reachable_of_allowed run).tail ⟨_, .reply task (show callEffect
      (.checkCapture bareAccount) _ (.error .unavailable) system.pending from rfl)⟩, rfl, rfl, ?_⟩
    rw [System.record_tasks, System.withTask_tasks, Function.update_self]
    rfl
  refine ⟨_, reached.tail ⟨_, .finish task (.fail .unavailable)⟩, fun linearizable => ?_⟩
  have waits := (congrArg (fun state =>
    (state.finish bareChoice (.error .unavailable) refused.now).accounts "a")
      (pending.trans written)).trans
        ((congrArg (·.accounts "a") (finished refused.now)).trans (bareSkins_accounts _))
  refine linearizable.unrepeated "a" _ _ waits rfl ⟨.ok (some bareProfile), ?_, rfl⟩
  rw [System.record_history, System.withTask_history, history, happened]
  exact mem_cons_of_mem _ mem_cons_self

end Axial.Skins
