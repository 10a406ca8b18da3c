/-
This file says once what a step of the service can do to the slot of one account, together
with what is recorded of it, and derives what is true of every slot at all times: the choice
that waits is the newest one, and a choice that was cancelled or withdrawn neither waits nor
runs uncancelled.
-/

import Axial.Skins.Service

namespace Axial.Skins

open Accounts List Option Slot

/-- The event is about a choice of the account. -/
def Event.About (account : String) (generation : Nat) : Event → Prop
  | .accepted other id | .cancelled other id | .claimed other id | .began other id
  | .sent other id | .written other id _ | .finished other id _ =>
    other = account ∧ id = generation
  | .withdrawn hits => hits account generation
  | .told _ _ _ => False

/-- Nothing of the account is recorded. -/
def Silent (account : String) (events : List Event) : Prop :=
  ∀ event ∈ events, ∀ generation, ¬event.About account generation

/-- What a step does to the slot of an account, and what it records. -/
inductive Move (account : String) (next now : Nat) : Option Slot → List Event → Option Slot → Prop
  | rest {slot events} (silent : Silent account events) : Move account next now slot events slot
  | insert {slot pending} (own : pending.accountId = account) (top : pending.generation ≤ next)
      (fresh : (slot.getD .initial).generation < pending.generation) :
      Move account next now slot [.accepted account pending.generation]
        (some ((slot.getD .initial).insert pending))
  | claim {slot pending} (idle : slot.running = none) (queued : slot.queued = some pending) :
      Move account next now (some slot) [.claimed account pending.generation]
        (some (slot.claim none).1)
  | begin {slot pending} (begun : (slot.beginEffect pending).2 = .ok ()) :
      Move account next now (some slot) [.began account pending.generation]
        (some (slot.beginEffect pending).1)
  | send {slot pending} (running : slot.running = some pending) (started : slot.effectStarted) :
      Move account next now (some slot) [.sent account pending.generation] (some slot)
  | written {slot pending answer} (running : slot.running = some pending) :
      Move account next now (some slot) [.written account pending.generation answer] (some slot)
  | finish {slot pending outcome} (running : slot.running = some pending) :
      Move account next now (some slot) [.finished account pending.generation outcome]
        (some (slot.finish pending outcome now))
  | cancel {slot generation} (answered : (slot.cancel generation).2 = .ok true) :
      Move account next now (some slot) ((slot.cancelHits generation).map (.cancelled account))
        (some (slot.cancel generation).1)
  | library {slot change hits}
      (taken : ∀ generation, hits account generation →
        (Slot.isGeneration slot.queued generation ∧
          ¬Slot.isGeneration (slot.libraryChanged change).queued generation) ∨
        (Slot.isGeneration slot.running generation ∧ (slot.libraryChanged change).cancelled))
      (dropped : ∀ generation, Slot.isGeneration slot.queued generation →
        ¬Slot.isGeneration (slot.libraryChanged change).queued generation → hits account generation)
      (struck : ∀ generation, Slot.isGeneration slot.running generation → slot.cancelled = false →
        (slot.libraryChanged change).cancelled → hits account generation) :
      Move account next now (some slot) [.withdrawn hits] (some (slot.libraryChanged change))
  | remove {slot hits}
      (taken : ∀ generation, hits account generation ↔ Slot.isGeneration slot.queued generation ∨
        Slot.isGeneration slot.running generation) :
      Move account next now (some slot) [.withdrawn hits] (some slot.invalidate)
  | expedite {slot events} (silent : Silent account events) :
      Move account next now (some slot) events (some (slot.expedite now).1)
  | expediteGeneration {slot events} (silent : Silent account events) (generation : Nat) :
      Move account next now (some slot) events (some (slot.expediteGeneration generation now).1)
  | rebase {slot} (before after : CapturedAccount) :
      Move account next now (some slot) [] (some (slot.rebase before after))

/-! ### What is true of a slot -/

namespace Slot

theorem isGeneration_iff {entry : Option PendingSkin} {generation : Nat} :
    isGeneration entry generation = true ↔
      ∃ pending, entry = some pending ∧ pending.generation = generation := by
  cases entry <;> simp [isGeneration]

end Slot

/-- The slot fits what has happened. -/
structure SlotFits (next : Nat) (history : List Event) (account : String) (slot : Slot) : Prop where
  newest : slot.generation ≤ next
  queued : ∀ pending, slot.queued = some pending →
    pending.accountId = account ∧ pending.generation = slot.generation
  running : ∀ pending, slot.running = some pending →
    pending.accountId = account ∧ pending.generation ≤ slot.generation
  /-- What runs is older than what waits. -/
  apart : ∀ waiting pending, slot.queued = some waiting → slot.running = some pending →
    pending.generation < waiting.generation
  known : ∀ event ∈ history, ∀ generation, event.About account generation →
    generation ≤ slot.generation
  cancelled : ∀ generation, .cancelled account generation ∈ history →
    ¬Slot.isGeneration slot.queued generation ∧
      (Slot.isGeneration slot.running generation → slot.cancelled ∧ slot.effectStarted = false)
  withdrawn : ∀ hits, .withdrawn hits ∈ history → ∀ generation, hits account generation →
    ¬Slot.isGeneration slot.queued generation ∧
      (Slot.isGeneration slot.running generation → slot.cancelled)

/-- An account fits what has happened; without a slot, nothing has. -/
def Fits (next : Nat) (history : List Event) (account : String) : Option Slot → Prop
  | none => Silent account history
  | some slot => SlotFits next history account slot

variable {next later now : Nat} {history events : List Event} {account : String}

theorem Silent.append (early : Silent account history) (late : Silent account events) :
    Silent account (events.reverse ++ history) := by
  intro event member
  rcases mem_append.mp member with inside | inside
  · exact late event (mem_reverse.mp inside)
  · exact early event inside

variable {slot : Slot}

/-- Events about other accounts change nothing, nor do more generations. -/
theorem SlotFits.mono (fits : SlotFits next history account slot) (more : next ≤ later)
    (silent : Silent account events) : SlotFits later (events.reverse ++ history) account slot := by
  have earlier {event : Event} (member : event ∈ events.reverse ++ history) {generation : Nat}
      (about : event.About account generation) : event ∈ history := by
    rcases mem_append.mp member with inside | inside
    · exact absurd about (silent event (mem_reverse.mp inside) generation)
    · exact inside
  exact
    { fits with
      newest := fits.newest.trans more
      known := fun event member generation about =>
        fits.known event (earlier member about) generation about
      cancelled := fun generation member => fits.cancelled generation (earlier member ⟨rfl, rfl⟩)
      withdrawn := fun hits member generation hit =>
        fits.withdrawn hits (earlier member hit) generation hit }

/-- A change of the slot that nothing of the above sees. -/
structure Calm (slot after : Slot) : Prop where
  generation : after.generation = slot.generation
  running : after.running = slot.running
  cancelled : after.cancelled = slot.cancelled
  effectStarted : after.effectStarted = slot.effectStarted
  queued : ∀ pending, after.queued = some pending → ∃ waiting, slot.queued = some waiting ∧
    waiting.accountId = pending.accountId ∧ waiting.generation = pending.generation

variable {after : Slot}

theorem Calm.isGeneration (calm : Calm slot after) {generation : Nat}
    (is : Slot.isGeneration after.queued generation = true) :
    Slot.isGeneration slot.queued generation = true := by
  obtain ⟨pending, queued, same⟩ := isGeneration_iff.mp is
  obtain ⟨waiting, before, _, equal⟩ := calm.queued pending queued
  exact isGeneration_iff.mpr ⟨waiting, before, equal.trans same⟩

theorem SlotFits.grow (fits : SlotFits next history account slot) (more : next ≤ later) :
    SlotFits later history account slot := by
  have silent : Silent account [] := nofun
  exact fits.mono more silent

theorem SlotFits.calm (fits : SlotFits next history account slot) (calm : Calm slot after) :
    SlotFits next history account after where
  newest := by
    rw [calm.generation]
    exact fits.newest
  queued pending queued := by
    obtain ⟨waiting, before, own, same⟩ := calm.queued pending queued
    rw [calm.generation, ← own, ← same]
    exact fits.queued waiting before
  running pending running := by
    rw [calm.generation]
    exact fits.running pending (calm.running ▸ running)
  apart pending other queued running := by
    obtain ⟨waiting, before, _, same⟩ := calm.queued pending queued
    rw [← same]
    exact fits.apart waiting other before (calm.running ▸ running)
  known event member generation about := by
    rw [calm.generation]
    exact fits.known event member generation about
  cancelled generation member := by
    rw [calm.running, calm.cancelled, calm.effectStarted]
    exact ⟨mt calm.isGeneration (fits.cancelled generation member).1,
      (fits.cancelled generation member).2⟩
  withdrawn hits member generation hit := by
    rw [calm.running, calm.cancelled]
    exact ⟨mt calm.isGeneration (fits.withdrawn hits member generation hit).1,
      (fits.withdrawn hits member generation hit).2⟩

theorem calm_expedite (slot : Slot) (now : Nat) : Calm slot (slot.expedite now).1 := by
  unfold Slot.expedite
  split
  · rename_i entry queued
    refine ⟨rfl, rfl, rfl, rfl, fun pending same => ?_⟩
    cases same
    exact ⟨entry, queued, rfl, rfl⟩
  · exact ⟨rfl, rfl, rfl, rfl, fun pending same => ⟨pending, same, rfl, rfl⟩⟩

theorem calm_refl (slot : Slot) : Calm slot slot :=
  ⟨rfl, rfl, rfl, rfl, fun pending same => ⟨pending, same, rfl, rfl⟩⟩

theorem calm_expediteGeneration (slot : Slot) (generation now : Nat) :
    Calm slot (slot.expediteGeneration generation now).1 := by
  unfold Slot.expediteGeneration
  split
  · exact calm_refl slot
  · split
    · rename_i entry queued
      split
      · refine ⟨rfl, rfl, rfl, rfl, fun pending same => ?_⟩
        cases same
        exact ⟨entry, queued, rfl, rfl⟩
      · exact calm_refl slot
    · exact calm_refl slot

theorem calm_rebase (slot : Slot) (before after : CapturedAccount) :
    Calm slot (slot.rebase before after) := by
  refine ⟨rfl, rfl, rfl, rfl, fun pending same => ?_⟩
  obtain ⟨waiting, queued, rfl⟩ := map_eq_some_iff.mp same
  refine ⟨waiting, queued, ?_⟩
  split <;> exact ⟨rfl, rfl⟩

/-! ### Moves keep the fit -/

/-- The choice neither waits nor runs uncancelled. -/
def Slot.Gone (slot : Slot) (generation : Nat) : Prop :=
  ¬Slot.isGeneration slot.queued generation ∧
    (Slot.isGeneration slot.running generation → slot.cancelled)

theorem SlotFits.record {slot : Slot} {event : Event} (fits : SlotFits next history account slot)
    (bound : ∀ generation, event.About account generation → generation ≤ slot.generation)
    (cancelled : ∀ generation, event = .cancelled account generation →
      slot.Gone generation ∧ (Slot.isGeneration slot.running generation → slot.effectStarted = false))
    (withdrawn : ∀ hits, event = .withdrawn hits → ∀ generation, hits account generation →
      slot.Gone generation) :
    SlotFits next (event :: history) account slot :=
  { fits with
    known := by
      intro other member generation about
      rcases mem_cons.mp member with rfl | earlier
      · exact bound generation about
      · exact fits.known other earlier generation about
    cancelled := by
      intro generation member
      rcases mem_cons.mp member with same | earlier
      · obtain ⟨⟨waits, runs⟩, begun⟩ := cancelled generation same.symm
        exact ⟨waits, fun running => ⟨runs running, begun running⟩⟩
      · exact fits.cancelled generation earlier
    withdrawn := by
      intro hits member generation hit
      rcases mem_cons.mp member with same | earlier
      · exact withdrawn hits same.symm generation hit
      · exact fits.withdrawn hits earlier generation hit }

/-- An event that takes no choice. -/
theorem SlotFits.note {event : Event} (fits : SlotFits next history account slot) (generation : Nat)
    (about : ∀ other, event.About account other → other = generation)
    (bound : generation ≤ slot.generation) (plain : ∀ other, event ≠ .cancelled account other)
    (unedited : ∀ hits, event ≠ .withdrawn hits) : SlotFits next (event :: history) account slot :=
  fits.record (fun other is => (about other is).trans_le bound)
    (fun other same => absurd same (plain other)) fun hits same => absurd same (unedited hits)

theorem SlotFits.insert {slot : Slot} {pending : PendingSkin}
    (fits : SlotFits next history account slot) (own : pending.accountId = account)
    (top : pending.generation ≤ later) (fresh : slot.generation < pending.generation) :
    SlotFits later history account (slot.insert pending) where
  newest := top
  queued other same := by
    cases same
    exact ⟨own, rfl⟩
  running other running := by
    obtain ⟨mine, old⟩ := fits.running other running
    exact ⟨mine, old.trans fresh.le⟩
  apart waiting other same running := by
    cases same
    exact (fits.running other running).2.trans_lt fresh
  known event member generation about :=
    (fits.known event member generation about).trans fresh.le
  cancelled generation member := by
    refine ⟨fun is => ?_, (fits.cancelled generation member).2⟩
    obtain ⟨other, same, rfl⟩ := isGeneration_iff.mp is
    cases same
    exact absurd (fits.known _ member _ ⟨rfl, rfl⟩) (by omega)
  withdrawn hits member generation hit := by
    refine ⟨fun is => ?_, (fits.withdrawn hits member generation hit).2⟩
    obtain ⟨other, same, rfl⟩ := isGeneration_iff.mp is
    cases same
    exact absurd (fits.known _ member _ hit) (by omega)

/-- The slot of an account that had none. -/
theorem slotFits_initial (silent : Silent account history) :
    SlotFits next history account .initial where
  newest := Nat.zero_le next
  queued _ same := by cases same
  running _ same := by cases same
  apart _ _ same := by cases same
  known event member generation about := absurd about (silent event member generation)
  cancelled generation member := absurd ⟨rfl, rfl⟩ (silent _ member generation)
  withdrawn hits member generation hit := absurd hit (silent _ member generation)

variable {pending : PendingSkin} {generation : Option Nat}

namespace Slot

/-- What a claim makes of a slot that it takes a choice from. -/
theorem claim_of_queued (idle : slot.running = none) (queued : slot.queued = some pending) :
    slot.claim none =
      ({ slot with
          queued := none
          running := some pending
          cancelled := false
          effectStarted := false }, .ok (some pending)) := by
  simp [claim, idle, queued]

/-- A claim that takes a choice does so whatever generation it asked for. -/
theorem claim_of_ok (claimed : (slot.claim generation).2 = .ok (some pending)) :
    slot.running = none ∧ slot.queued = some pending ∧
      (slot.claim generation).1 = (slot.claim none).1 := by
  unfold claim at claimed ⊢
  split at claimed
  · cases claimed
  · rename_i idle
    have none : slot.running = none := by simpa using idle
    split at claimed
    · cases claimed
    · rename_i other queued
      split at claimed
      · cases claimed
      · cases claimed
        refine ⟨none, queued, ?_⟩
        simp_all

theorem beginEffect_of_ok (begun : (slot.beginEffect pending).2 = .ok ()) :
    (slot.beginEffect pending).1 = { slot with effectStarted := true } ∧
      slot.cancelled = false ∧ slot.generation = pending.generation ∧
      isGeneration slot.running pending.generation = true := by
  unfold beginEffect at begun ⊢
  split at begun
  · cases begun
  split at begun
  · cases begun
  · rename_i standing runs
    obtain ⟨uncancelled, same⟩ := not_or.mp standing
    rw [if_neg standing, if_neg runs]
    exact ⟨rfl, by simpa using uncancelled, not_not.mp same, by simpa using runs⟩

theorem beginEffect_of_error {error : ProfileMediaError}
    (refused : (slot.beginEffect pending).2 = .error error) :
    (slot.beginEffect pending).1 = slot ∧ error = .cancelled ∧
      (isGeneration slot.running pending.generation → slot.isCurrent pending = false) := by
  unfold beginEffect at refused ⊢
  split at refused
  · rename_i fallen
    cases refused
    rw [if_pos fallen]
    refine ⟨rfl, rfl, fun _ => ?_⟩
    rcases fallen with cancelled | other
    · simp [isCurrent, cancelled]
    · simp [isCurrent, other]
  split at refused
  · rename_i standing idle
    cases refused
    rw [if_neg standing, if_pos idle]
    exact ⟨rfl, rfl, fun runs => by simp [runs] at idle⟩
  · cases refused

end Slot

theorem SlotFits.claim {slot : Slot} {pending : PendingSkin}
    (fits : SlotFits next history account slot) (idle : slot.running = none)
    (queued : slot.queued = some pending) :
    SlotFits next history account (slot.claim none).1 := by
  rw [claim_of_queued idle queued]
  obtain ⟨own, top⟩ := fits.queued pending queued
  have waits {generation : Nat} (is : Slot.isGeneration (some pending) generation = true) :
      Slot.isGeneration slot.queued generation = true := queued ▸ is
  exact
    { newest := fits.newest
      queued := nofun
      running := fun other same => by
        cases same
        exact ⟨own, top.le⟩
      apart := nofun
      known := fits.known
      cancelled := fun generation member =>
        ⟨nofun, fun runs => absurd (waits runs) (fits.cancelled generation member).1⟩
      withdrawn := fun hits member generation hit =>
        ⟨nofun, fun runs => absurd (waits runs) (fits.withdrawn hits member generation hit).1⟩ }

/-- The effect of a choice begins only while the choice stands. -/
theorem SlotFits.begin {slot : Slot} {pending : PendingSkin}
    (fits : SlotFits next history account slot) (begun : (slot.beginEffect pending).2 = .ok ()) :
    SlotFits next history account (slot.beginEffect pending).1 := by
  obtain ⟨same, uncancelled, _, _⟩ := beginEffect_of_ok begun
  rw [same]
  exact
    { fits with
      cancelled := fun generation member =>
        ⟨(fits.cancelled generation member).1, fun runs => by
          have struck := ((fits.cancelled generation member).2 runs).1
          rw [uncancelled] at struck
          cases struck⟩ }

namespace Slot

/-- What `finish` leaves: nothing runs, and what waits waited before or is the choice itself, put
back because it still stands. -/
theorem finish_spec (running : slot.running = some pending) (outcome : Outcome) (now : Nat) :
    (slot.finish pending outcome now).running = none ∧
      (slot.finish pending outcome now).generation = slot.generation ∧
      (slot.finish pending outcome now).completed = some (pending.generation, outcome) ∧
      ((slot.finish pending outcome now).queued = slot.queued ∨
        ((slot.finish pending outcome now).queued =
            some { pending with due := now + skinChangeDebounce } ∧
          slot.isCurrent pending = true ∧
          ∃ error, outcome = .error error ∧ retries (some error) = true)) := by
  unfold finish
  rw [if_neg (by simp [isGeneration, running])]
  dsimp only
  split
  · exact ⟨rfl, rfl, rfl, .inl rfl⟩
  · rename_i standing
    cases outcome with
    | ok => simp [retries]
    | error error =>
      by_cases retried : retries (some error) = true ∧ (!slot.cancelled) = true
      · rw [if_pos retried]
        refine ⟨rfl, rfl, rfl, .inr ⟨rfl, ?_, error, rfl, retried.1⟩⟩
        simp only [isCurrent, retried.2, Bool.true_and, decide_eq_true_eq]
        exact not_not.mp standing
      · rw [if_neg retried]
        exact ⟨rfl, rfl, rfl, .inl rfl⟩

@[simp]
theorem takeQueued_queued (slot : Slot) : slot.takeQueued.queued = none := by
  unfold takeQueued
  split
  · rfl
  · rename_i none
    simpa using none

@[simp]
theorem takeQueued_running (slot : Slot) : slot.takeQueued.running = slot.running := by
  unfold takeQueued
  split <;> rfl

@[simp]
theorem takeQueued_generation (slot : Slot) : slot.takeQueued.generation = slot.generation := by
  unfold takeQueued
  split <;> rfl

@[simp]
theorem takeQueued_effectStarted (slot : Slot) :
    slot.takeQueued.effectStarted = slot.effectStarted := by
  unfold takeQueued
  split <;> rfl

@[simp]
theorem takeQueued_cancelled (slot : Slot) : slot.takeQueued.cancelled = slot.cancelled := by
  unfold takeQueued
  split <;> rfl

/-- What a cancellation leaves of the slot. -/
theorem cancel_of_true (answered : (slot.cancel generation).2 = .ok true) :
    (slot.cancel generation).1.queued = none ∧
      (slot.cancel generation).1.running = slot.running ∧
      (slot.cancel generation).1.generation = slot.generation ∧
      (slot.cancel generation).1.effectStarted = slot.effectStarted ∧
      (slot.cancelled = true → (slot.cancel generation).1.cancelled = true) ∧
      ∀ id ∈ slot.cancelHits generation, isGeneration slot.queued id = true ∨
        (isGeneration slot.running id = true ∧ slot.effectStarted = false ∧
          (slot.cancel generation).1.cancelled = true) := by
  have hits (id : Nat) (hit : id ∈ slot.cancelHits generation) :
      isGeneration slot.queued id = true ∨ (isGeneration slot.running id = true ∧
        slot.effectStarted = false ∧ (slot.running.any fun running =>
          generation.all fun id => running.generation = id) = true) := by
    rcases mem_append.mp hit with waits | runs
    · obtain ⟨pending, queued, same⟩ := map_eq_some_iff.mp (mem_toList.mp waits)
      exact .inl (isGeneration_iff.mpr ⟨pending, queued, same⟩)
    · obtain ⟨pending, found, same⟩ := map_eq_some_iff.mp (mem_toList.mp runs)
      obtain ⟨running, taken⟩ := filter_eq_some_iff.mp found
      rw [Bool.and_eq_true, Bool.not_eq_true'] at taken
      exact .inr ⟨isGeneration_iff.mpr ⟨pending, running, same⟩, taken.2, by
        rw [running]
        exact taken.1⟩
  unfold cancel at answered ⊢
  split_ifs at answered ⊢ with stale runs started
  all_goals
    simp only [takeQueued_queued, takeQueued_running, takeQueued_generation,
      takeQueued_effectStarted, takeQueued_cancelled, true_and]
  · refine ⟨id, fun id hit => (hits id hit).imp_right fun ⟨_, unbegun, _⟩ => ?_⟩
    rw [started] at unbegun
    cases unbegun
  · exact ⟨fun _ => trivial, fun id hit => (hits id hit).imp_right fun ⟨runs, unbegun, _⟩ =>
      ⟨runs, unbegun, trivial⟩⟩
  · exact ⟨id, fun id hit => (hits id hit).imp_right fun ⟨_, _, matched⟩ => absurd matched runs⟩

end Slot

/-- A cancellation that is not answered with true changes nothing. -/
theorem Slot.cancel_of_not_true (unanswered : (slot.cancel generation).2 ≠ .ok true) :
    (slot.cancel generation).1 = slot := by
  have untaken (none : slot.queued.isSome = false) : slot.takeQueued = slot := by
    unfold takeQueued
    rw [if_neg (by simp [none])]
  unfold cancel at unanswered ⊢
  split_ifs at unanswered ⊢ with stale runs started waits
  · rfl
  · exact absurd rfl unanswered
  · exact untaken (by simpa using waits)
  · exact absurd rfl unanswered
  · cases waits : slot.queued.isSome with
    | false => exact untaken waits
    | true => exact absurd (congrArg Except.ok waits) unanswered

theorem SlotFits.finish {slot : Slot} {pending : PendingSkin}
    (fits : SlotFits next history account slot) (running : slot.running = some pending)
    (outcome : Outcome) (now : Nat) :
    SlotFits next history account (slot.finish pending outcome now) := by
  obtain ⟨idle, same, _, waits⟩ := finish_spec running outcome now
  obtain ⟨own, old⟩ := fits.running pending running
  have gone (generation : Nat) (before : ¬Slot.isGeneration slot.queued generation)
      (struck : Slot.isGeneration slot.running generation → slot.cancelled) :
      ¬Slot.isGeneration (slot.finish pending outcome now).queued generation := by
    rcases waits with kept | ⟨back, stands, _⟩
    · rwa [kept]
    · rw [back]
      intro is
      have cancelled := struck (by rw [running]; exact is)
      simp [Slot.isCurrent, cancelled] at stands
  exact
    { newest := same ▸ fits.newest
      queued := fun other queued => by
        rw [same]
        rcases waits with kept | ⟨back, stands, _⟩
        · exact fits.queued other (kept ▸ queued)
        · cases back.symm.trans queued
          simp only [Slot.isCurrent, Bool.and_eq_true, decide_eq_true_eq] at stands
          exact ⟨own, stands.2.symm⟩
      running := by
        rw [idle]
        exact nofun
      apart := by
        rw [idle]
        exact nofun
      known := same ▸ fits.known
      cancelled := fun generation member =>
        ⟨gone generation (fits.cancelled generation member).1
          fun runs => ((fits.cancelled generation member).2 runs).1, by rw [idle]; exact nofun⟩
      withdrawn := fun hits member generation hit =>
        ⟨gone generation (fits.withdrawn hits member generation hit).1
          (fits.withdrawn hits member generation hit).2, by rw [idle]; exact nofun⟩ }

/-- A change that takes the choice that waits, or cancels the one that runs. -/
structure Taking (slot after : Slot) : Prop where
  generation : after.generation = slot.generation
  running : after.running = slot.running
  effectStarted : after.effectStarted = slot.effectStarted
  cancelled : slot.cancelled = true → after.cancelled = true
  queued : ∀ pending, after.queued = some pending → ∃ waiting, slot.queued = some waiting ∧
    waiting.accountId = pending.accountId ∧ waiting.generation = pending.generation

theorem SlotFits.taking (fits : SlotFits next history account slot) (taking : Taking slot after) :
    SlotFits next history account after := by
  -- As a calm change, up to the flag, which only rises.
  have same : Calm slot { after with cancelled := slot.cancelled } :=
    ⟨taking.generation, taking.running, rfl, taking.effectStarted, taking.queued⟩
  have calm := fits.calm same
  exact
    { calm with
      cancelled := fun generation member =>
        ⟨(calm.cancelled generation member).1, fun runs =>
          ⟨taking.cancelled ((calm.cancelled generation member).2 runs).1,
            ((calm.cancelled generation member).2 runs).2⟩⟩
      withdrawn := fun hits member generation hit =>
        ⟨(calm.withdrawn hits member generation hit).1,
          fun runs => taking.cancelled ((calm.withdrawn hits member generation hit).2 runs)⟩ }

theorem taking_invalidate (slot : Slot) : Taking slot slot.invalidate :=
  ⟨rfl, rfl, rfl, fun _ => rfl, nofun⟩

theorem taking_libraryChanged (slot : Slot) (change : SkinLibraryChange) :
    Taking slot (slot.libraryChanged change) := by
  cases change with
  | removed textureKey =>
    refine ⟨rfl, rfl, rfl, fun struck => by simp [Slot.libraryChanged, struck],
      fun pending same => ?_⟩
    simp only [Slot.libraryChanged] at same
    split at same
    · cases same
    · exact ⟨pending, same, rfl, rfl⟩
  | replaced oldTextureKey newTextureKey revision =>
    refine ⟨rfl, rfl, rfl, fun struck => by simp [Slot.libraryChanged, struck],
      fun pending same => ?_⟩
    obtain ⟨waiting, queued, rfl⟩ := map_eq_some_iff.mp same
    refine ⟨waiting, queued, ?_⟩
    split <;> exact ⟨rfl, rfl⟩

theorem taking_cancel (answered : (slot.cancel generation).2 = .ok true) :
    Taking slot (slot.cancel generation).1 := by
  obtain ⟨queued, running, same, begun, struck, _⟩ := cancel_of_true answered
  exact ⟨same, running, begun, struck, by rw [queued]; exact nofun⟩

theorem SlotFits.cancel {slot : Slot} {generation : Option Nat}
    (fits : SlotFits next history account slot) (answered : (slot.cancel generation).2 = .ok true)
    {hits : List Nat} (among : ∀ id ∈ hits, id ∈ slot.cancelHits generation) :
    SlotFits next (hits.map (.cancelled account) ++ history) account (slot.cancel generation).1 := by
  obtain ⟨queued, running, same, begun, struck, taken⟩ := cancel_of_true answered
  induction hits with
  | nil => exact fits.taking (taking_cancel answered)
  | cons id hits ih =>
    have others := ih fun other member => among other (mem_cons_of_mem _ member)
    have hit := taken id (among id mem_cons_self)
    refine others.record ?_ ?_ nofun
    · rintro _ ⟨_, rfl⟩
      rw [same]
      rcases hit with waits | ⟨runs, _, _⟩
      · obtain ⟨pending, waiting, rfl⟩ := isGeneration_iff.mp waits
        exact (fits.queued pending waiting).2.le
      · obtain ⟨pending, current, rfl⟩ := isGeneration_iff.mp runs
        exact (fits.running pending current).2
    · rintro _ equal
      cases equal
      rw [Slot.Gone, queued, running, begun]
      refine ⟨⟨nofun, fun runs => ?_⟩, fun runs => ?_⟩
      all_goals
        rcases hit with waits | ⟨_, unbegun, cancelled⟩
        · obtain ⟨pending, waiting, first⟩ := isGeneration_iff.mp waits
          obtain ⟨other, current, second⟩ := isGeneration_iff.mp runs
          have older := fits.apart pending other waiting current
          omega
        · first | exact cancelled | exact unbegun

/-- Edits and removals take choices that waited, and cancel those that run. -/
theorem SlotFits.withdraw {hits : String → Nat → Prop} (fits : SlotFits next history account slot)
    (taking : Taking slot after) (taken : ∀ generation, hits account generation →
      (Slot.isGeneration slot.queued generation ∧ ¬Slot.isGeneration after.queued generation) ∨
        (Slot.isGeneration slot.running generation ∧ after.cancelled)) :
    SlotFits next (.withdrawn hits :: history) account after := by
  have apart {generation : Nat} (waits : Slot.isGeneration slot.queued generation)
      (runs : Slot.isGeneration slot.running generation) : False := by
    obtain ⟨waiting, queued, first⟩ := isGeneration_iff.mp waits
    obtain ⟨pending, running, second⟩ := isGeneration_iff.mp runs
    have older := fits.apart waiting pending queued running
    omega
  refine (fits.taking taking).record ?_ nofun ?_
  · intro generation hit
    rw [taking.generation]
    rcases taken generation hit with ⟨waits, _⟩ | ⟨runs, _⟩
    · obtain ⟨waiting, queued, rfl⟩ := isGeneration_iff.mp waits
      exact (fits.queued waiting queued).2.le
    · obtain ⟨pending, running, rfl⟩ := isGeneration_iff.mp runs
      exact (fits.running pending running).2
  · rintro _ equal generation hit
    cases equal
    rw [Slot.Gone, taking.running]
    rcases taken generation hit with ⟨waits, gone⟩ | ⟨runs, cancelled⟩
    · exact ⟨gone, fun runs => absurd (apart waits runs) id⟩
    · refine ⟨fun queued => ?_, fun _ => cancelled⟩
      obtain ⟨pending, after, same⟩ := isGeneration_iff.mp queued
      obtain ⟨waiting, before, _, equal⟩ := taking.queued pending after
      exact apart (isGeneration_iff.mpr ⟨waiting, before, equal.trans same⟩) runs

/-- What every move keeps. -/
theorem Move.fits {slot after : Option Slot} (move : Move account later now slot events after)
    (more : next ≤ later) (fits : Fits next history account slot) :
    Fits later (events.reverse ++ history) account after := by
  cases move with
  | rest silent =>
    cases slot with
    | none => exact Silent.append fits silent
    | some slot => exact SlotFits.mono fits more silent
  | @insert _ pending own top fresh =>
    have inserted : SlotFits later history account ((slot.getD .initial).insert pending) := by
      cases slot with
      | none =>
        have initial : SlotFits later history account .initial := slotFits_initial fits
        exact initial.insert own top fresh
      | some slot => exact SlotFits.insert fits own top fresh
    exact inserted.note pending.generation (fun _ about => about.2.symm) le_rfl
      nofun nofun
  | @claim slot pending idle queued =>
    have claimed := (SlotFits.claim fits idle queued).grow more
    refine claimed.note pending.generation (fun _ about => about.2.symm) ?_
      nofun nofun
    rw [claim_of_queued idle queued]
    exact (fits.queued pending queued).2.le
  | @begin slot pending begun =>
    have began := (SlotFits.begin fits begun).grow more
    refine began.note pending.generation (fun _ about => about.2.symm) ?_
      nofun nofun
    obtain ⟨same, _, equal, _⟩ := beginEffect_of_ok begun
    rw [same]
    exact equal.ge
  | @send slot pending running started | @written slot pending answer running =>
    exact (SlotFits.grow fits more).note pending.generation
      (fun _ about => about.2.symm) (fits.running pending running).2 nofun nofun
  | @finish slot pending outcome running =>
    have finished := (SlotFits.finish fits running outcome now).grow more
    refine finished.note pending.generation (fun _ about => about.2.symm) ?_
      nofun nofun
    rw [(finish_spec running outcome now).2.1]
    exact (fits.running pending running).2
  | @cancel slot generation answered =>
    rw [← map_reverse]
    exact ((SlotFits.grow fits more).cancel answered fun id member =>
      mem_reverse.mp member)
  | @library slot change hits taken _ _ =>
    refine (SlotFits.grow fits more).withdraw
      (taking_libraryChanged slot change) fun generation hit => ?_
    exact taken generation hit
  | @remove slot hits taken =>
    refine (SlotFits.grow fits more).withdraw (taking_invalidate slot)
      fun generation hit => ?_
    exact ((taken generation).mp hit).imp (fun waits => ⟨waits, nofun⟩) fun runs => ⟨runs, rfl⟩
  | @expedite slot events silent =>
    exact (SlotFits.mono fits more silent).calm (calm_expedite slot now)
  | @expediteGeneration slot events silent generation =>
    exact (SlotFits.mono fits more silent).calm (calm_expediteGeneration slot generation now)
  | @rebase slot before after =>
    exact (SlotFits.grow fits more).calm (calm_rebase slot before after)

end Axial.Skins
