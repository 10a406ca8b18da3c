/-
This file states what the install queue guarantees in all runs whose recoveries are
claimed in time: what is terminal is final, every install that is not done has one place,
and a restart finds the installs in the order they were in. Each comes with a run that
breaks it where the condition is not met.
-/

import Axial.Install.Order

namespace Axial.Install

open InstallQueue Relation

namespace System

variable {before after : System} {id : String}

/-- Several actions, one after the other. -/
def performAll (system : System) (actions : List Action) : Option System :=
  actions.foldlM perform system

theorem run_of_performAll {care : Care} {actions : List Action}
    (orderly : ∀ system : System, ∀ action ∈ actions, system.Orderly care action)
    (performed : before.performAll actions = some after) : Run care before after := by
  induction actions generalizing before with
  | nil =>
    cases performed
    exact .refl
  | cons action actions ih =>
    obtain ⟨middle, first, rest⟩ := Runs.foldlM_cons_eq_some.mp performed
    exact .head ⟨action, orderly before action List.mem_cons_self, first⟩
      (ih (fun system other member =>
        orderly system other (List.mem_cons_of_mem _ member)) rest)

/-! ### Finality -/

/-- Only the claims of recoveries matter. -/
abbrev timely : Care := ⟨False, False, False⟩

theorem terminal_of_run (sound : Sound timely before) (run : Run timely before after)
    {row : Row} (stored : before.queue.rows.lookup id = some row) (terminal : row.phase = .terminal) :
    after.queue.rows.lookup id = some row := by
  induction run with
  | refl => exact stored
  | @tail middle last earlier step ih =>
    obtain ⟨action, orderly, performed⟩ := step
    have held := sound.run earlier
    obtain ⟨_, ⟨other, changes⟩ | ⟨library, acquired, built⟩⟩ :=
      held.coherent.perform held.ordered orderly performed
    · exact changes.terminal held.coherent.queue ih terminal
    · rw [new_rows built]
      exact ih

/-- What is terminal stays as it is: its row, its status, and nobody works on it again. -/
theorem terminal_final (reached : Run timely fresh before) (run : Run timely before after)
    {row : Row} (stored : before.queue.rows.lookup id = some row)
    (terminal : row.phase = .terminal) :
    after.queue.rows.lookup id = some row ∧
      (∀ entry, after.queue.entries.lookup id = some entry → entry.status = row.status ∧
        entry.recoveryLease = none ∧ entry.retained = none) ∧
      after.queue.active ≠ some id ∧ id ∉ after.queue.queued ∧
        id ∉ after.tasks.filterMap Task.works := by
  have sound := fresh_sound.run reached
  have kept := terminal_of_run sound run stored terminal
  have coherent := (sound.run run).coherent
  obtain ⟨⟨unqueued, inactive⟩, entries⟩ := coherent.queue.of_terminal kept terminal
  refine ⟨kept, fun entry found => (entries entry found).2, inactive, unqueued, fun works => ?_⟩
  exact inactive (coherent.owes.works id works)

/-- A request of the game itself. -/
def gameAdmission (id versionId : String) : Admission where
  id
  operationId := "o"
  request := .vanilla versionId
  item := ⟨versionId, none, none⟩
  pin := ⟨"l", 0⟩
  setup := none
  front := false

theorem terminal_final_removed :
    ∃ before ∈ fresh.performAll [.admits none 0 false true (gameAdmission "a" "1.20"),
        .remove "a" true],
      ∃ after ∈ before.performAll [.admits none 0 false true (gameAdmission "b" "1.20")],
        ∃ row ∈ before.queue.rows.lookup "a", after.queue.rows.lookup "a" = some row ∧
          after.queue.active ≠ some "a" := by
  have run : ∃ before ∈ fresh.performAll [.admits none 0 false true (gameAdmission "a" "1.20"),
        .remove "a" true],
      ∃ after ∈ before.performAll [.admits none 0 false true (gameAdmission "b" "1.20")],
        ∃ row ∈ before.queue.rows.lookup "a", row.phase = .terminal := by
    decide
  obtain ⟨before, first, after, second, row, stored, terminal⟩ := run
  have orderly (system : System) (action : Action) (member : action ∈
      [Action.admits none 0 false true (gameAdmission "a" "1.20"), .remove "a" true,
        .admits none 0 false true (gameAdmission "b" "1.20")]) :
      system.Orderly timely action := by
    simp only [List.mem_cons, List.not_mem_nil, or_false] at member
    rcases member with rfl | rfl | rfl
    · exact False.elim
    · trivial
    · exact False.elim
  have reached : Run timely fresh before := run_of_performAll
    (fun system action member => orderly system action (by simp at member ⊢; tauto)) first
  have later : Run timely before after := run_of_performAll
    (fun system action member => orderly system action (by simp at member ⊢; tauto)) second
  obtain ⟨kept, _, inactive, _⟩ := terminal_final reached later stored terminal
  exact ⟨before, first, after, second, row, stored, kept, inactive⟩

/-! A content install whose recovery was checked twice. The second claim comes when the first
recovery is through. -/

def contentRequest : Request := .content "i" "Mods" (.uninstall ["m"])

def contentAdmission : Admission where
  id := "a"
  operationId := "o"
  request := contentRequest
  item := ⟨"1.20", none, some ⟨"i", "Mods", .uninstall ["m"]⟩⟩
  pin := ⟨"l", 0⟩
  setup := none
  front := false

def knownInstance : InstanceLibraries := some fun _ => .ok "l"

/-- Everything that an install needs is there. -/
def ready : StartConditions where
  closing := false
  observersClosed := false
  contentService := true
  instanceKnown _ := true
  instanceFree _ := true
  acquired := true
  now := 1
  storedRunning := true
  spawned := true
  storedQueued := true

def recoveryClaim : ContentClaim := ⟨⟨"l", 0⟩, [], none, none, false⟩

def recoveredOnce : List Action :=
  [.admits knownInstance 0 false true contentAdmission, .start ready,
    .restart (some ⟨"l", 0⟩) true, .check "a", .check "a",
    .move (.checked "a" recoveryClaim) (.claim true),
    .move (.working .contentRecovery "a" []) (.complete .succeeded none true),
    .move (.returned "a" true) .read, .move (.finishing "a" true) (.finish true)]

def recoveredTwice : List Action :=
  [.move (.checked "a" recoveryClaim) (.claim true),
    .move (.working .contentRecovery "a" []) (.leave (.content none)),
    .move (.retaining .contentRecovery "a" [] (.content none)) .retain,
    .move (.unsettling .contentRecovery "a" (.content none)) (.settle true)]

theorem terminal_overwritten :
    ∃ before ∈ fresh.performAll recoveredOnce,
      ((before.queue.rows.lookup "a").map Row.phase = some .terminal ∧
        (before.queue.entries.lookup "a").map (fun entry => entry.status.outcome) =
          some (some .succeeded)) ∧
      ∃ after ∈ before.performAll recoveredTwice,
        ((after.queue.rows.lookup "a").map Row.phase = some .settlementRequired ∧
          (after.queue.entries.lookup "a").map (fun entry => entry.status.viewModel.phaseId) =
            some "settlement_required" ∧
          (after.queue.entries.lookup "a").map (fun entry =>
            entry.recoveryLease.isSome && entry.retained.isSome) = some true) ∧
        ∃ again ∈ after.perform (.restart (some ⟨"l", 0⟩) true),
          again.queue.active = some "a" := by
  decide

/-! ### Places -/

/-- What starts can be persisted, besides. -/
abbrev saving : Care := ⟨True, False, False⟩

/-- Every install that is not done has one place in the queue. -/
structure WellPlaced (queue : InstallQueue) : Prop where
  placed : ∀ id entry, queue.entries.lookup id = some entry → entry.status.done = false →
    Xor (id ∈ queue.queued) (queue.active = some id)
  once : queue.queued.Nodup
  pending : ∀ id, id ∈ queue.queued ∨ queue.active = some id →
    ∃ entry, queue.entries.lookup id = some entry ∧ entry.status.done = false
  requests : ∀ first second left right, queue.entries.lookup first = some left →
    queue.entries.lookup second = some right → left.status.done = false →
      right.status.done = false → left.request = right.request → first = second
  capacity : queue.queued.length + (if queue.active.isSome then 1 else 0) ≤ maxInstalls
  unsettled : ∀ first second left right, queue.rows.lookup first = some left →
    queue.rows.lookup second = some right →
      (left.phase = .running ∨ left.phase = .settlementRequired) →
        (right.phase = .running ∨ right.phase = .settlementRequired) → first = second
  label : ∀ id ∈ queue.queued, ∀ entry, queue.entries.lookup id = some entry →
    entry.status.viewModel.phaseId = "queued"
  uncancelled : ∀ id ∈ queue.queued, InstallQueue.cancel id queue = .error .busy

theorem Sound.wellPlaced {system : System} (sound : Sound saving system) :
    WellPlaced system.queue := by
  have coherent := sound.coherent.queue
  have labels := sound.labelled trivial
  refine ⟨fun id entry found notDone => coherent.placed found notDone, coherent.distinct, ?_,
    fun _ _ _ _ left right notDone pending same =>
      coherent.requests left right notDone pending same, coherent.capacity, ?_,
    fun id waits => (labels id waits).1, ?_⟩
  · rintro id (waits | active)
    · obtain ⟨entry, _, found, _, pending, _⟩ := coherent.of_queued waits
      exact ⟨entry, found, pending.notDone⟩
    · obtain ⟨entry, _, found, _, pending, _⟩ := coherent.of_active active
      exact ⟨entry, found, pending.notDone⟩
  · -- Both rows are those of the active install.
    have works {id : String} {row : Row} (stored : system.queue.rows.lookup id = some row)
        (phase : row.phase = .running ∨ row.phase = .settlementRequired) :
        system.queue.active = some id := by
      refine coherent.active_of_row stored ?_ ?_ <;>
        rcases phase with same | same <;> rw [same] <;> exact nofun
    intro first second left right storedLeft storedRight phaseLeft phaseRight
    exact Option.some_inj.mp ((works storedLeft phaseLeft).symm.trans (works storedRight phaseRight))
  · intro id waits
    obtain ⟨entry, _, found, _⟩ := coherent.of_queued waits
    unfold InstallQueue.cancel
    simp only [found]
    rw [if_pos (.inr (by rw [(labels id waits).1 entry found]; decide))]

/-- In all runs whose recoveries are claimed in time, and whose starts can be persisted, the
installs have their places. -/
theorem wellPlaced_of_run (run : Run saving fresh after) : WellPlaced after.queue :=
  (fresh_sound.run run).wellPlaced

theorem wellPlaced_of_run_started :
    ∃ after ∈ fresh.performAll [.admits none 0 false true (gameAdmission "a" "1.20"),
        .admits none 1 false true (gameAdmission "b" "1.21"), .start ready],
      (after.queue.active = some "a" ∧ after.queue.queued = ["b"]) ∧ WellPlaced after.queue := by
  have reached : ∃ after ∈ fresh.performAll [.admits none 0 false true (gameAdmission "a" "1.20"),
        .admits none 1 false true (gameAdmission "b" "1.21"), .start ready],
      after.queue.active = some "a" ∧ after.queue.queued = ["b"] := by
    decide
  obtain ⟨after, performed, places⟩ := reached
  refine ⟨after, performed, places, wellPlaced_of_run (run_of_performAll ?_ performed)⟩
  intro system action member
  simp only [List.mem_cons, List.not_mem_nil, or_false] at member
  rcases member with rfl | rfl | rfl
  · exact False.elim
  · exact False.elim
  · exact fun _ => rfl

/-- A start that cannot be persisted leaves an install queued that can be cancelled. -/
theorem queued_cancelled :
    ∃ after ∈ fresh.performAll [.admits none 0 false true (gameAdmission "a" "1.20"),
        .start { ready with storedRunning := false }],
      "a" ∈ after.queue.queued ∧
        (after.queue.entries.lookup "a").map (fun entry => entry.status.viewModel.phaseId) =
          some "starting" ∧
        (after.perform (.cancel "a")).isSome := by
  decide

/-! ### Order -/

/-- The clock does not fall behind, and what is put back belongs to the front. -/
abbrev inOrder : Care := ⟨False, True, False⟩

/-- In all runs whose recoveries are claimed in time, whose clock does not fall behind the queued
rows and that put back only what comes before them, a restart finds the queue as it is. -/
theorem durableQueue_of_run (run : Run inOrder fresh after) :
    after.queue.durableQueue = after.queue.queued := by
  have sound := fresh_sound.run run
  exact durableQueue_eq sound.coherent.queue (sound.ordered trivial)

theorem durableQueue_of_run_ordered :
    ∃ middle ∈ fresh.perform (.admits none 5 false true (gameAdmission "a" "1.20")),
      ∃ after ∈ middle.perform (.admits none 5 false true (gameAdmission "b" "1.21")),
        after.queue.queued = ["a", "b"] ∧ after.queue.durableQueue = after.queue.queued := by
  have reached :
      ∃ middle ∈ fresh.perform (.admits none 5 false true (gameAdmission "a" "1.20")),
        ∃ after ∈ middle.perform (.admits none 5 false true (gameAdmission "b" "1.21")),
          (∀ row ∈ middle.queue.rows.entries, row.2.acceptedAt ≤ 5) ∧
            after.queue.queued = ["a", "b"] := by
    decide
  obtain ⟨middle, first, after, second, accepted, queued⟩ := reached
  have timelyFirst : fresh.Orderly inOrder (.admits none 5 false true (gameAdmission "a" "1.20")) :=
    fun _ _ _ id row stored _ => by cases stored
  have timelySecond :
      middle.Orderly inOrder (.admits none 5 false true (gameAdmission "b" "1.21")) :=
    fun _ _ _ id row stored _ => accepted ⟨id, row⟩ (AList.mem_lookup_iff.mp stored)
  have run : Run inOrder fresh after :=
    .tail (.single ⟨_, timelyFirst, first⟩) ⟨_, timelySecond, second⟩
  exact ⟨middle, first, after, second, queued, durableQueue_of_run run⟩

/-- The clock steps back between two requests. -/
theorem durableQueue_reordered :
    ∃ after ∈ fresh.performAll [.admits none 10 false true (gameAdmission "a" "1.20"),
        .admits none 5 false true (gameAdmission "b" "1.21")],
      after.queue.queued = ["a", "b"] ∧ after.queue.durableQueue = ["b", "a"] := by
  decide

end System
end Axial.Install
