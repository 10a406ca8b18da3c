/-
This file follows the order of the queue and what its installs show through all that can
happen. Each is kept by every change that takes care of it, and by a restart.
-/

import Axial.Install.System

namespace Axial.Install

open InstallQueue Relation List

namespace InstallQueue

variable {queue after : InstallQueue} {id : String} {care : Care}

/-! ### Keys -/

theorem Earlier.congr {first second : String} (earlier : queue.Earlier first second)
    (sameFirst : after.keyOf first = queue.keyOf first)
    (sameSecond : after.keyOf second = queue.keyOf second) : after.Earlier first second := by
  obtain ⟨left, right, keyLeft, keyRight, less⟩ := earlier
  exact ⟨left, right, sameFirst.trans keyLeft, sameSecond.trans keyRight, less⟩

theorem keyOf_of_stored {row : Row} (stored : queue.rows.lookup id = some row) :
    queue.keyOf id = some row.key := by
  unfold keyOf
  rw [stored]
  rfl

theorem keyOf_congr (same : after.rows.lookup id = queue.rows.lookup id) :
    after.keyOf id = queue.keyOf id := by
  unfold keyOf
  rw [same]

theorem Change.ordered (change : Change care queue id after) (coherent : queue.Coherent)
    (keys : care.keys) (ordered : queue.Ordered) : after.Ordered := by
  have others {other : String} (different : other ≠ id) : after.keyOf other = queue.keyOf other :=
    keyOf_congr (change.others different).2
  -- The keys of the installs that waited before, where they are as they were.
  have kept {queued : List String} (below : queued.Sublist queue.queued)
      (same : ∀ other, after.keyOf other = queue.keyOf other) : queued.Pairwise after.Earlier :=
    (ordered.sublist below).imp fun earlier => earlier.congr (same _) (same _)
  have apart {queued : List String} (below : queued.Sublist queue.queued) (fresh : id ∉ queued) :
      queued.Pairwise after.Earlier := by
    refine (ordered.sublist below).imp_of_mem fun memberFirst memberSecond earlier =>
      earlier.congr (others ?_) (others ?_)
    · rintro rfl
      exact fresh memberFirst
    · rintro rfl
      exact fresh memberSecond
  cases change with
  | edit | flag | close => exact kept (List.Sublist.refl _) fun _ => rfl
  | record active stored | finish _ _ stored =>
    exact kept (List.Sublist.refl _) (keyOf_insert stored rfl)
  | @enter entry row queued unknown _ _ _ _ _ _ _ _ _ placed =>
    have fresh : id ∉ queue.queued := by
      intro member
      obtain ⟨_, _, found, _⟩ := coherent.of_queued member
      cases unknown.symm.trans found
    have own : InstallQueue.keyOf { queue.put id entry row with queued } id = some row.key :=
      keyOf_of_stored (AList.lookup_insert queue.rows)
    rcases placed with ⟨rfl, first⟩ | ⟨rfl, last⟩
    · refine pairwise_cons.mpr ⟨fun other member => ?_, apart (List.Sublist.refl _) fresh⟩
      obtain ⟨_, stored, _, there, _⟩ := coherent.of_queued member
      have different : other ≠ id := fun same => fresh (same ▸ member)
      exact ⟨_, _, own, (others different).trans (keyOf_of_stored there),
        first keys other member stored there⟩
    · refine pairwise_append.mpr ⟨apart (List.Sublist.refl _) fresh,
        pairwise_singleton _ _, fun other member second isId => ?_⟩
      rw [mem_singleton.mp isId]
      obtain ⟨_, stored, _, there, _⟩ := coherent.of_queued member
      have different : other ≠ id := fun same => fresh (same ▸ member)
      exact ⟨_, _, (others different).trans (keyOf_of_stored there), own,
        last keys other member stored there⟩
  | begin first _ _ stored =>
    refine kept ?_ (keyOf_insert stored rfl)
    rw [first]
    exact sublist_cons_self _ _
  | back _ _ stored _ _ _ _ _ first =>
    refine pairwise_cons.mpr ⟨fun other member => ?_,
      kept (List.Sublist.refl _) (keyOf_insert stored rfl)⟩
    exact (first keys other member).congr (keyOf_insert stored rfl _) (keyOf_insert stored rfl _)
  | withdraw _ _ stored => exact kept erase_sublist (keyOf_insert stored rfl)
  | @front row acceptedAt _ _ first =>
    have away : ∀ other ∈ queue.queued.filter (fun other => other ≠ id),
        other ∈ queue.queued ∧ other ≠ id := by
      intro other member
      obtain ⟨listed, different⟩ := mem_filter.mp member
      exact ⟨listed, of_decide_eq_true different⟩
    refine pairwise_cons.mpr ⟨fun other member => ?_,
      apart filter_sublist fun member => (away id member).2 rfl⟩
    obtain ⟨listed, different⟩ := away other member
    obtain ⟨_, stored, _, there, _⟩ := coherent.of_queued listed
    have own : (AList.insert id { row with acceptedAt } queue.rows).lookup id =
        some { row with acceptedAt } := AList.lookup_insert queue.rows
    exact ⟨Row.key { row with acceptedAt }, _, keyOf_of_stored own,
      (others different).trans (keyOf_of_stored there),
      Prod.Lex.toLex_lt_toLex.mpr (.inl (first keys other listed stored there))⟩

variable {library : Option GenerationPin} {acquired : Bool}

/-- A restart keeps the order. -/
theorem Ordered.new (ordered : queue.Ordered) (coherent : queue.Coherent)
    (built : InstallQueue.new library acquired queue = .ok after) : after.Ordered := by
  unfold Ordered
  rw [new_queued built, durableQueue_eq coherent ordered]
  have same (other : String) : after.keyOf other = queue.keyOf other :=
    keyOf_congr (by rw [new_rows built])
  exact ordered.imp fun earlier => earlier.congr (same _) (same _)

/-! ### Labels -/

/-- What waits shows one of some phases, and its row that it is queued. -/
def Shows (shown : String → Prop) (queue : InstallQueue) : Prop :=
  ∀ id ∈ queue.queued,
    (∀ entry, queue.entries.lookup id = some entry → shown entry.status.viewModel.phaseId) ∧
      ∀ row, queue.rows.lookup id = some row → row.status.viewModel.phaseId = "queued"

/-- What waits shows that it is queued, and so does its row. -/
def Labelled (queue : InstallQueue) : Prop := queue.Shows (· = "queued")

/-- What waits shows that it is queued, or that it starts. -/
def Waits (queue : InstallQueue) : Prop :=
  queue.Shows fun phase => phase = "queued" ∨ phase = "starting"

variable {shown : String → Prop}

theorem shown_insert {table : AList fun _ : String => Entry} {entry found : Entry}
    (shows : shown entry.status.viewModel.phaseId)
    (there : (table.insert id entry).lookup id = some found) :
    shown found.status.viewModel.phaseId := by
  cases (AList.lookup_insert table).symm.trans there
  exact shows

theorem queued_insert {table : AList fun _ : String => Row} {row found : Row}
    (shows : row.status.viewModel.phaseId = "queued")
    (there : (table.insert id row).lookup id = some found) :
    found.status.viewModel.phaseId = "queued" := by
  cases (AList.lookup_insert table).symm.trans there
  exact shows

/-- A change keeps the phases that are shown, where being queued is one of them and, unless what
waits is to show nothing else, starting is. -/
theorem Change.shows (change : Change care queue id after) (coherent : queue.Coherent)
    (queued : shown "queued") (starting : ¬care.labels → shown "starting")
    (labelled : queue.Shows shown) : after.Shows shown := by
  intro other member
  by_cases same : other = id
  · subst same
    cases change with
    | edit found _ _ _ _ label =>
      obtain ⟨entries, rows⟩ := labelled other member
      refine ⟨fun entry => shown_insert ?_, rows⟩
      rcases label member with kept | ⟨careless, starts⟩
      · rw [kept]
        exact entries _ found
      · rw [starts]
        exact starting careless
    | flag found =>
      obtain ⟨entries, rows⟩ := labelled other member
      have before := entries _ found
      exact ⟨fun entry => shown_insert before, rows⟩
    | close => exact labelled other member
    | record active | finish active =>
      obtain ⟨_, _, _, _, _, _, left⟩ := coherent.of_active active
      exact absurd member left
    | enter _ _ _ _ _ _ _ _ label rowLabel =>
      rw [← label] at queued
      exact ⟨fun entry => shown_insert queued, fun row => queued_insert rowLabel⟩
    | begin first =>
      have distinct := coherent.distinct
      rw [first] at distinct
      exact absurd member (nodup_cons.mp distinct).1
    | back _ _ _ _ _ _ _ label =>
      have entryLabel := queued
      rw [← label] at entryLabel
      exact ⟨fun entry => shown_insert entryLabel, fun row => queued_insert label⟩
    | withdraw => exact absurd member coherent.distinct.not_mem_erase
    | front waits stored =>
      obtain ⟨entries, rows⟩ := labelled other waits
      have before := rows _ stored
      exact ⟨entries, fun row => queued_insert before⟩
  · obtain ⟨entries, rows⟩ := change.others same
    rw [entries, rows]
    exact labelled other ((change.places same).1.mp member)

theorem Changes.ordered (changes : Changes care queue id after) (coherent : queue.Coherent)
    (keys : care.keys) (ordered : queue.Ordered) : after.Ordered := by
  induction changes with
  | refl => exact ordered
  | tail earlier change ih =>
    exact change.ordered (coherent.changes earlier) keys ih

theorem Changes.shows (changes : Changes care queue id after) (coherent : queue.Coherent)
    (queued : shown "queued") (starting : ¬care.labels → shown "starting")
    (labelled : queue.Shows shown) : after.Shows shown := by
  induction changes with
  | refl => exact labelled
  | tail earlier change ih =>
    exact change.shows (coherent.changes earlier) queued starting ih

/-- A restart shows the queued installs as their rows do. -/
theorem Shows.new (labelled : queue.Shows shown) (coherent : queue.Coherent)
    (queued : shown "queued") (built : InstallQueue.new library acquired queue = .ok after) :
    after.Shows shown := by
  intro id member
  rw [new_queued built] at member
  have waits := coherent.mem_durableQueue.mp member
  obtain ⟨row, stored, phase⟩ := mem_durableQueue.mp member
  rw [new_rows built]
  refine ⟨fun entry found => ?_, (labelled id waits).2⟩
  obtain ⟨again, there, _, rfl⟩ := (new_entries built).2 entry found
  cases stored.symm.trans there
  rw [Row.entry, if_pos phase, show row.status.viewModel.phaseId = "queued" from
    (labelled id waits).2 row stored]
  exact queued

end InstallQueue

/-! ### Runs -/

namespace System

variable {care : Care} {before after : System}

/-- What holds throughout a run that takes care. -/
structure Sound (care : Care) (system : System) : Prop where
  coherent : system.Coherent
  ordered : care.keys → system.queue.Ordered
  labelled : care.labels → system.queue.Labelled
  waits : system.queue.Waits

theorem fresh_sound : Sound care fresh where
  coherent := by
    refine ⟨⟨fun id => .absent ⟨not_mem_nil, nofun⟩, nodup_nil, nofun, Nat.zero_le _⟩, ?_⟩
    exact ⟨fun id member => absurd member (Multiset.notMem_zero id), Nat.zero_le 1,
      Multiset.nodup_zero, fun id member => absurd member (Multiset.notMem_zero id),
      fun id member => absurd member (Multiset.notMem_zero id)⟩
  ordered _ := List.Pairwise.nil
  labelled _ := fun _ member => absurd member not_mem_nil
  waits _ member := absurd member not_mem_nil

theorem Sound.step (sound : Sound care before) (step : System.Step care before after) :
    Sound care after := by
  obtain ⟨action, orderly, performed⟩ := step
  obtain ⟨coherent, changed⟩ := sound.coherent.perform sound.ordered orderly performed
  rcases changed with ⟨id, changes⟩ | ⟨library, acquired, built⟩
  · exact ⟨coherent,
      fun keys => changes.ordered sound.coherent.queue keys (sound.ordered keys),
      fun labels => changes.shows sound.coherent.queue rfl (fun careless => absurd labels careless)
        (sound.labelled labels),
      changes.shows sound.coherent.queue (.inl rfl) (fun _ => .inr rfl) sound.waits⟩
  · exact ⟨coherent, fun keys => (sound.ordered keys).new sound.coherent.queue built,
      fun labels => (sound.labelled labels).new sound.coherent.queue rfl built,
      sound.waits.new sound.coherent.queue (.inl rfl) built⟩

theorem Sound.run (run : System.Run care before after) (sound : Sound care before) :
    Sound care after :=
  Runs.invariant (fun _ _ step held => held.step step) run sound

end System
end Axial.Install
