/-
This file is about the queue that is built of the table after a restart. It holds the
rows that are not terminal, those of queued installs in their durable order, and it is
coherent if the queue before it was. Where the queued rows are ordered as the queue, the
new queue is the old one.
-/

import Axial.Install.Operations

namespace Axial.Install.InstallQueue

open Fallible List Option

variable {queue after : InstallQueue} {id : String} {library : Option GenerationPin}

/-! ### The pending rows -/

variable {row : Row}

theorem mem_pendingRows : (⟨id, row⟩ : Σ _ : String, Row) ∈ queue.pendingRows ↔
    queue.rows.lookup id = some row ∧ row.phase ≠ .terminal := by
  unfold pendingRows
  rw [mem_insertionSort, mem_filter, decide_eq_true_iff]
  exact and_congr_left' AList.mem_lookup_iff.symm

theorem pendingRows_nodup (queue : InstallQueue) :
    (queue.pendingRows.map Sigma.fst).Nodup := by
  unfold pendingRows
  refine ((perm_insertionSort _ _).map Sigma.fst).nodup_iff.mpr ?_
  exact (filter_sublist.map Sigma.fst).nodup queue.rows.keys_nodup

theorem mem_durableQueue :
    id ∈ queue.durableQueue ↔ ∃ row, queue.rows.lookup id = some row ∧ row.phase = .queued := by
  unfold durableQueue
  rw [List.mem_map]
  constructor
  · rintro ⟨⟨_, row⟩, member, rfl⟩
    obtain ⟨pending, queued⟩ := mem_filter.mp member
    exact ⟨row, (mem_pendingRows.mp pending).1, of_decide_eq_true queued⟩
  · rintro ⟨row, stored, queued⟩
    refine ⟨⟨id, row⟩, mem_filter.mpr ⟨mem_pendingRows.mpr ⟨stored, ?_⟩,
      decide_eq_true queued⟩, rfl⟩
    rw [queued]
    exact nofun

theorem durableQueue_nodup (queue : InstallQueue) : queue.durableQueue.Nodup :=
  (filter_sublist.map Sigma.fst).nodup queue.pendingRows_nodup

/-- The durable queue is ordered by the keys. -/
theorem durableQueue_sorted (queue : InstallQueue) :
    queue.durableQueue.Pairwise fun first second => ∀ left right,
      queue.keyOf first = some left → queue.keyOf second = some right → left ≤ right := by
  let precedes : (Σ _ : String, Row) → (Σ _ : String, Row) → Prop :=
    fun left right => left.2.key ≤ right.2.key
  have total : Std.Total precedes := ⟨fun left right => le_total left.2.key right.2.key⟩
  have transitive : IsTrans _ precedes := ⟨fun _ _ _ => le_trans⟩
  have sorted : queue.pendingRows.Pairwise precedes := pairwise_insertionSort _ _
  refine pairwise_map.mpr ((sorted.filter _).imp_of_mem ?_)
  intro first second memberFirst memberSecond below left right keyLeft keyRight
  have storedFirst := (mem_pendingRows.mp (mem_filter.mp memberFirst).1).1
  have storedSecond := (mem_pendingRows.mp (mem_filter.mp memberSecond).1).1
  unfold keyOf at keyLeft keyRight
  rw [storedFirst] at keyLeft
  rw [storedSecond] at keyRight
  cases keyLeft
  cases keyRight
  exact below

/-- The installs of the durable queue are those that wait. -/
theorem Coherent.mem_durableQueue (coherent : queue.Coherent) :
    id ∈ queue.durableQueue ↔ id ∈ queue.queued := by
  rw [InstallQueue.mem_durableQueue]
  constructor
  · rintro ⟨row, stored, queued⟩
    have standing := coherent.standing id
    rw [stored] at standing
    generalize queue.entries.lookup id = found at standing
    cases standing with
    | past _ terminal | settled _ terminal => cases queued.symm.trans terminal
    | waiting waits => exact waits
    | working _ _ phase =>
      rcases phase with running | unsettled
      · cases queued.symm.trans running
      · cases queued.symm.trans unsettled
  · intro waits
    obtain ⟨_, row, _, stored, _, queued, _⟩ := coherent.of_queued waits
    exact ⟨row, stored, queued⟩

/-- Where the queued rows are ordered as the queue, the durable queue is the queue. -/
theorem durableQueue_eq (coherent : queue.Coherent) (ordered : queue.Ordered) :
    queue.durableQueue = queue.queued := by
  have permuted : queue.durableQueue.Perm queue.queued :=
    (perm_ext_iff_of_nodup queue.durableQueue_nodup coherent.distinct).mpr fun _ =>
      coherent.mem_durableQueue
  refine permuted.eq_of_pairwise ?_ queue.durableQueue_sorted
    (ordered.imp fun ⟨left, right, keyLeft, keyRight, less⟩ left' right' same same' => ?_)
  · intro first second memberFirst memberSecond below above
    -- The queue has the two in one order or the other.
    by_contra different
    let either : String → String → Prop := fun first second =>
      queue.Earlier first second ∨ queue.Earlier second first
    have symmetric : Std.Symm either := ⟨fun _ _ => Or.symm⟩
    have apart : queue.queued.Pairwise either := ordered.imp Or.inl
    rcases apart.forall (coherent.mem_durableQueue.mp memberFirst) memberSecond different with
      ⟨left, right, keyLeft, keyRight, less⟩ | ⟨left, right, keyLeft, keyRight, less⟩
    · exact (above right left keyRight keyLeft).not_gt less
    · exact (below right left keyRight keyLeft).not_gt less
  · rw [keyLeft] at same
    rw [keyRight] at same'
    cases same
    cases same'
    exact less.le

/-! ### Loading -/

theorem loaded_rows (rows : List (Σ _ : String, Row)) (queue : InstallQueue) :
    (rows.foldl (load library) queue).rows = queue.rows := by
  induction rows generalizing queue with
  | nil => rfl
  | cons row rows ih =>
    rw [foldl_cons, ih]
    unfold load
    split <;> rfl

theorem loaded_queued (rows : List (Σ _ : String, Row)) (queue : InstallQueue) :
    (rows.foldl (load library) queue).queued =
      queue.queued ++ (rows.filter fun row => row.2.phase = .queued).map Sigma.fst := by
  induction rows generalizing queue with
  | nil => exact (List.append_nil _).symm
  | cons row rows ih =>
    rw [foldl_cons, ih]
    by_cases queued : row.2.phase = .queued
    · rw [filter_cons_of_pos (by simpa using queued), load, if_pos queued, map_cons]
      exact (append_cons _ _ _).symm
    · rw [filter_cons_of_neg (by simpa using queued), load, if_neg queued]
      rfl

theorem loaded_entries (rows : List (Σ _ : String, Row)) (queue : InstallQueue)
    (distinct : (rows.map Sigma.fst).Nodup) :
    (∀ row, ⟨id, row⟩ ∈ rows →
      (rows.foldl (load library) queue).entries.lookup id = some (Row.entry row library)) ∧
    (id ∉ rows.map Sigma.fst →
      (rows.foldl (load library) queue).entries.lookup id = queue.entries.lookup id) := by
  induction rows generalizing queue with
  | nil => exact ⟨fun _ member => absurd member not_mem_nil, fun _ => rfl⟩
  | cons first rows ih =>
    obtain ⟨fresh, rest⟩ := nodup_cons.mp distinct
    have added : (load library queue first).entries =
        queue.entries.insert first.1 (Row.entry first.2 library) := by
      unfold load
      split <;> rfl
    obtain ⟨present, missing⟩ := ih (load library queue first) rest
    refine ⟨fun row member => ?_, fun unlisted => ?_⟩
    · rcases mem_cons.mp member with rfl | later
      · rw [foldl_cons, missing fresh, added, AList.lookup_insert]
      · exact present row later
    · rw [map_cons, mem_cons, not_or] at unlisted
      rw [foldl_cons, missing unlisted.2, added, AList.lookup_insert_ne unlisted.1]

/-- The active install is one of those that are not queued. -/
theorem loaded_active (rows : List (Σ _ : String, Row)) (queue : InstallQueue)
    (active : (rows.foldl (load library) queue).active = some id) :
    queue.active = some id ∨ ∃ row, ⟨id, row⟩ ∈ rows ∧ row.phase ≠ .queued := by
  induction rows generalizing queue with
  | nil => exact .inl active
  | cons first rows ih =>
    rcases ih _ active with here | ⟨row, member, phase⟩
    · unfold load at here
      split at here
      · exact .inl here
      · rename_i phase
        cases here
        exact .inr ⟨first.2, mem_cons_self, phase⟩
    · exact .inr ⟨row, mem_cons_of_mem _ member, phase⟩

theorem loaded_active_isSome (rows : List (Σ _ : String, Row)) (queue : InstallQueue)
    (some_active : queue.active.isSome ∨ ∃ row ∈ rows, row.2.phase ≠ .queued) :
    (rows.foldl (load library) queue).active.isSome := by
  induction rows generalizing queue with
  | nil =>
    rcases some_active with before | ⟨_, member, _⟩
    · exact before
    · cases member
  | cons first rows ih =>
    refine ih (load library queue first) ?_
    by_cases queued : first.2.phase = .queued
    · rcases some_active with before | ⟨row, member, phase⟩
      · refine .inl ?_
        rw [load, if_pos queued]
        exact before
      · rcases mem_cons.mp member with rfl | later
        · exact absurd queued phase
        · exact .inr ⟨row, later, phase⟩
    · refine .inl ?_
      rw [load, if_neg queued]
      rfl

/-! ### The new queue -/

variable {acquired : Bool}

section

variable (built : new library acquired queue = .ok after)

include built

theorem new_eq_ok :
    queue.pendingRows.length ≤ maxInstalls ∧
      after = queue.pendingRows.foldl (load library)
        { queued := [], active := none, entries := ∅, closed := false, rows := queue.rows } := by
  unfold new at built
  simp only [ite_throw_eq_ok, not_lt, Except.ok.injEq] at built
  exact ⟨built.1, built.2.2.symm⟩

theorem new_queued : after.queued = queue.durableQueue := by
  rw [(new_eq_ok built).2, loaded_queued]
  rfl

theorem new_rows : after.rows = queue.rows := by
  rw [(new_eq_ok built).2, loaded_rows]

end

/-- The entries of the new queue are those of the pending rows. -/
theorem new_entries {acquired : Bool} (built : new library acquired queue = .ok after) :
    (∀ row, queue.rows.lookup id = some row → row.phase ≠ .terminal →
      after.entries.lookup id = some (Row.entry row library)) ∧
    (∀ entry, after.entries.lookup id = some entry →
      ∃ row, queue.rows.lookup id = some row ∧ row.phase ≠ .terminal ∧
        entry = Row.entry row library) := by
  obtain ⟨present, missing⟩ := @loaded_entries id library queue.pendingRows
    { queued := [], active := none, entries := ∅, closed := false, rows := queue.rows }
    queue.pendingRows_nodup
  rw [← (new_eq_ok built).2] at present missing
  refine ⟨fun row stored pending => present row (mem_pendingRows.mpr ⟨stored, pending⟩),
    fun entry found => ?_⟩
  by_cases listed : id ∈ queue.pendingRows.map Sigma.fst
  · obtain ⟨⟨_, row⟩, member, rfl⟩ := List.mem_map.mp listed
    obtain ⟨stored, pending⟩ := mem_pendingRows.mp member
    rw [present row member] at found
    cases found
    exact ⟨row, stored, pending, rfl⟩
  · rw [missing listed, AList.lookup_empty] at found
    cases found

/-- A row that is neither queued nor terminal is that of the active install. -/
theorem Coherent.active_of_row (coherent : queue.Coherent)
    (stored : queue.rows.lookup id = some row) (queued : row.phase ≠ .queued)
    (terminal : row.phase ≠ .terminal) : queue.active = some id := by
  have standing := coherent.standing id
  rw [stored] at standing
  generalize queue.entries.lookup id = found at standing
  cases standing with
  | past _ phase | settled _ phase => exact absurd phase terminal
  | waiting _ _ phase => exact absurd phase queued
  | working works => exact works

/-- The new queue has the same active install. -/
theorem new_active (coherent : queue.Coherent) (built : new library acquired queue = .ok after) :
    after.active = queue.active := by
  have known : ∀ id, after.active = some id → queue.active = some id := by
    intro id active
    rw [(new_eq_ok built).2] at active
    rcases loaded_active _ _ active with wrong | ⟨row, member, queued⟩
    · cases wrong
    · obtain ⟨stored, terminal⟩ := mem_pendingRows.mp member
      exact coherent.active_of_row stored queued terminal
  cases active : queue.active with
  | none =>
    cases there : after.active with
    | none => rfl
    | some id => cases active.symm.trans (known id there)
  | some id =>
    obtain ⟨_, row, _, stored, _, phase, _⟩ := coherent.of_active active
    have different : row.phase ≠ .queued ∧ row.phase ≠ .terminal := by
      rcases phase with same | same <;> rw [same] <;> exact ⟨nofun, nofun⟩
    have present : after.active.isSome := by
      rw [(new_eq_ok built).2]
      exact loaded_active_isSome _ _
        (.inr ⟨⟨id, row⟩, mem_pendingRows.mpr ⟨stored, different.2⟩, different.1⟩)
    obtain ⟨other, there⟩ := isSome_iff_exists.mp present
    rw [there, ← known other there, active]

/-- The entry of a row that is not terminal is pending if the row is. -/
theorem pending_entry {entry : Entry} (pending : Pending id entry row) :
    Pending id (Row.entry row library) row := by
  unfold Row.entry
  dsimp only
  split
  · exact ⟨pending.rowNotDone, pending.rowNotDone, pending.rowId, pending.rowId, rfl⟩
  · exact ⟨rfl, pending.rowNotDone, pending.rowId, pending.rowId, rfl⟩

theorem entry_request (row : Row) : (Row.entry row library).request = row.request := by
  unfold Row.entry
  dsimp only
  split <;> rfl

/-- A row that is not terminal is that of a pending install. -/
theorem Coherent.of_unsettled (coherent : queue.Coherent) (stored : queue.rows.lookup id = some row)
    (unsettled : row.phase ≠ .terminal) :
    ∃ entry, queue.entries.lookup id = some entry ∧ Pending id entry row := by
  have standing := coherent.standing id
  rw [stored] at standing
  generalize queue.entries.lookup id = found at standing ⊢
  cases standing with
  | past _ terminal | settled _ terminal => exact absurd terminal unsettled
  | waiting _ _ _ pending | working _ _ _ pending => exact ⟨_, rfl, pending⟩

/-- After a restart the queue is coherent again. -/
theorem Coherent.new (coherent : queue.Coherent)
    (built : InstallQueue.new library acquired queue = .ok after) : after.Coherent where
  standing := by
    intro id
    have waits : id ∈ after.queued ↔ id ∈ queue.queued := by
      rw [new_queued built]
      exact coherent.mem_durableQueue
    have works := new_active coherent built
    have gone : queue.Gone id → after.Gone id := fun both =>
      ⟨fun member => both.1 (waits.mp member), works ▸ both.2⟩
    obtain ⟨pendingEntries, entriesPending⟩ := @new_entries queue after id library _ built
    rw [new_rows built]
    cases stored : queue.rows.lookup id with
    | none =>
      have missing : after.entries.lookup id = none := by
        refine eq_none_iff_forall_ne_some.mpr fun entry found => ?_
        obtain ⟨row, there, _⟩ := entriesPending entry found
        cases stored.symm.trans there
      have standing := coherent.standing id
      rw [stored, coherent.unknown stored] at standing
      rw [missing]
      cases standing with
      | absent none => exact .absent (gone none)
    | some row =>
      by_cases terminal : row.phase = .terminal
      · have missing : after.entries.lookup id = none := by
          refine eq_none_iff_forall_ne_some.mpr fun entry found => ?_
          obtain ⟨_, there, pending, _⟩ := entriesPending entry found
          cases stored.symm.trans there
          exact pending terminal
        rw [missing]
        exact .past (gone (coherent.of_terminal stored terminal).1) terminal
      rw [pendingEntries row stored terminal]
      by_cases queued : row.phase = .queued
      · have member := coherent.mem_durableQueue.mp
          (InstallQueue.mem_durableQueue.mpr ⟨row, stored, queued⟩)
        obtain ⟨_, _, _, again, pending, _, _, _, idle⟩ := coherent.of_queued member
        cases stored.symm.trans again
        refine .waiting (waits.mpr member) (works ▸ idle) queued (pending_entry pending) ?_ ?_ <;>
          rw [Row.entry, if_pos queued]
      · have active := coherent.active_of_row stored queued terminal
        obtain ⟨_, _, _, again, pending, phase, left⟩ := coherent.of_active active
        cases stored.symm.trans again
        exact .working (works.trans active) (fun member => left (waits.mp member)) phase
          (pending_entry pending)
  distinct := by
    rw [new_queued built]
    exact queue.durableQueue_nodup
  requests := by
    intro first second left right foundLeft foundRight _ _ same
    obtain ⟨rowLeft, storedLeft, pendingLeft, rfl⟩ := (new_entries built).2 left foundLeft
    obtain ⟨rowRight, storedRight, pendingRight, rfl⟩ := (new_entries built).2 right foundRight
    rw [entry_request, entry_request] at same
    obtain ⟨old, foundOld, was⟩ := coherent.of_unsettled storedLeft pendingLeft
    obtain ⟨other, foundOther, too⟩ := coherent.of_unsettled storedRight pendingRight
    exact coherent.requests foundOld foundOther was.notDone too.notDone
      (was.request.trans (same.trans too.request.symm))
  capacity := by
    refine le_trans ?_ (new_eq_ok built).1
    unfold occupied
    rw [new_queued built, durableQueue, length_map]
    split
    · rename_i present
      obtain ⟨id, active⟩ := isSome_iff_exists.mp present
      rw [new_active coherent built] at active
      obtain ⟨_, row, _, stored, _, phase, _⟩ := coherent.of_active active
      have listed : ⟨id, row⟩ ∈ queue.pendingRows :=
        mem_pendingRows.mpr ⟨stored, by rcases phase with same | same <;> rw [same] <;> exact nofun⟩
      refine Nat.succ_le_of_lt (length_filter_lt_length_iff_exists.mpr ⟨_, listed, ?_⟩)
      rcases phase with same | same <;> simp [same]
    · exact length_filter_le _ _

end Axial.Install.InstallQueue
