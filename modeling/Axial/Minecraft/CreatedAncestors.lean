/-
This file is about the directories that a finished component table says are to be
created, `created_ancestors` in `core/minecraft/src/managed_component_table.rs`.
They come out of a table that counts them and their path bytes, and are sorted:
so they are few and short, strictly increasing, and no two of them have the same
portable key.
-/

import Axial.Minecraft.ComponentTable

namespace Axial.Minecraft

open Bytes Reader List Option
open ComponentRowValidator ComponentTableBuilder ComponentTableSequenceValidator

variable {unicode : Unicode}

/-! ### The order -/

namespace ComponentCreatedAncestor

variable {first second third : ComponentCreatedAncestor unicode}

theorem le_trans (early : first.le second = true) (late : second.le third = true) :
    first.le third = true := by
  cases first with
  | componentRoot => rfl
  | relative path =>
    cases second with
    | componentRoot => cases early
    | relative middle =>
      cases third with
      | componentRoot => cases late
      | relative last =>
        simp only [le, decide_eq_true_eq] at early late ⊢
        exact early.trans late

theorem le_total (first second : ComponentCreatedAncestor unicode) :
    (first.le second || second.le first) = true := by
  cases first with
  | componentRoot => rfl
  | relative path =>
    cases second with
    | componentRoot => rfl
    | relative other =>
      simp only [le, Bool.or_eq_true, decide_eq_true_eq]
      exact LinearOrder.le_total path.value other.value

theorem le_antisymm (early : first.le second = true) (late : second.le first = true) :
    first = second := by
  cases first with
  | componentRoot =>
    cases second with
    | componentRoot => rfl
    | relative path => cases late
  | relative path =>
    cases second with
    | componentRoot => cases early
    | relative other =>
      simp only [le, decide_eq_true_eq] at early late
      rw [relative.injEq]
      ext1
      exact early.antisymm late

end ComponentCreatedAncestor

instance : Std.Total fun first second : ComponentCreatedAncestor unicode => first.le second where
  total first second := Bool.or_eq_true_iff.mp (ComponentCreatedAncestor.le_total first second)

instance : IsTrans (ComponentCreatedAncestor unicode) fun first second => first.le second where
  trans _ _ _ := ComponentCreatedAncestor.le_trans

/-! ### The table of created ancestors -/

/-- The total length of the paths. -/
def targetPathBytes (targets : List (ComponentCreatedAncestor unicode)) : Nat :=
  (targets.map ComponentCreatedAncestor.pathLen).sum

namespace CreatedAncestors

/-- The ancestors of a table, in the order of its entries. -/
def values (created : CreatedAncestors unicode) : List (ComponentCreatedAncestor unicode) :=
  created.ancestors.entries.map Sigma.snd

/-- What a table of created ancestors counts is what is in it, under its own keys. -/
structure Sound (created : CreatedAncestors unicode) : Prop where
  keyed : created.values.map ComponentCreatedAncestor.key = created.ancestors.keys
  few : created.values.length ≤ maxCreatedAncestors
  counted : targetPathBytes created.values = created.pathBytes
  short : created.pathBytes ≤ maxCreatedAncestorPathBytes

variable {created next : CreatedAncestors unicode}

theorem Sound.empty : Sound (⟨∅, 0, 0⟩ : CreatedAncestors unicode) :=
  ⟨rfl, Nat.zero_le _, rfl, Nat.zero_le _⟩

theorem Sound.add {ancestor : ComponentCreatedAncestor unicode}
    (added : created.add ancestor = some next) (sound : created.Sound) : next.Sound := by
  unfold CreatedAncestors.add at added
  split at added
  · cases added
    exact sound
  · rename_i absent
    simp only [bind_eq_some, guard_eq_some', exists_const, pure_eq_some] at added
    obtain ⟨pathBytes, counted, allocationBytes, -, room, rfl⟩ := added
    have ⟨short, total⟩ := le_of_addWithin counted
    have fresh : (created.ancestors.insert ancestor.key ancestor).entries =
        ⟨ancestor.key, ancestor⟩ :: created.ancestors.entries :=
      AList.entries_insert_of_notMem (AList.lookup_eq_none.mp absent)
    have length : created.ancestors.keys.length = created.values.length := by
      rw [← sound.keyed, length_map]
    have others := sound.keyed
    refine ⟨?_, ?_, ?_, short⟩
    · unfold values AList.keys List.keys at others ⊢
      rw [fresh, map_cons, map_cons, map_cons, others]
    · unfold values at length ⊢
      rw [fresh, map_cons, length_cons]
      omega
    · have counted := sound.counted
      unfold targetPathBytes values at counted ⊢
      rw [fresh, map_cons, map_cons, sum_cons, counted, total, Nat.add_comm]

theorem Sound.addFrom {names : List String} {depth : Option UInt16}
    (added : created.addFrom names depth = some next) (sound : created.Sound) : next.Sound := by
  cases depth with
  | none =>
    cases added
    exact sound
  | some depth =>
    simp only [CreatedAncestors.addFrom, bind_eq_some, guard_eq_some', exists_const] at added
    refine Runs.foldlM_invariant added.2 (fun before parentDepth _ after taken held => ?_) sound
    obtain ⟨ancestor, -, here⟩ := bind_eq_some_iff.mp taken
    exact Sound.add here held

/-! ### The sorted ancestors -/

theorem sorted_perm (created : CreatedAncestors unicode) : created.sorted.Perm created.values :=
  perm_insertionSort _ _

section

variable (sound : created.Sound)

include sound

theorem Sound.keys_nodup : (created.sorted.map ComponentCreatedAncestor.key).Nodup := by
  rw [(created.sorted_perm.map _).nodup_iff, sound.keyed]
  exact created.ancestors.keys_nodup

theorem Sound.increasing : created.sorted.Pairwise fun first second => second.le first = false := by
  have ordered : created.sorted.Pairwise fun first second => first.le second = true :=
    pairwise_insertionSort _ _
  have distinct : created.sorted.Pairwise (· ≠ ·) := (List.Nodup.of_map _ sound.keys_nodup)
  refine (ordered.and distinct).imp fun pair => ?_
  rw [Bool.eq_false_iff]
  exact fun back => pair.2 (ComponentCreatedAncestor.le_antisymm pair.1 back)

theorem Sound.sorted_few : created.sorted.length ≤ maxCreatedAncestors :=
  created.sorted_perm.length_eq ▸ sound.few

theorem Sound.sorted_short : targetPathBytes created.sorted ≤ maxCreatedAncestorPathBytes := by
  unfold targetPathBytes
  rw [(created.sorted_perm.map _).sum_eq]
  exact sound.counted.trans_le sound.short

end

end CreatedAncestors

theorem ComponentRowValidator.created_sound_of_push (component : ManagedComponentKind)
    (before : ComponentRowValidator unicode) (row : ComponentTableRow unicode)
    (next : ComponentRowValidator unicode) (accepted : before.push component row = some next)
    (sound : before.created.Sound) : next.created.Sound :=
  CreatedAncestors.Sound.addFrom (push_eq_some accepted).2.1 sound

theorem ComponentRowValidator.created_sound_of_new {expectedRows : Nat}
    {rows : ComponentRowValidator unicode}
    (made : ComponentRowValidator.new unicode expectedRows = some rows) : rows.created.Sound := by
  unfold ComponentRowValidator.new at made
  split_ifs at made
  cases made
  exact CreatedAncestors.Sound.empty

/-! ### Finished tables -/

/-- A table that a builder or a parser finished. -/
inductive FinishedTable (sha256 : List UInt8 → Fixed 32) (manifest : ComponentIntentManifest)
    (summary : ComponentTableSummary unicode) : Prop where
  | built {component totalRows transactionNonce builder calls}
      (made : ComponentTableBuilder.new unicode component totalRows transactionNonce = some builder)
      (finished : (builder.pushShards sha256 calls).1.finish sha256 = some (manifest, summary))
  | parsed {parser last blobs shards}
      (made : ComponentTableParser.new unicode manifest = some parser)
      (parsed : parser.parseAll sha256 blobs = some (last, shards))
      (finished : last.finish sha256 = some summary)

variable {sha256 : List UInt8 → Fixed 32} {manifest : ComponentIntentManifest}
  {summary : ComponentTableSummary unicode}

theorem FinishedTable.valid (table : FinishedTable sha256 manifest summary) :
    validateManifest manifest = some () := by
  cases table with
  | built made finished =>
    exact ((finish_eq_some _ _ _).mp finished).2.2.1
  | parsed made parsed finished =>
    simp only [ComponentTableParser.new, bind_eq_some] at made
    obtain ⟨_, valid, -⟩ := made
    exact valid

/-- The ancestors of a finished table are those of a sound table, sorted. -/
theorem FinishedTable.createdAncestors (table : FinishedTable sha256 manifest summary) :
    ∃ created : CreatedAncestors unicode,
      created.Sound ∧ summary.createdAncestors = created.sorted := by
  -- a table that was parsed could also have been built
  have built : ∃ component totalRows transactionNonce,
      ∃ builder : ComponentTableBuilder unicode, ∃ calls,
      ComponentTableBuilder.new unicode component totalRows transactionNonce = some builder ∧
      (builder.pushShards sha256 calls).1.finish sha256 = some (manifest, summary) := by
    cases table with
    | built made finished => exact ⟨_, _, _, _, _, made, finished⟩
    | parsed made parsed finished =>
      obtain ⟨builder, made, -, -, finished⟩ := builder_rebuilds made parsed finished
      exact ⟨_, _, _, builder, _, made, finished⟩
  obtain ⟨component, totalRows, nonce, builder, calls, made, finished⟩ := built
  obtain ⟨sound, sequenceFinished, -⟩ := (finish_eq_some _ _ _).mp finished
  obtain ⟨pieces, pushed, -⟩ := pushShards_sealed sound
  simp only [ComponentTableBuilder.new, bind_eq_some, guard_eq_some', exists_const,
    pure_eq_some] at made
  obtain ⟨-, start, begun, rfl⟩ := made
  obtain ⟨-, -, -, fresh⟩ := ComponentTableSequenceValidator.new_eq_some begun
  simp only [ComponentTableSequenceValidator.finish, bind_eq_some, guard_eq_some',
    exists_const, pure_eq_some] at sequenceFinished
  obtain ⟨-, -, -, rfl⟩ := sequenceFinished
  let holds (rows : ComponentRowValidator unicode) : Prop := rows.created.Sound
  have held : holds _ :=
    pushAll_invariant
      created_sound_of_push pushed
      (created_sound_of_new fresh)
  exact ⟨_, held, rfl⟩

end Axial.Minecraft
