/-
This file treats tables, functions from a finite index: gathering entries each
of which may be missing, and scanning a table while inserting the keys of its
entries into sets that refuse a key they already hold.
-/

import Mathlib

namespace Table

open Function List Option

variable {count : Nat} {Entry Key : Type}

/-! ### Gathering -/

/-- The table of all entries, if none is missing. -/
def collect (entries : Fin count → Option Entry) : Option (Fin count → Entry) :=
  if present : ∀ index, (entries index).isSome then
    some fun index => (entries index).get (present index)
  else
    none

theorem collect_eq_some (entries : Fin count → Option Entry) (table : Fin count → Entry) :
    collect entries = some table ↔ ∀ index, entries index = some (table index) := by
  unfold collect
  constructor
  · intro collected index
    split at collected
    · rw [← some_inj.mp collected, some_get]
    · cases collected
  · intro every
    rw [dif_pos fun index => by rw [every]; rfl, some_inj]
    funext index
    simp only [every, get_some]

/-! ### Inserting keys -/

variable [DecidableEq Key]

/-- Insert a key that is not there yet. -/
def insertNew (seen : List Key) (key : Key) : Option (List Key) :=
  if key ∈ seen then none else some (seen ++ [key])

/-- Insert several keys, one after the other. -/
def insertAll (seen keys : List Key) : Option (List Key) := keys.foldlM insertNew seen

theorem insertNew_eq_some (seen : List Key) (key : Key) (all : List Key) :
    insertNew seen key = some all ↔ key ∉ seen ∧ all = seen ++ [key] := by
  unfold insertNew
  split
  · rename_i member
    simp only [reduceCtorEq, member, not_true_eq_false, false_and]
  · rename_i fresh
    simp only [some_inj, fresh, not_false_eq_true, true_and]
    exact eq_comm

theorem insertAll_eq_some {seen : List Key} (distinct : seen.Nodup) (keys all : List Key) :
    insertAll seen keys = some all ↔ (seen ++ keys).Nodup ∧ all = seen ++ keys := by
  induction keys generalizing seen with
  | nil =>
    show some seen = some all ↔ _
    rw [some_inj, List.append_nil]
    exact ⟨fun same => ⟨distinct, same.symm⟩, fun both => both.2.symm⟩
  | cons key keys ih =>
    have split : seen ++ key :: keys = seen ++ [key] ++ keys := by
      rw [append_assoc]
      rfl
    have step : insertAll seen (key :: keys) =
        (insertNew seen key).bind fun next => insertAll next keys := rfl
    rw [step, split, bind_eq_some_iff]
    constructor
    · rintro ⟨next, inserted, later⟩
      obtain ⟨fresh, rfl⟩ := (insertNew_eq_some _ _ _).mp inserted
      exact (ih (List.Nodup.append distinct (nodup_singleton key)
        (disjoint_singleton.mpr fresh))).mp later
    · rintro ⟨allDistinct, rfl⟩
      have front := (nodup_append'.mp allDistinct).1
      have fresh : key ∉ seen :=
        disjoint_singleton.mp (nodup_append'.mp front).2.2
      exact ⟨seen ++ [key], (insertNew_eq_some _ _ _).mpr ⟨fresh, rfl⟩,
        (ih front).mpr ⟨allDistinct, rfl⟩⟩

omit [DecidableEq Key] in
/-- The keys of a whole table are distinct exactly when each entry's are and no two entries
share one. -/
theorem nodup_flatMap_finRange (keys : Fin count → List Key) :
    ((List.finRange count).flatMap keys).Nodup ↔
      (∀ index, (keys index).Nodup) ∧
        ∀ first second, first ≠ second → List.Disjoint (keys first) (keys second) := by
  rw [nodup_flatMap]
  have all : ∀ index : Fin count, index ∈ List.finRange count := mem_finRange
  constructor
  · rintro ⟨each, apart⟩
    refine ⟨fun index => each index (all index), fun first second different => ?_⟩
    have symmetric : Std.Symm (onFun List.Disjoint keys) :=
      ⟨fun _ _ disjoint => List.Disjoint.symm disjoint⟩
    exact apart.forall (all first) (all second) different
  · rintro ⟨each, apart⟩
    refine ⟨fun index _ => each index, ?_⟩
    exact (nodup_finRange count).pairwise_of_forall_ne
      fun first _ second _ different => apart first second different

/-! ### Changing several entries -/

variable {Value : Type}

/-- Change the entries of some keys, one after the other. -/
def changeAll (change : Key → Value → Value) (table : Key → Value) (keys : List Key) :
    Key → Value :=
  keys.foldl (fun table key => update table key (change key (table key))) table

/-- Change the entries of some keys, unless one of the changes is refused. -/
def changeAllM (change : Key → Value → Option Value) (table : Key → Value) (keys : List Key) :
    Option (Key → Value) :=
  keys.foldlM (fun table key =>
    (change key (table key)).map fun value => update table key value) table

variable {keys : List Key}

/-- Different keys do not get in each other's way. -/
theorem changeAll_apply (change : Key → Value → Value) (table : Key → Value) (distinct : keys.Nodup)
    (key : Key) :
    changeAll change table keys key =
      if key ∈ keys then change key (table key) else table key := by
  induction keys generalizing table with
  | nil => rfl
  | cons first keys ih =>
    obtain ⟨fresh, rest⟩ := nodup_cons.mp distinct
    have later := ih (update table first (change first (table first)))
      rest
    refine later.trans ?_
    by_cases same : key = first
    · subst same
      rw [if_neg fresh, if_pos mem_cons_self, update_self]
    · rw [update_of_ne same]
      simp only [mem_cons, same, false_or]

/-- If no change is refused they are all made. -/
theorem changeAllM_of_accepted {change : Key → Value → Option Value}
    {accepted : Key → Value → Value} {table : Key → Value} (distinct : keys.Nodup)
    (accepts : ∀ key ∈ keys, change key (table key) = some (accepted key (table key))) :
    changeAllM change table keys = some (changeAll accepted table keys) := by
  induction keys generalizing table with
  | nil => rfl
  | cons first keys ih =>
    obtain ⟨fresh, rest⟩ := nodup_cons.mp distinct
    obtain ⟨here, later⟩ := forall_mem_cons.mp accepts
    unfold changeAllM
    rw [foldlM_cons, here]
    refine ih rest fun key member => ?_
    have other : key ≠ first := fun same => fresh (same ▸ member)
    have kept : update table first (accepted first (table first)) key = table key :=
      update_of_ne other _ _
    show change key (update table first (accepted first (table first)) key) =
      some (accepted key (update table first (accepted first (table first)) key))
    rw [kept]
    exact later key member

end Table
