/-
This file is about what can be reached in a graph: the search that keeps a queue of
nodes whose children are still to be looked at, and that, given time enough, finds
exactly the nodes that a path leads to.
-/

import Mathlib

namespace Closure

open Relation List

variable {Node : Type} [DecidableEq Node]

/-- Note the children that have not been seen, in the seen nodes and in the queue. -/
def note (state : List Node × List Node) (child : Node) : List Node × List Node :=
  if child ∈ state.1 then state else (state.1 ++ [child], state.2 ++ [child])

/-- Look at the children of queued nodes, so many times at most. -/
def explore (children : Node → List Node) : Nat → List Node → List Node → List Node
  | 0, seen, _ => seen
  | _ + 1, seen, [] => seen
  | fuel + 1, seen, node :: queue =>
    let (seen, queue) := (children node).foldl note (seen, queue)
    explore children fuel seen queue

/-- The nodes found from some nodes, in a graph whose nodes are listed. -/
def reachable (children : Node → List Node) (nodes roots : List Node) : List Node :=
  explore children (roots.length + nodes.length) roots roots

/-! ### Noting children -/

/-- Both lists get the same new nodes, each of them once and unseen before. -/
theorem foldl_note (children seen queue : List Node) :
    ∃ new, children.foldl note (seen, queue) = (seen ++ new, queue ++ new) ∧ new.Nodup ∧
      (∀ node ∈ new, node ∈ children ∧ node ∉ seen) ∧ ∀ child ∈ children, child ∈ seen ++ new := by
  induction children generalizing seen queue with
  | nil => exact ⟨[], by simp, nodup_nil, nofun, nofun⟩
  | cons child children ih =>
    rw [foldl_cons]
    by_cases known : child ∈ seen
    · obtain ⟨new, same, distinct, fresh, all⟩ := ih seen queue
      refine ⟨new, ?_, distinct, fun node member => ?_, fun other member => ?_⟩
      · rw [← same, note, if_pos known]
      · exact ⟨mem_cons_of_mem _ (fresh node member).1, (fresh node member).2⟩
      · rcases mem_cons.mp member with rfl | later
        · exact mem_append_left _ known
        · exact all other later
    · obtain ⟨new, same, distinct, fresh, all⟩ :=
        ih (seen ++ [child]) (queue ++ [child])
      refine ⟨child :: new, ?_, ?_, fun node member => ?_, fun other member => ?_⟩
      · rw [note, if_neg known, same]
        simp
      · exact nodup_cons.mpr ⟨fun again => (fresh child again).2 (by simp), distinct⟩
      · rcases mem_cons.mp member with rfl | later
        · exact ⟨mem_cons_self, known⟩
        · exact ⟨mem_cons_of_mem _ (fresh node later).1,
            fun before => (fresh node later).2 (mem_append_left _ before)⟩
      · have shift : seen ++ child :: new = seen ++ [child] ++ new := by simp
        rw [shift]
        rcases mem_cons.mp member with rfl | later
        · simp
        · exact all other later

/-! ### What is found -/

variable {children : Node → List Node}

/-- The node is a child of the other. -/
def Child (children : Node → List Node) (parent child : Node) : Prop := child ∈ children parent

theorem seen_subset_explore (fuel : Nat) (seen queue : List Node) :
    seen ⊆ explore children fuel seen queue := by
  induction fuel generalizing seen queue with
  | zero => exact List.Subset.refl _
  | succ fuel ih =>
    cases queue with
    | nil => exact List.Subset.refl _
    | cons node queue =>
      obtain ⟨new, same, -, -, -⟩ := foldl_note (children node) seen queue
      unfold explore
      rw [same]
      exact List.Subset.trans (subset_append_left seen new) (ih _ _)

/-- Whatever is found can be reached. -/
theorem explore_sound {reached : Node → Prop}
    (closed : ∀ node, reached node → ∀ child ∈ children node, reached child) (fuel : Nat)
    {seen queue : List Node} (allSeen : ∀ node ∈ seen, reached node)
    (allQueued : ∀ node ∈ queue, reached node) :
    ∀ node ∈ explore children fuel seen queue, reached node := by
  induction fuel generalizing seen queue with
  | zero => exact allSeen
  | succ fuel ih =>
    cases queue with
    | nil => exact allSeen
    | cons node queue =>
      obtain ⟨new, same, -, fresh, -⟩ := foldl_note (children node) seen queue
      have found : ∀ other ∈ new, reached other := fun other member =>
        closed node (allQueued node mem_cons_self) other (fresh other member).1
      unfold explore
      rw [same]
      exact ih
        (fun other member => (mem_append.mp member).elim (allSeen other) (found other))
        (fun other member => (mem_append.mp member).elim
          (fun later => allQueued other (mem_cons_of_mem _ later)) (found other))

variable {nodes : List Node}

/-- With fuel for the queue and all nodes yet unseen, what is found is closed: a seen node whose
children have not been looked at is still queued. -/
theorem explore_closed (inside : ∀ node, ∀ child ∈ children node, child ∈ nodes) (fuel : Nat)
    {seen queue : List Node} (enough : queue.length + (nodes.toFinset \ seen.toFinset).card ≤ fuel)
    (pending : ∀ node ∈ seen, node ∈ queue ∨ ∀ child ∈ children node, child ∈ seen) :
    ∀ node ∈ explore children fuel seen queue, ∀ child ∈ children node,
      child ∈ explore children fuel seen queue := by
  induction fuel generalizing seen queue with
  | zero =>
    have empty : queue = [] := length_eq_zero_iff.mp (by omega)
    subst empty
    intro node member
    exact (pending node member).elim (fun queued => absurd queued not_mem_nil) id
  | succ fuel ih =>
    cases queue with
    | nil =>
      intro node member
      exact (pending node member).elim (fun queued => absurd queued not_mem_nil) id
    | cons node queue =>
      obtain ⟨new, same, distinct, fresh, all⟩ := foldl_note (children node) seen queue
      unfold explore
      rw [same]
      refine ih ?_ ?_
      · have fewer : (nodes.toFinset \ (seen ++ new).toFinset).card + new.length ≤
            (nodes.toFinset \ seen.toFinset).card := by
          rw [← toFinset_card_of_nodup distinct, ← Finset.card_union_of_disjoint]
          · refine Finset.card_le_card fun other member => ?_
            simp only [Finset.mem_union, Finset.mem_sdiff, mem_toFinset,
              mem_append, not_or] at member ⊢
            rcases member with ⟨listed, unseen, -⟩ | found
            · exact ⟨listed, unseen⟩
            · exact ⟨inside node other (fresh other found).1, (fresh other found).2⟩
          · rw [Finset.disjoint_left]
            simp only [Finset.mem_sdiff, mem_toFinset, mem_append, not_or]
            exact fun other apart found => apart.2.2 found
        rw [length_append]
        rw [length_cons] at enough
        omega
      · intro other member
        rcases mem_append.mp member with before | found
        · rcases pending other before with queued | looked
          · rcases mem_cons.mp queued with rfl | later
            · exact .inr all
            · exact .inl (mem_append_left _ later)
          · exact .inr fun child below => mem_append_left _ (looked child below)
        · exact .inl (mem_append_right _ found)

/-- The nodes found are those that a path from a root leads to. -/
theorem mem_reachable {roots : List Node} (inside : ∀ node, ∀ child ∈ children node, child ∈ nodes)
    {node : Node} :
    node ∈ reachable children nodes roots ↔
      ∃ root ∈ roots, ReflTransGen (Child children) root node := by
  unfold reachable
  constructor
  · refine @explore_sound _ _ _ (fun node => ∃ root ∈ roots, ReflTransGen (Child children) root node)
      ?_ _ _ _ ?_ ?_ node
    · rintro parent ⟨root, member, path⟩ child below
      exact ⟨root, member, path.tail below⟩
    · exact fun root member => ⟨root, member, .refl⟩
    · exact fun root member => ⟨root, member, .refl⟩
  · rintro ⟨root, member, path⟩
    have closed : ∀ node ∈ explore children (roots.length + nodes.length) roots roots,
        ∀ child ∈ children node, child ∈ explore children (roots.length + nodes.length) roots roots :=
      explore_closed inside (roots.length + nodes.length)
        (Nat.add_le_add_left ((Finset.card_le_card Finset.sdiff_subset).trans
          (toFinset_card_le nodes)) _)
        (fun node member => .inl member)
    induction path with
    | refl => exact seen_subset_explore _ _ _ member
    | tail _ below ih => exact closed _ ih _ below

end Closure
