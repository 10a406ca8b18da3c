/-
This file counts the entries of the directories that a list of paths spans. A path
is a list of names. When the paths come one after the other, and those under one
directory come together, one counter for each directory on the way to the last
path is enough: the counters of the directories that the next path leaves are
final.
-/

import Mathlib.Data.Finset.Card
import Mathlib.Data.Finset.Union
import Mathlib.Data.List.Lex
import Mathlib.Data.List.Infix

namespace PathTree

open List Option

variable {Name : Type}

/-- A path leads through a directory and beyond it. -/
def Under (dir path : List Name) : Prop := dir <+: path ∧ dir ≠ path

instance [DecidableEq Name] (dir path : List Name) : Decidable (Under dir path) :=
  inferInstanceAs (Decidable (_ ∧ _))

variable {dir : List Name}

theorem Under.length_lt {path : List Name} (under : Under dir path) : dir.length < path.length :=
  lt_of_le_of_ne under.1.length_le fun same => under.2 (under.1.eq_of_length same)

theorem under_take {path : List Name} {depth : Nat} (within : depth < path.length) :
    Under (path.take depth) path := by
  refine ⟨List.take_prefix _ _, fun same => ?_⟩
  have lengths := congrArg List.length same
  rw [length_take] at lengths
  omega

/-- A directory on the way to a path is one of its beginnings. -/
theorem Under.eq_take {path : List Name} (under : Under dir path) :
    dir = path.take dir.length := prefix_iff_eq_take.mp under.1

variable [DecidableEq Name]

/-! ### Entries of a directory -/

/-- The entry of a directory that a path leads through. -/
def childOf (dir path : List Name) : Option Name :=
  if Under dir path then path[dir.length]? else none

/-- The entries that the paths give a directory. -/
def children (paths : List (List Name)) (dir : List Name) : Finset Name :=
  (paths.filterMap (childOf dir)).toFinset

theorem mem_children {paths : List (List Name)} {name : Name} :
    name ∈ children paths dir ↔ ∃ path ∈ paths, Under dir path ∧ path[dir.length]? = some name := by
  unfold children childOf
  simp only [List.mem_toFinset, mem_filterMap, ite_none_right_eq_some]

theorem children_append (first second : List (List Name)) (dir : List Name) :
    children (first ++ second) dir = children first dir ∪ children second dir := by
  unfold children
  rw [filterMap_append, toFinset_append]

theorem children_subset (first second : List (List Name)) (dir : List Name) :
    children first dir ⊆ children (first ++ second) dir := by
  rw [children_append]
  exact Finset.subset_union_left

theorem children_take {path : List Name} {depth : Nat} (within : depth < path.length) :
    children [path] (path.take depth) = {path[depth]} := by
  have length : (path.take depth).length = depth := by rw [length_take]; omega
  unfold children
  rw [filterMap_cons, childOf, if_pos (under_take within), length,
    getElem?_eq_getElem within]
  rfl

theorem children_notUnder {path : List Name} (beside : ¬Under dir path) :
    children [path] dir = ∅ := by
  unfold children
  rw [filterMap_cons, childOf, if_neg beside]
  rfl

/-! ### Where two paths part -/

/-- How many names two paths begin with in common. -/
def commonLength (last path : List Name) : Nat :=
  ((last.zip path).takeWhile fun pair => pair.1 = pair.2).length

theorem commonLength_cons (name other : Name) (last path : List Name) :
    commonLength (name :: last) (other :: path) =
      if name = other then commonLength last path + 1 else 0 := by
  unfold commonLength
  rw [zip_cons_cons, takeWhile_cons]
  by_cases same : name = other
  · rw [if_pos same, if_pos (decide_eq_true same), length_cons]
  · rw [if_neg same, if_neg (by simpa using same)]
    rfl

theorem commonLength_nil_right (last : List Name) : commonLength last [] = 0 := by
  cases last <;> rfl

theorem take_commonLength (last path : List Name) :
    last.take (commonLength last path) = path.take (commonLength last path) := by
  induction last generalizing path with
  | nil => rfl
  | cons name last ih =>
    cases path with
    | nil => rw [commonLength_nil_right]; rfl
    | cons other path =>
      rw [commonLength_cons]
      split
      · rename_i same
        rw [take_succ_cons, take_succ_cons, same, ih]
      · rfl

variable {last : List Name}

/-- The name after the common ones is another, in whichever path has one. -/
theorem getElem?_commonLength {path : List Name} (some : commonLength last path < path.length) :
    last[commonLength last path]? ≠ path[commonLength last path]? := by
  induction last generalizing path with
  | nil =>
    rw [getElem?_eq_getElem some]
    exact nofun
  | cons name last ih =>
    cases path with
    | nil => exact absurd some (Nat.not_lt_zero _)
    | cons other path =>
      rw [commonLength_cons] at some ⊢
      split at some
      · rename_i same
        rw [if_pos same, getElem?_cons_succ, getElem?_cons_succ]
        exact ih (Nat.lt_of_succ_lt_succ some)
      · rename_i apart
        rw [if_neg apart]
        simpa using apart

theorem prefix_of_length_le_commonLength {path : List Name}
    (whole : path.length ≤ commonLength last path) : path <+: last := by
  have same := take_commonLength last path
  rw [take_of_length_le whole] at same
  exact same ▸ List.take_prefix _ _

/-! ### A path after others -/

/-- What the paths before a path give the directories on the way to it: up to a depth the entry is
there already, at that depth it is new, and the directories beyond are empty. -/
structure Parts (before : List (List Name)) (path : List Name) (depth : Nat) : Prop where
  within : depth < path.length
  known : ∀ earlier < depth,
    children [path] (path.take earlier) ⊆ children before (path.take earlier)
  new : Disjoint (children before (path.take depth)) (children [path] (path.take depth))
  beyond : ∀ later, depth < later → children before (path.take later) = ∅

theorem Parts.start {path : List Name} (some : path ≠ []) : Parts [] path 0 where
  within := length_pos_of_ne_nil some
  known _ inside := absurd inside (Nat.not_lt_zero _)
  new := Finset.disjoint_empty_left _
  beyond _ _ := rfl

/-- Whatever lies under a directory with both paths lies under it with those between. -/
theorem Parts.later {before : List (List Name)} {path : List Name} (member : last ∈ before)
    (apart : ∀ earlier ∈ before, ¬earlier <+: path ∧ ¬path <+: earlier)
    (together : ∀ earlier ∈ before, ∀ dir, Under dir earlier → Under dir path → Under dir last) :
    Parts before path (commonLength last path) := by
  have within : commonLength last path < path.length := by
    by_contra whole
    exact (apart last member).2 (prefix_of_length_le_commonLength (by omega))
  have inside : commonLength last path < last.length := by
    by_contra whole
    have same := take_commonLength last path
    rw [take_of_length_le (by omega)] at same
    exact (apart last member).1 (same ▸ List.take_prefix _ _)
  -- no earlier path shares one name more with this path than the last one does
  have parted : ∀ earlier ∈ before, ¬path.take (commonLength last path + 1) <+: earlier := by
    intro earlier found shared
    have underEarlier : Under (path.take (commonLength last path + 1)) earlier :=
      ⟨shared, fun same => (apart earlier found).1 (same ▸ List.take_prefix _ _)⟩
    have underPath : Under (path.take (commonLength last path + 1)) path :=
      ⟨List.take_prefix _ _, fun same => (apart earlier found).2 (by rwa [same] at shared)⟩
    have underLast := together earlier found _ underEarlier underPath
    have length : (path.take (commonLength last path + 1)).length = commonLength last path + 1 := by
      rw [length_take]
      omega
    have same := underLast.eq_take
    rw [length] at same
    refine getElem?_commonLength within ?_
    rw [← getElem?_take_of_lt (Nat.lt_succ_self (commonLength last path)), ← same,
      getElem?_take_of_lt (Nat.lt_succ_self _)]
  refine ⟨within, fun earlier before => ?_, ?_, fun later beyond => ?_⟩
  · have shorter : path.take earlier = last.take earlier := by
      have same := congrArg (List.take earlier) (take_commonLength last path)
      rwa [take_take, take_take, Nat.min_eq_left before.le, eq_comm] at same
    have entry : path[earlier]? = last[earlier]? := by
      have same := congrArg (fun names => names[earlier]?) (take_commonLength last path)
      simpa [getElem?_take_of_lt before] using same.symm
    intro name found
    obtain ⟨path', here, -, named⟩ := mem_children.mp found
    cases mem_singleton.mp here
    refine mem_children.mpr ⟨last, member, shorter ▸ under_take (before.trans inside), ?_⟩
    rw [length_take, Nat.min_eq_left (before.trans within).le] at named ⊢
    rw [← entry, named]
  · refine Finset.disjoint_left.mpr fun name old fresh => ?_
    rw [children_take within, Finset.mem_singleton] at fresh
    obtain ⟨earlier, found, under, named⟩ := mem_children.mp old
    refine parted earlier found ?_
    rw [length_take, Nat.min_eq_left within.le] at named
    have start := under.eq_take
    rw [length_take, Nat.min_eq_left within.le] at start
    obtain ⟨long, here⟩ := List.getElem?_eq_some_iff.mp named
    rw [take_succ_eq_append_getElem within, ← fresh, start, ← here,
      ← take_succ_eq_append_getElem long]
    exact List.take_prefix _ _
  · refine Finset.eq_empty_of_forall_notMem fun name old => ?_
    obtain ⟨earlier, found, under, -⟩ := mem_children.mp old
    exact parted earlier found ((take_prefix_take_left beyond).trans under.1)

/-! ### Counting -/

/-- The counters after a path that parts at a depth: those before it stay, that of the directory
where it parts counts one more, and the directories beyond have one entry. -/
def counted (counts : List Nat) (depth length : Nat) : List Nat :=
  counts.take depth ++ (counts.getD depth 0 + 1) :: List.replicate (length - depth - 1) 1

/-- One counter for each directory on the way to a path. -/
def Counters (paths : List (List Name)) (last : List Name) (counts : List Nat) : Prop :=
  counts.length = last.length ∧
    ∀ depth < last.length, counts[depth]? = some (children paths (last.take depth)).card

/-- The counters of the directories that a path shares with the ones before it. -/
def Ready (before : List (List Name)) (path : List Name) (depth : Nat) (counts : List Nat) : Prop :=
  ∀ shared ≤ depth, counts[shared]? = some (children before (path.take shared)).card

theorem Ready.start (path : List Name) : Ready [] path 0 [0] := by
  intro shared within
  cases Nat.le_zero.mp within
  rfl

theorem Counters.ready {before : List (List Name)} {path : List Name} {counts : List Nat}
    (counters : Counters before last counts) (inside : commonLength last path < last.length) :
    Ready before path (commonLength last path) counts := by
  intro shared within
  have same := congrArg (List.take shared) (take_commonLength last path)
  rw [take_take, take_take, Nat.min_eq_left within] at same
  rw [counters.2 shared (within.trans_lt inside), same]

section

variable {before : List (List Name)} {path : List Name} {depth : Nat} {counts : List Nat}

section

variable (parts : Parts before path depth)

include parts

theorem Parts.card_known {earlier : Nat} (inside : earlier < depth) :
    children (before ++ [path]) (path.take earlier) = children before (path.take earlier) := by
  rw [children_append, Finset.union_eq_left]
  exact parts.known earlier inside

theorem Parts.card_new :
    (children (before ++ [path]) (path.take depth)).card =
      (children before (path.take depth)).card + 1 := by
  rw [children_append, Finset.card_union_of_disjoint parts.new, children_take parts.within,
    Finset.card_singleton]

theorem Parts.card_beyond {later : Nat} (beyond : depth < later) (within : later < path.length) :
    (children (before ++ [path]) (path.take later)).card = 1 := by
  rw [children_append, parts.beyond later beyond, Finset.empty_union, children_take within,
    Finset.card_singleton]

theorem Parts.counters (ready : Ready before path depth counts) :
    Counters (before ++ [path]) path (counted counts depth path.length) := by
  have within := parts.within
  have long : depth < counts.length := (List.getElem?_eq_some_iff.mp (ready depth le_rfl)).1
  have length : (counts.take depth).length = depth := by rw [length_take]; omega
  unfold Counters counted
  refine ⟨?_, fun place inside => ?_⟩
  · rw [length_append, length, length_cons, length_replicate]
    omega
  · rcases lt_trichotomy place depth with earlier | rfl | later
    · rw [getElem?_append_left (by omega), getElem?_take_of_lt earlier,
        ready place earlier.le, parts.card_known earlier]
    · rw [getElem?_append_right length.le, length, Nat.sub_self, getElem?_cons_zero,
        parts.card_new, getD_eq_getElem?_getD, ready place le_rfl, getD_some]
    · obtain ⟨more, rfl⟩ := Nat.exists_eq_add_of_lt later
      rw [getElem?_append_right (by omega), length, parts.card_beyond later inside,
        show depth + more + 1 - depth = more + 1 by omega, getElem?_cons_succ,
        getElem?_replicate, if_pos (by omega)]

/-- The widest directory is within a limit when it was before, and the one where the path parts
has room for one more. -/
theorem Parts.within_limit {limit : Nat} (some : 1 ≤ limit) :
    (∀ dir, (children (before ++ [path]) dir).card ≤ limit) ↔
      (∀ dir, (children before dir).card ≤ limit) ∧
        (children before (path.take depth)).card + 1 ≤ limit := by
  constructor
  · intro all
    refine ⟨fun dir => (Finset.card_le_card (children_subset _ _ _)).trans (all dir), ?_⟩
    rw [← parts.card_new]
    exact all _
  · rintro ⟨all, room⟩ dir
    by_cases under : Under dir path
    · have shorter := under.length_lt
      rw [under.eq_take]
      rcases lt_trichotomy dir.length depth with earlier | same | later
      · rw [parts.card_known earlier]
        exact all _
      · rw [same, parts.card_new]
        exact room
      · rw [parts.card_beyond later shorter]
        exact some
    · rw [children_append, children_notUnder under, Finset.union_empty]
      exact all dir

end

end

/-! ### Paths in order -/

/-- What begins with one text lies together in the lexicographic order. -/
theorem prefix_of_between {Letter : Type} [LinearOrder Letter] {text first middle last : List Letter}
    (begins : text <+: first) (ends : text <+: last) (early : ¬middle < first)
    (late : ¬last < middle) : text <+: middle := by
  induction text generalizing first middle last with
  | nil => exact List.nil_prefix
  | cons letter text ih =>
    obtain ⟨first, rfl⟩ := begins
    obtain ⟨last, rfl⟩ := ends
    cases middle with
    | nil => exact absurd (nil_lt_cons _ _) early
    | cons other middle =>
      rw [cons_append, cons_lt_cons_iff, not_or, not_and] at early late
      obtain rfl : other = letter := le_antisymm (not_lt.mp late.1) (not_lt.mp early.1)
      exact cons_prefix_cons.mpr ⟨rfl, ih (prefix_append _ _)
        (prefix_append _ _) (early.2 rfl) (late.2 rfl)⟩

end PathTree
