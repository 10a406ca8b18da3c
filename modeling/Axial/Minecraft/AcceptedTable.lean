/-
This file is about the tree that the rows of a component table span, as
`ComponentRowValidator::push` in `core/minecraft/src/managed_component_table.rs`
checks it. The validator keeps the last path only, and one counter for each
directory on the way to it. The beginnings of all paths are spelled in one way and
the paths are sorted, so a directory that is left is not entered again: what the
counters say of the last path holds of the whole tree.
-/

import Axial.Minecraft.ComponentTable
import Axial.Minecraft.KnownGoodRows

namespace Axial.Minecraft

open Bytes Reader List Option
open PathTree

variable {unicode : Unicode}

/-! ### Directories and files -/

/-- The directories on the way to a path, below the root. -/
def directories (value : String) : List String :=
  (List.range' 1 ((segments value).length - 1)).map fun depth =>
    joinSegments ((segments value).take depth)

variable {value dir : String}

theorem mem_directories : dir ∈ directories value ↔ (dir, false) ∈ beginnings value := by
  rw [mem_beginnings, directories, List.mem_map]
  constructor
  · rintro ⟨depth, inside, rfl⟩
    rw [mem_range'_1] at inside
    obtain ⟨earlier, rfl⟩ := Nat.exists_eq_add_of_le inside.1
    refine ⟨earlier, by omega, by rw [Nat.add_comm], ?_⟩
    exact (decide_eq_false (by omega)).symm
  · rintro ⟨depth, inside, text, notFile⟩
    have short : depth + 1 ≠ (segments value).length := of_decide_eq_false notFile.symm
    exact ⟨depth + 1, mem_range'_1.mpr (by omega), text.symm⟩

theorem file_mem_beginnings (value : String) : (value, true) ∈ beginnings value := by
  have some : 0 < (segments value).length := length_pos_of_ne_nil (segments_ne_nil value)
  refine mem_beginnings.mpr ⟨(segments value).length - 1, by omega, ?_, ?_⟩
  · rw [Nat.sub_add_cancel some, take_length, joinSegments_segments]
  · exact (decide_eq_true (Nat.sub_add_cancel some)).symm

theorem mem_beginnings_of_prefix {text : String} (begins : segments text <+: segments value) :
    ∃ isFile, (text, isFile) ∈ beginnings value := by
  have some : 0 < (segments text).length := length_pos_of_ne_nil (segments_ne_nil text)
  have shorter := begins.length_le
  refine ⟨_, mem_beginnings.mpr ⟨(segments text).length - 1, by omega, ?_, rfl⟩⟩
  rw [Nat.sub_add_cancel some, ← prefix_iff_eq_take.mp begins, joinSegments_segments]

theorem portableKey_value (path : PortableRelativePath unicode) :
    portableKey unicode path.value = some path.key := by
  rw [portableKey, path.new_value]
  rfl

/-- Beginnings that fit together belong to paths none of which leads through another. -/
theorem apart_of_spelled {first second : String}
    (spelled : ∀ one ∈ beginnings first, ∀ other ∈ beginnings second,
      portableKey unicode one.1 = portableKey unicode other.1 →
        one.1 = other.1 ∧ one.2 = false ∧ other.2 = false) :
    ¬segments first <+: segments second ∧ ¬segments second <+: segments first := by
  constructor
  · intro begins
    obtain ⟨isFile, member⟩ := mem_beginnings_of_prefix begins
    exact absurd (spelled _ (file_mem_beginnings first) _ member rfl).2.1 Bool.true_eq_false.mp
  · intro begins
    obtain ⟨isFile, member⟩ := mem_beginnings_of_prefix begins
    exact absurd (spelled _ member _ (file_mem_beginnings second) rfl).2.2 Bool.true_eq_false.mp

/-! ### The rows that a validator took in -/

/-- The paths of some rows as lists of names. -/
def treeOf (rows : List (ComponentTableRow unicode)) : List (List String) :=
  rows.map fun row => segments row.path.value

theorem treeOf_eq (rows : List (ComponentTableRow unicode)) :
    (rows.map ComponentTableRow.path).map (fun path => segments path.value) = treeOf rows :=
  List.map_map

theorem treeOf_concat (rows : List (ComponentTableRow unicode)) (row : ComponentTableRow unicode) :
    treeOf (rows ++ [row]) = treeOf rows ++ [segments row.path.value] :=
  map_append

def beginningsOf (rows : List (ComponentTableRow unicode)) : List (String × Bool) :=
  rows.flatMap fun row => beginnings row.path.value

namespace ComponentRowValidator

/-- How many names a path begins with in common with the last one. -/
def common (validator : ComponentRowValidator unicode) (path : String) : Nat :=
  (validator.lastPath.map fun last => commonSegments (segments last) (segments path)).getD 0

/-- A row passes the checks that stand before the counting. -/
structure Reaches (component : ManagedComponentKind) (row : ComponentTableRow unicode)
    (validator : ComponentRowValidator unicode) : Prop where
  room : validator.rowCount < maxComponentTableRows
  admissible : ComponentRowValidator.admissible component row = true
  short : validator.createdDepthPathBytes + (utf8 row.path.key.value).length ≤
    maxComponentPathStorageBytes
  later : (validator.lastPath.all fun last => decide (last < row.path.value)) = true
  fresh : row.inventoryOrdinal ∉ validator.inventoryOrdinals
  projected : (validator.projected.addAll unicode (segments row.path.value)).isSome = true
  beside : (validator.lastPath.all fun last => !throughFile last row.path.value) = true

variable {validator next : ComponentRowValidator unicode} {component : ManagedComponentKind}
  {rows : List (ComponentTableRow unicode)} {row : ComponentTableRow unicode}

/-- What a row that is accepted has passed, and what becomes of the tables. -/
theorem reaches_of_push (pushed : validator.push component row = some next) :
    validator.Reaches component row ∧
      validator.projected.addAll unicode (segments row.path.value) = some next.projected ∧
      countFanouts validator.fanoutCounts (validator.common row.path.value)
        (segments row.path.value).length = some next.fanoutCounts ∧
      next.lastPath = some row.path.value ∧
      next.createdDepthChecks =
        validator.createdDepthChecks ++ [(row.path.key, row.firstCreatedDepth)] := by
  simp only [push, bind_eq_some, guard_eq_some', exists_const, pure_eq_some] at pushed
  obtain ⟨room, alone, pathBytes, counted, later, fresh, projected, added, beside, fanout, within,
    -, -, created, -, finalBytes, -, stagedBytes, -, priorBytes, -, made⟩ := pushed
  have short := (addWithin_eq_some.mp counted).1
  cases made
  exact ⟨⟨room, alone, short, later, fresh, isSome_iff_exists.mpr ⟨_, added⟩, beside⟩,
    added, within, rfl, rfl⟩

/-- What a validator knows of the rows that it took in, and what holds of them. -/
structure Took (rows : List (ComponentTableRow unicode))
    (validator : ComponentRowValidator unicode) : Prop where
  lastPath : validator.lastPath = (rows.map ComponentTableRow.path).getLast?.map fun path => path.value
  projected : validator.projected.Holds unicode (beginningsOf rows)
  fitting : Fitting unicode (beginningsOf rows)
  sorted : (rows.map ComponentTableRow.path).Pairwise fun first second => first.value < second.value
  walked : Walked (rows.map ComponentTableRow.path) validator.fanoutCounts
  fanout : ∀ dir, (children (treeOf rows) dir).card ≤ maxManagedDirectoryEntries

theorem Took.start {expectedRows : Nat}
    (made : ComponentRowValidator.new unicode expectedRows = some validator) :
    validator.Took [] := by
  unfold ComponentRowValidator.new at made
  split at made
  · cases made
  · cases made
    exact ⟨rfl, ProjectedPrefixes.Holds.empty unicode, Fitting.nil unicode, List.Pairwise.nil, rfl,
      fun _ => Nat.zero_le _⟩

section

variable (took : validator.Took rows) (reaches : validator.Reaches component row)

include took reaches

/-- The beginnings of one more row still fit, and its path comes after the others. -/
theorem Took.fits :
    Fitting unicode (beginningsOf (rows ++ [row])) ∧
      (rows.map ComponentTableRow.path ++ [row.path]).Pairwise
        fun first second => first.value < second.value := by
  constructor
  · rw [beginningsOf, flatMap_append, flatMap_singleton]
    exact (took.projected.addAll_iff took.fitting row.path).1.mp
      (isSome_iff_exists.mp reaches.projected)
  · refine pairwise_append.mpr ⟨took.sorted, pairwise_singleton _ _, ?_⟩
    intro earlier member other here
    rw [mem_singleton.mp here]
    have after := reaches.later
    rw [took.lastPath] at after
    -- the row comes after the last one, and this one after all before
    obtain ⟨paths, last, split⟩ := eq_nil_or_concat' (rows.map ComponentTableRow.path) |>.resolve_left
      (ne_nil_of_mem member)
    have sorted := took.sorted
    rw [split] at after sorted member
    rw [getLast?_concat] at after
    have beyond : last.value < row.path.value := of_decide_eq_true after
    rcases mem_append.mp member with inside | same
    · exact ((pairwise_append.mp sorted).2.2 earlier inside last (mem_singleton_self _)).trans
        beyond
    · rwa [mem_singleton.mp same]

theorem Took.apart :
    ∀ earlier ∈ rows.map ComponentTableRow.path,
      ¬segments earlier.value <+: segments row.path.value ∧
        ¬segments row.path.value <+: segments earlier.value := by
  intro earlier member
  obtain ⟨found, inside, rfl⟩ := List.mem_map.mp member
  have spelled := (took.fits reaches).1.spelled
  rw [beginningsOf, flatMap_append, flatMap_singleton] at spelled
  obtain ⟨-, -, apart⟩ := pairwise_append.mp spelled
  exact apart_of_spelled fun one here other there =>
    apart one (mem_flatMap.mpr ⟨found, inside, here⟩) other there

/-- The counters refuse a row when it makes a directory too large, and else stay right. -/
theorem Took.countFanouts :
    (Axial.Minecraft.countFanouts validator.fanoutCounts (validator.common row.path.value)
        (segments row.path.value).length = none ↔
      ∃ dir, maxManagedDirectoryEntries < (children (treeOf (rows ++ [row])) dir).card) ∧
    ∀ counts, Axial.Minecraft.countFanouts validator.fanoutCounts
        (validator.common row.path.value) (segments row.path.value).length = some counts →
      Walked (rows.map ComponentTableRow.path ++ [row.path]) counts := by
  obtain ⟨depth, parted, parts, ready⟩ :=
    exists_parts (took.fits reaches).2 (took.apart reaches) took.walked
  have inside : depth < validator.fanoutCounts.length :=
    (List.getElem?_eq_some_iff.mp (ready depth le_rfl)).1
  have common : validator.common row.path.value = depth := by
    rw [ComponentRowValidator.common, took.lastPath, parted]
  have wider : (∀ dir, (children (treeOf (rows ++ [row])) dir).card ≤ maxManagedDirectoryEntries) ↔
      validator.fanoutCounts.getD depth 0 + 1 ≤ maxManagedDirectoryEntries := by
    have count : validator.fanoutCounts.getD depth 0 =
        (children (treeOf rows) ((segments row.path.value).take depth)).card := by
      rw [getD_eq_getElem?_getD, ready depth le_rfl, getD_some, treeOf_eq]
    rw [treeOf_eq] at parts
    rw [count, treeOf_concat]
    exact (parts.within_limit (by decide)).trans (and_iff_right took.fanout)
  rw [common, countFanouts_eq parts.within inside]
  constructor
  · rw [ite_eq_right_iff]
    simp only [reduceCtorEq, imp_false, ← wider, not_forall, not_le]
  · intro counts same
    rw [ite_none_right_eq_some, some_inj] at same
    rw [← same.2]
    exact Walked.concat parts ready

end

theorem Took.push (took : validator.Took rows) (pushed : validator.push component row = some next) :
    next.Took (rows ++ [row]) := by
  obtain ⟨reaches, added, counted, last, -⟩ := reaches_of_push pushed
  obtain ⟨fitting, sorted⟩ := took.fits reaches
  obtain ⟨full, walked⟩ := took.countFanouts reaches
  rw [← map_singleton, ← map_append] at sorted walked
  refine ⟨?_, ?_, fitting, sorted, walked _ counted, ?_⟩
  · rw [last, map_append, map_singleton, getLast?_concat]
    rfl
  · rw [beginningsOf, flatMap_append, flatMap_singleton]
    exact (took.projected.addAll_iff took.fitting row.path).2 _ added
  · intro dir
    by_contra large
    rw [full.mpr ⟨dir, not_le.mp large⟩] at counted
    cases counted

/-- A validator has taken in all rows that it accepted, one after the other. -/
theorem Took.pushAll (took : validator.Took rows) {more : List (ComponentTableRow unicode)}
    (pushed : validator.pushAll component more = some next) : next.Took (rows ++ more) := by
  induction more generalizing validator rows with
  | nil =>
    cases pushed
    rwa [List.append_nil]
  | cons row more ih =>
    obtain ⟨between, here, later⟩ := bind_eq_some_iff.mp
      (show (validator.push component row).bind (fun next => next.pushAll component more) = _
        from pushed)
    rw [append_cons]
    exact ih (took.push here) later

end ComponentRowValidator

/-! ### Accepted rows -/

/-- Beginnings that fit together are spelled alike, and only directories occur twice. -/
theorem Fitting.alike {items : List (String × Bool)} (fitting : Fitting unicode items)
    {one other : String × Bool} (first : one ∈ items) (second : other ∈ items) (apart : one ≠ other)
    (same : portableKey unicode one.1 = portableKey unicode other.1) :
    one.1 = other.1 ∧ one.2 = false ∧ other.2 = false := by
  have symmetric : Std.Symm fun one other : String × Bool =>
      portableKey unicode one.1 = portableKey unicode other.1 →
        one.1 = other.1 ∧ one.2 = false ∧ other.2 = false :=
    ⟨fun one other alike same =>
      have ⟨text, notFile, alsoNot⟩ := alike same.symm
      ⟨text.symm, alsoNot, notFile⟩⟩
  exact fitting.spelled.forall first second apart same

section

variable {rows : List (ComponentTableRow unicode)}
  (fitting : Fitting unicode (beginningsOf rows))

include fitting

theorem Fitting.keys_nodup : (rows.map fun row => row.path.key).Nodup := by
  have spelled := fitting.spelled
  rw [beginningsOf, pairwise_flatMap] at spelled
  refine pairwise_map.mpr (spelled.2.imp fun {first second} alike same => ?_)
  have whole := alike _ (file_mem_beginnings first.path.value) _
    (file_mem_beginnings second.path.value)
    (by rw [portableKey_value, portableKey_value, same])
  exact Bool.true_eq_false.mp whole.2.1

theorem Fitting.file_ne_directory {file row : ComponentTableRow unicode} (inside : file ∈ rows)
    (member : row ∈ rows) (found : dir ∈ directories row.path.value) :
    portableKey unicode dir ≠ some file.path.key := by
  intro same
  have alike := fitting.alike
    (mem_flatMap.mpr ⟨file, inside, file_mem_beginnings file.path.value⟩)
    (mem_flatMap.mpr ⟨row, member, mem_directories.mp found⟩)
    (fun equal => Bool.true_eq_false.mp (congrArg Prod.snd equal))
    (by rw [portableKey_value, same])
  exact Bool.true_eq_false.mp alike.2.1

theorem Fitting.directory_spelled {first second : ComponentTableRow unicode} (inside : first ∈ rows)
    (member : second ∈ rows) {one other : String} (here : one ∈ directories first.path.value)
    (there : other ∈ directories second.path.value)
    (same : portableKey unicode one = portableKey unicode other) : one = other := by
  by_contra apart
  exact apart (fitting.alike (mem_flatMap.mpr ⟨first, inside, mem_directories.mp here⟩)
    (mem_flatMap.mpr ⟨second, member, mem_directories.mp there⟩)
    (fun equal => apart (congrArg Prod.fst equal)) same).1

end

/-- Rows that are accepted one after the other are a tree of files: their keys differ, no file is a
directory on the way to another, and a directory has one spelling. The next row is refused by the
counters of the last path exactly when it makes some directory of the tree too large. -/
theorem accepted_tree {component : ManagedComponentKind} {expectedRows : Nat}
    {rows : List (ComponentTableRow unicode)} {start after : ComponentRowValidator unicode}
    (made : ComponentRowValidator.new unicode expectedRows = some start)
    (accepted : start.pushAll component rows = some after) :
    (rows.map fun row => row.path.key).Nodup ∧
    (∀ file ∈ rows, ∀ row ∈ rows, ∀ dir ∈ directories row.path.value,
      portableKey unicode dir ≠ some file.path.key) ∧
    (∀ first ∈ rows, ∀ second ∈ rows, ∀ one ∈ directories first.path.value,
      ∀ other ∈ directories second.path.value,
        portableKey unicode one = portableKey unicode other → one = other) ∧
    (∀ dir, (children (treeOf rows) dir).card ≤ maxManagedDirectoryEntries) ∧
    ∀ row : ComponentTableRow unicode, after.Reaches component row →
      (countFanouts after.fanoutCounts (after.common row.path.value)
          (segments row.path.value).length = none ↔
        ∃ dir, maxManagedDirectoryEntries < (children (treeOf (rows ++ [row])) dir).card) ∧
      (countFanouts after.fanoutCounts (after.common row.path.value)
          (segments row.path.value).length = none → after.push component row = none) := by
  have took := (ComponentRowValidator.Took.start made).pushAll accepted
  rw [nil_append] at took
  refine ⟨took.fitting.keys_nodup,
    fun file inside row member dir => took.fitting.file_ne_directory inside member,
    fun first inside second member one here other => took.fitting.directory_spelled inside member here,
    took.fanout, fun row reaches => ⟨(took.countFanouts reaches).1, fun full => ?_⟩⟩
  by_contra pushed
  obtain ⟨next, pushed⟩ := ne_none_iff_exists'.mp pushed
  obtain ⟨-, -, counted, -⟩ := ComponentRowValidator.reaches_of_push pushed
  rw [full] at counted
  cases counted

/-- Two libraries in a directory are a tree, and a third one is not refused for its size. -/
theorem accepted_tree_libraries : ∃ (rows : List (ComponentTableRow Unicode.plain))
    (row : ComponentTableRow Unicode.plain),
    rows.length = 2 ∧ (rows.map fun row => row.path.key).Nodup ∧
      ¬∃ dir, maxManagedDirectoryEntries < (children (treeOf (rows ++ [row])) dir).card := by
  have runs : (do
      let first ← plainRow "a/b.jar" 0
      let second ← plainRow "a/c.jar" 1
      let third ← plainRow "a/d.jar" 2
      let start ← ComponentRowValidator.new Unicode.plain 3
      let after ← start.pushAll .libraries [first, second]
      let next ← after.push .libraries third
      return next.rowCount) = some 3 := by
    decide +kernel
  simp only [bind_eq_some] at runs
  obtain ⟨first, -, second, -, third, -, start, made, after, accepted, next, pushed, -⟩ := runs
  obtain ⟨reaches, -, counted, -⟩ := ComponentRowValidator.reaches_of_push pushed
  obtain ⟨distinct, -, -, -, counts⟩ := accepted_tree made accepted
  refine ⟨[first, second], third, rfl, distinct, fun large => ?_⟩
  rw [(counts third reaches).1.mpr large] at counted
  cases counted

end Axial.Minecraft
