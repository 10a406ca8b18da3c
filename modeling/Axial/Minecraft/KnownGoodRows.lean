/-
This file says when the rows of a known-good projection are accepted by the validator
of a component table. The projection compares whole paths in their exact spelling; the
table compares every beginning of a path by its portable key, and bounds the directories,
the beginnings and the keys. The paths themselves are sorted in both, so that one
counter for each directory on the way to the last path is enough.
-/

import Axial.Library.PathTree
import Axial.Library.Runs
import Axial.Library.Words
import Axial.Minecraft.KnownGood
import Mathlib.Algebra.BigOperators.Group.Finset.Basic
import Mathlib.Algebra.Order.BigOperators.Group.Finset

namespace Axial.Minecraft

open Bytes Reader List
open PathTree

variable {unicode : Unicode}

/-! ### Beginnings of a path -/

theorem joinSegments_append {first second : List String} (more : first ≠ []) (others : second ≠ []) :
    joinSegments (first ++ second) = joinSegments first ++ "/" ++ joinSegments second :=
  String.intercalate_append_of_ne_nil more others

variable {value : String}

theorem slash_notMem_segments {name : String} (member : name ∈ segments value) :
    '/' ∉ name.toList := by
  obtain ⟨part, inside, rfl⟩ := mem_map.mp member
  rw [String.toList_ofList]
  intro slash
  have plain := (Words.mem_splitOnP inside).2 '/' slash
  simp at plain

/-- The segments of what begins with a path and a separator. -/
theorem segments_beginning {names : List String} {rest : String} (more : names ≠ [])
    (separate : ∀ name ∈ names, '/' ∉ name.toList) :
    segments (joinSegments names ++ "/" ++ rest) = names ++ segments rest := by
  rw [← joinSegments_segments rest, ← joinSegments_append more (segments_ne_nil rest),
    segments_joinSegments (by simp [more]), joinSegments_segments]
  intro name member
  rcases mem_append.mp member with first | second
  · exact separate name first
  · exact slash_notMem_segments second

variable {depth : Nat}

theorem segments_take (within : depth ≤ (segments value).length) (some : 0 < depth) :
    segments (joinSegments ((segments value).take depth)) = (segments value).take depth := by
  refine segments_joinSegments (fun empty => ?_)
    fun name member => slash_notMem_segments (mem_of_mem_take member)
  have lengths := congrArg List.length empty
  rw [length_take, length_nil] at lengths
  omega

theorem joinSegments_take_injective {other : Nat} (within : depth ≤ (segments value).length)
    (inside : other ≤ (segments value).length) (some : 0 < depth) (more : 0 < other)
    (same : joinSegments ((segments value).take depth) = joinSegments ((segments value).take other))
    : depth = other := by
  have names := congrArg segments same
  rw [segments_take within some, segments_take inside more] at names
  have lengths := congrArg List.length names
  rw [length_take, length_take] at lengths
  omega

/-- A path lies under a directory when its text begins with that of the directory and a
separator. -/
theorem under_segments_iff {names : List String} (more : names ≠ [])
    (separate : ∀ name ∈ names, '/' ∉ name.toList) :
    Under names (segments value) ↔ (joinSegments names ++ "/").toList <+: value.toList := by
  constructor
  · rintro ⟨⟨rest, split⟩, apart⟩
    have others : rest ≠ [] := by
      rintro rfl
      exact apart (by rw [← split, List.append_nil])
    rw [← joinSegments_segments value, ← split, joinSegments_append more others]
    rw [String.toList_append (s := joinSegments names ++ "/")]
    exact prefix_append _ _
  · rintro ⟨rest, split⟩
    have whole : value = joinSegments names ++ "/" ++ String.ofList rest :=
      String.toList_injective (by rw [String.toList_append, String.toList_ofList, split])
    rw [whole, segments_beginning more separate]
    refine ⟨prefix_append _ _, fun same => segments_ne_nil (String.ofList rest) ?_⟩
    exact append_cancel_left (by rw [List.append_nil]; exact same.symm)

theorem utf8_append (first second : String) : utf8 (first ++ second) = utf8 first ++ utf8 second := by
  unfold utf8
  rw [String.toByteArray_append, ByteArray.data_append, Array.toList_append]

theorem boundedPath_of_append {first second : String} (bounded : boundedPath (first ++ second) = true) :
    boundedPath first = true := by
  unfold boundedPath Axial.Fs.utf16Units at bounded ⊢
  rw [utf8_append, String.toList_append, map_append, sum_append, length_append,
    Bool.and_eq_true, decide_eq_true_iff, decide_eq_true_iff] at bounded
  rw [Bool.and_eq_true, decide_eq_true_iff, decide_eq_true_iff]
  omega

/-- The beginnings of a portable path are portable paths. -/
theorem new_take (path : PortableRelativePath unicode)
    (within : depth ≤ (segments path.value).length) (some : 0 < depth) :
    ∃ beginning : PortableRelativePath unicode,
      beginning.value = joinSegments ((segments path.value).take depth) := by
  have names : segments (joinSegments ((segments path.value).take depth)) =
      (segments path.value).take depth := segments_take within some
  refine ⟨⟨joinSegments ((segments path.value).take depth), ?_, ?_⟩, rfl⟩
  · rw [names]
    exact fun name member => path.names name (mem_of_mem_take member)
  · have bounded := path.bounded
    by_cases whole : depth = (segments path.value).length
    · rw [take_of_length_le whole.ge, joinSegments_segments]
      exact bounded
    · have split : joinSegments ((segments path.value).take depth) ++
          ("/" ++ joinSegments ((segments path.value).drop depth)) = path.value := by
        rw [← String.append_assoc, ← joinSegments_append, take_append_drop,
          joinSegments_segments]
        · exact fun empty => by simp [segments_ne_nil] at empty; omega
        · exact fun empty => by simp at empty; omega
      exact boundedPath_of_append (split ▸ bounded)

/-! ### The table of beginnings -/

/-- The beginnings of a path, the last of which is the file. -/
def beginnings (value : String) : List (String × Bool) :=
  (List.range (segments value).length).map fun depth =>
    (joinSegments ((segments value).take (depth + 1)), depth + 1 = (segments value).length)

def portableKey (unicode : Unicode) (text : String) : Option PortablePathKey :=
  (PortableRelativePath.new unicode text).map PortableRelativePath.key

/-- What the distinct texts among some beginnings take. -/
def textBytes (texts : Finset String) : Nat := ∑ text ∈ texts, (utf8 text).length

def texts (items : List (String × Bool)) : Finset String := (items.map Prod.fst).toFinset

variable {text : String}

theorem mem_texts {items : List (String × Bool)} :
    text ∈ texts items ↔ ∃ isFile, (text, isFile) ∈ items := by
  simp [texts]

theorem texts_append (first second : List (String × Bool)) :
    texts (first ++ second) = texts first ∪ texts second := by
  unfold texts
  rw [map_append, toFinset_append]

theorem texts_concat (items : List (String × Bool)) (item : String × Bool) :
    texts (items ++ [item]) = insert item.1 (texts items) := by
  rw [texts_append, Finset.union_comm]
  rfl

/-- A table holds the beginnings that were added to it, under their keys. -/
structure ProjectedPrefixes.Holds (unicode : Unicode) (items : List (String × Bool))
    (projected : ProjectedPrefixes) : Prop where
  found : ∀ key entry, projected.prefixes.lookup key = some entry ↔
    (entry.exact, entry.isFile) ∈ items ∧ portableKey unicode entry.exact = some key
  pathBytes : projected.pathBytes = textBytes (texts items)
  allocationBytes : projected.allocationBytes = 2 * projected.pathBytes
  count : projected.prefixes.keys.length = (texts items).card

/-- Beginnings that fit into a table together. -/
structure Fitting (unicode : Unicode) (items : List (String × Bool)) : Prop where
  spelled : items.Pairwise fun first second =>
    portableKey unicode first.1 = portableKey unicode second.1 →
      first.1 = second.1 ∧ first.2 = false ∧ second.2 = false
  bytes : textBytes (texts items) ≤ maxProjectedPrefixPathBytes
  few : (texts items).card ≤ maxProjectedPathPrefixes

theorem Fitting.nil (unicode : Unicode) : Fitting unicode [] :=
  ⟨List.Pairwise.nil, Nat.zero_le _, Nat.zero_le _⟩

theorem Fitting.of_append {first second : List (String × Bool)}
    (fitting : Fitting unicode (first ++ second)) : Fitting unicode first := by
  have fewer : texts first ⊆ texts (first ++ second) := by
    rw [texts_append]
    exact Finset.subset_union_left
  exact ⟨(pairwise_append.mp fitting.spelled).1,
    (Finset.sum_le_sum_of_subset fewer).trans fitting.bytes,
    (Finset.card_le_card fewer).trans fitting.few⟩

variable {isFile : Bool}

namespace ProjectedPrefixes

variable {projected next : ProjectedPrefixes} {items : List (String × Bool)} {item : String × Bool}
  {key : PortablePathKey}

theorem Holds.empty (unicode : Unicode) : Holds unicode [] ⟨∅, 0, 0⟩ := by
  refine ⟨fun key entry => ?_, rfl, rfl, rfl⟩
  rw [AList.lookup_empty]
  simp

/-- What adding a beginning does, with its key at hand. -/
theorem add_of_key (keyed : portableKey unicode item.1 = some key) :
    projected.add unicode item.1 item.2 =
      match projected.prefixes.lookup key with
      | some existing =>
        if existing.exact ≠ item.1 ∨ existing.isFile = true ∨ item.2 = true then none
        else some projected
      | none =>
        (addWithin maxProjectedPrefixPathBytes projected.pathBytes (utf8 item.1).length).bind
          fun pathBytes =>
        (addWithin maxProjectedPrefixAllocationBytes projected.allocationBytes
          ((utf8 item.1).length * 2)).bind fun allocationBytes =>
        (guard (projected.prefixes.keys.length < maxProjectedPathPrefixes) : Option Unit).bind fun _ =>
        some ⟨projected.prefixes.insert key ⟨item.1, item.2⟩, pathBytes, allocationBytes⟩ := by
  obtain ⟨path, parsed, rfl⟩ := Option.map_eq_some_iff.mp keyed
  unfold add
  rw [parsed]
  rfl

section

variable (holds : Holds unicode items projected)

include holds

theorem Holds.notMem_of_absent (keyed : portableKey unicode item.1 = some key)
    (absent : projected.prefixes.lookup key = none) : (item.1, isFile) ∉ items := by
  intro member
  have found := (holds.found key ⟨item.1, isFile⟩).mpr ⟨member, keyed⟩
  rw [absent] at found
  cases found

theorem Holds.add (keyed : portableKey unicode item.1 = some key)
    (added : projected.add unicode item.1 item.2 = some next) :
    Holds unicode (items ++ [item]) next := by
  rw [add_of_key keyed] at added
  split at added
  · rename_i existing here
    split at added
    · cases added
    · rename_i clear
      cases added
      simp only [not_or, not_not, Bool.not_eq_true] at clear
      obtain ⟨same, notFile, alsoNot⟩ := clear
      have member : item ∈ items := by
        have there := ((holds.found key existing).mp here).1
        rw [same, notFile] at there
        rwa [← alsoNot] at there
      have sameTexts : texts (items ++ [item]) = texts items := by
        rw [texts_concat, Finset.insert_eq_of_mem (mem_texts.mpr ⟨item.2, member⟩)]
      refine ⟨fun other entry => ?_, by rw [sameTexts, holds.pathBytes], holds.allocationBytes,
        by rw [sameTexts, holds.count]⟩
      rw [holds.found, mem_append, mem_singleton]
      refine and_congr_left fun _ => ⟨Or.inl, ?_⟩
      rintro (there | rfl)
      · exact there
      · exact member
  · rename_i absent
    simp only [Option.bind_eq_some_iff, Option.guard_eq_some', exists_const, Option.some_inj] at added
    obtain ⟨pathBytes, counted, allocationBytes, allocated, -, rfl⟩ := added
    have fresh : item.1 ∉ texts items := by
      rw [mem_texts]
      rintro ⟨isFile, member⟩
      exact holds.notMem_of_absent keyed absent member
    have total := (ComponentRowValidator.le_of_addWithin counted).2
    have room := (ComponentRowValidator.le_of_addWithin allocated).2
    refine ⟨fun other entry => ?_, ?_, ?_, ?_⟩
    · rw [mem_append, mem_singleton]
      by_cases same : other = key
      · rw [same, AList.lookup_insert, Option.some_inj]
        constructor
        · rintro rfl
          exact ⟨Or.inr rfl, keyed⟩
        · rintro ⟨there | here, keyedEntry⟩
          · have found := (holds.found key entry).mpr ⟨there, keyedEntry⟩
            rw [absent] at found
            cases found
          · rw [← here]
      · rw [AList.lookup_insert_ne same, holds.found]
        refine and_congr_left fun keyedEntry => ⟨Or.inl, ?_⟩
        rintro (there | here)
        · exact there
        · rw [show entry.exact = item.1 from congrArg Prod.fst here, keyed] at keyedEntry
          exact absurd (Option.some.inj keyedEntry).symm same
    · rw [texts_concat, textBytes, Finset.sum_insert fresh, total, holds.pathBytes, textBytes,
        Nat.add_comm]
    · dsimp only
      rw [room, holds.allocationBytes, total]
      omega
    · rw [texts_concat, Finset.card_insert_of_notMem fresh, ← holds.count, AList.keys_insert,
        length_cons, erase_of_not_mem (by rwa [AList.lookup_eq_none] at absent)]

/-- A beginning is accepted when it still fits together with those before it. -/
theorem Holds.add_iff (fitting : Fitting unicode items)
    (keyed : portableKey unicode item.1 = some key) :
    (∃ next, projected.add unicode item.1 item.2 = some next) ↔
      Fitting unicode (items ++ [item]) := by
  rw [add_of_key keyed]
  split
  · rename_i existing here
    obtain ⟨member, keyedExisting⟩ := (holds.found key existing).mp here
    have clear : (∃ next, (if existing.exact ≠ item.1 ∨ existing.isFile = true ∨ item.2 = true
        then none else some projected) = some next) ↔
        existing.exact = item.1 ∧ existing.isFile = false ∧ item.2 = false := by
      split
      · rename_i unclear
        refine ⟨fun ⟨_, same⟩ => (nomatch same), fun ⟨same, notFile, alsoNot⟩ => ?_⟩
        rw [notFile, alsoNot] at unclear
        simp [same] at unclear
      · rename_i clear
        simp only [not_or, not_not, Bool.not_eq_true] at clear
        exact ⟨fun _ => clear, fun _ => ⟨projected, rfl⟩⟩
    rw [clear]
    constructor
    · rintro ⟨same, notFile, alsoNot⟩
      have sameTexts : texts (items ++ [item]) = texts items := by
        rw [texts_concat, Finset.insert_eq_of_mem]
        exact mem_texts.mpr ⟨existing.isFile, same ▸ member⟩
      refine ⟨pairwise_append.mpr ⟨fitting.spelled, pairwise_singleton _ _, ?_⟩, ?_, ?_⟩
      · intro earlier found last isLast sameKey
        rw [mem_singleton.mp isLast] at sameKey ⊢
        have other := (holds.found key ⟨earlier.1, earlier.2⟩).mpr ⟨found, sameKey.trans keyed⟩
        cases here.symm.trans other
        exact ⟨same, notFile, alsoNot⟩
      · rw [sameTexts]
        exact fitting.bytes
      · rw [sameTexts]
        exact fitting.few
    · intro all
      exact (pairwise_append.mp all.spelled).2.2 _ member item (mem_singleton_self _)
        (keyedExisting.trans keyed.symm)
  · rename_i absent
    have fresh : item.1 ∉ texts items := by
      rw [mem_texts]
      rintro ⟨isFile, member⟩
      exact holds.notMem_of_absent keyed absent member
    have bytes : textBytes (texts (items ++ [item])) =
        projected.pathBytes + (utf8 item.1).length := by
      rw [texts_concat, textBytes, Finset.sum_insert fresh, holds.pathBytes, textBytes, Nat.add_comm]
    have count : (texts (items ++ [item])).card = projected.prefixes.keys.length + 1 := by
      rw [texts_concat, Finset.card_insert_of_notMem fresh, holds.count]
    simp only [Option.bind_eq_some_iff, Option.guard_eq_some', exists_const, Option.some_inj]
    constructor
    · rintro ⟨next, pathBytes, counted, allocationBytes, -, room, -⟩
      have ⟨short, total⟩ := ComponentRowValidator.le_of_addWithin counted
      refine ⟨pairwise_append.mpr ⟨fitting.spelled, pairwise_singleton _ _, ?_⟩, ?_, ?_⟩
      · intro earlier found last isLast sameKey
        rw [mem_singleton.mp isLast] at sameKey ⊢
        have other := (holds.found key ⟨earlier.1, earlier.2⟩).mpr ⟨found, sameKey.trans keyed⟩
        rw [absent] at other
        cases other
      · rw [bytes, ← total]
        exact short
      · rw [count]
        exact room
    · rintro ⟨-, short, few⟩
      rw [bytes] at short
      rw [count] at few
      refine ⟨_, _, if_pos short, _, if_pos ?_, few, rfl⟩
      rw [holds.allocationBytes]
      show _ ≤ maxProjectedPrefixPathBytes * 2
      omega

/-- The beginnings of a path are accepted when they fit together with those before them. -/
theorem Holds.addAll_iff (fitting : Fitting unicode items) (path : PortableRelativePath unicode) :
    ((∃ next, projected.addAll unicode (segments path.value) = some next) ↔
        Fitting unicode (items ++ beginnings path.value)) ∧
      ∀ next, projected.addAll unicode (segments path.value) = some next →
        Holds unicode (items ++ beginnings path.value) next := by
  have keyed (item : String × Bool) (member : item ∈ beginnings path.value) :
      ∃ key, portableKey unicode item.1 = some key := by
    obtain ⟨depth, inside, rfl⟩ := mem_map.mp member
    obtain ⟨beginning, same⟩ := new_take path (Nat.succ_le_of_lt (mem_range.mp inside))
      (Nat.succ_pos depth)
    refine ⟨beginning.key, ?_⟩
    dsimp only
    rw [portableKey, ← same, PortableRelativePath.new_value]
    rfl
  have folded : projected.addAll unicode (segments path.value) =
      (beginnings path.value).foldlM (fun projected item => projected.add unicode item.1 item.2)
        projected := by
    rw [beginnings, foldlM_map]
    rfl
  rw [folded]
  refine @Runs.foldlM_eq_some_iff _ _ _ (fun added => Holds unicode (items ++ added))
    (fun added => Fitting unicode (items ++ added)) _ _ ?_ ?_ ?_ ?_ ?_
  · rwa [List.append_nil]
  · rwa [List.append_nil]
  · intro first second all
    rw [← append_assoc] at all
    exact all.of_append
  · intro before item after state split here fit
    obtain ⟨key, known⟩ := keyed item (by rw [split]; simp)
    rw [← append_assoc]
    exact here.add_iff fit known
  · intro before item after state next split here added
    obtain ⟨key, known⟩ := keyed item (by rw [split]; simp)
    rw [← append_assoc]
    exact here.add known added

end

end ProjectedPrefixes

/-! ### Counting the entries of the directories -/

theorem countFanout_new (counts : List Nat) :
    countFanout counts counts.length = some (counts ++ [1]) := by
  unfold countFanout
  simp

theorem countFanouts_beyond (counts : List Nat) (length : Nat) :
    (List.range' counts.length length).foldlM countFanout counts =
      some (counts ++ List.replicate length 1) := by
  induction length generalizing counts with
  | zero => simp
  | succ length ih =>
    have rest := ih (counts ++ [1])
    rw [length_append, length_singleton, append_assoc, singleton_append] at rest
    rw [range'_succ, foldlM_cons, countFanout_new, replicate_succ]
    exact rest

variable {counts : List Nat}

/-- The counters after one more path, when there is room where it parts from the last. -/
theorem countFanouts_eq {common : Nat} (within : common < depth) (inside : common < counts.length) :
    countFanouts counts common depth =
      if counts.getD common 0 + 1 ≤ maxManagedDirectoryEntries then
        some (counted counts common depth)
      else none := by
  obtain ⟨more, rfl⟩ := Nat.exists_eq_add_of_lt within
  have length : (counts.take (common + 1)).length = common + 1 := by
    rw [length_take]
    omega
  have here : (counts.take (common + 1))[common]? = some (counts.getD common 0) := by
    rw [getElem?_take_of_lt (Nat.lt_succ_self _), getD_eq_getElem?_getD,
      getElem?_eq_getElem inside]
    rfl
  have set : (counts.take (common + 1)).set common (counts.getD common 0 + 1) =
      counts.take common ++ [counts.getD common 0 + 1] := by
    rw [take_succ_eq_append_getElem inside, set_append_right _ _ (by simp)]
    simp [Nat.min_eq_left inside.le]
  unfold countFanouts
  rw [show common + more + 1 - common = more + 1 by omega, range'_succ, foldlM_cons]
  have first : countFanout (counts.take (common + 1)) common =
      if counts.getD common 0 + 1 ≤ maxManagedDirectoryEntries then
        some (counts.take common ++ [counts.getD common 0 + 1])
      else none := by
    unfold countFanout
    rw [if_neg (by omega)]
    dsimp only
    rw [here]
    dsimp only
    rw [set]
  rw [first]
  split
  · have rest := countFanouts_beyond (counts.take common ++ [counts.getD common 0 + 1]) more
    rw [length_append, length_take, Nat.min_eq_left inside.le, length_singleton,
      append_assoc, singleton_append] at rest
    unfold counted
    rw [show common + more + 1 - common - 1 = more by omega]
    exact rest
  · rfl

variable {last : PortableRelativePath unicode}

/-- Sorted paths that share a directory have it in common with those between. -/
theorem under_of_between {first middle : PortableRelativePath unicode} {dir : List String}
    (early : ¬middle.value < first.value) (late : ¬last.value < middle.value)
    (begins : Under dir (segments first.value)) (ends : Under dir (segments last.value)) :
    Under dir (segments middle.value) := by
  cases dir with
  | nil => exact ⟨List.nil_prefix, (segments_ne_nil _).symm⟩
  | cons name dir =>
    have separate : ∀ other ∈ name :: dir, '/' ∉ other.toList := fun other member =>
      slash_notMem_segments (begins.1.subset member)
    rw [under_segments_iff (cons_ne_nil _ _) separate] at begins ends ⊢
    rw [String.lt_iff_toList_lt] at early late
    exact prefix_of_between begins ends early late

/-! ### Pushing the rows -/

theorem addWithin_eq_some {limit current additional total : Nat} :
    addWithin limit current additional = some total ↔
      current + additional ≤ limit ∧ current + additional = total := by
  unfold addWithin
  split <;> simp_all

namespace ComponentRowValidator

variable {validator after : ComponentRowValidator unicode} {component : ManagedComponentKind}
  {row : ComponentProjectionRow unicode}

/-- What a push asks of the row of a new file, and what it makes of the validator. -/
theorem push_tableRow_eq_some :
    validator.push component row.tableRow = some after ↔
      (validator.rowCount < maxComponentTableRows ∧
        admissible component row.tableRow = true ∧
        validator.createdDepthPathBytes + (utf8 row.path.key.value).length ≤
          maxComponentPathStorageBytes ∧
        (validator.lastPath.all fun last => decide (last < row.path.value)) = true ∧
        row.inventoryOrdinal ∉ validator.inventoryOrdinals ∧
        (validator.lastPath.all fun last => !throughFile last row.path.value) = true ∧
        (0 < (segments row.path.value).length ∧ (segments row.path.value).length < 2 ^ 16) ∧
        validator.finalBytes + row.size.toNat ≤ maxTier2AggregateBytes ∧
        validator.stagedBytes + row.size.toNat ≤ maxTier2AggregateBytes ∧
        validator.priorBytes ≤ maxTier2AggregateBytes) ∧
      ∃ projected counts,
        validator.projected.addAll unicode (segments row.path.value) = some projected ∧
        countFanouts validator.fanoutCounts ((validator.lastPath.map fun last =>
          commonSegments (segments last) (segments row.path.value)).getD 0)
          (segments row.path.value).length = some counts ∧
        after = {
          rowCount := validator.rowCount + 1
          finalBytes := validator.finalBytes + row.size.toNat
          stagedBytes := validator.stagedBytes + row.size.toNat
          priorBytes := validator.priorBytes
          lastPath := some row.path.value
          inventoryOrdinals := row.inventoryOrdinal :: validator.inventoryOrdinals
          projected := projected
          createdDepthChecks := validator.createdDepthChecks ++ [(row.path.key, none)]
          createdDepthPathBytes :=
            validator.createdDepthPathBytes + (utf8 row.path.key.value).length
          created := validator.created
          fanoutCounts := counts } := by
  simp only [push, bind_eq_some, Option.guard_eq_some', exists_const, pure_eq_some,
    checkedAggregate, addWithin_eq_some]
  constructor
  · rintro ⟨room, alone, pathBytes, ⟨short, rfl⟩, later, fresh, projected, added, beside, counts,
      counted, few, -, created, same, final, ⟨finalShort, rfl⟩, staged, ⟨stagedShort, rfl⟩, prior,
      ⟨priorShort, rfl⟩, rfl⟩
    cases same
    exact ⟨⟨room, alone, short, later, fresh, beside, few, finalShort, stagedShort, priorShort⟩,
      projected, counts, added, counted, rfl⟩
  · rintro ⟨⟨room, alone, short, later, fresh, beside, few, finalShort, stagedShort, priorShort⟩,
      projected, counts, added, counted, rfl⟩
    exact ⟨room, alone, _, ⟨short, rfl⟩, later, fresh, projected, added, beside, counts, counted,
      few, fun absurd => (Bool.false_ne_true absurd.1).elim, _, rfl, _, ⟨finalShort, rfl⟩, _,
      ⟨stagedShort, rfl⟩, _, ⟨priorShort, rfl⟩, rfl⟩

end ComponentRowValidator

def names (rows : List (ComponentProjectionRow unicode)) : List (List String) :=
  rows.map fun row => segments row.path.value

/-- What the projection promises of its rows. -/
structure Listed (component : ManagedComponentKind) (rows : List (ComponentProjectionRow unicode)) :
    Prop where
  few : rows.length ≤ maxTier2Entries
  ordinals : (rows.map ComponentProjectionRow.inventoryOrdinal).Nodup
  placed : ∀ row ∈ rows, row.inventoryOrdinal.toNat < maxTier2Entries
  small : ∀ row ∈ rows, row.size.toNat ≤ maxTier2ArtifactBytes
  kinds : ∀ row ∈ rows, component.accepts row.kind = true
  total : (rows.map fun row => row.size.toNat).sum ≤ maxTier2AggregateBytes
  sorted : rows.Pairwise fun first second => first.path.value < second.path.value
  apart : rows.Pairwise fun first second =>
    ¬segments first.path.value <+: segments second.path.value ∧
      ¬segments second.path.value <+: segments first.path.value

/-- What the table asks of its rows besides. -/
structure Fits (rows : List (ComponentProjectionRow unicode)) : Prop where
  prefixes : Fitting unicode (rows.flatMap fun row => beginnings row.path.value)
  fanout : ∀ dir, (children (names rows) dir).card ≤ maxManagedDirectoryEntries
  keys : (rows.map fun row => (utf8 row.path.key.value).length).sum ≤ maxComponentPathStorageBytes

theorem Fits.nil : Fits ([] : List (ComponentProjectionRow unicode)) :=
  ⟨Fitting.nil unicode, fun _ => Nat.zero_le _, Nat.zero_le _⟩

theorem Fits.of_append {first second : List (ComponentProjectionRow unicode)}
    (fits : Fits (first ++ second)) : Fits first := by
  obtain ⟨prefixes, fanout, keys⟩ := fits
  rw [flatMap_append] at prefixes
  refine ⟨prefixes.of_append, fun dir => ?_, ?_⟩
  · refine (Finset.card_le_card ?_).trans (fanout dir)
    unfold names
    rw [map_append]
    exact children_subset _ _ _
  · rw [map_append, sum_append] at keys
    omega

/-- A validator has taken in these rows. -/
structure ComponentRowValidator.Pushed (rows : List (ComponentProjectionRow unicode))
    (validator : ComponentRowValidator unicode) : Prop where
  rowCount : validator.rowCount = rows.length
  finalBytes : validator.finalBytes = (rows.map fun row => row.size.toNat).sum
  stagedBytes : validator.stagedBytes = (rows.map fun row => row.size.toNat).sum
  priorBytes : validator.priorBytes = 0
  lastPath : validator.lastPath = rows.getLast?.map fun row => row.path.value
  ordinals : ∀ ordinal, ordinal ∈ validator.inventoryOrdinals ↔
    ordinal ∈ rows.map ComponentProjectionRow.inventoryOrdinal
  keyBytes : validator.createdDepthPathBytes =
    (rows.map fun row => (utf8 row.path.key.value).length).sum
  projected : validator.projected.Holds unicode (rows.flatMap fun row => beginnings row.path.value)
  fanoutCounts : match rows.getLast? with
    | some last => Counters (names rows) (segments last.path.value) validator.fanoutCounts
    | none => validator.fanoutCounts = [0]

theorem length_segments_le (value : String) :
    (segments value).length ≤ value.toList.length + 1 := by
  unfold segments
  rw [length_map]
  induction value.toList with
  | nil => simp
  | cons first chars ih =>
    obtain ⟨head, tail, parts⟩ := exists_cons_of_ne_nil (splitOn_ne_nil '/' chars)
    rw [splitOn_cons_eq_if_modifyHead, parts]
    rw [parts] at ih
    simp only [length_cons] at ih
    split <;> simp only [length_cons, modifyHead_cons] <;> omega

theorem length_le_utf16Units (value : String) :
    value.toList.length ≤ Axial.Fs.utf16Units value := by
  unfold Axial.Fs.utf16Units
  induction value.toList with
  | nil => exact Nat.zero_le _
  | cons char chars ih =>
    rw [length_cons, map_cons, sum_cons]
    split <;> omega

theorem length_segments_le_bound (path : PortableRelativePath unicode) :
    (segments path.value).length ≤ 513 := by
  have bounded := path.bounded
  unfold boundedPath at bounded
  rw [Bool.and_eq_true, decide_eq_true_iff, decide_eq_true_iff] at bounded
  have units := length_le_utf16Units path.value
  have few := length_segments_le path.value
  have limit : maxPortableRelativePathUtf16Units = 512 := rfl
  omega

theorem length_segments_lt (path : PortableRelativePath unicode) :
    (segments path.value).length < 2 ^ 16 :=
  (length_segments_le_bound path).trans_lt (by decide)

/-- The counters of the directories on the way to the last of some paths. -/
def Walked (paths : List (PortableRelativePath unicode)) (counts : List Nat) : Prop :=
  match paths.getLast? with
  | some last =>
    Counters (paths.map fun path => segments path.value) (segments last.value) counts
  | none => counts = [0]

variable {path : PortableRelativePath unicode} {paths : List (PortableRelativePath unicode)}

theorem Walked.concat
    (parts : Parts (paths.map fun path => segments path.value) (segments path.value) depth)
    (ready : Ready (paths.map fun path => segments path.value) (segments path.value) depth counts) :
    Walked (paths ++ [path]) (counted counts depth (segments path.value).length) := by
  unfold Walked
  rw [getLast?_concat, map_append]
  exact parts.counters ready

/-- Where a path parts from those before, when they are sorted and none leads through another. -/
theorem exists_parts {before : List (PortableRelativePath unicode)}
    (sorted : (before ++ [path]).Pairwise fun first second => first.value < second.value)
    (apart : ∀ earlier ∈ before, ¬segments earlier.value <+: segments path.value ∧
      ¬segments path.value <+: segments earlier.value) (walked : Walked before counts) :
    ∃ depth, ((before.getLast?.map fun last => last.value).map fun last =>
        commonSegments (segments last) (segments path.value)).getD 0 = depth ∧
      Parts (before.map fun path => segments path.value) (segments path.value) depth ∧
      Ready (before.map fun path => segments path.value) (segments path.value) depth counts := by
  induction before using List.reverseRecOn with
  | nil =>
    refine ⟨0, rfl, Parts.start (segments_ne_nil _), ?_⟩
    rw [show counts = [0] from walked]
    exact Ready.start _
  | append_singleton before last _ =>
    unfold Walked at walked
    rw [getLast?_concat] at walked ⊢
    have earlierPaths : ∀ earlier ∈ before ++ [last], earlier.value < path.value :=
      fun earlier member =>
        (pairwise_append.mp sorted).2.2 earlier member path (mem_singleton_self _)
    have beside : ∀ earlier ∈ (before ++ [last]).map fun path => segments path.value,
        ¬earlier <+: segments path.value ∧ ¬segments path.value <+: earlier := by
      intro earlier member
      obtain ⟨found, inside, rfl⟩ := mem_map.mp member
      exact apart found inside
    have member : segments last.value ∈ (before ++ [last]).map fun path => segments path.value :=
      mem_map_of_mem (mem_append_right _ (mem_singleton_self _))
    have parts := Parts.later member beside (by
      intro earlier inside dir begins ends
      obtain ⟨found, present, rfl⟩ := mem_map.mp inside
      refine under_of_between ?_ (earlierPaths last (by simp)).asymm begins ends
      rcases mem_append.mp present with early | here
      · have sorted := (pairwise_append.mp
          (pairwise_append.mp sorted).1).2.2 found early last (by simp)
        exact sorted.asymm
      · rw [mem_singleton.mp here]
        exact lt_irrefl _)
    refine ⟨commonLength (segments last.value) (segments path.value), rfl, parts,
      Counters.ready walked ?_⟩
    by_contra whole
    have same := take_commonLength (segments last.value) (segments path.value)
    rw [take_of_length_le (by omega)] at same
    exact (beside _ member).1 (same ▸ List.take_prefix _ _)

section Step

variable {component : ManagedComponentKind} {before after : List (ComponentProjectionRow unicode)}
  {row : ComponentProjectionRow unicode} {validator next : ComponentRowValidator unicode}

theorem names_eq (rows : List (ComponentProjectionRow unicode)) :
    (rows.map ComponentProjectionRow.path).map (fun path => segments path.value) = names rows :=
  map_map

theorem ComponentRowValidator.Pushed.walked (pushed : validator.Pushed before) :
    Walked (before.map ComponentProjectionRow.path) validator.fanoutCounts := by
  have counts := pushed.fanoutCounts
  unfold Walked
  rw [names_eq, getLast?_map]
  cases last : before.getLast? <;> rw [last] at counts <;> exact counts

/-- Where the path of the next row parts from those before. -/
theorem ComponentRowValidator.Pushed.parts (pushed : validator.Pushed before)
    (listed : Listed component (before ++ row :: after)) :
    ∃ depth, (validator.lastPath.map fun last =>
        commonSegments (segments last) (segments row.path.value)).getD 0 = depth ∧
      Parts (names before) (segments row.path.value) depth ∧
      Ready (names before) (segments row.path.value) depth validator.fanoutCounts := by
  have sorted : (before.map ComponentProjectionRow.path ++ [row.path]).Pairwise
      fun first second => first.value < second.value := by
    rw [← map_singleton, ← map_append, pairwise_map]
    refine listed.sorted.sublist (List.Sublist.append_left ?_ before)
    exact singleton_sublist.mpr mem_cons_self
  have apart : ∀ earlier ∈ before.map ComponentProjectionRow.path,
      ¬segments earlier.value <+: segments row.path.value ∧
        ¬segments row.path.value <+: segments earlier.value := by
    intro earlier member
    obtain ⟨found, inside, rfl⟩ := mem_map.mp member
    exact (pairwise_append.mp listed.apart).2.2 found inside row mem_cons_self
  have last : validator.lastPath =
      (before.map ComponentProjectionRow.path).getLast?.map fun last => last.value := by
    rw [pushed.lastPath, getLast?_map, Option.map_map]
    rfl
  rw [last, ← names_eq]
  exact exists_parts sorted apart pushed.walked

theorem Listed.admissible (listed : Listed component (before ++ row :: after)) :
    ComponentRowValidator.admissible component row.tableRow = true := by
  have member : row ∈ before ++ row :: after := mem_append_right _ mem_cons_self
  have bounded := row.path.bounded
  unfold boundedPath at bounded
  rw [Bool.and_eq_true, decide_eq_true_iff, decide_eq_true_iff] at bounded
  unfold ComponentRowValidator.admissible ComponentProjectionRow.tableRow
  simp only [Option.all_none, Bool.and_true, Bool.and_eq_true, decide_eq_true_iff]
  exact ⟨⟨⟨listed.placed row member, listed.small row member⟩, listed.kinds row member⟩, bounded.1⟩

/-- A path that leads through another lies under it. -/
theorem under_of_throughFile
    (through : ComponentRowValidator.throughFile last.value path.value = true) :
    segments last.value <+: segments path.value := by
  unfold ComponentRowValidator.throughFile at through
  rw [Bool.and_eq_true, List.isPrefixOf_iff_prefix, decide_eq_true_iff] at through
  obtain ⟨⟨rest, split⟩, next⟩ := through
  rw [← split, drop_left] at next
  obtain ⟨more, rfl⟩ := head?_eq_some_iff.mp next
  refine ((under_segments_iff (segments_ne_nil _) fun name => slash_notMem_segments).mpr ?_).1
  rw [joinSegments_segments, String.toList_append, ← split]
  exact ⟨more, by simp⟩

theorem Listed.beside (listed : Listed component (before ++ row :: after))
    {last : ComponentProjectionRow unicode} (member : last ∈ before) :
    ComponentRowValidator.throughFile last.path.value row.path.value = false := by
  rw [Bool.eq_false_iff]
  intro through
  exact ((pairwise_append.mp listed.apart).2.2 last member row mem_cons_self).1
    (under_of_throughFile through)

/-- The bytes of the rows so far stay within the aggregate bound. -/
theorem Listed.bytes_le (listed : Listed component (before ++ row :: after)) :
    (before.map fun row => row.size.toNat).sum + row.size.toNat ≤ maxTier2AggregateBytes := by
  have total := listed.total
  rw [map_append, sum_append, map_cons, sum_cons] at total
  omega

/-- A row is accepted when it fits together with those before it. -/
theorem ComponentRowValidator.Pushed.push_iff (pushed : validator.Pushed before)
    (listed : Listed component (before ++ row :: after)) (fits : Fits before) :
    (∃ next, validator.push component row.tableRow = some next) ↔ Fits (before ++ [row]) := by
  obtain ⟨depth, common, parts, ready⟩ := pushed.parts listed
  have room : 1 ≤ maxManagedDirectoryEntries := by decide
  have count : validator.fanoutCounts.getD depth 0 =
      (children (names before) ((segments row.path.value).take depth)).card := by
    rw [getD_eq_getElem?_getD, ready depth le_rfl, Option.getD_some]
  have inside : depth < validator.fanoutCounts.length :=
    (List.getElem?_eq_some_iff.mp (ready depth le_rfl)).1
  have wider : (∀ dir, (children (names (before ++ [row])) dir).card ≤ maxManagedDirectoryEntries) ↔
      validator.fanoutCounts.getD depth 0 + 1 ≤ maxManagedDirectoryEntries := by
    rw [count]
    unfold names
    rw [map_append]
    exact (parts.within_limit room).trans (and_iff_right fits.fanout)
  have grown := pushed.projected.addAll_iff fits.prefixes row.path
  simp only [push_tableRow_eq_some, common, countFanouts_eq parts.within inside]
  constructor
  · rintro ⟨next, ⟨-, -, short, -⟩, projected, counts, added, counted, -⟩
    refine ⟨?_, wider.mpr ?_, ?_⟩
    · rw [flatMap_append, flatMap_singleton]
      exact grown.1.mp ⟨projected, added⟩
    · by_contra full
      rw [if_neg full] at counted
      cases counted
    · rw [map_append, sum_append, map_singleton, sum_singleton,
        ← pushed.keyBytes]
      exact short
  · intro all
    have prefixes := all.prefixes
    rw [flatMap_append, flatMap_singleton] at prefixes
    obtain ⟨projected, added⟩ := grown.1.mpr prefixes
    have keys := all.keys
    rw [map_append, sum_append, map_singleton, sum_singleton,
      ← pushed.keyBytes] at keys
    have total := listed.bytes_le
    have distinct := listed.ordinals
    rw [map_append, map_cons, nodup_append] at distinct
    have few := listed.few
    rw [length_append, length_cons] at few
    have previous : ∀ last ∈ before.getLast?, last ∈ before := fun last => mem_of_getLast?
    refine ⟨_, ⟨?_, listed.admissible, keys, ?_, ?_, ?_,
      ⟨length_pos_of_ne_nil (segments_ne_nil _), length_segments_lt _⟩, ?_, ?_, ?_⟩,
      projected, _, added, if_pos (wider.mp all.fanout), rfl⟩
    · rw [pushed.rowCount]
      exact (by omega : before.length < maxTier2Entries)
    · rw [pushed.lastPath, Option.all_map, Option.all_eq_true]
      intro last member
      exact decide_eq_true ((pairwise_append.mp listed.sorted).2.2 last (previous last member)
        row mem_cons_self)
    · rw [pushed.ordinals]
      intro member
      exact distinct.2.2 _ member _ mem_cons_self rfl
    · rw [pushed.lastPath, Option.all_map, Option.all_eq_true]
      intro last member
      simp only [listed.beside (previous last member), Bool.not_false]
    · rw [pushed.finalBytes]
      exact total
    · rw [pushed.stagedBytes]
      exact total
    · rw [pushed.priorBytes]
      exact Nat.zero_le _

/-- A validator that accepts a row has taken it in. -/
theorem ComponentRowValidator.Pushed.push (pushed : validator.Pushed before)
    (listed : Listed component (before ++ row :: after)) (fits : Fits before)
    (accepted : validator.push component row.tableRow = some next) :
    next.Pushed (before ++ [row]) := by
  obtain ⟨depth, common, parts, ready⟩ := pushed.parts listed
  have inside : depth < validator.fanoutCounts.length :=
    (List.getElem?_eq_some_iff.mp (ready depth le_rfl)).1
  have grown := pushed.projected.addAll_iff fits.prefixes row.path
  rw [push_tableRow_eq_some, common, countFanouts_eq parts.within inside] at accepted
  obtain ⟨-, projected, counts, added, counted, rfl⟩ := accepted
  split at counted
  · cases counted
    refine ⟨?_, ?_, ?_, pushed.priorBytes, ?_, ?_, ?_, ?_, ?_⟩
    · rw [length_append, length_singleton, pushed.rowCount]
    · rw [map_append, sum_append, map_singleton, sum_singleton,
        pushed.finalBytes]
    · rw [map_append, sum_append, map_singleton, sum_singleton,
        pushed.stagedBytes]
    · rw [getLast?_concat]
      rfl
    · intro ordinal
      rw [mem_cons, pushed.ordinals, map_append, mem_append, map_singleton,
        mem_singleton, or_comm]
    · rw [map_append, sum_append, map_singleton, sum_singleton,
        pushed.keyBytes]
    · rw [flatMap_append, flatMap_singleton]
      exact grown.2 projected added
    · rw [getLast?_concat]
      unfold names
      rw [map_append]
      exact parts.counters ready
  · cases counted

end Step

variable {rows : List (ComponentProjectionRow unicode)}

/-- The rows of a projection are accepted one by one when they fit together. -/
theorem ComponentRowValidator.pushAll_iff {component : ManagedComponentKind}
    {validator : ComponentRowValidator unicode}
    (made : ComponentRowValidator.new unicode rows.length = some validator)
    (listed : Listed component rows) :
    (∃ last, validator.pushAll component (rows.map ComponentProjectionRow.tableRow) = some last) ↔
      Fits rows := by
  unfold pushAll
  rw [foldlM_map]
  refine (@Runs.foldlM_eq_some_iff _ _ _ (fun pushed validator => validator.Pushed pushed ∧ Fits pushed)
    Fits _ _ ?_ Fits.nil (fun first second => Fits.of_append) ?_ ?_).1
  · unfold ComponentRowValidator.new at made
    rw [if_neg (not_lt.mpr listed.few)] at made
    cases made
    exact ⟨⟨rfl, rfl, rfl, rfl, rfl, by simp, rfl, ProjectedPrefixes.Holds.empty unicode, rfl⟩,
      Fits.nil⟩
  · rintro before row after state rfl ⟨pushed, -⟩ fits
    exact pushed.push_iff listed fits
  · rintro before row after state next rfl ⟨pushed, fits⟩ accepted
    exact ⟨pushed.push listed fits accepted, (pushed.push_iff listed fits).mp ⟨next, accepted⟩⟩

/-! ### Paths that a table can hold -/

/-- What a table asks of a set of paths: portable keys are spelled in one way, and neither
a directory nor what is kept of the paths grows too large. -/
structure Representable (paths : List (PortableRelativePath unicode)) : Prop where
  spellings : ∀ first ∈ paths, ∀ second ∈ paths, ∀ one ∈ beginnings first.value,
    ∀ other ∈ beginnings second.value,
      portableKey unicode one.1 = portableKey unicode other.1 → one.1 = other.1
  fanout : ∀ dir, (children (paths.map fun path => segments path.value) dir).card ≤
    maxManagedDirectoryEntries
  bytes : textBytes (texts (paths.flatMap fun path => beginnings path.value)) ≤
    maxProjectedPrefixPathBytes
  few : (texts (paths.flatMap fun path => beginnings path.value)).card ≤ maxProjectedPathPrefixes
  keys : (paths.map fun path => (utf8 path.key.value).length).sum ≤ maxComponentPathStorageBytes

theorem Representable.perm {others : List (PortableRelativePath unicode)}
    (representable : Representable paths) (same : paths.Perm others) : Representable others := by
  have sameTexts : texts (others.flatMap fun path => beginnings path.value) =
      texts (paths.flatMap fun path => beginnings path.value) := by
    ext text
    simp only [mem_texts, mem_flatMap, same.mem_iff]
  refine ⟨fun first member second inside => ?_, fun dir => ?_, ?_, ?_, ?_⟩
  · exact representable.spellings first (same.mem_iff.mpr member) second (same.mem_iff.mpr inside)
  · refine le_trans (Finset.card_le_card fun name found => ?_) (representable.fanout dir)
    rw [mem_children] at found ⊢
    obtain ⟨path, member, under⟩ := found
    exact ⟨path, (same.map _).mem_iff.mpr member, under⟩
  · rw [sameTexts]
    exact representable.bytes
  · rw [sameTexts]
    exact representable.few
  · rw [← (same.map _).sum_eq]
    exact representable.keys

theorem mem_beginnings {item : String × Bool} :
    item ∈ beginnings value ↔ ∃ depth < (segments value).length,
      item.1 = joinSegments ((segments value).take (depth + 1)) ∧
        item.2 = decide (depth + 1 = (segments value).length) := by
  simp only [beginnings, mem_map, mem_range, Prod.ext_iff, eq_comm (a := item.1),
    eq_comm (a := item.2)]

/-- A beginning that is the whole path is its text. -/
theorem eq_of_isFile {item : String × Bool} (member : item ∈ beginnings value)
    (isFile : item.2 = true) : item.1 = value := by
  obtain ⟨depth, -, text, flag⟩ := mem_beginnings.mp member
  rw [isFile, eq_comm, decide_eq_true_iff] at flag
  rw [text, flag, take_length, joinSegments_segments]

theorem prefix_of_beginning (member : (text, isFile) ∈ beginnings value) :
    segments text <+: segments value := by
  obtain ⟨depth, inside, same, -⟩ := mem_beginnings.mp member
  rw [show text = _ from same, segments_take inside (Nat.succ_pos depth)]
  exact List.take_prefix _ _

/-- The beginnings of one path have different texts. -/
theorem beginnings_pairwise (value : String) :
    (beginnings value).Pairwise fun first second => first.1 ≠ second.1 := by
  unfold beginnings
  rw [pairwise_map]
  refine pairwise_lt_range.imp_of_mem fun {depth other} inside present before same => ?_
  have equal := joinSegments_take_injective (mem_range.mp inside) (mem_range.mp present)
    (Nat.succ_pos depth) (Nat.succ_pos other) same
  omega

/-- Rows whose paths are apart fit together when their paths are representable. -/
theorem fits_iff (apart : rows.Pairwise fun first second =>
      ¬segments first.path.value <+: segments second.path.value ∧
        ¬segments second.path.value <+: segments first.path.value) :
    Fits rows ↔ Representable (rows.map ComponentProjectionRow.path) := by
  have items : (rows.map ComponentProjectionRow.path).flatMap (fun path => beginnings path.value) =
      rows.flatMap fun row => beginnings row.path.value := flatMap_map ..
  have paths : (rows.map ComponentProjectionRow.path).map (fun path => segments path.value) =
      names rows := map_map
  have lengths : (rows.map ComponentProjectionRow.path).map
      (fun path => (utf8 path.key.value).length) =
      rows.map fun row => (utf8 row.path.key.value).length := map_map
  constructor
  · rintro ⟨⟨spelled, bytes, few⟩, fanout, keys⟩
    refine ⟨?_, by rwa [paths], by rwa [items], by rwa [items], by rwa [lengths]⟩
    have alike : ∀ one ∈ rows.flatMap (fun row => beginnings row.path.value),
        ∀ other ∈ rows.flatMap (fun row => beginnings row.path.value),
        portableKey unicode one.1 = portableKey unicode other.1 → one.1 = other.1 := by
      have reverse : Std.Symm fun one other : String × Bool =>
          portableKey unicode one.1 = portableKey unicode other.1 → one.1 = other.1 :=
        ⟨fun one other same key => (same key.symm).symm⟩
      exact fun one member other inside => List.Pairwise.forall_of_forall (fun _ _ _ => rfl)
        (spelled.imp fun spelling key => (spelling key).1) member inside
    intro first member second inside one here other there
    obtain ⟨row, present, rfl⟩ := mem_map.mp member
    obtain ⟨next, found, rfl⟩ := mem_map.mp inside
    exact alike one (mem_flatMap.mpr ⟨row, present, here⟩) other
      (mem_flatMap.mpr ⟨next, found, there⟩)
  · rintro ⟨spellings, fanout, bytes, few, keys⟩
    rw [paths] at fanout
    rw [items] at bytes few
    rw [lengths] at keys
    refine ⟨⟨?_, bytes, few⟩, fanout, keys⟩
    rw [pairwise_flatMap]
    constructor
    · intro row member
      refine (beginnings_pairwise row.path.value).imp_of_mem fun {one other} here there differ key =>
        absurd ?_ differ
      exact spellings _ (mem_map_of_mem member) _ (mem_map_of_mem member) one here other
        there key
    · refine apart.imp_of_mem fun {first second} member inside beside one here other there key => ?_
      have same := spellings _ (mem_map_of_mem member) _ (mem_map_of_mem inside) one here
        other there key
      refine ⟨same, ?_, ?_⟩
      · rw [Bool.eq_false_iff]
        intro isFile
        refine beside.1 ?_
        rw [← eq_of_isFile here isFile, same]
        exact prefix_of_beginning there
      · rw [Bool.eq_false_iff]
        intro isFile
        refine beside.2 ?_
        rw [← eq_of_isFile there isFile, ← same]
        exact prefix_of_beginning here

end Axial.Minecraft
