/-
This file is about the directories that the rows of a component table declare as
created, and the check of these declarations at the end of the table,
`validate_created_depths` in `core/minecraft/src/managed_component_table.rs`. A row
says from which depth on the directories on the way to it are created; the check
wants the least depth that any row makes so. It looks the directories up by the
beginnings of the row's key, which it reads as paths once more. A key can be longer
than the path it belongs to, and then it is no path.
-/

import Axial.Minecraft.AcceptedTable
import Axial.Minecraft.CreatedAncestors

namespace Axial.Minecraft

open Bytes Reader PathTree List Option
open Axial.Fs (isControl utf16Units windowsDeviceName)

/-! ### Paths as they are read -/

variable {unicode : Unicode}

theorem values_of_mapM {values : List String} {names : List (PortableFileName unicode)}
    (parsed : values.mapM (PortableFileName.new unicode) = some names) :
    names.map PortableFileName.value = values.map (nfc unicode) := by
  induction values generalizing names with
  | nil =>
    cases parsed
    rfl
  | cons value values ih =>
    rw [mapM_cons] at parsed
    obtain ⟨name, here, rest⟩ := bind_eq_some_iff.mp parsed
    obtain ⟨others, later, made⟩ := bind_eq_some_iff.mp rest
    cases made
    unfold PortableFileName.new at here
    split at here
    · cases here
      rw [map_cons, map_cons, ih later]
    · cases here

variable {path : PortableRelativePath unicode} {value : String}

/-- A path that is read has the names of the text in their normal form. -/
theorem PortableRelativePath.value_of_new
    (parsed : PortableRelativePath.new unicode value = some path) :
    path.value = joinSegments ((segments value).map (nfc unicode)) := by
  unfold PortableRelativePath.new at parsed
  split at parsed
  · cases parsed
  · split at parsed
    · cases parsed
    · rename_i names found
      split at parsed
      · cases parsed
        exact congrArg joinSegments (values_of_mapM found)
      · cases parsed

/-! ### Keys of whole paths -/

/-- What is documented of the tables: case folding maps each character by itself, ASCII to lower
case, and neither table makes, moves or joins a separator; what is folded stays as it is. -/
structure Unicode.Documented (unicode : Unicode) : Prop where
  caseFold_append : ∀ first second,
    unicode.caseFold (first ++ second) = unicode.caseFold first ++ unicode.caseFold second
  caseFold_ascii : ∀ value, isAscii value = true → unicode.caseFold value = toAsciiLowercase value
  caseFold_separate : ∀ value, '/' ∉ value.toList → '/' ∉ (unicode.caseFold value).toList
  nfc_ascii : ∀ value, isAscii value = true → unicode.nfc value = value
  nfc_join : ∀ first second,
    unicode.nfc (first ++ "/" ++ second) = unicode.nfc first ++ "/" ++ unicode.nfc second
  nfc_separate : ∀ value, '/' ∉ value.toList → '/' ∉ (unicode.nfc value).toList
  stable : ∀ value, unicode.nfc (unicode.caseFold (unicode.nfc (unicode.caseFold value))) =
    unicode.nfc (unicode.caseFold value)

/-- The text of a key. -/
def keyText (unicode : Unicode) (value : String) : String :=
  (PortablePathKey.fromNormalized unicode value).value

theorem isAscii_toAsciiLowercase (ascii : isAscii value = true) :
    isAscii (toAsciiLowercase value) = true := by
  unfold isAscii toAsciiLowercase at *
  rw [String.toList_ofList, List.all_map]
  refine List.all_eq_true.mpr fun char member => decide_eq_true ?_
  exact toNat_toLower_lt (of_decide_eq_true (List.all_eq_true.mp ascii char member))

variable {depth : Nat} {names : List String}

section

variable (documented : unicode.Documented)
include documented

/-- The path for ASCII is only a faster one. -/
theorem keyText_eq (value : String) :
    keyText unicode value = unicode.nfc (unicode.caseFold value) := by
  unfold keyText PortablePathKey.fromNormalized
  split
  · rename_i ascii
    rw [documented.caseFold_ascii value ascii,
      documented.nfc_ascii _ (isAscii_toAsciiLowercase ascii)]
  · rfl

theorem keyText_keyText (value : String) :
    keyText unicode (keyText unicode value) = keyText unicode value := by
  rw [keyText_eq documented, keyText_eq documented, documented.stable]

theorem keyText_join (first second : String) :
    keyText unicode (first ++ "/" ++ second) =
      keyText unicode first ++ "/" ++ keyText unicode second := by
  have slash : unicode.caseFold "/" = "/" := documented.caseFold_ascii "/" (by decide)
  rw [keyText_eq documented, keyText_eq documented, keyText_eq documented,
    documented.caseFold_append, documented.caseFold_append, slash, documented.nfc_join]

theorem slash_notMem_keyText (separate : '/' ∉ value.toList) :
    '/' ∉ (keyText unicode value).toList := by
  rw [keyText_eq documented]
  exact documented.nfc_separate _ (documented.caseFold_separate _ separate)

theorem keyText_joinSegments (some : names ≠ []) :
    keyText unicode (joinSegments names) = joinSegments (names.map (keyText unicode)) := by
  induction names with
  | nil => exact absurd rfl some
  | cons name names ih =>
    by_cases more : names = []
    · subst more
      unfold joinSegments
      rw [map_singleton, String.intercalate_singleton, String.intercalate_singleton]
    · rw [← singleton_append, joinSegments_append (cons_ne_nil _ _) more,
        keyText_join documented, ih more, map_append,
        joinSegments_append (by simp) (by simpa using more)]
      unfold joinSegments
      rw [map_singleton, String.intercalate_singleton, String.intercalate_singleton]

/-- The names of a key are the keys of the names. -/
theorem segments_keyText (value : String) :
    segments (keyText unicode value) = (segments value).map (keyText unicode) := by
  have names := keyText_joinSegments documented (segments_ne_nil value)
  rw [joinSegments_segments] at names
  rw [names, segments_joinSegments (by simpa using segments_ne_nil value)]
  intro name member
  obtain ⟨part, inside, rfl⟩ := List.mem_map.mp member
  exact slash_notMem_keyText documented (slash_notMem_segments inside)

theorem joinSegments_take_keyText (some : 0 < depth) :
    joinSegments ((segments (keyText unicode value)).take depth) =
      keyText unicode (joinSegments ((segments value).take depth)) := by
  rw [segments_keyText documented, ← map_take, keyText_joinSegments documented]
  simpa [segments_ne_nil] using some.ne'

theorem nfc_keyText (value : String) : nfc unicode (keyText unicode value) = keyText unicode value := by
  unfold nfc
  split
  · rfl
  · rw [keyText_eq documented, unicode.nfc_nfc]

/-- Where a key is read as a path, the path has this key. -/
theorem key_of_new_keyText
    (parsed : PortableRelativePath.new unicode (keyText unicode value) = some path) :
    path.value = keyText unicode value ∧ path.key.value = keyText unicode value := by
  have spelled : path.value = keyText unicode value := by
    rw [PortableRelativePath.value_of_new parsed, segments_keyText documented, List.map_map]
    have unchanged : (segments value).map (nfc unicode ∘ keyText unicode) =
        (segments value).map (keyText unicode) :=
      map_congr_left fun name _ => nfc_keyText documented name
    rw [unchanged, ← segments_keyText documented, joinSegments_segments]
  refine ⟨spelled, ?_⟩
  show keyText unicode path.value = _
  rw [spelled, keyText_keyText documented]

end

/-! ### The least depth -/

/-- The least depth between two bounds, the second left out, at which something holds. -/
def Least (low high : Nat) (holds : Nat → Prop) : Option Nat → Prop
  | some depth => (low ≤ depth ∧ depth < high) ∧ holds depth ∧
      ∀ earlier, low ≤ earlier → earlier < depth → ¬holds earlier
  | none => ∀ depth, low ≤ depth → depth < high → ¬holds depth

section

variable {low high : Nat} {holds : Nat → Prop} {found : Option Nat}

theorem least_of_first (inside : low < high) (first : holds low) :
    Least low high holds found ↔ found = some low := by
  cases found with
  | none =>
    refine ⟨fun none => absurd first (none low le_rfl inside), fun other => ?_⟩
    cases other
  | some depth =>
    rw [some_inj]
    constructor
    · rintro ⟨⟨above, -⟩, -, least⟩
      by_contra different
      exact least low le_rfl (lt_of_le_of_ne above (Ne.symm different)) first
    · rintro rfl
      exact ⟨⟨le_rfl, inside⟩, first, fun earlier above below => absurd above (not_le.mpr below)⟩

theorem least_of_notFirst (other : ¬holds low) :
    Least low high holds found ↔ Least (low + 1) high holds found := by
  have later (depth : Nat) : low ≤ depth ∧ holds depth ↔ low + 1 ≤ depth ∧ holds depth := by
    constructor
    · rintro ⟨above, here⟩
      exact ⟨lt_of_le_of_ne above fun same => other (same ▸ here), here⟩
    · exact fun ⟨above, here⟩ => ⟨by omega, here⟩
  cases found with
  | none =>
    refine forall_congr' fun depth => ?_
    have same := later depth
    tauto
  | some depth =>
    have same := later depth
    have before : (∀ earlier, low ≤ earlier → earlier < depth → ¬holds earlier) ↔
        ∀ earlier, low + 1 ≤ earlier → earlier < depth → ¬holds earlier := by
      refine forall_congr' fun earlier => ?_
      have same := later earlier
      tauto
    simp only [Least, before]
    tauto

end

/-! ### Looking the directories up -/

namespace ComponentRowValidator

variable {validator : ComponentRowValidator unicode} {found readable : Nat → Prop}

/-- The loop of the check, from a depth on: it reads every directory up to the first one that is
created, and answers with the depth of that one. -/
theorem createdDepth_eq_some {front names : List String} {result : Option UInt16}
    (spelled : front = [] ∨ joinSegments front ≠ "")
    (small : (front ++ names).length < 2 ^ 16)
    (reads : ∀ depth, front.length < depth → depth ≤ (front ++ names).length →
      match PortableRelativePath.new unicode (joinSegments ((front ++ names).take depth)) with
      | some path => readable depth ∧ (some path.key ∈ validator.created.ancestors ↔ found depth)
      | none => ¬readable depth) :
    validator.createdDepth (joinSegments front) front.length names = some result ↔
      (∀ depth, front.length < depth → depth ≤ (front ++ names).length →
        (∀ earlier, front.length < earlier → earlier < depth → ¬found earlier) → readable depth) ∧
      Least (front.length + 1) ((front ++ names).length + 1) found (result.map UInt16.toNat) := by
  induction names generalizing front with
  | nil =>
    rw [List.append_nil]
    unfold createdDepth
    rw [some_inj]
    constructor
    · rintro rfl
      exact ⟨fun depth above below => absurd above (by omega),
        fun depth above below => absurd above (by omega)⟩
    · rintro ⟨-, least⟩
      cases result with
      | none => rfl
      | some depth => exact absurd least.1.1 (by have := least.1.2; omega)
  | cons name names ih =>
    have taken : (front ++ name :: names).take (front.length + 1) = front ++ [name] := by
      rw [take_append]
      simp
    have next : (if joinSegments front = "" then name else joinSegments front ++ "/" ++ name) =
        joinSegments (front ++ [name]) := by
      have alone : joinSegments [name] = name := String.intercalate_singleton
      rcases spelled with rfl | some
      · have empty : joinSegments [] = "" := rfl
        rw [if_pos empty, nil_append, alone]
      · have more : front ≠ [] := by
          rintro rfl
          exact some rfl
        rw [if_neg some, joinSegments_append more (cons_ne_nil _ _), alone]
    have here := reads (front.length + 1) (Nat.lt_succ_self _) (by simp)
    have inside : front.length + 1 < (front ++ name :: names).length + 1 := by simp
    rw [taken] at here
    unfold createdDepth
    dsimp only
    rw [next]
    cases parsed : PortableRelativePath.new unicode (joinSegments (front ++ [name])) with
    | none =>
      rw [parsed] at here
      refine ⟨fun none => (nomatch none), fun all => absurd ?_ here⟩
      exact all.1 _ (Nat.lt_succ_self _) (by simp) fun earlier above below => by omega
    | some path =>
      rw [parsed] at here
      obtain ⟨readableHere, listed⟩ := here
      have short : front.length + 1 < 2 ^ 16 := by
        rw [length_append, length_cons] at small
        omega
      rw [bind_eq_bind, bind_some]
      by_cases foundHere : found (front.length + 1)
      · rw [if_pos (listed.mpr foundHere), if_pos short, least_of_first inside foundHere,
          Option.pure_def, some_inj]
        constructor
        · rintro rfl
          refine ⟨fun depth above below none => ?_, ?_⟩
          swap
          · rw [map_some, UInt16.toNat_ofNat_of_lt' short]
          rcases (Nat.succ_le_of_lt above).eq_or_lt with rfl | later
          · exact readableHere
          · exact absurd foundHere (none _ (Nat.lt_succ_self _) later)
        · rintro ⟨-, same⟩
          obtain ⟨depth, rfl, value⟩ := map_eq_some_iff.mp same
          rw [← value, UInt16.ofNat_toNat]
      · rw [if_neg fun member => foundHere (listed.mp member), least_of_notFirst foundHere]
        have nonempty : joinSegments (front ++ [name]) ≠ "" := by
          intro empty
          rw [empty] at parsed
          cases parsed
        have whole : front ++ [name] ++ names = front ++ name :: names := by simp
        have length : (front ++ [name]).length = front.length + 1 := by simp
        have rest := @ih (front ++ [name]) (.inr nonempty) (by rwa [whole])
          fun depth above below => by
            rw [whole] at below ⊢
            exact reads depth (by omega) below
        rw [whole, length] at rest
        rw [rest]
        refine and_congr_left fun _ => ?_
        constructor
        · intro all depth above below none
          rcases (Nat.succ_le_of_lt above).eq_or_lt with rfl | later
          · exact readableHere
          · exact all depth later below fun earlier after before => none earlier (by omega) before
        · intro all depth above below none
          refine all depth (by omega) below fun earlier after before => ?_
          rcases (Nat.succ_le_of_lt after).eq_or_lt with rfl | later
          · exact foundHere
          · exact none earlier later before

end ComponentRowValidator

/-! ### Declared directories -/

/-- The directories on the way to a path, from a depth on. -/
def ancestorsFrom (unicode : Unicode) (names : List String) :
    Option UInt16 → List (ComponentCreatedAncestor unicode)
  | none => []
  | some first =>
    (List.range' first.toNat (names.length - first.toNat)).filterMap
      (ComponentCreatedAncestor.atDepth unicode names)

/-- The directories that some rows declare as created, from the first created depth of each on. -/
def declaredOf (rows : List (ComponentTableRow unicode)) : List (ComponentCreatedAncestor unicode) :=
  rows.flatMap fun row => ancestorsFrom unicode (segments row.path.value) row.firstCreatedDepth

/-- The directory at a depth on the way to a row's path is declared by some row. -/
def DeclaredAt (rows : List (ComponentTableRow unicode)) (row : ComponentTableRow unicode)
    (depth : Nat) : Prop :=
  ∃ ancestor ∈ declaredOf rows,
    ComponentCreatedAncestor.atDepth unicode (segments row.path.value) depth = some ancestor

/-- Every row says the least depth of a directory on the way to it that any row declares. -/
def RightlyDeclared (rows : List (ComponentTableRow unicode)) : Prop :=
  ∀ row ∈ rows, Least 0 (segments row.path.value).length (DeclaredAt rows row)
    (row.firstCreatedDepth.map UInt16.toNat)

theorem atDepth_path (path : PortableRelativePath unicode) (some : 0 < depth)
    (within : depth ≤ (segments path.value).length) :
    ∃ directory : PortableRelativePath unicode,
      ComponentCreatedAncestor.atDepth unicode (segments path.value) depth =
          Option.some (.relative directory) ∧
        directory.value = joinSegments ((segments path.value).take depth) := by
  obtain ⟨directory, spelled⟩ := new_take path within some
  refine ⟨directory, ?_, spelled⟩
  unfold ComponentCreatedAncestor.atDepth
  rw [if_neg some.ne', if_pos within, ← spelled, directory.new_value]
  rfl

variable {directory : PortableRelativePath unicode}

theorem mem_directories_of_atDepth (some : 0 < depth)
    (within : depth < (segments path.value).length)
    (found : ComponentCreatedAncestor.atDepth unicode (segments path.value) depth =
      Option.some (.relative directory)) : directory.value ∈ directories path.value := by
  obtain ⟨other, there, spelled⟩ := atDepth_path path some within.le
  rw [there] at found
  cases found
  rw [spelled]
  exact List.mem_map_of_mem (mem_range'_1.mpr (by omega))

theorem mem_directories_of_declared {row : ComponentTableRow unicode}
    (declared : .relative directory ∈
      ancestorsFrom unicode (segments row.path.value) row.firstCreatedDepth) :
    directory.value ∈ directories row.path.value := by
  unfold ancestorsFrom at declared
  split at declared
  · cases declared
  · rename_i first _
    obtain ⟨depth, inside, here⟩ := mem_filterMap.mp declared
    rw [mem_range'_1] at inside
    rcases Nat.eq_zero_or_pos depth with rfl | some
    · cases here
    · exact mem_directories_of_atDepth some (by omega) here

/-- Declared directories with the same key are the same. -/
theorem Fitting.declared_alike {rows : List (ComponentTableRow unicode)}
    (fitting : Fitting unicode (beginningsOf rows)) {first second : ComponentCreatedAncestor unicode}
    (inside : first ∈ declaredOf rows) (member : second ∈ declaredOf rows)
    (same : first.key = second.key) : first = second := by
  obtain ⟨row, here, declared⟩ := mem_flatMap.mp inside
  obtain ⟨other, there, alsoDeclared⟩ := mem_flatMap.mp member
  cases first with
  | componentRoot =>
    cases second with
    | componentRoot => rfl
    | relative directory => cases same
  | relative directory =>
    cases second with
    | componentRoot => cases same
    | relative also =>
      rw [ComponentCreatedAncestor.relative.injEq]
      ext1
      refine fitting.directory_spelled here there (mem_directories_of_declared declared)
        (mem_directories_of_declared alsoDeclared) ?_
      rw [portableKey_value, portableKey_value]
      exact same

/-! ### The table of declared directories -/

namespace CreatedAncestors

/-- A table holds the directories that were added to it, under their keys. -/
def Holds (items : List (ComponentCreatedAncestor unicode)) (created : CreatedAncestors unicode) :
    Prop :=
  ∀ key ancestor, created.ancestors.lookup key = some ancestor ↔
    ancestor ∈ items ∧ ancestor.key = key

variable {created next : CreatedAncestors unicode} {items : List (ComponentCreatedAncestor unicode)}

variable {ancestor : ComponentCreatedAncestor unicode}

section

variable (holds : created.Holds items)

include holds

theorem Holds.add (alike : ∀ earlier ∈ items, earlier.key = ancestor.key → earlier = ancestor)
    (added : created.add ancestor = some next) : next.Holds (items ++ [ancestor]) := by
  intro key other
  rw [mem_append, mem_singleton]
  unfold CreatedAncestors.add at added
  split at added
  · rename_i existing here
    cases added
    obtain ⟨member, keyed⟩ := (holds _ _).mp here
    have same := alike existing member keyed
    rw [holds]
    refine and_congr_left fun _ => ⟨.inl, ?_⟩
    rintro (there | rfl)
    · exact there
    · exact same ▸ member
  · rename_i absent
    simp only [bind_eq_some, guard_eq_some', exists_const, pure_eq_some] at added
    obtain ⟨pathBytes, -, allocationBytes, -, -, rfl⟩ := added
    by_cases same : key = ancestor.key
    · rw [same, AList.lookup_insert, some_inj]
      constructor
      · rintro rfl
        exact ⟨.inr rfl, rfl⟩
      · rintro ⟨there | rfl, keyed⟩
        · exact (alike other there keyed).symm
        · rfl
    · rw [AList.lookup_insert_ne same, holds]
      refine and_congr_left fun keyed => ⟨.inl, ?_⟩
      rintro (there | rfl)
      · exact there
      · exact absurd keyed.symm same

theorem Holds.addDepths {depths : List Nat}
    (alike : ∀ first ∈ items ++ depths.filterMap (ComponentCreatedAncestor.atDepth unicode names),
      ∀ second ∈ items ++ depths.filterMap (ComponentCreatedAncestor.atDepth unicode names),
        first.key = second.key → first = second) (added : depths.foldlM (fun created depth => do
      created.add (← ComponentCreatedAncestor.atDepth unicode names depth)) created = some next) :
    next.Holds (items ++ depths.filterMap (ComponentCreatedAncestor.atDepth unicode names)) := by
  induction depths generalizing created items with
  | nil =>
    cases added
    rwa [filterMap_nil, List.append_nil]
  | cons depth depths ih =>
    obtain ⟨middle, here, later⟩ := Runs.foldlM_cons_eq_some.mp added
    obtain ⟨ancestor, found, taken⟩ := bind_eq_some_iff.mp here
    rw [filterMap_cons_some found, append_cons] at alike ⊢
    refine ih (holds.add (fun earlier member same => ?_) taken) alike later
    exact alike earlier (by simp [member]) ancestor (by simp) same

theorem Holds.addFrom {first : Option UInt16}
    (alike : ∀ one ∈ items ++ ancestorsFrom unicode names first,
      ∀ other ∈ items ++ ancestorsFrom unicode names first, one.key = other.key → one = other)
    (added : created.addFrom names first = some next) :
    next.Holds (items ++ ancestorsFrom unicode names first) := by
  cases first with
  | none =>
    cases added
    rwa [ancestorsFrom, List.append_nil]
  | some first =>
    simp only [CreatedAncestors.addFrom, bind_eq_some, guard_eq_some', exists_const] at added
    exact holds.addDepths alike added.2

theorem Holds.mem_sorted : ancestor ∈ created.sorted ↔ ancestor ∈ items := by
  rw [created.sorted_perm.mem_iff]
  constructor
  · intro member
    obtain ⟨⟨key, value⟩, inside, rfl⟩ := List.mem_map.mp member
    exact ((holds key value).mp (AList.mem_lookup_iff.mpr inside)).1
  · intro member
    exact List.mem_map_of_mem (AList.mem_lookup_iff.mp ((holds _ ancestor).mpr ⟨member, rfl⟩))

end

end CreatedAncestors

namespace ComponentRowValidator

variable {validator next : ComponentRowValidator unicode} {component : ManagedComponentKind}
  {rows : List (ComponentTableRow unicode)} {row : ComponentTableRow unicode}

/-- What a validator keeps of the declarations of the rows that it took in. -/
structure Noted (rows : List (ComponentTableRow unicode))
    (validator : ComponentRowValidator unicode) : Prop where
  took : validator.Took rows
  created : validator.created.Holds (declaredOf rows)
  sound : validator.created.Sound
  checks : validator.createdDepthChecks = rows.map fun row => (row.path.key, row.firstCreatedDepth)

theorem Noted.start {expectedRows : Nat}
    (made : ComponentRowValidator.new unicode expectedRows = some validator) :
    validator.Noted [] := by
  have took := Took.start made
  have sound := created_sound_of_new made
  unfold ComponentRowValidator.new at made
  split at made
  · cases made
  · cases made
    refine ⟨took, fun key ancestor => ?_, sound, rfl⟩
    rw [AList.lookup_empty]
    simp [declaredOf]

theorem Noted.push (noted : validator.Noted rows) (pushed : validator.push component row = some next) :
    next.Noted (rows ++ [row]) := by
  have took := noted.took.push pushed
  obtain ⟨-, -, -, -, checks⟩ := reaches_of_push pushed
  obtain ⟨-, added, -⟩ := push_eq_some pushed
  refine ⟨took, ?_, noted.sound.addFrom added, ?_⟩
  · have alike : ∀ first ∈ declaredOf (rows ++ [row]), ∀ second ∈ declaredOf (rows ++ [row]),
        first.key = second.key → first = second :=
      fun _ inside _ member => took.fitting.declared_alike inside member
    rw [declaredOf, flatMap_append, flatMap_singleton] at alike ⊢
    exact noted.created.addFrom alike added
  · rw [checks, noted.checks, map_append, map_singleton]

theorem Noted.pushAll (noted : validator.Noted rows) {more : List (ComponentTableRow unicode)}
    (pushed : validator.pushAll component more = some next) : next.Noted (rows ++ more) := by
  induction more generalizing validator rows with
  | nil =>
    cases pushed
    rwa [List.append_nil]
  | cons row more ih =>
    obtain ⟨between, here, later⟩ := Runs.foldlM_cons_eq_some.mp pushed
    rw [append_cons]
    exact ih (noted.push here) later

/-! ### The check -/

theorem forM_eq_some {Item : Type} {check : Item → Option Unit} {items : List Item} :
    items.forM check = some () ↔ ∀ item ∈ items, check item = some () := by
  induction items with
  | nil => simp
  | cons item items ih =>
    rw [forall_mem_cons, ← ih]
    show (check item).bind (fun _ => items.forM check) = some () ↔ _
    cases check item <;> simp

/-- The check can read the directories that it looks up for a row: those from the top down to the
first one that is declared have keys that are paths. -/
def FoldedAdmitted (rows : List (ComponentTableRow unicode)) (row : ComponentTableRow unicode) :
    Prop :=
  ∀ depth, 0 < depth → depth < (segments row.path.value).length →
    (∀ earlier < depth, ¬DeclaredAt rows row earlier) →
      (PortableRelativePath.new unicode
        (joinSegments ((segments row.path.key.value).take depth))).isSome = true

theorem Noted.mem_created (noted : validator.Noted rows) (member : row ∈ rows) (some : 0 < depth)
    (within : depth < (segments row.path.value).length)
    (found : ComponentCreatedAncestor.atDepth unicode (segments row.path.value) depth =
      Option.some (.relative directory)) :
    Option.some directory.key ∈ validator.created.ancestors ↔ DeclaredAt rows row depth := by
  rw [← AList.lookup_isSome, isSome_iff_exists]
  constructor
  · rintro ⟨ancestor, here⟩
    obtain ⟨declared, keyed⟩ := (noted.created _ _).mp here
    refine ⟨ancestor, declared, ?_⟩
    cases ancestor with
    | componentRoot => cases keyed
    | relative other =>
      obtain ⟨place, there, listed⟩ := mem_flatMap.mp declared
      have same : other.value = directory.value := by
        refine noted.took.fitting.directory_spelled there member
          (mem_directories_of_declared listed) (mem_directories_of_atDepth some within found) ?_
        rw [portableKey_value, portableKey_value]
        exact keyed
      rw [found, show other = directory from PortableRelativePath.ext same]
  · rintro ⟨ancestor, declared, here⟩
    rw [found, some_inj] at here
    subst here
    exact ⟨_, (noted.created _ _).mpr ⟨declared, rfl⟩⟩

theorem Noted.root_mem_created (noted : validator.Noted rows) (row : ComponentTableRow unicode) :
    none ∈ validator.created.ancestors ↔ DeclaredAt rows row 0 := by
  rw [← AList.lookup_isSome, isSome_iff_exists]
  constructor
  · rintro ⟨ancestor, here⟩
    obtain ⟨declared, keyed⟩ := (noted.created _ _).mp here
    cases ancestor with
    | componentRoot => exact ⟨_, declared, rfl⟩
    | relative directory => cases keyed
  · rintro ⟨ancestor, declared, here⟩
    cases here
    exact ⟨_, (noted.created _ _).mpr ⟨declared, rfl⟩⟩

section

variable (documented : unicode.Documented)
include documented

/-- What the loop of the check finds at a depth of a row's key. -/
theorem Noted.reads (noted : validator.Noted rows) (member : row ∈ rows) (some : 0 < depth)
    (within : depth < (segments row.path.value).length) :
    match PortableRelativePath.new unicode
      (joinSegments ((segments row.path.key.value).take depth)) with
    | Option.some path =>
      Option.some path.key ∈ validator.created.ancestors ↔ DeclaredAt rows row depth
    | none => True := by
  obtain ⟨directory, found, spelled⟩ := atDepth_path row.path some within.le
  have text : joinSegments ((segments row.path.key.value).take depth) =
      keyText unicode directory.value := by
    rw [spelled]
    exact joinSegments_take_keyText documented some
  rw [text]
  cases parsed : PortableRelativePath.new unicode (keyText unicode directory.value) with
  | none => trivial
  | some path =>
    have same : path.key = directory.key := by
      have value := (key_of_new_keyText documented parsed).2
      show PortablePathKey.mk path.key.value = PortablePathKey.mk directory.key.value
      rw [value]
      rfl
    dsimp only
    rw [same]
    exact noted.mem_created member some within found

/-- A row passes the check exactly when the directories can be read and its depth is the least. -/
theorem Noted.check_iff (noted : validator.Noted rows) (member : row ∈ rows) :
    ((if none ∈ validator.created.ancestors then some (some 0)
        else validator.createdDepth "" 0 (segments row.path.key.value).dropLast).bind fun expected =>
      (guard (row.firstCreatedDepth = expected) : Option Unit)) = some () ↔
      FoldedAdmitted rows row ∧ Least 0 (segments row.path.value).length (DeclaredAt rows row)
        (row.firstCreatedDepth.map UInt16.toNat) := by
  have some : 0 < (segments row.path.value).length := length_pos_of_ne_nil (segments_ne_nil _)
  have length : (segments row.path.key.value).length = (segments row.path.value).length := by
    show (segments (keyText unicode row.path.value)).length = _
    rw [segments_keyText documented, length_map]
  have asked (answer : Option (Option UInt16)) :
      (answer.bind fun expected => (guard (row.firstCreatedDepth = expected) : Option Unit)) =
        Option.some () ↔ answer = Option.some row.firstCreatedDepth := by
    rw [bind_eq_some_iff]
    constructor
    · rintro ⟨expected, here, same⟩
      rw [guard_eq_some'] at same
      rw [here, same]
    · intro here
      refine ⟨_, here, ?_⟩
      rw [guard_eq_some']
  rw [asked]
  by_cases root : DeclaredAt rows row 0
  · rw [if_pos ((noted.root_mem_created row).mpr root), least_of_first some root, some_inj]
    constructor
    · intro first
      refine ⟨fun depth positive _ none => absurd root (none 0 positive), ?_⟩
      rw [← first]
      rfl
    · rintro ⟨-, same⟩
      obtain ⟨depth, first, value⟩ := map_eq_some_iff.mp same
      rw [first, some_inj]
      exact UInt16.toNat_inj.mp value.symm
  · rw [if_neg fun inside => root ((noted.root_mem_created row).mp inside),
      least_of_notFirst root]
    have shorter : (segments row.path.key.value).dropLast.length + 1 =
        (segments row.path.value).length := by
      rw [length_dropLast, length]
      omega
    have small := length_segments_lt row.path
    have looked := @createdDepth_eq_some _ validator (DeclaredAt rows row)
      (fun depth => (PortableRelativePath.new unicode
        (joinSegments ((segments row.path.key.value).take depth))).isSome = true)
      [] (segments row.path.key.value).dropLast row.firstCreatedDepth (.inl rfl)
      (by rw [nil_append]; omega) fun depth above below => by
        rw [length_nil] at above
        rw [nil_append] at below ⊢
        have taken : (segments row.path.key.value).dropLast.take depth =
            (segments row.path.key.value).take depth := by
          rw [dropLast_eq_take, take_take, length]
          congr 1
          omega
        rw [taken]
        have reads := noted.reads documented member above (by omega)
        cases parsed : PortableRelativePath.new unicode
            (joinSegments ((segments row.path.key.value).take depth)) with
        | none => exact Bool.false_ne_true
        | some path =>
          rw [parsed] at reads
          exact ⟨rfl, reads⟩
    rw [nil_append, length_nil, shorter] at looked
    refine looked.trans (and_congr_left fun _ => forall_congr' fun depth => ?_)
    constructor
    · intro all positive below none
      exact all positive (by omega) fun earlier _ before => none earlier before
    · intro all positive below none
      refine all positive (by omega) fun earlier before => ?_
      rcases Nat.eq_zero_or_pos earlier with rfl | after
      · exact root
      · exact none earlier after before

/-- All rows pass the check exactly when they are declared rightly and their directories can be
read. -/
theorem Noted.validateCreatedDepths_iff (noted : validator.Noted rows) :
    validator.validateCreatedDepths = some () ↔
      RightlyDeclared rows ∧ ∀ row ∈ rows, FoldedAdmitted rows row := by
  unfold validateCreatedDepths
  rw [noted.checks, forM_eq_some, List.forall_mem_map]
  refine (forall₂_congr fun row member => ?_).trans (forall₂_and.trans and_comm)
  rw [← noted.check_iff documented member]
  dsimp only
  split <;> rfl

end

end ComponentRowValidator

/-- The end of a table does what it is for: it accepts the tables whose rows are declared rightly,
and answers with the declared directories, in order and each of them once. -/
def ChecksDeclarations (rows : List (ComponentTableRow unicode))
    (finished : Option (ComponentTableSummary unicode)) : Prop :=
  (finished.isSome = true ↔ RightlyDeclared rows) ∧
    ∀ summary, finished = some summary →
      (∀ ancestor, ancestor ∈ summary.createdAncestors ↔ ancestor ∈ declaredOf rows) ∧
        summary.createdAncestors.Pairwise fun first second => second.le first = false

theorem ComponentTableSequenceValidator.finish_isSome
    {sequence : ComponentTableSequenceValidator unicode}
    (complete : sequence.nextShard = sequence.shardCount ∧
      sequence.rows.rowCount = sequence.totalRows.toNat) (sha256 : List UInt8 → Fixed 32) :
    ((sequence.finish sha256).isSome = true ↔ sequence.rows.validateCreatedDepths = some ()) ∧
      ∀ summary, sequence.finish sha256 = some summary →
        summary.createdAncestors = sequence.rows.created.sorted := by
  have clear : (guard (sequence.nextShard = sequence.shardCount ∧
      sequence.rows.rowCount = sequence.totalRows.toNat) : Option Unit) = some () := by
    rw [guard_eq_some']
    exact complete
  unfold finish
  rw [bind_eq_bind, clear, bind_some]
  cases sequence.rows.validateCreatedDepths with
  | none => exact ⟨by simp, by simp⟩
  | some checked => exact ⟨by simp, by rintro summary ⟨⟩; rfl⟩

/-- The end of a table does what it is for exactly when, in a table that is declared rightly, the
keys of the directories that it looks up can be read as paths. -/
theorem checksDeclarations_iff (documented : unicode.Documented) {component : ManagedComponentKind}
    {expectedRows : Nat} {rows : List (ComponentTableRow unicode)}
    {start : ComponentRowValidator unicode} {sequence : ComponentTableSequenceValidator unicode}
    (made : ComponentRowValidator.new unicode expectedRows = some start)
    (accepted : start.pushAll component rows = some sequence.rows)
    (complete : sequence.nextShard = sequence.shardCount ∧
      sequence.rows.rowCount = sequence.totalRows.toNat) (sha256 : List UInt8 → Fixed 32) :
    ChecksDeclarations rows (sequence.finish sha256) ↔
      (RightlyDeclared rows →
        ∀ row ∈ rows, ComponentRowValidator.FoldedAdmitted rows row) := by
  have noted := (ComponentRowValidator.Noted.start made).pushAll accepted
  rw [nil_append] at noted
  obtain ⟨passes, answers⟩ := sequence.finish_isSome complete sha256
  unfold ChecksDeclarations
  rw [passes, noted.validateCreatedDepths_iff documented]
  constructor
  · exact fun checks right => (checks.1.mpr right).2
  · intro admitted
    refine ⟨⟨fun both => both.1, fun right => ⟨right, admitted right⟩⟩, fun summary finished => ?_⟩
    rw [answers summary finished]
    exact ⟨fun ancestor => noted.created.mem_sorted, noted.sound.increasing⟩

/-! ### A name that grows when it is folded -/

/-- Fold ASCII, and the letter U+0149, which becomes an apostrophe and an n. -/
def foldCharacter (char : Char) : List Char :=
  if char = Char.ofNat 0x149 then [Char.ofNat 0x2BC, 'n'] else [char.toLower]

theorem toLower_eq_self_or_ascii (char : Char) :
    char.toLower = char ∨ (char.isUpper = true ∧ char.toLower.toNat = char.toNat + 32) := by
  by_cases upper : char.isUpper = true
  · right
    have range : char.toNat ≤ 90 := by
      simp only [Char.isUpper, decide_eq_true_eq] at upper
      exact upper.2
    have valid : (char.toNat + 32).isValidChar := .inl (by omega)
    rw [Char.toLower_eq_of_isUpper upper, Char.toNat_ofNat, if_pos valid]
    exact ⟨upper, rfl⟩
  · exact .inl (Char.toLower_eq_of_not_isUpper upper)

variable {char : Char}

theorem toNat_of_isUpper (upper : char.isUpper = true) : 65 ≤ char.toNat ∧ char.toNat ≤ 90 := by
  simp only [Char.isUpper, decide_eq_true_eq] at upper
  exact ⟨upper.1, upper.2⟩

theorem toLower_toLower (char : Char) : char.toLower.toLower = char.toLower := by
  rcases toLower_eq_self_or_ascii char with same | ⟨upper, lower⟩
  · rw [same, same]
  · have range := toNat_of_isUpper upper
    refine Char.toLower_eq_of_not_isUpper fun again => ?_
    have tooLarge := (toNat_of_isUpper again).2
    omega

theorem utf8Size_foldCharacter (char : Char) :
    ((foldCharacter char).map Char.utf8Size).sum ≤ 3 * char.utf8Size := by
  have some : 1 ≤ char.utf8Size := char.utf8Size_pos
  unfold foldCharacter
  split
  · rename_i same
    rw [same]
    decide
  · rw [map_singleton, sum_singleton]
    rcases toLower_eq_self_or_ascii char with same | ⟨upper, lower⟩
    · rw [same]
      omega
    · have range := toNat_of_isUpper upper
      have one : char.toLower.utf8Size = 1 := by
        rw [Char.utf8Size_eq_one_iff, UInt32.le_iff_toNat_le]
        exact (lower.trans_le (by omega : char.toNat + 32 ≤ 127))
      omega

theorem foldCharacter_foldCharacter (char : Char) :
    (foldCharacter char).flatMap foldCharacter = foldCharacter char := by
  unfold foldCharacter
  split
  · decide
  · rename_i other
    rw [flatMap_singleton, if_neg, toLower_toLower]
    rcases toLower_eq_self_or_ascii char with same | ⟨upper, lower⟩
    · rwa [same]
    · have range := toNat_of_isUpper upper
      intro same
      rw [same] at lower
      have value : (Char.ofNat 0x149).toNat = 0x149 := rfl
      omega

theorem slash_notMem_foldCharacter (other : char ≠ '/') : '/' ∉ foldCharacter char := by
  unfold foldCharacter
  split
  · decide
  · rw [mem_singleton]
    intro same
    rcases toLower_eq_self_or_ascii char with kept | ⟨upper, lower⟩
    · exact other (kept.symm.trans same.symm)
    · have range := toNat_of_isUpper upper
      rw [← same] at lower
      have value : '/'.toNat = 47 := rfl
      omega

/-- Tables that know ASCII and U+0149, all of whose normal forms are themselves. -/
def Unicode.apostrophe : Unicode where
  nfc := id
  caseFold value := String.ofList (value.toList.flatMap foldCharacter)
  nfc_nfc := Unicode.plain.nfc_nfc
  nfc_length := Unicode.plain.nfc_length
  caseFold_length value := by
    rw [utf8_length, utf8_length, String.toList_ofList]
    induction value.toList with
    | nil => exact le_rfl
    | cons char chars ih =>
      have one := utf8Size_foldCharacter char
      rw [flatMap_cons, map_append, sum_append, map_cons, sum_cons]
      omega

theorem apostrophe_documented : Unicode.apostrophe.Documented where
  caseFold_append first second := by
    simp only [Unicode.apostrophe, String.toList_append, flatMap_append, String.ofList_append]
  caseFold_ascii value ascii := by
    unfold isAscii at ascii
    rw [List.all_eq_true] at ascii
    show String.ofList (value.toList.flatMap foldCharacter) = String.ofList (value.toList.map _)
    rw [map_eq_flatMap]
    refine congrArg String.ofList (flatMap_congr fun char member => if_neg ?_)
    rintro rfl
    exact absurd (of_decide_eq_true (ascii _ member)) (by decide)
  caseFold_separate value separate := by
    simp only [Unicode.apostrophe, String.toList_ofList, mem_flatMap, not_exists, not_and]
    intro char member
    exact slash_notMem_foldCharacter fun same => separate (same ▸ member)
  nfc_ascii _ _ := rfl
  nfc_join _ _ := rfl
  nfc_separate _ separate := separate
  stable value := by
    simp only [Unicode.apostrophe, id, String.toList_ofList, flatMap_assoc,
      foldCharacter_foldCharacter]

/-- A letter that grows, a hundred times over. -/
def growingName : String := String.ofList (List.replicate 100 (Char.ofNat 0x149))

theorem toList_growingName : growingName.toList = List.replicate 100 (Char.ofNat 0x149) :=
  String.toList_ofList

theorem growingName_safe : windowsFileNameIsSafe growingName = true := by
  have device : windowsDeviceName growingName = false := by
    unfold windowsDeviceName
    rw [toList_growingName]
    decide
  have apart (other : String) (short : other.toList.length ≠ 100) : growingName ≠ other := by
    rintro rfl
    rw [toList_growingName, length_replicate] at short
    exact short rfl
  unfold windowsFileNameIsSafe
  rw [device, toList_growingName, decide_eq_true (apart "" (by decide)),
    decide_eq_true (apart "." (by decide)), decide_eq_true (apart ".." (by decide))]
  decide

theorem growingName_valid : validateFileName growingName = true := by
  unfold validateFileName utf16Units
  rw [growingName_safe, utf8_length, toList_growingName, map_replicate, map_replicate,
    sum_replicate, sum_replicate]
  decide

theorem nfc_apostrophe (value : String) : nfc Unicode.apostrophe value = value := ite_self value

theorem slash_notMem_growing : ∀ name ∈ [growingName, "a.jar"], '/' ∉ name.toList := by
  intro name member
  simp only [mem_cons, not_mem_nil, or_false] at member
  rcases member with rfl | rfl
  · exact notMem_of_valid growingName_valid (by decide)
  · decide

/-- A library in a directory of this name. -/
def growingPath : PortableRelativePath Unicode.apostrophe where
  value := joinSegments [growingName, "a.jar"]
  names := by
    rw [segments_joinSegments (cons_ne_nil _ _)]
    · intro name member
      refine ⟨nfc_apostrophe name, ?_⟩
      simp only [mem_cons, not_mem_nil, or_false] at member
      rcases member with rfl | rfl
      · exact growingName_valid
      · decide
    · exact slash_notMem_growing
  bounded := by
    have chars : (joinSegments [growingName, "a.jar"]).toList =
        List.replicate 100 (Char.ofNat 0x149) ++ "/a.jar".toList := by
      rw [joinSegments, String.toList_intercalate, map_cons, toList_growingName]
      rfl
    unfold boundedPath utf16Units
    rw [utf8_length, chars]
    decide

theorem segments_growingPath : segments growingPath.value = [growingName, "a.jar"] := by
  show segments (joinSegments [growingName, "a.jar"]) = _
  rw [segments_joinSegments (cons_ne_nil _ _)]
  exact slash_notMem_growing

/-- The name is too long when it is folded. -/
theorem growingName_folded :
    PortableRelativePath.new Unicode.apostrophe (keyText Unicode.apostrophe growingName) = none := by
  by_contra parsed
  obtain ⟨path, parsed⟩ := ne_none_iff_exists'.mp parsed
  have separate : '/' ∉ (keyText Unicode.apostrophe growingName).toList :=
    slash_notMem_keyText apostrophe_documented (notMem_of_valid growingName_valid (by decide))
  have whole : segments path.value = [keyText Unicode.apostrophe growingName] := by
    rw [(key_of_new_keyText apostrophe_documented parsed).1]
    generalize keyText Unicode.apostrophe growingName = folded at separate
    have alone : segments (joinSegments [folded]) = [folded] :=
      segments_joinSegments (cons_ne_nil _ _) fun name member => by
        rwa [mem_singleton.mp member]
    exact alone
  have valid := (path.names _ (by rw [whole]; exact mem_singleton_self _)).2
  have chars : (keyText Unicode.apostrophe growingName).toList =
      (List.replicate 100 (Char.ofNat 0x149)).flatMap foldCharacter := by
    rw [keyText_eq apostrophe_documented]
    show (String.ofList (growingName.toList.flatMap foldCharacter)).toList = _
    rw [String.toList_ofList, toList_growingName]
  unfold validateFileName at valid
  rw [utf8_length, chars] at valid
  revert valid
  decide +kernel

/-- A row fits into a table of its own. -/
theorem fits_singleton {unicode : Unicode} (documented : unicode.Documented)
    (row : ComponentProjectionRow unicode) : Fits [row] := by
  have bounded := row.path.bounded
  unfold boundedPath at bounded
  rw [Bool.and_eq_true, decide_eq_true_iff] at bounded
  have listed : ((texts (beginnings row.path.value)).card : ℕ) ≤ 513 := by
    refine (toFinset_card_le _).trans ?_
    rw [length_map, beginnings, length_map, length_range]
    exact length_segments_le_bound row.path
  rw [fits_iff (pairwise_singleton _ _), map_singleton]
  refine ⟨?_, fun dir => ?_, ?_, ?_, ?_⟩
  · simp only [mem_singleton, forall_eq]
    intro one here other there same
    obtain ⟨depth, inside, text, -⟩ := mem_beginnings.mp here
    obtain ⟨deep, within, spelled, -⟩ := mem_beginnings.mp there
    have lengths (depth : Nat) (inside : depth < (segments row.path.value).length) :
        ∃ key, portableKey unicode (joinSegments ((segments row.path.value).take (depth + 1))) =
          some key ∧ (segments key.value).length = depth + 1 := by
      obtain ⟨beginning, value⟩ := new_take row.path inside (Nat.succ_pos depth)
      refine ⟨beginning.key, by rw [← value, portableKey_value], ?_⟩
      show (segments (keyText unicode beginning.value)).length = _
      rw [segments_keyText documented, length_map, value,
        segments_take inside (Nat.succ_pos depth), length_take]
      omega
    obtain ⟨first, keyed, long⟩ := lengths depth inside
    obtain ⟨second, alsoKeyed, alsoLong⟩ := lengths deep within
    rw [text, spelled, keyed, alsoKeyed, some_inj] at same
    rw [same, alsoLong] at long
    rw [text, spelled, long]
  · rw [map_singleton]
    refine (show _ ≤ 1 from ?_).trans (by decide)
    unfold children
    exact (toFinset_card_le _).trans (length_filterMap_le _ _)
  · rw [flatMap_singleton]
    have short : ∀ text ∈ texts (beginnings row.path.value), (utf8 text).length ≤ 512 := by
      intro text member
      obtain ⟨isFile, present⟩ := mem_texts.mp member
      obtain ⟨depth, inside, same, -⟩ := mem_beginnings.mp present
      obtain ⟨beginning, value⟩ := new_take row.path inside (Nat.succ_pos depth)
      have fits := beginning.bounded
      unfold boundedPath at fits
      rw [Bool.and_eq_true, decide_eq_true_iff] at fits
      rw [show text = _ from same, ← value]
      exact fits.1
    refine (Finset.sum_le_card_nsmul _ _ 512 short).trans ?_
    rw [smul_eq_mul]
    exact (Nat.mul_le_mul_right 512 listed).trans (by decide)
  · rw [flatMap_singleton]
    exact listed.trans (by decide)
  · rw [map_singleton, sum_singleton]
    have key := @fromNormalized_length unicode row.path.value
    exact (key.trans (Nat.mul_le_mul_left 9 bounded.1)).trans (by decide)

/-- A library in this directory. -/
def growingRow : ComponentProjectionRow Unicode.apostrophe :=
  ⟨0, growingPath, .library, 5, Fixed.zero 20⟩

theorem growingRow_listed : Listed .libraries [growingRow] where
  few := by decide
  ordinals := nodup_singleton _
  placed _ member := by
    rw [mem_singleton.mp member]
    decide
  small _ member := by
    rw [mem_singleton.mp member]
    decide
  kinds _ member := by
    rw [mem_singleton.mp member]
    rfl
  total := by
    rw [map_singleton, sum_singleton]
    decide
  sorted := pairwise_singleton _ _
  apart := pairwise_singleton _ _

/-- A table of one row. -/
def singleTable (unicode : Unicode) (rows : ComponentRowValidator unicode) :
    ComponentTableSequenceValidator unicode where
  component := .libraries
  totalRows := 1
  shardCount := 1
  transactionNonce := Fixed.zero 16
  nextShard := 1
  rows := rows
  logicalRows := []
  projection := []

/-- The row is accepted and declares nothing, as it should, and its table is refused. -/
theorem growing_refused : ∃ start after : ComponentRowValidator Unicode.apostrophe,
    ComponentRowValidator.new Unicode.apostrophe 1 = some start ∧
      start.pushAll .libraries [growingRow.tableRow] = some after ∧ after.rowCount = 1 ∧
      ¬ChecksDeclarations [growingRow.tableRow]
        ((singleTable Unicode.apostrophe after).finish fun _ => Fixed.zero 32) := by
  obtain ⟨after, accepted⟩ := (ComponentRowValidator.pushAll_iff rfl growingRow_listed).mpr
    (fits_singleton apostrophe_documented growingRow)
  have made : ComponentRowValidator.new Unicode.apostrophe 1 = some _ := rfl
  have noted := (ComponentRowValidator.Noted.start made).pushAll accepted
  have count : after.rowCount = 1 := by
    obtain ⟨first, pushed, last⟩ := Runs.foldlM_cons_eq_some.mp accepted
    cases last
    obtain ⟨-, projected, counts, -, -, made⟩ :=
      ComponentRowValidator.push_tableRow_eq_some.mp pushed
    rw [made]
  refine ⟨_, after, rfl, accepted, count, fun checks => ?_⟩
  have nothing : declaredOf [growingRow.tableRow] = [] := rfl
  have right : RightlyDeclared [growingRow.tableRow] := by
    intro other member
    rw [mem_singleton.mp member]
    rintro depth - - ⟨ancestor, inside, -⟩
    rw [nothing] at inside
    cases inside
  have passed := (ComponentTableSequenceValidator.finish_isSome ⟨rfl, count⟩ _).1.mp
    (checks.1.mpr right)
  have admitted := ((noted.validateCreatedDepths_iff apostrophe_documented).mp passed).2 _
    (mem_singleton_self _)
  have read := admitted 1 Nat.one_pos (by
    show 1 < (segments growingPath.value).length
    rw [segments_growingPath]
    decide) fun _ _ declared => by
      obtain ⟨ancestor, inside, -⟩ := declared
      cases inside
  have text : joinSegments ((segments growingPath.key.value).take 1) =
      keyText Unicode.apostrophe growingName := by
    show joinSegments ((segments (keyText Unicode.apostrophe growingPath.value)).take 1) = _
    rw [joinSegments_take_keyText apostrophe_documented Nat.one_pos, segments_growingPath]
    rfl
  rw [show growingRow.tableRow.path = growingPath from rfl, text, growingName_folded] at read
  cases read

/-- A library in a directory that is to be created, whose name is folded. -/
def foldedRow : Option (ComponentTableRow Unicode.apostrophe) := do
  let path ← PortableRelativePath.new Unicode.apostrophe "Net/a.jar"
  return ⟨0, 5, Fixed.zero 20, .library, path, some 1, none⟩

theorem folded_runs : (do
    let row ← foldedRow
    let start ← ComponentRowValidator.new Unicode.apostrophe 1
    let after ← start.pushAll .libraries [row]
    return (after.rowCount, (segments row.path.value).length,
      (PortableRelativePath.new Unicode.apostrophe
        (joinSegments ((segments row.path.key.value).take 1))).isSome)) = some (1, 2, true) := by
  decide

/-- The end of its table does what it is for. -/
theorem checksDeclarations_iff_folded : ∃ (row : ComponentTableRow Unicode.apostrophe)
    (after : ComponentRowValidator Unicode.apostrophe), foldedRow = some row ∧
      ChecksDeclarations [row]
        ((singleTable Unicode.apostrophe after).finish fun _ => Fixed.zero 32) := by
  have runs := folded_runs
  simp only [bind_eq_some, pure_eq_some, Prod.mk.injEq] at runs
  obtain ⟨row, made, start, begun, after, accepted, count, length, read⟩ := runs
  refine ⟨row, after, made, (checksDeclarations_iff apostrophe_documented begun accepted
    ⟨rfl, count⟩ _).mpr fun _ other member depth positive below _ => ?_⟩
  rw [mem_singleton.mp member] at below ⊢
  rw [length] at below
  obtain rfl : depth = 1 := by omega
  exact read

end Axial.Minecraft
