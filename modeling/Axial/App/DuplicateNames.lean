/-
This file is about the name of a duplicate. Where none is asked for, it is the name of the source
with a suffix behind it, the first that no instance of the registry has. There are as many
suffixes to try as there are names and one more, so that one is free; and the source's name is
trimmed, so that the new one is as well. What the suffix does to the length is not looked at.
-/

import Axial.Minecraft.LoaderIdentity

namespace Axial.App

open Axial.Fs Axial.Minecraft Fallible List

/-! ### Names -/

abbrev maxNameChars : Nat := 128

inductive InstanceError where
  | invalidInput
  | invalidName
  | invalidSettings
  | notFound
  | conflict
  | nameConflict
  | busy
  /-- A constraint of the table is violated, and by which column. -/
  | storage (column : String)
  deriving DecidableEq

def validateName (value : String) : Except InstanceError String :=
  let value := trim value
  if value = "" ∨ maxNameChars < value.toList.length ∨ value.toList.any isControl then
    .error .invalidName
  else .ok value

inductive DuplicateNameError where
  | conflict
  deriving DecidableEq

def copySuffix : String := " copy"

def numberedName (base : String) (index : Nat) : String := base ++ " " ++ toString index

/-- The name that a request asks for: a blank one counts as none. -/
def requestedName (requested : Option String) : Option String :=
  (requested.map trim).filter fun name => name ≠ ""

/-- `choose_duplicate_name`; the loop goes from 2 to the number of occupied names and two. -/
def chooseDuplicateName (sourceName : String) (occupied : List String)
    (requested : Option String) : Except DuplicateNameError String :=
  match requestedName requested with
  | some name => if name ∈ occupied then .error .conflict else .ok name
  | none =>
    let base := sourceName ++ copySuffix
    if base ∉ occupied then .ok base
    else
      match (List.range' 2 (occupied.dedup.length + 1)).find? fun index =>
          numberedName base index ∉ occupied with
      | some index => .ok (numberedName base index)
      | none => .error .conflict

/-! ### The registry -/

inductive InstanceLifecycle where
  | reserved
  | live
  | deleting
  deriving DecidableEq

structure Instance (Settings : Type) where
  id : String
  name : String
  createdAt : String
  lastPlayedAt : String
  artSeed : UInt32
  settings : Settings
  revision : UInt64
  deriving DecidableEq

/-- A record, which is a row of the table of instances. -/
structure InstanceRecord (Settings : Type) where
  inst : Instance Settings
  revision : UInt64
  lifecycle : InstanceLifecycle
  libraryId : String
  directoryName : String
  directoryReceipt : Option String
  deriving DecidableEq

/-- What is not under the repository's hands: the check of the settings, the clock, and the seed
that is read off an id. -/
structure Surroundings (Settings : Type) where
  validates : Settings → Bool
  now : String
  newArtSeed : String → UInt32

section Registry

variable {Settings : Type} (surroundings : Surroundings Settings)
  (records : List (InstanceRecord Settings))

/-- `decode`, of a row that holds the record. -/
def decodeRecord (record : InstanceRecord Settings) : Except InstanceError Unit :=
  if record.revision = 0 ∨ record.revision ≠ record.inst.revision ∨
      record.directoryName ≠ record.inst.id then .error .invalidInput
  else do
    let _ ← validateName record.inst.name
    if !surroundings.validates record.inst.settings then .error .invalidSettings else .ok ()

/-- `get_in` -/
def getIn (id : String) : Except InstanceError (InstanceRecord Settings) :=
  match records.find? fun record => record.inst.id = id with
  | some record => do
    decodeRecord surroundings record
    return record
  | none => .error .notFound

def requireState (record : InstanceRecord Settings) (revision : UInt64)
    (state : InstanceLifecycle) : Except InstanceError Unit :=
  if record.revision ≠ revision then .error .conflict
  else if record.lifecycle ≠ state then .error .busy
  else .ok ()

/-- Two names are the same to the table if they are spelled alike. -/
def nameTaken (name : String) : Bool := records.any fun record => record.inst.name = name

/-- The `INSERT`, with the constraints of the table. -/
def insertRecord (record : InstanceRecord Settings) :
    Except InstanceError (List (InstanceRecord Settings)) :=
  if records.any fun other => other.inst.id = record.inst.id then .error (.storage "id")
  else if records.any fun other => other.inst.name = record.inst.name then
    .error (.storage "name")
  else if records.any fun other =>
      other.libraryId = record.libraryId && other.directoryName = record.directoryName then
    .error (.storage "directory_name")
  else .ok (records ++ [record])

/-- `reserve`: the record, and the table with it. -/
def reserve (inst : Instance Settings) (libraryId : String) :
    Except InstanceError (InstanceRecord Settings × List (InstanceRecord Settings)) := do
  let name ← validateName inst.name
  if !surroundings.validates inst.settings then .error .invalidSettings
  else if libraryId = "" ∨ 128 < libraryId.utf8ByteSize then .error .invalidInput
  else if nameTaken records name then .error .nameConflict
  else
    let record : InstanceRecord Settings := {
      inst := { inst with name, revision := 1 }
      revision := 1
      lifecycle := .reserved
      libraryId
      directoryName := inst.id
      directoryReceipt := none }
    (insertRecord records record).map fun after => (record, after)

/-- `reserve_duplicate` -/
def reserveDuplicate [DecidableEq Settings] (source : InstanceRecord Settings) (newId : String)
    (requested : Option String) (libraryId : String) :
    Except InstanceError (InstanceRecord Settings × List (InstanceRecord Settings)) := do
  let current ← getIn surroundings records source.inst.id
  requireState current source.revision .live
  if current ≠ source then .error .conflict
  else
    let occupied := records.map fun record => record.inst.name
    let name ← (chooseDuplicateName source.inst.name occupied requested).mapError
      fun _ => InstanceError.nameConflict
    reserve surroundings records {
      source.inst with
      id := newId
      name
      createdAt := surroundings.now
      lastPlayedAt := ""
      artSeed := surroundings.newArtSeed newId } libraryId

end Registry

/-! ### Trimmed names -/

variable {name value : String}

theorem validateName_eq_ok :
    validateName value = .ok name ↔ name = trim value ∧ name ≠ "" ∧
      name.toList.length ≤ maxNameChars ∧ ∀ char ∈ name.toList, isControl char = false := by
  unfold validateName
  dsimp only
  split
  · rename_i refused
    simp only [reduceCtorEq, false_iff]
    rintro ⟨rfl, present, short, plain⟩
    rcases refused with empty | long | control
    · exact present empty
    · exact absurd short (not_le.mpr long)
    · obtain ⟨char, member, isControl⟩ := any_eq_true.mp control
      rw [plain char member] at isControl
      cases isControl
  · rename_i passed
    rw [not_or, not_or, not_lt, Bool.not_eq_true, any_eq_false] at passed
    rw [Except.ok.injEq]
    constructor
    · rintro rfl
      exact ⟨rfl, passed.1, passed.2.1, fun char member =>
        Bool.eq_false_of_not_eq_true (passed.2.2 char member)⟩
    · rintro ⟨rfl, -⟩
      rfl

/-- A trimmed text does not begin with white space. -/
theorem head_trim {first : Char} (member : first ∈ (trim value).toList.head?) :
    isWhitespace first = false := by
  rw [trim, String.toList_ofList] at member
  obtain ⟨rest, split⟩ := List.rdropWhile_prefix isWhitespace (value.toList.dropWhile isWhitespace)
  have begins : (value.toList.dropWhile isWhitespace).head? = some first := by
    rw [← split, head?_append, Option.mem_def.mp member]
    rfl
  have plain := head?_dropWhile_not isWhitespace value.toList
  rw [begins] at plain
  exact plain

theorem trim_trim (value : String) : trim (trim value) = trim value := by
  have front : (trim value).toList.dropWhile isWhitespace = (trim value).toList := by
    cases chars : (trim value).toList with
    | nil => rfl
    | cons first rest =>
      have plain := head_trim (show first ∈ (trim value).toList.head? by rw [chars]; rfl)
      exact dropWhile_cons_of_neg (by rw [plain]; exact Bool.false_ne_true)
  have back : (trim value).toList.rdropWhile isWhitespace = (trim value).toList := by
    rw [trim, String.toList_ofList, rdropWhile_idempotent]
  rw [trim, front, back, String.ofList_toList]

/-- A name with a suffix behind it is trimmed if the name does not begin with white space and the
suffix does not end with it. -/
theorem trim_append {suffix : String} (present : name ≠ "")
    (begins : ∀ first ∈ name.toList.head?, isWhitespace first = false) {last : Char}
    (ends : last ∈ suffix.toList.getLast?) (plain : isWhitespace last = false) :
    trim (name ++ suffix) = name ++ suffix := by
  have front : (name ++ suffix).toList.dropWhile isWhitespace = (name ++ suffix).toList := by
    rw [String.toList_append]
    cases chars : name.toList with
    | nil => exact absurd (String.toList_eq_nil_iff.mp chars) present
    | cons first rest =>
      have plainFirst := begins first (by rw [chars]; rfl)
      exact dropWhile_cons_of_neg (by rw [plainFirst]; exact Bool.false_ne_true)
  have back : (name ++ suffix).toList.rdropWhile isWhitespace = (name ++ suffix).toList := by
    obtain ⟨start, chars⟩ := getLast?_eq_some_iff.mp ends
    rw [String.toList_append, chars, ← append_assoc]
    exact rdropWhile_concat_neg _ _ _ (by rw [plain]; exact Bool.false_ne_true)
  rw [trim, front, back, String.ofList_toList]

/-! ### Suffixes -/

/-- The names that are tried: the source's name with ` copy` behind it, and then with a number. -/
inductive CopyName (sourceName : String) : String → Prop where
  | plain : CopyName sourceName (sourceName ++ copySuffix)
  | numbered (index : Nat) : CopyName sourceName (numberedName (sourceName ++ copySuffix) index)

variable {char : Char}

theorem isDigit_of_mem_toString {index : Nat} (member : char ∈ (toString index).toList) :
    char.isDigit = true := by
  rw [Nat.toString_eq_repr, Nat.toList_repr] at member
  exact Nat.isDigit_of_mem_toDigits (by decide) (by decide) member

/-- A digit is neither white space nor a control character. -/
theorem plain_of_isDigit (digit : char.isDigit = true) :
    isWhitespace char = false ∧ isControl char = false := by
  simp only [Char.isDigit, Bool.and_eq_true, decide_eq_true_eq, ge_iff_le,
    UInt32.le_iff_toNat_le] at digit
  have range : 0x30 ≤ char.toNat ∧ char.toNat ≤ 0x39 := digit
  have apart : char.toNat ∉ [0x20, 0x85, 0xa0, 0x1680, 0x2028, 0x2029, 0x202f, 0x205f, 0x3000] := by
    simp only [mem_cons, not_mem_nil, or_false]
    omega
  simp only [isWhitespace, isControl, Bool.or_eq_false_iff, Bool.and_eq_false_iff,
    decide_eq_false_iff_not]
  exact ⟨⟨⟨.inr (by omega), .inl (by omega)⟩, apart⟩, by omega, .inl (by omega)⟩

variable {sourceName : String}

/-- A name that is tried is the source's name and a suffix without control characters, whose last
character is not white space. -/
theorem CopyName.split (copy : CopyName sourceName name) :
    ∃ suffix last, name = sourceName ++ suffix ∧ last ∈ suffix.toList.getLast? ∧
      isWhitespace last = false ∧ ∀ char ∈ suffix.toList, isControl char = false := by
  cases copy with
  | plain =>
    exact ⟨copySuffix, 'y', rfl, by simp [copySuffix], by decide, by simp [copySuffix, isControl]⟩
  | numbered index =>
    have present : (toString index).toList ≠ [] := by
      rw [Nat.toString_eq_repr, Nat.toList_repr]
      exact Nat.toDigits_ne_nil
    have digit := isDigit_of_mem_toString (getLast_mem present)
    refine ⟨copySuffix ++ " " ++ toString index, (toString index).toList.getLast present, ?_, ?_,
      (plain_of_isDigit digit).1, fun char member => ?_⟩
    · rw [numberedName, String.append_assoc, String.append_assoc, String.append_assoc]
    · rw [String.toList_append, getLast?_append, getLast?_eq_some_getLast present]
      rfl
    · rw [String.toList_append, mem_append] at member
      rcases member with spelled | digits
      · exact (show ∀ char ∈ (copySuffix ++ " ").toList, isControl char = false by
          simp [copySuffix, isControl]) char spelled
      · exact (plain_of_isDigit (isDigit_of_mem_toString digits)).2

variable {given : String}

/-- Such a name passes the check of names, as it is, if it is not too long. -/
theorem CopyName.validateName (copy : CopyName sourceName name)
    (accepted : App.validateName given = .ok sourceName) (short : name.toList.length ≤ maxNameChars)
    : App.validateName name = .ok name := by
  obtain ⟨rfl, present, -, plain⟩ := validateName_eq_ok.mp accepted
  obtain ⟨suffix, last, rfl, ends, plainLast, plainSuffix⟩ := copy.split
  refine validateName_eq_ok.mpr ⟨(trim_append present (fun _ => head_trim) ends plainLast).symm,
    ?_, short, fun char member => ?_⟩
  · intro empty
    exact present (String.append_eq_empty_iff.mp empty).1
  · rw [String.toList_append, mem_append] at member
    exact member.elim (plain char) (plainSuffix char)

theorem numberedName_injective (base : String) : Function.Injective (numberedName base) := by
  intro first second same
  have digits : toString first = toString second := String.append_right_inj _ |>.mp same
  rw [Nat.toString_eq_repr, Nat.toString_eq_repr] at digits
  exact Nat.repr_injective digits

/-- More numbers are tried than there are names, so that one is free. -/
theorem exists_free_index (base : String) (occupied : List String) :
    ∃ index ∈ List.range' 2 (occupied.dedup.length + 1), numberedName base index ∉ occupied := by
  by_contra none
  push Not at none
  have inside : (List.range' 2 (occupied.dedup.length + 1)).map (numberedName base) ⊆
      occupied.dedup := by
    intro name member
    obtain ⟨index, tried, rfl⟩ := mem_map.mp member
    exact mem_dedup.mpr (none index tried)
  have distinct : ((List.range' 2 (occupied.dedup.length + 1)).map (numberedName base)).Nodup :=
    (nodup_range' ..).map (numberedName_injective base)
  have few := (distinct.subperm inside).length_le
  rw [length_map, length_range'] at few
  omega

variable {requested : Option String}

/-- Where no name is asked for, one of the names that are tried is free and chosen. -/
theorem chooseDuplicateName_default (sourceName : String) (occupied : List String)
    (default : requestedName requested = none) :
    ∃ name, chooseDuplicateName sourceName occupied requested = .ok name ∧ name ∉ occupied ∧
      CopyName sourceName name := by
  unfold chooseDuplicateName
  rw [default]
  dsimp only
  split
  · rename_i free
    exact ⟨_, rfl, free, .plain⟩
  · cases found : (List.range' 2 (occupied.dedup.length + 1)).find? fun index =>
        decide (numberedName (sourceName ++ copySuffix) index ∉ occupied) with
    | some index =>
      have free := find?_some found
      exact ⟨_, rfl, by simpa using free, .numbered index⟩
    | none =>
      obtain ⟨index, tried, free⟩ := exists_free_index (sourceName ++ copySuffix) occupied
      have occupied := find?_eq_none.mp found index tried
      rw [decide_eq_true free] at occupied
      exact absurd rfl occupied

theorem chooseDuplicateName_requested (sourceName : String) (occupied : List String)
    (asked : requestedName requested = some name) :
    chooseDuplicateName sourceName occupied requested =
      if name ∈ occupied then .error .conflict else .ok name := by
  unfold chooseDuplicateName
  rw [asked]

/-! ### The registry and the names it holds -/

/-- The table that the registry keeps: names that passed the check, none of them twice. -/
structure Registered {Settings : Type} (records : List (InstanceRecord Settings)) : Prop where
  accepted : ∀ record ∈ records, ∃ given, validateName given = .ok record.inst.name
  names : (records.map fun record => record.inst.name).Nodup

/-- Whether an error is about the name. -/
def InstanceError.concernsName : InstanceError → Bool
  | .invalidName | .nameConflict => true
  | .storage column => column = "name"
  | _ => false

section Reserving

variable {Settings : Type} {surroundings : Surroundings Settings}
  {records : List (InstanceRecord Settings)}

theorem validateName_accepted (accepted : validateName given = .ok name) :
    validateName name = .ok name := by
  obtain ⟨rfl, present, short, plain⟩ := validateName_eq_ok.mp accepted
  exact validateName_eq_ok.mpr ⟨(trim_trim given).symm, present, short, plain⟩

theorem nameTaken_eq_false :
    nameTaken records name = false ↔ name ∉ records.map fun record => record.inst.name := by
  rw [nameTaken, Bool.eq_false_iff, ne_eq, any_eq_true, mem_map]
  simp only [decide_eq_true_eq]

variable {record : InstanceRecord Settings} {error : InstanceError}

theorem insertRecord_concernsName
    (free : record.inst.name ∉ records.map fun record => record.inst.name)
    (failed : insertRecord records record = .error error) : error.concernsName = false := by
  have untaken := nameTaken_eq_false.mpr free
  rw [nameTaken] at untaken
  simp only [insertRecord, untaken, ite_throw_eq_error, reduceCtorEq, and_false, or_false,
    Bool.false_eq_true, false_and, false_or] at failed
  rcases failed with ⟨-, rfl⟩ | ⟨-, -, -, rfl⟩
  · decide
  · decide

variable {id : String}

theorem mem_of_getIn (found : getIn surroundings records id = .ok record) : record ∈ records := by
  unfold getIn at found
  split at found
  · rename_i other isFound
    simp only [bind_eq_ok, pure_eq_ok] at found
    obtain ⟨-, -, rfl⟩ := found
    exact mem_of_find?_eq_some isFound
  · cases found

/-- A row of the registry is not refused for its name. -/
theorem Registered.getIn_concernsName (registered : Registered records)
    (failed : getIn surroundings records id = .error error) : error.concernsName = false := by
  unfold getIn at failed
  split at failed
  · rename_i record isFound
    obtain ⟨given, accepted⟩ := registered.accepted record (mem_of_find?_eq_some isFound)
    have valid := validateName_accepted accepted
    simp only [bind_eq_error, pure, Except.pure, reduceCtorEq, and_false, exists_false, or_false,
      decodeRecord, valid, ite_throw_eq_error, Except.ok.injEq, exists_eq_left'] at failed
    rcases failed with ⟨-, rfl⟩ | ⟨-, none | ⟨-, rfl⟩⟩
    · rfl
    · cases none
    · rfl
  · cases failed
    rfl

theorem requireState_concernsName {revision : UInt64} {state : InstanceLifecycle}
    (failed : requireState record revision state = .error error) : error.concernsName = false := by
  simp only [requireState, ite_throw_eq_error, reduceCtorEq, and_false, or_false] at failed
  rcases failed with ⟨-, rfl⟩ | ⟨-, -, rfl⟩
  · rfl
  · rfl

variable {libraryId : String} {inst : Instance Settings}

/-- An instance under a valid and free name is not refused for it. -/
theorem reserve_concernsName (valid : validateName inst.name = .ok inst.name)
    (free : inst.name ∉ records.map fun record => record.inst.name)
    (failed : reserve surroundings records inst libraryId = .error error) :
    error.concernsName = false := by
  have untaken := nameTaken_eq_false.mpr free
  rw [reserve, bind_eq_error] at failed
  rcases failed with invalid | ⟨name, isValid, failed⟩
  · rw [valid] at invalid
    cases invalid
  · rw [valid, Except.ok.injEq] at isValid
    subst isValid
    rw [ite_throw_eq_error, ite_throw_eq_error, ite_throw_eq_error] at failed
    rcases failed with ⟨-, rfl⟩ | ⟨-, ⟨-, rfl⟩ | ⟨-, ⟨taken, -⟩ | ⟨-, failed⟩⟩⟩
    · rfl
    · rfl
    · rw [untaken] at taken
      cases taken
    · exact insertRecord_concernsName free (map_eq_error.mp failed)

variable {source : InstanceRecord Settings} {newId : String}

/-- Reserving a duplicate fails for its name only if the chosen name is too long. -/
theorem reserveDuplicate_concernsName [DecidableEq Settings] (registered : Registered records)
    (default : requestedName requested = none) (chosen : chooseDuplicateName source.inst.name
      (records.map fun record => record.inst.name) requested = .ok name)
    (short : name.toList.length ≤ maxNameChars)
    (failed : reserveDuplicate surroundings records source newId requested libraryId =
      .error error) : error.concernsName = false := by
  rw [reserveDuplicate, bind_eq_error] at failed
  rcases failed with failed | ⟨current, found, failed⟩
  · exact registered.getIn_concernsName failed
  rw [bind_eq_error] at failed
  rcases failed with failed | ⟨_, -, failed⟩
  · exact requireState_concernsName failed
  rw [ite_throw_eq_error] at failed
  rcases failed with ⟨-, rfl⟩ | ⟨same, failed⟩
  · rfl
  rw [not_not] at same
  obtain ⟨given, accepted⟩ := registered.accepted current (mem_of_getIn found)
  rw [same] at accepted
  obtain ⟨other, isChosen, free, copy⟩ := chooseDuplicateName_default source.inst.name
    (records.map fun record => record.inst.name) default
  rw [chosen, Except.ok.injEq] at isChosen
  subst isChosen
  rw [bind_eq_error, chosen] at failed
  rcases failed with failed | ⟨taken, same, failed⟩
  · cases failed
  · rw [Except.mapError, Except.ok.injEq] at same
    subst same
    refine reserve_concernsName ?_ ?_ failed
    · exact copy.validateName accepted short
    · exact free

variable {after : List (InstanceRecord Settings)}

end Reserving

/-! ### The names of duplicates -/

/-- Without a name that is asked for, a duplicate gets a free name, and where that is not too long
neither the check of names nor the registry refuses it. A name that is asked for is used with the
white space at its ends taken off, or refused because it is there already. -/
theorem duplicateNames_fresh :
    (∀ given sourceName, validateName given = .ok sourceName → ∀ occupied requested,
      requestedName requested = none →
        ∃ name, chooseDuplicateName sourceName occupied requested = .ok name ∧ name ∉ occupied ∧
          (name.toList.length ≤ maxNameChars → validateName name = .ok name)) ∧
    (∀ sourceName occupied requested name, requestedName (some requested) = some name →
      name = trim requested ∧ chooseDuplicateName sourceName occupied (some requested) =
        if name ∈ occupied then .error .conflict else .ok name) ∧
    ∀ (Settings : Type) [DecidableEq Settings] (surroundings : Surroundings Settings)
      (records : List (InstanceRecord Settings)), Registered records →
      ∀ (source : InstanceRecord Settings) newId requested libraryId name error,
        requestedName requested = none →
        chooseDuplicateName source.inst.name (records.map fun record => record.inst.name)
          requested = .ok name → name.toList.length ≤ maxNameChars →
        reserveDuplicate surroundings records source newId requested libraryId = .error error →
          error.concernsName = false := by
  refine ⟨fun given sourceName accepted occupied requested default => ?_,
    fun sourceName occupied requested name asked => ⟨?_, ?_⟩, ?_⟩
  · obtain ⟨name, chosen, free, copy⟩ :=
      chooseDuplicateName_default sourceName occupied default
    exact ⟨name, chosen, free, copy.validateName accepted⟩
  · exact (Option.some.inj (Option.filter_eq_some_iff.mp asked).1).symm
  · exact chooseDuplicateName_requested sourceName occupied asked
  · intro Settings _ surroundings records registered source newId requested libraryId name error
      default chosen short failed
    exact reserveDuplicate_concernsName registered default chosen short failed

theorem duplicateNames_fresh_pack :
    ∃ name, chooseDuplicateName "Pack" ["Pack", "Pack copy", "Pack copy 3"] none = .ok name ∧
      name ∉ ["Pack", "Pack copy", "Pack copy 3"] ∧
      (name.toList.length ≤ maxNameChars → validateName name = .ok name) :=
  duplicateNames_fresh.1 " Pack" "Pack" (by decide) _ none rfl

/-- A name that is asked for is trimmed; and behind a name of 124 characters the suffix makes one
that the check of names refuses. -/
theorem duplicateNames_trimmed_or_long :
    (¬∀ sourceName occupied requested,
      chooseDuplicateName sourceName occupied (some requested) = .ok requested ∨
        ∃ error, chooseDuplicateName sourceName occupied (some requested) = .error error) ∧
    ¬∀ given sourceName, validateName given = .ok sourceName → ∀ occupied,
      ∃ name, chooseDuplicateName sourceName occupied none = .ok name ∧
        validateName name = .ok name := by
  constructor
  · intro claimed
    have trimmed : chooseDuplicateName "Pack" [] (some " My copy ") = .ok "My copy" := by
      decide
    rcases claimed "Pack" [] " My copy " with unchanged | ⟨error, refused⟩
    · rw [trimmed, Except.ok.injEq] at unchanged
      exact absurd unchanged (by decide)
    · rw [trimmed] at refused
      cases refused
  · intro claimed
    let longName := String.ofList (List.replicate 124 'a')
    have accepted : validateName longName = .ok longName := by decide +kernel
    have chosen : chooseDuplicateName longName [longName] none = .ok (longName ++ copySuffix) := by
      decide +kernel
    have refused : validateName (longName ++ copySuffix) = .error .invalidName := by decide +kernel
    obtain ⟨name, isChosen, valid⟩ := claimed longName longName accepted [longName]
    rw [chosen, Except.ok.injEq] at isChosen
    rw [← isChosen, refused] at valid
    cases valid

end Axial.App
