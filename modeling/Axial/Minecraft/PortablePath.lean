/-
This file models the portable names and paths of `core/minecraft/src/portable_path.rs`:
their spelling in normalization form C, the rules that keep them usable on
every file system, and the case-folded keys by which they are compared there.
-/

import Axial.Fs.Recovery

namespace Axial.Minecraft

open Bytes List
open Axial.Fs (isControl utf16Units windowsDeviceName)

abbrev maxPortableFileNameBytes : Nat := 255
abbrev maxPortableFileNameUtf16Units : Nat := 255
abbrev maxPortableRelativePathBytes : Nat := 512
abbrev maxPortableRelativePathUtf16Units : Nat := 512

/-- What the linked Unicode tables provide: normalization form C, which is idempotent, and full
case folding. Neither makes a string more than three times as long in UTF-8. -/
structure Unicode where
  nfc : String → String
  caseFold : String → String
  nfc_nfc : ∀ value, nfc (nfc value) = nfc value
  nfc_length : ∀ value, (utf8 (nfc value)).length ≤ 3 * (utf8 value).length
  caseFold_length : ∀ value, (utf8 (caseFold value)).length ≤ 3 * (utf8 value).length

/-- Tables that change no text. -/
def Unicode.plain : Unicode where
  nfc := id
  caseFold := id
  nfc_nfc _ := rfl
  nfc_length _ := Nat.le_mul_of_pos_left _ (by decide)
  caseFold_length _ := Nat.le_mul_of_pos_left _ (by decide)

def isAscii (value : String) : Bool := value.toList.all fun char => char.toNat < 0x80

/-- The private `nfc`, with its path for ASCII. -/
def nfc (unicode : Unicode) (value : String) : String :=
  if isAscii value then value else unicode.nfc value

theorem nfc_nfc (unicode : Unicode) (value : String) :
    nfc unicode (nfc unicode value) = nfc unicode value := by
  unfold nfc
  by_cases ascii : isAscii value = true
  · rw [if_pos ascii, if_pos ascii]
  · rw [if_neg ascii]
    split
    · rfl
    · exact unicode.nfc_nfc value

/-! ### Names -/

/-- The characters `<>:"/\|?*`, each a single byte in UTF-8. -/
def unsafeCharacters : List Char := ['<', '>', ':', '"', '/', '\\', '|', '?', '*']

def windowsFileNameIsSafe (value : String) : Bool :=
  value ≠ "" && value ≠ "." && value ≠ ".." &&
    !value.toList.any (fun char => char ∈ unsafeCharacters) &&
    !value.toList.any isControl &&
    !value.toList.getLast?.any (fun char => char = '.' ∨ char = ' ') &&
    !windowsDeviceName value

def validateFileName (value : String) : Bool :=
  decide ((utf8 value).length ≤ maxPortableFileNameBytes) &&
    decide (utf16Units value ≤ maxPortableFileNameUtf16Units) && windowsFileNameIsSafe value

@[ext]
structure PortableFileName (unicode : Unicode) where
  value : String
  spelling : nfc unicode value = value
  valid : validateFileName value = true
  deriving DecidableEq

variable {unicode : Unicode}

def PortableFileName.new (unicode : Unicode) (value : String) : Option (PortableFileName unicode) :=
  if valid : validateFileName (nfc unicode value) = true then
    some ⟨nfc unicode value, nfc_nfc unicode value, valid⟩
  else none

def PortableFileName.newExact (unicode : Unicode) (value : String) :
    Option (PortableFileName unicode) :=
  (PortableFileName.new unicode value).filter fun name => name.value = value

theorem PortableFileName.new_value (name : PortableFileName unicode) :
    PortableFileName.new unicode name.value = some name := by
  unfold PortableFileName.new
  rw [dif_pos (name.spelling.symm ▸ name.valid), Option.some_inj]
  ext1
  exact name.spelling

variable {value : String}

section

variable (valid : validateFileName value = true)

include valid

theorem windowsFileNameIsSafe_of_valid : windowsFileNameIsSafe value = true := by
  unfold validateFileName at valid
  exact (Bool.and_eq_true_iff.mp valid).2

theorem ne_empty_of_valid : value ≠ "" := by
  rintro rfl
  revert valid
  decide

variable {char : Char}

/-- A portable name has no separator in it. -/
theorem notMem_of_valid (unsafeChar : char ∈ unsafeCharacters) : char ∉ value.toList := by
  have safe := windowsFileNameIsSafe_of_valid valid
  intro member
  have any : value.toList.any (fun char => char ∈ unsafeCharacters) = true :=
    any_eq_true.mpr ⟨char, member, decide_eq_true unsafeChar⟩
  unfold windowsFileNameIsSafe at safe
  rw [any] at safe
  simp at safe

end

/-! ### Paths -/

/-- `split('/')`. -/
def segments (value : String) : List String := (value.toList.splitOn '/').map String.ofList

def joinSegments (names : List String) : String := "/".intercalate names

theorem segments_joinSegments {names : List String} (some : names ≠ [])
    (separate : ∀ name ∈ names, '/' ∉ name.toList) : segments (joinSegments names) = names := by
  have slash : "/".toList = ['/'] := rfl
  unfold segments joinSegments
  rw [String.toList_intercalate, slash, splitOn_intercalate '/' (by
    intro chars member
    obtain ⟨name, inside, rfl⟩ := mem_map.mp member
    exact separate name inside) (by simpa using some)]
  rw [map_map]
  exact (map_congr_left fun name _ => String.ofList_toList).trans (map_id names)

theorem joinSegments_segments (value : String) : joinSegments (segments value) = value := by
  have slash : "/".toList = ['/'] := rfl
  refine String.toList_injective ?_
  unfold segments joinSegments
  rw [String.toList_intercalate, slash, map_map]
  have chars : (value.toList.splitOn '/').map (String.toList ∘ String.ofList) =
      value.toList.splitOn '/' :=
    (map_congr_left fun name _ => String.toList_ofList).trans (map_id _)
  rw [chars, intercalate_splitOn]

/-- What is not the separator stands in one of the parts. -/
theorem exists_mem_splitOn {separator : Char} {chars : List Char} (member : char ∈ chars)
    (apart : char ≠ separator) : ∃ part ∈ chars.splitOn separator, char ∈ part := by
  induction chars with
  | nil => cases member
  | cons first chars ih =>
    rw [splitOn_cons_eq_if_modifyHead]
    obtain ⟨head, tail, parts⟩ := exists_cons_of_ne_nil (splitOn_ne_nil separator chars)
    rw [parts] at ih ⊢
    rcases mem_cons.mp member with rfl | later
    · rw [if_neg (by simpa using apart)]
      exact ⟨char :: head, mem_cons_self, mem_cons_self⟩
    · obtain ⟨part, inside, has⟩ := ih later
      split
      · exact ⟨part, mem_cons_of_mem _ inside, has⟩
      · rcases mem_cons.mp inside with rfl | beyond
        · exact ⟨first :: part, mem_cons_self, mem_cons_of_mem _ has⟩
        · exact ⟨part, mem_cons_of_mem _ beyond, has⟩

/-- A character of a path that is not the separator stands in one of its segments. -/
theorem exists_segment (member : char ∈ value.toList) (apart : char ≠ '/') :
    ∃ name ∈ segments value, char ∈ name.toList := by
  obtain ⟨part, inside, has⟩ := exists_mem_splitOn member apart
  exact ⟨String.ofList part, mem_map_of_mem inside, by rwa [String.toList_ofList]⟩

def boundedPath (value : String) : Bool :=
  decide ((utf8 value).length ≤ maxPortableRelativePathBytes) &&
    decide (utf16Units value ≤ maxPortableRelativePathUtf16Units)

@[ext]
structure PortableRelativePath (unicode : Unicode) where
  value : String
  names : ∀ name ∈ segments value, nfc unicode name = name ∧ validateFileName name = true
  bounded : boundedPath value = true
  deriving DecidableEq

theorem segments_ne_nil (value : String) : segments value ≠ [] := by
  unfold segments
  rw [Ne, map_eq_nil_iff]
  exact splitOn_ne_nil _ _

theorem slash_notMem (name : PortableFileName unicode) : '/' ∉ name.value.toList :=
  notMem_of_valid name.valid (by decide)

variable {names : List (PortableFileName unicode)} {values : List String}

theorem ne_nil_of_mapM (parsed : values.mapM (PortableFileName.new unicode) = some names)
    (some : values ≠ []) : names ≠ [] := by
  cases values with
  | nil => exact absurd rfl some
  | cons value values =>
    rw [mapM_cons] at parsed
    obtain ⟨name, -, rest⟩ := Option.bind_eq_some_iff.mp parsed
    obtain ⟨others, -, made⟩ := Option.bind_eq_some_iff.mp rest
    cases made
    exact cons_ne_nil _ _

/-- The names that are joined are the segments of the path. -/
theorem segments_of_names (some : names ≠ []) :
    segments (joinSegments (names.map PortableFileName.value)) =
      names.map PortableFileName.value := by
  refine segments_joinSegments (by simpa using some) fun name member => ?_
  obtain ⟨found, -, rfl⟩ := mem_map.mp member
  exact slash_notMem found

theorem names_of_names (some : names ≠ []) :
    ∀ name ∈ segments (joinSegments (names.map PortableFileName.value)),
      nfc unicode name = name ∧ validateFileName name = true := by
  rw [segments_of_names some]
  intro name member
  obtain ⟨found, -, rfl⟩ := mem_map.mp member
  exact ⟨found.spelling, found.valid⟩

def PortableRelativePath.new (unicode : Unicode) (value : String) :
    Option (PortableRelativePath unicode) :=
  if value = "" ∨ '\\' ∈ value.toList then none
  else
    match parsed : (segments value).mapM (PortableFileName.new unicode) with
    | none => none
    | some names =>
      if bounded : boundedPath (joinSegments (names.map PortableFileName.value)) = true then
        some ⟨_, names_of_names (ne_nil_of_mapM parsed (segments_ne_nil value)), bounded⟩
      else none

theorem mapM_new (valid : ∀ name ∈ values, nfc unicode name = name ∧ validateFileName name = true) :
    ∃ names, values.mapM (PortableFileName.new unicode) = some names ∧
      names.map PortableFileName.value = values := by
  induction values with
  | nil => exact ⟨[], rfl, rfl⟩
  | cons value values ih =>
    have ⟨spelling, safe⟩ := valid value mem_cons_self
    obtain ⟨names, parsed, same⟩ :=
      ih fun name member => valid name (mem_cons_of_mem _ member)
    let name : PortableFileName unicode := ⟨value, spelling, safe⟩
    refine ⟨name :: names, ?_, congrArg (value :: ·) same⟩
    rw [mapM_cons, parsed, show PortableFileName.new unicode value = some name from name.new_value]
    rfl

/-- A path is read back from its own spelling. -/
theorem PortableRelativePath.new_value (path : PortableRelativePath unicode) :
    PortableRelativePath.new unicode path.value = some path := by
  obtain ⟨names, parsed, same⟩ := mapM_new path.names
  have some : path.value ≠ "" := by
    intro empty
    have valid := path.names "" (by rw [empty]; decide)
    exact ne_empty_of_valid valid.2 rfl
  have noBackslash : '\\' ∉ path.value.toList := by
    intro member
    obtain ⟨name, inside, has⟩ := exists_segment member (by decide)
    exact notMem_of_valid (path.names name inside).2 (by decide) has
  have joined : joinSegments (names.map PortableFileName.value) = path.value := by
    rw [same, joinSegments_segments]
  unfold PortableRelativePath.new
  rw [if_neg (not_or.mpr ⟨some, noBackslash⟩)]
  split
  · rename_i failed
    rw [parsed] at failed
    cases failed
  · rename_i found again
    cases parsed.symm.trans again
    rw [dif_pos (joined.symm ▸ path.bounded), Option.some_inj]
    ext1
    exact joined

/-! ### Keys -/

structure PortablePathKey where
  value : String
  deriving DecidableEq

/-- `to_ascii_lowercase`. -/
def toAsciiLowercase (value : String) : String := String.ofList (value.toList.map Char.toLower)

def PortablePathKey.fromNormalized (unicode : Unicode) (value : String) : PortablePathKey :=
  if isAscii value then ⟨toAsciiLowercase value⟩ else ⟨unicode.nfc (unicode.caseFold value)⟩

/-- Keys stay well within what a 16-bit length can say. -/
theorem fromNormalized_length (value : String) :
    (utf8 (PortablePathKey.fromNormalized unicode value).value).length ≤
      9 * (utf8 value).length := by
  unfold PortablePathKey.fromNormalized
  by_cases ascii : isAscii value = true
  · have each : ∀ char ∈ value.toList, char.toNat < 0x80 := fun char member =>
      of_decide_eq_true (all_eq_true.mp ascii char member)
    have whole : (utf8 value).length = value.toList.length := by
      rw [← utf8_length_of_ascii each, String.ofList_toList]
    rw [if_pos ascii, whole]
    unfold toAsciiLowercase
    rw [utf8_length_of_ascii, length_map]
    · omega
    · intro char member
      obtain ⟨upper, inside, rfl⟩ := mem_map.mp member
      exact toNat_toLower_lt (each upper inside)
  · rw [if_neg ascii]
    have folded := unicode.caseFold_length value
    have normal := unicode.nfc_length (unicode.caseFold value)
    dsimp only
    omega

def PortableFileName.key (name : PortableFileName unicode) : PortablePathKey :=
  .fromNormalized unicode name.value

def PortableRelativePath.key (path : PortableRelativePath unicode) : PortablePathKey :=
  .fromNormalized unicode path.value

/-! ### Names in ASCII -/

theorem utf8_length_of_isAscii (ascii : isAscii value = true) :
    (utf8 value).length = value.toList.length := by
  have each (char : Char) (member : char ∈ value.toList) : char.toNat < 0x80 :=
    of_decide_eq_true (all_eq_true.mp ascii char member)
  rw [← utf8_length_of_ascii each, String.ofList_toList]

theorem utf16Units_of_ascii (ascii : isAscii value = true) :
    utf16Units value = value.toList.length := by
  have ones : value.toList.map (fun char => if char.toNat < 0x10000 then 1 else 2) =
      value.toList.map fun _ => 1 := by
    refine map_congr_left fun char member => if_pos ?_
    have small : char.toNat < 0x80 := of_decide_eq_true (all_eq_true.mp ascii char member)
    exact small.trans (by decide)
  rw [utf16Units, ones, map_const', sum_replicate, smul_eq_mul, Nat.mul_one]

/-- The key of a valid name in ASCII is the name in lower case. -/
theorem key_of_ascii (ascii : isAscii value = true) (valid : validateFileName value = true) :
    (PortableFileName.newExact unicode value).map PortableFileName.key =
      some ⟨toAsciiLowercase value⟩ := by
  have spelled : nfc unicode value = value := if_pos ascii
  have new : PortableFileName.new unicode value = some ⟨value, spelled, valid⟩ :=
    PortableFileName.new_value ⟨value, spelled, valid⟩
  unfold PortableFileName.newExact
  rw [new]
  simp only [Option.filter_some, decide_true, if_true, Option.map_some, PortableFileName.key,
    PortablePathKey.fromNormalized, ascii]

/-- No device name is longer than seven characters, up to the first dot. -/
theorem windowsDeviceName_of_long
    (long : 7 < ((value.toList.takeWhile fun char => char ≠ '.').rdropWhile
      fun char => char = '.' ∨ char = ' ').length) : windowsDeviceName value = false := by
  have apart {name device : List Char} (longer : device.length < name.length) :
      Axial.Fs.eqIgnoreAsciiCase name device = false := by
    refine decide_eq_false fun same => longer.ne ?_
    simpa using (congrArg List.length same).symm
  have port (device : List Char) (short : device.length ≤ 3) :
      Axial.Fs.eqIgnoreAsciiCase ((value.toList.takeWhile fun char => char ≠ '.').rdropWhile
        fun char => char = '.' ∨ char = ' ').dropLast device = false := by
    refine apart ?_
    rw [length_dropLast]
    omega
  unfold windowsDeviceName
  dsimp only
  rw [if_neg]
  · split
    · rfl
    · rw [port _ (by decide), port _ (by decide), Bool.or_false, Bool.and_false]
  · rw [any_eq_true]
    rintro ⟨device, member, same⟩
    have short : ∀ device ∈ ["CON", "PRN", "AUX", "NUL", "CLOCK$", "CONIN$", "CONOUT$"],
        device.toList.length ≤ 7 := by
      decide
    rw [apart (lt_of_le_of_lt (short device member) long)] at same
    exact Bool.false_ne_true same

end Axial.Minecraft
