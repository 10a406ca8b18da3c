/-
This file says that the rules of `core/minecraft/src/portable_path.rs` agree with
each other and with those of the recovery journal in `core/fs/src/recovery.rs`.
What is accepted is spelled as it stays, a path is exactly its names, and joined to
a directory it leads to a place below it. A name and what it is called while it is
disabled share the key that managed content goes by, and whatever may be the name of
a file may be journalled.

The tables of Unicode are parameters. Of normalization form C the keys need that no
character of ASCII is ever moved or joined to what stands before it.
-/

import Axial.Minecraft.CreatedDepths
import Axial.Minecraft.Libraries

namespace Axial.Minecraft

open Bytes List
open Axial.Fs (Host RecoveryName isControl utf16Units windowsDeviceName)

variable {unicode : Unicode}

/-! ### Names and the journal -/

variable {byte : UInt8}

/-- The bytes below 128 of a text are its characters of ASCII. -/
theorem mem_utf8EncodeChar {char : Char} (ascii : byte.toNat < 0x80) :
    byte ∈ String.utf8EncodeChar char ↔ char.toNat = byte.toNat := by
  have small (number : Nat) (less : number < 256) : byte = UInt8.ofNat number ↔
      byte.toNat = number := by
    rw [← UInt8.toNat_inj, UInt8.toNat_ofNat', Nat.mod_eq_of_lt less]
  have code : char.val.toNat = char.toNat := rfl
  unfold String.utf8EncodeChar
  dsimp only
  split_ifs <;> simp only [mem_cons, not_mem_nil, or_false]
  · rw [small _ (by omega)]
    omega
  · rw [small _ (by omega), small _ (by omega)]
    omega
  · rw [small _ (by omega), small _ (by omega), small _ (by omega)]
    omega
  · rw [small _ (by omega), small _ (by omega), small _ (by omega), small _ (by omega)]
    omega

variable {value : String}

theorem mem_utf8 (ascii : byte.toNat < 0x80) :
    byte ∈ utf8 value ↔ ∃ char ∈ value.toList, char.toNat = byte.toNat := by
  rw [← String.ofList_toList (s := value), utf8_ofList, mem_flatMap, String.toList_ofList]
  simp only [mem_utf8EncodeChar ascii]

/-- Both validators look for the same characters, one of them byte by byte. -/
theorem any_reservedNameBytes (value : String) :
    (utf8 value).any (fun byte => byte ∈ Axial.Fs.reservedNameBytes) =
      value.toList.any fun char => char ∈ unsafeCharacters := by
  have ascii : ∀ byte ∈ Axial.Fs.reservedNameBytes, byte.toNat < 0x80 := by decide +kernel
  have codes : Axial.Fs.reservedNameBytes.map UInt8.toNat = unsafeCharacters.map Char.toNat := by
    decide
  rw [Bool.eq_iff_iff, any_eq_true, any_eq_true]
  simp only [decide_eq_true_eq]
  constructor
  · rintro ⟨byte, member, reserved⟩
    obtain ⟨char, inside, same⟩ := (mem_utf8 (ascii byte reserved)).mp member
    have listed : byte.toNat ∈ unsafeCharacters.map Char.toNat :=
      codes ▸ mem_map_of_mem reserved
    obtain ⟨other, found, equal⟩ := mem_map.mp listed
    rw [Char.toNat_inj.mp (equal.trans same.symm)] at found
    exact ⟨char, inside, found⟩
  · rintro ⟨char, inside, found⟩
    have listed : char.toNat ∈ Axial.Fs.reservedNameBytes.map UInt8.toNat :=
      codes ▸ mem_map_of_mem found
    obtain ⟨byte, reserved, equal⟩ := mem_map.mp listed
    exact ⟨byte, (mem_utf8 (ascii byte reserved)).mpr ⟨char, inside, equal.symm⟩, reserved⟩

/-- The path for ASCII is only a faster one. -/
theorem nfc_eq (documented : unicode.Documented) (value : String) :
    nfc unicode value = unicode.nfc value := by
  unfold nfc
  split
  · rename_i ascii
    exact (documented.nfc_ascii value ascii).symm
  · rfl

theorem newExact_isSome (value : String) :
    (PortableFileName.newExact unicode value).isSome = true ↔
      nfc unicode value = value ∧ validateFileName value = true := by
  unfold PortableFileName.newExact
  constructor
  · intro made
    obtain ⟨name, found⟩ := Option.isSome_iff_exists.mp made
    obtain ⟨-, spelled⟩ := Option.filter_eq_some_iff.mp found
    have same : name.value = value := of_decide_eq_true spelled
    exact same ▸ ⟨name.spelling, name.valid⟩
  · rintro ⟨spelling, valid⟩
    have made : PortableFileName.new unicode value = some ⟨value, spelling, valid⟩ :=
      PortableFileName.new_value ⟨value, spelling, valid⟩
    rw [made, Option.filter_some, if_pos (decide_eq_true rfl)]
    rfl

variable {host : Host}

/-- What may be journalled. -/
theorem validateName_eq_true (shared : host.nfc = unicode.nfc) (documented : unicode.Documented)
    (value : String) :
    Axial.Fs.validateName host value = true ↔
      nfc unicode value = value ∧ validateFileName value = true := by
  rw [nfc_eq documented]
  unfold Axial.Fs.validateName validateFileName windowsFileNameIsSafe
  rw [any_reservedNameBytes, shared]
  simp only [Bool.not_eq_true', Bool.or_eq_false_iff, decide_eq_false_iff_not, not_not, not_lt,
    Bool.and_eq_true, decide_eq_true_eq]
  tauto

theorem journalled_iff (shared : host.nfc = unicode.nfc) (documented : unicode.Documented)
    (value : String) :
    (PortableFileName.newExact unicode value).isSome = true ↔
      (RecoveryName.newExact host value).isSome = true := by
  rw [newExact_isSome, ← validateName_eq_true shared documented]
  unfold RecoveryName.newExact
  split <;> simp_all

/-! ### Where a path leads -/

/-- The components of a path on Unix. -/
inductive Component where
  | rootDir
  | curDir
  | parentDir
  | normal (name : String)

def Component.ofPart (part : String) : Component :=
  if part = ".." then .parentDir else .normal part

/-- The parts between separators, of which several count as one. -/
def parts (path : String) : List String := (segments path).filter (· ≠ "")

/-- `Path::components`. A part that is `.` counts only at the front of a relative path. -/
def components (path : String) : List Component :=
  if startsWith path "/" then
    .rootDir :: ((parts path).filter (· ≠ ".")).map .ofPart
  else
    match parts path with
    | [] => []
    | first :: rest =>
      (if first = "." then .curDir else .ofPart first) :: (rest.filter (· ≠ ".")).map .ofPart

def PortableRelativePath.joinUnder (path : PortableRelativePath unicode) (root : String) : String :=
  (segments path.value).foldl pathJoin root

theorem segments_append (path part : String) :
    segments (path ++ "/" ++ part) = segments path ++ segments part := by
  have plain : segments (joinSegments (segments path) ++ "/" ++ part) =
      segments path ++ segments part :=
    segments_beginning (segments_ne_nil path) fun name member => slash_notMem_segments member
  rwa [joinSegments_segments] at plain

theorem segments_singleton {part : String} (separate : '/' ∉ part.toList) :
    segments part = [part] := by
  have alone := segments_joinSegments (cons_ne_nil part []) fun name member => by
    rwa [mem_singleton.mp member]
  have same : joinSegments [part] = part := rfl
  rwa [same] at alone

theorem startsWith_slash (path : String) :
    startsWith path "/" = true ↔ path.toList.head? = some '/' := by
  have slash : "/".toList = ['/'] := rfl
  unfold startsWith
  rw [slash, List.isPrefixOf_iff_prefix]
  cases path.toList with
  | nil => simp
  | cons first rest =>
    rw [cons_prefix_cons, head?_cons, Option.some_inj]
    exact ⟨fun both => both.1.symm, fun same => ⟨same.symm, List.nil_prefix⟩⟩

section

variable {part : String} (separate : '/' ∉ part.toList)
include separate

theorem startsWith_pathJoin (path : String) :
    startsWith (pathJoin path part) "/" = startsWith path "/" := by
  have relative : ¬startsWith part "/" = true := by
    rw [startsWith_slash]
    exact fun first => separate (mem_of_mem_head? first)
  unfold pathJoin
  rw [if_neg relative, Bool.eq_iff_iff]
  by_cases empty : path = ""
  · have none : ¬startsWith "" "/" = true := by decide
    rw [empty, if_pos (Or.inl rfl), String.empty_append, iff_false_intro relative,
      iff_false_intro none]
  · have more : path.toList ≠ [] := fun none => empty (String.toList_injective none)
    split <;> simp only [startsWith_slash, String.toList_append, append_assoc,
      head?_append_of_ne_nil _ more]

variable (named : part ≠ "")
include named

theorem parts_pathJoin (path : String) : parts (pathJoin path part) = parts path ++ [part] := by
  have relative : ¬startsWith part "/" = true := by
    rw [startsWith_slash]
    exact fun first => separate (mem_of_mem_head? first)
  have alone : parts part = [part] := by
    unfold parts
    rw [segments_singleton separate]
    exact filter_cons_of_pos (decide_eq_true named)
  unfold pathJoin
  rw [if_neg relative]
  split
  · rename_i ends
    rcases ends with rfl | ends
    · rw [String.empty_append, alone]
      rfl
    · obtain ⟨front, rfl⟩ : ∃ front, path = front ++ "/" := by
        obtain ⟨front, same⟩ := isSuffixOf_iff_suffix.mp ends
        exact ⟨String.ofList front, String.toList_injective (by
          rw [String.toList_append, String.toList_ofList, same])⟩
      unfold parts at alone ⊢
      have before : segments (front ++ "/") = segments front ++ [""] := by
        have apart := segments_append front ""
        rwa [String.append_empty] at apart
      rw [segments_append, filter_append, alone, before, filter_append]
      simp
  · unfold parts at alone ⊢
    rw [segments_append, filter_append, alone]

/-- A name adds one component. -/
theorem components_pathJoin (step : part ≠ ".") (up : part ≠ "..") (path : String) :
    components (pathJoin path part) = components path ++ [.normal part] := by
  have one : ([part].filter (· ≠ ".")).map Component.ofPart = [.normal part] := by
    have kept : [part].filter (fun part => part ≠ ".") = [part] :=
      filter_cons_of_pos (decide_eq_true step)
    rw [kept]
    exact congrArg (fun component => [component]) (if_neg up)
  unfold components
  rw [startsWith_pathJoin separate, parts_pathJoin separate named]
  split
  · rw [filter_append, map_append, one, cons_append]
  · cases parts path with
    | nil =>
      show [_] = [_]
      rw [if_neg step]
      exact congrArg (fun component => [component]) (if_neg up)
    | cons first rest =>
      show _ :: ((rest ++ [part]).filter _).map _ = _ :: (_ ++ _)
      rw [filter_append, map_append, one]

end

/-- What no component of a path may be, on Unix or on Windows. -/
structure PlainName (name : String) : Prop where
  named : name ≠ ""
  step : name ≠ "."
  up : name ≠ ".."
  separate : '/' ∉ name.toList ∧ '\\' ∉ name.toList
  drive : ':' ∉ name.toList
  device : windowsDeviceName name = false

theorem plainName_of_valid {name : String} (valid : validateFileName name = true) :
    PlainName name := by
  have safe := windowsFileNameIsSafe_of_valid valid
  unfold windowsFileNameIsSafe at safe
  simp only [Bool.and_eq_true, decide_eq_true_eq, Bool.not_eq_true'] at safe
  obtain ⟨⟨⟨⟨⟨⟨named, step⟩, up⟩, -⟩, -⟩, -⟩, device⟩ := safe
  exact ⟨named, step, up, ⟨notMem_of_valid valid (by decide), notMem_of_valid valid (by decide)⟩,
    notMem_of_valid valid (by decide), device⟩

theorem components_foldl {names : List String} (plain : ∀ name ∈ names, PlainName name)
    (root : String) :
    components (names.foldl pathJoin root) = components root ++ names.map .normal := by
  induction names generalizing root with
  | nil => exact (List.append_nil _).symm
  | cons name names ih =>
    have first := plain name mem_cons_self
    rw [foldl_cons, ih fun other member =>
        plain other (mem_cons_of_mem _ member),
      components_pathJoin first.separate.1 first.named first.step first.up, append_assoc]
    rfl

theorem PortableRelativePath.plain (path : PortableRelativePath unicode) :
    ∀ name ∈ segments path.value, PlainName name :=
  fun name member => plainName_of_valid (path.names name member).2

/-- A path leads below every directory it is joined to, by its own names. -/
theorem PortableRelativePath.components_joinUnder (path : PortableRelativePath unicode)
    (root : String) : components (path.joinUnder root) =
      components root ++ (segments path.value).map .normal :=
  components_foldl path.plain root

/-! ### The key of managed content -/

def disabledSuffix : String := ".disabled"

/-- `strip_suffix` for as long as there is one. -/
def stripDisabled (base : List Char) : List Char :=
  if disabledSuffix.toList <:+ base then
    stripDisabled (base.take (base.length - disabledSuffix.toList.length))
  else base
termination_by base.length
decreasing_by
  rename_i ends
  have within : disabledSuffix.toList.length ≤ base.length := ends.length_le
  have some : 0 < disabledSuffix.toList.length := by decide
  rw [length_take]
  omega

def managedContentNameKey (name : PortableFileName unicode) : PortablePathKey :=
  ⟨String.ofList (stripDisabled name.key.value.toList)⟩

theorem stripDisabled_append (base : List Char) :
    stripDisabled (base ++ disabledSuffix.toList) = stripDisabled base := by
  rw [stripDisabled, if_pos (suffix_append _ _), length_append, Nat.add_sub_cancel,
    take_left]

/-- A text that is a suffix in one of its letter cases. -/
def Marks (suffix : String) : Prop := toAsciiLowercase suffix = disabledSuffix

variable {suffix : String}

theorem isAscii_of_marks (marks : Marks suffix) : isAscii suffix = true := by
  refine all_eq_true.mpr fun char member => decide_eq_true ?_
  have lower : char.toLower ∈ disabledSuffix.toList := by
    rw [← marks, toAsciiLowercase, String.toList_ofList]
    exact mem_map_of_mem member
  have ascii : isAscii disabledSuffix = true := by decide
  have small (char : Char) (listed : char ∈ disabledSuffix.toList) : char.toNat < 0x80 :=
    of_decide_eq_true (all_eq_true.mp ascii char listed)
  rcases toLower_eq_self_or_ascii char with same | ⟨upper, -⟩
  · exact small char (same ▸ lower)
  · exact (toNat_of_isUpper upper).2.trans_lt (by decide)

section

variable (documented : unicode.Documented)
  (tail : ∀ first second, isAscii second = true →
    unicode.nfc (first ++ second) = unicode.nfc first ++ second)
include documented tail

theorem nfc_append (ascii : isAscii suffix = true) (value : String) :
    nfc unicode (value ++ suffix) = nfc unicode value ++ suffix := by
  rw [nfc_eq documented, nfc_eq documented, tail value suffix ascii]

theorem keyText_append (ascii : isAscii suffix = true) (value : String) :
    keyText unicode (value ++ suffix) = keyText unicode value ++ toAsciiLowercase suffix := by
  rw [keyText_eq documented, keyText_eq documented, documented.caseFold_append,
    documented.caseFold_ascii suffix ascii, tail _ _ (isAscii_toAsciiLowercase ascii)]

variable {suffixes : List String}

section

variable (marks : ∀ suffix ∈ suffixes, Marks suffix)

include marks

/-- However often a name is marked as disabled, its spelling is only followed by the marks. -/
theorem nfc_foldl (value : String) :
    nfc unicode (suffixes.foldl (· ++ ·) value) =
      suffixes.foldl (· ++ ·) (nfc unicode value) := by
  induction suffixes generalizing value with
  | nil => rfl
  | cons suffix suffixes ih =>
    rw [foldl_cons, foldl_cons,
      ih fun other member => marks other (mem_cons_of_mem _ member),
      nfc_append documented tail (isAscii_of_marks (marks suffix mem_cons_self))]

theorem stripDisabled_foldl (value : String) :
    stripDisabled (keyText unicode (suffixes.foldl (· ++ ·) value)).toList =
      stripDisabled (keyText unicode value).toList := by
  induction suffixes generalizing value with
  | nil => rfl
  | cons suffix suffixes ih =>
    have mark := marks suffix mem_cons_self
    rw [foldl_cons,
      ih fun other member => marks other (mem_cons_of_mem _ member),
      keyText_append documented tail (isAscii_of_marks mark), mark, String.toList_append,
      stripDisabled_append]

/-- The key goes by what stands before the marks. -/
theorem managedContentNameKey_of_marked {name : PortableFileName unicode}
    (made : PortableFileName.new unicode (suffixes.foldl (· ++ ·) value) = some name) :
    managedContentNameKey name =
      ⟨String.ofList (stripDisabled (keyText unicode (nfc unicode value)).toList)⟩ := by
  have spelled : name.value = nfc unicode (suffixes.foldl (· ++ ·) value) := by
    unfold PortableFileName.new at made
    split at made
    · cases made
      rfl
    · cases made
  show PortablePathKey.mk (String.ofList (stripDisabled (keyText unicode name.value).toList)) = _
  rw [spelled, nfc_foldl documented tail marks, stripDisabled_foldl documented tail marks]

end

end

/-! ### Acceptance is closed and consistent -/

theorem PortableFileName.newExact_value (name : PortableFileName unicode) :
    PortableFileName.newExact unicode name.value = some name := by
  unfold PortableFileName.newExact
  rw [name.new_value, Option.filter_some, if_pos (decide_eq_true rfl)]

theorem PortableRelativePath.newExact_value (path : PortableRelativePath unicode) :
    PortableRelativePath.newExact unicode path.value = some path := by
  unfold PortableRelativePath.newExact
  rw [path.new_value, Option.filter_some, if_pos (decide_eq_true rfl)]

/-- What a text is accepted as is accepted as it is spelled. A path consists of accepted names,
leads from every directory downwards by these names, and none of them is anything but a name. How
a name is marked as disabled makes no difference to its key, and the journal takes the same names
as the files. -/
theorem portable_consistent {host : Host} (shared : host.nfc = unicode.nfc)
    (documented : unicode.Documented)
    (tail : ∀ first second, isAscii second = true →
      unicode.nfc (first ++ second) = unicode.nfc first ++ second) :
    (∀ value name, PortableFileName.new unicode value = some name →
      PortableFileName.new unicode name.value = some name ∧
        PortableFileName.newExact unicode name.value = some name) ∧
    (∀ value path, PortableRelativePath.new unicode value = some path →
      PortableRelativePath.new unicode path.value = some path ∧
        PortableRelativePath.newExact unicode path.value = some path ∧
        (∃ names, (segments path.value).mapM (PortableFileName.new unicode) = some names ∧
          joinSegments (names.map PortableFileName.value) = path.value) ∧
        segments path.value ≠ [] ∧ (∀ name ∈ segments path.value, PlainName name) ∧
        ∀ root, components (path.joinUnder root) =
          components root ++ (segments path.value).map .normal) ∧
    (∀ (value : String) (suffixes others : List String), (∀ suffix ∈ suffixes, Marks suffix) →
      (∀ suffix ∈ others, Marks suffix) → ∀ name other : PortableFileName unicode,
        PortableFileName.new unicode (suffixes.foldl (· ++ ·) value) = some name →
        PortableFileName.new unicode (others.foldl (· ++ ·) value) = some other →
        managedContentNameKey name = managedContentNameKey other) ∧
    ∀ value, (PortableFileName.newExact unicode value).isSome = true ↔
      (RecoveryName.newExact host value).isSome = true := by
  refine ⟨fun _ name _ => ⟨name.new_value, name.newExact_value⟩, fun _ path _ => ?_, ?_,
    journalled_iff shared documented⟩
  · obtain ⟨names, accepted, same⟩ := mapM_new path.names
    refine ⟨path.new_value, path.newExact_value, ⟨names, accepted, ?_⟩, segments_ne_nil _,
      path.plain, path.components_joinUnder⟩
    rw [same, joinSegments_segments]
  · intro value suffixes others marks otherMarks name other made otherMade
    rw [managedContentNameKey_of_marked documented tail marks made,
      managedContentNameKey_of_marked documented tail otherMarks otherMade]

/-- A path of three names leads from a directory downwards, a disabled name has the key of the
enabled one, and both may be journalled. -/
theorem portable_consistent_apostrophe :
    (∃ path, PortableRelativePath.new .apostrophe "mods/It's/A.jar" = some path ∧
      components (path.joinUnder "games") =
        components "games" ++ [.normal "mods", .normal "It's", .normal "A.jar"]) ∧
    (∃ name other, PortableFileName.new .apostrophe "A.jar.disabled" = some name ∧
      PortableFileName.new .apostrophe "A.jar" = some other ∧
      managedContentNameKey name = managedContentNameKey other) ∧
    ∀ value ∈ ["A.jar.disabled", "A.jar"],
      (RecoveryName.newExact ⟨0, fun _ => Fixed.zero 32, id, id⟩ value).isSome = true := by
  obtain ⟨-, paths, keys, journalled⟩ := @portable_consistent Unicode.apostrophe
    ⟨0, fun _ => Fixed.zero 32, id, id⟩ rfl apostrophe_documented fun _ _ _ => rfl
  refine ⟨?_, ?_, fun value member => (journalled value).mp ?_⟩
  · let path : PortableRelativePath .apostrophe := ⟨"mods/It's/A.jar", by decide, by decide⟩
    have names : segments path.value = ["mods", "It's", "A.jar"] := by decide
    refine ⟨path, path.new_value, ((paths _ path path.new_value).2.2.2.2.2 "games").trans ?_⟩
    rw [names]
    rfl
  · obtain ⟨name, made⟩ := Option.isSome_iff_exists.mp
      (by decide : (PortableFileName.new .apostrophe "A.jar.disabled").isSome = true)
    obtain ⟨other, otherMade⟩ := Option.isSome_iff_exists.mp
      (by decide : (PortableFileName.new .apostrophe "A.jar").isSome = true)
    exact ⟨name, other, made, otherMade, keys "A.jar" [".disabled"] []
      (forall_mem_singleton.mpr (by decide : toAsciiLowercase _ = _)) nofun name other made otherMade⟩
  · revert value
    decide

end Axial.Minecraft
