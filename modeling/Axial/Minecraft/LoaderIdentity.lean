/-
This file models the version id of an installed loader build in
`core/minecraft/src/loaders/api.rs`: the Base64 spelling of its component and its
two versions, which names the directory it is installed in. Directories and
install flights are compared by the portable key of the id, which is in lower
case, and the file says exactly which builds have the same key.
-/

import Axial.Library.Base64
import Axial.Library.Fallible
import Axial.Minecraft.PortablePath

namespace Axial.Minecraft

open Bytes List Base64
open Axial.Fs (isControl utf16Units windowsDeviceName eqIgnoreAsciiCase)

abbrev maxVersionIdBytes : Nat := maxPortableFileNameBytes - ".json".length

inductive LoaderComponentId where
  | fabric
  | quilt
  | forge
  | neoForge
  deriving DecidableEq

structure InstalledLoaderIdentity where
  componentId : LoaderComponentId
  minecraftVersion : String
  loaderVersion : String
  deriving DecidableEq

inductive LoaderError where
  | invalidProfile (message : String)
  deriving DecidableEq

def invalidIdentity (message : String) : LoaderError := .invalidProfile message

/-! ### Coordinates -/

/-- The Unicode property `White_Space`, which `str::trim` goes by. -/
def isWhitespace (char : Char) : Bool :=
  (0x9 ≤ char.toNat && char.toNat ≤ 0xd) || (0x2000 ≤ char.toNat && char.toNat ≤ 0x200a) ||
    char.toNat ∈ [0x20, 0x85, 0xa0, 0x1680, 0x2028, 0x2029, 0x202f, 0x205f, 0x3000]

def trim (value : String) : String :=
  String.ofList ((value.toList.dropWhile isWhitespace).rdropWhile isWhitespace)

variable {value : String}

/-- A text without white space is trimmed. -/
theorem trim_eq_self (plain : ∀ char ∈ value.toList, isWhitespace char = false) :
    trim value = value := by
  have front : value.toList.dropWhile isWhitespace = value.toList := by
    rw [dropWhile_eq_self_iff]
    intro some
    rw [plain _ (getElem_mem some)]
    exact Bool.false_ne_true
  have back : value.toList.rdropWhile isWhitespace = value.toList := by
    rw [rdropWhile_eq_self_iff]
    intro some
    rw [plain _ (getLast_mem some)]
    exact Bool.false_ne_true
  unfold trim
  rw [front, back, String.ofList_toList]

def validateIdentityCoordinate (value name : String) : Except LoaderError Unit :=
  if value = "" then .error (invalidIdentity (name ++ " is empty"))
  else if value ≠ trim value then
    .error (invalidIdentity (name ++ " contains surrounding whitespace"))
  else if value.toList.any isControl then
    .error (invalidIdentity (name ++ " contains control characters"))
  else .ok ()

/-! ### Version ids -/

def installedVersionIdPrefix : String := "loader-v2-"

def installedVersionIdDomain : List UInt8 := utf8 "axial-installed-loader"

def componentTag : LoaderComponentId → UInt8
  | .fabric => 1
  | .quilt => 2
  | .forge => 3
  | .neoForge => 4

/-- The part of the payload before the versions. -/
def payloadHead (componentId : LoaderComponentId) : List UInt8 :=
  installedVersionIdDomain ++ [0, componentTag componentId]

/-- The versions, each behind its length. -/
def coordinateBytes (minecraftVersion loaderVersion : String) : List UInt8 :=
  bigEndian 2 (utf8 minecraftVersion).length ++ utf8 minecraftVersion ++
    (bigEndian 2 (utf8 loaderVersion).length ++ utf8 loaderVersion)

def installedVersionIdFor (componentId : LoaderComponentId)
    (minecraftVersion loaderVersion : String) : Except LoaderError String := do
  validateIdentityCoordinate minecraftVersion "Minecraft version"
  validateIdentityCoordinate loaderVersion "loader version"
  if 2 ^ 16 ≤ (utf8 minecraftVersion).length then
    throw (invalidIdentity "Minecraft version is too long")
  if 2 ^ 16 ≤ (utf8 loaderVersion).length then
    throw (invalidIdentity "loader version is too long")
  let payload := payloadHead componentId ++ coordinateBytes minecraftVersion loaderVersion
  let versionId := installedVersionIdPrefix ++ Base64.encode payload
  if maxVersionIdBytes < (utf8 versionId).length then
    throw (invalidIdentity "encoded loader version id is too long")
  return versionId

def InstalledLoaderIdentity.versionId (identity : InstalledLoaderIdentity) :
    Except LoaderError String :=
  installedVersionIdFor identity.componentId identity.minecraftVersion identity.loaderVersion

/-- The key of the directory of a version, under which its install flights are taken. -/
def versionKey (unicode : Unicode) (versionId : String) : Option PortablePathKey :=
  (PortableFileName.newExact unicode versionId).map PortableFileName.key

/-- Two builds of one component whose versions, each behind its length, are the same bytes up to
the case of the letters that spell them: at each six bits the digits are the same, or 26 apart with
the lower one below 26. -/
def CaseAlias (first second : InstalledLoaderIdentity) : Prop :=
  first.componentId = second.componentId ∧ List.Forall₂ Base64.SameLetter
    (Base64.digits (coordinateBytes first.minecraftVersion first.loaderVersion))
    (Base64.digits (coordinateBytes second.minecraftVersion second.loaderVersion))

instance (first second : InstalledLoaderIdentity) : Decidable (CaseAlias first second) :=
  inferInstanceAs (Decidable (_ ∧ _))

/-! ### Ids are portable names -/

variable {identity : InstalledLoaderIdentity}

theorem versionId_eq {versionId : String} (made : identity.versionId = .ok versionId) :
    versionId = installedVersionIdPrefix ++ encode (payloadHead identity.componentId ++
        coordinateBytes identity.minecraftVersion identity.loaderVersion) ∧
      (utf8 versionId).length ≤ maxVersionIdBytes := by
  unfold InstalledLoaderIdentity.versionId installedVersionIdFor at made
  cases minecraft : validateIdentityCoordinate identity.minecraftVersion "Minecraft version" with
  | error _ =>
    rw [minecraft] at made
    cases made
  | ok =>
    cases loader : validateIdentityCoordinate identity.loaderVersion "loader version" with
    | error _ =>
      rw [minecraft, loader] at made
      cases made
    | ok =>
      rw [minecraft, loader] at made
      simp only [bind, Except.bind, pure, Except.pure, throw, throwThe, MonadExceptOf.throw] at made
      split_ifs at made with _ _ long
      cases made
      exact ⟨rfl, not_lt.mp long⟩

variable {char : Char}

/-- The characters of an id are plain. -/
theorem plain_of_mem {bytes : List UInt8}
    (member : char ∈ (installedVersionIdPrefix ++ encode bytes).toList) :
    Base64.plain char = true := by
  have start : installedVersionIdPrefix.toList.all Base64.plain = true := by decide
  rw [String.toList_append, mem_append, encode, String.toList_ofList] at member
  rcases member with early | late
  · exact all_eq_true.mp start char early
  · obtain ⟨digit, -, rfl⟩ := mem_map.mp late
    exact plain_symbol digit

theorem toNat_of_plain (plain : Base64.plain char = true) :
    0x2d ≤ char.toNat ∧ char.toNat ≤ 0x7a := by
  have sign : ('-').toNat = 0x2d ∧ ('_').toNat = 0x5f := by decide
  simp only [Base64.plain, Char.isAlphanum, Char.isAlpha, Char.isUpper, Char.isLower, Char.isDigit,
    Bool.or_eq_true, Bool.and_eq_true, decide_eq_true_eq, UInt32.le_iff_toNat_le] at plain
  rcases plain with (((upper | lower) | digit) | rfl) | rfl
  · exact ⟨le_trans (by decide) upper.1, le_trans upper.2 (by decide)⟩
  · exact ⟨le_trans (by decide) lower.1, le_trans lower.2 (by decide)⟩
  · exact ⟨le_trans (by decide) digit.1, le_trans digit.2 (by decide)⟩
  · omega
  · omega

theorem isControl_of_plain (plain : Base64.plain char = true) : isControl char = false := by
  have ⟨atLeast, atMost⟩ := toNat_of_plain plain
  simp only [isControl, Bool.or_eq_false_iff, Bool.and_eq_false_iff, decide_eq_false_iff_not]
  omega

/-- Nothing plain is unsafe in a name, or may not stand at its end. -/
theorem notMem_of_plain (plain : Base64.plain char = true) :
    char ∉ '.' :: ' ' :: unsafeCharacters := by
  have none : ('.' :: ' ' :: unsafeCharacters).all (fun char => !Base64.plain char) = true := by
    decide
  intro member
  have never := all_eq_true.mp none char member
  rw [plain] at never
  cases never

/-- What begins with `lo` is none of the device names. -/
theorem eqIgnoreAsciiCase_of_lo (rest : List Char) {device : List Char}
    (other : ((device.map Char.toLower).take 2 = ['l', 'o']) = False) :
    eqIgnoreAsciiCase ('l' :: 'o' :: rest) device = false := by
  unfold eqIgnoreAsciiCase
  rw [decide_eq_false_iff_not]
  intro same
  rw [← same] at other
  exact other.mp rfl

variable {rest : List Char}

/-- A name that begins as an id does is no device. -/
theorem windowsDeviceName_of_plain
    (plain : ∀ char ∈ 'l' :: 'o' :: 'a' :: rest, Base64.plain char = true) :
    windowsDeviceName (String.ofList ('l' :: 'o' :: 'a' :: rest)) = false := by
  have plainEnd (char : Char) (member : char ∈ 'l' :: 'o' :: 'a' :: rest) :
      char ≠ '.' ∧ char ≠ ' ' := by
    have never := notMem_of_plain (plain char member)
    rw [mem_cons, mem_cons, not_or, not_or] at never
    exact ⟨never.1, never.2.1⟩
  have whole : ((String.ofList ('l' :: 'o' :: 'a' :: rest)).toList.takeWhile
      fun char => char ≠ '.') = 'l' :: 'o' :: 'a' :: rest := by
    rw [String.toList_ofList, takeWhile_eq_self_iff]
    exact fun char member => decide_eq_true (plainEnd char member).1
  have trimmed : ('l' :: 'o' :: 'a' :: rest).rdropWhile (fun char => char = '.' ∨ char = ' ') =
      'l' :: 'o' :: 'a' :: rest := by
    rw [rdropWhile_eq_self_iff]
    intro some
    have last := plainEnd _ (getLast_mem some)
    rw [decide_eq_true_eq, not_or]
    exact last
  have noDevice : ["CON", "PRN", "AUX", "NUL", "CLOCK$", "CONIN$", "CONOUT$"].any
      (fun device => eqIgnoreAsciiCase ('l' :: 'o' :: 'a' :: rest) device.toList) = false := by
    rw [any_eq_false]
    intro device member
    rw [eqIgnoreAsciiCase_of_lo]
    · exact Bool.false_ne_true
    · revert device
      decide
  have noPort (device : List Char)
      (other : ((device.map Char.toLower).take 2 = ['l', 'o']) = False) :
      eqIgnoreAsciiCase ('l' :: 'o' :: 'a' :: rest).dropLast device = false :=
    eqIgnoreAsciiCase_of_lo _ other
  unfold windowsDeviceName
  rw [whole, trimmed]
  dsimp only
  rw [noDevice, noPort "COM".toList (by decide), noPort "LPT".toList (by decide)]
  rw [if_neg Bool.false_ne_true]
  split
  · rfl
  · rw [Bool.or_false, Bool.and_false]

theorem isAscii_of_plain (plain : ∀ char ∈ value.toList, Base64.plain char = true) :
    isAscii value = true := by
  refine all_eq_true.mpr fun char member => decide_eq_true ?_
  have := (toNat_of_plain (plain char member)).2
  omega

/-- A plain name that begins as an id does is safe on Windows. -/
theorem windowsFileNameIsSafe_of_plain
    (plain : ∀ char ∈ 'l' :: 'o' :: 'a' :: rest, Base64.plain char = true) :
    windowsFileNameIsSafe (String.ofList ('l' :: 'o' :: 'a' :: rest)) = true := by
  have named (other : String) (differs : other.toList.head? ≠ some 'l') :
      String.ofList ('l' :: 'o' :: 'a' :: rest) ≠ other := by
    rintro rfl
    rw [String.toList_ofList] at differs
    exact differs rfl
  have separators : ('l' :: 'o' :: 'a' :: rest).any (fun char => char ∈ unsafeCharacters) =
      false := by
    rw [any_eq_false]
    intro char member
    have never := notMem_of_plain (plain char member)
    rw [mem_cons, mem_cons, not_or, not_or] at never
    simpa using never.2.2
  have controls : ('l' :: 'o' :: 'a' :: rest).any isControl = false := by
    rw [any_eq_false]
    intro char member
    rw [isControl_of_plain (plain char member)]
    exact Bool.false_ne_true
  have finish : ('l' :: 'o' :: 'a' :: rest).getLast?.any (fun char => char = '.' ∨ char = ' ') =
      false := by
    rw [Option.any_eq_false]
    intro char last
    have never := notMem_of_plain (plain char (mem_of_getLast? last))
    rw [mem_cons, mem_cons, not_or, not_or] at never
    rw [decide_eq_false_iff_not, not_or]
    exact ⟨never.1, never.2.1⟩
  unfold windowsFileNameIsSafe
  rw [windowsDeviceName_of_plain plain, String.toList_ofList, separators, controls, finish]
  simp only [Bool.not_false, Bool.and_true, Bool.and_eq_true, decide_eq_true_eq]
  exact ⟨⟨named "" (by decide), named "." (by decide)⟩, named ".." (by decide)⟩

/-- An id is a portable name as it is, and its key is the id in lower case. -/
theorem versionKey_eq (unicode : Unicode) {versionId : String}
    (made : identity.versionId = .ok versionId) :
    versionKey unicode versionId = some ⟨toAsciiLowercase versionId⟩ := by
  obtain ⟨spelling, short⟩ := versionId_eq made
  have plain : ∀ char ∈ versionId.toList, Base64.plain char = true := by
    intro char member
    rw [spelling] at member
    exact plain_of_mem member
  have ascii := isAscii_of_plain plain
  obtain ⟨rest, chars⟩ : ∃ rest, versionId.toList = 'l' :: 'o' :: 'a' :: rest := by
    rw [spelling, String.toList_append]
    exact ⟨_, rfl⟩
  have units : utf16Units versionId = (utf8 versionId).length := by
    rw [utf16Units_of_ascii ascii, utf8_length_of_isAscii ascii]
  have valid : validateFileName versionId = true := by
    have fits : (utf8 versionId).length ≤ maxPortableFileNameBytes := short.trans (Nat.sub_le _ _)
    have safe : windowsFileNameIsSafe versionId = true := by
      rw [← String.ofList_toList (s := versionId), chars]
      exact windowsFileNameIsSafe_of_plain (chars ▸ plain)
    unfold validateFileName
    rw [units, safe, decide_eq_true fits]
    rfl
  exact key_of_ascii ascii valid

/-! ### Builds with the same directory -/

theorem toAsciiLowercase_injective {first second : String} :
    toAsciiLowercase first = toAsciiLowercase second ↔
      first.toList.map Char.toLower = second.toList.map Char.toLower := by
  unfold toAsciiLowercase
  exact ⟨fun same => by simpa using congrArg String.toList same, fun same => by rw [same]⟩

/-- The components stand apart in their ids, also in lower case. -/
theorem payloadHead_apart : ∀ first second : LoaderComponentId,
    (digits (payloadHead first)).map (fun digit => (symbol digit).toLower) =
      (digits (payloadHead second)).map (fun digit => (symbol digit).toLower) →
    first = second := by
  intro first second
  rw [map_toLower_symbol]
  cases first <;> cases second <;> decide

theorem encode_payload (componentId : LoaderComponentId) (coordinates : List UInt8) :
    digits (payloadHead componentId ++ coordinates) =
      digits (payloadHead componentId) ++ digits coordinates := by
  refine digits_append _ _ ?_
  cases componentId <;> decide

/-- Two builds have the same key exactly if they are the same up to case. -/
theorem versionKey_eq_iff (unicode : Unicode) {first second : InstalledLoaderIdentity}
    {firstId secondId : String} (firstMade : first.versionId = .ok firstId)
    (secondMade : second.versionId = .ok secondId) :
    versionKey unicode firstId = versionKey unicode secondId ↔ CaseAlias first second := by
  have chars (identity : InstalledLoaderIdentity) {versionId : String}
      (made : identity.versionId = .ok versionId) :
      versionId.toList.map Char.toLower = installedVersionIdPrefix.toList.map Char.toLower ++
        ((digits (payloadHead identity.componentId)).map
            (fun digit => (symbol digit).toLower) ++
          (digits (coordinateBytes identity.minecraftVersion
            identity.loaderVersion)).map fun digit => (symbol digit).toLower) := by
    rw [(versionId_eq made).1, encode, encode_payload, String.toList_append,
      String.toList_ofList, map_append, map_append, map_append, map_map,
      map_map]
    rfl
  have headLength : (digits (payloadHead first.componentId)).length =
      (digits (payloadHead second.componentId)).length := by
    generalize first.componentId = firstComponent
    generalize second.componentId = secondComponent
    cases firstComponent <;> cases secondComponent <;> decide
  rw [versionKey_eq unicode firstMade, versionKey_eq unicode secondMade, Option.some_inj,
    PortablePathKey.mk.injEq, toAsciiLowercase_injective, chars first firstMade,
    chars second secondMade, append_cancel_left_eq]
  unfold CaseAlias
  rw [← map_toLower_symbol]
  constructor
  · intro same
    obtain ⟨head, coordinates⟩ := append_inj same (by
      rw [length_map, length_map, headLength])
    exact ⟨payloadHead_apart _ _ head, coordinates⟩
  · rintro ⟨component, coordinates⟩
    rw [component, coordinates]

/-- Two builds have directories of their own exactly if they are not the same up to case. Every id
names a directory. -/
theorem directory_apart_iff (unicode : Unicode) {first second : InstalledLoaderIdentity}
    {firstId secondId : String} (firstMade : first.versionId = .ok firstId)
    (secondMade : second.versionId = .ok secondId) :
    (versionKey unicode firstId).isSome = true ∧ (versionKey unicode secondId).isSome = true ∧
      ((first ≠ second → versionKey unicode firstId ≠ versionKey unicode secondId) ↔
        (CaseAlias first second → first = second)) := by
  refine ⟨by rw [versionKey_eq unicode firstMade]; rfl,
    by rw [versionKey_eq unicode secondMade]; rfl, ?_⟩
  rw [Ne, Ne, versionKey_eq_iff unicode firstMade secondMade, not_imp_not]

/-- A Fabric build, and one whose version differs from it in the last letter. -/
def buildA : InstalledLoaderIdentity := ⟨.fabric, "1.20.1", "0.16.9+build.a"⟩
def buildG : InstalledLoaderIdentity := ⟨.fabric, "1.20.1", "0.16.9+build.G"⟩
def buildB : InstalledLoaderIdentity := ⟨.fabric, "1.20.1", "0.16.9+build.b"⟩

theorem versionId_builds :
    buildA.versionId = .ok
        "loader-v2-YXhpYWwtaW5zdGFsbGVkLWxvYWRlcgABAAYxLjIwLjEADjAuMTYuOStidWlsZC5h" ∧
      buildG.versionId = .ok
        "loader-v2-YXhpYWwtaW5zdGFsbGVkLWxvYWRlcgABAAYxLjIwLjEADjAuMTYuOStidWlsZC5H" ∧
      buildB.versionId = .ok
        "loader-v2-YXhpYWwtaW5zdGFsbGVkLWxvYWRlcgABAAYxLjIwLjEADjAuMTYuOStidWlsZC5i" := by
  decide

theorem directory_apart_builds :
    versionKey Unicode.plain
        "loader-v2-YXhpYWwtaW5zdGFsbGVkLWxvYWRlcgABAAYxLjIwLjEADjAuMTYuOStidWlsZC5h" ≠
      versionKey Unicode.plain
        "loader-v2-YXhpYWwtaW5zdGFsbGVkLWxvYWRlcgABAAYxLjIwLjEADjAuMTYuOStidWlsZC5i" :=
  (directory_apart_iff Unicode.plain versionId_builds.1 versionId_builds.2.2).2.2.mpr
    (fun same => absurd same (by decide)) (by decide)

/-- The two builds share a directory. -/
theorem directory_shared : ¬∀ (unicode : Unicode) (first second : InstalledLoaderIdentity)
    (firstId secondId : String), first.versionId = .ok firstId → second.versionId = .ok secondId →
      first ≠ second → versionKey unicode firstId ≠ versionKey unicode secondId := by
  intro apart
  exact apart Unicode.plain buildA buildG _ _ versionId_builds.1 versionId_builds.2.1 (by decide)
    ((versionKey_eq_iff Unicode.plain versionId_builds.1 versionId_builds.2.1).mpr
      (by decide))

/-! ### Reading an id -/

def componentFromTag : UInt8 → Option LoaderComponentId
  | 1 => some .fabric
  | 2 => some .quilt
  | 3 => some .forge
  | 4 => some .neoForge
  | _ => none

def stripPrefix (start value : String) : Option String :=
  if start.toList.isPrefixOf value.toList then
    some (String.ofList (value.toList.drop start.toList.length))
  else none

def takePayloadBytes (length : Nat) (remaining : List UInt8) :
    Option (List UInt8 × List UInt8) :=
  if remaining.length < length then none else some (remaining.splitAt length)

def takeIdentityCoordinate (remaining : List UInt8) (name : String) :
    Except LoaderError (String × List UInt8) := do
  let some (length, rest) := takePayloadBytes 2 remaining
    | throw (invalidIdentity (name ++ " length is missing"))
  let some (bytes, rest) := takePayloadBytes ((fromLittleEndian length.reverse)) rest
    | throw (invalidIdentity (name ++ " length is invalid"))
  let some value := fromUtf8 bytes | throw (invalidIdentity (name ++ " is not UTF-8"))
  validateIdentityCoordinate value name
  return (value, rest)

/-- `decode_installed_version_id` up to its last check. -/
def decodedIdentity (versionId : String) : Except LoaderError InstalledLoaderIdentity := do
  if maxVersionIdBytes < (utf8 versionId).length then
    throw (invalidIdentity "encoded loader version id is too long")
  let some encoded := stripPrefix installedVersionIdPrefix versionId
    | throw (invalidIdentity "installed loader version id has an invalid prefix")
  let some payload := Base64.decode encoded
    | throw (invalidIdentity "installed loader version id payload is invalid")
  let some (domain, rest) := takePayloadBytes installedVersionIdDomain.length payload
    | throw (invalidIdentity "installed loader version id domain is invalid")
  let some (separator, rest) := takePayloadBytes 1 rest
    | throw (invalidIdentity "installed loader version id domain is invalid")
  if domain ≠ installedVersionIdDomain ∨ separator ≠ [0] then
    throw (invalidIdentity "installed loader version id domain is invalid")
  let some ([tag], rest) := takePayloadBytes 1 rest
    | throw (invalidIdentity "installed loader version id component is invalid")
  let some componentId := componentFromTag tag
    | throw (invalidIdentity "installed loader version id component is invalid")
  let (minecraftVersion, rest) ← takeIdentityCoordinate rest "Minecraft version"
  let (loaderVersion, rest) ← takeIdentityCoordinate rest "loader version"
  if rest ≠ [] then throw (invalidIdentity "installed loader version id has trailing data")
  return ⟨componentId, minecraftVersion, loaderVersion⟩

def decodeInstalledVersionId (versionId : String) :
    Except LoaderError InstalledLoaderIdentity := do
  let identity ← decodedIdentity versionId
  let canonical ← identity.versionId
  if canonical ≠ versionId then
    throw (invalidIdentity "installed loader version id is not canonical")
  return identity

/-- What is read of an id spells it. -/
theorem versionId_of_decode {versionId : String}
    (decoded : decodeInstalledVersionId versionId = .ok identity) :
    identity.versionId = .ok versionId := by
  unfold decodeInstalledVersionId at decoded
  obtain ⟨read, _, decoded⟩ := Fallible.bind_eq_ok.mp decoded
  obtain ⟨canonical, spelt, decoded⟩ := Fallible.bind_eq_ok.mp decoded
  obtain ⟨same, decoded⟩ := Fallible.guard_eq_ok.mp decoded
  rw [← Fallible.pure_eq_ok.mp decoded, spelt, not_not.mp same]

end Axial.Minecraft
