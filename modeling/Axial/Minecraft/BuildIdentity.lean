/-
This file models the build ids of `core/minecraft/src/loaders/api.rs` and says of both
kinds of ids that they are read back. The payload of either is a domain, a component
and two versions, each behind its length, so that no version can run into the next.
What is accepted is spelled as it would be written, since both readers write it again
and compare.
-/

import Axial.Library.Framing
import Axial.Minecraft.LoaderIdentity

namespace Axial.Minecraft

open Bytes Reader List
open Axial.Fs (isControl)

def buildIdPrefix : String := "loader-build-v1-"

def buildIdDomain : List UInt8 := utf8 "axial-loader-build"

/-- `append_build_coordinate`, without what it is appended to. -/
def buildCoordinate (coordinate : String) : List UInt8 :=
  bigEndian 8 (utf8 coordinate).length ++ utf8 coordinate

def buildIdFor (componentId : LoaderComponentId) (minecraftVersion loaderVersion : String) :
    String :=
  buildIdPrefix ++ Base64.encode (buildIdDomain ++ ([0] ++ ([componentTag componentId] ++
    (buildCoordinate minecraftVersion ++ buildCoordinate loaderVersion))))

def takeBuildCoordinate (remaining : List UInt8) : Option (String × List UInt8) := do
  let (length, rest) ← takePayloadBytes 8 remaining
  let (bytes, rest) ← takePayloadBytes (fromLittleEndian length.reverse) rest
  let coordinate ← fromUtf8 bytes
  match validateIdentityCoordinate coordinate "loader build coordinate" with
  | .ok () => some (coordinate, rest)
  | .error _ => none

def parseBuildId (buildId : String) : Option InstalledLoaderIdentity := do
  let encoded ← stripPrefix buildIdPrefix buildId
  let payload ← Base64.decode encoded
  let (domain, rest) ← takePayloadBytes buildIdDomain.length payload
  let (separator, rest) ← takePayloadBytes 1 rest
  guard (domain = buildIdDomain ∧ separator = [0])
  let (tag, rest) ← takePayloadBytes 1 rest
  let componentId ← tag.head? >>= componentFromTag
  let (minecraftVersion, rest) ← takeBuildCoordinate rest
  let (loaderVersion, rest) ← takeBuildCoordinate rest
  guard (rest = [] ∧ buildIdFor componentId minecraftVersion loaderVersion = buildId)
  return ⟨componentId, minecraftVersion, loaderVersion⟩

def InstalledLoaderIdentity.buildId (identity : InstalledLoaderIdentity) : String :=
  buildIdFor identity.componentId identity.minecraftVersion identity.loaderVersion

/-! ### Coordinates -/

/-- What either kind of id demands of a version. -/
structure Coordinate (value : String) : Prop where
  named : value ≠ ""
  trimmed : value = trim value
  printable : value.toList.any isControl = false

variable {value : String}

theorem validateIdentityCoordinate_eq_ok {name : String} {done : Unit} :
    validateIdentityCoordinate value name = .ok done ↔ Coordinate value := by
  unfold validateIdentityCoordinate
  constructor
  · intro accepted
    split_ifs at accepted with empty padded control
    exact ⟨empty, not_not.mp padded, Bool.eq_false_iff.mpr control⟩
  · rintro ⟨named, trimmed, printable⟩
    rw [if_neg named, if_neg (not_not.mpr trimmed), if_neg (Bool.eq_false_iff.mp printable)]

/-! ### Taking apart -/

theorem takePayloadBytes_append (taken rest : List UInt8) :
    takePayloadBytes taken.length (taken ++ rest) = some (taken, rest) := by
  unfold takePayloadBytes
  rw [if_neg (by rw [length_append]; omega), splitAt_eq, take_left, drop_left]

theorem takePayloadBytes_of_length {taken rest : List UInt8} {length : Nat}
    (exact : taken.length = length) :
    takePayloadBytes length (taken ++ rest) = some (taken, rest) :=
  exact ▸ takePayloadBytes_append taken rest

theorem takePayloadBytes_one (byte : UInt8) (rest : List UInt8) :
    takePayloadBytes 1 ([byte] ++ rest) = some ([byte], rest) :=
  takePayloadBytes_append [byte] rest

theorem stripPrefix_append (start rest : String) :
    stripPrefix start (start ++ rest) = some rest := by
  unfold stripPrefix
  rw [String.toList_append, if_pos (List.isPrefixOf_iff_prefix.mpr (prefix_append _ _)),
    drop_left, String.ofList_toList]

theorem fromUtf8_utf8 (value : String) : fromUtf8 (utf8 value) = some value :=
  (fromUtf8_eq_some _ _).mpr rfl

theorem componentFromTag_componentTag (componentId : LoaderComponentId) :
    componentFromTag (componentTag componentId) = some componentId := by
  cases componentId <;> rfl

theorem fromBigEndian {width value : Nat} (small : value < 256 ^ width) :
    fromLittleEndian (bigEndian width value).reverse = value := by
  rw [bigEndian, reverse_reverse, fromLittleEndian_littleEndian width value small]

theorem takeIdentityCoordinate_append (coordinate : Coordinate value)
    (short : (utf8 value).length < 2 ^ 16) (name : String) (rest : List UInt8) :
    takeIdentityCoordinate (bigEndian 2 (utf8 value).length ++ (utf8 value ++ rest)) name =
      .ok (value, rest) := by
  have valid : validateIdentityCoordinate value name = .ok () :=
    validateIdentityCoordinate_eq_ok.mpr coordinate
  unfold takeIdentityCoordinate
  rw [takePayloadBytes_of_length (Framing.bigEndian_length 2 _)]
  dsimp only
  rw [fromBigEndian short, takePayloadBytes_append]
  dsimp only
  rw [fromUtf8_utf8]
  dsimp only
  rw [valid]
  rfl

theorem takeBuildCoordinate_append (coordinate : Coordinate value)
    (short : (utf8 value).length < 2 ^ 63) (rest : List UInt8) :
    takeBuildCoordinate (buildCoordinate value ++ rest) = some (value, rest) := by
  have valid : validateIdentityCoordinate value "loader build coordinate" = .ok () :=
    validateIdentityCoordinate_eq_ok.mpr coordinate
  have small : (utf8 value).length < 256 ^ 8 := short.trans (by norm_num)
  unfold takeBuildCoordinate buildCoordinate
  rw [append_assoc, takePayloadBytes_of_length (Framing.bigEndian_length 8 _),
    Option.bind_eq_bind, Option.bind_some]
  dsimp only
  rw [fromBigEndian small, takePayloadBytes_append, Option.bind_eq_bind, Option.bind_some]
  dsimp only
  rw [fromUtf8_utf8, Option.bind_some, valid]

/-! ### Round trips -/

variable {identity : InstalledLoaderIdentity} {versionId : String}

/-- What `installed_version_id_for` accepts, it also checks. -/
theorem coordinates_of_versionId (made : identity.versionId = .ok versionId) :
    Coordinate identity.minecraftVersion ∧ Coordinate identity.loaderVersion ∧
      (utf8 identity.minecraftVersion).length < 2 ^ 16 ∧
      (utf8 identity.loaderVersion).length < 2 ^ 16 := by
  unfold InstalledLoaderIdentity.versionId installedVersionIdFor at made
  obtain ⟨_, minecraft, made⟩ := Fallible.bind_eq_ok.mp made
  obtain ⟨_, loader, made⟩ := Fallible.bind_eq_ok.mp made
  obtain ⟨minecraftShort, made⟩ := Fallible.guard_eq_ok.mp made
  obtain ⟨loaderShort, made⟩ := Fallible.guard_eq_ok.mp made
  exact ⟨validateIdentityCoordinate_eq_ok.mp minecraft, validateIdentityCoordinate_eq_ok.mp loader,
    not_le.mp minecraftShort, not_le.mp loaderShort⟩

theorem decodeInstalledVersionId_versionId (made : identity.versionId = .ok versionId) :
    decodeInstalledVersionId versionId = .ok identity := by
  obtain ⟨minecraft, loader, minecraftShort, loaderShort⟩ := coordinates_of_versionId made
  obtain ⟨spelled, fits⟩ := versionId_eq made
  have read : decodedIdentity versionId = .ok identity := by
    have payload : payloadHead identity.componentId ++
        coordinateBytes identity.minecraftVersion identity.loaderVersion =
          installedVersionIdDomain ++ ([0] ++ ([componentTag identity.componentId] ++
            (bigEndian 2 (utf8 identity.minecraftVersion).length ++
              (utf8 identity.minecraftVersion ++
                (bigEndian 2 (utf8 identity.loaderVersion).length ++
                  (utf8 identity.loaderVersion ++ [])))))) := by
      simp [payloadHead, coordinateBytes]
    unfold decodedIdentity
    rw [if_neg (not_lt.mpr fits), spelled, stripPrefix_append, payload]
    dsimp only
    rw [Base64.decode_encode]
    dsimp only
    rw [takePayloadBytes_append]
    dsimp only
    rw [takePayloadBytes_one]
    dsimp only
    rw [if_neg (by simp), takePayloadBytes_one]
    dsimp only
    rw [componentFromTag_componentTag]
    dsimp only
    rw [takeIdentityCoordinate_append minecraft minecraftShort]
    show (takeIdentityCoordinate _ _ >>= _) = _
    rw [takeIdentityCoordinate_append loader loaderShort]
    rfl
  unfold decodeInstalledVersionId
  rw [read]
  show (identity.versionId >>= _) = _
  rw [made]
  show (if versionId ≠ versionId then _ else _) = _
  rw [if_neg (not_not.mpr rfl)]
  rfl

theorem parseBuildId_buildId (minecraft : Coordinate identity.minecraftVersion)
    (loader : Coordinate identity.loaderVersion)
    (minecraftShort : (utf8 identity.minecraftVersion).length < 2 ^ 63)
    (loaderShort : (utf8 identity.loaderVersion).length < 2 ^ 63) :
    parseBuildId identity.buildId = some identity := by
  have payload : Base64.decode (Base64.encode (buildIdDomain ++ ([0] ++
      ([componentTag identity.componentId] ++ (buildCoordinate identity.minecraftVersion ++
        buildCoordinate identity.loaderVersion))))) =
      some (buildIdDomain ++ ([0] ++ ([componentTag identity.componentId] ++
        (buildCoordinate identity.minecraftVersion ++
          (buildCoordinate identity.loaderVersion ++ []))))) := by
    rw [Base64.decode_encode, List.append_nil]
  have spelled : stripPrefix buildIdPrefix identity.buildId = some (Base64.encode (buildIdDomain ++
      ([0] ++ ([componentTag identity.componentId] ++
        (buildCoordinate identity.minecraftVersion ++
          buildCoordinate identity.loaderVersion))))) := stripPrefix_append _ _
  unfold parseBuildId
  have again : buildIdFor identity.componentId identity.minecraftVersion identity.loaderVersion =
      identity.buildId := rfl
  simp only [spelled, payload, Option.bind_eq_bind, Option.bind_some, takePayloadBytes_append,
    takePayloadBytes_one, takeBuildCoordinate_append minecraft minecraftShort,
    takeBuildCoordinate_append loader loaderShort, head?_cons,
    componentFromTag_componentTag, again, guard, and_self, if_true, Option.pure_def]

/-- A build id that is accepted is the one that is written for what it was read as. -/
theorem buildId_of_parse {buildId : String} (parsed : parseBuildId buildId = some identity) :
    identity.buildId = buildId := by
  unfold parseBuildId at parsed
  simp only [bind_eq_some, Option.guard_eq_some', pure_eq_some, exists_const] at parsed
  obtain ⟨_, -, _, -, _, -, _, -, -, _, -, _, -, _, -, _, -, ⟨-, same⟩, rfl⟩ := parsed
  exact same

/-! ### The two codecs -/

/-- Both kinds of ids are read back as what they were written for, and nothing but what is
written is accepted. A text is never longer than memory can address. -/
theorem loader_identity_codec :
    (∀ (identity : InstalledLoaderIdentity) (versionId : String),
      identity.versionId = .ok versionId → decodeInstalledVersionId versionId = .ok identity) ∧
    (∀ identity : InstalledLoaderIdentity,
      Coordinate identity.minecraftVersion → Coordinate identity.loaderVersion →
      (utf8 identity.minecraftVersion).length < 2 ^ 63 →
      (utf8 identity.loaderVersion).length < 2 ^ 63 →
      parseBuildId identity.buildId = some identity) ∧
    (∀ (versionId : String) (identity : InstalledLoaderIdentity),
      decodeInstalledVersionId versionId = .ok identity → identity.versionId = .ok versionId) ∧
    ∀ (buildId : String) (identity : InstalledLoaderIdentity),
      parseBuildId buildId = some identity → identity.buildId = buildId :=
  ⟨fun _ _ => decodeInstalledVersionId_versionId, fun _ => parseBuildId_buildId,
    fun _ _ => versionId_of_decode, fun _ _ => buildId_of_parse⟩

/-- The id of a Fabric build is read back. -/
theorem loader_identity_codec_fabric : decodeInstalledVersionId
    "loader-v2-YXhpYWwtaW5zdGFsbGVkLWxvYWRlcgABAAYxLjIwLjEADjAuMTYuOStidWlsZC5h" = .ok buildA :=
  loader_identity_codec.1 buildA _ versionId_builds.1

end Axial.Minecraft
