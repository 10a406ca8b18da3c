/-
This file models the portable names of `core/app/src/files/portable.rs` as far as
content uses them: file names and relative paths in normalization form C, the
keys they are compared by, the names the launcher keeps for itself, and the names
of managed content, which leave room for the suffix of a disabled file.
-/

import Axial.Minecraft.PortablePath

namespace Axial.App

open Bytes Reader
open Axial.Minecraft (Unicode validateFileName boundedPath segments joinSegments)

def disabledSuffix : String := ".disabled"

def managedContentExactNames : List String := ["axial.content.json", ".axial-publication"]

def managedContentPrefixes : List String :=
  [".axial-content-", ".axial-pack-", ".axial-replacement-"]

def endsWith (value suffix : String) : Bool := suffix.toList.isSuffixOf value.toList

def startsWith (value start : String) : Bool := start.toList.isPrefixOf value.toList

/-! ### Names and keys -/

structure PortableFileName (unicode : Unicode) where
  value : String
  spelling : unicode.nfc value = value
  valid : validateFileName value = true

theorem PortableFileName.value_inj {unicode : Unicode} {left right : PortableFileName unicode} :
    left.value = right.value ↔ left = right :=
  ⟨fun same => by cases left; cases right; cases same; rfl, congrArg _⟩

instance {unicode : Unicode} : DecidableEq (PortableFileName unicode) :=
  fun _ _ => decidable_of_iff _ PortableFileName.value_inj

structure PortablePathKey where
  value : String
  deriving DecidableEq

variable {unicode : Unicode}

def PortableFileName.new (unicode : Unicode) (value : String) : Option (PortableFileName unicode) :=
  if valid : validateFileName (unicode.nfc value) = true then
    some ⟨unicode.nfc value, unicode.nfc_nfc value, valid⟩
  else none

def PortableFileName.newExact (unicode : Unicode) (value : String) :
    Option (PortableFileName unicode) :=
  (PortableFileName.new unicode value).filter fun name => name.value = value

def PortableFileName.withSuffix (name : PortableFileName unicode) (suffix : String) :
    Option (PortableFileName unicode) :=
  PortableFileName.new unicode (name.value ++ suffix)

def PortablePathKey.fromNormalized (unicode : Unicode) (value : String) : PortablePathKey :=
  ⟨unicode.nfc (unicode.caseFold value)⟩

def PortableFileName.key (name : PortableFileName unicode) : PortablePathKey :=
  .fromNormalized unicode name.value

structure PortableRelativePath (unicode : Unicode) where
  names : List (PortableFileName unicode)
  nonempty : names ≠ []
  bounded : boundedPath (joinSegments (names.map PortableFileName.value)) = true

def PortableRelativePath.value (path : PortableRelativePath unicode) : String :=
  joinSegments (path.names.map PortableFileName.value)

def PortableRelativePath.new (unicode : Unicode) (value : String) :
    Option (PortableRelativePath unicode) :=
  if value = "" || value.toList.any (· = '\\') then none
  else
    match (segments value).mapM (PortableFileName.new unicode) with
    | none => none
    | some names =>
      if accepted : names ≠ [] ∧
          boundedPath (joinSegments (names.map PortableFileName.value)) = true then
        some ⟨names, accepted.1, accepted.2⟩
      else none

def PortableRelativePath.newExact (unicode : Unicode) (value : String) :
    Option (PortableRelativePath unicode) :=
  (PortableRelativePath.new unicode value).filter fun path => path.value = value

def PortableRelativePath.fileName (path : PortableRelativePath unicode) :
    PortableFileName unicode :=
  path.names.getLast path.nonempty

/-! ### Reserved names -/

/-- `strip_suffix` for as long as there is one; each time the text gets shorter. -/
def stripDisabled : Nat → List Char → List Char
  | 0, base => base
  | fuel + 1, base =>
    if disabledSuffix.toList.isSuffixOf base then
      stripDisabled fuel (base.take (base.length - disabledSuffix.length))
    else base

def managedContentNameKey (name : PortableFileName unicode) : PortablePathKey :=
  ⟨String.ofList (stripDisabled name.key.value.length name.key.value.toList)⟩

def managedContentNameIsReserved (name : PortableFileName unicode) : Bool :=
  let base := (managedContentNameKey name).value
  base ∈ managedContentExactNames ||
    managedContentPrefixes.any fun reserved => startsWith base reserved

/-! ### Names of managed content -/

structure ManagedContentFileName (unicode : Unicode) where
  enabled : PortableFileName unicode
  disabled : PortableFileName unicode
  deriving DecidableEq

def ManagedContentFileName.newExact (unicode : Unicode) (value : String) :
    Option (ManagedContentFileName unicode) := do
  let enabled ← PortableFileName.newExact unicode value
  guard (!endsWith enabled.key.value disabledSuffix && !managedContentNameIsReserved enabled)
  let disabled ← enabled.withSuffix disabledSuffix
  return { enabled, disabled }

def ManagedContentFileName.asStr (name : ManagedContentFileName unicode) : String :=
  name.enabled.value

def ManagedContentFileName.key (name : ManagedContentFileName unicode) : PortablePathKey :=
  name.enabled.key

/-- Managed content is never the file of another name disabled. -/
theorem ManagedContentFileName.newExact_spec {value : String}
    {name : ManagedContentFileName unicode}
    (made : ManagedContentFileName.newExact unicode value = some name) :
    name.asStr = value ∧ endsWith name.key.value disabledSuffix = false ∧
      managedContentNameIsReserved name.enabled = false := by
  simp only [newExact, bind_eq_some, Option.guard_eq_some', exists_const, pure_eq_some,
    Bool.and_eq_true, Bool.not_eq_true'] at made
  obtain ⟨enabled, spelled, ⟨plain, free⟩, disabled, -, rfl⟩ := made
  refine ⟨?_, plain, free⟩
  exact of_decide_eq_true (Option.filter_eq_some_iff.mp spelled).2

end Axial.App
