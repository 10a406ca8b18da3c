/-
This file embeds the evidence of a crash: the checked texts that it is made of, the record, and
what is checked when a stored record is read. What is stored is read back exactly if no two of its
mods are equal, there are not too many of them, and it fits its source.
-/

import Axial.Launch.Redaction
import Axial.Minecraft.Libraries

namespace Axial.Launch.Crash

open Words Axial.Minecraft

/-! ### Texts -/

def splitOnceChars (pattern : List Char) : List Char → Option (List Char × List Char)
  | [] => none
  | char :: rest =>
    if pattern.isPrefixOf (char :: rest) then some ([], (char :: rest).drop pattern.length)
    else (splitOnceChars pattern rest).map fun parts => (char :: parts.1, parts.2)

/-- `str::split_once` at a text that is not empty. -/
def splitOnce (pattern value : String) : Option (String × String) :=
  (splitOnceChars pattern.toList value.toList).map fun parts =>
    (String.ofList parts.1, String.ofList parts.2)

def rsplitOnceChars (pattern : List Char) : List Char → Option (List Char × List Char)
  | [] => none
  | char :: rest =>
    match rsplitOnceChars pattern rest with
    | some parts => some (char :: parts.1, parts.2)
    | none =>
      if pattern.isPrefixOf (char :: rest) then some ([], (char :: rest).drop pattern.length)
      else none

/-- `str::rsplit_once` -/
def rsplitOnce (pattern value : String) : Option (String × String) :=
  (rsplitOnceChars pattern.toList value.toList).map fun parts =>
    (String.ofList parts.1, String.ofList parts.2)

def stripSuffix (final value : String) : Option String :=
  if final.toList.isSuffixOf value.toList then
    some (String.ofList (value.toList.take (value.toList.length - final.toList.length)))
  else none

/-- The words of a text, each after one blank. -/
def normalizedSpaces (value : String) : String :=
  String.ofList (joined ' ' (words isWhitespace value.toList))

/-! ### What may be public -/

def sensitiveMarkers : List String :=
  ["token", "secret", "password", "credential", "authorization", "account_id", "account-id",
    "username", "xuid", "bearer"]

def isJwtChar (char : Char) : Bool := char.isAlphanum || char = '-' || char = '_'

def looksLikeJwt (value : String) : Bool :=
  let parts := splitOn '.' value
  parts.length = 3 && 12 ≤ value.utf8ByteSize &&
    parts.all fun part => part ≠ "" && part.toList.all isJwtChar

def looksLikeSensitivePublicValue (value : String) : Bool :=
  let lower := toAsciiLowercase value
  sensitiveMarkers.any (containsText lower ·) || looksLikeJwt value ||
    (48 ≤ value.utf8ByteSize && !containsText value " " &&
      value.toList.all fun char => isJwtChar char || char = '.')

def isJavaIdentifier (value : String) : Bool :=
  match value.toList with
  | [] => false
  | first :: rest =>
    (first.isAlpha || first = '_' || first = '$') &&
      rest.all fun char => char.isAlphanum || char = '_' || char = '$'

def isThrowableClass (value : String) : Bool :=
  let parts := splitOn '.' value
  value.utf8ByteSize ≤ 128 && 2 ≤ parts.length && parts.all isJavaIdentifier &&
    parts.getLast?.any fun name =>
      endsWith name "Error" || endsWith name "Exception" || endsWith name "Throwable"

def isSafeModName (value : String) : Bool :=
  let lower := toAsciiLowercase value
  value ≠ "" && value.utf8ByteSize ≤ 96 && value = trim value && !containsText value "  " &&
    !(value.toList.any fun char => char ∈ ['/', '\\', '@', '=', '[', ']']) &&
    !containsText lower "bearer" && !containsText lower "token" &&
    !containsText lower "username" && !endsWith lower ".jar" && !endsWith lower ".dll" &&
    !containsText lower ".so" && !endsWith lower ".dylib" &&
    !looksLikeSensitivePublicValue value &&
    value.toList.all fun char =>
      char.isAlphanum || char ∈ [' ', '.', '_', '-', '+', ':', '#', '(', ')']

def isSafeModVersion (value : String) : Bool :=
  value ≠ "" && value.utf8ByteSize ≤ 64 && value = trim value && !startsWith value "-D" &&
    !containsText value ".." && !looksLikeSensitivePublicValue value &&
    value.toList.all fun char => char.isAlphanum || char ∈ ['.', '_', '-', '+']

def isSafeNativeIdentifier (value : String) : Bool :=
  let lower := toAsciiLowercase value
  value ≠ "" && value.utf8ByteSize ≤ 96 && !containsText lower "token" &&
    !containsText lower "bearer" && !looksLikeSensitivePublicValue value &&
    value.toList.all fun char => char.isAlphanum || char ∈ ['_', '-', '.', '$', ':']

def isSafeNativeModule (value : String) : Bool :=
  let lower := toAsciiLowercase value
  isSafeNativeIdentifier value && !endsWith lower ".dll" && !containsText lower ".so" &&
    !endsWith lower ".dylib"

/-- The texts that pass a check. -/
abbrev Checked (validator : String → Bool) : Type := {value : String // validator value = true}

def checked (validator : String → Bool) (value : String) : Option (Checked validator) :=
  if passes : validator value = true then some ⟨value, passes⟩ else none

abbrev CrashModName : Type := Checked isSafeModName
abbrev CrashModVersion : Type := Checked isSafeModVersion
abbrev CrashExceptionClass : Type := Checked isThrowableClass
abbrev CrashNativeModule : Type := Checked isSafeNativeModule
abbrev CrashNativeSymbol : Type := Checked isSafeNativeIdentifier

/-! ### The record -/

inductive CrashArtifactKind where
  | minecraftCrashReport
  | jvmFatalError
  deriving DecidableEq

inductive CrashFailurePhase where
  | startup
  | initialization
  | loading
  | runtime
  | shutdown
  | native
  deriving DecidableEq

inductive CrashNativeFrameKind where
  | native
  | vm
  deriving DecidableEq

structure CrashProblematicFrame where
  kind : CrashNativeFrameKind
  moduleName : CrashNativeModule
  symbol : Option CrashNativeSymbol
  deriving DecidableEq

structure CrashModEvidence where
  name : CrashModName
  version : Option CrashModVersion
  deriving DecidableEq

structure CrashEvidence where
  source : CrashArtifactKind
  truncated : Bool
  failurePhase : Option CrashFailurePhase
  exceptionClass : Option CrashExceptionClass
  suspectedMods : List CrashModEvidence
  problematicFrame : Option CrashProblematicFrame
  namesOutOfMemory : Bool
  deriving DecidableEq

abbrev maxSuspectedMods : Nat := 8

namespace CrashEvidence

/-- Whether it says nothing. -/
def isEmpty (evidence : CrashEvidence) : Bool :=
  evidence.failurePhase.isNone && evidence.exceptionClass.isNone &&
    evidence.suspectedMods.isEmpty && evidence.problematicFrame.isNone &&
    !evidence.namesOutOfMemory

def sourceIsCoherent (evidence : CrashEvidence) : Bool :=
  match evidence.source with
  | .minecraftCrashReport =>
    evidence.problematicFrame.isNone && evidence.failurePhase ≠ some .native
  | .jvmFatalError =>
    evidence.exceptionClass.isNone && evidence.suspectedMods.isEmpty &&
      (evidence.failurePhase = none || evidence.failurePhase = some .native)

end CrashEvidence

/-! ### The stored form -/

namespace Wire

structure Frame where
  kind : CrashNativeFrameKind
  moduleName : String
  symbol : Option String

structure Mod where
  name : String
  version : Option String

end Wire

/-- A stored record, whose texts may be any. -/
structure Wire where
  source : CrashArtifactKind
  truncated : Bool
  failurePhase : Option CrashFailurePhase
  exceptionClass : Option String
  suspectedMods : List Wire.Mod
  problematicFrame : Option Wire.Frame
  namesOutOfMemory : Bool

namespace CrashEvidence

def serialize (evidence : CrashEvidence) : Wire where
  source := evidence.source
  truncated := evidence.truncated
  failurePhase := evidence.failurePhase
  exceptionClass := evidence.exceptionClass.map (·.val)
  suspectedMods := evidence.suspectedMods.map fun entry =>
    ⟨entry.name.val, entry.version.map (·.val)⟩
  problematicFrame := evidence.problematicFrame.map fun frame =>
    ⟨frame.kind, frame.moduleName.val, frame.symbol.map (·.val)⟩
  namesOutOfMemory := evidence.namesOutOfMemory

end CrashEvidence

def Wire.Mod.read (wire : Wire.Mod) : Option CrashModEvidence := do
  return {
    name := ← checked isSafeModName wire.name
    version := ← wire.version.mapM (checked isSafeModVersion) }

def Wire.Frame.read (wire : Wire.Frame) : Option CrashProblematicFrame := do
  return {
    kind := wire.kind
    moduleName := ← checked isSafeNativeModule wire.moduleName
    symbol := ← wire.symbol.mapM (checked isSafeNativeIdentifier) }

/-- What reading a record checks of it as a whole. -/
structure CrashEvidence.Readable (evidence : CrashEvidence) : Prop where
  few : evidence.suspectedMods.length ≤ maxSuspectedMods
  distinct : evidence.suspectedMods.Nodup
  coherent : evidence.sourceIsCoherent = true
  telling : evidence.isEmpty = false

theorem CrashEvidence.readable_iff (evidence : CrashEvidence) : evidence.Readable ↔
    evidence.suspectedMods.length ≤ maxSuspectedMods ∧ evidence.suspectedMods.Nodup ∧
      evidence.sourceIsCoherent = true ∧ evidence.isEmpty = false :=
  ⟨fun readable => ⟨readable.few, readable.distinct, readable.coherent, readable.telling⟩,
    fun ⟨few, distinct, coherent, telling⟩ => ⟨few, distinct, coherent, telling⟩⟩

instance (evidence : CrashEvidence) : Decidable evidence.Readable :=
  decidable_of_iff' _ evidence.readable_iff

/-- `CrashEvidence::deserialize` -/
def CrashEvidence.deserialize (wire : Wire) : Option CrashEvidence := do
  let evidence : CrashEvidence := {
    source := wire.source
    truncated := wire.truncated
    failurePhase := wire.failurePhase
    exceptionClass := ← wire.exceptionClass.mapM (checked isThrowableClass)
    suspectedMods := ← wire.suspectedMods.mapM Wire.Mod.read
    problematicFrame := ← wire.problematicFrame.mapM Wire.Frame.read
    namesOutOfMemory := wire.namesOutOfMemory }
  if maxSuspectedMods < evidence.suspectedMods.length then none
  else if ¬evidence.suspectedMods.Nodup then none
  else if ¬evidence.sourceIsCoherent then none
  else if evidence.isEmpty then none
  else some evidence

variable {validator : String → Bool}

theorem checked_val (value : Checked validator) :
    checked validator value.val = some value := dif_pos value.property

theorem mapM_checked (value : Option (Checked validator)) :
    (value.map (·.val)).mapM (checked validator) = some value := by
  cases value with
  | none => rfl
  | some value =>
    rw [Option.map_some, Option.mapM_some, checked_val]
    rfl

theorem mapM_read (mods : List CrashModEvidence) :
    (mods.map fun entry => (⟨entry.name.val, entry.version.map (·.val)⟩ : Wire.Mod)).mapM
      Wire.Mod.read = some mods := by
  induction mods with
  | nil => rfl
  | cons entry rest ih =>
    have read : Wire.Mod.read ⟨entry.name.val, entry.version.map (·.val)⟩ = some entry := by
      rw [Wire.Mod.read, checked_val, mapM_checked]
      rfl
    rw [List.map_cons, List.mapM_cons, read, ih]
    rfl

theorem mapM_frame (frame : Option CrashProblematicFrame) :
    (frame.map fun frame => (⟨frame.kind, frame.moduleName.val, frame.symbol.map (·.val)⟩ :
      Wire.Frame)).mapM Wire.Frame.read = some frame := by
  cases frame with
  | none => rfl
  | some frame =>
    rw [Option.map_some, Option.mapM_some, Wire.Frame.read, checked_val, mapM_checked]
    rfl

/-- What is stored is read back exactly if it passes the checks of the whole. -/
theorem CrashEvidence.deserialize_serialize (evidence : CrashEvidence) :
    deserialize evidence.serialize = if evidence.Readable then some evidence else none := by
  unfold deserialize serialize
  dsimp only
  rw [mapM_checked, mapM_read, mapM_frame]
  show (if _ then none else if _ then none else if _ then none else if _ then none
    else some evidence) = _
  split
  · rename_i many
    exact (if_neg fun readable => Nat.not_lt_of_le readable.few many).symm
  · split
    · rename_i repeated
      exact (if_neg fun readable => repeated readable.distinct).symm
    · split
      · rename_i incoherent
        exact (if_neg fun readable => incoherent readable.coherent).symm
      · split
        · rename_i empty
          exact (if_neg fun readable => by rw [readable.telling] at empty; cases empty).symm
        · rename_i few distinct coherent telling
          exact (if_pos ⟨Nat.le_of_not_lt few, not_not.mp distinct, not_not.mp coherent,
            Bool.eq_false_of_not_eq_true telling⟩).symm

end Axial.Launch.Crash
