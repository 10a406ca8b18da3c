/-
This file models what `core/minecraft/src/loaders/forge_installer.rs` reads of the processors
that a Forge installer declares: the artifacts, the data and the templates of their arguments,
and the digests and the contracts that bind what they take and make.
-/

import Axial.Minecraft.Libraries

namespace Axial.Minecraft

open Bytes
open Axial.Fs (isControl)

/-! ### Plans of processors -/

inductive ForgeInstallerError where
  | archive (message : String)
  | tooManyForgeProcessors
  | tooManyForgeProcessorData
  | tooManyForgeProcessorOutputs
  | forgeProcessorDeclarationsTooLarge
  | invalidForgeProcessor
  | invalidForgeProcessorData
  | missingForgeProcessorData
  | forgeProcessorDataEntryTooLarge
  | forgeProcessorDataTooLarge
  | missingForgeProcessorOutputs
  | invalidForgeProcessorOutput
  | multipleForgeProcessorProducers
  | forgeProcessorPortableAlias
  | forgeProcessorDependencyCycle
  | invalidForgeProcessorArtifactContract
  | invalidForgeProcessorFinalOutput

inductive ProcessorBuiltinToken where
  | minecraftJar
  | side
  | minecraftVersion
  | root
  | libraryDir
  | installer
  deriving DecidableEq

variable {unicode : Unicode}

structure BoundProcessorArtifact (unicode : Unicode) where
  coordinate : String
  relativePath : PortableRelativePath unicode

inductive BoundProcessorData (unicode : Unicode) where
  | artifact (artifact : BoundProcessorArtifact unicode)
  | installerData (path : PortableRelativePath unicode)
  | literal (value : String)

/-- The identity of the allocation that outputs without a digest share. -/
abbrev ProcessorDerivation := Nat

inductive BoundProcessorOutputExpectation where
  | providerSha1 (sha1 : Fixed 20)
  | derived (derivation : ProcessorDerivation)
  deriving DecidableEq

inductive BoundProcessorOutputRole where
  | intermediate
  | terminal (expectedSize : Option Nat)

structure BoundProcessorOutput (unicode : Unicode) where
  artifact : BoundProcessorArtifact unicode
  expectation : BoundProcessorOutputExpectation
  role : BoundProcessorOutputRole

inductive BoundProcessorAction (unicode : Unicode) where
  | java
  | extractMcpMappings (input : BoundProcessorArtifact unicode)
  | downloadMojmaps
  | splitJar

inductive BoundProcessorArgumentPart where
  | literal (value : String)
  | dataToken (token : String)
  | outputToken (token : String)
  | builtinToken (token : ProcessorBuiltinToken)

inductive BoundProcessorArgument (unicode : Unicode) where
  | artifact (artifact : BoundProcessorArtifact unicode)
  | outputArtifact (artifact : BoundProcessorArtifact unicode)
  | template (parts : List BoundProcessorArgumentPart)

structure BoundProcessorStep (unicode : Unicode) where
  action : BoundProcessorAction unicode
  jar : BoundProcessorArtifact unicode
  classpath : List (BoundProcessorArtifact unicode)
  args : List (BoundProcessorArgument unicode)
  outputs : List (BoundProcessorOutput unicode)

inductive BoundProcessorInputSource where
  | download
  | embedded
  deriving DecidableEq

structure BoundProcessorInputContract where
  sha1 : Fixed 20
  size : Option Nat
  source : BoundProcessorInputSource

abbrev ProcessorDataTable (unicode : Unicode) := AList fun _ : String => BoundProcessorData unicode

abbrev InstallerDataTable (unicode : Unicode) :=
  AList fun _ : PortableRelativePath unicode => List UInt8

abbrev InputArtifactTable (unicode : Unicode) :=
  AList fun _ : PortableRelativePath unicode => BoundProcessorInputContract

structure BoundProcessorPlan (unicode : Unicode) where
  steps : List (BoundProcessorStep unicode)
  data : ProcessorDataTable unicode
  installerData : InstallerDataTable unicode
  inputArtifacts : InputArtifactTable unicode

structure AuthenticatedEmbeddedMavenArtifact (unicode : Unicode) where
  relativePath : PortableRelativePath unicode
  bytes : List UInt8

/-! ### Declarations -/

structure ProcessorDeclaration where
  jar : String
  classpath : List String
  args : List String
  sides : List String
  outputs : List (String × String)

structure ProcessorDataDeclaration where
  client : String

structure InstallProfileDeclarations where
  processors : List ProcessorDeclaration
  data : AList fun _ : String => ProcessorDataDeclaration

/-- Either error for a condition that fails. -/
def check (error : ForgeInstallerError) (holds : Bool) : Except ForgeInstallerError Unit :=
  if holds then .ok () else .error error

/-- Drops the two characters around a text that holds neither. -/
def exactDelimited (value : String) (opening closing : Char) : Option String :=
  match value.toList with
  | [] => none
  | first :: rest =>
    if first = opening ∧ rest.getLast? = some closing ∧ rest.dropLast ≠ [] ∧
        opening ∉ rest.dropLast ∧ closing ∉ rest.dropLast then
      some (String.ofList rest.dropLast)
    else none

def validProcessorToken (token : String) : Bool :=
  token ≠ "" && decide ((utf8 token).length ≤ 64) &&
    token.toList.all fun char => char.isAlphanum || char = '_'

def processorBuiltinTokenKind (token : String) : Option ProcessorBuiltinToken :=
  if token = "MINECRAFT_JAR" then some .minecraftJar
  else if token = "SIDE" then some .side
  else if token = "MINECRAFT_VERSION" then some .minecraftVersion
  else if token = "ROOT" then some .root
  else if token = "LIBRARY_DIR" then some .libraryDir
  else if token = "INSTALLER" then some .installer
  else none

/-- `processor_builtin_token`. -/
def processorBuiltinToken (token : String) : Bool := (processorBuiltinTokenKind token).isSome

/-- Whether a processor runs on the client. -/
def validateProcessorSides (sides : List String) : Except ForgeInstallerError Bool :=
  if sides.all (· ∈ ["client", "server", "extract"]) ∧ sides.Nodup then
    .ok (sides = [] || "client" ∈ sides)
  else .error .invalidForgeProcessor

def parseProcessorArtifact (unicode : Unicode) (coordinate : String) :
    Except ForgeInstallerError (BoundProcessorArtifact unicode) :=
  if coordinate = "" ∨ trim coordinate ≠ coordinate then .error .invalidForgeProcessor
  else
    let base := match splitOn '@' coordinate with
      | [base] => some base
      | [base, extension] => if extension = "" then none else some base
      | _ => none
    match base with
    | none => .error .invalidForgeProcessor
    | some base =>
      let parts := splitOn ':' base
      if parts.length ∉ [3, 4] ∨ "" ∈ parts then .error .invalidForgeProcessor
      else
        match PortableRelativePath.fromPath unicode (mavenToPath coordinate) with
        | none => .error .invalidForgeProcessor
        | some relativePath => .ok ⟨coordinate, relativePath⟩

def parseProcessorData (unicode : Unicode) (value : String) :
    Except ForgeInstallerError (BoundProcessorData unicode) :=
  if value = "" ∨ trim value ≠ value ∨ value.toList.any isControl then
    .error .invalidForgeProcessorData
  else if startsWith value "[" ∨ endsWith value "]" then
    match exactDelimited value '[' ']' with
    | none => .error .invalidForgeProcessorData
    | some coordinate => (parseProcessorArtifact unicode coordinate).map .artifact
  else if startsWith value "/" then
    let sourcePath := String.ofList value.toList.tail
    if sourcePath = "" ∨ startsWith sourcePath "/" ∨ '\\' ∈ sourcePath.toList then
      .error .invalidForgeProcessorData
    else
      match PortableRelativePath.newExact unicode sourcePath with
      | none => .error .invalidForgeProcessorData
      | some path => .ok (.installerData path)
  else
    match exactDelimited value '\'' '\'' with
    | none => .error .invalidForgeProcessorData
    | some literal => .ok (.literal literal)

/-! ### Arguments -/

/-- Where a reader of an argument stands: in text, which may be quoted, or in a token. -/
inductive ArgumentScan where
  | text (quoted : Bool)
  | token (name : List Char)

/-- The tokens that an argument refers to, beside those known already. -/
def collectProcessorArgumentTokens : List Char → ArgumentScan → List String →
    Except ForgeInstallerError (List String)
  | [], .text quoted, referenced =>
    if quoted then .error .invalidForgeProcessor else .ok referenced
  | [], .token _, _ => .error .invalidForgeProcessor
  | char :: rest, .text quoted, referenced =>
    if char = '\\' then
      match rest with
      | [] => .error .invalidForgeProcessor
      | _ :: rest => collectProcessorArgumentTokens rest (.text quoted) referenced
    else if char = '\'' then collectProcessorArgumentTokens rest (.text !quoted) referenced
    else if char = '\x7b' ∧ ¬ quoted then collectProcessorArgumentTokens rest (.token []) referenced
    else collectProcessorArgumentTokens rest (.text quoted) referenced
  | char :: rest, .token name, referenced =>
    if char = '\x7d' then
      if validProcessorToken (String.ofList name) then
        collectProcessorArgumentTokens rest (.text false) (referenced.insert (String.ofList name))
      else .error .invalidForgeProcessor
    else if char ∈ ['\x7b', '[', ']'] then .error .invalidForgeProcessor
    else collectProcessorArgumentTokens rest (.token (name ++ [char])) referenced

/-- The paths that a step takes, under their portable keys. -/
abbrev ProcessorDependencies := AList fun _ : PortablePathKey => String

def recordProcessorDependency (dependencies : ProcessorDependencies)
    (artifact : BoundProcessorArtifact unicode) :
    Except ForgeInstallerError ProcessorDependencies :=
  match dependencies.lookup artifact.relativePath.key with
  | some existing =>
    if existing = artifact.relativePath.value then .ok dependencies
    else .error .forgeProcessorPortableAlias
  | none => .ok (dependencies.insert artifact.relativePath.key artifact.relativePath.value)

/-- What has been read of a template. -/
structure TemplateParts where
  literal : List Char
  parts : List BoundProcessorArgumentPart
  consumed : ProcessorDependencies

/-- `push_processor_literal`. -/
def TemplateParts.pushLiteral (template : TemplateParts) : TemplateParts :=
  if template.literal = [] then template
  else
    { template with
      literal := []
      parts := template.parts ++ [.literal (String.ofList template.literal)] }

def TemplateParts.push (template : TemplateParts) (part : BoundProcessorArgumentPart) :
    TemplateParts :=
  { template with parts := template.parts ++ [part] }

/-- The part that a token stands for. -/
def bindProcessorToken (data : ProcessorDataTable unicode)
    (currentOutputs : ProcessorDependencies) (token : String) (template : TemplateParts) :
    Except ForgeInstallerError TemplateParts :=
  if ¬ validProcessorToken token then .error .invalidForgeProcessor
  else
    match data.lookup token with
    | some (.artifact artifact) =>
      match currentOutputs.lookup artifact.relativePath.key with
      | some expected =>
        if expected = artifact.relativePath.value then .ok (template.push (.outputToken token))
        else .error .forgeProcessorPortableAlias
      | none => do
        let consumed ← recordProcessorDependency template.consumed artifact
        return { template with consumed }.push (.dataToken token)
    | some (.installerData _) | some (.literal _) => .ok (template.push (.dataToken token))
    | none =>
      match processorBuiltinTokenKind token with
      | some kind => .ok (template.push (.builtinToken kind))
      | none => .error .invalidForgeProcessor

def bindProcessorTemplate (data : ProcessorDataTable unicode)
    (currentOutputs : ProcessorDependencies) : List Char → ArgumentScan → TemplateParts →
    Except ForgeInstallerError TemplateParts
  | [], .text quoted, template =>
    if quoted then .error .invalidForgeProcessor else .ok template.pushLiteral
  | [], .token _, _ => .error .invalidForgeProcessor
  | char :: rest, .text quoted, template =>
    if char = '\\' then
      match rest with
      | [] => .error .invalidForgeProcessor
      | next :: rest =>
        bindProcessorTemplate data currentOutputs rest (.text quoted)
          { template with literal := template.literal ++ [next] }
    else if char = '\'' then
      bindProcessorTemplate data currentOutputs rest (.text !quoted) template
    else if char = '\x7b' ∧ ¬ quoted then
      bindProcessorTemplate data currentOutputs rest (.token []) template.pushLiteral
    else if char ∈ ['\x7d', '[', ']'] ∧ ¬ quoted then .error .invalidForgeProcessor
    else
      bindProcessorTemplate data currentOutputs rest (.text quoted)
        { template with literal := template.literal ++ [char] }
  | char :: rest, .token name, template =>
    if char = '\x7d' then
      match bindProcessorToken data currentOutputs (String.ofList name) template with
      | .error error => .error error
      | .ok template => bindProcessorTemplate data currentOutputs rest (.text false) template
    else if char ∈ ['\x7b', '[', ']'] then .error .invalidForgeProcessor
    else bindProcessorTemplate data currentOutputs rest (.token (name ++ [char])) template

def parseProcessorArgument (data : ProcessorDataTable unicode)
    (currentOutputs : ProcessorDependencies) (arg : String) (consumed : ProcessorDependencies) :
    Except ForgeInstallerError (BoundProcessorArgument unicode × ProcessorDependencies) :=
  if arg = "" ∨ arg.toList.any isControl then .error .invalidForgeProcessor
  else
    match exactDelimited arg '[' ']' with
    | some coordinate => do
      let artifact ← parseProcessorArtifact unicode coordinate
      match currentOutputs.lookup artifact.relativePath.key with
      | some expected =>
        if expected = artifact.relativePath.value then .ok (.outputArtifact artifact, consumed)
        else .error .forgeProcessorPortableAlias
      | none =>
        let consumed ← recordProcessorDependency consumed artifact
        return (.artifact artifact, consumed)
    | none => do
      let template ← bindProcessorTemplate data currentOutputs arg.toList (.text false)
        ⟨[], [], consumed⟩
      if template.parts = [] then .error .invalidForgeProcessor
      else return (.template template.parts, template.consumed)

/-! ### Digests -/

/-- `hex_nibble`, which is the largest byte for what is no digit. -/
def hexNibble (byte : UInt8) : Nat :=
  if 0x30 ≤ byte ∧ byte ≤ 0x39 then byte.toNat - 0x30
  else if 0x61 ≤ byte ∧ byte ≤ 0x66 then byte.toNat - 0x61 + 10
  else if 0x41 ≤ byte ∧ byte ≤ 0x46 then byte.toNat - 0x41 + 10
  else 255

/-- A byte of two nibbles, unless the arithmetic of bytes overflows. -/
def hexByte (high low : UInt8) : Option UInt8 :=
  if hexNibble high * 16 < 256 ∧ hexNibble high * 16 + hexNibble low < 256 then
    some (UInt8.ofNat (hexNibble high * 16 + hexNibble low))
  else none

def hexBytes : List UInt8 → Option (List UInt8)
  | high :: low :: rest => do
    let byte ← hexByte high low
    let bytes ← hexBytes rest
    return byte :: bytes
  | _ => some []

/-- `decode_sha1` of the installer. -/
def decodeProcessorSha1 (value : String) : Option (Fixed 20) :=
  if (utf8 value).length = 40 then (hexBytes (utf8 value)).bind (Fixed.ofList? 20) else none

/-- What follows a zero is not looked at: the sum of the nibbles stays a byte. -/
example : hexByte 0x30 0x7a = some 255 := by decide

def resolveProcessorOutputArtifact (data : ProcessorDataTable unicode) (value : String) :
    Except ForgeInstallerError (BoundProcessorArtifact unicode) :=
  match exactDelimited value '[' ']' with
  | some coordinate =>
    match parseProcessorArtifact unicode coordinate with
    | .ok artifact => .ok artifact
    | .error _ => .error .invalidForgeProcessorOutput
  | none =>
    match (exactDelimited value '\x7b' '\x7d').filter validProcessorToken with
    | none => .error .invalidForgeProcessorOutput
    | some token =>
      match data.lookup token with
      | some (.artifact artifact) => .ok artifact
      | some (.installerData _) | some (.literal _) | none => .error .invalidForgeProcessorOutput

/-- The digest that an output declares, as a token or in quotes. -/
def declaredProcessorSha1 (data : ProcessorDataTable unicode) (value : String) : Option String :=
  match exactDelimited value '\x7b' '\x7d' with
  | some token =>
    if ¬ validProcessorToken token then none
    else
      match data.lookup token with
      | some (.literal value) => some value
      | some (.artifact _) | some (.installerData _) | none => none
  | none => exactDelimited value '\'' '\''

def resolveProcessorOutputSha1 (data : ProcessorDataTable unicode) (value : String) :
    Except ForgeInstallerError (Fixed 20) :=
  match (declaredProcessorSha1 data value).bind decodeProcessorSha1 with
  | some sha1 => .ok sha1
  | none => .error .invalidForgeProcessorOutput

end Axial.Minecraft
