/-
This file models how the processors of a Forge installer are bound to a plan: the data and the
artifacts that they refer to, the steps with what they take and make, the contracts of what
comes from outside, and the part that each output plays.
-/

import Axial.Minecraft.ForgeRecipe

namespace Axial.Minecraft

open Bytes

variable {unicode : Unicode}

/-! ### Bounds -/

abbrev maxForgeProcessors : Nat := 256
abbrev maxForgeProcessorData : Nat := 256
abbrev maxForgeProcessorOutputs : Nat := 1024
abbrev maxForgeProcessorClasspath : Nat := 256
abbrev maxForgeProcessorArgs : Nat := 256
abbrev maxForgeProcessorStringBytes : Nat := 4096
abbrev maxForgeProcessorDeclarationBytes : Nat := 2 * 2 ^ 20
abbrev maxForgeProcessorDataEntryBytes : Nat := 128 * 2 ^ 20
abbrev maxForgeProcessorDataTotalBytes : Nat := 512 * 2 ^ 20

def accountDeclaration (total : Nat) (value : String) : Except ForgeInstallerError Nat :=
  let size := (utf8 value).length
  if maxForgeProcessorStringBytes < size ∨ maxForgeProcessorDeclarationBytes < total + size then
    .error .forgeProcessorDeclarationsTooLarge
  else .ok (total + size)

/-- The texts of a processor. -/
def ProcessorDeclaration.texts (processor : ProcessorDeclaration) : List String :=
  processor.jar :: (processor.classpath ++ processor.args ++ processor.sides ++
    processor.outputs.flatMap fun (target, digest) => [target, digest])

def accountProcessor (total : Nat) (processor : ProcessorDeclaration) :
    Except ForgeInstallerError Nat := do
  check .forgeProcessorDeclarationsTooLarge
    (processor.classpath.length ≤ maxForgeProcessorClasspath &&
      processor.args.length ≤ maxForgeProcessorArgs && processor.sides.length ≤ 3)
  processor.texts.foldlM accountDeclaration total

def validateProcessorDeclarationBounds (profile : InstallProfileDeclarations) :
    Except ForgeInstallerError Unit := do
  let total ← profile.processors.foldlM accountProcessor 0
  let _ ← (profile.data.entries.flatMap fun entry => [entry.1, entry.2.client]).foldlM
    accountDeclaration total

def validateProcessorDataKeys (data : AList fun _ : String => ProcessorDataDeclaration) :
    Except ForgeInstallerError Unit :=
  check .invalidForgeProcessorData
    (data.keys.all (fun key => validProcessorToken key && !processorBuiltinToken key) &&
      (data.keys.map toAsciiLowercase).Nodup)

/-! ### Data -/

/-- The tokens of the outputs of a processor. -/
def collectOutputTokens (referenced : List String) (value : String) :
    Except ForgeInstallerError (List String) :=
  match exactDelimited value '\x7b' '\x7d' with
  | none => .ok referenced
  | some token =>
    if validProcessorToken token then .ok (referenced.insert token)
    else .error .invalidForgeProcessor

def collectProcessorTokens (referenced : List String) (processor : ProcessorDeclaration) :
    Except ForgeInstallerError (List String) := do
  let client ← validateProcessorSides processor.sides
  if ¬ client then return referenced
  else do
    let referenced ← (processor.outputs.map (·.1) ++ processor.outputs.map (·.2)).foldlM
      collectOutputTokens referenced
    processor.args.foldlM (fun referenced arg =>
      collectProcessorArgumentTokens arg.toList (.text false) referenced) referenced

def referencedClientProcessorData (profile : InstallProfileDeclarations) :
    Except ForgeInstallerError (List String) := do
  let referenced ← profile.processors.foldlM collectProcessorTokens []
  return referenced.filter fun token => ¬ processorBuiltinToken token

/-- Whether a modern installer may leave outputs out. -/
def recipeCandidate (record : LoaderBuildRecord) (profile : InstallProfileDeclarations) : Bool :=
  ((record.componentId = .forge && record.strategy = .forgeModern) ||
      (record.componentId = .neoForge && record.strategy = .neoForgeModern)) &&
    profile.processors.any fun processor =>
      (processor.sides = [] || "client" ∈ processor.sides) &&
        (processor.outputs = [] || "DOWNLOAD_MOJMAPS" ∈ processor.args)

def recipeDataKeys : List String :=
  ["MCP_VERSION", "MC_SLIM_SHA", "MC_EXTRA_SHA", "PATCHED_SHA", "MC_SRG_SHA"]

/-- The tokens with the data of a recipe. -/
def withRecipeData (candidate : Bool) (profile : InstallProfileDeclarations)
    (referenced : List String) : List String :=
  if candidate then
    (recipeDataKeys.filter (· ∈ profile.data)).foldl (fun tokens key => tokens.insert key) referenced
  else referenced

def bindProcessorDatum (unicode : Unicode) (profile : InstallProfileDeclarations)
    (data : ProcessorDataTable unicode) (key : String) :
    Except ForgeInstallerError (ProcessorDataTable unicode) :=
  match profile.data.lookup key with
  | none => .error .invalidForgeProcessorData
  | some declaration => do
    let value ← parseProcessorData unicode declaration.client
    return data.insert key value

/-! ### Contracts -/

structure ExactProcessorInputContract (unicode : Unicode) where
  path : PortableRelativePath unicode
  contract : BoundProcessorInputContract

structure ExactProcessorFinalContract (unicode : Unicode) where
  path : PortableRelativePath unicode
  sha1 : Option (Fixed 20)
  size : Option Nat

abbrev InputContracts (unicode : Unicode) :=
  AList fun _ : PortablePathKey => ExactProcessorInputContract unicode

abbrev FinalContracts (unicode : Unicode) :=
  AList fun _ : PortablePathKey => ExactProcessorFinalContract unicode

structure ResolvedProcessorArtifactContracts (unicode : Unicode) where
  externalInputs : InputContracts unicode
  finalInventory : FinalContracts unicode

def insertExactInputContract (contracts : InputContracts unicode)
    (contract : ExactProcessorInputContract unicode) :
    Except ForgeInstallerError (InputContracts unicode) :=
  match contracts.lookup contract.path.key with
  | some existing =>
    if existing.path ≠ contract.path then .error .forgeProcessorPortableAlias
    else if existing.contract.sha1 ≠ contract.contract.sha1 ∨
        existing.contract.size ≠ contract.contract.size then
      .error .invalidForgeProcessorArtifactContract
    else .ok contracts
  | none => .ok (contracts.insert contract.path.key contract)

def insertExactFinalContract (contracts : FinalContracts unicode)
    (contract : ExactProcessorFinalContract unicode) :
    Except ForgeInstallerError (FinalContracts unicode) :=
  match contracts.lookup contract.path.key with
  | some existing =>
    if existing.path ≠ contract.path then .error .forgeProcessorPortableAlias
    else if existing.sha1 ≠ contract.sha1 ∨ existing.size ≠ contract.size then
      .error .invalidForgeProcessorArtifactContract
    else .ok contracts
  | none => .ok (contracts.insert contract.path.key contract)

def planSha1 (plan : LibraryArtifactPlan unicode) :
    Except ForgeInstallerError (Option (Fixed 20)) :=
  match plan.expected.sha1 with
  | none => .ok none
  | some value =>
    match decodeProcessorSha1 value with
    | none => .error .invalidForgeProcessorArtifactContract
    | some sha1 => .ok (some sha1)

/-- The input that a plan with a digest and a source provides. -/
def insertPlanInput (contracts : InputContracts unicode) (plan : LibraryArtifactPlan unicode)
    (sha1 : Option (Fixed 20)) : Except ForgeInstallerError (InputContracts unicode) :=
  match sha1, plan.sourceUrl with
  | some sha1, some _ =>
    insertExactInputContract contracts
      ⟨plan.relativePath, ⟨sha1, plan.expected.size, .download⟩⟩
  | _, _ => .ok contracts

def resolvePlanContract (contracts : ResolvedProcessorArtifactContracts unicode)
    (plan : LibraryArtifactPlan unicode) :
    Except ForgeInstallerError (ResolvedProcessorArtifactContracts unicode) := do
  let sha1 ← planSha1 plan
  let externalInputs ← insertPlanInput contracts.externalInputs plan sha1
  let finalInventory ← insertExactFinalContract contracts.finalInventory
    ⟨plan.relativePath, sha1, plan.expected.size⟩
  return ⟨externalInputs, finalInventory⟩

/-- A digest and a size that are known agree with those of an embedded artifact. -/
def embeddedAgrees (path : PortableRelativePath unicode) (sha1 : Option (Fixed 20))
    (size : Option Nat) (contract : ExactProcessorInputContract unicode) : Bool :=
  path = contract.path && sha1.all (· = contract.contract.sha1) &&
    size.all fun size => some size = contract.contract.size

variable (digest : List UInt8 → Fixed 20)

def embeddedContract (artifact : AuthenticatedEmbeddedMavenArtifact unicode) :
    ExactProcessorInputContract unicode where
  path := artifact.relativePath
  contract := ⟨digest artifact.bytes, some artifact.bytes.length, .embedded⟩

def resolveEmbeddedContract (contracts : ResolvedProcessorArtifactContracts unicode)
    (artifact : AuthenticatedEmbeddedMavenArtifact unicode) :
    Except ForgeInstallerError (ResolvedProcessorArtifactContracts unicode) := do
  let contract := embeddedContract digest artifact
  check .invalidForgeProcessorArtifactContract
    ((contracts.finalInventory.lookup contract.path.key).all fun known =>
      embeddedAgrees known.path known.sha1 known.size contract)
  match contracts.externalInputs.lookup contract.path.key with
  | some known =>
    check .invalidForgeProcessorArtifactContract
      (embeddedAgrees known.path (some known.contract.sha1) known.contract.size contract)
    return { contracts with
      externalInputs := contracts.externalInputs.insert contract.path.key contract }
  | none =>
    let externalInputs ← insertExactInputContract contracts.externalInputs contract
    return { contracts with externalInputs }

def resolvedProcessorArtifactContracts (regex : Regex) (env : Environment)
    (libraries : List Library) (embedded : List (AuthenticatedEmbeddedMavenArtifact unicode)) :
    Except ForgeInstallerError (ResolvedProcessorArtifactContracts unicode) :=
  match libraryArtifactPlansFor unicode regex libraries env with
  | .error _ => .error .invalidForgeProcessorArtifactContract
  | .ok plans => do
    let contracts ← plans.foldlM resolvePlanContract ⟨∅, ∅⟩
    embedded.foldlM (resolveEmbeddedContract digest) contracts

/-! ### Data of the installer -/

/-- An entry of the archive of the installer, with what a bounded read of it gives. -/
structure InstallerEntry where
  name : String
  isDirectory : Bool
  size : Nat
  content : Except String (List UInt8)

/-- The entries of an installer, each of which may fail to open. -/
abbrev InstallerArchive := Except String (List (Except String InstallerEntry))

abbrev LocatedEntries (unicode : Unicode) :=
  AList fun _ : PortableRelativePath unicode => InstallerEntry

def archiveError {Value : Type} (result : Except String Value) :
    Except ForgeInstallerError Value :=
  result.mapError .archive

/-- Finds an entry that has been requested, spelled as it was. -/
def locateEntry (requested : List (PortableRelativePath unicode))
    (located : LocatedEntries unicode) (entry : Except String InstallerEntry) :
    Except ForgeInstallerError (LocatedEntries unicode) := do
  let entry ← archiveError entry
  match PortableRelativePath.newExact unicode entry.name with
  | none => return located
  | some path =>
    match requested.find? (·.key = path.key) with
    | none => return located
    | some expected =>
      if entry.name ≠ expected.value ∨ entry.isDirectory ∨ endsWith entry.name "/" then
        .error .forgeProcessorPortableAlias
      else if path ∈ located then .error .invalidForgeProcessorData
      else return located.insert path entry

/-- `read_bounded_entry`. -/
def readBoundedEntry (entry : InstallerEntry) : Except ForgeInstallerError (List UInt8) := do
  check .forgeProcessorDataEntryTooLarge (entry.size ≤ maxForgeProcessorDataEntryBytes)
  let bytes ← archiveError entry.content
  check .forgeProcessorDataEntryTooLarge
    (bytes.length ≤ maxForgeProcessorDataEntryBytes && bytes.length = entry.size)
  return bytes

def extractEntry (state : InstallerDataTable unicode × Nat)
    (located : PortableRelativePath unicode × InstallerEntry) :
    Except ForgeInstallerError (InstallerDataTable unicode × Nat) := do
  check .forgeProcessorDataEntryTooLarge (located.2.size ≤ maxForgeProcessorDataEntryBytes)
  check .forgeProcessorDataTooLarge (located.2.size ≤ maxForgeProcessorDataTotalBytes - state.2)
  let bytes ← readBoundedEntry located.2
  check .forgeProcessorDataTooLarge
    (state.2 + bytes.length ≤ maxForgeProcessorDataTotalBytes)
  return (state.1.insert located.1 bytes, state.2 + bytes.length)

def extractAuthenticatedProcessorData (installer : InstallerArchive)
    (requested : List (PortableRelativePath unicode)) :
    Except ForgeInstallerError (InstallerDataTable unicode) :=
  if requested = [] then .ok ∅
  else do
    check .forgeProcessorPortableAlias (requested.map (·.key)).Nodup
    let entries ← archiveError installer
    let located ← entries.foldlM (locateEntry requested) ∅
    check .missingForgeProcessorData (located.keys.length = requested.length)
    let (extracted, _) ← (located.entries.map fun entry => (entry.1, entry.2)).foldlM
      extractEntry (∅, 0)
    return extracted

/-! ### Steps -/

/-- The spelling of each output and the step that makes it, under its portable key. -/
abbrev ProcessorProducers := AList fun _ : PortablePathKey => String × Nat

/-- The outputs of a step that have been admitted. -/
structure StepOutputs (unicode : Unicode) where
  producers : ProcessorProducers
  current : ProcessorDependencies
  outputs : List (BoundProcessorOutput unicode)

def bindStepOutput (stepIndex : Nat) (state : StepOutputs unicode)
    (declared : BoundProcessorArtifact unicode × BoundProcessorOutputExpectation) :
    Except ForgeInstallerError (StepOutputs unicode) :=
  let path := declared.1.relativePath
  match state.producers.lookup path.key with
  | some (existing, _) =>
    if existing = path.value then .error .multipleForgeProcessorProducers
    else .error .forgeProcessorPortableAlias
  | none =>
    .ok {
      producers := state.producers.insert path.key (path.value, stepIndex)
      current := state.current.insert path.key path.value
      outputs := state.outputs ++ [⟨declared.1, declared.2, .intermediate⟩] }

/-- An output as a processor declares it. -/
def bindDeclaredOutput (data : ProcessorDataTable unicode) (declared : String × String) :
    Except ForgeInstallerError
      (BoundProcessorArtifact unicode × BoundProcessorOutputExpectation) := do
  let artifact ← resolveProcessorOutputArtifact data declared.1
  let sha1 ← resolveProcessorOutputSha1 data declared.2
  return (artifact, .providerSha1 sha1)

/-- What a step makes: what the recipe says, or what its processor declares. -/
def stepDeclaredOutputs (data : ProcessorDataTable unicode)
    (recipeStep : Option (ForgeRecipeStep unicode)) (declaration : ProcessorDeclaration) :
    Except ForgeInstallerError
      (List (BoundProcessorArtifact unicode × BoundProcessorOutputExpectation)) :=
  match recipeStep with
  | some step => .ok step.outputs
  | none => declaration.outputs.mapM (bindDeclaredOutput data)

/-- What has been bound of the processors. -/
structure BoundSteps (unicode : Unicode) where
  steps : List (BoundProcessorStep unicode)
  producers : ProcessorProducers
  dependencies : List ProcessorDependencies

/-- The artifacts that a step takes by themselves. -/
def recordProcessorDependencies (artifacts : List (BoundProcessorArtifact unicode)) :
    Except ForgeInstallerError ProcessorDependencies :=
  artifacts.foldlM recordProcessorDependency ∅

def bindStepArgument (data : ProcessorDataTable unicode) (current : ProcessorDependencies)
    (state : List (BoundProcessorArgument unicode) × ProcessorDependencies) (arg : String) :
    Except ForgeInstallerError
      (List (BoundProcessorArgument unicode) × ProcessorDependencies) := do
  let (arg, consumed) ← parseProcessorArgument data current arg state.2
  return (state.1 ++ [arg], consumed)

def stepAction (recipeStep : Option (ForgeRecipeStep unicode)) : BoundProcessorAction unicode :=
  match recipeStep with
  | some step => step.action
  | none => .java

def bindClientStep (data : ProcessorDataTable unicode) (state : BoundSteps unicode)
    (recipeStep : Option (ForgeRecipeStep unicode)) (declaration : ProcessorDeclaration) :
    Except ForgeInstallerError (BoundSteps unicode) := do
  check .missingForgeProcessorOutputs (declaration.outputs ≠ [] || recipeStep.isSome)
  let jar ← parseProcessorArtifact unicode declaration.jar
  let classpath ← declaration.classpath.mapM (parseProcessorArtifact unicode)
  let declared ← stepDeclaredOutputs data recipeStep declaration
  let bound ← declared.foldlM (bindStepOutput state.steps.length) ⟨state.producers, ∅, []⟩
  let consumed ← recordProcessorDependencies (jar :: classpath)
  let (args, consumed) ← declaration.args.foldlM (bindStepArgument data bound.current) ([], consumed)
  return {
    steps := state.steps ++ [⟨stepAction recipeStep, jar, classpath, args, bound.outputs⟩]
    producers := bound.producers
    dependencies := state.dependencies ++ [consumed] }

/-- A processor that does not run on the client is skipped. -/
def bindProcessor (data : ProcessorDataTable unicode)
    (recipe : Option (List (ForgeRecipeStep unicode))) (state : BoundSteps unicode)
    (declaration : ProcessorDeclaration) : Except ForgeInstallerError (BoundSteps unicode) := do
  let client ← validateProcessorSides declaration.sides
  if client then
    bindClientStep data state (recipe.bind (·[state.steps.length]?)) declaration
  else return state

/-! ### Dependencies and outputs -/

/-- A search from a node, which tells whether it runs into a cycle; 1 marks a node under way and
2 one that is done. A chain of nodes under way is no longer than the nodes are many. -/
def processorGraphHasCycle (edges : List (List Nat)) : Nat → Nat → List Nat → Bool × List Nat
  | 0, _, state => (true, state)
  | fuel + 1, node, state =>
    match state.getD node 0 with
    | 1 => (true, state)
    | 2 => (false, state)
    | _ =>
      let (found, state) := (edges.getD node []).foldl (fun (found, state) dependency =>
        if found then (found, state) else processorGraphHasCycle edges fuel dependency state)
        (false, state.set node 1)
      if found then (true, state) else (false, state.set node 2)

def processorGraphAcyclic (edges : List (List Nat)) : Bool :=
  !((List.range edges.length).foldl (fun (found, state) node =>
    if found then (found, state)
    else processorGraphHasCycle edges (edges.length + 1) node state)
    (false, List.replicate edges.length 0)).1

/-- What the dependencies come to: the contracts of what comes from outside, and the outputs that
steps take. -/
structure BoundDependencies (unicode : Unicode) where
  inputContracts : InputArtifactTable unicode
  consumedOutputs : List PortablePathKey

def bindDependency (producers : ProcessorProducers) (external : InputContracts unicode)
    (consumer : Nat) (state : BoundDependencies unicode) (input : PortablePathKey × String) :
    Except ForgeInstallerError (BoundDependencies unicode) :=
  match producers.lookup input.1 with
  | some (produced, producer) =>
    if produced ≠ input.2 then .error .forgeProcessorPortableAlias
    else if consumer ≤ producer then .error .invalidForgeProcessor
    else .ok { state with consumedOutputs := state.consumedOutputs.insert input.1 }
  | none =>
    match external.lookup input.1 with
    | none => .error .invalidForgeProcessorArtifactContract
    | some contract =>
      if contract.path.value ≠ input.2 then .error .forgeProcessorPortableAlias
      else
        .ok { state with
          inputContracts := state.inputContracts.insert contract.path contract.contract }

/-- The steps that a step depends on. -/
def producersOf (producers : ProcessorProducers) (inputs : ProcessorDependencies) : List Nat :=
  inputs.keys.filterMap fun key => (producers.lookup key).map (·.2)

def bindStepDependencies (producers : ProcessorProducers) (external : InputContracts unicode)
    (state : BoundDependencies unicode) (step : ProcessorDependencies × Nat) :
    Except ForgeInstallerError (BoundDependencies unicode) :=
  (step.1.entries.map fun entry => (entry.1, entry.2)).foldlM
    (bindDependency producers external step.2) state

def bindProcessorDependencyContracts (dependencies : List ProcessorDependencies)
    (producers : ProcessorProducers) (external : InputContracts unicode) :
    Except ForgeInstallerError (BoundDependencies unicode) := do
  check .forgeProcessorDependencyCycle
    (processorGraphAcyclic (dependencies.map (producersOf producers)))
  dependencies.zipIdx.foldlM (bindStepDependencies producers external) ⟨∅, []⟩

def classifyOutput (consumed : List PortablePathKey) (finalInventory : FinalContracts unicode)
    (output : BoundProcessorOutput unicode) :
    Except ForgeInstallerError (BoundProcessorOutput unicode) :=
  match finalInventory.lookup output.artifact.relativePath.key with
  | some contract =>
    if contract.path ≠ output.artifact.relativePath ∨
        contract.sha1.any (fun sha1 => output.expectation ≠ .providerSha1 sha1) then
      .error .invalidForgeProcessorFinalOutput
    else .ok { output with role := .terminal contract.size }
  | none =>
    if output.artifact.relativePath.key ∈ consumed then
      .ok { output with role := .intermediate }
    else .error .invalidForgeProcessorFinalOutput

def classifyStep (consumed : List PortablePathKey) (finalInventory : FinalContracts unicode)
    (step : BoundProcessorStep unicode) :
    Except ForgeInstallerError (BoundProcessorStep unicode) := do
  let outputs ← step.outputs.mapM (classifyOutput consumed finalInventory)
  return { step with outputs }

def classifyProcessorOutputs (consumed : List PortablePathKey)
    (finalInventory : FinalContracts unicode) (steps : List (BoundProcessorStep unicode)) :
    Except ForgeInstallerError (List (BoundProcessorStep unicode)) :=
  steps.mapM (classifyStep consumed finalInventory)

def BoundProcessorOutputRole.isTerminal : BoundProcessorOutputRole → Bool
  | .terminal _ => true
  | .intermediate => false

/-- Just what the game runs with ends a recipe. -/
def recipeRolesFit (steps : List (BoundProcessorStep unicode)) : Bool :=
  steps.zipIdx.all fun (step, stepIndex) => step.outputs.zipIdx.all fun (output, outputIndex) =>
    output.role.isTerminal = decide ((stepIndex, outputIndex) ∈ [(3, 1), (4, 0), (5, 0)])

/-! ### The plan -/

def processorArtifactIsValid (artifact : BoundProcessorArtifact unicode) : Bool :=
  artifact.coordinate ≠ "" && artifact.relativePath.value ≠ ""

def BoundProcessorArgumentPart.isComplete (data : ProcessorDataTable unicode) :
    BoundProcessorArgumentPart → Bool
  | .literal value => value ≠ ""
  | .dataToken token | .outputToken token => token ∈ data
  | .builtinToken _ => true

def BoundProcessorArgument.isComplete (data : ProcessorDataTable unicode) :
    BoundProcessorArgument unicode → Bool
  | .artifact made | .outputArtifact made => processorArtifactIsValid made
  | .template parts => parts ≠ [] && parts.all (·.isComplete data)

def BoundProcessorOutput.isComplete (output : BoundProcessorOutput unicode) : Bool :=
  processorArtifactIsValid output.artifact &&
    match output.role with
    | .intermediate => true
    | .terminal expectedSize => expectedSize.all (0 < ·)

def BoundProcessorStep.isComplete (data : ProcessorDataTable unicode)
    (step : BoundProcessorStep unicode) : Bool :=
  processorArtifactIsValid step.jar && step.classpath.all processorArtifactIsValid &&
    step.args.all (·.isComplete data) && step.outputs ≠ [] && step.outputs.all (·.isComplete)

def BoundProcessorData.isComplete (installerData : InstallerDataTable unicode) :
    BoundProcessorData unicode → Bool
  | .artifact made => processorArtifactIsValid made
  | .installerData path => path ∈ installerData
  | .literal value => value ≠ ""

/-- `is_structurally_complete`. -/
def BoundProcessorPlan.isStructurallyComplete (plan : BoundProcessorPlan unicode) : Bool :=
  plan.steps.all (·.isComplete plan.data) &&
    plan.data.entries.all (fun entry =>
      validProcessorToken entry.1 && entry.2.isComplete plan.installerData) &&
    plan.installerData.entries.all (fun entry =>
      entry.1.value ≠ "" && entry.2.length ≤ maxForgeProcessorDataEntryBytes) &&
    plan.inputArtifacts.entries.all fun entry =>
      entry.1.value ≠ "" && entry.2.size.all (0 < ·)

/-- The bounds on what is declared. -/
def validateProcessorCounts (profile : InstallProfileDeclarations) :
    Except ForgeInstallerError Unit := do
  check .tooManyForgeProcessors (profile.processors.length ≤ maxForgeProcessors)
  check .tooManyForgeProcessorData (profile.data.keys.length ≤ maxForgeProcessorData)
  check .tooManyForgeProcessorOutputs
    ((profile.processors.map (·.outputs.length)).sum ≤ maxForgeProcessorOutputs)

/-- The data that a plan refers to. -/
def bindProcessorData (unicode : Unicode) (record : LoaderBuildRecord)
    (profile : InstallProfileDeclarations) :
    Except ForgeInstallerError (ProcessorDataTable unicode) := do
  let referenced ← referencedClientProcessorData profile
  (withRecipeData (recipeCandidate record profile) profile referenced).foldlM
    (bindProcessorDatum unicode profile) ∅

/-- The recipe of a candidate, with the libraries that it leaves. -/
def bindRecipe (regex : Regex) (env : Environment) (derivation : ProcessorDerivation)
    (record : LoaderBuildRecord) (version : LoaderProfileFragment)
    (profile : InstallProfileDeclarations) (data : ProcessorDataTable unicode)
    (libraries : List Library) :
    Except ForgeInstallerError (List Library × Option (List (ForgeRecipeStep unicode))) :=
  if recipeCandidate record profile then do
    let (libraries, recipe) ←
      bindModernClientRecipe regex env derivation record version profile data libraries
    return (libraries, some recipe)
  else .ok (libraries, none)

/-- The paths of the data that the installer holds. -/
def requestedInstallerData (data : ProcessorDataTable unicode) :
    List (PortableRelativePath unicode) :=
  (data.entries.filterMap fun entry =>
    match entry.2 with
    | .installerData path => some path
    | .artifact _ | .literal _ => none).dedup

/-- Binds the plan and returns it with the libraries, some of which the recipe may have added.
`env` is the environment of the launcher. -/
def bindForgeProcessorPlan (regex : Regex) (env : Environment) (derivation : ProcessorDerivation)
    (installer : InstallerArchive) (record : LoaderBuildRecord) (version : LoaderProfileFragment)
    (profile : InstallProfileDeclarations) (libraries : List Library)
    (embedded : List (AuthenticatedEmbeddedMavenArtifact unicode)) :
    Except ForgeInstallerError (List Library × BoundProcessorPlan unicode) := do
  validateProcessorCounts profile
  validateProcessorDeclarationBounds profile
  validateProcessorDataKeys profile.data
  let data ← bindProcessorData unicode record profile
  let (libraries, recipe) ←
    bindRecipe regex env derivation record version profile data libraries
  let contracts ← resolvedProcessorArtifactContracts digest regex env libraries embedded
  let installerData ← extractAuthenticatedProcessorData installer (requestedInstallerData data)
  let bound ← profile.processors.foldlM (bindProcessor data recipe) ⟨[], ∅, []⟩
  let dependencies ← bindProcessorDependencyContracts bound.dependencies bound.producers
    contracts.externalInputs
  let steps ← classifyProcessorOutputs dependencies.consumedOutputs contracts.finalInventory
    bound.steps
  check .invalidForgeProcessorFinalOutput (recipe.isNone || recipeRolesFit steps)
  let plan : BoundProcessorPlan unicode :=
    ⟨steps, data, installerData, dependencies.inputContracts⟩
  check .invalidForgeProcessor plan.isStructurallyComplete
  return (libraries, plan)

end Axial.Minecraft
