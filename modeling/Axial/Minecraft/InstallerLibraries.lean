/-
This file models how `core/minecraft/src/known_good_libraries.rs` seals the libraries of a loader
that comes as an installer: each selected library is bound to one producer, and an installation
and a reconstruction each complete what the network and the processors are to produce.
-/

import Axial.Minecraft.ForgeRecipe

namespace Axial.Minecraft

open Bytes

variable {unicode : Unicode}

/-! ### Declarations -/

inductive SealedLibraryKind where
  | library
  | native
  deriving DecidableEq

inductive SealedLibraryDeclarationError where
  | invalidSelectedPlan
  | invalidExactDeclaration
  | missingDeclaration
  | extraDeclaration
  | duplicateDeclaration
  | contractDrift
  | missingStreamSource

@[ext]
structure SealedExactLibraryDeclaration (unicode : Unicode) where
  path : PortableRelativePath unicode
  kind : SealedLibraryKind
  sha1 : Fixed 20
  size : Nat
  providerUrl : Option String

abbrev DeclarationTable (unicode : Unicode) :=
  AList fun _ : PortableRelativePath unicode => SealedExactLibraryDeclaration unicode

structure InstallerLibraryStructure where
  libraries : List Library
  environment : Environment

/-- What is sealed for an installer. -/
structure SealedExactLibraryDeclarations (unicode : Unicode) where
  entries : DeclarationTable unicode
  contract : InstallerLibraryStructure

structure InstallerTerminalOutputContract (unicode : Unicode) where
  path : PortableRelativePath unicode
  expectation : BoundProcessorOutputExpectation
  size : Option Nat
  deriving DecidableEq

inductive InstallerLibraryProducer (unicode : Unicode) where
  | exactNetwork
  | freshNetwork
  | embedded
  | terminal (contract : InstallerTerminalOutputContract unicode)
  deriving DecidableEq

def InstallerLibraryProducer.isTerminal : InstallerLibraryProducer unicode → Bool
  | .terminal _ => true
  | .exactNetwork | .freshNetwork | .embedded => false

structure InstallerSelectedLibrary (unicode : Unicode) where
  plan : LibraryArtifactPlan unicode
  producer : InstallerLibraryProducer unicode

abbrev SelectedTable (unicode : Unicode) :=
  AList fun _ : PortableRelativePath unicode => InstallerSelectedLibrary unicode

abbrev EmbeddedTable (unicode : Unicode) :=
  AList fun _ : PortableRelativePath unicode => AuthenticatedEmbeddedMavenArtifact unicode

structure AuthenticatedInstallerLibraryInputs (unicode : Unicode) where
  libraries : List Library
  embeddedArtifacts : List (AuthenticatedEmbeddedMavenArtifact unicode)
  terminalOutputs : List (InstallerTerminalOutputContract unicode)

/-- `BoundInstallerLibraryDeclarations`, and the pending declarations of both paths, which have
the same fields. -/
structure InstallerLibraryDeclarations (unicode : Unicode) where
  selected : SelectedTable unicode
  entries : DeclarationTable unicode
  embedded : EmbeddedTable unicode
  workspaceEmbedded : List (AuthenticatedEmbeddedMavenArtifact unicode)
  contract : InstallerLibraryStructure

/-! ### Contracts of plans -/

def kindForPlan (plan : LibraryArtifactPlan unicode) : SealedLibraryKind :=
  if plan.isNative then .native else .library

/-- `char::to_digit`, for hexadecimal digits. -/
def toDigit (byte : UInt8) : Option Nat :=
  if 0x30 ≤ byte ∧ byte ≤ 0x39 then some (byte.toNat - 0x30)
  else if 0x61 ≤ byte ∧ byte ≤ 0x66 then some (byte.toNat - 0x61 + 10)
  else if 0x41 ≤ byte ∧ byte ≤ 0x46 then some (byte.toNat - 0x41 + 10)
  else none

def decodePairs : List UInt8 → Option (List UInt8)
  | first :: second :: rest => do
    let high ← toDigit first
    let low ← toDigit second
    let bytes ← decodePairs rest
    return UInt8.ofNat (high * 16 + low) :: bytes
  | _ => some []

/-- `decode_sha1` of the declarations. -/
def decodeSha1 (value : String) : Except SealedLibraryDeclarationError (Fixed 20) :=
  if ¬ isSha1Hex value then .error .invalidExactDeclaration
  else
    match (decodePairs (utf8 value)).bind (Fixed.ofList? 20) with
    | none => .error .invalidExactDeclaration
    | some sha1 => .ok sha1

def validatePlanContract (plan : LibraryArtifactPlan unicode) (sha1 : Fixed 20) (size : Nat) :
    Except SealedLibraryDeclarationError Unit :=
  if size = 0 ∨ plan.expected.size.any (· ≠ size) then .error .contractDrift
  else if plan.expected.sha1.any (fun expected => ¬ eqIgnoreAsciiCase expected (encodeSha1 sha1))
    then .error .contractDrift
  else .ok ()

/-- Whether a declared digest is that of an expectation. -/
def agreesWithExpectation (expectation : BoundProcessorOutputExpectation) (expected : String) :
    Bool :=
  match expectation with
  | .derived _ => false
  | .providerSha1 sha1 => (decodeSha1 expected).toOption = some sha1

def validatePlanContractOptional (plan : LibraryArtifactPlan unicode)
    (expectation : BoundProcessorOutputExpectation) (size : Option Nat) :
    Except SealedLibraryDeclarationError Unit :=
  if size = some 0 ∨ plan.expected.size.any (fun expected => size.any (expected ≠ ·)) then
    .error .contractDrift
  else if plan.expected.sha1.any (fun expected => ¬ agreesWithExpectation expectation expected) then
    .error .contractDrift
  else .ok ()

def insertExactDeclaration (entries : DeclarationTable unicode)
    (plan : LibraryArtifactPlan unicode) (sha1 : Fixed 20) (size : Nat)
    (independentlyDownloadable : Bool) :
    Except SealedLibraryDeclarationError (DeclarationTable unicode) :=
  if size = 0 ∨ plan.relativePath ∈ entries then .error .duplicateDeclaration
  else
    .ok (entries.insert plan.relativePath
      ⟨plan.relativePath, kindForPlan plan, sha1, size,
        if independentlyDownloadable then plan.sourceUrl else none⟩)

/-! ### Binding -/

abbrev PortableSelection (unicode : Unicode) :=
  AList fun _ : PortablePathKey => PortableRelativePath unicode

abbrev TerminalTable (unicode : Unicode) :=
  AList fun _ : PortableRelativePath unicode => InstallerTerminalOutputContract unicode

/-- The plans under their paths, and the paths under their portable keys. -/
def selectPlan (state : PlanTable unicode × PortableSelection unicode)
    (plan : LibraryArtifactPlan unicode) :
    Except SealedLibraryDeclarationError (PlanTable unicode × PortableSelection unicode) :=
  if plan.relativePath ∈ state.1 ∨ plan.relativePath.key ∈ state.2 then
    .error .duplicateDeclaration
  else
    .ok (state.1.insert plan.relativePath plan,
      state.2.insert plan.relativePath.key plan.relativePath)

def bindTerminal (portable : PortableSelection unicode) (terminals : TerminalTable unicode)
    (terminal : InstallerTerminalOutputContract unicode) :
    Except SealedLibraryDeclarationError (TerminalTable unicode) :=
  match portable.lookup terminal.path.key with
  | none => .error .extraDeclaration
  | some path =>
    if path ≠ terminal.path ∨ terminal.path ∈ terminals then .error .duplicateDeclaration
    else .ok (terminals.insert terminal.path terminal)

/-- The embedded artifacts that are selected, and those of the workspace. -/
def bindEmbedded (portable : PortableSelection unicode)
    (state : EmbeddedTable unicode × List (AuthenticatedEmbeddedMavenArtifact unicode))
    (artifact : AuthenticatedEmbeddedMavenArtifact unicode) :
    Except SealedLibraryDeclarationError
      (EmbeddedTable unicode × List (AuthenticatedEmbeddedMavenArtifact unicode)) :=
  match portable.lookup artifact.relativePath.key with
  | none => .ok (state.1, state.2 ++ [artifact])
  | some path =>
    if path ≠ artifact.relativePath ∨ artifact.relativePath ∈ state.1 then
      .error .duplicateDeclaration
    else .ok (state.1.insert artifact.relativePath artifact, state.2)

variable (digest : List UInt8 → Fixed 20)

/-- The producer of a library that neither a processor nor the installer provides. -/
def bindNetwork (entries : DeclarationTable unicode) (plan : LibraryArtifactPlan unicode) :
    Except SealedLibraryDeclarationError
      (InstallerLibraryProducer unicode × DeclarationTable unicode) :=
  if plan.sourceUrl = none then .error .missingStreamSource
  else
    match plan.expected.sha1, plan.expected.size with
    | some declared, some size =>
      if 0 < size then do
        let sha1 ← decodeSha1 declared
        let entries ← insertExactDeclaration entries plan sha1 size true
        return (.exactNetwork, entries)
      else .ok (.freshNetwork, entries)
    | _, _ => .ok (.freshNetwork, entries)

/-- The producer of a library, with the entries that it is known by already. -/
def bindProducer (terminal : Option (InstallerTerminalOutputContract unicode))
    (embedded : Option (AuthenticatedEmbeddedMavenArtifact unicode))
    (entries : DeclarationTable unicode) (plan : LibraryArtifactPlan unicode) :
    Except SealedLibraryDeclarationError
      (InstallerLibraryProducer unicode × DeclarationTable unicode) :=
  match terminal, embedded with
  | some _, some _ => .error .duplicateDeclaration
  | some contract, none => do
    validatePlanContractOptional plan contract.expectation contract.size
    return (.terminal contract, entries)
  | none, some artifact => do
    validatePlanContract plan (digest artifact.bytes) artifact.bytes.length
    let entries ← insertExactDeclaration entries plan (digest artifact.bytes)
      artifact.bytes.length false
    return (.embedded, entries)
  | none, none => bindNetwork entries plan

/-- What has been bound of the selected libraries. -/
structure SelectionState (unicode : Unicode) where
  terminals : TerminalTable unicode
  selected : SelectedTable unicode
  entries : DeclarationTable unicode

def bindSelected (embedded : EmbeddedTable unicode) (state : SelectionState unicode)
    (item : PortableRelativePath unicode × LibraryArtifactPlan unicode) :
    Except SealedLibraryDeclarationError (SelectionState unicode) := do
  let (producer, entries) ← bindProducer digest (state.terminals.lookup item.1)
    (embedded.lookup item.1) state.entries item.2
  return ⟨state.terminals.erase item.1, state.selected.insert item.1 ⟨item.2, producer⟩, entries⟩

/-- The entries of a table, one by one. -/
def tableItems {Key Value : Type} (table : AList fun _ : Key => Value) : List (Key × Value) :=
  table.entries.map fun entry => (entry.1, entry.2)

def bindInstallerLibraryDeclarations (regex : Regex)
    (inputs : AuthenticatedInstallerLibraryInputs unicode) (environment : Environment) :
    Except SealedLibraryDeclarationError (InstallerLibraryDeclarations unicode) :=
  match libraryArtifactPlansFor unicode regex inputs.libraries environment with
  | .error _ => .error .invalidSelectedPlan
  | .ok plans => do
    let (selectedPaths, portable) ← plans.foldlM selectPlan (∅, ∅)
    let terminals ← inputs.terminalOutputs.foldlM (bindTerminal portable) ∅
    let (embedded, workspaceEmbedded) ← inputs.embeddedArtifacts.foldlM (bindEmbedded portable)
      (∅, [])
    let bound ← (tableItems selectedPaths).foldlM (bindSelected digest embedded)
      ⟨terminals, ∅, ∅⟩
    if bound.terminals.entries ≠ [] then .error .extraDeclaration
    else
      return ⟨bound.selected, bound.entries, embedded, workspaceEmbedded,
        ⟨inputs.libraries, environment⟩⟩

/-! ### The network of an installation -/

inductive LibraryAcquisition where
  | exactDeclaration
  | freshStream
  deriving DecidableEq

/-- How the network acquires what a producer stands for. -/
def InstallerLibraryProducer.acquisition :
    InstallerLibraryProducer unicode → Option LibraryAcquisition
  | .exactNetwork => some .exactDeclaration
  | .freshNetwork => some .freshStream
  | .embedded | .terminal _ => none

structure DownloadJob (unicode : Unicode) where
  relativePath : PortableRelativePath unicode
  url : String
  name : String
  expected : ExpectedIntegrity
  isNative : Bool

structure ClassifiedLibraryDownload (unicode : Unicode) where
  job : DownloadJob unicode
  acquisition : LibraryAcquisition

structure ClassifiedLibraryReconstruction (unicode : Unicode) where
  plan : LibraryArtifactPlan unicode
  acquisition : LibraryAcquisition

def networkJob (jobs : List (ClassifiedLibraryDownload unicode))
    (selected : InstallerSelectedLibrary unicode) :
    Except SealedLibraryDeclarationError (List (ClassifiedLibraryDownload unicode)) :=
  match selected.producer.acquisition with
  | none => .ok jobs
  | some acquisition =>
    match selected.plan.sourceUrl with
    | none => .error .missingStreamSource
    | some url =>
      .ok (jobs ++ [⟨⟨selected.plan.relativePath, url, selected.plan.name, selected.plan.expected,
        selected.plan.isNative⟩, acquisition⟩])

def InstallerLibraryDeclarations.intoNetworkJobs
    (declarations : InstallerLibraryDeclarations unicode) :
    Except SealedLibraryDeclarationError
      (InstallerLibraryDeclarations unicode × List (ClassifiedLibraryDownload unicode)) := do
  let jobs ← ((tableItems declarations.selected).map (·.2)).foldlM networkJob []
  return (declarations, jobs)

def InstallerLibraryDeclarations.intoReconstructionJobs
    (declarations : InstallerLibraryDeclarations unicode) :
    InstallerLibraryDeclarations unicode × List (ClassifiedLibraryReconstruction unicode) :=
  (declarations, (tableItems declarations.selected).filterMap fun (_, selected) =>
    selected.producer.acquisition.map fun acquisition => ⟨selected.plan, acquisition⟩)

/-- A source that has been retained, from the network where it has an origin. -/
structure RetainedLibraryComponentSource (unicode : Unicode) where
  relativePath : PortableRelativePath unicode
  kind : SealedLibraryKind
  observedSha1 : Fixed 20
  observedSize : Nat
  networkOrigin : Option (String × ExpectedIntegrity)

abbrev SourceTable (unicode : Unicode) :=
  AList fun _ : PortableRelativePath unicode => RetainedLibraryComponentSource unicode

def collectSource (sources : SourceTable unicode)
    (source : RetainedLibraryComponentSource unicode) :
    Except SealedLibraryDeclarationError (SourceTable unicode) :=
  if source.relativePath ∈ sources then .error .duplicateDeclaration
  else .ok (sources.insert source.relativePath source)

structure NetworkState (unicode : Unicode) where
  sources : SourceTable unicode
  entries : DeclarationTable unicode
  networkSources : List (RetainedLibraryComponentSource unicode)

/-- Whether a source has what its plan asks of the network. -/
def sourceFits (plan : LibraryArtifactPlan unicode)
    (source : RetainedLibraryComponentSource unicode) : Bool :=
  match source.networkOrigin with
  | none => false
  | some (providerUrl, expected) =>
    source.kind = kindForPlan plan && providerUrl = plan.sourceUrl.getD "" &&
      expected = plan.expected

/-- The entries with what a source stands for, which an exact declaration has already. -/
def completeSource (exact : Bool) (entries : DeclarationTable unicode)
    (item : PortableRelativePath unicode × InstallerSelectedLibrary unicode)
    (source : RetainedLibraryComponentSource unicode) :
    Except SealedLibraryDeclarationError (DeclarationTable unicode) :=
  if exact then
    match entries.lookup item.1 with
    | none => .error .missingDeclaration
    | some declaration =>
      if declaration.sha1 ≠ source.observedSha1 ∨ declaration.size ≠ source.observedSize then
        .error .contractDrift
      else .ok entries
  else insertExactDeclaration entries item.2.plan source.observedSha1 source.observedSize true

def completeNetworkLibrary (state : NetworkState unicode)
    (item : PortableRelativePath unicode × InstallerSelectedLibrary unicode) :
    Except SealedLibraryDeclarationError (NetworkState unicode) :=
  match item.2.producer.acquisition with
  | none => .ok state
  | some acquisition =>
    match state.sources.lookup item.1 with
    | none => .error .missingDeclaration
    | some source =>
      if ¬ sourceFits item.2.plan source then .error .contractDrift
      else do
        validatePlanContract item.2.plan source.observedSha1 source.observedSize
        let entries ← completeSource (acquisition = .exactDeclaration) state.entries item source
        return ⟨state.sources.erase item.1, entries, state.networkSources ++ [source]⟩

/-- `PendingInstallerTerminalDeclarations`. -/
structure PendingInstallerTerminalDeclarations (unicode : Unicode) extends
    InstallerLibraryDeclarations unicode where
  networkSources : List (RetainedLibraryComponentSource unicode)

/-- `PendingInstallerNetworkDeclarations::complete_network`. -/
def InstallerLibraryDeclarations.completeNetwork
    (declarations : InstallerLibraryDeclarations unicode)
    (sources : List (RetainedLibraryComponentSource unicode)) :
    Except SealedLibraryDeclarationError (PendingInstallerTerminalDeclarations unicode) := do
  let sources ← sources.foldlM collectSource ∅
  let state ← (tableItems declarations.selected).foldlM completeNetworkLibrary
    ⟨sources, declarations.entries, []⟩
  if state.sources.entries ≠ [] then .error .extraDeclaration
  else return { declarations with entries := state.entries, networkSources := state.networkSources }

/-! ### The network of a reconstruction -/

structure ExactLibraryDownloadProof (unicode : Unicode) where
  path : PortableRelativePath unicode
  isNative : Bool
  providerUrl : String
  expected : ExpectedIntegrity
  size : Nat
  sha1 : Fixed 20

abbrev ProofTable (unicode : Unicode) :=
  AList fun _ : PortableRelativePath unicode => ExactLibraryDownloadProof unicode

def collectProof (streamed : ProofTable unicode) (proof : ExactLibraryDownloadProof unicode) :
    Except SealedLibraryDeclarationError (ProofTable unicode) :=
  if proof.size = 0 then .error .invalidExactDeclaration
  else if proof.path ∈ streamed then .error .duplicateDeclaration
  else .ok (streamed.insert proof.path proof)

/-- Whether a proof has what its plan asks of the network. -/
def proofFits (plan : LibraryArtifactPlan unicode) (path : PortableRelativePath unicode)
    (proof : ExactLibraryDownloadProof unicode) : Bool :=
  proof.path = path && (if proof.isNative then .native else .library) = kindForPlan plan &&
    proof.providerUrl = plan.sourceUrl.getD "" && proof.expected = plan.expected

def completeStreamedLibrary (state : ProofTable unicode × DeclarationTable unicode)
    (item : PortableRelativePath unicode × InstallerSelectedLibrary unicode) :
    Except SealedLibraryDeclarationError (ProofTable unicode × DeclarationTable unicode) :=
  if item.2.producer ≠ .freshNetwork then .ok state
  else
    match state.1.lookup item.1 with
    | none => .error .missingDeclaration
    | some proof =>
      if ¬ proofFits item.2.plan item.1 proof then .error .contractDrift
      else do
        validatePlanContract item.2.plan proof.sha1 proof.size
        let entries ← insertExactDeclaration state.2 item.2.plan proof.sha1 proof.size true
        return (state.1.erase item.1, entries)

/-- `PendingInstallerReconstructionDeclarations::complete_network`. -/
def InstallerLibraryDeclarations.completeReconstructionNetwork
    (declarations : InstallerLibraryDeclarations unicode)
    (streamed : List (ExactLibraryDownloadProof unicode)) :
    Except SealedLibraryDeclarationError (InstallerLibraryDeclarations unicode) := do
  let streamed ← streamed.foldlM collectProof ∅
  let state ← (tableItems declarations.selected).foldlM completeStreamedLibrary
    (streamed, declarations.entries)
  if state.1.entries ≠ [] then .error .extraDeclaration
  else return { declarations with entries := state.2 }

/-! ### Outputs of processors -/

structure VerifiedProcessorOutput where
  bytes : List UInt8
  size : Nat
  sha1 : Fixed 20
  expectation : BoundProcessorOutputExpectation

abbrev VerifiedProcessorOutputs (unicode : Unicode) :=
  AList fun _ : PortableRelativePath unicode => VerifiedProcessorOutput

/-- `into_parts_for_expectation`, which gives the output back. -/
def VerifiedProcessorOutput.forExpectation (output : VerifiedProcessorOutput)
    (expected : BoundProcessorOutputExpectation) :
    Except SealedLibraryDeclarationError VerifiedProcessorOutput :=
  if output.expectation ≠ expected then .error .contractDrift
  else
    match expected with
    | .derived _ => .ok output
    | .providerSha1 sha1 => if sha1 ≠ output.sha1 then .error .contractDrift else .ok output

/-- What both paths ask of the output for a terminal library. -/
def terminalOutput (outputs : VerifiedProcessorOutputs unicode)
    (path : PortableRelativePath unicode) (plan : LibraryArtifactPlan unicode)
    (contract : InstallerTerminalOutputContract unicode) :
    Except SealedLibraryDeclarationError VerifiedProcessorOutput :=
  match outputs.lookup path with
  | none => .error .missingDeclaration
  | some output => do
    let output ← output.forExpectation contract.expectation
    if output.size = 0 ∨ output.size ≠ output.bytes.length ∨ output.sha1 ≠ digest output.bytes ∨
        contract.size.any (· ≠ output.size) then
      .error .contractDrift
    else do
      validatePlanContract plan output.sha1 output.size
      return output

/-- `authenticated_local_component_source` and `authenticated_local_bytes_candidate`. -/
def authenticatedLocalSource (path : PortableRelativePath unicode)
    (plan : LibraryArtifactPlan unicode) (bytes : List UInt8) :
    Except SealedLibraryDeclarationError (RetainedLibraryComponentSource unicode) := do
  validatePlanContract plan (digest bytes) bytes.length
  if bytes.length = 0 then .error .contractDrift
  else return ⟨path, kindForPlan plan, digest bytes, bytes.length, none⟩

structure TerminalState (unicode : Unicode) where
  outputs : VerifiedProcessorOutputs unicode
  entries : DeclarationTable unicode
  sources : List (RetainedLibraryComponentSource unicode)

/-- The step of both paths for a library; `retain` is whether they keep its bytes. -/
def sealTerminalLibrary (retain : Bool) (state : TerminalState unicode)
    (item : PortableRelativePath unicode × InstallerSelectedLibrary unicode) :
    Except SealedLibraryDeclarationError (TerminalState unicode) :=
  match item.2.producer with
  | .exactNetwork | .freshNetwork | .embedded => .ok state
  | .terminal contract => do
    let output ← terminalOutput digest state.outputs item.1 item.2.plan contract
    let entries ← insertExactDeclaration state.entries item.2.plan output.sha1 output.size false
    if retain then do
      let source ← authenticatedLocalSource digest item.1 item.2.plan output.bytes
      return ⟨state.outputs.erase item.1, entries, state.sources ++ [source]⟩
    else return ⟨state.outputs.erase item.1, entries, state.sources⟩

/-- The sources with an embedded artifact, or `missing` where it is not selected. -/
def embeddedSource (missing : SealedLibraryDeclarationError) (selected : SelectedTable unicode)
    (sources : List (RetainedLibraryComponentSource unicode))
    (item : PortableRelativePath unicode × AuthenticatedEmbeddedMavenArtifact unicode) :
    Except SealedLibraryDeclarationError (List (RetainedLibraryComponentSource unicode)) :=
  match selected.lookup item.1 with
  | none => .error missing
  | some library =>
    if library.producer ≠ .embedded then .error .contractDrift
    else do
      let source ← authenticatedLocalSource digest item.2.relativePath library.plan item.2.bytes
      return sources ++ [source]

/-- The paths and the keys of the sources that have been compared. -/
abbrev ComparedPaths (unicode : Unicode) :=
  List (PortableRelativePath unicode) × List PortablePathKey

def validateInstallerSource (entries : DeclarationTable unicode) (compared : ComparedPaths unicode)
    (source : RetainedLibraryComponentSource unicode) :
    Except SealedLibraryDeclarationError (ComparedPaths unicode) :=
  if source.relativePath ∈ compared.1 ∨ source.relativePath.key ∈ compared.2 then
    .error .contractDrift
  else
    match entries.lookup source.relativePath with
    | none => .error .extraDeclaration
    | some expected =>
      if source.kind ≠ expected.kind ∨ source.observedSha1 ≠ expected.sha1 ∨
          source.observedSize ≠ expected.size then
        .error .contractDrift
      else
        .ok (source.relativePath :: compared.1, source.relativePath.key :: compared.2)

def validateInstallerSourceUnion (entries : DeclarationTable unicode)
    (sources : List (RetainedLibraryComponentSource unicode)) :
    Except SealedLibraryDeclarationError Unit := do
  let compared ← sources.foldlM (validateInstallerSource entries) ([], [])
  if compared.1.length ≠ entries.entries.length then .error .missingDeclaration else return ()

/-! ### Sealing -/

structure SealedInstallerLibrarySources (unicode : Unicode) where
  declarations : SealedExactLibraryDeclarations unicode
  sources : List (RetainedLibraryComponentSource unicode)

/-- `seal_outputs`. -/
def PendingInstallerTerminalDeclarations.sealTerminalOutputs
    (pending : PendingInstallerTerminalDeclarations unicode)
    (outputs : VerifiedProcessorOutputs unicode) :
    Except SealedLibraryDeclarationError (SealedInstallerLibrarySources unicode) := do
  let state ← (tableItems pending.selected).foldlM (sealTerminalLibrary digest true)
    ⟨outputs, pending.entries, pending.networkSources⟩
  if state.outputs.entries ≠ [] then .error .extraDeclaration
  else do
    let sources ← (tableItems pending.embedded).foldlM (embeddedSource digest .contractDrift
      pending.selected) state.sources
    if state.entries.entries.length ≠ pending.selected.entries.length then
      .error .missingDeclaration
    else do
      validateInstallerSourceUnion state.entries sources
      return ⟨⟨state.entries, pending.contract⟩, sources⟩

def PendingInstallerTerminalDeclarations.sealWithoutTerminalOutputs
    (pending : PendingInstallerTerminalDeclarations unicode) :
    Except SealedLibraryDeclarationError (SealedInstallerLibrarySources unicode) :=
  if (tableItems pending.selected).any (fun item => item.2.producer.isTerminal) ∨
      pending.entries.entries.length ≠ pending.selected.entries.length then
    .error .missingDeclaration
  else do
    let sources ← (tableItems pending.embedded).foldlM (embeddedSource digest .contractDrift
      pending.selected) pending.networkSources
    validateInstallerSourceUnion pending.entries sources
    return ⟨⟨pending.entries, pending.contract⟩, sources⟩

/-- The step of a reconstruction that takes what is declared of a terminal library. -/
def sealDeclaredLibrary (entries : DeclarationTable unicode)
    (item : PortableRelativePath unicode × InstallerSelectedLibrary unicode) :
    Except SealedLibraryDeclarationError (DeclarationTable unicode) :=
  match item.2.producer with
  | .exactNetwork | .freshNetwork | .embedded => .ok entries
  | .terminal contract =>
    match contract.expectation, contract.size with
    | .providerSha1 sha1, some size => do
      validatePlanContract item.2.plan sha1 size
      insertExactDeclaration entries item.2.plan sha1 size false
    | .derived _, _ | .providerSha1 _, none => .error .missingDeclaration

def InstallerLibraryDeclarations.reconstructionSources (retainSources : Bool)
    (declarations : InstallerLibraryDeclarations unicode)
    (sources : List (RetainedLibraryComponentSource unicode)) :
    Except SealedLibraryDeclarationError (List (RetainedLibraryComponentSource unicode)) :=
  if retainSources then
    (tableItems declarations.embedded).foldlM
      (embeddedSource digest .missingDeclaration declarations.selected) sources
  else .ok sources

def InstallerLibraryDeclarations.sealDeclaredTerminalOutputs
    (declarations : InstallerLibraryDeclarations unicode) (retainSources : Bool) :
    Except SealedLibraryDeclarationError (SealedInstallerLibrarySources unicode) :=
  if retainSources ∧ (tableItems declarations.selected).any (fun item => item.2.producer.isTerminal)
    then .error .missingDeclaration
  else do
    let entries ← (tableItems declarations.selected).foldlM sealDeclaredLibrary declarations.entries
    if entries.entries.length ≠ declarations.selected.entries.length then
      .error .missingDeclaration
    else do
      let sources ← declarations.reconstructionSources digest retainSources []
      return ⟨⟨entries, declarations.contract⟩, sources⟩

def InstallerLibraryDeclarations.sealObservedTerminalOutputs
    (declarations : InstallerLibraryDeclarations unicode)
    (outputs : VerifiedProcessorOutputs unicode) (retainSources : Bool) :
    Except SealedLibraryDeclarationError (SealedInstallerLibrarySources unicode) := do
  let state ← (tableItems declarations.selected).foldlM (sealTerminalLibrary digest retainSources)
    ⟨outputs, declarations.entries, []⟩
  if state.outputs.entries ≠ [] then .error .extraDeclaration
  else if state.entries.entries.length ≠ declarations.selected.entries.length then
    .error .missingDeclaration
  else do
    let sources ← declarations.reconstructionSources digest retainSources state.sources
    return ⟨⟨state.entries, declarations.contract⟩, sources⟩

/-! ### The two paths -/

/-- An installation, with the outputs of its processors where it has them. -/
def InstallerLibraryDeclarations.install (declarations : InstallerLibraryDeclarations unicode)
    (sources : List (RetainedLibraryComponentSource unicode))
    (outputs : Option (VerifiedProcessorOutputs unicode)) :
    Except SealedLibraryDeclarationError (SealedInstallerLibrarySources unicode) := do
  let (pending, _) ← declarations.intoNetworkJobs
  let pending ← pending.completeNetwork sources
  match outputs with
  | some outputs => pending.sealTerminalOutputs digest outputs
  | none => pending.sealWithoutTerminalOutputs digest

/-- A reconstruction, by outputs that are observed or else by what is declared of them. -/
def InstallerLibraryDeclarations.reconstruct (declarations : InstallerLibraryDeclarations unicode)
    (streamed : List (ExactLibraryDownloadProof unicode))
    (outputs : Option (VerifiedProcessorOutputs unicode)) (retainSources : Bool) :
    Except SealedLibraryDeclarationError (SealedInstallerLibrarySources unicode) := do
  let pending ← declarations.intoReconstructionJobs.1.completeReconstructionNetwork streamed
  match outputs with
  | some outputs => pending.sealObservedTerminalOutputs digest outputs retainSources
  | none => pending.sealDeclaredTerminalOutputs digest retainSources

end Axial.Minecraft
