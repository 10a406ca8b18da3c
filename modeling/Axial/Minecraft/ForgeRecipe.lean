/-
This file models the recipe of the modern installers of Forge and NeoForge, whose processors
may leave their outputs out: the six steps that are recognized, and what each of them makes.
-/

import Axial.Minecraft.ForgeProcessors

namespace Axial.Minecraft

open Bytes

/-! ### The build and its fragment -/

inductive LoaderInstallStrategy where
  | fabricProfile
  | quiltProfile
  | forgeModern
  | forgeLegacyInstaller
  | forgeEarliestLegacy
  | neoForgeModern
  deriving DecidableEq

structure LoaderBuildRecord where
  componentId : LoaderComponentId
  strategy : LoaderInstallStrategy
  minecraftVersion : String
  loaderVersion : String

structure Argument where
  rules : List Rule
  value : List String

structure LoaderProfileFragment where
  mainClass : String
  /-- The arguments of the game, where the fragment has a section of arguments. -/
  game : Option (List Argument)

variable {unicode : Unicode}

/-- `encode_sha1`. -/
def encodeSha1 (sha1 : Fixed 20) : String :=
  String.ofList (sha1.val.flatMap fun byte =>
    [Axial.Fs.hexDigit (byte.toNat / 16), Axial.Fs.hexDigit (byte.toNat % 16)])

/-! ### Runtime arguments -/

/-- Each flag stands once, before its value. -/
def flagsFit (args : List String) (expected : List (String × String)) : Bool :=
  expected.all fun (flag, value) =>
    match args.idxsOf flag with
    | [position] => args[position + 1]? = some value
    | _ => false

def validateRecipeRuntimeArguments (version : LoaderProfileFragment)
    (expected : List (String × String)) : Except ForgeInstallerError Unit :=
  match version.game with
  | none => .error .invalidForgeProcessor
  | some game =>
    check .invalidForgeProcessor
      (version.mainClass = "cpw.mods.bootstraplauncher.BootstrapLauncher" &&
        game.all (·.rules = []) && flagsFit (game.flatMap (·.value)) expected)

def validateForgeRuntimeArguments (version : LoaderProfileFragment) (record : LoaderBuildRecord)
    (mcp : String) : Except ForgeInstallerError Unit :=
  validateRecipeRuntimeArguments version
    [("--launchTarget", "forgeclient"), ("--fml.forgeVersion", record.loaderVersion),
      ("--fml.mcVersion", record.minecraftVersion), ("--fml.forgeGroup", "net.minecraftforge"),
      ("--fml.mcpVersion", mcp)]

def validateNeoforgeRuntimeArguments (version : LoaderProfileFragment)
    (record : LoaderBuildRecord) (mcp : String) (libraries : List Library) :
    Except ForgeInstallerError Unit :=
  match (stripPrefix (record.minecraftVersion ++ "-") mcp).filter (· ≠ "") with
  | none => .error .invalidForgeProcessor
  | some neoform =>
    match libraries.filterMap fun library =>
        stripPrefix "net.neoforged.fancymodloader:loader:" library.name with
    | [fml] =>
      if fml = "" ∨ ':' ∈ fml.toList ∨ '@' ∈ fml.toList then .error .invalidForgeProcessor
      else
        validateRecipeRuntimeArguments version
          [("--launchTarget", "forgeclient"), ("--fml.neoForgeVersion", record.loaderVersion),
            ("--fml.fmlVersion", fml), ("--fml.mcVersion", record.minecraftVersion),
            ("--fml.neoFormVersion", neoform)]
    | _ => .error .invalidForgeProcessor

/-! ### Generated libraries -/

/-- The library that a recipe adds for an artifact that it makes. -/
def generatedLibrary (artifact : BoundProcessorArtifact unicode) (sha1 : Option (Fixed 20)) :
    Library where
  name := artifact.coordinate
  downloads := some ⟨some ⟨artifact.relativePath.value, (sha1.map encodeSha1).getD "", 0, ""⟩, []⟩
  url := ""
  rules := []
  natives := []
  sha1 := ""
  checksums := []
  size := 0

/-- Binds an artifact to the library of its name, or adds one, and returns the digest that is
known of it. -/
def bindGeneratedRuntimeLibrary (regex : Regex) (env : Environment) (libraries : List Library)
    (artifact : BoundProcessorArtifact unicode) (sha1 : Option (Fixed 20)) :
    Except ForgeInstallerError (List Library × Option (Fixed 20)) :=
  match libraries.find? (·.name = artifact.coordinate) with
  | none => .ok (libraries ++ [generatedLibrary artifact sha1], sha1)
  | some library =>
    match libraryArtifactPlansFor unicode regex [library] env with
    | .ok [plan] =>
      if plan.relativePath ≠ artifact.relativePath ∨ plan.isNative then
        .error .invalidForgeProcessorFinalOutput
      else
        match plan.expected.sha1 with
        | none => .ok (libraries, sha1)
        | some declared =>
          match decodeProcessorSha1 declared with
          | none => .error .invalidForgeProcessorFinalOutput
          | some declared =>
            if sha1.any (· ≠ declared) then .error .invalidForgeProcessorFinalOutput
            else .ok (libraries, some declared)
    | _ => .error .invalidForgeProcessorFinalOutput

/-! ### The recipe -/

structure ForgeRecipeStep (unicode : Unicode) where
  action : BoundProcessorAction unicode
  outputs : List (BoundProcessorArtifact unicode × BoundProcessorOutputExpectation)

def braced (token : String) : String := "\x7b" ++ token ++ "\x7d"

/-- The coordinates that the data of a recipe are to name. -/
def recipeCoordinates (mcpRoot minecraftRoot loaderRoot : String) : List (String × String) :=
  [("MAPPINGS", mcpRoot ++ ":mappings@txt"), ("MOJMAPS", minecraftRoot ++ ":mappings@txt"),
    ("MERGED_MAPPINGS", mcpRoot ++ ":mappings-merged@txt"), ("MC_SLIM", minecraftRoot ++ ":slim"),
    ("MC_EXTRA", minecraftRoot ++ ":extra"), ("MC_SRG", minecraftRoot ++ ":srg"),
    ("PATCHED", loaderRoot ++ ":client")]

def recipeArgs (neoforge : Bool) (mcpArg minecraftVersion : String) : List (List String) :=
  [["--task", "MCP_DATA", "--input", mcpArg, "--output", braced "MAPPINGS", "--key", "mappings"],
    ["--task", "DOWNLOAD_MOJMAPS", "--version", minecraftVersion, "--side", braced "SIDE",
      "--output", braced "MOJMAPS"],
    ["--task", "MERGE_MAPPING", "--left", braced "MAPPINGS", "--right", braced "MOJMAPS",
      "--output", braced "MERGED_MAPPINGS", "--classes"] ++
      (if neoforge then ["--fields", "--methods"] else []) ++ ["--reverse-right"],
    ["--input", braced "MINECRAFT_JAR", "--slim", braced "MC_SLIM", "--extra", braced "MC_EXTRA",
      "--srg", braced "MERGED_MAPPINGS"],
    ["--input", braced "MC_SLIM", "--output", braced "MC_SRG", "--names",
      braced "MERGED_MAPPINGS", "--ann-fix", "--ids-fix", "--src-fix", "--record-fix"],
    ["--clean", braced "MC_SRG", "--output", braced "PATCHED", "--apply", braced "BINPATCH"]]

/-- The group, the name and the classifier of the tool of each step. -/
def recipeTools (neoforge : Bool) : List (String × String × Option String) :=
  if neoforge then
    [("net.neoforged.installertools", "installertools", none),
      ("net.neoforged.installertools", "installertools", none),
      ("net.neoforged.installertools", "installertools", none),
      ("net.neoforged.installertools", "jarsplitter", none),
      ("net.neoforged", "AutoRenamingTool", some "all"),
      ("net.neoforged.installertools", "binarypatcher", some "fatjar")]
  else
    [("net.minecraftforge", "installertools", none),
      ("net.minecraftforge", "installertools", none),
      ("net.minecraftforge", "installertools", none),
      ("net.minecraftforge", "jarsplitter", none),
      ("net.minecraftforge", "ForgeAutoRenamingTool", some "all"),
      ("net.minecraftforge", "binarypatcher", none)]

def recipeToolFits (unicode : Unicode) (processor : ProcessorDeclaration) (args : List String)
    (tool : String × String × Option String) : Except ForgeInstallerError Unit := do
  let artifact ← parseProcessorArtifact unicode processor.jar
  let parts := splitOn ':' artifact.coordinate
  check .invalidForgeProcessor
    (parts[0]? = some tool.1 && parts[1]? = some tool.2.1 && parts[3]? = tool.2.2 &&
      parts.length = (if tool.2.2.isSome then 4 else 3) && '@' ∉ artifact.coordinate.toList &&
      processor.args = args)

/-- The outputs of each step, with the data that hold their digests. -/
def recipeOutputs (neoforge : Bool) (data : ProcessorDataTable unicode) :
    List (List (String × Option String)) :=
  let digestKey (key : String) := if ¬ neoforge ∨ key ∈ data then some key else none
  [[("MAPPINGS", none)], [("MOJMAPS", none)], [("MERGED_MAPPINGS", none)],
    [("MC_SLIM", digestKey "MC_SLIM_SHA"), ("MC_EXTRA", digestKey "MC_EXTRA_SHA")],
    [("MC_SRG", if "MC_SRG_SHA" ∈ data then some "MC_SRG_SHA" else none)],
    [("PATCHED", digestKey "PATCHED_SHA")]]

/-- The outputs that a processor declares, under their paths. -/
abbrev DeclaredOutputs (unicode : Unicode) := AList fun _ : PortableRelativePath unicode => Fixed 20

/-- The outputs that a processor of a recipe declares itself. -/
def declaredRecipeOutputs (data : ProcessorDataTable unicode) (outputs : List (String × String)) :
    Except ForgeInstallerError (DeclaredOutputs unicode) :=
  outputs.foldlM (fun declared (target, digest) => do
    let artifact ← resolveProcessorOutputArtifact data target
    let sha1 ← resolveProcessorOutputSha1 data digest
    if artifact.relativePath ∈ declared then .error .invalidForgeProcessorOutput
    else return declared.insert artifact.relativePath sha1) ∅

/-- Takes what a processor that declares its outputs says of one, beside what the data say. -/
def authoredSha1 (authored : Bool) (declared : DeclaredOutputs unicode)
    (artifact : BoundProcessorArtifact unicode) (sha1 : Option (Fixed 20)) :
    Except ForgeInstallerError (DeclaredOutputs unicode × Option (Fixed 20)) :=
  if ¬ authored then .ok (declared, sha1)
  else
    match declared.lookup artifact.relativePath with
    | none => .error .invalidForgeProcessorOutput
    | some found =>
      if sha1.any (· ≠ found) then .error .invalidForgeProcessorOutput
      else .ok (declared.erase artifact.relativePath, some found)

/-- The digest that the data hold, where a key is given. -/
def keyedSha1 (data : ProcessorDataTable unicode) (key : Option String) :
    Except ForgeInstallerError (Option (Fixed 20)) :=
  match key with
  | none => .ok none
  | some key => (resolveProcessorOutputSha1 data (braced key)).map some

/-- The library of an output that the game runs with. -/
def bindRuntimeOutput (regex : Regex) (env : Environment) (libraries : List Library)
    (token : String) (artifact : BoundProcessorArtifact unicode) (sha1 : Option (Fixed 20)) :
    Except ForgeInstallerError (List Library × Option (Fixed 20)) :=
  if token ∈ ["MC_SRG", "MC_EXTRA", "PATCHED"] then
    bindGeneratedRuntimeLibrary regex env libraries artifact sha1
  else .ok (libraries, sha1)

/-- What has been bound of the outputs of a processor. -/
structure RecipeOutputs (unicode : Unicode) where
  libraries : List Library
  declared : DeclaredOutputs unicode
  bound : List (BoundProcessorArtifact unicode × Option (Fixed 20))

def bindRecipeOutput (regex : Regex) (env : Environment) (data : ProcessorDataTable unicode)
    (authored : Bool) (outputs : RecipeOutputs unicode) (token : String) (key : Option String) :
    Except ForgeInstallerError (RecipeOutputs unicode) := do
  let artifact ← resolveProcessorOutputArtifact data (braced token)
  let sha1 ← keyedSha1 data key
  let (declared, sha1) ← authoredSha1 authored outputs.declared artifact sha1
  let (libraries, sha1) ← bindRuntimeOutput regex env outputs.libraries token artifact sha1
  return ⟨libraries, declared, outputs.bound ++ [(artifact, sha1)]⟩

def bindRecipeOutputs (regex : Regex) (env : Environment) (data : ProcessorDataTable unicode)
    (libraries : List Library) (outputs : List (String × String))
    (specs : List (String × Option String)) :
    Except ForgeInstallerError
      (List Library × List (BoundProcessorArtifact unicode × Option (Fixed 20))) := do
  let declared ← declaredRecipeOutputs data outputs
  check .invalidForgeProcessorOutput
    (declared.keys = [] || declared.keys.length = specs.length)
  let bound ← specs.foldlM (fun outputs (token, key) =>
    bindRecipeOutput regex env data (declared.keys ≠ []) outputs token key)
    ⟨libraries, declared, []⟩
  return (bound.libraries, bound.bound)

/-- The texts that the coordinates of a recipe begin with: of Minecraft, of its mappings and of
the loader. -/
structure RecipeRoots where
  neoforge : Bool
  minecraftMcp : String
  mcpRoot : String
  loaderRoot : String

def recipeRoots (record : LoaderBuildRecord) (version : LoaderProfileFragment)
    (libraries : List Library) (mcp : String) : Except ForgeInstallerError RecipeRoots :=
  match record.componentId, record.strategy with
  | .forge, .forgeModern => do
    validateForgeRuntimeArguments version record mcp
    let minecraftMcp := record.minecraftVersion ++ "-" ++ mcp
    return ⟨false, minecraftMcp, "de.oceanlabs.mcp:mcp_config:" ++ minecraftMcp,
      "net.minecraftforge:forge:" ++ record.minecraftVersion ++ "-" ++ record.loaderVersion⟩
  | .neoForge, .neoForgeModern => do
    validateNeoforgeRuntimeArguments version record mcp libraries
    return ⟨true, mcp, "net.neoforged:neoform:" ++ mcp,
      "net.neoforged:neoforge:" ++ record.loaderVersion⟩
  | _, _ => .error .invalidForgeProcessor

def literalData (data : ProcessorDataTable unicode) (key : String) :
    Except ForgeInstallerError String :=
  match data.lookup key with
  | some (.literal value) => .ok value
  | some (.artifact _) | some (.installerData _) | none => .error .invalidForgeProcessorData

/-- The processors that run on the client. -/
def clientProcessors (profile : InstallProfileDeclarations) :
    Except ForgeInstallerError (List ProcessorDeclaration) :=
  profile.processors.filterM fun processor => validateProcessorSides processor.sides

/-- The data of a recipe name what its steps are known to make. -/
def checkRecipeData (data : ProcessorDataTable unicode) (roots : RecipeRoots) :
    Except ForgeInstallerError Unit := do
  let minecraftRoot := "net.minecraft:client:" ++ roots.minecraftMcp
  (recipeCoordinates roots.mcpRoot minecraftRoot roots.loaderRoot).forM
    fun (token, coordinate) => do
      let artifact ← resolveProcessorOutputArtifact data (braced token)
      check .invalidForgeProcessorOutput (artifact.coordinate = coordinate)
  match data.lookup "BINPATCH" with
  | some (.installerData path) => check .invalidForgeProcessorData (path.value = "data/client.lzma")
  | some (.artifact _) | some (.literal _) | none => .error .invalidForgeProcessorData

/-- What each step of a recipe does. -/
def recipeAction (mcpInput : BoundProcessorArtifact unicode) :
    Nat → BoundProcessorAction unicode
  | 0 => .extractMcpMappings mcpInput
  | 1 => .downloadMojmaps
  | 3 => .splitJar
  | _ => .java

/-- The outputs of all the steps of a recipe, with the libraries that they add. -/
def bindRecipeSteps (regex : Regex) (env : Environment) (data : ProcessorDataTable unicode)
    (neoforge : Bool) (client : List ProcessorDeclaration) (libraries : List Library) :
    Except ForgeInstallerError
      (List Library × List (List (BoundProcessorArtifact unicode × Option (Fixed 20)))) :=
  (client.zip (recipeOutputs neoforge data)).foldlM (fun (libraries, pending) (processor, specs) => do
    let (libraries, outputs) ←
      bindRecipeOutputs regex env data libraries processor.outputs specs
    return (libraries, pending ++ [outputs])) (libraries, [])

/-- The expectation of an output: its digest, or that it is derived with the others. -/
def recipeExpectation (derivation : ProcessorDerivation) (sha1 : Option (Fixed 20)) :
    BoundProcessorOutputExpectation :=
  match sha1 with
  | some sha1 => .providerSha1 sha1
  | none => .derived derivation

/-- Returns the steps and the libraries, with those that the steps generate. -/
def bindModernClientRecipe (regex : Regex) (env : Environment) (derivation : ProcessorDerivation)
    (record : LoaderBuildRecord) (version : LoaderProfileFragment)
    (profile : InstallProfileDeclarations) (data : ProcessorDataTable unicode)
    (libraries : List Library) :
    Except ForgeInstallerError (List Library × List (ForgeRecipeStep unicode)) := do
  let client ← clientProcessors profile
  check .missingForgeProcessorOutputs (client.length = 6)
  let mcp ← literalData data "MCP_VERSION"
  let roots ← recipeRoots record version libraries mcp
  checkRecipeData data roots
  let mcpInput ← parseProcessorArtifact unicode (roots.mcpRoot ++ "@zip")
  let mcpArg := "[" ++ mcpInput.coordinate ++ "]"
  ((client.zip (recipeArgs roots.neoforge mcpArg record.minecraftVersion)).zip
    (recipeTools roots.neoforge)).forM fun ((processor, args), tool) =>
      recipeToolFits unicode processor args tool
  check .invalidForgeProcessor
    (client[0]?.map (·.jar) = client[1]?.map (·.jar) &&
      client[0]?.map (·.jar) = client[2]?.map (·.jar))
  let (libraries, pending) ← bindRecipeSteps regex env data roots.neoforge client libraries
  return (libraries, pending.mapIdx fun index outputs =>
    ⟨recipeAction mcpInput index, outputs.map fun (artifact, sha1) =>
      (artifact, recipeExpectation derivation sha1)⟩)

end Axial.Minecraft
