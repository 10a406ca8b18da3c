/-
This file models the libraries that a version declares and the artifacts that are planned
for them: the rules that select a library for an environment, the paths of Maven
coordinates, and the integrity that a declaration promises, as
`core/minecraft/src/download/libraries.rs` and `core/minecraft/src/rules` have them. Maps
are association lists; their order only decides which of several errors is told.
-/

import Axial.Minecraft.LoaderIdentity

namespace Axial.Minecraft

open Bytes

/-! ### Texts -/

def startsWith (value start : String) : Bool := start.toList.isPrefixOf value.toList

def endsWith (value final : String) : Bool := final.toList.isSuffixOf value.toList

def containsText (value text : String) : Bool := decide (text.toList <:+: value.toList)

/-- Replaces the occurrences of a text from the left, each after the one before. -/
def replaceChars (pattern replacement : List Char) : Nat → List Char → List Char
  | 0, chars => chars
  | fuel + 1, chars =>
    match chars with
    | [] => []
    | char :: rest =>
      if pattern ≠ [] ∧ pattern <+: chars then
        replacement ++ replaceChars pattern replacement fuel (chars.drop pattern.length)
      else char :: replaceChars pattern replacement fuel rest

/-- `str::replace` of a text that is not empty. -/
def replaceText (value pattern replacement : String) : String :=
  String.ofList (replaceChars pattern.toList replacement.toList value.toList.length value.toList)

def splitOn (separator : Char) (value : String) : List String :=
  (value.toList.splitOn separator).map String.ofList

/-- `eq_ignore_ascii_case`. -/
def eqIgnoreAsciiCase (first second : String) : Bool :=
  toAsciiLowercase first = toAsciiLowercase second

/-- `is_ascii_hexdigit`. -/
def isHexDigit (char : Char) : Bool :=
  char.isDigit || ('a' ≤ char && char ≤ 'f') || ('A' ≤ char && char ≤ 'F')

/-- `is_sha1_hex`. -/
def isSha1Hex (value : String) : Bool :=
  decide ((utf8 value).length = 40) && value.toList.all isHexDigit

/-! ### Rules -/

structure OsRule where
  name : String
  arch : String
  version : String
  deriving DecidableEq

structure Rule where
  action : String
  os : Option OsRule
  features : Option (List (String × Bool))
  deriving DecidableEq

structure Environment where
  osName : String
  osArch : String
  osVersion : String
  features : List (String × Bool)
  deriving DecidableEq

/-- Whether a text matches a regular expression, where that is one. -/
abbrev Regex := String → String → Option Bool

def OsRule.fits (regex : Regex) (os : OsRule) (env : Environment) : Bool :=
  (os.name = "" || os.name = env.osName) && (os.arch = "" || os.arch = env.osArch) &&
    (os.version = "" || env.osVersion ≠ "" && regex os.version env.osVersion = some true)

def ruleMatches (regex : Regex) (rule : Rule) (env : Environment) : Bool :=
  rule.os.all (·.fits regex env) &&
    rule.features.all fun features => features.all fun (feature, required) =>
      match env.features.lookup feature with
      | some actual => actual = required
      | none => !required

def evaluateRules (regex : Regex) (rules : List Rule) (env : Environment) : Bool :=
  rules = [] || (rules.foldl (fun action rule =>
    if ruleMatches regex rule env then rule.action else action) "disallow") = "allow"

def isNativeLibrary (name : String) : Bool := containsText (toAsciiLowercase name) "natives-"

/-- `default_environment` for a system. -/
def defaultEnvironment (osName osArch : String) : Environment where
  osName := osName
  osArch := osArch
  osVersion := ""
  features := [("is_demo_user", false), ("has_custom_resolution", false),
    ("has_quick_plays_support", false), ("is_quick_play_singleplayer", false),
    ("is_quick_play_multiplayer", false), ("is_quick_play_realms", false)]

/-! ### Declarations -/

structure LibraryArtifact where
  path : String
  sha1 : String
  size : Int
  url : String
  deriving DecidableEq

structure LibraryDownload where
  artifact : Option LibraryArtifact
  classifiers : List (String × LibraryArtifact)
  deriving DecidableEq

structure Library where
  name : String
  downloads : Option LibraryDownload
  url : String
  rules : List Rule
  natives : List (String × String)
  sha1 : String
  checksums : List String
  size : Int
  deriving DecidableEq

/-! ### Paths of coordinates -/

/-- `PathBuf::join`, with `/` between the parts. -/
def pathJoin (path part : String) : String :=
  if startsWith part "/" then part
  else if path = "" ∨ endsWith path "/" then path ++ part
  else path ++ "/" ++ part

/-- The components of a path that has only normal ones. -/
def normalComponents (path : String) : Option (List String) :=
  let names := (segments path).filter (· ≠ "")
  if startsWith path "/" ∨ names.head? = some "." ∨ ".." ∈ names then none
  else some (names.filter (· ≠ "."))

variable {unicode : Unicode}

def PortableRelativePath.newExact (unicode : Unicode) (value : String) :
    Option (PortableRelativePath unicode) :=
  (PortableRelativePath.new unicode value).filter fun path => path.value = value

def PortableRelativePath.fromPath (unicode : Unicode) (path : String) :
    Option (PortableRelativePath unicode) :=
  match (normalComponents path).bind (·.mapM (PortableFileName.new unicode)) with
  | none => none
  | some names =>
    if some : names ≠ [] then
      if bounded : boundedPath (joinSegments (names.map PortableFileName.value)) = true then
        .some ⟨_, names_of_names some, bounded⟩
      else none
    else none

/-- What stands before the last `@`, and what stands after it. -/
def rsplitAt (value : String) : Option (String × String) :=
  match splitOn '@' value with
  | [] | [_] => none
  | parts => parts.getLast?.map fun last => ("@".intercalate parts.dropLast, last)

/-- `trim().trim_start_matches('.')`. -/
def trimExtension (value : String) : String :=
  String.ofList ((trim value).toList.dropWhile (· = '.'))

def mavenToPath (coordinate : String) : String :=
  let (coordinate, extension) := match rsplitAt coordinate with
    | none => (coordinate, "jar")
    | some (coordinate, raw) =>
      (coordinate, if trimExtension raw = "" then "jar" else trimExtension raw)
  match splitOn ':' coordinate with
  | group :: artifact :: version :: rest =>
    let classifier := match rest with
      | [] => ""
      | classifier :: _ => "-" ++ classifier
    let filename := artifact ++ "-" ++ version ++ classifier ++ "." ++ extension
    let group := String.ofList (group.toList.map fun char => if char = '.' then '/' else char)
    pathJoin (pathJoin (pathJoin group artifact) version) filename
  | _ => ""

/-! ### Plans -/

structure ExpectedIntegrity where
  size : Option Nat
  sha1 : Option String
  deriving DecidableEq

/-- `u64::try_from(size).ok().filter(|value| *value > 0)`. -/
def positiveSize (size : Int) : Option Nat := if 0 < size then some size.toNat else none

def ExpectedIntegrity.fromMojang (size : Int) (sha1 : String) : ExpectedIntegrity where
  size := positiveSize size
  sha1 := if trim sha1 = "" then none else some (trim sha1)

inductive LibraryPlanError where
  | invalidArtifactPath
  | invalidChecksum
  | conflictingArtifactIntegrity
  | conflictingArtifactPath

@[ext]
structure LibraryArtifactPlan (unicode : Unicode) where
  relativePath : PortableRelativePath unicode
  sourceUrl : Option String
  name : String
  expected : ExpectedIntegrity
  isNative : Bool
  deriving DecidableEq

def artifactRelativePath (unicode : Unicode) (value : String) :
    Except LibraryPlanError (PortableRelativePath unicode) :=
  match PortableRelativePath.newExact unicode value with
  | none => .error .invalidArtifactPath
  | some path => .ok path

/-- The path of a coordinate, which is none where the coordinate has too few parts. -/
def mavenRelativePath (unicode : Unicode) (coordinate : String) :
    Except LibraryPlanError (PortableRelativePath unicode) :=
  match PortableRelativePath.fromPath unicode (mavenToPath coordinate) with
  | none => .error .invalidArtifactPath
  | some path => .ok path

def artifactName (path : PortableRelativePath unicode) (fallback : String) : String :=
  let name := (segments path.value).getLastD path.value
  if trim name = "" then fallback else name

def nonemptyUrl (value : String) : Option String := if trim value = "" then none else some value

def mavenUrl (lib : Library) (path : PortableRelativePath unicode) : String :=
  let baseUrl :=
    if lib.url = "" then "https://libraries.minecraft.net/"
    else if endsWith lib.url "/" then lib.url
    else lib.url ++ "/"
  let baseUrl :=
    if baseUrl = "http://repo.maven.apache.org/maven2/" then
      "https://repo.maven.apache.org/maven2/"
    else baseUrl
  baseUrl ++ path.value

/-- The first of the legacy checksums, all of which are to be well formed. -/
def legacySha1 (checksums : List String) : Except LibraryPlanError (Option String) :=
  let present := (checksums.map trim).filter (· ≠ "")
  if present.all isSha1Hex then .ok present.head? else .error .invalidChecksum

/-- The integrity by the digest of a declaration, or else by a legacy checksum. -/
def chosenIntegrity (size : Int) (sha1 : String) (legacy : Option String) :
    Except LibraryPlanError ExpectedIntegrity :=
  if sha1 ≠ "" then
    if isSha1Hex sha1 then .ok (.fromMojang size sha1) else .error .invalidChecksum
  else
    match legacy with
    | some checksum => .ok ⟨positiveSize size, some checksum⟩
    | none => .ok (.fromMojang size "")

def libraryExpectedIntegrity (lib : Library) (size : Int) (sha1 : String)
    (compareTopLevel : Bool) : Except LibraryPlanError ExpectedIntegrity :=
  if ¬ compareTopLevel then
    if trim sha1 ≠ "" ∧ ¬ isSha1Hex (trim sha1) then .error .invalidChecksum
    else .ok (.fromMojang size (trim sha1))
  else if (trim sha1 ≠ "" ∧ trim lib.sha1 ≠ "" ∧
        ¬ eqIgnoreAsciiCase (trim sha1) (trim lib.sha1)) ∨
      (0 < size ∧ 0 < lib.size ∧ size ≠ lib.size) then
    .error .conflictingArtifactIntegrity
  else do
    let legacy ← legacySha1 lib.checksums
    chosenIntegrity size (if trim sha1 = "" then trim lib.sha1 else trim sha1) legacy

def nativeClassifierCandidates (lib : Library) (osName osArch : String) : List String :=
  match lib.natives.lookup osName with
  | none => []
  | some base =>
    let arch := "$\x7barch\x7d"
    let variants :=
      if osArch = "x86_64" then
        [replaceText base arch "64", replaceText base ("-" ++ arch) "",
          replaceText base arch "x86_64"]
      else if osArch = "x86" then [replaceText base arch "32", replaceText base arch "x86"]
      else if osArch = "arm64" then [replaceText base arch "arm64", replaceText base arch "64"]
      else [replaceText base arch osArch]
    variants.foldl (fun candidates variant =>
      if variant ≠ "" ∧ variant ∉ candidates then candidates ++ [variant] else candidates) []

/-- The artifact that the downloads of a library name for it. -/
def Library.directArtifact (lib : Library) : Option LibraryArtifact :=
  lib.downloads.bind (·.artifact)

def resolveLibraryPlan (unicode : Unicode) (lib : Library) :
    Except LibraryPlanError (Option (LibraryArtifactPlan unicode)) :=
  match lib.directArtifact with
  | some artifact => do
    let relativePath ← artifactRelativePath unicode artifact.path
    let expected ← libraryExpectedIntegrity lib artifact.size artifact.sha1 true
    return some ⟨relativePath, nonemptyUrl artifact.url, artifactName relativePath lib.name,
      expected, false⟩
  | none =>
    if lib.natives ≠ [] then .ok none
    else do
      let relativePath ← mavenRelativePath unicode lib.name
      let expected ← libraryExpectedIntegrity lib lib.size lib.sha1 true
      return some ⟨relativePath, some (mavenUrl lib relativePath),
        artifactName relativePath lib.name, expected, false⟩

def resolveNativePlan (unicode : Unicode) (lib : Library) (osName osArch : String) :
    Except LibraryPlanError (Option (LibraryArtifactPlan unicode)) :=
  let candidates := nativeClassifierCandidates lib osName osArch
  let classified := candidates.findSome? fun key =>
    (lib.downloads.bind (·.classifiers.lookup key)).map fun artifact => (key, artifact)
  match classified with
  | some (key, artifact) => do
    let relativePath ← artifactRelativePath unicode artifact.path
    let expected ← libraryExpectedIntegrity lib artifact.size artifact.sha1 false
    return some ⟨relativePath, nonemptyUrl artifact.url,
      artifactName relativePath (lib.name ++ ":" ++ key), expected, true⟩
  | none =>
    match candidates with
    | [] => .ok none
    | key :: _ => do
      let relativePath ← mavenRelativePath unicode (lib.name ++ ":" ++ key)
      let expected ← libraryExpectedIntegrity lib 0 "" false
      return some ⟨relativePath, some (mavenUrl lib relativePath),
        artifactName relativePath (lib.name ++ ":" ++ key), expected, true⟩

def nativeNameMatchesEnv (name : String) (env : Environment) : Bool :=
  let lower := toAsciiLowercase name
  if ¬ containsText lower "natives-" then true
  else if containsText lower "windows-arm64" then
    env.osName = "windows" && env.osArch = "arm64"
  else if containsText lower "windows-x86" then env.osName = "windows" && env.osArch = "x86"
  else if containsText lower "natives-windows" then
    env.osName = "windows" && env.osArch = "x86_64"
  else if containsText lower "macos-arm64" || containsText lower "osx-arm64" then
    env.osName = "osx" && env.osArch = "arm64"
  else if containsText lower "natives-macos" || containsText lower "natives-osx" then
    env.osName = "osx" && env.osArch = "x86_64"
  else if containsText lower "linux-arm64" then env.osName = "linux" && env.osArch = "arm64"
  else if containsText lower "linux-x86" then env.osName = "linux" && env.osArch = "x86"
  else if containsText lower "natives-linux" then env.osName = "linux" && env.osArch = "x86_64"
  else true

/-- The plans, each under its path. -/
abbrev PlanTable (unicode : Unicode) :=
  AList fun _ : PortableRelativePath unicode => LibraryArtifactPlan unicode

def insertPlan (plans : PlanTable unicode) (plan : LibraryArtifactPlan unicode) :
    Except LibraryPlanError (PlanTable unicode) :=
  match plans.lookup plan.relativePath with
  | some existing => if existing = plan then .ok plans else .error .conflictingArtifactPath
  | none => .ok (plans.insert plan.relativePath plan)

def insertPlan? (plans : PlanTable unicode) (plan : Option (LibraryArtifactPlan unicode)) :
    Except LibraryPlanError (PlanTable unicode) :=
  match plan with
  | some plan => insertPlan plans plan
  | none => .ok plans

/-- What a library adds to the plans. -/
def planLibrary (regex : Regex) (env : Environment) (plans : PlanTable unicode) (lib : Library) :
    Except LibraryPlanError (PlanTable unicode) :=
  if ¬ evaluateRules regex lib.rules env then .ok plans
  else if isNativeLibrary lib.name ∧ ¬ nativeNameMatchesEnv lib.name env then .ok plans
  else do
    let plans ← insertPlan? plans (← resolveLibraryPlan unicode lib)
    insertPlan? plans (← resolveNativePlan unicode lib env.osName env.osArch)

def libraryArtifactPlansFor (unicode : Unicode) (regex : Regex) (libraries : List Library)
    (env : Environment) : Except LibraryPlanError (List (LibraryArtifactPlan unicode)) := do
  let plans ← libraries.foldlM (planLibrary regex env) (∅ : PlanTable unicode)
  return plans.entries.map (·.2)

end Axial.Minecraft
