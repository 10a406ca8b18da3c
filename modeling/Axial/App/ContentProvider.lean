/-
This file models the provider reads of `core/app/src/content/catalog.rs` that the
resolver makes, with the checks of `provider.rs` on what the provider answers. The
transport and the URL parser are outside of the repository: they are parameters,
and nothing is assumed of what they return.
-/

import Axial.App.ContentModel
import Axial.Minecraft.LoaderIdentity

namespace Axial.App

open Bytes
open Axial.Fs (isControl)

abbrev maxProviderMetadataBytes : Nat := 4 * 1024 * 1024
abbrev maxProviderBatchItems : Nat := 4096
abbrev maxProviderIdBytes : Nat := 256
abbrev maxBulkIds : Nat := 100

/-! ### Errors -/

inductive DownloadError where
  | invalidUrl
  | insecureOrigin
  | originNotAllowed
  | invalidPolicy
  | invalidChecksum
  | redirectLimit
  | invalidRedirect
  | redirectMethod
  | httpStatus (status : UInt16)
  | timeout
  | cancelled
  | network
  | encodedLimitExceeded (limit : Nat)
  | decodedLimitExceeded (limit : Nat)
  | unsupportedEncoding
  | invalidEncoding
  | incompleteBody
  | sizeMismatch
  | checksumMismatch
  | requestBodyTooLarge
  | allocationFailed
  deriving DecidableEq

inductive ContentError where
  | parse
  | provider (error : DownloadError)
  | providerMetadataInvalid (message : String)
  | invalid (message : String)
  deriving DecidableEq

abbrev ContentResult := Except ContentError

/-! ### What the provider answers -/

namespace Dto

structure Project where
  id : String
  title : String
  projectType : String

structure Dependency where
  versionId : Option String
  projectId : Option String
  fileName : Option String
  dependencyType : DependencyKind

structure VersionFile where
  sha1 : Option String
  sha512 : Option String
  url : String
  filename : String
  primary : Bool
  size : Option Nat

structure Version where
  id : String
  projectId : String
  name : String
  versionNumber : String
  dependencies : List Dependency
  gameVersions : List String
  versionType : String
  loaders : List String
  downloads : Nat
  datePublished : Option String
  files : List VersionFile

end Dto

inductive Host where
  | ipv4 (first second third fourth : UInt8)
  | ipv6 (segments : Fin 8 → UInt16)
  | domain (name : String)

structure Url where
  scheme : String
  username : String
  password : Option String
  host : Option Host
  fragment : Option String

/-- The requests of the resolver, decoded, each with the size of its answer, and the URL parser. A
request is given the largest answer it may have. -/
structure Transport where
  projects : List String → Nat → ContentResult (List Dto.Project × Nat)
  projectVersions : String → LoaderGameFilter → Nat → ContentResult (List Dto.Version × Nat)
  parseUrl : String → Option Url

/-- `read`, before the request is made. -/
def readBounded {Answer : Type} (request : Nat → ContentResult Answer) (maxBytes : Nat) :
    ContentResult Answer :=
  if maxBytes = 0 then
    .error (.providerMetadataInvalid "content provider batch exceeded its aggregate size bound")
  else request maxBytes

/-! ### Checks -/

def validProviderIdentity (value : String) : Bool :=
  value ≠ "" && decide ((utf8 value).length ≤ maxProviderIdBytes) &&
    value.toList.all fun char => char.isAlphanum || char = '-' || char = '_'

def validateProviderIdentity (label value : String) : ContentResult Unit :=
  if validProviderIdentity value then .ok ()
  else .error (.providerMetadataInvalid ("content " ++ label ++ " identity is invalid"))

def projectIdOf (id : CanonicalId) : ContentResult String :=
  if startsWith id.text "modrinth:" &&
      validProviderIdentity (String.ofList (id.text.toList.drop "modrinth:".length)) then
    .ok (String.ofList (id.text.toList.drop "modrinth:".length))
  else .error (.invalid "invalid Modrinth project identity")

def validateBatchItemCount (count : Nat) : ContentResult Unit :=
  if maxProviderBatchItems < count then
    .error (.invalid "content provider batch input exceeds its item bound")
  else .ok ()

def validateUniqueIdentityInputs (label : String) (values : List String) : ContentResult Unit := do
  let _ ← values.foldlM (fun seen value =>
    if !validProviderIdentity value then
      throw (ContentError.invalid ("content provider " ++ label ++ " input is invalid"))
    else if value ∈ seen then
      throw (ContentError.invalid
        ("content provider batch contains a duplicate " ++ label ++ " input"))
    else return value :: seen) ([] : List String)
  return ()

/-- Lower-case hexadecimal digits. -/
def validHash (value : String) (length : Nat) : Bool :=
  (utf8 value).length = length &&
    value.toList.all fun char => char.isDigit || ('a' ≤ char && char ≤ 'f')

def validSha512 (value : String) : Bool := validHash value 128

/-- Returns the identities seen, the new one included. -/
def validateBatchResultIdentity (label value : String) (requested seen : List String) :
    ContentResult (List String) :=
  if !(if label = "hash" then validSha512 value else validProviderIdentity value) ||
      value ∉ requested then
    .error (.providerMetadataInvalid
      ("content provider returned an unexpected " ++ label ++ " identity"))
  else if value ∈ seen then
    .error (.providerMetadataInvalid
      ("content provider returned a duplicate " ++ label ++ " identity"))
  else .ok (value :: seen)

def validateFacet (value : String) : ContentResult Unit :=
  if 128 < (utf8 value).length || value.toList.any (fun char => isControl char || char = ':') then
    .error (.invalid "invalid content search filter")
  else .ok ()

def validateFilter (filter : LoaderGameFilter) : ContentResult Unit := do
  filter.loader.forM validateFacet
  filter.gameVersion.forM validateFacet

def kindFromProjectType : String → Option ContentKind
  | "mod" => some .mod
  | "modpack" => some .modpack
  | "resourcepack" => some .resourcePack
  | "shader" => some .shaderPack
  | _ => none

/-- `admit` of the byte budget of a batch. -/
def admitBatchBytes (remaining bytes : Nat) : ContentResult Nat :=
  if remaining < bytes then
    .error (.providerMetadataInvalid "content provider batch exceeded its aggregate size bound")
  else .ok (remaining - bytes)

/-! ### From the answers to the model -/

def releaseChannel : String → ContentResult ReleaseChannel
  | "release" => .ok .release
  | "beta" => .ok .beta
  | "alpha" => .ok .alpha
  | _ => .error (.providerMetadataInvalid "content version has an unknown release channel")

/-- A label that `map_dependency` takes for one. -/
def namedFile (fileName : Option String) : Bool :=
  fileName.any fun label => (label.toList.any fun char => !Minecraft.isWhitespace char) &&
    decide ((utf8 label).length ≤ 1024) && !label.toList.any isControl

def mapDependency (dependency : Dto.Dependency) : ContentResult (Option ContentDependency) := do
  dependency.projectId.forM (validateProviderIdentity "dependency project")
  dependency.versionId.forM (validateProviderIdentity "dependency version")
  let kept : ContentDependency :=
    { projectId := dependency.projectId, versionId := dependency.versionId,
      kind := dependency.dependencyType }
  if dependency.projectId.isNone && dependency.versionId.isNone then
    -- An embedded record needs nothing; a required one stays, for the resolver to refuse.
    if dependency.dependencyType = .embedded &&
        (namedFile dependency.fileName || dependency.fileName.isNone) then
      return none
    else if dependency.dependencyType = .required && namedFile dependency.fileName then
      return some kept
    else
      throw (.providerMetadataInvalid "content dependency has no project or version identity")
  else
    return some kept

def mapFile (transport : Transport) (file : Dto.VersionFile) : ContentResult FileRef := do
  if 8192 < (utf8 file.url).length || file.filename = "" || 1024 < (utf8 file.filename).length then
    throw (.providerMetadataInvalid "invalid content file reference")
  match transport.parseUrl file.url with
  | none => throw (.providerMetadataInvalid "invalid content file URL")
  | some url =>
    if url.scheme ≠ "https" || url.host.isNone || url.username ≠ "" || url.password.isSome ||
        url.fragment.isSome then
      throw (.providerMetadataInvalid "invalid content file URL")
    if file.sha1.any (fun value => !validHash value 40) ||
        file.sha512.any (fun value => !validSha512 value) then
      throw (.providerMetadataInvalid "invalid content file checksum")
    return { url := file.url, filename := file.filename, sha1 := file.sha1, sha512 := file.sha512,
             size := file.size, primary := file.primary }

def mapVersion (transport : Transport) (version : Dto.Version) : ContentResult ContentVersion := do
  validateProviderIdentity "version" version.id
  validateProviderIdentity "project" version.projectId
  if 256 < version.dependencies.length || 256 < version.files.length then
    throw (.providerMetadataInvalid "too many content version records")
  let channel ← releaseChannel version.versionType
  let files ← version.files.mapM (mapFile transport)
  let dependencies ← version.dependencies.mapM mapDependency
  return { id := version.id, name := version.name, versionNumber := version.versionNumber,
           gameVersions := version.gameVersions, loaders := version.loaders, channel,
           published := version.datePublished, downloads := version.downloads, files,
           dependencies := dependencies.filterMap id }

def mapProjectVersions (transport : Transport) (requestedProjectId : String)
    (versions : List Dto.Version) : ContentResult (List ContentVersion) := do
  if maxProviderBatchItems < versions.length then
    throw (.providerMetadataInvalid "too many content versions")
  let (_, mapped) ← versions.foldlM (fun (seen, mapped) version => do
    if version.projectId ≠ requestedProjectId then
      throw (.providerMetadataInvalid
        "content provider returned a version for a different project")
    if version.id ∈ seen then
      throw (.providerMetadataInvalid "content provider returned a duplicate version identity")
    let next ← mapVersion transport version
    return (version.id :: seen, mapped ++ [next])) (([] : List String), ([] : List ContentVersion))
  return mapped

/-! ### The reads -/

/-- `version_matches_filter`; the filter that `versions` applies itself ignores empty texts. -/
def versionMatchesFilter (version : ContentVersion) (filter : LoaderGameFilter) : Bool :=
  filter.gameVersion.all (fun gameVersion => version.gameVersions.any (· = gameVersion)) &&
    filter.loader.all fun loader => version.loaders.any (· = loader)

namespace Transport

variable (transport : Transport)

def contentVersions (id : CanonicalId) (filter : LoaderGameFilter) :
    ContentResult (List ContentVersion) := do
  let project ← projectIdOf id
  validateFilter filter
  let (versions, _) ← readBounded (transport.projectVersions project filter)
    maxProviderMetadataBytes
  let versions ← mapProjectVersions transport project versions
  return versions.filter fun version => versionMatchesFilter version
    { loader := filter.loader.filter (· ≠ ""), gameVersion := filter.gameVersion.filter (· ≠ "") }

/-- What a batch has gathered: the results, the identities seen, the bytes left. -/
structure Batch (Key Value : Type) where
  result : Key → Option Value
  seen : List String
  remaining : Nat

def Batch.start {Key Value : Type} : Batch Key Value := ⟨fun _ => none, [], maxProviderMetadataBytes⟩

def readProjects (batch : Batch CanonicalId ProjectMetadata) (chunk : List String) :
    ContentResult (Batch CanonicalId ProjectMetadata) := do
  let (projects, bytes) ← readBounded (transport.projects chunk) batch.remaining
  let remaining ← admitBatchBytes batch.remaining bytes
  projects.foldlM (fun batch project => do
    let seen ← validateBatchResultIdentity "project" project.id chunk batch.seen
    match kindFromProjectType project.projectType with
    | none => throw (.providerMetadataInvalid "unknown content project type")
    | some kind =>
      return { batch with
        seen
        result := Function.update batch.result (.forProject .modrinth project.id)
          (some { kind, title := project.title }) }) { batch with remaining }

def metadata (ids : List CanonicalId) :
    ContentResult (CanonicalId → Option ProjectMetadata) := do
  validateBatchItemCount ids.length
  let projects ← ids.mapM projectIdOf
  validateUniqueIdentityInputs "project" projects
  let batch ← (projects.toChunks maxBulkIds).foldlM transport.readProjects .start
  return batch.result

end Transport

end Axial.App
