/-
This file models the catalog records of `core/app/src/content/model.rs`: projects
and their versions, the dependencies between them, and the files that a modpack has
installed.
-/

import Axial.App.Exclusion
import Axial.App.Portable

namespace Axial.App

/-! ### Kinds -/

inductive ContentKind where
  | mod
  | modpack
  | resourcePack
  | shaderPack
  deriving DecidableEq

def ContentKind.filtersByLoader : ContentKind → Bool
  | .mod | .modpack => true
  | _ => false

def ContentKind.requiresModLoader : ContentKind → Bool
  | .mod => true
  | _ => false

inductive ProviderId where
  | modrinth
  deriving DecidableEq

def ProviderId.asStr : ProviderId → String
  | .modrinth => "modrinth"

structure LoaderGameFilter where
  loader : Option String
  gameVersion : Option String

/-! ### Projects -/

structure CanonicalId where
  text : String
  deriving DecidableEq

def CanonicalId.forProject (provider : ProviderId) (projectId : String) : CanonicalId :=
  ⟨provider.asStr ++ ":" ++ projectId⟩

structure ProjectMetadata where
  kind : ContentKind
  title : String

/-! ### Versions -/

structure FileRef where
  url : String
  filename : String
  sha1 : Option String
  sha512 : Option String
  size : Option Nat
  primary : Bool
  deriving DecidableEq

inductive DependencyKind where
  | required
  | optional
  | incompatible
  | embedded
  deriving DecidableEq

structure ContentDependency where
  projectId : Option String
  versionId : Option String
  kind : DependencyKind
  deriving DecidableEq

inductive ReleaseChannel where
  | release
  | beta
  | alpha
  deriving DecidableEq

structure ContentVersion where
  id : String
  name : String
  versionNumber : String
  gameVersions : List String
  loaders : List String
  channel : ReleaseChannel
  published : Option String
  downloads : Nat
  files : List FileRef
  dependencies : List ContentDependency
  deriving DecidableEq

/-- The file to install: the only primary one, or the only one. -/
def ContentVersion.primaryFile (version : ContentVersion) : Option FileRef :=
  match version.files.filter FileRef.primary, version.files with
  | [file], _ => some file
  | [], [file] => some file
  | _, _ => none

structure VersionIdentity where
  provider : ProviderId
  projectId : String
  versionId : String
  gameVersions : List String
  loaders : List String
  dependencies : List ContentDependency
  title : Option String

/-! ### What is installed -/

structure PackInstalledFile where
  path : String
  size : Nat
  sha512 : String
  deriving DecidableEq

structure PackInstallation where
  fingerprint : String
  files : List PackInstalledFile
  deriving DecidableEq

end Axial.App
