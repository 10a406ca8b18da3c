/-
This file models how the dependency resolver of `core/app/src/content/resolve.rs`
picks the version of a project that a target gets, and how it names and orders the
dependencies of that version.
-/

import Axial.App.ContentArtifact

namespace Axial.App

/-! ### Results and errors -/

structure ResolutionTarget where
  loader : String
  gameVersion : String
  supportsMods : Bool
  deriving DecidableEq

def ResolutionTarget.filterFor (target : ResolutionTarget) (kind : ContentKind) :
    LoaderGameFilter where
  loader := if kind.filtersByLoader && target.supportsMods then some target.loader else none
  gameVersion := (some target.gameVersion).filter (· ≠ "")

inductive ResolutionLimitKind where
  | selections
  | nodes
  | depth
  | dependenciesPerNode
  | edges
  | queue
  | conflicts
  | graphBytes
  | structuredOutput
  deriving DecidableEq

structure ResolutionLimitExceeded where
  kind : ResolutionLimitKind
  maximum : Nat
  observed : Nat
  deriving DecidableEq

inductive ResolutionError where
  | noSelection
  | selectedKindChanged
  | duplicateSelection
  | modpackRequiresInstance
  | modLoaderRequired
  | installedDependencyUnidentified
  | limitExceeded (limit : ResolutionLimitExceeded)
  | provider (error : ContentError)
  | pack (error : PackError)
  deriving DecidableEq

/-! ### Budgets -/

def ensureWithinLimit (kind : ResolutionLimitKind) (observed maximum : Nat) :
    Except ResolutionError Unit :=
  if maximum < observed then .error (.limitExceeded { kind, maximum, observed }) else .ok ()

/-! ### Choice of a version -/

/-- Reject a kind the target cannot accept. -/
def requireInstallableKind (kind : ContentKind) (target : ResolutionTarget) :
    Except ResolutionError Unit :=
  if kind = .modpack then .error .modpackRequiresInstance
  else if !target.supportsMods && kind.requiresModLoader then .error .modLoaderRequired
  else .ok ()

def releaseChannelRank : ReleaseChannel → Nat
  | .release => 2
  | .beta => 1
  | .alpha => 0

def compareVersionRank (left right : ContentVersion) : Ordering :=
  (compare (releaseChannelRank left.channel) (releaseChannelRank right.channel)).then
    ((compare left.published right.published).then (compare left.id right.id))

/-- `Iterator::max_by`, the last of the greatest. -/
def maxBy {Item : Type} (order : Item → Item → Ordering) : List Item → Option Item
  | [] => none
  | first :: rest =>
    some (rest.foldl (fun best next => if order best next = .gt then best else next) first)

def versionMatchesTarget (version : ContentVersion) (target : ResolutionTarget)
    (kind : ContentKind) : Bool :=
  versionMatchesFilter version (target.filterFor kind)

def pickCompatibleVersion (versions : List ContentVersion) (forced : Option String)
    (target : ResolutionTarget) (kind : ContentKind) : Option ContentVersion :=
  match forced with
  | some forced =>
    versions.find? fun version => version.id = forced && versionMatchesTarget version target kind
  | none =>
    maxBy compareVersionRank (versions.filter fun version =>
      versionMatchesTarget version target kind && version.primaryFile.isSome)

/-! ### Dependencies -/

/-- Name the project of a dependency that has only a version, where the version is known. -/
def canonicalizeDependency (versions : String → Option VersionIdentity)
    (dependency : ContentDependency) : ContentDependency :=
  match dependency.projectId, dependency.versionId.bind versions with
  | none, some identity => { dependency with projectId := some identity.projectId }
  | _, _ => dependency

def canonicalizeVersionOnlyDependencies (dependencies : List ContentDependency)
    (versions : String → Option VersionIdentity) : List ContentDependency :=
  dependencies.map (canonicalizeDependency versions)

def dependencyKindRank : DependencyKind → Nat
  | .required => 0
  | .incompatible => 1
  | .optional => 2
  | .embedded => 3

def compareDependencies (left right : ContentDependency) : Ordering :=
  (compare (dependencyKindRank left.kind) (dependencyKindRank right.kind)).then
    ((compare left.projectId right.projectId).then (compare left.versionId right.versionId))

/-- `sort_by`, which is stable. -/
def sortDependencies (dependencies : List ContentDependency) : List ContentDependency :=
  dependencies.insertionSort fun left right => compareDependencies left right ≠ .gt

/-! ### Exact requirements -/

def fromContent {Result : Type} : ContentResult Result → Except ResolutionError Result :=
  Except.mapError .provider

def ResolutionSelection.id (selection : ResolutionSelection) : CanonicalId :=
  ⟨selection.canonicalId⟩

end Axial.App
