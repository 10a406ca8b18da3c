/-
This file models how a content transaction looks at the paths it is going to change,
`observe_more` of `core/minecraft/src/managed_fs/content_transaction.rs`. A session keeps
what it has seen, under the keys of the paths, and what is left of its budget of bytes.
The paths of a session are checked against each other by the directories they stand in
only, and a file is taken off the budget before it is read.

What the file system shows to a call is a parameter of the call.
-/

import Axial.Minecraft.PortableNames

namespace Axial.Minecraft

open Bytes List Fallible

variable {unicode : Unicode}

abbrev maxContentPaths : Nat := 512

abbrev maxContentPlanningPaths : Nat := 8704

abbrev maxPackContentPaths : Nat := 100000

abbrev maxContentFileBytes : Nat := 2 ^ 30

abbrev maxContentTransactionBytes : Nat := 4 * 2 ^ 30

inductive ManagedContentPathPolicy where
  | managed
  | pack
  deriving DecidableEq

namespace ManagedContentPathPolicy

def finalPathLimit : ManagedContentPathPolicy → Nat
  | .managed => maxContentPaths
  | .pack => maxPackContentPaths

def planningPathLimit : ManagedContentPathPolicy → Nat
  | .managed => maxContentPlanningPaths
  | .pack => maxPackContentPaths

def transactionByteLimit : ManagedContentPathPolicy → Nat
  | .managed => maxContentTransactionBytes
  | .pack => 2 ^ 64 - 1

end ManagedContentPathPolicy

inductive ManagedContentPlanError where
  | invalidPath
  | reservedName

inductive ManagedContentObservationError where
  | empty
  | tooManyPaths
  | invalidPath
  | duplicatePath
  | parentUnavailable
  | nonPortableEntry
  | fileUnavailable
  | fileTooLarge
  | transactionBudgetExceeded

inductive FileObservationFailure where
  | nonPortableEntry
  | unavailable
  | tooLarge
  | transactionBudgetExceeded

/-- `public_observation_error`, for a file that is not the manifest. -/
def publicObservationError : FileObservationFailure → ManagedContentObservationError
  | .nonPortableEntry => .nonPortableEntry
  | .unavailable => .fileUnavailable
  | .tooLarge => .fileTooLarge
  | .transactionBudgetExceeded => .transactionBudgetExceeded

/-! ### One path -/

def managedContentExactNames : List String := ["axial.content.json", ".axial-publication"]

def managedContentPrefixes : List String :=
  [".axial-content-", ".axial-pack-", ".axial-replacement-"]

def managedContentNameIsReserved (name : PortableFileName unicode) : Bool :=
  let base := (managedContentNameKey name).value
  base ∈ managedContentExactNames ||
    managedContentPrefixes.any fun start => startsWith base start

def managedParents : List String := ["mods", "resourcepacks", "shaderpacks"]

def PortableRelativePath.fileName (path : PortableRelativePath unicode) :
    PortableFileName unicode :=
  have named := path.names _ (getLast_mem (segments_ne_nil path.value))
  ⟨(segments path.value).getLast (segments_ne_nil path.value), named.1, named.2⟩

/-- The directory a path stands in, if it is not the root, and its name there. -/
def splitContentPath (path : PortableRelativePath unicode) :
    Option String × PortableFileName unicode :=
  (if (segments path.value).length = 1 then none
    else some (joinSegments (segments path.value).dropLast), path.fileName)

def validateContentPath (policy : ManagedContentPathPolicy)
    (path : PortableRelativePath unicode) : Except ManagedContentPlanError Unit :=
  match policy with
  | .pack =>
    let components := segments path.value
    if 64 < components.length then .error .invalidPath
    else
      match PortableFileName.newExact unicode (components.headD "") with
      | none => .error .invalidPath
      | some first =>
        let managedParent := managedParents.find? fun candidate =>
          first.key = .fromNormalized unicode candidate
        if managedParent.any (· ≠ first.value) = true then .error .invalidPath
        else if managedContentNameIsReserved path.fileName = true ∧
            (components.length = 1 ∨ managedParent.isSome = true) then
          .error .reservedName
        else .ok ()
  | .managed =>
    match segments path.value with
    | [parent, name] =>
      if parent ∉ managedParents then .error .invalidPath
      else
        match PortableFileName.newExact unicode name with
        | none => .error .invalidPath
        | some name =>
          if managedContentNameIsReserved name = true then .error .reservedName else .ok ()
    | _ => .error .invalidPath

/-! ### What the file system shows -/

/-- The identity of a directory. -/
abbrev Directory := Nat

/-- What is found where a file may be: whether the directory has a child of exactly this name, the
size of the file that is held open, and the digest of what is read from it. -/
structure FileAnswer where
  present : Except FileObservationFailure Bool
  guard : Option Nat
  sha512 : Option String

/-- What the file system shows to one call. A directory that is not there is none. -/
structure Tree (unicode : Unicode) where
  parent : Option String → Except FileObservationFailure (Option Directory)
  file : PortableRelativePath unicode → FileAnswer
  /-- `entries_bounded`; a name that is not text is none. -/
  entries : Nat → Directory → Option (List (Option String))

inductive ManagedContentObservedState where
  | absent
  | exact (size : Nat) (sha512 : String)

/-- The result, and what is left of the budget. -/
def observeFile (answer : FileAnswer) (maxBytes remaining : Nat) :
    Except FileObservationFailure ManagedContentObservedState × Nat :=
  match answer.present with
  | .error failure => (.error failure, remaining)
  | .ok false => (.ok .absent, remaining)
  | .ok true =>
    match answer.guard with
    | none => (.error .unavailable, remaining)
    | some size =>
      if maxBytes < size then (.error .tooLarge, remaining)
      else if remaining < size then (.error .transactionBudgetExceeded, remaining)
      else
        match answer.sha512 with
        | none => (.error .unavailable, remaining - size)
        | some sha512 => (.ok (.exact size sha512), remaining - size)

/-! ### Names bound in directories -/

structure ManagedLogicalNameSpec (unicode : Unicode) where
  key : PortablePathKey
  enabled : PortableFileName unicode
  disabled : PortableFileName unicode

def PortableFileName.withSuffix (name : PortableFileName unicode) (suffix : String) :
    Option (PortableFileName unicode) :=
  PortableFileName.new unicode (name.value ++ suffix)

def stripSuffix (suffix value : String) : Option String :=
  if suffix.toList.isSuffixOf value.toList then
    some (String.ofList (value.toList.take (value.toList.length - suffix.toList.length)))
  else none

def managedLogicalNameSpec (name : PortableFileName unicode) :
    Option (ManagedLogicalNameSpec unicode) := do
  let key := managedContentNameKey name
  let enabled ←
    if name.key = key then some name
    else do
      let stripped ← stripSuffix disabledSuffix name.value
      let enabled ← PortableFileName.newExact unicode stripped
      guard (managedContentNameKey enabled = enabled.key)
      some enabled
  let disabled ← enabled.withSuffix disabledSuffix
  guard (name = enabled ∨ name = disabled)
  return { key, enabled, disabled }

/-- One turn of the loop over the bindings, which groups them by directory. -/
def watchName (watched : List ((Directory × PortablePathKey) × ManagedLogicalNameSpec unicode))
    (binding : Directory × PortableFileName unicode) :
    Option (List ((Directory × PortablePathKey) × ManagedLogicalNameSpec unicode)) := do
  let spec ← managedLogicalNameSpec binding.2
  match watched.lookup (binding.1, spec.key) with
  | some existing =>
    if existing.enabled ≠ spec.enabled ∨ existing.disabled ≠ spec.disabled then none
    else return watched
  | none => return ((binding.1, spec.key), spec) :: watched

/-- Whether every entry of the directories is a portable name that goes with those watched. -/
def entriesMatch {Watched : Type} (tree : Tree unicode) (limit : Nat)
    (watched : List ((Directory × PortablePathKey) × Watched))
    (key : PortableFileName unicode → PortablePathKey)
    (goesWith : Watched → PortableFileName unicode → Bool) : Bool :=
  (watched.map fun entry => entry.1.1).dedup.all fun directory =>
    (tree.entries limit directory).any fun entries => entries.all fun raw =>
      (raw.bind (PortableFileName.newExact unicode)).any fun name =>
        (watched.lookup (directory, key name)).all fun expected => goesWith expected name

def validateManagedLogicalNameBindings (tree : Tree unicode)
    (bindings : List (Directory × PortableFileName unicode)) : Bool :=
  (bindings.foldlM watchName []).any fun watched =>
    entriesMatch tree maxManagedDirectoryEntries watched managedContentNameKey fun spec name =>
      name = spec.enabled || name = spec.disabled

/-- One turn of the loop over the bindings of a pack. -/
def watchPackName (watched : List ((Directory × PortablePathKey) × PortableFileName unicode))
    (binding : Directory × PortableFileName unicode) :
    Option (List ((Directory × PortablePathKey) × PortableFileName unicode)) :=
  if (watched.lookup (binding.1, binding.2.key)).any (· ≠ binding.2) then none
  else some (((binding.1, binding.2.key), binding.2) :: watched)

/-- `validate_path_name_bindings(policy, bindings).is_ok()`. -/
def validatePathNameBindings (policy : ManagedContentPathPolicy) (tree : Tree unicode)
    (bindings : List (Directory × PortableFileName unicode)) : Bool :=
  match policy with
  | .managed => validateManagedLogicalNameBindings tree bindings
  | .pack =>
    (bindings.foldlM watchPackName []).any fun watched =>
      entriesMatch tree policy.finalPathLimit watched PortableFileName.key fun expected name =>
        name = expected

/-! ### Sessions -/

structure PathObservationAuthority (unicode : Unicode) where
  path : PortableRelativePath unicode
  state : ManagedContentObservedState
  parent : Option Directory
  name : PortableFileName unicode

structure ManagedContentPlanningSession (unicode : Unicode) where
  observations : List (PathObservationAuthority unicode)
  observedPaths : List (PortablePathKey × PortableRelativePath unicode)
  remainingBytes : Nat
  pathPolicy : ManagedContentPathPolicy

namespace ManagedContentPlanningSession

/-- A session that has observed the manifest. -/
def start (unicode : Unicode) (policy : ManagedContentPathPolicy) :
    ManagedContentPlanningSession unicode :=
  ⟨[], [], policy.transactionByteLimit, policy⟩

def paths (session : ManagedContentPlanningSession unicode) :
    List (PortableRelativePath unicode) :=
  session.observations.map PathObservationAuthority.path

end ManagedContentPlanningSession

/-- One turn of the loop that admits paths. -/
def admitPath (session : ManagedContentPlanningSession unicode) (batchKeys : List PortablePathKey)
    (path : PortableRelativePath unicode) :
    Except ManagedContentObservationError (List PortablePathKey) :=
  match validateContentPath session.pathPolicy path with
  | .error _ => .error .invalidPath
  | .ok () =>
    if path.key ∈ session.observedPaths.map Prod.fst ∨ path.key ∈ batchKeys then
      .error .duplicatePath
    else .ok (batchKeys ++ [path.key])

/-- The loop goes on with the map of the parents it has met, the latest first. -/
def parentSpellings (unicode : Unicode) : List (PortablePathKey × String) → List String → Bool
  | _, [] => true
  | parents, parent :: rest =>
    let key := PortablePathKey.fromNormalized unicode parent
    (parents.lookup key).all (· = parent) && parentSpellings unicode ((key, parent) :: parents) rest

def transactionParentSpellingsAreExact (paths : List (PortableRelativePath unicode)) : Bool :=
  parentSpellings unicode [] (paths.filterMap fun path => (splitContentPath path).1)

/-- The checks before anything is looked at. -/
def admitPaths (session : ManagedContentPlanningSession unicode)
    (paths : List (PortableRelativePath unicode)) : Except ManagedContentObservationError Unit := do
  if paths = [] then throw .empty
  if session.pathPolicy.planningPathLimit < session.observations.length + paths.length then
    throw .tooManyPaths
  let _ ← paths.foldlM (admitPath session) []
  if transactionParentSpellingsAreExact (session.paths ++ paths) = false then
    throw .nonPortableEntry

abbrev Refused (unicode : Unicode) :=
  ManagedContentObservationError × ManagedContentPlanningSession unicode

/-- `BTreeMap::insert`. -/
def insertKey (observed : List (PortablePathKey × PortableRelativePath unicode))
    (key : PortablePathKey) (path : PortableRelativePath unicode) :
    List (PortablePathKey × PortableRelativePath unicode) :=
  observed.filter (fun entry => entry.1 ≠ key) ++ [(key, path)]

def ManagedContentPlanningSession.retain (session : ManagedContentPlanningSession unicode)
    (observation : PathObservationAuthority unicode) : ManagedContentPlanningSession unicode :=
  { session with
    observations := session.observations ++ [observation]
    observedPaths := insertKey session.observedPaths observation.path.key observation.path }

/-- One turn of the loop that looks at paths. A parent is opened once in a call, so that it does
not matter which of its paths asks. -/
def observePath (tree : Tree unicode) (session : ManagedContentPlanningSession unicode)
    (path : PortableRelativePath unicode) :
    Except (Refused unicode) (ManagedContentPlanningSession unicode) :=
  let name := (splitContentPath path).2
  match tree.parent (splitContentPath path).1 with
  | .error failure => .error (publicObservationError failure, session)
  | .ok none =>
    if session.pathPolicy = .managed then .error (.parentUnavailable, session)
    else .ok (session.retain { path, state := .absent, parent := none, name })
  | .ok (some directory) =>
    match observeFile (tree.file path) maxContentFileBytes session.remainingBytes with
    | (.error failure, remainingBytes) =>
      .error (publicObservationError failure, { session with remainingBytes })
    | (.ok state, remainingBytes) =>
      .ok (({ session with remainingBytes } : ManagedContentPlanningSession unicode).retain
        { path, state, parent := some directory, name })

/-- The names that are bound in the directories that are there. -/
def ManagedContentPlanningSession.bindings (session : ManagedContentPlanningSession unicode) :
    List (Directory × PortableFileName unicode) :=
  session.observations.filterMap fun observation =>
    observation.parent.map fun directory => (directory, observation.name)

/-- The observations from the given one on are taken back. -/
def ManagedContentPlanningSession.drain (session : ManagedContentPlanningSession unicode)
    (initialObservationCount initialRemainingBytes : Nat) :
    ManagedContentPlanningSession unicode :=
  { session with
    observations := session.observations.take initialObservationCount
    observedPaths := (session.observations.drop initialObservationCount).foldl
      (fun observed observation =>
        observed.filter fun entry => entry.1 ≠ observation.path.key) session.observedPaths
    remainingBytes := initialRemainingBytes }

/-- After the loop: the names that are bound now go together, or nothing was looked at. -/
def bindNames (tree : Tree unicode) (session observed : ManagedContentPlanningSession unicode) :
    Except (Refused unicode) (ManagedContentPlanningSession unicode) :=
  if validatePathNameBindings session.pathPolicy tree observed.bindings = false then
    .error (.nonPortableEntry, observed.drain session.observations.length session.remainingBytes)
  else .ok observed

def observeMoreTransactionPaths (tree : Tree unicode)
    (session : ManagedContentPlanningSession unicode)
    (paths : List (PortableRelativePath unicode)) :
    Except (Refused unicode) (ManagedContentPlanningSession unicode) :=
  match admitPaths session paths with
  | .error error => .error (error, session)
  | .ok () => paths.foldlM (observePath tree) session >>= bindNames tree session

/-! ### What is charged -/

def ManagedContentObservedState.size : ManagedContentObservedState → Nat
  | .absent => 0
  | .exact size _ => size

/-- The bytes of the files a session has seen. -/
def ManagedContentPlanningSession.retained (session : ManagedContentPlanningSession unicode) :
    Nat :=
  (session.observations.map fun observation => observation.state.size).sum

def ManagedContentPlanningSession.spend (session : ManagedContentPlanningSession unicode)
    (size : Nat) : ManagedContentPlanningSession unicode :=
  { session with remainingBytes := session.remainingBytes - size }

/-- What is taken off the budget for a file, none where it is refused before. -/
def charge (answer : FileAnswer) (remaining : Nat) : Option Nat :=
  match answer.present with
  | .error _ => none
  | .ok false => some 0
  | .ok true => answer.guard.filter fun size => size ≤ maxContentFileBytes ∧ size ≤ remaining

/-- The same for a path. -/
def charged (tree : Tree unicode) (policy : ManagedContentPathPolicy) (remaining : Nat)
    (path : PortableRelativePath unicode) : Option Nat :=
  match tree.parent (splitContentPath path).1 with
  | .error _ => none
  | .ok none => if policy = .managed then none else some 0
  | .ok (some _) => charge (tree.file path) remaining

/-- The file is there, and cannot be read. -/
def Unread (tree : Tree unicode) (path : PortableRelativePath unicode) : Prop :=
  (∃ directory, tree.parent (splitContentPath path).1 = .ok (some directory)) ∧
    (tree.file path).present = .ok true ∧ (tree.file path).sha512 = none

/-- No file is reached that is charged and then not read. -/
def ChargesRead (tree : Tree unicode) (policy : ManagedContentPathPolicy) :
    Nat → List (PortableRelativePath unicode) → Prop
  | _, [] => True
  | remaining, path :: rest => ∀ size, charged tree policy remaining path = some size →
      (Unread tree path → size = 0) ∧
        (¬ Unread tree path → ChargesRead tree policy (remaining - size) rest)

theorem observeFile_cases (answer : FileAnswer) (remaining : Nat) :
    (∃ failure, observeFile answer maxContentFileBytes remaining = (.error failure, remaining) ∧
      charge answer remaining = none) ∨
    (∃ state, observeFile answer maxContentFileBytes remaining =
        (.ok state, remaining - state.size) ∧ charge answer remaining = some state.size ∧
      state.size ≤ remaining ∧ ¬ (answer.present = .ok true ∧ answer.sha512 = none)) ∨
    ∃ failure size, observeFile answer maxContentFileBytes remaining =
        (.error failure, remaining - size) ∧ charge answer remaining = some size ∧
      size ≤ remaining ∧ answer.present = .ok true ∧ answer.sha512 = none := by
  unfold observeFile charge
  obtain ⟨present, guard, sha512⟩ := answer
  dsimp only
  cases present with
  | error failure => exact .inl ⟨failure, rfl, rfl⟩
  | ok present =>
    cases present with
    | false => exact .inr (.inl ⟨.absent, rfl, rfl, Nat.zero_le _, nofun⟩)
    | true =>
      cases guard with
      | none => exact .inl ⟨.unavailable, rfl, rfl⟩
      | some size =>
        dsimp only
        by_cases within : size ≤ maxContentFileBytes ∧ size ≤ remaining
        · have taken : (some size).filter (fun size =>
              decide (size ≤ maxContentFileBytes ∧ size ≤ remaining)) = some size :=
            Option.filter_eq_some_iff.mpr ⟨rfl, decide_eq_true within⟩
          rw [if_neg (Nat.not_lt.mpr within.1), if_neg (Nat.not_lt.mpr within.2), taken]
          cases sha512 with
          | none => exact .inr (.inr ⟨.unavailable, size, rfl, rfl, within.2, rfl, rfl⟩)
          | some sha512 => exact .inr (.inl ⟨.exact size sha512, rfl, rfl, within.2, nofun⟩)
        · have refused : (some size).filter (fun size =>
              decide (size ≤ maxContentFileBytes ∧ size ≤ remaining)) = none := by
            rw [Option.filter_some, if_neg (by simpa using within)]
          rw [refused]
          by_cases large : maxContentFileBytes < size
          · exact .inl ⟨.tooLarge, if_pos large, rfl⟩
          · have short : remaining < size := by omega
            exact .inl ⟨.transactionBudgetExceeded, by rw [if_neg large, if_pos short], rfl⟩

variable {tree : Tree unicode} {session : ManagedContentPlanningSession unicode}
  {path : PortableRelativePath unicode} {paths : List (PortableRelativePath unicode)}

/-- What one turn does: it is refused before anything is charged, goes through, or is refused with
the file charged. -/
theorem observePath_cases (tree : Tree unicode) (session : ManagedContentPlanningSession unicode)
    (path : PortableRelativePath unicode) :
    (∃ error, observePath tree session path = .error (error, session) ∧
      charged tree session.pathPolicy session.remainingBytes path = none) ∨
    (∃ observation : PathObservationAuthority unicode, observation.path = path ∧
      observePath tree session path =
        .ok ((session.spend observation.state.size).retain observation) ∧
      charged tree session.pathPolicy session.remainingBytes path = some observation.state.size ∧
      observation.state.size ≤ session.remainingBytes ∧ ¬ Unread tree path) ∨
    ∃ error size, observePath tree session path = .error (error, session.spend size) ∧
      charged tree session.pathPolicy session.remainingBytes path = some size ∧
      size ≤ session.remainingBytes ∧ Unread tree path := by
  unfold observePath charged Unread
  cases parent : tree.parent (splitContentPath path).1 with
  | error failure => exact .inl ⟨_, rfl, rfl⟩
  | ok directory =>
    cases directory with
    | none =>
      dsimp only
      by_cases managed : session.pathPolicy = .managed
      · exact .inl ⟨.parentUnavailable, if_pos managed, if_pos managed⟩
      · refine .inr (.inl ⟨⟨path, .absent, none, (splitContentPath path).2⟩, rfl,
          if_neg managed, if_neg managed, Nat.zero_le _, ?_⟩)
        rintro ⟨⟨directory, found⟩, -⟩
        cases found
    | some directory =>
      dsimp only
      rcases observeFile_cases (tree.file path) session.remainingBytes with
        ⟨failure, result, taken⟩ | ⟨state, result, taken, within, read⟩ |
        ⟨failure, size, result, taken, within, unread⟩
      · rw [result]
        exact .inl ⟨_, rfl, taken⟩
      · rw [result]
        exact .inr (.inl ⟨⟨path, state, some directory, (splitContentPath path).2⟩, rfl, rfl, taken,
          within, fun both => read both.2⟩)
      · rw [result]
        exact .inr (.inr ⟨_, size, rfl, taken, within, ⟨directory, rfl⟩, unread⟩)

/-! ### What a session keeps -/

/-- The map of a session is that of its observations. -/
structure KeyedSession (session : ManagedContentPlanningSession unicode) : Prop where
  keys : session.observedPaths =
    session.observations.map fun observation => (observation.path.key, observation.path)
  distinct : (session.paths.map PortableRelativePath.key).Nodup

theorem KeyedSession.fst (keyed : KeyedSession session) :
    session.observedPaths.map Prod.fst = session.paths.map PortableRelativePath.key := by
  rw [keyed.keys, ManagedContentPlanningSession.paths, map_map, map_map]
  rfl

theorem filter_of_fresh {observed : List (PortablePathKey × PortableRelativePath unicode)}
    {key : PortablePathKey} (fresh : key ∉ observed.map Prod.fst) :
    observed.filter (fun entry => entry.1 ≠ key) = observed := by
  refine filter_eq_self.mpr fun entry member => decide_eq_true ?_
  rintro rfl
  exact fresh (mem_map_of_mem member)

theorem paths_retain (size : Nat) (observation : PathObservationAuthority unicode) :
    ((session.spend size).retain observation).paths = session.paths ++ [observation.path] := by
  unfold ManagedContentPlanningSession.paths
  exact map_append

variable {observation : PathObservationAuthority unicode}

theorem KeyedSession.retain (keyed : KeyedSession session)
    (fresh : observation.path.key ∉ session.paths.map PortableRelativePath.key) (size : Nat) :
    KeyedSession ((session.spend size).retain observation) where
  keys := by
    show insertKey session.observedPaths _ _ = List.map _ (session.observations ++ [observation])
    rw [insertKey, filter_of_fresh (keyed.fst ▸ fresh), keyed.keys, map_append]
    rfl
  distinct := by
    rw [paths_retain, map_append, map_singleton, ← concat_eq_append]
    exact keyed.distinct.concat fresh

/-- What is left of the budget and what it went for. -/
def ManagedContentPlanningSession.total (session : ManagedContentPlanningSession unicode) : Nat :=
  session.remainingBytes + session.retained

theorem total_retain (within : observation.state.size ≤ session.remainingBytes) :
    ((session.spend observation.state.size).retain observation).total = session.total := by
  show session.remainingBytes - observation.state.size +
    (List.map _ (session.observations ++ [observation])).sum = _ + _
  rw [map_append, map_singleton, sum_append, sum_singleton]
  unfold ManagedContentPlanningSession.retained
  omega

theorem total_spend {size : Nat} (within : size ≤ session.remainingBytes) :
    (session.spend size).total = session.total ↔ size = 0 := by
  unfold ManagedContentPlanningSession.total ManagedContentPlanningSession.spend
    ManagedContentPlanningSession.retained
  dsimp only
  omega

variable {finish : ManagedContentPlanningSession unicode}

section

variable (keyed : KeyedSession session)
  (fresh : ((session.paths ++ paths).map PortableRelativePath.key).Nodup)
include keyed fresh

theorem observePaths_ok (observed : paths.foldlM (observePath tree) session = .ok finish) :
    KeyedSession finish ∧ finish.pathPolicy = session.pathPolicy ∧ finish.total = session.total ∧
      ChargesRead tree session.pathPolicy session.remainingBytes paths ∧
      ∃ added : List (PathObservationAuthority unicode), added.map (·.path) = paths ∧
        finish.observations = session.observations ++ added := by
  induction paths generalizing session with
  | nil =>
    cases foldlM_nil_eq_ok.mp observed
    exact ⟨keyed, rfl, rfl, trivial, [], rfl, (List.append_nil _).symm⟩
  | cons path paths ih =>
    obtain ⟨middle, here, later⟩ := foldlM_cons_eq_ok.mp observed
    rcases observePath_cases tree session path with ⟨error, refused, -⟩ |
      ⟨observation, rfl, gone, taken, within, read⟩ | ⟨error, size, refused, -⟩
    · cases refused.symm.trans here
    · cases gone.symm.trans here
      have separate : observation.path.key ∉ session.paths.map PortableRelativePath.key := by
        intro member
        rw [map_append, map_cons] at fresh
        exact (nodup_append.mp fresh).2.2 _ member _ mem_cons_self rfl
      obtain ⟨keyedLast, policy, total, charges, added, named, whole⟩ :=
        ih (keyed.retain separate _)
          (by rwa [paths_retain, append_assoc]) later
      refine ⟨keyedLast, policy, total.trans (total_retain within), fun size charge => ?_,
        observation :: added, congrArg _ named, ?_⟩
      · cases taken.symm.trans charge
        exact ⟨fun unread => absurd unread read, fun _ => charges⟩
      · rw [whole]
        exact append_assoc _ [observation] added
    · cases refused.symm.trans here

/-- Where the loop stops, the budget is right if and only if nothing was charged that was not
read. -/
theorem observePaths_error {error : ManagedContentObservationError}
    {stopped : ManagedContentPlanningSession unicode}
    (refused : paths.foldlM (observePath tree) session = .error (error, stopped)) :
    KeyedSession stopped ∧ stopped.pathPolicy = session.pathPolicy ∧
      (stopped.total = session.total ↔
        ChargesRead tree session.pathPolicy session.remainingBytes paths) := by
  induction paths generalizing session with
  | nil => cases refused
  | cons path paths ih =>
    rw [foldlM_cons] at refused
    rcases observePath_cases tree session path with ⟨_, stops, taken⟩ |
      ⟨observation, rfl, gone, taken, within, read⟩ | ⟨_, size, stops, taken, within, unread⟩
    · rw [stops] at refused
      cases refused
      refine ⟨keyed, rfl, iff_of_true rfl fun size charge => ?_⟩
      cases taken.symm.trans charge
    · rw [gone] at refused
      have separate : observation.path.key ∉ session.paths.map PortableRelativePath.key := by
        intro member
        rw [map_append, map_cons] at fresh
        exact (nodup_append.mp fresh).2.2 _ member _ mem_cons_self rfl
      obtain ⟨keyedLast, policy, total⟩ := ih (keyed.retain separate _)
        (by rwa [paths_retain, append_assoc]) refused
      refine ⟨keyedLast, policy, ?_⟩
      rw [← total_retain within, total]
      constructor
      · intro charges size charge
        cases taken.symm.trans charge
        exact ⟨fun unread => absurd unread read, fun _ => charges⟩
      · intro charges
        exact (charges _ taken).2 read
    · rw [stops] at refused
      cases refused
      refine ⟨⟨keyed.keys, keyed.distinct⟩, rfl, (total_spend within).trans ⟨?_, ?_⟩⟩
      · intro none other charge
        cases taken.symm.trans charge
        exact ⟨fun _ => none, fun read => absurd unread read⟩
      · intro charges
        exact (charges size taken).1 unread

end

variable {added : List (PathObservationAuthority unicode)}

theorem remove_added {before : List (PortablePathKey × PortableRelativePath unicode)}
    (distinct : (before.map Prod.fst ++ added.map fun observation => observation.path.key).Nodup) :
    added.foldl (fun entries observation =>
      entries.filter fun entry => entry.1 ≠ observation.path.key)
        (before ++ added.map fun observation => (observation.path.key, observation.path)) =
      before := by
  induction added with
  | nil => exact List.append_nil _
  | cons observation added ih =>
    have fresh : observation.path.key ∉ before.map Prod.fst := fun member =>
      (nodup_append.mp distinct).2.2 _ member _ mem_cons_self rfl
    have unique : observation.path.key ∉
        (added.map fun observation => (observation.path.key, observation.path)).map Prod.fst := by
      rw [map_map]
      exact (nodup_cons.mp (nodup_append.mp distinct).2.1).1
    rw [map_cons, foldl_cons, filter_append, filter_of_fresh fresh,
      filter_cons_of_neg (by simp), filter_of_fresh unique]
    exact ih (distinct.sublist
      (List.Sublist.append_left (sublist_cons_self _ _) _))

/-- What is taken back is exactly what was added. -/
theorem drain_eq {observed : ManagedContentPlanningSession unicode} (keyed : KeyedSession session)
    (after : KeyedSession observed) (policy : observed.pathPolicy = session.pathPolicy)
    (whole : observed.observations = session.observations ++ added) :
    observed.drain session.observations.length session.remainingBytes = session := by
  have split : observed.observedPaths = session.observedPaths ++
      added.map fun observation => (observation.path.key, observation.path) := by
    rw [after.keys, whole, map_append, keyed.keys]
  have distinct : (session.observedPaths.map Prod.fst ++
      added.map fun observation => observation.path.key).Nodup := by
    have all := after.distinct
    rw [← after.fst, split, map_append, map_map] at all
    exact all
  unfold ManagedContentPlanningSession.drain
  rw [whole, take_left, drop_left, split, remove_added distinct, policy]

/-! ### What the checks say of paths -/

/-- The key of a directory or a path. -/
abbrev directoryKey (unicode : Unicode) (directory : String) : PortablePathKey :=
  .fromNormalized unicode directory

/-- The directories above a path, the one it stands in last. -/
def ancestorDirectories (path : PortableRelativePath unicode) : List String :=
  (List.range' 1 ((segments path.value).length - 1)).map fun depth =>
    joinSegments ((segments path.value).take depth)

/-- Those above the one it stands in. -/
def outerDirectories (path : PortableRelativePath unicode) : List String :=
  (ancestorDirectories path).dropLast

/-- Paths that may stand side by side on any file system. -/
structure PortablyCoherent (paths : List (PortableRelativePath unicode)) : Prop where
  distinct : (paths.map PortableRelativePath.key).Nodup
  apart : ∀ first ∈ paths, ∀ second ∈ paths, ∀ rest,
    second.key.value ≠ first.key.value ++ "/" ++ rest
  alike : ∀ first ∈ paths, ∀ second ∈ paths, ∀ upper ∈ ancestorDirectories first,
    ∀ lower ∈ ancestorDirectories second,
      directoryKey unicode upper = directoryKey unicode lower → upper = lower

/-- What has to be true where the checks do not look: no path lies below another, and a directory
above the one a path stands in is spelled as the others with its key. -/
structure OuterAlike (paths : List (PortableRelativePath unicode)) : Prop where
  apart : ∀ first ∈ paths, ∀ second ∈ paths, ∀ rest,
    second.key.value ≠ first.key.value ++ "/" ++ rest
  outer : ∀ first ∈ paths, ∀ second ∈ paths, ∀ upper ∈ outerDirectories first,
    ∀ lower ∈ ancestorDirectories second,
      directoryKey unicode upper = directoryKey unicode lower → upper = lower

/-- What the check of the parents looks at. -/
def ParentsAlike (paths : List (PortableRelativePath unicode)) : Prop :=
  ∀ first ∈ paths, ∀ second ∈ paths, ∀ upper lower, (splitContentPath first).1 = some upper →
    (splitContentPath second).1 = some lower →
      directoryKey unicode upper = directoryKey unicode lower → upper = lower

theorem getLast?_ancestorDirectories (path : PortableRelativePath unicode) :
    (ancestorDirectories path).getLast? = (splitContentPath path).1 := by
  have some := length_pos_iff.mpr (segments_ne_nil path.value)
  unfold ancestorDirectories splitContentPath
  dsimp only
  by_cases alone : (segments path.value).length = 1
  · rw [if_pos alone, alone]
    rfl
  · rw [if_neg alone, getLast?_map, getLast?_range', if_neg (by omega),
      dropLast_eq_take, Option.map_some]
    congr 4
    omega

/-- A directory above a path is the one it stands in or one of the outer ones. -/
theorem mem_ancestorDirectories {directory : String}
    (member : directory ∈ ancestorDirectories path) :
    directory ∈ outerDirectories path ∨ (splitContentPath path).1 = some directory := by
  have some : ancestorDirectories path ≠ [] := ne_nil_of_mem member
  rw [← dropLast_append_getLast some, mem_append, mem_singleton] at member
  refine member.imp id fun last => ?_
  rw [← getLast?_ancestorDirectories, getLast?_eq_some_getLast some, last]

theorem coherent_iff (distinct : (paths.map PortableRelativePath.key).Nodup)
    (parents : ParentsAlike paths) : PortablyCoherent paths ↔ OuterAlike paths := by
  constructor
  · intro coherent
    refine ⟨coherent.apart, fun first inFirst second inSecond upper above lower below same => ?_⟩
    exact coherent.alike first inFirst second inSecond upper (dropLast_subset _ above) lower
      below same
  · intro decided
    refine ⟨distinct, decided.apart, fun first inFirst second inSecond upper above lower below
      same => ?_⟩
    rcases mem_ancestorDirectories above with outer | parent
    · exact decided.outer first inFirst second inSecond upper outer lower below same
    · rcases mem_ancestorDirectories below with outer | other
      · exact (decided.outer second inSecond first inFirst lower outer upper above same.symm).symm
      · exact parents first inFirst second inSecond upper lower parent other same

/-- The loop over the parents compares each with those of its key before it. -/
theorem parentSpellings_spec {parents : List (PortablePathKey × String)} {rest : List String}
    (exact : parentSpellings unicode parents rest = true) :
    (∀ parent ∈ rest, ∀ known, parents.lookup (directoryKey unicode parent) = some known →
      known = parent) ∧
    ∀ upper ∈ rest, ∀ lower ∈ rest,
      directoryKey unicode upper = directoryKey unicode lower → upper = lower := by
  induction rest generalizing parents with
  | nil => exact ⟨nofun, nofun⟩
  | cons parent rest ih =>
    rw [parentSpellings, Bool.and_eq_true] at exact
    obtain ⟨later, pairs⟩ := ih exact.2
    have here (known : String) (found : parents.lookup (directoryKey unicode parent) = some known) :
        known = parent := by
      have all := exact.1
      rw [found, Option.all_some] at all
      exact of_decide_eq_true all
    have again {other : String} (member : other ∈ rest)
        (same : directoryKey unicode other = directoryKey unicode parent) : parent = other :=
      later other member parent (by rw [same, lookup_cons_self])
    constructor
    · intro other member known found
      rcases mem_cons.mp member with rfl | inside
      · exact here known found
      · by_cases same : directoryKey unicode other = directoryKey unicode parent
        · rw [same] at found
          exact (here known found).trans (again inside same)
        · refine later other inside known ?_
          rw [lookup_cons, beq_eq_false_iff_ne.mpr same]
          exact found
    · intro upper inUpper lower inLower same
      rcases mem_cons.mp inUpper with rfl | first <;>
        rcases mem_cons.mp inLower with rfl | second
      · rfl
      · exact again second same.symm
      · exact (again first same).symm
      · exact pairs upper first lower second same

theorem parentsAlike_of_exact (exact : transactionParentSpellingsAreExact paths = true) :
    ParentsAlike paths := by
  intro first inFirst second inSecond upper lower parent other
  exact (parentSpellings_spec exact).2 upper
    (mem_filterMap.mpr ⟨first, inFirst, parent⟩) lower
    (mem_filterMap.mpr ⟨second, inSecond, other⟩)

theorem admitPath_fold {batchKeys finish : List PortablePathKey}
    (admitted : paths.foldlM (admitPath session) batchKeys = .ok finish)
    (unique : (session.observedPaths.map Prod.fst ++ batchKeys).Nodup) :
    finish = batchKeys ++ paths.map PortableRelativePath.key ∧
      (session.observedPaths.map Prod.fst ++ finish).Nodup := by
  induction paths generalizing batchKeys with
  | nil =>
    cases foldlM_nil_eq_ok.mp admitted
    exact ⟨(List.append_nil _).symm, unique⟩
  | cons path paths ih =>
    obtain ⟨middle, here, later⟩ := foldlM_cons_eq_ok.mp admitted
    unfold admitPath at here
    split at here
    · cases here
    · rw [ite_throw_eq_ok, Except.ok.injEq, not_or] at here
      obtain ⟨⟨unknown, fresh⟩, rfl⟩ := here
      have both : path.key ∉ session.observedPaths.map Prod.fst ++ batchKeys := by
        rw [mem_append]
        exact not_or.mpr ⟨unknown, fresh⟩
      obtain ⟨whole, distinct⟩ := ih later (by
        rw [← append_assoc, ← concat_eq_append]
        exact unique.concat both)
      refine ⟨?_, distinct⟩
      rw [whole, append_assoc]
      rfl

/-- What is admitted. -/
theorem admitPaths_spec (keyed : KeyedSession session) (admitted : admitPaths session paths = .ok ()) :
    ((session.paths ++ paths).map PortableRelativePath.key).Nodup ∧
      ParentsAlike (session.paths ++ paths) := by
  unfold admitPaths at admitted
  simp only [guard_eq_ok, bind_eq_ok] at admitted
  obtain ⟨-, -, batchKeys, folded, exact⟩ := admitted
  obtain ⟨rfl, distinct⟩ := admitPath_fold folded (by
    rw [List.append_nil, keyed.fst]
    exact keyed.distinct)
  rw [nil_append, keyed.fst, ← map_append] at distinct
  refine ⟨distinct, parentsAlike_of_exact ?_⟩
  by_contra inexact
  rw [if_pos (eq_false_of_ne_true inexact)] at exact
  cases exact

/-! ### Runs -/

/-- The paths of a call and what the file system shows to it. -/
abbrev ObservationCall (unicode : Unicode) := Tree unicode × List (PortableRelativePath unicode)

def observeCall (session : ManagedContentPlanningSession unicode) (call : ObservationCall unicode) :
    Except (Refused unicode) (ManagedContentPlanningSession unicode) :=
  observeMoreTransactionPaths call.1 session call.2

/-- The session that a call gives back, accepted or refused. -/
def kept : Except (Refused unicode) (ManagedContentPlanningSession unicode) →
    ManagedContentPlanningSession unicode
  | .ok next => next
  | .error refused => refused.2

def leave (session : ManagedContentPlanningSession unicode) (call : ObservationCall unicode) :
    ManagedContentPlanningSession unicode :=
  kept (observeCall session call)

/-- A call that is admitted does not charge a file it cannot read. -/
def Readable (session : ManagedContentPlanningSession unicode) (call : ObservationCall unicode) :
    Prop :=
  admitPaths session call.2 = .ok () →
    ChargesRead call.1 session.pathPolicy session.remainingBytes call.2

/-- The observations of a session, its keys and its budget go together. -/
structure Consistent (session : ManagedContentPlanningSession unicode) : Prop
    extends KeyedSession session where
  balanced : session.total = session.pathPolicy.transactionByteLimit

variable {call : ObservationCall unicode}

theorem paths_of_observations (named : added.map (·.path) = paths)
    (whole : finish.observations = session.observations ++ added) :
    finish.paths = session.paths ++ paths := by
  unfold ManagedContentPlanningSession.paths
  rw [whole, map_append, named]

theorem observeCall_ok (keyed : KeyedSession session)
    (accepted : observeCall session call = .ok finish) :
    KeyedSession finish ∧ finish.paths = session.paths ++ call.2 ∧ ParentsAlike finish.paths := by
  unfold observeCall observeMoreTransactionPaths at accepted
  split at accepted
  · cases accepted
  · rename_i admitted
    obtain ⟨distinct, parents⟩ := admitPaths_spec keyed admitted
    obtain ⟨observed, looked, accepted⟩ := bind_eq_ok.mp accepted
    rw [bindNames, ite_throw_eq_ok, Except.ok.injEq] at accepted
    obtain ⟨-, rfl⟩ := accepted
    obtain ⟨after, -, -, -, added, named, whole⟩ := observePaths_ok keyed distinct looked
    have split := paths_of_observations named whole
    exact ⟨after, split, split ▸ parents⟩

/-- A call keeps the keys right, and the budget if and only if it reads what it charges. -/
theorem leave_spec (keyed : KeyedSession session) (call : ObservationCall unicode) :
    KeyedSession (leave session call) ∧ (leave session call).pathPolicy = session.pathPolicy ∧
      ((leave session call).total = session.total ↔ Readable session call) := by
  unfold leave observeCall observeMoreTransactionPaths Readable
  cases admitted : admitPaths session call.2 with
  | error error => exact ⟨keyed, rfl, iff_of_true rfl nofun⟩
  | ok done =>
    obtain ⟨distinct, -⟩ := admitPaths_spec keyed admitted
    dsimp only
    cases looked : call.2.foldlM (observePath call.1) session with
    | error refused =>
      obtain ⟨error, stopped⟩ := refused
      obtain ⟨after, policy, total⟩ := observePaths_error keyed distinct looked
      exact ⟨after, policy, total.trans ⟨fun charges _ => charges, fun charges => charges rfl⟩⟩
    | ok observed =>
      obtain ⟨after, policy, total, charges, added, named, whole⟩ :=
        observePaths_ok keyed distinct looked
      have last : (Except.ok observed >>= bindNames call.1 session) =
          bindNames call.1 session observed := rfl
      rw [last]
      unfold bindNames
      split
      · have back := drain_eq keyed after policy whole
        show KeyedSession (observed.drain _ _) ∧ (observed.drain _ _).pathPolicy = _ ∧
          ((observed.drain _ _).total = _ ↔ _)
        rw [back]
        exact ⟨keyed, rfl, iff_of_true rfl fun _ => charges⟩
      · exact ⟨after, policy, iff_of_true total fun _ => charges⟩

theorem KeyedSession.start (policy : ManagedContentPathPolicy) :
    KeyedSession (ManagedContentPlanningSession.start unicode policy) :=
  ⟨rfl, nodup_nil⟩

/-- What calls that are all accepted have observed. -/
theorem observeCalls_ok {calls : List (ObservationCall unicode)} (keyed : KeyedSession session)
    (parents : ParentsAlike session.paths)
    (accepted : calls.foldlM observeCall session = .ok finish) :
    KeyedSession finish ∧ finish.paths = session.paths ++ calls.flatMap Prod.snd ∧
      ParentsAlike finish.paths := by
  induction calls generalizing session with
  | nil =>
    cases foldlM_nil_eq_ok.mp accepted
    exact ⟨keyed, (List.append_nil _).symm, parents⟩
  | cons call calls ih =>
    obtain ⟨middle, here, later⟩ := foldlM_cons_eq_ok.mp accepted
    obtain ⟨after, paths, alike⟩ := observeCall_ok keyed here
    obtain ⟨last, whole, allAlike⟩ := ih after alike later
    refine ⟨last, ?_, allAlike⟩
    rw [whole, paths, flatMap_cons, append_assoc]

theorem Consistent.start (policy : ManagedContentPathPolicy) :
    Consistent (ManagedContentPlanningSession.start unicode policy) :=
  ⟨KeyedSession.start policy, Nat.add_zero _⟩

theorem Consistent.leave_iff (consistent : Consistent session) (call : ObservationCall unicode) :
    Consistent (leave session call) ↔ Readable session call := by
  obtain ⟨after, policy, total⟩ := leave_spec consistent.toKeyedSession call
  rw [← total]
  constructor
  · intro again
    rw [again.balanced, consistent.balanced, policy]
  · intro same
    exact ⟨after, by rw [same, consistent.balanced, policy]⟩

/-- A session stays consistent for as long as its calls read what they charge. -/
theorem consistent_run_iff (consistent : Consistent session)
    (calls : List (ObservationCall unicode)) :
    (∀ made, made <+: calls → Consistent (made.foldl leave session)) ↔
      ∀ made call, made ++ [call] <+: calls → Readable (made.foldl leave session) call := by
  have one (made : List (ObservationCall unicode)) (call : ObservationCall unicode)
      (sofar : Consistent (made.foldl leave session)) :
      Consistent ((made ++ [call]).foldl leave session) ↔
        Readable (made.foldl leave session) call := by
    rw [foldl_append]
    exact sofar.leave_iff call
  constructor
  · intro always made call first
    exact (one made call (always made ((prefix_append _ _).trans first))).mp
      (always _ first)
  · intro reads made
    induction made using List.reverseRecOn with
    | nil => exact fun _ => consistent
    | append_singleton made call ih =>
      intro first
      exact (one made call (ih ((prefix_append _ _).trans first))).mpr
        (reads made call first)

/-- In a session whose calls are all accepted the paths are coherent exactly if they are where the
checks do not look, and the session is consistent all along exactly if every call reads what it
charges. -/
theorem observation_coherent_iff (policy : ManagedContentPathPolicy)
    (calls : List (ObservationCall unicode)) :
    (∀ finish, calls.foldlM observeCall (.start unicode policy) = .ok finish →
      finish.paths = calls.flatMap Prod.snd ∧
        (PortablyCoherent finish.paths ↔ OuterAlike (calls.flatMap Prod.snd))) ∧
    ((∀ made, made <+: calls → Consistent (made.foldl leave (.start unicode policy))) ↔
      ∀ made call, made ++ [call] <+: calls →
        Readable (made.foldl leave (.start unicode policy)) call) := by
  refine ⟨fun finish accepted => ?_, consistent_run_iff (.start policy) calls⟩
  obtain ⟨keyed, whole, alike⟩ := observeCalls_ok (KeyedSession.start policy) nofun accepted
  refine ⟨whole, ?_⟩
  rw [coherent_iff keyed.distinct alike, whole]
  rfl

/-- A directory in two spellings, one level above where the files stand. -/
def twoSpellings : List (PortableRelativePath .apostrophe) :=
  [⟨"A/x/f", by decide, by decide⟩, ⟨"a/y/f", by decide, by decide⟩]

/-- A file and another below it. -/
def fileAndBelow : List (PortableRelativePath .apostrophe) :=
  [⟨"a", by decide, by decide⟩, ⟨"a/f", by decide, by decide⟩]

/-- Nothing is there. -/
def nothingThere : Tree .apostrophe :=
  ⟨fun _ => .ok none, fun _ => ⟨.ok false, none, none⟩, fun _ _ => some []⟩

/-- Every directory is there with a file of one byte that cannot be read. -/
def unreadableFiles : Tree .apostrophe :=
  ⟨fun _ => .ok (some 0), fun _ => ⟨.ok true, some 1, none⟩, fun _ _ => some []⟩

/-- Two spellings of one directory are accepted, as is a file and what lies below it, and a file
that cannot be read is paid for. -/
theorem observation_incoherent :
    (∃ finish, observeCall (.start .apostrophe .pack) (nothingThere, twoSpellings) = .ok finish ∧
      ¬ PortablyCoherent finish.paths) ∧
    (∃ finish, observeCall (.start .apostrophe .pack) (nothingThere, fileAndBelow) = .ok finish ∧
      ¬ PortablyCoherent finish.paths) ∧
    ¬ Consistent (leave (.start .apostrophe .pack) (unreadableFiles, fileAndBelow)) := by
  have accepted (paths : List (PortableRelativePath .apostrophe))
      (passes : (observeCall (.start .apostrophe .pack) (nothingThere, paths)).toOption.isSome =
        true) :
      ∃ finish, observeCall (.start .apostrophe .pack) (nothingThere, paths) = .ok finish ∧
        finish.paths = paths := by
    cases done : observeCall (.start .apostrophe .pack) (nothingThere, paths) with
    | error refused =>
      rw [done] at passes
      cases passes
    | ok finish => exact ⟨finish, rfl, (observeCall_ok (KeyedSession.start .pack) done).2.1⟩
  refine ⟨?_, ?_, ?_⟩
  · obtain ⟨finish, done, paths⟩ := accepted twoSpellings (by decide +kernel)
    refine ⟨finish, done, fun coherent => ?_⟩
    rw [paths] at coherent
    have same := coherent.alike _ mem_cons_self _ (mem_cons_of_mem _ mem_cons_self)
      "A" (by decide) "a" (by decide) (by decide)
    revert same
    decide
  · obtain ⟨finish, done, paths⟩ := accepted fileAndBelow (by decide +kernel)
    refine ⟨finish, done, fun coherent => ?_⟩
    rw [paths] at coherent
    exact coherent.apart _ mem_cons_self _ (mem_cons_of_mem _ mem_cons_self) "f"
      (by decide)
  · intro consistent
    have total : (leave (.start .apostrophe .pack) (unreadableFiles, fileAndBelow)).total =
        2 ^ 64 - 2 := by decide +kernel
    rw [consistent.balanced] at total
    revert total
    decide +kernel

end Axial.Minecraft
