/-
This file models the install queue of `install/queue.rs`: its state under the
queue's lock, its durable table, and what each of its operations does to both in
one go. The table's column of checkpoints, the published snapshots and the counters
that number them are left out; what is decided elsewhere, as whether a lease can be
acquired or a transaction commits, is an input.
-/

import Axial.App.ContentArtifact

namespace Axial.Install

open Fallible
open Axial.App (ArtifactKey ResolutionSelection)
open Axial.Minecraft (LoaderComponentId)

deriving instance DecidableEq for ResolutionSelection

abbrev maxInstalls : Nat := 128
abbrev maxProgressPhases : Nat := 32
abbrev maxRevision : Nat := 2 ^ 64 - 1

/-! ### Requests -/

inductive ContentAction where
  | install (selections : List ResolutionSelection) (allowIncompatible : Bool)
  | uninstall (canonicalIds : List String)
  | modpack (canonicalId versionId : String) (selectedFileIds : List String)
      (includeOverrides : Bool)
  deriving DecidableEq

inductive Request where
  | vanilla (versionId : String)
  | loader (componentId : LoaderComponentId) (buildId : String)
  | content (instanceId label : String) (action : ContentAction)
  deriving DecidableEq

def Request.isContent : Request → Bool
  | .content .. => true
  | _ => false

structure LoaderItem where
  componentId : String
  buildId : String
  minecraftVersion : String
  loaderVersion : String
  deriving DecidableEq

structure ContentItem where
  instanceId : String
  label : String
  action : ContentAction
  deriving DecidableEq

structure InstallItem where
  versionId : String
  loader : Option LoaderItem
  content : Option ContentItem
  deriving DecidableEq

inductive InstallOutcome where
  | succeeded
  | failed
  | cancelled
  | removed
  deriving DecidableEq

inductive InstallError where
  | invalidRequest
  | notFound
  | atCapacity
  | libraryUnavailable
  | busy
  | storage
  | notReady
  | clientJarMissing
  | clientJarCorrupt
  | versionJsonMissing
  | librariesMissing
  | librariesCorrupt
  | assetIndexMissing
  | assetIndexCorrupt
  | loaderUnavailable
  | contentUnavailable
  | contentConflict
  | contentInterrupted
  | settlementRequired
  | closed
  | cancelled
  | failed
  deriving DecidableEq

def InstallError.message : InstallError → String
  | invalidRequest => "The install request is invalid."
  | notFound => "The install was not found."
  | atCapacity => "The install queue is full. Wait for an installation to finish."
  | libraryUnavailable => "The library is unavailable."
  | busy => "The library is in use. Wait for its current operation to finish."
  | storage => "Installation metadata could not be saved."
  | notReady =>
    "The version is not fully installed or its files changed. Install it before launching."
  | clientJarMissing =>
    "Client game files are missing. Install this version before launching."
  | clientJarCorrupt => "Client game files are corrupt. Repair this version before launching."
  | versionJsonMissing =>
    "Installed version metadata is missing. Install this version before launching."
  | librariesMissing => "Required libraries are missing. Install this version before launching."
  | librariesCorrupt => "Required libraries are corrupt. Repair this version before launching."
  | assetIndexMissing => "Asset index is missing. Install this version before launching."
  | assetIndexCorrupt => "Asset index is corrupt. Repair this version before launching."
  | loaderUnavailable => "The selected loader build is unavailable."
  | contentUnavailable => "Content installation is unavailable."
  | contentConflict =>
    "Content changed or conflicts with existing files. Review the selection and try again."
  | contentInterrupted =>
    "Content installation was interrupted. Review installed content before retrying."
  | settlementRequired =>
    "This installation requires publication settlement before another operation can begin."
  | closed => "Installations are unavailable while the application is shutting down."
  | cancelled => "Installation resolution was cancelled."
  | failed => "The installation failed. Check your connection and try again."

/-! ### Statuses -/

structure InstallAction where
  action : String
  label : String
  enabled : Bool
  disabledReason : Option String
  deriving DecidableEq

def InstallAction.enable (action label : String) : InstallAction := ⟨action, label, true, none⟩

def removeAction : InstallAction := .enable "remove_from_queue" "Remove from queue"

def cancelAction : InstallAction := .enable "cancel" "Cancel install"

structure ProgressStep where
  phaseId : String
  label : String
  progressPct : Nat
  current : Int
  total : Int
  deriving DecidableEq

structure InstallProgress where
  phaseId : String
  label : String
  progressPct : Nat
  terminal : Bool
  failed : Bool
  activeStep : Option ProgressStep
  deriving DecidableEq

def InstallProgress.starting : InstallProgress where
  phaseId := "starting"
  label := "Preparing install"
  progressPct := 0
  terminal := false
  failed := false
  activeStep := none

def settlementProgress : InstallProgress where
  phaseId := "settlement_required"
  label := "Installation requires settlement"
  progressPct := 0
  terminal := false
  failed := false
  activeStep := none

/-- A step of an installer, as it reports it. -/
structure DownloadProgress where
  phase : String
  current : Int
  total : Int
  file : Option String
  error : Option String
  done : Bool
  bytesDone : Option Nat
  bytesTotal : Option Nat
  deriving DecidableEq

def progressLabel (phase : String) : String :=
  if phase = "version_json" then "Preparing Minecraft"
  else if phase = "client" then "Downloading Minecraft"
  else if phase = "libraries" then "Downloading libraries"
  else if phase = "assets" then "Downloading assets"
  else if phase = "runtime" ∨ phase = "java" then "Preparing Java"
  else if phase = "processors" then "Preparing loader"
  else if phase = "content_planning" then "Planning content changes"
  else if phase = "content_download" then "Downloading content"
  else if phase = "content_commit" then "Applying content changes"
  else "Installing game files"

def progressView (event : DownloadProgress) : InstallProgress :=
  let percent :=
    if 0 < event.total then (min 99 (max event.current 0 * 100 / event.total)).toNat else 0
  { phaseId := event.phase
    label := progressLabel event.phase
    progressPct := percent
    terminal := false
    failed := false
    activeStep := some ⟨event.phase, progressLabel event.phase, percent, event.current, event.total⟩ }

structure InstallFailure where
  stateId : String
  title : String
  tone : String
  summary : String
  retryAction : InstallAction
  dismissAction : InstallAction
  deriving DecidableEq

structure InstallStatus where
  revision : Nat
  outcome : Option InstallOutcome
  allowedActions : List InstallAction
  installId : String
  operationId : String
  done : Bool
  progress : List DownloadProgress
  viewModel : InstallProgress
  failureViewModel : Option InstallFailure
  deriving DecidableEq

def nextRevision (revision : Nat) : Nat := min (revision + 1) maxRevision

/-- The phase and the label of an outcome. -/
def InstallOutcome.shown : InstallOutcome → String × String
  | succeeded => ("done", "Installation complete")
  | failed => ("error", "Installation failed")
  | cancelled => ("cancelled", "Installation cancelled")
  | removed => ("removed", "Removed from queue")

def failureView (error : InstallError) : InstallFailure where
  stateId := "failed"
  title := "Installation failed"
  tone := "danger"
  summary := error.message
  retryAction := .enable "retry" "Retry"
  dismissAction := .enable "dismiss" "Dismiss"

/-- `finish_status`. -/
def InstallStatus.finish (status : InstallStatus) (outcome : InstallOutcome)
    (error : Option InstallError) : InstallStatus :=
  { status with
    done := true
    outcome := some outcome
    allowedActions := []
    revision := nextRevision status.revision
    viewModel := {
      phaseId := outcome.shown.1
      label := outcome.shown.2
      progressPct := if outcome = .succeeded then 100 else 0
      terminal := true
      failed := decide (outcome = .failed)
      activeStep := none }
    failureViewModel :=
      match error with
      | none => status.failureViewModel
      | some error => some (failureView error) }

/-! ### Entries and rows -/

structure GenerationPin where
  libraryId : String
  generation : Nat
  deriving DecidableEq

/-- What an exclusion lease holds. -/
abbrev Lease : Type := List ArtifactKey

/-- Work kept for a later recovery. The proofs that the native kinds carry are left out. -/
inductive RetainedInstall where
  | retry
  | content (settled : Option (InstallOutcome × Option InstallError))
  | publication
  | loaderPublication
  | outcome
  | acknowledgement
  deriving DecidableEq

structure SetupWork where
  instanceId : String
  request : Request
  prerequisite : Request
  deriving DecidableEq

structure Entry where
  request : Request
  item : InstallItem
  status : InstallStatus
  pin : Option GenerationPin
  startedAt : Option Int
  cancelled : Bool
  retained : Option RetainedInstall
  recoveryLease : Option Lease
  recoveryRunning : Bool
  setup : Option SetupWork

inductive RowPhase where
  | queued
  | running
  | settlementRequired
  | terminal
  deriving DecidableEq

/-- A row of the table `install_queue`. -/
structure Row where
  operationId : String
  libraryId : String
  request : Request
  target : InstallItem
  status : InstallStatus
  phase : RowPhase
  acceptedAt : Int
  rowid : Nat

/-- What rows are ordered by. -/
def Row.key (row : Row) : ℤ ×ₗ ℕ := toLex (row.acceptedAt, row.rowid)

/-- The queue's state in memory and its table. -/
structure InstallQueue where
  queued : List String
  active : Option String
  entries : AList fun _ : String => Entry
  closed : Bool
  rows : AList fun _ : String => Row

namespace InstallQueue

def setEntry (queue : InstallQueue) (id : String) (entry : Entry) : InstallQueue :=
  { queue with entries := queue.entries.insert id entry }

/-- `persist_status`, where the transaction commits. -/
def writeStatus (queue : InstallQueue) (status : InstallStatus) (phase : RowPhase) :
    InstallQueue :=
  match queue.rows.lookup status.installId with
  | none => queue
  | some row => { queue with rows := queue.rows.insert status.installId { row with status, phase } }

/-- `persist_status`, with its error ignored. -/
def tryWriteStatus (queue : InstallQueue) (stored : Bool) (status : InstallStatus)
    (phase : RowPhase) : InstallQueue :=
  if stored then queue.writeStatus status phase else queue

/-! ### The durable order -/

def queuedRows (queue : InstallQueue) : List (Σ _ : String, Row) :=
  queue.rows.entries.filter fun row => row.2.phase = .queued

/-- The rows that are not terminal, in the order of their acceptance. -/
def pendingRows (queue : InstallQueue) : List (Σ _ : String, Row) :=
  (queue.rows.entries.filter fun row => row.2.phase ≠ .terminal).insertionSort
    fun left right => left.2.key ≤ right.2.key

/-- The queue that `InstallQueue::new` builds of the rows. -/
def durableQueue (queue : InstallQueue) : List String :=
  (queue.pendingRows.filter fun row => row.2.phase = .queued).map Sigma.fst

/-- `MIN(accepted_at)` of the queued rows. -/
def minAccepted (queue : InstallQueue) : Option Int :=
  (queue.queuedRows.map fun row => row.2.acceptedAt).min?

/-- The row id that an insertion gets. -/
def nextRowid (queue : InstallQueue) : Nat :=
  (queue.rows.entries.map fun row => row.2.rowid).foldr max 0 + 1

/-! ### Admission -/

/-- Where the content service is there, it knows the libraries of the instances. -/
abbrev InstanceLibraries : Type := Option (String → Except InstallError String)

def admitsContent (libraries : InstanceLibraries) (libraryId : String) :
    Request → Except InstallError Unit
  | .content instanceId _ _ =>
    match libraries with
    | none => .error .contentUnavailable
    | some find => do
      let found ← find instanceId
      if found ≠ libraryId then throw .libraryUnavailable
  | _ => .ok ()

/-- What a caller asks to be admitted, and the names it is admitted under if it is new. -/
structure Admission where
  id : String
  operationId : String
  request : Request
  item : InstallItem
  pin : GenerationPin
  setup : Option SetupWork
  front : Bool

/-- The entry of a request that is not done. -/
def findPending (queue : InstallQueue) (request : Request) : Option (Σ _ : String, Entry) :=
  queue.entries.entries.find? fun entry =>
    !entry.2.status.done && entry.2.request = request

/-- Move a queued install to the front, with a key before all queued ones. -/
def bringForward (queue : InstallQueue) (id : String) : InstallQueue :=
  let rows :=
    match queue.rows.lookup id, queue.minAccepted with
    | some row, some least => queue.rows.insert id { row with acceptedAt := least - 1 }
    | _, _ => queue.rows
  { queue with rows, queued := id :: queue.queued.filter fun other => other ≠ id }

def admitExisting (stored : Bool) (admission : Admission) (id : String) (existing : Entry)
    (queue : InstallQueue) : Except InstallError (InstallQueue × String) := do
  if existing.item ≠ admission.item ∨ existing.pin ≠ some admission.pin then
    throw .libraryUnavailable
  if admission.front ∧ id ∈ queue.queued ∧ stored = false then throw .storage
  let queue := if admission.front ∧ id ∈ queue.queued then queue.bringForward id else queue
  let setup := if admission.setup.isSome then admission.setup else existing.setup
  return (queue.setEntry id { existing with setup }, id)

def Admission.status (admission : Admission) : InstallStatus where
  revision := 1
  outcome := none
  allowedActions := [removeAction]
  installId := admission.id
  operationId := admission.operationId
  done := false
  progress := []
  viewModel := { InstallProgress.starting with
    phaseId := "queued", label := "Queued for installation" }
  failureViewModel := none

def Admission.entry (admission : Admission) : Entry where
  request := admission.request
  item := admission.item
  status := admission.status
  pin := some admission.pin
  startedAt := none
  cancelled := false
  retained := none
  recoveryLease := none
  recoveryRunning := false
  setup := admission.setup

def Admission.row (admission : Admission) (acceptedAt : Int) (rowid : Nat) : Row where
  operationId := admission.operationId
  libraryId := admission.pin.libraryId
  request := admission.request
  target := admission.item
  status := admission.status
  phase := .queued
  acceptedAt
  rowid

def admitNew (now : Int) (stored : Bool) (admission : Admission) (queue : InstallQueue) :
    Except InstallError (InstallQueue × String) := do
  if maxInstalls ≤ queue.queued.length + (if queue.active.isSome then 1 else 0) then
    throw .atCapacity
  -- The id is the table's primary key.
  if stored = false ∨ (queue.rows.lookup admission.id).isSome then throw .storage
  let acceptedAt :=
    if admission.front then
      match queue.minAccepted with
      | none => now
      | some least => least - 1
    else now
  let queued :=
    if admission.front then admission.id :: queue.queued else queue.queued ++ [admission.id]
  return ({ queue with
    queued
    entries := queue.entries.insert admission.id admission.entry
    rows := queue.rows.insert admission.id (admission.row acceptedAt queue.nextRowid) },
    admission.id)

/-- `admit_locked`. -/
def admitLocked (libraries : InstanceLibraries) (now : Int) (closing stored : Bool)
    (admission : Admission) (queue : InstallQueue) : Except InstallError (InstallQueue × String) :=
  do
    admitsContent libraries admission.pin.libraryId admission.request
    if queue.closed ∨ closing = true then throw .closed
    match queue.findPending admission.request with
    | some ⟨id, existing⟩ => admitExisting stored admission id existing queue
    | none => admitNew now stored admission queue

/-- `remove_queued`. -/
def removeQueued (id : String) (stored : Bool) (queue : InstallQueue) :
    Except InstallError InstallQueue := do
  if queue.active = some id then throw .busy
  if id ∉ queue.queued then throw .notFound
  match queue.entries.lookup id with
  | none => throw .notFound
  | some entry =>
    if stored = false then throw .storage
    let status := entry.status.finish .removed none
    let queue := queue.writeStatus status .terminal
    return { queue.setEntry id { entry with status, pin := none, setup := none } with
      queued := queue.queued.erase id }

def cancel (id : String) (queue : InstallQueue) : Except InstallError InstallQueue :=
  match queue.entries.lookup id with
  | none => .error .notFound
  | some entry =>
    if entry.request.isContent ∨ entry.status.viewModel.phaseId ≠ "starting" then .error .busy
    else .ok (queue.setEntry id { entry with cancelled := true })

/-! ### Starting -/

def libraryArtifact (libraryId : String) : ArtifactKey := ⟨libraryId, "managed-game-artifacts"⟩

def installArtifacts (request : Request) (libraryId : String) : Lease :=
  if request.isContent then [] else [libraryArtifact libraryId]

/-- What `start_next` meets with. -/
structure StartConditions where
  closing : Bool
  observersClosed : Bool
  contentService : Bool
  /-- The instance id can be read. -/
  instanceKnown : String → Bool
  /-- No setup of the instance is pending. -/
  instanceFree : String → Bool
  /-- The lease can be acquired and the library opened. -/
  acquired : Bool
  now : Int
  storedRunning : Bool
  spawned : Bool
  storedQueued : Bool

def contentReady (conditions : StartConditions) (entry : Entry) : Bool :=
  match entry.request with
  | .content instanceId _ _ =>
    conditions.contentService && conditions.instanceKnown instanceId &&
      (entry.setup.isSome || conditions.instanceFree instanceId)
  | _ => true

def Entry.starting (entry : Entry) (now : Int) : Entry :=
  { entry with
    status := { entry.status with
      viewModel := .starting
      allowedActions := if entry.request.isContent then [] else [cancelAction] }
    startedAt := some now }

/-- The status of an install that found no slot with the task owner. -/
def Entry.waiting (entry : Entry) : Entry :=
  { entry with
    status := { entry.status with
      viewModel := { entry.status.viewModel with
        phaseId := "queued", label := "Waiting for an install slot" }
      allowedActions := [removeAction] }
    startedAt := none }

/-- The entry of an install that was rejected and could not be put back. -/
def Entry.rejected (entry : Entry) (lease : Lease) : Entry :=
  { entry with
    status := { entry.status with viewModel := settlementProgress, allowedActions := [] }
    recoveryLease := some lease
    retained := some
      (if entry.request.isContent then .content (some (.failed, some .storage)) else .retry) }

/-- What the worker of an install is given. -/
structure Started where
  id : String
  content : Bool
  lease : Lease

/-- `start_next`, and the install it started. -/
def startNext (conditions : StartConditions) (queue : InstallQueue) :
    InstallQueue × Option Started :=
  if queue.closed ∨ queue.active.isSome ∨ conditions.closing ∨ conditions.observersClosed then
    (queue, none)
  else
    match queue.queued with
    | [] => (queue, none)
    | id :: rest =>
      match queue.entries.lookup id with
      | none => (queue, none)
      | some entry =>
        match entry.pin with
        | none => (queue, none)
        | some pin =>
          if contentReady conditions entry = false ∨ conditions.acquired = false then (queue, none)
          else
            let entry := Entry.starting entry conditions.now
            if conditions.storedRunning = false then (queue.setEntry id entry, none)
            else
              let started := { (queue.writeStatus entry.status .running).setEntry id entry with
                active := some id, queued := rest }
              let lease := installArtifacts entry.request pin.libraryId
              if conditions.spawned then (started, some ⟨id, entry.request.isContent, lease⟩)
              else if conditions.storedQueued then
                ({ (started.writeStatus (Entry.waiting entry).status .queued).setEntry id
                    (Entry.waiting entry) with active := none, queued := id :: rest }, none)
              else (started.setEntry id (Entry.rejected entry lease), none)

/-! ### Progress, completion and retention -/

def noteProgress (progress : List DownloadProgress) (event : DownloadProgress) :
    List DownloadProgress :=
  if progress.any fun previous => previous.phase = event.phase then
    progress.replaceF fun previous => if previous.phase = event.phase then some event else none
  else if progress.length < maxProgressPhases then progress ++ [event]
  else progress

def progress (id : String) (event : DownloadProgress) (queue : InstallQueue) : InstallQueue :=
  if event.done then queue
  else
    let event := { event with file := none, error := none }
    match queue.entries.lookup id with
    | none => queue
    | some entry =>
      if entry.status.done ∨ entry.status.viewModel.phaseId = "settlement_required" then queue
      else
        queue.setEntry id { entry with status := { entry.status with
          allowedActions := []
          viewModel := progressView event
          progress := noteProgress entry.status.progress event
          revision := nextRevision entry.status.revision } }

def Entry.completed (entry : Entry) (outcome : InstallOutcome) (error : Option InstallError) :
    Entry :=
  { entry with
    status := entry.status.finish outcome error
    pin := none
    recoveryLease := none
    retained := none
    setup := none }

/-- `complete`. -/
def complete (id : String) (outcome : InstallOutcome) (error : Option InstallError)
    (stored : Bool) (queue : InstallQueue) : InstallQueue × Bool :=
  match queue.entries.lookup id with
  | none => (queue, false)
  | some entry =>
    if entry.status.done then (queue, true)
    else if stored = false then
      (queue.setEntry id
        { entry with status := { entry.status with viewModel := settlementProgress } }, false)
    else
      let entry := Entry.completed entry outcome error
      ({ (queue.writeStatus entry.status .terminal).setEntry id entry with active := none }, true)

/-- The first of the two critical sections of `retain_work`. -/
def retainLease (id : String) (lease : Lease) (queue : InstallQueue) : InstallQueue :=
  match queue.entries.lookup id with
  | none => queue
  | some entry => queue.setEntry id { entry with recoveryLease := some lease }

def InstallStatus.unsettled (status : InstallStatus) : InstallStatus :=
  { status with
    viewModel := settlementProgress
    allowedActions := []
    revision := nextRevision status.revision }

/-- `retain_unsettled`, the second of them. -/
def retainUnsettled (id : String) (retained : RetainedInstall) (stored : Bool)
    (queue : InstallQueue) : InstallQueue :=
  match queue.entries.lookup id with
  | none => queue
  | some entry =>
    let status := InstallStatus.unsettled entry.status
    (queue.setEntry id { entry with status, retained := some retained }).tryWriteStatus stored
      status .settlementRequired

/-! ### Recovery -/

/-- The critical section of `recover_interrupted_with`, for an install that is not content. It
claims nothing for an install that is done or queued. -/
def claimNative (id : String) (queue : InstallQueue) :
    Except InstallError (Option InstallQueue) :=
  match queue.entries.lookup id with
  | none => .error .notFound
  | some entry =>
    if entry.status.done ∨ entry.status.viewModel.phaseId = "queued" then .ok none
    else if queue.active ≠ some id ∨
        entry.status.viewModel.phaseId ≠ "settlement_required" then .error .busy
    else if entry.recoveryRunning then .error .busy
    else if entry.pin = none then .error .libraryUnavailable
    else if entry.recoveryLease = none then .error .settlementRequired
    else .ok (some (queue.setEntry id { entry with recoveryRunning := true }))

/-- What `recover_content` takes along from its first critical section. -/
structure ContentClaim where
  pin : GenerationPin
  lease : Lease
  setup : Option SetupWork
  settled : Option (InstallOutcome × Option InstallError)
  retained : Bool
  deriving DecidableEq

/-- The first critical section of `recover_content`. -/
def checkContent (id : String) (queue : InstallQueue) : Except InstallError ContentClaim :=
  match queue.entries.lookup id with
  | none => .error .notFound
  | some entry =>
    if entry.recoveryRunning then .error .busy
    else
      match entry.pin, entry.recoveryLease with
      | none, _ => .error .libraryUnavailable
      | some _, none => .error .settlementRequired
      | some pin, some lease =>
        .ok {
          pin
          lease
          setup := entry.setup
          settled :=
            match entry.retained with
            | some (.content settled) => settled
            | _ => none
          retained := entry.retained.isSome }

/-- The second critical section of `recover_content`. -/
def claimContent (id : String) (queue : InstallQueue) : Except InstallError InstallQueue :=
  match queue.entries.lookup id with
  | none => .error .notFound
  | some entry =>
    if entry.recoveryRunning then .error .busy
    else
      .ok (queue.setEntry id { entry with
        recoveryRunning := true
        status := { entry.status with
          viewModel := .starting
          revision := nextRevision entry.status.revision } })

def takeRetained (id : String) (queue : InstallQueue) : InstallQueue :=
  match queue.entries.lookup id with
  | none => queue
  | some entry => queue.setEntry id { entry with retained := none }

def InstallStatus.requeued (status : InstallStatus) : InstallStatus :=
  { status with
    viewModel := { status.viewModel with phaseId := "queued", label := "Queued after restart" }
    allowedActions := [removeAction] }

/-- `requeue_recovered`. -/
def requeueRecovered (id : String) (stored : Bool) (queue : InstallQueue) :
    Except InstallError InstallQueue :=
  match queue.entries.lookup id with
  | none => .error .notFound
  | some entry =>
    let status := InstallStatus.requeued entry.status
    if stored = false then .error .storage
    else
      .ok { (queue.writeStatus status .queued).setEntry id
          { entry with status, recoveryLease := none, retained := none } with
        active := none, queued := id :: queue.queued }

/-- `recovery_finished`. -/
def recoveryFinished (id : String) (settled stored : Bool) (queue : InstallQueue) :
    InstallQueue :=
  match queue.entries.lookup id with
  | none => queue
  | some entry =>
    if settled ∨ entry.status.done then
      queue.setEntry id { entry with recoveryRunning := false }
    else
      let status := InstallStatus.unsettled entry.status
      (queue.setEntry id { entry with recoveryRunning := false, status }).tryWriteStatus stored
        status .settlementRequired

/-! ### Restart -/

/-- An entry that was read from its row, with the pin of the library if that is still the same. -/
def Row.entry (row : Row) (library : Option GenerationPin) : Entry :=
  let pin := library.filter fun pin => pin.libraryId = row.libraryId
  let entry : Entry := {
    request := row.request
    item := row.target
    status := row.status
    pin
    startedAt := none
    cancelled := false
    retained := none
    recoveryLease := none
    recoveryRunning := false
    setup := none }
  if row.phase = .queued then entry
  else
    { entry with
      status := { row.status with
        viewModel := settlementProgress, done := false, outcome := none, allowedActions := [] }
      recoveryLease := some (installArtifacts row.request row.libraryId) }

def load (library : Option GenerationPin) (queue : InstallQueue) (row : Σ _ : String, Row) :
    InstallQueue :=
  let queue := queue.setEntry row.1 (Row.entry row.2 library)
  if row.2.phase = .queued then { queue with queued := queue.queued ++ [row.1] }
  else { queue with active := some row.1 }

/-- `InstallQueue::new`, of the rows that are left of an earlier queue. Whether the leases can be
acquired is decided elsewhere. -/
def new (library : Option GenerationPin) (acquired : Bool) (queue : InstallQueue) :
    Except InstallError InstallQueue :=
  if maxInstalls < queue.pendingRows.length then .error .atCapacity
  else if acquired = false then .error .busy
  else
    .ok (queue.pendingRows.foldl (load library)
      { queued := [], active := none, entries := ∅, closed := false, rows := queue.rows })

end InstallQueue
end Axial.Install
