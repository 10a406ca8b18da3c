/-
This file models the update authority of the application: the snapshot that it
publishes, its one active attempt, and the calls of the native adapter and of the
shell that it answers, each under the lock of the service. A call that exhausts a
counter panics and poisons the lock, after which no call returns.
-/

import Mathlib

namespace Axial.Update

/-! ### The snapshot -/

inductive UpdatePhase where
  | idle
  | downloading
  | ready
  | applying
  | restartPending
  | failed
  deriving DecidableEq

structure UpdateInfo where
  currentVersion : String
  latestVersion : String
  available : Bool
  platform : String
  arch : String
  kind : String
  installMode : String
  notesUrl : String
  actionUrl : String
  checksumUrl : Option String
  actionLabel : String
  checkedAt : String

structure UpdateFlow where
  revision : Nat
  phase : UpdatePhase
  version : String
  receivedBytes : UInt64
  totalBytes : Option UInt64
  percent : Option Float
  message : String
  supported : Bool
  canCheck : Bool
  canDownload : Bool
  canApply : Bool
  canRestart : Bool

structure UpdateSnapshot where
  info : Option UpdateInfo
  flow : UpdateFlow

structure UpdateAttempt where
  number : Nat
  deriving DecidableEq

inductive UpdateError where
  | unsupported
  | busy
  | staleRelease
  | notReady
  | failed (message : String)

/-! ### The service -/

structure Inner where
  snapshot : UpdateSnapshot
  currentVersion : String
  platform : String
  arch : String
  attempt : Nat
  active : Option UpdateAttempt
  terminal : Bool
  configured : Bool

/-- The state behind the lock, and what has been sent to the subscribers, newest last. -/
structure UpdateService where
  inner : Inner
  changes : List UpdateSnapshot

/-- `checked_add(1)` of a `u64`. -/
def checkedSucc (counter : Nat) : Option Nat :=
  if counter + 1 < 2 ^ 64 then some (counter + 1) else none

namespace UpdateService

def new (currentVersion platform arch : String) : UpdateService where
  inner.snapshot.info := none
  inner.snapshot.flow := {
    revision := 0
    phase := .idle
    version := ""
    receivedBytes := 0
    totalBytes := none
    percent := none
    message := "In-app updates require a supported desktop package and a configured trusted " ++
      "release feed."
    supported := false
    canCheck := false
    canDownload := false
    canApply := false
    canRestart := false }
  inner.currentVersion := currentVersion
  inner.platform := platform
  inner.arch := arch
  inner.attempt := 0
  inner.active := none
  inner.terminal := false
  inner.configured := false
  changes := []

variable (service : UpdateService)

abbrev snapshot : UpdateSnapshot :=
  service.inner.snapshot

abbrev flow : UpdateFlow :=
  service.inner.snapshot.flow

/-- `admit`, where an error turns the call away. -/
def admission : Option UpdateError :=
  if ¬ service.flow.supported then some .unsupported
  else if service.inner.active.isSome ∨ service.inner.terminal then some .busy
  else none

end UpdateService

namespace Inner

/-- A new attempt becomes the active one. -/
def start (inner : Inner) : Option (Inner × UpdateAttempt) := do
  let attempt ← checkedSucc inner.attempt
  return ({ inner with attempt, active := some ⟨attempt⟩ }, ⟨attempt⟩)

/-- The flow that is published, with the revision and what may be asked of it. -/
def advertise (inner : Inner) (revision : Nat) : UpdateFlow :=
  let flow := inner.snapshot.flow
  let canCheck := flow.supported && inner.active.isNone && !inner.terminal &&
    decide (flow.phase ≠ .ready)
  { flow with
    revision
    canCheck
    canDownload := canCheck && inner.snapshot.info.any (·.available)
    canApply := flow.supported && decide (flow.phase = .ready) && inner.active.isNone
    canRestart := inner.terminal && inner.active.isNone }

/-- The state as it is published. -/
def published (inner : Inner) (revision : Nat) : Inner :=
  { inner with snapshot.flow := inner.advertise revision }

/-! ### What the calls change before they publish -/

def configure (inner : Inner) (unsupportedReason : Option String) : Inner :=
  { inner with
    configured := true
    snapshot.flow.supported := unsupportedReason.isNone
    snapshot.flow.message := unsupportedReason.getD "" }

def checking (inner : Inner) : Inner :=
  { inner with
    snapshot.info := none
    snapshot.flow.phase := .idle
    snapshot.flow.version := ""
    snapshot.flow.receivedBytes := 0
    snapshot.flow.totalBytes := none
    snapshot.flow.percent := none
    snapshot.flow.message := "Checking for updates..." }

/-- The release is what the native updater has validated, as a version and its notes. -/
def checked (inner : Inner) (release : Option (String × String)) (now : String) : Inner :=
  let latestVersion := (release.map (·.1)).getD inner.currentVersion
  let notesUrl := (release.map (·.2)).getD ""
  let info : UpdateInfo := {
    currentVersion := inner.currentVersion
    latestVersion
    available := release.isSome
    platform := inner.platform
    arch := inner.arch
    kind := if release.isSome then "release-asset" else "none"
    installMode := "in-app"
    actionUrl := notesUrl
    notesUrl
    checksumUrl := none
    actionLabel := "Download update"
    checkedAt := now }
  { inner with
    snapshot.info := some info
    active := none
    snapshot.flow.phase := .idle
    snapshot.flow.message := "" }

def downloading (inner : Inner) (version : String) : Inner :=
  { inner with
    snapshot.flow.phase := .downloading
    snapshot.flow.version := version
    snapshot.flow.receivedBytes := 0
    snapshot.flow.totalBytes := none
    snapshot.flow.percent := none
    snapshot.flow.message := "Downloading update..." }

def receiving (inner : Inner) (received : UInt64) (total : Option UInt64) : Inner :=
  let totalBytes := total.filter fun total => decide (received ≤ total) && decide (0 < total)
  { inner with
    snapshot.flow.receivedBytes := received
    snapshot.flow.totalBytes := totalBytes
    snapshot.flow.percent :=
      totalBytes.map fun total => received.toFloat / total.toFloat * 100 }

def verifying (inner : Inner) : Inner :=
  { inner with snapshot.flow.message := "Verifying update signature..." }

def staged (inner : Inner) : Inner :=
  { inner with
    active := none
    snapshot.flow.phase := .ready
    snapshot.flow.message := "Signature verified. Restart to install the update." }

def applying (inner : Inner) : Inner :=
  { inner with
    snapshot.flow.phase := .applying
    snapshot.flow.message := "Installing verified update..." }

def installed (inner : Inner) : Inner :=
  { inner with
    active := none
    snapshot.flow.phase := .restartPending
    snapshot.flow.message := "Update installed. Restart to finish." }

def failed (inner : Inner) (safeMessage : String) : Inner :=
  { inner with
    active := none
    snapshot.flow.phase := .failed
    snapshot.flow.message := String.ofList (safeMessage.toList.take 500) }

end Inner

namespace UpdateService

variable (service : UpdateService)

def publish (inner : Inner) : Option UpdateService := do
  let revision ← checkedSucc inner.snapshot.flow.revision
  let inner := inner.published revision
  return ⟨inner, service.changes ++ [inner.snapshot]⟩

/-! ### The calls -/

def configure (unsupportedReason : Option String) : Option UpdateService :=
  if service.inner.configured ∨ service.inner.active.isSome ∨ service.inner.terminal then some service
  else service.publish (service.inner.configure unsupportedReason)

/-- Starts an attempt, changes the state and publishes it. -/
def begin (inner : Inner) (change : Inner → Inner) :
    Option (UpdateService × Except UpdateError UpdateAttempt) := do
  let (inner, attempt) ← inner.start
  let service ← service.publish (change inner)
  return (service, .ok attempt)

def beginCheck : Option (UpdateService × Except UpdateError UpdateAttempt) :=
  match service.admission with
  | some error => some (service, .error error)
  | none =>
    if service.flow.phase = .ready then some (service, .error .busy)
    else service.begin service.inner Inner.checking

def checked (attempt : UpdateAttempt) (release : Option (String × String)) (now : String) :
    Option (UpdateService × Bool) :=
  if service.inner.active ≠ some attempt ∨ service.flow.phase ≠ .idle then some (service, false)
  else (service.publish (service.inner.checked release now)).map (·, true)

def beginDownload (version : String) :
    Option (UpdateService × Except UpdateError UpdateAttempt) :=
  match service.admission with
  | some error => some (service, .error error)
  | none =>
    if ¬ service.snapshot.info.any fun info =>
        info.available && decide (info.latestVersion = version) then
      some (service, .error .staleRelease)
    else if service.flow.phase = .ready then some (service, .error .busy)
    else service.begin service.inner (Inner.downloading · version)

def progress (attempt : UpdateAttempt) (received : UInt64) (total : Option UInt64) :
    Option UpdateService :=
  if service.inner.active ≠ some attempt ∨ service.flow.phase ≠ .downloading then some service
  else if received < service.flow.receivedBytes then some service
  else service.publish (service.inner.receiving received total)

def verifying (attempt : UpdateAttempt) : Option UpdateService :=
  if service.inner.active ≠ some attempt ∨ service.flow.phase ≠ .downloading then some service
  else service.publish service.inner.verifying

def staged (attempt : UpdateAttempt) : Option (UpdateService × Bool) :=
  if service.inner.active ≠ some attempt ∨ service.flow.phase ≠ .downloading then some (service, false)
  else (service.publish service.inner.staged).map (·, true)

def beginApply : Option (UpdateService × Except UpdateError UpdateAttempt) :=
  match service.admission with
  | some error => some (service, .error error)
  | none =>
    if service.flow.phase ≠ .ready then some (service, .error .notReady)
    else service.begin { service.inner with terminal := true } Inner.applying

def installed (attempt : UpdateAttempt) : Option UpdateService :=
  if service.inner.active ≠ some attempt ∨ service.flow.phase ≠ .applying then some service
  else service.publish service.inner.installed

def failed (attempt : UpdateAttempt) (safeMessage : String) : Option UpdateService :=
  if service.inner.active ≠ some attempt then some service
  else service.publish (service.inner.failed safeMessage)

end UpdateService

/-! ### The authority over a run -/

inductive Call where
  | configure (unsupportedReason : Option String)
  | beginCheck
  | checked (attempt : UpdateAttempt) (release : Option (String × String)) (now : String)
  | beginDownload (version : String)
  | progress (attempt : UpdateAttempt) (received : UInt64) (total : Option UInt64)
  | verifying (attempt : UpdateAttempt)
  | staged (attempt : UpdateAttempt)
  | beginApply
  | installed (attempt : UpdateAttempt)
  | failed (attempt : UpdateAttempt) (safeMessage : String)

inductive Answer where
  | done
  | accepted (accepted : Bool)
  | begun (attempt : Except UpdateError UpdateAttempt)

/-- What a call makes of the service, where it returns. -/
def UpdateService.perform (service : UpdateService) : Call → Option (UpdateService × Answer)
  | .configure reason => (service.configure reason).map (·, .done)
  | .beginCheck => service.beginCheck.map fun (after, begun) => (after, .begun begun)
  | .checked attempt release now =>
    (service.checked attempt release now).map fun (after, took) => (after, .accepted took)
  | .beginDownload version =>
    (service.beginDownload version).map fun (after, begun) => (after, .begun begun)
  | .progress attempt received total => (service.progress attempt received total).map (·, .done)
  | .verifying attempt => (service.verifying attempt).map (·, .done)
  | .staged attempt => (service.staged attempt).map fun (after, took) => (after, .accepted took)
  | .beginApply => service.beginApply.map fun (after, begun) => (after, .begun begun)
  | .installed attempt => (service.installed attempt).map (·, .done)
  | .failed attempt message => (service.failed attempt message).map (·, .done)

/-- The attempt that a call is made for. -/
def Call.attempt? : Call → Option UpdateAttempt
  | .checked attempt _ _ | .progress attempt _ _ | .verifying attempt | .staged attempt
  | .installed attempt | .failed attempt _ => some attempt
  | .configure _ | .beginCheck | .beginDownload _ | .beginApply => none

/-- The phases that a call about an attempt belongs to. -/
def Call.Belongs : Call → UpdatePhase → Prop
  | .checked _ _ _, phase => phase = .idle
  | .progress _ _ _, phase | .verifying _, phase | .staged _, phase => phase = .downloading
  | .installed _, phase => phase = .applying
  | .failed _ _, _ => True
  | .configure _, _ | .beginCheck, _ | .beginDownload _, _ | .beginApply, _ => True

/-- A call that returned. -/
structure Moment where
  before : UpdateService
  call : Call
  answer : Answer
  after : UpdateService

/-- What the service goes through, in the order of the lock, up to a call that panics. -/
inductive Run (start : UpdateService) : List Moment → UpdateService → Prop
  | nil : Run start [] start
  | snoc {moments : List Moment} {service after : UpdateService} {call : Call} {answer : Answer}
      (run : Run start moments service) (returned : service.perform call = some (after, answer)) :
      Run start (moments ++ [⟨service, call, answer, after⟩]) after

end Axial.Update
