/-
This file embeds the registry of sessions: what a start, a stop and a shutdown do to it, and how
the entries of the sessions change their phases. The registry is only touched under its lock,
but phases are published without it, so the eviction that ends a start is taken apart into
steps, one for each phase that it reads.
-/

import Axial.Library.History

namespace Axial.Launch

/-! ### Entries and the registry -/

inductive SessionPhase where
  | starting
  | running
  | stopping
  | settling
  | unresolved
  | exited
  deriving DecidableEq

inductive SessionError where
  | busy
  | atCapacity
  | closing
  deriving DecidableEq

abbrev retainedTerminalSessions : Nat := 64
abbrev maxSessionIdentities : Nat := 4096

/-- An entry of a session. When its task has ended nothing but a stop publishes a phase. -/
structure SessionEntry (SessionId InstanceId : Type) where
  sessionId : SessionId
  instanceId : InstanceId
  phase : SessionPhase
  ended : Bool

variable {SessionId InstanceId : Type} [DecidableEq SessionId] [DecidableEq InstanceId]

/-- The registry refers to an entry by its place in the order of the starts. -/
structure Registry (SessionId InstanceId : Type) [DecidableEq SessionId]
    [DecidableEq InstanceId] where
  closing : Bool
  current : AList fun _ : InstanceId => SessionId
  sessions : AList fun _ : SessionId => Nat
  retired : AList fun _ : SessionId => SessionEntry SessionId InstanceId
  order : List SessionId

/-- How far `evict_terminal_history` has come: it counts the sessions that have exited, and then
goes through `order`. -/
inductive Eviction (SessionId : Type) where
  | counting (todo : List SessionId) (count : Nat)
  | retaining (kept todo : List SessionId) (count : Nat)

structure Sessions (SessionId InstanceId : Type) [DecidableEq SessionId]
    [DecidableEq InstanceId] where
  entries : List (SessionEntry SessionId InstanceId)
  registry : Registry SessionId InstanceId
  /-- The eviction of the start that holds the lock. -/
  eviction : Option (Eviction SessionId)
  /-- The entries that each shutdown still waits for. -/
  shutdowns : List (List Nat)

namespace Sessions

def empty : Sessions SessionId InstanceId := ⟨[], ⟨false, ∅, ∅, ∅, []⟩, none, []⟩

variable (sessions : Sessions SessionId InstanceId)

/-- The entry that the registry has for an identity. -/
def entry (sessionId : SessionId) : Option (SessionEntry SessionId InstanceId) :=
  (sessions.registry.sessions.lookup sessionId).bind (sessions.entries[·]?)

def hasExited (sessionId : SessionId) : Bool :=
  (sessions.entry sessionId).any fun entry => entry.phase = .exited

end Sessions

/-! ### Steps -/

inductive SessionOutcome where
  | nothing
  | started
  | refused (error : SessionError)
  /-- The lock is held. -/
  | blocked
  /-- The start that has evicted returns. -/
  | released
  /-- `shutdown` returns `Ok`. -/
  | shutDown
  deriving DecidableEq

inductive SessionAction (SessionId InstanceId : Type) where
  /-- `start_reserved` up to its eviction: whether the identity is spelt as it has to be and
  matches the acceptance, and whether the task owner takes the task. -/
  | start (sessionId : SessionId) (instanceId : InstanceId) (matching spawned : Bool)
  | evict
  /-- The task of a session publishes that it goes on. -/
  | publish (place : Nat) (phase : SessionPhase)
  /-- The task of a session has settled. -/
  | exit (place : Nat)
  /-- The task of a session panics. -/
  | panic (place : Nat)
  | stop (place : Nat)
  /-- `shutdown` closes the registry. -/
  | close
  /-- A shutdown looks at an entry. -/
  | await (shutdown : Nat)

namespace Sessions

def startReserved (sessionId : SessionId) (instanceId : InstanceId) (matching spawned : Bool)
    (sessions : Sessions SessionId InstanceId) :
    Sessions SessionId InstanceId × SessionOutcome :=
  let registry := sessions.registry
  if ¬matching then (sessions, .refused .busy)
  else if sessions.eviction.isSome then (sessions, .blocked)
  else if registry.closing then (sessions, .refused .closing)
  else if sessionId ∈ registry.sessions ∨ sessionId ∈ registry.retired then
    (sessions, .refused .busy)
  else if maxSessionIdentities ≤
      registry.sessions.entries.length + registry.retired.entries.length then
    (sessions, .refused .atCapacity)
  else if ((registry.current.lookup instanceId).bind sessions.entry).any
      fun entry => entry.phase ≠ .exited then
    (sessions, .refused .busy)
  else if ¬spawned then (sessions, .refused .atCapacity)
  else
    let added := registry.sessions.insert sessionId sessions.entries.length
    ({ sessions with
      entries := sessions.entries ++ [⟨sessionId, instanceId, .starting, false⟩]
      registry := { registry with
        current := registry.current.insert instanceId sessionId
        sessions := added
        order := registry.order ++ [sessionId] }
      eviction := some (.counting added.keys 0) }, .started)

/-- Takes a session that has exited out of the registry. -/
def retire (sessionId : SessionId) (entry : SessionEntry SessionId InstanceId)
    (order : List SessionId) (registry : Registry SessionId InstanceId) :
    Registry SessionId InstanceId :=
  { registry with
    current := if registry.current.lookup entry.instanceId = some sessionId then
      registry.current.erase entry.instanceId else registry.current
    sessions := registry.sessions.erase sessionId
    retired := registry.retired.insert sessionId entry
    order }

/-- One step of `evict_terminal_history`. -/
def evict (sessions : Sessions SessionId InstanceId) :
    Sessions SessionId InstanceId × SessionOutcome :=
  match sessions.eviction with
  | none => (sessions, .nothing)
  | some (.counting [] count) =>
    ({ sessions with eviction := some (.retaining [] sessions.registry.order count) }, .nothing)
  | some (.counting (sessionId :: todo) count) =>
    let counted := if sessions.hasExited sessionId then count + 1 else count
    ({ sessions with eviction := some (.counting todo counted) }, .nothing)
  | some (.retaining _ [] _) => ({ sessions with eviction := none }, .released)
  | some (.retaining kept (sessionId :: todo) count) =>
    let passed := { sessions with
      eviction := some (.retaining (kept ++ [sessionId]) todo count) }
    if count ≤ retainedTerminalSessions then (passed, .nothing)
    else match sessions.entry sessionId with
      | none => ({ sessions with
          registry := { sessions.registry with order := kept ++ todo }
          eviction := some (.retaining kept todo count) }, .nothing)
      | some entry =>
        if entry.phase ≠ .exited then (passed, .nothing)
        else ({ sessions with
          registry := retire sessionId entry (kept ++ todo) sessions.registry
          eviction := some (.retaining kept todo (count - 1)) }, .nothing)

/-- Publishes a phase of the entry at a place. -/
def publish (place : Nat) (phase : SessionPhase) (ended : Bool)
    (sessions : Sessions SessionId InstanceId) : Sessions SessionId InstanceId :=
  match sessions.entries[place]? with
  | none => sessions
  | some entry =>
    { sessions with entries := sessions.entries.set place { entry with phase, ended } }

/-- What the task of an entry publishes while it has not ended. -/
def publishByTask (place : Nat) (phase : SessionPhase) (ended : Bool)
    (sessions : Sessions SessionId InstanceId) : Sessions SessionId InstanceId :=
  if (sessions.entries[place]?).any fun entry => !entry.ended then
    sessions.publish place phase ended
  else sessions

def stop (place : Nat) (sessions : Sessions SessionId InstanceId) :
    Sessions SessionId InstanceId :=
  match sessions.entries[place]? with
  | none => sessions
  | some entry =>
    if entry.phase = .starting ∨ entry.phase = .running then
      sessions.publish place .stopping entry.ended
    else sessions

def close (sessions : Sessions SessionId InstanceId) :
    Sessions SessionId InstanceId × SessionOutcome :=
  if sessions.eviction.isSome then (sessions, .blocked)
  else ({ sessions with
    registry := { sessions.registry with closing := true }
    shutdowns := sessions.shutdowns ++
      [sessions.registry.sessions.entries.map Sigma.snd] }, .nothing)

def await (shutdown : Nat) (sessions : Sessions SessionId InstanceId) :
    Sessions SessionId InstanceId × SessionOutcome :=
  match sessions.shutdowns[shutdown]? with
  | none => (sessions, .nothing)
  | some [] => (sessions, .shutDown)
  | some (place :: rest) =>
    if (sessions.entries[place]?).any fun entry => entry.phase = .exited then
      ({ sessions with shutdowns := sessions.shutdowns.set shutdown rest }, .nothing)
    else (sessions, .nothing)

def perform : SessionAction SessionId InstanceId → Sessions SessionId InstanceId →
    Sessions SessionId InstanceId × SessionOutcome
  | .start sessionId instanceId matching spawned, sessions =>
    sessions.startReserved sessionId instanceId matching spawned
  | .evict, sessions => sessions.evict
  | .publish place phase, sessions =>
    (if phase = .exited then sessions else sessions.publishByTask place phase false, .nothing)
  | .exit place, sessions => (sessions.publishByTask place .exited true, .nothing)
  | .panic place, sessions => (sessions.publishByTask place .unresolved true, .nothing)
  | .stop place, sessions => (sessions.stop place, .nothing)
  | .close, sessions => sessions.close
  | .await shutdown, sessions => sessions.await shutdown

end Sessions

end Axial.Launch
