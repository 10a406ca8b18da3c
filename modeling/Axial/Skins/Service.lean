/-
This file embeds the service around the queue of skin changes as a system that takes one
step at a time: requests that queue, cancel and flush, edits of the library, removals of
accounts, the workers that claim a choice and apply it, and the resets, which share the
gate of the account with them. A worker that applies a choice takes one step for each call.
What has happened is kept as a history, newest first.

A run goes on until the service is closing: the flag `closing`, `shutdown` with the workers that
it spawns where it fails, and the minute after which `flush_pending` gives up are left out.
-/

import Axial.Skins.ProfileChange

namespace Axial.Skins

open Accounts Program

/-! ### The state -/

/-- Where `run_scheduled` of a worker is. -/
inductive Stage where
  /-- At the head of the loop, or asleep until the choice is due. -/
  | scheduled
  /-- Holds the gate of the account. -/
  | gated
  | applying (pending : PendingSkin) (rest : SkinProgram Unit)
  /-- Called `finish`, still holds the gate. -/
  | finished
  /-- Has returned; `finished_worker` is what remains. -/
  | leaving

structure Worker where
  scheduled : PendingSkin
  stage : Stage

inductive ResetStage where
  | waiting
  | running (rest : SkinProgram Unit)

structure Reset where
  capture : CapturedAccount
  skin : Bool
  stage : ResetStage

inductive Task where
  | worker (worker : Worker)
  | reset (reset : Reset)

/-- Where a caller of one of the flushes is. Those that wait are woken by a notification that
comes after they armed, also when it comes before they fall asleep. -/
inductive CallerStage where
  /-- Between two intents, or at the end. -/
  | between
  /-- The intent was not expedited. -/
  | refused (account : String) (generation : Nat)
  /-- The intent was expedited; at the head of `wait_for_generation`. -/
  | entered (account : String) (generation : Nat)
  | polling (account : String) (generation : Nat)
  | armed (account : String) (generation : Nat) (notified : Bool)
  | asleep (account : String) (generation : Nat) (notified : Bool)

structure Caller where
  /-- The intents that `flush_pending` has still to go through. -/
  remaining : List (String × Nat)
  stage : CallerStage

inductive Event where
  | accepted (account : String) (generation : Nat)
  /-- A cancellation that was answered with true took the choice, before any effect of it. -/
  | cancelled (account : String) (generation : Nat)
  /-- An edit of the library or the removal of the account took these choices. -/
  | withdrawn (hits : String → Nat → Prop)
  | claimed (account : String) (generation : Nat)
  | began (account : String) (generation : Nat)
  /-- A request that writes went out to the provider. -/
  | sent (account : String) (generation : Nat)
  | written (account : String) (generation : Nat)
    (answer : Except ProfileMediaError (Option MinecraftProfile))
  | finished (account : String) (generation : Nat) (outcome : Outcome)
  | told (account : String) (generation : Nat) (outcome : Outcome)

abbrev TaskId : Type := Nat

structure System where
  pending : PendingSkins
  now : Nat
  /-- `Admission::active` -/
  active : Nat → Bool
  /-- The task that holds the gate of an account. -/
  gates : String → Option TaskId
  tasks : TaskId → Option Task
  callers : Nat → Option Caller
  history : List Event

def System.initial : System :=
  ⟨.initial, 0, fun _ => false, fun _ => none, fun _ => none, fun _ => none, []⟩

/-! ### What steps do -/

def CallerStage.notify : CallerStage → CallerStage
  | .armed account generation _ => .armed account generation true
  | .asleep account generation _ => .asleep account generation true
  | stage => stage

namespace System

variable (system : System)

/-- `changed.notify_waiters()` -/
def notify : System :=
  { system with
    callers := fun id => (system.callers id).map fun caller =>
      { caller with stage := caller.stage.notify } }

/-- Events in the order in which they happen. -/
def record (events : List Event) : System :=
  { system with history := events.reverse ++ system.history }

def withTask (id : TaskId) (task : Option Task) : System :=
  { system with tasks := Function.update system.tasks id task }

def withCaller (id : Nat) (remaining : List (String × Nat)) (stage : CallerStage) : System :=
  { system with callers := Function.update system.callers id (some ⟨remaining, stage⟩) }

def withGate (account : String) (holder : Option TaskId) : System :=
  { system with gates := Function.update system.gates account holder }

/-- `spawn_worker`, as `id`; where it fails nothing changes. -/
def spawn (pending : PendingSkin) (id : TaskId) : System :=
  { system.withTask id (some (.worker ⟨pending, .scheduled⟩)) with
    active := Function.update system.active pending.generation true }

/-- Spawns a worker for the choice that waits for the account, if it has none. -/
def spawnQueued (account : String) (id : TaskId) (admitted : Bool) : System :=
  match system.pending.queued account with
  | none => system
  | some next =>
    if !system.active next.generation && admitted then system.spawn next id else system

def outcomeFor (account : String) (generation : Nat) : Option Outcome :=
  system.pending.outcome account generation

end System

/-- The generations that a cancellation takes. A choice whose effect has begun is not among
them. -/
def Slot.cancelHits (slot : Slot) (generation : Option Nat) : List Nat :=
  (slot.queued.map (·.generation)).toList ++
    ((slot.running.filter fun running =>
      (generation.all fun id => running.generation = id) && !slot.effectStarted).map
        (·.generation)).toList

/-- The cancellations that an answer stands for. -/
def cancelEvents (state : PendingSkins) (account : String) (generation : Option Nat) :
    Except ProfileMediaError Bool → List Event
  | .ok true => (((state.accounts account).map (·.cancelHits generation)).getD []).map
      (.cancelled account)
  | _ => []

/-- The choices that an edit of the library takes. -/
def libraryHits (state : PendingSkins) (change : SkinLibraryChange) (account : String)
    (generation : Nat) : Prop :=
  ∃ slot, state.accounts account = some slot ∧
    match change with
    | .removed textureKey =>
      (Slot.isGeneration slot.queued generation ∧ Slot.holdsTexture slot.queued textureKey) ∨
        (Slot.isGeneration slot.running generation ∧ Slot.holdsTexture slot.running textureKey)
    | .replaced oldTextureKey _ _ =>
      Slot.isGeneration slot.running generation ∧ Slot.holdsTexture slot.running oldTextureKey

/-- The choices that the removal of an account takes. -/
def removalHits (state : PendingSkins) (removed account : String) (generation : Nat) : Prop :=
  account = removed ∧ ∃ slot, state.accounts account = some slot ∧
    (Slot.isGeneration slot.queued generation ∨ Slot.isGeneration slot.running generation)

/-! ### Calls -/

/-- The failures of a request to the provider that does not write. -/
def readFailure : ProfileMediaError → Bool
  | .accountRequired | .notFound | .rateLimited | .rejected | .unavailable | .tooLarge
  | .invalidResponse => true
  | _ => false

/-- The failures of a request that writes. -/
def writeFailure (error : ProfileMediaError) : Bool := error = .uncertainChange || readFailure error

/-- What a call does to the queue, and what it may answer. All but the queue answers as it
likes, the provider with failures of its own. -/
def callEffect : Effect SkinCall SkinCall.Answer PendingSkins
  | .sync _ _ => fun state answer after =>
    after = state ∧ ∀ error, answer = .error error → readFailure error
  | .written => fun state answer after =>
    after = state ∧ ∀ error, answer = .error error → writeFailure error
  | .normalize _ => fun state answer after =>
    after = state ∧ ∀ error, answer = .error error → error = .invalidImage
  | .beginEffectWithSkin pending => fun state answer after =>
    (after = state ∧ ∃ error, answer = .error error) ∨
      (after = state ∧ answer = .ok (.error .savedSkinMissing)) ∨
      (after = (state.beginEffect pending).1 ∧ answer = .ok (state.beginEffect pending).2)
  | .beginEffect pending => fun state answer after =>
    after = (state.beginEffect pending).1 ∧ answer = (state.beginEffect pending).2
  | .isCurrent pending => fun state answer after =>
    after = state ∧ answer = state.isCurrent pending
  | .rebaseAccount before current => fun state _ after => after = state.rebaseAccount before current
  | _ => fun state _ after => after = state

/-- The requests of an application that write. -/
def sends : SkinCall → Bool
  | .sendUpload _ _ _ _ | .sendCape _ _ _ => true
  | _ => false

/-- What is recorded of a call that is made for a choice. -/
def callEvents (pending : PendingSkin) : (call : SkinCall) → call.Answer → List Event
  | .beginEffectWithSkin _, .ok (.ok ()) => [.began pending.accountId pending.generation]
  | .beginEffect _, .ok () => [.began pending.accountId pending.generation]
  | .sendUpload _ _ _ _, _ => [.sent pending.accountId pending.generation]
  | .sendCape _ _ _, _ => [.sent pending.accountId pending.generation]
  | .written, answer => [.written pending.accountId pending.generation answer]
  | _, _ => []

/-- What a program has come to, where it makes no more calls. -/
inductive Ended : SkinProgram Unit → Outcome → Prop
  | finish : Ended (.finish ()) (.ok ())
  | fail (error : ProfileMediaError) : Ended (.fail error) (.error error)

/-! ### Steps -/

inductive Action where
  | tick
  | queue (capture : CapturedAccount) (textureKey : String) (skinRevision : Nat)
  | cancelSelected (account : String) (generation : Nat)
  | reset (capture : CapturedAccount) (skin : Bool)
  | libraryChanged (change : SkinLibraryChange)
  | accountRemoved (account : String)
  | flushGeneration (account : String) (generation : Nat)
  | flushAccount (account : String)
  | flushPending (intents : List (String × Nat))
  | askNext (caller : Nat)
  | answerRefused (caller : Nat)
  | ensureWorker (caller : Nat)
  | arm (caller : Nat)
  | poll (caller : Nat)
  | wake (caller : Nat)
  | abandon (task : TaskId)
  | enterGate (task : TaskId)
  | claim (task : TaskId)
  | reply (task : TaskId) (call : SkinCall) (answer : call.Answer)
  | finish (task : TaskId)
  | release (task : TaskId)
  | leave (task : TaskId)
  | enterReset (task : TaskId)
  | replyReset (task : TaskId) (call : SkinCall) (answer : call.Answer)
  | endReset (task : TaskId)

/-- The stage of a caller whose intent was expedited, or was not. -/
def askedStage (account : String) (generation : Nat) (expedited : Bool) : CallerStage :=
  if expedited then .entered account generation else .refused account generation

inductive Step (system : System) : Action → System → Prop
  | tick : Step system .tick { system with now := system.now + 1 }
  | queue {capture textureKey skinRevision state placed} (id : TaskId)
      (fresh : system.tasks id = none)
      (queued : system.pending.queue capture textureKey skinRevision system.now =
        some (state, placed)) :
      Step system (.queue capture textureKey skinRevision)
        ({ system with pending := state }.spawn placed id |>.record
          [.accepted placed.accountId placed.generation])
  | cancelSelected {account generation} :
      Step system (.cancelSelected account generation)
        ({ system with pending := (system.pending.cancelGeneration account generation).1 }.record
          (cancelEvents system.pending account (some generation)
            (system.pending.cancelGeneration account generation).2)).notify
  | reset {capture skin answered} (id : TaskId) (fresh : system.tasks id = none)
      (cancelled : (system.pending.cancelAccount capture.record.accountId.text).2 = .ok answered) :
      Step system (.reset capture skin)
        (({ system with
            pending := (system.pending.cancelAccount capture.record.accountId.text).1 }.withTask id
          (some (.reset ⟨capture, skin, .waiting⟩))).record
            (cancelEvents system.pending capture.record.accountId.text none
              (.ok answered))).notify
  | libraryChanged {change} :
      Step system (.libraryChanged change)
        ({ system with pending := system.pending.libraryChanged change }.record
          [.withdrawn (libraryHits system.pending change)])
  | accountRemoved {account} :
      Step system (.accountRemoved account)
        ({ system with pending := system.pending.invalidateAccount account }.record
          [.withdrawn (removalHits system.pending account)]).notify
  | flushGeneration {account generation} (id : Nat) (fresh : system.callers id = none)
      (accepted : .accepted account generation ∈ system.history) :
      Step system (.flushGeneration account generation)
        ({ system with
            pending := (system.pending.expediteGeneration account generation system.now).1
          }.withCaller id [] (askedStage account generation
            (system.pending.expediteGeneration account generation system.now).2))
  | flushAccount {account} (id : Nat) (fresh : system.callers id = none) :
      Step system (.flushAccount account)
        ({ system with pending := (system.pending.expedite account system.now).1 }.withCaller id []
          (match (system.pending.expedite account system.now).2 with
            | some generation => .entered account generation
            | none => .between))
  | flushPending {intents} (id : Nat) (fresh : system.callers id = none)
      (listed : ∀ account generation, (account, generation) ∈ intents ↔
        system.pending.isActiveIntent account generation) :
      Step system (.flushPending intents) (system.withCaller id intents .between)
  | askNextExpedited {id account generation remaining}
      (caller : system.callers id = some ⟨(account, generation) :: remaining, .between⟩)
      (expedited : (system.pending.expediteGeneration account generation system.now).2 = true) :
      Step system (.askNext id)
        ({ system with
            pending := (system.pending.expediteGeneration account generation system.now).1
          }.withCaller id remaining (.entered account generation))
  | askNextRefused {id account generation remaining}
      (caller : system.callers id = some ⟨(account, generation) :: remaining, .between⟩)
      (refused : (system.pending.expediteGeneration account generation system.now).2 = false) :
      Step system (.askNext id)
        (({ system with
            pending := (system.pending.expediteGeneration account generation system.now).1
          }.withCaller id remaining .between).record
            [.told account generation (.error .cancelled)])
  | answerRefused {id account generation remaining}
      (caller : system.callers id = some ⟨remaining, .refused account generation⟩) :
      Step system (.answerRefused id)
        ((system.withCaller id remaining .between).record
          [.told account generation
            ((system.outcomeFor account generation).getD (.error .staleIntent))])
  | ensureWorker {id account generation remaining}
      (caller : system.callers id = some ⟨remaining, .entered account generation⟩)
      (active : system.active generation = true ∨ system.pending.queued account = none) :
      Step system (.ensureWorker id)
        (system.withCaller id remaining (.polling account generation)).notify
  | ensureSpawned {id account generation remaining next} (task : TaskId)
      (caller : system.callers id = some ⟨remaining, .entered account generation⟩)
      (inactive : system.active generation = false)
      (queued : system.pending.queued account = some next)
      (fresh : system.tasks task = none) :
      Step system (.ensureWorker id)
        ((system.spawn next task).withCaller id remaining (.polling account generation)).notify
  | ensureFailed {id account generation remaining next}
      (caller : system.callers id = some ⟨remaining, .entered account generation⟩)
      (inactive : system.active generation = false)
      (queued : system.pending.queued account = some next) :
      Step system (.ensureWorker id)
        ((system.withCaller id remaining .between).record
          [.told account generation (.error .busy)])
  | arm {id account generation remaining}
      (caller : system.callers id = some ⟨remaining, .polling account generation⟩) :
      Step system (.arm id) (system.withCaller id remaining (.armed account generation false))
  | pollTold {id account generation remaining notified outcome}
      (caller : system.callers id = some ⟨remaining, .armed account generation notified⟩)
      (known : system.outcomeFor account generation = some outcome) :
      Step system (.poll id)
        ((system.withCaller id remaining .between).record [.told account generation outcome])
  | pollUnknown {id account generation remaining notified}
      (caller : system.callers id = some ⟨remaining, .armed account generation notified⟩)
      (unknown : system.outcomeFor account generation = none) :
      Step system (.poll id)
        (system.withCaller id remaining (.asleep account generation notified))
  | wake {id account generation remaining}
      (caller : system.callers id = some ⟨remaining, .asleep account generation true⟩) :
      Step system (.wake id) (system.withCaller id remaining (.polling account generation))
  | abandon {id scheduled}
      (task : system.tasks id = some (.worker ⟨scheduled, .scheduled⟩))
      (gone : system.pending.dueGeneration scheduled.accountId scheduled.generation = none) :
      Step system (.abandon id) (system.withTask id (some (.worker ⟨scheduled, .leaving⟩)))
  | enterGate {id scheduled due}
      (task : system.tasks id = some (.worker ⟨scheduled, .scheduled⟩))
      (queued : system.pending.dueGeneration scheduled.accountId scheduled.generation = some due)
      (reached : due ≤ system.now) (free : system.gates scheduled.accountId = none) :
      Step system (.enterGate id)
        ((system.withTask id (some (.worker ⟨scheduled, .gated⟩))).withGate scheduled.accountId
          (some id))
  | claim {id scheduled pending}
      (task : system.tasks id = some (.worker ⟨scheduled, .gated⟩))
      (claimed : (system.pending.claim scheduled.accountId (some scheduled.generation)).2 =
        .ok (some pending)) :
      Step system (.claim id)
        (({ system with
            pending := (system.pending.claim scheduled.accountId (some scheduled.generation)).1
          }.withTask id (some (.worker ⟨scheduled, .applying pending (apply pending)⟩))).record
            [.claimed pending.accountId pending.generation])
  | claimNothing {id scheduled}
      (task : system.tasks id = some (.worker ⟨scheduled, .gated⟩))
      (nothing : ∀ pending,
        (system.pending.claim scheduled.accountId (some scheduled.generation)).2 ≠
          .ok (some pending)) :
      Step system (.claim id)
        ((system.withTask id (some (.worker ⟨scheduled, .leaving⟩))).withGate scheduled.accountId
          none)
  | reply {id scheduled pending call next answer state}
      (task : system.tasks id = some (.worker ⟨scheduled, .applying pending (.call call next)⟩))
      (taken : callEffect call system.pending answer state) :
      Step system (.reply id call answer)
        (({ system with pending := state }.withTask id
          (some (.worker ⟨scheduled, .applying pending (next answer)⟩))).record
            (callEvents pending call answer))
  | finish {id scheduled pending rest outcome}
      (task : system.tasks id = some (.worker ⟨scheduled, .applying pending rest⟩))
      (ended : Ended rest outcome) :
      Step system (.finish id)
        (({ system with pending := system.pending.finish pending outcome system.now }.withTask id
          (some (.worker ⟨scheduled, .finished⟩))).record
            [.finished pending.accountId pending.generation outcome])
  | release {id scheduled}
      (task : system.tasks id = some (.worker ⟨scheduled, .finished⟩)) :
      Step system (.release id)
        ((system.withTask id (some (.worker ⟨scheduled, .scheduled⟩))).withGate
          scheduled.accountId none).notify
  | leave {id scheduled next} (admitted : Bool)
      (task : system.tasks id = some (.worker ⟨scheduled, .leaving⟩))
      (fresh : system.tasks next = none) :
      Step system (.leave id)
        (({ system with
            active := Function.update system.active scheduled.generation false
          }.withTask id none).spawnQueued scheduled.accountId next admitted).notify
  | enterReset {id capture skin}
      (task : system.tasks id = some (.reset ⟨capture, skin, .waiting⟩))
      (free : system.gates capture.record.accountId.text = none) :
      Step system (.enterReset id)
        ((system.withTask id
          (some (.reset ⟨capture, skin, .running (resetAccount capture skin)⟩))).withGate
            capture.record.accountId.text (some id))
  | replyReset {id capture skin call next answer state}
      (task : system.tasks id = some (.reset ⟨capture, skin, .running (.call call next)⟩))
      (taken : callEffect call system.pending answer state) :
      Step system (.replyReset id call answer)
        ({ system with pending := state }.withTask id
          (some (.reset ⟨capture, skin, .running (next answer)⟩)))
  | endReset {id capture skin rest outcome}
      (task : system.tasks id = some (.reset ⟨capture, skin, .running rest⟩))
      (ended : Ended rest outcome) :
      Step system (.endReset id)
        ((system.withTask id none).withGate capture.record.accountId.text none).notify

end Axial.Skins
