/-
This file embeds the queue of skin changes. It keeps one slot for each account: the newest
choice that waits, the choice that is being applied, and what became of the last one that
ended. All of its operations are atomic, they run under one lock that is never held across
a provider call.
-/

import Axial.Accounts.Model

namespace Axial.Skins

open Accounts

inductive ProfileMediaError where
  | invalidUsername
  | invalidTexture
  | notFound
  | missingSkin
  | missingCape
  | rateLimited
  | accountRequired
  | ownershipMissing
  | staleIdentity
  | staleIntent
  | rejected
  | invalidResponse
  | tooLarge
  | unavailable
  | invalidImage
  | savedSkinMissing
  | preservationFailed
  | partialChange
  | uncertainChange
  | settlementFailed
  | cancelled
  | busy
  | shuttingDown
  deriving DecidableEq

/-- The result of one attempt to apply a choice. -/
abbrev Outcome : Type := Except ProfileMediaError Unit

/-- `SKIN_CHANGE_DEBOUNCE`, in seconds. -/
def skinChangeDebounce : Nat := 10

structure PendingSkin where
  accountId : String
  accountRevision : Nat
  credentialRevision : Nat
  profileRevision : Nat
  textureKey : String
  skinRevision : Nat
  generation : Nat
  due : Nat
  deriving DecidableEq

def PendingSkin.matchesAccount (pending : PendingSkin) (account : CapturedAccount) : Bool :=
  pending.accountId = account.record.accountId.text &&
    pending.accountRevision = account.record.accountRevision &&
    pending.credentialRevision = account.record.credentialRevision &&
    pending.profileRevision = account.record.profileRevision

structure Slot where
  queued : Option PendingSkin
  running : Option PendingSkin
  generation : Nat
  effectStarted : Bool
  cancelled : Bool
  error : Option ProfileMediaError
  completed : Option (Nat × Outcome)

/-- `Slot::default` -/
def Slot.initial : Slot := ⟨none, none, 0, false, false, none, none⟩

/-- The slots are kept as the lookup of a hash map. -/
structure PendingSkins where
  nextGeneration : Nat
  accounts : String → Option Slot

/-- `PendingSkins::default` -/
def PendingSkins.initial : PendingSkins := ⟨0, fun _ => none⟩

inductive SkinLibraryChange where
  | replaced (oldTextureKey newTextureKey : String) (revision : Nat)
  | removed (textureKey : String)

/-! ### One slot -/

namespace Slot

variable (slot : Slot)

/-- `entry.generation == generation` for the entry of an option -/
def isGeneration (entry : Option PendingSkin) (generation : Nat) : Bool :=
  entry.any fun pending => pending.generation = generation

def holdsTexture (entry : Option PendingSkin) (textureKey : String) : Bool :=
  entry.any fun pending => pending.textureKey = textureKey

def insert (pending : PendingSkin) : Slot :=
  { slot with
    generation := pending.generation
    queued := some pending
    error := none }

def claim (generation : Option Nat) : Slot × Except ProfileMediaError (Option PendingSkin) :=
  if slot.running.isSome then (slot, .error .busy)
  else
    match slot.queued with
    | none => (slot, .ok none)
    | some pending =>
      if generation.any fun id => id ≠ pending.generation then (slot, .ok none)
      else
        ({ slot with
            queued := none
            running := some pending
            cancelled := false
            effectStarted := false }, .ok (some pending))

def beginEffect (pending : PendingSkin) : Slot × Outcome :=
  if slot.cancelled ∨ slot.generation ≠ pending.generation then (slot, .error .cancelled)
  else if !isGeneration slot.running pending.generation then (slot, .error .cancelled)
  else ({ slot with effectStarted := true }, .ok ())

def isCurrent (pending : PendingSkin) : Bool :=
  !slot.cancelled && slot.generation = pending.generation

/-- The failures after which a choice is put back into the queue. -/
def retries (error : Option ProfileMediaError) : Bool :=
  error = some .rateLimited || error = some .unavailable || error = some .preservationFailed

def finish (pending : PendingSkin) (outcome : Outcome) (now : Nat) : Slot :=
  if !isGeneration slot.running pending.generation then slot
  else
    let ended : Slot :=
      { slot with
        running := none
        completed := some (pending.generation, outcome) }
    if slot.generation ≠ pending.generation then ended
    else
      let error := match outcome with
        | .ok () => none
        | .error error => some error
      if retries error ∧ !slot.cancelled then
        { ended with
          error := error
          queued := some { pending with due := now + skinChangeDebounce } }
      else { ended with error := error }

/-- What a cancellation leaves of a choice that waits. -/
def takeQueued : Slot :=
  if slot.queued.isSome then
    { slot with
      queued := none
      error := none
      completed := none }
  else slot

def cancel (generation : Option Nat) : Slot × Except ProfileMediaError Bool :=
  if generation.any fun generation => slot.generation ≠ generation then (slot, .error .staleIntent)
  else if slot.running.any fun running => generation.all fun id => running.generation = id then
    if slot.effectStarted then
      (slot.takeQueued, if slot.queued.isSome then .ok true else .error .busy)
    else ({ slot.takeQueued with cancelled := true }, .ok true)
  else (slot.takeQueued, .ok slot.queued.isSome)

def libraryChanged : SkinLibraryChange → Slot
  | .removed textureKey =>
    { slot with
      queued := if holdsTexture slot.queued textureKey then none else slot.queued
      cancelled := slot.cancelled || holdsTexture slot.running textureKey }
  | .replaced oldTextureKey newTextureKey revision =>
    { slot with
      queued := slot.queued.map fun entry =>
        if entry.textureKey = oldTextureKey then
          { entry with textureKey := newTextureKey, skinRevision := revision }
        else entry
      cancelled := slot.cancelled || holdsTexture slot.running oldTextureKey }

def invalidate : Slot := { slot with queued := none, cancelled := true, error := none }

def expedite (now : Nat) : Slot × Option Nat :=
  match slot.queued with
  | some entry =>
    ({ slot with completed := none, queued := some { entry with due := now } },
      some entry.generation)
  | none => ({ slot with completed := none }, slot.running.map (·.generation))

def expediteGeneration (generation now : Nat) : Slot × Bool :=
  if slot.generation ≠ generation then (slot, false)
  else
    match slot.queued with
    | some entry =>
      if entry.generation = generation then
        ({ slot with queued := some { entry with due := now }, completed := none }, true)
      else (slot, isGeneration slot.running generation)
    | none => (slot, isGeneration slot.running generation)

def rebase (before after : CapturedAccount) : Slot :=
  { slot with
    queued := slot.queued.map fun entry =>
      if entry.matchesAccount before then
        { entry with
          accountRevision := after.record.accountRevision
          credentialRevision := after.record.credentialRevision
          profileRevision := after.record.profileRevision }
      else entry }

def outcome (generation : Nat) : Option Outcome :=
  match slot.completed with
  | some (completed, outcome) =>
    if completed = generation then some outcome
    else if slot.generation ≠ generation then some (.error .cancelled)
    else if slot.queued.isNone ∧ slot.running.isNone then some (.error .cancelled)
    else none
  | none =>
    if slot.generation ≠ generation then some (.error .cancelled)
    else if slot.queued.isNone ∧ slot.running.isNone then some (.error .cancelled)
    else none

end Slot

/-! ### The queue -/

namespace PendingSkins

variable (state : PendingSkins)

def put (account : String) (slot : Slot) : PendingSkins :=
  { state with accounts := Function.update state.accounts account (some slot) }

/-- `state.accounts.get_mut(account)` and what is done with the slot, if there is one. -/
def withSlot {Value : Type} (account : String) (change : Slot → Slot × Value) (absent : Value) :
    PendingSkins × Value :=
  match state.accounts account with
  | none => (state, absent)
  | some slot => (state.put account (change slot).1, (change slot).2)

/-- `none` where the generations are exhausted. -/
def insert (pending : PendingSkin) : Option (PendingSkins × PendingSkin) :=
  if state.nextGeneration + 1 < 2 ^ 64 then
    let placed := { pending with generation := state.nextGeneration + 1 }
    let slot := (state.accounts pending.accountId).getD .initial
    some ({ state with nextGeneration := state.nextGeneration + 1 }.put pending.accountId
      (slot.insert placed), placed)
  else none

def queue (capture : CapturedAccount) (textureKey : String) (skinRevision now : Nat) :
    Option (PendingSkins × PendingSkin) :=
  state.insert
    { accountId := capture.record.accountId.text
      accountRevision := capture.record.accountRevision
      credentialRevision := capture.record.credentialRevision
      profileRevision := capture.record.profileRevision
      textureKey := textureKey
      skinRevision := skinRevision
      generation := 0
      due := now + skinChangeDebounce }

def claim (account : String) (generation : Option Nat) :
    PendingSkins × Except ProfileMediaError (Option PendingSkin) :=
  state.withSlot account (·.claim generation) (.ok none)

/-- Linearization point for cancellation versus a provider write. -/
def beginEffect (pending : PendingSkin) : PendingSkins × Outcome :=
  state.withSlot pending.accountId (·.beginEffect pending) (.error .cancelled)

def isCurrent (pending : PendingSkin) : Bool :=
  (state.accounts pending.accountId).any (·.isCurrent pending)

def finish (pending : PendingSkin) (outcome : Outcome) (now : Nat) : PendingSkins :=
  (state.withSlot pending.accountId (fun slot => (slot.finish pending outcome now, ())) ()).1

def cancel (account : String) (generation : Option Nat) :
    PendingSkins × Except ProfileMediaError Bool :=
  state.withSlot account (·.cancel generation)
    (if generation.isSome then .error .staleIntent else .ok false)

def cancelAccount (account : String) : PendingSkins × Except ProfileMediaError Bool :=
  state.cancel account none

def cancelGeneration (account : String) (generation : Nat) :
    PendingSkins × Except ProfileMediaError Bool :=
  state.cancel account (some generation)

def libraryChanged (change : SkinLibraryChange) : PendingSkins :=
  { state with accounts := fun account => (state.accounts account).map (·.libraryChanged change) }

def queued (account : String) : Option PendingSkin :=
  (state.accounts account).bind (·.queued)

/-- Whether `active_intents` lists the generation for the account. -/
def isActiveIntent (account : String) (generation : Nat) : Bool :=
  (state.accounts account).any fun slot =>
    Slot.isGeneration (slot.queued.or slot.running) generation

def invalidateAccount (account : String) : PendingSkins :=
  (state.withSlot account (fun slot => (slot.invalidate, ())) ()).1

def dueGeneration (account : String) (generation : Nat) : Option Nat :=
  ((state.queued account).filter fun entry => entry.generation = generation).map (·.due)

def expedite (account : String) (now : Nat) : PendingSkins × Option Nat :=
  state.withSlot account (·.expedite now) none

def expediteGeneration (account : String) (generation now : Nat) : PendingSkins × Bool :=
  state.withSlot account (·.expediteGeneration generation now) false

def rebaseAccount (before after : CapturedAccount) : PendingSkins :=
  (state.withSlot before.record.accountId.text (fun slot => (slot.rebase before after, ())) ()).1

def outcome (account : String) (generation : Nat) : Option Outcome :=
  (state.accounts account).bind (·.outcome generation)

end PendingSkins

end Axial.Skins
