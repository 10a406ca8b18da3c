/-
This file models how the journal drives a prepared write onto the disk, and what it
does when a step of that fails (`drive_pending`, `settle_pending_reload` and
`reconcile_uncertain` in `recovery.rs`).
-/

import Axial.Fs.Retained

namespace Axial.Fs

open Bytes ControlFrame DoubleSlot Relation

/-! ### Faults -/

/-- What becomes of one attempt to drive a write onto the disk. Writing and syncing leave any
bytes on the side being written and touch no other side. -/
structure DriveFaults where
  written : Fixed frameBytes
  writeFails : Bool
  synced : Fixed frameBytes
  /-- The error of `sync`, as whether the barrier was confirmed all the same. -/
  syncError : Option Bool
  readFails : Bool
  reloadFails : Bool

structure ReconcileFaults where
  synced : Fixed frameBytes
  syncFails : Bool
  readFails : Bool
  retry : DriveFaults

structure Faults where
  reconcile : ReconcileFaults
  drive : DriveFaults

/-! ### Driving a write -/

/-- The control file with other bytes on the side being written. -/
def Store.overwrite (store : Store) (pending : PendingWrite) (region : Fixed frameBytes) :
    Store where
  control := splice store.control pending.offset region.val
  journal := store.journal

def Store.settlePendingReload (host : Host) (store : Store) (reloadFails : Bool) :
    Store × Bool :=
  if reloadFails then (store, false) else
  match decodeControl host store.control (some store.journal) store.journal.laneNonce with
  | some (observed, true) => ({ store with journal := observed }, true)
  | _ => (store, false)

/-- The flag tells success. Nothing drives a journal without a pending write. -/
def Store.drivePending (host : Host) (store : Store) (faults : DriveFaults) : Store × Bool :=
  match store.journal.pending with
  | none => (store, false)
  | some pending =>
    let wrote := store.overwrite pending faults.written
    if faults.writeFails then (wrote, false) else
    let synced := wrote.overwrite pending faults.synced
    match faults.syncError with
    | some confirmed =>
      if confirmed then synced.settlePendingReload host faults.reloadFails else (synced, false)
    | none =>
      if faults.readFails = false ∧ slice synced.control pending.offset frameBytes =
          pending.encoded then
        ({ synced with journal := acceptPending host synced.journal }, true)
      else
        synced.settlePendingReload host faults.reloadFails

def Store.reconcileUncertain (host : Host) (store : Store) (faults : ReconcileFaults) :
    Store × Bool :=
  if store.journal.checkedOut then (store, false) else
  match store.journal.pending with
  | none => (store, true)
  | some pending =>
    let synced := store.overwrite pending faults.synced
    if faults.syncFails ∨ faults.readFails then (synced, false) else
    match decodeControl host synced.control (some synced.journal) synced.journal.laneNonce with
    | none => (synced, false)
    | some (observed, true) => ({ synced with journal := observed }, true)
    | some (_, false) => synced.drivePending host faults.retry

/-! ### Operations -/

inductive Operation where
  | reserve (record : RecoveryRecord)
  | createReserved (registration : RecoveryRegistration) (record : RecoveryRecord)
  | advance (registration : RecoveryRegistration) (record : RecoveryRecord)
  | clear (registration : RecoveryRegistration)
  | createSuccessor (record : SuccessorRecord) (registrations : List RecoveryRegistration)
      (transfer : Nonce)
  | tombstoneSuccessor (key : SuccessorOwnerKey)
  | reconcileUncertain

/-- The write was prepared and is put into flight. -/
def Store.send (host : Host) (store : Store) (faults : DriveFaults) :
    Option PendingWrite → Store × Bool
  | none => (store, false)
  | some pending =>
    Store.drivePending host { store with journal := store.journal.sending pending } faults

/-- The pending write is the tombstone of this very successor. -/
def RecoveryJournal.completing (journal : RecoveryJournal) (key : SuccessorOwnerKey) : Bool :=
  match journal.pending, journal.successors key.slot with
  | some (.successor slot intended _ _), some selected =>
    slot = key.slot && intended.generation = key.generation + 1 && intended.record.isNone &&
      selected.frame.generation = key.generation &&
      selected.frame.record.any fun record => record.transferId = key.transferId
  | _, _ => false

def RecoveryJournal.tombstoned (journal : RecoveryJournal) (key : SuccessorOwnerKey) : Bool :=
  (journal.successors key.slot).any fun selected =>
    selected.frame.generation = key.generation + 1 && selected.frame.record.isNone

def Store.tombstoneSuccessor (host : Host) (store : Store) (faults : Faults)
    (key : SuccessorOwnerKey) : Store × Bool :=
  if store.journal.checkedOut then (store, false) else
  let (reconciled, settled) := store.reconcileUncertain host faults.reconcile
  if settled = false then (reconciled, false) else
  if store.journal.completing key && reconciled.journal.tombstoned key then (reconciled, true)
  else reconciled.send host faults.drive (prepareTombstone host reconciled.journal key)

def Store.perform (host : Host) (store : Store) (faults : Faults) : Operation → Store × Bool
  | .reserve record => (store, (reserve host store.journal record).isSome)
  | .createReserved registration record =>
    store.send host faults.drive (prepareWrite host store.journal registration (some record))
  | .advance registration record =>
    store.send host faults.drive (prepareWrite host store.journal registration (some record))
  | .clear registration =>
    store.send host faults.drive (prepareWrite host store.journal registration none)
  | .createSuccessor record registrations transfer =>
    store.send host faults.drive
      (prepareSuccessor host store.journal record registrations transfer)
  | .tombstoneSuccessor key => store.tombstoneSuccessor host faults key
  | .reconcileUncertain => store.reconcileUncertain host faults.reconcile

/-- One operation with any faults. -/
def Store.Performs (host : Host) (before after : Store) : Prop :=
  ∃ operation faults, after = (before.perform host faults operation).1

/-! ### What failure leaves behind -/

variable {store : Store} {host : Host}

theorem Store.settlePendingReload_failed {reloadFails : Bool}
    (failed : (store.settlePendingReload host reloadFails).2 = false) :
    store.settlePendingReload host reloadFails = (store, false) := by
  unfold Store.settlePendingReload at failed ⊢
  split at failed
  · rename_i unread
    rw [if_pos unread]
  · rename_i reread
    rw [if_neg reread]
    split at failed
    · cases failed
    · rfl

/-- A write that was not accepted is still pending. -/
theorem Store.drivePending_failed {faults : DriveFaults}
    (failed : (store.drivePending host faults).2 = false) :
    (store.drivePending host faults).1.journal = store.journal := by
  unfold Store.drivePending at failed ⊢
  cases idle : store.journal.pending with
  | none => rfl
  | some pending =>
    simp only [idle] at failed ⊢
    split at failed
    · rename_i unwritten
      rw [if_pos unwritten]
      rfl
    · rename_i wrote
      rw [if_neg wrote]
      split at failed
      · split at failed
        · rename_i confirmed
          rw [if_pos confirmed, Store.settlePendingReload_failed failed]
          rfl
        · rename_i unconfirmed
          rw [if_neg unconfirmed]
          rfl
      · split at failed
        · cases failed
        · rename_i unaccepted
          rw [if_neg unaccepted, Store.settlePendingReload_failed failed]
          rfl

/-- A reconciliation that fails leaves the journal as it was. -/
theorem Store.reconcileUncertain_failed {faults : ReconcileFaults}
    (failed : (store.reconcileUncertain host faults).2 = false) :
    (store.reconcileUncertain host faults).1.journal = store.journal := by
  unfold Store.reconcileUncertain at failed ⊢
  split at failed
  · rename_i replayed
    rw [if_pos replayed]
  · rename_i present
    rw [if_neg present]
    cases idle : store.journal.pending with
    | none => rfl
    | some pending =>
      simp only [idle] at failed ⊢
      split at failed
      · rename_i unread
        rw [if_pos unread]
        rfl
      · rename_i read
        rw [if_neg read]
        split at failed
        · rfl
        · cases failed
        · exact Store.drivePending_failed failed

end Axial.Fs
