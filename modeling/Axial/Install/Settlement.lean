/-
This file lets the settling of one install run, with a crash between any two of its calls,
with restarts and with recoveries, and with a publication layer that may answer anything
as long as a receipt is for the version that was asked for. Success is then always backed
by what the database holds: by a final checkpoint, and by a row that has been marked ready
under its contract.
-/

import Axial.Install.Publication

namespace Axial.Install.Publication

open Program Relation Function

/-! ### Effects and steps -/

def InstalledVersion.marked (row : InstalledVersion) : InstalledVersion :=
  { row with state := .ready }

/-- A transaction has all of its effect, or it fails and has none. -/
def stored (answer : Bool) (changed before : Store) : Store := bif answer then changed else before

/-- What is left of an install when its task has ended, or after a restart. -/
def Store.interrupted (store : Store) : Store :=
  { store with phase := if store.phase = .running then .settlementRequired else store.phase }

namespace NativeInstall

variable (install : NativeInstall)

def key (versionId : String) : String × String := (install.libraryId, versionId)

/-- The transaction of `persist_activation`. -/
def activated (activated : ActivatedVersion) (checkpoint : PublicationCheckpoint)
    (store : Store) : Store :=
  { store with
    checkpoint := some checkpoint
    versions := update store.versions (install.key activated.versionId)
      (some ⟨activated.contractId, install.id, .activating⟩) }

/-- The update of `mark_ready`. -/
def markedReady (checkpoint : PublicationCheckpoint) (row : InstalledVersion) (store : Store) :
    Store :=
  { store with
    versions := update store.versions (install.key checkpoint.versionId)
      (some row.marked) }

/-- Whether that update finds a row. -/
def Finds (checkpoint : PublicationCheckpoint) (row : InstalledVersion) (store : Store) : Prop :=
  store.versions (install.key checkpoint.versionId) = some row ∧ row.installId = install.id ∧
    checkpoint.contractId = some row.contractId

/-- A publication that was asked for names its version, and so does what is left of it. -/
def Publishes (versionId : String) : Except DownloadError InstallReceipt → Prop
  | .ok receipt => receipt.versionId = versionId
  | .error (.publicationIndeterminate recovery) => recovery.versionId = versionId
  | .error _ => True

/-- The same of a loader. A publication that was left at the version itself does not go back to
the base. -/
def PublishesLoader (versionId : String) (origin : LoaderOrigin) :
    Except LoaderInstallError LoaderPublicationOutcome → Prop
  | .ok (.childCommitted receipt) => receipt.versionId = versionId
  | .ok (.baseCommitted commit) => commit.continuation.versionId = versionId ∧ origin = .base
  | .error (.publicationIndeterminate recovery) =>
    recovery.versionId = versionId ∧ (recovery.origin = .base → origin = .base)
  | .error .other => True

/-- The same of a continuation, which is past the base. -/
def Continues (versionId : String) : Except LoaderInstallError InstallReceipt → Prop
  | .ok receipt => receipt.versionId = versionId
  | .error (.publicationIndeterminate recovery) =>
    recovery.versionId = versionId ∧ recovery.origin = .child
  | .error .other => True

/-- What each call does and may answer. -/
def effect : Effect Op Op.Answer Store
  | .install versionId, before, answer, after => after = before ∧ Publishes versionId answer
  | .retryPublication recovery, before, answer, after =>
    after = before ∧ Publishes recovery.versionId answer
  | .installBuild versionId, before, answer, after =>
    after = before ∧ PublishesLoader versionId .base answer
  | .retryLoaderPublication recovery, before, answer, after =>
    after = before ∧ PublishesLoader recovery.versionId recovery.origin answer
  | .continueLoader continuation, before, answer, after =>
    after = before ∧ Continues continuation.versionId answer
  | .readCheckpoint, before, answer, after =>
    after = before ∧ ∀ read, answer = some read → read = before.checkpoint
  | .hasActivation, before, answer, after =>
    after = before ∧ ∀ found : Bool, answer = some found → (found = true ↔
      ∃ versionId row, before.versions (install.key versionId) = some row ∧
        row.installId = install.id)
  | .writeActivation activated checkpoint, before, answer, after =>
    after = stored answer (install.activated activated checkpoint before) before
  | .writeCheckpoint checkpoint, before, answer, after =>
    after = stored answer { before with checkpoint := some checkpoint } before
  | .writeReady checkpoint, before, answer, after =>
    (answer : Bool) = true ∧ (∃ row, install.Finds checkpoint row before ∧
      after = install.markedReady checkpoint row before) ∨
      (answer : Bool) = false ∧ after = before
  | .complete outcome, before, answer, after =>
    after = stored answer { before with phase := .settled outcome } before
  | .retain retained, before, _, after =>
    after = { before with phase := .settlementRequired, retained := some retained }
  | .requeue, before, answer, after =>
    after = stored answer { before with phase := .queued, retained := none } before
  | _, before, _, after => after = before

/-- One install, and the task that works on it if there is one. -/
structure System where
  store : Store
  task : Option (Program Op Op.Answer InstallError Unit)

/-- Rows of `installed_versions` written by other installs. -/
def Elsewhere (before after : String × String → Option InstalledVersion) : Prop :=
  ∀ key row, row.installId = install.id → after key = some row → before key = some row

inductive Step : System → System → Prop
  | start {store} (queued : store.phase = .queued) :
    Step ⟨store, none⟩ ⟨{ store with phase := .running }, some install.run⟩
  | remove {store} (queued : store.phase = .queued) :
    Step ⟨store, none⟩ ⟨{ store with phase := .settled .removed }, none⟩
  /-- A recovery takes the retained work. -/
  | recover {store} (required : store.phase = .settlementRequired) :
    Step ⟨store, none⟩ ⟨{ store with retained := none }, some (install.recover store.retained)⟩
  | work {store after program rest}
      (taken : Program.Step install.effect (program, store) (rest, after)) :
    Step ⟨store, some program⟩ ⟨after, some rest⟩
  | returned {store program}
      (ended : program = .finish () ∨ ∃ error, program = .fail error) :
    Step ⟨store, some program⟩ ⟨store.interrupted, none⟩
  /-- The process dies, or the task panics, at any point. -/
  | crash {store task} :
    Step ⟨store, task⟩ ⟨{ store.interrupted with retained := none }, none⟩
  /-- Other installs are at work while this one waits or after it has ended. -/
  | elsewhere {store versions}
      (idle : store.phase = .queued ∨ ∃ outcome, store.phase = .settled outcome)
      (others : install.Elsewhere store.versions versions) :
    Step ⟨store, none⟩ ⟨{ store with versions }, none⟩

/-- An install as it is accepted. -/
structure Accepted (system : System) : Prop where
  queued : system.store.phase = .queued
  checkpoint : system.store.checkpoint = none
  retained : system.store.retained = none
  task : system.task = none

/-! ### What is guaranteed -/

/-- What may take the place of a checkpoint: the same evidence, the final one of a base, and the
rollback of the version after its base. -/
inductive Replaces (old new : PublicationCheckpoint) : Prop
  | same (kind : new.kind = old.kind) (evidence : new.evidenceId = old.evidenceId)
    (contract : new.contractId = old.contractId)
  | final (base : old.kind = .base) (final : new.kind = .final)
  | target (base : old.kind = .base) (rolledBack : new.kind = .rolledBack)
    (target : new.versionId = install.target)

/-- The version is ready under the contract of the final checkpoint. -/
def Backed (store : Store) : Prop :=
  ∃ checkpoint contractId, store.checkpoint = some checkpoint ∧ checkpoint.kind = .final ∧
    checkpoint.versionId = install.target ∧ checkpoint.contractId = some contractId ∧
    store.versions (install.key install.target) = some ⟨contractId, install.id, .ready⟩

structure Honest (before after : Store) : Prop where
  succeeded : after.phase = .settled .succeeded → before.phase ≠ .settled .succeeded →
    install.Backed after
  /-- A version is marked ready only under a checkpoint of its own that is no rollback. -/
  marked : ∀ versionId row, after.versions (install.key versionId) = some row →
    row.installId = install.id → row.state = .ready →
    before.versions (install.key versionId) = some row ∨
      ∃ checkpoint, before.checkpoint = some checkpoint ∧ checkpoint.versionId = versionId ∧
        checkpoint.kind ≠ .rolledBack ∧ checkpoint.contractId = some row.contractId
  replaced : ∀ old, before.checkpoint = some old →
    ∃ new, after.checkpoint = some new ∧ install.Replaces old new

/-! ### What holds while an install is being settled -/

/-- There is no checkpoint yet, or only that of the base. -/
def Open (store : Store) : Prop :=
  ∀ checkpoint, store.checkpoint = some checkpoint → checkpoint.kind = .base

/-- What retained work relies on. -/
def Fits (store : Store) : RetainedInstall → Prop
  | .publication recovery => recovery.versionId = install.target ∧ Open store
  | .loaderPublication recovery => recovery.versionId = install.target ∧ Open store ∧
    (recovery.origin = .base → store.checkpoint = none)
  | .acknowledgement (some continuation) =>
    continuation.versionId = install.target ∧ Open store
  | _ => True

/-- The invariant of an install that no task works on. -/
structure Sound (store : Store) : Prop where
  fresh : store.phase = .queued → store.checkpoint = none ∧ store.retained = none
  fits : ∀ retained, store.retained = some retained → install.Fits store retained

/-- The state of an install while a task works on it. -/
structure Worked (store : Store) : Prop where
  started : store.phase ≠ .queued
  taken : store.retained = none

def Guarantee (before after : Store) : Prop :=
  install.Honest before after ∧ install.Sound after

/-- What a failure leaves. -/
def Leaves : WorkFailure → Store → Prop
  | .failed _, store => Worked store
  | .unsettled retained, store => Worked store ∧ install.Fits store retained

variable {install : NativeInstall} {store after : Store}

theorem Worked.sound (worked : Worked store) : install.Sound store where
  fresh queued := absurd queued worked.started
  fits retained kept := by
    rw [worked.taken] at kept
    cases kept

theorem Replaces.refl (checkpoint : PublicationCheckpoint) :
    install.Replaces checkpoint checkpoint := .same rfl rfl rfl

theorem Honest.refl (store : Store) : install.Honest store store where
  succeeded settled unsettled := absurd settled unsettled
  marked _ _ found _ _ := .inl found
  replaced old kept := ⟨old, kept, .refl old⟩

theorem Worked.quiet (worked : Worked store) : install.Guarantee store store :=
  ⟨.refl store, worked.sound⟩

/-! ### The single calls -/

/-- A program of the worker that ends well or leaves what is fit. -/
abbrev Settles {Value : Type} (install : NativeInstall) (program : Work Value)
    (good : Value → Store → Prop) (store : Store) : Prop :=
  program.Safe install.effect install.Guarantee good install.Leaves store

variable {Failure : Type} {good : Unit → Store → Prop} {bad : Failure → Store → Prop}

/-- A call that changes nothing. -/
theorem safe_ask {op : Op} {good : op.Answer → Store → Prop}
    (quiet : ∀ answer after, install.effect op store answer after → after = store)
    (worked : Worked store) (next : ∀ answer, install.effect op store answer store →
      good answer store) :
    (ask op).Safe install.effect install.Guarantee good bad store := by
  intro answer after taken
  obtain rfl := quiet answer after taken
  exact ⟨worked.quiet, next answer taken⟩

theorem safe_orFail {failure : Failure} {answer : Bool}
    (positive : answer = true → good () store) (negative : bad failure store) :
    (orFail failure answer).Safe install.effect install.Guarantee good bad store := by
  cases answer with
  | true => exact positive rfl
  | false => exact negative

variable {failure : WorkFailure} {wanted : Prop}

theorem safe_attemptIf [Decidable wanted] {stage : Stage} (worked : Worked store)
    (passes : good () store) (fails : install.Leaves failure store) :
    install.Settles (attemptIf wanted failure stage) good store := by
  unfold attemptIf
  split
  · exact safe_bind.mpr (safe_ask (fun _ _ taken => taken) worked fun _ _ =>
      safe_orFail (fun _ => passes) fails)
  · exact passes

theorem safe_acknowledgeIf [Decidable wanted] (worked : Worked store) (passes : good () store)
    (fails : install.Leaves failure store) :
    install.Settles (acknowledgeIf wanted failure) good store := by
  unfold acknowledgeIf
  split
  · exact safe_bind.mpr (safe_ask (fun _ _ taken => taken) worked fun _ _ =>
      safe_orFail (fun _ => passes) fails)
  · exact passes

variable {checkpoint : PublicationCheckpoint} {version : ActivatedVersion}

theorem Honest.activated
    (replaces : ∀ old, store.checkpoint = some old → install.Replaces old checkpoint) :
    install.Honest store (install.activated version checkpoint store) where
  succeeded settled unsettled := absurd settled unsettled
  marked versionId row found owned ready := by
    by_cases same : install.key versionId = install.key version.versionId
    · simp only [NativeInstall.activated, same, update_self, Option.some.injEq] at found
      rw [← found] at ready
      cases ready
    · simp only [NativeInstall.activated, update_of_ne same] at found
      exact .inl found
  replaced old kept := ⟨checkpoint, rfl, replaces old kept⟩

theorem safe_persistActivation {bad : InstallError → Store → Prop} (worked : Worked store)
    (replaces : ∀ old, store.checkpoint = some old → install.Replaces old checkpoint)
    (activates : ∀ after, Worked after → after.checkpoint = some checkpoint → good () after)
    (fails : ∀ error, bad error store) :
    (persistActivation version checkpoint).Safe install.effect install.Guarantee good bad
      store := by
  simp only [persistActivation, safe_bind]
  refine safe_ask (fun _ _ taken => taken) worked fun inventory _ => ?_
  refine safe_orFail (fun _ => ?_) (fails _)
  split
  · exact fails _
  · simp only [safe_bind]
    intro answer after taken
    cases answer with
    | false =>
      obtain rfl : after = store := taken
      exact ⟨worked.quiet, fails _⟩
    | true =>
      obtain rfl : after = install.activated version checkpoint store := taken
      have still : Worked (install.activated version checkpoint store) :=
        ⟨worked.started, worked.taken⟩
      exact ⟨⟨.activated replaces, still.sound⟩, activates _ still rfl⟩

variable {row : InstalledVersion}

theorem Honest.markedReady (kept : store.checkpoint = some checkpoint)
    (kind : checkpoint.kind ≠ .rolledBack) (found : install.Finds checkpoint row store) :
    install.Honest store (install.markedReady checkpoint row store) where
  succeeded settled unsettled := absurd settled unsettled
  marked versionId other here owned ready := by
    by_cases same : install.key versionId = install.key checkpoint.versionId
    · simp only [NativeInstall.markedReady, same, update_self, Option.some.injEq]
        at here
      refine .inr ⟨checkpoint, kept, (congrArg Prod.snd same).symm, kind, ?_⟩
      rw [found.2.2, ← here]
      rfl
    · simp only [NativeInstall.markedReady, update_of_ne same] at here
      exact .inl here
  replaced old earlier := ⟨old, earlier, .refl old⟩

theorem Finds.backed (found : install.Finds checkpoint row store)
    (kept : store.checkpoint = some checkpoint) (final : checkpoint.kind = .final)
    (target : checkpoint.versionId = install.target) :
    install.Backed (install.markedReady checkpoint row store) := by
  refine ⟨checkpoint, row.contractId, kept, final, target, found.2.2, ?_⟩
  simp only [NativeInstall.markedReady, target, update_self]
  rw [← found.2.1]
  rfl

theorem safe_markReady (worked : Worked store) (kept : store.checkpoint = some checkpoint)
    (kind : checkpoint.kind ≠ .rolledBack)
    (marks : ∀ after, Worked after → after.checkpoint = some checkpoint →
      (checkpoint.kind = .final → checkpoint.versionId = install.target →
        install.Backed after) → good () after) :
    install.Settles (markReady checkpoint) good store := by
  simp only [Settles, markReady, safe_bind]
  intro answer after taken
  rcases taken with ⟨positive, row, found, rfl⟩ | ⟨negative, rfl⟩
  · have still : Worked (install.markedReady checkpoint row store) :=
      ⟨worked.started, worked.taken⟩
    refine ⟨⟨.markedReady kept kind found, still.sound⟩, safe_orFail (fun _ => ?_) ?_⟩
    · exact marks _ still kept (found.backed kept)
    · exact ⟨still, trivial⟩
  · refine ⟨worked.quiet, safe_orFail (fun positive => ?_) ⟨worked, trivial⟩⟩
    rw [negative] at positive
    cases positive

/-! ### The functions -/

theorem Honest.checkpointed
    (replaces : ∀ old, store.checkpoint = some old → install.Replaces old checkpoint) :
    install.Honest store { store with checkpoint := some checkpoint } where
  succeeded settled unsettled := absurd settled unsettled
  marked _ _ found _ _ := .inl found
  replaced old kept := ⟨checkpoint, rfl, replaces old kept⟩

theorem safe_settleRollback (worked : Worked store)
    (replaces : ∀ old, store.checkpoint = some old → install.Replaces old checkpoint) :
    install.Settles (settleRollback checkpoint) good store := by
  simp only [Settles, settleRollback, persistCheckpoint, safe_bind, safe_mapError]
  intro answer after taken
  cases answer with
  | false =>
    obtain rfl : after = store := taken
    exact ⟨worked.quiet, worked, trivial⟩
  | true =>
    obtain rfl : after = { store with checkpoint := some checkpoint } := taken
    have still : Worked { store with checkpoint := some checkpoint } :=
      ⟨worked.started, worked.taken⟩
    refine ⟨⟨.checkpointed replaces, still.sound⟩, ?_⟩
    refine safe_ask (fun _ _ taken => taken) still fun acknowledged _ => ?_
    cases acknowledged with
    | true => exact still
    | false => exact ⟨still, trivial⟩

theorem Open.replaces (state : Open store) (later : checkpoint.kind = .final ∨
      checkpoint.kind = .rolledBack ∧ checkpoint.versionId = install.target) :
    ∀ old, store.checkpoint = some old → install.Replaces old checkpoint := by
  intro old kept
  rcases later with final | ⟨rolledBack, target⟩
  · exact .final (state old kept) final
  · exact .target (state old kept) rolledBack target

theorem safe_classifyFailure (worked : Worked store) (state : Open store) :
    install.Settles (classifyFailure install.target) good store := by
  simp only [Settles, classifyFailure, safe_bind]
  refine safe_ask (fun _ _ taken => taken) worked fun outcome _ => ?_
  cases outcome with
  | noEffect => exact worked
  | rolledBack evidence => exact safe_settleRollback worked (state.replaces (.inr ⟨rfl, rfl⟩))
  | committed | mismatch | indeterminate => exact ⟨worked, trivial⟩

theorem leaves_unsettledInspection (worked : Worked store) (state : InspectedState) :
    install.Leaves (unsettledInspection state) store := by
  cases state <;> exact ⟨worked, trivial⟩

/-- A receipt for the version settles to a version that is ready. -/
theorem safe_settleReceipt {receipt : InstallReceipt} (worked : Worked store)
    (state : Open store) (named : receipt.versionId = install.target) :
    install.Settles (settleReceipt receipt)
      (fun _ after => Worked after ∧ install.Backed after) store := by
  simp only [Settles, settleReceipt, safe_bind]
  refine safe_ask (fun _ _ taken => taken) worked fun inspected _ => ?_
  cases inspected with
  | awaitingActivation contractId evidenceId =>
    simp only [safe_bind, safe_mapError]
    refine safe_persistActivation worked (state.replaces (.inl rfl)) (fun after still kept => ?_)
      fun _ => ⟨worked, trivial⟩
    refine safe_ask (fun _ _ taken => taken) still fun acknowledged _ => ?_
    cases acknowledged with
    | true =>
      exact safe_markReady still kept (by simp) fun last ended _ backed =>
        ⟨ended, backed rfl named⟩
    | false => exact ⟨still, trivial⟩
  | noEffect | mismatch | receiptMismatch | rolledBack | indeterminate =>
    exact leaves_unsettledInspection worked _

theorem safe_settleContinuation {answer : Except LoaderInstallError InstallReceipt}
    (worked : Worked store) (state : Open store) (continues : Continues install.target answer) :
    install.Settles (settleContinuation install.target answer)
      (fun _ after => Worked after ∧ install.Backed after) store := by
  match answer with
  | .ok receipt => exact safe_settleReceipt worked state continues
  | .error (.publicationIndeterminate recovery) =>
    refine ⟨worked, continues.1, state, fun origin => ?_⟩
    rw [continues.2] at origin
    cases origin
  | .error .other => exact safe_classifyFailure worked state

theorem Open.of_base (kept : store.checkpoint = some checkpoint) (base : checkpoint.kind = .base) :
    Open store := by
  intro other found
  rw [kept] at found
  cases found
  exact base

theorem safe_settleLoader {outcome : LoaderPublicationOutcome} {origin : LoaderOrigin}
    (worked : Worked store) (state : Open store)
    (unmarked : origin = .base → store.checkpoint = none)
    (publishes : PublishesLoader install.target origin (.ok outcome)) :
    install.Settles (settleLoader install.target outcome)
      (fun _ after => Worked after ∧ install.Backed after) store := by
  match outcome with
  | .childCommitted receipt => exact safe_settleReceipt worked state publishes
  | .baseCommitted commit =>
    simp only [Settles, settleLoader, safe_bind]
    refine safe_ask (fun _ _ taken => taken) worked fun inspected _ => ?_
    cases inspected with
    | awaitingActivation contractId evidenceId =>
      simp only [safe_bind, safe_mapError]
      refine safe_ask (fun _ _ taken => taken) worked fun authority _ => ?_
      refine safe_orFail (fun _ => ?_) ⟨worked, trivial⟩
      refine safe_persistActivation worked (fun old kept => ?_) (fun after still kept => ?_)
        fun _ => ⟨worked, trivial⟩
      · rw [unmarked publishes.2] at kept
        cases kept
      · refine safe_ask (fun _ _ taken => taken) still fun acknowledged _ => ?_
        cases acknowledged with
        | true =>
          simp only [safe_bind]
          refine safe_markReady still kept (by simp) fun last ready kept _ => ?_
          refine safe_ask (fun _ _ taken => taken.1) ready fun answer continues => ?_
          refine safe_settleContinuation ready (.of_base kept rfl) ?_
          rw [← publishes.1]
          exact continues.2
        | false => exact ⟨still, publishes.1, .of_base kept rfl⟩
    | noEffect | mismatch | receiptMismatch | rolledBack | indeterminate =>
      exact leaves_unsettledInspection worked _

/-! ### The recovery -/

theorem safe_readCheckpoint {good : Option PublicationCheckpoint → Store → Prop}
    {bad : InstallError → Store → Prop} (worked : Worked store)
    (read : (∀ checkpoint, store.checkpoint = some checkpoint →
      install.verifies checkpoint = true) → good store.checkpoint store)
    (fails : ∀ error, bad error store) :
    install.readCheckpoint.Safe install.effect install.Guarantee good bad store := by
  simp only [readCheckpoint, safe_bind]
  refine safe_ask (fun _ _ taken => taken.1) worked fun answer taken => ?_
  rcases answer with _ | _ | checkpoint
  · exact fails _
  · have here := taken.2 none rfl
    simp only [safe_pure]
    rw [here]
    exact read fun checkpoint kept => by rw [← here] at kept; cases kept
  · have here := taken.2 (some checkpoint) rfl
    dsimp only
    split
    · rename_i verified
      simp only [safe_pure]
      rw [here]
      refine read fun other kept => ?_
      rw [← here] at kept
      cases kept
      exact verified
    · exact fails _

/-- What a recovery leaves to be done. -/
def Recovers (store : Store) : RecoveryAction → Prop
  | .complete => install.Backed store
  | .requeue => store.checkpoint = none
  | .continue continuation => continuation.versionId = install.target ∧ Open store

/-- What the first half of a recovery comes to: an outcome is all that it has found out. -/
def Resumes (before : Store) : RecoveryAction ⊕ DurableOutcome → Store → Prop
  | .inl action, after => Worked after ∧ install.Recovers after action
  | .inr _, after => after = before

variable {retained : Option RetainedInstall}

theorem safe_recoverRetained (worked : Worked store)
    (fits : ∀ work, retained = some work → install.Fits store work) :
    install.Settles (install.recoverRetained store.checkpoint retained)
      (install.Resumes store) store := by
  match retained with
  | some (.publication recovery) =>
    obtain ⟨target, state⟩ := fits _ rfl
    simp only [Settles, recoverRetained, safe_bind]
    refine safe_ask (fun _ _ taken => taken.1) worked fun answer taken => ?_
    have publishes : Publishes install.target answer := target ▸ taken.2
    cases answer with
    | ok receipt => exact safe_bind.mpr (safe_settleReceipt worked state publishes)
    | error failure =>
      cases failure with
      | publicationIndeterminate recovery => exact ⟨worked, publishes, state⟩
      | cancelled | other => exact safe_bind.mpr (safe_classifyFailure worked state)
  | some (.loaderPublication recovery) =>
    obtain ⟨target, state, unmarked⟩ := fits _ rfl
    simp only [Settles, recoverRetained, safe_bind]
    refine safe_ask (fun _ _ taken => taken.1) worked fun answer taken => ?_
    have publishes : PublishesLoader install.target recovery.origin answer := target ▸ taken.2
    cases answer with
    | ok outcome => exact safe_bind.mpr (safe_settleLoader worked state unmarked publishes)
    | error failure =>
      cases failure with
      | publicationIndeterminate recovery =>
        exact ⟨worked, publishes.1, state, fun origin => unmarked (publishes.2 origin)⟩
      | other => exact safe_bind.mpr (safe_classifyFailure worked state)
  | some (.acknowledgement continuation) =>
    simp only [Settles, recoverRetained, safe_bind]
    refine safe_ask (fun _ _ taken => taken) worked fun answer taken => ?_
    cases answer with
    | false => exact ⟨worked, fits _ rfl⟩
    | true =>
      cases continuation with
      | none => rfl
      | some continuation =>
        obtain ⟨target, state⟩ := fits _ rfl
        cases kept : store.checkpoint with
        | none => exact ⟨worked, trivial⟩
        | some checkpoint =>
          have base := state checkpoint kept
          simp only [safe_bind]
          refine safe_markReady worked kept (by rw [base]; decide) fun after still kept _ => ?_
          exact ⟨still, target, .of_base kept base⟩
  | some (.outcome .indeterminate) =>
    simp only [Settles, recoverRetained, safe_bind]
    exact safe_ask (fun _ _ taken => taken) worked fun _ _ => rfl
  | some (.outcome (.committed evidence)) => rfl
  | some (.outcome (.rolledBack evidence)) => rfl
  | some (.outcome .noEffect) | some (.outcome .mismatch) | some .retry | none =>
    refine safe_bind.mpr (safe_ask (fun _ _ taken => taken) worked fun _ _ => ?_)
    refine safe_bind.mpr (safe_orFail (fun _ => ?_) ⟨worked, trivial⟩)
    exact safe_bind.mpr (safe_ask (fun _ _ taken => taken) worked fun _ _ => rfl)

/-- Whether a checkpoint may be activated in place of the one that is stored. -/
structure Activates (install : NativeInstall) (store : Store)
    (checkpoint : PublicationCheckpoint) : Prop where
  replaces : ∀ old, store.checkpoint = some old → install.Replaces old checkpoint
  kind : checkpoint.kind ≠ .rolledBack
  target : checkpoint.kind = .final → checkpoint.versionId = install.target

theorem verifies_final (verified : install.verifies checkpoint = true)
    (final : checkpoint.kind = .final) : checkpoint.versionId = install.target := by
  simp only [verifies, final, Bool.and_eq_true, decide_eq_true_eq] at verified
  exact verified.1.2

variable {previous : PublicationCheckpoint}

theorem replaces_of_supersedes {observed : PublicationCheckpoint}
    (supersedes : supersedes observed previous = true) : install.Replaces previous observed := by
  simp only [NativeInstall.supersedes, Bool.or_eq_true, Bool.and_eq_true, decide_eq_true_eq]
    at supersedes
  rcases supersedes with ⟨base, final⟩ | ⟨⟨kind, evidence⟩, contract⟩
  · exact .final base final
  · exact .same kind.symm evidence.symm contract.symm

theorem replaces_of_rollsBack {evidence : RolledBackEvidence} {versionId : String}
    (verified : install.verifies previous = true)
    (rollsBack : install.rollsBack evidence previous = true)
    (version : install.rolledBackVersion evidence = some versionId) :
    install.Replaces previous ⟨.rolledBack, versionId, evidence.id, none⟩ := by
  simp only [NativeInstall.rollsBack, Bool.or_eq_true, Bool.and_eq_true, decide_eq_true_eq]
    at rollsBack
  rcases rollsBack with ⟨base, matched⟩ | ⟨rolledBack, same⟩
  · refine .target base rfl ?_
    simp only [rolledBackVersion, matched, if_true, Option.some.injEq] at version
    exact version.symm
  · refine .same rolledBack.symm same.symm ?_
    simp only [verifies, rolledBack, Bool.and_eq_true, Option.isNone_iff_eq_none] at verified
    exact verified.2.symm

/-- What the middle of a recovery comes to. -/
def Resolves (before : Store) :
    RecoveryAction ⊕ PublicationCheckpoint × Option CommittedEvidence → Store → Prop
  | .inl action, after => Worked after ∧ install.Recovers after action
  | .inr (checkpoint, _), after => after = before ∧ install.Activates before checkpoint

theorem safe_resolveOutcome {outcome : DurableOutcome} (worked : Worked store)
    (verified : ∀ checkpoint, store.checkpoint = some checkpoint →
      install.verifies checkpoint = true) :
    install.Settles (install.resolveOutcome store.checkpoint outcome)
      (install.Resolves store) store := by
  cases outcome with
  | noEffect =>
    cases kept : store.checkpoint with
    | some checkpoint =>
      simp only [Settles, resolveOutcome]
      split
      · exact worked
      · rename_i kind
        refine ⟨rfl, fun old found => ?_, kind, verifies_final (verified checkpoint kept)⟩
        rw [kept] at found
        cases found
        exact .refl checkpoint
    | none =>
      simp only [Settles, resolveOutcome, safe_bind]
      refine safe_ask (fun _ _ taken => taken.1) worked fun answer _ => ?_
      rcases answer with _ | _ | _
      · exact ⟨worked, trivial⟩
      · exact ⟨worked, kept⟩
      · exact ⟨worked, trivial⟩
  | committed evidence =>
    simp only [Settles, resolveOutcome]
    split
    · exact ⟨worked, trivial⟩
    · rename_i kind known
      split
      · rename_i accepted
        refine ⟨rfl, fun old found => ?_, ?_, verifies_final accepted.1⟩
        · rw [found] at accepted
          exact replaces_of_supersedes accepted.2
        · rintro rfl
          simp only [committedKind] at known
          split at known <;> [cases known; split at known <;> cases known]
      · exact ⟨worked, trivial⟩
  | rolledBack evidence =>
    simp only [Settles, resolveOutcome]
    split
    · rename_i rollsBack
      split
      · exact ⟨worked, trivial⟩
      · rename_i versionId version
        split
        · refine safe_bind.mpr (safe_settleRollback worked fun old found => ?_)
          rw [found] at rollsBack
          exact replaces_of_rollsBack (verified old found) rollsBack version
        · exact ⟨worked, trivial⟩
    · exact ⟨worked, trivial⟩
  | mismatch | indeterminate => exact ⟨worked, trivial⟩

/-- Marking the activated checkpoint is the last thing a recovery does. -/
theorem safe_marked (worked : Worked store) (kept : store.checkpoint = some checkpoint)
    (activates : install.Activates store checkpoint) :
    install.Settles (do
        markReady checkpoint
        match (if checkpoint.kind = .base then some ⟨install.target⟩ else none :
          Option LoaderContinuation) with
        | some continuation => pure (.continue continuation)
        | none => pure .complete)
      (fun action after => Worked after ∧ install.Recovers after action) store := by
  simp only [Settles, safe_bind]
  refine safe_markReady worked kept activates.kind fun after still kept backed => ?_
  cases kind : checkpoint.kind with
  | base => exact ⟨still, rfl, .of_base kept kind⟩
  | final => exact ⟨still, backed kind (activates.target kind)⟩
  | rolledBack => exact absurd kind activates.kind

theorem fits_continuation (kept : store.checkpoint = some checkpoint) :
    install.Fits store (.acknowledgement
      (if checkpoint.kind = .base then some ⟨install.target⟩ else none)) := by
  split
  · rename_i base
    exact ⟨rfl, .of_base kept base⟩
  · trivial

theorem Activates.again (activates : install.Activates store checkpoint)
    (kept : after.checkpoint = some checkpoint) :
    install.Activates after checkpoint where
  replaces old found := by
    rw [kept] at found
    cases found
    exact .refl checkpoint
  kind := activates.kind
  target := activates.target

theorem safe_reactivate {evidence : Option CommittedEvidence} (worked : Worked store)
    (activates : install.Activates store checkpoint) :
    install.Settles (install.reactivate checkpoint evidence)
      (fun action after => Worked after ∧ install.Recovers after action) store := by
  have unsettled : install.Leaves (unactivated evidence) store := by
    cases evidence <;> exact ⟨worked, trivial⟩
  simp only [Settles, reactivate]
  split
  · exact unsettled
  · rename_i contract _
    refine safe_bind.mpr (safe_ask (fun _ _ taken => taken) worked fun _ _ => ?_)
    refine safe_bind.mpr (safe_orFail (fun _ => ?_) unsettled)
    refine safe_bind.mpr (safe_ask (fun _ _ taken => taken) worked fun receipt _ => ?_)
    match receipt with
    | none => exact unsettled
    | some receipt =>
      refine safe_bind.mpr (safe_attemptIf worked ?_ unsettled)
      split
      · exact unsettled
      · rename_i observed _
        split
        · exact unsettled
        · refine safe_bind.mpr (safe_attemptIf worked ?_ ⟨worked, trivial⟩)
          refine safe_bind.mpr (safe_mapError.mpr ?_)
          refine safe_persistActivation worked activates.replaces (fun after still kept => ?_)
            fun _ => ⟨worked, trivial⟩
          refine safe_bind.mpr (safe_acknowledgeIf still ?_ ⟨still, fits_continuation kept⟩)
          exact safe_marked still kept (activates.again kept)

theorem safe_recoverPublication (worked : Worked store)
    (fits : ∀ work, retained = some work → install.Fits store work) :
    install.Settles (install.recoverPublication retained)
      (fun action after => Worked after ∧ install.Recovers after action) store := by
  have again : install.Fits store (retained.getD .retry) := by
    cases retained with
    | none => trivial
    | some work => exact fits work rfl
  refine safe_bind.mpr (safe_mapError.mpr ?_)
  refine safe_readCheckpoint worked (fun verified => ?_) fun _ => ⟨worked, again⟩
  refine safe_bind.mpr ((safe_recoverRetained worked fits).mono ?_ fun _ _ leaves => leaves)
  intro step after resumes
  match step with
  | .inl action => exact resumes
  | .inr outcome =>
    obtain rfl : after = store := resumes
    refine safe_bind.mpr ((safe_resolveOutcome worked verified).mono ?_ fun _ _ leaves => leaves)
    intro step last resolves
    match step with
    | .inl action => exact resolves
    | .inr (checkpoint, evidence) =>
      obtain ⟨rfl, activates⟩ := resolves
      exact safe_reactivate worked activates

/-! ### Tasks -/

/-- A task keeps the guarantee; nothing is promised of its end. -/
abbrev Behaves (install : NativeInstall) (program : Program Op Op.Answer InstallError Unit)
    (store : Store) : Prop :=
  program.Safe install.effect install.Guarantee (fun _ _ => True) (fun _ _ => True) store

theorem Honest.keeping (same : after.checkpoint = store.checkpoint)
    (rows : after.versions = store.versions)
    (backed : after.phase = .settled .succeeded → store.phase ≠ .settled .succeeded →
      install.Backed store) : install.Honest store after where
  succeeded settled unsettled := by
    obtain ⟨checkpoint, contractId, kept, kind, target, contract, row⟩ := backed settled unsettled
    exact ⟨checkpoint, contractId, same.trans kept, kind, target, contract, rows ▸ row⟩
  marked _ _ found _ _ := .inl (rows ▸ found)
  replaced old kept := ⟨old, same.trans kept, .refl old⟩

theorem Fits.keeping {retained : RetainedInstall} (fits : install.Fits store retained)
    (same : after.checkpoint = store.checkpoint) : install.Fits after retained := by
  unfold Fits Open at *
  rw [same]
  exact fits

theorem behaves_retain {retained : RetainedInstall} (fits : install.Fits store retained) :
    install.Behaves (ask (.retain retained)) store := by
  rintro _ _ rfl
  refine ⟨⟨.keeping rfl rfl (fun settled => by cases settled),
    (fun queued => by cases queued), ?_⟩, trivial⟩
  intro other kept
  cases kept
  exact fits.keeping rfl

variable {outcome : InstallOutcome}

theorem behaves_complete (worked : Worked store)
    (backed : outcome = .succeeded → install.Backed store) :
    install.Behaves (completeOrRetain outcome) store := by
  refine safe_bind.mpr fun answer after taken => ?_
  cases answer with
  | true =>
    obtain rfl : after = { store with phase := .settled outcome } := taken
    refine ⟨⟨.keeping rfl rfl (fun settled _ => backed ?_), (fun queued => by cases queued),
      fun other kept => ?_⟩, trivial⟩
    · cases settled
      rfl
    · cases worked.taken.symm.trans kept
  | false =>
    obtain rfl : after = store := taken
    exact ⟨worked.quiet, behaves_retain trivial⟩

variable {failed : InstallError → InstallOutcome}

theorem behaves_conclude {result : Except WorkFailure Unit}
    (unsuccessful : ∀ error, failed error ≠ .succeeded) (worked : Worked store)
    (good : result = .ok () → install.Backed store)
    (bad : ∀ failure, result = .error failure → install.Leaves failure store) :
    install.Behaves (conclude failed result) store := by
  match result with
  | .ok () => exact behaves_complete worked fun _ => good rfl
  | .error (.failed error) =>
    exact behaves_complete worked fun same => absurd same (unsuccessful error)
  | .error (.unsettled retained) => exact behaves_retain (bad _ rfl).2

theorem Leaves.worked (leaves : install.Leaves failure store) : Worked store := by
  cases failure with
  | failed error => exact leaves
  | unsettled retained => exact leaves.1

/-- A task that settles and then concludes. -/
theorem behaves_handle {program : Work Unit} (unsuccessful : ∀ error, failed error ≠ .succeeded)
    (settles : install.Settles program (fun _ after => Worked after ∧ install.Backed after)
      store) : install.Behaves (program.handle (conclude failed)) store := by
  refine safe_handle.mpr (settles.mono ?_ ?_)
  · intro value after settled
    exact behaves_conclude unsuccessful settled.1 (fun _ => settled.2) fun _ failed => nomatch failed
  · intro failure after leaves
    refine behaves_conclude unsuccessful leaves.worked (fun failed => nomatch failed) ?_
    rintro other ⟨⟩
    exact leaves

section

variable (worked : Worked store) (unmarked : store.checkpoint = none)

include worked unmarked

theorem safe_runVanilla :
    install.Settles install.runVanilla (fun _ after => Worked after ∧ install.Backed after)
      store := by
  have state : Open store := fun checkpoint kept => by rw [unmarked] at kept; cases kept
  refine safe_bind.mpr (safe_ask (fun _ _ taken => taken.1) worked fun answer taken => ?_)
  match answer, taken.2 with
  | .ok receipt, publishes => exact safe_settleReceipt worked state publishes
  | .error .cancelled, _ => exact worked
  | .error (.publicationIndeterminate recovery), publishes => exact ⟨worked, publishes, state⟩
  | .error .other, _ => exact safe_classifyFailure worked state

theorem safe_runLoader :
    install.Settles install.runLoader (fun _ after => Worked after ∧ install.Backed after)
      store := by
  have state : Open store := fun checkpoint kept => by rw [unmarked] at kept; cases kept
  refine safe_bind.mpr (safe_ask (fun _ _ taken => taken) worked fun resolved _ => ?_)
  match resolved with
  | some error => exact worked
  | none =>
    refine safe_bind.mpr (safe_ask (fun _ _ taken => taken.1) worked fun answer taken => ?_)
    match answer, taken.2 with
    | .ok outcome, publishes =>
      exact safe_settleLoader worked state (fun _ => unmarked) publishes
    | .error (.publicationIndeterminate recovery), publishes =>
      exact ⟨worked, publishes.1, state, fun _ => unmarked⟩
    | .error .other, _ => exact safe_classifyFailure worked state

theorem behaves_run : install.Behaves install.run store := by
  refine safe_bind.mpr (safe_ask (fun _ _ taken => taken) worked fun cancelled _ => ?_)
  match cancelled with
  | true => exact behaves_complete worked fun same => by cases same
  | false =>
    refine behaves_handle (fun error => ?_) ?_
    · split <;> simp
    · split
      · exact safe_runLoader worked unmarked
      · exact safe_runVanilla worked unmarked

end

theorem behaves_recover (worked : Worked store)
    (fits : ∀ work, retained = some work → install.Fits store work) :
    install.Behaves (install.recover retained) store := by
  refine safe_handle.mpr ((safe_recoverPublication worked fits).mono ?_ ?_)
  · rintro action after ⟨still, recovers⟩
    match action with
    | .complete => exact behaves_complete still fun _ => recovers
    | .requeue =>
      refine safe_bind.mpr fun answer last taken => ?_
      cases answer with
      | true =>
        obtain rfl : last = { after with phase := .queued, retained := none } := taken
        refine ⟨⟨.keeping rfl rfl (fun settled => by cases settled), ?_, nofun⟩, trivial⟩
        exact fun _ => ⟨recovers, rfl⟩
      | false =>
        obtain rfl : last = after := taken
        exact ⟨still.quiet, trivial⟩
    | .continue continuation =>
      obtain ⟨target, state⟩ := recovers
      refine safe_bind.mpr (safe_ask (fun _ _ taken => taken.1) still fun answer taken => ?_)
      exact behaves_handle (fun _ => by simp)
        (safe_settleContinuation still state (target ▸ taken.2))
  · intro failure after leaves
    refine behaves_conclude (fun _ => by simp) leaves.worked (fun failed => nomatch failed) ?_
    rintro other ⟨⟩
    exact leaves

/-! ### Runs of the system -/

/-- The invariant: what the database holds is in order, and so is the rest of the task. -/
structure System.Valid (install : NativeInstall) (system : System) : Prop where
  sound : install.Sound system.store
  task : ∀ program, system.task = some program → install.Behaves program system.store

theorem Sound.keeping (sound : install.Sound store) (same : after.checkpoint = store.checkpoint)
    (phase : after.phase = .queued → store.phase = .queued)
    (kept : after.retained = store.retained ∨ after.retained = none) : install.Sound after where
  fresh queued := by
    obtain ⟨unmarked, none⟩ := sound.fresh (phase queued)
    rcases kept with kept | kept
    · exact ⟨same.trans unmarked, kept.trans none⟩
    · exact ⟨same.trans unmarked, kept⟩
  fits retained here := by
    rcases kept with kept | kept
    · exact (sound.fits retained (kept ▸ here)).keeping same
    · rw [kept] at here
      cases here

theorem interrupted_phase_ne (settled : store.interrupted.phase = .settled outcome) :
    store.phase = .settled outcome := by
  unfold Store.interrupted at settled
  dsimp only at settled
  split at settled
  · cases settled
  · exact settled

theorem interrupted_queued (queued : store.interrupted.phase = .queued) :
    store.phase = .queued := by
  unfold Store.interrupted at queued
  dsimp only at queued
  split at queued
  · cases queued
  · exact queued

theorem Honest.elsewhere {versions : String × String → Option InstalledVersion}
    (others : install.Elsewhere store.versions versions) :
    install.Honest store { store with versions } where
  succeeded settled unsettled := absurd settled unsettled
  marked _ row found owned _ := .inl (others _ row owned found)
  replaced old kept := ⟨old, kept, .refl old⟩

/-- Each step is honest and keeps the invariant. -/
theorem Step.valid {before after : System} (step : install.Step before after)
    (valid : before.Valid install) :
    install.Honest before.store after.store ∧ after.Valid install := by
  cases step with
  | start queued =>
    refine ⟨.keeping rfl rfl (fun settled => by cases settled), ?_, ?_⟩
    · exact valid.sound.keeping rfl (fun running => by cases running) (.inl rfl)
    · rintro program ⟨⟩
      obtain ⟨unmarked, taken⟩ := valid.sound.fresh queued
      exact behaves_run ⟨by simp, taken⟩ unmarked
  | remove queued =>
    refine ⟨.keeping rfl rfl (fun settled => by cases settled), ?_, nofun⟩
    exact valid.sound.keeping rfl (fun removed => by cases removed) (.inl rfl)
  | recover required =>
    refine ⟨.keeping rfl rfl fun settled unsettled => absurd settled unsettled, ?_, ?_⟩
    · exact valid.sound.keeping rfl (fun queued => queued) (.inr rfl)
    · rintro program ⟨⟩
      refine behaves_recover ⟨?_, rfl⟩ fun work kept => (valid.sound.fits work kept).keeping rfl
      rw [required]
      nofun
  | work taken =>
    obtain ⟨⟨honest, sound⟩, rest⟩ := (valid.task _ rfl).step taken
    exact ⟨honest, sound, by rintro program ⟨⟩; exact rest⟩
  | returned ended =>
    refine ⟨.keeping rfl rfl fun settled unsettled =>
      absurd (interrupted_phase_ne settled) unsettled, ?_, nofun⟩
    exact valid.sound.keeping rfl interrupted_queued (.inl rfl)
  | crash =>
    refine ⟨.keeping rfl rfl fun settled unsettled =>
      absurd (interrupted_phase_ne settled) unsettled, ?_, nofun⟩
    exact valid.sound.keeping rfl interrupted_queued (.inr rfl)
  | elsewhere idle others =>
    exact ⟨.elsewhere others, valid.sound.keeping rfl (fun queued => queued) (.inl rfl), nofun⟩

theorem Accepted.valid {system : System} (accepted : Accepted system) : system.Valid install where
  sound := by
    refine ⟨fun _ => ⟨accepted.checkpoint, accepted.retained⟩, fun retained kept => ?_⟩
    rw [accepted.retained] at kept
    cases kept
  task program here := by
    rw [accepted.task] at here
    cases here

/-- In every run, with crashes, restarts and recoveries anywhere, success is backed by a version
that is ready under the final checkpoint of the install. -/
theorem honest_of_run {start before after : System} (accepted : Accepted start)
    (run : ReflTransGen install.Step start before) (step : install.Step before after) :
    install.Honest before.store after.store := by
  have valid : before.Valid install :=
    Runs.invariant (fun _ _ step valid => (step.valid valid).2) run accepted.valid
  exact (step.valid valid).1

/-- A task goes on with an answer. -/
theorem Step.answered (op : Op) {next : op.Answer → Program Op Op.Answer InstallError Unit}
    (answer : op.Answer) (taken : install.effect op store answer after) :
    install.Step ⟨store, some (.call op next)⟩ ⟨after, some (next answer)⟩ := .work (.call taken)

/-- A vanilla install. -/
def vanillaInstall : NativeInstall where
  id := "a"
  libraryId := "l"
  item := ⟨"1.21.4", none, none⟩
  identities := ⟨fun _ => true, fun _ _ => true, fun _ => true, fun _ => true⟩

def acceptedStore : Store := ⟨.queued, none, fun _ => none, none⟩

/-- A vanilla install runs through. -/
theorem honest_of_run_vanilla :
    ∃ before after, ReflTransGen vanillaInstall.Step ⟨acceptedStore, none⟩ before ∧
      vanillaInstall.Step before after ∧ after.store.phase = .settled .succeeded ∧
      vanillaInstall.Backed after.store := by
  let running : Store := { acceptedStore with phase := .running }
  let version : ActivatedVersion := ⟨"1.21.4", "c"⟩
  let checkpoint : PublicationCheckpoint := ⟨.final, "1.21.4", "e", some "c"⟩
  let activated : Store := vanillaInstall.activated version checkpoint running
  let ready : Store :=
    vanillaInstall.markedReady checkpoint ⟨"c", "a", .activating⟩ activated
  have began : ReflTransGen vanillaInstall.Step ⟨acceptedStore, none⟩
      ⟨running, some vanillaInstall.run⟩ := .single (.start rfl)
  have inspected := ((began.tail (.answered .cancelled false rfl)).tail
    (.answered (.install "1.21.4") (.ok ⟨"1.21.4"⟩) ⟨rfl, rfl⟩)).tail
    (.answered (.inspectReceipt ⟨"1.21.4"⟩) (.awaitingActivation "c" "e") rfl)
  have acknowledged := ((inspected.tail (.answered (.attempt .inventory) true rfl)).tail
    (.answered (.writeActivation version checkpoint) true (show activated = _ from rfl))).tail
    (.answered .acknowledge true rfl)
  have marked : vanillaInstall.effect (.writeReady checkpoint) activated true ready :=
    .inl ⟨rfl, _, ⟨rfl, rfl, rfl⟩, rfl⟩
  have settled := acknowledged.tail (.answered (.writeReady checkpoint) true marked)
  refine ⟨_, _, settled, .answered (.complete .succeeded) true rfl, rfl, ?_⟩
  exact (honest_of_run ⟨rfl, rfl, rfl, rfl⟩ settled
    (.answered (.complete .succeeded) true rfl)).succeeded rfl nofun

end NativeInstall

end Axial.Install.Publication
