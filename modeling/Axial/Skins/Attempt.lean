/-
This file follows one attempt to apply a choice through its calls. What matters of the
surroundings is whether the choice still stands, which it may cease to do between any two
calls, and whether its effect has begun. The attempt sends its writes only after its effect
has begun; it ends as cancelled only when the choice no longer stands; and when it has
written, it ends with a failure that is retried only where the account service refused it
although the choice still stood.
-/

import Axial.Skins.Service

namespace Axial.Skins

open Accounts Program

/-- A write is known to have had no effect. -/
def hadNoEffect : Except ProfileMediaError (Option MinecraftProfile) → Bool
  | .error error => !mayHaveChanged error
  | .ok _ => false

/-- The account service refuses a question with a failure that counts as passing. -/
def refusesPassing : (call : SkinCall) → call.Answer → Bool
  | .checkCapture _, .error error => authError error = .unavailable
  | .commitProfile _ _, .error error => authError error = .unavailable
  | _, _ => false

structure Attempt where
  /-- The choice is the newest one and is not cancelled. -/
  current : Prop
  begun : Prop
  sent : Prop
  /-- A write was answered that is not known to have had no effect. -/
  written : Prop
  /-- After such a write, with the choice still standing, the account service refused with a
  passing failure. -/
  struck : Prop

namespace Attempt

/-- What the attempt comes to with a call that is made while the choice stands or not. -/
def after (attempt : Attempt) (standing : Prop) : (call : SkinCall) → call.Answer → Attempt
  | .beginEffectWithSkin _, .ok (.ok ()) =>
    { attempt with
      current := standing
      begun := True }
  | .beginEffect _, .ok () =>
    { attempt with
      current := standing
      begun := True }
  | .sendUpload _ _ _ _, _ =>
    { attempt with
      current := standing
      sent := True }
  | .sendCape _ _ _, _ =>
    { attempt with
      current := standing
      sent := True }
  | .written, answer =>
    { attempt with
      current := standing
      written := attempt.written ∨ hadNoEffect answer = false }
  | question, answer =>
    { attempt with
      current := standing
      struck := attempt.struck ∨ (attempt.written ∧ standing ∧ refusesPassing question answer) }

/-- What a call may answer, by what it says of the choice. -/
def Answers (standing : Prop) : (call : SkinCall) → call.Answer → Prop
  | .sync _ _, answer => ∀ error, answer = .error error → readFailure error
  | .written, answer => ∀ error, answer = .error error → writeFailure error
  | .normalize _, answer => ∀ error, answer = .error error → error = .invalidImage
  | .beginEffectWithSkin _, answer =>
    (∃ error, answer = .error error) ∨ answer = .ok (.error .savedSkinMissing) ∨
      (answer = .ok (.ok ()) ∧ standing) ∨ (answer = .ok (.error .cancelled) ∧ ¬standing)
  | .beginEffect _, answer =>
    (answer = .ok () ∧ standing) ∨ (answer = .error .cancelled ∧ ¬standing)
  | .isCurrent _, answer => answer = true ↔ standing
  | _, _ => True

/-- The choice may cease to stand before each call. -/
def effect : Effect SkinCall SkinCall.Answer Attempt := fun call before answer after =>
  ∃ standing : Prop, (standing → before.current) ∧ Answers standing call answer ∧
    after = before.after standing call answer

/-- Writes are sent only after the effect has begun. -/
def guarantee (_ after : Attempt) : Prop := after.sent → after.begun

def ended : Outcome → Attempt → Prop
  | .ok (), _ => True
  | .error error, attempt =>
    (error = .cancelled → ¬attempt.current) ∧
      (attempt.written → Slot.retries (some error) → ¬attempt.current ∨ attempt.struck)

/-- The calls of the rest are as they should be, and so is its end. -/
def Goes (rest : SkinProgram Unit) (attempt : Attempt) : Prop :=
  rest.Safe effect guarantee (fun _ => ended (.ok ())) (fun error => ended (.error error)) attempt

/-! ### Calls that change nothing but the surroundings -/

/-- What such calls leave of an attempt. -/
structure Kept (before after : Attempt) : Prop where
  current : after.current → before.current
  begun : after.begun ↔ before.begun
  sent : after.sent ↔ before.sent
  written : after.written ↔ before.written
  struck : before.struck → after.struck

theorem Kept.refl (attempt : Attempt) : Kept attempt attempt :=
  ⟨id, Iff.rfl, Iff.rfl, Iff.rfl, id⟩

theorem Kept.trans {first second third : Attempt} (early : Kept first second)
    (late : Kept second third) : Kept first third :=
  ⟨early.current ∘ late.current, late.begun.trans early.begun, late.sent.trans early.sent,
    late.written.trans early.written, late.struck ∘ early.struck⟩

variable {before : Attempt}

theorem Kept.ended {after : Attempt} {outcome : Outcome} (kept : Kept before after)
    (was : Attempt.ended outcome before) : Attempt.ended outcome after := by
  cases outcome with
  | ok => exact was
  | error error =>
    refine ⟨fun same => mt kept.current (was.1 same), fun wrote retried => ?_⟩
    exact (was.2 (kept.written.mp wrote) retried).imp (mt kept.current) kept.struck

variable {error : ProfileMediaError}

/-- Failures that are neither retried nor count as cancelled end an attempt in any state. -/
theorem ended_plain {attempt : Attempt} (uncancelled : error ≠ .cancelled)
    (unretried : Slot.retries (some error) = false) : ended (.error error) attempt :=
  ⟨fun same => absurd same uncancelled, fun _ retried => by simp [unretried] at retried⟩

/-- Before anything was written, any failure but that of a cancellation may end an attempt. -/
theorem ended_unwritten {attempt : Attempt} (uncancelled : error ≠ .cancelled)
    (unwritten : ¬attempt.written) : ended (.error error) attempt :=
  ⟨fun same => absurd same uncancelled, fun wrote => absurd wrote unwritten⟩

theorem accountError_ne_cancelled (failure : AccountError) :
    accountError failure ≠ .cancelled := by
  cases failure <;> exact nofun

theorem authError_ne_cancelled (failure : AuthError) : authError failure ≠ .cancelled := by
  cases failure with
  | account failure => exact accountError_ne_cancelled failure
  | credentials failure => cases failure <;> exact nofun
  | provider | signInRequired | ownershipMissing | loginExpired | unavailable => exact nofun

/-- Of the failures of the account service only the passing one is retried. -/
theorem retries_authError {failure : AuthError} (retried : Slot.retries (some (authError failure))) :
    authError failure = .unavailable := by
  cases failure with
  | account failure => cases failure <;> simp_all [Slot.retries, authError, accountError]
  | credentials failure => cases failure <;> simp_all [Slot.retries, authError]
  | _ => simp_all [Slot.retries, authError]

/-- The calls that neither begin the effect nor write. -/
def quiet : SkinCall → Bool
  | .beginEffectWithSkin _ | .beginEffect _ | .sendUpload _ _ _ _ | .sendCape _ _ _ | .written =>
    false
  | _ => true

variable {question : SkinCall}

theorem after_quiet (calm : quiet question = true) (attempt : Attempt) (standing : Prop)
    (answer : question.Answer) :
    attempt.after standing question answer =
      { attempt with
        current := standing
        struck := attempt.struck ∨
          (attempt.written ∧ standing ∧ refusesPassing question answer) } := by
  cases question <;> first | rfl | cases calm

variable {Value : Type} {attempt : Attempt}

/-- The program changes nothing but the surroundings, and ends as it should where it fails. -/
def Keeping (program : SkinProgram Value) (attempt : Attempt) : Prop :=
  program.Safe effect guarantee (fun _ after => Kept attempt after)
    (fun error after => ended (.error error) after) attempt

variable {bad : ProfileMediaError → Attempt → Prop} {good : Value → Attempt → Prop}
  {rest : question.Answer → SkinProgram Value}

theorem safe_ask_bind :
    (ask question >>= rest).Safe effect guarantee good bad attempt ↔
      ∀ answer after, effect question attempt answer after →
        guarantee attempt after ∧ (rest answer).Safe effect guarantee good bad after := Iff.rfl

theorem safe_ask {good : question.Answer → Attempt → Prop} :
    (ask question).Safe effect guarantee good bad attempt ↔
      ∀ answer after, effect question attempt answer after →
        guarantee attempt after ∧ good answer after := Iff.rfl

/-- What comes after a quiet call has to be shown for all answers. -/
theorem safe_quiet (calm : quiet question = true) (sound : attempt.sent → attempt.begun)
    (later : ∀ answer standing after, Answers standing question answer → (after.current ↔ standing) →
      (attempt.written → standing → refusesPassing question answer → after.struck) →
      Kept attempt after →
      (rest answer).Safe effect guarantee good (fun error => ended (.error error)) after) :
    (ask question >>= rest).Safe effect guarantee good (fun error => ended (.error error))
      attempt := by
  rw [safe_ask_bind]
  rintro answer after ⟨standing, lowered, answers, rfl⟩
  rw [after_quiet calm]
  refine ⟨sound, later answer standing _ answers Iff.rfl ?_ ?_⟩
  · exact fun wrote still refused => .inr ⟨wrote, still, refused⟩
  · exact ⟨lowered, Iff.rfl, Iff.rfl, Iff.rfl, .inl⟩

variable {program : SkinProgram Value} {Result : Type}

theorem Keeping.bind {rest : Value → SkinProgram Result} {good : Result → Attempt → Prop}
    (first : Keeping program attempt) (later : ∀ value after, Kept attempt after →
      (rest value).Safe effect guarantee good (fun error => ended (.error error)) after) :
    (program >>= rest).Safe effect guarantee good (fun error => ended (.error error)) attempt := by
  rw [safe_bind]
  exact Safe.mono first later fun _ _ fails => fails

theorem keeping_finish (value : Value) : Keeping (.finish value) attempt := Kept.refl attempt

theorem keeping_ask (calm : quiet question = true) (sound : attempt.sent → attempt.begun) :
    Keeping (ask question) attempt := by
  rintro answer after ⟨standing, lowered, answers, rfl⟩
  rw [after_quiet calm]
  exact ⟨sound, lowered, Iff.rfl, Iff.rfl, Iff.rfl, .inl⟩

/-- A question whose failure is taken for one that may end the attempt. -/
theorem keeping_require {Failure : Type} {convert : Failure → ProfileMediaError}
    (question : SkinCall) (read : question.Answer → Except Failure Value) (calm : quiet question = true)
    (sound : attempt.sent → attempt.begun)
    (fails : ∀ failure after, Kept attempt after → ended (.error (convert failure)) after) :
    Keeping (ask question >>= fun answer => require convert (read answer)) attempt := by
  refine safe_quiet calm sound fun answer standing after _ _ _ kept => ?_
  cases result : read answer with
  | ok value => exact kept
  | error failure => exact fails failure after kept

/-- A question to the account service; its passing failure strikes the attempt. -/
theorem keeping_require_auth (question : SkinCall)
    (read : question.Answer → Except AuthError Value) (calm : quiet question = true)
    (refuses : ∀ answer failure, read answer = .error failure →
      refusesPassing question answer = decide (authError failure = .unavailable))
    (sound : attempt.sent → attempt.begun) :
    Keeping (ask question >>= fun answer => require authError (read answer)) attempt := by
  refine safe_quiet calm sound fun answer standing after _ current strikes kept => ?_
  cases result : read answer with
  | ok value => exact kept
  | error failure =>
    refine ⟨fun same => absurd same (authError_ne_cancelled failure), fun wrote retried => ?_⟩
    have passing : refusesPassing question answer = true := by
      rw [refuses answer failure result, retries_authError retried]
      rfl
    by_cases still : standing
    · exact .inr (strikes (kept.written.mp wrote) still passing)
    · exact .inl (mt current.mp still)

theorem keeping_checkCapture (capture : CapturedAccount) (sound : attempt.sent → attempt.begun) :
    Keeping (ask (.checkCapture capture) >>= require authError) attempt :=
  keeping_require_auth (.checkCapture capture) id rfl
    (fun answer _ failed => by rw [show answer = _ from failed]; rfl) sound

theorem keeping_commitProfile (before : CapturedAccount) (profile : MinecraftProfile)
    (sound : attempt.sent → attempt.begun) :
    Keeping (ask (.commitProfile before profile) >>= require authError) attempt :=
  keeping_require_auth (.commitProfile before profile) id rfl
    (fun answer _ failed => by rw [show answer = _ from failed]; rfl) sound

theorem keeping_clearApplied (accountId : String) (sound : attempt.sent → attempt.begun) :
    Keeping (ask (.clearApplied accountId) >>= require fun _ => .settlementFailed) attempt :=
  keeping_require (.clearApplied accountId) id rfl sound fun _ _ _ => ended_plain (by decide) rfl

theorem Kept.sound {after : Attempt} (kept : Kept before after) (sound : before.sent → before.begun)
    : after.sent → after.begun :=
  fun sent => kept.begun.mpr (sound (kept.sent.mp sent))

/-- A program that keeps what an earlier one kept. -/
theorem Keeping.after (kept : Kept before attempt) (keeps : Keeping program attempt) :
    program.Safe effect guarantee (fun _ last => Kept before last)
      (fun error last => ended (.error error) last) attempt :=
  Safe.mono keeps (fun _ _ later => kept.trans later) fun _ _ fails => fails

theorem Keeping.andThen {rest : Value → SkinProgram Result} (first : Keeping program attempt)
    (sound : attempt.sent → attempt.begun)
    (second : ∀ value after, (after.sent → after.begun) → Keeping (rest value) after) :
    Keeping (program >>= rest) attempt :=
  first.bind fun value after kept => (second value after (kept.sound sound)).after kept

/-! ### The parts of the application -/

theorem keeping_markApplied (current : CapturedAccount) (pending : Option PendingSkin)
    (sound : attempt.sent → attempt.begun) : Keeping (markApplied current pending) attempt := by
  cases pending with
  | none => exact keeping_finish ()
  | some pending =>
    refine (keeping_ask rfl sound).andThen sound fun still after sound => ?_
    split
    · refine (keeping_require (.markAppliedIfCurrent _ _ _) id rfl sound
        fun _ _ _ => ended_plain (by decide) rfl).andThen sound fun marked after sound => ?_
      split
      · exact keeping_finish ()
      · exact ended_plain (by decide) rfl
    · exact keeping_finish ()

/-- The last question fails with a cancellation only where the choice no longer stands. -/
theorem keeping_confirm (pending : Option PendingSkin) (sound : attempt.sent → attempt.begun) :
    Keeping (confirm pending) attempt := by
  cases pending with
  | none => exact keeping_finish ()
  | some pending =>
    refine safe_quiet rfl sound fun still standing after answers current _ kept => ?_
    split
    · exact kept
    · refine ⟨fun _ stands => ?_, fun _ retried => by cases retried⟩
      exact ‹¬still = true› (answers.mpr (current.mp stands))

theorem keeping_commit (before : CapturedAccount) (profile : MinecraftProfile)
    (pending : Option PendingSkin) (sound : attempt.sent → attempt.begun) :
    Keeping (commit before profile pending) attempt := by
  refine (keeping_commitProfile before profile sound).andThen sound fun current _ sound => ?_
  refine (keeping_ask rfl sound).andThen sound fun _ _ sound => ?_
  refine (keeping_checkCapture current sound).andThen sound fun _ _ sound => ?_
  refine (keeping_clearApplied _ sound).andThen sound fun _ _ sound => ?_
  refine (keeping_markApplied current pending sound).andThen sound fun _ _ sound => ?_
  refine (keeping_ask rfl sound).andThen sound fun _ _ sound => ?_
  exact keeping_confirm pending sound

/-- A failure that may end the attempt ends it, or another one does. -/
theorem safe_failedEffect (capture : CapturedAccount) (token : String)
    (sound : attempt.sent → attempt.begun) (ends : ended (.error error) attempt) :
    (failedEffect capture token error : SkinProgram Value).Safe effect guarantee good
      (fun error => ended (.error error)) attempt := by
  unfold failedEffect
  split
  · refine safe_quiet rfl sound fun answer _ after _ _ _ kept => ?_
    cases answer with
    | ok profile =>
      exact (keeping_commit capture profile none (kept.sound sound)).bind
        fun _ last later => (kept.trans later).ended ends
    | error failure =>
      refine (keeping_checkCapture capture (kept.sound sound)).bind fun _ middle early => ?_
      have kept := kept.trans early
      exact (keeping_clearApplied _ (kept.sound sound)).bind
        fun _ last later => (kept.trans later).ended ends
  · exact (keeping_ask rfl sound).bind fun _ after kept => kept.ended ends

theorem keeping_settledProfile (capture : CapturedAccount) (token profileId : String)
    (changed : Option MinecraftProfile) (sound : attempt.sent → attempt.begun) :
    Keeping (settledProfile capture token profileId changed) attempt := by
  cases changed with
  | some profile => exact keeping_finish profile
  | none =>
    refine safe_quiet rfl sound fun answer _ after _ _ _ kept => ?_
    cases answer with
    | ok profile => exact kept
    | error failure =>
      exact safe_failedEffect capture token (kept.sound sound) (ended_plain (by decide) rfl)

theorem profileTexture_ne_cancelled (profile : MinecraftProfile) :
    profileTexture profile ≠ .error .cancelled := by
  unfold profileTexture
  dsimp only
  split <;> exact nofun

/-- Nothing was written yet, so that even a failure that is retried may end the attempt. -/
theorem keeping_preserve (capture : CapturedAccount) (profile : MinecraftProfile)
    (unsent : ¬attempt.sent) (unwritten : ¬attempt.written) :
    Keeping (preserve capture profile) attempt := by
  have sound : attempt.sent → attempt.begun := fun sent => absurd sent unsent
  unfold preserve
  split
  · exact keeping_finish ()
  · rename_i error _ failed
    refine ended_unwritten ?_ unwritten
    rintro rfl
    exact profileTexture_ne_cancelled profile failed
  · refine (keeping_require (.texture _) id rfl sound fun _ after kept =>
      ended_unwritten (by decide) (mt kept.written.mp unwritten)).bind fun png after kept => ?_
    refine (keeping_checkCapture capture (kept.sound sound)).bind fun _ last later => ?_
    have kept := kept.trans later
    exact (keeping_require (.keep _ _) id rfl (kept.sound sound) fun _ after later =>
      ended_unwritten (by decide) (mt (kept.trans later).written.mp unwritten)).after kept

/-! ### Writes -/

theorem readFailure_ne_cancelled (failure : readFailure error = true) : error ≠ .cancelled := by
  rintro rfl
  cases failure

theorem writeFailure_ne_cancelled (failure : writeFailure error = true) : error ≠ .cancelled := by
  rintro rfl
  cases failure

/-- A failure of the first write ends the attempt as it should: either it is not retried, or the
write is known to have had no effect. -/
theorem ended_of_written {after : Attempt} (failure : writeFailure error = true)
    (unwritten : ¬before.written)
    (written : after.written ↔ before.written ∨ hadNoEffect (.error error) = false) :
    ended (.error error) after := by
  refine ⟨fun same => absurd same (writeFailure_ne_cancelled failure), fun wrote retried => ?_⟩
  rcases written.mp wrote with early | late
  · exact absurd early unwritten
  · exfalso
    cases error <;> first | (cases late; done) | cases retried

/-- A request that writes, and its answer. -/
theorem safe_write {good : Except ProfileMediaError (Option MinecraftProfile) →
      Attempt → Prop} (sends : ∀ standing answer, attempt.after standing question answer =
      { attempt with
        current := standing
        sent := True }) (begun : attempt.begun)
    (later : ∀ answer after, (∀ error, answer = .error error → writeFailure error) →
      after.begun → (after.written ↔ attempt.written ∨ hadNoEffect answer = false) →
      good answer after) :
    (do let _ ← ask question; ask .written).Safe effect guarantee good bad attempt := by
  rw [safe_ask_bind]
  rintro sent middle ⟨standing, _, _, rfl⟩
  rw [sends]
  refine ⟨fun _ => begun, ?_⟩
  refine safe_ask.mpr ?_
  rintro answer after ⟨standing, _, answers, rfl⟩
  exact ⟨fun _ => begun, later answer _ answers begun Iff.rfl⟩

/-- The first write of an attempt: its failure may end the attempt. -/
theorem safe_upload (token : String) (variant : SkinVariant) (png : ByteArray) (profileId : String)
    (begun : attempt.begun) (unwritten : ¬attempt.written) :
    (upload token variant png profileId).Safe effect guarantee
      (fun answer after => after.begun ∧ ∀ error, answer = .error error → ended (.error error) after)
      bad attempt := by
  unfold upload
  rw [safe_ask_bind]
  rintro answer middle ⟨standing, _, answers, rfl⟩
  refine ⟨fun _ => begun, ?_⟩
  cases answer with
  | error error =>
    refine ⟨begun, fun other same => ?_⟩
    cases same
    have image : error = .invalidImage := answers error rfl
    subst image
    exact ended_plain (by decide) rfl
  | ok png =>
    refine safe_write (fun _ _ => rfl) begun fun answer after failures began written => ?_
    refine ⟨began, fun error same => ?_⟩
    subst same
    exact ended_of_written (failures error rfl) unwritten written

theorem safe_changeCape (token : String) (profile : MinecraftProfile) (target : Option String)
    (begun : attempt.begun) :
    (changeCape token profile target).Safe effect guarantee (fun _ after => after.begun) bad
      attempt := by
  unfold changeCape
  split
  · exact begun
  · split
    · exact begun
    · exact safe_write (fun _ _ => rfl) begun fun _ _ _ began _ => began

/-! ### The application -/

variable (pending : PendingSkin) (capture : CapturedAccount) (token profileId : String)

theorem goes_applyCape (capeId : Option String) (uploaded : MinecraftProfile)
    (begun : attempt.begun) :
    Goes (applyCape pending capture token profileId capeId uploaded) attempt := by
  unfold applyCape Goes
  rw [safe_bind]
  refine Safe.mono (safe_changeCape token uploaded capeId begun) (fun changed after began => ?_)
    fun _ _ failed => failed
  have sound : after.sent → after.begun := fun _ => began
  cases changed with
  | ok changed =>
    refine (keeping_settledProfile capture token profileId changed sound).bind
      fun final middle kept => ?_
    exact Safe.mono (keeping_commit capture final (some pending) (kept.sound sound))
      (fun _ _ _ => trivial) fun _ _ fails => fails
  | error error => exact safe_failedEffect capture token sound (ended_plain (by decide) rfl)

/-- A choice that no longer stands is committed without a mark, and ends as cancelled. -/
theorem goes_superseded (uploaded : MinecraftProfile) (sound : attempt.sent → attempt.begun)
    (gone : ¬attempt.current) :
    Goes (do commit capture uploaded none; .fail .cancelled) attempt :=
  (keeping_commit capture uploaded none sound).bind fun _ _ kept =>
    ⟨fun _ => mt kept.current gone, fun _ retried => by cases retried⟩

theorem goes_applyUploaded (capeId : Option String) (uploaded : MinecraftProfile)
    (begun : attempt.begun) :
    Goes (applyUploaded pending capture token profileId capeId uploaded) attempt := by
  unfold applyUploaded
  refine safe_quiet rfl (fun _ => begun) fun still standing after answers current _ kept => ?_
  have sound : after.sent → after.begun := fun _ => kept.begun.mpr begun
  split
  · refine (keeping_checkCapture capture sound).bind fun _ middle later => ?_
    have began : middle.begun := (kept.trans later).begun.mpr begun
    rw [safe_ask_bind]
    rintro answer last ⟨stands, _, answered, rfl⟩
    rcases answered with ⟨rfl, _⟩ | ⟨rfl, gone⟩
    · exact ⟨fun _ => trivial,
        goes_applyCape pending capture token profileId capeId uploaded trivial⟩
    · exact ⟨fun _ => began, goes_superseded capture uploaded (fun _ => began) gone⟩
  · refine goes_superseded capture uploaded sound fun stands => ?_
    exact ‹¬still = true› (answers.mpr (current.mp stands))

theorem goes_applyEffect (skin : SavedSkinSnapshot) (png : ByteArray) (begun : attempt.begun)
    (unwritten : ¬attempt.written) :
    Goes (applyEffect pending capture token profileId skin png) attempt := by
  unfold applyEffect
  refine safe_quiet rfl (fun _ => begun) fun _ _ after _ _ _ kept => ?_
  rw [safe_bind]
  refine Safe.mono (safe_upload token skin.variant png profileId (kept.begun.mpr begun)
    (mt kept.written.mp unwritten)) (fun changed middle uploaded => ?_) fun _ _ failed => failed
  have sound : middle.sent → middle.begun := fun _ => uploaded.1
  cases changed with
  | ok changed =>
    refine (keeping_settledProfile capture token profileId changed sound).bind
      fun profile last later => ?_
    exact goes_applyUploaded pending capture token profileId skin.capeId profile
      (later.begun.mpr uploaded.1)
  | error error => exact safe_failedEffect capture token sound (uploaded.2 error rfl)

/-- A question about the library before anything was written. -/
theorem goes_requireSome {Found : Type} {rest : Found → SkinProgram Unit} (question : SkinCall)
    (read : question.Answer → Except SkinLibraryError (Option Found)) (calm : quiet question = true)
    (unsent : ¬attempt.sent) (later : ∀ found after, Kept attempt after → Goes (rest found) after) :
    Goes ((ask question >>= fun answer =>
      requireSome (fun _ => .savedSkinMissing) .savedSkinMissing (read answer)) >>= rest)
      attempt := by
  have plain {after : Attempt} : ended (.error .savedSkinMissing) after :=
    ended_plain (by decide) rfl
  have first : Keeping (ask question >>= fun answer =>
      requireSome (fun _ => .savedSkinMissing) .savedSkinMissing (read answer)) attempt := by
    refine safe_quiet calm (fun sent => absurd sent unsent) fun answer _ after _ _ _ kept => ?_
    match read answer with
    | .error failure => exact plain
    | .ok none => exact plain
    | .ok (some found) => exact kept
  exact first.bind later

/-- From the saved skin on. -/
theorem goes_applySkin (profile : MinecraftProfile) (skin : SavedSkinSnapshot)
    (unsent : ¬attempt.sent) (unwritten : ¬attempt.written) :
    Goes (applySkin pending capture token profile skin) attempt := by
  unfold applySkin
  split
  · exact ended_plain (by decide) rfl
  split
  · exact ended_plain (by decide) rfl
  refine goes_requireSome (.readPng _) id rfl unsent fun png middle kept => ?_
  have unsent := mt kept.sent.mp unsent
  have unwritten := mt kept.written.mp unwritten
  refine (keeping_preserve capture profile unsent unwritten).bind fun _ last kept => ?_
  have unsent := mt kept.sent.mp unsent
  have unwritten := mt kept.written.mp unwritten
  refine (keeping_checkCapture capture fun sent => absurd sent unsent).bind fun _ before kept => ?_
  have unsent := mt kept.sent.mp unsent
  have unwritten := mt kept.written.mp unwritten
  show Safe _ _ _ _ ((ask (.beginEffectWithSkin pending) >>= _) >>= _) _
  rw [safe_bind, safe_ask_bind]
  rintro answer after ⟨standing, _, answered, rfl⟩
  rcases answered with ⟨error, rfl⟩ | rfl | ⟨rfl, _⟩ | ⟨rfl, gone⟩
  · exact ⟨fun sent => absurd sent unsent, ended_plain nofun rfl⟩
  · exact ⟨fun sent => absurd sent unsent, ended_plain (by decide) rfl⟩
  · exact ⟨fun _ => trivial,
      goes_applyEffect pending capture token profile.id skin png trivial unwritten⟩
  · exact ⟨fun sent => absurd sent unsent, fun _ => gone, fun wrote => absurd wrote unwritten⟩

/-- An attempt that has neither sent nor written anything goes as it should. -/
theorem goes_apply (unsent : ¬attempt.sent) (unwritten : ¬attempt.written) :
    Goes (apply pending) attempt := by
  have quietly {before : Attempt} (kept : Kept attempt before) : before.sent → before.begun :=
    fun sent => absurd (kept.sent.mp sent) unsent
  have early {before : Attempt} (kept : Kept attempt before) {error : ProfileMediaError}
      (uncancelled : error ≠ .cancelled) : ended (.error error) before :=
    ended_unwritten uncancelled (mt kept.written.mp unwritten)
  unfold apply
  refine (keeping_require (.captureAccount _) id rfl (quietly (.refl _)) fun failure _ kept =>
    early kept (accountError_ne_cancelled failure)).bind fun capture _ kept => ?_
  split
  · exact early kept (by decide)
  refine (keeping_require (.credentials capture) id rfl (quietly kept) fun failure _ later =>
    early (kept.trans later) (authError_ne_cancelled failure)).bind fun credentials _ later => ?_
  have kept := kept.trans later
  refine safe_quiet rfl (quietly kept) fun answer _ after answers _ _ later => ?_
  have kept := kept.trans later
  cases answer with
  | error error => exact early kept (readFailure_ne_cancelled (answers error rfl))
  | ok profile =>
    have unsent := mt kept.sent.mp unsent
    have unwritten := mt kept.written.mp unwritten
    refine goes_requireSome (.skin _) id rfl unsent fun skin _ kept => ?_
    exact goes_applySkin pending capture _ profile skin (mt kept.sent.mp unsent)
      (mt kept.written.mp unwritten)

end Attempt

end Axial.Skins
