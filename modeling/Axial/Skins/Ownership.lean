/-
This file says which choices the programs of the service ask the queue about: an
application asks about the choice that it was started for, a reset about none.
-/

import Axial.Skins.ProfileChange

namespace Axial.Skins

open Accounts Program

/-- The call asks the queue about no choice but these. -/
def AsksAbout (owned : PendingSkin → Prop) : SkinCall → Prop
  | .beginEffectWithSkin pending | .beginEffect pending | .isCurrent pending => owned pending
  | _ => True

variable {owned : PendingSkin → Prop} {Value : Type}

/-- The program asks the queue about no choice but these. -/
def Owns (owned : PendingSkin → Prop) (program : SkinProgram Value) : Prop :=
  program.Only (AsksAbout owned)

variable {question : SkinCall}

theorem owns_ask (about : AsksAbout owned question) :
    Owns owned (ask question) := ⟨about, fun _ => trivial⟩

variable {Failure : Type}

theorem owns_require (convert : Failure → ProfileMediaError) (result : Except Failure Value) :
    Owns owned (require convert result) := by
  cases result <;> trivial

theorem owns_requireSome (convert : Failure → ProfileMediaError) (absent : ProfileMediaError)
    (result : Except Failure (Option Value)) : Owns owned (requireSome convert absent result) := by
  match result with
  | .ok (some _) => trivial
  | .ok none => trivial
  | .error _ => trivial

variable {Result : Type}

variable {rest : Value → SkinProgram Result}

theorem owns_bind {program : SkinProgram Value} (first : Owns owned program)
    (later : ∀ value, Owns owned (rest value)) :
    Owns owned (program >>= rest) := Only.bind first later

theorem owns_ask_bind {rest : question.Answer → SkinProgram Result}
    (about : AsksAbout owned question) (later : ∀ answer, Owns owned (rest answer)) :
    Owns owned (ask question >>= rest) := owns_bind (owns_ask about) later

theorem owns_required {demand : question.Answer → SkinProgram Value}
    (about : AsksAbout owned question) (demands : ∀ answer, Owns owned (demand answer))
    (later : ∀ value, Owns owned (rest value)) : Owns owned ((ask question >>= demand) >>= rest) :=
  owns_bind (owns_ask_bind about demands) later

theorem owns_preserve (capture : CapturedAccount) (profile : MinecraftProfile) :
    Owns owned (preserve capture profile) := by
  unfold preserve
  split
  · trivial
  · trivial
  · refine owns_required trivial (owns_require _) fun png => ?_
    refine owns_required trivial (owns_require _) fun _ => ?_
    exact owns_ask_bind trivial (owns_require _)

variable {pending : Option PendingSkin}

theorem owns_markApplied (current : CapturedAccount) (own : ∀ choice ∈ pending, owned choice) :
    Owns owned (markApplied current pending) := by
  cases pending with
  | none => trivial
  | some pending =>
    refine owns_ask_bind (own pending rfl) fun still => ?_
    split
    · refine owns_required trivial (owns_require _) fun marked => ?_
      split <;> trivial
    · trivial

theorem owns_confirm (own : ∀ choice ∈ pending, owned choice) : Owns owned (confirm pending) := by
  cases pending with
  | none => trivial
  | some pending =>
    refine owns_ask_bind (own pending rfl) fun still => ?_
    split <;> trivial

theorem owns_commit (before : CapturedAccount) (profile : MinecraftProfile)
    (own : ∀ choice ∈ pending, owned choice) : Owns owned (commit before profile pending) := by
  refine owns_required trivial (owns_require _) fun current => ?_
  refine owns_ask_bind trivial fun _ => ?_
  refine owns_required trivial (owns_require _) fun _ => ?_
  refine owns_required trivial (owns_require _) fun _ => ?_
  refine owns_bind (owns_markApplied current own) fun _ => ?_
  exact owns_ask_bind trivial fun _ => owns_confirm own

theorem owns_failedEffect (capture : CapturedAccount) (token : String) (error : ProfileMediaError) :
    Owns owned (failedEffect capture token error : SkinProgram Value) := by
  unfold failedEffect
  split
  · refine owns_ask_bind trivial fun answer => ?_
    cases answer with
    | ok profile => exact owns_bind (owns_commit capture profile nofun) fun _ => trivial
    | error failure =>
      refine owns_required trivial (owns_require _) fun _ => ?_
      exact owns_required trivial (owns_require _) fun _ => trivial
  · exact owns_ask_bind trivial fun _ => trivial

theorem owns_settledProfile (capture : CapturedAccount) (token profileId : String)
    (changed : Option MinecraftProfile) :
    Owns owned (settledProfile capture token profileId changed) := by
  cases changed with
  | some profile => trivial
  | none =>
    refine owns_ask_bind trivial fun answer => ?_
    cases answer with
    | ok profile => trivial
    | error failure => exact owns_failedEffect capture token _

theorem owns_upload (token : String) (variant : SkinVariant) (png : ByteArray)
    (profileId : String) : Owns owned (upload token variant png profileId) := by
  refine owns_ask_bind trivial fun answer => ?_
  cases answer with
  | ok png => exact owns_ask_bind trivial fun _ => owns_ask trivial
  | error failure => trivial

theorem owns_changeCape (token : String) (profile : MinecraftProfile) (target : Option String) :
    Owns owned (changeCape token profile target) := by
  unfold changeCape
  split
  · trivial
  · split
    · trivial
    · exact owns_ask_bind trivial fun _ => owns_ask trivial

theorem owns_resetWrite (skin : Bool) (token : String) (profile : MinecraftProfile) :
    Owns owned (resetWrite skin token profile) := by
  unfold resetWrite
  split
  · exact owns_ask_bind trivial fun _ => owns_ask trivial
  · exact owns_changeCape token profile none

theorem owns_applyCape (pending : PendingSkin) (capture : CapturedAccount)
    (token profileId : String) (capeId : Option String) (uploaded : MinecraftProfile) :
    Owns (· = pending) (applyCape pending capture token profileId capeId uploaded) := by
  refine owns_bind (owns_changeCape token uploaded capeId) fun changed => ?_
  cases changed with
  | ok changed =>
    refine owns_bind (owns_settledProfile capture token profileId changed) fun final => ?_
    refine owns_commit capture final fun choice same => ?_
    cases same
    rfl
  | error error => exact owns_failedEffect capture token _

theorem owns_applyUploaded (pending : PendingSkin) (capture : CapturedAccount)
    (token profileId : String) (capeId : Option String) (uploaded : MinecraftProfile) :
    Owns (· = pending) (applyUploaded pending capture token profileId capeId uploaded) := by
  refine owns_ask_bind rfl fun still => ?_
  split
  · refine owns_required trivial (owns_require _) fun _ => ?_
    refine owns_ask_bind rfl fun answer => ?_
    cases answer with
    | ok => exact owns_applyCape pending capture token profileId capeId uploaded
    | error error => exact owns_bind (owns_commit capture uploaded nofun) fun _ => trivial
  · exact owns_bind (owns_commit capture uploaded nofun) fun _ => trivial

theorem owns_applyEffect (pending : PendingSkin) (capture : CapturedAccount)
    (token profileId : String) (skin : SavedSkinSnapshot) (png : ByteArray) :
    Owns (· = pending) (applyEffect pending capture token profileId skin png) := by
  refine owns_ask_bind trivial fun _ => owns_bind (owns_upload _ _ _ _) fun changed => ?_
  cases changed with
  | ok changed =>
    exact owns_bind (owns_settledProfile capture token profileId changed)
      fun uploaded => owns_applyUploaded pending capture token profileId skin.capeId uploaded
  | error error => exact owns_failedEffect capture token _

theorem owns_applySkin (pending : PendingSkin) (capture : CapturedAccount) (token : String)
    (profile : MinecraftProfile) (skin : SavedSkinSnapshot) :
    Owns (· = pending) (applySkin pending capture token profile skin) := by
  unfold applySkin
  split
  · trivial
  split
  · trivial
  refine owns_required trivial (owns_requireSome _ _) fun png => ?_
  refine owns_bind (owns_preserve capture profile) fun _ => ?_
  refine owns_required trivial (owns_require _) fun _ => ?_
  refine owns_required rfl (owns_require _) fun begun => ?_
  exact owns_bind (owns_require _ begun) fun _ =>
    owns_applyEffect pending capture token profile.id skin png

/-- An application asks about its own choice. -/
theorem owns_apply (pending : PendingSkin) : Owns (· = pending) (apply pending) := by
  refine owns_required trivial (owns_require _) fun capture => ?_
  split
  · trivial
  refine owns_required trivial (owns_require _) fun credentials => ?_
  refine owns_required trivial (owns_require _) fun profile => ?_
  refine owns_required trivial (owns_requireSome _ _) fun skin => ?_
  exact owns_applySkin pending capture _ profile skin

/-- A reset asks about no choice. -/
theorem owns_resetAccount (capture : CapturedAccount) (skin : Bool) :
    Owns (fun _ => False) (resetAccount capture skin) := by
  refine owns_required trivial (owns_require _) fun credentials => ?_
  refine owns_required trivial (owns_require _) fun profile => ?_
  refine owns_bind (owns_preserve capture profile) fun _ => ?_
  refine owns_required trivial (owns_require _) fun _ => ?_
  refine owns_ask_bind trivial fun _ => ?_
  refine owns_bind (owns_resetWrite _ _ _) fun changed => ?_
  cases changed with
  | ok changed =>
    exact owns_bind (owns_settledProfile capture _ _ changed)
      fun final => owns_commit capture final nofun
  | error error => exact owns_failedEffect capture _ _

end Axial.Skins
