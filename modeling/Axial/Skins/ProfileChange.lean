/-
This file embeds the application of one skin change and the reset of a profile. Both are
programs that ask the account service, the provider, the skin library and the queue; they
hold no lock across a question, so that between any two of them the queue may change.
A write to the provider is two calls, the request that goes out and the answer that comes
back, since the queue may also change while the request is under way.
-/

import Axial.Accounts.CredentialSafety
import Axial.Accounts.Snapshots
import Axial.Skins.Pending

namespace Axial.Skins

open Accounts Program
open Axial.Minecraft (trim)

/-! ### The profile -/

/-- `CapturedAccount::minecraft_uuid`; a stored account has the identity of its kind. -/
def minecraftUuid (capture : CapturedAccount) : String :=
  match capture.record.kind with
  | .offline => capture.record.offlineUuid.getD ""
  | .microsoft => capture.record.minecraftProfileId.getD ""

def texturePrefix : String := "https://textures.minecraft.net/texture/"

/-- `TextureUrl::parse(value).is_ok()` -/
def parsesTexture (value : String) : Bool :=
  let canonical := match value.toList.dropPrefix? "http://".toList with
    | some rest => "https://".toList ++ rest
    | none => value.toList
  match canonical.dropPrefix? texturePrefix.toList with
  | none => false
  | some id =>
    !id.isEmpty && id.length ≤ 128 &&
      id.all fun letter => letter.isAlphanum || letter = '_' || letter = '-'

def isActive (state : String) : Bool := Fs.eqIgnoreAsciiCase state.toList "ACTIVE".toList

def profileTexture (profile : MinecraftProfile) : Except ProfileMediaError String :=
  let usable := profile.skins.filter fun skin => parsesTexture skin.url
  match (usable.find? fun skin => isActive skin.state).or usable.head? with
  | some skin => .ok skin.url
  | none => .error .missingSkin

def activeCape (profile : MinecraftProfile) : Option String :=
  (profile.capes.find? fun cape => isActive cape.state).map (·.id)

inductive SkinVariant where
  | classic
  | slim
  deriving DecidableEq

def profileVariant (profile : MinecraftProfile) : SkinVariant :=
  let selected := match profileTexture profile with
    | .ok url => profile.skins.find? fun (skin : MinecraftSkin) => skin.url = url
    | .error _ => none
  if selected.any fun (skin : MinecraftSkin) => Fs.eqIgnoreAsciiCase skin.variant.toList "slim".toList then .slim
  else .classic

def defaultProfileSkinName (profileName : String) : String :=
  String.ofList ((trim profileName ++ " profile skin").toList.take 64)

structure SaveSkinOptions where
  name : String
  variant : Option SkinVariant
  capeId : Option String

/-- What the application reads of a saved skin. -/
structure SavedSkinSnapshot where
  textureKey : String
  variant : SkinVariant
  capeId : Option String
  revision : Nat

inductive SkinLibraryError where
  | invalidName
  | invalidVariant
  | invalidSource
  | invalidCape
  | invalidTextureKey
  | invalidAccount
  | invalidData
  | capacity
  | conflict
  | storageFull
  | permissionDenied
  | storage
  | image

/-! ### Errors of the account service -/

def accountError : AccountError → ProfileMediaError
  | .staleCapture | .notFound => .staleIdentity
  | .noSelection | .notMicrosoft => .accountRequired
  | _ => .unavailable

def authError : AuthError → ProfileMediaError
  | .account error => accountError error
  | .signInRequired | .loginExpired => .accountRequired
  | .ownershipMissing => .ownershipMissing
  | .credentials .stale => .staleIdentity
  | .credentials .unresolved => .accountRequired
  | _ => .unavailable

/-! ### Calls -/

inductive SkinCall where
  /-- `AccountDirectory::capture_account` -/
  | captureAccount (accountId : String)
  | credentials (capture : CapturedAccount)
  /-- The check of `with_account_capture`, which precedes its callback. -/
  | checkCapture (capture : CapturedAccount)
  | commitProfile (before : CapturedAccount) (profile : MinecraftProfile)
  | sync (token expectedId : String)
  /-- `TextureDelivery::skin` -/
  | texture (url : String)
  /-- `normalize_skin_png` and the form of the upload. -/
  | normalize (png : ByteArray)
  | sendUpload (token : String) (variant : SkinVariant) (png : ByteArray) (profileId : String)
  | sendCape (token : String) (profile : MinecraftProfile) (target : Option String)
  | sendReset (token profileId : String)
  /-- What becomes of the last request that was sent. -/
  | written
  | skin (textureKey : String)
  | readPng (textureKey : String)
  /-- Saves a copy of a texture that the library does not hold. -/
  | keep (png : ByteArray) (options : SaveSkinOptions)
  | clearApplied (accountId : String)
  | markAppliedIfCurrent (accountId textureKey : String) (revision : Nat)
  /-- `begin_effect` inside of `with_skin`, which holds the revision of the saved skin. -/
  | beginEffectWithSkin (pending : PendingSkin)
  | beginEffect (pending : PendingSkin)
  | isCurrent (pending : PendingSkin)
  | rebaseAccount (before after : CapturedAccount)
  /-- Notes that the account may have changed remotely. -/
  | unsettle (accountId : String)
  | settle (accountId : String)

namespace SkinCall

abbrev Answer : SkinCall → Type
  | .captureAccount _ => Except AccountError CapturedAccount
  | .credentials _ => Except AuthError Credentials
  | .checkCapture _ => Except AuthError Unit
  | .commitProfile _ _ => Except AuthError CapturedAccount
  | .sync _ _ => Except ProfileMediaError MinecraftProfile
  | .texture _ => Except ProfileMediaError ByteArray
  | .normalize _ => Except ProfileMediaError ByteArray
  | .sendUpload _ _ _ _ => Unit
  | .sendCape _ _ _ => Unit
  | .sendReset _ _ => Unit
  | .written => Except ProfileMediaError (Option MinecraftProfile)
  | .skin _ => Except SkinLibraryError (Option SavedSkinSnapshot)
  | .readPng _ => Except SkinLibraryError (Option ByteArray)
  | .keep _ _ => Except SkinLibraryError Unit
  | .clearApplied _ => Except SkinLibraryError Unit
  | .markAppliedIfCurrent _ _ _ => Except SkinLibraryError Bool
  | .beginEffectWithSkin _ => Except SkinLibraryError Outcome
  | .beginEffect _ => Outcome
  | .isCurrent _ => Bool
  | .rebaseAccount _ _ => Unit
  | .unsettle _ => Unit
  | .settle _ => Unit

end SkinCall

abbrev SkinProgram := Program SkinCall SkinCall.Answer ProfileMediaError

def ask (call : SkinCall) : SkinProgram call.Answer := Program.perform call

/-- `result.map_err(convert)?` -/
def require {Failure Value : Type} (convert : Failure → ProfileMediaError) :
    Except Failure Value → SkinProgram Value
  | .ok value => .finish value
  | .error failure => .fail (convert failure)

/-- `result.map_err(convert)?.ok_or(absent)?` -/
def requireSome {Failure Value : Type} (convert : Failure → ProfileMediaError)
    (absent : ProfileMediaError) : Except Failure (Option Value) → SkinProgram Value
  | .ok (some value) => .finish value
  | .ok none => .fail absent
  | .error failure => .fail (convert failure)

/-! ### Applying a change -/

def preserve (capture : CapturedAccount) (profile : MinecraftProfile) : SkinProgram Unit :=
  match profileTexture profile with
  | .error .missingSkin => .finish ()
  | .error error => .fail error
  | .ok url => do
    let png ← ask (.texture url) >>= require fun _ => .preservationFailed
    ask (.checkCapture capture) >>= require authError
    ask (.keep png ⟨defaultProfileSkinName profile.name, some (profileVariant profile),
      activeCape profile⟩) >>= require fun _ => .preservationFailed

/-- Marks the saved skin as the applied one, where the choice still stands. -/
def markApplied (current : CapturedAccount) : Option PendingSkin → SkinProgram Unit
  | none => .finish ()
  | some pending => do
    if ← ask (.isCurrent pending) then
      let marked ← ask (.markAppliedIfCurrent current.record.accountId.text pending.textureKey
        pending.skinRevision) >>= require fun _ => .settlementFailed
      if marked then .finish () else .fail .settlementFailed
    else .finish ()

/-- The last question of a commit, after which a superseded choice counts as cancelled. -/
def confirm : Option PendingSkin → SkinProgram Unit
  | none => .finish ()
  | some pending => do
    if ← ask (.isCurrent pending) then .finish () else .fail .cancelled

def commit (before : CapturedAccount) (profile : MinecraftProfile)
    (pending : Option PendingSkin) : SkinProgram Unit := do
  let current ← ask (.commitProfile before profile) >>= require authError
  ask (.rebaseAccount before current)
  ask (.checkCapture current) >>= require authError
  ask (.clearApplied current.record.accountId.text) >>= require fun _ => .settlementFailed
  markApplied current pending
  ask (.settle current.record.accountId.text)
  confirm pending

/-- The failures after which the provider may have changed the profile. -/
def mayHaveChanged : ProfileMediaError → Bool
  | .uncertainChange | .partialChange | .settlementFailed => true
  | _ => false

def failedEffect {Value : Type} (capture : CapturedAccount) (token : String)
    (error : ProfileMediaError) : SkinProgram Value := do
  if mayHaveChanged error then
    match ← ask (.sync token (minecraftUuid capture)) with
    | .ok profile => do
      commit capture profile none
      .fail error
    | .error _ => do
      ask (.checkCapture capture) >>= require authError
      ask (.clearApplied capture.record.accountId.text) >>= require fun _ => .settlementFailed
      .fail error
  else do
    ask (.settle capture.record.accountId.text)
    .fail error

/-- What the provider says of a write, or is asked about afterwards. -/
def settledProfile (capture : CapturedAccount) (token profileId : String) :
    Option MinecraftProfile → SkinProgram MinecraftProfile
  | some profile => .finish profile
  | none => do
    match ← ask (.sync token profileId) with
    | .ok profile => .finish profile
    | .error _ => failedEffect capture token .settlementFailed

def upload (token : String) (variant : SkinVariant) (png : ByteArray) (profileId : String) :
    SkinProgram (Except ProfileMediaError (Option MinecraftProfile)) := do
  match ← ask (.normalize png) with
  | .error error => .finish (.error error)
  | .ok png => do
    ask (.sendUpload token variant png profileId)
    ask .written

/-- The cape write, with the answer of the provider. `none` is a write that was not needed. -/
def changeCape (token : String) (profile : MinecraftProfile) (target : Option String) :
    SkinProgram (Except ProfileMediaError (Option MinecraftProfile)) :=
  if target.any fun id => !profile.capes.any fun cape => cape.id = id then
    .finish (.error .missingCape)
  else if activeCape profile = target then .finish (.ok none)
  else do
    ask (.sendCape token profile target)
    ask .written

/-- From the admitted cape write to the end. -/
def applyCape (pending : PendingSkin) (capture : CapturedAccount) (token profileId : String)
    (capeId : Option String) (uploaded : MinecraftProfile) : SkinProgram Unit := do
  match ← changeCape token uploaded capeId with
  | .ok changed => do
    let final ← settledProfile capture token profileId changed
    commit capture final (some pending)
  | .error _ => failedEffect capture token .partialChange

/-- From the profile that the upload left on. -/
def applyUploaded (pending : PendingSkin) (capture : CapturedAccount) (token profileId : String)
    (capeId : Option String) (uploaded : MinecraftProfile) : SkinProgram Unit := do
  if ← ask (.isCurrent pending) then
    ask (.checkCapture capture) >>= require authError
    match ← ask (.beginEffect pending) with
    | .ok () => applyCape pending capture token profileId capeId uploaded
    | .error error => do
      commit capture uploaded none
      .fail error
  else do
    commit capture uploaded none
    .fail .cancelled

/-- From the linearization point on. -/
def applyEffect (pending : PendingSkin) (capture : CapturedAccount) (token profileId : String)
    (skin : SavedSkinSnapshot) (png : ByteArray) : SkinProgram Unit := do
  ask (.unsettle capture.record.accountId.text)
  match ← upload token skin.variant png profileId with
  | .ok changed => do
    let uploaded ← settledProfile capture token profileId changed
    applyUploaded pending capture token profileId skin.capeId uploaded
  | .error error => failedEffect capture token error

/-- From the saved skin up to the linearization point, and on. -/
def applySkin (pending : PendingSkin) (capture : CapturedAccount) (token : String)
    (profile : MinecraftProfile) (skin : SavedSkinSnapshot) : SkinProgram Unit := do
  if skin.revision ≠ pending.skinRevision then .fail .savedSkinMissing
  else if skin.capeId.any fun id => !profile.capes.any fun cape => cape.id = id then
    .fail .missingCape
  else do
    let png ← ask (.readPng pending.textureKey) >>=
      requireSome (fun _ => .savedSkinMissing) .savedSkinMissing
    preserve capture profile
    ask (.checkCapture capture) >>= require authError
    let begun ← ask (.beginEffectWithSkin pending) >>= require fun _ => .savedSkinMissing
    require id begun
    applyEffect pending capture token profile.id skin png

def apply (pending : PendingSkin) : SkinProgram Unit := do
  let capture ← ask (.captureAccount pending.accountId) >>= require accountError
  if !pending.matchesAccount capture then .fail .staleIdentity
  else do
    let credentials ← ask (.credentials capture) >>= require authError
    let token := credentials.minecraftAccessToken
    let profile ← ask (.sync token (minecraftUuid capture)) >>= require id
    let skin ← ask (.skin pending.textureKey) >>=
      requireSome (fun _ => .savedSkinMissing) .savedSkinMissing
    applySkin pending capture token profile skin

/-! ### Resetting a profile -/

/-- The write of a reset: the skin or the cape is taken off. -/
def resetWrite (skin : Bool) (token : String) (profile : MinecraftProfile) :
    SkinProgram (Except ProfileMediaError (Option MinecraftProfile)) :=
  if skin then do
    ask (.sendReset token profile.id)
    ask .written
  else changeCape token profile none

def resetAccount (capture : CapturedAccount) (skin : Bool) : SkinProgram Unit := do
  let credentials ← ask (.credentials capture) >>= require authError
  let token := credentials.minecraftAccessToken
  let profile ← ask (.sync token (minecraftUuid capture)) >>= require id
  preserve capture profile
  ask (.checkCapture capture) >>= require authError
  ask (.unsettle capture.record.accountId.text)
  match ← resetWrite skin token profile with
  | .ok changed => do
    let final ← settledProfile capture token profile.id changed
    commit capture final none
  | .error error => failedEffect capture token error

end Axial.Skins
