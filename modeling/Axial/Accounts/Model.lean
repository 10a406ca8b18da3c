/-
This file embeds the accounts of the launcher as they are recorded: identities, records,
snapshots of all of them with the selection, and captures of one account. Whatever the
records take from other packages (identifiers, digests, addresses, time stamps and their
JSON) is given as a parameter.
-/

import Axial.Minecraft.LoaderIdentity

namespace Axial.Accounts

open Axial.Minecraft (trim)

/-! ### What other packages provide -/

/-- `uuid::Uuid` -/
abbrev Uuid := BitVec 128

namespace Uuid

/-- `Uuid::from_bytes` -/
def ofBytes (bytes : List UInt8) : Uuid :=
  bytes.foldl (fun id byte => id <<< 8 ||| byte.toBitVec.setWidth 128) 0

end Uuid

structure MinecraftSkin where
  id : String
  state : String
  url : String
  variant : String
  deriving DecidableEq

structure MinecraftCape where
  id : String
  state : String
  url : String
  deriving DecidableEq

structure MinecraftProfile where
  id : String
  name : String
  skins : List MinecraftSkin
  capes : List MinecraftCape
  deriving DecidableEq

structure AccountId where
  text : String
  deriving DecidableEq

inductive AccountKind where
  | offline
  | microsoft
  deriving DecidableEq

inductive LaunchAuthMode where
  | offline
  | online
  deriving DecidableEq

def AccountKind.launchMode : AccountKind → LaunchAuthMode
  | .offline => .offline
  | .microsoft => .online

structure AccountRecord where
  accountId : AccountId
  kind : AccountKind
  displayName : String
  loginId : Option String
  minecraftProfileId : Option String
  offlineUuid : Option String
  minecraftProfile : Option MinecraftProfile
  ownsMinecraftJava : Bool
  accountRevision : Nat
  profileRevision : Nat
  /-- Zero for offline identities. -/
  credentialRevision : Nat
  createdRevision : Nat
  createdAt : String
  updatedAt : String
  deriving DecidableEq

/-- `url::Url` -/
structure Url where
  scheme : String
  host : Option String
  port : Option Nat
  username : String
  password : Option String
  query : Option String
  fragment : Option String
  path : String

structure Packages where
  /-- `Uuid::parse_str` -/
  parseUuid : String → Option Uuid
  hyphenated : Uuid → String
  simple : Uuid → String
  /-- `md5::compute` -/
  md5 : ByteArray → List.Vector UInt8 16
  parseUrl : String → Option Url
  /-- `DateTime::parse_from_rfc3339(value).is_ok()` -/
  readsTime : String → Bool
  /-- `serde_json::to_vec` of a profile -/
  profileJson : MinecraftProfile → Option ByteArray
  /-- `serde_json::to_string` of a record -/
  recordJson : AccountRecord → Option String
  /-- `serde_json::from_str` of a record, which leaves the ownership to be filled in -/
  parseRecord : String → Option AccountRecord

/-! ### Identities -/

inductive AccountError where
  | invalidInput (message : String)
  | notFound
  | noSelection
  | staleCapture
  | alreadyExists
  | notOffline
  | notMicrosoft
  | invalidStoredData
  | storage
  deriving DecidableEq

variable (packages : Packages)

def AccountId.parse (value : String) : Except AccountError AccountId :=
  match value.toList.dropPrefix? "offline-".toList with
  | some uuid =>
    if uuid.length = 32 ∧ uuid.all fun letter => letter.isDigit || ('a' ≤ letter ∧ letter ≤ 'f') then
      .ok ⟨value⟩
    else .error (.invalidInput "Account identity is invalid.")
  | none =>
    match packages.parseUuid value with
    | some uuid => .ok ⟨packages.hyphenated uuid⟩
    | none => .error (.invalidInput "Account identity is invalid.")

def validateUsername (raw : String) : Except AccountError String :=
  let value := trim raw
  if value = "" then .error (.invalidInput "Enter a name.")
  else if value.utf8ByteSize < 3 then .error (.invalidInput "At least 3 characters.")
  else if 16 < value.utf8ByteSize then .error (.invalidInput "At most 16 characters.")
  else if !value.toList.all fun letter => letter.isAlphanum || letter == '_' then
    .error (.invalidInput "Letters, numbers, and underscores only.")
  else .ok value

/-- The name UUID of a digest: version 3, and the variant bits. -/
def nameUuid (digest : List.Vector UInt8 16) : Uuid :=
  let versioned := digest.set 6 ((digest.get 6 &&& 0x0f) ||| 0x30)
  Uuid.ofBytes (versioned.set 8 ((versioned.get 8 &&& 0x3f) ||| 0x80)).toList

def offlineUuid (username : String) : String :=
  packages.simple (nameUuid (packages.md5 ("OfflinePlayer:" ++ username).toUTF8))

/-- The identity of the offline account with a name. -/
def offlineId (username : String) : Except AccountError AccountId :=
  AccountId.parse packages ("offline-" ++ offlineUuid packages username)

def microsoftAccountId (profileId : String) : Except AccountError String :=
  match packages.parseUuid profileId with
  | some uuid => .ok (packages.hyphenated uuid)
  | none => .error (.invalidInput "Minecraft profile identity is invalid.")

/-! ### Snapshots and captures -/

structure AccountSnapshot where
  revision : Nat
  /-- Revision of the entire account selection snapshot, including removals. -/
  selectionRevision : Nat
  activeAccountId : Option AccountId
  launchAuthMode : LaunchAuthMode
  accounts : List AccountRecord
  deriving DecidableEq

def AccountSnapshot.find (snapshot : AccountSnapshot) (id : AccountId) : Option AccountRecord :=
  snapshot.accounts.find? fun account => account.accountId = id

def AccountSnapshot.activeAccount (snapshot : AccountSnapshot) : Option AccountRecord :=
  snapshot.activeAccountId.bind snapshot.find

structure AccountPreconditions where
  expectedSelectionRevision : Option Nat
  expectedAccountRevision : Option Nat
  deriving DecidableEq

/-- `AccountPreconditions::default` -/
def AccountPreconditions.none : AccountPreconditions := ⟨.none, .none⟩

structure MicrosoftIdentity where
  loginId : String
  profileId : String
  displayName : String
  credentialRevision : Nat
  profile : MinecraftProfile
  ownsMinecraftJava : Bool
  deriving DecidableEq

structure CapturedAccount where
  record : AccountRecord
  selectionRevision : Nat
  selectedAccountId : Option AccountId
  mode : LaunchAuthMode
  deriving DecidableEq

namespace CapturedAccount

/-- `CapturedAccount::new` -/
def new (snapshot : AccountSnapshot) (accountId : String) :
    Except AccountError CapturedAccount := do
  let id ← AccountId.parse packages accountId
  match snapshot.find id with
  | none => .error .notFound
  | some record =>
    return ⟨record, snapshot.selectionRevision, snapshot.activeAccountId, snapshot.launchAuthMode⟩

variable (capture : CapturedAccount) (snapshot : AccountSnapshot)

def validate : Except AccountError Unit :=
  if capture.selectionRevision ≠ snapshot.selectionRevision ∨
      capture.selectedAccountId ≠ snapshot.activeAccountId ∨
      capture.mode ≠ snapshot.launchAuthMode ∨ capture.record ∉ snapshot.accounts then
    .error .staleCapture
  else .ok ()

def validateAccount : Except AccountError Unit :=
  if capture.record ∈ snapshot.accounts then .ok () else .error .staleCapture

end CapturedAccount

end Axial.Accounts
