/-
This file embeds the directory of accounts: the tables that hold it, how a snapshot is read
from them, checked and written back, and every command that changes one. All commands edit
a copy of the snapshot and rely on one validator; the transaction that they run in is given
up as a whole if any part of it is refused.
-/

import Axial.Accounts.Model

namespace Axial.Accounts

def maxAccounts : Nat := 256
def maxSafeRevision : Nat := 9007199254740991

/-! ### Validation -/

variable (packages : Packages)

/-- Whether an address is one of a texture. -/
def validTexture (raw : String) : Bool :=
  match packages.parseUrl raw with
  | none => false
  | some url =>
    (url.scheme = "https" || url.scheme = "http") &&
    url.host = some "textures.minecraft.net" && url.port.isNone && url.username = "" &&
    url.password.isNone && url.query.isNone && url.fragment.isNone &&
    match url.path.toList.dropPrefix? "/texture/".toList with
    | none => false
    | some hash => hash ≠ [] && hash.length ≤ 128 && hash.all fun letter =>
        letter.isDigit || ('a' ≤ letter && letter ≤ 'f') || ('A' ≤ letter && letter ≤ 'F')

/-- Whether a text is a UUID other than nil. -/
def namesUuid (value : String) : Bool :=
  match packages.parseUuid value with
  | none => false
  | some id => id ≠ 0

/-- `microsoft::validate_profile` -/
def validateProfile (profile : MinecraftProfile) : Bool :=
  namesUuid packages profile.id && profile.name ≠ "" && profile.name.utf8ByteSize ≤ 16 &&
  (profile.name.toList.all fun letter => letter.isAlphanum || letter == '_') &&
  profile.skins.length ≤ 128 && profile.capes.length ≤ 128 &&
  (profile.skins.map (·.url) ++ profile.capes.map (·.url)).all (validTexture packages)

def validateMicrosoft (identity : MicrosoftIdentity) : Except AccountError AccountId := do
  let id ← AccountId.parse packages (← microsoftAccountId packages identity.profileId)
  if !namesUuid packages identity.loginId || !validateProfile packages identity.profile ||
      identity.profile.name ≠ identity.displayName then
    .error (.invalidInput "Microsoft account identity is invalid.")
  else do
    let profileAccount ← microsoftAccountId packages identity.profile.id
    if profileAccount ≠ id.text || identity.credentialRevision = 0 ||
        maxSafeRevision < identity.credentialRevision then
      .error (.invalidInput "Microsoft account identity is invalid.")
    else
      match packages.profileJson identity.profile with
      | none => .error .invalidStoredData
      | some json =>
        if 131072 < json.size then .error (.invalidInput "Minecraft profile is too large.")
        else .ok id

def validTimestamp (value : String) : Bool := value.utf8ByteSize ≤ 64 && packages.readsTime value

/-- What a record of an offline account must be. -/
def validOffline (account : AccountRecord) : Bool :=
  validateUsername account.displayName = .ok account.displayName &&
  account.accountId.text = "offline-" ++ offlineUuid packages account.displayName &&
  account.offlineUuid = some (offlineUuid packages account.displayName) &&
  account.loginId.isNone && account.minecraftProfileId.isNone &&
  account.minecraftProfile.isNone && account.credentialRevision = 0 &&
  !account.ownsMinecraftJava

/-- What a record of a Microsoft account must be. -/
def validMicrosoft (account : AccountRecord) : Bool :=
  match account.loginId, account.minecraftProfileId, account.minecraftProfile with
  | some loginId, some profileId, some profile =>
    validateMicrosoft packages ⟨loginId, profileId, account.displayName,
      account.credentialRevision, profile, account.ownsMinecraftJava⟩ = .ok account.accountId &&
    account.offlineUuid.isNone
  | _, _, _ => false

def validAccount (revision : Nat) (account : AccountRecord) : Bool :=
  account.accountRevision ≠ 0 && account.accountRevision ≤ revision &&
  account.profileRevision ≠ 0 && account.profileRevision ≤ account.accountRevision &&
  account.createdRevision ≠ 0 && account.createdRevision ≤ account.accountRevision &&
  validTimestamp packages account.createdAt && validTimestamp packages account.updatedAt &&
  match account.kind with
  | .offline => validOffline packages account
  | .microsoft => validMicrosoft packages account

/-- Whether the selection is of a stored account, with the mode of that account. -/
def validSelection (snapshot : AccountSnapshot) : Bool :=
  match snapshot.activeAccountId, snapshot.activeAccount with
  | some _, none => false
  | _, some account => snapshot.launchAuthMode = account.kind.launchMode
  | none, none => snapshot.launchAuthMode = .offline

def validateSnapshot (snapshot : AccountSnapshot) : Except AccountError Unit :=
  if snapshot.accounts.length ≤ maxAccounts && snapshot.revision ≤ maxSafeRevision &&
      snapshot.selectionRevision = snapshot.revision &&
      snapshot.accounts.all (validAccount packages snapshot.revision) &&
      validSelection snapshot then
    .ok ()
  else .error .invalidStoredData

/-! ### The tables -/

structure StoredAccount where
  recordJson : String
  ownsMinecraftJava : Int

/-- The tables `account_directory`, whose primary key is the account, and `account_selection`,
which has one row. -/
structure Tables where
  accountDirectory : AList fun _ : String => StoredAccount
  revision : Nat
  activeAccountId : Option String
  launchAuthMode : String

/-- What the migration sets up. -/
def Tables.initial : Tables := ⟨∅, 0, none, "offline"⟩

def AccountKind.order : AccountKind → Nat
  | .microsoft => 0
  | .offline => 1

def accountOrder (first second : AccountRecord) : Ordering :=
  (compare first.kind.order second.kind.order)
    |>.then (compare first.createdAt second.createdAt)
    |>.then (compare first.displayName second.displayName)
    |>.then (compare first.accountId.text second.accountId.text)

def sortAccounts (accounts : List AccountRecord) : List AccountRecord :=
  accounts.insertionSort fun first second => (accountOrder first second).isLE

def readAccount (row : Sigma fun _ : String => StoredAccount) :
    Except AccountError AccountRecord :=
  if 262144 < row.2.recordJson.utf8ByteSize then .error .invalidStoredData
  else
    match packages.parseRecord row.2.recordJson, row.2.ownsMinecraftJava with
    | some account, 0 =>
      if account.accountId.text ≠ row.1 then .error .invalidStoredData
      else .ok { account with ownsMinecraftJava := false }
    | some account, 1 =>
      if account.accountId.text ≠ row.1 then .error .invalidStoredData
      else .ok { account with ownsMinecraftJava := true }
    | _, _ => .error .invalidStoredData

def readActive : Option String → Except AccountError (Option AccountId)
  | none => .ok none
  | some value =>
    match AccountId.parse packages value with
    | .ok id => .ok (some id)
    | .error _ => .error .invalidStoredData

def readMode (value : String) : Except AccountError LaunchAuthMode :=
  if value = "offline" then .ok .offline
  else if value = "online" then .ok .online
  else .error .invalidStoredData

def LaunchAuthMode.text : LaunchAuthMode → String
  | .offline => "offline"
  | .online => "online"

/-- The rows come in any order, and no more than 257 of them. -/
def readSnapshot (tables : Tables) : Except AccountError AccountSnapshot := do
  let accounts ← (tables.accountDirectory.entries.take 257).mapM (readAccount packages)
  let activeAccountId ← readActive packages tables.activeAccountId
  let launchAuthMode ← readMode tables.launchAuthMode
  let snapshot : AccountSnapshot :=
    { revision := tables.revision
      selectionRevision := tables.revision
      activeAccountId, launchAuthMode
      accounts := sortAccounts accounts }
  validateSnapshot packages snapshot
  return snapshot

/-- Deletes the rows of the accounts that are gone. -/
def deleteGone (before next : AccountSnapshot) (directory : AList fun _ : String => StoredAccount) :
    AList fun _ : String => StoredAccount :=
  before.accounts.foldl (fun directory account =>
    if next.accounts.any fun other => other.accountId = account.accountId then directory
    else directory.erase account.accountId.text) directory

/-- Inserts or updates the rows of the accounts that are not as they were. The table refuses
records of more than 262144 letters. -/
def storeChanged (before next : AccountSnapshot)
    (directory : AList fun _ : String => StoredAccount) :
    Except AccountError (AList fun _ : String => StoredAccount) :=
  next.accounts.foldlM (fun directory account =>
    if account ∈ before.accounts then .ok directory
    else
      match packages.recordJson account with
      | none => .error .invalidStoredData
      | some json =>
        if 262144 < json.length then .error .storage
        else .ok (directory.insert account.accountId.text
          ⟨json, if account.ownsMinecraftJava then 1 else 0⟩)) directory

def writeSnapshot (tables : Tables) (before next : AccountSnapshot) :
    Except AccountError Tables := do
  let accountDirectory ←
    storeChanged packages before next (deleteGone before next tables.accountDirectory)
  let written : Tables :=
    { accountDirectory
      revision := next.revision
      activeAccountId := next.activeAccountId.map (·.text)
      launchAuthMode := next.launchAuthMode.text }
  if (← readSnapshot packages written) ≠ next then .error .invalidStoredData else .ok written

/-! ### Edits of a snapshot -/

/-- What a command does to its copy of the snapshot, given the revision that it will get. -/
abbrev Mutation := AccountSnapshot → Nat → Except AccountError AccountSnapshot

def position (snapshot : AccountSnapshot) (id : AccountId) : Except AccountError Nat :=
  match snapshot.accounts.findIdx? fun account => account.accountId = id with
  | some index => .ok index
  | none => .error .notFound

def checkPreconditions (snapshot : AccountSnapshot) (id : Option AccountId)
    (expected : AccountPreconditions) : Except AccountError Unit :=
  if expected.expectedSelectionRevision.any fun revision =>
      revision ≠ snapshot.selectionRevision then
    .error .staleCapture
  else
    match expected.expectedAccountRevision, id with
    | none, _ => .ok ()
    | some _, none =>
      .error (.invalidInput "An account identity is required for this precondition.")
    | some revision, some id => do
      if (snapshot.accounts[← position snapshot id]?).all fun account =>
          account.accountRevision ≠ revision then
        .error .staleCapture
      else .ok ()

def checkCapacity (snapshot : AccountSnapshot) : Except AccountError Unit :=
  if maxAccounts ≤ snapshot.accounts.length then
    .error (.invalidInput "Remove an account before adding another.")
  else .ok ()

def selectIdentity (snapshot : AccountSnapshot) (id : Option AccountId) : AccountSnapshot :=
  { snapshot with
    launchAuthMode := ((id.bind snapshot.find).map (·.kind.launchMode)).getD .offline
    activeAccountId := id }

def removeIdentity (snapshot : AccountSnapshot) (index : Nat) : AccountSnapshot :=
  let rest := { snapshot with accounts := snapshot.accounts.eraseIdx index }
  match snapshot.accounts[index]? with
  | none => snapshot
  | some removed =>
    if snapshot.activeAccountId = some removed.accountId then
      selectIdentity rest
        ((rest.accounts.find? fun account => account.kind = .offline).map (·.accountId))
    else rest

def renameOffline (snapshot : AccountSnapshot) (revision : Nat) (id : AccountId) (name now : String) :
    Except AccountError AccountSnapshot := do
  let index ← position snapshot id
  match snapshot.accounts[index]? with
  | none => .error .notFound
  | some account =>
    if account.kind ≠ .offline then .error .notOffline
    else if account.displayName = name then .ok snapshot
    else do
      let nextId ← offlineId packages name
      if snapshot.accounts.any fun account => account.accountId = nextId then
        .error .alreadyExists
      else
        let renamed := { account with
          accountId := nextId
          displayName := name
          offlineUuid := some (offlineUuid packages name)
          accountRevision := revision
          profileRevision := revision
          updatedAt := now }
        let next := { snapshot with accounts := snapshot.accounts.set index renamed }
        .ok (if snapshot.activeAccountId = some id then selectIdentity next (some nextId) else next)

/-- The record of a Microsoft account, that comes after a prior one or is new. -/
def microsoftRecord (revision : Nat) (id : AccountId) (identity : MicrosoftIdentity)
    (profileId : Uuid) (now : String) (prior : Option AccountRecord) : AccountRecord where
  accountId := id
  kind := .microsoft
  displayName := identity.displayName
  loginId := some identity.loginId
  minecraftProfileId := some (packages.simple profileId)
  offlineUuid := none
  minecraftProfile := some identity.profile
  ownsMinecraftJava := identity.ownsMinecraftJava
  accountRevision := revision
  profileRevision :=
    match prior with
    | none => revision
    | some account =>
      if account.minecraftProfile ≠ some identity.profile then revision
      else account.profileRevision
  credentialRevision := identity.credentialRevision
  createdRevision := (prior.map (·.createdRevision)).getD revision
  createdAt := (prior.map (·.createdAt)).getD now
  updatedAt := now

def placeRecord (accounts : List AccountRecord) (existing : Option Nat) (record : AccountRecord) :
    List AccountRecord :=
  match existing with
  | some index => accounts.set index record
  | none => accounts ++ [record]

def upsertMicrosoft (snapshot : AccountSnapshot) (revision : Nat) (id : AccountId)
    (identity : MicrosoftIdentity) (now : String) : Except AccountError AccountSnapshot := do
  let existing := snapshot.accounts.findIdx? fun account => account.accountId = id
  let prior := existing.bind fun index => snapshot.accounts[index]?
  (if existing.isNone then checkCapacity snapshot else .ok ())
  if snapshot.accounts.any fun account =>
      account.accountId ≠ id && account.loginId = some identity.loginId then
    .error .alreadyExists
  else if prior.any fun account => identity.credentialRevision < account.credentialRevision then
    .error .staleCapture
  else
    match packages.parseUuid identity.profileId with
    | none => .error .invalidStoredData
    | some profileId =>
      let record := microsoftRecord packages revision id identity profileId now prior
      .ok { snapshot with accounts := placeRecord snapshot.accounts existing record }

/-! ### Commands -/

/-- The commands, and what settings transactions ask of the directory, with the time that the
clock reads where it is asked. -/
inductive Change where
  | createOffline (username : String) (expected : AccountPreconditions) (now : String)
  | renameOffline (accountId username : String) (expected : AccountPreconditions) (now : String)
  | select (accountId : String) (expected : AccountPreconditions)
  | removeOffline (accountId : String) (expected : AccountPreconditions)
  | commitMicrosoft (expectedSelectionRevision : Nat) (identity : MicrosoftIdentity) (now : String)
  | refreshMicrosoft (capture : CapturedAccount) (identity : MicrosoftIdentity)
      (selectionBound : Bool) (now : String)
  | invalidateMicrosoft (capture : CapturedAccount)
  | removeMicrosoft (capture : CapturedAccount)
  | syncActiveOfflineUsername (username now : String)
  | selectLaunchMode (mode : LaunchAuthMode)

def createOffline (username : String) (expected : AccountPreconditions) (now : String) :
    Except AccountError Mutation := do
  let name ← validateUsername username
  return fun snapshot revision => do
    checkPreconditions snapshot none expected
    let id ← offlineId packages name
    if snapshot.accounts.any fun account => account.accountId = id then
      .ok (selectIdentity snapshot (some id))
    else do
      checkCapacity snapshot
      let record : AccountRecord :=
        { accountId := id
          kind := .offline
          displayName := name
          loginId := none
          minecraftProfileId := none
          offlineUuid := some (offlineUuid packages name)
          minecraftProfile := none
          ownsMinecraftJava := false
          accountRevision := revision
          profileRevision := revision
          credentialRevision := 0
          createdRevision := revision
          createdAt := now
          updatedAt := now }
      .ok (selectIdentity { snapshot with accounts := snapshot.accounts ++ [record] } (some id))

def renameOfflineAccount (accountId username : String) (expected : AccountPreconditions)
    (now : String) : Except AccountError Mutation := do
  let name ← validateUsername username
  let id ← AccountId.parse packages accountId
  return fun snapshot revision => do
    checkPreconditions snapshot (some id) expected
    renameOffline packages snapshot revision id name now

def select (accountId : String) (expected : AccountPreconditions) :
    Except AccountError Mutation := do
  let id ← AccountId.parse packages accountId
  return fun snapshot _ => do
    checkPreconditions snapshot (some id) expected
    let _ ← position snapshot id
    return selectIdentity snapshot (some id)

def removeOffline (accountId : String) (expected : AccountPreconditions) :
    Except AccountError Mutation := do
  let id ← AccountId.parse packages accountId
  return fun snapshot _ => do
    checkPreconditions snapshot (some id) expected
    let index ← position snapshot id
    if (snapshot.accounts[index]?).any fun account => account.kind ≠ .offline then
      .error .notOffline
    else .ok (removeIdentity snapshot index)

def commitMicrosoft (expectedSelectionRevision : Nat) (identity : MicrosoftIdentity)
    (now : String) : Except AccountError Mutation := do
  let id ← validateMicrosoft packages identity
  return fun snapshot revision => do
    checkPreconditions snapshot none ⟨some expectedSelectionRevision, none⟩
    let next ← upsertMicrosoft packages snapshot revision id identity now
    return selectIdentity next (some id)

def validateBound (capture : CapturedAccount) (selectionBound : Bool) (snapshot : AccountSnapshot) :
    Except AccountError Unit :=
  if selectionBound then capture.validate snapshot else capture.validateAccount snapshot

def refreshMicrosoft (capture : CapturedAccount) (identity : MicrosoftIdentity)
    (selectionBound : Bool) (now : String) : Except AccountError Mutation := do
  let id ← validateMicrosoft packages identity
  if capture.record.kind ≠ .microsoft then .error .notMicrosoft
  else if capture.record.accountId ≠ id || capture.record.loginId ≠ some identity.loginId then
    .error .staleCapture
  else
    .ok fun snapshot revision => do
      validateBound capture selectionBound snapshot
      if identity.credentialRevision < capture.record.credentialRevision then .error .staleCapture
      else upsertMicrosoft packages snapshot revision id identity now

/-- `remove_microsoft`, and `invalidate_microsoft` which also asks that the selection is as it
was captured. -/
def removeMicrosoft (capture : CapturedAccount) (selectionBound : Bool) :
    Except AccountError Mutation :=
  if capture.record.kind ≠ .microsoft then .error .notMicrosoft
  else
    .ok fun snapshot _ => do
      validateBound capture selectionBound snapshot
      let index ← position snapshot capture.record.accountId
      return removeIdentity snapshot index

def syncActiveOfflineUsername (username now : String) : Except AccountError Mutation := do
  let name ← validateUsername username
  return fun snapshot revision =>
    match snapshot.activeAccount with
    | none => .ok snapshot
    | some active =>
      if active.kind ≠ .offline then .ok snapshot
      else do
        let nextId ← offlineId packages name
        if snapshot.accounts.any fun account => account.accountId = nextId then
          .ok (selectIdentity snapshot (some nextId))
        else renameOffline packages snapshot revision active.accountId name now

def selectLaunchMode (mode : LaunchAuthMode) : Mutation := fun snapshot _ =>
  if mode = .offline ∧ snapshot.activeAccountId = none then .ok snapshot
  else if snapshot.activeAccount.any fun account => account.kind.launchMode = mode then
    .ok snapshot
  else
    match snapshot.accounts.find? fun account => account.kind.launchMode = mode with
    | none => .error .noSelection
    | some account => .ok (selectIdentity snapshot (some account.accountId))

def Change.mutation : Change → Except AccountError Mutation
  | .createOffline username expected now => Accounts.createOffline packages username expected now
  | .renameOffline accountId username expected now =>
    renameOfflineAccount packages accountId username expected now
  | .select accountId expected => Accounts.select packages accountId expected
  | .removeOffline accountId expected => Accounts.removeOffline packages accountId expected
  | .commitMicrosoft expectedSelectionRevision identity now =>
    Accounts.commitMicrosoft packages expectedSelectionRevision identity now
  | .refreshMicrosoft capture identity selectionBound now =>
    Accounts.refreshMicrosoft packages capture identity selectionBound now
  | .invalidateMicrosoft capture => Accounts.removeMicrosoft capture true
  | .removeMicrosoft capture => Accounts.removeMicrosoft capture false
  | .syncActiveOfflineUsername username now =>
    Accounts.syncActiveOfflineUsername packages username now
  | .selectLaunchMode mode => .ok (Accounts.selectLaunchMode mode)

/-! ### Transactions -/

def mutateTransaction (tables : Tables) (mutation : Mutation) :
    Except AccountError (Tables × AccountSnapshot) := do
  let before ← readSnapshot packages tables
  let revision := before.revision + 1
  if maxSafeRevision < revision then .error .invalidStoredData
  else do
    let edited ← mutation before revision
    if edited = before then .ok (tables, before)
    else do
      let next :=
        { edited with
          revision
          selectionRevision := revision
          accounts := sortAccounts edited.accounts }
      validateSnapshot packages next
      let written ← writeSnapshot packages tables before next
      return (written, next)

/-- Makes changes one after another, and tells the snapshot that each leaves. -/
def applyChanges : Tables → List Change → Except AccountError (Tables × List AccountSnapshot)
  | tables, [] => .ok (tables, [])
  | tables, change :: rest => do
    let mutation ← change.mutation packages
    let (written, snapshot) ← mutateTransaction packages tables mutation
    let (final, snapshots) ← applyChanges written rest
    return (final, snapshot :: snapshots)

/-- A transaction is one command, or what a change of the settings asks for; it may be refused by
the database or by the settings, at any moment. -/
structure Transaction where
  changes : List Change
  refusal : Option AccountError

/-- `MetadataStore::transaction`: everything is kept, or nothing is. At the end the selection
must be of an account in the directory. -/
def perform (transaction : Transaction) (tables : Tables) :
    Tables × Except AccountError (List AccountSnapshot) :=
  match applyChanges packages tables transaction.changes, transaction.refusal with
  | .error error, _ => (tables, .error error)
  | .ok _, some error => (tables, .error error)
  | .ok (written, snapshots), none =>
    if written.activeAccountId.all fun id => id ∈ written.accountDirectory then
      (written, .ok snapshots)
    else (tables, .error .storage)

end Axial.Accounts
