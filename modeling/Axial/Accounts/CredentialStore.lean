/-
This file embeds the store of credentials: for each account a head record in the keyring of
the system, and the chunks of the secrets that the head names. The operations are programs
whose calls get, set and delete single entries; what the keyring does at a call is decided
elsewhere, since it may do what it was asked and still report a failure.
-/

import Axial.Accounts.Model
import Axial.Library.Program

namespace Axial.Accounts

open Program

abbrev Secret := List UInt8

def maxCredentialBytes : Nat := 64 * 1024
def maxTokenBytes : Nat := 24 * 1024
def chunkBytes : Nat := 900
def maxHeadBytes : Nat := 900

inductive CredentialError where
  | unavailable
  | malformed
  | ambiguous
  | stale
  | unresolved
  | cleanupPending
  | revisionExhausted
  | invalidAccount
  deriving DecidableEq

/-- What an operation on an account fails with. -/
inductive AuthError where
  | account (failure : AccountError)
  | credentials (failure : CredentialError)
  | provider
  | signInRequired
  | ownershipMissing
  | loginExpired
  | unavailable
  deriving DecidableEq

/-! ### Credentials -/

structure Credentials where
  microsoftAccessToken : String
  microsoftRefreshToken : Option String
  microsoftExpiresAt : Nat
  minecraftAccessToken : String
  minecraftExpiresAt : Nat
  deriving DecidableEq

structure KeyringCredentials where
  schema : Nat
  credentials : Credentials
  deriving DecidableEq

/-- `validate_token`. The bytes of letters beyond ASCII are neither white space nor control. -/
def validToken (token : String) : Bool :=
  token ≠ "" && token.utf8ByteSize ≤ maxTokenBytes &&
  !token.toList.any fun letter => letter.toNat ≤ 0x20 || letter.toNat = 0x7f

/-- `Credentials::new` -/
def Credentials.new (microsoftAccessToken : String) (microsoftRefreshToken : Option String)
    (microsoftExpiresAt : Nat) (minecraftAccessToken : String) (minecraftExpiresAt : Nat) :
    Except CredentialError Credentials :=
  if !validToken microsoftAccessToken || !microsoftRefreshToken.all validToken ||
      !validToken minecraftAccessToken then
    .error .malformed
  else if microsoftExpiresAt = 0 ∨ minecraftExpiresAt = 0 then .error .malformed
  else .ok ⟨microsoftAccessToken, microsoftRefreshToken, microsoftExpiresAt,
    minecraftAccessToken, minecraftExpiresAt⟩

/-! ### Heads -/

inductive BlobLayout where
  | chunks
  | single
  deriving DecidableEq

def BlobLayout.chunkBytes : BlobLayout → Nat
  | .chunks => Accounts.chunkBytes
  | .single => maxCredentialBytes

structure Blob where
  id : Uuid
  chunks : Nat
  digest : String
  layout : BlobLayout
  deriving DecidableEq

inductive HeadState where
  | live (blob : Blob)
  | pending (previous candidate : Option Blob)
  | deleted
  deriving DecidableEq

structure Head where
  schema : Nat
  revision : Nat
  operation : Uuid
  state : HeadState
  retired : List Blob
  deriving DecidableEq

/-- `usize::div_ceil` -/
def divCeil (value size : Nat) : Nat := (value + (size - 1)) / size

/-- `Blob::validate` -/
def Blob.valid (blob : Blob) : Bool :=
  blob.id ≠ 0 && blob.chunks ≠ 0 &&
  blob.chunks ≤ divCeil maxCredentialBytes blob.layout.chunkBytes &&
  blob.digest.utf8ByteSize = 64 && blob.digest.toList.all fun letter =>
    letter.isDigit || ('a' ≤ letter && letter ≤ 'f') || ('A' ≤ letter && letter ≤ 'F')

/-- What the state of a head must be, next to its operation and what is retired. -/
def HeadState.valid (operation : Uuid) (retired : List Blob) : HeadState → Bool
  | .live blob => blob.id = operation && retired.length ≤ 1 && blob.valid
  | .pending previous candidate =>
    retired = [] && previous.all Blob.valid && candidate.all fun blob =>
      blob.valid && blob.id = operation && previous.all fun other => other.id ≠ blob.id
  | .deleted => true

def HeadState.live? : HeadState → Option Uuid
  | .live blob => some blob.id
  | _ => none

/-- `Head::validate` -/
def Head.valid (head : Head) : Bool :=
  head.schema = 1 && head.revision ≠ 0 && head.operation ≠ 0 && head.retired.length ≤ 2 &&
  head.state.valid head.operation head.retired &&
  (head.retired.all fun blob => blob.valid && head.state.live? ≠ some blob.id) &&
  decide (head.retired.map (·.id)).Nodup

/-- The blobs that a head names. -/
def HeadState.blobs : HeadState → List Blob
  | .live blob => [blob]
  | .pending previous candidate => previous.toList ++ candidate.toList
  | .deleted => []

/-! ### The keyring -/

/-- The entries of one account: `{profile}:{account}:head-v1` and
`{profile}:{account}:{blob}:{index}`. -/
inductive Entry where
  | head
  | chunk (blob : Uuid) (index : Nat)
  deriving DecidableEq

inductive SecureOp where
  | get (key : Entry)
  | set (key : Entry) (bytes : Secret)
  | delete (key : Entry)
  /-- `Uuid::new_v4` -/
  | newUuid

namespace SecureOp

abbrev Answer : SecureOp → Type
  | .get _ => Except CredentialError (Option Secret)
  | .set _ _ => Except CredentialError Unit
  | .delete _ => Except CredentialError Unit
  | .newUuid => Uuid

end SecureOp

abbrev SecureProgram := Program SecureOp SecureOp.Answer CredentialError

/-- One call of the keyring. -/
def ask (op : SecureOp) : SecureProgram op.Answer := perform op

/-- How heads and credentials are written into entries, and the digest of secrets in
hexadecimal digits. What was written is read again as it was. -/
structure SecureFormats where
  headJson : Head → Option Secret
  parseHead : Secret → Option Head
  parseHead_headJson : ∀ head bytes, headJson head = some bytes → parseHead bytes = some head
  credentialsJson : KeyringCredentials → Option Secret
  parseCredentials : Secret → Option KeyringCredentials
  digest : Secret → String

structure CredentialFence where
  profile : Uuid
  account : Uuid
  revision : Nat
  operation : Uuid
  deriving DecidableEq

structure CredentialReceipt where
  revision : Nat
  cleanupPending : Bool
  deriving DecidableEq

structure StoredCredentials where
  revision : Nat
  credentials : Credentials
  deriving DecidableEq

inductive CredentialState where
  | absent
  | pending
  | ready
  | deleted
  deriving DecidableEq

structure CredentialStatus where
  revision : Nat
  state : CredentialState
  cleanupPending : Bool
  deriving DecidableEq

/-- A store, the system that it runs on, and the account that its operations are about. -/
structure CredentialStore extends SecureFormats where
  profile : Uuid
  account : Uuid
  macos : Bool

namespace CredentialStore

variable (store : CredentialStore)

def encodeForKeyring (credentials : Credentials) : Except CredentialError Secret :=
  match store.credentialsJson ⟨1, credentials⟩ with
  | none => .error .malformed
  | some bytes => if maxCredentialBytes < bytes.length then .error .malformed else .ok bytes

def decodeFromKeyring (bytes : Secret) : Except CredentialError Credentials :=
  if maxCredentialBytes < bytes.length then .error .malformed
  else
    match store.parseCredentials bytes with
    | none => .error .malformed
    | some stored =>
      if stored.schema ≠ 1 then .error .malformed
      else Credentials.new stored.credentials.microsoftAccessToken stored.credentials.microsoftRefreshToken
        stored.credentials.microsoftExpiresAt stored.credentials.minecraftAccessToken
        stored.credentials.minecraftExpiresAt

/-! ### Single entries -/

def get (key : Entry) : SecureProgram (Option Secret) := do
  match ← ask (.get key) with
  | Except.ok bytes => return bytes
  | Except.error failure => .fail failure

/-- What the bytes of a head entry say. -/
def readHead : Option Secret → Except CredentialError (Option Head)
  | none => .ok none
  | some bytes =>
    if maxHeadBytes < bytes.length then .error .malformed
    else
      match store.parseHead bytes with
      | none => .error .malformed
      | some head => if head.valid then .ok (some head) else .error .malformed

def lift {Value : Type} : Except CredentialError Value → SecureProgram Value
  | .ok value => .finish value
  | .error failure => .fail failure

def head : SecureProgram (Option Head) := do
  lift (store.readHead (← get .head))

/-- Some systems commit and still report a failure. Reading back exactly what was written is the
only acknowledgement. -/
def acknowledge (key : Entry) (bytes : Secret) : SecureProgram Unit := do
  match ← ask (.get key) with
  | Except.ok (some actual) => if actual = bytes then return () else .fail .ambiguous
  | _ => .fail .ambiguous

def writeEntry (key : Entry) (bytes : Secret) : SecureProgram Unit := do
  let _ ← ask (.set key bytes)
  acknowledge key bytes

def writeHead (head : Head) : SecureProgram Unit :=
  if !head.valid then .fail .malformed
  else
    match store.headJson head with
    | none => .fail .malformed
    | some bytes =>
      if maxHeadBytes < bytes.length then .fail .malformed else writeEntry .head bytes

/-! ### Blobs -/

/-- Whether bytes can be the chunk of a blob with an index. -/
def chunkFits (blob : Blob) (index : Nat) (chunk : Secret) : Bool :=
  chunk ≠ [] && chunk.length ≤ blob.layout.chunkBytes &&
  (blob.chunks ≤ index + 1 || chunk.length = blob.layout.chunkBytes)

/-- Reads as many chunks as are left, from an index on. -/
def readChunks (blob : Blob) : (left index : Nat) → SecureProgram Secret
  | 0, _ => return []
  | left + 1, index => do
    match ← get (.chunk blob.id index) with
    | none => .fail .malformed
    | some chunk =>
      if !chunkFits blob index chunk then .fail .malformed
      else do
        let rest ← readChunks blob left (index + 1)
        return chunk ++ rest

/-- What the bytes of a blob say. -/
def decodeBlob (blob : Blob) (bytes : Secret) : Except CredentialError Credentials :=
  if store.digest bytes ≠ blob.digest then .error .malformed else store.decodeFromKeyring bytes

def readBlob (blob : Blob) : SecureProgram Credentials :=
  if !blob.valid then .fail .malformed
  else do
    let bytes ← readChunks blob blob.chunks 0
    lift (store.decodeBlob blob bytes)

/-- The pieces of some bytes: `slice::chunks`. -/
def pieces (size : Nat) (bytes : Secret) : List Secret :=
  (List.range (divCeil bytes.length size)).map fun index => (bytes.drop (index * size)).take size

/-- Writes chunks, from an index on. -/
def writeChunks (blob : Uuid) : (index : Nat) → List Secret → SecureProgram Unit
  | _, [] => return ()
  | index, chunk :: rest => do
    writeEntry (.chunk blob index) chunk
    writeChunks blob (index + 1) rest

/-- An entry is gone only if the keyring says that there is none. -/
def confirmGone (key : Entry) : SecureProgram Unit := do
  match ← ask (.get key) with
  | Except.ok none => return ()
  | _ => .fail .cleanupPending

def deleteEntries : List Entry → SecureProgram Unit
  | [] => return ()
  | key :: rest => do
    let _ ← ask (.delete key)
    confirmGone key
    deleteEntries rest

/-- The entries of a blob. -/
def entries (blob : Blob) : List Entry :=
  (List.range blob.chunks).map fun index => .chunk blob.id index

/-- Returns the head without what was retired. -/
def cleanRetired (head : Head) : SecureProgram Head :=
  if head.retired = [] then return head
  else do
    deleteEntries (head.retired.flatMap entries)
    (store.writeHead { head with retired := [] }).mapError fun _ => .cleanupPending
    return { head with retired := [] }

/-- Whether the cleanup of what is retired remains pending. -/
def cleanupPending (head : Head) : SecureProgram Bool :=
  (store.cleanRetired head).handle fun
    | .ok _ => return false
    | .error _ => return true

/-! ### Operations -/

def status : SecureProgram CredentialStatus := do
  match ← store.head with
  | none => return ⟨0, .absent, false⟩
  | some head =>
    return ⟨head.revision,
      match head.state with
      | .live _ => .ready
      | .pending _ _ => .pending
      | .deleted => .deleted,
      head.retired ≠ []⟩

def load : SecureProgram (Option StoredCredentials) := do
  match ← store.head with
  | none => return none
  | some head =>
    match head.state with
    | .live blob => return some ⟨head.revision, ← store.readBlob blob⟩
    | .pending _ _ => .fail .unresolved
    | .deleted => return none

/-- `checked_add(1)` of a revision -/
def nextRevision (revision : Nat) : SecureProgram Nat :=
  if 2 ^ 64 ≤ revision + 1 then .fail .revisionExhausted else return revision + 1

/-- Publishes the marker of a change after which some revision is pending. -/
def publishPending (revision : Nat) (previous : Option Blob) : SecureProgram CredentialFence := do
  let next ← nextRevision revision
  let operation ← ask .newUuid
  store.writeHead ⟨1, next, operation, .pending previous none, []⟩
  return ⟨store.profile, store.account, next, operation⟩

def beginChange (expectedRevision : Nat) : SecureProgram CredentialFence := do
  match ← store.head with
  | none =>
    if expectedRevision ≠ 0 then .fail .stale
    else store.publishPending expectedRevision none
  | some head =>
    if head.revision ≠ expectedRevision then .fail .stale
    else
      match head.state with
      | .pending _ _ => .fail .unresolved
      | .live blob => do
        let _ ← store.cleanRetired head
        store.publishPending expectedRevision (some blob)
      | .deleted => do
        let _ ← store.cleanRetired head
        store.publishPending expectedRevision none

def fencedHead (fence : CredentialFence) : SecureProgram Head := do
  match ← store.head with
  | none => .fail .stale
  | some head =>
    if head.revision ≠ fence.revision ∨ head.operation ≠ fence.operation then .fail .stale
    else return head

/-- The layout of what is being saved under a head. -/
def layout : HeadState → BlobLayout
  | .live blob => blob.layout
  | .pending _ (some blob) => blob.layout
  | _ => if store.macos then .single else .chunks

/-- The blob of some bytes. -/
def blobOf (fence : CredentialFence) (layout : BlobLayout) (bytes : Secret) : Blob where
  id := fence.operation
  chunks := divCeil bytes.length layout.chunkBytes
  digest := store.digest bytes
  layout := layout

/-- The second half of `save`: publishes a candidate and then the credentials. -/
def publish (head : Head) (previous : Option Blob) (blob : Blob) (bytes : Secret)
    (credentials : Credentials) : SecureProgram CredentialReceipt := do
  store.writeHead { head with state := .pending previous (some blob) }
  writeChunks blob.id 0 (pieces blob.layout.chunkBytes bytes)
  if (← store.readBlob blob) ≠ credentials then .fail .malformed
  else do
    let saved := { head with state := .live blob, retired := previous.toList }
    store.writeHead saved
    return ⟨head.revision, ← store.cleanupPending saved⟩

def save (fence : CredentialFence) (credentials : Credentials) :
    SecureProgram CredentialReceipt :=
  if fence.profile ≠ store.profile then .fail .stale
  else do
    let bytes ← lift (store.encodeForKeyring credentials)
    let head ← store.fencedHead fence
    let blob := store.blobOf fence (store.layout head.state) bytes
    match head.state with
    | .live committed =>
      if committed ≠ blob then .fail .stale
      else if (← store.readBlob committed) ≠ credentials then .fail .malformed
      else return ⟨head.revision, ← store.cleanupPending head⟩
    | .pending previous candidate =>
      if candidate.any fun existing => existing ≠ blob then .fail .stale
      else store.publish head previous blob bytes credentials
    | .deleted => .fail .stale

def reconcile (fence : CredentialFence) : SecureProgram CredentialReceipt :=
  if fence.profile ≠ store.profile then .fail .stale
  else do
    let head ← store.fencedHead fence
    match head.state with
    | .live blob => do
      let _ ← store.readBlob blob
      return ⟨head.revision, ← store.cleanupPending head⟩
    | _ => .fail .unresolved

/-- Writes a tombstone, and then deletes what it has taken over. -/
def bury (revision : Nat) (retired : List Blob) : SecureProgram CredentialReceipt := do
  let next ← nextRevision revision
  let operation ← ask .newUuid
  let deleted : Head := ⟨1, next, operation, .deleted, retired⟩
  store.writeHead deleted
  return ⟨next, ← store.cleanupPending deleted⟩

def delete (expectedRevision : Option Nat) : SecureProgram CredentialReceipt := do
  let current ← store.head
  let revision := (current.map (·.revision)).getD 0
  if expectedRevision.any fun expected => expected ≠ revision then .fail .stale
  else
    match current with
    | none => store.bury revision []
    | some head =>
      if head.state = .deleted then return ⟨head.revision, ← store.cleanupPending head⟩
      else store.bury revision (head.retired ++ head.state.blobs)

def flushCleanup : SecureProgram Unit := do
  match ← store.head with
  | none => return ()
  | some head => do
    let _ ← store.cleanRetired head

end CredentialStore

end Axial.Accounts
