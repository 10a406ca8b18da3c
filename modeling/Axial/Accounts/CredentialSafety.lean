/-
This file lets the operations of the credential store run one after another on the entries
of one account, with a keyring that may do or not do what it is asked, report whatever it
likes about writes, and fail to answer questions; between any two calls the process may
die. The head always names every chunk that there is, a live head is that of credentials
which can be read again as they were saved, and what was given up is never read again.
-/

import Axial.Accounts.CredentialStore
import Axial.Library.Chunks
import Axial.Library.Runs

namespace Axial.Accounts

open Program Relation Function

/-! ### The keyring as the operations find it -/

/-- The operations, with what they are given. -/
inductive Call where
  | status
  | load
  | beginChange (expectedRevision : Nat)
  | save (fence : CredentialFence) (credentials : Credentials)
  | reconcile (fence : CredentialFence)
  | delete (expectedRevision : Option Nat)
  | flushCleanup

namespace Call

abbrev Result : Call → Type
  | .status => CredentialStatus
  | .load => Option StoredCredentials
  | .beginChange _ => CredentialFence
  | .save _ _ => CredentialReceipt
  | .reconcile _ => CredentialReceipt
  | .delete _ => CredentialReceipt
  | .flushCleanup => Unit

def program (store : CredentialStore) : (call : Call) → SecureProgram call.Result
  | .status => store.status
  | .load => store.load
  | .beginChange expectedRevision => store.beginChange expectedRevision
  | .save fence credentials => store.save fence credentials
  | .reconcile fence => store.reconcile fence
  | .delete expectedRevision => store.delete expectedRevision
  | .flushCleanup => store.flushCleanup

/-- The credentials that a call is to publish, with the revision and operation of its fence. -/
def publication : Call → Option ((Nat × Uuid) × Credentials)
  | .save fence credentials => some ((fence.revision, fence.operation), credentials)
  | _ => none

end Call

abbrev Entries := Entry → Option Secret

/-- The revision and the operation of a head. -/
def Head.mark (head : Head) : Nat × Uuid := (head.revision, head.operation)

/-- The mark of a live head. -/
def Head.liveMark (head : Head) : Option (Nat × Uuid) :=
  match head.state with
  | .live _ => some head.mark
  | _ => none

def Head.blobs (head : Head) : List Blob := head.retired ++ head.state.blobs

/-- The entries of an account. It is noted which marks its head has had, the last one first,
and what fence and credentials the save was given that made the head live the last time. -/
structure Keyring where
  entries : Entries
  marks : List (Nat × Uuid)
  published : Option ((Nat × Uuid) × Credentials)

def Keyring.empty : Keyring := ⟨fun _ => none, [], none⟩

namespace CredentialStore

variable (store : CredentialStore)

def headOf (entries : Entries) : Option Head := (store.readHead (entries .head)).toOption.join

/-- An entry is changed while a call runs. -/
def write (call : Call) (keyring : Keyring) (key : Entry) (value : Option Secret) : Keyring :=
  let entries := update keyring.entries key value
  let before := store.headOf keyring.entries
  let after := store.headOf entries
  let live := after.bind Head.liveMark
  { entries
    marks :=
      if after.map Head.mark = before.map Head.mark then keyring.marks
      else (after.map Head.mark).toList ++ keyring.marks
    published :=
      if live = none ∨ live = before.bind Head.liveMark then keyring.published
      else call.publication }

/-- What the keyring does at each call. Only reading can be relied on, if it does not fail; any
UUID may come up. -/
def effect (call : Call) : Effect SecureOp SecureOp.Answer Keyring
  | .get key, before, answer, after =>
    after = before ∧ (answer = .ok (before.entries key) ∨ answer = .error .unavailable)
  | .set key bytes, before, _, after =>
    after = before ∨ after = store.write call before key (some bytes)
  | .delete key, before, _, after =>
    after = before ∨ after = store.write call before key none
  | .newUuid, before, _, after => after = before

/-! ### What is read without failures -/

/-- The bytes of as many chunks as are left, from an index on. -/
def chunksOf (entries : Entries) (blob : Blob) : (left index : Nat) → Except CredentialError Secret
  | 0, _ => .ok []
  | left + 1, index =>
    match entries (.chunk blob.id index) with
    | none => .error .malformed
    | some chunk =>
      if !chunkFits blob index chunk then .error .malformed
      else (chunksOf entries blob left (index + 1)).map (chunk ++ ·)

def contents (entries : Entries) (blob : Blob) : Except CredentialError Credentials :=
  if !blob.valid then .error .malformed
  else (chunksOf entries blob blob.chunks 0).bind (store.decodeBlob blob)

variable {blob : Blob} {second first : Entries}

theorem chunksOf_congr
    (same : ∀ index, first (.chunk blob.id index) = second (.chunk blob.id index))
    (left index : Nat) : chunksOf first blob left index = chunksOf second blob left index := by
  induction left generalizing index with
  | zero => rfl
  | succ left ih =>
    rw [chunksOf, chunksOf, same index, ih]

theorem contents_congr
    (same : ∀ index, first (.chunk blob.id index) = second (.chunk blob.id index)) :
    store.contents first blob = store.contents second blob := by
  rw [contents, contents, chunksOf_congr same]

/-! ### Soundness -/

/-- What holds of the entries at all times. -/
structure Sound (keyring : Keyring) : Prop where
  /-- The head can be read. -/
  readable : store.readHead (keyring.entries .head) = .ok (store.headOf keyring.entries)
  /-- The head names every chunk that there is. -/
  owned : ∀ blob index, keyring.entries (.chunk blob index) ≠ none →
    ∃ head, store.headOf keyring.entries = some head ∧
      ∃ owner ∈ head.blobs, owner.id = blob ∧ index < owner.chunks
  /-- The credentials of a live head are there as the save that published them was given them. -/
  live : ∀ head blob, store.headOf keyring.entries = some head → head.state = .live blob →
    ∃ credentials, keyring.published = some (head.mark, credentials) ∧
      store.contents keyring.entries blob = .ok credentials
  marked : keyring.marks.head? = (store.headOf keyring.entries).map Head.mark
  ordered : keyring.marks.Pairwise fun later earlier => earlier.1 < later.1

/-- What a head can become at one call. -/
inductive Advance (call : Call) : Option Head → Option Head → Prop
  | same (head : Option Head) : Advance call head head
  /-- Everything retired is gone. -/
  | cleaned (head : Head) : Advance call (some head) (some { head with retired := [] })
  | candidate {head : Head} {previous existing : Option Blob} (blob : Blob)
      (state : head.state = .pending previous existing) :
      Advance call (some head) (some { head with state := .pending previous (some blob) })
  /-- A change is completed, by a save under its fence. -/
  | published {head : Head} {previous candidate : Option Blob} (blob : Blob)
      (fence : CredentialFence) (credentials : Credentials)
      (state : head.state = .pending previous candidate)
      (saving : call = .save fence credentials)
      (fenced : head.revision = fence.revision ∧ head.operation = fence.operation) :
      Advance call (some head)
        (some { head with state := .live blob, retired := previous.toList })
  /-- A change is begun. -/
  | opened {before : Option Head} {expectedRevision : Nat} (operation : Uuid)
      (previous : Option Blob) (beginning : call = .beginChange expectedRevision)
      (settled : ∀ head first second, before = some head → head.state ≠ .pending first second) :
      Advance call before (some ⟨1, (before.map (·.revision)).getD 0 + 1, operation,
        .pending previous none, []⟩)
  /-- Everything is given up. -/
  | buried {before : Option Head} {expectedRevision : Option Nat} (operation : Uuid)
      (retired : List Blob) (deleting : call = .delete expectedRevision) :
      Advance call before (some ⟨1, (before.map (·.revision)).getD 0 + 1, operation,
        .deleted, retired⟩)

/-- What every call of an operation guarantees. -/
def Guarantee (call : Call) (before after : Keyring) : Prop :=
  store.Sound after ∧
    Advance call (store.headOf before.entries) (store.headOf after.entries)

variable {store : CredentialStore} {call : Call} {keyring : Keyring}

/-! ### Heads that are read and written -/

theorem headOf_eq_some {entries : Entries} {head : Head}
    (found : store.headOf entries = some head) : head.valid = true := by
  rw [headOf] at found
  generalize outcome : store.readHead (entries .head) = result at found
  rw [readHead.eq_def] at outcome
  split at outcome
  · rw [← outcome] at found
    cases found
  · split_ifs at outcome
    · rw [← outcome] at found
      cases found
    · split at outcome
      · rw [← outcome] at found
        cases found
      · split_ifs at outcome with valid
        · rw [← outcome] at found
          cases Option.some.inj found
          exact valid
        · rw [← outcome] at found
          cases found

variable {bytes : Secret}

/-- A head that was written is read as it was. -/
theorem readHead_headJson {head : Head} (valid : head.valid = true)
    (json : store.headJson head = some bytes) (fits : bytes.length ≤ maxHeadBytes) :
    store.readHead (some bytes) = .ok (some head) := by
  rw [readHead, if_neg (Nat.not_lt.mpr fits), store.parseHead_headJson head bytes json]
  exact if_pos valid

variable {index : Nat}

theorem head_ne_chunk {blob : Uuid} : Entry.head ≠ .chunk blob index := nofun

theorem headOf_update_chunk (entries : Entries) (blob : Uuid) (index : Nat)
    (value : Option Secret) :
    store.headOf (update entries (.chunk blob index) value) = store.headOf entries := by
  rw [headOf, headOf, update_of_ne head_ne_chunk]

theorem headOf_update_head {entries : Entries} {head : Head} {bytes : Secret}
    (written : store.readHead (some bytes) = .ok (some head)) :
    store.headOf (update entries .head (some bytes)) = some head := by
  rw [headOf, update_self, written]
  rfl

theorem write_chunk (call : Call) (keyring : Keyring) (blob : Uuid) (index : Nat)
    (value : Option Secret) :
    store.write call keyring (.chunk blob index) value =
      { keyring with entries := update keyring.entries (.chunk blob index) value } := by
  rw [write]
  simp only [headOf_update_chunk, if_true, or_true]

/-- Writing what is there changes nothing. -/
theorem write_self {key : Entry} {value : Option Secret} (there : keyring.entries key = value) :
    store.write call keyring key value = keyring := by
  rw [write, ← there, update_eq_self]
  simp only [if_true, or_true]

theorem Sound.chunk (sound : store.Sound keyring) {blob : Uuid} {value : Option Secret}
    (owned : value ≠ none → ∃ head, store.headOf keyring.entries = some head ∧
      ∃ owner ∈ head.blobs, owner.id = blob ∧ index < owner.chunks)
    (spares : ∀ head live, store.headOf keyring.entries = some head → head.state = .live live →
      live.id ≠ blob) : store.Sound (store.write call keyring (.chunk blob index) value) := by
  rw [write_chunk]
  refine ⟨?_, ?_, ?_, ?_, sound.ordered⟩
  · dsimp only
    rw [headOf_update_chunk, update_of_ne head_ne_chunk]
    exact sound.readable
  · intro other place some
    dsimp only at some ⊢
    rw [headOf_update_chunk]
    by_cases same : Entry.chunk other place = .chunk blob index
    · rw [same, update_self] at some
      cases same
      exact owned some
    · rw [update_of_ne same] at some
      exact sound.owned other place some
  · intro head live found state
    dsimp only at found ⊢
    rw [headOf_update_chunk] at found
    obtain ⟨credentials, published, contents⟩ := sound.live head live found state
    refine ⟨credentials, published, ?_⟩
    rw [← contents]
    refine contents_congr store fun place => update_of_ne ?_ _ _
    intro same
    cases same
    exact spares head live found state rfl
  · dsimp only
    rw [headOf_update_chunk]
    exact sound.marked

theorem write_head {head : Head} (written : store.readHead (some bytes) = .ok (some head)) :
    store.write call keyring .head (some bytes) =
      { entries := update keyring.entries .head (some bytes)
        marks :=
          if some head.mark = (store.headOf keyring.entries).map Head.mark then keyring.marks
          else head.mark :: keyring.marks
        published :=
          if head.liveMark = none ∨
              head.liveMark = (store.headOf keyring.entries).bind Head.liveMark then
            keyring.published
          else call.publication } := by
  rw [write]
  simp only [headOf_update_head written, Option.map_some, Option.bind_some, Option.toList_some,
    List.singleton_append]

theorem liveMark_of_live {head : Head} {blob : Blob} (state : head.state = .live blob) :
    head.liveMark = some head.mark := by
  rw [Head.liveMark, state]

section

variable (sound : store.Sound keyring)

include sound

/-- No mark is newer than the head. -/
theorem Sound.marks_lt {revision : Nat}
    (risen : ∀ before, store.headOf keyring.entries = some before → before.revision < revision) :
    ∀ mark ∈ keyring.marks, mark.1 < revision := by
  have marked := sound.marked
  have ordered := sound.ordered
  cases marks : keyring.marks with
  | nil => exact fun _ member => nomatch member
  | cons last rest =>
    rw [marks] at marked ordered
    obtain ⟨before, found, same⟩ := Option.map_eq_some_iff.mp marked.symm
    have below : last.1 < revision := by
      rw [← same]
      exact risen before found
    intro mark member
    rcases List.mem_cons.mp member with rfl | earlier
    · exact below
    · exact (List.rel_of_pairwise_cons ordered earlier).trans below

/-- A head is written that names what the one before it named. -/
theorem Sound.head {head : Head} (written : store.readHead (some bytes) = .ok (some head))
    (owned : ∀ blob index, keyring.entries (.chunk blob index) ≠ none →
      ∃ owner ∈ head.blobs, owner.id = blob ∧ index < owner.chunks)
    (live : ∀ blob, head.state = .live blob → ∃ credentials,
      (if some head.mark = (store.headOf keyring.entries).bind Head.liveMark then
        keyring.published else call.publication) = some (head.mark, credentials) ∧
      store.contents keyring.entries blob = .ok credentials)
    (marked : some head.mark = (store.headOf keyring.entries).map Head.mark ∨
      ∀ before, store.headOf keyring.entries = some before → before.revision < head.revision) :
    store.Sound (store.write call keyring .head (some bytes)) ∧
      store.headOf (store.write call keyring .head (some bytes)).entries = some head := by
  rw [write_head written]
  have found := @headOf_update_head store keyring.entries _ _ written
  refine ⟨⟨?_, ?_, ?_, ?_, ?_⟩, found⟩
  · dsimp only
    rw [found, update_self, written]
  · intro blob index some
    exact ⟨head, found, owned blob index some⟩
  · intro other blob here state
    dsimp only at here ⊢
    rw [found] at here
    cases Option.some.inj here
    obtain ⟨credentials, published, contents⟩ := live blob state
    refine ⟨credentials, ?_, ?_⟩
    · rw [← published, liveMark_of_live state]
      simp only [reduceCtorEq, false_or]
    · rw [← contents]
      exact contents_congr store fun _ => update_of_ne head_ne_chunk.symm _ _
  · dsimp only
    rw [found]
    split_ifs with same
    · rw [sound.marked, ← same, Option.map_some]
    · rfl
  · dsimp only
    split_ifs with same
    · exact sound.ordered
    · have risen := marked.resolve_left same
      exact List.Pairwise.cons (sound.marks_lt risen) sound.ordered

/-! ### Rules -/

variable {Value : Type} {good : Value → Keyring → Prop} {bad : CredentialError → Keyring → Prop}

theorem Sound.guarantee_refl :
    store.Guarantee call keyring keyring := ⟨sound, .same _⟩

variable {key : Entry}

theorem safe_get {good : Option Secret → Keyring → Prop}
    (found : good (keyring.entries key) keyring) (failed : bad .unavailable keyring) :
    (get key).Safe (store.effect call) (store.Guarantee call) good bad keyring := by
  rintro answer after ⟨rfl, rfl | rfl⟩
  · exact ⟨sound.guarantee_refl, found⟩
  · exact ⟨sound.guarantee_refl, failed⟩

end

theorem safe_lift {result : Except CredentialError Value}
    (returns : ∀ value, result = .ok value → good value keyring)
    (fails : ∀ failure, result = .error failure → bad failure keyring) :
    (lift result).Safe (store.effect call) (store.Guarantee call) good bad keyring := by
  cases result with
  | ok value => exact returns value rfl
  | error failure => exact fails failure rfl

section

variable (sound : store.Sound keyring)

include sound

theorem safe_head {good : Option Head → Keyring → Prop}
    (found : good (store.headOf keyring.entries) keyring) (failed : bad .unavailable keyring) :
    store.head.Safe (store.effect call) (store.Guarantee call) good bad keyring := by
  refine safe_bind.mpr (safe_get sound (safe_lift ?_ ?_) failed)
  · rintro head read
    rw [sound.readable] at read
    rwa [← Except.ok.inj read]
  · intro failure read
    rw [sound.readable] at read
    cases read

theorem safe_newUuid {good : Uuid → Keyring → Prop} (any : ∀ operation, good operation keyring) :
    (ask .newUuid).Safe (store.effect call) (store.Guarantee call) good bad keyring := by
  rintro operation after rfl
  exact ⟨sound.guarantee_refl, any operation⟩

theorem safe_acknowledge {good : Unit → Keyring → Prop}
    (there : keyring.entries key = some bytes → good () keyring)
    (ambiguous : bad .ambiguous keyring) :
    (acknowledge key bytes).Safe (store.effect call) (store.Guarantee call) good bad keyring := by
  refine safe_bind.mpr ?_
  rintro answer after ⟨rfl, rfl | rfl⟩
  · refine ⟨sound.guarantee_refl, ?_⟩
    cases found : after.entries key with
    | none => exact ambiguous
    | some actual =>
      show (if actual = bytes then .finish () else .fail .ambiguous : SecureProgram Unit).Safe
        (store.effect call) (store.Guarantee call) good bad after
      split_ifs with same
      · exact there (same ▸ found)
      · exact ambiguous
  · exact ⟨sound.guarantee_refl, ambiguous⟩

/-- What a write leaves is acknowledged only if it is there. -/
theorem safe_writeEntry
    (kept : store.Guarantee call keyring (store.write call keyring key (some bytes)))
    {good : Unit → Keyring → Prop} (written : good () (store.write call keyring key (some bytes)))
    (ambiguous : bad .ambiguous keyring ∧
      bad .ambiguous (store.write call keyring key (some bytes))) :
    (writeEntry key bytes).Safe (store.effect call) (store.Guarantee call) good bad keyring := by
  refine safe_bind.mpr ?_
  rintro answer after (rfl | rfl)
  · refine ⟨sound.guarantee_refl, safe_acknowledge sound (fun there => ?_) ambiguous.1⟩
    rw [← @write_self store call _ _ _ there]
    exact written
  · exact ⟨kept, safe_acknowledge kept.1 (fun _ => written) ambiguous.2⟩

/-- The rule for heads: all that matters is what head is written, not its bytes. -/
theorem safe_writeHead {head : Head} {good : Unit → Keyring → Prop}
    (written : ∀ after, (∃ bytes, store.readHead (some bytes) = .ok (some head) ∧
        after = store.write call keyring .head (some bytes)) →
      store.Guarantee call keyring after ∧ good () after ∧ bad .ambiguous after)
    (refused : bad .malformed keyring) (ambiguous : bad .ambiguous keyring) :
    (store.writeHead head).Safe (store.effect call) (store.Guarantee call) good bad keyring := by
  rw [writeHead]
  split_ifs with invalid
  · exact refused
  · split
    · exact refused
    · rename_i bytes json
      split_ifs with long
      · exact refused
      · have valid : head.valid = true := by simpa only [Bool.not_eq_true', Bool.not_eq_false] using invalid
        have read := readHead_headJson valid json (Nat.not_lt.mp long)
        obtain ⟨kept, returns, fails⟩ := written _ ⟨bytes, read, rfl⟩
        exact safe_writeEntry sound kept returns ⟨ambiguous, fails⟩

/-- Reading chunks comes to what is there, unless the keyring fails. -/
theorem safe_readChunks {left : Nat} {good : Secret → Keyring → Prop}
    (returns : ∀ bytes, chunksOf keyring.entries blob left index = .ok bytes → good bytes keyring)
    (fails : ∀ failure, chunksOf keyring.entries blob left index = .error failure →
      bad failure keyring) (failed : bad .unavailable keyring) :
    (readChunks blob left index).Safe (store.effect call) (store.Guarantee call) good bad
      keyring := by
  induction left generalizing index good with
  | zero => exact returns [] rfl
  | succ left ih =>
    refine safe_bind.mpr (safe_get sound ?_ failed)
    rw [chunksOf] at returns fails
    cases found : keyring.entries (.chunk blob.id index) with
    | none =>
      rw [found] at fails
      exact fails _ rfl
    | some chunk =>
      rw [found] at returns fails
      dsimp only at returns fails ⊢
      split_ifs at returns fails ⊢
      · exact fails _ rfl
      · refine safe_bind.mpr (ih (fun rest read => ?_) fun failure read => ?_)
        · exact returns _ (by rw [read]; rfl)
        · exact fails _ (by rw [read]; rfl)

theorem safe_readBlob {good : Credentials → Keyring → Prop}
    (returns : ∀ credentials, store.contents keyring.entries blob = .ok credentials →
      good credentials keyring)
    (fails : ∀ failure, store.contents keyring.entries blob = .error failure →
      bad failure keyring) (failed : bad .unavailable keyring) :
    (store.readBlob blob).Safe (store.effect call) (store.Guarantee call) good bad keyring := by
  rw [contents] at returns fails
  rw [readBlob]
  split_ifs at returns fails ⊢
  · exact fails _ rfl
  · refine safe_bind.mpr (safe_readChunks sound (fun bytes read => ?_) (fun failure read => ?_) failed)
    · rw [read] at returns fails
      exact safe_lift (fun credentials decoded => returns credentials decoded)
        fun failure decoded => fails failure decoded
    · rw [read] at fails
      exact fails failure rfl

/-- What a cleanup leaves: some of the entries are gone, and nothing else is changed. -/
structure Cleared (keys : List Entry) (before after : Keyring) : Prop where
  sound : store.Sound after
  kept : ∀ key, after.entries key = before.entries key ∨ key ∈ keys ∧ after.entries key = none
  marks : after.marks = before.marks
  published : after.published = before.published

variable {keys : List Entry}

theorem Cleared.refl :
    store.Cleared keys keyring keyring := ⟨sound, fun _ => Or.inl rfl, rfl, rfl⟩

end

variable {before after : Keyring}

theorem Cleared.mono {more : List Entry} (cleared : store.Cleared keys before after)
    (within : keys ⊆ more) : store.Cleared more before after :=
  ⟨cleared.sound,
    fun key => (cleared.kept key).imp_right fun gone => ⟨within gone.1, gone.2⟩,
    cleared.marks, cleared.published⟩

theorem Cleared.trans {first second third : Keyring} (earlier : store.Cleared keys first second)
    (later : store.Cleared keys second third) : store.Cleared keys first third := by
  refine ⟨later.sound, fun key => ?_, later.marks.trans earlier.marks,
    later.published.trans earlier.published⟩
  rcases later.kept key with same | gone
  · rw [same]
    exact earlier.kept key
  · exact Or.inr gone

/-- An entry that is gone stays so. -/
theorem Cleared.gone (cleared : store.Cleared keys before after) (gone : before.entries key = none)
    : after.entries key = none :=
  (cleared.kept key).elim (fun same => same.trans gone) fun gone => gone.2

/-- Where only chunks are deleted the head is left. -/
theorem Cleared.headOf (cleared : store.Cleared keys before after) (chunks : .head ∉ keys) :
    store.headOf after.entries = store.headOf before.entries := by
  rw [CredentialStore.headOf, CredentialStore.headOf,
    (cleared.kept .head).resolve_right fun gone => chunks gone.1]

theorem safe_confirmGone (sound : store.Sound keyring) {good : Unit → Keyring → Prop}
    (gone : keyring.entries key = none → good () keyring) (pending : bad .cleanupPending keyring) :
    (confirmGone key).Safe (store.effect call) (store.Guarantee call) good bad keyring := by
  refine safe_bind.mpr ?_
  rintro answer after ⟨rfl, rfl | rfl⟩
  · refine ⟨sound.guarantee_refl, ?_⟩
    cases found : after.entries key with
    | none => exact gone found
    | some actual => exact pending
  · exact ⟨sound.guarantee_refl, pending⟩

/-- Deleting chunks that the live blob does not have. -/
theorem safe_deleteEntries (sound : store.Sound keyring)
    (spared : ∀ key ∈ keys, ∃ blob index, key = .chunk blob index ∧
      ∀ head live, store.headOf keyring.entries = some head → head.state = .live live →
        live.id ≠ blob) {good : Unit → Keyring → Prop}
    (deleted : ∀ after, store.Cleared keys keyring after → (∀ key ∈ keys, after.entries key = none) →
      good () after)
    (pending : ∀ after, store.Cleared keys keyring after → bad .cleanupPending after) :
    (deleteEntries keys).Safe (store.effect call) (store.Guarantee call) good bad keyring := by
  induction keys generalizing keyring with
  | nil => exact deleted keyring (.refl sound) nofun
  | cons key rest ih =>
    obtain ⟨blob, index, rfl, spares⟩ := spared key List.mem_cons_self
    refine safe_bind.mpr ?_
    have deletes : ∀ after, store.Cleared [.chunk blob index] keyring after →
        (confirmGone (.chunk blob index) >>= fun _ => deleteEntries rest).Safe (store.effect call)
          (store.Guarantee call) good bad after := by
      intro after cleared
      have here := cleared.mono (List.cons_subset_cons _ (List.nil_subset rest))
      have sameHead := cleared.headOf (by simp only [List.mem_singleton, reduceCtorEq, not_false_eq_true])
      refine safe_bind.mpr (safe_confirmGone cleared.sound (fun gone => ?_) (pending _ here))
      refine ih cleared.sound (fun key member => ?_)
        (fun final more allGone => ?_) fun final more => ?_
      · rw [sameHead]
        exact spared key (List.mem_cons_of_mem _ member)
      · refine deleted final (here.trans (more.mono (List.subset_cons_self _ _)))
          fun key member => ?_
        rcases List.mem_cons.mp member with rfl | inside
        · exact more.gone gone
        · exact allGone key inside
      · exact pending final (here.trans (more.mono (List.subset_cons_self _ _)))
    rintro answer after (rfl | rfl)
    · exact ⟨sound.guarantee_refl, deletes _ (.refl sound)⟩
    · have soundAfter : store.Sound (store.write call keyring (.chunk blob index) none) :=
        sound.chunk (fun some => absurd rfl some) spares
      refine ⟨⟨soundAfter, ?_⟩, deletes _ ⟨soundAfter, fun key => ?_, ?_, ?_⟩⟩
      · rw [write_chunk, headOf_update_chunk]
        exact .same _
      · rw [write_chunk]
        by_cases same : key = .chunk blob index
        · refine Or.inr ⟨List.mem_singleton.mpr same, ?_⟩
          rw [same]
          exact update_self _ _ _
        · exact Or.inl (update_of_ne same _ _)
      · rw [write_chunk]
      · rw [write_chunk]

/-- What an attempt to clean up leaves: the same head, perhaps without what was retired. -/
structure Tidied (head : Head) (before after : Keyring) : Prop where
  sound : store.Sound after
  head : store.headOf after.entries = some head ∨
    store.headOf after.entries = some { head with retired := [] }
  marks : after.marks = before.marks
  published : after.published = before.published

theorem retired_ne_live {head : Head} {live : Blob} (valid : head.valid = true)
    (state : head.state = .live live) (member : blob ∈ head.retired) : live.id ≠ blob.id := by
  simp only [Head.valid, Bool.and_eq_true, List.all_eq_true, decide_eq_true_eq] at valid
  have other := (valid.1.2 blob member).2
  rw [HeadState.live?.eq_def, state] at other
  exact fun same => other (congrArg some same)

theorem mem_entries_of_retired {head : Head} (member : key ∈ head.retired.flatMap entries) :
    ∃ blob ∈ head.retired, ∃ index < blob.chunks, key = .chunk blob.id index := by
  obtain ⟨blob, retired, inside⟩ := List.mem_flatMap.mp member
  obtain ⟨index, below, same⟩ := List.mem_map.mp inside
  exact ⟨blob, retired, index, List.mem_range.mp below, same.symm⟩

theorem chunk_mem_entries {head : Head} (member : blob ∈ head.retired) (below : index < blob.chunks)
    : Entry.chunk blob.id index ∈ head.retired.flatMap entries :=
  List.mem_flatMap.mpr ⟨blob, member, List.mem_map.mpr ⟨index, List.mem_range.mpr below, rfl⟩⟩

/-- Once the chunks are gone the head need not name what was retired. -/
theorem Sound.cleaned (sound : store.Sound keyring) {head : Head}
    (found : store.headOf keyring.entries = some head)
    (gone : ∀ key ∈ head.retired.flatMap entries, keyring.entries key = none)
    (written : store.readHead (some bytes) = .ok (some { head with retired := [] })) :
    store.Sound (store.write call keyring .head (some bytes)) ∧
      store.headOf (store.write call keyring .head (some bytes)).entries =
        some { head with retired := [] } := by
  refine sound.head written (fun blob index some => ?_) (fun blob state => ?_) (Or.inl ?_)
  · obtain ⟨owned, here, owner, member, rfl, below⟩ := sound.owned blob index some
    rw [found] at here
    cases Option.some.inj here
    rcases List.mem_append.mp member with retired | inside
    · exact absurd (gone _ (chunk_mem_entries retired below)) some
    · exact ⟨owner, inside, rfl, below⟩
  · obtain ⟨credentials, published, contents⟩ := sound.live head blob found state
    refine ⟨credentials, ?_, contents⟩
    rw [found, Option.bind_some, @liveMark_of_live head blob state]
    exact (if_pos rfl).trans published
  · rw [found]
    rfl

theorem safe_cleanRetired (sound : store.Sound keyring) {head : Head}
    (found : store.headOf keyring.entries = some head) {good : Head → Keyring → Prop}
    (cleaned : ∀ after, store.Tidied head keyring after →
      store.headOf after.entries = some { head with retired := [] } →
      good { head with retired := [] } after)
    (pending : ∀ after, store.Tidied head keyring after → bad .cleanupPending after) :
    (store.cleanRetired head).Safe (store.effect call) (store.Guarantee call) good bad keyring := by
  have valid := headOf_eq_some found
  rw [cleanRetired]
  split_ifs with nothing
  · have same : { head with retired := [] } = head := by rw [← nothing]
    have tidy := cleaned keyring ⟨sound, Or.inl found, rfl, rfl⟩ (same ▸ found)
    rw [same] at tidy
    exact tidy
  · have chunks : Entry.head ∉ head.retired.flatMap entries := by
      intro member
      obtain ⟨blob, -, index, -, same⟩ := mem_entries_of_retired member
      exact head_ne_chunk same
    have tidied : ∀ after, store.Cleared (head.retired.flatMap entries) keyring after →
        store.Tidied head keyring after := by
      intro after cleared
      exact ⟨cleared.sound, Or.inl ((cleared.headOf chunks).trans found), cleared.marks,
        cleared.published⟩
    refine safe_bind.mpr (safe_deleteEntries sound (fun key member => ?_)
      (fun after cleared gone => ?_) fun after cleared => pending after (tidied after cleared))
    · obtain ⟨blob, retired, index, -, rfl⟩ := mem_entries_of_retired member
      refine ⟨blob.id, index, rfl, fun other live here state => ?_⟩
      rw [found] at here
      cases Option.some.inj here
      exact retired_ne_live valid state retired
    · have here : store.headOf after.entries = some head := (cleared.headOf chunks).trans found
      have unfinished := pending after (tidied after cleared)
      refine safe_bind.mpr (safe_mapError.mpr (safe_writeHead cleared.sound ?_ unfinished unfinished))
      rintro final ⟨bytes, read, rfl⟩
      obtain ⟨soundFinal, headFinal⟩ := cleared.sound.cleaned here gone read
      have tidy : store.Tidied head keyring (store.write call after .head (some bytes)) := by
        refine ⟨soundFinal, Or.inr headFinal, ?_, ?_⟩
        · rw [write_head read, here, ← cleared.marks]
          exact if_pos rfl
        · rw [write_head read, here, ← cleared.published]
          exact if_pos (Or.inr rfl)
      refine ⟨⟨soundFinal, ?_⟩, cleaned _ tidy headFinal, pending _ tidy⟩
      rw [here, headFinal]
      exact .cleaned head

theorem safe_cleanupPending (sound : store.Sound keyring) {head : Head}
    (found : store.headOf keyring.entries = some head) {good : Bool → Keyring → Prop}
    (tidied : ∀ after pending, store.Tidied head keyring after →
      (pending = false → store.headOf after.entries = some { head with retired := [] }) →
      good pending after) :
    (store.cleanupPending head).Safe (store.effect call) (store.Guarantee call) good bad
      keyring := by
  refine safe_handle.mpr (safe_cleanRetired sound found ?_ ?_)
  · exact fun after tidy cleaned => tidied after false tidy fun _ => cleaned
  · exact fun after tidy => tidied after true tidy nofun

/-! ### Operations -/

/-- What an operation that has returned tells about the entries. -/
def Returned (store : CredentialStore) (keyring : Keyring) : (call : Call) → call.Result → Prop
  | .status, status => status.revision = ((store.headOf keyring.entries).map (·.revision)).getD 0
  | .load, none => ∀ head, store.headOf keyring.entries = some head → head.state = .deleted
  | .load, some stored => ∃ head blob, store.headOf keyring.entries = some head ∧
      head.state = .live blob ∧ stored.revision = head.revision ∧
      keyring.published = some (head.mark, stored.credentials)
  | .beginChange expectedRevision, fence => ∃ head previous,
      store.headOf keyring.entries = some head ∧ head.state = .pending previous none ∧
      head.mark = (fence.revision, fence.operation) ∧ fence.revision = expectedRevision + 1
  | .save fence credentials, receipt => ∃ head blob, store.headOf keyring.entries = some head ∧
      head.state = .live blob ∧ head.mark = (fence.revision, fence.operation) ∧
      receipt.revision = fence.revision ∧ keyring.published = some (head.mark, credentials)
  | .reconcile fence, receipt => ∃ head blob, store.headOf keyring.entries = some head ∧
      head.state = .live blob ∧ head.mark = (fence.revision, fence.operation) ∧
      receipt.revision = fence.revision
  | .delete _, receipt => ∃ head, store.headOf keyring.entries = some head ∧
      head.state = .deleted ∧ receipt.revision = head.revision ∧
      (receipt.cleanupPending = false → ∀ blob index, keyring.entries (.chunk blob index) = none)
  | .flushCleanup, _ => ∀ head, store.headOf keyring.entries = some head → head.retired = []

/-- What an operation that has failed tells: credentials are not loaded because the keyring fails,
or because a change is pending. -/
def Failed (store : CredentialStore) (keyring : Keyring) (call : Call)
    (failure : CredentialError) : Prop :=
  call = .load → failure = .unavailable ∨ failure = .unresolved ∧ ∃ head previous candidate,
    store.headOf keyring.entries = some head ∧ head.state = .pending previous candidate

/-- An operation is safe. -/
def SafeCall (store : CredentialStore) (call : Call) (program : SecureProgram call.Result)
    (keyring : Keyring) : Prop :=
  program.Safe (store.effect call) (store.Guarantee call)
    (fun result after => store.Returned after call result)
    (fun failure after => store.Failed after call failure) keyring

theorem failed_of_ne {failure : CredentialError} (other : call ≠ .load) :
    store.Failed keyring call failure := fun same => absurd same other

theorem status_safe (sound : store.Sound keyring) :
    store.SafeCall .status store.status keyring := by
  refine safe_bind.mpr (safe_head sound ?_ (failed_of_ne nofun))
  cases found : store.headOf keyring.entries with
  | none =>
    show (0 : Nat) = _
    rw [found]
    rfl
  | some head =>
    show head.revision = _
    rw [found]
    rfl

theorem load_safe (sound : store.Sound keyring) : store.SafeCall .load store.load keyring := by
  refine safe_bind.mpr (safe_head sound ?_ fun _ => Or.inl rfl)
  cases found : store.headOf keyring.entries with
  | none =>
    intro head other
    rw [found] at other
    cases other
  | some head =>
    dsimp only
    cases state : head.state with
    | live blob =>
      obtain ⟨credentials, published, contents⟩ := sound.live head blob found state
      refine safe_bind.mpr (safe_readBlob sound ?_ ?_ fun _ => Or.inl rfl)
      · intro read same
        rw [contents] at same
        cases Except.ok.inj same
        exact ⟨head, blob, found, state, rfl, published⟩
      · intro failure other
        rw [contents] at other
        cases other
    | pending previous candidate =>
      exact fun _ => Or.inr ⟨rfl, head, previous, candidate, found, state⟩
    | deleted =>
      intro other here
      rw [found] at here
      cases Option.some.inj here
      exact state

/-- All chunks are of the blobs of a head. -/
theorem Sound.owner (sound : store.Sound keyring) {head : Head}
    (found : store.headOf keyring.entries = some head) {blob : Uuid}
    (some : keyring.entries (.chunk blob index) ≠ none) :
    ∃ owner ∈ head.blobs, owner.id = blob ∧ index < owner.chunks := by
  obtain ⟨owned, here, rest⟩ := sound.owned blob index some
  rw [found] at here
  cases Option.some.inj here
  exact rest

/-- A head with a newer revision is written, which is not live and names all chunks. -/
theorem Sound.renewed (call : Call) (sound : store.Sound keyring) {head : Head}
    (written : store.readHead (some bytes) = .ok (some head))
    (owned : ∀ blob index, keyring.entries (.chunk blob index) ≠ none →
      ∃ owner ∈ head.blobs, owner.id = blob ∧ index < owner.chunks)
    (dead : ∀ blob, head.state ≠ .live blob)
    (newer : ((store.headOf keyring.entries).map (·.revision)).getD 0 < head.revision) :
    store.Sound (store.write call keyring .head (some bytes)) ∧
      store.headOf (store.write call keyring .head (some bytes)).entries = some head := by
  refine sound.head written owned (fun blob state => absurd state (dead blob))
    (Or.inr fun before found => ?_)
  rw [found] at newer
  exact newer

variable {previous : Option Blob}

theorem publishPending_safe {expectedRevision : Nat} (sound : store.Sound keyring)
    (revision : ((store.headOf keyring.entries).map (·.revision)).getD 0 = expectedRevision)
    (settled : ∀ head first second, store.headOf keyring.entries = some head →
      head.state ≠ .pending first second)
    (owned : ∀ blob index, keyring.entries (.chunk blob index) ≠ none →
      ∃ owner ∈ previous.toList, owner.id = blob ∧ index < owner.chunks) :
    store.SafeCall (.beginChange expectedRevision)
      (store.publishPending expectedRevision previous) keyring := by
  refine safe_bind.mpr ?_
  rw [nextRevision]
  split_ifs
  · exact failed_of_ne nofun
  · refine safe_bind.mpr (safe_newUuid sound fun operation => ?_)
    refine safe_bind.mpr (safe_writeHead sound ?_ (failed_of_ne nofun) (failed_of_ne nofun))
    rintro after ⟨bytes, read, rfl⟩
    obtain ⟨soundAfter, found⟩ := sound.renewed (.beginChange expectedRevision) read
      (by simpa only [Head.blobs, HeadState.blobs, List.append_nil, List.nil_append,
        Option.toList_none] using owned) nofun (revision ▸ Nat.lt_succ_self _)
    refine ⟨⟨soundAfter, ?_⟩, ⟨_, previous, found, rfl, rfl, rfl⟩, failed_of_ne nofun⟩
    rw [found, ← revision]
    exact .opened operation previous rfl settled

/-- A head that was tidied, and is without what was retired, has all chunks in its state. -/
theorem Sound.owner_of_cleaned (sound : store.Sound keyring) {head : Head}
    (found : store.headOf keyring.entries = some { head with retired := [] }) {blob : Uuid}
    (some : keyring.entries (.chunk blob index) ≠ none) :
    ∃ owner ∈ head.state.blobs, owner.id = blob ∧ index < owner.chunks :=
  sound.owner found some

theorem beginChange_safe {expectedRevision : Nat} (sound : store.Sound keyring) :
    store.SafeCall (.beginChange expectedRevision) (store.beginChange expectedRevision)
      keyring := by
  refine safe_bind.mpr (safe_head sound ?_ (failed_of_ne nofun))
  cases found : store.headOf keyring.entries with
  | none =>
    dsimp only
    split_ifs with expected
    · exact failed_of_ne nofun
    · refine publishPending_safe sound ?_ (fun head _ _ here => ?_) fun blob index some => ?_
      · rw [found]
        exact (not_not.mp expected).symm
      · rw [found] at here
        cases here
      · obtain ⟨head, here, -⟩ := sound.owned blob index some
        rw [found] at here
        cases here
  | some head =>
    dsimp only
    split_ifs with expected
    · exact failed_of_ne nofun
    · have published : ∀ after (previous : Option Blob),
          store.headOf after.entries = some { head with retired := [] } →
          store.Tidied head keyring after → previous.toList = head.state.blobs →
          (∀ first second, head.state ≠ .pending first second) →
          store.SafeCall (.beginChange expectedRevision)
            (store.publishPending expectedRevision previous) after := by
        intro after previous cleaned tidy same settled
        refine publishPending_safe tidy.sound ?_ (fun other first second here => ?_)
          fun blob index some => same ▸ tidy.sound.owner_of_cleaned cleaned some
        · rw [cleaned]
          exact not_not.mp expected
        · rw [cleaned] at here
          cases Option.some.inj here
          exact settled first second
      cases state : head.state with
      | live blob =>
        refine safe_bind.mpr (safe_cleanRetired sound found (fun after tidy cleaned => ?_)
          fun _ _ => failed_of_ne nofun)
        exact published after (some blob) cleaned tidy (by rw [state]; rfl) (by rw [state]; nofun)
      | pending previous candidate => exact failed_of_ne nofun
      | deleted =>
        refine safe_bind.mpr (safe_cleanRetired sound found (fun after tidy cleaned => ?_)
          fun _ _ => failed_of_ne nofun)
        exact published after none cleaned tidy (by rw [state]; rfl) (by rw [state]; nofun)

/-- A tombstone whose cleanup has been completed has no chunks left. -/
theorem deleted_of_tidied (expectedRevision : Option Nat) {head : Head} {pending : Bool}
    (tidy : store.Tidied head before keyring) (state : head.state = .deleted)
    (cleaned : pending = false →
      store.headOf keyring.entries = some { head with retired := [] }) :
    store.Returned keyring (.delete expectedRevision) ⟨head.revision, pending⟩ := by
  have gone : pending = false → ∀ blob index, keyring.entries (.chunk blob index) = none := by
    intro finished blob index
    by_contra some
    obtain ⟨owner, member, -⟩ := tidy.sound.owner_of_cleaned (cleaned finished) some
    rw [state] at member
    cases member
  rcases tidy.head with found | found
  · exact ⟨head, found, state, rfl, gone⟩
  · exact ⟨_, found, state, rfl, gone⟩

variable {expectedRevision : Option Nat}

section

variable (sound : store.Sound keyring)

include sound

theorem bury_safe {revision : Nat} {retired : List Blob}
    (same : ((store.headOf keyring.entries).map (·.revision)).getD 0 = revision)
    (owned : ∀ blob index, keyring.entries (.chunk blob index) ≠ none →
      ∃ owner ∈ retired, owner.id = blob ∧ index < owner.chunks) :
    store.SafeCall (.delete expectedRevision) (store.bury revision retired) keyring := by
  refine safe_bind.mpr ?_
  rw [nextRevision]
  split_ifs
  · exact failed_of_ne nofun
  · refine safe_bind.mpr (safe_newUuid sound fun operation => ?_)
    refine safe_bind.mpr (safe_writeHead sound ?_ (failed_of_ne nofun) (failed_of_ne nofun))
    rintro after ⟨bytes, read, rfl⟩
    obtain ⟨soundAfter, found⟩ := sound.renewed (.delete expectedRevision) read
      (by simpa only [Head.blobs, HeadState.blobs, List.append_nil] using owned) nofun
      (same ▸ Nat.lt_succ_self _)
    refine ⟨⟨soundAfter, ?_⟩, ?_, failed_of_ne nofun⟩
    · rw [found, ← same]
      exact .buried operation retired rfl
    · refine safe_bind.mpr (safe_cleanupPending soundAfter found fun final pending tidy cleaned => ?_)
      exact deleted_of_tidied expectedRevision tidy rfl cleaned

theorem delete_safe :
    store.SafeCall (.delete expectedRevision) (store.delete expectedRevision) keyring := by
  refine safe_bind.mpr (safe_head sound ?_ (failed_of_ne nofun))
  dsimp only
  split_ifs
  · exact failed_of_ne nofun
  · cases found : store.headOf keyring.entries with
    | none =>
      refine bury_safe sound (by rw [found]) fun blob index some => ?_
      obtain ⟨head, here, -⟩ := sound.owned blob index some
      rw [found] at here
      cases here
    | some head =>
      dsimp only
      split_ifs with state
      · refine safe_bind.mpr (safe_cleanupPending sound found fun after pending tidy cleaned => ?_)
        exact deleted_of_tidied expectedRevision tidy state cleaned
      · refine bury_safe sound (by rw [found]) fun blob index some => ?_
        exact sound.owner found some

theorem flushCleanup_safe : store.SafeCall .flushCleanup store.flushCleanup keyring := by
  refine safe_bind.mpr (safe_head sound ?_ (failed_of_ne nofun))
  cases found : store.headOf keyring.entries with
  | none =>
    intro head here
    rw [found] at here
    cases here
  | some head =>
    refine safe_bind.mpr (safe_cleanRetired sound found (fun after tidy cleaned => ?_)
      fun _ _ => failed_of_ne nofun)
    intro other here
    rw [cleaned] at here
    cases Option.some.inj here
    rfl

variable {fence : CredentialFence}

/-- The rule for heads that a fence is for. -/
theorem safe_fencedHead {good : Head → Keyring → Prop}
    (fenced : ∀ head, store.headOf keyring.entries = some head →
      head.mark = (fence.revision, fence.operation) → good head keyring)
    (failed : ∀ failure, bad failure keyring) :
    (store.fencedHead fence).Safe (store.effect call) (store.Guarantee call) good bad keyring := by
  refine safe_bind.mpr (safe_head sound ?_ (failed _))
  cases found : store.headOf keyring.entries with
  | none => exact failed _
  | some head =>
    dsimp only
    split_ifs with other
    · exact failed _
    · simp only [not_or, not_not] at other
      exact fenced head found (Prod.ext other.1 other.2)

end

/-- A live head whose cleanup has been tried is live. -/
theorem Tidied.live {head : Head} (tidy : store.Tidied head before keyring)
    (state : head.state = .live blob) :
    ∃ other, store.headOf keyring.entries = some other ∧ other.state = .live blob ∧
      other.mark = head.mark := by
  rcases tidy.head with found | found
  · exact ⟨head, found, state, rfl⟩
  · exact ⟨_, found, state, rfl⟩

theorem reconcile_safe (sound : store.Sound keyring) :
    store.SafeCall (.reconcile fence) (store.reconcile fence) keyring := by
  have failed : ∀ failure after, store.Failed after (.reconcile fence) failure :=
    fun _ _ => failed_of_ne nofun
  rw [SafeCall, reconcile]
  split_ifs
  · exact failed _ _
  · refine safe_bind.mpr (safe_fencedHead sound (fun head found marked => ?_)
      fun failure => failed failure _)
    cases state : head.state with
    | live blob =>
      refine safe_bind.mpr (safe_readBlob sound (fun _ _ => ?_) (fun _ _ => failed _ _)
        (failed _ _))
      refine safe_bind.mpr (safe_cleanupPending sound found fun after pending tidy _ => ?_)
      obtain ⟨other, here, live, same⟩ := tidy.live state
      exact ⟨other, blob, here, live, same.trans marked, congrArg Prod.fst marked⟩
    | pending | deleted => exact failed _ _

/-! ### Saving -/

theorem length_pieces (size : Nat) (bytes : Secret) :
    (pieces size bytes).length = divCeil bytes.length size := by
  rw [pieces, List.length_map, List.length_range]

/-- What writing the chunks of a candidate leaves alone. -/
structure Filling (head : Head) (before after : Keyring) : Prop where
  sound : store.Sound after
  head : store.headOf after.entries = some head
  published : after.published = before.published

/-- Chunks of a candidate are written one by one. -/
theorem safe_writeChunks (sound : store.Sound keyring) {head : Head}
    (found : store.headOf keyring.entries = some head) (member : blob ∈ head.blobs)
    (dead : ∀ live, head.state ≠ .live live) {chunks : List Secret}
    (below : index + chunks.length ≤ blob.chunks) {good : Unit → Keyring → Prop}
    (written : ∀ after, store.Filling head keyring after → good () after)
    (failed : ∀ failure after, bad failure after) :
    (writeChunks blob.id index chunks).Safe (store.effect call) (store.Guarantee call) good bad
      keyring := by
  induction chunks generalizing keyring index with
  | nil => exact written keyring ⟨sound, found, rfl⟩
  | cons chunk rest ih =>
    rw [List.length_cons] at below
    have soundAfter : store.Sound (store.write call keyring (.chunk blob.id index) (some chunk)) :=
      sound.chunk (fun _ => ⟨head, found, blob, member, rfl, by omega⟩)
        fun other live here state => by
          rw [found] at here
          cases Option.some.inj here
          exact absurd state (dead live)
    have foundAfter : store.headOf (store.write call keyring (.chunk blob.id index)
        (some chunk)).entries = some head := by
      rw [write_chunk, headOf_update_chunk]
      exact found
    have kept : store.Guarantee call keyring
        (store.write call keyring (.chunk blob.id index) (some chunk)) := by
      refine ⟨soundAfter, ?_⟩
      rw [foundAfter, found]
      exact .same _
    refine safe_bind.mpr (safe_writeEntry sound kept ?_ ⟨failed _ _, failed _ _⟩)
    refine ih soundAfter foundAfter (by omega) fun after filling => ?_
    refine written after ⟨filling.sound, filling.head, filling.published.trans ?_⟩
    rw [write_chunk]

theorem retired_eq_nil {head : Head} {candidate : Option Blob} (valid : head.valid = true)
    (state : head.state = .pending previous candidate) : head.retired = [] := by
  simp only [Head.valid, Bool.and_eq_true, state, HeadState.valid, decide_eq_true_eq] at valid
  exact valid.1.1.2.1.1

/-- A pending head may name its candidate. -/
theorem Sound.candidate (call : Call) (sound : store.Sound keyring) {head : Head}
    {candidate : Option Blob} (found : store.headOf keyring.entries = some head)
    (state : head.state = .pending previous candidate)
    (agrees : ∀ existing, candidate = some existing → existing = blob)
    (written : store.readHead (some bytes) =
      .ok (some { head with state := .pending previous (some blob) })) :
    store.Sound (store.write call keyring .head (some bytes)) ∧
      store.headOf (store.write call keyring .head (some bytes)).entries =
        some { head with state := .pending previous (some blob) } := by
  refine sound.head written (fun other index there => ?_) nofun (Or.inl (by rw [found]; rfl))
  obtain ⟨owner, member, rest⟩ := sound.owner found there
  refine ⟨owner, ?_, rest⟩
  simp only [Head.blobs, state, HeadState.blobs, List.mem_append, Option.mem_toList] at member ⊢
  rcases member with retired | before | existing
  · exact Or.inl retired
  · exact Or.inr (Or.inl before)
  · exact Or.inr (Or.inr (congrArg some (agrees owner existing).symm))

/-- A candidate whose chunks can all be read may become live. -/
theorem Sound.saved {fence : CredentialFence} {credentials : Credentials}
    (sound : store.Sound keyring) {head : Head} {previous : Option Blob} {blob : Blob}
    {bytes : Secret} (found : store.headOf keyring.entries = some head)
    (fenced : head.mark = (fence.revision, fence.operation)) (nothing : head.retired = [])
    (state : head.state = .pending previous (some blob))
    (contents : store.contents keyring.entries blob = .ok credentials)
    (written : store.readHead (some bytes) =
      .ok (some { head with state := .live blob, retired := previous.toList })) :
    store.Sound (store.write (.save fence credentials) keyring .head (some bytes)) ∧
      store.headOf (store.write (.save fence credentials) keyring .head (some bytes)).entries =
        some { head with state := .live blob, retired := previous.toList } ∧
      (store.write (.save fence credentials) keyring .head (some bytes)).published =
        some (head.mark, credentials) := by
  have dead : (store.headOf keyring.entries).bind Head.liveMark = none := by
    rw [found, Option.bind_some, Head.liveMark, state]
  have goes : store.Sound (store.write (.save fence credentials) keyring .head (some bytes)) ∧
      store.headOf (store.write (.save fence credentials) keyring .head (some bytes)).entries =
        some { head with state := .live blob, retired := previous.toList } := by
    refine sound.head written (fun other index there => ?_) (fun live now => ?_)
      (Or.inl (by rw [found]; rfl))
    · obtain ⟨owner, member, rest⟩ := sound.owner found there
      refine ⟨owner, ?_, rest⟩
      simpa only [Head.blobs, nothing, state, HeadState.blobs, List.nil_append,
        Option.toList_some] using member
    · cases now
      refine ⟨credentials, ?_, contents⟩
      rw [dead]
      exact (if_neg nofun).trans (congrArg (fun mark => some (mark, credentials)) fenced.symm)
  refine ⟨goes.1, goes.2, ?_⟩
  rw [write_head written, dead, @liveMark_of_live _ blob rfl]
  simp only [reduceCtorEq, or_self, if_false]
  exact congrArg (fun mark => some (mark, credentials)) fenced.symm

variable {credentials : Credentials}

theorem publish_safe {head : Head} {candidate : Option Blob} (sound : store.Sound keyring)
    (found : store.headOf keyring.entries = some head)
    (fenced : head.mark = (fence.revision, fence.operation))
    (state : head.state = .pending previous candidate)
    (agrees : ∀ existing, candidate = some existing → existing = blob)
    (count : blob.chunks = divCeil bytes.length blob.layout.chunkBytes) :
    store.SafeCall (.save fence credentials)
      (store.publish head previous blob bytes credentials) keyring := by
  have failed : ∀ failure after, store.Failed after (.save fence credentials) failure :=
    fun _ _ => failed_of_ne nofun
  have nothing := retired_eq_nil (headOf_eq_some found) state
  -- The candidate is named before any of its chunks is written.
  refine safe_bind.mpr (safe_writeHead sound ?_ (failed _ _) (failed _ _))
  rintro named ⟨json, read, rfl⟩
  obtain ⟨soundNamed, foundNamed⟩ :=
    sound.candidate (.save fence credentials) found state agrees read
  refine ⟨⟨soundNamed, ?_⟩, ?_, failed _ _⟩
  · rw [found, foundNamed]
    exact .candidate blob state
  refine safe_bind.mpr (safe_writeChunks soundNamed foundNamed ?_ nofun ?_ ?_ failed)
  · exact List.mem_append_right _ (List.mem_append_right _ List.mem_cons_self)
  · rw [length_pieces, ← count, Nat.zero_add]
  intro filled filling
  refine safe_bind.mpr (safe_readBlob filling.sound ?_ (fun _ _ => failed _ _) (failed _ _))
  intro reread contents
  split_ifs with other
  · exact failed _ _
  -- The head goes live only when all of the candidate has been read back.
  refine safe_bind.mpr (safe_writeHead filling.sound ?_ (failed _ _) (failed _ _))
  rintro saved ⟨json, readSaved, rfl⟩
  cases not_not.mp other
  obtain ⟨soundSaved, foundSaved, published⟩ :=
    @Sound.saved store filled fence credentials filling.sound _ _ _ _ filling.head fenced nothing rfl
      contents readSaved
  refine ⟨⟨soundSaved, ?_⟩, ?_, failed _ _⟩
  · rw [filling.head, foundSaved]
    exact .published blob fence credentials rfl rfl (Prod.mk.inj fenced)
  refine safe_bind.mpr (safe_cleanupPending soundSaved foundSaved fun after pending tidy _ => ?_)
  obtain ⟨final, here, live, same⟩ := tidy.live rfl
  refine ⟨final, blob, here, live, same.trans fenced, congrArg Prod.fst fenced, ?_⟩
  rw [same]
  exact tidy.published.trans published

theorem save_safe (sound : store.Sound keyring) :
    store.SafeCall (.save fence credentials) (store.save fence credentials) keyring := by
  have failed : ∀ failure after, store.Failed after (.save fence credentials) failure :=
    fun _ _ => failed_of_ne nofun
  rw [SafeCall, save]
  split_ifs
  · exact failed _ _
  refine safe_bind.mpr (safe_lift (fun bytes _ => ?_) fun failure _ => failed failure _)
  refine safe_bind.mpr (safe_fencedHead sound (fun head found fenced => ?_)
    fun failure => failed failure _)
  cases state : head.state with
  | live committed =>
    dsimp only
    split_ifs
    · exact failed _ _
    refine safe_bind.mpr (safe_readBlob sound (fun reread contents => ?_) (fun _ _ => failed _ _)
      (failed _ _))
    split_ifs with other
    · exact failed _ _
    cases not_not.mp other
    obtain ⟨original, published, same⟩ := sound.live head committed found state
    rw [contents] at same
    cases Except.ok.inj same
    refine safe_bind.mpr (safe_cleanupPending sound found fun after pending tidy _ => ?_)
    obtain ⟨final, here, live, mark⟩ := tidy.live state
    refine ⟨final, committed, here, live, mark.trans fenced, congrArg Prod.fst fenced, ?_⟩
    rw [mark]
    exact tidy.published.trans published
  | pending previous candidate =>
    dsimp only
    split_ifs with other
    · exact failed _ _
    refine publish_safe sound found fenced state (fun existing named => ?_) rfl
    subst named
    simpa only [Option.any_some, decide_eq_true_eq, ne_eq, not_not] using other
  | deleted => exact failed _ _

theorem program_safe (sound : store.Sound keyring) :
    (call : Call) → store.SafeCall call (call.program store) keyring
  | .status => status_safe sound
  | .load => load_safe sound
  | .beginChange _ => beginChange_safe sound
  | .save _ _ => save_safe sound
  | .reconcile _ => reconcile_safe sound
  | .delete _ => delete_safe sound
  | .flushCleanup => flushCleanup_safe sound

/-! ### Runs -/

/-- The entries of an account, and the operation that is at work on them if there is one. -/
structure System where
  keyring : Keyring
  running : Option (Σ call : Call, SecureProgram call.Result)

/-- Operations follow one another, as the gate has it; each may be stopped anywhere. -/
inductive Step (store : CredentialStore) : System → System → Prop
  | call {keyring : Keyring} (call : Call) :
    Step store ⟨keyring, none⟩ ⟨keyring, some ⟨call, call.program store⟩⟩
  | work {keyring after : Keyring} {call : Call} {program rest : SecureProgram call.Result}
      (taken : Program.Step (store.effect call) (program, keyring) (rest, after)) :
    Step store ⟨keyring, some ⟨call, program⟩⟩ ⟨after, some ⟨call, rest⟩⟩
  /-- The operation has returned or failed, or the process has died. -/
  | stopped {keyring : Keyring} {running : Σ call : Call, SecureProgram call.Result} :
    Step store ⟨keyring, some running⟩ ⟨keyring, none⟩

/-- What the operation at work tells, once it has come to its end. -/
def Told (store : CredentialStore) (system : System) : Prop :=
  match system.running with
  | some ⟨call, .finish result⟩ => store.Returned system.keyring call result
  | some ⟨call, .fail failure⟩ => store.Failed system.keyring call failure
  | _ => True

/-- A system whose entries are sound, and whose operation is safe. -/
structure SafeSystem (store : CredentialStore) (system : System) : Prop where
  sound : store.Sound system.keyring
  safe : ∀ call program, system.running = some ⟨call, program⟩ →
    store.SafeCall call program system.keyring

theorem sound_empty (store : CredentialStore) : store.Sound Keyring.empty where
  readable := rfl
  owned := fun _ _ there => absurd rfl there
  live := nofun
  marked := rfl
  ordered := .nil

theorem step_safe {before after : System} (taken : Step store before after)
    (safe : store.SafeSystem before) : store.SafeSystem after := by
  cases taken with
  | call call =>
    refine ⟨safe.sound, fun other program running => ?_⟩
    cases Option.some.inj running
    exact program_safe safe.sound call
  | work taken =>
    obtain ⟨kept, rest⟩ := (safe.safe _ _ rfl).step taken
    refine ⟨kept.1, fun other program running => ?_⟩
    cases Option.some.inj running
    exact rest
  | stopped => exact ⟨safe.sound, nofun⟩

variable {system : System}

theorem run_safe (run : ReflTransGen (Step store) ⟨Keyring.empty, none⟩ system) :
    store.SafeSystem system := by
  have initially : store.SafeSystem ⟨Keyring.empty, none⟩ := ⟨sound_empty store, nofun⟩
  exact @Runs.invariant System store.Step store.SafeSystem (fun _ _ => step_safe) _ _ run initially

theorem told_of_safe (safe : store.SafeSystem system) : store.Told system := by
  rw [Told]
  split
  · rename_i call result running
    exact safe.safe call _ running
  · rename_i call failure running
    exact safe.safe call _ running
  · trivial

/-- What a step does to the head: nothing, or what the operation at work may do to it. -/
def Advanced (store : CredentialStore) (before after : System) : Prop :=
  store.headOf after.keyring.entries = store.headOf before.keyring.entries ∨
    ∃ call program, before.running = some ⟨call, program⟩ ∧
      Advance call (store.headOf before.keyring.entries) (store.headOf after.keyring.entries)

theorem step_advanced {before after : System} (taken : Step store before after)
    (safe : store.SafeSystem before) : store.Advanced before after := by
  cases taken with
  | call | stopped => exact Or.inl rfl
  | work taken =>
    exact Or.inr ⟨_, _, rfl, ((safe.safe _ _ rfl).step taken).1.2⟩

theorem Advance.revision_le {before after : Option Head} (advance : Advance call before after) :
    (before.map (·.revision)).getD 0 ≤ (after.map (·.revision)).getD 0 := by
  cases advance with
  | opened | buried => exact Nat.le_succ _
  | _ => exact le_rfl

/-- The revision of the head. -/
def revision (store : CredentialStore) (system : System) : Nat :=
  ((store.headOf system.keyring.entries).map (·.revision)).getD 0

theorem run_revision_le {later : System} (safe : store.SafeSystem system)
    (run : ReflTransGen (Step store) system later) :
    store.revision system ≤ store.revision later := by
  have both : store.SafeSystem later ∧ store.revision system ≤ store.revision later := by
    refine @Runs.invariant System store.Step
      (fun state => store.SafeSystem state ∧ store.revision system ≤ store.revision state)
      (fun before after taken holds => ⟨step_safe taken holds.1, ?_⟩) _ _ run ⟨safe, le_rfl⟩
    refine holds.2.trans ?_
    rw [revision, revision]
    rcases step_advanced taken holds.1 with same | ⟨_, _, _, advance⟩
    · rw [same]
    · exact advance.revision_le
  exact both.2

/-- Over every run the entries are sound: the head names every chunk, a live head is that of
credentials that can be read as they were saved, and the marks of the heads are all different
with rising revisions. What operations tell is so, a head changes only as they may change it,
and its revision never decreases. -/
theorem credentials_are_safe (store : CredentialStore) (system : System)
    (run : ReflTransGen (Step store) ⟨Keyring.empty, none⟩ system) :
    store.Sound system.keyring ∧ system.keyring.marks.Nodup ∧ store.Told system ∧
      (∀ next, Step store system next → store.Advanced system next) ∧
      ∀ later, ReflTransGen (Step store) system later →
        store.revision system ≤ store.revision later := by
  have safe := run_safe run
  refine ⟨safe.sound, ?_, told_of_safe safe, fun next taken => step_advanced taken safe,
    fun later => run_revision_le safe⟩
  exact safe.sound.ordered.imp fun earlier same =>
    absurd (congrArg Prod.fst same) (Nat.ne_of_gt earlier)

/-! ### A run with a write that is lost -/

/-- What the keyring does at one call: whether it does what it is asked, and whether it says so. -/
structure Turn where
  done : Bool
  told : Bool

/-- The answer at a turn and the keyring after it. -/
def respond (store : CredentialStore) (call : Call) (turn : Turn) (keyring : Keyring) :
    (op : SecureOp) → op.Answer × Keyring
  | .get key => (.ok (keyring.entries key), keyring)
  | .set key bytes => (if turn.told then .ok () else .error .unavailable,
      if turn.done then store.write call keyring key (some bytes) else keyring)
  | .delete key => (if turn.told then .ok () else .error .unavailable,
      if turn.done then store.write call keyring key none else keyring)
  | .newUuid => (5, keyring)

/-- What is left of a program after some turns, and the keyring then. -/
def work (store : CredentialStore) (call : Call) :
    List Turn → SecureProgram call.Result → Keyring → SecureProgram call.Result × Keyring
  | turn :: turns, .call op next, keyring =>
    work store call turns (next (store.respond call turn keyring op).1)
      (store.respond call turn keyring op).2
  | _, program, keyring => (program, keyring)

theorem respond_effect (turn : Turn) (op : SecureOp) :
    store.effect call op keyring (store.respond call turn keyring op).1
      (store.respond call turn keyring op).2 := by
  cases op with
  | get key => exact ⟨rfl, .inl rfl⟩
  | set | delete => cases done : turn.done <;> simp [effect, respond, done]
  | newUuid => rfl

theorem work_run (turns : List Turn) (program : SecureProgram call.Result) :
    ReflTransGen store.Step ⟨keyring, some ⟨call, program⟩⟩
      ⟨(store.work call turns program keyring).2,
        some ⟨call, (store.work call turns program keyring).1⟩⟩ := by
  induction turns generalizing program keyring with
  | nil => cases program <;> exact .refl
  | cons turn turns ih =>
    cases program with
    | finish | fail => exact .refl
    | call op next =>
      exact (ReflTransGen.single (.work (.call (respond_effect turn op)))).trans
        (ih _)

/-- The keyring after some calls, each with the turns that it is given. -/
def rehearse (store : CredentialStore) : List (Call × List Turn) → Keyring → Keyring
  | [], keyring => keyring
  | (call, turns) :: calls, keyring =>
    rehearse store calls (store.work call turns (call.program store) keyring).2

theorem rehearse_run (calls : List (Call × List Turn)) :
    ReflTransGen store.Step ⟨keyring, none⟩ ⟨store.rehearse calls keyring, none⟩ := by
  induction calls generalizing keyring with
  | nil => exact .refl
  | cons first calls ih =>
    exact (((ReflTransGen.single (.call first.1)).trans (work_run first.2 _)).tail
      .stopped).trans ih

def demoDigest (bytes : Secret) : String :=
  String.ofList (List.replicate 64 (Char.ofNat ('0'.toNat + bytes.sum.toNat % 10)))

def blobBytes (blob : Blob) : Secret :=
  [.ofNat blob.id.toNat, .ofNat blob.chunks, if blob.layout = .single then 1 else 0,
    (blob.digest.toList.headD ' ').toNat.toUInt8]

def parseBlob : Secret → Option Blob
  | [id, chunks, layout, digit] => some ⟨.ofNat 128 id.toNat, chunks.toNat, String.ofList
      (List.replicate 64 (Char.ofNat digit.toNat)), if layout = 1 then .single else .chunks⟩
  | _ => none

/-- The state of a head, the number of the blobs that it names first, and the other ones. -/
def stateBytes (head : Head) : UInt8 × List Blob × List Blob :=
  match head.state with
  | .live blob => (0, [blob], [])
  | .pending previous candidate => (1, previous.toList, candidate.toList)
  | .deleted => (2, [], [])

def headBytes (head : Head) : Secret :=
  let (tag, first, second) := stateBytes head
  [.ofNat head.schema, .ofNat head.revision, .ofNat head.operation.toNat, tag,
      .ofNat first.length, .ofNat second.length] ++
    (first ++ second ++ head.retired).flatMap blobBytes

def parseBytes : Secret → Option Head
  | schema :: revision :: operation :: tag :: first :: second :: rest => do
    let blobs ← (rest.toChunks 4).mapM parseBlob
    let second := (blobs.drop first.toNat).take second.toNat
    let state ← match tag with
      | 0 => HeadState.live <$> blobs.head?
      | 1 => some (.pending (blobs.take first.toNat).head? second.head?)
      | _ => some .deleted
    return ⟨schema.toNat, revision.toNat, .ofNat 128 operation.toNat, state,
      blobs.drop (first.toNat + second.length)⟩
  | _ => none

def demoCredentials : Credentials := ⟨"microsoft", none, 1, "minecraft", 2⟩

/-- A store that writes each number of a head as one byte, if it fits, and knows one credential. -/
def demoStore : CredentialStore where
  headJson head := if parseBytes (headBytes head) = some head then some (headBytes head) else none
  parseHead := parseBytes
  parseHead_headJson head bytes written := by
    split at written
    · rename_i read
      rw [← Option.some.inj written, read]
    · cases written
  credentialsJson stored :=
    if stored = ⟨1, demoCredentials⟩ then some (List.replicate 1000 7) else none
  parseCredentials bytes :=
    if bytes = List.replicate 1000 7 then some ⟨1, demoCredentials⟩ else none
  digest := demoDigest
  profile := 1
  account := 2
  macos := false

def demoFence : CredentialFence := ⟨1, 2, 1, 5⟩

/-- Turns at which everything is done. -/
def done (turns : Nat) : List Turn := List.replicate turns ⟨true, true⟩

/-- A change is begun; a save stops where its second chunk is lost, and another one goes through,
although its first chunk is reported as lost. -/
def demoCalls : List (Call × List Turn) :=
  [(.beginChange 0, done 4),
    (.save demoFence demoCredentials, done 5 ++ ⟨false, false⟩ :: done 1),
    (.save demoFence demoCredentials, done 3 ++ ⟨true, false⟩ :: done 7)]

/-- The load that comes after, and what it leaves. -/
def demoLoad : SecureProgram (Option StoredCredentials) × Keyring :=
  demoStore.work .load (done 3) demoStore.load (demoStore.rehearse demoCalls Keyring.empty)

def finished {Value : Type} : SecureProgram Value → Option Value
  | .finish value => some value
  | _ => none

theorem finished_eq_some {Value : Type} {program : SecureProgram Value} {value : Value}
    (ended : finished program = some value) : program = .finish value := by
  cases program with
  | finish other => rw [Option.some.inj ended]
  | _ => cases ended

theorem credentials_are_safe_after_a_lost_write :
    demoLoad.1 = .finish (some ⟨1, demoCredentials⟩) ∧ demoStore.Sound demoLoad.2 ∧
      demoStore.Returned demoLoad.2 .load (some ⟨1, demoCredentials⟩) := by
  have loaded : demoLoad.1 = .finish (some ⟨1, demoCredentials⟩) :=
    finished_eq_some (by decide +kernel)
  unfold demoLoad at loaded ⊢
  have run := ((@rehearse_run demoStore Keyring.empty demoCalls).tail (.call .load)).trans
    (@work_run demoStore .load _ (done 3) demoStore.load)
  generalize demoStore.work .load _ _ _ = outcome at loaded run ⊢
  obtain ⟨sound, -, told, -⟩ := credentials_are_safe demoStore _ run
  rw [loaded] at told
  exact ⟨loaded, sound, told⟩

end CredentialStore

end Axial.Accounts
