/-
This file shows that account snapshots stay valid and that captures are free of ABA. A
command can do one of three things to the records: leave them, stamp one with the new
revision, or remove one. The validator looks at everything that is written, and what is
written is read back; so every snapshot is valid, and the revision rises exactly when the
snapshot changes. A record that is found again later was there all the time, since one that
was touched carries a revision that is newer than every capture taken before.
-/

import Axial.Accounts.Directory
import Axial.Library.History

namespace Axial.Accounts

open Fallible List Option

variable {packages : Packages} {snapshot before next after : AccountSnapshot} {revision : Nat}

/-! ### What an edit can do -/

/-- What a command can do to the records, given the revision that the snapshot will get. -/
inductive Edited (before : AccountSnapshot) (revision : Nat) (next : AccountSnapshot) : Prop
  | kept (accounts : next.accounts = before.accounts)
  | stamped (record : AccountRecord) (fresh : record.accountRevision = revision)
      (stored : record ∈ next.accounts)
      (others : ∀ other ∈ next.accounts, other = record ∨ other ∈ before.accounts)
  | removed (index : Nat) (inside : index < before.accounts.length)
      (accounts : next.accounts = before.accounts.eraseIdx index)

/-- Commands leave it to the transaction to count the revisions. -/
structure Uncounted (before next : AccountSnapshot) : Prop where
  revision : next.revision = before.revision
  selectionRevision : next.selectionRevision = before.selectionRevision

theorem Uncounted.refl : Uncounted snapshot snapshot := ⟨rfl, rfl⟩

variable {account : AccountRecord} {id : AccountId}

theorem find_eq_some (found : snapshot.find id = some account) :
    account ∈ snapshot.accounts ∧ account.accountId = id :=
  ⟨mem_of_find?_eq_some found, by simpa only [decide_eq_true_eq] using find?_some found⟩

variable {index : Nat}

theorem position_eq_ok (found : position snapshot id = .ok index) :
    ∃ account, snapshot.accounts[index]? = some account ∧ account.accountId = id := by
  rw [position] at found
  split at found
  · rename_i place search
    obtain ⟨inside, matching, -⟩ := findIdx?_eq_some_iff_getElem.mp search
    cases Except.ok.inj found
    exact ⟨_, getElem?_eq_getElem inside, of_decide_eq_true matching⟩
  · cases found

variable {accounts : List AccountRecord}

theorem index_lt (found : accounts[index]? = some account) : index < accounts.length :=
  (List.getElem?_eq_some_iff.mp found).1

theorem selectIdentity_edited (id : Option AccountId) (edited : Edited before revision next) :
    Edited before revision (selectIdentity next id) := by
  cases edited with
  | kept accounts => exact .kept accounts
  | stamped record fresh stored others => exact .stamped record fresh stored others
  | removed index inside accounts => exact .removed index inside accounts

theorem selectIdentity_uncounted (id : Option AccountId) (uncounted : Uncounted before next) :
    Uncounted before (selectIdentity next id) := ⟨uncounted.revision, uncounted.selectionRevision⟩

variable {record : AccountRecord}

/-- A record takes the place of another. -/
theorem replaced_edited (inside : index < before.accounts.length)
    (fresh : record.accountRevision = revision)
    (accounts : next.accounts = before.accounts.set index record) : Edited before revision next :=
  .stamped record fresh (accounts ▸ mem_set inside record)
    fun _ member => (mem_or_eq_of_mem_set (accounts ▸ member)).symm

/-- A record is added. -/
theorem added_edited (fresh : record.accountRevision = revision)
    (accounts : next.accounts = before.accounts ++ [record]) : Edited before revision next := by
  refine .stamped record fresh ?_ fun other member => ?_
  · rw [accounts]
    exact mem_append_right _ mem_cons_self
  · rw [accounts] at member
    rcases mem_append.mp member with old | new
    · exact Or.inr old
    · exact Or.inl (mem_singleton.mp new)

theorem placed_edited {existing : Option Nat}
    (inside : ∀ index, existing = some index → index < before.accounts.length)
    (fresh : record.accountRevision = revision)
    (accounts : next.accounts = placeRecord before.accounts existing record) :
    Edited before revision next := by
  cases existing with
  | none => exact added_edited fresh accounts
  | some index => exact replaced_edited (inside index rfl) fresh accounts

theorem removeIdentity_edited (inside : index < snapshot.accounts.length) :
    Edited snapshot revision (removeIdentity snapshot index) ∧
      Uncounted snapshot (removeIdentity snapshot index) := by
  rw [removeIdentity, getElem?_eq_getElem inside]
  dsimp only
  split_ifs
  · exact ⟨.removed index inside rfl, rfl, rfl⟩
  · exact ⟨.removed index inside rfl, rfl, rfl⟩

variable {now : String}

theorem renameOffline_edited {name : String}
    (renamed : renameOffline packages before revision id name now = .ok next) :
    Edited before revision next ∧ Uncounted before next := by
  obtain ⟨index, -, rest⟩ := bind_eq_ok.mp renamed
  split at rest
  · cases rest
  · rename_i account found
    have inside := index_lt found
    obtain ⟨-, rest⟩ := ite_throw_eq_ok.mp rest
    by_cases same : account.displayName = name
    · rw [if_pos same] at rest
      cases Except.ok.inj rest
      exact ⟨.kept rfl, .refl⟩
    · rw [if_neg same] at rest
      obtain ⟨nextId, -, rest⟩ := bind_eq_ok.mp rest
      obtain ⟨-, rest⟩ := ite_throw_eq_ok.mp rest
      cases Except.ok.inj rest
      split_ifs
      · exact ⟨selectIdentity_edited _ (replaced_edited inside rfl rfl), rfl, rfl⟩
      · exact ⟨replaced_edited inside rfl rfl, rfl, rfl⟩

variable {identity : MicrosoftIdentity}

theorem upsertMicrosoft_edited
    (upserted : upsertMicrosoft packages before revision id identity now = .ok next) :
    Edited before revision next ∧ Uncounted before next := by
  obtain ⟨_, -, rest⟩ := bind_eq_ok.mp upserted
  obtain ⟨-, rest⟩ := ite_throw_eq_ok.mp rest
  obtain ⟨-, rest⟩ := ite_throw_eq_ok.mp rest
  split at rest
  · cases rest
  · cases Except.ok.inj rest
    refine ⟨placed_edited (fun index found => ?_) rfl rfl, rfl, rfl⟩
    exact (findIdx?_eq_some_iff_getElem.mp found).1

variable {mutation : Mutation} {expected : AccountPreconditions} {username : String}

theorem createOffline_edited
    (accepted : createOffline packages username expected now = .ok mutation)
    (made : mutation before revision = .ok next) :
    Edited before revision next ∧ Uncounted before next := by
  obtain ⟨name, -, rest⟩ := bind_eq_ok.mp accepted
  cases Except.ok.inj rest
  obtain ⟨_, -, rest⟩ := bind_eq_ok.mp made
  obtain ⟨id, -, rest⟩ := bind_eq_ok.mp rest
  split_ifs at rest
  · cases Except.ok.inj rest
    exact ⟨.kept rfl, rfl, rfl⟩
  · obtain ⟨_, -, rest⟩ := bind_eq_ok.mp rest
    cases Except.ok.inj rest
    exact ⟨selectIdentity_edited _ (added_edited rfl rfl), rfl, rfl⟩

variable {accountId : String}

theorem renameOfflineAccount_edited
    (accepted : renameOfflineAccount packages accountId username expected now = .ok mutation)
    (made : mutation before revision = .ok next) :
    Edited before revision next ∧ Uncounted before next := by
  obtain ⟨name, -, rest⟩ := bind_eq_ok.mp accepted
  obtain ⟨id, -, rest⟩ := bind_eq_ok.mp rest
  cases Except.ok.inj rest
  obtain ⟨_, -, rest⟩ := bind_eq_ok.mp made
  exact renameOffline_edited rest

theorem select_edited (accepted : select packages accountId expected = .ok mutation)
    (made : mutation before revision = .ok next) :
    Edited before revision next ∧ Uncounted before next := by
  obtain ⟨id, -, rest⟩ := bind_eq_ok.mp accepted
  cases Except.ok.inj rest
  obtain ⟨_, -, rest⟩ := bind_eq_ok.mp made
  obtain ⟨_, -, rest⟩ := bind_eq_ok.mp rest
  cases Except.ok.inj rest
  exact ⟨.kept rfl, rfl, rfl⟩

theorem commitMicrosoft_edited {expectedSelectionRevision : Nat}
    (accepted : commitMicrosoft packages expectedSelectionRevision identity now = .ok mutation)
    (made : mutation before revision = .ok next) :
    Edited before revision next ∧ Uncounted before next := by
  obtain ⟨id, -, rest⟩ := bind_eq_ok.mp accepted
  cases Except.ok.inj rest
  obtain ⟨_, -, rest⟩ := bind_eq_ok.mp made
  obtain ⟨upserted, done, rest⟩ := bind_eq_ok.mp rest
  cases Except.ok.inj rest
  obtain ⟨edited, uncounted⟩ := upsertMicrosoft_edited done
  exact ⟨selectIdentity_edited _ edited, selectIdentity_uncounted _ uncounted⟩

variable {capture : CapturedAccount} {selectionBound : Bool}

theorem refreshMicrosoft_edited
    (accepted : refreshMicrosoft packages capture identity selectionBound now = .ok mutation)
    (made : mutation before revision = .ok next) :
    Edited before revision next ∧ Uncounted before next := by
  obtain ⟨id, -, rest⟩ := bind_eq_ok.mp accepted
  obtain ⟨-, rest⟩ := ite_throw_eq_ok.mp rest
  obtain ⟨-, rest⟩ := ite_throw_eq_ok.mp rest
  cases Except.ok.inj rest
  obtain ⟨_, -, rest⟩ := bind_eq_ok.mp made
  obtain ⟨-, rest⟩ := ite_throw_eq_ok.mp rest
  exact upsertMicrosoft_edited rest

theorem syncActiveOfflineUsername_edited
    (accepted : syncActiveOfflineUsername packages username now = .ok mutation)
    (made : mutation before revision = .ok next) :
    Edited before revision next ∧ Uncounted before next := by
  obtain ⟨name, -, rest⟩ := bind_eq_ok.mp accepted
  cases Except.ok.inj rest
  dsimp only at made
  split at made
  · cases Except.ok.inj made
    exact ⟨.kept rfl, .refl⟩
  · split at made
    · cases Except.ok.inj made
      exact ⟨.kept rfl, .refl⟩
    · obtain ⟨nextId, -, rest⟩ := bind_eq_ok.mp made
      split at rest
      · cases Except.ok.inj rest
        exact ⟨.kept rfl, rfl, rfl⟩
      · exact renameOffline_edited rest

theorem selectLaunchMode_edited {mode : LaunchAuthMode}
    (made : selectLaunchMode mode before revision = .ok next) :
    Edited before revision next ∧ Uncounted before next := by
  rw [selectLaunchMode] at made
  split at made
  · cases Except.ok.inj made
    exact ⟨.kept rfl, .refl⟩
  · split at made
    · cases Except.ok.inj made
      exact ⟨.kept rfl, .refl⟩
    · split at made
      · cases made
      · cases Except.ok.inj made
        exact ⟨.kept rfl, rfl, rfl⟩

theorem removeOffline_eq_ok (accepted : removeOffline packages accountId expected = .ok mutation)
    (made : mutation before revision = .ok next) :
    ∃ id index, AccountId.parse packages accountId = .ok id ∧
      position before id = .ok index ∧ next = removeIdentity before index := by
  obtain ⟨id, parsed, rest⟩ := bind_eq_ok.mp accepted
  cases Except.ok.inj rest
  obtain ⟨_, -, rest⟩ := bind_eq_ok.mp made
  obtain ⟨index, found, rest⟩ := bind_eq_ok.mp rest
  obtain ⟨-, rest⟩ := ite_throw_eq_ok.mp rest
  exact ⟨id, index, parsed, found, (Except.ok.inj rest).symm⟩

theorem removeMicrosoft_eq_ok (accepted : removeMicrosoft capture selectionBound = .ok mutation)
    (made : mutation before revision = .ok next) :
    ∃ index, position before capture.record.accountId = .ok index ∧
      next = removeIdentity before index := by
  obtain ⟨-, rest⟩ := ite_throw_eq_ok.mp accepted
  cases Except.ok.inj rest
  obtain ⟨_, -, rest⟩ := bind_eq_ok.mp made
  obtain ⟨index, found, rest⟩ := bind_eq_ok.mp rest
  exact ⟨index, found, (Except.ok.inj rest).symm⟩

theorem removeIdentity_edited_of_position (found : position before id = .ok index)
    (removal : next = removeIdentity before index) :
    Edited before revision next ∧ Uncounted before next := by
  obtain ⟨account, here, -⟩ := position_eq_ok found
  rw [removal]
  exact removeIdentity_edited (index_lt here)

variable {change : Change}

/-- Whatever the command is, it does one of the three things. -/
theorem mutation_edited (accepted : change.mutation packages = .ok mutation)
    (made : mutation before revision = .ok next) :
    Edited before revision next ∧ Uncounted before next := by
  cases change with
  | createOffline => exact createOffline_edited accepted made
  | renameOffline => exact renameOfflineAccount_edited accepted made
  | select => exact select_edited accepted made
  | removeOffline =>
    obtain ⟨id, index, -, found, removal⟩ := removeOffline_eq_ok accepted made
    exact removeIdentity_edited_of_position found removal
  | commitMicrosoft => exact commitMicrosoft_edited accepted made
  | refreshMicrosoft => exact refreshMicrosoft_edited accepted made
  | invalidateMicrosoft | removeMicrosoft =>
    obtain ⟨index, found, removal⟩ := removeMicrosoft_eq_ok accepted made
    exact removeIdentity_edited_of_position found removal
  | syncActiveOfflineUsername => exact syncActiveOfflineUsername_edited accepted made
  | selectLaunchMode mode =>
    cases Except.ok.inj accepted
    exact selectLaunchMode_edited made

/-! ### Removals -/

/-- The account that a command takes away. -/
def Change.removes (packages : Packages) : Change → Option AccountId
  | .removeOffline accountId _ => (AccountId.parse packages accountId).toOption
  | .invalidateMicrosoft capture => some capture.record.accountId
  | .removeMicrosoft capture => some capture.record.accountId
  | _ => none

/-- No two records are of one account. -/
def Distinct (accounts : List AccountRecord) : Prop := (accounts.map (·.accountId)).Nodup

/-- What is left of a snapshot without one account. If it was selected, the selection falls back
to a stored offline account, or to none where there is none. -/
structure Removal (id : AccountId) (before after : AccountSnapshot) : Prop where
  gone : ∀ account ∈ after.accounts, account.accountId ≠ id
  others : ∀ account ∈ before.accounts, account.accountId ≠ id → account ∈ after.accounts
  elsewhere : before.activeAccountId ≠ some id →
    after.activeAccountId = before.activeAccountId ∧
      after.launchAuthMode = before.launchAuthMode
  fallback : before.activeAccountId = some id →
    match after.activeAccountId with
    | none => after.launchAuthMode = .offline ∧ ∀ account ∈ after.accounts, account.kind ≠ .offline
    | some other => ∃ account ∈ after.accounts, account.accountId = other ∧
        account.kind = .offline ∧ after.launchAuthMode = account.kind.launchMode

theorem find_of_mem (distinct : Distinct snapshot.accounts) (member : account ∈ snapshot.accounts) :
    snapshot.find account.accountId = some account := by
  cases found : snapshot.find account.accountId with
  | none =>
    have absent := find?_eq_none.mp found account member
    simp only [decide_true, not_true_eq_false] at absent
  | some other =>
    obtain ⟨stored, same⟩ := find_eq_some found
    rw [inj_on_of_nodup_map distinct stored member same]

/-- Without the record at an index the others are left. -/
theorem mem_eraseIdx_iff (distinct : Distinct accounts) {removed : AccountRecord}
    (here : accounts[index]? = some removed) :
    account ∈ accounts.eraseIdx index ↔
      account ∈ accounts ∧ account.accountId ≠ removed.accountId := by
  rw [mem_eraseIdx_iff_getElem?]
  constructor
  · rintro ⟨place, other, there⟩
    refine ⟨mem_of_getElem? there, fun same => other ?_⟩
    have first : (accounts.map (·.accountId))[place]? = some account.accountId := by
      rw [getElem?_map, there, map_some]
    have second : (accounts.map (·.accountId))[index]? = some removed.accountId := by
      rw [getElem?_map, here, map_some]
    rw [same] at first
    exact (getElem?_inj (List.getElem?_eq_some_iff.mp first).1 distinct).mp
      (first.trans second.symm)
  · rintro ⟨member, other⟩
    obtain ⟨place, there⟩ := mem_iff_getElem?.mp member
    refine ⟨place, fun same => other ?_, there⟩
    rw [same, here] at there
    rw [Option.some.inj there]

theorem removeIdentity_removal (distinct : Distinct before.accounts)
    (found : position before id = .ok index) : Removal id before (removeIdentity before index) := by
  obtain ⟨removed, here, rfl⟩ := position_eq_ok found
  have members : ∀ account, account ∈ before.accounts.eraseIdx index ↔
      account ∈ before.accounts ∧ account.accountId ≠ removed.accountId :=
    fun account => mem_eraseIdx_iff distinct here
  have gone : ∀ account ∈ before.accounts.eraseIdx index, account.accountId ≠ removed.accountId :=
    fun account member => ((members account).mp member).2
  have others : ∀ account ∈ before.accounts, account.accountId ≠ removed.accountId →
      account ∈ before.accounts.eraseIdx index :=
    fun account member other => (members account).mpr ⟨member, other⟩
  rw [removeIdentity, here]
  dsimp only
  split_ifs with selected
  · refine ⟨gone, others, fun other => absurd selected other, fun _ => ?_⟩
    cases first : (before.accounts.eraseIdx index).find? fun account => account.kind = .offline with
    | none =>
      rw [map_none]
      refine ⟨rfl, fun account member offline => ?_⟩
      have absent := find?_eq_none.mp first account member
      simp only [offline, decide_true, not_true_eq_false] at absent
    | some account =>
      have stored := mem_of_find?_eq_some first
      have offline : account.kind = .offline := by
        simpa only [decide_eq_true_eq] using find?_some first
      have restDistinct : Distinct (before.accounts.eraseIdx index) :=
        distinct.sublist ((eraseIdx_sublist _ _).map _)
      refine ⟨account, stored, rfl, offline, ?_⟩
      rw [map_some, selectIdentity, bind_some]
      dsimp only
      rw [find_of_mem restDistinct stored]
      rfl
  · exact ⟨gone, others, fun _ => ⟨rfl, rfl⟩, fun selection => absurd selection selected⟩

theorem mutation_removal (distinct : Distinct before.accounts)
    (accepted : change.mutation packages = .ok mutation)
    (made : mutation before revision = .ok next) (removes : change.removes packages = some id) :
    Removal id before next := by
  cases change with
  | removeOffline accountId expected =>
    obtain ⟨parsed, index, spelt, found, removal⟩ := removeOffline_eq_ok accepted made
    rw [Change.removes, spelt] at removes
    cases Option.some.inj removes
    rw [removal]
    exact removeIdentity_removal distinct found
  | invalidateMicrosoft | removeMicrosoft =>
    obtain ⟨index, found, removal⟩ := removeMicrosoft_eq_ok accepted made
    cases Option.some.inj removes
    rw [removal]
    exact removeIdentity_removal distinct found
  | _ => exact nomatch removes

/-! ### Reading and writing -/

theorem mem_sortAccounts : account ∈ sortAccounts accounts ↔ account ∈ accounts :=
  (perm_insertionSort _ accounts).mem_iff

theorem length_sortAccounts (accounts : List AccountRecord) :
    (sortAccounts accounts).length = accounts.length :=
  (perm_insertionSort _ accounts).length_eq

theorem readAccount_text {row : Sigma fun _ : String => StoredAccount}
    (read : readAccount packages row = .ok account) : account.accountId.text = row.1 := by
  rw [readAccount] at read
  obtain ⟨-, read⟩ := ite_throw_eq_ok.mp read
  split at read
  · obtain ⟨same, read⟩ := ite_throw_eq_ok.mp read
    cases Except.ok.inj read
    exact not_not.mp same
  · obtain ⟨same, read⟩ := ite_throw_eq_ok.mp read
    cases Except.ok.inj read
    exact not_not.mp same
  · cases read

variable {tables : Tables}

/-- A snapshot that was read is valid, and its accounts have different identities as the rows
have different keys. -/
theorem readSnapshot_eq_ok (read : readSnapshot packages tables = .ok snapshot) :
    validateSnapshot packages snapshot = .ok () ∧ Distinct snapshot.accounts := by
  obtain ⟨accounts, rows, read⟩ := bind_eq_ok.mp read
  obtain ⟨active, -, read⟩ := bind_eq_ok.mp read
  obtain ⟨mode, -, read⟩ := bind_eq_ok.mp read
  obtain ⟨⟨⟩, valid, read⟩ := bind_eq_ok.mp read
  cases Except.ok.inj read
  refine ⟨valid, ?_⟩
  have texts : accounts.map (·.accountId.text) =
      (tables.accountDirectory.entries.take 257).map (·.1) :=
    map_of_mapM rows fun _ _ made => readAccount_text made
  have keys : ((tables.accountDirectory.entries.take 257).map (·.1)).Nodup :=
    List.Nodup.sublist ((take_sublist _ _).map _) tables.accountDirectory.nodupKeys
  have distinct : Distinct accounts := by
    rw [← texts] at keys
    refine List.Nodup.of_map (fun id : AccountId => id.text) ?_
    rwa [List.map_map]
  exact ((perm_insertionSort _ accounts).map _).nodup_iff.mpr distinct

section

variable (valid : validateSnapshot packages snapshot = .ok ())

include valid

theorem validateSnapshot_eq_ok :
    ∀ account ∈ snapshot.accounts, validAccount packages snapshot.revision account = true := by
  obtain ⟨checked, -⟩ := check_eq_ok.mp valid
  simp only [Bool.and_eq_true] at checked
  exact List.all_eq_true.mp checked.1.2

theorem selectionRevision_eq : snapshot.selectionRevision = snapshot.revision := by
  obtain ⟨checked, -⟩ := check_eq_ok.mp valid
  simp only [Bool.and_eq_true, decide_eq_true_eq] at checked
  exact checked.1.1.2

/-- No record is newer than its snapshot. -/
theorem accountRevision_le (member : account ∈ snapshot.accounts) :
    account.accountRevision ≤ snapshot.revision := by
  have checked := validateSnapshot_eq_ok valid account member
  simp only [validAccount, Bool.and_eq_true, decide_eq_true_eq] at checked
  omega

end

variable {written : Tables}

theorem writeSnapshot_eq_ok (wrote : writeSnapshot packages tables before next = .ok written) :
    readSnapshot packages written = .ok next := by
  obtain ⟨directory, -, wrote⟩ := bind_eq_ok.mp wrote
  obtain ⟨found, read, wrote⟩ := bind_eq_ok.mp wrote
  obtain ⟨same, wrote⟩ := ite_throw_eq_ok.mp wrote
  cases Except.ok.inj wrote
  rw [read, not_not.mp same]

/-! ### What a change does -/

/-- What is told of the accounts, without how often they were changed. -/
def AccountSnapshot.contents (snapshot : AccountSnapshot) :
    Option AccountId × LaunchAuthMode × List AccountRecord :=
  (snapshot.activeAccountId, snapshot.launchAuthMode, snapshot.accounts)

/-- What a change has done to a snapshot. -/
structure Made (packages : Packages) (change : Change) (before after : AccountSnapshot) : Prop where
  valid : validateSnapshot packages after = .ok ()
  counted : after = before ∨
    after.revision = before.revision + 1 ∧ after.contents ≠ before.contents
  stamped : ∀ record ∈ after.accounts,
    record ∈ before.accounts ∨ before.revision < record.accountRevision
  distinct : Distinct after.accounts
  removal : ∀ id, change.removes packages = some id → Removal id before after

/-- The snapshot that is written for an edited one. -/
def stamp (before edited : AccountSnapshot) : AccountSnapshot :=
  { edited with
    revision := before.revision + 1
    selectionRevision := before.revision + 1
    accounts := sortAccounts edited.accounts }

theorem mutateTransaction_eq_ok (read : readSnapshot packages tables = .ok before)
    (made : mutateTransaction packages tables mutation = .ok (written, after)) :
    ∃ edited, mutation before (before.revision + 1) = .ok edited ∧
      readSnapshot packages written = .ok after ∧
      ((edited = before ∧ after = before ∧ written = tables) ∨
        (edited ≠ before ∧ after = stamp before edited)) := by
  rw [mutateTransaction, read] at made
  obtain ⟨-, made⟩ := ite_throw_eq_ok.mp made
  obtain ⟨edited, edits, made⟩ := bind_eq_ok.mp made
  refine ⟨edited, edits, ?_⟩
  split_ifs at made with same
  · cases Except.ok.inj made
    exact ⟨read, Or.inl ⟨same, rfl, rfl⟩⟩
  · obtain ⟨_, -, made⟩ := bind_eq_ok.mp made
    obtain ⟨final, wrote, made⟩ := bind_eq_ok.mp made
    cases Except.ok.inj made
    exact ⟨writeSnapshot_eq_ok wrote, Or.inr ⟨same, rfl⟩⟩

variable {edited : AccountSnapshot}

/-- What was edited is told apart from what there was also once it is sorted. -/
theorem stamp_contents (valid : validateSnapshot packages before = .ok ())
    (edit : Edited before (before.revision + 1) edited) (uncounted : Uncounted before edited)
    (changed : edited ≠ before) : (stamp before edited).contents ≠ before.contents := by
  intro same
  simp only [AccountSnapshot.contents, stamp, Prod.mk.injEq] at same
  obtain ⟨active, mode, sorted⟩ := same
  cases edit with
  | kept accounts =>
    refine changed ?_
    obtain ⟨revision, selectionRevision⟩ := uncounted
    cases edited
    cases before
    simp_all only
  | stamped record fresh stored others =>
    have old : record ∈ before.accounts := sorted ▸ mem_sortAccounts.mpr stored
    have bounded := accountRevision_le valid old
    omega
  | removed index inside accounts =>
    have shorter := length_sortAccounts edited.accounts
    rw [sorted, accounts, length_eraseIdx_of_lt inside] at shorter
    omega

theorem stamp_stamped (edit : Edited before (before.revision + 1) edited) :
    ∀ record ∈ (stamp before edited).accounts,
      record ∈ before.accounts ∨ before.revision < record.accountRevision := by
  intro record member
  have inside : record ∈ edited.accounts := mem_sortAccounts.mp member
  cases edit with
  | kept accounts => exact Or.inl (accounts ▸ inside)
  | stamped other fresh stored others =>
    rcases others record inside with rfl | old
    · exact Or.inr (by omega)
    · exact Or.inl old
  | removed index here accounts =>
    exact Or.inl (mem_of_mem_eraseIdx (accounts ▸ inside))

theorem stamp_removal (removal : Removal id before edited) :
    Removal id before (stamp before edited) := by
  refine ⟨fun account member => removal.gone account (mem_sortAccounts.mp member),
    fun account member other => mem_sortAccounts.mpr (removal.others account member other),
    removal.elsewhere, fun selected => ?_⟩
  have fallback := removal.fallback selected
  cases active : edited.activeAccountId with
  | none =>
    rw [active] at fallback
    simp only [stamp, active]
    exact ⟨fallback.1, fun account member => fallback.2 account (mem_sortAccounts.mp member)⟩
  | some other =>
    rw [active] at fallback
    obtain ⟨account, stored, rest⟩ := fallback
    simp only [stamp, active]
    exact ⟨account, mem_sortAccounts.mpr stored, rest⟩

/-- What one change does. -/
theorem mutateTransaction_made (read : readSnapshot packages tables = .ok before)
    (accepted : change.mutation packages = .ok mutation)
    (made : mutateTransaction packages tables mutation = .ok (written, after)) :
    Made packages change before after := by
  obtain ⟨edited, edits, kept, outcome⟩ := mutateTransaction_eq_ok read made
  obtain ⟨valid, distinct⟩ := readSnapshot_eq_ok read
  obtain ⟨validAfter, distinctAfter⟩ := readSnapshot_eq_ok kept
  obtain ⟨edit, uncounted⟩ := mutation_edited accepted edits
  rcases outcome with ⟨rfl, rfl, -⟩ | ⟨changed, rfl⟩
  · exact ⟨valid, Or.inl rfl, fun record member => Or.inl member, distinct,
      fun id removes => mutation_removal distinct accepted edits removes⟩
  · exact ⟨validAfter, Or.inr ⟨rfl, stamp_contents valid edit uncounted changed⟩,
      stamp_stamped edit, distinctAfter,
      fun id removes => stamp_removal (mutation_removal distinct accepted edits removes)⟩

/-! ### Runs -/

/-- What changes have done to a snapshot, with the snapshot that each left. -/
def Passed (packages : Packages) : AccountSnapshot → List Change → List AccountSnapshot → Prop
  | _, [], [] => True
  | before, change :: changes, after :: rest =>
    Made packages change before after ∧ Passed packages after changes rest
  | _, _, _ => False

variable {snapshots : List AccountSnapshot} {changes : List Change}

theorem applyChanges_passed (read : readSnapshot packages tables = .ok before)
    (applied : applyChanges packages tables changes = .ok (written, snapshots)) :
    Passed packages before changes snapshots ∧
      readSnapshot packages written = .ok (snapshots.getLastD before) := by
  induction changes generalizing tables before snapshots with
  | nil =>
    cases Except.ok.inj applied
    exact ⟨trivial, read⟩
  | cons change changes ih =>
    obtain ⟨mutation, accepted, rest⟩ := bind_eq_ok.mp applied
    obtain ⟨⟨middle, after⟩, made, rest⟩ := bind_eq_ok.mp rest
    obtain ⟨⟨final, others⟩, later, rest⟩ := bind_eq_ok.mp rest
    cases Except.ok.inj rest
    obtain ⟨edited, -, kept, -⟩ := mutateTransaction_eq_ok read made
    obtain ⟨passed, final⟩ := ih kept later
    refine ⟨⟨mutateTransaction_made read accepted made, passed⟩, ?_⟩
    rw [final]
    cases others <;> rfl

/-- A moment of the directory: one transaction, and what was told of it. -/
abbrev Moment := History.Moment Tables Transaction (Except AccountError (List AccountSnapshot))

/-- What a transaction does: where it is refused nothing changes, and else each of its changes
does as it should, and the last snapshot is what is read from then on. -/
def Lawful (packages : Packages) (moment : Moment) : Prop :=
  ∃ before, readSnapshot packages moment.before = .ok before ∧
    match moment.outcome with
    | .error _ => moment.after = moment.before
    | .ok snapshots => Passed packages before moment.action.changes snapshots ∧
        readSnapshot packages moment.after = .ok (snapshots.getLastD before)

theorem perform_cases (packages : Packages) (transaction : Transaction) (tables : Tables) :
    (∃ error, perform packages transaction tables = (tables, .error error)) ∨
      ∃ written snapshots,
        applyChanges packages tables transaction.changes = .ok (written, snapshots) ∧
          perform packages transaction tables = (written, .ok snapshots) := by
  rw [perform]
  split
  · exact Or.inl ⟨_, rfl⟩
  · exact Or.inl ⟨_, rfl⟩
  · rename_i written snapshots applied _
    split_ifs
    · exact Or.inr ⟨written, snapshots, applied, rfl⟩
    · exact Or.inl ⟨_, rfl⟩

theorem perform_lawful (read : readSnapshot packages tables = .ok before)
    (transaction : Transaction) :
    Lawful packages ⟨tables, transaction, (perform packages transaction tables).2,
      (perform packages transaction tables).1⟩ := by
  refine ⟨before, read, ?_⟩
  rcases perform_cases packages transaction tables with
    ⟨error, refused⟩ | ⟨written, snapshots, applied, accepted⟩
  · rw [refused]
  · rw [accepted]
    exact applyChanges_passed read applied

theorem Lawful.readable {moment : Moment} (lawful : Lawful packages moment) :
    ∃ after, readSnapshot packages moment.after = .ok after := by
  obtain ⟨before, read, outcome⟩ := lawful
  split at outcome
  · exact ⟨before, by rw [outcome, read]⟩
  · exact ⟨_, outcome.2⟩

/-- The snapshots that a moment has passed through. -/
def passedThrough (moment : Moment) : List AccountSnapshot :=
  match moment.outcome with
  | .ok snapshots => snapshots
  | .error _ => []

/-- All snapshots of a run in their order, those between the changes of one transaction too. -/
def timeline (packages : Packages) (start : AccountSnapshot) (tables : Tables)
    (transactions : List Transaction) : List AccountSnapshot :=
  start :: (History.history (perform packages) transactions tables).flatMap passedThrough

/-! ### Captures -/

/-- A later snapshot is the same, or has a newer revision and stamps whatever it adds. -/
def Later (earlier later : AccountSnapshot) : Prop :=
  later = earlier ∨ earlier.revision < later.revision ∧
    ∀ record ∈ later.accounts,
      record ∈ earlier.accounts ∨ earlier.revision < record.accountRevision

theorem Later.trans {first second third : AccountSnapshot} (earlier : Later first second)
    (later : Later second third) : Later first third := by
  rcases later with rfl | ⟨risen, stamped⟩
  · exact earlier
  · rcases earlier with rfl | ⟨risenBefore, stampedBefore⟩
    · exact Or.inr ⟨risen, stamped⟩
    · refine Or.inr ⟨risenBefore.trans risen, fun record member => ?_⟩
      rcases stamped record member with old | fresh
      · exact stampedBefore record old
      · exact Or.inr (risenBefore.trans fresh)

theorem Made.later (made : Made packages change before after) : Later before after := by
  rcases made.counted with rfl | ⟨risen, -⟩
  · exact Or.inl rfl
  · exact Or.inr ⟨by omega, made.stamped⟩

variable {earlier between : AccountSnapshot}

/-- A record that is found again was there in between. -/
theorem Later.record_between {later : AccountSnapshot} (first : Later earlier between)
    (second : Later between later) (captured : record.accountRevision ≤ earlier.revision)
    (again : record ∈ later.accounts) : record ∈ between.accounts := by
  rcases second with rfl | ⟨-, stamped⟩
  · exact again
  · rcases stamped record again with old | fresh
    · exact old
    · rcases first with rfl | ⟨risen, -⟩ <;> omega

/-- A selection revision that is found again has not changed in between. -/
theorem Later.unchanged_between {later : AccountSnapshot} (first : Later earlier between)
    (second : Later between later) (again : later.revision = earlier.revision) :
    between = earlier := by
  rcases first with same | ⟨risen, -⟩
  · exact same
  · rcases second with rfl | ⟨risenAgain, -⟩ <;> omega

/-- A snapshot that may be captured. -/
structure Stored (packages : Packages) (snapshot : AccountSnapshot) : Prop where
  valid : validateSnapshot packages snapshot = .ok ()
  distinct : Distinct snapshot.accounts

theorem Passed.stored (passed : Passed packages before changes snapshots) :
    ∀ snapshot ∈ snapshots, Stored packages snapshot := by
  induction snapshots generalizing before changes with
  | nil => exact fun _ member => nomatch member
  | cons after rest ih =>
    cases changes with
    | nil => exact passed.elim
    | cons change changes =>
      intro snapshot member
      rcases mem_cons.mp member with rfl | inside
      · exact ⟨passed.1.valid, passed.1.distinct⟩
      · exact ih passed.2 snapshot inside

theorem Passed.later (passed : Passed packages before changes snapshots) :
    List.IsChain Later (before :: snapshots) := by
  induction snapshots generalizing before changes with
  | nil => exact isChain_singleton _
  | cons after rest ih =>
    cases changes with
    | nil => exact passed.elim
    | cons change changes =>
      exact isChain_cons_cons.mpr ⟨passed.1.later, ih passed.2⟩

theorem isChain_append_of_getLastD {Item : Type} {relates : Item → Item → Prop} {first : Item}
    {front back : List Item} (chain : List.IsChain relates (first :: front))
    (rest : List.IsChain relates (front.getLastD first :: back)) :
    List.IsChain relates (first :: (front ++ back)) := by
  induction front generalizing first with
  | nil => exact rest
  | cons next front ih =>
    obtain ⟨here, later⟩ := isChain_cons_cons.mp chain
    refine isChain_cons_cons.mpr ⟨here, ih later ?_⟩
    cases front <;> exact rest

variable {transactions : List Transaction}

theorem timeline_later (read : readSnapshot packages tables = .ok before) :
    List.IsChain Later (timeline packages before tables transactions) ∧
      ∀ snapshot ∈ timeline packages before tables transactions, Stored packages snapshot := by
  have stored := readSnapshot_eq_ok read
  induction transactions generalizing tables before with
  | nil =>
    refine ⟨isChain_singleton _, fun snapshot member => ?_⟩
    cases mem_singleton.mp member
    exact ⟨stored.1, stored.2⟩
  | cons transaction transactions ih =>
    rcases perform_cases packages transaction tables with
      ⟨error, refused⟩ | ⟨written, snapshots, applied, accepted⟩
    · have unchanged : timeline packages before tables (transaction :: transactions) =
          timeline packages before tables transactions := by
        rw [timeline, History.history, flatMap_cons, passedThrough, refused]
        rfl
      rw [unchanged]
      exact ih read stored
    · obtain ⟨passed, final⟩ := applyChanges_passed read applied
      obtain ⟨chain, all⟩ := ih final (readSnapshot_eq_ok final)
      have extended : timeline packages before tables (transaction :: transactions) =
          before :: (snapshots ++
            (History.history (perform packages) transactions written).flatMap passedThrough) := by
        rw [timeline, History.history, flatMap_cons, passedThrough, accepted]
      rw [extended]
      refine ⟨isChain_append_of_getLastD passed.later chain, fun snapshot member => ?_⟩
      rcases mem_cons.mp member with rfl | member
      · exact ⟨stored.1, stored.2⟩
      · rcases mem_append.mp member with inside | inside
        · exact passed.stored snapshot inside
        · exact all snapshot (mem_cons_of_mem _ inside)

theorem history_lawful (read : readSnapshot packages tables = .ok before) :
    ∀ moment ∈ History.history (perform packages) transactions tables,
      Lawful packages moment := by
  have readable : ∀ moment ∈ History.history (perform packages) transactions tables,
      ∃ snapshot, readSnapshot packages moment.before = .ok snapshot := by
    refine @History.invariant _ _ _ _ (fun tables => ∃ snapshot, readSnapshot packages tables =
      .ok snapshot) _ _ ?_ ⟨before, read⟩
    rintro moment member ⟨snapshot, readBefore⟩
    rw [History.after_eq member]
    exact (perform_lawful readBefore moment.action).readable
  intro moment member
  obtain ⟨snapshot, readBefore⟩ := readable moment member
  have lawful := perform_lawful readBefore moment.action
  rwa [← History.after_eq member, ← History.outcome_eq member] at lawful

theorem CapturedAccount.new_eq_ok
    (taken : CapturedAccount.new packages snapshot accountId = .ok capture) :
    capture.record ∈ snapshot.accounts ∧
      capture.selectionRevision = snapshot.selectionRevision := by
  obtain ⟨id, -, rest⟩ := bind_eq_ok.mp taken
  split at rest
  · cases rest
  · rename_i record found
    cases Except.ok.inj rest
    exact ⟨(find_eq_some found).1, rfl⟩

/-- Snapshots stay valid over every run, and a capture that validates again was valid in between:
its record was not touched, and for a selection-bound one nothing was. -/
theorem snapshots_stay_valid (packages : Packages) (tables : Tables) (start : AccountSnapshot)
    (read : readSnapshot packages tables = .ok start) (transactions : List Transaction) :
    (∀ moment ∈ History.history (perform packages) transactions tables, Lawful packages moment) ∧
    (∀ snapshot ∈ timeline packages start tables transactions, Stored packages snapshot) ∧
    ∀ earlier between later accountId capture,
      [earlier, between, later].Sublist (timeline packages start tables transactions) →
      CapturedAccount.new packages earlier accountId = .ok capture →
      (capture.validateAccount later = .ok () → ∀ account : AccountRecord,
        account ∈ between.accounts ∧ account.accountId = capture.record.accountId ↔
          account = capture.record) ∧
      (capture.validate later = .ok () → between = earlier) := by
  obtain ⟨chain, stored⟩ := timeline_later read
  refine ⟨history_lawful read, stored, fun earlier between later accountId capture order taken => ?_⟩
  have trans : IsTrans AccountSnapshot Later := ⟨fun _ _ _ => Later.trans⟩
  have ordered := (isChain_iff_pairwise.mp chain).sublist order
  simp only [pairwise_cons, mem_cons, not_mem_nil, or_false, forall_eq_or_imp,
    forall_eq] at ordered
  obtain ⟨⟨first, -⟩, second, -⟩ := ordered
  obtain ⟨captured, revision⟩ := CapturedAccount.new_eq_ok taken
  have validEarlier := (stored earlier (order.subset (by simp))).valid
  have storedBetween := stored between (order.subset (by simp))
  have validLater := (stored later (order.subset (by simp))).valid
  constructor
  · intro again account
    have member : capture.record ∈ between.accounts :=
      first.record_between second (accountRevision_le validEarlier captured)
        (check_eq_ok.mp again).1
    constructor
    · rintro ⟨inside, same⟩
      exact inj_on_of_nodup_map storedBetween.distinct inside member same
    · rintro rfl
      exact ⟨member, rfl⟩
  · intro again
    obtain ⟨same, -⟩ := ite_throw_eq_ok.mp again
    simp only [not_or, not_not] at same
    refine first.unchanged_between second ?_
    rw [← selectionRevision_eq validLater, ← selectionRevision_eq validEarlier, ← revision, same.1]

/-- The first record of an offline player. -/
def offlineRecord (name uuid : String) (revision : Nat) (now : String) : AccountRecord where
  accountId := ⟨"offline-" ++ uuid⟩
  kind := .offline
  displayName := name
  loginId := none
  minecraftProfileId := none
  offlineUuid := some uuid
  minecraftProfile := none
  ownsMinecraftJava := false
  accountRevision := revision
  profileRevision := revision
  credentialRevision := 0
  createdRevision := revision
  createdAt := now
  updatedAt := now

def morning : String := "2026-07-01T08:00:00Z"
def noon : String := "2026-07-01T12:00:00Z"
def steve : AccountRecord :=
  offlineRecord "Steve" "5627dd98e6be3c21b8a8e92344183641" 1 morning
def alex : AccountRecord :=
  offlineRecord "Alex" "36532b5ec4423dbba24cc7e55d0f979a" 2 noon
/-- The JSON of a record of an offline player. -/
def offlineJson (record : AccountRecord) : String :=
  "\x7b\"account_id\":\"" ++ record.accountId.text ++
  "\",\"kind\":\"offline\",\"display_name\":\"" ++ record.displayName ++
  "\",\"offline_uuid\":\"" ++ record.offlineUuid.getD "" ++
  "\",\"account_revision\":" ++ toString record.accountRevision ++
  ",\"profile_revision\":" ++ toString record.profileRevision ++
  ",\"credential_revision\":" ++ toString record.credentialRevision ++
  ",\"created_revision\":" ++ toString record.createdRevision ++
  ",\"created_at\":\"" ++ record.createdAt ++ "\",\"updated_at\":\"" ++ record.updatedAt ++ "\"\x7d"

/-- What the packages say of these players, of whom none is a Microsoft account. -/
def playerPackages : Packages where
  parseUuid _ := none
  hyphenated _ := ""
  simple id := String.ofList ((Nat.toDigits 16 id.toNat).leftpad 32 '0')
  md5 bytes :=
    if bytes = "OfflinePlayer:Steve".toUTF8 then
      ⟨[86, 39, 221, 152, 230, 190, 188, 33, 248, 168, 233, 35, 68, 24, 54, 65], rfl⟩
    else ⟨[54, 83, 43, 94, 196, 66, 237, 187, 34, 76, 199, 229, 93, 15, 151, 154], rfl⟩
  parseUrl _ := none
  readsTime value := value = morning || value = noon
  profileJson _ := none
  recordJson record := if record.kind = .offline then some (offlineJson record) else none
  parseRecord text := [steve, alex].find? fun record => offlineJson record = text

/-- Two players are created, the first is selected, a removal is refused by the database, the
settings ask for what is already so, the selection goes to the second player and back, and the
first one is removed. -/
def playerTransactions : List Transaction :=
  [⟨[.createOffline " Steve " .none morning], none⟩, ⟨[.createOffline "Alex" .none noon], none⟩,
   ⟨[.select steve.accountId.text .none], none⟩,
   ⟨[.removeOffline steve.accountId.text .none], some .storage⟩,
   ⟨[.syncActiveOfflineUsername "Steve" noon, .selectLaunchMode .offline], none⟩,
   ⟨[.select alex.accountId.text ⟨some 3, some 2⟩], none⟩,
   ⟨[.select steve.accountId.text .none], none⟩,
   ⟨[.removeOffline steve.accountId.text .none], none⟩]

/-- What is stored at a revision while there are both players. -/
def bothPlayers (revision : Nat) (active : AccountRecord) : AccountSnapshot :=
  ⟨revision, revision, some active.accountId, .offline, [steve, alex]⟩

theorem timeline_of_two_players :
    timeline playerPackages ⟨0, 0, none, .offline, []⟩ Tables.initial playerTransactions =
      [⟨0, 0, none, .offline, []⟩, ⟨1, 1, some steve.accountId, .offline, [steve]⟩,
       bothPlayers 2 alex, bothPlayers 3 steve, bothPlayers 3 steve, bothPlayers 3 steve,
       bothPlayers 4 alex, bothPlayers 5 steve, ⟨6, 6, some alex.accountId, .offline, [alex]⟩] := by
  decide +kernel

/-- A capture of Steve is still one of the account when he is selected again, and no longer one of
the selection. -/
theorem snapshots_stay_valid_of_two_players :
    (∀ moment ∈ History.history (perform playerPackages) playerTransactions Tables.initial,
      Lawful playerPackages moment) ∧
    Stored playerPackages ⟨6, 6, some alex.accountId, .offline, [alex]⟩ ∧
    ∃ capture, CapturedAccount.new playerPackages (bothPlayers 3 steve) steve.accountId.text =
        .ok capture ∧
      capture.validateAccount (bothPlayers 5 steve) = .ok () ∧
      (∀ account : AccountRecord, account ∈ (bothPlayers 4 alex).accounts ∧
        account.accountId = capture.record.accountId ↔ account = capture.record) ∧
      capture.validate (bothPlayers 5 steve) = .error .staleCapture ∧
      capture.validate (bothPlayers 3 steve) = .ok () ∧ ∀ between,
        [bothPlayers 3 steve, between, bothPlayers 3 steve].Sublist (timeline playerPackages
          ⟨0, 0, none, .offline, []⟩ Tables.initial playerTransactions) →
        between = bothPlayers 3 steve := by
  obtain ⟨lawful, stored, captures⟩ := snapshots_stay_valid playerPackages Tables.initial
    ⟨0, 0, none, .offline, []⟩ (by decide +kernel) playerTransactions
  have taken : CapturedAccount.new playerPackages (bothPlayers 3 steve) steve.accountId.text =
      .ok ⟨steve, 3, some steve.accountId, .offline⟩ := by decide +kernel
  refine ⟨lawful, stored _ ?_, _, taken, by decide +kernel, ?_, by decide +kernel,
    by decide +kernel, fun between order => ?_⟩
  · rw [timeline_of_two_players]
    decide +kernel
  · refine (captures (bothPlayers 3 steve) _ (bothPlayers 5 steve) _ _ ?_ taken).1 (by decide +kernel)
    rw [timeline_of_two_players]
    decide +kernel
  · exact (captures _ between _ _ _ order taken).2 (by decide +kernel)

end Axial.Accounts
