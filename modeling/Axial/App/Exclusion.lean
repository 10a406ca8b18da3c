/-
This file models the exclusions of `tasks/exclusion.rs`: the table of what is
held, the all-or-nothing acquisition of a reservation, the leases that share it,
and its release with the last of them. Whatever is done in whatever order, the
table holds exactly what the live reservations add up to.
-/

import Axial.Fs.Recovery
import Axial.Library.Runs

namespace Axial.App

open Bytes Relation List

abbrev maxKeysPerLease : Nat := 256
abbrev maxIdentityBytes : Nat := 512
/-- `usize::MAX`. -/
abbrev usizeMax : Nat := 2 ^ 64 - 1

/-! ### Keys -/

structure ArtifactKey where
  root : String
  artifact : String
  deriving DecidableEq

inductive Key where
  | target (identity : String)
  | artifact (key : ArtifactKey)
  deriving DecidableEq

inductive ArtifactAccess where
  | read
  | write

inductive Held where
  | exclusive
  | readers (count : Nat)

inductive ExclusionError where
  | invalidIdentity
  | tooManyKeys
  | busy
  deriving DecidableEq

def validIdentity (value : String) : Bool :=
  value ≠ "" && (utf8 value).length ≤ maxIdentityBytes && !value.toList.any Fs.isControl

def Key.valid : Key → Bool
  | .target identity => validIdentity identity
  | .artifact key => validIdentity key.root && validIdentity key.artifact

/-- Only artifacts are ever shared, and only for reading. -/
def Key.shared : Key → ArtifactAccess → Bool
  | .artifact _, .read => true
  | _, _ => false

/-! ### Acquisition and release -/

/-- The keys of a reservation. Their order in the source's set plays no role. -/
abbrev KeySet := {keys : List Key // keys.Nodup}

def KeySet.insert (keys : KeySet) (key : Key) : KeySet :=
  ⟨keys.val.insert key, keys.property.insert⟩

/-- The keys of a request, of which `index` have been seen. -/
def collectKeys (index : Nat) (keys : KeySet) : List Key → Except ExclusionError KeySet
  | [] => .ok keys
  | key :: requested =>
    if index ≥ maxKeysPerLease then .error .tooManyKeys
    else if key.valid = false then .error .invalidIdentity
    else collectKeys (index + 1) (keys.insert key) requested

structure Reservation where
  keys : KeySet
  access : ArtifactAccess

abbrev HeldTable := Key → Option Held

def Key.conflicts (key : Key) (access : ArtifactAccess) (held : Option Held) : Bool :=
  match held with
  | none => false
  | some (.readers count) => if key.shared access then decide (count + 1 > usizeMax) else true
  | some .exclusive => true

/-- The entry of a key once it is reserved. Nothing is where the source has `unreachable!`. -/
def Key.reserve (access : ArtifactAccess) (key : Key) (held : Option Held) :
    Option (Option Held) :=
  if key.shared access then
    match held.getD (.readers 0) with
    | .readers count => some (some (.readers (count + 1)))
    | .exclusive => none
  else
    some (some .exclusive)

/-- The table after the call and what it returns. Nothing is a panic. -/
def acquire (held : HeldTable) (targets : List String) (artifacts : List ArtifactKey)
    (access : ArtifactAccess) : Option (HeldTable × Except ExclusionError Reservation) :=
  match collectKeys 0 ⟨[], nodup_nil⟩
      (targets.map Key.target ++ artifacts.map Key.artifact) with
  | .error error => some (held, .error error)
  | .ok keys =>
    if keys.val.any fun key => key.conflicts access (held key) then
      some (held, .error .busy)
    else
      (Table.changeAllM (Key.reserve access) held keys.val).map fun held =>
        (held, .ok ⟨keys, access⟩)

/-- The entry of a key that one reservation gives up. -/
def releasedEntry (held : Option Held) : Option Held :=
  match held with
  | some (.readers count) => if count > 1 then some (.readers (count - 1)) else none
  | _ => none

/-- The `Drop` of a reservation. -/
def Reservation.release (held : HeldTable) (reservation : Reservation) : HeldTable :=
  Table.changeAll (fun _ => releasedEntry) held reservation.keys.val

/-! ### Runs -/

/-- A reservation that one lease and its clones hold. -/
structure LiveReservation where
  reservation : Reservation
  clones : Nat

structure ExclusionState where
  held : HeldTable
  live : List LiveReservation

def ExclusionState.new : ExclusionState where
  held _ := none
  live := []

/-- One operation of whoever holds the exclusions or a lease. -/
inductive ExclusionState.Step : ExclusionState → ExclusionState → Prop
  | acquired {state targets artifacts access held reservation}
      (granted : acquire state.held targets artifacts access = some (held, .ok reservation)) :
      Step state ⟨held, state.live ++ [⟨reservation, 0⟩]⟩
  | refused {state targets artifacts access held error}
      (failed : acquire state.held targets artifacts access = some (held, .error error)) :
      Step state ⟨held, state.live⟩
  | cloned {held before after reservation clones} :
      Step ⟨held, before ++ ⟨reservation, clones⟩ :: after⟩
        ⟨held, before ++ ⟨reservation, clones + 1⟩ :: after⟩
  | droppedClone {held before after reservation clones} :
      Step ⟨held, before ++ ⟨reservation, clones + 1⟩ :: after⟩
        ⟨held, before ++ ⟨reservation, clones⟩ :: after⟩
  | droppedLast {held before after reservation} :
      Step ⟨held, before ++ ⟨reservation, 0⟩ :: after⟩
        ⟨reservation.release held, before ++ after⟩

/-! ### What the table holds -/

def Reservation.excludes (reservation : Reservation) (key : Key) : Bool :=
  key ∈ reservation.keys.val && !key.shared reservation.access

def Reservation.reads (reservation : Reservation) (key : Key) : Bool :=
  key ∈ reservation.keys.val && key.shared reservation.access

def ExclusionState.holders (state : ExclusionState) (key : Key) : Nat :=
  state.live.countP fun live => live.reservation.excludes key

def ExclusionState.readers (state : ExclusionState) (key : Key) : Nat :=
  state.live.countP fun live => live.reservation.reads key

/-- An entry says how many hold the key exclusively and how many read it. -/
def Tallies (held : Option Held) (holders readers : Nat) : Prop :=
  match held with
  | none => holders = 0 ∧ readers = 0
  | some .exclusive => holders = 1 ∧ readers = 0
  | some (.readers count) => holders = 0 ∧ readers = count ∧ 0 < count

def ExclusionState.Exact (state : ExclusionState) : Prop :=
  ∀ key, Tallies (state.held key) (state.holders key) (state.readers key)

/-- The entry of a key that is reserved without conflict. -/
def Key.reserved (access : ArtifactAccess) (key : Key) (held : Option Held) : Option Held :=
  if key.shared access then
    match held with
    | some (.readers count) => some (.readers (count + 1))
    | _ => some (.readers 1)
  else
    some .exclusive

variable {held : Option Held} {access : ArtifactAccess} {key : Key}

theorem Key.reserve_of_free (free : key.conflicts access held = false) :
    key.reserve access held = some (key.reserved access held) := by
  unfold Key.reserve Key.reserved
  by_cases sharing : key.shared access = true
  · rw [if_pos sharing, if_pos sharing]
    cases held with
    | none => rfl
    | some holding =>
      cases holding with
      | exclusive => cases free
      | readers count => rfl
  · rw [if_neg sharing, if_neg sharing]

/-- A granted request reserved every one of its keys, and a refused one changed nothing. -/
theorem acquire_cases {held after : HeldTable} {targets : List String}
    {artifacts : List ArtifactKey} {outcome : Except ExclusionError Reservation}
    (acquired : acquire held targets artifacts access = some (after, outcome)) :
    (∃ error, outcome = .error error ∧ after = held) ∨
      ∃ reservation, outcome = .ok reservation ∧
        (∀ key ∈ reservation.keys.val, key.conflicts reservation.access (held key) = false) ∧
        after = Table.changeAll (Key.reserved reservation.access) held reservation.keys.val := by
  unfold acquire at acquired
  split at acquired
  · cases acquired
    exact .inl ⟨_, rfl, rfl⟩
  · rename_i keys _
    by_cases busy : (keys.val.any fun key => key.conflicts access (held key)) = true
    · rw [if_pos busy] at acquired
      cases acquired
      exact .inl ⟨_, rfl, rfl⟩
    · rw [if_neg busy] at acquired
      have free : ∀ key ∈ keys.val, key.conflicts access (held key) = false := by
        simpa only [any_eq_true, not_exists, not_and, Bool.not_eq_true] using busy
      rw [Table.changeAllM_of_accepted keys.property
        fun key member => Key.reserve_of_free (free key member), Option.map_some] at acquired
      cases acquired
      exact .inr ⟨_, rfl, free, rfl⟩

/-- The `unreachable!` of the acquisition is not reached. -/
theorem acquire_isSome (held : HeldTable) (targets : List String) (artifacts : List ArtifactKey)
    (access : ArtifactAccess) : (acquire held targets artifacts access).isSome = true := by
  unfold acquire
  split
  · rfl
  · rename_i keys _
    split
    · rfl
    · rename_i busy
      have free : ∀ key ∈ keys.val, key.conflicts access (held key) = false := by
        simpa only [any_eq_true, not_exists, not_and, Bool.not_eq_true] using busy
      rw [Table.changeAllM_of_accepted keys.property
        fun key member => Key.reserve_of_free (free key member)]
      rfl

/-! ### One operation -/

theorem holders_append (before after : List LiveReservation) (live : LiveReservation)
    (held : HeldTable) (key : Key) :
    (ExclusionState.mk held (before ++ live :: after)).holders key =
      (ExclusionState.mk held (before ++ after)).holders key +
        (live.reservation.excludes key).toNat := by
  simp only [ExclusionState.holders, countP_append, countP_cons]
  cases live.reservation.excludes key <;> simp [Nat.add_assoc]

theorem readers_append (before after : List LiveReservation) (live : LiveReservation)
    (held : HeldTable) (key : Key) :
    (ExclusionState.mk held (before ++ live :: after)).readers key =
      (ExclusionState.mk held (before ++ after)).readers key +
        (live.reservation.reads key).toNat := by
  simp only [ExclusionState.readers, countP_append, countP_cons]
  cases live.reservation.reads key <;> simp [Nat.add_assoc]

/-- Reserving a key counts the reservation in. -/
theorem Tallies.reserved {holders readers : Nat} (tallies : Tallies held holders readers)
    (free : key.conflicts access held = false) :
    Tallies (key.reserved access held) (holders + (!key.shared access).toNat)
      (readers + (key.shared access).toNat) := by
  unfold Key.reserved
  cases sharing : key.shared access with
  | true =>
    cases held with
    | none =>
      obtain ⟨rfl, rfl⟩ := tallies
      exact ⟨rfl, rfl, Nat.one_pos⟩
    | some holding =>
      cases holding with
      | exclusive => cases free
      | readers count =>
        obtain ⟨rfl, rfl, _⟩ := tallies
        exact ⟨rfl, rfl, Nat.succ_pos _⟩
  | false =>
    cases held with
    | none =>
      obtain ⟨rfl, rfl⟩ := tallies
      exact ⟨rfl, rfl⟩
    | some holding =>
      cases holding with
      | exclusive => cases free
      | readers count =>
        rw [Key.conflicts, sharing] at free
        cases free

/-- Releasing a key counts one reservation out again. -/
theorem Tallies.released {held : Option Held} {holders readers : Nat} {sharing : Bool}
    (tallies : Tallies held (holders + (!sharing).toNat) (readers + sharing.toNat)) :
    Tallies (releasedEntry held) holders readers := by
  cases held with
  | none =>
    obtain ⟨nobody, nobodyReads⟩ := tallies
    cases sharing
    · cases nobody
    · cases nobodyReads
  | some holding =>
    cases holding with
    | exclusive =>
      obtain ⟨one, nobodyReads⟩ := tallies
      cases sharing with
      | true => cases nobodyReads
      | false => exact ⟨Nat.succ_injective one, nobodyReads⟩
    | readers count =>
      obtain ⟨nobody, rfl, _⟩ := tallies
      cases sharing with
      | false => cases nobody
      | true =>
        show Tallies (if readers + 1 > 1 then some (.readers readers) else none) holders readers
        by_cases others : readers = 0
        · subst others
          exact ⟨nobody, rfl⟩
        · rw [if_pos (Nat.succ_lt_succ (Nat.pos_of_ne_zero others))]
          exact ⟨nobody, rfl, Nat.pos_of_ne_zero others⟩

theorem reservation_counts (reservation : Reservation) (member : key ∈ reservation.keys.val) :
    reservation.excludes key = !key.shared reservation.access ∧
      reservation.reads key = key.shared reservation.access := by
  unfold Reservation.excludes Reservation.reads
  rw [decide_eq_true member, Bool.true_and, Bool.true_and]
  exact ⟨rfl, rfl⟩

theorem reservation_counts_not (reservation : Reservation) (other : key ∉ reservation.keys.val) :
    reservation.excludes key = false ∧ reservation.reads key = false := by
  unfold Reservation.excludes Reservation.reads
  rw [decide_eq_false other, Bool.false_and, Bool.false_and]
  exact ⟨rfl, rfl⟩

variable {reservation : Reservation} {state : ExclusionState}

theorem exact_acquired (exactly : state.Exact) (free : ∀ key ∈ reservation.keys.val,
      key.conflicts reservation.access (state.held key) = false) :
    ExclusionState.Exact ⟨Table.changeAll (Key.reserved reservation.access) state.held
      reservation.keys.val, state.live ++ [⟨reservation, 0⟩]⟩ := by
  intro key
  rw [holders_append, readers_append, List.append_nil]
  show Tallies (Table.changeAll _ _ _ key) (state.holders key + _) (state.readers key + _)
  rw [Table.changeAll_apply _ _ reservation.keys.property]
  by_cases member : key ∈ reservation.keys.val
  · obtain ⟨excludes, reads⟩ := reservation_counts reservation member
    rw [if_pos member, excludes, reads]
    exact (exactly key).reserved (free key member)
  · obtain ⟨excludes, reads⟩ := reservation_counts_not reservation member
    rw [if_neg member, excludes, reads]
    exact exactly key

variable {before after : List LiveReservation} {clones : Nat}

theorem exact_released {held : HeldTable}
    (exactly : ExclusionState.Exact ⟨held, before ++ ⟨reservation, clones⟩ :: after⟩) :
    ExclusionState.Exact ⟨reservation.release held, before ++ after⟩ := by
  intro key
  have tallies := exactly key
  rw [holders_append, readers_append] at tallies
  show Tallies (Table.changeAll _ _ _ key) _ _
  rw [Table.changeAll_apply _ _ reservation.keys.property]
  by_cases member : key ∈ reservation.keys.val
  · obtain ⟨excludes, reads⟩ := reservation_counts reservation member
    rw [excludes, reads] at tallies
    rw [if_pos member]
    exact tallies.released
  · obtain ⟨excludes, reads⟩ := reservation_counts_not reservation member
    rw [excludes, reads] at tallies
    rw [if_neg member]
    exact tallies

/-- How many leases share a reservation makes no difference to the table. -/
theorem exact_shared {held : HeldTable} {others : Nat}
    (exactly : ExclusionState.Exact ⟨held, before ++ ⟨reservation, clones⟩ :: after⟩) :
    ExclusionState.Exact ⟨held, before ++ ⟨reservation, others⟩ :: after⟩ := by
  intro key
  have tallies := exactly key
  rw [holders_append, readers_append] at tallies ⊢
  exact tallies

theorem exact_step {before after : ExclusionState} (step : before.Step after)
    (exactly : before.Exact) : after.Exact := by
  cases step with
  | acquired granted =>
    rcases acquire_cases granted with ⟨_, failed, _⟩ | ⟨_, succeeded, free, rfl⟩
    · cases failed
    · cases succeeded
      exact exact_acquired exactly free
  | refused failed =>
    rcases acquire_cases failed with ⟨_, _, rfl⟩ | ⟨_, succeeded, _⟩
    · exact exactly
    · cases succeeded
  | cloned | droppedClone => exact exact_shared exactly
  | droppedLast => exact exact_released exactly

/-! ### Any run -/

/-- Two reservations have no key in common unless both only read it. -/
def Reservation.Compatible (first second : Reservation) : Prop :=
  ∀ key ∈ first.keys.val, key ∈ second.keys.val →
    first.reads key = true ∧ second.reads key = true

theorem excludes_or_reads (member : key ∈ reservation.keys.val) :
    reservation.excludes key = true ∨ reservation.reads key = true := by
  obtain ⟨excludes, reads⟩ := reservation_counts reservation member
  rw [excludes, reads]
  cases key.shared reservation.access
  · exact .inl rfl
  · exact .inr rfl

theorem Tallies.bound {holders readers : Nat} (tallies : Tallies held holders readers) :
    holders = 0 ∨ holders = 1 ∧ readers = 0 := by
  cases held with
  | none => exact .inl tallies.1
  | some holding =>
    cases holding with
    | exclusive => exact .inr tallies
    | readers count => exact .inl tallies.1

theorem compatible_of_exact (exactly : state.Exact) :
    state.live.Pairwise fun first second =>
      first.reservation.Compatible second.reservation := by
  rw [pairwise_iff_forall_sublist]
  intro first second both key inFirst inSecond
  have holders : List.countP (fun live => live.reservation.excludes key) [first, second] ≤
      state.holders key := both.countP_le
  have readers : List.countP (fun live => live.reservation.reads key) [first, second] ≤
      state.readers key := both.countP_le
  simp only [countP_cons, countP_nil] at holders readers
  have bound := (exactly key).bound
  rcases excludes_or_reads inFirst with firstExcludes | firstReads <;>
    rcases excludes_or_reads inSecond with secondExcludes | secondReads
  · rw [if_pos firstExcludes, if_pos secondExcludes] at holders
    omega
  · rw [if_pos firstExcludes] at holders
    rw [if_pos secondReads] at readers
    omega
  · rw [if_pos secondExcludes] at holders
    rw [if_pos firstReads] at readers
    omega
  · exact ⟨firstReads, secondReads⟩

theorem tallies_exclusive {holders readers : Nat} (tallies : Tallies held holders readers) :
    (held = some .exclusive ↔ holders = 1 ∧ readers = 0) ∧
      (∀ count, held = some (.readers count) ↔ 0 < count ∧ readers = count) ∧
      (held = none ↔ holders = 0 ∧ readers = 0) := by
  cases held with
  | none =>
    obtain ⟨rfl, rfl⟩ := tallies
    simp
    omega
  | some holding =>
    cases holding with
    | exclusive =>
      obtain ⟨rfl, rfl⟩ := tallies
      simp
      omega
    | readers count =>
      obtain ⟨rfl, rfl, positive⟩ := tallies
      simp
      omega

/-- Whatever was acquired, cloned and dropped in whatever order: the table says of every key who
has it reserved, no two reservations are at odds, a request that fails leaves the table as it was,
and with the last reservation the table is empty. -/
theorem exclusions_exact (state : ExclusionState)
    (reached : ReflTransGen ExclusionState.Step .new state) :
    (∀ key, (state.held key = some .exclusive ↔ state.holders key = 1 ∧ state.readers key = 0) ∧
      (∀ count, state.held key = some (.readers count) ↔
        0 < count ∧ state.readers key = count) ∧
      (state.held key = none ↔ state.holders key = 0 ∧ state.readers key = 0)) ∧
    (state.live.Pairwise fun first second =>
      first.reservation.Compatible second.reservation) ∧
    (∀ targets artifacts access, ∃ held outcome,
      acquire state.held targets artifacts access = some (held, outcome) ∧
        ∀ error, outcome = .error error → held = state.held) ∧
    (state.live = [] → ∀ key, state.held key = none) := by
  have initially : ExclusionState.new.Exact := fun _ => ⟨rfl, rfl⟩
  have exactly : state.Exact :=
    @Runs.invariant _ _ ExclusionState.Exact (fun _ _ step => exact_step step) _ _ reached
      initially
  refine ⟨fun key => tallies_exclusive (exactly key), compatible_of_exact exactly,
    fun targets artifacts access => ?_, fun dropped key => ?_⟩
  · obtain ⟨⟨held, outcome⟩, acquired⟩ :=
      Option.isSome_iff_exists.mp (acquire_isSome state.held targets artifacts access)
    refine ⟨held, outcome, acquired, fun error failed => ?_⟩
    rcases acquire_cases acquired with ⟨_, _, same⟩ | ⟨_, succeeded, _⟩
    · exact same
    · rw [succeeded] at failed
      cases failed
  · refine (tallies_exclusive (exactly key)).2.2.mpr ?_
    unfold ExclusionState.holders ExclusionState.readers
    rw [dropped]
    exact ⟨rfl, rfl⟩

/-- The instance and the artifact of two sessions that share a library. -/
def firstSession : KeySet := ⟨[.artifact ⟨"library", "java"⟩, .target "first"], by decide⟩

theorem collectKeys_session :
    collectKeys 0 ⟨[], nodup_nil⟩ [.target "first", .artifact ⟨"library", "java"⟩] =
      .ok firstSession := by
  decide

theorem exclusions_exact_session :
    ∃ state, ReflTransGen ExclusionState.Step .new state ∧
      (state.held (.artifact ⟨"library", "java"⟩) = some (.readers 1) ↔
        0 < 1 ∧ state.readers (.artifact ⟨"library", "java"⟩) = 1) := by
  have granted : ∃ held, acquire (ExclusionState.new.held) ["first"] [⟨"library", "java"⟩]
      .read = some (held, .ok ⟨firstSession, .read⟩) := by
    unfold acquire
    simp only [map_cons, map_nil, cons_append, nil_append,
      collectKeys_session]
    exact ⟨_, rfl⟩
  obtain ⟨held, granted⟩ := granted
  have reached := ReflTransGen.single (ExclusionState.Step.acquired granted)
  exact ⟨_, reached, ((exclusions_exact _ reached).1 _).2.1 1⟩

end Axial.App
