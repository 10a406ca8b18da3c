/-
This file proves what the update authority guarantees over every run of its calls: an
attempt acts once and alone, only the verified download of the release that was shown
is ever ready, and nothing is admitted beside or after its installation.
-/

import Axial.Update.Authority

namespace Axial.Update

open List Option

variable {service after : UpdateService} {call : Call} {answer : Answer}

theorem checkedSucc_eq_some {counter next : Nat} :
    checkedSucc counter = some next ↔ counter + 1 < 2 ^ 64 ∧ next = counter + 1 := by
  unfold checkedSucc
  split
  · rw [Option.some.injEq, eq_comm]
    exact ⟨fun same => ⟨‹_›, same⟩, And.right⟩
  · exact ⟨nofun, fun bound => absurd bound.1 ‹_›⟩

variable {attempt : UpdateAttempt} {inner : Inner}

theorem Inner.start_eq_some {started : Inner} (ok : inner.start = some (started, attempt)) :
    attempt = ⟨inner.attempt + 1⟩ ∧
      started = { inner with attempt := inner.attempt + 1, active := some ⟨inner.attempt + 1⟩ } := by
  obtain ⟨next, counted, same⟩ := bind_eq_some_iff.mp ok
  obtain ⟨-, rfl⟩ := checkedSucc_eq_some.mp counted
  cases same
  exact ⟨rfl, rfl⟩

/-! ### What a call that returns has done -/

/-- The service has published a change of its state. -/
structure Published (service : UpdateService) (inner : Inner) (after : UpdateService) : Prop where
  state : after.inner = inner.published (inner.snapshot.flow.revision + 1)
  changes : after.changes =
    service.changes ++ [(inner.published (inner.snapshot.flow.revision + 1)).snapshot]

theorem publish_eq_some (ok : service.publish inner = some after) :
    Published service inner after := by
  obtain ⟨revision, counted, same⟩ := bind_eq_some_iff.mp ok
  obtain ⟨-, rfl⟩ := checkedSucc_eq_some.mp counted
  cases same
  exact ⟨rfl, rfl⟩

variable {change : Inner → Inner}

theorem begin_eq_some {begun : Except UpdateError UpdateAttempt}
    (ok : service.begin inner change = some (after, begun)) :
    begun = .ok ⟨inner.attempt + 1⟩ ∧
      Published service (change { inner with
        attempt := inner.attempt + 1
        active := some ⟨inner.attempt + 1⟩ }) after := by
  obtain ⟨⟨started, attempt⟩, starts, ok⟩ := bind_eq_some_iff.mp ok
  obtain ⟨rfl, rfl⟩ := Inner.start_eq_some starts
  obtain ⟨published, publishes, same⟩ := bind_eq_some_iff.mp ok
  cases same
  exact ⟨rfl, publish_eq_some publishes⟩

/-- The changes that calls publish, and where they do. -/
inductive Change (service : UpdateService) : Call → Answer → Inner → Prop
  | configure {reason : Option String} (unset : service.inner.configured = false)
      (idle : service.inner.active = none) (lasting : service.inner.terminal = false) :
      Change service (.configure reason) .done (service.inner.configure reason)
  | beginCheck (admitted : service.admission = none) (unready : service.flow.phase ≠ .ready) :
      Change service .beginCheck (.begun (.ok ⟨service.inner.attempt + 1⟩))
        { service.inner with
          attempt := service.inner.attempt + 1
          active := some ⟨service.inner.attempt + 1⟩ }.checking
  | checked {attempt : UpdateAttempt} {release : Option (String × String)} {now : String}
      (active : service.inner.active = some attempt) (phase : service.flow.phase = .idle) :
      Change service (.checked attempt release now) (.accepted true)
        (service.inner.checked release now)
  | beginDownload {version : String} (admitted : service.admission = none)
      (shown : ∃ info, service.snapshot.info = some info ∧ info.available = true ∧
        info.latestVersion = version)
      (unready : service.flow.phase ≠ .ready) :
      Change service (.beginDownload version) (.begun (.ok ⟨service.inner.attempt + 1⟩))
        ({ service.inner with
          attempt := service.inner.attempt + 1
          active := some ⟨service.inner.attempt + 1⟩ }.downloading version)
  | progress {attempt : UpdateAttempt} {received : UInt64} {total : Option UInt64}
      (active : service.inner.active = some attempt) (phase : service.flow.phase = .downloading)
      (onward : service.flow.receivedBytes ≤ received) :
      Change service (.progress attempt received total) .done
        (service.inner.receiving received total)
  | verifying {attempt : UpdateAttempt} (active : service.inner.active = some attempt)
      (phase : service.flow.phase = .downloading) :
      Change service (.verifying attempt) .done service.inner.verifying
  | staged {attempt : UpdateAttempt} (active : service.inner.active = some attempt)
      (phase : service.flow.phase = .downloading) :
      Change service (.staged attempt) (.accepted true) service.inner.staged
  | beginApply (admitted : service.admission = none) (ready : service.flow.phase = .ready) :
      Change service .beginApply (.begun (.ok ⟨service.inner.attempt + 1⟩))
        { service.inner with
          terminal := true
          attempt := service.inner.attempt + 1
          active := some ⟨service.inner.attempt + 1⟩ }.applying
  | installed {attempt : UpdateAttempt} (active : service.inner.active = some attempt)
      (phase : service.flow.phase = .applying) :
      Change service (.installed attempt) .done service.inner.installed
  | failed {attempt : UpdateAttempt} {message : String}
      (active : service.inner.active = some attempt) :
      Change service (.failed attempt message) .done (service.inner.failed message)

/-- The answer of a call that has done nothing. -/
def Answer.idle : Answer → Prop
  | .done => True
  | .accepted took => took = false
  | .begun result => ∃ error, result = .error error

/-- A call leaves the service as it was, or publishes one change. -/
def Outcome (service : UpdateService) (call : Call) (answer : Answer) (after : UpdateService) :
    Prop :=
  (after = service ∧ answer.idle) ∨
    ∃ inner, Change service call answer inner ∧ Published service inner after

theorem Outcome.idle (quiet : answer.idle) : Outcome service call answer service :=
  .inl ⟨rfl, quiet⟩

theorem outcome_of_publish {value : UpdateService} (ok : service.publish inner = some value)
    (change : Change service call answer inner) : Outcome service call answer value :=
  .inr ⟨inner, change, publish_eq_some ok⟩

theorem outcome_of_begin {begun : Except UpdateError UpdateAttempt}
    (ok : service.begin inner change = some (after, begun))
    (changes : Change service call (.begun (.ok ⟨inner.attempt + 1⟩)) (change { inner with
      attempt := inner.attempt + 1
      active := some ⟨inner.attempt + 1⟩ })) : Outcome service call (.begun begun) after := by
  obtain ⟨rfl, published⟩ := begin_eq_some ok
  exact .inr ⟨_, changes, published⟩

theorem outcome_of_configure {reason : Option String}
    (ok : service.configure reason = some after) :
    Outcome service (.configure reason) .done after := by
  unfold UpdateService.configure at ok
  split at ok
  · cases ok
    exact .idle trivial
  · rename_i unset
    simp only [not_or, Bool.not_eq_true, isSome_eq_false_iff, isNone_iff_eq_none]
      at unset
    exact outcome_of_publish ok (.configure unset.1 unset.2.1 unset.2.2)

theorem outcome_of_beginCheck {begun : Except UpdateError UpdateAttempt}
    (ok : service.beginCheck = some (after, begun)) :
    Outcome service .beginCheck (.begun begun) after := by
  unfold UpdateService.beginCheck at ok
  split at ok
  · cases ok
    exact .idle ⟨_, rfl⟩
  · split at ok
    · cases ok
      exact .idle ⟨_, rfl⟩
    · exact outcome_of_begin ok (.beginCheck ‹_› ‹_›)

variable {took : Bool}

theorem outcome_of_checked {release : Option (String × String)} {now : String}
    (ok : service.checked attempt release now = some (after, took)) :
    Outcome service (.checked attempt release now) (.accepted took) after := by
  unfold UpdateService.checked at ok
  split at ok
  · cases ok
    exact .idle rfl
  · rename_i apt
    rw [not_or, not_not, not_not] at apt
    obtain ⟨value, published, same⟩ := map_eq_some_iff.mp ok
    cases same
    exact outcome_of_publish published (.checked apt.1 apt.2)

variable {version : String}

theorem outcome_of_beginDownload {begun : Except UpdateError UpdateAttempt}
    (ok : service.beginDownload version = some (after, begun)) :
    Outcome service (.beginDownload version) (.begun begun) after := by
  unfold UpdateService.beginDownload at ok
  split at ok
  · cases ok
    exact .idle ⟨_, rfl⟩
  · rename_i admitted
    split at ok
    · cases ok
      exact .idle ⟨_, rfl⟩
    · rename_i shown
      rw [not_not, Option.any_eq_true] at shown
      split at ok
      · cases ok
        exact .idle ⟨_, rfl⟩
      · refine outcome_of_begin ok (.beginDownload admitted ?_ ‹_›)
        obtain ⟨info, found, fits⟩ := shown
        rw [Bool.and_eq_true, decide_eq_true_eq] at fits
        exact ⟨info, found, fits⟩

theorem outcome_of_progress {received : UInt64} {total : Option UInt64}
    (ok : service.progress attempt received total = some after) :
    Outcome service (.progress attempt received total) .done after := by
  unfold UpdateService.progress at ok
  split at ok
  · cases ok
    exact .idle trivial
  · rename_i apt
    rw [not_or, not_not, not_not] at apt
    split at ok
    · cases ok
      exact .idle trivial
    · exact outcome_of_publish ok (.progress apt.1 apt.2 (UInt64.not_lt.mp ‹_›))

theorem outcome_of_verifying (ok : service.verifying attempt = some after) :
    Outcome service (.verifying attempt) .done after := by
  unfold UpdateService.verifying at ok
  split at ok
  · cases ok
    exact .idle trivial
  · rename_i apt
    rw [not_or, not_not, not_not] at apt
    exact outcome_of_publish ok (.verifying apt.1 apt.2)

theorem outcome_of_staged (ok : service.staged attempt = some (after, took)) :
    Outcome service (.staged attempt) (.accepted took) after := by
  unfold UpdateService.staged at ok
  split at ok
  · cases ok
    exact .idle rfl
  · rename_i apt
    rw [not_or, not_not, not_not] at apt
    obtain ⟨value, published, same⟩ := map_eq_some_iff.mp ok
    cases same
    exact outcome_of_publish published (.staged apt.1 apt.2)

theorem outcome_of_beginApply {begun : Except UpdateError UpdateAttempt}
    (ok : service.beginApply = some (after, begun)) :
    Outcome service .beginApply (.begun begun) after := by
  unfold UpdateService.beginApply at ok
  split at ok
  · cases ok
    exact .idle ⟨_, rfl⟩
  · split at ok
    · cases ok
      exact .idle ⟨_, rfl⟩
    · exact outcome_of_begin ok (.beginApply ‹_› (not_not.mp ‹_›))

theorem outcome_of_installed (ok : service.installed attempt = some after) :
    Outcome service (.installed attempt) .done after := by
  unfold UpdateService.installed at ok
  split at ok
  · cases ok
    exact .idle trivial
  · rename_i apt
    rw [not_or, not_not, not_not] at apt
    exact outcome_of_publish ok (.installed apt.1 apt.2)

theorem outcome_of_failed {message : String} (ok : service.failed attempt message = some after) :
    Outcome service (.failed attempt message) .done after := by
  unfold UpdateService.failed at ok
  split at ok
  · cases ok
    exact .idle trivial
  · exact outcome_of_publish ok (.failed (not_not.mp ‹_›))

theorem perform_outcome (returned : service.perform call = some (after, answer)) :
    Outcome service call answer after := by
  cases call <;> obtain ⟨_, ok, same⟩ := map_eq_some_iff.mp returned <;> cases same
  case configure => exact outcome_of_configure ok
  case beginCheck => exact outcome_of_beginCheck ok
  case checked => exact outcome_of_checked ok
  case beginDownload => exact outcome_of_beginDownload ok
  case progress => exact outcome_of_progress ok
  case verifying => exact outcome_of_verifying ok
  case staged => exact outcome_of_staged ok
  case beginApply => exact outcome_of_beginApply ok
  case installed => exact outcome_of_installed ok
  case failed => exact outcome_of_failed ok

/-! ### The phases and what they leave open -/

theorem admission_eq_none : service.admission = none ↔
    service.flow.supported = true ∧ service.inner.active = none ∧
      service.inner.terminal = false := by
  unfold UpdateService.admission
  split
  · exact ⟨nofun, fun open_ => absurd open_.1 ‹_›⟩
  · rename_i supported
    split
    · rename_i busy
      refine ⟨nofun, fun ⟨_, idle, lasting⟩ => ?_⟩
      rw [idle, lasting] at busy
      exact absurd busy (by decide)
    · rename_i free
      simp only [not_or, Bool.not_eq_true, isSome_eq_false_iff,
        isNone_iff_eq_none] at free
      exact ⟨fun _ => ⟨not_not.mp supported, free⟩, fun _ => rfl⟩

/-- What fits together in the state behind the lock. -/
structure Inner.Sound (inner : Inner) : Prop where
  newest : ∀ attempt, inner.active = some attempt → attempt.number = inner.attempt
  configured : inner.snapshot.flow.supported = true → inner.configured = true
  supported : inner.active.isSome = true → inner.snapshot.flow.supported = true
  downloading : inner.snapshot.flow.phase = .downloading →
    inner.active.isSome = true ∧ inner.terminal = false
  ready : inner.snapshot.flow.phase = .ready →
    inner.snapshot.flow.supported = true ∧ inner.active = none ∧ inner.terminal = false

theorem Inner.Sound.published (sound : inner.Sound) (revision : Nat) :
    (inner.published revision).Sound :=
  ⟨sound.newest, sound.configured, sound.supported, sound.downloading, sound.ready⟩

theorem Change.sound (change : Change service call answer inner) (sound : service.inner.Sound) :
    inner.Sound := by
  cases change with
  | configure unset idle lasting =>
    exact
      { newest := sound.newest
        configured := fun _ => rfl
        supported := fun active => by
          change service.inner.active.isSome = true at active
          rw [idle] at active
          cases active
        downloading := sound.downloading
        ready := fun ready => by
          have configured := sound.configured (sound.ready ready).1
          rw [unset] at configured
          cases configured }
  | beginCheck admitted unready | beginApply admitted ready =>
    have supported := (admission_eq_none.mp admitted).1
    exact ⟨fun _ same => by cases same; rfl, sound.configured, fun _ => supported, nofun, nofun⟩
  | checked | installed | failed =>
    exact ⟨nofun, sound.configured, nofun, nofun, nofun⟩
  | beginDownload admitted shown unready =>
    have free := admission_eq_none.mp admitted
    exact ⟨fun _ same => by cases same; rfl, sound.configured, fun _ => free.1,
      fun _ => ⟨rfl, free.2.2⟩, nofun⟩
  | progress | verifying =>
    exact ⟨sound.newest, sound.configured, sound.supported, sound.downloading, sound.ready⟩
  | @staged attempt active phase =>
    have supported := sound.supported (by rw [active]; rfl)
    exact ⟨nofun, sound.configured, nofun, nofun,
      fun _ => ⟨supported, rfl, (sound.downloading phase).2⟩⟩

/-- What the service shows is what its state amounts to. -/
structure Sound (service : UpdateService) : Prop where
  inner : service.inner.Sound
  advertised : service.flow = service.inner.advertise service.flow.revision
  told : service.changes.getLast? = some service.snapshot ∨
    (service.changes = [] ∧ service.snapshot.info = none)
  bounded : ∀ change ∈ service.changes, change.flow.revision ≤ service.flow.revision
  rising : service.changes.Pairwise fun early late => early.flow.revision < late.flow.revision

theorem sound_new (currentVersion platform arch : String) :
    Sound (.new currentVersion platform arch) where
  inner :=
    { newest := fun _ same => absurd same (some_ne_none _).symm
      configured := fun supported => absurd supported Bool.false_ne_true
      supported := fun active => absurd active Bool.false_ne_true
      downloading := fun phase => UpdatePhase.noConfusion phase
      ready := fun phase => UpdatePhase.noConfusion phase }
  advertised := rfl
  told := .inr ⟨rfl, rfl⟩
  bounded _ member := absurd member not_mem_nil
  rising := .nil

theorem Change.revision (change : Change service call answer inner) :
    inner.snapshot.flow.revision = service.flow.revision := by
  cases change <;> rfl

theorem Sound.publish (sound : Sound service) (fits : inner.Sound)
    (revision : inner.snapshot.flow.revision = service.flow.revision)
    (published : Published service inner after) : Sound after := by
  obtain ⟨state, changes⟩ := after
  obtain ⟨rfl, rfl⟩ := published
  have later : ∀ change ∈ service.changes,
      change.flow.revision < inner.snapshot.flow.revision + 1 := by
    intro change member
    rw [revision]
    exact Nat.lt_succ_of_le (sound.bounded change member)
  refine ⟨fits.published _, rfl, .inl getLast?_concat, fun change member => ?_, ?_⟩
  · rcases mem_append.mp member with old | new
    · exact (later change old).le
    · rw [mem_singleton.mp new]
  · refine pairwise_append.mpr ⟨sound.rising, pairwise_singleton _ _, ?_⟩
    rintro early old late new
    rw [mem_singleton.mp new]
    exact later early old

theorem Sound.perform (sound : Sound service)
    (returned : service.perform call = some (after, answer)) : Sound after := by
  rcases perform_outcome returned with ⟨rfl, -⟩ | ⟨inner, change, published⟩
  · exact sound
  · exact sound.publish (change.sound sound.inner) change.revision published

/-! ### What one call cannot do -/

/-- The attempt that a call has begun. -/
def Answer.attempt? : Answer → Option UpdateAttempt
  | .begun (.ok attempt) => some attempt
  | .done | .accepted _ | .begun (.error _) => none

theorem Answer.idle.attempt? (quiet : answer.idle) : answer.attempt? = none := by
  cases answer with
  | begun result =>
    obtain ⟨error, rfl⟩ := quiet
    rfl
  | done => rfl
  | accepted took => rfl

theorem Change.about (change : Change service call answer inner)
    (about : call.attempt? = some attempt) :
    service.inner.active = some attempt ∧ call.Belongs service.flow.phase := by
  cases change with
  | checked active phase | progress active phase | verifying active phase | staged active phase
  | installed active phase =>
    cases about
    exact ⟨active, phase⟩
  | failed active =>
    cases about
    exact ⟨active, trivial⟩
  | configure | beginCheck | beginDownload | beginApply => cases about

/-- Only its installation follows a verified download. -/
theorem Sound.kept (sound : Sound service) (ready : service.flow.phase = .ready)
    (returned : service.perform call = some (after, answer)) (other : call ≠ .beginApply) :
    after = service := by
  rcases perform_outcome returned with ⟨same, -⟩ | ⟨inner, change, -⟩
  · exact same
  obtain ⟨supported, idle, lasting⟩ := sound.inner.ready ready
  have unset := sound.inner.configured supported
  cases change with
  | configure unconfigured => exact absurd (unset.symm.trans unconfigured) (by decide)
  | beginCheck admitted unready | beginDownload admitted shown unready => exact absurd ready unready
  | beginApply => exact absurd rfl other
  | checked active | progress active | verifying active | staged active | installed active
  | failed active => exact absurd (idle.symm.trans active) (by simp)

theorem Change.terminal_iff (change : Change service call answer inner) :
    inner.terminal = true ↔ service.inner.terminal = true ∨
      (call = .beginApply ∧ answer.attempt?.isSome = true) := by
  cases change with
  | beginApply => exact ⟨fun _ => .inr ⟨rfl, rfl⟩, fun _ => rfl⟩
  | configure | beginCheck | checked | beginDownload | progress | verifying | staged | installed
  | failed => exact ⟨.inl, fun either => either.resolve_right fun same => nomatch same.1⟩

theorem Change.open_ (change : Change service call answer inner)
    (begun : answer.attempt? = some attempt) : service.inner.terminal = false := by
  cases change <;> first
    | cases begun; done
    | exact (admission_eq_none.mp ‹_›).2.2

/-- An attempt is new, and nothing else becomes active. -/
theorem Change.attempts (change : Change service call answer inner) :
    (answer.attempt? = some ⟨inner.attempt⟩ ∧ inner.attempt = service.inner.attempt + 1 ∧
        inner.active = some ⟨inner.attempt⟩) ∨
      (answer.attempt? = none ∧ inner.attempt = service.inner.attempt ∧
        (inner.active = service.inner.active ∨ inner.active = none)) := by
  cases change <;> first
    | exact .inl ⟨rfl, rfl, rfl⟩
    | exact .inr ⟨rfl, rfl, .inl rfl⟩
    | exact .inr ⟨rfl, rfl, .inr rfl⟩

theorem Change.received (change : Change service call answer inner)
    (within : answer.attempt? = none) :
    service.flow.receivedBytes ≤ inner.snapshot.flow.receivedBytes := by
  cases change <;> first
    | cases within; done
    | exact UInt64.le_refl _
    | assumption

/-! ### Runs -/

variable {start : UpdateService} {moments : List Moment}

theorem Run.sound (run : Run start moments service) (sound : Sound start) : Sound service := by
  induction run with
  | nil => exact sound
  | snoc _ returned ih => exact ih.perform returned

theorem Run.moment (run : Run start moments service) (sound : Sound start) {moment : Moment}
    (member : moment ∈ moments) : Sound moment.before ∧
      moment.before.perform moment.call = some (moment.after, moment.answer) := by
  induction run with
  | nil => cases member
  | snoc run returned ih =>
    rcases mem_append.mp member with old | new
    · exact ih old
    · rw [mem_singleton.mp new]
      exact ⟨run.sound sound, returned⟩

/-- A run stops at any of its moments and goes on from there. -/
theorem Run.split (run : Run start moments service) {early late : List Moment} {moment : Moment}
    (split : moments = early ++ moment :: late) :
    Run start early moment.before ∧ Run moment.after late service := by
  induction run generalizing late with
  | nil => exact absurd split.symm (by simp)
  | @snoc moments service after call answer run returned ih =>
    rcases eq_nil_or_concat late with rfl | ⟨before, last, rfl⟩
    · obtain ⟨rfl, same⟩ := append_inj' split rfl
      cases same
      exact ⟨run, .nil⟩
    · rw [concat_eq_append, ← cons_append, ← append_assoc] at split
      obtain ⟨rest, same⟩ := append_inj' split rfl
      cases same
      obtain ⟨front, back⟩ := ih rest
      rw [concat_eq_append]
      exact ⟨front, back.snoc returned⟩

/-- The attempts that have begun. -/
def begun (moments : List Moment) : List UpdateAttempt :=
  moments.filterMap fun moment => moment.answer.attempt?

/-- The attempts that have begun are all different, and only the last may be active. -/
structure Numbered (moments : List Moment) (service : UpdateService) : Prop where
  rising : (begun moments).Pairwise fun early late => early.number < late.number
  bounded : ∀ attempt ∈ begun moments, attempt.number ≤ service.inner.attempt
  newest : ∀ attempt, service.inner.active = some attempt →
    (begun moments).getLast? = some attempt

theorem begun_concat (moments : List Moment) (moment : Moment) :
    begun (moments ++ [moment]) = begun moments ++ moment.answer.attempt?.toList := by
  unfold begun
  rw [filterMap_append]
  cases equal : moment.answer.attempt? <;> simp [equal]

theorem Numbered.perform (numbered : Numbered moments service)
    (returned : service.perform call = some (after, answer)) :
    Numbered (moments ++ [⟨service, call, answer, after⟩]) after := by
  have quiet (idle : answer.attempt? = none) :
      begun (moments ++ [⟨service, call, answer, after⟩]) = begun moments := by
    rw [begun_concat, idle, toList_none, List.append_nil]
  rcases perform_outcome returned with ⟨rfl, idle⟩ | ⟨inner, change, published⟩
  · constructor <;> rw [quiet idle.attempt?]
    exacts [numbered.rising, numbered.bounded, numbered.newest]
  have attempt : after.inner.attempt = inner.attempt := by rw [published.state]; rfl
  have active : after.inner.active = inner.active := by rw [published.state]; rfl
  rcases change.attempts with ⟨fresh, next, own⟩ | ⟨idle, same, less⟩
  · have grown : begun (moments ++ [⟨service, call, answer, after⟩]) =
        begun moments ++ [⟨inner.attempt⟩] := by
      rw [begun_concat, fresh, toList_some]
    constructor <;> rw [grown]
    · refine pairwise_append.mpr ⟨numbered.rising, pairwise_singleton _ _, ?_⟩
      rintro early old late new
      rw [mem_singleton.mp new, next]
      exact Nat.lt_succ_of_le (numbered.bounded early old)
    · intro other member
      rw [attempt]
      rcases mem_append.mp member with old | new
      · exact (numbered.bounded other old).trans (by rw [next]; exact Nat.le_succ _)
      · rw [mem_singleton.mp new]
    · intro other same
      rw [active, own] at same
      rw [getLast?_concat, same]
  · constructor <;> rw [quiet idle]
    · exact numbered.rising
    · rw [attempt, same]
      exact numbered.bounded
    · intro other equal
      rw [active] at equal
      rcases less with kept | gone
      · exact numbered.newest other (kept.symm.trans equal)
      · exact absurd (gone.symm.trans equal) (by simp)

theorem Run.numbered (run : Run start moments service) (fresh : start.inner.active = none) :
    Numbered moments service := by
  induction run with
  | nil => exact ⟨.nil, nofun, fun _ same => absurd (fresh.symm.trans same) (by simp)⟩
  | snoc _ returned ih => exact ih.perform returned

/-! ### The download that is ready -/

/-- A download has begun of the release that was shown. -/
structure Began (moment : Moment) (version : String) (attempt : UpdateAttempt) : Prop where
  call : moment.call = .beginDownload version
  answer : moment.answer = .begun (.ok attempt)
  release : ∃ info, moment.before.snapshot.info = some info ∧ info.available = true ∧
    info.latestVersion = version
  shown : moment.before.changes.getLast? = some moment.before.snapshot

/-- The service downloads what a moment has begun. -/
structure Downloads (moment : Moment) (version : String) (attempt : UpdateAttempt)
    (service : UpdateService) : Prop where
  began : Began moment version attempt
  version : service.flow.version = version
  info : service.snapshot.info = moment.before.snapshot.info

theorem Sound.began (sound : Sound service) (returned : service.perform (.beginDownload version) =
      some (after, .begun (.ok attempt))) :
    Downloads ⟨service, .beginDownload version, .begun (.ok attempt), after⟩ version attempt
      after := by
  rcases perform_outcome returned with ⟨-, error, same⟩ | ⟨inner, change, published⟩
  · cases same
  cases change with
  | beginDownload admitted shown unready =>
    refine ⟨⟨rfl, rfl, shown, ?_⟩, ?_, ?_⟩
    · obtain ⟨info, found, -⟩ := shown
      rcases sound.told with told | ⟨-, hidden⟩
      · exact told
      · exact absurd (found.symm.trans hidden) (by simp)
    · rw [UpdateService.flow, published.state]
      rfl
    · rw [UpdateService.snapshot, published.state]
      rfl

/-- What downloads has begun with the release that was shown. -/
theorem Run.downloads (run : Run start moments service) (sound : Sound start)
    (fresh : start.flow.phase = .idle) (phase : service.flow.phase = .downloading) :
    ∃ early moment late version attempt, moments = early ++ moment :: late ∧
      Downloads moment version attempt service ∧ service.inner.active = some attempt := by
  induction run with
  | nil => exact absurd (fresh.symm.trans phase) (by decide)
  | @snoc moments service after call answer run returned ih =>
    have before := run.sound sound
    have carried (same : after.flow.version = service.flow.version ∧
        after.snapshot.info = service.snapshot.info ∧
        after.inner.active = service.inner.active) (still : service.flow.phase = .downloading) :
        ∃ early moment late version attempt,
          moments ++ [⟨service, call, answer, after⟩] = early ++ moment :: late ∧
          Downloads moment version attempt after ∧ after.inner.active = some attempt := by
      obtain ⟨early, moment, late, version, attempt, split, downloads, active⟩ :=
        ih still
      refine ⟨early, moment, late ++ [⟨service, call, answer, after⟩], version, attempt, ?_,
        ⟨downloads.began, same.1.trans downloads.version, same.2.1.trans downloads.info⟩,
        same.2.2.trans active⟩
      rw [split, append_assoc, cons_append]
    rcases perform_outcome returned with ⟨rfl, -⟩ | ⟨inner, change, published⟩
    · exact carried ⟨rfl, rfl, rfl⟩ phase
    have state := published.state
    have same : after.flow.version = inner.snapshot.flow.version ∧
        after.snapshot.info = inner.snapshot.info ∧ after.inner.active = inner.active := by
      rw [UpdateService.flow, UpdateService.snapshot, state]
      exact ⟨rfl, rfl, rfl⟩
    rw [UpdateService.flow, state] at phase
    cases change with
    | configure unset idle lasting =>
      have busy := (before.inner.downloading phase).1
      rw [idle] at busy
      cases busy
    | progress active downloading onward | verifying active downloading =>
      exact carried same downloading
    | beginDownload admitted shown unready =>
      exact ⟨moments, _, [], _, _, rfl, before.began returned, same.2.2⟩
    | beginCheck | checked | staged | beginApply | installed | failed => cases phase

/-- A download that is ready has been staged by the attempt that has begun it, and has not changed
since. -/
def Verified (moments : List Moment) (service : UpdateService) : Prop :=
  ∃ early download middle staging late version attempt,
    moments = early ++ download :: middle ++ staging :: late ∧
      Downloads download version attempt service ∧
      staging.call = .staged attempt ∧ staging.answer = .accepted true ∧ staging.after = service

theorem Run.verified (run : Run start moments service) (sound : Sound start)
    (fresh : start.flow.phase = .idle) (phase : service.flow.phase = .ready) :
    Verified moments service := by
  induction run with
  | nil => exact absurd (fresh.symm.trans phase) (by decide)
  | @snoc moments service after call answer run returned ih =>
    have before := run.sound sound
    rcases perform_outcome returned with ⟨rfl, -⟩ | ⟨inner, change, published⟩
    · obtain ⟨early, download, middle, staging, late, version, attempt, split, rest⟩ :=
        ih phase
      refine ⟨early, download, middle, staging, late ++ [⟨after, call, answer, after⟩], version, attempt,
        ?_, rest⟩
      rw [split]
      simp only [append_assoc, cons_append]
    have state := published.state
    rw [UpdateService.flow, state] at phase
    cases change with
    | configure unset =>
      have configured := before.inner.configured (before.inner.ready phase).1
      exact absurd (unset.symm.trans configured) (by decide)
    | progress _ downloading | verifying _ downloading =>
      exact absurd (downloading.symm.trans phase) (by decide)
    | @staged attempt active downloading =>
      obtain ⟨early, moment, late, version, own, split, downloads, same⟩ :=
        run.downloads sound fresh downloading
      cases active.symm.trans same
      refine ⟨early, moment, late, ⟨service, .staged attempt, .accepted true, after⟩, [], version,
        attempt, ?_, ⟨downloads.began, ?_, ?_⟩, rfl, rfl, rfl⟩
      · rw [split]
      · rw [UpdateService.flow, state]
        exact downloads.version
      · rw [UpdateService.snapshot, state]
        exact downloads.info
    | beginCheck | checked | beginDownload | beginApply | installed | failed => cases phase

/-! ### What is advertised -/

/-- The service does not turn a call away: the call begins an attempt, unless a counter is
exhausted. -/
def Admits (service : UpdateService) (call : Call) : Prop :=
  ¬ ∃ error, service.perform call = some (service, .begun (.error error))

theorem begin_refuses_nothing {error : UpdateError} :
    service.begin inner change ≠ some (after, .error error) := by
  intro refused
  cases (begin_eq_some refused).1

theorem admits_beginCheck : Admits service .beginCheck ↔
    service.admission = none ∧ service.flow.phase ≠ .ready := by
  refine ⟨fun admits => ?_, fun ⟨admitted, unready⟩ ⟨error, refused⟩ => ?_⟩
  · cases admission : service.admission with
    | some error =>
      refine absurd ⟨error, ?_⟩ admits
      rw [UpdateService.perform, UpdateService.beginCheck, admission]
      rfl
    | none =>
      refine ⟨rfl, fun ready => absurd ⟨.busy, ?_⟩ admits⟩
      rw [UpdateService.perform, UpdateService.beginCheck, admission]
      dsimp only
      rw [if_pos ready]
      rfl
  · rw [UpdateService.perform, UpdateService.beginCheck, admitted] at refused
    dsimp only at refused
    rw [if_neg unready] at refused
    obtain ⟨⟨_, _⟩, began, same⟩ := map_eq_some_iff.mp refused
    cases same
    exact begin_refuses_nothing began

theorem admits_beginDownload : Admits service (.beginDownload version) ↔
    service.admission = none ∧ service.flow.phase ≠ .ready ∧
      ∃ info, service.snapshot.info = some info ∧ info.available = true ∧
        info.latestVersion = version := by
  have fits : (service.snapshot.info.any fun info =>
      info.available && decide (info.latestVersion = version)) = true ↔
      ∃ info, service.snapshot.info = some info ∧ info.available = true ∧
        info.latestVersion = version := by
    simp only [Option.any_eq_true, Bool.and_eq_true, decide_eq_true_eq]
  rw [← fits]
  refine ⟨fun admits => ?_, fun ⟨admitted, unready, shown⟩ ⟨error, refused⟩ => ?_⟩
  · cases admission : service.admission with
    | some error =>
      refine absurd ⟨error, ?_⟩ admits
      rw [UpdateService.perform, UpdateService.beginDownload, admission]
      rfl
    | none =>
      have shown := not_not.mp fun hidden => absurd ⟨.staleRelease, by
        rw [UpdateService.perform, UpdateService.beginDownload, admission]
        dsimp only
        rw [if_pos hidden]
        rfl⟩ admits
      refine ⟨rfl, fun ready => absurd ⟨.busy, ?_⟩ admits, shown⟩
      rw [UpdateService.perform, UpdateService.beginDownload, admission]
      dsimp only
      rw [if_neg (not_not.mpr shown), if_pos ready]
      rfl
  · rw [UpdateService.perform, UpdateService.beginDownload, admitted] at refused
    dsimp only at refused
    rw [if_neg (not_not.mpr shown), if_neg unready] at refused
    obtain ⟨⟨_, _⟩, began, same⟩ := map_eq_some_iff.mp refused
    cases same
    exact begin_refuses_nothing began

theorem admits_beginApply : Admits service .beginApply ↔
    service.admission = none ∧ service.flow.phase = .ready := by
  refine ⟨fun admits => ?_, fun ⟨admitted, ready⟩ ⟨error, refused⟩ => ?_⟩
  · cases admission : service.admission with
    | some error =>
      refine absurd ⟨error, ?_⟩ admits
      rw [UpdateService.perform, UpdateService.beginApply, admission]
      rfl
    | none =>
      refine ⟨rfl, not_not.mp fun unready => absurd ⟨.notReady, ?_⟩ admits⟩
      rw [UpdateService.perform, UpdateService.beginApply, admission]
      dsimp only
      rw [if_pos unready]
      rfl
  · rw [UpdateService.perform, UpdateService.beginApply, admitted] at refused
    dsimp only at refused
    rw [if_neg (not_not.mpr ready)] at refused
    obtain ⟨⟨_, _⟩, began, same⟩ := map_eq_some_iff.mp refused
    cases same
    exact begin_refuses_nothing began

theorem Sound.canCheck (sound : Sound service) :
    service.flow.canCheck = true ↔ Admits service .beginCheck := by
  rw [admits_beginCheck, admission_eq_none, sound.advertised]
  simp [Inner.advertise, and_assoc]

theorem Sound.canDownload (sound : Sound service) (version : String) :
    (service.flow.canDownload = true ∧
        ∃ info, service.snapshot.info = some info ∧ info.latestVersion = version) ↔
      Admits service (.beginDownload version) := by
  rw [admits_beginDownload, admission_eq_none, sound.advertised]
  cases found : service.inner.snapshot.info <;> simp [found, Inner.advertise, and_assoc]

theorem Sound.canApply (sound : Sound service) :
    service.flow.canApply = true ↔ Admits service .beginApply := by
  have applies : service.flow.canApply = true ↔
      service.flow.supported = true ∧ service.flow.phase = .ready ∧
        service.inner.active = none := by
    rw [sound.advertised]
    simp [Inner.advertise, and_assoc]
  rw [admits_beginApply, admission_eq_none, applies]
  constructor
  · rintro ⟨supported, ready, idle⟩
    exact ⟨sound.inner.ready ready, ready⟩
  · rintro ⟨⟨supported, idle, -⟩, ready⟩
    exact ⟨supported, ready, idle⟩

/-! ### What installs -/

theorem perform_terminal (returned : service.perform call = some (after, answer))
    (terminal : service.inner.terminal = true) :
    after.inner.terminal = true ∧ answer.attempt? = none := by
  rcases perform_outcome returned with ⟨rfl, idle⟩ | ⟨inner, change, published⟩
  · exact ⟨terminal, idle.attempt?⟩
  · refine ⟨?_, eq_none_iff_forall_not_mem.mpr fun attempt begun => ?_⟩
    · rw [published.state]
      exact change.terminal_iff.mpr (.inl terminal)
    · exact absurd (terminal.symm.trans (change.open_ begun)) (by decide)

theorem Run.terminal (run : Run start moments service) (terminal : start.inner.terminal = true) :
    service.inner.terminal = true ∧ ∀ moment ∈ moments, moment.before.inner.terminal = true ∧
      moment.after.inner.terminal = true ∧ moment.answer.attempt? = none := by
  induction run with
  | nil => exact ⟨terminal, fun _ member => absurd member not_mem_nil⟩
  | snoc _ returned ih =>
    obtain ⟨before, earlier⟩ := ih
    have here := perform_terminal returned before
    refine ⟨here.1, fun moment member => ?_⟩
    rcases mem_append.mp member with old | new
    · exact earlier moment old
    · rw [mem_singleton.mp new]
      exact ⟨before, here⟩

theorem Run.received (run : Run start moments service)
    (within : ∀ moment ∈ moments, moment.answer.attempt? = none) :
    start.flow.receivedBytes ≤ service.flow.receivedBytes := by
  induction run with
  | nil => exact UInt64.le_refl _
  | @snoc moments service after call answer run returned ih =>
    have earlier := ih fun moment member =>
      within moment (mem_append_left _ member)
    rcases perform_outcome returned with ⟨rfl, -⟩ | ⟨inner, change, published⟩
    · exact earlier
    · have more := change.received (within _ mem_concat_self)
      have state : after.flow.receivedBytes = inner.snapshot.flow.receivedBytes :=
        congrArg (·.snapshot.flow.receivedBytes) published.state
      exact UInt64.le_trans earlier (more.trans_eq state.symm)

/-- An installation begins where a verified download is ready. -/
theorem applies_ready (returned : service.perform .beginApply = some (after, .begun (.ok attempt)))
    : service.flow.phase = .ready ∧ after.inner.terminal = true := by
  rcases perform_outcome returned with ⟨-, error, same⟩ | ⟨inner, change, published⟩
  · cases same
  · rw [published.state]
    cases change with
    | beginApply admitted ready => exact ⟨ready, rfl⟩

/-- Only an installation that has begun makes the service terminal. -/
theorem Run.terminal_iff (run : Run start moments service) (open_ : start.inner.terminal = false) :
    service.inner.terminal = true ↔
      ∃ moment ∈ moments, moment.call = .beginApply ∧ moment.answer.attempt?.isSome = true := by
  induction run with
  | nil => exact ⟨fun closed => absurd (open_.symm.trans closed) (by decide), by simp⟩
  | @snoc moments service after call answer run returned ih =>
    simp only [mem_append, mem_singleton, or_and_right, exists_or, exists_eq_left,
      ← ih]
    rcases perform_outcome returned with ⟨rfl, idle⟩ | ⟨inner, change, published⟩
    · rw [idle.attempt?]
      simp
    · rw [published.state]
      exact change.terminal_iff

/-! ### The authority -/

/-- An installation begins with the verified download and is never followed by another attempt. -/
def AppliesOnce (moments : List Moment) : Prop :=
  ∀ early apply late attempt, moments = early ++ apply :: late → apply.call = .beginApply →
    apply.answer = .begun (.ok attempt) →
    apply.before.flow.phase = .ready ∧ Verified early apply.before ∧
      apply.after.inner.terminal = true ∧
      ∀ later ∈ late, later.before.inner.terminal = true ∧ later.after.inner.terminal = true ∧
        later.answer.attempt? = none

/-- What the update authority guarantees of what it has gone through and has come to. -/
structure Authority (moments : List Moment) (service : UpdateService) : Prop where
  /-- Tokens are never used again. -/
  attempts : (begun moments).Pairwise fun early late => early.number < late.number
  /-- One attempt is active at most, and it is the last. -/
  alone : ∀ attempt, service.inner.active = some attempt →
    (begun moments).getLast? = some attempt
  /-- A call about another attempt, or one out of place, does nothing. -/
  stray : ∀ moment ∈ moments, ∀ attempt, moment.call.attempt? = some attempt →
    moment.before.inner.active ≠ some attempt ∨
      ¬ moment.call.Belongs moment.before.flow.phase →
    moment.after = moment.before ∧ moment.answer ≠ .accepted true
  verified : service.flow.phase = .ready → Verified moments service
  kept : ∀ moment ∈ moments, moment.before.flow.phase = .ready → moment.call ≠ .beginApply →
    moment.after = moment.before
  applied : AppliesOnce moments
  /-- A download receives no less, up to the next attempt. -/
  received : ∀ early moment late, moments = early ++ moment :: late →
    (∀ later ∈ late, later.answer.attempt? = none) →
    moment.after.flow.receivedBytes ≤ service.flow.receivedBytes
  revisions : service.changes.Pairwise fun early late => early.flow.revision < late.flow.revision
  /-- Whatever changes is published. -/
  published : ∀ moment ∈ moments, moment.after = moment.before ∨
    moment.after.changes = moment.before.changes ++ [moment.after.snapshot]
  canCheck : service.flow.canCheck = true ↔ Admits service .beginCheck
  canDownload : ∀ version, (service.flow.canDownload = true ∧
      ∃ info, service.snapshot.info = some info ∧ info.latestVersion = version) ↔
    Admits service (.beginDownload version)
  canApply : service.flow.canApply = true ↔ Admits service .beginApply
  /-- The installation that has begun is over. -/
  canRestart : service.flow.canRestart = true ↔ service.inner.active = none ∧
    ∃ moment ∈ moments, moment.call = .beginApply ∧ moment.answer.attempt?.isSome = true

theorem Sound.canRestart (sound : Sound service) :
    service.flow.canRestart = true ↔
      service.inner.terminal = true ∧ service.inner.active = none := by
  rw [sound.advertised]
  simp [Inner.advertise]

/-- In every run of its calls, with whatever attempts they name, the update authority applies
nothing but the verified download of the release that was shown. -/
theorem update_authority {currentVersion platform arch : String}
    (run : Run (.new currentVersion platform arch) moments service) :
    Authority moments service := by
  have initial := sound_new currentVersion platform arch
  have sound := run.sound initial
  have numbered := run.numbered rfl
  refine
    { attempts := numbered.rising
      alone := numbered.newest
      stray := ?_
      verified := run.verified initial rfl
      kept := ?_
      applied := ?_
      received := ?_
      revisions := sound.rising
      published := ?_
      canCheck := sound.canCheck
      canDownload := sound.canDownload
      canApply := sound.canApply
      canRestart := ?_ }
  · intro moment member attempt about astray
    rcases perform_outcome (run.moment initial member).2 with ⟨same, idle⟩ | ⟨inner, change, -⟩
    · refine ⟨same, fun took => ?_⟩
      rw [took] at idle
      cases idle
    · obtain ⟨active, belongs⟩ := change.about about
      exact absurd astray (not_or.mpr ⟨not_not.mpr active, not_not.mpr belongs⟩)
  · intro moment member ready other
    obtain ⟨before, returned⟩ := run.moment initial member
    exact before.kept ready returned other
  · intro early apply late attempt split call answer
    obtain ⟨before, after⟩ := run.split split
    have returned := (run.moment initial (split ▸ mem_append_cons_self : apply ∈ moments)).2
    rw [call, answer] at returned
    obtain ⟨ready, terminal⟩ := applies_ready returned
    exact ⟨ready, before.verified initial rfl ready, terminal, (after.terminal terminal).2⟩
  · intro early moment late split within
    exact (run.split split).2.received within
  · intro moment member
    rcases perform_outcome (run.moment initial member).2 with ⟨same, -⟩ | ⟨inner, -, published⟩
    · exact .inl same
    · right
      rw [UpdateService.snapshot, published.state]
      exact published.changes
  · rw [sound.canRestart, and_comm, run.terminal_iff rfl]

theorem Run.asked (run : Run start moments service) (call : Call)
    (returned : service.perform call = some (after, answer)) :
    Run start (moments ++ [⟨service, call, answer, after⟩]) after :=
  run.snoc returned

/-- A check fails, a second one finds a release, and this is downloaded and installed; what is
left of the check comes too late. -/
theorem update_authority_installs : ∃ moments service,
    Run (.new "1.0.0" "linux" "x86_64") moments service ∧ Authority moments service ∧
      begun moments = [⟨1⟩, ⟨2⟩, ⟨3⟩, ⟨4⟩] ∧ service.flow.phase = .restartPending := by
  have run := (Run.nil : Run (.new "1.0.0" "linux" "x86_64") [] _) |>.asked (.configure none) rfl |>.asked .beginCheck rfl
    |>.asked (.failed ⟨1⟩ "Check failed.") rfl |>.asked .beginCheck rfl
    |>.asked (.checked ⟨1⟩ none "") rfl
    |>.asked (.checked ⟨2⟩ (some ("1.1.0", "")) "") rfl
    |>.asked (.beginDownload "1.1.0") rfl |>.asked (.progress ⟨3⟩ 80 (some 100)) rfl
    |>.asked (.staged ⟨3⟩) rfl |>.asked .beginApply rfl |>.asked (.installed ⟨4⟩) rfl
  exact ⟨_, _, run, update_authority run, rfl, rfl⟩

end Axial.Update
