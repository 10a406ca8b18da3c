/-
This file models the cancellation of a group of physical work in
`core/resource/src/lib.rs`: the registration of a task, its wait for admission
beside the cancellation channel, the start of its work, and the calls of
`cancel()` and `drain()` that fall anywhere in between. Every load, store and
send is a step of its own; the steps of all tasks and callers interleave in any
way and each takes effect at once.
-/

import Axial.Library.Runs

namespace Axial.Resource

open Relation Function List

/-- `usize::MAX`. -/
abbrev usizeMax : Nat := 2 ^ 64 - 1

/-! ### Tasks -/

/-- Where a call of `run_inner` stands. -/
inductive GroupStage where
  | idle
  /-- `register` has seen that the group was not cancelled. -/
  | checked
  /-- It has counted the task in. -/
  | counted
  /-- It has seen the cancellation after all and is to count the task out. -/
  | undoing
  /-- It has returned a registration. -/
  | registered
  /-- The task waits for admission, its receiver having seen the given version. -/
  | waiting (seen : Nat)
  /-- It is admitted and its closure handed to a worker. -/
  | queued
  /-- The worker has seen that the task is not cancelled. -/
  | cleared
  /-- The work closure has started. -/
  | working
  /-- The registration is being dropped. -/
  | leaving
  | done

/-- The task is among the active ones. -/
def GroupStage.active : GroupStage → Bool
  | .idle | .checked | .done => false
  | _ => true

/-- The stages past the second look at the cancellation. -/
def GroupStage.past : GroupStage → Bool
  | .registered | .waiting _ | .queued | .cleared | .working => true
  | _ => false

/-! ### Groups -/

/-- `cancelled` is the flag, `version` counts what was sent on the cancellation channel, by each
completed `cancel()` once, and `cancelling` the calls that have set the flag and not yet sent.
`drained` says that `drain()` has found no active task with the flag set, and `lateStart` that a
work closure has started after that and after a completed `cancel()`. -/
structure WorkGroup where
  cancelled : Bool
  version : Nat
  cancelling : Nat
  activeCount : Nat
  stage : Nat → GroupStage
  drained : Bool
  lateStart : Bool

namespace WorkGroup

def new : WorkGroup where
  cancelled := false
  version := 0
  cancelling := 0
  activeCount := 0
  stage _ := .idle
  drained := false
  lateStart := false

def goOn (group : WorkGroup) (task : Nat) (stage : GroupStage) : WorkGroup :=
  { group with stage := update group.stage task stage }

/-- `increment_group_count`, but for the overflow of the counter. -/
def countIn (group : WorkGroup) : WorkGroup := { group with activeCount := group.activeCount + 1 }

/-- `decrement_group_count`. Nothing is its panic when there is nobody to count out. -/
def countOut (group : WorkGroup) : Option WorkGroup :=
  if group.activeCount = 0 then none
  else some { group with activeCount := group.activeCount - 1 }

inductive Step : WorkGroup → WorkGroup → Prop
  | checks {group task} (now : group.stage task = .idle)
      (clear : group.cancelled = false) : Step group (group.goOn task .checked)
  | refused {group task} (now : group.stage task = .idle)
      (set : group.cancelled = true) : Step group (group.goOn task .done)
  | counts {group task} (now : group.stage task = .checked)
      (room : group.activeCount < usizeMax) : Step group (group.countIn.goOn task .counted)
  | overflows {group task} (now : group.stage task = .checked)
      (full : group.activeCount = usizeMax) : Step group (group.goOn task .done)
  | registers {group task} (now : group.stage task = .counted)
      (clear : group.cancelled = false) : Step group (group.goOn task .registered)
  | turnsBack {group task} (now : group.stage task = .counted)
      (set : group.cancelled = true) : Step group (group.goOn task .undoing)
  /-- A new receiver has seen all that was sent before. -/
  | subscribes {group task} (now : group.stage task = .registered) :
      Step group (group.goOn task (.waiting group.version))
  | admitted {group task seen} (now : group.stage task = .waiting seen) :
      Step group (group.goOn task .queued)
  /-- The receiver wakes for what it has not seen. -/
  | wakes {group task seen} (now : group.stage task = .waiting seen)
      (unseen : seen ≠ group.version) : Step group (group.goOn task .leaving)
  /-- The deadline passes, admission fails, or the call is dropped. -/
  | givesUp {group task} (before : (group.stage task).active = true)
      (unstarted : group.stage task ∉ [.cleared, .working, .undoing, .counted]) :
      Step group (group.goOn task .leaving)
  | clears {group task} (now : group.stage task = .queued)
      (clear : group.cancelled = false) : Step group (group.goOn task .cleared)
  | starts {group task} (now : group.stage task = .cleared) :
      Step group { group.goOn task .working with
        lateStart := group.lateStart || (decide (0 < group.version) && group.drained) }
  | finishes {group task} (now : group.stage task = .working) :
      Step group (group.goOn task .leaving)
  | leaves {group after task}
      (now : group.stage task = .leaving ∨ group.stage task = .undoing)
      (counted : group.countOut = some after) : Step group (after.goOn task .done)
  | setsFlag {group} :
      Step group { group with cancelled := true, cancelling := group.cancelling + 1 }
  | sends {group others} (now : group.cancelling = others + 1) :
      Step group { group with version := group.version + 1, cancelling := others }
  | drains {group} (nobody : group.activeCount = 0) :
      Step group { group with drained := group.drained || group.cancelled }

/-- Once a `cancel()` has completed, every task that waits has something to see. -/
def Notified (group : WorkGroup) : Prop :=
  0 < group.version → ∀ task seen, group.stage task = .waiting seen → seen ≠ group.version

/-- A task that takes its receiver in this step does so before any `cancel()` has completed. -/
def Timely (before after : WorkGroup) : Prop :=
  ∀ task seen, before.stage task = .registered → after.stage task = .waiting seen →
    before.version = 0

/-! ### Finality -/

/-- What holds of every group that was reached: the counter counts the active tasks, what is sent
was flagged before, and with the flag set and the group once drained no task is past its look at
the flag. -/
structure Consistent (group : WorkGroup) : Prop where
  counted : ∃ active : Finset Nat, (∀ task, task ∈ active ↔ (group.stage task).active = true) ∧
    group.activeCount = active.card
  flagged : group.drained = true ∨ 0 < group.version ∨ 0 < group.cancelling →
    group.cancelled = true
  final : group.drained = true → ∀ task, (group.stage task).past = false
  onTime : group.lateStart = false

variable {group after : WorkGroup} {task : Nat} {stage : GroupStage}

theorem goOn_self : (group.goOn task stage).stage task = stage := update_self ..

theorem goOn_of_ne {other : Nat} (apart : other ≠ task) :
    (group.goOn task stage).stage other = group.stage other := update_of_ne apart ..

/-- The active tasks after one of them has moved among the active stages, or one of the others
among the others. -/
theorem counted_goOn
    (counted : ∃ active : Finset Nat, (∀ task, task ∈ active ↔ (group.stage task).active = true) ∧
      group.activeCount = active.card)
    (same : stage.active = (group.stage task).active) :
    ∃ active : Finset Nat,
      (∀ other, other ∈ active ↔ ((group.goOn task stage).stage other).active = true) ∧
      group.activeCount = active.card := by
  obtain ⟨active, members, count⟩ := counted
  refine ⟨active, fun other => ?_, count⟩
  by_cases own : other = task
  · rw [own, goOn_self, same]
    exact members task
  · rw [goOn_of_ne own]
    exact members other

theorem final_goOn (final : group.drained = true → ∀ task, (group.stage task).past = false)
    (stays : group.drained = true → stage.past = false) :
    group.drained = true → ∀ other, ((group.goOn task stage).stage other).past = false := by
  intro drained other
  by_cases own : other = task
  · rw [own, goOn_self]
    exact stays drained
  · rw [goOn_of_ne own]
    exact final drained other

theorem Consistent.goOn (consistent : group.Consistent)
    (same : stage.active = (group.stage task).active)
    (stays : group.drained = true → stage.past = false) : (group.goOn task stage).Consistent :=
  ⟨counted_goOn consistent.counted same, consistent.flagged, final_goOn consistent.final stays,
    consistent.onTime⟩

variable {claim : Prop}

/-- A task that stands past its look at the flag shows that the group was not drained. -/
theorem Consistent.undrained (consistent : group.Consistent) (past : (group.stage task).past = true)
    (drained : group.drained = true) : claim := by
  rw [consistent.final drained task] at past
  cases past

theorem Consistent.unset (consistent : group.Consistent) (clear : group.cancelled = false)
    (drained : group.drained = true) : claim := by
  rw [consistent.flagged (.inl drained)] at clear
  cases clear

theorem consistent_step (step : group.Step after) (consistent : group.Consistent) :
    after.Consistent := by
  cases step with
  | checks now clear | refused now set | overflows now full | turnsBack now set | finishes now
  | wakes now unseen =>
    exact consistent.goOn (by rw [now]; rfl) fun _ => rfl
  | @counts task now room =>
    obtain ⟨active, members, count⟩ := consistent.counted
    have fresh : task ∉ active := by
      rw [members, now]
      exact Bool.false_ne_true
    refine ⟨⟨insert task active, fun other => ?_, ?_⟩, consistent.flagged,
      final_goOn consistent.final fun _ => rfl, consistent.onTime⟩
    · rw [Finset.mem_insert, members]
      by_cases own : other = task
      · rw [own, goOn_self]
        exact iff_of_true (.inl rfl) rfl
      · rw [goOn_of_ne own]
        exact or_iff_right own
    · rw [Finset.card_insert_of_notMem fresh, ← count]
      rfl
  | registers now clear | clears now clear =>
    exact consistent.goOn (by rw [now]; rfl) (consistent.unset clear)
  | subscribes now | admitted now =>
    exact consistent.goOn (by rw [now]; rfl) (consistent.undrained (by rw [now]; rfl))
  | givesUp before unstarted => exact consistent.goOn before.symm fun _ => rfl
  | @starts task now =>
    have past : (group.stage task).past = true := by
      rw [now]
      rfl
    have undrained : group.drained = false :=
      Bool.not_eq_true _ ▸ fun drained => consistent.undrained past drained
    have moved : (group.goOn task .working).Consistent :=
      consistent.goOn (by rw [now]; rfl) (consistent.undrained past)
    refine ⟨moved.counted, moved.flagged, moved.final, ?_⟩
    show (group.lateStart || (decide (0 < group.version) && group.drained)) = false
    rw [consistent.onTime, undrained, Bool.and_false, Bool.or_false]
  | @leaves after task now out =>
    unfold countOut at out
    split_ifs at out
    cases out
    obtain ⟨active, members, count⟩ := consistent.counted
    have member : task ∈ active := by
      rw [members]
      rcases now with now | now <;> rw [now] <;> rfl
    refine ⟨⟨active.erase task, fun other => ?_, ?_⟩, consistent.flagged, ?_, consistent.onTime⟩
    · rw [Finset.mem_erase, members]
      by_cases own : other = task
      · rw [own, goOn_self]
        exact iff_of_false (fun both => both.1 rfl) Bool.false_ne_true
      · rw [goOn_of_ne own]
        exact and_iff_right own
    · rw [Finset.card_erase_of_mem member, ← count]
      rfl
    · exact fun drained other => by
        by_cases own : other = task
        · rw [own, goOn_self]
          rfl
        · rw [goOn_of_ne own]
          exact consistent.final drained other
  | setsFlag =>
    exact ⟨consistent.counted, fun _ => rfl, consistent.final, consistent.onTime⟩
  | sends now =>
    have set : group.cancelled = true := consistent.flagged (.inr (.inr (now ▸ Nat.succ_pos _)))
    exact ⟨consistent.counted, fun _ => set, consistent.final, consistent.onTime⟩
  | drains nobody =>
    refine ⟨consistent.counted, fun cause => ?_, fun drained other => ?_, consistent.onTime⟩
    · rcases cause with drained | sent
      · rcases (Bool.or_eq_true ..).mp drained with earlier | set
        · exact consistent.flagged (.inl earlier)
        · exact set
      · exact consistent.flagged (.inr sent)
    · obtain ⟨active, members, count⟩ := consistent.counted
      rw [nobody] at count
      have inactive : ¬(group.stage other).active = true := by
        intro counts
        have member := (members other).mpr counts
        rw [Finset.card_eq_zero.mp count.symm] at member
        exact Finset.notMem_empty other member
      show (group.stage other).past = false
      revert inactive
      cases group.stage other <;> simp [GroupStage.active, GroupStage.past]

/-! ### Notification -/

/-- A task waits after a step because it did before, or because it takes its receiver in it. -/
theorem waiting_step {seen : Nat} (step : group.Step after)
    (waits : after.stage task = .waiting seen) :
    group.stage task = .waiting seen ∨
      group.stage task = .registered ∧ seen = group.version ∧ after.version = group.version := by
  have moved {moving : Nat} {next : GroupStage}
      (now : update group.stage moving next task = .waiting seen)
      (unlike : next ≠ .waiting seen) : group.stage task = .waiting seen := by
    by_cases own : task = moving
    · rw [own, update_self] at now
      exact absurd now unlike
    · rwa [update_of_ne own] at now
  cases step with
  | checks | refused | overflows | registers | turnsBack | admitted | wakes | givesUp | clears
    | finishes | counts | starts => exact .inl (moved waits nofun)
  | @subscribes subscribing now =>
    by_cases own : task = subscribing
    · subst own
      rw [goOn_self] at waits
      cases waits
      exact .inr ⟨now, rfl, rfl⟩
    · rw [goOn_of_ne own] at waits
      exact .inl waits
  | leaves now counted =>
    unfold countOut at counted
    split_ifs at counted
    cases counted
    exact .inl (moved waits nofun)
  | setsFlag | sends | drains => exact .inl waits

/-- Every task that waits took its receiver before anything was sent. -/
def Early (group : WorkGroup) : Prop := ∀ task seen, group.stage task = .waiting seen → seen = 0

theorem Early.notified (early : group.Early) : group.Notified := by
  intro completed task seen waits
  rw [early task seen waits]
  exact completed.ne

theorem early_step (step : group.Step after) (timely : group.Timely after) (early : group.Early) :
    after.Early := by
  intro task seen waits
  rcases waiting_step step waits with before | ⟨registered, same, -⟩
  · exact early task seen before
  · exact same.trans (timely task seen registered waits)

/-- A receiver taken after a completed `cancel()` has seen what that sent. -/
theorem timely_of_notified (step : group.Step after) (notified : after.Notified) :
    group.Timely after := by
  intro task seen registered waits
  rcases waiting_step step waits with before | ⟨-, same, unsent⟩
  · rw [registered] at before
    cases before
  · by_contra completed
    exact notified (unsent ▸ Nat.pos_of_ne_zero completed) task seen waits (same.trans unsent.symm)

theorem consistent_new : new.Consistent :=
  ⟨⟨∅, fun _ => iff_of_false (Finset.notMem_empty _) Bool.false_ne_true, rfl⟩,
    fun cause => by simp [new] at cause, nofun, rfl⟩

variable {path : List WorkGroup}

theorem consistent_path (run : (group :: path).IsChain Step) (consistent : group.Consistent) :
    ∀ reached ∈ group :: path, reached.Consistent := by
  induction path generalizing group with
  | nil => exact fun reached only => mem_singleton.mp only ▸ consistent
  | cons next path ih =>
    intro reached member
    have ⟨step, rest⟩ := isChain_cons_cons.mp run
    rcases mem_cons.mp member with rfl | later
    · exact consistent
    · exact ih rest (consistent_step step consistent) reached later

theorem notified_path (run : (group :: path).IsChain Step) (early : group.Early) :
    (∀ reached ∈ group :: path, reached.Notified) ↔ (group :: path).IsChain Timely := by
  induction path generalizing group with
  | nil =>
    exact iff_of_true (fun reached only => mem_singleton.mp only ▸ early.notified)
      (isChain_singleton _)
  | cons next path ih =>
    have ⟨step, rest⟩ := isChain_cons_cons.mp run
    rw [forall_mem_cons, isChain_cons_cons]
    refine ⟨fun ⟨_, later⟩ => ?_, fun ⟨timely, later⟩ => ?_⟩
    · have timely := timely_of_notified step (later next mem_cons_self)
      exact ⟨timely, (ih rest (early_step step timely early)).mp later⟩
    · exact ⟨early.notified,
        (ih rest (early_step step timely early)).mpr later⟩

/-- Whatever the interleaving, no work closure starts after a completed `cancel()` and a `drain()`
that found nobody. Every task that waits has something unseen on its cancellation receiver, at
every moment after a `cancel()` has completed, if and only if no task took its receiver after
one. -/
theorem cancel_never_lost_iff (path : List WorkGroup)
    (run : (new :: path).IsChain Step) :
    (∀ group ∈ new :: path, group.lateStart = false) ∧
    ((∀ group ∈ new :: path, group.lateStart = false ∧ group.Notified) ↔
      (new :: path).IsChain Timely) := by
  have onTime : ∀ group ∈ new :: path, group.lateStart = false :=
    fun group member => (consistent_path run consistent_new group member).onTime
  refine ⟨onTime, ?_⟩
  rw [← notified_path run nofun]
  exact forall₂_congr fun group member => and_iff_right (onTime group member)

/-- A task takes its receiver and then a `cancel()` runs to its end. -/
theorem cancel_never_lost_iff_early : ∃ group : WorkGroup, group.stage 0 = .waiting 0 ∧
    group.version = 1 ∧ group.lateStart = false ∧ group.Notified := by
  let checked := new.goOn 0 .checked
  let counted := checked.countIn.goOn 0 .counted
  let registered := counted.goOn 0 .registered
  let waiting := registered.goOn 0 (.waiting 0)
  let flagged : WorkGroup := { waiting with cancelled := true, cancelling := 1 }
  let sent : WorkGroup := { flagged with version := 1, cancelling := 0 }
  have run : [new, checked, counted, registered, waiting, flagged, sent].IsChain Step :=
    .cons_cons (.checks rfl rfl) (.cons_cons (.counts rfl (by decide))
      (.cons_cons (.registers rfl rfl) (.cons_cons (.subscribes rfl)
        (.cons_cons .setsFlag (.cons_cons (.sends rfl) (.singleton _))))))
  have timely : [new, checked, counted, registered, waiting, flagged, sent].IsChain Timely :=
    .cons_cons (fun _ _ _ _ => rfl) (.cons_cons (fun _ _ _ _ => rfl)
      (.cons_cons (fun _ _ _ _ => rfl) (.cons_cons (fun _ _ _ _ => rfl)
        (.cons_cons (fun _ _ _ _ => rfl) (.cons_cons (fun _ _ _ _ => rfl) (.singleton _))))))
  refine ⟨sent, rfl, rfl, ?_⟩
  exact (cancel_never_lost_iff _ run).2.mpr timely sent (by simp)

/-- A `cancel()` runs to its end after a task has registered and before it takes its receiver. The
task then waits with nothing to wake it. -/
theorem cancel_lost : ∃ path : List WorkGroup, (new :: path).IsChain Step ∧
    ∃ group ∈ path, 0 < group.version ∧ group.stage 0 = .waiting group.version ∧
      ¬group.Notified := by
  let checked := new.goOn 0 .checked
  let counted := checked.countIn.goOn 0 .counted
  let registered := counted.goOn 0 .registered
  let flagged : WorkGroup := { registered with cancelled := true, cancelling := 1 }
  let sent : WorkGroup := { flagged with version := 1, cancelling := 0 }
  have run : [new, checked, counted, registered, flagged, sent,
      sent.goOn 0 (.waiting 1)].IsChain Step :=
    .cons_cons (.checks rfl rfl) (.cons_cons (.counts rfl (by decide))
      (.cons_cons (.registers rfl rfl) (.cons_cons .setsFlag
        (.cons_cons (.sends rfl) (.cons_cons (.subscribes rfl) (.singleton _))))))
  refine ⟨_, run, sent.goOn 0 (.waiting 1), by simp, Nat.one_pos, goOn_self, fun notified => ?_⟩
  exact notified Nat.one_pos 0 1 goOn_self rfl

end WorkGroup

end Axial.Resource
