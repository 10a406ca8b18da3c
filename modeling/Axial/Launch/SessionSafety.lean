/-
This file shows what holds of the registry of sessions in every run: an instance has at most
one session that has not exited, no identity is used twice, sessions that have not exited stay in
the registry, and a start leaves at most as many exited sessions as are retained, apart from
those that exit while it evicts.
-/

import Axial.Launch.Sessions

namespace Axial.Launch

open History List Option AList

variable {SessionId InstanceId : Type} [DecidableEq SessionId] [DecidableEq InstanceId]

namespace Sessions

/-! ### The invariant -/

structure Sound (sessions : Sessions SessionId InstanceId) : Prop where
  unique : (sessions.entries.map (·.sessionId)).Nodup
  placed : ∀ sessionId place, sessions.registry.sessions.lookup sessionId = some place →
    ∃ entry, sessions.entries[place]? = some entry ∧ entry.sessionId = sessionId
  known : ∀ (place : Nat) (entry : SessionEntry SessionId InstanceId),
    sessions.entries[place]? = some entry →
    sessions.registry.sessions.lookup entry.sessionId = some place ∨
      entry.sessionId ∈ sessions.registry.retired ∧ entry.phase = .exited
  live : ∀ (place : Nat) (entry : SessionEntry SessionId InstanceId),
    sessions.entries[place]? = some entry → entry.phase ≠ .exited →
    sessions.registry.current.lookup entry.instanceId = some entry.sessionId
  ordered : sessions.registry.order =
    (sessions.entries.map (·.sessionId)).filter (· ∈ sessions.registry.sessions)
  ended : ∀ (place : Nat) (entry : SessionEntry SessionId InstanceId),
    sessions.entries[place]? = some entry → entry.phase = .exited →
    entry.ended = true
  awaited : ∀ remaining ∈ sessions.shutdowns, sessions.registry.closing = true ∧
    ∀ (place : Nat) (entry : SessionEntry SessionId InstanceId),
      sessions.entries[place]? = some entry → entry.phase ≠ .exited → place ∈ remaining
  evicting : ∀ kept todo count, sessions.eviction = some (.retaining kept todo count) →
    sessions.registry.order = kept ++ todo

variable {sessions : Sessions SessionId InstanceId}

theorem sound_empty : Sound (empty : Sessions SessionId InstanceId) where
  unique := nodup_nil
  placed sessionId place found := by
    rw [empty, lookup_empty] at found
    cases found
  known place entry found := nomatch found
  live place entry found := nomatch found
  ordered := rfl
  ended place entry found := nomatch found
  awaited remaining member := nomatch member
  evicting kept todo count evicting := nomatch evicting

variable {other one : SessionEntry SessionId InstanceId} {second first : Nat}

/-- The place of an identity is unique. -/
theorem Sound.same_place (sound : Sound sessions) (oneThere : sessions.entries[first]? = some one)
    (otherThere : sessions.entries[second]? = some other) (same : one.sessionId = other.sessionId) :
    first = second := by
  have inside : first < (sessions.entries.map (·.sessionId)).length := by
    rw [length_map]
    exact (List.getElem?_eq_some_iff.mp oneThere).1
  refine (getElem?_inj inside sound.unique).mp ?_
  rw [getElem?_map, getElem?_map, oneThere, otherThere, map_some, map_some,
    same]

variable {entry : SessionEntry SessionId InstanceId} {place : Nat}

/-- A session that has not exited is in the registry. -/
theorem Sound.registered (sound : Sound sessions) (there : sessions.entries[place]? = some entry)
    (active : entry.phase ≠ .exited) :
    sessions.registry.sessions.lookup entry.sessionId = some place := by
  rcases sound.known place entry there with found | ⟨_, exited⟩
  · exact found
  · exact absurd exited active

/-- An instance has at most one session that has not exited. -/
theorem Sound.at_most_one (sound : Sound sessions) (oneThere : sessions.entries[first]? = some one)
    (otherThere : sessions.entries[second]? = some other) (oneActive : one.phase ≠ .exited)
    (otherActive : other.phase ≠ .exited) (same : one.instanceId = other.instanceId) :
    first = second := by
  have here := sound.live first one oneThere oneActive
  have there := sound.live second other otherThere otherActive
  rw [same, there] at here
  exact sound.same_place oneThere otherThere (Option.some.inj here).symm

variable {sessionId : SessionId}

theorem Sound.mem_order (sound : Sound sessions) :
    sessionId ∈ sessions.registry.order ↔ sessionId ∈ sessions.registry.sessions := by
  rw [sound.ordered, mem_filter, decide_eq_true_iff, and_iff_right_iff_imp]
  intro member
  obtain ⟨place, found⟩ := isSome_iff_exists.mp (lookup_isSome.mpr member)
  obtain ⟨entry, there, named⟩ := sound.placed sessionId place found
  exact List.mem_map.mpr ⟨entry, mem_of_getElem? there, named⟩

theorem Sound.nodup_order (sound : Sound sessions) : sessions.registry.order.Nodup := by
  rw [sound.ordered]
  exact sound.unique.filter _

theorem Sound.entry_eq (sound : Sound sessions)
    (found : sessions.registry.sessions.lookup sessionId = some place)
    (there : sessions.entries[place]? = some entry) :
    sessions.entry sessionId = some entry ∧ entry.sessionId = sessionId := by
  obtain ⟨other, again, named⟩ := sound.placed sessionId place found
  obtain rfl := Option.some.inj (there.symm.trans again)
  exact ⟨by rw [Sessions.entry, found, bind_some, there], named⟩

/-- The entry of an identity in the order. -/
theorem Sound.exists_entry (sound : Sound sessions) (member : sessionId ∈ sessions.registry.order) :
    ∃ place entry,
      sessions.registry.sessions.lookup sessionId = some place ∧
      sessions.entries[place]? = some entry ∧ entry.sessionId = sessionId ∧
      sessions.entry sessionId = some entry := by
  obtain ⟨place, found⟩ :=
    isSome_iff_exists.mp (lookup_isSome.mpr (sound.mem_order.mp member))
  obtain ⟨entry, there, named⟩ := sound.placed sessionId place found
  exact ⟨place, entry, found, there, named, (sound.entry_eq found there).1⟩

/-! ### What a run keeps -/

/-- What may become of the sessions. -/
structure Later (before after : Sessions SessionId InstanceId) : Prop where
  entries : ∀ (place : Nat) (entry : SessionEntry SessionId InstanceId),
    before.entries[place]? = some entry → ∃ next : SessionEntry SessionId InstanceId,
    after.entries[place]? = some next ∧ next.sessionId = entry.sessionId ∧
      next.instanceId = entry.instanceId ∧ (entry.phase = .exited → next.phase = .exited)
  closing : before.registry.closing = true → after.registry.closing = true

theorem Later.refl (sessions : Sessions SessionId InstanceId) : Later sessions sessions :=
  ⟨fun _ entry there => ⟨entry, there, rfl, rfl, fun exited => exited⟩, fun closing => closing⟩

theorem Later.trans {first second third : Sessions SessionId InstanceId}
    (early : Later first second) (late : Later second third) : Later first third where
  entries place entry there := by
    obtain ⟨middle, here, sessionId, instanceId, exited⟩ := early.entries place entry there
    obtain ⟨last, after, sameId, sameInstance, stays⟩ := late.entries place middle here
    exact ⟨last, after, sameId.trans sessionId, sameInstance.trans instanceId,
      fun phase => stays (exited phase)⟩
  closing closing := late.closing (early.closing closing)

/-- What every step does to sound sessions. -/
def Keeps (before after : Sessions SessionId InstanceId) : Prop := Sound after ∧ Later before after

/-! ### Phases -/

variable {phase : SessionPhase} {ended : Bool}

theorem getElem?_publish {other : Nat} (there : sessions.entries[place]? = some entry) :
    (sessions.publish place phase ended).entries[other]? =
      if place = other then some { entry with phase, ended } else sessions.entries[other]? := by
  have inside := (List.getElem?_eq_some_iff.mp there).1
  rw [publish, there]
  dsimp only
  rw [getElem?_set, if_pos inside]

theorem publish_registry (place : Nat) (phase : SessionPhase) (ended : Bool) :
    (sessions.publish place phase ended).registry = sessions.registry ∧
      (sessions.publish place phase ended).eviction = sessions.eviction ∧
      (sessions.publish place phase ended).shutdowns = sessions.shutdowns := by
  unfold publish
  split
  · exact ⟨rfl, rfl, rfl⟩
  · exact ⟨rfl, rfl, rfl⟩

theorem map_sessionId_publish (place : Nat) (phase : SessionPhase) (ended : Bool) :
    (sessions.publish place phase ended).entries.map (·.sessionId) =
      sessions.entries.map (·.sessionId) := by
  unfold publish
  split
  · rfl
  · rename_i entry there
    refine ext_getElem? fun other => ?_
    dsimp only
    rw [map_set, getElem?_set, getElem?_map, length_map]
    split
    · rename_i same
      subst same
      rw [there, if_pos (List.getElem?_eq_some_iff.mp there).1]
      rfl
    · rfl

/-- An entry that has not exited publishes a phase. -/
theorem publish_keeps (sound : Sound sessions) (there : sessions.entries[place]? = some entry)
    (active : entry.phase ≠ .exited) (ends : phase = .exited → ended = true) :
    Keeps sessions (sessions.publish place phase ended) := by
  obtain ⟨registry, eviction, shutdowns⟩ := @publish_registry _ _ _ _ sessions place phase ended
  -- What an entry was before.
  have earlier : ∀ (other : Nat) (found : SessionEntry SessionId InstanceId),
      (sessions.publish place phase ended).entries[other]? = some found →
      ∃ was : SessionEntry SessionId InstanceId, sessions.entries[other]? = some was ∧
        found.sessionId = was.sessionId ∧ found.instanceId = was.instanceId ∧
        (found.phase ≠ .exited → was.phase ≠ .exited) ∧
        (found = was ∨ was.phase ≠ .exited ∧ (found.phase = .exited → found.ended = true)) := by
    intro other found inside
    rw [getElem?_publish there] at inside
    split at inside
    · rename_i same
      subst same
      obtain rfl := Option.some.inj inside
      exact ⟨entry, there, rfl, rfl, fun _ => active, .inr ⟨active, ends⟩⟩
    · exact ⟨found, inside, rfl, rfl, fun phase => phase, .inl rfl⟩
  refine ⟨⟨?_, ?_, ?_, ?_, ?_, ?_, ?_, ?_⟩, ⟨fun other was inside => ?_, ?_⟩⟩
  · rw [map_sessionId_publish]
    exact sound.unique
  · intro sessionId other found
    rw [registry] at found
    obtain ⟨was, inside, named⟩ := sound.placed sessionId other found
    rw [getElem?_publish there]
    split
    · rename_i same
      subst same
      obtain rfl := Option.some.inj (there.symm.trans inside)
      exact ⟨_, rfl, named⟩
    · exact ⟨was, inside, named⟩
  · intro other found inside
    obtain ⟨was, before, sessionId, _, _, same | ⟨wasActive, _⟩⟩ := earlier other found inside
    · rw [registry, same]
      exact sound.known other was before
    · rw [registry, sessionId]
      exact .inl (sound.registered before wasActive)
  · intro other found inside phase
    obtain ⟨was, before, sessionId, instanceId, wasActive, _⟩ := earlier other found inside
    rw [registry, sessionId, instanceId]
    exact sound.live other was before (wasActive phase)
  · rw [registry, map_sessionId_publish]
    exact sound.ordered
  · intro other found inside exited
    obtain ⟨was, before, _, _, _, same | ⟨_, endsFound⟩⟩ := earlier other found inside
    · rw [same] at exited ⊢
      exact sound.ended other was before exited
    · exact endsFound exited
  · intro remaining member
    rw [shutdowns] at member
    rw [registry]
    refine ⟨(sound.awaited remaining member).1, fun other found inside phase => ?_⟩
    obtain ⟨was, before, _, _, wasActive, _⟩ := earlier other found inside
    exact (sound.awaited remaining member).2 other was before (wasActive phase)
  · intro kept todo count evicting
    rw [eviction] at evicting
    rw [registry]
    exact sound.evicting kept todo count evicting
  · rw [getElem?_publish there]
    split
    · rename_i same
      subst same
      obtain rfl := Option.some.inj (there.symm.trans inside)
      exact ⟨_, rfl, rfl, rfl, fun exited => absurd exited active⟩
    · exact ⟨was, inside, rfl, rfl, fun exited => exited⟩
  · rw [registry]
    exact fun closing => closing

theorem publishByTask_keeps (sound : Sound sessions) (place : Nat)
    (ends : phase = .exited → ended = true) :
    Keeps sessions (sessions.publishByTask place phase ended) := by
  unfold publishByTask
  split
  · rename_i going
    obtain ⟨entry, there, unended⟩ := (Option.any_eq_true ..).mp going
    refine publish_keeps sound there (fun exited => ?_) ends
    rw [sound.ended place entry there exited] at unended
    cases unended
  · exact ⟨sound, .refl sessions⟩

theorem stop_keeps (sound : Sound sessions) (place : Nat) :
    Keeps sessions (sessions.stop place) := by
  unfold stop
  split
  · exact ⟨sound, .refl sessions⟩
  · rename_i entry there
    split
    · rename_i stoppable
      refine publish_keeps sound there (fun exited => ?_) fun exited => nomatch exited
      rcases stoppable with phase | phase
      · rw [phase] at exited
        cases exited
      · rw [phase] at exited
        cases exited
    · exact ⟨sound, .refl sessions⟩

/-! ### Starting -/

/-- What a start that succeeds has found. -/
structure Admitted (sessionId : SessionId) (instanceId : InstanceId)
    (sessions : Sessions SessionId InstanceId) : Prop where
  free : sessions.eviction = none
  opened : sessions.registry.closing = false
  unused : sessionId ∉ sessions.registry.sessions
  unretired : sessionId ∉ sessions.registry.retired
  idle : ∀ place (entry : SessionEntry SessionId InstanceId),
    sessions.registry.current.lookup instanceId = some entry.sessionId →
    sessions.registry.sessions.lookup entry.sessionId = some place →
    sessions.entries[place]? = some entry → entry.phase = .exited

/-- The sessions after a start has put its entry in. -/
def started (sessionId : SessionId) (instanceId : InstanceId)
    (sessions : Sessions SessionId InstanceId) : Sessions SessionId InstanceId :=
  let added := sessions.registry.sessions.insert sessionId sessions.entries.length
  { sessions with
    entries := sessions.entries ++ [⟨sessionId, instanceId, .starting, false⟩]
    registry := { sessions.registry with
      current := sessions.registry.current.insert instanceId sessionId
      sessions := added
      order := sessions.registry.order ++ [sessionId] }
    eviction := some (.counting added.keys 0) }

theorem startReserved_cases (sessionId : SessionId) (instanceId : InstanceId)
    (matching spawned : Bool) (sessions : Sessions SessionId InstanceId) :
    ((sessions.startReserved sessionId instanceId matching spawned).1 = sessions ∧
      (sessions.startReserved sessionId instanceId matching spawned).2 ≠ .started ∧
      (sessions.startReserved sessionId instanceId matching spawned).2 ≠ .released ∧
      (sessions.startReserved sessionId instanceId matching spawned).2 ≠ .shutDown) ∨
    sessions.Admitted sessionId instanceId ∧
      sessions.startReserved sessionId instanceId matching spawned =
        (sessions.started sessionId instanceId, .started) := by
  unfold startReserved
  dsimp only
  split
  · exact .inl ⟨rfl, nofun, nofun, nofun⟩
  split
  · exact .inl ⟨rfl, nofun, nofun, nofun⟩
  rename_i free
  split
  · exact .inl ⟨rfl, nofun, nofun, nofun⟩
  rename_i opened
  split
  · exact .inl ⟨rfl, nofun, nofun, nofun⟩
  rename_i unused
  split
  · exact .inl ⟨rfl, nofun, nofun, nofun⟩
  split
  · exact .inl ⟨rfl, nofun, nofun, nofun⟩
  rename_i idle
  split
  · exact .inl ⟨rfl, nofun, nofun, nofun⟩
  rw [not_or] at unused
  refine .inr ⟨⟨not_isSome_iff_eq_none.mp free, Bool.eq_false_of_not_eq_true opened,
    unused.1, unused.2, fun place entry current found there => ?_⟩, rfl⟩
  by_contra active
  refine idle ((Option.any_eq_true ..).mpr ⟨entry, ?_, decide_eq_true active⟩)
  rw [current, bind_some, Sessions.entry, found, bind_some, there]

section

variable (sound : Sound sessions)

include sound

theorem start_keeps {instanceId : InstanceId} (admitted : sessions.Admitted sessionId instanceId) :
    Keeps sessions (sessions.started sessionId instanceId) := by
  have fresh : ∀ (place : Nat) (entry : SessionEntry SessionId InstanceId),
      sessions.entries[place]? = some entry → entry.sessionId ≠ sessionId := by
    intro place entry there same
    rcases sound.known place entry there with found | ⟨retired, _⟩
    · refine admitted.unused (lookup_isSome.mp ?_)
      rw [← same, found]
      rfl
    · exact admitted.unretired (same ▸ retired)
  have freshId : sessionId ∉ sessions.entries.map (·.sessionId) := by
    intro member
    obtain ⟨entry, inside, same⟩ := List.mem_map.mp member
    obtain ⟨place, there⟩ := mem_iff_getElem?.mp inside
    exact fresh place entry there same
  -- An entry is an earlier one or the new one.
  have split : ∀ (place : Nat) (entry : SessionEntry SessionId InstanceId),
      (sessions.started sessionId instanceId).entries[place]? = some entry →
      sessions.entries[place]? = some entry ∨
        place = sessions.entries.length ∧ entry = ⟨sessionId, instanceId, .starting, false⟩ := by
    intro place entry there
    rcases Nat.lt_or_ge place sessions.entries.length with earlier | late
    · exact .inl ((getElem?_append_left earlier).symm.trans there)
    · rw [started, getElem?_append_right late, getElem?_singleton] at there
      split at there
      · rename_i last
        exact .inr ⟨by omega, (Option.some.inj there).symm⟩
      · cases there
  refine ⟨⟨?_, ?_, ?_, ?_, ?_, ?_, ?_, ?_⟩, ⟨fun place entry there => ?_, fun closing => closing⟩⟩
  · rw [started, map_append, nodup_append]
    refine ⟨sound.unique, nodup_singleton _, fun first earlier second new same => ?_⟩
    rw [map_singleton, mem_singleton] at new
    rw [same, new] at earlier
    exact freshId earlier
  · intro other place found
    by_cases same : other = sessionId
    · subst same
      rw [started, lookup_insert] at found
      obtain rfl := Option.some.inj found
      exact ⟨⟨other, instanceId, .starting, false⟩, getElem?_concat_length, rfl⟩
    · rw [started, lookup_insert_ne same] at found
      obtain ⟨entry, there, named⟩ := sound.placed other place found
      refine ⟨entry, ?_, named⟩
      exact (getElem?_append_left (List.getElem?_eq_some_iff.mp there).1).trans there
  · intro place entry there
    rcases split place entry there with earlier | ⟨rfl, rfl⟩
    · refine (sound.known place entry earlier).imp (fun found => ?_) fun retired => retired
      rw [started, lookup_insert_ne (fresh place entry earlier)]
      exact found
    · exact .inl (lookup_insert _)
  · intro place entry there active
    rcases split place entry there with earlier | ⟨rfl, rfl⟩
    · have current := sound.live place entry earlier active
      by_cases same : entry.instanceId = instanceId
      · rw [same] at current
        exact absurd (admitted.idle place entry current (sound.registered earlier active) earlier)
          active
      · rw [started, lookup_insert_ne same]
        exact current
    · exact lookup_insert _
  · have kept : (sessions.entries.map (·.sessionId)).filter
        (· ∈ sessions.registry.sessions.insert sessionId sessions.entries.length) =
          sessions.registry.order := by
      rw [sound.ordered]
      refine filter_congr fun other member => ?_
      have different : other ≠ sessionId := fun same => freshId (same ▸ member)
      simp [mem_insert, different]
    show sessions.registry.order ++ [sessionId] = _
    rw [started, map_append, filter_append, kept]
    simp [mem_insert]
  · intro place entry there exited
    rcases split place entry there with earlier | ⟨_, rfl⟩
    · exact sound.ended place entry earlier exited
    · cases exited
  · intro remaining member
    have closing := (sound.awaited remaining member).1
    rw [admitted.opened] at closing
    cases closing
  · exact fun kept todo count evicting => nomatch evicting
  · exact ⟨entry, (getElem?_append_left (List.getElem?_eq_some_iff.mp there).1).trans there,
      rfl, rfl, fun exited => exited⟩

/-! ### Evicting -/

/-- What a step of an eviction does. -/
inductive Evicts (sessions : Sessions SessionId InstanceId) :
    Sessions SessionId InstanceId × SessionOutcome → Prop
  | idle (none : sessions.eviction = none) : Evicts sessions (sessions, .nothing)
  | counted {sessionId todo count}
      (evicting : sessions.eviction = some (.counting (sessionId :: todo) count)) :
    Evicts sessions ({ sessions with eviction := some (.counting todo
      (if sessions.hasExited sessionId then count + 1 else count)) }, .nothing)
  | turned {count} (evicting : sessions.eviction = some (.counting [] count)) :
    Evicts sessions ({ sessions with
      eviction := some (.retaining [] sessions.registry.order count) }, .nothing)
  | passed {kept todo sessionId count}
      (evicting : sessions.eviction = some (.retaining kept (sessionId :: todo) count))
      (stays : count ≤ retainedTerminalSessions ∨ sessions.hasExited sessionId = false) :
    Evicts sessions ({ sessions with
      eviction := some (.retaining (kept ++ [sessionId]) todo count) }, .nothing)
  | retired {kept todo sessionId count entry}
      (evicting : sessions.eviction = some (.retaining kept (sessionId :: todo) count))
      (many : retainedTerminalSessions < count) (found : sessions.entry sessionId = some entry)
      (exited : entry.phase = .exited) :
    Evicts sessions ({ sessions with
      registry := retire sessionId entry (kept ++ todo) sessions.registry
      eviction := some (.retaining kept todo (count - 1)) }, .nothing)
  | released {kept count}
      (evicting : sessions.eviction = some (.retaining kept [] count)) :
    Evicts sessions ({ sessions with eviction := none }, .released)

theorem evict_evicts : Evicts sessions sessions.evict := by
  unfold evict
  split
  · rename_i none
    exact .idle none
  · rename_i evicting
    exact .turned evicting
  · rename_i evicting
    exact .counted evicting
  · rename_i evicting
    exact .released evicting
  · rename_i kept sessionId todo count evicting
    dsimp only
    have member : sessionId ∈ sessions.registry.order := by
      rw [sound.evicting _ _ _ evicting]
      exact mem_append_right _ mem_cons_self
    obtain ⟨place, entry, _, _, _, found⟩ := sound.exists_entry member
    split
    · rename_i few
      exact .passed evicting (.inl few)
    · rename_i many
      rw [found]
      dsimp only
      split
      · rename_i active
        refine .passed evicting (.inr ?_)
        rw [hasExited, found]
        exact decide_eq_false active
      · rename_i exited
        exact .retired evicting (Nat.lt_of_not_le many) found (not_not.mp exited)

/-- A change of the eviction alone. -/
theorem Sound.set_eviction {eviction : Option (Eviction SessionId)}
    (evicting : ∀ kept todo count, eviction = some (.retaining kept todo count) →
      sessions.registry.order = kept ++ todo) : Keeps sessions { sessions with eviction } :=
  ⟨{ sound with evicting }, ⟨(Later.refl sessions).entries, fun closing => closing⟩⟩

/-- Retiring a session that has exited. -/
theorem Sound.retire {kept todo : List SessionId} {count : Nat}
    (order : sessions.registry.order = kept ++ sessionId :: todo)
    (found : sessions.entry sessionId = some entry) (exited : entry.phase = .exited) :
    Keeps sessions { sessions with
      registry := Sessions.retire sessionId entry (kept ++ todo) sessions.registry
      eviction := some (.retaining kept todo count) } := by
  have member : sessionId ∈ sessions.registry.order := by
    rw [order]
    exact mem_append_right _ mem_cons_self
  obtain ⟨place, other, lookup, there, named, same⟩ := sound.exists_entry member
  obtain rfl := Option.some.inj (found.symm.trans same)
  -- Another session that has not exited keeps its place in the registry.
  have apart : ∀ (place : Nat) (other : SessionEntry SessionId InstanceId),
      sessions.entries[place]? = some other → other.phase ≠ .exited →
      other.sessionId ≠ sessionId := by
    intro second other inside active same
    have one : place = second := sound.same_place there inside (named.trans same.symm)
    subst one
    obtain rfl := Option.some.inj (there.symm.trans inside)
    exact active exited
  refine ⟨⟨sound.unique, ?_, ?_, ?_, ?_, sound.ended, sound.awaited, ?_⟩,
    ⟨(Later.refl sessions).entries, fun closing => closing⟩⟩
  · intro second other lookup
    by_cases same : second = sessionId
    · subst same
      rw [Sessions.retire, lookup_erase] at lookup
      cases lookup
    · rw [Sessions.retire, lookup_erase_ne same] at lookup
      exact sound.placed second other lookup
  · intro second other inside
    by_cases same : other.sessionId = sessionId
    · have one : place = second := sound.same_place there inside (named.trans same.symm)
      subst one
      obtain rfl := Option.some.inj (there.symm.trans inside)
      exact .inr ⟨by rw [same]; exact (mem_insert _).mpr (.inl rfl), exited⟩
    · rcases sound.known second other inside with lookup | ⟨retired, phase⟩
      · refine .inl ?_
        rw [Sessions.retire, lookup_erase_ne same]
        exact lookup
      · exact .inr ⟨(mem_insert _).mpr (.inr retired), phase⟩
  · intro second other inside active
    have current := sound.live second other inside active
    show (if sessions.registry.current.lookup entry.instanceId = some sessionId then
      sessions.registry.current.erase entry.instanceId else
        sessions.registry.current).lookup other.instanceId = _
    split
    · rename_i points
      by_cases same : other.instanceId = entry.instanceId
      · rw [same, points] at current
        exact absurd (Option.some.inj current).symm (apart second other inside active)
      · rw [lookup_erase_ne same]
        exact current
    · exact current
  · have nodup := sound.nodup_order
    rw [order] at nodup
    have without : (kept ++ todo) = (kept ++ sessionId :: todo).filter (· ≠ sessionId) := by
      obtain ⟨notKept, notTodo⟩ : sessionId ∉ kept ∧ sessionId ∉ todo := by
        rw [nodup_append] at nodup
        refine ⟨fun inside => nodup.2.2 _ inside _ mem_cons_self rfl, ?_⟩
        exact (nodup_cons.mp nodup.2.1).1
      rw [filter_append, filter_cons_of_neg (by simp), filter_eq_self.mpr,
        filter_eq_self.mpr]
      · intro other inside
        exact decide_eq_true fun same => notTodo (same ▸ inside)
      · intro other inside
        exact decide_eq_true fun same => notKept (same ▸ inside)
    show kept ++ todo = _
    rw [without, ← order, sound.ordered, List.filter_filter]
    refine filter_congr fun other _ => ?_
    rw [Sessions.retire]
    simp [mem_erase]
  · intro kept' todo' count' evicting
    obtain ⟨rfl, rfl, rfl⟩ := Eviction.retaining.inj (Option.some.inj evicting)
    rfl

theorem evict_keeps : Keeps sessions sessions.evict.1 := by
  have evicts := evict_evicts sound
  generalize sessions.evict = result at evicts
  cases evicts with
  | idle => exact ⟨sound, .refl sessions⟩
  | counted | released => exact sound.set_eviction nofun
  | turned =>
    refine sound.set_eviction fun kept todo count same => ?_
    obtain ⟨rfl, rfl, rfl⟩ := Eviction.retaining.inj (Option.some.inj same)
    rfl
  | passed evicting =>
    refine sound.set_eviction fun kept todo count same => ?_
    obtain ⟨rfl, rfl, rfl⟩ := Eviction.retaining.inj (Option.some.inj same)
    rw [sound.evicting _ _ _ evicting, append_assoc]
    rfl
  | retired evicting many found exited =>
    exact sound.retire (sound.evicting _ _ _ evicting) found exited

/-! ### Closing -/

theorem close_keeps : Keeps sessions sessions.close.1 := by
  unfold close
  split
  · exact ⟨sound, .refl sessions⟩
  · rename_i free
    refine ⟨{ sound with awaited := fun remaining member => ⟨rfl, ?_⟩ },
      ⟨(Later.refl sessions).entries, fun _ => rfl⟩⟩
    rcases mem_append.mp member with earlier | new
    · exact (sound.awaited remaining earlier).2
    · rw [mem_singleton.mp new]
      intro place entry there active
      exact List.mem_map.mpr
        ⟨⟨entry.sessionId, place⟩, mem_lookup_iff.mp (sound.registered there active), rfl⟩

theorem await_keeps (shutdown : Nat) : Keeps sessions (sessions.await shutdown).1 := by
  unfold await
  split
  · exact ⟨sound, .refl sessions⟩
  · exact ⟨sound, .refl sessions⟩
  · rename_i place rest waits
    split
    · rename_i gone
      refine ⟨{ sound with awaited := fun remaining member => ?_ },
        ⟨(Later.refl sessions).entries, fun closing => closing⟩⟩
      rcases mem_or_eq_of_mem_set member with earlier | rfl
      · exact sound.awaited remaining earlier
      · obtain ⟨closing, waited⟩ := sound.awaited _ (mem_of_getElem? waits)
        refine ⟨closing, fun other entry there active => ?_⟩
        rcases mem_cons.mp (waited other entry there active) with rfl | later
        · obtain ⟨found, inside, exited⟩ := (Option.any_eq_true ..).mp gone
          obtain rfl := Option.some.inj (there.symm.trans inside)
          exact absurd (of_decide_eq_true exited) active
        · exact later
    · exact ⟨sound, .refl sessions⟩

theorem perform_keeps (action : SessionAction SessionId InstanceId) :
    Keeps sessions (perform action sessions).1 := by
  cases action with
  | start sessionId instanceId matching spawned =>
    rcases startReserved_cases sessionId instanceId matching spawned sessions with
      ⟨same, _⟩ | ⟨admitted, started⟩
    · rw [perform, same]
      exact ⟨sound, .refl sessions⟩
    · rw [perform, started]
      exact start_keeps sound admitted
  | evict => exact evict_keeps sound
  | publish place phase =>
    rw [perform]
    split
    · exact ⟨sound, .refl sessions⟩
    · rename_i goesOn
      exact publishByTask_keeps sound place fun exited => absurd exited goesOn
  | exit place => exact publishByTask_keeps sound place fun _ => rfl
  | panic place => exact publishByTask_keeps sound place fun exited => nomatch exited
  | stop place => exact stop_keeps sound place
  | close => exact close_keeps sound
  | await shutdown => exact await_keeps sound shutdown

/-! ### How many stay -/

/-- The number of sessions that have exited. -/
def exitedCount (sessions : Sessions SessionId InstanceId) : Nat :=
  sessions.entries.countP fun entry => entry.phase = .exited

/-- The number of sessions that have exited and are still in the registry. -/
def retainedCount (sessions : Sessions SessionId InstanceId) : Nat :=
  sessions.registry.order.countP sessions.hasExited

/-- How far an eviction has come, counted from the sessions that had exited when its start took
the lock. -/
def Bounded (earlier : Nat) (sessions : Sessions SessionId InstanceId) : Prop :=
  match sessions.eviction with
  | none => False
  | some (.counting todo count) => ∃ seen, sessions.registry.sessions.keys = seen ++ todo ∧
    count ≤ seen.countP sessions.hasExited ∧
    seen.countP sessions.hasExited + earlier ≤ count + sessions.exitedCount
  | some (.retaining _ todo count) =>
    sessions.retainedCount + earlier ≤ count + sessions.exitedCount ∧
    (count ≤ retainedTerminalSessions ∨ count ≤ todo.countP sessions.hasExited)

theorem Sound.keys_perm : sessions.registry.sessions.keys.Perm sessions.registry.order := by
  refine (perm_ext_iff_of_nodup (keys_nodup _) sound.nodup_order).mpr fun sessionId => ?_
  rw [sound.mem_order]
  rfl

end

/-- A session that exits raises the count of a list without repetitions by one at most. -/
theorem countP_le_succ {ids : List SessionId} (nodup : ids.Nodup) {before after : SessionId → Bool}
    (others : ∀ other, other ≠ sessionId → after other = before other) :
    ids.countP after ≤ ids.countP before + 1 := by
  induction ids with
  | nil => exact Nat.zero_le _
  | cons first rest ih =>
    obtain ⟨fresh, nodup⟩ := nodup_cons.mp nodup
    by_cases same : first = sessionId
    · have rest_eq : rest.countP after = rest.countP before :=
        countP_congr fun other member => by
          rw [others other fun again => fresh (same ▸ again ▸ member)]
      rw [countP_cons, countP_cons, rest_eq]
      split <;> split <;> omega
    · have shorter := ih nodup
      rw [countP_cons, countP_cons, others first same]
      omega

/-- A step that leaves the registry and the eviction alone and under which sessions exit. -/
structure Settles (before after : Sessions SessionId InstanceId) : Prop where
  registry : after.registry = before.registry
  eviction : after.eviction = before.eviction
  exited : ∀ sessionId, before.hasExited sessionId = true → after.hasExited sessionId = true
  counted : ∀ ids : List SessionId, ids.Nodup →
    ids.countP after.hasExited + before.exitedCount ≤
      ids.countP before.hasExited + after.exitedCount

theorem Settles.refl (sessions : Sessions SessionId InstanceId) : Settles sessions sessions :=
  ⟨rfl, rfl, fun _ exited => exited, fun _ _ => Nat.le_refl _⟩

section

variable (sound : Sound sessions)

include sound

theorem publish_settles (there : sessions.entries[place]? = some entry)
    (active : entry.phase ≠ .exited) : Settles sessions (sessions.publish place phase ended) := by
  obtain ⟨registry, eviction, _⟩ := @publish_registry _ _ _ _ sessions place phase ended
  have found : ∀ other, (sessions.publish place phase ended).entry other =
      (sessions.registry.sessions.lookup other).bind fun spot =>
        if place = spot then some { entry with phase, ended } else sessions.entries[spot]? := by
    intro other
    rw [Sessions.entry, registry]
    exact congrArg _ (funext fun _ => getElem?_publish there)
  have inside := (List.getElem?_eq_some_iff.mp there).1
  have here := (List.getElem?_eq_some_iff.mp there).2
  have counts : (sessions.publish place phase ended).exitedCount =
      sessions.exitedCount + if phase = .exited then 1 else 0 := by
    rw [exitedCount, exitedCount, publish, there]
    dsimp only
    rw [countP_set inside, here]
    simp [active]
  have others : ∀ other, other ≠ entry.sessionId ∨ phase ≠ .exited →
      (sessions.publish place phase ended).hasExited other = sessions.hasExited other := by
    intro other apart
    rw [hasExited, hasExited, found, Sessions.entry]
    cases lookup : sessions.registry.sessions.lookup other with
    | none => rfl
    | some spot =>
      rw [bind_some, bind_some]
      split
      · rename_i same
        subst same
        rw [there, any_some, any_some, decide_eq_false active]
        refine decide_eq_false (apart.resolve_left fun different => different ?_)
        exact (sound.entry_eq lookup there).2.symm
      · rfl
  refine ⟨registry, eviction, fun other exited => ?_, fun ids nodup => ?_⟩
  · by_cases apart : other ≠ entry.sessionId ∨ phase ≠ .exited
    · rw [others other apart]
      exact exited
    · obtain ⟨named, phase⟩ := not_or.mp apart
      obtain rfl := not_not.mp named
      obtain ⟨found, isFound, phase⟩ := (Option.any_eq_true ..).mp exited
      rw [Sessions.entry] at isFound
      obtain ⟨spot, lookup, again⟩ := bind_eq_some_iff.mp isFound
      have same : spot = place := sound.same_place again there (sound.entry_eq lookup again).2
      subst same
      obtain rfl := Option.some.inj (there.symm.trans again)
      exact absurd (of_decide_eq_true phase) active
  · rw [counts]
    split
    · have grows : ids.countP (sessions.publish place phase ended).hasExited ≤
          ids.countP sessions.hasExited + 1 :=
        countP_le_succ nodup fun other apart => others other (.inl apart)
      omega
    · rename_i goesOn
      rw [countP_congr fun other _ => by rw [others other (.inr goesOn)]]
      omega

theorem publishByTask_settles (place : Nat) (phase : SessionPhase) (ended : Bool) :
    Settles sessions (sessions.publishByTask place phase ended) := by
  unfold publishByTask
  split
  · rename_i going
    obtain ⟨entry, there, unended⟩ := (Option.any_eq_true ..).mp going
    refine publish_settles sound there fun exited => ?_
    rw [sound.ended place entry there exited] at unended
    cases unended
  · exact .refl sessions

theorem stop_settles (place : Nat) : Settles sessions (sessions.stop place) := by
  unfold stop
  split
  · exact .refl sessions
  · rename_i entry there
    split
    · rename_i stoppable
      refine publish_settles sound there fun exited => ?_
      rw [exited] at stoppable
      rcases stoppable with phase | phase
      · cases phase
      · cases phase
    · exact .refl sessions

theorem Bounded.settles {earlier : Nat} {after : Sessions SessionId InstanceId}
    (bounded : Bounded earlier sessions) (settles : Settles sessions after) :
    Bounded earlier after := by
  obtain ⟨registry, eviction, exited, counted⟩ := settles
  have grows : ∀ ids : List SessionId, ids.countP sessions.hasExited ≤ ids.countP after.hasExited :=
    fun ids => countP_mono_left fun other _ => exited other
  unfold Bounded at bounded ⊢
  rw [eviction]
  split at bounded
  · exact bounded
  · obtain ⟨seen, keys, low, high⟩ := bounded
    have nodup : seen.Nodup :=
      (nodup_append.mp (keys ▸ keys_nodup sessions.registry.sessions)).1
    have more := counted seen nodup
    have kept := grows seen
    refine ⟨seen, by rw [registry]; exact keys, by omega, by omega⟩
  · rename_i kept todo count evicting
    obtain ⟨high, low⟩ := bounded
    have more := counted _ sound.nodup_order
    have stays := grows todo
    rw [retainedCount] at high ⊢
    rw [registry]
    exact ⟨by omega, low.imp_right fun low => by omega⟩

end

/-- A start begins its eviction. -/
theorem bounded_started (sessionId : SessionId) (instanceId : InstanceId) :
    Bounded sessions.exitedCount (sessions.started sessionId instanceId) := by
  refine ⟨[], rfl, Nat.zero_le _, ?_⟩
  rw [started, exitedCount, exitedCount]
  simp [countP_append]

theorem hasExited_retire {other : SessionId} (different : other ≠ sessionId)
    (entry : SessionEntry SessionId InstanceId) (order : List SessionId)
    (eviction : Option (Eviction SessionId)) :
    hasExited { sessions with
      registry := Sessions.retire sessionId entry order sessions.registry, eviction } other =
      sessions.hasExited other := by
  rw [hasExited, hasExited, Sessions.entry, Sessions.entry, Sessions.retire]
  dsimp only
  rw [lookup_erase_ne different]

variable {earlier : Nat}

theorem Bounded.evict (sound : Sound sessions) (bounded : Bounded earlier sessions)
    (holding : sessions.evict.2 ≠ .released) : Bounded earlier sessions.evict.1 := by
  have evicts := evict_evicts sound
  generalize sessions.evict = result at evicts holding
  unfold Bounded at bounded
  cases evicts with
  | idle none =>
    rw [none] at bounded
    exact bounded.elim
  | counted evicting =>
    rename_i sessionId todo count
    rw [evicting] at bounded
    obtain ⟨seen, keys, low, high⟩ := bounded
    refine ⟨seen ++ [sessionId], by rw [append_assoc]; exact keys, ?_, ?_⟩
    · show _ ≤ (seen ++ [sessionId]).countP sessions.hasExited
      rw [countP_append, countP_singleton]
      split <;> omega
    · show (seen ++ [sessionId]).countP sessions.hasExited + _ ≤ _ + sessions.exitedCount
      rw [countP_append, countP_singleton]
      split <;> omega
  | turned evicting =>
    rename_i count
    rw [evicting] at bounded
    obtain ⟨seen, keys, low, high⟩ := bounded
    rw [List.append_nil] at keys
    rw [← keys, sound.keys_perm.countP_eq] at low high
    exact ⟨high, .inr low⟩
  | passed evicting stays =>
    rename_i kept todo sessionId count
    rw [evicting] at bounded
    refine ⟨bounded.1, ?_⟩
    rcases stays with few | active
    · exact .inl few
    · refine bounded.2.imp_right fun low => ?_
      rw [countP_cons, active] at low
      exact low
  | retired evicting many found exited =>
    rename_i kept todo sessionId count entry
    rw [evicting] at bounded
    obtain ⟨high, low⟩ := bounded
    have order := sound.evicting _ _ _ evicting
    have nodup := sound.nodup_order
    rw [order] at nodup
    have gone : sessions.hasExited sessionId = true := by
      rw [hasExited, found]
      exact decide_eq_true exited
    -- Nothing changes for the identities that stay.
    have same : ∀ ids : List SessionId, (∀ other ∈ ids, other ∈ kept ++ todo) →
        ids.countP (hasExited { sessions with
          registry := Sessions.retire sessionId entry (kept ++ todo) sessions.registry
          eviction := some (.retaining kept todo (count - 1)) }) =
        ids.countP sessions.hasExited := by
      refine fun ids within => countP_congr fun other member => ?_
      rw [hasExited_retire fun again => ?_]
      have stays := within other member
      rw [again] at stays
      exact (nodup_cons.mp (nodup_middle.mp nodup)).1 stays
    rw [retainedCount, order, countP_append, countP_cons, gone, if_pos rfl] at high
    refine ⟨?_, ?_⟩
    · show List.countP _ (kept ++ todo) + _ ≤ _ + sessions.exitedCount
      rw [same _ fun _ member => member, countP_append]
      omega
    · refine .inr ?_
      rw [same todo fun _ => mem_append_right kept]
      have rest := low.resolve_left (Nat.not_le_of_lt many)
      rw [countP_cons, gone, if_pos rfl] at rest
      omega
  | released => exact absurd rfl holding

/-- While a start evicts, every step keeps the bound. -/
theorem Bounded.perform (sound : Sound sessions) (bounded : Bounded earlier sessions)
    (action : SessionAction SessionId InstanceId)
    (holding : (Sessions.perform action sessions).2 ≠ .released) :
    Bounded earlier (Sessions.perform action sessions).1 := by
  have busy : sessions.eviction.isSome := by
    unfold Bounded at bounded
    split at bounded
    · exact bounded.elim
    · rename_i evicting
      rw [evicting]
      rfl
    · rename_i evicting
      rw [evicting]
      rfl
  cases action with
  | start sessionId instanceId matching spawned =>
    rcases startReserved_cases sessionId instanceId matching spawned sessions with
      ⟨same, _⟩ | ⟨admitted, _⟩
    · rw [Sessions.perform, same]
      exact bounded
    · rw [admitted.free] at busy
      cases busy
  | evict => exact bounded.evict sound holding
  | publish place phase =>
    rw [Sessions.perform]
    split
    · exact bounded
    · exact bounded.settles sound (publishByTask_settles sound place phase false)
  | exit place | panic place => exact bounded.settles sound (publishByTask_settles sound place _ _)
  | stop place => exact bounded.settles sound (stop_settles sound place)
  | close =>
    rw [Sessions.perform, close, if_pos busy]
    exact bounded
  | await shutdown =>
    refine bounded.settles sound ?_
    rw [Sessions.perform, await]
    split
    · exact .refl sessions
    · exact .refl sessions
    · split
      · exact ⟨rfl, rfl, fun _ exited => exited, fun _ _ => Nat.le_refl _⟩
      · exact .refl sessions

/-- What an outcome tells about the performance. -/
def Tells (action : SessionAction SessionId InstanceId)
    (sessions : Sessions SessionId InstanceId) : SessionOutcome → Prop
  | .started => ∃ sessionId instanceId matching spawned,
      action = .start sessionId instanceId matching spawned
  | .released => action = .evict
  | .shutDown => ∃ shutdown, action = .await shutdown ∧ [] ∈ sessions.shutdowns
  | .nothing | .refused _ | .blocked => True

theorem perform_tells (action : SessionAction SessionId InstanceId)
    (sessions : Sessions SessionId InstanceId) :
    Tells action sessions (perform action sessions).2 := by
  cases action with
  | start sessionId instanceId matching spawned =>
    rcases startReserved_cases sessionId instanceId matching spawned sessions with
      ⟨_, never⟩ | ⟨_, started⟩
    · rw [perform]
      revert never
      generalize (sessions.startReserved sessionId instanceId matching spawned).2 = outcome
      cases outcome with
      | nothing | refused | blocked => exact fun _ => trivial
      | started => exact fun never => absurd rfl never.1
      | released => exact fun never => absurd rfl never.2.1
      | shutDown => exact fun never => absurd rfl never.2.2
    · rw [perform, started]
      exact ⟨sessionId, instanceId, matching, spawned, rfl⟩
  | evict =>
    rw [perform, evict]
    split
    iterate 3 exact trivial
    · rfl
    · dsimp only
      split
      · exact trivial
      · split
        · exact trivial
        · split
          · exact trivial
          · exact trivial
  | close =>
    rw [perform, close]
    split
    · exact trivial
    · exact trivial
  | await shutdown =>
    rw [perform, await]
    split
    · exact trivial
    · rename_i waits
      exact ⟨shutdown, rfl, mem_of_getElem? waits⟩
    · split
      · exact trivial
      · exact trivial
  | publish | exit | panic | stop => exact trivial

/-- When its eviction is through, a start leaves as many exited sessions as are retained, and those
that have exited since it began. -/
theorem Bounded.released {earlier : Nat} (sound : Sound sessions)
    (bounded : Bounded earlier sessions) {action : SessionAction SessionId InstanceId}
    (released : (Sessions.perform action sessions).2 = .released) :
    (Sessions.perform action sessions).1.retainedCount + earlier ≤
      retainedTerminalSessions + (Sessions.perform action sessions).1.exitedCount := by
  have tells := perform_tells action sessions
  rw [released] at tells
  obtain rfl := tells
  have evicts := evict_evicts sound
  rw [Sessions.perform] at released ⊢
  generalize sessions.evict = result at evicts released
  cases evicts with
  | released evicting =>
    unfold Bounded at bounded
    rw [evicting] at bounded
    obtain ⟨high, low⟩ := bounded
    rw [countP_nil] at low
    show sessions.retainedCount + earlier ≤ _ + sessions.exitedCount
    omega
  | idle | counted | turned | passed | retired => cases released

/-! ### Runs -/

/-- What holds of the registry at every moment. -/
structure Safe (sessions : Sessions SessionId InstanceId) : Prop where
  /-- An instance has at most one session that has not exited. -/
  one : ∀ (first second : Nat) (session other : SessionEntry SessionId InstanceId),
    sessions.entries[first]? = some session → sessions.entries[second]? = some other →
    session.phase ≠ .exited → other.phase ≠ .exited →
    session.instanceId = other.instanceId → first = second
  /-- No two sessions have the same identity. -/
  distinct : (sessions.entries.map (·.sessionId)).Nodup
  /-- A session that has not exited is in the registry and current. -/
  registered : ∀ (place : Nat) (session : SessionEntry SessionId InstanceId),
    sessions.entries[place]? = some session → session.phase ≠ .exited →
    sessions.registry.sessions.lookup session.sessionId = some place ∧
      sessions.registry.current.lookup session.instanceId = some session.sessionId
  /-- The order has the identities of the registry as they were started. -/
  order : sessions.registry.order =
    (sessions.entries.map (·.sessionId)).filter (· ∈ sessions.registry.sessions)

theorem Sound.safe (sound : Sound sessions) : Safe sessions where
  one _ _ _ _ here there active also same := sound.at_most_one here there active also same
  distinct := sound.unique
  registered place session there active :=
    ⟨sound.registered there active, sound.live place session there active⟩
  order := sound.ordered

/-- What a performance tells of the sessions before and after it. -/
structure Faithful (moment : Moment (Sessions SessionId InstanceId)
    (SessionAction SessionId InstanceId) SessionOutcome) : Prop where
  safe : Safe moment.before ∧ Safe moment.after
  later : Later moment.before moment.after
  /-- A start that fails changes nothing. -/
  failed : ∀ sessionId instanceId matching spawned,
    moment.action = .start sessionId instanceId matching spawned → moment.outcome ≠ .started →
    moment.after = moment.before
  closed : moment.action = .close → moment.outcome = .nothing →
    moment.after.registry.closing = true
  opened : moment.outcome = .started → moment.before.registry.closing = false
  /-- When a shutdown succeeds, every session has exited. -/
  settled : moment.outcome = .shutDown → ∀ session ∈ moment.before.entries,
    session.phase = .exited

/-- A start that succeeds was admitted. -/
theorem perform_started {action : SessionAction SessionId InstanceId}
    (started : (perform action sessions).2 = .started) : ∃ sessionId instanceId,
      sessions.Admitted sessionId instanceId ∧
        (perform action sessions).1 = sessions.started sessionId instanceId := by
  have tells := perform_tells action sessions
  rw [started] at tells
  obtain ⟨sessionId, instanceId, matching, spawned, rfl⟩ := tells
  rcases startReserved_cases sessionId instanceId matching spawned sessions with
    ⟨_, never, _⟩ | ⟨admitted, succeeds⟩
  · exact absurd started never
  · exact ⟨sessionId, instanceId, admitted, congrArg Prod.fst succeeds⟩

theorem faithful (sound : Sound sessions) (action : SessionAction SessionId InstanceId) :
    Faithful ⟨sessions, action, (perform action sessions).2, (perform action sessions).1⟩ where
  safe := ⟨sound.safe, (perform_keeps sound action).1.safe⟩
  later := (perform_keeps sound action).2
  failed sessionId instanceId matching spawned start failed := by
    obtain rfl : action = .start sessionId instanceId matching spawned := start
    rcases startReserved_cases sessionId instanceId matching spawned sessions with
      ⟨same, _⟩ | ⟨_, started⟩
    · exact same
    · exact absurd (congrArg Prod.snd started) failed
  closed close closes := by
    obtain rfl : action = .close := close
    show (Sessions.close sessions).1.registry.closing = true
    have closes : (Sessions.close sessions).2 = .nothing := closes
    unfold Sessions.close at closes ⊢
    split
    · rename_i evicting
      rw [if_pos evicting] at closes
      cases closes
    · rfl
  opened started := by
    obtain ⟨_, _, admitted, _⟩ := perform_started started
    exact admitted.opened
  settled ends session member := by
    have tells := perform_tells action sessions
    rw [show (perform action sessions).2 = .shutDown from ends] at tells
    obtain ⟨_, _, waited⟩ := tells
    obtain ⟨place, there⟩ := mem_iff_getElem?.mp member
    by_contra active
    exact nomatch (sound.awaited [] waited).2 place session there active

/-- In every run the registry is safe at every moment, sessions stay as they are and stay exited,
no start succeeds after a shutdown has closed the registry, and a start leaves as many exited
sessions as are retained, and those that have exited while it evicted. -/
theorem runs_are_safe (actions : List (SessionAction SessionId InstanceId)) :
    (∀ moment ∈ history perform actions empty, Faithful moment) ∧
    ((history perform actions empty).Pairwise fun earlier next =>
      Later earlier.after next.before ∧
      (earlier.after.registry.closing = true → next.outcome ≠ .started)) ∧
    ∀ front start middle release back,
      history perform actions empty = front ++ start :: (middle ++ release :: back) →
      start.outcome = .started → (∀ moment ∈ middle, moment.outcome ≠ .released) →
      release.outcome = .released →
      release.after.retainedCount + start.before.exitedCount ≤
        retainedTerminalSessions + release.after.exitedCount := by
  -- A moment is a performance of sound sessions.
  have sound : ∀ moment ∈ history perform actions empty, Sound moment.before := by
    refine invariant (fun moment member sound => ?_) sound_empty
    rw [after_eq member]
    exact (perform_keeps sound moment.action).1
  have holds : ∀ moment ∈ history perform actions empty, Faithful moment := by
    intro moment member
    have faithful := faithful (sound moment member) moment.action
    rw [performed member] at faithful
    exact faithful
  refine ⟨holds, ?_, fun front start middle release back moments starts holding releases => ?_⟩
  · have advances := pairwise Later Later.refl Later.trans
      fun moment member => (holds moment member).later
    refine (pairwise_iff_forall_sublist.mpr fun {earlier next} sublist => ?_)
    have later := pairwise_iff_forall_sublist.mp advances sublist
    refine ⟨later, fun closing started => ?_⟩
    have opened := (holds next (sublist.subset (by simp))).opened started
    rw [later.closing closing] at opened
    cases opened
  · have within : ∀ moment, moment = start ∨ moment ∈ middle ∨ moment = release →
        moment ∈ history perform actions empty := by
      intro moment where_
      rw [moments]
      simp only [mem_append, mem_cons]
      tauto
    have begins : Bounded start.before.exitedCount start.after := by
      have inside := within start (.inl rfl)
      obtain ⟨sessionId, instanceId, _, puts⟩ :=
        perform_started ((outcome_eq inside).symm.trans starts)
      rw [after_eq inside, puts]
      exact bounded_started sessionId instanceId
    have ends : Bounded start.before.exitedCount release.before := by
      refine until_next moments begins fun moment member bounded => ?_
      have inside := within moment (.inr (.inl member))
      rw [after_eq inside]
      refine bounded.perform (sound moment inside) moment.action ?_
      rw [← outcome_eq inside]
      exact holding moment member
    have inside := within release (.inr (.inr rfl))
    rw [after_eq inside]
    exact ends.released (sound release inside) ((outcome_eq inside).symm.trans releases)

/-- A start of a session and the steps of its eviction. -/
def startAndEvict (sessionId : Nat) : List (SessionAction Nat Nat) :=
  .start sessionId sessionId true true :: List.replicate (2 * sessionId + 4) .evict

/-- Sixty-four sessions start and exit, and another starts; while one more evicts, having counted
the sessions that have exited, this one exits too. -/
def exitWhileEvicting : List (SessionAction Nat Nat) :=
  (List.range 64).flatMap (fun sessionId => startAndEvict sessionId ++ [.exit sessionId]) ++
    startAndEvict 64 ++ .start 65 65 true true :: List.replicate 67 .evict ++
    .exit 64 :: List.replicate 67 .evict

set_option maxRecDepth 100000 in
theorem retained_beyond_the_limit :
    ¬∀ actions : List (SessionAction Nat Nat), ∀ moment ∈ history perform actions empty,
      moment.outcome = .released → moment.after.retainedCount ≤ retainedTerminalSessions := by
  intro claimed
  have reached : ((history perform exitWhileEvicting empty).getLast?.any fun moment =>
      moment.outcome = .released ∧ retainedTerminalSessions < moment.after.retainedCount) = true := by
    decide +kernel
  obtain ⟨moment, last, released⟩ := (Option.any_eq_true ..).mp reached
  obtain ⟨released, many⟩ := of_decide_eq_true released
  exact Nat.not_le_of_lt many
    (claimed exitWhileEvicting moment (mem_of_getLast? last) released)

end Sessions

end Axial.Launch
