/-
This file is about computations that return a result or an error: what it means
for a sequence of them to return, and what a list of them leaves behind when none
fails.
-/

import Mathlib

namespace Fallible

open List

variable {Error Other First Second State Input : Type}

variable {first : Except Error First}

theorem bind_eq_ok {rest : First → Except Error Second} {result : Second} :
    first >>= rest = .ok result ↔ ∃ value, first = .ok value ∧ rest value = .ok result := by
  cases first with
  | error error =>
    simp only [bind, Except.bind, reduceCtorEq, false_and, exists_false]
  | ok value =>
    simp only [bind, Except.bind, Except.ok.injEq, exists_eq_left']

variable {error : Error}

theorem bind_eq_error {rest : First → Except Error Second} :
    first >>= rest = .error error ↔
      first = .error error ∨ ∃ value, first = .ok value ∧ rest value = .error error := by
  cases first with
  | error other =>
    simp only [bind, Except.bind, Except.error.injEq, reduceCtorEq, false_and, exists_false,
      or_false]
  | ok value =>
    simp only [bind, Except.bind, reduceCtorEq, Except.ok.injEq, exists_eq_left', false_or]

variable {result value : First}

theorem pure_eq_ok : (pure value : Except Error First) = .ok result ↔ value = result := by
  simp only [pure, Except.pure, Except.ok.injEq]

theorem throw_eq_ok : (throw error : Except Error First) = .ok result ↔ False := by
  simp only [throw, throwThe, MonadExceptOf.throw, reduceCtorEq]

theorem mapError_eq_ok {convert : Error → Other} :
    first.mapError convert = .ok result ↔ first = .ok result := by
  cases first with
  | error error => simp only [Except.mapError, reduceCtorEq]
  | ok value => rw [Except.mapError, Except.ok.injEq, Except.ok.injEq]

variable {convert : First → Second}

theorem map_eq_error : first.map convert = .error error ↔ first = .error error := by
  cases first with
  | error other => rw [Except.map, Except.error.injEq, Except.error.injEq]
  | ok value => simp only [Except.map, reduceCtorEq]

variable {condition : Prop} {rest : Except Error First}

/-- A check that comes before the rest. -/
theorem ite_throw_eq_ok [Decidable condition] :
    (if condition then .error error else rest) = .ok result ↔
      ¬ condition ∧ rest = .ok result := by
  by_cases holds : condition
  · rw [if_pos holds]
    simp only [reduceCtorEq, holds, not_true_eq_false, false_and]
  · rw [if_neg holds]
    simp only [holds, not_false_eq_true, true_and]

theorem ite_throw_eq_error [Decidable condition] {other : Error} :
    (if condition then .error error else rest) = .error other ↔
      condition ∧ error = other ∨ ¬ condition ∧ rest = .error other := by
  by_cases holds : condition
  · rw [if_pos holds, Except.error.injEq]
    simp only [holds, true_and, not_true_eq_false, false_and, or_false]
  · rw [if_neg holds]
    simp only [holds, false_and, not_false_eq_true, true_and, false_or]

/-- The same, where the rest is written after the check. -/
theorem guard_eq_ok [Decidable condition] {skipped : Second → Except Error First} :
    (if condition then throw error >>= skipped else rest) = .ok result ↔
      ¬ condition ∧ rest = .ok result :=
  ite_throw_eq_ok

/-- A check on its own. -/
theorem check_eq_ok [Decidable condition] :
    (if condition then .ok value else .error error : Except Error First) = .ok result ↔
      condition ∧ value = result := by
  by_cases holds : condition
  · rw [if_pos holds, Except.ok.injEq]
    simp only [holds, true_and]
  · rw [if_neg holds]
    simp only [reduceCtorEq, holds, false_and]

/-! ### Lists -/

variable {make : First → Except Error Second} {results : List Second}

/-- Each input of a list has its result. -/
theorem exists_of_mapM {inputs : List First} (made : inputs.mapM make = .ok results) {input : First}
    (member : input ∈ inputs) : ∃ result ∈ results, make input = .ok result := by
  induction inputs generalizing results with
  | nil => cases member
  | cons head inputs ih =>
    simp only [mapM_cons, bind_eq_ok, pure_eq_ok] at made
    obtain ⟨first, here, rest, later, rfl⟩ := made
    rcases mem_cons.mp member with rfl | inside
    · exact ⟨first, mem_cons_self, here⟩
    · obtain ⟨result, found, from_input⟩ := ih later inside
      exact ⟨result, mem_cons_of_mem _ found, from_input⟩

/-- Each result of a list has its input. -/
theorem exists_input_of_mapM {inputs : List First} (made : inputs.mapM make = .ok results)
    {result : Second} (member : result ∈ results) : ∃ input ∈ inputs, make input = .ok result := by
  induction inputs generalizing results with
  | nil =>
    cases pure_eq_ok.mp made
    cases member
  | cons head inputs ih =>
    simp only [mapM_cons, bind_eq_ok, pure_eq_ok] at made
    obtain ⟨first, here, rest, later, rfl⟩ := made
    rcases mem_cons.mp member with rfl | inside
    · exact ⟨head, mem_cons_self, here⟩
    · obtain ⟨input, found, makes⟩ := ih later inside
      exact ⟨input, mem_cons_of_mem _ found, makes⟩

/-- What each result has, all results have. -/
theorem forall_of_mapM {inputs : List First} (made : inputs.mapM make = .ok results)
    {holds : Second → Prop} (each : ∀ input result, make input = .ok result → holds result) :
    ∀ result ∈ results, holds result := by
  intro result member
  obtain ⟨input, -, makes⟩ := exists_input_of_mapM made member
  exact each input result makes

variable {Key : Type}

/-- What each result shares with its input, the results share with the inputs. -/
theorem map_of_mapM {inputs : List First} (made : inputs.mapM make = .ok results)
    {name : First → Key} {key : Second → Key}
    (agrees : ∀ input result, make input = .ok result → key result = name input) :
    results.map key = inputs.map name := by
  induction inputs generalizing results with
  | nil =>
    cases pure_eq_ok.mp made
    rfl
  | cons head inputs ih =>
    simp only [mapM_cons, bind_eq_ok, pure_eq_ok] at made
    obtain ⟨first, here, rest, later, rfl⟩ := made
    rw [map_cons, map_cons, agrees head first here, ih later]

/-- What stands beside an entry of a list. -/
theorem exists_getElem?_of_forall₂ {relates : First → Second → Prop} {firsts : List First}
    {seconds : List Second} (all : List.Forall₂ relates firsts seconds) {index : Nat}
    {first : First} (found : firsts[index]? = some first) :
    ∃ second, seconds[index]? = some second ∧ relates first second := by
  induction all generalizing index with
  | nil => cases found
  | cons here _ ih =>
    cases index with
    | zero =>
      cases found
      exact ⟨_, rfl, here⟩
    | succ index => exact ih found

variable {inputs : List Input}

theorem forM_eq_ok {check : Input → Except Error Unit} :
    inputs.forM check = .ok () ↔ ∀ input ∈ inputs, check input = .ok () := by
  induction inputs with
  | nil =>
    show (pure () : Except Error Unit) = .ok () ↔ _
    simp only [pure_eq_ok, not_mem_nil, false_imp_iff, implies_true]
  | cons input inputs ih =>
    show (check input >>= fun _ => inputs.forM check) = _ ↔ _
    simp only [bind_eq_ok, ih, mem_cons, forall_eq_or_imp]
    constructor
    · rintro ⟨⟨⟩, here, later⟩
      exact ⟨here, later⟩
    · rintro ⟨here, later⟩
      exact ⟨(), here, later⟩

variable {advance : State → Input → Except Error State}

variable {finish start : State}

theorem foldlM_cons_eq_ok {input : Input} :
    (input :: inputs).foldlM advance start = .ok finish ↔
      ∃ middle, advance start input = .ok middle ∧ inputs.foldlM advance middle = .ok finish := by
  rw [foldlM_cons, bind_eq_ok]

theorem foldlM_nil_eq_ok :
    ([] : List Input).foldlM advance start = .ok finish ↔ start = finish := by
  rw [foldlM_nil, pure_eq_ok]

/-- What every step of a fold preserves, the fold preserves. -/
theorem foldlM_invariant {holds : State → Prop} {inputs : List Input} {start finish : State}
    (folded : inputs.foldlM advance start = .ok finish)
    (preserved : ∀ before, ∀ input ∈ inputs, ∀ after, advance before input = .ok after →
      holds before → holds after)
    (initially : holds start) : holds finish := by
  induction inputs generalizing start with
  | nil => exact foldlM_nil_eq_ok.mp folded ▸ initially
  | cons input inputs ih =>
    obtain ⟨middle, here, later⟩ := foldlM_cons_eq_ok.mp folded
    exact ih later
      (fun before other member => preserved before other (mem_cons_of_mem _ member))
      (preserved start input mem_cons_self middle here initially)

/-- A preorder that every step of a fold goes up in, the fold goes up in. -/
theorem foldlM_rel {le : State → State → Prop} (refl : ∀ state, le state state)
    (trans : ∀ first second third, le first second → le second third → le first third)
    {inputs : List Input} {start finish : State}
    (folded : inputs.foldlM advance start = .ok finish)
    (each : ∀ before, ∀ input ∈ inputs, ∀ after, advance before input = .ok after →
      le before after) : le start finish := by
  induction inputs generalizing start with
  | nil =>
    rw [foldlM_nil_eq_ok] at folded
    exact folded ▸ refl start
  | cons input inputs ih =>
    obtain ⟨middle, here, later⟩ := foldlM_cons_eq_ok.mp folded
    exact trans _ _ _ (each start input mem_cons_self middle here)
      (ih later fun before other member =>
        each before other (mem_cons_of_mem _ member))

/-- In a preorder that every step of a fold goes up in, each input has a step below the end. -/
theorem exists_step_of_foldlM {le : State → State → Prop} (refl : ∀ state, le state state)
    (trans : ∀ first second third, le first second → le second third → le first third)
    {inputs : List Input} {start finish : State}
    (folded : inputs.foldlM advance start = .ok finish)
    (each : ∀ before, ∀ input ∈ inputs, ∀ after, advance before input = .ok after →
      le before after) {input : Input} (member : input ∈ inputs) :
    ∃ before after, advance before input = .ok after ∧ le start before ∧ le after finish := by
  induction inputs generalizing start with
  | nil => cases member
  | cons head inputs ih =>
    obtain ⟨middle, here, later⟩ := foldlM_cons_eq_ok.mp folded
    have rest (before : State) (other : Input) (inside : other ∈ inputs) :=
      each before other (mem_cons_of_mem head inside)
    rcases mem_cons.mp member with rfl | inside
    · exact ⟨start, middle, here, refl start, foldlM_rel refl trans later rest⟩
    · obtain ⟨before, after, advanced, above, below⟩ := ih later rest inside
      exact ⟨before, after, advanced,
        trans _ _ _ (each start head mem_cons_self middle here) above, below⟩

/-- A fold over distinct keys, each step of which changes what is seen just at its key. -/
theorem foldlM_pointwise {Key Seen : Type} {seen : State → Key → Seen} {key : Input → Key}
    {changes : Input → Seen → Seen → Prop} {inputs : List Input} {start finish : State}
    (folded : inputs.foldlM advance start = .ok finish) (distinct : (inputs.map key).Nodup)
    (each : ∀ before, ∀ input ∈ inputs, ∀ after, advance before input = .ok after →
      changes input (seen before (key input)) (seen after (key input)) ∧
        ∀ other, other ≠ key input → seen after other = seen before other) :
    (∀ input ∈ inputs, changes input (seen start (key input)) (seen finish (key input))) ∧
      ∀ other, other ∉ inputs.map key → seen finish other = seen start other := by
  induction inputs generalizing start with
  | nil =>
    rw [foldlM_nil_eq_ok] at folded
    subst folded
    exact ⟨fun _ member => absurd member not_mem_nil, fun _ _ => rfl⟩
  | cons head inputs ih =>
    obtain ⟨middle, here, later⟩ := foldlM_cons_eq_ok.mp folded
    obtain ⟨fresh, distinct⟩ := nodup_cons.mp distinct
    obtain ⟨changed, frame⟩ := each start head mem_cons_self middle here
    obtain ⟨rest, untouched⟩ := ih later distinct fun before input member =>
      each before input (mem_cons_of_mem head member)
    refine ⟨fun input member => ?_, fun other apart => ?_⟩
    · rcases mem_cons.mp member with rfl | inside
      · rw [untouched _ fresh]
        exact changed
      · have apart : key input ≠ key head := fun same =>
          fresh (same ▸ mem_map_of_mem inside)
        rw [← frame _ apart]
        exact rest input inside
    · rw [map_cons, mem_cons, not_or] at apart
      rw [untouched other apart.2, frame other apart.1]

/-- A table that is collected holds an input under its key if and only if the input is kept. -/
theorem foldlM_collects {Key : Type} [DecidableEq Key] {seen : State → Key → Option Input}
    {key : Input → Key} {kept : Input → Prop} {inputs : List Input} {start finish : State}
    (folded : inputs.foldlM advance start = .ok finish)
    (initially : ∀ name, seen start name = none)
    (each : ∀ before input after, advance before input = .ok after →
      (kept input ∧ seen before (key input) = none ∧
          ∀ name, seen after name = if name = key input then some input else seen before name) ∨
        ¬ kept input ∧ ∀ name, seen after name = seen before name) :
    ∀ name input, seen finish name = some input ↔ input ∈ inputs ∧ kept input ∧ key input = name := by
  induction inputs using List.reverseRecOn generalizing finish with
  | nil =>
    rw [foldlM_nil_eq_ok] at folded
    subst folded
    intro name input
    rw [initially]
    exact ⟨nofun, fun ⟨member, _⟩ => absurd member not_mem_nil⟩
  | append_singleton inputs last ih =>
    rw [foldlM_append, bind_eq_ok] at folded
    obtain ⟨middle, earlier, single⟩ := folded
    obtain ⟨after, here, same⟩ := foldlM_cons_eq_ok.mp single
    rw [foldlM_nil_eq_ok] at same
    subst same
    intro name input
    rw [mem_append, mem_singleton]
    rcases each middle last after here with ⟨keeps, fresh, now⟩ | ⟨drops, now⟩
    · rw [now name]
      by_cases same : name = key last
      · rw [if_pos same, Option.some.injEq]
        constructor
        · rintro rfl
          exact ⟨.inr rfl, keeps, same.symm⟩
        · rintro ⟨inside | rfl, kept, keyed⟩
          · have known := (ih earlier (key last) input).mpr
              ⟨inside, kept, keyed.trans same⟩
            rw [fresh] at known
            cases known
          · rfl
      · rw [if_neg same, ih earlier name input]
        constructor
        · rintro ⟨inside, rest⟩
          exact ⟨.inl inside, rest⟩
        · rintro ⟨inside | rfl, kept, keyed⟩
          · exact ⟨inside, kept, keyed⟩
          · exact absurd keyed.symm same
    · rw [now name, ih earlier name input]
      constructor
      · rintro ⟨inside, rest⟩
        exact ⟨.inl inside, rest⟩
      · rintro ⟨inside | rfl, kept, keyed⟩
        · exact ⟨inside, kept, keyed⟩
        · exact absurd kept drops

/-! ### Scans

A scan looks at each input of a list in turn, and knows what came before it.
-/

/-- A scan whose steps only tell whether they admit an input returns if and only if every input
is admitted by what the inputs before it have led to. -/
theorem foldlM_eq_ok {admits : State → Input → Prop} {next : State → Input → State}
    (step : ∀ state input result,
      advance state input = .ok result ↔ admits state input ∧ next state input = result) :
    inputs.foldlM advance start = .ok finish ↔
      (∀ before input after, inputs = before ++ input :: after →
        admits (before.foldl next start) input) ∧ inputs.foldl next start = finish := by
  induction inputs generalizing start with
  | nil =>
    rw [foldlM_nil_eq_ok, foldl_nil]
    refine ⟨fun same => ⟨fun before input after split => ?_, same⟩, fun both => both.2⟩
    exact absurd split.symm (by simp)
  | cons head inputs ih =>
    simp only [foldlM_cons_eq_ok, step, ih, foldl_cons]
    constructor
    · rintro ⟨_, ⟨admitted, rfl⟩, later, same⟩
      refine ⟨fun before input after split => ?_, same⟩
      cases before with
      | nil =>
        obtain ⟨rfl, -⟩ := List.cons.inj split
        exact admitted
      | cons first before =>
        obtain ⟨rfl, rest⟩ := List.cons.inj split
        exact later before input after rest
    · rintro ⟨each, same⟩
      refine ⟨_, ⟨each [] head inputs rfl, rfl⟩, fun before input after split => ?_, same⟩
      exact each (head :: before) input after (congrArg (List.cons head) split)

/-- A scan that notes all inputs has noted the ones before. -/
theorem foldl_append_singleton (inputs : List Input) :
    inputs.foldl (fun seen input => seen ++ [input]) [] = inputs := by
  induction inputs using List.reverseRecOn with
  | nil => rfl
  | append_singleton inputs input ih =>
    rw [foldl_append, ih, foldl_cons, foldl_nil]

/-- Each input of a list stands to the ones before it as the relation says. -/
theorem pairwise_iff_earlier {relates : Input → Input → Prop} :
    inputs.Pairwise relates ↔ ∀ before input after, inputs = before ++ input :: after →
      ∀ earlier ∈ before, relates earlier input := by
  constructor
  · rintro pairs before input after rfl earlier member
    exact (pairwise_append.mp pairs).2.2 earlier member input mem_cons_self
  · intro each
    induction inputs using List.reverseRecOn with
    | nil => exact List.Pairwise.nil
    | append_singleton inputs last ih =>
      refine pairwise_append.mpr ⟨ih fun before input after split =>
        each before input (after ++ [last]) (by simp [split]), pairwise_singleton _ _, ?_⟩
      intro earlier member input same
      rw [mem_singleton.mp same]
      exact each inputs last [] rfl earlier member

/-- The keys of a list are distinct if and only if no input has the key of an earlier one. -/
theorem nodup_map_iff_earlier {key : Input → Key} :
    (inputs.map key).Nodup ↔ ∀ before input after, inputs = before ++ input :: after →
      key input ∉ before.map key := by
  unfold List.Nodup
  rw [pairwise_map, pairwise_iff_earlier]
  refine forall₃_congr fun before input after => imp_congr_right fun _ => ?_
  rw [mem_map]
  exact ⟨fun apart ⟨earlier, member, same⟩ => apart earlier member same,
    fun apart earlier member same => apart ⟨earlier, member, same⟩⟩

end Fallible
