/-
This file is about lists read as words: the runs of elements that are not blank. Words joined by
single blanks are the list with each run of blanks squeezed into one, and only a pattern that
has a blank can occur in it without occurring in the list. It says which words are left when the
joined words are cut, and which patterns occur in what is left, by walking through the list.
-/

import Mathlib

namespace Words

open List Option

variable {α : Type}

/-! ### Words -/

/-- The runs of elements that are not blank. -/
def words (isBlank : α → Bool) (list : List α) : List (List α) :=
  (list.splitOnP isBlank).filter fun part => !part.isEmpty

/-- Words with single blanks between them. -/
def joined (blank : α) (parts : List (List α)) : List α := [blank].intercalate parts

/-- Whether a list begins with an element that is not blank. -/
def beginsPlain (isBlank : α → Bool) (list : List α) : Bool :=
  list.head?.any fun element => !isBlank element

variable {isBlank : α → Bool} {blank : α}

variable {element : α} {rest : List α}

theorem words_cons_blank (isBlanks : isBlank element = true) :
    words isBlank (element :: rest) = words isBlank rest := by
  rw [words, splitOnP_cons_eq_if_modifyHead, if_pos isBlanks]
  rfl

variable {parts : List (List α)} {part : List α}

theorem filter_present (present : part ≠ []) :
    ((part :: parts).filter fun part => !part.isEmpty) =
      part :: parts.filter fun part => !part.isEmpty := by
  have kept : (!part.isEmpty) = true := by simpa using present
  rw [filter_cons, if_pos kept]

/-- A word that is followed by a blank or by nothing. -/
theorem words_append (part : List α) (plain : ∀ element ∈ part, isBlank element = false)
    (present : part ≠ []) (ends : beginsPlain isBlank rest = false) :
    words isBlank (part ++ rest) = part :: words isBlank rest := by
  cases rest with
  | nil =>
    rw [List.append_nil, words, splitOnP_eq_singleton plain, filter_present present]
    rfl
  | cons element rest =>
    have isBlanks : isBlank element = true := by simpa [beginsPlain] using ends
    rw [words, splitOnP_append_cons_of_forall_mem plain element isBlanks,
      filter_present present, words_cons_blank isBlanks, words]

/-- A word goes on, or it begins. -/
theorem words_cons_plain (plain : isBlank element = false) :
    words isBlank (element :: rest) = if beginsPlain isBlank rest then
      (words isBlank rest).modifyHead (element :: ·) else [element] :: words isBlank rest := by
  by_cases begins : beginsPlain isBlank rest = true
  · rw [if_pos begins]
    have split : ∃ head tail, rest.splitOnP isBlank = head :: tail ∧ head ≠ [] := by
      cases rest with
      | nil => cases begins
      | cons next rest =>
        have plainNext : ¬isBlank next = true := by simpa [beginsPlain] using begins
        rw [splitOnP_cons_eq_if_modifyHead, if_neg plainNext]
        obtain ⟨head, tail, parts⟩ := exists_cons_of_ne_nil (splitOnP_ne_nil isBlank rest)
        exact ⟨next :: head, tail, by rw [parts]; rfl, cons_ne_nil _ _⟩
    obtain ⟨head, tail, parts, present⟩ := split
    rw [words, words, splitOnP_cons_eq_if_modifyHead, if_neg (by simp [plain]), parts,
      filter_present present]
    exact filter_present (cons_ne_nil _ _)
  · rw [if_neg begins, ← words_append [element] (by simpa using plain)
      (cons_ne_nil _ _) (Bool.eq_false_of_not_eq_true begins)]
    rfl

theorem words_ne_nil {list : List α} (begins : beginsPlain isBlank list = true) :
    words isBlank list ≠ [] := by
  cases list with
  | nil => cases begins
  | cons element rest =>
    have plain : isBlank element = false := by simpa [beginsPlain] using begins
    rw [words_cons_plain plain]
    split
    · rename_i begins
      have induction := words_ne_nil begins
      cases parts : words isBlank rest with
      | nil => exact absurd parts induction
      | cons => exact cons_ne_nil _ _
    · exact cons_ne_nil _ _

theorem words_ne_nil_of_last {list : List α} (present : list ≠ [])
    (ends : ∀ last ∈ list.getLast?, isBlank last = false) : words isBlank list ≠ [] := by
  induction list with
  | nil => exact absurd rfl present
  | cons element rest ih =>
    cases blankness : isBlank element with
    | false =>
      refine words_ne_nil ?_
      simp [beginsPlain, blankness]
    | true =>
      rw [words_cons_blank blankness]
      have more : rest ≠ [] := by
        rintro rfl
        rw [ends element rfl] at blankness
        cases blankness
      refine ih more fun last member => ends last ?_
      rw [getLast?_cons, mem_def.mp member]
      rfl

/-- Words are not empty and hold no blank. -/
theorem mem_words {list : List α} (member : part ∈ words isBlank list) :
    part ≠ [] ∧ ∀ element ∈ part, isBlank element = false := by
  induction list generalizing part with
  | nil => cases member
  | cons element rest ih =>
    cases blankness : isBlank element with
    | true =>
      rw [words_cons_blank blankness] at member
      exact ih member
    | false =>
      rw [words_cons_plain blankness] at member
      split at member
      · cases parts : words isBlank rest with
        | nil =>
          rw [parts] at member
          cases member
        | cons head tail =>
          rw [parts] at member ih
          rcases mem_cons.mp member with rfl | later
          · refine ⟨cons_ne_nil _ _, fun other inside => ?_⟩
            rcases mem_cons.mp inside with rfl | there
            · exact blankness
            · exact (ih mem_cons_self).2 other there
          · exact ih (mem_cons_of_mem _ later)
      · rcases mem_cons.mp member with rfl | later
        · refine ⟨cons_ne_nil _ _, fun other inside => ?_⟩
          rw [mem_singleton.mp inside]
          exact blankness
        · exact ih later

theorem words_concat_blank (list : List α) {last : α} (isBlanks : isBlank last = true) :
    words isBlank (list ++ [last]) = words isBlank list := by
  induction list with
  | nil => exact words_cons_blank isBlanks
  | cons element rest ih =>
    rw [cons_append]
    cases blankness : isBlank element with
    | true => rw [words_cons_blank blankness, words_cons_blank blankness, ih]
    | false =>
      have begins : beginsPlain isBlank (rest ++ [last]) = beginsPlain isBlank rest := by
        cases rest with
        | nil => simp [beginsPlain, isBlanks]
        | cons => rfl
      rw [words_cons_plain blankness, words_cons_plain blankness, begins, ih]

/-- Blanks at the end do not matter. -/
theorem words_rdropWhile (list : List α) :
    words isBlank (list.rdropWhile isBlank) = words isBlank list := by
  induction list using List.reverseRecOn with
  | nil => rw [rdropWhile_nil]
  | append_singleton list last ih =>
    by_cases isBlanks : isBlank last = true
    · rw [rdropWhile_concat_pos _ _ _ isBlanks, ih,
        words_concat_blank list isBlanks]
    · rw [rdropWhile_concat_neg _ _ _ isBlanks]

/-! ### Joining -/

theorem joined_nil : joined blank [] = [] := rfl

theorem joined_singleton (part : List α) : joined blank [part] = part := intercalate_singleton

theorem joined_cons (more : parts ≠ []) :
    joined blank (part :: parts) = part ++ blank :: joined blank parts := by
  rw [joined, intercalate_cons_of_ne_nil more, append_assoc, singleton_append,
    joined]

theorem joined_modifyHead (present : parts ≠ []) :
    joined blank (parts.modifyHead (element :: ·)) = element :: joined blank parts := by
  match parts, present with
  | [part], _ => rw [modifyHead_cons, joined_singleton, joined_singleton]
  | part :: next :: parts, _ =>
    rw [modifyHead_cons, joined_cons (cons_ne_nil _ _),
      joined_cons (cons_ne_nil _ _)]
    rfl

/-! ### Squeezing -/

/-- A list with each run of blanks squeezed into one; no blank is put out after a blank. -/
def squeeze (isBlank : α → Bool) (blank : α) : Bool → List α → List α
  | _, [] => []
  | after, element :: rest =>
    if isBlank element then
      if after then squeeze isBlank blank true rest
      else blank :: squeeze isBlank blank true rest
    else element :: squeeze isBlank blank false rest

/-- A list that does not end in a blank, squeezed, is its words joined. -/
theorem squeeze_eq {list : List α} (ends : ∀ last ∈ list.getLast?, isBlank last = false) :
    squeeze isBlank blank true list = joined blank (words isBlank list) ∧
      squeeze isBlank blank false list =
        if list = [] ∨ beginsPlain isBlank list = true then joined blank (words isBlank list)
        else blank :: joined blank (words isBlank list) := by
  induction list with
  | nil => exact ⟨rfl, rfl⟩
  | cons element rest ih =>
    have endsRest : ∀ last ∈ rest.getLast?, isBlank last = false := by
      intro last member
      refine ends last ?_
      rw [getLast?_cons, mem_def.mp member]
      rfl
    obtain ⟨afterBlank, afterPlain⟩ := ih endsRest
    cases blankness : isBlank element with
    | true =>
      have begins : beginsPlain isBlank (element :: rest) = false := by
        simp [beginsPlain, blankness]
      rw [squeeze, squeeze, if_pos blankness, if_pos rfl, if_pos blankness, if_neg (by simp),
        words_cons_blank blankness, afterBlank, begins]
      exact ⟨rfl, by simp⟩
    | false =>
      have begins : beginsPlain isBlank (element :: rest) = true := by
        simp [beginsPlain, blankness]
      have step : element :: squeeze isBlank blank false rest =
          joined blank (words isBlank (element :: rest)) := by
        rw [afterPlain, words_cons_plain blankness]
        by_cases beginsRest : beginsPlain isBlank rest = true
        · rw [if_pos (.inr beginsRest), if_pos beginsRest,
            joined_modifyHead (words_ne_nil beginsRest)]
        · rw [if_neg beginsRest]
          by_cases none : rest = []
          · subst none
            rfl
          · rw [if_neg (by simp [none, beginsRest]), joined_cons]
            · rfl
            · exact words_ne_nil_of_last none endsRest
      rw [squeeze, squeeze, if_neg (by simp [blankness]), if_neg (by simp [blankness]), step,
        begins]
      exact ⟨rfl, by simp⟩

theorem joined_words (list : List α) :
    joined blank (words isBlank list) =
      squeeze isBlank blank true (list.rdropWhile isBlank) := by
  rw [← words_rdropWhile list]
  refine (squeeze_eq fun last member => ?_).1.symm
  have present : list.rdropWhile isBlank ≠ [] := by
    intro none
    rw [none] at member
    cases member
  rw [getLast?_eq_some_getLast present] at member
  rw [← Option.some.inj member]
  exact Bool.eq_false_of_not_eq_true (rdropWhile_last_not isBlank list present)

variable {after : Bool}

/-- One element of the squeezed list. -/
theorem squeeze_cons (blank : α) (rest : List α) (shown : (isBlank element && after) = false) :
    squeeze isBlank blank after (element :: rest) =
      (if isBlank element then blank else element) ::
        squeeze isBlank blank (isBlank element) rest := by
  cases blankness : isBlank element with
  | true =>
    rw [blankness, Bool.true_and] at shown
    rw [squeeze, if_pos blankness, shown]
    rfl
  | false =>
    rw [squeeze, if_neg (by simp [blankness])]
    rfl

theorem squeeze_skip (skipped : (isBlank element && after) = true) :
    squeeze isBlank blank after (element :: rest) = squeeze isBlank blank true rest := by
  rw [Bool.and_eq_true] at skipped
  rw [squeeze, if_pos skipped.1, if_pos skipped.2]

/-! ### Patterns -/

variable {pattern : List α} {limit : Nat}

theorem prefix_take_cons {first : α} :
    first :: pattern <+: (element :: rest).take limit ↔
      0 < limit ∧ first = element ∧ pattern <+: rest.take (limit - 1) := by
  cases limit with
  | zero => simp
  | succ limit => rw [take_succ_cons, cons_prefix_cons]; simp

theorem infix_take_cons :
    pattern <:+: (element :: rest).take limit ↔
      pattern <+: (element :: rest).take limit ∨ pattern <:+: rest.take (limit - 1) := by
  cases limit with
  | zero => simp
  | succ limit =>
    rw [take_succ_cons, infix_cons_iff]
    rfl

section Patterns

variable [DecidableEq α]

/-- Whether a list begins with a pattern within a number of elements, where a run of blanks
counts as one; none counts after a blank. -/
def spelledAt (isBlank : α → Bool) (blank : α) : Nat → Bool → List α → List α → Bool
  | _, _, [], _ => true
  | _, _, _ :: _, [] => false
  | limit, after, first :: pattern, element :: rest =>
    if isBlank element && after then spelledAt isBlank blank limit true (first :: pattern) rest
    else decide (0 < limit) && decide (first = if isBlank element then blank else element) &&
      spelledAt isBlank blank (limit - 1) (isBlank element) pattern rest

/-- Whether a pattern occurs in a list within a number of elements, counted alike. -/
def spelled (isBlank : α → Bool) (blank : α) (pattern : List α) : Nat → Bool → List α → Bool
  | _, _, [] => pattern.isEmpty
  | limit, after, element :: rest =>
    if isBlank element && after then spelled isBlank blank pattern limit true rest
    else spelledAt isBlank blank limit after pattern (element :: rest) ||
      spelled isBlank blank pattern (limit - 1) (isBlank element) rest

theorem spelledAt_iff {list : List α} :
    spelledAt isBlank blank limit after pattern list = true ↔
      pattern <+: (squeeze isBlank blank after list).take limit := by
  induction list generalizing limit after pattern with
  | nil =>
    cases pattern with
    | nil => simp [spelledAt]
    | cons => simp [spelledAt, squeeze]
  | cons element rest ih =>
    cases pattern with
    | nil => simp [spelledAt]
    | cons first pattern =>
      cases skipped : isBlank element && after with
      | true =>
        rw [spelledAt, if_pos skipped, squeeze_skip skipped]
        exact ih
      | false =>
        rw [spelledAt, if_neg (by simp [skipped]), squeeze_cons _ _ skipped, prefix_take_cons,
          Bool.and_eq_true, Bool.and_eq_true, decide_eq_true_iff, decide_eq_true_iff, and_assoc,
          ih]

theorem spelled_iff {list : List α} :
    spelled isBlank blank pattern limit after list = true ↔
      pattern <:+: (squeeze isBlank blank after list).take limit := by
  induction list generalizing limit after with
  | nil => simp [spelled, squeeze]
  | cons element rest ih =>
    cases skipped : isBlank element && after with
    | true =>
      rw [spelled, if_pos skipped, squeeze_skip skipped]
      exact ih
    | false =>
      rw [spelled, if_neg (by simp [skipped]), Bool.or_eq_true, spelledAt_iff,
        squeeze_cons _ _ skipped, infix_take_cons, ih]

end Patterns

/-! ### Patterns without a blank -/

theorem prefix_of_squeeze {list : List α} (isBlanks : isBlank blank = true)
    (plain : ∀ element ∈ pattern, isBlank element = false) (present : after = false)
    (occurs : pattern <+: squeeze isBlank blank after list) : pattern <+: list := by
  subst present
  induction list generalizing pattern with
  | nil => exact occurs
  | cons element rest ih =>
    cases pattern with
    | nil => exact List.nil_prefix
    | cons first pattern =>
      have plainFirst := plain first mem_cons_self
      rw [squeeze_cons _ _ (Bool.and_false _), cons_prefix_cons] at occurs
      obtain ⟨same, later⟩ := occurs
      cases blankness : isBlank element with
      | true =>
        rw [blankness, if_pos rfl] at same
        rw [same, isBlanks] at plainFirst
        cases plainFirst
      | false =>
        rw [blankness] at same later
        rw [same, cons_prefix_cons]
        exact ⟨rfl, ih
          (fun other member => plain other (mem_cons_of_mem _ member)) later⟩

/-- A pattern without a blank that occurs in the squeezed list occurs in the list. -/
theorem infix_of_squeeze {list : List α} (isBlanks : isBlank blank = true)
    (plain : ∀ element ∈ pattern, isBlank element = false)
    (occurs : pattern <:+: squeeze isBlank blank after list) : pattern <:+: list := by
  induction list generalizing after with
  | nil => exact occurs
  | cons element rest ih =>
    cases skipped : isBlank element && after with
    | true =>
      rw [squeeze_skip skipped] at occurs
      exact infix_cons (ih occurs)
    | false =>
      have whole := squeeze_cons blank rest skipped
      rw [whole, infix_cons_iff] at occurs
      rcases occurs with here | later
      · have alike : squeeze isBlank blank false (element :: rest) =
            squeeze isBlank blank after (element :: rest) := by
          rw [whole, squeeze_cons _ _ (Bool.and_false _)]
        rw [← whole, ← alike] at here
        exact (prefix_of_squeeze isBlanks plain rfl here).isInfix
      · exact infix_cons (ih later)

/-! ### Cutting -/

/-- What is left of words when they are joined and cut. -/
def cutWords : Nat → List (List α) → List (List α)
  | _, [] => []
  | limit, part :: parts =>
    if limit = 0 then [] else part.take limit :: cutWords (limit - (part.length + 1)) parts

/-- Whether the cut comes right after a blank. -/
def cutAfterBlank : Nat → List (List α) → Bool
  | _, [] => false
  | limit, part :: parts =>
    (decide (limit = part.length + 1) && !parts.isEmpty) ||
      cutAfterBlank (limit - (part.length + 1)) parts

theorem cutWords_zero (parts : List (List α)) : cutWords 0 parts = [] := by
  cases parts with
  | nil => rfl
  | cons => exact if_pos rfl

theorem cutAfterBlank_zero (parts : List (List α)) : cutAfterBlank 0 parts = false := by
  induction parts with
  | nil => rfl
  | cons part parts ih =>
    rw [cutAfterBlank, Nat.zero_sub, ih]
    simp

theorem take_joined_cons (more : parts ≠ []) (inside : part.length < limit) :
    (joined blank (part :: parts)).take limit =
      part ++ blank :: (joined blank parts).take (limit - (part.length + 1)) := by
  rw [joined_cons more, take_append, take_of_length_le inside.le]
  obtain ⟨rest, same⟩ : ∃ rest, limit - part.length = rest + 1 :=
    ⟨limit - part.length - 1, by omega⟩
  rw [same, take_succ_cons, show limit - (part.length + 1) = rest by omega]

/-- The words of what is left. -/
theorem words_take_joined (isBlanks : isBlank blank = true)
    (proper : ∀ part ∈ parts, part ≠ [] ∧ ∀ element ∈ part, isBlank element = false) (limit : Nat) :
    words isBlank ((joined blank parts).take limit) = cutWords limit parts := by
  induction parts generalizing limit with
  | nil =>
    rw [joined_nil, take_nil]
    rfl
  | cons part parts ih =>
    obtain ⟨present, plain⟩ := proper part mem_cons_self
    by_cases none : limit = 0
    · rw [none, take_zero, cutWords_zero]
      rfl
    rw [cutWords, if_neg none]
    have one : words isBlank (part.take limit) = [part.take limit] := by
      have cut : part.take limit ≠ [] := by
        rw [Ne, take_eq_nil_iff]
        simp [none, present]
      have alone : words isBlank (part.take limit ++ []) = [part.take limit] := words_append _
        (fun element member => plain element (mem_of_mem_take member)) cut rfl
      rwa [List.append_nil] at alone
    by_cases last : parts = []
    · subst last
      rw [joined_singleton, one]
      rfl
    by_cases inside : part.length < limit
    · rw [take_joined_cons last inside, words_append part plain present
          (by simp [beginsPlain, isBlanks]),
        words_cons_blank isBlanks, take_of_length_le inside.le,
        ih fun other member => proper other (mem_cons_of_mem _ member)]
    · have short : limit - part.length = 0 := by omega
      rw [joined_cons last, take_append, short, take_zero, List.append_nil, one,
        show limit - (part.length + 1) = 0 by omega, cutWords_zero]

theorem cutWords_ne_nil (more : parts ≠ []) (positive : limit ≠ 0) : cutWords limit parts ≠ [] := by
  cases parts with
  | nil => exact absurd rfl more
  | cons part parts =>
    rw [cutWords, if_neg positive]
    exact cons_ne_nil _ _

/-- Joining what is left gives the cut again if that does not come right after a blank. -/
theorem joined_cutWords (limit : Nat) :
    joined blank (cutWords limit parts) = (joined blank parts).take limit ↔
      cutAfterBlank limit parts = false := by
  induction parts generalizing limit with
  | nil => simp [cutWords, cutAfterBlank, joined_nil]
  | cons part parts ih =>
    by_cases none : limit = 0
    · rw [none, cutWords_zero, cutAfterBlank_zero, take_zero]
      simp [joined_nil]
    rw [cutWords, if_neg none, cutAfterBlank]
    by_cases last : parts = []
    · subst last
      simp [cutWords, cutAfterBlank, joined_singleton]
    have some : (!parts.isEmpty) = true := by simpa using last
    rw [some, Bool.and_true, Bool.or_eq_false_iff, decide_eq_false_iff_not]
    rcases Nat.lt_trichotomy limit (part.length + 1) with within | exactly | beyond
    · have short : limit - part.length = 0 := by omega
      rw [show limit - (part.length + 1) = 0 by omega, cutWords_zero, cutAfterBlank_zero,
        joined_singleton, joined_cons last, take_append, short, take_zero,
        List.append_nil]
      simp
      omega
    · have cut : (joined blank (part :: parts)).take limit = part ++ [blank] := by
        rw [take_joined_cons last (by omega), exactly, Nat.sub_self, take_zero]
      rw [show limit - (part.length + 1) = 0 by omega, cutWords_zero, cut, joined_singleton,
        take_of_length_le (by omega)]
      simp [exactly]
    · have inside : part.length < limit := by omega
      have positive : limit - (part.length + 1) ≠ 0 := by omega
      rw [take_joined_cons last inside, take_of_length_le inside.le,
        joined_cons (cutWords_ne_nil last positive), append_cancel_left_eq,
        cons_inj_right, ih]
      simp
      omega

/-! ### Runs -/

theorem splitOnP_head {list head : List α} {tail : List (List α)}
    (split : list.splitOnP isBlank = head :: tail) :
    head <+: list ∧ ∀ run, run <+: list → (∀ element ∈ run, isBlank element = false) →
      run <+: head := by
  induction list generalizing head tail with
  | nil =>
    obtain ⟨rfl, -⟩ := List.cons.inj split
    exact ⟨prefix_refl _, fun run inside _ => inside⟩
  | cons element rest ih =>
    obtain ⟨first, others, parts⟩ := exists_cons_of_ne_nil (splitOnP_ne_nil isBlank rest)
    rw [splitOnP_cons_eq_if_modifyHead, parts] at split
    obtain ⟨firstPrefix, longest⟩ := ih parts
    by_cases blankness : isBlank element = true
    · rw [if_pos blankness] at split
      obtain ⟨rfl, -⟩ := List.cons.inj split
      refine ⟨List.nil_prefix, fun run inside plain => ?_⟩
      cases run with
      | nil => exact List.nil_prefix
      | cons start run =>
        rw [cons_prefix_cons] at inside
        have plainStart := plain start mem_cons_self
        rw [inside.1, blankness] at plainStart
        cases plainStart
    · rw [if_neg blankness] at split
      obtain ⟨rfl, -⟩ := List.cons.inj split
      refine ⟨cons_prefix_cons.mpr ⟨rfl, firstPrefix⟩, fun run inside plain => ?_⟩
      cases run with
      | nil => exact List.nil_prefix
      | cons start run =>
        rw [cons_prefix_cons] at inside ⊢
        exact ⟨inside.1, longest run inside.2
          fun other member => plain other (mem_cons_of_mem _ member)⟩

/-- The parts of a split are runs of the list. -/
theorem mem_splitOnP {list : List α} (member : part ∈ list.splitOnP isBlank) :
    part <:+: list ∧ ∀ element ∈ part, isBlank element = false := by
  induction list generalizing part with
  | nil =>
    rw [splitOnP_nil, mem_singleton] at member
    subst member
    exact ⟨infix_refl _, nofun⟩
  | cons element rest ih =>
    obtain ⟨first, others, parts⟩ := exists_cons_of_ne_nil (splitOnP_ne_nil isBlank rest)
    have inRest : ∀ other ∈ first :: others, other <:+: element :: rest ∧
        ∀ element ∈ other, isBlank element = false := by
      intro other there
      rw [← parts] at there
      exact (ih there).imp_left infix_cons
    rw [splitOnP_cons_eq_if_modifyHead, parts] at member
    by_cases blankness : isBlank element = true
    · rw [if_pos blankness] at member
      rcases mem_cons.mp member with rfl | later
      · exact ⟨List.nil_infix, nofun⟩
      · exact inRest part later
    · rw [if_neg blankness] at member
      rcases mem_cons.mp member with rfl | later
      · refine ⟨(cons_prefix_cons.mpr ⟨rfl, (splitOnP_head parts).1⟩).isInfix, ?_⟩
        intro other inside
        rcases mem_cons.mp inside with rfl | there
        · exact Bool.eq_false_of_not_eq_true blankness
        · exact (inRest first mem_cons_self).2 other there
      · exact inRest part (mem_cons_of_mem _ later)

/-- A run of the list is in a part of its split. -/
theorem exists_mem_splitOnP {list run : List α} (inside : run <:+: list)
    (plain : ∀ element ∈ run, isBlank element = false) :
    ∃ part ∈ list.splitOnP isBlank, run <:+: part := by
  induction list with
  | nil => exact ⟨[], mem_singleton_self _, inside⟩
  | cons element rest ih =>
    obtain ⟨head, tail, parts⟩ :=
      exists_cons_of_ne_nil (splitOnP_ne_nil isBlank (element :: rest))
    rcases infix_cons_iff.mp inside with here | later
    · rw [parts]
      exact ⟨head, mem_cons_self, ((splitOnP_head parts).2 run here plain).isInfix⟩
    · obtain ⟨part, member, within⟩ := ih later
      rw [splitOnP_cons_eq_if_modifyHead]
      by_cases blankness : isBlank element = true
      · rw [if_pos blankness]
        exact ⟨part, mem_cons_of_mem _ member, within⟩
      · rw [if_neg blankness]
        obtain ⟨first, others, split⟩ :=
          exists_cons_of_ne_nil (splitOnP_ne_nil isBlank rest)
        rw [split] at member ⊢
        rcases mem_cons.mp member with rfl | there
        · exact ⟨element :: part, mem_cons_self, infix_cons within⟩
        · exact ⟨part, mem_cons_of_mem _ there, within⟩

end Words
