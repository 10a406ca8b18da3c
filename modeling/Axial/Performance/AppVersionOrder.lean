/-
This file proves in which order the launcher takes its own versions, when a manifest
asks for one (`validate_app_version_compatibility`). Releases and channels are in the
order of their numbers and ranks. Within a channel pre-releases are compared as texts,
which takes the tenth for an earlier one than the second.
-/

import Axial.Library.Comparison
import Axial.Performance.Manifest
import Mathlib.Order.WithBot

namespace Axial.Performance

open Axial.Comparison List Option
open Axial.Minecraft (trim)

theorem withRunning_eq_ok_iff {minimum running : String} {left right : AppVersion}
    (minimumParsed : parseAppVersion minimum = .ok left)
    (runningParsed : parseAppVersion running = .ok right) :
    validateAppVersionCompatibilityWithRunning minimum running = .ok () ↔
      compareAppVersions left right ≠ .gt := by
  rw [validateAppVersionCompatibilityWithRunning, minimumParsed, runningParsed]
  by_cases greater : compareAppVersions left right = .gt <;> simp [greater]

/-! ### A total order -/

/-- The numbers of the release that a version is, or leads to. -/
def AppVersion.release (version : AppVersion) : Nat ×ₗ Nat ×ₗ Nat :=
  toLex (version.major, toLex (version.minor, version.patch))

/-- Where a version stands among those of its release: by channel, then as a text, with the
release itself above all. -/
def AppVersion.stage (version : AppVersion) : WithTop (Nat ×ₗ String) :=
  version.preRelease.map fun preRelease => toLex (prereleaseChannelRank preRelease, preRelease)

def compareReleases (left right : AppVersion) : Ordering :=
  (compare left.major right.major).then
    ((compare left.minor right.minor).then (compare left.patch right.patch))

def compareStages (left right : AppVersion) : Ordering :=
  match left.preRelease, right.preRelease with
  | none, none => .eq
  | none, some _ => .gt
  | some _, none => .lt
  | some left, some right =>
    (compare (prereleaseChannelRank left) (prereleaseChannelRank right)).then (compare left right)

theorem compareAppVersions_eq (left right : AppVersion) :
    compareAppVersions left right = (compareReleases left right).then (compareStages left right) := by
  rw [compareReleases, Ordering.then_assoc, Ordering.then_assoc]
  rfl

theorem compareReleases_compares (left right : AppVersion) :
    (compareReleases left right).Compares left.release right.release :=
  compares_then (compares_compare left.major right.major)
    (compares_then (compares_compare left.minor right.minor)
      (compares_compare left.patch right.patch))

theorem compareStages_compares (left right : AppVersion) :
    (compareStages left right).Compares left.stage right.stage := by
  unfold compareStages AppVersion.stage
  cases left.preRelease with
  | none =>
    cases right.preRelease with
    | none => exact rfl
    | some second => exact WithTop.coe_lt_top _
  | some first =>
    cases right.preRelease with
    | none => exact WithTop.coe_lt_top _
    | some second =>
      have compares := compares_then
        (compares_compare (prereleaseChannelRank first) (prereleaseChannelRank second))
        (compares_compare first second)
      revert compares
      dsimp only
      generalize (compare (prereleaseChannelRank first) _).then _ = order
      cases order
      · exact WithTop.coe_lt_coe.mpr
      · exact congrArg _
      · exact WithTop.coe_lt_coe.mpr

/-- A version is what stands at its place. -/
theorem place_injective : Function.Injective fun version : AppVersion =>
    (toLex (version.release, version.stage) : (Nat ×ₗ Nat ×ₗ Nat) ×ₗ WithTop (Nat ×ₗ String)) := by
  rintro ⟨major, minor, patch, preRelease⟩ ⟨major', minor', patch', preRelease'⟩ same
  obtain ⟨releases, stages⟩ := Prod.mk.inj (toLex.injective same)
  obtain ⟨rfl, rest⟩ := Prod.mk.inj (toLex.injective releases)
  obtain ⟨rfl, rfl⟩ := Prod.mk.inj (toLex.injective rest)
  have preReleases : preRelease = preRelease' :=
    map_injective (fun _ _ equal => (Prod.mk.inj (toLex.injective equal)).2) stages
  rw [preReleases]

theorem totalOrder_compareAppVersions : TotalOrder compareAppVersions :=
  totalOrder_of_key place_injective fun left right => by
    rw [compareAppVersions_eq]
    exact compares_then (compareReleases_compares left right) (compareStages_compares left right)

/-! ### Identifiers -/

def identifiers (preRelease : String) : List String := splitOn '.' preRelease

def channel (preRelease : String) : String := (identifiers preRelease).headD ""

def numeric (identifier : String) : Bool :=
  identifier ≠ "" && identifier.toList.all Char.isDigit

def numberOf (identifier : String) : Nat := number digitValue identifier.toList

/-- The precedence of identifiers: numbers are below texts, and each are in their own order. -/
def compareIdentifiers (left right : String) : Ordering :=
  match numeric left, numeric right with
  | true, true => compare (numberOf left) (numberOf right)
  | true, false => .lt
  | false, true => .gt
  | false, false => compare left right

/-- The precedence of pre-releases: by the first identifiers that differ, and then the shorter one
is below. -/
def precedence (lefts rights : List String) : Ordering :=
  List.compareLex compareIdentifiers lefts rights

theorem compareIdentifiers_self (identifier : String) :
    compareIdentifiers identifier identifier = .eq := by
  unfold compareIdentifiers
  cases numeric identifier <;> exact compare_eq_iff_eq.mpr rfl

variable {right left : String} {rights lefts : List String}

/-- What follows an identifier. -/
def following : List String → List Char
  | [] => []
  | identifier :: rest => '.' :: (identifier.toList ++ following rest)

theorem intercalate_identifiers (identifier : String) (rest : List String) :
    ['.'].intercalate ((identifier :: rest).map String.toList) =
      identifier.toList ++ following rest := by
  induction rest generalizing identifier with
  | nil => simp [following]
  | cons next rest ih =>
    rw [map_cons, map_cons, intercalate_cons_cons, ← map_cons,
      ih, following]
    simp

variable {rest : List String}

theorem toList_eq_identifiers {preRelease identifier : String}
    (parts : identifiers preRelease = identifier :: rest) :
    preRelease.toList = identifier.toList ++ following rest := by
  rw [← intercalate_identifiers, ← parts, identifiers, splitOn, List.map_map]
  have inverse : String.toList ∘ String.ofList = id := by
    funext chars
    exact String.toList_ofList
  rw [inverse, List.map_id, intercalate_splitOn]

theorem head_following {char : Char} (head : char ∈ (following rest).head?) : char = '.' := by
  cases rest with
  | nil => simp [following] at head
  | cons identifier rest =>
    simp only [following, head?_cons, mem_some_iff] at head
    exact head.symm

theorem following_identifiers (preRelease : String) :
    following (identifiers preRelease) = '.' :: preRelease.toList := by
  cases parts : identifiers preRelease with
  | nil =>
    rw [identifiers, splitOn, map_eq_nil_iff] at parts
    exact absurd parts (splitOnP_ne_nil _ _)
  | cons identifier rest => rw [following, toList_eq_identifiers parts]

/-! ### Pre-releases as texts -/

def ValidIdentifier (identifier : String) : Prop :=
  ∀ char ∈ identifier.toList, char.isAlphanum = true ∨ char = '-'

theorem dot_lt {char : Char} (valid : char.isAlphanum = true ∨ char = '-') (other : char ≠ '-') :
    '.' < char := by
  have above : char.isAlphanum = true := valid.resolve_right other
  simp only [Char.isAlphanum, Char.isAlpha, Char.isUpper, Char.isLower, Char.isDigit,
    Bool.or_eq_true, Bool.and_eq_true, decide_eq_true_eq, ge_iff_le, UInt32.le_iff_toNat_le]
    at above
  refine UInt32.lt_iff_toNat_lt.mpr ?_
  have dot : '.'.val.toNat = 46 := rfl
  have bounds : '0'.val.toNat = 48 ∧ 'A'.val.toNat = 65 ∧ 'a'.val.toNat = 97 := ⟨rfl, rfl, rfl⟩
  omega

theorem compares_append {order : Ordering} {lefts rights : List Char} (shared : List Char)
    (compares : order.Compares lefts rights) :
    order.Compares (shared ++ lefts) (shared ++ rights) := by
  induction shared with
  | nil => exact compares
  | cons char shared ih =>
    have unchanged := compares_cons (compares_compare char char) fun _ => ih
    rwa [compare_eq_iff_eq.mpr rfl] at unchanged

/-- What follows one identifier is below the rest of the other: that rest goes on with a hyphen,
and a hyphen is below the dot. -/
def Overhung (left : String) (lefts : List String) (right : String) : Prop :=
  lefts ≠ [] ∧ List.IsPrefix (left.toList ++ ['-']) right.toList

theorem overhung_lt (overhung : Overhung left lefts right) (rights : List String) :
    right.toList ++ following rights < left.toList ++ following lefts := by
  obtain ⟨more, rest, split⟩ := overhung
  rw [← split, List.append_assoc, List.append_assoc]
  cases lefts with
  | nil => exact absurd rfl more
  | cons identifier lefts =>
    exact List.Lex.append_left (· < ·) (List.Lex.rel (by decide)) left.toList

theorem append_lt {lefts rights rest rest' : List Char} (less : lefts < rights)
    (valid : ∀ char ∈ rights, char.isAlphanum = true ∨ char = '-')
    (ending : ∀ char ∈ rest.head?, char = '.' ∧ ¬ List.IsPrefix (lefts ++ ['-']) rights) :
    lefts ++ rest < rights ++ rest' := by
  induction less with
  | @nil char rights =>
    cases rest with
    | nil => exact List.Lex.nil
    | cons dot rest =>
      obtain ⟨rfl, notHyphen⟩ := ending _ rfl
      refine List.Lex.rel (dot_lt (valid char mem_cons_self) fun hyphen => notHyphen ?_)
      rw [hyphen]
      exact ⟨rights, rfl⟩
  | rel less => exact List.Lex.rel less
  | @cons char lefts rights less ih =>
    refine List.Lex.cons (ih
      (fun char member => valid char (mem_cons_of_mem _ member)) fun dot head => ?_)
    obtain ⟨isDot, notHyphen⟩ := ending dot head
    exact ⟨isDot, fun overhung => notHyphen (cons_prefix_cons.mpr ⟨rfl, overhung⟩)⟩

theorem identifiers_lt (less : left < right) (valid : ValidIdentifier right)
    (notOverhung : ¬ Overhung left lefts right) (rights : List String) :
    left.toList ++ following lefts < right.toList ++ following rights := by
  refine append_lt (String.lt_iff_toList_lt.mp less) valid fun char head => ?_
  refine ⟨head_following head, fun overhung => notOverhung ⟨?_, overhung⟩⟩
  rintro rfl
  cases head

/-- Identifiers that differ order two texts, whatever follows them, where none is overhung. -/
theorem identifiers_compares (different : left ≠ right) (leftValid : ValidIdentifier left)
    (rightValid : ValidIdentifier right) (leftClear : ¬ Overhung left lefts right)
    (rightClear : ¬ Overhung right rights left) :
    (compare left right).Compares (left.toList ++ following lefts)
      (right.toList ++ following rights) := by
  have compares := compares_compare left right
  cases order : compare left right <;> rw [order] at compares
  · exact identifiers_lt compares rightValid leftClear rights
  · exact absurd compares different
  · exact identifiers_lt compares leftValid rightClear lefts

theorem numerals_compares (leftNumeric : numeric left = true) (rightNumeric : numeric right = true)
    (different : left ≠ right) :
    (numeralOrder left.toList right.toList).Compares (left.toList ++ following lefts)
      (right.toList ++ following rights) := by
  simp only [numeric, Bool.and_eq_true, List.all_eq_true] at leftNumeric rightNumeric
  have ending : ∀ rest, ∀ char ∈ (following rest).head?, char < '0' := by
    intro rest char head
    rw [head_following head]
    decide
  exact numeralOrder_compares leftNumeric.2 rightNumeric.2 (ending lefts) (ending rights)
    fun equal => different (String.toList_injective equal)

theorem not_overhung_numeral (leftNumeric : numeric left = true) (right : String)
    (rights : List String) : ¬ Overhung right rights left := by
  rintro ⟨-, rest, split⟩
  simp only [numeric, Bool.and_eq_true, List.all_eq_true] at leftNumeric
  have hyphen : '-' ∈ left.toList := by
    rw [← split]
    simp
  have digit := leftNumeric.2 '-' hyphen
  revert digit
  decide

/-- Where the first identifiers that differ as texts put the texts in the order of precedence. Two
numerals do by as many leading digits as the shorter one has, and then by length; other identifiers
by their own order, if none is overhung. -/
def FirstInOrder (left : String) (lefts : List String) (right : String) (rights : List String) :
    Prop :=
  match numeric left, numeric right with
  | true, true =>
    precedence (left :: lefts) (right :: rights) = .eq ∨
      numeralOrder left.toList right.toList = precedence (left :: lefts) (right :: rights)
  | true, false => left < right ∧ ¬ Overhung left lefts right
  | false, true => right < left ∧ ¬ Overhung right rights left
  | false, false => ¬ Overhung left lefts right ∧ ¬ Overhung right rights left

/-- The first identifiers that differ as texts, if any do, are in the order of precedence. -/
def InOrder : List String → List String → Prop
  | left :: lefts, right :: rights =>
    (left = right → InOrder lefts rights) ∧ (left ≠ right → FirstInOrder left lefts right rights)
  | _, _ => True

theorem precedence_cons (left right : String) (lefts rights : List String) :
    precedence (left :: lefts) (right :: rights) =
      (compareIdentifiers left right).then (precedence lefts rights) :=
  List.compareLex_cons_cons

theorem compares_append_iff {order : Ordering} {lefts rights : List Char} (shared : List Char) :
    order.Compares (shared ++ lefts) (shared ++ rights) ↔ order.Compares lefts rights := by
  refine ⟨fun compares => ?_, compares_append shared⟩
  have rest := cmp_compares lefts rights
  rwa [compares.inj (compares_append shared rest)]

theorem compares_following {order : Ordering} :
    order.Compares (following (left :: lefts)) (following (right :: rights)) ↔
      order.Compares (left.toList ++ following lefts) (right.toList ++ following rights) :=
  compares_append_iff ['.']

theorem lt_of_overhung (overhung : Overhung left lefts right) : left < right := by
  obtain ⟨-, rest, split⟩ := overhung
  refine String.lt_iff_toList_lt.mpr ?_
  rw [← split, List.append_assoc]
  have shorter : left.toList ++ [] < left.toList ++ (['-'] ++ rest) :=
    List.Lex.append_left (· < ·) List.Lex.nil left.toList
  rwa [List.append_nil] at shorter

/-- Texts in the order of precedence. -/
def Agrees (lefts rights : List String) : Prop :=
  precedence lefts rights = .eq ∨
    (precedence lefts rights).Compares (following lefts) (following rights)

/-- A number stands before a text exactly if it is the lesser text and not overhung. -/
theorem numeral_lt_iff (leftNumeric : numeric left = true) (leftValid : ValidIdentifier left)
    (rightValid : ValidIdentifier right) (different : left ≠ right) :
    left.toList ++ following lefts < right.toList ++ following rights ↔
      left < right ∧ ¬ Overhung left lefts right := by
  constructor
  · intro less
    have clear : ¬ Overhung left lefts right := fun overhung =>
      lt_asymm less (overhung_lt overhung rights)
    have compares := identifiers_compares different leftValid rightValid clear
      (not_overhung_numeral leftNumeric right rights)
    exact ⟨compare_lt_iff_lt.mp (compares.inj (show Ordering.lt.Compares _ _ from less)), clear⟩
  · rintro ⟨less, clear⟩
    exact identifiers_lt less rightValid clear rights

theorem firstInOrder_iff (different : left ≠ right) (leftValid : ValidIdentifier left)
    (rightValid : ValidIdentifier right) :
    FirstInOrder left lefts right rights ↔ Agrees (left :: lefts) (right :: rights) := by
  unfold FirstInOrder Agrees
  rw [compares_following]
  cases leftNumeric : numeric left <;> cases rightNumeric : numeric right <;> dsimp only
  · have texts : precedence (left :: lefts) (right :: rights) = compare left right := by
      rw [precedence_cons, compareIdentifiers, leftNumeric, rightNumeric]
      cases order : compare left right
      · rfl
      · exact absurd (compare_eq_iff_eq.mp order) different
      · rfl
    rw [texts]
    constructor
    · rintro ⟨leftClear, rightClear⟩
      exact .inr (identifiers_compares different leftValid rightValid leftClear rightClear)
    · rintro (equal | agrees)
      · exact absurd (compare_eq_iff_eq.mp equal) different
      · refine ⟨fun overhung => ?_, fun overhung => ?_⟩
        · rw [compare_lt_iff_lt.mpr (lt_of_overhung overhung)] at agrees
          exact lt_asymm agrees (overhung_lt overhung rights)
        · rw [compare_gt_iff_gt.mpr (lt_of_overhung overhung)] at agrees
          exact lt_asymm agrees (overhung_lt overhung lefts)
  · have above : precedence (left :: lefts) (right :: rights) = .gt := by
      rw [precedence_cons, compareIdentifiers, leftNumeric, rightNumeric]
      rfl
    rw [above]
    exact ⟨fun order => .inr ((numeral_lt_iff rightNumeric rightValid leftValid
        different.symm).mpr order),
      fun order => (numeral_lt_iff rightNumeric rightValid leftValid different.symm).mp
        (order.resolve_left Ordering.noConfusion)⟩
  · have below : precedence (left :: lefts) (right :: rights) = .lt := by
      rw [precedence_cons, compareIdentifiers, leftNumeric, rightNumeric]
      rfl
    rw [below]
    exact ⟨fun order => .inr ((numeral_lt_iff leftNumeric leftValid rightValid
        different).mpr order),
      fun order => (numeral_lt_iff leftNumeric leftValid rightValid different).mp
        (order.resolve_left Ordering.noConfusion)⟩
  · have compares : (numeralOrder left.toList right.toList).Compares
        (left.toList ++ following lefts) (right.toList ++ following rights) :=
      numerals_compares leftNumeric rightNumeric different
    refine or_congr Iff.rfl ⟨fun order => ?_, fun order => compares.inj order⟩
    rwa [← order]

/-- Texts are in the order of precedence exactly if the first identifiers that differ are. -/
theorem inOrder_iff (leftValid : ∀ identifier ∈ lefts, ValidIdentifier identifier)
    (rightValid : ∀ identifier ∈ rights, ValidIdentifier identifier) :
    InOrder lefts rights ↔ Agrees lefts rights := by
  induction lefts generalizing rights with
  | nil =>
    cases rights with
    | nil => exact iff_of_true trivial (.inl rfl)
    | cons right rights => exact iff_of_true trivial (.inr List.Lex.nil)
  | cons left lefts ih =>
    cases rights with
    | nil => exact iff_of_true trivial (.inr List.Lex.nil)
    | cons right rights =>
      obtain ⟨leftHead, leftRest⟩ := forall_mem_cons.mp leftValid
      obtain ⟨rightHead, rightRest⟩ := forall_mem_cons.mp rightValid
      by_cases equal : left = right
      · subst equal
        have rest : Agrees (left :: lefts) (left :: rights) ↔ Agrees lefts rights := by
          rw [Agrees, Agrees, precedence_cons, compareIdentifiers_self, compares_following,
            compares_append_iff]
          exact Iff.rfl
        rw [rest, ← ih leftRest rightRest]
        exact ⟨fun inOrder => inOrder.1 rfl, fun inOrder => ⟨fun _ => inOrder,
          fun different => absurd rfl different⟩⟩
      · rw [← firstInOrder_iff equal leftHead rightHead]
        exact ⟨fun inOrder => inOrder.2 equal, fun inOrder => ⟨fun same => absurd same equal,
          fun _ => inOrder⟩⟩

/-! ### Precedence -/

/-- The pre-releases of two versions, if both lead to one release through one channel. -/
def SameChannel (left right : AppVersion) (first second : String) : Prop :=
  left.release = right.release ∧ left.preRelease = some first ∧
    right.preRelease = some second ∧ channel first = channel second

/-- Versions are compared by precedence: they are in a total order, that of the numbers of their
releases, with a pre-release below its release, and pre-releases of a channel in the order of their
identifiers, of which numeric ones are compared as numbers. An earlier pre-release of the channel
is not too new a minimum. -/
structure RespectsPrecedence (minimum running : String) (left right : AppVersion) : Prop where
  total : TotalOrder compareAppVersions
  numbers : left.release ≠ right.release →
    compareAppVersions left right = compare left.release right.release
  below_release : left.release = right.release →
    left.preRelease.isSome = true → right.preRelease = none → compareAppVersions left right = .lt
  above_preRelease : left.release = right.release →
    left.preRelease = none → right.preRelease.isSome = true → compareAppVersions left right = .gt
  identifierwise : ∀ first second, SameChannel left right first second →
    precedence (identifiers first) (identifiers second) ≠ .eq →
      compareAppVersions left right = precedence (identifiers first) (identifiers second)
  admitted : ∀ first second, SameChannel left right first second →
    precedence (identifiers first) (identifiers second) = .lt →
      validateAppVersionCompatibilityWithRunning minimum running = .ok ()

/-- Pre-releases of one channel are in order by the identifiers in which they first differ. -/
def PreReleasesInOrder (left right : AppVersion) : Prop :=
  ∀ first second, SameChannel left right first second →
    InOrder (identifiers first) (identifiers second)

theorem compareReleases_eq (left right : AppVersion) :
    compareReleases left right = compare left.release right.release :=
  (compareReleases_compares left right).inj (compares_compare _ _)

theorem compareAppVersions_of_release_eq {left right : AppVersion}
    (same : left.release = right.release) :
    compareAppVersions left right = compareStages left right := by
  rw [compareAppVersions_eq, compareReleases_eq, compare_eq_iff_eq.mpr same]
  rfl

theorem compareAppVersions_of_sameChannel {left right : AppVersion} {first second : String}
    (same : SameChannel left right first second) :
    compareAppVersions left right = compare first second := by
  obtain ⟨release, leftText, rightText, channels⟩ := same
  rw [compareAppVersions_of_release_eq release, compareStages, leftText, rightText]
  have ranks : prereleaseChannelRank first = prereleaseChannelRank second := by
    unfold prereleaseChannelRank
    rw [show (splitOn '.' first).headD "" = (splitOn '.' second).headD "" from channels]
  dsimp only
  rw [compare_eq_iff_eq.mpr ranks]
  rfl

theorem validIdentifier_of_parse {value preRelease : String} {version : AppVersion}
    (parsed : parseAppVersion value = .ok version) (some : version.preRelease = some preRelease) :
    ∀ identifier ∈ identifiers preRelease, ValidIdentifier identifier := by
  rcases parts : splitHyphen (trim value) with ⟨release, text⟩
  simp only [parseAppVersion, parts] at parsed
  by_cases missing : trim value = ""
  · rw [if_pos missing] at parsed
    cases parsed
  rw [if_neg missing] at parsed
  by_cases refused : (text.any fun text => release = "" || !validPreRelease text) = true
  · rw [if_pos refused] at parsed
    cases parsed
  rw [if_neg refused] at parsed
  split at parsed
  · cases parsed
    rw [show text = Option.some preRelease from some] at refused
    simp only [any_some, validPreRelease, Bool.or_eq_true, not_or, Bool.not_eq_true',
      Bool.not_eq_false, Bool.and_eq_true, List.all_eq_true, decide_eq_true_eq] at refused
    intro identifier member char inside
    exact (refused.2.2 identifier member).2 char inside
  · cases parsed

theorem agrees_iff (first second : String) :
    Agrees (identifiers first) (identifiers second) ↔
      precedence (identifiers first) (identifiers second) = .eq ∨
        compare first second = precedence (identifiers first) (identifiers second) := by
  rw [Agrees, following_identifiers, following_identifiers]
  have texts : (compare first second).Compares ('.' :: first.toList) ('.' :: second.toList) := by
    refine compares_append ['.'] ?_
    have compares := compares_compare first second
    cases order : compare first second <;> rw [order] at compares
    · exact String.lt_iff_toList_lt.mp compares
    · exact congrArg String.toList compares
    · exact String.lt_iff_toList_lt.mp compares
  exact or_congr Iff.rfl ⟨fun agrees => texts.inj agrees, fun order => order ▸ texts⟩

/-- Precedence is respected exactly where the pre-releases are in order by the identifiers in
which they first differ. -/
theorem respectsPrecedence_iff (minimum running : String) (left right : AppVersion)
    (minimumParsed : parseAppVersion minimum = .ok left)
    (runningParsed : parseAppVersion running = .ok right) :
    RespectsPrecedence minimum running left right ↔ PreReleasesInOrder left right := by
  have agrees : ∀ {first second : String}, SameChannel left right first second →
      (InOrder (identifiers first) (identifiers second) ↔
        precedence (identifiers first) (identifiers second) = .eq ∨
          compareAppVersions left right =
            precedence (identifiers first) (identifiers second)) := by
    intro first second same
    rw [compareAppVersions_of_sameChannel same, ← agrees_iff]
    exact inOrder_iff (validIdentifier_of_parse minimumParsed same.2.1)
      (validIdentifier_of_parse runningParsed same.2.2.1)
  constructor
  · intro respects first second same
    rw [agrees same]
    by_cases equal : precedence (identifiers first) (identifiers second) = .eq
    · exact .inl equal
    · exact .inr (respects.identifierwise first second same equal)
  · intro inOrder
    have compared : ∀ first second, SameChannel left right first second →
        precedence (identifiers first) (identifiers second) ≠ .eq →
        compareAppVersions left right =
          precedence (identifiers first) (identifiers second) :=
      fun first second same different =>
        ((agrees same).mp (inOrder first second same)).resolve_left different
    refine ⟨totalOrder_compareAppVersions, ?_, ?_, ?_, compared, ?_⟩
    · intro different
      have order := mt compare_eq_iff_eq.mp different
      rw [compareAppVersions_eq, compareReleases_eq]
      cases compared : compare left.release right.release
      · rfl
      · exact absurd compared order
      · rfl
    · intro same some none
      obtain ⟨text, preRelease⟩ := isSome_iff_exists.mp some
      rw [compareAppVersions_of_release_eq same, compareStages, preRelease, none]
    · intro same none some
      obtain ⟨text, preRelease⟩ := isSome_iff_exists.mp some
      rw [compareAppVersions_of_release_eq same, compareStages, preRelease, none]
    · intro first second same earlier
      have different : precedence (identifiers first) (identifiers second) ≠ .eq := by
        rw [earlier]
        exact Ordering.noConfusion
      rw [withRunning_eq_ok_iff minimumParsed runningParsed,
        compared first second same different, earlier]
      exact Ordering.noConfusion

def betaVersion (preRelease : String) : AppVersion :=
  { major := 1, minor := 0, patch := 0, preRelease := some preRelease }

theorem respectsPrecedence_iff_beta :
    RespectsPrecedence "1.0.0-beta.2.fix" "1.0.0-beta.20" (betaVersion "beta.2.fix")
      (betaVersion "beta.20") := by
  refine (respectsPrecedence_iff "1.0.0-beta.2.fix" "1.0.0-beta.20" (betaVersion "beta.2.fix")
    (betaVersion "beta.20") (by rfl) (by rfl)).mpr ?_
  rintro first second ⟨-, firstText, secondText, -⟩
  obtain rfl := Option.some.inj firstText
  obtain rfl := Option.some.inj secondText
  have numerals : FirstInOrder "2" ["fix"] "20" [] :=
    .inr (show numeralOrder "2".toList "20".toList = precedence ["2", "fix"] ["20"] by decide)
  exact ⟨fun _ => ⟨fun equal => absurd equal (by decide), fun _ => numerals⟩,
    fun different => absurd rfl different⟩

/-- The second beta is refused as too new a minimum for the tenth. -/
theorem tenth_below_second :
    parseAppVersion "1.0.0-beta.2" = .ok (betaVersion "beta.2") ∧
      parseAppVersion "1.0.0-beta.10" = .ok (betaVersion "beta.10") ∧
      validateAppVersionCompatibilityWithRunning "1.0.0-beta.2" "1.0.0-beta.10" =
        .error (.unsupportedAppVersion "1.0.0-beta.2" "1.0.0-beta.10") ∧
      ¬ RespectsPrecedence "1.0.0-beta.2" "1.0.0-beta.10" (betaVersion "beta.2")
        (betaVersion "beta.10") := by
  have refused : validateAppVersionCompatibilityWithRunning "1.0.0-beta.2" "1.0.0-beta.10" =
      .error (.unsupportedAppVersion "1.0.0-beta.2" "1.0.0-beta.10") := by rfl
  refine ⟨by rfl, by rfl, refused, fun respects => ?_⟩
  have admitted := respects.admitted "beta.2" "beta.10" ⟨rfl, rfl, rfl, by decide⟩ (by decide)
  rw [refused] at admitted
  cases admitted

end Axial.Performance
