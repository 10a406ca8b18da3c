/-
This file proves in which order performance rules take the releases of the game: in
that of the numbers they are written with, for ranges (`version_in_range`) and for
families (`classify_version`). A major or minor number that is out of the range of the
code's integers makes a text no version; a patch number that is out of range, or not in
ASCII digits, makes it another version, the one whose patch is zero.
-/

import Axial.Library.Comparison
import Axial.Performance.Disables
import Mathlib.Order.WithBot
import Mathlib.Tactic.Order

namespace Axial.Performance

open Reader Option

open Axial.Comparison
open Axial.Minecraft (trim)

variable {tables : UnicodeTables}

/-! ### The order of versions -/

/-- Major, minor and patch. -/
abbrev Triple := Nat ×ₗ Nat ×ₗ Nat

def triple (major minor patch : Nat) : Triple := toLex (major, toLex (minor, patch))

/-- Where a version stands. Every snapshot is above every release. -/
def MCVersion.position (version : MCVersion) : WithTop Triple :=
  if version.isSnapshot then ⊤ else ↑(triple version.major version.minor version.patch)

/-- What a condition asks of a place in an order. -/
def RangeOperator.asks {Place : Type} [LinearOrder Place] (place target : Place) :
    RangeOperator → Prop
  | .greater => target < place
  | .greaterEqual => target ≤ place
  | .less => place < target
  | .lessEqual => place ≤ target
  | .equal => place = target

theorem RangeOperator.holds_iff {Place : Type} [LinearOrder Place] {place target : Place}
    {order : Ordering} (compares : order.Compares place target) (operator : RangeOperator) :
    operator.holds order = true ↔ operator.asks place target := by
  cases operator <;> simp only [holds, asks, decide_eq_true_eq]
  case greater => exact compares.eq_gt
  case greaterEqual => exact compares.ne_lt
  case less => exact compares.eq_lt
  case lessEqual => exact compares.ne_gt
  case equal => exact compares.eq_eq

/-- A release is compared with any version by where the two stand. -/
theorem compareVersions_compares (tables : UnicodeTables) {left : MCVersion} (right : MCVersion)
    (release : left.isSnapshot = false) :
    (compareVersions tables left right).Compares left.position right.position := by
  cases snapshot : right.isSnapshot
  · simp only [compareVersions, MCVersion.position, release, snapshot, Bool.false_eq_true,
      if_false]
    have compares := compares_then (compares_compare left.major right.major)
      (compares_then (compares_compare left.minor right.minor)
        (compares_compare left.patch right.patch))
    revert compares
    generalize (compare left.major right.major).then _ = order
    cases order
    · exact WithTop.coe_lt_coe.mpr
    · exact congrArg _
    · exact WithTop.coe_lt_coe.mpr
  · simp only [compareVersions, MCVersion.position, release, snapshot, if_true,
      Bool.false_eq_true, if_false]
    exact WithTop.coe_lt_top _

/-! ### What a text denotes -/

/-- What a decimal digit of any script stands for. -/
structure DecimalDigits where
  value : Char → Nat
  value_digit : ∀ digit : Char, digit.isDigit = true → value digit = digitValue digit

def DecimalDigits.read (digits : DecimalDigits) (text : String) : Nat :=
  number digits.value text.toList

/-- Where the version that a text is written as stands, its numbers being natural numbers. -/
def denoted (tables : UnicodeTables) (digits : DecimalDigits) (value : String) :
    Option (WithTop Triple) :=
  if snapshotPattern tables (tables.toLowercase (trim value)) then some ⊤
  else (releasePattern tables (trim value)).map fun (major, minor, patch) =>
    ↑(triple (digits.read major) (digits.read minor) ((patch.map digits.read).getD 0))

/-- A range as a condition on places. -/
def Within (tables : UnicodeTables) (digits : DecimalDigits) (range : String)
    (place : WithTop Triple) : Prop :=
  ∀ condition ∈ splitWhitespace (trim range), ∃ target,
    denoted tables digits (splitRangeCondition condition).2 = some target ∧
      (splitRangeCondition condition).1.asks place target

def IsRelease (tables : UnicodeTables) (value : String) : Prop :=
  ∃ version, parseVersion tables value = some version ∧ version.isSnapshot = false

/-- The text is taken for the version it is written as. -/
def ReadAsWritten (tables : UnicodeTables) (digits : DecimalDigits) (value : String) : Prop :=
  (parseVersion tables value).map MCVersion.position = denoted tables digits value

/-- The patch, if the text is written as a release that has one, is in ASCII digits and in the
range of the code's integers, or else it stands for zero. -/
def PatchFits (tables : UnicodeTables) (digits : DecimalDigits) (value : String) : Prop :=
  snapshotPattern tables (tables.toLowercase (trim value)) = false →
    ∀ major minor patch, releasePattern tables (trim value) = some (major, minor, some patch) →
      patch.toList.all Char.isDigit = true ∧ digits.read patch < 2 ^ 31 ∨ digits.read patch = 0

variable {text : String}

theorem parseI32_eq_some {value : Nat} :
    parseI32 text = some value ↔ text ≠ "" ∧ text.toList.all Char.isDigit = true ∧
      number digitValue text.toList = value ∧ value < 2 ^ 31 := by
  have reads : text.toList.foldl (fun value digit => 10 * value + (digit.toNat - '0'.toNat)) 0 =
      number digitValue text.toList := rfl
  simp only [parseI32, parseDecimal, reads]
  split
  case isTrue decimal =>
    rw [ite_none_right_eq_some, some_inj]
    constructor
    · rintro ⟨bound, rfl⟩
      exact ⟨decimal.1, decimal.2, rfl, bound⟩
    · rintro ⟨-, -, rfl, bound⟩
      exact ⟨bound, rfl⟩
  case isFalse other =>
    exact ⟨nofun, fun ⟨nonempty, decimal, _⟩ => absurd ⟨nonempty, decimal⟩ other⟩

variable {digits : DecimalDigits}

/-- ASCII digits stand for the same in every reading. -/
theorem DecimalDigits.read_eq (decimal : text.toList.all Char.isDigit = true) :
    digits.read text = number digitValue text.toList :=
  number_congr fun digit member => digits.value_digit digit (List.all_eq_true.mp decimal _ member)

theorem read_of_parseI32 {value : Nat} (parsed : parseI32 text = some value) :
    digits.read text = value := by
  obtain ⟨-, decimal, rfl, -⟩ := parseI32_eq_some.mp parsed
  exact digits.read_eq decimal

theorem getD_parseI32_iff (digits : DecimalDigits) (nonempty : text ≠ "") :
    (parseI32 text).getD 0 = digits.read text ↔
      text.toList.all Char.isDigit = true ∧ digits.read text < 2 ^ 31 ∨ digits.read text = 0 := by
  cases parsed : parseI32 text with
  | some value =>
    have reads : digits.read text = value := read_of_parseI32 parsed
    obtain ⟨-, decimal, -, bound⟩ := parseI32_eq_some.mp parsed
    exact iff_of_true reads.symm (.inl ⟨decimal, by omega⟩)
  | none =>
    refine ⟨fun zero => .inr zero.symm, fun fits => ?_⟩
    rcases fits with ⟨decimal, bound⟩ | zero
    · have some := parseI32_eq_some.mpr ⟨nonempty, decimal, rfl, digits.read_eq decimal ▸ bound⟩
      rw [parsed] at some
      nomatch some
    · exact zero.symm

variable {value : String}

theorem patch_ne_empty {major minor patch : String}
    (groups : releasePattern tables value = some (major, minor, some patch)) : patch ≠ "" := by
  unfold releasePattern at groups
  split at groups
  · split at groups <;> simp at groups
  · split at groups
    · rename_i decimal
      simp only [Option.some.injEq, Prod.mk.injEq] at groups
      obtain ⟨-, -, rfl⟩ := groups
      simp only [allDecimal, Bool.and_eq_true, decide_eq_true_eq] at decimal
      exact decimal.2.1
    · cases groups
  · cases groups

variable {version : MCVersion}

/-- What a text that is no snapshot is read as. -/
theorem exists_groups_of_parseVersion (parsed : parseVersion tables value = some version)
    (release : snapshotPattern tables (tables.toLowercase (trim value)) = false) :
    ∃ major minor patch, releasePattern tables (trim value) = some (major, minor, patch) ∧
      parseI32 major = some version.major ∧ parseI32 minor = some version.minor ∧
      version.patch = (patch.bind parseI32).getD 0 ∧ version.isSnapshot = false := by
  simp only [parseVersion, release, Bool.false_eq_true, if_false, ite_none_left_eq_some,
    bind_eq_some, pure_eq_some] at parsed
  obtain ⟨-, ⟨major, minor, patch⟩, groups, first, firstRead, second, secondRead, rfl⟩ := parsed
  exact ⟨major, minor, patch, groups, firstRead, secondRead, rfl, rfl⟩

theorem isSnapshot_of_parseVersion (parsed : parseVersion tables value = some version)
    (snapshot : snapshotPattern tables (tables.toLowercase (trim value)) = true) :
    version.isSnapshot = true := by
  simp only [parseVersion, snapshot, if_true, ite_none_left_eq_some,
    Option.some.injEq] at parsed
  obtain ⟨-, rfl⟩ := parsed
  rfl

/-- A version is taken for what it is written as exactly if its patch fits. -/
theorem readAsWritten_iff {digits : DecimalDigits} {value : String}
    (accepted : (parseVersion tables value).isSome = true) :
    ReadAsWritten tables digits value ↔ PatchFits tables digits value := by
  obtain ⟨version, parsed⟩ := isSome_iff_exists.mp accepted
  unfold ReadAsWritten PatchFits denoted
  rw [parsed, map_some, MCVersion.position]
  cases kind : snapshotPattern tables (tables.toLowercase (trim value))
  · obtain ⟨major, minor, patch, groups, majorRead, minorRead, patchRead, release⟩ :=
      exists_groups_of_parseVersion parsed kind
    have majorReads : digits.read major = version.major := read_of_parseI32 majorRead
    have minorReads : digits.read minor = version.minor := read_of_parseI32 minorRead
    cases patch with
    | none => simp [groups, release, majorReads, minorReads, patchRead]
    | some patch =>
      have fits := getD_parseI32_iff digits (patch_ne_empty groups)
      simpa [groups, release, majorReads, minorReads, patchRead, triple] using fits
  · rw [isSnapshot_of_parseVersion parsed kind]
    simp

/-! ### Ranges -/

/-- The versions that a range names. -/
def targets (range : String) : List String :=
  (splitWhitespace (trim range)).map fun condition => (splitRangeCondition condition).2

variable {range : String}

theorem forall_targets {holds : String → Prop} :
    (∀ target ∈ targets range, holds target) ↔
      ∀ condition ∈ splitWhitespace (trim range), holds (splitRangeCondition condition).2 := by
  simp [targets]

theorem isSome_of_validate {managedMod : ManagedMod}
    (accepted : validateManagedModVersionRange tables managedMod = .ok ()) :
    ∀ target ∈ targets managedMod.versionRange, (parseVersion tables target).isSome = true := by
  rw [forall_targets]
  intro condition member
  have checked := Fallible.forM_eq_ok.mp accepted condition member
  by_contra missing
  rw [if_pos (by simpa using missing)] at checked
  cases checked

theorem versionInRange_iff (release : version.isSnapshot = false)
    (read : ∀ target ∈ targets range, ReadAsWritten tables digits target) :
    versionInRange tables version range = true ↔ Within tables digits range version.position := by
  rw [forall_targets] at read
  unfold versionInRange Within
  rw [List.all_eq_true]
  refine forall₂_congr fun condition member => ?_
  rw [← read condition member]
  cases parsed : parseVersion tables (splitRangeCondition condition).2 with
  | none => simp [parsed]
  | some target =>
    have holds := RangeOperator.holds_iff (compareVersions_compares tables target release)
      (splitRangeCondition condition).1
    simpa [parsed] using holds

/-! ### Families -/

def VersionFamily.rank : VersionFamily → Nat
  | .A => 0
  | .B => 1
  | .C => 2
  | .D => 3
  | .E => 4
  | .F => 5

/-- The family of the releases at a place. -/
def familyAt (place : WithTop Triple) : VersionFamily :=
  if place < triple 1 6 0 then .A
  else if place ≤ triple 1 7 10 then .B
  else if place ≤ triple 1 12 2 then .C
  else if place ≤ triple 1 15 2 then .D
  else if place ≤ triple 1 20 1 then .E
  else .F

theorem familyAt_mono {place other : WithTop Triple} (le : place ≤ other) :
    (familyAt place).rank ≤ (familyAt other).rank := by
  unfold familyAt
  split_ifs <;> first | (simp only [VersionFamily.rank]; omega) | (exfalso; order)

theorem compareReleaseVersion_compares (tables : UnicodeTables)
    (release : version.isSnapshot = false) (major minor patch : Nat) :
    (compareReleaseVersion tables version major minor patch).Compares version.position
      ↑(triple major minor patch) :=
  compareVersions_compares tables _ release

theorem classifyVersion_eq (parsed : parseVersion tables value = some version)
    (release : version.isSnapshot = false) :
    classifyVersion tables value = familyAt version.position := by
  have compares := compareReleaseVersion_compares tables release
  simp only [classifyVersion, parsed, release, Bool.false_eq_true, if_false, familyAt,
    (compares _ _ _).eq_lt, (compares _ _ _).ne_gt]

/-! ### The order of the numbers -/

/-- Selection follows the numbers that the versions and the range are written with: none is taken
for another, the range holds the versions that all its conditions hold of, and the later of two
versions is not in the earlier family. -/
structure FollowsNumbers (tables : UnicodeTables) (digits : DecimalDigits)
    (version other range : String) : Prop where
  version_read : ReadAsWritten tables digits version
  other_read : ReadAsWritten tables digits other
  targets_read : ∀ target ∈ targets range, ReadAsWritten tables digits target
  in_range : ∀ parsed place, parseVersion tables version = some parsed →
    denoted tables digits version = some place →
      (versionInRange tables parsed range = true ↔ Within tables digits range place)
  family : ∀ place otherPlace, denoted tables digits version = some place →
    denoted tables digits other = some otherPlace → place ≤ otherPlace →
      (classifyVersion tables version).rank ≤ (classifyVersion tables other).rank

theorem followsNumbers_of_read {version other : String} (versionRelease : IsRelease tables version)
    (otherRelease : IsRelease tables other) (versionRead : ReadAsWritten tables digits version)
    (otherRead : ReadAsWritten tables digits other)
    (targetsRead : ∀ target ∈ targets range, ReadAsWritten tables digits target) :
    FollowsNumbers tables digits version other range := by
  obtain ⟨parsed, versionParsed, release⟩ := versionRelease
  obtain ⟨otherVersion, otherParsed, otherKind⟩ := otherRelease
  have versionAt : denoted tables digits version = some parsed.position := by
    rw [← versionRead, versionParsed, map_some]
  have otherAt : denoted tables digits other = some otherVersion.position := by
    rw [← otherRead, otherParsed, map_some]
  refine ⟨versionRead, otherRead, targetsRead, ?_, ?_⟩
  · intro version place same stands
    rw [versionParsed, Option.some.injEq] at same
    rw [versionAt, Option.some.injEq] at stands
    rw [← same, ← stands]
    exact versionInRange_iff release targetsRead
  · intro place otherPlace stands otherStands le
    rw [versionAt, Option.some.injEq] at stands
    rw [otherAt, Option.some.injEq] at otherStands
    rw [classifyVersion_eq versionParsed release, classifyVersion_eq otherParsed otherKind,
      stands, otherStands]
    exact familyAt_mono le

/-- Selection follows the numbers exactly where every patch that is written fits. -/
theorem followsNumbers_iff (digits : DecimalDigits) (version other : String)
    (managedMod : ManagedMod) (versionRelease : IsRelease tables version)
    (otherRelease : IsRelease tables other)
    (accepted : validateManagedModVersionRange tables managedMod = .ok ()) :
    FollowsNumbers tables digits version other managedMod.versionRange ↔
      PatchFits tables digits version ∧ PatchFits tables digits other ∧
        ∀ target ∈ targets managedMod.versionRange, PatchFits tables digits target := by
  have versionRead := @readAsWritten_iff _ digits _
    (isSome_iff_exists.mpr ⟨_, versionRelease.choose_spec.1⟩)
  have otherRead := @readAsWritten_iff _ digits _
    (isSome_iff_exists.mpr ⟨_, otherRelease.choose_spec.1⟩)
  have targetsRead : ∀ target ∈ targets managedMod.versionRange,
      (ReadAsWritten tables digits target ↔ PatchFits tables digits target) :=
    fun target member => readAsWritten_iff (isSome_of_validate accepted target member)
  rw [← versionRead, ← otherRead, ← forall₂_congr targetsRead]
  constructor
  · intro follows
    exact ⟨follows.version_read, follows.other_read, follows.targets_read⟩
  · rintro ⟨first, second, third⟩
    exact followsNumbers_of_read versionRelease otherRelease first second third

/-! ### A patch out of range -/

def asciiDigits : DecimalDigits where
  value := digitValue
  value_digit _ _ := rfl

/-- A mod for the releases from 1.20.2 on, below 1.21. -/
def lateSodium : ManagedMod := { sodiumMod "sodium" with versionRange := ">=1.20.2 <1.21" }

theorem isRelease_of_decide
    (release : ((parseVersion latinTables value).map MCVersion.isSnapshot) = some false) :
    IsRelease latinTables value := by
  obtain ⟨version, parsed, kind⟩ := map_eq_some_iff.mp release
  exact ⟨version, parsed, kind⟩

theorem followsNumbers_iff_sodium :
    FollowsNumbers latinTables asciiDigits "1.20.2" "1.20.4" lateSodium.versionRange ↔
      PatchFits latinTables asciiDigits "1.20.2" ∧ PatchFits latinTables asciiDigits "1.20.4" ∧
        ∀ target ∈ targets lateSodium.versionRange, PatchFits latinTables asciiDigits target :=
  followsNumbers_iff asciiDigits "1.20.2" "1.20.4" lateSodium
    (isRelease_of_decide (by decide)) (isRelease_of_decide (by decide))
    (by decide)

/-- The release with patch 2^31 is taken for 1.20.0: it is out of a range whose conditions it
meets, and in an earlier family than 1.20.2. -/
theorem patch_replaced :
    IsRelease latinTables "1.20.2" ∧ IsRelease latinTables "1.20.2147483648" ∧
      validateManagedModVersionRange latinTables lateSodium = .ok () ∧
      (parseVersion latinTables "1.20.2147483648").map
        (fun version => versionInRange latinTables version lateSodium.versionRange) =
          some false ∧
      (classifyVersion latinTables "1.20.2", classifyVersion latinTables "1.20.2147483648") =
        (.F, .E) ∧
      ¬ FollowsNumbers latinTables asciiDigits "1.20.2" "1.20.2147483648"
        lateSodium.versionRange := by
  refine ⟨isRelease_of_decide (by decide), isRelease_of_decide (by decide),
    by decide, by decide, by decide, fun follows => ?_⟩
  have families := follows.family ↑(triple 1 20 2) ↑(triple 1 20 2147483648) (by decide)
    (by decide) (WithTop.coe_le_coe.mpr (by decide))
  exact absurd families (by decide)

end Axial.Performance
