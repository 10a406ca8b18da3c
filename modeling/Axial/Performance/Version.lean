/-
This file models the versions that performance rules speak of: Minecraft versions
and ranges of them (`core/performance/src/resolve/version.rs`), and the version of
the launcher that a manifest asks for (`resolve/app_version.rs`). What the standard
library and the regular expressions know of Unicode is a parameter.
-/

import Axial.Minecraft.LoaderIdentity

namespace Axial.Performance

open Axial.Fs (eqIgnoreAsciiCase)
open Axial.Minecraft (isWhitespace trim)

/-- `str::to_lowercase` and the class `\d`. Texts that differ in the case of ASCII letters only
have the same lower case. -/
structure UnicodeTables where
  toLowercase : String → String
  isDecimal : Char → Bool
  toLowercase_ascii : ∀ first second : String,
    eqIgnoreAsciiCase first.toList second.toList = true → toLowercase first = toLowercase second
  isDecimal_digit : ∀ char : Char, char.isDigit = true → isDecimal char = true
  isDecimal_alpha : ∀ char : Char, char.isAlpha = true → isDecimal char = false

/-- `char::is_control`. -/
abbrev isControl := Axial.Fs.isControl

/-- The parts of a text between separators. -/
def splitOn (separator : Char) (value : String) : List String :=
  (value.toList.splitOn separator).map String.ofList

/-- The value of a text of ASCII digits that is below a bound. -/
def parseDecimal (bound : Nat) (digits : String) : Option Nat :=
  if digits ≠ "" ∧ digits.toList.all Char.isDigit = true then
    let value := digits.toList.foldl
      (fun value digit => 10 * value + (digit.toNat - '0'.toNat)) 0
    if value < bound then some value else none
  else none

/-! ### Minecraft versions -/

structure MCVersion where
  major : Nat
  minor : Nat
  patch : Nat
  isSnapshot : Bool
  raw : String

variable (tables : UnicodeTables)

def allDecimal (value : String) : Bool := value ≠ "" && value.toList.all tables.isDecimal

/-- `^\d+w\d+[a-z]$`. -/
def snapshotPattern (value : String) : Bool :=
  match value.toList.dropWhile tables.isDecimal with
  | 'w' :: rest =>
    match rest.dropWhile tables.isDecimal with
    | [letter] =>
      'a' ≤ letter && letter ≤ 'z' && value.toList.head?.any tables.isDecimal &&
        rest.head?.any tables.isDecimal
    | _ => false
  | _ => false

/-- The groups of `^(\d+)\.(\d+)(?:\.(\d+))?$`. -/
def releasePattern (value : String) : Option (String × String × Option String) :=
  match splitOn '.' value with
  | [major, minor] =>
    if allDecimal tables major && allDecimal tables minor then some (major, minor, none) else none
  | [major, minor, patch] =>
    if allDecimal tables major && allDecimal tables minor && allDecimal tables patch then
      some (major, minor, some patch)
    else none
  | _ => none

/-- `parse::<i32>`, of digits. -/
def parseI32 (digits : String) : Option Nat := parseDecimal (2 ^ 31) digits

def parseVersion (value : String) : Option MCVersion :=
  let trimmed := trim value
  if trimmed = "" then none
  else if snapshotPattern tables (tables.toLowercase trimmed) then
    some { major := 0, minor := 0, patch := 0, isSnapshot := true, raw := trimmed }
  else do
    let (major, minor, patch) ← releasePattern tables trimmed
    let major ← parseI32 major
    let minor ← parseI32 minor
    return { major, minor, patch := (patch.bind parseI32).getD 0, isSnapshot := false
             raw := trimmed }

def compareVersions (left right : MCVersion) : Ordering :=
  match left.isSnapshot, right.isSnapshot with
  | true, false => .gt
  | false, true => .lt
  | true, true => compare (tables.toLowercase left.raw) (tables.toLowercase right.raw)
  | false, false =>
    (compare left.major right.major).then
      ((compare left.minor right.minor).then (compare left.patch right.patch))

def compareReleaseVersion (version : MCVersion) (major minor patch : Nat) : Ordering :=
  compareVersions tables version { major, minor, patch, isSnapshot := false, raw := "" }

/-! ### Ranges -/

inductive RangeOperator where
  | greaterEqual
  | lessEqual
  | greater
  | less
  | equal

def RangeOperator.holds : RangeOperator → Ordering → Bool
  | .greater, order => order = .gt
  | .greaterEqual, order => order ≠ .lt
  | .less, order => order = .lt
  | .lessEqual, order => order ≠ .gt
  | .equal, order => order = .eq

def splitRangeCondition (condition : String) : RangeOperator × String :=
  match condition.toList with
  | '>' :: '=' :: rest => (.greaterEqual, trim (String.ofList rest))
  | '<' :: '=' :: rest => (.lessEqual, trim (String.ofList rest))
  | '>' :: rest => (.greater, trim (String.ofList rest))
  | '<' :: rest => (.less, trim (String.ofList rest))
  | '=' :: rest => (.equal, trim (String.ofList rest))
  | _ => (.equal, condition)

def splitWhitespace (value : String) : List String :=
  ((value.toList.splitOnP isWhitespace).filter (· ≠ [])).map String.ofList

def versionInRange (version : MCVersion) (range : String) : Bool :=
  (splitWhitespace (trim range)).all fun condition =>
    let (operator, rawTarget) := splitRangeCondition condition
    (parseVersion tables rawTarget).any fun target =>
      operator.holds (compareVersions tables version target)

/-! ### Launcher versions -/

structure AppVersion where
  major : Nat
  minor : Nat
  patch : Nat
  preRelease : Option String

/-- What `parse_app_version` refuses. -/
inductive AppVersionError where
  | missing
  | invalid (trimmed : String)

def validPreRelease (value : String) : Bool :=
  value ≠ "" && (splitOn '.' value).all fun part =>
    part ≠ "" && part.toList.all fun char => char.isAlphanum || char = '-'

/-- The text before the first hyphen and the text after it. -/
def splitHyphen (value : String) : String × Option String :=
  match value.toList.dropWhile (· ≠ '-') with
  | [] => (value, none)
  | _ :: rest => (String.ofList (value.toList.takeWhile (· ≠ '-')), some (String.ofList rest))

def parseAppVersion (value : String) : Except AppVersionError AppVersion :=
  let trimmed := trim value
  let (release, preRelease) := splitHyphen trimmed
  if trimmed = "" then .error .missing
  else if preRelease.any fun text => release = "" || !validPreRelease text then
    .error (.invalid trimmed)
  else
    match (splitOn '.' release).map (parseDecimal (2 ^ 64)) with
    | [some major, some minor, some patch] => .ok { major, minor, patch, preRelease }
    | _ => .error (.invalid trimmed)

def prereleaseChannelRank (preRelease : String) : Nat :=
  match (splitOn '.' preRelease).headD "" with
  | "dev" => 0
  | "alpha" => 1
  | "beta" => 2
  | "rc" => 3
  | _ => 0

def compareAppVersions (left right : AppVersion) : Ordering :=
  (compare left.major right.major).then ((compare left.minor right.minor).then
    ((compare left.patch right.patch).then
      (match left.preRelease, right.preRelease with
      | none, none => .eq
      | none, some _ => .gt
      | some _, none => .lt
      | some left, some right =>
        (compare (prereleaseChannelRank left) (prereleaseChannelRank right)).then
          (compare left right))))

end Axial.Performance
