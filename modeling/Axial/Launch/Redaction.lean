/-
This file embeds the redactor of launch output. A complete line is withheld if it holds a secret
or looks sensitive; otherwise it is published with its white space squeezed and cut to a number
of characters. The checks are made on the line and not on what is published: the file says
exactly for which of the lines that pass them the published text would pass them again.
-/

import Axial.Library.Words
import Axial.Minecraft.LoaderIdentity

namespace Axial.Launch

open Bytes Words Axial.Fs Axial.Minecraft List

/-! ### What looks sensitive -/

def pathPhrases : List String :=
  ["appdata", "/private/", "://", "setting user:", "uuid of player", "/home/", "/users/", "/var/",
    "/tmp/", "/opt/", "/usr/", "/etc/", "/library/", "/applications/", "/mnt/", "/volumes/", "~/",
    "\\users\\", "\\appdata\\"]

def filePhrases : List String :=
  [".minecraft", ".jar", ".exe", ".dll", ".dylib", ".so"]

def optionPhrases : List String :=
  ["-xmx", "-xms", "-xx:", " -d", "--access", "--username", "--uuid", "--xuid",
    "--user_properties", "--", "-x", "--classpath", " -cp ", " -classpath "]

def credentialPhrases : List String :=
  ["token", "secret", "password", "provider_payload", "account_id", "username=", "xuid=",
    "authorization", "credential", "bearer "]

/-- `str::contains` -/
def contains (text pattern : List Char) : Bool := decide (pattern <:+: text)

/-- `contains_windows_drive_path`; its bytes are characters of ASCII. -/
def containsWindowsDrivePath (value : List Char) : Bool :=
  value.tails.any fun
    | letter :: colon :: slash :: _ =>
      letter.isAlpha && colon = ':' && (slash = '\\' || slash = '/')
    | _ => false

def secretChar (char : Char) : Bool := char.isAlphanum || char = '-' || char = '_'

def jwtToken (token : List Char) : Bool :=
  let tokenChar := fun char : Char => secretChar char || char = '.'
  let trimmed := (token.dropWhile fun char => !tokenChar char).rdropWhile fun char =>
    !tokenChar char
  let parts := trimmed.splitOn '.'
  3 ≤ parts.length && (parts.take 3).all fun part => 12 ≤ part.length && part.all secretChar

def looksLikeJwt (value : List Char) : Bool := (words isWhitespace value).any jwtToken

def secretLikeRun (part : List Char) : Bool :=
  48 ≤ part.length && part.any Char.isAlpha && part.any Char.isDigit

def hasLongSecretLikeRun (value : List Char) : Bool :=
  (value.splitOnP fun char => !secretChar char).any secretLikeRun

def lowercase (value : List Char) : List Char := value.map Char.toLower

def logTextLooksSensitive (value : List Char) : Bool :=
  let lower := lowercase value
  pathPhrases.any (fun phrase => contains lower phrase.toList) ||
    containsWindowsDrivePath value ||
    filePhrases.any (fun phrase => contains lower phrase.toList) ||
    "-d".toList.isPrefixOf lower ||
    optionPhrases.any (fun phrase => contains lower phrase.toList) ||
    credentialPhrases.any (fun phrase => contains lower phrase.toList) ||
    (value.contains '@' && value.contains '.') ||
    looksLikeJwt value || hasLongSecretLikeRun value

/-! ### The redactor -/

abbrev maxRawLineBytes : Nat := 16 * 1024
abbrev maxLogLineChars : Nat := 1000

def redactedLine : String := "[Private launch output redacted]"
def oversizedLine : String := "[Oversized launch output omitted]"

structure Redactor where
  secrets : List String

namespace Redactor

def new (secrets : List String) : Redactor := ⟨secrets.filter fun value => !value.isEmpty⟩

def containsSecret (redactor : Redactor) (value : List Char) : Bool :=
  redactor.secrets.any fun secret => contains value secret.toList

/-- Whether a line is withheld. -/
def withholds (redactor : Redactor) (value : String) : Bool :=
  redactor.containsSecret value.toList ||
    value.toList.any (fun char => isControl char && !(char = '\r' || char = '\t')) ||
    logTextLooksSensitive value.toList

/-- The text that is shown of a line. -/
def shown (value : List Char) : List Char :=
  (joined ' ' (words isWhitespace value)).take maxLogLineChars

def redactLine (redactor : Redactor) (value : String) : String :=
  if maxRawLineBytes < value.utf8ByteSize then oversizedLine
  else if redactor.withholds value then redactedLine
  else String.ofList (shown value.toList)

def redactBytes (redactor : Redactor) (value : List UInt8) : String :=
  match fromUtf8 value with
  | some value => redactor.redactLine value
  | none => redactedLine

/-- A text is clean: it holds no secret, it does not look sensitive, and redacting it again
leaves it as it is. -/
structure Clean (redactor : Redactor) (text : String) : Prop where
  secret : redactor.containsSecret text.toList = false
  sensitive : logTextLooksSensitive text.toList = false
  again : redactor.redactLine text = text

end Redactor

/-! ### Patterns in what is shown -/

/-- The line up to its last character that is not white space. -/
def trimEnd (value : List Char) : List Char := value.rdropWhile isWhitespace

/-- Whether a line shows a pattern, a run of white space being shown as one blank. -/
def shows (pattern value : List Char) : Bool :=
  spelled isWhitespace ' ' pattern maxLogLineChars true (trimEnd value)

def showsFirst (pattern value : List Char) : Bool :=
  spelledAt isWhitespace ' ' maxLogLineChars true pattern (trimEnd value)

theorem shown_eq (value : List Char) :
    Redactor.shown value =
      (squeeze isWhitespace ' ' true (trimEnd value)).take maxLogLineChars := by
  rw [Redactor.shown, joined_words, trimEnd]

variable {value pattern : List Char}

theorem shows_iff : shows pattern value = true ↔ pattern <:+: Redactor.shown value := by
  rw [shows, spelled_iff, shown_eq]

theorem showsFirst_iff : showsFirst pattern value = true ↔ pattern <+: Redactor.shown value := by
  rw [showsFirst, spelledAt_iff, shown_eq]

/-- A pattern without white space that is shown is in the line. -/
theorem infix_of_shown (plain : ∀ char ∈ pattern, isWhitespace char = false)
    (occurs : pattern <:+: Redactor.shown value) : pattern <:+: value := by
  rw [shown_eq] at occurs
  have squeezed := occurs.trans (List.take_prefix _ _).isInfix
  exact (infix_of_squeeze (by decide) plain squeezed).trans (List.rdropWhile_prefix _ _).isInfix

variable {char : Char}

theorem isWhitespace_of_range (low : 0x21 ≤ char.toNat) (high : char.toNat ≤ 0x7e) :
    isWhitespace char = false := by
  have apart : char.toNat ∉ [0x20, 0x85, 0xa0, 0x1680, 0x2028, 0x2029, 0x202f, 0x205f, 0x3000] := by
    simp only [mem_cons, not_mem_nil, or_false]
    omega
  simp only [isWhitespace, Bool.or_eq_false_iff, Bool.and_eq_false_iff, decide_eq_false_iff_not]
  exact ⟨⟨.inr (by omega), .inl (by omega)⟩, apart⟩

theorem isWhitespace_of_isAlphanum (letter : char.isAlphanum = true) :
    isWhitespace char = false := by
  simp only [Char.isAlphanum, Char.isAlpha, Char.isUpper, Char.isLower, Char.isDigit,
    Bool.or_eq_true, Bool.and_eq_true, decide_eq_true_eq, ge_iff_le,
    UInt32.le_iff_toNat_le] at letter
  have range : 0x21 ≤ char.toNat ∧ char.toNat ≤ 0x7e := by
    have same : char.toNat = char.val.toNat := rfl
    simp at letter
    omega
  exact isWhitespace_of_range range.1 range.2

theorem isWhitespace_toLower (char : Char) : isWhitespace char.toLower = isWhitespace char := by
  by_cases letter : char.isAlpha = true
  · have lower : char.toLower.isAlpha = true := by rw [Char.isAlpha_toLower_eq_isAlpha, letter]
    rw [isWhitespace_of_isAlphanum (by rw [Char.isAlphanum, lower, Bool.true_or]),
      isWhitespace_of_isAlphanum (by rw [Char.isAlphanum, letter, Bool.true_or])]
  · rw [Char.toLower_eq_of_not_isUpper fun upper => letter (by simp [Char.isAlpha, upper])]

/-! ### Lower case -/

/-- Blanks and their places do not depend on the case. -/
theorem squeeze_lowercase (after : Bool) (value : List Char) :
    lowercase (squeeze isWhitespace ' ' after value) =
      squeeze isWhitespace ' ' after (lowercase value) := by
  induction value generalizing after with
  | nil => rfl
  | cons char rest ih =>
    rw [lowercase, lowercase, map_cons]
    cases skipped : isWhitespace char && after with
    | true =>
      rw [squeeze_skip skipped, squeeze_skip (by rw [isWhitespace_toLower, skipped])]
      exact ih true
    | false =>
      rw [squeeze_cons _ _ skipped, squeeze_cons _ _ (by rw [isWhitespace_toLower, skipped]),
        map_cons, isWhitespace_toLower]
      congr 1
      · split
        · rfl
        · rfl
      · exact ih _

theorem trimEnd_lowercase (value : List Char) :
    trimEnd (lowercase value) = lowercase (trimEnd value) := by
  have same : isWhitespace ∘ Char.toLower = isWhitespace := funext isWhitespace_toLower
  rw [trimEnd, trimEnd, lowercase, lowercase, List.rdropWhile, List.rdropWhile, map_reverse,
    ← map_reverse, dropWhile_map, same]

theorem shown_lowercase (value : List Char) :
    Redactor.shown (lowercase value) = lowercase (Redactor.shown value) := by
  rw [shown_eq, shown_eq, trimEnd_lowercase, ← squeeze_lowercase]
  exact map_take.symm

/-- A phrase without white space that is shown in lower case is in the line. -/
theorem infix_lowercase_of_shown (plain : ∀ char ∈ pattern, isWhitespace char = false)
    (occurs : pattern <:+: lowercase (Redactor.shown value)) : pattern <:+: lowercase value := by
  rw [← shown_lowercase] at occurs
  exact infix_of_shown plain occurs

/-! ### The parts of the check -/

def phrases : List String := pathPhrases ++ filePhrases ++ optionPhrases ++ credentialPhrases

/-- The phrases that have a blank. -/
def spacedPhrases : List String :=
  ["setting user:", "uuid of player", " -d", " -cp ", " -classpath ", "bearer "]

theorem phrases_spaced : ∀ phrase ∈ phrases, phrase ∈ spacedPhrases ∨
    ∀ char ∈ phrase.toList, isWhitespace char = false := by
  have all : (phrases.all fun phrase => spacedPhrases.contains phrase ||
      phrase.toList.all fun char => !isWhitespace char) = true := by decide
  intro phrase member
  simpa using all_eq_true.mp all phrase member

theorem spacedPhrases_subset : ∀ phrase ∈ spacedPhrases, phrase ∈ phrases := by
  have all : (spacedPhrases.all fun phrase => phrases.contains phrase) = true := by decide
  intro phrase member
  simpa using all_eq_true.mp all phrase member

theorem contains_iff {text : List Char} :
    contains text pattern = true ↔ pattern <:+: text := decide_eq_true_iff

theorem logTextLooksSensitive_iff (value : List Char) :
    logTextLooksSensitive value = true ↔
      (∃ phrase ∈ phrases, phrase.toList <:+: lowercase value) ∨
      "-d".toList <+: lowercase value ∨ containsWindowsDrivePath value = true ∨
      ('@' ∈ value ∧ '.' ∈ value) ∨ looksLikeJwt value = true ∨
      hasLongSecretLikeRun value = true := by
  simp only [logTextLooksSensitive, phrases, Bool.or_eq_true, Bool.and_eq_true, any_eq_true,
    mem_append, contains_iff_mem, List.isPrefixOf_iff_prefix, contains_iff, or_and_right,
    exists_or]
  refine iff_of_eq ?_
  ac_rfl

theorem containsWindowsDrivePath_iff (value : List Char) :
    containsWindowsDrivePath value = true ↔ ∃ letter slash, [letter, ':', slash] <:+: value ∧
      letter.isAlpha = true ∧ (slash = '\\' ∨ slash = '/') := by
  rw [containsWindowsDrivePath, any_eq_true]
  constructor
  · rintro ⟨tail, member, drive⟩
    have suffix := (mem_tails _ _).mp member
    split at drive
    · rename_i letter colon slash rest
      simp only [Bool.and_eq_true, Bool.or_eq_true, decide_eq_true_eq] at drive
      obtain ⟨⟨alpha, rfl⟩, slashes⟩ := drive
      exact ⟨letter, slash, (List.IsPrefix.isInfix ⟨rest, rfl⟩).trans suffix.isInfix, alpha,
        slashes⟩
    · cases drive
  · rintro ⟨letter, slash, ⟨front, back, whole⟩, alpha, slashes⟩
    refine ⟨letter :: ':' :: slash :: back, (mem_tails _ _).mpr ⟨front, ?_⟩, ?_⟩
    · rw [← whole, append_assoc]
      rfl
    · simp only [Bool.and_eq_true, Bool.or_eq_true, decide_eq_true_eq]
      exact ⟨⟨alpha, trivial⟩, slashes⟩

theorem isWhitespace_of_secretChar (secret : secretChar char = true) :
    isWhitespace char = false := by
  simp only [secretChar, Bool.or_eq_true, decide_eq_true_eq] at secret
  rcases secret with (letter | rfl) | rfl
  · exact isWhitespace_of_isAlphanum letter
  · decide
  · decide

theorem secretLikeRun_infix {run part : List Char} (inside : run <:+: part)
    (secret : secretLikeRun run = true) : secretLikeRun part = true := by
  simp only [secretLikeRun, Bool.and_eq_true, decide_eq_true_eq, any_eq_true] at secret ⊢
  obtain ⟨⟨long, letter, letterThere, alpha⟩, digit, digitThere, isDigit⟩ := secret
  exact ⟨⟨long.trans inside.length_le, letter, inside.subset letterThere, alpha⟩, digit,
    inside.subset digitThere, isDigit⟩

/-- A long run is in the line if it is shown. -/
theorem hasLongSecretLikeRun_of_shown (long : hasLongSecretLikeRun (Redactor.shown value) = true) :
    hasLongSecretLikeRun value = true := by
  rw [hasLongSecretLikeRun, any_eq_true] at long ⊢
  obtain ⟨run, member, secret⟩ := long
  obtain ⟨inside, plain⟩ := mem_splitOnP member
  have unspaced : ∀ char ∈ run, isWhitespace char = false := fun char there =>
    isWhitespace_of_secretChar (by simpa using plain char there)
  obtain ⟨part, there, within⟩ := exists_mem_splitOnP (infix_of_shown unspaced inside) plain
  exact ⟨part, there, secretLikeRun_infix within secret⟩

theorem mem_of_shown (plain : isWhitespace char = false) (member : char ∈ Redactor.shown value) :
    char ∈ value := by
  have single : [char] <:+: Redactor.shown value := (singleton_infix_iff _ _).mpr member
  exact (singleton_infix_iff _ _).mp (infix_of_shown (by simpa using plain) single)

/-- The words that are shown. -/
theorem words_shown (value : List Char) :
    words isWhitespace (Redactor.shown value) =
      cutWords maxLogLineChars (words isWhitespace value) :=
  words_take_joined (by decide) (fun _ member => mem_words member) maxLogLineChars

/-! ### Which lines are shown clean -/

namespace Redactor

/-- A line of which what is shown passes the checks that the line has passed, and is not cut
right after a blank. -/
structure Presentable (redactor : Redactor) (value : List Char) : Prop where
  secrets : ∀ secret ∈ redactor.secrets, shows secret.toList value = false
  phrases : ∀ phrase ∈ spacedPhrases, shows phrase.toList (lowercase value) = false
  option : showsFirst "-d".toList (lowercase value) = false
  tokens : ∀ word ∈ cutWords maxLogLineChars (words isWhitespace value), jwtToken word = false
  whole : cutAfterBlank maxLogLineChars (words isWhitespace value) = false

/-- What is shown of a line that does not look sensitive looks sensitive exactly by a phrase with
a blank, by an option at its front, or by a word that is cut. -/
theorem logTextLooksSensitive_shown (passed : logTextLooksSensitive value = false) :
    logTextLooksSensitive (shown value) = true ↔
      (∃ phrase ∈ spacedPhrases, shows phrase.toList (lowercase value) = true) ∨
      showsFirst "-d".toList (lowercase value) = true ∨
      ∃ word ∈ cutWords maxLogLineChars (words isWhitespace value), jwtToken word = true := by
  have raw := (not_congr (logTextLooksSensitive_iff value)).mp (by rw [passed]; simp)
  simp only [not_or] at raw
  obtain ⟨noPhrase, _, noDrive, noAddress, _, noRun⟩ := raw
  have jwt : looksLikeJwt (shown value) = true ↔
      ∃ word ∈ cutWords maxLogLineChars (words isWhitespace value), jwtToken word = true := by
    rw [looksLikeJwt, words_shown, any_eq_true]
  rw [logTextLooksSensitive_iff]
  constructor
  · rintro (⟨phrase, member, occurs⟩ | option | drive | ⟨atSign, dot⟩ | token | long)
    · rcases phrases_spaced phrase member with spaced | plain
      · refine .inl ⟨phrase, spaced, shows_iff.mpr ?_⟩
        rw [shown_lowercase]
        exact occurs
      · exact absurd ⟨phrase, member, infix_lowercase_of_shown plain occurs⟩ noPhrase
    · refine .inr (.inl (showsFirst_iff.mpr ?_))
      rw [shown_lowercase]
      exact option
    · obtain ⟨letter, slash, inside, alpha, slashes⟩ := (containsWindowsDrivePath_iff _).mp drive
      refine absurd ((containsWindowsDrivePath_iff value).mpr
        ⟨letter, slash, infix_of_shown ?_ inside, alpha, slashes⟩) noDrive
      have letters : isWhitespace letter = false :=
        isWhitespace_of_isAlphanum (by rw [Char.isAlphanum, alpha, Bool.true_or])
      have slashed : isWhitespace slash = false := by
        rcases slashes with rfl | rfl
        · decide
        · decide
      simp only [mem_cons, not_mem_nil, or_false]
      rintro char (rfl | rfl | rfl)
      · exact letters
      · decide
      · exact slashed
    · exact absurd ⟨mem_of_shown (by decide) atSign, mem_of_shown (by decide) dot⟩ noAddress
    · exact .inr (.inr (jwt.mp token))
    · exact absurd (hasLongSecretLikeRun_of_shown long) noRun
  · rintro (⟨phrase, spaced, occurs⟩ | option | token)
    · have inside := shows_iff.mp occurs
      rw [shown_lowercase] at inside
      exact .inl ⟨phrase, spacedPhrases_subset phrase spaced, inside⟩
    · have inside := showsFirst_iff.mp option
      rw [shown_lowercase] at inside
      exact .inr (.inl inside)
    · exact .inr (.inr (.inr (.inr (.inl (jwt.mpr token)))))

theorem containsSecret_shown (redactor : Redactor) (value : List Char) :
    redactor.containsSecret (shown value) = true ↔
      ∃ secret ∈ redactor.secrets, shows secret.toList value = true := by
  simp only [containsSecret, any_eq_true, contains_iff, shows_iff]

/-! ### Redacting again -/

theorem mem_squeeze {after : Bool} (member : char ∈ squeeze isWhitespace ' ' after value) :
    char = ' ' ∨ char ∈ value ∧ isWhitespace char = false := by
  induction value generalizing after with
  | nil => cases member
  | cons first rest ih =>
    cases skipped : isWhitespace first && after with
    | true =>
      rw [squeeze_skip skipped] at member
      exact (ih member).imp_right fun there =>
        ⟨mem_cons_of_mem _ there.1, there.2⟩
    | false =>
      rw [squeeze_cons _ _ skipped] at member
      rcases mem_cons.mp member with rfl | later
      · cases blankness : isWhitespace first with
        | true => exact .inl rfl
        | false => exact .inr ⟨mem_cons_self, blankness⟩
      · exact (ih later).imp_right fun there =>
          ⟨mem_cons_of_mem _ there.1, there.2⟩

theorem length_squeeze_le (after : Bool) (value : List Char) :
    (squeeze isWhitespace ' ' after value).length ≤ value.length := by
  induction value generalizing after with
  | nil => exact le_rfl
  | cons first rest ih =>
    cases skipped : isWhitespace first && after with
    | true =>
      rw [squeeze_skip skipped]
      exact (ih true).trans (Nat.le_succ _)
    | false =>
      rw [squeeze_cons _ _ skipped, length_cons, length_cons]
      exact Nat.succ_le_succ (ih _)

theorem length_shown_le (value : List Char) : (shown value).length ≤ maxLogLineChars :=
  length_take_le _ _

/-- A text that is short is shown with its words joined. -/
theorem shown_short (short : value.length ≤ maxLogLineChars) :
    shown value = joined ' ' (words isWhitespace value) := by
  refine take_of_length_le ?_
  rw [joined_words]
  exact (length_squeeze_le _ _).trans ((List.rdropWhile_prefix _ _).length_le.trans short)

/-- Showing again what is shown gives the same if the cut does not come right after a blank. -/
theorem shown_shown (value : List Char) :
    shown (shown value) = shown value ↔
      cutAfterBlank maxLogLineChars (words isWhitespace value) = false := by
  rw [shown_short (length_shown_le value), words_shown]
  exact joined_cutWords maxLogLineChars

theorem utf8ByteSize_le (value : List Char) :
    (String.ofList value).utf8ByteSize ≤ 4 * value.length := by
  induction value with
  | nil => exact Nat.zero_le _
  | cons char rest ih =>
    have size : (String.ofList (char :: rest)).utf8ByteSize =
        char.utf8Size + (String.ofList rest).utf8ByteSize := by
      rw [String.ofList_cons, String.utf8ByteSize_append, String.utf8ByteSize_singleton]
    rw [size, length_cons]
    have := char.utf8Size_le_four
    omega

/-- What is shown of a line without control characters has none. -/
theorem shown_control
    (passed : (value.any fun char => isControl char && !(char = '\r' || char = '\t')) = false) :
    ((shown value).any fun char => isControl char && !(char = '\r' || char = '\t')) = false := by
  rw [any_eq_false] at passed ⊢
  intro char member
  rw [shown_eq] at member
  rcases mem_squeeze (mem_of_mem_take member) with rfl | ⟨inside, _⟩
  · decide
  · exact passed char ((List.rdropWhile_prefix _ _).subset inside)

variable {redactor : Redactor}

theorem withholds_eq_false {value : String} :
    redactor.withholds value = false ↔ redactor.containsSecret value.toList = false ∧
      (value.toList.any fun char => isControl char && !(char = '\r' || char = '\t')) = false ∧
      logTextLooksSensitive value.toList = false := by
  rw [withholds, Bool.or_eq_false_iff, Bool.or_eq_false_iff, and_assoc]

/-- What a text that passes the checks becomes when it is redacted again. -/
theorem redactLine_shown (passed : redactor.withholds (String.ofList (shown value)) = false) :
    redactor.redactLine (String.ofList (shown value)) = String.ofList (shown (shown value)) := by
  have small : ¬maxRawLineBytes < (String.ofList (shown value)).utf8ByteSize := by
    have size := utf8ByteSize_le (shown value)
    have length := length_shown_le value
    have limits : 4 * maxLogLineChars ≤ maxRawLineBytes := by decide
    omega
  rw [redactLine, if_neg small, if_neg (by rw [passed]; exact Bool.false_ne_true),
    String.toList_ofList]

/-- What is shown of a line that is not withheld is clean exactly if the line is presentable. -/
theorem clean_shown_iff {value : String} (passed : redactor.withholds value = false) :
    redactor.Clean (String.ofList (shown value.toList)) ↔ redactor.Presentable value.toList := by
  obtain ⟨_, control, insensitive⟩ := withholds_eq_false.mp passed
  have sensitive := logTextLooksSensitive_shown insensitive
  have again : redactor.containsSecret (shown value.toList) = false →
      logTextLooksSensitive (shown value.toList) = false →
      (redactor.redactLine (String.ofList (shown value.toList)) =
        String.ofList (shown value.toList) ↔
          cutAfterBlank maxLogLineChars (words isWhitespace value.toList) = false) := by
    intro secret passedAgain
    have unwithheld : redactor.withholds (String.ofList (shown value.toList)) = false := by
      rw [withholds_eq_false, String.toList_ofList]
      exact ⟨secret, shown_control control, passedAgain⟩
    rw [redactLine_shown unwithheld, String.ofList_inj, shown_shown]
  constructor
  · rintro ⟨secret, passedAgain, same⟩
    rw [String.toList_ofList] at secret passedAgain
    have tame : ¬logTextLooksSensitive (shown value.toList) = true := by
      rw [passedAgain]
      exact Bool.false_ne_true
    rw [sensitive, not_or, not_or] at tame
    refine ⟨fun text member => ?_, fun phrase member => ?_, ?_, fun word member => ?_, ?_⟩
    · by_contra shows
      have found := (containsSecret_shown redactor value.toList).mpr
        ⟨text, member, Bool.eq_true_of_not_eq_false shows⟩
      rw [secret] at found
      cases found
    · exact Bool.eq_false_of_not_eq_true fun shows => tame.1 ⟨phrase, member, shows⟩
    · exact Bool.eq_false_of_not_eq_true tame.2.1
    · exact Bool.eq_false_of_not_eq_true fun token => tame.2.2 ⟨word, member, token⟩
    · exact (again secret passedAgain).mp same
  · intro presentable
    have secret : redactor.containsSecret (shown value.toList) = false := by
      refine Bool.eq_false_of_not_eq_true fun found => ?_
      obtain ⟨text, member, shows⟩ := (containsSecret_shown redactor value.toList).mp found
      rw [presentable.secrets text member] at shows
      cases shows
    have passedAgain : logTextLooksSensitive (shown value.toList) = false := by
      refine Bool.eq_false_of_not_eq_true fun found => ?_
      rcases sensitive.mp found with ⟨phrase, member, shows⟩ | option | ⟨word, member, token⟩
      · rw [presentable.phrases phrase member] at shows
        cases shows
      · rw [presentable.option] at option
        cases option
      · rw [presentable.tokens word member] at token
        cases token
    refine ⟨?_, ?_, (again secret passedAgain).mpr presentable.whole⟩
    · rw [String.toList_ofList]
      exact secret
    · rw [String.toList_ofList]
      exact passedAgain

end Redactor

end Axial.Launch
