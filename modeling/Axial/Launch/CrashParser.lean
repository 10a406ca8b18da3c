/-
This file embeds the parser of crash artifacts, line by line, and shows what of its evidence can be
stored. The parser tells mods apart by identifier and name, the stored form by name and version:
the evidence reads back exactly if no two of the mods that the artifact lists have one name and one
version, which a later line may state.
-/

import Axial.Launch.CrashEvidence

namespace Axial.Launch.Crash

open Words Axial.Minecraft List Option

/-! ### Decoding bytes -/

/-- A character that is begun: its code so far, the bytes that are missing, and what the next of
them may be. -/
structure PartialChar where
  code : Nat
  missing : Nat
  low : UInt8
  high : UInt8

def leadByte (byte : UInt8) : Option PartialChar :=
  if 0xC2 ≤ byte ∧ byte ≤ 0xDF then some ⟨byte.toNat - 0xC0, 1, 0x80, 0xBF⟩
  else if byte = 0xE0 then some ⟨0x0, 2, 0xA0, 0xBF⟩
  else if byte = 0xED then some ⟨0xD, 2, 0x80, 0x9F⟩
  else if 0xE1 ≤ byte ∧ byte ≤ 0xEF then some ⟨byte.toNat - 0xE0, 2, 0x80, 0xBF⟩
  else if byte = 0xF0 then some ⟨0x0, 3, 0x90, 0xBF⟩
  else if byte = 0xF4 then some ⟨0x4, 3, 0x80, 0x8F⟩
  else if 0xF1 ≤ byte ∧ byte ≤ 0xF3 then some ⟨byte.toNat - 0xF0, 3, 0x80, 0xBF⟩
  else none

def replacementChar : Char := Char.ofNat 0xFFFD

def lossyStart (byte : UInt8) : List Char × Option PartialChar :=
  if byte < 0x80 then ([Char.ofNat byte.toNat], none)
  else match leadByte byte with
    | some begun => ([], some begun)
    | none => ([replacementChar], none)

def lossyStep (begun : Option PartialChar) (byte : UInt8) : List Char × Option PartialChar :=
  match begun with
  | none => lossyStart byte
  | some begun =>
    if begun.low ≤ byte ∧ byte ≤ begun.high then
      let code := begun.code * 64 + (byte.toNat - 0x80)
      if begun.missing = 1 then ([Char.ofNat code], none)
      else ([], some ⟨code, begun.missing - 1, 0x80, 0xBF⟩)
    else (replacementChar :: (lossyStart byte).1, (lossyStart byte).2)

def lossyChars : Option PartialChar → List UInt8 → List Char
  | none, [] => []
  | some _, [] => [replacementChar]
  | begun, byte :: rest => (lossyStep begun byte).1 ++ lossyChars (lossyStep begun byte).2 rest

/-- `String::from_utf8_lossy`: a part that cannot be decoded is one replacement character. -/
def fromUtf8Lossy (bytes : List UInt8) : String := String.ofList (lossyChars none bytes)

/-! ### Reading a line -/

def isAsciiWhitespace (char : Char) : Bool :=
  char = ' ' || char = '\t' || char = '\n' || char = '\r' || char = Char.ofNat 0xC

def hasThrowableBoundary (remainder : String) : Bool :=
  remainder.toList.head?.all fun char => char = ':' || isAsciiWhitespace char

def isOutOfMemoryFailureLine (line : String) : Bool :=
  let lower := toAsciiLowercase (trim line)
  let marker := "java.lang.outofmemoryerror"
  let throwable := (stripPrefix marker lower).any hasThrowableBoundary ||
    ((stripPrefix "caused by: " lower).bind (stripPrefix marker)).any hasThrowableBoundary ||
    ((stripPrefix "exception in thread " lower).bind (splitOnce marker)).any fun parts =>
      parts.1 ≠ "" && hasThrowableBoundary parts.2
  throwable || lower = "gc overhead limit exceeded" ||
    lower = "# there is insufficient memory for the java runtime environment to continue." ||
    ((stripPrefix "# native memory allocation (" lower).bind (splitOnce ") failed to ")).any
      (fun parts => startsWith parts.2 "allocate " || startsWith parts.2 "map ") ||
    (stripPrefix "# out of memory error (" lower).any (endsWith · ")")

def parseFailurePhase (line : String) : Option CrashFailurePhase := do
  let description := toAsciiLowercase (trim (← stripPrefix "Description:" line))
  let contains := containsText description
  if contains "initializ" then some .initialization
  else if contains "load" ∨ contains "bootstrap" then some .loading
  else if contains "start" then some .startup
  else if contains "shut" ∨ contains "stopp" then some .shutdown
  else if contains "tick" ∨ contains "render" ∨ contains "game" then some .runtime
  else none

def parseExceptionClass (line : String) (allowBare : Bool) : Option CrashExceptionClass :=
  let explicit := ((stripPrefix "Exception:" line).or (stripPrefix "Caused by:" line)).or
    (stripPrefix "Exception message:" line)
  if explicit.isNone ∧ ¬allowBare then none
  else
    let value := (explicit.map trim).getD line
    let parts := (splitOnce ":" value).getD (value, "")
    if explicit.isNone ∧ parts.2 = "" then none
    else checked isThrowableClass (trim parts.1)

def isNativeOffset (value : String) : Bool :=
  (stripPrefix "0x" value).any fun digits => digits ≠ "" && digits.toList.all isHexDigit

def stripNativeExtension (value : String) : String :=
  match splitOnce ".so" value with
  | some (base, _) => base
  | none => ((stripSuffix ".dll" value).or (stripSuffix ".dylib" value)).getD value

def frameKind (value : String) : Option (CrashNativeFrameKind × String) :=
  match (stripPrefix "C  " value).or (stripPrefix "C " value) with
  | some rest => some (.native, trim rest)
  | none => ((stripPrefix "V  " value).or (stripPrefix "V " value)).map fun rest => (.vm, trim rest)

def parseProblematicFrame (line : String) : Option CrashProblematicFrame := do
  let (kind, value) ← frameKind (trim ((stripPrefix "#" line).getD line))
  let (_, opened) ← splitOnce "[" value
  let (rawFrame, rest) ← splitOnce "]" opened
  let (rawModule, rawOffset) ← rsplitOnce "+" rawFrame
  if ¬isNativeOffset rawOffset ∨ rawModule.toList.any fun char => char = '/' || char = '\\' then none
  else
    let moduleName ← checked isSafeNativeModule (stripNativeExtension rawModule)
    let symbol := ((splitOn '+' (trim rest)).head?.filter (· ≠ "")).bind
      (checked isSafeNativeIdentifier)
    return { kind, moduleName, symbol }

def normalizedModName (value : String) : Option CrashModName :=
  checked isSafeModName (normalizedSpaces value)

def sanitizedModId (value : String) : Option String :=
  let value := trim value
  if value ≠ "" ∧ value.utf8ByteSize ≤ 96 ∧
      value.toList.all fun char => char.isAlphanum || char = '_' || char = '-' || char = '.' then
    some (toAsciiLowercase value)
  else none

/-! ### The builder -/

structure PendingMod where
  id : Option String
  name : CrashModName
  version : Option CrashModVersion

structure CrashEvidenceBuilder where
  source : CrashArtifactKind
  truncated : Bool
  failurePhase : Option CrashFailurePhase
  exceptionClass : Option CrashExceptionClass
  suspectedMods : List PendingMod
  problematicFrame : Option CrashProblematicFrame
  namesOutOfMemory : Bool
  expectProblematicFrame : Bool
  expectRootThrowable : Bool
  currentFailedModId : Option String

/-- Changes the first entry that a test finds. -/
def updateFirst {α : Type} (test : α → Bool) (change : α → α) : List α → List α
  | [] => []
  | entry :: rest =>
    if test entry then change entry :: rest else entry :: updateFirst test change rest

/-- A version that is stated of an entry is taken if it has none. -/
def PendingMod.enriched (version : Option CrashModVersion) (entry : PendingMod) : PendingMod :=
  { entry with version := entry.version.or version }

/-- The identifier, the name and the version in the text of a suspected mod. -/
def suspectedModParts (value : String) : String × String × Option String :=
  let value := trim value
  let versioned := rsplitOnce " version " value
  let value := (versioned.map (·.1)).getD value
  let named := (rsplitOnce " (" value).bind fun parts =>
    (stripSuffix ")" parts.2).map fun id => (id, parts.1)
  (((named.map (·.1)).getD value), ((named.map (·.2)).getD value), versioned.map (·.2))

/-- The identifier and the name in a failure message of the section of a mod. -/
def failedSectionParts (id value : String) : String × String :=
  let reported := (splitOnce " (" value).bind fun parts =>
    (splitOnce ")" parts.2).map fun rest => (rest.1, trim parts.1)
  (reported.filter fun parts => eqIgnoreAsciiCase parts.1 id).getD (id, id)

namespace CrashEvidenceBuilder

def new (source : CrashArtifactKind) (truncated : Bool) : CrashEvidenceBuilder where
  source := source
  truncated := truncated
  failurePhase := none
  exceptionClass := none
  suspectedMods := []
  problematicFrame := none
  namesOutOfMemory := false
  expectProblematicFrame := false
  expectRootThrowable := false
  currentFailedModId := none

def evidence (builder : CrashEvidenceBuilder) : CrashEvidence where
  source := builder.source
  truncated := builder.truncated
  failurePhase := builder.failurePhase
  exceptionClass := builder.exceptionClass
  suspectedMods := builder.suspectedMods.map fun entry => ⟨entry.name, entry.version⟩
  problematicFrame := builder.problematicFrame
  namesOutOfMemory := builder.namesOutOfMemory

def finish (builder : CrashEvidenceBuilder) : Option CrashEvidence :=
  if builder.evidence.isEmpty then none else some builder.evidence

def addMod (id name : String) (version : Option String) (builder : CrashEvidenceBuilder) :
    CrashEvidenceBuilder :=
  if maxSuspectedMods ≤ builder.suspectedMods.length then builder
  else match normalizedModName name with
    | none => builder
    | some name =>
      let id := sanitizedModId id
      let version := version.bind fun value => checked isSafeModVersion (trim value)
      if builder.suspectedMods.any fun entry => entry.id = id && entry.name = name then builder
      else { builder with suspectedMods := builder.suspectedMods ++ [⟨id, name, version⟩] }

def addSuspectedMod (value : String) (builder : CrashEvidenceBuilder) : CrashEvidenceBuilder :=
  let parts := suspectedModParts value
  builder.addMod parts.1 parts.2.1 parts.2.2

/-- The loop of `add_suspected_mod_list`. -/
def addListed : List String → CrashEvidenceBuilder → CrashEvidenceBuilder
  | [], builder => builder
  | candidate :: rest, builder =>
    let builder := builder.addSuspectedMod candidate
    if builder.suspectedMods.length = maxSuspectedMods then builder else addListed rest builder

def addSuspectedModList (value : String) (builder : CrashEvidenceBuilder) :
    CrashEvidenceBuilder :=
  if eqIgnoreAsciiCase (trim value) "none" then builder
  else addListed (splitOn ',' value) builder

def addFailedSectionMod (value : String) (builder : CrashEvidenceBuilder) :
    CrashEvidenceBuilder :=
  match builder.currentFailedModId with
  | none => builder
  | some id =>
    let parts := failedSectionParts id value
    builder.addMod parts.1 parts.2 none

def enrichForgeModList (line : String) (builder : CrashEvidenceBuilder) : CrashEvidenceBuilder :=
  match (splitOn '|' line).map trim with
  | _ :: name :: id :: version :: _ :: _ =>
    { builder with
      suspectedMods := updateFirst
        (fun entry => entry.id = some id || eqIgnoreAsciiCase entry.name.val name)
        (PendingMod.enriched (checked isSafeModVersion version)) builder.suspectedMods }
  | _ => builder

def enrichCurrentVersion (value : String) (builder : CrashEvidenceBuilder) :
    CrashEvidenceBuilder :=
  match builder.currentFailedModId with
  | none => builder
  | some id =>
    { builder with
      suspectedMods := updateFirst (fun entry => entry.id = some id)
        (PendingMod.enriched (checked isSafeModVersion (trim value))) builder.suspectedMods }

/-- The end of `inspect_line`, which looks for mods. -/
def inspectMods (line : String) (builder : CrashEvidenceBuilder) : CrashEvidenceBuilder :=
  match stripPrefix "Suspected Mods:" line with
  | some value => builder.addSuspectedModList value
  | none =>
    match stripPrefix "Suspected Mod:" line with
    | some value => builder.addSuspectedMod value
    | none =>
      match stripPrefix "Failure message:" line with
      | some value => builder.addFailedSectionMod value
      | none =>
        match stripPrefix "Mod Version:" line with
        | some value => builder.enrichCurrentVersion value
        | none => if containsText line "|" then builder.enrichForgeModList line else builder

end CrashEvidenceBuilder

/-- The title of a section. -/
def sectionTitle (line : String) : Option String :=
  (stripPrefix "-- " line).bind (stripSuffix " --")

def sectionMod (title : String) : Option String := (stripPrefix "MOD " title).bind sanitizedModId

namespace CrashEvidenceBuilder

/-- The part of `inspect_line` for a fatal error. -/
def inspectFatalError (line : String) (builder : CrashEvidenceBuilder) : CrashEvidenceBuilder :=
  let builder :=
    if builder.expectProblematicFrame then
      let builder := { builder with expectProblematicFrame := false }
      match parseProblematicFrame line with
      | some frame =>
        { builder with
          problematicFrame := some frame
          failurePhase := builder.failurePhase.or (some .native) }
      | none => builder
    else builder
  if eqIgnoreAsciiCase line "# Problematic frame:" then
    { builder with expectProblematicFrame := true }
  else builder

/-- The part of `inspect_line` for a crash report. -/
def inspectCrashReport (line : String) (builder : CrashEvidenceBuilder) : CrashEvidenceBuilder :=
  match sectionTitle line with
  | some title => { builder with currentFailedModId := sectionMod title }
  | none =>
    match parseFailurePhase line with
    | some phase =>
      { builder with
        failurePhase := builder.failurePhase.or (some phase)
        expectRootThrowable := true }
    | none =>
      inspectMods line { builder with
        exceptionClass :=
          builder.exceptionClass.or (parseExceptionClass line builder.expectRootThrowable)
        expectRootThrowable := false }

/-- `inspect_line`, for a line that is decoded and trimmed. -/
def inspectText (line : String) (builder : CrashEvidenceBuilder) : CrashEvidenceBuilder :=
  if line = "" then builder
  else
    let builder := { builder with
      namesOutOfMemory := builder.namesOutOfMemory || isOutOfMemoryFailureLine line }
    match builder.source with
    | .jvmFatalError => builder.inspectFatalError line
    | .minecraftCrashReport => builder.inspectCrashReport line

def inspectLine (rawLine : List UInt8) (builder : CrashEvidenceBuilder) : CrashEvidenceBuilder :=
  builder.inspectText (trim (fromUtf8Lossy rawLine))

end CrashEvidenceBuilder

abbrev maxCrashArtifactBytes : Nat := 512 * 1024
abbrev maxLines : Nat := 4096
abbrev maxLineBytes : Nat := 4096

/-- The lines of an artifact, as far as it is read. -/
def artifactLines (raw : List UInt8) : List (List UInt8) :=
  (raw.take maxCrashArtifactBytes).splitOn 0xA

/-- The step of the loop of `parse_crash_evidence`. -/
def readLine (builder : CrashEvidenceBuilder) (line : List UInt8) : CrashEvidenceBuilder :=
  let builder := { builder with
    truncated := builder.truncated || decide (maxLineBytes < line.length) }
  builder.inspectLine (line.take maxLineBytes)

def parseCrashEvidence (source : CrashArtifactKind) (raw : List UInt8) : Option CrashEvidence :=
  let lines := artifactLines raw
  let builder := (lines.take maxLines).foldl readLine
    (.new source (decide (maxCrashArtifactBytes < raw.length)))
  let builder := { builder with
    truncated := builder.truncated || decide (maxLines < lines.length) }
  builder.finish

/-! ### What an artifact states of mods -/

/-- What a line states: that a mod is suspected, a row of the list of mods, or the version of the
mod whose section it is in. -/
inductive ModEvent where
  | mention (id name : String) (version : Option String)
  | row (name id version : String)
  | detail (id version : String)

def ModEvent.ofSuspected (value : String) : ModEvent :=
  let parts := suspectedModParts value
  .mention parts.1 parts.2.1 parts.2.2

def ModEvent.ofFailure (value id : String) : ModEvent :=
  let parts := failedSectionParts id value
  .mention parts.1 parts.2 none

def lineEvents (current : Option String) (line : String) : List ModEvent :=
  match stripPrefix "Suspected Mods:" line with
  | some value =>
    if eqIgnoreAsciiCase (trim value) "none" then []
    else (splitOn ',' value).map ModEvent.ofSuspected
  | none =>
    match stripPrefix "Suspected Mod:" line with
    | some value => [.ofSuspected value]
    | none =>
      match stripPrefix "Failure message:" line with
      | some value => (current.map (ModEvent.ofFailure value)).toList
      | none =>
        match stripPrefix "Mod Version:" line with
        | some value => (current.map fun id => ModEvent.detail id value).toList
        | none =>
          if containsText line "|" then
            match (splitOn '|' line).map trim with
            | _ :: name :: id :: version :: _ :: _ => [.row name id version]
            | _ => []
          else []

/-- The mod whose section the next line is in. -/
def nextMod (current : Option String) (line : String) : Option String :=
  if line = "" then current
  else match sectionTitle line with
    | some title => sectionMod title
    | none => current

def stepEvents (current : Option String) (line : String) : List ModEvent :=
  if line = "" ∨ (sectionTitle line).isSome ∨ (parseFailurePhase line).isSome then []
  else lineEvents current line

def textEvents : Option String → List String → List ModEvent
  | _, [] => []
  | current, line :: rest => stepEvents current line ++ textEvents (nextMod current line) rest

/-- The lines that are inspected, decoded and trimmed. -/
def artifactTexts (raw : List UInt8) : List String :=
  ((artifactLines raw).take maxLines).map fun line => trim (fromUtf8Lossy (line.take maxLineBytes))

/-- What an artifact states of mods; that of a fatal error states nothing of them. -/
def modEvents : CrashArtifactKind → List UInt8 → List ModEvent
  | .minecraftCrashReport, raw => textEvents none (artifactTexts raw)
  | .jvmFatalError, _ => []

/-- How the parser tells mods apart. -/
structure NamedMod where
  id : Option String
  name : CrashModName
  deriving DecidableEq

/-- Whether a statement can be about a mod that was mentioned before. -/
def ModEvent.concerns : ModEvent → NamedMod → Bool
  | mention _ _ _, _ => false
  | row name id _, mod => mod.id = some id || eqIgnoreAsciiCase mod.name.val name
  | detail id _, mod => mod.id = some id

/-- The version in a statement about an earlier mod. -/
def ModEvent.stated : ModEvent → Option CrashModVersion
  | mention _ _ _ => none
  | row _ _ version => checked isSafeModVersion version
  | detail _ version => checked isSafeModVersion (trim version)

/-- The first version that later statements give a mod: those that are about no mod before it. -/
def statedLater (earlier : List NamedMod) (mod : NamedMod) (later : List ModEvent) :
    Option CrashModVersion :=
  later.findSome? fun event =>
    if event.concerns mod && !earlier.any event.concerns then event.stated else none

/-- The entry for a mod that is mentioned after earlier ones: the first of its identifier and name,
while there is room. -/
def ModEvent.mentioned (earlier : List NamedMod) : ModEvent → Option PendingMod
  | mention id name version => do
    let name ← normalizedModName name
    let id := sanitizedModId id
    if maxSuspectedMods ≤ earlier.length ∨ ⟨id, name⟩ ∈ earlier then none
    else some ⟨id, name, version.bind fun value => checked isSafeModVersion (trim value)⟩
  | _ => none

def PendingMod.named (entry : PendingMod) : NamedMod := ⟨entry.id, entry.name⟩

/-- The entry with a version that later statements give it. -/
def PendingMod.settled (entry : PendingMod) (earlier : List NamedMod) (later : List ModEvent) :
    CrashModEvidence :=
  ⟨entry.name, entry.version.or (statedLater earlier entry.named later)⟩

/-- The mods that are mentioned after earlier ones, each with its own version or the first that is
stated later. -/
def attributed (earlier : List NamedMod) : List ModEvent → List CrashModEvidence
  | [] => []
  | event :: later =>
    match event.mentioned earlier with
    | none => attributed earlier later
    | some entry => entry.settled earlier later :: attributed (earlier ++ [entry.named]) later

/-! ### The entries of the builder -/

def applyEvent (mods : List PendingMod) (event : ModEvent) : List PendingMod :=
  match event.mentioned (mods.map PendingMod.named) with
  | some entry => mods ++ [entry]
  | none => updateFirst (fun entry => event.concerns entry.named) (.enriched event.stated) mods

/-- The entries as they will be after later statements. -/
def settled (earlier : List NamedMod) (events : List ModEvent) : List PendingMod →
    List CrashModEvidence
  | [] => []
  | entry :: rest => entry.settled earlier events :: settled (earlier ++ [entry.named]) events rest

theorem settled_nil (earlier : List NamedMod) (mods : List PendingMod) :
    settled earlier [] mods = mods.map fun entry => ⟨entry.name, entry.version⟩ := by
  induction mods generalizing earlier with
  | nil => rfl
  | cons entry rest ih =>
    rw [settled, ih, PendingMod.settled, statedLater, findSome?_nil,
      or_none, map_cons]

theorem settled_append (earlier : List NamedMod) (events : List ModEvent) (mods : List PendingMod)
    (entry : PendingMod) :
    settled earlier events (mods ++ [entry]) = settled earlier events mods ++
      [entry.settled (earlier ++ mods.map PendingMod.named) events] := by
  induction mods generalizing earlier with
  | nil =>
    rw [map_nil, List.append_nil]
    rfl
  | cons first rest ih =>
    rw [cons_append, settled, settled, ih, map_cons, append_assoc,
      singleton_append, cons_append]

variable {earlier : List NamedMod} {event : ModEvent} {mod : NamedMod}

/-- A statement that is not about a mod, or about one before it, leaves it as it is. -/
theorem statedLater_skip (skipped : event.concerns mod = false ∨ earlier.any event.concerns = true)
    (events : List ModEvent) :
    statedLater earlier mod (event :: events) = statedLater earlier mod events := by
  have passed : (event.concerns mod && !earlier.any event.concerns) = false := by
    rcases skipped with other | before
    · rw [other, Bool.false_and]
    · rw [before, Bool.not_true, Bool.and_false]
  rw [statedLater, findSome?_cons, passed]
  rfl

theorem statedLater_first (about : event.concerns mod = true)
    (first : earlier.any event.concerns = false) (events : List ModEvent) :
    statedLater earlier mod (event :: events) =
      event.stated.or (statedLater earlier mod events) := by
  rw [statedLater, findSome?_cons, about, first]
  cases event.stated with
  | none => rfl
  | some version => rfl

variable {mods : List PendingMod}

theorem settled_skip
    (skipped : (∀ mod, event.concerns mod = false) ∨ earlier.any event.concerns = true)
    (events : List ModEvent) :
    settled earlier (event :: events) mods = settled earlier events mods := by
  induction mods generalizing earlier with
  | nil => rfl
  | cons entry rest ih =>
    have later : (∀ mod, event.concerns mod = false) ∨
        (earlier ++ [entry.named]).any event.concerns = true := by
      refine skipped.imp_right fun before => ?_
      rw [any_append, before, Bool.true_or]
    rw [settled, settled, ih later, PendingMod.settled, PendingMod.settled,
      statedLater_skip (skipped.imp_left fun none => none entry.named)]

/-- A statement about an earlier mod changes the first one that it can be about. -/
theorem settled_updateFirst (first : earlier.any event.concerns = false) (events : List ModEvent)
    (mods : List PendingMod) :
    settled earlier events
        (updateFirst (fun entry => event.concerns entry.named) (.enriched event.stated) mods) =
      settled earlier (event :: events) mods := by
  induction mods generalizing earlier with
  | nil => rfl
  | cons entry rest ih =>
    rw [updateFirst]
    cases about : event.concerns entry.named with
    | true =>
      have before : (earlier ++ [entry.named]).any event.concerns = true := by
        rw [any_append, any_cons, about, Bool.true_or, Bool.or_true]
      rw [if_pos rfl, settled, settled, settled_skip (.inr before), PendingMod.settled,
        PendingMod.settled, statedLater_first about first, ← Option.or_assoc]
      rfl
    | false =>
      have later : (earlier ++ [entry.named]).any event.concerns = false := by
        rw [any_append, first, any_cons, about]
        rfl
      rw [if_neg Bool.false_ne_true, settled, settled, ih later,
        PendingMod.settled, PendingMod.settled, statedLater_skip (.inl about)]

theorem named_updateFirst (test : PendingMod → Bool) (version : Option CrashModVersion)
    (mods : List PendingMod) :
    (updateFirst test (.enriched version) mods).map PendingMod.named =
      mods.map PendingMod.named := by
  induction mods with
  | nil => rfl
  | cons entry rest ih =>
    rw [updateFirst]
    split
    · rfl
    · rw [map_cons, map_cons, ih]

theorem updateFirst_none {α : Type} {test : α → Bool} (change : α → α) {list : List α}
    (none : ∀ entry ∈ list, test entry = false) : updateFirst test change list = list := by
  induction list with
  | nil => rfl
  | cons entry rest ih =>
    rw [updateFirst, none entry mem_cons_self, if_neg Bool.false_ne_true,
      ih fun other member => none other (mem_cons_of_mem _ member)]

/-- What is mentioned is new, there is room for it, and the statement is about no other mod. -/
theorem ModEvent.mentioned_eq_some {entry : PendingMod}
    (mentioned : event.mentioned earlier = some entry) :
    earlier.length < maxSuspectedMods ∧ ∀ mod, event.concerns mod = false := by
  cases event with
  | mention id name version =>
    obtain ⟨name, _, mentioned⟩ := bind_eq_some_iff.mp mentioned
    dsimp only at mentioned
    split at mentioned
    · cases mentioned
    · rename_i new
      exact ⟨Nat.lt_of_not_le fun full => new (.inl full), fun _ => rfl⟩
  | row | detail => cases mentioned

/-- The entries that the builder ends with are those of the artifact. The induction is on the
statements; the entries so far stand in the invariant as they will be after the others. -/
theorem foldl_applyEvent (events : List ModEvent) (mods : List PendingMod) :
    (events.foldl applyEvent mods).map (fun entry => (⟨entry.name, entry.version⟩ :
      CrashModEvidence)) =
      settled [] events mods ++ attributed (mods.map PendingMod.named) events := by
  induction events generalizing mods with
  | nil => rw [foldl_nil, settled_nil, attributed, List.append_nil]
  | cons event events ih =>
    rw [foldl_cons, ih, attributed, applyEvent]
    cases mentioned : event.mentioned (mods.map PendingMod.named) with
    | none =>
      dsimp only
      rw [settled_updateFirst rfl, named_updateFirst]
    | some entry =>
      dsimp only
      rw [settled_append, settled_skip (.inl (ModEvent.mentioned_eq_some mentioned).2),
        map_append, append_assoc, nil_append]
      rfl

theorem length_attributed (earlier : List NamedMod) (events : List ModEvent) :
    (attributed earlier events).length ≤ maxSuspectedMods - earlier.length := by
  induction events generalizing earlier with
  | nil => exact Nat.zero_le _
  | cons event events ih =>
    rw [attributed]
    cases mentioned : event.mentioned earlier with
    | none => exact ih earlier
    | some entry =>
      have room := (ModEvent.mentioned_eq_some mentioned).1
      have later := ih (earlier ++ [entry.named])
      rw [length_append, length_singleton] at later
      rw [length_cons]
      omega

namespace CrashEvidenceBuilder

/-- The builder with its entries after statements. -/
def stated (builder : CrashEvidenceBuilder) (events : List ModEvent) : CrashEvidenceBuilder :=
  { builder with suspectedMods := events.foldl applyEvent builder.suspectedMods }

theorem any_named_iff {id : Option String} {name : CrashModName} :
    (mods.any fun entry => entry.id = id && entry.name = name) = true ↔
      ⟨id, name⟩ ∈ mods.map PendingMod.named := by
  simp only [List.any_eq_true, Bool.and_eq_true, decide_eq_true_eq, List.mem_map,
    PendingMod.named, NamedMod.mk.injEq]

theorem applyEvent_mention (mods : List PendingMod) (id name : String)
    (version : Option String) :
    applyEvent mods (.mention id name version) =
      ((ModEvent.mention id name version).mentioned (mods.map PendingMod.named)).elim mods
        fun entry => mods ++ [entry] := by
  unfold applyEvent
  split
  · rename_i entry mentioned
    rw [mentioned, elim_some]
  · rename_i known
    rw [known, elim_none]
    exact updateFirst_none _ fun _ _ => rfl

theorem addMod_eq (id name : String) (version : Option String) (builder : CrashEvidenceBuilder) :
    builder.addMod id name version = builder.stated [.mention id name version] := by
  rw [stated, foldl_cons, foldl_nil, applyEvent_mention, addMod, ModEvent.mentioned]
  cases normalizedModName name with
  | none => rw [ite_self]; rfl
  | some name =>
    simp only [bind_eq_bind, bind_some, length_map, ← any_named_iff]
    split
    · rename_i full
      rw [if_pos (.inl full)]
      rfl
    · rename_i room
      split
      · rename_i known
        rw [if_pos (.inr known)]
        rfl
      · rename_i new
        rw [if_neg (not_or.mpr ⟨room, new⟩)]
        rfl

theorem addSuspectedMod_eq (value : String) (builder : CrashEvidenceBuilder) :
    builder.addSuspectedMod value = builder.stated [.ofSuspected value] := by
  rw [addSuspectedMod, addMod_eq, ModEvent.ofSuspected]

theorem stated_cons (event : ModEvent) (events : List ModEvent) (builder : CrashEvidenceBuilder) :
    builder.stated (event :: events) = (builder.stated [event]).stated events := rfl

variable {builder : CrashEvidenceBuilder}

theorem stated_full (full : maxSuspectedMods ≤ builder.suspectedMods.length)
    (candidates : List String) :
    builder.stated (candidates.map ModEvent.ofSuspected) = builder := by
  induction candidates with
  | nil => rfl
  | cons candidate rest ih =>
    have unchanged : applyEvent builder.suspectedMods (.ofSuspected candidate) =
        builder.suspectedMods := by
      rw [ModEvent.ofSuspected, applyEvent_mention]
      cases mentioned : ModEvent.mentioned _ _ with
      | none => rfl
      | some entry =>
        have room := (ModEvent.mentioned_eq_some mentioned).1
        rw [length_map] at room
        omega
    rw [map_cons, stated_cons]
    rw [show builder.stated [.ofSuspected candidate] = builder by
      rw [stated, foldl_cons, unchanged, foldl_nil]]
    exact ih

theorem addListed_eq (candidates : List String) (builder : CrashEvidenceBuilder) :
    addListed candidates builder = builder.stated (candidates.map ModEvent.ofSuspected) := by
  induction candidates generalizing builder with
  | nil => rfl
  | cons candidate rest ih =>
    rw [addListed, addSuspectedMod_eq, map_cons,
      stated_cons _ (rest.map ModEvent.ofSuspected)]
    generalize builder.stated [.ofSuspected candidate] = after
    split
    · rename_i full
      exact (stated_full full.ge rest).symm
    · exact ih after

theorem addFailedSectionMod_eq (value : String) (builder : CrashEvidenceBuilder) :
    builder.addFailedSectionMod value =
      builder.stated (builder.currentFailedModId.map (ModEvent.ofFailure value)).toList := by
  rw [addFailedSectionMod]
  cases builder.currentFailedModId with
  | none => rfl
  | some id =>
    dsimp only
    rw [addMod_eq, map_some, toList_some, ModEvent.ofFailure]

theorem enrichCurrentVersion_eq (value : String) (builder : CrashEvidenceBuilder) :
    builder.enrichCurrentVersion value =
      builder.stated (builder.currentFailedModId.map fun id => ModEvent.detail id value).toList := by
  unfold enrichCurrentVersion
  split
  · rename_i outside
    rw [outside]
    rfl
  · rename_i id inside
    have one : (builder.currentFailedModId.map fun id => ModEvent.detail id value).toList =
        [.detail id value] := by
      rw [inside]
      rfl
    rw [one]
    rfl

/-- The entries are looked for as the line states. -/
theorem inspectMods_eq (line : String) (builder : CrashEvidenceBuilder) :
    inspectMods line builder = builder.stated (lineEvents builder.currentFailedModId line) := by
  unfold inspectMods lineEvents
  generalize stripPrefix "Suspected Mods:" line = listed
  generalize stripPrefix "Suspected Mod:" line = suspected
  generalize stripPrefix "Failure message:" line = failed
  generalize stripPrefix "Mod Version:" line = detailed
  cases listed with
  | some value =>
    dsimp only
    rw [addSuspectedModList]
    split
    · rfl
    · exact addListed_eq _ builder
  | none =>
    cases suspected with
    | some value => exact addSuspectedMod_eq value builder
    | none =>
      cases failed with
      | some value => exact addFailedSectionMod_eq value builder
      | none =>
        cases detailed with
        | some value => exact enrichCurrentVersion_eq value builder
        | none =>
          dsimp only
          split
          · rw [enrichForgeModList]
            split
            · rfl
            · rfl
          · rfl

/-! ### A run of the parser -/

theorem inspectText_source (line : String) (builder : CrashEvidenceBuilder) :
    (builder.inspectText line).source = builder.source := by
  unfold inspectText
  split
  · rfl
  · dsimp only
    split
    · unfold inspectFatalError
      dsimp only
      split
      · split
        · split
          · rfl
          · rfl
        · rfl
      · split
        · split
          · rfl
          · rfl
        · rfl
    · unfold inspectCrashReport
      split
      · rfl
      · split
        · rfl
        · rw [inspectMods_eq]
          rfl

/-- A line of a crash report makes the statements that it is read as, and may begin a section. -/
theorem inspectText_mods (line : String) (report : builder.source = .minecraftCrashReport) :
    (builder.inspectText line).suspectedMods =
        (stepEvents builder.currentFailedModId line).foldl applyEvent builder.suspectedMods ∧
      (builder.inspectText line).currentFailedModId =
        nextMod builder.currentFailedModId line := by
  unfold inspectText stepEvents nextMod
  by_cases empty : line = ""
  · rw [if_pos empty, if_pos empty, if_pos (.inl empty)]
    exact ⟨rfl, rfl⟩
  · rw [if_neg empty, if_neg empty]
    dsimp only
    rw [report]
    dsimp only
    unfold inspectCrashReport
    cases sectionTitle line with
    | some title =>
      rw [if_pos (.inr (.inl rfl))]
      exact ⟨rfl, rfl⟩
    | none =>
      cases parseFailurePhase line with
      | some phase =>
        rw [if_pos (.inr (.inr rfl))]
        exact ⟨rfl, rfl⟩
      | none =>
        dsimp only
        rw [inspectMods_eq, if_neg (by simp [empty])]
        exact ⟨rfl, rfl⟩

theorem parseFailurePhase_native (line : String) : parseFailurePhase line ≠ some .native := by
  intro native
  obtain ⟨description, _, native⟩ := bind_eq_some_iff.mp native
  dsimp only at native
  iterate 5
    split at native
    · cases native
  cases native

/-- A line adds only what fits the source. -/
theorem inspectText_coherent (line : String) (coherent : builder.evidence.sourceIsCoherent = true) :
    (builder.inspectText line).evidence.sourceIsCoherent = true := by
  obtain ⟨source, truncated, phase, exceptionClass, mods, frame, memory, expectFrame, expectRoot,
    current⟩ := builder
  cases source with
  | minecraftCrashReport =>
    simp only [evidence, CrashEvidence.sourceIsCoherent, Bool.and_eq_true,
      isNone_iff_eq_none] at coherent
    obtain ⟨rfl, other⟩ := coherent
    have notNative : phase ≠ some .native := of_decide_eq_true other
    have kept : ∀ after : CrashEvidenceBuilder, after.source = .minecraftCrashReport →
        after.problematicFrame = none → after.failurePhase ≠ some .native →
        after.evidence.sourceIsCoherent = true := by
      intro after report frame phase
      simp only [evidence, CrashEvidence.sourceIsCoherent, report, frame, isNone_none,
        phase, ne_eq, not_false_eq_true, decide_true, Bool.and_self]
    unfold inspectText
    split
    · exact kept _ rfl rfl notNative
    · dsimp only
      unfold inspectCrashReport
      split
      · exact kept _ rfl rfl notNative
      · split
        · rename_i found parsed
          refine kept _ rfl rfl ?_
          dsimp only
          cases phase with
          | none =>
            rw [none_or, ← parsed]
            exact parseFailurePhase_native line
          | some phase => exact notNative
        · rw [inspectMods_eq]
          exact kept _ rfl rfl notNative
  | jvmFatalError =>
    simp only [evidence, CrashEvidence.sourceIsCoherent, Bool.and_eq_true, isNone_iff_eq_none,
      List.isEmpty_iff, map_eq_nil_iff, Bool.or_eq_true] at coherent
    obtain ⟨⟨rfl, rfl⟩, known⟩ := coherent
    have native : phase = none ∨ phase = some .native :=
      known.imp of_decide_eq_true of_decide_eq_true
    have kept : ∀ after : CrashEvidenceBuilder, after.source = .jvmFatalError →
        after.exceptionClass = none → after.suspectedMods = [] →
        (after.failurePhase = none ∨ after.failurePhase = some .native) →
        after.evidence.sourceIsCoherent = true := by
      intro after fatal exceptionClass mods phase
      simp only [evidence, CrashEvidence.sourceIsCoherent, fatal, exceptionClass, mods,
        isNone_none, map_nil, isEmpty_nil, Bool.true_and, Bool.or_eq_true,
        decide_eq_true_eq]
      exact phase
    have framed : phase.or (some .native) = none ∨ phase.or (some .native) = some .native := by
      rcases native with rfl | rfl
      · exact .inr rfl
      · exact .inr rfl
    unfold inspectText
    split
    · exact kept _ rfl rfl rfl native
    · dsimp only
      unfold inspectFatalError
      dsimp only
      split
      · split
        · split
          · exact kept _ rfl rfl rfl framed
          · exact kept _ rfl rfl rfl native
        · exact kept _ rfl rfl rfl native
      · split
        · split
          · exact kept _ rfl rfl rfl framed
          · exact kept _ rfl rfl rfl native
        · exact kept _ rfl rfl rfl native

/-- A run reads the statements of its lines, and stays with its source. -/
theorem foldl_readLine (lines : List (List UInt8))
    (coherent : builder.evidence.sourceIsCoherent = true) :
    (lines.foldl readLine builder).source = builder.source ∧
      (lines.foldl readLine builder).evidence.sourceIsCoherent = true ∧
      (builder.source = .minecraftCrashReport →
        (lines.foldl readLine builder).suspectedMods =
          (textEvents builder.currentFailedModId
            (lines.map fun line => trim (fromUtf8Lossy (line.take maxLineBytes)))).foldl
            applyEvent builder.suspectedMods) := by
  induction lines generalizing builder with
  | nil => exact ⟨rfl, coherent, fun _ => rfl⟩
  | cons line rest ih =>
    rw [foldl_cons, map_cons, textEvents, foldl_append]
    have same : (readLine builder line).source = builder.source := inspectText_source _ _
    obtain ⟨source, kept, mods⟩ :=
      @ih (readLine builder line) (inspectText_coherent _ coherent)
    refine ⟨source.trans same, kept, fun report => ?_⟩
    obtain ⟨stated, current⟩ := inspectText_mods (trim (fromUtf8Lossy (line.take maxLineBytes)))
      (show ({ builder with
        truncated := builder.truncated || decide (maxLineBytes < line.length) } :
          CrashEvidenceBuilder).source = .minecraftCrashReport from report)
    rw [mods (same.trans report)]
    rw [← stated, ← current]
    rfl

end CrashEvidenceBuilder

/-- The evidence that is parsed has the mods of the artifact, fits its source and says something. -/
theorem parseCrashEvidence_eq {source : CrashArtifactKind} {raw : List UInt8}
    {evidence : CrashEvidence} (parsed : parseCrashEvidence source raw = some evidence) :
    evidence.suspectedMods = attributed [] (modEvents source raw) ∧
      evidence.sourceIsCoherent = true ∧ evidence.isEmpty = false := by
  unfold parseCrashEvidence CrashEvidenceBuilder.finish at parsed
  dsimp only at parsed
  split at parsed
  · cases parsed
  rename_i telling
  obtain rfl := Option.some.inj parsed
  have begun : (CrashEvidenceBuilder.new source
      (decide (maxCrashArtifactBytes < raw.length))).evidence.sourceIsCoherent = true := by
    cases source with
    | minecraftCrashReport => rfl
    | jvmFatalError => rfl
  obtain ⟨same, coherent, mods⟩ :=
    CrashEvidenceBuilder.foldl_readLine ((artifactLines raw).take maxLines) begun
  refine ⟨?_, coherent, Bool.eq_false_of_not_eq_true telling⟩
  cases source with
  | minecraftCrashReport =>
    have stated := foldl_applyEvent (textEvents none (artifactTexts raw)) []
    rw [settled, nil_append, map_nil] at stated
    rw [modEvents, ← stated, CrashEvidenceBuilder.evidence]
    exact congrArg _ (mods rfl)
  | jvmFatalError =>
    have fatal := coherent
    rw [CrashEvidence.sourceIsCoherent, CrashEvidenceBuilder.evidence, same] at fatal
    simp only [CrashEvidenceBuilder.new, Bool.and_eq_true, List.isEmpty_iff] at fatal
    exact fatal.1.2

/-! ### Storing what is parsed -/

/-- The texts of evidence pass the checks of what may be public. -/
structure CrashEvidence.Public (evidence : CrashEvidence) : Prop where
  exceptionClass : ∀ name ∈ evidence.exceptionClass, isThrowableClass name.val = true
  modNames : ∀ entry ∈ evidence.suspectedMods, isSafeModName entry.name.val = true
  modVersions : ∀ entry ∈ evidence.suspectedMods, ∀ version ∈ entry.version,
    isSafeModVersion version.val = true
  modules : ∀ frame ∈ evidence.problematicFrame, isSafeNativeModule frame.moduleName.val = true
  symbols : ∀ frame ∈ evidence.problematicFrame, ∀ symbol ∈ frame.symbol,
    isSafeNativeIdentifier symbol.val = true

theorem CrashEvidence.isPublic (evidence : CrashEvidence) : evidence.Public where
  exceptionClass name _ := name.property
  modNames entry _ := entry.name.property
  modVersions _ _ version _ := version.property
  modules frame _ := frame.moduleName.property
  symbols _ _ symbol _ := symbol.property

/-- Evidence that is parsed from an artifact is read back as it is stored exactly if no two of the
mods that the artifact lists, each with the version that it states first, are equal. -/
theorem parseCrashEvidence_storable_iff {source : CrashArtifactKind} {raw : List UInt8}
    {evidence : CrashEvidence} (parsed : parseCrashEvidence source raw = some evidence) :
    (CrashEvidence.deserialize evidence.serialize = some evidence ∧ evidence.Readable ∧
        evidence.Public) ↔
      (attributed [] (modEvents source raw)).Nodup := by
  obtain ⟨mods, coherent, telling⟩ := parseCrashEvidence_eq parsed
  rw [← mods]
  constructor
  · rintro ⟨_, readable, _⟩
    exact readable.distinct
  · intro distinct
    have few : evidence.suspectedMods.length ≤ maxSuspectedMods := by
      rw [mods]
      exact length_attributed [] _
    have readable : evidence.Readable := ⟨few, distinct, coherent, telling⟩
    exact ⟨by rw [evidence.deserialize_serialize, if_pos readable], readable, evidence.isPublic⟩

/-- A report that suspects two mods, and states the version of the second in a list of mods. -/
def listedSuspects : List UInt8 :=
  Bytes.utf8 "Suspected Mods: Foo (foo), Bar (bar)\n| Bar | bar | 1.2 | b.jar |"

theorem parseCrashEvidence_storable_listed :
    ∃ evidence, parseCrashEvidence .minecraftCrashReport listedSuspects = some evidence ∧
      evidence.suspectedMods.map (fun entry => (entry.name.val, entry.version.map (·.val))) =
        [("Foo", none), ("Bar", some "1.2")] ∧
      CrashEvidence.deserialize evidence.serialize = some evidence ∧ evidence.Readable ∧
        evidence.Public := by
  have parsed : (parseCrashEvidence .minecraftCrashReport listedSuspects).any (fun evidence =>
      evidence.suspectedMods.map (fun entry => (entry.name.val, entry.version.map (·.val))) =
        [("Foo", none), ("Bar", some "1.2")]) = true := by
    decide +kernel
  obtain ⟨evidence, parsed, mods⟩ := (Option.any_eq_true _ _).mp parsed
  exact ⟨evidence, parsed, of_decide_eq_true mods,
    (parseCrashEvidence_storable_iff parsed).mpr (by decide +kernel)⟩

/-- A report that suspects two mods of one name. -/
def twoSuspects : List UInt8 := Bytes.utf8 "Suspected Mods: Foo (a), Foo (b)"

/-- The two mods are kept, and the evidence cannot be read back. -/
theorem parseCrashEvidence_unreadable :
    ∃ evidence, parseCrashEvidence .minecraftCrashReport twoSuspects = some evidence ∧
      CrashEvidence.deserialize evidence.serialize = none := by
  have unreadable : (parseCrashEvidence .minecraftCrashReport twoSuspects).any
      (fun evidence => (CrashEvidence.deserialize evidence.serialize).isNone) = true := by
    decide +kernel
  obtain ⟨evidence, parsed, none⟩ := (Option.any_eq_true _ _).mp unreadable
  exact ⟨evidence, parsed, isNone_iff_eq_none.mp none⟩

end Axial.Launch.Crash
