/-
This file is about the view of a log that ends where the log ends: its last bytes, decoded and
redacted line by line. Lines that stand in the view whole are redacted as lines of the log. The
first one may have lost its beginning, and with it what the redactor would have withheld it for.
The file says exactly when the view shows nothing that the redaction of whole lines would not.
-/

import Axial.App.Portable
import Axial.Launch.CrashParser
import Axial.Launch.LogCollector

namespace Axial.App

open Words Axial.Minecraft Axial.Launch Axial.Launch.Crash Fallible List

/-! ### Lines -/

/-- `strip_suffix`, of a carriage return -/
def stripReturn (line : List Char) : List Char :=
  if line.getLast? = some '\r' then line.dropLast else line

/-- The lines of a text after which a line feed comes. -/
def endedLines (text : List Char) : List String :=
  (text.splitOn '\n').map fun line => String.ofList (stripReturn line)

/-- `str::lines`: what comes after the last line feed is a line if it is not empty. -/
def lines (text : List Char) : List String :=
  let parts := text.splitOn '\n'
  parts.dropLast.map (fun line => String.ofList (stripReturn line)) ++
    (parts.getLast?.filter (· ≠ [])).toList.map String.ofList

/-- The lines of a file, decoded. -/
def fileLines (bytes : List UInt8) : List String := lines (lossyChars none bytes)

/-! ### The view -/

inductive ResourceError where
  | invalidName
  | busy
  | notFound
  | conflict
  | files

structure InstanceLogTailResponse where
  name : String
  size : Nat
  truncated : Bool
  text : String

abbrev logLimit : Nat := 128 * 1024

def logName (unicode : Unicode) (name : String) :
    Except ResourceError (PortableFileName unicode) :=
  match PortableFileName.newExact unicode name with
  | some name =>
    if endsWith name.key.value ".log" || endsWith name.key.value ".log.gz" then .ok name
    else .error .invalidName
  | none => .error .invalidName

/-- The bytes that are read: the last ones, as many as the limit allows. -/
def logWindow (bytes : List UInt8) : List UInt8 :=
  (bytes.drop (bytes.length - logLimit)).take (min bytes.length logLimit)

def redactor : Redactor := .new []

/-- Lines joined by line feeds. -/
def joinLines (shown : List String) : String :=
  String.ofList (joined '\n' (shown.map String.toList))

/-- What the instance's directory shows to a reader: whether it is admitted, what the file of
a name holds, and whether the directory is still the same afterwards. -/
structure LogDirectory (unicode : Unicode) where
  admitRead : Except ResourceError Unit
  read : PortableFileName unicode → Except ResourceError (List UInt8)
  validateCurrent : Except ResourceError Unit

/-- `ResourceService::log` -/
def log {unicode : Unicode} (directory : LogDirectory unicode) (name : String) :
    Except ResourceError InstanceLogTailResponse := do
  let name ← logName unicode name
  directory.admitRead
  let bytes ← directory.read name
  let text := joinLines ((fileLines (logWindow bytes)).map redactor.redactLine)
  directory.validateCurrent
  return {
    name := name.value
    size := bytes.length
    truncated := logLimit < bytes.length
    text }

/-! ### Decoding across line feeds -/

/-- A character that is begun goes on with a byte that is not of ASCII, and ends up as a character
that is not of ASCII either. -/
structure Continues (begun : PartialChar) : Prop where
  low : 0x80 ≤ begun.low.toNat
  next : 2 ≤ begun.code * 64 + (begun.low.toNat - 0x80)
  last : begun.missing = 1 → 2 ≤ begun.code

instance (begun : PartialChar) : Decidable (Continues begun) :=
  decidable_of_iff (0x80 ≤ begun.low.toNat ∧ 2 ≤ begun.code * 64 + (begun.low.toNat - 0x80) ∧
    (begun.missing = 1 → 2 ≤ begun.code))
    ⟨fun ⟨low, next, last⟩ => ⟨low, next, last⟩, fun ⟨low, next, last⟩ => ⟨low, next, last⟩⟩

variable {byte : UInt8}

theorem continues_leadByte : ∀ begun ∈ leadByte byte, Continues begun := by
  have all : ∀ number < 256, (leadByte (UInt8.ofNat number)).all (Continues ·) = true := by
    decide +kernel
  intro begun leads
  have continues := all byte.toNat byte.toNat_lt
  rw [UInt8.ofNat_toNat, Option.mem_def.mp leads] at continues
  exact of_decide_eq_true continues

theorem ofNat_ne_lineFeed {code : Nat} (high : 0x80 ≤ code) : Char.ofNat code ≠ '\n' := by
  intro same
  have number := congrArg Char.toNat same
  rw [Char.toNat_ofNat] at number
  split at number
  · rw [number] at high
    exact absurd high (by decide)
  · exact absurd number (by decide)

variable {begun : Option PartialChar}

/-- A line feed ends what is begun. -/
theorem lossyStep_newline (continues : ∀ part ∈ begun, Continues part) :
    lossyStep begun newline = (lossyChars begun [] ++ ['\n'], none) := by
  cases begun with
  | none => rfl
  | some part =>
    have low := (continues part rfl).low
    have outside : ¬(part.low ≤ newline ∧ newline ≤ part.high) := by
      rintro ⟨above, -⟩
      have := UInt8.le_iff_toNat_le.mp above
      have : newline.toNat = 10 := rfl
      omega
    rw [lossyStep, if_neg outside]
    rfl

theorem lossyStart_of_ne (other : byte ≠ newline) :
    '\n' ∉ (lossyStart byte).1 ∧ ∀ part ∈ (lossyStart byte).2, Continues part := by
  unfold lossyStart
  split
  · rename_i small
    refine ⟨fun member => other ?_, nofun⟩
    have below : byte.toNat < 0x80 := UInt8.lt_iff_toNat_lt.mp small
    have valid : byte.toNat.isValidChar := .inl (by omega)
    have code : (10 : Nat) = (Char.ofNat byte.toNat).toNat :=
      congrArg Char.toNat (mem_singleton.mp member)
    rw [Char.toNat_ofNat, if_pos valid] at code
    exact UInt8.toNat_inj.mp code.symm
  · split
    · rename_i begun leads
      exact ⟨not_mem_nil, fun part member => continues_leadByte part
        (by rw [leads]; exact member)⟩
    · exact ⟨by decide, nofun⟩

theorem lossyStep_of_ne (continues : ∀ part ∈ begun, Continues part) (other : byte ≠ newline) :
    '\n' ∉ (lossyStep begun byte).1 ∧ ∀ part ∈ (lossyStep begun byte).2, Continues part := by
  cases begun with
  | none => exact lossyStart_of_ne other
  | some begun =>
    obtain ⟨low, next, last⟩ := continues begun rfl
    rw [lossyStep]
    split
    · rename_i inside
      have above := UInt8.le_iff_toNat_le.mp inside.1
      dsimp only
      split
      · rename_i single
        have code := last single
        refine ⟨fun member => ofNat_ne_lineFeed ?_ (mem_singleton.mp member).symm, nofun⟩
        omega
      · refine ⟨not_mem_nil, fun part member => ?_⟩
        rw [← Option.some.inj member]
        refine ⟨le_rfl, ?_, fun _ => ?_⟩
        · show 2 ≤ (begun.code * 64 + (byte.toNat - 0x80)) * 64 + (0x80 - 0x80)
          omega
        · show 2 ≤ begun.code * 64 + (byte.toNat - 0x80)
          omega
    · obtain ⟨plain, starts⟩ := lossyStart_of_ne other
      exact ⟨not_mem_cons_of_ne_of_not_mem (by decide) plain, starts⟩

theorem continues_none : ∀ part ∈ (none : Option PartialChar), Continues part := by
  intro part member
  cases member

variable {bytes : List UInt8}

/-- Bytes without a line feed are decoded without one. -/
theorem lineFeed_notMem_lossyChars (continues : ∀ part ∈ begun, Continues part)
    (plain : newline ∉ bytes) : '\n' ∉ lossyChars begun bytes := by
  induction bytes generalizing begun with
  | nil =>
    cases begun with
    | none => exact not_mem_nil
    | some => exact (by decide : '\n' ∉ [replacementChar])
  | cons byte rest ih =>
    rw [mem_cons, not_or] at plain
    obtain ⟨here, after⟩ := lossyStep_of_ne continues (Ne.symm plain.1)
    rw [lossyChars, mem_append, not_or]
    exact ⟨here, ih after plain.2⟩

/-- What comes before a line feed and what comes after it are decoded apart. -/
theorem lossyChars_append (first rest : List UInt8) (continues : ∀ part ∈ begun, Continues part) :
    lossyChars begun (first ++ newline :: rest) =
      lossyChars begun first ++ '\n' :: lossyChars none rest := by
  induction first generalizing begun with
  | nil =>
    rw [nil_append, lossyChars, lossyStep_newline continues, append_assoc]
    rfl
  | cons byte first ih =>
    have after : ∀ part ∈ (lossyStep begun byte).2, Continues part := by
      by_cases feed : byte = newline
      · rw [feed, lossyStep_newline continues]
        nofun
      · exact (lossyStep_of_ne continues feed).2
    rw [cons_append, lossyChars, ih after, lossyChars, append_assoc]

/-! ### Lines of what is put together -/

theorem lines_append (first rest : List Char) :
    lines (first ++ '\n' :: rest) = endedLines first ++ lines rest := by
  have more : rest.splitOn '\n' ≠ [] := splitOn_ne_nil _ _
  rw [lines, splitOn_append_cons_self, dropLast_append_of_ne_nil more,
    getLast?_append_of_ne_nil _ more, map_append, append_assoc]
  rfl

theorem lines_nil : lines [] = [] := by
  rw [lines, splitOn_nil]
  rfl

variable {text : List Char}

theorem length_lines_le (plain : '\n' ∉ text) : (lines text).length ≤ 1 := by
  rw [lines, splitOn_eq_singleton plain]
  simp only [dropLast_singleton, map_nil, nil_append, length_map]
  exact Option.length_toList_le

theorem length_endedLines (plain : '\n' ∉ text) : (endedLines text).length = 1 := by
  rw [endedLines, splitOn_eq_singleton plain]
  rfl

theorem fileLines_append (first rest : List UInt8) :
    fileLines (first ++ newline :: rest) = fileLines (first ++ [newline]) ++ fileLines rest := by
  rw [fileLines, fileLines, lossyChars_append first rest continues_none,
    lossyChars_append first [] continues_none, lines_append, lines_append]
  show _ = (_ ++ lines []) ++ _
  rw [lines_nil, List.append_nil]
  rfl

/-! ### The first line of a view -/

/-- The bytes up to the first line feed, with it. -/
def firstLine (window : List UInt8) : List UInt8 :=
  window.take ((window.takeWhile (· ≠ newline)).length + 1)

theorem firstLine_append {part : List UInt8} (plain : newline ∉ part) (rest : List UInt8) :
    firstLine (part ++ newline :: rest) = part ++ [newline] := by
  have before : (part ++ newline :: rest).takeWhile (· ≠ newline) = part := by
    rw [takeWhile_append_of_pos fun byte member =>
      decide_eq_true (ne_of_mem_of_not_mem member plain)]
    simp
  rw [firstLine, before, take_length_add_append, take_succ_cons, take_zero]

theorem firstLine_cases (window : List UInt8) :
    newline ∉ window ∧ firstLine window = window ∨
      ∃ part rest, newline ∉ part ∧ window = part ++ newline :: rest := by
  have plain : newline ∉ window.takeWhile (· ≠ newline) := fun member => by
    simpa using mem_takeWhile_imp member
  have split := takeWhile_append_dropWhile (p := (· ≠ newline)) (l := window)
  cases after : window.dropWhile (· ≠ newline) with
  | nil =>
    rw [after, List.append_nil] at split
    rw [firstLine, split]
    rw [split] at plain
    exact .inl ⟨plain, take_of_length_le (Nat.le_succ _)⟩
  | cons byte rest =>
    have feed := head?_dropWhile_not (· ≠ newline) window
    rw [after] at feed
    have same : byte = newline := by simpa using feed
    rw [after, same] at split
    exact .inr ⟨_, rest, plain, split.symm⟩

theorem length_fileLines_firstLine (window : List UInt8) :
    (fileLines (firstLine window)).length ≤ 1 := by
  rcases firstLine_cases window with ⟨plain, whole⟩ | ⟨part, rest, plain, rfl⟩
  · rw [whole]
    exact length_lines_le (lineFeed_notMem_lossyChars continues_none plain)
  · rw [firstLine_append plain, fileLines, lossyChars_append part [] continues_none, lines_append,
      length_append, length_endedLines (lineFeed_notMem_lossyChars continues_none plain)]
    exact le_rfl

/-- Behind its first line, a view shows the lines that the file has there. -/
theorem fileLines_view (before window : List UInt8) :
    ∃ rest, fileLines window = fileLines (firstLine window) ++ rest ∧
      fileLines (before ++ window) = fileLines (before ++ firstLine window) ++ rest := by
  rcases firstLine_cases window with ⟨-, whole⟩ | ⟨part, rest, plain, rfl⟩
  · exact ⟨[], by rw [whole, List.append_nil], by rw [whole, List.append_nil]⟩
  · refine ⟨fileLines rest, ?_, ?_⟩
    · rw [firstLine_append plain, fileLines_append]
    · rw [firstLine_append plain, ← append_assoc, ← append_assoc, fileLines_append]

/-! ### What the redactor shows -/

theorem lineFeed_notMem_redactLine (line : String) : '\n' ∉ (redactor.redactLine line).toList := by
  unfold Redactor.redactLine
  split
  · simp [oversizedLine]
  · split
    · simp [redactedLine]
    · rw [String.toList_ofList, shown_eq]
      intro member
      rcases Redactor.mem_squeeze (mem_of_mem_take member) with same | ⟨-, plain⟩
      · exact absurd same (by decide)
      · exact absurd plain (by decide)

/-- Lines are told apart in a text that is not empty. -/
theorem joinLines_injective {first second : List String}
    (firstPlain : ∀ line ∈ first, '\n' ∉ line.toList)
    (secondPlain : ∀ line ∈ second, '\n' ∉ line.toList) (present : joinLines first ≠ "")
    (same : joinLines first = joinLines second) : first = second := by
  have split (shown : List String) (plain : ∀ line ∈ shown, '\n' ∉ line.toList)
      (present : joinLines shown ≠ "") :
      (joinLines shown).toList.splitOn '\n' = shown.map String.toList := by
    rw [joinLines, String.toList_ofList, joined, splitOn_intercalate]
    · intro line member
      obtain ⟨text, there, rfl⟩ := mem_map.mp member
      exact plain text there
    · intro none
      rw [joinLines, none] at present
      exact present rfl
  have lists : first.map String.toList = second.map String.toList := by
    rw [← split first firstPlain present, same, split second secondPlain (same ▸ present)]
  exact map_injective_iff.mpr (fun _ _ => String.toList_inj.mp) lists

/-- The text is made of the redactions of whole lines of the file, in their order. -/
def ShowsWholeLines (bytes : List UInt8) (text : String) : Prop :=
  ∃ shown, text = joinLines shown ∧
    shown.Sublist ((fileLines bytes).map redactor.redactLine)

/-- The text is made of the redactions of the last lines of the file, each of them whole. -/
def ShowsLastLines (bytes : List UInt8) (text : String) : Prop :=
  ∃ shown, text = joinLines shown ∧ shown <:+ (fileLines bytes).map redactor.redactLine

/-! ### What a view shows -/

/-- The bytes of a log that come before the view. -/
def beforeWindow (bytes : List UInt8) : List UInt8 := bytes.take (bytes.length - logLimit)

def viewText (bytes : List UInt8) : String :=
  joinLines ((fileLines (logWindow bytes)).map redactor.redactLine)

/-- The first line of the view, or what is left of it. -/
def cutLine (bytes : List UInt8) : List String := fileLines (firstLine (logWindow bytes))

/-- The lines of the file up to the one that the view begins in, and with it. -/
def linesToCut (bytes : List UInt8) : List String :=
  fileLines (beforeWindow bytes ++ firstLine (logWindow bytes))

theorem beforeWindow_append (bytes : List UInt8) :
    beforeWindow bytes ++ logWindow bytes = bytes := by
  have all : (bytes.drop (bytes.length - logLimit)).length ≤ min bytes.length logLimit := by
    rw [length_drop]
    omega
  rw [beforeWindow, logWindow, take_of_length_le all, take_append_drop]

/-- What is shown is, behind the first line, what the redaction of the whole file shows there. -/
theorem view_eq (bytes : List UInt8) : ∃ rest,
    (fileLines (logWindow bytes)).map redactor.redactLine =
      (cutLine bytes).map redactor.redactLine ++ rest ∧
    (fileLines bytes).map redactor.redactLine =
      (linesToCut bytes).map redactor.redactLine ++ rest := by
  obtain ⟨rest, window, whole⟩ := fileLines_view (beforeWindow bytes) (logWindow bytes)
  rw [beforeWindow_append] at whole
  exact ⟨rest.map redactor.redactLine, by rw [window, map_append]; rfl,
    by rw [whole, map_append]; rfl⟩

/-- Lines that a text which is not empty is made of are those that were joined to it. -/
theorem eq_of_viewText {shown : List String} (present : viewText bytes ≠ "")
    (from_file : ∀ line ∈ shown,
      line ∈ (fileLines bytes).map redactor.redactLine) (same : viewText bytes = joinLines shown) :
    (fileLines (logWindow bytes)).map redactor.redactLine = shown := by
  refine joinLines_injective (fun line member => ?_) (fun line member => ?_) present same
  · obtain ⟨text, -, rfl⟩ := mem_map.mp member
    exact lineFeed_notMem_redactLine text
  · obtain ⟨text, -, rfl⟩ := mem_map.mp (from_file line member)
    exact lineFeed_notMem_redactLine text

theorem showsWholeLines_iff (bytes : List UInt8) :
    ShowsWholeLines bytes (viewText bytes) ↔ viewText bytes = "" ∨
      ∀ line ∈ cutLine bytes, redactor.redactLine line ∈
        (linesToCut bytes).map redactor.redactLine := by
  obtain ⟨rest, window, whole⟩ := view_eq bytes
  have sublist : ((fileLines (logWindow bytes)).map redactor.redactLine).Sublist
      ((fileLines bytes).map redactor.redactLine) ↔ ∀ line ∈ cutLine bytes,
        redactor.redactLine line ∈ (linesToCut bytes).map redactor.redactLine := by
    rw [window, whole, append_sublist_append_right]
    have short : (cutLine bytes).length ≤ 1 := length_fileLines_firstLine (logWindow bytes)
    generalize cutLine bytes = cut at short ⊢
    match cut, short with
    | [], _ => simp
    | [line], _ => simp [singleton_sublist]
  rw [← sublist]
  constructor
  · rintro ⟨shown, same, sublist⟩
    by_cases present : viewText bytes = ""
    · exact .inl present
    · rw [eq_of_viewText present (fun line member => sublist.subset member) same]
      exact .inr sublist
  · rintro (empty | sublist)
    · exact ⟨[], empty, nil_sublist _⟩
    · exact ⟨_, rfl, sublist⟩

theorem showsLastLines_iff (bytes : List UInt8) :
    ShowsLastLines bytes (viewText bytes) ↔ viewText bytes = "" ∨
      ∀ line ∈ cutLine bytes, (linesToCut bytes).getLast?.map redactor.redactLine =
        some (redactor.redactLine line) := by
  obtain ⟨rest, window, whole⟩ := view_eq bytes
  have suffix : (fileLines (logWindow bytes)).map redactor.redactLine <:+
      (fileLines bytes).map redactor.redactLine ↔ ∀ line ∈ cutLine bytes,
        (linesToCut bytes).getLast?.map redactor.redactLine =
          some (redactor.redactLine line) := by
    rw [window, whole, suffix_append_self_iff]
    have short : (cutLine bytes).length ≤ 1 := length_fileLines_firstLine (logWindow bytes)
    generalize cutLine bytes = cut at short ⊢
    match cut, short with
    | [], _ => simp
    | [line], _ => 
      rw [map_singleton, singleton_suffix_iff_getLast?_eq_some, getLast?_map]
      simp
  rw [← suffix]
  constructor
  · rintro ⟨shown, same, suffix⟩
    by_cases present : viewText bytes = ""
    · exact .inl present
    · rw [eq_of_viewText present (fun line member => suffix.subset member) same]
      exact .inr suffix
  · rintro (empty | suffix)
    · exact ⟨[], empty, List.nil_suffix⟩
    · exact ⟨_, rfl, suffix⟩

/-- A view that begins where a line begins shows the last lines of the file. -/
theorem showsLastLines_of_lineStart
    (start : beforeWindow bytes = [] ∨ (beforeWindow bytes).getLast? = some newline) :
    ShowsLastLines bytes (viewText bytes) := by
  have suffix : fileLines (logWindow bytes) <:+ fileLines bytes := by
    have whole := beforeWindow_append bytes
    rcases start with none | feed
    · rw [none, nil_append] at whole
      rw [whole]
    · obtain ⟨front, split⟩ := getLast?_eq_some_iff.mp feed
      rw [split, append_assoc, singleton_append] at whole
      have apart := fileLines_append front (logWindow bytes)
      rw [whole] at apart
      rw [apart]
      exact suffix_append _ _
  exact ⟨_, rfl, suffix.map _⟩

theorem log_eq_ok {unicode : Unicode} {directory : LogDirectory unicode} {requested : String}
    {response : InstanceLogTailResponse} :
    log directory requested = .ok response ↔ ∃ name bytes, logName unicode requested = .ok name ∧
      directory.admitRead = .ok () ∧ directory.read name = .ok bytes ∧
      directory.validateCurrent = .ok () ∧ response = {
        name := name.value
        size := bytes.length
        truncated := logLimit < bytes.length
        text := viewText bytes } := by
  simp only [log, bind_eq_ok, pure_eq_ok]
  constructor
  · rintro ⟨name, named, ⟨⟩, admitted, bytes, read, ⟨⟩, current, rfl⟩
    exact ⟨name, bytes, named, admitted, read, current, rfl⟩
  · rintro ⟨name, bytes, named, admitted, read, current, rfl⟩
    exact ⟨name, named, (), admitted, bytes, read, (), current, rfl⟩

/-- The text that is returned for a log is made of redactions of whole lines, in their order,
exactly if what is shown of its first line is the redaction of a whole line that ends there or
before, or nothing is shown. Each line is shown as the redaction of the line that it stands in
exactly if the first one is; which it is where the view begins with a line. -/
theorem log_showsWholeLines_iff {unicode : Unicode} (directory : LogDirectory unicode)
    {requested : String} {name : PortableFileName unicode} {bytes : List UInt8}
    {response : InstanceLogTailResponse} (named : logName unicode requested = .ok name)
    (read : directory.read name = .ok bytes) (shown : log directory requested = .ok response) :
    (ShowsWholeLines bytes response.text ↔ response.text = "" ∨ ∀ line ∈ cutLine bytes,
      redactor.redactLine line ∈ (linesToCut bytes).map redactor.redactLine) ∧
    (ShowsLastLines bytes response.text ↔ response.text = "" ∨ ∀ line ∈ cutLine bytes,
      (linesToCut bytes).getLast?.map redactor.redactLine = some (redactor.redactLine line)) ∧
    (beforeWindow bytes = [] ∨ (beforeWindow bytes).getLast? = some newline →
      ShowsLastLines bytes response.text) := by
  obtain ⟨other, content, isNamed, -, isRead, -, rfl⟩ := log_eq_ok.mp shown
  rw [named, Except.ok.injEq] at isNamed
  subst isNamed
  rw [read, Except.ok.injEq] at isRead
  subst isRead
  exact ⟨showsWholeLines_iff bytes, showsLastLines_iff bytes, showsLastLines_of_lineStart⟩

theorem latestLog_named : ∃ name, logName Unicode.plain "latest.log" = .ok name := by
  have isNamed : (logName Unicode.plain "latest.log").toBool = true := by decide
  cases made : logName Unicode.plain "latest.log" with
  | ok name => exact ⟨name, rfl⟩
  | error error =>
    rw [made] at isNamed
    cases isNamed

/-- Seven letters that begin the view, whatever stands before them. -/
def cutPart : List UInt8 := Bytes.utf8 "hunter2"

/-- A log of which only the beginning differs, and is not in the view. -/
def cutAfter (before : List UInt8) : List UInt8 :=
  before ++ (cutPart ++ newline :: List.replicate 131064 newline)

theorem cutAfter_window (before : List UInt8) :
    logWindow (cutAfter before) = cutPart ++ newline :: List.replicate 131064 newline := by
  have part : cutPart.length = 7 := by decide
  have window : (cutPart ++ newline :: List.replicate 131064 newline).length = logLimit := by
    rw [length_append, length_cons, length_replicate, part]
  have length : (cutAfter before).length - logLimit = before.length := by
    rw [cutAfter, length_append, window, Nat.add_sub_cancel]
  rw [logWindow, length, cutAfter, drop_left]
  refine take_of_length_le ?_
  rw [window, length_append, window]
  omega

theorem cutAfter_before (before : List UInt8) : beforeWindow (cutAfter before) = before := by
  have whole := beforeWindow_append (cutAfter before)
  rw [cutAfter_window] at whole
  exact append_cancel_right whole

def directoryAfter (before : List UInt8) : LogDirectory Unicode.plain :=
  ⟨.ok (), fun _ => .ok (cutAfter before), .ok ()⟩

/-- Where the view is cut after a line, whole lines are shown. -/
theorem log_showsWholeLines_iff_cut :
    let before := Bytes.utf8 "Saving chunks\r\n"
    beforeWindow (cutAfter before) = before ∧
      ∃ response, log (directoryAfter before) "latest.log" = .ok response ∧
        ShowsWholeLines (cutAfter before) response.text ∧
        ShowsLastLines (cutAfter before) response.text := by
  intro before
  have cut : beforeWindow (cutAfter before) = before := cutAfter_before before
  obtain ⟨name, named⟩ := latestLog_named
  have shown : log (directoryAfter before) "latest.log" = .ok _ :=
    log_eq_ok.mpr ⟨name, cutAfter before, named, rfl, rfl, rfl, rfl⟩
  obtain ⟨whole, last, lineStart⟩ := log_showsWholeLines_iff (directoryAfter before) named rfl shown
  have lasts := lineStart (.inr (by rw [cut]; decide))
  refine ⟨cut, _, shown, whole.mpr ?_, lasts⟩
  refine (last.mp lasts).imp_right fun alike line inside => ?_
  obtain ⟨other, ends, same⟩ := Option.map_eq_some_iff.mp (alike line inside)
  exact same ▸ mem_map_of_mem (mem_of_getLast? ends)

theorem joinLines_cons_ne_empty {line : String} (present : line ≠ "") (rest : List String) :
    joinLines (line :: rest) ≠ "" := by
  intro none
  have chars : joined '\n' ((line :: rest).map String.toList) = [] := by
    rw [← String.toList_ofList (l := joined _ _), ← joinLines, none, String.toList_empty]
  cases rest with
  | nil =>
    rw [map_singleton, joined_singleton] at chars
    exact present (String.toList_eq_nil_iff.mp chars)
  | cons next rest =>
    rw [map_cons, joined_cons (by simp)] at chars
    exact absurd (append_eq_nil_iff.mp chars).2 (cons_ne_nil _ _)

/-- The beginning of a line that is withheld. -/
def cutBefore : List UInt8 := Bytes.utf8 "secret code: "

def cutLog : List UInt8 := cutAfter cutBefore

def cutDirectory : LogDirectory Unicode.plain := directoryAfter cutBefore

/-- The end of a line that is withheld is shown. -/
theorem log_shows_rest_of_withheld :
    ∃ response, log cutDirectory "latest.log" = .ok response ∧
      ¬ShowsWholeLines cutLog response.text := by
  have plain : newline ∉ cutPart := by decide
  have cut : cutLine cutLog = ["hunter2"] := by
    rw [cutLine, cutLog, cutAfter_window, firstLine_append plain]
    decide
  have toCut : linesToCut cutLog = ["secret code: hunter2"] := by
    rw [linesToCut, cutLog, cutAfter_before, cutAfter_window, firstLine_append plain]
    decide
  obtain ⟨name, named⟩ := latestLog_named
  refine ⟨_, log_eq_ok.mpr ⟨name, cutLog, named, rfl, rfl, rfl, rfl⟩, ?_⟩
  rw [showsWholeLines_iff, cut, toCut, not_or]
  constructor
  · obtain ⟨rest, window, -⟩ := view_eq cutLog
    have first : redactor.redactLine "hunter2" ≠ "" := by decide
    rw [viewText, window, cut]
    exact joinLines_cons_ne_empty first rest
  · decide

end Axial.App
