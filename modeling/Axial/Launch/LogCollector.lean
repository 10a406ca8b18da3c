/-
This file embeds the collector of launch output: the bytes of two streams are assembled into
lines, each complete line is redacted and published, and a bounded history of what has been
published is kept. In a run in which every complete line that is not withheld is presentable,
every published text is a marker or clean.
-/

import Axial.Library.History
import Axial.Launch.Redaction

namespace Axial.Launch

open Bytes History List

/-! ### The collector -/

abbrev maxLogEntries : Nat := 2000
abbrev maxLogHistoryBytes : Nat := 512 * 1024
abbrev maxOutputChunkBytes : Nat := 8 * 1024

inductive LogStream where
  | stdout
  | stderr
  deriving DecidableEq

structure LogEntry where
  sequence : Nat
  source : LogStream
  text : String
  truncated : Bool
  deriving DecidableEq

structure PendingLine where
  bytes : List UInt8
  discarding : Bool
  finished : Bool

structure LogCollector where
  redactor : Redactor
  stdout : PendingLine
  stderr : PendingLine
  history : List LogEntry
  historyBytes : Nat
  nextSequence : Nat
  droppedEntries : Nat

def newline : UInt8 := 10

namespace LogCollector

def new (secrets : List String) : LogCollector :=
  ⟨.new secrets, ⟨[], false, false⟩, ⟨[], false, false⟩, [], 0, 1, 0⟩

def pending (collector : LogCollector) : LogStream → PendingLine
  | .stdout => collector.stdout
  | .stderr => collector.stderr

def setPending (collector : LogCollector) (pending : PendingLine) : LogStream → LogCollector
  | .stdout => { collector with stdout := pending }
  | .stderr => { collector with stderr := pending }

/-- The loop that drops the oldest entries, with their bytes and their number. -/
def dropOldest : List LogEntry → Nat → Nat → List LogEntry × Nat × Nat
  | [], bytes, dropped => ([], bytes, dropped)
  | entry :: rest, bytes, dropped =>
    if maxLogEntries < rest.length + 1 ∨ maxLogHistoryBytes < bytes then
      dropOldest rest (bytes - entry.text.utf8ByteSize) (dropped + 1)
    else (entry :: rest, bytes, dropped)

def publish (source : LogStream) (text : String) (truncated : Bool) (collector : LogCollector) :
    LogEntry × LogCollector :=
  let entry : LogEntry := ⟨collector.nextSequence, source, text, truncated⟩
  let (history, historyBytes, droppedEntries) := dropOldest (collector.history ++ [entry])
    (collector.historyBytes + text.utf8ByteSize) collector.droppedEntries
  (entry, { collector with
    nextSequence := collector.nextSequence + 1, history, historyBytes, droppedEntries })

/-- Whether the text of a complete line is cut. -/
def cuts (bytes : List UInt8) : Bool :=
  (fromUtf8 bytes).any fun raw => decide (maxLogLineChars < raw.toList.length)

def completeLine (stream : LogStream) (collector : LogCollector) :
    Option LogEntry × LogCollector :=
  let pending := collector.pending stream
  if pending.discarding then
    (none, collector.setPending { pending with discarding := false, bytes := [] } stream)
  else if pending.bytes.isEmpty then (none, collector)
  else
    let taken := collector.setPending { pending with bytes := [] } stream
    let (entry, after) := taken.publish stream (taken.redactor.redactBytes pending.bytes)
      (cuts pending.bytes)
    (some entry, after)

/-- The loop of `push`. -/
def pushBytes (stream : LogStream) : List UInt8 → LogCollector → List LogEntry × LogCollector
  | [], collector => ([], collector)
  | byte :: rest, collector =>
    if byte = newline then
      let (entry, after) := collector.completeLine stream
      let (emitted, last) := pushBytes stream rest after
      (entry.toList ++ emitted, last)
    else
      let pending := collector.pending stream
      if pending.discarding then pushBytes stream rest collector
      else if pending.bytes.length = maxRawLineBytes then
        let taken := collector.setPending { pending with bytes := [], discarding := true } stream
        let (entry, after) := taken.publish stream oversizedLine true
        let (emitted, last) := pushBytes stream rest after
        (entry :: emitted, last)
      else
        pushBytes stream rest
          (collector.setPending { pending with bytes := pending.bytes ++ [byte] } stream)

def push (stream : LogStream) (bytes : List UInt8) (collector : LogCollector) :
    List LogEntry × LogCollector :=
  let pending := collector.pending stream
  if pending.finished then ([], collector)
  else if maxOutputChunkBytes < bytes.length then
    let discarding := !(bytes.getLast? = some newline : Bool)
    let (entry, after) := (collector.setPending { pending with bytes := [], discarding } stream
      ).publish stream oversizedLine true
    ([entry], after)
  else pushBytes stream bytes collector

def finishStream (stream : LogStream) (collector : LogCollector) :
    List LogEntry × LogCollector :=
  if (collector.pending stream).finished then ([], collector)
  else
    let (entry, after) := collector.completeLine stream
    (entry.toList, after.setPending { after.pending stream with finished := true } stream)

end LogCollector

/-! ### The lines of a stream -/

namespace PendingLine

/-- The line that a line feed or the end of the stream completes. -/
def line (pending : PendingLine) : Option (List UInt8) :=
  if pending.discarding ∨ pending.bytes.isEmpty then none else some pending.bytes

/-- The lines that are completed by bytes that are taken in. -/
def lines : PendingLine → List UInt8 → List (List UInt8)
  | _, [] => []
  | pending, byte :: rest =>
    if byte = newline then
      pending.line.toList ++ lines { pending with discarding := false, bytes := [] } rest
    else if pending.discarding then lines pending rest
    else if pending.bytes.length = maxRawLineBytes then
      lines { pending with bytes := [], discarding := true } rest
    else lines { pending with bytes := pending.bytes ++ [byte] } rest

end PendingLine

inductive LogAction where
  | push (stream : LogStream) (bytes : List UInt8)
  | finishStream (stream : LogStream)

def LogCollector.perform : LogAction → LogCollector → LogCollector × List LogEntry
  | .push stream bytes, collector => (collector.push stream bytes).swap
  | .finishStream stream, collector => (collector.finishStream stream).swap

/-- The lines that an action completes. -/
def LogAction.lines (collector : LogCollector) : LogAction → List (List UInt8)
  | .push stream bytes =>
    if (collector.pending stream).finished ∨ maxOutputChunkBytes < bytes.length then []
    else (collector.pending stream).lines bytes
  | .finishStream stream =>
    if (collector.pending stream).finished then [] else (collector.pending stream).line.toList

/-! ### What is published -/

namespace LogCollector

section Frames

variable (collector : LogCollector) (pending : PendingLine) (stream : LogStream)

@[simp] theorem setPending_pending :
    (collector.setPending pending stream).pending stream = pending := by
  cases stream with
  | stdout => rfl
  | stderr => rfl

@[simp] theorem setPending_redactor :
    (collector.setPending pending stream).redactor = collector.redactor := by
  cases stream with
  | stdout => rfl
  | stderr => rfl

@[simp] theorem setPending_history :
    (collector.setPending pending stream).history = collector.history := by
  cases stream with
  | stdout => rfl
  | stderr => rfl

variable (text : String) (truncated : Bool)

@[simp] theorem publish_text : (collector.publish stream text truncated).1.text = text := rfl

@[simp] theorem publish_redactor :
    (collector.publish stream text truncated).2.redactor = collector.redactor := rfl

@[simp] theorem publish_pending (other : LogStream) :
    (collector.publish stream text truncated).2.pending other = collector.pending other := by
  cases other with
  | stdout => rfl
  | stderr => rfl

end Frames

theorem mem_dropOldest {entries : List LogEntry} {bytes dropped : Nat} {entry : LogEntry}
    (member : entry ∈ (dropOldest entries bytes dropped).1) : entry ∈ entries := by
  induction entries generalizing bytes dropped with
  | nil => exact member
  | cons first rest ih =>
    rw [dropOldest] at member
    split at member
    · exact mem_cons_of_mem _ (ih member)
    · exact member

/-- All texts of the history satisfy a predicate. -/
def Keeps (good : String → Prop) (collector : LogCollector) : Prop :=
  ∀ entry ∈ collector.history, good entry.text

theorem Keeps.publish {good : String → Prop} {collector : LogCollector}
    (keeps : collector.Keeps good) {text : String} (isGood : good text) (stream : LogStream)
    (truncated : Bool) : (collector.publish stream text truncated).2.Keeps good := by
  intro entry member
  rcases mem_append.mp (mem_dropOldest member) with earlier | new
  · exact keeps entry earlier
  · rw [mem_singleton.mp new]
    exact isGood

theorem Keeps.setPending {good : String → Prop} {collector : LogCollector}
    (keeps : collector.Keeps good) (pending : PendingLine) (stream : LogStream) :
    (collector.setPending pending stream).Keeps good := by
  intro entry member
  rw [setPending_history] at member
  exact keeps entry member

variable {good : String → Prop} {collector : LogCollector} {stream : LogStream}

/-- What a step publishes and keeps is good, and the redactor stays. -/
structure Publishes (good : String → Prop) (collector : LogCollector)
    (emitted : List LogEntry) (after : LogCollector) : Prop where
  emitted : ∀ entry ∈ emitted, good entry.text
  keeps : after.Keeps good
  redactor : after.redactor = collector.redactor

theorem completeLine_publishes (keeps : collector.Keeps good)
    (lines : ∀ line ∈ (collector.pending stream).line, good (collector.redactor.redactBytes line)) :
    Publishes good collector (collector.completeLine stream).1.toList
      (collector.completeLine stream).2 ∧
    (collector.completeLine stream).2.pending stream =
      { collector.pending stream with discarding := false, bytes := [] } := by
  unfold completeLine
  dsimp only
  split
  · exact ⟨⟨nofun, keeps.setPending _ _, setPending_redactor _ _ _⟩, setPending_pending _ _ _⟩
  · rename_i kept
    split
    · rename_i empty
      refine ⟨⟨nofun, keeps, rfl⟩, ?_⟩
      rw [List.isEmpty_iff] at empty
      cases pending : collector.pending stream with
      | mk bytes discarding finished =>
        rw [pending] at kept empty
        simp only [Bool.not_eq_true] at kept
        rw [← kept, ← empty]
    · rename_i some
      have isGood := lines (collector.pending stream).bytes (by
        rw [PendingLine.line, if_neg (not_or.mpr ⟨kept, some⟩)]
        rfl)
      refine ⟨⟨?_, (keeps.setPending _ _).publish (by simpa using isGood) _ _, by simp⟩, ?_⟩
      · intro entry member
        rw [Option.toList_some, mem_singleton] at member
        rw [member, publish_text, setPending_redactor]
        exact isGood
      · rw [publish_pending, setPending_pending]
        simp only [Bool.not_eq_true] at kept
        rw [kept]

theorem Publishes.trans {middle last : LogCollector} {first rest : List LogEntry}
    (early : Publishes good collector first middle) (late : Publishes good middle rest last) :
    Publishes good collector (first ++ rest) last where
  emitted entry member :=
    (mem_append.mp member).elim (early.emitted entry) (late.emitted entry)
  keeps := late.keeps
  redactor := late.redactor.trans early.redactor

/-- An oversized line is published as a marker. -/
theorem oversized_publishes (stream : LogStream) (keeps : collector.Keeps good) (marker : good oversizedLine)
    (pending : PendingLine) :
    Publishes good collector
      [((collector.setPending pending stream).publish stream oversizedLine true).1]
      ((collector.setPending pending stream).publish stream oversizedLine true).2 where
  emitted entry member := by
    rw [mem_singleton.mp member]
    exact marker
  keeps := (keeps.setPending _ _).publish marker _ _
  redactor := setPending_redactor _ _ _

theorem pushBytes_publishes (marker : good oversizedLine) (keeps : collector.Keeps good)
    {bytes : List UInt8}
    (lines : ∀ line ∈ (collector.pending stream).lines bytes,
      good (collector.redactor.redactBytes line)) :
    Publishes good collector (collector.pushBytes stream bytes).1
      (collector.pushBytes stream bytes).2 := by
  induction bytes generalizing collector with
  | nil => exact ⟨nofun, keeps, rfl⟩
  | cons byte rest ih =>
    rw [PendingLine.lines] at lines
    rw [pushBytes]
    split at lines
    · rename_i feed
      rw [if_pos feed]
      obtain ⟨here, pending⟩ := completeLine_publishes keeps fun line member =>
        lines line (mem_append_left _ (Option.mem_toList.mpr member))
      refine here.trans (ih here.keeps fun line member => ?_)
      rw [here.redactor]
      rw [pending] at member
      exact lines line (mem_append_right _ member)
    · rename_i noFeed
      rw [if_neg noFeed]
      dsimp only
      split at lines
      · rename_i discarding
        rw [if_pos discarding]
        exact ih keeps lines
      · rename_i kept
        rw [if_neg kept]
        split at lines
        · rename_i full
          rw [if_pos full]
          have here := oversized_publishes stream keeps marker
            { collector.pending stream with bytes := [], discarding := true }
          refine here.trans (ih here.keeps fun line member => ?_)
          rw [publish_pending, setPending_pending] at member
          rw [here.redactor]
          exact lines line member
        · rename_i room
          rw [if_neg room]
          have rest := @ih (collector.setPending
            { collector.pending stream with bytes := (collector.pending stream).bytes ++ [byte] }
              stream) (keeps.setPending _ _) (fun line member => by
                rw [setPending_pending] at member
                rw [setPending_redactor]
                exact lines line member)
          exact ⟨rest.emitted, rest.keeps, rest.redactor.trans (setPending_redactor _ _ _)⟩

theorem perform_publishes (marker : good oversizedLine) (keeps : collector.Keeps good)
    {action : LogAction}
    (lines : ∀ line ∈ action.lines collector, good (collector.redactor.redactBytes line)) :
    Publishes good collector (perform action collector).2 (perform action collector).1 := by
  cases action with
  | push stream bytes =>
    show Publishes good collector (collector.push stream bytes).1 (collector.push stream bytes).2
    rw [LogAction.lines] at lines
    unfold push
    dsimp only
    split
    · exact ⟨nofun, keeps, rfl⟩
    · rename_i unfinished
      split
      · exact oversized_publishes _ keeps marker _
      · rename_i small
        rw [if_neg (not_or.mpr ⟨unfinished, small⟩)] at lines
        exact pushBytes_publishes marker keeps lines
  | finishStream stream =>
    show Publishes good collector (collector.finishStream stream).1
      (collector.finishStream stream).2
    rw [LogAction.lines] at lines
    unfold finishStream
    split
    · exact ⟨nofun, keeps, rfl⟩
    · rename_i unfinished
      rw [if_neg unfinished] at lines
      obtain ⟨here, -⟩ := completeLine_publishes keeps fun line member =>
        lines line (Option.mem_toList.mpr member)
      exact ⟨here.emitted, here.keeps.setPending _ _,
        (setPending_redactor _ _ _).trans here.redactor⟩

end LogCollector

/-- A text that is one of the markers or clean. -/
def MarkerOrClean (redactor : Redactor) (text : String) : Prop :=
  text = redactedLine ∨ text = oversizedLine ∨ redactor.Clean text

/-- A complete line is withheld, or what is shown of it stays clean. -/
def Redactor.Admits (redactor : Redactor) (line : List UInt8) : Prop :=
  ∀ value, fromUtf8 line = some value → redactor.withholds value = false →
    redactor.Presentable value.toList

theorem Redactor.redactBytes_clean {redactor : Redactor} {line : List UInt8}
    (admits : redactor.Admits line) : MarkerOrClean redactor (redactor.redactBytes line) := by
  unfold redactBytes
  split
  · rename_i value spelled
    unfold redactLine
    split
    · exact .inr (.inl rfl)
    · split
      · exact .inl rfl
      · rename_i passes
        have passed := Bool.eq_false_of_not_eq_true passes
        exact .inr (.inr ((clean_shown_iff passed).mpr (admits value spelled passed)))
  · exact .inl rfl

/-- The run of a collector for a session with secrets. -/
def logHistory (secrets : List String) (actions : List LogAction) :
    List (Moment LogCollector LogAction (List LogEntry)) :=
  history LogCollector.perform actions (.new secrets)

/-- In a run all of whose complete lines are withheld or presentable, every published text and
every text of the history is a marker or clean. -/
theorem published_clean (secrets : List String) (actions : List LogAction)
    (admitted : ∀ moment ∈ logHistory secrets actions,
      ∀ line ∈ moment.action.lines moment.before, (Redactor.new secrets).Admits line) :
    ∀ moment ∈ logHistory secrets actions,
      (∀ entry ∈ moment.outcome, MarkerOrClean (Redactor.new secrets) entry.text) ∧
      ∀ entry ∈ moment.after.history, MarkerOrClean (Redactor.new secrets) entry.text := by
  let holds := fun collector : LogCollector => collector.redactor = Redactor.new secrets ∧
    collector.Keeps (MarkerOrClean (Redactor.new secrets))
  have publishes : ∀ moment ∈ logHistory secrets actions, holds moment.before →
      LogCollector.Publishes (MarkerOrClean (Redactor.new secrets)) moment.before moment.outcome
        moment.after := by
    intro moment inside before
    have lines : ∀ line ∈ moment.action.lines moment.before, MarkerOrClean (Redactor.new secrets)
        (moment.before.redactor.redactBytes line) := by
      intro line member
      rw [before.1]
      exact Redactor.redactBytes_clean (admitted moment inside line member)
    have here := LogCollector.perform_publishes (.inr (.inl rfl)) before.2 lines
    rwa [performed inside] at here
  have throughout : ∀ moment ∈ logHistory secrets actions, holds moment.before :=
    invariant (fun moment inside before =>
      ⟨(publishes moment inside before).redactor.trans before.1,
        (publishes moment inside before).keeps⟩) ⟨rfl, nofun⟩
  intro moment inside
  have here := publishes moment inside (throughout moment inside)
  exact ⟨here.emitted, here.keeps⟩

/-! ### A secret with a blank -/

/-- The bytes of `a`, a tab and `b`, and a line feed. -/
def tabbedLine : List UInt8 := [97, 9, 98, 10]

/-- The secret `a b` is not in the line with a tab, but it is in the text that is published. -/
theorem tabbed_secret_published :
    ¬∀ moment ∈ logHistory ["a b"] [.push .stdout tabbedLine],
      ∀ entry ∈ moment.outcome, MarkerOrClean (Redactor.new ["a b"]) entry.text := by
  intro clean
  have outcome : (LogCollector.perform (.push .stdout tabbedLine) (.new ["a b"])).2 =
      [⟨1, .stdout, "a b", false⟩] := by decide
  have published := clean _ mem_cons_self ⟨1, .stdout, "a b", false⟩ (by
    show _ ∈ (LogCollector.perform (.push .stdout tabbedLine) (.new ["a b"])).2
    rw [outcome]
    exact mem_singleton_self _)
  rcases published with redacted | oversized | ⟨secret, _, _⟩
  · exact absurd redacted (by decide)
  · exact absurd oversized (by decide)
  · exact absurd secret (by decide)

/-- The bytes of `a`, two blanks and `c`, and a line feed. -/
def plainLine : List UInt8 := [97, 32, 32, 99, 10]

/-- A line without the secret is published with its blanks squeezed. -/
theorem published_clean_plainLine :
    MarkerOrClean (Redactor.new ["a b"]) "a c" := by
  have clean := published_clean ["a b"] [.push .stdout plainLine] fun moment inside line
      member => by
    rw [logHistory, history, history, mem_singleton] at inside
    subst inside
    have lines : (LogAction.push .stdout plainLine).lines (.new ["a b"]) = [[97, 32, 32, 99]] := by
      decide
    rw [lines, mem_singleton] at member
    subst member
    intro value spelled _
    have text : fromUtf8 [97, 32, 32, 99] = some "a  c" := by decide
    rw [text] at spelled
    obtain rfl := Option.some.inj spelled
    refine ⟨?_, ?_, by decide, ?_, by decide⟩
    · have all : ((Redactor.new ["a b"]).secrets.all fun secret =>
          !shows secret.toList "a  c".toList) = true := by decide
      intro secret there
      simpa using all_eq_true.mp all secret there
    · have all : (spacedPhrases.all fun phrase =>
          !shows phrase.toList (lowercase "a  c".toList)) = true := by decide
      intro phrase there
      simpa using all_eq_true.mp all phrase there
    · have all : ((Words.cutWords maxLogLineChars
          (Words.words Minecraft.isWhitespace "a  c".toList)).all fun word => !jwtToken word) =
            true := by decide
      intro word there
      simpa using all_eq_true.mp all word there
  refine (clean _ mem_cons_self).1 ⟨1, .stdout, "a c", false⟩ ?_
  have outcome : (LogCollector.perform (.push .stdout plainLine) (.new ["a b"])).2 =
      [⟨1, .stdout, "a c", false⟩] := by decide
  show _ ∈ (LogCollector.perform (.push .stdout plainLine) (.new ["a b"])).2
  rw [outcome]
  exact mem_singleton_self _

end Axial.Launch
