/-
This file says that the output of a session does not depend on how it is read. What is
published of a stream is a function of the bytes of that stream: the lines are the same
for every way to cut the stream into chunks, and for every way in which the chunks of the
other stream stand between them. Through any run the history stays the last part of all
that was published, with its bytes and the number of dropped entries counted rightly.
-/

import Axial.Launch.LogCollector

namespace Axial.Launch

open Bytes List Option

/-! ### One stream -/

namespace PendingLine

/-- What is published when a line is complete, with whether it is cut. -/
def complete (redactor : Redactor) (pending : PendingLine) :
    List (String × Bool) × PendingLine :=
  (pending.line.toList.map fun bytes => (redactor.redactBytes bytes, LogCollector.cuts bytes),
    { pending with bytes := [], discarding := false })

/-- What is published when a byte is taken in. -/
def takeByte (redactor : Redactor) (byte : UInt8) (pending : PendingLine) :
    List (String × Bool) × PendingLine :=
  if byte = newline then pending.complete redactor
  else if pending.discarding then ([], pending)
  else if pending.bytes.length = maxRawLineBytes then
    ([(oversizedLine, true)], { pending with bytes := [], discarding := true })
  else ([], { pending with bytes := pending.bytes ++ [byte] })

def feed (redactor : Redactor) : List UInt8 → PendingLine → List (String × Bool) × PendingLine
  | [], pending => ([], pending)
  | byte :: rest, pending =>
    let (here, next) := pending.takeByte redactor byte
    let (later, last) := feed redactor rest next
    (here ++ later, last)

theorem feed_cons (redactor : Redactor) (byte : UInt8) (rest : List UInt8)
    (pending : PendingLine) : feed redactor (byte :: rest) pending =
      ((pending.takeByte redactor byte).1 ++
        (feed redactor rest (pending.takeByte redactor byte).2).1,
        (feed redactor rest (pending.takeByte redactor byte).2).2) := rfl

/-- A chunk may be cut anywhere. -/
theorem feed_append (redactor : Redactor) (first second : List UInt8) (pending : PendingLine) :
    feed redactor (first ++ second) pending =
      ((feed redactor first pending).1 ++ (feed redactor second (feed redactor first pending).2).1,
        (feed redactor second (feed redactor first pending).2).2) := by
  induction first generalizing pending with
  | nil => rfl
  | cons byte first ih =>
    rw [cons_append, feed_cons, feed_cons, ih]
    dsimp only
    rw [append_assoc]

theorem takeByte_finished (redactor : Redactor) (byte : UInt8) (pending : PendingLine) :
    (pending.takeByte redactor byte).2.finished = pending.finished := by
  unfold takeByte complete
  split
  · rfl
  · split
    · rfl
    · split <;> rfl

theorem feed_finished (redactor : Redactor) (bytes : List UInt8) (pending : PendingLine) :
    (feed redactor bytes pending).2.finished = pending.finished := by
  induction bytes generalizing pending with
  | nil => rfl
  | cons byte bytes ih =>
    exact (ih _).trans (takeByte_finished redactor byte pending)

end PendingLine

/-- What is published of a stream in all. -/
def publishedTexts (redactor : Redactor) (bytes : List UInt8) : List (String × Bool) :=
  let (texts, pending) := PendingLine.feed redactor bytes ⟨[], false, false⟩
  texts ++ (pending.complete redactor).1

/-! ### Actions -/

deriving instance DecidableEq for LogAction

inductive CollectorAction where
  | log (action : LogAction)
  | clearSecrets
  deriving DecidableEq

namespace LogCollector

def outputsDrained (collector : LogCollector) : Bool :=
  collector.stdout.finished && collector.stderr.finished

def clearSecrets (collector : LogCollector) : Bool × LogCollector :=
  if collector.outputsDrained then (true, { collector with redactor := ⟨[]⟩ })
  else (false, collector)

def act : CollectorAction → LogCollector → List LogEntry × LogCollector
  | .log action, collector => (perform action collector).swap
  | .clearSecrets, collector => ([], collector.clearSecrets.2)

/-- All that is published in a run, and the collector after it. -/
def run : List CollectorAction → LogCollector → List LogEntry × LogCollector
  | [], collector => ([], collector)
  | action :: rest, collector =>
    let (here, next) := act action collector
    let (later, last) := run rest next
    (here ++ later, last)

end LogCollector

/-! ### The history -/

def LogEntry.size (entry : LogEntry) : Nat := entry.text.utf8ByteSize

/-- The history is the last part of what was published, whose sequence numbers are 1, 2 and so on.
What was dropped is counted, and the bytes of the rest are. -/
structure LogCollector.Bookkept (published : List LogEntry) (collector : LogCollector) : Prop where
  sequences : published.map (·.sequence) = List.range' 1 published.length
  next : collector.nextSequence = published.length + 1
  retained : collector.history = published.drop collector.droppedEntries
  dropped : collector.droppedEntries + collector.history.length = published.length
  last : collector.history.getLast? = published.getLast?
  bytes : collector.historyBytes = (collector.history.map LogEntry.size).sum
  bounded : collector.historyBytes ≤ maxLogHistoryBytes
  short : collector.history.length ≤ maxLogEntries

variable {published : List LogEntry} {text : String}

namespace LogCollector

/-- As many entries are dropped as must be. An entry that fits by itself is not. -/
theorem dropOldest_spec (entries : List LogEntry) (dropped : Nat) :
    ∃ count, dropOldest entries (entries.map LogEntry.size).sum dropped =
        (entries.drop count, ((entries.drop count).map LogEntry.size).sum, dropped + count) ∧
      count ≤ entries.length ∧ (entries.drop count).length ≤ maxLogEntries ∧
      ((entries.drop count).map LogEntry.size).sum ≤ maxLogHistoryBytes ∧
      ∀ entry ∈ entries.getLast?, entry.size ≤ maxLogHistoryBytes → count < entries.length := by
  induction entries generalizing dropped with
  | nil => exact ⟨0, rfl, le_rfl, Nat.zero_le _, Nat.zero_le _, nofun⟩
  | cons first rest ih =>
    rw [dropOldest]
    split
    · rename_i overfull
      obtain ⟨count, loop, within, few, small, last⟩ := ih (dropped + 1)
      refine ⟨count + 1, ?_, Nat.succ_le_succ within, few, small, fun entry member fits => ?_⟩
      · have sum : ((first :: rest).map LogEntry.size).sum - first.text.utf8ByteSize =
            (rest.map LogEntry.size).sum := by
          rw [map_cons, sum_cons]
          exact Nat.add_sub_cancel_left _ _
        rw [sum, loop, drop_succ_cons, Nat.add_assoc, Nat.add_comm 1]
      · cases rest with
        | nil =>
          rw [getLast?_singleton, mem_some] at member
          rw [← member] at fits
          rcases overfull with many | large
          · exact absurd many (by decide)
          · rw [map_cons, sum_cons, map_nil, sum_nil, Nat.add_zero] at large
            exact absurd fits (not_le.mpr large)
        | cons second rest =>
          rw [getLast?_cons_cons] at member
          exact Nat.succ_lt_succ (last entry member fits)
    · rename_i inside
      rw [not_or, not_lt, not_lt] at inside
      exact ⟨0, rfl, Nat.zero_le _, inside.1, inside.2, fun _ _ _ => Nat.succ_pos _⟩

theorem Bookkept.publish {collector : LogCollector} (kept : collector.Bookkept published)
    (source : LogStream) (fits : text.utf8ByteSize ≤ maxLogHistoryBytes) (truncated : Bool) :
    (collector.publish source text truncated).2.Bookkept
      (published ++ [(collector.publish source text truncated).1]) := by
  let entry : LogEntry := ⟨collector.nextSequence, source, text, truncated⟩
  have sum : collector.historyBytes + text.utf8ByteSize =
      ((collector.history ++ [entry]).map LogEntry.size).sum := by
    rw [map_append, sum_append, ← kept.bytes]
    rfl
  obtain ⟨count, loop, within, few, small, last⟩ :=
    dropOldest_spec (collector.history ++ [entry]) collector.droppedEntries
  have total := kept.dropped
  have room : count ≤ collector.history.length := by
    have less := last entry (by rw [getLast?_concat]; rfl) fits
    rw [length_append, length_singleton] at less
    omega
  have after : (collector.publish source text truncated).2 =
      { collector with
        nextSequence := collector.nextSequence + 1
        history := (collector.history ++ [entry]).drop count
        historyBytes := (((collector.history ++ [entry]).drop count).map LogEntry.size).sum
        droppedEntries := collector.droppedEntries + count } := by
    unfold LogCollector.publish
    dsimp only
    rw [sum, loop]
  have made : (collector.publish source text truncated).1 = entry := rfl
  rw [after, made]
  exact {
    sequences := by
      rw [map_append, kept.sequences, length_append, length_singleton,
        range'_concat, Nat.one_mul, Nat.add_comm 1, ← kept.next]
      rfl
    next := by
      rw [length_append, length_singleton, ← kept.next]
    retained := by
      have inside : collector.droppedEntries + count ≤ published.length := by omega
      rw [drop_append_of_le_length inside, ← drop_drop, ← kept.retained,
        drop_append_of_le_length room]
    dropped := by
      show collector.droppedEntries + count + (List.drop count _).length = _
      rw [length_drop, length_append, length_append, length_singleton]
      omega
    last := by
      rw [drop_append_of_le_length room, getLast?_concat, getLast?_concat]
    bytes := rfl
    bounded := small
    short := few }

theorem Bookkept.setPending {collector : LogCollector} (kept : collector.Bookkept published)
    (pending : PendingLine) (stream : LogStream) :
    (collector.setPending pending stream).Bookkept published := by
  cases stream with
  | stdout | stderr => exact ⟨kept.1, kept.2, kept.3, kept.4, kept.5, kept.6, kept.7, kept.8⟩

end LogCollector

/-- Every text that is shown fits into the history. -/
theorem Redactor.redactBytes_fits (redactor : Redactor) (bytes : List UInt8) :
    (redactor.redactBytes bytes).utf8ByteSize ≤ maxLogHistoryBytes := by
  have shown (value : List Char) :
      (String.ofList (Redactor.shown value)).utf8ByteSize ≤ maxLogHistoryBytes := by
    have length : (Redactor.shown value).length ≤ maxLogLineChars := length_take_le _ _
    calc (String.ofList (Redactor.shown value)).utf8ByteSize ≤ 4 * (Redactor.shown value).length :=
          utf8ByteSize_le _
      _ ≤ 4 * maxLogLineChars := Nat.mul_le_mul_left 4 length
      _ ≤ maxLogHistoryBytes := by decide
  unfold redactBytes
  split
  · unfold redactLine
    split
    · decide
    · split
      · decide
      · exact shown _
  · decide

/-! ### What is published of a stream -/

def LogEntry.said (entry : LogEntry) : LogStream × String × Bool :=
  (entry.source, entry.text, entry.truncated)

/-- The texts of one stream among what was published, with whether they are cut. -/
def texts (stream : LogStream) (entries : List LogEntry) : List (String × Bool) :=
  entries.filterMap fun entry =>
    if entry.source = stream then some (entry.text, entry.truncated) else none

theorem texts_append (stream : LogStream) (first second : List LogEntry) :
    texts stream (first ++ second) = texts stream first ++ texts stream second :=
  filterMap_append

/-- A step publishes texts of one stream, and leaves the other one as it is. -/
structure Emits (stream : LogStream) (collector : LogCollector) (said : List (String × Bool))
    (emitted : List LogEntry) (after : LogCollector) : Prop where
  said : emitted.map LogEntry.said = said.map fun text => (stream, text)
  others : ∀ other, other ≠ stream → after.pending other = collector.pending other
  redactor : after.redactor = collector.redactor
  kept : ∀ published, collector.Bookkept published → after.Bookkept (published ++ emitted)

namespace Emits

variable {stream : LogStream} {collector middle after : LogCollector}
  {said others : List (String × Bool)} {emitted later : List LogEntry}

theorem refl (stream : LogStream) (collector : LogCollector) :
    Emits stream collector [] [] collector where
  said := rfl
  others _ _ := rfl
  redactor := rfl
  kept _ kept := by rwa [List.append_nil]

theorem trans (early : Emits stream collector said emitted middle)
    (late : Emits stream middle others later after) :
    Emits stream collector (said ++ others) (emitted ++ later) after where
  said := by rw [map_append, map_append, early.said, late.said]
  others other apart := (late.others other apart).trans (early.others other apart)
  redactor := late.redactor.trans early.redactor
  kept published kept := by
    rw [← append_assoc]
    exact late.kept _ (early.kept published kept)

theorem texts_eq (emits : Emits stream collector said emitted after) (other : LogStream) :
    texts other emitted = if other = stream then said else [] := by
  have whole : texts other emitted = (emitted.map LogEntry.said).filterMap
      fun entry => if entry.1 = other then some entry.2 else none := by
    rw [filterMap_map]
    rfl
  rw [whole, emits.said, filterMap_map]
  split
  · rename_i same
    rw [same]
    have each : ((fun entry : LogStream × String × Bool =>
        if entry.1 = stream then some entry.2 else none) ∘ fun text => (stream, text)) = some :=
      funext fun text => if_pos rfl
    rw [each, filterMap_some]
  · rename_i apart
    have none : ((fun entry : LogStream × String × Bool =>
        if entry.1 = other then some entry.2 else Option.none) ∘ fun text => (stream, text)) =
          fun _ => Option.none :=
      funext fun text => if_neg (Ne.symm apart)
    rw [none, filterMap_none]

end Emits

namespace LogCollector

theorem setPending_emits (collector : LogCollector) (pending : PendingLine)
    (stream : LogStream) :
    Emits stream collector [] [] (collector.setPending pending stream) where
  said := rfl
  others other apart := by
    cases stream <;> cases other <;> first | rfl | exact absurd rfl apart
  redactor := setPending_redactor _ _ _
  kept published kept := by
    rw [List.append_nil]
    exact kept.setPending _ _

theorem publish_emits (collector : LogCollector) (stream : LogStream)
    (fits : text.utf8ByteSize ≤ maxLogHistoryBytes) (truncated : Bool) :
    Emits stream collector [(text, truncated)] [(collector.publish stream text truncated).1]
      (collector.publish stream text truncated).2 where
  said := rfl
  others other _ := publish_pending _ _ _ _ other
  redactor := publish_redactor _ _ _ _
  kept _ kept := kept.publish stream fits truncated

theorem completeLine_emits (collector : LogCollector) (stream : LogStream) :
    Emits stream collector ((collector.pending stream).complete collector.redactor).1
      (collector.completeLine stream).1.toList (collector.completeLine stream).2 ∧
    (collector.completeLine stream).2.pending stream =
      ((collector.pending stream).complete collector.redactor).2 := by
  unfold completeLine PendingLine.complete PendingLine.line
  dsimp only
  by_cases discarding : (collector.pending stream).discarding = true
  · rw [if_pos discarding, if_pos (Or.inl discarding)]
    exact ⟨setPending_emits _ _ _, setPending_pending _ _ _⟩
  · rw [if_neg discarding]
    by_cases empty : (collector.pending stream).bytes.isEmpty = true
    · rw [if_pos empty, if_pos (Or.inr empty)]
      refine ⟨Emits.refl _ _, ?_⟩
      rw [Bool.not_eq_true] at discarding
      rw [← List.isEmpty_iff.mp empty, ← discarding]
    · rw [if_neg empty, if_neg (not_or.mpr ⟨discarding, empty⟩)]
      have here := (setPending_emits collector
        { collector.pending stream with bytes := [] } stream).trans
          (publish_emits _ stream (Redactor.redactBytes_fits collector.redactor
            (collector.pending stream).bytes) (cuts (collector.pending stream).bytes))
      refine ⟨?_, ?_⟩
      · rw [setPending_redactor]
        exact here
      · rw [publish_pending, setPending_pending]
        rw [Bool.not_eq_true] at discarding
        rw [← discarding]

/-- The collector feeds its bytes to the line of their stream. -/
theorem pushBytes_emits (stream : LogStream) (bytes : List UInt8) (collector : LogCollector) :
    Emits stream collector
      (PendingLine.feed collector.redactor bytes (collector.pending stream)).1
      (collector.pushBytes stream bytes).1 (collector.pushBytes stream bytes).2 ∧
    (collector.pushBytes stream bytes).2.pending stream =
      (PendingLine.feed collector.redactor bytes (collector.pending stream)).2 := by
  have marker : oversizedLine.utf8ByteSize ≤ maxLogHistoryBytes := by decide
  induction bytes generalizing collector with
  | nil => exact ⟨Emits.refl _ _, rfl⟩
  | cons byte rest ih =>
    -- One step, and the rest from where it leads.
    have step {said : List (String × Bool)} {emitted : List LogEntry} {next : LogCollector}
        (here : Emits stream collector said emitted next) (pending : PendingLine)
        (leads : next.pending stream = pending)
        (taken : (collector.pending stream).takeByte collector.redactor byte = (said, pending))
        (pushed : collector.pushBytes stream (byte :: rest) =
          (emitted ++ (next.pushBytes stream rest).1, (next.pushBytes stream rest).2)) :
        Emits stream collector
          (PendingLine.feed collector.redactor (byte :: rest) (collector.pending stream)).1
          (collector.pushBytes stream (byte :: rest)).1
          (collector.pushBytes stream (byte :: rest)).2 ∧
        (collector.pushBytes stream (byte :: rest)).2.pending stream =
          (PendingLine.feed collector.redactor (byte :: rest) (collector.pending stream)).2 := by
      obtain ⟨later, last⟩ := ih next
      rw [leads, here.redactor] at later last
      rw [PendingLine.feed_cons, taken, pushed]
      exact ⟨here.trans later, last⟩
    by_cases feed : byte = newline
    · obtain ⟨here, leads⟩ := completeLine_emits collector stream
      refine step here _ leads ?_ ?_
      · rw [PendingLine.takeByte, if_pos feed]
      · rw [pushBytes, if_pos feed]
    · by_cases discarding : (collector.pending stream).discarding = true
      · refine step (Emits.refl _ _) _ rfl ?_ ?_
        · rw [PendingLine.takeByte, if_neg feed, if_pos discarding]
        · rw [pushBytes, if_neg feed]
          dsimp only
          rw [if_pos discarding, nil_append]
      · by_cases full : (collector.pending stream).bytes.length = maxRawLineBytes
        · refine step ((setPending_emits collector
            { collector.pending stream with bytes := [], discarding := true } stream).trans
              (publish_emits _ stream marker true)) _ (publish_pending _ _ _ _ _) ?_ ?_
          · rw [PendingLine.takeByte, if_neg feed, if_neg discarding, if_pos full,
              setPending_pending]
            rfl
          · rw [pushBytes, if_neg feed]
            dsimp only
            rw [if_neg discarding, if_pos full]
            rfl
        · refine step (setPending_emits collector
            { collector.pending stream with bytes := (collector.pending stream).bytes ++ [byte] }
              stream) _ (setPending_pending _ _ _) ?_ ?_
          · rw [PendingLine.takeByte, if_neg feed, if_neg discarding, if_neg full]
          · rw [pushBytes, if_neg feed]
            dsimp only
            rw [if_neg discarding, if_neg full, nil_append]

theorem push_eq {stream : LogStream} {bytes : List UInt8} {collector : LogCollector}
    (going : (collector.pending stream).finished = false)
    (small : bytes.length ≤ maxOutputChunkBytes) :
    collector.push stream bytes = collector.pushBytes stream bytes := by
  unfold push
  dsimp only
  rw [going, if_neg Bool.false_ne_true, if_neg (not_lt.mpr small)]

theorem finishStream_emits {stream : LogStream} {collector : LogCollector}
    (going : (collector.pending stream).finished = false) :
    Emits stream collector ((collector.pending stream).complete collector.redactor).1
      (collector.finishStream stream).1 (collector.finishStream stream).2 ∧
    ((collector.finishStream stream).2.pending stream).finished = true := by
  unfold finishStream
  rw [going, if_neg Bool.false_ne_true]
  obtain ⟨here, -⟩ := completeLine_emits collector stream
  have both := here.trans (setPending_emits _
    { (collector.completeLine stream).2.pending stream with finished := true } stream)
  rw [List.append_nil, List.append_nil] at both
  exact ⟨both, by rw [setPending_pending]⟩

end LogCollector

/-! ### Runs -/

def LogAction.stream : LogAction → LogStream
  | .push stream _ => stream
  | .finishStream stream => stream

/-- The bytes of a stream in a run, up to its end. -/
def input (stream : LogStream) : List CollectorAction → List UInt8
  | [] => []
  | .log (.push other bytes) :: rest =>
    if other = stream then bytes ++ input stream rest else input stream rest
  | .log (.finishStream other) :: rest => if other = stream then [] else input stream rest
  | .clearSecrets :: rest => input stream rest

/-- No chunk of a run is longer than what is read at once. -/
def Chunked (actions : List CollectorAction) : Prop :=
  ∀ stream bytes, .log (.push stream bytes) ∈ actions → bytes.length ≤ maxOutputChunkBytes

namespace LogCollector

variable {stream : LogStream} {collector : LogCollector}

/-- Every action publishes of its own stream only. -/
theorem perform_emits (action : LogAction) (collector : LogCollector) :
    ∃ said, Emits action.stream collector said (act (.log action) collector).1
      (act (.log action) collector).2 := by
  cases action with
  | push stream bytes =>
    have marker : oversizedLine.utf8ByteSize ≤ maxLogHistoryBytes := by decide
    show ∃ said, Emits stream collector said (collector.push stream bytes).1
      (collector.push stream bytes).2
    unfold push
    dsimp only
    split
    · exact ⟨_, Emits.refl _ _⟩
    · split
      · exact ⟨_, (setPending_emits _ _ _).trans (publish_emits _ stream marker true)⟩
      · exact ⟨_, (pushBytes_emits stream bytes collector).1⟩
  | finishStream stream =>
    show ∃ said, Emits stream collector said (collector.finishStream stream).1
      (collector.finishStream stream).2
    by_cases finished : (collector.pending stream).finished = true
    · rw [finishStream, if_pos finished]
      exact ⟨_, Emits.refl _ _⟩
    · exact ⟨_, (finishStream_emits (Bool.eq_false_of_not_eq_true finished)).1⟩

theorem act_kept (action : CollectorAction) (kept : collector.Bookkept published) :
    (act action collector).2.Bookkept (published ++ (act action collector).1) := by
  cases action with
  | log action => exact (perform_emits action collector).choose_spec.kept _ kept
  | clearSecrets =>
    show collector.clearSecrets.2.Bookkept (published ++ [])
    rw [List.append_nil]
    unfold clearSecrets
    split
    · exact ⟨kept.1, kept.2, kept.3, kept.4, kept.5, kept.6, kept.7, kept.8⟩
    · exact kept

theorem run_kept (actions : List CollectorAction) (kept : collector.Bookkept published) :
    (run actions collector).2.Bookkept (published ++ (run actions collector).1) := by
  induction actions generalizing collector published with
  | nil => rwa [run, List.append_nil]
  | cons action rest ih =>
    have later := ih (act_kept action kept)
    rwa [append_assoc] at later

theorem clearSecrets_pending (collector : LogCollector) (stream : LogStream) :
    collector.clearSecrets.2.pending stream = collector.pending stream := by
  unfold clearSecrets
  split
  · cases stream <;> rfl
  · rfl

/-- The redactor stays until both streams have ended. -/
theorem act_redactor (going : (collector.pending stream).finished = false)
    (action : CollectorAction) : (act action collector).2.redactor = collector.redactor := by
  cases action with
  | log action => exact (perform_emits action collector).choose_spec.redactor
  | clearSecrets =>
    have notDrained : ¬collector.outputsDrained = true := by
      intro drained
      have both := Bool.and_eq_true_iff.mp drained
      cases stream with
      | stdout => exact Bool.false_ne_true (going.symm.trans both.1)
      | stderr => exact Bool.false_ne_true (going.symm.trans both.2)
    show collector.clearSecrets.2.redactor = _
    rw [clearSecrets, if_neg notDrained]

/-- What is done to the other stream shows nothing of this one. -/
theorem act_apart {action : CollectorAction}
    (apart : ∀ own, action = .log own → own.stream ≠ stream) (collector : LogCollector) :
    texts stream (act action collector).1 = [] ∧
      (act action collector).2.pending stream = collector.pending stream := by
  cases action with
  | log action =>
    obtain ⟨said, emits⟩ := perform_emits action collector
    refine ⟨?_, emits.others stream (apart action rfl).symm⟩
    rw [emits.texts_eq, if_neg (apart action rfl).symm]
  | clearSecrets => exact ⟨rfl, clearSecrets_pending _ _⟩

/-- A stream that has ended says nothing more. -/
theorem act_finished (finished : (collector.pending stream).finished = true)
    (action : CollectorAction) :
    texts stream (act action collector).1 = [] ∧
      (act action collector).2.pending stream = collector.pending stream := by
  by_cases apart : ∀ own, action = .log own → own.stream ≠ stream
  · exact act_apart apart collector
  · push Not at apart
    obtain ⟨own, rfl, same⟩ := apart
    have nothing : act (.log own) collector = ([], collector) := by
      cases own with
      | push other bytes | finishStream other =>
        obtain rfl : other = stream := same
        exact if_pos finished
    rw [nothing]
    exact ⟨rfl, rfl⟩

theorem texts_run_cons (stream : LogStream) (action : CollectorAction)
    (rest : List CollectorAction) (collector : LogCollector) :
    texts stream (run (action :: rest) collector).1 =
      texts stream (act action collector).1 ++ texts stream (run rest (act action collector).2).1 :=
  texts_append _ _ _

theorem run_finished (finished : (collector.pending stream).finished = true)
    (actions : List CollectorAction) : texts stream (run actions collector).1 = [] := by
  induction actions generalizing collector with
  | nil => rfl
  | cons action rest ih =>
    obtain ⟨silent, pending⟩ := act_finished finished action
    rw [texts_run_cons, silent, nil_append]
    exact ih (pending ▸ finished)

/-- What a run publishes of a stream that has not ended, from where its line stands. -/
theorem run_texts {actions : List CollectorAction} (chunked : Chunked actions)
    (going : (collector.pending stream).finished = false) :
    texts stream (run actions collector).1 =
      (PendingLine.feed collector.redactor (input stream actions) (collector.pending stream)).1 ++
        if .log (.finishStream stream) ∈ actions then
          ((PendingLine.feed collector.redactor (input stream actions)
            (collector.pending stream)).2.complete collector.redactor).1
        else [] := by
  induction actions generalizing collector with
  | nil => rfl
  | cons action rest ih =>
    have restChunked : Chunked rest := fun stream bytes member =>
      chunked stream bytes (mem_cons_of_mem _ member)
    have redactor := act_redactor going action
    -- The run goes on with the line that the action leaves.
    have goesOn (pending : ((act action collector).2.pending stream).finished = false) :=
      ih restChunked pending
    rw [redactor] at goesOn
    have elsewhere (apart : ∀ own, action = .log own → own.stream ≠ stream)
        (same : input stream (action :: rest) = input stream rest) :
        texts stream (run (action :: rest) collector).1 =
          (PendingLine.feed collector.redactor (input stream (action :: rest))
            (collector.pending stream)).1 ++
            if .log (.finishStream stream) ∈ action :: rest then
              ((PendingLine.feed collector.redactor (input stream (action :: rest))
                (collector.pending stream)).2.complete collector.redactor).1
            else [] := by
      obtain ⟨silent, pending⟩ := act_apart apart collector
      have other : (.log (.finishStream stream) ∈ action :: rest) =
          (.log (.finishStream stream) ∈ rest) := by
        rw [mem_cons, eq_iff_iff, or_iff_right]
        rintro rfl
        exact apart _ rfl rfl
      rw [texts_run_cons, silent, nil_append, goesOn (pending ▸ going), pending, same]
      simp only [other]
    match action with
    | .clearSecrets => exact elsewhere nofun rfl
    | .log (.push other bytes) =>
      by_cases same : other = stream
      · subst same
        have small := chunked other bytes mem_cons_self
        obtain ⟨here, pending⟩ := pushBytes_emits other bytes collector
        have pushed : act (.log (.push other bytes)) collector =
          collector.pushBytes other bytes := push_eq going small
        rw [pushed] at goesOn
        rw [texts_run_cons, pushed, here.texts_eq, if_pos rfl, goesOn, pending, input, if_pos rfl,
          PendingLine.feed_append]
        · simp
        · rw [pending, PendingLine.feed_finished, going]
      · exact elsewhere (fun own equal => by cases equal; exact same) (if_neg same)
    | .log (.finishStream other) =>
      by_cases same : other = stream
      · subst same
        obtain ⟨here, finished⟩ := finishStream_emits going
        have pushed : act (.log (.finishStream other)) collector =
          collector.finishStream other := rfl
        rw [texts_run_cons, pushed, here.texts_eq, if_pos rfl, run_finished finished, input,
          if_pos rfl, if_pos mem_cons_self]
        exact List.append_nil _
      · exact elsewhere (fun own equal => by cases equal; exact same) (if_neg same)

theorem new_kept (secrets : List String) : (new secrets).Bookkept [] where
  sequences := rfl
  next := rfl
  retained := rfl
  dropped := rfl
  last := rfl
  bytes := rfl
  bounded := Nat.zero_le _
  short := Nat.zero_le _

end LogCollector

/-- In a run whose chunks are no longer than what is read at once, what is published of a stream
that has ended is a function of its own bytes. It is the same for every other run with these bytes,
wherever they are cut and whatever the other stream says. After any run the books are kept. -/
theorem ingestion_independent (secrets : List String) :
    (∀ actions, Chunked actions → ∀ stream, .log (.finishStream stream) ∈ actions →
      texts stream (LogCollector.run actions (.new secrets)).1 =
        publishedTexts (.new secrets) (input stream actions)) ∧
    (∀ actions others, Chunked actions → Chunked others → ∀ stream,
      .log (.finishStream stream) ∈ actions → .log (.finishStream stream) ∈ others →
      input stream actions = input stream others →
      texts stream (LogCollector.run actions (.new secrets)).1 =
        texts stream (LogCollector.run others (.new secrets)).1) ∧
    ∀ actions, (LogCollector.run actions (.new secrets)).2.Bookkept
      (LogCollector.run actions (.new secrets)).1 := by
  have published (actions : List CollectorAction) (chunked : Chunked actions)
      (stream : LogStream) (ended : .log (.finishStream stream) ∈ actions) :
      texts stream (LogCollector.run actions (.new secrets)).1 =
        publishedTexts (.new secrets) (input stream actions) := by
    have fresh : (LogCollector.new secrets).pending stream = ⟨[], false, false⟩ := by
      cases stream <;> rfl
    rw [LogCollector.run_texts chunked (by rw [fresh]), if_pos ended, fresh]
    rfl
  refine ⟨published, fun actions others chunked otherChunked stream ended otherEnded same => ?_,
    fun actions => LogCollector.run_kept actions (LogCollector.new_kept secrets)⟩
  rw [published actions chunked stream ended, published others otherChunked stream otherEnded, same]

/-- A line in two chunks, with a line of the other stream between them, and the same in one. -/
theorem ingestion_independent_cut :
    texts .stdout (LogCollector.run [.log (.push .stdout [97]), .log (.push .stderr [98, 10]),
        .log (.push .stdout [10]), .log (.finishStream .stdout)] (.new ["secret"])).1 =
      texts .stdout (LogCollector.run [.log (.push .stdout [97, 10]),
        .log (.finishStream .stdout)] (.new ["secret"])).1 := by
  refine (ingestion_independent ["secret"]).2.1 _ _ ?_ ?_ .stdout (by decide) (by decide)
    (by decide)
  · intro stream bytes member
    simp only [mem_cons, CollectorAction.log.injEq, LogAction.push.injEq, reduceCtorEq,
      not_mem_nil, or_false] at member
    rcases member with ⟨-, rfl⟩ | ⟨-, rfl⟩ | ⟨-, rfl⟩ <;> decide
  · intro stream bytes member
    simp only [mem_cons, CollectorAction.log.injEq, LogAction.push.injEq, reduceCtorEq,
      not_mem_nil, or_false] at member
    rcases member with ⟨-, rfl⟩
    decide

end Axial.Launch
