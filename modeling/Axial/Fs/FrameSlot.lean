/-
This file models what the two domains of the recovery control have in common: a
frame that carries a record or is a tombstone, its encoding at an address, the
probe of one side, and the reading of a slot of two sides. A domain enters as a
`Format`: its record codec, its validation and its rules of succession.
-/

import Axial.Fs.ControlFrame
import Axial.Library.DoubleSlot
import Axial.Library.Table

namespace Axial.Fs

open Bytes Reader ControlFrame DoubleSlot Function List Option

structure Frame (Record : Type) where
  generation : UInt64
  /-- `none` is the tombstone of a reusable slot. -/
  record : Option Record
  deriving DecidableEq

/-- A frame together with the lane it was found in. -/
structure Selected (Record : Type) where
  laneNonce : Nonce
  frame : Frame Record
  deriving DecidableEq

/-- One domain of frames. The laws say that the record codec is an inverse pair on validated
records that fit a frame, and that frames succeed each other one generation at a time. -/
structure Format (Record : Type) where
  domain : Domain
  encodeRecord : Record → List UInt8
  decodeRecord : List UInt8 → Option Record
  validate : Frame Record → Bool
  /-- The frame that may be the only one a slot was ever given. -/
  first : Frame Record → Bool
  advance : Option (Frame Record) → Frame Record → Bool
  validate_generation : ∀ {frame}, validate frame = true → frame.generation ≠ 0
  decode_sound : ∀ {payload record}, decodeRecord payload = some record →
    payload = encodeRecord record
  decode_complete : ∀ {generation record}, validate ⟨generation, some record⟩ = true →
    decodeRecord (encodeRecord record) = some record
  fits : ∀ {generation record}, validate ⟨generation, some record⟩ = true →
    headerBytes + (encodeRecord record).length ≤ bodyBytes
  advance_validate : ∀ {previous next}, advance previous next = true → validate next = true
  advance_generation : ∀ {previous next}, advance (some previous) next = true →
    next.generation.toNat = previous.generation.toNat + 1
  advance_first : ∀ {next}, advance none next = true → first next = true
  first_generation : ∀ {frame}, first frame = true → frame.generation = 1

variable {Record : Type}

/-! ### Generations -/

/-- `u64::MAX`. -/
abbrev maxGeneration : UInt64 := 0xffffffffffffffff

/-- The generation after `current`; the first one is 1. -/
def nextGeneration : Option UInt64 → Option UInt64
  | none => some 1
  | some generation =>
    if generation = 0 ∨ generation = maxGeneration then none else some (generation + 1)

theorem nextGeneration_eq_some (current : Option UInt64) (next : UInt64) :
    nextGeneration current = some next ↔
      match current with
      | none => next = 1
      | some generation => generation ≠ 0 ∧ next.toNat = generation.toNat + 1 := by
  cases current with
  | none =>
    show some 1 = some next ↔ next = 1
    rw [some_inj, eq_comm]
  | some generation =>
    show (if generation = 0 ∨ generation = maxGeneration then none else some (generation + 1)) =
      some next ↔ generation ≠ 0 ∧ next.toNat = generation.toNat + 1
    have bound := generation.toNat_lt
    have nextBound := next.toNat_lt
    have sum : (generation + 1).toNat = (generation.toNat + 1) % 2 ^ 64 := UInt64.toNat_add _ _
    have maximal : generation = maxGeneration ↔ generation.toNat = 2 ^ 64 - 1 :=
      UInt64.toNat_inj.symm
    constructor
    · intro stepped
      split at stepped
      · cases stepped
      · rename_i inside
        obtain ⟨nonzero, notMaximal⟩ := not_or.mp inside
        rw [maximal] at notMaximal
        obtain rfl := some_inj.mp stepped
        exact ⟨nonzero, by omega⟩
    · rintro ⟨nonzero, successor⟩
      rw [if_neg (by rw [maximal]; simp only [nonzero, false_or]; omega), some_inj]
      exact UInt64.toNat_inj.mp (by omega)

theorem eq_add_one_of_nextGeneration {generation next : UInt64}
    (stepped : nextGeneration (some generation) = some next) : next = generation + 1 := by
  have successor := ((nextGeneration_eq_some _ _).mp stepped).2
  have bound := next.toNat_lt
  refine UInt64.toNat_inj.mp ?_
  rw [UInt64.toNat_add, successor]
  exact (Nat.mod_eq_of_lt (by omega)).symm

/-! ### Encoding and probing one side -/

/-- The kind byte and the payload of a frame. -/
def Format.parts (format : Format Record) : Option Record → UInt8 × List UInt8
  | none => (0, [])
  | some record => (1, format.encodeRecord record)

def encodeFrame (format : Format Record) (host : Host) (frame : Frame Record)
    (address : Address) : Option (List UInt8) :=
  if format.validate frame then
    encode host format.domain address frame.generation (format.parts frame.record).1
      (format.parts frame.record).2
  else
    none

def Format.decodeParts (format : Format Record) (kind : UInt8) (payload : List UInt8) :
    Option (Option Record) :=
  if kind = 0 ∧ payload = [] then some none
  else if kind = 1 then (format.decodeRecord payload).map some
  else none

def decodeEnvelope (format : Format Record) (envelope : Envelope) : Option (Frame Record) := do
  let record ← format.decodeParts envelope.kind envelope.payload
  if format.validate ⟨envelope.generation, record⟩ then
    some ⟨envelope.generation, record⟩
  else
    none

def probeFrame (format : Format Record) (host : Host) (bytes : List UInt8) (slot : Fin 64)
    (side : Fin 2) : Option (DoubleSlot.Probe (Selected Record)) := do
  match ← probe host format.domain bytes slot side with
  | .empty => some .empty
  | .torn => some .torn
  | .valid envelope =>
    let frame ← decodeEnvelope format envelope
    some (.valid ⟨envelope.address.lane, frame⟩)

theorem Format.decodeParts_sound (format : Format Record) {kind : UInt8}
    {payload : List UInt8} {record : Option Record}
    (read : format.decodeParts kind payload = some record) :
    (kind, payload) = format.parts record := by
  unfold decodeParts at read
  split at read
  · rename_i tombstone
    obtain rfl := some_inj.mp read
    rw [tombstone.1, tombstone.2]
    rfl
  · obtain ⟨live, mapped⟩ := ite_none_right_eq_some.mp read
    obtain ⟨found, decoded, rfl⟩ := map_eq_some_iff.mp mapped
    rw [live, format.decode_sound decoded]
    rfl

variable {frame : Frame Record}

theorem Format.decodeParts_complete (format : Format Record) (valid : format.validate frame = true)
    :
    format.decodeParts (format.parts frame.record).1 (format.parts frame.record).2 =
      some frame.record := by
  cases held : frame.record with
  | none => rfl
  | some record =>
    have live : format.validate ⟨frame.generation, some record⟩ = true := by
      rw [← held]
      exact valid
    have complete := format.decode_complete live
    have kind : ¬ ((1 : UInt8) = 0 ∧ format.encodeRecord record = []) :=
      fun both => absurd both.1 (by decide)
    unfold decodeParts parts
    rw [if_neg kind, if_pos rfl, complete]
    rfl

theorem decodeEnvelope_eq_some (format : Format Record) (envelope : Envelope)
    (frame : Frame Record) :
    decodeEnvelope format envelope = some frame ↔ format.validate frame = true ∧
      envelope.generation = frame.generation ∧
      (envelope.kind, envelope.payload) = format.parts frame.record := by
  unfold decodeEnvelope
  rw [bind_eq_bind, bind_eq_some_iff]
  simp only [ite_none_right_eq_some, some_inj]
  constructor
  · rintro ⟨record, read, valid, rfl⟩
    exact ⟨valid, rfl, (format.decodeParts_sound read)⟩
  · rintro ⟨valid, generation, parts⟩
    obtain ⟨kind, payload⟩ := Prod.mk.inj parts
    refine ⟨frame.record, ?_, by rw [generation]; exact valid, by rw [generation]⟩
    rw [kind, payload]
    exact format.decodeParts_complete valid

/-- Every valid frame has an encoding at every address of its own side. -/
theorem encodeFrame_isSome (format : Format Record) (host : Host) (frame : Frame Record)
    (address : Address) (valid : format.validate frame = true)
    (sided : address.side = generationSide frame.generation) :
    ∃ bytes, encodeFrame format host frame address = some bytes := by
  have fits : headerBytes + (format.parts frame.record).2.length ≤ bodyBytes := by
    cases held : frame.record with
    | none => exact show headerBytes + 0 ≤ bodyBytes by decide
    | some record =>
      have live : format.validate ⟨frame.generation, some record⟩ = true := by
        rw [← held]
        exact valid
      exact format.fits live
  exact ⟨_, (if_pos valid).trans ((encode_eq_some ..).mpr
    ⟨⟨format.validate_generation valid, sided, fits⟩, rfl⟩)⟩

variable {format : Format Record} {host : Host} {bytes : List UInt8}

theorem encodeFrame_eq_some {address : Address}
    (encoded : encodeFrame format host frame address = some bytes) :
    format.validate frame = true ∧ address.side = generationSide frame.generation ∧
      bytes.length = frameBytes ∧ bytes[0]? = some 0x41 := by
  obtain ⟨valid, written⟩ := ite_none_right_eq_some.mp encoded
  exact ⟨valid, ((encode_eq_some ..).mp written).1.2.1, encode_length written,
    encode_head written⟩

/-- The frame codec is a bijection: a side probes as valid exactly when its bytes are the
encoding, at the address that was probed, of the frame that is returned. -/
theorem probeFrame_eq_valid (format : Format Record) (host : Host) (bytes : List UInt8)
    (slot : Fin 64) (side : Fin 2) (selected : Selected Record) :
    probeFrame format host bytes slot side = some (.valid selected) ↔
      encodeFrame format host selected.frame ⟨selected.laneNonce, slot, side⟩ =
        some bytes := by
  unfold probeFrame encodeFrame
  rw [bind_eq_bind, bind_eq_some_iff]
  constructor
  · rintro ⟨found, probed, accepted⟩
    cases found with
    | empty | torn => cases accepted
    | valid envelope =>
      obtain ⟨frame, decoded, equal⟩ := bind_eq_some_iff.mp accepted
      obtain rfl : ⟨envelope.address.lane, frame⟩ = selected := by
        injection some_inj.mp equal
      obtain ⟨encoded, rfl, rfl⟩ := (probe_eq_valid ..).mp probed
      obtain ⟨valid, generation, parts⟩ := (decodeEnvelope_eq_some ..).mp decoded
      rw [if_pos valid, ← parts, ← generation]
      exact encoded
  · intro encoded
    obtain ⟨valid, written⟩ := ite_none_right_eq_some.mp encoded
    refine ⟨.valid ⟨⟨selected.laneNonce, slot, side⟩, selected.frame.generation,
      (format.parts selected.frame.record).1, (format.parts selected.frame.record).2⟩,
      (probe_eq_valid ..).mpr ⟨written, rfl, rfl⟩, ?_⟩
    show Option.bind _ _ = _
    rw [(decodeEnvelope_eq_some ..).mpr ⟨valid, rfl, rfl⟩]
    rfl

/-- No bytes are valid in two domains, or at two addresses. -/
theorem encodeFrame_determines {Other : Type} {other : Format Other} {otherFrame : Frame Other}
    {first second : Address} (left : encodeFrame format host frame first = some bytes)
    (right : encodeFrame other host otherFrame second = some bytes) :
    format.domain = other.domain ∧ first.slot = second.slot ∧ first.side = second.side :=
  encode_determines (ite_none_right_eq_some.mp left).2
    (ite_none_right_eq_some.mp right).2

theorem probeFrame_eq_empty (format : Format Record) (host : Host) (bytes : List UInt8)
    (slot : Fin 64) (side : Fin 2) :
    probeFrame format host bytes slot side = some .empty ↔
      bytes = List.replicate frameBytes 0 := by
  rw [← probe_eq_empty host format.domain bytes slot side]
  unfold probeFrame
  cases probe host format.domain bytes slot side with
  | none => simp
  | some found => cases found <;> simp [bind_eq_some_iff]

theorem probeFrame_eq_torn (format : Format Record) (host : Host) (bytes : List UInt8)
    (slot : Fin 64) (side : Fin 2) :
    probeFrame format host bytes slot side = some .torn ↔ bytes.length = frameBytes ∧
      (¬ ∀ byte ∈ bytes, byte = 0) ∧ bytes.drop bodyBytes ≠
        (checksum host format.domain (bytes.take bodyBytes) ((bytes[29]?).getD 0)).val := by
  rw [← probe_eq_torn host format.domain bytes slot side]
  unfold probeFrame
  cases probe host format.domain bytes slot side with
  | none => simp
  | some found => cases found <;> simp [bind_eq_some_iff]

/-! ### Reading a slot -/

/-- The succession of frames in one slot. Both sides of a slot belong to one lane. -/
def Format.discipline (format : Format Record) : Discipline (Selected Record) where
  generation selected := selected.frame.generation.toNat
  first selected := format.first selected.frame
  follows previous next := previous.laneNonce = next.laneNonce &&
    format.advance (some previous.frame) next.frame
  follows_generation := by
    intro previous next follows
    exact format.advance_generation (Bool.and_eq_true_iff.mp follows).2
  first_generation := by
    intro frame isFirst
    rw [format.first_generation isFirst]
    rfl

theorem generationSide_eq_home (generation : UInt64) :
    generationSide generation = home generation.toNat := rfl

/-- What the two sides of a slot are found to hold; a malformed side is fatal. -/
def readSides (format : Format Record) (host : Host) (regions : Fin 2 → List UInt8)
    (slot : Fin 64) : Option (Fin 2 → DoubleSlot.Probe (Selected Record)) :=
  Table.collect fun side => probeFrame format host (regions side) slot side

/-- What a slot was read as: its sides and the frame in force. -/
structure SlotReading (Record : Type) where
  sides : Fin 2 → DoubleSlot.Probe (Selected Record)
  selected : Option (Selected Record)

/-- Whether a side with a first write in flight, and the side opposite, still make a blank
slot. -/
abbrev Salvage (Record : Type) :=
  DoubleSlot.Probe (Selected Record) → DoubleSlot.Probe (Selected Record) → Bool

/-- Read a slot. `firstWriteSide` names the side on which the very first frame of the slot may
be in flight. -/
def readSlot (format : Format Record) (salvaged : Salvage Record) (host : Host)
    (regions : Fin 2 → List UInt8) (slot : Fin 64) (firstWriteSide : Option (Fin 2)) :
    Option (SlotReading Record) := do
  let sides ← readSides format host regions slot
  match current format.discipline sides with
  | some selected => some ⟨sides, selected⟩
  | none =>
    match firstWriteSide with
    | some side =>
      if salvaged (sides side) (sides (other side)) then some ⟨sides, none⟩ else none
    | none => none

theorem readSides_eq_some (format : Format Record) (host : Host)
    (regions : Fin 2 → List UInt8) (slot : Fin 64)
    (sides : Fin 2 → DoubleSlot.Probe (Selected Record)) :
    readSides format host regions slot = some sides ↔
      ∀ side, probeFrame format host (regions side) slot side = some (sides side) :=
  Table.collect_eq_some _ _

variable {sides : Fin 2 → DoubleSlot.Probe (Selected Record)} {regions : Fin 2 → List UInt8}
  {slot : Fin 64}

/-- Frames only ever probe as valid on the side their generation is written to. -/
theorem readSides_placed (read : readSides format host regions slot = some sides) :
    Placed format.discipline sides := by
  intro side selected holds
  have probed := (readSides_eq_some ..).mp read side
  rw [holds] at probed
  exact (encodeFrame_eq_some ((probeFrame_eq_valid ..).mp probed)).2.1.symm

variable {region : List UInt8} {side : Fin 2}

theorem readSides_update (read : readSides format host regions slot = some sides)
    {found : DoubleSlot.Probe (Selected Record)}
    (probed : probeFrame format host region slot side = some found) :
    readSides format host (update regions side region) slot =
      some (update sides side found) := by
  refine (readSides_eq_some ..).mpr fun candidate => ?_
  by_cases same : candidate = side
  · subst same
    rw [update_self, update_self, probed]
  · rw [update_of_ne same, update_of_ne same]
    exact (readSides_eq_some ..).mp read candidate

variable {after : Fin 2 → DoubleSlot.Probe (Selected Record)}

/-- Sides that differ from others in one region are read as differing on that side alone. -/
theorem readSides_update_inv (read : readSides format host regions slot = some sides)
    (readAfter : readSides format host (update regions side region) slot =
      some after) : after = update sides side (after side) := by
  funext candidate
  by_cases here : candidate = side
  · rw [here, update_self]
  · rw [update_of_ne here]
    have before := (readSides_eq_some ..).mp read candidate
    have later := (readSides_eq_some ..).mp readAfter candidate
    rw [update_of_ne here, before] at later
    exact (some_inj.mp later).symm

/-- A frame the validators let through is one the slot admits. -/
theorem Format.admits (format : Format Record) (laneNonce : Nonce)
    {previous : Option (Frame Record)} {next : Frame Record}
    (advances : format.advance previous next = true) :
    Admits format.discipline (previous.map (Selected.mk laneNonce)) ⟨laneNonce, next⟩ := by
  cases previous with
  | none => exact format.advance_first advances
  | some frame => exact Bool.and_eq_true_iff.mpr ⟨decide_eq_true rfl, advances⟩

/-- Writing a frame the validators let through, whole, to the side of its generation. -/
theorem readSides_write {laneNonce : Nonce} {previous : Option (Frame Record)} {next : Frame Record}
    (read : readSides format host regions slot = some sides)
    (selected : current format.discipline sides =
      some (previous.map (Selected.mk laneNonce))) (advances : format.advance previous next = true)
    (encoded : encodeFrame format host next ⟨laneNonce, slot, side⟩ = some bytes) :
    readSides format host (update regions side bytes) slot =
      some (update sides side (.valid ⟨laneNonce, next⟩)) ∧
    current format.discipline (update sides side (.valid ⟨laneNonce, next⟩)) =
      some (some ⟨laneNonce, next⟩) := by
  have sided : side = home (format.discipline.generation ⟨laneNonce, next⟩) :=
    (encodeFrame_eq_some encoded).2.1
  refine ⟨readSides_update read ((probeFrame_eq_valid ..).mpr encoded), ?_⟩
  rw [sided]
  exact (readSides_placed read).current_write selected (format.admits laneNonce advances)

/-- What an interrupted write leaves on a side: bytes of the right length that the checksum
does not accept. -/
structure Torn (host : Host) (domain : Domain) (region : List UInt8) : Prop where
  length : region.length = frameBytes
  checksum : region.drop bodyBytes ≠
    (checksum host domain (region.take bodyBytes) ((region[29]?).getD 0)).val

theorem Torn.probe {host : Host} {format : Format Record} {region : List UInt8}
    (torn : Torn host format.domain region) (slot : Fin 64) (side : Fin 2) :
    (probeFrame format host region slot side = some .torn ∧ ¬ ∀ byte ∈ region, byte = 0) ∨
      (probeFrame format host region slot side = some .empty ∧ ∀ byte ∈ region, byte = 0) := by
  by_cases blank : ∀ byte ∈ region, byte = 0
  · refine Or.inr ⟨(probeFrame_eq_empty ..).mpr ?_, blank⟩
    rw [← torn.length]
    exact eq_replicate_of_mem blank
  · exact Or.inl ⟨(probeFrame_eq_torn ..).mpr ⟨torn.length, blank, torn.checksum⟩, blank⟩

/-- An interrupted write on the side opposite to the frame in force leaves that frame in force.
A side that is left blank is only ever found next to a first frame. -/
theorem readSides_torn {inForce : Selected Record}
    (read : readSides format host regions slot = some sides)
    (selected : current format.discipline sides = some (some inForce))
    (away : side = other (generationSide inForce.frame.generation))
    (torn : Torn host format.domain region)
    (anchored : format.first inForce.frame = false → region[0]? = some 0x41) :
    ∃ found, (∀ frame, found ≠ .valid frame) ∧
      readSides format host (update regions side region) slot =
        some (update sides side found) ∧
      current format.discipline (update sides side found) = some (some inForce) := by
  rcases torn.probe slot side with ⟨probed, _⟩ | ⟨probed, blank⟩
  · exact ⟨.torn, nofun, readSides_update read probed,
      (readSides_placed read).current_torn selected away⟩
  · have isFirst : format.first inForce.frame = true := by
      by_contra notFirst
      exact not_allZero_of_head (anchored (Bool.eq_false_iff.mpr notFirst)) blank
    exact ⟨.empty, nofun, readSides_update read probed,
      (readSides_placed read).current_blanked selected away isFirst⟩

/-- An interrupted first write leaves a slot that cannot be read. -/
theorem readSides_torn_blank (read : readSides format host regions slot = some sides)
    (selected : current format.discipline sides = some none) (torn : Torn host format.domain region)
    (changed : region ≠ regions side)
    (readAfter : readSides format host (update regions side region) slot =
      some after) : current format.discipline after = none := by
  have blank := (current_eq_blank _ _).mp selected
  have old := (readSides_eq_some ..).mp read side
  rw [blank, probeFrame_eq_empty] at old
  rcases torn.probe slot side with ⟨probed, _⟩ | ⟨_, allZero⟩
  · have sidesAfter := readSides_update read probed
    rw [readAfter] at sidesAfter
    obtain rfl := some_inj.mp sidesAfter
    refine current_torn_blank _ (update_self ..) ?_
    rw [update_of_ne (other_ne side), blank]
  · refine absurd ?_ changed
    rw [old, ← torn.length]
    exact eq_replicate_of_mem allZero

/-- Without a first write in flight a slot is read by selection alone. -/
theorem readSlot_none_eq_some (format : Format Record) (salvaged : Salvage Record)
    (host : Host) (regions : Fin 2 → List UInt8) (slot : Fin 64)
    (reading : SlotReading Record) :
    readSlot format salvaged host regions slot none = some reading ↔
      readSides format host regions slot = some reading.sides ∧
        current format.discipline reading.sides = some reading.selected := by
  unfold readSlot
  rw [bind_eq_bind, bind_eq_some_iff]
  constructor
  · rintro ⟨sides, read, selected⟩
    split at selected
    · rename_i inForce selects
      obtain rfl := some_inj.mp selected
      exact ⟨read, selects⟩
    · cases selected
  · rintro ⟨read, selects⟩
    refine ⟨reading.sides, read, ?_⟩
    rw [selects]

/-- The slots with one of them replaced. -/
def changed {Entry : Type} (slots : Fin 64 → Option Entry) (change : Option (Fin 64 × Entry)) :
    Fin 64 → Option Entry :=
  match change with
  | none => slots
  | some (slot, entry) => update slots slot (some entry)

end Axial.Fs
