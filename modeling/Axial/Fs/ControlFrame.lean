/-
This file models the 16 KiB control frame that both halves of the root recovery
control are made of (`control_frame.rs`): its address, its encoding and its
probe. The build and the crates the source links against enter through `Host`.
-/

import Axial.Library.Reader

namespace Axial.Fs

open Bytes Reader List Option

/-- What the frame code takes from the build and from linked crates: the platform tag, SHA-256,
Unicode normalization form C and Unicode case folding. -/
structure Host where
  platform : UInt8
  sha256 : List UInt8 → Fixed 32
  nfc : String → String
  caseFold : String → String

/-- A nonzero 16-byte identifier, as `random_nonzero_id` draws them and `Address::new` demands
of a lane. -/
abbrev Nonce := {bytes : Fixed 16 // bytes ≠ Fixed.zero 16}

namespace ControlFrame

abbrev frameBytes : Nat := 16 * 1024
abbrev headerBytes : Nat := 52
abbrev bodyBytes : Nat := frameBytes - 32
abbrev schema : Nat := 1

inductive Domain where
  | recovery
  | successor
  deriving DecidableEq

/-- `AXRECV01` and `AXSUCC01`. -/
def Domain.magic : Domain → Fixed 8
  | .recovery => ⟨[0x41, 0x58, 0x52, 0x45, 0x43, 0x56, 0x30, 0x31], rfl⟩
  | .successor => ⟨[0x41, 0x58, 0x53, 0x55, 0x43, 0x43, 0x30, 0x31], rfl⟩

/-- What the checksum of a frame is salted with. -/
def Domain.tag : Domain → List UInt8
  | .recovery => "axial.fs.recovery-frame.v1\x00".toByteArray.data.toList
  | .successor => "axial.fs.successor-frame.v1\x00".toByteArray.data.toList

/-- Where the domain starts in the control file. -/
def Domain.base : Domain → Nat
  | .recovery => 0
  | .successor => 2097152

/-- Where a frame belongs. -/
structure Address where
  lane : Nonce
  slot : Fin 64
  side : Fin 2
  deriving DecidableEq

def Address.new (lane : Fixed 16) (slot side : UInt8) : Option Address :=
  if valid : lane ≠ Fixed.zero 16 ∧ slot.toNat < 64 ∧ side.toNat < 2 then
    some ⟨⟨lane, valid.1⟩, ⟨slot.toNat, valid.2.1⟩, ⟨side.toNat, valid.2.2⟩⟩
  else
    none

structure Envelope where
  address : Address
  generation : UInt64
  kind : UInt8
  payload : List UInt8
  deriving DecidableEq

inductive Probe where
  | empty
  | torn
  | valid (envelope : Envelope)

def offset (domain : Domain) (slot : Fin 64) (side : Fin 2) : Nat :=
  domain.base + (slot.val * 2 + side.val) * frameBytes

theorem sides_ne_zero : NeZero 2 := ⟨two_ne_zero⟩

theorem slots_ne_zero : NeZero 64 := ⟨by decide⟩

attribute [local instance] sides_ne_zero in
def generationSide (generation : UInt64) : Fin 2 :=
  if generation.toNat % 2 = 0 then 1 else 0

def checksum (host : Host) (domain : Domain) (body : List UInt8) (side : UInt8) : Fixed 32 :=
  host.sha256 (domain.tag ++ [side] ++ body)

/-- The first 52 bytes of a frame. -/
def header (host : Host) (domain : Domain) (envelope : Envelope) : List UInt8 :=
  domain.magic.val ++ (littleEndian 2 schema ++ (host.platform :: envelope.kind ::
    (envelope.address.lane.val.val ++ (UInt8.ofNat envelope.address.slot.val ::
      UInt8.ofNat envelope.address.side.val :: (List.replicate 6 0 ++
        (littleEndian 8 envelope.generation.toNat ++
          (littleEndian 4 envelope.payload.length ++ List.replicate 4 0)))))))

/-- A frame without its checksum: header, payload, and zeros up to the fixed length. -/
def body (host : Host) (domain : Domain) (envelope : Envelope) : List UInt8 :=
  header host domain envelope ++ (envelope.payload ++
    List.replicate (bodyBytes - (headerBytes + envelope.payload.length)) 0)

def encode (host : Host) (domain : Domain) (address : Address) (generation : UInt64)
    (kind : UInt8) (payload : List UInt8) : Option (List UInt8) :=
  if generation ≠ 0 ∧ address.side = generationSide generation ∧
      headerBytes + payload.length ≤ bodyBytes then
    let body := body host domain ⟨address, generation, kind, payload⟩
    some (body ++ (checksum host domain body (UInt8.ofNat address.side.val)).val)
  else
    none

/-- The checks `probe` makes on a frame whose checksum matches. -/
def readEnvelope (host : Host) (domain : Domain) (slot : Fin 64) (side : Fin 2) :
    ByteReader Envelope := do
  let magic ← array 8
  require (magic = domain.magic)
  let version ← number 2
  require (version = schema)
  let platform ← byte
  let kind ← byte
  let lane ← array 16
  let slotByte ← byte
  let sideByte ← byte
  let address ← lift (Address.new lane slotByte sideByte)
  require (platform = host.platform ∧ address.slot = slot ∧ address.side = side)
  zeros 6
  let generation ← uint64
  require (generation ≠ 0 ∧ side = generationSide generation)
  let length ← number 4
  zeros 4
  let payload ← take length
  let padding ← remainder
  require (∀ byte ∈ padding, byte = 0)
  pure ⟨address, generation, kind, payload⟩

def probe (host : Host) (domain : Domain) (bytes : List UInt8) (slot : Fin 64) (side : Fin 2) :
    Option Probe :=
  if bytes.length = frameBytes then
    if ∀ byte ∈ bytes, byte = 0 then
      some .empty
    -- The side that salts the checksum is the one the frame declares, not the one asked for.
    else if bytes.drop bodyBytes =
        (checksum host domain (bytes.take bodyBytes) ((bytes[29]?).getD 0)).val then
      (decode (readEnvelope host domain slot side) (bytes.take bodyBytes)).map Probe.valid
    else
      some .torn
  else
    none

/-! ### Sizes and fixed fields -/

theorem header_length (host : Host) (domain : Domain) (envelope : Envelope) :
    (header host domain envelope).length = headerBytes := by
  simp only [header, length_append, length_cons, Fixed.length_val,
    littleEndian_length, length_replicate]

theorem body_length (host : Host) (domain : Domain) (envelope : Envelope)
    (fits : headerBytes + envelope.payload.length ≤ bodyBytes) :
    (body host domain envelope).length = bodyBytes := by
  rw [body, length_append, length_append, header_length, length_replicate]
  omega

/-- The slot and side bytes follow the first 28 bytes of the header. -/
theorem body_address (host : Host) (domain : Domain) (envelope : Envelope)
    (tail : List UInt8) :
    (body host domain envelope ++ tail)[28]? = some (UInt8.ofNat envelope.address.slot.val) ∧
      (body host domain envelope ++ tail)[29]? =
        some (UInt8.ofNat envelope.address.side.val) := by
  have front : (domain.magic.val ++ littleEndian 2 schema ++ [host.platform, envelope.kind] ++
      envelope.address.lane.val.val).length = 28 := by
    simp only [length_append, length_cons, Fixed.length_val, littleEndian_length,
      length_nil]
  have split : body host domain envelope ++ tail =
      (domain.magic.val ++ littleEndian 2 schema ++ [host.platform, envelope.kind] ++
        envelope.address.lane.val.val) ++ (UInt8.ofNat envelope.address.slot.val ::
      UInt8.ofNat envelope.address.side.val :: (List.replicate 6 0 ++
        (littleEndian 8 envelope.generation.toNat ++ (littleEndian 4 envelope.payload.length ++
          List.replicate 4 0)) ++ (envelope.payload ++
        List.replicate (bodyBytes - (headerBytes + envelope.payload.length)) 0) ++ tail)) := by
    simp only [body, header, append_assoc, cons_append, nil_append]
  rw [split, getElem?_append_right (by omega), getElem?_append_right (by omega), front]
  exact ⟨rfl, rfl⟩

theorem body_head (host : Host) (domain : Domain) (envelope : Envelope) (tail : List UInt8) :
    (body host domain envelope ++ tail)[0]? = some 0x41 := by
  cases domain <;> rfl

/-- The third byte is the one in which the two magics first differ. -/
theorem body_magic (host : Host) (domain : Domain) (envelope : Envelope) (tail : List UInt8) :
    (body host domain envelope ++ tail)[2]? = domain.magic.val[2]? := by
  cases domain <;> rfl

/-! ### Addresses -/

theorem Address.new_eq_some (lane : Fixed 16) (slot side : UInt8) (address : Address) :
    Address.new lane slot side = some address ↔ lane = address.lane.val ∧
      slot = UInt8.ofNat address.slot.val ∧ side = UInt8.ofNat address.side.val := by
  unfold Address.new
  constructor
  · intro built
    split at built
    · rw [← some_inj.mp built]
      exact ⟨rfl, UInt8.ofNat_toNat.symm, UInt8.ofNat_toNat.symm⟩
    · cases built
  · rintro ⟨rfl, rfl, rfl⟩
    have slotSmall := address.slot.isLt
    have sideSmall := address.side.isLt
    have slotByte : (UInt8.ofNat address.slot.val).toNat = address.slot.val := by
      rw [UInt8.toNat_ofNat']
      omega
    have sideByte : (UInt8.ofNat address.side.val).toNat = address.side.val := by
      rw [UInt8.toNat_ofNat']
      omega
    rw [dif_pos ⟨address.lane.property, by omega, by omega⟩]
    simp only [slotByte, sideByte, Fin.eta, Subtype.coe_eta]

/-! ### Exactness of the probe -/

theorem decode_readEnvelope_eq_some (host : Host) (domain : Domain) (slot : Fin 64)
    (side : Fin 2) (bytes : List UInt8) (envelope : Envelope) :
    decode (readEnvelope host domain slot side) bytes = some envelope ↔
      (envelope.address.slot = slot ∧ envelope.address.side = side ∧
        envelope.generation ≠ 0 ∧ side = generationSide envelope.generation ∧
        envelope.payload.length < 256 ^ 4) ∧
      ∃ count, bytes =
        header host domain envelope ++ (envelope.payload ++ List.replicate count 0) := by
  rw [decode_eq_some]
  unfold readEnvelope
  simp only [array_bind, require_bind, number_bind, byte_bind, lift_bind, zeros_bind,
    uint64_bind, take_bind, remainder_bind, run_pure_eq_some, Address.new_eq_some]
  constructor
  · rintro ⟨magic, _, rfl, rfl, version, _, _, rfl, rfl, platform, _, rfl, kind, _, rfl,
      lane, _, rfl, slotByte, _, rfl, sideByte, _, rfl, address, ⟨rfl, rfl, rfl⟩,
      ⟨rfl, rfl, rfl⟩, _, rfl, generation, _, rfl, ⟨nonzero, sided⟩, length, _, small, rfl, _,
      rfl, payload, padding, rfl, rfl, allZero, equal⟩
    obtain ⟨rfl, _⟩ := Prod.mk.inj equal
    refine ⟨⟨rfl, rfl, nonzero, sided, small⟩, padding.length, ?_⟩
    rw [← eq_replicate_of_mem allZero]
    simp only [header, append_assoc, cons_append]
  · rintro ⟨⟨rfl, rfl, nonzero, sided, small⟩, count, rfl⟩
    have allZero : ∀ byte ∈ List.replicate count (0 : UInt8), byte = 0 :=
      fun byte member => eq_of_mem_replicate member
    refine ⟨domain.magic, _, by simp only [header, append_assoc, cons_append],
      rfl, schema, _, by decide, rfl, rfl, host.platform, _, rfl, envelope.kind, _, rfl,
      envelope.address.lane.val, _, rfl, _, _, rfl, _, _, rfl, envelope.address,
      ⟨rfl, rfl, rfl⟩, ⟨rfl, rfl, rfl⟩, _, rfl, envelope.generation, _, rfl, ⟨nonzero, sided⟩,
      envelope.payload.length, _, small, rfl, _, rfl, envelope.payload, _, rfl, rfl, allZero,
      rfl⟩

theorem encode_eq_some (host : Host) (domain : Domain) (address : Address)
    (generation : UInt64) (kind : UInt8) (payload bytes : List UInt8) :
    encode host domain address generation kind payload = some bytes ↔
      (generation ≠ 0 ∧ address.side = generationSide generation ∧
        headerBytes + payload.length ≤ bodyBytes) ∧
      bytes = body host domain ⟨address, generation, kind, payload⟩ ++
        (checksum host domain (body host domain ⟨address, generation, kind, payload⟩)
          (UInt8.ofNat address.side.val)).val := by
  unfold encode
  constructor
  · intro encoded
    split at encoded
    · rename_i valid
      exact ⟨valid, (some_inj.mp encoded).symm⟩
    · cases encoded
  · rintro ⟨valid, rfl⟩
    rw [if_pos valid]

variable {bytes payload : List UInt8} {domain : Domain} {generation : UInt64} {host : Host}
  {address : Address} {kind : UInt8}

theorem encode_length (encoded : encode host domain address generation kind payload = some bytes) :
    bytes.length = frameBytes := by
  obtain ⟨⟨_, _, fits⟩, rfl⟩ := (encode_eq_some ..).mp encoded
  rw [length_append, body_length _ _ _ fits, Fixed.length_val]
  rfl

/-- An encoded frame starts with the `A` of its magic. -/
theorem encode_head (encoded : encode host domain address generation kind payload = some bytes) :
    bytes[0]? = some 0x41 := by
  obtain ⟨_, rfl⟩ := (encode_eq_some ..).mp encoded
  exact body_head _ _ _ _

theorem not_allZero_of_head (head : bytes[0]? = some 0x41) : ¬ ∀ byte ∈ bytes, byte = 0 := by
  intro allZero
  have zero := allZero 0x41 (mem_of_getElem? head)
  exact absurd zero (by decide)

theorem encode_fields (encoded : encode host domain address generation kind payload = some bytes) :
    bytes[2]? = domain.magic.val[2]? ∧ bytes[28]? = some (UInt8.ofNat address.slot.val) ∧
      bytes[29]? = some (UInt8.ofNat address.side.val) := by
  obtain ⟨_, rfl⟩ := (encode_eq_some ..).mp encoded
  exact ⟨body_magic .., body_address ..⟩

/-- The bytes of a frame tell its domain, slot and side. -/
theorem encode_determines {other : Domain} {first second : Address}
    {firstGeneration secondGeneration : UInt64} {firstKind secondKind : UInt8}
    {firstPayload secondPayload : List UInt8}
    (left : encode host domain first firstGeneration firstKind firstPayload = some bytes)
    (right : encode host other second secondGeneration secondKind secondPayload = some bytes) :
    domain = other ∧ first.slot = second.slot ∧ first.side = second.side := by
  obtain ⟨leftMagic, leftSlot, leftSide⟩ := encode_fields left
  obtain ⟨rightMagic, rightSlot, rightSide⟩ := encode_fields right
  have byteInjective : ∀ {one two : Nat}, one < 256 → two < 256 →
      some (UInt8.ofNat one) = some (UInt8.ofNat two) → one = two := by
    intro one two oneSmall twoSmall same
    have values := congrArg UInt8.toNat (some_inj.mp same)
    rw [UInt8.toNat_ofNat', UInt8.toNat_ofNat'] at values
    omega
  have slots := byteInjective (by omega) (by omega) (leftSlot.symm.trans rightSlot)
  have sides := byteInjective (by omega) (by omega) (leftSide.symm.trans rightSide)
  refine ⟨?_, Fin.ext slots, Fin.ext sides⟩
  have magic := leftMagic.symm.trans rightMagic
  revert magic
  cases domain <;> cases other <;> decide

/-- A frame that probes as valid is exactly the encoding of what was read, at the address that
was asked for; and every encoding probes as valid at its own address. -/
theorem probe_eq_valid (host : Host) (domain : Domain) (bytes : List UInt8) (slot : Fin 64)
    (side : Fin 2) (envelope : Envelope) :
    probe host domain bytes slot side = some (.valid envelope) ↔
      encode host domain envelope.address envelope.generation envelope.kind envelope.payload =
        some bytes ∧ envelope.address.slot = slot ∧ envelope.address.side = side := by
  constructor
  · intro probed
    unfold probe at probed
    split at probed
    case isFalse => cases probed
    rename_i length
    split at probed
    case isTrue => cases probed
    split at probed
    case isFalse => cases probed
    rename_i digest
    obtain ⟨found, read, equal⟩ := map_eq_some_iff.mp probed
    obtain rfl : found = envelope := by injection equal
    obtain ⟨⟨slotEq, sideEq, nonzero, sided, _⟩, count, bodyEq⟩ :=
      (decode_readEnvelope_eq_some ..).mp read
    have taken : (bytes.take bodyBytes).length = bodyBytes := by
      rw [length_take, length]
      rfl
    have sizes := congrArg List.length bodyEq
    rw [taken, length_append, length_append, header_length, length_replicate]
      at sizes
    have fits : headerBytes + found.payload.length ≤ bodyBytes := by omega
    have whole : bytes.take bodyBytes = body host domain found := by
      rw [bodyEq, body]
      congr 3
      omega
    have declared : (bytes[29]?).getD 0 = UInt8.ofNat found.address.side.val := by
      rw [← take_append_drop bodyBytes bytes, whole, (body_address ..).2]
      rfl
    refine ⟨(encode_eq_some ..).mpr ⟨⟨nonzero, sideEq.trans sided, fits⟩, ?_⟩, slotEq, sideEq⟩
    rw [declared, whole] at digest
    rw [← digest, ← whole, take_append_drop]
  · rintro ⟨encoded, rfl, rfl⟩
    have length := encode_length encoded
    have nonempty := not_allZero_of_head (encode_head encoded)
    obtain ⟨⟨nonzero, sided, fits⟩, bytesEq⟩ := (encode_eq_some ..).mp encoded
    have bodyLength := body_length host domain envelope fits
    have taken : bytes.take bodyBytes = body host domain envelope := by
      rw [bytesEq, ← bodyLength, take_left]
    have dropped : bytes.drop bodyBytes = (checksum host domain (body host domain envelope)
        (UInt8.ofNat envelope.address.side.val)).val := by
      rw [bytesEq, ← bodyLength, drop_left]
    have declared : (bytes[29]?).getD 0 = UInt8.ofNat envelope.address.side.val := by
      rw [bytesEq, (body_address ..).2]
      rfl
    have read : decode (readEnvelope host domain envelope.address.slot envelope.address.side)
        (body host domain envelope) = some envelope := by
      refine (decode_readEnvelope_eq_some ..).mpr
        ⟨⟨rfl, rfl, nonzero, sided, ?_⟩, _, rfl⟩
      simp only [bodyBytes, frameBytes] at fits
      omega
    unfold probe
    rw [if_pos length, if_neg nonempty]
    simp only [declared, taken, dropped, if_true, read, map_some]

theorem probe_eq_empty (host : Host) (domain : Domain) (bytes : List UInt8) (slot : Fin 64)
    (side : Fin 2) :
    probe host domain bytes slot side = some .empty ↔ bytes = List.replicate frameBytes 0 := by
  unfold probe
  constructor
  · intro probed
    split at probed
    case isFalse => cases probed
    rename_i length
    split at probed
    · rename_i allZero
      rw [eq_replicate_of_mem allZero, length]
    · split at probed
      · obtain ⟨_, _, equal⟩ := map_eq_some_iff.mp probed
        cases equal
      · cases probed
  · rintro rfl
    rw [if_pos length_replicate,
      if_pos fun byte member => eq_of_mem_replicate member]

theorem probe_eq_torn (host : Host) (domain : Domain) (bytes : List UInt8) (slot : Fin 64)
    (side : Fin 2) :
    probe host domain bytes slot side = some .torn ↔ bytes.length = frameBytes ∧
      (¬ ∀ byte ∈ bytes, byte = 0) ∧ bytes.drop bodyBytes ≠
        (checksum host domain (bytes.take bodyBytes) ((bytes[29]?).getD 0)).val := by
  unfold probe
  constructor
  · intro probed
    split at probed
    case isFalse => cases probed
    rename_i length
    split at probed
    case isTrue => cases probed
    rename_i nonempty
    split at probed
    · obtain ⟨_, _, equal⟩ := map_eq_some_iff.mp probed
      cases equal
    · rename_i digest
      exact ⟨length, nonempty, digest⟩
  · rintro ⟨length, nonempty, digest⟩
    rw [if_pos length, if_neg nonempty]
    exact if_neg digest

end ControlFrame

end Axial.Fs
