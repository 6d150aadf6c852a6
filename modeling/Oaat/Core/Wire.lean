/-
Oaat.Core.Wire — the audio packet header and the clock sync packet
(`oaat-core/src/wire.rs`).

Bytes are lists of `UInt8`; a fixed-size array argument is a list that the
caller has cut to that size. `PacketFlags` holds any byte, since the `bitflags`
type has a constructor that keeps bits without a name (`from_bits_retain`), and
`encode` does not mask them; `PacketFlags.Declared` says that there are none.

`decode_encode` is the round trip of the audio header, for declared flags, and
`ClockSyncPacket.decode_encode` the one of the clock packet, both for the
version the decoder accepts.
-/
import Oaat.Core.Basic
import Oaat.Lib.BigEndian

namespace Oaat.Core

open Oaat.Lib

def AUDIO_HEADER_SIZE : Nat := 32

/-- The packet flags. Four of the bits have names. -/
structure PacketFlags where
  bits : UInt8
  deriving Repr, DecidableEq

namespace PacketFlags

def empty : PacketFlags := ⟨0⟩
def firstPacket : PacketFlags := ⟨0x01⟩
def lastPacket : PacketFlags := ⟨0x02⟩
def fec : PacketFlags := ⟨0x04⟩
def formatChange : PacketFlags := ⟨0x08⟩

/-- No bit is set that has no name. -/
def Declared (f : PacketFlags) : Prop := f.bits &&& 0x0F = f.bits

instance (f : PacketFlags) : Decidable f.Declared := inferInstanceAs (Decidable (_ = _))

def fromBits (b : UInt8) : Option PacketFlags :=
  if b &&& 0x0F = b then some ⟨b⟩ else none

def contains (f g : PacketFlags) : Bool := f.bits &&& g.bits == g.bits

theorem fromBits_bits {f : PacketFlags} (h : f.Declared) : fromBits f.bits = some f := if_pos h

end PacketFlags

structure AudioPacketHeader where
  version : UInt8
  flags : PacketFlags
  format : AudioFormat
  sequence : UInt16
  streamId : UInt32
  ptsNs : UInt64
  sampleOffset : UInt64
  payloadLen : UInt16
  fecGroupSize : UInt8
  fecIndex : UInt8
  fecLenXor : UInt16
  deriving Repr, DecidableEq

/-- The sub-slice `buf[a..b]`. -/
def slice (buf : List UInt8) (a b : Nat) : List UInt8 := (buf.drop a).take (b - a)

namespace AudioPacketHeader

def CURRENT_VERSION : UInt8 := 1

def encode (h : AudioPacketHeader) : List UInt8 :=
  [(h.version <<< 4) ||| h.flags.bits, h.format.wireId]
    ++ toBe 2 h.sequence.toNat
    ++ toBe 4 h.streamId.toNat
    ++ toBe 8 h.ptsNs.toNat
    ++ toBe 8 h.sampleOffset.toNat
    ++ toBe 2 h.payloadLen.toNat
    ++ [h.fecGroupSize, h.fecIndex]
    ++ toBe 2 h.fecLenXor.toNat
    ++ [0, 0]

def decode (buf : List UInt8) : Except OaatError AudioPacketHeader :=
  let version := buf.getD 0 0 >>> 4
  if version ≠ CURRENT_VERSION then
    .error (.versionMismatch CURRENT_VERSION.toUInt32 version.toUInt32)
  else
    match PacketFlags.fromBits (buf.getD 0 0 &&& 0x0F) with
    | none => .error (.invalidPacketFlags (buf.getD 0 0 &&& 0x0F))
    | some flags =>
      match AudioFormat.fromWireId (buf.getD 1 0) with
      | none => .error (.unknownFormat (buf.getD 1 0))
      | some format =>
        .ok
          { version, flags, format
            sequence := UInt16.ofNat (ofBe (slice buf 2 4))
            streamId := UInt32.ofNat (ofBe (slice buf 4 8))
            ptsNs := UInt64.ofNat (ofBe (slice buf 8 16))
            sampleOffset := UInt64.ofNat (ofBe (slice buf 16 24))
            payloadLen := UInt16.ofNat (ofBe (slice buf 24 26))
            fecGroupSize := buf.getD 26 0
            fecIndex := buf.getD 27 0
            fecLenXor := UInt16.ofNat (ofBe (slice buf 28 30)) }

theorem length_encode (h : AudioPacketHeader) : h.encode.length = AUDIO_HEADER_SIZE := by
  simp [encode, AUDIO_HEADER_SIZE]

end AudioPacketHeader

inductive ClockSyncType where
  | request
  | response
  deriving Repr, DecidableEq

/-- The discriminant of the source's enum (`kind as u8`). -/
def ClockSyncType.asU8 : ClockSyncType → UInt8
  | .request => 0x01
  | .response => 0x02

structure ClockSyncPacket where
  version : UInt8
  kind : ClockSyncType
  sequence : UInt16
  t1 : UInt64
  t2 : UInt64
  t3 : UInt64
  deriving Repr, DecidableEq

namespace ClockSyncPacket

def SIZE : Nat := 28

def CURRENT_VERSION : UInt8 := 1

def encode (p : ClockSyncPacket) : List UInt8 :=
  [(p.version <<< 4) ||| p.kind.asU8, 0]
    ++ toBe 2 p.sequence.toNat
    ++ toBe 8 p.t1.toNat
    ++ toBe 8 p.t2.toNat
    ++ toBe 8 p.t3.toNat

def decode (buf : List UInt8) : Except OaatError ClockSyncPacket :=
  let version := buf.getD 0 0 >>> 4
  if version ≠ CURRENT_VERSION then
    .error (.versionMismatch CURRENT_VERSION.toUInt32 version.toUInt32)
  else
    let body (kind : ClockSyncType) : ClockSyncPacket :=
      { version, kind
        sequence := UInt16.ofNat (ofBe (slice buf 2 4))
        t1 := UInt64.ofNat (ofBe (slice buf 4 12))
        t2 := UInt64.ofNat (ofBe (slice buf 12 20))
        t3 := UInt64.ofNat (ofBe (slice buf 20 28)) }
    let other := buf.getD 0 0 &&& 0x0F
    if other = 0x01 then .ok (body .request)
    else if other = 0x02 then .ok (body .response)
    else .error (.invalidClockSyncType other)

end ClockSyncPacket

/-! ## Round trips -/

/-- Packing version 1 above four flag bits loses neither: checked byte by byte. -/
theorem packed_bits : ∀ i : Fin 256, let f := UInt8.ofNat i
    f &&& 0x0F = f →
      ((1 : UInt8) <<< 4 ||| f) >>> 4 = 1 ∧ ((1 : UInt8) <<< 4 ||| f) &&& 0x0F = f := by
  decide +kernel

theorem unpack {f : UInt8} (hf : f &&& 0x0F = f) :
    ((1 : UInt8) <<< 4 ||| f) >>> 4 = 1 ∧ ((1 : UInt8) <<< 4 ||| f) &&& 0x0F = f := by
  have h := packed_bits ⟨f.toNat, f.toNat_lt⟩
  simp only [UInt8.ofNat_toNat] at h
  exact h hf

theorem u16_roundtrip (x : UInt16) : UInt16.ofNat (ofBe (toBe 2 x.toNat)) = x := by
  rw [ofBe_toBe_of_lt (by simpa using x.toNat_lt), UInt16.ofNat_toNat]

theorem u32_roundtrip (x : UInt32) : UInt32.ofNat (ofBe (toBe 4 x.toNat)) = x := by
  rw [ofBe_toBe_of_lt (by simpa using x.toNat_lt), UInt32.ofNat_toNat]

theorem u64_roundtrip (x : UInt64) : UInt64.ofNat (ofBe (toBe 8 x.toNat)) = x := by
  rw [ofBe_toBe_of_lt (by simpa using x.toNat_lt), UInt64.ofNat_toNat]

/-- What the decoder reads at the fixed offsets of an encoded header. -/
theorem AudioPacketHeader.fields_encode (h : AudioPacketHeader) (rest : List UInt8) :
    let buf := h.encode ++ rest
    buf.getD 0 0 = (h.version <<< 4) ||| h.flags.bits ∧ buf.getD 1 0 = h.format.wireId ∧
    slice buf 2 4 = toBe 2 h.sequence.toNat ∧ slice buf 4 8 = toBe 4 h.streamId.toNat ∧
    slice buf 8 16 = toBe 8 h.ptsNs.toNat ∧ slice buf 16 24 = toBe 8 h.sampleOffset.toNat ∧
    slice buf 24 26 = toBe 2 h.payloadLen.toNat ∧ buf.getD 26 0 = h.fecGroupSize ∧
    buf.getD 27 0 = h.fecIndex ∧ slice buf 28 30 = toBe 2 h.fecLenXor.toNat :=
  ⟨rfl, rfl, rfl, rfl, rfl, rfl, rfl, rfl, rfl, rfl⟩

/-- **Round trip of the audio header**, for the version the decoder accepts and flags
that have names. -/
theorem AudioPacketHeader.decode_encode (h : AudioPacketHeader)
    (hv : h.version = AudioPacketHeader.CURRENT_VERSION) (hf : h.flags.Declared) :
    AudioPacketHeader.decode h.encode = .ok h := by
  obtain ⟨h0, h1, h2, h4, h8, h16, h24, h26, h27, h28⟩ := h.fields_encode []
  rw [List.append_nil] at h0 h1 h2 h4 h8 h16 h24 h26 h27 h28
  have hver : h.encode.getD 0 0 >>> 4 = 1 := by
    rw [h0, hv]; exact (unpack hf).1
  have hflags : h.encode.getD 0 0 &&& 0x0F = h.flags.bits := by
    rw [h0, hv]; exact (unpack hf).2
  simp only [AudioPacketHeader.decode, hver, hflags, h1, h2, h4, h8, h16, h24, h26, h27, h28,
    AudioPacketHeader.CURRENT_VERSION, PacketFlags.fromBits_bits hf, AudioFormat.fromWireId_wireId,
    u16_roundtrip, u32_roundtrip, u64_roundtrip, ne_eq, not_true_eq_false, if_false]
  rw [show (1 : UInt8) = h.version from hv.symm]

theorem ClockSyncPacket.decode_encode (p : ClockSyncPacket)
    (hv : p.version = ClockSyncPacket.CURRENT_VERSION) :
    ClockSyncPacket.decode p.encode = .ok p := by
  have h0 : p.encode.getD 0 0 = (p.version <<< 4) ||| p.kind.asU8 := rfl
  have h2 : slice p.encode 2 4 = toBe 2 p.sequence.toNat := rfl
  have h4 : slice p.encode 4 12 = toBe 8 p.t1.toNat := rfl
  have h12 : slice p.encode 12 20 = toBe 8 p.t2.toNat := rfl
  have h20 : slice p.encode 20 28 = toBe 8 p.t3.toNat := rfl
  have hk : p.kind.asU8 &&& 0x0F = p.kind.asU8 := by cases p.kind <;> rfl
  have hver : p.encode.getD 0 0 >>> 4 = 1 := by rw [h0, hv]; exact (unpack hk).1
  have hkind : p.encode.getD 0 0 &&& 0x0F = p.kind.asU8 := by rw [h0, hv]; exact (unpack hk).2
  simp only [ClockSyncPacket.decode, hver, hkind, h2, h4, h12, h20,
    ClockSyncPacket.CURRENT_VERSION, u16_roundtrip, u64_roundtrip, ne_eq, not_true_eq_false,
    if_false]
  obtain ⟨version, kind, sequence, t1, t2, t3⟩ := p
  simp only [ClockSyncPacket.CURRENT_VERSION] at hv
  subst hv
  cases kind <;> rfl

end Oaat.Core
