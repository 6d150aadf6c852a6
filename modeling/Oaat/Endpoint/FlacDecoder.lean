/-
Oaat.Endpoint.FlacDecoder — FLAC frames cut out of a byte stream
(`oaat-endpoint/src/flac_decoder.rs`: `FlacStreamDecoder`).

Positions of the source are suffixes here: `resync` moves to the first place
where a frame header may begin, `frameEnd` counts from there, and
`drainFrames` goes on with what follows the frame. A loop of the source that
advances by at least a byte per iteration takes the length of its input as
fuel.

The codec itself (symphonia) is a parameter. `f32` samples are their bits.
-/
import Mathlib.Data.List.Basic
import Mathlib.Logic.Function.Iterate

namespace Oaat.Endpoint

/-! ## Checksums -/

/-- One bit of CRC-8, polynomial x^8 + x^2 + x + 1. -/
def crc8Bit (crc : UInt8) : UInt8 :=
  if crc &&& 0x80 ≠ 0 then (crc <<< 1) ^^^ 0x07 else crc <<< 1

def crc8 (data : List UInt8) : UInt8 :=
  data.foldl (fun crc b => crc8Bit^[8] (crc ^^^ b)) 0

/-- One bit of CRC-16, polynomial x^16 + x^15 + x^2 + 1. -/
def crc16Bit (crc : UInt16) : UInt16 :=
  if crc &&& 0x8000 ≠ 0 then (crc <<< 1) ^^^ 0x8005 else crc <<< 1

def crc16Update (crc : UInt16) (byte : UInt8) : UInt16 :=
  crc16Bit^[8] (crc ^^^ (byte.toUInt16 <<< 8))

/-- `u16::from_be_bytes` -/
def u16Be (hi lo : UInt8) : UInt16 := (hi.toUInt16 <<< 8) ||| lo.toUInt16

/-! ## The stream header -/

/-- The body length of a metadata block. -/
def blockLen (b1 b2 b3 : UInt8) : Nat := (b1.toNat * 256 + b2.toNat) * 256 + b3.toNat

/-- The metadata blocks at the front of a buffer, up to the last one. -/
def metadataLen : Nat → List UInt8 → Option Nat
  | 0, _ => none
  | fuel + 1, buf =>
    match buf with
    | b0 :: b1 :: b2 :: b3 :: body =>
      let len := blockLen b1 b2 b3
      if body.length < len then none
      else if b0 &&& 0x80 ≠ 0 then some (4 + len)
      else (metadataLen fuel (body.drop len)).map (4 + len + ·)
    | _ => none

/-- Length of the stream header (`fLaC` and all metadata blocks) once the last
metadata block is fully buffered. -/
def streamHeaderLen (buf : List UInt8) : Option Nat :=
  (metadataLen buf.length (buf.drop 4)).map (4 + ·)

/-- The body of the first STREAMINFO block (type 0, 34 bytes). -/
def streamInfoFrom : Nat → List UInt8 → Option (List UInt8)
  | 0, _ => none
  | fuel + 1, header =>
    match header with
    | b0 :: b1 :: b2 :: b3 :: rest =>
      let len := blockLen b1 b2 b3
      if rest.length < len then none
      else if b0 &&& 0x7F = 0 ∧ len = 34 then some (rest.take len)
      else if b0 &&& 0x80 ≠ 0 then none
      else streamInfoFrom fuel (rest.drop len)
    | _ => none

def streamInfo (header : List UInt8) : Option (List UInt8) :=
  streamInfoFrom header.length (header.drop 4)

/-! ## Frames -/

inductive Header where
  /-- A frame header with a matching CRC-8, of this many bytes. -/
  | valid (len : Nat)
  /-- Could still become a valid header: more bytes needed. -/
  | incomplete
  | invalid
  deriving Repr, DecidableEq

/-- The length of the coded frame or sample number, from its first byte. -/
def codedLen (b : UInt8) : Option Nat :=
  if b ≤ 0x7F then some 1
  else if 0xC0 ≤ b ∧ b ≤ 0xDF then some 2
  else if 0xE0 ≤ b ∧ b ≤ 0xEF then some 3
  else if 0xF0 ≤ b ∧ b ≤ 0xF7 then some 4
  else if 0xF8 ≤ b ∧ b ≤ 0xFB then some 5
  else if 0xFC ≤ b ∧ b ≤ 0xFD then some 6
  else if b = 0xFE then some 7
  else none

/-- The bytes that the block size and the sample rate codes add. -/
def extraLen (blockCode rateCode : UInt8) : Nat :=
  (if blockCode = 6 then 1 else if blockCode = 7 then 2 else 0) +
    (if rateCode = 12 then 1 else if rateCode = 13 ∨ rateCode = 14 then 2 else 0)

/-- The header from its fifth byte on: `coded` bytes of coded number from there,
the CRC-8 at `crcAt`. -/
def headerTail (b : List UInt8) (coded crcAt : Nat) : Header :=
  if ((b.take (4 + coded)).drop 5).any (fun c => c &&& 0xC0 ≠ 0x80) then .invalid
  else if b.length ≤ crcAt then .incomplete
  else if crc8 (b.take crcAt) = b.getD crcAt 0 then .valid (crcAt + 1)
  else .invalid

/-- Parse a FLAC frame header at the start of `b` (RFC 9639 §9.1). -/
def frameHeader (b : List UInt8) : Header :=
  if b.isEmpty then .incomplete
  else if b.getD 0 0 ≠ 0xFF then .invalid
  else if b.length < 2 then .incomplete
  else if b.getD 1 0 &&& 0xFE ≠ 0xF8 then .invalid
  else if b.length < 5 then .incomplete
  else
    let blockCode := b.getD 2 0 >>> 4
    let rateCode := b.getD 2 0 &&& 0x0F
    let channels := b.getD 3 0 >>> 4
    let depth := (b.getD 3 0 >>> 1) &&& 0x07
    if blockCode = 0 ∨ rateCode = 0x0F ∨ channels > 10 ∨ depth = 3 ∨ b.getD 3 0 &&& 1 ≠ 0 then
      .invalid
    else
      match codedLen (b.getD 4 0) with
      | none => .invalid
      | some coded => headerTail b coded (4 + coded + extraLen blockCode rateCode)

/-- The loop of `frame_end`: `i` bytes of the frame are behind, with running
CRC-16 `crc`. -/
def frameEndFrom (headerLen : Nat) : UInt16 → Nat → List UInt8 → Option Nat
  | crc, i, b0 :: b1 :: rest =>
    if i > headerLen ∧ crc = u16Be b0 b1 ∧ (rest = [] ∨ frameHeader rest ≠ .invalid) then
      some (i + 2)
    else frameEndFrom headerLen (crc16Update crc b0) (i + 1) (b1 :: rest)
  | _, _, _ => none

/-- End (exclusive) of the frame at the start of `buf`: the first position where
the running CRC-16 matches the 2 trailing bytes and the bytes after it are
either the end of the buffer or the beginning of another header. -/
def frameEnd (buf : List UInt8) (headerLen : Nat) : Option Nat := frameEndFrom headerLen 0 0 buf

def MAX_FRAME_BYTES : Nat := 4 * 1024 * 1024

/-- What the decoder asks of symphonia: a decoder for a STREAMINFO block, and
the interleaved samples of a packet. -/
structure Codec where
  make : List UInt8 → Except String Unit
  decode : List UInt8 → List UInt8 → Except String (List UInt32)

/-- A packet that the codec decoded. -/
structure Decoded where
  packet : List UInt8
  samples : List UInt32
  deriving Repr, DecidableEq

/-- The rest of `buf` from the first place where a header may begin. -/
def resync : List UInt8 → Option (List UInt8)
  | [] => none
  | b :: rest => if frameHeader (b :: rest) = .invalid then resync rest else some (b :: rest)

/-- The loop of `drain_frames` over the unread input: what it decodes and what
it leaves in the buffer. -/
def drainFrom (decode : List UInt8 → Except String (List UInt32)) :
    Nat → List UInt8 → List Decoded × List UInt8
  | 0, buf => ([], buf)
  | fuel + 1, buf =>
    match resync buf with
    | none => ([], [])
    | some buf =>
      match frameHeader buf with
      | .valid headerLen =>
        match frameEnd buf headerLen with
        | some fin =>
          match decode (buf.take fin) with
          | .ok samples =>
            let (frames, rest) := drainFrom decode fuel (buf.drop fin)
            (⟨buf.take fin, samples⟩ :: frames, rest)
          | .error _ =>
            -- a match at the very end of the buffer may be a split frame
            if fin = buf.length then ([], buf) else drainFrom decode fuel (buf.drop fin)
        | none =>
          if buf.length > MAX_FRAME_BYTES then drainFrom decode fuel (buf.drop 1) else ([], buf)
      | _ => ([], buf)

/-! ## The decoder -/

/-- `decoder` is the STREAMINFO block that the codec was made for. -/
structure FlacStreamDecoder where
  buf : List UInt8
  initialized : Bool
  decoder : Option (List UInt8)
  deriving Repr, DecidableEq

namespace FlacStreamDecoder

def new : FlacStreamDecoder := { buf := [], initialized := false, decoder := none }

def reset (_ : FlacStreamDecoder) : FlacStreamDecoder := new

/-- Build the codec from the STREAMINFO block of the stream header. -/
def tryInit (codec : Codec) (d : FlacStreamDecoder) (headerLen : Nat) :
    Except String FlacStreamDecoder :=
  match streamInfo (d.buf.take headerLen) with
  | none => .error "no STREAMINFO block"
  | some info =>
    match codec.make info with
    | .error e => .error s!"FLAC decoder init: {e}"
    | .ok () => .ok { d with decoder := some info }

def drainFrames (codec : Codec) (d : FlacStreamDecoder) : FlacStreamDecoder × List Decoded :=
  match d.decoder with
  | none => (d, [])
  | some info =>
    let (frames, rest) := drainFrom (codec.decode info) d.buf.length d.buf
    ({ d with buf := rest }, frames)

/-- `b"fLaC"` -/
def MARKER : List UInt8 := [0x66, 0x4C, 0x61, 0x43]

/-- `feed`, with the packets that its samples come from. -/
def feed (codec : Codec) (d : FlacStreamDecoder) (data : List UInt8) :
    FlacStreamDecoder × List Decoded :=
  let d := { d with buf := d.buf ++ data }
  if d.initialized then d.drainFrames codec
  else if d.buf.length < 4 then (d, [])
  else if d.buf.take 4 ≠ MARKER then ({ d with buf := [] }, [])
  else
    match streamHeaderLen d.buf with
    | none => (d, [])
    | some headerLen =>
      match d.tryInit codec headerLen with
      | .error _ => ({ d with buf := [] }, [])
      | .ok d =>
        { d with buf := d.buf.drop headerLen, initialized := true }.drainFrames codec

/-- The decoder over a list of `feed` calls, and all that they decode. -/
def feedAll (codec : Codec) (d : FlacStreamDecoder) :
    List (List UInt8) → FlacStreamDecoder × List Decoded
  | [] => (d, [])
  | chunk :: chunks =>
    let (d, frames) := d.feed codec chunk
    let (d, more) := feedAll codec d chunks
    (d, frames ++ more)

end FlacStreamDecoder

end Oaat.Endpoint
