/-
Oaat.Endpoint.SampleConversion — from ring bytes to device samples
(`oaat-endpoint/src/audio_output.rs`: `RingFormat::to_i32`, `RingFormat::to_f32`
and the closures of `configure_with_device`).

An integer is its value; a shift or a cast keeps the low bits of its type.
What is computed in floating point is a parameter.
-/
import Oaat.Endpoint.AudioOutput
import Oaat.Lib.BigEndian

namespace Oaat.Endpoint

open Oaat.Core Oaat.Lib

/-- `i16::from_le_bytes` and `i32::from_le_bytes`. -/
def fromLeBytes (bytes : List UInt8) : Int :=
  (ofBe bytes.reverse : Int).bmod (2 ^ (8 * bytes.length))

/-- The arithmetic of `f32` samples, which are given by their bits. -/
structure FloatSamples where
  /-- A clamped sample times 2^31, as `i32`. -/
  toI32 : UInt32 → Int
  /-- An integer sample over a power of two. -/
  normalize : Int → Nat → UInt32
  /-- `s * (vol as f32 / 1000.0)` -/
  attenuate : UInt32 → Nat → UInt32

namespace RingFormat

/-- The byte that extends the sign of a 24-bit sample. -/
def signByte (b : List UInt8) : UInt8 := if b.getD 2 0 &&& 0x80 ≠ 0 then 0xFF else 0

/-- One sample as `i32`, left-justified. -/
def toI32 (fl : FloatSamples) (ring : RingFormat) (b : List UInt8) : Int :=
  let word := [b.getD 0 0, b.getD 1 0, b.getD 2 0, b.getD 3 0]
  match ring with
  | s16 => (fromLeBytes [b.getD 0 0, b.getD 1 0] * 2 ^ 16).bmod (2 ^ 32)
  | s24 =>
    (fromLeBytes [b.getD 0 0, b.getD 1 0, b.getD 2 0, signByte b] * 2 ^ 8).bmod (2 ^ 32)
  | s24In32 => (fromLeBytes word * 2 ^ 8).bmod (2 ^ 32)
  | s32 => fromLeBytes word
  | f32 => fl.toI32 (.ofNat (ofBe word.reverse))

/-- One sample as normalized `f32`. -/
def toF32 (fl : FloatSamples) (ring : RingFormat) (b : List UInt8) : UInt32 :=
  let word := [b.getD 0 0, b.getD 1 0, b.getD 2 0, b.getD 3 0]
  match ring with
  | s16 => fl.normalize (fromLeBytes [b.getD 0 0, b.getD 1 0]) 32768
  | s24 =>
    fl.normalize (fromLeBytes [b.getD 0 0, b.getD 1 0, b.getD 2 0, signByte b]) 8_388_608
  | s24In32 => fl.normalize (fromLeBytes word) 8_388_608
  | s32 => fl.normalize (fromLeBytes word) 2_147_483_648
  | f32 => .ofNat (ofBe word.reverse)

end RingFormat

/-- One sample of a device buffer. -/
inductive DeviceSample where
  | i16 (v : Int)
  | i32 (v : Int)
  | f32 (bits : UInt32)
  deriving Repr, DecidableEq

/-- `Default::default()` -/
def OutKind.silence : OutKind → DeviceSample
  | i16 => .i16 0
  | i32 => .i32 0
  | f32 => .f32 0

/-- The `convert` closure of the stream. -/
def convert (fl : FloatSamples) (kind : OutKind) (ring : RingFormat) (b : List UInt8) (vol : Nat) :
    DeviceSample :=
  match kind with
  | .i16 =>
    -- the ring is taken to be S16 on this path
    let s := fromLeBytes [b.getD 0 0, b.getD 1 0]
    .i16 (if vol = 1000 then s else ((s * vol).tdiv 1000).bmod (2 ^ 16))
  | .i32 =>
    let s := ring.toI32 fl b
    .i32 (if vol = 1000 then s else ((s * vol).tdiv 1000).bmod (2 ^ 32))
  | .f32 =>
    let s := ring.toF32 fl b
    .f32 (if vol = 1000 then s else fl.attenuate s vol)

/-- What the device is given for a sample of a callback. -/
def OutSample.device (fl : FloatSamples) (kind : OutKind) (ring : RingFormat) :
    OutSample → DeviceSample
  | .silence => kind.silence
  | .sample bytes volume => convert fl kind ring bytes volume

end Oaat.Endpoint
