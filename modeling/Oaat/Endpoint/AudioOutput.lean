/-
Oaat.Endpoint.AudioOutput — the cpal output with its ring buffer
(`oaat-endpoint/src/audio_output.rs`: `CpalOutput`).

The ring is a FIFO of bytes. The stream and the producer end of the ring are
set and cleared together, so `stream` holds both, with what the callback owns.
What a device or the host decides is an input: the device that `configure`
finds and whether its stream can be built (`Opening`), and how many samples a
callback asks for.

`write_audio` borrows the output mutably, so of all else only callbacks can
run inside it. The one place where it matters is between reading the room in
the ring and pushing: `during` are the callbacks there.

The counters `samples_played` and `net_adjust` are unbounded here; at any
sample rate they need hundreds of thousands of years to leave 63 bits.
-/
import Oaat.Core.Basic
import Oaat.Endpoint.FlacDecoder
import Oaat.Lib.Frames
import Oaat.Lib.MachineInt

namespace Oaat.Endpoint

open Oaat.Core Oaat.Lib

/-- `sample_rate.max(48000)` -/
def ringBufferFrames (sampleRate : UInt32) : Nat := max sampleRate.toNat 48000

/-! ## Sample layouts -/

/-- Sample layout of the bytes stored in the ring buffer. -/
inductive RingFormat where
  | s16 | s24 | s24In32 | s32 | f32
  deriving Repr, DecidableEq

namespace RingFormat

def bytesPerSample : RingFormat → Nat
  | s16 => 2
  | s24 => 3
  | s24In32 | s32 | f32 => 4

/-- `RingFormat::of` -/
def ofFormat : AudioFormat → RingFormat
  | .pcmS16le => s16
  | .pcmS24le => s24
  | .pcmS24le4 => s24In32
  | .pcmS32le => s32
  | _ => f32

end RingFormat

/-- Which sample types the device advertises. -/
structure DeviceSampleSupport where
  f32 : Bool
  i16 : Bool
  i32 : Bool
  deriving Repr, DecidableEq

inductive OutKind where
  | i16 | i32 | f32
  deriving Repr, DecidableEq

/-- The output sample type that preserves the negotiated samples. -/
def outKind (ring : RingFormat) (support : DeviceSampleSupport) : OutKind :=
  if ring = .s16 ∧ support.i16 then .i16
  else if ring ≠ .f32 ∧ support.i32 then .i32
  else if ring = .f32 ∧ support.f32 then .f32
  else if support.f32 then .f32
  else if support.i32 then .i32
  else .i16

/-! ## The ring -/

/-- A FIFO of at most `capacity` bytes. -/
structure Ring where
  capacity : Nat
  bytes : List UInt8
  fits : bytes.length ≤ capacity

namespace Ring

/-- `HeapRb::new` -/
def new (capacity : Nat) : Ring := { capacity, bytes := [], fits := Nat.zero_le _ }

def vacantLen (r : Ring) : Nat := r.capacity - r.bytes.length

/-- What fits is pushed. -/
def pushSlice (r : Ring) (data : List UInt8) : Ring :=
  { capacity := r.capacity
    bytes := r.bytes ++ data.take r.vacantLen
    fits := by
      have := r.fits
      rw [List.length_append, List.length_take, vacantLen]
      omega }

/-- The oldest bytes, at most `n`. -/
def popSlice (r : Ring) (n : Nat) : Ring × List UInt8 :=
  ({ capacity := r.capacity
     bytes := r.bytes.drop n
     fits := by
       have := r.fits
       rw [List.length_drop]
       omega }, r.bytes.take n)

end Ring

/-! ## Underruns -/

/-- A short callback opens a gap; the gap is counted once, when audio comes back. -/
structure UnderrunDetector where
  primed : Bool
  starving : Bool
  deriving Repr, DecidableEq

namespace UnderrunDetector

def new : UnderrunDetector := { primed := false, starving := false }

/-- `observe`: the detector and the counter after a callback. -/
def observe (d : UnderrunDetector) (got wanted counter : Nat) : UnderrunDetector × Nat :=
  let (d, counter) :=
    if got > 0 ∧ d.starving then ({ d with starving := false }, counter + 1) else (d, counter)
  if got ≥ wanted then ({ d with primed := true }, counter)
  else if d.primed then ({ d with starving := true }, counter)
  else (d, counter)

end UnderrunDetector

/-! ## The output -/

/-- An open stream: what its callback holds, and the ring it shares with the
producer. -/
structure Stream where
  ring : Ring
  bps : Nat
  outKind : OutKind
  underrunDetector : UnderrunDetector

structure CpalOutput where
  stream : Option Stream
  playing : Bool
  /-- 0-1000 -/
  volume : Nat
  muted : Bool
  sampleRate : UInt32
  channels : UInt8
  format : AudioFormat
  ringFormat : RingFormat
  deviceName : Option String
  /-- Samples actually consumed from the ring by the audio callback. -/
  samplesPlayed : Nat
  /-- Pending drift correction in frames: positive drops, negative duplicates. -/
  correction : Int
  /-- Net frames adjusted so far: dropped − duplicated. -/
  netAdjust : Int
  bitPerfect : Bool
  underruns : Nat
  flacStream : Option FlacStreamDecoder

/-- What the host answers to `configure`: the device it resolves, or why none,
and whether a stream can be built on it. -/
structure Opening where
  device : Except String (String × DeviceSampleSupport)
  build : Except String Unit

/-- One sample of a device buffer: silence, or a sample of the ring with the
volume that it is converted at. -/
inductive OutSample where
  | silence
  | sample (bytes : List UInt8) (volume : Nat)
  deriving Repr, DecidableEq

/-- The decoders of the other wire formats: FLAC, and the `f32` of a DSD block
with `ones` of `total` bits set. -/
structure Decoders where
  codec : Codec
  dsdSample : Nat → Nat → UInt32

/-- `f32::to_le_bytes` -/
def leBytes (bits : UInt32) : List UInt8 :=
  [bits.toUInt8, (bits >>> 8).toUInt8, (bits >>> 16).toUInt8, (bits >>> 24).toUInt8]

def dsdRateMultiplier : AudioFormat → Nat
  | .dsdU8 => 64
  | .dsdU16le => 128
  | .dsdU32le => 256
  | _ => 64

def countOnes (b : UInt8) : Nat :=
  (List.range 8).countP fun i => (b.toNat >>> i) % 2 = 1

/-- DSD bits, averaged over blocks. -/
def dsdToF32 (dec : Decoders) (data : List UInt8) (rateMultiplier : Nat) : List UInt32 :=
  (frames (rateMultiplier / 8) data).map fun block =>
    dec.dsdSample (block.map countOnes).sum (block.length * 8)

def MAX_CORRECTION_FRAMES_PER_WRITE : Int := 2

def JUMP_THRESHOLD_FRAMES : Int := 1200

namespace CpalOutput

def new : CpalOutput :=
  { stream := none, playing := false, volume := 1000, muted := false, sampleRate := 0,
    channels := 0, format := .pcmS16le, ringFormat := .s16, deviceName := none,
    samplesPlayed := 0, correction := 0, netAdjust := 0, bitPerfect := false, underruns := 0,
    flacStream := none }

def stop (o : CpalOutput) : CpalOutput := { o with playing := false, stream := none }

def release (o : CpalOutput) : CpalOutput := o.stop

/-- `configure_with_device`. The requested name only steers which device the
host resolves. -/
def configure (o : CpalOutput) (format : AudioFormat) (sampleRate : UInt32) (channels : UInt8)
    (opening : Opening) : CpalOutput × Except String Unit :=
  let o :=
    { o.stop with
      format, sampleRate, channels
      ringFormat := .ofFormat format
      flacStream := if format = .flac then some .new else none }
  match opening.device with
  | .error e => (o, .error e)
  | .ok (name, support) =>
    let bps := o.ringFormat.bytesPerSample
    let kind := outKind o.ringFormat support
    let o :=
      { o with
        deviceName := some name
        samplesPlayed := 0, correction := 0, netAdjust := 0, underruns := 0
        bitPerfect := kind ≠ .f32 || o.ringFormat = .f32 }
    match opening.build with
    | .error e => (o, .error e)
    | .ok () =>
      ({ o with
         stream := some
           { ring := .new (ringBufferFrames sampleRate * channels.toNat * bps), bps,
             outKind := kind, underrunDetector := .new } }, .ok ())

def play (o : CpalOutput) : CpalOutput :=
  if o.stream.isSome then { o with playing := true } else o

def pause (o : CpalOutput) : CpalOutput := { o with playing := false }

/-- `flush`: the same format on the default device, and playing. -/
def flush (o : CpalOutput) (opening : Opening) : CpalOutput :=
  (o.stop.configure o.format o.sampleRate o.channels opening).1.play

def isPlaying (o : CpalOutput) : Bool := o.playing

def deviceOpen (o : CpalOutput) : Bool := o.stream.isSome

def setVolume (o : CpalOutput) (level : UInt8) : CpalOutput :=
  { o with volume := min (level.toNat * 1000 / 100) 1000 }

def setMute (o : CpalOutput) (muted : Bool) : CpalOutput := { o with muted }

/-- Replaces (not accumulates) the pending correction. -/
def setCorrection (o : CpalOutput) (frames : Int) : CpalOutput := { o with correction := frames }

/-- The samples of a device buffer of `wanted`, from the bytes popped. -/
def render (bps vol : Nat) : Nat → List UInt8 → List OutSample
  | 0, _ => []
  | wanted + 1, got =>
    (if bps ≤ got.length then .sample (got.take bps) vol else .silence) ::
      render bps vol wanted (got.drop bps)

/-- A device callback that asks for `wanted` samples. -/
def callback (o : CpalOutput) (wanted : Nat) : CpalOutput × List OutSample :=
  match o.stream with
  | none => (o, [])
  | some st =>
    if !o.playing || o.muted then (o, List.replicate wanted .silence)
    else
      let (ring, got) := st.ring.popSlice (wanted * st.bps)
      let samples := got.length / st.bps
      let (underrunDetector, underruns) := st.underrunDetector.observe samples wanted o.underruns
      ({ o with
         stream := some { st with ring, underrunDetector }
         samplesPlayed := o.samplesPlayed + samples
         underruns }, render st.bps o.volume wanted got)

def callbacks (o : CpalOutput) : List Nat → CpalOutput × List (List OutSample)
  | [] => (o, [])
  | wanted :: rest =>
    let (o, out) := o.callback wanted
    let (o, outs) := callbacks o rest
    (o, out :: outs)

/-- The payload as ring bytes. Native PCM passes through untouched; FLAC and
DSD decode to `f32`. -/
def ringBytes (dec : Decoders) (o : CpalOutput) (data : List UInt8) : CpalOutput × List UInt8 :=
  match o.format with
  | .flac =>
    match o.flacStream with
    | none => (o, []) -- `configure` sets it for every FLAC stream
    | some flac =>
      let (flac, decoded) := flac.feed dec.codec data
      ({ o with flacStream := some flac },
        (decoded.flatMap fun d => d.samples).flatMap leBytes)
  | .dsdU8 | .dsdU16le | .dsdU32le =>
    (o, (dsdToF32 dec data (dsdRateMultiplier o.format)).flatMap leBytes)
  | _ => (o, data)

/-- Bytes per frame in the ring; `channels.max(1)`. -/
def frameBytes (o : CpalOutput) : Nat :=
  max o.channels.toNat 1 * o.ringFormat.bytesPerSample

/-- The drift correction of `write_audio`: the output after it and what is left
to push, `none` when the jump drops all of it. `-pending` panics for
`i64::MIN` with overflow checks; without them 2^63 copies of a frame are asked
for. -/
def correct (o : CpalOutput) (bytes : List UInt8) :
    Except Panic (CpalOutput × Option (List UInt8)) :=
  let frameBytes := o.frameBytes
  let pending := o.correction
  let framesIn : Int := (bytes.length / frameBytes : Nat)
  if pending > JUMP_THRESHOLD_FRAMES ∧ framesIn > 0 then
    let dropFrames := min pending framesIn
    let o := { o with
      correction := o.correction - dropFrames, netAdjust := o.netAdjust + dropFrames }
    if dropFrames = framesIn then .ok (o, none)
    else .ok (o, some (bytes.drop (dropFrames.toNat * frameBytes)))
  else if pending > 0 ∧ framesIn > 1 then
    let dropFrames := min (min pending MAX_CORRECTION_FRAMES_PER_WRITE) (framesIn - 1)
    if dropFrames > 0 then
      .ok ({ o with
        correction := o.correction - dropFrames, netAdjust := o.netAdjust + dropFrames },
        some (bytes.drop (dropFrames.toNat * frameBytes)))
    else .ok (o, some bytes)
  else if pending < 0 ∧ bytes.length ≥ frameBytes then
    if ¬ InI64 (-pending) then .error .overflow
    else
      let dupFrames := (min (-pending) MAX_CORRECTION_FRAMES_PER_WRITE).toNat
      .ok ({ o with
        correction := o.correction + dupFrames, netAdjust := o.netAdjust - dupFrames },
        some ((List.replicate dupFrames (bytes.take frameBytes)).flatten ++ bytes))
  else .ok (o, some bytes)

/-- Only complete frames are pushed. `available` was read before `during`. -/
def push (o : CpalOutput) (st : Stream) (bytes : List UInt8) (during : List Nat) :
    CpalOutput × Nat × List (List OutSample) :=
  let available := st.ring.vacantLen
  let framesToPush := min (available / o.frameBytes) (bytes.length / o.frameBytes)
  let (o, outs) := o.callbacks during
  let stream := o.stream.map fun st =>
    { st with ring := st.ring.pushSlice (bytes.take (framesToPush * o.frameBytes)) }
  ({ o with stream }, framesToPush, outs)

/-- `write_audio`: the frames enqueued, and the device buffers that the
callbacks `during` filled. -/
def writeAudio (dec : Decoders) (o : CpalOutput) (data : List UInt8) (during : List Nat) :
    Except Panic (CpalOutput × Nat × List (List OutSample)) :=
  match o.stream with
  | none => .ok (o, 0, [])
  | some st =>
    let (o, bytes) := o.ringBytes dec data
    match o.correct bytes with
    | .error e => .error e
    | .ok (o, none) => .ok (o, 0, [])
    | .ok (o, some bytes) => .ok (o.push st bytes during)

/-- Ring buffer fill level, in frames. -/
def bufferLevel (o : CpalOutput) : Nat :=
  match o.stream with
  | none => 0
  | some st => st.ring.bytes.length / o.frameBytes

/-- Playback position in frames: what the callback has consumed. -/
def framesPlayed (o : CpalOutput) : Option Nat :=
  if o.channels = 0 then none else some (o.samplesPlayed / o.channels.toNat)

/-- Content position in frames on the stream timeline: frames consumed plus the
net frames skipped by drift correction. -/
def contentPosition (o : CpalOutput) : Option Nat :=
  o.framesPlayed.map fun (played : Nat) => (max ((played : Int) + o.netAdjust) 0).toNat

end CpalOutput

end Oaat.Endpoint
