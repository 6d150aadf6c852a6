/-
Oaat.Endpoint.AlsaOutput — the ALSA output and the writer threads it started
(`oaat-endpoint/src/alsa_direct.rs`: `AlsaDirectOutput`).

`threads` are all writers ever started, in order; a writer is its index. The
threads run on their own. A call of the output runs on the caller's thread and
can be held up in two places: `shutdown` waits for the writer to return, and
`configure` waits for it to report its first open. `Caller` says where the
call is. Both waits have a deadline: `giveUp` is its passing, and the writer is
left behind. `device_open` and all other calls need the output for themselves,
so they happen only while no call is in progress.

The software volume and the device bytes of decoded FLAC are floating-point
arithmetic; they are a parameter.
-/
import Oaat.Endpoint.AlsaDevices
import Oaat.Endpoint.AlsaWriter
import Oaat.Endpoint.FlacDecoder
import Oaat.Lib.Frames

namespace Oaat.Endpoint

open Oaat.Core Oaat.Lib

/-! ## Sample formats -/

/-- Device format for decoded FLAC. -/
def flacAlsaFormat (channels : UInt8) : AlsaFormat := if channels ≤ 2 then .s32Le else .s16Le

/-- ALSA format and rate for the device. -/
def alsaFormatAndRate (format : AudioFormat) (sampleRate : UInt32) : Option (AlsaFormat × UInt32) :=
  match format with
  | .pcmS16le => some (.s16Le, sampleRate)
  | .pcmS24le => some (.s32Le, sampleRate)
  | .pcmS24le4 => some (.s24Le, sampleRate)
  | .pcmS32le => some (.s32Le, sampleRate)
  | .pcmF32le => some (.floatLe, sampleRate)
  | .dsdU8 => some (.dsdU32Be, sampleRate / 32)
  | .dsdU16le => some (.dsdU32Be, sampleRate / 16)
  | .dsdU32le => some (.dsdU32Be, sampleRate)
  | _ => none

/-- Packed 24-bit samples, left-justified in 32 bits. -/
def padS24ToS32 (data : List UInt8) : List UInt8 :=
  (frames 3 data).flatMap fun chunk => 0 :: chunk

/-- `u8::reverse_bits` -/
def reverseBits (b : UInt8) : UInt8 :=
  (List.range 8).foldl (fun acc i => (acc <<< 1) ||| ((b >>> i.toUInt8) &&& 1)) 0

/-- Byte-interleaved `DSD_U8` into `DSD_U32_BE`. -/
def packDsdU8ToU32Be (data : List UInt8) (channels : UInt8) : List UInt8 :=
  let ch := max channels.toNat 1
  (frames (4 * ch) data).flatMap fun chunk =>
    (List.range ch).flatMap fun c =>
      [c, c + ch, c + 2 * ch, c + 3 * ch].map fun i => reverseBits (chunk.getD i 0)

/-- Byte-swap `DSD_U32LE` words into `DSD_U32_BE`. -/
def dsdU32leToBe (data : List UInt8) : List UInt8 :=
  (frames 4 data).flatMap List.reverse

def bytesPerFrame (format : AudioFormat) (channels : UInt8) : Nat :=
  let bps := match format with
    | .pcmS16le => 2
    | .pcmS24le => 3
    | .pcmS24le4 | .pcmS32le | .pcmF32le => 4
    | .dsdU8 => 1
    | .dsdU16le => 2
    | .dsdU32le => 4
    | _ => 2
  bps * max channels.toNat 1

/-- The FLAC codec, and what is computed in floating point. -/
structure Conversions where
  codec : Codec
  applyVolume : AudioFormat → List UInt8 → Nat → List UInt8
  flacSamplesToDevice : List UInt32 → UInt8 → Nat → List UInt8

/-! ## The output -/

structure AlsaDirectOutput where
  writer : Option Nat
  playing : Bool
  /-- 0-1000 -/
  volume : Nat
  muted : Bool
  sampleRate : UInt32
  channels : UInt8
  format : AudioFormat
  deviceName : Option (List Char)
  flacStream : Option FlacStreamDecoder

/-- The arguments of `configure_with_device`. -/
structure Config where
  format : AudioFormat
  sampleRate : UInt32
  channels : UInt8
  device : Option (List Char)
  deriving Repr, DecidableEq

namespace AlsaDirectOutput

def new : AlsaDirectOutput :=
  { writer := none, playing := false, volume := 1000, muted := false, sampleRate := 0,
    channels := 0, format := .pcmS16le, deviceName := none, flacStream := none }

/-- Volume 1000; `set_volume` moves it in steps of ten. -/
def unity (o : AlsaDirectOutput) : Bool := o.volume = 1000

/-- The payload in the device format, and its frames. -/
def deviceBytes (conv : Conversions) (o : AlsaDirectOutput) (data : List UInt8) :
    AlsaDirectOutput × List UInt8 × Nat :=
  if o.format = .flac then
    match o.flacStream with
    | none => (o, [], 0)
    | some dec =>
      let (dec, decoded) := dec.feed conv.codec data
      let samples := decoded.flatMap fun d => d.samples
      let o := { o with flacStream := some dec }
      if samples.isEmpty then (o, [], 0)
      else
        (o, conv.flacSamplesToDevice samples o.channels o.volume,
          samples.length / max o.channels.toNat 1)
  else
    let bytes := match o.format with
      | .dsdU8 => packDsdU8ToU32Be data o.channels
      | .dsdU32le => dsdU32leToBe data
      | .pcmS24le =>
        padS24ToS32 (if o.unity then data else conv.applyVolume o.format data o.volume)
      | _ => if o.unity then data else conv.applyVolume o.format data o.volume
    (o, bytes, data.length / bytesPerFrame o.format o.channels)

/-- What `configure_with_device` sets, and what it asks the writer to open. -/
def configured (o : AlsaDirectOutput) (cfg : Config) :
    AlsaDirectOutput × Except String DeviceParams :=
  let o := { o with
    format := cfg.format, sampleRate := cfg.sampleRate, channels := cfg.channels,
    deviceName := cfg.device }
  let device := resolveDeviceName cfg.device
  let device := if cfg.format.isDsd then dsdHwDevice device else device
  let o := { o with flacStream := if cfg.format = .flac then some .new else none }
  let formatAndRate :=
    if cfg.format = .flac then some (flacAlsaFormat cfg.channels, cfg.sampleRate)
    else alsaFormatAndRate cfg.format cfg.sampleRate
  match formatAndRate with
  | none => (o, .error ("unsupported format for ALSA direct: " ++ cfg.format.display))
  | some (format, rate) =>
    ({ o with playing := false },
      .ok { device := String.ofList device, format, rate, channels := cfg.channels })

end AlsaDirectOutput

/-! ## The output with its threads -/

/-- What a call does after `shutdown`. -/
inductive After where
  | leave
  /-- `configure_with_device`, and `play` after it if the call is `flush`. -/
  | configure (cfg : Config) (play : Bool)

/-- Where the call in progress is. -/
inductive Caller where
  /-- No call is in progress. -/
  | idle
  /-- In the `done.recv_timeout` of `shutdown`. -/
  | stopping (id : Nat) (after : After)
  /-- In the `opened.recv_timeout` of `configure_with_device`. -/
  | opening (id : Nat) (play : Bool)

structure Alsa where
  output : AlsaDirectOutput
  shared : Shared
  threads : List WriterThread
  caller : Caller
  idleClose : Nat

/-- The calls of the output that change it. -/
inductive Call where
  | configure (cfg : Config)
  | play
  | pause
  | stop
  | release
  | flush
  | setVolume (level : UInt8)
  | setMute (muted : Bool)
  | writeAudio (data : List UInt8)

inductive AlsaAction where
  | call (c : Call)
  /-- What the call in progress waits for is there. -/
  | resume
  /-- Its deadline passes. -/
  | giveUp
  /-- A writer thread takes a step. -/
  | thread (id : Nat) (now : Nat) (answer : Answer)

/-- What a call returns, and every device opened. -/
inductive AlsaEvent where
  | configured (r : Except String Unit)
  | enqueued (frames : Nat)
  | opened

namespace Alsa

def new : Alsa :=
  { output := .new, shared := .default, threads := [], caller := .idle, idleClose := IDLE_CLOSE }

def deviceOpen (s : Alsa) : Bool := s.shared.isOpen

/-- No call is in progress. -/
def isIdle (s : Alsa) : Bool :=
  match s.caller with
  | .idle => true
  | _ => false

/-- `configure_with_device` returns; `flush` plays whatever the result. -/
def configureReturns (s : Alsa) (r : Except String Unit) (play : Bool) : Alsa × List AlsaEvent :=
  ({ s with
     caller := .idle
     output := if play then { s.output with playing := true } else s.output },
    [.configured r])

/-- `configure_with_device` from `spawn_writer` on. -/
def configure (s : Alsa) (cfg : Config) (play : Bool) : Alsa × List AlsaEvent :=
  match s.output.configured cfg with
  | (output, .error e) => { s with output }.configureReturns (.error e) play
  | (output, .ok params) =>
    ({ s with
       output
       threads := s.threads ++ [.spawn params s.idleClose]
       caller := .opening s.threads.length play }, [])

/-- The end of `shutdown`: the writer has returned, was left behind, or there
was none. -/
def shutdownReturns (s : Alsa) (after : After) : Alsa × List AlsaEvent :=
  let flacStream := s.output.flacStream.map FlacStreamDecoder.reset
  let s := { s with output := { s.output with flacStream } }
  match after with
  | .leave => ({ s with caller := .idle }, [])
  | .configure cfg play => s.configure cfg play

def shutdown (s : Alsa) (discard : Bool) (after : After) : Alsa × List AlsaEvent :=
  let s := { s with output := { s.output with playing := false } }
  match s.output.writer with
  | none => s.shutdownReturns after
  | some id =>
    ({ s with
       output := { s.output with writer := none }
       threads := s.threads.modify id (·.hangUp discard)
       caller := .stopping id after }, [])

/-- `flush` configures what is configured. -/
def flushConfig (s : Alsa) : Config :=
  { format := s.output.format, sampleRate := s.output.sampleRate, channels := s.output.channels,
    device := s.output.deviceName }

/-- `write_audio`, from the writer's channel on. A full queue blocks. -/
def sendBytes (s : Alsa) (bytes : List UInt8) (frames : Nat) :
    Except Blocked (Alsa × List AlsaEvent) :=
  match s.output.writer.bind fun id => s.threads[id]?.map fun t => (id, t) with
  | none => .ok (s, [.enqueued 0])
  | some (id, t) =>
    if t.isReturned then .ok (s, [.enqueued 0])
    else if WRITE_QUEUE_PAYLOADS ≤ t.queue.length then .error .blocked
    else .ok ({ s with threads := s.threads.set id (t.send bytes) }, [.enqueued frames])

def writeAudio (conv : Conversions) (s : Alsa) (data : List UInt8) :
    Except Blocked (Alsa × List AlsaEvent) :=
  if !s.output.playing || s.output.muted || s.output.writer.isNone then .ok (s, [.enqueued 0])
  else
    let (output, bytes, frames) := s.output.deviceBytes conv data
    let s := { s with output }
    if bytes.isEmpty then .ok (s, [.enqueued 0]) else s.sendBytes bytes frames

/-- A call starts. -/
def start (conv : Conversions) (s : Alsa) : Call → Except Blocked (Alsa × List AlsaEvent)
  | .configure cfg => .ok (s.shutdown false (.configure cfg false))
  | .play => .ok ({ s with output := { s.output with playing := true } }, [])
  | .pause =>
    .ok ({ s with
      output := { s.output with playing := false }
      shared := { s.shared with pauseGen := s.shared.pauseGen + 1 } }, [])
  | .stop => .ok (s.shutdown false .leave)
  | .release => .ok (s.shutdown true .leave)
  | .flush => .ok (s.shutdown true (.configure s.flushConfig true))
  | .setVolume level =>
    .ok ({ s with output := { s.output with volume := min (level.toNat * 1000 / 100) 1000 } }, [])
  | .setMute muted => .ok ({ s with output := { s.output with muted } }, [])
  | .writeAudio data => s.writeAudio conv data

/-- The call in progress goes on: the writer has returned, or reported. -/
def resume (s : Alsa) : Except Blocked (Alsa × List AlsaEvent) :=
  match s.caller with
  | .idle => .error .blocked
  | .stopping id after =>
    match s.threads[id]? with
    | none => .error .blocked
    | some t => if t.isReturned then .ok (s.shutdownReturns after) else .error .blocked
  | .opening id play =>
    match s.threads[id]?.bind (·.report) with
    | none => .error .blocked
    | some (.ok ()) =>
      .ok ({ s with output := { s.output with writer := some id } }.configureReturns (.ok ()) play)
    | some (.error e) => .ok (s.configureReturns (.error e) play)

/-- The call in progress leaves its writer behind. -/
def giveUp (s : Alsa) : Except Blocked (Alsa × List AlsaEvent) :=
  match s.caller with
  | .idle => .error .blocked
  | .stopping id after =>
    match s.threads[id]? with
    | none => .error .blocked
    | some t => if t.isReturned then .error .blocked else .ok (s.shutdownReturns after)
  | .opening id play =>
    match s.threads[id]? with
    | none => .error .blocked
    | some t =>
      if t.report.isSome then .error .blocked
      else
        .ok ({ s with threads := s.threads.set id (t.hangUp true) }.configureReturns
          (.error (t.slot.params.device ++ ": device open did not complete within 3000 ms")) play)

/-- A writer thread takes a step. -/
def threadStep (s : Alsa) (id now : Nat) (answer : Answer) :
    Except Blocked (Alsa × List AlsaEvent) :=
  match s.threads[id]? with
  | none => .error .blocked
  | some t =>
    match t.step s.shared now answer with
    | .error e => .error e
    | .ok (t', shared, _) =>
      .ok ({ s with threads := s.threads.set id t', shared },
        if t.completesOpen answer then [.opened] else [])

def step (conv : Conversions) (s : Alsa) : AlsaAction → Except Blocked (Alsa × List AlsaEvent)
  | .call c =>
    match s.caller with
    | .idle => s.start conv c
    | _ => .error .blocked
  | .resume => s.resume
  | .giveUp => s.giveUp
  | .thread id now answer => s.threadStep id now answer

end Alsa

end Oaat.Endpoint
