/-
Oaat.Cli.RunEndpoint — the endpoint application's loop
(`oaat-cli/src/main.rs`: the `tokio::select!` loop of `run_endpoint`).

An action is one pass through the loop: the arm that was selected, with what it
is given. `World` is what a handler reads outside the loop: the clocks and the
statistics of the link. A handler reads each of them once here. The effects of
a pass are the hooks that it fires, the messages that it sends to the
controller, what it writes to the output, and what happens to the output's
configuration, in order.

Log lines, console output and the web UI's status have no effect on the loop
and are left out. The signals that end the loop are, too: nothing follows.
-/
import Oaat.Endpoint.ClockSync
import Oaat.Endpoint.Output
import Oaat.Endpoint.Session

namespace Oaat.Cli

open Oaat.Core Oaat.Endpoint Oaat.Lib

/-- What the transport tells the application. -/
inductive Event where
  | connected (controllerId controllerName : String)
  | control (e : EndpointEvent)
  | audioPacket (header : AudioPacketHeader) (payload : List UInt8)
  | disconnected
  | error (e : OaatError)

/-- What a handler reads: `now_ns()`, the runtime's clock, the clock shared with
the transport, and the packets lost and recovered. -/
structure World where
  now : UInt64
  instant : Nat
  clock : SharedClock
  packetsLost : UInt64
  packetsRecovered : UInt64

/-- The commands of `[hooks]`. -/
inductive Hook where
  | start
  | stop
  deriving Repr, DecidableEq

inductive Effect where
  | hook (h : Hook)
  | send (m : Message)
  /-- `write_audio` with a packet's payload. -/
  | write (header : AudioPacketHeader) (payload : List UInt8)
  /-- The output is configured anew, by `configure` or by `flush`. -/
  | configured
  /-- A device is opened. -/
  | opened
  /-- The tracker is set for a stream that starts. -/
  | tracked
  deriving Repr, DecidableEq

variable {B : Backend}

/-- The loop's local variables. -/
structure Endpoint (B : Backend) where
  audio : B.State
  /-- `alsa_mixer.is_some()`: the volume is the DAC's own. -/
  mixer : Bool
  packetCount : Nat
  totalBytes : Nat
  currentAudioDevice : Option (List Char)
  /-- Play received, output start deferred until the first audio packet. -/
  armed : Bool
  /-- Output is running. -/
  started : Bool
  /-- Instant at which the deferred start fires. -/
  startDeadline : Option Nat
  tracker : Option PtsTracker
  trackerIsControllerDomain : Bool
  streamSampleRate : UInt32
  lastDrift : Int
  currentStreamId : String
  servoTicks : Nat
  outputInUse : Bool
  outputIdleTicks : Nat
  released : Bool
  lastFormat : Option FormatPropose
  connected : Bool

inductive Action (B : Backend) where
  /-- The scheduled start. -/
  | startTimer (w : World)
  | servoTick (w : World)
  | event (e : Event) (w : World) (h : B.Host)
  | release (h : B.Host)
  | switchDevice (name : List Char)
  /-- The output's host and threads go on. -/
  | host (h : B.Host)

namespace Endpoint

def new (B : Backend) (mixer : Bool) (audioDevice : Option (List Char)) : Endpoint B :=
  { audio := B.new, mixer, packetCount := 0, totalBytes := 0, currentAudioDevice := audioDevice,
    armed := false, started := false, startDeadline := none, tracker := none,
    trackerIsControllerDomain := false, streamSampleRate := 0, lastDrift := 0,
    currentStreamId := "", servoTicks := 0, outputInUse := false, outputIdleTicks := 0,
    released := false, lastFormat := none, connected := false }

def openedIf (b : Bool) : List Effect := if b then [.opened] else []

/-! ## Timers -/

def startTimer (s : Endpoint B) (w : World) : Except Halt (Endpoint B × List Effect) :=
  match s.startDeadline with
  | none => .error .blocked
  | some startAt =>
    if startAt ≤ w.instant then
      .ok ({ s with startDeadline := none, started := true, audio := B.play s.audio }, [])
    else .error .blocked

/-- Two ticks without playing and with the device closed end the use of the
output. -/
def idleTick (s : Endpoint B) : Endpoint B × List Effect :=
  if s.outputInUse && !B.isPlaying s.audio && !B.deviceOpen s.audio then
    if s.outputIdleTicks + 1 ≥ 2 then
      ({ s with outputInUse := false, outputIdleTicks := 0 }, [.hook .stop])
    else ({ s with outputIdleTicks := s.outputIdleTicks + 1 }, [])
  else ({ s with outputIdleTicks := 0 }, [])

/-- The time in the tracker's domain. -/
def trackerNow (s : Endpoint B) (w : World) : UInt64 :=
  if s.trackerIsControllerDomain then w.clock.localToController w.now else w.now

/-- A checked operation inside a handler. -/
def checked {α : Type} (x : Except Panic α) : Except Halt α := x.mapError .panicked

/-- The drift of the report, in microseconds; the product is an `i64`. -/
def driftUs (build : Build) (s : Endpoint B) (w : World) : Except Halt Int :=
  match s.tracker, B.contentPosition s.audio with
  | some t, some frames => do
    let drift ← checked (t.driftFrames build (s.trackerNow w) frames)
    let scaled ← checked (build.i64 (drift * 1_000_000))
    return scaled.tdiv (max s.streamSampleRate.toNat 1)
  | _, _ => .ok 0

/-- Periodic health report to the controller. -/
def streamStats (build : Build) (s : Endpoint B) (w : World) : Except Halt (List Effect) :=
  if s.started && s.servoTicks % 5 = 0 && !s.currentStreamId.isEmpty then do
    let driftUs ← s.driftUs build w
    let net ← checked (build.i64
      (((B.contentPosition s.audio).getD 0 : Nat) - ((B.framesPlayed s.audio).getD 0 : Nat)))
    return [.send (.streamStats
      { streamId := s.currentStreamId
        bufferFrames := .ofNat (B.bufferLevel s.audio)
        driftUs := .ofInt driftUs
        correctionsNetFrames := .ofInt net
        packetsLost := w.packetsLost
        packetsRecovered := w.packetsRecovered
        bitPerfect := B.bitPerfectPath s.audio
        underruns := .ofNat (B.underrunCount s.audio) })]
  else return []

/-- The catch-up is stalled: more than half a second behind, and no progress. -/
def stalled (s : Endpoint B) (drift progress : Int) : Bool :=
  drift > (s.streamSampleRate / 2).toNat && s.lastDrift ≠ 0 &&
    progress < (s.streamSampleRate / 10).toNat

/-- The timeline is rebased: the residual latency is accepted. -/
def rebase (build : Build) (s : Endpoint B) (t : PtsTracker) (drift : Int) :
    Except Halt (Endpoint B) := do
  let scaled ← checked (build.u64 (drift.toNat * 1_000_000_000))
  let start ← checked (build.u64 (t.startNs.toNat + scaled / max s.streamSampleRate.toNat 1))
  return { s with
    tracker := some { startNs := .ofNat start, sampleRate := s.streamSampleRate }
    audio := B.setCorrection s.audio 0
    lastDrift := 0 }

/-- The drift servo: at most one second of frames is corrected at a time. -/
def driftServo (build : Build) (s : Endpoint B) (w : World) : Except Halt (Endpoint B) :=
  match s.tracker, B.contentPosition s.audio with
  | some t, some frames =>
    if s.started then do
      let drift ← checked (t.driftFrames build (s.trackerNow w) frames)
      let deadband : Int := max (s.streamSampleRate / 2000).toNat 4
      let progress ← checked (build.i64 (s.lastDrift - drift))
      if s.stalled drift progress then s.rebase build t drift
      else
        let size ← checked (build.i64 |drift|)
        if size > deadband then
          let rate : Int := s.streamSampleRate.toNat
          return { s with
            audio := B.setCorrection s.audio (max (-rate) (min drift rate)), lastDrift := drift }
        else return { s with audio := B.setCorrection s.audio 0, lastDrift := drift }
    else .ok s
  | _, _ => .ok s

def servoTick (build : Build) (s : Endpoint B) (w : World) :
    Except Halt (Endpoint B × List Effect) := do
  let (s, idle) := { s with servoTicks := s.servoTicks + 1 }.idleTick
  let stats ← s.streamStats build w
  let s ← s.driftServo build w
  return (s, idle ++ stats)

/-! ## The transport's events -/

/-- The output is taken into use. -/
def useOutput (s : Endpoint B) : Endpoint B × List Effect :=
  if s.outputInUse then (s, []) else ({ s with outputInUse := true }, [.hook .start])

/-- The output is no longer in use. -/
def leaveOutput (s : Endpoint B) : Endpoint B × List Effect :=
  if s.outputInUse then ({ s with outputInUse := false }, [.hook .stop]) else (s, [])

/-- The scheduling state of a stream that has not started. -/
def resetStream (s : Endpoint B) : Endpoint B :=
  { s with armed := false, started := false, startDeadline := none, tracker := none,
           lastDrift := 0 }

/-- What `configure_with_device` is given for a proposal. -/
def proposedConfig (s : Endpoint B) (fp : FormatPropose) : Config :=
  { format := fp.format, sampleRate := fp.sampleRate, channels := fp.channels,
    device := s.currentAudioDevice }

def formatProposed (s : Endpoint B) (fp : FormatPropose) (h : B.Host) :
    Except Halt (Endpoint B × List Effect) :=
  let s := { s.resetStream with
    streamSampleRate := fp.sampleRate, currentStreamId := fp.streamId, released := false,
    lastFormat := some fp }
  match B.configure s.audio (s.proposedConfig fp) h with
  | .error e => .error e
  | .ok (audio, opened, r) =>
    let verdict : Message := match r with
      | .ok () => .formatAccept fp.streamId
      | .error e =>
        .formatReject
          { streamId := fp.streamId, reason := "audio device configuration failed: " ++ e }
    .ok ({ s with audio }, .configured :: openedIf opened ++ [.send verdict])

/-- The presentation time of the head of the output's buffer. -/
def headPtsNs (build : Build) (s : Endpoint B) (header : AudioPacketHeader)
    (bufferedFramesBefore : Nat) : Except Halt UInt64 := do
  let scaled ← checked (build.u64 (bufferedFramesBefore * 1_000_000_000))
  return .ofNat (header.ptsNs.toNat - scaled / max s.streamSampleRate.toNat 1)

/-- The deferred start: on the clock if there is one and the lead is plausible,
else now. -/
def deferredStart (s : Endpoint B) (w : World) (head : UInt64) : Endpoint B :=
  let s := { s with armed := false }
  let leadNs := (w.clock.controllerToLocal head).toNat - w.now.toNat
  if w.clock.bootstrapped && leadNs > 0 && leadNs < 5_000_000_000 then
    { s with
      startDeadline := some (w.instant + leadNs)
      tracker := some { startNs := head, sampleRate := s.streamSampleRate }
      trackerIsControllerDomain := true }
  else
    let ptsAgeNs := (w.clock.localToController w.now).toNat - head.toNat
    let onPts := w.clock.bootstrapped && ptsAgeNs < 30_000_000_000
    { s with
      started := true
      audio := B.play s.audio
      tracker :=
        some { startNs := if onPts then head else w.now, sampleRate := s.streamSampleRate }
      trackerIsControllerDomain := onPts }

/-- The payload goes to the output, unless it is empty or the output is released. -/
def writePacket (s : Endpoint B) (header : AudioPacketHeader) (payload : List UInt8) (h : B.Host) :
    Except Halt (Endpoint B × List Effect) :=
  if !payload.isEmpty && !s.released then
    match B.writeAudio s.audio payload h with
    | .error e => .error e
    | .ok (audio, opened) => .ok ({ s with audio }, .write header payload :: openedIf opened)
  else .ok (s, [])

def audioPacket (build : Build) (s : Endpoint B) (header : AudioPacketHeader)
    (payload : List UInt8) (w : World) (h : B.Host) : Except Halt (Endpoint B × List Effect) := do
  let bufferedFramesBefore := B.bufferLevel s.audio
  let s := { s with
    packetCount := s.packetCount + 1, totalBytes := s.totalBytes + payload.length }
  let (s, wrote) ← s.writePacket header payload h
  if s.armed && !s.started then
    let head ← s.headPtsNs build header bufferedFramesBefore
    return (s.deferredStart w head, wrote ++ [.tracked])
  else return (s, wrote)

/-- Play after a release opens the device again with the last format. -/
def reopen (s : Endpoint B) (h : B.Host) : Except Halt (Endpoint B × List Effect) :=
  if s.released then
    let s := { s with released := false }
    match s.lastFormat with
    | none => .ok (s, [])
    | some fp =>
      match B.configure s.audio (s.proposedConfig fp) h with
      | .error e => .error e
      | .ok (audio, opened, _) => .ok ({ s with audio }, .configured :: openedIf opened)
  else .ok (s, [])

/-- Play resumes at once, or waits for the first packet, or starts at once on an
output without a position. -/
def begin (s : Endpoint B) : Endpoint B :=
  if s.started then { s with audio := B.play s.audio }
  else if (B.framesPlayed s.audio).isSome then { s with armed := true }
  else { s with started := true, audio := B.play s.audio }

def play (s : Endpoint B) (h : B.Host) : Except Halt (Endpoint B × List Effect) := do
  let (s, reopened) ← s.reopen h
  let (s, hooks) := s.useOutput
  return (s.begin, reopened ++ hooks)

def pause (s : Endpoint B) : Endpoint B × List Effect :=
  ({ s with audio := B.setCorrection (B.pause s.audio) 0, tracker := none }, [])

def stop (s : Endpoint B) (h : B.Host) : Except Halt (Endpoint B × List Effect) :=
  match B.stop s.audio h with
  | .error e => .error e
  | .ok (audio, opened) =>
    let (s, hooks) := { s.resetStream with audio }.leaveOutput
    .ok (s, openedIf opened ++ hooks)

def seek (s : Endpoint B) (h : B.Host) : Except Halt (Endpoint B × List Effect) :=
  match B.flush s.audio h with
  | .error e => .error e
  | .ok (audio, opened) =>
    .ok ({ s with audio := B.setCorrection audio 0, tracker := none },
      .configured :: openedIf opened)

def nextTrackReformat (s : Endpoint B) (format : AudioFormat) (sampleRate : UInt32) (h : B.Host) :
    Except Halt (Endpoint B × List Effect) :=
  if s.released then .ok (s, [])
  else
    let cfg := { format, sampleRate, channels := 2, device := s.currentAudioDevice }
    match B.configure s.audio cfg h with
    | .error e => .error e
    | .ok (audio, opened, _) => .ok ({ s with audio }, .configured :: openedIf opened)

def volume (s : Endpoint B) : VolumeCommand → Endpoint B
  | .set level => if s.mixer then s else { s with audio := B.setVolume s.audio level }
  | .get => s
  | .mute muted => if s.mixer then s else { s with audio := B.setMute s.audio muted }

def disconnected (s : Endpoint B) (h : B.Host) : Except Halt (Endpoint B × List Effect) :=
  match B.stop s.audio h with
  | .error e => .error e
  | .ok (audio, opened) =>
    let (s, hooks) := { s with audio, connected := false, released := false }.leaveOutput
    .ok ({ s with packetCount := 0, totalBytes := 0 }, openedIf opened ++ hooks)

def control (s : Endpoint B) (h : B.Host) : EndpointEvent → Except Halt (Endpoint B × List Effect)
  | .formatProposed fp => s.formatProposed fp h
  | .playback (.play _) => s.play h
  | .playback (.pause _) => .ok s.pause
  | .playback (.stop _) => s.stop h
  | .playback (.seek _ _) => s.seek h
  | .nextTrackReformat _ format sampleRate => s.nextTrackReformat format sampleRate h
  | .volume cmd => .ok (s.volume cmd, [])
  | .formatAccepted _ | .formatRejected _ _ | .metadata _ | .nextTrackReady _ | .zoneAssigned _
  | .zoneUpdated _ _ | .zoneReleased _ => .ok (s, [])

def event (build : Build) (s : Endpoint B) (w : World) (h : B.Host) :
    Event → Except Halt (Endpoint B × List Effect)
  | .connected _ _ => .ok ({ s with connected := true }, [])
  | .control e => s.control h e
  | .audioPacket header payload => s.audioPacket build header payload w h
  | .disconnected => s.disconnected h
  | .error _ => .ok (s, [])

/-! ## The web UI's requests -/

/-- Give up the output, and tell the controller. -/
def release (s : Endpoint B) (h : B.Host) : Except Halt (Endpoint B × List Effect) :=
  match B.release s.audio h with
  | .error e => .error e
  | .ok (audio, opened) =>
    let told : List Effect :=
      if s.connected then
        [.send (.endpointRelease { streamId := s.currentStreamId, reason := .localSource })]
      else []
    let (s, hooks) := { s.resetStream with audio, released := true }.leaveOutput
    .ok (s, openedIf opened ++ told ++ hooks)

def step (build : Build) (s : Endpoint B) : Action B → Except Halt (Endpoint B × List Effect)
  | .startTimer w => s.startTimer w
  | .servoTick w => s.servoTick build w
  | .event e w h => s.event build w h e
  | .release h => s.release h
  | .switchDevice name => .ok ({ s with currentAudioDevice := some name }, [])
  | .host h =>
    match B.host s.audio h with
    | .error e => .error e
    | .ok (audio, opened) => .ok ({ s with audio }, openedIf opened)

end Endpoint

end Oaat.Cli
