/-
Oaat.Ffi.EndpointApi — the C interface of the endpoint
(`oaat-ffi/src/lib.rs`: `oaat_endpoint_poll_event`, `convert_event`,
`oaat_endpoint_set_audio_callback`, `oaat_endpoint_set_volume`,
`oaat_endpoint_get_status`).

The transport sends its events into a bounded channel, and the C host polls
them. A polled audio packet is handed to the registered callback on the way. A C
string is `none` where it is a null pointer; pointers of the host, the callback
and its user data, are numbers. Null endpoints, the lifetime of what the host is
given and the poisoning of locks are left out.

`OaatAudioFormat` has the constructors of `AudioFormat`, and its values are
their wire ids.
-/
import Oaat.Cli.RunEndpoint

namespace Oaat.Ffi

open Oaat.Core Oaat.Endpoint
open Oaat.Cli (Event)

/-! ## What the host sees -/

inductive OaatStatus where
  | idle | connected | streaming | paused | error
  deriving Repr, DecidableEq

/-- `OaatEventType` with the data of its member of the union. -/
inductive OaatEvent where
  | none
  | connected (controllerId controllerName : Option String)
  | formatProposed (streamId : Option String) (format : AudioFormat) (sampleRate : UInt32)
      (channels bitsPerSample : UInt8)
  | audio (data : List UInt8) (format : AudioFormat) (sequence : UInt16)
      (ptsNs sampleOffset : UInt64)
  | play (streamId : Option String)
  | pause (streamId : Option String)
  | stop (streamId : Option String)
  | metadata (title artist album : Option String) (durationMs : UInt64)
  | disconnected
  | volumeSet (level : UInt8)
  | volumeGet
  | volumeMute (muted : Bool)
  | formatAccepted (streamId : Option String)
  | formatRejected (streamId reason : Option String)
  | error (message : Option String)
  deriving Repr, DecidableEq

/-- One call of the host's callback. -/
structure AudioCall where
  callback : Nat
  userData : Nat
  data : List UInt8
  format : AudioFormat
  sampleRate : UInt32
  channels : UInt8
  deriving Repr, DecidableEq

/-- A C string has no NUL inside. -/
def toCString (s : String) : Option String :=
  if s.toList.contains (Char.ofNat 0) then none else some s

/-! ## The endpoint -/

structure AudioCallbackState where
  callback : Option Nat
  userData : Nat
  /-- Of the last proposal that was polled. -/
  sampleRate : UInt32
  channels : UInt8
  deriving Repr, DecidableEq

structure OaatEndpoint where
  /-- The event channel. -/
  events : List Event
  /-- The control channel. -/
  control : List Message
  audioCb : AudioCallbackState
  status : OaatStatus

namespace OaatEndpoint

def EVENT_CHANNEL : Nat := 256

def CONTROL_CHANNEL : Nat := 64

/-- The capabilities that `oaat_endpoint_new` announces. -/
def capabilities : EndpointCapabilities :=
  { pcmMaxRate := 768000, pcmMaxBits := 32, dsdMaxRate := some 256, channelsMax := 8
    formats :=
      [.pcmS16le, .pcmS24le, .pcmS24le4, .pcmS32le, .pcmF32le, .dsdU8, .dsdU16le, .dsdU32le,
        .flac]
    volume := none, gapless := true, seek := true }

/-- The accept is not deferred. -/
def session (hello : Hello) : SessionConfig :=
  { capabilities := capabilities, deferFormatAccept := false, hello }

/-- `oaat_endpoint_new` -/
def new : OaatEndpoint :=
  { events := [], control := [], status := .idle,
    audioCb := { callback := none, userData := 0, sampleRate := 0, channels := 0 } }

section

variable (display : OaatError → String)

/-- The endpoint after an event, what the host gets, and whether its callback is
called. -/
def convertControl (ep : OaatEndpoint) : EndpointEvent → OaatEndpoint × OaatEvent
  | .formatProposed fp =>
    ({ ep with
       audioCb := { ep.audioCb with sampleRate := fp.sampleRate, channels := fp.channels } },
      .formatProposed (toCString fp.streamId) fp.format fp.sampleRate fp.channels
        fp.bitsPerSample)
  | .formatAccepted streamId =>
    ({ ep with status := .streaming }, .formatAccepted (toCString streamId))
  | .formatRejected streamId reason =>
    (ep, .formatRejected (toCString streamId) (toCString reason))
  | .playback (.play streamId) => ({ ep with status := .streaming }, .play (toCString streamId))
  | .playback (.pause streamId) => ({ ep with status := .paused }, .pause (toCString streamId))
  | .playback (.stop streamId) => ({ ep with status := .connected }, .stop (toCString streamId))
  -- a seek is reported as play, without its position
  | .playback (.seek streamId _) => (ep, .play (toCString streamId))
  | .metadata track =>
    (ep, .metadata (toCString track.title) (toCString track.artist) (toCString track.album)
      track.durationMs)
  | .volume (.set level) => (ep, .volumeSet level)
  | .volume .get => (ep, .volumeGet)
  | .volume (.mute muted) => (ep, .volumeMute muted)
  -- events without a C mapping
  | .nextTrackReady _ | .nextTrackReformat _ _ _ | .zoneAssigned _ | .zoneUpdated _ _
  | .zoneReleased _ => (ep, .none)

def convertEvent (ep : OaatEndpoint) : Event → OaatEndpoint × OaatEvent × List AudioCall
  | .connected controllerId controllerName =>
    ({ ep with status := .connected },
      .connected (toCString controllerId) (toCString controllerName), [])
  | .control e =>
    let (ep, event) := ep.convertControl e
    (ep, event, [])
  | .audioPacket header payload =>
    let called := match ep.audioCb.callback with
      | some callback =>
        [{ callback, userData := ep.audioCb.userData, data := payload, format := header.format,
           sampleRate := ep.audioCb.sampleRate, channels := ep.audioCb.channels }]
      | none => []
    (ep, .audio payload header.format header.sequence header.ptsNs header.sampleOffset, called)
  | .disconnected => ({ ep with status := .idle }, .disconnected, [])
  | .error e => ({ ep with status := .error }, .error (toCString (display e)), [])

/-- `oaat_endpoint_poll_event`: the next event, or `none` when there is none until
the timeout. -/
def pollEvent (ep : OaatEndpoint) : OaatEndpoint × OaatEvent × List AudioCall :=
  match ep.events with
  | [] => (ep, .none, [])
  | event :: events => { ep with events }.convertEvent display event

end

/-- `oaat_endpoint_set_audio_callback` -/
def setAudioCallback (ep : OaatEndpoint) (callback : Option Nat) (userData : Nat) : OaatEndpoint :=
  { ep with audioCb := { ep.audioCb with callback, userData } }

/-- `oaat_endpoint_set_volume`: dropped if the channel is full. -/
def setVolume (ep : OaatEndpoint) (level : UInt8) : OaatEndpoint :=
  if ep.control.length < CONTROL_CHANNEL then
    { ep with control := ep.control ++ [.volumeReport level false] }
  else ep

/-- The transport sends an event; `none` while the channel is full. -/
def sendEvent (ep : OaatEndpoint) (event : Event) : Option OaatEndpoint :=
  if ep.events.length < EVENT_CHANNEL then some { ep with events := ep.events ++ [event] }
  else none

end OaatEndpoint

end Oaat.Ffi
