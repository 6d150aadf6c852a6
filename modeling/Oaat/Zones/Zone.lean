/-
Oaat.Zones.Zone — the control side of a zone
(`oaat-controller/src/zone.rs`: `VolumeMap` and `Zone`, with the sends of
`ConnectedEndpoint` in `oaat-controller/src/transport.rs`).

A member is its connection: the messages written on it, in order, and whether
it still takes any (`live`). A lost connection fails every later send. How a
connection attempt ends is an argument of the operation that makes it. A
connection can be lost at any time, which is an operation of its own (`lost`);
the one send whose failure decides more than its own message, the proposal of
a late join, has an argument for it.

The hash maps are `Table`s. Nothing depends on the order of their iteration
but the order in which a `ZoneUpdate` lists the members. The clock, the audio
path and the release channel are left to other modules, and log lines are left
out.
-/
import Oaat.Core.Message
import Oaat.Lib.MachineInt
import Oaat.Lib.Run
import Oaat.Lib.Table

namespace Oaat.Zones

open Oaat.Core Oaat.Lib

structure SocketAddr where
  ip : List UInt8
  port : UInt16
  deriving Repr, DecidableEq

/-! ## Volumes -/

/-- Per-endpoint volume offsets. -/
structure VolumeMap where
  master : UInt8
  offsets : Table String Int8

namespace VolumeMap

def new : VolumeMap := { master := 100, offsets := ∅ }

def offset (v : VolumeMap) (endpointId : String) : Int8 := (v.offsets.lookup endpointId).getD 0

/-- `clamp(0, 100) as u8` -/
def clampLevel (level : Int) : UInt8 := .ofNat (max 0 (min level 100)).toNat

/-- `clamp(master + offset, 0, 100)`; the sum of a `u8` and an `i8` fits its
`i16`. -/
def effectiveVolume (v : VolumeMap) (endpointId : String) : UInt8 :=
  clampLevel (v.master.toNat + (v.offset endpointId).toInt)

end VolumeMap

/-! ## Members -/

inductive EndpointState where
  | connected | syncing | ready | streaming | degraded | disconnected
  deriving Repr, DecidableEq

/-- What the zone is doing, for those who join late. -/
structure ActiveStream where
  streamId : String
  format : AudioFormat
  sampleRate : UInt32
  channels : UInt8
  channelLayout : ChannelLayout
  bitsPerSample : UInt8
  metadata : Option TrackMetadata
  playing : Bool
  deriving Repr, DecidableEq

/-- What `propose_format` sends. -/
def ActiveStream.proposal (stream : ActiveStream) : FormatPropose :=
  { streamId := stream.streamId, format := stream.format, sampleRate := stream.sampleRate,
    channels := stream.channels, channelLayout := stream.channelLayout,
    bitsPerSample := stream.bitsPerSample, dsdRate := none }

structure EndpointEntry where
  info : HelloAck
  addr : SocketAddr
  state : EndpointState
  /-- The connection takes what is written. -/
  live : Bool
  /-- Written on the connection so far. -/
  sent : List Message
  deriving Repr, DecidableEq

namespace EndpointEntry

def sendMessage (e : EndpointEntry) (msg : Message) : Except OaatError Unit × EndpointEntry :=
  if e.live then (.ok (), { e with sent := e.sent ++ [msg] })
  else (.error (.io "broken pipe"), e)

/-- The failure of the send is only logged. -/
def tell (e : EndpointEntry) (msg : Message) : EndpointEntry := (e.sendMessage msg).2

/-- The state changes when the send succeeds. -/
def tellThen (e : EndpointEntry) (msg : Message) (state : EndpointState) : EndpointEntry :=
  match e.sendMessage msg with
  | (.ok (), e) => { e with state }
  | (.error _, e) => e

end EndpointEntry

structure Zone where
  zoneId : String
  endpoints : Table String EndpointEntry
  volume : VolumeMap
  activeStream : Option ActiveStream

namespace Zone

def new (zoneId : String) : Zone :=
  { zoneId, endpoints := ∅, volume := .new, activeStream := none }

def endpointIds (z : Zone) : List String := z.endpoints.keys

def endpointName (z : Zone) (endpointId : String) : Option String :=
  (z.endpoints.lookup endpointId).map fun e => e.info.endpointName

def endpointAddr (z : Zone) (endpointId : String) : Option SocketAddr :=
  (z.endpoints.lookup endpointId).map fun e => e.addr

/-- Every member in turn. -/
def forAll (z : Zone) (f : String → EndpointEntry → EndpointEntry) : Zone :=
  { z with endpoints := z.endpoints.visit f }

def tellAll (z : Zone) (msg : Message) : Zone := z.forAll fun _ e => e.tell msg

/-! ## Joining and leaving -/

def broadcastZoneUpdate (z : Zone) : Zone := z.tellAll (.zoneUpdate z.zoneId z.endpointIds)

/-- `outcome` is how connecting to `addr` ends. -/
def addEndpoint (z : Zone) (addr : SocketAddr) (outcome : Except OaatError HelloAck) :
    Except OaatError String × Zone :=
  match outcome with
  | .error e => (.error e, z)
  | .ok info =>
    let epId := info.endpointId
    let entry : EndpointEntry :=
      { info, addr, state := .ready, live := true, sent := [.zoneAssign z.zoneId epId] }
    (.ok epId, { z with endpoints := z.endpoints.insert epId entry }.broadcastZoneUpdate)

/-- The connection to a member is lost. -/
def lose (z : Zone) (endpointId : String) : Zone :=
  { z with endpoints := z.endpoints.modify endpointId fun e => { e with live := false } }

/-- What a late joiner is sent after the proposal. -/
def catchUp (z : Zone) (stream : ActiveStream) (epId : String) (e : EndpointEntry) :
    EndpointEntry :=
  let e := match stream.metadata with
    | some track => e.tell (.metadata track)
    | none => e
  let e := e.tell (.volumeSet (z.volume.effectiveVolume epId))
  if stream.playing then { e.tell (.play stream.streamId) with state := .streaming } else e

/-- The new member is proposed the format of the stream, and catches up; when the
proposal fails, it is taken out again. -/
def catchUpWith (z : Zone) (stream : ActiveStream) (epId : String) :
    Except Panic (Except OaatError String × Zone) :=
  match z.endpoints.lookup epId with
  -- `unwrap`
  | none => .error .expectFailed
  | some entry =>
    match entry.sendMessage (.formatPropose stream.proposal) with
    | (.error e, _) => .ok (.error e, { z with endpoints := z.endpoints.erase epId })
    | (.ok (), entry) =>
      .ok (.ok epId,
        { z with endpoints := z.endpoints.insert epId (z.catchUp stream epId entry) })

/-- Late join. `lost` says that the new connection is lost before the format is
proposed on it. -/
def joinActive (z : Zone) (addr : SocketAddr) (outcome : Except OaatError HelloAck)
    (lost : Bool) : Except Panic (Except OaatError String × Zone) :=
  match z.addEndpoint addr outcome with
  | (.error e, z) => .ok (.error e, z)
  | (.ok epId, z) =>
    match z.activeStream with
    | none => .ok (.ok epId, z)
    | some stream => (if lost then z.lose epId else z).catchUpWith stream epId

/-- A spawned task says goodbye on the connection that leaves. -/
def farewell (z : Zone) (endpointId : String) (e : EndpointEntry) : List Message :=
  if e.live then [.zoneRelease z.zoneId endpointId] else []

def removeEndpoint (z : Zone) (endpointId : String) : Bool × Zone × List Message :=
  match z.endpoints.lookup endpointId with
  | some e =>
    (true,
      { z with
        endpoints := z.endpoints.erase endpointId
        volume.offsets := z.volume.offsets.erase endpointId },
      z.farewell endpointId e)
  | none => (false, z, [])

def removeEndpointAndNotify (z : Zone) (endpointId : String) : Bool × Zone × List Message :=
  match z.removeEndpoint endpointId with
  | (true, z, goodbye) => (true, z.broadcastZoneUpdate, goodbye)
  | (false, z, goodbye) => (false, z, goodbye)

def markDegraded (z : Zone) (endpointId : String) : Zone :=
  { z with endpoints := z.endpoints.modify endpointId fun e => { e with state := .degraded } }

def markDisconnected (z : Zone) (endpointId : String) : Zone :=
  { z with endpoints := z.endpoints.modify endpointId fun e => { e with state := .disconnected } }

/-- The members that are marked disconnected. -/
def dead (z : Zone) : List String :=
  z.endpoints.entries.filterMap fun e => if e.2.state = .disconnected then some e.1 else none

def pruneDisconnected (z : Zone) : List String × Zone :=
  (z.dead,
    { z with
      endpoints := z.endpoints.eraseAll z.dead
      volume.offsets := z.volume.offsets.eraseAll z.dead })

/-! ## The stream -/

def proposeFormatAll (z : Zone) (streamId : String) (format : AudioFormat) (sampleRate : UInt32)
    (channels : UInt8) (channelLayout : ChannelLayout) (bitsPerSample : UInt8) : Zone :=
  let stream : ActiveStream :=
    { streamId, format, sampleRate, channels, channelLayout, bitsPerSample, metadata := none,
      playing := false }
  { z with activeStream := some stream }.tellAll (.formatPropose stream.proposal)

def sendMetadataAll (z : Zone) (track : TrackMetadata) : Zone :=
  let activeStream := z.activeStream.map fun stream => { stream with metadata := some track }
  { z with activeStream }.tellAll (.metadata track)

def playAll (z : Zone) (streamId : String) : Zone :=
  let activeStream := z.activeStream.map fun stream => { stream with playing := true }
  { z with activeStream }.forAll fun _ e => e.tellThen (.play streamId) .streaming

def stopAll (z : Zone) (streamId : String) : Zone :=
  { z with activeStream := none }.forAll fun _ e => e.tellThen (.stop streamId) .ready

/-! ## The volume -/

def setVolumeAll (z : Zone) (level : UInt8) : Zone :=
  let z := { z with volume.master := level }
  z.forAll fun id e => e.tell (.volumeSet (z.volume.effectiveVolume id))

/-- One member is sent a message; the failure of the send is the caller's. -/
def tellOne (z : Zone) (endpointId : String) (msg : Message) : Except OaatError Unit × Zone :=
  match z.endpoints.lookup endpointId with
  | some e =>
    ((e.sendMessage msg).1, { z with endpoints := z.endpoints.modify endpointId (·.tell msg) })
  | none => (.ok (), z)

/-- `level as i8 - self.volume.master as i8`, as it would be without a bound. -/
def offsetFor (z : Zone) (level : UInt8) : Int := level.toInt8.toInt - z.volume.master.toInt8.toInt

def setOffset (z : Zone) (endpointId : String) (offset : Int8) : Zone :=
  { z with volume.offsets := z.volume.offsets.insert endpointId offset }

/-- The level is sent as it was given. -/
def setVolumeEndpoint (build : Build) (z : Zone) (endpointId : String) (level : UInt8) :
    Except Panic (Except OaatError Unit × Zone) := do
  let offset ← build.i8 (z.offsetFor level)
  return (z.setOffset endpointId offset).tellOne endpointId (.volumeSet level)

def setVolumeOffset (z : Zone) (endpointId : String) (offset : Int8) :
    Except OaatError Unit × Zone :=
  let z := z.setOffset endpointId offset
  z.tellOne endpointId (.volumeSet (z.volume.effectiveVolume endpointId))

def setMuteAll (z : Zone) (muted : Bool) : Zone := z.tellAll (.mute muted)

def setMuteEndpoint (z : Zone) (endpointId : String) (muted : Bool) :
    Except OaatError Unit × Zone := z.tellOne endpointId (.mute muted)

end Zone

/-! ## Runs -/

/-- What an application asks of a zone, and what happens to it. -/
inductive Op where
  | addEndpoint (addr : SocketAddr) (outcome : Except OaatError HelloAck)
  | joinActive (addr : SocketAddr) (outcome : Except OaatError HelloAck) (lost : Bool)
  | removeEndpoint (endpointId : String)
  | removeEndpointAndNotify (endpointId : String)
  | markDegraded (endpointId : String)
  | markDisconnected (endpointId : String)
  | pruneDisconnected
  | proposeFormatAll (streamId : String) (format : AudioFormat) (sampleRate : UInt32)
      (channels : UInt8) (channelLayout : ChannelLayout) (bitsPerSample : UInt8)
  | sendMetadataAll (track : TrackMetadata)
  | playAll (streamId : String)
  | stopAll (streamId : String)
  | setVolumeAll (level : UInt8)
  | setVolumeEndpoint (endpointId : String) (level : UInt8)
  | setVolumeOffset (endpointId : String) (offset : Int8)
  | setMuteAll (muted : Bool)
  | setMuteEndpoint (endpointId : String) (muted : Bool)
  | lost (endpointId : String)

/-- An operation, and what is written on the connections that leave. -/
def Zone.step (build : Build) (z : Zone) : Op → Except Panic (Zone × List Message)
  | .addEndpoint addr outcome => .ok ((z.addEndpoint addr outcome).2, [])
  | .joinActive addr outcome lost => do
    let (_, z) ← z.joinActive addr outcome lost
    return (z, [])
  | .removeEndpoint endpointId => .ok (z.removeEndpoint endpointId).2
  | .removeEndpointAndNotify endpointId => .ok (z.removeEndpointAndNotify endpointId).2
  | .markDegraded endpointId => .ok (z.markDegraded endpointId, [])
  | .markDisconnected endpointId => .ok (z.markDisconnected endpointId, [])
  | .pruneDisconnected => .ok (z.pruneDisconnected.2, [])
  | .proposeFormatAll streamId format sampleRate channels channelLayout bitsPerSample =>
    .ok (z.proposeFormatAll streamId format sampleRate channels channelLayout bitsPerSample, [])
  | .sendMetadataAll track => .ok (z.sendMetadataAll track, [])
  | .playAll streamId => .ok (z.playAll streamId, [])
  | .stopAll streamId => .ok (z.stopAll streamId, [])
  | .setVolumeAll level => .ok (z.setVolumeAll level, [])
  | .setVolumeEndpoint endpointId level => do
    let (_, z) ← z.setVolumeEndpoint build endpointId level
    return (z, [])
  | .setVolumeOffset endpointId offset => .ok ((z.setVolumeOffset endpointId offset).2, [])
  | .setMuteAll muted => .ok (z.setMuteAll muted, [])
  | .setMuteEndpoint endpointId muted => .ok ((z.setMuteEndpoint endpointId muted).2, [])
  | .lost endpointId => .ok (z.lose endpointId, [])

/-- The answer of an endpoint, for concrete runs. -/
def helloFrom (endpointId : String) : HelloAck :=
  { protocolVersion := PROTOCOL_VERSION
    endpointId
    endpointName := endpointId
    capabilities :=
      { pcmMaxRate := 192000, pcmMaxBits := 24, dsdMaxRate := none, channelsMax := 2,
        formats := [.pcmS16le], volume := none, gapless := true, seek := true }
    audioPort := 9740
    clockPort := 9742
    bufferSizeMs := 200
    features := [] }

def someAddr : SocketAddr := { ip := [192, 168, 1, 20], port := 9741 }

end Oaat.Zones
