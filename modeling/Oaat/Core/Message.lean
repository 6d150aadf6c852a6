/-
Oaat.Core.Message — the control protocol's messages
(`oaat-core/src/message.rs`).

Every variant of `Message` with its fields. How a message is written as JSON is
`serde_json`'s business: `SerdeJson` stands for `to_vec` and `from_slice`,
both pure functions of their argument, and the theorems that need it assume
of the messages at hand that reading gives back what writing wrote.
-/
import Oaat.Core.Basic
import Oaat.Lib.BigEndian

namespace Oaat.Core

open Oaat.Lib

/-! ## Handshake -/

structure Hello where
  protocolVersion : UInt32
  controllerId : String
  controllerName : String
  clockPort : UInt16
  features : List String
  deriving Repr, DecidableEq

inductive VolumeType where
  | hw | sw | fixed | none
  deriving Repr, DecidableEq

structure VolumeCapability where
  volType : VolumeType
  range : UInt8 × UInt8
  step : UInt8
  deriving Repr, DecidableEq

structure EndpointCapabilities where
  pcmMaxRate : UInt32
  pcmMaxBits : UInt8
  dsdMaxRate : Option UInt16
  channelsMax : UInt8
  formats : List AudioFormat
  volume : Option VolumeCapability
  gapless : Bool
  seek : Bool
  deriving Repr, DecidableEq

structure HelloAck where
  protocolVersion : UInt32
  endpointId : String
  endpointName : String
  capabilities : EndpointCapabilities
  audioPort : UInt16
  clockPort : UInt16
  bufferSizeMs : UInt32
  features : List String
  deriving Repr, DecidableEq

/-- Feature flag for `endpoint_release`. -/
def FEATURE_ENDPOINT_RELEASE : String := "endpoint_release"

/-! ## Format negotiation -/

structure FormatPropose where
  streamId : String
  format : AudioFormat
  sampleRate : UInt32
  channels : UInt8
  channelLayout : ChannelLayout
  bitsPerSample : UInt8
  dsdRate : Option UInt16
  deriving Repr, DecidableEq

structure FormatCounter where
  streamId : String
  format : AudioFormat
  sampleRate : UInt32
  channels : UInt8
  channelLayout : ChannelLayout
  bitsPerSample : UInt8
  dsdRate : Option UInt16
  deriving Repr, DecidableEq

structure FormatReject where
  streamId : String
  reason : String
  deriving Repr, DecidableEq

/-! ## The rest -/

structure StreamStats where
  streamId : String
  bufferFrames : UInt64
  driftUs : Int64
  correctionsNetFrames : Int64
  packetsLost : UInt64
  packetsRecovered : UInt64
  bitPerfect : Bool
  underruns : UInt64
  deriving Repr, DecidableEq

structure TrackMetadata where
  title : String
  artist : String
  album : String
  durationMs : UInt64
  artworkUrl : Option String
  format : Option String
  deriving Repr, DecidableEq

structure ZoneAck where
  zoneId : String
  endpointId : String
  accepted : Bool
  reason : Option String
  deriving Repr, DecidableEq

structure NextTrackPrepare where
  streamId : String
  format : AudioFormat
  sampleRate : UInt32
  channels : UInt8
  channelLayout : ChannelLayout
  bitsPerSample : UInt8
  deriving Repr, DecidableEq

inductive ReleaseReason where
  | localSource
  | other
  deriving Repr, DecidableEq

structure EndpointRelease where
  streamId : String
  reason : ReleaseReason
  deriving Repr, DecidableEq

inductive Message where
  | hello (h : Hello)
  | helloAck (a : HelloAck)
  | formatPropose (fp : FormatPropose)
  | formatAccept (streamId : String)
  | formatCounter (fc : FormatCounter)
  | formatReject (fr : FormatReject)
  | play (streamId : String)
  | pause (streamId : String)
  | stop (streamId : String)
  | seek (streamId : String) (positionMs : UInt64)
  | volumeSet (level : UInt8)
  | volumeGet
  | volumeReport (level : UInt8) (muted : Bool)
  | mute (muted : Bool)
  | metadata (track : TrackMetadata)
  | zoneAssign (zoneId endpointId : String)
  | zoneUpdate (zoneId : String) (endpointIds : List String)
  | zoneRelease (zoneId endpointId : String)
  | zoneAck (za : ZoneAck)
  | nextTrackPrepare (ntp : NextTrackPrepare)
  | nextTrackReady (streamId : String)
  | nextTrackReformat (streamId : String) (format : AudioFormat) (sampleRate : UInt32)
  | streamStats (ss : StreamStats)
  | endpointRelease (er : EndpointRelease)
  | error (code : UInt32) (message : String)
  deriving Repr, DecidableEq

/-! ## Framing -/

/-- `serde_json` at the type `Message`; an error is its text. -/
structure SerdeJson where
  toVec : Message → List UInt8
  fromSlice : List UInt8 → Except String Message

/-- What `serde_json` promises of a message: it reads back what it wrote. -/
def SerdeJson.RoundTrips (serde : SerdeJson) (msg : Message) : Prop :=
  serde.fromSlice (serde.toVec msg) = .ok msg

/-- `serde_json` on a table of messages and their texts (ASCII, in pieces), for
concrete runs. Any other text is the error that `x` gives. -/
def SerdeJson.table (texts : List (Message × List String)) : SerdeJson where
  toVec msg := ((texts.find? (·.1 = msg)).map fun t => ascii t.2).getD []
  fromSlice json :=
    match texts.find? fun t => ascii t.2 = json with
    | some t => .ok t.1
    | none => .error "expected value at line 1 column 1"
where
  ascii (text : List String) : List UInt8 :=
    text.flatMap fun piece => piece.toList.map fun c => UInt8.ofNat c.toNat

namespace Message

/-- `json.len() as u32` in four bytes, then the JSON. -/
def encodeFramed (serde : SerdeJson) (msg : Message) : List UInt8 :=
  let json := serde.toVec msg
  toBe 4 json.length ++ json

def decodeJson (serde : SerdeJson) (json : List UInt8) : Except String Message :=
  serde.fromSlice json

end Message

end Oaat.Core
