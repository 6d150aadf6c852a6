/-
Oaat.Core.MessageJson — what the `serde` attributes of the messages leave to other
versions (`oaat-core/src/message.rs`).

Every struct with its fields under the names of the source. A field has a default
where the source gives it one (`#[serde(default)]`); no struct refuses members it
does not know, and of the enums of names only `ReleaseReason` takes any.
-/
import Oaat.Core.Message
import Oaat.Lib.Versions

namespace Oaat.Core.Json

open Oaat.Lib.Versions

def required (name : String) (type : Schema) : String × Schema × Option Content :=
  (name, type, none)

/-- `#[serde(default)]` -/
def defaulted (name : String) (type : Schema) (default : Content) :
    String × Schema × Option Content := (name, type, some default)

/-! ## Parts of messages -/

/-- `Other` is any reason this version does not know: `#[serde(other)]`. -/
def releaseReason : Schema := .names ["local_source", "other"] "other"

def volumeCapability : Schema := .struct [required "type" .leaf, required "range" .leaf,
  required "step" .leaf]

def capabilities : Schema := .struct [
  required "pcm_max_rate" .leaf,
  required "pcm_max_bits" .leaf,
  defaulted "dsd_max_rate" .leaf .null,
  required "channels_max" .leaf,
  required "formats" .leaf,
  defaulted "volume" volumeCapability .null,
  defaulted "gapless" .leaf (.bool false),
  defaulted "seek" .leaf (.bool false)]

def trackMetadata : Schema := .struct [
  required "title" .leaf,
  required "artist" .leaf,
  required "album" .leaf,
  required "duration_ms" .leaf,
  defaulted "artwork_url" .leaf .null,
  defaulted "format" .leaf .null]

/-! ## Messages -/

def hello : Fields := [
  required "protocol_version" .leaf,
  required "controller_id" .leaf,
  required "controller_name" .leaf,
  required "clock_port" .leaf,
  defaulted "features" .leaf (.array [])]

def helloAck : Fields := [
  required "protocol_version" .leaf,
  required "endpoint_id" .leaf,
  required "endpoint_name" .leaf,
  required "capabilities" capabilities,
  required "audio_port" .leaf,
  required "clock_port" .leaf,
  required "buffer_size_ms" .leaf,
  defaulted "features" .leaf (.array [])]

def formatPropose : Fields := [
  required "stream_id" .leaf,
  required "format" .leaf,
  required "sample_rate" .leaf,
  required "channels" .leaf,
  required "channel_layout" .leaf,
  required "bits_per_sample" .leaf,
  defaulted "dsd_rate" .leaf .null]

def formatAccept : Fields := [required "stream_id" .leaf]

def formatCounter : Fields := [
  required "stream_id" .leaf,
  required "format" .leaf,
  required "sample_rate" .leaf,
  required "channels" .leaf,
  required "channel_layout" .leaf,
  required "bits_per_sample" .leaf,
  defaulted "dsd_rate" .leaf .null]

def formatReject : Fields := [required "stream_id" .leaf, required "reason" .leaf]

def play : Fields := [required "stream_id" .leaf]

def pause : Fields := [required "stream_id" .leaf]

def stop : Fields := [required "stream_id" .leaf]

def seek : Fields := [required "stream_id" .leaf, required "position_ms" .leaf]

def volumeSet : Fields := [required "level" .leaf]

def volumeGet : Fields := []

def volumeReport : Fields := [required "level" .leaf, required "muted" .leaf]

def mute : Fields := [required "muted" .leaf]

def metadata : Fields := [required "track" trackMetadata]

def zoneAssign : Fields := [required "zone_id" .leaf, required "endpoint_id" .leaf]

def zoneUpdate : Fields := [required "zone_id" .leaf, required "endpoint_ids" .leaf]

def zoneRelease : Fields := [required "zone_id" .leaf, required "endpoint_id" .leaf]

def zoneAck : Fields := [
  required "zone_id" .leaf,
  required "endpoint_id" .leaf,
  required "accepted" .leaf,
  defaulted "reason" .leaf .null]

def nextTrackPrepare : Fields := [
  required "stream_id" .leaf,
  required "format" .leaf,
  required "sample_rate" .leaf,
  required "channels" .leaf,
  required "channel_layout" .leaf,
  required "bits_per_sample" .leaf]

def nextTrackReady : Fields := [required "stream_id" .leaf]

def nextTrackReformat : Fields := [required "stream_id" .leaf, required "format" .leaf,
  required "sample_rate" .leaf]

def streamStats : Fields := [
  required "stream_id" .leaf,
  required "buffer_frames" .leaf,
  required "drift_us" .leaf,
  required "corrections_net_frames" .leaf,
  required "packets_lost" .leaf,
  required "packets_recovered" .leaf,
  required "bit_perfect" .leaf,
  defaulted "underruns" .leaf (.int 0)]

def endpointRelease : Fields := [required "stream_id" .leaf, required "reason" releaseReason]

def error : Fields := [required "code" .leaf, required "message" .leaf]

/-- `Message`: `#[serde(tag = "type", rename_all = "snake_case")]`. -/
def message : Schema := .tagged "type" [
  ("hello", hello),
  ("hello_ack", helloAck),
  ("format_propose", formatPropose),
  ("format_accept", formatAccept),
  ("format_counter", formatCounter),
  ("format_reject", formatReject),
  ("play", play),
  ("pause", pause),
  ("stop", stop),
  ("seek", seek),
  ("volume_set", volumeSet),
  ("volume_get", volumeGet),
  ("volume_report", volumeReport),
  ("mute", mute),
  ("metadata", metadata),
  ("zone_assign", zoneAssign),
  ("zone_update", zoneUpdate),
  ("zone_release", zoneRelease),
  ("zone_ack", zoneAck),
  ("next_track_prepare", nextTrackPrepare),
  ("next_track_ready", nextTrackReady),
  ("next_track_reformat", nextTrackReformat),
  ("stream_stats", streamStats),
  ("endpoint_release", endpointRelease),
  ("error", error)]

end Oaat.Core.Json
