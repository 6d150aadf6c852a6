import Oaat.Fec.AtMostOnce
import Oaat.Fec.Safety
import Oaat.Fec.Recovery
import Oaat.Fec.Transparency
import Oaat.Fec.AnyOrder
import Oaat.Fec.RecoveredHeader
import Oaat.Fec.LossCount
import Oaat.Wire.Exact
import Oaat.Control.Reads
import Oaat.Clock.Accuracy
import Oaat.Clock.Pairing
import Oaat.Clock.Outliers
import Oaat.Flac.Chunking
import Oaat.Cpal.JumpResync
import Oaat.Cpal.BitExact
import Oaat.Alsa.Backoff
import Oaat.Alsa.Packetization
import Oaat.Negotiation.Verdicts
import Oaat.Negotiation.Readiness
import Oaat.Negotiation.Gapless
import Oaat.Negotiation.Capabilities
import Oaat.Negotiation.Forwarding
import Oaat.Cli.Released
import Oaat.Cli.Tracking
import Oaat.Cli.Formats
import Oaat.Cli.Hooks
import Oaat.Cli.ScheduledStart
import Oaat.Cli.Seek
import Oaat.Sessions.Events
import Oaat.Sessions.Clocks
import Oaat.Sessions.Isolation
import Oaat.WebUi.Access
import Oaat.Zones.Volumes
import Oaat.Zones.Membership
import Oaat.Zones.Moves
import Oaat.Zones.Releases
import Oaat.Zones.EventLog
import Oaat.Zones.Uniqueness
import Oaat.Endpoint.FlacStream
import Oaat.Flac.Memory
import Oaat.Flac.Stability
import Oaat.Lib.Text
import Oaat.Alsa.DeviceNames
import Oaat.Core.Capability
import Oaat.Wire.CapabilityText
import Oaat.Alsa.VolumeScale
import Oaat.Cpal.Underruns
import Oaat.Alsa.Padding
import Oaat.Endpoint.HelloSession
import Oaat.Sessions.Greeting
import Oaat.Lib.JsonText
import Oaat.Endpoint.StatusJson
import Oaat.Lib.Json
import Oaat.WebUi.StatusJson
import Oaat.Core.Time
import Oaat.Clock.Anchored
import Oaat.Clock.Published
import Oaat.Cli.Synchrony
import Oaat.Lib.Chunks
import Oaat.Cli.WavFile
import Oaat.Cli.FileStreaming
import Oaat.Cli.Hearing
import Oaat.Fec.InOrder
import Oaat.Cli.EndToEnd
import Oaat.Lib.Versions
import Oaat.Core.MessageJson
import Oaat.Control.Compatibility
import Oaat.Cli.NativeDsd
import Oaat.Negotiation.Discovery
import Oaat.Ffi.Stream
