/-
Oaat.Endpoint.StatusJson — the body of `GET /api/status`
(`oaat-endpoint/src/web_ui.rs`: `BridgeStatus`, `json_str`,
`render_status_json`).

A text is the list of its characters. The format string is written member by
member.
-/
import Oaat.Lib.Text

namespace Oaat.WebUi

/-- Shared state exposed to the web UI. -/
structure BridgeStatus where
  bridgeName : String
  version : String
  currentDevice : String
  availableDevices : List String
  connected : Bool
  controllerName : Option String
  streamFormat : Option String
  streamSampleRate : Option UInt32
  streamBits : Option UInt8
  streamChannels : Option UInt8
  trackTitle : Option String
  trackArtist : Option String
  trackAlbum : Option String
  artworkUrl : Option String
  volume : UInt8
  playing : Bool
  deriving Repr, DecidableEq

/-- `BridgeStatus::default()`, in the package version `version`. -/
def BridgeStatus.default (version : String) : BridgeStatus :=
  { bridgeName := "Tune Bridge", version, currentDevice := "", availableDevices := [],
    connected := false, controllerName := none, streamFormat := none, streamSampleRate := none,
    streamBits := none, streamChannels := none, trackTitle := none, trackArtist := none,
    trackAlbum := none, artworkUrl := none, volume := 100, playing := false }

/-- `replace('"', "\\\"")` -/
def replaceQuotes (s : List Char) : List Char :=
  s.flatMap fun c => if c = '"' then ['\\', '"'] else [c]

/-- A text between quotation marks. -/
def quoted (s : List Char) : List Char := '"' :: (s ++ ['"'])

def jsonStr : Option String → List Char
  | some v => quoted (replaceQuotes v.toList)
  | none => ['n', 'u', 'l', 'l']

def displayBool : Bool → List Char
  | true => ['t', 'r', 'u', 'e']
  | false => ['f', 'a', 'l', 's', 'e']

/-- One member of the format string, with its text in place. -/
def member (name : String) (text : List Char) : List Char := quoted name.toList ++ ':' :: text

/-- The members of the format string. -/
def statusMembers (status : BridgeStatus) : List (String × List Char) :=
  let devicesJson := status.availableDevices.map fun d => quoted (replaceQuotes d.toList)
  [ ("bridge_name", quoted (replaceQuotes status.bridgeName.toList)),
    ("version", quoted status.version.toList),
    ("current_device", quoted (replaceQuotes status.currentDevice.toList)),
    ("available_devices", '[' :: ([','].intercalate devicesJson ++ [']'])),
    ("connected", displayBool status.connected),
    ("controller_name", jsonStr status.controllerName),
    ("playing", displayBool status.playing),
    ("volume", Nat.toDigits 10 status.volume.toNat),
    ("track_title", jsonStr status.trackTitle),
    ("track_artist", jsonStr status.trackArtist),
    ("track_album", jsonStr status.trackAlbum),
    ("artwork_url", jsonStr status.artworkUrl),
    ("stream_format", jsonStr status.streamFormat),
    ("stream_sample_rate", Nat.toDigits 10 (status.streamSampleRate.getD 0).toNat),
    ("stream_bits", Nat.toDigits 10 (status.streamBits.getD 0).toNat),
    ("stream_channels", Nat.toDigits 10 (status.streamChannels.getD 0).toNat) ]

def renderStatusJson (status : BridgeStatus) : List Char :=
  '{' :: ([','].intercalate ((statusMembers status).map fun m => member m.1 m.2) ++ ['}'])

end Oaat.WebUi
