/-
Oaat.Endpoint.DeviceResolution — the device that the cpal output opens
(`oaat-endpoint/src/audio_output.rs`: `resolve_device`,
`configure_with_device`, `configure`, `flush`).

`CpalOutput` is given the device; here it is found, by the requested name, with
the cache in front. A device is a handle of any type. What the host answers may
differ from call to call. `to_lowercase` is a parameter: no result depends on
what it does.
-/
import Oaat.Endpoint.AudioOutput
import Mathlib.Data.List.Infix

namespace Oaat.Endpoint

open Oaat.Core Oaat.Lib

/-- `cpal::default_host()`, with what it answers about its devices. -/
structure AudioHost (Device : Type) where
  outputDevices : Except String (List Device)
  defaultOutputDevice : Option Device
  name : Device → Option String
  /-- The sample types among `supported_output_configs`. -/
  support : Device → DeviceSampleSupport
  buildOutputStream : Device → Except String Unit

/-- The output with its device cache, keyed by the requested name. -/
structure CpalDeviceOutput (Device : Type) where
  output : CpalOutput
  cachedDevice : Option (Option String × Device × DeviceSampleSupport)
  /-- The device that the open stream was built on. -/
  streamDevice : Option Device

namespace CpalDeviceOutput

variable {Device : Type}

def new : CpalDeviceOutput Device :=
  { output := .new, cachedDevice := none, streamDevice := none }

/-- The name of a device contains the requested one, in lower case. -/
def matchesName (lower : String → String) (host : AudioHost Device) (requested : String)
    (d : Device) : Bool :=
  match host.name d with
  | some name => (lower requested).toList <:+: (lower name).toList
  | none => false

def defaultDevice (host : AudioHost Device) : Except String Device :=
  match host.defaultOutputDevice with
  | some d => .ok d
  | none => .error "no audio output device found"

/-- The device for a requested name; the default one if there is none. -/
def findDevice (lower : String → String) (host : AudioHost Device) (requested : Option String) :
    Except String Device :=
  match requested with
  | none => defaultDevice host
  | some name =>
    match host.outputDevices with
    | .error e => .error e
    | .ok devices =>
      match devices.find? (matchesName lower host name) with
      | some d => .ok d
      | none => defaultDevice host

/-- `resolve_device` -/
def resolveDevice (lower : String → String) (host : AudioHost Device) (requested : Option String)
    (s : CpalDeviceOutput Device) :
    CpalDeviceOutput Device × Except String (Device × DeviceSampleSupport) :=
  match s.cachedDevice.filter fun cached => cached.1 = requested with
  | some (_, d, support) => (s, .ok (d, support))
  | none =>
    match findDevice lower host requested with
    | .error e => (s, .error e)
    | .ok d =>
      ({ s with cachedDevice := some (requested, d, host.support d) }, .ok (d, host.support d))

/-- `configure_with_device` -/
def configureWithDevice (lower : String → String) (host : AudioHost Device)
    (s : CpalDeviceOutput Device) (format : AudioFormat) (sampleRate : UInt32) (channels : UInt8)
    (requested : Option String) : CpalDeviceOutput Device × Except String Unit :=
  match s.resolveDevice lower host requested with
  | (s, .error e) =>
    let (output, r) := s.output.configure format sampleRate channels
      { device := .error e, build := .error e }
    ({ s with output, streamDevice := none }, r)
  | (s, .ok (d, support)) =>
    let (output, r) := s.output.configure format sampleRate channels
      { device := .ok ((host.name d).getD "", support), build := host.buildOutputStream d }
    ({ s with output, streamDevice := if output.deviceOpen then some d else none }, r)

/-- `configure` -/
def configure (lower : String → String) (host : AudioHost Device) (s : CpalDeviceOutput Device)
    (format : AudioFormat) (sampleRate : UInt32) (channels : UInt8) :
    CpalDeviceOutput Device × Except String Unit :=
  s.configureWithDevice lower host format sampleRate channels none

/-- `flush`, and the result of `configure` that it ignores. -/
def flush (lower : String → String) (host : AudioHost Device) (s : CpalDeviceOutput Device) :
    CpalDeviceOutput Device × Except String Unit :=
  let format := s.output.format
  let sampleRate := s.output.sampleRate
  let channels := s.output.channels
  let s := { s with output := s.output.stop, streamDevice := none }
  let (s, r) := s.configure lower host format sampleRate channels
  ({ s with output := s.output.play }, r)

end CpalDeviceOutput

end Oaat.Endpoint
