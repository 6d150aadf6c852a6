/-
Oaat.Cli.Startup — what the endpoint announces
(`oaat-cli/src/main.rs`: `run` and `run_endpoint` before its loop;
`oaat-cli/src/config.rs`: `CapabilitiesSection`).

The device that is played on is chosen first, then it is probed for native DSD,
and the capabilities of the session and those of the mDNS record are built from
one section of the configuration and the result of the probe.
-/
import Oaat.Controller.Discovery
import Oaat.Core.Message
import Oaat.Endpoint.DsdProbe
import Oaat.Endpoint.Output

namespace Oaat.Cli

open Oaat.Core Oaat.Endpoint
open Oaat.Controller (EndpointAnnouncement)

/-- `[capabilities]` -/
structure CapabilitiesSection where
  pcmMaxRate : UInt32
  pcmMaxBits : UInt8
  channelsMax : UInt8
  dsd : Bool
  flac : Bool
  deriving Repr, DecidableEq

def CapabilitiesSection.default : CapabilitiesSection :=
  { pcmMaxRate := 192000, pcmMaxBits := 24, channelsMax := 2, dsd := false, flac := true }

/-- Audio device: CLI > config > the DAC detected. -/
def epAudioDevice (cli config detected : Option (List Char)) : Option (List Char) :=
  (cli.or config).or detected

/-- The highest native DSD rate announced. -/
def dsdMax (output : Output) (enableDsd : Bool) (audioDevice : Option (List Char))
    (probe : DsdProbe) : Option UInt16 :=
  if enableDsd then
    match output with
    | .alsa _ => announcedDsdMax audioDevice probe
    | .cpal _ => some 64
  else none

def announcedFormats (capsConfig : CapabilitiesSection) (dsdMax : Option UInt16) :
    List AudioFormat :=
  [.pcmS16le, .pcmS24le, .pcmS32le] ++ (if capsConfig.flac then [.flac] else []) ++
    if dsdMax.isSome then [.dsdU8, .dsdU16le, .dsdU32le] else []

/-- What the session announces. -/
def capabilities (capsConfig : CapabilitiesSection) (dsdMax : Option UInt16) :
    EndpointCapabilities :=
  { pcmMaxRate := capsConfig.pcmMaxRate
    pcmMaxBits := capsConfig.pcmMaxBits
    dsdMaxRate := dsdMax
    channelsMax := capsConfig.channelsMax
    formats := announcedFormats capsConfig dsdMax
    volume := none
    gapless := true
    seek := true }

/-- What the mDNS record announces. -/
def mdnsCaps (capsConfig : CapabilitiesSection) (dsdMax : Option UInt16) : Capabilities :=
  { pcmMaxRateKhz := capsConfig.pcmMaxRate / 1000
    pcmMaxBits := capsConfig.pcmMaxBits
    dsdMaxMultiplier := dsdMax
    flac := capsConfig.flac
    opus := false
    truehd := false
    eac3 := false }

/-- The mDNS record. -/
def announcement (name endpointId firmware : List Char) (port : UInt16) (hardwareVolume : Bool)
    (capsConfig : CapabilitiesSection) (dsdMax : Option UInt16) : EndpointAnnouncement :=
  { instanceName := name
    port
    endpointId
    capabilities := mdnsCaps capsConfig dsdMax
    channelsMax := capsConfig.channelsMax
    volumeType := some (if hardwareVolume then "hw" else "sw").toList
    model := none
    vendor := some "MozAIk Labs".toList
    firmware := some firmware }

/-! ## The formats announced -/

/-- Native DSD is announced with a maximum, or not at all. -/
theorem mem_announcedFormats_dsd {capsConfig : CapabilitiesSection} {dsdMax : Option UInt16}
    {format : AudioFormat} (hdsd : format.isDsd = true) :
    format ∈ announcedFormats capsConfig dsdMax ↔ dsdMax.isSome = true := by
  cases hf : capsConfig.flac <;> cases hm : dsdMax.isSome <;>
    cases format <;> simp_all [announcedFormats, AudioFormat.isDsd]

end Oaat.Cli
