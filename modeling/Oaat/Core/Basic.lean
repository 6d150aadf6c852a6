/-
Oaat.Core.Basic — the errors, session states and audio formats every other
module names (`oaat-core/src/error.rs`, `oaat-core/src/session.rs`,
`oaat-core/src/format.rs`, the constants of `oaat-core/src/lib.rs`).

`OaatError` keeps the constructors the modelled functions build. The two that
wrap a foreign error (`Io`, `Json`) carry its text.
-/
import Mathlib.Data.List.Basic

namespace Oaat.Core

inductive SessionState where
  | discovery | handshake | idle | negotiation | streaming | paused | stopped | disconnected
  deriving Repr, DecidableEq

inductive OaatError where
  | unknownFormat (id : UInt8)
  | invalidPacketFlags (bits : UInt8)
  | invalidClockSyncType (kind : UInt8)
  | invalidStateTransition (source target : SessionState)
  | invalidCapabilityString (text : List Char)
  | versionMismatch (expected got : UInt32)
  | messageTooLarge (len : Nat)
  | io (text : String)
  | json (text : String)
  | protocol (text : String)
  deriving Repr, DecidableEq

namespace SessionState

def canTransitionTo : SessionState → SessionState → Bool
  | discovery, handshake
  | handshake, idle | handshake, disconnected
  | idle, negotiation | idle, disconnected
  | negotiation, streaming | negotiation, idle | negotiation, disconnected
  | streaming, paused | streaming, stopped | streaming, disconnected
  | paused, streaming | paused, stopped | paused, disconnected
  | stopped, negotiation | stopped, idle | stopped, disconnected
  | disconnected, discovery => true
  | _, _ => false

def transition (s next : SessionState) : Except OaatError SessionState :=
  if s.canTransitionTo next then .ok next else .error (.invalidStateTransition s next)

end SessionState

def PROTOCOL_VERSION : UInt32 := 1

def MAX_AUDIO_PAYLOAD : Nat := 8192

inductive AudioFormat where
  | pcmS16le | pcmS24le | pcmS24le4 | pcmS32le | pcmF32le
  | dsdU8 | dsdU16le | dsdU32le
  | flac | opus | trueHd | eac3
  deriving Repr, DecidableEq

namespace AudioFormat

def wireId : AudioFormat → UInt8
  | pcmS16le => 0x01
  | pcmS24le => 0x02
  | pcmS24le4 => 0x03
  | pcmS32le => 0x04
  | pcmF32le => 0x05
  | dsdU8 => 0x10
  | dsdU16le => 0x11
  | dsdU32le => 0x12
  | flac => 0x20
  | opus => 0x21
  | trueHd => 0x30
  | eac3 => 0x31

def fromWireId (id : UInt8) : Option AudioFormat :=
  if id = 0x01 then some pcmS16le
  else if id = 0x02 then some pcmS24le
  else if id = 0x03 then some pcmS24le4
  else if id = 0x04 then some pcmS32le
  else if id = 0x05 then some pcmF32le
  else if id = 0x10 then some dsdU8
  else if id = 0x11 then some dsdU16le
  else if id = 0x12 then some dsdU32le
  else if id = 0x20 then some flac
  else if id = 0x21 then some opus
  else if id = 0x30 then some trueHd
  else if id = 0x31 then some eac3
  else none

def isPcm : AudioFormat → Bool
  | pcmS16le | pcmS24le | pcmS24le4 | pcmS32le | pcmF32le => true
  | _ => false

def isDsd : AudioFormat → Bool
  | dsdU8 | dsdU16le | dsdU32le => true
  | _ => false

/-- The `Display` text of a format. -/
def display : AudioFormat → String
  | pcmS16le => "PCM_S16LE"
  | pcmS24le => "PCM_S24LE"
  | pcmS24le4 => "PCM_S24LE4"
  | pcmS32le => "PCM_S32LE"
  | pcmF32le => "PCM_F32LE"
  | dsdU8 => "DSD_U8"
  | dsdU16le => "DSD_U16LE"
  | dsdU32le => "DSD_U32LE"
  | flac => "FLAC"
  | opus => "OPUS"
  | trueHd => "TRUEHD"
  | eac3 => "EAC3"

@[simp] theorem fromWireId_wireId (f : AudioFormat) : fromWireId f.wireId = some f := by
  cases f <;> rfl

end AudioFormat

inductive ChannelLayout where
  | mono | stereo | twoPointOne | quad | fivePointOne | sevenPointOne
  | fivePointOnePointTwo | fivePointOnePointFour
  | sevenPointOnePointTwo | sevenPointOnePointFour | sevenPointOnePointSix
  deriving Repr, DecidableEq

inductive SampleRateFamily where
  | f44100
  | f48000
  deriving Repr, DecidableEq

namespace SampleRateFamily

def rates : SampleRateFamily → List UInt32
  | f44100 => [44100, 88200, 176400, 352800, 705600]
  | f48000 => [48000, 96000, 192000, 384000, 768000]

def of (rate : UInt32) : Option SampleRateFamily :=
  if rate ∈ f44100.rates then some f44100
  else if rate ∈ f48000.rates then some f48000
  else none

end SampleRateFamily

end Oaat.Core
