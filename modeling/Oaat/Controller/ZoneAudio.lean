/-
Oaat.Controller.ZoneAudio — the audio sender of a zone
(`oaat-controller/src/zone.rs`: `enable_fec`, `disable_fec`, `send_audio_all`).

A zone's audio state is its running `u16` sequence and its optional FEC
encoder. `sendAudioAll` returns the packets it hands to every connected
endpoint: the data packet, and the parity packet when the encoder's group is
complete. All endpoints are sent the same datagrams, so one list stands for
the traffic towards any of them; what the network then does to it is the
business of the receivers' theorems. `datagram` is the byte string on the
wire.
-/
import Oaat.Core.Fec

namespace Oaat.Controller

open Oaat.Core Oaat.Lib

/-- The fields of `Zone` that the audio path reads and writes. -/
structure Zone where
  sequence : UInt16
  fecEncoder : Option FecEncoder
  deriving Repr, DecidableEq

/-- The arguments of one `send_audio_all` call. -/
structure AudioArgs where
  streamId : UInt32
  format : AudioFormat
  ptsNs : UInt64
  sampleOffset : UInt64
  payload : List UInt8
  flags : PacketFlags
  deriving Repr, DecidableEq

namespace Zone

def enableFec (z : Zone) (groupSize : GroupSize) : Zone :=
  { z with fecEncoder := some (FecEncoder.new groupSize) }

def disableFec (z : Zone) : Zone := { z with fecEncoder := none }

/-- `(fec_group_size, fec_index)` of the next data packet. -/
def fecFields (z : Zone) : UInt8 × UInt8 :=
  match z.fecEncoder with
  | some fec => (fec.groupSize.val, fec.nextIndex)
  | none => (0, 0)

/-- The data packet `send_audio_all` builds. -/
def dataPacket (z : Zone) (a : AudioArgs) : FecPacket :=
  ({ version := AudioPacketHeader.CURRENT_VERSION
     flags := a.flags
     format := a.format
     sequence := z.sequence
     streamId := a.streamId
     ptsNs := a.ptsNs
     sampleOffset := a.sampleOffset
     payloadLen := UInt16.ofNat a.payload.length
     fecGroupSize := z.fecFields.1
     fecIndex := z.fecFields.2
     fecLenXor := 0 }, a.payload)

/-- The parity packet that follows it when the group is complete; `sequence`
is the number after the data packet's. -/
def parityPacket (z : Zone) (a : AudioArgs) (sequence : UInt16) (parity : FecParity) : FecPacket :=
  ({ version := AudioPacketHeader.CURRENT_VERSION
     flags := PacketFlags.fec
     format := a.format
     sequence
     streamId := a.streamId
     ptsNs := a.ptsNs
     sampleOffset := a.sampleOffset
     payloadLen := UInt16.ofNat parity.payload.length
     fecGroupSize := z.fecFields.1
     fecIndex := 0
     fecLenXor := parity.lenXor }, parity.payload)

def sendAudioAll (z : Zone) (a : AudioArgs) : Zone × List FecPacket :=
  let data := z.dataPacket a
  let next := z.sequence + 1
  match z.fecEncoder with
  | none => ({ z with sequence := next }, [data])
  | some fec =>
    match fec.feed a.payload with
    | (fec, none) => ({ sequence := next, fecEncoder := some fec }, [data])
    | (fec, some parity) =>
      ({ sequence := next + 1, fecEncoder := some fec }, [data, z.parityPacket a next parity])

/-- A call emits its data packet, and at most a parity besides. -/
theorem declared_parityPacket (z : Zone) (a : AudioArgs) (s : UInt16) (par : FecParity) :
    (z.parityPacket a s par).1.flags.Declared := by
  simp only [parityPacket]
  decide

theorem of_mem_sendAudioAll {z : Zone} {a : AudioArgs} {p : FecPacket}
    (h : p ∈ (z.sendAudioAll a).2) :
    p = z.dataPacket a ∨ ∃ parity, p = z.parityPacket a (z.sequence + 1) parity := by
  unfold sendAudioAll at h
  dsimp only at h
  split at h
  · exact .inl (List.mem_singleton.mp h)
  · split at h
    · exact .inl (List.mem_singleton.mp h)
    · rcases List.mem_cons.mp h with h | h
      · exact .inl h
      · exact .inr ⟨_, List.mem_singleton.mp h⟩

/-- The calls an application makes on a zone's audio sender. -/
inductive Op where
  | enableFec (groupSize : GroupSize)
  | disableFec
  | sendAudioAll (a : AudioArgs)
  deriving Repr, DecidableEq

def step (z : Zone) : Op → Zone × List FecPacket
  | .enableFec n => (z.enableFec n, [])
  | .disableFec => (z.disableFec, [])
  | .sendAudioAll a => z.sendAudioAll a

/-- The zone after a run of calls, and every packet it emitted, in order. -/
def runOps (z : Zone) : List Op → Zone × List FecPacket
  | [] => (z, [])
  | op :: ops =>
    let (z', sent) := z.step op
    let (z'', rest) := z'.runOps ops
    (z'', sent ++ rest)

def emitted (z : Zone) (ops : List Op) : List FecPacket := (z.runOps ops).2

end Zone

/-- A packet as one UDP datagram. -/
def datagram (p : FecPacket) : List UInt8 := p.1.encode ++ p.2

end Oaat.Controller
