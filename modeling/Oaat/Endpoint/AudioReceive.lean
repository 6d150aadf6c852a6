/-
Oaat.Endpoint.AudioReceive — the endpoint's audio path
(`oaat-endpoint/src/transport.rs`: `audio_receive_loop`).

One iteration of the loop per datagram. A datagram that is too short, that does
not decode or whose length is not the one its header announces is skipped;
any other is fed to the FEC receiver, and a packet with `LAST_PACKET` flushes it
afterwards. What an iteration returns is what it sends to the application as
`AudioPacket` events, in order. Of the loop's other effects the link statistics
published to the clock are kept and the log lines are not.

`audioReceive_datagram` is the way in for proofs: on a datagram as the sender
builds it an iteration is `feedAndFlush`.
-/
import Oaat.Core.FecTheorems
import Oaat.Controller.ZoneAudio

namespace Oaat.Endpoint

open Oaat.Core Oaat.Controller Oaat.Core.FecReceiver Oaat.Lib

/-- The locals of `audio_receive_loop`, and what it last passed to
`set_link_stats`: `(lost, recovered)`. -/
structure AudioLoop where
  fecRx : FecReceiver
  linkStats : Nat × Nat
  deriving Repr, DecidableEq

def AudioLoop.new : AudioLoop := { fecRx := .new, linkStats := (0, 0) }

/-- `fec_rx.feed`, followed by a flush when the packet ends the stream. -/
def feedAndFlush (b : Build) (fecRx : FecReceiver) (p : FecPacket) :
    Except Panic (FecReceiver × List FecPacket) := do
  let (fecRx, deliverable) ← fecRx.feed b p
  if p.1.flags.contains PacketFlags.lastPacket then
    let (fecRx, rest) ← fecRx.flush b
    return (fecRx, deliverable ++ rest)
  else return (fecRx, deliverable)

/-- One iteration of `audio_receive_loop`. A datagram longer than the buffer is
cut by `recv`. -/
def audioReceive (b : Build) (s : AudioLoop) (received : List UInt8) :
    Except Panic (AudioLoop × List FecPacket) :=
  let buf := received.take (AUDIO_HEADER_SIZE + MAX_AUDIO_PAYLOAD)
  if buf.length < AUDIO_HEADER_SIZE then .ok (s, [])
  else
    match AudioPacketHeader.decode (buf.take AUDIO_HEADER_SIZE) with
    | .error _ => .ok (s, [])
    | .ok header =>
      if buf.length - AUDIO_HEADER_SIZE ≠ header.payloadLen.toNat then .ok (s, [])
      else do
        let (fecRx, deliverable) ← feedAndFlush b s.fecRx (header, buf.drop AUDIO_HEADER_SIZE)
        return ({ fecRx, linkStats := (fecRx.lost, fecRx.recovered) }, deliverable)

section

variable {b : Build} {r r' r'' : FecReceiver} {p : FecPacket} {out rest : List FecPacket}

theorem feedAndFlush_last (hlast : p.1.flags.contains PacketFlags.lastPacket = true)
    (hfeed : r.feed b p = .ok (r', out)) (hflush : r'.flush b = .ok (r'', rest)) :
    feedAndFlush b r p = .ok (r'', out ++ rest) := by
  rw [feedAndFlush, bind_of_ok _ hfeed]
  simp only [hlast, if_true]
  rw [bind_of_ok _ hflush]
  rfl

theorem feedAndFlush_more (hlast : p.1.flags.contains PacketFlags.lastPacket = false)
    (hfeed : r.feed b p = .ok (r', out)) : feedAndFlush b r p = .ok (r', out) := by
  rw [feedAndFlush, bind_of_ok _ hfeed]
  simp only [hlast, Bool.false_eq_true, if_false]
  rfl

end

/-- A packet the sender can put in one datagram. -/
structure Sendable (p : FecPacket) : Prop where
  version : p.1.version = AudioPacketHeader.CURRENT_VERSION
  declared : p.1.flags.Declared
  fits : p.2.length ≤ MAX_AUDIO_PAYLOAD
  length : p.1.payloadLen = UInt16.ofNat p.2.length

/-- A datagram as the sender builds it reaches the FEC receiver unchanged. -/
theorem audioReceive_datagram {b : Build} {s : AudioLoop} {p : FecPacket} (hp : Sendable p) :
    audioReceive b s (datagram p) = feedAndFlush b s.fecRx p >>= fun x =>
      pure ({ fecRx := x.1, linkStats := (x.1.lost, x.1.recovered) }, x.2) := by
  have hhead : p.1.encode.length = AUDIO_HEADER_SIZE := AudioPacketHeader.length_encode p.1
  have hmax : p.2.length ≤ 8192 := hp.fits
  have hlen : (datagram p).length = AUDIO_HEADER_SIZE + p.2.length := by
    rw [datagram, List.length_append, hhead]
  have hbuf : (datagram p).take (AUDIO_HEADER_SIZE + MAX_AUDIO_PAYLOAD) = datagram p :=
    List.take_of_length_le (by rw [hlen]; exact Nat.add_le_add_left hp.fits _)
  have hpay : p.1.payloadLen.toNat = p.2.length := by
    rw [hp.length]
    simpa using Nat.mod_eq_of_lt (show p.2.length < 65536 by omega)
  have htake : (datagram p).take AUDIO_HEADER_SIZE = p.1.encode := by
    rw [datagram, ← hhead, List.take_left]
  have hdrop : (datagram p).drop AUDIO_HEADER_SIZE = p.2 := by
    rw [datagram, ← hhead, List.drop_left]
  simp only [audioReceive, hbuf, htake, hdrop, hlen,
    AudioPacketHeader.decode_encode _ hp.version hp.declared, hpay]
  rw [if_neg (by omega), if_neg (by omega)]

end Oaat.Endpoint
