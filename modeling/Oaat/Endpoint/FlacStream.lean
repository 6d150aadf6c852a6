/-
Oaat.Endpoint.FlacStream — the FLAC decoder on a codec with a state of its own
(`oaat-endpoint/src/flac_decoder.rs`: `FlacStreamDecoder`).

`Oaat.Endpoint.FlacDecoder` reads the codec as a function of the packet. Here
`decode` also changes the decoder it is called on, as `&mut self` lets it, so
that the same packet may be refused once and accepted later. The loop of
`drain_frames` is one pass (`drainPass`) under `Lib.loop`, which tells a loop
that has stopped from one that has run out of fuel.
-/
import Oaat.Endpoint.FlacDecoder
import Oaat.Lib.Loop

namespace Oaat.Endpoint

open Oaat.Lib

/-- What is asked of symphonia: a decoder for a STREAMINFO block, and the samples
of a packet with the decoder after it. -/
structure CodecRegistry (σ : Type) where
  make : List UInt8 → Except String σ
  decode : σ → List UInt8 → Except String (List UInt32) × σ

/-- `FlacStreamDecoder` -/
structure FlacStream (σ : Type) where
  buf : List UInt8
  initialized : Bool
  decoder : Option σ
  deriving Repr, DecidableEq

/-- What the loop of `drain_frames` works on: `unread` is the buffer from `pos`
on. -/
structure DrainState (σ : Type) where
  decoder : σ
  unread : List UInt8
  samples : List UInt32
  deriving Repr, DecidableEq

variable {σ : Type}

/-- One pass of the loop of `drain_frames`. -/
def drainPass (codec : CodecRegistry σ) (s : DrainState σ) : Pass (DrainState σ) (DrainState σ) :=
  if s.unread = [] then .stop s
  else
    match resync s.unread with
    | none => .stop { s with unread := [] }
    | some buf =>
      match frameHeader buf with
      | .valid headerLen =>
        match frameEnd buf headerLen with
        | some fin =>
          let (decoded, decoder) := codec.decode s.decoder (buf.take fin)
          match decoded with
          | .ok samples =>
            .again { decoder, unread := buf.drop fin, samples := s.samples ++ samples }
          | .error _ =>
            if fin = buf.length then .stop { s with decoder, unread := buf }
            else .again { s with decoder, unread := buf.drop fin }
        | none =>
          if buf.length > MAX_FRAME_BYTES then .again { s with unread := buf.drop 1 }
          else .stop { s with unread := buf }
      | _ => .stop { s with unread := buf }

namespace FlacStream

def new : FlacStream σ := { buf := [], initialized := false, decoder := none }

def tryInit (codec : CodecRegistry σ) (d : FlacStream σ) (headerLen : Nat) :
    Except String (FlacStream σ) :=
  match streamInfo (d.buf.take headerLen) with
  | none => .error "no STREAMINFO block"
  | some info =>
    match codec.make info with
    | .error e => .error s!"FLAC decoder init: {e}"
    | .ok decoder => .ok { d with decoder := some decoder }

/-- A pass takes at least a byte, so the buffer's length is enough fuel. -/
def drainFrames (codec : CodecRegistry σ) (d : FlacStream σ) :
    Except OutOfFuel (FlacStream σ × List UInt32) :=
  match d.decoder with
  | none => .ok (d, [])
  | some decoder =>
    (loop (drainPass codec) (d.buf.length + 1) { decoder, unread := d.buf, samples := [] }).map
      fun s => ({ d with buf := s.unread, decoder := some s.decoder }, s.samples)

/-- The stream header of a decoder that has none yet: the decoder after it, and
whether the frames behind it are looked at. -/
def acceptHeader (codec : CodecRegistry σ) (d : FlacStream σ) : FlacStream σ × Bool :=
  if d.initialized then (d, true)
  else if d.buf.length < 4 then (d, false)
  else if d.buf.take 4 ≠ FlacStreamDecoder.MARKER then ({ d with buf := [] }, false)
  else
    match streamHeaderLen d.buf with
    | none => (d, false)
    | some headerLen =>
      match d.tryInit codec headerLen with
      | .error _ => ({ d with buf := [] }, false)
      | .ok d => ({ d with buf := d.buf.drop headerLen, initialized := true }, true)

def feed (codec : CodecRegistry σ) (d : FlacStream σ) (data : List UInt8) :
    Except OutOfFuel (FlacStream σ × List UInt32) :=
  match acceptHeader codec { d with buf := d.buf ++ data } with
  | (d, true) => d.drainFrames codec
  | (d, false) => .ok (d, [])

end FlacStream

/-! ## A codec that is a function of the packet -/

/-- Its decoder is the STREAMINFO block that it was made for. -/
def Codec.registry (codec : Codec) : CodecRegistry (List UInt8) where
  make info := (codec.make info).map fun _ => info
  decode info packet := (codec.decode info packet, info)

/-- The same decoder, on such a codec. -/
def FlacStreamDecoder.stream (d : FlacStreamDecoder) : FlacStream (List UInt8) :=
  { buf := d.buf, initialized := d.initialized, decoder := d.decoder }

end Oaat.Endpoint
