/-
Oaat.Endpoint.Transport — the endpoint's accept loop and the life of a session
(`oaat-endpoint/src/transport.rs`: `EndpointTransport::run_with_clock` and
`EndpointSession::run`, with the arms of `Session`).

One connection is served at a time. A session waits for the controller's
`Hello`, then runs until a read ends it or an operator `?` does: a read error,
a frame that cannot be decoded, another protocol version, a write that fails.
The accept loop treats them alike and accepts the next connection. What outlives
a session is what the loop was given: the clock, the control channel and the
event channel.

A step is one read, one message off the control channel, the fail-open timer, or
one datagram on the clock socket, which is served while a session runs. Its
output is what it sends to the application and writes to the controller, in
order. A step that writes is told whether and where its writes fail. A
connection that fails to be accepted, or whose TLS handshake fails, leaves no
trace.
-/
import Oaat.Control.Reads
import Oaat.Endpoint.ClockSync
import Oaat.Endpoint.Session

namespace Oaat.Endpoint

open Oaat.Core Oaat.Lib

/-- What the transport tells the application, apart from audio packets. -/
inductive TransportEvent where
  | connected (controllerId controllerName : String)
  | control (e : EndpointEvent)
  | disconnected
  deriving Repr, DecidableEq

/-- What a step sends: to the application, or to the controller. -/
inductive Sent where
  | event (e : TransportEvent)
  | write (msg : Message)
  deriving Repr, DecidableEq

/-- What `run_with_clock` is configured with, and `serde_json`. -/
structure EndpointConfig where
  serde : SerdeJson
  endpointId : String
  endpointName : String
  capabilities : EndpointCapabilities
  audioPort : UInt16
  clockPort : UInt16
  bufferSizeMs : UInt32
  deferFormatAccept : Bool

def EndpointConfig.helloAck (cfg : EndpointConfig) : Message :=
  .helloAck
    { protocolVersion := PROTOCOL_VERSION, endpointId := cfg.endpointId,
      endpointName := cfg.endpointName, capabilities := cfg.capabilities,
      audioPort := cfg.audioPort, clockPort := cfg.clockPort, bufferSizeMs := cfg.bufferSizeMs,
      features := [FEATURE_ENDPOINT_RELEASE] }

def EndpointConfig.session (cfg : EndpointConfig) (hello : Hello) : SessionConfig :=
  { capabilities := cfg.capabilities, deferFormatAccept := cfg.deferFormatAccept, hello }

inductive Phase where
  /-- In `accept`. -/
  | listening
  /-- Waiting for `Hello`. -/
  | handshake (codec : FrameCodec)
  | running (hello : Hello) (codec : FrameCodec) (session : Session)
  deriving Repr, DecidableEq

def Phase.isRunning : Phase → Bool
  | .running .. => true
  | _ => false

structure Transport where
  phase : Phase
  clock : SharedClock

/-- What happens next. -/
inductive TransportInput where
  /-- A connection is accepted. -/
  | accept
  /-- A read returns; `.ok []` is the end of the stream. `fails` is the number of
  writes before the one that fails, if one does. -/
  | read (result : Except String (List UInt8)) (now : Nat) (fails : Option Nat)
  /-- The application's message comes off the control channel. -/
  | control (msg : Message) (fails : Bool)
  /-- The fail-open timer. -/
  | timer (now : Nat) (fails : Bool)
  /-- A datagram on the clock socket, with the readings of the clock. -/
  | datagram (bytes : List UInt8) (now later : UInt64)

namespace Transport

def new : Transport := { phase := .listening, clock := .new }

/-- The session is over, and the loop is back at `accept`. -/
def ended (t : Transport) : Transport := { t with phase := .listening }

/-! ## Reads -/

/-- A read while `Hello` is awaited, after at most one decoded message. -/
def greet (cfg : EndpointConfig) (t : Transport) (codec : FrameCodec) (fails : Option Nat) :
    Except OaatError (Option Message) → Transport × List Sent
  | .error _ => (t.ended, [])
  | .ok (some (.hello hello)) =>
    if hello.protocolVersion ≠ PROTOCOL_VERSION then (t.ended, [])
    else
      let connected := .event (.connected hello.controllerId hello.controllerName)
      if fails = some 0 then (t.ended, [connected])
      else ({ t with phase := .running hello codec .new }, [connected, .write cfg.helloAck])
  | .ok _ => ({ t with phase := .handshake codec }, [])

/-- What an arm sends and writes; it writes first. -/
def outputs (e : Effects) : List Sent :=
  e.writes.map .write ++ e.events.map fun event => .event (.control event)

/-- The messages of one read, up to the write that fails; `false` when one does. -/
def handleAll (cfg : SessionConfig) (now : Nat) :
    Session → Option Nat → List Message → Session × List Sent × Bool
  | s, _, [] => (s, [], true)
  | s, fails, msg :: rest =>
    let e := controllerMessage cfg s now msg
    if !e.writes.isEmpty && fails = some 0 then (s, [], false)
    else
      let left := if e.writes.isEmpty then fails else fails.map (· - 1)
      let (s, more, ok) := handleAll cfg now e.session left rest
      (s, outputs e ++ more, ok)

/-- The messages that a read completes, and the error that ends the loop. -/
def decoded (cfg : EndpointConfig) (codec : FrameCodec) (chunk : List UInt8) :
    List Message × Option OaatError × FrameCodec :=
  let codec := codec.feed chunk
  Control.decodeWhile cfg.serde (codec.buf.length + 1) codec

def read (cfg : EndpointConfig) (t : Transport) (result : Except String (List UInt8)) (now : Nat)
    (fails : Option Nat) : Option (Transport × List Sent) :=
  match t.phase, result with
  | .listening, _ => none
  | _, .error _ => some (t.ended, [])
  | _, .ok [] => some (t.ended, [.event .disconnected])
  | .handshake codec, .ok chunk =>
    let (message, codec) := (codec.feed chunk).decodeNext cfg.serde
    some (t.greet cfg codec fails message)
  | .running hello codec session, .ok chunk =>
    let (msgs, e, codec) := decoded cfg codec chunk
    let (session, out, ok) := handleAll (cfg.session hello) now session fails msgs
    if ok && e.isNone then some ({ t with phase := .running hello codec session }, out)
    else some (t.ended, out)

/-! ## The other arms -/

/-- The effects of an arm of the running session. -/
def arm (t : Transport) (hello : Hello) (codec : FrameCodec) (e : Effects) (fails : Bool) :
    Transport × List Sent :=
  if !e.writes.isEmpty && fails then (t.ended, [])
  else ({ t with phase := .running hello codec e.session }, outputs e)

def control (cfg : EndpointConfig) (t : Transport) (msg : Message) (fails : Bool) :
    Option (Transport × List Sent) :=
  match t.phase with
  | .running hello codec session =>
    some (t.arm hello codec (controlMessage (cfg.session hello) session msg) fails)
  | _ => none

def timer (t : Transport) (now : Nat) (fails : Bool) : Option (Transport × List Sent) :=
  match t.phase with
  | .running hello codec session =>
    (acceptTimeout session now).map fun e => t.arm hello codec e fails
  | _ => none

/-- The clock's answers go out on the clock socket, to whoever asked. -/
def datagram (t : Transport) (bytes : List UInt8) (now later : UInt64) :
    Option (Transport × List Sent) :=
  if t.phase.isRunning then
    some ({ t with clock := (clockSyncReceive t.clock bytes now later).1 }, [])
  else none

/-- The state after an input, if it can come. -/
def next (cfg : EndpointConfig) (t : Transport) : TransportInput → Option (Transport × List Sent)
  | .accept =>
    if t.phase = .listening then some ({ t with phase := .handshake .new }, []) else none
  | .read result now fails => t.read cfg result now fails
  | .control msg fails => t.control cfg msg fails
  | .timer now fails => t.timer now fails
  | .datagram bytes now later => t.datagram bytes now later

def step (cfg : EndpointConfig) (t : Transport) (i : TransportInput) :
    Except Unit (Transport × List Sent) :=
  match t.next cfg i with
  | some r => .ok r
  | none => .error ()

theorem step_eq_ok {cfg : EndpointConfig} {t t' : Transport} {i : TransportInput}
    {o : List Sent} (h : t.step cfg i = .ok (t', o)) : t.next cfg i = some (t', o) := by
  unfold step at h
  split at h
  next r hnext =>
    cases h
    exact hnext
  next => cases h

end Transport

end Oaat.Endpoint
