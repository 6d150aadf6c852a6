/-
Oaat.Controller.Reader — the task that reads an endpoint's messages, and the
task that forwards its releases to the zone
(`oaat-controller/src/transport.rs`: the reader task of `handshake_and_spawn`
and `is_reader_alive`; `oaat-controller/src/zone.rs`: `spawn_release_forward`).

The endpoint's messages arrive one by one, and then its end of the connection
is closed. The reader decodes them in order (whatever the reads were,
`Control.Reads`): a response goes into a channel of 32 with a send that waits, a
release into a channel of 4 with one that does not, and anything else is
ignored. The forwarder takes releases off the second channel and sends them, with
a send that waits, into the zone's own channel of 16, which the application
drains.

A `ConnectedEndpoint` inside a zone is private to it, and no operation of a zone
receives from `response_rx`: there is no action that takes a response.
-/
import Oaat.Core.Message
import Oaat.Lib.Channel
import Oaat.Lib.Run

namespace Oaat.Controller

open Oaat.Core Oaat.Lib

/-- A control-plane response received from the endpoint. -/
inductive EndpointResponse where
  | formatAccept (streamId : String)
  | formatCounter (fc : FormatCounter)
  | formatReject (fr : FormatReject)
  | nextTrackReady (streamId : String)
  | nextTrackReformat (streamId : String) (format : AudioFormat) (sampleRate : UInt32)
  | streamStats (ss : StreamStats)
  deriving Repr, DecidableEq

/-- The messages that the reader forwards as responses. -/
def responseOf : Message → Option EndpointResponse
  | .formatAccept streamId => some (.formatAccept streamId)
  | .formatCounter fc => some (.formatCounter fc)
  | .formatReject fr => some (.formatReject fr)
  | .nextTrackReady streamId => some (.nextTrackReady streamId)
  | .nextTrackReformat streamId format sampleRate =>
    some (.nextTrackReformat streamId format sampleRate)
  | .streamStats ss => some (.streamStats ss)
  | _ => none

structure ZoneEndpointRelease where
  endpointId : String
  release : EndpointRelease
  deriving Repr, DecidableEq

/-- Where the reader is. -/
inductive ReaderPc where
  | reading
  /-- In `response_tx.send(..).await`. -/
  | sending (response : EndpointResponse)
  | finished
  deriving Repr, DecidableEq

/-- Where the forwarder is. -/
inductive ForwardPc where
  | receiving
  /-- In `zone_tx.send(..).await`. -/
  | sending (release : ZoneEndpointRelease)
  | finished
  deriving Repr, DecidableEq

structure Link where
  endpointId : String
  /-- What the endpoint has yet to send, before it closes the connection. -/
  script : List Message
  closed : Bool
  wire : List Message
  reader : ReaderPc
  responses : Channel EndpointResponse 32
  releases : Channel EndpointRelease 4
  forward : ForwardPc
  zone : Channel ZoneEndpointRelease 16
  /-- What the application has taken off the zone's channel. -/
  drained : List ZoneEndpointRelease
  deriving DecidableEq

inductive LinkAction where
  /-- The endpoint sends its next message, or closes. -/
  | endpoint
  | reader
  | forward
  | drain
  deriving Repr, DecidableEq

namespace Link

def start (endpointId : String) (script : List Message) : Link :=
  { endpointId, script, closed := false, wire := [], reader := .reading, responses := .empty,
    releases := .empty, forward := .receiving, zone := .empty, drained := [] }

def isReaderAlive (s : Link) : Bool := s.reader ≠ .finished

def endpointStep (s : Link) : Option Link :=
  match s.script with
  | msg :: script => some { s with script, wire := s.wire ++ [msg] }
  | [] => if s.closed then none else some { s with closed := true }

/-- A decoded message. -/
def handle (s : Link) (msg : Message) : Link :=
  match msg with
  -- never block the reader on it
  | .endpointRelease er => { s with releases := s.releases.trySend er }
  | _ =>
    match responseOf msg with
    | some response =>
      match s.responses.send response with
      | some responses => { s with responses }
      | none => { s with reader := .sending response }
    | none => s

def readerStep (s : Link) : Option Link :=
  match s.reader with
  | .reading =>
    match s.wire with
    | msg :: wire => some ({ s with wire }.handle msg)
    | [] => if s.closed then some { s with reader := .finished } else none
  | .sending response =>
    (s.responses.send response).map fun responses => { s with responses, reader := .reading }
  | .finished => none

def forwardStep (s : Link) : Option Link :=
  match s.forward with
  | .receiving =>
    match s.releases.recv with
    | some (release, releases) =>
      some { s with releases, forward := .sending { endpointId := s.endpointId, release } }
    -- the channel is closed when the reader, which holds its sender, has finished
    | none => if s.isReaderAlive then none else some { s with forward := .finished }
  | .sending release =>
    (s.zone.send release).map fun zone => { s with zone, forward := .receiving }
  | .finished => none

def drainStep (s : Link) : Option Link :=
  s.zone.recv.map fun (release, zone) => { s with zone, drained := s.drained ++ [release] }

/-- The state after an action, if it is enabled. -/
def next (s : Link) : LinkAction → Option Link
  | .endpoint => s.endpointStep
  | .reader => s.readerStep
  | .forward => s.forwardStep
  | .drain => s.drainStep

/-- An action that is not enabled is an error. -/
def step (s : Link) (a : LinkAction) : Except Unit (Link × List Unit) :=
  match s.next a with
  | some s' => .ok (s', [])
  | none => .error ()

theorem step_eq_ok {s s' : Link} {a : LinkAction} {o : List Unit}
    (hstep : s.step a = .ok (s', o)) : s.next a = some s' := by
  unfold step at hstep
  split at hstep
  next hnext =>
    cases hstep
    exact hnext
  next => cases hstep

theorem step_eq_error {s : Link} {a : LinkAction} (hstep : s.step a = .error ()) :
    s.next a = none := by
  unfold step at hstep
  split at hstep
  next => cases hstep
  next hnext => exact hnext

end Link

end Oaat.Controller
