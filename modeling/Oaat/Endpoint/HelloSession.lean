/-
Oaat.Endpoint.HelloSession — the session record with its checked state
(`oaat-endpoint/src/session.rs`).

A call that is refused still returns the session: what it assigned before it
failed stays assigned. So a call gives its result and the session after it.
-/
import Oaat.Core.Message

namespace Oaat.Endpoint

open Oaat.Core

structure EndpointSession where
  state : SessionState
  endpointId : String
  endpointName : String
  controllerId : Option String
  streamId : Option String
  deriving Repr, DecidableEq

namespace EndpointSession

def new (endpointId endpointName : String) : EndpointSession :=
  { state := .discovery, endpointId, endpointName, controllerId := none, streamId := none }

def transition (s : EndpointSession) (next : SessionState) :
    Except OaatError Unit × EndpointSession :=
  match s.state.transition next with
  | .error e => (.error e, s)
  | .ok state => (.ok (), { s with state })

def handleHello (s : EndpointSession) (msg : Message) (capabilities : EndpointCapabilities)
    (audioPort clockPort : UInt16) (bufferMs : UInt32) :
    Except OaatError Message × EndpointSession :=
  match msg with
  | .hello hello =>
    if hello.protocolVersion ≠ PROTOCOL_VERSION then
      (.error (.versionMismatch PROTOCOL_VERSION hello.protocolVersion), s)
    else
      let s := { s with controllerId := some hello.controllerId }
      match s.transition .handshake with
      | (.error e, s) => (.error e, s)
      | (.ok (), s) =>
        let ack : Message := .helloAck
          { protocolVersion := PROTOCOL_VERSION, endpointId := s.endpointId,
            endpointName := s.endpointName, capabilities, audioPort, clockPort,
            bufferSizeMs := bufferMs, features := [FEATURE_ENDPOINT_RELEASE] }
        match s.transition .idle with
        | (.error e, s) => (.error e, s)
        | (.ok (), s) => (.ok ack, s)
  | _ => (.error (.invalidStateTransition s.state .handshake), s)

/-- A call of one of the two operations. -/
inductive SessionCall where
  | transition (next : SessionState)
  | handleHello (msg : Message) (capabilities : EndpointCapabilities)
      (audioPort clockPort : UInt16) (bufferMs : UInt32)

/-- A call as a step of a run that never ends: its result is the output. -/
def step (s : EndpointSession) :
    SessionCall → Except Empty (EndpointSession × List (Except OaatError Unit))
  | .transition next => .ok ((s.transition next).2, [(s.transition next).1])
  | .handleHello msg capabilities audioPort clockPort bufferMs =>
    let (result, s) := s.handleHello msg capabilities audioPort clockPort bufferMs
    .ok (s, [result.map fun _ => ()])

end EndpointSession

end Oaat.Endpoint
