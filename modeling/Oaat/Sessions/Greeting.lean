/-
Oaat.Sessions.Greeting — what a refused `Hello` leaves behind.

`handle_hello` records the controller before it asks whether the state admits
the handshake. Only `Discovery` does, so a session that is past it refuses a
`Hello` and keeps its state, but takes over the controller's id. It is
harmless exactly when the id is the one the session has.
-/
import Oaat.Endpoint.HelloSession
import Oaat.Lib.Run

namespace Oaat.Sessions

open Oaat.Core Oaat.Lib Oaat.Endpoint Oaat.Endpoint.EndpointSession

/-- A refused `Hello` leaves the state, the controller and the stream; an
accepted one takes the session from `Discovery` to `Idle` with its controller. -/
def RefusalKeeps (s : EndpointSession) : SessionCall → Prop
  | .transition _ => True
  | .handleHello msg capabilities audioPort clockPort bufferMs =>
    match s.handleHello msg capabilities audioPort clockPort bufferMs with
    | (.error _, s') =>
      s'.state = s.state ∧ s'.controllerId = s.controllerId ∧ s'.streamId = s.streamId
    | (.ok _, s') =>
      s.state = .discovery ∧ s'.state = .idle ∧
        ∃ hello, msg = .hello hello ∧ s'.controllerId = some hello.controllerId

/-- A `Hello` in the right version comes to a session in `Discovery`, or from the
controller that the session has recorded. -/
def Expected (s : EndpointSession) : SessionCall → Prop
  | .handleHello (.hello hello) _ _ _ _ =>
    hello.protocolVersion = PROTOCOL_VERSION →
      s.state = .discovery ∨ s.controllerId = some hello.controllerId
  | _ => True

theorem canTransitionTo_handshake (s : SessionState) :
    s.canTransitionTo .handshake = true ↔ s = .discovery := by
  cases s <;> decide

section

variable {s : EndpointSession} {hello : Hello} (capabilities : EndpointCapabilities)
  (audioPort clockPort : UInt16) (bufferMs : UInt32)

theorem handleHello_version (hv : hello.protocolVersion ≠ PROTOCOL_VERSION) :
    s.handleHello (.hello hello) capabilities audioPort clockPort bufferMs =
      (.error (.versionMismatch PROTOCOL_VERSION hello.protocolVersion), s) := by
  simp [handleHello, hv]

/-- In `Discovery` both transitions are admitted. -/
theorem handleHello_discovery (hv : hello.protocolVersion = PROTOCOL_VERSION)
    (hs : s.state = .discovery) :
    ∃ ack, s.handleHello (.hello hello) capabilities audioPort clockPort bufferMs =
      (.ok ack, { s with state := .idle, controllerId := some hello.controllerId }) := by
  simp [handleHello, hv, EndpointSession.transition, SessionState.transition, hs,
    SessionState.canTransitionTo]

/-- Past it the first one is refused, and the controller is recorded already. -/
theorem handleHello_refused (hv : hello.protocolVersion = PROTOCOL_VERSION)
    (hs : s.state ≠ .discovery) :
    s.handleHello (.hello hello) capabilities audioPort clockPort bufferMs =
      (.error (.invalidStateTransition s.state .handshake),
        { s with controllerId := some hello.controllerId }) := by
  have hno : ¬ s.state.canTransitionTo .handshake = true := by
    rwa [canTransitionTo_handshake]
  simp [handleHello, hv, EndpointSession.transition, SessionState.transition, hno]

end

/-- One call, in any session. -/
theorem refusalKeeps_iff (s : EndpointSession) (call : SessionCall) :
    RefusalKeeps s call ↔ Expected s call := by
  cases call with
  | transition next => exact Iff.rfl
  | handleHello msg capabilities audioPort clockPort bufferMs =>
    cases msg with
    | hello hello =>
      simp only [RefusalKeeps, Expected]
      by_cases hv : hello.protocolVersion = PROTOCOL_VERSION
      · by_cases hs : s.state = .discovery
        · obtain ⟨ack, hack⟩ :=
            handleHello_discovery capabilities audioPort clockPort bufferMs hv hs
          simp [hack, hs]
        · simp [handleHello_refused capabilities audioPort clockPort bufferMs hv hs, hv, hs,
            eq_comm]
      · simp [handleHello_version capabilities audioPort clockPort bufferMs hv, hv]
    | _ => simp [RefusalKeeps, Expected, handleHello]

/-- **A refused `Hello` changes nothing in exactly the runs in which every `Hello`
of the right version comes to a session in `Discovery` or from the controller
that the session has.** -/
theorem refusals_keep_iff (endpointId endpointName : String) (calls : List SessionCall) :
    Along step RefusalKeeps (new endpointId endpointName) calls ↔
      Along step Expected (new endpointId endpointName) calls := by
  have hsame : RefusalKeeps = Expected :=
    funext₂ fun s call => propext (refusalKeeps_iff s call)
  rw [hsame]

/-! ## A second `Hello` -/

/-- The `Hello` of a controller, handed to the session. -/
def helloFrom (controllerId : String) : SessionCall :=
  .handleHello
    (.hello { protocolVersion := 1, controllerId, controllerName := "", clockPort := 0,
              features := [] })
    { pcmMaxRate := 192000, pcmMaxBits := 24, dsdMaxRate := none, channelsMax := 2, formats := [],
      volume := none, gapless := false, seek := false }
    9740 9741 500

/-- The `Hello` of a second controller is refused by a session that is `Idle`,
and replaces the recorded controller. -/
theorem second_hello_replaces_controller :
    ∃ s log t,
      run step (new "endpoint" "Endpoint") [helloFrom "first"] = .ok (s, log) ∧
        s.state = .idle ∧ s.controllerId = some "first" ∧
        step s (helloFrom "second") =
          .ok (t, [.error (.invalidStateTransition .idle .handshake)]) ∧
        t.controllerId = some "second" ∧
        ¬ Along step RefusalKeeps (new "endpoint" "Endpoint")
          [helloFrom "first", helloFrom "second"] := by
  refine ⟨_, _, _, rfl, rfl, rfl, rfl, rfl, ?_⟩
  rintro ⟨-, hrest⟩
  obtain ⟨hsecond, -⟩ := hrest _ _ rfl
  have hexpected := (refusalKeeps_iff _ _).mp hsecond rfl
  exact absurd hexpected (by decide)

end Oaat.Sessions
