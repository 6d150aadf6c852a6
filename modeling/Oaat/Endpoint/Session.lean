/-
Oaat.Endpoint.Session — the control loop of a session with a controller
(`oaat-endpoint/src/transport.rs`: `EndpointSession::run` after the handshake).

The loop selects among three sources: the fail-open timer (`acceptTimeout`),
the application's control channel (`controlMessage`) and the controller's
messages (`controllerMessage`). An arm is a function of the session's local
variables; its effects are the messages it writes on the control connection
and the events it sends to the application, each in order.

Instants are nanoseconds of the runtime's monotonic clock.
-/
import Oaat.Endpoint.Negotiate

namespace Oaat.Endpoint

open Oaat.Core

inductive PlaybackCommand where
  | play (streamId : String)
  | pause (streamId : String)
  | stop (streamId : String)
  | seek (streamId : String) (positionMs : UInt64)
  deriving Repr, DecidableEq

inductive VolumeCommand where
  | set (level : UInt8)
  | get
  | mute (muted : Bool)
  deriving Repr, DecidableEq

/-- The events that the control loop sends; the audio loop's `AudioPacket` is
`AudioReceive`'s. -/
inductive EndpointEvent where
  | formatProposed (fp : FormatPropose)
  | formatAccepted (streamId : String)
  | formatRejected (streamId reason : String)
  | playback (command : PlaybackCommand)
  | metadata (track : TrackMetadata)
  | volume (command : VolumeCommand)
  | nextTrackReady (streamId : String)
  | nextTrackReformat (streamId : String) (format : AudioFormat) (sampleRate : UInt32)
  | zoneAssigned (zoneId : String)
  | zoneUpdated (zoneId : String) (endpointIds : List String)
  | zoneReleased (zoneId : String)
  deriving Repr, DecidableEq

/-- What the session is given and keeps: the announced capabilities, the
application's choice, and the controller's `Hello`. -/
structure SessionConfig where
  capabilities : EndpointCapabilities
  deferFormatAccept : Bool
  hello : Hello

/-- An older controller would not know the message. -/
def SessionConfig.controllerHandlesRelease (cfg : SessionConfig) : Bool :=
  cfg.hello.features.any fun f => f = FEATURE_ENDPOINT_RELEASE

/-- A withheld `FormatAccept`: its stream id, the automatic response, and the
fail-open deadline. -/
structure PendingAccept where
  streamId : String
  auto : Message
  deadline : Nat
  deriving Repr, DecidableEq

/-- The loop's local variables. -/
structure Session where
  currentFormat : Option AudioFormat
  currentSampleRate : Option UInt32
  pendingAccept : Option PendingAccept
  deriving Repr, DecidableEq

def Session.new : Session :=
  { currentFormat := none, currentSampleRate := none, pendingAccept := none }

/-- What an arm leaves behind. -/
structure Effects where
  session : Session
  writes : List Message := []
  events : List EndpointEvent := []

/-- `Duration::from_secs(5)` -/
def FAIL_OPEN_NS : Nat := 5000000000

/-! ## The controller's messages -/

/-- The accept is withheld until the application reports the device ready. -/
def deferred (cfg : SessionConfig) (fp : FormatPropose) : Bool :=
  cfg.deferFormatAccept && isFormatAccept (negotiateFormat cfg.capabilities fp)

/-- The `FormatPropose` arm. `now` is read when the deadline is set. -/
def formatPropose (cfg : SessionConfig) (s : Session) (fp : FormatPropose) (now : Nat) :
    Effects :=
  let response := negotiateFormat cfg.capabilities fp
  let s :=
    match response with
    | .formatAccept _ =>
      { s with currentFormat := some fp.format, currentSampleRate := some fp.sampleRate }
    | _ => s
  let verdict :=
    match response with
    | .formatAccept _ => [.formatAccepted fp.streamId]
    | .formatReject r => [.formatRejected fp.streamId r.reason]
    | _ => []
  { session :=
      if deferred cfg fp then
        { s with
          pendingAccept :=
            some { streamId := fp.streamId, auto := response, deadline := now + FAIL_OPEN_NS } }
      else s
    writes := if deferred cfg fp then [] else [response]
    events := verdict ++ [.formatProposed fp] }

/-- The `NextTrackPrepare` arm. -/
def nextTrackPrepare (s : Session) (ntp : NextTrackPrepare) : Effects :=
  if s.currentFormat = some ntp.format && s.currentSampleRate = some ntp.sampleRate then
    { session := s
      writes := [.nextTrackReady ntp.streamId]
      events := [.nextTrackReady ntp.streamId] }
  else
    { session :=
        { s with currentFormat := some ntp.format, currentSampleRate := some ntp.sampleRate }
      writes := [.nextTrackReformat ntp.streamId ntp.format ntp.sampleRate]
      events := [.nextTrackReformat ntp.streamId ntp.format ntp.sampleRate] }

/-- A decoded message of the controller. -/
def controllerMessage (cfg : SessionConfig) (s : Session) (now : Nat) : Message → Effects
  | .formatPropose fp => formatPropose cfg s fp now
  | .nextTrackPrepare ntp => nextTrackPrepare s ntp
  | .play streamId => { session := s, events := [.playback (.play streamId)] }
  | .pause streamId => { session := s, events := [.playback (.pause streamId)] }
  | .stop streamId => { session := s, events := [.playback (.stop streamId)] }
  | .seek streamId positionMs =>
    { session := s, events := [.playback (.seek streamId positionMs)] }
  | .metadata track => { session := s, events := [.metadata track] }
  | .volumeSet level => { session := s, events := [.volume (.set level)] }
  | .volumeGet => { session := s, events := [.volume .get] }
  | .mute muted => { session := s, events := [.volume (.mute muted)] }
  | .zoneAssign zoneId endpointId =>
    { session := s
      writes := [.zoneAck { zoneId, endpointId, accepted := true, reason := none }]
      events := [.zoneAssigned zoneId] }
  | .zoneUpdate zoneId endpointIds =>
    { session := s, events := [.zoneUpdated zoneId endpointIds] }
  | .zoneRelease zoneId _ => { session := s, events := [.zoneReleased zoneId] }
  -- unhandled message
  | _ => { session := s }

/-! ## The application's messages and the timer -/

/-- The message is the application's confirmation for the pending accept. -/
def resolvesPending (s : Session) (msg : Message) : Bool :=
  match s.pendingAccept, msg with
  | some pending, .formatAccept streamId => streamId = pending.streamId
  | some pending, .formatReject r => r.streamId = pending.streamId
  | _, _ => false

/-- The `control_rx` arm. -/
def controlMessage (cfg : SessionConfig) (s : Session) (msg : Message) : Effects :=
  match msg with
  | .endpointRelease _ =>
    -- a release ends any negotiation in progress
    { session := { s with pendingAccept := none }
      writes := if cfg.controllerHandlesRelease then [msg] else [] }
  | _ =>
    if resolvesPending s msg then
      { session := { s with pendingAccept := none }, writes := [msg] }
    else if s.pendingAccept.isSome then
      -- taken for a stale confirmation, whatever it is
      { session := s }
    else { session := s, writes := [msg] }

/-- The timer arm; `none` while it is not enabled. -/
def acceptTimeout (s : Session) (now : Nat) : Option Effects :=
  match s.pendingAccept with
  | some pending =>
    if pending.deadline ≤ now then
      some { session := { s with pendingAccept := none }, writes := [pending.auto] }
    else none
  | none => none

/-! ## What an arm does to the pending accept -/

@[simp] theorem controllerMessage_formatPropose (cfg : SessionConfig) (s : Session) (now : Nat)
    (fp : FormatPropose) :
    controllerMessage cfg s now (.formatPropose fp) = formatPropose cfg s fp now := rfl

@[simp] theorem controllerMessage_nextTrackPrepare (cfg : SessionConfig) (s : Session) (now : Nat)
    (ntp : NextTrackPrepare) :
    controllerMessage cfg s now (.nextTrackPrepare ntp) = nextTrackPrepare s ntp := rfl

theorem nextTrackPrepare_quiet (s : Session) (ntp : NextTrackPrepare) :
    (nextTrackPrepare s ntp).session.pendingAccept = s.pendingAccept ∧
      (∀ m ∈ (nextTrackPrepare s ntp).writes, verdictFor m = none) ∧
      ∀ fp, .formatProposed fp ∉ (nextTrackPrepare s ntp).events := by
  unfold nextTrackPrepare
  split <;> simp [verdictFor]

/-- Only a proposal writes a verdict or touches the pending accept. -/
theorem controllerMessage_other (cfg : SessionConfig) (s : Session) (now : Nat) {msg : Message}
    (h : ∀ fp, msg ≠ .formatPropose fp) :
    (controllerMessage cfg s now msg).session.pendingAccept = s.pendingAccept ∧
      (∀ m ∈ (controllerMessage cfg s now msg).writes, verdictFor m = none) ∧
      ∀ fp, .formatProposed fp ∉ (controllerMessage cfg s now msg).events := by
  cases msg with
  | formatPropose fp => exact absurd rfl (h fp)
  | nextTrackPrepare ntp => exact nextTrackPrepare_quiet s ntp
  | zoneAssign zoneId endpointId =>
    refine ⟨rfl, ?_, ?_⟩
    · intro m hm
      rw [List.mem_singleton.mp hm]
      rfl
    · intro fp hfp
      cases List.mem_singleton.mp hfp
  | _ =>
    -- nothing is written, and at most one event of another kind is sent
    refine ⟨rfl, fun m hm => (by cases hm), ?_⟩
    intro fp hfp
    first | cases List.mem_singleton.mp hfp | cases hfp

/-- A control message is written as it is, or not at all. -/
theorem controlMessage_writes {cfg : SessionConfig} {s : Session} {msg m : Message}
    (h : m ∈ (controlMessage cfg s msg).writes) : m = msg := by
  unfold controlMessage at h
  repeat' split at h
  all_goals simp_all

theorem formatPropose_pending (cfg : SessionConfig) (s : Session) (fp : FormatPropose)
    (now : Nat) :
    (formatPropose cfg s fp now).session.pendingAccept =
      if deferred cfg fp then
        some { streamId := fp.streamId, auto := .formatAccept fp.streamId,
               deadline := now + FAIL_OPEN_NS }
      else s.pendingAccept := by
  have hverdict := verdictFor_negotiateFormat cfg.capabilities fp
  unfold formatPropose
  cases hd : deferred cfg fp with
  | true =>
    have haccept : isFormatAccept (negotiateFormat cfg.capabilities fp) = true := by
      simp only [deferred, Bool.and_eq_true] at hd
      exact hd.2
    simp [eq_formatAccept haccept hverdict]
  | false =>
    simp only [Bool.false_eq_true, if_false]
    split <;> rfl

theorem formatPropose_writes (cfg : SessionConfig) (s : Session) (fp : FormatPropose)
    (now : Nat) :
    (formatPropose cfg s fp now).writes =
      if deferred cfg fp then [] else [negotiateFormat cfg.capabilities fp] := rfl

/-- The application hears of every proposal, after its verdict. -/
theorem formatPropose_events (cfg : SessionConfig) (s : Session) (fp : FormatPropose)
    (now : Nat) :
    ∃ verdict, (formatPropose cfg s fp now).events = verdict ++ [.formatProposed fp] ∧
      ∀ fp', .formatProposed fp' ∉ verdict := by
  refine ⟨_, rfl, ?_⟩
  intro fp'
  split <;> simp

end Oaat.Endpoint
