/-
Oaat.Sessions.Events — the `Connected` and `Disconnected` events of the
transport.

The application stops playback when it is told that the controller is gone. The
events should alternate, and between two sessions the last one should be
`Disconnected`. A session sends it when a read returns no bytes, and only then:
the end of the stream before `Hello` is announced though no one had connected,
and no other way to end a running session is announced at all. The main theorem
says that these are the only slips.
-/
import Oaat.Cli.Playback
import Oaat.Endpoint.Transport

namespace Oaat.Sessions

open Oaat.Core Oaat.Lib Oaat.Endpoint

/-- Whether a controller is connected after the events, if they alternate;
`connected` says whether one was before. -/
def track : Bool → List Sent → Option Bool
  | connected, [] => some connected
  | false, .event (.connected _ _) :: rest => track true rest
  | true, .event .disconnected :: rest => track false rest
  | true, .event (.connected _ _) :: _ => none
  | false, .event .disconnected :: _ => none
  | connected, .event (.control _) :: rest => track connected rest
  | connected, .write _ :: rest => track connected rest

/-- The events alternate, beginning with `Connected`, and the last of them is
`Connected` exactly while a session runs. -/
def Alternates (t : Transport) (log : List Sent) : Prop :=
  track false log = some t.phase.isRunning

/-- A message of the controller that the session answers. -/
def isAnswered (cfg : SessionConfig) : Message → Bool
  | .formatPropose fp => !deferred cfg fp
  | .nextTrackPrepare _ => true
  | .zoneAssign .. => true
  | _ => false

/-- `Hello`, in this version of the protocol. -/
def isGreeting : Except OaatError (Option Message) → Bool
  | .ok (some (.hello hello)) => hello.protocolVersion = PROTOCOL_VERSION
  | _ => false

/-- How a read may end a session. -/
def ReadEndsWell (cfg : EndpointConfig) (fails : Option Nat) :
    Phase → Except String (List UInt8) → Prop
  | .listening, _ => True
  -- before `Hello`, by anything but the end of the stream
  | .handshake _, .error _ => True
  | .handshake _, .ok [] => False
  | .handshake codec, .ok (b :: chunk) =>
    isGreeting ((codec.feed (b :: chunk)).decodeNext cfg.serde).1 = true → fails ≠ some 0
  -- after it, by nothing else
  | .running _ _ _, .error _ => False
  | .running _ _ _, .ok [] => True
  | .running hello codec _, .ok (b :: chunk) =>
    (Transport.decoded cfg codec (b :: chunk)).2.1 = none ∧
      ∀ written ∈ fails, (Transport.decoded cfg codec (b :: chunk)).1.countP
        (isAnswered (cfg.session hello)) ≤ written

/-- The control message is discarded, or written. -/
def ControlEndsWell (cfg : EndpointConfig) (msg : Message) (fails : Bool) : Phase → Prop
  | .running hello _ session =>
    fails = true → (controlMessage (cfg.session hello) session msg).writes = []
  | _ => True

/-- How a session may end: after `Hello`, by the end of the stream; before it, by
anything else. -/
def EndsWell (cfg : EndpointConfig) (t : Transport) : TransportInput → Prop
  | .read result _ fails => ReadEndsWell cfg fails t.phase result
  | .control msg fails => ControlEndsWell cfg msg fails t.phase
  | .timer _ fails => fails = false
  | .accept | .datagram .. => True

instance (cfg : EndpointConfig) (fails : Option Nat) :
    ∀ phase result, Decidable (ReadEndsWell cfg fails phase result)
  | .listening, _ => .isTrue trivial
  | .handshake _, .error _ => .isTrue trivial
  | .handshake _, .ok [] => .isFalse id
  | .handshake _, .ok (_ :: _) => inferInstanceAs (Decidable (_ → _))
  | .running _ _ _, .error _ => .isFalse id
  | .running _ _ _, .ok [] => .isTrue trivial
  | .running _ _ _, .ok (_ :: _) => inferInstanceAs (Decidable (_ ∧ _))

instance (cfg : EndpointConfig) (msg : Message) (fails : Bool) :
    ∀ phase, Decidable (ControlEndsWell cfg msg fails phase)
  | .running _ _ _ => inferInstanceAs (Decidable (_ → _))
  | .handshake _ => .isTrue trivial
  | .listening => .isTrue trivial

instance (cfg : EndpointConfig) (t : Transport) : ∀ i, Decidable (EndsWell cfg t i)
  | .read _ _ _ => inferInstanceAs (Decidable (ReadEndsWell ..))
  | .control _ _ => inferInstanceAs (Decidable (ControlEndsWell ..))
  | .timer _ _ => inferInstanceAs (Decidable (_ = _))
  | .accept => .isTrue trivial
  | .datagram _ _ _ => .isTrue trivial

section

variable {cfg : EndpointConfig} {t t' : Transport} {i : TransportInput} {o log : List Sent}

/-! ## Tracking -/

theorem track_append (connected : Bool) (l₁ l₂ : List Sent) :
    track connected (l₁ ++ l₂) = (track connected l₁).bind fun c => track c l₂ := by
  induction l₁ generalizing connected with
  | nil => rfl
  | cons x l ih =>
    cases x with
    | write msg => cases connected <;> exact ih _
    | event e =>
      cases e with
      | control e => cases connected <;> exact ih _
      | connected =>
        cases connected with
        | false => exact ih true
        | true => rfl
      | disconnected =>
        cases connected with
        | false => rfl
        | true => exact ih false

/-- No arm of a running session connects or disconnects. -/
theorem track_outputs (connected : Bool) (e : Effects) :
    track connected (Transport.outputs e) = some connected := by
  have hwrites : ∀ msgs : List Message, track connected (msgs.map .write) = some connected := by
    intro msgs
    induction msgs with
    | nil => rfl
    | cons msg msgs ih => cases connected <;> exact ih
  have hevents : ∀ events : List EndpointEvent,
      track connected (events.map fun event => .event (.control event)) = some connected := by
    intro events
    induction events with
    | nil => rfl
    | cons event events ih => cases connected <;> exact ih
  rw [Transport.outputs, track_append, hwrites]
  exact hevents e.events

theorem track_handleAll (connected : Bool) (cfg : SessionConfig) (now : Nat) (s : Session)
    (fails : Option Nat) (msgs : List Message) :
    track connected (Transport.handleAll cfg now s fails msgs).2.1 = some connected := by
  induction msgs generalizing s fails with
  | nil => rfl
  | cons msg msgs ih =>
    unfold Transport.handleAll
    dsimp only
    split
    next => rfl
    next =>
      rw [track_append, track_outputs]
      exact ih _ _

theorem writes_isEmpty (cfg : SessionConfig) (s : Session) (now : Nat) (msg : Message) :
    (controllerMessage cfg s now msg).writes.isEmpty = !isAnswered cfg msg := by
  cases msg with
  | formatPropose fp =>
    rw [controllerMessage_formatPropose, formatPropose_writes]
    cases hd : deferred cfg fp <;> simp [isAnswered, hd]
  | nextTrackPrepare ntp =>
    rw [controllerMessage_nextTrackPrepare, nextTrackPrepare]
    split <;> rfl
  | _ => rfl

/-- The writes of one read fail nowhere exactly when there are too few of them. -/
theorem handleAll_ok_iff (cfg : SessionConfig) (now : Nat) (s : Session) (fails : Option Nat)
    (msgs : List Message) :
    (Transport.handleAll cfg now s fails msgs).2.2 = true ↔
      ∀ written ∈ fails, msgs.countP (isAnswered cfg) ≤ written := by
  induction msgs generalizing s fails with
  | nil => simp [Transport.handleAll]
  | cons msg msgs ih =>
    unfold Transport.handleAll
    dsimp only
    rw [writes_isEmpty, Bool.not_not, List.countP_cons]
    cases hans : isAnswered cfg msg with
    | false =>
      rw [if_neg (by simp)]
      simpa using ih _ fails
    | true =>
      cases fails with
      | none => simpa using ih _ none
      | some written =>
        cases written with
        | zero => simp
        | succ written =>
          rw [if_neg (by simp)]
          simpa using ih _ (some written)

/-! ## One step -/

/-- What is left to show of a step. -/
theorem alternates_append_iff (h : Alternates t log) :
    Alternates t' (log ++ o) ↔ track t.phase.isRunning o = some t'.phase.isRunning := by
  rw [Alternates, track_append, show track false log = _ from h]
  rfl

theorem track_arm_iff {hello : Hello} {codec : FrameCodec} {session : Session}
    (hphase : t.phase = .running hello codec session) {e : Effects} {fails : Bool}
    (harm : t.arm hello codec e fails = (t', o)) :
    track t.phase.isRunning o = some t'.phase.isRunning ↔ (fails = true → e.writes = []) := by
  unfold Transport.arm at harm
  rw [hphase]
  split at harm
  next hfails =>
    cases harm
    obtain ⟨hwrites, rfl⟩ : e.writes ≠ [] ∧ fails = true := by simpa using hfails
    refine iff_of_false (by simp [track, Transport.ended, Phase.isRunning]) ?_
    exact fun hnone => hwrites (hnone rfl)
  next hfails =>
    cases harm
    refine iff_of_true (track_outputs _ e) ?_
    rintro rfl
    simpa using hfails

/-- Before `Hello`. -/
theorem track_greet_iff {codec : FrameCodec} (hphase : t.phase = .handshake codec)
    {fails : Option Nat} {codec' : FrameCodec} {message : Except OaatError (Option Message)}
    (hgreet : t.greet cfg codec' fails message = (t', o)) :
    track t.phase.isRunning o = some t'.phase.isRunning ↔
      (isGreeting message = true → fails ≠ some 0) := by
  rw [hphase]
  unfold Transport.greet at hgreet
  split at hgreet
  next e =>
    cases hgreet
    exact iff_of_true rfl fun hgreeting => Bool.noConfusion hgreeting
  next hello =>
    split at hgreet
    next hversion =>
      cases hgreet
      refine iff_of_true rfl ?_
      intro hgreeting
      exact absurd (of_decide_eq_true hgreeting) hversion
    next hversion =>
      have hok : isGreeting (.ok (some (.hello hello))) = true := by
        simpa [isGreeting] using hversion
      dsimp only at hgreet
      split at hgreet
      next hfails =>
        cases hgreet
        refine iff_of_false (by simp [track, Transport.ended, Phase.isRunning]) ?_
        exact fun hnot => hnot hok hfails
      next hfails =>
        cases hgreet
        exact iff_of_true rfl fun _ => hfails
  next message hother =>
    cases hgreet
    refine iff_of_true rfl ?_
    intro hgreeting
    unfold isGreeting at hgreeting
    split at hgreeting
    next hello hmsg => exact absurd (Except.ok.inj hmsg) (hother hello)
    next => cases hgreeting

theorem track_read_iff {result : Except String (List UInt8)} {now : Nat} {fails : Option Nat}
    (hread : t.read cfg result now fails = some (t', o)) :
    track t.phase.isRunning o = some t'.phase.isRunning ↔
      EndsWell cfg t (.read result now fails) := by
  cases hphase : t.phase with
  | listening => simp [Transport.read, hphase] at hread
  | handshake codec =>
    cases result with
    | error e =>
      simp only [Transport.read, hphase] at hread
      cases hread
      simp [EndsWell, ReadEndsWell, hphase, track, Transport.ended, Phase.isRunning]
    | ok chunk =>
      cases chunk with
      | nil =>
        simp only [Transport.read, hphase] at hread
        cases hread
        simp [EndsWell, ReadEndsWell, hphase, track, Phase.isRunning]
      | cons b chunk =>
        simp only [Transport.read, hphase] at hread
        rw [← hphase, track_greet_iff hphase (Option.some.inj hread)]
        rw [EndsWell, hphase]
        rfl
  | running hello codec session =>
    cases result with
    | error e =>
      simp only [Transport.read, hphase] at hread
      cases hread
      simp [EndsWell, ReadEndsWell, hphase, track, Transport.ended, Phase.isRunning]
    | ok chunk =>
      cases chunk with
      | nil =>
        simp only [Transport.read, hphase] at hread
        cases hread
        simp [EndsWell, ReadEndsWell, hphase, track, Transport.ended, Phase.isRunning]
      | cons b chunk =>
        simp only [Transport.read, hphase] at hread
        simp only [EndsWell, hphase, ReadEndsWell,
          ← handleAll_ok_iff (cfg.session hello) now session]
        split at hread
        next hok =>
          cases hread
          rw [Bool.and_eq_true, Option.isNone_iff_eq_none] at hok
          exact iff_of_true (track_handleAll ..) ⟨hok.2, hok.1⟩
        next hok =>
          cases hread
          rw [Bool.and_eq_true, Option.isNone_iff_eq_none] at hok
          refine iff_of_false ?_ fun hboth => hok ⟨hboth.2, hboth.1⟩
          simp [Phase.isRunning, track_handleAll, Transport.ended]

/-- **One step.** -/
theorem alternates_step_iff (h : Alternates t log) (hstep : t.step cfg i = .ok (t', o)) :
    Alternates t' (log ++ o) ↔ EndsWell cfg t i := by
  rw [alternates_append_iff h]
  have hnext := Transport.step_eq_ok hstep
  cases i with
  | accept =>
    simp only [Transport.next] at hnext
    split at hnext
    next hphase =>
      cases hnext
      rw [hphase]
      exact iff_of_true rfl trivial
    next => cases hnext
  | read result now fails => exact track_read_iff hnext
  | control msg fails =>
    simp only [Transport.next, Transport.control] at hnext
    split at hnext
    next hello codec session hphase =>
      rw [track_arm_iff hphase (Option.some.inj hnext), EndsWell, hphase]
      rfl
    next => cases hnext
  | timer now fails =>
    simp only [Transport.next, Transport.timer] at hnext
    split at hnext
    next hello codec session hphase =>
      obtain ⟨e, htimeout, harm⟩ := Option.map_eq_some_iff.mp hnext
      have hwrites : e.writes ≠ [] := by
        unfold acceptTimeout at htimeout
        split at htimeout
        next =>
          split at htimeout
          next =>
            cases htimeout
            exact List.cons_ne_nil _ _
          next => cases htimeout
        next => cases htimeout
      rw [track_arm_iff hphase harm]
      simp [EndsWell, hwrites]
    next => cases hnext
  | datagram bytes now later =>
    simp only [Transport.next, Transport.datagram] at hnext
    split at hnext
    next =>
      cases hnext
      exact iff_of_true rfl trivial
    next => cases hnext

end

/-! ## Every run -/

/-- The application stops playback when it is told. -/
theorem disconnected_stops (output : Output) {build : Build}
    {app app' : Cli.Endpoint output.backend} {w : Cli.World} {h : output.backend.Host}
    {effects : List Cli.Effect}
    (hstep : app.step build (.event .disconnected w h) = .ok (app', effects)) :
    output.backend.isPlaying app'.audio = false := by
  cases Cli.step_inv hstep with
  | disconnects w h audio opened hstop => exact (Cli.playsOnly output).stop _ _ _ _ hstop

/-- **`Connected` and `Disconnected` alternate**, exactly when every session that
gets past `Hello` ends by the end of the stream and no connection ends that way
before; `Disconnected` stops playback. -/
theorem session_events_alternate_iff (cfg : EndpointConfig) {inputs : List TransportInput}
    {t : Transport} {log : List Sent} (hrun : run (Transport.step cfg) .new inputs = .ok (t, log)) :
    (Throughout (Transport.step cfg) Alternates .new inputs ↔
      Along (Transport.step cfg) (EndsWell cfg) .new inputs) ∧
    ∀ (output : Output) (build : Build) (app app' : Cli.Endpoint output.backend) (w : Cli.World)
      (h : output.backend.Host) (effects : List Cli.Effect),
      app.step build (.event .disconnected w h) = .ok (app', effects) →
        output.backend.isPlaying app'.audio = false := by
  have hstep : ∀ (t : Transport) log i t' o, Alternates t log → t.step cfg i = .ok (t', o) →
      (Alternates t' (log ++ o) ↔ EndsWell cfg t i) :=
    fun t log i t' o halt hi => alternates_step_iff halt hi
  refine ⟨throughout_iff_along inputs Alternates .new t log hstep rfl hrun, ?_⟩
  intro output build app app' w h effects
  exact disconnected_stops output

def sampleConfig : EndpointConfig :=
  { serde := Control.sampleSerde, endpointId := "e", endpointName := "n",
    capabilities := { pcmMaxRate := 192000, pcmMaxBits := 24, dsdMaxRate := none,
                      channelsMax := 2, formats := [.pcmS16le], volume := none,
                      gapless := false, seek := false },
    audioPort := 1, clockPort := 2, bufferSizeMs := 1000, deferFormatAccept := true }

/-- A read of these bytes. -/
def reading (bytes : List UInt8) : TransportInput := .read (.ok bytes) 0 none

/-- A controller connects and greets. -/
def greeting : List TransportInput :=
  [.accept, reading (Control.sampleFrame Control.sampleHello)]

/-- What a run from the start leaves of the transport and of the events. -/
def outcome (cfg : EndpointConfig) (inputs : List TransportInput) :
    Option (Bool × Option Bool) :=
  viewRun (Transport.step cfg) (fun t log => (t.phase.isRunning, track false log)) .new inputs

theorem not_throughout {cfg : EndpointConfig} {inputs : List TransportInput} {running : Bool}
    (h : outcome cfg inputs = some (running, none)) :
    ¬ Throughout (Transport.step cfg) Alternates .new inputs := by
  intro hall
  obtain ⟨t, log, hrun, hview⟩ := run_of_viewRun h
  have hnone : track false log = none := (Prod.mk.inj hview).2
  have halt : track false log = some t.phase.isRunning :=
    hall inputs [] t log (List.append_nil _).symm hrun
  rw [hnone] at halt
  cases halt

/-- Two sessions, the first ended by the end of the stream. -/
theorem session_events_alternate_twice :
    outcome sampleConfig (greeting ++ [reading []] ++ greeting) = some (true, some true) ∧
      Throughout (Transport.step sampleConfig) Alternates .new
        (greeting ++ [reading []] ++ greeting) := by
  have houtcome : outcome sampleConfig (greeting ++ [reading []] ++ greeting) =
      some (true, some true) := by
    decide +kernel
  obtain ⟨t, log, hrun, -⟩ := run_of_viewRun houtcome
  refine ⟨houtcome, (session_events_alternate_iff sampleConfig hrun).1.mpr ?_⟩
  decide +kernel

/-- A malformed frame ends the first session without a word: `Connected` comes
twice. A connection that never greets is announced as gone. -/
theorem ends_unannounced :
    outcome sampleConfig (greeting ++ [reading Control.malformedFrame] ++ greeting) =
        some (true, none) ∧
      outcome sampleConfig [.accept, reading []] = some (false, none) ∧
      ¬ Throughout (Transport.step sampleConfig) Alternates .new
        (greeting ++ [reading Control.malformedFrame] ++ greeting) ∧
      ¬ Throughout (Transport.step sampleConfig) Alternates .new [.accept, reading []] := by
  have hfirst : outcome sampleConfig
      (greeting ++ [reading Control.malformedFrame] ++ greeting) = some (true, none) := by
    decide +kernel
  have hsecond : outcome sampleConfig [.accept, reading []] = some (false, none) := by
    decide +kernel
  exact ⟨hfirst, hsecond, not_throughout hfirst, not_throughout hsecond⟩

end Oaat.Sessions
