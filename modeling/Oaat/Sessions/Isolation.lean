/-
Oaat.Sessions.Isolation — the transport, the application and the two channels
between them, over any number of sessions.

Both channels outlive the sessions, and so does the application's notion of the
stream that it plays. Sessions are numbered as they are accepted. Every event is
tagged with the session that sent it, and every message of the application with
the session whose stream it is about: the one that proposed the stream last. No
step reads a tag. A message should not be written to a later session than the one
that it is about.

A sender that waits for room is a channel that is longer than it is in the
program: there are more runs here than there, and none fewer.
-/
import Oaat.Cli.Playback
import Oaat.Sessions.Clocks

namespace Oaat.Sessions

open Oaat.Core Oaat.Lib Oaat.Endpoint

variable {B : Backend}

/-- A message on a control connection. -/
structure Written where
  session : Nat
  message : Message
  /-- For a message of the application, the session that it is about. -/
  origin : Option Nat
  deriving Repr, DecidableEq

structure System (B : Backend) where
  transport : Transport
  /-- The number of connections accepted so far. -/
  number : Nat
  app : Cli.Endpoint B
  events : List (Cli.Event × Nat)
  control : List (Message × Option Nat)
  /-- The session of the last proposal that the application took up. -/
  stream : Option Nat

inductive SystemInput (B : Backend) where
  /-- Anything but a message off the control channel. -/
  | transport (i : TransportInput)
  /-- The session takes a message off the control channel. -/
  | control (fails : Bool)
  /-- The audio loop of the session delivers a packet. -/
  | audio (header : AudioPacketHeader) (payload : List UInt8)
  /-- The application takes up an event. -/
  | handle (w : Cli.World) (h : B.Host)
  /-- Any other pass through the application's loop. -/
  | app (a : Cli.Action B)

/-- The event as the application sees it. -/
def eventOf : TransportEvent → Cli.Event
  | .connected controllerId controllerName => .connected controllerId controllerName
  | .control e => .control e
  | .disconnected => .disconnected

def eventsIn (number : Nat) (out : List Sent) : List (Cli.Event × Nat) :=
  out.filterMap fun
    | .event e => some (eventOf e, number)
    | .write _ => none

def writesIn (session : Nat) (origin : Option Nat) (out : List Sent) : List Written :=
  out.filterMap fun
    | .event _ => none
    | .write message => some { session, message, origin }

/-- The messages that the application sends. -/
def sentIn (stream : Option Nat) (effects : List Cli.Effect) : List (Message × Option Nat) :=
  effects.filterMap fun
    | .send m => some (m, stream)
    | _ => none

def isProposal : Cli.Event → Bool
  | .control (.formatProposed _) => true
  | _ => false

namespace System

def new (B : Backend) (mixer : Bool) (audioDevice : Option (List Char)) : System B :=
  { transport := .new, number := 0, app := .new B mixer audioDevice, events := [], control := [],
    stream := none }

/-- What the transport leaves behind. -/
def moved (s : System B) (number : Nat) (t : Transport) (out : List Sent) : System B :=
  { s with transport := t, number, events := s.events ++ eventsIn number out }

/-- What the application leaves behind. -/
def passed (s : System B) (stream : Option Nat) (app : Cli.Endpoint B)
    (effects : List Cli.Effect) : System B :=
  { s with app, stream, control := s.control ++ sentIn stream effects }

def step (cfg : EndpointConfig) (build : Build) (s : System B) :
    SystemInput B → Except Halt (System B × List Written)
  | .transport (.control _ _) => .error .blocked
  | .transport i =>
    let number := match i with
      | .accept => s.number + 1
      | _ => s.number
    match s.transport.next cfg i with
    | none => .error .blocked
    | some (t, out) => .ok (s.moved number t out, writesIn number none out)
  | .control fails =>
    match s.control with
    | [] => .error .blocked
    | (msg, origin) :: rest =>
      match s.transport.next cfg (.control msg fails) with
      | none => .error .blocked
      | some (t, out) =>
        .ok ({ s with control := rest }.moved s.number t out, writesIn s.number origin out)
  | .audio header payload =>
    if s.transport.phase.isRunning then
      .ok ({ s with events := s.events ++ [(.audioPacket header payload, s.number)] }, [])
    else .error .blocked
  | .handle w h =>
    match s.events with
    | [] => .error .blocked
    | (e, number) :: rest =>
      match s.app.step build (.event e w h) with
      | .error halt => .error halt
      | .ok (app, effects) =>
        let stream := if isProposal e then some number else s.stream
        .ok ({ s with events := rest }.passed stream app effects, [])
  | .app (.event _ _ _) => .error .blocked
  | .app a =>
    match s.app.step build a with
    | .error halt => .error halt
    | .ok (app, effects) => .ok (s.passed s.stream app effects, [])

end System

/-- No message of the application went to a later session than it is about. -/
def Isolated (log : List Written) : Prop := ∀ w ∈ log, ∀ k ∈ w.origin, w.session ≤ k

/-- The session drops the message: a release that the controller would not know,
or any other message while the accept of another stream is pending. -/
def discards (cfg : EndpointConfig) (msg : Message) : Phase → Bool
  | .running hello _ session =>
    match msg with
    | .endpointRelease _ => !(cfg.session hello).controllerHandlesRelease
    | _ => session.pendingAccept.isSome && !resolvesPending session msg
  | _ => true

/-- What a session takes off the channel is about itself, or goes nowhere. -/
def Addressed (cfg : EndpointConfig) (s : System B) : SystemInput B → Prop
  | .control fails => ∀ m ∈ s.control.head?, ∀ k ∈ m.2,
    s.number ≤ k ∨ fails = true ∨ discards cfg m.1 s.transport.phase = true
  | _ => True

/-- The application speaks of no session but the running one. -/
def Current (s : System B) (stream : Option Nat) : Prop :=
  s.transport.phase.isRunning = true → ∀ k ∈ stream, s.number ≤ k

/-- The pass may send a message. -/
def speaks (app : Cli.Endpoint B) : Cli.Action B → Bool
  | .event e _ _ => isProposal e
  | .servoTick _ => app.started
  | .release _ => app.connected
  | _ => false

/-- Nothing is left of a session when the next one begins: the channel is empty at
`Hello`, and while a session runs the application takes up no proposal of an
earlier one and neither reports nor releases its stream. -/
def HandsOver (cfg : EndpointConfig) (s : System B) : SystemInput B → Prop
  | .transport (.read result _ fails) =>
    greets cfg fails s.transport.phase result = true → s.control = []
  | .handle _ _ => ∀ e ∈ s.events.head?, isProposal e.1 = true → Current s (some e.2)
  | .app a => speaks s.app a = true → Current s s.stream
  | _ => True

/-! ## The steps -/

section

variable {cfg : EndpointConfig} {build : Build} {s s' : System B} {o : List Written}

theorem transport_inv {i : TransportInput} (hstep : s.step cfg build (.transport i) = .ok (s', o)) :
    ∃ number t out, s.transport.next cfg i = some (t, out) ∧ s' = s.moved number t out ∧
      o = writesIn number none out ∧ (i ≠ .accept → number = s.number) := by
  cases i with
  | control msg fails => cases hstep
  | accept =>
    simp only [System.step] at hstep
    split at hstep
    next => cases hstep
    next t out hnext =>
      cases hstep
      exact ⟨_, t, out, hnext, rfl, rfl, fun hno => absurd rfl hno⟩
  | _ =>
    simp only [System.step] at hstep
    split at hstep
    next => cases hstep
    next t out hnext =>
      cases hstep
      exact ⟨_, t, out, hnext, rfl, rfl, fun _ => rfl⟩

theorem control_inv {fails : Bool} (hstep : s.step cfg build (.control fails) = .ok (s', o)) :
    ∃ msg origin rest t out, s.control = (msg, origin) :: rest ∧
      s.transport.next cfg (.control msg fails) = some (t, out) ∧
      s' = { s with control := rest }.moved s.number t out ∧ o = writesIn s.number origin out := by
  simp only [System.step] at hstep
  split at hstep
  next => cases hstep
  next msg origin rest hcontrol =>
    split at hstep
    next => cases hstep
    next t out hnext =>
      cases hstep
      exact ⟨msg, origin, rest, t, out, hcontrol, hnext, rfl, rfl⟩

theorem audio_inv {header : AudioPacketHeader} {payload : List UInt8}
    (hstep : s.step cfg build (.audio header payload) = .ok (s', o)) :
    o = [] ∧ s' = { s with events := s.events ++ [(.audioPacket header payload, s.number)] } := by
  simp only [System.step] at hstep
  split at hstep
  next =>
    cases hstep
    exact ⟨rfl, rfl⟩
  next => cases hstep

theorem handle_inv {w : Cli.World} {h : B.Host}
    (hstep : s.step cfg build (.handle w h) = .ok (s', o)) :
    ∃ e number rest app effects, s.events = (e, number) :: rest ∧
      s.app.step build (.event e w h) = .ok (app, effects) ∧ o = [] ∧
      s' = { s with events := rest }.passed
        (if isProposal e then some number else s.stream) app effects := by
  simp only [System.step] at hstep
  split at hstep
  next => cases hstep
  next e number rest hevents =>
    split at hstep
    next => cases hstep
    next app effects happ =>
      cases hstep
      exact ⟨e, number, rest, app, effects, hevents, happ, rfl, rfl⟩

theorem app_inv {a : Cli.Action B} (hstep : s.step cfg build (.app a) = .ok (s', o)) :
    ∃ app effects, s.app.step build a = .ok (app, effects) ∧ o = [] ∧
      s' = s.passed s.stream app effects := by
  cases a with
  | event e w h => cases hstep
  | _ =>
    simp only [System.step] at hstep
    split at hstep
    next => cases hstep
    next app effects happ =>
      cases hstep
      exact ⟨app, effects, happ, rfl, rfl⟩

end

/-! ## What is written -/

section

variable {cfg : EndpointConfig} {build : Build}

theorem isolated_append {log more : List Written} :
    Isolated (log ++ more) ↔ Isolated log ∧ Isolated more := List.forall_mem_append

theorem isolated_writesIn_iff {session : Nat} {origin : Option Nat} {out : List Sent} :
    Isolated (writesIn session origin out) ↔
      ∀ k ∈ origin, session ≤ k ∨ ∀ m, .write m ∉ out := by
  constructor
  · intro hiso k hk
    by_cases hnone : ∀ m, .write m ∉ out
    · exact .inr hnone
    · left
      obtain ⟨m, hm⟩ := not_forall_not.mp hnone
      exact hiso ⟨session, m, origin⟩ (List.mem_filterMap.mpr ⟨.write m, hm, rfl⟩) k hk
  · intro hok w hw k hk
    obtain ⟨x, hx, heq⟩ := List.mem_filterMap.mp hw
    cases x with
    | event e => cases heq
    | write m =>
      obtain rfl := Option.some.inj heq
      exact (hok k hk).resolve_right fun hnone => hnone m hx

theorem no_write_outputs_iff (e : Effects) :
    (∀ m, .write m ∉ Transport.outputs e) ↔ e.writes = [] := by
  constructor
  · intro hnone
    refine List.eq_nil_iff_forall_not_mem.mpr ?_
    intro m hm
    exact hnone m (List.mem_append_left _ (List.mem_map_of_mem hm))
  · intro hnil m hm
    simp [Transport.outputs, hnil] at hm

theorem writes_nil_iff_discards {hello : Hello} {codec : FrameCodec} {session : Session}
    (msg : Message) :
    (controlMessage (cfg.session hello) session msg).writes = [] ↔
      discards cfg msg (.running hello codec session) = true := by
  unfold controlMessage
  split
  next => simp [discards]
  next hrelease =>
    have hdiscards : discards cfg msg (.running hello codec session) =
        (session.pendingAccept.isSome && !resolvesPending session msg) := by
      simp only [discards]
    rw [hdiscards]
    split
    next hres => simp [hres]
    next hres =>
      split
      next hpending => simp [hres, hpending]
      next hpending => simp [hpending]

/-- A message off the control channel is written unless the write fails or the
session drops it. -/
theorem control_writes_iff {t t' : Transport} {msg : Message} {fails : Bool} {out : List Sent}
    (hnext : t.next cfg (.control msg fails) = some (t', out)) :
    (∀ m, .write m ∉ out) ↔ fails = true ∨ discards cfg msg t.phase = true := by
  simp only [Transport.next, Transport.control] at hnext
  split at hnext
  next hello codec session hphase =>
    rw [hphase, ← writes_nil_iff_discards]
    have harm := Option.some.inj hnext
    unfold Transport.arm at harm
    split at harm
    next hfails =>
      cases harm
      simp only [Bool.and_eq_true] at hfails
      simp [hfails.2]
    next hfails =>
      cases harm
      rw [no_write_outputs_iff]
      refine ⟨.inr, fun hor => hor.elim ?_ id⟩
      rintro rfl
      simpa using hfails
  next => cases hnext

/-- **One step.** -/
theorem isolated_step_iff {s s' : System B} {i : SystemInput B} {log o : List Written}
    (hlog : Isolated log) (hstep : s.step cfg build i = .ok (s', o)) :
    Isolated (log ++ o) ↔ Addressed cfg s i := by
  rw [isolated_append, and_iff_right hlog]
  have hnone : Isolated [] := fun w hw => absurd hw List.not_mem_nil
  cases i with
  | transport i =>
    obtain ⟨number, t, out, -, -, rfl, -⟩ := transport_inv hstep
    exact iff_of_true (isolated_writesIn_iff.mpr fun k hk => (by cases hk)) trivial
  | control fails =>
    obtain ⟨msg, origin, rest, t, out, hcontrol, hnext, -, rfl⟩ := control_inv hstep
    rw [isolated_writesIn_iff, control_writes_iff hnext]
    simp [Addressed, hcontrol]
  | audio header payload =>
    obtain ⟨rfl, -⟩ := audio_inv hstep
    exact iff_of_true hnone trivial
  | handle w h =>
    obtain ⟨e, number, rest, app, effects, -, -, rfl, -⟩ := handle_inv hstep
    exact iff_of_true hnone trivial
  | app a =>
    obtain ⟨app, effects, -, rfl, -⟩ := app_inv hstep
    exact iff_of_true hnone trivial

/-! ## An application that is through with a session -/

/-- Nothing waits for the running session that is about an earlier one. -/
def Tidy (s : System B) : Prop := ∀ m ∈ s.control, Current s m.2

theorem not_send_openedIf (m : Message) (opened : Bool) :
    Cli.Effect.send m ∉ Cli.Endpoint.openedIf opened := by
  intro hm
  cases Cli.eq_of_mem_openedIf hm

theorem not_send_configured (m : Message) (opened : Bool) :
    Cli.Effect.send m ∉ .configured :: Cli.Endpoint.openedIf opened := by
  rw [List.mem_cons, not_or]
  exact ⟨Cli.Effect.noConfusion, not_send_openedIf m opened⟩

theorem not_send_wrote {app : Cli.Endpoint B} {header : AudioPacketHeader} {payload : List UInt8}
    {h : B.Host} {audio : B.State} {wrote : List Cli.Effect} (m : Message)
    (hwrote : Cli.Wrote app header payload h audio wrote) : .send m ∉ wrote := by
  intro hm
  rcases hwrote.effect hm with hm | hm <;> cases hm

theorem not_send_reopened {app : Cli.Endpoint B} {h : B.Host} {audio : B.State}
    {reopened : List Cli.Effect} (m : Message) (hre : Cli.Reopened app h audio reopened) :
    .send m ∉ reopened := by
  intro hm
  rcases hre.effect hm with hm | hm <;> cases hm

/-- The application speaks only in these passes. -/
theorem speaks_of_send {app app' : Cli.Endpoint B} {a : Cli.Action B} {effects : List Cli.Effect}
    {m : Message} (hstep : app.step build a = .ok (app', effects)) (hm : .send m ∈ effects) :
    speaks app a = true := by
  have hhook (b : Bool) (hook : Cli.Hook) :
      Cli.Effect.send m ∉ if b then [.hook hook] else [] := by
    cases b <;> simp
  cases Cli.step_inv hstep with
  | ticks w inUse ticks audio tracker lastDrift stats hserved hinUse hstats =>
    rcases List.mem_append.mp hm with hm | hm
    · split at hm <;> simp at hm
    · rcases hstats with rfl | ⟨hstarted, -⟩
      · cases hm
      · exact hstarted
  | releases h audio opened told hrel htold =>
    rcases List.mem_append.mp hm with hm | hm
    · rcases List.mem_append.mp hm with hm | hm
      · exact absurd hm (not_send_openedIf m opened)
      · rcases htold with rfl | ⟨hconnected, -⟩
        · cases hm
        · exact hconnected
    · exact absurd hm (hhook _ _)
  | proposes => rfl
  | packet header payload w h audio wrote hwrote => exact absurd hm (not_send_wrote m hwrote)
  | packetStarts header payload w h audio wrote head hwrote =>
    rcases List.mem_append.mp hm with hm | hm
    · exact absurd hm (not_send_wrote m hwrote)
    · simp at hm
  | plays streamId w h audio reopened hre =>
    rcases List.mem_append.mp hm with hm | hm
    · exact absurd hm (not_send_reopened m hre)
    · split at hm <;> simp at hm
  | stops streamId w h audio opened =>
    rcases List.mem_append.mp hm with hm | hm
    · exact absurd hm (not_send_openedIf m opened)
    · exact absurd hm (hhook _ _)
  | disconnects w h audio opened =>
    rcases List.mem_append.mp hm with hm | hm
    · exact absurd hm (not_send_openedIf m opened)
    · exact absurd hm (hhook _ _)
  | seeks streamId positionMs w h audio opened => exact absurd hm (not_send_configured m opened)
  | reformats streamId format sampleRate w h audio opened =>
    exact absurd hm (not_send_configured m opened)
  | hosts h audio opened => exact absurd hm (not_send_openedIf m opened)
  | _ => cases hm

section

variable {s s' : System B} {i : SystemInput B} {o : List Written}

/-- What the application adds is about the running session, if it speaks of no
other. -/
theorem tidy_passed (htidy : Tidy s) {a : Cli.Action B} {app : Cli.Endpoint B}
    {effects : List Cli.Effect} {events : List (Cli.Event × Nat)} {stream : Option Nat}
    (hstep : s.app.step build a = .ok (app, effects))
    (hcurrent : speaks s.app a = true → Current s stream) :
    Tidy ({ s with events }.passed stream app effects) := by
  intro m hm
  rcases List.mem_append.mp hm with hm | hm
  · exact htidy m hm
  · obtain ⟨x, hx, heq⟩ := List.mem_filterMap.mp hm
    cases x with
    | send msg =>
      obtain rfl := Option.some.inj heq
      exact hcurrent (speaks_of_send hstep hx)
    | _ => cases heq

/-- A step of the transport that starts no session. -/
theorem tidy_moved (htidy : Tidy s) {t : Transport} {out : List Sent}
    {control : List (Message × Option Nat)} (hcontrol : ∀ m ∈ control, m ∈ s.control)
    (hrunning : t.phase.isRunning = true → s.transport.phase.isRunning = true) :
    Tidy ({ s with control }.moved s.number t out) := by
  intro m hm hrun
  exact htidy m (hcontrol m hm) (hrunning hrun)

theorem tidy_step (htidy : Tidy s) (hover : HandsOver cfg s i)
    (hstep : s.step cfg build i = .ok (s', o)) : Tidy s' := by
  cases i with
  | transport i =>
    obtain ⟨number, t, out, hnext, rfl, -, hnumber⟩ := transport_inv hstep
    cases i with
    | accept =>
      simp only [Transport.next] at hnext
      split at hnext
      next =>
        cases hnext
        exact fun m _ hrun => Bool.noConfusion hrun
      next => cases hnext
    | read result now fails =>
      obtain rfl := hnumber (by simp)
      cases hgreets : greets cfg fails s.transport.phase result with
      | true =>
        have hempty : (s.moved s.number t out).control = [] := hover hgreets
        intro m hm
        rw [hempty] at hm
        cases hm
      | false => exact tidy_moved htidy (fun _ hm => hm) ((read_frame hnext).2.2 hgreets)
    | control msg fails => cases hstep
    | timer now fails =>
      obtain rfl := hnumber (by simp)
      exact tidy_moved htidy (fun _ hm => hm) (next_frame hnext (by simp) (by simp)).2
    | datagram bytes now later =>
      obtain rfl := hnumber (by simp)
      simp only [Transport.next, Transport.datagram] at hnext
      split at hnext
      next hrunning =>
        cases hnext
        exact tidy_moved htidy (fun _ hm => hm) fun _ => hrunning
      next => cases hnext
  | control fails =>
    obtain ⟨msg, origin, rest, t, out, hcontrol, hnext, rfl, -⟩ := control_inv hstep
    refine tidy_moved htidy ?_ (next_frame hnext (by simp) (by simp)).2
    intro m hm
    rw [hcontrol]
    exact List.mem_cons_of_mem _ hm
  | audio header payload =>
    obtain ⟨-, rfl⟩ := audio_inv hstep
    exact htidy
  | handle w h =>
    obtain ⟨e, number, rest, app, effects, hevents, happ, -, rfl⟩ := handle_inv hstep
    refine tidy_passed htidy happ ?_
    intro hproposal
    rw [if_pos (show isProposal e = true from hproposal)]
    exact hover (e, number) (by rw [hevents]; rfl) hproposal
  | app a =>
    obtain ⟨app, effects, happ, -, rfl⟩ := app_inv hstep
    exact tidy_passed htidy happ hover

/-- What waits for a tidy session is about it. -/
theorem addressed_of_tidy (htidy : Tidy s) : Addressed cfg s i := by
  cases i with
  | control fails =>
    intro m hm k hk
    have hmem : m ∈ s.control := List.mem_of_mem_head? hm
    cases hphase : s.transport.phase with
    | running hello codec session =>
      exact .inl (htidy m hmem (by rw [hphase]; rfl) k hk)
    | _ => exact .inr (.inr rfl)
  | _ => trivial

end

end

/-! ## Every run -/

/-- **Sessions are isolated**, exactly when every message that a session takes off
the control channel is about a stream of its own, is dropped, or is lost in a
failed write. So it is in every run in which nothing is left of a session when the
next one begins. -/
theorem sessions_isolated_iff (cfg : EndpointConfig) (build : Build) {mixer : Bool}
    {device : Option (List Char)} {inputs : List (SystemInput B)} {s : System B}
    {log : List Written}
    (hrun : run (System.step cfg build) (.new B mixer device) inputs = .ok (s, log)) :
    (Throughout (System.step cfg build) (fun _ log => Isolated log) (.new B mixer device) inputs ↔
      Along (System.step cfg build) (Addressed cfg) (.new B mixer device) inputs) ∧
    (Along (System.step cfg build) (HandsOver cfg) (.new B mixer device) inputs →
      Throughout (System.step cfg build) (fun _ log => Isolated log) (.new B mixer device)
        inputs) := by
  have hstep : ∀ (s : System B) log i s' o, Isolated log → s.step cfg build i = .ok (s', o) →
      (Isolated (log ++ o) ↔ Addressed cfg s i) :=
    fun s log i s' o hlog hi => isolated_step_iff hlog hi
  have hnew : Isolated [] := fun w hw => absurd hw List.not_mem_nil
  have hiff := throughout_iff_along inputs (fun _ log => Isolated log) (.new B mixer device) s log
    hstep hnew hrun
  have hgives : ∀ (s : System B) i, Tidy s → HandsOver cfg s i → Addressed cfg s i :=
    fun s i htidy _ => addressed_of_tidy htidy
  have hkeep : ∀ (s : System B) i s' o, Tidy s → HandsOver cfg s i →
      s.step cfg build i = .ok (s', o) → Tidy s' :=
    fun s i s' o htidy hover hi => tidy_step htidy hover hi
  have htidy : Tidy (.new B mixer device) := fun m hm => absurd hm List.not_mem_nil
  exact ⟨hiff, fun hover => hiff.mpr (along_of_along hgives hkeep htidy hover)⟩

instance (cfg : EndpointConfig) (s : System B) : ∀ i, Decidable (Addressed cfg s i)
  | .control _ => inferInstanceAs (Decidable (∀ m ∈ s.control.head?, ∀ k ∈ m.2, _))
  | .transport _ => .isTrue trivial
  | .audio _ _ => .isTrue trivial
  | .handle _ _ => .isTrue trivial
  | .app _ => .isTrue trivial

/-- `serde_json`'s text of a proposal, beside the others. -/
def proposalConfig : EndpointConfig :=
  { sampleConfig with
    serde := .table [
      (Control.sampleHello, ["\x7b\"type\":\"hello\",\"protocol_version\":1,",
        "\"controller_id\":\"c\",", "\"controller_name\":\"n\",",
        "\"clock_port\":9742,\"features\":[]\x7d"]),
      (.formatPropose (Cli.stereoProposal "a" 48000), ["\x7b\"type\":\"format_propose\",",
        "\"stream_id\":\"a\",", "\"format\":\"PCM_S16LE\",", "\"sample_rate\":48000,",
        "\"channels\":2,", "\"channel_layout\":\"stereo\",", "\"bits_per_sample\":16,",
        "\"dsd_rate\":null\x7d"])] }

/-- The controller's message arrives. -/
def receives (msg : Message) : SystemInput (cpalBackend Cpal.pcmOnly) :=
  .transport (reading (msg.encodeFramed proposalConfig.serde))

/-- A controller connects, greets and proposes a stream. -/
def proposing : List (SystemInput (cpalBackend Cpal.pcmOnly)) :=
  [.transport .accept, receives Control.sampleHello,
   receives (.formatPropose (Cli.stereoProposal "a" 48000))]

/-- The application takes up the events of a proposal, and its confirmation goes to
the session. -/
def confirming : List (SystemInput (cpalBackend Cpal.pcmOnly)) :=
  List.replicate 3 (.handle (Cli.localWorld 0 0) Cli.willing) ++ [.control false]

/-- The next controller connects and greets. -/
def reconnecting : List (SystemInput (cpalBackend Cpal.pcmOnly)) :=
  [.transport (reading []), .transport .accept, receives Control.sampleHello]

/-- What a run from the start writes. -/
def written (inputs : List (SystemInput (cpalBackend Cpal.pcmOnly))) : Option (List Written) :=
  viewRun (System.step proposalConfig .release) (fun _ log => log) (.new _ false none) inputs

/-- The application is quick. -/
theorem sessions_isolated_quick :
    written (proposing ++ confirming ++ reconnecting) =
        some [⟨1, proposalConfig.helloAck, none⟩, ⟨1, .formatAccept "a", some 1⟩,
          ⟨2, proposalConfig.helloAck, none⟩] ∧
      Throughout (System.step proposalConfig .release) (fun _ log => Isolated log)
        (.new (cpalBackend Cpal.pcmOnly) false none) (proposing ++ confirming ++ reconnecting) := by
  have hwritten : written (proposing ++ confirming ++ reconnecting) =
      some [⟨1, proposalConfig.helloAck, none⟩, ⟨1, .formatAccept "a", some 1⟩,
        ⟨2, proposalConfig.helloAck, none⟩] := by
    decide +kernel
  obtain ⟨s, _, hrun, rfl⟩ := run_of_viewRun hwritten
  refine ⟨hwritten, (sessions_isolated_iff proposalConfig .release hrun).1.mpr ?_⟩
  decide +kernel

/-- The application is slow: its confirmation of the first session's stream is
written to the second. -/
theorem confirmation_misdirected :
    written (proposing ++ reconnecting ++ confirming) =
        some [⟨1, proposalConfig.helloAck, none⟩, ⟨2, proposalConfig.helloAck, none⟩,
          ⟨2, .formatAccept "a", some 1⟩] ∧
      ¬ Throughout (System.step proposalConfig .release) (fun _ log => Isolated log)
        (.new (cpalBackend Cpal.pcmOnly) false none) (proposing ++ reconnecting ++ confirming) := by
  have hwritten : written (proposing ++ reconnecting ++ confirming) =
      some [⟨1, proposalConfig.helloAck, none⟩, ⟨2, proposalConfig.helloAck, none⟩,
        ⟨2, .formatAccept "a", some 1⟩] := by
    decide +kernel
  refine ⟨hwritten, ?_⟩
  intro hall
  obtain ⟨s, _, hrun, rfl⟩ := run_of_viewRun hwritten
  have hiso : Isolated _ := hall _ [] s _ (List.append_nil _).symm hrun
  have hle : 2 ≤ 1 := hiso ⟨2, .formatAccept "a", some 1⟩ (by simp) 1 rfl
  omega

end Oaat.Sessions
