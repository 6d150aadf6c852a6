/-
Oaat.Ffi.Stream — what a C host is given of a stream.

Two tasks of the transport fill the event channel, the session's and the audio
loop's, each waiting for room on its own, and the host polls when it likes.
Whatever the order, the host gets each event once and in the order of the
channel, and each audio packet with the rate and channels of the proposal that
was sent last before it (`heard`).

The session tells its application of every proposal, also of one that it does
not accept, and of a next track with another rate by an event that has no C
mapping. So the rate that the host is told is the session's only under a
condition on both (`TellsRate`).
-/
import Oaat.Ffi.EndpointApi
import Oaat.Lib.Run

namespace Oaat.Ffi

open Oaat.Core Oaat.Endpoint Oaat.Lib
open Oaat.Cli (Event)

/-! ## The endpoint with its transport -/

structure Sdk where
  /-- The session of the connection, after its `Hello`. -/
  session : Option (Hello × Session)
  /-- The events of its current arm that are not in the channel yet. -/
  pending : List Event
  endpoint : OaatEndpoint

inductive SdkAction where
  /-- A `Hello` of this protocol version. -/
  | connect (hello : Hello)
  | message (msg : Message) (now : Nat)
  /-- The session takes the host's message off the control channel. -/
  | control
  /-- The session's task finds room for its next event. -/
  | push
  /-- The audio loop finds room for a packet. -/
  | audio (header : AudioPacketHeader) (payload : List UInt8)
  /-- The end of the connection's stream, before its `Hello` or after it. -/
  | disconnect
  /-- The session ends on an error, of a read or a write or in a frame. -/
  | fail
  | poll
  | setCallback (callback : Option Nat) (userData : Nat)
  | setVolume (level : UInt8)

/-- What happens at the interface. -/
inductive Seen where
  | sent (e : Event)
  | returned (e : OaatEvent)
  | called (c : AudioCall)

namespace Sdk

def new : Sdk := { session := none, pending := [], endpoint := .new }

/-- An arm of the session ran. -/
def after (s : Sdk) (hello : Hello) (e : Effects) : Sdk :=
  { s with session := some (hello, e.session), pending := e.events.map .control }

/-- An event goes into the channel. -/
def send (s : Sdk) (e : Event) : Except Blocked (Sdk × List Seen) :=
  match s.endpoint.sendEvent e with
  | none => .error .blocked
  | some endpoint => .ok ({ s with endpoint }, [.sent e])

/-- The session's task goes on once it has sent its events. -/
def onceSent (s : Sdk) (next : Option Sdk) : Except Blocked (Sdk × List Seen) :=
  match s.pending, next with
  | [], some s => .ok (s, [])
  | _, _ => .error .blocked

/-- The fail-open timer never runs: no accept is deferred. -/
def step (display : OaatError → String) (s : Sdk) : SdkAction → Except Blocked (Sdk × List Seen)
  | .connect hello =>
    s.onceSent
      (if s.session.isNone then
        some { s with
          session := some (hello, .new)
          pending := [.connected hello.controllerId hello.controllerName] }
      else none)
  | .message msg now =>
    s.onceSent <| s.session.map fun (hello, session) =>
      s.after hello (controllerMessage (OaatEndpoint.session hello) session now msg)
  | .control =>
    s.onceSent <|
      match s.session, s.endpoint.control with
      | some (hello, session), msg :: control =>
        some ({ s with endpoint := { s.endpoint with control } }.after hello
          (controlMessage (OaatEndpoint.session hello) session msg))
      | _, _ => none
  | .push =>
    match s.pending with
    | [] => .error .blocked
    | e :: pending => { s with pending }.send e
  | .audio header payload => s.send (.audioPacket header payload)
  | .disconnect => s.onceSent (some { s with session := none, pending := [.disconnected] })
  | .fail => s.onceSent (some { s with session := none })
  | .poll =>
    let (endpoint, event, called) := s.endpoint.pollEvent display
    .ok ({ s with endpoint }, .returned event :: called.map .called)
  | .setCallback callback userData =>
    .ok ({ s with endpoint := s.endpoint.setAudioCallback callback userData }, [])
  | .setVolume level => .ok ({ s with endpoint := s.endpoint.setVolume level }, [])

end Sdk

/-- What a step does. -/
inductive Stepped (display : OaatError → String) (s : Sdk) :
    SdkAction → Sdk → List Seen → Prop where
  | connect {hello : Hello} (hsession : s.session = none) (hsent : s.pending = []) :
    Stepped display s (.connect hello)
      { s with
        session := some (hello, .new)
        pending := [.connected hello.controllerId hello.controllerName] } []
  | message {msg : Message} {now : Nat} {hello : Hello} {session : Session}
      (hsession : s.session = some (hello, session)) (hsent : s.pending = []) :
    Stepped display s (.message msg now)
      (s.after hello (controllerMessage (OaatEndpoint.session hello) session now msg)) []
  | control {hello : Hello} {session : Session} {msg : Message} {control : List Message}
      (hsession : s.session = some (hello, session)) (hsent : s.pending = []) :
    Stepped display s .control
      ({ s with endpoint := { s.endpoint with control } }.after hello
        (controlMessage (OaatEndpoint.session hello) session msg)) []
  | push {e : Event} {pending : List Event} (hpending : s.pending = e :: pending) :
    Stepped display s .push
      { s with pending, endpoint := { s.endpoint with events := s.endpoint.events ++ [e] } }
      [.sent e]
  | audio {header : AudioPacketHeader} {payload : List UInt8} :
    Stepped display s (.audio header payload)
      { s with
        endpoint :=
          { s.endpoint with events := s.endpoint.events ++ [.audioPacket header payload] } }
      [.sent (.audioPacket header payload)]
  | disconnect (hsent : s.pending = []) :
    Stepped display s .disconnect { s with session := none, pending := [.disconnected] } []
  | fail (hsent : s.pending = []) : Stepped display s .fail { s with session := none } []
  | timeout (hempty : s.endpoint.events = []) : Stepped display s .poll s [.returned .none]
  | poll {e : Event} {es : List Event} {endpoint : OaatEndpoint} {event : OaatEvent}
      {called : List AudioCall} (hevents : s.endpoint.events = e :: es)
      (hconverted :
        { s.endpoint with events := es }.convertEvent display e = (endpoint, event, called)) :
    Stepped display s .poll { s with endpoint } (.returned event :: called.map .called)
  | setCallback {callback : Option Nat} {userData : Nat} :
    Stepped display s (.setCallback callback userData)
      { s with endpoint := s.endpoint.setAudioCallback callback userData } []
  | setVolume {level : UInt8} {control : List Message} :
    Stepped display s (.setVolume level) { s with endpoint := { s.endpoint with control } } []

section

variable {display : OaatError → String} {s s' : Sdk} {a : SdkAction} {o : List Seen}

/-- What goes into the channel goes to its end. -/
theorem send_inv {e : Event} (hok : s.send e = .ok (s', o)) :
    s' = { s with endpoint := { s.endpoint with events := s.endpoint.events ++ [e] } } ∧
      o = [.sent e] := by
  unfold Sdk.send OaatEndpoint.sendEvent at hok
  split at hok
  next => cases hok
  next endpoint hsend =>
    split at hsend
    next =>
      cases hsend
      cases hok
      exact ⟨rfl, rfl⟩
    next => cases hsend

theorem onceSent_inv {next : Option Sdk} (hok : s.onceSent next = .ok (s', o)) :
    s.pending = [] ∧ next = some s' ∧ o = [] := by
  unfold Sdk.onceSent at hok
  split at hok
  next hpending =>
    cases hok
    exact ⟨hpending, rfl, rfl⟩
  next => cases hok

theorem stepped (hok : s.step display a = .ok (s', o)) : Stepped display s a s' o := by
  cases a with
  | connect hello =>
    obtain ⟨hsent, hnext, rfl⟩ := onceSent_inv hok
    split at hnext
    next hnone =>
      cases hnext
      exact .connect (Option.isNone_iff_eq_none.mp hnone) hsent
    next => cases hnext
  | message msg now =>
    obtain ⟨hsent, hnext, rfl⟩ := onceSent_inv hok
    obtain ⟨⟨hello, session⟩, hsession, rfl⟩ := Option.map_eq_some_iff.mp hnext
    exact .message hsession hsent
  | control =>
    obtain ⟨hsent, hnext, rfl⟩ := onceSent_inv hok
    split at hnext
    next hello session msg control hsession _ =>
      cases hnext
      exact .control hsession hsent
    next => cases hnext
  | push =>
    simp only [Sdk.step] at hok
    split at hok
    next => cases hok
    next e pending hpending =>
      obtain ⟨rfl, rfl⟩ := send_inv hok
      exact .push hpending
  | audio header payload =>
    obtain ⟨rfl, rfl⟩ := send_inv hok
    exact .audio
  | disconnect =>
    obtain ⟨hsent, hnext, rfl⟩ := onceSent_inv hok
    cases hnext
    exact .disconnect hsent
  | fail =>
    obtain ⟨hsent, hnext, rfl⟩ := onceSent_inv hok
    cases hnext
    exact .fail hsent
  | poll =>
    simp only [Sdk.step, OaatEndpoint.pollEvent] at hok
    split at hok
    next hempty =>
      cases hok
      exact .timeout hempty
    next e es hevents =>
      cases hok
      exact .poll hevents rfl
  | setCallback callback userData =>
    cases hok
    exact .setCallback
  | setVolume level =>
    cases hok
    unfold OaatEndpoint.setVolume
    split
    · exact .setVolume
    · exact .setVolume

end

/-! ## Labels -/

/-- The sample rate and the channels of a proposal. -/
abbrev Label := UInt32 × UInt8

def relabel (l : Label) : Event → Label
  | .control (.formatProposed fp) => (fp.sampleRate, fp.channels)
  | _ => l

/-- The audio packets of a stream of events, each with the label of the proposal
before it. -/
def heard (l : Label) : List Event → List (List UInt8 × AudioFormat × Label)
  | [] => []
  | .audioPacket header payload :: es => (payload, header.format, l) :: heard l es
  | e :: es => heard (relabel l e) es

theorem heard_append (l : Label) (es es' : List Event) :
    heard l (es ++ es') = heard l es ++ heard (es.foldl relabel l) es' := by
  induction es generalizing l with
  | nil => rfl
  | cons e es ih =>
    cases e with
    | audioPacket header payload =>
      rw [List.cons_append, heard, heard, ih, List.cons_append]
      rfl
    | _ => exact ih _

def OaatEndpoint.label (ep : OaatEndpoint) : Label := (ep.audioCb.sampleRate, ep.audioCb.channels)

/-- The callback with an audio packet. -/
def callOf (callback userData : Nat) (p : List UInt8 × AudioFormat × Label) : AudioCall :=
  { callback, userData, data := p.1, format := p.2.1, sampleRate := p.2.2.1, channels := p.2.2.2 }

/-- What the host is returned for an event. -/
def shown (display : OaatError → String) (e : Event) : OaatEvent :=
  (OaatEndpoint.new.convertEvent display e).2.1

section

variable {display : OaatError → String} {ep : OaatEndpoint}

/-- What an event does on its way to the host. -/
structure Converted (display : OaatError → String) (ep : OaatEndpoint) (e : Event)
    (ep' : OaatEndpoint) (event : OaatEvent) (called : List AudioCall) : Prop where
  events : ep'.events = ep.events
  callback : ep'.audioCb.callback = ep.audioCb.callback
  userData : ep'.audioCb.userData = ep.audioCb.userData
  label : ep'.label = relabel ep.label e
  event_eq : event = shown display e
  called_eq : ∀ callback, ep.audioCb.callback = some callback →
    called = (heard ep.label [e]).map (callOf callback ep.audioCb.userData)

theorem convertEvent_spec (display : OaatError → String) (ep : OaatEndpoint) (e : Event) :
    Converted display ep e (ep.convertEvent display e).1 (ep.convertEvent display e).2.1
      (ep.convertEvent display e).2.2 := by
  cases e with
  | connected controllerId controllerName => exact ⟨rfl, rfl, rfl, rfl, rfl, fun _ _ => rfl⟩
  | control e =>
    cases e with
    | playback cmd => cases cmd <;> exact ⟨rfl, rfl, rfl, rfl, rfl, fun _ _ => rfl⟩
    | volume cmd => cases cmd <;> exact ⟨rfl, rfl, rfl, rfl, rfl, fun _ _ => rfl⟩
    | _ => exact ⟨rfl, rfl, rfl, rfl, rfl, fun _ _ => rfl⟩
  | audioPacket header payload =>
    refine ⟨rfl, rfl, rfl, rfl, rfl, fun callback hcallback => ?_⟩
    simp only [OaatEndpoint.convertEvent, hcallback]
    rfl
  | disconnected => exact ⟨rfl, rfl, rfl, rfl, rfl, fun _ _ => rfl⟩
  | error e => exact ⟨rfl, rfl, rfl, rfl, rfl, fun _ _ => rfl⟩

end

/-! ## The host gets the stream -/

def sentOf (log : List Seen) : List Event :=
  log.filterMap fun
    | .sent e => some e
    | _ => none

def calledOf (log : List Seen) : List AudioCall :=
  log.filterMap fun
    | .called c => some c
    | _ => none

/-- What the host is returned, apart from `OAAT_EVENT_NONE`. -/
def returnedOf (log : List Seen) : List OaatEvent :=
  (log.filterMap fun
    | .returned e => some e
    | _ => none).filter (· ≠ .none)

/-- The events with a C mapping, as the host is returned them. -/
def mapped (display : OaatError → String) (es : List Event) : List OaatEvent :=
  (es.map (shown display)).filter (· ≠ .none)

/-- The callback stays registered: what was sent is what the host got, and what is
in the channel. -/
structure Given (display : OaatError → String) (callback userData : Nat) (s : Sdk)
    (log : List Seen) : Prop where
  callback_eq : s.endpoint.audioCb.callback = some callback
  userData_eq : s.endpoint.audioCb.userData = userData
  label : (sentOf log).foldl relabel (0, 0) = s.endpoint.events.foldl relabel s.endpoint.label
  calls : (heard (0, 0) (sentOf log)).map (callOf callback userData) =
    calledOf log ++ (heard s.endpoint.label s.endpoint.events).map (callOf callback userData)
  returned : mapped display (sentOf log) = returnedOf log ++ mapped display s.endpoint.events

section

variable {display : OaatError → String} {callback userData : Nat} {s s' : Sdk}
  {log o : List Seen} {a : SdkAction}

theorem mapped_append (es es' : List Event) :
    mapped display (es ++ es') = mapped display es ++ mapped display es' := by
  rw [mapped, List.map_append, List.filter_append]
  rfl

/-- One more event goes into the channel. -/
theorem Given.sent (h : Given display callback userData s log) {e : Event}
    (hendpoint :
      s'.endpoint = { s.endpoint with events := s.endpoint.events ++ [e] }) :
    Given display callback userData s' (log ++ [.sent e]) := by
  have hsent : sentOf (log ++ [.sent e]) = sentOf log ++ [e] := List.filterMap_append
  have hcalled : calledOf (log ++ [.sent e]) = calledOf log := by
    rw [calledOf, List.filterMap_append]
    exact List.append_nil _
  have hreturned : returnedOf (log ++ [.sent e]) = returnedOf log := by
    rw [returnedOf, List.filterMap_append]
    exact congrArg (List.filter _) (List.append_nil _)
  have hevents : s'.endpoint.events = s.endpoint.events ++ [e] := by
    rw [hendpoint]
  have hlabel : s'.endpoint.label = s.endpoint.label := by
    rw [hendpoint]
    rfl
  refine ⟨?_, ?_, ?_, ?_, ?_⟩
  · rw [hendpoint]
    exact h.callback_eq
  · rw [hendpoint]
    exact h.userData_eq
  · rw [hsent, hevents, hlabel, List.foldl_append, h.label, List.foldl_append]
  · rw [hsent, hcalled, hevents, hlabel, heard_append, List.map_append, h.calls, h.label,
      List.append_assoc, ← List.map_append, ← heard_append]
  · rw [hsent, hreturned, hevents, mapped_append, h.returned, List.append_assoc, ← mapped_append]

/-- Nothing is sent, and the host gets nothing. -/
theorem Given.of_same (h : Given display callback userData s log) {log' : List Seen}
    (hevents : s'.endpoint.events = s.endpoint.events)
    (hcb : s'.endpoint.audioCb = s.endpoint.audioCb) (hsent : sentOf log' = sentOf log)
    (hcalled : calledOf log' = calledOf log) (hreturned : returnedOf log' = returnedOf log) :
    Given display callback userData s' log' := by
  have hlabel : s'.endpoint.label = s.endpoint.label := by
    rw [OaatEndpoint.label, hcb]
    rfl
  refine ⟨hcb ▸ h.callback_eq, hcb ▸ h.userData_eq, ?_, ?_, ?_⟩
  · rw [hsent, hevents, hlabel]
    exact h.label
  · rw [hsent, hcalled, hevents, hlabel]
    exact h.calls
  · rw [hsent, hreturned, hevents]
    exact h.returned

/-- What a poll adds to what was seen. -/
theorem polled_log (log : List Seen) (event : OaatEvent) (called : List AudioCall) :
    sentOf (log ++ .returned event :: called.map .called) = sentOf log ∧
      calledOf (log ++ .returned event :: called.map .called) = calledOf log ++ called ∧
      returnedOf (log ++ .returned event :: called.map .called) =
        returnedOf log ++ [event].filter (· ≠ .none) := by
  have hsent : sentOf (called.map .called) = [] := by
    rw [sentOf, List.filterMap_map, List.filterMap_eq_nil_iff]
    exact fun _ _ => rfl
  have hcalled : calledOf (called.map .called) = called := by
    rw [calledOf, List.filterMap_map]
    exact List.filterMap_some
  refine ⟨?_, ?_, ?_⟩
  · rw [sentOf, List.filterMap_append]
    exact (congrArg (sentOf log ++ ·) hsent).trans (List.append_nil _)
  · rw [calledOf, List.filterMap_append]
    exact congrArg (calledOf log ++ ·) hcalled
  · have hnone : ∀ c ∈ called.map Seen.called, (match c with
        | .returned e => some e
        | _ => none : Option OaatEvent) = none := by
      intro c hc
      obtain ⟨_, _, rfl⟩ := List.mem_map.mp hc
      rfl
    rw [returnedOf, List.filterMap_append, List.filter_append, List.filterMap_cons,
      List.filterMap_eq_nil_iff.mpr hnone]
    rfl

/-- A poll moves one event on. -/
theorem Given.polled (h : Given display callback userData s log) {e : Event} {es : List Event}
    {endpoint : OaatEndpoint} {event : OaatEvent} {called : List AudioCall}
    (hevents : s.endpoint.events = e :: es)
    (hspec : Converted display { s.endpoint with events := es } e endpoint event called) :
    Given display callback userData { s with endpoint }
      (log ++ .returned event :: called.map .called) := by
  obtain ⟨hsent, hcalled, hreturned⟩ := polled_log log event called
  have hrest : endpoint.events = es := hspec.events
  have hlabel : endpoint.label = relabel s.endpoint.label e := hspec.label
  have hcall : called = (heard s.endpoint.label [e]).map (callOf callback userData) := by
    rw [hspec.called_eq callback h.callback_eq, ← h.userData_eq]
    rfl
  refine ⟨hspec.callback.trans h.callback_eq, hspec.userData.trans h.userData_eq, ?_, ?_, ?_⟩
  · rw [hsent, h.label, hevents, hrest, hlabel, List.foldl_cons]
  · rw [hsent, hcalled, h.calls, hevents, hrest, hlabel, hcall, List.append_assoc,
      ← List.map_append]
    exact congrArg (fun p => calledOf log ++ p.map (callOf callback userData))
      (heard_append s.endpoint.label [e] es)
  · rw [hsent, hreturned, h.returned, hevents, hrest, hspec.event_eq, List.append_assoc]
    exact congrArg (returnedOf log ++ ·) (mapped_append [e] es)

/-- **The step rule.** -/
theorem given_step (h : Given display callback userData s log)
    (ha : ∀ cb ud, a ≠ .setCallback cb ud) (hok : s.step display a = .ok (s', o)) :
    Given display callback userData s' (log ++ o) := by
  cases stepped hok with
  | push hpending => exact h.sent rfl
  | audio => exact h.sent rfl
  | timeout hempty =>
    obtain ⟨hsent, hcalled, hreturned⟩ := polled_log log .none []
    rw [List.append_nil] at hcalled
    rw [List.filter_cons_of_neg (by simp), List.filter_nil, List.append_nil] at hreturned
    exact h.of_same rfl rfl hsent hcalled hreturned
  | @poll e es endpoint event called hevents hconverted =>
    have hspec := convertEvent_spec display { s.endpoint with events := es } e
    rw [hconverted] at hspec
    exact h.polled hevents hspec
  | setCallback => exact absurd rfl (ha _ _)
  | _ =>
    rw [List.append_nil]
    exact h.of_same rfl rfl rfl rfl rfl

/-- **The host gets the stream.** From when a callback is registered, with the
transport's two tasks, the network and the host's polls in any order: what the
callback was called with, and what it will be called with for what is still in
the channel, are the audio packets sent, in their order and each once, with the
rate and channels of the proposal sent before them. What the polls returned is
every event with a C mapping, in its order and once. -/
theorem host_gets_stream {acts : List SdkAction} {t : Sdk}
    (ha : ∀ cb ud, .setCallback cb ud ∉ acts)
    (hrun : run (Sdk.step display)
      { Sdk.new with endpoint := OaatEndpoint.new.setAudioCallback (some callback) userData } acts =
        .ok (t, log)) :
    calledOf log ++ (heard t.endpoint.label t.endpoint.events).map (callOf callback userData) =
        (heard (0, 0) (sentOf log)).map (callOf callback userData) ∧
      returnedOf log ++ mapped display t.endpoint.events = mapped display (sentOf log) := by
  have hgiven : Throughout (Sdk.step display) (Given display callback userData)
      { Sdk.new with endpoint := OaatEndpoint.new.setAudioCallback (some callback) userData }
      acts := by
    refine throughout_of_step_in (A := fun a => ∀ cb ud, a ≠ .setCallback cb ud)
      (fun s log a s' o hA h hok => given_step h hA hok) ⟨rfl, rfl, rfl, rfl, rfl⟩ ?_
    rintro a hmem cb ud rfl
    exact ha cb ud hmem
  have h := hgiven acts [] t log (List.append_nil _).symm hrun
  exact ⟨h.calls.symm, h.returned.symm⟩

end

def sampleHello : Hello :=
  { protocolVersion := PROTOCOL_VERSION, controllerId := "c", controllerName := "controller",
    clockPort := 9742, features := [] }

def samplePropose : FormatPropose :=
  { streamId := "s", format := .pcmS16le, sampleRate := 48000, channels := 2,
    channelLayout := .stereo, bitsPerSample := 16, dsdRate := none }

def sampleHeader : AudioPacketHeader :=
  { version := 1, flags := .empty, format := .pcmS16le, sequence := 0, streamId := 1, ptsNs := 1000,
    sampleOffset := 0, payloadLen := 4, fecGroupSize := 0, fecIndex := 0, fecLenXor := 0 }

/-- A callback is registered. -/
def hosted : Sdk := { Sdk.new with endpoint := OaatEndpoint.new.setAudioCallback (some 7) 1 }

/-- The host polls once the packet is in the channel. -/
def onePacket : List SdkAction :=
  [.connect sampleHello, .push, .message (.formatPropose samplePropose) 0, .push, .push,
    .audio sampleHeader [1, 0, 2, 0], .poll, .poll, .poll, .poll]

theorem host_gets_stream_onePacket :
    (run (Sdk.step fun _ => "") hosted onePacket).map (fun r => calledOf r.2) =
      .ok [{ callback := 7, userData := 1, data := [1, 0, 2, 0], format := .pcmS16le,
             sampleRate := 48000, channels := 2 }] ∧
    ∀ t log, run (Sdk.step fun _ => "") hosted onePacket = .ok (t, log) →
      calledOf log ++ (heard t.endpoint.label t.endpoint.events).map (callOf 7 1) =
        (heard (0, 0) (sentOf log)).map (callOf 7 1) := by
  refine ⟨by decide +kernel, ?_⟩
  intro t log hrun
  exact (host_gets_stream (by simp [onePacket]) hrun).1

/-! ## The rate the host is told -/

/-- The rate of the callback when all that is on its way has been polled. -/
def Sdk.toldRate (s : Sdk) : UInt32 :=
  ((s.endpoint.events ++ s.pending).foldl relabel s.endpoint.label).1

/-- The rate that the session takes for the current one. -/
def Sdk.sessionRate (s : Sdk) : Option UInt32 := s.session.bind (·.2.currentSampleRate)

def RateTold (s : Sdk) : Prop := ∀ r ∈ s.sessionRate, s.toldRate = r

/-- A proposal that is not accepted has the session's rate, and a next track the
rate that the host was told. -/
def TellsRate (s : Sdk) : SdkAction → Prop
  | .message (.formatPropose fp) _ =>
    isFormatAccept (negotiateFormat OaatEndpoint.capabilities fp) = true ∨
      ∀ r ∈ s.sessionRate, fp.sampleRate = r
  | .message (.nextTrackPrepare ntp) _ => s.toldRate = ntp.sampleRate
  | _ => True

section

variable {display : OaatError → String} {s s' : Sdk} {a : SdkAction} {o : List Seen}
  {hello : Hello} {session : Session}

theorem formatPropose_rate (cfg : SessionConfig) (session : Session) (fp : FormatPropose)
    (now : Nat) :
    (formatPropose cfg session fp now).session.currentSampleRate =
      if isFormatAccept (negotiateFormat cfg.capabilities fp) = true then some fp.sampleRate
      else session.currentSampleRate := by
  unfold formatPropose
  cases deferred cfg fp <;> cases negotiateFormat cfg.capabilities fp <;> rfl

/-- Whether it is ready or takes another format, the next track's rate is current. -/
theorem nextTrackPrepare_rate (session : Session) (ntp : NextTrackPrepare) :
    (nextTrackPrepare session ntp).session.currentSampleRate = some ntp.sampleRate := by
  unfold nextTrackPrepare
  split
  next hsame =>
    simp only [Bool.and_eq_true, decide_eq_true_eq] at hsame
    exact hsame.2
  next => rfl

theorem controlMessage_rate (cfg : SessionConfig) (session : Session) (msg : Message) :
    (controlMessage cfg session msg).session.currentSampleRate = session.currentSampleRate ∧
      (controlMessage cfg session msg).events = [] := by
  unfold controlMessage
  repeat' split
  all_goals exact ⟨rfl, rfl⟩

/-- Only these two arms touch the rate. -/
theorem controllerMessage_rate (cfg : SessionConfig) (session : Session) (now : Nat)
    {msg : Message} (hpropose : ∀ fp, msg ≠ .formatPropose fp)
    (hprepare : ∀ ntp, msg ≠ .nextTrackPrepare ntp) :
    (controllerMessage cfg session now msg).session.currentSampleRate =
      session.currentSampleRate := by
  cases msg with
  | formatPropose fp => exact absurd rfl (hpropose fp)
  | nextTrackPrepare ntp => exact absurd rfl (hprepare ntp)
  | _ => rfl

theorem foldl_relabel_control {es : List EndpointEvent} (hes : ∀ fp, .formatProposed fp ∉ es)
    (l : Label) : (es.map Event.control).foldl relabel l = l := by
  induction es generalizing l with
  | nil => rfl
  | cons e es ih =>
    have hrest : ∀ fp, .formatProposed fp ∉ es := fun fp hfp => hes fp (List.mem_cons_of_mem e hfp)
    rw [List.map_cons, List.foldl_cons, ih hrest]
    cases e with
    | formatProposed fp => exact absurd (List.mem_cons_self ..) (hes fp)
    | _ => rfl

/-- An arm without a proposal tells the host no rate. -/
theorem toldRate_after {e : Effects} (hsent : s.pending = [])
    (he : ∀ fp, .formatProposed fp ∉ e.events) : (s.after hello e).toldRate = s.toldRate := by
  change ((s.endpoint.events ++ e.events.map Event.control).foldl relabel s.endpoint.label).1 = _
  rw [List.foldl_append, foldl_relabel_control he, Sdk.toldRate, hsent, List.append_nil]

theorem toldRate_formatPropose (cfg : SessionConfig) (fp : FormatPropose) (now : Nat) :
    (s.after hello (formatPropose cfg session fp now)).toldRate = fp.sampleRate := by
  obtain ⟨verdict, hevents, -⟩ := formatPropose_events cfg session fp now
  change ((s.endpoint.events ++ (formatPropose cfg session fp now).events.map
    Event.control).foldl relabel s.endpoint.label).1 = _
  rw [hevents, List.map_append, ← List.append_assoc, List.foldl_append]
  rfl

/-- A decoded message. -/
theorem rateTold_message_iff {msg : Message} {now : Nat} (h : RateTold s)
    (hsession : s.session = some (hello, session)) (hsent : s.pending = []) :
    RateTold (s.after hello (controllerMessage (OaatEndpoint.session hello) session now msg)) ↔
      TellsRate s (.message msg now) := by
  have hrate : s.sessionRate = session.currentSampleRate := by
    rw [Sdk.sessionRate, hsession]
    rfl
  by_cases hpropose : ∃ fp, msg = .formatPropose fp
  · obtain ⟨fp, rfl⟩ := hpropose
    rw [controllerMessage_formatPropose]
    change (∀ r ∈ (formatPropose (OaatEndpoint.session hello) session fp
      now).session.currentSampleRate, _ = r) ↔ _ ∨ _
    rw [formatPropose_rate, toldRate_formatPropose, hrate]
    by_cases haccept :
      isFormatAccept (negotiateFormat OaatEndpoint.capabilities fp) = true
    · refine iff_of_true ?_ (.inl haccept)
      intro r hr
      rw [OaatEndpoint.session, if_pos haccept] at hr
      exact Option.some.inj hr
    · rw [OaatEndpoint.session, if_neg haccept]
      exact (or_iff_right haccept).symm
  by_cases hprepare : ∃ ntp, msg = .nextTrackPrepare ntp
  · obtain ⟨ntp, rfl⟩ := hprepare
    rw [controllerMessage_nextTrackPrepare]
    change (∀ r ∈ (nextTrackPrepare session ntp).session.currentSampleRate, _ = r) ↔ _ = _
    rw [nextTrackPrepare_rate, toldRate_after hsent (nextTrackPrepare_quiet session ntp).2.2]
    exact ⟨fun hall => hall _ rfl, fun heq r hr => heq.trans (Option.some.inj hr)⟩
  · have hother := not_exists.mp hpropose
    refine iff_of_true ?_ ?_
    · change ∀ r ∈ (controllerMessage (OaatEndpoint.session hello) session now
        msg).session.currentSampleRate, _ = r
      rw [controllerMessage_rate _ _ _ hother (not_exists.mp hprepare),
        toldRate_after hsent (controllerMessage_other _ _ _ hother).2.2, ← hrate]
      exact h
    · cases msg with
      | formatPropose fp => exact absurd rfl (hother fp)
      | nextTrackPrepare ntp => exact absurd ⟨ntp, rfl⟩ hprepare
      | _ => trivial

/-- **The step rule**, exactly. -/
theorem rateTold_step_iff (h : RateTold s) (hok : s.step display a = .ok (s', o)) :
    RateTold s' ↔ TellsRate s a := by
  cases stepped hok with
  | message hsession hsent => exact rateTold_message_iff h hsession hsent
  | @control hello session msg control hsession hsent =>
    refine iff_of_true ?_ trivial
    obtain ⟨hsame, hnone⟩ := controlMessage_rate (OaatEndpoint.session hello) session msg
    intro r hr
    have hrate : r ∈ s.sessionRate := by
      rw [Sdk.sessionRate, hsession]
      exact hsame.symm.trans hr
    rw [toldRate_after (s := { s with endpoint := { s.endpoint with control } }) hsent
      (by simp [hnone])]
    exact h r hrate
  | @push e pending hpending =>
    have hwaiting : s.endpoint.events ++ [e] ++ pending = s.endpoint.events ++ s.pending := by
      rw [hpending, ← List.append_cons]
    refine iff_of_true (fun r hr => ?_) trivial
    exact (congrArg (fun es => (es.foldl relabel s.endpoint.label).1) hwaiting).trans (h r hr)
  | audio =>
    refine iff_of_true (fun r hr => ?_) trivial
    rw [← h r hr, Sdk.toldRate, Sdk.toldRate, List.foldl_append, List.foldl_append,
      List.foldl_append]
    rfl
  | @poll e es endpoint event called hevents hconverted =>
    refine iff_of_true (fun r hr => ?_) trivial
    have hspec := convertEvent_spec display { s.endpoint with events := es } e
    rw [hconverted] at hspec
    rw [← h r hr, Sdk.toldRate, Sdk.toldRate, hspec.events, hspec.label, hevents]
    rfl
  | connect => exact iff_of_true (fun r hr => by cases hr) trivial
  | disconnect => exact iff_of_true (fun r hr => by cases hr) trivial
  | fail => exact iff_of_true (fun r hr => by cases hr) trivial
  | _ => exact iff_of_true h trivial

/-- **The host is told the rate, exactly.** The rate that it has, with what is on
its way to it, is that of the session throughout a run if and only if every
proposal that is not accepted has the session's rate and every next track the one
that the host was told. -/
theorem rate_told_iff {acts : List SdkAction} {t : Sdk} {log : List Seen}
    (hrun : run (Sdk.step display) Sdk.new acts = .ok (t, log)) :
    Throughout (Sdk.step display) (fun s _ => RateTold s) Sdk.new acts ↔
      Along (Sdk.step display) TellsRate Sdk.new acts :=
  throughout_iff_along acts _ Sdk.new t log
    (fun _ _ _ _ _ h hok => rateTold_step_iff h hok) (fun r hr => by cases hr) hrun

end

/-- The next track is at twice the rate. -/
def nextTrack : List SdkAction :=
  [.connect sampleHello, .push, .message (.formatPropose samplePropose) 0, .push, .push,
    .message (.nextTrackPrepare
      { streamId := "t", format := .pcmS16le, sampleRate := 96000, channels := 2,
        channelLayout := .stereo, bitsPerSample := 16 }) 0]

theorem rate_told_iff_nextTrack :
    ∃ t log, run (Sdk.step fun _ => "") Sdk.new nextTrack = .ok (t, log) ∧
      t.sessionRate = some 96000 ∧ t.toldRate = 48000 ∧
      ¬ Along (Sdk.step fun _ => "") TellsRate Sdk.new nextTrack := by
  have hview : viewRun (Sdk.step fun _ => "") (fun t _ => (t.sessionRate, t.toldRate)) Sdk.new
      nextTrack = some (some 96000, 48000) := by decide +kernel
  obtain ⟨t, log, hrun, hrates⟩ := run_of_viewRun hview
  obtain ⟨hsession, htold⟩ := Prod.mk.injEq .. ▸ hrates
  refine ⟨t, log, hrun, hsession, htold, ?_⟩
  intro halong
  have hsame : t.toldRate = 96000 := (rate_told_iff hrun).mpr halong nextTrack [] t log
    (List.append_nil _).symm hrun 96000 hsession
  rw [htold] at hsame
  exact absurd hsame (by decide)

end Oaat.Ffi
