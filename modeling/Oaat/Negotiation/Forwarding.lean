/-
Oaat.Negotiation.Forwarding — the application's messages during a negotiation.

The control channel carries more than confirmations: it is the "generic
application → controller channel (stream_stats, volume_report, …)". While an
accept is pending, whatever is taken off it that does not resolve the pending
accept is dropped as a stale confirmation. The main theorem says when the
application's messages are forwarded exactly once and in the order sent: when
none of them is taken off the channel while an accept is pending.

The application here sends any message at any time, confirmations included. The
log records what it sends, what the session forwards, and what the session
writes of its own.
-/
import Oaat.Endpoint.Session
import Oaat.Lib.Run

namespace Oaat.Negotiation

open Oaat.Core Oaat.Endpoint Oaat.Lib

/-- A session, the time, and the messages on the control channel. -/
structure Desk where
  session : Session
  now : Nat
  control : List Message

namespace Desk

inductive Entry where
  /-- The application puts a message on the control channel. -/
  | sent (msg : Message)
  /-- The session writes a message that it took off the channel. -/
  | forwarded (msg : Message)
  /-- The session writes a message of its own. -/
  | own (msg : Message)
  deriving Repr, DecidableEq

def Entry.isSent : Entry → Option Message
  | .sent msg => some msg
  | _ => none

def Entry.isForwarded : Entry → Option Message
  | .forwarded msg => some msg
  | _ => none

def start (now : Nat) : Desk := { session := .new, now, control := [] }

inductive Input where
  | send (msg : Message)
  /-- The session takes a message off the control channel, if there is one. -/
  | take
  /-- The fail-open timer, if it is due. -/
  | timer
  /-- A message of the controller; the session waits for room in the event queue. -/
  | receive (msg : Message) (waited : Nat)
  | tick (ns : Nat)

def step (cfg : SessionConfig) (s : Desk) : Input → Except Unit (Desk × List Entry)
  | .send msg => .ok ({ s with control := s.control ++ [msg] }, [.sent msg])
  | .take =>
    match s.control with
    | [] => .ok (s, [])
    | msg :: rest =>
      let e := controlMessage cfg s.session msg
      .ok ({ s with session := e.session, control := rest }, e.writes.map .forwarded)
  | .timer =>
    match acceptTimeout s.session s.now with
    | none => .ok (s, [])
    | some e => .ok ({ s with session := e.session }, e.writes.map .own)
  | .receive msg waited =>
    let now := s.now + waited
    let e := controllerMessage cfg s.session now msg
    .ok ({ s with session := e.session, now }, e.writes.map .own)
  | .tick ns => .ok ({ s with now := s.now + ns }, [])

end Desk

/-- The messages that are forwarded: no confirmations, and releases only to a
controller that handles them. -/
def owed (cfg : SessionConfig) : Message → Bool
  | .formatAccept _ => false
  | .formatReject _ => false
  | .endpointRelease _ => cfg.controllerHandlesRelease
  | _ => true

def isRelease : Message → Bool
  | .endpointRelease _ => true
  | _ => false

section

variable {cfg : SessionConfig} {s s' : Desk} {log o : List Desk.Entry}

/-- What was forwarded and what is still on the channel is what was sent, each
message once and in order. -/
def Faithful (cfg : SessionConfig) (s : Desk) (log : List Desk.Entry) : Prop :=
  (log.filterMap Desk.Entry.isForwarded).filter (owed cfg) ++ s.control.filter (owed cfg) =
    (log.filterMap Desk.Entry.isSent).filter (owed cfg)

/-- No message but a confirmation or a release is taken off the channel while an
accept is pending. -/
def TakenAtRest (cfg : SessionConfig) (s : Desk) : Desk.Input → Prop
  | .take => ∀ msg rest, s.control = msg :: rest → owed cfg msg = true → isRelease msg = false →
      s.session.pendingAccept = none
  | _ => True

/-! ## The control arm -/

/-- A confirmation is not owed, whether it resolves the pending accept or not. -/
theorem not_owed_of_resolvesPending {session : Session} {msg : Message}
    (h : resolvesPending session msg = true) : owed cfg msg = false := by
  unfold resolvesPending at h
  split at h
  next => rfl
  next => rfl
  next => cases h

/-- What of a message that is owed is written. -/
theorem controlMessage_owed (session : Session) (msg : Message) :
    ((controlMessage cfg session msg).writes).filter (owed cfg) =
      if owed cfg msg = true ∧ (isRelease msg = true ∨ session.pendingAccept = none) then [msg]
      else [] := by
  unfold controlMessage
  split
  next er =>
    cases hrelease : cfg.controllerHandlesRelease with
    | true => simp [owed, isRelease, hrelease]
    | false => simp [owed, isRelease, hrelease]
  next hother =>
    have hnot : isRelease msg = false := by
      cases msg with
      | endpointRelease er => exact absurd rfl (hother er)
      | _ => rfl
    split
    next hres => simp [not_owed_of_resolvesPending hres]
    next =>
      cases hpending : session.pendingAccept with
      | some pending => simp [hnot]
      | none =>
        cases howed : owed cfg msg with
        | true => simp [howed]
        | false => simp [howed]

/-! ## One step -/

/-- What the session writes of its own changes nothing. -/
theorem filterMap_own (messages : List Message) :
    (messages.map Desk.Entry.own).filterMap Desk.Entry.isForwarded = [] ∧
      (messages.map Desk.Entry.own).filterMap Desk.Entry.isSent = [] := by
  constructor
  · rw [List.filterMap_map, List.filterMap_eq_nil_iff]
    exact fun _ _ => rfl
  · rw [List.filterMap_map, List.filterMap_eq_nil_iff]
    exact fun _ _ => rfl

theorem faithful_own_iff {session : Session} {now : Nat} (messages : List Message) :
    Faithful cfg { s with session, now } (log ++ messages.map .own) ↔ Faithful cfg s log := by
  unfold Faithful
  rw [List.filterMap_append, List.filterMap_append, (filterMap_own messages).1,
    (filterMap_own messages).2, List.append_nil, List.append_nil]

theorem Faithful.send (h : Faithful cfg s log) (msg : Message) :
    Faithful cfg { s with control := s.control ++ [msg] } (log ++ [.sent msg]) := by
  have hforwarded : (log ++ [Desk.Entry.sent msg]).filterMap Desk.Entry.isForwarded =
      log.filterMap Desk.Entry.isForwarded := by
    rw [List.filterMap_append]
    exact List.append_nil _
  have hsent : (log ++ [Desk.Entry.sent msg]).filterMap Desk.Entry.isSent =
      log.filterMap Desk.Entry.isSent ++ [msg] := List.filterMap_append
  unfold Faithful
  rw [hforwarded, hsent, List.filter_append, List.filter_append, ← List.append_assoc]
  exact congrArg (· ++ [msg].filter (owed cfg)) h

/-- The message taken off the channel is forwarded when it is owed, unless an
accept is pending. -/
theorem faithful_take_iff (h : Faithful cfg s log) {msg : Message} {rest : List Message}
    (hcontrol : s.control = msg :: rest) (session : Session) :
    Faithful cfg { s with session, control := rest }
        (log ++ ((controlMessage cfg s.session msg).writes).map .forwarded) ↔
      (owed cfg msg = true → isRelease msg = false → s.session.pendingAccept = none) := by
  have hforwarded : ∀ messages : List Message,
      (log ++ messages.map Desk.Entry.forwarded).filterMap Desk.Entry.isForwarded =
        log.filterMap Desk.Entry.isForwarded ++ messages := by
    intro messages
    rw [List.filterMap_append, List.filterMap_map]
    exact congrArg _ (List.filterMap_some (l := messages))
  have hsent : ∀ messages : List Message,
      (log ++ messages.map Desk.Entry.forwarded).filterMap Desk.Entry.isSent =
        log.filterMap Desk.Entry.isSent := by
    intro messages
    have hnone : (messages.map Desk.Entry.forwarded).filterMap Desk.Entry.isSent = [] := by
      rw [List.filterMap_map, List.filterMap_eq_nil_iff]
      exact fun _ _ => rfl
    rw [List.filterMap_append, hnone, List.append_nil]
  have hbefore := h
  unfold Faithful at hbefore ⊢
  rw [hcontrol, List.filter_cons] at hbefore
  rw [hforwarded, hsent, List.filter_append, controlMessage_owed, ← hbefore, List.append_assoc]
  cases howed : owed cfg msg with
  | false => simp
  | true =>
    cases hrelease : isRelease msg with
    | true => simp
    | false =>
      cases hpending : s.session.pendingAccept with
      | none => simp
      | some pending => simp

theorem faithful_step_iff {i : Desk.Input} (h : Faithful cfg s log)
    (hstep : Desk.step cfg s i = .ok (s', o)) :
    Faithful cfg s' (log ++ o) ↔ TakenAtRest cfg s i := by
  cases i with
  | send msg =>
    cases hstep
    exact iff_of_true (h.send msg) trivial
  | take =>
    dsimp only [Desk.step] at hstep
    split at hstep
    next hcontrol =>
      cases hstep
      refine iff_of_true (by rwa [List.append_nil]) ?_
      intro msg rest hcons
      rw [hcontrol] at hcons
      cases hcons
    next msg rest hcontrol =>
      cases hstep
      rw [faithful_take_iff h hcontrol]
      constructor
      · intro hrest msg' rest' hcons
        rw [hcontrol] at hcons
        cases hcons
        exact hrest
      · intro hall
        exact hall msg rest hcontrol
  | timer =>
    dsimp only [Desk.step] at hstep
    split at hstep
    next =>
      cases hstep
      exact iff_of_true (by rwa [List.append_nil]) trivial
    next e _ =>
      cases hstep
      exact iff_of_true ((faithful_own_iff e.writes).mpr h) trivial
  | receive msg waited =>
    cases hstep
    exact iff_of_true ((faithful_own_iff _).mpr h) trivial
  | tick ns =>
    cases hstep
    exact iff_of_true ((faithful_own_iff []).mpr h) trivial

/-! ## Runs -/

/-- Every input can be taken. -/
theorem Desk.step_ok (cfg : SessionConfig) (s : Desk) (i : Desk.Input) :
    ∃ r, Desk.step cfg s i = .ok r := by
  unfold Desk.step
  split
  next => exact ⟨_, rfl⟩
  next => split <;> exact ⟨_, rfl⟩
  next => split <;> exact ⟨_, rfl⟩
  next => exact ⟨_, rfl⟩
  next => exact ⟨_, rfl⟩

theorem faithful_start (cfg : SessionConfig) (now : Nat) : Faithful cfg (.start now) [] := rfl

/-- **The application's messages are forwarded exactly once and in the order
sent**, at every point of a run, exactly when no message but a confirmation or a
release is taken off the control channel while an accept is pending. -/
theorem forwarded_in_order_iff (cfg : SessionConfig) (now : Nat) (inputs : List Desk.Input) :
    Throughout (Desk.step cfg) (Faithful cfg) (.start now) inputs ↔
      Along (Desk.step cfg) (TakenAtRest cfg) (.start now) inputs := by
  have hall : Along (Desk.step cfg) (fun _ _ => True) (.start now) inputs :=
    along_of_forall fun _ _ _ => trivial
  obtain ⟨⟨t, out⟩, hrun⟩ := run_ok_of_along (fun s i _ => Desk.step_ok cfg s i) hall
  have hstep : ∀ s log i s' o, Faithful cfg s log → Desk.step cfg s i = .ok (s', o) →
      (Faithful cfg s' (log ++ o) ↔ TakenAtRest cfg s i) :=
    fun s log i s' o h hi => faithful_step_iff h hi
  exact throughout_iff_along inputs _ _ t out hstep (faithful_start cfg now) hrun

end

/-- An endpoint for CD audio that defers its accepts. -/
def deferring : SessionConfig :=
  { capabilities :=
      { pcmMaxRate := 44100, pcmMaxBits := 16, dsdMaxRate := none, channelsMax := 2,
        formats := [.pcmS16le], volume := none, gapless := true, seek := true }
    deferFormatAccept := true
    hello :=
      { protocolVersion := 1, controllerId := "c1", controllerName := "controller",
        clockPort := 0, features := [] } }

/-- The volume is reported while the device is being opened. -/
def reportDuringWait : List Desk.Input :=
  [.receive (.formatPropose
      { streamId := "a", format := .pcmS16le, sampleRate := 44100, channels := 2,
        channelLayout := .stereo, bitsPerSample := 16, dsdRate := none }) 0,
   .send (.volumeReport 40 false), .take, .send (.formatAccept "a"), .take]

/-- The report is dropped: only the confirmation is ever written. -/
theorem report_dropped :
    ∃ s log, run (Desk.step deferring) (.start 0) reportDuringWait = .ok (s, log) ∧
      log.filterMap Desk.Entry.isForwarded = [.formatAccept "a"] ∧ s.control = [] ∧
      log.filterMap Desk.Entry.isSent = [.volumeReport 40 false, .formatAccept "a"] ∧
      ¬ Faithful deferring s log := by
  have hview : viewRun (Desk.step deferring)
      (fun s log => (log.filterMap Desk.Entry.isForwarded, s.control,
        log.filterMap Desk.Entry.isSent)) (.start 0) reportDuringWait =
      some ([.formatAccept "a"], [], [.volumeReport 40 false, .formatAccept "a"]) := by
    decide +kernel
  obtain ⟨s, log, hrun, hparts⟩ := run_of_viewRun hview
  obtain ⟨hforwarded, hrest⟩ := Prod.mk.inj hparts
  obtain ⟨hcontrol, hsent⟩ := Prod.mk.inj hrest
  refine ⟨s, log, hrun, hforwarded, hcontrol, hsent, ?_⟩
  unfold Faithful
  rw [hforwarded, hcontrol, hsent]
  decide

end Oaat.Negotiation
