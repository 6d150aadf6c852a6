/-
Oaat.Negotiation.System — a session, its application and the two queues
between them.

The session sends its events to the application through one queue and takes
the application's messages off another; both are first in, first out. The
application is `oaat-cli/src/main.rs`: it answers every `FormatProposed` with
a confirmation for that stream id, after opening the device or failing to, and
sends messages of its own at any time (`EndpointRelease`, `StreamStats`). The
inputs of a run interleave the controller's messages, the application, the
timer and the passing of time in any order.

Proposals are numbered as they are received. `Net` tags events, confirmations
and written messages with the proposal they belong to; no arm of the session
reads a tag. `Queues` is what holds of the tags in every run.
-/
import Oaat.Endpoint.Session
import Oaat.Lib.Run

namespace Oaat.Negotiation

open Oaat.Core Oaat.Endpoint Oaat.Lib

/-- The application's answer to `FormatProposed`, by the outcome of
`configure_with_device`. -/
def confirmation (fp : FormatPropose) : Except String Unit → Message
  | .ok () => .formatAccept fp.streamId
  | .error e =>
    .formatReject
      { streamId := fp.streamId, reason := s!"audio device configuration failed: {e}" }

/-- A message written on the control connection. -/
structure Written where
  message : Message
  /-- The number of the proposal that it answers: the one just received, the one
  whose accept was pending, or the one that the application meant. -/
  answers : Option Nat
  time : Nat
  /-- The proposals whose `FormatProposed` the application had processed. -/
  processed : List Nat
  deriving Repr, DecidableEq

structure Net where
  session : Session
  now : Nat
  /-- Every proposal received, and when. -/
  proposals : List (FormatPropose × Nat)
  /-- The number of the proposal whose accept is pending, while one is. -/
  pendingOf : Nat
  events : List (EndpointEvent × Nat)
  control : List (Message × Option Nat)
  processed : List Nat
  /-- The proposals whose confirmation has been taken off the control channel. -/
  taken : List Nat
  /-- The proposals whose accept was sent by the timer. -/
  failedOpen : List Nat

namespace Net

def start (now : Nat) : Net :=
  { session := .new, now, proposals := [], pendingOf := 0, events := [], control := [],
    processed := [], taken := [], failedOpen := [] }

def write (s : Net) (answers : Option Nat) (messages : List Message) : List Written :=
  messages.map fun message => { message, answers, time := s.now, processed := s.processed }

end Net

def proposalOf : Message → Option FormatPropose
  | .formatPropose fp => some fp
  | _ => none

/-- What can happen next. -/
inductive Input where
  /-- A message of the controller; the session waits for room in the event queue. -/
  | receive (msg : Message) (waited : Nat)
  /-- The fail-open timer. -/
  | timer
  /-- The session takes a message off the control channel. -/
  | control
  /-- The application takes an event; `configured` is how opening the device ends. -/
  | application (configured : Except String Unit)
  /-- The application sends a message of its own. -/
  | send (msg : Message)
  | tick (ns : Nat)

/-- The proposal that an input brings. -/
def Input.proposal : Input → Option FormatPropose
  | .receive msg _ => proposalOf msg
  | _ => none

/-- A step, and what it writes on the control connection. -/
def step (cfg : SessionConfig) (s : Net) : Input → Except Unit (Net × List Written)
  | .receive msg waited =>
    let number := s.proposals.length
    let now := s.now + waited
    let e := controllerMessage cfg s.session now msg
    let proposal := proposalOf msg
    .ok
      ({ s with
          session := e.session
          now
          proposals := s.proposals ++ proposal.toList.map fun fp => (fp, s.now)
          pendingOf := if proposal.any (deferred cfg) then number else s.pendingOf
          events := s.events ++ e.events.map fun event => (event, number) },
        s.write (proposal.map fun _ => number) e.writes)
  | .timer =>
    match acceptTimeout s.session s.now with
    | some e =>
      .ok ({ s with session := e.session, failedOpen := s.failedOpen ++ [s.pendingOf] },
        s.write (some s.pendingOf) e.writes)
    | none => .error ()
  | .control =>
    match s.control with
    | [] => .error ()
    | (msg, tag) :: rest =>
      let e := controlMessage cfg s.session msg
      .ok ({ s with session := e.session, control := rest, taken := s.taken ++ tag.toList },
        s.write (if resolvesPending s.session msg then some s.pendingOf else tag) e.writes)
  | .application configured =>
    match s.events with
    | [] => .error ()
    | (.formatProposed fp, number) :: rest =>
      .ok
        ({ s with
            events := rest
            control := s.control ++ [(confirmation fp configured, some number)]
            processed := s.processed ++ [number] }, [])
    | _ :: rest => .ok ({ s with events := rest }, [])
  | .send msg =>
    if verdictFor msg = none then .ok ({ s with control := s.control ++ [(msg, none)] }, [])
    else .error ()
  | .tick ns => .ok ({ s with now := s.now + ns }, [])

/-! ## The tags -/

def eventTag : EndpointEvent × Nat → Option Nat
  | (.formatProposed _, number) => some number
  | _ => none

namespace Net

/-- The proposals whose `FormatProposed` is on its way to the application. -/
def proposed (s : Net) : List Nat := s.events.filterMap eventTag

/-- The proposals whose confirmation is on its way to the session. -/
def confirmed (s : Net) : List Nat := s.control.filterMap fun m => m.2

end Net

/-- The withheld accept is that of the proposal it is recorded for, which is
neither confirmed nor answered by the timer. -/
structure PendingFor (cfg : SessionConfig) (s : Net) (pending : PendingAccept)
    (fp : FormatPropose) (t : Nat) : Prop where
  proposal : s.proposals[s.pendingOf]? = some (fp, t)
  deferred : deferred cfg fp = true
  streamId : pending.streamId = fp.streamId
  auto : pending.auto = .formatAccept fp.streamId
  deadline : t + FAIL_OPEN_NS ≤ pending.deadline
  notTaken : s.pendingOf ∉ s.taken
  notFailedOpen : s.pendingOf ∉ s.failedOpen

/-- The invariant of every run. -/
structure Queues (cfg : SessionConfig) (s : Net) : Prop where
  /-- First in, first out: a proposal's event, then its confirmation. -/
  fifo : s.taken ++ s.confirmed ++ s.proposed = List.range s.proposals.length
  processed : s.processed = s.taken ++ s.confirmed
  events : ∀ fp k, (.formatProposed fp, k) ∈ s.events → ∃ t, s.proposals[k]? = some (fp, t)
  confirmations : ∀ msg k, (msg, some k) ∈ s.control →
    ∃ fp t configured, s.proposals[k]? = some (fp, t) ∧ msg = confirmation fp configured
  others : ∀ msg, (msg, none) ∈ s.control → verdictFor msg = none
  failedOpen : ∀ k ∈ s.failedOpen, k < s.proposals.length
  pending : ∀ pending, s.session.pendingAccept = some pending →
    ∃ fp t, PendingFor cfg s pending fp t

section

variable {cfg : SessionConfig} {s : Net}

theorem lookup_append {α : Type} {l : List α} {k : Nat} {a : α} (h : l[k]? = some a)
    (more : List α) : (l ++ more)[k]? = some a := by
  obtain ⟨hk, -⟩ := List.getElem?_eq_some_iff.mp h
  rw [List.getElem?_append_left hk, h]

theorem lookup_concat {α : Type} {l : List α} {k : Nat} {a b : α}
    (h : (l ++ [a])[k]? = some b) : l[k]? = some b ∨ k = l.length ∧ b = a := by
  by_cases hlt : k < l.length
  · rw [List.getElem?_append_left hlt] at h
    exact .inl h
  · obtain ⟨hlen, heq⟩ := List.getElem?_eq_some_iff.mp h
    obtain rfl : k = l.length := by simp at hlen; omega
    simp only [List.getElem_concat_length] at heq
    exact .inr ⟨rfl, heq.symm⟩

theorem verdictFor_confirmation (fp : FormatPropose) (configured : Except String Unit) :
    verdictFor (confirmation fp configured) = some fp.streamId := by
  cases configured <;> rfl

theorem mem_write {answers : Option Nat} {messages : List Message} {w : Written}
    (h : w ∈ s.write answers messages) :
    w.message ∈ messages ∧ w.answers = answers ∧ w.time = s.now ∧ w.processed = s.processed := by
  obtain ⟨m, hm, rfl⟩ := List.mem_map.mp h
  exact ⟨hm, rfl, rfl, rfl⟩

/-- A confirmation is written if it resolves the pending accept or none is
pending. -/
theorem controlMessage_confirmation (cfg : SessionConfig) (session : Session)
    (fp : FormatPropose) (configured : Except String Unit) :
    (controlMessage cfg session (confirmation fp configured)).writes =
      if resolvesPending session (confirmation fp configured) || session.pendingAccept.isNone
      then [confirmation fp configured] else [] := by
  have hplain : controlMessage cfg session (confirmation fp configured) =
      if resolvesPending session (confirmation fp configured) then
        { session := { session with pendingAccept := none }
          writes := [confirmation fp configured] }
      else if session.pendingAccept.isSome then { session }
      else { session, writes := [confirmation fp configured] } := by
    cases configured <;> rfl
  rw [hplain]
  cases resolvesPending session (confirmation fp configured) <;>
    cases session.pendingAccept <;> rfl

theorem Queues.start (now : Nat) : Queues cfg (Net.start now) where
  fifo := rfl
  processed := rfl
  events := by simp [Net.start]
  confirmations := by simp [Net.start]
  others := by simp [Net.start]
  failedOpen := by simp [Net.start]
  pending := by simp [Net.start, Session.new]

/-- The confirmation at the head of the control channel is the next one due. -/
theorem Queues.head_not_taken (h : Queues cfg s) {k : Nat} (hk : k ∈ s.confirmed) :
    k ∉ s.taken := by
  have hnodup : (s.taken ++ s.confirmed ++ s.proposed).Nodup := h.fifo ▸ List.nodup_range
  intro ht
  exact (List.nodup_append.mp (List.nodup_append.mp hnodup).1).2.2 k ht k hk rfl

theorem Queues.lt_of_taken (h : Queues cfg s) {k : Nat} (hk : k ∈ s.taken) :
    k < s.proposals.length := by
  rw [← List.mem_range, ← h.fifo]
  simp [hk]

/-! ## One step -/

theorem Queues.propose (h : Queues cfg s) (fp : FormatPropose) (waited : Nat) {s' : Net}
    {o : List Written} (hs : step cfg s (.receive (.formatPropose fp) waited) = .ok (s', o)) :
    Queues cfg s' := by
  simp only [step, Except.ok.injEq, Prod.mk.injEq] at hs
  obtain ⟨rfl, -⟩ := hs
  obtain ⟨verdict, hevents, hverdict⟩ := formatPropose_events cfg s.session fp (s.now + waited)
  have hproposed : (verdict.map fun event => (event, s.proposals.length)).filterMap eventTag
      = [] := by
    rw [List.filterMap_eq_nil_iff]
    rintro x hx
    obtain ⟨event, he, rfl⟩ := List.mem_map.mp hx
    cases event <;> simp_all [eventTag]
  refine ⟨?_, h.processed, ?_, ?_, h.others, ?_, ?_⟩
  · have hfifo := h.fifo
    simp only [Net.confirmed, Net.proposed] at hfifo ⊢
    simp only [controllerMessage_formatPropose, hevents, proposalOf, List.map_append,
      List.filterMap_append, hproposed, ← List.append_assoc, hfifo]
    simp [eventTag, List.range_succ]
  · intro fp' k hk
    simp only [controllerMessage_formatPropose, hevents, List.map_append, List.mem_append] at hk
    rcases hk with hk | hk | hk
    · obtain ⟨t, ht⟩ := h.events fp' k hk
      exact ⟨t, lookup_append ht _⟩
    · simp only [List.mem_map, Prod.mk.injEq] at hk
      obtain ⟨event, he, rfl, -⟩ := hk
      exact absurd he (hverdict fp')
    · simp only [List.map_cons, List.map_nil, List.mem_singleton, Prod.mk.injEq,
        EndpointEvent.formatProposed.injEq] at hk
      obtain ⟨rfl, rfl⟩ := hk
      exact ⟨s.now, by simp [proposalOf]⟩
  · intro msg k hk
    obtain ⟨fp', t, configured, hfp, rfl⟩ := h.confirmations msg k hk
    exact ⟨fp', t, configured, lookup_append hfp _, rfl⟩
  · intro k hk
    have := h.failedOpen k hk
    simp [proposalOf]
    omega
  · intro pending hp
    simp only [controllerMessage_formatPropose, formatPropose_pending] at hp
    cases hd : deferred cfg fp with
    | true =>
      -- a deferred proposal takes the slot, whatever was in it
      simp only [hd, if_true, Option.some.injEq] at hp
      refine ⟨fp, s.now, ?_⟩
      rw [← hp]
      refine ⟨by simp [proposalOf, hd], hd, rfl, rfl, by simp, ?_, ?_⟩
      · intro ht
        simp only [proposalOf, Option.any_some, hd, if_true] at ht
        exact absurd (h.lt_of_taken ht) (lt_irrefl _)
      · intro hf
        simp only [proposalOf, Option.any_some, hd, if_true] at hf
        exact absurd (h.failedOpen _ hf) (lt_irrefl _)
    | false =>
      simp only [hd, Bool.false_eq_true, if_false] at hp
      obtain ⟨fp', t, hfor⟩ := h.pending pending hp
      refine ⟨fp', t, ?_⟩
      simp only [proposalOf, Option.any_some, hd, Bool.false_eq_true, if_false]
      exact { hfor with proposal := lookup_append hfor.proposal _ }

theorem proposalOf_other {msg : Message} (h : ∀ fp, msg ≠ .formatPropose fp) :
    proposalOf msg = none := by
  cases msg <;> first | rfl | exact absurd rfl (h _)

theorem Queues.receive_other (h : Queues cfg s) {msg : Message}
    (hmsg : ∀ fp, msg ≠ .formatPropose fp) (waited : Nat) {s' : Net} {o : List Written}
    (hs : step cfg s (.receive msg waited) = .ok (s', o)) : Queues cfg s' := by
  have hnone := proposalOf_other hmsg
  obtain ⟨hpending, -, hevents⟩ := controllerMessage_other cfg s.session (s.now + waited) hmsg
  simp only [step, hnone, Except.ok.injEq, Prod.mk.injEq] at hs
  obtain ⟨rfl, -⟩ := hs
  have hproposed : ((controllerMessage cfg s.session (s.now + waited) msg).events.map
      fun event => (event, s.proposals.length)).filterMap eventTag = [] := by
    rw [List.filterMap_eq_nil_iff]
    rintro x hx
    obtain ⟨event, he, rfl⟩ := List.mem_map.mp hx
    cases event <;> simp_all [eventTag]
  refine ⟨?_, h.processed, ?_, ?_, h.others, ?_, ?_⟩
  · have hfifo := h.fifo
    simp only [Net.confirmed, Net.proposed] at hfifo ⊢
    simp [List.filterMap_append, hproposed, hfifo]
  · intro fp k hk
    rcases List.mem_append.mp hk with hk | hk
    · obtain ⟨t, ht⟩ := h.events fp k hk
      exact ⟨t, lookup_append ht _⟩
    · simp only [List.mem_map, Prod.mk.injEq] at hk
      obtain ⟨event, he, rfl, -⟩ := hk
      exact absurd he (hevents fp)
  · simpa using h.confirmations
  · simpa using h.failedOpen
  · intro pending hp
    obtain ⟨fp, t, hfor⟩ := h.pending pending (hpending ▸ hp)
    exact ⟨fp, t, { hfor with proposal := lookup_append hfor.proposal _ }⟩

theorem acceptTimeout_some {session : Session} {now : Nat} {e : Effects}
    (h : acceptTimeout session now = some e) :
    ∃ pending, session.pendingAccept = some pending ∧ pending.deadline ≤ now ∧
      e = { session := { session with pendingAccept := none }, writes := [pending.auto] } := by
  unfold acceptTimeout at h
  cases hp : session.pendingAccept with
  | none => simp [hp] at h
  | some pending =>
    simp only [hp] at h
    split at h
    · exact ⟨pending, rfl, ‹_›, (Option.some.inj h).symm⟩
    · cases h

/-- The timer: the pending accept is written and the slot is free. -/
theorem step_timer {s' : Net} {o : List Written} (hs : step cfg s .timer = .ok (s', o)) :
    ∃ pending, s.session.pendingAccept = some pending ∧ pending.deadline ≤ s.now ∧
      s' = { s with
        session := { s.session with pendingAccept := none }
        failedOpen := s.failedOpen ++ [s.pendingOf] } ∧
      o = s.write (some s.pendingOf) [pending.auto] := by
  cases he : acceptTimeout s.session s.now with
  | none => simp [step, he] at hs
  | some e =>
    obtain ⟨pending, hp, hd, rfl⟩ := acceptTimeout_some he
    simp only [step, he, Except.ok.injEq, Prod.mk.injEq] at hs
    exact ⟨pending, hp, hd, hs.1.symm, hs.2.symm⟩

theorem Queues.timer (h : Queues cfg s) {s' : Net} {o : List Written}
    (hs : step cfg s .timer = .ok (s', o)) : Queues cfg s' := by
  obtain ⟨pending, hp, -, rfl, -⟩ := step_timer hs
  obtain ⟨fp, t, hfor⟩ := h.pending pending hp
  refine ⟨h.fifo, h.processed, h.events, h.confirmations, h.others, ?_, by simp⟩
  intro k hk
  rcases List.mem_append.mp hk with hk | hk
  · exact h.failedOpen k hk
  · rw [List.mem_singleton.mp hk]
    exact (List.getElem?_eq_some_iff.mp hfor.proposal).1

/-- The control channel: a message is taken off it. -/
theorem step_control {s' : Net} {o : List Written} (hs : step cfg s .control = .ok (s', o)) :
    ∃ msg tag rest, s.control = (msg, tag) :: rest ∧
      s' = { s with
        session := (controlMessage cfg s.session msg).session
        control := rest
        taken := s.taken ++ tag.toList } ∧
      o = s.write (if resolvesPending s.session msg then some s.pendingOf else tag)
        (controlMessage cfg s.session msg).writes := by
  cases hc : s.control with
  | nil => simp [step, hc] at hs
  | cons head rest =>
    obtain ⟨msg, tag⟩ := head
    simp only [step, hc, Except.ok.injEq, Prod.mk.injEq] at hs
    exact ⟨msg, tag, rest, rfl, hs.1.symm, hs.2.symm⟩

/-- A confirmation of the pending proposal resolves the pending accept. -/
theorem resolvesPending_confirmation {session : Session} {pending : PendingAccept}
    {fp : FormatPropose} (hp : session.pendingAccept = some pending)
    (hid : pending.streamId = fp.streamId) (configured : Except String Unit) :
    resolvesPending session (confirmation fp configured) = true := by
  cases configured <;> simp [resolvesPending, confirmation, hp, hid]

/-- What is pending after a control message was pending before, and the message
did not resolve it. -/
theorem pending_after_control {session : Session} {msg : Message} {pending : PendingAccept}
    (h : (controlMessage cfg session msg).session.pendingAccept = some pending) :
    session.pendingAccept = some pending ∧ resolvesPending session msg = false := by
  unfold controlMessage at h
  split at h
  · simp at h
  · split at h
    · simp at h
    · rename_i hres
      split at h <;> exact ⟨h, by simpa using hres⟩

theorem Queues.control (h : Queues cfg s) {s' : Net} {o : List Written}
    (hs : step cfg s .control = .ok (s', o)) : Queues cfg s' := by
  obtain ⟨msg, tag, rest, hc, rfl, -⟩ := step_control hs
  have hconfirmed : s.confirmed = tag.toList ++ rest.filterMap fun m => m.2 := by
    simp only [Net.confirmed, hc]
    cases tag <;> rfl
  refine ⟨?_, ?_, h.events, fun m k hk => h.confirmations m k (by rw [hc]; simp [hk]),
    fun m hm => h.others m (by rw [hc]; simp [hm]), h.failedOpen, ?_⟩
  · have hfifo := h.fifo
    rw [hconfirmed] at hfifo
    simpa [Net.confirmed, Net.proposed] using hfifo
  · rw [h.processed, hconfirmed]
    simp [Net.confirmed]
  · intro pending hp
    obtain ⟨hpending, hres⟩ := pending_after_control hp
    obtain ⟨fp, t, hfor⟩ := h.pending pending hpending
    refine ⟨fp, t, { hfor with notTaken := ?_ }⟩
    intro ht
    rcases List.mem_append.mp ht with ht | ht
    · exact hfor.notTaken ht
    · -- the pending proposal's own confirmation would have resolved it
      cases tag with
      | none => cases ht
      | some k =>
        obtain rfl : s.pendingOf = k := by simpa using ht
        obtain ⟨fp', t', configured, hfp, rfl⟩ :=
          h.confirmations msg s.pendingOf (by rw [hc]; simp)
        obtain ⟨rfl, rfl⟩ : fp = fp' ∧ t = t' := by
          simpa using hfor.proposal.symm.trans hfp
        have hyes := resolvesPending_confirmation hpending hfor.streamId configured
        rw [hres] at hyes
        cases hyes

/-- The application: it confirms a proposal, or takes an event of another kind. -/
theorem step_application {configured : Except String Unit} {s' : Net} {o : List Written}
    (hs : step cfg s (.application configured) = .ok (s', o)) :
    o = [] ∧ ((∃ fp k rest, s.events = (.formatProposed fp, k) :: rest ∧
        s' = { s with
          events := rest
          control := s.control ++ [(confirmation fp configured, some k)]
          processed := s.processed ++ [k] }) ∨
      ∃ event rest, s.events = event :: rest ∧ eventTag event = none ∧
        s' = { s with events := rest }) := by
  cases he : s.events with
  | nil => simp [step, he] at hs
  | cons head rest =>
    obtain ⟨event, k⟩ := head
    cases event with
    | formatProposed fp =>
      simp only [step, he, Except.ok.injEq, Prod.mk.injEq] at hs
      exact ⟨hs.2.symm, .inl ⟨fp, k, rest, rfl, hs.1.symm⟩⟩
    | _ =>
      simp only [step, he, Except.ok.injEq, Prod.mk.injEq] at hs
      exact ⟨hs.2.symm, .inr ⟨_, rest, rfl, rfl, hs.1.symm⟩⟩

theorem Queues.application (h : Queues cfg s) {configured : Except String Unit} {s' : Net}
    {o : List Written} (hs : step cfg s (.application configured) = .ok (s', o)) :
    Queues cfg s' := by
  obtain ⟨-, ⟨fp, k, rest, he, rfl⟩ | ⟨event, rest, he, htag, rfl⟩⟩ := step_application hs
  · have hproposed : s.proposed = k :: rest.filterMap eventTag := by
      simp [Net.proposed, he, eventTag]
    obtain ⟨t, ht⟩ := h.events fp k (by rw [he]; simp)
    refine ⟨?_, ?_, fun fp' j hj => h.events fp' j (by rw [he]; simp [hj]),
      ?_, ?_, h.failedOpen, ?_⟩
    · have hfifo := h.fifo
      rw [hproposed] at hfifo
      simpa [Net.proposed, Net.confirmed] using hfifo
    · simp [Net.confirmed, h.processed]
    · intro msg j hj
      simp only [List.mem_append, List.mem_singleton, Prod.mk.injEq, Option.some.injEq] at hj
      rcases hj with hj | ⟨rfl, rfl⟩
      · exact h.confirmations msg j hj
      · exact ⟨fp, t, configured, ht, rfl⟩
    · intro msg hm
      simp only [List.mem_append, List.mem_singleton, Prod.mk.injEq, reduceCtorEq, and_false,
        or_false] at hm
      exact h.others msg hm
    · intro pending hp
      obtain ⟨fp', t', hfor⟩ := h.pending pending hp
      exact ⟨fp', t', { hfor with }⟩
  · have hproposed : s.proposed = rest.filterMap eventTag := by simp [Net.proposed, he, htag]
    refine ⟨?_, h.processed, fun fp j hj => h.events fp j (by rw [he]; simp [hj]),
      h.confirmations, h.others, h.failedOpen, ?_⟩
    · have hfifo := h.fifo
      rw [hproposed] at hfifo
      exact hfifo
    · intro pending hp
      obtain ⟨fp, t, hfor⟩ := h.pending pending hp
      exact ⟨fp, t, { hfor with }⟩

theorem step_send {msg : Message} {s' : Net} {o : List Written}
    (hs : step cfg s (.send msg) = .ok (s', o)) :
    verdictFor msg = none ∧ s' = { s with control := s.control ++ [(msg, none)] } ∧ o = [] := by
  simp only [step] at hs
  split at hs
  · simp only [Except.ok.injEq, Prod.mk.injEq] at hs
    exact ⟨‹_›, hs.1.symm, hs.2.symm⟩
  · cases hs

theorem Queues.send (h : Queues cfg s) {msg : Message} {s' : Net} {o : List Written}
    (hs : step cfg s (.send msg) = .ok (s', o)) : Queues cfg s' := by
  obtain ⟨hmsg, rfl, -⟩ := step_send hs
  refine ⟨by simpa [Net.confirmed, Net.proposed] using h.fifo,
    by simpa [Net.confirmed] using h.processed, h.events, ?_, ?_,
    h.failedOpen, ?_⟩
  · intro m k hk
    simp only [List.mem_append, List.mem_singleton, Prod.mk.injEq, reduceCtorEq, and_false,
      or_false] at hk
    exact h.confirmations m k hk
  · intro m hm
    simp only [List.mem_append, List.mem_singleton, Prod.mk.injEq, and_true] at hm
    rcases hm with hm | rfl
    · exact h.others m hm
    · exact hmsg
  · intro pending hp
    obtain ⟨fp, t, hfor⟩ := h.pending pending hp
    exact ⟨fp, t, { hfor with }⟩

theorem Queues.tick (h : Queues cfg s) {ns : Nat} {s' : Net} {o : List Written}
    (hs : step cfg s (.tick ns) = .ok (s', o)) : Queues cfg s' := by
  simp only [step, Except.ok.injEq, Prod.mk.injEq] at hs
  obtain ⟨rfl, -⟩ := hs
  refine ⟨h.fifo, h.processed, h.events, h.confirmations, h.others, h.failedOpen, ?_⟩
  intro pending hp
  obtain ⟨fp, t, hfor⟩ := h.pending pending hp
  exact ⟨fp, t, { hfor with }⟩

/-- The proposals are kept, in order. -/
theorem step_proposals {i : Input} {s' : Net} {o : List Written}
    (hs : step cfg s i = .ok (s', o)) :
    s'.proposals = s.proposals ++ i.proposal.toList.map fun fp => (fp, s.now) := by
  cases i with
  | receive msg waited =>
    simp only [Negotiation.step, Except.ok.injEq, Prod.mk.injEq] at hs
    obtain ⟨rfl, -⟩ := hs
    rfl
  | timer =>
    obtain ⟨pending, -, -, rfl, -⟩ := step_timer hs
    simp [Input.proposal]
  | control =>
    obtain ⟨msg, tag, rest, -, rfl, -⟩ := step_control hs
    simp [Input.proposal]
  | application configured =>
    obtain ⟨-, ⟨fp, k, rest, -, rfl⟩ | ⟨event, rest, -, -, rfl⟩⟩ := step_application hs <;>
      simp [Input.proposal]
  | send msg =>
    obtain ⟨-, rfl, -⟩ := step_send hs
    simp [Input.proposal]
  | tick ns =>
    simp only [Negotiation.step, Except.ok.injEq, Prod.mk.injEq] at hs
    obtain ⟨rfl, -⟩ := hs
    simp [Input.proposal]

/-- **One step.** -/
theorem Queues.step (h : Queues cfg s) {i : Input} {s' : Net} {o : List Written}
    (hs : step cfg s i = .ok (s', o)) : Queues cfg s' := by
  cases i with
  | receive msg waited =>
    by_cases hmsg : ∃ fp, msg = .formatPropose fp
    · obtain ⟨fp, rfl⟩ := hmsg
      exact h.propose fp waited hs
    · exact h.receive_other (fun fp hfp => hmsg ⟨fp, hfp⟩) waited hs
  | timer => exact h.timer hs
  | control => exact h.control hs
  | application configured => exact h.application hs
  | send msg => exact h.send hs
  | tick ns => exact h.tick hs

end

/-! ## A concrete endpoint -/

/-- An endpoint for PCM up to 48 kHz and 24 bits that defers its accepts. -/
def modest : SessionConfig :=
  { capabilities :=
      { pcmMaxRate := 48000, pcmMaxBits := 24, dsdMaxRate := none, channelsMax := 2,
        formats := [.pcmS24le], volume := none, gapless := true, seek := true }
    deferFormatAccept := true
    hello :=
      { protocolVersion := 1, controllerId := "c1", controllerName := "controller",
        clockPort := 0, features := [FEATURE_ENDPOINT_RELEASE] } }

def stereo (streamId : String) (sampleRate : UInt32) : FormatPropose :=
  { streamId, format := .pcmS24le, sampleRate, channels := 2, channelLayout := .stereo,
    bitsPerSample := 24, dsdRate := none }

/-- The proposal is deferred and confirmed in time. The application sees
`FormatAccepted`, then `FormatProposed`. -/
def confirmedInTime : List Input :=
  [.receive (.formatPropose (stereo "a" 44100)) 0, .application (.ok ()),
    .application (.ok ()), .control]

end Oaat.Negotiation
