/-
Oaat.Clock.Pairing — which exchanges the controller's clock is updated with.

A task pairs its own `t1` with whatever datagram the socket gives it next, so
an update is that of one exchange exactly when nothing else can be in the
socket. `Quiet` is the state in which a request is safe to send: no task is
waiting and nothing is on its way or in the socket. A run that sends in quiet
states only keeps everything outstanding to its last request (`Exclusive`);
after a request that was sent in any other state, the network can bring about
a mixed update without a further request (`exists_mixed`).
-/
import Oaat.Controller.ClockSync

namespace Oaat.Clock

open Oaat.Core Oaat.Endpoint Oaat.Controller Oaat.Lib

/-- No task waits for a response, and no datagram is on its way or in the socket. -/
structure Quiet (s : ClockSocket) : Prop where
  pending : ∀ task, s.pending task = none
  requests : s.requests = []
  responses : s.responses = []
  queue : s.queue = []

/-- A request is sent in a quiet state. -/
def SendsQuietly (s : ClockSocket) (a : Action) : Prop := a.sends = true → Quiet s

/-- The update uses the `t1` of one request, and the `t2` and `t3` that the
endpoint stamped for that same request. -/
structure Paired (s : ClockSocket) (u : Update) : Prop where
  same : u.request = u.origin
  sent : s.sent[u.request]? = some u.t1
  stamped : (u.request, u.t2, u.t3) ∈ s.stamped

/-! ## What a step does -/

/-- A request of `task` goes out. -/
structure Sends (s s' : ClockSocket) (task : Task) (seq : UInt16) (t1 : UInt64) : Prop where
  sent : s'.sent = s.sent ++ [t1]
  stamped : s'.stamped = s.stamped
  requests : s'.requests = s.requests ++ [⟨s.sent.length, (clockRequest seq t1).encode⟩]
  responses : s'.responses = s.responses
  queue : s'.queue = s.queue
  idle : s.pending task = none
  pending : s'.pending task = some (s.nextPending t1)
  others : ∀ other, other ≠ task → s'.pending other = s.pending other

/-- No request goes out: nothing enters the network but answers to requests on
their way, and no task starts to wait. -/
structure Evolves (s s' : ClockSocket) : Prop where
  sent : s'.sent = s.sent
  stamped : s.stamped ⊆ s'.stamped
  requests : ∀ d ∈ s'.requests, d ∈ s.requests
  inbound : ∀ d ∈ s'.responses ++ s'.queue, d ∈ s.responses ++ s.queue ∨
    ∃ r ∈ s.requests, ∃ t2 t3 response,
      (clockSyncReceive s.endpoint r.bytes t2 t3).2 = some response ∧
      d = ⟨r.request, response.encode⟩ ∧ (r.request, response.t2, response.t3) ∈ s'.stamped
  pending : ∀ task p, s'.pending task = some p → s.pending task = some p

/-- The update that `task` makes of a datagram of the queue. -/
def Updates (s : ClockSocket) (u : Update) : Prop :=
  ∃ task p d response t4, s.pending task = some p ∧ d ∈ s.queue ∧
    ClockSyncPacket.decode (ClockSocket.respBuf d.bytes) = .ok response ∧
    u = { request := p.request, origin := d.request, t1 := p.t1, t2 := response.t2,
          t3 := response.t3, t4 }

section

variable {s s' : ClockSocket} {a : Action} {o : List Update}

theorem pending_setSteady_self (s : ClockSocket) (n : Nat) (t : SteadyTask) :
    (s.setSteady n t).pending (.steady n) = t.pending := by
  simp [ClockSocket.setSteady, ClockSocket.pending]

theorem pending_setSteady_of_ne (s : ClockSocket) {n : Nat} (t : SteadyTask) {task : Task}
    (h : task ≠ .steady n) : (s.setSteady n t).pending task = s.pending task := by
  cases task with
  | once => rfl
  | steady m =>
    have hmn : m ≠ n := by
      intro hmn
      exact h (congrArg Task.steady hmn)
    simp [ClockSocket.setSteady, ClockSocket.pending, hmn]

/-- A task that stops waiting leaves the others as they are. -/
theorem pending_setSteady_none {n : Nat} {t : SteadyTask} (ht : t.pending = none) {task : Task}
    {p : Pending} (h : (s.setSteady n t).pending task = some p) : s.pending task = some p := by
  by_cases hn : task = .steady n
  · rw [hn, pending_setSteady_self, ht] at h
    cases h
  · rwa [pending_setSteady_of_ne s t hn] at h

/-- Only the tasks, the requests and the arrivals change; nothing new is among them. -/
theorem Evolves.of_subset (hsent : s'.sent = s.sent) (hstamped : s'.stamped = s.stamped)
    (hreq : ∀ d ∈ s'.requests, d ∈ s.requests)
    (hin : ∀ d ∈ s'.responses ++ s'.queue, d ∈ s.responses ++ s.queue)
    (hp : ∀ task p, s'.pending task = some p → s.pending task = some p) : Evolves s s' :=
  ⟨hsent, hstamped ▸ List.Subset.refl _, hreq, fun d hd => .inl (hin d hd), hp⟩

theorem updateWith_eq (s : ClockSocket) (p : Pending) (d : Datagram) (t4 : UInt64) :
    ∃ clock, (s.updateWith p d t4).1 = { s with clockState := clock } ∧
      ∀ u ∈ (s.updateWith p d t4).2, ∃ response,
        ClockSyncPacket.decode (ClockSocket.respBuf d.bytes) = .ok response ∧
        u = { request := p.request, origin := d.request, t1 := p.t1, t2 := response.t2,
              t3 := response.t3, t4 } := by
  unfold ClockSocket.updateWith
  cases hdec : ClockSyncPacket.decode (ClockSocket.respBuf d.bytes) with
  | error e => exact ⟨s.clockState, rfl, by simp⟩
  | ok response => exact ⟨_, rfl, by simp⟩

theorem evolves_answer {i : Nat} {d : Datagram} (hd : s.requests[i]? = some d) (t2 t3 : UInt64) :
    Evolves s (s.answerRequest i d t2 t3) := by
  refine ⟨rfl, List.subset_append_left _ _, ?_, ?_, ?_⟩
  · intro r hr
    exact List.mem_of_mem_eraseIdx hr
  · intro r hr
    simp only [ClockSocket.answerRequest, List.mem_append, Option.mem_toList,
      Option.map_eq_some_iff] at hr
    rcases hr with (hr | ⟨response, hresp, rfl⟩) | hr
    · exact .inl (List.mem_append_left _ hr)
    · refine .inr ⟨d, List.mem_of_getElem? hd, t2, t3, response, hresp, rfl, ?_⟩
      simp [ClockSocket.answerRequest, hresp]
    · exact .inl (List.mem_append_right _ hr)
  · intro task p hp
    cases task <;> exact hp

/-- The socket after a steady task, or the call, has read a datagram. -/
theorem evolves_resume {d : Datagram} {queue : List Datagram} (hq : s.queue = d :: queue)
    (task : Task) (clock : ClockState) (updates : List Update) :
    Evolves s ({ s with queue, clockState := clock }.resume task updates) := by
  have hin : ∀ e ∈ s.responses ++ queue, e ∈ s.responses ++ s.queue := by
    intro e he
    rw [hq]
    simp only [List.mem_append, List.mem_cons] at he ⊢
    tauto
  cases task with
  | once =>
    refine .of_subset rfl rfl (fun _ h => h) hin ?_
    intro task p hp
    cases task with
    | once => cases hp
    | steady m => exact hp
  | steady n =>
    refine .of_subset rfl rfl (fun _ h => h) hin ?_
    intro task p hp
    have := pending_setSteady_none (s := { s with queue, clockState := clock }) rfl hp
    cases task <;> exact this

/-- The network moves datagrams about. -/
theorem evolves_network {requests responses queue : List Datagram}
    (hreq : ∀ d ∈ requests, d ∈ s.requests)
    (hin : ∀ d ∈ responses ++ queue, d ∈ s.responses ++ s.queue) :
    Evolves s { s with requests, responses, queue } := by
  refine .of_subset rfl rfl hreq hin ?_
  intro task p hp
  cases task <;> exact hp

theorem idle_of_not_isSome {n : Nat}
    (hfree : ¬ ((s.steady n).ended || (s.steady n).pending.isSome) = true) :
    (s.steady n).pending = none := by
  cases hp : (s.steady n).pending with
  | none => rfl
  | some p => simp [hp] at hfree

/-- What the two tasks send. -/
theorem step_sends (h : s.step a = .ok (s', o)) (hsends : a.sends = true) :
    o = [] ∧ ∃ task seq t1, Sends s s' task seq t1 := by
  cases a with
  | onceSend seq t1 =>
    simp only [ClockSocket.step] at h
    cases honce : s.once with
    | some p => simp [honce] at h
    | none =>
      simp only [honce, Except.ok.injEq, Prod.mk.injEq] at h
      obtain ⟨rfl, rfl⟩ := h
      refine ⟨rfl, .once, seq, t1, ⟨rfl, rfl, rfl, rfl, rfl, honce, rfl, ?_⟩⟩
      intro other hne
      cases other with
      | once => exact absurd rfl hne
      | steady m => rfl
  | steadySend n t1 =>
    simp only [ClockSocket.step] at h
    split at h
    · cases h
    · rename_i hfree
      simp only [Except.ok.injEq, Prod.mk.injEq] at h
      obtain ⟨rfl, rfl⟩ := h
      have hidle := idle_of_not_isSome hfree
      refine ⟨rfl, .steady n, (s.steady n).seq, t1, ⟨rfl, rfl, rfl, rfl, rfl, hidle, ?_, ?_⟩⟩
      · exact pending_setSteady_self _ n _
      · intro other hne
        rw [pending_setSteady_of_ne _ _ hne]
        cases other <;> rfl
  | _ => cases hsends

/-- What comes of the other steps. -/
theorem step_evolves (h : s.step a = .ok (s', o)) (hsends : a.sends = false) :
    Evolves s s' ∧ ∀ u ∈ o, Updates s u := by
  cases a with
  | onceSend | steadySend => cases hsends
  | steadySendFails n =>
    simp only [ClockSocket.step] at h
    split at h
    · cases h
    · rename_i hfree
      simp only [Except.ok.injEq, Prod.mk.injEq] at h
      obtain ⟨rfl, rfl⟩ := h
      have hidle := idle_of_not_isSome hfree
      refine ⟨.of_subset rfl rfl (fun _ h => h) (fun _ h => h) ?_, by simp⟩
      intro task p hp
      exact pending_setSteady_none (t := { s.steady n with ended := true }) hidle hp
  | answer i t2 t3 =>
    simp only [ClockSocket.step] at h
    cases hd : s.requests[i]? with
    | none => simp [hd] at h
    | some d =>
      simp only [hd, Except.ok.injEq, Prod.mk.injEq] at h
      obtain ⟨rfl, rfl⟩ := h
      exact ⟨evolves_answer hd t2 t3, by simp⟩
  | arrive i =>
    simp only [ClockSocket.step] at h
    cases hd : s.responses[i]? with
    | none => simp [hd] at h
    | some d =>
      simp only [hd, Except.ok.injEq, Prod.mk.injEq] at h
      obtain ⟨rfl, rfl⟩ := h
      refine ⟨evolves_network (fun _ h => h) ?_, by simp⟩
      intro e he
      simp only [List.mem_append, List.mem_singleton] at he ⊢
      rcases he with he | he | rfl
      · exact .inl (List.mem_of_mem_eraseIdx he)
      · exact .inr he
      · exact .inl (List.mem_of_getElem? hd)
  | loseRequest i =>
    simp only [ClockSocket.step, Except.ok.injEq, Prod.mk.injEq] at h
    obtain ⟨rfl, rfl⟩ := h
    exact ⟨evolves_network (fun d hd => List.mem_of_mem_eraseIdx hd) (fun _ h => h), by simp⟩
  | duplicateRequest i =>
    simp only [ClockSocket.step, Except.ok.injEq, Prod.mk.injEq] at h
    obtain ⟨rfl, rfl⟩ := h
    refine ⟨evolves_network ?_ (fun _ h => h), by simp⟩
    intro d hd
    simp only [List.mem_append, Option.mem_toList] at hd
    exact hd.elim id List.mem_of_getElem?
  | loseResponse i =>
    simp only [ClockSocket.step, Except.ok.injEq, Prod.mk.injEq] at h
    obtain ⟨rfl, rfl⟩ := h
    refine ⟨evolves_network (fun _ h => h) ?_, by simp⟩
    intro d hd
    simp only [List.mem_append] at hd ⊢
    exact hd.imp List.mem_of_mem_eraseIdx id
  | duplicateResponse i =>
    simp only [ClockSocket.step, Except.ok.injEq, Prod.mk.injEq] at h
    obtain ⟨rfl, rfl⟩ := h
    refine ⟨evolves_network (fun _ h => h) ?_, by simp⟩
    intro d hd
    simp only [List.mem_append, Option.mem_toList] at hd ⊢
    rcases hd with (hd | hd) | hd
    · exact .inl hd
    · exact .inl (List.mem_of_getElem? hd)
    · exact .inr hd
  | recv task t4 =>
    simp only [ClockSocket.step] at h
    split at h
    · rename_i p d queue hp hq
      obtain ⟨clock, hclock, hups⟩ := updateWith_eq { s with queue } p d t4
      simp only [Except.ok.injEq, Prod.mk.injEq, hclock] at h
      obtain ⟨rfl, rfl⟩ := h
      refine ⟨evolves_resume hq task clock _, ?_⟩
      intro u hu
      obtain ⟨response, hdec, rfl⟩ := hups u hu
      exact ⟨task, p, d, response, t4, hp, hq ▸ List.mem_cons_self, hdec, rfl⟩
    · cases h
  | onceRecvFails =>
    simp only [ClockSocket.step] at h
    cases honce : s.once with
    | none => simp [honce] at h
    | some p =>
      simp only [honce, Except.ok.injEq, Prod.mk.injEq] at h
      obtain ⟨rfl, rfl⟩ := h
      refine ⟨.of_subset rfl rfl (fun _ h => h) (fun _ h => h) ?_, by simp⟩
      intro task q hq
      cases task with
      | once => cases hq
      | steady m => exact hq
  | steadyTimeout n =>
    simp only [ClockSocket.step] at h
    cases hp : (s.steady n).pending with
    | none => simp [hp] at h
    | some p =>
      simp only [hp, Except.ok.injEq, Prod.mk.injEq] at h
      obtain ⟨rfl, rfl⟩ := h
      refine ⟨.of_subset rfl rfl (fun _ h => h) (fun _ h => h) ?_, by simp⟩
      intro task q hq
      exact pending_setSteady_none rfl hq

/-- **The step rule.** A step sends one request and nothing else, or sends none;
then it updates the clock only with a datagram of the queue. -/
theorem step_cases (h : s.step a = .ok (s', o)) :
    (a.sends = true ∧ o = [] ∧ ∃ task seq t1, Sends s s' task seq t1) ∨
    (a.sends = false ∧ Evolves s s' ∧ ∀ u ∈ o, Updates s u) := by
  cases hsends : a.sends with
  | true => exact .inl ⟨rfl, step_sends h hsends⟩
  | false => exact .inr ⟨rfl, step_evolves h hsends⟩

end

/-! ## Where the stamps come from -/

/-- The datagram is the request that it is numbered as. -/
def IsRequest (s : ClockSocket) (d : Datagram) : Prop :=
  ∃ seq t1, d.bytes = (clockRequest seq t1).encode ∧ s.sent[d.request]? = some t1

/-- The datagram is a response, stamped for the request that it is numbered as. -/
def IsResponse (s : ClockSocket) (d : Datagram) : Prop :=
  ∃ seq t1 t2 t3, d.bytes = (respond (clockRequest seq t1) t2 t3).encode ∧
    s.sent[d.request]? = some t1 ∧ (d.request, t2, t3) ∈ s.stamped

/-- The numbers tell the truth. -/
structure Genuine (s : ClockSocket) : Prop where
  requests : ∀ d ∈ s.requests, IsRequest s d
  inbound : ∀ d ∈ s.responses ++ s.queue, IsResponse s d
  pending : ∀ task p, s.pending task = some p → s.sent[p.request]? = some p.t1

/-- The records of both sides only grow. -/
structure Grows (s s' : ClockSocket) : Prop where
  sent : s.sent <+: s'.sent
  stamped : s.stamped ⊆ s'.stamped

theorem Grows.trans {s s' s'' : ClockSocket} (h : Grows s s') (h' : Grows s' s'') : Grows s s'' :=
  ⟨h.sent.trans h'.sent, fun _ hx => h'.stamped (h.stamped hx)⟩

theorem Grows.getElem? {s s' : ClockSocket} (h : Grows s s') {i : Nat} {t1 : UInt64}
    (hi : s.sent[i]? = some t1) : s'.sent[i]? = some t1 := by
  obtain ⟨more, hmore⟩ := h.sent
  rw [← hmore, List.getElem?_append_left (List.getElem?_eq_some_iff.mp hi).1, hi]

theorem IsRequest.grows {s s' : ClockSocket} {d : Datagram} (h : IsRequest s d)
    (hg : Grows s s') : IsRequest s' d := by
  obtain ⟨seq, t1, hbytes, hsent⟩ := h
  exact ⟨seq, t1, hbytes, hg.getElem? hsent⟩

theorem IsResponse.grows {s s' : ClockSocket} {d : Datagram} (h : IsResponse s d)
    (hg : Grows s s') : IsResponse s' d := by
  obtain ⟨seq, t1, t2, t3, hbytes, hsent, hstamped⟩ := h
  exact ⟨seq, t1, t2, t3, hbytes, hg.getElem? hsent, hg.stamped hstamped⟩

theorem Paired.grows {s s' : ClockSocket} {u : Update} (h : Paired s u) (hg : Grows s s') :
    Paired s' u :=
  ⟨h.same, hg.getElem? h.sent, hg.stamped h.stamped⟩

/-- The endpoint answers a request with its two stamps. -/
theorem clockSyncReceive_request (c : SharedClock) (seq : UInt16) (t1 t2 t3 : UInt64) :
    (clockSyncReceive c (clockRequest seq t1).encode t2 t3).2 =
      some (respond (clockRequest seq t1) t2 t3) := by
  simp only [clockSyncReceive, clockPacket_encode (p := clockRequest seq t1) rfl]
  rfl

/-- A response is read as the packet that was sent. -/
theorem decode_respBuf {p : ClockSyncPacket} (hv : p.version = 1) :
    ClockSyncPacket.decode (ClockSocket.respBuf p.encode) = .ok p := by
  rw [ClockSocket.respBuf, List.take_left' (length_encode_clock p)]
  exact ClockSyncPacket.decode_encode p hv

section

variable {s s' : ClockSocket} {a : Action} {o : List Update}

theorem step_grows (h : s.step a = .ok (s', o)) : Grows s s' := by
  obtain ⟨-, -, task, seq, t1, hs⟩ | ⟨-, he, -⟩ := step_cases h
  · exact ⟨⟨[t1], hs.sent.symm⟩, hs.stamped ▸ List.Subset.refl _⟩
  · exact ⟨he.sent ▸ List.prefix_rfl, he.stamped⟩

theorem Sends.genuine {task : Task} {seq : UInt16} {t1 : UInt64} (h : Sends s s' task seq t1)
    (hg : Grows s s') (hs : Genuine s) : Genuine s' := by
  have hnew : s'.sent[s.sent.length]? = some t1 := by simp [h.sent]
  refine ⟨?_, ?_, ?_⟩
  · intro d hd
    rw [h.requests, List.mem_append, List.mem_singleton] at hd
    rcases hd with hd | rfl
    · exact (hs.requests d hd).grows hg
    · exact ⟨seq, t1, rfl, hnew⟩
  · intro d hd
    rw [h.responses, h.queue] at hd
    exact (hs.inbound d hd).grows hg
  · intro other p hp
    by_cases hother : other = task
    · rw [hother, h.pending] at hp
      obtain rfl := Option.some.inj hp
      exact hnew
    · rw [h.others other hother] at hp
      exact hg.getElem? (hs.pending other p hp)

theorem Evolves.genuine (h : Evolves s s') (hg : Grows s s') (hs : Genuine s) : Genuine s' := by
  refine ⟨?_, ?_, ?_⟩
  · intro d hd
    exact (hs.requests d (h.requests d hd)).grows hg
  · intro d hd
    obtain hold | ⟨r, hr, t2, t3, response, hresp, rfl, hstamped⟩ := h.inbound d hd
    · exact (hs.inbound d hold).grows hg
    · obtain ⟨seq, t1, hbytes, hsent⟩ := hs.requests r hr
      rw [hbytes, clockSyncReceive_request, Option.some.injEq] at hresp
      subst hresp
      exact ⟨seq, t1, t2, t3, rfl, hg.getElem? hsent, hstamped⟩
  · intro task p hp
    exact hg.getElem? (hs.pending task p (h.pending task p hp))

theorem step_genuine (h : s.step a = .ok (s', o)) (hs : Genuine s) : Genuine s' := by
  obtain ⟨-, -, task, seq, t1, hsend⟩ | ⟨-, he, -⟩ := step_cases h
  · exact hsend.genuine (step_grows h) hs
  · exact he.genuine (step_grows h) hs

/-- An update uses the `t1` of a request, and the stamps of a request. -/
theorem Updates.stamps {u : Update} (h : Updates s u) (hs : Genuine s) :
    s.sent[u.request]? = some u.t1 ∧ (u.origin, u.t2, u.t3) ∈ s.stamped := by
  obtain ⟨task, p, d, response, t4, hp, hd, hdec, rfl⟩ := h
  obtain ⟨seq, t1, t2, t3, hbytes, -, hstamped⟩ := hs.inbound d (List.mem_append_right _ hd)
  rw [hbytes, decode_respBuf rfl, Except.ok.injEq] at hdec
  subst hdec
  exact ⟨hs.pending task p hp, hstamped⟩

end

/-! ## Quiet senders -/

/-- All that is outstanding goes back to the last request. -/
structure Exclusive (s : ClockSocket) : Prop where
  requests : ∀ d ∈ s.requests, d.request + 1 = s.sent.length
  inbound : ∀ d ∈ s.responses ++ s.queue, d.request + 1 = s.sent.length
  pending : ∀ task p, s.pending task = some p → p.request + 1 = s.sent.length

section

variable {s s' : ClockSocket} {a : Action} {o : List Update}

theorem Sends.exclusive {task : Task} {seq : UInt16} {t1 : UInt64} (h : Sends s s' task seq t1)
    (hq : Quiet s) : Exclusive s' := by
  have hlen : s'.sent.length = s.sent.length + 1 := by simp [h.sent]
  refine ⟨?_, ?_, ?_⟩
  · intro d hd
    rw [h.requests, hq.requests, List.nil_append, List.mem_singleton] at hd
    rw [hd, hlen]
  · intro d hd
    rw [h.responses, h.queue, hq.responses, hq.queue] at hd
    cases hd
  · intro other p hp
    by_cases hother : other = task
    · rw [hother, h.pending] at hp
      obtain rfl := Option.some.inj hp
      exact hlen.symm
    · rw [h.others other hother, hq.pending other] at hp
      cases hp

theorem Evolves.exclusive (h : Evolves s s') (hx : Exclusive s) : Exclusive s' := by
  refine ⟨?_, ?_, ?_⟩
  · intro d hd
    rw [h.sent]
    exact hx.requests d (h.requests d hd)
  · intro d hd
    rw [h.sent]
    obtain hold | ⟨r, hr, t2, t3, response, -, rfl, -⟩ := h.inbound d hd
    · exact hx.inbound d hold
    · exact hx.requests r hr
  · intro task p hp
    rw [h.sent]
    exact hx.pending task p (h.pending task p hp)

theorem Updates.same {u : Update} (h : Updates s u) (hx : Exclusive s) : u.request = u.origin := by
  obtain ⟨task, p, d, response, t4, hp, hd, -, rfl⟩ := h
  have hreq := hx.pending task p hp
  have horig := hx.inbound d (List.mem_append_right _ hd)
  exact Nat.succ_injective (hreq.trans horig.symm)

/-- A step that sends quietly keeps the invariants, and its updates are paired. -/
theorem step_quiet (h : s.step a = .ok (s', o)) (hq : SendsQuietly s a) (hs : Genuine s)
    (hx : Exclusive s) : Exclusive s' ∧ ∀ u ∈ o, Paired s' u := by
  obtain ⟨hsends, rfl, task, seq, t1, hsend⟩ | ⟨-, he, hups⟩ := step_cases h
  · exact ⟨hsend.exclusive (hq hsends), by simp⟩
  · refine ⟨he.exclusive hx, ?_⟩
    intro u hu
    have hsame := (hups u hu).same hx
    obtain ⟨hsent, hstamped⟩ := (hups u hu).stamps hs
    exact ⟨hsame, (step_grows h).getElem? hsent, (step_grows h).stamped (hsame ▸ hstamped)⟩

end

theorem run_grows {acts : List Action} {s t : ClockSocket} {ups : List Update}
    (hrun : run ClockSocket.step s acts = .ok (t, ups)) : Grows s t := by
  have hkeep : ∀ r a r' o, Grows s r → ClockSocket.step r a = .ok (r', o) → Grows s r' :=
    fun r a r' o hr hstep => hr.trans (step_grows hstep)
  exact run_stays hkeep ⟨List.prefix_rfl, List.Subset.refl _⟩ hrun

theorem run_genuine {acts : List Action} {s t : ClockSocket} {ups : List Update}
    (hrun : run ClockSocket.step s acts = .ok (t, ups)) (hs : Genuine s) : Genuine t := by
  have hkeep : ∀ r a r' o, Genuine r → ClockSocket.step r a = .ok (r', o) → Genuine r' :=
    fun r a r' o hr hstep => step_genuine hstep hr
  exact run_stays hkeep hs hrun

/-- **Quiet runs.** If every request of a run is sent in a quiet state, then
every update of the run is that of one exchange. -/
theorem run_paired {acts : List Action} {s t : ClockSocket} {ups : List Update}
    (hrun : run ClockSocket.step s acts = .ok (t, ups)) (hs : Genuine s) (hx : Exclusive s)
    (hq : Along ClockSocket.step SendsQuietly s acts) : ∀ u ∈ ups, Paired t u := by
  induction acts generalizing s ups with
  | nil =>
    simp only [run_nil, Except.ok.injEq, Prod.mk.injEq] at hrun
    simp [← hrun.2]
  | cons a acts ih =>
    obtain ⟨s', o, os, hstep, hrest, rfl⟩ := run_cons_inv hrun
    obtain ⟨hx', hups⟩ := step_quiet hstep hq.1 hs hx
    intro u hu
    rcases List.mem_append.mp hu with hu | hu
    · exact (hups u hu).grows (run_grows hrest)
    · exact ih hrest (step_genuine hstep hs) hx' (hq.2 s' o hstep) u hu

theorem genuine_new : Genuine .new := by
  refine ⟨by simp [ClockSocket.new], by simp [ClockSocket.new], ?_⟩
  intro task p hp
  cases task <;> cases hp

theorem exclusive_new : Exclusive .new := by
  refine ⟨by simp [ClockSocket.new], by simp [ClockSocket.new], ?_⟩
  intro task p hp
  cases task <;> cases hp

/-! ## Other senders -/

/-- Without a further request, the clock can be updated with the `t1` of one
request and the stamps of another. -/
def CanMix (s : ClockSocket) : Prop :=
  ∃ acts t ups, (∀ a ∈ acts, a.sends = false) ∧ run ClockSocket.step s acts = .ok (t, ups) ∧
    ∃ u ∈ ups, u.request ≠ u.origin

section

variable {s s' : ClockSocket} {task : Task} {p : Pending} {d : Datagram} {rest : List Datagram}

theorem CanMix.of_step {a : Action} {o : List Update} (h : s.step a = .ok (s', o))
    (ha : a.sends = false) (hmix : CanMix s') : CanMix s := by
  obtain ⟨acts, t, ups, hacts, hrun, u, hu, hne⟩ := hmix
  refine ⟨a :: acts, t, o ++ ups, ?_, run_cons_ok h hrun, u, List.mem_append_right _ hu, hne⟩
  intro b hb
  rcases List.mem_cons.mp hb with rfl | hb
  · exact ha
  · exact hacts b hb

/-- The waiting task reads what is in the socket. -/
theorem canMix_of_queue (hs : Genuine s) (hp : s.pending task = some p) (hq : s.queue = d :: rest)
    (hne : p.request ≠ d.request) : CanMix s := by
  obtain ⟨seq, t1, t2, t3, hbytes, -, -⟩ := hs.inbound d (by simp [hq])
  have hdec : ClockSyncPacket.decode (ClockSocket.respBuf d.bytes) =
      .ok (respond (clockRequest seq t1) t2 t3) := by
    rw [hbytes]
    exact decode_respBuf rfl
  let u : Update := { request := p.request, origin := d.request, t1 := p.t1, t2, t3, t4 := 0 }
  obtain ⟨t, hstep⟩ : ∃ t, s.step (.recv task 0) = .ok (t, [u]) := by
    simp only [ClockSocket.step, hp, hq, ClockSocket.updateWith, hdec]
    exact ⟨_, rfl⟩
  exact ⟨[.recv task 0], t, [u], by simp [Action.sends], run_single hstep, u, by simp, hne⟩

/-- A response on its way arrives first. -/
theorem canMix_of_response (hs : Genuine s) (hp : s.pending task = some p) (hq : s.queue = [])
    (hr : s.responses = d :: rest) (hne : p.request ≠ d.request) : CanMix s := by
  have hstep : s.step (.arrive 0) = .ok ({ s with responses := rest, queue := [d] }, []) := by
    simp [ClockSocket.step, hr, hq]
  have hpend :
      ({ s with responses := rest, queue := [d] } : ClockSocket).pending task = some p := by
    cases task <;> exact hp
  exact .of_step hstep rfl (canMix_of_queue (step_genuine hstep hs) hpend rfl hne)

/-- A request on its way is answered first. -/
theorem canMix_of_request (hs : Genuine s) (hp : s.pending task = some p) (hq : s.queue = [])
    (hr : s.responses = []) (hreq : s.requests = d :: rest) (hne : p.request ≠ d.request) :
    CanMix s := by
  obtain ⟨seq, t1, hbytes, -⟩ := hs.requests d (by simp [hreq])
  have hstep : s.step (.answer 0 0 0) = .ok (s.answerRequest 0 d 0 0, []) := by
    simp [ClockSocket.step, hreq]
  have hresp : (s.answerRequest 0 d 0 0).responses =
      [⟨d.request, (respond (clockRequest seq t1) 0 0).encode⟩] := by
    simp [ClockSocket.answerRequest, hr, hbytes, clockSyncReceive_request]
  have hpend : (s.answerRequest 0 d 0 0).pending task = some p := by
    cases task <;> exact hp
  exact .of_step hstep rfl (canMix_of_response (step_genuine hstep hs) hpend hq hresp hne)

theorem Genuine.lt_of_request (hs : Genuine s) (hd : d ∈ s.requests) :
    d.request < s.sent.length := by
  obtain ⟨seq, t1, -, hsent⟩ := hs.requests d hd
  exact (List.getElem?_eq_some_iff.mp hsent).1

theorem Genuine.lt_of_inbound (hs : Genuine s) (hd : d ∈ s.responses ++ s.queue) :
    d.request < s.sent.length := by
  obtain ⟨seq, t1, t2, t3, -, hsent, -⟩ := hs.inbound d hd
  exact (List.getElem?_eq_some_iff.mp hsent).1

/-- **Other requests.** After a request that was sent while something was
outstanding, the network can bring about a mixed update. -/
theorem exists_mixed {seq : UInt16} {t1 : UInt64} (h : Sends s s' task seq t1) (hs : Genuine s)
    (hs' : Genuine s') (hq : ¬ Quiet s) : CanMix s' := by
  -- whatever was outstanding has a smaller number than the new request
  cases hqueue : s.queue with
  | cons d rest =>
    have hlt := hs.lt_of_inbound (d := d) (by simp [hqueue])
    exact canMix_of_queue hs' h.pending (h.queue.trans hqueue) hlt.ne'
  | nil =>
    cases hresp : s.responses with
    | cons d rest =>
      have hlt := hs.lt_of_inbound (d := d) (by simp [hresp])
      exact canMix_of_response hs' h.pending (h.queue.trans hqueue) (h.responses.trans hresp)
        hlt.ne'
    | nil =>
      cases hreq : s.requests with
      | cons d rest =>
        have hlt := hs.lt_of_request (d := d) (by simp [hreq])
        have hreq' : s'.requests =
            d :: (rest ++ [⟨s.sent.length, (clockRequest seq t1).encode⟩]) := by
          rw [h.requests, hreq, List.cons_append]
        exact canMix_of_request hs' h.pending (h.queue.trans hqueue) (h.responses.trans hresp)
          hreq' hlt.ne'
      | nil =>
        -- then another task waits, and the new request is answered to it
        obtain ⟨other, hother⟩ : ∃ other, s.pending other ≠ none := by
          by_contra hnone
          refine hq ⟨?_, hreq, hresp, hqueue⟩
          intro other
          by_contra hsome
          exact hnone ⟨other, hsome⟩
        obtain ⟨p, hp⟩ := Option.ne_none_iff_exists'.mp hother
        have hne : other ≠ task := by
          rintro rfl
          exact hother h.idle
        have hlt := (List.getElem?_eq_some_iff.mp (hs.pending other p hp)).1
        have hreq' : s'.requests = [⟨s.sent.length, (clockRequest seq t1).encode⟩] := by
          rw [h.requests, hreq, List.nil_append]
        exact canMix_of_request hs' ((h.others other hne).trans hp) (h.queue.trans hqueue)
          (h.responses.trans hresp) hreq' hlt.ne

end

/-! ## The exchanges of a run -/

/-- A run goes on from some point of it in which no further request is sent. -/
def Continues (acts acts' : List Action) : Prop :=
  ∃ pre post more, acts = pre ++ post ∧ acts' = pre ++ more ∧ ∀ a ∈ more, a.sends = false

theorem along_sendsQuietly_of_not_sends {acts : List Action} (h : ∀ a ∈ acts, a.sends = false)
    (s : ClockSocket) : Along ClockSocket.step SendsQuietly s acts := by
  refine along_iff_parts.mpr ?_
  intro pre a post t o hsplit hrun hsends
  rw [h a (by simp [hsplit])] at hsends
  cases hsends

theorem along_sendsQuietly_take {pre post : List Action} {s : ClockSocket}
    (h : Along ClockSocket.step SendsQuietly s (pre ++ post)) :
    Along ClockSocket.step SendsQuietly s pre := by
  refine along_iff_parts.mpr ?_
  intro pre' a post' t o hsplit hrun
  refine along_iff_parts.mp h pre' a (post' ++ post) t o ?_ hrun
  rw [hsplit, List.append_assoc, List.cons_append]

/-- **Clock exchanges.** Take any run of the tasks and the network. Its requests
are all sent in quiet states exactly when, however the network goes on from
any point of the run without a further request, every update of the clock uses
the `t1` of one request and the `t2` and `t3` stamped for that same request. -/
theorem clock_exchanges_paired_iff {acts : List Action} {r : ClockSocket × List Update}
    (hrun : run ClockSocket.step .new acts = .ok r) :
    Along ClockSocket.step SendsQuietly .new acts ↔
      ∀ acts', Continues acts acts' → ∀ t ups,
        run ClockSocket.step .new acts' = .ok (t, ups) → ∀ u ∈ ups, Paired t u := by
  constructor
  · rintro hq acts' ⟨pre, post, more, rfl, rfl, hmore⟩ t ups hrun'
    obtain ⟨s, o, os, hpre, -, -⟩ := run_append_inv hrun'
    have halong : Along ClockSocket.step SendsQuietly .new (pre ++ more) :=
      along_append_ok hpre (along_sendsQuietly_take hq) (along_sendsQuietly_of_not_sends hmore s)
    exact run_paired hrun' genuine_new exclusive_new halong
  · intro h
    refine along_iff_parts.mpr ?_
    rintro pre a post s o rfl hpre hsends
    by_contra hq
    -- the request at this point is enabled, since the run goes on
    obtain ⟨s₁, o₁, os₁, hpre', hrest, -⟩ := run_append_inv hrun
    obtain ⟨rfl, rfl⟩ : s₁ = s ∧ o₁ = o := by simpa using hpre'.symm.trans hpre
    obtain ⟨s', o', os', hstep, -, -⟩ := run_cons_inv hrest
    have hs := run_genuine hpre genuine_new
    obtain ⟨-, rfl, task, seq, t1, hsend⟩ | ⟨hno, -, -⟩ := step_cases hstep
    · obtain ⟨more, t, ups, hmore, hmix, u, hu, hne⟩ :=
        exists_mixed hsend hs (step_genuine hstep hs) hq
      have hcont : Continues (pre ++ a :: post) (pre ++ [a] ++ more) :=
        ⟨pre ++ [a], post, more, by simp, rfl, hmore⟩
      have hrun' := run_append_ok (run_append_ok hpre (run_single hstep)) hmix
      exact hne (h _ hcont t _ hrun' u (List.mem_append_right _ hu)).same
    · rw [hno] at hsends
      cases hsends

/-- One call of `clock_sync_once`, answered in time. -/
def promptExchange : List Action :=
  [.onceSend 0 1000, .answer 0 5060 5065, .arrive 0, .recv .once 1125]

/-- The update of a prompt exchange is that of one exchange. -/
theorem promptExchange_paired :
    (run ClockSocket.step .new promptExchange).map (fun r => r.2) =
      .ok [⟨0, 0, 1000, 5060, 5065, 1125⟩] ∧
    ∀ t ups, run ClockSocket.step .new promptExchange = .ok (t, ups) →
      ∀ u ∈ ups, Paired t u := by
  have hout : (run ClockSocket.step .new promptExchange).map (fun r => r.2) =
      .ok [⟨0, 0, 1000, 5060, 5065, 1125⟩] := by
    decide +kernel
  have hquiet : Along ClockSocket.step SendsQuietly .new promptExchange := by
    refine ⟨fun _ => ⟨fun task => by cases task <;> rfl, rfl, rfl, rfl⟩, ?_⟩
    intro s' o _
    exact along_sendsQuietly_of_not_sends (by decide) s'
  refine ⟨hout, ?_⟩
  intro t ups hrun
  exact (clock_exchanges_paired_iff hrun).mp hquiet promptExchange
    ⟨promptExchange, [], [], rfl, rfl, by simp⟩ t ups hrun

/-- A steady task times out, its response arrives, and the task sends again. -/
def lateResponse : List Action :=
  [.steadySend 0 1000000000, .answer 0 7000000000 7000001000, .steadyTimeout 0, .arrive 0,
   .steadySend 0 2500000000, .recv (.steady 0) 2500020000]

/-- The clock is updated with the second request's `t1` and stamps that the
endpoint made for the first, and for no request of that `t1`. -/
theorem lateResponse_mixed :
    ∃ t ups, run ClockSocket.step .new lateResponse = .ok (t, ups) ∧
      ∃ u ∈ ups, ¬ ∃ i, t.sent[i]? = some u.t1 ∧ (i, u.t2, u.t3) ∈ t.stamped := by
  have hout : (run ClockSocket.step .new lateResponse).map
      (fun r => (r.1.sent, r.1.stamped, r.2)) =
        .ok ([1000000000, 2500000000], [(0, 7000000000, 7000001000)],
          [⟨1, 0, 2500000000, 7000000000, 7000001000, 2500020000⟩]) := by
    decide +kernel
  cases hrun : run ClockSocket.step .new lateResponse with
  | error e => simp [hrun, Except.map] at hout
  | ok r =>
    obtain ⟨t, ups⟩ := r
    simp only [hrun, Except.map, Except.ok.injEq, Prod.mk.injEq] at hout
    obtain ⟨hsent, hstamped, hups⟩ := hout
    refine ⟨t, ups, rfl, ⟨1, 0, 2500000000, 7000000000, 7000001000, 2500020000⟩,
      by simp [hups], ?_⟩
    rintro ⟨i, hi, hmem⟩
    rw [hstamped, List.mem_singleton, Prod.mk.injEq] at hmem
    rw [hmem.1, hsent] at hi
    cases hi

end Oaat.Clock
