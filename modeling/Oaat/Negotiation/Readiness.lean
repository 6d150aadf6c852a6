/-
Oaat.Negotiation.Readiness — when a deferred accept is written.

A written `FormatAccept` answers the proposal whose accept was pending, or the
one that the application confirmed. It should follow the application's
processing of that proposal's `FormatProposed`, or come five seconds after the
proposal. The session matches a confirmation with the pending accept by stream
id alone, so when a stream id is proposed again, the confirmation of the
earlier proposal may still be on its way. The main theorem says that this is
the only way to an early accept.
-/
import Oaat.Negotiation.System

namespace Oaat.Negotiation

open Oaat.Core Oaat.Endpoint Oaat.Lib

/-- An accept answers a proposal whose `FormatProposed` the application had
processed, or that was received five seconds before. -/
def Ready (s : Net) (w : Written) : Prop :=
  isFormatAccept w.message = true → ∃ k, w.answers = some k ∧
    (k ∈ w.processed ∨ ∃ fp t, s.proposals[k]? = some (fp, t) ∧ t + FAIL_OPEN_NS ≤ w.time)

def AcceptsReady (s : Net) (log : List Written) : Prop := ∀ w ∈ log, Ready s w

/-- When a `FormatAccept` taken off the control channel resolves the pending
accept, the pending proposal's own confirmation is in the channel (at its head,
or behind an earlier one), or the proposal is five seconds old. -/
def OwnConfirmation (s : Net) : Input → Prop
  | .control => ∀ msg tag rest, s.control = (msg, tag) :: rest → isFormatAccept msg = true →
      resolvesPending s.session msg = true →
      s.pendingOf ∈ s.confirmed ∨
        ∃ fp t, s.proposals[s.pendingOf]? = some (fp, t) ∧ t + FAIL_OPEN_NS ≤ s.now
  | _ => True

/-- Every written answer is to a proposal received. -/
def Numbered (s : Net) (log : List Written) : Prop :=
  ∀ w ∈ log, ∀ k, w.answers = some k → k < s.proposals.length

section

variable {cfg : SessionConfig} {s s' : Net} {log o : List Written} {w : Written}

theorem Numbered.append {more : List (FormatPropose × Nat)}
    (hprop : s'.proposals = s.proposals ++ more) (h : Numbered s log)
    (ho : Numbered s' o) : Numbered s' (log ++ o) := by
  intro w hw k hk
  rcases List.mem_append.mp hw with hw | hw
  · have := h w hw k hk
    rw [hprop, List.length_append]
    omega
  · exact ho w hw k hk

/-- Later proposals do not matter to what has been written. -/
theorem acceptsReady_append {more : List (FormatPropose × Nat)}
    (hprop : s'.proposals = s.proposals ++ more) (h : Numbered s log) :
    AcceptsReady s' (log ++ o) ↔ AcceptsReady s log ∧ ∀ w ∈ o, Ready s' w := by
  have hsame : ∀ w ∈ log, (Ready s' w ↔ Ready s w) := by
    intro w hw
    refine imp_congr_right fun _ => exists_congr fun k => and_congr_right ?_
    intro hk
    rw [hprop, List.getElem?_append_left (h w hw k hk)]
  simp only [AcceptsReady, List.mem_append, or_imp, forall_and]
  exact and_congr_left fun _ => forall₂_congr hsame

theorem ready_of_not_accept (h : isFormatAccept w.message = false) : Ready s w := by
  intro hw
  rw [h] at hw
  cases hw

theorem not_accept_of_none {msg : Message} (h : verdictFor msg = none) :
    isFormatAccept msg = false := by
  cases msg <;> first | rfl | cases h

theorem pending_of_resolves {session : Session} {msg : Message}
    (h : resolvesPending session msg = true) :
    ∃ pending, session.pendingAccept = some pending := by
  cases hp : session.pendingAccept with
  | none => simp [resolvesPending, hp] at h
  | some pending => exact ⟨pending, rfl⟩

theorem Queues.pending_lt (hq : Queues cfg s) {pending : PendingAccept}
    (hp : s.session.pendingAccept = some pending) : s.pendingOf < s.proposals.length := by
  obtain ⟨fp, t, hfor⟩ := hq.pending pending hp
  exact (List.getElem?_eq_some_iff.mp hfor.proposal).1

/-! ## One step -/

/-- With the accepts deferred, a message of the controller is never answered by
one at once. -/
theorem ready_receive (hdefer : cfg.deferFormatAccept = true) {msg : Message} {waited : Nat}
    (hs : step cfg s (.receive msg waited) = .ok (s', o)) : ∀ w ∈ o, Ready s' w := by
  simp only [step, Except.ok.injEq, Prod.mk.injEq] at hs
  obtain ⟨-, rfl⟩ := hs
  intro w hw
  have hmem := (mem_write hw).1
  refine ready_of_not_accept ?_
  by_cases hmsg : ∃ fp, msg = .formatPropose fp
  · obtain ⟨fp, rfl⟩ := hmsg
    simp only [controllerMessage_formatPropose, formatPropose_writes] at hmem
    cases hd : deferred cfg fp with
    | true => simp [hd] at hmem
    | false =>
      have hm : w.message = negotiateFormat cfg.capabilities fp := by simpa [hd] using hmem
      rw [hm]
      simpa [deferred, hdefer] using hd
  · have hother : ∀ fp, msg ≠ .formatPropose fp := fun fp hfp => hmsg ⟨fp, hfp⟩
    exact not_accept_of_none
      ((controllerMessage_other cfg s.session (s.now + waited) hother).2.1 _ hmem)

/-- The timer fires five seconds after the proposal, or later. -/
theorem ready_timer (hq : Queues cfg s) (hs : step cfg s .timer = .ok (s', o)) :
    ∀ w ∈ o, Ready s' w := by
  obtain ⟨pending, hp, hdue, rfl, rfl⟩ := step_timer hs
  obtain ⟨fp, t, hfor⟩ := hq.pending pending hp
  intro w hw _
  obtain ⟨-, hanswers, htime, -⟩ := mem_write hw
  refine ⟨s.pendingOf, hanswers, .inr ⟨fp, t, hfor.proposal, ?_⟩⟩
  rw [htime]
  exact le_trans hfor.deadline hdue

theorem ready_control (hq : Queues cfg s) (hs : step cfg s .control = .ok (s', o)) :
    (∀ w ∈ o, Ready s' w) ↔ OwnConfirmation s .control := by
  obtain ⟨msg, tag, rest, hc, rfl, rfl⟩ := step_control hs
  have hown : OwnConfirmation s .control ↔ (isFormatAccept msg = true →
      resolvesPending s.session msg = true → s.pendingOf ∈ s.confirmed ∨
        ∃ fp t, s.proposals[s.pendingOf]? = some (fp, t) ∧ t + FAIL_OPEN_NS ≤ s.now) := by
    constructor
    · intro h
      exact h msg tag rest hc
    · intro h msg' tag' rest' hc'
      obtain ⟨⟨rfl, rfl⟩, rfl⟩ : (msg = msg' ∧ tag = tag') ∧ rest = rest' := by
        simpa using hc.symm.trans hc'
      exact h
  rw [hown]
  cases haccept : isFormatAccept msg with
  | false =>
    refine iff_of_true (fun w hw => ready_of_not_accept ?_) (by simp)
    rw [controlMessage_writes (mem_write hw).1]
    exact haccept
  | true =>
    -- an accept is a confirmation
    cases tag with
    | none =>
      have hnone := not_accept_of_none (hq.others msg (by rw [hc]; simp))
      rw [hnone] at haccept
      cases haccept
    | some k =>
      have hconfirmed : k ∈ s.confirmed := by simp [Net.confirmed, hc]
      obtain ⟨fp, t, configured, hk, rfl⟩ := hq.confirmations msg k (by rw [hc]; simp)
      rw [controlMessage_confirmation]
      cases hres : resolvesPending s.session (confirmation fp configured) with
      | false =>
        refine iff_of_true ?_ (by simp)
        intro w hw _
        obtain ⟨-, hanswers, -, hprocessed⟩ := mem_write hw
        refine ⟨k, hanswers, .inl ?_⟩
        rw [hprocessed, hq.processed]
        exact List.mem_append_right _ hconfirmed
      | true =>
        obtain ⟨pending, hp⟩ := pending_of_resolves hres
        obtain ⟨fp', t', hfor⟩ := hq.pending pending hp
        have hin : s.pendingOf ∈ s.processed ↔ s.pendingOf ∈ s.confirmed := by
          rw [hq.processed, List.mem_append, or_iff_right hfor.notTaken]
        simp [Net.write, Ready, haccept, hin]

/-- What a step writes is ready exactly when the condition holds of it. -/
theorem ready_written_iff (hdefer : cfg.deferFormatAccept = true) (hq : Queues cfg s) {i : Input}
    (hs : step cfg s i = .ok (s', o)) : (∀ w ∈ o, Ready s' w) ↔ OwnConfirmation s i := by
  cases i with
  | receive msg waited => exact iff_of_true (ready_receive hdefer hs) trivial
  | timer => exact iff_of_true (ready_timer hq hs) trivial
  | control => exact ready_control hq hs
  | application configured =>
    obtain ⟨rfl, -⟩ := step_application hs
    simp [OwnConfirmation]
  | send msg =>
    obtain ⟨-, -, rfl⟩ := step_send hs
    simp [OwnConfirmation]
  | tick ns =>
    simp only [step, Except.ok.injEq, Prod.mk.injEq] at hs
    obtain ⟨-, rfl⟩ := hs
    simp [OwnConfirmation]

/-- What a step writes answers a proposal received. -/
theorem numbered_written (hq : Queues cfg s) {i : Input} (hs : step cfg s i = .ok (s', o)) :
    Numbered s' o := by
  intro w hw k hk
  cases i with
  | receive msg waited =>
    simp only [step, Except.ok.injEq, Prod.mk.injEq] at hs
    obtain ⟨rfl, rfl⟩ := hs
    rw [(mem_write hw).2.1] at hk
    cases hmsg : proposalOf msg with
    | none => simp [hmsg] at hk
    | some fp =>
      obtain rfl : s.proposals.length = k := by simpa [hmsg] using hk
      simp
  | timer =>
    obtain ⟨pending, hp, -, rfl, rfl⟩ := step_timer hs
    rw [(mem_write hw).2.1, Option.some.injEq] at hk
    exact hk ▸ hq.pending_lt hp
  | control =>
    obtain ⟨msg, tag, rest, hc, rfl, rfl⟩ := step_control hs
    rw [(mem_write hw).2.1] at hk
    cases hres : resolvesPending s.session msg with
    | true =>
      obtain ⟨pending, hp⟩ := pending_of_resolves hres
      obtain rfl : s.pendingOf = k := by simpa [hres] using hk
      exact hq.pending_lt hp
    | false =>
      obtain rfl : tag = some k := by simpa [hres] using hk
      obtain ⟨fp, t, configured, hfp, -⟩ := hq.confirmations msg k (by rw [hc]; simp)
      exact (List.getElem?_eq_some_iff.mp hfp).1
  | application configured =>
    obtain ⟨rfl, -⟩ := step_application hs
    cases hw
  | send msg =>
    obtain ⟨-, -, rfl⟩ := step_send hs
    cases hw
  | tick ns =>
    simp only [step, Except.ok.injEq, Prod.mk.injEq] at hs
    obtain ⟨-, rfl⟩ := hs
    cases hw

/-- **One step.** -/
theorem acceptsReady_step (hdefer : cfg.deferFormatAccept = true) (hq : Queues cfg s)
    (hn : Numbered s log) {i : Input} (hs : step cfg s i = .ok (s', o)) :
    Numbered s' (log ++ o) ∧
      (AcceptsReady s' (log ++ o) ↔ AcceptsReady s log ∧ OwnConfirmation s i) := by
  have hprop := step_proposals hs
  refine ⟨hn.append hprop (numbered_written hq hs), ?_⟩
  rw [acceptsReady_append hprop hn, ready_written_iff hdefer hq hs]

end

/-! ## Every run -/

/-- **Readiness of a deferred accept, exactly when.** With the accepts deferred,
in every run, every `FormatAccept` is written after the application has
processed the `FormatProposed` of the proposal that it answers, or five seconds
after that proposal, if and only if the confirmations that resolve a pending
accept find that proposal's own confirmation in the control channel, or come
five seconds after the proposal. -/
theorem accepts_ready_iff {cfg : SessionConfig} {now : Nat} {inputs : List Input} {t : Net}
    {log : List Written} (hdefer : cfg.deferFormatAccept = true)
    (hrun : run (step cfg) (Net.start now) inputs = .ok (t, log)) :
    AcceptsReady t log ↔ Along (step cfg) OwnConfirmation (Net.start now) inputs := by
  have hall : ∀ (inputs : List Input) (s : Net), Along (step cfg) (fun _ _ => True) s inputs := by
    intro inputs
    induction inputs with
    | nil => intro _; trivial
    | cons i inputs ih => exact fun s => ⟨trivial, fun s' _ _ => ih s'⟩
  have hiff := run_iff_along (fun s log => Queues cfg s ∧ Numbered s log) AcceptsReady
    (fun _ _ => True) OwnConfirmation
    (fun s log i s' o hinv _ hs => by
      obtain ⟨hnumbered, hready⟩ := acceptsReady_step hdefer hinv.1 hinv.2 hs
      exact ⟨⟨hinv.1.step hs, hnumbered⟩, hready⟩)
    inputs _ t [] log ⟨Queues.start now, by simp [Numbered]⟩ (hall inputs _) hrun
  simpa [AcceptsReady] using hiff

theorem accepts_ready_confirmedInTime :
    ∃ t log, run (step modest) (Net.start 0) confirmedInTime = .ok (t, log) ∧
      log = [{ message := .formatAccept "a", answers := some 0, time := 0, processed := [0] }] ∧
      Along (step modest) OwnConfirmation (Net.start 0) confirmedInTime := by
  have hwritten : (run (step modest) (Net.start 0) confirmedInTime).map (fun r => r.2) =
      .ok [{ message := .formatAccept "a", answers := some 0, time := 0, processed := [0] }] := by
    decide +kernel
  cases hrun : run (step modest) (Net.start 0) confirmedInTime with
  | error e => simp [hrun, Except.map] at hwritten
  | ok r =>
    obtain ⟨t, log⟩ := r
    rw [hrun] at hwritten
    have hlog := Except.ok.inj hwritten
    refine ⟨t, log, rfl, hlog, (accepts_ready_iff rfl hrun).mp ?_⟩
    intro w hw _
    rw [show log = _ from hlog, List.mem_singleton] at hw
    exact ⟨0, by simp [hw]⟩

/-- The stream is proposed again, at another rate, while the confirmation of the
first proposal is on its way. The second proposal is accepted by it, before the
application has seen the second `FormatProposed`. -/
def proposedAgain : List Input :=
  [.receive (.formatPropose (stereo "a" 44100)) 0, .application (.ok ()),
    .application (.ok ()), .receive (.formatPropose (stereo "a" 48000)) 0, .control]

theorem early_accept :
    ∃ t log, run (step modest) (Net.start 0) proposedAgain = .ok (t, log) ∧
      log = [{ message := .formatAccept "a", answers := some 1, time := 0, processed := [0] }] ∧
      t.proposals = [(stereo "a" 44100, 0), (stereo "a" 48000, 0)] ∧
      ¬ AcceptsReady t log := by
  have hend : (run (step modest) (Net.start 0) proposedAgain).map
      (fun r => (r.1.proposals, r.2)) =
      .ok ([(stereo "a" 44100, 0), (stereo "a" 48000, 0)],
        [{ message := .formatAccept "a", answers := some 1, time := 0, processed := [0] }]) := by
    decide +kernel
  cases hrun : run (step modest) (Net.start 0) proposedAgain with
  | error e => simp [hrun, Except.map] at hend
  | ok r =>
    obtain ⟨t, log⟩ := r
    rw [hrun] at hend
    obtain ⟨hproposals, hlog⟩ := Prod.mk.inj (Except.ok.inj hend)
    refine ⟨t, log, rfl, hlog, hproposals, ?_⟩
    intro hready
    obtain ⟨k, hk, hcause⟩ := hready _ (by rw [show log = _ from hlog]; exact .head _) rfl
    obtain rfl : 1 = k := Option.some.inj hk
    rcases hcause with hcause | ⟨fp, received, -, hlate⟩
    · simp at hcause
    · simp [FAIL_OPEN_NS] at hlate

end Oaat.Negotiation
