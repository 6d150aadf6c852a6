/-
Oaat.Negotiation.Verdicts — at most one verdict per proposal.

With distinct stream ids the invariant `Ledger` accounts for every verdict
written: a proposal that was not deferred has its immediate one, a proposal
whose timer fired has the automatic one, and any other verdict is a
confirmation taken off the control channel, of which there is one per
proposal. A second verdict for a proposal is then always the same thing: a
confirmation that the session forwards, with nothing pending, for a proposal
that had its verdict. The main theorem says that this is the only way to get
one, and that it always gives one.
-/
import Oaat.Negotiation.System

namespace Oaat.Negotiation

open Oaat.Core Oaat.Endpoint Oaat.Lib

def AtMostOneVerdict (log : List Written) : Prop :=
  ∀ streamId, (log.filter fun w => verdictFor w.message = some streamId).length ≤ 1

/-- No verdict for the stream id has been written. -/
def Silent (log : List Written) (streamId : String) : Prop :=
  ∀ w ∈ log, verdictFor w.message ≠ some streamId

/-- The stream id of the proposal that an input brings. -/
def proposedId (i : Input) : Option String := i.proposal.map fun fp => fp.streamId

/-- The proposal that an input brings has a new stream id. -/
def Fresh (s : Net) (i : Input) : Prop :=
  ∀ streamId, proposedId i = some streamId → streamId ∉ s.proposals.map fun p => p.1.streamId

/-- A confirmation taken off the control channel with nothing pending is for a
proposal whose accept was deferred and has not been sent by the timer. -/
def ForwardsOwed (cfg : SessionConfig) (s : Net) : Input → Prop
  | .control => ∀ msg k rest fp t, s.session.pendingAccept = none →
      s.control = (msg, some k) :: rest → s.proposals[k]? = some (fp, t) →
      deferred cfg fp = true ∧ k ∉ s.failedOpen
  | _ => True

/-- Where the verdicts written so far come from. -/
structure Ledger (cfg : SessionConfig) (s : Net) (log : List Written) : Prop where
  ids : (s.proposals.map fun p => p.1.streamId).Nodup
  entries : ∀ w ∈ log, ∀ streamId, verdictFor w.message = some streamId →
    ∃ k fp t, s.proposals[k]? = some (fp, t) ∧ fp.streamId = streamId ∧
      (deferred cfg fp = false ∨ k ∈ s.failedOpen ∨ k ∈ s.taken)
  answered : ∀ k fp t, s.proposals[k]? = some (fp, t) →
    deferred cfg fp = false ∨ k ∈ s.failedOpen → ¬ Silent log fp.streamId

/-! ## Counting verdicts -/

section

variable {cfg : SessionConfig} {s s' : Net} {log o : List Written} {fp : FormatPropose}
  {k t : Nat}

theorem atMostOne_append_none (h : ∀ w ∈ o, verdictFor w.message = none) :
    AtMostOneVerdict (log ++ o) ↔ AtMostOneVerdict log := by
  have hnil : ∀ streamId, o.filter (fun w => verdictFor w.message = some streamId) = [] := by
    intro streamId
    rw [List.filter_eq_nil_iff]
    intro w hw
    simp [h w hw]
  simp [AtMostOneVerdict, List.filter_append, hnil]

theorem atMostOne_append_verdict {w : Written} {streamId : String}
    (h : verdictFor w.message = some streamId) :
    AtMostOneVerdict (log ++ [w]) ↔ AtMostOneVerdict log ∧ Silent log streamId := by
  have hsilent : Silent log streamId ↔
      (log.filter fun w => verdictFor w.message = some streamId) = [] := by
    rw [List.filter_eq_nil_iff]
    simp [Silent]
  rw [hsilent]
  constructor
  · intro hone
    refine ⟨?_, ?_⟩
    · intro other
      have := hone other
      rw [List.filter_append, List.length_append] at this
      omega
    · have := hone streamId
      rw [List.filter_append, List.length_append] at this
      simp only [h, decide_true, List.filter_cons_of_pos, List.filter_nil,
        List.length_singleton] at this
      exact List.length_eq_zero_iff.mp (by omega)
  · rintro ⟨hone, hnil⟩ other
    rw [List.filter_append, List.length_append]
    by_cases hother : other = streamId
    · rw [hother, hnil]
      simp [h]
    · have hw : [w].filter (fun w => verdictFor w.message = some other) = [] := by
        simp [h, Ne.symm hother]
      rw [hw]
      exact hone other

/-- Distinct stream ids: a stream id tells the proposal. -/
theorem Ledger.number_eq (h : Ledger cfg s log) {fp' : FormatPropose} {k' t' : Nat}
    (hk : s.proposals[k]? = some (fp, t)) (hk' : s.proposals[k']? = some (fp', t'))
    (hid : fp.streamId = fp'.streamId) : k = k' := by
  obtain ⟨hlt, -⟩ := List.getElem?_eq_some_iff.mp hk
  refine (List.getElem?_inj (by simpa using hlt) h.ids).mp ?_
  simp [List.getElem?_map, hk, hk', hid]

/-- A deferred proposal that neither the timer nor a confirmation has answered
has no verdict. -/
theorem Ledger.silent (h : Ledger cfg s log) (hk : s.proposals[k]? = some (fp, t))
    (hd : deferred cfg fp = true) (hf : k ∉ s.failedOpen) (ht : k ∉ s.taken) :
    Silent log fp.streamId := by
  intro w hw hv
  obtain ⟨k', fp', t', hk', hid, hcause⟩ := h.entries w hw _ hv
  obtain rfl := h.number_eq hk hk' hid.symm
  obtain ⟨rfl, rfl⟩ : fp = fp' ∧ t = t' := by simpa using hk.symm.trans hk'
  rcases hcause with hcause | hcause | hcause
  · rw [hd] at hcause
    cases hcause
  · exact hf hcause
  · exact ht hcause

/-- The accounts after a step that brings no proposal and fires no timer. -/
theorem Ledger.extend (h : Ledger cfg s log) (hprop : s'.proposals = s.proposals)
    (hfail : s'.failedOpen = s.failedOpen) (htaken : ∀ k ∈ s.taken, k ∈ s'.taken)
    (hnew : ∀ w ∈ o, ∀ streamId, verdictFor w.message = some streamId →
      ∃ k fp t, s.proposals[k]? = some (fp, t) ∧ fp.streamId = streamId ∧ k ∈ s'.taken) :
    Ledger cfg s' (log ++ o) := by
  refine ⟨by rw [hprop]; exact h.ids, ?_, ?_⟩
  · intro w hw streamId hv
    rw [hprop, hfail]
    rcases List.mem_append.mp hw with hw | hw
    · obtain ⟨k, fp, t, hk, hid, hcause⟩ := h.entries w hw streamId hv
      exact ⟨k, fp, t, hk, hid, hcause.imp_right fun hc => hc.imp_right (htaken k)⟩
    · obtain ⟨k, fp, t, hk, hid, hin⟩ := hnew w hw streamId hv
      exact ⟨k, fp, t, hk, hid, .inr (.inr hin)⟩
  · intro k fp t hk hcause
    rw [hprop] at hk
    rw [hfail] at hcause
    intro hsilent
    exact h.answered k fp t hk hcause fun w hw => hsilent w (List.mem_append_left _ hw)

/-! ## One step -/

/-- A new proposal has no verdict yet. -/
theorem Ledger.silent_fresh (h : Ledger cfg s log)
    (hfresh : fp.streamId ∉ s.proposals.map fun p => p.1.streamId) : Silent log fp.streamId := by
  intro w hw hv
  obtain ⟨k, fp', t, hk, hid, -⟩ := h.entries w hw _ hv
  exact hfresh (hid ▸ List.mem_map_of_mem (List.mem_of_getElem? hk))

theorem Ledger.propose (h : Ledger cfg s log) (hq : Queues cfg s) {waited : Nat}
    (hfresh : Fresh s (.receive (.formatPropose fp) waited))
    (hs : step cfg s (.receive (.formatPropose fp) waited) = .ok (s', o)) :
    Ledger cfg s' (log ++ o) ∧ (AtMostOneVerdict (log ++ o) ↔ AtMostOneVerdict log) := by
  have hnew := hfresh fp.streamId rfl
  have hsilent := h.silent_fresh hnew
  simp only [step, controllerMessage_formatPropose, formatPropose_writes, Except.ok.injEq,
    Prod.mk.injEq] at hs
  obtain ⟨rfl, rfl⟩ := hs
  have hproposals : ∀ {k fp' t}, (s.proposals ++ [(fp, s.now)])[k]? = some (fp', t) →
      s.proposals[k]? = some (fp', t) ∨ k = s.proposals.length ∧ fp' = fp :=
    fun hk => (lookup_concat hk).imp_right fun hlast => ⟨hlast.1, (Prod.mk.inj hlast.2).1⟩
  have hids : ((s.proposals ++ [(fp, s.now)]).map fun p => p.1.streamId).Nodup := by
    rw [List.map_append, List.nodup_append]
    refine ⟨h.ids, by simp, fun x hx y hy hxy => hnew ?_⟩
    rw [List.mem_singleton.mp hy] at hxy
    rw [hxy] at hx
    exact hx
  have hentry : ∀ w ∈ log, ∀ streamId, verdictFor w.message = some streamId →
      ∃ k fp' t, (s.proposals ++ [(fp, s.now)])[k]? = some (fp', t) ∧
        fp'.streamId = streamId ∧
        (deferred cfg fp' = false ∨ k ∈ s.failedOpen ∨ k ∈ s.taken) := by
    intro w hw streamId hv
    obtain ⟨k, fp', t, hk, hrest⟩ := h.entries w hw streamId hv
    exact ⟨k, fp', t, lookup_append hk _, hrest⟩
  cases hd : deferred cfg fp with
  | true =>
    simp only [if_true, Net.write, List.map_nil, List.append_nil]
    refine ⟨⟨hids, hentry, ?_⟩, trivial⟩
    intro k fp' t hk hcause
    rcases hproposals hk with hk | ⟨rfl, rfl⟩
    · exact h.answered k fp' t hk hcause
    · -- neither of the two causes applies to it
      rcases hcause with hcause | hcause
      · rw [hd] at hcause
        cases hcause
      · exact absurd (hq.failedOpen _ hcause) (lt_irrefl _)
  | false =>
    have hverdict := verdictFor_negotiateFormat cfg.capabilities fp
    simp only [Bool.false_eq_true, if_false, Net.write, List.map_cons, List.map_nil]
    refine ⟨⟨hids, ?_, ?_⟩, ?_⟩
    · intro w hw streamId hv
      rcases List.mem_append.mp hw with hw | hw
      · exact hentry w hw streamId hv
      · rw [List.mem_singleton.mp hw, hverdict] at hv
        exact ⟨s.proposals.length, fp, s.now, by simp [proposalOf], Option.some.inj hv, .inl hd⟩
    · intro k fp' t hk hcause hsil
      rcases hproposals hk with hk | ⟨rfl, rfl⟩
      · exact h.answered k fp' t hk hcause fun w hw => hsil w (List.mem_append_left _ hw)
      · exact hsil _ (List.mem_append_right _ (List.mem_singleton_self _)) hverdict
    · rw [atMostOne_append_verdict hverdict]
      exact and_iff_left hsilent

theorem Ledger.timer (h : Ledger cfg s log) (hq : Queues cfg s)
    (hs : step cfg s .timer = .ok (s', o)) :
    Ledger cfg s' (log ++ o) ∧ (AtMostOneVerdict (log ++ o) ↔ AtMostOneVerdict log) := by
  obtain ⟨pending, hp, -, rfl, rfl⟩ := step_timer hs
  obtain ⟨fp, t, hfor⟩ := hq.pending pending hp
  have hsilent := h.silent hfor.proposal hfor.deferred hfor.notFailedOpen hfor.notTaken
  have hverdict : verdictFor pending.auto = some fp.streamId := by rw [hfor.auto]; rfl
  simp only [Net.write, List.map_cons, List.map_nil]
  refine ⟨⟨h.ids, ?_, ?_⟩, ?_⟩
  · intro w hw streamId hv
    rcases List.mem_append.mp hw with hw | hw
    · obtain ⟨k, fp', t', hk, hid, hcause⟩ := h.entries w hw streamId hv
      exact ⟨k, fp', t', hk, hid, hcause.imp_right fun hc => hc.imp_left (List.mem_append_left _)⟩
    · rw [List.mem_singleton.mp hw, hverdict] at hv
      exact ⟨s.pendingOf, fp, t, hfor.proposal, Option.some.inj hv, .inr (.inl (by simp))⟩
  · intro k fp' t' hk hcause hsil
    by_cases hsame : k = s.pendingOf
    · obtain ⟨rfl, rfl⟩ : fp = fp' ∧ t = t' := by
        rw [hsame] at hk
        simpa using hfor.proposal.symm.trans hk
      exact hsil _ (List.mem_append_right _ (List.mem_singleton_self _)) hverdict
    · refine h.answered k fp' t' hk ?_ fun w hw => hsil w (List.mem_append_left _ hw)
      simpa [hsame] using hcause
  · rw [atMostOne_append_verdict hverdict]
    exact and_iff_left hsilent

/-- While an accept is pending, a confirmation is dropped or is the pending
proposal's own. -/
theorem Ledger.confirmation_pending (h : Ledger cfg s log) (hq : Queues cfg s)
    {pending : PendingAccept} (hp : s.session.pendingAccept = some pending)
    (hk : s.proposals[k]? = some (fp, t)) (configured : Except String Unit)
    (answers : Option Nat) :
    AtMostOneVerdict (log ++ s.write answers
        (controlMessage cfg s.session (confirmation fp configured)).writes) ↔
      AtMostOneVerdict log := by
  obtain ⟨fp', t', hfor⟩ := hq.pending pending hp
  cases hres : resolvesPending s.session (confirmation fp configured) with
  | false => simp [controlMessage_confirmation, hp, hres, Net.write]
  | true =>
    -- distinct stream ids: the pending proposal is the one confirmed
    have hid : fp.streamId = fp'.streamId := by
      rw [← hfor.streamId]
      cases configured <;> simpa [resolvesPending, confirmation, hp] using hres
    obtain rfl := h.number_eq hk hfor.proposal hid
    obtain ⟨rfl, rfl⟩ : fp = fp' ∧ t = t' := by simpa using hk.symm.trans hfor.proposal
    have hsilent := h.silent hk hfor.deferred hfor.notFailedOpen hfor.notTaken
    simp only [controlMessage_confirmation, hres, Bool.true_or, if_true, Net.write,
      List.map_cons, List.map_nil]
    rw [atMostOne_append_verdict (verdictFor_confirmation fp configured)]
    exact and_iff_left hsilent

/-- With nothing pending a confirmation is forwarded: this is where a second
verdict can come from. -/
theorem Ledger.confirmation_forwarded (h : Ledger cfg s log)
    (hp : s.session.pendingAccept = none) (hk : s.proposals[k]? = some (fp, t))
    (hnot : k ∉ s.taken) (configured : Except String Unit) (answers : Option Nat) :
    AtMostOneVerdict (log ++ s.write answers
        (controlMessage cfg s.session (confirmation fp configured)).writes) ↔
      AtMostOneVerdict log ∧ deferred cfg fp = true ∧ k ∉ s.failedOpen := by
  simp only [controlMessage_confirmation, hp, Option.isNone_none, Bool.or_true, if_true,
    Net.write, List.map_cons, List.map_nil]
  rw [atMostOne_append_verdict (verdictFor_confirmation fp configured)]
  refine and_congr_right fun _ => ⟨?_, ?_⟩
  · intro hsilent
    refine ⟨?_, fun hfail => h.answered k fp t hk (.inr hfail) hsilent⟩
    by_contra hd
    exact h.answered k fp t hk (.inl (by simpa using hd)) hsilent
  · rintro ⟨hd, hfail⟩
    exact h.silent hk hd hfail hnot

/-- The control channel. -/
theorem Ledger.control (h : Ledger cfg s log) (hq : Queues cfg s)
    (hs : step cfg s .control = .ok (s', o)) :
    Ledger cfg s' (log ++ o) ∧
      (AtMostOneVerdict (log ++ o) ↔ AtMostOneVerdict log ∧ ForwardsOwed cfg s .control) := by
  obtain ⟨msg, tag, rest, hc, rfl, rfl⟩ := step_control hs
  have htaken : ∀ k ∈ s.taken, k ∈ s.taken ++ tag.toList := fun k hk => by simp [hk]
  cases tag with
  | none =>
    have hmsg := hq.others msg (by rw [hc]; simp)
    have hnone : ∀ w ∈ s.write (if resolvesPending s.session msg then some s.pendingOf else none)
        (controlMessage cfg s.session msg).writes, verdictFor w.message = none := by
      intro w hw
      rw [controlMessage_writes (mem_write hw).1]
      exact hmsg
    refine ⟨h.extend rfl rfl htaken ?_, ?_⟩
    · intro w hw streamId hv
      rw [hnone w hw] at hv
      cases hv
    · rw [atMostOne_append_none hnone, iff_self_and]
      intro _ m k rest' fp t _ hc'
      rw [hc] at hc'
      simp at hc'
  | some k =>
    obtain ⟨fp, t, configured, hk, rfl⟩ := hq.confirmations msg k (by rw [hc]; simp)
    have hnot : k ∉ s.taken := hq.head_not_taken (by simp [Net.confirmed, hc])
    have howed : ForwardsOwed cfg s .control ↔
        (s.session.pendingAccept = none → deferred cfg fp = true ∧ k ∉ s.failedOpen) := by
      constructor
      · intro hf hp
        exact hf _ k rest fp t hp hc hk
      · intro hf m k' rest' fp' t' hp hc' hk'
        simp only [hc, List.cons.injEq, Prod.mk.injEq, Option.some.injEq] at hc'
        obtain ⟨⟨-, rfl⟩, -⟩ := hc'
        obtain ⟨rfl, rfl⟩ : fp = fp' ∧ t = t' := by simpa using hk.symm.trans hk'
        exact hf hp
    refine ⟨h.extend rfl rfl htaken ?_, ?_⟩
    · intro w hw streamId hv
      rw [controlMessage_writes (mem_write hw).1, verdictFor_confirmation] at hv
      exact ⟨k, fp, t, hk, Option.some.inj hv, by simp⟩
    · rw [howed]
      cases hp : s.session.pendingAccept with
      | none => simpa using h.confirmation_forwarded hp hk hnot configured _
      | some pending => simpa using h.confirmation_pending hq hp hk configured _

/-- A step that writes no verdict, brings no proposal and leaves the tags alone. -/
theorem Ledger.quiet (h : Ledger cfg s log) (hprop : s'.proposals = s.proposals)
    (hfail : s'.failedOpen = s.failedOpen) (htaken : s'.taken = s.taken)
    (ho : ∀ w ∈ o, verdictFor w.message = none) :
    Ledger cfg s' (log ++ o) ∧ (AtMostOneVerdict (log ++ o) ↔ AtMostOneVerdict log) := by
  refine ⟨h.extend hprop hfail (fun k hk => htaken ▸ hk) ?_, atMostOne_append_none ho⟩
  intro w hw streamId hv
  rw [ho w hw] at hv
  cases hv

/-- **One step.** -/
theorem Ledger.step (h : Ledger cfg s log) (hq : Queues cfg s) {i : Input}
    (hfresh : Fresh s i) (hs : step cfg s i = .ok (s', o)) :
    Ledger cfg s' (log ++ o) ∧
      (AtMostOneVerdict (log ++ o) ↔ AtMostOneVerdict log ∧ ForwardsOwed cfg s i) := by
  -- all inputs but `control` are free of the condition
  suffices hfree : i ≠ .control → Ledger cfg s' (log ++ o) ∧
      (AtMostOneVerdict (log ++ o) ↔ AtMostOneVerdict log) by
    cases i with
    | control => exact h.control hq hs
    | _ => simpa [ForwardsOwed] using hfree (by simp)
  intro hi
  cases i with
  | receive msg waited =>
    by_cases hmsg : ∃ fp, msg = .formatPropose fp
    · obtain ⟨fp, rfl⟩ := hmsg
      exact h.propose hq hfresh hs
    · have hother : ∀ fp, msg ≠ .formatPropose fp := fun fp hfp => hmsg ⟨fp, hfp⟩
      have hquiet := (controllerMessage_other cfg s.session (s.now + waited) hother).2.1
      simp only [Negotiation.step, proposalOf_other hother, Except.ok.injEq,
        Prod.mk.injEq] at hs
      obtain ⟨rfl, rfl⟩ := hs
      exact h.quiet (by simp) rfl rfl fun w hw => hquiet _ (mem_write hw).1
  | timer => exact h.timer hq hs
  | control => exact absurd rfl hi
  | application configured =>
    obtain ⟨rfl, ⟨fp, k, rest, -, rfl⟩ | ⟨event, rest, -, -, rfl⟩⟩ := step_application hs
    · exact h.quiet rfl rfl rfl (by simp)
    · exact h.quiet rfl rfl rfl (by simp)
  | send msg =>
    obtain ⟨-, rfl, rfl⟩ := step_send hs
    exact h.quiet rfl rfl rfl (by simp)
  | tick ns =>
    simp only [Negotiation.step, Except.ok.injEq, Prod.mk.injEq] at hs
    obtain ⟨rfl, rfl⟩ := hs
    exact h.quiet rfl rfl rfl (by simp)

/-! ## Every run -/

theorem Ledger.start (now : Nat) : Ledger cfg (Net.start now) [] where
  ids := by simp [Net.start]
  entries := by simp
  answered := by simp [Net.start]

/-- A step adds the stream id that its input brings. -/
theorem step_ids {i : Input} (hs : step cfg s i = .ok (s', o)) :
    (s'.proposals.map fun p => p.1.streamId) =
      (s.proposals.map fun p => p.1.streamId) ++ (proposedId i).toList := by
  rw [step_proposals hs, proposedId]
  cases i.proposal <;> simp

theorem fresh_of_nodup : ∀ (inputs : List Input) (s : Net),
    ((s.proposals.map fun p => p.1.streamId) ++ inputs.filterMap proposedId).Nodup →
      Along (step cfg) Fresh s inputs
  | [], _, _ => trivial
  | i :: inputs, s, h => by
      refine ⟨?_, fun s' o hs => fresh_of_nodup inputs s' ?_⟩
      · intro streamId hi hmem
        refine (List.nodup_append.mp h).2.2 streamId hmem streamId ?_ rfl
        exact List.mem_filterMap.mpr ⟨i, by simp, hi⟩
      · rw [step_ids hs]
        cases hi : proposedId i with
        | none => simpa [List.filterMap_cons, hi] using h
        | some streamId => simpa [List.filterMap_cons, hi] using h

end

/-- **At most one verdict per proposal, exactly when.** In every run in which the
proposals have distinct stream ids, no proposal gets two verdicts if and only
if every confirmation that is taken off the control channel with nothing
pending is for a proposal whose accept was deferred and not sent by the timer. -/
theorem at_most_one_verdict_iff {cfg : SessionConfig} {now : Nat} {inputs : List Input}
    {t : Net} {log : List Written}
    (hrun : run (step cfg) (Net.start now) inputs = .ok (t, log))
    (hdistinct : (inputs.filterMap proposedId).Nodup) :
    AtMostOneVerdict log ↔ Along (step cfg) (ForwardsOwed cfg) (Net.start now) inputs := by
  have hfresh : Along (step cfg) Fresh (Net.start now) inputs :=
    fresh_of_nodup inputs _ (by simpa [Net.start] using hdistinct)
  have hiff := run_iff_along (fun s log => Queues cfg s ∧ Ledger cfg s log)
    (fun _ log => AtMostOneVerdict log) Fresh (ForwardsOwed cfg)
    (fun s log i s' o hinv hA hs => by
      obtain ⟨hledger, hone⟩ := hinv.2.step hinv.1 hA hs
      exact ⟨⟨hinv.1.step hs, hledger⟩, hone⟩)
    inputs _ t [] log ⟨Queues.start now, Ledger.start now⟩ hfresh hrun
  have hempty : AtMostOneVerdict [] := by simp [AtMostOneVerdict]
  simpa [hempty] using hiff

/-- The proposal is countered, the application opens the device for it anyway,
and its confirmation is forwarded. -/
theorem countered_then_accepted :
    ∃ t log, run (step modest) (Net.start 0)
        [.receive (.formatPropose (stereo "a" 96000)) 0, .application (.ok ()), .control]
        = .ok (t, log) ∧
      log.map (fun w => w.message) =
        [.formatCounter
          { streamId := "a", format := .pcmS24le, sampleRate := 48000, channels := 2,
            channelLayout := .stereo, bitsPerSample := 24, dsdRate := none },
         .formatAccept "a"] ∧
      ¬ AtMostOneVerdict log := by
  refine ⟨_, _, rfl, by decide, ?_⟩
  intro hone
  exact absurd (hone "a") (by decide)

theorem at_most_one_verdict_confirmedInTime :
    ∃ t log, run (step modest) (Net.start 0) confirmedInTime = .ok (t, log) ∧
      log.map (fun w => w.message) = [.formatAccept "a"] ∧
      Along (step modest) (ForwardsOwed modest) (Net.start 0) confirmedInTime := by
  have hmessages : (run (step modest) (Net.start 0) confirmedInTime).map
      (fun r => r.2.map fun w => w.message) = .ok [.formatAccept "a"] := by decide +kernel
  cases hrun : run (step modest) (Net.start 0) confirmedInTime with
  | error e => simp [hrun, Except.map] at hmessages
  | ok r =>
    obtain ⟨t, log⟩ := r
    rw [hrun] at hmessages
    have hlog : log.map (fun w => w.message) = [.formatAccept "a"] := Except.ok.inj hmessages
    have hlen : log.length = 1 := by simpa using congrArg List.length hlog
    refine ⟨t, log, rfl, hlog, (at_most_one_verdict_iff hrun (by decide)).mp ?_⟩
    intro streamId
    exact hlen ▸ List.length_filter_le _ log

end Oaat.Negotiation
