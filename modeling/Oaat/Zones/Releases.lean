/-
Oaat.Zones.Releases — what becomes of an `EndpointRelease` that a member sends.

The release has a channel of its own, but it comes in behind the endpoint's
responses, and nothing in a zone takes these off their channel. After 32 of them
the reader waits for room that never comes, the release stays on the wire, and
the end of the connection goes unnoticed. `Flow` accounts for every response and
every release, wherever it is.
-/
import Oaat.Controller.Reader

namespace Oaat.Zones

open Oaat.Core Oaat.Lib Oaat.Controller

def releaseOf : Message → Option EndpointRelease
  | .endpointRelease er => some er
  | _ => none

/-- The response that the reader waits with. -/
def readerHeld : ReaderPc → List EndpointResponse
  | .sending response => [response]
  | _ => []

/-- The release that the forwarder waits with. -/
def forwardHeld : ForwardPc → List ZoneEndpointRelease
  | .sending release => [release]
  | _ => []

/-- Nothing more can step. -/
def Stuck (s : Link) : Prop := ∀ a, s.step a = .error ()

/-- The release has been placed in the zone's channel. -/
def Placed (s : Link) (er : EndpointRelease) : Prop :=
  ⟨s.endpointId, er⟩ ∈ s.drained ++ s.zone.items

instance (s : Link) (er : EndpointRelease) : Decidable (Placed s er) :=
  inferInstanceAs (Decidable (_ ∈ _))

/-- Every response is in its channel, with the reader, or still to come; none is
taken. Every release is with the application, in one of the channels, with the
forwarder, or still to come. -/
structure Flow (endpointId : String) (sent : List Message) (s : Link) : Prop where
  id : s.endpointId = endpointId
  responses : s.responses.items ++ readerHeld s.reader ++
    (s.wire ++ s.script).filterMap responseOf = sent.filterMap responseOf
  releases : (sent.filterMap releaseOf).length ≤ 4 →
    s.drained ++ s.zone.items ++ forwardHeld s.forward ++
      (s.releases.items ++ (s.wire ++ s.script).filterMap releaseOf).map
        (ZoneEndpointRelease.mk endpointId) =
      (sent.filterMap releaseOf).map (ZoneEndpointRelease.mk endpointId)
  finished : s.reader = .finished → s.wire = [] ∧ s.closed = true
  closed : s.closed = true → s.script = []
  forwarded : s.forward = .finished → s.reader = .finished ∧ s.releases.items = []

section

variable {endpointId : String} {sent : List Message} {s s' : Link}

theorem Flow.start (endpointId : String) (sent : List Message) :
    Flow endpointId sent (.start endpointId sent) where
  id := rfl
  responses := rfl
  releases _ := rfl
  finished h := by cases h
  closed h := by cases h
  forwarded h := by cases h

/-! ## One step -/

theorem Flow.endpointStep (h : Flow endpointId sent s) (hstep : s.endpointStep = some s') :
    Flow endpointId sent s' := by
  unfold Link.endpointStep at hstep
  split at hstep
  next msg script hscript =>
    cases hstep
    have hopen : s.closed ≠ true := by
      intro hclosed
      rw [h.closed hclosed] at hscript
      cases hscript
    have hsame : s.wire ++ [msg] ++ script = s.wire ++ s.script := by rw [hscript]; simp
    refine ⟨h.id, ?_, ?_, ?_, fun hclosed => absurd hclosed hopen, h.forwarded⟩
    · rw [hsame]
      exact h.responses
    · rw [hsame]
      exact h.releases
    · intro hfinished
      exact absurd (h.finished hfinished).2 hopen
  next hscript =>
    split at hstep
    next => cases hstep
    next =>
      cases hstep
      exact ⟨h.id, h.responses, h.releases, fun hf => ⟨(h.finished hf).1, rfl⟩, fun _ => hscript,
        h.forwarded⟩

/-- What a message does, taken off the wire. -/
theorem handle_frame (s : Link) (msg : Message) :
    (s.handle msg).endpointId = s.endpointId ∧ (s.handle msg).wire = s.wire ∧
      (s.handle msg).script = s.script ∧ (s.handle msg).closed = s.closed ∧
      (s.handle msg).forward = s.forward ∧ (s.handle msg).zone = s.zone ∧
      (s.handle msg).drained = s.drained := by
  unfold Link.handle
  split
  next => simp
  next =>
    split
    next =>
      split
      next => simp
      next => simp
    next => simp

theorem handle_responses (hreading : s.reader = .reading) (msg : Message) :
    (s.handle msg).responses.items ++ readerHeld (s.handle msg).reader =
      s.responses.items ++ (responseOf msg).toList := by
  unfold Link.handle
  split
  next er => simp [hreading, readerHeld, responseOf]
  next =>
    split
    next response hresponse =>
      rw [hresponse]
      split
      next responses hsend =>
        simp [hreading, readerHeld, (Channel.send_eq_some hsend).2]
      next => simp [readerHeld]
    next hnone => simp [hreading, readerHeld, hnone]

theorem handle_releases {msg : Message}
    (hroom : (releaseOf msg).isSome → s.releases.items.length < 4) :
    (s.handle msg).releases.items = s.releases.items ++ (releaseOf msg).toList := by
  unfold Link.handle
  split
  next er => exact Channel.items_trySend (hroom rfl)
  next hother =>
    have hnone : releaseOf msg = none := by
      cases msg <;> first | rfl | exact absurd rfl (hother _)
    rw [hnone]
    split
    next =>
      split
      next => simp
      next => simp
    next => simp

theorem handle_not_finished (hreading : s.reader = .reading) (msg : Message) :
    (s.handle msg).reader ≠ .finished := by
  unfold Link.handle
  split
  next => simp [hreading]
  next =>
    split
    next =>
      split
      next => simp [hreading]
      next => simp
    next => simp [hreading]

/-- The reader takes a message off the wire. -/
theorem Flow.read (h : Flow endpointId sent s) (hreading : s.reader = .reading) {msg : Message}
    {wire : List Message} (hwire : s.wire = msg :: wire) :
    Flow endpointId sent ({ s with wire }.handle msg) := by
  obtain ⟨hid, hwire', hscript, hclosed, hforward, hzone, hdrained⟩ :=
    handle_frame { s with wire } msg
  have hresponses := handle_responses (s := { s with wire }) hreading msg
  have hbefore := h.responses
  refine ⟨hid.trans h.id, ?_, ?_, ?_, ?_, ?_⟩
  · rw [hresponses, hwire', hscript]
    rw [hwire, hreading, List.cons_append, List.filterMap_cons] at hbefore
    rw [← hbefore]
    cases responseOf msg <;> simp [readerHeld]
  · intro hfew
    have hflow := h.releases hfew
    rw [hwire, List.cons_append, List.filterMap_cons] at hflow
    -- at most four releases are sent, so there is room for this one
    have hroom : (releaseOf msg).isSome → s.releases.items.length < 4 := by
      intro hrelease
      obtain ⟨er, her⟩ := Option.isSome_iff_exists.mp hrelease
      have hlength := congrArg List.length hflow
      simp only [her, List.length_append, List.length_map, List.length_cons] at hlength
      omega
    rw [hdrained, hzone, hforward, handle_releases (s := { s with wire }) hroom, hwire', hscript,
      ← hflow]
    cases releaseOf msg <;> simp
  · intro hfinished
    exact absurd hfinished (handle_not_finished (s := { s with wire }) hreading msg)
  · rw [hclosed, hscript]
    exact h.closed
  · intro hdone
    rw [hforward] at hdone
    rw [(h.forwarded hdone).1] at hreading
    cases hreading

theorem Flow.readerStep (h : Flow endpointId sent s) (hstep : s.readerStep = some s') :
    Flow endpointId sent s' := by
  unfold Link.readerStep at hstep
  split at hstep
  next hreading =>
    split at hstep
    next msg wire hwire =>
      cases hstep
      exact h.read hreading hwire
    next hwire =>
      split at hstep
      next hclosed =>
        cases hstep
        have hresponses := h.responses
        rw [hreading] at hresponses
        exact ⟨h.id, hresponses, h.releases, fun _ => ⟨hwire, hclosed⟩, h.closed,
          fun hdone => ⟨rfl, (h.forwarded hdone).2⟩⟩
      next => cases hstep
  next response hsending =>
    obtain ⟨responses, hsend, rfl⟩ := Option.map_eq_some_iff.mp hstep
    have hresponses := h.responses
    rw [hsending] at hresponses
    refine ⟨h.id, ?_, h.releases, nofun, h.closed, ?_⟩
    · rw [← hresponses, (Channel.send_eq_some hsend).2]
      simp [readerHeld]
    · intro hdone
      rw [(h.forwarded hdone).1] at hsending
      cases hsending
  next => cases hstep

theorem Flow.forwardStep (h : Flow endpointId sent s) (hstep : s.forwardStep = some s') :
    Flow endpointId sent s' := by
  unfold Link.forwardStep at hstep
  split at hstep
  next hreceiving =>
    split at hstep
    next release releases hrecv =>
      cases hstep
      refine ⟨h.id, h.responses, ?_, h.finished, h.closed, nofun⟩
      intro hfew
      rw [← h.releases hfew, hreceiving, Channel.recv_eq_some hrecv]
      simp [forwardHeld, h.id]
    next hrecv =>
      split at hstep
      next => cases hstep
      next hdead =>
        cases hstep
        refine ⟨h.id, h.responses, ?_, h.finished, h.closed, ?_⟩
        · intro hfew
          rw [← h.releases hfew, hreceiving]
          rfl
        · intro _
          exact ⟨by simpa [Link.isReaderAlive] using hdead, Channel.recv_eq_none_iff.mp hrecv⟩
  next release hsending =>
    obtain ⟨zone, hsend, rfl⟩ := Option.map_eq_some_iff.mp hstep
    refine ⟨h.id, h.responses, ?_, h.finished, h.closed, nofun⟩
    intro hfew
    rw [← h.releases hfew, hsending, (Channel.send_eq_some hsend).2]
    simp [forwardHeld]
  next => cases hstep

theorem Flow.drainStep (h : Flow endpointId sent s) (hstep : s.drainStep = some s') :
    Flow endpointId sent s' := by
  obtain ⟨⟨release, zone⟩, hrecv, rfl⟩ := Option.map_eq_some_iff.mp hstep
  refine ⟨h.id, h.responses, ?_, h.finished, h.closed, h.forwarded⟩
  intro hfew
  rw [← h.releases hfew, Channel.recv_eq_some hrecv]
  simp

theorem Flow.step (h : Flow endpointId sent s) {a : LinkAction} {o : List Unit}
    (hstep : s.step a = .ok (s', o)) : Flow endpointId sent s' := by
  have hnext := Link.step_eq_ok hstep
  cases a with
  | endpoint => exact h.endpointStep hnext
  | reader => exact h.readerStep hnext
  | forward => exact h.forwardStep hnext
  | drain => exact h.drainStep hnext

theorem run_flow {acts : List LinkAction} {o : List Unit}
    (hrun : run Link.step (.start endpointId sent) acts = .ok (s, o)) :
    Flow endpointId sent s :=
  run_stays (fun _ _ _ _ h hstep => h.step hstep) (.start endpointId sent) hrun

/-! ## Runs come to an end -/

def readerWork : ReaderPc → Nat
  | .sending _ => 2
  | .reading => 1
  | .finished => 0

def forwardWork : ForwardPc → Nat
  | .sending _ => 3
  | .receiving => 1
  | .finished => 0

/-- How many steps are left at most. -/
def work (s : Link) : Nat :=
  5 * s.script.length + 4 * s.wire.length + (if s.closed then 0 else 1) + readerWork s.reader +
    3 * s.releases.items.length + forwardWork s.forward + s.zone.items.length

theorem length_trySend (c : Channel EndpointRelease 4) (er : EndpointRelease) :
    (c.trySend er).items.length ≤ c.items.length + 1 := by
  unfold Channel.trySend
  cases hsend : c.send er with
  | none => simp
  | some c' => simp [(Channel.send_eq_some hsend).2]

theorem work_handle (hreading : s.reader = .reading) (msg : Message) :
    work (s.handle msg) ≤ work s + 3 := by
  unfold Link.handle
  split
  next er =>
    have := length_trySend s.releases er
    simp only [work]
    omega
  next =>
    split
    next =>
      split
      next => simp [work]
      next => simp [work, hreading, readerWork]; omega
    next => simp [work]

theorem work_step {a : LinkAction} {o : List Unit} (hstep : s.step a = .ok (s', o)) :
    work s' < work s := by
  have hnext := Link.step_eq_ok hstep
  cases a with
  | endpoint =>
    simp only [Link.next, Link.endpointStep] at hnext
    split at hnext
    next hscript =>
      cases hnext
      simp only [work, hscript, List.length_cons, List.length_append, List.length_nil]
      omega
    next =>
      split at hnext
      next => cases hnext
      next hopen =>
        cases hnext
        simp only [work, if_neg hopen, if_true]
        omega
  | reader =>
    simp only [Link.next, Link.readerStep] at hnext
    split at hnext
    next hreading =>
      split at hnext
      next msg wire hwire =>
        cases hnext
        have hhandle := work_handle (s := { s with wire }) hreading msg
        have hless : work { s with wire } + 4 = work s := by
          simp only [work, hwire, List.length_cons]
          omega
        omega
      next =>
        split at hnext
        next =>
          cases hnext
          simp [work, hreading, readerWork]
        next => cases hnext
    next response hsending =>
      obtain ⟨responses, hsend, rfl⟩ := Option.map_eq_some_iff.mp hnext
      simp [work, hsending, readerWork]
    next => cases hnext
  | forward =>
    simp only [Link.next, Link.forwardStep] at hnext
    split at hnext
    next hreceiving =>
      split at hnext
      next release releases hrecv =>
        cases hnext
        simp only [work, hreceiving, forwardWork, Channel.recv_eq_some hrecv, List.length_cons]
        omega
      next =>
        split at hnext
        next => cases hnext
        next =>
          cases hnext
          simp [work, hreceiving, forwardWork]
    next release hsending =>
      obtain ⟨zone, hsend, rfl⟩ := Option.map_eq_some_iff.mp hnext
      simp only [work, hsending, forwardWork, (Channel.send_eq_some hsend).2, List.length_append,
        List.length_cons, List.length_nil]
      omega
    next => cases hnext
  | drain =>
    obtain ⟨⟨release, zone⟩, hrecv, rfl⟩ := Option.map_eq_some_iff.mp hnext
    simp only [work, Channel.recv_eq_some hrecv, List.length_cons]
    omega

/-- Whatever has happened, a point comes at which nothing more can step. -/
theorem reaches_stuck (s : Link) : ∃ more t o, run Link.step s more = .ok (t, o) ∧ Stuck t := by
  induction hn : work s using Nat.strong_induction_on generalizing s with
  | _ n ih =>
    by_cases hstuck : Stuck s
    · exact ⟨[], s, [], rfl, hstuck⟩
    · obtain ⟨a, ha⟩ := not_forall.mp hstuck
      cases hstep : s.step a with
      | error e => exact absurd hstep ha
      | ok r =>
        obtain ⟨s', o⟩ := r
        obtain ⟨more, t, os, hrun, ht⟩ := ih (work s') (hn ▸ work_step hstep) s' rfl
        exact ⟨a :: more, t, o ++ os, run_cons_ok hstep hrun, ht⟩

/-! ## When nothing more can step -/

theorem Stuck.none (h : Stuck s) (a : LinkAction) : s.next a = none :=
  Link.step_eq_error (h a)

/-- The endpoint has sent everything, and the reader has finished or waits for
room for a response. -/
theorem stuck_reader (hstuck : Stuck s) :
    s.script = [] ∧ s.closed = true ∧
      (s.reader = .finished ∨ s.responses.items.length = 32 ∧ ∃ r, s.reader = .sending r) := by
  have hendpoint : s.endpointStep = none := hstuck.none .endpoint
  have hreader : s.readerStep = none := hstuck.none .reader
  have hscript : s.script = [] := by
    unfold Link.endpointStep at hendpoint
    split at hendpoint
    next => cases hendpoint
    next hnil => exact hnil
  have hclosed : s.closed = true := by
    simpa [Link.endpointStep, hscript] using hendpoint
  refine ⟨hscript, hclosed, ?_⟩
  unfold Link.readerStep at hreader
  split at hreader
  next =>
    split at hreader
    next => cases hreader
    next => simp [hclosed] at hreader
  next response hsending =>
    rw [Option.map_eq_none_iff, Channel.send_eq_none_iff] at hreader
    exact .inr ⟨hreader, response, hsending⟩
  next hfinished => exact .inl hfinished

/-- Once the reader has finished, every release has been placed. -/
theorem Flow.stuck_placed (h : Flow endpointId sent s) (hstuck : Stuck s)
    (hfinished : s.reader = .finished) (hfew : (sent.filterMap releaseOf).length ≤ 4) :
    s.drained = (sent.filterMap releaseOf).map (ZoneEndpointRelease.mk endpointId) := by
  have hforward : s.forwardStep = none := hstuck.none .forward
  have hdrain : s.drainStep = none := hstuck.none .drain
  obtain ⟨hscript, -, -⟩ := stuck_reader hstuck
  have hwire := (h.finished hfinished).1
  have hzone : s.zone.items = [] := by
    rwa [Link.drainStep, Option.map_eq_none_iff, Channel.recv_eq_none_iff] at hdrain
  have hdone : s.forward = .finished := by
    unfold Link.forwardStep at hforward
    split at hforward
    next =>
      split at hforward
      next => cases hforward
      next => simp [Link.isReaderAlive, hfinished] at hforward
    next =>
      rw [Option.map_eq_none_iff, Channel.send_eq_none_iff, hzone] at hforward
      cases hforward
    next hdone => exact hdone
  have hflow := h.releases hfew
  rw [hzone, hdone, (h.forwarded hdone).2, hwire, hscript] at hflow
  simpa [forwardHeld] using hflow

end

/-! ## Every schedule -/

/-- From every point of every run a point is reached at which nothing more can
step, and at each such point the release has been placed and the reader has
finished. -/
def NeverStarved (endpointId : String) (responses : List Message) (er : EndpointRelease) : Prop :=
  ∀ acts s o,
    run Link.step (.start endpointId (responses ++ [.endpointRelease er])) acts = .ok (s, o) →
    (∃ more t o', run Link.step s more = .ok (t, o') ∧ Stuck t) ∧
      (Stuck s → Placed s er ∧ s.isReaderAlive = false)

section

variable {responses : List Message}
  (hresponses : ∀ msg ∈ responses, (responseOf msg).isSome = true)

include hresponses

theorem length_responses (er : EndpointRelease) :
    ((responses ++ [Message.endpointRelease er]).filterMap responseOf).length =
      responses.length := by
  rw [List.filterMap_append, List.length_append,
    List.length_filterMap_eq_countP, List.countP_eq_length.mpr hresponses]
  rfl

/-- No response is a release. -/
theorem releases_after (er : EndpointRelease) :
    (responses ++ [Message.endpointRelease er]).filterMap releaseOf = [er] := by
  have hnone : responses.filterMap releaseOf = [] := by
    rw [List.filterMap_eq_nil_iff]
    intro msg hmsg
    have hresponse := hresponses msg hmsg
    cases msg <;> first | rfl | cases hresponse
  rw [List.filterMap_append, hnone]
  rfl

end

/-- **A release is never starved**, exactly when at most 32 responses come before
it. -/
theorem never_starved_iff (endpointId : String) {responses : List Message}
    (hresponses : ∀ msg ∈ responses, (responseOf msg).isSome = true) (er : EndpointRelease) :
    NeverStarved endpointId responses er ↔ responses.length ≤ 32 := by
  have hcount := length_responses hresponses er
  have hone := releases_after hresponses er
  constructor
  · intro hnever
    obtain ⟨⟨more, t, o, hrun, hstuck⟩, -⟩ := hnever [] _ [] rfl
    obtain ⟨-, hdead⟩ := (hnever more t o hrun).2 hstuck
    have hflow := run_flow hrun
    have hfinished : t.reader = .finished := by simpa [Link.isReaderAlive] using hdead
    obtain ⟨hscript, -, -⟩ := stuck_reader hstuck
    have hkept := congrArg List.length hflow.responses
    rw [hfinished, (hflow.finished hfinished).1, hscript, hcount] at hkept
    have hbound := t.responses.bounded
    simp [readerHeld] at hkept
    omega
  · intro hfew acts s o hrun
    refine ⟨reaches_stuck s, ?_⟩
    intro hstuck
    have hflow := run_flow hrun
    obtain ⟨-, -, hfinished | ⟨hfull, r, hsending⟩⟩ := stuck_reader hstuck
    · refine ⟨?_, by simp [Link.isReaderAlive, hfinished]⟩
      have hplaced := hflow.stuck_placed hstuck hfinished
        (by rw [hone, List.length_singleton]; omega)
      rw [Placed, hplaced, hone, hflow.id]
      simp
    · -- a reader that waits holds the thirty-third
      have hkept := congrArg List.length hflow.responses
      rw [hsending, hcount] at hkept
      simp [readerHeld] at hkept
      omega

/-- One of the reports that an endpoint sends every five seconds. -/
def report : StreamStats :=
  { streamId := "s", bufferFrames := 4800, driftUs := 0, correctionsNetFrames := 0,
    packetsLost := 0, packetsRecovered := 0, bitPerfect := true, underruns := 0 }

def stats : Message := .streamStats report

def localSource : EndpointRelease := { streamId := "s", reason := .localSource }

/-- The release comes in time. -/
theorem never_starved_early :
    (List.replicate 32 stats).length = 32 ∧
      NeverStarved "kitchen" (List.replicate 32 stats) localSource := by
  refine ⟨rfl, (never_starved_iff "kitchen" ?_ localSource).mpr (by simp)⟩
  intro msg hmsg
  rw [List.eq_of_mem_replicate hmsg]
  rfl

/-- Thirty-three reports, then the release, and the end of the connection. -/
def lateRelease : Link :=
  .start "kitchen" (List.replicate 33 stats ++ [.endpointRelease localSource])

/-- Where that ends. -/
def starved : Link :=
  { endpointId := "kitchen", script := [], closed := true,
    wire := [.endpointRelease localSource], reader := .sending (.streamStats report),
    responses := ⟨List.replicate 32 (.streamStats report), by rw [List.length_replicate]⟩,
    releases := .empty, forward := .receiving, zone := .empty, drained := [] }

/-- The reader waits with the thirty-third report; the release is on the wire, and
the reader is alive though the endpoint is gone. -/
theorem release_starved :
    run Link.step lateRelease (List.replicate 35 .endpoint ++ List.replicate 33 .reader) =
      .ok (starved, []) ∧
    Stuck starved ∧ ¬ Placed starved localSource ∧ starved.isReaderAlive = true ∧
    ¬ NeverStarved "kitchen" (List.replicate 33 stats) localSource := by
  have hrun : run Link.step lateRelease
      (List.replicate 35 .endpoint ++ List.replicate 33 .reader) = .ok (starved, []) := by
    decide +kernel
  have hstuck : Stuck starved := by
    intro a
    cases a <;> rfl
  refine ⟨hrun, hstuck, by decide +kernel, rfl, ?_⟩
  intro hnever
  have hdead := ((hnever _ starved [] hrun).2 hstuck).2
  cases hdead

end Oaat.Zones
