/-
Oaat.Clock.Accuracy — how far the endpoint's clock can be off.

`Net` is the exchange of one endpoint and the controller's responder over a
network that loses, duplicates and reorders: a datagram once sent stays
available and may be received at any later time, any number of times or
never. Both clocks run at the same rate, `o` apart (`Instant`), and every
packet is stamped with the clock of the party that stamps it.

The invariant `Sound` bounds the stamps of everything that may still arrive
by the present instant. A response then measures the offset within half its
RTT, whichever copy of which response it is, and the filter keeps the bound.
-/
import Oaat.Endpoint.ClockSync
import Mathlib.Logic.Relation

namespace Oaat.Clock

open Oaat.Core Oaat.Endpoint

/-- What the two clocks show at one instant. -/
structure Instant (o : ℤ) where
  localNs : UInt64
  controllerNs : UInt64
  offset : (controllerNs.toNat : ℤ) = localNs.toNat + o

structure Net (o : ℤ) where
  now : Instant o
  clock : SharedClock
  sequence : UInt16
  /-- Every request datagram sent so far. -/
  requests : List (List UInt8)
  /-- The datagram that the responder is answering, and its `t2`. -/
  inService : Option (List UInt8 × UInt64)
  /-- Every response datagram sent so far. -/
  responses : List (List UInt8)
  /-- The RTTs of the exchanges accepted so far. -/
  accepted : List ℚ

namespace Net

variable {o : ℤ}

def start (now : Instant o) : Net o :=
  { now, clock := .new, sequence := 0, requests := [], inService := none, responses := [],
    accepted := [] }

/-- The endpoint sends its next request. -/
def request (s : Net o) : Net o :=
  { s with
    requests := s.requests ++ [(clockRequest s.sequence s.now.localNs).encode]
    sequence := s.sequence + 1 }

/-- The responder receives a datagram and reads its clock. -/
def arrive (s : Net o) (datagram : List UInt8) : Net o :=
  { s with inService := some (datagram, s.now.controllerNs) }

/-- The responder reads its clock again and sends the response, if there is one. -/
def answer (s : Net o) (datagram : List UInt8) (t2 : UInt64) : Net o :=
  { s with
    inService := none
    responses := s.responses ++
      ((responderReceive datagram t2 s.now.controllerNs).map fun p => p.encode).toList }

/-- The exchange that a datagram completes is accepted: it is a response, not
stale and not an outlier. -/
def accepts (s : Net o) (datagram : List UInt8) : Option ClockSyncPacket :=
  (clockPacket datagram).filter fun p =>
    p.kind = .response && !stale p s.now.localNs &&
      !s.clock.state.outlier p.t1 p.t2 p.t3 s.now.localNs

/-- The endpoint receives a datagram. -/
def receive (s : Net o) (datagram : List UInt8) : Net o :=
  { s with
    clock := (clockSyncReceive s.clock datagram s.now.localNs s.now.localNs).1
    accepted := s.accepted ++ ((s.accepts datagram).map fun p =>
      ClockState.measuredRtt p.t1 p.t2 p.t3 s.now.localNs).toList }

end Net

/-- What can happen next. -/
inductive Step {o : ℤ} : Net o → Net o → Prop
  | tick {s} (later : Instant o) (h : s.now.localNs ≤ later.localNs) :
      Step s { s with now := later }
  | request {s} : Step s s.request
  | arrive {s} (d) (hd : d ∈ s.requests) (hfree : s.inService = none) : Step s (s.arrive d)
  | answer {s} (d t2) (hd : s.inService = some (d, t2)) : Step s (s.answer d t2)
  | receive {s} (d) (hd : d ∈ s.responses) : Step s (s.receive d)
  /-- Anything else that reaches the endpoint: noise, or a request. -/
  | other {s} (d) (hd : ∀ p, clockPacket d = some p → p.kind = .request) : Step s (s.receive d)

/-- The states of the runs that begin with a fresh clock at any instant. -/
def Reachable {o : ℤ} (s : Net o) : Prop := ∃ now, Relation.ReflTransGen Step (Net.start now) s

/-! ## What may still arrive -/

/-- A request stamped no later than now. -/
def RequestBy {o : ℤ} (now : Instant o) (d : List UInt8) : Prop :=
  ∃ p : ClockSyncPacket, p.version = 1 ∧ d = p.encode ∧ p.kind = .request ∧
    p.t1.toNat ≤ now.localNs.toNat

/-- A response whose four stamps are in order up to now. -/
def ResponseBy {o : ℤ} (now : Instant o) (d : List UInt8) : Prop :=
  ∃ p : ClockSyncPacket, p.version = 1 ∧ d = p.encode ∧ p.kind = .response ∧
    (p.t1.toNat : ℤ) + o ≤ p.t2.toNat ∧ p.t2.toNat ≤ p.t3.toNat ∧
    p.t3.toNat ≤ now.controllerNs.toNat

/-- The largest of the RTTs; zero if there is none. -/
def largest (rtts : List ℚ) : ℚ := rtts.foldr max 0

theorem le_largest {rtts : List ℚ} {r : ℚ} (h : r ∈ rtts) : r ≤ largest rtts := by
  induction rtts with
  | nil => cases h
  | cons x rtts ih =>
    rcases List.mem_cons.mp h with rfl | h
    · exact le_max_left _ _
    · exact le_trans (ih h) (le_max_right _ _)

theorem largest_append_le (rtts more : List ℚ) : largest rtts ≤ largest (rtts ++ more) := by
  induction rtts with
  | nil =>
    induction more with
    | nil => exact le_refl _
    | cons x more ih => exact le_trans ih (le_max_right _ _)
  | cons x rtts ih => exact max_le_max (le_refl _) ih

theorem largest_le {rtts : List ℚ} {m : ℚ} (h0 : 0 ≤ m) (h : ∀ r ∈ rtts, r ≤ m) :
    largest rtts ≤ m := by
  induction rtts with
  | nil => exact h0
  | cons x rtts ih =>
    exact max_le (h x (by simp)) (ih fun r hr => h r (List.mem_cons_of_mem _ hr))

/-- The invariant of every run. -/
structure Sound {o : ℤ} (s : Net o) : Prop where
  weight : 0 ≤ s.clock.state.alpha ∧ s.clock.state.alpha ≤ 1
  requests : ∀ d ∈ s.requests, RequestBy s.now d
  inService : ∀ d t2, s.inService = some (d, t2) → ∃ p : ClockSyncPacket, p.version = 1 ∧
    d = p.encode ∧ p.kind = .request ∧ (p.t1.toNat : ℤ) + o ≤ t2.toNat ∧
    t2.toNat ≤ s.now.controllerNs.toNat
  responses : ∀ d ∈ s.responses, ResponseBy s.now d
  fresh : s.accepted = [] → s.clock.state.samples = 0
  recent : ∀ r ∈ s.accepted, r ≤ 1000000000
  bound : s.accepted ≠ [] → |s.clock.state.offsetNs - o| ≤ largest s.accepted / 2

/-! ## One exchange -/

section

variable {o : ℤ} {s : Net o} {d : List UInt8} {p : ClockSyncPacket}

/-- A response measures the offset within half its RTT. -/
theorem measured_near {now : Instant o} (h1 : (p.t1.toNat : ℤ) + o ≤ p.t2.toNat)
    (h3 : p.t3.toNat ≤ now.controllerNs.toNat) :
    |ClockState.measuredOffset p.t1 p.t2 p.t3 now.localNs - o| ≤
      ClockState.measuredRtt p.t1 p.t2 p.t3 now.localNs / 2 := by
  have hnow := now.offset
  -- the two one-way delays
  obtain ⟨there, hthere⟩ : ∃ x : ℤ, x = p.t2.toNat - (p.t1.toNat + o) := ⟨_, rfl⟩
  obtain ⟨back, hback⟩ : ∃ x : ℤ, x = now.controllerNs.toNat - p.t3.toNat := ⟨_, rfl⟩
  have hoff : ((p.t2.toNat : ℤ) - p.t1.toNat) + ((p.t3.toNat : ℤ) - now.localNs.toNat)
      = 2 * o + (there - back) := by omega
  have hrtt : max (((now.localNs.toNat : ℤ) - p.t1.toNat) - ((p.t3.toNat : ℤ) - p.t2.toNat)) 0
      = there + back := by omega
  have ht : (0 : ℚ) ≤ there := by exact_mod_cast (show (0 : ℤ) ≤ there by omega)
  have hb : (0 : ℚ) ≤ back := by exact_mod_cast (show (0 : ℤ) ≤ back by omega)
  rw [ClockState.measuredOffset, ClockState.measuredRtt, hoff, hrtt]
  push_cast
  rw [abs_le]
  constructor <;> linarith

/-- A response that is not stale has an RTT of a second at most. -/
theorem measured_recent {now : Instant o} (h2 : p.t2.toNat ≤ p.t3.toNat)
    (hs : stale p now.localNs = false) :
    ClockState.measuredRtt p.t1 p.t2 p.t3 now.localNs ≤ 1000000000 := by
  have hage : ¬ now.localNs.toNat - p.t1.toNat > 1000000000 := by simpa [stale] using hs
  have hservice : (0 : ℤ) ≤ p.t3.toNat - p.t2.toNat :=
    Int.sub_nonneg_of_le (Int.ofNat_le.mpr h2)
  rw [ClockState.measuredRtt]
  exact_mod_cast (show max (((now.localNs.toNat : ℤ) - p.t1.toNat) -
    ((p.t3.toNat : ℤ) - p.t2.toNat)) 0 ≤ (1000000000 : ℤ) by omega)

/-- The estimate is as it was: offset, RTT, jitter and sample count. -/
structure SameEstimate (c c' : ClockState) : Prop where
  offsetNs : c'.offsetNs = c.offsetNs
  rttNs : c'.rttNs = c.rttNs
  jitterMean : c'.jitterMean = c.jitterMean
  jitterVar : c'.jitterVar = c.jitterVar
  samples : c'.samples = c.samples

/-- An exchange that is not accepted leaves the estimate alone. -/
theorem receive_not_accepted (h : s.accepts d = none) :
    SameEstimate s.clock.state (s.receive d).clock.state ∧
      (s.receive d).clock.state.alpha = s.clock.state.alpha ∧
      (s.receive d).accepted = s.accepted := by
  have hacc : (s.receive d).accepted = s.accepted := by simp [Net.receive, h]
  have hclock : (s.receive d).clock =
      (clockSyncReceive s.clock d s.now.localNs s.now.localNs).1 := rfl
  rw [hacc, hclock, clockSyncReceive]
  cases hp : clockPacket d with
  | none => exact ⟨⟨rfl, rfl, rfl, rfl, rfl⟩, rfl, rfl⟩
  | some p =>
    cases hk : p.kind with
    | request =>
      simp only [hk]
      exact ⟨⟨rfl, rfl, rfl, rfl, rfl⟩, trivial, trivial⟩
    | response =>
      cases hstale : stale p s.now.localNs with
      | true =>
        simp only [hk, hstale, if_true]
        exact ⟨⟨rfl, rfl, rfl, rfl, rfl⟩, trivial, trivial⟩
      | false =>
        have hout : s.clock.state.outlier p.t1 p.t2 p.t3 s.now.localNs = true := by
          by_contra hno
          simp [Net.accepts, hp, hk, hstale, hno, Option.filter] at h
        have hstate : (s.clock.update p.t1 p.t2 p.t3 s.now.localNs).state = _ :=
          ClockState.update_rejected hout
        simp only [hk, hstale, Bool.false_eq_true, if_false]
        rw [hstate]
        exact ⟨⟨rfl, rfl, rfl, rfl, rfl⟩, rfl, trivial⟩

/-- An accepted exchange updates the clock. -/
theorem receive_accepted (h : s.accepts d = some p) :
    clockPacket d = some p ∧ stale p s.now.localNs = false ∧
      s.clock.state.outlier p.t1 p.t2 p.t3 s.now.localNs = false ∧
      (s.receive d).clock.state = s.clock.state.update p.t1 p.t2 p.t3 s.now.localNs ∧
      (s.receive d).accepted =
        s.accepted ++ [ClockState.measuredRtt p.t1 p.t2 p.t3 s.now.localNs] := by
  obtain ⟨hp, hok⟩ := Option.filter_eq_some_iff.mp h
  simp only [Bool.and_eq_true, decide_eq_true_eq, Bool.not_eq_true'] at hok
  obtain ⟨⟨hk, hstale⟩, hout⟩ := hok
  refine ⟨hp, hstale, hout, ?_, by simp [Net.receive, h]⟩
  have hclock : (s.receive d).clock =
      (clockSyncReceive s.clock d s.now.localNs s.now.localNs).1 := rfl
  rw [hclock, clockSyncReceive, hp]
  simp only [hk, hstale, Bool.false_eq_true, if_false]
  rfl

/-! ## Every run -/

theorem Instant.controller_le {now later : Instant o} (h : now.localNs ≤ later.localNs) :
    now.controllerNs.toNat ≤ later.controllerNs.toNat := by
  have h1 := now.offset
  have h2 := later.offset
  have h3 : now.localNs.toNat ≤ later.localNs.toNat := h
  omega

theorem Sound.start (now : Instant o) : Sound (Net.start now) where
  weight := by simp only [Net.start, SharedClock.new, ClockState.new]; norm_num
  requests := by simp [Net.start]
  inService := by simp [Net.start]
  responses := by simp [Net.start]
  fresh _ := rfl
  recent := by simp [Net.start]
  bound h := absurd rfl h

/-- A datagram that is not accepted keeps the invariant. -/
theorem Sound.receive_ignored (h : Sound s) (hd : s.accepts d = none) : Sound (s.receive d) := by
  obtain ⟨hsame, halpha, hacc⟩ := receive_not_accepted hd
  refine ⟨by rw [halpha]; exact h.weight, h.requests, h.inService, h.responses, ?_,
    by rw [hacc]; exact h.recent, ?_⟩
  · intro hn
    rw [hsame.samples]
    exact h.fresh (hacc ▸ hn)
  · intro hn
    rw [hsame.offsetNs, hacc]
    exact h.bound (hacc ▸ hn)

/-- A response of the responder keeps the invariant. -/
theorem Sound.receive_response (h : Sound s) (hd : ResponseBy s.now d) : Sound (s.receive d) := by
  cases hacc : s.accepts d with
  | none => exact h.receive_ignored hacc
  | some p =>
    obtain ⟨hp, hstale, hout, hstate, happ⟩ := receive_accepted hacc
    obtain ⟨q, hv, rfl, -, h1, h2, h3⟩ := hd
    obtain rfl : q = p := Option.some.inj ((clockPacket_encode hv).symm.trans hp)
    have hmem : ClockState.measuredRtt q.t1 q.t2 q.t3 s.now.localNs ∈
        (s.receive q.encode).accepted := by rw [happ]; simp
    refine ⟨?_, h.requests, h.inService, h.responses, ?_, ?_, ?_⟩
    · rw [hstate, ClockState.update_alpha]
      exact h.weight
    · intro hn
      rw [hn] at hmem
      cases hmem
    · intro r hr
      rw [happ] at hr
      rcases List.mem_append.mp hr with hr | hr
      · exact h.recent r hr
      · rw [List.mem_singleton.mp hr]
        exact measured_recent h2 hstale
    · intro _
      rw [hstate]
      refine ClockState.abs_update_offset_le hout h.weight ?_ ?_
      · by_cases hn : s.accepted = []
        · exact .inl (h.fresh hn)
        · right
          have hgrow := largest_append_le s.accepted
            [ClockState.measuredRtt q.t1 q.t2 q.t3 s.now.localNs]
          rw [happ]
          linarith [h.bound hn]
      · have hnear := measured_near h1 h3
        linarith [le_largest hmem]

/-- **One step.** -/
theorem Sound.step {s s' : Net o} (h : Sound s) (hstep : Step s s') : Sound s' := by
  cases hstep with
  | tick later hle =>
    have hctl := Instant.controller_le hle
    have hlocal : s.now.localNs.toNat ≤ later.localNs.toNat := hle
    refine ⟨h.weight, ?_, ?_, ?_, h.fresh, h.recent, h.bound⟩
    · intro d hd
      obtain ⟨p, hv, heq, hk, ht⟩ := h.requests d hd
      exact ⟨p, hv, heq, hk, le_trans ht hlocal⟩
    · intro d t2 hd
      obtain ⟨p, hv, heq, hk, ht, hle'⟩ := h.inService d t2 hd
      exact ⟨p, hv, heq, hk, ht, le_trans hle' hctl⟩
    · intro d hd
      obtain ⟨p, hv, heq, hk, h1, h2, h3⟩ := h.responses d hd
      exact ⟨p, hv, heq, hk, h1, h2, le_trans h3 hctl⟩
  | request =>
    refine ⟨h.weight, ?_, h.inService, h.responses, h.fresh, h.recent, h.bound⟩
    intro d hd
    rcases List.mem_append.mp hd with hd | hd
    · exact h.requests d hd
    · rw [List.mem_singleton.mp hd]
      exact ⟨_, rfl, rfl, rfl, le_refl _⟩
  | arrive d hd hfree =>
    refine ⟨h.weight, h.requests, ?_, h.responses, h.fresh, h.recent, h.bound⟩
    intro d' t2 heq
    simp only [Net.arrive, Option.some.injEq, Prod.mk.injEq] at heq
    obtain ⟨rfl, rfl⟩ := heq
    obtain ⟨p, hv, heq, hk, ht⟩ := h.requests d hd
    refine ⟨p, hv, heq, hk, ?_, le_refl _⟩
    have := s.now.offset
    omega
  | answer d t2 hd =>
    obtain ⟨p, hv, rfl, hk, h1, h2⟩ := h.inService d t2 hd
    refine ⟨h.weight, h.requests, by simp [Net.answer], ?_, h.fresh, h.recent, h.bound⟩
    intro d' hd'
    rcases List.mem_append.mp hd' with hd' | hd'
    · exact h.responses d' hd'
    · rw [responderReceive, clockPacket_encode hv] at hd'
      simp only [hk, ne_eq, not_true_eq_false, if_false, Option.map_some, Option.toList_some,
        List.mem_singleton] at hd'
      exact ⟨_, rfl, hd', rfl, h1, h2, le_refl _⟩
  | receive d hd => exact h.receive_response (h.responses d hd)
  | other d hd =>
    refine h.receive_ignored ?_
    cases hp : clockPacket d with
    | none => simp [Net.accepts, hp]
    | some p => simp [Net.accepts, hp, Option.filter, hd p hp]

theorem Reachable.sound (h : Reachable s) : Sound s := by
  obtain ⟨now, hrun⟩ := h
  induction hrun with
  | refl => exact Sound.start now
  | tail _ hstep ih => exact ih.step hstep

end

/-- **Accuracy of the endpoint's clock.** In every state of every run in which
an exchange has been accepted, the filtered offset is within half the largest
RTT accepted so far of the true offset, and within half a second of it. An
exchange that is rejected as an outlier, or as stale, leaves the offset, the
RTT, the jitter and the sample count as they were. -/
theorem clock_accuracy {o : ℤ} {s : Net o} (h : Reachable s) :
    (s.accepted ≠ [] →
      |s.clock.state.offsetNs - o| ≤ largest s.accepted / 2 ∧
      |s.clock.state.offsetNs - o| ≤ 500000000) ∧
    ∀ d p, clockPacket d = some p →
      (stale p s.now.localNs = true ∨
        s.clock.state.outlier p.t1 p.t2 p.t3 s.now.localNs = true) →
      SameEstimate s.clock.state (s.receive d).clock.state := by
  have hsound := h.sound
  refine ⟨fun hne => ⟨hsound.bound hne, ?_⟩, ?_⟩
  · have hmax : largest s.accepted ≤ 1000000000 := largest_le (by norm_num) hsound.recent
    linarith [hsound.bound hne]
  · intro d p hp hrej
    refine (receive_not_accepted ?_).1
    rw [Net.accepts, hp, Option.filter_eq_none_iff]
    intro q hq
    cases hq
    rcases hrej with hrej | hrej <;> simp [hrej]

/-- The instant at which the endpoint's clock shows `ns` and the controller's is
1000 ns ahead. -/
def ahead (ns : UInt64) (h : (ns + 1000).toNat = ns.toNat + 1000) : Instant 1000 :=
  { localNs := ns, controllerNs := ns + 1000, offset := by rw [h]; rfl }

/-- One exchange: 40 ns there, 10 ns at the responder, 60 ns back. -/
def oneExchange : Net 1000 :=
  let request := (clockRequest 0 100).encode
  let response := (respond (clockRequest 0 100) 1140 1150).encode
  let s := (Net.start (ahead 100 rfl)).request
  let s := Net.arrive { s with now := ahead 140 rfl } request
  let s := Net.answer { s with now := ahead 150 rfl } request 1140
  Net.receive { s with now := ahead 210 rfl } response

theorem oneExchange_reachable : Reachable oneExchange := by
  refine ⟨ahead 100 rfl, ?_⟩
  refine .tail (.tail (.tail (.tail (.tail (.tail (.tail .refl .request) (.tick _ ?_))
    (.arrive _ ?_ rfl)) (.tick _ ?_)) (.answer _ _ rfl)) (.tick _ ?_)) (.receive _ ?_)
  all_goals decide +kernel

theorem clock_accuracy_oneExchange :
    oneExchange.accepted = [100] ∧ oneExchange.clock.state.offsetNs = 990 ∧
      |oneExchange.clock.state.offsetNs - (1000 : ℤ)| ≤ largest oneExchange.accepted / 2 := by
  have haccepted : oneExchange.accepted = [100] := by decide +kernel
  have hsome : oneExchange.accepted ≠ [] := by simp [haccepted]
  exact ⟨haccepted, by decide +kernel, ((clock_accuracy oneExchange_reachable).1 hsome).1⟩

end Oaat.Clock
