/-
Oaat.Clock.Anchored — a step of a wall clock reaches nothing.

A process reads the wall clock at its first `now_ns()` and never again, so
from then on what it shows is the time plus a constant, its `epoch`. Two
processes, on machines whose wall clocks agree on nothing, show the same
constant apart at every instant (`Process.instant`): this is the assumption
that the accuracy of the endpoint's clock rests on.

What an exchange then measures is the difference of the two epochs, but for
half of how much longer one way took than the other.
-/
import Oaat.Core.Time
import Oaat.Clock.Accuracy

namespace Oaat.Clock

open Oaat.Core Oaat.Endpoint

/-! ## Processes -/

/-- A machine: `Instant` counts from its boot, and `SystemTime` shows anything. -/
structure Machine where
  boot : Nat
  wallNs : Nat → UInt64

def Machine.clocks (m : Machine) (t : Nat) : Clocks :=
  { instant := t - m.boot, wallNs := m.wallNs t }

/-- A process that set its clock at three instants of its machine. -/
structure Process where
  machine : Machine
  originAt : Nat
  monoAt : Nat
  wallAt : Nat
  ordered : machine.boot ≤ originAt ∧ originAt ≤ monoAt ∧ monoAt ≤ wallAt

namespace Process

def system (p : Process) : SystemClock :=
  .system (p.machine.clocks p.originAt) (p.machine.clocks p.monoAt) (p.machine.clocks p.wallAt)

/-- `now_ns()` at an instant. -/
def nowNs (p : Process) (t : Nat) : UInt64 := p.system.nowNs (p.machine.clocks t)

/-- How far ahead of the time the process' clock is. -/
def epoch (p : Process) : ℤ := ((p.machine.wallNs p.wallAt).toNat : ℤ) - p.monoAt

/-- The clock is set, and what it shows fits 64 bits. -/
structure Fits (p : Process) (t : Nat) : Prop where
  set : p.wallAt ≤ t
  uptime : t - p.originAt < 2 ^ 64
  shown : t + p.epoch < 2 ^ 64

theorem toNat_nowNs {p : Process} {t : Nat} (h : p.Fits t) :
    ((p.nowNs t).toNat : ℤ) = t + p.epoch := by
  obtain ⟨hset, huptime, hshown⟩ := h
  obtain ⟨hboot, horigin, hmono⟩ := p.ordered
  have hwall := (p.machine.wallNs p.wallAt).toNat_lt
  -- the machine's boot is in both readings
  have hnow : t - p.machine.boot - (p.originAt - p.machine.boot) = t - p.originAt := by omega
  have hanchor : p.monoAt - p.machine.boot - (p.originAt - p.machine.boot) =
      p.monoAt - p.originAt := by omega
  simp only [nowNs, system, SystemClock.nowNs, SystemClock.system, AnchoredClock.nowNs,
    AnchoredClock.withSources, SystemClock.monoNs, Machine.clocks, hnow, hanchor,
    UInt64.toNat_ofNat', epoch] at *
  rw [Nat.mod_eq_of_lt huptime, Nat.mod_eq_of_lt (by omega), Nat.mod_eq_of_lt (by omega)]
  omega

/-- A call of `now_ns()`; the readings that only a first call takes are arbitrary. -/
def call (p : Process) (first : Clocks × Clocks × Clocks) (t : Nat) : NowCall :=
  ⟨first.1, first.2.1, first.2.2, p.machine.clocks t⟩

/-- The call that sets the clock. -/
def firstCall (p : Process) (t : Nat) : NowCall :=
  p.call (p.machine.clocks p.originAt, p.machine.clocks p.monoAt, p.machine.clocks p.wallAt) t

end Process

theorem nowNsAll_set (s : SystemClock) (calls : List NowCall) :
    nowNsAll (some s) calls = calls.map fun c => s.nowNs c.now := by
  induction calls with
  | nil => rfl
  | cons c calls ih => simp [nowNsAll, Oaat.Core.nowNs, ih]

/-- Every call of a process' run shows the process' clock. -/
theorem Process.nowNsAll_eq (p : Process) (t : Nat)
    (rest : List ((Clocks × Clocks × Clocks) × Nat)) :
    nowNsAll none (p.firstCall t :: rest.map fun r => p.call r.1 r.2) =
      (t :: rest.map (·.2)).map p.nowNs := by
  simp [nowNsAll, Oaat.Core.nowNs, nowNsAll_set, Function.comp_def, firstCall, call, nowNs, system]

/-- The two clocks at one instant. -/
def Process.instant (endpoint controller : Process) (t : Nat) (he : endpoint.Fits t)
    (hc : controller.Fits t) : Instant (controller.epoch - endpoint.epoch) where
  localNs := endpoint.nowNs t
  controllerNs := controller.nowNs t
  offset := by rw [toNat_nowNs hc, toNat_nowNs he]; omega

/-! ## Exchanges -/

/-- When the stamps of an exchange are read. -/
structure TimedExchange where
  t1 : Nat
  t2 : Nat
  t3 : Nat
  t4 : Nat

namespace TimedExchange

/-- The RTT, without the time at the responder. -/
def rtt (x : TimedExchange) : ℤ := ((x.t4 : ℤ) - x.t1) - ((x.t3 : ℤ) - x.t2)

/-- How much longer the request took than the response. -/
def asymmetry (x : TimedExchange) : ℤ := ((x.t2 : ℤ) - x.t1) - ((x.t4 : ℤ) - x.t3)

/-- The stamps are read in order, and fit. -/
structure Valid (endpoint controller : Process) (x : TimedExchange) : Prop where
  ordered : x.t1 ≤ x.t2 ∧ x.t2 ≤ x.t3 ∧ x.t3 ≤ x.t4
  sent : endpoint.Fits x.t1
  arrived : controller.Fits x.t2
  answered : controller.Fits x.t3
  received : endpoint.Fits x.t4

/-- The exchange completes. -/
def complete (endpoint controller : Process) (c : ClockState) (x : TimedExchange) : ClockState :=
  c.update (endpoint.nowNs x.t1) (controller.nowNs x.t2) (controller.nowNs x.t3)
    (endpoint.nowNs x.t4)

/-- A clock after some exchanges. -/
def completeAll (endpoint controller : Process) (c : ClockState) (exchanges : List TimedExchange) :
    ClockState :=
  exchanges.foldl (complete endpoint controller) c

end TimedExchange

section

variable {endpoint controller : Process} {x : TimedExchange} {c : ClockState}

theorem measuredOffset_eq (h : x.Valid endpoint controller) :
    ClockState.measuredOffset (endpoint.nowNs x.t1) (controller.nowNs x.t2) (controller.nowNs x.t3)
        (endpoint.nowNs x.t4) =
      ((controller.epoch - endpoint.epoch : ℤ) : ℚ) + (x.asymmetry : ℚ) / 2 := by
  rw [ClockState.measuredOffset, Process.toNat_nowNs h.sent, Process.toNat_nowNs h.arrived,
    Process.toNat_nowNs h.answered, Process.toNat_nowNs h.received, TimedExchange.asymmetry]
  push_cast
  ring

theorem measuredRtt_eq (h : x.Valid endpoint controller) :
    ClockState.measuredRtt (endpoint.nowNs x.t1) (controller.nowNs x.t2) (controller.nowNs x.t3)
        (endpoint.nowNs x.t4) = x.rtt := by
  obtain ⟨h12, h23, h34⟩ := h.ordered
  rw [ClockState.measuredRtt, Process.toNat_nowNs h.sent, Process.toNat_nowNs h.arrived,
    Process.toNat_nowNs h.answered, Process.toNat_nowNs h.received]
  congr 1
  rw [TimedExchange.rtt]
  omega

/-- The bounds of the exchanges: how asymmetric they are, and how far their RTTs
are from some `r`. -/
structure Bounds where
  a : ℕ
  r : ℚ
  b : ℚ

def TimedExchange.Within (bounds : Bounds) (x : TimedExchange) : Prop :=
  |x.asymmetry| ≤ bounds.a ∧ |(x.rtt : ℚ) - bounds.r| ≤ bounds.b

/-- The offset is within half the asymmetry of `o`, and the RTT as near to `r` as
those of the exchanges. With no asymmetry there is no jitter. -/
structure Measured (o : ℤ) (bounds : Bounds) (c : ClockState) : Prop where
  weight : 0 ≤ c.alpha ∧ c.alpha ≤ 1
  offset : |c.offsetNs - o| ≤ bounds.a / 2
  rtt : |c.rttNs - bounds.r| ≤ bounds.b
  steady : bounds.a = 0 → c.jitterMean = o ∧ c.jitterVar = 0

/-- A clock before its first exchange, or one that has measured. -/
def Measuring (o : ℤ) (bounds : Bounds) (c : ClockState) : Prop :=
  c = .new ∨ Measured o bounds c

/-- **One exchange.** -/
theorem measured_complete {bounds : Bounds} (hx : x.Valid endpoint controller)
    (hwithin : x.Within bounds) (hc : Measuring (controller.epoch - endpoint.epoch) bounds c) :
    Measured (controller.epoch - endpoint.epoch) bounds
      (TimedExchange.complete endpoint controller c x) := by
  obtain ⟨hasym, hrtt⟩ := hwithin
  have hnew : 0 ≤ ClockState.new.alpha ∧ ClockState.new.alpha ≤ 1 := by
    simp only [ClockState.new]
    norm_num
  have hw : 0 ≤ c.alpha ∧ c.alpha ≤ 1 := by
    rcases hc with rfl | hc
    · exact hnew
    · exact hc.weight
  have hnear : |ClockState.measuredOffset (endpoint.nowNs x.t1) (controller.nowNs x.t2)
      (controller.nowNs x.t3) (endpoint.nowNs x.t4) -
        ((controller.epoch - endpoint.epoch : ℤ) : ℚ)| ≤ bounds.a / 2 := by
    have : |(x.asymmetry : ℚ)| ≤ bounds.a := by exact_mod_cast hasym
    rw [measuredOffset_eq hx, add_sub_cancel_left, abs_div, abs_of_pos (by norm_num : (0 : ℚ) < 2)]
    linarith
  unfold TimedExchange.complete
  cases hout : c.outlier (endpoint.nowNs x.t1) (controller.nowNs x.t2) (controller.nowNs x.t3)
    (endpoint.nowNs x.t4) with
  | true =>
    -- a first exchange is no outlier
    have hm := hc.resolve_left fun h => by
      subst h
      cases hout
    rw [ClockState.update_rejected hout]
    exact ⟨hm.weight, hm.offset, hm.rtt, hm.steady⟩
  | false =>
    refine ⟨by rw [ClockState.update_alpha]; exact hw, ?_, ?_, ?_⟩
    · refine ClockState.abs_update_offset_le hout hw (hc.imp ?_ (·.offset)) hnear
      rintro rfl
      rfl
    · rw [ClockState.update_accepted hout, ClockState.accept_rttNs, measuredRtt_eq hx]
      split
      next => exact hrtt
      next hs =>
        have hm := hc.resolve_left fun h => hs (by rw [h]; rfl)
        exact ClockState.abs_mix_sub_le (ClockState.weight_mem hw).1
          (ClockState.weight_mem hw).2 hm.rtt hrtt
    · intro hzero
      have heq : ClockState.measuredOffset (endpoint.nowNs x.t1) (controller.nowNs x.t2)
          (controller.nowNs x.t3) (endpoint.nowNs x.t4) =
            (controller.epoch - endpoint.epoch : ℤ) := by
        simpa [hzero, sub_eq_zero] using hnear
      rw [ClockState.update_accepted hout, heq]
      unfold ClockState.accept
      rcases hc with rfl | hm
      · simp [ClockState.new]
      · obtain ⟨hmean, hv⟩ := hm.steady hzero
        split <;> simp [hmean, hv]

/-- **A run of exchanges.** -/
theorem measured_run {bounds : Bounds} {exchanges : List TimedExchange}
    (hvalid : ∀ x ∈ exchanges, x.Valid endpoint controller ∧ x.Within bounds)
    (hc : Measured (controller.epoch - endpoint.epoch) bounds c) :
    Measured (controller.epoch - endpoint.epoch) bounds
      (TimedExchange.completeAll endpoint controller c exchanges) := by
  induction exchanges generalizing c with
  | nil => exact hc
  | cons x exchanges ih =>
    obtain ⟨hx, hwithin⟩ := hvalid x (by simp)
    exact ih (fun y hy => hvalid y (List.mem_cons_of_mem _ hy))
      (measured_complete hx hwithin (.inr hc))

end

/-- The endpoint's wall clock goes back ten seconds, in the first exchange. -/
def steppedEndpoint : Process where
  machine := { boot := 3, wallNs := fun t => if t < 100 then 20_000_000_000 else 10_000_000_000 }
  originAt := 10
  monoAt := 12
  wallAt := 14
  ordered := by decide

/-- The controller's is 3000 ns ahead, and goes forward seven seconds. -/
def steppedController : Process where
  machine := { boot := 0, wallNs := fun t => if t < 65 then 20_000_003_000 else 27_000_003_000 }
  originAt := 11
  monoAt := 12
  wallAt := 13
  ordered := by decide

/-- Two exchanges with 40 ns and 60 ns each way. -/
def steppedExchanges : List TimedExchange := [⟨20, 60, 70, 110⟩, ⟨1020, 1080, 1090, 1150⟩]

theorem steppedExchanges_valid : ∀ x ∈ steppedExchanges,
    x.Valid steppedEndpoint steppedController ∧ x.Within { a := 0, r := 100, b := 20 } := by
  simp only [steppedExchanges, List.forall_mem_cons, List.not_mem_nil, false_implies, implies_true,
    and_true]
  refine ⟨⟨⟨by decide, ?_, ?_, ?_, ?_⟩, by decide, ?_⟩, ⟨by decide, ?_, ?_, ?_, ?_⟩, by decide, ?_⟩
  all_goals first
    | exact ⟨by decide, by decide, by decide⟩
    | norm_num [TimedExchange.rtt]

end Oaat.Clock
