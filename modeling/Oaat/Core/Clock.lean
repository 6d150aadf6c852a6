/-
Oaat.Core.Clock — the filtered clock offset (`oaat-core/src/clock.rs`).

`f64` is read as the exact rationals; `f64::total_cmp` is then their order.
Timestamps are `u64` and their differences exact (`i128`). The counters
`samples` and `rejected` wrap as the release profile does.

A call of `update` either accepts the exchange or counts it as an outlier
(`update_accepted`, `update_rejected`). `abs_update_offset_le` is what the
accuracy of the clock rests on: an accepted exchange moves the filtered
offset no further from any value than the worse of the old offset and the
measured one.
-/
import Mathlib.Data.Rat.Floor
import Mathlib.Algebra.Order.Ring.Abs
import Mathlib.Tactic.Linarith
import Mathlib.Tactic.NormNum
import Mathlib.Tactic.Ring

namespace Oaat.Core

def RTT_WINDOW : Nat := 16

def RTT_OUTLIER_MADS : ℚ := 5

def RTT_OUTLIER_FLOOR_NS : ℚ := 1000000

def MAD_TO_SIGMA : ℚ := 14826 / 10000

/-- `v.sort_by(f64::total_cmp)` -/
def sorted (v : List ℚ) : List ℚ := v.mergeSort fun a b => decide (a ≤ b)

/-- Median of a non-empty slice. -/
def medianOf (v : List ℚ) : ℚ :=
  let v := sorted v
  let n := v.length
  if n % 2 = 1 then v.getD (n / 2) 0
  else (v.getD (n / 2 - 1) 0 + v.getD (n / 2) 0) / 2

structure ClockState where
  alpha : ℚ
  offsetNs : ℚ
  rttNs : ℚ
  samples : UInt32
  bootstrapCount : UInt32
  jitterMean : ℚ
  jitterVar : ℚ
  /-- Recent RTTs (accepted and rejected), oldest first. -/
  rttWindow : List ℚ
  rejected : UInt64
  deriving DecidableEq

namespace ClockState

def new : ClockState :=
  { alpha := 1 / 8, offsetNs := 0, rttNs := 0, samples := 0, bootstrapCount := 10,
    jitterMean := 0, jitterVar := 0, rttWindow := [], rejected := 0 }

def isBootstrapped (c : ClockState) : Bool := c.samples ≥ c.bootstrapCount

/-- The square of `jitter_ns()`, which is `jitter_var.max(0.0).sqrt()` from the second
sample on. -/
def jitterNsSq (c : ClockState) : ℚ := if c.samples < 2 then 0 else max c.jitterVar 0

/-- `jitter_us > b` is read as `jitter_ns² > (1000 b)²`. -/
def suggestedIntervalMs (c : ClockState) : Nat :=
  if c.samples < c.bootstrapCount then 100
  else if c.jitterNsSq > (1000 * 1000) ^ 2 then 500
  else if c.jitterNsSq > (1000 * 100) ^ 2 then 2000
  else 5000

/-- True when `rtt` lies above the outlier threshold of the current window. -/
def isRttOutlier (c : ClockState) (rtt : ℚ) : Bool :=
  if c.rttWindow.isEmpty then false
  else
    let window := sorted c.rttWindow
    let median := medianOf c.rttWindow
    let mad := medianOf (window.map fun x => |x - median|)
    let margin := max (RTT_OUTLIER_MADS * MAD_TO_SIGMA * mad) RTT_OUTLIER_FLOOR_NS
    rtt > median + margin

/-- `((t2 - t1) + (t3 - t4)) / 2` -/
def measuredOffset (t1 t2 t3 t4 : UInt64) : ℚ :=
  (((t2.toNat : ℤ) - t1.toNat) + ((t3.toNat : ℤ) - t4.toNat) : ℤ) / 2

/-- `((t4 - t1) - (t3 - t2)).max(0)` -/
def measuredRtt (t1 t2 t3 t4 : UInt64) : ℚ :=
  (max (((t4.toNat : ℤ) - t1.toNat) - ((t3.toNat : ℤ) - t2.toNat)) 0 : ℤ)

/-- `pop_front` on a full window, then `push_back`. -/
def pushRtt (window : List ℚ) (rtt : ℚ) : List ℚ :=
  (if window.length = RTT_WINDOW then window.drop 1 else window) ++ [rtt]

/-- The weight of the next sample. -/
def weight (c : ClockState) : ℚ := if c.samples < c.bootstrapCount then 1 / 2 else c.alpha

/-- The part of `update` that an accepted exchange reaches. -/
def accept (c : ClockState) (offset rtt : ℚ) : ClockState :=
  let c :=
    if c.samples = 0 then { c with offsetNs := offset, rttNs := rtt, jitterMean := offset }
    else
      let alpha := c.weight
      { c with
        offsetNs := c.offsetNs * (1 - alpha) + offset * alpha
        rttNs := c.rttNs * (1 - alpha) + rtt * alpha }
  let c := { c with samples := c.samples + 1 }
  let diff := offset - c.jitterMean
  let incr := c.alpha * diff
  { c with
    jitterMean := c.jitterMean + incr
    jitterVar := (1 - c.alpha) * (c.jitterVar + diff * incr) }

/-- The exchange is rejected as an RTT outlier. -/
def outlier (c : ClockState) (t1 t2 t3 t4 : UInt64) : Bool :=
  c.isBootstrapped && c.isRttOutlier (measuredRtt t1 t2 t3 t4)

def update (c : ClockState) (t1 t2 t3 t4 : UInt64) : ClockState :=
  let offset := measuredOffset t1 t2 t3 t4
  let rtt := measuredRtt t1 t2 t3 t4
  let outlier := c.isBootstrapped && c.isRttOutlier rtt
  let c := { c with rttWindow := pushRtt c.rttWindow rtt }
  if outlier then { c with rejected := c.rejected + 1 }
  else c.accept offset rtt

/-! ## What an update does -/

section

variable {c : ClockState} {t1 t2 t3 t4 : UInt64}

theorem update_accepted (h : c.outlier t1 t2 t3 t4 = false) :
    c.update t1 t2 t3 t4 =
      { c with rttWindow := pushRtt c.rttWindow (measuredRtt t1 t2 t3 t4) }.accept
        (measuredOffset t1 t2 t3 t4) (measuredRtt t1 t2 t3 t4) := by
  rw [outlier] at h
  simp only [update, h, Bool.false_eq_true, if_false]

/-- A rejected exchange enters the window and is counted, and that is all. -/
theorem update_rejected (h : c.outlier t1 t2 t3 t4 = true) :
    c.update t1 t2 t3 t4 =
      { c with rttWindow := pushRtt c.rttWindow (measuredRtt t1 t2 t3 t4),
               rejected := c.rejected + 1 } := by
  rw [outlier] at h
  simp only [update, h, if_true]

@[simp] theorem accept_alpha (c : ClockState) (offset rtt : ℚ) :
    (c.accept offset rtt).alpha = c.alpha := by
  unfold accept
  split <;> rfl

theorem accept_offsetNs (c : ClockState) (offset rtt : ℚ) :
    (c.accept offset rtt).offsetNs =
      if c.samples = 0 then offset else c.offsetNs * (1 - c.weight) + offset * c.weight := by
  unfold accept
  split <;> rfl

theorem accept_rttNs (c : ClockState) (offset rtt : ℚ) :
    (c.accept offset rtt).rttNs =
      if c.samples = 0 then rtt else c.rttNs * (1 - c.weight) + rtt * c.weight := by
  unfold accept
  split <;> rfl

@[simp] theorem accept_samples (c : ClockState) (offset rtt : ℚ) :
    (c.accept offset rtt).samples = c.samples + 1 := by
  unfold accept
  split <;> rfl

@[simp] theorem accept_bootstrapCount (c : ClockState) (offset rtt : ℚ) :
    (c.accept offset rtt).bootstrapCount = c.bootstrapCount := by
  unfold accept
  split <;> rfl

@[simp] theorem accept_rttWindow (c : ClockState) (offset rtt : ℚ) :
    (c.accept offset rtt).rttWindow = c.rttWindow := by
  unfold accept
  split <;> rfl

theorem weight_mem {c : ClockState} (hw : 0 ≤ c.alpha ∧ c.alpha ≤ 1) :
    0 ≤ c.weight ∧ c.weight ≤ 1 := by
  unfold weight
  split
  · norm_num
  · exact hw

@[simp] theorem update_bootstrapCount :
    (c.update t1 t2 t3 t4).bootstrapCount = c.bootstrapCount := by
  cases h : c.outlier t1 t2 t3 t4 with
  | true => rw [update_rejected h]
  | false => rw [update_accepted h, accept_bootstrapCount]

theorem update_alpha : (c.update t1 t2 t3 t4).alpha = c.alpha := by
  cases h : c.outlier t1 t2 t3 t4 with
  | true => rw [update_rejected h]
  | false => rw [update_accepted h, accept_alpha]

/-- A weighted mean is no further from `x` than the worse of the two. -/
theorem abs_mix_sub_le {a b w x m : ℚ} (h0 : 0 ≤ w) (h1 : w ≤ 1) (ha : |a - x| ≤ m)
    (hb : |b - x| ≤ m) : |a * (1 - w) + b * w - x| ≤ m := by
  have hsplit : a * (1 - w) + b * w - x = (a - x) * (1 - w) + (b - x) * w := by ring
  calc |a * (1 - w) + b * w - x|
      = |(a - x) * (1 - w) + (b - x) * w| := by rw [hsplit]
    _ ≤ |(a - x) * (1 - w)| + |(b - x) * w| := abs_add_le _ _
    _ = |a - x| * (1 - w) + |b - x| * w := by
        rw [abs_mul, abs_mul, abs_of_nonneg (by linarith : 0 ≤ 1 - w), abs_of_nonneg h0]
    _ ≤ m * (1 - w) + m * w :=
        add_le_add (mul_le_mul_of_nonneg_right ha (by linarith))
          (mul_le_mul_of_nonneg_right hb h0)
    _ = m := by ring

/-- **An accepted exchange.** If the first sample has not been taken yet, or the
offset was within `m` of `x`, and the measured offset is, then so is the new
offset. -/
theorem abs_update_offset_le {x m : ℚ} (hacc : c.outlier t1 t2 t3 t4 = false)
    (hw : 0 ≤ c.alpha ∧ c.alpha ≤ 1) (hold : c.samples = 0 ∨ |c.offsetNs - x| ≤ m)
    (hnew : |measuredOffset t1 t2 t3 t4 - x| ≤ m) :
    |(c.update t1 t2 t3 t4).offsetNs - x| ≤ m := by
  rw [update_accepted hacc, accept_offsetNs]
  by_cases hs : c.samples = 0
  · simpa [hs] using hnew
  · rw [if_neg hs]
    exact abs_mix_sub_le (weight_mem hw).1 (weight_mem hw).2 (hold.resolve_left hs) hnew

end

end ClockState

end Oaat.Core
