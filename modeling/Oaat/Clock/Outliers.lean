/-
Oaat.Clock.Outliers — which exchanges the RTT gate lets through.

The gate compares an RTT with the median of the last 16 RTTs, accepted or
rejected, plus a margin that is a multiple of their median deviation and never
below 1 ms. Both medians are medians in the sense of `IsMedian`
(`isMedian_medianOf`), so a minority of the window moves neither out of what the
majority spans (`median_between`, `mad_le`).

The window of a clock that has seen some exchanges is the end of their RTTs
(`rttWindow_after`); nine exchanges are a majority of it.
-/
import Oaat.Core.Clock
import Oaat.Lib.Median
import Mathlib.Data.List.GetD
import Mathlib.Data.List.Infix

namespace Oaat.Clock

open Oaat.Core Oaat.Core.ClockState Oaat.Lib

/-! ## The two medians -/

theorem sorted_pairwise (v : List ℚ) : (sorted v).Pairwise (· ≤ ·) := by
  have h := @List.pairwise_mergeSort ℚ (fun a b => decide (a ≤ b))
    (by simpa using fun a b c => le_trans) (by simpa using le_total) v
  simpa [sorted] using h

theorem sorted_perm (v : List ℚ) : (sorted v).Perm v := List.mergeSort_perm v _

theorem length_sorted (v : List ℚ) : (sorted v).length = v.length := (sorted_perm v).length_eq

theorem isMedian_medianOf {v : List ℚ} (hv : v ≠ []) : IsMedian (medianOf v) v := by
  have hpos : 0 < (sorted v).length := by
    rw [length_sorted]
    exact List.length_pos_iff.mpr hv
  refine IsMedian.perm ?_ (sorted_perm v)
  unfold medianOf
  dsimp only
  split
  · -- odd: the middle element
    rename_i hodd
    have hmid : ((sorted v).length - 1) / 2 = (sorted v).length / 2 := by omega
    rw [List.getD_eq_getElem _ _ (by omega)]
    exact isMedian_of_middle (sorted_pairwise v) hpos (by simp only [hmid, le_refl]) le_rfl
  · -- even: the mean of the two middle elements
    rename_i heven
    have hmid : ((sorted v).length - 1) / 2 = (sorted v).length / 2 - 1 := by omega
    have hlt : (sorted v).length / 2 < (sorted v).length := by omega
    rw [List.getD_eq_getElem _ _ (by omega), List.getD_eq_getElem _ _ hlt]
    have hle := (sorted_pairwise v).rel_get_of_le (a := ⟨(sorted v).length / 2 - 1, by omega⟩)
      (b := ⟨(sorted v).length / 2, hlt⟩) (Nat.sub_le _ _)
    simp only [List.get_eq_getElem] at hle
    refine isMedian_of_middle (sorted_pairwise v) hpos ?_ (by linarith)
    simp only [hmid]
    linarith

/-! ## The gate -/

section

variable {c : ClockState} {lo hi rtt : ℚ}

/-- The median deviation that the gate computes. -/
def mad (c : ClockState) : ℚ :=
  medianOf ((sorted c.rttWindow).map fun x => |x - medianOf c.rttWindow|)

theorem isRttOutlier_iff (h : c.rttWindow ≠ []) :
    c.isRttOutlier rtt = true ↔
      medianOf c.rttWindow + max (RTT_OUTLIER_MADS * MAD_TO_SIGMA * mad c) RTT_OUTLIER_FLOOR_NS <
        rtt := by
  simp [isRttOutlier, mad, h]

/-- Below the floor above a value that most of the window reaches, no RTT is an
outlier. -/
theorem not_isRttOutlier (hlo : c.rttWindow.length < 2 * c.rttWindow.countP (fun x => lo ≤ x))
    (hrtt : rtt ≤ lo + RTT_OUTLIER_FLOOR_NS) : c.isRttOutlier rtt = false := by
  have hne : c.rttWindow ≠ [] := by
    rintro h
    simp [h] at hlo
  rw [Bool.eq_false_iff]
  intro hout
  have hmedian := (isMedian_medianOf hne).le_of_majority hlo
  have hfloor := le_max_right (RTT_OUTLIER_MADS * MAD_TO_SIGMA * mad c) RTT_OUTLIER_FLOOR_NS
  have hover := (isRttOutlier_iff hne).mp hout
  linarith

/-- Fewer than half of the window lie outside `[lo, hi]`. -/
def Minority (lo hi : ℚ) (window : List ℚ) : Prop :=
  2 * window.countP (fun x => ¬ (lo ≤ x ∧ x ≤ hi)) < window.length

/-- What holds in the interval holds of more than half of the window. -/
theorem Minority.majority {window : List ℚ} (h : Minority lo hi window) (p : ℚ → Prop)
    [DecidablePred p] (hp : ∀ x, lo ≤ x → x ≤ hi → p x) :
    window.length < 2 * window.countP (fun x => p x) := by
  have hsplit :=
    List.length_eq_countP_add_countP (fun x => decide (lo ≤ x ∧ x ≤ hi)) (l := window)
  have hmono : window.countP (fun x => lo ≤ x ∧ x ≤ hi) ≤ window.countP (fun x => p x) := by
    refine List.countP_mono_left ?_
    intro x _ hx
    have hx := of_decide_eq_true hx
    exact decide_eq_true (hp x hx.1 hx.2)
  unfold Minority at h
  simp only [decide_not, decide_eq_true_eq] at h hsplit
  omega

theorem Minority.ne_nil {window : List ℚ} (h : Minority lo hi window) : window ≠ [] := by
  rintro rfl
  exact absurd h (Nat.not_lt_zero _)

theorem Minority.median_between (h : Minority lo hi c.rttWindow) :
    lo ≤ medianOf c.rttWindow ∧ medianOf c.rttWindow ≤ hi :=
  ⟨(isMedian_medianOf h.ne_nil).le_of_majority (h.majority (lo ≤ ·) fun _ hx _ => hx),
    (isMedian_medianOf h.ne_nil).ge_of_majority (h.majority (· ≤ hi) fun _ _ hx => hx)⟩

/-- What lies in the interval is no further from the median than the interval is
wide, and so is the median deviation. -/
theorem Minority.mad_le (h : Minority lo hi c.rttWindow) : mad c ≤ hi - lo := by
  obtain ⟨hlo, hhi⟩ := h.median_between
  have hne : (sorted c.rttWindow).map (fun x => |x - medianOf c.rttWindow|) ≠ [] := by
    rw [Ne, List.map_eq_nil_iff, ← List.length_eq_zero_iff, length_sorted, List.length_eq_zero_iff]
    exact h.ne_nil
  refine (isMedian_medianOf hne).ge_of_majority ?_
  rw [List.length_map, length_sorted, List.countP_map, (sorted_perm c.rttWindow).countP_eq]
  refine h.majority (fun x => |x - medianOf c.rttWindow| ≤ hi - lo) ?_
  intro x hx hx'
  refine abs_le.mpr ⟨?_, ?_⟩ <;> linarith

end

/-! ## Exchanges -/

/-- The four timestamps of an exchange. -/
structure Exchange where
  t1 : UInt64
  t2 : UInt64
  t3 : UInt64
  t4 : UInt64
  deriving DecidableEq

namespace Exchange

def rtt (e : Exchange) : ℚ := measuredRtt e.t1 e.t2 e.t3 e.t4

def offset (e : Exchange) : ℚ := measuredOffset e.t1 e.t2 e.t3 e.t4

end Exchange

/-- The clock rejects the exchange. -/
def rejects (c : ClockState) (e : Exchange) : Bool := c.outlier e.t1 e.t2 e.t3 e.t4

/-- The clock after an exchange. -/
def exchange (c : ClockState) (e : Exchange) : ClockState := c.update e.t1 e.t2 e.t3 e.t4

/-- The clock after some exchanges. -/
def after (c : ClockState) (es : List Exchange) : ClockState := es.foldl exchange c

/-- Which of the exchanges are rejected. -/
def rejections (c : ClockState) : List Exchange → List Bool
  | [] => []
  | e :: es => rejects c e :: rejections (exchange c e) es

section

variable {c : ClockState} {e : Exchange} {lo hi : ℚ}

theorem after_append (c : ClockState) (es more : List Exchange) :
    after c (es ++ more) = after (after c es) more := List.foldl_append

theorem not_rejects (h : c.isRttOutlier e.rtt = false) : rejects c e = false := by
  change (c.isBootstrapped && c.isRttOutlier e.rtt) = false
  rw [h, Bool.and_false]

/-- An accepted exchange enters the window, and the clock takes its offset and RTT. -/
theorem exchange_accepted (h : rejects c e = false) :
    exchange c e =
      { c with rttWindow := pushRtt c.rttWindow e.rtt }.accept e.offset e.rtt :=
  update_accepted h

/-- **Spikes.** Fewer than half of the window's RTTs lie outside `[lo, hi]`, and
they may have any values. Then an exchange is accepted up to 1 ms above `lo`, and
rejected from 5 scaled MADs of the interval's width, but at least 1 ms, above
`hi` on. An accepted exchange enters the window and moves the clock; a rejected one
enters the window, is counted, and changes nothing else. -/
theorem spikes_ignored (hboot : c.isBootstrapped = true)
    (hminority : 2 * c.rttWindow.countP (fun x => ¬ (lo ≤ x ∧ x ≤ hi)) < c.rttWindow.length)
    (e : Exchange) :
    (e.rtt ≤ lo + 1000000 → rejects c e = false) ∧
      (hi + max (5 * (14826 / 10000) * (hi - lo)) 1000000 < e.rtt → rejects c e = true) ∧
      (rejects c e = false →
        exchange c e =
          { c with rttWindow := pushRtt c.rttWindow e.rtt }.accept e.offset e.rtt) ∧
      (rejects c e = true →
        exchange c e =
          { c with rttWindow := pushRtt c.rttWindow e.rtt, rejected := c.rejected + 1 }) := by
  have h : Minority lo hi c.rttWindow := hminority
  obtain ⟨hlo, hhi⟩ := h.median_between
  refine ⟨?_, ?_, exchange_accepted, fun hrej => update_rejected hrej⟩
  · intro hrtt
    have hmost := h.majority (lo ≤ ·) fun _ hx _ => hx
    exact not_rejects (not_isRttOutlier hmost hrtt)
  · intro hrtt
    have hmargin : max (RTT_OUTLIER_MADS * MAD_TO_SIGMA * mad c) RTT_OUTLIER_FLOOR_NS ≤
        max (5 * (14826 / 10000) * (hi - lo)) 1000000 := by
      refine max_le_max ?_ le_rfl
      exact mul_le_mul_of_nonneg_left h.mad_le (by norm_num [RTT_OUTLIER_MADS, MAD_TO_SIGMA])
    have hout : c.isRttOutlier e.rtt = true := by
      rw [isRttOutlier_iff h.ne_nil]
      linarith
    rw [rejects, outlier, hboot, Bool.true_and]
    exact hout

/-- Nine RTTs of 20 ns, and two that are far off. -/
def noisyWindow : ClockState :=
  { ClockState.new with samples := 10, rttWindow := List.replicate 9 20 ++ [1000000000, 0] }

theorem spikes_ignored_noisyWindow :
    rejects noisyWindow ⟨0, 10, 10, 1000020⟩ = false ∧
      rejects noisyWindow ⟨0, 10, 10, 1000021⟩ = true := by
  have h := @spikes_ignored noisyWindow 20 20 (by decide +kernel)
    (by decide +kernel)
  exact ⟨(h ⟨0, 10, 10, 1000020⟩).1 (by decide +kernel),
    (h ⟨0, 10, 10, 1000021⟩).2.1 (by decide +kernel)⟩

/-! ## The window -/

/-- The last `n` elements of a list. -/
def lastOf {α : Type} (n : Nat) (l : List α) : List α := l.drop (l.length - n)

theorem lastOf_concat {α : Type} {n : Nat} (hn : 0 < n) (l : List α) (x : α) :
    lastOf n (l ++ [x]) =
      (if (lastOf n l).length = n then (lastOf n l).drop 1 else lastOf n l) ++ [x] := by
  have hlen : (lastOf n l).length = min l.length n := by
    rw [lastOf, List.length_drop]
    omega
  rw [hlen]
  unfold lastOf
  rw [List.length_append, List.length_singleton, List.drop_append_of_le_length (by omega)]
  split
  · rw [List.drop_drop]
    congr 2
    omega
  · congr 2
    omega

theorem lastOf_lastOf {α : Type} {m n : Nat} (h : m ≤ n) (l : List α) :
    lastOf m (lastOf n l) = lastOf m l := by
  rw [lastOf, lastOf, List.drop_drop, List.length_drop, lastOf]
  congr 1
  omega

@[simp] theorem exchange_rttWindow (c : ClockState) (e : Exchange) :
    (exchange c e).rttWindow = pushRtt c.rttWindow e.rtt := by
  cases h : rejects c e with
  | true => rw [exchange, update_rejected h]; rfl
  | false => rw [exchange_accepted h, accept_rttWindow]

/-- The window holds the RTTs of the last 16 exchanges. -/
theorem rttWindow_after (es : List Exchange) :
    (after .new es).rttWindow = lastOf RTT_WINDOW (es.map Exchange.rtt) := by
  induction es using List.reverseRecOn with
  | nil => rfl
  | append_singleton es e ih =>
    rw [after_append, List.map_append, List.map_singleton, lastOf_concat (by decide)]
    change (exchange (after .new es) e).rttWindow = _
    rw [exchange_rttWindow, ih, pushRtt]

/-- A bootstrapped clock has seen ten exchanges. -/
theorem ten_le_of_bootstrapped {es : List Exchange}
    (h : (after .new es).isBootstrapped = true) : 10 ≤ es.length := by
  have hinv : (after .new es).bootstrapCount = 10 ∧
      (after .new es).samples.toNat ≤ es.length := by
    clear h
    induction es using List.reverseRecOn with
    | nil => exact ⟨rfl, le_rfl⟩
    | append_singleton es e ih =>
      rw [after_append, List.length_append, List.length_singleton]
      change (exchange (after .new es) e).bootstrapCount = 10 ∧
        (exchange (after .new es) e).samples.toNat ≤ es.length + 1
      cases hrej : rejects (after .new es) e with
      | true =>
        rw [exchange, update_rejected hrej]
        exact ⟨ih.1, Nat.le_succ_of_le ih.2⟩
      | false =>
        have hsucc : (after .new es).samples.toNat + 1 ≤ es.length + 1 := by omega
        have hwrap : ((after .new es).samples + 1).toNat ≤ es.length + 1 := by
          rw [UInt32.toNat_add]
          exact le_trans (Nat.mod_le _ _) hsucc
        rw [exchange_accepted hrej, accept_bootstrapCount, accept_samples]
        exact ⟨ih.1, hwrap⟩
  have hle : (10 : UInt32) ≤ (after .new es).samples := by
    simpa [isBootstrapped, hinv.1] using h
  have hnat := UInt32.le_iff_toNat_le.mp hle
  exact le_trans hnat hinv.2

/-- Nine exchanges are most of the window. -/
theorem majority_of_recent {es : List Exchange} {r : ℚ} (hlen : 9 ≤ es.length)
    (hr : ∀ p ∈ lastOf (RTT_WINDOW / 2 + 1) es, r ≤ p.rtt) :
    (after .new es).rttWindow.length < 2 * (after .new es).rttWindow.countP (fun x => r ≤ x) := by
  rw [rttWindow_after]
  have hwindow : (lastOf RTT_WINDOW (es.map Exchange.rtt)).length ≤ 16 := by
    rw [lastOf, List.length_drop, List.length_map]
    simp only [RTT_WINDOW]
    omega
  have hrecent : ((lastOf 9 es).map Exchange.rtt).countP (fun x => r ≤ x) = 9 := by
    have hall : ∀ x ∈ (lastOf 9 es).map Exchange.rtt, decide (r ≤ x) = true := by
      intro x hx
      obtain ⟨p, hp, rfl⟩ := List.mem_map.mp hx
      exact decide_eq_true (hr p hp)
    rw [List.countP_eq_length.mpr hall, List.length_map, lastOf, List.length_drop]
    omega
  have hmap : (lastOf 9 es).map Exchange.rtt =
      lastOf 9 (lastOf RTT_WINDOW (es.map Exchange.rtt)) := by
    rw [lastOf_lastOf (by decide), lastOf, lastOf, List.map_drop, List.length_map]
  have hle := (List.drop_sublist ((lastOf RTT_WINDOW (es.map Exchange.rtt)).length - 9)
    (lastOf RTT_WINDOW (es.map Exchange.rtt))).countP_le (p := fun x => decide (r ≤ x))
  change ((lastOf 9 (lastOf RTT_WINDOW (es.map Exchange.rtt))).countP _ ≤ _) at hle
  rw [← hmap, hrecent] at hle
  omega

/-- After nine RTTs of at least `r` an RTT of at most `r` is let through. -/
theorem accepts_after_recent {es : List Exchange} {r : ℚ}
    (hr : ∀ p ∈ lastOf (RTT_WINDOW / 2 + 1) es, r ≤ p.rtt) {e : Exchange} (he : e.rtt ≤ r) :
    rejects (after .new es) e = false := by
  by_cases hboot : (after .new es).isBootstrapped = true
  · have hlen := ten_le_of_bootstrapped hboot
    refine not_rejects (not_isRttOutlier (majority_of_recent (by omega) hr) ?_)
    have hfloor : (0 : ℚ) ≤ RTT_OUTLIER_FLOOR_NS := by norm_num [RTT_OUTLIER_FLOOR_NS]
    linarith
  · rw [Bool.not_eq_true] at hboot
    rw [rejects, outlier, hboot, Bool.false_and]

theorem length_rejections (c : ClockState) (es : List Exchange) :
    (rejections c es).length = es.length := by
  induction es generalizing c with
  | nil => rfl
  | cons e es ih => rw [rejections, List.length_cons, List.length_cons, ih]

theorem getElem?_rejections (c : ClockState) (es : List Exchange) {i : Nat}
    (hi : i < es.length) : (rejections c es)[i]? = some (rejects (after c (es.take i)) es[i]) := by
  induction es generalizing c i with
  | nil => exact absurd hi (Nat.not_lt_zero i)
  | cons e es ih =>
    cases i with
    | zero => rfl
    | succ i => exact ih (exchange c e) (by simpa using hi)

/-- **A durable change.** Whatever exchanges a clock has seen, if the last nine,
accepted or not, had RTTs of at least `r`, the next one with an RTT of at most `r`
is accepted and moves the clock. So on a path whose RTT stays the same no ten exchanges
in a row are rejected. -/
theorem durable_rtt_readmitted (es : List Exchange) :
    (∀ r : ℚ, (∀ p ∈ lastOf (RTT_WINDOW / 2 + 1) es, r ≤ p.rtt) →
      ∀ e : Exchange, e.rtt ≤ r → rejects (after .new es) e = false ∧
        exchange (after .new es) e =
          { after .new es with rttWindow := pushRtt (after .new es).rttWindow e.rtt }.accept
            e.offset e.rtt) ∧
    ∀ (r : ℚ) (path : List Exchange), (∀ p ∈ path, p.rtt = r) →
      ¬ List.replicate 10 true <:+: rejections (after .new es) path := by
  refine ⟨fun r hr e he => ?_, ?_⟩
  · have haccepts := accepts_after_recent hr he
    exact ⟨haccepts, exchange_accepted haccepts⟩
  rintro r path hpath ⟨before, behind, hsplit⟩
  -- the tenth of the rejected exchanges
  have hten : (rejections (after .new es) path)[before.length + 9]? = some true := by
    rw [← hsplit, List.append_assoc, List.getElem?_append_right (by omega), Nat.add_sub_cancel_left]
    rfl
  have hlt : before.length + 9 < path.length := by
    have hlen : (rejections (after .new es) path).length = path.length := length_rejections _ _
    obtain ⟨hlt, -⟩ := List.getElem?_eq_some_iff.mp hten
    omega
  rw [getElem?_rejections _ _ hlt, ← after_append, Option.some.injEq] at hten
  have hrecent : ∀ p ∈ lastOf (RTT_WINDOW / 2 + 1) (es ++ path.take (before.length + 9)),
      r ≤ p.rtt := by
    intro p hp
    have hmem : p ∈ path.take (before.length + 9) := by
      rw [lastOf, List.drop_append] at hp
      refine List.mem_of_mem_drop ((List.mem_append.mp hp).resolve_left ?_)
      rw [List.drop_of_length_le]
      · exact List.not_mem_nil
      · simp [RTT_WINDOW]
        omega
    exact (hpath p (List.mem_of_mem_take hmem)).ge
  rw [accepts_after_recent hrecent (hpath _ (List.getElem_mem hlt)).le] at hten
  cases hten

end

/-- Ten exchanges of 20 ns. -/
def quickStart : List Exchange := List.replicate 10 ⟨0, 10, 10, 20⟩

theorem durable_rtt_readmitted_quickStart :
    (after .new quickStart).isBootstrapped = true ∧
      rejects (after .new quickStart) ⟨0, 10, 10, 20⟩ = false ∧
      ¬ List.replicate 10 true <:+:
        rejections (after .new quickStart) (List.replicate 12 ⟨0, 10, 10, 5000000⟩) := by
  have h := durable_rtt_readmitted quickStart
  exact ⟨by decide +kernel, (h.1 20 (by decide +kernel) ⟨0, 10, 10, 20⟩ (by decide +kernel)).1,
    h.2 5000000 (List.replicate 12 ⟨0, 10, 10, 5000000⟩) (by decide +kernel)⟩

end Oaat.Clock
