/-
Oaat.Lib.MaximalRuns — the maximal runs of a predicate on positions.

A maximal run `i, …, j - 1` is determined by its end: every position where the
predicate holds for the last time ends exactly one. Runs are counted by
counting these ends (`card_maximalRuns`), which a program that reads the
positions in order can do with one flag.
-/
import Mathlib.Data.Finset.Card
import Mathlib.Data.Finset.Prod
import Mathlib.Data.Nat.Find

namespace Oaat.Lib

variable {p : Nat → Prop}

/-- The positions `i, …, j - 1` satisfy `p`, and neither neighbour does. -/
def MaximalRun (p : Nat → Prop) (i j : Nat) : Prop :=
  i < j ∧ (∀ k < j, i ≤ k → p k) ∧ (i = 0 ∨ ¬ p (i - 1)) ∧ ¬ p j

instance [DecidablePred p] (i j : Nat) : Decidable (MaximalRun p i j) :=
  inferInstanceAs (Decidable (_ ∧ _))

/-- Two runs with one end start at one position. -/
theorem MaximalRun.start_unique {i i' j : Nat} (h : MaximalRun p i j) (h' : MaximalRun p i' j) :
    i = i' := by
  have hle : ∀ {a b : Nat}, MaximalRun p a j → MaximalRun p b j → a ≤ b := by
    intro a b ⟨_, _, ha, _⟩ ⟨hb, hbp, _, _⟩
    by_contra hlt
    obtain h0 | hprev := ha
    · omega
    · have hlast := h.1
      exact hprev (hbp (a - 1) (by omega) (by omega))
  exact Nat.le_antisymm (hle h h') (hle h' h)

/-- Where `p` holds for the last time a run ends. -/
theorem exists_maximalRun {k : Nat} (hk : p k) (hend : ¬ p (k + 1)) :
    ∃ i, MaximalRun p i (k + 1) := by
  classical
  -- the least position from which `p` holds up to `k`
  have hex : ∃ i, ∀ m < k + 1, i ≤ m → p m := by
    refine ⟨k, fun m hm hkm => ?_⟩
    rwa [show m = k by omega]
  refine ⟨Nat.find hex, ?_, Nat.find_spec hex, ?_, hend⟩
  · refine lt_of_le_of_lt (Nat.find_min' hex (m := k) fun m hm hkm => ?_) (Nat.lt_succ_self k)
    rwa [show m = k by omega]
  · obtain h0 | hpos := Nat.eq_zero_or_pos (Nat.find hex)
    · exact .inl h0
    · refine .inr fun hprev => Nat.find_min hex (Nat.sub_one_lt hpos.ne') fun m hm hle => ?_
      obtain rfl | hlt := hle.eq_or_lt
      · exact hprev
      · exact Nat.find_spec hex m hm (by omega)

/-- The maximal runs that satisfy `q` and end before `n`. -/
def maximalRuns (p : Nat → Prop) (q : Nat → Nat → Prop) [DecidablePred p] [DecidableRel q]
    (n : Nat) : Finset (Nat × Nat) :=
  (Finset.range n ×ˢ Finset.range n).filter fun r => MaximalRun p r.1 r.2 ∧ q r.1 r.2

variable {q : Nat → Nat → Prop} [DecidablePred p] [DecidableRel q]

theorem mem_maximalRuns {n i j : Nat} :
    (i, j) ∈ maximalRuns p q n ↔ j < n ∧ MaximalRun p i j ∧ q i j := by
  simp only [maximalRuns, Finset.mem_filter, Finset.mem_product, Finset.mem_range]
  refine ⟨fun h => ⟨h.1.2, h.2⟩, fun h => ⟨⟨h.2.1.1.trans h.1, h.1⟩, h.2⟩⟩

/-- There are as many runs as ends. -/
theorem card_maximalRuns (ends : Nat → Prop) [DecidablePred ends] (n : Nat)
    (h : ∀ j, ends j ↔ ∃ i, MaximalRun p i j ∧ q i j) :
    (maximalRuns p q n).card = ((Finset.range n).filter ends).card := by
  refine Finset.card_bij (fun r _ => r.2) ?_ ?_ ?_
  · rintro ⟨i, j⟩ hr
    obtain ⟨hj, hrun⟩ := mem_maximalRuns.mp hr
    exact Finset.mem_filter.mpr ⟨Finset.mem_range.mpr hj, (h j).mpr ⟨i, hrun⟩⟩
  · rintro ⟨i, j⟩ hr ⟨i', j'⟩ hr' (rfl : j = j')
    rw [(mem_maximalRuns.mp hr).2.1.start_unique (mem_maximalRuns.mp hr').2.1]
  · intro j hj
    obtain ⟨hlt, hend⟩ := Finset.mem_filter.mp hj
    obtain ⟨i, hrun⟩ := (h j).mp hend
    exact ⟨(i, j), mem_maximalRuns.mpr ⟨Finset.mem_range.mp hlt, hrun⟩, rfl⟩

end Oaat.Lib
