/-
Oaat.Lib.Median — medians, and what a minority can do to them.

A median has at most half of the elements below it and at most half above it.
More than half of the elements on one side of a value keep every median on that
side, whatever the other elements are (`le_of_majority`, `ge_of_majority`).
Between the two middle elements of a sorted list lie its medians.
-/
import Mathlib.Data.List.Pairwise
import Mathlib.Order.Lattice

namespace Oaat.Lib

variable {α : Type} [LinearOrder α] {m r : α} {l : List α}

/-- At most half of the elements are below `m`, and at most half above it. -/
def IsMedian (m : α) (l : List α) : Prop :=
  2 * l.countP (fun x => x < m) ≤ l.length ∧ 2 * l.countP (fun x => m < x) ≤ l.length

namespace IsMedian

theorem perm {l' : List α} (h : IsMedian m l) (hperm : l.Perm l') : IsMedian m l' := by
  unfold IsMedian at h ⊢
  rwa [hperm.countP_eq, hperm.countP_eq, hperm.length_eq] at h

/-- More than half of the elements are at least `r`. -/
theorem le_of_majority (h : IsMedian m l) (hr : l.length < 2 * l.countP (fun x => r ≤ x)) :
    r ≤ m := by
  by_contra hlt
  have hmono : l.countP (fun x => r ≤ x) ≤ l.countP (fun x => m < x) := by
    refine List.countP_mono_left ?_
    intro x _ hx
    exact decide_eq_true (lt_of_lt_of_le (not_le.mp hlt) (of_decide_eq_true hx))
  have habove := h.2
  omega

/-- More than half of the elements are at most `r`. -/
theorem ge_of_majority (h : IsMedian m l) (hr : l.length < 2 * l.countP (fun x => x ≤ r)) :
    m ≤ r := by
  by_contra hlt
  have hmono : l.countP (fun x => x ≤ r) ≤ l.countP (fun x => x < m) := by
    refine List.countP_mono_left ?_
    intro x _ hx
    exact decide_eq_true (lt_of_le_of_lt (of_decide_eq_true hx) (not_le.mp hlt))
  have hbelow := h.1
  omega

end IsMedian

/-! ## The middle of a sorted list -/

/-- Below an element of a sorted list there are only elements in front of it. -/
theorem countP_lt_le (hsorted : l.Pairwise (· ≤ ·)) {i : Nat} (hi : i < l.length)
    (hm : m ≤ l[i]) : l.countP (fun x => x < m) ≤ i := by
  have hrest : (l.drop i).countP (fun x => x < m) = 0 := by
    rw [List.countP_eq_zero]
    intro x hx
    obtain ⟨j, hj, rfl⟩ := List.mem_iff_getElem.mp hx
    rw [List.getElem_drop]
    rw [List.length_drop] at hj
    have hij := hsorted.rel_get_of_le (a := ⟨i, hi⟩) (b := ⟨i + j, by omega⟩) (Nat.le_add_right i j)
    simpa using le_trans hm hij
  have hsplit : (l.take i ++ l.drop i).countP (fun x => x < m) =
      (l.take i).countP (fun x => x < m) + (l.drop i).countP (fun x => x < m) :=
    List.countP_append
  rw [List.take_append_drop, hrest] at hsplit
  have htake := List.countP_le_length (p := fun x => decide (x < m)) (l := l.take i)
  rw [List.length_take] at htake
  omega

/-- Above an element of a sorted list there are only elements behind it. -/
theorem countP_gt_lt (hsorted : l.Pairwise (· ≤ ·)) {i : Nat} (hi : i < l.length)
    (hm : l[i] ≤ m) : l.countP (fun x => m < x) + i < l.length := by
  have hfront : (l.take (i + 1)).countP (fun x => m < x) = 0 := by
    rw [List.countP_eq_zero]
    intro x hx
    obtain ⟨j, hj, rfl⟩ := List.mem_iff_getElem.mp hx
    rw [List.getElem_take]
    rw [List.length_take] at hj
    have hle : j ≤ i := by omega
    have hij := hsorted.rel_get_of_le (a := ⟨j, by omega⟩) (b := ⟨i, hi⟩) hle
    simpa using le_trans hij hm
  have hsplit : (l.take (i + 1) ++ l.drop (i + 1)).countP (fun x => m < x) =
      (l.take (i + 1)).countP (fun x => m < x) + (l.drop (i + 1)).countP (fun x => m < x) :=
    List.countP_append
  rw [List.take_append_drop, hfront] at hsplit
  have hdrop := List.countP_le_length (p := fun x => decide (m < x)) (l := l.drop (i + 1))
  rw [List.length_drop] at hdrop
  omega

/-- A value between the two middle elements, which are one if the length is odd. -/
theorem isMedian_of_middle (hsorted : l.Pairwise (· ≤ ·)) (hpos : 0 < l.length)
    (hlo : l[(l.length - 1) / 2] ≤ m) (hhi : m ≤ l[l.length / 2]) : IsMedian m l := by
  have hbelow := countP_lt_le hsorted (by omega) hhi
  have habove := countP_gt_lt hsorted (by omega) hlo
  exact ⟨by omega, by omega⟩

end Oaat.Lib
