/-
Oaat.Lib.Mask — which elements of a list are kept.

A mask says so position by position, where the list that is left does not: equal
elements look the same whichever of them was left out.
-/
import Mathlib.Data.List.Basic

namespace Oaat.Lib

variable {α : Type}

/-- The elements that the mask keeps. -/
def select (mask : List Bool) (xs : List α) : List α :=
  ((mask.zip xs).filter Prod.fst).map Prod.snd

theorem select_append {mask mask' : List Bool} {xs xs' : List α}
    (h : mask.length = xs.length) :
    select (mask ++ mask') (xs ++ xs') = select mask xs ++ select mask' xs' := by
  simp [select, List.zip_append h]

theorem select_replicate_true (xs : List α) : select (List.replicate xs.length true) xs = xs := by
  induction xs with
  | nil => rfl
  | cons x xs ih =>
    rw [List.length_cons, List.replicate_succ]
    change x :: select (List.replicate xs.length true) xs = x :: xs
    rw [ih]

theorem select_replicate_false (n : Nat) (xs : List α) :
    select (List.replicate n false) xs = [] := by
  induction n generalizing xs with
  | zero => rfl
  | succ n ih =>
    cases xs with
    | nil => rfl
    | cons x xs => exact ih xs

/-- The first `d` of so many positions are left out. -/
def tailMask (d n : Nat) : List Bool := List.replicate d false ++ List.replicate (n - d) true

@[simp] theorem length_tailMask {d n : Nat} (h : d ≤ n) : (tailMask d n).length = n := by
  rw [tailMask, List.length_append, List.length_replicate, List.length_replicate]
  omega

theorem select_tailMask {d : Nat} {xs : List α} (h : d ≤ xs.length) :
    select (tailMask d xs.length) xs = xs.drop d := by
  have htake : (xs.take d).length = d := List.length_take_of_le h
  calc select (tailMask d xs.length) xs
      = select (tailMask d xs.length) (xs.take d ++ xs.drop d) := by rw [List.take_append_drop]
    _ = xs.drop d := by
        rw [tailMask, select_append (by rw [List.length_replicate, htake]), select_replicate_false,
          ← List.length_drop, select_replicate_true, List.nil_append]

/-- Position `i` is kept exactly from `c` on. -/
def KeepsFrom (c : Nat) (mask : List Bool) : Prop :=
  ∀ i (h : i < mask.length), mask[i] = decide (c ≤ i)

theorem keepsFrom_nil (c : Nat) : KeepsFrom c [] := nofun

theorem keepsFrom_tailMask (d n : Nat) : KeepsFrom d (tailMask d n) := by
  unfold tailMask
  intro i hi
  by_cases h : i < d
  · rw [List.getElem_append_left (by rwa [List.length_replicate]), List.getElem_replicate]
    exact (decide_eq_false (by omega)).symm
  · rw [List.getElem_append_right (by rw [List.length_replicate]; omega), List.getElem_replicate]
    exact (decide_eq_true (by omega)).symm

theorem KeepsFrom.of_append {c : Nat} {mask mask' : List Bool} (h : KeepsFrom c (mask ++ mask')) :
    KeepsFrom c mask := by
  intro i hi
  have happ : i < (mask ++ mask').length := by
    rw [List.length_append]
    omega
  rw [← h i happ, List.getElem_append_left hi]

/-- A tail after a mask fits it exactly if it leaves out what the mask left to
leave out. -/
theorem keepsFrom_append_tailMask {c d n : Nat} {mask : List Bool} (hd : d ≤ n) :
    KeepsFrom c (mask ++ tailMask d n) ↔
      KeepsFrom c mask ∧ d = min (c - mask.length) n := by
  have hlen : (mask ++ tailMask d n).length = mask.length + n := by
    rw [List.length_append, length_tailMask hd]
  have htail : ∀ j, j < n → ∀ h : mask.length + j < (mask ++ tailMask d n).length,
      (mask ++ tailMask d n)[mask.length + j] = decide (d ≤ j) := by
    intro j hj h
    rw [List.getElem_append_right (by omega)]
    simp only [Nat.add_sub_cancel_left]
    exact keepsFrom_tailMask d n j (by rwa [length_tailMask hd])
  constructor
  · intro h
    refine ⟨h.of_append, ?_⟩
    by_contra hne
    rcases Nat.lt_or_gt_of_ne hne with hlt | hgt
    · -- the first position kept
      have hkept := h (mask.length + d) (by omega)
      rw [htail d (by omega), decide_eq_true (Nat.le_refl d), eq_comm, decide_eq_true_eq] at hkept
      omega
    · -- the last one left out
      have hout := h (mask.length + (d - 1)) (by omega)
      rw [htail (d - 1) (by omega), decide_eq_false (by omega), eq_comm,
        decide_eq_false_iff_not] at hout
      omega
  · rintro ⟨h, rfl⟩ i hi
    by_cases hin : i < mask.length
    · rw [List.getElem_append_left hin, h i hin]
    · obtain ⟨j, rfl⟩ := Nat.exists_eq_add_of_le (Nat.le_of_not_lt hin)
      rw [htail j (by omega) hi, decide_eq_decide]
      omega

end Oaat.Lib
