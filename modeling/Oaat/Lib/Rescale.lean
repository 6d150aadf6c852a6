/-
Oaat.Lib.Rescale — a range of integers put onto another, with rounding.

`rescale n m` takes 0..n to 0..m by the nearest multiple. It is monotone and
keeps the ends, and on a target at least as wide as the source nothing is lost:
`rescale m n`, the same function with the ranges exchanged, brings every value
back. The two roundings can never add up to a whole step of the wider range.
-/
import Mathlib.Tactic.Ring

namespace Oaat.Lib

/-- `x`, a value of 0..n, on the scale 0..m. -/
def rescale (n m x : Nat) : Nat := (x * m + n / 2) / n

@[simp] theorem rescale_zero (m n : Nat) : rescale n m 0 = 0 := by
  cases n with
  | zero => simp [rescale]
  | succ n => simp [rescale]; omega

theorem rescale_self (m : Nat) {n : Nat} (hn : 0 < n) : rescale n m n = m := by
  rw [rescale, Nat.mul_add_div hn, Nat.div_eq_of_lt (by omega), Nat.add_zero]

theorem rescale_mono (n m : Nat) {x y : Nat} (h : x ≤ y) : rescale n m x ≤ rescale n m y := by
  unfold rescale
  gcongr

theorem rescale_le {n m x : Nat} (hn : 0 < n) (h : x ≤ n) : rescale n m x ≤ m :=
  (rescale_mono n m h).trans (rescale_self m hn).le

/-- The image is within half a step of the exact value. -/
theorem rescale_near (m x : Nat) {n : Nat} (hn : 0 < n) :
    x * m + n / 2 < n * rescale n m x + n ∧ n * rescale n m x ≤ x * m + n / 2 := by
  have hdiv := Nat.div_add_mod (x * m + n / 2) n
  have hmod := Nat.mod_lt (x * m + n / 2) hn
  rw [rescale]
  omega

/-- Onto a range at least as wide and back. -/
theorem rescale_rescale (x : Nat) {n m : Nat} (hn : 0 < n) (hnm : n ≤ m) :
    rescale m n (rescale n m x) = x := by
  obtain rfl | hlt := hnm.eq_or_lt
  -- equal ranges: both directions are the identity
  · have hid : rescale n n x = x := by
      rw [rescale, Nat.mul_comm, Nat.mul_add_div hn, Nat.div_eq_of_lt (by omega), Nat.add_zero]
    rw [hid, hid]
  · obtain ⟨hlo, hhi⟩ := rescale_near m x hn
    have hswap : rescale n m x * n = n * rescale n m x := Nat.mul_comm _ _
    have hstep : (x + 1) * m = x * m + m := by ring
    -- the two half steps together are less than one step of the wider range
    exact Nat.div_eq_of_lt_le (by omega) (by omega)

end Oaat.Lib
