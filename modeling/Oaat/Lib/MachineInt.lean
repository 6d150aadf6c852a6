/-
Oaat.Lib.MachineInt — checked and wrapping machine arithmetic.

A Rust integer operation has one meaning while its exact result fits its
type and two when it does not: the `debug` profile (overflow checks on)
panics, the `release` profile wraps in two's complement. Both are modelled by
one function of the build and of the EXACT result, so that a program is
translated once and read under either profile. `Panic` names the reasons an
execution stops; it is shared by everything that can index or unwrap.
-/
import Mathlib.Algebra.Order.Ring.Int

namespace Oaat.Lib

/-- Why an execution stops instead of returning. -/
inductive Panic where
  | indexOutOfBounds
  | expectFailed
  | overflow
  | divisionByZero
  deriving Repr, DecidableEq

/-- The cargo profile, for what it says about integer overflow. -/
inductive Build where
  | debug
  | release
  deriving Repr, DecidableEq

/-- The values of a signed 64-bit integer. -/
def InI64 (v : Int) : Prop := -2 ^ 63 ≤ v ∧ v < 2 ^ 63

instance (v : Int) : Decidable (InI64 v) := inferInstanceAs (Decidable (_ ∧ _))

/-- An `i64` operation whose exact result is `v`. -/
def Build.i64 (b : Build) (v : Int) : Except Panic Int :=
  if InI64 v then .ok v
  else match b with
    | .debug => .error .overflow
    | .release => .ok (v.bmod (2 ^ 64))

/-- A `u64` operation whose exact result is the natural number `n`. -/
def Build.u64 (b : Build) (n : Nat) : Except Panic Nat :=
  if n < 2 ^ 64 then .ok n
  else match b with
    | .debug => .error .overflow
    | .release => .ok (n % 2 ^ 64)

/-- The values of a signed 8-bit integer. -/
def InI8 (v : Int) : Prop := -2 ^ 7 ≤ v ∧ v < 2 ^ 7

instance (v : Int) : Decidable (InI8 v) := inferInstanceAs (Decidable (_ ∧ _))

/-- An `i8` operation whose exact result is `v`. -/
def Build.i8 (b : Build) (v : Int) : Except Panic Int8 :=
  if InI8 v then .ok (.ofInt v)
  else match b with
    | .debug => .error .overflow
    | .release => .ok (.ofInt (v.bmod (2 ^ 8)))

/-- The values of a signed 32-bit integer. -/
def InI32 (v : Int) : Prop := -2 ^ 31 ≤ v ∧ v < 2 ^ 31

instance (v : Int) : Decidable (InI32 v) := inferInstanceAs (Decidable (_ ∧ _))

/-- An `i32` operation whose exact result is `v`. -/
def Build.i32 (b : Build) (v : Int) : Except Panic Int32 :=
  if InI32 v then .ok (.ofInt v)
  else match b with
    | .debug => .error .overflow
    | .release => .ok (.ofInt (v.bmod (2 ^ 32)))

/-- The cast `u64 as i64`: the same 64 bits, read as two's complement. -/
def asI64 (x : UInt64) : Int := (x.toNat : Int).bmod (2 ^ 64)

/-- The cast `i64 as u64` of a value already clamped to be non-negative. -/
def asU64 (v : Int) : UInt64 := UInt64.ofNat v.toNat

/-- A value wrapped to 64 bits is in range, and a multiple of 2^64 away. -/
theorem wrap64 (x : Int) :
    ∃ k : Int, x.bmod (2 ^ 64) = x + k * 2 ^ 64 ∧ -2 ^ 63 ≤ x.bmod (2 ^ 64) ∧
      x.bmod (2 ^ 64) < 2 ^ 63 := by
  have hcast : ((2 ^ 64 : Nat) : Int) = 18446744073709551616 := rfl
  obtain ⟨hlo, hhi, k, hk⟩ := (Int.bmod_eq_iff (a := x) (b := 2 ^ 64) (Nat.two_pow_pos 64)).mp rfl
  rw [hcast] at hlo hhi hk
  exact ⟨k, by omega, by omega, by omega⟩

theorem Build.i64_of_fits {v : Int} (b : Build) (h : InI64 v) : b.i64 v = .ok v := by
  simp [Build.i64, h]

theorem Build.i8_of_fits {v : Int} (b : Build) (h : InI8 v) : b.i8 v = .ok (.ofInt v) := by
  simp [Build.i8, h]

theorem Build.i32_of_fits {v : Int} (b : Build) (h : InI32 v) : b.i32 v = .ok (.ofInt v) := by
  simp [Build.i32, h]

theorem Build.u64_of_fits {n : Nat} (b : Build) (h : n < 2 ^ 64) : b.u64 n = .ok n := by
  unfold Build.u64
  exact if_pos h

/-- With overflow checks an operation returns exactly when its result fits. -/
theorem Build.debug_i64_ok {v w : Int} :
    Build.debug.i64 v = .ok w ↔ InI64 v ∧ w = v := by
  by_cases h : InI64 v
  · simp [Build.i64, h, eq_comm]
  · simp [Build.i64, h]

theorem Build.debug_u64_ok {n m : Nat} :
    Build.debug.u64 n = .ok m ↔ n < 2 ^ 64 ∧ m = n := by
  by_cases h : n < 2 ^ 64
  · rw [Build.u64_of_fits _ h]
    simp only [Except.ok.injEq, h, true_and, eq_comm]
  · rw [Build.u64, if_neg h]
    simp only [reduceCtorEq, h, false_and]

/-- What an operation returns is no more than its exact result. -/
theorem Build.u64_le {b : Build} {n m : Nat} (h : b.u64 n = .ok m) : m ≤ n := by
  unfold Build.u64 at h
  split at h
  · exact Nat.le_of_eq (Except.ok.inj h).symm
  · cases b with
    | debug => cases h
    | release => exact Except.ok.inj h ▸ Nat.mod_le n _

/-- Without overflow checks an operation always returns. -/
theorem Build.release_i64_ok (v : Int) : ∃ w, Build.release.i64 v = .ok w := by
  by_cases h : InI64 v
  · exact ⟨v, Build.i64_of_fits _ h⟩
  · exact ⟨v.bmod (2 ^ 64), by simp [Build.i64, h]⟩

theorem Build.release_u64_ok (n : Nat) : ∃ m, Build.release.u64 n = .ok m := by
  by_cases h : n < 2 ^ 64
  · exact ⟨n, Build.u64_of_fits _ h⟩
  · exact ⟨n % 2 ^ 64, by rw [Build.u64, if_neg h]⟩

end Oaat.Lib
