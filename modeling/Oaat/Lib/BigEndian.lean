/-
Oaat.Lib.BigEndian — fixed-width big-endian byte strings.

`toBe w n` writes the low `8 * w` bits of `n` as `w` bytes, most significant
byte first; `ofBe` reads any byte string back as a number. The two facts a
wire format needs are here: reading back what was written gives the number
modulo `256 ^ w` (`ofBe_toBe`), and writing back what was read gives the very
bytes (`toBe_ofBe`).
-/
import Mathlib.Algebra.Order.Ring.Nat
import Mathlib.Tactic.Ring

namespace Oaat.Lib

/-- The `w` low bytes of `n`, most significant first. -/
def toBe : Nat → Nat → List UInt8
  | 0, _ => []
  | w + 1, n => UInt8.ofNat (n / 256 ^ w) :: toBe w n

/-- The number a big-endian byte string denotes. -/
def ofBe : List UInt8 → Nat
  | [] => 0
  | b :: bs => b.toNat * 256 ^ bs.length + ofBe bs

@[simp] theorem length_toBe (w n : Nat) : (toBe w n).length = w := by
  induction w with
  | zero => rfl
  | succ w ih => simp [toBe, ih]

theorem ofBe_toBe (w n : Nat) : ofBe (toBe w n) = n % 256 ^ w := by
  induction w with
  | zero => simp [toBe, ofBe, Nat.mod_one]
  | succ w ih =>
    have hb : (UInt8.ofNat (n / 256 ^ w)).toNat = n / 256 ^ w % 256 := by
      simp
    rw [toBe, ofBe, ih, hb, length_toBe, pow_succ, Nat.mod_mul]
    ring

theorem ofBe_toBe_of_lt {w n : Nat} (h : n < 256 ^ w) : ofBe (toBe w n) = n := by
  rw [ofBe_toBe, Nat.mod_eq_of_lt h]

theorem ofBe_lt (bs : List UInt8) : ofBe bs < 256 ^ bs.length := by
  induction bs with
  | nil => simp [ofBe]
  | cons b bs ih =>
    have hb : b.toNat + 1 ≤ 256 := b.toNat_lt
    calc ofBe (b :: bs) < b.toNat * 256 ^ bs.length + 256 ^ bs.length := by
          rw [ofBe]; omega
      _ = (b.toNat + 1) * 256 ^ bs.length := by ring
      _ ≤ 256 * 256 ^ bs.length := Nat.mul_le_mul_right _ hb
      _ = 256 ^ (b :: bs).length := by rw [List.length_cons, pow_succ]; ring

/-- The low bytes of a number do not see its higher part. -/
theorem toBe_add_mul (w n k : Nat) : toBe w (k * 256 ^ w + n) = toBe w n := by
  induction w generalizing k with
  | zero => rfl
  | succ w ih =>
    have hsplit : k * 256 ^ (w + 1) + n = (k * 256) * 256 ^ w + n := by ring
    have hpos : 0 < 256 ^ w := Nat.pow_pos (by norm_num)
    rw [toBe, toBe, hsplit, ih (k * 256)]
    congr 1
    rw [Nat.mul_comm (k * 256), Nat.mul_add_div hpos]
    apply UInt8.toNat_inj.mp
    simp

theorem toBe_ofBe (bs : List UInt8) : toBe bs.length (ofBe bs) = bs := by
  induction bs with
  | nil => rfl
  | cons b bs ih =>
    have hpos : 0 < 256 ^ bs.length := Nat.pow_pos (by norm_num)
    have htop : ofBe (b :: bs) / 256 ^ bs.length = b.toNat := by
      rw [ofBe, Nat.mul_comm, Nat.mul_add_div hpos, Nat.div_eq_of_lt (ofBe_lt bs), Nat.add_zero]
    have hlow : toBe bs.length (ofBe (b :: bs)) = bs := by
      rw [ofBe, toBe_add_mul, ih]
    rw [List.length_cons, toBe, htop, hlow, UInt8.ofNat_toNat]

end Oaat.Lib
