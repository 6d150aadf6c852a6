/-
Oaat.Alsa.Padding — both outputs render 24-bit audio alike.

The ALSA path puts a zero byte in front of the three of a sample; the cpal path
extends its sign and shifts. The word read from the padded bytes is the sample
times 2^8 (`fromLeBytes_zero_cons`), which is what the shift gives, and bytes
are determined by the word they spell.
-/
import Oaat.Endpoint.AlsaOutput
import Oaat.Cpal.BitExact

namespace Oaat.Alsa

open Oaat.Core Oaat.Endpoint Oaat.Lib Oaat.Cpal

/-- The `w` bytes of a signed integer, as `i32::to_le_bytes` gives them for four. -/
def toLeBytes (w : Nat) (v : Int) : List UInt8 := (toBe w (v % (256 ^ w : Nat)).toNat).reverse

/-- Bytes are read and written back. -/
theorem toLeBytes_fromLeBytes (b : List UInt8) : toLeBytes b.length (fromLeBytes b) = b := by
  have hlt := ofBe_lt b.reverse
  rw [List.length_reverse] at hlt
  have hmod : fromLeBytes b % (256 ^ b.length : Nat) = ofBe b.reverse := by
    rw [fromLeBytes, pow_mul, show 2 ^ 8 = 256 from rfl, Int.bmod_emod]
    exact Int.emod_eq_of_lt (by omega) (by exact_mod_cast hlt)
  have hbe := toBe_ofBe b.reverse
  rw [List.length_reverse] at hbe
  rw [toLeBytes, hmod, Int.toNat_natCast, hbe, List.reverse_reverse]

theorem ofBe_concat_zero (bs : List UInt8) : ofBe (bs ++ [0]) = ofBe bs * 256 := by
  induction bs with
  | nil => rfl
  | cons b bs ih =>
    rw [List.cons_append, ofBe, ih, ofBe, List.length_append, List.length_singleton, pow_succ]
    ring

/-- A zero byte below the others shifts the value by one byte. -/
theorem fromLeBytes_zero_cons (b : List UInt8) :
    fromLeBytes (0 :: b) = fromLeBytes b * 2 ^ 8 := by
  have hpow : 2 ^ (8 * (0 :: b).length) = 2 ^ (8 * b.length) * 256 := by
    rw [List.length_cons, Nat.mul_succ, pow_add, show 2 ^ 8 = 256 from rfl]
  have hval : ofBe (0 :: b).reverse = ofBe b.reverse * 256 := by
    rw [List.reverse_cons, ofBe_concat_zero]
  rcases Nat.lt_or_ge (2 * ofBe b.reverse) (2 ^ (8 * b.length)) with h | h
  · rw [fromLeBytes_of_low h, fromLeBytes_of_low (by rw [hval, hpow]; omega), hval]
    push_cast
    ring
  · rw [fromLeBytes_of_high h, fromLeBytes_of_high (by rw [hval, hpow]; omega), hval]
    have hcast : (2 : Int) ^ (8 * (0 :: b).length) = 2 ^ (8 * b.length) * 256 := by
      exact_mod_cast hpow
    rw [hcast]
    push_cast
    ring

/-- A padded sample is the word that the cpal path computes. -/
theorem toLeBytes_toI32 (fl : FloatSamples) {b : List UInt8} (hb : b.length = 3) :
    toLeBytes 4 (RingFormat.s24.toI32 fl b) = 0 :: b := by
  have hword := toLeBytes_fromLeBytes (0 :: b)
  rw [List.length_cons, hb] at hword
  rw [toI32_s24 fl hb, ← fromLeBytes_zero_cons, hword]

/-- The samples come out of the padded bytes again. -/
theorem frames_padS24ToS32 (data : List UInt8) :
    frames 4 (padS24ToS32 data) = (frames 3 data).map (0 :: ·) := by
  refine frames_flatMap (by decide) fun b hb => ?_
  rw [List.length_cons, length_of_mem_frames hb]

/-- **Both outputs render 24-bit audio identically**: the padded bytes are those
of the words of the cpal path, and each word holds its sample in the upper bits. -/
theorem padS24ToS32_eq_toI32 (fl : FloatSamples) (data : List UInt8) :
    padS24ToS32 data =
        (frames 3 data).flatMap (fun b => toLeBytes 4 (RingFormat.s24.toI32 fl b)) ∧
      (frames 4 (padS24ToS32 data)).map (fun word => fromLeBytes word >>> (8 : Nat)) =
        (frames 3 data).map fromLeBytes := by
  constructor
  · refine List.flatMap_congr fun b hb => ?_
    exact (toLeBytes_toI32 fl (length_of_mem_frames hb)).symm
  · rw [frames_padS24ToS32, List.map_map]
    refine List.map_congr_left fun b _ => ?_
    change fromLeBytes (0 :: b) >>> (8 : Nat) = fromLeBytes b
    rw [fromLeBytes_zero_cons, Int.shiftRight_eq_div_pow]
    exact Int.mul_ediv_cancel _ (by decide)

end Oaat.Alsa
