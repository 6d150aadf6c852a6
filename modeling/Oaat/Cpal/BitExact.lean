/-
Oaat.Cpal.BitExact — what `bit_perfect_path` promises.

The flag says that the device takes integers. Whether it gets the integers of
the stream is settled by another match, which sends what fits neither `f32` nor
`i32` through the closure for 16-bit rings. So the flag is right for every
device that takes one of the two, and for 16-bit streams.
-/
import Oaat.Cpal.Integrity
import Oaat.Endpoint.SampleConversion
import Mathlib.Data.Nat.Bitwise

namespace Oaat.Cpal

open Oaat.Core Oaat.Endpoint Oaat.Lib

/-- The integer PCM formats. -/
def IsIntegerPcm (format : AudioFormat) : Prop :=
  format = .pcmS16le ∨ format = .pcmS24le ∨ format = .pcmS24le4 ∨ format = .pcmS32le

/-- The bytes of one sample; 24 bits in four bytes are sign-extended. -/
def IsSample (format : AudioFormat) (b : List UInt8) : Prop :=
  b.length = sampleBytes format ∧
    (format = .pcmS24le4 → -2 ^ 23 ≤ fromLeBytes b ∧ fromLeBytes b < 2 ^ 23)

/-- The value of an integer device sample. -/
def deviceValue : DeviceSample → Option Int
  | .i16 v => some v
  | .i32 v => some v
  | .f32 _ => none

/-- At unity volume every sample of the ring keeps its value, up to one power of two. -/
def BitExact (fl : FloatSamples) (kind : OutKind) (format : AudioFormat) : Prop :=
  ∃ k : Nat, ∀ b, IsSample format b →
    deviceValue ((OutSample.sample b 1000).device fl kind (.ofFormat format)) =
      some (fromLeBytes b * 2 ^ k)

/-! ## The values of bytes -/

section

variable {b : List UInt8}

/-- Two's complement: below half of its range a number is itself. -/
theorem fromLeBytes_of_low (h : 2 * ofBe b.reverse < 2 ^ (8 * b.length)) :
    fromLeBytes b = ofBe b.reverse := by
  have hlow : (2 * ofBe b.reverse : Int) < (2 ^ (8 * b.length) : Nat) := by exact_mod_cast h
  exact Int.bmod_eq_of_le_mul_two (by omega) (by omega)

/-- In the upper half it is less by the whole range. -/
theorem fromLeBytes_of_high (h : 2 ^ (8 * b.length) ≤ 2 * ofBe b.reverse) :
    fromLeBytes b = ofBe b.reverse - 2 ^ (8 * b.length) := by
  have hlt := ofBe_lt b.reverse
  rw [List.length_reverse, show 256 = 2 ^ 8 from rfl, ← pow_mul] at hlt
  have hhigh : ((2 ^ (8 * b.length) : Nat) : Int) ≤ 2 * ofBe b.reverse := by exact_mod_cast h
  have hrange : (ofBe b.reverse : Int) < (2 ^ (8 * b.length) : Nat) := by exact_mod_cast hlt
  have hcast : ((2 ^ (8 * b.length) : Nat) : Int) = 2 ^ (8 * b.length) := by push_cast; rfl
  rw [fromLeBytes, ← Int.sub_mul_bmod_self_right _ 1, Int.one_mul,
    Int.bmod_eq_of_le_mul_two (by omega) (by omega), hcast]

/-- A sample is within its width. -/
theorem fromLeBytes_bounds (b : List UInt8) :
    -2 ^ (8 * b.length) ≤ 2 * fromLeBytes b ∧ 2 * fromLeBytes b < 2 ^ (8 * b.length) := by
  have hlt := ofBe_lt b.reverse
  rw [List.length_reverse, show 256 = 2 ^ 8 from rfl, ← pow_mul] at hlt
  have hrange : (ofBe b.reverse : Int) < 2 ^ (8 * b.length) := by exact_mod_cast hlt
  rcases Nat.lt_or_ge (2 * ofBe b.reverse) (2 ^ (8 * b.length)) with h | h
  · have hlow : (2 * ofBe b.reverse : Int) < 2 ^ (8 * b.length) := by exact_mod_cast h
    rw [fromLeBytes_of_low h]
    omega
  · have hhigh : (2 ^ (8 * b.length) : Int) ≤ 2 * ofBe b.reverse := by exact_mod_cast h
    rw [fromLeBytes_of_high h]
    omega

end

/-- Left-justifying by `k` bits loses nothing of a value that leaves so many free. -/
theorem shl_exact {v : Int} {k : Nat} (hk : k ≤ 31)
    (hlo : -2 ^ (31 - k) ≤ v) (hhi : v < 2 ^ (31 - k)) :
    (v * 2 ^ k).bmod (2 ^ 32) = v * 2 ^ k := by
  have hpow : (2 : Int) ^ (31 - k) * 2 ^ k = 2 ^ 31 := by
    rw [← pow_add, Nat.sub_add_cancel hk]
  have hpos : (0 : Int) < 2 ^ k := Int.pow_pos (by decide)
  have hlo' := Int.mul_le_mul_of_nonneg_right hlo hpos.le
  have hhi' := Int.mul_lt_mul_of_pos_right hhi hpos
  rw [Int.neg_mul, hpow] at hlo'
  rw [hpow] at hhi'
  exact Int.bmod_eq_of_le_mul_two (by omega) (by omega)

/-- The top bit of a byte. -/
theorem and_128_eq_zero_iff (c : UInt8) : c &&& 0x80 = 0 ↔ c.toNat < 128 := by
  have hc : c.toNat < 256 := c.toNat_lt
  rw [← UInt8.toNat_inj, UInt8.toNat_and]
  change c.toNat &&& 2 ^ 7 = 0 ↔ _
  rw [Nat.and_two_pow, Nat.testBit_eq_decide_div_mod_eq]
  by_cases h : c.toNat / 2 ^ 7 % 2 = 1
  · simp only [h, decide_true, Bool.toNat_true]
    omega
  · simp only [h, decide_false, Bool.toNat_false, Nat.zero_mul, true_iff]
    omega

/-- The sign byte leaves the value as it is. -/
theorem fromLeBytes_signByte (x y z : UInt8) :
    fromLeBytes [x, y, z, RingFormat.signByte [x, y, z]] = fromLeBytes [x, y, z] := by
  have hx := x.toNat_lt
  have hy := y.toNat_lt
  have hz := z.toNat_lt
  have hthree : ofBe [x, y, z].reverse = z.toNat * 65536 + (y.toNat * 256 + x.toNat) := by
    simp [ofBe]
  have hfour : ∀ t : UInt8, ofBe [x, y, z, t].reverse =
      t.toNat * 16777216 + (z.toNat * 65536 + (y.toNat * 256 + x.toNat)) := by
    intro t
    simp [ofBe]
  by_cases h : z &&& 0x80 = 0
  · have hsign : RingFormat.signByte [x, y, z] = 0 := if_neg (not_not.mpr h)
    rw [and_128_eq_zero_iff] at h
    rw [hsign, fromLeBytes_of_low (by rw [hfour]; change 2 * (0 * _ + _) < 2 ^ 32; omega),
      fromLeBytes_of_low (by rw [hthree]; change _ < 2 ^ 24; omega), hfour, hthree]
    simp
  · have hsign : RingFormat.signByte [x, y, z] = 0xFF := if_pos h
    rw [and_128_eq_zero_iff] at h
    rw [hsign, fromLeBytes_of_high (by rw [hfour]; change 2 ^ 32 ≤ 2 * (255 * _ + _); omega),
      fromLeBytes_of_high (by rw [hthree]; change 2 ^ 24 ≤ _; omega), hfour, hthree]
    change (((255 * 16777216 + _ : Nat) : Int) - 2 ^ 32) = _ - 2 ^ 24
    omega

/-! ## The closures at unity volume -/

section

variable (fl : FloatSamples) {b : List UInt8}

theorem convert_i16 (ring : RingFormat) (b : List UInt8) :
    convert fl .i16 ring b 1000 = .i16 (fromLeBytes [b.getD 0 0, b.getD 1 0]) := by
  simp only [convert, if_pos]

theorem convert_i32 (ring : RingFormat) (b : List UInt8) :
    convert fl .i32 ring b 1000 = .i32 (ring.toI32 fl b) := by
  simp only [convert, if_pos]

theorem toI32_s16 (hb : b.length = 2) : RingFormat.s16.toI32 fl b = fromLeBytes b * 2 ^ 16 := by
  obtain ⟨x, y, rfl⟩ := List.length_eq_two.mp hb
  obtain ⟨hlo, hhi⟩ := fromLeBytes_bounds [x, y]
  simp only [List.length_cons, List.length_nil] at hlo hhi
  change (fromLeBytes [x, y] * 2 ^ 16).bmod (2 ^ 32) = _
  exact shl_exact (by decide) (by omega) (by omega)

theorem toI32_s24 (hb : b.length = 3) : RingFormat.s24.toI32 fl b = fromLeBytes b * 2 ^ 8 := by
  obtain ⟨x, y, z, rfl⟩ := List.length_eq_three.mp hb
  obtain ⟨hlo, hhi⟩ := fromLeBytes_bounds [x, y, z]
  simp only [List.length_cons, List.length_nil] at hlo hhi
  change (fromLeBytes [x, y, z, RingFormat.signByte [x, y, z]] * 2 ^ 8).bmod (2 ^ 32) = _
  rw [fromLeBytes_signByte]
  exact shl_exact (by decide) (by omega) (by omega)

/-- The four bytes of a sample are read as they are. -/
theorem word_eq (hb : b.length = 4) : [b.getD 0 0, b.getD 1 0, b.getD 2 0, b.getD 3 0] = b := by
  obtain ⟨w, rest, rfl⟩ := List.exists_cons_of_length_eq_add_one hb
  obtain ⟨x, y, z, rfl⟩ := List.length_eq_three.mp (Nat.succ.inj hb)
  rfl

theorem toI32_s24In32 (hb : b.length = 4) (hlo : -2 ^ 23 ≤ fromLeBytes b)
    (hhi : fromLeBytes b < 2 ^ 23) : RingFormat.s24In32.toI32 fl b = fromLeBytes b * 2 ^ 8 := by
  rw [RingFormat.toI32, word_eq hb]
  exact shl_exact (by decide) hlo hhi

theorem toI32_s32 (hb : b.length = 4) : RingFormat.s32.toI32 fl b = fromLeBytes b * 2 ^ 0 := by
  rw [RingFormat.toI32, word_eq hb, Int.pow_zero, Int.mul_one]

end

/-! ## The paths -/

section

variable {fl : FloatSamples} {format : AudioFormat}

theorem bitExact_s16 : BitExact fl .i16 .pcmS16le := by
  refine ⟨0, ?_⟩
  rintro b ⟨hb, -⟩
  obtain ⟨x, y, rfl⟩ := List.length_eq_two.mp hb
  rw [OutSample.device, convert_i16, Int.pow_zero, Int.mul_one]
  rfl

/-- An `i32` device takes every integer format. -/
theorem bitExact_i32 (hint : IsIntegerPcm format) : BitExact fl .i32 format := by
  rcases hint with rfl | rfl | rfl | rfl
  · refine ⟨16, ?_⟩
    rintro b ⟨hb, -⟩
    rw [OutSample.device, convert_i32]
    exact congrArg some (toI32_s16 fl hb)
  · refine ⟨8, ?_⟩
    rintro b ⟨hb, -⟩
    rw [OutSample.device, convert_i32]
    exact congrArg some (toI32_s24 fl hb)
  · refine ⟨8, ?_⟩
    rintro b ⟨hb, hrange⟩
    rw [OutSample.device, convert_i32]
    exact congrArg some (toI32_s24In32 fl hb (hrange rfl).1 (hrange rfl).2)
  · refine ⟨0, ?_⟩
    rintro b ⟨hb, -⟩
    rw [OutSample.device, convert_i32]
    exact congrArg some (toI32_s32 fl hb)

/-- The path for 16-bit rings makes silence of a sample whose low bytes are zero. -/
theorem not_bitExact_i16 {b : List UInt8} (hb : IsSample format b)
    (hlow : [b.getD 0 0, b.getD 1 0] = [0, 0]) (hpos : 0 < fromLeBytes b) :
    ¬ BitExact fl .i16 format := by
  rintro ⟨k, hk⟩
  have hzero := hk b hb
  rw [OutSample.device, convert_i16, hlow] at hzero
  have hprod : 0 < fromLeBytes b * 2 ^ k := Int.mul_pos hpos (Int.pow_pos (by decide))
  have hsilent : fromLeBytes [0, 0] = fromLeBytes b * 2 ^ k := Option.some.inj hzero
  rw [← hsilent] at hprod
  exact absurd hprod (by decide)

theorem bitExact_i16_iff (hint : IsIntegerPcm format) :
    BitExact fl .i16 format ↔ format = .pcmS16le := by
  rcases hint with rfl | rfl | rfl | rfl
  · exact iff_of_true bitExact_s16 rfl
  · refine iff_of_false ?_ nofun
    exact not_bitExact_i16 (b := [0, 0, 1]) ⟨rfl, nofun⟩ rfl (by decide)
  · refine iff_of_false ?_ nofun
    exact not_bitExact_i16 (b := [0, 0, 1, 0]) ⟨rfl, fun _ => by decide⟩ rfl (by decide)
  · refine iff_of_false ?_ nofun
    exact not_bitExact_i16 (b := [0, 0, 1, 0]) ⟨rfl, nofun⟩ rfl (by decide)

/-- Of the integer formats only 16 bits have the 16-bit ring, and none has floats. -/
theorem ringFormat_eq_s16_iff (hint : IsIntegerPcm format) :
    RingFormat.ofFormat format = .s16 ↔ format = .pcmS16le := by
  rcases hint with rfl | rfl | rfl | rfl <;> decide

theorem ringFormat_ne_f32 (hint : IsIntegerPcm format) : RingFormat.ofFormat format ≠ .f32 := by
  rcases hint with rfl | rfl | rfl | rfl <;> decide

/-- A wider ring takes the path for 16 bits when the device has nothing else. -/
theorem outKind_eq_i16 {ring : RingFormat} (hring : ring ≠ .f32) (hs16 : ring ≠ .s16)
    (support : DeviceSampleSupport) :
    outKind ring support = .i16 ↔ support.f32 = false ∧ support.i32 = false := by
  obtain ⟨f32, i16, i32⟩ := support
  cases f32 <;> cases i32 <;> simp [outKind, hring, hs16]

/-- The flag is right unless a wider ring takes the path for 16 bits. -/
theorem bitPerfect_exact (hint : IsIntegerPcm format) (kind : OutKind) :
    ((kind ≠ .f32 || RingFormat.ofFormat format = .f32) = true → BitExact fl kind format) ↔
      (kind = .i16 → format = .pcmS16le) := by
  have hring := ringFormat_ne_f32 hint
  cases kind with
  | i16 => simp [bitExact_i16_iff hint]
  | i32 => simp [bitExact_i32 hint]
  | f32 => simp [hring]

end

/-- **The bit-perfect path.** Take an output that was configured for an integer PCM
format, on any device. If it reports a bit-perfect path, then at unity volume its
callback keeps the value of every sample up to one power of two: this holds if and
only if the format has 16 bits or the device takes `f32` or `i32`. -/
theorem bitPerfectPath_exact_iff {fl : FloatSamples} {format : AudioFormat} {sampleRate : UInt32}
    {channels : UInt8} {opening : Opening} {name : String} {support : DeviceSampleSupport}
    {o₀ o : CpalOutput} (hint : IsIntegerPcm format)
    (hdevice : opening.device = .ok (name, support))
    (hconf : o₀.configure format sampleRate channels opening = (o, .ok ())) :
    ∃ st, o.stream = some st ∧ o.ringFormat = .ofFormat format ∧
      ((o.bitPerfect = true → BitExact fl st.outKind format) ↔
        format = .pcmS16le ∨ support.f32 = true ∨ support.i32 = true) := by
  unfold CpalOutput.configure at hconf
  cases hbuild : opening.build with
  | error e => simp [hdevice, hbuild] at hconf
  | ok u =>
    simp only [hdevice, hbuild, Prod.mk.injEq, and_true] at hconf
    subst hconf
    refine ⟨_, rfl, rfl, (bitPerfect_exact hint _).trans ?_⟩
    by_cases hs16 : format = .pcmS16le
    · simp [hs16]
    · have hwider : RingFormat.ofFormat format ≠ .s16 := fun h =>
        hs16 ((ringFormat_eq_s16_iff hint).mp h)
      rw [outKind_eq_i16 (ringFormat_ne_f32 hint) hwider]
      simp only [hs16, imp_false, false_or, not_and_or, Bool.not_eq_false]

/-- A device that takes samples of one type. -/
def only (support : DeviceSampleSupport) : Opening :=
  { device := .ok ("only", support), build := .ok () }

/-- No sample of the examples is a float. -/
def noFloats : FloatSamples :=
  { toI32 := fun _ => 0, normalize := fun _ _ => 0, attenuate := fun bits _ => bits }

/-- 24 bits on a device for 32-bit integers. -/
theorem bitPerfectPath_exact_iff_wideDevice :
    ∃ o st, CpalOutput.new.configure .pcmS24le 96000 2
        (only { f32 := false, i16 := false, i32 := true }) = (o, .ok ()) ∧
      o.stream = some st ∧ o.bitPerfect = true ∧ BitExact noFloats st.outKind .pcmS24le := by
  have hint : IsIntegerPcm .pcmS24le := .inr (.inl rfl)
  have hdevice : (only { f32 := false, i16 := false, i32 := true }).device = .ok (_, _) := rfl
  have hconf : CpalOutput.new.configure .pcmS24le 96000 2
      (only { f32 := false, i16 := false, i32 := true }) = (_, .ok ()) := rfl
  obtain ⟨st, hst, -, hiff⟩ :=
    @bitPerfectPath_exact_iff noFloats _ _ _ _ _ _ _ _ hint hdevice hconf
  exact ⟨_, st, hconf, hst, rfl, hiff.mpr (.inr (.inr rfl)) rfl⟩

/-- 24 bits on a device for 16-bit integers: the path is reported as bit-perfect, and
a sample of 65536 is silence. -/
theorem narrowDevice_not_exact :
    ∃ o st, CpalOutput.new.configure .pcmS24le 96000 2
        (only { f32 := false, i16 := true, i32 := false }) = (o, .ok ()) ∧
      o.stream = some st ∧ o.bitPerfect = true ∧
      fromLeBytes [0, 0, 1] = 65536 ∧
      (OutSample.sample [0, 0, 1] 1000).device noFloats st.outKind o.ringFormat = .i16 0 ∧
      ¬ BitExact noFloats st.outKind .pcmS24le :=
  ⟨_, _, rfl, rfl, rfl, by decide, by decide,
    not_bitExact_i16 (b := [0, 0, 1]) ⟨rfl, nofun⟩ rfl (by decide)⟩

end Oaat.Cpal
