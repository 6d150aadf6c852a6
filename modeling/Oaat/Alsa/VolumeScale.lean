/-
Oaat.Alsa.VolumeScale — the hardware volume scale loses no level.

Over a control with a hundred raw steps or more, and few enough for `i32`,
both functions are the rounding of `Oaat.Lib.Rescale`, one from 0..100 to the
raw steps and the other back; no operation overflows, so the two cargo
profiles agree.
-/
import Oaat.Endpoint.AlsaMixer
import Oaat.Lib.Rescale

namespace Oaat.Alsa

open Oaat.Lib Oaat.Endpoint

/-- The control `[min, max]` has `span` raw steps: a hundred or more, and few
enough that a level times the span fits with its rounding. -/
structure Steps (min max : Int32) (span : Nat) : Prop where
  span_eq : max.toInt - min.toInt = span
  wide : 100 ≤ span
  fits : 101 * span ≤ 2 ^ 31 - 1

theorem inI32_ofNat {n : Nat} (h : n ≤ 2 ^ 31 - 1) : InI32 n := by
  unfold InI32
  omega

/-- An operation on values that fit, with a result that does: its exact value. -/
theorem i32_ofNat (b : Build) {n : Nat} {v : Int} (h : n ≤ 2 ^ 31 - 1) (hv : v = n) :
    ∃ x : Int32, b.i32 v = .ok x ∧ x.toInt = n := by
  have hn := inI32_ofNat h
  refine ⟨.ofInt n, ?_, Int32.toInt_ofInt_of_le hn.1 hn.2⟩
  rw [hv]
  exact Build.i32_of_fits b hn

namespace Steps

variable {min max : Int32} {span : Nat}

/-- Every raw step of the control is an `i32`. -/
theorem raw_fits (h : Steps min max span) {k : Nat} (hk : k ≤ span) :
    InI32 (min.toInt + k) := by
  have hlo := Int32.le_toInt min
  have hhi := Int32.toInt_lt max
  have hspan := h.span_eq
  unfold InI32
  omega

theorem toInt_raw (h : Steps min max span) {k : Nat} (hk : k ≤ span) :
    (Int32.ofInt (min.toInt + k)).toInt = min.toInt + k :=
  Int32.toInt_ofInt_of_le (h.raw_fits hk).1 (h.raw_fits hk).2

/-- A level is put `rescale 100 span` steps above the minimum. -/
theorem scaleLevelToRaw_eq (h : Steps min max span) (b : Build) (level : UInt8) :
    scaleLevelToRaw b level min max =
      .ok (.ofInt (min.toInt + rescale 100 span (level.toNat.min 100))) := by
  have hwide := h.wide
  have hfits := h.fits
  have hlevel : level.toNat.min 100 ≤ 100 := Nat.min_le_right _ _
  generalize hl : level.toNat.min 100 = l at hlevel
  have hproduct : l * span ≤ 100 * span := Nat.mul_le_mul_right span hlevel
  obtain ⟨w, hw, hwv⟩ := i32_ofNat b (n := span) (by omega) h.span_eq
  obtain ⟨p, hp, hpv⟩ := i32_ofNat b (n := l * span) (v := l * w.toInt) (by omega)
    (by rw [hwv, Nat.cast_mul])
  obtain ⟨s, hs, hsv⟩ := i32_ofNat b (n := l * span + 50) (v := p.toInt + 50) (by omega)
    (by rw [hpv, Nat.cast_add]; rfl)
  have hquot : s.toInt.tdiv 100 = (rescale 100 span l : Nat) := by
    rw [hsv]
    exact Int.ofNat_tdiv _ _
  have hle : rescale 100 span l ≤ span := rescale_le (by decide) hlevel
  simp only [scaleLevelToRaw, hl, hw, hp, hs, hquot, bind, Except.bind]
  exact Build.i32_of_fits b (h.raw_fits hle)

/-- A raw value `k` steps above the minimum is read as `rescale span 100 k`. -/
theorem scaleRawToLevel_eq (h : Steps min max span) (b : Build) {raw : Int32} {k : Nat}
    (hraw : raw.toInt = min.toInt + k) (hk : k ≤ span) :
    scaleRawToLevel b raw min max = .ok (.ofNat (rescale span 100 k)) := by
  have hwide := h.wide
  have hfits := h.fits
  obtain ⟨w, hw, hwv⟩ := i32_ofNat b (n := span) (by omega) h.span_eq
  have hne : w ≠ 0 := by
    rintro rfl
    simp at hwv
    omega
  obtain ⟨a, ha, hav⟩ := i32_ofNat b (n := k) (v := raw.toInt - min.toInt) (by omega)
    (by rw [hraw]; omega)
  obtain ⟨p, hp, hpv⟩ := i32_ofNat b (n := k * 100) (v := a.toInt * 100) (by omega)
    (by rw [hav, Nat.cast_mul]; rfl)
  have hhalf : w.toInt.tdiv 2 = (span / 2 : Nat) := by
    rw [hwv]
    exact Int.ofNat_tdiv _ _
  obtain ⟨s, hs, hsv⟩ := i32_ofNat b (n := k * 100 + span / 2)
    (v := p.toInt + (span / 2 : Nat)) (by omega) (by rw [hpv, Nat.cast_add])
  have hquot : s.toInt.tdiv w.toInt = (rescale span 100 k : Nat) := by
    rw [hsv, hwv]
    exact Int.ofNat_tdiv _ _
  have hle : rescale span 100 k ≤ 100 := rescale_le (by omega) hk
  have hin : InI32 (rescale span 100 k : Nat) := inI32_ofNat (by omega)
  have hpct : (Int32.ofInt (rescale span 100 k : Nat)).toInt = (rescale span 100 k : Nat) :=
    Int32.toInt_ofInt_of_le hin.1 hin.2
  have hmin : (rescale span 100 k).min 100 = rescale span 100 k := Nat.min_eq_left hle
  simp only [scaleRawToLevel, divI32, hw, hne, ha, hp, hhalf, hs, hquot, hin, hpct, hmin, bind,
    Except.bind, if_true, if_false, pure, Except.pure, Int.toNat_natCast]

/-- The raw value of a level. -/
def raw (min : Int32) (span : Nat) (level : UInt8) : Int32 :=
  .ofInt (min.toInt + rescale 100 span (level.toNat.min 100))

theorem rescale_le_span (span : Nat) (level : UInt8) :
    rescale 100 span (level.toNat.min 100) ≤ span :=
  rescale_le (by decide) (Nat.min_le_right _ _)

theorem toInt_raw_level (h : Steps min max span) (level : UInt8) :
    (raw min span level).toInt = min.toInt + rescale 100 span (level.toNat.min 100) :=
  h.toInt_raw (rescale_le_span span level)

theorem raw_zero (h : Steps min max span) : raw min span 0 = min := by
  rw [← Int32.toInt_inj, h.toInt_raw_level]
  simp

theorem raw_hundred (h : Steps min max span) : raw min span 100 = max := by
  rw [← Int32.toInt_inj, h.toInt_raw_level]
  have hself : rescale 100 span ((100 : UInt8).toNat.min 100) = span :=
    rescale_self span (by decide)
  have hspan := h.span_eq
  omega

theorem raw_mono (h : Steps min max span) {l m : UInt8} (hlm : l ≤ m) :
    raw min span l ≤ raw min span m := by
  rw [Int32.le_iff_toInt_le, h.toInt_raw_level, h.toInt_raw_level]
  have hmin : l.toNat.min 100 ≤ m.toNat.min 100 :=
    min_le_min_right 100 (UInt8.le_iff_toNat_le.mp hlm)
  have hmono := rescale_mono 100 span hmin
  omega

theorem raw_mem (h : Steps min max span) (level : UInt8) :
    min ≤ raw min span level ∧ raw min span level ≤ max := by
  rw [Int32.le_iff_toInt_le, Int32.le_iff_toInt_le, h.toInt_raw_level]
  have hle := rescale_le_span span level
  have hspan := h.span_eq
  omega

/-- A level of the protocol is read back as it was written. -/
theorem level_raw_level (h : Steps min max span) (b : Build) {level : UInt8} (hl : level ≤ 100) :
    scaleRawToLevel b (raw min span level) min max = .ok level := by
  rw [h.scaleRawToLevel_eq b (h.toInt_raw_level level) (rescale_le_span span level)]
  have hmin : level.toNat.min 100 = level.toNat :=
    Nat.min_eq_left (UInt8.le_iff_toNat_le.mp hl)
  rw [hmin, rescale_rescale level.toNat (by decide) h.wide, UInt8.ofNat_toNat]

end Steps

/-- **The hardware volume scale is a faithful embedding**: over every control
with a hundred raw steps or more that fits `i32`, under either cargo profile. -/
theorem volume_scale_faithful (b : Build) (min max : Int32)
    (hwide : 100 ≤ max.toInt - min.toInt)
    (hfits : 101 * (max.toInt - min.toInt) ≤ 2 ^ 31 - 1) :
    ∃ raw : UInt8 → Int32,
      (∀ level, scaleLevelToRaw b level min max = .ok (raw level)) ∧
      raw 0 = min ∧ raw 100 = max ∧
      (∀ l m, l ≤ m → raw l ≤ raw m) ∧
      (∀ level, min ≤ raw level ∧ raw level ≤ max) ∧
      ∀ level ≤ 100, scaleRawToLevel b (raw level) min max = .ok level := by
  obtain ⟨span, hspan⟩ := Int.eq_ofNat_of_zero_le (a := max.toInt - min.toInt) (by omega)
  have h : Steps min max span := ⟨hspan, by omega, by omega⟩
  refine ⟨Steps.raw min span, ?_, h.raw_zero, h.raw_hundred, ?_, ?_, ?_⟩
  · intro level
    exact h.scaleLevelToRaw_eq b level
  · intro l m hlm
    exact h.raw_mono hlm
  · intro level
    exact h.raw_mem level
  · intro level hl
    exact h.level_raw_level b hl

/-- A control of exactly a hundred steps below zero. -/
theorem volume_scale_negative :
    100 ≤ (0 : Int32).toInt - (-100 : Int32).toInt ∧
      101 * ((0 : Int32).toInt - (-100 : Int32).toInt) ≤ 2 ^ 31 - 1 ∧
      ∃ raw : UInt8 → Int32,
        (∀ level, scaleLevelToRaw .debug level (-100) 0 = .ok (raw level)) ∧
        raw 0 = -100 ∧ raw 100 = 0 ∧
        (∀ l m, l ≤ m → raw l ≤ raw m) ∧
        (∀ level, -100 ≤ raw level ∧ raw level ≤ 0) ∧
        ∀ level ≤ 100, scaleRawToLevel .debug (raw level) (-100) 0 = .ok level :=
  ⟨by decide, by decide, volume_scale_faithful .debug (-100) 0 (by decide) (by decide)⟩

example : scaleLevelToRaw .debug 50 0 127 = .ok 64 := by decide

end Oaat.Alsa
