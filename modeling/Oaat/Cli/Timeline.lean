/-
Oaat.Cli.Timeline — frames and instants: where a stream starts, and where it
is put when it cannot catch up.

The sender stamps a packet with its offset in nanoseconds, the application
takes the content in the ring off again, and the servo turns elapsed time back
into frames. Each of these divides and cuts off (`nsOf`, `framesIn`). The first
two cut off the same number, so the presentation time of the ring's head is
exact whichever packet it is computed from; the last two can be a frame apart,
and then the tracker is one frame late, never early.
-/
import Oaat.Cli.Steps
import Oaat.Cpal.Position

namespace Oaat.Cli

open Oaat.Core Oaat.Endpoint Oaat.Lib

/-! ## Frames and nanoseconds -/

/-- Frames as nanoseconds. -/
def nsOf (rate frames : Nat) : Nat := frames * 1_000_000_000 / rate

/-- The whole frames in some nanoseconds. -/
def framesIn (rate ns : Nat) : Nat := ns * rate / 1_000_000_000

section

variable {rate ns d : Nat}

/-- Frames that have passed took no longer than the time that has passed. -/
theorem nsOf_le (hrate : 0 < rate) (h : d ≤ framesIn rate ns) : nsOf rate d ≤ ns := by
  unfold nsOf framesIn at *
  have hframes : d * 1_000_000_000 ≤ ns * rate := (Nat.le_div_iff_mul_le (by decide)).mp h
  have hdiv := Nat.div_le_div_right (c := rate) hframes
  rwa [Nat.mul_div_cancel _ hrate] at hdiv

/-- With the time of `d` frames taken off, `d` frames fewer have passed, or one
fewer than that. -/
theorem framesIn_sub (hrate : 0 < rate) (hrate' : rate ≤ 1_000_000_000)
    (h : d ≤ framesIn rate ns) :
    framesIn rate (ns - nsOf rate d) + d = framesIn rate ns ∨
      framesIn rate (ns - nsOf rate d) + d = framesIn rate ns + 1 := by
  have hle := nsOf_le hrate h
  have hframes : d * 1_000_000_000 ≤ ns * rate := (Nat.le_div_iff_mul_le (by decide)).mp h
  -- what the division cut off is less than one frame's worth
  have hcut : nsOf rate d * rate + d * 1_000_000_000 % rate = d * 1_000_000_000 := by
    rw [Nat.mul_comm]
    exact Nat.div_add_mod _ _
  have hmod : d * 1_000_000_000 % rate < rate := Nat.mod_lt _ hrate
  have hsub : (ns - nsOf rate d) * rate =
      ns * rate - d * 1_000_000_000 + d * 1_000_000_000 % rate := by
    rw [Nat.sub_mul]
    omega
  unfold framesIn at *
  rw [hsub]
  omega

/-- Below a gigahertz, frames are fewer than nanoseconds. -/
theorem framesIn_lt (hrate : rate ≤ 1_000_000_000) (hns : ns < 2 ^ 64) :
    framesIn rate ns < 2 ^ 64 := by
  unfold framesIn
  have hmul : ns * rate ≤ ns * 1_000_000_000 := Nat.mul_le_mul_left ns hrate
  omega

end

/-! ## The drift, when it is in range -/

section

variable {build : Build} {e p : Nat} {d : Int}

/-- A positive drift is what the clock expects beyond what was played. -/
theorem drift_behind (he : e < 2 ^ 64) (hp : InI64 p) (hpos : 0 < d) (hfits : d < 2 ^ 63)
    (hd : build.i64 ((e : Int).bmod (2 ^ 64) - (p : Int).bmod (2 ^ 64)) = .ok d) :
    (e : Int) = p + d ∧ (build = .debug → e < 2 ^ 63) := by
  obtain ⟨i, hi, hilo, hihi⟩ := wrap64 (e : Int)
  obtain ⟨j, hj, hjlo, hjhi⟩ := wrap64 (p : Int)
  generalize (e : Int).bmod (2 ^ 64) = v at *
  generalize (p : Int).bmod (2 ^ 64) = w at *
  unfold InI64 at hp
  unfold Build.i64 at hd
  split at hd
  next =>
    cases hd
    exact ⟨by omega, fun _ => by omega⟩
  next =>
    cases build with
    | debug => cases hd
    | release =>
      obtain ⟨k, hk, hklo, hkhi⟩ := wrap64 (v - w)
      simp only [Except.ok.injEq] at hd
      rw [hd] at hk
      exact ⟨by omega, fun h => by cases h⟩

/-- And it is what `drift_frames` gives. -/
theorem drift_of_behind (he : e < 2 ^ 64) (hp : InI64 p) (hd : (e : Int) = p + d) (h0 : 0 ≤ d)
    (hfits : d < 2 ^ 63) (hbuild : build = .debug → e < 2 ^ 63) :
    build.i64 ((e : Int).bmod (2 ^ 64) - (p : Int).bmod (2 ^ 64)) = .ok d := by
  obtain ⟨i, hi, hilo, hihi⟩ := wrap64 (e : Int)
  obtain ⟨j, hj, hjlo, hjhi⟩ := wrap64 (p : Int)
  generalize (e : Int).bmod (2 ^ 64) = v at *
  generalize (p : Int).bmod (2 ^ 64) = w at *
  unfold InI64 at hp
  unfold Build.i64
  split
  next hin =>
    unfold InI64 at hin
    rw [Except.ok.injEq]
    omega
  next hout =>
    unfold InI64 at hout
    cases build with
    | debug =>
      have hlt := hbuild rfl
      omega
    | release =>
      obtain ⟨k, hk, hklo, hkhi⟩ := wrap64 (v - w)
      simp only [Except.ok.injEq]
      omega

end

theorem driftFrames_eq (build : Build) (t : PtsTracker) (now : UInt64) (p : Nat) :
    t.driftFrames build now p =
      build.i64 (((framesIn t.sampleRate.toNat (now.toNat - t.startNs.toNat) : Nat) : Int).bmod
        (2 ^ 64) - (p : Int).bmod (2 ^ 64)) := by
  rw [PtsTracker.driftFrames, framesIn]

/-! ## The rebase -/

section

variable {build : Build} {start now : UInt64} {rate k : Nat}

/-- The shifted start is not in the future. -/
theorem shifted_le (hrate : 0 < rate) (hk : 0 < k)
    (hle : k ≤ framesIn rate (now.toNat - start.toNat)) :
    start.toNat + nsOf rate k ≤ now.toNat := by
  have hshift := nsOf_le hrate hle
  have hpos : now.toNat - start.toNat ≠ 0 := by
    intro hzero
    rw [hzero, framesIn, Nat.zero_mul, Nat.zero_div] at hle
    omega
  omega

/-- So it fits, with the multiplication it comes from. -/
theorem shifted_fits (build : Build) (hfits : k * 1_000_000_000 < 2 ^ 64)
    (hnow : start.toNat + nsOf rate k ≤ now.toNat) :
    build.u64 (k * 1_000_000_000) = .ok (k * 1_000_000_000) ∧
      build.u64 (start.toNat + nsOf rate k) = .ok (start.toNat + nsOf rate k) ∧
      (UInt64.ofNat (start.toNat + nsOf rate k)).toNat = start.toNat + nsOf rate k := by
  have hlt : now.toNat < 2 ^ 64 := now.toNat_lt
  refine ⟨Build.u64_of_fits build hfits, Build.u64_of_fits build (by omega), ?_⟩
  rw [UInt64.toNat_ofNat']
  exact Nat.mod_eq_of_lt (by omega)

/-- Then the rebase is done, and sets just that start. -/
theorem rebase_ok {B : Backend} (s : Endpoint B) {t : PtsTracker} {d : Int} {scaled shifted : Nat}
    (hscaled : build.u64 (d.toNat * 1_000_000_000) = .ok scaled)
    (hshifted : build.u64 (t.startNs.toNat + scaled / max s.streamSampleRate.toNat 1) =
      .ok shifted) :
    s.rebase build t d = .ok { s with
      tracker := some { startNs := .ofNat shifted, sampleRate := s.streamSampleRate }
      audio := B.setCorrection s.audio 0
      lastDrift := 0 } := by
  unfold Endpoint.rebase
  rw [hscaled]
  simp only [Endpoint.checked, Except.mapError, bind, Except.bind]
  rw [hshifted]
  rfl

/-- On the shifted start the same position is on schedule, or a frame late. -/
theorem shifted_drift {start' : UInt64} {position : Nat} (hrate : 0 < rate)
    (hrate' : rate ≤ 1_000_000_000) (hposition : InI64 position) (hk : 0 < k)
    (hsum : framesIn rate (now.toNat - start.toNat) = position + k)
    (hdebug : build = .debug → framesIn rate (now.toNat - start.toNat) < 2 ^ 63)
    (hle : start.toNat + nsOf rate k ≤ now.toNat)
    (hstart : start'.toNat = start.toNat + nsOf rate k) :
    ∃ residual : Int, (residual = 0 ∨ residual = 1) ∧
      build.i64 (((framesIn rate (now.toNat - start'.toNat) : Nat) : Int).bmod (2 ^ 64) -
        (position : Int).bmod (2 ^ 64)) = .ok residual := by
  have hlt : now.toNat < 2 ^ 64 := now.toNat_lt
  have helapsed : now.toNat - start'.toNat = now.toNat - start.toNat - nsOf rate k := by omega
  rw [helapsed]
  have hold : framesIn rate (now.toNat - start.toNat) < 2 ^ 64 := framesIn_lt hrate' (by omega)
  have hk : k ≤ framesIn rate (now.toNat - start.toNat) := by omega
  have hnew := framesIn_sub hrate hrate' hk
  have hbound : framesIn rate (now.toNat - start.toNat - nsOf rate k) < 2 ^ 64 :=
    framesIn_lt hrate' (by omega)
  generalize framesIn rate (now.toNat - start.toNat - nsOf rate k) = e' at *
  generalize framesIn rate (now.toNat - start.toNat) = e at *
  rcases hnew with hzero | hone
  case inl =>
    refine ⟨0, .inl rfl, drift_of_behind hbound hposition (by omega) le_rfl (by decide) ?_⟩
    intro hb
    have := hdebug hb
    omega
  case inr =>
    refine ⟨1, .inr rfl, drift_of_behind hbound hposition (by omega) (by decide) (by decide) ?_⟩
    intro hb
    have := hdebug hb
    omega

end

/-- **A rebase lands on schedule.** Let the servo find the content position
`position`, an `i64` cut off at zero, a positive drift `d` behind. The tracker
that the stalled branch sets starts `d` frames later: no operation overflows,
its start is not in the future, and on it the same position is on schedule, or
one frame behind. -/
theorem rebase_on_schedule {B : Backend} {build : Build} (s : Endpoint B) {start now : UInt64}
    {position : Nat} {d : Int} (hrate : 1 ≤ s.streamSampleRate.toNat)
    (hrate' : s.streamSampleRate.toNat < 1_000_000_000) (hposition : InI64 position)
    (hd : ({ startNs := start, sampleRate := s.streamSampleRate } : PtsTracker).driftFrames build
      now position = .ok d)
    (hbehind : 0 < d) (hfits : d * 1_000_000_000 < 2 ^ 64) :
    ∃ start' : UInt64,
      s.rebase build { startNs := start, sampleRate := s.streamSampleRate } d =
        .ok { s with
          tracker := some { startNs := start', sampleRate := s.streamSampleRate }
          audio := B.setCorrection s.audio 0
          lastDrift := 0 } ∧
      start'.toNat = start.toNat + d.toNat * 1_000_000_000 / s.streamSampleRate.toNat ∧
      start' ≤ now ∧
      ∃ residual : Int, (residual = 0 ∨ residual = 1) ∧
        ({ startNs := start', sampleRate := s.streamSampleRate } : PtsTracker).driftFrames build
          now position = .ok residual := by
  simp only [driftFrames_eq] at hd
  obtain ⟨k, rfl⟩ := Int.eq_ofNat_of_zero_le hbehind.le
  have hlt : now.toNat < 2 ^ 64 := now.toNat_lt
  obtain ⟨hsum, hdebug⟩ := drift_behind
    (framesIn_lt hrate'.le (by omega)) hposition hbehind (by omega) hd
  have hnow : start.toNat + nsOf s.streamSampleRate.toNat k ≤ now.toNat :=
    shifted_le hrate (by omega) (by omega)
  have hproduct : k * 1_000_000_000 < 2 ^ 64 := by omega
  obtain ⟨hscaled, hadded, hnat⟩ := shifted_fits build hproduct hnow
  have hmax : max s.streamSampleRate.toNat 1 = s.streamSampleRate.toNat := by omega
  have hns : k * 1_000_000_000 / s.streamSampleRate.toNat =
      nsOf s.streamSampleRate.toNat k := by rw [nsOf]
  refine ⟨.ofNat (start.toNat + nsOf s.streamSampleRate.toNat k), ?_, ?_, ?_, ?_⟩
  case refine_1 =>
    refine rebase_ok s (by rwa [Int.toNat_natCast]) ?_
    rwa [hmax, hns]
  case refine_2 => rw [hnat, Int.toNat_natCast, hns]
  case refine_3 =>
    rw [UInt64.le_iff_toNat_le, hnat]
    exact hnow
  case refine_4 =>
    simp only [driftFrames_eq]
    exact shifted_drift hrate hrate'.le hposition (by omega) (by omega) hdebug hnow hnat

/-- An output at 48 kHz, half of two seconds played. -/
def behindOutput : Endpoint (cpalBackend Cpal.pcmOnly) :=
  { Endpoint.new (cpalBackend Cpal.pcmOnly) false none with streamSampleRate := 48000 }

theorem rebase_on_schedule_secondBehind :
    ∃ start' : UInt64,
      behindOutput.rebase .debug { startNs := 0, sampleRate := 48000 } 48000 =
        .ok { behindOutput with
          tracker := some { startNs := start', sampleRate := 48000 }
          audio := behindOutput.audio.setCorrection 0
          lastDrift := 0 } ∧
      start'.toNat = 0 + 48000 * 1_000_000_000 / 48000 ∧
      start' ≤ 2_000_000_000 ∧
      ∃ residual : Int, (residual = 0 ∨ residual = 1) ∧
        ({ startNs := start', sampleRate := 48000 } : PtsTracker).driftFrames .debug
          2_000_000_000 48000 = .ok residual :=
  rebase_on_schedule behindOutput (by decide) (by decide) (by decide) (by decide +kernel)
    (by decide) (by decide)

end Oaat.Cli
