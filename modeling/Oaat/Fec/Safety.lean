/-
Oaat.Fec.Safety — exactly when a FEC receiver panics.

Every header field comes from the network, so nothing relates one packet to
another. With overflow checks on, `feed` and `flush` are shown to return
exactly when a condition on the state before the call and on the fed packet
holds (`StepSafe`), and a run panics nowhere exactly when the condition holds
along it. The condition names the three ways out:

* a packet is rebuilt in a group of ONE, which has no other packet to copy the
  header from (the source's comment "group size ≥ 2" is checked nowhere);
* the timestamps of the two first known packets do not extrapolate to the
  missing index within `i64`;
* a `u64` counter is full.

Without overflow checks only the first remains.
-/
import Oaat.Fec.Stream
import Mathlib.Data.UInt

namespace Oaat.Fec

open Oaat.Core Oaat.Core.FecReceiver Oaat.Lib

/-! ## Extrapolation in `i64` -/

/-- The exact integers of the extrapolation all fit `i64`. -/
def Fits (i0 i1 idx : Nat) (v0 v1 : UInt64) : Prop :=
  let diff := asI64 v1 - asI64 v0
  let shift := diff.tdiv (max ((i1 : Int) - i0) 1) * ((idx : Int) - i0)
  InI64 diff ∧ InI64 shift ∧ InI64 (asI64 v0 + shift)

theorem extrapolate_debug {i0 i1 idx : Nat} {v0 v1 : UInt64} :
    (∃ v, extrapolate .debug i0 i1 idx v0 v1 = .ok v) ↔ Fits i0 i1 idx v0 v1 := by
  constructor
  · rintro ⟨v, h⟩
    simp only [extrapolate, bind_eq_ok] at h
    obtain ⟨diff, h₁, shift, h₂, w, h₃, -⟩ := h
    obtain ⟨hdiff, hd⟩ := Build.debug_i64_ok.mp h₁
    rw [hd] at h₂
    obtain ⟨hshift, hs⟩ := Build.debug_i64_ok.mp h₂
    rw [hs] at h₃
    exact ⟨hdiff, hshift, (Build.debug_i64_ok.mp h₃).1⟩
  · rintro ⟨h₁, h₂, h₃⟩
    rw [extrapolate, bind_of_ok _ (Build.i64_of_fits _ h₁), bind_of_ok _ (Build.i64_of_fits _ h₂),
      bind_of_ok _ (Build.i64_of_fits _ h₃)]
    exact ⟨_, rfl⟩

/-- Both timestamps extrapolate, from the two first known slots. -/
def TimestampsFit (idx : Nat) : List (Nat × AudioPacketHeader) → Prop
  | first :: second :: _ =>
    Fits first.1 second.1 idx first.2.ptsNs second.2.ptsNs ∧
      Fits first.1 second.1 idx first.2.sampleOffset second.2.sampleOffset
  | _ => True

theorem timestamps_debug {idx : Nat} {first : Nat × AudioPacketHeader}
    {rest : List (Nat × AudioPacketHeader)} :
    (∃ t, timestamps .debug idx first rest = .ok t) ↔ TimestampsFit idx (first :: rest) := by
  cases rest with
  | nil => simp [timestamps, TimestampsFit]
  | cons second rest =>
    simp only [timestamps, TimestampsFit, bind_eq_ok, ← extrapolate_debug]
    constructor
    · rintro ⟨t, pts, hpts, off, hoff, -⟩
      exact ⟨⟨pts, hpts⟩, off, hoff⟩
    · rintro ⟨⟨pts, hpts⟩, off, hoff⟩
      exact ⟨(pts, off), pts, hpts, off, hoff, rfl⟩

/-! ## One call -/

/-- A receiver that is about to rebuild slot `idx` can do so. -/
structure RebuildSafe (r : FecReceiver) (idx : Nat) : Prop where
  two_le : 2 ≤ r.slots.length
  fits : TimestampsFit idx (known r.slots)
  counter : r.recovered + 1 < 2 ^ 64

theorem known_ne_nil_iff {r : FecReceiver} {pre post : List FecPacket}
    (hs : r.slots = oneGap pre post) : known r.slots ≠ [] ↔ 2 ≤ r.slots.length := by
  rw [ne_eq, known_eq_nil, hs, filterMap_oneGap, length_oneGap, List.append_eq_nil_iff,
    ← List.length_eq_zero_iff, ← List.length_eq_zero_iff]
  omega

theorem tryComplete_debug (r : FecReceiver) :
    (∃ x, r.tryComplete .debug = .ok x) ↔ ∀ idx, r.rebuildIndex = some idx → RebuildSafe r idx := by
  by_cases hone : missing r.slots = 1
  · obtain ⟨pre, post, hs⟩ := missing_eq_one hone
    have hzero : ¬ (missing r.slots = 0 ∧ r.slots ≠ []) := by omega
    cases hp : r.parity with
    | none =>
      have hnone : r.rebuildIndex = none := rebuildIndex_eq_none fun _ => hp
      simp [tryComplete, hone, hp, hnone]
    | some par =>
      obtain ⟨lx, pl⟩ := par
      have htry : r.tryComplete .debug = r.rebuild .debug lx pl := by
        simp [tryComplete, hone, hp]
      rw [htry, rebuild_ok hs, rebuildIndex_oneGap hs hp]
      constructor
      · rintro ⟨⟨first, rest, t, hk, ht⟩, n, hn⟩ idx hidx
        cases hidx
        exact ⟨(known_ne_nil_iff hs).mp (by simp [hk]), hk ▸ timestamps_debug.mp ⟨t, ht⟩,
          (Build.debug_u64_ok.mp hn).1⟩
      · intro h
        obtain ⟨htwo, hfit, hn⟩ := h _ rfl
        obtain ⟨first, rest, hk⟩ := List.exists_cons_of_ne_nil ((known_ne_nil_iff hs).mpr htwo)
        obtain ⟨t, ht⟩ := timestamps_debug.mpr (hk ▸ hfit)
        exact ⟨⟨first, rest, t, hk, ht⟩, _, Build.u64_of_fits _ hn⟩
  · have hnone : r.rebuildIndex = none := rebuildIndex_eq_none fun h => absurd h hone
    by_cases hz : missing r.slots = 0 ∧ r.slots ≠ []
    · simp [tryComplete, hz, hnone]
    · simp [tryComplete, hz, hone, hnone]

/-- Feeding `p` flushes whatever group is in progress. -/
def Flushes (r : FecReceiver) (p : FecPacket) : Prop :=
  isParity p = false ∧ (p.1.fecGroupSize = 0 ∨
    (r.prevBaseSeq ≠ some (dataBase p) ∧ r.baseSeq ≠ some (dataBase p)))

/-- The lost packets of the group in progress can be counted. -/
def FlushSafe (r : FecReceiver) : Prop :=
  r.baseSeq = none ∨ r.lost + missing r.slots < 2 ^ 64

/-- The condition under which a call does not panic. -/
def StepSafe (r : FecReceiver) : Input → Prop
  | .flush => FlushSafe r
  | .packet p => (Flushes r p → FlushSafe r) ∧
      ∀ s, r.joined p = some s → ∀ idx, s.rebuildIndex = some idx → RebuildSafe s idx

theorem flush_debug (r : FecReceiver) : (∃ x, r.flush .debug = .ok x) ↔ FlushSafe r := by
  rw [flush_ok, FlushSafe]
  refine or_congr_right ⟨fun ⟨n, hn⟩ => (Build.debug_u64_ok.mp hn).1, ?_⟩
  intro h
  exact ⟨_, Build.u64_of_fits _ h⟩

/-- A group just opened has no parity, so it cannot be rebuilt at once. -/
theorem tryComplete_openGroup (r : FecReceiver) (p : FecPacket) :
    ∃ x, ((r.openGroup p).store p).tryComplete .debug = .ok x := by
  refine (tryComplete_debug _).mpr ?_
  intro idx h
  have hpn : ((r.openGroup p).store p).parity = none := by
    unfold FecReceiver.store
    split <;> rfl
  rw [rebuildIndex_eq_none fun _ => hpn] at h
  cases h

theorem feed_debug (r : FecReceiver) (p : FecPacket) :
    (∃ x, r.feed .debug p = .ok x) ↔ StepSafe r (.packet p) := by
  cases hd : isParity p with
  | true =>
    have hnf : ¬ Flushes r p := fun h => by rw [h.1] at hd; cases hd
    by_cases hb : r.baseSeq = some (parityBase p)
    · have hj : r.joined p = some { r with parity := some (p.1.fecLenXor, p.2) } := by
        simp [FecReceiver.joined, hd, hb]
      rw [feed_parity hd hb, tryComplete_debug]
      simp [StepSafe, hnf, hj]
    · have hj : r.joined p = none := by simp [FecReceiver.joined, hd, hb]
      simp [feed_stray hd hb, StepSafe, hnf, hj]
  | false =>
    by_cases hz : p.1.fecGroupSize = 0
    · have hj : r.joined p = none := by simp [FecReceiver.joined, hd, hz]
      have hsafe : StepSafe r (.packet p) ↔ FlushSafe r := by
        simp [StepSafe, Flushes, hd, hz, hj]
      rw [hsafe, ← flush_debug, feed_plain hd hz]
      refine ⟨fun ⟨_, h⟩ => ?_, fun ⟨y, hy⟩ => ⟨_, bind_of_ok _ hy⟩⟩
      obtain ⟨y, hy, -⟩ := bind_eq_ok.mp h
      exact ⟨y, hy⟩
    · by_cases hb : r.baseSeq = some (dataBase p)
      · have hj : r.joined p = some (r.store p) := by simp [FecReceiver.joined, hd, hz, hb]
        rw [feed_same hd hz hb, tryComplete_debug]
        simp [StepSafe, Flushes, hz, hb, hj]
      · have hj : r.joined p = none := by simp [FecReceiver.joined, hd, hb]
        by_cases hprev : r.prevBaseSeq = some (dataBase p)
        · simp [feed_straggler hd hz hprev hb, StepSafe, Flushes, hz, hprev, hj]
        · have hsafe : StepSafe r (.packet p) ↔ FlushSafe r := by
            simp [StepSafe, Flushes, hd, hb, hprev, hj]
          rw [hsafe, ← flush_debug, feed_switch hd hz hprev hb]
          refine ⟨fun ⟨_, h⟩ => ?_, fun ⟨y, hy⟩ => ?_⟩
          · obtain ⟨y, hy, -⟩ := bind_eq_ok.mp h
            exact ⟨y, hy⟩
          · obtain ⟨w, hw⟩ := tryComplete_openGroup y.1 p
            rw [bind_of_ok _ hy, bind_of_ok _ hw]
            exact ⟨_, rfl⟩

theorem step_debug (r : FecReceiver) (i : Input) :
    StepSafe r i ↔ ∃ x, FecReceiver.step .debug r i = .ok x := by
  cases i with
  | packet p => exact (feed_debug r p).symm
  | flush => exact (flush_debug r).symm

/-! ## Whole runs -/

/-- **Exactly when the receive path panics.** For every finite sequence of
packets with arbitrary headers, flushed at any points, a receiver with
overflow checks runs to the end if and only if every call of the run finds the
state and the packet in the condition `StepSafe`. -/
theorem receiver_never_panics_iff (inputs : List Input) :
    (∃ x, run (FecReceiver.step .debug) .new inputs = .ok x) ↔
      Along (FecReceiver.step .debug) StepSafe .new inputs :=
  run_ok_iff_along step_debug inputs .new

/-- A header as a datagram can carry it, for a packet with an empty payload. -/
def rawHeader (flags : PacketFlags) (sequence : UInt16) (size index : UInt8) (ptsNs : UInt64) :
    AudioPacketHeader :=
  { version := 1, flags, format := .pcmS16le, sequence, streamId := 1, ptsNs, sampleOffset := 0,
    payloadLen := 0, fecGroupSize := size, fecIndex := index, fecLenXor := 0 }

/-- A data packet that claims index 5 of a group of one, then its parity. -/
def groupOfOne : List FecPacket :=
  [(rawHeader .empty 5 1 5 0, []), (rawHeader .fec 1 1 0 0, [])]

/-- Two packets of a group of three at the two ends of `i64`, then the parity. -/
def farApart : List FecPacket :=
  [(rawHeader .empty 0 3 0 (2 ^ 63), []), (rawHeader .empty 1 3 1 (2 ^ 63 - 1), []),
    (rawHeader .fec 3 3 0 0, [])]

/-- Both inputs are datagrams the decoder accepts with their real payload
length. The first indexes an empty list in either profile; the second
overflows. -/
theorem receiver_panics :
    (∀ p ∈ groupOfOne ++ farApart,
      AudioPacketHeader.decode p.1.encode = .ok p.1 ∧ p.1.payloadLen.toNat = p.2.length) ∧
    run (FecReceiver.step .debug) .new (groupOfOne.map .packet) = .error .indexOutOfBounds ∧
    run (FecReceiver.step .release) .new (groupOfOne.map .packet) = .error .indexOutOfBounds ∧
    run (FecReceiver.step .debug) .new (farApart.map .packet) = .error .overflow := by
  refine ⟨fun p hp => ⟨?_, ?_⟩, by decide +kernel, by decide +kernel, by decide +kernel⟩
  · simp only [groupOfOne, farApart, List.cons_append, List.nil_append, List.mem_cons,
      List.not_mem_nil, or_false] at hp
    rcases hp with rfl | rfl | rfl | rfl | rfl <;>
      exact AudioPacketHeader.decode_encode _ rfl (by decide)
  · simp only [groupOfOne, farApart, List.cons_append, List.nil_append, List.mem_cons,
      List.not_mem_nil, or_false] at hp
    rcases hp with rfl | rfl | rfl | rfl | rfl <;> rfl

end Oaat.Fec
