/-
Oaat.Fec.RecoveredHeader — the header of a recovered packet.

A parity covers payloads only, so the header of a rebuilt packet is synthesized
from the neighbours that arrived. Where the packets of a group share format and
stream, carry no flags and have timestamps in arithmetic progression, the comment
of the source calls the result exact. In a group of three packets or more it is,
whichever is lost. In a group of two only one packet is known, and its timestamps
are copied: the header is exact there only if both packets have the same.

The result is about every state a receiver reaches on the traffic of a zone:
whatever was lost, reordered or duplicated before, a packet that is rebuilt is the
one missing from a group that was sent (`Tracks.gap`).
-/
import Oaat.Fec.AnyOrder
import Oaat.Fec.AtMostOnce

namespace Oaat.Fec

open Oaat.Core Oaat.Controller Oaat.Core.FecReceiver Oaat.Lib

/-! ## What is synthesized and when it is exact -/

/-- The header that `rebuild` synthesizes for slot `idx` under the parity `par`. -/
def recoveredHeader (b : Build) (r : FecReceiver) (idx : Nat) (par : UInt16 × List UInt8) :
    Except Panic AudioPacketHeader :=
  synthesizeHeader b r idx
    (UInt16.ofNat (rebuiltPayload (r.held.map (·.2)) par.1 par.2).length)

/-- The gap filled with a packet of that header, and the group handed out. -/
def fillGap (b : Build) (r : FecReceiver) (idx : Nat) (par : UInt16 × List UInt8)
    (header : AudioPacketHeader) : Except Panic (FecReceiver × List FecPacket) := do
  let payload := rebuiltPayload (r.held.map (·.2)) par.1 par.2
  let total ← b.u64 (r.recovered + 1)
  return { r with slots := r.slots.set idx (some (header, payload)),
                  parity := none, recovered := total }.takeGroup

/-- The values lie on a line over their positions, and all fit `i64`. -/
def Progression (vs : List UInt64) : Prop :=
  ∃ start step : Int, ∀ (i : Nat) (v : UInt64), vs[i]? = some v →
    v.toNat < 2 ^ 63 ∧ (v.toNat : Int) = start + i * step

/-- The packets of a group of uniform duration in one stream. -/
structure Uniform (ds : List FecPacket) : Prop where
  shared : ∀ p ∈ ds, ∀ p' ∈ ds, p.1.format = p'.1.format ∧ p.1.streamId = p'.1.streamId
  flags : ∀ p ∈ ds, p.1.flags = PacketFlags.empty
  pts : Progression (ds.map (·.1.ptsNs))
  offset : Progression (ds.map (·.1.sampleOffset))

/-- All packets of the group have one PTS and one sample offset. -/
def SameTimes (ds : List FecPacket) : Prop :=
  ∀ p ∈ ds, ∀ p' ∈ ds, p.1.ptsNs = p'.1.ptsNs ∧ p.1.sampleOffset = p'.1.sampleOffset

/-! ## What the sender puts in a header -/

/-- The fields of a data packet's header that the sender fills in by itself. -/
structure AsBuilt (p : FecPacket) : Prop where
  version : p.1.version = AudioPacketHeader.CURRENT_VERSION
  payloadLen : p.1.payloadLen = UInt16.ofNat p.2.length
  lenXor : p.1.fecLenXor = 0

theorem sendAudioAll_asBuilt {z : Zone} {a : AudioArgs} {p : FecPacket}
    (hp : p ∈ (z.sendAudioAll a).2) (hd : isParity p = false) : AsBuilt p := by
  rcases Zone.of_mem_sendAudioAll hp with rfl | ⟨parity, rfl⟩
  · exact ⟨rfl, rfl, rfl⟩
  · rw [isParity_parityPacket] at hd
    cases hd

theorem emitted_asBuilt {ops : List Zone.Op} {z : Zone} {p : FecPacket}
    (hp : p ∈ z.emitted ops) (hd : isParity p = false) : AsBuilt p := by
  induction ops generalizing z with
  | nil => simp [Zone.emitted, Zone.runOps] at hp
  | cons op ops ih =>
    rw [Zone.emitted, Zone.runOps] at hp
    rcases List.mem_append.mp hp with hp | hp
    · cases op with
      | enableFec n => simp [Zone.step] at hp
      | disableFec => simp [Zone.step] at hp
      | sendAudioAll a => exact sendAudioAll_asBuilt hp hd
    · exact ih hp

/-! ## Extrapolation on a line -/

theorem asI64_of_lt {v : UInt64} (h : v.toNat < 2 ^ 63) : asI64 v = v.toNat :=
  Int.bmod_eq_of_le_mul_two (by omega) (by omega)

theorem asU64_max_toNat (v : UInt64) : asU64 (max (v.toNat : Int) 0) = v := by
  have hmax : max (v.toNat : Int) 0 = v.toNat := max_eq_left (by omega)
  rw [asU64, hmax, Int.toNat_natCast, UInt64.ofNat_toNat]

/-- Two values on a line determine every other, in either build. -/
theorem extrapolate_line {b : Build} {i0 i1 idx : Nat} {v0 v1 v : UInt64} {start step : Int}
    (hlt : i0 < i1) (h0 : v0.toNat < 2 ^ 63) (h1 : v1.toNat < 2 ^ 63) (h : v.toNat < 2 ^ 63)
    (hv0 : (v0.toNat : Int) = start + i0 * step) (hv1 : (v1.toNat : Int) = start + i1 * step)
    (hv : (v.toNat : Int) = start + idx * step) :
    extrapolate b i0 i1 idx v0 v1 = .ok v := by
  have hdi : max ((i1 : Int) - i0) 1 = (i1 : Int) - i0 := max_eq_left (by omega)
  have hdiff : (v1.toNat : Int) - v0.toNat = ((i1 : Int) - i0) * step := by
    rw [hv1, hv0, Int.sub_mul]
    omega
  have hstep : ((v1.toNat : Int) - v0.toNat).tdiv ((i1 : Int) - i0) = step := by
    rw [hdiff]
    exact Int.mul_tdiv_cancel_left _ (by omega)
  have hshift : step * ((idx : Int) - i0) = v.toNat - v0.toNat := by
    rw [hv, hv0, Int.mul_sub, Int.mul_comm step, Int.mul_comm step]
    omega
  have hfits : InI64 ((v1.toNat : Int) - v0.toNat) ∧ InI64 ((v.toNat : Int) - v0.toNat) ∧
      InI64 (v.toNat : Int) := by
    unfold InI64
    omega
  have hback : (v0.toNat : Int) + (v.toNat - v0.toNat) = v.toNat := by omega
  rw [extrapolate, hdi, asI64_of_lt h0, asI64_of_lt h1, bind_of_ok _ (Build.i64_of_fits b hfits.1)]
  dsimp only
  rw [hstep, hshift, bind_of_ok _ (Build.i64_of_fits b hfits.2.1), hback,
    bind_of_ok _ (Build.i64_of_fits b hfits.2.2), asU64_max_toNat]
  rfl

/-! ## The known packets around a gap -/

theorem of_mem_known {slots : List (Option FecPacket)} {i : Nat} {h : AudioPacketHeader}
    (hmem : (i, h) ∈ known slots) : ∃ pl, slots[i]? = some (some (h, pl)) := by
  obtain ⟨⟨s, j⟩, hs, hmap⟩ := List.mem_filterMap.mp hmem
  obtain ⟨p, rfl, hp⟩ := Option.map_eq_some_iff.mp hmap
  simp only [Prod.mk.injEq] at hp
  obtain ⟨rfl, rfl⟩ := hp
  exact ⟨p.2, List.mem_zipIdx_iff_getElem?.mp hs⟩

theorem known_sorted (slots : List (Option FecPacket)) :
    (known slots).Pairwise fun s t => s.1 < t.1 := by
  have hidx : slots.zipIdx.Pairwise fun s t => s.2 < t.2 := by
    have hrange : (slots.zipIdx.map (·.2)).Pairwise (· < ·) := by
      rw [List.zipIdx_map_snd]
      exact List.pairwise_lt_range'
    exact List.pairwise_map.mp hrange
  rw [known, List.pairwise_filterMap]
  refine hidx.imp ?_
  rintro ⟨s, i⟩ ⟨t, j⟩ hij x hx y hy
  obtain ⟨p, -, rfl⟩ := Option.map_eq_some_iff.mp hx
  obtain ⟨p', -, rfl⟩ := Option.map_eq_some_iff.mp hy
  exact hij

theorem length_known (slots : List (Option FecPacket)) :
    (known slots).length = (slots.filterMap id).length := by
  have aux : ∀ (l : List (Option FecPacket)) (k : Nat),
      ((l.zipIdx k).filterMap fun s => s.1.map fun p => (s.2, p.1)).length
        = (l.filterMap id).length := by
    intro l
    induction l with
    | nil => intro k; rfl
    | cons s l ih =>
      intro k
      cases s with
      | none => simpa using ih (k + 1)
      | some p => simpa using ih (k + 1)
  exact aux slots 0

/-- Three values of a progression, two of them known, give the third. -/
theorem Progression.extrapolate {b : Build} (field : AudioPacketHeader → UInt64)
    {ds : List FecPacket} (h : Progression (ds.map fun p => field p.1)) {i0 i1 idx : Nat}
    {p0 p1 x : FecPacket} (hlt : i0 < i1) (h0 : ds[i0]? = some p0) (h1 : ds[i1]? = some p1)
    (hx : ds[idx]? = some x) :
    FecReceiver.extrapolate b i0 i1 idx (field p0.1) (field p1.1) = .ok (field x.1) := by
  obtain ⟨start, step, hline⟩ := h
  have hat : ∀ {i : Nat} {p : FecPacket}, ds[i]? = some p →
      (field p.1).toNat < 2 ^ 63 ∧ ((field p.1).toNat : Int) = start + i * step := by
    intro i p hi
    refine hline i (field p.1) ?_
    rw [List.getElem?_map, hi]
    rfl
  exact extrapolate_line hlt (hat h0).1 (hat h1).1 (hat hx).1 (hat h0).2 (hat h1).2 (hat hx).2

section Gap

variable {b : Build} {pre post : List FecPacket} {x : FecPacket}

/-- A known packet lies beside the gap, at its place in the group. -/
theorem place_of_known {i : Nat} {h : AudioPacketHeader} (hmem : (i, h) ∈ known (oneGap pre post))
    (x : FecPacket) :
    i ≠ pre.length ∧ ∃ p, (pre ++ x :: post)[i]? = some p ∧ p.1 = h := by
  obtain ⟨pl, hslot⟩ := of_mem_known hmem
  refine ⟨?_, (h, pl), getElem?_of_oneGap x hslot, rfl⟩
  rintro rfl
  simp [oneGap] at hslot

theorem length_known_gap (pre post : List FecPacket) (x : FecPacket) :
    (known (oneGap pre post)).length + 1 = (pre ++ x :: post).length := by
  rw [length_known, filterMap_oneGap]
  simp
  omega

/-- In a group of two, the timestamps of the one known packet are those of the other
exactly when the two have the same. -/
theorem copied_iff {i : Nat} {p : FecPacket} (hlen : (pre ++ x :: post).length = 2)
    (hi : i ≠ pre.length) (hp : (pre ++ x :: post)[i]? = some p) :
    (p.1.ptsNs = x.1.ptsNs ∧ p.1.sampleOffset = x.1.sampleOffset) ↔
      SameTimes (pre ++ x :: post) := by
  have hx : (pre ++ x :: post)[pre.length]? = some x := by simp
  constructor
  · rintro ⟨hpts, hoff⟩
    -- any packet of the group is one of the two
    have hboth : ∀ y ∈ pre ++ x :: post,
        y.1.ptsNs = x.1.ptsNs ∧ y.1.sampleOffset = x.1.sampleOffset := by
      intro y hy
      obtain ⟨j, hj⟩ := List.mem_iff_getElem?.mp hy
      have hjlt := (List.getElem?_eq_some_iff.mp hj).1
      have hplt := (List.getElem?_eq_some_iff.mp hp).1
      have hxlt := (List.getElem?_eq_some_iff.mp hx).1
      obtain rfl | rfl : j = pre.length ∨ j = i := by omega
      · obtain rfl : x = y := Option.some.inj (hx.symm.trans hj)
        exact ⟨rfl, rfl⟩
      · obtain rfl : p = y := Option.some.inj (hp.symm.trans hj)
        exact ⟨hpts, hoff⟩
    intro y hy y' hy'
    obtain ⟨hypts, hyoff⟩ := hboth y hy
    obtain ⟨hypts', hyoff'⟩ := hboth y' hy'
    exact ⟨hypts.trans hypts'.symm, hyoff.trans hyoff'.symm⟩
  · intro hsame
    exact hsame p (List.mem_of_getElem? hp) x (List.mem_of_getElem? hx)

/-- **The timestamps of a recovered packet.** With two packets known they are
those of the lost one; with one they are that one's. -/
theorem timestamps_gap (hu : Uniform (pre ++ x :: post)) (htwo : 2 ≤ (pre ++ x :: post).length) :
    ∃ first rest t, known (oneGap pre post) = first :: rest ∧
      timestamps b pre.length first rest = .ok t ∧ (∃ p ∈ pre ++ x :: post, p.1 = first.2) ∧
      (t = (x.1.ptsNs, x.1.sampleOffset) ↔
        3 ≤ (pre ++ x :: post).length ∨ SameTimes (pre ++ x :: post)) := by
  have hx : (pre ++ x :: post)[pre.length]? = some x := by simp
  have hcount := length_known_gap pre post x
  match hk : known (oneGap pre post) with
  | [] =>
    rw [hk, List.length_nil] at hcount
    omega
  | [(i0, h0)] =>
    rw [hk, List.length_singleton] at hcount
    obtain ⟨hi, p, hp, rfl⟩ := place_of_known (i := i0) (h := h0) (by rw [hk]; simp) x
    refine ⟨(i0, p.1), [], _, rfl, rfl, ⟨p, List.mem_of_getElem? hp, rfl⟩, ?_⟩
    have hthree : ¬ 3 ≤ (pre ++ x :: post).length := by omega
    rw [Prod.mk.injEq, copied_iff hcount.symm hi hp]
    simp only [hthree, false_or]
  | (i0, h0) :: (i1, h1) :: rest =>
    rw [hk] at hcount
    obtain ⟨-, p0, hp0, rfl⟩ := place_of_known (i := i0) (h := h0) (by rw [hk]; simp) x
    obtain ⟨-, p1, hp1, rfl⟩ := place_of_known (i := i1) (h := h1) (by rw [hk]; simp) x
    have hlt : i0 < i1 := by
      have hsorted := known_sorted (oneGap pre post)
      rw [hk] at hsorted
      exact (List.pairwise_cons.mp hsorted).1 (i1, p1.1) (by simp)
    have hpts := Progression.extrapolate (b := b) (·.ptsNs) hu.pts hlt hp0 hp1 hx
    have hoff := Progression.extrapolate (b := b) (·.sampleOffset) hu.offset hlt hp0 hp1 hx
    refine ⟨(i0, p0.1), _, (x.1.ptsNs, x.1.sampleOffset), rfl, ?_,
      ⟨p0, List.mem_of_getElem? hp0, rfl⟩, ?_⟩
    · rw [timestamps, bind_of_ok _ hpts, bind_of_ok _ hoff]
      rfl
    · have hthree : 3 ≤ (pre ++ x :: post).length := by
        rw [List.length_cons, List.length_cons] at hcount
        omega
      simp only [hthree, true_or]

/-- The synthesized header is exact exactly when its timestamps are. -/
theorem recoveredHeader_gap {sent : List FecPacket} {r : FecReceiver} {q : FecPacket}
    {par : UInt16 × List UInt8} (hgroup : SentParity sent q (pre ++ x :: post))
    (hbuilt : ∀ p ∈ pre ++ x :: post, AsBuilt p) (hshort : x.2.length < 65536)
    (hb : r.baseSeq = some (parityBase q)) (hsize : r.groupSize = q.1.fecGroupSize)
    (hs : r.slots = oneGap pre post) (hpar : par = (q.1.fecLenXor, q.2))
    (hu : Uniform (pre ++ x :: post)) :
    ∃ hd, recoveredHeader b r pre.length par = .ok hd ∧
      (hd = x.1 ↔ 3 ≤ (pre ++ x :: post).length ∨ SameTimes (pre ++ x :: post)) := by
  have hxi : (pre ++ x :: post)[pre.length]? = some x := by simp
  have hxds : x ∈ pre ++ x :: post := by simp
  have htwo : 2 ≤ (pre ++ x :: post).length := by
    rw [hgroup.length]
    exact hgroup.two_le
  have hpay : rebuiltPayload (r.held.map (·.2)) par.1 par.2 = x.2 := by
    rw [FecReceiver.held, hs, filterMap_oneGap, hpar, hgroup.payload, hgroup.lenXor]
    simpa using rebuiltPayload_eq (pre.map (·.2)) (post.map (·.2)) x.2 hshort
  obtain ⟨first, rest, t, hk, ht, ⟨p, hp, hfirst⟩, hiff⟩ := timestamps_gap (b := b) hu htwo
  obtain ⟨hidx, hseq⟩ := hgroup.group.position _ _ hxi
  have hheader : recoveredHeader b r pre.length par = .ok
      { x.1 with ptsNs := t.1, sampleOffset := t.2 } := by
    have hversion : first.2.version = x.1.version := by
      rw [← hfirst, (hbuilt p hp).version, (hbuilt x hxds).version]
    have hshared := hu.shared p hp x hxds
    rw [hfirst] at hshared
    have hindex : UInt8.ofNat pre.length = x.1.fecIndex := by
      rw [← hidx]
      simp
    rw [recoveredHeader, synthesizeHeader, hs, hk, hpay]
    dsimp only
    rw [bind_of_ok _ ht, hversion, hshared.1, hshared.2, hb, hsize, Option.getD_some, ← hseq,
      hindex, ← (hbuilt x hxds).payloadLen, ← hu.flags x hxds, ← (hbuilt x hxds).lenXor,
      ← (hgroup.group.mem x hxds).2.2]
    rfl
  refine ⟨_, hheader, ?_⟩
  rw [← hiff]
  constructor
  · intro heq
    have hpts := congrArg AudioPacketHeader.ptsNs heq
    have hoff := congrArg AudioPacketHeader.sampleOffset heq
    exact Prod.ext hpts hoff
  · rintro rfl
    rfl

end Gap

/-! ## Reachable receivers -/

/-- `rebuild` fills the gap with that header. -/
theorem rebuild_eq (b : Build) {r : FecReceiver} {idx : Nat} {par : UInt16 × List UInt8}
    (hidx : r.rebuildIndex = some idx) :
    r.rebuild b par.1 par.2 = recoveredHeader b r idx par >>= fillGap b r idx par := by
  obtain ⟨pre, post, -, hs, -, rfl⟩ := of_rebuildIndex hidx
  have hfind : r.slots.findIdx? (·.isNone) = some pre.length := by rw [hs, findIdx?_oneGap]
  rw [FecReceiver.rebuild, hfind]
  rfl

/-- **The header of a recovered packet**, on the traffic of any zone that emits
fewer than 65536 packets. In whatever state a receiver is after any losses,
reorderings, duplications and flushes, when a packet completes a group that
lacks one, the feed fills the place of the lost packet `x`, under the
`recoveredHeader`; if the group is uniform then that header equals the lost
packet's in every field if and only if the group has at least three packets or all
its packets have the same timestamps. -/
theorem recovered_header_iff (b : Build) {z : Zone} (hz : Fresh z) {ops : List Zone.Op}
    (hops : ∀ op ∈ ops, OpOk op) (hlen : (z.emitted ops).length < 65536) {inputs : List Input}
    (hin : ∀ i ∈ inputs, Received (z.emitted ops) i) {r : FecReceiver} {out : List FecPacket}
    (hrun : run (FecReceiver.step b) .new inputs = .ok (r, out)) {p : FecPacket}
    (hp : p ∈ z.emitted ops) {s : FecReceiver} (hj : r.joined p = some s) {idx : Nat}
    (hidx : s.rebuildIndex = some idx) :
    ∃ q ∈ z.emitted ops, ∃ ds x par, SentParity (z.emitted ops) q ds ∧ ds[idx]? = some x ∧
      r.feed b p = s.rebuild b par.1 par.2 ∧
      s.rebuild b par.1 par.2 = recoveredHeader b s idx par >>= fillGap b s idx par ∧
      (Uniform ds → ∃ hd, recoveredHeader b s idx par = .ok hd ∧
        (hd = x.1 ↔ 3 ≤ ds.length ∨ SameTimes ds)) := by
  have hstream := fecStream_emitted hz hops hlen
  obtain ⟨hs, base, -, hb⟩ := (Tracks.of_run hstream hin hrun).joined hstream hp hj
  obtain ⟨pre, post, ⟨lx, pl⟩, hslots, hpar, rfl⟩ := of_rebuildIndex hidx
  obtain ⟨q, hq, -, rfl, rfl, rfl, hsize, x, hgroup⟩ := hs.gap hstream hb hslots hpar
  have hbuilt : ∀ y ∈ pre ++ x :: post, AsBuilt y := by
    intro y hy
    obtain ⟨hsent, hd, -⟩ := hgroup.group.mem y hy
    exact emitted_asBuilt hsent hd
  have hxds : x ∈ pre ++ x :: post := by simp
  obtain ⟨hxsent, hxd, -⟩ := hgroup.group.mem x hxds
  refine ⟨q, hq, pre ++ x :: post, x, (q.1.fecLenXor, q.2), hgroup, by simp, ?_,
    rebuild_eq b hidx, ?_⟩
  · have hone : missing s.slots = 1 := by rw [hslots, missing_oneGap]
    rw [feed_of_joined hj, tryComplete, if_neg (by omega), if_pos hone, hpar]
  · exact recoveredHeader_gap hgroup hbuilt (hstream.data x hxsent hxd).short hb hsize hslots rfl

/-- The parity of the pair. -/
def pairParity : FecPacket :=
  pairZone.parityPacket (audio 2000 [4, 5]) 1
    ⟨xorParity [[1, 2, 3], [4, 5]], lensXor [[1, 2, 3], [4, 5]]⟩

/-- The receiver that holds the first packet of the pair. -/
def halfPair : FecReceiver :=
  let d₀ := pairZone.dataPacket (audio 1000 [1, 2, 3])
  (FecReceiver.new.openGroup d₀).store d₀

/-- The second packet of the pair is lost, and the parity completes the group. -/
theorem recovered_header_iff_pair :
    let s := { halfPair with parity := some (pairParity.1.fecLenXor, pairParity.2) }
    ∃ q ∈ pairZone.emitted pairOps, ∃ ds x par, SentParity (pairZone.emitted pairOps) q ds ∧
      ds[1]? = some x ∧ halfPair.feed .debug pairParity = s.rebuild .debug par.1 par.2 ∧
      s.rebuild .debug par.1 par.2 =
        recoveredHeader .debug s 1 par >>= fillGap .debug s 1 par ∧
      (Uniform ds → ∃ hd, recoveredHeader .debug s 1 par = .ok hd ∧
        (hd = x.1 ↔ 3 ≤ ds.length ∨ SameTimes ds)) := by
  let inputs := packets [pairZone.dataPacket (audio 1000 [1, 2, 3])]
  have hin : ∀ i ∈ inputs, Received (pairZone.emitted pairOps) i := by
    intro i hi
    rw [List.mem_singleton.mp hi]
    show _ ∈ pairZone.emitted pairOps
    decide +kernel
  have hrun : run (FecReceiver.step .debug) .new inputs = .ok (halfPair, []) := by
    decide +kernel
  exact recovered_header_iff .debug fresh_pairZone opOk_pairOps (by decide +kernel) hin hrun
    (by decide +kernel) rfl (by decide +kernel)

/-- A uniform group of two, 1000 ns apart: the second packet is lost and comes
back with the timestamp of the first. -/
theorem pair_copies_timestamp :
    Uniform (dataOnly (pairZone.emitted pairOps)) ∧
      (dataOnly (pairZone.emitted pairOps)).map (·.1.ptsNs) = [1000, 2000] ∧
      ∃ r out, run (FecReceiver.step .release) .new (packets parityLast) = .ok (r, out) ∧
        out.map (·.2) = (dataOnly (pairZone.emitted pairOps)).map (·.2) ∧
        out.map (·.1.ptsNs) = [1000, 1000] := by
  have hpts : (dataOnly (pairZone.emitted pairOps)).map (·.1.ptsNs) = [1000, 2000] := by
    decide +kernel
  have hoff : (dataOnly (pairZone.emitted pairOps)).map (·.1.sampleOffset) = [0, 0] := by
    decide +kernel
  refine ⟨⟨by decide +kernel, by decide +kernel, ?_, ?_⟩, hpts, _, _, rfl, by decide +kernel,
    by decide +kernel⟩
  · rw [hpts]
    refine ⟨1000, 1000, ?_⟩
    rintro (_ | _ | i) v hv <;> simp at hv <;> subst hv <;> decide
  · rw [hoff]
    refine ⟨0, 0, ?_⟩
    rintro (_ | _ | i) v hv <;> simp at hv <;> subst hv <;> decide

end Oaat.Fec
