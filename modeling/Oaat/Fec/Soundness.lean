/-
Oaat.Fec.Soundness — a FEC receiver delivers only what was sent.

The network may lose, reorder and duplicate packets, and the receiver may be
flushed at any point. `Tracks sent r` ties the receiver to ONE group of the
sender: while a base is set, the slots hold packets of that group at their own
indices, the group size is the sender's, and the held parity is the group's.
It survives every step because a base names a single group of a stream of
fewer than 65536 packets (`FecStream`), so a straggler can only reopen the
group it came from.

The theorem about whole runs also says that a release build never fails on
such traffic.
-/
import Oaat.Fec.Stream

namespace Oaat.Fec

open Oaat.Core Oaat.Controller Oaat.Core.FecReceiver Oaat.Lib

/-- `p` carries the sequence and the payload of a data packet that was sent. -/
def Genuine (sent : List FecPacket) (p : FecPacket) : Prop :=
  ∃ q ∈ sent, isParity q = false ∧ q.1.sequence = p.1.sequence ∧ q.2 = p.2

/-- `p` is a data packet of the group `base`, of size `size`. -/
structure DataOf (sent : List FecPacket) (base : UInt16) (size : UInt8) (p : FecPacket) :
    Prop where
  mem : p ∈ sent
  data : isParity p = false
  size : p.1.fecGroupSize = size
  base : dataBase p = base

/-- The receiver holds packets of one group of `sent`, at their own places. -/
structure Tracks (sent : List FecPacket) (r : FecReceiver) : Prop where
  idle : r.baseSeq = none → r.slots = [] ∧ r.parity = none
  length : ∀ b, r.baseSeq = some b → r.slots.length = r.groupSize.toNat
  opener : ∀ b, r.baseSeq = some b → r.groupSize ≠ 0 ∧ ∃ p, DataOf sent b r.groupSize p
  slot : ∀ b, r.baseSeq = some b → ∀ (i : Nat) p, r.slots[i]? = some (some p) →
    DataOf sent b r.groupSize p ∧ p.1.fecIndex.toNat = i
  parity : ∀ b, r.baseSeq = some b → ∀ lx pl, r.parity = some (lx, pl) →
    ∃ q ∈ sent, isParity q = true ∧ parityBase q = b ∧ q.2 = pl ∧ q.1.fecLenXor = lx

section

variable {sent : List FecPacket} {r r' : FecReceiver} {out : List FecPacket}

/-- An idle receiver tracks nothing; this covers every closed group, whatever
the counters and the previous base. -/
theorem Tracks.of_idle (hb : r.baseSeq = none) (hs : r.slots = []) (hp : r.parity = none) :
    Tracks sent r where
  idle _ := ⟨hs, hp⟩
  length _ h := by rw [hb] at h; cases h
  opener _ h := by rw [hb] at h; cases h
  slot _ h := by rw [hb] at h; cases h
  parity _ h := by rw [hb] at h; cases h

/-- A group is never of one: its opener was sent with a size of at least two. -/
theorem Tracks.length_ne_one (hstream : FecStream sent) (h : Tracks sent r) :
    r.slots.length ≠ 1 := by
  cases hb : r.baseSeq with
  | none => rw [(h.idle hb).1]; simp
  | some b =>
    obtain ⟨hz, p, hp⟩ := h.opener b hb
    have htwo := (hstream.data p hp.mem hp.data).two_le (by rw [hp.size]; exact hz)
    rw [hp.size] at htwo
    rw [h.length b hb]
    omega

theorem Tracks.held_sent (h : Tracks sent r) {p : FecPacket} (hp : p ∈ r.held) :
    p ∈ sent ∧ isParity p = false := by
  obtain ⟨s, hs, hsp⟩ := List.mem_filterMap.mp hp
  rw [id_eq] at hsp
  subst hsp
  obtain ⟨i, hi⟩ := List.mem_iff_getElem?.mp hs
  cases hb : r.baseSeq with
  | none => rw [(h.idle hb).1] at hi; simp at hi
  | some b =>
    obtain ⟨hd, -⟩ := h.slot b hb i p hi
    exact ⟨hd.mem, hd.data⟩

theorem genuine_of_sent {p : FecPacket} (h : p ∈ sent ∧ isParity p = false) : Genuine sent p :=
  ⟨p, h.1, h.2, rfl, rfl⟩

theorem Tracks.flushed {b : Build} (h : Tracks sent r) (hf : Flushed b r r' out) :
    Tracks sent r' ∧ ∀ p ∈ out, Genuine sent p := by
  cases hf with
  | idle hb => exact ⟨h, by simp⟩
  | group base n hb hn =>
    exact ⟨Tracks.of_idle rfl rfl rfl, fun p hp => genuine_of_sent (h.held_sent hp)⟩

/-! ## Rebuilding -/

/-- The parity a tracking receiver holds covers the very group it assembles:
the slots are that group with one packet missing. -/
theorem Tracks.gap (hstream : FecStream sent) (h : Tracks sent r) {b : UInt16}
    (hb : r.baseSeq = some b) {pre post : List FecPacket} (hs : r.slots = oneGap pre post)
    {lx : UInt16} {pl : List UInt8} (hp : r.parity = some (lx, pl)) :
    ∃ q ∈ sent, isParity q = true ∧ parityBase q = b ∧ q.2 = pl ∧ q.1.fecLenXor = lx ∧
      r.groupSize = q.1.fecGroupSize ∧ ∃ x, SentParity sent q (pre ++ x :: post) := by
  obtain ⟨q, hq, hqp, hqb, rfl, rfl⟩ := h.parity b hb lx pl hp
  obtain ⟨ds, hds⟩ := hstream.parity q hq hqp
  obtain ⟨hz, p₀, hp₀⟩ := h.opener b hb
  have hsize : r.groupSize = q.1.fecGroupSize := by
    rw [← hp₀.size]
    exact (hds.eq_getElem hstream hp₀.mem hp₀.data (by rw [hp₀.size]; exact hz)
      (by rw [hp₀.base, hqb])).1
  have hlen : ds.length = (oneGap pre post).length := by
    rw [← hs, h.length b hb, hds.length, hsize]
  obtain ⟨x, rfl⟩ := eq_of_oneGap hlen fun i p hi => by
    obtain ⟨hd, hidx⟩ := h.slot b hb i p (by rw [hs]; exact hi)
    rw [← hidx]
    exact (hds.eq_getElem hstream hd.mem hd.data (by rw [hd.size]; exact hz)
      (by rw [hd.base, hqb])).2
  exact ⟨q, hq, hqp, hqb, rfl, rfl, hsize, x, hds⟩

/-- The packet missing from the gap, and what the parity says of it. -/
theorem Tracks.missing_packet (hstream : FecStream sent) (h : Tracks sent r) {b : UInt16}
    (hb : r.baseSeq = some b) {pre post : List FecPacket} (hs : r.slots = oneGap pre post)
    {lx : UInt16} {pl : List UInt8} (hp : r.parity = some (lx, pl)) :
    ∃ x ∈ sent, isParity x = false ∧ dataBase x = b ∧
      x.1.sequence = b + UInt16.ofNat pre.length ∧
      pl = xorParity ((pre ++ x :: post).map (·.2)) ∧
      lx = lensXor ((pre ++ x :: post).map (·.2)) := by
  obtain ⟨q, -, -, hqb, rfl, rfl, -, x, hds⟩ := h.gap hstream hb hs hp
  have hxds : x ∈ pre ++ x :: post := by simp
  obtain ⟨hmem, hdata, -⟩ := hds.group.mem x hxds
  have hi : (pre ++ x :: post)[pre.length]? = some x := by simp
  refine ⟨x, hmem, hdata, by rw [hds.group.base_eq hxds, hqb], ?_, hds.payload, hds.lenXor⟩
  rw [(hds.group.position _ _ hi).2, hqb]

theorem Tracks.completion {b : Build} (hstream : FecStream sent) (h : Tracks sent r)
    {base : UInt16} (hb : r.baseSeq = some base) (hc : Completion b r r' out) :
    Tracks sent r' ∧ ∀ p ∈ out, Genuine sent p := by
  cases hc with
  | complete hm hne =>
    exact ⟨Tracks.of_idle rfl rfl rfl, fun p hp => genuine_of_sent (h.held_sent hp)⟩
  | rebuilt pre post lx pl hd n hs hp hh hn =>
    refine ⟨Tracks.of_idle rfl rfl rfl, ?_⟩
    intro p hmem
    obtain ⟨x, hx, hxd, -, hxs, rfl, rfl⟩ := h.missing_packet hstream hb hs hp
    have hheld : ∀ p ∈ pre ++ post, Genuine sent p := fun p hp =>
      genuine_of_sent (h.held_sent (by rw [held, hs, filterMap_oneGap]; exact hp))
    rcases List.mem_append.mp hmem with hpre | hrest
    · exact hheld p (List.mem_append_left _ hpre)
    · rcases List.mem_cons.mp hrest with rfl | hpost
      · obtain ⟨len, hlen⟩ := hh
        refine ⟨x, hx, hxd, ?_, ?_⟩
        · rw [(synthesizeHeader_fields hlen).1, hb, hxs]; rfl
        · have := rebuiltPayload_eq (pre.map (·.2)) (post.map (·.2)) x.2
            (hstream.data x hx hxd).short
          simpa using this.symm
      · exact hheld p (List.mem_append_right _ hpost)
  | wait hm hp => exact ⟨h, by simp⟩

/-! ## One step -/

theorem Tracks.openGroup {p : FecPacket} (hp : p ∈ sent)
    (hd : isParity p = false) (hz : p.1.fecGroupSize ≠ 0) : Tracks sent (r.openGroup p) where
  idle h := by simp [FecReceiver.openGroup] at h
  length b _ := by simp [FecReceiver.openGroup]
  opener b h := by
    simp only [FecReceiver.openGroup, Option.some.injEq] at h
    exact ⟨hz, p, hp, hd, rfl, h⟩
  slot b _ i q hi := by
    simp only [FecReceiver.openGroup, List.getElem?_replicate] at hi
    split at hi <;> simp at hi
  parity b _ lx pl h := by simp [FecReceiver.openGroup] at h

theorem Tracks.store (hstream : FecStream sent) (h : Tracks sent r) {p : FecPacket}
    (hp : p ∈ sent) (hd : isParity p = false) (hz : p.1.fecGroupSize ≠ 0)
    (hb : r.baseSeq = some (dataBase p)) : Tracks sent (r.store p) := by
  unfold FecReceiver.store
  split
  · rename_i hlt
    refine ⟨fun h' => by simp [hb] at h', fun b h' => by simpa using h.length b h',
      h.opener, ?_, h.parity⟩
    intro b h' i q hi
    simp only [List.getElem?_set] at hi
    split at hi
    · rename_i heq
      -- the slot just filled: `p` has the size its base was opened with
      obtain rfl : p = q := by simpa using hi
      obtain ⟨hz₀, p₀, hp₀⟩ := h.opener b h'
      have hbase : dataBase p = b := by rw [hb] at h'; exact Option.some.inj h'
      refine ⟨⟨hp, hd, ?_, hbase⟩, heq⟩
      rw [← hp₀.size]
      exact hstream.same_size hp hp₀.mem hd hp₀.data hz (by rw [hp₀.size]; exact hz₀)
        (by rw [hbase, hp₀.base])
    · exact h.slot b h' i q hi
  · exact h

theorem Tracks.setParity (h : Tracks sent r) {q : FecPacket} (hq : q ∈ sent)
    (hp : isParity q = true) (hb : r.baseSeq = some (parityBase q)) :
    Tracks sent { r with parity := some (q.1.fecLenXor, q.2) } where
  idle h' := by simp [hb] at h'
  length := h.length
  opener := h.opener
  slot := h.slot
  parity b h' lx pl heq := by
    simp only [Option.some.injEq, Prod.mk.injEq] at heq
    obtain ⟨rfl, rfl⟩ := heq
    rw [hb] at h'
    exact ⟨q, hq, hp, Option.some.inj h', rfl, rfl⟩

/-- One packet of the stream, fed at any time, keeps the receiver tracking and
delivers only what was sent. -/
theorem Tracks.fed {b : Build} (hstream : FecStream sent) (h : Tracks sent r) {p : FecPacket}
    (hp : p ∈ sent) (hf : Fed b r p r' out) :
    Tracks sent r' ∧ ∀ q ∈ out, Genuine sent q := by
  cases hf with
  | plain hz hd hf =>
    obtain ⟨ht, hg⟩ := h.flushed hf
    refine ⟨ht, ?_⟩
    intro q hq
    rcases List.mem_append.mp hq with hq | hq
    · exact hg q hq
    · rw [List.mem_singleton.mp hq]; exact genuine_of_sent ⟨hp, hd⟩
  | strayParity hpar hb => exact ⟨h, by simp⟩
  | parity hpar hb hc => exact (h.setParity hp hpar hb).completion hstream hb hc
  | straggler hz hd hprev hb =>
    exact ⟨h, fun q hq => by rw [List.mem_singleton.mp hq]; exact genuine_of_sent ⟨hp, hd⟩⟩
  | switch hz hd hprev hb hf hc =>
    rename_i r₁ o₁ o₂
    obtain ⟨-, hg⟩ := h.flushed hf
    have hopen : Tracks sent (r₁.openGroup p) := Tracks.openGroup hp hd hz
    have hbase : ((r₁.openGroup p).store p).baseSeq = some (dataBase p) := by
      rw [store_baseSeq]; rfl
    obtain ⟨ht, hg'⟩ := (hopen.store hstream hp hd hz rfl).completion hstream hbase hc
    refine ⟨ht, ?_⟩
    intro q hq
    rcases List.mem_append.mp hq with hq | hq
    · exact hg q hq
    · exact hg' q hq
  | same hz hd hb hc =>
    have hbase : (r.store p).baseSeq = some (dataBase p) := by rw [store_baseSeq, hb]
    exact (h.store hstream hp hd hz hb).completion hstream hbase hc

/-! ## Whole runs -/

/-- The receptions a network can produce from `sent`: copies of its packets,
with flushes in between. -/
def Received (sent : List FecPacket) : Input → Prop
  | .packet p => p ∈ sent
  | .flush => True

theorem Tracks.step (hstream : FecStream sent) (h : Tracks sent r) {i : Input}
    (hi : Received sent i) :
    ∃ r' out, FecReceiver.step .release r i = .ok (r', out) ∧ Tracks sent r' ∧
      ∀ p ∈ out, Genuine sent p := by
  cases i with
  | packet p =>
    have hsize : p.1.fecGroupSize ≠ 1 := by
      intro h1
      cases hd : isParity p with
      | false =>
        have := (hstream.data p hi hd).two_le (by rw [h1]; decide)
        rw [h1] at this
        simp at this
      | true =>
        obtain ⟨ds, hds⟩ := hstream.parity p hi hd
        have := hds.two_le
        rw [h1] at this
        simp at this
    obtain ⟨⟨r', out⟩, hf⟩ := feed_release (h.length_ne_one hstream) hsize
    exact ⟨r', out, hf, h.fed hstream hi (feed_cases hf)⟩
  | flush =>
    obtain ⟨⟨r', out⟩, hf⟩ := flush_release r
    obtain ⟨ht, hg⟩ := h.flushed (flush_cases hf)
    exact ⟨r', out, hf, ht, hg⟩

/-- Every state a receiver reaches on the traffic of a stream tracks it, and what it
delivered on the way was sent. -/
theorem Tracks.run {b : Build} (hstream : FecStream sent) {inputs : List Input}
    (hin : ∀ i ∈ inputs, Received sent i)
    (hrun : run (FecReceiver.step b) .new inputs = .ok (r, out)) :
    Tracks sent r ∧ ∀ p ∈ out, Genuine sent p := by
  have hstep : ∀ s i s' o, Tracks sent s → Received sent i →
      FecReceiver.step b s i = .ok (s', o) → Tracks sent s' ∧ ∀ x ∈ o, Genuine sent x := by
    intro s i s' o hs hi hstep
    cases i with
    | packet p => exact hs.fed hstream hi (feed_cases hstep)
    | flush => exact hs.flushed (flush_cases hstep)
  exact run_keeps hstep (Tracks.of_idle rfl rfl rfl)
    (along_of_forall fun i hi _ => hin i hi) hrun

theorem Tracks.of_run {b : Build} (hstream : FecStream sent) {inputs : List Input}
    (hin : ∀ i ∈ inputs, Received sent i)
    (hrun : Lib.run (FecReceiver.step b) .new inputs = .ok (r, out)) : Tracks sent r :=
  (Tracks.run hstream hin hrun).1

/-- Without overflow checks a receiver comes to the end of any receptions. -/
theorem Tracks.run_release (hstream : FecStream sent) {inputs : List Input}
    (hin : ∀ i ∈ inputs, Received sent i) :
    ∃ x, Lib.run (FecReceiver.step .release) .new inputs = .ok x := by
  have hnew : Tracks sent .new := Tracks.of_idle rfl rfl rfl
  have hstep : ∀ r i, Tracks sent r → Received sent i →
      ∃ r' out, FecReceiver.step .release r i = .ok (r', out) ∧ Tracks sent r' ∧
        ∀ p ∈ out, Genuine sent p := fun r i hr hi => hr.step hstream hi
  obtain ⟨r, out, hrun, -⟩ := run_invariant hstep inputs .new hnew hin
  exact ⟨_, hrun⟩

end

/-- **Soundness under an arbitrary network.** Whatever a sender run of fewer
than 65536 packets emits, and whatever the network makes of it, every packet
the receiver delivers carries the sequence and the payload bytes of a data
packet that was sent. Without overflow checks the receiver comes to the end of
the receptions; in either build this holds of all it delivered up to any point
that it comes to. -/
theorem receiver_delivers_only_sent {z : Zone} (hz : Fresh z) {ops : List Zone.Op}
    (hops : ∀ op ∈ ops, OpOk op) (hlen : (z.emitted ops).length < 65536) (inputs : List Input)
    (hin : ∀ i ∈ inputs, Received (z.emitted ops) i) :
    (∃ x, run (FecReceiver.step .release) .new inputs = .ok x) ∧
      ∀ b part r out, part <+: inputs → run (FecReceiver.step b) .new part = .ok (r, out) →
        ∀ p ∈ out, ∃ q ∈ z.emitted ops, isParity q = false ∧
          q.1.sequence = p.1.sequence ∧ q.2 = p.2 := by
  have hstream := fecStream_emitted hz hops hlen
  refine ⟨Tracks.run_release hstream hin, ?_⟩
  intro b part r out hpart hrun
  have hpin : ∀ i ∈ part, Received (z.emitted ops) i := fun i hi => hin i (hpart.subset hi)
  exact (Tracks.run hstream hpin hrun).2

/-- The pair of packets and its parity, every one received twice and in the
wrong order, with a flush in the middle. -/
def scrambledPair : List Input :=
  let arrivals := (pairZone.emitted pairOps).reverse.map Input.packet
  arrivals ++ .flush :: arrivals

theorem receiver_delivers_only_sent_scrambled :
    (∃ x, run (FecReceiver.step .release) .new scrambledPair = .ok x) ∧
      ∀ b part r out, part <+: scrambledPair → run (FecReceiver.step b) .new part = .ok (r, out) →
        ∀ p ∈ out, ∃ q ∈ pairZone.emitted pairOps, isParity q = false ∧
          q.1.sequence = p.1.sequence ∧ q.2 = p.2 := by
  refine receiver_delivers_only_sent fresh_pairZone opOk_pairOps (by decide +kernel)
    scrambledPair ?_
  intro i hi
  simp only [scrambledPair, List.mem_append, List.mem_cons, List.mem_map, List.mem_reverse] at hi
  rcases hi with ⟨p, hp, rfl⟩ | rfl | ⟨p, hp, rfl⟩
  · exact hp
  · exact trivial
  · exact hp

end Oaat.Fec
