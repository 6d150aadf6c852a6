/-
Oaat.Fec.Transparency — the audio path without loss is the identity.

Sender and receiver are run side by side. `InStep z r` relates a zone to a
receiver that has been given everything the zone sent so far: with FEC off
nothing is required, and with FEC on the receiver stands to the encoder's
open group in one of three ways (`Following`). It has seen nothing of it; it
holds exactly the packets sent of it; or it gave the group up at a
`LAST_PACKET` and passes the rest of it through as stragglers.

Each call then delivers the data packet, or holds it back:

    delivered ++ held after  =  held before ++ data packets of the call.

A group may be taken for a new one only if its base is not remembered from
before. Between calls of `sendAudioAll` that is so for any number of wraps of
the sequence; `enableFec` in the middle of a stream needs the stream to stay
below 65536 packets (`Between`).

Nothing is ever rebuilt, so of the machine arithmetic only the count of lost
packets remains. With overflow checks it needs room: a call adds at most the
slots of one group to it (`lostIfFlushed`).
-/
import Oaat.Endpoint.AudioReceive
import Oaat.Fec.Recovery

namespace Oaat.Fec

open Oaat.Core Oaat.Controller Oaat.Endpoint Oaat.Core.FecReceiver Oaat.Lib

/-! ## One data packet -/

/-- How a receiver stands to the group `base` of which `ds` were sent. -/
inductive Following (base : UInt16) (size : Nat) (ds : List FecPacket) (r : FecReceiver) : Prop
  | fresh (hnil : ds = []) (hb : r.baseSeq ≠ some base) (hp : r.prevBaseSeq ≠ some base)
  | assembling (hne : ds ≠ []) (hb : r.baseSeq = some base)
      (hs : r.slots = ds.map some ++ List.replicate (size - ds.length) none)
      (hpar : r.parity = none)
  | straggling (hne : ds ≠ []) (hb : r.baseSeq = none) (hp : r.prevBaseSeq = some base)

/-- The count of lost packets, once the group under assembly is given up. -/
def lostIfFlushed (r : FecReceiver) : Nat := r.lost + missing r.slots

/-- The receiver `r` was given the data packet `p`, sent as sequence `next`, and
became `r'` with output `out`. -/
structure Passed (r : FecReceiver) (p : FecPacket) (next : UInt16) (r' : FecReceiver)
    (out : List FecPacket) : Prop where
  output : out ++ r'.held = r.held ++ [p]
  idle : r'.baseSeq = none → r'.slots = []
  recovered : r'.recovered = r.recovered
  lost : lostIfFlushed r' ≤ lostIfFlushed r + 16
  bases : ∀ x, r'.baseSeq = some x ∨ r'.prevBaseSeq = some x →
    x = next ∨ r.baseSeq = some x ∨ r.prevBaseSeq = some x

section Packet

variable {b : Build} {r r' : FecReceiver} {base : UInt16} {size : Nat} {ds : List FecPacket}
  {p : FecPacket}

theorem flush_returns (hroom : b = .debug → lostIfFlushed r < 2 ^ 64) :
    ∃ x, r.flush b = .ok x := by
  cases b with
  | release => exact flush_release r
  | debug => exact flush_ok.mpr (.inr ⟨_, Build.u64_of_fits _ (hroom rfl)⟩)

theorem flushed_lost {out : List FecPacket} (hf : Flushed b r r' out) :
    lostIfFlushed r' ≤ lostIfFlushed r := by
  cases hf with
  | idle hb => exact Nat.le_refl _
  | group base n hb hn => exact Build.u64_le hn

/-- Everything that flushing does to a receiver but for the count of losses. -/
theorem flushed_idle {out : List FecPacket} (hidle : r.baseSeq = none → r.slots = [])
    (hf : Flushed b r r' out) :
    out = r.held ∧ r'.baseSeq = none ∧ r'.slots = [] ∧ r'.recovered = r.recovered ∧
      (r.baseSeq = none → r' = r) ∧
      (∀ base, r.baseSeq = some base → r'.prevBaseSeq = some base) := by
  cases hf with
  | idle hb =>
    refine ⟨by simp [FecReceiver.held, hidle hb], hb, hidle hb, rfl, fun _ => rfl, ?_⟩
    intro x hx
    rw [hb] at hx
    cases hx
  | group base n hb hn =>
    refine ⟨rfl, rfl, rfl, rfl, ?_, fun x hx => hx⟩
    intro h
    rw [hb] at h
    cases h

theorem missing_next (hs : r.slots = ds.map some ++ List.replicate (size - ds.length) none) :
    missing r.slots = size - ds.length := by
  rw [hs, missing_append, missing_map_some, missing_replicate_none, Nat.zero_add]

theorem slots_store_next (hs : r.slots = ds.map some ++ List.replicate (size - ds.length) none)
    (hlt : ds.length < size) (hidx : p.1.fecIndex.toNat = ds.length) :
    (r.store p).slots =
      (ds ++ [p]).map some ++ List.replicate (size - (ds ++ [p]).length) none ∧
    (r.store p).held = ds ++ [p] := by
  have hs' : r.slots = ds.map some ++ List.replicate (size - (ds.map some).length) none := by
    simpa using hs
  have hstore := store_next hs' (by simpa using hlt) (by simpa using hidx)
  constructor
  · rw [hstore]; simp
  · rw [FecReceiver.held, hstore]; simp

/-- The next packet of a group held from its start completes it or waits. -/
theorem tryComplete_next
    (hs : r.slots = ds.map some ++ List.replicate (size - ds.length) none) (hpar : r.parity = none)
    (hlt : ds.length < size) (hidx : p.1.fecIndex.toNat = ds.length) :
    (r.store p).tryComplete b =
      if ds.length + 1 = size then .ok ((r.store p).closed, ds ++ [p])
      else .ok (r.store p, []) := by
  obtain ⟨hslots, hheld⟩ := slots_store_next hs hlt hidx
  have hm : missing (r.store p).slots = size - (ds.length + 1) := by
    rw [missing_next hslots]
    simp
  rw [tryComplete_noParity (by rw [store_parity]; exact hpar), hm, hheld]
  by_cases hfull : ds.length + 1 = size
  · rw [if_pos ⟨by omega, by rw [hslots]; simp⟩, if_pos hfull]
  · rw [if_neg fun h => by omega, if_neg hfull]

/-- Feeding the next packet of the group that the receiver follows. -/
theorem Following.feed {next : UInt16} (h : Following base size ds r)
    (hidle : r.baseSeq = none → r.slots = []) (hlt : ds.length < size)
    (hsize : 2 ≤ size ∧ size ≤ 16) (hnext : ds = [] → next = base)
    (hp : PlacedAt base size ds.length p) (hroom : b = .debug → lostIfFlushed r < 2 ^ 64) :
    ∃ r' out, r.feed b p = .ok (r', out) ∧ Passed r p next r' out ∧
      Following base size (ds ++ [p]) r' ∧ (ds.length + 1 = size → r'.baseSeq = none) := by
  obtain ⟨htwo, hmax⟩ := hsize
  have hz : p.1.fecGroupSize ≠ 0 := hp.size_ne_zero (by omega)
  obtain ⟨hd, hsize, hidx, hbase⟩ := hp
  cases h with
  | fresh hnil hb hprev =>
    subst hnil
    obtain ⟨⟨r₁, o₁⟩, hflush⟩ := flush_returns hroom
    have hlost : r₁.lost ≤ lostIfFlushed r :=
      Nat.le_trans (Nat.le_add_right _ _) (flushed_lost (flush_cases hflush))
    obtain ⟨rfl, -, -, hrec, hsame, hclosed⟩ := flushed_idle hidle (flush_cases hflush)
    have hopen : (r₁.openGroup p).slots = ([] : List FecPacket).map some ++
        List.replicate (size - ([] : List FecPacket).length) none := by
      simp [FecReceiver.openGroup, hsize]
    have htry := tryComplete_next (b := b) hopen rfl hlt hidx
    rw [if_neg (by simp; omega)] at htry
    obtain ⟨hslots, hheld⟩ := slots_store_next hopen hlt hidx
    have hb' : ((r₁.openGroup p).store p).baseSeq = some base := by
      rw [store_baseSeq, ← hbase]; rfl
    refine ⟨_, r.held ++ [], ?_, ⟨?_, ?_, ?_, ?_, ?_⟩,
      .assembling (by simp) hb' hslots (by rw [store_parity]; rfl),
      fun hfull => by simp at hfull; omega⟩
    · rw [feed_switch hd hz (by rw [hbase]; exact hprev) (by rw [hbase]; exact hb),
        bind_of_ok _ hflush, bind_of_ok _ htry]
      rfl
    · rw [hheld, List.append_nil, List.nil_append]
    · intro hn; rw [hb'] at hn; cases hn
    · rw [store_recovered]; exact hrec
    · rw [lostIfFlushed, store_lost, missing_next hslots]
      show r₁.lost + (size - _) ≤ _
      omega
    · rintro x (hx | hx)
      · left
        rw [hnext rfl, ← Option.some.inj (hb'.symm.trans hx)]
      · have hx' : r₁.prevBaseSeq = some x := by rw [store_prevBaseSeq] at hx; exact hx
        cases hrb : r.baseSeq with
        | none => rw [hsame hrb] at hx'; exact .inr (.inr hx')
        | some y => exact .inr (.inl (by rw [← hclosed y hrb]; exact hx'))
  | assembling hne hb hs hpar =>
    have htry := tryComplete_next (b := b) hs hpar hlt hidx
    obtain ⟨hslots, hheld⟩ := slots_store_next hs hlt hidx
    have hfeed : r.feed b p = (r.store p).tryComplete b :=
      feed_same hd hz (by rw [hbase]; exact hb)
    have hold : r.held = ds := by rw [FecReceiver.held, hs]; simp
    by_cases hfull : ds.length + 1 = size
    · rw [if_pos hfull] at htry
      refine ⟨_, _, hfeed.trans htry, ⟨?_, fun _ => rfl, ?_, ?_, ?_⟩,
        .straggling (by simp) rfl ?_, fun _ => rfl⟩
      · rw [hold]
        simp [FecReceiver.held, FecReceiver.closed]
      · exact store_recovered r p
      · show (r.store p).lost + missing [] ≤ r.lost + missing r.slots + 16
        rw [store_lost]
        exact Nat.le_trans (Nat.le_add_right _ _) (Nat.le_add_right _ _)
      · rintro x (hx | hx)
        · cases hx
        · exact .inr (.inl ((store_baseSeq r p).symm.trans hx))
      · exact (store_baseSeq r p).trans hb
    · rw [if_neg hfull] at htry
      refine ⟨_, _, hfeed.trans htry, ⟨?_, ?_, ?_, ?_, ?_⟩,
        .assembling (by simp) (by rw [store_baseSeq]; exact hb) hslots
          (by rw [store_parity]; exact hpar),
        fun h => absurd h hfull⟩
      · rw [hheld, hold, List.nil_append]
      · intro hn; rw [store_baseSeq, hb] at hn; cases hn
      · exact store_recovered r p
      · rw [lostIfFlushed, lostIfFlushed, store_lost, missing_next hslots, missing_next hs,
          List.length_append]
        omega
      · intro x hx
        rw [store_baseSeq, store_prevBaseSeq] at hx
        exact .inr hx
  | straggling hne hb hprev =>
    refine ⟨r, [p], feed_straggler hd hz (by rw [hbase]; exact hprev) (by rw [hb]; simp),
      ⟨?_, hidle, rfl, Nat.le_add_right _ _, fun x hx => .inr hx⟩,
      .straggling (by simp) hb hprev, fun _ => hb⟩
    simp [FecReceiver.held, hidle hb]

/-- Flushing after the packet, as `LAST_PACKET` asks. -/
theorem Passed.flush {next : UInt16} {r'' : FecReceiver} {out rest : List FecPacket}
    (h : Passed r p next r' out) (hf : Flushed b r' r'' rest) :
    Passed r p next r'' (out ++ rest) := by
  obtain ⟨rfl, hb, hs, hrec, hsame, hclosed⟩ := flushed_idle h.idle hf
  refine ⟨?_, fun _ => hs, hrec.trans h.recovered, Nat.le_trans (flushed_lost hf) h.lost, ?_⟩
  · rw [← h.output, FecReceiver.held, FecReceiver.held, hs]
    simp
  · intro x hx
    cases hrb : r'.baseSeq with
    | none => rw [hsame hrb] at hx; exact h.bases x hx
    | some y =>
      rw [hb, hclosed y hrb] at hx
      rcases hx with hx | hx
      · cases hx
      · exact h.bases x (.inl (by rw [hrb, hx]))

theorem Following.flush {out : List FecPacket} (h : Following base size ds r)
    (hne : ds ≠ []) (hidle : r.baseSeq = none → r.slots = []) (hf : Flushed b r r' out) :
    Following base size ds r' := by
  obtain ⟨-, hb, -, -, hsame, hclosed⟩ := flushed_idle hidle hf
  cases h with
  | fresh hnil => exact absurd hnil hne
  | assembling _ hb' => exact .straggling hne hb (hclosed base hb')
  | straggling _ hb' hp => exact .straggling hne hb (by rw [hsame hb']; exact hp)

/-- `feedAndFlush` of a packet that `feed` passes on. -/
theorem feedAndFlush_of_feed {next : UInt16} {out : List FecPacket}
    (hfeed : r.feed b p = .ok (r', out)) (h : Passed r p next r' out)
    (hroom : b = .debug → lostIfFlushed r + 16 < 2 ^ 64) :
    ∃ r'' out', feedAndFlush b r p = .ok (r'', out') ∧ Passed r p next r'' out' ∧
      (r'' = r' ∨ ∃ rest, Flushed b r' r'' rest) := by
  cases hlast : p.1.flags.contains PacketFlags.lastPacket with
  | true =>
    obtain ⟨⟨r'', rest⟩, hflush⟩ :=
      flush_returns fun hb => Nat.lt_of_le_of_lt h.lost (hroom hb)
    have hf := flush_cases hflush
    exact ⟨r'', out ++ rest, feedAndFlush_last hlast hfeed hflush, h.flush hf, .inr ⟨rest, hf⟩⟩
  | false => exact ⟨r', out, feedAndFlush_more hlast hfeed, h, .inl rfl⟩

/-- **A data packet of a group**, with or without `LAST_PACKET`. -/
theorem Following.receive (next : UInt16) (h : Following base size ds r)
    (hidle : r.baseSeq = none → r.slots = []) (hlt : ds.length < size)
    (hsize : 2 ≤ size ∧ size ≤ 16) (hnext : ds = [] → next = base)
    (hp : PlacedAt base size ds.length p) (hroom : b = .debug → lostIfFlushed r + 16 < 2 ^ 64) :
    ∃ r' out, feedAndFlush b r p = .ok (r', out) ∧ Passed r p next r' out ∧
      Following base size (ds ++ [p]) r' ∧ (ds.length + 1 = size → r'.baseSeq = none) := by
  obtain ⟨r₁, o₁, hfeed, hpass, hfol, hfull⟩ := h.feed hidle hlt hsize hnext hp
    fun hb => Nat.lt_of_le_of_lt (Nat.le_add_right _ _) (hroom hb)
  obtain ⟨r₂, o₂, hrun, hpass₂, rfl | ⟨rest, hf⟩⟩ := feedAndFlush_of_feed hfeed hpass hroom
  · exact ⟨r₂, o₂, hrun, hpass₂, hfol, hfull⟩
  · exact ⟨r₂, o₂, hrun, hpass₂, hfol.flush (by simp) hpass.idle hf,
      fun _ => (flushed_idle hpass.idle hf).2.1⟩

/-- **A data packet without FEC.** -/
theorem receive_plain (next : UInt16) (hidle : r.baseSeq = none → r.slots = [])
    (hd : isParity p = false) (hz : p.1.fecGroupSize = 0)
    (hroom : b = .debug → lostIfFlushed r + 16 < 2 ^ 64) :
    ∃ r' out, feedAndFlush b r p = .ok (r', out) ∧ Passed r p next r' out := by
  obtain ⟨⟨r₁, o₁⟩, hflush⟩ :=
    flush_returns fun hb => Nat.lt_of_le_of_lt (Nat.le_add_right _ _) (hroom hb)
  have hlost := flushed_lost (flush_cases hflush)
  obtain ⟨rfl, hb, hs, hrec, hsame, hclosed⟩ := flushed_idle hidle (flush_cases hflush)
  have hfeed : r.feed b p = .ok (r₁, r.held ++ [p]) := by
    rw [feed_plain hd hz, bind_of_ok _ hflush]
    rfl
  have hpass : Passed r p next r₁ (r.held ++ [p]) := by
    refine ⟨by simp [FecReceiver.held, hs], fun _ => hs, hrec, by omega, ?_⟩
    intro x hx
    cases hrb : r.baseSeq with
    | none => rw [hsame hrb, hrb] at hx; exact .inr hx
    | some y =>
      rw [hb, hclosed y hrb] at hx
      rcases hx with hx | hx
      · cases hx
      · exact .inr (.inl hx)
  obtain ⟨r₂, o₂, hrun, hpass₂, -⟩ := feedAndFlush_of_feed hfeed hpass hroom
  exact ⟨r₂, o₂, hrun, hpass₂⟩

/-- A parity that comes after its group was given out is dropped. -/
theorem receive_parity {q : FecPacket} (hq : isParity q = true)
    (hlast : q.1.flags.contains PacketFlags.lastPacket = false) (hb : r.baseSeq = none) :
    feedAndFlush b r q = .ok (r, []) :=
  feedAndFlush_more hlast (feed_stray hq (by rw [hb]; simp))

end Packet

/-! ## One call of the sender -/

/-- The receiver has been given everything that the zone sent. -/
structure InStep (z : Zone) (r : FecReceiver) : Prop where
  idle : r.baseSeq = none → r.slots = []
  recovered : r.recovered = 0
  group : ∀ enc, z.fecEncoder = some enc → ∃ ds, enc.Holds (ds.map (·.2)) ∧
    (∀ p ∈ ds, p.2.length ≤ MAX_AUDIO_PAYLOAD) ∧
    Following (z.sequence - UInt16.ofNat ds.length) enc.groupSize.val.toNat ds r

/-- What the application promises about a call: declared flags without FEC, and a
payload that fits a datagram. -/
structure CallOk (a : AudioArgs) : Prop where
  noFec : a.flags.contains PacketFlags.fec = false
  declared : a.flags.Declared
  fits : a.payload.length ≤ MAX_AUDIO_PAYLOAD

theorem sendable_dataPacket (z : Zone) {a : AudioArgs} (ha : CallOk a) :
    Sendable (z.dataPacket a) := ⟨rfl, ha.declared, ha.fits, rfl⟩

theorem sendable_parityPacket (z : Zone) (a : AudioArgs) (s : UInt16)
    (payloads : List (List UInt8)) (x : UInt16)
    (h : ∀ l ∈ payloads, l.length ≤ MAX_AUDIO_PAYLOAD) :
    Sendable (z.parityPacket a s ⟨xorParity payloads, x⟩) :=
  ⟨rfl, Zone.declared_parityPacket _ _ _ _, length_parityOf_le _ _ h, rfl⟩

theorem lastPacket_parityPacket (z : Zone) (a : AudioArgs) (s : UInt16) (par : FecParity) :
    (z.parityPacket a s par).1.flags.contains PacketFlags.lastPacket = false := by
  simp only [Zone.parityPacket]
  decide

theorem dataOnly_sendAudioAll (z : Zone) {a : AudioArgs} (ha : CallOk a) :
    dataOnly (z.sendAudioAll a).2 = [z.dataPacket a] := by
  have hd := isParity_dataPacket z ha.noFec
  unfold Zone.sendAudioAll
  split
  · simp [dataOnly, hd]
  · split
    · simp [dataOnly, hd]
    · simp [dataOnly, hd, isParity_parityPacket]

theorem placedAt_dataPacket {z : Zone} {enc : FecEncoder} {a : AudioArgs} {ds : List FecPacket}
    (henc : z.fecEncoder = some enc) (hh : enc.Holds (ds.map (·.2))) (ha : CallOk a) :
    PlacedAt (z.sequence - UInt16.ofNat ds.length) enc.groupSize.val.toNat ds.length
      (z.dataPacket a) := by
  have hidx : (z.dataPacket a).1.fecIndex.toNat = ds.length := by
    simpa [Zone.dataPacket, Zone.fecFields, henc, FecEncoder.nextIndex] using hh.count
  refine ⟨isParity_dataPacket z ha.noFec, by simp [Zone.dataPacket, Zone.fecFields, henc], hidx, ?_⟩
  rw [dataBase, ← UInt16.ofNat_uInt8ToNat, hidx]
  rfl

/-- The loop over the datagrams of one call, as seen by proofs: it returns, the
output accounts for the data packets `data`, and nothing was ever rebuilt. -/
structure Handled (b : Build) (s : AudioLoop) (sent data : List FecPacket) (next : UInt16)
    (s' : AudioLoop) (out : List FecPacket) : Prop where
  run : run (audioReceive b) s (sent.map datagram) = .ok (s', out)
  quiet : Along (audioReceive b) (fun t _ => t.fecRx.recovered = 0) s (sent.map datagram)
  output : out ++ s'.fecRx.held = s.fecRx.held ++ data
  lost : lostIfFlushed s'.fecRx ≤ lostIfFlushed s.fecRx + 16
  bases : ∀ x, s'.fecRx.baseSeq = some x ∨ s'.fecRx.prevBaseSeq = some x →
    x = next ∨ s.fecRx.baseSeq = some x ∨ s.fecRx.prevBaseSeq = some x

section Call

variable {b : Build}

theorem audioReceive_of_feedAndFlush {s : AudioLoop} {p : FecPacket} {r' : FecReceiver}
    {out : List FecPacket} (hp : Sendable p) (h : feedAndFlush b s.fecRx p = .ok (r', out)) :
    audioReceive b s (datagram p) = .ok (⟨r', (r'.lost, r'.recovered)⟩, out) := by
  rw [audioReceive_datagram hp, bind_of_ok _ h]
  rfl

theorem handled_data {s : AudioLoop} {p : FecPacket} {next : UInt16} {r' : FecReceiver}
    {out : List FecPacket} (hp : Sendable p) (hrec : s.fecRx.recovered = 0)
    (hrun : feedAndFlush b s.fecRx p = .ok (r', out)) (h : Passed s.fecRx p next r' out) :
    Handled b s [p] [p] next ⟨r', (r'.lost, r'.recovered)⟩ out :=
  ⟨run_single (audioReceive_of_feedAndFlush hp hrun), ⟨hrec, fun _ _ _ => trivial⟩, h.output,
    h.lost, h.bases⟩

/-- **One call of `sendAudioAll`**, its datagrams received in order. -/
theorem InStep.sendAudioAll {z : Zone} {s : AudioLoop} (h : InStep z s.fecRx) {a : AudioArgs}
    (ha : CallOk a) (hroom : b = .debug → lostIfFlushed s.fecRx + 16 < 2 ^ 64) :
    ∃ s' out, Handled b s (z.sendAudioAll a).2 [z.dataPacket a] z.sequence s' out ∧
      InStep (z.sendAudioAll a).1 s'.fecRx := by
  have hsend := sendable_dataPacket z ha
  cases henc : z.fecEncoder with
  | none =>
    have hz : (z.dataPacket a).1.fecGroupSize = 0 := by
      simp [Zone.dataPacket, Zone.fecFields, henc]
    obtain ⟨r', out, hrun, hpass⟩ :=
      receive_plain z.sequence h.idle (isParity_dataPacket z ha.noFec) hz hroom
    rw [sendAudioAll_off henc]
    exact ⟨_, out, handled_data hsend h.recovered hrun hpass,
      ⟨hpass.idle, hpass.recovered.trans h.recovered, fun e he => by cases he⟩⟩
  | some enc =>
    obtain ⟨ds, hh, hfits, hfol⟩ := h.group enc henc
    have hbounds := FecEncoder.groupSize_bounds enc.groupSize
    have hlt : ds.length < enc.groupSize.val.toNat := by simpa using hh.lt
    obtain ⟨r', out, hrun, hpass, hfol', hfull⟩ := hfol.receive z.sequence h.idle hlt
      hbounds (by rintro rfl; simp) (placedAt_dataPacket henc hh ha) hroom
    have hdata := handled_data hsend h.recovered hrun hpass
    have hmap : ds.map (·.2) ++ [a.payload] = (ds ++ [z.dataPacket a]).map (·.2) := by
      simp [Zone.dataPacket]
    have hfits' : ∀ p ∈ ds ++ [z.dataPacket a], p.2.length ≤ MAX_AUDIO_PAYLOAD := fun p hp => by
      rcases List.mem_append.mp hp with hp | hp
      · exact hfits p hp
      · rw [List.mem_singleton.mp hp]; exact ha.fits
    have hbase : z.sequence - UInt16.ofNat ds.length
        = z.sequence + 1 - UInt16.ofNat (ds ++ [z.dataPacket a]).length := by
      rw [List.length_append, List.length_singleton, ofNat_succ_sub]
    by_cases hmore : (ds.map (·.2)).length + 1 < enc.groupSize.val.toNat
    · obtain ⟨enc', hcall, hh', hsz⟩ := sendAudioAll_pending henc hh a hmore
      rw [hcall]
      refine ⟨_, out, hdata, hpass.idle, hpass.recovered.trans h.recovered, ?_⟩
      intro e he
      cases he
      exact ⟨_, hmap ▸ hh', hfits', by rw [hsz, ← hbase]; exact hfol'⟩
    · -- the group is complete: its parity follows and is dropped
      have hlast : ds.length + 1 = enc.groupSize.val.toNat := by
        rw [List.length_map] at hmore; omega
      obtain ⟨enc', hcall, hh', hsz⟩ :=
        sendAudioAll_complete henc hh a (by rw [List.length_map]; exact hlast)
      have hnone := hfull hlast
      rw [hcall, hmap]
      have hq := sendable_parityPacket z a (z.sequence + 1) ((ds ++ [z.dataPacket a]).map (·.2))
        (lensXor ((ds ++ [z.dataPacket a]).map (·.2))) fun l hl => by
          obtain ⟨p, hp, rfl⟩ := List.mem_map.mp hl
          exact hfits' p hp
      have hparity := audioReceive_of_feedAndFlush (b := b) (s := ⟨r', (r'.lost, r'.recovered)⟩) hq
        (receive_parity (isParity_parityPacket _ _ _ _) (lastPacket_parityPacket _ _ _ _) hnone)
      have hrec' := hpass.recovered.trans h.recovered
      refine ⟨⟨r', (r'.lost, r'.recovered)⟩, out ++ [], ⟨?_, ?_, ?_, hpass.lost, hpass.bases⟩,
        hpass.idle, hrec', ?_⟩
      · exact run_append_ok hdata.run (run_single hparity)
      · exact along_append_ok hdata.run hdata.quiet ⟨hrec', fun _ _ _ => trivial⟩
      · rw [List.append_nil]; exact hdata.output
      · intro e he
        cases he
        refine ⟨[], hh', by simp, .fresh rfl (by rw [hnone]; simp) ?_⟩
        intro hp
        have hprev : r'.prevBaseSeq = some (z.sequence - UInt16.ofNat ds.length) := by
          cases hfol' with
          | fresh hnil => simp at hnil
          | assembling _ hb => rw [hnone] at hb; cases hb
          | straggling _ _ hp => exact hp
        -- the next base lies `size + 1` further, which is no multiple of 65536
        have heq := Option.some.inj (hprev.symm.trans hp)
        have hzero : UInt16.ofNat (ds.length + 2) = UInt16.ofNat 0 := by
          rw [UInt16.ofNat_add]
          have h0 : UInt16.ofNat ([] : List FecPacket).length = 0 := rfl
          rw [h0] at heq
          have h2 : UInt16.ofNat 2 = 1 + 1 := rfl
          have h0' : UInt16.ofNat 0 = 0 := rfl
          rw [h2, h0']
          grind
        have := ofNat_inj (by omega) (by omega) hzero
        omega

end Call

/-! ## Whole runs -/

theorem Handled.between {b : Build} {s s' : AudioLoop} {sent data out : List FecPacket}
    {start : UInt16} {k more : Nat} (h : Handled b s sent data (start + UInt16.ofNat k) s' out)
    (hidle : s'.fecRx.baseSeq = none → s'.fecRx.slots = []) (hb : Between start k s.fecRx)
    (hmore : 0 < more) : Between start (k + more) s'.fecRx := by
  refine ⟨hidle, ?_⟩
  intro x hx
  rcases h.bases x hx with rfl | hx
  · exact ⟨k, by omega, rfl⟩
  · obtain ⟨i, hi, heq⟩ := hb.past x hx
    exact ⟨i, by omega, heq⟩

theorem sequence_sendAudioAll (z : Zone) (a : AudioArgs) :
    (z.sendAudioAll a).1.sequence = z.sequence + UInt16.ofNat (z.sendAudioAll a).2.length ∧
      0 < (z.sendAudioAll a).2.length := by
  unfold Zone.sendAudioAll
  split
  · exact ⟨rfl, by simp⟩
  · split
    · exact ⟨rfl, by simp⟩
    · refine ⟨?_, by simp⟩
      have htwo : UInt16.ofNat 2 = 1 + 1 := rfl
      simp only [List.length_cons, List.length_nil, Nat.zero_add, htwo]
      grind

/-- Switching FEC on between two packets starts a group that the receiver does
not remember. -/
theorem InStep.enableFec {z : Zone} {r : FecReceiver} (h : InStep z r) {start : UInt16} {k : Nat}
    (hb : Between start k r) (hseq : z.sequence = start + UInt16.ofNat k) (hk : k < 65536)
    (n : GroupSize) : InStep (z.enableFec n) r := by
  refine ⟨h.idle, h.recovered, ?_⟩
  intro e he
  cases he
  refine ⟨[], FecEncoder.holds_new n, by simp, .fresh rfl ?_ ?_⟩
  · intro hx
    exact hb.ne_next hk (.inl hx) (by simpa [Zone.enableFec] using hseq)
  · intro hx
    exact hb.ne_next hk (.inr hx) (by simpa [Zone.enableFec] using hseq)

/-- Either FEC is not touched during the run, or the stream is short. -/
def Steady (z : Zone) (r : FecReceiver) (ops : List Zone.Op) : Prop :=
  (∀ op ∈ ops, ∃ a, op = .sendAudioAll a) ∨
    ∃ start k, Between start k r ∧ z.sequence = start + UInt16.ofNat k ∧
      k + (z.emitted ops).length < 65536

/-- A run that switches FEC is short. -/
theorem Steady.short {z : Zone} {r : FecReceiver} {op : Zone.Op} {ops : List Zone.Op}
    (h : Steady z r (op :: ops)) (hop : ∀ a, op ≠ .sendAudioAll a) :
    ∃ start k, Between start k r ∧ z.sequence = start + UInt16.ofNat k ∧
      k + (z.emitted (op :: ops)).length < 65536 := by
  rcases h with hall | hshort
  · obtain ⟨a, ha⟩ := hall op List.mem_cons_self
    exact absurd ha (hop a)
  · exact hshort

theorem InStep.runOps {b : Build} :
    ∀ (ops : List Zone.Op) (z : Zone) (s : AudioLoop), InStep z s.fecRx →
      (∀ a, .sendAudioAll a ∈ ops → CallOk a) → Steady z s.fecRx ops →
      (b = .debug → lostIfFlushed s.fecRx + ops.length * 16 < 2 ^ 64) →
      ∃ s' out, run (audioReceive b) s ((z.emitted ops).map datagram) = .ok (s', out) ∧
        Along (audioReceive b) (fun t _ => t.fecRx.recovered = 0) s
          ((z.emitted ops).map datagram) ∧
        out ++ s'.fecRx.held = s.fecRx.held ++ dataOnly (z.emitted ops) ∧
        InStep (z.runOps ops).1 s'.fecRx ∧
        lostIfFlushed s'.fecRx ≤ lostIfFlushed s.fecRx + ops.length * 16
  | [], z, s, h, _, _, _ =>
      ⟨s, [], rfl, trivial, by simp [Zone.emitted, Zone.runOps, dataOnly], h, by simp⟩
  | .sendAudioAll a :: ops, z, s, h, hcalls, hsteady, hroom => by
      rw [List.length_cons] at hroom ⊢
      obtain ⟨s₁, o₁, hhan, h₁⟩ := h.sendAudioAll (b := b) (hcalls a (by simp)) fun hb => by
        have := hroom hb
        omega
      have hlost₁ := hhan.lost
      have hemitted : z.emitted (.sendAudioAll a :: ops) =
          (z.sendAudioAll a).2 ++ (z.sendAudioAll a).1.emitted ops := rfl
      obtain ⟨hseq, hpos⟩ := sequence_sendAudioAll z a
      have hsteady₁ : Steady (z.sendAudioAll a).1 s₁.fecRx ops := by
        rcases hsteady with hall | ⟨start, k, hb, hk, hlen⟩
        · exact .inl fun op hop => hall op (List.mem_cons_of_mem _ hop)
        · refine .inr ⟨start, k + (z.sendAudioAll a).2.length, ?_, ?_, ?_⟩
          · exact (hk ▸ hhan).between h₁.idle hb hpos
          · rw [hseq, hk, UInt16.ofNat_add, UInt16.add_assoc]
          · rw [hemitted, List.length_append] at hlen
            omega
      obtain ⟨s₂, o₂, hrun, hquiet, hout, h₂, hlost₂⟩ :=
        InStep.runOps ops (z.sendAudioAll a).1 s₁ h₁
          (fun c hc => hcalls c (List.mem_cons_of_mem _ hc)) hsteady₁ fun hb => by
            have := hroom hb
            omega
      refine ⟨s₂, o₁ ++ o₂, ?_, ?_, ?_, h₂, by omega⟩
      · rw [hemitted, List.map_append]
        exact run_append_ok hhan.run hrun
      · rw [hemitted, List.map_append]
        exact along_append_ok hhan.run hhan.quiet hquiet
      · have hdata : dataOnly (z.emitted (.sendAudioAll a :: ops)) =
            [z.dataPacket a] ++ dataOnly ((z.sendAudioAll a).1.emitted ops) := by
          rw [hemitted, ← dataOnly_sendAudioAll z (hcalls a (by simp))]
          exact List.filter_append _ _
        rw [hdata, List.append_assoc, hout, ← List.append_assoc, hhan.output, List.append_assoc]
  | .enableFec n :: ops, z, s, h, hcalls, hsteady, hroom => by
      rw [List.length_cons] at hroom ⊢
      obtain ⟨start, k, hb, hk, hlen⟩ := hsteady.short (by simp)
      obtain ⟨s₁, o₁, hrun, hquiet, hout, h₁, hlost⟩ :=
        InStep.runOps (b := b) ops (z.enableFec n) s (h.enableFec hb hk (by omega) n)
          (fun c hc => hcalls c (List.mem_cons_of_mem _ hc)) (.inr ⟨start, k, hb, hk, hlen⟩)
          fun hb => by
            have := hroom hb
            omega
      exact ⟨s₁, o₁, hrun, hquiet, hout, h₁, by omega⟩
  | .disableFec :: ops, z, s, h, hcalls, hsteady, hroom => by
      rw [List.length_cons] at hroom ⊢
      obtain ⟨start, k, hb, hk, hlen⟩ := hsteady.short (by simp)
      obtain ⟨s₁, o₁, hrun, hquiet, hout, h₁, hlost⟩ :=
        InStep.runOps (b := b) ops z.disableFec s ⟨h.idle, h.recovered, fun e he => by cases he⟩
          (fun c hc => hcalls c (List.mem_cons_of_mem _ hc)) (.inr ⟨start, k, hb, hk, hlen⟩)
          fun hb => by
            have := hroom hb
            omega
      exact ⟨s₁, o₁, hrun, hquiet, hout, h₁, by omega⟩

/-- **Lossless transparency.** The datagrams of a sender run reach the receive
loop completely and in order, and the receiver is flushed at the end. Then the
application is given exactly the data packets sent, in order and unchanged, and
no packet is ever rebuilt. The run may be of any length when it only sends, with
FEC off or on from the start; with FEC switched on and off at any points it
has to stay below 65536 packets. In a build with overflow checks the count of
lost packets has to fit its `u64` (2^59 calls of sixteen slots). -/
theorem lossless_transparency (b : Build) {z : Zone} (hz : Fresh z) {ops : List Zone.Op}
    (hcalls : ∀ a, .sendAudioAll a ∈ ops → CallOk a)
    (hcase : (∀ op ∈ ops, ∃ a, op = .sendAudioAll a) ∨ (z.emitted ops).length < 65536)
    (hroom : b = .debug → ops.length < 2 ^ 59) :
    ∃ s out r rest,
      run (audioReceive b) .new ((z.emitted ops).map datagram) = .ok (s, out) ∧
      s.fecRx.flush b = .ok (r, rest) ∧
      out ++ rest = dataOnly (z.emitted ops) ∧
      Along (audioReceive b) (fun t _ => t.fecRx.recovered = 0) .new
        ((z.emitted ops).map datagram) ∧
      s.fecRx.recovered = 0 ∧ r.recovered = 0 := by
  have hstart : InStep z AudioLoop.new.fecRx := by
    refine ⟨fun _ => rfl, rfl, fun enc henc => ⟨[], ?_, by simp, ?_⟩⟩
    · rw [hz enc henc]
      exact FecEncoder.holds_new _
    · exact .fresh rfl (by simp [AudioLoop.new, FecReceiver.new])
        (by simp [AudioLoop.new, FecReceiver.new])
  have hsteady : Steady z AudioLoop.new.fecRx ops := by
    rcases hcase with hall | hlen
    · exact .inl hall
    · refine .inr ⟨z.sequence, 0, ⟨fun _ => rfl, ?_⟩, by simp, by omega⟩
      intro x hx
      simp [AudioLoop.new, FecReceiver.new] at hx
  have hzero : lostIfFlushed AudioLoop.new.fecRx = 0 := rfl
  obtain ⟨s, out, hrun, hquiet, hout, hin, hlost⟩ :=
    InStep.runOps (b := b) ops z .new hstart hcalls hsteady fun hb => by
      have := hroom hb
      omega
  obtain ⟨⟨r, rest⟩, hflush⟩ := flush_returns (b := b) (r := s.fecRx) fun hb => by
    have := hroom hb
    omega
  obtain ⟨rfl, -, -, hrec, -, -⟩ := flushed_idle hin.idle (flush_cases hflush)
  refine ⟨s, out, r, _, hrun, hflush, ?_, hquiet, hin.recovered, hrec.trans hin.recovered⟩
  rw [hout]
  simp [FecReceiver.held, AudioLoop.new, FecReceiver.new]

/-- FEC switched to another size in the middle of a group, and a stream end
inside the new group. -/
def toggledOps : List Zone.Op :=
  [.sendAudioAll (audio 1000 [1, 2, 3]), .enableFec threeSize,
    .sendAudioAll { audio 2000 [4] with flags := PacketFlags.lastPacket },
    .sendAudioAll (audio 3000 [5, 6]), .disableFec, .sendAudioAll (audio 4000 [7])]

theorem lossless_transparency_toggled :
    ∃ s out r rest,
      run (audioReceive .debug) .new ((pairZone.emitted toggledOps).map datagram) =
        .ok (s, out) ∧
      s.fecRx.flush .debug = .ok (r, rest) ∧
      out ++ rest = dataOnly (pairZone.emitted toggledOps) ∧
      Along (audioReceive .debug) (fun t _ => t.fecRx.recovered = 0) .new
        ((pairZone.emitted toggledOps).map datagram) ∧
      s.fecRx.recovered = 0 ∧ r.recovered = 0 := by
  refine lossless_transparency .debug fresh_pairZone ?_ (.inr (by decide +kernel))
    fun _ => by decide
  intro a ha
  simp only [toggledOps, List.mem_cons, Zone.Op.sendAudioAll.injEq, reduceCtorEq,
    List.not_mem_nil, or_false, false_or] at ha
  rcases ha with rfl | rfl | rfl | rfl <;> exact ⟨by decide, by decide, by decide⟩

end Oaat.Fec
