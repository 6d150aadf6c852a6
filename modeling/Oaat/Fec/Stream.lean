/-
Oaat.Fec.Stream — what a zone puts on the wire.

`FecStream sent` collects the facts about a zone's traffic that every theorem
about receivers uses: sequences are pairwise distinct, a data packet lies in a
group whose first packet was sent with the same group size, and a parity
packet is the parity of the complete group it follows. It is a statement about
the packets alone; how the sender's calls were interleaved is forgotten.

`fecStream_emitted` proves it of every run of `enableFec`, `disableFec` and
`sendAudioAll` that emits fewer than 65536 packets, from any starting
sequence. The invariant of the induction is `Sending`: it adds the numbering
and, for the encoder's open group, the packets already sent of it.
-/
import Oaat.Controller.ZoneAudio
import Oaat.Core.FecTheorems
import Mathlib.Data.List.Nodup

namespace Oaat.Fec

open Oaat.Core Oaat.Controller Oaat.Core.FecReceiver

/-- The data packets among a list of packets. -/
def dataOnly (l : List FecPacket) : List FecPacket := l.filter fun p => !isParity p

/-- The packets of `l`, in order, as inputs of a receiver. -/
def packets (l : List FecPacket) : List Input := l.map .packet

/-- `ds` are the first data packets of the group that starts at `base`. -/
structure IsGroup (sent : List FecPacket) (base : UInt16) (size : UInt8) (ds : List FecPacket) :
    Prop where
  mem : ∀ p ∈ ds, p ∈ sent ∧ isParity p = false ∧ p.1.fecGroupSize = size
  position : ∀ i p, ds[i]? = some p →
    p.1.fecIndex.toNat = i ∧ p.1.sequence = base + UInt16.ofNat i

/-- A data packet as the zone builds it: its payload length fits the header,
and if it carries FEC then so does the first packet of its group. -/
structure SentData (sent : List FecPacket) (p : FecPacket) : Prop where
  short : p.2.length < 65536
  index_lt : p.1.fecGroupSize ≠ 0 → p.1.fecIndex.toNat < p.1.fecGroupSize.toNat
  two_le : p.1.fecGroupSize ≠ 0 → 2 ≤ p.1.fecGroupSize.toNat
  first : p.1.fecGroupSize ≠ 0 → ∃ q ∈ sent, q.1.sequence = dataBase p ∧
    isParity q = false ∧ q.1.fecGroupSize = p.1.fecGroupSize

/-- A parity packet as the zone builds it: `ds` is the whole group it covers. -/
structure SentParity (sent : List FecPacket) (q : FecPacket) (ds : List FecPacket) : Prop where
  group : IsGroup sent (parityBase q) q.1.fecGroupSize ds
  length : ds.length = q.1.fecGroupSize.toNat
  two_le : 2 ≤ q.1.fecGroupSize.toNat
  payload : q.2 = xorParity (ds.map (·.2))
  lenXor : q.1.fecLenXor = lensXor (ds.map (·.2))

/-- The traffic of a zone, as its receivers may rely on it. -/
structure FecStream (sent : List FecPacket) : Prop where
  nodup : (sent.map (·.1.sequence)).Nodup
  data : ∀ p ∈ sent, isParity p = false → SentData sent p
  parity : ∀ q ∈ sent, isParity q = true → ∃ ds, SentParity sent q ds

/-! ## Consequences -/

section

variable {sent : List FecPacket}

/-- A sequence number names one packet of the stream. -/
theorem FecStream.eq_of_sequence (h : FecStream sent) {p q : FecPacket} (hp : p ∈ sent)
    (hq : q ∈ sent) (hs : p.1.sequence = q.1.sequence) : p = q :=
  List.inj_on_of_nodup_map h.nodup hp hq hs

/-- Data packets that claim the same base have the same group size. -/
theorem FecStream.same_size (h : FecStream sent) {p q : FecPacket} (hp : p ∈ sent)
    (hq : q ∈ sent) (hpd : isParity p = false) (hqd : isParity q = false)
    (hpz : p.1.fecGroupSize ≠ 0) (hqz : q.1.fecGroupSize ≠ 0) (hb : dataBase p = dataBase q) :
    p.1.fecGroupSize = q.1.fecGroupSize := by
  obtain ⟨f, hf, hfs, -, hfg⟩ := (h.data p hp hpd).first hpz
  obtain ⟨g, hg, hgs, -, hgg⟩ := (h.data q hq hqd).first hqz
  have hfg' : f = g := h.eq_of_sequence hf hg (by rw [hfs, hgs, hb])
  rw [← hfg, ← hgg, hfg']

theorem sequence_eq_base_add (p : FecPacket) :
    p.1.sequence = dataBase p + UInt16.ofNat p.1.fecIndex.toNat := by
  rw [dataBase, UInt16.ofNat_uInt8ToNat]
  grind

theorem parity_sequence (q : FecPacket) :
    q.1.sequence = parityBase q + UInt16.ofNat q.1.fecGroupSize.toNat := by
  rw [parityBase, UInt16.ofNat_uInt8ToNat]
  grind

theorem IsGroup.base_eq {base : UInt16} {size : UInt8} {ds : List FecPacket}
    (h : IsGroup sent base size ds) {p : FecPacket} (hp : p ∈ ds) : dataBase p = base := by
  obtain ⟨i, hi⟩ := List.mem_iff_getElem?.mp hp
  obtain ⟨hidx, hseq⟩ := h.position i p hi
  have := sequence_eq_base_add p
  rw [hidx, hseq] at this
  grind

/-- The parity's group and a data packet that claims the same base agree on
the group size, and the data packet is the one at its index. -/
theorem SentParity.eq_getElem (h : FecStream sent) {q : FecPacket} {ds : List FecPacket}
    (hq : SentParity sent q ds) {p : FecPacket} (hp : p ∈ sent) (hpd : isParity p = false)
    (hpz : p.1.fecGroupSize ≠ 0) (hb : dataBase p = parityBase q) :
    p.1.fecGroupSize = q.1.fecGroupSize ∧ ds[p.1.fecIndex.toNat]? = some p := by
  have hlen := hq.length
  have htwo := hq.two_le
  have h0 : ds[0]? = some ds[0] := List.getElem?_eq_getElem (by omega)
  have hmem0 : ds[0] ∈ ds := List.getElem_mem _
  obtain ⟨hs0, hd0, hz0⟩ := hq.group.mem _ hmem0
  have hqz : ds[0].1.fecGroupSize ≠ 0 := by
    rw [hz0]; intro h0; rw [h0] at htwo; simp at htwo
  have hsize : p.1.fecGroupSize = q.1.fecGroupSize := by
    rw [h.same_size hp hs0 hpd hd0 hpz hqz (by rw [hb, hq.group.base_eq hmem0]), hz0]
  refine ⟨hsize, ?_⟩
  have hlt : p.1.fecIndex.toNat < ds.length := by
    have := (h.data p hp hpd).index_lt hpz
    rw [hsize] at this
    omega
  have hi := List.getElem?_eq_getElem hlt
  obtain ⟨-, hseq⟩ := hq.group.position _ _ hi
  have hmem := (hq.group.mem _ (List.getElem_mem hlt)).1
  have := h.eq_of_sequence hmem hp (by rw [hseq, sequence_eq_base_add p, hb])
  rw [hi, this]

end

/-! ## The sender's invariant -/

/-- A zone that has emitted `sent` since it stood at `start`. -/
structure Sending (start : UInt16) (z : Zone) (sent : List FecPacket) : Prop where
  numbered : sent.map (·.1.sequence) =
    (List.range sent.length).map fun i => start + UInt16.ofNat i
  next : z.sequence = start + UInt16.ofNat sent.length
  data : ∀ p ∈ sent, isParity p = false → SentData sent p
  parity : ∀ q ∈ sent, isParity q = true → ∃ ds, SentParity sent q ds
  opened : ∀ enc, z.fecEncoder = some enc → ∃ ds,
    IsGroup sent (z.sequence - UInt16.ofNat ds.length) enc.groupSize.val ds ∧
      enc.Holds (ds.map (·.2))

/-- What the callers of `send_audio_all` promise: no FEC flag of their own, and
a payload whose length fits the header. -/
def OpOk : Zone.Op → Prop
  | .sendAudioAll a => a.flags.contains PacketFlags.fec = false ∧ a.payload.length < 65536
  | _ => True

section Growth

variable {sent more : List FecPacket}

theorem IsGroup.append {base : UInt16} {size : UInt8} {ds : List FecPacket}
    (h : IsGroup sent base size ds) (more : List FecPacket) :
    IsGroup (sent ++ more) base size ds where
  mem p hp := ⟨List.mem_append_left _ (h.mem p hp).1, (h.mem p hp).2⟩
  position := h.position

theorem SentData.append {p : FecPacket} (h : SentData sent p) (more : List FecPacket) :
    SentData (sent ++ more) p where
  short := h.short
  index_lt := h.index_lt
  two_le := h.two_le
  first hz := by
    obtain ⟨q, hq, hrest⟩ := h.first hz
    exact ⟨q, List.mem_append_left _ hq, hrest⟩

theorem SentParity.append {q : FecPacket} {ds : List FecPacket} (h : SentParity sent q ds)
    (more : List FecPacket) : SentParity (sent ++ more) q ds where
  group := h.group.append more
  length := h.length
  two_le := h.two_le
  payload := h.payload
  lenXor := h.lenXor

/-- One more packet of the current sequence number keeps the numbering. -/
theorem numbered_snoc {start : UInt16} (p : FecPacket)
    (h : sent.map (·.1.sequence) = (List.range sent.length).map fun i => start + UInt16.ofNat i)
    (hp : p.1.sequence = start + UInt16.ofNat sent.length) :
    (sent ++ [p]).map (·.1.sequence) =
      (List.range (sent ++ [p]).length).map fun i => start + UInt16.ofNat i := by
  rw [List.map_append, h, List.length_append, List.length_singleton, List.range_succ,
    List.map_append, List.map_singleton, List.map_singleton, hp]

/-- A group grows by the data packet that follows it. -/
theorem IsGroup.snoc {base : UInt16} {size : UInt8} {ds : List FecPacket}
    (h : IsGroup sent base size ds) {p : FecPacket} (hp : p ∈ sent) (hd : isParity p = false)
    (hz : p.1.fecGroupSize = size) (hidx : p.1.fecIndex.toNat = ds.length)
    (hseq : p.1.sequence = base + UInt16.ofNat ds.length) :
    IsGroup sent base size (ds ++ [p]) where
  mem q hq := by
    rcases List.mem_append.mp hq with hq | hq
    · exact h.mem q hq
    · rw [List.mem_singleton.mp hq]; exact ⟨hp, hd, hz⟩
  position i q hi := by
    rcases Nat.lt_trichotomy i ds.length with hlt | rfl | hgt
    · rw [List.getElem?_append_left hlt] at hi
      exact h.position i q hi
    · rw [List.getElem?_append_right (Nat.le_refl _), Nat.sub_self] at hi
      cases hi
      exact ⟨hidx, hseq⟩
    · rw [List.getElem?_eq_none (by simp; omega)] at hi
      cases hi

end Growth

theorem isParity_dataPacket (z : Zone) {a : AudioArgs}
    (h : a.flags.contains PacketFlags.fec = false) : isParity (z.dataPacket a) = false := h

theorem isParity_parityPacket (z : Zone) (a : AudioArgs) (s : UInt16) (par : FecParity) :
    isParity (z.parityPacket a s par) = true := by
  simp only [isParity, Zone.parityPacket]
  decide

/-- The packets already sent keep their properties, the new one is checked. -/
theorem Sending.data_snoc {start : UInt16} {z : Zone} {sent : List FecPacket}
    (h : Sending start z sent) {p : FecPacket} (hp : isParity p = false)
    (hnew : SentData (sent ++ [p]) p) :
    (∀ q ∈ sent ++ [p], isParity q = false → SentData (sent ++ [p]) q) ∧
      ∀ q ∈ sent ++ [p], isParity q = true → ∃ ds, SentParity (sent ++ [p]) q ds := by
  refine ⟨?_, ?_⟩
  · intro q hq hd
    rcases List.mem_append.mp hq with hq | hq
    · exact (h.data q hq hd).append _
    · rw [List.mem_singleton.mp hq]; exact hnew
  · intro q hq hd
    rcases List.mem_append.mp hq with hq | hq
    · obtain ⟨ds, hds⟩ := h.parity q hq hd
      exact ⟨ds, hds.append _⟩
    · rw [List.mem_singleton.mp hq, hp] at hd
      cases hd

/-! ## One call of the sender -/

theorem sendAudioAll_off {z : Zone} (h : z.fecEncoder = none) (a : AudioArgs) :
    z.sendAudioAll a = (⟨z.sequence + 1, none⟩, [z.dataPacket a]) := by
  simp [Zone.sendAudioAll, h]

/-- A call inside a group emits its data packet. -/
theorem sendAudioAll_pending {z : Zone} {enc : FecEncoder} {l : List (List UInt8)}
    (henc : z.fecEncoder = some enc) (hh : enc.Holds l) (a : AudioArgs)
    (hlt : l.length + 1 < enc.groupSize.val.toNat) :
    ∃ enc', z.sendAudioAll a = (⟨z.sequence + 1, some enc'⟩, [z.dataPacket a]) ∧
      enc'.Holds (l ++ [a.payload]) ∧ enc'.groupSize = enc.groupSize := by
  obtain ⟨enc', hfeed, hh', hsz⟩ := FecEncoder.feed_pending hh a.payload hlt
  exact ⟨enc', by simp [Zone.sendAudioAll, henc, hfeed], hh', hsz⟩

/-- The call that fills a group emits its data packet and the group's parity. -/
theorem sendAudioAll_complete {z : Zone} {enc : FecEncoder} {l : List (List UInt8)}
    (henc : z.fecEncoder = some enc) (hh : enc.Holds l) (a : AudioArgs)
    (heq : l.length + 1 = enc.groupSize.val.toNat) :
    ∃ enc', z.sendAudioAll a = (⟨z.sequence + 1 + 1, some enc'⟩, [z.dataPacket a,
        z.parityPacket a (z.sequence + 1)
          ⟨xorParity (l ++ [a.payload]), lensXor (l ++ [a.payload])⟩]) ∧
      enc'.Holds [] ∧ enc'.groupSize = enc.groupSize := by
  obtain ⟨enc', hfeed, hh', hsz⟩ := FecEncoder.feed_complete hh a.payload heq
  exact ⟨enc', by simp [Zone.sendAudioAll, henc, hfeed], hh', hsz⟩

/-- The data packet of a zone with an open group `ds` continues that group. -/
theorem IsGroup.dataPacket {z : Zone} {sent : List FecPacket} {a : AudioArgs}
    {enc : FecEncoder} {ds : List FecPacket}
    (hg : IsGroup sent (z.sequence - UInt16.ofNat ds.length) enc.groupSize.val ds)
    (henc : z.fecEncoder = some enc) (hh : enc.Holds (ds.map (·.2)))
    (hflags : a.flags.contains PacketFlags.fec = false) :
    IsGroup (sent ++ [z.dataPacket a]) (z.sequence - UInt16.ofNat ds.length) enc.groupSize.val
      (ds ++ [z.dataPacket a]) := by
  refine (hg.append [z.dataPacket a]).snoc (by simp) (isParity_dataPacket z hflags) ?_ ?_ ?_
  · simp [Zone.dataPacket, Zone.fecFields, henc]
  · simpa [Zone.dataPacket, Zone.fecFields, henc, FecEncoder.nextIndex] using hh.count
  · simp only [Zone.dataPacket]
    grind

/-- The data packet a zone emits is one its receivers can rely on. -/
theorem Sending.sentData {start : UInt16} {z : Zone} {sent : List FecPacket}
    (h : Sending start z sent) {a : AudioArgs} (hflags : a.flags.contains PacketFlags.fec = false)
    (hlen : a.payload.length < 65536) :
    SentData (sent ++ [z.dataPacket a]) (z.dataPacket a) := by
  cases henc : z.fecEncoder with
  | none =>
    have hz : (z.dataPacket a).1.fecGroupSize = 0 := by
      simp [Zone.dataPacket, Zone.fecFields, henc]
    exact ⟨hlen, fun h => absurd hz h, fun h => absurd hz h, fun h => absurd hz h⟩
  | some enc =>
    obtain ⟨ds, hg, hh⟩ := h.opened enc henc
    have hgs := hg.dataPacket henc hh hflags
    have hsize : (z.dataPacket a).1.fecGroupSize = enc.groupSize.val := by
      simp [Zone.dataPacket, Zone.fecFields, henc]
    have hidx : (z.dataPacket a).1.fecIndex.toNat = ds.length := by
      simpa [Zone.dataPacket, Zone.fecFields, henc, FecEncoder.nextIndex] using hh.count
    have hlt : ds.length < enc.groupSize.val.toNat := by simpa using hh.lt
    refine ⟨hlen, fun _ => by rw [hidx, hsize]; exact hlt,
      fun _ => by rw [hsize]; exact (FecEncoder.groupSize_bounds _).1, ?_⟩
    intro _
    -- the first packet of the group is the head of `ds`, or this very packet
    have hne : 0 < (ds ++ [z.dataPacket a]).length := by simp
    have h0 := List.getElem?_eq_getElem hne
    have hmem := List.getElem_mem hne
    obtain ⟨-, hseq⟩ := hgs.position 0 _ h0
    obtain ⟨hin, hd, hz⟩ := hgs.mem _ hmem
    refine ⟨_, hin, ?_, hd, by rw [hz, hsize]⟩
    rw [hseq, hgs.base_eq (List.mem_append_right _ (List.mem_singleton.mpr rfl))]
    simp

/-- Sending the data packet, before the encoder is asked for a parity. -/
theorem Sending.dataPacket {start : UInt16} {z : Zone} {sent : List FecPacket}
    (h : Sending start z sent) {a : AudioArgs} (hflags : a.flags.contains PacketFlags.fec = false)
    (hlen : a.payload.length < 65536) (enc' : Option FecEncoder)
    (hopen : ∀ enc, enc' = some enc → ∃ ds,
      IsGroup (sent ++ [z.dataPacket a]) (z.sequence + 1 - UInt16.ofNat ds.length)
        enc.groupSize.val ds ∧ enc.Holds (ds.map (·.2))) :
    Sending start ⟨z.sequence + 1, enc'⟩ (sent ++ [z.dataPacket a]) := by
  obtain ⟨hdata, hparity⟩ := h.data_snoc (isParity_dataPacket z hflags) (h.sentData hflags hlen)
  refine ⟨numbered_snoc _ h.numbered h.next, ?_, hdata, hparity, hopen⟩
  rw [List.length_append, List.length_singleton, UInt16.ofNat_add, h.next]
  grind

theorem ofNat_succ_sub (x : UInt16) (k : Nat) :
    x + 1 - UInt16.ofNat (k + 1) = x - UInt16.ofNat k := by
  rw [UInt16.ofNat_add]
  grind

/-- A group whose last payload was just absorbed has its parity sent. -/
theorem Sending.parityPacket {start : UInt16} {z : Zone} {sent : List FecPacket} {a : AudioArgs}
    {enc enc' : FecEncoder} {ds : List FecPacket} (henc : z.fecEncoder = some enc)
    (hh : enc'.Holds [])
    (h : Sending start ⟨z.sequence + 1, some enc'⟩ sent)
    (hg : IsGroup sent (z.sequence + 1 - UInt16.ofNat ds.length) enc.groupSize.val ds)
    (hlen : ds.length = enc.groupSize.val.toNat) :
    let q := z.parityPacket a (z.sequence + 1) ⟨xorParity (ds.map (·.2)), lensXor (ds.map (·.2))⟩
    Sending start ⟨z.sequence + 1 + 1, some enc'⟩ (sent ++ [q]) := by
  intro q
  have hq : isParity q = true := isParity_parityPacket _ _ _ _
  have hsize : q.1.fecGroupSize = enc.groupSize.val := by
    simp [q, Zone.parityPacket, Zone.fecFields, henc]
  have hbase : parityBase q = z.sequence + 1 - UInt16.ofNat ds.length := by
    have hseq : q.1.sequence = z.sequence + 1 := rfl
    rw [parityBase, hsize, hseq, hlen, UInt16.ofNat_uInt8ToNat]
  have hsent : SentParity (sent ++ [q]) q ds :=
    ⟨by rw [hbase, hsize]; exact hg.append _, by rw [hsize, hlen],
      by rw [hsize]; exact (FecEncoder.groupSize_bounds _).1, rfl, rfl⟩
  refine ⟨numbered_snoc _ h.numbered h.next, ?_, ?_, ?_, ?_⟩
  · rw [List.length_append, List.length_singleton, UInt16.ofNat_add]
    have hnext : z.sequence + 1 = start + UInt16.ofNat sent.length := h.next
    show z.sequence + 1 + 1 = _
    rw [hnext]
    grind
  · intro p hp hd
    rcases List.mem_append.mp hp with hp | hp
    · exact (h.data p hp hd).append _
    · rw [List.mem_singleton.mp hp, hq] at hd
      cases hd
  · intro p hp hd
    rcases List.mem_append.mp hp with hp | hp
    · obtain ⟨es, hes⟩ := h.parity p hp hd
      exact ⟨es, hes.append _⟩
    · rw [List.mem_singleton.mp hp]
      exact ⟨ds, hsent⟩
  · intro e he
    cases he
    exact ⟨[], ⟨by simp, by simp⟩, hh⟩

theorem Sending.sendAudioAll {start : UInt16} {z : Zone} {sent : List FecPacket}
    (h : Sending start z sent) {a : AudioArgs} (hflags : a.flags.contains PacketFlags.fec = false)
    (hlen : a.payload.length < 65536) :
    Sending start (z.sendAudioAll a).1 (sent ++ (z.sendAudioAll a).2) := by
  cases henc : z.fecEncoder with
  | none =>
    rw [sendAudioAll_off henc]
    exact h.dataPacket hflags hlen none (by simp)
  | some enc =>
    obtain ⟨ds, hg, hh⟩ := h.opened enc henc
    have hgs := hg.dataPacket henc hh hflags
    have hbase : z.sequence - UInt16.ofNat ds.length
        = z.sequence + 1 - UInt16.ofNat (ds ++ [z.dataPacket a]).length := by
      rw [List.length_append, List.length_singleton, ofNat_succ_sub]
    rw [hbase] at hgs
    have hmap : ds.map (·.2) ++ [a.payload] = (ds ++ [z.dataPacket a]).map (·.2) := by
      simp [Zone.dataPacket]
    by_cases hlt : (ds.map (·.2)).length + 1 < enc.groupSize.val.toNat
    · obtain ⟨enc', hsend, hh', hsz⟩ := sendAudioAll_pending henc hh a hlt
      rw [hsend]
      refine h.dataPacket hflags hlen (some enc') ?_
      intro e he
      cases he
      exact ⟨_, by rw [hsz]; exact hgs, by rw [← hmap]; exact hh'⟩
    · have heq : (ds.map (·.2)).length + 1 = enc.groupSize.val.toNat := by
        have := hh.lt
        omega
      obtain ⟨enc', hsend, hh', hsz⟩ := sendAudioAll_complete henc hh a heq
      rw [hsend]
      have hdata : Sending start ⟨z.sequence + 1, some enc'⟩ (sent ++ [z.dataPacket a]) := by
        refine h.dataPacket hflags hlen (some enc') ?_
        intro e he
        cases he
        exact ⟨[], ⟨by simp, by simp⟩, hh'⟩
      have := hdata.parityPacket (a := a) henc hh' hgs (by simpa using heq)
      rw [hmap]
      simpa using this

theorem Sending.step {start : UInt16} {z : Zone} {sent : List FecPacket}
    (h : Sending start z sent) {op : Zone.Op} (hop : OpOk op) :
    Sending start (z.step op).1 (sent ++ (z.step op).2) := by
  cases op with
  | enableFec n =>
    refine ⟨by simpa [Zone.step] using h.numbered,
      by simpa [Zone.step, Zone.enableFec] using h.next,
      by simpa [Zone.step] using h.data, by simpa [Zone.step] using h.parity, ?_⟩
    intro e he
    simp only [Zone.step, Zone.enableFec, Option.some.injEq] at he
    subst he
    exact ⟨[], ⟨by simp, by simp⟩, FecEncoder.holds_new n⟩
  | disableFec =>
    refine ⟨by simpa [Zone.step] using h.numbered,
      by simpa [Zone.step, Zone.disableFec] using h.next,
      by simpa [Zone.step] using h.data, by simpa [Zone.step] using h.parity, ?_⟩
    intro e he
    simp [Zone.step, Zone.disableFec] at he
  | sendAudioAll a => exact h.sendAudioAll hop.1 hop.2

/-! ## Whole runs -/

theorem Sending.runOps {start : UInt16} :
    ∀ (ops : List Zone.Op) {z : Zone} {sent : List FecPacket}, Sending start z sent →
      (∀ op ∈ ops, OpOk op) → Sending start (z.runOps ops).1 (sent ++ (z.runOps ops).2)
  | [], _, _, h, _ => by simpa [Zone.runOps] using h
  | op :: ops, z, sent, h, hops => by
      have hstep := h.step (hops op (by simp))
      have hrest := Sending.runOps ops hstep fun o ho => hops o (List.mem_cons_of_mem _ ho)
      simpa [Zone.runOps] using hrest

/-- A zone between two groups: any sequence, FEC off or just enabled. -/
def Fresh (z : Zone) : Prop := ∀ enc, z.fecEncoder = some enc → enc = FecEncoder.new enc.groupSize

theorem Fresh.sending {z : Zone} (hz : Fresh z) : Sending z.sequence z [] where
  numbered := rfl
  next := by simp
  data := by simp
  parity := by simp
  opened enc henc := ⟨[], ⟨by simp, by simp⟩, by
    rw [hz enc henc]; exact FecEncoder.holds_new _⟩

theorem ofNat_inj {i j : Nat} (hi : i < 65536) (hj : j < 65536)
    (h : UInt16.ofNat i = UInt16.ofNat j) : i = j := by
  have := congrArg UInt16.toNat h
  simpa [Nat.mod_eq_of_lt hi, Nat.mod_eq_of_lt hj] using this

theorem Sending.nodup {start : UInt16} {z : Zone} {sent : List FecPacket}
    (h : Sending start z sent) (hlen : sent.length < 65536) :
    (sent.map (·.1.sequence)).Nodup := by
  rw [h.numbered]
  refine List.Nodup.map_on ?_ List.nodup_range
  intro i hi j hj hij
  rw [List.mem_range] at hi hj
  exact ofNat_inj (by omega) (by omega) (by grind)

/-- **The traffic of every sender run** of fewer than 65536 packets. -/
theorem fecStream_emitted {z : Zone} (hz : Fresh z) {ops : List Zone.Op}
    (hops : ∀ op ∈ ops, OpOk op) (hlen : (z.emitted ops).length < 65536) :
    FecStream (z.emitted ops) := by
  have h := hz.sending.runOps ops hops
  rw [List.nil_append] at h
  exact ⟨h.nodup hlen, h.data, h.parity⟩

/-! ## A concrete stream

One group of two packets of different lengths that crosses the wrap of the
sequence, for the theorems about receivers. -/

def pairSize : GroupSize := ⟨2, by decide⟩

def pairZone : Zone := { sequence := 65535, fecEncoder := some (FecEncoder.new pairSize) }

def audio (ptsNs : UInt64) (payload : List UInt8) : AudioArgs :=
  { streamId := 1, format := .pcmS16le, ptsNs, sampleOffset := 0, payload,
    flags := PacketFlags.empty }

def pairOps : List Zone.Op :=
  [.sendAudioAll (audio 1000 [1, 2, 3]), .sendAudioAll (audio 2000 [4, 5])]

theorem fresh_pairZone : Fresh pairZone := by
  rintro enc henc
  cases henc
  rfl

theorem opOk_pairOps : ∀ op ∈ pairOps, OpOk op := by
  intro op hop
  simp only [pairOps, List.mem_cons, List.not_mem_nil, or_false] at hop
  rcases hop with rfl | rfl <;> exact ⟨by decide, by decide⟩

end Oaat.Fec
