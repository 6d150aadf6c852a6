/-
Oaat.Fec.InOrder — a link that loses packets but keeps their order.

The sender numbers its packets, so a sequence number is a place in the stream
(`Laid`), and a FEC group is a run of places (`Laid.between`). `Ordered` is the
receiver's invariant: what it has passed on is in the order of the stream and
lies before the group under assembly, and what it holds lies before the packet
that comes next. A straggler can then only belong to the group just closed.
-/
import Oaat.Fec.LossCount
import Oaat.Fec.Transparency
import Mathlib.Data.List.Sort

namespace Oaat.Fec

open Oaat.Core Oaat.Controller Oaat.Core.FecReceiver Oaat.Endpoint Oaat.Lib

/-! ## Places in the stream -/

/-- The place of a sequence number in a stream that starts at `start`. -/
def place (start sequence : UInt16) : Nat := (sequence - start).toNat

/-- A data packet has the data packets of its group before it. -/
def Prefixed (sent : List FecPacket) (p : FecPacket) : Prop :=
  p.1.fecGroupSize ≠ 0 → ∃ ds, IsGroup sent (dataBase p) p.1.fecGroupSize ds ∧
    ds.length = p.1.fecIndex.toNat

/-- A stream as a zone lays it out. -/
structure Laid (start : UInt16) (sent : List FecPacket) : Prop where
  stream : FecStream sent
  numbered : sent.map (·.1.sequence) = (List.range sent.length).map fun i => start + UInt16.ofNat i
  short : sent.length < 65536
  prefixed : ∀ p ∈ sent, isParity p = false → Prefixed sent p

/-- A data packet of a FEC group. -/
def Grouped (sent : List FecPacket) (p : FecPacket) : Prop :=
  p ∈ sent ∧ isParity p = false ∧ p.1.fecGroupSize ≠ 0

section

variable {start : UInt16} {sent : List FecPacket} {p q x : FecPacket}

theorem place_add (start s : UInt16) {k : Nat} (h : place start s + k < 65536) :
    place start (s + UInt16.ofNat k) = place start s + k := by
  have hsub : s + UInt16.ofNat k - start = (s - start) + UInt16.ofNat k := by grind
  rw [place, hsub, UInt16.toNat_add, UInt16.toNat_ofNat']
  simp only [place] at h ⊢
  omega

theorem place_start (start : UInt16) {i : Nat} (h : i < 65536) :
    place start (start + UInt16.ofNat i) = i := by
  have hzero : place start start = 0 := by simp [place]
  rw [place_add start start (by omega), hzero, Nat.zero_add]

theorem place_inj {s s' : UInt16} (h : place start s = place start s') : s = s' := by
  have hsub : s - start = s' - start := UInt16.toNat_inj.mp h
  grind

/-- The `i`-th packet has the `i`-th place. -/
theorem Laid.place_getElem (h : Laid start sent) {i : Nat} (hi : sent[i]? = some p) :
    place start p.1.sequence = i := by
  obtain ⟨hlt, hget⟩ := List.getElem?_eq_some_iff.mp hi
  have hseq : (sent.map (·.1.sequence))[i]? = some p.1.sequence := by
    rw [List.getElem?_map, hi]
    rfl
  rw [h.numbered, List.getElem?_map, List.getElem?_range hlt] at hseq
  rw [← Option.some.inj hseq]
  exact place_start start (by have := h.short; omega)

theorem Laid.place_lt (h : Laid start sent) (hp : p ∈ sent) :
    place start p.1.sequence < sent.length := by
  obtain ⟨i, hi⟩ := List.mem_iff_getElem?.mp hp
  rw [h.place_getElem hi]
  exact (List.getElem?_eq_some_iff.mp hi).1

theorem Laid.eq_of_place (h : Laid start sent) (hp : p ∈ sent) (hq : q ∈ sent)
    (hpq : place start p.1.sequence = place start q.1.sequence) : p = q :=
  h.stream.eq_of_sequence hp hq (place_inj hpq)

/-- A packet that follows another in a group is not at a place past the last. -/
theorem Laid.place_index (h : Laid start sent) (hp : Grouped sent p) :
    place start p.1.sequence = place start (dataBase p) + p.1.fecIndex.toNat := by
  obtain ⟨ds, hds, hlen⟩ := h.prefixed p hp.1 hp.2.1 hp.2.2
  by_contra hne
  have hseq := sequence_eq_base_add p
  have hwrap : 65536 ≤ place start (dataBase p) + p.1.fecIndex.toNat := by
    by_contra hlt
    exact hne (by rw [hseq]; exact place_add start _ (by omega))
  -- then some packet of the group has the last place of all
  have hbase : place start (dataBase p) < 65536 := UInt16.toNat_lt _
  have hk : 65535 - place start (dataBase p) < ds.length := by omega
  have hget := List.getElem?_eq_getElem hk
  obtain ⟨-, hsx⟩ := hds.position _ _ hget
  have hplace := h.place_lt (hds.mem _ (List.getElem_mem hk)).1
  rw [hsx, place_add start _ (by omega)] at hplace
  have := h.short
  omega

/-- **A group is a run of places**: what lies between its first packet and another of
its packets belongs to it. -/
theorem Laid.between (h : Laid start sent) (hp : Grouped sent p) (hx : x ∈ sent)
    (hfirst : place start (dataBase p) ≤ place start x.1.sequence)
    (hlast : place start x.1.sequence ≤ place start p.1.sequence) :
    Grouped sent x ∧ dataBase x = dataBase p := by
  obtain ⟨ds, hds, hlen⟩ := h.prefixed p hp.1 hp.2.1 hp.2.2
  have hindex := h.place_index hp
  obtain ⟨k, hk⟩ := Nat.exists_eq_add_of_le hfirst
  by_cases hend : k = p.1.fecIndex.toNat
  · obtain rfl := h.eq_of_place hx hp.1 (by omega)
    exact ⟨hp, rfl⟩
  · have hlt : k < ds.length := by omega
    have hget := List.getElem?_eq_getElem hlt
    obtain ⟨-, hseq⟩ := hds.position _ _ hget
    obtain ⟨hmem, hd, hz⟩ := hds.mem _ (List.getElem_mem hlt)
    have hin := h.place_lt hx
    have hshort := h.short
    have hplace := place_add start (dataBase p) (k := k) (by omega)
    obtain rfl := h.eq_of_place hx hmem (by rw [hseq, hplace, hk])
    exact ⟨⟨hmem, hd, by rw [hz]; exact hp.2.2⟩, hds.base_eq (List.getElem_mem hlt)⟩

/-- The parity lies right behind its group. -/
theorem Laid.place_parity (h : Laid start sent) (hq : q ∈ sent) (hpar : isParity q = true) :
    place start q.1.sequence = place start (parityBase q) + q.1.fecGroupSize.toNat := by
  obtain ⟨ds, hds⟩ := h.stream.parity q hq hpar
  have htwo := hds.two_le
  have hlen := hds.length
  have hlt : q.1.fecGroupSize.toNat - 1 < ds.length := by omega
  have hget := List.getElem?_eq_getElem hlt
  obtain ⟨hidx, hseq⟩ := hds.group.position _ _ hget
  obtain ⟨hmem, hd, hz⟩ := hds.group.mem _ (List.getElem_mem hlt)
  have hgrouped : Grouped sent ds[q.1.fecGroupSize.toNat - 1] := by
    refine ⟨hmem, hd, ?_⟩
    intro hzero
    rw [hz] at hzero
    rw [hzero] at htwo
    simp at htwo
  have hplace := h.place_index hgrouped
  rw [hds.group.base_eq (List.getElem_mem hlt), hidx] at hplace
  have hin := h.place_lt hmem
  have hshort := h.short
  rw [parity_sequence, place_add start _ (by omega)]

end

/-! ## What a zone sends is laid out so -/

section

variable {start : UInt16} {sent more : List FecPacket} {z : Zone} {a : AudioArgs} {p : FecPacket}

theorem Prefixed.append (h : Prefixed sent p) (more : List FecPacket) :
    Prefixed (sent ++ more) p := by
  intro hz
  obtain ⟨ds, hds, hlen⟩ := h hz
  exact ⟨ds, hds.append more, hlen⟩

/-- The data packet that a zone sends next. -/
theorem Sending.prefixed (h : Sending start z sent)
    (hflags : a.flags.contains PacketFlags.fec = false) (more : List FecPacket) :
    Prefixed (sent ++ more) (z.dataPacket a) := by
  intro hz
  cases henc : z.fecEncoder with
  | none =>
    refine absurd ?_ hz
    simp [Zone.dataPacket, Zone.fecFields, henc]
  | some enc =>
    obtain ⟨ds, hds, hh⟩ := h.opened enc henc
    have hbase := (hds.dataPacket henc hh hflags).base_eq (p := z.dataPacket a) (by simp)
    have hsize : (z.dataPacket a).1.fecGroupSize = enc.groupSize.val := by
      simp [Zone.dataPacket, Zone.fecFields, henc]
    have hidx : (z.dataPacket a).1.fecIndex.toNat = ds.length := by
      simpa [Zone.dataPacket, Zone.fecFields, henc, FecEncoder.nextIndex] using hh.count
    exact ⟨ds, by rw [hbase, hsize]; exact hds.append more, hidx.symm⟩

theorem Sending.prefixed_step (h : Sending start z sent) {op : Zone.Op} (hop : OpOk op)
    (hall : ∀ p ∈ sent, isParity p = false → Prefixed sent p) :
    ∀ p ∈ sent ++ (z.step op).2, isParity p = false → Prefixed (sent ++ (z.step op).2) p := by
  intro p hp hd
  rcases List.mem_append.mp hp with hp | hp
  · exact (hall p hp hd).append _
  · cases op with
    | enableFec | disableFec => cases hp
    | sendAudioAll a =>
      rcases Zone.of_mem_sendAudioAll hp with rfl | ⟨parity, rfl⟩
      · exact h.prefixed hop.1 _
      · rw [isParity_parityPacket] at hd
        cases hd

theorem Sending.prefixed_runOps {ops : List Zone.Op} (h : Sending start z sent)
    (hops : ∀ op ∈ ops, OpOk op) (hall : ∀ p ∈ sent, isParity p = false → Prefixed sent p) :
    ∀ p ∈ sent ++ (z.runOps ops).2, isParity p = false →
      Prefixed (sent ++ (z.runOps ops).2) p := by
  induction ops generalizing z sent with
  | nil => simpa [Zone.runOps] using hall
  | cons op ops ih =>
    have hop := hops op (by simp)
    have hrest := ih (h.step hop) (fun o ho => hops o (List.mem_cons_of_mem _ ho))
      (h.prefixed_step hop hall)
    rwa [List.append_assoc] at hrest

/-- **The layout of a zone's stream** of fewer than 65536 packets. -/
theorem laid_emitted (hz : Fresh z) {ops : List Zone.Op} (hops : ∀ op ∈ ops, OpOk op)
    (hlen : (z.emitted ops).length < 65536) : Laid z.sequence (z.emitted ops) where
  stream := fecStream_emitted hz hops hlen
  numbered := (hz.sending.runOps ops hops).numbered
  short := hlen
  prefixed := hz.sending.prefixed_runOps hops (by simp)

end

/-! ## The receiver's invariant -/

/-- The place that a packet says it has. -/
def placeOf (start : UInt16) (p : FecPacket) : Nat := place start p.1.sequence

/-- Each packet comes from a later place than the one before it. -/
def Rising (start : UInt16) (packets : List FecPacket) : Prop :=
  packets.Pairwise fun p q => placeOf start p < placeOf start q

/-- A packet of the group at `base` lies before the place `bound`. -/
def Met (start : UInt16) (sent : List FecPacket) (bound : Nat) (base : UInt16) : Prop :=
  ∃ x, Grouped sent x ∧ dataBase x = base ∧ placeOf start x < bound

/-- A receiver that has passed on `log`, when all that comes still lies at `bound` or
behind it. -/
structure Ordered (start : UInt16) (sent : List FecPacket) (bound : Nat) (log : List FecPacket)
    (r : FecReceiver) : Prop where
  tracks : Tracks sent r
  genuine : ∀ p ∈ log, Genuine sent p
  rising : Rising start log
  logged : ∀ p ∈ log, placeOf start p < bound
  held : ∀ p ∈ r.held, placeOf start p < bound
  behind : ∀ b, r.baseSeq = some b → ∀ p ∈ log, placeOf start p < place start b
  opened : ∀ b, r.baseSeq = some b → Met start sent bound b
  closed : ∀ b, r.prevBaseSeq = some b → Met start sent bound b
  order : ∀ b c, r.baseSeq = some b → r.prevBaseSeq = some c → place start c < place start b
  -- no group is begun again once a later one is closed
  done : ∀ p ∈ log, ∀ x, Grouped sent x → x.1.sequence = p.1.sequence →
    ∃ c, r.prevBaseSeq = some c ∧ place start (dataBase x) ≤ place start c
  parity : ∀ b, r.baseSeq = some b → r.parity.isSome = true →
    place start b + r.groupSize.toNat < bound

section

variable {start : UInt16} {sent log out : List FecPacket} {bound more : Nat}
  {r r' : FecReceiver} {p : FecPacket} {base : UInt16}

theorem Met.mono (h : Met start sent bound base) (hle : bound ≤ more) :
    Met start sent more base := by
  obtain ⟨x, hx, hb, hlt⟩ := h
  exact ⟨x, hx, hb, Nat.lt_of_lt_of_le hlt hle⟩

/-- Nothing comes from before a later bound either. -/
theorem Ordered.mono (h : Ordered start sent bound log r) (more : Nat) (hle : bound ≤ more) :
    Ordered start sent more log r where
  tracks := h.tracks
  genuine := h.genuine
  rising := h.rising
  logged p hp := Nat.lt_of_lt_of_le (h.logged p hp) hle
  held p hp := Nat.lt_of_lt_of_le (h.held p hp) hle
  behind := h.behind
  opened b hb := (h.opened b hb).mono hle
  closed b hb := (h.closed b hb).mono hle
  order := h.order
  done := h.done
  parity b hb hp := Nat.lt_of_lt_of_le (h.parity b hb hp) hle

theorem ordered_new (start : UInt16) (sent : List FecPacket) (bound : Nat) :
    Ordered start sent bound [] .new where
  tracks := Tracks.of_idle rfl rfl rfl
  genuine := by simp
  rising := .nil
  logged := by simp
  held := by simp [FecReceiver.held, FecReceiver.new]
  behind b hb := by cases hb
  opened b hb := by cases hb
  closed b hb := by cases hb
  order b c hb := by cases hb
  done := by simp
  parity b hb := by cases hb

/-! ### Groups keep apart -/

/-- A group that was met lies before every later group. -/
theorem Laid.apart (hl : Laid start sent) {b : UInt16} (hm : Met start sent bound b)
    (hp : Grouped sent p) (hbound : bound ≤ placeOf start p) (hne : dataBase p ≠ b) :
    place start b < place start (dataBase p) := by
  obtain ⟨x, hx, rfl, hlt⟩ := hm
  by_contra hge
  have hindex := hl.place_index hx
  have hle : place start x.1.sequence ≤ place start p.1.sequence := by
    change placeOf start x ≤ placeOf start p
    omega
  exact hne (hl.between hp hx.1 (by omega) hle).2.symm

/-- So does every packet of it, and every packet passed on from elsewhere. -/
theorem Laid.before (hl : Laid start sent) {x : FecPacket} (hx : x ∈ sent)
    (hlt : placeOf start x < bound) (hp : Grouped sent p) (hbound : bound ≤ placeOf start p)
    (hne : Grouped sent x → dataBase x ≠ dataBase p) :
    placeOf start x < place start (dataBase p) := by
  by_contra hge
  have hle : place start x.1.sequence ≤ place start p.1.sequence := by
    change placeOf start x ≤ placeOf start p
    omega
  obtain ⟨hg, hbase⟩ := hl.between hp hx (by unfold placeOf at hge; omega) hle
  exact hne hg hbase

/-- What was passed on lies before a group that is neither open nor the last one. -/
theorem Ordered.before (hl : Laid start sent) (h : Ordered start sent bound log r)
    (hp : Grouped sent p) (hbound : bound ≤ placeOf start p)
    (hprev : r.prevBaseSeq ≠ some (dataBase p)) {y : FecPacket} (hy : y ∈ log) :
    placeOf start y < place start (dataBase p) := by
  obtain ⟨x, hx, hd, hseq, -⟩ := h.genuine y hy
  have hplace : placeOf start x = placeOf start y := by rw [placeOf, hseq, placeOf]
  rw [← hplace]
  refine hl.before hx (by rw [hplace]; exact h.logged y hy) hp hbound ?_
  intro hg hbase
  obtain ⟨c, hc, hle⟩ := h.done y hy x hg hseq
  have hapart := hl.apart (h.closed c hc) hp hbound (by rintro rfl; exact hprev hc)
  rw [hbase] at hle
  omega

/-! ### Closing a group, and passing a packet on -/

/-- Packets at places one after another rise. -/
theorem rising_slots (start : UInt16) (slots : List (Option FecPacket)) {c : Nat}
    (h : ∀ (i : Nat) p, slots[i]? = some (some p) → placeOf start p = c + i) :
    Rising start (slots.filterMap id) ∧ ∀ p ∈ slots.filterMap id, c ≤ placeOf start p := by
  induction slots generalizing c with
  | nil => exact ⟨.nil, by simp⟩
  | cons s slots ih =>
    obtain ⟨hrise, hle⟩ := ih (c := c + 1) fun i p hi => by
      rw [h (i + 1) p hi]
      omega
    cases s with
    | none => exact ⟨hrise, fun p hp => Nat.le_of_succ_le (hle p hp)⟩
    | some q =>
      have hq := h 0 q rfl
      refine ⟨List.pairwise_cons.mpr ⟨fun p hp => ?_, hrise⟩, ?_⟩
      · have := hle p hp
        omega
      · intro p hp
        rcases List.mem_cons.mp hp with rfl | hp
        · omega
        · exact Nat.le_of_succ_le (hle p hp)

/-- The packets held are of the group under assembly, in their places. -/
theorem Tracks.placed (hl : Laid start sent) (h : Tracks sent r) (hb : r.baseSeq = some base)
    {i : Nat} (hi : r.slots[i]? = some (some p)) :
    Grouped sent p ∧ dataBase p = base ∧ placeOf start p = place start base + i := by
  obtain ⟨hd, hidx⟩ := h.slot base hb i p hi
  have hg : Grouped sent p := ⟨hd.mem, hd.data, by rw [hd.size]; exact (h.opener base hb).1⟩
  refine ⟨hg, hd.base, ?_⟩
  rw [placeOf, hl.place_index hg, hd.base, hidx]

/-- What an assembled group adds to the log. -/
structure Assembled (start : UInt16) (sent : List FecPacket) (bound : Nat) (base : UInt16)
    (out : List FecPacket) : Prop where
  genuine : ∀ p ∈ out, Genuine sent p
  rising : Rising start out
  inside : ∀ p ∈ out, place start base ≤ placeOf start p ∧ placeOf start p < bound
  group : ∀ p ∈ out, ∀ x, Grouped sent x → x.1.sequence = p.1.sequence → dataBase x = base

theorem Ordered.assembled_held (hl : Laid start sent) (h : Ordered start sent bound log r)
    (hb : r.baseSeq = some base) : Assembled start sent bound base r.held := by
  obtain ⟨hrise, hle⟩ := rising_slots start r.slots
    fun i p hi => (h.tracks.placed hl hb hi).2.2
  refine ⟨fun p hp => genuine_of_sent (h.tracks.held_sent hp), hrise,
    fun p hp => ⟨hle p hp, h.held p hp⟩, ?_⟩
  intro p hp x hx hseq
  obtain rfl := hl.stream.eq_of_sequence hx.1 (h.tracks.held_sent hp).1 hseq
  obtain ⟨s, hs, rfl⟩ := List.mem_filterMap.mp hp
  obtain ⟨i, hi⟩ := List.mem_iff_getElem?.mp hs
  exact (h.tracks.placed hl hb hi).2.1

/-- Closing the group. -/
theorem Ordered.close (h : Ordered start sent bound log r) (hb : r.baseSeq = some base)
    (hout : Assembled start sent bound base out) (ht : Tracks sent r') (hidle : r'.baseSeq = none)
    (hprev : r'.prevBaseSeq = some base) : Ordered start sent bound (log ++ out) r' where
  tracks := ht
  genuine p hp := (List.mem_append.mp hp).elim (h.genuine p) (hout.genuine p)
  rising := by
    refine List.pairwise_append.mpr ⟨h.rising, hout.rising, fun p hp q hq => ?_⟩
    exact Nat.lt_of_lt_of_le (h.behind base hb p hp) (hout.inside q hq).1
  logged p hp := (List.mem_append.mp hp).elim (h.logged p) fun hp => (hout.inside p hp).2
  held p hp := by
    rw [FecReceiver.held, (ht.idle hidle).1] at hp
    cases hp
  behind b hb' := by rw [hidle] at hb'; cases hb'
  opened b hb' := by rw [hidle] at hb'; cases hb'
  closed b hb' := by
    rw [hprev, Option.some.injEq] at hb'
    exact hb' ▸ h.opened base hb
  order b c hb' := by rw [hidle] at hb'; cases hb'
  done p hp x hx hseq := by
    refine ⟨base, hprev, ?_⟩
    rcases List.mem_append.mp hp with hp | hp
    · obtain ⟨c, hc, hle⟩ := h.done p hp x hx hseq
      exact Nat.le_trans hle (Nat.le_of_lt (h.order base c hb hc))
    · rw [hout.group p hp x hx hseq]
  parity b hb' := by rw [hidle] at hb'; cases hb'

/-- **Flushing** passes on what is held. -/
theorem Ordered.flushed {b : Build} (hl : Laid start sent) (h : Ordered start sent bound log r)
    (hf : Flushed b r r' out) : Ordered start sent bound (log ++ out) r' ∧ r'.baseSeq = none := by
  have ht := (h.tracks.flushed hf).1
  cases hf with
  | idle hb =>
    rw [List.append_nil]
    exact ⟨h, hb⟩
  | group base n hb hn => exact ⟨h.close hb (h.assembled_held hl hb) ht rfl hb, rfl⟩

/-- A packet is passed on while no group is open. -/
theorem Ordered.pass (hl : Laid start sent) (h : Ordered start sent bound log r)
    (hidle : r.baseSeq = none) (hp : p ∈ sent) (hd : isParity p = false)
    (hbound : bound ≤ placeOf start p)
    (hgroup : p.1.fecGroupSize ≠ 0 → r.prevBaseSeq = some (dataBase p)) :
    Ordered start sent (placeOf start p + 1) (log ++ [p]) r := by
  have hmono := h.mono (placeOf start p + 1) (by omega)
  refine { hmono with genuine := ?_, rising := ?_, logged := ?_, behind := ?_, done := ?_ }
  · intro q hq
    rcases List.mem_append.mp hq with hq | hq
    · exact h.genuine q hq
    · rw [List.mem_singleton.mp hq]
      exact genuine_of_sent ⟨hp, hd⟩
  · refine List.pairwise_append.mpr ⟨h.rising, List.pairwise_singleton _ _, fun q hq q' hq' => ?_⟩
    rw [List.mem_singleton.mp hq']
    exact Nat.lt_of_lt_of_le (h.logged q hq) hbound
  · intro q hq
    rcases List.mem_append.mp hq with hq | hq
    · exact hmono.logged q hq
    · rw [List.mem_singleton.mp hq]
      exact Nat.lt_succ_self _
  · intro b hb
    rw [hidle] at hb
    cases hb
  · intro q hq x hx hseq
    rcases List.mem_append.mp hq with hq | hq
    · exact h.done q hq x hx hseq
    · rw [List.mem_singleton.mp hq] at hseq
      obtain rfl := hl.stream.eq_of_sequence hx.1 hp hseq
      exact ⟨dataBase x, hgroup hx.2.2, Nat.le_refl _⟩

/-! ### Completing a group -/

/-- The slots of a group with one packet rebuilt: each packet is one of the group, by its
number, and in its place. -/
theorem Ordered.rebuilt_placed (hl : Laid start sent) (h : Ordered start sent bound log r)
    (hb : r.baseSeq = some base) {pre post : List FecPacket} (hs : r.slots = oneGap pre post)
    {lx : UInt16} {pl : List UInt8} (hpar : r.parity = some (lx, pl)) {y : FecPacket}
    (hy : y.1.sequence = base + UInt16.ofNat pre.length) {i : Nat}
    (hi : ((pre ++ y :: post).map some)[i]? = some (some p)) :
    placeOf start p = place start base + i ∧ i < r.groupSize.toNat ∧
      ∃ x, Grouped sent x ∧ dataBase x = base ∧ x.1.sequence = p.1.sequence := by
  obtain ⟨q, -, -, hqb, -, -, hsize, x, hds⟩ := h.tracks.gap hl.stream hb hs hpar
  have hin : i < r.groupSize.toNat := by
    have hlen := h.tracks.length base hb
    have hlt := (List.getElem?_eq_some_iff.mp hi).1
    rw [hs, length_oneGap] at hlen
    simp only [List.length_map, List.length_append, List.length_cons] at hlt
    omega
  rw [← set_oneGap, List.getElem?_set] at hi
  split at hi
  next heq =>
    -- the packet rebuilt stands for the one that was lost
    subst heq
    obtain ⟨-, rfl⟩ : pre.length < pre.length + 1 + post.length ∧ y = p := by simpa using hi
    have hxds : x ∈ pre ++ x :: post := by simp
    obtain ⟨hmem, hd, hz⟩ := hds.group.mem x hxds
    obtain ⟨hidx, hseq⟩ := hds.group.position pre.length x (by simp)
    have hg : Grouped sent x := by
      refine ⟨hmem, hd, ?_⟩
      intro hzero
      have htwo := hds.two_le
      rw [← hz, hzero] at htwo
      simp at htwo
    have hbase : dataBase x = base := by rw [hds.group.base_eq hxds, hqb]
    have hsame : x.1.sequence = y.1.sequence := by rw [hseq, hqb, hy]
    refine ⟨?_, hin, x, hg, hbase, hsame⟩
    rw [placeOf, ← hsame, hl.place_index hg, hbase, hidx]
  next =>
    rw [← hs] at hi
    obtain ⟨hg, hbase, hplace⟩ := h.tracks.placed hl hb hi
    exact ⟨hplace, hin, p, hg, hbase, rfl⟩

/-- **Completing** passes on the whole group. -/
theorem Ordered.completion {b : Build} (hl : Laid start sent)
    (h : Ordered start sent bound log r) (hb : r.baseSeq = some base)
    (hc : Completion b r r' out) : Ordered start sent bound (log ++ out) r' := by
  obtain ⟨ht, hgenuine⟩ := h.tracks.completion hl.stream hb hc
  cases hc with
  | complete hm hne => exact h.close hb (h.assembled_held hl hb) ht rfl hb
  | rebuilt pre post lx pl hd n hs hp hh hn =>
    refine h.close hb ?_ ht rfl hb
    generalize hy : (hd, rebuiltPayload ((pre ++ post).map (·.2)) lx pl) = y at hgenuine ⊢
    have hseq : y.1.sequence = base + UInt16.ofNat pre.length := by
      obtain ⟨len, hlen⟩ := hh
      rw [← hy, (synthesizeHeader_fields hlen).1, hb]
      rfl
    have hplaced := fun i p hi =>
      h.rebuilt_placed hl hb hs hp hseq (i := i) (p := p) hi
    obtain ⟨hrise, -⟩ := rising_slots start ((pre ++ y :: post).map some)
      fun i p hi => (hplaced i p hi).1
    rw [filterMap_map_some] at hrise
    have hindex : ∀ p ∈ pre ++ y :: post, ∃ i : Nat,
        ((pre ++ y :: post).map some)[i]? = some (some p) := fun p hmem =>
      List.mem_iff_getElem?.mp (List.mem_map_of_mem hmem)
    have hroom := h.parity base hb (by rw [hp]; rfl)
    refine ⟨hgenuine, hrise, ?_, ?_⟩
    · intro p hmem
      obtain ⟨i, hi⟩ := hindex p hmem
      obtain ⟨hplace, hin, -⟩ := hplaced i p hi
      omega
    · intro p hmem x hx hxp
      obtain ⟨i, hi⟩ := hindex p hmem
      obtain ⟨-, -, x', hx', hbase, hseq'⟩ := hplaced i p hi
      obtain rfl := hl.stream.eq_of_sequence hx.1 hx'.1 (hxp.trans hseq'.symm)
      exact hbase
  | wait hm hp =>
    rw [List.append_nil]
    exact h

/-! ### One packet -/

theorem store_groupSize (r : FecReceiver) (p : FecPacket) :
    (r.store p).groupSize = r.groupSize := by
  unfold FecReceiver.store
  split <;> rfl

theorem Ordered.store (hl : Laid start sent) (h : Ordered start sent bound log r)
    (hp : Grouped sent p) (hb : r.baseSeq = some (dataBase p)) (hlt : placeOf start p < bound) :
    Ordered start sent bound log (r.store p) where
  tracks := h.tracks.store hl.stream hp.1 hp.2.1 hp.2.2 hb
  genuine := h.genuine
  rising := h.rising
  logged := h.logged
  held q hq := (held_of_store hq).elim (h.held q) fun heq => heq ▸ hlt
  behind b hb' := h.behind b (by rwa [store_baseSeq] at hb')
  opened b hb' := h.opened b (by rwa [store_baseSeq] at hb')
  closed b hb' := h.closed b (by rwa [store_prevBaseSeq] at hb')
  order b c hb' hc :=
    h.order b c (by rwa [store_baseSeq] at hb') (by rwa [store_prevBaseSeq] at hc)
  done q hq x hx hseq := by
    rw [store_prevBaseSeq]
    exact h.done q hq x hx hseq
  parity b hb' hpar := by
    rw [store_groupSize]
    exact h.parity b (by rwa [store_baseSeq] at hb') (by rwa [store_parity] at hpar)

/-- A packet of a group that is neither open nor the last one opens it. -/
theorem Ordered.openGroup (hl : Laid start sent) (h : Ordered start sent bound log r)
    (hp : Grouped sent p) (hbound : bound ≤ placeOf start p)
    (hprev : r.prevBaseSeq ≠ some (dataBase p)) :
    Ordered start sent (placeOf start p + 1) log (r.openGroup p) := by
  have hmono := h.mono (placeOf start p + 1) (by omega)
  have hbase : ∀ b, (r.openGroup p).baseSeq = some b → dataBase p = b := fun _ => Option.some.inj
  refine
    { tracks := Tracks.openGroup hp.1 hp.2.1 hp.2.2
      genuine := h.genuine, rising := h.rising, logged := hmono.logged
      closed := hmono.closed, done := h.done, held := ?_, behind := ?_, opened := ?_, order := ?_
      parity := ?_ }
  · intro q hq
    simp [FecReceiver.held, FecReceiver.openGroup] at hq
  · intro b hb q hq
    rw [← hbase b hb]
    exact h.before hl hp hbound hprev hq
  · intro b hb
    exact ⟨p, hp, hbase b hb, Nat.lt_succ_self _⟩
  · intro b c hb hc
    rw [← hbase b hb]
    exact hl.apart (h.closed c hc) hp hbound fun heq => hprev (heq ▸ hc)
  · intro b hb hpar
    cases hpar

/-- The parity comes behind its group. -/
theorem Ordered.setParity (hl : Laid start sent) (h : Ordered start sent bound log r)
    (hp : p ∈ sent) (hpar : isParity p = true) (hbound : bound ≤ placeOf start p)
    (hb : r.baseSeq = some (parityBase p)) :
    Ordered start sent (placeOf start p + 1) log
      { r with parity := some (p.1.fecLenXor, p.2) } := by
  have hmono := h.mono (placeOf start p + 1) (by omega)
  refine { hmono with tracks := h.tracks.setParity hp hpar hb, parity := ?_ }
  intro b hb' _
  obtain rfl : parityBase p = b := Option.some.inj (hb.symm.trans hb')
  obtain ⟨ds, hds⟩ := hl.stream.parity p hp hpar
  obtain ⟨hz, p₀, hp₀⟩ := h.tracks.opener _ hb
  have hsize := (hds.eq_getElem hl.stream hp₀.mem hp₀.data (by rw [hp₀.size]; exact hz)
    hp₀.base).1
  have hplace := hl.place_parity hp hpar
  rw [hp₀.size] at hsize
  rw [placeOf, hplace, hsize]
  exact Nat.lt_succ_self _

/-- After a flush the last group is the one that was open, or the last one before. -/
theorem prevBaseSeq_flushed {b : Build} (hf : Flushed b r r' out) :
    r'.prevBaseSeq = r.prevBaseSeq ∨ r'.prevBaseSeq = r.baseSeq := by
  cases hf with
  | idle => exact .inl rfl
  | group base n hb hn => exact .inr rfl

/-- **The step rule.** -/
theorem Ordered.fed {b : Build} (hl : Laid start sent) (h : Ordered start sent bound log r)
    (hp : p ∈ sent) (hbound : bound ≤ placeOf start p) (hf : Fed b r p r' out) :
    Ordered start sent (placeOf start p + 1) (log ++ out) r' := by
  cases hf with
  | plain hz hd hflush =>
    obtain ⟨h₁, hidle⟩ := h.flushed hl hflush
    rw [← List.append_assoc]
    exact h₁.pass hl hidle hp hd hbound fun hne => absurd hz hne
  | strayParity hpar hb =>
    rw [List.append_nil]
    exact h.mono _ (by omega)
  | parity hpar hb hc => exact (h.setParity hl hp hpar hbound hb).completion hl hb hc
  | straggler hz hd hprev hb =>
    have hg : Grouped sent p := ⟨hp, hd, hz⟩
    cases hbase : r.baseSeq with
    | none => exact h.pass hl hbase hp hd hbound fun _ => hprev
    | some c =>
      -- the open group is a later one than the last, and an earlier one than the packet's
      have hne : dataBase p ≠ c := by
        rintro rfl
        exact hb hbase
      have hapart := hl.apart (h.opened c hbase) hg hbound hne
      have horder := h.order c _ hbase hprev
      omega
  | switch hz hd hprev hb hflush hc =>
    have hg : Grouped sent p := ⟨hp, hd, hz⟩
    obtain ⟨h₁, -⟩ := h.flushed hl hflush
    have hprev₁ := (prevBaseSeq_flushed hflush).elim (fun heq => heq ▸ hprev) (fun heq => heq ▸ hb)
    have hopen := (h₁.openGroup hl hg hbound hprev₁).store hl hg rfl (Nat.lt_succ_self _)
    rw [← List.append_assoc]
    exact hopen.completion hl (by rw [store_baseSeq]; rfl) hc
  | same hz hd hb hc =>
    have hg : Grouped sent p := ⟨hp, hd, hz⟩
    have hmono := h.mono (placeOf start p + 1) (by omega)
    exact (hmono.store hl hg hb (Nat.lt_succ_self _)).completion hl
      (by rw [store_baseSeq]; exact hb) hc

end

/-! ## The audio loop -/

section

variable {sent : List FecPacket} {ops : List Zone.Op} {z : Zone} {p : FecPacket}

/-- A data packet carries the payload of a call. -/
theorem data_of_emitted (hcalls : ∀ a, .sendAudioAll a ∈ ops → CallOk a) (hp : p ∈ z.emitted ops)
    (hd : isParity p = false) : ∃ a, .sendAudioAll a ∈ ops ∧ p.2 = a.payload := by
  induction ops generalizing z with
  | nil => cases hp
  | cons op ops ih =>
    rcases List.mem_append.mp hp with hp | hp
    · cases op with
      | enableFec | disableFec => cases hp
      | sendAudioAll a =>
        have hmem : p ∈ dataOnly (z.sendAudioAll a).2 :=
          List.mem_filter.mpr ⟨hp, by rw [hd]; rfl⟩
        rw [dataOnly_sendAudioAll z (hcalls a (by simp)), List.mem_singleton] at hmem
        exact ⟨a, by simp, by rw [hmem]; rfl⟩
    · obtain ⟨a, ha, hpay⟩ := ih (fun a ha => hcalls a (List.mem_cons_of_mem _ ha)) hp
      exact ⟨a, List.mem_cons_of_mem _ ha, hpay⟩

/-- Every packet says its version and its length, with declared flags. -/
theorem header_of_emitted (hcalls : ∀ a, .sendAudioAll a ∈ ops → CallOk a)
    (hp : p ∈ z.emitted ops) :
    p.1.version = AudioPacketHeader.CURRENT_VERSION ∧ p.1.flags.Declared ∧
      p.1.payloadLen = UInt16.ofNat p.2.length := by
  induction ops generalizing z with
  | nil => cases hp
  | cons op ops ih =>
    rcases List.mem_append.mp hp with hp | hp
    · cases op with
      | enableFec | disableFec => cases hp
      | sendAudioAll a =>
        rcases Zone.of_mem_sendAudioAll hp with rfl | ⟨parity, rfl⟩
        · exact ⟨rfl, (hcalls a (by simp)).declared, rfl⟩
        · exact ⟨rfl, Zone.declared_parityPacket _ _ _ _, rfl⟩
    · exact ih (fun a ha => hcalls a (List.mem_cons_of_mem _ ha)) hp

theorem opOk_of_callOk (hcalls : ∀ a, .sendAudioAll a ∈ ops → CallOk a) :
    ∀ op ∈ ops, OpOk op := by
  intro op hop
  cases op with
  | enableFec | disableFec => trivial
  | sendAudioAll a =>
    obtain ⟨hfec, -, hlen⟩ := hcalls a hop
    have hmax : MAX_AUDIO_PAYLOAD = 8192 := rfl
    exact ⟨hfec, by omega⟩

/-- All that the zone emits fits a datagram: a parity is as long as the longest packet
of its group. -/
theorem sendable_emitted (hcalls : ∀ a, .sendAudioAll a ∈ ops → CallOk a)
    (hstream : FecStream (z.emitted ops)) (hp : p ∈ z.emitted ops) : Sendable p := by
  have hdata : ∀ q ∈ z.emitted ops, isParity q = false → q.2.length ≤ MAX_AUDIO_PAYLOAD := by
    intro q hq hd
    obtain ⟨a, ha, hpay⟩ := data_of_emitted hcalls hq hd
    rw [hpay]
    exact (hcalls a ha).fits
  obtain ⟨hversion, hdeclared, hlength⟩ := header_of_emitted hcalls hp
  refine ⟨hversion, hdeclared, ?_, hlength⟩
  cases hd : isParity p with
  | false => exact hdata p hp hd
  | true =>
    obtain ⟨ds, hds⟩ := hstream.parity p hp hd
    rw [hds.payload]
    refine length_parityOf_le _ _ ?_
    intro l hl
    obtain ⟨q, hq, rfl⟩ := List.mem_map.mp hl
    obtain ⟨hmem, hqd, -⟩ := hds.group.mem q hq
    exact hdata q hmem hqd

end

section

variable {start : UInt16} {sent log arrivals : List FecPacket} {bound : Nat} {p : FecPacket}
  {s : AudioLoop}

/-- **One datagram** of the stream, from where nothing has come from yet. -/
theorem Ordered.receive (hl : Laid start sent) (h : Ordered start sent bound log s.fecRx)
    (hp : p ∈ sent) (hsend : Sendable p) (hbound : bound ≤ placeOf start p) :
    ∃ s' out, audioReceive .release s (datagram p) = .ok (s', out) ∧
      Ordered start sent (placeOf start p + 1) (log ++ out) s'.fecRx := by
  obtain ⟨r₁, o₁, hfeed, -, -⟩ := h.tracks.step hl.stream (i := .packet p) hp
  have h₁ := h.fed hl hp hbound (feed_cases hfeed)
  cases hlast : p.1.flags.contains PacketFlags.lastPacket with
  | false =>
    refine ⟨⟨r₁, (r₁.lost, r₁.recovered)⟩, o₁, ?_, h₁⟩
    rw [audioReceive_datagram hsend, bind_of_ok _ (feedAndFlush_more hlast hfeed)]
    rfl
  | true =>
    obtain ⟨⟨r₂, o₂⟩, hflush⟩ := flush_release r₁
    obtain ⟨h₂, -⟩ := h₁.flushed hl (flush_cases hflush)
    refine ⟨⟨r₂, (r₂.lost, r₂.recovered)⟩, o₁ ++ o₂, ?_, by rwa [← List.append_assoc]⟩
    rw [audioReceive_datagram hsend, bind_of_ok _ (feedAndFlush_last hlast hfeed hflush)]
    rfl

/-- **The run rule**, over packets that come in order. -/
theorem Ordered.receiveAll (hl : Laid start sent) (hsend : ∀ p ∈ sent, Sendable p)
    (h : Ordered start sent bound log s.fecRx) (hin : ∀ p ∈ arrivals, p ∈ sent)
    (hrise : Rising start arrivals) (hbound : ∀ p ∈ arrivals, bound ≤ placeOf start p) :
    ∃ s' out bound', run (audioReceive .release) s (arrivals.map datagram) = .ok (s', out) ∧
      Ordered start sent bound' (log ++ out) s'.fecRx := by
  induction arrivals generalizing s log bound with
  | nil => exact ⟨s, [], bound, rfl, by rwa [List.append_nil]⟩
  | cons p arrivals ih =>
    obtain ⟨hnext, hrest⟩ := List.pairwise_cons.mp hrise
    have hp := hin p (by simp)
    obtain ⟨s₁, o₁, hone, h₁⟩ := h.receive hl hp (hsend p hp) (hbound p (by simp))
    obtain ⟨s₂, o₂, bound', hall, h₂⟩ :=
      ih h₁ (fun q hq => hin q (List.mem_cons_of_mem _ hq)) hrest fun q hq => hnext q hq
    exact ⟨s₂, o₁ ++ o₂, bound', run_cons_ok hone hall, by rwa [← List.append_assoc]⟩

/-- The stream itself rises. -/
theorem Laid.rising (hl : Laid start sent) : Rising start sent := by
  rw [Rising, List.pairwise_iff_getElem]
  intro i j hi hj hij
  rw [placeOf, hl.place_getElem (List.getElem?_eq_getElem hi), placeOf,
    hl.place_getElem (List.getElem?_eq_getElem hj)]
  exact hij

/-! ## The order of the stream -/

/-- What a packet carries: its number and its bytes. -/
def carried (p : FecPacket) : UInt16 × List UInt8 := (p.1.sequence, p.2)

/-- Of genuine packets that rise, none is missing from the stream or out of its order. -/
theorem carried_sublist (hl : Laid start sent) {out : List FecPacket}
    (hgenuine : ∀ p ∈ out, Genuine sent p) (hrise : Rising start out) :
    (out.map carried).Sublist ((dataOnly sent).map carried) := by
  let before : UInt16 × List UInt8 → UInt16 × List UInt8 → Prop :=
    fun a b => place start a.1 < place start b.1
  have hanti : Std.Antisymm before := ⟨fun a b hab hba => absurd hab (Nat.lt_asymm hba)⟩
  have hout : (out.map carried).Pairwise before := List.pairwise_map.mpr hrise
  have hsent : ((dataOnly sent).map carried).Pairwise before :=
    List.pairwise_map.mpr (hl.rising.sublist List.filter_sublist)
  have hnodup : (out.map carried).Nodup :=
    hout.imp fun hlt heq => absurd (heq ▸ hlt) (Nat.lt_irrefl _)
  refine List.sublist_of_subperm_of_pairwise (List.subperm_of_subset hnodup ?_) hout hsent
  intro c hc
  obtain ⟨p, hp, rfl⟩ := List.mem_map.mp hc
  obtain ⟨q, hq, hd, hseq, hpay⟩ := hgenuine p hp
  refine List.mem_map.mpr ⟨q, List.mem_filter.mpr ⟨hq, by rw [hd]; rfl⟩, ?_⟩
  rw [carried, carried, hseq, hpay]

/-- **Loss does not change the order.** A zone sends fewer than 65536 packets, with FEC
switched on and off as it likes, and the link loses any of them but keeps the order of
the rest. Then the receive loop runs to the end, and what it passes on, rebuilt packets
and the final flush included, is the data packets sent, by number and bytes, in the order
of sending and each at most once. -/
theorem delivered_in_sent_order {z : Zone} (hz : Fresh z) {ops : List Zone.Op}
    (hcalls : ∀ a, .sendAudioAll a ∈ ops → CallOk a) (hlen : (z.emitted ops).length < 65536)
    {arrivals : List FecPacket} (hlossy : arrivals.Sublist (z.emitted ops)) :
    ∃ s out r rest, run (audioReceive .release) .new (arrivals.map datagram) = .ok (s, out) ∧
      s.fecRx.flush .release = .ok (r, rest) ∧
      ((out ++ rest).map carried).Sublist ((dataOnly (z.emitted ops)).map carried) := by
  have hl := laid_emitted hz (opOk_of_callOk hcalls) hlen
  obtain ⟨s, out, bound, hrun, h⟩ := (ordered_new z.sequence (z.emitted ops) 0).receiveAll
    (s := .new) hl (fun p hp => sendable_emitted hcalls hl.stream hp)
    (fun p hp => hlossy.subset hp) (hl.rising.sublist hlossy) (fun _ _ => Nat.zero_le _)
  rw [List.nil_append] at h
  obtain ⟨⟨r, rest⟩, hflush⟩ := flush_release s.fecRx
  obtain ⟨h', -⟩ := h.flushed hl (flush_cases hflush)
  exact ⟨s, out, r, rest, hrun, hflush, carried_sublist hl h'.genuine h'.rising⟩

/-- A group of two, and a packet without FEC behind it. -/
def pairThenPlain : List Zone.Op := pairOps ++ [.disableFec, .sendAudioAll (audio 3000 [6])]

/-- The second packet is lost, and rebuilt in its place. -/
theorem delivered_in_sent_order_rebuilt :
    (run (audioReceive .release) .new
        (((pairZone.emitted pairThenPlain).eraseIdx 1).map datagram)).map
      (fun r => r.2.map carried) = .ok [(65535, [1, 2, 3]), (0, [4, 5]), (2, [6])] ∧
    ∃ s out r rest, run (audioReceive .release) .new
        (((pairZone.emitted pairThenPlain).eraseIdx 1).map datagram) = .ok (s, out) ∧
      s.fecRx.flush .release = .ok (r, rest) ∧
      ((out ++ rest).map carried).Sublist
        ((dataOnly (pairZone.emitted pairThenPlain)).map carried) := by
  refine ⟨by decide +kernel, ?_⟩
  refine delivered_in_sent_order fresh_pairZone ?_ (by decide +kernel) (List.eraseIdx_sublist _ _)
  intro a ha
  simp only [pairThenPlain, pairOps, List.cons_append, List.nil_append, List.mem_cons,
    Zone.Op.sendAudioAll.injEq, reduceCtorEq, List.not_mem_nil, or_false, false_or] at ha
  rcases ha with rfl | rfl | rfl <;> exact ⟨by decide, by decide, by decide⟩

end

end Oaat.Fec
