/-
Oaat.Fec.LossCount — when the loss counter of a receiver is honest.

`flush` counts every empty slot of the group it gives up. A slot is also empty
when its packet was never sent (the stream ends or restarts inside a group), was
sent before the receiver joined, arrives after the flush, or was delivered before
the group was opened a second time; each of these is counted as a loss. Where
every group that is flushed was sent to the receiver whole, and no data packet of
it arrives but those then held (`Settled`), the count is never more than the number
of data packets that were sent and never delivered. A flush of any other group
counts a packet that was not lost (`CountsLost`, `settled_iff`).

`Counting` is the invariant. It names the packets counted: distinct data packets
that were sent to this receiver and do not arrive. What makes the count last is
that their groups are over (`Closed`): no packet that is still to come belongs to
them, so none of them is opened again and no lost packet is rebuilt afterwards.
-/
import Oaat.Endpoint.AudioReceive
import Oaat.Fec.AnyOrder
import Oaat.Fec.AtMostOnce

namespace Oaat.Fec

open Oaat.Core Oaat.Controller Oaat.Core.FecReceiver Oaat.Endpoint Oaat.Lib

/-! ## The audio loop as receiver inputs -/

/-- What the audio loop does with a packet: it feeds it, and flushes behind the
last one of a stream. -/
def receptions (p : FecPacket) : List Input :=
  .packet p :: if p.1.flags.contains PacketFlags.lastPacket then [.flush] else []

/-- The audio loop over the arrivals, and the final flush. -/
def drain (b : Build) (arrivals : List FecPacket) :
    Except Panic (FecReceiver × List FecPacket) := do
  let (fecRx, out) ← run (feedAndFlush b) .new arrivals
  let (fecRx, rest) ← fecRx.flush b
  return (fecRx, out ++ rest)

/-- The same as inputs of the receiver. -/
def drainInputs (arrivals : List FecPacket) : List Input :=
  arrivals.flatMap receptions ++ [.flush]

theorem feedAndFlush_eq_run (b : Build) (r : FecReceiver) (p : FecPacket) :
    feedAndFlush b r p = run (FecReceiver.step b) r (receptions p) := by
  cases hf : r.feed b p with
  | error e =>
    have hstep : FecReceiver.step b r (.packet p) = .error e := hf
    simp [feedAndFlush, hf, receptions, run, hstep, bind, Except.bind]
  | ok x =>
    obtain ⟨r₁, o₁⟩ := x
    have hstep : FecReceiver.step b r (.packet p) = .ok (r₁, o₁) := hf
    cases hl : p.1.flags.contains PacketFlags.lastPacket with
    | false =>
      rw [feedAndFlush_more hl hf, receptions, hl]
      exact (run_single hstep).symm
    | true =>
      cases hfl : r₁.flush b with
      | error e =>
        have hflush : FecReceiver.step b r₁ .flush = .error e := hfl
        simp [feedAndFlush, hf, receptions, run, hstep, hl, hfl, hflush, bind, Except.bind]
      | ok y =>
        obtain ⟨r₂, o₂⟩ := y
        have hflush : FecReceiver.step b r₁ .flush = .ok (r₂, o₂) := hfl
        rw [feedAndFlush_last hl hf hfl, receptions, hl]
        exact (run_cons_ok hstep (run_single hflush)).symm

theorem drain_eq_run (b : Build) (arrivals : List FecPacket) :
    drain b arrivals = run (FecReceiver.step b) .new (drainInputs arrivals) := by
  rw [drain, drainInputs, run_append, run_flatMap (feedAndFlush_eq_run b)]
  cases run (FecReceiver.step b) .new (arrivals.flatMap receptions) with
  | error e => rfl
  | ok x =>
    have hflush : FecReceiver.step b x.1 .flush = x.1.flush b := rfl
    simp only [bind, Except.bind, run_singleton, hflush]
    cases x.1.flush b <;> rfl

/-! ## The condition -/

/-- A data packet of some group. -/
def InGroup (p : FecPacket) : Prop := isParity p = false ∧ p.1.fecGroupSize ≠ 0

/-- The group under assembly was sent to this receiver whole, and the data packets
of it that arrive, early or late, are the ones held. -/
def Settled (sentTo arrivals : List FecPacket) (r : FecReceiver) : Prop :=
  ∀ base, r.baseSeq = some base →
    (∃ ds, IsGroup sentTo base r.groupSize ds ∧ ds.length = r.slots.length) ∧
      ∀ p ∈ arrivals, InGroup p → dataBase p = base → p ∈ r.held

/-- A step gives up no group but a settled one. -/
def FlushesSettled (sentTo arrivals : List FecPacket) (r : FecReceiver) : Input → Prop
  | .packet p => Flushes r p → Settled sentTo arrivals r
  | .flush => Settled sentTo arrivals r

/-- Every slot that a flush would count is that of a data packet which was sent to
this receiver and does not arrive. -/
def CountsLost (sentTo arrivals : List FecPacket) (r : FecReceiver) : Prop :=
  ∀ base, r.baseSeq = some base → ∀ i : Nat, r.slots[i]? = some none →
    ∃ d, DataOf sentTo base r.groupSize d ∧ d.1.fecIndex.toNat = i ∧ d ∉ arrivals

/-- A step counts nothing but lost packets. -/
def FlushesLost (sentTo arrivals : List FecPacket) (r : FecReceiver) : Input → Prop
  | .packet p => Flushes r p → CountsLost sentTo arrivals r
  | .flush => CountsLost sentTo arrivals r

/-! ## The packets counted -/

/-- What a receiver that joined a stream may be sent, and what arrives of it. -/
structure Joined (sent sentTo arrivals : List FecPacket) : Prop where
  stream : FecStream sent
  joined : ∀ p ∈ sentTo, p ∈ sent
  arrived : ∀ p ∈ arrivals, p ∈ sentTo
  small : sentTo.length < 65536

/-- The group of `x` is over: it is not under assembly, and its data packets other
than `x` that arrive have arrived. -/
def Closed (arrivals done : List FecPacket) (r : FecReceiver) (x : FecPacket) : Prop :=
  r.baseSeq ≠ some (dataBase x) ∧
    ∀ p ∈ arrivals, InGroup p → dataBase p = dataBase x → p ≠ x → p ∈ done

/-- After the arrivals `done` the receiver has delivered `log` and counted the
packets `counted` as lost. -/
structure Counting (sent sentTo arrivals done log : List FecPacket) (r : FecReceiver)
    (counted : List FecPacket) : Prop where
  tracks : Tracks sent r
  held : ∀ q ∈ r.held, q ∈ done
  received : ∀ p ∈ done, p ∈ arrivals
  length : r.lost = counted.length
  nodup : counted.Nodup
  real : ∀ q ∈ counted, q ∈ sentTo ∧ isParity q = false ∧ q ∉ arrivals
  closed : ∀ q ∈ counted, Closed arrivals done r q
  undelivered : ∀ q ∈ counted, ∀ p ∈ log, p.1.sequence ≠ q.1.sequence
  source : ∀ p ∈ log, ∃ x ∈ sent, isParity x = false ∧ x.1.sequence = p.1.sequence ∧
    (x ∈ done ∨ Closed arrivals done r x)

theorem missing_gathered (ds seen : List FecPacket) :
    missing (gathered ds seen) = (ds.filter (· ∉ seen)).length := by
  rw [missing, gathered, List.countP_map, List.countP_eq_length_filter]
  congr 1
  refine List.filter_congr ?_
  intro d _
  by_cases hd : d ∈ seen <;> simp [hd]

section

variable {b : Build} {sent sentTo arrivals done done' log out counted : List FecPacket}
  {r r' : FecReceiver} {p q x : FecPacket}

theorem Closed.more (h : Closed arrivals done r x)
    (hb : ∀ base, r'.baseSeq = some base → r.baseSeq = some base)
    (hdone : ∀ p ∈ done, p ∈ done') : Closed arrivals done' r' x :=
  ⟨fun hx => h.1 (hb _ hx), fun p hp hg hbase hne => hdone p (h.2 p hp hg hbase hne)⟩

theorem Closed.idle (h : Closed arrivals done r x) (hb : r'.baseSeq = none) :
    Closed arrivals done r' x :=
  h.more (fun base hbase => by rw [hb] at hbase; cases hbase) fun _ hp => hp

/-- A packet that opens a group opens none that is over, unless it is the missing
packet of it. -/
theorem Closed.opened (h : Closed arrivals done r x) (hp : p ∈ arrivals) (hg : InGroup p)
    (hnew : p ∉ done) (hb : r'.baseSeq = some (dataBase p)) :
    x ∈ done ++ [p] ∨ Closed arrivals (done ++ [p]) r' x := by
  by_cases hx : p = x
  · exact .inl (by simp [hx])
  · refine .inr ⟨?_, fun y hy hyg hbase hne => List.mem_append_left _ (h.2 y hy hyg hbase hne)⟩
    rw [hb, ne_eq, Option.some.injEq]
    exact fun hbase => hnew (h.2 p hp hg hbase hx)

/-- The receiver changes, but delivers and counts nothing. -/
theorem Counting.move (h : Counting sent sentTo arrivals done log r counted)
    (ht : Tracks sent r') (hheld : ∀ q ∈ r'.held, q ∈ done') (hlost : r'.lost = r.lost)
    (hdone : ∀ p ∈ done, p ∈ done') (hsub : ∀ p ∈ done', p ∈ arrivals)
    (hclosed : ∀ x, Closed arrivals done r x → x ∈ done' ∨ Closed arrivals done' r' x) :
    Counting sent sentTo arrivals done' log r' counted where
  tracks := ht
  held := hheld
  received := hsub
  length := hlost.trans h.length
  nodup := h.nodup
  real := h.real
  closed q hq := by
    rcases hclosed q (h.closed q hq) with hmem | hc
    · exact absurd (hsub q hmem) (h.real q hq).2.2
    · exact hc
  undelivered := h.undelivered
  source p hp := by
    obtain ⟨x, hx, hd, hs, hmem | hc⟩ := h.source p hp
    · exact ⟨x, hx, hd, hs, .inl (hdone x hmem)⟩
    · exact ⟨x, hx, hd, hs, hclosed x hc⟩

/-- A packet arrives, and is held or not. -/
theorem Counting.arrive (h : Counting sent sentTo arrivals done log r counted)
    (hp : p ∈ arrivals) (ht : Tracks sent r') (hheld : ∀ q ∈ r'.held, q ∈ r.held ∨ q = p)
    (hlost : r'.lost = r.lost)
    (hclosed : ∀ x, Closed arrivals done r x →
      x ∈ done ++ [p] ∨ Closed arrivals (done ++ [p]) r' x) :
    Counting sent sentTo arrivals (done ++ [p]) log r' counted := by
  refine h.move ht ?_ hlost (fun x hx => List.mem_append_left _ hx) ?_ hclosed
  · intro q hq
    rcases hheld q hq with hq | rfl
    · exact List.mem_append_left _ (h.held q hq)
    · simp
  · intro x hx
    rcases List.mem_append.mp hx with hx | hx
    · exact h.received x hx
    · rw [List.mem_singleton.mp hx]
      exact hp

/-- A packet arrives and leaves the group under assembly as it is. -/
theorem Counting.arrive_same (h : Counting sent sentTo arrivals done log r counted)
    (hp : p ∈ arrivals) (ht : Tracks sent r') (hheld : ∀ q ∈ r'.held, q ∈ r.held ∨ q = p)
    (hlost : r'.lost = r.lost) (hb : r'.baseSeq = r.baseSeq) :
    Counting sent sentTo arrivals (done ++ [p]) log r' counted := by
  refine h.arrive hp ht hheld hlost ?_
  intro x hx
  refine .inr (hx.more (fun base hbase => ?_) fun y hy => List.mem_append_left _ hy)
  rwa [hb] at hbase

/-- The group under assembly is closed without counting. -/
theorem Counting.close (h : Counting sent sentTo arrivals done log r counted) (n : Nat) :
    Counting sent sentTo arrivals done log { r.closed with recovered := n } counted :=
  h.move (Tracks.of_idle rfl rfl rfl) (by simp [FecReceiver.held, FecReceiver.closed]) rfl
    (fun _ hp => hp) h.received fun _ hx => .inr (hx.idle rfl)

/-- Packets are delivered that are not among those counted. -/
theorem Counting.emit (h : Counting sent sentTo arrivals done log r counted)
    (hnew : ∀ q ∈ counted, ∀ p ∈ out, p.1.sequence ≠ q.1.sequence)
    (hsource : ∀ p ∈ out, ∃ x ∈ sent, isParity x = false ∧ x.1.sequence = p.1.sequence ∧
      (x ∈ done ∨ Closed arrivals done r x)) :
    Counting sent sentTo arrivals done (log ++ out) r counted where
  tracks := h.tracks
  held := h.held
  received := h.received
  length := h.length
  nodup := h.nodup
  real := h.real
  closed := h.closed
  undelivered q hq p hp := by
    rcases List.mem_append.mp hp with hp | hp
    · exact h.undelivered q hq p hp
    · exact hnew q hq p hp
  source p hp := by
    rcases List.mem_append.mp hp with hp | hp
    · exact h.source p hp
    · exact hsource p hp

/-- A packet that arrived is not among those counted. -/
theorem Counting.ne_of_done (hj : Joined sent sentTo arrivals)
    (h : Counting sent sentTo arrivals done log r counted) (hq : q ∈ counted) (hp : p ∈ done) :
    p.1.sequence ≠ q.1.sequence := by
  intro hs
  obtain ⟨hqs, -, hqa⟩ := h.real q hq
  have hpa := h.received p hp
  have hpq := hj.stream.eq_of_sequence (hj.joined p (hj.arrived p hpa)) (hj.joined q hqs) hs
  exact hqa (hpq ▸ hpa)

/-- Delivering data packets that arrived. -/
theorem Counting.emit_done (hj : Joined sent sentTo arrivals)
    (h : Counting sent sentTo arrivals done log r counted)
    (hout : ∀ p ∈ out, p ∈ done ∧ isParity p = false) :
    Counting sent sentTo arrivals done (log ++ out) r counted := by
  refine h.emit (fun q hq p hp => h.ne_of_done hj hq (hout p hp).1) ?_
  intro p hp
  obtain ⟨hd, hpar⟩ := hout p hp
  exact ⟨p, hj.joined p (hj.arrived p (h.received p hd)), hpar, rfl, .inl hd⟩

/-! ## Steps -/

/-- The slots of a group that was sent whole: those not held are blank. -/
theorem slots_eq_gathered (hj : Joined sent sentTo arrivals) (ht : Tracks sent r) {base : UInt16}
    {ds : List FecPacket} (hb : r.baseSeq = some base)
    (hg : IsGroup sentTo base r.groupSize ds) (hlen : ds.length = r.slots.length) :
    r.slots = gathered ds r.held := by
  have hplace : ∀ {i : Nat} {d : FecPacket}, r.slots[i]? = some (some d) → ds[i]? = some d := by
    intro i d hslot
    obtain ⟨hd, hidx⟩ := ht.slot base hb i d hslot
    have hi : i < ds.length := by
      rw [hlen]
      exact (List.getElem?_eq_some_iff.mp hslot).1
    have hget := List.getElem?_eq_getElem hi
    have hmem := (hg.mem _ (List.getElem_mem hi)).1
    have hseq := (hg.position i _ hget).2
    rw [hget, hj.stream.eq_of_sequence (hj.joined _ hmem) hd.mem
      (by rw [hseq, sequence_eq_base_add d, hd.base, hidx])]
  refine List.ext_getElem? ?_
  intro i
  rw [gathered, List.getElem?_map]
  by_cases hi : i < ds.length
  · have hi' : i < r.slots.length := by omega
    have hget := List.getElem?_eq_getElem hi
    rw [List.getElem?_eq_getElem hi', hget, Option.map_some]
    congr 1
    cases hslot : r.slots[i] with
    | some d =>
      have hget' : r.slots[i]? = some (some d) := by
        rw [List.getElem?_eq_getElem hi', hslot]
      have hd : ds[i] = d := Option.some.inj (hget.symm.trans (hplace hget'))
      have hheld : d ∈ r.held := List.mem_filterMap.mpr ⟨some d, List.mem_of_getElem? hget', rfl⟩
      rw [hd, if_pos hheld]
    | none =>
      rw [if_neg]
      intro hheld
      -- held in a slot of its own, hence in this one
      obtain ⟨s, hs, hsd⟩ := List.mem_filterMap.mp hheld
      rw [id_eq] at hsd
      subst hsd
      obtain ⟨j, hjs⟩ := List.mem_iff_getElem?.mp hs
      have hidx := (hg.position j _ (hplace hjs)).1
      rw [(hg.position i _ hget).1] at hidx
      subst hidx
      rw [List.getElem?_eq_getElem hi', hslot] at hjs
      cases hjs
  · rw [List.getElem?_eq_none (by omega), List.getElem?_eq_none (by omega)]
    rfl

/-- **Settled, exactly.** A flush counts nothing but data packets that were sent to
this receiver and never arrive if and only if the group is settled. -/
theorem settled_iff (hj : Joined sent sentTo arrivals) (ht : Tracks sent r)
    (hheld : ∀ q ∈ r.held, q ∈ arrivals) :
    Settled sentTo arrivals r ↔ CountsLost sentTo arrivals r := by
  constructor
  · intro hs base hb i hslot
    obtain ⟨hz, -⟩ := ht.opener base hb
    obtain ⟨⟨ds, hg, hlen⟩, hall⟩ := hs base hb
    rw [slots_eq_gathered hj ht hb hg hlen, gathered, List.getElem?_map,
      Option.map_eq_some_iff] at hslot
    obtain ⟨d, hi, hnone⟩ := hslot
    have hout : d ∉ r.held := by
      intro hd
      rw [if_pos hd] at hnone
      cases hnone
    have hmem := List.mem_of_getElem? hi
    obtain ⟨hsent, hd, hsize⟩ := hg.mem d hmem
    have hbase := hg.base_eq hmem
    exact ⟨d, ⟨hsent, hd, hsize, hbase⟩, (hg.position i d hi).1,
      fun ha => hout (hall d ha ⟨hd, by rw [hsize]; exact hz⟩ hbase)⟩
  · intro hblank base hb
    -- the packet of each slot: the one held, or the lost one
    have hslot : ∀ i : Fin r.slots.length, ∃ d,
        DataOf sentTo base r.groupSize d ∧ d.1.fecIndex.toNat = i := by
      intro i
      have hget : r.slots[i.val]? = some r.slots[i.val] := List.getElem?_eq_getElem i.isLt
      cases hs : r.slots[i.val] with
      | none =>
        rw [hs] at hget
        obtain ⟨d, hd, hidx, -⟩ := hblank base hb i hget
        exact ⟨d, hd, hidx⟩
      | some d =>
        rw [hs] at hget
        obtain ⟨hd, hidx⟩ := ht.slot base hb i d hget
        have hmem : d ∈ r.held := List.mem_filterMap.mpr ⟨some d, List.mem_of_getElem? hget, rfl⟩
        exact ⟨d, ⟨hj.arrived d (hheld d hmem), hd.data, hd.size, hd.base⟩, hidx⟩
    choose packet hpacket using hslot
    refine ⟨⟨List.ofFn packet, ⟨?_, ?_⟩, List.length_ofFn⟩, ?_⟩
    · intro d hd
      obtain ⟨i, rfl⟩ := List.mem_ofFn.mp hd
      obtain ⟨hdata, -⟩ := hpacket i
      exact ⟨hdata.mem, hdata.data, hdata.size⟩
    · intro i d hi
      obtain ⟨hlt, rfl⟩ := List.getElem?_eq_some_iff.mp hi
      rw [List.getElem_ofFn]
      obtain ⟨hdata, hidx⟩ := hpacket ⟨i, by simpa using hlt⟩
      refine ⟨hidx, ?_⟩
      rw [sequence_eq_base_add, hdata.base, hidx]
    · intro p hp hpg hbase
      have hpsent := hj.joined p (hj.arrived p hp)
      by_contra hout
      have hempty := ht.slot_empty hj.stream hpsent hpg.1 hpg.2 (by rw [hb, hbase]) hout
      obtain ⟨d, hd, hidx, hda⟩ := hblank base hb _ hempty
      have hpd : p = d := hj.stream.eq_of_sequence hpsent (hj.joined d hd.mem)
        (by rw [sequence_eq_base_add p, sequence_eq_base_add d, hbase, hd.base, hidx])
      exact hda (hpd ▸ hp)

/-- The two conditions agree along every run over what arrives. -/
theorem along_settled_iff (hj : Joined sent sentTo arrivals) : ∀ (is : List Input)
    (r : FecReceiver), (∀ i ∈ is, Received arrivals i) → Tracks sent r →
    (∀ q ∈ r.held, q ∈ arrivals) →
    (Along (FecReceiver.step b) (FlushesSettled sentTo arrivals) r is ↔
      Along (FecReceiver.step b) (FlushesLost sentTo arrivals) r is)
  | [], _, _, _, _ => Iff.rfl
  | i :: is, r, harrive, ht, hheld => by
      obtain ⟨hi, hmore⟩ := List.forall_mem_cons.mp harrive
      have hrest : ∀ r' o, FecReceiver.step b r i = .ok (r', o) →
          (Along (FecReceiver.step b) (FlushesSettled sentTo arrivals) r' is ↔
            Along (FecReceiver.step b) (FlushesLost sentTo arrivals) r' is) := by
        intro r' o hstep
        cases i with
        | packet p =>
          have hf := feed_cases hstep
          refine along_settled_iff hj is r' hmore
            (ht.fed hj.stream (hj.joined p (hj.arrived p hi)) hf).1 fun q hq => ?_
          rcases ht.held_of_fed hf hq with hq | rfl
          · exact hheld q hq
          · exact hi
        | flush =>
          have hf := flush_cases hstep
          have hempty := (accounting_flushed ht hf).2.1
          exact along_settled_iff hj is r' hmore (ht.flushed hf).1 fun q hq => by
            rw [hempty] at hq
            cases hq
      have hhead : FlushesSettled sentTo arrivals r i ↔ FlushesLost sentTo arrivals r i := by
        cases i with
        | packet p => exact imp_congr_right fun _ => settled_iff hj ht hheld
        | flush => exact settled_iff hj ht hheld
      exact and_congr hhead ⟨fun h r' o hstep => (hrest r' o hstep).mp (h r' o hstep),
        fun h r' o hstep => (hrest r' o hstep).mpr (h r' o hstep)⟩

theorem IsGroup.nodup {base : UInt16} {size : UInt8} {ds : List FecPacket}
    (h : IsGroup sent base size ds) : ds.Nodup := by
  rw [List.nodup_iff_getElem?_ne_getElem?]
  intro i j hij hjlt heq
  have hi := List.getElem?_eq_getElem (show i < ds.length by omega)
  have hidx := (h.position i _ hi).1
  rw [(h.position j _ (heq.symm.trans hi)).1] at hidx
  omega

/-- The packets of a settled group that are not held: as many as it lacks, and none
of them arrives. -/
theorem Settled.lost (hj : Joined sent sentTo arrivals) (ht : Tracks sent r)
    (hs : Settled sentTo arrivals r) {base : UInt16} (hb : r.baseSeq = some base) :
    ∃ lost : List FecPacket, missing r.slots = lost.length ∧ lost.Nodup ∧ ∀ q ∈ lost,
      q ∈ sentTo ∧ isParity q = false ∧ dataBase q = base ∧ q ∉ arrivals := by
  obtain ⟨⟨ds, hg, hlen⟩, hall⟩ := hs base hb
  refine ⟨ds.filter (· ∉ r.held), ?_, hg.nodup.filter _, ?_⟩
  · conv => lhs; rw [slots_eq_gathered hj ht hb hg hlen]
    exact missing_gathered ds r.held
  · intro q hq
    rw [List.mem_filter, decide_eq_true_eq] at hq
    obtain ⟨hsent, hd, hsize⟩ := hg.mem q hq.1
    have hz : q.1.fecGroupSize ≠ 0 := by
      rw [hsize]
      exact (ht.opener base hb).1
    have hbase := hg.base_eq hq.1
    exact ⟨hsent, hd, hbase, fun ha => hq.2 (hall q ha ⟨hd, hz⟩ hbase)⟩

/-- No packet of the group under assembly was delivered that does not arrive. -/
theorem Counting.not_logged (hj : Joined sent sentTo arrivals)
    (h : Counting sent sentTo arrivals done log r counted)
    (hb : r.baseSeq = some (dataBase q)) (hq : q ∈ sentTo) (ha : q ∉ arrivals)
    (hp : p ∈ log) : p.1.sequence ≠ q.1.sequence := by
  intro heq
  obtain ⟨x, hx, -, hxs, hsource⟩ := h.source p hp
  have hxq : x = q := hj.stream.eq_of_sequence hx (hj.joined q hq) (hxs.trans heq)
  subst hxq
  rcases hsource with hmem | hc
  · exact ha (h.received x hmem)
  · exact hc.1 hb

/-- **A flush of a settled group** counts packets that were sent and never arrive. -/
theorem Counting.flush (hj : Joined sent sentTo arrivals)
    (h : Counting sent sentTo arrivals done log r counted) (hs : Settled sentTo arrivals r)
    (hf : Flushed b r r' out) :
    ∃ counted', Counting sent sentTo arrivals done (log ++ out) r' counted' := by
  obtain ⟨htracks, -⟩ := h.tracks.flushed hf
  cases hf with
  | idle hb =>
    rw [List.append_nil]
    exact ⟨counted, h⟩
  | group base n hb hn =>
    obtain ⟨lost, hmissing, hnodup, hlost⟩ := hs.lost hj h.tracks hb
    have hnd : (counted ++ lost).Nodup := by
      refine List.nodup_append.mpr ⟨h.nodup, hnodup, ?_⟩
      rintro q hq _ hq' rfl
      exact (h.closed q hq).1 (by rw [hb, (hlost q hq').2.2.1])
    have hreal : ∀ q ∈ counted ++ lost, q ∈ sentTo ∧ isParity q = false ∧ q ∉ arrivals := by
      intro q hq
      rcases List.mem_append.mp hq with hq | hq
      · exact h.real q hq
      · obtain ⟨hsent, hd, -, ha⟩ := hlost q hq
        exact ⟨hsent, hd, ha⟩
    have hcount : n = (counted ++ lost).length := by
      have hle := (List.subperm_of_subset hnd fun q hq => (hreal q hq).1).length_le
      have hsmall := hj.small
      rw [List.length_append] at hle ⊢
      rw [h.length, hmissing, Build.u64_of_fits _ (by omega)] at hn
      exact (Except.ok.inj hn).symm
    have hafter : Counting sent sentTo arrivals done log { r.closed with lost := n }
        (counted ++ lost) := by
      refine ⟨htracks, by simp [FecReceiver.held, FecReceiver.closed], h.received, hcount, hnd,
        hreal, ?_, ?_, ?_⟩
      · intro q hq
        rcases List.mem_append.mp hq with hq | hq
        · exact (h.closed q hq).idle rfl
        · refine ⟨by simp [FecReceiver.closed], ?_⟩
          intro p hp hpg hbase _
          rw [(hlost q hq).2.2.1] at hbase
          exact h.held p ((hs base hb).2 p hp hpg hbase)
      · intro q hq p hp
        rcases List.mem_append.mp hq with hq | hq
        · exact h.undelivered q hq p hp
        · obtain ⟨hsent, -, rfl, ha⟩ := hlost q hq
          exact h.not_logged hj hb hsent ha hp
      · intro p hp
        obtain ⟨x, hx, hd, hxs, hmem | hc⟩ := h.source p hp
        · exact ⟨x, hx, hd, hxs, .inl hmem⟩
        · exact ⟨x, hx, hd, hxs, .inr (hc.idle rfl)⟩
    exact ⟨_, hafter.emit_done hj fun p hp => ⟨h.held p hp, (h.tracks.held_sent hp).2⟩⟩

/-- The packet rebuilt into a gap: its group is over, since the other packets of it
that arrive are held. -/
theorem Counting.rebuilt (hj : Joined sent sentTo arrivals)
    (h : Counting sent sentTo arrivals done log r counted) {base : UInt16}
    (hb : r.baseSeq = some base) {pre post : List FecPacket} (hs : r.slots = oneGap pre post)
    {lx : UInt16} {pl : List UInt8} (hpar : r.parity = some (lx, pl)) (n : Nat) :
    ∃ x ∈ sent, isParity x = false ∧ dataBase x = base ∧
      x.1.sequence = base + UInt16.ofNat pre.length ∧
      Closed arrivals done { r.closed with recovered := n } x := by
  obtain ⟨q, -, -, rfl, -, -, -, x, hgroup⟩ := h.tracks.gap hj.stream hb hs hpar
  have hx : x ∈ pre ++ x :: post := by simp
  have hxi : (pre ++ x :: post)[pre.length]? = some x := by simp
  obtain ⟨hxsent, hxd, -⟩ := hgroup.group.mem x hx
  have hxbase := hgroup.group.base_eq hx
  refine ⟨x, hxsent, hxd, hxbase, (hgroup.group.position _ _ hxi).2,
    by simp [FecReceiver.closed], ?_⟩
  intro y hy hyg hybase hne
  have hysent := hj.joined y (hj.arrived y hy)
  obtain ⟨-, hget⟩ := hgroup.eq_getElem hj.stream hysent hyg.1 hyg.2 (by rw [hybase, hxbase])
  refine h.held y ?_
  rw [FecReceiver.held, hs, filterMap_oneGap]
  rcases List.mem_append.mp (List.mem_of_getElem? hget) with hpre | hrest
  · exact List.mem_append_left _ hpre
  · rcases List.mem_cons.mp hrest with rfl | hpost
    · exact absurd rfl hne
    · exact List.mem_append_right _ hpost

/-- Completing a group counts nothing, and rebuilds no packet counted before. -/
theorem Counting.complete (hj : Joined sent sentTo arrivals)
    (h : Counting sent sentTo arrivals done log r counted) {base : UInt16}
    (hb : r.baseSeq = some base) (hc : Completion b r r' out) :
    Counting sent sentTo arrivals done (log ++ out) r' counted := by
  cases hc with
  | complete hm hne =>
    exact (h.close r.recovered).emit_done hj fun p hp =>
      ⟨h.held p hp, (h.tracks.held_sent hp).2⟩
  | rebuilt pre post lx pl hd n hs hp hh hn =>
    obtain ⟨x, hxsent, hxd, hxbase, hxseq, hclosed⟩ := h.rebuilt hj hb hs hp n
    have hseq : hd.sequence = x.1.sequence := by
      obtain ⟨len, hlen⟩ := hh
      rw [(synthesizeHeader_fields hlen).1, hxseq, hb]
      rfl
    have hholds : ∀ p ∈ pre ++ post, p ∈ r.held := fun p hp => by
      rw [FecReceiver.held, hs, filterMap_oneGap]
      exact hp
    have hcases : ∀ p ∈ pre ++ (hd, rebuiltPayload ((pre ++ post).map (·.2)) lx pl) :: post,
        p ∈ r.held ∨ p.1.sequence = x.1.sequence := by
      intro p hmem
      rcases List.mem_append.mp hmem with hpre | hrest
      · exact .inl (hholds p (List.mem_append_left _ hpre))
      · rcases List.mem_cons.mp hrest with rfl | hpost
        · exact .inr hseq
        · exact .inl (hholds p (List.mem_append_right _ hpost))
    refine (h.close n).emit ?_ ?_
    · intro q hq p hmem heq
      rcases hcases p hmem with hheld | hpx
      · exact h.ne_of_done hj hq (h.held p hheld) heq
      · have hxq : x = q := hj.stream.eq_of_sequence hxsent (hj.joined q (h.real q hq).1)
          (hpx.symm.trans heq)
        exact (h.closed q hq).1 (by rw [hb, ← hxq, hxbase])
    · intro p hmem
      rcases hcases p hmem with hheld | hpx
      · obtain ⟨hpsent, hpd⟩ := h.tracks.held_sent hheld
        exact ⟨p, hpsent, hpd, rfl, .inl (h.held p hheld)⟩
      · exact ⟨x, hxsent, hxd, hpx.symm, .inr hclosed⟩
  | wait hm hp =>
    rw [List.append_nil]
    exact h

theorem Counting.store (hj : Joined sent sentTo arrivals)
    (h : Counting sent sentTo arrivals done log r counted) (hp : p ∈ arrivals) (hg : InGroup p)
    (hb : r.baseSeq = some (dataBase p)) :
    Counting sent sentTo arrivals (done ++ [p]) log (r.store p) counted :=
  h.arrive_same hp (h.tracks.store hj.stream (hj.joined p (hj.arrived p hp)) hg.1 hg.2 hb)
    (fun _ => held_of_store) (store_lost r p) (store_baseSeq r p)

/-- Opening the group of a packet, and putting the packet in it. -/
theorem Counting.openGroup (hj : Joined sent sentTo arrivals)
    (h : Counting sent sentTo arrivals done log r counted) (hp : p ∈ arrivals) (hg : InGroup p)
    (hnew : p ∉ done) :
    Counting sent sentTo arrivals (done ++ [p]) log ((r.openGroup p).store p) counted := by
  have hpsent := hj.joined p (hj.arrived p hp)
  have htracks := (Tracks.openGroup (r := r) hpsent hg.1 hg.2).store hj.stream hpsent hg.1 hg.2 rfl
  refine h.arrive hp htracks ?_ (store_lost _ p) fun x hx =>
    hx.opened hp hg hnew (store_baseSeq _ p)
  intro q hq
  rcases held_of_store hq with hq | rfl
  · simp [FecReceiver.held, FecReceiver.openGroup] at hq
  · exact .inr rfl

/-- **One packet.** -/
theorem Counting.fed (hj : Joined sent sentTo arrivals)
    (h : Counting sent sentTo arrivals done log r counted) (hp : p ∈ arrivals) (hnew : p ∉ done)
    (hs : Flushes r p → Settled sentTo arrivals r) (hf : Fed b r p r' out) :
    ∃ counted', Counting sent sentTo arrivals (done ++ [p]) (log ++ out) r' counted' := by
  have hpsent := hj.joined p (hj.arrived p hp)
  cases hf with
  | plain hz hd hf =>
    obtain ⟨counted', h₁⟩ := h.flush hj (hs ⟨hd, .inl hz⟩) hf
    have h₂ := h₁.arrive_same hp h₁.tracks (fun _ => .inl) rfl rfl
    rw [← List.append_assoc]
    exact ⟨counted', h₂.emit_done hj fun q hq => by
      rw [List.mem_singleton.mp hq]
      exact ⟨by simp, hd⟩⟩
  | strayParity hd hb =>
    rw [List.append_nil]
    exact ⟨counted, h.arrive_same hp h.tracks (fun _ => .inl) rfl rfl⟩
  | parity hd hb hc =>
    have h₁ := h.arrive_same hp (h.tracks.setParity hpsent hd hb) (fun _ => .inl) rfl rfl
    exact ⟨counted, h₁.complete hj hb hc⟩
  | straggler hz hd hprev hb =>
    have h₁ := h.arrive_same hp h.tracks (fun _ => .inl) rfl rfl
    exact ⟨counted, h₁.emit_done hj fun q hq => by
      rw [List.mem_singleton.mp hq]
      exact ⟨by simp, hd⟩⟩
  | switch hz hd hprev hb hf hc =>
    obtain ⟨counted', h₁⟩ := h.flush hj (hs ⟨hd, .inr ⟨hprev, hb⟩⟩) hf
    have hbase : ∀ s : FecReceiver, ((s.openGroup p).store p).baseSeq = some (dataBase p) :=
      fun s => by rw [store_baseSeq]; rfl
    rw [← List.append_assoc]
    exact ⟨counted', (h₁.openGroup hj hp ⟨hd, hz⟩ hnew).complete hj (hbase _) hc⟩
  | same hz hd hb hc =>
    exact ⟨counted, (h.store hj hp ⟨hd, hz⟩ hb).complete hj (by rw [store_baseSeq, hb]) hc⟩

/-! ## Runs -/

/-- One packet as the audio loop handles it, with the flush behind a last one. -/
theorem Counting.receptions (hj : Joined sent sentTo arrivals)
    (h : Counting sent sentTo arrivals done log r counted) (hp : p ∈ arrivals) (hnew : p ∉ done)
    (hs : Along (FecReceiver.step b) (FlushesSettled sentTo arrivals) r (receptions p))
    (hrun : run (FecReceiver.step b) r (receptions p) = .ok (r', out)) :
    ∃ counted', Counting sent sentTo arrivals (done ++ [p]) (log ++ out) r' counted' := by
  obtain ⟨r₁, o₁, o₂, hfeed, hrest, rfl⟩ := run_cons_inv hrun
  obtain ⟨counted₁, h₁⟩ := h.fed hj hp hnew hs.1 (feed_cases hfeed)
  have hafter := hs.2 r₁ o₁ hfeed
  cases hl : p.1.flags.contains PacketFlags.lastPacket with
  | false =>
    simp only [hl, Bool.false_eq_true, if_false, run_nil, Except.ok.injEq, Prod.mk.injEq] at hrest
    obtain ⟨rfl, rfl⟩ := hrest
    rw [List.append_nil]
    exact ⟨counted₁, h₁⟩
  | true =>
    simp only [hl, if_true] at hrest hafter
    rw [run_singleton] at hrest
    rw [← List.append_assoc]
    exact h₁.flush hj hafter.1 (flush_cases hrest)

/-- **A run of the audio loop** in which only settled groups are given up. -/
theorem Counting.run (hj : Joined sent sentTo arrivals) {todo : List FecPacket}
    (h : Counting sent sentTo arrivals done log r counted) (hnd : (done ++ todo).Nodup)
    (hsub : ∀ p ∈ todo, p ∈ arrivals)
    (hc : Along (FecReceiver.step b) (FlushesSettled sentTo arrivals) r (drainInputs todo))
    (hrun : run (FecReceiver.step b) r (drainInputs todo) = .ok (r', out)) :
    ∃ counted', Counting sent sentTo arrivals (done ++ todo) (log ++ out) r' counted' := by
  induction todo generalizing done log r counted out with
  | nil =>
    have hflush : FecReceiver.step b r .flush = .ok (r', out) :=
      (run_singleton r Input.flush).symm.trans hrun
    rw [List.append_nil]
    exact h.flush hj hc.1 (flush_cases hflush)
  | cons p todo ih =>
    have hnew : p ∉ done := fun hmem =>
      (List.nodup_append.mp hnd).2.2 p hmem p (by simp) rfl
    have hsplit : drainInputs (p :: todo) = Fec.receptions p ++ drainInputs todo := by
      simp [drainInputs]
    rw [hsplit] at hc hrun
    obtain ⟨r₁, o₁, o₂, hfst, hrest, rfl⟩ := run_append_inv hrun
    obtain ⟨hc₁, hc₂⟩ := along_append_inv hfst hc
    obtain ⟨counted₁, h₁⟩ := h.receptions hj (hsub p (by simp)) hnew hc₁ hfst
    obtain ⟨counted₂, h₂⟩ := ih h₁ (by simpa using hnd)
      (fun x hx => hsub x (List.mem_cons_of_mem _ hx)) hc₂ hrest
    rw [List.append_assoc, List.append_assoc] at h₂
    exact ⟨counted₂, h₂⟩

/-- The packets counted are among those never delivered. -/
theorem Counting.lost_le (h : Counting sent sentTo arrivals done log r counted) :
    r.lost ≤ (dataOnly sentTo).countP fun d => d.1.sequence ∉ log.map (·.1.sequence) := by
  rw [h.length, List.countP_eq_length_filter]
  refine (List.subperm_of_subset h.nodup ?_).length_le
  intro q hq
  obtain ⟨hsent, hd, -⟩ := h.real q hq
  refine List.mem_filter.mpr ⟨List.mem_filter.mpr ⟨hsent, by simp [hd]⟩, ?_⟩
  rw [decide_eq_true_eq, List.mem_map]
  rintro ⟨p, hp, hs⟩
  exact h.undelivered q hq p hp hs

theorem Counting.lost_zero (h : Counting sent sentTo arrivals done log r counted)
    (hall : ∀ d ∈ dataOnly sentTo, d ∈ arrivals) : r.lost = 0 := by
  rw [h.length, List.length_eq_zero_iff, List.eq_nil_iff_forall_not_mem]
  intro q hq
  obtain ⟨hsent, hd, ha⟩ := h.real q hq
  exact ha (hall q (List.mem_filter.mpr ⟨hsent, by simp [hd]⟩))

end

theorem emitted_append (z : Zone) (before after : List Zone.Op) :
    z.emitted (before ++ after) = z.emitted before ++ (z.runOps before).1.emitted after := by
  induction before generalizing z with
  | nil => rfl
  | cons op before ih =>
    have hrest := ih (z.step op).1
    simp only [Zone.emitted] at hrest ⊢
    simp only [List.cons_append, Zone.runOps, hrest, List.append_assoc]

/-- What a receiver that joins after the calls `before` is sent by the calls
`after`. -/
def sentAfter (z : Zone) (before after : List Zone.Op) : List FecPacket :=
  (z.runOps before).1.emitted after

/-- What the receiver is sent belongs to the stream of the whole run. -/
theorem joined_sentAfter {z : Zone} (hz : Fresh z) {before after : List Zone.Op}
    (hops : ∀ op ∈ before ++ after, OpOk op) (hlen : (z.emitted (before ++ after)).length < 65536)
    {arrivals : List FecPacket} (hsub : ∀ p ∈ arrivals, p ∈ sentAfter z before after) :
    Joined (z.emitted (before ++ after)) (sentAfter z before after) arrivals := by
  refine ⟨fecStream_emitted hz hops hlen, fun p hp => ?_, hsub, ?_⟩
  · rw [emitted_append]
    exact List.mem_append_right _ hp
  · rw [emitted_append, List.length_append] at hlen
    exact Nat.lt_of_le_of_lt (Nat.le_add_left _ _) hlen

/-- The receptions are the arrivals, and flushes. -/
theorem received_drainInputs {arrivals : List FecPacket} :
    ∀ i ∈ drainInputs arrivals, Received arrivals i := by
  intro i hi
  cases i with
  | flush => trivial
  | packet p =>
    rcases List.mem_append.mp hi with hi | hi
    · obtain ⟨p', hp', hmem⟩ := List.mem_flatMap.mp hi
      rcases List.mem_cons.mp hmem with heq | hmem
      · rwa [Input.packet.inj heq]
      · split at hmem <;> simp at hmem
    · simp at hi

/-- **The loss counter is honest where only settled groups are given up.** For
every sender run of fewer than 65536 packets and every point of it at which the
receiver joins, whatever is lost and in whatever order the rest arrives: the
release build runs to the end, and in either build, if every group flushed along
the run was sent to this receiver whole and has no data packet that arrives but
those then held, the losses counted after the final flush are at most the data
packets sent to the receiver and never delivered, and none if all of them arrive.
Otherwise some flush along the run counts a packet that was not lost. -/
theorem lost_le_undelivered (b : Build) {z : Zone} (hz : Fresh z) {before after : List Zone.Op}
    (hops : ∀ op ∈ before ++ after, OpOk op) (hlen : (z.emitted (before ++ after)).length < 65536)
    {arrivals : List FecPacket} (hnd : arrivals.Nodup)
    (hsub : ∀ p ∈ arrivals, p ∈ sentAfter z before after) :
    (∃ x, drain .release arrivals = .ok x) ∧
      (Along (FecReceiver.step b) (FlushesSettled (sentAfter z before after) arrivals) .new
          (drainInputs arrivals) →
        ∀ r out, drain b arrivals = .ok (r, out) →
          r.lost ≤ (dataOnly (sentAfter z before after)).countP
              (fun d => d.1.sequence ∉ out.map (·.1.sequence)) ∧
            ((∀ d ∈ dataOnly (sentAfter z before after), d ∈ arrivals) → r.lost = 0)) ∧
      (Along (FecReceiver.step b) (FlushesSettled (sentAfter z before after) arrivals) .new
          (drainInputs arrivals) ↔
        Along (FecReceiver.step b) (FlushesLost (sentAfter z before after) arrivals) .new
          (drainInputs arrivals)) := by
  have hj : Joined (z.emitted (before ++ after)) (sentAfter z before after) arrivals :=
    joined_sentAfter hz hops hlen hsub
  have htracks : Tracks (z.emitted (before ++ after)) FecReceiver.new := Tracks.of_idle rfl rfl rfl
  have hheld : ∀ q ∈ FecReceiver.new.held, q ∈ arrivals := by
    simp [FecReceiver.held, FecReceiver.new]
  refine ⟨?_, ?_, along_settled_iff hj _ _ received_drainInputs htracks hheld⟩
  · have hin : ∀ i ∈ drainInputs arrivals, Received (z.emitted (before ++ after)) i := by
      intro i hi
      cases i with
      | flush => trivial
      | packet p => exact hj.joined p (hsub p (received_drainInputs _ hi))
    obtain ⟨x, hrun⟩ := Tracks.run_release hj.stream hin
    exact ⟨x, (drain_eq_run .release arrivals).trans hrun⟩
  · intro hcond r out hret
    have hnew : Counting (z.emitted (before ++ after)) (sentAfter z before after) arrivals [] []
        .new [] :=
      ⟨htracks, by simp [FecReceiver.held, FecReceiver.new], by simp, rfl,
        List.nodup_nil, by simp, by simp, by simp, by simp⟩
    obtain ⟨counted, h⟩ := hnew.run hj (by simpa using hnd) (fun _ hp => hp) hcond
      ((drain_eq_run b arrivals).symm.trans hret)
    exact ⟨h.lost_le, h.lost_zero⟩

/-- The two packets of the pair. -/
def pairHead : FecPacket := pairZone.dataPacket (audio 1000 [1, 2, 3])

def pairTail : FecPacket := (pairZone.sendAudioAll (audio 1000 [1, 2, 3])).1.dataPacket
  (audio 2000 [4, 5])

/-- Of the pair only the first packet arrives; the final flush counts the second. -/
theorem settled_pairHead :
    Along (FecReceiver.step .release)
      (FlushesSettled (sentAfter pairZone [] pairOps) [pairHead]) .new
      (drainInputs [pairHead]) := by
  have hstep : FecReceiver.step .release .new (.packet pairHead)
      = .ok ((FecReceiver.new.openGroup pairHead).store pairHead, []) := by decide +kernel
  have hflush : Settled (sentAfter pairZone [] pairOps) [pairHead]
      ((FecReceiver.new.openGroup pairHead).store pairHead) := by
    intro base hb
    obtain rfl : (65535 : UInt16) = base := Option.some.inj hb
    refine ⟨⟨dataOnly (pairZone.emitted pairOps), ⟨by decide +kernel, ?_⟩, by decide +kernel⟩, ?_⟩
    · have hdata : dataOnly (pairZone.emitted pairOps) = [pairHead, pairTail] := by decide +kernel
      rw [hdata]
      rintro (_ | _ | i) p hp
      · obtain rfl : pairHead = p := by simpa using hp
        decide +kernel
      · obtain rfl : pairTail = p := by simpa using hp
        decide +kernel
      · simp at hp
    · intro p hp _ _
      rw [List.mem_singleton.mp hp]
      decide +kernel
  have hinputs : drainInputs [pairHead] = [.packet pairHead, .flush] := by decide +kernel
  rw [hinputs, along_cons_iff _ hstep]
  refine ⟨?_, hflush, fun _ _ _ => trivial⟩
  intro _ base hb
  cases hb

theorem lost_le_undelivered_pairHead :
    (∃ x, drain .release [pairHead] = .ok x) ∧
      ∀ r out, drain .release [pairHead] = .ok (r, out) →
        r.lost ≤ (dataOnly (sentAfter pairZone [] pairOps)).countP
            (fun d => d.1.sequence ∉ out.map (·.1.sequence)) ∧
          ((∀ d ∈ dataOnly (sentAfter pairZone [] pairOps), d ∈ [pairHead]) → r.lost = 0) := by
  have hops : ∀ op ∈ [] ++ pairOps, OpOk op := opOk_pairOps
  obtain ⟨hruns, hhonest, -⟩ := lost_le_undelivered .release fresh_pairZone hops
    (by decide +kernel) (List.nodup_singleton pairHead) (by decide +kernel)
  exact ⟨hruns, hhonest settled_pairHead⟩

/-- The pair with the first packet marked as the last of its stream. -/
def endedOps : List Zone.Op :=
  [.sendAudioAll { audio 1000 [1, 2, 3] with flags := PacketFlags.lastPacket },
    .sendAudioAll (audio 2000 [4, 5])]

/-- A stream that ends inside a group, and the next one in the rest of it: every
packet arrives in order and every data packet is delivered, and yet the flush behind
the first has counted the second as lost. -/
theorem delivered_and_counted_lost :
    ∃ r out, drain .release (sentAfter pairZone [] endedOps) = .ok (r, out) ∧
      out = dataOnly (sentAfter pairZone [] endedOps) ∧
      (dataOnly (sentAfter pairZone [] endedOps)).countP
        (fun d => d.1.sequence ∉ out.map (·.1.sequence)) = 0 ∧ r.lost = 1 :=
  ⟨_, _, rfl, by decide +kernel, by decide +kernel, by decide +kernel⟩

end Oaat.Fec
