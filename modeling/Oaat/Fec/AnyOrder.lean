/-
Oaat.Fec.AnyOrder — any n of the n + 1 packets of a group, in any order.

The module comment of the source promises that a group survives the loss of any
single packet. With no other traffic a new receiver keeps the promise exactly
when the parity is not the first packet to arrive: a parity opens no group, so
one that comes first is dropped and the n - 1 data packets behind it never
complete. In a build with overflow checks the timestamps of a rebuilt packet
must fit `i64` besides.

`Gathering` is the invariant: whatever the order, the slots are the group with
the packets not yet seen blanked out. Nothing is delivered before the n-th
packet (`Gathering.gather`); what happens then is one call of `tryComplete` on
the gathered group (`Gathering.finish_ok`, `Gathering.finish_content`).
-/
import Oaat.Fec.Recovery
import Oaat.Fec.Safety

namespace Oaat.Fec

open Oaat.Core Oaat.Controller Oaat.Core.FecReceiver Oaat.Lib

/-! ## The property and its condition -/

/-- A new receiver returns from feeding the arrivals, and all the data packets
that were sent have then been delivered, with their sequences and payloads. -/
def AllDelivered (b : Build) (sent arrivals : List FecPacket) : Prop :=
  ∃ r out, run (FecReceiver.step b) .new (packets arrivals) = .ok (r, out) ∧
    ∀ d ∈ dataOnly sent, ∃ p ∈ out, p.1.sequence = d.1.sequence ∧ p.2 = d.2

/-- The first packet to arrive carries audio. -/
def DataFirst (arrivals : List FecPacket) : Prop :=
  ∀ p, arrivals.head? = some p → isParity p = false

/-- The slots of the group `ds` when the packets `seen` have arrived. -/
def gathered (ds seen : List FecPacket) : List (Option FecPacket) :=
  ds.map fun d => if d ∈ seen then some d else none

/-- The timestamps of the first two data packets that arrived extrapolate to the
place of the one that did not, within `i64`. -/
def Extrapolates (ds seen : List FecPacket) : Prop :=
  ∀ d ∈ ds, d ∉ seen → TimestampsFit d.1.fecIndex.toNat (known (gathered ds seen))

/-! ## Gathering a group -/

/-- The receiver has been fed the packets `seen` of one group. -/
structure Gathering (base : UInt16) (ds : List FecPacket) (q : FecPacket)
    (seen : List FecPacket) (r : FecReceiver) : Prop where
  base : r.baseSeq = some base
  slots : r.slots = gathered ds seen
  parity : r.parity = if q ∈ seen then some (q.1.fecLenXor, q.2) else none
  count : missing r.slots + seen.length = ds.length + if q ∈ seen then 1 else 0
  recovered : r.recovered = 0

/-- Filling an empty slot leaves one fewer to fill. -/
theorem missing_set {slots : List (Option FecPacket)} {i : Nat} (h : slots[i]? = some none)
    (p : FecPacket) : missing (slots.set i (some p)) + 1 = missing slots := by
  induction slots generalizing i with
  | nil => simp at h
  | cons s slots ih =>
    cases i with
    | zero =>
      obtain rfl : s = none := by simpa using h
      simp [missing]
    | succ i =>
      have := ih (by simpa using h)
      cases s <;> simp [missing] at this ⊢ <;> omega

theorem getElem?_gathered {ds seen : List FecPacket} {i : Nat} {p : FecPacket}
    (h : (gathered ds seen)[i]? = some (some p)) : ds[i]? = some p := by
  rw [gathered, List.getElem?_map, Option.map_eq_some_iff] at h
  obtain ⟨d, hd, hs⟩ := h
  split at hs
  · rw [hd, Option.some.inj hs]
  · cases hs

section Group

variable {base : UInt16} {n : GroupSize} {ds seen : List FecPacket} {q p : FecPacket}
  {r : FecReceiver}

theorem GroupSent.length (hg : GroupSent base n ds q) : ds.length = n.val.toNat := by
  rw [hg.covers.length, hg.size]

theorem GroupSent.parity_not_mem (hg : GroupSent base n ds q) : q ∉ ds := by
  intro hq
  have := (hg.covers.group.mem q hq).2.1
  rw [hg.parity] at this
  cases this

theorem GroupSent.placed (hg : GroupSent base n ds q) (hp : p ∈ ds) :
    ds[p.1.fecIndex.toNat]? = some p ∧ PlacedAt base n.val.toNat p.1.fecIndex.toNat p := by
  obtain ⟨i, hi⟩ := List.mem_iff_getElem?.mp hp
  have hplace := hg.placedAt hi
  rw [hplace.index]
  exact ⟨hi, hplace⟩

theorem GroupSent.size_ne_zero (hg : GroupSent base n ds q) (hp : p ∈ ds) :
    p.1.fecGroupSize ≠ 0 :=
  (hg.placed hp).2.size_ne_zero (by have := (FecEncoder.groupSize_bounds n).1; omega)

theorem GroupSent.two_le (hg : GroupSent base n ds q) : 2 ≤ ds.length := by
  rw [hg.length]
  exact (FecEncoder.groupSize_bounds n).1

/-- A packet of the group carries audio or is its parity. -/
theorem GroupSent.mem_iff_data (hg : GroupSent base n ds q) (hp : p ∈ ds ++ [q]) :
    p ∈ ds ↔ isParity p = false := by
  constructor
  · exact fun hds => (hg.covers.group.mem p hds).2.1
  · intro hd
    rcases List.mem_append.mp hp with hds | hq
    · exact hds
    · rw [List.mem_singleton.mp hq, hg.parity] at hd
      cases hd

/-- One more data packet is seen. -/
theorem gathered_snoc (hg : GroupSent base n ds q) (hp : p ∈ ds) (seen : List FecPacket) :
    gathered ds (seen ++ [p]) = (gathered ds seen).set p.1.fecIndex.toNat (some p) := by
  refine List.ext_getElem? ?_
  intro j
  rw [List.getElem?_set]
  by_cases hj : p.1.fecIndex.toNat = j
  · subst hj
    obtain ⟨hi, -⟩ := hg.placed hp
    have hlt : p.1.fecIndex.toNat < (gathered ds seen).length := by
      rw [gathered, List.length_map]
      exact (List.getElem?_eq_some_iff.mp hi).1
    rw [if_pos rfl, if_pos hlt, gathered, List.getElem?_map, hi]
    simp
  · rw [if_neg hj, gathered, gathered, List.getElem?_map, List.getElem?_map]
    cases hd : ds[j]? with
    | none => rfl
    | some d =>
      have hne : d ≠ p := by
        rintro rfl
        exact hj (hg.placedAt hd).index
      simp [hne]

theorem gathered_parity (hg : GroupSent base n ds q) (seen : List FecPacket) :
    gathered ds (seen ++ [q]) = gathered ds seen := by
  refine List.map_congr_left ?_
  intro d hd
  have hne : d ≠ q := fun he => hg.parity_not_mem (he ▸ hd)
  simp [hne]

/-- The group is opened by whichever of its data packets comes first. -/
theorem Gathering.opened (hg : GroupSent base n ds q) (hp : p ∈ ds) :
    Gathering base ds q [] (FecReceiver.new.openGroup p) := by
  obtain ⟨-, hplace⟩ := hg.placed hp
  have hslots : (FecReceiver.new.openGroup p).slots = gathered ds [] := by
    simp [FecReceiver.openGroup, gathered, hplace.size, hg.length]
  refine ⟨?_, hslots, rfl, ?_, rfl⟩
  · rw [← hplace.base]
    rfl
  · simp [FecReceiver.openGroup, hplace.size, hg.length]

theorem Gathering.store (hg : GroupSent base n ds q) (h : Gathering base ds q seen r)
    (hp : p ∈ ds) (hnew : p ∉ seen) : Gathering base ds q (seen ++ [p]) (r.store p) := by
  obtain ⟨hi, -⟩ := hg.placed hp
  have hslot : r.slots[p.1.fecIndex.toNat]? = some none := by
    rw [h.slots, gathered, List.getElem?_map, hi]
    simp [hnew]
  have hlt : p.1.fecIndex.toNat < r.slots.length := (List.getElem?_eq_some_iff.mp hslot).1
  have hstore : r.store p = { r with slots := r.slots.set p.1.fecIndex.toNat (some p) } := by
    rw [FecReceiver.store, if_pos hlt]
  have hqp : q ≠ p := fun he => hg.parity_not_mem (he ▸ hp)
  have hmem : q ∈ seen ++ [p] ↔ q ∈ seen := by simp [hqp]
  rw [hstore]
  refine ⟨h.base, ?_, by simp only [h.parity, hmem], ?_, h.recovered⟩
  · rw [gathered_snoc hg hp, h.slots]
  · have hcount := h.count
    have hset := missing_set hslot p
    simp only [hmem, List.length_append, List.length_singleton]
    omega

theorem Gathering.setParity (hg : GroupSent base n ds q) (h : Gathering base ds q seen r)
    (hnew : q ∉ seen) :
    Gathering base ds q (seen ++ [q]) { r with parity := some (q.1.fecLenXor, q.2) } := by
  have hcount := h.count
  rw [if_neg hnew] at hcount
  refine ⟨h.base, ?_, by simp, ?_, h.recovered⟩
  · rw [gathered_parity hg]
    exact h.slots
  · rw [if_pos (by simp), List.length_append, List.length_singleton]
    show missing r.slots + _ = _
    omega

/-- A packet of the group joins those already seen. -/
theorem Gathering.feed {b : Build} (hg : GroupSent base n ds q) (h : Gathering base ds q seen r)
    (hp : p ∈ ds ++ [q]) (hnew : p ∉ seen) :
    ∃ s, Gathering base ds q (seen ++ [p]) s ∧ r.feed b p = s.tryComplete b := by
  rcases List.mem_append.mp hp with hp | hp
  · obtain ⟨-, hplace⟩ := hg.placed hp
    exact ⟨_, h.store hg hp hnew,
      feed_same hplace.data (hg.size_ne_zero hp) (by rw [hplace.base]; exact h.base)⟩
  · obtain rfl := List.mem_singleton.mp hp
    exact ⟨_, h.setParity hg hnew, feed_parity hg.parity (by rw [hg.base]; exact h.base)⟩

/-- Fewer than n packets complete nothing. -/
theorem Gathering.wait {b : Build} (h : Gathering base ds q seen r)
    (hlt : seen.length < ds.length) : r.tryComplete b = .ok (r, []) := by
  have hcount := h.count
  by_cases hq : q ∈ seen
  · rw [if_pos hq] at hcount
    rw [tryComplete, if_neg (by omega), if_neg (by omega)]
  · rw [if_neg hq] at hcount
    rw [tryComplete_noParity (by rw [h.parity, if_neg hq]), if_neg (by omega)]

/-- **Gathering.** Fewer than n packets of a group are taken in silently, in any
order. -/
theorem Gathering.gather {b : Build} (hg : GroupSent base n ds q) {todo : List FecPacket}
    (h : Gathering base ds q seen r) (hnd : (seen ++ todo).Nodup)
    (hsub : ∀ p ∈ todo, p ∈ ds ++ [q]) (hlen : (seen ++ todo).length < ds.length) :
    ∃ s, run (FecReceiver.step b) r (packets todo) = .ok (s, []) ∧
      Gathering base ds q (seen ++ todo) s := by
  induction todo generalizing seen r with
  | nil => exact ⟨r, rfl, by simpa using h⟩
  | cons p todo ih =>
    have hnew : p ∉ seen := fun hmem =>
      (List.nodup_append.mp hnd).2.2 p hmem p (by simp) rfl
    obtain ⟨s, hs, hfeed⟩ := h.feed (b := b) hg (hsub p (by simp)) hnew
    rw [hs.wait (by simp at hlen ⊢; omega)] at hfeed
    have hstep : FecReceiver.step b r (.packet p) = .ok (s, []) := hfeed
    obtain ⟨t, hrun, ht⟩ := ih hs (by simpa using hnd)
      (fun x hx => hsub x (List.mem_cons_of_mem _ hx)) (by simpa using hlen)
    exact ⟨t, run_cons_ok hstep hrun, by simpa using ht⟩

/-! ## The n-th packet -/

theorem Gathering.length_slots (h : Gathering base ds q seen r) :
    ds.length = r.slots.length := by
  rw [h.slots, gathered, List.length_map]

theorem Gathering.agree (h : Gathering base ds q seen r) (i : Nat) (p : FecPacket)
    (hp : r.slots[i]? = some (some p)) : ds[i]? = some p := by
  rw [h.slots] at hp
  exact getElem?_gathered hp

/-- Without the parity every packet of the group has been seen. -/
theorem Gathering.missing_zero (h : Gathering base ds q seen r) (hlen : seen.length = ds.length)
    (hq : q ∉ seen) : missing r.slots = 0 := by
  have hcount := h.count
  rw [if_neg hq] at hcount
  omega

/-- With the parity one packet of the group has not been seen. -/
theorem Gathering.missing_one (h : Gathering base ds q seen r) (hlen : seen.length = ds.length)
    (hq : q ∈ seen) : missing r.slots = 1 := by
  have hcount := h.count
  rw [if_pos hq] at hcount
  omega

/-- The slot to rebuild is the place of the packet that was not seen. -/
theorem Gathering.rebuildIndex_iff (hg : GroupSent base n ds q) (h : Gathering base ds q seen r)
    (hlen : seen.length = ds.length) {idx : Nat} :
    r.rebuildIndex = some idx ↔ ∃ d ∈ ds, d ∉ seen ∧ d.1.fecIndex.toNat = idx := by
  have hblank : ∀ d ∈ ds, r.slots[d.1.fecIndex.toNat]? =
      some (if d ∈ seen then some d else none) := by
    intro d hd
    rw [h.slots, gathered, List.getElem?_map, (hg.placed hd).1]
    rfl
  by_cases hq : q ∈ seen
  · obtain ⟨pre, post, hs⟩ := missing_eq_one (h.missing_one hlen hq)
    have hpar : r.parity = some (q.1.fecLenXor, q.2) := by rw [h.parity, if_pos hq]
    obtain ⟨x, hx⟩ := eq_of_oneGap (by rw [h.length_slots, hs]) fun i p hi =>
      h.agree i p (by rw [hs]; exact hi)
    have hxi : ds[pre.length]? = some x := by rw [hx]; simp
    have hidx := (hg.placedAt hxi).index
    rw [rebuildIndex_oneGap hs hpar, Option.some.injEq]
    constructor
    · rintro rfl
      have hxds : x ∈ ds := List.mem_of_getElem? hxi
      refine ⟨x, hxds, ?_, hidx⟩
      intro hxs
      have hslot := hblank x hxds
      rw [if_pos hxs, hidx, hs, oneGap] at hslot
      simp at hslot
    · rintro ⟨d, hd, hds, rfl⟩
      have hslot := hblank d hd
      rw [if_neg hds, hs] at hslot
      exact (eq_gap_of_none hslot).symm
  · have hm := h.missing_zero hlen hq
    rw [rebuildIndex_eq_none (by omega)]
    constructor
    · intro hnone
      cases hnone
    · rintro ⟨d, hd, hds, -⟩
      have hslot := hblank d hd
      rw [if_neg hds, missing_eq_zero hm] at hslot
      simp at hslot

/-- **The n-th packet.** The receiver returns exactly when the timestamps of the
packet it has to rebuild, if any, can be computed. -/
theorem Gathering.finish_ok {b : Build} (hg : GroupSent base n ds q)
    (h : Gathering base ds q seen r) (hlen : seen.length = ds.length) :
    (∃ x, r.tryComplete b = .ok x) ↔ (b = .debug → Extrapolates ds seen) := by
  have htwo : 2 ≤ r.slots.length := by
    rw [← h.length_slots]
    exact hg.two_le
  cases b with
  | release =>
    have hret := tryComplete_release (r := r) (by omega)
    simp [hret]
  | debug =>
    have hroom : r.recovered + 1 < 2 ^ 64 := by rw [h.recovered]; decide
    rw [tryComplete_debug]
    constructor
    · intro hsafe _ d hd hds
      have hidx := (h.rebuildIndex_iff hg hlen).mpr ⟨d, hd, hds, rfl⟩
      rw [← h.slots]
      exact (hsafe _ hidx).fits
    · intro hfit idx hidx
      obtain ⟨d, hd, hds, rfl⟩ := (h.rebuildIndex_iff hg hlen).mp hidx
      refine ⟨htwo, ?_, hroom⟩
      rw [h.slots]
      exact hfit rfl d hd hds

/-- What it then delivers is the whole group. -/
theorem Gathering.finish_content {b : Build} {r' : FecReceiver} {out : List FecPacket}
    (hg : GroupSent base n ds q) (h : Gathering base ds q seen r)
    (hlen : seen.length = ds.length) (hret : r.tryComplete b = .ok (r', out)) :
    out.map content = ds.map content := by
  cases tryComplete_cases hret with
  | complete hm _ =>
    rw [FecReceiver.held, eq_of_missing_zero h.length_slots h.agree hm]
  | rebuilt pre post lx pl hd k hs hp hh hk =>
    have hq : q ∈ seen := by
      by_contra hq
      rw [h.parity, if_neg hq] at hp
      cases hp
    obtain ⟨rfl, rfl⟩ : q.1.fecLenXor = lx ∧ q.2 = pl := by
      rw [h.parity, if_pos hq] at hp
      simpa using hp
    obtain ⟨len, hsyn⟩ := hh
    have hfields := synthesizeHeader_fields hsyn
    refine hg.rebuilt_content hs h.length_slots h.agree ?_ hfields.2.1
    rw [hfields.1, h.base]
    rfl
  | wait hm hp =>
    exfalso
    by_cases hq : q ∈ seen
    · have hpar := hp (h.missing_one hlen hq)
      rw [h.parity, if_pos hq] at hpar
      cases hpar
    · refine hm ⟨h.missing_zero hlen hq, ?_⟩
      intro hnil
      have htwo := hg.two_le
      rw [h.length_slots, hnil] at htwo
      simp at htwo

/-! ## Whole arrivals -/

/-- A new receiver that is fed fewer than n packets, a data packet first. -/
theorem gather_new {b : Build} (hg : GroupSent base n ds q) {p : FecPacket} {todo : List FecPacket}
    (hp : p ∈ ds) (hnd : (p :: todo).Nodup) (hsub : ∀ x ∈ todo, x ∈ ds ++ [q])
    (hlen : (p :: todo).length < ds.length) :
    ∃ s, run (FecReceiver.step b) .new (packets (p :: todo)) = .ok (s, []) ∧
      Gathering base ds q (p :: todo) s := by
  obtain ⟨-, hplace⟩ := hg.placed hp
  have hz := hg.size_ne_zero hp
  have hfirst : Gathering base ds q [p] ((FecReceiver.new.openGroup p).store p) :=
    (Gathering.opened hg hp).store hg hp (by simp)
  have hflush : FecReceiver.new.flush b = .ok (.new, []) := rfl
  have hstep : FecReceiver.step b .new (.packet p)
      = .ok ((FecReceiver.new.openGroup p).store p, []) := by
    show FecReceiver.new.feed b p = _
    rw [feed_switch hplace.data hz (by simp [FecReceiver.new]) (by simp [FecReceiver.new]),
      bind_of_ok _ hflush, bind_of_ok _ (hfirst.wait (by simp at hlen ⊢; omega))]
    rfl
  obtain ⟨s, hrun, hs⟩ := hfirst.gather (b := b) hg hnd hsub hlen
  exact ⟨s, run_cons_ok hstep hrun, hs⟩

/-- n packets of a group, a data packet first, come to one `tryComplete` on the
group gathered. -/
theorem run_dataFirst {b : Build} {arrivals : List FecPacket} (hg : GroupSent base n ds q)
    (hnd : arrivals.Nodup) (hsub : ∀ p ∈ arrivals, p ∈ ds ++ [q])
    (hlen : arrivals.length = ds.length) (hfirst : DataFirst arrivals) :
    ∃ s, Gathering base ds q arrivals s ∧
      run (FecReceiver.step b) .new (packets arrivals) = s.tryComplete b := by
  have htwo := hg.two_le
  rw [← hlen] at htwo
  match arrivals, htwo with
  | p :: p' :: rest, _ =>
    obtain ⟨mid, last, hsplit⟩ : ∃ mid last, p' :: rest = mid ++ [last] :=
      ⟨_, _, (List.dropLast_append_getLast (List.cons_ne_nil p' rest)).symm⟩
    rw [hsplit] at hnd hsub hlen ⊢
    have hp : p ∈ ds := (hg.mem_iff_data (hsub p (by simp))).mpr (hfirst p rfl)
    have hnd' : (p :: mid).Nodup ∧ last ∉ p :: mid := by
      rw [← List.cons_append] at hnd
      have hparts := List.nodup_append.mp hnd
      exact ⟨hparts.1, fun hmem => hparts.2.2 last hmem last (by simp) rfl⟩
    obtain ⟨s, hrun, hs⟩ := gather_new (b := b) hg hp hnd'.1
      (fun x hx => hsub x (by simp [hx])) (by simp at hlen ⊢; omega)
    obtain ⟨t, ht, hfeed⟩ := hs.feed (b := b) hg (hsub last (by simp)) hnd'.2
    refine ⟨t, by simpa using ht, ?_⟩
    have hpackets : packets (p :: (mid ++ [last])) = packets (p :: mid) ++ [.packet last] := by
      simp [packets]
    rw [hpackets, run_append_silent _ hrun, run_singleton]
    exact hfeed

/-- Behind the parity n - 1 data packets are not enough. -/
theorem run_parityFirst {b : Build} {rest : List FecPacket} (hg : GroupSent base n ds q)
    (hnd : (q :: rest).Nodup) (hsub : ∀ p ∈ rest, p ∈ ds ++ [q])
    (hlen : (q :: rest).length = ds.length) :
    ∃ s, run (FecReceiver.step b) .new (packets (q :: rest)) = .ok (s, []) := by
  have hstray : FecReceiver.step b .new (.packet q) = .ok (.new, []) :=
    feed_stray hg.parity (by simp [FecReceiver.new])
  cases rest with
  | nil => exact ⟨.new, run_single hstray⟩
  | cons p rest =>
    have hp : p ∈ ds := by
      rcases List.mem_append.mp (hsub p (by simp)) with hp | hp
      · exact hp
      · exact absurd (List.mem_singleton.mp hp) (by rintro rfl; simp at hnd)
    obtain ⟨s, hrun, -⟩ := gather_new (b := b) hg hp (List.nodup_cons.mp hnd).2
      (fun x hx => hsub x (by simp [hx])) (by simp at hlen ⊢; omega)
    exact ⟨s, run_cons_ok hstray hrun⟩

/-- The delivered packets have the contents of the data packets, so each data
packet is among them. -/
theorem mem_of_contents {out : List FecPacket} (h : out.map content = ds.map content)
    {d : FecPacket} (hd : d ∈ ds) : ∃ p ∈ out, p.1.sequence = d.1.sequence ∧ p.2 = d.2 := by
  have hmem : content d ∈ out.map content := by
    rw [h]
    exact List.mem_map_of_mem hd
  obtain ⟨p, hp, heq⟩ := List.mem_map.mp hmem
  simp only [content, Prod.mk.injEq] at heq
  exact ⟨p, hp, heq.1, heq.2.2⟩

/-- What delivers a data packet is not a run that begins with the parity. -/
theorem dataFirst_of_delivered {b : Build} {arrivals : List FecPacket}
    (hg : GroupSent base n ds q) (hnd : arrivals.Nodup) (hsub : ∀ p ∈ arrivals, p ∈ ds ++ [q])
    (hlen : arrivals.length = ds.length) (h : AllDelivered b (ds ++ [q]) arrivals) :
    DataFirst arrivals := by
  obtain ⟨r, out, hrun, hall⟩ := h
  rw [dataOnly_group hg] at hall
  intro p hp
  by_contra hd
  cases arrivals with
  | nil => cases hp
  | cons p' rest =>
    obtain rfl : p' = p := Option.some.inj hp
    have hpq : p' = q := by
      rcases List.mem_append.mp (hsub p' (by simp)) with hmem | hmem
      · exact absurd (hg.covers.group.mem p' hmem).2.1 hd
      · exact List.mem_singleton.mp hmem
    subst hpq
    obtain ⟨s, hsilent⟩ := run_parityFirst (b := b) hg hnd
      (fun x hx => hsub x (List.mem_cons_of_mem _ hx)) hlen
    rw [hsilent] at hrun
    simp only [Except.ok.injEq, Prod.mk.injEq] at hrun
    have hpos : 0 < ds.length := by
      have htwo := hg.two_le
      omega
    obtain ⟨x, hx, -⟩ := hall ds[0] (List.getElem_mem hpos)
    rw [← hrun.2] at hx
    cases hx

theorem allDelivered_iff {b : Build} {arrivals : List FecPacket} (hg : GroupSent base n ds q)
    (hnd : arrivals.Nodup) (hsub : ∀ p ∈ arrivals, p ∈ ds ++ [q])
    (hlen : arrivals.length = ds.length) :
    AllDelivered b (ds ++ [q]) arrivals ↔
      DataFirst arrivals ∧ (b = .debug → Extrapolates ds arrivals) := by
  constructor
  · intro h
    have hfirst := dataFirst_of_delivered hg hnd hsub hlen h
    obtain ⟨s, hs, heq⟩ := run_dataFirst (b := b) hg hnd hsub hlen hfirst
    obtain ⟨r, out, hrun, -⟩ := h
    exact ⟨hfirst, (hs.finish_ok hg hlen).mp ⟨_, heq.symm.trans hrun⟩⟩
  · rintro ⟨hfirst, hfit⟩
    obtain ⟨s, hs, heq⟩ := run_dataFirst (b := b) hg hnd hsub hlen hfirst
    obtain ⟨⟨r, out⟩, hret⟩ := (hs.finish_ok hg hlen).mpr hfit
    refine ⟨r, out, heq.trans hret, ?_⟩
    rw [dataOnly_group hg]
    intro d hd
    exact mem_of_contents (hs.finish_content hg hlen hret) hd

end Group

/-- **Any n of the n + 1 packets.** For every group size, starting sequence and
group of payloads, and every order of arrival of n of the group's n + 1 packets
at a new receiver, all n data packets have been delivered by the n-th, with
exact sequences and payloads, if and only if the parity is not the first to
arrive and, with overflow checks, the timestamps of the packet to rebuild
extrapolate. -/
theorem any_n_delivered_iff (b : Build) (n : GroupSize) (start : UInt16)
    {calls : List AudioArgs} (hcalls : calls.length = n.val.toNat)
    (hops : ∀ a ∈ calls, OpOk (.sendAudioAll a)) {arrivals : List FecPacket}
    (hnd : arrivals.Nodup) (hlen : arrivals.length = n.val.toNat) :
    let sent := (⟨start, some (FecEncoder.new n)⟩ : Zone).emitted (calls.map .sendAudioAll)
    (∀ p ∈ arrivals, p ∈ sent) →
      (AllDelivered b sent arrivals ↔
        DataFirst arrivals ∧ (b = .debug → Extrapolates (dataOnly sent) arrivals)) := by
  intro sent hsub
  have hne : calls ≠ [] := by
    rintro rfl
    have hn := (FecEncoder.groupSize_bounds n).1
    rw [← hcalls] at hn
    simp at hn
  obtain ⟨ds, q, enc', hrun, -, -, hg⟩ := runOps_group (n := n) calls
    ⟨start, some (FecEncoder.new n)⟩ (FecEncoder.new n) [] rfl (FecEncoder.holds_new n) rfl hne
    (by simpa using hcalls) hops (by simp) ⟨by simp, by simp⟩
  rw [List.nil_append] at hg
  have hsent : sent = ds ++ [q] := by
    show ((⟨start, some (FecEncoder.new n)⟩ : Zone).runOps _).2 = _
    rw [hrun]
  rw [hsent] at hsub ⊢
  rw [dataOnly_group hg]
  exact allDelivered_iff hg hnd hsub (by rw [hlen, hg.length])

/-- The pair of packets with the parity in the place of the second one. -/
def parityLast : List FecPacket :=
  match pairZone.emitted pairOps with
  | [d₀, _, q] => [d₀, q]
  | l => l

/-- The same two packets, the parity first. -/
def parityFirst : List FecPacket := parityLast.reverse

theorem any_n_delivered_iff_parityLast :
    AllDelivered .debug (pairZone.emitted pairOps) parityLast ↔
      DataFirst parityLast ∧
        (Build.debug = .debug → Extrapolates (dataOnly (pairZone.emitted pairOps)) parityLast) :=
  have haudio : ∀ a ∈ [audio 1000 [1, 2, 3], audio 2000 [4, 5]], OpOk (.sendAudioAll a) :=
    fun _ ha => opOk_pairOps _ (List.mem_map_of_mem (f := Zone.Op.sendAudioAll) ha)
  any_n_delivered_iff .debug pairSize 65535 rfl haudio (by decide +kernel) rfl
    (by decide +kernel)

/-- The parity comes first and is dropped: neither data packet is delivered,
though either build runs to the end. -/
theorem parityFirst_delivers_nothing :
    parityFirst.Nodup ∧ parityFirst.length = 2 ∧
      (∀ p ∈ parityFirst, p ∈ pairZone.emitted pairOps) ∧
      ∀ b, ¬ AllDelivered b (pairZone.emitted pairOps) parityFirst := by
  refine ⟨by decide +kernel, by decide +kernel, by decide +kernel, ?_⟩
  rintro b ⟨r, out, hrun, hall⟩
  have hsilent : viewRun (FecReceiver.step b) (fun _ out => out) .new (packets parityFirst)
      = some [] := by
    cases b <;> decide +kernel
  obtain ⟨r', out', hrun', rfl⟩ := run_of_viewRun hsilent
  rw [hrun'] at hrun
  simp only [Except.ok.injEq, Prod.mk.injEq] at hrun
  have hdata : dataOnly (pairZone.emitted pairOps) ≠ [] := by decide +kernel
  obtain ⟨d, _, hd⟩ := List.exists_cons_of_ne_nil hdata
  obtain ⟨p, hp, -⟩ := hall d (by rw [hd]; simp)
  rw [← hrun.2] at hp
  cases hp

end Oaat.Fec
