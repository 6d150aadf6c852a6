/-
Oaat.Fec.AtMostOnce — when a FEC receiver delivers a packet twice.

The network duplicates nothing. The receiver can still deliver a sequence
twice: a packet rebuilt from the parity is delivered again when its original
arrives (it is a straggler of the group just closed, or it reopens that group),
and a packet delivered earlier is rebuilt again when stragglers reopen its
group and find the parity.

The accounting is exact. Along any run, as multisets of sequences,

    delivered + held  =  arrived data + rebuilt

(`accounting_feed`, `accounting_run`), every rebuild uses up a parity that
arrived, and so no sequence is rebuilt twice. Hence the delivered sequences
are distinct exactly when no rebuilt packet's original is among the arrivals.
-/
import Oaat.Fec.Soundness
import Mathlib.Data.Multiset.OrderedMonoid
import Mathlib.Tactic.Abel

namespace Oaat.Fec

open Oaat.Core Oaat.Controller Oaat.Core.FecReceiver Oaat.Lib

/-- The sequences of a list of packets, with multiplicity. -/
def seqs (l : List FecPacket) : Multiset UInt16 := (l.map (·.1.sequence) : List UInt16)

/-- The base of the parity the receiver holds. -/
def heldParity (r : FecReceiver) : Multiset UInt16 :=
  ((r.parity.bind fun _ => r.baseSeq).toList : List UInt16)

def parityBases (l : List FecPacket) : Multiset UInt16 :=
  ((l.filter fun p => isParity p).map parityBase : List UInt16)

@[simp] theorem seqs_nil : seqs [] = 0 := rfl

@[simp] theorem seqs_append (l m : List FecPacket) : seqs (l ++ m) = seqs l + seqs m := by
  simp [seqs]

@[simp] theorem seqs_cons (p : FecPacket) (l : List FecPacket) :
    seqs (p :: l) = {p.1.sequence} + seqs l := by
  simp [seqs]

section Step

variable {sent : List FecPacket} {r r' : FecReceiver} {p : FecPacket} {out : List FecPacket}

/-- Base and sequence of what `tryComplete` is about to rebuild. -/
def rebuildKey (r : FecReceiver) : List (UInt16 × UInt16) :=
  (r.rebuildIndex.map fun idx =>
    (r.baseSeq.getD 0, r.baseSeq.getD 0 + UInt16.ofNat idx)).toList

/-- Completing a group delivers what it held, and the packet it rebuilds. -/
theorem accounting_completion {b : Build} {base : UInt16} (hb : r.baseSeq = some base)
    (hc : Completion b r r' out) :
    seqs out + seqs r'.held = seqs r.held + ((rebuildKey r).map (·.2) : List UInt16) ∧
      heldParity r' + ((rebuildKey r).map (·.1) : List UInt16) ≤ heldParity r := by
  cases hc with
  | complete hm hne =>
    have hk : rebuildKey r = [] := by
      rw [rebuildKey, rebuildIndex_eq_none (by omega)]; rfl
    simp [hk, FecReceiver.closed, FecReceiver.held, heldParity]
  | rebuilt pre post lx pl hd n hs hp hh hn =>
    obtain ⟨len, hlen⟩ := hh
    have hseq := (synthesizeHeader_fields hlen).1
    have hk : rebuildKey r = [(base, hd.sequence)] := by
      rw [rebuildKey, rebuildIndex_oneGap hs hp, hseq, hb]; rfl
    constructor
    · rw [hk, FecReceiver.held, FecReceiver.held, hs, filterMap_oneGap]
      simp only [seqs_append, seqs_cons, List.map_cons, List.map_nil, Multiset.coe_singleton,
        FecReceiver.closed, List.filterMap_nil, seqs_nil]
      abel
    · rw [hk]
      simp [heldParity, FecReceiver.closed, hp, hb]
  | wait hm hp =>
    have hk : rebuildKey r = [] := by
      rw [rebuildKey, rebuildIndex_eq_none hp]; rfl
    simp [hk]

theorem accounting_flushed {b : Build} (h : Tracks sent r) (hf : Flushed b r r' out) :
    seqs out = seqs r.held ∧ r'.held = [] ∧ heldParity r' = 0 := by
  cases hf with
  | idle hb => simp [FecReceiver.held, heldParity, (h.idle hb).1, hb]
  | group base n hb hn => simp [FecReceiver.held, heldParity, FecReceiver.closed]

/-- A packet that is not held finds its slot empty. -/
theorem Tracks.slot_empty (hstream : FecStream sent) (h : Tracks sent r) (hp : p ∈ sent)
    (hd : isParity p = false) (hz : p.1.fecGroupSize ≠ 0) (hb : r.baseSeq = some (dataBase p))
    (hnew : p ∉ r.held) : r.slots[p.1.fecIndex.toNat]? = some none := by
  have hlt : p.1.fecIndex.toNat < r.slots.length := by
    obtain ⟨hz₀, p₀, hp₀⟩ := h.opener _ hb
    have hidx := (hstream.data p hp hd).index_lt hz
    rw [hstream.same_size hp hp₀.mem hd hp₀.data hz (by rw [hp₀.size]; exact hz₀) hp₀.base.symm,
      hp₀.size] at hidx
    rwa [h.length _ hb]
  rw [List.getElem?_eq_getElem hlt]
  cases hslot : r.slots[p.1.fecIndex.toNat] with
  | none => rfl
  | some q =>
    have hget : r.slots[p.1.fecIndex.toNat]? = some (some q) := by
      rw [List.getElem?_eq_getElem hlt, hslot]
    obtain ⟨hq, hqi⟩ := h.slot _ hb _ q hget
    have hpq : p = q := hstream.eq_of_sequence hp hq.mem (by
      rw [sequence_eq_base_add p, sequence_eq_base_add q, hq.base, hqi])
    have hheld : q ∈ r.held := List.mem_filterMap.mpr ⟨some q, List.mem_of_getElem? hget, rfl⟩
    exact absurd (hpq ▸ hheld) hnew

/-- Filling an empty slot adds one packet to what is held. -/
theorem seqs_filterMap_set {slots : List (Option FecPacket)} {i : Nat}
    (h : slots[i]? = some none) (p : FecPacket) :
    seqs ((slots.set i (some p)).filterMap id) = seqs (slots.filterMap id) + {p.1.sequence} := by
  induction slots generalizing i with
  | nil => simp at h
  | cons s slots ih =>
    cases i with
    | zero =>
      simp only [List.getElem?_cons_zero, Option.some.injEq] at h
      subst h
      simp [add_comm]
    | succ i =>
      have := ih (by simpa using h)
      cases s with
      | none => simpa using this
      | some q =>
        show seqs (q :: (slots.set i (some p)).filterMap id) = seqs (q :: slots.filterMap id) + _
        rw [seqs_cons, seqs_cons, this, add_assoc]

theorem store_of_empty (h : r.slots[p.1.fecIndex.toNat]? = some none) :
    seqs (r.store p).held = seqs r.held + {p.1.sequence} ∧
      heldParity (r.store p) = heldParity r := by
  have hlt : p.1.fecIndex.toNat < r.slots.length := by
    by_contra hge
    rw [List.getElem?_eq_none (Nat.le_of_not_lt hge)] at h
    cases h
  have hs : r.store p = { r with slots := r.slots.set p.1.fecIndex.toNat (some p) } := by
    rw [FecReceiver.store, if_pos hlt]
  rw [hs]
  exact ⟨seqs_filterMap_set h p, rfl⟩

theorem rebuilds_of_joined {s : FecReceiver} (hj : r.joined p = some s)
    (hb : s.baseSeq = r.baseSeq) : (r.rebuilds p).toList = rebuildKey s := by
  simp only [FecReceiver.rebuilds, hj, rebuildKey, hb, Option.bind_eq_bind, Option.bind_some]
  cases s.rebuildIndex <;> rfl

/-- **Accounting of one step.** What is delivered or still held is what was
held, the fed packet if it carries audio, and what was rebuilt; and a rebuild
uses up a parity. -/
theorem accounting_feed {b : Build} (hstream : FecStream sent) (h : Tracks sent r) (hp : p ∈ sent)
    (hnew : p ∉ r.held) (hf : Fed b r p r' out) :
    seqs out + seqs r'.held =
        seqs r.held + seqs (dataOnly [p]) + ((r.rebuilds p).toList.map (·.2) : List UInt16) ∧
      heldParity r' + ((r.rebuilds p).toList.map (·.1) : List UInt16) ≤
        heldParity r + parityBases [p] := by
  cases hf with
  | plain hz hd hf =>
    obtain ⟨hout, hheld, hpar⟩ := accounting_flushed h hf
    have hr : r.rebuilds p = none := by
      simp [FecReceiver.rebuilds, FecReceiver.joined, hd, hz]
    simp [hr, hout, hheld, hpar, dataOnly, hd]
  | strayParity hd hb =>
    have hr : r.rebuilds p = none := by
      simp [FecReceiver.rebuilds, FecReceiver.joined, hd, hb]
    simp [hr, dataOnly, hd]
  | parity hd hb hc =>
    have hj : r.joined p = some { r with parity := some (p.1.fecLenXor, p.2) } := by
      simp [FecReceiver.joined, hd, hb]
    have hr := rebuilds_of_joined hj rfl
    have hbase : { r with parity := some (p.1.fecLenXor, p.2) }.baseSeq = some (parityBase p) := hb
    obtain ⟨h₁, h₂⟩ := accounting_completion hbase hc
    rw [hr]
    have hheld : { r with parity := some (p.1.fecLenXor, p.2) }.held = r.held := rfl
    rw [hheld] at h₁
    refine ⟨by simpa [dataOnly, hd] using h₁, h₂.trans ?_⟩
    simp [heldParity, hb, parityBases, hd]
  | straggler hz hd hprev hb =>
    have hr : r.rebuilds p = none := by
      simp [FecReceiver.rebuilds, FecReceiver.joined, hd, hb]
    simp [hr, dataOnly, hd, add_comm]
  | switch hz hd hprev hb hf hc =>
    rename_i r₁ o₁ o₂
    have hr : r.rebuilds p = none := by
      simp [FecReceiver.rebuilds, FecReceiver.joined, hd, hb]
    obtain ⟨hout, hheld, hpar⟩ := accounting_flushed h hf
    have hidx := (hstream.data p hp hd).index_lt hz
    have hopen : seqs ((r₁.openGroup p).store p).held = {p.1.sequence} ∧
        heldParity ((r₁.openGroup p).store p) = 0 := by
      obtain ⟨h₁, h₂⟩ := store_of_empty (r := r₁.openGroup p) (p := p) (by
        simp [FecReceiver.openGroup, hidx])
      constructor
      · rw [h₁]; simp [FecReceiver.openGroup, FecReceiver.held]
      · rw [h₂]; simp [FecReceiver.openGroup, heldParity]
    -- the group just opened has no parity, so nothing is rebuilt
    have hk : rebuildKey ((r₁.openGroup p).store p) = [] := by
      have hpn : ((r₁.openGroup p).store p).parity = none := by
        unfold FecReceiver.store; split <;> rfl
      rw [rebuildKey, rebuildIndex_eq_none fun _ => hpn]; rfl
    have hbase : ((r₁.openGroup p).store p).baseSeq = some (dataBase p) := by
      rw [store_baseSeq]; rfl
    obtain ⟨h₁, h₂⟩ := accounting_completion hbase hc
    rw [hk] at h₁ h₂
    rw [hopen.1] at h₁
    rw [hopen.2] at h₂
    constructor
    · rw [seqs_append, hout, add_assoc, h₁, hr]
      simp [dataOnly, hd]
    · rw [hr]
      simpa using h₂.trans (Multiset.zero_le _)
  | same hz hd hb hc =>
    have hj : r.joined p = some (r.store p) := by simp [FecReceiver.joined, hd, hb, hz]
    have hr := rebuilds_of_joined hj (store_baseSeq r p)
    obtain ⟨hs₁, hs₂⟩ := store_of_empty (h.slot_empty hstream hp hd hz hb hnew)
    have hbase : (r.store p).baseSeq = some (dataBase p) := by rw [store_baseSeq, hb]
    obtain ⟨h₁, h₂⟩ := accounting_completion hbase hc
    rw [hs₁] at h₁
    rw [hs₂] at h₂
    rw [hr]
    exact ⟨by simpa [dataOnly, hd] using h₁, h₂.trans (by simp)⟩

/-- The receiver with the fed packet in its place still tracks its group. -/
theorem Tracks.joined (hstream : FecStream sent) (h : Tracks sent r) (hp : p ∈ sent)
    {s : FecReceiver} (hj : r.joined p = some s) :
    Tracks sent s ∧ ∃ base, r.baseSeq = some base ∧ s.baseSeq = some base := by
  unfold FecReceiver.joined at hj
  split at hj
  · rename_i hd
    split at hj
    · rename_i hb
      cases hj
      exact ⟨h.setParity hp hd hb, _, hb, hb⟩
    · cases hj
  · rename_i hd
    split at hj
    · rename_i hb
      cases hj
      refine ⟨h.store hstream hp (by simpa using hd) hb.1 hb.2, _, hb.2, ?_⟩
      rw [store_baseSeq, hb.2]
    · cases hj

/-- What is rebuilt is a data packet of the stream, under its own base. -/
theorem Tracks.rebuilds_sent (hstream : FecStream sent) (h : Tracks sent r) (hp : p ∈ sent)
    {e : UInt16 × UInt16} (he : r.rebuilds p = some e) :
    ∃ x ∈ sent, isParity x = false ∧ dataBase x = e.1 ∧ x.1.sequence = e.2 := by
  simp only [FecReceiver.rebuilds, Option.bind_eq_bind, Option.bind_eq_some_iff] at he
  obtain ⟨s, hj, idx, hidx, he⟩ := he
  obtain ⟨hs, base, hb, hsb⟩ := h.joined hstream hp hj
  obtain ⟨pre, post, ⟨lx, pl⟩, hslots, hpar, rfl⟩ := of_rebuildIndex hidx
  obtain ⟨x, hx, hxd, hxb, hxs, -⟩ := hs.missing_packet hstream hsb hslots hpar
  simp only [hb, Option.getD_some, Option.pure_def, Option.some.injEq] at he
  subst he
  exact ⟨x, hx, hxd, hxb, hxs⟩

end Step

/-! ## Runs without duplication -/

/-- Base and sequence of everything a run over `todo` rebuilds. -/
def rebuiltAlong (r : FecReceiver) : List FecPacket → List (UInt16 × UInt16)
  | [] => []
  | p :: todo => (r.rebuilds p).toList ++
    match r.feed .release p with
    | .ok (r', _) => rebuiltAlong r' todo
    | .error _ => []

section Runs

variable {sent : List FecPacket}

theorem held_of_completion {r r' : FecReceiver} {b : Build} {out : List FecPacket}
    (hc : Completion b r r' out) {q : FecPacket} (hq : q ∈ r'.held) : q ∈ r.held := by
  cases hc with
  | complete hm hne => simp [FecReceiver.held, FecReceiver.closed] at hq
  | rebuilt pre post lx pl hd n hs hp hh hn => simp [FecReceiver.held, FecReceiver.closed] at hq
  | wait hm hp => exact hq

theorem held_of_store {r : FecReceiver} {p q : FecPacket} (hq : q ∈ (r.store p).held) :
    q ∈ r.held ∨ q = p := by
  unfold FecReceiver.store at hq
  split at hq
  · obtain ⟨s, hs, hsq⟩ := List.mem_filterMap.mp hq
    rcases List.mem_or_eq_of_mem_set hs with hs | rfl
    · exact .inl (List.mem_filterMap.mpr ⟨s, hs, hsq⟩)
    · exact .inr (Option.some.inj hsq).symm
  · exact .inl hq

/-- What a receiver holds after a step it held before, or was just fed. -/
theorem Tracks.held_of_fed {r r' : FecReceiver} {p q : FecPacket} {b : Build}
    {out : List FecPacket} (h : Tracks sent r) (hf : Fed b r p r' out) (hq : q ∈ r'.held) :
    q ∈ r.held ∨ q = p := by
  cases hf with
  | plain hz hd hf => rw [(accounting_flushed h hf).2.1] at hq; simp at hq
  | strayParity hd hb => exact .inl hq
  | parity hd hb hc => exact .inl (held_of_completion hc hq)
  | straggler hz hd hprev hb => exact .inl hq
  | switch hz hd hprev hb hf hc =>
    rcases held_of_store (held_of_completion hc hq) with hq | rfl
    · simp [FecReceiver.held, FecReceiver.openGroup] at hq
    · exact .inr rfl
  | same hz hd hb hc => exact held_of_store (held_of_completion hc hq)

/-- **Accounting of a run** over packets that arrive once each. -/
theorem accounting_run (hstream : FecStream sent) :
    ∀ (todo done : List FecPacket) (r : FecReceiver), Tracks sent r → (done ++ todo).Nodup →
      (∀ p ∈ todo, p ∈ sent) → (∀ q ∈ r.held, q ∈ done) →
      ∃ r' out, run (FecReceiver.step .release) r (packets todo) = .ok (r', out) ∧
        Tracks sent r' ∧
        seqs out + seqs r'.held = seqs r.held + seqs (dataOnly todo) +
          ((rebuiltAlong r todo).map (·.2) : List UInt16) ∧
        heldParity r' + ((rebuiltAlong r todo).map (·.1) : List UInt16) ≤
          heldParity r + parityBases todo ∧
        ∀ e ∈ rebuiltAlong r todo,
          ∃ x ∈ sent, isParity x = false ∧ dataBase x = e.1 ∧ x.1.sequence = e.2
  | [], done, r, h, _, _, _ => by
      refine ⟨r, [], rfl, h, ?_, ?_, by simp [rebuiltAlong]⟩
      · simp [rebuiltAlong, dataOnly]
      · simp [rebuiltAlong, parityBases]
  | p :: todo, done, r, h, hnd, hsent, hheld => by
      have hp : p ∈ sent := hsent p (by simp)
      have hnew : p ∉ r.held := fun hmem =>
        (List.nodup_append.mp hnd).2.2 p (hheld p hmem) p (by simp) rfl
      obtain ⟨r₁, o₁, hstep, h₁, -⟩ := h.step hstream (i := .packet p) hp
      have hfeed : r.feed .release p = .ok (r₁, o₁) := hstep
      have hfed := feed_cases hfeed
      obtain ⟨ha, hb⟩ := accounting_feed hstream h hp hnew hfed
      have hheld₁ : ∀ q ∈ r₁.held, q ∈ done ++ [p] := fun q hq => by
        rcases h.held_of_fed hfed hq with hq | rfl
        · exact List.mem_append_left _ (hheld q hq)
        · simp
      obtain ⟨r₂, o₂, hrun, h₂, ha', hb', hx⟩ := accounting_run hstream todo (done ++ [p]) r₁ h₁
        (by simpa using hnd) (fun q hq => hsent q (List.mem_cons_of_mem _ hq)) hheld₁
      have halong : rebuiltAlong r (p :: todo) = (r.rebuilds p).toList ++ rebuiltAlong r₁ todo := by
        simp [rebuiltAlong, hfeed]
      have hdata : seqs (dataOnly (p :: todo)) = seqs (dataOnly [p]) + seqs (dataOnly todo) := by
        rw [← seqs_append, dataOnly, dataOnly, dataOnly, ← List.filter_append]; rfl
      have hpar : parityBases (p :: todo) = parityBases [p] + parityBases todo := by
        rw [parityBases, parityBases, parityBases, Multiset.coe_add, ← List.map_append,
          ← List.filter_append]
        rfl
      refine ⟨r₂, o₁ ++ o₂, run_cons_ok hstep hrun, h₂, ?_, ?_, ?_⟩
      · rw [halong, hdata, List.map_append, ← Multiset.coe_add, seqs_append, add_assoc, ha',
          ← add_assoc, ← add_assoc, ha]
        abel
      · rw [halong, hpar, List.map_append, ← Multiset.coe_add]
        calc heldParity r₂ + (((r.rebuilds p).toList.map (·.1) : List UInt16)
              + ((rebuiltAlong r₁ todo).map (·.1) : List UInt16))
            = (heldParity r₂ + ((rebuiltAlong r₁ todo).map (·.1) : List UInt16))
              + ((r.rebuilds p).toList.map (·.1) : List UInt16) := by abel
          _ ≤ (heldParity r₁ + parityBases todo)
              + ((r.rebuilds p).toList.map (·.1) : List UInt16) := by gcongr
          _ = (heldParity r₁ + ((r.rebuilds p).toList.map (·.1) : List UInt16))
              + parityBases todo := by abel
          _ ≤ (heldParity r + parityBases [p]) + parityBases todo := by gcongr
          _ = heldParity r + (parityBases [p] + parityBases todo) := by abel
      · intro e he
        rw [halong] at he
        rcases List.mem_append.mp he with he | he
        · exact h.rebuilds_sent hstream hp (by simpa using he)
        · exact hx e he

/-- Two parities of the stream with the same base are the same packet. -/
theorem FecStream.eq_of_parityBase (hstream : FecStream sent) {p q : FecPacket} (hp : p ∈ sent)
    (hq : q ∈ sent) (hpp : isParity p = true) (hqp : isParity q = true)
    (hb : parityBase p = parityBase q) : p = q := by
  obtain ⟨ds, hds⟩ := hstream.parity p hp hpp
  obtain ⟨es, hes⟩ := hstream.parity q hq hqp
  -- the first packet of `p`'s group is a packet of `q`'s group, hence of its size
  have hlt : 0 < ds.length := by have := hds.length; have := hds.two_le; omega
  have hmem : ds[0] ∈ ds := List.getElem_mem hlt
  obtain ⟨hs0, hd0, hz0⟩ := hds.group.mem _ hmem
  have hz : ds[0].1.fecGroupSize ≠ 0 := by
    intro h0
    have := hds.two_le
    rw [← hz0, h0] at this
    simp at this
  have hsize : p.1.fecGroupSize = q.1.fecGroupSize := by
    rw [← hz0]
    exact (hes.eq_getElem hstream hs0 hd0 hz (by rw [hds.group.base_eq hmem, hb])).1
  exact hstream.eq_of_sequence hp hq (by rw [parity_sequence p, parity_sequence q, hb, hsize])

theorem nodup_parityBases (hstream : FecStream sent) {arrivals : List FecPacket}
    (hnd : arrivals.Nodup) (hsub : ∀ p ∈ arrivals, p ∈ sent) : (parityBases arrivals).Nodup := by
  refine Multiset.coe_nodup.mpr (List.Nodup.map_on ?_ (hnd.filter _))
  intro p hp q hq hpq
  rw [List.mem_filter] at hp hq
  exact hstream.eq_of_parityBase (hsub p hp.1) (hsub q hq.1) hp.2 hq.2 hpq

theorem nodup_data (hstream : FecStream sent) {arrivals : List FecPacket}
    (hnd : arrivals.Nodup) (hsub : ∀ p ∈ arrivals, p ∈ sent) :
    (seqs (dataOnly arrivals)).Nodup := by
  refine Multiset.coe_nodup.mpr (List.Nodup.map_on ?_ (hnd.filter _))
  intro p hp q hq hpq
  rw [dataOnly, List.mem_filter] at hp hq
  exact hstream.eq_of_sequence (hsub p hp.1) (hsub q hq.1) hpq

/-- Distinct bases of rebuilt packets make distinct sequences. -/
theorem nodup_rebuilt (hstream : FecStream sent) {l : List (UInt16 × UInt16)}
    (hl : (l.map (·.1)).Nodup)
    (hx : ∀ e ∈ l, ∃ x ∈ sent, isParity x = false ∧ dataBase x = e.1 ∧ x.1.sequence = e.2) :
    (l.map (·.2)).Nodup := by
  refine List.Nodup.map_on ?_ (List.Nodup.of_map _ hl)
  intro e he f hf hef
  obtain ⟨x, hxs, -, hxb, hxq⟩ := hx e he
  obtain ⟨y, hys, -, hyb, hyq⟩ := hx f hf
  have hxy : x = y := hstream.eq_of_sequence hxs hys (by rw [hxq, hyq, hef])
  exact Prod.ext (by rw [← hxb, ← hyb, hxy]) hef

end Runs

/-! ## The exact condition -/

/-- The audio packet with sequence `s` is among the arrivals. -/
def Original (arrivals : List FecPacket) (s : UInt16) : Prop :=
  ∃ p ∈ arrivals, isParity p = false ∧ p.1.sequence = s

/-- The step rebuilds no packet whose original arrives, before or after. -/
def NoSecondSource (arrivals : List FecPacket) (r : FecReceiver) : Input → Prop
  | .packet p => ∀ e, r.rebuilds p = some e → ¬ Original arrivals e.2
  | .flush => True

theorem along_iff_rebuiltAlong (arrivals : List FecPacket) :
    ∀ (todo : List FecPacket) (r : FecReceiver),
      Along (FecReceiver.step .release) (NoSecondSource arrivals) r (packets todo ++ [.flush]) ↔
        ∀ e ∈ rebuiltAlong r todo, ¬ Original arrivals e.2
  | [], r => by simp [packets, Along, NoSecondSource, rebuiltAlong]
  | p :: todo, r => by
      have hhead : packets (p :: todo) ++ [.flush] = .packet p :: (packets todo ++ [.flush]) := rfl
      rw [hhead, Along, rebuiltAlong]
      have hcond : NoSecondSource arrivals r (.packet p) ↔
          ∀ e ∈ (r.rebuilds p).toList, ¬ Original arrivals e.2 := by
        simp [NoSecondSource]
      rw [hcond]
      cases hf : r.feed .release p with
      | error e => simp [FecReceiver.step, hf]
      | ok x =>
        obtain ⟨r₁, o₁⟩ := x
        have hrest := along_iff_rebuiltAlong arrivals todo r₁
        simp only [FecReceiver.step, hf, Except.ok.injEq, Prod.mk.injEq, List.mem_append]
        constructor
        · rintro ⟨h₁, h₂⟩ e (he | he)
          · exact h₁ e he
          · exact hrest.mp (h₂ r₁ o₁ ⟨rfl, rfl⟩) e he
        · intro h
          refine ⟨fun e he => h e (.inl he), ?_⟩
          rintro _ _ ⟨rfl, rfl⟩
          exact hrest.mpr fun e he => h e (.inr he)

/-- **At most once, exactly when no packet has two sources.** For any order of
arrival of any packets of a sender run, each at most once, the sequences the
receiver delivers over the whole run are pairwise distinct if and only if no
step rebuilds a packet whose original is itself among the arrivals. -/
theorem delivered_distinct_iff {z : Zone} (hz : Fresh z) {ops : List Zone.Op}
    (hops : ∀ op ∈ ops, OpOk op) (hlen : (z.emitted ops).length < 65536)
    {arrivals : List FecPacket} (hnd : arrivals.Nodup)
    (hsub : ∀ p ∈ arrivals, p ∈ z.emitted ops) :
    ∃ r out, run (FecReceiver.step .release) .new (packets arrivals ++ [.flush]) = .ok (r, out) ∧
      ((out.map (·.1.sequence)).Nodup ↔
        Along (FecReceiver.step .release) (NoSecondSource arrivals) .new
          (packets arrivals ++ [.flush])) := by
  have hstream := fecStream_emitted hz hops hlen
  obtain ⟨r₁, o₁, hrun, h₁, hacc, hpar, hx⟩ := accounting_run hstream arrivals [] .new
    (Tracks.of_idle rfl rfl rfl) (by simpa using hnd) hsub (by simp [FecReceiver.held, new])
  obtain ⟨⟨r₂, o₂⟩, hflush⟩ := flush_release r₁
  have hstep : FecReceiver.step .release r₁ .flush = .ok (r₂, o₂) := hflush
  refine ⟨r₂, o₁ ++ (o₂ ++ []), run_append_ok hrun (run_cons_ok hstep rfl), ?_⟩
  -- everything delivered: the arrived data and the rebuilt packets
  have hall : seqs (o₁ ++ (o₂ ++ [])) = seqs (dataOnly arrivals) +
      ((rebuiltAlong .new arrivals).map (·.2) : List UInt16) := by
    rw [List.append_nil, seqs_append, (accounting_flushed h₁ (flush_cases hflush)).1, hacc]
    simp [FecReceiver.held, new]
  have hbases : ((rebuiltAlong .new arrivals).map (·.1)).Nodup := by
    have hle : (((rebuiltAlong .new arrivals).map (·.1) : List UInt16) : Multiset UInt16) ≤
        parityBases arrivals := by
      refine (le_trans (Multiset.le_add_left _ _) hpar).trans (le_of_eq ?_)
      simp [heldParity, new]
    exact Multiset.coe_nodup.mp (Multiset.nodup_of_le hle (nodup_parityBases hstream hnd hsub))
  have hrebuilt := nodup_rebuilt hstream hbases hx
  rw [along_iff_rebuiltAlong, ← Multiset.coe_nodup]
  show (seqs (o₁ ++ (o₂ ++ []))).Nodup ↔ _
  rw [hall, Multiset.nodup_add]
  constructor
  · rintro ⟨-, -, hdisj⟩ e he ⟨p, hp, hd, hs⟩
    have hsrc : e.2 ∈ seqs (dataOnly arrivals) :=
      List.mem_map.mpr ⟨p, List.mem_filter.mpr ⟨hp, by simpa using hd⟩, hs⟩
    exact Multiset.disjoint_left.mp hdisj hsrc (List.mem_map_of_mem he)
  · intro hno
    refine ⟨nodup_data hstream hnd hsub, Multiset.coe_nodup.mpr hrebuilt, ?_⟩
    rw [Multiset.disjoint_left]
    intro x hs hr
    obtain ⟨e, he, rfl⟩ := List.mem_map.mp (Multiset.mem_coe.mp hr)
    obtain ⟨p, hp, hps⟩ := List.mem_map.mp (Multiset.mem_coe.mp hs)
    rw [dataOnly, List.mem_filter] at hp
    exact hno e he ⟨p, hp.1, by simpa using hp.2, hps⟩

/-- The condition can hold: the group of two arrives whole and in order. -/
theorem delivered_distinct_in_order :
    ∃ r out, run (FecReceiver.step .release) .new
        (packets (pairZone.emitted pairOps) ++ [.flush]) = .ok (r, out) ∧
      ((out.map (·.1.sequence)).Nodup ↔
        Along (FecReceiver.step .release) (NoSecondSource (pairZone.emitted pairOps)) .new
          (packets (pairZone.emitted pairOps) ++ [.flush])) :=
  delivered_distinct_iff fresh_pairZone opOk_pairOps (by decide +kernel) (by decide +kernel)
    fun _ hp => hp

/-- The pair of packets with the second one behind the parity. -/
def latePair : List FecPacket :=
  match pairZone.emitted pairOps with
  | [d₀, d₁, q] => [d₀, q, d₁]
  | l => l

/-- The condition can fail: the parity rebuilds packet 0, and its original is
delivered again as a straggler of the group just closed. -/
theorem delivered_twice :
    latePair.Nodup ∧ (∀ p ∈ latePair, p ∈ pairZone.emitted pairOps) ∧
      ∃ r out, run (FecReceiver.step .release) .new (packets latePair ++ [.flush]) = .ok (r, out) ∧
        out.map (·.1.sequence) = [65535, 0, 0] ∧ ¬ (out.map (·.1.sequence)).Nodup :=
  ⟨by decide +kernel, by decide +kernel, _, _, rfl, by decide +kernel, by decide +kernel⟩

end Oaat.Fec
