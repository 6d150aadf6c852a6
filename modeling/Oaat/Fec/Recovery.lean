/-
Oaat.Fec.Recovery — what a FEC receiver delivers on a lossy in-order channel.

The sender emits whole groups; of every group any subset of the packets
arrives, in sending order. A group is handled by itself: `Mid` says where the
receiver stands after the first packets of a group (arrived or not), one mark
at a time (`Mid.mark`), and `Between` what is left over from group to group: an
incomplete group waits in the receiver until the next group's first packet
flushes it. So the output of a group may come late, and the equation carried
along is

    delivered ++ held after  =  held before ++ output of the group.

In a build with overflow checks a rebuild returns only if the timestamps it
extrapolates fit `i64`; everything else returns in either build. The last
theorem puts the groups together.
-/
import Oaat.Fec.Safety

namespace Oaat.Fec

open Oaat.Core Oaat.Controller Oaat.Core.FecReceiver Oaat.Lib

/-! ## Groups and what arrives of them -/

/-- The calls that send one whole group, and which of its packets arrive. -/
structure Damaged (n : GroupSize) where
  calls : List AudioArgs
  arrived : List Bool
  parityArrived : Bool
  length_calls : calls.length = n.val.toNat
  length_arrived : arrived.length = n.val.toNat
  audio : ∀ a ∈ calls, OpOk (.sendAudioAll a)

/-- Packets with those that do not arrive blanked out. -/
def marks (mask : List Bool) (l : List FecPacket) : List (Option FecPacket) :=
  List.zipWith (fun arrives p => if arrives then some p else none) mask l

/-- The packets of `l` that arrive. -/
def survivors (mask : List Bool) (l : List FecPacket) : List FecPacket :=
  (marks mask l).filterMap id

/-- The timestamps of the first two packets of `l` that arrive extrapolate within `i64` to
the place of every one that does not. -/
def GapsFit (mask : List Bool) (l : List FecPacket) : Prop :=
  ∀ idx, mask[idx]? = some false → TimestampsFit idx (known (marks mask l))

namespace Damaged

variable {n : GroupSize}

def ops (g : Damaged n) : List Zone.Op := g.calls.map .sendAudioAll

/-- How many data packets of the group are dropped. -/
def dropped (g : Damaged n) : Nat := g.arrived.count false

/-- The group lacks one data packet and its parity arrives. -/
def Rebuilt (g : Damaged n) : Prop := g.dropped = 1 ∧ g.parityArrived = true

instance (g : Damaged n) : Decidable g.Rebuilt := inferInstanceAs (Decidable (_ ∧ _))

/-- The data packets counted as lost: those dropped from a group that is not
rebuilt and of which the receiver saw at least one data packet. -/
def lost (g : Damaged n) : Nat :=
  if g.Rebuilt ∨ g.dropped = n.val.toNat then 0 else g.dropped

end Damaged

/-- What identifies a delivered packet: its sequence, its index and its bytes. -/
def content (p : FecPacket) : UInt16 × UInt8 × List UInt8 := (p.1.sequence, p.1.fecIndex, p.2)

/-- The output due for a group sent by `z`. -/
def Delivered {n : GroupSize} (z : Zone) (g : Damaged n) (out : List FecPacket) : Prop :=
  let data := dataOnly (z.emitted g.ops)
  if g.dropped = 0 ∨ g.Rebuilt then out.map content = data.map content
  else out = survivors g.arrived data

/-- The output due for a list of groups, group after group. -/
def DeliveredAll {n : GroupSize} : Zone → List (Damaged n) → List FecPacket → Prop
  | _, [], out => out = []
  | z, g :: gs, out => ∃ o os, out = o ++ os ∧ Delivered z g o ∧
      DeliveredAll (z.runOps g.ops).1 gs os

/-- The timestamps extrapolate in every group that is rebuilt. -/
def GroupsExtrapolate {n : GroupSize} : Zone → List (Damaged n) → Prop
  | _, [] => True
  | z, g :: gs => (g.Rebuilt → GapsFit g.arrived (dataOnly (z.emitted g.ops))) ∧
      GroupsExtrapolate (z.runOps g.ops).1 gs

/-- The packets of a list of groups that arrive, in sending order. -/
def arrivals {n : GroupSize} : Zone → List (Damaged n) → List FecPacket
  | _, [] => []
  | z, g :: gs => survivors (g.arrived ++ [g.parityArrived]) (z.emitted g.ops) ++
      arrivals (z.runOps g.ops).1 gs

/-! ## The sender's groups -/

/-- `ds` and `q` are the data packets and the parity of the whole group `base`. -/
structure GroupSent (base : UInt16) (n : GroupSize) (ds : List FecPacket) (q : FecPacket) :
    Prop where
  covers : SentParity ds q ds
  parity : isParity q = true
  base : parityBase q = base
  size : q.1.fecGroupSize = n.val
  short : ∀ p ∈ ds, p.2.length < 65536

/-- The parity sent after a whole group. -/
theorem groupSent_parityPacket {n : GroupSize} {z : Zone} {enc : FecEncoder} {ds : List FecPacket}
    (a : AudioArgs) (henc : z.fecEncoder = some enc) (hn : enc.groupSize = n)
    (hg : IsGroup ds (z.sequence + 1 - UInt16.ofNat ds.length) n.val ds)
    (hlen : ds.length = n.val.toNat) (hshort : ∀ p ∈ ds, p.2.length < 65536) :
    GroupSent (z.sequence + 1 - UInt16.ofNat ds.length) n ds
      (z.parityPacket a (z.sequence + 1)
        ⟨xorParity (ds.map (·.2)), lensXor (ds.map (·.2))⟩) := by
  generalize hq : z.parityPacket a (z.sequence + 1)
    ⟨xorParity (ds.map (·.2)), lensXor (ds.map (·.2))⟩ = q
  have hsize : q.1.fecGroupSize = n.val := by
    simp [← hq, Zone.parityPacket, Zone.fecFields, henc, hn]
  have hbase : parityBase q = z.sequence + 1 - UInt16.ofNat ds.length := by
    have hseq : q.1.sequence = z.sequence + 1 := by rw [← hq]; rfl
    rw [parityBase, hsize, hseq, hlen, UInt16.ofNat_uInt8ToNat]
  refine ⟨⟨?_, ?_, ?_, ?_, ?_⟩, ?_, hbase, hsize, hshort⟩
  · rw [hbase, hsize]; exact hg
  · rw [hsize]; exact hlen
  · rw [hsize]; exact (FecEncoder.groupSize_bounds n).1
  · rw [← hq]; rfl
  · rw [← hq]; rfl
  · rw [← hq]; exact isParity_parityPacket _ _ _ _

/-- The rest of a group is sent: data packets, then the parity of all of it. -/
theorem runOps_group {n : GroupSize} :
    ∀ (calls : List AudioArgs) (z : Zone) (enc : FecEncoder) (ds : List FecPacket),
      z.fecEncoder = some enc → enc.Holds (ds.map (·.2)) → enc.groupSize = n → calls ≠ [] →
      ds.length + calls.length = n.val.toNat → (∀ a ∈ calls, OpOk (.sendAudioAll a)) →
      (∀ p ∈ ds, p.2.length < 65536) →
      IsGroup ds (z.sequence - UInt16.ofNat ds.length) n.val ds →
      ∃ es q enc', z.runOps (calls.map .sendAudioAll) =
          (⟨z.sequence + UInt16.ofNat (calls.length + 1), some enc'⟩, es ++ [q]) ∧
        enc'.Holds [] ∧ enc'.groupSize = n ∧
        GroupSent (z.sequence - UInt16.ofNat ds.length) n (ds ++ es) q
  | [], _, _, _, _, _, _, hne, _, _, _, _ => absurd rfl hne
  | a :: calls, z, enc, ds, henc, hh, hn, _, hlen, hops, hshort, hg => by
      obtain ⟨hflags, hpay⟩ := hops a (by simp)
      have hbase : z.sequence + 1 - UInt16.ofNat (ds ++ [z.dataPacket a]).length
          = z.sequence - UInt16.ofNat ds.length := by
        rw [List.length_append, List.length_singleton, ofNat_succ_sub]
      have hg' : IsGroup (ds ++ [z.dataPacket a])
          (z.sequence + 1 - UInt16.ofNat (ds ++ [z.dataPacket a]).length) n.val
          (ds ++ [z.dataPacket a]) := by
        rw [hbase, ← hn]
        exact IsGroup.dataPacket (hn ▸ hg) henc hh hflags
      have hmap : ds.map (·.2) ++ [a.payload] = (ds ++ [z.dataPacket a]).map (·.2) := by
        simp [Zone.dataPacket]
      have hshort' : ∀ p ∈ ds ++ [z.dataPacket a], p.2.length < 65536 := fun p hp => by
        rcases List.mem_append.mp hp with hp | hp
        · exact hshort p hp
        · rw [List.mem_singleton.mp hp]; exact hpay
      cases calls with
      | nil =>
        have heq : (ds.map (·.2)).length + 1 = enc.groupSize.val.toNat := by
          rw [hn]; simpa using hlen
        obtain ⟨enc', hsend, hh', hsz⟩ := sendAudioAll_complete henc hh a heq
        have hsent := groupSent_parityPacket a henc hn hg' (by simpa using hlen) hshort'
        rw [hbase, ← hmap] at hsent
        refine ⟨[z.dataPacket a], _, enc', ?_, hh', hsz.trans hn, hsent⟩
        simp only [List.map_cons, List.map_nil, Zone.runOps, Zone.step, hsend, List.append_nil,
          List.cons_append, List.nil_append]
        have htwo : UInt16.ofNat (([a] : List AudioArgs).length + 1) = 1 + 1 := rfl
        rw [htwo, UInt16.add_assoc]
      | cons a' calls =>
        have hlt : (ds.map (·.2)).length + 1 < enc.groupSize.val.toNat := by
          rw [hn]; simp at hlen ⊢; omega
        obtain ⟨enc₁, hsend, hh₁, hsz₁⟩ := sendAudioAll_pending henc hh a hlt
        obtain ⟨es, q, enc', hrun, hh', hsz', hsent⟩ := runOps_group (a' :: calls)
          ⟨z.sequence + 1, some enc₁⟩ enc₁ (ds ++ [z.dataPacket a]) rfl (hmap ▸ hh₁)
          (hsz₁.trans hn) (by simp) (by simp at hlen ⊢; omega)
          (fun b hb => hops b (List.mem_cons_of_mem _ hb)) hshort' hg'
        rw [hbase] at hsent
        refine ⟨z.dataPacket a :: es, q, enc', ?_, hh', hsz', by simpa using hsent⟩
        have hseq : z.sequence + 1 + UInt16.ofNat ((a' :: calls).length + 1)
            = z.sequence + UInt16.ofNat ((a :: a' :: calls).length + 1) := by
          simp only [List.length_cons, UInt16.ofNat_add]
          grind
        rw [List.map_cons, Zone.runOps]
        simp only [Zone.step, hsend, hrun, hseq, List.cons_append, List.nil_append]

/-! ## Inside a group -/

/-- The receiver has flushed `r₀` and assembles the group `base`. -/
structure Opened (r₀ r : FecReceiver) (base : UInt16) (slots : List (Option FecPacket)) :
    Prop where
  base : r.baseSeq = some base
  slots : r.slots = slots
  parity : r.parity = none
  recovered : r.recovered = r₀.recovered
  lost : r.lost = r₀.lost + missing r₀.slots
  prev : ∀ x, r.prevBaseSeq = some x → r₀.baseSeq = some x ∨ r₀.prevBaseSeq = some x

/-- The receiver and its output after the packets `done` of the group `base`, of
which the blank ones did not arrive, when it stood at `r₀` before the group. -/
inductive Mid (r₀ : FecReceiver) (base : UInt16) (size : Nat) (done : List (Option FecPacket)) :
    FecReceiver → List FecPacket → Prop
  | untouched (hnone : done.filterMap id = []) : Mid r₀ base size done r₀ []
  | opened {r} (hsome : done.filterMap id ≠ [])
      (h : Opened r₀ r base (done ++ List.replicate (size - done.length) none))
      (hm : missing r.slots ≠ 0) : Mid r₀ base size done r r₀.held
  | emitted {r} (h : Opened r₀ r base done) (hm : missing done = 0) (hlen : done.length = size) :
      Mid r₀ base size done r.closed (r₀.held ++ done.filterMap id)

/-- A data packet that lies at index `i` of the group `base`. -/
structure PlacedAt (base : UInt16) (size : Nat) (i : Nat) (p : FecPacket) : Prop where
  data : isParity p = false
  size : p.1.fecGroupSize.toNat = size
  index : p.1.fecIndex.toNat = i
  base : dataBase p = base

theorem PlacedAt.size_ne_zero {base : UInt16} {size i : Nat} {p : FecPacket}
    (h : PlacedAt base size i p) (hsize : size ≠ 0) : p.1.fecGroupSize ≠ 0 := by
  intro h0
  have hs := h.size
  rw [h0] at hs
  exact hsize hs.symm

section Group

variable {b : Build} {r₀ r : FecReceiver} {base : UInt16} {size : Nat}
  {done : List (Option FecPacket)}

/-- Storing the next packet of an opened group emits the group if that was the
last one and none is missing. -/
theorem Opened.store {p : FecPacket}
    (h : Opened r₀ r base (done ++ List.replicate (size - done.length) none))
    (hlt : done.length < size) (hidx : p.1.fecIndex.toNat = done.length) :
    ∃ r' out, (r.store p).tryComplete b = .ok (r', out) ∧
      Mid r₀ base size (done ++ [some p]) r' (r₀.held ++ out) := by
  have hstore := store_next h.slots hlt hidx
  have hopen : Opened r₀ (r.store p) base
      ((done ++ [some p]) ++ List.replicate (size - (done ++ [some p]).length) none) := by
    rw [hstore]
    exact ⟨h.base, rfl, h.parity, h.recovered, h.lost, h.prev⟩
  have hne : (r.store p).slots ≠ [] := by rw [hopen.slots]; simp
  rw [tryComplete_noParity hopen.parity]
  by_cases hm : missing (r.store p).slots = 0
  · -- nothing is missing, so the group ends with this packet
    have hsum := hm
    rw [hopen.slots, missing_append, missing_replicate_none] at hsum
    have hfull : (done ++ [some p]).length = size := by simp at hsum ⊢; omega
    have hslots : (r.store p).slots = done ++ [some p] := by
      rw [hopen.slots, hfull]; simp
    refine ⟨_, _, if_pos ⟨hm, hne⟩, ?_⟩
    have hheld : (r.store p).held = (done ++ [some p]).filterMap id := by
      rw [FecReceiver.held, hslots]
    rw [hheld]
    exact .emitted { hopen with slots := hslots } (by omega) hfull
  · refine ⟨_, [], if_neg fun hc => hm hc.1, ?_⟩
    rw [List.append_nil]
    exact .opened (by simp) hopen hm

/-- Flushing gives out what the receiver holds and counts what is missing. -/
theorem flush_held (hidle : r₀.baseSeq = none → r₀.slots = [])
    (hlost : r₀.lost + missing r₀.slots < 2 ^ 64) :
    ∃ r, r₀.flush b = .ok (r, r₀.held) ∧ r.recovered = r₀.recovered ∧
      r.lost = r₀.lost + missing r₀.slots ∧
      ∀ x, r.prevBaseSeq = some x → r₀.baseSeq = some x ∨ r₀.prevBaseSeq = some x := by
  cases hb : r₀.baseSeq with
  | none =>
    have hs := hidle hb
    refine ⟨r₀, ?_, rfl, ?_, fun x hx => .inr hx⟩
    · simp [FecReceiver.flush, hb, FecReceiver.held, hs]
    · rw [hs]; rfl
  | some base =>
    refine ⟨{ r₀.closed with lost := r₀.lost + missing r₀.slots }, ?_, rfl, rfl, ?_⟩
    · rw [FecReceiver.flush, hb, Option.isNone_some, if_neg Bool.false_ne_true,
        bind_of_ok _ (Build.u64_of_fits _ hlost)]
      simp only [takeGroup, FecReceiver.closed, FecReceiver.held, hb]
      rfl
    · intro x hx
      exact .inl (by rw [← hb]; exact hx)

/-- What the receiver has to know about itself before a group: it is not at
that group already, and its counter has room. -/
structure Ready (r₀ : FecReceiver) (base : UInt16) : Prop where
  idle : r₀.baseSeq = none → r₀.slots = []
  notCurrent : r₀.baseSeq ≠ some base
  notPrevious : r₀.prevBaseSeq ≠ some base
  room : r₀.lost + missing r₀.slots < 2 ^ 64

/-- **One mark.** The next packet of the group arrives, or does not. -/
theorem Mid.mark (hr : Ready r₀ base) {out : List FecPacket} (h : Mid r₀ base size done r out)
    (hlt : done.length < size) (m : Option FecPacket)
    (hm : ∀ p, m = some p → PlacedAt base size done.length p) :
    ∃ r' out', run (FecReceiver.step b) r (packets m.toList) = .ok (r', out') ∧
      Mid r₀ base size (done ++ [m]) r' (out ++ out') := by
  cases m with
  | none =>
    refine ⟨r, [], rfl, ?_⟩
    rw [List.append_nil]
    cases h with
    | untouched hnone => exact .untouched (by simpa using hnone)
    | opened hsome h hm =>
      refine .opened (by simpa using hsome) { h with slots := ?_ } hm
      obtain ⟨k, hk⟩ : ∃ k, size - done.length = k + 1 := ⟨size - done.length - 1, by omega⟩
      have hk' : size - (done ++ [none]).length = k := by simp; omega
      rw [h.slots, hk, hk', List.replicate_succ]
      simp
    | emitted h hm hlen => omega
  | some p =>
    have hz : p.1.fecGroupSize ≠ 0 := (hm p rfl).size_ne_zero (by omega)
    obtain ⟨hd, hsize, hidx, hbase⟩ := hm p rfl
    have hone : ∀ {r' out'}, r.feed b p = .ok (r', out') →
        run (FecReceiver.step b) r (packets (some p).toList) = .ok (r', out') :=
      fun hf => run_single hf
    cases h with
    | untouched hnone =>
      -- the first packet of the group that arrives flushes what came before
      obtain ⟨r₁, hflush, hrec, hlost, hprev⟩ := flush_held (b := b) hr.idle hr.room
      have hnil : done = List.replicate done.length none :=
        List.eq_replicate_iff.mpr ⟨rfl, List.filterMap_eq_nil_iff.mp hnone⟩
      have hopen : Opened r₀ (r₁.openGroup p) base
          (done ++ List.replicate (size - done.length) none) := by
        refine ⟨by rw [← hbase]; rfl, ?_, rfl, hrec, hlost, hprev⟩
        rw [hnil, List.length_replicate, ← List.replicate_add]
        simp only [FecReceiver.openGroup]
        congr 1
        omega
      obtain ⟨r', out', htry, hmid⟩ := hopen.store (b := b) hlt hidx
      refine ⟨r', _, hone ?_, by simpa using hmid⟩
      rw [feed_switch hd hz (by rw [hbase]; exact hr.notPrevious)
          (by rw [hbase]; exact hr.notCurrent),
        bind_of_ok _ hflush, bind_of_ok _ htry]
      rfl
    | opened hsome h hm =>
      obtain ⟨r', out', htry, hmid⟩ := h.store (b := b) hlt hidx
      refine ⟨r', _, hone ?_, by simpa using hmid⟩
      rw [feed_same hd hz (by rw [hbase]; exact h.base), htry]
    | emitted h hm hlen => omega

/-- **All marks** of the rest of a group. -/
theorem Mid.marks (hr : Ready r₀ base) :
    ∀ (todo done : List (Option FecPacket)) (r : FecReceiver) (out : List FecPacket),
      Mid r₀ base size done r out → done.length + todo.length = size →
      (∀ i p, todo[i]? = some (some p) → PlacedAt base size (done.length + i) p) →
      ∃ r' out', run (FecReceiver.step b) r (packets (todo.filterMap id)) = .ok (r', out') ∧
        Mid r₀ base size (done ++ todo) r' (out ++ out')
  | [], done, r, out, h, _, _ => ⟨r, [], rfl, by simpa using h⟩
  | m :: todo, done, r, out, h, hlen, hplaced => by
      obtain ⟨r₁, o₁, hrun₁, h₁⟩ := h.mark (b := b) hr (by simp at hlen; omega) m
        fun p hp => hplaced 0 p (by simp [hp])
      obtain ⟨r₂, o₂, hrun₂, h₂⟩ := Mid.marks hr todo (done ++ [m]) r₁ _ h₁
        (by simp at hlen ⊢; omega) fun i p hi => by
          have := hplaced (i + 1) p (by simpa using hi)
          simpa [Nat.add_assoc, Nat.add_comm 1 i] using this
      refine ⟨r₂, o₁ ++ o₂, ?_, by simpa using h₂⟩
      have hsplit : packets ((m :: todo).filterMap id) =
          packets m.toList ++ packets (todo.filterMap id) := by
        cases m <;> simp [packets]
      rw [hsplit]
      exact run_append_ok hrun₁ hrun₂

end Group

/-! ## A whole group -/

theorem length_marks {mask : List Bool} {l : List FecPacket} (h : mask.length = l.length) :
    (marks mask l).length = l.length := by
  simp [marks, h]

theorem getElem?_marks {mask : List Bool} {l : List FecPacket} {i : Nat} {p : FecPacket}
    (h : (marks mask l)[i]? = some (some p)) : l[i]? = some p := by
  rw [marks, List.getElem?_zipWith] at h
  split at h
  · rename_i hl
    rw [hl]
    split at h <;> simp_all
  · cases h

theorem marks_eq_none_iff {mask : List Bool} {l : List FecPacket} (h : mask.length = l.length)
    {i : Nat} : (marks mask l)[i]? = some none ↔ mask[i]? = some false := by
  rw [marks, List.getElem?_zipWith]
  by_cases hi : i < l.length
  · have him : i < mask.length := by omega
    rw [List.getElem?_eq_getElem hi, List.getElem?_eq_getElem him]
    cases mask[i] <;> simp
  · have him : mask.length ≤ i := by omega
    rw [List.getElem?_eq_none him]
    simp

theorem missing_marks :
    ∀ {mask : List Bool} {l : List FecPacket}, mask.length = l.length →
      missing (marks mask l) = mask.count false
  | [], [], _ => rfl
  | arrives :: mask, p :: l, h => by
      have ih : missing (marks mask l) = mask.count false := missing_marks (by simpa using h)
      simp only [missing, marks] at ih ⊢
      cases arrives <;> simp [ih]

theorem marks_snoc {mask : List Bool} {l : List FecPacket} (h : mask.length = l.length)
    (arrives : Bool) (q : FecPacket) :
    marks (mask ++ [arrives]) (l ++ [q]) = marks mask l ++ [if arrives then some q else none] := by
  rw [marks, List.zipWith_append h]
  rfl

/-- When no mark is blank everything arrives. -/
theorem survivors_of_missing_zero {mask : List Bool} {l : List FecPacket}
    (h : mask.length = l.length) (hm : missing (marks mask l) = 0) : survivors mask l = l :=
  eq_of_missing_zero (length_marks h).symm (fun _ _ => getElem?_marks) hm

theorem dataOnly_group {base : UInt16} {n : GroupSize} {ds : List FecPacket} {q : FecPacket}
    (h : GroupSent base n ds q) : dataOnly (ds ++ [q]) = ds := by
  have hds : ds.filter (fun p => !isParity p) = ds :=
    List.filter_eq_self.mpr fun p hp => by simp [(h.covers.group.mem p hp).2.1]
  rw [dataOnly, List.filter_append, hds]
  simp [h.parity]

theorem GroupSent.placedAt {base : UInt16} {n : GroupSize} {ds : List FecPacket} {q : FecPacket}
    (h : GroupSent base n ds q) {i : Nat} {p : FecPacket} (hi : ds[i]? = some p) :
    PlacedAt base n.val.toNat i p := by
  have hp : p ∈ ds := List.mem_of_getElem? hi
  obtain ⟨-, hd, hz⟩ := h.covers.group.mem p hp
  exact ⟨hd, by rw [hz, h.size], (h.covers.group.position i p hi).1,
    by rw [h.covers.group.base_eq hp, h.base]⟩

/-- What a group leaves behind: the receiver `r` that stood at `r₀` before it,
the packets it delivered, and `o`, the output due for the group. -/
structure GroupDone (r₀ r : FecReceiver) (base : UInt16) (out o : List FecPacket)
    (rebuilt lost : Nat) : Prop where
  output : out ++ r.held = r₀.held ++ o
  recovered : r.recovered = r₀.recovered + rebuilt
  lost : r.lost + missing r.slots = r₀.lost + missing r₀.slots + lost
  idle : r.baseSeq = none → r.slots = []
  bases : ∀ x, r.baseSeq = some x ∨ r.prevBaseSeq = some x →
    x = base ∨ r₀.baseSeq = some x ∨ r₀.prevBaseSeq = some x

section Group

variable {b : Build} {r₀ r : FecReceiver} {base : UInt16} {n : GroupSize} {ds : List FecPacket}
  {q : FecPacket} {mask : List Bool}

/-- A group with one gap, filled from its parity, carries exactly what was sent. -/
theorem GroupSent.rebuilt_content (hg : GroupSent base n ds q) {slots : List (Option FecPacket)}
    {pre post : List FecPacket} {hd : AudioPacketHeader} (hs : slots = oneGap pre post)
    (hlen : ds.length = slots.length)
    (hagree : ∀ (i : Nat) p, slots[i]? = some (some p) → ds[i]? = some p)
    (hseq : hd.sequence = base + UInt16.ofNat pre.length)
    (hidx : hd.fecIndex = UInt8.ofNat pre.length) :
    (pre ++ (hd, rebuiltPayload ((pre ++ post).map (·.2)) q.1.fecLenXor q.2) :: post).map content
      = ds.map content := by
  rw [hs] at hlen hagree
  obtain ⟨x, hx⟩ := eq_of_oneGap hlen hagree
  have hxi : ds[pre.length]? = some x := by rw [hx]; simp
  have hplace := hg.placedAt hxi
  have hpay : rebuiltPayload ((pre ++ post).map (·.2)) q.1.fecLenXor q.2 = x.2 := by
    rw [hg.covers.payload, hg.covers.lenXor, hx]
    simpa using rebuiltPayload_eq (pre.map (·.2)) (post.map (·.2)) x.2
      (hg.short x (by rw [hx]; simp))
  have hcontent : content (hd, rebuiltPayload ((pre ++ post).map (·.2)) q.1.fecLenXor q.2)
      = content x := by
    rw [hpay]
    simp only [content, Prod.mk.injEq, and_true]
    refine ⟨?_, ?_⟩
    · rw [hseq, sequence_eq_base_add x, hplace.base, hplace.index]
    · rw [hidx, ← hplace.index]
      simp
  rw [hx, List.map_append, List.map_cons, hcontent, List.map_append, List.map_cons]

/-- With one gap there is one index to extrapolate to. -/
theorem gapsFit_oneGap (hmask : mask.length = ds.length) {pre post : List FecPacket}
    (hs : marks mask ds = oneGap pre post) :
    GapsFit mask ds ↔ TimestampsFit pre.length (known (marks mask ds)) := by
  constructor
  · intro h
    refine h _ ((marks_eq_none_iff hmask).mp ?_)
    rw [hs]
    simp [oneGap]
  · intro h idx hidx
    have hgap := (marks_eq_none_iff hmask).mpr hidx
    rw [hs] at hgap
    rw [eq_gap_of_none hgap]
    exact h

/-- The parity of a group that lacks one packet can be used, unless the build
has overflow checks and the timestamps leave `i64`. -/
theorem Opened.rebuild_returns (hg : GroupSent base n ds q) (hmask : mask.length = ds.length)
    (h : Opened r₀ r base (marks mask ds)) (hone : missing (marks mask ds) = 1)
    (hroom : r₀.recovered + 1 < 2 ^ 64) :
    (∃ x, r.feed b q = .ok x) ↔ (b = .debug → GapsFit mask ds) := by
  have hlen : ds.length = q.1.fecGroupSize.toNat := hg.covers.length
  have htwo := hg.covers.two_le
  have hslots : 2 ≤ r.slots.length := by
    rw [h.slots, length_marks hmask]
    omega
  rw [feed_parity hg.parity (by rw [h.base, hg.base])]
  cases b with
  | release =>
    have hsize : r.slots.length ≠ 1 := by omega
    exact iff_of_true (tryComplete_release hsize) fun hb => absurd hb (by decide)
  | debug =>
    obtain ⟨pre, post, hgap⟩ := missing_eq_one hone
    have hidx := rebuildIndex_oneGap (r := { r with parity := some (q.1.fecLenXor, q.2) })
      (h.slots.trans hgap) rfl
    rw [tryComplete_debug, hidx, gapsFit_oneGap hmask hgap, ← h.slots]
    constructor
    · intro hsafe _
      exact (hsafe _ rfl).fits
    · rintro hfits idx ⟨rfl⟩
      refine ⟨hslots, hfits rfl, ?_⟩
      show r.recovered + 1 < 2 ^ 64
      rw [h.recovered]
      exact hroom

/-- The parity completes a group that lacks one packet. -/
theorem Opened.rebuild (hg : GroupSent base n ds q) (hmask : mask.length = ds.length)
    (h : Opened r₀ r base (marks mask ds)) (hone : missing (marks mask ds) = 1)
    (hroom : r₀.recovered + 1 < 2 ^ 64) {r' : FecReceiver} {out : List FecPacket}
    (hfeed : r.feed b q = .ok (r', out)) :
    out.map content = ds.map content ∧ r'.recovered = r₀.recovered + 1 ∧ r'.lost = r.lost ∧
      r'.slots = [] ∧ r'.baseSeq = none ∧ r'.prevBaseSeq = some base := by
  rw [feed_parity hg.parity (by rw [h.base, hg.base])] at hfeed
  cases tryComplete_cases hfeed with
  | complete hm hne =>
    have : missing r.slots = 1 := by rw [h.slots, hone]
    exact absurd (hm.symm.trans this) (by decide)
  | wait hm hp => exact absurd (hp (by show missing r.slots = 1; rw [h.slots, hone])) (by simp)
  | rebuilt pre post lx pl hd k hs hp hh hk =>
    obtain ⟨rfl, rfl⟩ : q.1.fecLenXor = lx ∧ q.2 = pl := by simpa using hp
    obtain ⟨len, hsyn⟩ := hh
    have hfields := synthesizeHeader_fields hsyn
    have hs' : marks mask ds = oneGap pre post := by rw [← h.slots]; exact hs
    have hseq : hd.sequence = base + UInt16.ofNat pre.length := by
      rw [hfields.1]
      show r.baseSeq.getD 0 + _ = _
      rw [h.base]
      rfl
    have hcontent := hg.rebuilt_content hs' (length_marks hmask).symm (fun i p => getElem?_marks)
      hseq hfields.2.1
    have hk' : k = r₀.recovered + 1 := by
      have : b.u64 (r.recovered + 1) = .ok k := hk
      rw [h.recovered, Build.u64_of_fits _ hroom] at this
      exact (Except.ok.inj this).symm
    exact ⟨hcontent, hk', rfl, rfl, rfl, h.base⟩

/-- The parity of a group that lacks two packets or more waits with it. -/
theorem Opened.keepParity (hg : GroupSent base n ds q) (h : Opened r₀ r base (marks mask ds))
    (htwo : 2 ≤ missing (marks mask ds)) :
    r.feed b q = .ok ({ r with parity := some (q.1.fecLenXor, q.2) }, []) := by
  rw [feed_parity hg.parity (by rw [h.base, hg.base]), tryComplete]
  have hm : 2 ≤ missing r.slots := by rw [h.slots]; exact htwo
  rw [if_neg (by show ¬ (missing r.slots = 0 ∧ _); omega),
    if_neg (by show ¬ missing r.slots = 1; omega)]

theorem filterMap_ne_nil_iff {slots : List (Option FecPacket)} :
    slots.filterMap id = [] ↔ missing slots = slots.length := by
  rw [List.filterMap_eq_nil_iff, missing, List.countP_eq_length]
  simp

/-- The output due for the data packets `ds` of a group. -/
def Due (ds : List FecPacket) (mask : List Bool) (parityArrived : Bool) (o : List FecPacket) :
    Prop :=
  let gone := missing (marks mask ds)
  if gone = 0 ∨ (gone = 1 ∧ parityArrived = true) then o.map content = ds.map content
  else o = survivors mask ds

/-- How many packets of it are rebuilt, and how many counted as lost. -/
def dueRebuilt (gone : Nat) (parityArrived : Bool) : Nat :=
  if gone = 1 ∧ parityArrived = true then 1 else 0

def dueLost (n : GroupSize) (gone : Nat) (parityArrived : Bool) : Nat :=
  if (gone = 1 ∧ parityArrived = true) ∨ gone = n.val.toNat then 0 else gone

/-- The parity comes last, if it comes. -/
def ParityStep (b : Build) (r : FecReceiver) (q : FecPacket) (arrives : Bool) (r' : FecReceiver)
    (o : List FecPacket) : Prop :=
  if arrives then r.feed b q = .ok (r', o) else r' = r ∧ o = []

/-- A group of which no data packet arrived: its parity is a stray. -/
theorem groupDone_untouched (hg : GroupSent base n ds q) (hr : Ready r₀ base)
    (hlen : (marks mask ds).length = n.val.toNat) (arrives : Bool)
    (hnone : (marks mask ds).filterMap id = []) :
    ParityStep b r₀ q arrives r₀ [] ∧ Due ds mask arrives [] ∧
      GroupDone r₀ r₀ base [] [] (dueRebuilt (missing (marks mask ds)) arrives)
        (dueLost n (missing (marks mask ds)) arrives) := by
  have hbounds := FecEncoder.groupSize_bounds n
  have hall := filterMap_ne_nil_iff.mp hnone
  rw [hlen] at hall
  refine ⟨?_, ?_, by simp, ?_, ?_, hr.idle, fun x hx => .inr hx⟩
  · cases arrives with
    | false => exact ⟨rfl, rfl⟩
    | true => exact feed_stray hg.parity (by rw [hg.base]; exact hr.notCurrent)
  · rw [Due, if_neg (by omega)]
    exact hnone.symm
  · rw [dueRebuilt, if_neg (by omega), Nat.add_zero]
  · rw [dueLost, if_pos (.inr hall), Nat.add_zero]

/-- A group of which every data packet arrived: its parity comes after it was
emitted, and is a stray too. -/
theorem groupDone_emitted (hg : GroupSent base n ds q) (hmask : mask.length = ds.length)
    (arrives : Bool) (h : Opened r₀ r base (marks mask ds)) (hm : missing (marks mask ds) = 0) :
    ParityStep b r.closed q arrives r.closed [] ∧ Due ds mask arrives ds ∧
      GroupDone r₀ r.closed base (r₀.held ++ (marks mask ds).filterMap id) ds
        (dueRebuilt (missing (marks mask ds)) arrives)
        (dueLost n (missing (marks mask ds)) arrives) := by
  have hall : (marks mask ds).filterMap id = ds := survivors_of_missing_zero hmask hm
  refine ⟨?_, ?_, ?_, ?_, ?_, fun _ => rfl, ?_⟩
  · cases arrives with
    | false => exact ⟨rfl, rfl⟩
    | true => exact feed_stray hg.parity (by simp [FecReceiver.closed])
  · rw [Due, if_pos (.inl hm)]
  · rw [hall]
    simp [FecReceiver.held, FecReceiver.closed]
  · rw [dueRebuilt, if_neg (by omega)]
    exact h.recovered
  · rw [dueLost, hm, ite_self]
    exact h.lost
  · intro x hx
    rcases hx with hx | hx
    · cases hx
    · refine .inl (Option.some.inj ?_)
      rw [← h.base]
      exact hx.symm

/-- A group that lacks one packet and has its parity is rebuilt. -/
theorem groupDone_rebuilt (hg : GroupSent base n ds q) (hmask : mask.length = ds.length)
    (hroom : r₀.recovered + 1 < 2 ^ 64) (h : Opened r₀ r base (marks mask ds))
    (hone : missing (marks mask ds) = 1) (hfit : b = .debug → GapsFit mask ds) :
    ∃ r' o, ParityStep b r q true r' o ∧ Due ds mask true o ∧
      GroupDone r₀ r' base (r₀.held ++ o) o (dueRebuilt (missing (marks mask ds)) true)
        (dueLost n (missing (marks mask ds)) true) := by
  obtain ⟨⟨r', o⟩, hfeed⟩ := (h.rebuild_returns hg hmask hone hroom).mpr hfit
  obtain ⟨hcontent, hrec, hlost, hnil, hnone, hprev⟩ := h.rebuild hg hmask hone hroom hfeed
  refine ⟨r', o, hfeed, ?_, by simp [FecReceiver.held, hnil], ?_, ?_, fun _ => hnil, ?_⟩
  · rw [Due, if_pos (.inr ⟨hone, rfl⟩)]
    exact hcontent
  · rw [dueRebuilt, if_pos ⟨hone, rfl⟩, hrec]
  · rw [dueLost, if_pos (.inl ⟨hone, rfl⟩), hnil, hlost, h.lost]
    rfl
  · intro x hx
    rw [hnone, hprev] at hx
    rcases hx with hx | hx
    · cases hx
    · exact .inl (Option.some.inj hx).symm

/-- A group that lacks more, or lacks its parity, waits to be flushed. -/
theorem groupDone_waiting (hg : GroupSent base n ds q) {arrives : Bool}
    (h : Opened r₀ r base (marks mask ds)) (hm : missing (marks mask ds) ≠ 0)
    (hsome : missing (marks mask ds) ≠ n.val.toNat)
    (hone : ¬ (missing (marks mask ds) = 1 ∧ arrives = true)) :
    ∃ r', ParityStep b r q arrives r' [] ∧ Due ds mask arrives (survivors mask ds) ∧
      GroupDone r₀ r' base r₀.held (survivors mask ds)
        (dueRebuilt (missing (marks mask ds)) arrives)
        (dueLost n (missing (marks mask ds)) arrives) := by
  have hdue : Due ds mask arrives (survivors mask ds) := by
    rw [Due, if_neg (not_or.mpr ⟨hm, hone⟩)]
  have hdone : ∀ parity, GroupDone r₀ { r with parity } base r₀.held (survivors mask ds)
      (dueRebuilt (missing (marks mask ds)) arrives)
      (dueLost n (missing (marks mask ds)) arrives) := by
    intro parity
    refine ⟨?_, ?_, ?_, ?_, ?_⟩
    · have hheld : r.held = survivors mask ds := by
        rw [FecReceiver.held, h.slots]
        rfl
      exact congrArg (r₀.held ++ ·) hheld
    · rw [dueRebuilt, if_neg hone]
      exact h.recovered
    · show r.lost + missing r.slots = _
      rw [dueLost, if_neg (not_or.mpr ⟨hone, hsome⟩), h.lost, h.slots]
    · intro hnone
      cases h.base.symm.trans hnone
    · rintro x (hx | hx)
      · exact .inl (Option.some.inj (hx.symm.trans h.base))
      · exact .inr (h.prev x hx)
  cases arrives with
  | false => exact ⟨r, ⟨rfl, rfl⟩, hdue, hdone r.parity⟩
  | true =>
    have htwo : 2 ≤ missing (marks mask ds) := by
      simp only [and_true] at hone
      omega
    exact ⟨_, h.keepParity hg htwo, hdue, hdone _⟩

/-- The data packets of a group have come by; the parity closes it. -/
theorem groupDone_of_mid {r₁ : FecReceiver} {o₁ : List FecPacket} (hg : GroupSent base n ds q)
    (hr : Ready r₀ base) (hroom : r₀.recovered + 1 < 2 ^ 64) (hmask : mask.length = ds.length)
    (hlen : (marks mask ds).length = n.val.toNat) (arrives : Bool)
    (hfit : b = .debug → missing (marks mask ds) = 1 ∧ arrives = true → GapsFit mask ds)
    (hmid : Mid r₀ base n.val.toNat (marks mask ds) r₁ o₁) :
    ∃ r o₂ o, ParityStep b r₁ q arrives r o₂ ∧ Due ds mask arrives o ∧
      GroupDone r₀ r base (o₁ ++ o₂) o (dueRebuilt (missing (marks mask ds)) arrives)
        (dueLost n (missing (marks mask ds)) arrives) := by
  cases hmid with
  | untouched hnone => exact ⟨_, [], [], groupDone_untouched hg hr hlen arrives hnone⟩
  | emitted h hm hfull =>
    have hdone := groupDone_emitted (b := b) hg hmask arrives h hm
    rw [← List.append_nil (r₀.held ++ _)] at hdone
    exact ⟨_, [], ds, hdone⟩
  | opened hsome h hm =>
    have hrep : marks mask ds ++ List.replicate (n.val.toNat - (marks mask ds).length) none
        = marks mask ds := by
      rw [hlen]
      simp
    rw [hrep] at h
    rw [h.slots] at hm
    have hnot : missing (marks mask ds) ≠ n.val.toNat := by
      rw [← hlen]
      exact fun he => hsome (filterMap_ne_nil_iff.mpr he)
    by_cases hone : missing (marks mask ds) = 1 ∧ arrives = true
    · obtain ⟨hgone, rfl⟩ := hone
      obtain ⟨r', o, hdone⟩ :=
        groupDone_rebuilt hg hmask hroom h hgone fun hb => hfit hb ⟨hgone, rfl⟩
      exact ⟨r', o, o, hdone⟩
    · obtain ⟨r', hdone⟩ := groupDone_waiting hg h hm hnot hone
      refine ⟨r', [], survivors mask ds, ?_⟩
      rw [List.append_nil]
      exact hdone

/-- The data packets that arrive, then the parity if it does. -/
theorem packets_group (hmask : mask.length = ds.length) (arrives : Bool) :
    packets (survivors (mask ++ [arrives]) (ds ++ [q])) =
      packets ((marks mask ds).filterMap id) ++ if arrives then [.packet q] else [] := by
  rw [survivors, marks_snoc hmask, List.filterMap_append]
  cases arrives <;> simp [packets]

/-- The receiver after the data packets of a group that arrive. -/
theorem mid_group (b : Build) (hg : GroupSent base n ds q) (hr : Ready r₀ base)
    (hmask : mask.length = ds.length) :
    ∃ r o, run (FecReceiver.step b) r₀ (packets ((marks mask ds).filterMap id)) = .ok (r, o) ∧
      Mid r₀ base n.val.toNat (marks mask ds) r o := by
  have hlen : ds.length = n.val.toNat := by rw [hg.covers.length, hg.size]
  have hml : (marks mask ds).length = n.val.toNat := by rw [length_marks hmask, hlen]
  have hstart : Mid r₀ base n.val.toNat [] r₀ [] := .untouched rfl
  obtain ⟨r, o, hrun, hmid⟩ := Mid.marks hr (marks mask ds) [] r₀ [] hstart (by simpa using hml)
    fun i p hi => by simpa using hg.placedAt (getElem?_marks hi)
  exact ⟨r, o, hrun, by simpa using hmid⟩

/-- **One group**, with any of its packets missing. -/
theorem groupDone (hg : GroupSent base n ds q) (hr : Ready r₀ base)
    (hroom : r₀.recovered + 1 < 2 ^ 64) (hmask : mask.length = ds.length) (arrives : Bool)
    (hfit : b = .debug → missing (marks mask ds) = 1 ∧ arrives = true → GapsFit mask ds) :
    ∃ r out o, run (FecReceiver.step b) r₀
        (packets (survivors (mask ++ [arrives]) (ds ++ [q]))) = .ok (r, out) ∧
      Due ds mask arrives o ∧
      GroupDone r₀ r base out o (dueRebuilt (missing (marks mask ds)) arrives)
        (dueLost n (missing (marks mask ds)) arrives) := by
  have hml : (marks mask ds).length = n.val.toNat := by
    rw [length_marks hmask, hg.covers.length, hg.size]
  obtain ⟨r₁, o₁, hrun, hmid⟩ := mid_group b hg hr hmask
  obtain ⟨r, o₂, o, hparity, hdue, hdone⟩ :=
    groupDone_of_mid hg hr hroom hmask hml arrives hfit hmid
  refine ⟨r, o₁ ++ o₂, o, ?_, hdue, hdone⟩
  rw [packets_group hmask]
  refine run_append_ok hrun ?_
  cases arrives with
  | false =>
    obtain ⟨rfl, rfl⟩ := hparity
    rfl
  | true => exact run_single hparity

/-- With overflow checks a group that is rebuilt has timestamps that extrapolate. -/
theorem gapsFit_of_group (hg : GroupSent base n ds q) (hr : Ready r₀ base)
    (hroom : r₀.recovered + 1 < 2 ^ 64) (hmask : mask.length = ds.length)
    (hone : missing (marks mask ds) = 1) {x : FecReceiver × List FecPacket}
    (hrun : run (FecReceiver.step .debug) r₀ (packets (survivors (mask ++ [true]) (ds ++ [q])))
      = .ok x) : GapsFit mask ds := by
  have hbounds := FecEncoder.groupSize_bounds n
  have hml : (marks mask ds).length = n.val.toNat := by
    rw [length_marks hmask, hg.covers.length, hg.size]
  obtain ⟨r, o, hdata, hmid⟩ := mid_group .debug hg hr hmask
  rw [packets_group hmask, run_append, bind_of_ok _ hdata, if_pos rfl, run_singleton] at hrun
  have hfeed : ∃ y, r.feed .debug q = .ok y := by
    cases hf : r.feed .debug q with
    | error e => simp [FecReceiver.step, hf, Except.map] at hrun
    | ok y => exact ⟨y, rfl⟩
  cases hmid with
  | untouched hnone =>
    have := filterMap_ne_nil_iff.mp hnone
    omega
  | emitted h hm hfull => omega
  | opened hsome h hm =>
    rw [hml, Nat.sub_self, List.replicate_zero, List.append_nil] at h
    exact (h.rebuild_returns hg hmask hone hroom).mp hfeed rfl

end Group

/-! ## Whole streams -/

/-- The receiver between two groups, when `sent` packets have been sent from
`start` on: the groups it knows are among those. -/
structure Between (start : UInt16) (sent : Nat) (r : FecReceiver) : Prop where
  idle : r.baseSeq = none → r.slots = []
  past : ∀ x, r.baseSeq = some x ∨ r.prevBaseSeq = some x →
    ∃ i, i < sent ∧ x = start + UInt16.ofNat i

/-- The next sequence is not the base of a group the receiver knows. -/
theorem Between.ne_next {start : UInt16} {sent : Nat} {r : FecReceiver} (h : Between start sent r)
    (hsent : sent < 65536) {x : UInt16} (hx : r.baseSeq = some x ∨ r.prevBaseSeq = some x) :
    x ≠ start + UInt16.ofNat sent := by
  rintro rfl
  obtain ⟨i, hi, heq⟩ := h.past _ hx
  have := ofNat_inj hsent (by omega) (show UInt16.ofNat sent = UInt16.ofNat i by grind)
  omega

theorem Between.ready {start : UInt16} {sent : Nat} {r : FecReceiver} (h : Between start sent r)
    (hsent : sent < 65536) (hroom : r.lost + missing r.slots < 2 ^ 64) :
    Ready r (start + UInt16.ofNat sent) :=
  ⟨h.idle, fun hb => h.ne_next hsent (.inl hb) rfl, fun hp => h.ne_next hsent (.inr hp) rfl, hroom⟩

theorem GroupDone.between {start : UInt16} {sent more rebuilt lost : Nat} {r r' : FecReceiver}
    {out o : List FecPacket}
    (hd : GroupDone r r' (start + UInt16.ofNat sent) out o rebuilt lost)
    (h : Between start sent r) (hmore : 0 < more) : Between start (sent + more) r' := by
  refine ⟨hd.idle, ?_⟩
  intro x hx
  rcases hd.bases x hx with rfl | hx
  · exact ⟨sent, by omega, rfl⟩
  · obtain ⟨i, hi, heq⟩ := h.past x hx
    exact ⟨i, by omega, heq⟩

/-- The sender and the receiver between two groups, with `left` groups to come. The
counters have room because a group adds at most one to `recovered` and sixteen to `lost`. -/
structure Ongoing (n : GroupSize) (start : UInt16) (left : Nat) (sent : Nat) (z : Zone)
    (r : FecReceiver) : Prop where
  encoder : ∃ enc, z.fecEncoder = some enc ∧ enc.Holds [] ∧ enc.groupSize = n
  sequence : z.sequence = start + UInt16.ofNat sent
  between : Between start sent r
  short : sent + left * (n.val.toNat + 1) < 65536
  recovered : r.recovered + left < 2 ^ 64
  lost : r.lost + missing r.slots + left * 16 < 2 ^ 64

section Ongoing

variable {b : Build} {n : GroupSize} {start : UInt16} {left sent : Nat} {z : Zone}
  {r : FecReceiver}

/-- The next group as the zone sends it. -/
theorem Ongoing.sends (h : Ongoing n start (left + 1) sent z r) (g : Damaged n) :
    ∃ ds q enc, z.runOps g.ops =
        (⟨start + UInt16.ofNat (sent + (n.val.toNat + 1)), some enc⟩, ds ++ [q]) ∧
      enc.Holds [] ∧ enc.groupSize = n ∧
      GroupSent (start + UInt16.ofNat sent) n ds q ∧ g.arrived.length = ds.length := by
  obtain ⟨enc, henc, hh, hn⟩ := h.encoder
  have hbounds := FecEncoder.groupSize_bounds n
  obtain ⟨ds, q, enc', hops, hh', hn', hg⟩ := runOps_group g.calls z enc [] henc hh hn
    (fun hnil => by have := g.length_calls; rw [hnil] at this; simp at this; omega)
    (by simpa using g.length_calls) g.audio (by simp) ⟨by simp, by simp⟩
  have hbase : z.sequence - UInt16.ofNat ([] : List FecPacket).length
      = start + UInt16.ofNat sent := by rw [← h.sequence]; simp
  have hnext : z.sequence + UInt16.ofNat (g.calls.length + 1)
      = start + UInt16.ofNat (sent + (n.val.toNat + 1)) := by
    rw [h.sequence, g.length_calls, UInt16.ofNat_add sent, UInt16.add_assoc]
  rw [List.nil_append, hbase] at hg
  rw [hnext] at hops
  exact ⟨ds, q, enc', hops, hh', hn', hg, by rw [g.length_arrived, hg.covers.length, hg.size]⟩

theorem Ongoing.ready (h : Ongoing n start (left + 1) sent z r) :
    Ready r (start + UInt16.ofNat sent) := by
  have hshort := h.short
  have hlost := h.lost
  exact h.between.ready (by omega) (by omega)

theorem Damaged.lost_le (g : Damaged n) : g.lost ≤ 16 := by
  have hbounds := FecEncoder.groupSize_bounds n
  have hcount : g.dropped ≤ n.val.toNat := by
    rw [← g.length_arrived]; exact List.count_le_length
  unfold Damaged.lost
  split <;> omega

/-- **One group more.** -/
theorem Ongoing.group (h : Ongoing n start (left + 1) sent z r) (g : Damaged n)
    (hfit : b = .debug → g.Rebuilt → GapsFit g.arrived (dataOnly (z.emitted g.ops))) :
    ∃ r' out o, run (FecReceiver.step b) r
        (packets (survivors (g.arrived ++ [g.parityArrived]) (z.emitted g.ops))) = .ok (r', out) ∧
      out ++ r'.held = r.held ++ o ∧ Delivered z g o ∧
      r'.recovered = r.recovered + (if g.Rebuilt then 1 else 0) ∧
      r'.lost + missing r'.slots = r.lost + missing r.slots + g.lost ∧
      Ongoing n start left (sent + (n.val.toNat + 1)) (z.runOps g.ops).1 r' := by
  obtain ⟨ds, q, enc, hops, hh, hn, hg, hmask⟩ := h.sends g
  have hemitted : z.emitted g.ops = ds ++ [q] := by rw [Zone.emitted, hops]
  have hshort := h.short
  have hrec := h.recovered
  have hlost := h.lost
  rw [Nat.succ_mul] at hshort hlost
  rw [hemitted, dataOnly_group hg] at hfit
  rw [hemitted]
  obtain ⟨r', out, o, hrun, hdue, hdone⟩ :=
    groupDone hg h.ready (by omega) hmask g.parityArrived (by rw [missing_marks hmask]; exact hfit)
  rw [missing_marks hmask] at hdone
  have hrec' : r'.recovered = r.recovered + if g.Rebuilt then 1 else 0 := hdone.recovered
  have hlost' : r'.lost + missing r'.slots = r.lost + missing r.slots + g.lost := hdone.lost
  have hone : (if g.Rebuilt then 1 else 0) ≤ 1 := by split <;> omega
  have hle := g.lost_le
  refine ⟨r', out, o, hrun, hdone.output, ?_, hrec', hlost', ?_⟩
  · rw [Delivered, hemitted, dataOnly_group hg]
    rw [Due, missing_marks hmask] at hdue
    exact hdue
  · rw [hops]
    exact ⟨⟨enc, rfl, hh, hn⟩, rfl, hdone.between h.between (by omega), by omega, by omega,
      by omega⟩

/-- With overflow checks a group that is rebuilt has timestamps that extrapolate. -/
theorem Ongoing.gapsFit (h : Ongoing n start (left + 1) sent z r) (g : Damaged n)
    {x : FecReceiver × List FecPacket}
    (hrun : run (FecReceiver.step .debug) r
      (packets (survivors (g.arrived ++ [g.parityArrived]) (z.emitted g.ops))) = .ok x)
    (hrebuilt : g.Rebuilt) : GapsFit g.arrived (dataOnly (z.emitted g.ops)) := by
  obtain ⟨ds, q, enc, hops, -, -, hg, hmask⟩ := h.sends g
  have hemitted : z.emitted g.ops = ds ++ [q] := by rw [Zone.emitted, hops]
  have hrec := h.recovered
  rw [hemitted, hrebuilt.2] at hrun
  rw [hemitted, dataOnly_group hg]
  exact gapsFit_of_group hg h.ready (by omega) hmask
    (by rw [missing_marks hmask]; exact hrebuilt.1) hrun

end Ongoing

/-- **All groups**, after any first ones. -/
theorem lossy_groups {b : Build} {n : GroupSize} {start : UInt16} :
    ∀ (groups : List (Damaged n)) (sent : Nat) (z : Zone) (r : FecReceiver),
      Ongoing n start groups.length sent z r → (b = .debug → GroupsExtrapolate z groups) →
      ∃ r' out os, run (FecReceiver.step b) r (packets (arrivals z groups)) = .ok (r', out) ∧
        out ++ r'.held = r.held ++ os ∧ DeliveredAll z groups os ∧
        (r'.baseSeq = none → r'.slots = []) ∧
        r'.recovered = r.recovered + groups.countP (fun g => decide g.Rebuilt) ∧
        r'.lost + missing r'.slots =
          r.lost + missing r.slots + (groups.map Damaged.lost).sum ∧
        r'.lost + missing r'.slots < 2 ^ 64
  | [], sent, z, r, h, _ =>
      ⟨r, [], [], rfl, by simp, rfl, h.between.idle, by simp, by simp, h.lost⟩
  | g :: groups, sent, z, r, h, hfit => by
      obtain ⟨r₁, o₁, o, hrun₁, hout₁, hdel₁, hrec₁, hlost₁, h₁⟩ :=
        h.group g fun hb => (hfit hb).1
      obtain ⟨r₂, o₂, os, hrun₂, hout, hdel, hidle, hrec₂, hlost₂, hroom₂⟩ :=
        lossy_groups groups _ _ r₁ h₁ fun hb => (hfit hb).2
      refine ⟨r₂, o₁ ++ o₂, o ++ os, ?_, ?_, ⟨o, os, rfl, hdel₁, hdel⟩, hidle, ?_, ?_, hroom₂⟩
      · rw [arrivals, packets, List.map_append]
        exact run_append_ok hrun₁ hrun₂
      · rw [List.append_assoc, hout, ← List.append_assoc, hout₁, List.append_assoc]
      · rw [hrec₂, hrec₁, List.countP_cons]
        simp only [decide_eq_true_eq]
        omega
      · rw [hlost₂, hlost₁, List.map_cons, List.sum_cons]
        omega

/-- With overflow checks the groups are received only if all of them extrapolate. -/
theorem groupsExtrapolate_of_run {n : GroupSize} {start : UInt16} :
    ∀ (groups : List (Damaged n)) (sent : Nat) (z : Zone) (r : FecReceiver)
      (x : FecReceiver × List FecPacket), Ongoing n start groups.length sent z r →
      run (FecReceiver.step .debug) r (packets (arrivals z groups)) = .ok x →
      GroupsExtrapolate z groups
  | [], _, _, _, _, _, _ => trivial
  | g :: groups, sent, z, r, x, h, hrun => by
      rw [arrivals, packets, List.map_append] at hrun
      obtain ⟨s, o, os, hfirst, hrest, -⟩ := run_append_inv hrun
      have hfit := h.gapsFit g hfirst
      obtain ⟨r₁, o₁, -, hrun₁, -, -, -, -, h₁⟩ := h.group (b := .debug) g fun _ => hfit
      obtain ⟨rfl, -⟩ : s = r₁ ∧ o = o₁ := by simpa using hfirst.symm.trans hrun₁
      exact ⟨hfit, groupsExtrapolate_of_run groups _ _ s _ h₁ hrest⟩

/-- What the receiver is to make of the groups that `z` sends: it returns, delivers what is
due, and counts what it rebuilt and what it lost. -/
def ChannelKept (b : Build) {n : GroupSize} (z : Zone) (groups : List (Damaged n)) : Prop :=
  ∃ r out, run (FecReceiver.step b) .new (packets (arrivals z groups) ++ [.flush]) =
      .ok (r, out) ∧
    DeliveredAll z groups out ∧
    r.recovered = groups.countP (fun g => decide g.Rebuilt) ∧
    r.lost = (groups.map Damaged.lost).sum

/-- **FEC on a lossy in-order channel.** For every group size, starting
sequence and list of whole groups of fewer than 65536 packets in total, and
for every choice of the packets that arrive, feeding them in sending order to
a new receiver and flushing it delivers, group after group, all data packets
of a group that lacks none, or lacks one and has its parity, and otherwise
exactly those that arrived: always without overflow checks, and with them
exactly when the timestamps of every group to rebuild extrapolate within `i64`. -/
theorem lossy_in_order_channel_iff (b : Build) (n : GroupSize) (start : UInt16)
    (groups : List (Damaged n)) (hlen : groups.length * (n.val.toNat + 1) < 65536) :
    let z : Zone := ⟨start, some (FecEncoder.new n)⟩
    ChannelKept b z groups ↔ (b = .debug → GroupsExtrapolate z groups) := by
  intro z
  have hsmall : groups.length < 65536 := by
    have hle : groups.length ≤ groups.length * (n.val.toNat + 1) :=
      Nat.le_mul_of_pos_right _ (Nat.succ_pos _)
    omega
  have hfresh : Between start 0 .new :=
    ⟨fun _ => rfl, fun x hx => by simp [FecReceiver.new] at hx⟩
  have hstart : Ongoing n start groups.length 0 z .new :=
    ⟨⟨_, rfl, FecEncoder.holds_new n, rfl⟩, by simp [z], hfresh, by omega,
      by simp [FecReceiver.new]; omega, by simp [FecReceiver.new, missing]; omega⟩
  constructor
  · rintro ⟨r, out, hrun, -⟩ rfl
    obtain ⟨s, o, os, hfirst, -⟩ := run_append_inv hrun
    exact groupsExtrapolate_of_run groups 0 z .new _ hstart hfirst
  · intro hfit
    obtain ⟨r, out, os, hrun, hout, hdel, hidle, hrec, hlost, hroom⟩ :=
      lossy_groups groups 0 z .new hstart hfit
    obtain ⟨r', hflush, hrec', hlost', -⟩ := flush_held (b := b) hidle hroom
    refine ⟨r', out ++ r.held, run_append_ok hrun (run_single hflush), ?_, ?_, ?_⟩
    · rw [hout]
      exact hdel
    · rw [hrec', hrec]
      simp [FecReceiver.new]
    · rw [hlost', hlost]
      simp [FecReceiver.new, missing]

/-- The pair of packets of `pairOps`, damaged. -/
def damagedPair (arrived : Bool × Bool) (parityArrived : Bool) : Damaged pairSize where
  calls := [audio 1000 [1, 2, 3], audio 2000 [4, 5]]
  arrived := [arrived.1, arrived.2]
  parityArrived
  length_calls := rfl
  length_arrived := rfl
  audio _ ha := opOk_pairOps _ (List.mem_map_of_mem (f := Zone.Op.sendAudioAll) ha)

/-- A group rebuilt across the wrap of the sequence, one beyond repair and one
never seen. -/
def damagedPairs : List (Damaged pairSize) :=
  [damagedPair (true, false) true, damagedPair (false, true) false, damagedPair (false, false) true]

theorem lossy_in_order_channel_pairs :
    ChannelKept .debug ⟨65535, some (FecEncoder.new pairSize)⟩ damagedPairs :=
  (lossy_in_order_channel_iff .debug pairSize 65535 damagedPairs (by decide)).mpr fun _ =>
    -- one packet of the first group arrives, so nothing is extrapolated
    ⟨fun _ _ _ => trivial, fun h => absurd h (by decide), fun h => absurd h (by decide), trivial⟩

def threeSize : GroupSize := ⟨3, by decide⟩

/-- A group of three with its first two packets at the two ends of `i64`. The third is lost. -/
def farGroup : Damaged threeSize where
  calls := [audio (2 ^ 63) [], audio (2 ^ 63 - 1) [], audio 0 []]
  arrived := [true, true, false]
  parityArrived := true
  length_calls := rfl
  length_arrived := rfl
  audio a ha := by
    simp only [List.mem_cons, List.not_mem_nil, or_false] at ha
    rcases ha with rfl | rfl | rfl <;> exact ⟨by decide, by decide⟩

/-- With overflow checks its parity stops the receiver. -/
theorem far_group_stops :
    let z : Zone := ⟨0, some (FecEncoder.new threeSize)⟩
    run (FecReceiver.step .debug) .new (packets (arrivals z [farGroup]) ++ [.flush]) =
        .error .overflow ∧
      ¬ ChannelKept .debug z [farGroup] := by
  intro z
  have hrun : run (FecReceiver.step .debug) .new (packets (arrivals z [farGroup]) ++ [.flush]) =
      .error .overflow := by decide +kernel
  refine ⟨hrun, ?_⟩
  rintro ⟨r, out, hok, -⟩
  rw [hrun] at hok
  cases hok

end Oaat.Fec
