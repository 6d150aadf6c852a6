/-
Oaat.Core.FecTheorems — what one call of the FEC encoder and of the FEC
receiver does.

Everything proved about whole streams elsewhere goes through the lemmas of
this module and never unfolds the code again:

* `FecEncoder.Holds` says which payloads an encoder has absorbed, and
  `feed_pending` / `feed_complete` are its two outcomes;
* `tryComplete_cases` and `feed_cases` list everything a receiver step that
  returned can have done; `tryComplete_release` and `feed_release` say when a
  release build returns;
* `rebuiltPayload_eq` is the erasure theorem at the receiver's own types.
-/
import Oaat.Core.Fec

namespace Oaat.Core

open Oaat.Lib

/-! ## The encoder -/

/-- The XOR of the 16-bit lengths of a list of payloads. -/
def lensXor (payloads : List (List UInt8)) : UInt16 :=
  (payloads.map fun p => UInt16.ofNat p.length).foldl (· ^^^ ·) 0

/-- The parity payload of a list of payloads. -/
abbrev xorParity (payloads : List (List UInt8)) : List UInt8 := parityOf (· ^^^ ·) 0 payloads

theorem lensXor_append (l : List (List UInt8)) (p : List UInt8) :
    lensXor (l ++ [p]) = lensXor l ^^^ UInt16.ofNat p.length := by
  simp [lensXor]

theorem xorParity_append (l : List (List UInt8)) (p : List UInt8) :
    xorParity (l ++ [p]) = absorb (· ^^^ ·) 0 (xorParity l) p := by
  simp [parityOf]

namespace FecEncoder

theorem mix_eq_absorb (parity payload : List UInt8) :
    mix parity payload = absorb (· ^^^ ·) 0 parity payload := by
  unfold mix absorb
  by_cases h : payload.length > parity.length
  · simp [h]
  · have hpad : padTo (0 : UInt8) payload.length parity = parity := by
      simp [padTo, Nat.sub_eq_zero_of_le (Nat.le_of_not_lt h)]
    simp [h, hpad]

/-- The encoder has absorbed exactly `payloads` into its current group. -/
structure Holds (enc : FecEncoder) (payloads : List (List UInt8)) : Prop where
  count : enc.count.toNat = payloads.length
  lt : payloads.length < enc.groupSize.val.toNat
  parity : payloads ≠ [] → enc.parity = xorParity payloads
  lenXor : payloads ≠ [] → enc.lenXor = lensXor payloads

theorem groupSize_bounds (n : GroupSize) : 2 ≤ n.val.toNat ∧ n.val.toNat ≤ 16 := n.property

theorem holds_new (n : GroupSize) : (new n).Holds [] where
  count := rfl
  lt := by have := groupSize_bounds n; simp [new]; omega
  parity h := absurd rfl h
  lenXor h := absurd rfl h

/-- The accumulators after one more payload, whether or not the group began. -/
theorem mix_next {enc : FecEncoder} {l : List (List UInt8)} (h : enc.Holds l) (p : List UInt8) :
    let enc' := if enc.count = 0 then
        { enc with parity := List.replicate p.length 0, lenXor := 0 } else enc
    mix enc'.parity p = xorParity (l ++ [p]) ∧
      enc'.lenXor ^^^ UInt16.ofNat p.length = lensXor (l ++ [p]) ∧
      enc'.count = enc.count ∧ enc'.groupSize = enc.groupSize := by
  by_cases hc : enc.count = 0
  · have hl : l = [] := by
      have := h.count
      rw [hc] at this
      exact List.eq_nil_of_length_eq_zero this.symm
    subst hl
    have habs : absorb (· ^^^ ·) 0 (List.replicate p.length (0 : UInt8)) p
        = absorb (· ^^^ ·) 0 [] p := by
      simp [absorb, padTo]
    simp only [hc, if_true, mix_eq_absorb, habs, and_true]
    exact ⟨rfl, rfl⟩
  · have hl : l ≠ [] := by
      rintro rfl
      exact hc (UInt8.toNat_inj.mp h.count)
    simp only [hc, if_false, mix_eq_absorb, xorParity_append, lensXor_append, h.parity hl,
      h.lenXor hl, and_self]

/-- Before the group is full a payload is only absorbed. -/
theorem feed_pending {enc : FecEncoder} {l : List (List UInt8)} (h : enc.Holds l) (p : List UInt8)
    (hlt : l.length + 1 < enc.groupSize.val.toNat) :
    ∃ enc', enc.feed p = (enc', none) ∧ enc'.Holds (l ++ [p]) ∧
      enc'.groupSize = enc.groupSize := by
  obtain ⟨hp, hx, hcount, hsize⟩ := mix_next h p
  have hn := (groupSize_bounds enc.groupSize).2
  have hnext : (enc.count + 1).toNat = l.length + 1 := by
    rw [UInt8.toNat_add, h.count]; simp; omega
  have hge : ¬ enc.count + 1 ≥ enc.groupSize.val := by
    rw [ge_iff_le, UInt8.le_iff_toNat_le, hnext]; omega
  simp only [feed, hp, hx, hcount, hsize, hge, if_false]
  refine ⟨_, rfl, ⟨?_, ?_, fun _ => rfl, fun _ => rfl⟩, rfl⟩
  · simpa using hnext
  · simpa using hlt

/-- The payload that fills the group releases the parity of the whole group. -/
theorem feed_complete {enc : FecEncoder} {l : List (List UInt8)} (h : enc.Holds l)
    (p : List UInt8) (heq : l.length + 1 = enc.groupSize.val.toNat) :
    ∃ enc', enc.feed p = (enc', some ⟨xorParity (l ++ [p]), lensXor (l ++ [p])⟩) ∧
      enc'.Holds [] ∧ enc'.groupSize = enc.groupSize := by
  obtain ⟨hp, hx, hcount, hsize⟩ := mix_next h p
  have hn := groupSize_bounds enc.groupSize
  have hnext : (enc.count + 1).toNat = l.length + 1 := by
    rw [UInt8.toNat_add, h.count]; simp; omega
  have hge : enc.count + 1 ≥ enc.groupSize.val := by
    rw [ge_iff_le, UInt8.le_iff_toNat_le, hnext]; omega
  simp only [feed, hp, hx, hcount, hsize, hge, if_true]
  refine ⟨_, rfl, ⟨rfl, ?_, fun h => absurd rfl h, fun h => absurd rfl h⟩, rfl⟩
  simp only [List.length_nil]
  omega

end FecEncoder

/-! ## Slots -/

namespace FecReceiver

/-- A slot vector whose only empty slot lies between `pre` and `post`. -/
def oneGap (pre post : List FecPacket) : List (Option FecPacket) :=
  pre.map some ++ none :: post.map some

theorem missing_eq_zero {slots : List (Option FecPacket)} (h : missing slots = 0) :
    slots = (slots.filterMap id).map some := by
  induction slots with
  | nil => rfl
  | cons s slots ih =>
    cases s with
    | none => simp [missing] at h
    | some p =>
      have htail : missing slots = 0 := by simpa [missing] using h
      simpa using ih htail

theorem missing_eq_one {slots : List (Option FecPacket)} (h : missing slots = 1) :
    ∃ pre post, slots = oneGap pre post := by
  induction slots with
  | nil => simp [missing] at h
  | cons s slots ih =>
    cases s with
    | none =>
      have htail : missing slots = 0 := by simpa [missing] using h
      exact ⟨[], slots.filterMap id, by
        rw [oneGap, ← missing_eq_zero htail]; rfl⟩
    | some p =>
      obtain ⟨pre, post, rfl⟩ := ih (by simpa [missing] using h)
      exact ⟨p :: pre, post, rfl⟩

@[simp] theorem filterMap_map_some (l : List FecPacket) : (l.map some).filterMap id = l := by
  simp

@[simp] theorem missing_map_some (l : List FecPacket) : missing (l.map some) = 0 := by
  simp [missing]

@[simp] theorem missing_oneGap (pre post : List FecPacket) : missing (oneGap pre post) = 1 := by
  have h := missing_map_some
  simp only [missing] at h ⊢
  simp [oneGap, List.countP_append, -List.countP_map, h]

theorem missing_append (l m : List (Option FecPacket)) :
    missing (l ++ m) = missing l + missing m := List.countP_append

@[simp] theorem missing_replicate_none (k : Nat) :
    missing (List.replicate k (none : Option FecPacket)) = k := by
  simp [missing, List.countP_replicate]

@[simp] theorem length_oneGap (pre post : List FecPacket) :
    (oneGap pre post).length = pre.length + 1 + post.length := by
  simp [oneGap]; omega

theorem filterMap_oneGap (pre post : List FecPacket) :
    (oneGap pre post).filterMap id = pre ++ post := by
  simp [oneGap, List.filterMap_append]

theorem findIdx?_oneGap (pre post : List FecPacket) :
    (oneGap pre post).findIdx? (·.isNone) = some pre.length := by
  induction pre with
  | nil => simp [oneGap, List.findIdx?_cons]
  | cons p pre ih =>
    have : oneGap (p :: pre) post = some p :: oneGap pre post := rfl
    simp [this, List.findIdx?_cons, ih]

theorem set_oneGap (pre post : List FecPacket) (p : FecPacket) :
    (oneGap pre post).set pre.length (some p) = (pre ++ p :: post).map some := by
  simp [oneGap]

/-- A list that agrees with slots of which none is empty is what they hold. -/
theorem eq_of_missing_zero {slots : List (Option FecPacket)} {ds : List FecPacket}
    (hlen : ds.length = slots.length)
    (h : ∀ (i : Nat) p, slots[i]? = some (some p) → ds[i]? = some p) (hm : missing slots = 0) :
    slots.filterMap id = ds := by
  have hall := missing_eq_zero hm
  refine List.ext_getElem? ?_
  intro i
  by_cases hi : i < (slots.filterMap id).length
  · have hslot : slots[i]? = some (some (slots.filterMap id)[i]) := by
      conv => lhs; rw [hall]
      rw [List.getElem?_map, List.getElem?_eq_getElem hi]
      rfl
    rw [List.getElem?_eq_getElem hi, h i _ hslot]
  · have hsame : slots.length = (slots.filterMap id).length := by
      conv => lhs; rw [hall]
      exact List.length_map ..
    rw [List.getElem?_eq_none (by omega), List.getElem?_eq_none (by omega)]

/-- A list that agrees with the filled slots around the gap is the slots with
the gap filled. -/
theorem eq_of_oneGap {ds pre post : List FecPacket}
    (hlen : ds.length = (oneGap pre post).length)
    (h : ∀ (i : Nat) p, (oneGap pre post)[i]? = some (some p) → ds[i]? = some p) :
    ∃ x, ds = pre ++ x :: post := by
  rw [length_oneGap] at hlen
  have hlt : pre.length < ds.length := by omega
  refine ⟨ds[pre.length], List.ext_getElem? ?_⟩
  intro i
  rcases Nat.lt_trichotomy i pre.length with hi | rfl | hi
  · rw [List.getElem?_append_left hi, List.getElem?_eq_getElem hi]
    refine h i _ ?_
    rw [oneGap, List.getElem?_append_left (by simpa using hi)]
    simp [List.getElem?_eq_getElem hi]
  · simp [List.getElem?_eq_getElem hlt]
  · obtain ⟨j, rfl⟩ : ∃ j, i = pre.length + 1 + j := ⟨i - (pre.length + 1), by omega⟩
    have hright : (pre ++ ds[pre.length] :: post)[pre.length + 1 + j]? = post[j]? := by
      rw [List.getElem?_append_right (by omega)]
      simp [Nat.add_assoc, Nat.add_comm 1 j]
    have hslot : (oneGap pre post)[pre.length + 1 + j]? = (post.map some)[j]? := by
      rw [oneGap, List.getElem?_append_right (by simp; omega)]
      simp [Nat.add_assoc, Nat.add_comm 1 j]
    rw [hright]
    by_cases hj : j < post.length
    · rw [List.getElem?_eq_getElem hj]
      exact h _ _ (by rw [hslot]; simp [List.getElem?_eq_getElem hj])
    · rw [List.getElem?_eq_none (by omega), List.getElem?_eq_none (by omega)]

/-- A filled slot around the gap holds what stands there when the gap is filled. -/
theorem getElem?_of_oneGap {pre post : List FecPacket} (x : FecPacket) {i : Nat} {p : FecPacket}
    (h : (oneGap pre post)[i]? = some (some p)) : (pre ++ x :: post)[i]? = some p := by
  have hfill : (oneGap pre post)[i]? = some (some p) →
      ((oneGap pre post).set pre.length (some x))[i]? = some (some p) := by
    intro hi
    have hne : pre.length ≠ i := by
      rintro rfl
      simp [oneGap] at hi
    rw [List.getElem?_set_ne hne, hi]
  have hset := hfill h
  rw [set_oneGap, List.getElem?_map, Option.map_eq_some_iff] at hset
  obtain ⟨y, hy, hyp⟩ := hset
  rw [hy, Option.some.inj hyp]

/-- The empty slot is where the gap is. -/
theorem eq_gap_of_none {pre post : List FecPacket} {i : Nat}
    (h : (oneGap pre post)[i]? = some none) : i = pre.length := by
  rcases Nat.lt_trichotomy i pre.length with hi | hi | hi
  · rw [oneGap, List.getElem?_append_left (by simpa using hi), List.getElem?_map] at h
    simp at h
  · exact hi
  · obtain ⟨j, rfl⟩ : ∃ j, i = pre.length + 1 + j := ⟨i - (pre.length + 1), by omega⟩
    rw [oneGap, List.getElem?_append_right (by simp; omega)] at h
    simp [Nat.add_assoc, Nat.add_comm 1 j] at h

theorem known_eq_nil {slots : List (Option FecPacket)} :
    known slots = [] ↔ slots.filterMap id = [] := by
  constructor
  · intro h
    rw [List.filterMap_eq_nil_iff]
    intro s hs
    obtain ⟨i, hi, rfl⟩ := List.mem_iff_getElem.mp hs
    have := List.filterMap_eq_nil_iff.mp h (slots[i], i)
      (List.mem_zipIdx_iff_getElem?.mpr (by simp))
    simpa using this
  · intro h
    rw [known, List.filterMap_eq_nil_iff]
    rintro ⟨s, i⟩ hs
    have hmem : s ∈ slots := List.fst_mem_of_mem_zipIdx hs
    have := List.filterMap_eq_nil_iff.mp h s hmem
    simp only [id_eq] at this
    simp [this]

/-! ## Rebuilding -/

/-- The rebuilt payload is the missing one, byte for byte and in length. -/
theorem rebuiltPayload_eq (pre post : List (List UInt8)) (x : List UInt8)
    (hx : x.length < 65536) :
    rebuiltPayload (pre ++ post) (lensXor (pre ++ x :: post)) (xorParity (pre ++ x :: post))
      = x := by
  have hlen : ((pre ++ post).map fun p => UInt16.ofNat p.length).foldl (· ^^^ ·)
      (lensXor (pre ++ x :: post)) = UInt16.ofNat x.length := by
    simpa [lensXor] using
      foldl_erase (fun a b : UInt16 => a ^^^ b) 0 (fun a => UInt16.xor_self)
        (pre.map fun p => UInt16.ofNat p.length) (post.map fun p => UInt16.ofNat p.length)
        (UInt16.ofNat x.length)
  have hnat : (UInt16.ofNat x.length).toNat = x.length := by
    simpa using Nat.mod_eq_of_lt hx
  rw [rebuiltPayload, hlen, hnat]
  exact recover (fun a b : UInt8 => a ^^^ b) 0 (fun a => UInt8.xor_self) pre post x

theorem extrapolate_release (i0 i1 idx : Nat) (v0 v1 : UInt64) :
    ∃ v, extrapolate .release i0 i1 idx v0 v1 = .ok v := by
  obtain ⟨diff, h₁⟩ := Build.release_i64_ok (asI64 v1 - asI64 v0)
  obtain ⟨shift, h₂⟩ := Build.release_i64_ok
    (diff.tdiv (max ((i1 : Int) - i0) 1) * ((idx : Int) - i0))
  obtain ⟨v, h₃⟩ := Build.release_i64_ok (asI64 v0 + shift)
  refine ⟨asU64 (max v 0), ?_⟩
  rw [extrapolate, bind_of_ok _ h₁, bind_of_ok _ h₂, bind_of_ok _ h₃]
  rfl

theorem timestamps_release (idx : Nat) (first : Nat × AudioPacketHeader)
    (rest : List (Nat × AudioPacketHeader)) : ∃ t, timestamps .release idx first rest = .ok t := by
  match rest with
  | [] => exact ⟨_, rfl⟩
  | second :: _ =>
    obtain ⟨pts, hpts⟩ := extrapolate_release first.1 second.1 idx first.2.ptsNs second.2.ptsNs
    obtain ⟨off, hoff⟩ :=
      extrapolate_release first.1 second.1 idx first.2.sampleOffset second.2.sampleOffset
    exact ⟨(pts, off), by rw [timestamps, bind_of_ok _ hpts, bind_of_ok _ hoff]; rfl⟩

/-- A header is synthesized exactly when a slot is known and its timestamps
can be computed. -/
theorem synthesizeHeader_ok {b : Build} {r : FecReceiver} {idx : Nat} {len : UInt16} :
    (∃ hd, synthesizeHeader b r idx len = .ok hd) ↔
      ∃ first rest t, known r.slots = first :: rest ∧ timestamps b idx first rest = .ok t := by
  unfold synthesizeHeader
  match known r.slots with
  | [] => simp
  | first :: rest =>
    simp only [bind_eq_ok, List.cons.injEq]
    constructor
    · rintro ⟨hd, t, ht, -⟩
      exact ⟨_, _, t, ⟨rfl, rfl⟩, ht⟩
    · rintro ⟨_, _, t, ⟨rfl, rfl⟩, ht⟩
      exact ⟨_, t, ht, rfl⟩

/-- The fields of a synthesized header that do not come from a neighbour. -/
theorem synthesizeHeader_fields {b : Build} {r : FecReceiver} {idx : Nat} {len : UInt16}
    {hd : AudioPacketHeader} (h : synthesizeHeader b r idx len = .ok hd) :
    hd.sequence = r.baseSeq.getD 0 + UInt16.ofNat idx ∧ hd.fecIndex = UInt8.ofNat idx ∧
      hd.fecGroupSize = r.groupSize ∧ hd.flags = PacketFlags.empty ∧ hd.payloadLen = len := by
  unfold synthesizeHeader at h
  match hk : known r.slots with
  | [] => simp [hk] at h
  | first :: rest =>
    simp only [hk, bind_eq_ok] at h
    obtain ⟨t, -, ht⟩ := h
    simp only [pure, Except.pure, Except.ok.injEq] at ht
    rw [← ht]
    exact ⟨rfl, rfl, rfl, rfl, rfl⟩

/-! ## One call of the receiver -/

/-- The packets of the group being assembled, in index order. -/
def held (r : FecReceiver) : List FecPacket := r.slots.filterMap id

/-- The receiver with its group closed. -/
def closed (r : FecReceiver) : FecReceiver :=
  { r with prevBaseSeq := r.baseSeq, baseSeq := none, parity := none, slots := [] }

theorem takeGroup_eq (r : FecReceiver) : r.takeGroup = (r.closed, r.held) := rfl

/-- What `tryComplete` can have done when it returned. -/
inductive Completion (b : Build) (r : FecReceiver) : FecReceiver → List FecPacket → Prop
  | complete (hm : missing r.slots = 0) (hne : r.slots ≠ []) : Completion b r r.closed r.held
  | rebuilt (pre post : List FecPacket) (lenXor : UInt16) (payload : List UInt8)
      (hd : AudioPacketHeader) (n : Nat) (hs : r.slots = oneGap pre post)
      (hp : r.parity = some (lenXor, payload))
      (hh : ∃ len, synthesizeHeader b r pre.length len = .ok hd)
      (hn : b.u64 (r.recovered + 1) = .ok n) :
      Completion b r { r.closed with recovered := n }
        (pre ++ (hd, rebuiltPayload ((pre ++ post).map (·.2)) lenXor payload) :: post)
  | wait (hm : ¬ (missing r.slots = 0 ∧ r.slots ≠ []))
      (hp : missing r.slots = 1 → r.parity = none) : Completion b r r []

theorem rebuild_cases {b : Build} {r r' : FecReceiver} {lenXor : UInt16} {payload : List UInt8}
    {out : List FecPacket} (hm : missing r.slots = 1) (hp : r.parity = some (lenXor, payload))
    (h : r.rebuild b lenXor payload = .ok (r', out)) : Completion b r r' out := by
  obtain ⟨pre, post, hs⟩ := missing_eq_one hm
  simp only [rebuild, hs, findIdx?_oneGap, filterMap_oneGap, bind_eq_ok] at h
  obtain ⟨hd, hh, n, hn, hout⟩ := h
  simp only [pure, Except.pure, takeGroup, set_oneGap, filterMap_map_some, Except.ok.injEq,
    Prod.mk.injEq] at hout
  obtain ⟨rfl, rfl⟩ := hout
  exact .rebuilt pre post lenXor payload hd n hs hp ⟨_, hh⟩ hn

theorem tryComplete_cases {b : Build} {r r' : FecReceiver} {out : List FecPacket}
    (h : r.tryComplete b = .ok (r', out)) : Completion b r r' out := by
  unfold tryComplete at h
  split at h
  · rename_i hm
    simp only [takeGroup_eq, Except.ok.injEq, Prod.mk.injEq] at h
    obtain ⟨rfl, rfl⟩ := h
    exact .complete hm.1 hm.2
  · rename_i hm
    split at h
    · rename_i hone
      split at h
      · rename_i hp
        simp only [Except.ok.injEq, Prod.mk.injEq] at h
        obtain ⟨rfl, rfl⟩ := h
        exact .wait hm fun _ => hp
      · rename_i hp
        exact rebuild_cases hone hp h
    · rename_i hone
      simp only [Except.ok.injEq, Prod.mk.injEq] at h
      obtain ⟨rfl, rfl⟩ := h
      exact .wait hm fun h => absurd h hone

/-- Without a parity a group is emitted when complete and otherwise waits. -/
theorem tryComplete_noParity {b : Build} {r : FecReceiver} (hp : r.parity = none) :
    r.tryComplete b =
      if missing r.slots = 0 ∧ r.slots ≠ [] then .ok (r.closed, r.held) else .ok (r, []) := by
  simp only [tryComplete, takeGroup_eq, hp, ite_self]

/-- `rebuild` returns exactly when a header can be synthesized and the counter
does not overflow. -/
theorem rebuild_ok {b : Build} {r : FecReceiver} {pre post : List FecPacket}
    (hs : r.slots = oneGap pre post) (lenXor : UInt16) (payload : List UInt8) :
    (∃ x, r.rebuild b lenXor payload = .ok x) ↔
      (∃ first rest t, known r.slots = first :: rest ∧
        timestamps b pre.length first rest = .ok t) ∧
      ∃ n, b.u64 (r.recovered + 1) = .ok n := by
  have hidx : r.slots.findIdx? (·.isNone) = some pre.length := by rw [hs, findIdx?_oneGap]
  simp only [rebuild, hidx, bind_eq_ok]
  constructor
  · rintro ⟨x, hd, hh, n, hn, -⟩
    exact ⟨synthesizeHeader_ok.mp ⟨hd, hh⟩, n, hn⟩
  · rintro ⟨ht, n, hn⟩
    obtain ⟨hd, hh⟩ := synthesizeHeader_ok.mpr ht
    exact ⟨_, hd, hh, n, hn, rfl⟩

/-- In a release build `tryComplete` can only fail on a group of one. -/
theorem tryComplete_release {r : FecReceiver} (h : r.slots.length ≠ 1) :
    ∃ x, r.tryComplete .release = .ok x := by
  unfold tryComplete
  split
  · exact ⟨_, rfl⟩
  · split
    · rename_i hone
      obtain ⟨pre, post, hs⟩ := missing_eq_one hone
      split
      · exact ⟨_, rfl⟩
      · have hknown : known r.slots ≠ [] := by
          rw [ne_eq, known_eq_nil, hs, filterMap_oneGap, List.append_eq_nil_iff]
          rintro ⟨rfl, rfl⟩
          rw [hs, length_oneGap] at h
          simp at h
        obtain ⟨first, rest, hk⟩ := List.exists_cons_of_ne_nil hknown
        obtain ⟨t, ht⟩ := timestamps_release pre.length first rest
        exact (rebuild_ok hs _ _).mpr ⟨⟨first, rest, t, hk, ht⟩, Build.release_u64_ok _⟩
    · exact ⟨_, rfl⟩

/-- What `flush` can have done when it returned. -/
inductive Flushed (b : Build) (r : FecReceiver) : FecReceiver → List FecPacket → Prop
  | idle (hb : r.baseSeq = none) : Flushed b r r []
  | group (base : UInt16) (n : Nat) (hb : r.baseSeq = some base)
      (hn : b.u64 (r.lost + missing r.slots) = .ok n) :
      Flushed b r { r.closed with lost := n } r.held

theorem flush_cases {b : Build} {r r' : FecReceiver} {out : List FecPacket}
    (h : r.flush b = .ok (r', out)) : Flushed b r r' out := by
  unfold flush at h
  match hb : r.baseSeq with
  | none =>
    simp only [hb, Option.isNone_none, if_true, Except.ok.injEq, Prod.mk.injEq] at h
    obtain ⟨rfl, rfl⟩ := h
    exact .idle hb
  | some base =>
    simp only [hb, Option.isNone_some, Bool.false_eq_true, if_false, bind_eq_ok] at h
    obtain ⟨n, hn, hout⟩ := h
    simp only [pure, Except.pure, Except.ok.injEq, takeGroup, Prod.mk.injEq] at hout
    obtain ⟨rfl, rfl⟩ := hout
    rw [← hb]
    exact .group base n hb hn

theorem flush_ok {b : Build} {r : FecReceiver} :
    (∃ x, r.flush b = .ok x) ↔
      (r.baseSeq = none ∨ ∃ n, b.u64 (r.lost + missing r.slots) = .ok n) := by
  unfold flush
  match hb : r.baseSeq with
  | none => simp
  | some base =>
    simp only [Option.isNone_some, Bool.false_eq_true, if_false, bind_eq_ok, reduceCtorEq, false_or]
    exact ⟨fun ⟨_, n, hn, _⟩ => ⟨n, hn⟩, fun ⟨n, hn⟩ => ⟨_, n, hn, rfl⟩⟩

theorem flush_release (r : FecReceiver) : ∃ x, r.flush .release = .ok x :=
  flush_ok.mpr (.inr (Build.release_u64_ok _))

/-- What `feed` can have done when it returned. -/
inductive Fed (b : Build) (r : FecReceiver) (p : FecPacket) :
    FecReceiver → List FecPacket → Prop
  | plain {r₁ o₁} (hz : p.1.fecGroupSize = 0) (hp : isParity p = false)
      (hf : Flushed b r r₁ o₁) : Fed b r p r₁ (o₁ ++ [p])
  | strayParity (hp : isParity p = true) (hb : r.baseSeq ≠ some (parityBase p)) : Fed b r p r []
  | parity {r' out} (hp : isParity p = true) (hb : r.baseSeq = some (parityBase p))
      (hc : Completion b { r with parity := some (p.1.fecLenXor, p.2) } r' out) :
      Fed b r p r' out
  | straggler (hz : p.1.fecGroupSize ≠ 0) (hp : isParity p = false)
      (hprev : r.prevBaseSeq = some (dataBase p)) (hb : r.baseSeq ≠ some (dataBase p)) :
      Fed b r p r [p]
  | switch {r₁ o₁ r' out} (hz : p.1.fecGroupSize ≠ 0) (hp : isParity p = false)
      (hprev : r.prevBaseSeq ≠ some (dataBase p)) (hb : r.baseSeq ≠ some (dataBase p))
      (hf : Flushed b r r₁ o₁) (hc : Completion b ((r₁.openGroup p).store p) r' out) :
      Fed b r p r' (o₁ ++ out)
  | same {r' out} (hz : p.1.fecGroupSize ≠ 0) (hp : isParity p = false)
      (hb : r.baseSeq = some (dataBase p)) (hc : Completion b (r.store p) r' out) :
      Fed b r p r' out

theorem feed_cases {b : Build} {r r' : FecReceiver} {p : FecPacket} {out : List FecPacket}
    (h : r.feed b p = .ok (r', out)) : Fed b r p r' out := by
  unfold feed at h
  split at h
  · rename_i hz
    obtain ⟨x, hf, hx⟩ := bind_eq_ok.mp h
    simp only [pure, Except.pure, Except.ok.injEq, Prod.mk.injEq] at hx
    obtain ⟨rfl, rfl⟩ := hx
    exact .plain hz.1 (by simpa using hz.2) (flush_cases hf)
  · rename_i hz
    split at h
    · rename_i hp
      split at h
      · rename_i hb
        exact .parity hp hb (tryComplete_cases h)
      · rename_i hb
        simp only [Except.ok.injEq, Prod.mk.injEq] at h
        obtain ⟨rfl, rfl⟩ := h
        exact .strayParity hp hb
    · rename_i hp
      have hz' : p.1.fecGroupSize ≠ 0 := fun h0 => hz ⟨h0, hp⟩
      have hp' : isParity p = false := by simpa using hp
      split at h
      · rename_i hs
        simp only [Except.ok.injEq, Prod.mk.injEq] at h
        obtain ⟨rfl, rfl⟩ := h
        exact .straggler hz' hp' hs.1 hs.2
      · rename_i hs
        split at h
        · rename_i hb
          obtain ⟨x, hf, hx⟩ := bind_eq_ok.mp h
          obtain ⟨y, hc, hy⟩ := bind_eq_ok.mp hx
          simp only [pure, Except.pure, Except.ok.injEq, Prod.mk.injEq] at hy
          obtain ⟨rfl, rfl⟩ := hy
          exact .switch hz' hp' (fun hprev => hs ⟨hprev, hb⟩) hb (flush_cases hf)
            (tryComplete_cases hc)
        · rename_i hb
          exact .same hz' hp' (by simpa using hb) (tryComplete_cases h)

/-! The branches of `feed` as equations, for proofs that run it forwards. -/

theorem feed_stray {b : Build} {r : FecReceiver} {p : FecPacket} (hp : isParity p = true)
    (hb : r.baseSeq ≠ some (parityBase p)) : r.feed b p = .ok (r, []) := by
  simp [feed, hp, hb]

theorem feed_parity {b : Build} {r : FecReceiver} {p : FecPacket} (hp : isParity p = true)
    (hb : r.baseSeq = some (parityBase p)) :
    r.feed b p = tryComplete b { r with parity := some (p.1.fecLenXor, p.2) } := by
  simp [feed, hp, hb]

theorem feed_plain {b : Build} {r : FecReceiver} {p : FecPacket} (hp : isParity p = false)
    (hz : p.1.fecGroupSize = 0) :
    r.feed b p = r.flush b >>= fun x => pure (x.1, x.2 ++ [p]) := by
  simp [feed, hp, hz]

theorem feed_straggler {b : Build} {r : FecReceiver} {p : FecPacket} (hp : isParity p = false)
    (hz : p.1.fecGroupSize ≠ 0) (hprev : r.prevBaseSeq = some (dataBase p))
    (hb : r.baseSeq ≠ some (dataBase p)) : r.feed b p = .ok (r, [p]) := by
  simp [feed, hp, hz, hprev, hb]

theorem feed_switch {b : Build} {r : FecReceiver} {p : FecPacket} (hp : isParity p = false)
    (hz : p.1.fecGroupSize ≠ 0) (hprev : r.prevBaseSeq ≠ some (dataBase p))
    (hb : r.baseSeq ≠ some (dataBase p)) :
    r.feed b p = r.flush b >>= fun x =>
      ((x.1.openGroup p).store p).tryComplete b >>= fun y => pure (y.1, x.2 ++ y.2) := by
  simp [feed, hp, hz, hprev, hb]

theorem feed_same {b : Build} {r : FecReceiver} {p : FecPacket} (hp : isParity p = false)
    (hz : p.1.fecGroupSize ≠ 0) (hb : r.baseSeq = some (dataBase p)) :
    r.feed b p = (r.store p).tryComplete b := by
  simp [feed, hp, hz, hb]

@[simp] theorem length_store_slots (r : FecReceiver) (p : FecPacket) :
    (r.store p).slots.length = r.slots.length := by
  unfold store
  split <;> simp

@[simp] theorem store_baseSeq (r : FecReceiver) (p : FecPacket) :
    (r.store p).baseSeq = r.baseSeq := by
  unfold store
  split <;> rfl

@[simp] theorem store_prevBaseSeq (r : FecReceiver) (p : FecPacket) :
    (r.store p).prevBaseSeq = r.prevBaseSeq := by
  unfold store
  split <;> rfl

@[simp] theorem store_parity (r : FecReceiver) (p : FecPacket) :
    (r.store p).parity = r.parity := by
  unfold store
  split <;> rfl

@[simp] theorem store_lost (r : FecReceiver) (p : FecPacket) : (r.store p).lost = r.lost := by
  unfold store
  split <;> rfl

@[simp] theorem store_recovered (r : FecReceiver) (p : FecPacket) :
    (r.store p).recovered = r.recovered := by
  unfold store
  split <;> rfl

/-- The packet that follows the filled part of the slots takes the next one. -/
theorem store_next {r : FecReceiver} {done : List (Option FecPacket)} {size : Nat} {p : FecPacket}
    (hs : r.slots = done ++ List.replicate (size - done.length) none) (hlt : done.length < size)
    (hidx : p.1.fecIndex.toNat = done.length) :
    r.store p = { r with
      slots := (done ++ [some p]) ++ List.replicate (size - (done ++ [some p]).length) none } := by
  obtain ⟨k, hk⟩ : ∃ k, size - done.length = k + 1 := ⟨size - done.length - 1, by omega⟩
  have hk' : size - (done ++ [some p]).length = k := by simp; omega
  have hin : done.length < r.slots.length := by rw [hs]; simp; omega
  rw [store, hidx, if_pos hin, hs, hk, hk', List.replicate_succ]
  simp

/-- A release build returns from `feed` unless a group of one is involved. -/
theorem feed_release {r : FecReceiver} {p : FecPacket} (hr : r.slots.length ≠ 1)
    (hp : p.1.fecGroupSize ≠ 1) : ∃ x, r.feed .release p = .ok x := by
  unfold feed
  obtain ⟨⟨r₁, o₁⟩, hf⟩ := flush_release r
  split
  · exact ⟨_, bind_eq_ok.mpr ⟨_, hf, rfl⟩⟩
  · split
    · split
      · exact tryComplete_release hr
      · exact ⟨_, rfl⟩
    · split
      · exact ⟨_, rfl⟩
      · split
        · obtain ⟨⟨r₂, o₂⟩, hc⟩ := tryComplete_release (r := (r₁.openGroup p).store p) (by
            have : p.1.fecGroupSize.toNat ≠ 1 := fun h => hp (UInt8.toNat_inj.mp h)
            simpa [openGroup] using this)
          exact ⟨_, bind_eq_ok.mpr ⟨_, hf, bind_eq_ok.mpr ⟨_, hc, rfl⟩⟩⟩
        · exact tryComplete_release (by simpa using hr)

/-! ## When a packet is rebuilt

These two read the state before a step and the fed packet only. -/

/-- The slot that `tryComplete` rebuilds: the only empty one, when the parity is
at hand. -/
def rebuildIndex (r : FecReceiver) : Option Nat :=
  if missing r.slots = 1 ∧ r.parity.isSome then r.slots.findIdx? (·.isNone) else none

/-- The receiver with `p` put in its place, when `p` belongs to the group under
assembly. -/
def joined (r : FecReceiver) (p : FecPacket) : Option FecReceiver :=
  if isParity p then
    if r.baseSeq = some (parityBase p) then some { r with parity := some (p.1.fecLenXor, p.2) }
    else none
  else if p.1.fecGroupSize ≠ 0 ∧ r.baseSeq = some (dataBase p) then some (r.store p)
  else none

/-- Base and sequence of the packet that feeding `p` rebuilds, if it does. -/
def rebuilds (r : FecReceiver) (p : FecPacket) : Option (UInt16 × UInt16) := do
  let r' ← r.joined p
  let idx ← r'.rebuildIndex
  return (r.baseSeq.getD 0, r.baseSeq.getD 0 + UInt16.ofNat idx)

/-- A packet of the group under assembly is put in its place, and the group is
completed if it can be. -/
theorem feed_of_joined {b : Build} {r s : FecReceiver} {p : FecPacket}
    (h : r.joined p = some s) : r.feed b p = s.tryComplete b := by
  unfold joined at h
  split at h
  · rename_i hp
    split at h
    · rename_i hb
      cases h
      exact feed_parity hp hb
    · cases h
  · rename_i hp
    split at h
    · rename_i hb
      cases h
      exact feed_same (by simpa using hp) hb.1 hb.2
    · cases h

theorem rebuildIndex_oneGap {r : FecReceiver} {pre post : List FecPacket}
    (hs : r.slots = oneGap pre post) {par : UInt16 × List UInt8} (hp : r.parity = some par) :
    r.rebuildIndex = some pre.length := by
  simp [rebuildIndex, hs, hp, findIdx?_oneGap]

theorem rebuildIndex_eq_none {r : FecReceiver} (h : missing r.slots = 1 → r.parity = none) :
    r.rebuildIndex = none := by
  by_cases hm : missing r.slots = 1
  · simp [rebuildIndex, h hm]
  · simp [rebuildIndex, hm]

/-- A slot to rebuild is the gap of slots that have no other. -/
theorem of_rebuildIndex {r : FecReceiver} {idx : Nat} (h : r.rebuildIndex = some idx) :
    ∃ pre post par, r.slots = oneGap pre post ∧ r.parity = some par ∧ idx = pre.length := by
  unfold rebuildIndex at h
  split at h
  · rename_i hm
    obtain ⟨pre, post, hs⟩ := missing_eq_one hm.1
    obtain ⟨par, hp⟩ := Option.isSome_iff_exists.mp hm.2
    rw [hs, findIdx?_oneGap] at h
    exact ⟨pre, post, par, hs, hp, (Option.some.inj h).symm⟩
  · cases h

end FecReceiver

end Oaat.Core
