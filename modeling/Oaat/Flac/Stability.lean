/-
Oaat.Flac.Stability — what the header parsers say of a stream that is still
arriving.

`Oaat.Flac.Headers` shows that a verdict stands when bytes are added. Here it is
joined with the other direction: before the last byte of a frame header nothing
is decided, and a complete stream header is a list of metadata blocks of which
only the last is marked as such (`MetadataBlock`), in which `stream_info` finds
the first STREAMINFO block.
-/
import Oaat.Endpoint.FlacStream
import Oaat.Flac.Chunking

namespace Oaat.Flac

open Oaat.Endpoint Oaat.Lib

/-! ## Frame headers -/

/-- A part of a frame header is undecided. -/
theorem frameHeader_of_proper_prefix {b p : List UInt8} {n : Nat} (h : frameHeader b = .valid n)
    (hp : p <+: b.take n) (hne : p ≠ b.take n) : frameHeader p = .incomplete := by
  have hpb : p <+: b := hp.trans (List.take_prefix n b)
  have hlt : p.length < n := by
    obtain ⟨-, hn⟩ := frameHeader_valid_bounds h
    have hle := hp.length_le
    rw [List.length_take_of_le hn] at hle
    refine lt_of_le_of_ne hle ?_
    intro heq
    exact hne (hp.eq_of_length (by rw [List.length_take_of_le hn, heq]))
  cases hh : frameHeader p with
  | incomplete => rfl
  | invalid => exact absurd hh (frameHeader_prefix_ne_invalid hpb (by simp [h]))
  | valid m =>
    obtain ⟨x, rfl⟩ := hpb
    obtain rfl : n = m :=
      Header.valid.inj (h.symm.trans (frameHeader_append_of_valid x hh))
    have := (frameHeader_valid_bounds hh).2
    omega

/-! ## Metadata blocks -/

/-- A metadata block with all of its body. -/
structure MetadataBlock where
  /-- The mark of the last block, and the type. -/
  kind : UInt8
  len0 : UInt8
  len1 : UInt8
  len2 : UInt8
  body : List UInt8
  complete : body.length = blockLen len0 len1 len2

namespace MetadataBlock

def bytes (m : MetadataBlock) : List UInt8 := m.kind :: m.len0 :: m.len1 :: m.len2 :: m.body

def isLast (m : MetadataBlock) : Bool := m.kind &&& 0x80 ≠ 0

/-- Type 0 and 34 bytes. -/
def isStreamInfo (m : MetadataBlock) : Bool := m.kind &&& 0x7F = 0 ∧ m.body.length = 34

end MetadataBlock

/-- Only the last of the blocks is marked as the last. -/
def EndsAtLast (blocks : List MetadataBlock) : Prop :=
  ∃ front last, blocks = front ++ [last] ∧ last.isLast = true ∧ ∀ m ∈ front, m.isLast = false

/-- What `stream_info` is to find. -/
def firstStreamInfo (blocks : List MetadataBlock) : Option (List UInt8) :=
  (blocks.find? MetadataBlock.isStreamInfo).map MetadataBlock.body

/-- A complete stream header is such a list of blocks. -/
theorem metadataLen_blocks : ∀ {fuel : Nat} {b : List UInt8} {n : Nat},
    metadataLen fuel b = some n →
      ∃ blocks, EndsAtLast blocks ∧ b.take n = blocks.flatMap MetadataBlock.bytes
  | 0, b, n, h => by simp [metadataLen] at h
  | fuel + 1, b, n, h => by
      obtain ⟨b0, b1, b2, b3, body, rfl, hlen, hcase⟩ := metadataLen_cases h
      let m : MetadataBlock :=
        { kind := b0, len0 := b1, len1 := b2, len2 := b3, body := body.take (blockLen b1 b2 b3)
          complete := List.length_take_of_le hlen }
      obtain ⟨hlast, rfl⟩ | ⟨hlast, k, hk, rfl⟩ := hcase
      · refine ⟨[m], ⟨[], m, rfl, by simpa [MetadataBlock.isLast, m] using hlast, by simp⟩, ?_⟩
        rw [Nat.add_comm 4]
        simp [m, MetadataBlock.bytes]
      · obtain ⟨blocks, ⟨front, last, rfl, hl, hfront⟩, hbytes⟩ := metadataLen_blocks hk
        refine ⟨m :: (front ++ [last]), ⟨m :: front, last, rfl, hl, ?_⟩, ?_⟩
        · refine List.forall_mem_cons.mpr ⟨?_, hfront⟩
          simpa [MetadataBlock.isLast, m] using hlast
        · have hsum : 4 + blockLen b1 b2 b3 + k = blockLen b1 b2 b3 + k + 4 := by omega
          rw [List.flatMap_cons, ← hbytes, hsum]
          simp only [m, MetadataBlock.bytes, List.take_succ_cons, List.take_add, List.cons_append]

/-! ## The loop of `stream_info` -/

/-- One pass of the loop, on the header from `pos` on. -/
def infoPass (header : List UInt8) : Pass (List UInt8) (Option (List UInt8)) :=
  match header with
  | b0 :: b1 :: b2 :: b3 :: rest =>
    let len := blockLen b1 b2 b3
    if rest.length < len then .stop none
    else if b0 &&& 0x7F = 0 ∧ len = 34 then .stop (some (rest.take len))
    else if b0 &&& 0x80 ≠ 0 then .stop none
    else .again (rest.drop len)
  | _ => .stop none

theorem streamInfoFrom_succ (fuel : Nat) (header : List UInt8) :
    streamInfoFrom (fuel + 1) header =
      match infoPass header with
      | .again rest => streamInfoFrom fuel rest
      | .stop r => r := by
  match header with
  | [] | [_] | [_, _] | [_, _, _] => rfl
  | b0 :: b1 :: b2 :: b3 :: rest =>
    simp only [streamInfoFrom, infoPass]
    split_ifs <;> rfl

/-- `streamInfoFrom` is that loop. -/
theorem streamInfoFrom_of_loop : ∀ {fuel : Nat} {header : List UInt8} {r : Option (List UInt8)},
    loop infoPass fuel header = .ok r → ∀ {fuel' : Nat}, fuel ≤ fuel' →
      streamInfoFrom fuel' header = r
  | 0, _, _, h, _, _ => by simp [loop] at h
  | fuel + 1, header, r, h, fuel', hle => by
      obtain ⟨k, rfl⟩ : ∃ k, fuel' = k + 1 := ⟨fuel' - 1, by omega⟩
      rw [streamInfoFrom_succ]
      cases hpass : infoPass header with
      | again rest =>
        rw [loop_again fuel hpass] at h
        exact streamInfoFrom_of_loop h (by omega)
      | stop r' =>
        rw [loop_stop fuel hpass] at h
        exact Except.ok.inj h

/-- A pass over a block finds it, or goes on behind it. -/
theorem infoPass_block (m : MetadataBlock) (rest : List UInt8) :
    infoPass (m.bytes ++ rest) =
      if m.isStreamInfo then .stop (some m.body)
      else if m.isLast then .stop none
      else .again rest := by
  have hlen : ¬ (m.body ++ rest).length < blockLen m.len0 m.len1 m.len2 := by
    rw [List.length_append, m.complete]
    omega
  have htake : (m.body ++ rest).take (blockLen m.len0 m.len1 m.len2) = m.body :=
    List.take_left' m.complete
  have hdrop : (m.body ++ rest).drop (blockLen m.len0 m.len1 m.len2) = rest :=
    List.drop_left' m.complete
  simp only [MetadataBlock.bytes, infoPass, List.cons_append, if_neg hlen, htake, hdrop,
    MetadataBlock.isStreamInfo, MetadataBlock.isLast, m.complete, decide_eq_true_eq]

/-- **The loop of `stream_info`** on a complete header takes at most one pass for
each block and finds the first STREAMINFO block. -/
theorem loop_infoPass (last : MetadataBlock) (hlast : last.isLast = true) :
    ∀ front : List MetadataBlock, (∀ m ∈ front, m.isLast = false) →
      loop infoPass (front ++ [last]).length ((front ++ [last]).flatMap MetadataBlock.bytes) =
        .ok (firstStreamInfo (front ++ [last]))
  | [], _ => by
      have hpass := infoPass_block last []
      by_cases hinfo : last.isStreamInfo
      · rw [if_pos hinfo] at hpass
        simpa [firstStreamInfo, hinfo] using loop_stop 0 hpass
      · rw [if_neg hinfo, if_pos hlast] at hpass
        simpa [firstStreamInfo, hinfo] using loop_stop 0 hpass
  | m :: front, hfront => by
      obtain ⟨hm, hrest⟩ := List.forall_mem_cons.mp hfront
      have hpass := infoPass_block m ((front ++ [last]).flatMap MetadataBlock.bytes)
      rw [List.cons_append, List.length_cons, List.flatMap_cons]
      by_cases hinfo : m.isStreamInfo
      · rw [if_pos hinfo] at hpass
        rw [loop_stop _ hpass]
        simp [firstStreamInfo, hinfo]
      · rw [if_neg hinfo, hm] at hpass
        rw [loop_again _ hpass, loop_infoPass last hlast front hrest]
        simp [firstStreamInfo, hinfo]

theorem length_blocks_le (blocks : List MetadataBlock) :
    blocks.length ≤ (blocks.flatMap MetadataBlock.bytes).length := by
  induction blocks with
  | nil => simp
  | cons m blocks ih =>
    simp only [List.flatMap_cons, List.length_append, MetadataBlock.bytes, List.length_cons]
    omega

/-- A complete stream header, its blocks, and what `stream_info` finds in them. -/
theorem streamHeaderLen_blocks {b : List UInt8} {n : Nat} (h : streamHeaderLen b = some n) :
    ∃ blocks, EndsAtLast blocks ∧
      b.take n = b.take 4 ++ blocks.flatMap MetadataBlock.bytes ∧
      loop infoPass blocks.length ((b.take n).drop 4) = .ok (firstStreamInfo blocks) ∧
      streamInfo (b.take n) = firstStreamInfo blocks := by
  obtain ⟨k, hk, rfl⟩ := Option.map_eq_some_iff.mp h
  obtain ⟨blocks, ⟨front, last, rfl, hlast, hfront⟩, hbytes⟩ := metadataLen_blocks hk
  have hloop := loop_infoPass last hlast front hfront
  have hdrop : (b.take (4 + k)).drop 4 = (front ++ [last]).flatMap MetadataBlock.bytes := by
    rw [List.drop_take, Nat.add_sub_cancel_left, hbytes]
  refine ⟨front ++ [last], ⟨front, last, rfl, hlast, hfront⟩, ?_, ?_, ?_⟩
  · rw [List.take_add, hbytes]
  · rw [hdrop, hloop]
  · have hfuel := length_blocks_le (front ++ [last])
    rw [streamInfo]
    refine streamInfoFrom_of_loop (by rw [hdrop]; exact hloop) ?_
    rw [← hdrop, List.length_drop] at hfuel
    omega

/-! ## The parsers on more input -/

/-- **Stability.** A frame header that is found or ruled out stays so when bytes
are added, and nothing is decided before its last byte. A complete stream header
stays where it is, is seen only when its last byte is there, and is a list of
metadata blocks; the loop of `stream_info` on it needs no more passes than there
are blocks and returns the body of the first STREAMINFO block, if there is one. -/
theorem headers_stable (b x : List UInt8) :
    (∀ n, frameHeader b = .valid n → frameHeader (b ++ x) = .valid n) ∧
    (frameHeader b = .invalid → frameHeader (b ++ x) = .invalid) ∧
    (∀ n, frameHeader b = .valid n →
      ∀ p, p <+: b.take n → p ≠ b.take n → frameHeader p = .incomplete) ∧
    ∀ n, streamHeaderLen b = some n →
      streamHeaderLen (b ++ x) = some n ∧ n ≤ b.length ∧
      (∀ p, p <+: b → p.length < n → streamHeaderLen p = none) ∧
      ∃ blocks, EndsAtLast blocks ∧
        b.take n = b.take 4 ++ blocks.flatMap MetadataBlock.bytes ∧
        loop infoPass blocks.length ((b.take n).drop 4) = .ok (firstStreamInfo blocks) ∧
        streamInfo (b.take n) = firstStreamInfo blocks := by
  refine ⟨?_, frameHeader_append_of_invalid x, ?_, ?_⟩
  · intro n h
    exact frameHeader_append_of_valid x h
  · intro n h p hp hne
    exact frameHeader_of_proper_prefix h hp hne
  · intro n h
    refine ⟨streamHeaderLen_append h x, streamHeaderLen_le h, ?_, streamHeaderLen_blocks h⟩
    intro p hp hlt
    exact streamHeaderLen_prefix h hp hlt

/-- The header of a frame, and a stream header of one block. -/
theorem headers_stable_tick :
    frameHeader (tickFrame ++ [0]) = .valid 8 ∧
      frameHeader (tickFrame.take 7) = .incomplete ∧
      streamHeaderLen (tickHeader ++ [0]) = some 42 ∧
      streamHeaderLen (tickHeader.take 41) = none := by
  have hframe : frameHeader tickFrame = .valid 8 := by decide +kernel
  have hstream : streamHeaderLen tickHeader = some 42 := by decide +kernel
  have hf := headers_stable tickFrame [0]
  have hs := headers_stable tickHeader [0]
  refine ⟨hf.1 8 hframe, ?_, (hs.2.2.2 42 hstream).1, ?_⟩
  · exact hf.2.2.1 8 hframe (tickFrame.take 7) (by decide +kernel) (by decide +kernel)
  · exact (hs.2.2.2 42 hstream).2.2.1 (tickHeader.take 41) (List.take_prefix _ _)
      (by decide +kernel)

end Oaat.Flac
