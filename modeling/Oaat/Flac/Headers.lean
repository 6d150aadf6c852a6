/-
Oaat.Flac.Headers — more input does not change what was decided about less.

A verdict of `frameHeader` other than `incomplete` stands whatever follows,
and so does a stream header once it is complete. The scan for the end of a
frame is described by its first hit (`frameEnd_spec`): `Hit` says that the
running CRC-16 matches the two bytes before a position, and `Follows` that
what is buffered behind it does not rule out a header.
-/
import Oaat.Endpoint.FlacDecoder
import Mathlib.Tactic.Linarith

namespace Oaat.Flac

open Oaat.Endpoint

/-! ## Frame headers -/

theorem getD_append_of_lt {b : List UInt8} (x : List UInt8) {i : Nat} (h : i < b.length) :
    (b ++ x).getD i 0 = b.getD i 0 := by
  simp [List.getD_eq_getElem?_getD, List.getElem?_append_left h]

section

variable {b : List UInt8} {coded crcAt : Nat}

theorem headerTail_append_of_lt (x : List UInt8) (h : 4 + coded ≤ crcAt) (hlen : crcAt < b.length) :
    headerTail (b ++ x) coded crcAt = headerTail b coded crcAt := by
  have hcoded : (b ++ x).take (4 + coded) = b.take (4 + coded) :=
    List.take_append_of_le_length (by omega)
  have hcrc : (b ++ x).take crcAt = b.take crcAt := List.take_append_of_le_length (by omega)
  have hlong : ¬ (b ++ x).length ≤ crcAt := by simp; omega
  unfold headerTail
  rw [hcoded, hcrc, getD_append_of_lt x hlen, if_neg hlong, if_neg (by omega : ¬ b.length ≤ crcAt)]

/-- A wrong continuation byte stays where it is. -/
theorem headerTail_append_of_invalid (x : List UInt8) (h : 4 + coded ≤ crcAt)
    (hb : headerTail b coded crcAt = .invalid) : headerTail (b ++ x) coded crcAt = .invalid := by
  by_cases hlen : crcAt < b.length
  · rw [headerTail_append_of_lt x h hlen, hb]
  · unfold headerTail at hb ⊢
    split at hb
    · rename_i hbad
      rw [if_pos]
      obtain ⟨c, hc, hcbad⟩ := List.any_eq_true.mp hbad
      refine List.any_eq_true.mpr ⟨c, ?_, hcbad⟩
      rw [List.take_append]
      rw [List.drop_append]
      exact List.mem_append_left _ hc
    · rw [if_pos (by omega)] at hb
      cases hb

theorem headerTail_valid {n : Nat} (hb : headerTail b coded crcAt = .valid n) :
    crcAt < b.length ∧ n = crcAt + 1 := by
  unfold headerTail at hb
  split at hb
  · cases hb
  · split at hb
    · cases hb
    · split at hb
      · exact ⟨by omega, (Header.valid.inj hb).symm⟩
      · cases hb

end

/-- The header of a buffer of five bytes or more, from its first five. -/
theorem frameHeader_append_of_five {b : List UInt8} (x : List UInt8) (h : 5 ≤ b.length) :
    frameHeader (b ++ x) = frameHeader b ∨
      ∃ coded crcAt, 4 + coded ≤ crcAt ∧ frameHeader b = headerTail b coded crcAt ∧
        frameHeader (b ++ x) = headerTail (b ++ x) coded crcAt := by
  have hne : b.isEmpty = false := by
    cases b with
    | nil => simp at h
    | cons => rfl
  have hne' : (b ++ x).isEmpty = false := by
    cases b with
    | nil => simp at h
    | cons => rfl
  have hlen : (b ++ x).length = b.length + x.length := List.length_append
  have h0 := getD_append_of_lt x (i := 0) (b := b) (by omega)
  have h1 := getD_append_of_lt x (i := 1) (b := b) (by omega)
  have h2 := getD_append_of_lt x (i := 2) (b := b) (by omega)
  have h3 := getD_append_of_lt x (i := 3) (b := b) (by omega)
  have h4 := getD_append_of_lt x (i := 4) (b := b) (by omega)
  have n2 : ¬ (b ++ x).length < 2 := by omega
  have n5 : ¬ (b ++ x).length < 5 := by omega
  have m2 : ¬ b.length < 2 := by omega
  have m5 : ¬ b.length < 5 := by omega
  simp only [frameHeader, hne, hne', h0, h1, h2, h3, h4, n2, n5, m2, m5, if_false,
    Bool.false_eq_true]
  split
  · exact .inl rfl
  · split
    · exact .inl rfl
    · split
      · exact .inl rfl
      · split
        · exact .inl rfl
        · exact .inr ⟨_, _, Nat.le_add_right _ _, rfl, rfl⟩

/-- A header that is ruled out stays ruled out. -/
theorem frameHeader_append_of_invalid {b : List UInt8} (x : List UInt8)
    (h : frameHeader b = .invalid) : frameHeader (b ++ x) = .invalid := by
  by_cases h5 : 5 ≤ b.length
  · obtain heq | ⟨coded, crcAt, hle, hb, hbx⟩ := frameHeader_append_of_five x h5
    · rw [heq, h]
    · rw [hbx]
      exact headerTail_append_of_invalid x hle (hb ▸ h)
  · -- fewer bytes are ruled out by the sync code alone
    match b, h5 with
    | [], _ => simp [frameHeader] at h
    | b0 :: rest, h5 =>
      by_cases h0 : b0 = 0xFF
      · subst h0
        match rest with
        | [] => simp [frameHeader] at h
        | b1 :: rest =>
          by_cases h1 : b1 &&& 0xFE = 0xF8
          · have hlen : (0xFF :: b1 :: rest).length < 5 := by omega
            unfold frameHeader at h
            rw [if_pos hlen] at h
            simp [h1] at h
          · simp [frameHeader, h1]
      · simp [frameHeader, h0]

/-- A header that was found stays where it is. -/
theorem frameHeader_append_of_valid {b : List UInt8} (x : List UInt8) {n : Nat}
    (h : frameHeader b = .valid n) : frameHeader (b ++ x) = .valid n := by
  have h5 : 5 ≤ b.length := by
    by_contra h5
    unfold frameHeader at h
    rw [if_pos (by omega : b.length < 5)] at h
    split_ifs at h
  obtain heq | ⟨coded, crcAt, hle, hb, hbx⟩ := frameHeader_append_of_five x h5
  · rw [heq, h]
  · rw [hb] at h
    rw [hbx, headerTail_append_of_lt x hle (headerTail_valid h).1, h]

theorem codedLen_pos {c : UInt8} {n : Nat} (h : codedLen c = some n) : 1 ≤ n := by
  unfold codedLen at h
  split_ifs at h <;> simp_all <;> omega

theorem frameHeader_valid_bounds {b : List UInt8} {n : Nat} (h : frameHeader b = .valid n) :
    5 ≤ n ∧ n ≤ b.length := by
  simp only [frameHeader] at h
  split_ifs at h
  split at h
  · cases h
  · rename_i coded hcoded
    obtain ⟨hlt, rfl⟩ := headerTail_valid h
    have := codedLen_pos hcoded
    omega

/-- A header is found as soon as its bytes are there. -/
theorem frameHeader_of_prefix_valid {b c : List UInt8} {n : Nat} (h : frameHeader c = .valid n)
    (hbc : b <+: c) (hn : n ≤ b.length) : frameHeader b = .valid n := by
  obtain ⟨h5, -⟩ := frameHeader_valid_bounds h
  obtain ⟨x, rfl⟩ := hbc
  obtain heq | ⟨coded, crcAt, hle, hb, hbx⟩ := frameHeader_append_of_five x (b := b) (by omega)
  · rw [← heq, h]
  · rw [hbx] at h
    obtain ⟨-, rfl⟩ := headerTail_valid h
    rw [hb, ← headerTail_append_of_lt x hle (by omega), h]

/-- What may still become a header was never ruled out before. -/
theorem frameHeader_prefix_ne_invalid {b c : List UInt8} (hbc : b <+: c)
    (h : frameHeader c ≠ .invalid) : frameHeader b ≠ .invalid := by
  obtain ⟨x, rfl⟩ := hbc
  intro hb
  exact h (frameHeader_append_of_invalid x hb)

/-! ## The stream header -/

/-- The first block is complete, and is the last one or has others behind it. -/
theorem metadataLen_cases {fuel : Nat} {b : List UInt8} {n : Nat}
    (h : metadataLen (fuel + 1) b = some n) :
    ∃ b0 b1 b2 b3 body, b = b0 :: b1 :: b2 :: b3 :: body ∧ blockLen b1 b2 b3 ≤ body.length ∧
      ((b0 &&& 0x80 ≠ 0 ∧ n = 4 + blockLen b1 b2 b3) ∨
        (¬ b0 &&& 0x80 ≠ 0 ∧ ∃ m, metadataLen fuel (body.drop (blockLen b1 b2 b3)) = some m ∧
          n = 4 + blockLen b1 b2 b3 + m)) := by
  unfold metadataLen at h
  split at h
  · rename_i b0 b1 b2 b3 body
    by_cases hlen : body.length < blockLen b1 b2 b3
    · simp [hlen] at h
    · refine ⟨b0, b1, b2, b3, body, rfl, by omega, ?_⟩
      by_cases hlast : b0 &&& 0x80 ≠ 0
      · simp only [hlen, if_false] at h
        rw [if_pos hlast, Option.some.injEq] at h
        exact .inl ⟨hlast, h.symm⟩
      · simp only [hlen, if_false] at h
        rw [if_neg hlast, Option.map_eq_some_iff] at h
        obtain ⟨m, hm, rfl⟩ := h
        exact .inr ⟨hlast, m, hm, rfl⟩
  · cases h

theorem metadataLen_le {fuel : Nat} {b : List UInt8} {n : Nat} (h : metadataLen fuel b = some n) :
    n ≤ b.length := by
  induction fuel generalizing b n with
  | zero => simp [metadataLen] at h
  | succ fuel ih =>
    obtain ⟨b0, b1, b2, b3, body, rfl, hlen, ⟨-, rfl⟩ | ⟨-, m, hm, rfl⟩⟩ := metadataLen_cases h
    · simp only [List.length_cons]
      omega
    · have hle := ih hm
      rw [List.length_drop] at hle
      simp only [List.length_cons]
      omega

theorem metadataLen_append {fuel : Nat} {b : List UInt8} {n : Nat}
    (h : metadataLen fuel b = some n) (x : List UInt8) {fuel' : Nat} (hfuel : fuel ≤ fuel') :
    metadataLen fuel' (b ++ x) = some n := by
  induction fuel generalizing b n fuel' with
  | zero => simp [metadataLen] at h
  | succ fuel ih =>
    obtain ⟨k, rfl⟩ : ∃ k, fuel' = k + 1 := ⟨fuel' - 1, by omega⟩
    obtain ⟨b0, b1, b2, b3, body, rfl, hlen, hcase⟩ := metadataLen_cases h
    have hlen' : ¬ (body ++ x).length < blockLen b1 b2 b3 := by
      rw [List.length_append]
      omega
    simp only [List.cons_append, metadataLen, if_neg hlen']
    obtain ⟨hlast, rfl⟩ | ⟨hlast, m, hm, rfl⟩ := hcase
    · rw [if_pos hlast]
    · rw [if_neg hlast, List.drop_append_of_le_length hlen, ih hm (by omega)]
      rfl

/-- A complete stream header begins with its marker. -/
theorem streamHeaderLen_long {b : List UInt8} {n : Nat} (h : streamHeaderLen b = some n) :
    4 ≤ b.length := by
  obtain ⟨m, hm, rfl⟩ := Option.map_eq_some_iff.mp h
  by_contra h4
  rw [List.drop_of_length_le (by omega)] at hm
  cases hb : b.length with
  | zero => simp [hb, metadataLen] at hm
  | succ k => simp [hb, metadataLen] at hm

theorem streamHeaderLen_le {b : List UInt8} {n : Nat} (h : streamHeaderLen b = some n) :
    n ≤ b.length := by
  have h4 := streamHeaderLen_long h
  obtain ⟨m, hm, rfl⟩ := Option.map_eq_some_iff.mp h
  have hle := metadataLen_le hm
  rw [List.length_drop] at hle
  omega

theorem streamHeaderLen_append {b : List UInt8} {n : Nat} (h : streamHeaderLen b = some n)
    (x : List UInt8) : streamHeaderLen (b ++ x) = some n := by
  have h4 := streamHeaderLen_long h
  obtain ⟨m, hm, rfl⟩ := Option.map_eq_some_iff.mp h
  rw [streamHeaderLen, List.drop_append_of_le_length h4,
    metadataLen_append hm x (by rw [List.length_append]; omega)]
  rfl

theorem streamHeaderLen_prefix {b p : List UInt8} {n : Nat} (h : streamHeaderLen b = some n)
    (hp : p <+: b) (hlt : p.length < n) : streamHeaderLen p = none := by
  cases hq : streamHeaderLen p with
  | none => rfl
  | some m =>
    obtain ⟨x, rfl⟩ := hp
    have hm := streamHeaderLen_append hq x
    rw [h, Option.some.injEq] at hm
    subst hm
    have hle := streamHeaderLen_le hq
    omega

/-! ## The end of a frame -/

def crc16 (data : List UInt8) : UInt16 := data.foldl crc16Update 0

/-- The two bytes before position `fin` are the CRC-16 of all before them, with
at least a byte between the header and them. -/
structure CrcMatch (b : List UInt8) (headerLen fin : Nat) : Prop where
  body : headerLen + 3 ≤ fin
  le : fin ≤ b.length
  crc : crc16 (b.take (fin - 2)) = u16Be (b.getD (fin - 2) 0) (b.getD (fin - 1) 0)

/-- What is buffered behind `fin` does not rule out a header there. -/
def Follows (b : List UInt8) (fin : Nat) : Prop :=
  b.drop fin = [] ∨ frameHeader (b.drop fin) ≠ .invalid

theorem CrcMatch.iff_of_prefix {b c : List UInt8} {headerLen fin : Nat} (hbc : b <+: c)
    (hfin : fin ≤ b.length) : CrcMatch b headerLen fin ↔ CrcMatch c headerLen fin := by
  obtain ⟨x, rfl⟩ := hbc
  have htake : (b ++ x).take (fin - 2) = b.take (fin - 2) :=
    List.take_append_of_le_length (by omega)
  constructor
  · intro h
    have hbody := h.body
    refine ⟨hbody, by rw [List.length_append]; omega, ?_⟩
    rw [htake, getD_append_of_lt x (by omega), getD_append_of_lt x (by omega)]
    exact h.crc
  · intro h
    have hbody := h.body
    have hcrc := h.crc
    rw [htake, getD_append_of_lt x (by omega), getD_append_of_lt x (by omega)] at hcrc
    exact ⟨hbody, hfin, hcrc⟩

/-- The scan stops in front of `b0` and `b1` exactly when they end a frame. -/
theorem endsHere_iff (headerLen : Nat) (pre : List UInt8) (b0 b1 : UInt8) (rest : List UInt8) :
    (CrcMatch (pre ++ b0 :: b1 :: rest) headerLen (pre.length + 2) ∧
      Follows (pre ++ b0 :: b1 :: rest) (pre.length + 2)) ↔
    (pre.length > headerLen ∧ crc16 pre = u16Be b0 b1 ∧
      (rest = [] ∨ frameHeader rest ≠ .invalid)) := by
  have htake : (pre ++ b0 :: b1 :: rest).take (pre.length + 2 - 2) = pre := by simp
  have h0 : (pre ++ b0 :: b1 :: rest).getD (pre.length + 2 - 2) 0 = b0 := by
    simp [List.getD_eq_getElem?_getD]
  have h1 : (pre ++ b0 :: b1 :: rest).getD (pre.length + 2 - 1) 0 = b1 := by
    simp [List.getD_eq_getElem?_getD]
  have hdrop : (pre ++ b0 :: b1 :: rest).drop (pre.length + 2) = rest := by
    simp [List.drop_append]
  constructor
  · rintro ⟨hm, hf⟩
    have hbody := hm.body
    have hcrc := hm.crc
    rw [htake, h0, h1] at hcrc
    rw [Follows, hdrop] at hf
    exact ⟨by omega, hcrc, hf⟩
  · rintro ⟨hi, hcrc, hf⟩
    refine ⟨⟨by omega, by simp, ?_⟩, ?_⟩
    · rw [htake, h0, h1]
      exact hcrc
    · rw [Follows, hdrop]
      exact hf

/-- The scan, started behind `pre`. -/
theorem frameEndFrom_spec (headerLen : Nat) (rest : List UInt8) :
    ∀ pre : List UInt8,
      match frameEndFrom headerLen (crc16 pre) pre.length rest with
      | some fin =>
        (CrcMatch (pre ++ rest) headerLen fin ∧ Follows (pre ++ rest) fin) ∧
          ∀ e, pre.length + 2 ≤ e → e < fin →
            ¬ (CrcMatch (pre ++ rest) headerLen e ∧ Follows (pre ++ rest) e)
      | none =>
        ∀ e, pre.length + 2 ≤ e →
          ¬ (CrcMatch (pre ++ rest) headerLen e ∧ Follows (pre ++ rest) e) := by
  induction rest with
  | nil =>
    intro pre
    simp only [frameEndFrom]
    intro e he hm
    have := hm.1.le
    simp at this
    omega
  | cons b0 rest ih =>
    intro pre
    cases rest with
    | nil =>
      simp only [frameEndFrom]
      intro e he hm
      have := hm.1.le
      simp at this
      omega
    | cons b1 rest =>
      have hhere := endsHere_iff headerLen pre b0 b1 rest
      simp only [frameEndFrom]
      by_cases hstop : pre.length > headerLen ∧ crc16 pre = u16Be b0 b1 ∧
          (rest = [] ∨ frameHeader rest ≠ .invalid)
      · rw [if_pos hstop]
        refine ⟨hhere.mpr hstop, ?_⟩
        intro e he hlt
        omega
      · rw [if_neg hstop]
        have hcrc : crc16 (pre ++ [b0]) = crc16Update (crc16 pre) b0 := by
          simp [crc16]
        have hlen : (pre ++ [b0]).length = pre.length + 1 := by simp
        have hih := ih (pre ++ [b0])
        rw [hcrc, hlen, List.append_assoc, List.singleton_append] at hih
        have hskip : ∀ e, pre.length + 2 ≤ e → e ≠ pre.length + 2 → pre.length + 1 + 2 ≤ e := by
          intro e he hne
          omega
        cases hend : frameEndFrom headerLen (crc16Update (crc16 pre) b0) (pre.length + 1)
            (b1 :: rest) with
        | some fin =>
          rw [hend] at hih
          refine ⟨hih.1, ?_⟩
          intro e he hlt
          by_cases hne : e = pre.length + 2
          · rw [hne]
            exact fun h => hstop (hhere.mp h)
          · exact hih.2 e (hskip e he hne) hlt
        | none =>
          rw [hend] at hih
          intro e he
          by_cases hne : e = pre.length + 2
          · rw [hne]
            exact fun h => hstop (hhere.mp h)
          · exact hih e (hskip e he hne)

/-- **The scan for the end of a frame** finds the first CRC match behind which
a header is not ruled out. -/
theorem frameEnd_spec (b : List UInt8) (headerLen : Nat) :
    match frameEnd b headerLen with
    | some fin =>
      CrcMatch b headerLen fin ∧ Follows b fin ∧
        ∀ e, e < fin → CrcMatch b headerLen e → ¬ Follows b e
    | none => ∀ e, CrcMatch b headerLen e → ¬ Follows b e := by
  have h := frameEndFrom_spec headerLen b []
  have hge : ∀ {e}, CrcMatch b headerLen e → ([] : List UInt8).length + 2 ≤ e := by
    intro e hm
    have := hm.body
    simp
    omega
  change match frameEndFrom headerLen 0 0 b with
    | some fin => _
    | none => _ at h
  unfold frameEnd
  cases hend : frameEndFrom headerLen 0 0 b with
  | some fin =>
    rw [hend] at h
    refine ⟨h.1.1, h.1.2, ?_⟩
    intro e hlt hm hf
    exact h.2 e (hge hm) hlt ⟨hm, hf⟩
  | none =>
    rw [hend] at h
    intro e hm hf
    exact h e (hge hm) ⟨hm, hf⟩

end Oaat.Flac
