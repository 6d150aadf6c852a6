/-
Oaat.Lib.Cutting — converting a stream block by block, piece by piece.

`blockwise B g` converts the whole blocks of `B` elements at the front of a list and
leaves an incomplete tail out. Applied to each piece of a stream it gives the
conversion of the stream if the cuts lie between blocks, or behind the last whole
one (`Aligned`). If the conversion tells a silent block from another, there is no
other way to cut.
-/
import Oaat.Lib.Frames
import Mathlib.Algebra.BigOperators.Ring.List
import Mathlib.Algebra.Order.BigOperators.Group.List
import Mathlib.Algebra.Order.Ring.Nat

namespace Oaat.Lib

/-- The whole blocks, converted. -/
def blockwise {α β : Type} (B : Nat) (g : List α → List β) (data : List α) : List β :=
  (frames B data).flatMap g

/-- Every cut inside the whole blocks lies between two blocks. -/
def Aligned (B : Nat) (sizes : List Nat) : Prop :=
  ∀ pre post, sizes = pre ++ post → B ∣ pre.sum ∨ sizes.sum / B * B ≤ pre.sum

section

variable {α β : Type} {B n : Nat} {sizes : List Nat} {g : List α → List β}

theorem blockwise_append (hB : 0 < B) {a : List α} (b : List α) (ha : B ∣ a.length) :
    blockwise B g (a ++ b) = blockwise B g a ++ blockwise B g b := by
  rw [blockwise, frames_append hB b ha, List.flatMap_append]
  rfl

theorem blockwise_of_lt {a : List α} (ha : a.length < B) : blockwise B g a = [] := by
  rw [blockwise, frames_of_lt ha, List.flatMap_nil]

theorem length_flatMap_const {f : α → List β} {xs : List α} (h : ∀ x ∈ xs, (f x).length = n) :
    (xs.flatMap f).length = xs.length * n := by
  rw [List.length_flatMap, List.map_congr_left h, List.map_const', List.sum_replicate_nat]

/-- Blocks of one length, converted. -/
theorem dvd_length_blockwise (h : ∀ block, block.length = B → (g block).length = n)
    (data : List α) : n ∣ (blockwise B g data).length := by
  rw [blockwise, length_flatMap_const fun block hblock => h block (length_of_mem_frames hblock)]
  exact Nat.dvd_mul_left n _

/-- A conversion that goes block by block anyway. -/
theorem blockwise_of_additive (hB : 0 < B) (hnil : g [] = [])
    (hadd : ∀ block rest, block.length = B → g (block ++ rest) = g block ++ g rest) {data : List α}
    (h : B ∣ data.length) : blockwise B g data = g data := by
  refine frames_induction (P := fun data => blockwise B g data = g data) ?_ ?_ h
  · rw [blockwise_of_lt hB, hnil]
  · intro block rest hblock ih
    rw [hadd block rest hblock, ← ih, blockwise, frames_cons_append hB hblock, List.flatMap_cons]
    rfl

/-! ## Aligned cuts -/

theorem aligned_nil (B : Nat) : Aligned B [] := by
  intro pre post hsplit
  obtain ⟨rfl, -⟩ := List.append_eq_nil_iff.mp hsplit.symm
  exact .inl (Nat.dvd_zero B)

/-- A piece of whole blocks in front. -/
theorem aligned_cons_of_dvd (hB : 0 < B) (h : B ∣ n) :
    Aligned B (n :: sizes) ↔ Aligned B sizes := by
  have htotal : (n :: sizes).sum / B * B = n + sizes.sum / B * B := by
    obtain ⟨k, rfl⟩ := h
    rw [List.sum_cons, Nat.mul_add_div hB, Nat.add_mul, Nat.mul_comm k]
  constructor
  · intro hal pre post hsplit
    rcases hal (n :: pre) post (by rw [hsplit, List.cons_append]) with hdvd | hle
    · rw [List.sum_cons] at hdvd
      exact .inl ((Nat.dvd_add_right h).mp hdvd)
    · rw [htotal, List.sum_cons] at hle
      exact .inr (by omega)
  · intro hal pre post hsplit
    cases pre with
    | nil => exact .inl (Nat.dvd_zero B)
    | cons m pre =>
      obtain ⟨rfl, hrest⟩ := List.cons.inj hsplit
      rw [htotal, List.sum_cons]
      rcases hal pre post hrest with hdvd | hle
      · exact .inl (Nat.dvd_add h hdvd)
      · exact .inr (by omega)

/-- A piece with a rest holds all whole blocks. -/
theorem aligned_cons_of_not_dvd (h : ¬ B ∣ n) :
    Aligned B (n :: sizes) ↔ (n + sizes.sum) / B * B ≤ n := by
  constructor
  · intro hal
    rcases hal [n] sizes rfl with hdvd | hle
    · exact absurd (by simpa using hdvd) h
    · simpa using hle
  · intro hle pre post hsplit
    cases pre with
    | nil => exact .inl (Nat.dvd_zero B)
    | cons m pre =>
      obtain ⟨rfl, -⟩ := List.cons.inj hsplit
      rw [List.sum_cons, List.sum_cons]
      exact .inr (by omega)

/-- Pieces of whole blocks. -/
theorem aligned_of_forall_dvd (h : ∀ n ∈ sizes, B ∣ n) : Aligned B sizes := by
  intro pre post hsplit
  refine .inl (List.dvd_sum fun n hn => h n ?_)
  rw [hsplit]
  exact List.mem_append_left _ hn

/-! ## Piece by piece -/

/-- **Aligned cuts lose nothing.** -/
theorem flatMap_blockwise (hB : 0 < B) {pieces : List (List α)}
    (h : Aligned B (pieces.map List.length)) :
    pieces.flatMap (blockwise B g) = blockwise B g pieces.flatten := by
  induction pieces with
  | nil => exact (blockwise_of_lt hB).symm
  | cons p pieces ih =>
    rw [List.map_cons] at h
    rw [List.flatMap_cons, List.flatten_cons]
    by_cases hdvd : B ∣ p.length
    case pos =>
      rw [ih ((aligned_cons_of_dvd hB hdvd).mp h), blockwise_append hB _ hdvd]
    case neg =>
      -- the pieces behind this one are within one incomplete block
      have hle := (aligned_cons_of_not_dvd hdvd).mp h
      have hsum : (pieces.map List.length).sum = pieces.flatten.length :=
        List.length_flatten.symm
      rw [hsum] at hle
      have hshort : pieces.flatten.length < B := by
        have hlt := Nat.lt_div_mul_add hB (a := p.length + pieces.flatten.length)
        omega
      have hdiv : (p ++ pieces.flatten).length / B = p.length / B := by
        rw [List.length_append]
        refine Nat.le_antisymm ?_ (Nat.div_le_div_right (Nat.le_add_right _ _))
        exact (Nat.le_div_iff_mul_le hB).mpr hle
      have hnone : ∀ q ∈ pieces, blockwise B g q = [] := by
        intro q hq
        have hle' := List.le_sum_of_mem (List.mem_map_of_mem (f := List.length) hq)
        exact blockwise_of_lt (by omega)
      rw [List.flatMap_eq_nil_iff.mpr hnone, List.append_nil, blockwise, blockwise,
        frames_append_of_div_eq hdiv]

/-- A converted stream is silent if and only if its whole blocks are. -/
theorem blockwise_silent_iff {z : α} {b : β} (hB : 0 < B)
    (hg : ∀ block, block.length = B → ((∀ y ∈ g block, y = b) ↔ ∀ a ∈ block, a = z))
    (l : List α) :
    (∀ y ∈ blockwise B g l, y = b) ↔ ∀ a ∈ l.take (l.length / B * B), a = z := by
  have hblocks : ∀ block ∈ frames B l, (∀ y ∈ g block, y = b) ↔ ∀ a ∈ block, a = z :=
    fun block hblock => hg block (length_of_mem_frames hblock)
  rw [← flatten_frames_eq_take hB]
  simp only [blockwise, List.mem_flatMap, List.mem_flatten]
  constructor
  · rintro hy a ⟨block, hblock, ha⟩
    exact (hblocks block hblock).mp (fun y hmem => hy y ⟨block, hblock, hmem⟩) a ha
  · rintro ha y ⟨block, hblock, hy⟩
    exact (hblocks block hblock).mpr (fun a hmem => ha a ⟨block, hblock, hmem⟩) y hy

/-- **Other cuts lose something.** Take a conversion that tells a silent block from
another, and a way to cut streams such that every stream is converted to the same
piece by piece as whole. -/
theorem aligned_of_flatMap_blockwise {z x : α} {b : β} (hB : 0 < B) (hx : x ≠ z)
    (hg : ∀ block, block.length = B → ((∀ y ∈ g block, y = b) ↔ ∀ a ∈ block, a = z))
    (h : ∀ pieces : List (List α), pieces.map List.length = sizes →
      pieces.flatMap (blockwise B g) = blockwise B g pieces.flatten) : Aligned B sizes := by
  have hsilent : ∀ l : List α, (∀ y ∈ blockwise B g l, y = b) ↔
      ∀ a ∈ l.take (l.length / B * B), a = z := blockwise_silent_iff hB hg
  induction sizes with
  | nil => exact aligned_nil B
  | cons n sizes ih =>
    by_cases hdvd : B ∣ n
    case pos =>
      refine (aligned_cons_of_dvd hB hdvd).mpr (ih fun pieces hpieces => ?_)
      have hcons := h (List.replicate n z :: pieces) (by simp [hpieces])
      rw [List.flatMap_cons, List.flatten_cons,
        blockwise_append hB _ (by rwa [List.length_replicate])] at hcons
      exact List.append_cancel_left hcons
    case neg =>
      rw [aligned_cons_of_not_dvd hdvd]
      refine Nat.le_of_not_lt fun hlt => ?_
      -- the first element behind the whole blocks of the first piece is lost
      obtain ⟨m, hm⟩ : ∃ m, n = n / B * B + 1 + m := by
        have hne : n / B * B ≠ n := fun heq => hdvd ⟨n / B, by rw [Nat.mul_comm, heq]⟩
        have hle := Nat.div_mul_le_self n B
        exact Nat.exists_eq_add_of_le (by omega)
      let p := List.replicate (n / B * B) z ++ x :: List.replicate m z
      let pieces := sizes.map fun size => List.replicate size z
      have hp : p.length = n := by
        simp only [p, List.length_append, List.length_replicate, List.length_cons]
        omega
      have hpieces : pieces.map List.length = sizes := by simp [pieces, Function.comp_def]
      have hfirst : ∀ y ∈ blockwise B g p, y = b := by
        rw [hsilent, hp, List.take_left' List.length_replicate]
        exact fun a ha => List.eq_of_mem_replicate ha
      have hrest : ∀ y ∈ pieces.flatMap (blockwise B g), y = b := by
        intro y hy
        obtain ⟨q, hq, hy⟩ := List.mem_flatMap.mp hy
        obtain ⟨size, -, rfl⟩ := List.mem_map.mp hq
        exact (hsilent _).mpr (fun a ha => List.eq_of_mem_replicate (List.mem_of_mem_take ha)) y hy
      have hall : ∀ y ∈ blockwise B g (p ++ pieces.flatten), y = b := by
        have heq := h (p :: pieces) (by rw [List.map_cons, hp, hpieces])
        rw [List.flatMap_cons, List.flatten_cons] at heq
        rw [← heq]
        intro y hy
        exact (List.mem_append.mp hy).elim (hfirst y) (hrest y)
      refine hx ((hsilent _).mp hall x ?_)
      -- but it lies in the whole blocks of the stream
      have hlen : (p ++ pieces.flatten).length = n + sizes.sum := by
        rw [List.length_append, hp, List.length_flatten, hpieces]
      obtain ⟨k, hk⟩ : ∃ k, (n + sizes.sum) / B * B - n / B * B = k + 1 :=
        Nat.exists_eq_add_of_le' (by omega)
      have hmem : x ∈ (x :: (List.replicate m z ++ pieces.flatten)).take (k + 1) :=
        List.mem_cons_self
      rw [hlen, List.append_assoc, List.take_append, List.length_replicate, hk, List.cons_append]
      exact List.mem_append_right _ hmem

end

end Oaat.Lib
