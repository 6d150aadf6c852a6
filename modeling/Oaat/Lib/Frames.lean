/-
Oaat.Lib.Frames — whole frames of a list, and streams that skip and repeat.

`frames n l` cuts `l` into frames of `n` elements and leaves an incomplete
tail out. Cutting at a multiple of `n` is cutting the list of frames, so a
byte buffer that is only ever extended, shortened and cut at such places is a
list of frames.

`Warped xs ys` says that `ys` is `xs` with elements left out or repeated in
place: the order is kept, and nothing else comes in.
-/
import Mathlib.Data.List.Basic
import Mathlib.Algebra.Order.Group.Nat

namespace Oaat.Lib

variable {α : Type}

/-! ## Frames -/

/-- The first `k` frames. -/
def chunk (n : Nat) : Nat → List α → List (List α)
  | 0, _ => []
  | k + 1, l => l.take n :: chunk n k (l.drop n)

/-- The whole frames of `n` elements at the front of a list. -/
def frames (n : Nat) (l : List α) : List (List α) := chunk n (l.length / n) l

theorem length_chunk (n k : Nat) (l : List α) : (chunk n k l).length = k := by
  induction k generalizing l with
  | zero => rfl
  | succ k ih => simp [chunk, ih]

theorem chunk_add (n j k : Nat) (l : List α) :
    chunk n (j + k) l = chunk n j l ++ chunk n k (l.drop (j * n)) := by
  induction j generalizing l with
  | zero => simp [chunk]
  | succ j ih =>
    have hadd : j + 1 + k = j + k + 1 := by omega
    have hdrop : (l.drop n).drop (j * n) = l.drop ((j + 1) * n) := by
      rw [List.drop_drop, Nat.succ_mul, Nat.add_comm]
    rw [hadd, chunk, chunk, ih, hdrop, List.cons_append]

/-- The frames that a prefix holds are frames of the list. -/
theorem chunk_append_left {n k : Nat} {a : List α} (b : List α) (h : k * n ≤ a.length) :
    chunk n k (a ++ b) = chunk n k a := by
  induction k generalizing a with
  | zero => rfl
  | succ k ih =>
    rw [Nat.succ_mul] at h
    have hdrop : (a ++ b).drop n = a.drop n ++ b := List.drop_append_of_le_length (by omega)
    rw [chunk, chunk, List.take_append_of_le_length (by omega), hdrop,
      ih (by rw [List.length_drop]; omega)]

theorem chunk_take {n j k : Nat} {l : List α} (hjk : j ≤ k) (hl : k * n ≤ l.length) :
    chunk n j (l.take (k * n)) = chunk n j l := by
  have hle : j * n ≤ k * n := Nat.mul_le_mul_right n hjk
  have hlen : j * n ≤ (l.take (k * n)).length := by
    rw [List.length_take]
    omega
  have happ := chunk_append_left (l.drop (k * n)) hlen
  rw [List.take_append_drop] at happ
  exact happ.symm

@[simp] theorem length_frames (n : Nat) (l : List α) : (frames n l).length = l.length / n :=
  length_chunk n _ l

theorem frames_of_lt {n : Nat} {l : List α} (h : l.length < n) : frames n l = [] := by
  rw [frames, Nat.div_eq_of_lt h, chunk]

theorem frames_append {n : Nat} (hn : 0 < n) {a : List α} (b : List α) (ha : n ∣ a.length) :
    frames n (a ++ b) = frames n a ++ frames n b := by
  obtain ⟨k, hk⟩ := ha
  have hdiv : (a ++ b).length / n = k + b.length / n := by
    rw [List.length_append, hk, Nat.mul_add_div hn]
  have hka : a.length / n = k := by
    rw [hk, Nat.mul_div_cancel_left k hn]
  have hlen : k * n = a.length := by
    rw [hk, Nat.mul_comm]
  rw [frames, hdiv, chunk_add, frames, hka, frames, chunk_append_left b hlen.le, hlen,
    List.drop_left]

/-- Leaving out the first `k` frames. -/
theorem frames_drop {n : Nat} (hn : 0 < n) (k : Nat) (l : List α) :
    frames n (l.drop (k * n)) = (frames n l).drop k := by
  by_cases h : k * n ≤ l.length
  · have hsplit : l.length / n = k + (l.length - k * n) / n := by
      rw [← Nat.mul_add_div hn, Nat.mul_comm n k]
      congr 1
      omega
    rw [frames, List.length_drop, frames, hsplit, chunk_add,
      List.drop_append_of_le_length (length_chunk n k l).ge,
      List.drop_of_length_le (length_chunk n k l).le, List.nil_append]
  · have hlt : l.length / n < k := (Nat.div_lt_iff_lt_mul hn).mpr (by omega)
    rw [List.drop_of_length_le (by omega), List.drop_of_length_le (by simp; omega)]
    exact frames_of_lt (by simpa using hn)

/-- Keeping the first `k` frames. -/
theorem frames_take {n : Nat} (hn : 0 < n) (k : Nat) (l : List α) :
    frames n (l.take (k * n)) = (frames n l).take k := by
  by_cases h : k * n ≤ l.length
  · have hk : (l.take (k * n)).length / n = k := by
      rw [List.length_take, Nat.min_eq_left h, Nat.mul_div_cancel k hn]
    have hle : k ≤ l.length / n := (Nat.le_div_iff_mul_le hn).mpr h
    obtain ⟨m, hm⟩ := Nat.exists_eq_add_of_le hle
    rw [frames, hk, chunk_take le_rfl h, frames, hm, chunk_add,
      List.take_append_of_le_length (length_chunk n k l).ge,
      List.take_of_length_le (length_chunk n k l).le]
  · have hlt : l.length / n < k := (Nat.div_lt_iff_lt_mul hn).mpr (by omega)
    rw [List.take_of_length_le (by omega), List.take_of_length_le (by simp; omega)]

/-- The first frame of a list that has one. -/
theorem frames_of_le {n : Nat} (hn : 0 < n) {l : List α} (h : n ≤ l.length) :
    frames n l = l.take n :: frames n (l.drop n) := by
  have hdiv : l.length / n = (l.length - n) / n + 1 := by
    rw [← Nat.add_div_right _ hn]
    congr 1
    omega
  rw [frames, hdiv, chunk, frames, List.length_drop]

/-- A frame in front. -/
theorem frames_cons_append {n : Nat} (hn : 0 < n) {f : List α} (hf : f.length = n) (l : List α) :
    frames n (f ++ l) = f :: frames n l := by
  rw [frames_of_le hn (by rw [List.length_append]; omega), List.take_left' hf, List.drop_left' hf]

/-- `k` copies of a frame in front. -/
theorem frames_replicate_append {n : Nat} (hn : 0 < n) {f : List α} (hf : f.length = n)
    (k : Nat) (l : List α) :
    frames n ((List.replicate k f).flatten ++ l) = List.replicate k f ++ frames n l := by
  induction k with
  | zero => simp
  | succ k ih =>
    rw [List.replicate_succ, List.flatten_cons, List.append_assoc, frames_cons_append hn hf, ih,
      List.cons_append]

theorem flatten_frames {n : Nat} (hn : 0 < n) {l : List α} (h : n ∣ l.length) :
    (frames n l).flatten = l := by
  obtain ⟨k, hk⟩ := h
  induction k generalizing l with
  | zero =>
    obtain rfl : l = [] := List.length_eq_zero_iff.mp (by simpa using hk)
    rw [frames_of_lt (by simpa using hn)]
    rfl
  | succ k ih =>
    have hle : n ≤ l.length := by
      rw [hk, Nat.mul_succ]
      omega
    have hrest : (l.drop n).length = n * k := by
      rw [List.length_drop, hk, Nat.mul_succ]
      omega
    rw [frames_of_le hn hle, List.flatten_cons, ih hrest, List.take_append_drop]

theorem length_of_mem_frames {n : Nat} {f l : List α} (h : f ∈ frames n l) : f.length = n := by
  have hchunk : ∀ (k : Nat) (l : List α), k * n ≤ l.length → ∀ f ∈ chunk n k l, f.length = n := by
    intro k
    induction k with
    | zero => exact fun l _ f hf => (List.not_mem_nil hf).elim
    | succ k ih =>
      intro l hl f hf
      rw [Nat.succ_mul] at hl
      rcases List.mem_cons.mp hf with rfl | hf
      · rw [List.length_take]
        omega
      · exact ih (l.drop n) (by rw [List.length_drop]; omega) f hf
  exact hchunk _ l (Nat.div_mul_le_self l.length n) f h

/-- Over whole frames by the first frame and the rest. -/
theorem frames_induction {k : Nat} {P : List α → Prop} (nil : P [])
    (cons : ∀ f rest, f.length = k → P rest → P (f ++ rest)) {l : List α} (h : k ∣ l.length) :
    P l := by
  obtain ⟨n, hn⟩ := h
  induction n generalizing l with
  | zero =>
    obtain rfl : l = [] := List.length_eq_zero_iff.mp (by simpa using hn)
    exact nil
  | succ n ih =>
    rw [Nat.mul_succ] at hn
    have hrest : (l.drop k).length = k * n := by
      rw [List.length_drop]
      omega
    rw [← List.take_append_drop k l]
    refine cons _ _ ?_ (ih hrest)
    rw [List.length_take]
    omega

/-- Frames that were written one after the other. -/
theorem frames_flatMap {β : Type} {k : Nat} (hk : 0 < k) {g : β → List α} {xs : List β}
    (hg : ∀ x ∈ xs, (g x).length = k) : frames k (xs.flatMap g) = xs.map g := by
  induction xs with
  | nil => exact frames_of_lt hk
  | cons x xs ih =>
    rw [List.flatMap_cons, frames_cons_append hk (hg x List.mem_cons_self),
      ih fun y hy => hg y (List.mem_cons_of_mem x hy), List.map_cons]

/-- The whole frames are a prefix. -/
theorem flatten_frames_eq_take {n : Nat} (hn : 0 < n) (l : List α) :
    (frames n l).flatten = l.take (l.length / n * n) := by
  have hdvd : n ∣ (l.take (l.length / n * n)).length := by
    rw [List.length_take, Nat.min_eq_left (Nat.div_mul_le_self _ _)]
    exact Nat.dvd_mul_left _ _
  have hall : (frames n l).take (l.length / n) = frames n l :=
    List.take_of_length_le (length_frames n l).le
  rw [← flatten_frames hn hdvd, frames_take hn, hall]

/-- What comes after the last whole frame changes nothing. -/
theorem frames_append_of_div_eq {n : Nat} {a b : List α} (h : (a ++ b).length / n = a.length / n) :
    frames n (a ++ b) = frames n a := by
  rw [frames, h, chunk_append_left b (Nat.div_mul_le_self _ _), frames]

/-! ## Skipping and repeating -/

/-- `ys` is `xs` with elements skipped, or repeated in place. -/
inductive Warped : List α → List α → Prop where
  | nil : Warped [] []
  | skip (x : α) {xs ys : List α} : Warped xs ys → Warped (x :: xs) ys
  | play (x : α) (again : Nat) {xs ys : List α} :
    Warped xs ys → Warped (x :: xs) (List.replicate (again + 1) x ++ ys)

namespace Warped

theorem refl : ∀ xs : List α, Warped xs xs
  | [] => .nil
  | x :: xs => .play x 0 (refl xs)

theorem skipAll : ∀ xs : List α, Warped xs []
  | [] => .nil
  | x :: xs => .skip x (skipAll xs)

/-- It has no elements of its own. -/
theorem mem {xs ys : List α} (h : Warped xs ys) {y : α} (hy : y ∈ ys) : y ∈ xs := by
  induction h with
  | nil => exact hy
  | skip x _ ih => exact List.mem_cons_of_mem _ (ih hy)
  | play x again _ ih =>
    rcases List.mem_append.mp hy with hy | hy
    · rw [List.eq_of_mem_replicate hy]
      exact List.mem_cons_self
    · exact List.mem_cons_of_mem _ (ih hy)

theorem append {xs ys xs' ys' : List α} (h : Warped xs ys) (h' : Warped xs' ys') :
    Warped (xs ++ xs') (ys ++ ys') := by
  induction h with
  | nil => exact h'
  | skip x _ ih => exact .skip x ih
  | play x again _ ih =>
    rw [List.append_assoc]
    exact .play x again ih

/-- Leaving out the end. -/
theorem take {xs ys : List α} (h : Warped xs ys) (k : Nat) : Warped xs (ys.take k) := by
  induction h generalizing k with
  | nil => simpa using Warped.nil
  | skip x _ ih => exact .skip x (ih k)
  | play x again _ ih =>
    rename_i xs ys _
    rw [List.take_append, List.length_replicate, List.take_replicate]
    cases hk : min k (again + 1) with
    | zero =>
      have hzero : k - (again + 1) = 0 := by omega
      rw [hzero, List.take_zero]
      exact .skip x (skipAll xs)
    | succ m => exact .play x m (ih _)

/-- More may be skipped. -/
theorem of_sublist {xs ys zs : List α} (h : Warped xs ys) (hsub : xs.Sublist zs) :
    Warped zs ys := by
  induction hsub generalizing ys with
  | slnil => exact h
  | cons z _ ih => exact .skip z (ih h)
  | cons_cons z _ ih =>
    cases h with
    | skip _ h => exact .skip z (ih h)
    | play _ again h => exact .play z again (ih h)

/-- Leaving out the first `k`. -/
theorem drop : ∀ (k : Nat) (xs : List α), Warped xs (xs.drop k)
  | 0, xs => by simpa using refl xs
  | _ + 1, [] => by simpa using Warped.nil
  | k + 1, x :: xs => .skip x (drop k xs)

/-- Repeating the first. -/
theorem repeatHead (k : Nat) (x : α) (xs : List α) :
    Warped (x :: xs) (List.replicate k x ++ x :: xs) := by
  have h := Warped.play x k (refl xs)
  rwa [List.replicate_succ', List.append_assoc, List.singleton_append] at h

end Warped

end Oaat.Lib
