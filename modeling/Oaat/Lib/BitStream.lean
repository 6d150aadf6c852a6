/-
Oaat.Lib.BitStream — bits in time order in interleaved words.

A stream of several lanes stores one element of each lane in turn. `lane k c xs`
is lane `c` of `k`. `frames` cuts bytes into words, and `msbFirst` and `lsbFirst`
read a byte bit by bit; so what a format says of its bits is a composition of
these.
-/
import Oaat.Lib.Frames

namespace Oaat.Lib

/-- The bits of a byte, most significant first. -/
def msbFirst (b : UInt8) : List Bool := (List.range 8).map fun i => b.toBitVec.getMsbD i

/-- The bits of a byte, least significant first. -/
def lsbFirst (b : UInt8) : List Bool := (List.range 8).map fun i => b.toBitVec.getLsbD i

/-- Lane `c` of `k` lanes. -/
def lane {α : Type} (k c : Nat) (xs : List α) : List α := (frames k xs).filterMap fun f => f[c]?

section

variable {α β : Type} {k c : Nat}

theorem lane_nil (hk : 0 < k) : lane k c ([] : List α) = [] := by
  rw [lane, frames_of_lt hk, List.filterMap_nil]

/-- Frame by frame, and in each frame at the place of the lane. -/
theorem lane_cons_append (hk : 0 < k) {f : List α} (hf : f.length = k) (l : List α) :
    lane k c (f ++ l) = f[c]?.toList ++ lane k c l := by
  rw [lane, frames_cons_append hk hf, List.filterMap_cons]
  cases f[c]? <;> rfl

theorem lane_append (hk : 0 < k) {a : List α} (ha : k ∣ a.length) (b : List α) :
    lane k c (a ++ b) = lane k c a ++ lane k c b := by
  rw [lane, frames_append hk b ha, List.filterMap_append]
  rfl

theorem lane_map (hk : 0 < k) (g : α → β) {xs : List α} (h : k ∣ xs.length) :
    lane k c (xs.map g) = (lane k c xs).map g := by
  refine frames_induction (P := fun xs => lane k c (xs.map g) = (lane k c xs).map g) ?_ ?_ h
  · rw [List.map_nil, lane_nil hk, lane_nil hk, List.map_nil]
  · intro f rest hf ih
    rw [List.map_append, lane_cons_append hk (by rw [List.length_map, hf]), ih,
      lane_cons_append hk hf, List.map_append, List.getElem?_map, Option.toList_map]

/-- A lane by its places. -/
theorem lane_eq_map (hc : c < k) (d : α) {n : Nat} {xs : List α} (h : xs.length = n * k) :
    lane k c xs = (List.range n).map fun i => xs.getD (i * k + c) d := by
  have hk : 0 < k := Nat.zero_lt_of_lt hc
  induction n generalizing xs with
  | zero =>
    obtain rfl : xs = [] := List.length_eq_zero_iff.mp (by simpa using h)
    rw [lane_nil hk, List.range_zero, List.map_nil]
  | succ n ih =>
    rw [Nat.succ_mul] at h
    have hfirst : (xs.take k).length = k := by
      rw [List.length_take]
      omega
    have hrest : (xs.drop k).length = n * k := by
      rw [List.length_drop]
      omega
    have hat : (xs.take k)[c]? = some (xs.getD c d) := by
      rw [List.getElem?_take_of_lt hc, List.getD_eq_getElem?_getD,
        List.getElem?_eq_getElem (by omega), Option.getD_some]
    have hshift : ∀ i, (xs.drop k).getD (i * k + c) d = xs.getD ((i + 1) * k + c) d := by
      intro i
      rw [List.getD_eq_getElem?_getD, List.getElem?_drop, ← List.getD_eq_getElem?_getD,
        Nat.succ_mul]
      congr 1
      omega
    rw [← List.take_append_drop k xs, lane_cons_append hk hfirst, hat, ih hrest,
      List.take_append_drop, List.range_succ_eq_map, List.map_cons, List.map_map]
    simp only [hshift, Function.comp_def, Nat.zero_mul, Nat.zero_add]
    rfl

/-- The first element of the first lane. -/
theorem lane_zero_head (hk : 0 < k) (x : α) (xs : List α) (h : k ≤ xs.length + 1) :
    ∃ rest, lane k 0 (x :: xs) = x :: rest := by
  have hfirst : ((x :: xs).take k).length = k := by
    rw [List.length_take, List.length_cons]
    omega
  have hat : ((x :: xs).take k)[0]? = some x := by
    rw [List.getElem?_take_of_lt hk]
    rfl
  refine ⟨lane k 0 ((x :: xs).drop k), ?_⟩
  rw [← List.take_append_drop k (x :: xs), lane_cons_append hk hfirst, hat,
    List.take_append_drop]
  rfl

end

end Oaat.Lib
