/-
Oaat.Lib.Parity — single-erasure parity over a self-inverse operation.

`op` is an associative, commutative operation with identity `e` in which every
element is its own inverse (exclusive or on machine words is the example).
Folding `op` over a list and then again over all elements but one leaves that
one element (`foldl_erase`). The same is lifted to STRINGS over `α` of
different lengths, each read as if padded with `e`:

* `xorInto p b` combines `b` into `p` as far as `p` reaches;
* `absorb p b` first pads `p` to the length of `b`, so nothing of `b` is lost;
* `parityOf l` absorbs every string of `l`.

`recover` is the erasure theorem: the parity of a list of strings, combined
with all of them but one and cut to that one's length, is that string.
-/
import Mathlib.Data.List.Basic

namespace Oaat.Lib

variable {α : Type} (op : α → α → α) (e : α)

/-- Combine `b` into `p`, position by position, as far as `p` reaches. -/
def xorInto : List α → List α → List α
  | p :: ps, b :: bs => op p b :: xorInto ps bs
  | ps, _ => ps

/-- `p` padded with `e` to at least `n` elements. -/
def padTo (n : Nat) (p : List α) : List α := p ++ List.replicate (n - p.length) e

/-- Combine `b` into `p`, growing `p` where `b` is longer. -/
def absorb (p b : List α) : List α := xorInto op (padTo e b.length p) b

/-- The parity string of a list of strings. -/
def parityOf (l : List (List α)) : List α := l.foldl (absorb op e) []

@[simp] theorem length_xorInto (p b : List α) : (xorInto op p b).length = p.length := by
  induction p generalizing b with
  | nil => cases b <;> rfl
  | cons p ps ih =>
    cases b with
    | nil => rfl
    | cons b bs => simp [xorInto, ih]

@[simp] theorem length_padTo (n : Nat) (p : List α) :
    (padTo e n p).length = max n p.length := by
  simp only [padTo, List.length_append, List.length_replicate]
  omega

theorem length_absorb (p b : List α) :
    (absorb op e p b).length = max b.length p.length := by
  simp [absorb]

theorem getD_padTo (n : Nat) (p : List α) (j : Nat) : (padTo e n p).getD j e = p.getD j e := by
  by_cases hj : j < p.length
  · simp [padTo, List.getElem?_append_left hj]
  · have hp : p.getD j e = e := by simp [List.getElem?_eq_none (Nat.le_of_not_lt hj)]
    rw [hp]
    by_cases hr : j < (padTo e n p).length
    · rw [← List.getElem_eq_getD e (h := hr)]
      simp [padTo, List.getElem_append_right (Nat.le_of_not_lt hj)]
    · simp [List.getElem?_eq_none (Nat.le_of_not_lt hr)]

/-! ## Columns -/

section Laws

variable [Std.LawfulIdentity op e]

theorem op_right_id (a : α) : op a e = a := Std.LawfulRightIdentity.right_id a

theorem op_left_id (a : α) : op e a = a := Std.LawfulLeftIdentity.left_id a

/-- Inside `p`, one column of `xorInto` is one application of `op`. -/
theorem getD_xorInto {p : List α} (b : List α) {j : Nat} (hj : j < p.length) :
    (xorInto op p b).getD j e = op (p.getD j e) (b.getD j e) := by
  induction p generalizing b j with
  | nil => simp at hj
  | cons p ps ih =>
    cases b with
    | nil => simp [xorInto, op_right_id op e]
    | cons b bs =>
      cases j with
      | zero => simp [xorInto]
      | succ j => simpa [xorInto] using ih bs (by simpa using hj)

/-- Every column of `absorb` is one application of `op`, also beyond both ends. -/
theorem getD_absorb (p b : List α) (j : Nat) :
    (absorb op e p b).getD j e = op (p.getD j e) (b.getD j e) := by
  by_cases hj : j < (padTo e b.length p).length
  · rw [absorb, getD_xorInto op e b hj, getD_padTo]
  · have hlen : j ≥ (absorb op e p b).length := by simpa [absorb] using hj
    have hp : j ≥ p.length := by simp at hj; omega
    have hb : j ≥ b.length := by simp at hj; omega
    simp [List.getElem?_eq_none hlen, List.getElem?_eq_none hp, List.getElem?_eq_none hb,
      op_right_id op e]

variable [Std.Associative op]

theorem foldl_op (a : α) (l : List α) : l.foldl op a = op a (l.foldl op e) := by
  induction l generalizing a with
  | nil => simp [op_right_id op e]
  | cons x l ih =>
    rw [List.foldl_cons, List.foldl_cons, ih, ih (op e x), op_left_id op e,
      @Std.Associative.assoc α op _]

omit [Std.Associative op] in
/-- Columns of a fold of `absorb` are folds of `op`. -/
theorem getD_foldl_absorb (l : List (List α)) (p : List α) (j : Nat) :
    (l.foldl (absorb op e) p).getD j e = (l.map (·.getD j e)).foldl op (p.getD j e) := by
  induction l generalizing p with
  | nil => rfl
  | cons b l ih => rw [List.foldl_cons, ih, getD_absorb, List.map_cons, List.foldl_cons]

omit [Std.Associative op] in
theorem getD_foldl_xorInto (l : List (List α)) (p : List α) {j : Nat} (hj : j < p.length) :
    (l.foldl (xorInto op) p).getD j e = (l.map (·.getD j e)).foldl op (p.getD j e) := by
  induction l generalizing p with
  | nil => rfl
  | cons b l ih =>
    rw [List.foldl_cons, ih _ (by simpa using hj), getD_xorInto op e b hj, List.map_cons,
      List.foldl_cons]

omit [Std.LawfulIdentity op e] [Std.Associative op] in
theorem length_foldl_xorInto (l : List (List α)) (p : List α) :
    (l.foldl (xorInto op) p).length = p.length := by
  induction l generalizing p with
  | nil => rfl
  | cons b l ih => rw [List.foldl_cons, ih, length_xorInto]

omit [Std.LawfulIdentity op e] [Std.Associative op] in
theorem length_le_foldl_absorb (l : List (List α)) (p : List α) :
    p.length ≤ (l.foldl (absorb op e) p).length ∧
      ∀ b ∈ l, b.length ≤ (l.foldl (absorb op e) p).length := by
  induction l generalizing p with
  | nil => simp
  | cons b l ih =>
    obtain ⟨hacc, hall⟩ := ih (absorb op e p b)
    rw [length_absorb] at hacc
    refine ⟨by rw [List.foldl_cons]; omega, ?_⟩
    intro c hc
    rcases List.mem_cons.mp hc with rfl | hc
    · rw [List.foldl_cons]; omega
    · exact hall c hc

omit [Std.LawfulIdentity op e] [Std.Associative op] in
/-- The parity is no longer than a common bound on the strings. -/
theorem length_parityOf_le {l : List (List α)} {m : Nat} (h : ∀ b ∈ l, b.length ≤ m) :
    (parityOf op e l).length ≤ m := by
  have aux : ∀ (l : List (List α)) (p : List α), (∀ b ∈ l, b.length ≤ m) → p.length ≤ m →
      (l.foldl (absorb op e) p).length ≤ m := by
    intro l
    induction l with
    | nil => intro p _ hp; exact hp
    | cons b l ih =>
      intro p hl hp
      have hb := hl b (by simp)
      exact ih _ (fun c hc => hl c (List.mem_cons_of_mem _ hc)) (by rw [length_absorb]; omega)
  exact aux l [] h (Nat.zero_le _)

/-! ## Erasure -/

variable [Std.Commutative op] (hself : ∀ a, op a a = e)

include hself in
/-- Folding everything, then everything but `x` again, leaves `x`. -/
theorem foldl_erase (pre post : List α) (x : α) :
    (pre ++ post).foldl op ((pre ++ x :: post).foldl op e) = x := by
  have hall : (pre ++ x :: post).foldl op e = op (op (pre.foldl op e) x) (post.foldl op e) := by
    rw [List.foldl_append, List.foldl_cons, foldl_op op e _ post]
  have hrest : (pre ++ post).foldl op e = op (pre.foldl op e) (post.foldl op e) := by
    rw [List.foldl_append, foldl_op op e _ post]
  rw [foldl_op op e, hall, hrest]
  calc op (op (op (pre.foldl op e) x) (post.foldl op e)) (op (pre.foldl op e) (post.foldl op e))
      = op x (op (op (pre.foldl op e) (post.foldl op e))
          (op (pre.foldl op e) (post.foldl op e))) := by ac_rfl
    _ = x := by rw [hself, op_right_id op e]

include hself in
/-- **Erasure theorem.** The parity of a list of strings, combined with all of
them but `x` and cut to the length of `x`, is `x`. -/
theorem recover (pre post : List (List α)) (x : List α) :
    ((pre ++ post).foldl (xorInto op) (parityOf op e (pre ++ x :: post))).take x.length = x := by
  have hx : x.length ≤ (parityOf op e (pre ++ x :: post)).length :=
    (length_le_foldl_absorb op e _ []).2 x (by simp)
  refine List.ext_getElem ?_ ?_
  · rw [List.length_take, length_foldl_xorInto]
    exact Nat.min_eq_left hx
  · intro j h₁ h₂
    rw [List.getElem_take, List.getElem_eq_getD e, List.getElem_eq_getD e,
      getD_foldl_xorInto op e _ _ (Nat.lt_of_lt_of_le h₂ hx), parityOf, getD_foldl_absorb]
    simpa using foldl_erase op e hself (pre.map (·.getD j e)) (post.map (·.getD j e)) (x.getD j e)

end Laws

end Oaat.Lib
