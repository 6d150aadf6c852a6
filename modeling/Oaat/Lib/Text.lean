/-
Oaat.Lib.Text — texts as lists: trimming, splitting once, and decimal numbers.

`trimBy`, `stripPrefix` and `splitOnce` work over any alphabet. A text split at
a pattern whose first character does not come again in it is split at the first
place where the pattern stands (`splitOnce_append`), so that a printer that puts
such a pattern between its parts is read back part by part. A number is parsed
digit by digit, refused as soon as it reaches the bound of its type.
-/
import Mathlib.Data.List.TakeWhile

namespace Oaat.Lib.Text

section

variable {α : Type}

/-! ## Trimming -/

def trimBy (p : α → Bool) (s : List α) : List α :=
  ((s.dropWhile p).reverse.dropWhile p).reverse

variable {p : α → Bool}

theorem dropWhile_of_all {s : List α} (h : ∀ c ∈ s, p c = true) : s.dropWhile p = [] := by
  simpa [List.dropWhile_eq_nil_iff] using h

theorem dropWhile_of_none {s : List α} (h : ∀ c ∈ s, p c = false) : s.dropWhile p = s := by
  cases s with
  | nil => rfl
  | cons c s => simp [h c (by simp)]

/-- Dropping on the left keeps the rest of the text. -/
theorem mem_dropWhile {s : List α} {c : α} (hc : c ∈ s) (h : p c = false) : c ∈ s.dropWhile p := by
  rw [← List.takeWhile_append_dropWhile (p := p) (l := s)] at hc
  rcases List.mem_append.mp hc with hc | hc
  · simp [List.mem_takeWhile_imp hc] at h
  · exact hc

theorem trimBy_append_left {pre : List α} (s : List α) (h : ∀ c ∈ pre, p c = true) :
    trimBy p (pre ++ s) = trimBy p s := by
  rw [trimBy, List.dropWhile_append_of_pos h, trimBy]

theorem trimBy_append_right (s : List α) {post : List α} (h : ∀ c ∈ post, p c = true) :
    trimBy p (s ++ post) = trimBy p s := by
  by_cases hs : ∀ c ∈ s, p c = true
  · have hall : ∀ c ∈ s ++ post, p c = true := by
      intro c hc
      exact (List.mem_append.mp hc).elim (hs c) (h c)
    rw [trimBy, trimBy, dropWhile_of_all hs, dropWhile_of_all hall]
  · have hne : s.dropWhile p ≠ [] := fun hnil => hs (List.dropWhile_eq_nil_iff.mp hnil)
    have hsplit : (s ++ post).dropWhile p = s.dropWhile p ++ post := by
      rw [List.dropWhile_append]
      simp [hne]
    have hrev : ∀ c ∈ post.reverse, p c = true := by simpa using h
    rw [trimBy, trimBy, hsplit, List.reverse_append, List.dropWhile_append_of_pos hrev]

theorem trimBy_of_none {s : List α} (h : ∀ c ∈ s, p c = false) : trimBy p s = s := by
  have hrev : ∀ c ∈ s.reverse, p c = false := by simpa using h
  rw [trimBy, dropWhile_of_none h, dropWhile_of_none hrev, List.reverse_reverse]

theorem mem_trimBy {s : List α} {c : α} (hc : c ∈ s) (h : p c = false) : c ∈ trimBy p s := by
  rw [trimBy, List.mem_reverse]
  exact mem_dropWhile (List.mem_reverse.mpr (mem_dropWhile hc h)) h

/-! ## Prefixes and splits -/

/-- A pattern whose first character does not come again in it stands nowhere
across the border of a text and of the pattern behind it. -/
theorem not_prefix_append {c d : α} {p s : List α} (hc : c ∉ p) (b : List α)
    (h : ¬ (c :: p) <+: d :: s) : ¬ (c :: p) <+: d :: s ++ ((c :: p) ++ b) := by
  intro hpre
  rcases le_total (c :: p).length (d :: s).length with hle | hle
  · exact h (List.prefix_of_prefix_length_le hpre (List.prefix_append ..) hle)
  · obtain ⟨q, hq⟩ := List.prefix_of_prefix_length_le (List.prefix_append (d :: s) _) hpre hle
    rw [← hq, List.prefix_append_right_inj] at hpre
    obtain ⟨rfl, rfl⟩ : d = c ∧ s ++ q = p := by simpa using hq
    cases q with
    | nil => exact h (by simp)
    | cons e q =>
      obtain ⟨rfl, -⟩ := List.cons_prefix_cons.mp hpre
      exact hc (by simp)

variable [DecidableEq α]

def stripPrefix (pat s : List α) : Option (List α) :=
  if pat.isPrefixOf s then some (s.drop pat.length) else none

theorem stripPrefix_eq_some {pat s t : List α} : stripPrefix pat t = some s ↔ t = pat ++ s := by
  unfold stripPrefix
  split
  next h =>
    obtain ⟨rest, rfl⟩ := List.isPrefixOf_iff_prefix.mp h
    rw [List.drop_left, Option.some.injEq, List.append_cancel_left_eq]
  next h =>
    refine iff_of_false (fun hnone => by cases hnone) ?_
    rintro rfl
    exact h (List.isPrefixOf_iff_prefix.mpr ⟨s, rfl⟩)

theorem stripPrefix_append (pat s : List α) : stripPrefix pat (pat ++ s) = some s :=
  stripPrefix_eq_some.mpr rfl

/-- The text before the first place where the pattern stands, and behind it. -/
def splitOnce (pat : List α) : List α → Option (List α × List α)
  | [] => if pat.isEmpty then some ([], []) else none
  | c :: cs =>
    if pat.isPrefixOf (c :: cs) then some ([], (c :: cs).drop pat.length)
    else (splitOnce pat cs).map fun (before, after) => (c :: before, after)

theorem splitOnce_eq_some {pat : List α} :
    ∀ {s a b : List α}, splitOnce pat s = some (a, b) → s = a ++ pat ++ b
  | [], a, b, h => by
      cases pat with
      | nil =>
        obtain ⟨rfl, rfl⟩ : [] = a ∧ [] = b := by simpa [splitOnce] using h
        rfl
      | cons c p => simp [splitOnce] at h
  | d :: s, a, b, h => by
      rw [splitOnce] at h
      split at h
      · next hp =>
        obtain ⟨t, ht⟩ := List.isPrefixOf_iff_prefix.mp hp
        rw [← ht, List.drop_left, Option.some.injEq, Prod.mk.injEq] at h
        obtain ⟨rfl, rfl⟩ := h
        exact ht.symm
      · obtain ⟨⟨a', b'⟩, hs, hab⟩ := Option.map_eq_some_iff.mp h
        obtain ⟨rfl, rfl⟩ : d :: a' = a ∧ b' = b := by simpa using hab
        rw [splitOnce_eq_some hs]
        simp

/-- **Splitting at a pattern that the text itself brings.** The pattern cannot
begin inside `s` and end behind it, as its first character does not come again
in it. -/
theorem splitOnce_append {c : α} {p : List α} (hc : c ∉ p) (b : List α) :
    ∀ s : List α, splitOnce (c :: p) (s ++ (c :: p) ++ b) =
      match splitOnce (c :: p) s with
      | some (x, y) => some (x, y ++ (c :: p) ++ b)
      | none => some (s, b)
  | [] => by
      have hp : (c :: p).isPrefixOf (c :: (p ++ b)) = true :=
        List.isPrefixOf_iff_prefix.mpr ⟨b, by simp⟩
      simp [splitOnce, hp]
  | d :: s => by
      by_cases hhere : (c :: p) <+: d :: s
      · obtain ⟨t, ht⟩ := hhere
        obtain ⟨rfl, rfl⟩ : c = d ∧ p ++ t = s := by simpa using ht
        have hs : (c :: p).isPrefixOf (c :: (p ++ t)) = true :=
          List.isPrefixOf_iff_prefix.mpr ⟨t, by simp⟩
        have hall : (c :: p).isPrefixOf (c :: (p ++ t) ++ (c :: p) ++ b) = true :=
          List.isPrefixOf_iff_prefix.mpr ⟨t ++ (c :: p) ++ b, by simp⟩
        simp only [List.cons_append, splitOnce] at hs hall ⊢
        rw [if_pos hs, if_pos hall]
        simp
      · have hs : ¬ (c :: p).isPrefixOf (d :: s) = true := by
          rwa [List.isPrefixOf_iff_prefix]
        have hall : ¬ (c :: p).isPrefixOf (d :: s ++ (c :: p) ++ b) = true := by
          rw [List.isPrefixOf_iff_prefix, List.append_assoc]
          exact not_prefix_append hc b hhere
        have hrest := splitOnce_append hc b s
        simp only [List.cons_append, splitOnce] at hs hall ⊢
        rw [if_neg hs, if_neg hall, hrest]
        cases splitOnce (c :: p) s <;> rfl

/-- A text without the pattern's first character is split behind it. -/
theorem splitOnce_of_not_mem {c : α} {p s : List α} (hs : c ∉ s) : splitOnce (c :: p) s = none := by
  cases h : splitOnce (c :: p) s with
  | none => rfl
  | some r =>
    refine absurd ?_ hs
    rw [splitOnce_eq_some h]
    simp

/-- A split at one character. -/
theorem splitOnce_singleton (c : α) : ∀ s : List α, splitOnce [c] s =
    if c ∈ s then some (s.takeWhile (· ≠ c), (s.dropWhile (· ≠ c)).drop 1) else none
  | [] => by simp [splitOnce]
  | d :: s => by
      by_cases hd : c = d
      · subst hd
        simp [splitOnce]
      · have hd' : d ≠ c := Ne.symm hd
        have hp : [c].isPrefixOf (d :: s) = false := by simp [List.isPrefixOf, hd]
        rw [splitOnce, hp, splitOnce_singleton c s]
        by_cases hs : c ∈ s <;> simp [hs, hd, hd']

end

/-! ## Characters -/

/-- The Unicode property `White_Space`. -/
def isWhitespace (c : Char) : Bool :=
  let n := c.toNat
  (0x09 ≤ n && n ≤ 0x0D) || n = 0x20 || n = 0x85 || n = 0xA0 || n = 0x1680 ||
    (0x2000 ≤ n && n ≤ 0x200A) || n = 0x2028 || n = 0x2029 || n = 0x202F || n = 0x205F || n = 0x3000

theorem toNat_of_isDigit {c : Char} (h : c.isDigit = true) : 48 ≤ c.toNat ∧ c.toNat ≤ 57 := by
  simpa [Char.isDigit, UInt32.le_iff_toNat_le] using h

theorem isWhitespace_of_isDigit {c : Char} (h : c.isDigit = true) : isWhitespace c = false := by
  have hrange := toNat_of_isDigit h
  simp only [isWhitespace, Bool.or_eq_false_iff, Bool.and_eq_false_iff, decide_eq_false_iff_not]
  omega

/-! ## Decimal numbers -/

/-- The digits of a number below `bound`, behind those that make `n`. -/
def parseBelow (bound : Nat) : Nat → List Char → Option Nat
  | n, [] => some n
  | n, c :: cs =>
    if c.isDigit then
      let m := n * 10 + (c.toNat - '0'.toNat)
      if m < bound then parseBelow bound m cs else none
    else none

/-- An unsigned number below `bound`: at least a digit, and a plus sign at most
in front. -/
def parseUnsigned (bound : Nat) (s : List Char) : Option Nat :=
  match s with
  | [] => none
  | '+' :: [] => none
  | '+' :: digits => parseBelow bound 0 digits
  | digits => parseBelow bound 0 digits

theorem parseBelow_of_digits {bound : Nat} : ∀ {cs : List Char} {n : Nat},
    (∀ c ∈ cs, c.isDigit = true) → Nat.ofDigitChars 10 cs n < bound →
      parseBelow bound n cs = some (Nat.ofDigitChars 10 cs n)
  | [], n, _, _ => by simp [parseBelow]
  | c :: cs, n, hdigits, hlt => by
      obtain ⟨hc, hcs⟩ := List.forall_mem_cons.mp hdigits
      have hnext : n * 10 + (c.toNat - '0'.toNat) = 10 * n + (c.toNat - '0'.toNat) := by
        rw [Nat.mul_comm]
      rw [Nat.ofDigitChars_cons] at hlt ⊢
      -- the digits so far make no more than all of them
      have hle : 10 * n + (c.toNat - '0'.toNat) ≤
          Nat.ofDigitChars 10 cs (10 * n + (c.toNat - '0'.toNat)) := by
        rw [Nat.ofDigitChars_eq_ofDigitChars_zero]
        exact le_trans (Nat.le_mul_of_pos_left _ (Nat.pow_pos (by omega))) (Nat.le_add_right ..)
      rw [parseBelow, if_pos hc]
      simp only [hnext]
      rw [if_pos (by omega), parseBelow_of_digits hcs hlt]

theorem parseBelow_of_mem {bound : Nat} {c : Char} (hc : c.isDigit = false) :
    ∀ {cs : List Char} {n : Nat}, c ∈ cs → parseBelow bound n cs = none
  | [], _, h => by simp at h
  | d :: cs, n, h => by
      rw [parseBelow]
      rcases List.mem_cons.mp h with rfl | h
      · simp [hc]
      · simp [parseBelow_of_mem hc h]

theorem isDigit_toDigits {n : Nat} {c : Char} (h : c ∈ Nat.toDigits 10 n) : c.isDigit = true :=
  Nat.isDigit_of_mem_toDigits (by omega) (by omega) h

theorem toList_toString (n : Nat) : (toString n).toList = Nat.toDigits 10 n := by simp

theorem toDigits_injective {n m : Nat} (h : Nat.toDigits 10 n = Nat.toDigits 10 m) : n = m := by
  have := congrArg (fun digits => Nat.ofDigitChars 10 digits 0) h
  simpa using this

/-- **Decimal round trip.** -/
theorem parseUnsigned_toDigits {bound n : Nat} (h : n < bound) :
    parseUnsigned bound (Nat.toDigits 10 n) = some n := by
  have hlt : Nat.ofDigitChars 10 (Nat.toDigits 10 n) 0 < bound := by simpa using h
  have hparse := parseBelow_of_digits (fun c hc => isDigit_toDigits hc) hlt
  rw [Nat.ofDigitChars_ten_toDigits] at hparse
  unfold parseUnsigned
  split
  · next hnil => exact absurd hnil Nat.toDigits_ne_nil
  · next hplus =>
    have : ('+' : Char).isDigit = true := isDigit_toDigits (by rw [hplus]; simp)
    simp at this
  · next hplus =>
    have : ('+' : Char).isDigit = true := isDigit_toDigits (by rw [hplus]; simp)
    simp at this
  · exact hparse

/-- A character that is no digit and no sign is refused wherever it stands. -/
theorem parseUnsigned_of_mem {bound : Nat} {s : List Char} {c : Char} (h : c ∈ s)
    (hc : c.isDigit = false) (hplus : c ≠ '+') : parseUnsigned bound s = none := by
  unfold parseUnsigned
  split
  · rfl
  · rfl
  · exact parseBelow_of_mem hc ((List.mem_cons.mp h).resolve_left hplus)
  · exact parseBelow_of_mem hc h

end Oaat.Lib.Text
