/-
Oaat.Lib.JsonText — the strings and numbers of JSON (RFC 8259).

A string is read from behind its opening quotation mark up to the closing one
and denotes Unicode scalar values: a surrogate escape counts with its pair only,
and a control character stands for itself nowhere. A number denotes a rational.

`weight` measures a text by the characters that no number is made of. What a
string needs of it (`needString`) is two for every character that has to be
escaped and the weight of each other one; no spelling takes less
(`need_of_readString`). `quote` is a spelling that reads back (`readString_quote`).
-/
import Oaat.Lib.Text
import Mathlib.Algebra.Field.Rat
import Mathlib.Data.List.Basic

namespace Oaat.Lib.Json

open Oaat.Lib.Text

/-! ## Characters -/

/-- The characters of a number. -/
def isNumberChar (c : Char) : Bool :=
  c.isDigit || c == '-' || c == '+' || c == '.' || c == 'e' || c == 'E'

/-- A text without the characters of its numbers. -/
def weight (s : List Char) : Nat := s.countP fun c => !isNumberChar c

@[simp] theorem weight_nil : weight [] = 0 := rfl

@[simp] theorem weight_append (s t : List Char) : weight (s ++ t) = weight s + weight t :=
  List.countP_append

theorem weight_cons (c : Char) (s : List Char) :
    weight (c :: s) = weight s + if isNumberChar c then 0 else 1 := by
  cases h : isNumberChar c <;> simp [weight, h]

/-- A control character of the grammar. -/
def isControl (c : Char) : Bool := c.toNat < 0x20

/-- The character cannot stand for itself in a string. -/
def isSpecial (c : Char) : Bool := c == '"' || c == '\\' || isControl c

/-! ## Strings -/

def hexValue (c : Char) : Option Nat :=
  if '0' ≤ c ∧ c ≤ '9' then some (c.toNat - '0'.toNat)
  else if 'a' ≤ c ∧ c ≤ 'f' then some (c.toNat - 'a'.toNat + 10)
  else if 'A' ≤ c ∧ c ≤ 'F' then some (c.toNat - 'A'.toNat + 10)
  else none

/-- Four hexadecimal digits. -/
def codeUnit (a b c d : Char) : Option Nat := do
  let a ← hexValue a
  let b ← hexValue b
  let c ← hexValue c
  let d ← hexValue d
  return ((a * 16 + b) * 16 + c) * 16 + d

/-- The character of a two-character escape. -/
def unescape : Char → Option Char
  | '"' => some '"'
  | '\\' => some '\\'
  | '/' => some '/'
  | 'b' => some '\x08'
  | 'f' => some '\x0c'
  | 'n' => some '\n'
  | 'r' => some '\r'
  | 't' => some '\t'
  | _ => none

/-- A character in front of a string that was read. -/
def push (c : Char) : Option (List Char × List Char) → Option (List Char × List Char) :=
  Option.map fun (t, rest) => (c :: t, rest)

/-- The string behind an opening quotation mark, and what follows the closing one. -/
def readString : List Char → Option (List Char × List Char)
  | '"' :: s => some ([], s)
  | '\\' :: 'u' :: a :: b :: c :: d :: s =>
    match codeUnit a b c d with
    | none => none
    | some n =>
      if n < 0xD800 ∨ 0xE000 ≤ n then push (.ofNat n) (readString s)
      else
        -- a high surrogate, and behind it a low one
        match s with
        | '\\' :: 'u' :: e :: f :: g :: h :: s =>
          match codeUnit e f g h with
          | none => none
          | some m =>
            if n < 0xDC00 ∧ 0xDC00 ≤ m ∧ m < 0xE000 then
              push (.ofNat (0x10000 + (n - 0xD800) * 0x400 + (m - 0xDC00))) (readString s)
            else none
        | _ => none
  | '\\' :: e :: s =>
    match unescape e with
    | some c => push c (readString s)
    | none => none
  | c :: s => if isSpecial c then none else push c (readString s)
  | [] => none

def hexDigit (n : Nat) : Char := (Nat.toDigits 16 n).headD '0'

/-- A spelling of a character: itself, or escaped. -/
def escape (c : Char) : List Char :=
  if c = '"' ∨ c = '\\' then ['\\', c]
  else if isControl c then ['\\', 'u', '0', '0', hexDigit (c.toNat / 16), hexDigit (c.toNat % 16)]
  else [c]

/-- A string between quotation marks. -/
def quote (s : List Char) : List Char := '"' :: (s.flatMap escape ++ ['"'])

/-- What a character of a string takes of the weight of a text: two if it has to
be escaped. -/
def needChar (c : Char) : Nat := if isSpecial c then 2 else weight [c]

def needString (s : List Char) : Nat := (s.map needChar).sum

@[simp] theorem readString_quote_nil (s : List Char) : readString ('"' :: s) = some ([], s) := rfl

theorem readString_plain {c : Char} (h : isSpecial c = false) (s : List Char) :
    readString (c :: s) = push c (readString s) := by
  simp only [isSpecial, Bool.or_eq_false_iff, beq_eq_false_iff_ne] at h
  rw [readString.eq_def]
  split <;> simp_all [isSpecial]

theorem codeUnit_control {n : Nat} (h : n < 0x20) :
    codeUnit '0' '0' (hexDigit (n / 16)) (hexDigit (n % 16)) = some n := by
  revert n
  decide

/-- **Escaping reads back**, character by character. -/
theorem readString_escape (c : Char) (s : List Char) :
    readString (escape c ++ s) = push c (readString s) := by
  by_cases hq : c = '"' ∨ c = '\\'
  · rw [escape, if_pos hq]
    rcases hq with rfl | rfl <;> rfl
  · rw [escape, if_neg hq]
    by_cases hctl : isControl c = true
    · have hlt : c.toNat < 0x20 := by simpa [isControl] using hctl
      have hchar : Char.ofNat c.toNat = c := Char.ofNat_toNat c
      rw [if_pos hctl]
      simp only [List.cons_append, List.nil_append, readString, codeUnit_control hlt]
      rw [if_pos (by omega), hchar]
    · rw [if_neg hctl]
      refine readString_plain ?_ s
      simp only [isSpecial, Bool.or_eq_false_iff, beq_eq_false_iff_ne]
      simp only [not_or] at hq
      exact ⟨hq, by simpa using hctl⟩

theorem readString_quote (s rest : List Char) :
    readString (s.flatMap escape ++ '"' :: rest) = some (s, rest) := by
  induction s with
  | nil => rfl
  | cons c s ih =>
    rw [List.flatMap_cons, List.append_assoc, readString_escape, ih]
    rfl

/-- Behind a string there is less text. -/
theorem length_of_readString {s t rest : List Char} (h : readString s = some (t, rest)) :
    rest.length < s.length := by
  have hpush : ∀ {c : Char} {s t rest : List Char},
      (∀ {t rest : List Char}, readString s = some (t, rest) → rest.length < s.length) →
      push c (readString s) = some (t, rest) → rest.length < s.length := by
    intro c s t rest ih hread
    obtain ⟨⟨t', rest'⟩, hread, hpush⟩ := Option.map_eq_some_iff.mp hread
    cases hpush
    exact ih hread
  fun_induction readString s generalizing t rest with
  | case1 s =>
    cases h
    simp
  | case3 a b c d s _ _ _ ih =>
    have hlt := hpush ih h
    simp only [List.length_cons]
    omega
  | case5 a b c d n _ _ e f g k s _ _ _ ih =>
    have hlt := hpush ih h
    simp only [List.length_cons]
    omega
  | case8 e s _ c he ih =>
    have hlt := hpush ih h
    simp only [List.length_cons]
    omega
  | case11 c s _ _ _ hplain ih =>
    have hlt := hpush ih h
    simp only [List.length_cons]
    omega
  | _ => cases h

/-! ## What a string takes -/

theorem needString_cons (c : Char) (s : List Char) :
    needString (c :: s) = needChar c + needString s := rfl

theorem escape_of_plain {c : Char} (hc : isSpecial c = false) : escape c = [c] := by
  simp only [isSpecial, Bool.or_eq_false_iff, beq_eq_false_iff_ne] at hc
  simp [escape, hc]

/-- A text of characters that stand for themselves is printed as it is. -/
theorem quote_of_plain {s : List Char} (hs : ∀ c ∈ s, isSpecial c = false) :
    quote s = '"' :: (s ++ ['"']) := by
  rw [quote, List.flatMap_congr fun c hc => escape_of_plain (hs c hc), List.flatMap_singleton']

theorem needString_of_plain {s : List Char} (hs : ∀ c ∈ s, isSpecial c = false) :
    needString s = weight s := by
  induction s with
  | nil => rfl
  | cons c s ih =>
    obtain ⟨hc, hs⟩ := List.forall_mem_cons.mp hs
    have hsplit : weight (c :: s) = weight [c] + weight s := weight_append [c] s
    rw [needString_cons, ih hs, needChar, hc, hsplit]
    rfl

theorem weight_singleton_le (c : Char) : weight [c] ≤ 1 := by
  rw [weight_cons, weight_nil]
  split <;> omega

/-- No character takes more than two. -/
theorem needChar_le_two (c : Char) : needChar c ≤ 2 := by
  have hle := weight_singleton_le c
  unfold needChar
  split <;> omega

theorem weight_le_needChar (c : Char) : weight [c] ≤ needChar c := by
  have hle := weight_singleton_le c
  unfold needChar
  split <;> omega

/-- A character that is written as it is takes as much as it needs only if it
stands for itself. -/
theorem plain_of_needChar_le {c : Char} (h : needChar c ≤ weight [c]) : isSpecial c = false := by
  have hle := weight_singleton_le c
  by_contra hspecial
  rw [needChar, if_pos (by simpa using hspecial)] at h
  omega

theorem weight_unescape {e c : Char} (h : unescape e = some c) : weight ['\\', e] = 2 := by
  unfold unescape at h
  split at h
  all_goals first | decide | cases h

/-- A character in front, spelled in `pre` with the weight that it takes. -/
theorem need_of_push {c : Char} (pre : List Char) {s t rest : List Char}
    (ih : ∀ {t rest : List Char}, readString s = some (t, rest) →
      needString t + 1 + weight rest ≤ weight s)
    (h : push c (readString s) = some (t, rest))
    (hpre : needChar c ≤ weight pre) :
    needString t + 1 + weight rest ≤ weight (pre ++ s) := by
  obtain ⟨⟨t', rest'⟩, hread, hpush⟩ := Option.map_eq_some_iff.mp h
  obtain ⟨rfl, rfl⟩ : c :: t' = t ∧ rest' = rest := by simpa using hpush
  have hle := ih hread
  rw [needString_cons, weight_append]
  omega

theorem two_le_weight_unicode (s : List Char) : 2 ≤ weight ('\\' :: 'u' :: s) := by
  have hpre : weight ('\\' :: 'u' :: s) = 2 + weight s := weight_append ['\\', 'u'] s
  omega

/-- **No spelling of a string takes less than it needs.** -/
theorem need_of_readString {s t rest : List Char} (h : readString s = some (t, rest)) :
    needString t + 1 + weight rest ≤ weight s := by
  fun_induction readString s generalizing t rest with
  | case1 s =>
    obtain ⟨rfl, rfl⟩ : [] = t ∧ s = rest := by simpa using h
    have hquote : weight ('"' :: s) = 1 + weight s := weight_append ['"'] s
    simp [needString, hquote]
  | case3 a b c d s _ _ _ ih =>
    exact need_of_push ['\\', 'u', a, b, c, d] ih h
      ((needChar_le_two _).trans (two_le_weight_unicode _))
  | case5 a b c d n _ _ e f g k s _ _ _ ih =>
    exact need_of_push ['\\', 'u', a, b, c, d, '\\', 'u', e, f, g, k] ih h
      ((needChar_le_two _).trans (two_le_weight_unicode _))
  | case8 e s _ c he ih =>
    exact need_of_push ['\\', e] ih h
      ((needChar_le_two c).trans (weight_unescape he).ge)
  | case11 c s _ _ _ hplain ih =>
    exact need_of_push [c] ih h (by rw [needChar, if_neg hplain])
  | _ => cases h

/-! ## Numbers -/

/-- The digits of a part that has to have one, as a number. -/
def digits (s : List Char) : Option Nat :=
  if s ≠ [] ∧ s.all Char.isDigit then some (Nat.ofDigitChars 10 s 0) else none

/-- The integer part: no zero in front of other digits. -/
def integerPart (s : List Char) : Option Nat :=
  if s.head? = some '0' ∧ s.length ≠ 1 then none else digits s

/-- The digits of a fraction, and what follows it. -/
def fraction : List Char → Option (List Char × List Char)
  | '.' :: s =>
    let part := s.takeWhile Char.isDigit
    if part = [] then none else some (part, s.dropWhile Char.isDigit)
  | s => some ([], s)

def exponent : List Char → Option Int
  | [] => some 0
  | c :: s =>
    if c = 'e' ∨ c = 'E' then
      match s with
      | '-' :: s => (digits s).map fun n => -(n : Int)
      | '+' :: s => (digits s).map fun n => (n : Int)
      | s => (digits s).map fun n => (n : Int)
    else none

/-- An unsigned number. -/
def magnitude (s : List Char) : Option ℚ := do
  let int ← integerPart (s.takeWhile Char.isDigit)
  let (frac, s) ← fraction (s.dropWhile Char.isDigit)
  let e ← exponent s
  return (Nat.ofDigitChars 10 frac int : ℚ) * 10 ^ (e - frac.length)

/-- What a number literal denotes. -/
def numberValue : List Char → Option ℚ
  | '-' :: s => (magnitude s).map fun q => -q
  | s => magnitude s

theorem head_digitChar : ∀ n < 10, [Nat.digitChar n].head? = some '0' → n = 0 := by
  decide

/-- The decimal digits of a number have no zero in front of others. -/
theorem head_toDigits {n : Nat} (h : (Nat.toDigits 10 n).head? = some '0') : n = 0 := by
  induction n using Nat.strongRecOn with
  | ind n ih =>
    obtain hlt | hle := Nat.lt_or_ge n 10
    · rw [Nat.toDigits_of_lt_base hlt] at h
      exact head_digitChar n hlt h
    · rw [Nat.toDigits_of_base_le (by decide) hle] at h
      have hne : Nat.toDigits 10 (n / 10) ≠ [] := Nat.toDigits_ne_nil
      rw [List.head?_append, List.head?_eq_some_head hne, Option.some_or,
        ← List.head?_eq_some_head hne] at h
      have hzero := ih (n / 10) (Nat.div_lt_self (by omega) (by decide)) h
      omega

theorem takeWhile_toDigits (n : Nat) :
    (Nat.toDigits 10 n).takeWhile Char.isDigit = Nat.toDigits 10 n :=
  List.takeWhile_eq_self_iff.mpr fun _ hc => isDigit_toDigits hc

theorem dropWhile_toDigits (n : Nat) : (Nat.toDigits 10 n).dropWhile Char.isDigit = [] :=
  dropWhile_of_all fun _ hc => isDigit_toDigits hc

theorem integerPart_toDigits (n : Nat) : integerPart (Nat.toDigits 10 n) = some n := by
  have hall : (Nat.toDigits 10 n).all Char.isDigit = true :=
    List.all_eq_true.mpr fun _ hc => isDigit_toDigits hc
  have hzero : ¬ ((Nat.toDigits 10 n).head? = some '0' ∧ (Nat.toDigits 10 n).length ≠ 1) := by
    rintro ⟨hhead, hlen⟩
    rw [head_toDigits hhead] at hlen
    exact hlen rfl
  rw [integerPart, if_neg hzero, digits, if_pos ⟨Nat.toDigits_ne_nil, hall⟩,
    Nat.ofDigitChars_ten_toDigits]

/-- A decimal numeral denotes its number. -/
theorem numberValue_toDigits (n : Nat) : numberValue (Nat.toDigits 10 n) = some (n : ℚ) := by
  have hminus : ∀ s, Nat.toDigits 10 n ≠ '-' :: s := by
    intro s hs
    have hdigit : ('-' : Char).isDigit = true := isDigit_toDigits (by rw [hs]; simp)
    simp at hdigit
  have hmagnitude : magnitude (Nat.toDigits 10 n) = some (n : ℚ) := by
    simp [magnitude, takeWhile_toDigits, dropWhile_toDigits, integerPart_toDigits, fraction,
      exponent]
  unfold numberValue
  split
  · next s hs => exact absurd hs (hminus s)
  · exact hmagnitude

end Oaat.Lib.Json
