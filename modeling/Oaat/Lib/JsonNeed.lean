/-
Oaat.Lib.JsonNeed — what a JSON value takes of a text, however it is spelled.

`Value.need` counts the characters that every spelling has, apart from those of
numbers: two for a character that has to be escaped, and brackets, commas,
colons and quotation marks. What is read takes as much (`need_of_parse`), in any
order of its members. So a printer that forgets escapes is caught by counting:
a text that is lighter than its value does not spell it (`Spells.parse_iff`).
-/
import Oaat.Lib.Json
import Mathlib.Algebra.Order.BigOperators.Group.List
import Mathlib.Algebra.Order.Ring.Nat

namespace Oaat.Lib.Json

open Oaat.Lib.Text

/-! ## What a value takes -/

mutual

/-- What a value takes of the weight of a text. -/
def Value.need : Value → Nat
  | .null => 4
  | .bool true => 3
  | .bool false => 4
  | .number _ => 0
  | .string s => needString s + 2
  | .array items => needItems items + 1
  | .object members => needMembers members + 1

def needItems : List Value → Nat
  | [] => 1
  | [item] => item.need + 1
  | item :: items => item.need + 1 + needItems items

def needMembers : List (List Char × Value) → Nat
  | [] => 1
  | [(key, item)] => needString key + 2 + 1 + item.need + 1
  | (key, item) :: members => needString key + 2 + 1 + item.need + 1 + needMembers members

end

theorem weight_skip (s : List Char) : weight (skip s) ≤ weight s :=
  (List.dropWhile_sublist isSpace).countP_le

/-- Whitespace and a character of the grammar in front. -/
theorem weight_of_skip {s rest : List Char} {c : Char} (h : skip s = c :: rest)
    (hc : isNumberChar c = false) : 1 + weight rest ≤ weight s := by
  have hle := weight_skip s
  rw [h, weight_cons, hc] at hle
  simpa [Nat.add_comm] using hle

theorem need_of_readAtom {s rest : List Char} {v : Value} (h : readAtom s = some (v, rest)) :
    v.need + weight rest ≤ weight s := by
  unfold readAtom at h
  split at h
  · next s =>
    obtain ⟨rfl, rfl⟩ : Value.null = v ∧ s = rest := by simpa using h
    exact (weight_append ['n', 'u', 'l', 'l'] s).ge
  · next s =>
    obtain ⟨rfl, rfl⟩ : Value.bool true = v ∧ s = rest := by simpa using h
    exact (weight_append ['t', 'r', 'u', 'e'] s).ge
  · next s =>
    obtain ⟨rfl, rfl⟩ : Value.bool false = v ∧ s = rest := by simpa using h
    exact (weight_append ['f', 'a', 'l', 's', 'e'] s).ge
  · obtain ⟨q, -, hq⟩ := Option.map_eq_some_iff.mp h
    obtain ⟨rfl, rfl⟩ : Value.number q = v ∧ s.dropWhile isNumberChar = rest := by simpa using hq
    rw [Value.need, Nat.zero_add]
    exact (List.dropWhile_sublist isNumberChar).countP_le

section

variable {fuel : Nat} {s rest : List Char}

/-- What is read with less fuel takes no more than its text. -/
structure Frugal (fuel : Nat) : Prop where
  value : ∀ {s rest v}, readValue fuel s = some (v, rest) → v.need + weight rest ≤ weight s
  items : ∀ {s rest items}, readItems fuel s = some (items, rest) →
    needItems items + weight rest ≤ weight s
  members : ∀ {s rest members}, readMembers fuel s = some (members, rest) →
    needMembers members + weight rest ≤ weight s

theorem Frugal.value_succ (ih : Frugal fuel) {v : Value}
    (h : readValue (fuel + 1) s = some (v, rest)) : v.need + weight rest ≤ weight s := by
  cases readValue_succ.mp h with
  | emptyObject ht hclose =>
    have hbrace := weight_of_skip ht rfl
    have hend := weight_of_skip hclose rfl
    simp only [Value.need, needMembers]
    omega
  | object ht hclose hread =>
    have hbrace := weight_of_skip ht rfl
    have hle := ih.members hread
    simp only [Value.need]
    omega
  | emptyArray ht hclose =>
    have hbracket := weight_of_skip ht rfl
    have hend := weight_of_skip hclose rfl
    simp only [Value.need, needItems]
    omega
  | array ht hclose hread =>
    have hbracket := weight_of_skip ht rfl
    have hle := ih.items hread
    simp only [Value.need]
    omega
  | string ht hread =>
    have hquote := weight_of_skip ht rfl
    have hle := need_of_readString hread
    simp only [Value.need]
    omega
  | atom hbrace hbracket hquote hread => exact (need_of_readAtom hread).trans (weight_skip s)

theorem needItems_cons_le (item : Value) (items : List Value) :
    needItems (item :: items) ≤ item.need + 1 + needItems items := by
  cases items <;> simp [needItems]

theorem needMembers_cons_le (key : List Char) (item : Value)
    (members : List (List Char × Value)) :
    needMembers ((key, item) :: members) ≤
      needString key + 2 + 1 + item.need + 1 + needMembers members := by
  cases members <;> simp [needMembers]

theorem Frugal.items_succ (ih : Frugal fuel) {items : List Value}
    (h : readItems (fuel + 1) s = some (items, rest)) :
    needItems items + weight rest ≤ weight s := by
  cases readItems_succ.mp h with
  | last hitem ht =>
    have hle := ih.value hitem
    have hclose := weight_of_skip ht rfl
    simp only [needItems]
    omega
  | @more item items t u hitem ht hread =>
    have hle := ih.value hitem
    have hcomma := weight_of_skip ht rfl
    have hmore := ih.items hread
    have hcons := needItems_cons_le item items
    omega

theorem Frugal.members_succ (ih : Frugal fuel) {members : List (List Char × Value)}
    (h : readMembers (fuel + 1) s = some (members, rest)) :
    needMembers members + weight rest ≤ weight s := by
  cases readMembers_succ.mp h with
  | last ht hkey hu hitem hx =>
    have hquote := weight_of_skip ht rfl
    have hneed := need_of_readString hkey
    have hcolon := weight_of_skip hu rfl
    have hle := ih.value hitem
    have hclose := weight_of_skip hx rfl
    simp only [needMembers]
    omega
  | @more key t u w x y item members ht hkey hu hitem hx hread =>
    have hquote := weight_of_skip ht rfl
    have hneed := need_of_readString hkey
    have hcolon := weight_of_skip hu rfl
    have hle := ih.value hitem
    have hcomma := weight_of_skip hx rfl
    have hmore := ih.members hread
    have hcons := needMembers_cons_le key item members
    omega

theorem frugal (fuel : Nat) : Frugal fuel := by
  induction fuel with
  | zero =>
    refine ⟨?_, ?_, ?_⟩ <;> intro _ _ _ h
    · simp [readValue] at h
    · simp [readItems] at h
    · simp [readMembers] at h
  | succ fuel ih => exact ⟨ih.value_succ, ih.items_succ, ih.members_succ⟩

end

/-- **No text of a value takes less than it needs.** -/
theorem need_of_parse {text : List Char} {v : Value} (h : parse text = some v) :
    v.need ≤ weight text := by
  obtain ⟨fuel, rest, hread, -⟩ := parse_eq_some_iff.mp h
  have hle := (frugal fuel).value hread
  omega

theorem needItems_eq (items : List Value) :
    needItems items = (items.map Value.need).sum + max 1 items.length := by
  induction items with
  | nil => rfl
  | cons item items ih =>
    cases items with
    | nil => simp [needItems]
    | cons next items =>
      rw [needItems, ih]
      · simp only [List.map_cons, List.sum_cons, List.length_cons]
        omega
      · simp

/-- What a member takes, without the comma or the brace behind it. -/
def needMember (m : List Char × Value) : Nat := needString m.1 + 2 + 1 + m.2.need

theorem needMembers_eq (members : List (List Char × Value)) :
    needMembers members = (members.map needMember).sum + max 1 members.length := by
  induction members with
  | nil => rfl
  | cons m members ih =>
    cases members with
    | nil => simp [needMembers, needMember]
    | cons next members =>
      rw [needMembers, ih]
      · simp only [List.map_cons, List.sum_cons, List.length_cons, needMember]
        omega
      · simp

/-- The members of an object take what they take in any order. -/
theorem needMembers_perm {ms ms' : List (List Char × Value)} (h : ms.Perm ms') :
    needMembers ms = needMembers ms' := by
  rw [needMembers_eq, needMembers_eq, (h.map needMember).sum_nat, h.length_eq]

/-! ## Texts of another printer -/

/-- The text takes no more than the value needs. If it takes as much then `C`
holds, and then it is the printed text. -/
structure Spells (text : List Char) (v : Value) (C : Prop) : Prop where
  light : weight text ≤ v.need
  full : v.need ≤ weight text → C
  printed : C → text = v.render

/-- Texts with commas between them, and a bracket behind them. -/
def joined (close : Char) (texts : List (List Char)) : List Char :=
  [','].intercalate texts ++ [close]

theorem joined_cons_cons (close : Char) (text next : List Char) (texts : List (List Char)) :
    joined close (text :: next :: texts) = text ++ ',' :: joined close (next :: texts) := by
  simp [joined, List.intercalate_cons_cons]

theorem weight_joined {close : Char} (hclose : isNumberChar close = false)
    (texts : List (List Char)) :
    weight (joined close texts) = (texts.map weight).sum + max 1 texts.length := by
  have hbracket : weight [close] = 1 := by rw [weight_cons, hclose]; rfl
  have hcomma : ∀ s : List Char, weight (',' :: s) = weight s + 1 := fun s => weight_cons ',' s
  induction texts with
  | nil => exact hbracket
  | cons text texts ih =>
    cases texts with
    | nil => simp [joined, hbracket]
    | cons next texts =>
      rw [joined_cons_cons, weight_append, hcomma, ih]
      simp only [List.map_cons, List.sum_cons, List.length_cons]
      omega

theorem joined_map_render (items : List Value) :
    joined ']' (items.map Value.render) = renderItems items := by
  induction items with
  | nil => rfl
  | cons item items ih =>
    cases items with
    | nil => simp [joined, renderItems]
    | cons next items =>
      rw [List.map_cons, List.map_cons, joined_cons_cons, ← List.map_cons, ih,
        renderItems_cons_cons]

theorem joined_map_renderMember (members : List (List Char × Value)) :
    joined '}' (members.map renderMember) = renderMembers members := by
  induction members with
  | nil => rfl
  | cons m members ih =>
    cases members with
    | nil => simp [joined, renderMembers, renderMember]
    | cons next members =>
      rw [List.map_cons, List.map_cons, joined_cons_cons, ← List.map_cons, ih,
        renderMembers_cons_cons]

section

variable {α : Type} {xs : List α}

/-- Where no summand is larger, the sums are equal only if all summands are. -/
theorem le_of_sum_map_le {f g : α → Nat} (h : ∀ x ∈ xs, f x ≤ g x)
    (hsum : (xs.map g).sum ≤ (xs.map f).sum) : ∀ x ∈ xs, g x ≤ f x := by
  intro x hx
  by_contra hlt
  have hless := List.sum_lt_sum f g h ⟨x, hx, by omega⟩
  omega

variable {text : α → List Char} {value : α → Value} {C : α → Prop}

/-- An array, item by item. -/
theorem Spells.array (h : ∀ x ∈ xs, Spells (text x) (value x) (C x)) :
    Spells ('[' :: joined ']' (xs.map text)) (.array (xs.map value)) (∀ x ∈ xs, C x) := by
  have hlight : ∀ x ∈ xs, weight (text x) ≤ (value x).need := fun x hx => (h x hx).light
  have hweight : weight ('[' :: joined ']' (xs.map text)) =
      (xs.map fun x => weight (text x)).sum + max 1 xs.length + 1 := by
    rw [weight_cons, weight_joined rfl, List.map_map, List.length_map]
    rfl
  have hneed : (Value.array (xs.map value)).need =
      (xs.map fun x => (value x).need).sum + max 1 xs.length + 1 := by
    rw [Value.need, needItems_eq, List.map_map, List.length_map]
    rfl
  have hsum := List.sum_le_sum hlight
  constructor
  · omega
  · intro hle x hx
    exact (h x hx).full (le_of_sum_map_le hlight (by omega) x hx)
  · intro hall
    have htexts : xs.map text = (xs.map value).map Value.render := by
      rw [List.map_map]
      exact List.map_congr_left fun x hx => (h x hx).printed (hall x hx)
    rw [htexts, joined_map_render, Value.render]

/-- A string, character by character. -/
theorem Spells.string {f : Char → List Char} {C : Char → Prop}
    (light : ∀ c, weight (f c) ≤ needChar c) (full : ∀ c, needChar c ≤ weight (f c) → C c)
    (printed : ∀ c, C c → f c = escape c) (s : List Char) :
    Spells ('"' :: (s.flatMap f ++ ['"'])) (.string s) (∀ c ∈ s, C c) := by
  have hweight : weight ('"' :: (s.flatMap f ++ ['"'])) =
      (s.map fun c => weight (f c)).sum + 2 := by
    have hquote : weight ['"'] = 1 := rfl
    have hopen : weight ('"' :: (s.flatMap f ++ ['"'])) = weight (s.flatMap f ++ ['"']) + 1 :=
      weight_cons ..
    rw [hopen, weight_append, hquote, weight, List.countP_flatMap]
    rfl
  have hneed : (Value.string s).need = (s.map needChar).sum + 2 := rfl
  have hsum : (s.map fun c => weight (f c)).sum ≤ (s.map needChar).sum :=
    List.sum_le_sum fun c _ => light c
  constructor
  · omega
  · intro hle c hc
    exact full c (le_of_sum_map_le (fun c _ => light c) (by omega) c hc)
  · intro hall
    rw [Value.render, quote, List.flatMap_congr fun c hc => printed c (hall c hc)]

/-- A literal name or a number that is printed alike. -/
theorem Spells.atom {s : List Char} {v : Value} (hs : s = v.render)
    (hw : weight v.render = v.need) : Spells s v True :=
  ⟨by rw [hs, hw], fun _ => trivial, fun _ => hs⟩

theorem Spells.nat (n : Nat) : Spells (Nat.toDigits 10 n) (.number n) True := by
  have hnum : ((n : ℚ)).num.toNat = n := by simp
  refine .atom (by rw [Value.render, hnum]) ?_
  rw [Value.render, hnum, Value.need, weight, List.countP_eq_zero]
  intro c hc
  simp [isNumberChar_of_isDigit (isDigit_toDigits hc)]

/-- A member whose name is written as it is. -/
def memberText (name text : List Char) : List Char := '"' :: (name ++ ['"']) ++ ':' :: text

theorem weight_memberText {name : List Char} (hname : ∀ c ∈ name, isSpecial c = false)
    (s : List Char) (v : Value) :
    weight (memberText name s) + v.need = needMember (name, v) + weight s := by
  have hquote : weight ['"'] = 1 := rfl
  have hcolon : ∀ s : List Char, weight (':' :: s) = weight s + 1 := fun s => weight_cons ':' s
  have hopen : weight ('"' :: (name ++ ['"'])) = weight (name ++ ['"']) + 1 := weight_cons ..
  have hneed : needMember (name, v) = weight name + 2 + 1 + v.need := by
    rw [← needString_of_plain hname]
    rfl
  rw [hneed, memberText, weight_append, hopen, weight_append, hquote, hcolon]
  omega

/-- An object, member by member, with such names. -/
theorem Spells.object {name : α → List Char}
    (hname : ∀ x ∈ xs, ∀ c ∈ name x, isSpecial c = false)
    (h : ∀ x ∈ xs, Spells (text x) (value x) (C x)) :
    Spells ('{' :: joined '}' (xs.map fun x => memberText (name x) (text x)))
      (.object (xs.map fun x => (name x, value x))) (∀ x ∈ xs, C x) := by
  have hlight : ∀ x ∈ xs, weight (memberText (name x) (text x)) ≤
      needMember (name x, value x) := by
    intro x hx
    have hmember := weight_memberText (hname x hx) (text x) (value x)
    have hle := (h x hx).light
    omega
  have hweight : weight
      ('{' :: joined '}' (xs.map fun x => memberText (name x) (text x))) =
      (xs.map fun x => weight (memberText (name x) (text x))).sum +
        max 1 xs.length + 1 := by
    rw [weight_cons, weight_joined rfl, List.map_map, List.length_map]
    rfl
  have hneed : (Value.object (xs.map fun x => (name x, value x))).need =
      (xs.map fun x => needMember (name x, value x)).sum + max 1 xs.length + 1 := by
    rw [Value.need, needMembers_eq, List.map_map, List.length_map]
    rfl
  have hsum := List.sum_le_sum hlight
  constructor
  · omega
  · intro hle x hx
    have hfull := le_of_sum_map_le hlight (by omega) x hx
    have hmember := weight_memberText (hname x hx) (text x) (value x)
    exact (h x hx).full (by omega)
  · intro hall
    have htexts : (xs.map fun x => memberText (name x) (text x)) =
        (xs.map fun x => (name x, value x)).map renderMember := by
      rw [List.map_map]
      refine List.map_congr_left fun x hx => ?_
      simp only [Function.comp, memberText, renderMember, quote_of_plain (hname x hx),
        (h x hx).printed (hall x hx)]
    rw [htexts, joined_map_renderMember, Value.render]

end

/-- **An object that another printer wrote is read back**, as its members in any
order, exactly if its text takes as much as they need. -/
theorem Spells.parse_iff {text : List Char} {members : List (List Char × Value)} {C : Prop}
    (h : Spells text (.object members) C) (hnat : (Value.object members).Natural) :
    (∃ ms, parse text = some (.object ms) ∧ ms.Perm members) ↔ C := by
  constructor
  · rintro ⟨ms, hparse, hperm⟩
    have hneed := need_of_parse hparse
    rw [Value.need, needMembers_perm hperm] at hneed
    exact h.full hneed
  · intro hC
    refine ⟨members, ?_, .refl members⟩
    rw [h.printed hC]
    exact parse_render hnat

end Oaat.Lib.Json
