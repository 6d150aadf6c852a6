/-
Oaat.Lib.Json — JSON texts (RFC 8259) and what they denote.

A value is read by recursive descent, with fuel that a text of its length
never exhausts. Members keep the order and the multiplicity of the text.
-/
import Oaat.Lib.JsonText

namespace Oaat.Lib.Json

open Oaat.Lib.Text

/-- What a JSON text denotes. -/
inductive Value where
  | null
  | bool (b : Bool)
  | number (q : ℚ)
  | string (s : List Char)
  | array (items : List Value)
  | object (members : List (List Char × Value))

/-! ## The parser -/

def isSpace (c : Char) : Bool := c == ' ' || c == '\t' || c == '\n' || c == '\r'

/-- Behind insignificant whitespace. -/
def skip (s : List Char) : List Char := s.dropWhile isSpace

def readNumber (s : List Char) : Option (Value × List Char) :=
  (numberValue (s.takeWhile isNumberChar)).map fun q => (.number q, s.dropWhile isNumberChar)

/-- A literal name or a number. -/
def readAtom (s : List Char) : Option (Value × List Char) :=
  match s with
  | 'n' :: 'u' :: 'l' :: 'l' :: s => some (.null, s)
  | 't' :: 'r' :: 'u' :: 'e' :: s => some (.bool true, s)
  | 'f' :: 'a' :: 'l' :: 's' :: 'e' :: s => some (.bool false, s)
  | s => readNumber s

mutual

/-- A value, and what follows it. -/
def readValue : Nat → List Char → Option (Value × List Char)
  | 0, _ => none
  | fuel + 1, s =>
    match skip s with
    | '{' :: s =>
      match skip s with
      | '}' :: s => some (.object [], s)
      | _ => (readMembers fuel s).map fun (members, s) => (.object members, s)
    | '[' :: s =>
      match skip s with
      | ']' :: s => some (.array [], s)
      | _ => (readItems fuel s).map fun (items, s) => (.array items, s)
    | '"' :: s => (readString s).map fun (t, s) => (.string t, s)
    | s => readAtom s

/-- The items of an array that has one, and what follows its bracket. -/
def readItems : Nat → List Char → Option (List Value × List Char)
  | 0, _ => none
  | fuel + 1, s => do
    let (item, s) ← readValue fuel s
    match skip s with
    | ',' :: s => (readItems fuel s).map fun (items, s) => (item :: items, s)
    | ']' :: s => some ([item], s)
    | _ => none

/-- The members of an object that has one, and what follows its brace. -/
def readMembers : Nat → List Char → Option (List (List Char × Value) × List Char)
  | 0, _ => none
  | fuel + 1, s =>
    match skip s with
    | '"' :: s => do
      let (key, s) ← readString s
      match skip s with
      | ':' :: s => do
        let (item, s) ← readValue fuel s
        match skip s with
        | ',' :: s => (readMembers fuel s).map fun (members, s) => ((key, item) :: members, s)
        | '}' :: s => some ([(key, item)], s)
        | _ => none
      | _ => none
    | _ => none

end

/-- The value of a JSON text. -/
def parse (text : List Char) : Option Value :=
  match readValue (text.length + 1) text with
  | some (v, rest) => if skip rest = [] then some v else none
  | none => none

/-! ## The printer -/

mutual

/-- A text of the value; its numbers are integers. -/
def Value.render : Value → List Char
  | .null => ['n', 'u', 'l', 'l']
  | .bool true => ['t', 'r', 'u', 'e']
  | .bool false => ['f', 'a', 'l', 's', 'e']
  | .number q => Nat.toDigits 10 q.num.toNat
  | .string s => quote s
  | .array items => '[' :: renderItems items
  | .object members => '{' :: renderMembers members

def renderItems : List Value → List Char
  | [] => [']']
  | [item] => item.render ++ [']']
  | item :: items => item.render ++ ',' :: renderItems items

def renderMembers : List (List Char × Value) → List Char
  | [] => ['}']
  | [(key, item)] => quote key ++ ':' :: item.render ++ ['}']
  | (key, item) :: members => quote key ++ ':' :: item.render ++ ',' :: renderMembers members

end

theorem renderItems_cons_cons (item next : Value) (items : List Value) :
    renderItems (item :: next :: items) = item.render ++ ',' :: renderItems (next :: items) := by
  rw [renderItems]
  simp

/-- The text of a member. -/
def renderMember (m : List Char × Value) : List Char := quote m.1 ++ ':' :: m.2.render

theorem renderMembers_cons_cons (m next : List Char × Value)
    (members : List (List Char × Value)) :
    renderMembers (m :: next :: members) =
      renderMember m ++ ',' :: renderMembers (next :: members) := by
  rw [renderMembers, renderMember, List.append_assoc, List.cons_append]
  simp

/-! ## Fuel -/

theorem length_skip (s : List Char) : (skip s).length ≤ s.length :=
  (List.dropWhile_sublist isSpace).length_le

theorem length_of_skip {s rest : List Char} {c : Char} (h : skip s = c :: rest) :
    rest.length < s.length := by
  have hle := length_skip s
  rw [h, List.length_cons] at hle
  omega

theorem length_of_readAtom {s rest : List Char} {v : Value} (h : readAtom s = some (v, rest)) :
    rest.length ≤ s.length := by
  unfold readAtom at h
  split at h
  · cases h
    exact Nat.le_add_right _ 4
  · cases h
    exact Nat.le_add_right _ 4
  · cases h
    exact Nat.le_add_right _ 5
  · obtain ⟨q, -, hq⟩ := Option.map_eq_some_iff.mp h
    cases hq
    exact (List.dropWhile_sublist isNumberChar).length_le

/-- How a value is read, with fuel for what is inside it. -/
inductive ReadsValue (fuel : Nat) (s rest : List Char) : Value → Prop where
  | emptyObject {t : List Char} (ht : skip s = '{' :: t) (hclose : skip t = '}' :: rest) :
      ReadsValue fuel s rest (.object [])
  | object {t : List Char} {members : List (List Char × Value)} (ht : skip s = '{' :: t)
      (hclose : ∀ u, skip t = '}' :: u → False) (h : readMembers fuel t = some (members, rest)) :
      ReadsValue fuel s rest (.object members)
  | emptyArray {t : List Char} (ht : skip s = '[' :: t) (hclose : skip t = ']' :: rest) :
      ReadsValue fuel s rest (.array [])
  | array {t : List Char} {items : List Value} (ht : skip s = '[' :: t)
      (hclose : ∀ u, skip t = ']' :: u → False) (h : readItems fuel t = some (items, rest)) :
      ReadsValue fuel s rest (.array items)
  | string {t str : List Char} (ht : skip s = '"' :: t) (h : readString t = some (str, rest)) :
      ReadsValue fuel s rest (.string str)
  | atom {v : Value} (hbrace : ∀ t, skip s = '{' :: t → False)
      (hbracket : ∀ t, skip s = '[' :: t → False) (hquote : ∀ t, skip s = '"' :: t → False)
      (h : readAtom (skip s) = some (v, rest)) : ReadsValue fuel s rest v

inductive ReadsItems (fuel : Nat) (s rest : List Char) : List Value → Prop where
  | last {item : Value} {t : List Char} (hitem : readValue fuel s = some (item, t))
      (ht : skip t = ']' :: rest) : ReadsItems fuel s rest [item]
  | more {item : Value} {items : List Value} {t u : List Char}
      (hitem : readValue fuel s = some (item, t)) (ht : skip t = ',' :: u)
      (h : readItems fuel u = some (items, rest)) : ReadsItems fuel s rest (item :: items)

inductive ReadsMembers (fuel : Nat) (s rest : List Char) : List (List Char × Value) → Prop where
  | last {key t u w x : List Char} {item : Value} (ht : skip s = '"' :: t)
      (hkey : readString t = some (key, u)) (hu : skip u = ':' :: w)
      (hitem : readValue fuel w = some (item, x)) (hx : skip x = '}' :: rest) :
      ReadsMembers fuel s rest [(key, item)]
  | more {key t u w x y : List Char} {item : Value} {members : List (List Char × Value)}
      (ht : skip s = '"' :: t) (hkey : readString t = some (key, u)) (hu : skip u = ':' :: w)
      (hitem : readValue fuel w = some (item, x)) (hx : skip x = ',' :: y)
      (h : readMembers fuel y = some (members, rest)) :
      ReadsMembers fuel s rest ((key, item) :: members)

section

variable {fuel : Nat} {s rest : List Char}

theorem readValue_succ {v : Value} :
    readValue (fuel + 1) s = some (v, rest) ↔ ReadsValue fuel s rest v := by
  rw [readValue]
  constructor
  · intro h
    split at h
    · next t ht =>
      split at h
      · next u hu =>
        cases h
        exact .emptyObject ht hu
      · next hclose =>
        obtain ⟨⟨members, r⟩, hread, hv⟩ := Option.map_eq_some_iff.mp h
        cases hv
        exact .object ht hclose hread
    · next t ht =>
      split at h
      · next u hu =>
        cases h
        exact .emptyArray ht hu
      · next hclose =>
        obtain ⟨⟨items, r⟩, hread, hv⟩ := Option.map_eq_some_iff.mp h
        cases hv
        exact .array ht hclose hread
    · next t ht =>
      obtain ⟨⟨str, r⟩, hread, hv⟩ := Option.map_eq_some_iff.mp h
      cases hv
      exact .string ht hread
    · next hbrace hbracket hquote => exact .atom hbrace hbracket hquote h
  · intro h
    cases h with
    | emptyObject ht hclose => simp only [ht, hclose]
    | object ht hclose h => simp [ht, h]
    | emptyArray ht hclose => simp only [ht, hclose]
    | array ht hclose h => simp [ht, h]
    | string ht h => simp [ht, h]
    | atom hbrace hbracket hquote h => simp [h]

theorem readItems_succ {items : List Value} :
    readItems (fuel + 1) s = some (items, rest) ↔ ReadsItems fuel s rest items := by
  rw [readItems]
  constructor
  · intro h
    obtain ⟨⟨item, t⟩, hitem, h⟩ := Option.bind_eq_some_iff.mp h
    simp only at h
    split at h
    · next u hu =>
      obtain ⟨⟨more, r⟩, hread, hv⟩ := Option.map_eq_some_iff.mp h
      cases hv
      exact .more hitem hu hread
    · next u hu =>
      cases h
      exact .last hitem hu
    · cases h
  · intro h
    cases h with
    | last hitem ht => simp [hitem, ht]
    | more hitem ht h => simp [hitem, ht, h]

theorem readMembers_succ {members : List (List Char × Value)} :
    readMembers (fuel + 1) s = some (members, rest) ↔ ReadsMembers fuel s rest members := by
  rw [readMembers]
  constructor
  · intro h
    split at h
    · next t ht =>
      obtain ⟨⟨key, u⟩, hkey, h⟩ := Option.bind_eq_some_iff.mp h
      simp only at h
      split at h
      · next w hw =>
        obtain ⟨⟨item, x⟩, hitem, h⟩ := Option.bind_eq_some_iff.mp h
        simp only at h
        split at h
        · next y hy =>
          obtain ⟨⟨more, r⟩, hread, hv⟩ := Option.map_eq_some_iff.mp h
          cases hv
          exact .more ht hkey hw hitem hy hread
        · next y hy =>
          cases h
          exact .last ht hkey hw hitem hy
        · cases h
      · cases h
    · cases h
  · intro h
    cases h with
    | last ht hkey hu hitem hx => simp [ht, hkey, hu, hitem, hx]
    | more ht hkey hu hitem hx h => simp [ht, hkey, hu, hitem, hx, h]

end

/-- What is read with this fuel is read with any fuel larger than the text that
was read. -/
structure Adequate (fuel : Nat) : Prop where
  value : ∀ {s rest v}, readValue fuel s = some (v, rest) → rest.length ≤ s.length ∧
    ∀ n, s.length < n + rest.length → readValue n s = some (v, rest)
  items : ∀ {s rest items}, readItems fuel s = some (items, rest) → rest.length < s.length ∧
    ∀ n, s.length < n + rest.length → readItems n s = some (items, rest)
  members : ∀ {s rest members}, readMembers fuel s = some (members, rest) →
    rest.length < s.length ∧
      ∀ n, s.length < n + rest.length → readMembers n s = some (members, rest)

/-- There is fuel where a text was read. -/
theorem forall_fuel {k l : Nat} {P : Nat → Prop} (hle : l ≤ k)
    (h : ∀ n, k < n + 1 + l → P (n + 1)) : ∀ n, k < n + l → P n := by
  intro n hn
  cases n with
  | zero => omega
  | succ n => exact h n hn

section

variable {fuel : Nat} {s rest : List Char}

theorem Adequate.value_succ (ih : Adequate fuel) {v : Value}
    (h : readValue (fuel + 1) s = some (v, rest)) : rest.length ≤ s.length ∧
      ∀ n, s.length < n + rest.length → readValue n s = some (v, rest) := by
  cases readValue_succ.mp h with
  | emptyObject ht hclose =>
    have hbrace := length_of_skip ht
    have hend := length_of_skip hclose
    exact ⟨by omega, forall_fuel (by omega) fun n _ => readValue_succ.mpr (.emptyObject ht hclose)⟩
  | object ht hclose hread =>
    have hbrace := length_of_skip ht
    obtain ⟨hlt, hmore⟩ := ih.members hread
    refine ⟨by omega, forall_fuel (by omega) fun n hn => ?_⟩
    exact readValue_succ.mpr (.object ht hclose (hmore n (by omega)))
  | emptyArray ht hclose =>
    have hbracket := length_of_skip ht
    have hend := length_of_skip hclose
    exact ⟨by omega, forall_fuel (by omega) fun n _ => readValue_succ.mpr (.emptyArray ht hclose)⟩
  | array ht hclose hread =>
    have hbracket := length_of_skip ht
    obtain ⟨hlt, hmore⟩ := ih.items hread
    refine ⟨by omega, forall_fuel (by omega) fun n hn => ?_⟩
    exact readValue_succ.mpr (.array ht hclose (hmore n (by omega)))
  | string ht hread =>
    have hquote := length_of_skip ht
    have hlt := length_of_readString hread
    exact ⟨by omega, forall_fuel (by omega) fun n _ => readValue_succ.mpr (.string ht hread)⟩
  | atom hbrace hbracket hquote hread =>
    have hle := (length_of_readAtom hread).trans (length_skip s)
    refine ⟨hle, forall_fuel hle fun n _ => ?_⟩
    exact readValue_succ.mpr (.atom hbrace hbracket hquote hread)

theorem Adequate.items_succ (ih : Adequate fuel) {items : List Value}
    (h : readItems (fuel + 1) s = some (items, rest)) : rest.length < s.length ∧
      ∀ n, s.length < n + rest.length → readItems n s = some (items, rest) := by
  cases readItems_succ.mp h with
  | last hitem ht =>
    obtain ⟨hle, hvalue⟩ := ih.value hitem
    have hclose := length_of_skip ht
    refine ⟨by omega, forall_fuel (by omega) fun n hn => ?_⟩
    exact readItems_succ.mpr (.last (hvalue n (by omega)) ht)
  | more hitem ht hread =>
    obtain ⟨hle, hvalue⟩ := ih.value hitem
    have hcomma := length_of_skip ht
    obtain ⟨hlt, hmore⟩ := ih.items hread
    refine ⟨by omega, forall_fuel (by omega) fun n hn => ?_⟩
    exact readItems_succ.mpr (.more (hvalue n (by omega)) ht (hmore n (by omega)))

theorem Adequate.members_succ (ih : Adequate fuel) {members : List (List Char × Value)}
    (h : readMembers (fuel + 1) s = some (members, rest)) : rest.length < s.length ∧
      ∀ n, s.length < n + rest.length → readMembers n s = some (members, rest) := by
  cases readMembers_succ.mp h with
  | last ht hkey hu hitem hx =>
    have hquote := length_of_skip ht
    have hstring := length_of_readString hkey
    have hcolon := length_of_skip hu
    obtain ⟨hle, hvalue⟩ := ih.value hitem
    have hclose := length_of_skip hx
    refine ⟨by omega, forall_fuel (by omega) fun n hn => ?_⟩
    exact readMembers_succ.mpr (.last ht hkey hu (hvalue n (by omega)) hx)
  | more ht hkey hu hitem hx hread =>
    have hquote := length_of_skip ht
    have hstring := length_of_readString hkey
    have hcolon := length_of_skip hu
    obtain ⟨hle, hvalue⟩ := ih.value hitem
    have hcomma := length_of_skip hx
    obtain ⟨hlt, hmore⟩ := ih.members hread
    refine ⟨by omega, forall_fuel (by omega) fun n hn => ?_⟩
    exact readMembers_succ.mpr (.more ht hkey hu (hvalue n (by omega)) hx (hmore n (by omega)))

theorem adequate (fuel : Nat) : Adequate fuel := by
  induction fuel with
  | zero =>
    refine ⟨?_, ?_, ?_⟩ <;> intro _ _ _ h
    · simp [readValue] at h
    · simp [readItems] at h
    · simp [readMembers] at h
  | succ fuel ih => exact ⟨ih.value_succ, ih.items_succ, ih.members_succ⟩

end

/-- **The length of a text is fuel enough**: what any fuel reads, `parse` reads. -/
theorem parse_eq_some_iff {text : List Char} {v : Value} :
    parse text = some v ↔ ∃ fuel rest, readValue fuel text = some (v, rest) ∧ skip rest = [] := by
  constructor
  · intro h
    unfold parse at h
    split at h
    · next w rest hread =>
      split at h
      · next hskip =>
        cases h
        exact ⟨_, rest, hread, hskip⟩
      · cases h
    · cases h
  · rintro ⟨fuel, rest, hread, hskip⟩
    have hall := ((adequate fuel).value hread).2 (text.length + 1) (by omega)
    simp [parse, hall, hskip]

/-! ## What is printed is read back -/

mutual

/-- All numbers of the value are natural numbers. -/
def Value.Natural : Value → Prop
  | .number q => ∃ n : Nat, q = n
  | .array items => NaturalItems items
  | .object members => NaturalMembers members
  | _ => True

def NaturalItems : List Value → Prop
  | [] => True
  | item :: items => item.Natural ∧ NaturalItems items

def NaturalMembers : List (List Char × Value) → Prop
  | [] => True
  | (_, item) :: members => item.Natural ∧ NaturalMembers members

end

/-- A number ends where the text goes on. -/
def EndsNumber (rest : List Char) : Prop := ∀ c s, rest = c :: s → isNumberChar c = false

theorem endsNumber_cons {c : Char} (s : List Char) (hc : isNumberChar c = false) :
    EndsNumber (c :: s) := by
  rintro d t ⟨rfl, rfl⟩
  exact hc

theorem skip_cons {c : Char} (s : List Char) (hc : isSpace c = false) : skip (c :: s) = c :: s := by
  simp [skip, hc]

theorem isNumberChar_of_isDigit {c : Char} (h : c.isDigit = true) : isNumberChar c = true := by
  simp [isNumberChar, h]

theorem readNumber_toDigits (n : Nat) {rest : List Char} (hrest : EndsNumber rest) :
    readNumber (Nat.toDigits 10 n ++ rest) = some (.number n, rest) := by
  have hall : ∀ c ∈ Nat.toDigits 10 n, isNumberChar c = true := fun c hc =>
    isNumberChar_of_isDigit (isDigit_toDigits hc)
  have htake : rest.takeWhile isNumberChar = [] := by
    cases rest with
    | nil => rfl
    | cons c s => simp [hrest c s rfl]
  have hdrop : rest.dropWhile isNumberChar = rest := by
    cases rest with
    | nil => rfl
    | cons c s => simp [hrest c s rfl]
  rw [readNumber, List.takeWhile_append_of_pos hall, List.dropWhile_append_of_pos hall, htake,
    hdrop, List.append_nil, numberValue_toDigits]
  rfl

theorem isSpace_of_isDigit {c : Char} (h : c.isDigit = true) : isSpace c = false := by
  simp only [isSpace, Bool.or_eq_false_iff, beq_eq_false_iff_ne]
  refine ⟨⟨⟨?_, ?_⟩, ?_⟩, ?_⟩ <;> rintro rfl <;> simp at h

/-- A digit begins no other value. -/
theorem readValue_digit (fuel : Nat) {c : Char} (s : List Char) (hc : c.isDigit = true) :
    readValue (fuel + 1) (c :: s) = readNumber (c :: s) := by
  rw [readValue, skip_cons s (isSpace_of_isDigit hc)]
  split
  · next h => cases h; simp at hc
  · next h => cases h; simp at hc
  · next h => cases h; simp at hc
  · rw [readAtom.eq_def]
    split
    · next h => cases h; simp at hc
    · next h => cases h; simp at hc
    · next h => cases h; simp at hc
    · rfl

/-- No value begins like the end of an array. -/
theorem render_head (v : Value) (hv : v.Natural) :
    ∃ c s, v.render = c :: s ∧ isSpace c = false ∧ c ≠ ']' := by
  cases v with
  | number q =>
    have hne : Nat.toDigits 10 q.num.toNat ≠ [] := Nat.toDigits_ne_nil
    obtain ⟨c, s, hcs⟩ := List.exists_cons_of_ne_nil hne
    have hdigit : c.isDigit = true := isDigit_toDigits (by rw [hcs]; simp)
    refine ⟨c, s, hcs, isSpace_of_isDigit hdigit, ?_⟩
    rintro rfl
    simp at hdigit
  | bool b => cases b <;> exact ⟨_, _, rfl, rfl, by decide⟩
  | _ => exact ⟨_, _, rfl, rfl, by decide⟩

theorem skip_renderItems (item : Value) (items : List Value) (rest : List Char)
    (hitem : item.Natural) :
    ∃ c s, skip (renderItems (item :: items) ++ rest) = c :: s ∧ c ≠ ']' := by
  obtain ⟨c, s, hrender, hspace, hc⟩ := render_head item hitem
  have hfront : ∃ t, renderItems (item :: items) = c :: t := by
    cases items <;> exact ⟨_, by simp only [renderItems, hrender, List.cons_append]; rfl⟩
  obtain ⟨t, ht⟩ := hfront
  exact ⟨c, t ++ rest, by rw [ht, List.cons_append, skip_cons _ hspace], hc⟩

theorem skip_renderMembers (member : List Char × Value) (members : List (List Char × Value))
    (rest : List Char) : ∃ s, skip (renderMembers (member :: members) ++ rest) = '"' :: s := by
  cases members <;> exact ⟨_, rfl⟩

mutual

theorem readValue_render : ∀ (v : Value) (fuel : Nat) (rest : List Char), v.Natural →
    v.render.length < fuel → EndsNumber rest →
    readValue fuel (v.render ++ rest) = some (v, rest)
  | _, 0, _, _, hfuel, _ => by simp at hfuel
  | .null, _ + 1, _, _, _, _ => rfl
  | .bool true, _ + 1, _, _, _, _ => rfl
  | .bool false, _ + 1, _, _, _, _ => rfl
  | .number q, fuel + 1, rest, ⟨n, hn⟩, _, hrest => by
      have hne : Nat.toDigits 10 n ≠ [] := Nat.toDigits_ne_nil
      obtain ⟨c, s, hcs⟩ := List.exists_cons_of_ne_nil hne
      have hdigit : c.isDigit = true := isDigit_toDigits (by rw [hcs]; simp)
      have hread := readNumber_toDigits n hrest
      have hnum : q.num.toNat = n := by simp [hn]
      rw [hcs] at hread
      rw [Value.render, hnum, hcs, List.cons_append, readValue_digit fuel _ hdigit, hn]
      exact hread
  | .string s, fuel + 1, rest, _, _, _ => by
      have hread := readString_quote s rest
      simp only [Value.render, quote, List.cons_append, List.append_assoc, List.nil_append]
      exact readValue_succ.mpr (.string (skip_cons _ rfl) hread)
  | .array items, fuel + 1, rest, hitems, hfuel, _ => by
      simp only [Value.render, List.length_cons] at hfuel
      simp only [Value.render, List.cons_append]
      cases items with
      | nil => exact readValue_succ.mpr (.emptyArray (skip_cons _ rfl) (skip_cons _ rfl))
      | cons item items =>
        have hread := readItems_render (item :: items) fuel rest hitems (by omega) (by simp)
        obtain ⟨c, s, hskip, hc⟩ := skip_renderItems item items rest hitems.1
        refine readValue_succ.mpr (.array (skip_cons _ rfl) ?_ hread)
        intro u hu
        exact hc (List.cons.inj (hskip.symm.trans hu)).1
  | .object members, fuel + 1, rest, hmembers, hfuel, _ => by
      simp only [Value.render, List.length_cons] at hfuel
      simp only [Value.render, List.cons_append]
      cases members with
      | nil => exact readValue_succ.mpr (.emptyObject (skip_cons _ rfl) (skip_cons _ rfl))
      | cons member members =>
        have hread := readMembers_render (member :: members) fuel rest hmembers (by omega) (by simp)
        obtain ⟨s, hskip⟩ := skip_renderMembers member members rest
        refine readValue_succ.mpr (.object (skip_cons _ rfl) ?_ hread)
        intro u hu
        cases hskip.symm.trans hu

theorem readItems_render : ∀ (items : List Value) (fuel : Nat) (rest : List Char),
    NaturalItems items → (renderItems items).length < fuel → items ≠ [] →
    readItems fuel (renderItems items ++ rest) = some (items, rest)
  | _, 0, _, _, hfuel, _ => by simp at hfuel
  | [], _, _, _, _, hne => (hne rfl).elim
  | [item], fuel + 1, rest, hitems, hfuel, _ => by
      simp only [renderItems, List.length_append, List.length_singleton] at hfuel
      have hitem := readValue_render item fuel (']' :: rest) hitems.1 (by omega)
        (endsNumber_cons rest rfl)
      simp only [renderItems, List.append_assoc, List.cons_append, List.nil_append]
      exact readItems_succ.mpr (.last hitem (skip_cons _ rfl))
  | item :: next :: items, fuel + 1, rest, hitems, hfuel, _ => by
      simp only [renderItems_cons_cons, List.length_append, List.length_cons] at hfuel
      have hitem := readValue_render item fuel (',' :: (renderItems (next :: items) ++ rest))
        hitems.1 (by omega) (endsNumber_cons _ rfl)
      have hmore := readItems_render (next :: items) fuel rest hitems.2 (by omega) (by simp)
      rw [renderItems_cons_cons, List.append_assoc, List.cons_append]
      exact readItems_succ.mpr (.more hitem (skip_cons _ rfl) hmore)

theorem readMembers_render : ∀ (members : List (List Char × Value)) (fuel : Nat)
    (rest : List Char), NaturalMembers members → (renderMembers members).length < fuel →
    members ≠ [] → readMembers fuel (renderMembers members ++ rest) = some (members, rest)
  | _, 0, _, _, hfuel, _ => by simp at hfuel
  | [], _, _, _, _, hne => (hne rfl).elim
  | [(key, item)], fuel + 1, rest, hmembers, hfuel, _ => by
      simp only [renderMembers, List.length_append, List.length_cons] at hfuel
      have hitem := readValue_render item fuel ('}' :: rest) hmembers.1 (by omega)
        (endsNumber_cons rest rfl)
      have hkey := readString_quote key (':' :: (item.render ++ '}' :: rest))
      simp only [renderMembers, quote, List.append_assoc, List.cons_append, List.nil_append]
      exact readMembers_succ.mpr
        (.last (skip_cons _ rfl) hkey (skip_cons _ rfl) hitem (skip_cons _ rfl))
  | (key, item) :: next :: members, fuel + 1, rest, hmembers, hfuel, _ => by
      simp only [renderMembers_cons_cons, renderMember, List.length_append,
        List.length_cons] at hfuel
      have hitem := readValue_render item fuel (',' :: (renderMembers (next :: members) ++ rest))
        hmembers.1 (by omega) (endsNumber_cons _ rfl)
      have hmore := readMembers_render (next :: members) fuel rest hmembers.2 (by omega) (by simp)
      have hkey := readString_quote key
        (':' :: (item.render ++ ',' :: (renderMembers (next :: members) ++ rest)))
      simp only [renderMembers_cons_cons, renderMember, quote, List.append_assoc,
        List.cons_append, List.nil_append]
      exact readMembers_succ.mpr
        (.more (skip_cons _ rfl) hkey (skip_cons _ rfl) hitem (skip_cons _ rfl) hmore)

end

/-- **Printing reads back.** -/
theorem parse_render {v : Value} (hv : v.Natural) : parse v.render = some v := by
  have hread := readValue_render v (v.render.length + 1) [] hv (Nat.lt_succ_self _)
    (fun _ _ h => by cases h)
  rw [List.append_nil] at hread
  exact parse_eq_some_iff.mpr ⟨_, [], hread, rfl⟩

end Oaat.Lib.Json
