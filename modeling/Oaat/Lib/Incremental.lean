/-
Oaat.Lib.Incremental — decoding a stream that arrives in pieces.

A `Decoder` takes one item off the front of a buffer, or reports that none is
there yet. Two facts make it independent of how the stream is cut: an item is
never empty, and what follows an item does not change it. `drain` takes items
until none is left, and `feedChunks` drains after every chunk. The chunks do
not matter: `feedChunks_eq` gives the drain of their concatenation.
-/
import Mathlib.Data.List.Basic

namespace Oaat.Lib

/-- One item at a time off a buffer of `β`s. -/
structure Decoder (β ρ : Type) where
  next : List β → Option (ρ × List β)
  progress : ∀ {b x r}, next b = some (x, r) → r.length < b.length
  extend : ∀ {b x r}, next b = some (x, r) → ∀ c, next (b ++ c) = some (x, r ++ c)

namespace Decoder

variable {β ρ : Type} (d : Decoder β ρ)

/-- At most `fuel` items, and the buffer left over. -/
def drainFuel : Nat → List β → List ρ × List β
  | 0, b => ([], b)
  | fuel + 1, b =>
    match d.next b with
    | none => ([], b)
    | some (x, r) => (x :: (drainFuel fuel r).1, (drainFuel fuel r).2)

/-- All items of a buffer. Every item takes at least one element, so the length
of the buffer is fuel enough. -/
def drain (b : List β) : List ρ × List β := d.drainFuel b.length b

variable {d}

theorem drainFuel_of_none {fuel : Nat} {b : List β} (h : d.next b = none) :
    d.drainFuel fuel b = ([], b) := by
  cases fuel with
  | zero => rfl
  | succ fuel => simp [drainFuel, h]

/-- More fuel than elements changes nothing. -/
theorem drainFuel_eq : ∀ {fuel fuel' : Nat} {b : List β}, b.length ≤ fuel → b.length ≤ fuel' →
    d.drainFuel fuel b = d.drainFuel fuel' b
  | fuel, fuel', b, h, h' => by
      cases hn : d.next b with
      | none => rw [drainFuel_of_none hn, drainFuel_of_none hn]
      | some p =>
        obtain ⟨x, r⟩ := p
        have hlt := d.progress hn
        obtain ⟨k, rfl⟩ : ∃ k, fuel = k + 1 := ⟨fuel - 1, by omega⟩
        obtain ⟨k', rfl⟩ : ∃ k', fuel' = k' + 1 := ⟨fuel' - 1, by omega⟩
        have ih : d.drainFuel k r = d.drainFuel k' r := drainFuel_eq (by omega) (by omega)
        simp [drainFuel, hn, ih]

theorem drain_of_none {b : List β} (h : d.next b = none) : d.drain b = ([], b) :=
  drainFuel_of_none h

theorem drain_of_some {b r : List β} {x : ρ} (h : d.next b = some (x, r)) :
    d.drain b = (x :: (d.drain r).1, (d.drain r).2) := by
  have hlt := d.progress h
  obtain ⟨k, hk⟩ : ∃ k, b.length = k + 1 := ⟨b.length - 1, by omega⟩
  have hr : d.drainFuel k r = d.drain r := drainFuel_eq (by omega) (Nat.le_refl _)
  rw [drain, hk, drainFuel, h]
  simp [hr]

theorem next_eq_none_iff (b : List β) : d.next b = none ↔ (d.drain b).1 = [] := by
  cases h : d.next b with
  | none => simp [drain_of_none h]
  | some p =>
    obtain ⟨x, r⟩ := p
    simp [drain_of_some h]

/-- Draining stops where no item is left. -/
theorem next_drain (b : List β) : d.next (d.drain b).2 = none := by
  induction hn : b.length using Nat.strongRecOn generalizing b with
  | _ n ih =>
    cases h : d.next b with
    | none => rw [drain_of_none h]; exact h
    | some p =>
      obtain ⟨x, r⟩ := p
      rw [drain_of_some h]
      exact ih r.length (hn ▸ d.progress h) r rfl

/-- Draining two pieces is draining the first and then what it left with the
second. -/
theorem drain_append (b c : List β) :
    d.drain (b ++ c) = ((d.drain b).1 ++ (d.drain ((d.drain b).2 ++ c)).1,
      (d.drain ((d.drain b).2 ++ c)).2) := by
  induction hn : b.length using Nat.strongRecOn generalizing b with
  | _ n ih =>
    cases h : d.next b with
    | none => rw [drain_of_none h]; simp
    | some p =>
      obtain ⟨x, r⟩ := p
      rw [drain_of_some h, drain_of_some (d.extend h c), ih r.length (hn ▸ d.progress h) r rfl]
      simp

/-- Append each chunk to the buffer and drain it. -/
def feedChunks (d : Decoder β ρ) : List β → List (List β) → List ρ × List β
  | b, [] => ([], b)
  | b, c :: cs =>
    let (xs, r) := d.drain (b ++ c)
    let (ys, t) := feedChunks d r cs
    (xs ++ ys, t)

/-- **Chunks do not matter.** -/
theorem feedChunks_eq : ∀ (cs : List (List β)) {b : List β}, d.next b = none →
    d.feedChunks b cs = d.drain (b ++ cs.flatten)
  | [], b, h => by simp [feedChunks, drain_of_none h]
  | c :: cs, b, _ => by
      have ih := feedChunks_eq cs (next_drain (d := d) (b ++ c))
      rw [List.flatten_cons, ← List.append_assoc, drain_append]
      simp [feedChunks, ih]

end Decoder

end Oaat.Lib
