/-
Oaat.Lib.Channel — bounded first-in, first-out channels.

A `Channel α n` never holds more than `n` items, by its type. `send` gives
nothing when the channel is full: a sender that must not wait drops the item
(`trySend`), one that waits tries again later. `recv` takes the oldest item.
-/
import Mathlib.Data.List.Basic

namespace Oaat.Lib

structure Channel (α : Type) (n : Nat) where
  items : List α
  bounded : items.length ≤ n

namespace Channel

variable {α : Type} {n : Nat} {c c' : Channel α n} {a : α}

theorem ext (h : c.items = c'.items) : c = c' := by
  cases c
  cases c'
  cases h
  rfl

instance [DecidableEq α] : DecidableEq (Channel α n) := fun c c' =>
  decidable_of_iff (c.items = c'.items) ⟨ext, congrArg items⟩

def empty : Channel α n := ⟨[], Nat.zero_le n⟩

@[simp] theorem items_empty : (empty : Channel α n).items = [] := rfl

/-- The item goes to the end, if there is room. -/
def send (c : Channel α n) (a : α) : Option (Channel α n) :=
  if h : c.items.length < n then some ⟨c.items ++ [a], by rw [List.length_append]; exact h⟩
  else none

/-- An item that finds no room is dropped. -/
def trySend (c : Channel α n) (a : α) : Channel α n := (c.send a).getD c

def recv (c : Channel α n) : Option (α × Channel α n) :=
  match h : c.items with
  | [] => none
  | a :: rest =>
    some (a, ⟨rest, by have := c.bounded; rw [h] at this; exact Nat.le_of_succ_le this⟩)

theorem send_eq_some (h : c.send a = some c') :
    c.items.length < n ∧ c'.items = c.items ++ [a] := by
  unfold send at h
  split at h
  next hroom =>
    cases h
    exact ⟨hroom, rfl⟩
  next => cases h

theorem send_eq_none_iff : c.send a = none ↔ c.items.length = n := by
  have hbound := c.bounded
  unfold send
  split
  next hroom => simp; omega
  next hfull => simp; omega

theorem items_trySend (hroom : c.items.length < n) : (c.trySend a).items = c.items ++ [a] := by
  unfold trySend send
  rw [dif_pos hroom]
  rfl

theorem recv_eq_some (h : c.recv = some (a, c')) : c.items = a :: c'.items := by
  unfold recv at h
  split at h
  next => cases h
  next b rest hitems =>
    cases h
    exact hitems

theorem recv_eq_none_iff : c.recv = none ↔ c.items = [] := by
  unfold recv
  split
  next hitems => simp [hitems]
  next hitems => simp [hitems]

end Channel

end Oaat.Lib
