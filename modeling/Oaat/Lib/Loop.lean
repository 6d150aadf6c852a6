/-
Oaat.Lib.Loop — loops whose number of passes is not known beforehand.

A pass of a loop goes on in a new state or stops with a result. `loop pass fuel`
makes at most `fuel` passes and says so when they were not enough, so that a
loop terminates from a state exactly when some fuel makes `loop` return.
`Reaches pass s t` says that the loop, started in `s`, gets to begin a pass in
`t`. Two rules are used: a loop whose passes make a measure smaller returns
(`loop_returns`), and its result is that of the pass it stopped in
(`loop_stopped`).
-/
import Mathlib.Data.List.Basic

namespace Oaat.Lib

/-- What a pass of a loop does. -/
inductive Pass (σ β : Type) where
  | again (s : σ)
  | stop (b : β)
  deriving Repr, DecidableEq

/-- The fuel of a loop is used up before it stopped. -/
inductive OutOfFuel where
  | outOfFuel
  deriving Repr, DecidableEq

variable {σ β : Type}

/-- At most `fuel` passes. -/
def loop (pass : σ → Pass σ β) : Nat → σ → Except OutOfFuel β
  | 0, _ => .error .outOfFuel
  | fuel + 1, s =>
    match pass s with
    | .again s' => loop pass fuel s'
    | .stop b => .ok b

/-- The loop started in the first state begins a pass in the second. -/
inductive Reaches (pass : σ → Pass σ β) : σ → σ → Prop where
  | start (s : σ) : Reaches pass s s
  | again {s s' t : σ} (h : pass s = .again s') (ht : Reaches pass s' t) : Reaches pass s t

variable {pass : σ → Pass σ β}

theorem loop_again {s s' : σ} (fuel : Nat) (h : pass s = .again s') :
    loop pass (fuel + 1) s = loop pass fuel s' := by
  simp [loop, h]

theorem loop_stop {s : σ} {b : β} (fuel : Nat) (h : pass s = .stop b) :
    loop pass (fuel + 1) s = .ok b := by
  simp [loop, h]

/-- **Termination rule.** A loop whose passes make a measure smaller needs no
more passes than one and the measure. -/
theorem loop_returns (pass : σ → Pass σ β) (measure : σ → Nat)
    (hless : ∀ s s', pass s = .again s' → measure s' < measure s) :
    ∀ (fuel : Nat) (s : σ), measure s < fuel → ∃ b, loop pass fuel s = .ok b
  | 0, _, hfuel => absurd hfuel (Nat.not_lt_zero _)
  | fuel + 1, s, hfuel => by
      cases hs : pass s with
      | again s' =>
        have := hless s s' hs
        obtain ⟨b, hb⟩ := loop_returns pass measure hless fuel s' (by omega)
        exact ⟨b, by rw [loop_again fuel hs, hb]⟩
      | stop b => exact ⟨b, loop_stop fuel hs⟩

/-- **Invariant rule.** If every pass from a state of `Inv` goes on in one, with a
smaller measure, or stops with a result of `Q`, then the loop returns one. -/
theorem loop_invariant {Inv : σ → Prop} {Q : β → Prop} (measure : σ → Nat)
    (hpass : ∀ s, Inv s → (∃ s', pass s = .again s' ∧ Inv s' ∧ measure s' < measure s) ∨
      ∃ b, pass s = .stop b ∧ Q b) :
    ∀ (fuel : Nat) (s : σ), Inv s → measure s < fuel → ∃ b, loop pass fuel s = .ok b ∧ Q b
  | 0, _, _, hfuel => absurd hfuel (Nat.not_lt_zero _)
  | fuel + 1, s, hs, hfuel => by
      rcases hpass s hs with ⟨s', hagain, hs', hless⟩ | ⟨b, hstop, hb⟩
      · obtain ⟨b, hloop, hb⟩ := loop_invariant measure hpass fuel s' hs' (by omega)
        exact ⟨b, by rw [loop_again fuel hagain, hloop], hb⟩
      · exact ⟨b, loop_stop fuel hstop, hb⟩

/-- The result comes from the pass that the loop stopped in. -/
theorem loop_stopped {b : β} :
    ∀ {fuel : Nat} {s : σ}, loop pass fuel s = .ok b → ∃ t, Reaches pass s t ∧ pass t = .stop b
  | 0, _, h => by simp [loop] at h
  | fuel + 1, s, h => by
      cases hs : pass s with
      | again s' =>
        rw [loop_again fuel hs] at h
        obtain ⟨t, ht, hb⟩ := loop_stopped h
        exact ⟨t, .again hs ht, hb⟩
      | stop b' =>
        rw [loop_stop fuel hs, Except.ok.injEq] at h
        exact ⟨s, .start s, h ▸ hs⟩

/-- A loop stops in one pass only. -/
theorem Reaches.stop_unique {s t u : σ} {b c : β} (ht : Reaches pass s t) (hu : Reaches pass s u)
    (hb : pass t = .stop b) (hc : pass u = .stop c) : t = u := by
  induction ht with
  | start s =>
    cases hu with
    | start => rfl
    | again h _ => simp [hb] at h
  | again h _ ih =>
    cases hu with
    | start => simp [hc] at h
    | again h' hu' =>
      obtain rfl := Pass.again.inj (h.symm.trans h')
      exact ih hu' hb

end Oaat.Lib
