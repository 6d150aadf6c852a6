/-
Oaat.Lib.Run — runs of a step function that may fail and that produces output.

`run step s is` feeds the inputs `is` one after another, stops at the first
failure, and otherwise returns the last state with all output in order.
`Along step P s is` says that `P` holds of every (state before, input) pair
of the run. The rules are the usual ones: a run over an append is two runs,
an invariant that every admitted input keeps is kept by every run, and a run
fails nowhere exactly when every step of it is one that does not fail.
-/
import Mathlib.Data.List.Basic

namespace Oaat.Lib

variable {σ ι ω ε α β : Type}

/-! ## Sequencing fallible computations -/

theorem bind_of_ok {x : Except ε α} {a : α} (f : α → Except ε β) (h : x = .ok a) :
    (x >>= f) = f a := by
  rw [h]; rfl

theorem bind_eq_ok {x : Except ε α} {f : α → Except ε β} {r : β} :
    (x >>= f) = .ok r ↔ ∃ a, x = .ok a ∧ f a = .ok r := by
  cases x with
  | error e => simp [bind, Except.bind]
  | ok a => simp [bind, Except.bind]

/-! ## Runs -/

/-- The run of `step` over a list of inputs, with the output concatenated. -/
def run (step : σ → ι → Except ε (σ × List ω)) : σ → List ι → Except ε (σ × List ω)
  | s, [] => .ok (s, [])
  | s, i :: is =>
    match step s i with
    | .error e => .error e
    | .ok (s', o) =>
      match run step s' is with
      | .error e => .error e
      | .ok (s'', os) => .ok (s'', o ++ os)

/-- `P` holds of every state and input met along the run. -/
def Along (step : σ → ι → Except ε (σ × List ω)) (P : σ → ι → Prop) : σ → List ι → Prop
  | _, [] => True
  | s, i :: is => P s i ∧ ∀ s' o, step s i = .ok (s', o) → Along step P s' is

variable {step : σ → ι → Except ε (σ × List ω)}

theorem along_cons_iff {P : σ → ι → Prop} {s s' : σ} {i : ι} {o : List ω} (is : List ι)
    (h : step s i = .ok (s', o)) :
    Along step P s (i :: is) ↔ P s i ∧ Along step P s' is := by
  refine and_congr_right fun _ => ⟨fun hall => hall s' o h, ?_⟩
  intro hall s₁ o₁ h₁
  obtain ⟨rfl, -⟩ : s' = s₁ ∧ o = o₁ := by simpa using h.symm.trans h₁
  exact hall

theorem along_cons_error_iff {P : σ → ι → Prop} {s : σ} {i : ι} {e : ε} (is : List ι)
    (h : step s i = .error e) : Along step P s (i :: is) ↔ P s i := by
  simp [Along, h]

instance decidableAlong {P : σ → ι → Prop} [∀ s i, Decidable (P s i)] :
    ∀ s is, Decidable (Along step P s is)
  | _, [] => isTrue trivial
  | s, i :: is =>
    match h : step s i with
    | .error _ => decidable_of_iff _ (along_cons_error_iff is h).symm
    | .ok (s', _) =>
      have : Decidable (Along step P s' is) := decidableAlong s' is
      decidable_of_iff _ (along_cons_iff is h).symm

@[simp] theorem run_nil (s : σ) : run step s [] = .ok (s, []) := rfl

theorem run_cons {s s' : σ} {i : ι} {o : List ω} (is : List ι) (h : step s i = .ok (s', o)) :
    run step s (i :: is) = (run step s' is).map fun r => (r.1, o ++ r.2) := by
  simp only [run, h]
  cases run step s' is <;> rfl

theorem run_cons_ok {s s' s'' : σ} {i : ι} {o os : List ω} {is : List ι}
    (h : step s i = .ok (s', o)) (hr : run step s' is = .ok (s'', os)) :
    run step s (i :: is) = .ok (s'', o ++ os) := by
  rw [run_cons is h, hr]
  rfl

theorem run_single {s s' : σ} {i : ι} {o : List ω} (h : step s i = .ok (s', o)) :
    run step s [i] = .ok (s', o) := by
  rw [run_cons_ok h (run_nil s'), List.append_nil]

theorem run_singleton (s : σ) (i : ι) : run step s [i] = step s i := by
  cases h : step s i with
  | error e => simp [run, h]
  | ok r => exact run_single h

/-- A run that returned took its first step and then ran on. -/
theorem run_cons_inv {s t : σ} {i : ι} {is : List ι} {out : List ω}
    (h : run step s (i :: is) = .ok (t, out)) :
    ∃ s' o os, step s i = .ok (s', o) ∧ run step s' is = .ok (t, os) ∧ out = o ++ os := by
  cases hs : step s i with
  | error e => simp [run, hs] at h
  | ok r =>
    obtain ⟨s', o⟩ := r
    rw [run_cons is hs] at h
    cases hr : run step s' is with
    | error e => simp [hr, Except.map] at h
    | ok r' =>
      obtain ⟨t', os⟩ := r'
      simp only [hr, Except.map, Except.ok.injEq, Prod.mk.injEq] at h
      exact ⟨s', o, os, rfl, by rw [hr, h.1], h.2.symm⟩

theorem run_append_ok {s s' s'' : σ} {is js : List ι} {o os : List ω}
    (h : run step s is = .ok (s', o)) (hr : run step s' js = .ok (s'', os)) :
    run step s (is ++ js) = .ok (s'', o ++ os) := by
  induction is generalizing s o with
  | nil =>
    simp only [run_nil, Except.ok.injEq, Prod.mk.injEq] at h
    obtain ⟨rfl, rfl⟩ := h
    simpa using hr
  | cons i is ih =>
    obtain ⟨t, o₁, o₂, hstep, hrest, rfl⟩ := run_cons_inv h
    rw [List.cons_append, run_cons_ok hstep (ih hrest), List.append_assoc]

/-- A run over an append is a run over the first part and then over the second. -/
theorem run_append (s : σ) (is js : List ι) :
    run step s (is ++ js) =
      run step s is >>= fun r => (run step r.1 js).map fun t => (t.1, r.2 ++ t.2) := by
  induction is generalizing s with
  | nil =>
    show run step s js = (run step s js).map fun t => (t.1, [] ++ t.2)
    cases run step s js <;> rfl
  | cons i is ih =>
    rw [List.cons_append]
    cases hstep : step s i with
    | error e => simp [run, hstep, bind, Except.bind]
    | ok x =>
      obtain ⟨s', o⟩ := x
      rw [run_cons _ hstep, run_cons _ hstep, ih]
      cases run step s' is with
      | error e => rfl
      | ok y =>
        show Except.map _ (Except.map _ (run step y.1 js)) = Except.map _ (run step y.1 js)
        cases run step y.1 js with
        | error e => rfl
        | ok z => simp [Except.map, List.append_assoc]

/-- After a part without output the rest of the run is the whole run. -/
theorem run_append_silent {s s' : σ} {is : List ι} (js : List ι)
    (h : run step s is = .ok (s', [])) : run step s (is ++ js) = run step s' js := by
  rw [run_append, bind_of_ok _ h]
  cases run step s' js <;> rfl

/-- A run of steps that are runs themselves is one run. -/
theorem run_flatMap {κ : Type} {f : σ → κ → Except ε (σ × List ω)} {g : κ → List ι}
    (h : ∀ s k, f s k = run step s (g k)) (ks : List κ) (s : σ) :
    run f s ks = run step s (ks.flatMap g) := by
  induction ks generalizing s with
  | nil => rfl
  | cons k ks ih =>
    rw [List.flatMap_cons, run_append, ← h]
    cases hk : f s k with
    | error e => simp [run, hk, bind, Except.bind]
    | ok x =>
      obtain ⟨s', o⟩ := x
      rw [run_cons _ hk, ih]
      rfl

theorem along_append_ok {P : σ → ι → Prop} {s s' : σ} {is js : List ι} {o : List ω}
    (h : run step s is = .ok (s', o)) (hi : Along step P s is) (hj : Along step P s' js) :
    Along step P s (is ++ js) := by
  induction is generalizing s o with
  | nil =>
    simp only [run_nil, Except.ok.injEq, Prod.mk.injEq] at h
    obtain ⟨rfl, -⟩ := h
    exact hj
  | cons i is ih =>
    obtain ⟨t, o₁, o₂, hstep, hrest, -⟩ := run_cons_inv h
    refine ⟨hi.1, ?_⟩
    intro t' o' ht'
    obtain ⟨rfl, -⟩ : t = t' ∧ o₁ = o' := by simpa using hstep.symm.trans ht'
    exact ih hrest (hi.2 t o₁ hstep)

/-- What holds along a run over an append holds along both parts. -/
theorem along_append_inv {P : σ → ι → Prop} {s s' : σ} {is js : List ι} {o : List ω}
    (h : run step s is = .ok (s', o)) (hall : Along step P s (is ++ js)) :
    Along step P s is ∧ Along step P s' js := by
  induction is generalizing s o with
  | nil =>
    simp only [run_nil, Except.ok.injEq, Prod.mk.injEq] at h
    obtain ⟨rfl, -⟩ := h
    exact ⟨trivial, hall⟩
  | cons i is ih =>
    obtain ⟨t, o₁, o₂, hstep, hrest, -⟩ := run_cons_inv h
    obtain ⟨hi, hj⟩ := ih hrest (hall.2 t o₁ hstep)
    exact ⟨(along_cons_iff is hstep).mpr ⟨hall.1, hi⟩, hj⟩

/-- A run over an append ran over the first part. -/
theorem run_append_inv {s t : σ} {is js : List ι} {out : List ω}
    (h : run step s (is ++ js) = .ok (t, out)) :
    ∃ s' o os, run step s is = .ok (s', o) ∧ run step s' js = .ok (t, os) ∧ out = o ++ os := by
  induction is generalizing s out with
  | nil => exact ⟨s, [], out, rfl, h, rfl⟩
  | cons i is ih =>
    obtain ⟨s₁, o₁, os₁, hstep, hrest, rfl⟩ := run_cons_inv h
    obtain ⟨s', o, os, hfst, hsnd, rfl⟩ := ih hrest
    exact ⟨s', o₁ ++ o, os, run_cons_ok hstep hfst, hsnd, (List.append_assoc ..).symm⟩

/-- `P` holds along a run exactly when it holds after every part of it. -/
theorem along_iff_parts {P : σ → ι → Prop} {s : σ} {is : List ι} :
    Along step P s is ↔
      ∀ pre i post t o, is = pre ++ i :: post → run step s pre = .ok (t, o) → P t i := by
  induction is generalizing s with
  | nil => simp [Along]
  | cons i is ih =>
    constructor
    · rintro ⟨hi, hrest⟩ pre j post t o hsplit hrun
      cases pre with
      | nil =>
        obtain ⟨rfl, -⟩ : i = j ∧ is = post := by simpa using hsplit
        simp only [run_nil, Except.ok.injEq, Prod.mk.injEq] at hrun
        exact hrun.1 ▸ hi
      | cons k pre =>
        obtain ⟨rfl, htail⟩ : i = k ∧ is = pre ++ j :: post := by simpa using hsplit
        obtain ⟨s', o₁, os, hstep, hrun, -⟩ := run_cons_inv hrun
        exact ih.mp (hrest s' o₁ hstep) pre j post t os htail hrun
    · intro h
      refine ⟨h [] i is s [] rfl rfl, ?_⟩
      intro s' o hstep
      refine ih.mpr ?_
      intro pre j post t os hsplit hrun
      exact h (i :: pre) j post t (o ++ os) (by simp [hsplit]) (run_cons_ok hstep hrun)

/-- **Invariant rule.** If every input in `A`, taken in a state of `Inv`,
returns, keeps `Inv` and outputs only elements of `Q`, then so does every run
over such inputs. -/
theorem run_invariant {Inv : σ → Prop} {A : ι → Prop} {Q : ω → Prop}
    (hstep : ∀ s i, Inv s → A i → ∃ s' o, step s i = .ok (s', o) ∧ Inv s' ∧ ∀ x ∈ o, Q x) :
    ∀ (is : List ι) (s : σ), Inv s → (∀ i ∈ is, A i) →
      ∃ s' o, run step s is = .ok (s', o) ∧ Inv s' ∧ ∀ x ∈ o, Q x
  | [], s, hs, _ => ⟨s, [], rfl, hs, by simp⟩
  | i :: is, s, hs, hA => by
      obtain ⟨s₁, o₁, h₁, hs₁, hq₁⟩ := hstep s i hs (hA i (by simp))
      obtain ⟨s₂, o₂, h₂, hs₂, hq₂⟩ :=
        run_invariant hstep is s₁ hs₁ (fun j hj => hA j (List.mem_cons_of_mem _ hj))
      refine ⟨s₂, o₁ ++ o₂, run_cons_ok h₁ h₂, hs₂, ?_⟩
      intro x hx
      rcases List.mem_append.mp hx with hx | hx
      · exact hq₁ x hx
      · exact hq₂ x hx

theorem along_of_forall {P : σ → ι → Prop} :
    ∀ {is : List ι} {s : σ}, (∀ i ∈ is, ∀ t, P t i) → Along step P s is
  | [], _, _ => trivial
  | i :: _, s, h =>
    ⟨h i (by simp) s, fun _ _ _ => along_of_forall fun j hj => h j (List.mem_cons_of_mem _ hj)⟩

/-- Two conditions that agree in every state of `Inv` agree along a run. -/
theorem along_congr {Inv : σ → Prop} {P C : σ → ι → Prop}
    (hiff : ∀ s i, Inv s → (P s i ↔ C s i))
    (hkeep : ∀ s i s' o, Inv s → P s i → step s i = .ok (s', o) → Inv s') :
    ∀ {is : List ι} {s : σ}, Inv s → (Along step P s is ↔ Along step C s is)
  | [], _, _ => Iff.rfl
  | i :: is, s, hs => by
      have hhead := hiff s i hs
      constructor
      · rintro ⟨hi, hrest⟩
        refine ⟨hhead.mp hi, ?_⟩
        intro s' o hstep
        exact (along_congr hiff hkeep (hkeep s i s' o hs hi hstep)).mp (hrest s' o hstep)
      · rintro ⟨hi, hrest⟩
        refine ⟨hhead.mpr hi, ?_⟩
        intro s' o hstep
        exact (along_congr hiff hkeep (hkeep s i s' o hs (hhead.mpr hi) hstep)).mpr
          (hrest s' o hstep)

/-- A condition that keeps `Inv` along a run gives what `Inv` gives along it. -/
theorem along_of_along {Inv : σ → Prop} {C P : σ → ι → Prop}
    (hgives : ∀ s i, Inv s → C s i → P s i)
    (hkeep : ∀ s i s' o, Inv s → C s i → step s i = .ok (s', o) → Inv s') :
    ∀ {is : List ι} {s : σ}, Inv s → Along step C s is → Along step P s is
  | [], _, _, _ => trivial
  | i :: _, s, hs, ⟨hi, hrest⟩ =>
    ⟨hgives s i hs hi, fun s' o hstep =>
      along_of_along hgives hkeep (hkeep s i s' o hs hi hstep) (hrest s' o hstep)⟩

/-- **Preservation rule.** What every step that returns keeps under `A`, every
run that returns keeps. -/
theorem run_keeps {Inv : σ → Prop} {A : σ → ι → Prop} {Q : ω → Prop}
    (hstep : ∀ s i s' o, Inv s → A s i → step s i = .ok (s', o) → Inv s' ∧ ∀ x ∈ o, Q x) :
    ∀ {is : List ι} {s t : σ} {out : List ω}, Inv s → Along step A s is →
      run step s is = .ok (t, out) → Inv t ∧ ∀ x ∈ out, Q x
  | [], s, t, out, hs, _, hrun => by
      simp only [run_nil, Except.ok.injEq, Prod.mk.injEq] at hrun
      obtain ⟨rfl, rfl⟩ := hrun
      exact ⟨hs, by simp⟩
  | i :: is, s, t, out, hs, hA, hrun => by
      obtain ⟨s', o, os, hfirst, hrest, rfl⟩ := run_cons_inv hrun
      obtain ⟨hs', ho⟩ := hstep s i s' o hs hA.1 hfirst
      obtain ⟨ht, hos⟩ := run_keeps hstep hs' (hA.2 s' o hfirst) hrest
      refine ⟨ht, ?_⟩
      intro x hx
      rcases List.mem_append.mp hx with hx | hx
      · exact ho x hx
      · exact hos x hx

/-- What every step that returns keeps, every run that returns keeps. -/
theorem run_stays {Inv : σ → Prop}
    (hstep : ∀ s i s' o, Inv s → step s i = .ok (s', o) → Inv s') {is : List ι} {s t : σ}
    {out : List ω} (hs : Inv s) (hrun : run step s is = .ok (t, out)) : Inv t := by
  have hkeep : ∀ s i s' o, Inv s → True → step s i = .ok (s', o) → Inv s' ∧ ∀ x ∈ o, True :=
    fun s i s' o hs _ hi => ⟨hstep s i s' o hs hi, fun _ _ => trivial⟩
  exact (run_keeps hkeep hs (along_of_forall fun _ _ _ => trivial) hrun).1

/-- **Safety rule.** If a step returns exactly when `P` holds of it, then a run
returns exactly when `P` holds along it. -/
theorem run_ok_iff_along {P : σ → ι → Prop} (hiff : ∀ s i, P s i ↔ ∃ r, step s i = .ok r) :
    ∀ (is : List ι) (s : σ), ((∃ r, run step s is = .ok r) ↔ Along step P s is)
  | [], s => by simp [Along]
  | i :: is, s => by
      constructor
      · rintro ⟨⟨t, out⟩, hr⟩
        obtain ⟨s', o, os, hstep, hrest, -⟩ := run_cons_inv hr
        refine ⟨(hiff s i).mpr ⟨_, hstep⟩, ?_⟩
        intro s₁ o₁ h₁
        obtain ⟨rfl, rfl⟩ : s' = s₁ ∧ o = o₁ := by simpa using hstep.symm.trans h₁
        exact (run_ok_iff_along hiff is s').mp ⟨_, hrest⟩
      · rintro ⟨hP, hrest⟩
        obtain ⟨⟨s', o⟩, hstep⟩ := (hiff s i).mp hP
        obtain ⟨⟨t, os⟩, hr⟩ := (run_ok_iff_along hiff is s').mpr (hrest s' o hstep)
        exact ⟨_, run_cons_ok hstep hr⟩

/-- A run whose every step returns, returns. -/
theorem run_ok_of_along {P : σ → ι → Prop} (hreturns : ∀ s i, P s i → ∃ r, step s i = .ok r) :
    ∀ {is : List ι} {s : σ}, Along step P s is → ∃ r, run step s is = .ok r
  | [], s, _ => ⟨(s, []), rfl⟩
  | i :: is, s, ⟨hi, hrest⟩ => by
      obtain ⟨⟨s', o⟩, hstep⟩ := hreturns s i hi
      obtain ⟨⟨t, os⟩, hrun⟩ := run_ok_of_along hreturns (hrest s' o hstep)
      exact ⟨_, run_cons_ok hstep hrun⟩

/-- What `view` shows at the end of a run, if it returns. -/
def viewRun {β : Type} (step : σ → ι → Except ε (σ × List ω)) (view : σ → List ω → β) (s : σ)
    (is : List ι) : Option β :=
  match run step s is with
  | .ok (t, out) => some (view t out)
  | .error _ => none

theorem run_of_viewRun {β : Type} {view : σ → List ω → β} {s : σ} {is : List ι} {b : β}
    (h : viewRun step view s is = some b) :
    ∃ t out, run step s is = .ok (t, out) ∧ view t out = b := by
  unfold viewRun at h
  split at h
  next t out hrun => exact ⟨t, out, hrun, Option.some.inj h⟩
  next => cases h

/-- `P` holds of the state and the output after every part of a run. -/
def Throughout (step : σ → ι → Except ε (σ × List ω)) (P : σ → List ω → Prop) (s : σ)
    (is : List ι) : Prop :=
  ∀ pre post t o, is = pre ++ post → run step s pre = .ok (t, o) → P t o

theorem throughout_nil {P : σ → List ω → Prop} {s : σ} : Throughout step P s [] ↔ P s [] := by
  constructor
  · intro h
    exact h [] [] s [] rfl rfl
  · intro hs pre post t o hsplit hrun
    obtain ⟨rfl, rfl⟩ : pre = [] ∧ post = [] := by simpa using hsplit.symm
    simp only [run_nil, Except.ok.injEq, Prod.mk.injEq] at hrun
    obtain ⟨rfl, rfl⟩ := hrun
    exact hs

theorem throughout_cons {P : σ → List ω → Prop} {s s' : σ} {i : ι} {o : List ω} (is : List ι)
    (h : step s i = .ok (s', o)) :
    Throughout step P s (i :: is) ↔ P s [] ∧ Throughout step (fun t p => P t (o ++ p)) s' is := by
  constructor
  · intro hall
    refine ⟨hall [] (i :: is) s [] rfl rfl, ?_⟩
    intro pre post t p hsplit hrun
    exact hall (i :: pre) post t (o ++ p) (by rw [hsplit]; rfl) (run_cons_ok h hrun)
  · rintro ⟨hfirst, hrest⟩ pre post t p hsplit hrun
    cases pre with
    | nil =>
      simp only [run_nil, Except.ok.injEq, Prod.mk.injEq] at hrun
      obtain ⟨rfl, rfl⟩ := hrun
      exact hfirst
    | cons j pre =>
      obtain ⟨rfl, htail⟩ : i = j ∧ is = pre ++ post := by simpa using hsplit
      obtain ⟨s₁, o₁, p₁, hstep, htailRun, rfl⟩ := run_cons_inv hrun
      obtain ⟨rfl, rfl⟩ : s' = s₁ ∧ o = o₁ := by simpa using h.symm.trans hstep
      exact hrest pre post t p₁ htail htailRun

/-- **History invariant rule.** What every step that returns keeps of the state and
the output so far, for inputs in `A`, holds throughout every run over such inputs. -/
theorem throughout_of_step_in {A : ι → Prop} {P : σ → List ω → Prop}
    (hstep : ∀ s log i s' o, A i → P s log → step s i = .ok (s', o) → P s' (log ++ o)) {s : σ}
    (hs : P s []) {is : List ι} (hA : ∀ i ∈ is, A i) : Throughout step P s is := by
  have hkeep : ∀ (js : List ι) (r t : σ) (log out : List ω), (∀ j ∈ js, A j) → P r log →
      run step r js = .ok (t, out) → P t (log ++ out) := by
    intro js
    induction js with
    | nil =>
      intro r t log out _ hr hrun
      simp only [run_nil, Except.ok.injEq, Prod.mk.injEq] at hrun
      obtain ⟨rfl, rfl⟩ := hrun
      rwa [List.append_nil]
    | cons j js ih =>
      intro r t log out hjs hr hrun
      obtain ⟨r', o, os, hfirst, hrest, rfl⟩ := run_cons_inv hrun
      rw [← List.append_assoc]
      exact ih r' t (log ++ o) os (fun k hk => hjs k (List.mem_cons_of_mem _ hk))
        (hstep r log j r' o (hjs j (by simp)) hr hfirst) hrest
  intro pre post t o hsplit hpre
  exact hkeep pre s t [] o (fun i hi => hA i (hsplit ▸ List.mem_append_left _ hi)) hs hpre

/-- The same for any input. -/
theorem throughout_of_step {P : σ → List ω → Prop}
    (hstep : ∀ s log i s' o, P s log → step s i = .ok (s', o) → P s' (log ++ o)) {s : σ}
    (hs : P s []) (is : List ι) : Throughout step P s is :=
  throughout_of_step_in (A := fun _ => True) (fun s log i s' o _ => hstep s log i s' o) hs
    fun _ _ => trivial

/-- **Exact invariant rule**, under `Inv` and for inputs in `A`. If a step keeps
`P` exactly when `C` holds of it, and then keeps `Inv`, then `P` holds throughout
a run exactly when `C` holds along it. -/
theorem throughout_iff_along_of {Inv : σ → Prop} {A : ι → Prop} {C : σ → ι → Prop} :
    ∀ (is : List ι) (P : σ → List ω → Prop) (s t : σ) (out : List ω),
      (∀ s log i s' o, Inv s → A i → P s log → step s i = .ok (s', o) →
        (P s' (log ++ o) ↔ C s i) ∧ (C s i → Inv s')) →
      Inv s → (∀ i ∈ is, A i) → P s [] → run step s is = .ok (t, out) →
      (Throughout step P s is ↔ Along step C s is)
  | [], P, s, t, out, _, _, _, hs, _ => ⟨fun _ => trivial, fun _ => throughout_nil.mpr hs⟩
  | i :: is, P, s, t, out, hstep, hinv, hA, hs, hrun => by
      obtain ⟨s', o, os, hfirst, hrest, rfl⟩ := run_cons_inv hrun
      obtain ⟨hiff, hinv'⟩ := hstep s [] i s' o hinv (hA i (by simp)) hs hfirst
      rw [List.nil_append] at hiff
      have hA' : ∀ j ∈ is, A j := fun j hj => hA j (List.mem_cons_of_mem _ hj)
      -- the rest of the run, with the output so far in front
      have hlater : ∀ r log j r' p, Inv r → A j → P r (o ++ log) → step r j = .ok (r', p) →
          (P r' (o ++ (log ++ p)) ↔ C r j) ∧ (C r j → Inv r') := by
        intro r log j r' p hr hj hP hstepj
        rw [← List.append_assoc]
        exact hstep r (o ++ log) j r' p hr hj hP hstepj
      rw [throughout_cons is hfirst, along_cons_iff is hfirst]
      constructor
      · rintro ⟨-, hall⟩
        have hs' : P s' (o ++ []) := hall [] is s' [] rfl rfl
        have hc : C s i := hiff.mp (by simpa using hs')
        refine ⟨hc, ?_⟩
        exact (throughout_iff_along_of is _ s' t os hlater (hinv' hc) hA' hs' hrest).mp hall
      · rintro ⟨hc, halong⟩
        have hs' : P s' (o ++ []) := by simpa using hiff.mpr hc
        refine ⟨hs, ?_⟩
        exact (throughout_iff_along_of is _ s' t os hlater (hinv' hc) hA' hs' hrest).mpr halong

/-- The same for any state and input. -/
theorem throughout_iff_along {C : σ → ι → Prop} (is : List ι) (P : σ → List ω → Prop) (s t : σ)
    (out : List ω)
    (hstep : ∀ s log i s' o, P s log → step s i = .ok (s', o) → (P s' (log ++ o) ↔ C s i))
    (hs : P s []) (hrun : run step s is = .ok (t, out)) :
    Throughout step P s is ↔ Along step C s is := by
  have hstep' : ∀ s log i s' o, True → True → P s log → step s i = .ok (s', o) →
      (P s' (log ++ o) ↔ C s i) ∧ (C s i → True) :=
    fun s log i s' o _ _ hP hi => ⟨hstep s log i s' o hP hi, fun _ => trivial⟩
  exact throughout_iff_along_of is P s t out hstep' trivial (fun _ _ => trivial) hs hrun

/-- A condition on the inputs alone. -/
theorem along_iff_forall {C : ι → Prop} :
    ∀ {is : List ι} {s t : σ} {out : List ω}, run step s is = .ok (t, out) →
      (Along step (fun _ => C) s is ↔ ∀ i ∈ is, C i)
  | [], _, _, _, _ => by simp [Along]
  | i :: is, s, t, out, hrun => by
      obtain ⟨s', o, os, hfirst, hrest, rfl⟩ := run_cons_inv hrun
      rw [along_cons_iff is hfirst, along_iff_forall hrest, List.forall_mem_cons]

/-- **History rule.** Let `Inv` relate the states to the output so far, for
every admitted input. If a step extends an output of `E` to one of `E` exactly
when `P` holds of it, then a run's output is in `E` exactly when `P` holds
along it. -/
theorem run_iff_along (Inv E : σ → List ω → Prop) (A P : σ → ι → Prop)
    (hstep : ∀ s log i s' o, Inv s log → A s i → step s i = .ok (s', o) →
      Inv s' (log ++ o) ∧ (E s' (log ++ o) ↔ E s log ∧ P s i)) :
    ∀ (is : List ι) (s t : σ) (log out : List ω), Inv s log → Along step A s is →
      run step s is = .ok (t, out) → (E t (log ++ out) ↔ E s log ∧ Along step P s is)
  | [], s, t, log, out, _, _, hrun => by
      simp only [run_nil, Except.ok.injEq, Prod.mk.injEq] at hrun
      obtain ⟨rfl, rfl⟩ := hrun
      simp [Along]
  | i :: is, s, t, log, out, hinv, hA, hrun => by
      obtain ⟨s', o, os, hs, hrest, rfl⟩ := run_cons_inv hrun
      obtain ⟨hinv', hiff⟩ := hstep s log i s' o hinv hA.1 hs
      have htail := run_iff_along Inv E A P hstep is s' t (log ++ o) os hinv' (hA.2 s' o hs) hrest
      rw [← List.append_assoc, htail, hiff, along_cons_iff is hs, and_assoc]

/-! ## Histories -/

/-- `P` holds of every element of a history and of what came before it. -/
def Each (P : List ω → ω → Prop) (log : List ω) : Prop :=
  ∀ past e later, log = past ++ e :: later → P past e

@[simp] theorem each_nil (P : List ω → ω → Prop) : Each P [] := by
  intro past e later h
  simp at h

/-- One more element has to fit what came before it. -/
theorem each_concat {P : List ω → ω → Prop} {log : List ω} {x : ω} :
    Each P (log ++ [x]) ↔ Each P log ∧ P log x := by
  constructor
  · intro h
    refine ⟨?_, h log x [] rfl⟩
    intro past e later hsplit
    exact h past e (later ++ [x]) (by simp [hsplit])
  · rintro ⟨h, hx⟩ past e later hsplit
    rcases List.eq_nil_or_concat later with rfl | ⟨init, y, rfl⟩
    · obtain ⟨rfl, hxe⟩ := List.append_inj' hsplit rfl
      obtain rfl : x = e := by simpa using hxe
      exact hx
    · have hlog : log ++ [x] = (past ++ e :: init) ++ [y] := by simp [hsplit]
      exact h past e init (List.append_inj' hlog rfl).1

theorem each_singleton {P : List ω → ω → Prop} {x : ω} : Each P [x] ↔ P [] x :=
  each_concat.trans (and_iff_right (each_nil P))

/-- One more element in front comes before all the others. -/
theorem each_cons {P : List ω → ω → Prop} {log : List ω} {x : ω} :
    Each P (x :: log) ↔ P [] x ∧ Each (fun past e => P (x :: past) e) log := by
  constructor
  · intro h
    refine ⟨h [] x log rfl, ?_⟩
    intro past e later hsplit
    exact h (x :: past) e later (by rw [hsplit, List.cons_append])
  · rintro ⟨hx, h⟩ past e later hsplit
    cases past with
    | nil =>
      obtain ⟨rfl, -⟩ : x = e ∧ log = later := by simpa using hsplit
      exact hx
    | cons y past =>
      obtain ⟨rfl, htail⟩ : x = y ∧ log = past ++ e :: later := by simpa using hsplit
      exact h past e later htail

end Oaat.Lib
