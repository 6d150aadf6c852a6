/-
Oaat.Cpal.Underruns — what the underrun counter counts.

A gap of a sequence of callbacks is a maximal run of short ones, after a full
callback and before another. The detector counts a callback that brings audio
directly after a short one (`underruns_eq_card`), once the ring was full; a
gap's end is such a callback, and so is a callback that is itself only partly
filled. It is counted although the gap goes on, or although only the drain of
the ring follows.
-/
import Oaat.Lib.MaximalRuns
import Oaat.Endpoint.AudioOutput

namespace Oaat.Cpal

open Oaat.Lib Oaat.Endpoint

/-- Drive the detector with a sequence of (got, wanted) callbacks. -/
def drive (callbacks : List (Nat × Nat)) : UnderrunDetector × Nat :=
  callbacks.foldl (fun (d, counter) (got, wanted) => d.observe got wanted counter) (.new, 0)

def underrunsFor (callbacks : List (Nat × Nat)) : Nat := (drive callbacks).2

/-! ## The gaps of a sequence -/

section

variable (cs : List (Nat × Nat))

def ShortAt (k : Nat) : Prop := ∃ cb ∈ cs[k]?, cb.1 < cb.2

def FullAt (k : Nat) : Prop := ∃ cb ∈ cs[k]?, cb.2 ≤ cb.1

/-- Some audio, and not all that was asked for. -/
def PartialAt (k : Nat) : Prop := ∃ cb ∈ cs[k]?, 0 < cb.1 ∧ cb.1 < cb.2

instance : DecidablePred (ShortAt cs) := fun _ => inferInstanceAs (Decidable (∃ _ ∈ _, _))

instance : DecidablePred (FullAt cs) := fun _ => inferInstanceAs (Decidable (∃ _ ∈ _, _))

instance : DecidablePred (PartialAt cs) := fun _ => inferInstanceAs (Decidable (∃ _ ∈ _, _))

/-- A callback before `k` was full. -/
def FullBefore (k : Nat) : Prop := ∃ i < k, FullAt cs i

instance : DecidablePred (FullBefore cs) := fun _ => inferInstanceAs (Decidable (∃ _ < _, _))

/-- The maximal runs of short callbacks that come after the first full callback
and are followed by a full callback. -/
def gaps : Finset (Nat × Nat) :=
  maximalRuns (ShortAt cs) (fun i j => FullBefore cs i ∧ FullAt cs j) cs.length

/-- The callback before `k` was short, and a callback before that was full. -/
def Starved (k : Nat) : Prop := ShortAt cs (k - 1) ∧ FullBefore cs (k - 1)

instance : DecidablePred (Starved cs) := fun _ => inferInstanceAs (Decidable (_ ∧ _))

end

variable {cs : List (Nat × Nat)}

theorem FullAt.not_shortAt {k : Nat} (h : FullAt cs k) : ¬ ShortAt cs k := by
  rintro ⟨cb, hcb, hshort⟩
  obtain ⟨cb', hcb', hfull⟩ := h
  cases Option.mem_unique hcb hcb'
  omega

theorem PartialAt.shortAt {k : Nat} (h : PartialAt cs k) : ShortAt cs k := by
  obtain ⟨cb, hcb, -, hshort⟩ := h
  exact ⟨cb, hcb, hshort⟩

/-- The gaps are counted by their ends: the full callbacks that follow a short
one, once a callback was full. -/
theorem starved_and_fullAt_iff (j : Nat) :
    Starved cs j ∧ FullAt cs j ↔
      ∃ i, MaximalRun (ShortAt cs) i j ∧ FullBefore cs i ∧ FullAt cs j := by
  constructor
  · rintro ⟨⟨hshort, m, hm, hfull⟩, hj⟩
    have hsucc : j - 1 + 1 = j := by omega
    obtain ⟨i, hrun⟩ := exists_maximalRun hshort (by rw [hsucc]; exact hj.not_shortAt)
    rw [hsucc] at hrun
    refine ⟨i, hrun, ⟨m, ?_, hfull⟩, hj⟩
    -- the full callback is not in the run
    by_contra hle
    exact hfull.not_shortAt (hrun.2.1 m (by omega) (by omega))
  · rintro ⟨i, ⟨hij, hrun, -, -⟩, ⟨m, hm, hfull⟩, hj⟩
    exact ⟨⟨hrun (j - 1) (by omega) (by omega), m, by omega, hfull⟩, hj⟩

theorem card_gaps :
    (gaps cs).card =
      ((Finset.range cs.length).filter fun j => Starved cs j ∧ FullAt cs j).card :=
  card_maximalRuns _ _ starved_and_fullAt_iff

/-! ## The detector -/

/-- Audio arrived. -/
def AudioAt (cs : List (Nat × Nat)) (k : Nat) : Prop := ∃ cb ∈ cs[k]?, 0 < cb.1

instance : DecidablePred (AudioAt cs) := fun _ => inferInstanceAs (Decidable (∃ _ ∈ _, _))

/-- What the detector knows before callback `n`. -/
structure Watching (cs : List (Nat × Nat)) (n : Nat) (st : UnderrunDetector × Nat) : Prop where
  primed : st.1.primed = true ↔ FullBefore cs n
  starving : st.1.starving = true ↔ Starved cs n
  counter : st.2 = ((Finset.range n).filter fun k => Starved cs k ∧ AudioAt cs k).card

theorem watching_zero : Watching cs 0 (.new, 0) where
  primed := by simp [UnderrunDetector.new, FullBefore]
  starving := by simp [UnderrunDetector.new, Starved, FullBefore]
  counter := rfl

theorem observe_primed (d : UnderrunDetector) (got wanted counter : Nat) :
    (d.observe got wanted counter).1.primed = (d.primed || decide (wanted ≤ got)) := by
  grind [UnderrunDetector.observe]

theorem observe_starving (d : UnderrunDetector) (got wanted counter : Nat) (hw : 0 < wanted) :
    (d.observe got wanted counter).1.starving =
      (decide (got < wanted) && (d.primed || d.starving && got == 0)) := by
  grind [UnderrunDetector.observe]

theorem observe_counter (d : UnderrunDetector) (got wanted counter : Nat) :
    (d.observe got wanted counter).2 = counter + if d.starving ∧ 0 < got then 1 else 0 := by
  grind [UnderrunDetector.observe]

theorem fullBefore_succ (n : Nat) : FullBefore cs (n + 1) ↔ FullBefore cs n ∨ FullAt cs n := by
  simp only [FullBefore, Nat.exists_lt_succ_right]

theorem Starved.fullBefore {n : Nat} (h : Starved cs n) : FullBefore cs n := by
  obtain ⟨-, m, hm, hfull⟩ := h
  exact ⟨m, by omega, hfull⟩

theorem starved_succ (n : Nat) : Starved cs (n + 1) ↔ ShortAt cs n ∧ FullBefore cs n := .rfl

/-- One callback, seen whole. -/
theorem Watching.observe {n : Nat} {st : UnderrunDetector × Nat} (h : Watching cs n st)
    {got wanted : Nat} (hcb : cs[n]? = some (got, wanted)) (hw : 0 < wanted) :
    Watching cs (n + 1) (st.1.observe got wanted st.2) where
  primed := by
    have hfull : FullAt cs n ↔ wanted ≤ got := by simp [FullAt, hcb]
    rw [observe_primed, fullBefore_succ, hfull, ← h.primed]
    simp
  starving := by
    have hshort : ShortAt cs n ↔ got < wanted := by simp [ShortAt, hcb]
    -- a callback without audio leaves the gap open, which implies `primed`
    have hprimed : st.1.starving = true → st.1.primed = true := fun hs =>
      h.primed.mpr (h.starving.mp hs).fullBefore
    rw [observe_starving _ _ _ _ hw, starved_succ, hshort, ← h.primed]
    simp only [Bool.and_eq_true, Bool.or_eq_true, decide_eq_true_eq]
    tauto
  counter := by
    have haudio : AudioAt cs n ↔ 0 < got := by simp [AudioAt, hcb]
    rw [observe_counter, h.counter, Finset.range_add_one, Finset.filter_insert]
    simp only [h.starving, haudio]
    split
    · rw [Finset.card_insert_of_notMem (by simp)]
    · rfl

/-- The detector before callback `n`. -/
theorem watching_take (hw : ∀ cb ∈ cs, 0 < cb.2) {n : Nat} (hn : n ≤ cs.length) :
    Watching cs n (drive (cs.take n)) := by
  induction n with
  | zero => exact watching_zero
  | succ n ih =>
    have hget : cs[n]? = some (cs[n].1, cs[n].2) := List.getElem?_eq_getElem hn
    have hstep := (ih (by omega)).observe hget (hw _ (List.getElem_mem hn))
    rw [← List.take_append_getElem hn, drive, List.foldl_append]
    exact hstep

/-- **What is counted**: the callbacks that bring audio directly after a short
one, once a callback was full. -/
theorem underruns_eq_card (hw : ∀ cb ∈ cs, 0 < cb.2) :
    underrunsFor cs =
      ((Finset.range cs.length).filter fun k => Starved cs k ∧ AudioAt cs k).card := by
  have hall := (watching_take hw le_rfl).counter
  rwa [List.take_length] at hall

/-! ## Gaps and their count -/

/-- A callback that is itself partly filled, directly after a short one, once a
callback was full. -/
def Relapse (cs : List (Nat × Nat)) (k : Nat) : Prop := Starved cs k ∧ PartialAt cs k

theorem audioAt_iff (hw : ∀ cb ∈ cs, 0 < cb.2) (k : Nat) :
    AudioAt cs k ↔ FullAt cs k ∨ PartialAt cs k := by
  constructor
  · rintro ⟨cb, hcb, hgot⟩
    obtain hshort | hfull := Nat.lt_or_ge cb.1 cb.2
    · exact .inr ⟨cb, hcb, hgot, hshort⟩
    · exact .inl ⟨cb, hcb, hfull⟩
  · rintro (⟨cb, hcb, hfull⟩ | ⟨cb, hcb, hgot, -⟩)
    · exact ⟨cb, hcb, (hw cb (List.mem_of_getElem? hcb)).trans_le hfull⟩
    · exact ⟨cb, hcb, hgot⟩

theorem Relapse.lt_length {k : Nat} (h : Relapse cs k) : k < cs.length := by
  obtain ⟨-, cb, hcb, -⟩ := h
  exact (List.getElem?_eq_some_iff.mp hcb).1

theorem Relapse.not_fullAt {k : Nat} (h : Relapse cs k) : ¬ FullAt cs k := fun hfull =>
  hfull.not_shortAt h.2.shortAt

/-- **Underruns are counted per gap exactly in the sequences in which no gap,
once it is open, goes on with a partly filled callback.** -/
theorem underruns_eq_card_gaps_iff (cs : List (Nat × Nat)) (hw : ∀ cb ∈ cs, 0 < cb.2) :
    underrunsFor cs = (gaps cs).card ↔ ∀ k, ¬ Relapse cs k := by
  rw [underruns_eq_card hw, card_gaps]
  constructor
  · intro heq k hk
    have hsub : (Finset.range cs.length).filter (fun k => Starved cs k ∧ FullAt cs k) ⊆
        (Finset.range cs.length).filter fun k => Starved cs k ∧ AudioAt cs k :=
      Finset.monotone_filter_right _ fun k _ h => ⟨h.1, (audioAt_iff hw k).mpr (.inl h.2)⟩
    have hmem : k ∈ (Finset.range cs.length).filter fun k => Starved cs k ∧ AudioAt cs k :=
      Finset.mem_filter.mpr ⟨Finset.mem_range.mpr hk.lt_length, hk.1,
        (audioAt_iff hw k).mpr (.inr hk.2)⟩
    rw [← Finset.eq_of_subset_of_card_le hsub heq.le] at hmem
    exact hk.not_fullAt (Finset.mem_filter.mp hmem).2.2
  · intro hnone
    congr 1
    refine Finset.filter_congr fun k _ => and_congr_right fun hs => ?_
    rw [audioAt_iff hw, or_iff_left]
    exact fun hpart => hnone k ⟨hs, hpart⟩

/-- Two empty callbacks and then a full one. -/
theorem underruns_eq_card_gaps_empty :
    (∀ cb ∈ [(512, 512), (0, 512), (0, 512), (512, 512)], 0 < cb.2) ∧
      (underrunsFor [(512, 512), (0, 512), (0, 512), (512, 512)] =
        (gaps [(512, 512), (0, 512), (0, 512), (512, 512)]).card ↔
          ∀ k, ¬ Relapse [(512, 512), (0, 512), (0, 512), (512, 512)] k) :=
  ⟨by decide, underruns_eq_card_gaps_iff _ (by decide)⟩

/-- One gap of two partly filled callbacks counts twice, and the drain at the
end of a stream counts when it takes two. -/
theorem partial_gap_counts_twice :
    underrunsFor [(512, 512), (300, 512), (100, 512), (512, 512)] = 2 ∧
      (gaps [(512, 512), (300, 512), (100, 512), (512, 512)]).card = 1 ∧
      underrunsFor [(512, 512), (300, 512), (100, 512), (0, 512)] = 1 ∧
      (gaps [(512, 512), (300, 512), (100, 512), (0, 512)]).card = 0 := by
  decide +kernel

end Oaat.Cpal
