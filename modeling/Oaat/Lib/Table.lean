/-
Oaat.Lib.Table — finite maps that are visited as well as looked up.

A `Table` is one of Mathlib's association lists at a single value type. To
looking up, inserting and erasing it adds what a hash map's `iter_mut`,
`get_mut` and repeated `remove` do: visiting every entry in place (`visit`),
visiting one (`modify`), and erasing a list of keys (`eraseAll`). Each is
described by what a lookup then gives.
-/
import Mathlib.Data.List.AList

namespace Oaat.Lib

abbrev Table (κ : Type) (α : Type) : Type := AList fun _ : κ => α

namespace Table

variable {κ α β : Type}

/-- Every value is replaced, in place. -/
def visit (f : κ → α → β) (t : Table κ α) : Table κ β where
  entries := t.entries.map fun e => ⟨e.1, f e.1 e.2⟩
  nodupKeys := by
    have hkeys : (t.entries.map fun e => (⟨e.1, f e.1 e.2⟩ : Sigma fun _ : κ => β)).keys =
        t.entries.keys := by
      simp [List.keys]
    rw [List.NodupKeys, hkeys]
    exact t.nodupKeys

@[simp] theorem keys_visit (f : κ → α → β) (t : Table κ α) : (t.visit f).keys = t.keys := by
  simp [AList.keys, visit, List.keys]

@[simp] theorem mem_visit {f : κ → α → β} {t : Table κ α} {k : κ} :
    k ∈ t.visit f ↔ k ∈ t := by
  simp only [AList.mem_keys, keys_visit]

/-- Two listings without repetitions that have the same elements. -/
theorem keys_perm_iff {t t' : Table κ α} : t.keys.Perm t'.keys ↔ ∀ k, k ∈ t ↔ k ∈ t' := by
  rw [List.perm_ext_iff_of_nodup t.keys_nodup t'.keys_nodup]
  simp only [AList.mem_keys]

variable [DecidableEq κ]

@[simp] theorem lookup_visit (f : κ → α → β) (t : Table κ α) (k : κ) :
    (t.visit f).lookup k = (t.lookup k).map (f k) := by
  obtain ⟨entries, hnodup⟩ := t
  show List.dlookup k (entries.map fun e => (⟨e.1, f e.1 e.2⟩ : Sigma fun _ : κ => β)) =
    (List.dlookup k entries).map (f k)
  clear hnodup
  induction entries with
  | nil => rfl
  | cons e rest ih =>
    obtain ⟨k', v⟩ := e
    by_cases hk : k = k'
    · subst hk
      simp
    · rw [List.map_cons, List.dlookup_cons_ne, List.dlookup_cons_ne, ih]
      · exact hk
      · exact hk

/-- The value of one key is replaced, if it has one. -/
def modify (k : κ) (f : α → α) (t : Table κ α) : Table κ α :=
  t.visit fun k' v => if k' = k then f v else v

@[simp] theorem keys_modify (k : κ) (f : α → α) (t : Table κ α) :
    (t.modify k f).keys = t.keys := keys_visit _ t

theorem lookup_modify (k k' : κ) (f : α → α) (t : Table κ α) :
    (t.modify k f).lookup k' = if k' = k then (t.lookup k').map f else t.lookup k' := by
  rw [modify, lookup_visit]
  split
  next => rfl
  next => exact Option.map_id'

@[simp] theorem lookup_modify_self (k : κ) (f : α → α) (t : Table κ α) :
    (t.modify k f).lookup k = (t.lookup k).map f := by
  rw [lookup_modify, if_pos rfl]

/-- The keys are erased, one after another. -/
def eraseAll (ks : List κ) (t : Table κ α) : Table κ α := ks.foldl (fun t k => t.erase k) t

theorem lookup_eraseAll (ks : List κ) (t : Table κ α) (k : κ) :
    (t.eraseAll ks).lookup k = if k ∈ ks then none else t.lookup k := by
  induction ks generalizing t with
  | nil => rfl
  | cons k₁ ks ih =>
    rw [eraseAll, List.foldl_cons, ← eraseAll, ih]
    by_cases hk : k = k₁
    · subst hk
      simp
    · simp [hk, AList.lookup_erase_ne hk]

theorem mem_iff_lookup {t : Table κ α} {k : κ} : k ∈ t ↔ ∃ v, t.lookup k = some v := by
  rw [← AList.lookup_isSome, Option.isSome_iff_exists]

end Table

end Oaat.Lib
