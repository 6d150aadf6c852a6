/-
Oaat.Lib.Versions — documents that another version of a type may write.

A `Content` is what a text in a format like JSON denotes. A `Schema` says what
another version may change in the content of a type, one `Edit` at a time: the
order of members, members that this version does not know, members that have a
default, and names that this version takes for another. `Varies` is any number
of edits.

A reader that is indifferent to every single edit is indifferent to all of them
(`Varies.read`). Edits keep the normal form of a content, its known members in
the order of the schema with their defaults (`Edit.normal_eq`): a reader of normal
forms is indifferent to every edit.
-/
import Mathlib.Data.List.Basic
import Mathlib.Data.List.Perm.Basic
import Mathlib.Logic.Relation

namespace Oaat.Lib.Versions

/-- What a text denotes. Members keep their order and their multiplicity; `float`
is any number that is no 64-bit integer. -/
inductive Content where
  | null
  | bool (b : Bool)
  | int (i : Int)
  | float
  | string (s : String)
  | array (items : List Content)
  | object (members : List (String × Content))

/-- What another version may change in a type. `names` are those of an enum with
a variant for every other name. A field has a name, the type of its value, and
what its default is written as. A tagged enum has the fields of its variants. -/
inductive Schema where
  | leaf
  | names (known : List String) (other : String)
  | struct (fields : List (String × Schema × Option Content))
  | tagged (tag : String) (variants : List (String × List (String × Schema × Option Content)))

abbrev Fields := List (String × Schema × Option Content)

abbrev Members := List (String × Content)

inductive Change where
  | order
  | unknown
  | default
  | other
  deriving Repr, DecidableEq

variable {ε α : Type} {c : Change} {s : Schema} {fields : Fields} {t u : Content}
  {k k' : String} {ms ns : Members}

/-! ## Members -/

/-- The member of a name, if it is there; `none` where it is there twice. -/
def memberOf (k : String) (ms : Members) : Option (Option Content) :=
  match ms.filter (·.1 = k) with
  | [] => some none
  | [m] => some (some m.2)
  | _ => none

theorem memberOf_perm (h : ms.Perm ns) : memberOf k ms = memberOf k ns := by
  have hk := h.filter (·.1 = k)
  rw [memberOf, memberOf]
  generalize ms.filter (·.1 = k) = xs at hk
  generalize ns.filter (·.1 = k) = ys at hk
  match xs, ys with
  | [], _ => rw [hk.nil_eq]
  | [x], _ => rw [List.singleton_perm.mp hk]
  | x :: x' :: xs, ys =>
    obtain ⟨y, y', ys, rfl⟩ : ∃ y y' ys', ys = y :: y' :: ys' := by
      match ys, hk.length_eq with
      | y :: y' :: ys, _ => exact ⟨y, y', ys, rfl⟩
    rfl

theorem memberOf_cons_of_ne (h : k' ≠ k) : memberOf k ((k', t) :: ms) = memberOf k ms := by
  rw [memberOf, memberOf, List.filter_cons_of_neg (by simpa using h)]

/-- A name that is there once more. -/
theorem memberOf_cons_self : memberOf k ((k, t) :: ms) = match memberOf k ms with
    | some none => some (some t)
    | _ => none := by
  rw [memberOf, memberOf, List.filter_cons_of_pos (by simp)]
  generalize ms.filter (·.1 = k) = xs
  match xs with
  | [] => rfl
  | [_] => rfl
  | _ :: _ :: _ => rfl

/-! ## Edits -/

/-- `Edit c s t u`: `t` is `u` with one change. -/
inductive Edit (c : Change) : Schema → Content → Content → Prop where
  | order {fields : Fields} {ms ns : Members} (hc : c = .order) (h : ms.Perm ns) :
      Edit c (.struct fields) (.object ms) (.object ns)
  | unknown {fields : Fields} {ms : Members} {k : String} {t : Content} (hc : c = .unknown)
      (hk : fields.lookup k = none) :
      Edit c (.struct fields) (.object ((k, t) :: ms)) (.object ms)
  | absent {fields : Fields} {ms : Members} {k : String} {s : Schema} {d : Content}
      (hc : c = .default) (hk : fields.lookup k = some (s, some d))
      (hms : memberOf k ms = some none) :
      Edit c (.struct fields) (.object ms) (.object ((k, d) :: ms))
  | spelled {fields : Fields} {ms : Members} {k : String} {s : Schema} {d : Content}
      (hc : c = .default) (hk : fields.lookup k = some (s, some d))
      (hms : memberOf k ms = some none) :
      Edit c (.struct fields) (.object ((k, d) :: ms)) (.object ms)
  | other {known : List String} {name other : String} (hc : c = .other) (h : name ∉ known) :
      Edit c (.names known other) (.string name) (.string other)
  | member {fields : Fields} {ms : Members} {k : String} {s : Schema} {d : Option Content}
      {t u : Content} (hk : fields.lookup k = some (s, d)) (h : Edit c s t u) :
      Edit c (.struct fields) (.object ((k, t) :: ms)) (.object ((k, u) :: ms))
  | variant {tag name : String} {variants : List (String × Fields)} {fields : Fields}
      {ms ns : Members} (hv : variants.lookup name = some fields)
      (htag : memberOf tag ns = some (some (.string name)))
      (h : Edit c (.struct ((tag, .leaf, none) :: fields)) (.object ms) (.object ns)) :
      Edit c (.tagged tag variants) (.object ms) (.object ns)

/-- No edit touches the member that tells the variants apart. -/
theorem Edit.member_tag {tag : String}
    (h : Edit c (.struct ((tag, .leaf, none) :: fields)) (.object ms) (.object ns)) :
    memberOf tag ms = memberOf tag ns := by
  have hne {k : String} (hk : ((tag, .leaf, none) :: fields : Fields).lookup k ≠
      some (.leaf, none)) : k ≠ tag := by
    rintro rfl
    exact hk List.lookup_cons_self
  cases h with
  | order _ h => exact memberOf_perm h
  | unknown _ hk => exact memberOf_cons_of_ne (hne (hk ▸ nofun))
  | absent _ hk _ => exact (memberOf_cons_of_ne (hne (hk ▸ nofun))).symm
  | spelled _ hk _ => exact memberOf_cons_of_ne (hne (hk ▸ nofun))
  | member hk h =>
    have hleaf := hne fun h' => by cases hk.symm.trans h'; cases h
    rw [memberOf_cons_of_ne hleaf, memberOf_cons_of_ne hleaf]

/-- `t` is `u` as another version may write it. -/
def Varies (s : Schema) : Content → Content → Prop :=
  Relation.ReflTransGen fun t u => ∃ c, Edit c s t u

theorem Edit.varies (h : Edit c s t u) : Varies s t u := .single ⟨c, h⟩

theorem Varies.trans {v : Content} (h : Varies s t u) (h' : Varies s u v) : Varies s t v :=
  Relation.ReflTransGen.trans h h'

theorem Varies.perm (h : ms.Perm ns) : Varies (.struct fields) (.object ms) (.object ns) :=
  (Edit.order rfl h).varies

/-- A member without its default, wherever it stands. -/
theorem Varies.absent (pre : Members) {post : Members} (hk : fields.lookup k = some (s, some t))
    (hms : memberOf k (pre ++ post) = some none) :
    Varies (.struct fields) (.object (pre ++ post)) (.object (pre ++ (k, t) :: post)) :=
  (Edit.absent rfl hk hms).varies.trans (Varies.perm List.perm_middle.symm)

/-- A member that varies, wherever it stands. -/
theorem Varies.member (pre : Members) {post : Members} {d : Option Content}
    (hk : fields.lookup k = some (s, d)) (h : Varies s t u) :
    Varies (.struct fields) (.object (pre ++ (k, t) :: post))
      (.object (pre ++ (k, u) :: post)) := by
  have hfront : Varies (.struct fields) (.object ((k, t) :: (pre ++ post)))
      (.object ((k, u) :: (pre ++ post))) :=
    Relation.ReflTransGen.lift (fun v => Content.object ((k, v) :: (pre ++ post)))
      (fun _ _ ⟨c, h⟩ => ⟨c, Edit.member hk h⟩) _ _ h
  exact (Varies.perm List.perm_middle).trans (hfront.trans (.perm List.perm_middle.symm))

theorem Varies.variant {tag name : String} {variants : List (String × Fields)}
    (hv : variants.lookup name = some fields) (htag : memberOf tag ns = some (some (.string name)))
    (h : Varies (.struct ((tag, .leaf, none) :: fields)) t (.object ns)) :
    Varies (.tagged tag variants) t (.object ns) ∧
      ∃ ms, t = .object ms ∧ memberOf tag ms = some (some (.string name)) := by
  induction h using Relation.ReflTransGen.head_induction_on with
  | refl => exact ⟨.refl, ns, rfl, htag⟩
  | @head t u hstep _ ih =>
    obtain ⟨hvaries, us, rfl, hus⟩ := ih
    obtain ⟨c, hstep⟩ := hstep
    obtain ⟨ms, rfl⟩ : ∃ ms, t = .object ms := by cases hstep <;> exact ⟨_, rfl⟩
    have hedit : Edit c (.tagged tag variants) (.object ms) (.object us) := .variant hv hus hstep
    exact ⟨hedit.varies.trans hvaries, ms, rfl, hstep.member_tag.trans hus⟩

/-- A reader does not see a change of this kind. -/
def Indifferent (c : Change) (s : Schema) (de : Content → Except ε α) : Prop :=
  ∀ {t u a}, Edit c s t u → de u = .ok a → de t = .ok a

/-- **A reader that does not see single edits reads what another version writes.** -/
theorem Varies.read {de : Content → Except ε α} {a : α} (hde : ∀ c, Indifferent c s de)
    (h : Varies s t u) (hu : de u = .ok a) : de t = .ok a := by
  induction h using Relation.ReflTransGen.head_induction_on with
  | refl => exact hu
  | head hstep _ ih =>
    obtain ⟨c, hstep⟩ := hstep
    exact hde c hstep ih

/-! ## Normal forms -/

def without (k : String) (ms : Members) : Members := ms.filter (·.1 ≠ k)

mutual

/-- The known members in the order of the schema, with their defaults; `none`
where one is missing or there twice. -/
def normal : Schema → Content → Option Content
  | .leaf, t => some t
  | .names known other, .string name => some (.string (if name ∈ known then name else other))
  | .struct fields, .object ms => (normalFields fields ms).map .object
  | .tagged tag variants, .object ms =>
    match memberOf tag ms with
    | some (some (.string name)) =>
      (normalVariant variants name (without tag ms)).map fun ms =>
        .object ((tag, .string name) :: ms)
    | _ => none
  | _, t => some t

def normalFields : Fields → Members → Option Members
  | [], _ => some []
  | (k, s, d) :: fields, ms =>
    ((memberOf k ms).bind fun t => (t.or d).bind (normal s)).bind fun t =>
      (normalFields fields (without k ms)).map ((k, t) :: ·)

def normalVariant : List (String × Fields) → String → Members → Option Members
  | [], _, _ => none
  | (k, fields) :: variants, name, ms =>
    if k = name then normalFields fields ms else normalVariant variants name ms

end

theorem memberOf_without_self : memberOf k (without k ms) = some none := by
  have hk : (without k ms).filter (·.1 = k) = [] := by
    rw [List.filter_eq_nil_iff]
    intro m hm
    simpa using (List.mem_filter.mp hm).2
  rw [memberOf, hk]

theorem memberOf_without_of_ne (h : k' ≠ k) : memberOf k (without k' ms) = memberOf k ms := by
  have hk : (without k' ms).filter (·.1 = k) = ms.filter (·.1 = k) := by
    rw [without, List.filter_filter]
    refine List.filter_congr fun m _ => ?_
    by_cases hm : m.1 = k
    · simp [hm, h.symm]
    · simp [hm]
  rw [memberOf, memberOf, hk]

/-- What a field is read as. -/
def fieldValue (ms : Members) (k : String) (s : Schema) (d : Option Content) : Option Content :=
  (memberOf k ms).bind fun t => (t.or d).bind (normal s)

theorem normalFields_cons {d : Option Content} :
    normalFields ((k, s, d) :: fields) ms = (fieldValue ms k s d).bind fun t =>
      (normalFields fields (without k ms)).map ((k, t) :: ·) := by
  rw [normalFields, fieldValue]

theorem normalFields_congr : ∀ {fields : Fields} {ms ns : Members},
    (∀ {k s d}, fields.lookup k = some (s, d) → fieldValue ms k s d = fieldValue ns k s d) →
    normalFields fields ms = normalFields fields ns
  | [], _, _, _ => by rw [normalFields, normalFields]
  | (k, s, d) :: fields, ms, ns, h => by
      have hrest : normalFields fields (without k ms) = normalFields fields (without k ns) := by
        refine normalFields_congr fun {k' s' d'} hk' => ?_
        by_cases hne : k' = k
        · rw [fieldValue, fieldValue, hne, memberOf_without_self, memberOf_without_self]
        · have hcons : ((k, s, d) :: fields).lookup k' = some (s', d') := by
            rwa [List.lookup_cons, beq_false_of_ne hne]
          have hsame := h hcons
          simp only [fieldValue] at hsame ⊢
          rwa [memberOf_without_of_ne (Ne.symm hne), memberOf_without_of_ne (Ne.symm hne)]
      rw [normalFields_cons, normalFields_cons, h List.lookup_cons_self, hrest]

/-- A field that is written with its default, or not at all. -/
theorem fieldValue_default {d : Content} {k' : String} {s' : Schema} {d' : Option Content}
    (hk : fields.lookup k = some (s, some d)) (hms : memberOf k ms = some none)
    (hk' : fields.lookup k' = some (s', d')) :
    fieldValue ((k, d) :: ms) k' s' d' = fieldValue ms k' s' d' := by
  by_cases hne : k = k'
  · subst hne
    obtain ⟨rfl, rfl⟩ := Prod.mk.inj (Option.some.inj (hk.symm.trans hk'))
    rw [fieldValue, fieldValue, memberOf_cons_self, hms]
    rfl
  · rw [fieldValue, fieldValue, memberOf_cons_of_ne hne]

theorem fieldValue_member {d : Option Content} {k' : String} {s' : Schema} {d' : Option Content}
    (hk : fields.lookup k = some (s, d)) (h : normal s t = normal s u)
    (hk' : fields.lookup k' = some (s', d')) :
    fieldValue ((k, t) :: ms) k' s' d' = fieldValue ((k, u) :: ms) k' s' d' := by
  by_cases hne : k = k'
  · subst hne
    obtain ⟨rfl, rfl⟩ := Prod.mk.inj (Option.some.inj (hk.symm.trans hk'))
    rw [fieldValue, fieldValue, memberOf_cons_self, memberOf_cons_self]
    split
    · exact h
    · rfl
  · rw [fieldValue, fieldValue, memberOf_cons_of_ne hne, memberOf_cons_of_ne hne]

theorem normalVariant_of_lookup {name : String} : ∀ {variants : List (String × Fields)},
    variants.lookup name = some fields →
    normalVariant variants name ms = normalFields fields ms
  | (k, fields') :: variants, h => by
      rw [normalVariant]
      by_cases hk : k = name
      · rw [if_pos hk]
        subst hk
        rw [List.lookup_cons_self, Option.some.injEq] at h
        rw [h]
      · rw [if_neg hk]
        rw [List.lookup_cons, beq_false_of_ne (Ne.symm hk)] at h
        exact normalVariant_of_lookup h

/-- **Edits keep the normal form.** -/
theorem Edit.normal_eq (h : Edit c s t u) : normal s t = normal s u := by
  induction h with
  | order _ h =>
    rw [normal, normal, normalFields_congr fun _ => ?_]
    rw [fieldValue, fieldValue, memberOf_perm h]
  | @unknown fields ms k t _ hk =>
    rw [normal, normal, normalFields_congr fun {k' _ _} hk' => ?_]
    have hne : k ≠ k' := by
      rintro rfl
      cases hk.symm.trans hk'
    rw [fieldValue, fieldValue, memberOf_cons_of_ne hne]
  | absent _ hk hms =>
    rw [normal, normal, normalFields_congr fun hk' => (fieldValue_default hk hms hk').symm]
  | spelled _ hk hms =>
    rw [normal, normal, normalFields_congr fun hk' => fieldValue_default hk hms hk']
  | other _ h => simp [normal, h]
  | member hk _ ih =>
    rw [normal, normal, normalFields_congr fun hk' => fieldValue_member hk ih hk']
  | @variant tag name variants fields ms ns hv htag h ih =>
    have hvariant : ∀ ms, normalVariant variants name ms = normalFields fields ms :=
      fun _ => normalVariant_of_lookup hv
    have hsame : ∀ ms : Members, memberOf tag ms = some (some (.string name)) →
        normal (.struct ((tag, .leaf, none) :: fields)) (.object ms) =
          (normalFields fields (without tag ms)).map fun ms =>
            .object ((tag, .string name) :: ms) := fun ms hms => by
      rw [normal, normalFields_cons, fieldValue, hms]
      simp [normal, Function.comp_def]
    have hms := h.member_tag.trans htag
    rw [normal, normal]
    simp only [hms, htag, hvariant]
    rw [← hsame ms hms, ← hsame ns htag, ih]

end Oaat.Lib.Versions
