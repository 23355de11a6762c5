import ApiLint.Proofs.Node.Outline
set_option autoImplicit false

/-!
# Reordering the fields of objects

Trees that differ in the order of the fields of their objects, at whatever depth.  A
reordering keeps a tree well formed, and well-formed trees are reorderings of each other
exactly when they have one outline.
-/

namespace ApiLint

namespace Node

/-- The tree is another one with the fields of its objects in another order, at any depth: the
fields of an object are permuted, or one value or element is reordered in its place. -/
inductive Reordered : Node → Node → Prop
  | refl (node : Node) : Reordered node node
  | trans {a b c : Node} (hab : Reordered a b) (hbc : Reordered b c) : Reordered a c
  | fields {fields others : Fields} (hperm : fields.Perm others) :
      Reordered (.object fields) (.object others)
  | value (before : Fields) (key : String) {value other : Node} (after : Fields)
      (hvalue : Reordered value other) :
      Reordered (.object (before ++ (key, value) :: after))
        (.object (before ++ (key, other) :: after))
  | item (before : List Node) {item other : Node} (after : List Node)
      (hitem : Reordered item other) :
      Reordered (.array (before ++ item :: after)) (.array (before ++ other :: after))

namespace Reordered

theorem wellFormed {a b : Node} (h : a.Reordered b) (hwf : a.WellFormed) : b.WellFormed := by
  induction h with
  | refl => exact hwf
  | trans _ _ ihab ihbc => exact ihbc (ihab hwf)
  | @fields fields others hperm =>
    rw [wellFormed_object_iff] at hwf ⊢
    refine ⟨(hperm.map Prod.fst).nodup_iff.mp hwf.1, fun field hfield => ?_⟩
    exact hwf.2 field (hperm.mem_iff.mpr hfield)
  | value before key after _ ih =>
    rw [wellFormed_object_iff] at hwf ⊢
    refine ⟨by simpa [Fields.keys] using hwf.1, ?_⟩
    simp only [List.forall_mem_append, List.forall_mem_cons] at hwf ⊢
    exact ⟨hwf.2.1, ih hwf.2.2.1, hwf.2.2.2⟩
  | item before after _ ih =>
    rw [wellFormed_array_iff] at hwf ⊢
    simp only [List.forall_mem_append, List.forall_mem_cons] at hwf ⊢
    exact ⟨hwf.1, ih hwf.2.1, hwf.2.2⟩

/-- A key leads to the same value whatever the order of fields with distinct keys. -/
theorem get?_eq_of_perm {fields others : Fields} (hnodup : (Fields.keys fields).Nodup)
    (hperm : fields.Perm others) (key : String) :
    Fields.get? fields key = Fields.get? others key := by
  refine Option.ext fun value => ?_
  have hothers : (Fields.keys others).Nodup := (hperm.map Prod.fst).nodup_iff.mp hnodup
  rw [← Fields.mem_iff_get?_eq_some hnodup, ← Fields.mem_iff_get?_eq_some hothers, hperm.mem_iff]

theorem outline_eq {a b : Node} (h : a.Reordered b) (hwf : a.WellFormed) :
    a.outline = b.outline := by
  induction h with
  | refl => rfl
  | trans hab _ ihab ihbc => exact (ihab hwf).trans (ihbc (hab.wellFormed hwf))
  | fields hperm =>
    refine outline_object_iff.mpr fun key => ?_
    rw [get?_eq_of_perm ((wellFormed_object_iff _).mp hwf).1 hperm key]
  | @value before key value other after _ ih =>
    have hmem : (key, value) ∈ (object (before ++ (key, value) :: after)).fields := by
      simp [Node.fields, fields?]
    have hvalue : value.outline = other.outline := ih (hwf.of_mem_fields hmem)
    refine outline_object_iff.mpr fun name => ?_
    rw [Fields.get?_append, Fields.get?_append, Option.map_or, Option.map_or, Fields.get?,
      Fields.get?]
    split
    · rw [Option.map_some, Option.map_some, hvalue]
    · rfl
  | @item before item other after _ ih =>
    have hitem : item.outline = other.outline := ih (hwf.of_mem_items (by simp [items, items?]))
    rw [outline_array_iff]
    simp [hitem]

end Reordered

/-! ## Outlines tell nothing else -/

/-- Values are reordered in their places. -/
theorem reordered_values (before : Fields) {fields others : Fields}
    (h : List.Forall₂ (fun f g => f.1 = g.1 ∧ f.2.Reordered g.2) fields others) :
    (object (before ++ fields)).Reordered (object (before ++ others)) := by
  induction h generalizing before with
  | nil => exact .refl _
  | @cons f g fields others hfirst _ ih =>
    obtain ⟨name, value⟩ := f
    obtain ⟨_, other⟩ := g
    obtain ⟨rfl, hvalue⟩ := hfirst
    have hrest := ih (before ++ [(name, other)])
    rw [List.append_assoc, List.append_assoc] at hrest
    exact .trans (.value before name fields hvalue) hrest

/-- Elements are reordered in their places. -/
theorem reordered_items (before : List Node) {items others : List Node}
    (h : List.Forall₂ Reordered items others) :
    (array (before ++ items)).Reordered (array (before ++ others)) := by
  induction h generalizing before with
  | nil => exact .refl _
  | @cons item other items others hfirst _ ih =>
    have hrest := ih (before ++ [other])
    rw [List.append_assoc, List.append_assoc] at hrest
    exact .trans (.item before items hfirst) hrest

/-- The fields of one object with the values that another one has under their keys. -/
def aligned (fields others : Fields) : Fields :=
  fields.map fun field => (field.1, (Fields.get? others field.1).getD field.2)

theorem perm_aligned {fields others : Fields} (hfields : (object fields).WellFormed)
    (hothers : (object others).WellFormed)
    (h : (object fields).outline = (object others).outline) :
    (aligned fields others).Perm others := by
  have hnodup := ((wellFormed_object_iff _).mp hfields).1
  have hnodupOthers := ((wellFormed_object_iff _).mp hothers).1
  have haligned : (Fields.keys (aligned fields others)).Nodup := by
    rwa [Fields.keys, aligned, List.map_map]
  refine (List.perm_ext_iff_of_nodup haligned.of_map hnodupOthers.of_map).mpr ?_
  rintro ⟨key, value⟩
  rw [Fields.mem_iff_get?_eq_some hnodupOthers, aligned, List.mem_map]
  have hkey : (Fields.get? fields key = none ∧ Fields.get? others key = none) ∨
      ∃ v w, Fields.get? fields key = some v ∧ Fields.get? others key = some w ∧
        v.outline = w.outline := get?_of_outline h key
  constructor
  · rintro ⟨⟨name, old⟩, hmem, heq⟩
    obtain ⟨rfl, hvalue⟩ := Prod.mk.inj heq
    have hold := Fields.get?_eq_some_of_mem hnodup hmem
    obtain ⟨hnone, _⟩ | ⟨_, w, _, hw, _⟩ := hkey
    · simp [hnone] at hold
    · simpa [hw] using hvalue
  · intro hvalue
    obtain ⟨_, hnone⟩ | ⟨v, _, hv, _, _⟩ := hkey
    · simp [hnone] at hvalue
    · exact ⟨(key, v), Fields.mem_of_get?_eq_some hv, by simp [hvalue]⟩

/-- Well-formed trees with one outline differ in the order of fields alone. -/
theorem reordered_of_outline_eq {a b : Node} (ha : a.WellFormed) (hb : b.WellFormed)
    (h : a.outline = b.outline) : a.Reordered b := by
  induction a using induction_steps generalizing b with
  | step a ih =>
    have hlabel := label_eq_of_outline h
    cases a <;> cases b
    case object.object fields others =>
      have hvalues : List.Forall₂ (fun f g => f.1 = g.1 ∧ f.2.Reordered g.2) fields
          (aligned fields others) := by
        rw [aligned, List.forall₂_map_right_iff, List.forall₂_same]
        rintro ⟨key, value⟩ hmem
        refine ⟨rfl, ?_⟩
        have hvalue : (object fields).get? key = some value := ha.mem_fields_iff.mp hmem
        have hother := map_outline_get? h key
        rw [hvalue, Option.map_some] at hother
        obtain ⟨other, hget, houtline⟩ := Option.map_eq_some_iff.mp hother.symm
        have hreordered := ih (.key key, value) (ha.mem_steps_iff.mpr hvalue) (ha.of_get? hvalue)
          (hb.of_get? hget) houtline.symm
        have hfields : Fields.get? others key = some other := hget
        rwa [hfields]
      -- the values are reordered in their places before the fields are permuted
      exact .trans (reordered_values [] hvalues) (.fields (perm_aligned ha hb h))
    case array.array items others =>
      refine reordered_items [] (forall₂_of_view (map_outline_items h) fun x hx y hy hxy => ?_)
      obtain ⟨position, hposition⟩ := List.mem_iff_getElem?.mp hx
      exact ih (.index position, x) (ha.mem_steps_iff.mpr hposition) (ha.of_mem_items hx)
        (hb.of_mem_items hy) hxy
    all_goals simp_all [label, Reordered.refl]

/-- Two well-formed trees differ in the order of fields alone when they have one outline. -/
theorem reordered_iff_outline_eq {a b : Node} (ha : a.WellFormed) (hb : b.WellFormed) :
    a.Reordered b ↔ a.outline = b.outline :=
  ⟨fun h => h.outline_eq ha, reordered_of_outline_eq ha hb⟩

end Node

end ApiLint
