import ApiLint.Proofs.Node.Reordering
import ApiLint.Proofs.Schema.Composition
import ApiLint.Schema.Merge
set_option autoImplicit false

/-!
# Merged views and the order of keywords

What a schema contributes to a merge is one thing for each keyword, and keywords do not
touch what the others contribute to; so with distinct keys their order does not matter.
The merged views of well-formed schemas with one outline are well formed and have one
outline.
-/

namespace ApiLint.Schema

/-! ## Fields put into fields -/

/-- Gives keys their values one after the other. -/
def setAll (fields others : Fields) : Fields :=
  others.foldl (fun fs field => Fields.setField fs field.1 field.2) fields

/-- The fields that are put in win. -/
theorem get?_setAll (fields : Fields) {others : Fields} (h : (Fields.keys others).Nodup)
    (key : String) :
    Fields.get? (setAll fields others) key =
      (Fields.get? others key).or (Fields.get? fields key) := by
  induction others generalizing fields with
  | nil => rfl
  | cons field rest ih =>
    obtain ⟨name, value⟩ := field
    obtain ⟨hname, hrest⟩ := List.nodup_cons.mp h
    have hcons : setAll fields ((name, value) :: rest) =
        setAll (Fields.setField fields name value) rest := rfl
    rw [hcons, ih _ hrest, Fields.get?_setField, Fields.get?]
    by_cases heq : name = key
    · subst heq
      rw [(Fields.get?_eq_none_iff rest name).mpr hname, if_pos rfl, if_pos rfl]
      rfl
    · rw [if_neg heq, if_neg heq]

theorem wellFormed_setField {fields : Fields} {value : Node}
    (hfields : (Node.object fields).WellFormed) (key : String) (hvalue : value.WellFormed) :
    (Node.object (Fields.setField fields key value)).WellFormed := by
  rw [Node.wellFormed_object_iff] at hfields ⊢
  have hnodup := Fields.nodup_keys_setField key value hfields.1
  refine ⟨hnodup, fun field hfield => ?_⟩
  have hget := Fields.get?_eq_some_of_mem hnodup hfield
  rw [Fields.get?_setField] at hget
  split at hget
  · obtain rfl := Option.some.inj hget
    exact hvalue
  · exact hfields.2 _ (Fields.mem_of_get?_eq_some hget)

theorem wellFormed_setAll {fields others : Fields} (hfields : (Node.object fields).WellFormed)
    (hothers : ∀ field ∈ others, field.2.WellFormed) :
    (Node.object (setAll fields others)).WellFormed := by
  induction others generalizing fields with
  | nil => exact hfields
  | cons field rest ih =>
    obtain ⟨hfield, hrest⟩ := List.forall_mem_cons.mp hothers
    exact ih (wellFormed_setField hfields field.1 hfield) hrest

theorem outline_setAll {fields others more extra : Fields}
    (hfields : (Node.object fields).outline = (Node.object others).outline)
    (hmore : (Node.object more).WellFormed) (hextra : (Node.object extra).WellFormed)
    (h : (Node.object more).outline = (Node.object extra).outline) :
    (Node.object (setAll fields more)).outline = (Node.object (setAll others extra)).outline := by
  refine Node.outline_object_iff.mpr fun key => ?_
  rw [get?_setAll fields ((Node.wellFormed_object_iff more).mp hmore).1,
    get?_setAll others ((Node.wellFormed_object_iff extra).mp hextra).1, Option.map_or,
    Option.map_or, Node.outline_object_iff.mp hfields key]
  exact congrArg (Option.or · _) (Node.outline_object_iff.mp h key)

theorem outline_setField {fields others : Fields} {value other : Node}
    (hfields : (Node.object fields).outline = (Node.object others).outline) (key : String)
    (hvalue : value.outline = other.outline) :
    (Node.object (Fields.setField fields key value)).outline =
      (Node.object (Fields.setField others key other)).outline := by
  refine Node.outline_object_iff.mpr fun name => ?_
  rw [Fields.get?_setField, Fields.get?_setField]
  split
  · rw [Option.map_some, Option.map_some, hvalue]
  · exact Node.outline_object_iff.mp hfields name

namespace Merged

/-! ## One keyword -/

/-- The keywords that a merge does not take over as they are. -/
def reserved : List String := ["allOf", "$ref", "properties", "required"]

theorem keywords_absorbField (m : Merged) (key : String) (value : Node) :
    (m.absorbField key value).keywords =
      if key ∈ reserved then m.keywords else Fields.setField m.keywords key value := by
  unfold absorbField reserved
  by_cases hdropped : key = "allOf" ∨ key = "$ref"
  · rw [if_pos hdropped, if_pos (by rcases hdropped with rfl | rfl <;> simp)]
  · obtain ⟨hallOf, href⟩ := not_or.mp hdropped
    rw [if_neg hdropped]
    by_cases hproperties : key = "properties"
    · subst hproperties
      cases value <;> simp
    · by_cases hrequired : key = "required"
      · simp [hrequired]
      · simp [hproperties, hrequired, hallOf, href]

theorem properties_absorbField (m : Merged) (key : String) (value : Node) :
    (m.absorbField key value).properties =
      if key = "properties" then setAll m.properties value.fields else m.properties := by
  unfold absorbField
  by_cases hproperties : key = "properties"
  · subst hproperties
    cases value <;> simp [setAll, Node.fields, Node.fields?]
  · rw [if_neg hproperties]
    split
    · rfl
    · split <;> rfl

theorem hasProperties_absorbField (m : Merged) (key : String) (value : Node) :
    (m.absorbField key value).hasProperties =
      if key = "properties" then m.hasProperties || value.isObject else m.hasProperties := by
  unfold absorbField
  by_cases hproperties : key = "properties"
  · subst hproperties
    cases value <;> simp [Node.isObject, Node.fields?]
  · rw [if_neg hproperties]
    split
    · rfl
    · split <;> rfl

theorem required_absorbField (m : Merged) (key : String) (value : Node) :
    (m.absorbField key value).required =
      if key = "required" then (value.items.filterMap Node.string?).foldl addRequired m.required
      else m.required := by
  unfold absorbField
  by_cases hrequired : key = "required"
  · subst hrequired
    simp
  · rw [if_neg hrequired]
    split
    · rfl
    · split
      · split <;> rfl
      · rfl

/-! ## All keywords -/

/-- What one keyword alone decides is decided by the value that is found under it. -/
theorem absorb_eq_of_key {β : Type} (key : String) (part : Merged → β) (update : β → Node → β)
    (hother : ∀ m name value, name ≠ key → part (absorbField m name value) = part m)
    (hkey : ∀ m value, part (absorbField m key value) = update (part m) value)
    {schema : Fields} (h : (Fields.keys schema).Nodup) (m : Merged) :
    part (m.absorb schema) =
      ((Fields.get? schema key).map fun value => update (part m) value).getD (part m) := by
  induction schema generalizing m with
  | nil => rfl
  | cons field rest ih =>
    obtain ⟨name, value⟩ := field
    obtain ⟨hname, hrest⟩ := List.nodup_cons.mp h
    have hcons : m.absorb ((name, value) :: rest) = (m.absorbField name value).absorb rest := rfl
    rw [hcons, ih hrest, Fields.get?]
    by_cases heq : name = key
    · subst heq
      rw [(Fields.get?_eq_none_iff rest name).mpr hname, if_pos rfl]
      exact hkey m value
    · rw [if_neg heq, hother m name value heq]

section Absorb

variable {schema : Node} (h : schema.WellFormed) (m : Merged)
include h

theorem get?_keywords_absorb (key : String) :
    Fields.get? (m.absorb schema.fields).keywords key =
      if key ∈ reserved then Fields.get? m.keywords key
      else (schema.get? key).or (Fields.get? m.keywords key) := by
  rw [Node.get?_eq_get?_fields]
  split
  · next hreserved =>
    rw [absorb_eq_of_key key (fun m => Fields.get? m.keywords key) (fun old _ => old)
      ?_ ?_ h.nodup_keys]
    · cases Fields.get? schema.fields key <;> rfl
    · intro m name value hname
      rw [keywords_absorbField]
      split
      · rfl
      · rw [Fields.get?_setField, if_neg hname]
    · intro m value
      rw [keywords_absorbField, if_pos hreserved]
  · next hreserved =>
    rw [absorb_eq_of_key key (fun m => Fields.get? m.keywords key)
      (fun _ value => some value) ?_ ?_ h.nodup_keys]
    · cases Fields.get? schema.fields key <;> rfl
    · intro m name value hname
      rw [keywords_absorbField]
      split
      · rfl
      · rw [Fields.get?_setField, if_neg hname]
    · intro m value
      rw [keywords_absorbField, if_neg hreserved, Fields.get?_setField, if_pos rfl]

theorem properties_absorb :
    (m.absorb schema.fields).properties =
      setAll m.properties ((schema.getFields? "properties").getD []) := by
  rw [Node.getD_getFields?, Node.get?_eq_get?_fields,
    absorb_eq_of_key "properties" Merged.properties (fun old value => setAll old value.fields) ?_ ?_
      h.nodup_keys]
  · cases Fields.get? schema.fields "properties" <;> rfl
  · intro m name value hname
    rw [properties_absorbField, if_neg hname]
  · intro m value
    rw [properties_absorbField, if_pos rfl]

theorem hasProperties_absorb :
    (m.absorb schema.fields).hasProperties =
      (m.hasProperties || ((schema.get? "properties").map Node.isObject).getD false) := by
  rw [Node.get?_eq_get?_fields,
    absorb_eq_of_key "properties" Merged.hasProperties (fun old value => old || value.isObject)
      ?_ ?_ h.nodup_keys]
  · cases Fields.get? schema.fields "properties" <;> simp
  · intro m name value hname
    rw [hasProperties_absorbField, if_neg hname]
  · intro m value
    rw [hasProperties_absorbField, if_pos rfl]

theorem required_absorb :
    (m.absorb schema.fields).required =
      ((schema.getItems "required").filterMap Node.string?).foldl addRequired m.required := by
  rw [Node.getItems, Node.get?_eq_get?_fields,
    absorb_eq_of_key "required" Merged.required
      (fun old value => (value.items.filterMap Node.string?).foldl addRequired old) ?_ ?_
      h.nodup_keys]
  · cases Fields.get? schema.fields "required" <;> rfl
  · intro m name value hname
    rw [required_absorbField, if_neg hname]
  · intro m value
    rw [required_absorbField, if_pos rfl]

end Absorb

/-! ## Merged schemas with one outline -/

/-- The keywords and the properties are objects with distinct keys all the way down. -/
structure WellFormed (m : Merged) : Prop where
  keywords : (Node.object m.keywords).WellFormed
  properties : (Node.object m.properties).WellFormed

/-- What has been merged differs in the order of keys alone. -/
structure Alike (m n : Merged) : Prop where
  keywords : (Node.object m.keywords).outline = (Node.object n.keywords).outline
  properties : (Node.object m.properties).outline = (Node.object n.properties).outline
  required : m.required = n.required
  hasProperties : m.hasProperties = n.hasProperties

theorem wellFormed_absorbField {m : Merged} (h : m.WellFormed) (key : String) {value : Node}
    (hvalue : value.WellFormed) : (m.absorbField key value).WellFormed where
  keywords := by
    rw [keywords_absorbField]
    split
    · exact h.keywords
    · exact wellFormed_setField h.keywords key hvalue
  properties := by
    rw [properties_absorbField]
    split
    · exact wellFormed_setAll h.properties fun _ hfield => hvalue.of_mem_fields hfield
    · exact h.properties

theorem WellFormed.absorb {m : Merged} (h : m.WellFormed) {schema : Fields}
    (hschema : ∀ field ∈ schema, field.2.WellFormed) : (m.absorb schema).WellFormed := by
  induction schema generalizing m with
  | nil => exact h
  | cons field rest ih =>
    obtain ⟨hfield, hrest⟩ := List.forall_mem_cons.mp hschema
    exact ih (wellFormed_absorbField h field.1 hfield) hrest

/-- The keywords of the merged view but for the list of required properties. -/
def withProperties (m : Merged) : Fields :=
  if m.hasProperties then Fields.setField m.keywords "properties" (.object m.properties)
  else m.keywords

theorem toNode_eq (m : Merged) :
    m.toNode = .object (if m.required.isEmpty then m.withProperties
      else Fields.setField m.withProperties "required" (.array (m.required.map Node.string))) :=
  rfl

theorem WellFormed.withProperties {m : Merged} (h : m.WellFormed) :
    (Node.object m.withProperties).WellFormed := by
  unfold Merged.withProperties
  split
  · exact wellFormed_setField h.keywords _ h.properties
  · exact h.keywords

theorem WellFormed.toNode {m : Merged} (h : m.WellFormed) : m.toNode.WellFormed := by
  rw [toNode_eq]
  split
  · exact h.withProperties
  · refine wellFormed_setField h.withProperties _ ((Node.wellFormed_array_iff _).mpr ?_)
    intro item hitem
    obtain ⟨name, _, rfl⟩ := List.mem_map.mp hitem
    trivial

/-- Absorbing schemas with one outline keeps what has been merged alike. -/
theorem Alike.absorb {m n : Merged} (h : m.Alike n) {a b : Node} (ha : a.WellFormed)
    (hb : b.WellFormed) (hab : a.outline = b.outline) :
    (m.absorb a.fields).Alike (n.absorb b.fields) where
  keywords := by
    refine Node.outline_object_iff.mpr fun key => ?_
    have hold := Node.outline_object_iff.mp h.keywords key
    rw [get?_keywords_absorb ha, get?_keywords_absorb hb]
    split
    · exact hold
    · rw [Option.map_or, Option.map_or, hold, Node.map_outline_get? hab]
  properties := by
    rw [properties_absorb ha, properties_absorb hb]
    exact outline_setAll h.properties (ha.object_getFields? _) (hb.object_getFields? _)
      (Node.outline_getFields? hab _)
  required := by
    have hnames := filterMap_eq_of_view (Node.map_outline_getItems hab "required")
      fun x _ y _ hxy => Node.string?_eq_of_outline hxy
    rw [required_absorb ha, required_absorb hb, h.required, hnames]
  hasProperties := by
    rw [hasProperties_absorb ha, hasProperties_absorb hb, h.hasProperties]
    obtain ⟨hnone, hnone'⟩ | ⟨v, w, hv, hw, hvw⟩ := Node.get?_of_outline hab "properties"
    · rw [hnone, hnone']
    · rw [hv, hw, Option.map_some, Option.map_some, Node.isObject_eq_of_outline hvw]

theorem Alike.withProperties {m n : Merged} (h : m.Alike n) :
    (Node.object m.withProperties).outline = (Node.object n.withProperties).outline := by
  unfold Merged.withProperties
  rw [h.hasProperties]
  split
  · exact outline_setField h.keywords _ h.properties
  · exact h.keywords

theorem Alike.toNode {m n : Merged} (h : m.Alike n) : m.toNode.outline = n.toNode.outline := by
  rw [toNode_eq, toNode_eq, h.required]
  split
  · exact h.withProperties
  · exact outline_setField h.withProperties _ rfl

/-! ## Several schemas -/

/-- Absorbs schemas one after the other; what is no object adds nothing. -/
def absorbAll (m : Merged) (schemas : List Node) : Merged :=
  schemas.foldl (fun m schema => m.absorb schema.fields) m

theorem WellFormed.absorbAll {m : Merged} (h : m.WellFormed) {schemas : List Node}
    (hschemas : ∀ schema ∈ schemas, schema.WellFormed) : (m.absorbAll schemas).WellFormed := by
  induction schemas generalizing m with
  | nil => exact h
  | cons schema rest ih =>
    obtain ⟨hschema, hrest⟩ := List.forall_mem_cons.mp hschemas
    exact ih (h.absorb fun _ hfield => hschema.of_mem_fields hfield) hrest

theorem Alike.absorbAll {m n : Merged} (h : m.Alike n) {schemas others : List Node}
    (hschemas : ∀ schema ∈ schemas, schema.WellFormed)
    (hothers : ∀ schema ∈ others, schema.WellFormed)
    (houtline : schemas.map Node.outline = others.map Node.outline) :
    (m.absorbAll schemas).Alike (n.absorbAll others) := by
  induction schemas generalizing m n others with
  | nil =>
    obtain rfl : others = [] := List.map_eq_nil_iff.mp houtline.symm
    exact h
  | cons schema rest ih =>
    cases others with
    | nil => simp at houtline
    | cons other others =>
      obtain ⟨hfirst, hrest⟩ := List.cons.inj houtline
      obtain ⟨hschema, hschemas⟩ := List.forall_mem_cons.mp hschemas
      obtain ⟨hother, hothers⟩ := List.forall_mem_cons.mp hothers
      exact ih (h.absorb hschema hother hfirst) hschemas hothers hrest

end Merged

/-! ## Merged views -/

/-- The merged views of the branches are absorbed. -/
theorem mergeBranches_eq (m : Merged) (branches : List Node) :
    mergeBranches m branches = m.absorbAll (branches.map mergeAllOf) := by
  induction branches generalizing m with
  | nil => rfl
  | cons branch rest ih =>
    rw [mergeBranches, List.map_cons]
    cases mergeAllOf branch <;> exact ih _

theorem mergeBranches?_eq (fields : Fields) :
    mergeBranches? fields =
      (branches? (.object fields) "allOf").map fun branches => mergeBranches {} branches := by
  induction fields with
  | nil => rfl
  | cons field rest ih =>
    obtain ⟨key, value⟩ := field
    rw [mergeBranches?, branches?, Node.get?, Fields.get?]
    split
    · cases value <;> rfl
    · exact ih

/-- A schema with branches under `allOf` is merged from their merged views and itself. -/
theorem mergeAllOf_eq (schema : Node) :
    mergeAllOf schema =
      match branches? schema "allOf" with
      | some branches =>
        ((Merged.absorbAll {} (branches.map mergeAllOf)).absorb schema.fields).toNode
      | none => schema := by
  cases schema with
  | object fields =>
    rw [mergeAllOf, mergeBranches?_eq]
    cases branches? (.object fields) "allOf" with
    | none => rfl
    | some branches => rw [Option.map_some, mergeBranches_eq]; rfl
  | _ => rfl

theorem wellFormed_empty : ({} : Merged).WellFormed :=
  ⟨Node.wellFormed_emptyObject, Node.wellFormed_emptyObject⟩

/-- The merged view of a well-formed schema is well formed. -/
theorem wellFormed_mergeAllOf {schema : Node} (h : schema.WellFormed) :
    (mergeAllOf schema).WellFormed := by
  induction schema using induction_branches with
  | step schema ih =>
    rw [mergeAllOf_eq]
    cases hbranches : branches? schema "allOf" with
    | none => exact h
    | some branches =>
      have hmerged : ∀ view ∈ branches.map mergeAllOf, view.WellFormed := by
        intro view hview
        obtain ⟨branch, hmem, rfl⟩ := List.mem_map.mp hview
        exact ih _ _ hbranches _ hmem (wellFormed_of_mem_branches h hbranches hmem)
      exact ((wellFormed_empty.absorbAll hmerged).absorb fun _ hfield =>
        h.of_mem_fields hfield).toNode

/-- The merged views of schemas with one outline have one outline. -/
theorem outline_mergeAllOf {a b : Node} (ha : a.WellFormed) (hb : b.WellFormed)
    (h : a.outline = b.outline) : (mergeAllOf a).outline = (mergeAllOf b).outline := by
  induction a using induction_branches generalizing b with
  | step a ih =>
    rw [mergeAllOf_eq a, mergeAllOf_eq b]
    obtain ⟨hnone, hnone'⟩ | ⟨bs, cs, hbs, hcs, hbranches⟩ := branches?_of_outline h "allOf"
    · rw [hnone, hnone']
      exact h
    · rw [hbs, hcs]
      have hwf : ∀ {schema : Node} {branches : List Node}, schema.WellFormed →
          branches? schema "allOf" = some branches →
          ∀ view ∈ branches.map mergeAllOf, view.WellFormed := by
        intro schema branches hschema hsome view hview
        obtain ⟨branch, hmem, rfl⟩ := List.mem_map.mp hview
        exact wellFormed_mergeAllOf (wellFormed_of_mem_branches hschema hsome hmem)
      have hviews :
          (bs.map mergeAllOf).map Node.outline = (cs.map mergeAllOf).map Node.outline := by
        rw [List.map_map, List.map_map]
        refine map_eq_of_view hbranches fun x hx y hy hxy => ?_
        exact ih _ _ hbs x hx (wellFormed_of_mem_branches ha hbs hx)
          (wellFormed_of_mem_branches hb hcs hy) hxy
      have hbranchesAlike := Merged.Alike.absorbAll (m := {}) (n := {}) ⟨rfl, rfl, rfl, rfl⟩
        (hwf ha hbs) (hwf hb hcs) hviews
      exact (hbranchesAlike.absorb ha hb h).toNode

end ApiLint.Schema
