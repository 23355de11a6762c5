import ApiLint.Proofs.Lists
import ApiLint.Proofs.Path.Prefix
import ApiLint.Schema.Basic
set_option autoImplicit false

/-!
# Outlines of trees

The outline of a tree tells what stands at each of its paths, and so everything but the
order of the fields of objects.  What is looked up by a key or a position depends on the
outline alone.  The fields of trees with one outline are the same up to their order, each
key with one outline below it.
-/

namespace ApiLint

namespace Node

/-- A node without what is inside it. -/
def label : Node → Node
  | array _ => array []
  | object _ => object []
  | node => node

/-- What stands at each path of a tree, each node without what is inside it. -/
def outline (node : Node) (path : DocPath) : Option Node := (path.resolve node).map label

theorem outline_cons (node : Node) (segment : Segment) (rest : DocPath) :
    node.outline (segment :: rest) =
      (DocPath.step? node segment).bind fun child => child.outline rest := by
  rw [outline, DocPath.resolve]
  cases DocPath.step? node segment <;> rfl

/-- Options with one outline are both empty, or two trees with one outline. -/
theorem map_outline_eq_iff (x y : Option Node) :
    x.map outline = y.map outline ↔
      x = none ∧ y = none ∨ ∃ a b, x = some a ∧ y = some b ∧ a.outline = b.outline := by
  cases x <;> cases y <;> simp

/-- Trees have one outline when they have one label and each step leads to children with one
outline. -/
theorem outline_eq_iff {a b : Node} :
    a.outline = b.outline ↔ a.label = b.label ∧
      ∀ segment, (DocPath.step? a segment).map outline = (DocPath.step? b segment).map outline := by
  constructor
  · intro h
    refine ⟨Option.some.inj (congrFun h []), fun segment => ?_⟩
    have hrest : ∀ rest, ((DocPath.step? a segment).bind fun child => child.outline rest) =
        (DocPath.step? b segment).bind fun child => child.outline rest := by
      intro rest
      rw [← outline_cons, ← outline_cons, h]
    -- the empty rest tells whether there is a child, and all rests tell its outline
    have hhere := hrest []
    cases ha : DocPath.step? a segment with
    | none => cases hb : DocPath.step? b segment <;> simp [ha, hb, outline] at hhere ⊢
    | some child =>
      cases hb : DocPath.step? b segment with
      | none => simp [ha, hb, outline] at hhere
      | some other =>
        have heq : child.outline = other.outline := by
          funext rest
          simpa [ha, hb] using hrest rest
        exact congrArg some heq
  · rintro ⟨hlabel, hsteps⟩
    funext path
    cases path with
    | nil => exact congrArg some hlabel
    | cons segment rest =>
      rw [outline_cons, outline_cons]
      obtain ⟨ha, hb⟩ | ⟨child, other, ha, hb, hchild⟩ :=
        (map_outline_eq_iff _ _).mp (hsteps segment)
      · rw [ha, hb]
      · rw [ha, hb, Option.bind_some, Option.bind_some, hchild]

/-- Objects have one outline when each key leads to values with one outline. -/
theorem outline_object_iff {fields others : Fields} :
    (object fields).outline = (object others).outline ↔
      ∀ key, (Fields.get? fields key).map outline = (Fields.get? others key).map outline := by
  rw [outline_eq_iff]
  constructor
  · rintro ⟨_, hsteps⟩ key
    exact hsteps (.key key)
  · intro hkeys
    refine ⟨rfl, fun segment => ?_⟩
    cases segment with
    | key name => exact hkeys name
    | index position => rfl

/-- Arrays have one outline when their elements have, one by one. -/
theorem outline_array_iff {items others : List Node} :
    (array items).outline = (array others).outline ↔ items.map outline = others.map outline := by
  rw [outline_eq_iff]
  constructor
  · rintro ⟨_, hsteps⟩
    refine List.ext_getElem? fun position => ?_
    rw [List.getElem?_map, List.getElem?_map]
    exact hsteps (.index position)
  · intro hitems
    refine ⟨rfl, fun segment => ?_⟩
    cases segment with
    | key name => rfl
    | index position =>
      have hposition := congrArg (·[position]?) hitems
      simpa [DocPath.step?, items?] using hposition

/-! ## What the outline decides -/

theorem getString?_eq_outline (node : Node) (key : String) :
    node.getString? key = (node.outline [.key key]).bind string? := by
  rw [getString?, outline_cons, DocPath.step?]
  cases node.get? key with
  | none => rfl
  | some value => cases value <;> rfl

theorem hasKey_eq_outline (node : Node) (key : String) :
    node.hasKey key = (node.outline [.key key]).isSome := by
  rw [hasKey, outline_cons, DocPath.step?]
  cases node.get? key <;> rfl

theorem isObject_label (node : Node) : node.label.isObject = node.isObject := by
  cases node <;> rfl

theorem string?_label (node : Node) : node.label.string? = node.string? := by
  cases node <;> rfl

theorem bool?_label (node : Node) : node.label.bool? = node.bool? := by
  cases node <;> rfl

theorem getElem?_items (node : Node) (position : Nat) :
    node.items[position]? = DocPath.step? node (.index position) := by
  cases node with
  | array items => rfl
  | _ => exact List.getElem?_nil

/-- The fields under a key, or none when it leads to no object. -/
theorem getD_getFields? (node : Node) (key : String) :
    (node.getFields? key).getD [] = ((node.get? key).map fields).getD [] := by
  rw [getFields?]
  cases node.get? key <;> rfl

section Outlines

variable {a b : Node} (h : a.outline = b.outline)
include h

theorem label_eq_of_outline : a.label = b.label := (outline_eq_iff.mp h).1

theorem isObject_eq_of_outline : a.isObject = b.isObject := by
  rw [← isObject_label a, label_eq_of_outline h, isObject_label]

theorem string?_eq_of_outline : a.string? = b.string? := by
  rw [← string?_label a, label_eq_of_outline h, string?_label]

theorem bool?_eq_of_outline : a.bool? = b.bool? := by
  rw [← bool?_label a, label_eq_of_outline h, bool?_label]

theorem getString?_eq_of_outline (key : String) : a.getString? key = b.getString? key := by
  rw [getString?_eq_outline, h, ← getString?_eq_outline]

theorem hasKey_eq_of_outline (key : String) : a.hasKey key = b.hasKey key := by
  rw [hasKey_eq_outline, h, ← hasKey_eq_outline]

theorem map_outline_get? (key : String) :
    (a.get? key).map outline = (b.get? key).map outline :=
  (outline_eq_iff.mp h).2 (.key key)

/-- A key leads nowhere in both trees, or to trees with one outline. -/
theorem get?_of_outline (key : String) :
    a.get? key = none ∧ b.get? key = none ∨
      ∃ v w, a.get? key = some v ∧ b.get? key = some w ∧ v.outline = w.outline :=
  (map_outline_eq_iff _ _).mp (map_outline_get? h key)

/-- The fields of trees with one outline make objects with one outline. -/
theorem outline_object_fields : (object a.fields).outline = (object b.fields).outline := by
  refine outline_object_iff.mpr fun key => ?_
  rw [← get?_eq_get?_fields, ← get?_eq_get?_fields]
  exact map_outline_get? h key

theorem map_outline_items : a.items.map outline = b.items.map outline := by
  refine List.ext_getElem? fun position => ?_
  rw [List.getElem?_map, List.getElem?_map, getElem?_items, getElem?_items]
  exact (outline_eq_iff.mp h).2 (.index position)

theorem map_outline_getItems (key : String) :
    (a.getItems key).map outline = (b.getItems key).map outline := by
  obtain ⟨ha, hb⟩ | ⟨v, w, ha, hb, hvw⟩ := get?_of_outline h key
  · rw [getItems, getItems, ha, hb]
  · simpa [getItems, ha, hb] using map_outline_items hvw

theorem outline_getFields? (key : String) :
    (object ((a.getFields? key).getD [])).outline =
      (object ((b.getFields? key).getD [])).outline := by
  rw [getD_getFields?, getD_getFields?]
  obtain ⟨ha, hb⟩ | ⟨v, w, ha, hb, hvw⟩ := get?_of_outline h key
  · rw [ha, hb]
  · rw [ha, hb]
    exact outline_object_fields hvw

/-- What a path leads to in one tree, it leads to in the other, with one outline. -/
theorem map_outline_resolve (path : DocPath) :
    (path.resolve a).map outline = (path.resolve b).map outline := by
  induction path generalizing a b with
  | nil => exact congrArg some h
  | cons segment rest ih =>
    rw [DocPath.resolve, DocPath.resolve]
    obtain ⟨ha, hb⟩ | ⟨child, other, ha, hb, hchild⟩ :=
      (map_outline_eq_iff _ _).mp ((outline_eq_iff.mp h).2 segment)
    · rw [ha, hb]
    · rw [ha, hb, Option.bind_some, Option.bind_some]
      exact ih hchild

end Outlines

/-! ## Fields up to their order -/

/-- The fields under a key are those of a well-formed object. -/
theorem WellFormed.object_getFields? {node : Node} (h : node.WellFormed) (key : String) :
    (object ((node.getFields? key).getD [])).WellFormed := by
  rw [getD_getFields?]
  cases hget : node.get? key with
  | none => exact (wellFormed_object_iff []).mpr ⟨List.nodup_nil, by simp⟩
  | some value =>
    have hvalue := h.of_get? hget
    exact (wellFormed_object_iff _).mpr ⟨hvalue.nodup_keys, fun _ hmem => hvalue.of_mem_fields hmem⟩

/-- What is seen of a field: its key and the outline of its value. -/
def fieldView (field : String × Node) : String × (DocPath → Option Node) :=
  (field.1, field.2.outline)

theorem nodup_map_fieldView {fields : Fields} (h : (Fields.keys fields).Nodup) :
    (fields.map fieldView).Nodup := by
  refine List.Nodup.of_map Prod.fst ?_
  rwa [List.map_map]

theorem mem_map_fieldView_iff {node : Node} (h : node.WellFormed) (key : String)
    (outlined : DocPath → Option Node) :
    (key, outlined) ∈ node.fields.map fieldView ↔ (node.get? key).map outline = some outlined := by
  rw [List.mem_map, Option.map_eq_some_iff]
  constructor
  · rintro ⟨⟨name, value⟩, hmem, heq⟩
    obtain ⟨rfl, rfl⟩ := Prod.mk.inj heq
    exact ⟨value, h.mem_fields_iff.mp hmem, rfl⟩
  · rintro ⟨value, hget, rfl⟩
    exact ⟨(key, value), h.mem_fields_iff.mpr hget, rfl⟩

section Fields

variable {a b : Node} (ha : a.WellFormed) (hb : b.WellFormed) (h : a.outline = b.outline)
include ha hb h

theorem perm_fields : (a.fields.map fieldView).Perm (b.fields.map fieldView) := by
  refine (List.perm_ext_iff_of_nodup (nodup_map_fieldView ha.nodup_keys)
    (nodup_map_fieldView hb.nodup_keys)).mpr ?_
  rintro ⟨key, outlined⟩
  rw [mem_map_fieldView_iff ha, mem_map_fieldView_iff hb]
  have hget := (outline_eq_iff.mp h).2 (.key key)
  exact ⟨fun hkey => hget.symm.trans hkey, fun hkey => hget.trans hkey⟩

theorem perm_getFields? (key : String) :
    (((a.getFields? key).getD []).map fieldView).Perm
      (((b.getFields? key).getD []).map fieldView) :=
  perm_fields (ha.object_getFields? key) (hb.object_getFields? key) (outline_getFields? h key)

end Fields

end Node

end ApiLint
