import ApiLint.DocPath
import ApiLint.Proofs.Lists
import Mathlib.Algebra.GroupWithZero.Nat
import Mathlib.Algebra.Order.BigOperators.Group.List
import Mathlib.Algebra.Order.Group.Nat
import Mathlib.Data.List.Nodup
set_option autoImplicit false

/-!
# Steps through a tree

The children of a node with the steps that lead to them, in document order.  In a
well-formed tree the steps out of a node are distinct, and following a step is the
same as finding it in that list; so statements about paths become statements about
lists of children and are proved by induction along the steps.
-/

namespace ApiLint

/-! ## Fields as a finite map -/

namespace Fields

theorem get?_append (fields others : Fields) (key : String) :
    get? (fields ++ others) key = (get? fields key).or (get? others key) := by
  induction fields with
  | nil => rfl
  | cons field rest ih =>
    obtain ⟨first, value⟩ := field
    simp only [List.cons_append, get?, ih]
    split <;> rfl

/-- What is found under a key is a field. -/
theorem mem_of_get?_eq_some {fields : Fields} {key : String} {value : Node}
    (h : get? fields key = some value) : (key, value) ∈ fields := by
  induction fields with
  | nil => simp [get?] at h
  | cons field rest ih =>
    obtain ⟨k, v⟩ := field
    rw [get?] at h
    split at h
    · next hk =>
      have hv : v = value := Option.some.inj h
      rw [← hk, ← hv]
      exact List.mem_cons_self
    · exact List.mem_cons_of_mem _ (ih h)

/-- With distinct keys, every field is the one that is found under its key. -/
theorem get?_eq_some_of_mem {fields : Fields} (hnodup : (keys fields).Nodup)
    {key : String} {value : Node} (h : (key, value) ∈ fields) :
    get? fields key = some value := by
  induction fields with
  | nil => simp at h
  | cons field rest ih =>
    obtain ⟨k, v⟩ := field
    obtain ⟨hk, hrest⟩ := List.nodup_cons.mp hnodup
    rcases List.mem_cons.mp h with heq | hmem
    · obtain ⟨rfl, rfl⟩ := Prod.mk.inj heq
      simp [get?]
    · have hne : k ≠ key := by
        rintro rfl
        have hkey : k ∈ keys rest := List.mem_map_of_mem (f := Prod.fst) hmem
        exact hk hkey
      rw [get?, if_neg hne]
      exact ih hrest hmem

theorem mem_iff_get?_eq_some {fields : Fields} (hnodup : (keys fields).Nodup)
    {key : String} {value : Node} :
    (key, value) ∈ fields ↔ get? fields key = some value :=
  ⟨get?_eq_some_of_mem hnodup, mem_of_get?_eq_some⟩

/-- A key that is not there yet goes last. -/
theorem setField_of_notMem {fields : Fields} {key : String} (h : key ∉ keys fields)
    (value : Node) : setField fields key value = fields ++ [(key, value)] := by
  induction fields with
  | nil => rfl
  | cons field rest ih =>
    obtain ⟨first, other⟩ := field
    obtain ⟨hfirst, hrest⟩ := not_or.mp (mt List.mem_cons.mpr h)
    rw [setField, if_neg fun heq => hfirst heq.symm, ih hrest, List.cons_append]

end Fields

namespace Node

/-! ## Well-formed trees -/

theorem wellFormedItems_iff (items : List Node) :
    WellFormedItems items ↔ ∀ item ∈ items, item.WellFormed := by
  induction items with
  | nil => simp [WellFormedItems]
  | cons item rest ih => simp [WellFormedItems, ih]

theorem wellFormedFields_iff (fields : Fields) :
    WellFormedFields fields ↔ ∀ field ∈ fields, field.2.WellFormed := by
  induction fields with
  | nil => simp [WellFormedFields]
  | cons field rest ih => simp [WellFormedFields, ih]

theorem wellFormed_array_iff (items : List Node) :
    (array items).WellFormed ↔ ∀ item ∈ items, item.WellFormed := by
  rw [WellFormed, wellFormedItems_iff]

theorem wellFormed_object_iff (fields : Fields) :
    (object fields).WellFormed ↔
      (Fields.keys fields).Nodup ∧ ∀ field ∈ fields, field.2.WellFormed := by
  rw [WellFormed, wellFormedFields_iff]
  rfl

theorem wellFormed_emptyArray : (array []).WellFormed :=
  (wellFormed_array_iff []).mpr fun _ h => absurd h List.not_mem_nil

theorem wellFormed_emptyObject : (object []).WellFormed :=
  (wellFormed_object_iff []).mpr ⟨List.nodup_nil, fun _ h => absurd h List.not_mem_nil⟩

/-- The keys of a well-formed node are distinct; a node that is no object has none. -/
theorem WellFormed.nodup_keys {node : Node} (h : node.WellFormed) :
    (Fields.keys node.fields).Nodup := by
  cases node with
  | object fields => exact ((wellFormed_object_iff fields).mp h).1
  | _ => exact List.nodup_nil

/-- A key is looked up among the fields; a node that is no object has neither. -/
theorem get?_eq_get?_fields (node : Node) (key : String) :
    node.get? key = Fields.get? node.fields key := by
  cases node <;> rfl

/-- The fields of a well-formed node are what its keys lead to. -/
theorem WellFormed.mem_fields_iff {node : Node} (h : node.WellFormed) {key : String}
    {value : Node} : (key, value) ∈ node.fields ↔ node.get? key = some value := by
  rw [get?_eq_get?_fields]
  exact Fields.mem_iff_get?_eq_some h.nodup_keys

/-! ## Steps -/

/-- The children of a node with the steps that lead to them, in document order. -/
def steps : Node → List (Segment × Node)
  | array items => items.zipIdx.map fun item => (.index item.2, item.1)
  | object fields => fields.map fun field => (.key field.1, field.2)
  | _ => []

/-- A step out of a well-formed node leads to the child that it is listed with. -/
theorem WellFormed.mem_steps_iff {node : Node} (h : node.WellFormed) {segment : Segment}
    {child : Node} :
    (segment, child) ∈ node.steps ↔ DocPath.step? node segment = some child := by
  cases node with
  | array items =>
    cases segment with
    | index position =>
      have hmem : (child, position) ∈ items.zipIdx ↔ items[position]? = some child :=
        List.mem_zipIdx_iff_getElem?
      simpa [steps, DocPath.step?, items?, and_assoc] using hmem
    | key name => simp [steps, DocPath.step?, get?]
  | object fields =>
    cases segment with
    | index position => simp [steps, DocPath.step?, items?]
    | key name =>
      have hmem : (name, child) ∈ fields ↔ (object fields).get? name = some child :=
        h.mem_fields_iff
      simpa [steps, DocPath.step?] using hmem
  | _ => cases segment <;> simp [steps, DocPath.step?, get?, items?]

/-- The steps out of a well-formed node are distinct. -/
theorem WellFormed.nodup_steps {node : Node} (h : node.WellFormed) :
    (node.steps.map Prod.fst).Nodup := by
  cases node with
  | array items =>
    have hmap := (nodup_positions items).map (f := Segment.index) fun _ _ heq =>
      Segment.index.inj heq
    rw [List.map_map] at hmap
    rw [steps, List.map_map]
    exact hmap
  | object fields =>
    have hmap := h.nodup_keys.map (f := Segment.key) fun _ _ heq => Segment.key.inj heq
    rw [Fields.keys, List.map_map] at hmap
    rw [steps, List.map_map]
    exact hmap
  | _ => exact List.nodup_nil

/-- The children of a well-formed node are well formed. -/
theorem WellFormed.of_mem_steps {node : Node} (h : node.WellFormed) {s : Segment × Node}
    (hs : s ∈ node.steps) : s.2.WellFormed := by
  cases node with
  | array items =>
    obtain ⟨item, hitem, rfl⟩ := List.mem_map.mp hs
    exact (wellFormed_array_iff items).mp h _ (List.fst_mem_of_mem_zipIdx hitem)
  | object fields =>
    obtain ⟨field, hfield, rfl⟩ := List.mem_map.mp hs
    exact ((wellFormed_object_iff fields).mp h).2 field hfield
  | _ => simp [steps] at hs

/-- A value that a key leads to is a child. -/
theorem mem_steps_of_get? {node value : Node} {key : String} (h : node.get? key = some value) :
    (.key key, value) ∈ node.steps := by
  cases node with
  | object fields => exact List.mem_map.mpr ⟨(key, value), Fields.mem_of_get?_eq_some h, rfl⟩
  | _ => simp [get?] at h

theorem WellFormed.of_get? {node value : Node} {key : String} (h : node.WellFormed)
    (hget : node.get? key = some value) : value.WellFormed :=
  h.of_mem_steps (mem_steps_of_get? hget)

theorem WellFormed.of_mem_fields {node : Node} {field : String × Node} (h : node.WellFormed)
    (hmem : field ∈ node.fields) : field.2.WellFormed :=
  h.of_get? (h.mem_fields_iff.mp hmem)

theorem WellFormed.of_mem_items {node item : Node} (h : node.WellFormed)
    (hmem : item ∈ node.items) : item.WellFormed := by
  cases node with
  | array items => exact (wellFormed_array_iff items).mp h item hmem
  | _ => simp [items, items?] at hmem

theorem WellFormed.of_mem_getItems {node item : Node} {key : String} (h : node.WellFormed)
    (hmem : item ∈ node.getItems key) : item.WellFormed := by
  cases hget : node.get? key with
  | none => simp [getItems, hget] at hmem
  | some value => exact (h.of_get? hget).of_mem_items (by simpa [getItems, hget] using hmem)

theorem getString?_eq_some_iff {node : Node} {key text : String} :
    node.getString? key = some text ↔ node.get? key = some (.string text) := by
  unfold getString?
  cases node.get? key with
  | none => simp
  | some value => cases value <;> simp [string?]

/-- The elements under a key are those of an array there. -/
theorem getElem?_getItems_iff {node item : Node} {key : String} {position : Nat} :
    (node.getItems key)[position]? = some item ↔
      ∃ items, node.get? key = some (.array items) ∧ items[position]? = some item := by
  unfold getItems
  cases node.get? key with
  | none => simp
  | some value => cases value <;> simp [items, items?]

theorem mem_getItems_iff {node item : Node} {key : String} :
    item ∈ node.getItems key ↔ ∃ items, node.get? key = some (.array items) ∧ item ∈ items := by
  simp only [List.mem_iff_getElem?, getElem?_getItems_iff]
  constructor
  · rintro ⟨position, items, hitems, hitem⟩
    exact ⟨items, hitems, position, hitem⟩
  · rintro ⟨items, hitems, position, hitem⟩
    exact ⟨position, items, hitems, hitem⟩

theorem getItems_eq_nil_iff {node : Node} {key : String} :
    node.getItems key = [] ↔ ∀ items, node.get? key = some (.array items) → items = [] := by
  simp only [List.eq_nil_iff_forall_not_mem, mem_getItems_iff]
  constructor
  · intro h items hitems item hitem
    exact h item ⟨items, hitems, hitem⟩
  · rintro h item ⟨items, hitems, hitem⟩
    exact h items hitems item hitem

/-- What a path leads to in a well-formed tree is well formed. -/
theorem WellFormed.of_resolve {path : DocPath} {node child : Node} (h : node.WellFormed)
    (hr : path.resolve node = some child) : child.WellFormed := by
  induction path generalizing node with
  | nil =>
    obtain rfl : node = child := Option.some.inj hr
    exact h
  | cons segment rest ih =>
    obtain ⟨next, hnext, hrest⟩ := Option.bind_eq_some_iff.mp hr
    exact ih (h.of_mem_steps (h.mem_steps_iff.mpr hnext)) hrest

/-! ## Induction along the steps -/

theorem countItems_eq_sum (items : List Node) : countItems items = (items.map count).sum := by
  induction items with
  | nil => rfl
  | cons item rest ih => simp [countItems, ih]

theorem countFields_eq_sum (fields : Fields) :
    countFields fields = (fields.map fun field => field.2.count).sum := by
  induction fields with
  | nil => rfl
  | cons field rest ih => simp [countFields, ih]

theorem map_count_zipIdx (items : List Node) :
    (items.zipIdx.map fun item => item.1.count) = items.map count := by
  rw [← List.zipIdx_map_fst 0 items, List.map_map, List.zipIdx_map_fst]
  rfl

/-- A tree has the nodes of its children and one more. -/
theorem count_eq_steps (node : Node) :
    node.count = 1 + (node.steps.map fun s => s.2.count).sum := by
  cases node with
  | array items => simp [steps, count, countItems_eq_sum, Function.comp_def, map_count_zipIdx]
  | object fields => simp [steps, count, countFields_eq_sum, Function.comp_def]
  | _ => rfl

theorem count_lt_of_mem_steps {node : Node} {s : Segment × Node} (hs : s ∈ node.steps) :
    s.2.count < node.count := by
  have hle : s.2.count ≤ (node.steps.map fun s => s.2.count).sum :=
    List.le_sum_of_mem (List.mem_map_of_mem hs)
  have hcount := node.count_eq_steps
  omega

/-- What holds of a node as soon as it holds of its children holds of every node. -/
theorem induction_steps {P : Node → Prop}
    (step : ∀ node, (∀ s ∈ node.steps, P s.2) → P node) (node : Node) : P node := by
  induction hn : node.count using Nat.strongRecOn generalizing node with
  | ind n ih =>
    refine step node fun s hs => ?_
    exact ih s.2.count (hn ▸ count_lt_of_mem_steps hs) s.2 rfl

end Node

end ApiLint
