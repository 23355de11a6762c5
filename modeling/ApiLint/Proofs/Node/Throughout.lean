import ApiLint.Proofs.Node.Steps
set_option autoImplicit false

/-!
# What holds throughout a tree

A property of single nodes holds throughout a tree when it holds of the root and of
everything below it.  It is handed down along the steps, so it holds of whatever a path
leads to.
-/

namespace ApiLint.Node

/-- The property holds of a node and of everything below it. -/
inductive Throughout (p : Node → Prop) : Node → Prop
  | intro {node : Node} (root : p node) (children : ∀ s ∈ node.steps, Throughout p s.2) :
    Throughout p node

theorem throughout_iff (p : Node → Prop) (node : Node) :
    Throughout p node ↔ p node ∧ ∀ s ∈ node.steps, Throughout p s.2 :=
  ⟨fun ⟨root, children⟩ => ⟨root, children⟩, fun ⟨root, children⟩ => ⟨root, children⟩⟩

/-- A leaf has nothing below it. -/
theorem throughout_leaf_iff (p : Node → Prop) {node : Node} (h : node.steps = []) :
    Throughout p node ↔ p node := by
  simp [throughout_iff p node, h]

theorem throughout_array_iff (p : Node → Prop) (items : List Node) :
    Throughout p (.array items) ↔ p (.array items) ∧ ∀ item ∈ items, Throughout p item := by
  rw [throughout_iff]
  refine and_congr_right fun _ => ⟨fun h item hitem => ?_, fun h s hs => ?_⟩
  · obtain ⟨position, hposition⟩ := List.mem_iff_getElem?.mp hitem
    exact h (.index position, item)
      (List.mem_map.mpr ⟨(item, position), List.mem_zipIdx_iff_getElem?.mpr hposition, rfl⟩)
  · obtain ⟨item, hitem, rfl⟩ := List.mem_map.mp hs
    exact h _ (List.fst_mem_of_mem_zipIdx hitem)

theorem throughout_object_iff (p : Node → Prop) (fields : Fields) :
    Throughout p (.object fields) ↔
      p (.object fields) ∧ ∀ field ∈ fields, Throughout p field.2 := by
  rw [throughout_iff]
  exact and_congr_right fun _ => List.forall_mem_map

/-- A step leads to a child, also where keys are repeated. -/
theorem mem_steps_of_step? {node child : Node} {segment : Segment}
    (h : DocPath.step? node segment = some child) : (segment, child) ∈ node.steps := by
  cases segment with
  | key name => exact mem_steps_of_get? h
  | index position =>
    obtain ⟨items, hitems, hitem⟩ := Option.bind_eq_some_iff.mp h
    cases node with
    | array elements =>
      obtain rfl := Option.some.inj hitems
      exact List.mem_map.mpr ⟨(child, position), List.mem_zipIdx_iff_getElem?.mpr hitem, rfl⟩
    | _ => simp [items?] at hitems

namespace Throughout

variable {p : Node → Prop} {node : Node}

theorem holds (h : Throughout p node) : p node := ((throughout_iff p node).mp h).1

theorem of_mem_steps (h : Throughout p node) {s : Segment × Node} (hs : s ∈ node.steps) :
    Throughout p s.2 := ((throughout_iff p node).mp h).2 s hs

/-- What follows from it at every node holds throughout too. -/
theorem mono {q : Node → Prop} (h : Throughout p node) (hpq : ∀ n, p n → q n) :
    Throughout q node := by
  induction h with
  | intro root _ ih => exact ⟨hpq _ root, ih⟩

/-- It holds throughout what a path leads to. -/
theorem of_resolve {path : DocPath} {child : Node} (h : Throughout p node)
    (hpath : path.resolve node = some child) : Throughout p child := by
  induction path generalizing node with
  | nil =>
    obtain rfl := Option.some.inj hpath
    exact h
  | cons segment rest ih =>
    obtain ⟨next, hnext, hrest⟩ := Option.bind_eq_some_iff.mp hpath
    exact ih (h.of_mem_steps (mem_steps_of_step? hnext)) hrest

end Throughout

end ApiLint.Node
