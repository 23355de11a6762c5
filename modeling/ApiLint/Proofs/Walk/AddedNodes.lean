import ApiLint.Proofs.Node.Additions
import ApiLint.Proofs.Walk.Preorder
import Mathlib.Data.List.Flatten
set_option autoImplicit false

/-!
# Walking a tree with additions

A walk of a tree to which something was added meets the added nodes and otherwise the same
places.  So what is reported place by place gets no more, as long as nothing is reported on the
added nodes and nothing more on the nodes that they were added to.
-/

namespace ApiLint

variable {α : Type} {report : Located → List α}

/-- What is reported at the places of a tree. -/
def reportBelow (report : Located → List α) (path : DocPath) (node : Node) : List α :=
  (preorder path node).flatMap report

/-- The report on a node and those below its children. -/
theorem reportBelow_eq_append (path : DocPath) (node : Node) :
    reportBelow report path node =
      report ⟨path, node⟩ ++
        node.steps.flatMap fun s => reportBelow report (path.child s.1) s.2 := by
  have hcons : preorder path node = _ := Located.below_eq_cons ⟨path, node⟩
  rw [reportBelow, hcons, List.flatMap_cons, List.flatMap_assoc, Located.children,
    List.flatMap_map]
  rfl

theorem reportBelow_object (path : DocPath) (fields : Fields) :
    reportBelow report path (.object fields) =
      report ⟨path, .object fields⟩ ++
        fields.flatMap fun field => reportBelow report (path.child (.key field.1)) field.2 := by
  rw [reportBelow_eq_append, Node.steps, List.flatMap_map]

theorem reportBelow_array (path : DocPath) (items : List Node) :
    reportBelow report path (.array items) =
      report ⟨path, .array items⟩ ++
        items.zipIdx.flatMap fun item =>
          reportBelow report (path.child (.index item.2)) item.1 := by
  rw [reportBelow_eq_append, Node.steps, List.flatMap_map]

/-- On a node with nothing below it there is only the report on itself. -/
theorem reportBelow_of_leaf (path : DocPath) {node : Node} (h : node.steps = []) :
    reportBelow report path node = report ⟨path, node⟩ := by
  rw [reportBelow_eq_append, h, List.flatMap_nil, List.append_nil]

/-- Below a place of no known kind nothing is reported, when nothing is on such places. -/
theorem reportBelow_eq_nil_of_kind
    (h : ∀ place : Located, NodeKind.of place.path = .other → report place = [])
    {path : DocPath} (hpath : NodeKind.of path = .other) (node : Node) :
    reportBelow report path node = [] := by
  induction node using Node.induction_steps generalizing path with
  | step node ih =>
    rw [reportBelow_eq_append, h ⟨path, node⟩ hpath, List.nil_append, List.flatMap_eq_nil_iff]
    intro s hs
    refine ih s hs ?_
    rw [NodeKind.of_child, hpath, NodeKind.child_other]

/-- What is reported at the visits of a walk, place by place. -/
theorem flatMap_walkDocument (report : Visit → List α) (document : Node) :
    (walkDocument document).flatMap report =
      reportBelow (fun place => report place.visit) [] document := by
  rw [walkDocument, walk_eq_map_visit, List.flatMap_map, reportBelow]

/-- Elements put at the end of an array add no reports, when there are none on them and on the
array, and no more on the object. -/
theorem sublist_reportBelow_appendItems (path : DocPath) (node : Node) (key : String)
    {new : List Node}
    (hnode : (report ⟨path, node.appendItems key new⟩).Sublist (report ⟨path, node⟩))
    (harray : ∀ items, report ⟨path.child (.key key), .array items⟩ = [])
    (hnew : ∀ item ∈ new, ∀ position,
      reportBelow report ((path.child (.key key)).child (.index position)) item = []) :
    (reportBelow report path (node.appendItems key new)).Sublist
      (reportBelow report path node) := by
  have helements : ∀ position, ((new.zipIdx position).flatMap fun item =>
      reportBelow report ((path.child (.key key)).child (.index item.2)) item.1) = [] := by
    intro position
    rw [List.flatMap_eq_nil_iff]
    exact fun item hitem => hnew item.1 (List.fst_mem_of_mem_zipIdx hitem) item.2
  have happend : ∀ items, reportBelow report (path.child (.key key)) (.array (items ++ new)) =
      reportBelow report (path.child (.key key)) (.array items) := by
    intro items
    rw [reportBelow_array, reportBelow_array, harray, harray, List.zipIdx_append,
      List.flatMap_append, helements, List.append_nil]
  have hempty : reportBelow report (path.child (.key key)) (.array new) = [] := by
    rw [reportBelow_array, harray, helements]
    rfl
  -- the elements stand behind others, or alone where no array was
  have hfields := node.sublist_flatMap_fields_appendItems key new
    (g := fun field => reportBelow report (path.child (.key field.1)) field.2)
    (fun items => happend items ▸ .refl _) hempty
  cases node with
  | object fields =>
    obtain ⟨others, hothers⟩ : ∃ others, (Node.object fields).appendItems key new =
        .object others := by
      rw [Node.appendItems]
      split <;> exact ⟨_, rfl⟩
    rw [hothers] at hnode hfields ⊢
    rw [reportBelow_object, reportBelow_object]
    exact hnode.append hfields
  | _ => exact .refl _

/-- Changed entries of a map add no reports, when there are no more on each of them, on the map
and on the object. -/
theorem sublist_reportBelow_mapEntries (path : DocPath) (node : Node) (key : String)
    {f : String → Node → Node}
    (hnode : (report ⟨path, node.mapEntries key f⟩).Sublist (report ⟨path, node⟩))
    (hmap : ∀ entries, report ⟨path.child (.key key), .object entries⟩ = [])
    (hentry : ∀ name value,
      (reportBelow report ((path.child (.key key)).child (.key name)) (f name value)).Sublist
        (reportBelow report ((path.child (.key key)).child (.key name)) value)) :
    (reportBelow report path (node.mapEntries key f)).Sublist
      (reportBelow report path node) := by
  rcases node.mapEntries_cases key f with ⟨_, heq⟩ | ⟨fields, entries, rfl, hget, heq⟩
  · rw [heq]
  · rw [heq] at hnode ⊢
    rw [reportBelow_object, reportBelow_object]
    refine hnode.append (Fields.sublist_flatMap_setField (fun old hold => ?_) fun hnone => ?_)
    · obtain rfl : Node.object entries = old := Option.some.inj (hget.symm.trans hold)
      dsimp only
      rw [reportBelow_object, reportBelow_object, hmap, hmap, List.flatMap_map]
      exact List.Sublist.flatMap_right entries fun entry _ => hentry entry.1 entry.2
    · rw [hget] at hnone
      exact absurd hnone nofun

end ApiLint
