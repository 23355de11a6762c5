import ApiLint.Proofs.Lists
import ApiLint.Proofs.Node.Throughout
import ApiLint.Proofs.Schema.Leaves
set_option autoImplicit false

/-!
# What merged views require

A merge collects the required names of the leaves that it absorbs and adds none of its own; so
every name that a merged view requires is required by a schema within the one that is merged.
-/

namespace ApiLint.Schema

/-- A merged view requires what the leaves require. -/
theorem mem_requiredOf_mergeAllOf_iff {schema : Node} (hwf : schema.WellFormed) (name : String) :
    name ∈ requiredOf (mergeAllOf schema) ↔
      ∃ leaf ∈ leaves schema, name ∈ requiredOf (.object leaf) := by
  cases h : branches? schema "allOf" with
  | some branches =>
    rw [mergeAllOf_eq_toNode h, Merged.requiredOf_toNode (proper_mergedLeaves schema).clean,
      required_mergedLeaves hwf, List.mem_eraseDups, List.mem_flatMap]
  | none =>
    rw [mergeAllOf_eq, h]
    cases schema with
    | object fields => simp [leaves_object, branchesOf, h]
    | _ => simp [leaves, requiredOf, Node.getItems, Node.get?]

/-- A schema that is merged from branches requires no name twice. -/
theorem nodup_requiredOf_mergeAllOf {schema : Node} (hwf : schema.WellFormed)
    {branches : List Node} (h : branches? schema "allOf" = some branches) :
    (requiredOf (mergeAllOf schema)).Nodup := by
  rw [mergeAllOf_eq_toNode h, Merged.requiredOf_toNode (proper_mergedLeaves schema).clean,
    required_mergedLeaves hwf]
  exact nodup_eraseDups _

/-- What holds throughout a schema holds throughout its branches. -/
theorem throughout_of_mem_branches {p : Node → Prop} {schema branch : Node} {keyword : String}
    {branches : List Node} (h : schema.Throughout p)
    (hbranches : branches? schema keyword = some branches) (hmem : branch ∈ branches) :
    branch.Throughout p := by
  obtain ⟨value, hvalue, hitems⟩ := Option.bind_eq_some_iff.mp hbranches
  have hthroughout := h.of_mem_steps (Node.mem_steps_of_get? hvalue)
  cases value with
  | array items =>
    obtain rfl := Option.some.inj hitems
    exact ((Node.throughout_array_iff p _).mp hthroughout).2 branch hmem
  | _ => cases hitems

/-- A name that a merged view requires is required by a schema that it is merged from; so what
holds of all required names throughout the schema holds of it. -/
theorem of_mem_requiredOf_mergeAllOf {p : String → Prop} {schema : Node}
    (hwf : schema.WellFormed)
    (h : schema.Throughout fun node => ∀ name ∈ requiredOf node, p name) :
    ∀ name ∈ requiredOf (mergeAllOf schema), p name := by
  intro name hname
  obtain ⟨leaf, hleaf, hrequired⟩ := (mem_requiredOf_mergeAllOf_iff hwf name).mp hname
  have hthroughout : (Node.object leaf).Throughout fun node => ∀ name ∈ requiredOf node, p name := by
    refine forall_mem_leaves (fun schema hschema branch hmem => ?_) h leaf hleaf
    obtain ⟨branches, hbranches, hin⟩ := mem_branchesOf_iff.mp hmem
    exact throughout_of_mem_branches hschema hbranches hin
  exact hthroughout.holds name hrequired

end ApiLint.Schema
