import ApiLint.Proofs.Rule.Reports
import ApiLint.Proofs.Schema.MergedComposition
import Mathlib.Logic.Relation
set_option autoImplicit false

/-!
# Bounds that a composition supplies

The rule on bounded strings asks of every schema of the document whether the composition of
that schema supplies a bound.  A bound that stands somewhere in the branches of `allOf` is
one for the schema, and for every branch on the way to it.  The branches beside this way
describe the same string, but they are asked for themselves: one that is a string without a
bound of its own is reported.
-/

namespace ApiLint

namespace Schema

/-! ## Branches of branches -/

/-- One schema is the other, one of its branches under `allOf`, one of theirs, and so on. -/
def InComposition (schema branch : Located) : Prop :=
  Relation.ReflTransGen (fun outer inner => inner ∈ branchesAt "allOf" outer) schema branch

theorem map_node_branchesAt (keyword : String) (schema : Located) :
    (branchesAt keyword schema).map Located.node = branchesOf schema.node keyword := by
  rw [branchesAt, located_eq_map, List.map_map]
  exact List.zipIdx_map_fst _ _

theorem mem_children_of_mem_branchesAt {schema branch : Located}
    (h : branch ∈ branchesAt "allOf" schema) : branch ∈ children schema := by
  simp [children, h]

/-- A schema with branches is an object. -/
theorem isObject_of_mem_branchesAt {keyword : String} {schema branch : Located}
    (h : branch ∈ branchesAt keyword schema) : schema.node.isObject = true := by
  have hmem : branch.node ∈ branchesOf schema.node keyword :=
    map_node_branchesAt keyword schema ▸ List.mem_map_of_mem h
  obtain ⟨branches, hbranches, _⟩ := mem_branchesOf_iff.mp hmem
  cases hnode : schema.node with
  | object fields => rfl
  | _ => simp [hnode, branches?, Node.get?] at hbranches

/-! ## Listed branches -/

theorem mem_subschemas_self {schema : Located} (h : schema.node.isObject = true) :
    schema ∈ subschemas schema := by
  rw [subschemas_eq, if_pos h]
  exact List.mem_cons_self

/-- What a listed schema lists is listed. -/
theorem mem_subschemas_trans {outer middle inner : Located} (hmiddle : middle ∈ subschemas outer)
    (hinner : inner ∈ subschemas middle) : inner ∈ subschemas outer := by
  induction outer using induction_children with
  | step outer ih =>
    rw [subschemas_eq] at hmiddle
    split at hmiddle
    · next hobject =>
      rcases List.mem_cons.mp hmiddle with rfl | hmem
      · exact hinner
      · obtain ⟨child, hchild, hmem⟩ := List.mem_flatMap.mp hmem
        rw [subschemas_eq, if_pos hobject]
        exact List.mem_cons_of_mem _ (List.mem_flatMap.mpr ⟨child, hchild, ih child hchild hmem⟩)
    · exact absurd hmiddle List.not_mem_nil

/-- A branch of a schema of the document is one too, unless it is no object. -/
theorem mem_all_of_mem_branchesAt {document : Node} {schema branch : Located}
    (h : schema ∈ all document) (hbranch : branch ∈ branchesAt "allOf" schema)
    (hobject : branch.node.isObject = true) : branch ∈ all document := by
  obtain ⟨root, hroot, hschema⟩ := List.mem_flatMap.mp h
  have hlisted : branch ∈ subschemas schema := by
    rw [subschemas_eq, if_pos (isObject_of_mem_branchesAt hbranch)]
    exact List.mem_cons_of_mem _ (List.mem_flatMap.mpr
      ⟨branch, mem_children_of_mem_branchesAt hbranch, mem_subschemas_self hobject⟩)
  exact List.mem_flatMap.mpr ⟨root, hroot, mem_subschemas_trans hschema hlisted⟩

/-- Every branch of branches of a schema of the document stands in the document, and is a schema of
it unless it is no object. -/
theorem InComposition.standsIn_and_mem_all {document : Node} (hwf : document.WellFormed)
    {schema branch : Located} (hin : InComposition schema branch) (h : schema ∈ all document) :
    branch.StandsIn document ∧ (branch.node.isObject = true → branch ∈ all document) := by
  induction hin with
  | refl => exact ⟨standsIn_of_mem_all hwf h, fun _ => h⟩
  | @tail outer inner _ hinner ih =>
    obtain ⟨hstands, hlisted⟩ := ih
    have hchildren := (collects_children hwf).mem_iff outer hstands inner
    refine ⟨(hchildren.mp (mem_children_of_mem_branchesAt hinner)).1, ?_⟩
    exact mem_all_of_mem_branchesAt (hlisted (isObject_of_mem_branchesAt hinner)) hinner

/-! ## Where a constraint is satisfied -/

section Constraint

variable {constraint : Node → Bool}

/-- What a branch satisfies is satisfied by the schema. -/
theorem satisfies_of_mem_branchesAt {schema branch : Located}
    (h : branch ∈ branchesAt "allOf" schema) (hbranch : satisfies constraint branch.node = true) :
    satisfies constraint schema.node = true := by
  have hmem : branch.node ∈ branchesOf schema.node "allOf" :=
    map_node_branchesAt "allOf" schema ▸ List.mem_map_of_mem h
  have hcontributes : contributes constraint "allOf" schema.node = true := by
    rw [contributes_eq_branchesOf, if_pos rfl]
    exact List.any_eq_true.mpr ⟨branch.node, hmem, hbranch⟩
  exact (satisfies_iff_alone_or_branches _ _).mpr
    ⟨isObject_of_mem_branchesAt h, .inr hcontributes⟩

theorem InComposition.satisfies {schema branch : Located} (hin : InComposition schema branch)
    (hbranch : Schema.satisfies constraint branch.node = true) :
    Schema.satisfies constraint schema.node = true := by
  induction hin with
  | refl => exact hbranch
  | tail _ hinner ih => exact ih (satisfies_of_mem_branchesAt hinner hbranch)

/-- A constraint that a schema satisfies is satisfied alone by the schema, by a branch, or by a
branch of branches. -/
theorem exists_inComposition_of_satisfies {schema : Located}
    (h : satisfies constraint schema.node = true) :
    ∃ bearer, InComposition schema bearer ∧ satisfies constraint bearer.node = true ∧
      SatisfiesAlone constraint bearer.node := by
  induction schema using induction_children with
  | step schema ih =>
    by_cases halone : SatisfiesAlone constraint schema.node
    · exact ⟨schema, .refl, h, halone⟩
    · have hcontributes :=
        ((satisfies_iff_alone_or_branches _ _).mp h).2.resolve_left halone
      rw [contributes_eq_branchesOf, if_pos rfl, ← map_node_branchesAt, List.any_map,
        List.any_eq_true] at hcontributes
      obtain ⟨branch, hbranch, hsatisfies⟩ := hcontributes
      obtain ⟨bearer, hin, hbearer⟩ :=
        ih branch (mem_children_of_mem_branchesAt hbranch) hsatisfies
      exact ⟨bearer, .head hbranch hin, hbearer⟩

end Constraint

end Schema

namespace Rule

open Schema (InComposition SatisfiesAlone satisfies)

/-- The schema or its composition bounds the length of a string. -/
def suppliesBound (schema : Node) : Bool := satisfies (·.hasKey "maxLength") schema

/-- Only objects need a bound. -/
theorem isObject_of_isUnbounded {schema : Node} (h : isUnbounded schema = true) :
    schema.isObject = true := by
  cases schema with
  | object fields => rfl
  | _ => simp [isUnbounded, needsBound, Schema.hasType, Node.getString?, Node.get?] at h

/-- A finding on bounded strings is made for an unbounded string among the schemas. -/
theorem mem_stringBoundary_iff {document : Node} (finding : Finding) :
    finding ∈ stringBoundary document ↔
      ∃ schema ∈ Schema.all document, isUnbounded schema.node = true ∧
        finding = unboundedFinding schema := by
  simp only [stringBoundary, List.mem_map, List.mem_filter, and_assoc, eq_comm]

section WellFormed

variable {document : Node} (hwf : document.WellFormed)
variable {rule : Rule} (hid : rule.id = .stringBoundary) (block : RuleBlock)
include hwf hid

/-- At a node that is a schema of the document unless it is no object, something is reported
exactly when it is an unbounded string. -/
theorem exists_mem_check_iff_isUnbounded {place : Located} (hstands : place.StandsIn document)
    (hlisted : place.node.isObject = true → place ∈ Schema.all document) :
    (∃ v ∈ rule.check block document, v.path = place.path) ↔ isUnbounded place.node = true := by
  rw [check_of_ne (by rw [hid]; decide), hid]
  constructor
  · rintro ⟨v, hv, hpath⟩
    obtain ⟨finding, hfinding, rfl⟩ := List.mem_map.mp hv
    obtain ⟨schema, hschema, hunbounded, rfl⟩ := (mem_stringBoundary_iff finding).mp hfinding
    obtain rfl := (Schema.standsIn_of_mem_all hwf hschema).eq_of_path hstands hpath
    exact hunbounded
  · intro hunbounded
    have hschema := hlisted (isObject_of_isUnbounded hunbounded)
    have hfinding : unboundedFinding place ∈ stringBoundary document :=
      (mem_stringBoundary_iff _).mpr ⟨place, hschema, hunbounded, rfl⟩
    exact ⟨_, List.mem_map_of_mem hfinding, rfl⟩

/-- Where the composition of a schema supplies a bound, nothing is reported at the schema, and a
branch, or branch of branches, is reported exactly when it is a string that needs a bound and its
own composition supplies none.  The bound stands alone somewhere in the composition, and nothing
is reported on the way to it. -/
theorem exists_mem_check_branch_iff {schema : Located} (h : schema ∈ Schema.all document)
    (hbound : suppliesBound schema.node = true) :
    (∀ v ∈ rule.check block document, v.path ≠ schema.path) ∧
      (∀ branch, InComposition schema branch →
        ((∃ v ∈ rule.check block document, v.path = branch.path) ↔
          needsBound branch.node = true ∧ suppliesBound branch.node = false)) ∧
      ∃ bearer, InComposition schema bearer ∧ SatisfiesAlone (·.hasKey "maxLength") bearer.node ∧
        ∀ branch, InComposition schema branch → InComposition branch bearer →
          ∀ v ∈ rule.check block document, v.path ≠ branch.path := by
  have hreported : ∀ branch, InComposition schema branch →
      ((∃ v ∈ rule.check block document, v.path = branch.path) ↔
        needsBound branch.node = true ∧ suppliesBound branch.node = false) := by
    intro branch hin
    obtain ⟨hstands, hlisted⟩ := hin.standsIn_and_mem_all hwf h
    rw [exists_mem_check_iff_isUnbounded hwf hid block hstands hlisted]
    simp [isUnbounded, suppliesBound]
  have hsilent : ∀ branch, InComposition schema branch → suppliesBound branch.node = true →
      ∀ v ∈ rule.check block document, v.path ≠ branch.path := by
    intro branch hin hbounded v hv hpath
    have hnone := ((hreported branch hin).mp ⟨v, hv, hpath⟩).2
    rw [hbounded] at hnone
    cases hnone
  obtain ⟨bearer, hbearer, hsatisfies, halone⟩ := Schema.exists_inComposition_of_satisfies hbound
  refine ⟨hsilent schema .refl hbound, hreported, bearer, hbearer, halone, ?_⟩
  exact fun branch hin hway => hsilent branch hin (hway.satisfies hsatisfies)

end WellFormed

/-- A schema that has its type from one branch and its bound from another. -/
def boundedName : Located :=
  ⟨DocPath.keys [] ["components", "schemas", "Name"], .object [("allOf", .array [
    .object [("type", .string "string")],
    .object [("maxLength", .int 10)]])]⟩

/-- A document with that schema. -/
def boundedNameDocument : Node :=
  .object [("components", .object [("schemas", .object [("Name", boundedName.node)])])]

/-- The branch that has the type. -/
def typeBranch : Located :=
  ⟨(boundedName.path.child (.key "allOf")).child (.index 0),
    .object [("type", .string "string")]⟩

/-- The branch that has the bound. -/
def boundBranch : Located :=
  ⟨(boundedName.path.child (.key "allOf")).child (.index 1), .object [("maxLength", .int 10)]⟩

theorem branchesAt_boundedName :
    Schema.branchesAt "allOf" boundedName = [typeBranch, boundBranch] := rfl

theorem mem_all_boundedName : boundedName ∈ Schema.all boundedNameDocument := by
  have hall : Schema.all boundedNameDocument = [boundedName, typeBranch, boundBranch] := rfl
  exact hall ▸ List.mem_cons_self

theorem inComposition_typeBranch : InComposition boundedName typeBranch :=
  .single (branchesAt_boundedName ▸ List.mem_cons_self)

theorem inComposition_boundBranch : InComposition boundedName boundBranch :=
  .single (branchesAt_boundedName ▸ List.mem_cons_of_mem _ List.mem_cons_self)

/-- Of the schema and its branches only the one with the type is reported. -/
theorem exists_mem_check_typeBranch :
    (∀ v ∈ (standard .stringBoundary).check {} boundedNameDocument, v.path ≠ boundedName.path) ∧
      (∃ v ∈ (standard .stringBoundary).check {} boundedNameDocument, v.path = typeBranch.path) ∧
      ∀ v ∈ (standard .stringBoundary).check {} boundedNameDocument,
        v.path ≠ boundBranch.path := by
  have hwf : boundedNameDocument.WellFormed := by
    simp [boundedNameDocument, boundedName, Node.WellFormed, Node.WellFormedFields,
      Node.WellFormedItems]
  have hid : (standard .stringBoundary).id = .stringBoundary := rfl
  obtain ⟨hschema, hbranches, _⟩ :=
    exists_mem_check_branch_iff hwf hid {} mem_all_boundedName (by decide +kernel)
  refine ⟨hschema, (hbranches _ inComposition_typeBranch).mpr ⟨by decide, by decide +kernel⟩, ?_⟩
  intro v hv hpath
  have hneeds := ((hbranches _ inComposition_boundBranch).mp ⟨v, hv, hpath⟩).1
  exact absurd hneeds (by decide)

/-- Where the composition of a schema supplies a bound, branches of it may be reported still. -/
theorem exists_reported_branch :
    ¬ ∀ schema ∈ Schema.all boundedNameDocument, suppliesBound schema.node = true →
      ∀ branch, InComposition schema branch →
        ∀ v ∈ (standard .stringBoundary).check {} boundedNameDocument, v.path ≠ branch.path := by
  have hcheck : ((standard .stringBoundary).check {} boundedNameDocument).map Violation.path =
      [typeBranch.path] := by
    decide +kernel
  obtain ⟨v, hv, hpath⟩ := List.mem_map.mp (hcheck ▸ List.mem_cons_self)
  intro h
  exact h boundedName mem_all_boundedName (by decide +kernel) typeBranch
    inComposition_typeBranch v hv hpath

end Rule

end ApiLint
