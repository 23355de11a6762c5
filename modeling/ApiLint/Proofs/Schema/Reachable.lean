import ApiLint.Proofs.Schema.Nesting
set_option autoImplicit false

/-!
# The schemas that a schema leads to

The listing of a schema does not look at where the schema stands: at another path it
lists the same schemas, behind that path.  So what is said of the schemas of a document
holds of every schema by itself: the loop ends, it makes the pre-order of the recursion,
and it lists the objects that chains of held schemas lead to, each once.
-/

namespace ApiLint

/-- The place behind a path. -/
def Located.behind (path : DocPath) (place : Located) : Located := ⟨path ++ place.path, place.node⟩

namespace Schema

/-! ## The same schema at another path -/

theorem childrenIn_behind (keyword : String) (path : DocPath) (schema : Located) :
    childrenIn keyword (schema.behind path) =
      (childrenIn keyword schema).map (Located.behind path) := by
  simp [childrenIn, Located.behind, DocPath.keys]

theorem childAt_behind (keyword : String) (path : DocPath) (schema : Located) :
    childAt keyword (schema.behind path) = (childAt keyword schema).map (Located.behind path) := by
  unfold childAt Located.behind
  dsimp only
  cases schema.node.get? keyword <;> simp [DocPath.child]

theorem branchesAt_behind (keyword : String) (path : DocPath) (schema : Located) :
    branchesAt keyword (schema.behind path) =
      (branchesAt keyword schema).map (Located.behind path) := by
  simp [branchesAt, located_eq_map, Located.behind, DocPath.child]

theorem children_behind (path : DocPath) (schema : Located) :
    children (schema.behind path) = (children schema).map (Located.behind path) := by
  simp only [children, childrenIn_behind, childAt_behind, branchesAt_behind, List.map_append]

/-- A schema behind a path has the same schemas inside, all of them behind that path. -/
theorem subschemas_behind (path : DocPath) (schema : Located) :
    subschemas (schema.behind path) = (subschemas schema).map (Located.behind path) := by
  induction schema using induction_children with
  | step schema ih =>
    rw [subschemas_eq, subschemas_eq schema, children_behind, List.flatMap_map]
    have hnode : (schema.behind path).node = schema.node := rfl
    rw [hnode]
    split
    · rw [List.map_cons, List.map_flatMap, List.flatMap_congr ih]
    · rfl

/-! ## What is listed for a schema -/

/-- From every schema and every path the loop of the listing ends, and in one way only; it makes
the pre-order of the recursion, and it lists the nodes at the end of chains of held schemas, at
the path followed by the steps of the chain and none of them twice. -/
theorem subschemas_eq_reachable (path : DocPath) {schema : Node} (hwf : schema.WellFormed) :
    (∀ listed, Lists [⟨path, schema⟩] listed ↔ listed = subschemas ⟨path, schema⟩) ∧
      subschemas ⟨path, schema⟩ = subtree path schema ∧
      (∀ found : Located, found ∈ subschemas ⟨path, schema⟩ ↔
        ∃ steps, found.path = path ++ steps ∧ steps.resolve schema = some found.node ∧
          NestedAt schema [] steps) ∧
      ((subschemas ⟨path, schema⟩).map Located.path).Nodup := by
  have hroot : Located.StandsIn schema ⟨[], schema⟩ := rfl
  have hbehind : subschemas ⟨path, schema⟩ =
      (subschemas ⟨[], schema⟩).map (Located.behind path) := by
    rw [← subschemas_behind, Located.behind, List.append_nil]
  refine ⟨fun listed => ⟨fun h => ?_, ?_⟩, subschemas_eq_tree _, fun found => ?_, ?_⟩
  · rw [h.eq_flatMap_tree, (lists_subschemas _).eq_flatMap_tree]
  · rintro rfl
    exact lists_subschemas _
  · rw [hbehind, List.mem_map]
    constructor
    · rintro ⟨inner, hinner, rfl⟩
      obtain ⟨hstands, hnested⟩ := (mem_subschemas_iff hwf hroot inner).mp hinner
      exact ⟨inner.path, rfl, hstands, hnested⟩
    · rintro ⟨steps, hpath, hresolve, hnested⟩
      refine ⟨⟨steps, found.node⟩, (mem_subschemas_iff hwf hroot _).mpr ⟨hresolve, hnested⟩, ?_⟩
      rw [Located.behind, ← hpath]
  · have hpaths : ((subschemas ⟨path, schema⟩).map Located.path) =
        ((subschemas ⟨[], schema⟩).map Located.path).map (path ++ ·) := by
      rw [hbehind, List.map_map, List.map_map]
      rfl
    rw [hpaths]
    exact (nodup_subschemas hwf hroot).map fun _ _ h => List.append_cancel_left h

/-- A schema with properties that are called like keywords, with branches that are no array and
values that are no schemas. -/
def keywordedSchema : Node :=
  .object [
    ("not", .object []),
    ("anyOf", .object [("0", .object [])]),
    ("allOf", .array [.object [("items", .object [])], .bool true]),
    ("properties", .object [
      ("items", .object [("$ref", .string "#/definitions/Pet")]),
      ("allOf", .array [.object []]),
      ("properties", .object [])])]

/-- Six schemas are listed for it behind a path, in the order of the keywords and not of its
keys. -/
theorem subschemas_keywordedSchema :
    (subschemas ⟨[.key "definitions", .key "Pets"], keywordedSchema⟩).map Located.path =
        ([[], [.key "properties", .key "items"], [.key "properties", .key "properties"],
          [.key "allOf", .index 0], [.key "allOf", .index 0, .key "items"],
          [.key "not"]].map fun steps => [.key "definitions", .key "Pets"] ++ steps) ∧
      subschemas ⟨[.key "definitions", .key "Pets"], keywordedSchema⟩ =
        subtree [.key "definitions", .key "Pets"] keywordedSchema ∧
      (∃ steps, [.key "definitions", .key "Pets", .key "allOf", .index 0, .key "items"] =
          [.key "definitions", .key "Pets"] ++ steps ∧
        DocPath.resolve steps keywordedSchema = some (.object []) ∧
          NestedAt keywordedSchema [] steps) := by
  have hwf : keywordedSchema.WellFormed := by
    simp [keywordedSchema, Node.WellFormed, Node.WellFormedFields, Node.WellFormedItems]
  obtain ⟨_, htree, hmem, _⟩ := subschemas_eq_reachable [.key "definitions", .key "Pets"] hwf
  refine ⟨by decide +kernel, htree, (hmem ⟨_, _⟩).mp ?_⟩
  rw [htree]
  simp [keywordedSchema, subtree, subtreeIn, subtreeAt, subtreeBranches, subtreeValues,
    subtreeFields, subtreeElements, subtreeItems, DocPath.child]

end Schema

end ApiLint
