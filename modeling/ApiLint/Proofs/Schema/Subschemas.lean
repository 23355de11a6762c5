import ApiLint.Proofs.Schema.Nesting
set_option autoImplicit false

/-!
# The schemas of a document

Every schema that is listed for a document stands in it, at the path that it is listed
with: at a root or at the end of a chain of schemas from a root.  The listings of two
roots have no path in common, and none of them has a path twice, whatever the properties
of schemas are called.
-/

namespace ApiLint.Schema

variable {document : Node}

section WellFormed

variable (hwf : document.WellFormed)
include hwf

/-- The schemas of a document are the nodes at the end of chains of schemas from its roots. -/
theorem mem_all_iff (schema : Located) :
    schema ∈ all document ↔
      schema.StandsIn document ∧
        ∃ root, RootPlace document root ∧ NestedAt document root schema.path := by
  rw [all, List.mem_flatMap]
  constructor
  · rintro ⟨root, hroot, hschema⟩
    obtain ⟨hstands, hplace⟩ := (mem_roots_iff hwf root).mp hroot
    obtain ⟨hfound, hnested⟩ := (mem_subschemas_iff hwf hstands schema).mp hschema
    exact ⟨hfound, root.path, hplace, hnested⟩
  · rintro ⟨hfound, path, hplace, hnested⟩
    obtain ⟨node, hnode⟩ := DocPath.exists_resolve_on_way hnested.prefix_path hfound
    have hstands : Located.StandsIn document ⟨path, node⟩ := hnode
    have hroot := (mem_roots_iff hwf ⟨path, node⟩).mpr ⟨hstands, hplace⟩
    exact ⟨_, hroot, (mem_subschemas_iff hwf hstands schema).mpr ⟨hfound, hnested⟩⟩

/-- Every schema of the document stands in it. -/
theorem standsIn_of_mem_all {schema : Located} (h : schema ∈ all document) :
    schema.StandsIn document :=
  ((mem_all_iff hwf schema).mp h).1

/-- No path occurs twice among the schemas of a document. -/
theorem nodup_all : ((all document).map Located.path).Nodup := by
  have hstands : ∀ root ∈ roots document, root.StandsIn document :=
    fun root hroot => ((mem_roots_iff hwf root).mp hroot).1
  have hbelow : ∀ root ∈ roots document, ∀ schema ∈ subschemas root,
      root.path <+: schema.path := fun root hroot schema hschema =>
    ((mem_subschemas_iff hwf (hstands root hroot) schema).mp hschema).2.prefix_path
  rw [List.Nodup, List.pairwise_map, all, List.pairwise_flatMap]
  constructor
  · intro root hroot
    exact List.pairwise_map.mp (nodup_subschemas hwf (hstands root hroot))
  · apply (pairwise_diverge_roots hwf).imp_of_mem
    intro root other hroot hother hdiverge a ha b hb
    exact (hdiverge.extend (hbelow root hroot a ha) (hbelow other hother b hb)).ne

/-- Over all roots no path is listed twice, every path leads to the schema that is listed with
it, and no root lies on the path of another. -/
theorem schemas_listed_once :
    ((roots document).flatMap fun root => (subschemas root).map Located.path).Nodup ∧
      (∀ root ∈ roots document, ∀ schema ∈ subschemas root,
        schema.path.resolve document = some schema.node) ∧
      (roots document).Pairwise fun a b => DocPath.Diverge a.path b.path := by
  refine ⟨?_, ?_, pairwise_diverge_roots hwf⟩
  · have hnodup := nodup_all hwf
    rwa [all, List.map_flatMap] at hnodup
  · intro root hroot schema hschema
    exact standsIn_of_mem_all hwf (List.mem_flatMap.mpr ⟨root, hroot, hschema⟩)

end WellFormed

/-- A document with a schema whose properties are called like the parts of a response. -/
def imitatingDocument : Node :=
  .object [
    ("paths", .object [("/pets", .object [("get", .object [("responses", .object [("200",
      .object [("content", .object [("application/json", .object [("schema", .object [
        ("properties", .object [
          ("schema", .object []),
          ("headers", .object [("properties", .object [("schema", .object [])])]),
          ("content", .object [("items", .object [("$ref", .string "#/definitions/Pet")])])]),
        ("allOf", .array [.object [], .bool true])])])])])])])])]),
    ("definitions", .object [("Pet", .object [("not", .object [])])])]

/-- Of the two roots nine schemas are listed, each at a path of its own. -/
theorem schemas_imitatingDocument :
    (((roots imitatingDocument).map Located.path =
        [DocPath.keys [] ["paths", "/pets", "get", "responses", "200", "content",
          "application/json", "schema"], DocPath.keys [] ["definitions", "Pet"]]) ∧
      ((roots imitatingDocument).flatMap fun root =>
        (subschemas root).map Located.path).length = 9) ∧
    ((roots imitatingDocument).flatMap fun root => (subschemas root).map Located.path).Nodup ∧
      (∀ root ∈ roots imitatingDocument, ∀ schema ∈ subschemas root,
        schema.path.resolve imitatingDocument = some schema.node) ∧
      (roots imitatingDocument).Pairwise fun a b => DocPath.Diverge a.path b.path := by
  have hwf : imitatingDocument.WellFormed := by
    simp [imitatingDocument, Node.WellFormed, Node.WellFormedFields, Node.WellFormedItems]
  exact ⟨by decide +kernel, schemas_listed_once hwf⟩

end ApiLint.Schema
