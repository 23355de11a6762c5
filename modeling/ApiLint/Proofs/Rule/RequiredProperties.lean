import ApiLint.Proofs.Rule.FindingPaths
import ApiLint.Proofs.Schema.MergedComposition
import ApiLint.Proofs.Schema.RequiredNames
set_option autoImplicit false

/-!
# Required properties that are reported

The rule on required properties judges the merged view of a schema, not the composition.
A property that it reports as undefined is one that some leaf of the composition requires and
no leaf has among its own properties.  But the composition may define it by a choice that the
merged view has lost, so the report can be wrong: it is exactly when a later leaf displaces
the choice.  In the other direction nothing goes wrong: the merged view defines nothing that
the composition does not define, so at a schema that is judged no missing name is passed over.
-/

namespace ApiLint.Rule

open Schema (composesProperty definesProperty leaves requiredOf choiceKeywords Displaced)

/-- A finding on required properties is made for a schema of the document and a name that its
merged view requires and does not define. -/
theorem exists_of_mem_requiredPropertyMissing {document : Node} {finding : Finding}
    (h : finding ∈ requiredPropertyMissing document) :
    ∃ schema ∈ Schema.all document, ∃ name ∈ requiredOf (Schema.mergeAllOf schema.node),
      composesProperty (Schema.mergeAllOf schema.node) name = false ∧
        finding = requiredFinding schema.path name := by
  obtain ⟨schema, hschema, h⟩ := List.mem_flatMap.mp h
  unfold undefinedRequired at h
  split at h
  · exact absurd h List.not_mem_nil
  · obtain ⟨name, hname, rfl⟩ := List.mem_map.mp h
    obtain ⟨hrequired, hundefined⟩ := List.mem_filter.mp hname
    exact ⟨schema, hschema, name, hrequired, by simpa using hundefined, rfl⟩

/-- A reported property is one that some leaf of the schema at the path requires and no leaf has
among its own properties, and that the composition defines exactly when a choice that defines
it is displaced. -/
theorem composesProperty_iff_of_mem_check {document : Node} (hwf : document.WellFormed)
    {rule : Rule} (hid : rule.id = .requiredPropertyMissing) {block : RuleBlock} {v : Violation}
    (hv : v ∈ rule.check block document) :
    ∃ schema name, v.path.resolve document = some schema ∧
      v.message = "Required property must be defined in the schema: " ++ name ∧
        (∃ leaf ∈ leaves schema, name ∈ requiredOf (.object leaf)) ∧
        (∀ leaf ∈ leaves schema, definesProperty name (.object leaf) = false) ∧
          (composesProperty schema name = true ↔
            ∃ keyword ∈ choiceKeywords, Displaced name keyword schema) := by
  obtain ⟨entry, hentry, rfl⟩ := List.mem_map.mp hv
  rw [gradedFindings_of_ne (by rw [hid]; decide), hid] at hentry
  obtain ⟨finding, hfinding, rfl⟩ := List.mem_map.mp hentry
  obtain ⟨schema, hschema, name, hrequired, hundefined, rfl⟩ :=
    exists_of_mem_requiredPropertyMissing hfinding
  have hstands := Schema.standsIn_of_mem_all hwf hschema
  have hschemaWf := hstands.wellFormed hwf
  exact ⟨schema.node, name, hstands, rfl,
    (Schema.mem_requiredOf_mergeAllOf_iff hschemaWf name).mp hrequired,
    Schema.composesProperty_iff_displaced hschemaWf hundefined⟩

/-- A schema that requires a property in one branch and defines it by the only choice of another,
beside a choice of its own. -/
def displacingSchema : Node :=
  .object [
    ("oneOf", .array [.object [("type", .string "object")]]),
    ("allOf", .array [
      .object [("required", .array [.string "id"])],
      .object [("oneOf", .array [
        .object [("properties", .object [("id", .object [("type", .string "string")])])]])]])]

/-- A document with that schema. -/
def displacingDocument : Node :=
  .object [("components", .object [("schemas", .object [("Pet", displacingSchema)])])]

theorem check_displacingDocument :
    ((standard .requiredPropertyMissing).check {} displacingDocument).map
        (fun v => (v.path, v.message)) =
      [(DocPath.keys [] ["components", "schemas", "Pet"],
        "Required property must be defined in the schema: " ++ "id")] := by
  decide

/-- The property of the second branch is reported, and its choice is displaced by that of the
schema. -/
theorem displaced_displacingSchema :
    ∃ v ∈ (standard .requiredPropertyMissing).check {} displacingDocument,
      v.path = DocPath.keys [] ["components", "schemas", "Pet"] ∧
        ∃ keyword ∈ choiceKeywords, Displaced "id" keyword displacingSchema := by
  have hwf : displacingDocument.WellFormed := by
    simp [displacingDocument, displacingSchema, Node.WellFormed, Node.WellFormedFields,
      Node.WellFormedItems]
  obtain ⟨v, hv, hreport⟩ := List.mem_map.mp (check_displacingDocument ▸ List.mem_cons_self)
  obtain ⟨hpath, hmessage⟩ := Prod.mk.inj hreport
  obtain ⟨schema, name, hschema, hname, _, _, hiff⟩ :=
    composesProperty_iff_of_mem_check hwf rfl hv
  rw [hpath] at hschema
  obtain rfl : displacingSchema = schema := Option.some.inj hschema
  obtain rfl : "id" = name := (String.append_right_inj _).mp (hmessage.symm.trans hname)
  exact ⟨v, hv, hpath, hiff.mp (by decide +kernel)⟩

/-- Not every reported property is undefined: the composition defines this one. -/
theorem exists_reported_composed :
    ¬ ∀ v ∈ (standard .requiredPropertyMissing).check {} displacingDocument,
      ∀ schema name, v.path.resolve displacingDocument = some schema →
        v.message = "Required property must be defined in the schema: " ++ name →
          composesProperty schema name = false := by
  obtain ⟨v, hv, hreport⟩ := List.mem_map.mp (check_displacingDocument ▸ List.mem_cons_self)
  obtain ⟨hpath, hmessage⟩ := Prod.mk.inj hreport
  intro h
  have hundefined := h v hv displacingSchema "id" (by rw [hpath]; rfl) hmessage
  exact absurd hundefined (by decide +kernel)

/-- The merged view of a schema defines no name that the composition does not define.  So at a
schema of a document, unless it is left out as a branch, every name that the merged view requires
and the composition does not define is reported. -/
theorem composesProperty_of_mergedView {schema : Node} (hwf : schema.WellFormed) (name : String) :
    (composesProperty (Schema.mergeAllOf schema) name = true →
        composesProperty schema name = true) ∧
      (name ∈ requiredOf (Schema.mergeAllOf schema) → composesProperty schema name = false →
        ∀ document path, ⟨path, schema⟩ ∈ Schema.all document → isAllOfBranch path = false →
          requiredFinding path name ∈ requiredPropertyMissing document) := by
  have hmerged : composesProperty (Schema.mergeAllOf schema) name = true →
      composesProperty schema name = true :=
    Schema.composesProperty_of_composesProperty_mergeAllOf hwf
  refine ⟨hmerged, fun hrequired hundefined document path hschema hpath => ?_⟩
  have hmissing : composesProperty (Schema.mergeAllOf schema) name = false :=
    Bool.eq_false_iff.mpr fun hdefined => by simp [hmerged hdefined] at hundefined
  refine List.mem_flatMap.mpr ⟨_, hschema, ?_⟩
  rw [undefinedRequired, if_neg (Bool.eq_false_iff.mp hpath)]
  exact List.mem_map_of_mem (List.mem_filter.mpr ⟨hrequired, by simp [hmissing]⟩)

/-- A schema with a choice in a branch, and a name that is required beside it and defined by some of
the choices only. -/
def halfDefinedSchema : Node :=
  .object [
    ("required", .array [.string "id", .string "name"]),
    ("allOf", .array [
      .object [("oneOf", .array [
        .object [("properties", .object [("id", .object []), ("name", .object [])])],
        .object [("properties", .object [("id", .object [])])]])]])]

/-- A document with that schema. -/
def halfDefinedDocument : Node :=
  .object [("components", .object [("schemas", .object [("Pet", halfDefinedSchema)])])]

/-- The name that all choices define is one of the composition; the other one is reported. -/
theorem composesProperty_halfDefinedSchema :
    composesProperty halfDefinedSchema "id" = true ∧
      requiredFinding (DocPath.keys [] ["components", "schemas", "Pet"]) "name" ∈
        requiredPropertyMissing halfDefinedDocument := by
  have hwf : halfDefinedSchema.WellFormed := by
    simp [halfDefinedSchema, Node.WellFormed, Node.WellFormedFields, Node.WellFormedItems]
  have hschema : ⟨DocPath.keys [] ["components", "schemas", "Pet"], halfDefinedSchema⟩ ∈
      Schema.all halfDefinedDocument := by
    have hroot : ∃ rest, Schema.all halfDefinedDocument =
        ⟨DocPath.keys [] ["components", "schemas", "Pet"], halfDefinedSchema⟩ :: rest := ⟨_, rfl⟩
    obtain ⟨rest, hall⟩ := hroot
    exact hall ▸ List.mem_cons_self
  exact ⟨(composesProperty_of_mergedView hwf "id").1 (by decide +kernel),
    (composesProperty_of_mergedView hwf "name").2 (by decide +kernel) (by decide +kernel)
      halfDefinedDocument _ hschema (by decide +kernel)⟩

end ApiLint.Rule
