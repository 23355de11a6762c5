import ApiLint.Proofs.Linter.Violations
import ApiLint.Proofs.Node.Reordering
import ApiLint.Proofs.Rule.OutlinedParameters
import ApiLint.Proofs.Rule.OutlinedReports
import ApiLint.Rule.Preset
set_option autoImplicit false

/-!
# The order of keys

Documents that differ in the order of the keys of their objects alone get the same
violations, as many of each, whatever the rules and the configuration.  Only the order of
the violations may change with that of the keys.
-/

namespace ApiLint

namespace Rule

/-! ## Findings of a rule -/

section Documents

variable {a b : Node} (ha : a.WellFormed) (hb : b.WellFormed) (h : a.outline = b.outline)
include h

theorem openapiTags_eq_of_outline : openapiTags a = openapiTags b := by
  rw [openapiTags, openapiTags, hasTags_eq_of_outline h, Node.hasKey_eq_of_outline h]

theorem definedTags_eq_of_outline : definedTags a = definedTags b :=
  filterMap_eq_of_view (Node.map_outline_getItems h "tags")
    fun _ _ _ _ hxy => Node.getString?_eq_of_outline hxy "name"

include ha hb

theorem perm_pathSegmentCase : (pathSegmentCase a).Perm (pathSegmentCase b) := by
  have hpaths := perm_map_filter_of_view (p := fun field => !isExtensionKey field.1)
    (f := Node.fieldView) (Node.perm_getFields? ha hb h "paths") fun x _ y _ hxy =>
      ⟨by rw [(Prod.mk.inj hxy).1], hxy⟩
  refine perm_flatMap_of_view hpaths ?_
  rintro ⟨template, _⟩ _ ⟨_, _⟩ _ heq
  obtain ⟨rfl, _⟩ := Prod.mk.inj heq
  exact .refl _

/-- A rule with one severity finds the same in documents with one outline, up to its order. -/
theorem perm_findingsOf (id : RuleId) : (findingsOf id a).Perm (findingsOf id b) := by
  cases id with
  | inlineResponseSchema =>
    rw [findingsOf, findingsOf, inlineResponseSchema_eq, inlineResponseSchema_eq]
    exact perm_flatMap_walk ha hb h perm_inlineAt
  | pathParameters => exact .nil
  | pathSegmentCase => exact perm_pathSegmentCase ha hb h
  | propertyCase => exact perm_flatMap_all ha hb h perm_misnamedProperties
  | requiredPropertyMissing =>
    exact perm_flatMap_all ha hb h fun path _ _ hxy hx hy =>
      .of_eq (undefinedRequired_eq path hxy hx hy)
  | stringBoundary =>
    rw [findingsOf, findingsOf, stringBoundary_eq, stringBoundary_eq]
    exact perm_flatMap_all ha hb h fun path _ _ hxy _ _ => .of_eq (unboundedAt_eq path hxy)
  | errorResponseSchema =>
    rw [findingsOf, findingsOf, errorResponseSchema_eq, errorResponseSchema_eq]
    exact perm_flatMap_walk ha hb h perm_errorAt
  | operationTags =>
    rw [findingsOf, findingsOf, operationTags_eq, operationTags_eq]
    exact perm_flatMap_walk ha hb h fun path _ _ hxy _ _ => .of_eq (untaggedAt_eq path hxy)
  | openapiTags => exact .of_eq (openapiTags_eq_of_outline h)
  | operationTagDefined =>
    rw [findingsOf, findingsOf, operationTagDefined_eq, operationTagDefined_eq,
      definedTags_eq_of_outline h]
    exact perm_flatMap_walk ha hb h fun path _ _ hxy _ _ =>
      .of_eq (undefinedTagsAt_eq path hxy _)
  | noScriptTags =>
    rw [findingsOf, findingsOf, noScriptTags_eq, noScriptTags_eq]
    exact perm_flatMap_walk ha hb h fun path _ _ hxy _ _ => .of_eq (scriptAt_eq path hxy)

/-- Every rule finds the same in documents with one outline, up to its order. -/
theorem perm_gradedFindings (rule : Rule) (block : RuleBlock) :
    (rule.gradedFindings block a).Perm (rule.gradedFindings block b) := by
  by_cases hid : rule.id = .pathParameters
  · rw [gradedFindings_pathParameters hid, gradedFindings_pathParameters hid]
    exact perm_pathParameters ha hb h _ _
  · rw [gradedFindings_of_ne hid, gradedFindings_of_ne hid]
    exact (perm_findingsOf ha hb h rule.id).map _

end Documents

end Rule

/-! ## The violations of a run -/

/-- Documents that differ in the order of the keys of their objects alone, at whatever depth, get
the same violations up to their order. -/
theorem Linter.perm_lint_of_reordered (linter : Linter) (file : Option String) {root other : Node}
    (hwf : root.WellFormed) (h : root.Reordered other) :
    (linter.lint ⟨root, file⟩).Perm (linter.lint ⟨other, file⟩) := by
  rw [lint_eq, lint_eq]
  refine .flatMap (.refl linter.rules) fun rule _ => ?_
  unfold Rule.report
  split
  · exact (Rule.perm_gradedFindings hwf (h.wellFormed hwf) (h.outline_eq hwf) rule _).map _
  · exact .nil

/-- A document with a path item, and a schema that requires what no branch defines. -/
def requiringDocument : Node :=
  .object [
    ("paths", .object [("/pets/\x7bid\x7d", .object [
      ("get", .object [("parameters", .array [.object [
        ("name", .string "id"), ("in", .string "path")]])]),
      ("put", .object [("parameters", .array [.object [
        ("in", .string "path"), ("name", .string "id")]])])])]),
    ("components", .object [("schemas", .object [("Pet", .object [
      ("required", .array [.string "name"]),
      ("allOf", .array [.object [("properties", .object [("petId", .object [])])]])])])])]

/-- The same document with its sections, the operations and the keywords of the schema turned
round. -/
def turnedDocument : Node :=
  .object [
    ("components", .object [("schemas", .object [("Pet", .object [
      ("allOf", .array [.object [("properties", .object [("petId", .object [])])]]),
      ("required", .array [.string "name"])])])]),
    ("paths", .object [("/pets/\x7bid\x7d", .object [
      ("put", .object [("parameters", .array [.object [
        ("in", .string "path"), ("name", .string "id")]])]),
      ("get", .object [("parameters", .array [.object [
        ("name", .string "id"), ("in", .string "path")]])])])])]

theorem reordered_turnedDocument : requiringDocument.Reordered turnedDocument := by
  refine .trans (.value [] "paths" _ (.value [] "/pets/\x7bid\x7d" [] (.fields (.swap _ _ _)))) ?_
  refine .trans (.fields (.swap _ _ _)) ?_
  exact .value [] "components" _ (.value [] "schemas" [] (.value [] "Pet" []
    (.fields (.swap _ _ _))))

/-- Seven violations are found in each of the documents, in different orders. -/
theorem perm_lint_turnedDocument :
    ((Linter.lint { rules := Preset.recommended.rules } ⟨requiringDocument, none⟩).length = 7 ∧
      (Linter.lint { rules := Preset.recommended.rules } ⟨requiringDocument, none⟩).map
          Violation.path ≠
        (Linter.lint { rules := Preset.recommended.rules } ⟨turnedDocument, none⟩).map
          Violation.path) ∧
    (Linter.lint { rules := Preset.recommended.rules } ⟨requiringDocument, none⟩).Perm
      (Linter.lint { rules := Preset.recommended.rules } ⟨turnedDocument, none⟩) := by
  refine ⟨by decide +kernel, ?_⟩
  refine Linter.perm_lint_of_reordered _ none ?_ reordered_turnedDocument
  simp [requiringDocument, Node.WellFormed, Node.WellFormedFields, Node.WellFormedItems]

end ApiLint
