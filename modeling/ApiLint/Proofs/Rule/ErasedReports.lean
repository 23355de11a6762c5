import ApiLint.Proofs.Rule.Reports
import ApiLint.Proofs.Schema.ErasedMerging
import ApiLint.Proofs.Schema.ErasedPlaces
set_option autoImplicit false

/-!
# Reports and payload

The rules on schemas report the same on documents that differ in payload alone, whatever
stands there: examples and encodings beside the schemas of media types, and examples,
defaults and extensions among the keywords of schemas.
-/

namespace ApiLint.Rule

open Schema (MarksUnread Role IsPayload)

/-! ## Reports on one schema -/

section Schemas

variable {marked : Marks} (hmarks : MarksUnread marked) {schema : Located}
variable (hrole : Role.of schema.path = .schema)
include hmarks hrole

theorem misnamedProperties_erase :
    misnamedProperties (schema.erase marked) = misnamedProperties schema := by
  have hkeys : Fields.keys (((schema.node.erase marked schema.path).getFields?
      "properties").getD []) = Fields.keys ((schema.node.getFields? "properties").getD []) := by
    rw [Node.getD_getFields?, Node.getD_getFields?,
      Schema.get?_erase_schema hmarks hrole schema.node (by decide)]
    cases schema.node.get? "properties" with
    | none => rfl
    | some value =>
      have hunmarked : ∀ key, marked (schema.path.child (.key "properties")) key = false := by
        intro key
        refine hmarks.unmarked ?_
        rw [Role.of_child, hrole]
        rfl
      have hfields := Node.fields_erase_of_unmarked marked _ value hunmarked
      simp only [Option.map_some, Option.getD_some, hfields, Fields.keys, List.map_map]
      rfl
  unfold misnamedProperties Located.erase
  dsimp only
  rw [hkeys]
  rfl

theorem undefinedRequired_erase (hwf : schema.node.WellFormed) :
    undefinedRequired (schema.erase marked) = undefinedRequired schema := by
  have hagree := Schema.agree_mergeAllOf_erase hmarks hrole hwf
  have hnames : requiredNames (Schema.mergeAllOf (schema.node.erase marked schema.path)) =
      requiredNames (Schema.mergeAllOf schema.node) := hagree.required
  unfold undefinedRequired Located.erase
  simp only [hnames, hagree.composesProperty]

theorem unboundedAt_erase : unboundedAt (schema.erase marked) = unboundedAt schema := by
  have hunmarked : ∀ keyword ∈ Schema.readKeywords, marked schema.path keyword = false := by
    intro keyword hkeyword
    refine hmarks.unmarked ?_
    rw [hrole]
    exact List.contains_iff_mem.mpr hkeyword
  have hneedsBound : needsBound (schema.node.erase marked schema.path) =
      needsBound schema.node := by
    unfold needsBound hasBoundedFormat Schema.hasType
    rw [Node.getString?_erase marked schema.path schema.node (hunmarked "type" (by decide)),
      Node.getString?_erase marked schema.path schema.node (hunmarked "format" (by decide)),
      Node.hasKey_erase marked schema.path schema.node (hunmarked "enum" (by decide))]
  have hmaxLength : ∀ (path : DocPath) (node : Node), Role.of path = .schema →
      (node.erase marked path).hasKey "maxLength" = node.hasKey "maxLength" := by
    intro path node hpath
    refine Node.hasKey_erase marked path node (hmarks.unmarked ?_)
    rw [hpath]
    rfl
  have hbound : Schema.satisfies (·.hasKey "maxLength")
      (schema.node.erase marked schema.path) =
        Schema.satisfies (·.hasKey "maxLength") schema.node :=
    Schema.satisfies_erase hmarks hmaxLength hrole schema.node
  unfold unboundedAt isUnbounded Located.erase
  dsimp only
  rw [hneedsBound, hbound]
  rfl

end Schemas

/-! ## Reports on documents -/

section Documents

variable {marked : Marks} (hmarks : MarksUnread marked) {document : Node}
variable (hwf : document.WellFormed)
include hmarks hwf

/-- What is reported schema by schema does not depend on marked fields, when the report on no
schema does. -/
theorem flatMap_all_erase {report : Located → List Finding}
    (hreport : ∀ schema : Located, schema.node.WellFormed → Role.of schema.path = .schema →
      report (schema.erase marked) = report schema) :
    (Schema.all (document.erase marked [])).flatMap report =
      (Schema.all document).flatMap report := by
  rw [Schema.all_erase hmarks hwf, List.flatMap_map]
  refine List.flatMap_congr fun schema hschema => ?_
  exact hreport schema ((Schema.standsIn_of_mem_all hwf hschema).wellFormed hwf)
    (Schema.role_of_mem_all hwf hschema)

/-- Keys that are not read do not change what the rules on schemas find. -/
theorem findingsOf_erase {id : RuleId}
    (hid : id = .propertyCase ∨ id = .requiredPropertyMissing ∨ id = .stringBoundary) :
    findingsOf id (document.erase marked []) = findingsOf id document := by
  rcases hid with rfl | rfl | rfl
  · exact flatMap_all_erase hmarks hwf fun _ _ hrole => misnamedProperties_erase hmarks hrole
  · exact flatMap_all_erase hmarks hwf fun _ hschema hrole =>
      undefinedRequired_erase hmarks hrole hschema
  · show stringBoundary _ = stringBoundary _
    rw [stringBoundary_eq, stringBoundary_eq]
    exact flatMap_all_erase hmarks hwf fun _ _ hrole => unboundedAt_erase hmarks hrole

end Documents

/-- Documents that are the same but for marked keys, all of them payload of the first, have the
same violations of the rules on schemas. -/
theorem check_eq_of_erase_eq {document edited : Node} (hwf : document.WellFormed)
    (hedited : edited.WellFormed) {marked : Marks}
    (hmarked : ∀ path key, marked path key = true → IsPayload document path key)
    (hsame : document.erase marked [] = edited.erase marked []) {rule : Rule}
    (hid : rule.id = .propertyCase ∨ rule.id = .requiredPropertyMissing ∨
      rule.id = .stringBoundary) (block : RuleBlock) :
    rule.check block document = rule.check block edited := by
  have hmarks : MarksUnread marked := fun path key h => (hmarked path key h).not_reads hwf
  have hne : rule.id ≠ .pathParameters := by
    rcases hid with h | h | h <;> simp [h]
  have hfindings : findingsOf rule.id document = findingsOf rule.id edited := by
    rw [← findingsOf_erase hmarks hwf hid, hsame, findingsOf_erase hmarks hedited hid]
  rw [check, check, gradedFindings_of_ne hne, gradedFindings_of_ne hne, hfindings]

/-- A document with one response, whose media type object has the given fields before its schema,
and whose schema has the given keywords before its own. -/
def payloadDocument (fields keywords : Fields) : Node :=
  .object [("paths", .object [("/pets", .object [("get", .object [("responses", .object [
    ("200", .object [("content", .object [("application/json", .object (fields ++ [
      ("schema", .object (keywords ++ [("required", .array [.string "id"]),
        ("properties", .object [("petName", .object [("type", .string "string")])])]))]))])])])])])])]

/-- The media type object of the response. -/
def payloadPath : DocPath :=
  DocPath.keys [] ["paths", "/pets", "get", "responses", "200", "content", "application/json"]

/-- The examples of the media type object and the default of its schema. -/
def payloadMarks : Marks := fun path key =>
  path = payloadPath && key = "examples" || path = payloadPath.keys ["schema"] && key = "default"

theorem isPayload_of_payloadMarks {path : DocPath} {key : String}
    (h : payloadMarks path key = true) : IsPayload (payloadDocument [] []) path key := by
  simp only [payloadMarks, Bool.or_eq_true, Bool.and_eq_true, decide_eq_true_eq] at h
  rcases h with ⟨rfl, rfl⟩ | ⟨rfl, rfl⟩
  · have hresponse :
        Schema.ResponsePlace (DocPath.keys [] ["paths", "/pets", "get", "responses", "200"]) :=
      @Schema.ResponsePlace.operation [.key "paths", .key "/pets"] "get" "200" rfl rfl
    refine .inl ⟨⟨_, "application/json", .inr (.inl hresponse), ?_, rfl⟩, by decide⟩
    rintro ⟨response, hresolve, href⟩
    obtain rfl := Option.some.inj hresolve
    exact absurd href (by decide)
  · have hpaths : (Schema.all (payloadDocument [] [])).map Located.path =
        [payloadPath.keys ["schema"], payloadPath.keys ["schema", "properties", "petName"]] := by
      decide
    exact .inr ⟨List.mem_map.mp (hpaths ▸ List.mem_cons_self), by decide⟩

/-- Examples that look like the content of a response. -/
def imitatingExamples : Fields :=
  [("examples", .object [("content", .object [("application/json", .object [
    ("schema", .object [("type", .string "string")])])])])]

/-- A default that looks like a schema. -/
def imitatingDefault : Fields :=
  [("default", .object [("required", .array [.string "name"]),
    ("properties", .object [("Id", .object [("type", .string "string")])])])]

/-- The misnamed property, the undefined required name and the unbounded string are found with the
imitating payload as they are found without. -/
theorem check_payloadDocument :
    (∀ id ∈ [RuleId.propertyCase, .requiredPropertyMissing, .stringBoundary],
      ((standard id).check {} (payloadDocument [] [])).length = 1) ∧
    (∀ id ∈ [RuleId.propertyCase, .requiredPropertyMissing, .stringBoundary],
      (standard id).check {} (payloadDocument [] []) =
        (standard id).check {} (payloadDocument imitatingExamples imitatingDefault)) := by
  have hwf : (payloadDocument [] []).WellFormed := by
    simp [payloadDocument, Node.WellFormed, Node.WellFormedFields, Node.WellFormedItems]
  have hedited : (payloadDocument imitatingExamples imitatingDefault).WellFormed := by
    simp [payloadDocument, imitatingExamples, imitatingDefault, Node.WellFormed,
      Node.WellFormedFields, Node.WellFormedItems]
  have hsame : (payloadDocument [] []).erase payloadMarks [] =
      (payloadDocument imitatingExamples imitatingDefault).erase payloadMarks [] := by
    simp [payloadDocument, imitatingExamples, imitatingDefault, payloadMarks, payloadPath,
      DocPath.keys, DocPath.child, Node.erase, Node.eraseFields, Node.eraseItems]
  refine ⟨by decide +kernel, fun id hid => ?_⟩
  exact check_eq_of_erase_eq hwf hedited (fun _ _ => isPayload_of_payloadMarks) hsame
    (by simpa [standard] using hid) {}

end ApiLint.Rule
