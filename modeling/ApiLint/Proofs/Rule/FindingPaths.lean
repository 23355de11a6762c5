import ApiLint.Proofs.Rule.Reports
set_option autoImplicit false

/-!
# Findings stand in the document

The paths of findings are put together in three ways: from the visits of the walk, from
the places of schemas, and step by step from the map of paths.  Whatever a rule reports,
its path leads to a node of the document.
-/

namespace ApiLint

/-- The path of the finding leads to a node of the document. -/
def Finding.StandsIn (document : Node) (finding : Finding) : Prop :=
  ∃ node, finding.path.resolve document = some node

namespace Rule

variable {document : Node}

/-! ## Findings at places -/

/-- A finding at the path of a place. -/
theorem standsIn_at {place : Located} (h : place.StandsIn document) {finding : Finding}
    (hpath : finding.path = place.path) : finding.StandsIn document :=
  ⟨place.node, by rw [hpath]; exact h⟩

/-- The document stands at the empty path. -/
theorem standsIn_root (document : Node) : Located.StandsIn document ⟨[], document⟩ := rfl

/-- An entry of the map of paths stands under its template. -/
theorem standsIn_template (hwf : document.WellFormed) {template : String} {item : Node}
    (h : (template, item) ∈ (document.getFields? "paths").getD []) :
    Located.StandsIn document ⟨DocPath.keys [] ["paths", template], item⟩ :=
  (standsIn_root document).field hwf h

/-! ## Rules on tags -/

theorem standsIn_openapiTags : ∀ finding ∈ openapiTags document, finding.StandsIn document := by
  intro finding h
  unfold openapiTags at h
  split at h
  · simp at h
  · split at h
    · next hkey =>
      obtain ⟨tags, htags⟩ := Option.isSome_iff_exists.mp hkey
      obtain rfl := List.mem_singleton.mp h
      exact standsIn_at ((standsIn_root document).key htags) rfl
    · obtain rfl := List.mem_singleton.mp h
      exact standsIn_at (standsIn_root document) rfl

/-- The findings on tags stand at the positions of the tags. -/
theorem standsIn_undefinedTags {operation : Located} (h : operation.StandsIn document)
    (defined : List String) (position : Nat) (tags : List Node)
    (htags : (operation.node.getItems "tags").drop position = tags) :
    ∀ finding ∈ undefinedTags defined operation.path position tags,
      finding.StandsIn document := by
  induction tags generalizing position with
  | nil => simp [undefinedTags]
  | cons tag rest ih =>
    have hrest : (operation.node.getItems "tags").drop (position + 1) = rest := by
      rw [← List.tail_drop, htags, List.tail_cons]
    have htag : (operation.node.getItems "tags")[position]? = some tag := by
      rw [← List.head?_drop, htags, List.head?_cons]
    intro finding hfinding
    unfold undefinedTags at hfinding
    split at hfinding
    · next name =>
      split at hfinding
      · exact ih (position + 1) hrest finding hfinding
      · rcases List.mem_cons.mp hfinding with rfl | hothers
        · exact standsIn_at (h.element htag) rfl
        · exact ih (position + 1) hrest finding hothers
    · exact ih (position + 1) hrest finding hfinding

section WellFormed

variable (hwf : document.WellFormed)
include hwf

/-- A rule that reports visit by visit reports in the document, when it does so at every place of
the document. -/
theorem standsIn_flatMap_visits {report : Visit → List Finding}
    (h : ∀ place : Located, place.StandsIn document →
      ∀ finding ∈ report place.visit, finding.StandsIn document) :
    ∀ finding ∈ (walkDocument document).flatMap report, finding.StandsIn document := by
  intro finding hmem
  obtain ⟨v, hv, hfinding⟩ := List.mem_flatMap.mp hmem
  obtain ⟨place, hplace, rfl⟩ := (mem_walkDocument_iff hwf v).mp hv
  exact h place hplace finding hfinding

/-- The findings of a rule on chosen visits stand at these visits. -/
theorem standsIn_filter_visits (p : Visit → Bool) (report : Visit → Finding)
    (hreport : ∀ v, (report v).path = v.path) :
    ∀ finding ∈ ((walkDocument document).filter p).map report, finding.StandsIn document := by
  intro finding hmem
  obtain ⟨v, hv, rfl⟩ := List.mem_map.mp hmem
  obtain ⟨place, hplace, rfl⟩ := (mem_walkDocument_iff hwf v).mp (List.mem_of_mem_filter hv)
  exact standsIn_at hplace (hreport _)

theorem standsIn_operationTags : ∀ finding ∈ operationTags document, finding.StandsIn document :=
  standsIn_filter_visits hwf _ _ fun _ => rfl

theorem standsIn_noScriptTags : ∀ finding ∈ noScriptTags document, finding.StandsIn document :=
  standsIn_filter_visits hwf _ _ fun _ => rfl

theorem standsIn_operationTagDefined :
    ∀ finding ∈ operationTagDefined document, finding.StandsIn document := by
  unfold operationTagDefined
  apply standsIn_flatMap_visits hwf
  intro place hplace finding hfinding
  split at hfinding
  · exact standsIn_undefinedTags hplace _ 0 _ rfl finding hfinding
  · simp at hfinding

/-! ## Rules on response schemas -/

/-- The schemas of the responses in an object of the document stand in the document. -/
theorem standsIn_responseSchemas {responses : Located} (h : responses.StandsIn document) :
    ∀ r ∈ responseSchemas responses, r.schema.StandsIn document := by
  intro r hr
  obtain ⟨⟨status, response⟩, hresponse, hr⟩ := List.mem_flatMap.mp hr
  obtain ⟨⟨mediaType, content⟩, hcontent, hr⟩ := List.mem_flatMap.mp hr
  have hstatus := h.key ((h.wellFormed hwf).mem_fields_iff.mp hresponse)
  have hmedia := hstatus.field hwf hcontent
  dsimp only at hr
  split at hr
  · next schema hschema =>
    obtain rfl := List.mem_singleton.mp hr
    simpa [DocPath.keys_cons] using hmedia.key hschema
  · simp at hr

/-- The findings on chosen response schemas of an object stand at these schemas. -/
theorem standsIn_filter_responseSchemas {responses : Located} (h : responses.StandsIn document)
    (p : ResponseSchema → Bool) (report : ResponseSchema → Finding)
    (hreport : ∀ r, (report r).path = r.schema.path) :
    ∀ finding ∈ ((responseSchemas responses).filter p).map report,
      finding.StandsIn document := by
  intro finding hmem
  obtain ⟨r, hr, rfl⟩ := List.mem_map.mp hmem
  have hschema := standsIn_responseSchemas hwf h r (List.mem_of_mem_filter hr)
  exact standsIn_at hschema (hreport r)

theorem standsIn_inlineResponseSchema :
    ∀ finding ∈ inlineResponseSchema document, finding.StandsIn document := by
  unfold inlineResponseSchema
  apply standsIn_flatMap_visits hwf
  intro place hplace finding hfinding
  split at hfinding
  · exact standsIn_filter_responseSchemas hwf hplace _ _ (fun _ => rfl) finding hfinding
  · simp at hfinding

theorem standsIn_errorResponseSchema :
    ∀ finding ∈ errorResponseSchema document, finding.StandsIn document := by
  unfold errorResponseSchema
  apply standsIn_flatMap_visits hwf
  intro place hplace finding hfinding
  split at hfinding
  · exact standsIn_filter_responseSchemas hwf hplace _ _ (fun _ => rfl) finding hfinding
  · simp at hfinding

/-! ## Rules on schemas -/

theorem standsIn_propertyCase : ∀ finding ∈ propertyCase document, finding.StandsIn document := by
  intro finding h
  obtain ⟨schema, hschema, hfinding⟩ := List.mem_flatMap.mp h
  obtain ⟨name, hname, rfl⟩ := List.mem_map.mp hfinding
  obtain ⟨⟨key, value⟩, hfield, rfl⟩ := List.mem_map.mp (List.mem_of_mem_filter hname)
  exact standsIn_at ((Schema.standsIn_of_mem_all hwf hschema).field hwf hfield) rfl

theorem standsIn_requiredPropertyMissing :
    ∀ finding ∈ requiredPropertyMissing document, finding.StandsIn document := by
  intro finding h
  obtain ⟨schema, hschema, hfinding⟩ := List.mem_flatMap.mp h
  unfold undefinedRequired at hfinding
  split at hfinding
  · simp at hfinding
  · obtain ⟨name, _, rfl⟩ := List.mem_map.mp hfinding
    exact standsIn_at (Schema.standsIn_of_mem_all hwf hschema) rfl

theorem standsIn_stringBoundary :
    ∀ finding ∈ stringBoundary document, finding.StandsIn document := by
  intro finding h
  obtain ⟨schema, hschema, rfl⟩ := List.mem_map.mp h
  exact standsIn_at (Schema.standsIn_of_mem_all hwf (List.mem_of_mem_filter hschema)) rfl

/-! ## Rules on the map of paths -/

theorem standsIn_pathSegmentCase :
    ∀ finding ∈ pathSegmentCase document, finding.StandsIn document := by
  intro finding h
  obtain ⟨entry, hentry, _, segment, _, _, rfl⟩ := mem_pathSegmentCase_iff.mp h
  exact standsIn_at (standsIn_template hwf hentry) rfl

/-- An operation of a path item stands under its method. -/
theorem standsIn_operation {item : Located} (h : item.StandsIn document) {method : String}
    {operation : Node} (hmem : (method, operation) ∈ operations item.node) :
    Located.StandsIn document ⟨item.path.child (.key method), operation⟩ :=
  h.key ((h.wellFormed hwf).mem_fields_iff.mp (List.mem_of_mem_filter hmem))

/-- Missing parameters are reported at the path item or at one of its operations. -/
theorem standsIn_missingParameters {item : Located} (h : item.StandsIn document)
    (names : List String) :
    ∀ finding ∈ missingParameters item.path item.node names, finding.StandsIn document := by
  intro finding hfinding
  obtain ⟨name, _, rfl | ⟨entry, hmem, rfl⟩⟩ := exists_of_mem_missingParameters hfinding
  · exact standsIn_at h rfl
  · exact standsIn_at (standsIn_operation hwf h hmem) rfl

/-- Repeated parameters are reported at their positions in the operations. -/
theorem standsIn_duplicateParameters {item : Located} (h : item.StandsIn document)
    (names : List String) :
    ∀ finding ∈ duplicateParameters item.path item.node names, finding.StandsIn document := by
  intro finding hfinding
  obtain ⟨name, entry, hmem, position, hposition, rfl⟩ :=
    exists_of_mem_duplicateParameters hfinding
  have hoperation := standsIn_operation hwf h hmem
  obtain ⟨hlt, _, _⟩ := List.findIdx?_eq_some_iff_getElem.mp hposition
  have helement := hoperation.element (List.getElem?_eq_getElem hlt)
  exact standsIn_at helement (by simp [duplicateFinding, DocPath.keys_cons])

theorem standsIn_pathParameters (missing duplicate : Option Severity) :
    ∀ entry ∈ pathParameters missing duplicate document, entry.2.StandsIn document := by
  intro entry h
  obtain ⟨⟨template, item⟩, hentry, hfinding⟩ := List.mem_flatMap.mp h
  have hitem := standsIn_template hwf hentry
  obtain ⟨_, ⟨_, hmissing⟩ | ⟨_, hduplicate⟩⟩ := exists_of_mem_pathParametersAt hfinding
  · exact standsIn_missingParameters hwf hitem _ entry.2 hmissing
  · exact standsIn_duplicateParameters hwf hitem _ entry.2 hduplicate

/-! ## All rules -/

theorem standsIn_gradedFindings (rule : Rule) (block : RuleBlock) :
    ∀ entry ∈ rule.gradedFindings block document, entry.2.StandsIn document := by
  intro entry h
  unfold gradedFindings at h
  cases hid : rule.id <;> simp only [hid] at h
  case inlineResponseSchema =>
    exact standsIn_inlineResponseSchema hwf _ (exists_of_mem_graded h).2
  case pathParameters => exact standsIn_pathParameters hwf _ _ _ h
  case pathSegmentCase => exact standsIn_pathSegmentCase hwf _ (exists_of_mem_graded h).2
  case propertyCase => exact standsIn_propertyCase hwf _ (exists_of_mem_graded h).2
  case requiredPropertyMissing =>
    exact standsIn_requiredPropertyMissing hwf _ (exists_of_mem_graded h).2
  case stringBoundary => exact standsIn_stringBoundary hwf _ (exists_of_mem_graded h).2
  case errorResponseSchema => exact standsIn_errorResponseSchema hwf _ (exists_of_mem_graded h).2
  case operationTags => exact standsIn_operationTags hwf _ (exists_of_mem_graded h).2
  case openapiTags => exact standsIn_openapiTags _ (exists_of_mem_graded h).2
  case operationTagDefined => exact standsIn_operationTagDefined hwf _ (exists_of_mem_graded h).2
  case noScriptTags => exact standsIn_noScriptTags hwf _ (exists_of_mem_graded h).2

/-- The path of every violation that a rule finds leads to a node of the document. -/
theorem exists_resolve_of_mem_check {rule : Rule} {block : RuleBlock} {v : Violation}
    (h : v ∈ rule.check block document) : ∃ node, v.path.resolve document = some node := by
  obtain ⟨⟨severity, finding⟩, hentry, rfl⟩ := List.mem_map.mp h
  exact standsIn_gradedFindings hwf rule block _ hentry

end WellFormed

/-- A document with an operation whose tag it does not list. -/
def undefinedTagDocument : Node :=
  .object [("paths", .object [("/pets", .object [("get", .object [
    ("tags", .array [.string "pets"])])])])]

/-- The tag is reported, and the path of the report leads to it. -/
theorem exists_resolve_undefinedTag :
    ∃ v ∈ (standard .operationTagDefined).check {} undefinedTagDocument,
      v.path = [.key "paths", .key "/pets", .key "get", .key "tags", .index 0] ∧
        ∃ node, v.path.resolve undefinedTagDocument = some node := by
  have hwf : undefinedTagDocument.WellFormed := by
    simp [undefinedTagDocument, Node.WellFormed, Node.WellFormedFields, Node.WellFormedItems]
  have hcheck : (standard .operationTagDefined).check {} undefinedTagDocument =
      [(undefinedTagFinding [.key "paths", .key "/pets", .key "get"] 0 "pets").toViolation
        .operationTagDefined .info] := by
    decide +kernel
  have hmem := List.mem_singleton_self
    ((undefinedTagFinding [.key "paths", .key "/pets", .key "get"] 0 "pets").toViolation
      .operationTagDefined .info)
  rw [← hcheck] at hmem
  exact ⟨_, hmem, rfl, exists_resolve_of_mem_check hwf hmem⟩

end Rule

end ApiLint
