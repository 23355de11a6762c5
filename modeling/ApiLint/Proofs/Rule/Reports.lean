import ApiLint.Proofs.Lists
import ApiLint.Proofs.Rule.ParameterFindings
import ApiLint.Proofs.Schema.Subschemas
import ApiLint.Rule.Check
set_option autoImplicit false

/-!
# What rules report at a place

All rules but those on the map of paths and on the tags of the document go through the
visits of the walk or through the schemas of the document, and report at each of them on
its own.  Here the rules are said in this form, and every report stands at the place that
it is made for or below it.
-/

namespace ApiLint.Rule

/-! ## Reports at visits -/

/-- The inline schemas of the responses that are visited. -/
def inlineAt (visit : Visit) : List Finding :=
  if visit.kind.isResponses && !Schema.isRef visit.node then
    ((responseSchemas ⟨visit.path, visit.node⟩).filter ResponseSchema.isInline).map inlineFinding
  else []

/-- The error responses without `errors` of the operation's responses that are visited. -/
def errorAt (visit : Visit) : List Finding :=
  if visit.kind = .operationResponses then
    ((responseSchemas ⟨visit.path, visit.node⟩).filter ResponseSchema.lacksErrors).map errorFinding
  else []

/-- An operation without tags that is visited. -/
def untaggedAt (visit : Visit) : List Finding :=
  if isUntaggedOperation visit then [untaggedFinding visit] else []

/-- The tags of the operation that is visited, when they are not among the defined ones. -/
def undefinedTagsAt (defined : List String) (visit : Visit) : List Finding :=
  if visit.kind.isOperation then
    undefinedTags defined visit.path 0 (visit.node.getItems "tags")
  else []

/-- A description with a script tag that is visited. -/
def scriptAt (visit : Visit) : List Finding :=
  if isScriptedDescription visit then [scriptFinding visit] else []

/-- An unbounded string. -/
def unboundedAt (schema : Located) : List Finding :=
  if isUnbounded schema.node then [unboundedFinding schema] else []

/-- What is reported on the schemas inside the roots found at a visit. -/
def insideRoots (report : Located → List Finding) (visit : Visit) : List Finding :=
  ((Schema.rootsAt visit).flatMap Schema.subschemas).flatMap report

theorem inlineResponseSchema_eq (document : Node) :
    inlineResponseSchema document = (walkDocument document).flatMap inlineAt := rfl

theorem errorResponseSchema_eq (document : Node) :
    errorResponseSchema document = (walkDocument document).flatMap errorAt := rfl

theorem operationTags_eq (document : Node) :
    operationTags document = (walkDocument document).flatMap untaggedAt :=
  map_filter_eq_flatMap _ _ _

theorem operationTagDefined_eq (document : Node) :
    operationTagDefined document =
      (walkDocument document).flatMap (undefinedTagsAt (definedTags document)) := rfl

theorem noScriptTags_eq (document : Node) :
    noScriptTags document = (walkDocument document).flatMap scriptAt :=
  map_filter_eq_flatMap _ _ _

theorem stringBoundary_eq (document : Node) :
    stringBoundary document = (Schema.all document).flatMap unboundedAt :=
  map_filter_eq_flatMap _ _ _

/-- The schemas of a document are met at the visits where their roots are found. -/
theorem flatMap_all (report : Located → List Finding) (document : Node) :
    (Schema.all document).flatMap report =
      (walkDocument document).flatMap (insideRoots report) := by
  rw [Schema.all, Schema.roots, List.flatMap_assoc, List.flatMap_assoc]
  refine List.flatMap_congr fun visit _ => ?_
  rw [insideRoots, List.flatMap_assoc]

/-! ## Reports on the map of paths -/

/-- A path is reported for each misnamed piece between its slashes; extensions are no paths. -/
theorem mem_pathSegmentCase_iff {document : Node} {finding : Finding} :
    finding ∈ pathSegmentCase document ↔
      ∃ entry ∈ (document.getFields? "paths").getD [], isExtensionKey entry.1 = false ∧
        ∃ segment ∈ Text.split '/' entry.1, isMisnamedSegment segment = true ∧
          segmentFinding entry.1 segment = finding := by
  simp only [pathSegmentCase, List.mem_flatMap, List.mem_filter, List.mem_map, Bool.not_eq_true',
    and_assoc]

/-! ## Reports on the tags of the document -/

section Tags

variable {document other : Node} (h : document.get? "tags" = other.get? "tags")
include h

theorem openapiTags_congr : openapiTags document = openapiTags other := by
  unfold openapiTags hasTags Node.getItems Node.hasKey
  rw [h]

theorem definedTags_congr : definedTags document = definedTags other := by
  unfold definedTags Node.getItems
  rw [h]

end Tags

/-! ## Reports of rules -/

/-- The findings of a rule that reports all of them at one severity; the rule on path parameters
is none of these. -/
def findingsOf (id : RuleId) (document : Node) : List Finding :=
  match id with
  | .inlineResponseSchema => inlineResponseSchema document
  | .pathParameters => []
  | .pathSegmentCase => pathSegmentCase document
  | .propertyCase => propertyCase document
  | .requiredPropertyMissing => requiredPropertyMissing document
  | .stringBoundary => stringBoundary document
  | .errorResponseSchema => errorResponseSchema document
  | .operationTags => operationTags document
  | .openapiTags => openapiTags document
  | .operationTagDefined => operationTagDefined document
  | .noScriptTags => noScriptTags document

theorem gradedFindings_of_ne {rule : Rule} (hid : rule.id ≠ .pathParameters) (block : RuleBlock)
    (document : Node) :
    rule.gradedFindings block document =
      (findingsOf rule.id document).map (rule.severity, ·) := by
  unfold gradedFindings findingsOf
  cases hrule : rule.id <;> first | exact absurd hrule hid | rfl

theorem gradedFindings_pathParameters {rule : Rule} (hid : rule.id = .pathParameters)
    (block : RuleBlock) (document : Node) :
    rule.gradedFindings block document =
      pathParameters (block.checkLevel missingOption rule.missing).severity?
        (block.checkLevel duplicateOption rule.duplicate).severity? document := by
  rw [gradedFindings, hid]

theorem check_of_ne {rule : Rule} (hid : rule.id ≠ .pathParameters) (block : RuleBlock)
    (document : Node) :
    rule.check block document =
      (findingsOf rule.id document).map (·.toViolation rule.id rule.severity) := by
  rw [check, gradedFindings_of_ne hid, List.map_map]
  rfl

/-! ## Reports at the path of a schema -/

/-- Where schemas are reported on at their own paths and no path is twice, the reports at the path
of a schema are those on that schema. -/
theorem filter_flatMap_of_mem {schemas : List Located} (hnodup : (schemas.map Located.path).Nodup)
    {report : Located → List Finding}
    (hreport : ∀ schema, ∀ finding ∈ report schema, finding.path = schema.path)
    {schema : Located} (h : schema ∈ schemas) :
    (schemas.flatMap report).filter (·.path = schema.path) = report schema := by
  have hself : ∀ other : Located, other.path = schema.path →
      (report other).filter (·.path = schema.path) = report other := fun other hother =>
    List.filter_eq_self.mpr fun finding hfinding =>
      decide_eq_true ((hreport other finding hfinding).trans hother)
  have hnone : ∀ other : Located, other.path ≠ schema.path →
      (report other).filter (·.path = schema.path) = [] := fun other hother =>
    List.filter_eq_nil_iff.mpr fun finding hfinding heq =>
      hother ((hreport other finding hfinding).symm.trans (of_decide_eq_true heq))
  induction schemas with
  | nil => exact absurd h List.not_mem_nil
  | cons first rest ih =>
    obtain ⟨hfirst, hrest⟩ := List.nodup_cons.mp hnodup
    rw [List.flatMap_cons, List.filter_append]
    rcases List.mem_cons.mp h with rfl | hmem
    · have hothers : (rest.flatMap report).filter (·.path = schema.path) = [] := by
        rw [List.filter_flatMap, List.flatMap_eq_nil_iff]
        exact fun other hother => hnone other fun heq => hfirst (heq ▸ List.mem_map_of_mem hother)
      rw [hself schema rfl, hothers, List.append_nil]
    · rw [hnone first fun heq => hfirst (heq ▸ List.mem_map_of_mem hmem), ih hrest hmem,
        List.nil_append]

theorem path_of_mem_undefinedRequired (schema : Located) :
    ∀ finding ∈ undefinedRequired schema, finding.path = schema.path := by
  unfold undefinedRequired
  split
  · exact fun _ h => absurd h List.not_mem_nil
  · exact List.forall_mem_map.mpr fun _ _ => rfl

/-! ## Reports stand below their places -/

/-- All findings stand at a path or below it. -/
def StandBelow (path : DocPath) (findings : List Finding) : Prop :=
  ∀ finding ∈ findings, path <+: finding.path

namespace StandBelow

variable {path : DocPath} {findings : List Finding}

theorem nil : StandBelow path [] := fun _ h => absurd h List.not_mem_nil

theorem singleton {finding : Finding} (h : path <+: finding.path) :
    StandBelow path [finding] := by
  intro other hother
  obtain rfl := List.mem_singleton.mp hother
  exact h

theorem ite {c : Prop} [Decidable c] (h : StandBelow path findings) :
    StandBelow path (if c then findings else []) := by
  split
  · exact h
  · exact nil

theorem map {α : Type} {xs : List α} {f : α → Finding} (h : ∀ x ∈ xs, path <+: (f x).path) :
    StandBelow path (xs.map f) := List.forall_mem_map.mpr h

theorem flatMap {α : Type} {xs : List α} {f : α → List Finding}
    (h : ∀ x ∈ xs, StandBelow path (f x)) : StandBelow path (xs.flatMap f) :=
  List.forall_mem_flatMap.mpr h

theorem above {other : DocPath} (h : StandBelow path findings) (hother : other <+: path) :
    StandBelow other findings :=
  fun finding hfinding => hother.trans (h finding hfinding)

end StandBelow

theorem prefix_of_mem_responseSchemas {responses : Located} {r : ResponseSchema}
    (h : r ∈ responseSchemas responses) : responses.path <+: r.schema.path := by
  obtain ⟨⟨status, response⟩, _, h⟩ := List.mem_flatMap.mp h
  obtain ⟨⟨mediaType, content⟩, _, h⟩ := List.mem_flatMap.mp h
  dsimp only at h
  split at h
  · obtain rfl := List.mem_singleton.mp h
    exact DocPath.prefix_keys _ _
  · exact absurd h List.not_mem_nil

theorem standBelow_inlineAt (v : Visit) : StandBelow v.path (inlineAt v) :=
  .ite (.map fun _ hr => prefix_of_mem_responseSchemas (List.mem_of_mem_filter hr))

theorem standBelow_errorAt (v : Visit) : StandBelow v.path (errorAt v) :=
  .ite (.map fun _ hr => prefix_of_mem_responseSchemas (List.mem_of_mem_filter hr))

theorem standBelow_untaggedAt (v : Visit) : StandBelow v.path (untaggedAt v) :=
  .ite (.singleton (List.prefix_refl _))

theorem standBelow_scriptAt (v : Visit) : StandBelow v.path (scriptAt v) :=
  .ite (.singleton (List.prefix_refl _))

theorem standBelow_undefinedTags (defined : List String) (operation : DocPath) (position : Nat)
    (tags : List Node) : StandBelow operation (undefinedTags defined operation position tags) := by
  induction tags generalizing position with
  | nil => exact .nil
  | cons tag rest ih =>
    unfold undefinedTags
    split
    · split
      · exact ih (position + 1)
      · refine List.forall_mem_cons.mpr ⟨?_, ih (position + 1)⟩
        exact (DocPath.prefix_child _ _).trans (DocPath.prefix_child _ _)
    · exact ih (position + 1)

theorem standBelow_undefinedTagsAt (defined : List String) (v : Visit) :
    StandBelow v.path (undefinedTagsAt defined v) :=
  .ite (standBelow_undefinedTags defined v.path 0 _)

theorem standBelow_misnamedProperties (schema : Located) :
    StandBelow schema.path (misnamedProperties schema) :=
  .map fun _ _ => DocPath.prefix_keys _ _

theorem standBelow_undefinedRequired (schema : Located) :
    StandBelow schema.path (undefinedRequired schema) := by
  unfold undefinedRequired
  split
  · exact .nil
  · exact .map fun _ _ => List.prefix_refl _

theorem standBelow_unboundedAt (schema : Located) : StandBelow schema.path (unboundedAt schema) :=
  .ite (.singleton (List.prefix_refl _))

/-- What is reported on the schemas inside the roots of a visit stands below the visit. -/
theorem standBelow_insideRoots {document : Node} (hwf : document.WellFormed)
    {report : Located → List Finding} (hreport : ∀ schema, StandBelow schema.path (report schema))
    {place : Located} (hplace : place.StandsIn document) :
    StandBelow place.path (insideRoots report place.visit) := by
  refine .flatMap fun schema hschema => (hreport schema).above ?_
  obtain ⟨root, hroot, hschema⟩ := List.mem_flatMap.mp hschema
  have hcollects := Schema.collects_rootsAt hwf
  obtain ⟨hstands, hfound⟩ := (hcollects.mem_iff place hplace root).mp hroot
  have hnested := ((Schema.mem_subschemas_iff hwf hstands schema).mp hschema).2
  exact (hcollects.below _ _ hfound).trans hnested.prefix_path

/-! ## Reports on path parameters -/

theorem standBelow_missingParameters (path : DocPath) (item : Node) (names : List String) :
    StandBelow path (missingParameters path item names) := by
  intro finding h
  obtain ⟨name, _, rfl | ⟨entry, _, rfl⟩⟩ := exists_of_mem_missingParameters h
  · exact List.prefix_refl _
  · exact DocPath.prefix_child _ _

theorem standBelow_duplicateParameters (path : DocPath) (item : Node) (names : List String) :
    StandBelow path (duplicateParameters path item names) := by
  intro finding h
  obtain ⟨name, entry, _, position, _, rfl⟩ := exists_of_mem_duplicateParameters h
  exact (DocPath.prefix_keys _ _).trans (DocPath.prefix_child _ _)

theorem prefix_of_mem_pathParametersAt {missing duplicate : Option Severity} {template : String}
    {item : Node} {entry : Severity × Finding}
    (h : entry ∈ pathParametersAt missing duplicate template item) :
    DocPath.keys [] ["paths", template] <+: entry.2.path := by
  obtain ⟨_, ⟨_, hmissing⟩ | ⟨_, hduplicate⟩⟩ := exists_of_mem_pathParametersAt h
  · exact standBelow_missingParameters _ _ _ _ hmissing
  · exact standBelow_duplicateParameters _ _ _ _ hduplicate

end ApiLint.Rule
