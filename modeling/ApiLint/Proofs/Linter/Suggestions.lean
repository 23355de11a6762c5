import ApiLint.Proofs.Linter.Violations
import ApiLint.Proofs.Rule.SuggestedParameters
import ApiLint.Proofs.Rule.SuggestedTags
import ApiLint.Rule.Preset
set_option autoImplicit false

/-!
# A run on a document that was mended as suggested

When all path parameters are declared that a run suggests to declare, or all tags defined
that it suggests to define, the next run suggests none of them any more, and it reports
nothing that the first one did not report.
-/

namespace ApiLint

namespace Rule

/-! ## Findings of a rule -/

/-- When there are no more reports visit by visit, no rule with one severity finds more; what the
rules find that also read the keys of the map of paths or the tags of the document is given. -/
theorem sublist_findingsOf {document other : Node}
    (hwalk : ∀ {report : Visit → List Finding}, Unprovoked report →
      ((walkDocument document).flatMap report).Sublist ((walkDocument other).flatMap report))
    (hsegments : pathSegmentCase document = pathSegmentCase other)
    (hglobal : (openapiTags document).Sublist (openapiTags other))
    (hdefined : (operationTagDefined document).Sublist (operationTagDefined other))
    (id : RuleId) : (findingsOf id document).Sublist (findingsOf id other) := by
  have hall : ∀ report : Located → List Finding,
      ((Schema.all document).flatMap report).Sublist ((Schema.all other).flatMap report) := by
    intro report
    rw [flatMap_all, flatMap_all]
    exact hwalk (unprovoked_insideRoots report)
  cases id with
  | inlineResponseSchema => exact hwalk unprovoked_inlineAt
  | pathParameters => exact .slnil
  | pathSegmentCase =>
    rw [findingsOf, findingsOf, hsegments]
  | propertyCase => exact hall misnamedProperties
  | requiredPropertyMissing => exact hall undefinedRequired
  | stringBoundary =>
    rw [findingsOf, findingsOf, stringBoundary_eq, stringBoundary_eq]
    exact hall unboundedAt
  | errorResponseSchema => exact hwalk unprovoked_errorAt
  | operationTags =>
    rw [findingsOf, findingsOf, operationTags_eq, operationTags_eq]
    exact hwalk unprovoked_untaggedAt
  | openapiTags => exact hglobal
  | operationTagDefined => exact hdefined
  | noScriptTags =>
    rw [findingsOf, findingsOf, noScriptTags_eq, noScriptTags_eq]
    exact hwalk unprovoked_scriptAt

/-! ## Declared path parameters -/

section Parameters

variable (names : String → List String) (document : Node)

theorem pathSegmentCase_declareParameters :
    pathSegmentCase (declareParameters names document) = pathSegmentCase document := by
  rw [pathSegmentCase, pathSegmentCase, declareParameters, Node.getFields?_mapEntries]
  cases document.getFields? "paths" with
  | none => rfl
  | some entries =>
    rw [Option.map_some, Option.getD_some, Option.getD_some, List.filter_map, List.flatMap_map]
    rfl

theorem get?_tags_declareParameters :
    (declareParameters names document).get? "tags" = document.get? "tags" :=
  document.get?_mapEntries_of_ne "paths" _ (by decide)

/-- Declared path parameters add no findings of any rule. -/
theorem sublist_gradedFindings_declareParameters (rule : Rule) (block : RuleBlock) :
    (rule.gradedFindings block (declareParameters names document)).Sublist
      (rule.gradedFindings block document) := by
  have htags := get?_tags_declareParameters names document
  by_cases hid : rule.id = .pathParameters
  · rw [gradedFindings_pathParameters hid, gradedFindings_pathParameters hid]
    exact sublist_pathParameters_declareParameters _ _ names document
  · rw [gradedFindings_of_ne hid, gradedFindings_of_ne hid]
    refine (sublist_findingsOf ?_ ?_ ?_ ?_ rule.id).map _
    · exact fun hreport => hreport.sublist_declareParameters names document
    · exact pathSegmentCase_declareParameters names document
    · rw [openapiTags_congr htags]
    · rw [operationTagDefined_eq, operationTagDefined_eq, definedTags_congr htags]
      exact (unprovoked_undefinedTagsAt _).sublist_declareParameters names document

end Parameters

/-! ## Defined tags -/

section Tags

variable (tags : List String) (document : Node)

theorem get?_paths_defineTags : (defineTags tags document).get? "paths" = document.get? "paths" :=
  document.get?_appendItems_of_ne "tags" _ (by decide)

/-- A document with new tags has tags. -/
theorem sublist_openapiTags_defineTags :
    (openapiTags (defineTags tags document)).Sublist (openapiTags document) := by
  cases document with
  | object fields =>
    cases tags with
    | nil => exact .refl _
    | cons tag rest =>
      have hitems := Node.getItems_appendItems (.object fields) "tags"
        ((tag :: rest).map tagNamed) rfl
      have htags : hasTags (defineTags (tag :: rest) (.object fields)) = true := by
        rw [hasTags, defineTags, hitems]
        simp
      rw [openapiTags, if_pos htags]
      exact List.nil_sublist _
  | _ => exact .refl _

/-- Defined tags add no findings of any rule. -/
theorem sublist_gradedFindings_defineTags (rule : Rule) (block : RuleBlock) :
    (rule.gradedFindings block (defineTags tags document)).Sublist
      (rule.gradedFindings block document) := by
  have hpaths : (defineTags tags document).getFields? "paths" = document.getFields? "paths" := by
    rw [Node.getFields?, Node.getFields?, get?_paths_defineTags]
  by_cases hid : rule.id = .pathParameters
  · rw [gradedFindings_pathParameters hid, gradedFindings_pathParameters hid, pathParameters,
      pathParameters, hpaths]
  · rw [gradedFindings_of_ne hid, gradedFindings_of_ne hid]
    refine (sublist_findingsOf ?_ ?_ ?_ ?_ rule.id).map _
    · exact fun hreport => hreport.sublist_defineTags tags document
    · rw [pathSegmentCase, pathSegmentCase, hpaths]
    · exact sublist_openapiTags_defineTags tags document
    · exact sublist_operationTagDefined_defineTags tags document

end Tags

end Rule

/-! ## What a violation suggests -/

/-- The violation suggests to declare a path parameter for a path. -/
def Violation.SuggestsParameter (v : Violation) (template name : String) : Prop :=
  PathCheck.missing.reports v = true ∧ DocPath.keys [] ["paths", template] <+: v.path ∧
    v.suggestion = some (Rule.declareSuggestion name)

/-- The violation suggests to define a tag. -/
def Violation.SuggestsTag (v : Violation) (tag : String) : Prop :=
  v.rule = RuleId.operationTagDefined.name ∧ v.suggestion = some (Rule.tagSuggestion tag)

instance (v : Violation) (template name : String) :
    Decidable (v.SuggestsParameter template name) :=
  inferInstanceAs (Decidable (_ ∧ _ ∧ _))

instance (v : Violation) (tag : String) : Decidable (v.SuggestsTag tag) :=
  inferInstanceAs (Decidable (_ ∧ _))

/-- A violation suggests one parameter at most, and for one path. -/
theorem Violation.SuggestsParameter.unique {v : Violation} {template other name otherName : String}
    (h : v.SuggestsParameter template name) (hother : v.SuggestsParameter other otherName) :
    template = other ∧ name = otherName := by
  obtain ⟨_, hpath, hsuggestion⟩ := h
  obtain ⟨_, hotherPath, hotherSuggestion⟩ := hother
  constructor
  · have hprefix : DocPath.keys [] ["paths", template] <+: DocPath.keys [] ["paths", other] :=
      List.prefix_of_prefix_length_le hpath hotherPath (by simp [DocPath.keys])
    simpa [DocPath.keys] using hprefix
  · exact Rule.declareSuggestion_injective
      (Option.some.inj (hsuggestion.symm.trans hotherSuggestion))

/-- A violation suggests one tag at most. -/
theorem Violation.SuggestsTag.unique {v : Violation} {tag other : String}
    (h : v.SuggestsTag tag) (hother : v.SuggestsTag other) : tag = other :=
  Rule.tagSuggestion_injective (Option.some.inj (h.2.symm.trans hother.2))

/-! ## The violations of a run -/

namespace Linter

variable (linter : Linter) (file : Option String)

/-- A run reports no more when each rule finds no more. -/
theorem sublist_lint {document other : Node}
    (h : ∀ (rule : Rule) (block : RuleBlock),
      (rule.gradedFindings block document).Sublist (rule.gradedFindings block other)) :
    (linter.lint ⟨document, file⟩).Sublist (linter.lint ⟨other, file⟩) := by
  rw [lint_eq, lint_eq]
  refine List.Sublist.flatMap_right _ fun rule _ => ?_
  unfold Rule.report
  split
  · exact (h rule _).map _
  · exact .slnil

/-- A reported violation is a finding of the rule that it names. -/
theorem exists_entry_of_mem_lint {document : Node} {v : Violation} {id : RuleId}
    (h : v ∈ linter.lint ⟨document, file⟩) (hrule : v.rule = id.name) :
    ∃ rule : Rule, rule.id = id ∧ ∃ entry ∈ rule.gradedFindings (linter.blockOf rule) document,
      v = (linter.blockOf rule).violation file id entry := by
  rw [lint_eq] at h
  obtain ⟨rule, _, h⟩ := List.mem_flatMap.mp h
  obtain rfl : rule.id = id := RuleId.name_injective ((Rule.report_rule_eq h).symm.trans hrule)
  exact ⟨rule, rfl, Rule.exists_entry_of_mem_report h⟩

/-- A parameter that is suggested when parameters were declared is another one. -/
theorem exists_suggestsParameter {names : String → List String} {document : Node} {v : Violation}
    (h : v ∈ linter.lint ⟨Rule.declareParameters names document, file⟩)
    (hreports : PathCheck.missing.reports v = true) :
    ∃ template name, v.SuggestsParameter template name ∧ name ∉ names template := by
  obtain ⟨hrule, hmessage⟩ := Bool.and_eq_true_iff.mp hreports
  obtain ⟨rule, hid, entry, hentry, rfl⟩ :=
    linter.exists_entry_of_mem_lint file h (of_decide_eq_true hrule)
  rw [Rule.gradedFindings_pathParameters hid] at hentry
  obtain ⟨template, name, hpath, hsuggestion, hname⟩ :=
    Rule.exists_undeclared_of_mem_pathParameters hentry hmessage
  exact ⟨template, name, ⟨hreports, hpath, hsuggestion⟩, hname⟩

/-- A tag that is suggested when tags were defined is another one. -/
theorem exists_suggestsTag {tags : List String} {document : Node} {v : Violation}
    (h : v ∈ linter.lint ⟨Rule.defineTags tags document, file⟩)
    (hrule : v.rule = RuleId.operationTagDefined.name) :
    ∃ tag, v.SuggestsTag tag ∧ tag ∉ tags := by
  obtain ⟨rule, hid, entry, hentry, rfl⟩ := linter.exists_entry_of_mem_lint file h hrule
  rw [Rule.gradedFindings_of_ne (by rw [hid]; decide), hid] at hentry
  obtain ⟨finding, hfinding, rfl⟩ := List.mem_map.mp hentry
  obtain ⟨tag, hsuggestion, htag⟩ := Rule.exists_undefined_of_mem_operationTagDefined hfinding
  exact ⟨tag, ⟨hrule, hsuggestion⟩, htag⟩

/-- Following suggestions ends them.  With all path parameters declared that were suggested for a
path, on its path item, none is missing any more; with all tags defined that were suggested, none
is undefined any more.  What is declared and defined may be more than was suggested, in any order
and repeatedly.  Either way nothing is reported that was not reported before, and what is left
stands in the same order. -/
theorem lint_following_suggestions (document : Node) :
    (∀ names : String → List String,
      (∀ v ∈ linter.lint ⟨document, file⟩, ∀ template name,
        v.SuggestsParameter template name → name ∈ names template) →
      (∀ v ∈ linter.lint ⟨Rule.declareParameters names document, file⟩,
        PathCheck.missing.reports v = false) ∧
      (linter.lint ⟨Rule.declareParameters names document, file⟩).Sublist
        (linter.lint ⟨document, file⟩)) ∧
    ∀ tags : List String,
      (∀ v ∈ linter.lint ⟨document, file⟩, ∀ tag, v.SuggestsTag tag → tag ∈ tags) →
      (∀ v ∈ linter.lint ⟨Rule.defineTags tags document, file⟩,
        v.rule ≠ RuleId.operationTagDefined.name) ∧
      (linter.lint ⟨Rule.defineTags tags document, file⟩).Sublist
        (linter.lint ⟨document, file⟩) := by
  constructor
  · intro names hnames
    have hsublist := linter.sublist_lint file
      (Rule.sublist_gradedFindings_declareParameters names document)
    refine ⟨fun v hv => ?_, hsublist⟩
    -- what is missing still was so before, so its suggestion was followed
    by_contra hreports
    obtain ⟨template, name, hsuggests, hname⟩ :=
      linter.exists_suggestsParameter file hv (by simpa using hreports)
    exact hname (hnames v (hsublist.subset hv) template name hsuggests)
  · intro tags htags
    have hsublist := linter.sublist_lint file (Rule.sublist_gradedFindings_defineTags tags document)
    refine ⟨fun v hv hrule => ?_, hsublist⟩
    obtain ⟨tag, hsuggests, htag⟩ := linter.exists_suggestsTag file hv hrule
    exact htag (htags v (hsublist.subset hv) tag hsuggests)

/-- A document with a path parameter that is not declared and a tag that is not defined.  Neither
its tags nor the parameters of the path item are an array. -/
def unmendedDocument : Node :=
  .object [
    ("tags", .string "none"),
    ("paths", .object [("/pets/\x7bid\x7d", .object [
      ("parameters", .null),
      ("get", .object [("tags", .array [.string "birds"])])])])]

/-- What is reported first are a missing parameter, no tags and an undefined tag.  The first is
mended by a declaration, the other two by one definition. -/
theorem lint_unmendedDocument :
    ((Linter.lint { rules := Preset.recommended.rules } ⟨unmendedDocument, none⟩).map
        Violation.code = ["OAS002", "OAS009", "OAS010"] ∧
      (Linter.lint { rules := Preset.recommended.rules }
        ⟨Rule.declareParameters (fun _ => ["id"]) unmendedDocument, none⟩).map
        Violation.code = ["OAS009", "OAS010"] ∧
      (Linter.lint { rules := Preset.recommended.rules }
        ⟨Rule.defineTags ["birds"] unmendedDocument, none⟩).map Violation.code = ["OAS002"]) ∧
    (∀ v ∈ Linter.lint { rules := Preset.recommended.rules }
        ⟨Rule.declareParameters (fun _ => ["id"]) unmendedDocument, none⟩,
      PathCheck.missing.reports v = false) ∧
    ∀ v ∈ Linter.lint { rules := Preset.recommended.rules }
        ⟨Rule.defineTags ["birds"] unmendedDocument, none⟩,
      v.rule ≠ RuleId.operationTagDefined.name := by
  have hparameters : ∀ v ∈ Linter.lint { rules := Preset.recommended.rules }
      ⟨unmendedDocument, none⟩, PathCheck.missing.reports v = true →
        v.SuggestsParameter "/pets/\x7bid\x7d" "id" := by decide +kernel
  have htags : ∀ v ∈ Linter.lint { rules := Preset.recommended.rules }
      ⟨unmendedDocument, none⟩, v.rule = RuleId.operationTagDefined.name →
        v.SuggestsTag "birds" := by decide +kernel
  obtain ⟨hdeclared, hdefined⟩ :=
    lint_following_suggestions { rules := Preset.recommended.rules } none unmendedDocument
  refine ⟨by decide +kernel, (hdeclared (fun _ => ["id"]) ?_).1, (hdefined ["birds"] ?_).1⟩
  · intro v hv template name hsuggests
    exact List.mem_singleton.mpr (hsuggests.unique (hparameters v hv hsuggests.1)).2
  · intro v hv tag hsuggests
    exact List.mem_singleton.mpr (hsuggests.unique (htags v hv hsuggests.1))

end Linter

end ApiLint
