import ApiLint.Proofs.Rule.EntryFindings
import ApiLint.Proofs.Rule.Suggestions
set_option autoImplicit false

/-!
# Path parameters that are declared as suggested

Declarations on a path item leave its operations as they are and are seen by all of them.
So fewer parameters are missing, none of those that are declared now is, and the
definitions that operations share are what they were.
-/

namespace ApiLint.Rule

theorem declareSuggestion_injective : Function.Injective declareSuggestion := by
  intro name other h
  unfold declareSuggestion at h
  rwa [String.append_left_inj, String.append_right_inj] at h

/-! ## The path item -/

theorem isObject_withDeclarations (item : Node) (names : List String) :
    (withDeclarations item names).isObject = item.isObject :=
  item.isObject_appendItems "parameters" _

theorem operations_withDeclarations (item : Node) (names : List String) :
    operations (withDeclarations item names) = operations item :=
  item.filter_fields_appendItems "parameters" _ (by decide)

/-- A declaration declares its name. -/
theorem filterMap_declaration (names : List String) :
    ((names.map declaration).filter isPathParameter).filterMap parameterName? = names := by
  have hdeclared : ∀ parameter ∈ names.map declaration, isPathParameter parameter = true := by
    intro parameter hparameter
    obtain ⟨name, _, rfl⟩ := List.mem_map.mp hparameter
    show Text.equalIgnoringAsciiCase "path" "path" = true
    decide
  rw [List.filter_eq_self.mpr hdeclared, List.filterMap_map]
  exact List.filterMap_some

theorem declaredNames_withDeclarations {item : Node} (h : item.isObject = true)
    (names : List String) :
    declaredNames (withDeclarations item names) = declaredNames item ++ names := by
  rw [declaredNames, withDeclarations, Node.getItems_appendItems _ _ _ h, List.filter_append,
    List.filterMap_append, filterMap_declaration]
  rfl

/-- The more is declared for the same operations, the fewer parameters are missing. -/
theorem sublist_missingParameters {item other : Node}
    (hoperations : operations item = operations other)
    (hdeclared : declaredNames other ⊆ declaredNames item) (path : DocPath)
    (names : List String) :
    (missingParameters path item names).Sublist (missingParameters path other names) := by
  have hshared : ∀ name, (!(declaredNames item).contains name) = true →
      (!(declaredNames other).contains name) = true := by
    intro name hname
    simp only [Bool.not_eq_true', List.contains_eq_mem, decide_eq_false_iff_not] at hname ⊢
    exact fun hmem => hname (hdeclared hmem)
  unfold missingParameters
  dsimp only
  rw [hoperations]
  split
  · exact (List.monotone_filter_right names hshared).map _
  · refine List.Sublist.flatMap_right _ fun operation _ => ?_
    split
    · exact .refl _
    · refine (List.monotone_filter_right names fun name hname => ?_).map _
      obtain ⟨hown, hname⟩ := Bool.and_eq_true_iff.mp hname
      exact Bool.and_eq_true_iff.mpr ⟨hown, hshared name hname⟩

/-- Grading keeps the order of findings. -/
theorem sublist_graded (severity : Option Severity) {findings others : List Finding}
    (h : findings.Sublist others) : (graded severity findings).Sublist (graded severity others) := by
  cases severity with
  | none => exact .slnil
  | some severity => exact h.map _

theorem sublist_pathParametersAt (missing duplicate : Option Severity) (template : String)
    (item : Node) (names : List String) :
    (pathParametersAt missing duplicate template (withDeclarations item names)).Sublist
      (pathParametersAt missing duplicate template item) := by
  have hoperations := operations_withDeclarations item names
  unfold pathParametersAt
  dsimp only
  rw [isObject_withDeclarations]
  split
  · exact .refl _
  · next hobject =>
    have hdeclared := declaredNames_withDeclarations (by simpa using hobject) names
    refine (sublist_graded missing ?_).append (sublist_graded duplicate ?_)
    · refine sublist_missingParameters hoperations ?_ _ _
      rw [hdeclared]
      exact List.subset_append_left _ _
    · rw [duplicateParameters, hoperations, ← duplicateParameters]

/-! ## The document -/

/-- The entries of the map of paths, each with its declarations. -/
theorem pathParameters_declareParameters (missing duplicate : Option Severity)
    (names : String → List String) (document : Node) :
    pathParameters missing duplicate (declareParameters names document) =
      ((document.getFields? "paths").getD []).flatMap fun entry =>
        pathParametersAt missing duplicate entry.1 (withDeclarations entry.2 (names entry.1)) := by
  rw [pathParameters, declareParameters, ← pathEntries, pathEntries_mapEntries]
  exact List.flatMap_map _ _ _

/-- Declared path parameters add no findings on path parameters. -/
theorem sublist_pathParameters_declareParameters (missing duplicate : Option Severity)
    (names : String → List String) (document : Node) :
    (pathParameters missing duplicate (declareParameters names document)).Sublist
      (pathParameters missing duplicate document) := by
  rw [pathParameters_declareParameters]
  exact List.Sublist.flatMap_right _ fun entry _ =>
    sublist_pathParametersAt missing duplicate entry.1 entry.2 (names entry.1)

/-- What is missing still is another name than those that were declared for the path. -/
theorem exists_undeclared_of_mem_pathParameters {missing duplicate : Option Severity}
    {names : String → List String} {document : Node} {entry : Severity × Finding}
    (h : entry ∈ pathParameters missing duplicate (declareParameters names document))
    (hmissing : PathCheck.missing.hasMessage entry.2.message = true) :
    ∃ template name, DocPath.keys [] ["paths", template] <+: entry.2.path ∧
      entry.2.suggestion = some (declareSuggestion name) ∧ name ∉ names template := by
  rw [pathParameters_declareParameters] at h
  obtain ⟨⟨template, item⟩, _, h⟩ := List.mem_flatMap.mp h
  have hbelow := prefix_of_mem_pathParametersAt h
  obtain ⟨hobject, ⟨_, h⟩ | ⟨_, h⟩⟩ := exists_of_mem_pathParametersAt h
  · rw [isObject_withDeclarations] at hobject
    obtain ⟨name, ⟨_, hname⟩, hfinding⟩ := exists_of_mem_missingParameters h
    rw [declaredNames_withDeclarations hobject] at hname
    have hsuggestion : entry.2.suggestion = some (declareSuggestion name) := by
      rcases hfinding with heq | ⟨_, _, heq⟩ <;> rw [heq] <;> rfl
    exact ⟨template, name, hbelow, hsuggestion,
      fun hmem => hname (List.mem_append_right _ hmem)⟩
  · have hduplicate := hasMessage_of_mem_duplicateParameters .missing h
    rw [hmissing] at hduplicate
    exact absurd hduplicate (by decide)

end ApiLint.Rule
