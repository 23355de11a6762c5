import ApiLint.Proofs.Rule.OutlinedReports
import ApiLint.Proofs.Rule.Suggestions
set_option autoImplicit false

/-!
# Tags that are defined as suggested

The more tags a document defines, the fewer tags of operations are undefined, and none of
those that are defined now is.  A document that is no object can define none, but it has no
operations either.
-/

namespace ApiLint.Rule

/-- How an undefined tag can be defined. -/
def tagSuggestion (tag : String) : String :=
  "Add `\x7b name: " ++ tag ++ " \x7d` to the root tags array"

theorem tagSuggestion_injective : Function.Injective tagSuggestion := by
  intro tag other h
  unfold tagSuggestion at h
  rwa [String.append_left_inj, String.append_right_inj] at h

/-! ## The tags of the document -/

theorem definedTags_defineTags {document : Node} (h : document.isObject = true)
    (tags : List String) :
    definedTags (defineTags tags document) = definedTags document ++ tags := by
  have hnames : (tags.map tagNamed).filterMap (·.getString? "name") = tags := by
    rw [List.filterMap_map]
    exact List.filterMap_some
  rw [definedTags, defineTags, Node.getItems_appendItems _ _ _ h, List.filterMap_append, hnames]
  rfl

/-- Defined tags stay defined. -/
theorem definedTags_subset_defineTags (tags : List String) (document : Node) :
    definedTags document ⊆ definedTags (defineTags tags document) := by
  cases document with
  | object fields =>
    rw [definedTags_defineTags rfl]
    exact List.subset_append_left _ _
  | _ => exact List.Subset.refl _

/-! ## The tags of an operation -/

section Operation

variable (operation : DocPath)

/-- The more tags are defined, the fewer are not. -/
theorem sublist_undefinedTags {defined more : List String} (h : defined ⊆ more) (tags : List Node)
    (position : Nat) :
    (undefinedTags more operation position tags).Sublist
      (undefinedTags defined operation position tags) := by
  induction tags generalizing position with
  | nil => exact .slnil
  | cons tag rest ih =>
    have hrest := ih (position + 1)
    rw [undefinedTags_cons, undefinedTags_cons]
    cases tag.string? with
    | none => exact hrest
    | some name =>
      by_cases hdefined : name ∈ defined
      · simpa [hdefined, h hdefined] using hrest
      · by_cases hmore : name ∈ more
        · simpa [hdefined, hmore] using hrest.cons _
        · simpa [hdefined, hmore] using hrest

/-- What is reported is suggested to be defined, and is not. -/
theorem exists_tag_of_mem_undefinedTags {defined : List String} {tags : List Node} {position : Nat}
    {finding : Finding} (h : finding ∈ undefinedTags defined operation position tags) :
    ∃ tag, finding.suggestion = some (tagSuggestion tag) ∧ tag ∉ defined := by
  induction tags generalizing position with
  | nil => exact absurd h List.not_mem_nil
  | cons tag rest ih =>
    rw [undefinedTags_cons] at h
    cases hname : tag.string? with
    | none => exact ih (by simpa [hname] using h)
    | some name =>
      by_cases hdefined : name ∈ defined
      · exact ih (by simpa [hname, hdefined] using h)
      · rcases List.mem_cons.mp (by simpa [hname, hdefined] using h) with rfl | h
        · exact ⟨name, rfl, hdefined⟩
        · exact ih h

end Operation

/-! ## The document -/

/-- A document that is no object has no operations. -/
theorem operationTagDefined_of_not_object {document : Node} (h : document.isObject = false) :
    operationTagDefined document = [] := by
  have hother : ∀ place : Located, NodeKind.of place.path = .other →
      undefinedTagsAt (definedTags document) place.visit = [] := by
    intro place hkind
    rw [undefinedTagsAt, Located.visit, hkind]
    rfl
  rw [operationTagDefined_eq, flatMap_walkDocument, reportBelow_eq_append]
  cases document with
  | object fields => simp [Node.isObject, Node.fields?] at h
  | array items =>
    -- a step into an array leads to no known kind, and there is no way back from there
    rw [Node.steps, List.flatMap_map, List.flatMap_eq_nil_iff.mpr]
    · rfl
    · intro item _
      exact reportBelow_eq_nil_of_kind hother rfl item.1
  | _ => rfl

/-- Defined tags add no findings on tags of operations. -/
theorem sublist_operationTagDefined_defineTags (tags : List String) (document : Node) :
    (operationTagDefined (defineTags tags document)).Sublist (operationTagDefined document) := by
  have hdefined := definedTags_subset_defineTags tags document
  rw [operationTagDefined_eq, operationTagDefined_eq]
  refine ((unprovoked_undefinedTagsAt _).sublist_defineTags tags document).trans ?_
  refine List.Sublist.flatMap_right _ fun visit _ => ?_
  unfold undefinedTagsAt
  split
  · exact sublist_undefinedTags visit.path hdefined _ 0
  · exact .slnil

/-- What is undefined still is another tag than those that were defined. -/
theorem exists_undefined_of_mem_operationTagDefined {tags : List String} {document : Node}
    {finding : Finding} (h : finding ∈ operationTagDefined (defineTags tags document)) :
    ∃ tag, finding.suggestion = some (tagSuggestion tag) ∧ tag ∉ tags := by
  cases hobject : document.isObject with
  | false =>
    have hnone := (sublist_operationTagDefined_defineTags tags document).subset h
    rw [operationTagDefined_of_not_object hobject] at hnone
    exact absurd hnone List.not_mem_nil
  | true =>
    obtain ⟨visit, _, h⟩ := List.mem_flatMap.mp h
    split at h
    · obtain ⟨tag, hsuggestion, htag⟩ := exists_tag_of_mem_undefinedTags visit.path h
      rw [definedTags_defineTags hobject] at htag
      exact ⟨tag, hsuggestion, fun hmem => htag (List.mem_append_right _ hmem)⟩
    · exact absurd h List.not_mem_nil

end ApiLint.Rule
