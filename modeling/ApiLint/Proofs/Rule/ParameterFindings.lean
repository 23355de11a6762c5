import ApiLint.Rule.PathParameters
import Mathlib.Data.List.Basic
set_option autoImplicit false

/-!
# Where findings on path parameters come from

A finding on path parameters is made for a placeholder of a template: on the path item or an
operation, where it is missing, or at a position among the parameters of an operation, where
it is repeated.  What holds of all these findings is read off here, check by check.
-/

namespace ApiLint.Rule

variable {finding : Finding}

/-- Grading keeps the findings and gives them the severity. -/
theorem mem_graded_iff {severity : Option Severity} {findings : List Finding}
    {entry : Severity × Finding} :
    entry ∈ graded severity findings ↔ severity = some entry.1 ∧ entry.2 ∈ findings := by
  obtain ⟨level, finding⟩ := entry
  cases severity with
  | none => simp [graded]
  | some severity => simp [graded, and_comm]

theorem exists_of_mem_graded {severity : Option Severity} {findings : List Finding}
    {entry : Severity × Finding} (h : entry ∈ graded severity findings) :
    severity = some entry.1 ∧ entry.2 ∈ findings :=
  mem_graded_iff.mp h

/-- What is missing, without operations: a name that the path item does not declare.  With
operations: at each of them that is not excluded, a name that neither declares. -/
theorem mem_missingParameters_iff {path : DocPath} {item : Node} {names : List String} :
    finding ∈ missingParameters path item names ↔
      (operations item = [] ∧ ∃ name ∈ names, name ∉ declaredNames item ∧
          finding = missingOnItem path name) ∨
        ∃ entry ∈ operations item, Schema.isSdkExcluded entry.2 = false ∧ ∃ name ∈ names,
          (name ∉ declaredNames entry.2 ∧ name ∉ declaredNames item) ∧
            finding = missingOnOperation (path.child (.key entry.1)) name := by
  have hchosen : ∀ (p : String → Bool) (report : String → Finding),
      finding ∈ (names.filter p).map report ↔
        ∃ name ∈ names, p name = true ∧ finding = report name := by
    intro p report
    simp only [List.mem_map, List.mem_filter, and_assoc, eq_comm]
  unfold missingParameters
  dsimp only
  split
  · next hempty =>
    have hnone : operations item = [] := List.isEmpty_iff.mp hempty
    rw [hchosen, hnone]
    simp
  · next hsome =>
    have hoperations : operations item ≠ [] := fun hnone => hsome (List.isEmpty_iff.mpr hnone)
    simp only [hoperations, false_and, false_or, List.mem_flatMap]
    refine exists_congr fun entry => and_congr_right fun _ => ?_
    split
    · next hexcluded => simp [hexcluded]
    · next hincluded =>
      rw [hchosen]
      simp [hincluded]

/-- What is missing is one of the names and not declared on the path item; it is reported there,
or at an operation if there is one. -/
theorem exists_of_mem_missingParameters {path : DocPath} {item : Node} {names : List String}
    (h : finding ∈ missingParameters path item names) :
    ∃ name, (name ∈ names ∧ name ∉ declaredNames item) ∧
      (finding = missingOnItem path name ∨
        ∃ entry ∈ operations item,
          finding = missingOnOperation (path.child (.key entry.1)) name) := by
  obtain ⟨_, name, hname, hmissing, heq⟩ | ⟨entry, hentry, _, name, hname, ⟨_, hmissing⟩, heq⟩ :=
    mem_missingParameters_iff.mp h
  · exact ⟨name, ⟨hname, hmissing⟩, .inl heq⟩
  · exact ⟨name, ⟨hname, hmissing⟩, .inr ⟨entry, hentry, heq⟩⟩

/-- A definition is repeated where the operations have one definition of the name between them; it
is found in each operation that has the name, at its first position. -/
theorem mem_duplicatesOf_iff {path : DocPath} {operations : List (String × Node)} {name : String} :
    finding ∈ duplicatesOf path operations name ↔
      (definitions operations name).length = 1 ∧ ∃ entry ∈ operations, ∃ position,
        (entry.2.getItems "parameters").findIdx? (parameterName? · = some name) = some position ∧
          finding = duplicateFinding path entry.1 name position := by
  unfold duplicatesOf
  split
  · next hone =>
    rw [and_iff_right hone, List.mem_flatMap]
    refine exists_congr fun entry => and_congr_right fun _ => ?_
    dsimp only
    split
    · next position hposition => simp [hposition]
    · next hnone => simp [hnone]
  · next hmany => simp [hmany]

/-- What is repeated, with two operations at least: a name with one definition, at its first
position among the parameters of an operation. -/
theorem mem_duplicateParameters_iff {path : DocPath} {item : Node} {names : List String} :
    finding ∈ duplicateParameters path item names ↔
      2 ≤ (operations item).length ∧ ∃ name ∈ names,
        (definitions (operations item) name).length = 1 ∧
          ∃ entry ∈ operations item, ∃ position,
            (entry.2.getItems "parameters").findIdx? (parameterName? · = some name) =
                some position ∧
              finding = duplicateFinding path entry.1 name position := by
  unfold duplicateParameters
  split
  · next hfew => simp [Nat.not_le.mpr hfew]
  · next hmany =>
    rw [and_iff_right (Nat.not_lt.mp hmany), List.mem_flatMap]
    simp only [mem_duplicatesOf_iff]

/-- What is repeated is reported at its position among the parameters of an operation. -/
theorem exists_of_mem_duplicateParameters {path : DocPath} {item : Node} {names : List String}
    (h : finding ∈ duplicateParameters path item names) :
    ∃ name, ∃ entry ∈ operations item, ∃ position,
      (entry.2.getItems "parameters").findIdx? (parameterName? · = some name) = some position ∧
        finding = duplicateFinding path entry.1 name position := by
  obtain ⟨_, name, _, _, hreported⟩ := mem_duplicateParameters_iff.mp h
  exact ⟨name, hreported⟩

/-- At an entry of the map of paths that is an object, each of the two checks finds, at its
level. -/
theorem mem_pathParametersAt_iff {missing duplicate : Option Severity} {template : String}
    {item : Node} {entry : Severity × Finding} :
    entry ∈ pathParametersAt missing duplicate template item ↔
      item.isObject = true ∧
        (missing = some entry.1 ∧
            entry.2 ∈ missingParameters (DocPath.keys [] ["paths", template]) item
              (Naming.templateParameters template) ∨
          duplicate = some entry.1 ∧
            entry.2 ∈ duplicateParameters (DocPath.keys [] ["paths", template]) item
              (Naming.templateParameters template)) := by
  unfold pathParametersAt
  dsimp only
  cases item.isObject with
  | false => simp
  | true => simp [mem_graded_iff]

theorem exists_of_mem_pathParametersAt {missing duplicate : Option Severity} {template : String}
    {item : Node} {entry : Severity × Finding}
    (h : entry ∈ pathParametersAt missing duplicate template item) :
    item.isObject = true ∧
      (missing = some entry.1 ∧
          entry.2 ∈ missingParameters (DocPath.keys [] ["paths", template]) item
            (Naming.templateParameters template) ∨
        duplicate = some entry.1 ∧
          entry.2 ∈ duplicateParameters (DocPath.keys [] ["paths", template]) item
            (Naming.templateParameters template)) :=
  mem_pathParametersAt_iff.mp h

end ApiLint.Rule
