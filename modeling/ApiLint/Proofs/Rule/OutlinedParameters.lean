import ApiLint.Proofs.Node.Same
import ApiLint.Proofs.Schema.Composition
import ApiLint.Rule.PathParameters
set_option autoImplicit false

/-!
# Path parameters and the order of fields

The operations of a path item may come in any order.  What an operation declares does not
depend on that, nor does whether all declarations of a parameter agree: the list of
different definitions has one element when there are declarations and any two of them are
structurally equal.
-/

namespace ApiLint.Rule

/-! ## Different definitions -/

/-- Adds a definition, unless an equal one is there. -/
def addDefinition (found : List Node) (parameter : Node) : List Node :=
  if isAmong found parameter then found else found ++ [parameter]

theorem length_le_foldl_addDefinition (found parameters : List Node) :
    found.length ≤ (parameters.foldl addDefinition found).length := by
  induction parameters generalizing found with
  | nil => exact Nat.le_refl _
  | cons parameter rest ih =>
    refine Nat.le_trans ?_ (ih (addDefinition found parameter))
    unfold addDefinition
    split
    · exact Nat.le_refl _
    · simp

/-- Nothing is added when everything has an equal one already. -/
theorem length_foldl_addDefinition_eq_iff (found parameters : List Node) :
    (parameters.foldl addDefinition found).length = found.length ↔
      ∀ parameter ∈ parameters, isAmong found parameter = true := by
  induction parameters generalizing found with
  | nil => simp
  | cons parameter rest ih =>
    rw [List.foldl_cons, List.forall_mem_cons]
    by_cases hamong : isAmong found parameter = true
    · rw [addDefinition, if_pos hamong, ih]
      exact (and_iff_right hamong).symm
    · refine iff_of_false (fun hlength => ?_) fun hall => hamong hall.1
      have hle := length_le_foldl_addDefinition (addDefinition found parameter) rest
      rw [hlength, addDefinition, if_neg hamong, List.length_append] at hle
      simp at hle

/-- The declarations of a parameter in operations. -/
def declarations (operations : List (String × Node)) (name : String) : List Node :=
  operations.flatMap fun operation =>
    (operation.2.getItems "parameters").filter (parameterName? · = some name)

theorem definitions_eq_foldl (operations : List (String × Node)) (name : String) :
    definitions operations name = (declarations operations name).foldl addDefinition [] := rfl

/-- There is one definition when there are declarations and any two of them are equal. -/
theorem length_foldl_eq_one_iff {parameters : List Node}
    (hwf : ∀ parameter ∈ parameters, parameter.WellFormed) :
    (parameters.foldl addDefinition []).length = 1 ↔
      parameters ≠ [] ∧ (parameters.map Node.outline).Pairwise Node.SameOutline := by
  cases parameters with
  | nil => simp
  | cons first rest =>
    obtain ⟨hfirst, hrest⟩ := List.forall_mem_cons.mp hwf
    have hone := length_foldl_addDefinition_eq_iff [first] rest
    have hsame : (∀ parameter ∈ rest, isAmong [first] parameter = true) ↔
        ∀ parameter ∈ rest, Node.SameOutline first.outline parameter.outline := by
      refine forall₂_congr fun parameter hmem => ?_
      rw [← Node.same_iff_outlines hfirst (hrest parameter hmem)]
      simp [isAmong]
    have hadd : addDefinition [] first = [first] := rfl
    rw [List.foldl_cons, hadd]
    rw [List.length_singleton] at hone
    rw [hone, hsame, List.map_cons, List.pairwise_cons, List.forall_mem_map]
    constructor
    · intro hall
      refine ⟨by simp, hall, ?_⟩
      -- both are equal to the first one
      rw [List.pairwise_map]
      exact List.pairwise_of_forall_mem_list fun x hx y hy => (hall x hx).symm.trans (hall y hy)
    · rintro ⟨_, hall, _⟩
      exact hall

/-! ## Operations and declarations -/

theorem parameterName?_eq_of_outline {a b : Node} (h : a.outline = b.outline) :
    parameterName? a = parameterName? b :=
  Node.getString?_eq_of_outline h "name"

theorem isPathParameter_eq_of_outline {a b : Node} (h : a.outline = b.outline) :
    isPathParameter a = isPathParameter b := by
  rw [isPathParameter, isPathParameter, Node.getString?_eq_of_outline h]

theorem declaredNames_eq_of_outline {a b : Node} (h : a.outline = b.outline) :
    declaredNames a = declaredNames b := by
  rw [declaredNames, declaredNames, List.filterMap_filter, List.filterMap_filter]
  refine filterMap_eq_of_view (Node.map_outline_getItems h "parameters") fun x _ y _ hxy => ?_
  rw [isPathParameter_eq_of_outline hxy, parameterName?_eq_of_outline hxy]

/-- The position of the first declaration of a parameter. -/
theorem findIdx?_parameters_eq_of_outline {a b : Node} (h : a.outline = b.outline)
    (name : String) :
    (a.getItems "parameters").findIdx? (parameterName? · = some name) =
      (b.getItems "parameters").findIdx? (parameterName? · = some name) := by
  have hnames := map_eq_of_view (f := parameterName?) (g := parameterName?)
    (Node.map_outline_getItems h "parameters") fun _ _ _ _ => parameterName?_eq_of_outline
  have hpositions := congrArg (List.findIdx? fun other => decide (other = some name)) hnames
  rwa [List.findIdx?_map, List.findIdx?_map] at hpositions

theorem wellFormed_of_mem_declarations {item parameter : Node} (hitem : item.WellFormed)
    {name : String} (hmem : parameter ∈ declarations (operations item) name) :
    parameter.WellFormed := by
  obtain ⟨operation, hoperation, hmem⟩ := List.mem_flatMap.mp hmem
  exact (hitem.of_mem_fields (List.mem_of_mem_filter hoperation)).of_mem_getItems
    (List.mem_of_mem_filter hmem)

section Items

variable {a b : Node} (ha : a.WellFormed) (hb : b.WellFormed) (h : a.outline = b.outline)
include ha hb h

theorem perm_operations :
    ((operations a).map Node.fieldView).Perm ((operations b).map Node.fieldView) := by
  refine perm_map_filter_of_view (Node.perm_fields ha hb h) fun x _ y _ hxy => ?_
  rw [(Prod.mk.inj hxy).1]
  exact ⟨rfl, hxy⟩

theorem length_operations_eq : (operations a).length = (operations b).length := by
  have hlength := (perm_operations ha hb h).length_eq
  rwa [List.length_map, List.length_map] at hlength

theorem perm_declarations (name : String) :
    ((declarations (operations a) name).map Node.outline).Perm
      ((declarations (operations b) name).map Node.outline) := by
  unfold declarations
  rw [List.map_flatMap, List.map_flatMap]
  refine perm_flatMap_of_view (perm_operations ha hb h) ?_
  rintro ⟨method, operation⟩ _ ⟨_, other⟩ _ heq
  obtain ⟨_, houtline⟩ := Prod.mk.inj heq
  have hparameters := Node.map_outline_getItems houtline "parameters"
  refine perm_map_filter_of_view (.of_eq hparameters) fun x _ y _ hxy => ?_
  rw [parameterName?_eq_of_outline hxy]
  exact ⟨rfl, hxy⟩

/-- The definitions of a parameter agree in one item when they do in the other. -/
theorem length_definitions_eq_one_iff (name : String) :
    (definitions (operations a) name).length = 1 ↔
      (definitions (operations b) name).length = 1 := by
  have hperm := perm_declarations ha hb h name
  rw [definitions_eq_foldl, definitions_eq_foldl,
    length_foldl_eq_one_iff fun _ => wellFormed_of_mem_declarations ha,
    length_foldl_eq_one_iff fun _ => wellFormed_of_mem_declarations hb,
    hperm.pairwise_iff Node.SameOutline.symm]
  have hlength := hperm.length_eq
  rw [List.length_map, List.length_map] at hlength
  refine and_congr_left fun _ => not_congr ?_
  rw [← List.length_eq_zero_iff, hlength, List.length_eq_zero_iff]

/-! ## Findings -/

theorem perm_missingParameters (path : DocPath) (names : List String) :
    (missingParameters path a names).Perm (missingParameters path b names) := by
  have hempty : (operations a).isEmpty = (operations b).isEmpty := by
    rw [Bool.eq_iff_iff, List.isEmpty_iff_length_eq_zero, List.isEmpty_iff_length_eq_zero,
      length_operations_eq ha hb h]
  unfold missingParameters
  dsimp only
  rw [hempty, declaredNames_eq_of_outline h]
  split
  · exact .refl _
  · refine perm_flatMap_of_view (perm_operations ha hb h) ?_
    rintro ⟨method, operation⟩ _ ⟨_, other⟩ _ heq
    obtain ⟨rfl, houtline⟩ := Prod.mk.inj heq
    dsimp only
    rw [Schema.isSdkExcluded_eq_of_outline houtline, declaredNames_eq_of_outline houtline]

theorem perm_duplicateParameters (path : DocPath) (names : List String) :
    (duplicateParameters path a names).Perm (duplicateParameters path b names) := by
  unfold duplicateParameters
  rw [length_operations_eq ha hb h]
  split
  · exact .nil
  · refine .flatMap (.refl names) fun name _ => ?_
    unfold duplicatesOf
    rw [if_congr (length_definitions_eq_one_iff ha hb h name) rfl rfl]
    split
    · refine perm_flatMap_of_view (perm_operations ha hb h) ?_
      rintro ⟨method, operation⟩ _ ⟨_, other⟩ _ heq
      obtain ⟨rfl, houtline⟩ := Prod.mk.inj heq
      dsimp only
      rw [findIdx?_parameters_eq_of_outline houtline]
    · exact .nil

theorem perm_pathParametersAt (missing duplicate : Option Severity) (template : String) :
    (pathParametersAt missing duplicate template a).Perm
      (pathParametersAt missing duplicate template b) := by
  have hgraded : ∀ (severity : Option Severity) {findings others : List Finding},
      findings.Perm others → (graded severity findings).Perm (graded severity others) := by
    intro severity findings others hperm
    cases severity with
    | none => exact .nil
    | some severity => exact hperm.map _
  unfold pathParametersAt
  dsimp only
  rw [Node.isObject_eq_of_outline h]
  split
  · exact .nil
  · exact (hgraded missing (perm_missingParameters ha hb h _ _)).append
      (hgraded duplicate (perm_duplicateParameters ha hb h _ _))

theorem perm_pathParameters (missing duplicate : Option Severity) :
    (pathParameters missing duplicate a).Perm (pathParameters missing duplicate b) := by
  unfold pathParameters
  refine perm_flatMap_of_view (Node.perm_getFields? ha hb h "paths") ?_
  rintro ⟨template, item⟩ hitem ⟨_, other⟩ hother heq
  obtain ⟨rfl, houtline⟩ := Prod.mk.inj heq
  exact perm_pathParametersAt ((ha.object_getFields? _).of_mem_fields hitem)
    ((hb.object_getFields? _).of_mem_fields hother) houtline missing duplicate template

end Items

end ApiLint.Rule
