import ApiLint.Proofs.Node.Additions
import ApiLint.Proofs.Node.Removals
import ApiLint.Proofs.Rule.ParameterLocations
set_option autoImplicit false

/-!
# Repeated definitions that are moved as suggested

A definition that is reported as repeated is moved to the path item: no operation keeps an
element of the name, and the definition goes behind the parameters of the path item itself.
Nothing is repeated for the name after that.  And nothing is missing that was not missing
before: if the definition is a path parameter, the path item declares the name now, and if it
is none, no operation declared the name by what was removed.
-/

namespace ApiLint.Rule

/-! ## Moving a definition -/

/-- The operation without its parameters of a name. -/
def withoutParameter (name : String) (operation : Node) : Node :=
  operation.mapValues (· = "parameters")
    (Node.keepItems fun parameter => parameterName? parameter ≠ some name)

/-- The path item with a definition behind its own parameters, and without the parameters of the
name in its operations. -/
def moveToItem (name : String) (definition item : Node) : Node :=
  (item.mapValues Method.isOperationKey (withoutParameter name)).appendItems "parameters"
    [definition]

/-- The document with a definition moved to one path item. -/
def moveDefinition (template name : String) (definition document : Node) : Node :=
  document.mapEntries "paths" fun key item =>
    if key = template then moveToItem name definition item else item

theorem getItems_withoutParameter (name : String) (operation : Node) :
    (withoutParameter name operation).getItems "parameters" =
      (operation.getItems "parameters").filter (parameterName? · ≠ some name) :=
  operation.getItems_mapValues_keepItems _ (by decide) _

theorem isSdkExcluded_withoutParameter (name : String) (operation : Node) :
    Schema.isSdkExcluded (withoutParameter name operation) = Schema.isSdkExcluded operation := by
  have hother : Schema.sdkExcludeKey ≠ "parameters" := by decide
  rw [Schema.isSdkExcluded, Schema.isSdkExcluded, withoutParameter, Node.get?_mapValues]
  simp [hother]

theorem mem_declaredNames_withoutParameter_iff {name other : String} {operation : Node} :
    other ∈ declaredNames (withoutParameter name operation) ↔
      other ∈ declaredNames operation ∧ other ≠ name := by
  simp only [declaredNames, getItems_withoutParameter, List.mem_filterMap, List.mem_filter,
    decide_eq_true_eq]
  constructor
  · intro h
    obtain ⟨parameter, ⟨⟨hmem, hkept⟩, hpath⟩, hname⟩ := h
    refine ⟨⟨parameter, ⟨hmem, hpath⟩, hname⟩, ?_⟩
    intro heq
    exact hkept (heq ▸ hname)
  · intro h
    obtain ⟨⟨parameter, ⟨hmem, hpath⟩, hname⟩, hne⟩ := h
    refine ⟨parameter, ⟨⟨hmem, ?_⟩, hpath⟩, hname⟩
    rw [hname]
    exact fun heq => hne (Option.some.inj heq)

section Item

variable (name : String) (definition item : Node)

theorem isObject_moveToItem : (moveToItem name definition item).isObject = item.isObject := by
  rw [moveToItem, Node.isObject_appendItems, Node.isObject_mapValues]

/-- The operations stay, each without its parameters of the name. -/
theorem operations_moveToItem :
    operations (moveToItem name definition item) =
      (operations item).map fun entry => (entry.1, withoutParameter name entry.2) := by
  rw [operations, moveToItem, Node.filter_fields_appendItems _ _ _ (by decide),
    Node.filter_fields_mapValues]
  rfl

/-- No element of the name is left in an operation. -/
theorem definitions_moveToItem :
    definitions (operations (moveToItem name definition item)) name = [] := by
  have hnone : declarations (operations (moveToItem name definition item)) name = [] := by
    rw [declarations, operations_moveToItem, List.flatMap_eq_nil_iff]
    intro entry hentry
    obtain ⟨operation, _, rfl⟩ := List.mem_map.mp hentry
    rw [getItems_withoutParameter, List.filter_filter, List.filter_eq_nil_iff]
    intro parameter _
    simp
  rw [definitions_eq_foldl, hnone, List.foldl_nil]

/-- The path item declares what it did, and the name when the definition is a path parameter. -/
theorem mem_declaredNames_moveToItem_iff (hobject : item.isObject = true)
    (hname : parameterName? definition = some name) {other : String} :
    other ∈ declaredNames (moveToItem name definition item) ↔
      other ∈ declaredNames item ∨ isPathParameter definition = true ∧ other = name := by
  have hkept : (item.mapValues Method.isOperationKey (withoutParameter name)).getItems
      "parameters" = item.getItems "parameters" := by
    have hother : Method.isOperationKey "parameters" = false := by decide
    rw [Node.getItems, Node.getItems, Node.get?_mapValues]
    simp [hother]
  have hitems : (moveToItem name definition item).getItems "parameters" =
      item.getItems "parameters" ++ [definition] := by
    rw [moveToItem, Node.getItems_appendItems _ _ _ (by rwa [Node.isObject_mapValues]), hkept]
  rw [declaredNames, declaredNames, hitems, List.filter_append, List.filterMap_append,
    List.mem_append]
  refine or_congr Iff.rfl ?_
  cases hpath : isPathParameter definition with
  | false => simp [hpath]
  | true => simp [hpath, hname, eq_comm]

/-! ## What is found then -/

variable {name definition item}

/-- What an operation and the path item declare before is declared after, by one or the other:
what was removed is a path parameter only if the definition is. -/
theorem mem_declaredNames_of_moved (hobject : item.isObject = true)
    (hname : parameterName? definition = some name) {operation : Node}
    (hlocation : name ∈ declaredNames operation → isPathParameter definition = true)
    {other : String} (h : other ∈ declaredNames operation ∨ other ∈ declaredNames item) :
    other ∈ declaredNames (withoutParameter name operation) ∨
      other ∈ declaredNames (moveToItem name definition item) := by
  rw [mem_declaredNames_withoutParameter_iff,
    mem_declaredNames_moveToItem_iff name definition item hobject hname]
  rcases h with hdeclared | hshared
  · by_cases heq : other = name
    · subst heq
      exact .inr (.inr ⟨hlocation hdeclared, rfl⟩)
    · exact .inl ⟨hdeclared, heq⟩
  · exact .inr (.inl hshared)

/-- What is missing after the definition was moved was missing before. -/
theorem mem_missingParameters_of_moved (hobject : item.isObject = true)
    (hname : parameterName? definition = some name) (hoperations : operations item ≠ [])
    (hlocation : ∀ entry ∈ operations item,
      name ∈ declaredNames entry.2 → isPathParameter definition = true)
    {path : DocPath} {names : List String} {finding : Finding}
    (h : finding ∈ missingParameters path (moveToItem name definition item) names) :
    finding ∈ missingParameters path item names := by
  rw [mem_missingParameters_iff, operations_moveToItem] at h
  rcases h with ⟨hnone, _⟩ | ⟨entry, hentry, hincluded, other, hother, hundeclared, rfl⟩
  · exact absurd (List.map_eq_nil_iff.mp hnone) hoperations
  · obtain ⟨⟨method, operation⟩, hmem, rfl⟩ := List.mem_map.mp hentry
    rw [isSdkExcluded_withoutParameter] at hincluded
    have hmissing : ¬ (other ∈ declaredNames operation ∨ other ∈ declaredNames item) := by
      intro hdeclared
      rcases mem_declaredNames_of_moved hobject hname (hlocation _ hmem) hdeclared with hown | hshared
      · exact hundeclared.1 hown
      · exact hundeclared.2 hshared
    exact mem_missingParameters_iff.mpr (.inr ⟨_, hmem, hincluded, other, hother,
      not_or.mp hmissing, rfl⟩)

end Item

/-! ## The document -/

/-- The entries of the edited document: one is edited, the others are as they were. -/
theorem mem_pathEntries_moveDefinition_iff {template name key : String}
    {definition document edited : Node} :
    (key, edited) ∈ pathEntries (moveDefinition template name definition document) ↔
      ∃ item, (key, item) ∈ pathEntries document ∧
        edited = if key = template then moveToItem name definition item else item := by
  rw [moveDefinition, pathEntries_mapEntries, List.mem_map]
  constructor
  · intro h
    obtain ⟨⟨_, item⟩, hitem, heq⟩ := h
    obtain ⟨rfl, rfl⟩ := Prod.mk.inj heq
    exact ⟨item, hitem, rfl⟩
  · intro h
    obtain ⟨item, hitem, rfl⟩ := h
    exact ⟨(key, item), hitem, rfl⟩

/-- The path item is edited in its place. -/
theorem resolve_moveDefinition {template : String} {document item : Node}
    (hitem : (entryPath template).resolve document = some item) (name : String)
    (definition : Node) :
    (entryPath template).resolve (moveDefinition template name definition document) =
      some (moveToItem name definition item) := by
  rw [resolve_entryPath] at hitem ⊢
  rw [moveDefinition, pathEntries_mapEntries, Fields.get?_map _ fun key item =>
    if key = template then moveToItem name definition item else item, hitem]
  simp

section Check

variable {document : Node} {rule : Rule} (hid : rule.id = .pathParameters) {block : RuleBlock}
include hid

/-- After a definition was moved to the path item, no violation names its placeholder there. -/
theorem not_namesRepeated_of_moved {template name : String} {definition : Node} {w : Violation}
    (hw : w ∈ rule.check block (moveDefinition template name definition document))
    {method : String} {position : Nat} (hpath : w.path = repeatedPath template method position) :
    ¬ NamesRepeated template name w := by
  intro hnames
  obtain ⟨severity, _, key, edited, hentry, _, finding, hfinding, rfl⟩ :=
    (mem_check_reports_iff_exists_entry hid .duplicate w).mp ⟨hw, hnames.reports⟩
  obtain ⟨_, other, _, hone, entry, _, first, _, rfl⟩ := mem_duplicateParameters_iff.mp hfinding
  rw [Finding.toViolation, path_duplicateFinding] at hpath
  obtain ⟨rfl, _, _⟩ := repeatedPath_inj hpath
  obtain rfl := (namesRepeated_duplicateFinding_iff _ _ _ _ _ _).mp hnames
  obtain ⟨old, hold, rfl⟩ := mem_pathEntries_moveDefinition_iff.mp hentry
  rw [if_pos rfl, definitions_moveToItem] at hone
  simp at hone

/-- After a repeated definition was moved to the path item, everything that is missing was missing
before. -/
theorem mem_check_of_moved (hwf : document.WellFormed) {template : String} {item : Node}
    (hitem : (entryPath template).resolve document = some item) {name : String}
    (hagrees : AgreesOn item name) {method : String} {position : Nat} {definition : Node}
    (hdefinition : BearsName item name method position definition) {w : Violation}
    (hw : w ∈ rule.check block (moveDefinition template name definition document))
    (hreports : PathCheck.missing.reports w = true) : w ∈ rule.check block document := by
  obtain ⟨severity, hseverity, key, edited, hentry, hobject, finding, hfinding, rfl⟩ :=
    (mem_check_reports_iff_exists_entry hid .missing w).mp ⟨hw, hreports⟩
  obtain ⟨old, hold, rfl⟩ := mem_pathEntries_moveDefinition_iff.mp hentry
  suffices h : old.isObject = true ∧ finding ∈ missingParameters (entryPath key) old
      (Naming.templateParameters key) from
    ((mem_check_reports_iff_exists_entry hid .missing _).mpr
      ⟨severity, hseverity, key, old, hold, h.1, finding, h.2, rfl⟩).1
  by_cases hkey : key = template
  · subst hkey
    obtain rfl := Option.some.inj (hitem.symm.trans ((mem_pathEntries_iff hwf).mp hold))
    have hitemWf := hwf.of_resolve hitem
    rw [if_pos rfl] at hobject hfinding
    rw [isObject_moveToItem] at hobject
    obtain ⟨operation, hget, _⟩ := resolve_parameterPath_iff.mp hdefinition.stands
    have hoperation := (mem_operations_iff hitemWf).mpr ⟨hdefinition.operation, hget⟩
    refine ⟨hobject, mem_missingParameters_of_moved hobject
      (Node.getString?_eq_some_iff.mpr hdefinition.named) (List.ne_nil_of_mem hoperation) ?_
      hfinding⟩
    -- what an operation declares has the location of the definition
    intro entry hentry hdeclared
    obtain ⟨hmethod, hget⟩ := (mem_operations_iff hitemWf).mp hentry
    obtain ⟨_, parameter, hbears, hpath⟩ := (declaresParameter_iff_exists_bearsName hmethod hget).mp
      ((mem_declaredNames_iff entry.2 name).mp hdeclared)
    rw [hagrees.isPathParameter_eq hitemWf hdefinition hbears, hpath]
  · rw [if_neg hkey] at hobject hfinding
    exact ⟨hobject, hfinding⟩

/-- When a placeholder is reported as repeated and the elements of its name are moved to the path
item, where one of them is kept, then nothing is reported as repeated for it there any more, and
every violation on a missing parameter was one of the document before. -/
theorem no_new_report_after_move (hwf : document.WellFormed) {template : String} {item : Node}
    (hitem : (entryPath template).resolve document = some item) {name : String} {v : Violation}
    (hv : v ∈ rule.check block document) {method : String} {position : Nat}
    (hpath : v.path = repeatedPath template method position)
    (hnames : NamesRepeated template name v) {other : String} {otherPosition : Nat}
    {definition : Node} (hdefinition : BearsName item name other otherPosition definition) :
    (entryPath template).resolve (moveDefinition template name definition document) =
        some (moveToItem name definition item) ∧
      (∀ w ∈ rule.check block (moveDefinition template name definition document),
        ∀ method position, w.path = repeatedPath template method position →
          ¬ NamesRepeated template name w) ∧
      ∀ w ∈ rule.check block (moveDefinition template name definition document),
        PathCheck.missing.reports w = true → w ∈ rule.check block document := by
  have hrepeats := repeatsAt_of_namesRepeated hwf hid hv hitem hpath hnames
  refine ⟨resolve_moveDefinition hitem name definition, ?_, ?_⟩
  · intro w hw method position hplace
    exact not_namesRepeated_of_moved hid hw hplace
  · intro w hw hreports
    exact mem_check_of_moved hid hwf hitem hrepeats.agrees hdefinition hw hreports

end Check

/-- The operation that did not declare the placeholder is reported before the definition is moved.
After it no definition is reported as repeated, nothing is missing that was not missing before,
and here indeed neither check reports anything. -/
theorem no_new_report_sharingDocument :
    (missingOnOperation ((entryPath "/pets/{id}").child (.key "head")) "id").toViolation
        .pathParameters .error ∈
          (standard .pathParameters).check {} (sharingDocument sharingOperations) ∧
      (∀ w ∈ (standard .pathParameters).check {}
          (moveDefinition "/pets/{id}" "id" (.object [("name", .string "id"), ("in", .string "path")])
            (sharingDocument sharingOperations)),
        ∀ method position, w.path = repeatedPath "/pets/{id}" method position →
          ¬ NamesRepeated "/pets/{id}" "id" w) ∧
      (∀ w ∈ (standard .pathParameters).check {}
          (moveDefinition "/pets/{id}" "id" (.object [("name", .string "id"), ("in", .string "path")])
            (sharingDocument sharingOperations)),
        PathCheck.missing.reports w = true →
          w ∈ (standard .pathParameters).check {} (sharingDocument sharingOperations)) ∧
      (standard .pathParameters).check {}
          (moveDefinition "/pets/{id}" "id" (.object [("name", .string "id"), ("in", .string "path")])
            (sharingDocument sharingOperations)) = [] := by
  have hwf : (sharingDocument sharingOperations).WellFormed := by
    simp [sharingDocument, sharingOperations, Node.WellFormed, Node.WellFormedFields,
      Node.WellFormedItems]
  have hreported :
      (duplicateFinding (entryPath "/pets/{id}") "delete" "id" 0).toViolation
          .pathParameters .warning ∈
        (standard .pathParameters).check {} (sharingDocument sharingOperations) := by
    decide
  obtain ⟨_, hnone, hmissing⟩ := no_new_report_after_move rfl hwf rfl hreported
    (path_duplicateFinding _ _ "id" _) ⟨rfl, rfl, rfl⟩
    (show BearsName (.object sharingOperations) "id" "get" 1 _ from ⟨rfl, rfl, rfl⟩)
  exact ⟨by decide, hnone, hmissing, by decide⟩

end ApiLint.Rule
