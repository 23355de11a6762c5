import ApiLint.Proofs.Rule.RepeatedParameters
set_option autoImplicit false

/-!
# The location of repeated parameters

Repeated definitions are looked for by name, whatever their location is.  But elements of a
path item that are structurally equal have one location, so a report is right about it or
wrong about all of them: either all elements of the name are path parameters, or none is, and
then no operation of the path item declares the placeholder at all.  Reports of the second
kind are made, for parameters that only share the name of a placeholder.
-/

namespace ApiLint.Rule

/-- Parameters that are equal have one location. -/
theorem isPathParameter_eq_of_same {a b : Node} (ha : a.WellFormed) (hb : b.WellFormed)
    (h : a.same b = true) : isPathParameter a = isPathParameter b := by
  rw [isPathParameter, isPathParameter, Node.getString?_eq_of_same ha hb h]

section Item

variable {item : Node} (hwf : item.WellFormed) {name : String}
include hwf

/-- Where every two elements of a name are equal, all have the location of one of them. -/
theorem AgreesOn.isPathParameter_eq (h : AgreesOn item name)
    {method other : String} {position otherPosition : Nat} {a b : Node}
    (ha : BearsName item name method position a)
    (hb : BearsName item name other otherPosition b) :
    isPathParameter a = isPathParameter b := by
  by_cases hplace : (method, position) = (other, otherPosition)
  · have hstands := ha.stands
    rw [parameterPath_inj.mpr hplace, hb.stands] at hstands
    rw [Option.some.inj hstands]
  · have hsame := h _ _ _ _ _ _ ha hb hplace
    exact isPathParameter_eq_of_same (hwf.of_resolve ha.stands) (hwf.of_resolve hb.stands) hsame

omit hwf in
/-- An operation declares a placeholder by an element of the name that is a path parameter. -/
theorem declaresParameter_iff_exists_bearsName {method : String} {operation : Node}
    (hmethod : Method.isOperationKey method = true) (hget : item.get? method = some operation) :
    DeclaresParameter operation name ↔
      ∃ position parameter, BearsName item name method position parameter ∧
        isPathParameter parameter = true := by
  constructor
  · intro hdeclares
    obtain ⟨hparameters, hmem, hname, hlocation, hpath⟩ := hdeclares
    obtain ⟨position, helement⟩ := List.mem_iff_getElem?.mp hmem
    have hstands := resolve_parameterPath_iff.mpr
      ⟨operation, hget, Node.getElem?_getItems_iff.mpr ⟨_, hparameters, helement⟩⟩
    exact ⟨position, _, ⟨hmethod, hstands, hname⟩,
      (isPathParameter_iff _).mpr ⟨_, hlocation, hpath⟩⟩
  · intro hbears
    obtain ⟨position, parameter, hbears, hpath⟩ := hbears
    obtain ⟨other, hother, helement⟩ := resolve_parameterPath_iff.mp hbears.stands
    obtain rfl := Option.some.inj (hget.symm.trans hother)
    obtain ⟨parameters, hparameters, helement⟩ := Node.getElem?_getItems_iff.mp helement
    obtain ⟨location, hlocation, hpath⟩ := (isPathParameter_iff parameter).mp hpath
    exact .intro hparameters (List.mem_of_getElem? helement) hbears.named hlocation hpath

end Item

/-- Every element of the name, in any operation of the path item, is a path parameter. -/
def AllInPath (item : Node) (name : String) : Prop :=
  ∀ method position parameter, BearsName item name method position parameter →
    isPathParameter parameter = true

/-- No operation of the path item declares a path parameter of the name. -/
def NoneDeclared (item : Node) (name : String) : Prop :=
  ∀ method operation, Method.isOperationKey method = true → item.get? method = some operation →
    ¬ DeclaresParameter operation name

/-- A reported element bears the name of its placeholder.  It is a path parameter exactly when all
elements of the name are, in all operations of the path item; and it is none exactly when no
operation declares the placeholder, in the sense of the check on missing parameters. -/
theorem location_of_repeated_parameter {document : Node} (hwf : document.WellFormed) {rule : Rule}
    (hid : rule.id = .pathParameters) {block : RuleBlock} {v : Violation}
    (hv : v ∈ rule.check block document) (hreports : PathCheck.duplicate.reports v = true) :
    ∃ template item method position name parameter,
      (entryPath template).resolve document = some item ∧
        v.path = repeatedPath template method position ∧
          v.path.resolve document = some parameter ∧
            NamesRepeated template name v ∧ BearsName item name method position parameter ∧
              (isPathParameter parameter = true ↔ AllInPath item name) ∧
                (isPathParameter parameter = false ↔ NoneDeclared item name) := by
  obtain ⟨_, template, item, method, position, name, hitem, _, hpath, hrepeats, hnames⟩ :=
    exists_repeatsAt_of_reports hwf hid hv hreports
  obtain ⟨parameter, hbears⟩ := hrepeats.bears
  have hitemWf := hwf.of_resolve hitem
  have hlocation : ∀ other otherPosition element,
      BearsName item name other otherPosition element →
        isPathParameter element = isPathParameter parameter :=
    fun _ _ _ hother => hrepeats.agrees.isPathParameter_eq hitemWf hother hbears
  refine ⟨template, item, method, position, name, parameter, hitem, hpath, ?_,
    (hnames name).mpr rfl, hbears, ?_, ?_⟩
  · rw [hpath, repeatedPath, DocPath.resolve_append, hitem]
    exact hbears.stands
  · constructor
    · intro hinPath other otherPosition element hother
      rw [hlocation other otherPosition element hother, hinPath]
    · intro hall
      exact hall method position parameter hbears
  · constructor
    · intro hoff other operation hmethod hget hdeclares
      obtain ⟨otherPosition, element, hother, hinPath⟩ :=
        (declaresParameter_iff_exists_bearsName hmethod hget).mp hdeclares
      rw [hlocation other otherPosition element hother, hoff] at hinPath
      cases hinPath
    · intro hnone
      obtain ⟨operation, hget, _⟩ := resolve_parameterPath_iff.mp hbears.stands
      rw [← Bool.not_eq_true]
      intro hinPath
      exact hnone method operation hbears.operation hget
        ((declaresParameter_iff_exists_bearsName hbears.operation hget).mpr
          ⟨position, parameter, hbears, hinPath⟩)

/-- A path item that declares its placeholder, with operations that have a parameter of the same
name in the query. -/
def queryItem : Node :=
  let queryId := Node.object [("name", .string "id"), ("in", .string "query")]
  .object [
    ("parameters", .array [.object [("name", .string "id"), ("in", .string "path")]]),
    ("get", .object [("parameters", .array [queryId])]),
    ("delete", .object [("parameters", .array [queryId])])]

/-- A document with that path item. -/
def queryDocument : Node := .object [("paths", .object [("/pets/{id}", queryItem)])]

theorem mem_check_queryDocument :
    (duplicateFinding (entryPath "/pets/{id}") "get" "id" 0).toViolation .pathParameters
      .warning ∈ (standard .pathParameters).check {} queryDocument := by
  decide

/-- The parameter in the query is reported, and no operation declares the placeholder. -/
theorem noneDeclared_queryItem :
    NoneDeclared queryItem "id" ∧ ¬ AllInPath queryItem "id" := by
  have hwf : queryDocument.WellFormed := by
    simp [queryDocument, queryItem, Node.WellFormed, Node.WellFormedFields, Node.WellFormedItems]
  obtain ⟨template, item, method, position, name, parameter, hitem, hpath, hresolve, hnames, _,
    hall, hnone⟩ := location_of_repeated_parameter hwf rfl mem_check_queryDocument (by decide)
  rw [Finding.toViolation, path_duplicateFinding] at hpath
  obtain ⟨rfl, rfl, rfl⟩ := repeatedPath_inj hpath
  obtain rfl := (namesRepeated_duplicateFinding_iff _ _ _ _ _ _).mp hnames
  obtain rfl : queryItem = item := Option.some.inj hitem
  have hquery : isPathParameter parameter = false := by
    obtain rfl := Option.some.inj hresolve
    decide
  refine ⟨hnone.mp hquery, fun hinPath => ?_⟩
  rw [hall.mpr hinPath] at hquery
  cases hquery

/-- Not every reported element is a path parameter. -/
theorem exists_repeated_outside_path :
    ¬ ∀ v ∈ (standard .pathParameters).check {} queryDocument,
      PathCheck.duplicate.reports v = true → ∀ parameter,
        v.path.resolve queryDocument = some parameter → isPathParameter parameter = true := by
  intro h
  have hinPath := h _ mem_check_queryDocument (by decide)
    (.object [("name", .string "id"), ("in", .string "query")]) rfl
  exact absurd hinPath (by decide)

end ApiLint.Rule
