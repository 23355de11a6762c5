import ApiLint.Proofs.Rule.EntryFindings
set_option autoImplicit false

/-!
# Which path parameters are reported as missing

A placeholder of a path template is declared by an operation or by the path item for all of its
operations.  It is reported at each operation that neither declares it for, or at the path item
when that has no operations at all, and the message says which placeholder it is.  An entry of
the map of paths that is no object is not looked at.
-/

namespace ApiLint.Rule

/-! ## Declarations -/

/-- Among the parameters of an operation or a path item is a path parameter of this name. -/
inductive DeclaresParameter (owner : Node) (name : String) : Prop
  | intro {parameters : List Node} {parameter : Node} {location : String}
      (hparameters : owner.get? "parameters" = some (.array parameters))
      (hparameter : parameter ∈ parameters)
      (hname : parameter.get? "name" = some (.string name))
      (hlocation : parameter.get? "in" = some (.string location))
      (hpath : Text.equalIgnoringAsciiCase location "path" = true)

theorem isPathParameter_iff (parameter : Node) :
    isPathParameter parameter = true ↔
      ∃ location, parameter.get? "in" = some (.string location) ∧
        Text.equalIgnoringAsciiCase location "path" = true := by
  simp only [← Node.getString?_eq_some_iff, isPathParameter]
  cases parameter.getString? "in" with
  | none => simp
  | some location => simp

theorem mem_declaredNames_iff (owner : Node) (name : String) :
    name ∈ declaredNames owner ↔ DeclaresParameter owner name := by
  rw [declaredNames, List.mem_filterMap]
  constructor
  · rintro ⟨parameter, hmem, hname⟩
    obtain ⟨hparameter, hpath⟩ := List.mem_filter.mp hmem
    obtain ⟨parameters, hparameters, hparameter⟩ := Node.mem_getItems_iff.mp hparameter
    obtain ⟨location, hlocation, hpath⟩ := (isPathParameter_iff parameter).mp hpath
    exact .intro hparameters hparameter (Node.getString?_eq_some_iff.mp hname) hlocation hpath
  · rintro ⟨hparameters, hparameter, hname, hlocation, hpath⟩
    have hmem := Node.mem_getItems_iff.mpr ⟨_, hparameters, hparameter⟩
    have hpath := (isPathParameter_iff _).mpr ⟨_, hlocation, hpath⟩
    exact ⟨_, List.mem_filter.mpr ⟨hmem, hpath⟩, Node.getString?_eq_some_iff.mpr hname⟩

/-- The placeholder is one of the template, and the operation has to declare it: it is not
excluded, and neither it nor the path item does. -/
structure MissesOnOperation (template : String) (item : Node) (method name : String) : Prop where
  placeholder : name ∈ Naming.templateParameters template
  operation : Method.isOperationKey method = true ∧ ∃ operation,
    item.get? method = some operation ∧ Schema.isSdkExcluded operation = false ∧
      ¬ DeclaresParameter operation name
  shared : ¬ DeclaresParameter item name

/-- The placeholder is one of the template, and the path item, without any operations, does not
declare it. -/
structure MissesOnItem (template : String) (item : Node) (name : String) : Prop where
  placeholder : name ∈ Naming.templateParameters template
  operations : ∀ method, Method.isOperationKey method = true → item.hasKey method = false
  shared : ¬ DeclaresParameter item name

/-! ## Messages -/

/-- The violation reports that this path parameter is missing. -/
structure NamesMissing (name : String) (v : Violation) : Prop where
  rule : v.rule = RuleId.pathParameters.name
  message : ∃ opening ∈ PathCheck.missingOpenings, v.message = opening ++ name ++ "."

theorem eq_of_prefix_missingOpenings : ∀ opening ∈ PathCheck.missingOpenings,
    ∀ other ∈ PathCheck.missingOpenings, opening.toList <+: other.toList → opening = other := by
  decide

/-- A message tells how it begins and which parameter it names. -/
theorem eq_of_message_eq {opening other name otherName : String}
    (hopening : opening ∈ PathCheck.missingOpenings) (hother : other ∈ PathCheck.missingOpenings)
    (h : opening ++ name ++ "." = other ++ otherName ++ ".") : name = otherName := by
  have hlists := congrArg String.toList h
  simp only [String.toList_append, List.append_assoc] at hlists
  have hstart : opening.toList <+: other.toList ++ (otherName.toList ++ ".".toList) :=
    ⟨_, hlists⟩
  -- both begin the same message, so one of them begins the other
  obtain rfl : opening = other := by
    rcases List.prefix_or_prefix_of_prefix hstart (List.prefix_append _ _) with hprefix | hprefix
    · exact eq_of_prefix_missingOpenings opening hopening other hother hprefix
    · exact (eq_of_prefix_missingOpenings other hother opening hopening hprefix).symm
  exact String.toList_injective (List.append_cancel_right (List.append_cancel_left hlists))

/-- A finding whose message names a parameter names only that one. -/
theorem namesMissing_iff {finding : Finding} {opening name : String}
    (hopening : opening ∈ PathCheck.missingOpenings)
    (hmessage : finding.message = opening ++ name ++ ".") (severity : Severity) (other : String) :
    NamesMissing other (finding.toViolation .pathParameters severity) ↔ other = name := by
  constructor
  · rintro ⟨_, otherOpening, hother, heq⟩
    exact eq_of_message_eq hother hopening (heq.symm.trans hmessage)
  · rintro rfl
    exact ⟨rfl, opening, hopening, hmessage⟩

theorem namesMissing_missingOnItem_iff (path : DocPath) (name : String) (severity : Severity)
    (other : String) :
    NamesMissing other ((missingOnItem path name).toViolation .pathParameters severity) ↔
      other = name :=
  namesMissing_iff List.mem_cons_self rfl severity other

theorem namesMissing_missingOnOperation_iff (path : DocPath) (name : String) (severity : Severity)
    (other : String) :
    NamesMissing other ((missingOnOperation path name).toViolation .pathParameters severity) ↔
      other = name :=
  namesMissing_iff (List.mem_cons_of_mem _ List.mem_cons_self) rfl severity other

theorem NamesMissing.reports {name : String} {v : Violation} (h : NamesMissing name v) :
    PathCheck.missing.reports v = true := by
  obtain ⟨opening, hopening, hmessage⟩ := h.message
  rw [PathCheck.reports, h.rule, hmessage, String.append_assoc,
    hasMessage_of_opening .missing hopening]
  rfl

/-! ## Operations -/

section Item

variable {item : Node} (h : item.WellFormed)
include h

theorem mem_operations_iff {method : String} {operation : Node} :
    (method, operation) ∈ operations item ↔
      Method.isOperationKey method = true ∧ item.get? method = some operation := by
  rw [operations, List.mem_filter, h.mem_fields_iff, and_comm]

theorem operations_eq_nil_iff :
    operations item = [] ↔
      ∀ method, Method.isOperationKey method = true → item.hasKey method = false := by
  rw [List.eq_nil_iff_forall_not_mem]
  constructor
  · intro hnone method hmethod
    rw [Node.hasKey, Option.isSome_eq_false_iff, Option.isNone_iff_eq_none]
    by_contra hkey
    obtain ⟨operation, hoperation⟩ := Option.ne_none_iff_exists'.mp hkey
    exact hnone _ ((mem_operations_iff h).mpr ⟨hmethod, hoperation⟩)
  · rintro hnone ⟨method, operation⟩ hmem
    obtain ⟨hmethod, hoperation⟩ := (mem_operations_iff h).mp hmem
    simpa [Node.hasKey, hoperation] using hnone method hmethod

/-- What is missing, said by the path item and its operations. -/
theorem mem_missingParameters_template_iff {template : String} {path : DocPath}
    {finding : Finding} :
    finding ∈ missingParameters path item (Naming.templateParameters template) ↔
      (∃ name, MissesOnItem template item name ∧ finding = missingOnItem path name) ∨
        ∃ method name, MissesOnOperation template item method name ∧
          finding = missingOnOperation (path.child (.key method)) name := by
  rw [mem_missingParameters_iff, operations_eq_nil_iff h]
  simp only [mem_declaredNames_iff]
  constructor
  · rintro (⟨hoperations, name, hname, hshared, heq⟩ |
      ⟨⟨method, operation⟩, hmem, hincluded, name, hname, ⟨hdeclares, hshared⟩, heq⟩)
    · exact .inl ⟨name, ⟨hname, hoperations, hshared⟩, heq⟩
    · obtain ⟨hmethod, hoperation⟩ := (mem_operations_iff h).mp hmem
      exact .inr ⟨method, name, ⟨hname, ⟨hmethod, operation, hoperation, hincluded, hdeclares⟩,
        hshared⟩, heq⟩
  · rintro (⟨name, ⟨hname, hoperations, hshared⟩, heq⟩ |
      ⟨method, name, ⟨hname, ⟨hmethod, operation, hoperation, hincluded, hdeclares⟩, hshared⟩,
        heq⟩)
    · exact .inl ⟨hoperations, name, hname, hshared, heq⟩
    · exact .inr ⟨(method, operation), (mem_operations_iff h).mpr ⟨hmethod, hoperation⟩, hincluded,
        name, hname, ⟨hdeclares, hshared⟩, heq⟩

end Item

/-! ## The places of reports -/

/-- Where a path parameter is missing: at an entry of the map of paths that is an object, or at
an operation of it. -/
inductive MissingPlace (document : Node) (name : String) : DocPath → Prop
  | onItem {template : String} {item : Node}
      (hitem : (entryPath template).resolve document = some item) (hobject : item.isObject = true)
      (hmisses : MissesOnItem template item name) :
      MissingPlace document name (entryPath template)
  | onOperation {template method : String} {item : Node}
      (hitem : (entryPath template).resolve document = some item) (hobject : item.isObject = true)
      (hmisses : MissesOnOperation template item method name) :
      MissingPlace document name ((entryPath template).child (.key method))

theorem entryPath_ne_child (template other method : String) :
    entryPath template ≠ (entryPath other).child (.key method) := by
  intro h
  simpa [entryPath, DocPath.keys, DocPath.child] using congrArg List.length h

theorem entryPath_injective : entryPath.Injective := by
  intro template other h
  simpa [entryPath, DocPath.keys] using h

theorem missingPlace_entryPath_iff {document item : Node} {template : String}
    (hitem : (entryPath template).resolve document = some item) (hobject : item.isObject = true)
    (name : String) :
    MissingPlace document name (entryPath template) ↔ MissesOnItem template item name := by
  constructor
  · generalize hpath : entryPath template = path
    intro hplace
    cases hplace with
    | onItem hother _ hmisses =>
      obtain rfl := entryPath_injective hpath
      obtain rfl := Option.some.inj (hitem.symm.trans hother)
      exact hmisses
    | onOperation => exact absurd hpath (entryPath_ne_child _ _ _)
  · exact .onItem hitem hobject

theorem missingPlace_child_iff {document item : Node} {template : String}
    (hitem : (entryPath template).resolve document = some item) (hobject : item.isObject = true)
    (method name : String) :
    MissingPlace document name ((entryPath template).child (.key method)) ↔
      MissesOnOperation template item method name := by
  constructor
  · generalize hpath : (entryPath template).child (.key method) = path
    intro hplace
    cases hplace with
    | onItem => exact absurd hpath.symm (entryPath_ne_child _ _ _)
    | onOperation hother _ hmisses =>
      obtain ⟨htemplate, hmethod⟩ := List.append_inj' hpath rfl
      obtain rfl := entryPath_injective htemplate
      obtain rfl := Option.some.inj (hitem.symm.trans hother)
      obtain rfl : method = _ := by simpa using hmethod
      exact hmisses
  · exact .onOperation hitem hobject

section WellFormed

variable {document : Node} (hwf : document.WellFormed)
variable {rule : Rule} (hid : rule.id = .pathParameters) {block : RuleBlock} {severity : Severity}
  (hlevel : block.checkLevel missingOption rule.missing = .report severity)
include hwf hid hlevel

/-- Every violation of the check names a parameter, and stands where this one is missing. -/
theorem exists_missingPlace_of_reports {v : Violation} (hv : v ∈ rule.check block document)
    (hreports : PathCheck.missing.reports v = true) :
    v.severity = severity ∧ ∃ name, MissingPlace document name v.path ∧
      ∀ other, NamesMissing other v ↔ other = name := by
  obtain ⟨template, item, hitem, hobject, finding, hfinding, rfl⟩ :=
    (mem_check_reports_iff hid hwf .missing hlevel v).mp ⟨hv, hreports⟩
  obtain ⟨name, hmisses, rfl⟩ | ⟨method, name, hmisses, rfl⟩ :=
    (mem_missingParameters_template_iff (hwf.of_resolve hitem)).mp hfinding
  · exact ⟨rfl, name, .onItem hitem hobject hmisses, namesMissing_missingOnItem_iff _ name severity⟩
  · exact ⟨rfl, name, .onOperation hitem hobject hmisses,
      namesMissing_missingOnOperation_iff _ name severity⟩

/-- A parameter is reported as missing where it is. -/
theorem exists_namesMissing_iff (name : String) (path : DocPath) :
    (∃ v ∈ rule.check block document, v.path = path ∧ NamesMissing name v) ↔
      MissingPlace document name path := by
  constructor
  · rintro ⟨v, hv, rfl, hnames⟩
    obtain ⟨_, other, hplace, hother⟩ :=
      exists_missingPlace_of_reports hwf hid hlevel hv hnames.reports
    rwa [(hother name).mp hnames]
  · have hreported : ∀ {template : String} {item : Node} {finding : Finding},
        (entryPath template).resolve document = some item → item.isObject = true →
        finding ∈ missingParameters (entryPath template) item (Naming.templateParameters template) →
          finding.toViolation .pathParameters severity ∈ rule.check block document :=
      fun hitem hobject hfinding => ((mem_check_reports_iff hid hwf .missing hlevel _).mpr
        ⟨_, _, hitem, hobject, _, hfinding, rfl⟩).1
    intro hplace
    cases hplace with
    | @onItem template item hitem hobject hmisses =>
      have hfinding : missingOnItem (entryPath template) name ∈
          missingParameters (entryPath template) item (Naming.templateParameters template) :=
        (mem_missingParameters_template_iff (hwf.of_resolve hitem)).mpr (.inl ⟨name, hmisses, rfl⟩)
      exact ⟨_, hreported hitem hobject hfinding, rfl,
        (namesMissing_missingOnItem_iff _ name severity name).mpr rfl⟩
    | @onOperation template method item hitem hobject hmisses =>
      have hfinding : missingOnOperation ((entryPath template).child (.key method)) name ∈
          missingParameters (entryPath template) item (Naming.templateParameters template) :=
        (mem_missingParameters_template_iff (hwf.of_resolve hitem)).mpr
          (.inr ⟨method, name, hmisses, rfl⟩)
      exact ⟨_, hreported hitem hobject hfinding, rfl,
        (namesMissing_missingOnOperation_iff _ name severity name).mpr rfl⟩

/-- While the check is on, a placeholder is reported at an operation exactly when the operation is
not excluded and neither it nor the path item declares it, and at the path item exactly when there
are no operations and it does not declare it.  A violation of the check stands nowhere else. -/
theorem missing_parameters_reported_iff :
    (∀ template item, (entryPath template).resolve document = some item →
        item.isObject = true →
          (∀ method name,
            (∃ v ∈ rule.check block document,
                v.path = (entryPath template).child (.key method) ∧ NamesMissing name v) ↔
              MissesOnOperation template item method name) ∧
          ∀ name,
            (∃ v ∈ rule.check block document, v.path = entryPath template ∧ NamesMissing name v) ↔
              MissesOnItem template item name) ∧
      ∀ v ∈ rule.check block document, PathCheck.missing.reports v = true →
        v.severity = severity ∧ ∃ name, MissingPlace document name v.path ∧
          ∀ other, NamesMissing other v ↔ other = name := by
  constructor
  · intro template item hitem hobject
    constructor
    · intro method name
      rw [exists_namesMissing_iff hwf hid hlevel, missingPlace_child_iff hitem hobject]
    · intro name
      rw [exists_namesMissing_iff hwf hid hlevel, missingPlace_entryPath_iff hitem hobject]
  · intro v hv hreports
    exact exists_missingPlace_of_reports hwf hid hlevel hv hreports

end WellFormed

/-- A path item with an operation that declares its placeholder, an excluded one and another. -/
def petItem : Node :=
  .object [
    ("get", .object [("parameters", .array [
      .object [("name", .string "id"), ("in", .string "Path")]])]),
    ("put", .object [("x-sdk-exclude", .bool true)]),
    ("post", .object [])]

/-- A document with that path item and with an empty one. -/
def undeclaredDocument : Node :=
  .object [("paths", .object [("/pets/\x7bid\x7d", petItem), ("/owners/\x7bid\x7d", .object [])])]

/-- The placeholder is reported at the third operation and at the empty path item, and not at the
first two operations. -/
theorem reports_undeclaredDocument :
    (∃ v ∈ (standard .pathParameters).check {} undeclaredDocument,
        v.path = (entryPath "/pets/\x7bid\x7d").child (.key "post") ∧ NamesMissing "id" v) ∧
      (∃ v ∈ (standard .pathParameters).check {} undeclaredDocument,
        v.path = entryPath "/owners/\x7bid\x7d" ∧ NamesMissing "id" v) ∧
      ∀ method ∈ ["get", "put"], ∀ v ∈ (standard .pathParameters).check {} undeclaredDocument,
        v.path = (entryPath "/pets/\x7bid\x7d").child (.key method) → ¬ NamesMissing "id" v := by
  have hwf : undeclaredDocument.WellFormed := by
    simp [undeclaredDocument, petItem, Node.WellFormed, Node.WellFormedFields,
      Node.WellFormedItems]
  have hlevel : RuleBlock.checkLevel {} missingOption (standard .pathParameters).missing =
      .report .error := rfl
  have hplaceholder : ∀ template ∈ ["/pets/\x7bid\x7d", "/owners/\x7bid\x7d"],
      "id" ∈ Naming.templateParameters template := by decide +kernel
  have hundeclared : ∀ owner ∈ [petItem, .object []], ¬ DeclaresParameter owner "id" := by
    simp only [← mem_declaredNames_iff]
    decide +kernel
  have hentries := (missing_parameters_reported_iff hwf rfl hlevel).1
  obtain ⟨hpets, _⟩ := hentries "/pets/\x7bid\x7d" petItem rfl rfl
  obtain ⟨_, howners⟩ := hentries "/owners/\x7bid\x7d" (.object []) rfl rfl
  refine ⟨(hpets "post" "id").mpr ?_, (howners "id").mpr ?_, ?_⟩
  · exact ⟨hplaceholder _ (by simp), ⟨rfl, _, rfl, rfl, hundeclared _ (by simp)⟩,
      hundeclared _ (by simp)⟩
  · exact ⟨hplaceholder _ (by simp), fun _ _ => rfl, hundeclared _ (by simp)⟩
  · intro method hmethod v hv hpath hnames
    obtain ⟨_, ⟨_, operation, hoperation, hincluded, hdeclares⟩, _⟩ :=
      (hpets method "id").mp ⟨v, hv, hpath, hnames⟩
    obtain rfl | rfl : method = "get" ∨ method = "put" := by simpa using hmethod
    · cases hoperation
      exact hdeclares ((mem_declaredNames_iff _ _).mp (by decide +kernel))
    · cases hoperation
      exact absurd hincluded (by decide)

end ApiLint.Rule
