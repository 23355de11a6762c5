import ApiLint.Proofs.Node.Reordering
import ApiLint.Proofs.Rule.MissingParameters
import ApiLint.Proofs.Rule.OutlinedParameters
set_option autoImplicit false

/-!
# Which definitions of path parameters are reported as repeated

The parameters of all operations of a path item that bear the name of a placeholder are
collected, and one that is structurally equal to another is collected once.  When a single
definition is left, any two of them are equal; then the first one of each operation is
reported, if there are two operations at least.  So the verdict is about all pairs, within
one operation and across operations, and the order of operations and keys does not matter.
-/

namespace ApiLint.Rule

/-! ## Parameters by their places -/

/-- The path from a path item to a parameter of one of its operations. -/
def parameterPath (method : String) (position : Nat) : DocPath :=
  [.key method, .key "parameters", .index position]

/-- The element at a position among the parameters of an operation bears the name. -/
structure BearsName (item : Node) (name method : String) (position : Nat) (parameter : Node) :
    Prop where
  operation : Method.isOperationKey method = true
  stands : (parameterPath method position).resolve item = some parameter
  named : parameter.get? "name" = some (.string name)

/-- The path item has at least two operations. -/
def HasTwoOperations (item : Node) : Prop :=
  ∃ method other, method ≠ other ∧
    (Method.isOperationKey method = true ∧ item.hasKey method = true) ∧
      Method.isOperationKey other = true ∧ item.hasKey other = true

/-- Every two elements of the name, in one operation or in two, are structurally equal. -/
def AgreesOn (item : Node) (name : String) : Prop :=
  ∀ method position parameter otherMethod otherPosition other,
    BearsName item name method position parameter →
      BearsName item name otherMethod otherPosition other →
        (method, position) ≠ (otherMethod, otherPosition) → parameter.same other = true

/-- The operation repeats the definition of a placeholder that all operations agree on; this is the
first position of the name among its parameters. -/
structure RepeatsAt (template : String) (item : Node) (method : String) (position : Nat)
    (name : String) : Prop where
  placeholder : name ∈ Naming.templateParameters template
  operations : HasTwoOperations item
  agrees : AgreesOn item name
  bears : ∃ parameter, BearsName item name method position parameter
  first : ∀ earlier < position, ∀ parameter, ¬ BearsName item name method earlier parameter

theorem resolve_parameterPath_iff {item parameter : Node} {method : String} {position : Nat} :
    (parameterPath method position).resolve item = some parameter ↔
      ∃ operation, item.get? method = some operation ∧
        (operation.getItems "parameters")[position]? = some parameter := by
  simp only [parameterPath, DocPath.resolve, DocPath.step?, Option.bind_eq_some_iff,
    Node.getElem?_getItems_iff, Option.some.injEq]
  constructor
  · intro h
    obtain ⟨operation, hoperation, value, hvalue, element, ⟨items, hitems, helement⟩, rfl⟩ := h
    cases value with
    | array elements =>
      obtain rfl := Option.some.inj hitems
      exact ⟨operation, hoperation, elements, hvalue, helement⟩
    | _ => cases hitems
  · intro h
    obtain ⟨operation, hoperation, items, hitems, helement⟩ := h
    exact ⟨operation, hoperation, .array items, hitems, parameter, ⟨items, rfl, helement⟩, rfl⟩

/-! ## The definitions of a name -/

/-- The elements of a name among the parameters of operations, with their places. -/
def placesOf (operations : List (String × Node)) (name : String) : List Located :=
  operations.flatMap fun entry =>
    ((entry.2.getItems "parameters").zipIdx.filter fun element =>
      parameterName? element.1 = some name).map fun element =>
        ⟨parameterPath entry.1 element.2, element.1⟩

theorem map_node_placesOf (operations : List (String × Node)) (name : String) :
    (placesOf operations name).map Located.node = declarations operations name := by
  rw [placesOf, declarations, List.map_flatMap]
  refine List.flatMap_congr fun entry _ => ?_
  rw [List.map_map, ← List.zipIdx_map_fst 0 (entry.2.getItems "parameters"), List.filter_map,
    List.zipIdx_map_fst]
  rfl

theorem mem_placesOf_iff {item : Node} (h : item.WellFormed) {name : String} {place : Located} :
    place ∈ placesOf (operations item) name ↔
      ∃ method position, place.path = parameterPath method position ∧
        BearsName item name method position place.node := by
  simp only [placesOf, List.mem_flatMap, List.mem_map, List.mem_filter, decide_eq_true_eq]
  constructor
  · intro hplace
    obtain ⟨⟨method, operation⟩, hoperation, ⟨parameter, position⟩, ⟨helement, hname⟩, rfl⟩ := hplace
    obtain ⟨hmethod, hoperation⟩ := (mem_operations_iff h).mp hoperation
    have helement := List.mem_zipIdx_iff_getElem?.mp helement
    exact ⟨method, position, rfl, hmethod,
      resolve_parameterPath_iff.mpr ⟨operation, hoperation, helement⟩,
      Node.getString?_eq_some_iff.mp hname⟩
  · intro hplace
    obtain ⟨method, position, hpath, hmethod, hstands, hname⟩ := hplace
    obtain ⟨operation, hoperation, helement⟩ := resolve_parameterPath_iff.mp hstands
    exact ⟨(method, operation), (mem_operations_iff h).mpr ⟨hmethod, hoperation⟩,
      (place.node, position), ⟨List.mem_zipIdx_iff_getElem?.mpr helement,
        Node.getString?_eq_some_iff.mpr hname⟩, by rw [← hpath]⟩

/-- The operations of a path item have distinct methods. -/
theorem nodup_methods {item : Node} (h : item.WellFormed) :
    ((operations item).map Prod.fst).Nodup :=
  h.nodup_keys.sublist (List.filter_sublist.map Prod.fst)

theorem parameterPath_inj {method other : String} {position otherPosition : Nat} :
    parameterPath method position = parameterPath other otherPosition ↔
      (method, position) = (other, otherPosition) := by
  simp [parameterPath]

theorem parameterPath_injective (method : String) :
    Function.Injective (parameterPath method) := by
  intro position other h
  exact (Prod.mk.inj (parameterPath_inj.mp h)).2

/-- No two of these elements have one place. -/
theorem nodup_map_path_placesOf {item : Node} (h : item.WellFormed) (name : String) :
    ((placesOf (operations item) name).map Located.path).Nodup := by
  rw [placesOf, List.map_flatMap, List.nodup_flatMap]
  constructor
  · intro entry _
    have hpaths := (nodup_positions (entry.2.getItems "parameters")).map
      (parameterPath_injective entry.1)
    rw [List.map_map] at hpaths ⊢
    exact hpaths.sublist (List.filter_sublist.map _)
  · apply (List.pairwise_map.mp (nodup_methods h)).imp
    intro entry other hne path hpath hother
    simp only [List.mem_map] at hpath hother
    obtain ⟨_, ⟨element, _, rfl⟩, rfl⟩ := hpath
    obtain ⟨_, ⟨_, _, rfl⟩, heq⟩ := hother
    exact hne (Prod.mk.inj (parameterPath_inj.mp heq)).1.symm

section Item

variable {item : Node} (h : item.WellFormed) (name : String)
include h

theorem placesOf_ne_nil_iff :
    placesOf (operations item) name ≠ [] ↔
      ∃ method position parameter, BearsName item name method position parameter := by
  constructor
  · intro hsome
    obtain ⟨place, hplace⟩ := List.exists_mem_of_ne_nil _ hsome
    obtain ⟨method, position, _, hbears⟩ := (mem_placesOf_iff h).mp hplace
    exact ⟨method, position, place.node, hbears⟩
  · intro hsome
    obtain ⟨method, position, parameter, hbears⟩ := hsome
    have hplace : ⟨_, parameter⟩ ∈ placesOf (operations item) name :=
      (mem_placesOf_iff h).mpr ⟨method, position, rfl, hbears⟩
    exact List.ne_nil_of_mem hplace

/-- The elements of a name are equal one by one with all later ones when every two are. -/
theorem pairwise_placesOf_iff :
    (placesOf (operations item) name).Pairwise
        (fun place other => Node.SameOutline place.node.outline other.node.outline) ↔
      AgreesOn item name := by
  have hwf : ∀ place ∈ placesOf (operations item) name, place.node.WellFormed := by
    intro place hplace
    apply wellFormed_of_mem_declarations h
    rw [← map_node_placesOf]
    exact List.mem_map_of_mem hplace
  rw [pairwise_iff_of_nodup_keys (fun _ _ hsame => hsame.symm) (nodup_map_path_placesOf h name)]
  constructor
  · intro hall method position parameter otherMethod otherPosition other hbears hother hne
    have hplace : ⟨_, parameter⟩ ∈ placesOf (operations item) name :=
      (mem_placesOf_iff h).mpr ⟨method, position, rfl, hbears⟩
    have hotherPlace : ⟨_, other⟩ ∈ placesOf (operations item) name :=
      (mem_placesOf_iff h).mpr ⟨otherMethod, otherPosition, rfl, hother⟩
    apply (Node.same_iff_outlines (hwf _ hplace) (hwf _ hotherPlace)).mpr
    exact hall _ hplace _ hotherPlace fun heq => hne (parameterPath_inj.mp heq)
  · intro hagrees place hplace other hother hne
    obtain ⟨method, position, hpath, hbears⟩ := (mem_placesOf_iff h).mp hplace
    obtain ⟨otherMethod, otherPosition, hotherPath, hotherBears⟩ := (mem_placesOf_iff h).mp hother
    apply (Node.same_iff_outlines (hwf _ hplace) (hwf _ hother)).mp
    refine hagrees _ _ _ _ _ _ hbears hotherBears fun heq => hne ?_
    rw [hpath, hotherPath, parameterPath_inj.mpr heq]

/-- There is one definition of a name when an element bears it and every two that do are equal. -/
theorem length_definitions_eq_one_iff_agreesOn :
    (definitions (operations item) name).length = 1 ↔
      (∃ method position parameter, BearsName item name method position parameter) ∧
        AgreesOn item name := by
  rw [definitions_eq_foldl, length_foldl_eq_one_iff fun _ => wellFormed_of_mem_declarations h,
    ← map_node_placesOf, List.map_map, List.pairwise_map, Ne, List.map_eq_nil_iff]
  exact and_congr (placesOf_ne_nil_iff h name) (pairwise_placesOf_iff h name)

/-- The first position of a name among the parameters of an operation. -/
theorem findIdx?_parameters_iff {method : String} {operation : Node} {position : Nat}
    (hoperation : (method, operation) ∈ operations item) :
    (operation.getItems "parameters").findIdx? (parameterName? · = some name) = some position ↔
      (∃ parameter, BearsName item name method position parameter) ∧
        ∀ earlier < position, ∀ parameter, ¬ BearsName item name method earlier parameter := by
  obtain ⟨hmethod, hget⟩ := (mem_operations_iff h).mp hoperation
  have hbears : ∀ position parameter, BearsName item name method position parameter ↔
      (operation.getItems "parameters")[position]? = some parameter ∧
        parameterName? parameter = some name := by
    intro position parameter
    constructor
    · intro hbears
      obtain ⟨other, hother, helement⟩ := resolve_parameterPath_iff.mp hbears.stands
      obtain rfl := Option.some.inj (hget.symm.trans hother)
      exact ⟨helement, Node.getString?_eq_some_iff.mpr hbears.named⟩
    · intro helement
      exact ⟨hmethod, resolve_parameterPath_iff.mpr ⟨operation, hget, helement.1⟩,
        Node.getString?_eq_some_iff.mp helement.2⟩
  simp only [hbears, findIdx?_eq_some_iff_first, decide_eq_true_eq]

/-- Two of the keys hold operations when the list of operations has two. -/
theorem two_le_length_operations_iff : 2 ≤ (operations item).length ↔ HasTwoOperations item := by
  have hmem : ∀ method, method ∈ (operations item).map Prod.fst ↔
      Method.isOperationKey method = true ∧ item.hasKey method = true := by
    intro method
    rw [Node.hasKey, Option.isSome_iff_exists, List.mem_map]
    constructor
    · intro hmethod
      obtain ⟨⟨_, operation⟩, hoperation, rfl⟩ := hmethod
      obtain ⟨hmethod, hget⟩ := (mem_operations_iff h).mp hoperation
      exact ⟨hmethod, operation, hget⟩
    · intro hmethod
      obtain ⟨hmethod, operation, hget⟩ := hmethod
      exact ⟨(method, operation), (mem_operations_iff h).mpr ⟨hmethod, hget⟩, rfl⟩
  rw [← List.length_map Prod.fst, two_le_length_iff_of_nodup (nodup_methods h)]
  simp only [hmem, HasTwoOperations]
  constructor
  · intro htwo
    obtain ⟨method, hmethod, other, hother, hne⟩ := htwo
    exact ⟨method, other, hne, hmethod, hother⟩
  · intro htwo
    obtain ⟨method, other, hne, hmethod, hother⟩ := htwo
    exact ⟨method, hmethod, other, hother, hne⟩

/-- What is repeated, said by the path item and its operations. -/
theorem mem_duplicateParameters_template_iff {template : String} {path : DocPath}
    {finding : Finding} :
    finding ∈ duplicateParameters path item (Naming.templateParameters template) ↔
      ∃ method position name, RepeatsAt template item method position name ∧
        finding = duplicateFinding path method name position := by
  simp only [mem_duplicateParameters_iff, two_le_length_operations_iff h,
    length_definitions_eq_one_iff_agreesOn h]
  constructor
  · intro hrepeated
    obtain ⟨htwo, name, hname, ⟨_, hagrees⟩, ⟨method, operation⟩, hoperation, position, hfirst, rfl⟩ :=
      hrepeated
    obtain ⟨hbears, hfirst⟩ := (findIdx?_parameters_iff h name hoperation).mp hfirst
    exact ⟨method, position, name, ⟨hname, htwo, hagrees, hbears, hfirst⟩, rfl⟩
  · intro hrepeated
    obtain ⟨method, position, name, hrepeats, rfl⟩ := hrepeated
    obtain ⟨parameter, hbears⟩ := hrepeats.bears
    obtain ⟨operation, hget, _⟩ := resolve_parameterPath_iff.mp hbears.stands
    have hoperation := (mem_operations_iff h).mpr ⟨hbears.operation, hget⟩
    exact ⟨hrepeats.operations, name, hrepeats.placeholder,
      ⟨⟨method, position, parameter, hbears⟩, hrepeats.agrees⟩, (method, operation), hoperation,
      position, (findIdx?_parameters_iff h name hoperation).mpr ⟨hrepeats.bears, hrepeats.first⟩,
      rfl⟩

end Item

/-! ## Reports -/

/-- How a repeated definition can be moved. -/
def moveSuggestion (template name : String) : String :=
  "Move parameter `" ++ name ++ "` to the `parameters` of " ++ (entryPath template).dotted

/-- The violation reports that the definition of this placeholder of the template is repeated. -/
structure NamesRepeated (template name : String) (v : Violation) : Prop where
  rule : v.rule = RuleId.pathParameters.name
  message : v.message = PathCheck.commonMessage
  suggestion : v.suggestion = some (moveSuggestion template name)

theorem namesRepeated_duplicateFinding_iff (template method name : String) (position : Nat)
    (severity : Severity) (other : String) :
    NamesRepeated template other
        ((duplicateFinding (entryPath template) method name position).toViolation .pathParameters
          severity) ↔ other = name := by
  constructor
  · intro hnames
    have hsuggestion : moveSuggestion template name = moveSuggestion template other :=
      Option.some.inj hnames.suggestion
    unfold moveSuggestion at hsuggestion
    rw [String.append_left_inj, String.append_left_inj, String.append_right_inj] at hsuggestion
    exact hsuggestion.symm
  · intro hname
    subst hname
    exact ⟨rfl, rfl, rfl⟩

theorem NamesRepeated.reports {template name : String} {v : Violation}
    (h : NamesRepeated template name v) : PathCheck.duplicate.reports v = true := by
  simp [PathCheck.reports, PathCheck.hasMessage, h.rule, h.message]

/-- The path of a parameter of an operation of an entry of the map of paths. -/
def repeatedPath (template method : String) (position : Nat) : DocPath :=
  entryPath template ++ parameterPath method position

theorem path_duplicateFinding (template method name : String) (position : Nat) :
    (duplicateFinding (entryPath template) method name position).path =
      repeatedPath template method position := by
  simp [duplicateFinding, repeatedPath, parameterPath, DocPath.keys, DocPath.child]

theorem repeatedPath_inj {template other method otherMethod : String}
    {position otherPosition : Nat}
    (h : repeatedPath template method position = repeatedPath other otherMethod otherPosition) :
    template = other ∧ method = otherMethod ∧ position = otherPosition := by
  obtain ⟨hentry, hparameter⟩ := List.append_inj h rfl
  exact ⟨entryPath_injective hentry, Prod.mk.inj (parameterPath_inj.mp hparameter)⟩

/-- A document with its fields in another order has the same violations of a check. -/
theorem perm_filter_reports_of_reordered {document other : Node} (hwf : document.WellFormed)
    (h : document.Reordered other) {rule : Rule} (hid : rule.id = .pathParameters)
    (block : RuleBlock) (check : PathCheck) :
    ((rule.check block document).filter check.reports).Perm
      ((rule.check block other).filter check.reports) := by
  have hfindings := perm_pathParameters hwf (h.wellFormed hwf) (h.outline_eq hwf)
    (block.checkLevel missingOption rule.missing).severity?
    (block.checkLevel duplicateOption rule.duplicate).severity?
  rw [Rule.check, Rule.check, gradedFindings_pathParameters hid, gradedFindings_pathParameters hid]
  exact (hfindings.map _).filter _

section WellFormed

variable {document : Node} (hwf : document.WellFormed)
variable {rule : Rule} (hid : rule.id = .pathParameters) {block : RuleBlock}
include hwf hid

/-- Every violation of the check names a placeholder, and stands where its definition is
repeated. -/
theorem exists_repeatsAt_of_reports {v : Violation} (hv : v ∈ rule.check block document)
    (hreports : PathCheck.duplicate.reports v = true) :
    checkSeverity? rule block .duplicate = some v.severity ∧
      ∃ template item method position name,
        (entryPath template).resolve document = some item ∧ item.isObject = true ∧
          v.path = repeatedPath template method position ∧
            RepeatsAt template item method position name ∧
              ∀ other, NamesRepeated template other v ↔ other = name := by
  obtain ⟨severity, hseverity, template, item, hitem, hobject, finding, hfinding, rfl⟩ :=
    (mem_check_reports_iff_exists_entry hid .duplicate v).mp ⟨hv, hreports⟩
  have hresolve := (mem_pathEntries_iff hwf).mp hitem
  obtain ⟨method, position, name, hrepeats, rfl⟩ :=
    (mem_duplicateParameters_template_iff (hwf.of_resolve hresolve)).mp hfinding
  exact ⟨hseverity, template, item, method, position, name, hresolve, hobject,
    path_duplicateFinding template method name position, hrepeats,
    namesRepeated_duplicateFinding_iff template method name position severity⟩

/-- The same for a violation that is known to be one for a placeholder at a place. -/
theorem repeatsAt_of_namesRepeated {template : String} {item : Node} {method : String}
    {position : Nat} {name : String} {v : Violation} (hv : v ∈ rule.check block document)
    (hitem : (entryPath template).resolve document = some item)
    (hpath : v.path = repeatedPath template method position)
    (hnames : NamesRepeated template name v) : RepeatsAt template item method position name := by
  obtain ⟨_, other, otherItem, _, _, _, hother, _, hplace, hrepeats, hunique⟩ :=
    exists_repeatsAt_of_reports hwf hid hv hnames.reports
  obtain ⟨rfl, rfl, rfl⟩ := repeatedPath_inj (hpath.symm.trans hplace)
  obtain rfl := Option.some.inj (hitem.symm.trans hother)
  rwa [(hunique name).mp hnames]

variable {severity : Severity}
  (hlevel : block.checkLevel duplicateOption rule.duplicate = .report severity)
include hlevel

/-- A definition is reported as repeated where it is. -/
theorem exists_namesRepeated_of_repeatsAt {template : String} {item : Node} {method : String}
    {position : Nat} {name : String}
    (hitem : (entryPath template).resolve document = some item) (hobject : item.isObject = true)
    (hrepeats : RepeatsAt template item method position name) :
    ∃ v ∈ rule.check block document,
      v.path = repeatedPath template method position ∧ NamesRepeated template name v := by
  have hfinding : duplicateFinding (entryPath template) method name position ∈
      duplicateParameters (entryPath template) item (Naming.templateParameters template) :=
    (mem_duplicateParameters_template_iff (hwf.of_resolve hitem)).mpr
      ⟨method, position, name, hrepeats, rfl⟩
  have hv := ((mem_check_reports_iff hid hwf .duplicate hlevel _).mpr
    ⟨template, item, hitem, hobject, _, hfinding, rfl⟩).1
  exact ⟨_, hv, path_duplicateFinding template method name position,
    (namesRepeated_duplicateFinding_iff template method name position severity name).mpr rfl⟩

/-- While the check is on, a parameter of an operation is reported for a placeholder exactly when
the path item has at least two operations, every two elements of the name are structurally equal,
and it is the first of them in its operation.  A violation of the check stands nowhere else, and
the order of operations and of the keys of any object does not matter. -/
theorem repeated_parameters_reported_iff :
    (∀ template item, (entryPath template).resolve document = some item →
        item.isObject = true → ∀ method position name,
          (∃ v ∈ rule.check block document,
              v.path = repeatedPath template method position ∧ NamesRepeated template name v) ↔
            RepeatsAt template item method position name) ∧
      (∀ v ∈ rule.check block document, PathCheck.duplicate.reports v = true →
        v.severity = severity ∧ ∃ template item method position name,
          (entryPath template).resolve document = some item ∧ item.isObject = true ∧
            v.path = repeatedPath template method position ∧
              RepeatsAt template item method position name ∧
                ∀ other, NamesRepeated template other v ↔ other = name) ∧
      ∀ other, document.Reordered other →
        ((rule.check block document).filter PathCheck.duplicate.reports).Perm
          ((rule.check block other).filter PathCheck.duplicate.reports) := by
  refine ⟨?_, ?_, ?_⟩
  · intro template item hitem hobject method position name
    constructor
    · intro hreported
      obtain ⟨v, hv, hpath, hnames⟩ := hreported
      exact repeatsAt_of_namesRepeated hwf hid hv hitem hpath hnames
    · exact exists_namesRepeated_of_repeatsAt hwf hid hlevel hitem hobject
  · intro v hv hreports
    obtain ⟨hseverity, hplace⟩ := exists_repeatsAt_of_reports hwf hid hv hreports
    have hon : checkSeverity? rule block .duplicate = some severity := by
      show (block.checkLevel duplicateOption rule.duplicate).severity? = some severity
      rw [hlevel, Level.severity?]
    exact ⟨Option.some.inj (hseverity.symm.trans hon), hplace⟩
  · intro other hreordered
    exact perm_filter_reports_of_reordered hwf hreordered hid block .duplicate

end WellFormed

/-- The operations of a path item: one declares the placeholder behind another parameter, one
declares it twice, with the keys in the other order, and one not at all. -/
def sharingOperations : Fields :=
  let id := Node.object [("name", .string "id"), ("in", .string "path")]
  let turnedId := Node.object [("in", .string "path"), ("name", .string "id")]
  [("get", .object [("parameters", .array [.object [("name", .string "limit")], id])]),
    ("delete", .object [("parameters", .array [turnedId, id])]),
    ("head", .object [])]

/-- A document with a path item that has these operations, in some order. -/
def sharingDocument (operations : Fields) : Node :=
  .object [("paths", .object [("/pets/{id}", .object operations)])]

/-- The placeholder is reported at its first position in the operations that declare it, and the
same is reported with the operations in the other order. -/
theorem repeatsAt_sharingOperations :
    RepeatsAt "/pets/{id}" (.object sharingOperations) "get" 1 "id" ∧
      RepeatsAt "/pets/{id}" (.object sharingOperations) "delete" 0 "id" ∧
        (((standard .pathParameters).check {} (sharingDocument sharingOperations)).filter
            PathCheck.duplicate.reports).Perm
          (((standard .pathParameters).check {} (sharingDocument sharingOperations.reverse)).filter
            PathCheck.duplicate.reports) := by
  have hwf : (sharingDocument sharingOperations).WellFormed := by
    simp [sharingDocument, sharingOperations, Node.WellFormed, Node.WellFormedFields,
      Node.WellFormedItems]
  have hlevel : RuleBlock.checkLevel {} duplicateOption (standard .pathParameters).duplicate =
      .report .warning := rfl
  have hreported : ∀ place ∈ [("get", 1), ("delete", 0)],
      (duplicateFinding (entryPath "/pets/{id}") place.1 "id" place.2).toViolation
          .pathParameters .warning ∈
        (standard .pathParameters).check {} (sharingDocument sharingOperations) := by
    decide
  have hreordered : (sharingDocument sharingOperations).Reordered
      (sharingDocument sharingOperations.reverse) :=
    .value [] "paths" [] (.value [] "/pets/{id}" [] (.fields (List.reverse_perm _).symm))
  obtain ⟨hplaces, _, horder⟩ := repeated_parameters_reported_iff hwf rfl hlevel
  have hrepeats := hplaces "/pets/{id}" (.object sharingOperations) rfl rfl
  refine ⟨(hrepeats "get" 1 "id").mp ⟨_, hreported ("get", 1) (by simp), ?_⟩,
    (hrepeats "delete" 0 "id").mp ⟨_, hreported ("delete", 0) (by simp), ?_⟩, horder _ hreordered⟩
  · exact ⟨rfl, rfl, rfl, rfl⟩
  · exact ⟨rfl, rfl, rfl, rfl⟩

end ApiLint.Rule
