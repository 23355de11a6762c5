import ApiLint.Proofs.Rule.FindingPaths
import ApiLint.Proofs.Schema.Role
set_option autoImplicit false

/-!
# Reports on vendor extensions among the paths

The rule on path segments passes over the keys of the map of paths that are vendor
extensions, for they are no paths.  No other rule asks: whatever stands in the map of paths
is taken for a path item.  So a report at an extension or below it is due to something that
a path item would have: an operation, a list of parameters, or a placeholder in its key.  An
extension with none of these has no report, but for scripts in descriptions.
-/

namespace ApiLint.Rule

open Schema (Role)

/-- The path of an entry of the map of paths. -/
def entryPath (key : String) : DocPath := DocPath.keys [] ["paths", key]

/-- The rules that report on the schemas of a document. -/
def schemaRules : List RuleId := [.propertyCase, .requiredPropertyMissing, .stringBoundary]

/-- A report of a rule that takes an entry of the map of paths for a path item. -/
inductive ReportedAsItem (key : String) (item : Node) (id : RuleId) (path : DocPath) : Prop
  /-- at the entry, for a placeholder of its key that it does not declare -/
  | placeholder {name : String} (hid : id = .pathParameters) (hpath : path = entryPath key)
      (hobject : item.isObject = true) (hname : name ∈ Naming.templateParameters key)
      (hundeclared : name ∉ declaredNames item)
  /-- at an operation of the entry or below it -/
  | operation {method : String} (hmethod : Method.isOperationKey method = true)
      (hitem : item.hasKey method = true) (hpath : (entryPath key).child (.key method) <+: path)
  /-- on a schema among the parameters of the entry -/
  | parameters (hid : id ∈ schemaRules) (hitem : item.hasKey "parameters" = true)
      (hpath : (entryPath key).child (.key "parameters") <+: path)

variable {document : Node}

/-! ## Entries of the map of paths -/

theorem eq_of_prefix_entryPath {key other : String} {path : DocPath}
    (h : entryPath key <+: path) (hother : entryPath other <+: path) : key = other := by
  rcases List.prefix_or_prefix_of_prefix h hother with hprefix | hprefix <;>
    simp_all [entryPath, DocPath.keys]

/-- What stands below an entry stands below a key of its node. -/
theorem exists_item_of_prefix {key name : String} {path : DocPath}
    (hpath : (entryPath key).child (.key name) <+: path)
    (h : ∃ node, path.resolve document = some node) :
    ∃ item, (entryPath key).resolve document = some item ∧ item.hasKey name = true := by
  obtain ⟨node, hnode⟩ := h
  obtain ⟨value, hvalue⟩ := DocPath.exists_resolve_on_way hpath hnode
  rw [DocPath.resolve_child] at hvalue
  obtain ⟨item, hitem, hstep⟩ := Option.bind_eq_some_iff.mp hvalue
  exact ⟨item, hitem, Option.isSome_iff_exists.mpr ⟨value, hstep⟩⟩

/-! ## Places that reports are made for -/

/-- The roles of the places that rules report for: schemas, for the rules on them, and operations
and maps of responses. -/
def ReportsFor (id : RuleId) (role : Role) : Prop :=
  id ∈ schemaRules ∧ role = .schema ∨
    ∃ kind, role = .kind kind ∧ (kind.isOperation || kind.isResponses) = true

/-- The map of paths, what stands above it and its entries are no such places. -/
theorem not_reportsFor_of_prefix_entryPath {id : RuleId} {key : String} {place : DocPath}
    (h : place <+: entryPath key) : ¬ ReportsFor id (Role.of place) := by
  have hplace : place = [] ∨ ∃ rest, place = .key "paths" :: rest ∧
      (rest = [] ∨ rest = [.key key]) := by
    simpa [entryPath, DocPath.keys, List.prefix_cons_iff] using h
  have hrole : ∃ kind, Role.of place = .kind kind ∧
      (kind.isOperation || kind.isResponses) = false := by
    rcases hplace with rfl | ⟨_, rfl, rfl | rfl⟩
    · exact ⟨.root, rfl, rfl⟩
    · exact ⟨.paths, rfl, rfl⟩
    · exact ⟨.pathItem, rfl, rfl⟩
  obtain ⟨kind, hkind, hnone⟩ := hrole
  rintro (⟨_, hschema⟩ | ⟨known, hknown, hreports⟩)
  · exact absurd (hkind.symm.trans hschema) (by simp)
  · obtain rfl := Role.kind.inj (hkind.symm.trans hknown)
    exact absurd (hnone.symm.trans hreports) (by simp)

/-- A report for such a place that stands below an entry takes the entry for a path item. -/
theorem reportedAsItem_of_reportsFor {id : RuleId} {key : String} {place path : DocPath}
    (hrole : ReportsFor id (Role.of place)) (hplace : place <+: path)
    (hbelow : entryPath key <+: path) (h : ∃ node, path.resolve document = some node) :
    ∃ item, (entryPath key).resolve document = some item ∧ ReportedAsItem key item id path := by
  obtain habove | ⟨rest, rfl⟩ := List.prefix_or_prefix_of_prefix hplace hbelow
  · exact absurd hrole (not_reportsFor_of_prefix_entryPath habove)
  · -- the place is below the entry, and the first step to it says what the entry is taken for
    have hitem : Role.of (entryPath key) = .kind .pathItem := rfl
    have hrest : rest ≠ [] := by
      rintro rfl
      rw [List.append_nil] at hrole
      exact not_reportsFor_of_prefix_entryPath (List.prefix_refl (entryPath key)) hrole
    have hchild : ∀ {name after}, rest = .key name :: after →
        (entryPath key).child (.key name) <+: path := by
      rintro name after rfl
      rw [← DocPath.child_append] at hplace
      exact (List.prefix_append _ _).trans hplace
    rcases hrole with ⟨hid, hschema⟩ | ⟨kind, hkind, _⟩
    · obtain ⟨name, after, hname, hoperation | rfl⟩ :=
        Role.exists_key_below_item hitem hrest (by rw [hschema]; simp)
      · obtain ⟨item, hresolve, hkey⟩ := exists_item_of_prefix (hchild hname) h
        exact ⟨item, hresolve, .operation hoperation hkey (hchild hname)⟩
      · obtain ⟨item, hresolve, hkey⟩ := exists_item_of_prefix (hchild hname) h
        exact ⟨item, hresolve, .parameters hid hkey (hchild hname)⟩
    · obtain ⟨name, after, hname, hoperation⟩ :=
        Role.exists_operationKey_below_item hitem hrest hkind
      obtain ⟨item, hresolve, hkey⟩ := exists_item_of_prefix (hchild hname) h
      exact ⟨item, hresolve, .operation hoperation hkey (hchild hname)⟩

section WellFormed

variable (hwf : document.WellFormed)
include hwf

/-- A rule on schemas reports for a schema. -/
theorem exists_reportsFor_of_mem_schemas {id : RuleId} (hid : id ∈ schemaRules)
    {report : Located → List Finding} (hreport : ∀ schema, StandBelow schema.path (report schema))
    {finding : Finding} (h : finding ∈ (Schema.all document).flatMap report) :
    ∃ place, ReportsFor id (Role.of place) ∧ place <+: finding.path := by
  obtain ⟨schema, hschema, hfinding⟩ := List.mem_flatMap.mp h
  obtain ⟨_, root, hroot, hnested⟩ := (Schema.mem_all_iff hwf schema).mp hschema
  exact ⟨schema.path, .inl ⟨hid, hnested.role hroot.role⟩, hreport schema finding hfinding⟩

/-- A rule that reports only where operations or responses are visited reports for these. -/
theorem exists_reportsFor_of_mem_visits {id : RuleId} {report : Visit → List Finding}
    (hreport : ∀ v : Visit, StandBelow v.path (report v))
    (hkind : ∀ v : Visit, (v.kind.isOperation || v.kind.isResponses) = false → report v = [])
    {finding : Finding} (h : finding ∈ (walkDocument document).flatMap report) :
    ∃ place, ReportsFor id (Role.of place) ∧ place <+: finding.path := by
  obtain ⟨v, hv, hfinding⟩ := List.mem_flatMap.mp h
  obtain ⟨place, _, rfl⟩ := (mem_walkDocument_iff hwf v).mp hv
  have hreports : ((NodeKind.of place.path).isOperation ||
      (NodeKind.of place.path).isResponses) = true := by
    by_contra hnone
    rw [hkind place.visit (Bool.eq_false_iff.mpr hnone)] at hfinding
    exact List.not_mem_nil hfinding
  have hother : NodeKind.of place.path ≠ .other := by
    intro hother
    rw [hother] at hreports
    exact absurd hreports (by decide)
  exact ⟨place.path, .inr ⟨_, Role.of_eq_kind hother, hreports⟩,
    hreport place.visit finding hfinding⟩

/-- All rules but four report for schemas, operations or maps of responses. -/
theorem exists_reportsFor_of_mem_findings {id : RuleId}
    (hid : id ∉ [.pathParameters, .pathSegmentCase, .openapiTags, .noScriptTags])
    {finding : Finding} (h : finding ∈ findingsOf id document) :
    ∃ place, ReportsFor id (Role.of place) ∧ place <+: finding.path := by
  cases id with
  | pathParameters | pathSegmentCase | openapiTags | noScriptTags => simp at hid
  | inlineResponseSchema =>
    refine exists_reportsFor_of_mem_visits hwf standBelow_inlineAt (fun v hv => ?_) h
    simp [inlineAt, (Bool.or_eq_false_iff.mp hv).2]
  | errorResponseSchema =>
    refine exists_reportsFor_of_mem_visits hwf standBelow_errorAt (fun v hv => if_neg ?_) h
    intro hkind
    rw [hkind] at hv
    exact absurd hv (by decide)
  | operationTags =>
    rw [findingsOf, operationTags_eq] at h
    refine exists_reportsFor_of_mem_visits hwf standBelow_untaggedAt (fun v hv => ?_) h
    simp [untaggedAt, isUntaggedOperation, (Bool.or_eq_false_iff.mp hv).1]
  | operationTagDefined =>
    refine exists_reportsFor_of_mem_visits hwf (standBelow_undefinedTagsAt _) (fun v hv => ?_) h
    simp [undefinedTagsAt, (Bool.or_eq_false_iff.mp hv).1]
  | propertyCase =>
    exact exists_reportsFor_of_mem_schemas hwf (by decide) standBelow_misnamedProperties h
  | requiredPropertyMissing =>
    exact exists_reportsFor_of_mem_schemas hwf (by decide) standBelow_undefinedRequired h
  | stringBoundary =>
    rw [findingsOf, stringBoundary_eq] at h
    exact exists_reportsFor_of_mem_schemas hwf (by decide) standBelow_unboundedAt h

/-! ## Rules on the entries -/

/-- The rule on path parameters takes every entry for a path item. -/
theorem reportedAsItem_of_mem_pathParameters {missing duplicate : Option Severity} {key : String}
    {entry : Severity × Finding} (h : entry ∈ pathParameters missing duplicate document)
    (hbelow : entryPath key <+: entry.2.path) :
    ∃ item, (entryPath key).resolve document = some item ∧
      ReportedAsItem key item .pathParameters entry.2.path := by
  have hstands := standsIn_pathParameters hwf missing duplicate entry h
  obtain ⟨⟨template, item⟩, hitem, h⟩ := List.mem_flatMap.mp h
  obtain rfl := eq_of_prefix_entryPath hbelow (prefix_of_mem_pathParametersAt h)
  have hoperation : ∀ operation ∈ operations item,
      (entryPath key).child (.key operation.1) <+: entry.2.path →
        ∃ item, (entryPath key).resolve document = some item ∧
          ReportedAsItem key item .pathParameters entry.2.path := by
    intro operation hmem hprefix
    obtain ⟨item, hresolve, hkey⟩ := exists_item_of_prefix hprefix hstands
    exact ⟨item, hresolve, .operation (List.mem_filter.mp hmem).2 hkey hprefix⟩
  obtain ⟨hobject, ⟨_, hmissing⟩ | ⟨_, hduplicate⟩⟩ := exists_of_mem_pathParametersAt h
  · obtain ⟨name, ⟨hname, hundeclared⟩, heq | ⟨operation, hmem, heq⟩⟩ :=
      exists_of_mem_missingParameters hmissing
    · have hpath : entry.2.path = entryPath key := by
        rw [heq]
        rfl
      exact ⟨item, standsIn_template hwf hitem, .placeholder rfl hpath hobject hname hundeclared⟩
    · refine hoperation operation hmem ?_
      rw [heq]
      exact List.prefix_refl _
  · obtain ⟨name, operation, hmem, position, _, heq⟩ :=
      exists_of_mem_duplicateParameters hduplicate
    refine hoperation operation hmem ?_
    rw [heq, duplicateFinding, ← entryPath, DocPath.keys_cons]
    exact (DocPath.prefix_keys _ _).trans (DocPath.prefix_child _ _)

omit hwf in
/-- The rule on path segments does not report at extensions. -/
theorem not_prefix_of_mem_pathSegmentCase {key : String} (hkey : isExtensionKey key = true)
    {finding : Finding} (h : finding ∈ pathSegmentCase document) :
    ¬ entryPath key <+: finding.path := by
  intro hbelow
  obtain ⟨⟨template, item⟩, _, hpath, segment, _, _, rfl⟩ := mem_pathSegmentCase_iff.mp h
  obtain rfl := eq_of_prefix_entryPath hbelow (List.prefix_refl (entryPath template))
  exact absurd (hkey.symm.trans hpath) (by simp)

omit hwf in
theorem not_prefix_of_mem_openapiTags {key : String} {finding : Finding}
    (h : finding ∈ openapiTags document) : ¬ entryPath key <+: finding.path := by
  unfold openapiTags at h
  split at h
  · exact absurd h List.not_mem_nil
  · split at h <;>
      simp [List.mem_singleton.mp h, globalTagsFinding, entryPath, DocPath.keys]

/-- The rule on path segments reports nothing at an extension or below it.  All other rules, but
for that on descriptions, report there only on what makes it look like a path item. -/
theorem reportedAsItem_of_mem_check {key : String} (hkey : isExtensionKey key = true)
    {rule : Rule} (hid : rule.id ≠ .noScriptTags) {block : RuleBlock} {v : Violation}
    (hv : v ∈ rule.check block document) (hbelow : entryPath key <+: v.path) :
    rule.id ≠ .pathSegmentCase ∧
      ∃ item, (entryPath key).resolve document = some item ∧
        ReportedAsItem key item rule.id v.path := by
  have hstands := exists_resolve_of_mem_check hwf hv
  obtain ⟨entry, hentry, rfl⟩ := List.mem_map.mp hv
  by_cases hparameters : rule.id = .pathParameters
  · rw [gradedFindings_pathParameters hparameters] at hentry
    rw [hparameters]
    exact ⟨by decide, reportedAsItem_of_mem_pathParameters hwf hentry hbelow⟩
  · rw [gradedFindings_of_ne hparameters] at hentry
    obtain ⟨finding, hfinding, rfl⟩ := List.mem_map.mp hentry
    have hsegments : rule.id ≠ .pathSegmentCase := by
      intro heq
      rw [heq] at hfinding
      exact not_prefix_of_mem_pathSegmentCase hkey hfinding hbelow
    have htags : rule.id ≠ .openapiTags := by
      intro heq
      rw [heq] at hfinding
      exact not_prefix_of_mem_openapiTags hfinding hbelow
    obtain ⟨place, hrole, hplace⟩ :=
      exists_reportsFor_of_mem_findings hwf (by simp [hparameters, hsegments, htags, hid]) hfinding
    exact ⟨hsegments, reportedAsItem_of_reportsFor hrole hplace hbelow hstands⟩

end WellFormed

/-- A document with an extension among its paths that looks like a path item. -/
def extensionDocument : Node :=
  .object [("paths", .object [("x-internalPaths", .object [("get", .object [])])])]

theorem check_extensionDocument :
    ((standard .operationTags).check {} extensionDocument).map Violation.path =
      [(entryPath "x-internalPaths").child (.key "get")] := by
  decide

/-- Its operation is reported for having no tags: the extension has the key of a method. -/
theorem exists_reported_internalPaths :
    ∃ v ∈ (standard .operationTags).check {} extensionDocument,
      ∃ item, (entryPath "x-internalPaths").resolve extensionDocument = some item ∧
        ∃ method, Method.isOperationKey method = true ∧ item.hasKey method = true ∧
          (entryPath "x-internalPaths").child (.key method) <+: v.path := by
  have hwf : extensionDocument.WellFormed := by
    simp [extensionDocument, Node.WellFormed, Node.WellFormedFields]
  obtain ⟨v, hv, hpath⟩ := List.mem_map.mp (check_extensionDocument ▸ List.mem_cons_self)
  have hbelow : entryPath "x-internalPaths" <+: v.path := hpath ▸ DocPath.prefix_child _ _
  have hkey : isExtensionKey "x-internalPaths" = true := by decide
  obtain ⟨_, item, hitem, hreported⟩ :=
    reportedAsItem_of_mem_check hwf hkey (by decide) hv hbelow
  refine ⟨v, hv, item, hitem, ?_⟩
  cases hreported with
  | placeholder hid => exact absurd hid (by decide)
  | operation hmethod hkey hbelow => exact ⟨_, hmethod, hkey, hbelow⟩
  | parameters hid => exact absurd hid (by decide)

/-- So the rules do not agree that extensions are no paths. -/
theorem exists_reported_extension :
    ¬ ∀ (rule : Rule) (key : String), rule.id ≠ .noScriptTags → isExtensionKey key = true →
      ∀ v ∈ rule.check {} extensionDocument, ¬ entryPath key <+: v.path := by
  intro h
  obtain ⟨v, hv, hpath⟩ := List.mem_map.mp (check_extensionDocument ▸ List.mem_cons_self)
  refine h (standard .operationTags) "x-internalPaths" (by decide) (by decide) v hv ?_
  rw [hpath]
  exact DocPath.prefix_child _ _

end ApiLint.Rule
