import ApiLint.Proofs.Node.Additions
import ApiLint.Proofs.Rule.ExtensionEntries
import ApiLint.Proofs.Rule.PathParameterChecks
set_option autoImplicit false

/-!
# The checks on path parameters, entry by entry

What a check on path parameters reports in a document is what it finds at the entries of the
map of paths that are objects, at the severity of its level.  This is said once for both
checks: a violation that a check made is never due to the other one, whatever its level.
-/

namespace ApiLint.Rule

/-- The entries of the map of paths of a document. -/
def pathEntries (document : Node) : Fields := (document.getFields? "paths").getD []

/-- What stands at the path of an entry is looked up among the entries. -/
theorem resolve_entryPath (template : String) (document : Node) :
    (entryPath template).resolve document = Fields.get? (pathEntries document) template := by
  rw [pathEntries, Node.getFields?, entryPath, DocPath.keys_cons, DocPath.keys_cons,
    DocPath.keys_nil, DocPath.resolve_child, DocPath.resolve_child, DocPath.resolve_nil,
    Option.bind_some]
  show (document.get? "paths").bind (Node.get? · template) = _
  cases document.get? "paths" with
  | none => rfl
  | some value => cases value <;> rfl

/-- In a well-formed document an entry is what stands at its path. -/
theorem mem_pathEntries_iff {document : Node} (hwf : document.WellFormed) {template : String}
    {item : Node} :
    (template, item) ∈ pathEntries document ↔
      (entryPath template).resolve document = some item :=
  (standsIn_root document).mem_getFields_iff hwf

/-- The entries of a document in which they were changed one by one. -/
theorem pathEntries_mapEntries (document : Node) (f : String → Node → Node) :
    pathEntries (document.mapEntries "paths" f) =
      (pathEntries document).map fun entry => (entry.1, f entry.1 entry.2) := by
  rw [pathEntries, pathEntries, Node.getFields?_mapEntries]
  cases document.getFields? "paths" <;> rfl

/-- What is found at an entry is found by one of the checks, while that is on. -/
theorem mem_pathParametersAt_iff_exists_check (levels : PathCheck → Option Severity)
    {template : String} {item : Node} {entry : Severity × Finding} :
    entry ∈ pathParametersAt (levels .missing) (levels .duplicate) template item ↔
      item.isObject = true ∧ ∃ check : PathCheck, levels check = some entry.1 ∧
        entry.2 ∈ check.findings (entryPath template) item
          (Naming.templateParameters template) := by
  rw [mem_pathParametersAt_iff]
  refine and_congr_right fun _ => ?_
  constructor
  · intro h
    rcases h with hmissing | hduplicate
    · exact ⟨.missing, hmissing⟩
    · exact ⟨.duplicate, hduplicate⟩
  · intro h
    obtain ⟨check, hcheck⟩ := h
    cases check with
    | missing => exact .inl hcheck
    | duplicate => exact .inr hcheck

/-- The severity of a check, while it is on. -/
def checkSeverity? (rule : Rule) (block : RuleBlock) (check : PathCheck) : Option Severity :=
  (block.checkLevel check.option (check.level rule)).severity?

section Entries

variable {document : Node} {rule : Rule} (hid : rule.id = .pathParameters) {block : RuleBlock}
include hid

/-- The violations of one check are made entry by entry, at its severity. -/
theorem mem_check_reports_iff_exists_entry (check : PathCheck) (v : Violation) :
    v ∈ rule.check block document ∧ check.reports v = true ↔
      ∃ severity, checkSeverity? rule block check = some severity ∧
        ∃ template item, (template, item) ∈ pathEntries document ∧ item.isObject = true ∧
          ∃ finding ∈ check.findings (entryPath template) item
              (Naming.templateParameters template),
            v = finding.toViolation .pathParameters severity := by
  rw [Rule.check, gradedFindings_pathParameters hid, hid, pathParameters]
  constructor
  · intro h
    obtain ⟨hv, hreports⟩ := h
    obtain ⟨⟨severity, finding⟩, hentry, rfl⟩ := List.mem_map.mp hv
    obtain ⟨⟨template, item⟩, hitem, hentry⟩ := List.mem_flatMap.mp hentry
    obtain ⟨hobject, other, hseverity, hfinding⟩ :=
      (mem_pathParametersAt_iff_exists_check (checkSeverity? rule block)).mp hentry
    -- the message tells the check, so it was no other
    have hmessage := hasMessage_of_mem_findings check hfinding
    have hown : check.hasMessage finding.message = true := (Bool.and_eq_true_iff.mp hreports).2
    obtain rfl : check = other := of_decide_eq_true (hmessage.symm.trans hown)
    exact ⟨severity, hseverity, template, item, hitem, hobject, finding, hfinding, rfl⟩
  · intro h
    obtain ⟨severity, hseverity, template, item, hitem, hobject, finding, hfinding, rfl⟩ := h
    have hentry : (severity, finding) ∈ pathParametersAt
        (checkSeverity? rule block .missing) (checkSeverity? rule block .duplicate)
        template item :=
      (mem_pathParametersAt_iff_exists_check (checkSeverity? rule block)).mpr
        ⟨hobject, check, hseverity, hfinding⟩
    have hmessage := hasMessage_of_mem_findings check hfinding
    refine ⟨List.mem_map.mpr ⟨_, List.mem_flatMap.mpr ⟨_, hitem, hentry⟩, rfl⟩, ?_⟩
    simpa [PathCheck.reports, Finding.toViolation] using hmessage

/-- The violations of one check in a well-formed document, while the check is on. -/
theorem mem_check_reports_iff (hwf : document.WellFormed) (check : PathCheck)
    {severity : Severity}
    (hlevel : block.checkLevel check.option (check.level rule) = .report severity)
    (v : Violation) :
    v ∈ rule.check block document ∧ check.reports v = true ↔
      ∃ template item, (entryPath template).resolve document = some item ∧ item.isObject = true ∧
        ∃ finding ∈ check.findings (entryPath template) item (Naming.templateParameters template),
          v = finding.toViolation .pathParameters severity := by
  have hseverity : checkSeverity? rule block check = some severity := by
    rw [checkSeverity?, hlevel, Level.severity?]
  rw [mem_check_reports_iff_exists_entry hid]
  simp only [hseverity, Option.some.injEq, exists_eq_left', mem_pathEntries_iff hwf]

end Entries

end ApiLint.Rule
