import ApiLint.Config
import ApiLint.Rule.Descriptions
import ApiLint.Rule.Naming
import ApiLint.Rule.PathParameters
import ApiLint.Rule.ResponseSchemas
import ApiLint.Rule.SchemaContents
import ApiLint.Rule.Tags
set_option autoImplicit false

/-!
# Checking a document with a rule

A rule reports all its findings at one severity, except the rule on path parameters,
which has two checks with a level each.  The block of a rule in the configuration
can change these two levels.
-/

namespace ApiLint

/-- A rule and the severities that it reports at. -/
structure Rule where
  id : RuleId
  /-- the severity of its violations, unless its checks have levels -/
  severity : Severity := id.defaultSeverity
  /-- the level of missing path parameters -/
  missing : Level := .report .error
  /-- the level of path parameters that are defined alike more than once -/
  duplicate : Level := .report .warning
  deriving DecidableEq, Repr, Inhabited

/-- A name that no rule has. -/
structure UnknownRule where
  name : String
  deriving DecidableEq, Repr, Inhabited

namespace Rule

/-- A rule as it is unless something else is asked for. -/
def standard (id : RuleId) : Rule := { id }

/-- The severity that the rule is listed with. -/
def defaultSeverity (rule : Rule) : Severity :=
  match rule.id with
  | .pathParameters => rule.missing.severity?.getD .error
  | _ => rule.severity

/-- Asks for a severity; levels of checks stay as they are. -/
def withSeverity (rule : Rule) (severity : Severity) : Rule := { rule with severity }

/-- The option for the level of missing path parameters. -/
def missingOption : String := "missing_path_parameter"

/-- The option for the level of path parameters defined alike. -/
def duplicateOption : String := "duplicate_path_parameter"

/-- The findings of a rule in a document, each with its severity. -/
def gradedFindings (rule : Rule) (block : RuleBlock) (document : Node) :
    List (Severity × Finding) :=
  let uniform := graded (some rule.severity)
  match rule.id with
  | .inlineResponseSchema => uniform (inlineResponseSchema document)
  | .pathParameters =>
    pathParameters (block.checkLevel missingOption rule.missing).severity?
      (block.checkLevel duplicateOption rule.duplicate).severity? document
  | .pathSegmentCase => uniform (pathSegmentCase document)
  | .propertyCase => uniform (propertyCase document)
  | .requiredPropertyMissing => uniform (requiredPropertyMissing document)
  | .stringBoundary => uniform (stringBoundary document)
  | .errorResponseSchema => uniform (errorResponseSchema document)
  | .operationTags => uniform (operationTags document)
  | .openapiTags => uniform (openapiTags document)
  | .operationTagDefined => uniform (operationTagDefined document)
  | .noScriptTags => uniform (noScriptTags document)

/-- The violations that a rule finds in a document. -/
def check (rule : Rule) (block : RuleBlock) (document : Node) : List Violation :=
  (rule.gradedFindings block document).map fun (severity, finding) =>
    finding.toViolation rule.id severity

/-- The standard rules with the given names, in the given order. -/
def select : List String → Except UnknownRule (List Rule)
  | [] => .ok []
  | name :: names =>
    match RuleId.ofName? name with
    | some id => (select names).map (standard id :: ·)
    | none => .error ⟨name⟩

/-! ## Lemmas -/

/-- Every violation carries the name and code of the rule that found it. -/
theorem rule_eq_name_of_mem_check {rule : Rule} {block : RuleBlock} {document : Node}
    {v : Violation} (h : v ∈ rule.check block document) :
    v.rule = rule.id.name ∧ v.code = rule.id.code := by
  simp only [check, List.mem_map] at h
  obtain ⟨⟨severity, finding⟩, _, rfl⟩ := h
  exact ⟨rfl, rfl⟩

end Rule

end ApiLint
