import ApiLint.Violation
set_option autoImplicit false

/-!
# Rules and their findings

The eleven rules with their codes, names and descriptions.  A rule reports findings;
a finding becomes a violation when it is given a severity.
-/

namespace ApiLint

/-- The rules. -/
inductive RuleId where
  | inlineResponseSchema
  | pathParameters
  | pathSegmentCase
  | propertyCase
  | requiredPropertyMissing
  | stringBoundary
  | errorResponseSchema
  | operationTags
  | openapiTags
  | operationTagDefined
  | noScriptTags
  deriving DecidableEq, Repr, Inhabited

namespace RuleId

/-- All rules, in the order of their codes. -/
def all : List RuleId :=
  [inlineResponseSchema, pathParameters, pathSegmentCase, propertyCase,
    requiredPropertyMissing, stringBoundary, errorResponseSchema, operationTags,
    openapiTags, operationTagDefined, noScriptTags]

/-- The code of a rule. -/
def code : RuleId → String
  | inlineResponseSchema => "OAS001"
  | pathParameters => "OAS002"
  | pathSegmentCase => "OAS003"
  | propertyCase => "OAS004"
  | requiredPropertyMissing => "OAS005"
  | stringBoundary => "OAS006"
  | errorResponseSchema => "OAS007"
  | operationTags => "OAS008"
  | openapiTags => "OAS009"
  | operationTagDefined => "OAS010"
  | noScriptTags => "OAS011"

/-- The name of a rule. -/
def name : RuleId → String
  | inlineResponseSchema => "inline-response-schema"
  | pathParameters => "path-parameters"
  | pathSegmentCase => "path-segment-case-convention"
  | propertyCase => "property-case-convention"
  | requiredPropertyMissing => "required-property-missing"
  | stringBoundary => "string-boundary"
  | errorResponseSchema => "error-response-schema"
  | operationTags => "operation-tags"
  | openapiTags => "openapi-tags"
  | operationTagDefined => "operation-tag-defined"
  | noScriptTags => "no-script-tags-in-markdown"

/-- What a rule checks, in one line. -/
def description : RuleId → String
  | inlineResponseSchema => "Requires JSON response schemas to be a $ref to a named schema"
  | pathParameters =>
    "Requires path template parameters to be declared once, at the right level"
  | pathSegmentCase => "Requires path segments to be lower snake case"
  | propertyCase => "Requires schema property names to be lower snake case"
  | requiredPropertyMissing => "Requires every required property to be defined in the schema"
  | stringBoundary => "Asks string schemas to define a maxLength"
  | errorResponseSchema => "Asks error response schemas to define an errors property"
  | operationTags => "Asks operations to have a non-empty tags array"
  | openapiTags => "Asks the OpenAPI object to have a non-empty tags array"
  | operationTagDefined => "Requires operation tags to be defined in the global tags"
  | noScriptTags => "Forbids <script> tags in Markdown descriptions"

/-- The severity of the violations of a rule, unless something else is asked for. -/
def defaultSeverity : RuleId → Severity
  | inlineResponseSchema => .warning
  | pathParameters => .error
  | pathSegmentCase => .error
  | propertyCase => .error
  | requiredPropertyMissing => .error
  | stringBoundary => .warning
  | errorResponseSchema => .warning
  | operationTags => .hint
  | openapiTags => .hint
  | operationTagDefined => .info
  | noScriptTags => .info

/-- The rule with a name. -/
def ofName? (name : String) : Option RuleId := all.find? (·.name = name)

/-! ## Lemmas -/

theorem mem_all (id : RuleId) : id ∈ all := by cases id <;> decide

theorem nodup_all : all.Nodup := by decide

theorem ofName?_name (id : RuleId) : ofName? id.name = some id := by cases id <;> decide

theorem name_injective {a b : RuleId} (h : a.name = b.name) : a = b := by
  have ha := ofName?_name a
  rw [h, ofName?_name b] at ha
  exact (Option.some.inj ha).symm

end RuleId

/-- What a rule found at a place. -/
structure Finding where
  path : DocPath
  message : String
  suggestion : Option String := none
  deriving DecidableEq, Repr, Inhabited

/-- The violation that a finding of a rule is, at a severity. -/
def Finding.toViolation (finding : Finding) (id : RuleId) (severity : Severity) : Violation :=
  { code := id.code, rule := id.name, severity, path := finding.path,
    message := finding.message, suggestion := finding.suggestion }

end ApiLint
