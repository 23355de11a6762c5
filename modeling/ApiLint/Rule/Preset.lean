import ApiLint.Rule.Check
set_option autoImplicit false

/-!
# Presets

A preset is a named selection of rules: all of them, all of them with nothing below a
warning, or only the first two.
-/

namespace ApiLint

/-- The named selections of rules. -/
inductive Preset where
  /-- every rule at its default severity -/
  | recommended
  /-- every rule, with hints and infos raised to warnings -/
  | strict
  /-- the rules to begin with -/
  | minimal
  deriving DecidableEq, Repr, Inhabited

/-- A name that no preset has. -/
structure UnknownPreset where
  name : String
  deriving DecidableEq, Repr, Inhabited

/-- The message for an unknown preset. -/
def UnknownPreset.message (fault : UnknownPreset) : String :=
  "unknown preset '" ++ fault.name ++ "' (expected recommended, strict or minimal)"

namespace Preset

/-- All presets. -/
def all : List Preset := [recommended, strict, minimal]

/-- The name of a preset. -/
def name : Preset → String
  | recommended => "recommended"
  | strict => "strict"
  | minimal => "minimal"

/-- Reads the name of a preset. -/
def parse (name : String) : Except UnknownPreset Preset :=
  match all.find? (·.name = name) with
  | some preset => .ok preset
  | none => .error ⟨name⟩

/-- The rules of a preset, in the order of their codes. -/
def rules : Preset → List Rule
  | recommended => RuleId.all.map Rule.standard
  | strict =>
    [.standard .inlineResponseSchema, .standard .pathParameters, .standard .pathSegmentCase,
      .standard .propertyCase, .standard .requiredPropertyMissing, .standard .stringBoundary,
      .standard .errorResponseSchema, (Rule.standard .operationTags).withSeverity .warning,
      (Rule.standard .openapiTags).withSeverity .warning,
      (Rule.standard .operationTagDefined).withSeverity .warning,
      (Rule.standard .noScriptTags).withSeverity .warning]
  | minimal => [.standard .inlineResponseSchema, .standard .pathParameters]

/-! ## Lemmas -/

theorem parse_name (p : Preset) : parse p.name = .ok p := by cases p <;> rfl

theorem rules_recommended : rules .recommended = RuleId.all.map Rule.standard := rfl

/-- The strict preset has every rule at its default severity, raised to a warning. -/
theorem rules_strict : rules .strict = RuleId.all.map fun id =>
    (Rule.standard id).withSeverity (id.defaultSeverity.max .warning) := rfl

end Preset

end ApiLint
