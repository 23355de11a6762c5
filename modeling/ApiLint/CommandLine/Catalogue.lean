import ApiLint.CommandLine.Help
import ApiLint.Rule.Check
set_option autoImplicit false

/-!
# The command `list-rules`

A table of the rules, and what else can be chosen.
-/

namespace ApiLint.CommandLine

/-- A row of the table. -/
def catalogueRow (code name severity description : String) : String :=
  padTo 8 code ++ " " ++ padTo 30 name ++ " " ++ padTo 9 severity ++ " " ++ description ++ "\n"

/-- The row of a rule. -/
def ruleRow (rule : Rule) : String :=
  catalogueRow rule.id.code rule.id.name rule.defaultSeverity.name rule.id.description

/-- The table of the rules. -/
def catalogue : String :=
  "Available rules:\n\n" ++ catalogueRow "Code" "Name" "Severity" "Description" ++
    String.ofList (List.replicate 100 '-') ++ "\n" ++
    String.join (RuleId.all.map fun id => ruleRow (.standard id)) ++
    "\nPresets:\n" ++
    "  recommended  - All rules at their default severity (default)\n" ++
    "  strict       - All rules, hints and infos reported as warnings\n" ++
    "  minimal      - OAS001, OAS002 (for gradual adoption)\n" ++
    "\nUse --rules to filter specific rules, e.g.:\n" ++
    "  oas-lint check openapi.yaml --rules inline-response-schema,path-parameters\n" ++
    "  oas-lint check 'specs/**/*.yaml' --rules OAS001,OAS002\n"

end ApiLint.CommandLine
