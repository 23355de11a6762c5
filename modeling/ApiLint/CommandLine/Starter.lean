import ApiLint.FileTree
set_option autoImplicit false

/-!
# The command `init`

A configuration file to start with, which says what holds without any configuration, but
for documents to look for and to leave out.
-/

namespace ApiLint.CommandLine

/-- The name of the file. -/
def starterName : String := "oas-lint.toml"

/-- The text of the file. -/
def starterConfig : String :=
  "# oas-lint configuration

# Rule preset: \"recommended\", \"strict\" or \"minimal\"
preset = \"recommended\"

# Exit with status 1 when a violation at or above this severity is found
fail_on = \"error\"

[analyzer]
# Documents to lint when none are given on the command line
include = [\"openapi.yaml\"]

# Glob patterns to exclude from analysis
exclude = [
    \"**/node_modules/**\",
    \"**/generated/**\",
]

# Rule configurations
# severity = \"error\" | \"warning\" | \"info\" | \"hint\" | \"off\"

[rules.inline-response-schema]
severity = \"warning\"

[rules.path-parameters]
missing_path_parameter = \"error\"
duplicate_path_parameter = \"warning\"

# [rules.string-boundary]
# enabled = false
"

/-- Why the file is not written. -/
inductive StarterFault where
  /-- there is something of that name already -/
  | exists
  /-- there is a directory of that name, which cannot be overwritten -/
  | isDirectory
  deriving DecidableEq, Repr, Inhabited

/-- The message of a fault. -/
def StarterFault.message : StarterFault → String
  | .exists =>
    "Configuration file already exists at " ++ starterName ++ ". Use --force to overwrite."
  | .isDirectory => "Is a directory (os error 21)"

/-- The text to write, unless something stands against it. -/
def starter (fs : FileSystem) (force : Bool) : Except StarterFault String :=
  if fs.contains starterName && !force then .error .exists
  else if fs.isDirectory starterName then .error .isDirectory
  else .ok starterConfig

/-- What is printed when the file has been written. -/
def starterOutput : String :=
  "Created oas-lint.toml\n" ++
    "\nNext steps:\n" ++
    "  1. Edit oas-lint.toml to point `include` at your documents\n" ++
    "  2. Run: oas-lint check\n"

end ApiLint.CommandLine
