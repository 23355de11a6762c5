set_option autoImplicit false

/-!
# Environment variables
-/

namespace ApiLint.CommandLine

/-- The environment variables with their values. -/
abbrev Environment := List (String × String)

namespace Environment

/-- The value of a variable, if it is set. -/
def get? (env : Environment) (name : String) : Option String :=
  (env.find? (·.1 = name)).map Prod.snd

/-- The variable that names a configuration file. -/
def configFile : String := "OAS_LINT_CONFIG"

/-- The variable that names the user's configuration directory. -/
def configDirectory : String := "OAS_LINT_CONFIG_DIR"

/-- The variable that names the user's home directory. -/
def home : String := "HOME"

/-- The variable that asks for output without styles, unless it is empty. -/
def noStyles : String := "NO_COLOR"

/-- The variable that asks for styles even where the output is no terminal, unless it is zero. -/
def forcedStyles : String := "CLICOLOR_FORCE"

/-- All variables that matter. -/
def names : List String := [configFile, configDirectory, home, noStyles, forcedStyles]

/-- Styles are kept in the output. -/
def keepsStyles (env : Environment) : Bool :=
  (env.get? noStyles).getD "" == "" && (env.get? forcedStyles).getD "0" != "0"

end Environment

end ApiLint.CommandLine
