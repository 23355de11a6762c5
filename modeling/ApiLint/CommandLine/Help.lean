import ApiLint.CommandLine.Arguments
import ApiLint.Text.Terminal
set_option autoImplicit false

/-!
# Help texts

A help text tells what a scope is for, how it is used, and which commands, operands and
options it has.  In the short layout a description stands beside its entry; in the long
one, which only scopes with something to add have, it stands below.  Headings and what is
typed as it stands are styled.  Unless styles are kept, they are dropped with all control
sequences of the whole text, and they end one that a note has left open.
-/

namespace ApiLint.CommandLine

/-- The version of the program. -/
def versionText : String := "oas-lint 0.1.0\n"

/-! ## Descriptions -/

/-- What an option does. -/
def Opt.about : Opt → String
  | .verbose => "Enable verbose output"
  | .config => "Path to configuration file"
  | .format => "Output format"
  | .rules => "Only run specific rules (comma-separated names or codes)"
  | .preset => "Rule preset: recommended, strict or minimal"
  | .exclude => "Exclude patterns (can be specified multiple times)"
  | .failOnParseError => "Abort on the first document that fails to parse"
  | .force => "Overwrite existing config"
  | .help => "Print help"
  | .version => "Print version"

/-- What a scope is for. -/
def Scope.about : Scope → String
  | .program => "CLI tool for the oas-lint OpenAPI linter"
  | .check => "Lint API description documents"
  | .listRules => "List available rules"
  | .init => "Initialize configuration file"
  | .help => "Print this message or the help of the given subcommand(s)"

/-- The operands of a scope with their description. -/
def Scope.operand? : Scope → Option (String × String)
  | .check =>
    some ("[FILES]...",
      "Documents or glob patterns to lint (default: `analyzer.include` from config)")
  | .help => some ("[COMMAND]...", "Print help for the subcommand(s)")
  | _ => none

/-- A scope has a long help text. -/
def Scope.hasLongHelp (scope : Scope) : Bool := scope.options.contains .format

/-- What is typed to use a scope, and what stands for the rest. -/
def Scope.usageParts : Scope → String × String
  | .program => ("oas-lint", "[OPTIONS] <COMMAND>")
  | .check => ("oas-lint check", "[OPTIONS] [FILES]...")
  | .listRules => ("oas-lint list-rules", "[OPTIONS]")
  | .init => ("oas-lint init", "[OPTIONS]")
  | .help => ("oas-lint help", "[COMMAND]...")

/-- How a scope is used, in one line. -/
def Scope.usage (scope : Scope) : String :=
  Text.boldUnderlined "Usage:" ++ " " ++ Text.bold scope.usageParts.1 ++ " " ++ scope.usageParts.2

/-! ## Layout -/

/-- Blanks. -/
def blanks (n : Nat) : String := String.ofList (List.replicate n ' ')

/-- The blanks behind a text, up to a width. -/
def padding (width : Nat) (s : String) : String := blanks (width - s.length)

/-- A text with blanks behind it, up to a width. -/
def padTo (width : Nat) (s : String) : String := s ++ padding width s

/-- The text with each of its lines but the first behind blanks. -/
def indentLines (count : Nat) (s : String) : String :=
  String.ofList (s.toList.flatMap fun c =>
    if c = '\n' then '\n' :: List.replicate count ' ' else [c])

/-- An option as it is listed, with a style for its names. -/
def Opt.styledLabel (style : String → String) (option : Opt) : String :=
  (match option.short? with
    | some letter => style (String.ofList ['-', letter]) ++ ", "
    | none => blanks 4) ++
  style ("--" ++ option.long) ++
  (match option.valueName? with
    | some name => " <" ++ name ++ ">"
    | none => "")

/-- An option as it is listed, without styles. -/
def Opt.label (option : Opt) : String := option.styledLabel id

/-- The description of an option; help tells of the other layout. -/
def describe (scope : Scope) (atLength : Bool) (option : Opt) : String :=
  if option = .help ∧ scope.hasLongHelp then
    if atLength then "Print help (see a summary with '-h')"
    else "Print help (see more with '--help')"
  else option.about

/-- What is noted of an option in either layout. -/
def notes (env : Environment) (option : Opt) : List String :=
  match option with
  | .config =>
    ["[env: " ++ Environment.configFile ++ "=" ++
      (env.get? Environment.configFile).getD "" ++ "]"]
  | .format => ["[default: " ++ OutputForm.text.name ++ "]"]
  | _ => []

/-- The possible values of an option, in brackets. -/
def possibleValues (option : Opt) : List String :=
  match option with
  | .format => ["[possible values: " ++ ", ".intercalate (OutputForm.all.map OutputForm.name) ++ "]"]
  | _ => []

/-- Lines of the long layout, below an entry. -/
def below (lines : List String) : String :=
  String.join (lines.map fun line => "\n" ++ blanks 10 ++ indentLines 10 line)

/-- The possible values of an option with their descriptions, on lines of their own behind an
empty line. -/
def listedValues (option : Opt) : String :=
  match option with
  | .format =>
    "\n" ++ below ("Possible values:" :: OutputForm.all.map fun form =>
      "- " ++ Text.bold form.name ++ ": " ++ padding 7 form.name ++ form.about)
  | _ => ""

/-- An option in the short layout, with descriptions in one column. -/
def shortEntry (env : Environment) (scope : Scope) (width : Nat) (option : Opt) : String :=
  "  " ++ option.styledLabel Text.bold ++ padding width option.label ++
    indentLines (width + 2)
      (" ".intercalate (describe scope false option :: notes env option ++ possibleValues option))

/-- An option in the long layout. -/
def longEntry (env : Environment) (scope : Scope) (option : Opt) : String :=
  "  " ++ option.styledLabel Text.bold ++ below [describe scope true option] ++
    listedValues option ++
    (match notes env option with
      | [] => ""
      | lines => below ("" :: lines))

/-- The width of the column of options. -/
def optionWidth (scope : Scope) : Nat :=
  (scope.options.map fun option => option.label.length).foldl max 0 + 2

/-- A part of a help text: a heading and its entries. -/
def part (heading separator : String) (entries : List String) : List String :=
  if entries.isEmpty then []
  else [Text.boldUnderlined (heading ++ ":") ++ "\n" ++ separator.intercalate entries]

/-- The list of commands. -/
def commandEntries (scope : Scope) : List String :=
  if scope = .program then
    Scope.commands.map fun command =>
      "  " ++ Text.bold command.word ++ padding 12 command.word ++ command.about
  else []

/-- The operands of a scope. -/
def operandEntries (scope : Scope) (atLength : Bool) : List String :=
  match scope.operand? with
  | some (label, about) =>
    [if atLength then "  " ++ label ++ below [about] else "  " ++ label ++ "  " ++ about]
  | none => []

/-- The options of a scope. -/
def optionEntries (env : Environment) (scope : Scope) (atLength : Bool) : List String :=
  scope.options.map fun option =>
    if atLength then longEntry env scope option
    else shortEntry env scope (optionWidth scope) option

/-- The help text of a scope, with its styles. -/
def styledHelp (env : Environment) (scope : Scope) (atLength : Bool) : String :=
  let atLength := atLength && scope.hasLongHelp
  let separator := if atLength then "\n\n" else "\n"
  "\n\n".intercalate ([scope.about, scope.usage] ++
    part "Commands" "\n" (commandEntries scope) ++
    part "Arguments" separator (operandEntries scope atLength) ++
    part "Options" separator (optionEntries env scope atLength)) ++ "\n"

/-- The help text of a scope, as it is printed. -/
def helpText (env : Environment) (scope : Scope) (atLength : Bool) : String :=
  let text := styledHelp env scope atLength
  if env.keepsStyles then text else Text.plain text

end ApiLint.CommandLine
