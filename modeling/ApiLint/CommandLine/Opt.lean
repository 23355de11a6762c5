import ApiLint.CommandLine.Output
set_option autoImplicit false

/-!
# Options and where they stand

The command line has scopes: the program itself, and each command.  A scope has the
options that may stand in it.
-/

namespace ApiLint.CommandLine

/-- The options. -/
inductive Opt where
  | verbose
  | config
  | format
  | rules
  | preset
  | exclude
  | failOnParseError
  | force
  | help
  | version
  deriving DecidableEq, Repr, Inhabited

namespace Opt

/-- The long name of an option. -/
def long : Opt → String
  | verbose => "verbose"
  | config => "config"
  | format => "format"
  | rules => "rules"
  | preset => "preset"
  | exclude => "exclude"
  | failOnParseError => "fail-on-parse-error"
  | force => "force"
  | help => "help"
  | version => "version"

/-- The letter of an option, if it has one. -/
def short? : Opt → Option Char
  | verbose => some 'v'
  | config => some 'c'
  | format => some 'f'
  | exclude => some 'e'
  | help => some 'h'
  | version => some 'V'
  | rules => none
  | preset => none
  | failOnParseError => none
  | force => none

/-- What the value of an option stands for, if it takes one. -/
def valueName? : Opt → Option String
  | config => some "CONFIG"
  | format => some "FORMAT"
  | rules => some "RULES"
  | preset => some "PRESET"
  | exclude => some "EXCLUDE"
  | verbose => none
  | failOnParseError => none
  | force => none
  | help => none
  | version => none

/-- The option takes a value. -/
def takesValue (option : Opt) : Bool := option.valueName?.isSome

/-- The option may be given more than once. -/
def isRepeatable : Opt → Bool
  | exclude => true
  | _ => false

/-- A value is one that the option can have. -/
def accepts (option : Opt) (value : String) : Bool :=
  match option with
  | config => !value.isEmpty
  | format => (OutputForm.ofName? value).isSome
  | _ => true

end Opt

/-- The scopes of a command line. -/
inductive Scope where
  /-- before any command -/
  | program
  | check
  | listRules
  | init
  | help
  deriving DecidableEq, Repr, Inhabited

namespace Scope

/-- The commands, in the order in which they are listed. -/
def commands : List Scope := [check, listRules, init, help]

/-- The word for a scope. -/
def word : Scope → String
  | program => "oas-lint"
  | check => "check"
  | listRules => "list-rules"
  | init => "init"
  | help => "help"

/-- The command with a name. -/
def command? (word : String) : Option Scope := commands.find? (·.word = word)

/-- The options of a scope, in the order in which they are listed. -/
def options : Scope → List Opt
  | program => [.verbose, .config, .help, .version]
  | check =>
    [.format, .verbose, .config, .rules, .preset, .exclude, .failOnParseError, .help]
  | listRules => [.verbose, .config, .help]
  | init => [.force, .verbose, .config, .help]
  | help => []

/-- The option with a long name. -/
def withLong? (scope : Scope) (name : String) : Option Opt :=
  scope.options.find? (·.long = name)

/-- The option with a letter. -/
def withShort? (scope : Scope) (letter : Char) : Option Opt :=
  scope.options.find? (·.short? = some letter)

/-- The scope has operands, that is words that are no options. -/
def takesOperands : Scope → Bool
  | check => true
  | _ => false

/-! ## Lemmas -/

theorem command?_word : ∀ scope ∈ commands, command? scope.word = some scope := by decide

end Scope

end ApiLint.CommandLine
