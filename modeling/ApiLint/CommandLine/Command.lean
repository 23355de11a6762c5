import ApiLint.CommandLine.Output
set_option autoImplicit false

/-!
# Commands

What can be asked for on a command line, after it has been read.
-/

namespace ApiLint.CommandLine

/-- How documents are to be checked. -/
structure CheckOptions where
  /-- paths and patterns of the documents -/
  files : List String := []
  form : OutputForm := .text
  /-- the rules to run, as a list with commas; it goes before any preset -/
  rules : Option String := none
  /-- a preset that goes before that of the configuration -/
  preset : Option String := none
  /-- patterns of the documents to leave out -/
  excludes : List String := []
  /-- a document that cannot be loaded ends the run -/
  failOnParseError : Bool := false
  deriving DecidableEq, Repr, Inhabited

/-- The commands. -/
inductive Command where
  /-- checks documents -/
  | check (options : CheckOptions)
  /-- lists the rules -/
  | listRules
  /-- writes a configuration file, over an existing one only by force -/
  | init (force : Bool)
  deriving DecidableEq, Repr, Inhabited

/-- A command, and the configuration file that was asked for. -/
structure Invocation where
  configFile : Option String := none
  command : Command
  deriving DecidableEq, Repr, Inhabited

end ApiLint.CommandLine
