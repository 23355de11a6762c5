import ApiLint.CommandLine.Command
import ApiLint.ConfigSource
import ApiLint.Glob.Expansion
import ApiLint.Linter
import ApiLint.Rule.Preset
import ApiLint.Rule.Selection
set_option autoImplicit false

/-!
# The command `check`

A check loads the configuration, chooses the rules, finds the documents and lints them.
It passes, finds violations at or above the threshold of the configuration, or comes
to no result.
-/

namespace ApiLint.CommandLine

/-- Why a check comes to no result. -/
inductive CheckFault where
  /-- the configuration file at a path cannot be loaded -/
  | config (path : String) (cause : ConfigFault)
  | preset (cause : UnknownPreset)
  /-- no path or pattern is given -/
  | nothingToCheck
  /-- a pattern of documents to leave out is invalid -/
  | excludes (cause : Glob.Fault)
  /-- a pattern of documents is invalid, or its matches cannot be read -/
  | files (cause : Glob.Fault)
  /-- a document cannot be loaded, and that ends the run -/
  | document (cause : DocumentFault)
  deriving DecidableEq, Repr, Inhabited

/-- The message of a fault; a document is reported in a form of its own. -/
def CheckFault.message? : CheckFault → Option String
  | config path _ => some ("Failed to load config: " ++ path)
  | preset cause => some cause.message
  | nothingToCheck =>
    some "No documents to lint. Pass files or set `include` under [analyzer] in the config."
  | excludes _ => some "Failed to build analyzer"
  | files _ => some "Failed to expand document patterns"
  | document _ => none

/-- The code of the fault of a document. -/
def CheckFault.diagnostic? : CheckFault → Option String
  | document cause => some cause.code
  | _ => none

/-- The exit status of a fault. -/
def CheckFault.status : CheckFault → Nat
  | document _ => 2
  | _ => 1

/-- What a check found, and the threshold for it. -/
structure CheckResult where
  report : Report
  threshold : Severity
  deriving DecidableEq, Repr, Inhabited

/-- The exit status of a result: whether a violation reaches the threshold. -/
def CheckResult.status (result : CheckResult) : Nat :=
  if result.report.hasViolationsAt result.threshold then 1 else 0

/-! ## Files -/

/-- What a check needs to know of the files. -/
structure Files extends Linter.Directory where
  /-- the text of the file at a path, if it can be read -/
  read : String → Option String

/-- What finding files needs to know of a file system. -/
def directoryOf (fs : FileSystem) : Linter.Directory :=
  { contains := fs.contains, expand := Glob.expand fs }

/-- What a check needs to know of a file system. -/
def filesOf (fs : FileSystem) : Files := { directoryOf fs with read := fs.read }

/-! ## Setting up -/

/-- The paths and patterns of a check: those given, or those of the configuration. -/
def patternsOf (options : CheckOptions) (config : Config) : List String :=
  if options.files.isEmpty then config.includes else options.files

/-- The name of the preset of a check: the one asked for, that of the configuration, or the
recommended one. -/
def presetNameOf (options : CheckOptions) (config : Config) : String :=
  (options.preset.or config.preset).getD Preset.recommended.name

/-- Loads the configuration. -/
def loadConfig (fs : Files) (source : ConfigSource) : Except CheckFault Config :=
  (source.load fs.read).mapError (CheckFault.config (source.path?.getD ""))

/-- Chooses the rules: those listed, or those of the preset. -/
def chooseRules (options : CheckOptions) (config : Config) : Except CheckFault (List Rule) :=
  match options.rules with
  | some list => .ok ((RuleSelection.rulesOf (RuleSelection.textsOf list)).map Rule.standard)
  | none =>
    match Preset.parse (presetNameOf options config) with
    | .ok preset => .ok preset.rules
    | .error cause => .error (.preset cause)

/-- Chooses paths and patterns, of which there must be some. -/
def choosePatterns (options : CheckOptions) (config : Config) :
    Except CheckFault (List String) :=
  let patterns := patternsOf options config
  if patterns.isEmpty then .error .nothingToCheck else .ok patterns

/-- Sets up the linter of a check and finds the files. -/
def setUp (fs : Files) (source : ConfigSource) (options : CheckOptions) :
    Except CheckFault (Linter × List String) := do
  let config ← loadConfig fs source
  let rules ← chooseRules options config
  let patterns ← choosePatterns options config
  let linter ←
    (Linter.build rules options.excludes config options.failOnParseError).mapError
      CheckFault.excludes
  let files ← (linter.discover fs.toDirectory patterns).mapError CheckFault.files
  .ok (linter, files)

/-! ## Checking -/

/-- Checks documents. -/
def check (fs : Files) (source : ConfigSource) (options : CheckOptions) :
    Except CheckFault CheckResult := do
  let (linter, files) ← setUp fs source options
  let report ← (linter.lintFiles fs.read files).mapError CheckFault.document
  .ok { report, threshold := linter.config.threshold }

/-- The exit status of a check. -/
def checkStatus : Except CheckFault CheckResult → Nat
  | .ok result => result.status
  | .error fault => fault.status

/-! ## Lemmas -/

theorem CheckResult.status_eq_zero_iff (result : CheckResult) :
    result.status = 0 ↔ result.report.hasViolationsAt result.threshold = false := by
  unfold status
  split <;> simp_all

end ApiLint.CommandLine
