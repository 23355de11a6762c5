import ApiLint.Document
import ApiLint.Glob.Pattern
import ApiLint.Rule.Check
set_option autoImplicit false

/-!
# Linting documents

A linter runs its rules over a document in order, skipping those that the configuration
disables.  It finds the documents to lint by paths and patterns, and lints one file after
the other.  A file that cannot be loaded is left out, or ends the run.
-/

namespace ApiLint

/-- What a run is made of. -/
structure Linter where
  rules : List Rule
  /-- patterns of the paths to leave out -/
  excludes : List Glob.Pattern := []
  config : Config := {}
  /-- a document that cannot be loaded ends the run -/
  failOnParseError : Bool := false
  deriving Inhabited

namespace Linter

/-- Reads patterns. -/
def readPatterns : List String → Except Glob.Fault (List Glob.Pattern)
  | [] => .ok []
  | text :: texts => do
    let pattern ← Glob.parse text
    let patterns ← readPatterns texts
    .ok (pattern :: patterns)

/-- Sets up a linter; patterns are those given and then those of the configuration. -/
def build (rules : List Rule) (excludes : List String) (config : Config)
    (failOnParseError : Bool) : Except Glob.Fault Linter := do
  let excludes ← readPatterns (excludes ++ config.excludes)
  .ok { rules, excludes, config, failOnParseError }

/-! ## One document -/

/-- The block of a rule in the configuration, or the empty block. -/
def blockOf (linter : Linter) (rule : Rule) : RuleBlock :=
  (linter.config.block? rule.id.name).getD {}

/-- The violations with the severity that the configuration asks for, if it does. -/
def overridden (severity : Option Severity) (violations : List Violation) : List Violation :=
  match severity with
  | some severity => violations.map fun v => { v with severity }
  | none => violations

/-- What one rule contributes. -/
def runRule (linter : Linter) (root : Node) (rule : Rule) : List Violation :=
  if linter.config.isEnabled rule.id.name then
    overridden (linter.config.override? rule.id.name) (rule.check (linter.blockOf rule) root)
  else []

/-- Names the file of violations. -/
def inFile (file : Option String) (violations : List Violation) : List Violation :=
  match file with
  | some file => violations.map fun v => { v with file := some file }
  | none => violations

/-- The violations in a document, rule by rule. -/
def lint (linter : Linter) (document : Document) : List Violation :=
  inFile document.file (linter.rules.flatMap (linter.runRule document.root))

/-! ## Several files -/

/-- The report on one document. -/
def reportOn (linter : Linter) (document : Document) : Report :=
  { violations := linter.lint document, documentsChecked := 1 }

/-- Lints files in order, behind what has been reported on those before. -/
def lintFilesFrom (linter : Linter) (readFile : String → Option String) (report : Report) :
    List String → Except DocumentFault Report
  | [] => .ok report
  | path :: paths =>
    match Document.load readFile path with
    | .ok document => lintFilesFrom linter readFile (report.append (linter.reportOn document)) paths
    | .error fault =>
      if linter.failOnParseError then .error fault else lintFilesFrom linter readFile report paths

/-- Lints files in order. -/
def lintFiles (linter : Linter) (readFile : String → Option String) (paths : List String) :
    Except DocumentFault Report :=
  lintFilesFrom linter readFile {} paths

/-! ## Finding files -/

/-- What finding files needs to know of the file system. -/
structure Directory where
  /-- a path leads to something -/
  contains : String → Bool
  /-- the paths that a pattern stands for, in order -/
  expand : String → Except Glob.Fault (List String)

/-- The path matches a pattern to leave out. -/
def isExcluded (linter : Linter) (path : String) : Bool :=
  linter.excludes.any (Glob.isMatch · path)

/-- Adds paths that are not to be left out and not there yet. -/
def addPaths (linter : Linter) (found paths : List String) : List String :=
  paths.foldl (fun found path =>
    if linter.isExcluded path || found.any (FilePath.same path) then found else found ++ [path])
    found

/-- The paths that a given path or pattern stands for: itself if there is something, or else
its matches. -/
def candidates (directory : Directory) (pattern : String) : Except Glob.Fault (List String) :=
  if directory.contains pattern then .ok [pattern] else directory.expand pattern

/-- Finds files, behind those found before. -/
def discoverFrom (linter : Linter) (directory : Directory) (found : List String) :
    List String → Except Glob.Fault (List String)
  | [] => .ok found
  | pattern :: patterns => do
    let paths ← candidates directory pattern
    discoverFrom linter directory (linter.addPaths found paths) patterns

/-- The files that paths and patterns stand for, each once and in order of appearance. -/
def discover (linter : Linter) (directory : Directory) (patterns : List String) :
    Except Glob.Fault (List String) :=
  linter.discoverFrom directory [] patterns

/-! ## Lemmas -/

variable {linter : Linter} {readFile : String → Option String} {path : String}

/-- A document that can be loaded is reported on behind those before it. -/
theorem lintFilesFrom_cons_of_ok {document : Document}
    (h : Document.load readFile path = .ok document) (report : Report) (paths : List String) :
    linter.lintFilesFrom readFile report (path :: paths) =
      linter.lintFilesFrom readFile (report.append (linter.reportOn document)) paths := by
  show (match Document.load readFile path with
    | .ok document =>
      linter.lintFilesFrom readFile (report.append (linter.reportOn document)) paths
    | .error fault =>
      if linter.failOnParseError then .error fault
      else linter.lintFilesFrom readFile report paths) = _
  rw [h]

/-- One that cannot ends the run or is passed over. -/
theorem lintFilesFrom_cons_of_error {fault : DocumentFault}
    (h : Document.load readFile path = .error fault) (report : Report) (paths : List String) :
    linter.lintFilesFrom readFile report (path :: paths) =
      if linter.failOnParseError then .error fault
      else linter.lintFilesFrom readFile report paths := by
  show (match Document.load readFile path with
    | .ok document =>
      linter.lintFilesFrom readFile (report.append (linter.reportOn document)) paths
    | .error fault =>
      if linter.failOnParseError then .error fault
      else linter.lintFilesFrom readFile report paths) = _
  rw [h]

end Linter

end ApiLint
