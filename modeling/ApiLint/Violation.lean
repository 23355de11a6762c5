import ApiLint.DocPath
import ApiLint.Severity
set_option autoImplicit false

/-!
# Violations and reports

A violation is one finding of a rule at a path of a document.  A report is what a
run of the linter found, over how many documents.
-/

namespace ApiLint

/-- One finding of a rule. -/
structure Violation where
  /-- the code of the rule, such as `OAS001` -/
  code : String
  /-- the name of the rule -/
  rule : String
  severity : Severity
  path : DocPath
  message : String
  /-- how it could be mended -/
  suggestion : Option String := none
  /-- the document it was found in -/
  file : Option String := none
  deriving DecidableEq, Repr, Inhabited

namespace Violation

/-- How the document is named in output. -/
def fileLabel (v : Violation) : String := v.file.getD "<document>"

/-- The form on several lines: a header with the place as a pointer, the message, and the
suggestion if there is one. -/
def text (v : Violation) : String :=
  v.code ++ " " ++ v.rule ++ " at " ++ v.fileLabel ++ "#" ++ v.path.pointer ++ "\n" ++
    "  " ++ v.severity.name ++ ": " ++ v.message ++ "\n" ++
    (match v.suggestion with
      | some suggestion => "  = help: " ++ suggestion ++ "\n"
      | none => "")

/-- The one-line form, with the place as a dotted path. -/
def compact (v : Violation) : String :=
  v.fileLabel ++ ":" ++ v.path.dotted ++ ": " ++ v.severity.name ++ " [" ++ v.code ++ "] " ++
    v.message

end Violation

/-- What a run found. -/
structure Report where
  violations : List Violation := []
  documentsChecked : Nat := 0
  deriving DecidableEq, Repr, Inhabited

/-- The number of violations of each severity. -/
structure SeverityCounts where
  errors : Nat
  warnings : Nat
  infos : Nat
  hints : Nat
  deriving DecidableEq, Repr, Inhabited

namespace Report

/-- The violations of one severity. -/
def bySeverity (r : Report) (s : Severity) : List Violation :=
  r.violations.filter (·.severity = s)

/-- Some violation is at least this grave. -/
def hasViolationsAt (r : Report) (s : Severity) : Bool :=
  r.violations.any (·.severity.atLeast s)

/-- Some violation is an error. -/
def hasErrors (r : Report) : Bool := r.hasViolationsAt .error

/-- Some violation is a warning or an error. -/
def hasWarnings (r : Report) : Bool := r.hasViolationsAt .warning

/-- The number of violations of one severity. -/
def count (r : Report) (s : Severity) : Nat := r.violations.countP (·.severity = s)

/-- The number of violations of each severity. -/
def counts (r : Report) : SeverityCounts :=
  { errors := r.count .error, warnings := r.count .warning,
    infos := r.count .info, hints := r.count .hint }

/-- The counts on one line. -/
def summary (r : Report) : String :=
  "Found " ++ toString r.counts.errors ++ " error(s), " ++
    toString r.counts.warnings ++ " warning(s), " ++
    toString r.counts.infos ++ " info(s), " ++
    toString r.counts.hints ++ " hint(s) in " ++
    toString r.documentsChecked ++ " document(s)"

/-! ## Building a report -/

/-- The report with one more violation. -/
def push (r : Report) (v : Violation) : Report := { r with violations := r.violations ++ [v] }

/-- Two reports, one after the other. -/
def append (r s : Report) : Report :=
  { violations := r.violations ++ s.violations
    documentsChecked := r.documentsChecked + s.documentsChecked }

/-- Changes the last violation, if there is one. -/
def modifyLast (r : Report) (f : Violation → Violation) : Report :=
  { r with violations := r.violations.dropLast ++ (r.violations.getLast?.map f).toList }

/-! ## Lemmas -/

theorem append_empty (r : Report) : r.append {} = r := by
  simp [append]

theorem append_assoc (r s t : Report) : (r.append s).append t = r.append (s.append t) := by
  simp [append, Nat.add_assoc]

theorem count_append (r s : Report) (severity : Severity) :
    (r.append s).count severity = r.count severity + s.count severity := by
  simp [append, count]

end Report

end ApiLint
