import ApiLint.Json.Writer
import ApiLint.Report.Codec
import ApiLint.Text.Replace
set_option autoImplicit false

/-!
# Forms of output

A report is printed for people, with coloured severities and a summary; as JSON; or
with one line for each violation.
-/

namespace ApiLint.CommandLine

/-- The forms of output. -/
inductive OutputForm where
  | text
  | json
  | compact
  deriving DecidableEq, Repr, Inhabited

namespace OutputForm

/-- All forms. -/
def all : List OutputForm := [text, json, compact]

/-- The name of a form. -/
def name : OutputForm → String
  | text => "text"
  | json => "json"
  | compact => "compact"

/-- What a form is, in a few words. -/
def about : OutputForm → String
  | text => "Human-readable text output"
  | json => "JSON output"
  | compact => "One-line-per-violation compact format"

/-- The form with exactly this name. -/
def ofName? (s : String) : Option OutputForm := all.find? (·.name = s)

end OutputForm

/-! ## Colours -/

/-- A text in one of the colours of a terminal, by its number. -/
def coloured (colour : String) (s : String) : String := "\x1b[" ++ colour ++ "m" ++ s ++ "\x1b[0m"

/-- Red. -/
def red : String := "31"

/-- Green. -/
def green : String := "32"

/-- Yellow. -/
def yellow : String := "33"

/-- Blue. -/
def blue : String := "34"

/-- Cyan. -/
def cyan : String := "36"

/-- The colour of a severity. -/
def colourOf : Severity → String
  | .error => red
  | .warning => yellow
  | .info => blue
  | .hint => cyan

/-- The colour of a summary: that of the gravest problem, where infos and hints are none. -/
def summaryColour (counts : SeverityCounts) : String :=
  if counts.errors > 0 then red
  else if counts.warnings > 0 then yellow
  else green

/-! ## Reports -/

/-- The severity as it opens the line of the message. -/
def severityLead (severity : String) : List Char := ("  " ++ severity ++ ":").toList

/-- The form of a violation on several lines; where the severity first opens a message, it is
coloured. -/
def colouredText (v : Violation) : String :=
  String.ofList (Text.replaceFirst (severityLead v.severity.name)
    (severityLead (coloured (colourOf v.severity) v.severity.name)) v.text.toList)

/-- The violations for people, each with an empty line behind it, and the summary. -/
def textOutput (report : Report) : String :=
  String.join (report.violations.map fun v => colouredText v ++ "\n") ++
    coloured (summaryColour report.counts) report.summary ++ "\n"

/-- The report as indented JSON. -/
def jsonOutput (report : Report) : String := Json.pretty report.encode ++ "\n"

/-- Each violation in its one-line form. -/
def compactOutput (report : Report) : String :=
  String.join (report.violations.map fun v => v.compact ++ "\n")

/-- What is printed of a report. -/
def OutputForm.render (form : OutputForm) (report : Report) : String :=
  match form with
  | text => textOutput report
  | json => jsonOutput report
  | compact => compactOutput report

/-! ## Lemmas -/

theorem OutputForm.ofName?_name (form : OutputForm) : ofName? form.name = some form := by
  cases form <;> decide

theorem compactOutput_push (report : Report) (v : Violation) :
    compactOutput (report.push v) = compactOutput report ++ (v.compact ++ "\n") := by
  simp [compactOutput, Report.push, String.join_append]

end ApiLint.CommandLine
