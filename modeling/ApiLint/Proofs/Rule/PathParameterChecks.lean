import ApiLint.Proofs.Rule.ParameterFindings
import ApiLint.Rule.Check
import Mathlib.Data.List.Basic
set_option autoImplicit false

/-!
# The two checks on path parameters

The rule on path parameters makes two checks entry by entry, so their findings stand
among each other.  The message of a finding tells which check made it, and what one
check finds is found whatever the level of the other.
-/

namespace ApiLint

/-- The checks of the rule on path parameters. -/
inductive PathCheck where
  | missing
  | duplicate
  deriving DecidableEq, Repr, Inhabited

namespace PathCheck

/-- The option for the level of a check. -/
def option : PathCheck → String
  | missing => Rule.missingOption
  | duplicate => Rule.duplicateOption

/-- The other check. -/
def other : PathCheck → PathCheck
  | missing => duplicate
  | duplicate => missing

/-- How a message on a missing declaration begins. -/
def missingOpenings : List String :=
  ["Path parameter must be defined at the path or operation level: ",
    "Operation must include a path parameter with name: "]

/-- The message on a definition that is repeated. -/
def commonMessage : String := "Common path parameters should be defined on path object"

/-- The message is one of the check. -/
def hasMessage (check : PathCheck) (message : String) : Bool :=
  match check with
  | missing => missingOpenings.any fun opening => opening.toList.isPrefixOf message.toList
  | duplicate => message = commonMessage

/-- The level of the check where nothing else is configured. -/
def level (check : PathCheck) (rule : Rule) : Level :=
  match check with
  | missing => rule.missing
  | duplicate => rule.duplicate

/-- What the check finds at a path item. -/
def findings (check : PathCheck) (path : DocPath) (item : Node) (names : List String) :
    List Finding :=
  match check with
  | missing => Rule.missingParameters path item names
  | duplicate => Rule.duplicateParameters path item names

/-- The violation was reported by the check. -/
def reports (check : PathCheck) (v : Violation) : Bool :=
  v.rule = RuleId.pathParameters.name && check.hasMessage v.message

end PathCheck

namespace Rule

/-! ## The messages of the findings -/

theorem not_prefix_commonMessage : ∀ opening ∈ PathCheck.missingOpenings,
    ¬ opening.toList <+: PathCheck.commonMessage.toList := by
  decide

/-- A message that begins like one on a missing declaration is no other message. -/
theorem hasMessage_of_opening (check : PathCheck) {opening : String}
    (hopening : opening ∈ PathCheck.missingOpenings) (rest : String) :
    check.hasMessage (opening ++ rest) = decide (check = .missing) := by
  have hstart : opening.toList <+: (opening ++ rest).toList := by
    rw [String.toList_append]
    exact List.prefix_append _ _
  cases check with
  | missing =>
    exact List.any_eq_true.mpr ⟨opening, hopening, List.isPrefixOf_iff_prefix.mpr hstart⟩
  | duplicate =>
    refine decide_eq_false fun heq : opening ++ rest = PathCheck.commonMessage => ?_
    rw [heq] at hstart
    exact not_prefix_commonMessage opening hopening hstart

theorem hasMessage_missingOnItem (check : PathCheck) (path : DocPath) (name : String) :
    check.hasMessage (missingOnItem path name).message = decide (check = .missing) := by
  rw [missingOnItem, String.append_assoc]
  exact hasMessage_of_opening check List.mem_cons_self _

theorem hasMessage_missingOnOperation (check : PathCheck) (path : DocPath) (name : String) :
    check.hasMessage (missingOnOperation path name).message = decide (check = .missing) := by
  rw [missingOnOperation, String.append_assoc]
  exact hasMessage_of_opening check (List.mem_cons_of_mem _ List.mem_cons_self) _

theorem hasMessage_duplicateFinding (check : PathCheck) (path : DocPath) (method name : String)
    (position : Nat) :
    check.hasMessage (duplicateFinding path method name position).message =
      decide (check = .duplicate) := by
  show check.hasMessage PathCheck.commonMessage = _
  cases check with
  | missing => simpa [PathCheck.hasMessage] using not_prefix_commonMessage
  | duplicate => simp [PathCheck.hasMessage]

theorem hasMessage_of_mem_missingParameters (check : PathCheck) {path : DocPath} {item : Node}
    {names : List String} {finding : Finding}
    (h : finding ∈ missingParameters path item names) :
    check.hasMessage finding.message = decide (check = .missing) := by
  obtain ⟨name, _, rfl | ⟨entry, _, rfl⟩⟩ := exists_of_mem_missingParameters h
  · exact hasMessage_missingOnItem check path name
  · exact hasMessage_missingOnOperation check _ name

theorem hasMessage_of_mem_duplicateParameters (check : PathCheck) {path : DocPath} {item : Node}
    {names : List String} {finding : Finding}
    (h : finding ∈ duplicateParameters path item names) :
    check.hasMessage finding.message = decide (check = .duplicate) := by
  obtain ⟨name, entry, _, position, _, rfl⟩ := exists_of_mem_duplicateParameters h
  exact hasMessage_duplicateFinding check path entry.1 name position

/-- The message of a finding tells which check made it. -/
theorem hasMessage_of_mem_findings (check : PathCheck) {other : PathCheck} {path : DocPath}
    {item : Node} {names : List String} {finding : Finding}
    (h : finding ∈ other.findings path item names) :
    check.hasMessage finding.message = decide (check = other) := by
  cases other with
  | missing => exact hasMessage_of_mem_missingParameters check h
  | duplicate => exact hasMessage_of_mem_duplicateParameters check h

/-! ## The findings of one check -/

/-- The findings of a check among graded findings. -/
def ofCheck (check : PathCheck) (entries : List (Severity × Finding)) :
    List (Severity × Finding) :=
  entries.filter fun entry => check.hasMessage entry.2.message

/-- Grading findings that all are of one check or all of the other. -/
theorem ofCheck_graded {check : PathCheck} (severity : Option Severity)
    {findings : List Finding} {kept : Bool}
    (h : ∀ finding ∈ findings, check.hasMessage finding.message = kept) :
    ofCheck check (graded severity findings) =
      if kept then graded severity findings else [] := by
  unfold ofCheck graded
  cases severity with
  | none => simp
  | some severity =>
    rw [List.filter_map, Function.comp_def]
    cases kept with
    | true =>
      rw [List.filter_eq_self.mpr h]
      rfl
    | false =>
      rw [List.filter_eq_nil_iff.mpr fun finding hfinding => by simp [h finding hfinding]]
      rfl

/-- What one check finds at an entry of the map of paths is found at its own level, whatever that
of the other. -/
theorem ofCheck_pathParametersAt (check : PathCheck) (missing duplicate : Option Severity)
    (template : String) (item : Node) :
    ofCheck check (pathParametersAt missing duplicate template item) =
      pathParametersAt (if check = .missing then missing else none)
        (if check = .duplicate then duplicate else none) template item := by
  unfold pathParametersAt
  dsimp only
  split
  · rfl
  · rw [ofCheck, List.filter_append]
    have hmissing := ofCheck_graded missing fun finding =>
      @hasMessage_of_mem_missingParameters check (DocPath.keys [] ["paths", template]) item
        (Naming.templateParameters template) finding
    have hduplicate := ofCheck_graded duplicate fun finding =>
      @hasMessage_of_mem_duplicateParameters check (DocPath.keys [] ["paths", template]) item
        (Naming.templateParameters template) finding
    rw [ofCheck] at hmissing hduplicate
    rw [hmissing, hduplicate]
    cases check <;> rfl

/-- What one check finds in a document is found at its own level, whatever that of the other. -/
theorem ofCheck_pathParameters (check : PathCheck) (missing duplicate : Option Severity)
    (document : Node) :
    ofCheck check (pathParameters missing duplicate document) =
      pathParameters (if check = .missing then missing else none)
        (if check = .duplicate then duplicate else none) document := by
  unfold pathParameters
  rw [ofCheck, List.filter_flatMap]
  exact List.flatMap_congr fun entry _ =>
    ofCheck_pathParametersAt check missing duplicate entry.1 entry.2

end Rule

end ApiLint
