import ApiLint.Linter
import Mathlib.Data.List.Basic
set_option autoImplicit false

/-!
# A run as a list of graded findings

A run goes through the rules in order.  What a rule contributes depends on its own block
of the configuration alone, the empty block when it has none: its graded findings, each
turned into a violation on its own, or nothing when the block disables the rule.  So what
holds of the findings of every rule carries over to the violations of a run.
-/

namespace ApiLint

/-- The violation that a graded finding of a rule is reported as: at the severity that the block
asks for, if it does, and in a file. -/
def RuleBlock.violation (block : RuleBlock) (file : Option String) (id : RuleId)
    (entry : Severity × Finding) : Violation :=
  { entry.2.toViolation id (block.override?.getD entry.1) with file }

/-- What a rule with a block reports in a document. -/
def Rule.report (rule : Rule) (block : RuleBlock) (document : Document) : List Violation :=
  if block.isEnabled then
    (rule.gradedFindings block document.root).map (block.violation document.file rule.id)
  else []

namespace Linter

theorem isEnabled_eq_blockOf (linter : Linter) (rule : Rule) :
    linter.config.isEnabled rule.id.name = (linter.blockOf rule).isEnabled := by
  rw [Config.isEnabled, blockOf]
  cases linter.config.block? rule.id.name <;> rfl

theorem override?_eq_blockOf (linter : Linter) (rule : Rule) :
    linter.config.override? rule.id.name = (linter.blockOf rule).override? := by
  rw [Config.override?, blockOf]
  cases linter.config.block? rule.id.name <;> rfl

/-- A run reports what its rules report with their blocks, one rule after the other. -/
theorem lint_eq (linter : Linter) (document : Document) :
    linter.lint document =
      linter.rules.flatMap fun rule => rule.report (linter.blockOf rule) document := by
  have hrule : ∀ rule : Rule, inFile document.file (linter.runRule document.root rule) =
      rule.report (linter.blockOf rule) document := by
    intro rule
    rw [runRule, isEnabled_eq_blockOf, override?_eq_blockOf]
    unfold Rule.report RuleBlock.violation Rule.check
    generalize linter.blockOf rule = block
    split
    · cases block.override? <;> cases document.file <;>
        simp [overridden, inFile, Finding.toViolation]
    · cases document.file <;> rfl
  have hflatMap : linter.lint document = linter.rules.flatMap fun rule =>
      inFile document.file (linter.runRule document.root rule) := by
    rw [lint]
    cases document.file with
    | some file => exact List.map_flatMap
    | none => rfl
  rw [hflatMap, funext hrule]

theorem filter_lint (linter : Linter) (document : Document) (p : Violation → Bool) :
    (linter.lint document).filter p =
      linter.rules.flatMap fun rule => (rule.report (linter.blockOf rule) document).filter p := by
  rw [lint_eq, List.filter_flatMap]

end Linter

/-! ## The violations of one rule -/

namespace Rule

/-- What a rule reports are its graded findings, one violation for each. -/
theorem exists_entry_of_mem_report {rule : Rule} {block : RuleBlock} {document : Document}
    {v : Violation} (h : v ∈ rule.report block document) :
    ∃ entry ∈ rule.gradedFindings block document.root,
      v = block.violation document.file rule.id entry := by
  unfold report at h
  split at h
  · obtain ⟨entry, hentry, rfl⟩ := List.mem_map.mp h
    exact ⟨entry, hentry, rfl⟩
  · exact absurd h List.not_mem_nil

theorem report_rule_eq {rule : Rule} {block : RuleBlock} {document : Document} {v : Violation}
    (h : v ∈ rule.report block document) : v.rule = rule.id.name := by
  obtain ⟨entry, _, rfl⟩ := exists_entry_of_mem_report h
  rfl

theorem report_code_eq {rule : Rule} {block : RuleBlock} {document : Document} {v : Violation}
    (h : v ∈ rule.report block document) : v.code = rule.id.code := by
  obtain ⟨entry, _, rfl⟩ := exists_entry_of_mem_report h
  rfl

theorem report_file_eq {rule : Rule} {block : RuleBlock} {document : Document} {v : Violation}
    (h : v ∈ rule.report block document) : v.file = document.file := by
  obtain ⟨entry, _, rfl⟩ := exists_entry_of_mem_report h
  rfl

/-- Violations are chosen by their paths as the findings are that they report. -/
theorem filter_report_path (rule : Rule) (block : RuleBlock) (document : Document)
    (p : DocPath → Bool) :
    (rule.report block document).filter (fun v => p v.path) =
      if block.isEnabled then
        ((rule.gradedFindings block document.root).filter fun entry => p entry.2.path).map
          (block.violation document.file rule.id)
      else [] := by
  unfold report
  split
  · exact List.filter_map
  · rfl

end Rule

end ApiLint
