import ApiLint.Proofs.Linter.Violations
import ApiLint.Proofs.Rule.PathParameterChecks
set_option autoImplicit false

/-!
# What the configuration of a rule reaches

The violations of a rule depend on the block of that rule and on no other block.  A block
that disables the rule leaves none, a severity in it is that of all of them, and the
level of one check on path parameters does not touch what the other check reports.
-/

namespace ApiLint

/-! ## Blocks that agree -/

/-- The blocks agree on whether the rule runs, on its severity, and on all options but the ones
left open. -/
structure RuleBlock.AgreeBut (left : String → Prop) (a b : RuleBlock) : Prop where
  enabled : a.enabled = b.enabled
  severity : a.severity = b.severity
  options : ∀ key, ¬ left key → a.options.get? key = b.options.get? key

namespace RuleBlock.AgreeBut

variable {left : String → Prop} {a b : RuleBlock}

theorem isEnabled_eq (h : AgreeBut left a b) : a.isEnabled = b.isEnabled := by
  rw [isEnabled, isEnabled, h.enabled, h.severity]

theorem override?_eq (h : AgreeBut left a b) : a.override? = b.override? := by
  rw [override?, override?, h.severity]

theorem checkLevel_eq (h : AgreeBut left a b) {check : String} (hcheck : ¬ left check)
    (default : Level) : a.checkLevel check default = b.checkLevel check default := by
  rw [checkLevel, checkLevel, checkLevel?, checkLevel?, h.options check hcheck]

theorem violation_eq (h : AgreeBut left a b) : a.violation = b.violation := by
  unfold violation
  rw [h.override?_eq]

end RuleBlock.AgreeBut

/-- The configurations give a rule blocks that agree but for the options left open, or both give
it none. -/
def Config.AgreeOn (rule : String) (left : String → Prop) (a b : Config) : Prop :=
  Option.Rel (RuleBlock.AgreeBut left) (a.block? rule) (b.block? rule)

theorem Config.AgreeOn.agreeBut {rule : String} {left : String → Prop} {a b : Config}
    (h : AgreeOn rule left a b) :
    RuleBlock.AgreeBut left ((a.block? rule).getD {}) ((b.block? rule).getD {}) := by
  unfold AgreeOn at h
  generalize a.block? rule = block at h ⊢
  generalize b.block? rule = other at h ⊢
  cases h with
  | some hblock => exact hblock
  | none => exact ⟨rfl, rfl, fun _ _ => rfl⟩

/-! ## What a rule reports -/

namespace Rule

variable {left : String → Prop} {a b : RuleBlock}

/-- A rule reads no options but the levels of the checks on path parameters. -/
theorem report_eq_of_agreeBut (h : RuleBlock.AgreeBut left a b)
    (hleft : ∀ check : PathCheck, ¬ left check.option) (rule : Rule) (document : Document) :
    rule.report a document = rule.report b document := by
  have hfindings : rule.gradedFindings a document.root = rule.gradedFindings b document.root := by
    have hmissing : a.checkLevel missingOption rule.missing =
        b.checkLevel missingOption rule.missing := h.checkLevel_eq (hleft .missing) _
    have hduplicate : a.checkLevel duplicateOption rule.duplicate =
        b.checkLevel duplicateOption rule.duplicate := h.checkLevel_eq (hleft .duplicate) _
    unfold gradedFindings
    rw [hmissing, hduplicate]
  rw [report, report, h.isEnabled_eq, h.violation_eq, hfindings]

theorem filter_report_of_eq {rule : Rule} {name : String} (hname : rule.id.name = name)
    (block : RuleBlock) (document : Document) :
    (rule.report block document).filter (·.rule = name) = rule.report block document :=
  List.filter_eq_self.mpr fun _ hv => decide_eq_true ((report_rule_eq hv).trans hname)

theorem filter_report_of_ne {rule : Rule} {name : String} (hname : rule.id.name ≠ name)
    (block : RuleBlock) (document : Document) :
    (rule.report block document).filter (·.rule = name) = [] :=
  List.filter_eq_nil_iff.mpr fun _ hv heq =>
    hname ((report_rule_eq hv).symm.trans (of_decide_eq_true heq))

/-- The reports of one check on path parameters: what it finds at its own level. -/
theorem filter_report_pathParameters {rule : Rule} (hid : rule.id = .pathParameters)
    (check : PathCheck) (block : RuleBlock) (document : Document) :
    (rule.report block document).filter check.reports =
      if block.isEnabled then
        (ofCheck check (rule.gradedFindings block document.root)).map
          (block.violation document.file rule.id)
      else [] := by
  have hreports : ∀ entry, check.reports (block.violation document.file rule.id entry) =
      check.hasMessage entry.2.message := by
    intro entry
    rw [hid]
    simp [PathCheck.reports, RuleBlock.violation, Finding.toViolation]
  unfold report ofCheck
  split
  · rw [List.filter_map, Function.comp_def, funext hreports]
  · rfl

theorem filter_report_of_ne_pathParameters {rule : Rule} (hid : rule.id ≠ .pathParameters)
    (check : PathCheck) (block : RuleBlock) (document : Document) :
    (rule.report block document).filter check.reports = [] := by
  refine List.filter_eq_nil_iff.mpr fun v hv hreports => hid (RuleId.name_injective ?_)
  have hrule := (Bool.and_eq_true_iff.mp hreports).1
  exact (report_rule_eq hv).symm.trans (of_decide_eq_true hrule)

theorem option_other_ne (check : PathCheck) : check.other.option ≠ check.option := by
  cases check <;> decide

/-- Blocks that differ in the level of one check on path parameters let the other check report
the same. -/
theorem filter_report_other (check : PathCheck)
    (h : RuleBlock.AgreeBut (· = check.option) a b) {rule : Rule} (document : Document) :
    (rule.report a document).filter check.other.reports =
      (rule.report b document).filter check.other.reports := by
  by_cases hid : rule.id = .pathParameters
  · have hfindings : ofCheck check.other (rule.gradedFindings a document.root) =
        ofCheck check.other (rule.gradedFindings b document.root) := by
      rw [gradedFindings, gradedFindings, hid]
      simp only [ofCheck_pathParameters]
      have hlevel := fun level => h.checkLevel_eq (option_other_ne check) level
      cases check with
      | missing =>
        have hduplicate : a.checkLevel duplicateOption rule.duplicate =
            b.checkLevel duplicateOption rule.duplicate := hlevel rule.duplicate
        simp [PathCheck.other, hduplicate]
      | duplicate =>
        have hmissing : a.checkLevel missingOption rule.missing =
            b.checkLevel missingOption rule.missing := hlevel rule.missing
        simp [PathCheck.other, hmissing]
    rw [filter_report_pathParameters hid, filter_report_pathParameters hid, h.isEnabled_eq,
      h.violation_eq, hfindings]
  · rw [filter_report_of_ne_pathParameters hid, filter_report_of_ne_pathParameters hid]

end Rule

/-! ## What a run reports -/

namespace Linter

/-- With a block that disables it, a rule reports nothing. -/
theorem filter_lint_of_disabled {linter : Linter} {name : String} {block : RuleBlock}
    (hblock : linter.config.block? name = some block) (hdisabled : block.isEnabled = false)
    (document : Document) : (linter.lint document).filter (·.rule = name) = [] := by
  rw [filter_lint, List.flatMap_eq_nil_iff]
  intro rule _
  by_cases hname : rule.id.name = name
  · have hblockOf : linter.blockOf rule = block := by rw [blockOf, hname, hblock]; rfl
    rw [Rule.filter_report_of_eq hname, hblockOf, Rule.report, hdisabled]
    rfl
  · exact Rule.filter_report_of_ne hname _ _

/-- A severity in the block of a rule is that of all its violations. -/
theorem severity_eq_of_override {linter : Linter} {name : String} {block : RuleBlock}
    {severity : Severity} (hblock : linter.config.block? name = some block)
    (hseverity : block.severity = some (.report severity)) {document : Document} {v : Violation}
    (hv : v ∈ linter.lint document) (hrule : v.rule = name) : v.severity = severity := by
  rw [lint_eq] at hv
  obtain ⟨rule, _, hv⟩ := List.mem_flatMap.mp hv
  have hname : rule.id.name = name := (Rule.report_rule_eq hv).symm.trans hrule
  have hblockOf : linter.blockOf rule = block := by rw [blockOf, hname, hblock]; rfl
  have hoverride : block.override? = some severity := by rw [RuleBlock.override?, hseverity]; rfl
  rw [hblockOf] at hv
  obtain ⟨entry, _, rfl⟩ := Rule.exists_entry_of_mem_report hv
  rw [RuleBlock.violation, hoverride]
  rfl

/-- The violations of a rule depend on its own block alone: configurations that agree on it give
the same ones in the same order, there are none when it disables the rule, they have the severity
that it asks for, and the level of one check on path parameters does not reach the other check. -/
theorem lint_depends_on_own_block (linter : Linter) (document : Document) (name : String) :
    (∀ config : Config, Config.AgreeOn name (fun _ => False) linter.config config →
      (linter.lint document).filter (·.rule = name) =
        ({ linter with config }.lint document).filter (·.rule = name)) ∧
    (∀ block, linter.config.block? name = some block →
      (block.enabled = some false ∨ block.severity = some .off →
        (linter.lint document).filter (·.rule = name) = []) ∧
      ∀ severity, block.severity = some (.report severity) →
        ∀ v ∈ linter.lint document, v.rule = name → v.severity = severity) ∧
    ∀ (check : PathCheck) (config : Config),
      Config.AgreeOn RuleId.pathParameters.name (· = check.option) linter.config config →
        (linter.lint document).filter check.other.reports =
          ({ linter with config }.lint document).filter check.other.reports := by
  refine ⟨?_, ?_, ?_⟩
  · intro config hagree
    rw [filter_lint, filter_lint]
    refine List.flatMap_congr fun rule _ => ?_
    by_cases hname : rule.id.name = name
    · rw [← hname] at hagree
      have hreport := Rule.report_eq_of_agreeBut hagree.agreeBut (fun _ => not_false) rule document
      exact congrArg (List.filter _) hreport
    · rw [Rule.filter_report_of_ne hname, Rule.filter_report_of_ne hname]
  · intro block hblock
    refine ⟨?_, ?_⟩
    · intro hdisabled
      refine filter_lint_of_disabled hblock ?_ document
      rcases hdisabled with henabled | hseverity
      · simp [RuleBlock.isEnabled, henabled]
      · simp [RuleBlock.isEnabled, hseverity]
    · intro severity hseverity v hv hrule
      exact severity_eq_of_override hblock hseverity hv hrule
  · intro check config hagree
    rw [filter_lint, filter_lint]
    refine List.flatMap_congr fun rule _ => ?_
    by_cases hid : rule.id = .pathParameters
    · rw [← hid] at hagree
      exact Rule.filter_report_other check hagree.agreeBut document
    · rw [Rule.filter_report_of_ne_pathParameters hid, Rule.filter_report_of_ne_pathParameters hid]

/-- A document with a path parameter that two operations declare alike and one that none does. -/
def sharedParameterDocument : Document :=
  { root := .object [("paths", .object [("/pets/\x7bid\x7d/\x7bpart\x7d", .object [
      ("get", .object [("parameters", .array [.object [
        ("name", .string "id"), ("in", .string "path")]])]),
      ("put", .object [("parameters", .array [.object [
        ("name", .string "id"), ("in", .string "path")]])])])])] }

/-- The rules on path parameters and on the tags of the document, the latter at its severity. -/
def loudLinter : Linter :=
  { rules := [.standard .pathParameters, .standard .openapiTags]
    config := { rules := [
      ("path-parameters", { options := [("missing_path_parameter", .string "error")] }),
      ("openapi-tags", { severity := some (.report .info) })] } }

/-- The same rules, where the check for missing parameters and the rule on tags are silenced. -/
def quietLinter : Linter :=
  { loudLinter with config := { rules := [
      ("path-parameters", { options := [("missing_path_parameter", .string "off")] }),
      ("openapi-tags", { enabled := some false })] } }

/-- The repeated definition is reported under both configurations, at both operations, whatever
becomes of the other check and of the other rule. -/
theorem lint_sharedParameterDocument :
    ((loudLinter.lint sharedParameterDocument).length = 5 ∧
      (quietLinter.lint sharedParameterDocument).length = 2) ∧
    (loudLinter.lint sharedParameterDocument).filter PathCheck.duplicate.reports =
      (quietLinter.lint sharedParameterDocument).filter PathCheck.duplicate.reports ∧
    (∀ v ∈ loudLinter.lint sharedParameterDocument, v.rule = "openapi-tags" →
      v.severity = .info) ∧
    (quietLinter.lint sharedParameterDocument).filter (·.rule = "openapi-tags") = [] ∧
    (quietLinter.lint sharedParameterDocument).filter (·.rule = "path-parameters") =
      ({ quietLinter with config := { rules := [
          ("path-parameters", { options := [("missing_path_parameter", .string "off")] })] } }.lint
        sharedParameterDocument).filter (·.rule = "path-parameters") := by
  obtain ⟨_, hblock, hcheck⟩ :=
    lint_depends_on_own_block loudLinter sharedParameterDocument "openapi-tags"
  obtain ⟨_, hquiet, _⟩ :=
    lint_depends_on_own_block quietLinter sharedParameterDocument "openapi-tags"
  obtain ⟨hsame, _, _⟩ :=
    lint_depends_on_own_block quietLinter sharedParameterDocument "path-parameters"
  refine ⟨by decide +kernel, ?_, ?_, ?_, ?_⟩
  · refine hcheck .missing quietLinter.config (.some ⟨rfl, rfl, fun key hkey => ?_⟩)
    have hne : ¬ "missing_path_parameter" = key := fun heq => hkey heq.symm
    simp [Toml.Entries.get?, hne]
  · exact (hblock _ rfl).2 .info rfl
  · exact (hquiet _ rfl).1 (.inl rfl)
  · exact hsame _ (.some ⟨rfl, rfl, fun _ _ => rfl⟩)

end Linter

end ApiLint
