import ApiLint.Proofs.Linter.Violations
import ApiLint.Proofs.Rule.Reports
import ApiLint.Rule.Preset
set_option autoImplicit false

/-!
# What the presets report

The strict preset has the rules of the recommended one at other severities, and the severity
of a rule reaches nothing but the severities of its violations.  The minimal preset has the
first two rules, so a run with it reports the beginning of what a run with all of them does.
-/

namespace ApiLint

/-- The linter with the rules of a preset. -/
def Linter.withPreset (linter : Linter) (preset : Preset) : Linter :=
  { linter with rules := preset.rules }

/-- The violation at a severity that is not below a least one. -/
def Violation.raised (least : Severity) (v : Violation) : Violation :=
  { v with severity := v.severity.max least }

/-! ## Raised severities -/

namespace Rule

/-- The findings on path parameters are graded at the levels of the two checks. -/
theorem severity_of_mem_pathParameters {missing duplicate : Option Severity} {document : Node}
    {entry : Severity × Finding} (h : entry ∈ pathParameters missing duplicate document) :
    missing = some entry.1 ∨ duplicate = some entry.1 := by
  obtain ⟨⟨template, item⟩, _, h⟩ := List.mem_flatMap.mp h
  exact (exists_of_mem_pathParametersAt h).2.imp And.left And.left

/-- A standard rule whose severity is raised to a warning finds the same, with all severities
raised to a warning.  The levels of the checks on path parameters are none below it. -/
theorem gradedFindings_raised (id : RuleId) (document : Node) :
    ((standard id).withSeverity (id.defaultSeverity.max .warning)).gradedFindings {} document =
      ((standard id).gradedFindings {} document).map
        fun entry => (entry.1.max .warning, entry.2) := by
  by_cases hid : id = .pathParameters
  · subst hid
    rw [gradedFindings_pathParameters rfl, gradedFindings_pathParameters rfl]
    refine (List.map_id _).symm.trans (List.map_congr_left ?_)
    rintro ⟨severity, finding⟩ hentry
    have hseverity : severity = .error ∨ severity = .warning := by
      rcases severity_of_mem_pathParameters hentry with hmissing | hduplicate
      · exact .inl (Option.some.inj hmissing).symm
      · exact .inr (Option.some.inj hduplicate).symm
    rcases hseverity with rfl | rfl <;> rfl
  · rw [gradedFindings_of_ne hid, gradedFindings_of_ne hid, List.map_map]
    rfl

/-- Without a block of its own, a rule that is raised to a warning reports the same, raised to a
warning. -/
theorem report_raised (id : RuleId) (document : Document) :
    ((standard id).withSeverity (id.defaultSeverity.max .warning)).report {} document =
      ((standard id).report {} document).map (Violation.raised .warning) := by
  have henabled : RuleBlock.isEnabled {} = true := rfl
  simp only [report, henabled, if_true, gradedFindings_raised, List.map_map]
  rfl

end Rule

/-! ## Runs with presets -/

namespace Linter

/-- A run goes through the rules one after the other. -/
theorem lint_append_rules (linter : Linter) (rules others : List Rule) (document : Document) :
    { linter with rules := rules ++ others }.lint document =
      { linter with rules }.lint document ++ { linter with rules := others }.lint document := by
  rw [lint_eq, lint_eq, lint_eq, List.flatMap_append]
  rfl

/-- Violations are chosen by their codes rule by rule. -/
theorem filter_lint_code (linter : Linter) (document : Document) (p : String → Bool) :
    (linter.lint document).filter (fun v => p v.code) =
      { linter with rules := linter.rules.filter fun rule => p rule.id.code }.lint document := by
  rw [filter_lint, lint_eq]
  dsimp only
  induction linter.rules with
  | nil => rfl
  | cons rule rest ih =>
    rw [List.flatMap_cons, ih, List.filter_cons]
    split
    · next hp =>
      rw [List.flatMap_cons, List.filter_eq_self.mpr]
      · rfl
      · exact fun v hv => (Rule.report_code_eq hv).symm ▸ hp
    · next hp =>
      rw [List.filter_eq_nil_iff.mpr, List.nil_append]
      exact fun v hv => (Rule.report_code_eq hv).symm ▸ hp

/-- The code is one of the two rules to begin with. -/
def isMinimalCode (code : String) : Bool := code = "OAS001" ∨ code = "OAS002"

/-- Without blocks for rules, a run with the strict preset reports what one with the recommended
preset does, with hints and infos raised to warnings.  With any configuration, a run with the
minimal preset reports the violations of the two rules to begin with, and a run with the
recommended preset reports these first. -/
theorem lint_withPreset (linter : Linter) (document : Document) :
    ((∀ id : RuleId, linter.config.block? id.name = none) →
      (linter.withPreset .strict).lint document =
        ((linter.withPreset .recommended).lint document).map (Violation.raised .warning)) ∧
    (linter.withPreset .minimal).lint document =
      ((linter.withPreset .recommended).lint document).filter (fun v => isMinimalCode v.code) ∧
    (linter.withPreset .minimal).lint document <+:
      (linter.withPreset .recommended).lint document := by
  refine ⟨?_, ?_, ?_⟩
  · intro hblocks
    have hblock : ∀ (preset : Preset) (rule : Rule),
        (linter.withPreset preset).blockOf rule = {} := by
      intro preset rule
      have hnone : (linter.withPreset preset).config.block? rule.id.name = none := hblocks rule.id
      rw [blockOf, hnone]
      rfl
    rw [lint_eq, lint_eq, List.map_flatMap]
    simp only [hblock]
    simp only [withPreset, Preset.rules_strict, Preset.rules_recommended, List.flatMap_map]
    exact List.flatMap_congr fun id _ => Rule.report_raised id document
  · rw [filter_lint_code]
    rfl
  · have hrules : linter.withPreset .recommended =
        { linter with rules := Preset.minimal.rules ++ (RuleId.all.drop 2).map Rule.standard } :=
      rfl
    rw [hrules, lint_append_rules]
    exact List.prefix_append _ _

/-- A document with a path parameter that is not declared, an operation without tags and one with
a tag that the document does not list. -/
def hintedDocument : Document :=
  { root := .object [("paths", .object [("/pets/\x7bid\x7d", .object [
      ("get", .object [("tags", .array [.string "pets"])]), ("put", .object [])])])]
    file := some "pets.json" }

/-- Two hints and an info come out as warnings under the strict preset; the two errors come first
under each preset, and are all that the minimal one reports. -/
theorem lint_withPreset_hintedDocument :
    (((Linter.withPreset default .strict).lint hintedDocument).map Violation.severity =
        [.error, .error, .warning, .warning, .warning] ∧
      ((Linter.withPreset default .recommended).lint hintedDocument).map Violation.severity =
        [.error, .error, .hint, .hint, .info] ∧
      ((Linter.withPreset default .minimal).lint hintedDocument).length = 2) ∧
    (Linter.withPreset default .strict).lint hintedDocument =
      ((Linter.withPreset default .recommended).lint hintedDocument).map
        (Violation.raised .warning) ∧
    (Linter.withPreset default .minimal).lint hintedDocument <+:
      (Linter.withPreset default .recommended).lint hintedDocument := by
  obtain ⟨hstrict, _, hminimal⟩ := lint_withPreset default hintedDocument
  exact ⟨by decide +kernel, hstrict fun _ => rfl, hminimal⟩

end Linter

end ApiLint
