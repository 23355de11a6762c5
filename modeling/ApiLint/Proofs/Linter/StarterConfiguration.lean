import ApiLint.CommandLine.Starter
import ApiLint.Proofs.Linter.Presets
set_option autoImplicit false

/-!
# The configuration to start with

The starter file says what the rules of the presets do anyhow: the severity of the one rule
and the levels of the two checks that it sets are their own.  So it can be read as a
configuration, and every document is linted under it as under none.
-/

namespace ApiLint

/-! ## Texts given by their characters -/

/-- Reads the characters of a TOML file. -/
def Toml.readChars (chars : List Char) : Except Fault Entries := do
  let chars :=
    match chars with
    | '\ufeff' :: rest => rest
    | chars => chars
  let root ← readLines (chars.length + 1) {} chars
  match root.toValue with
  | .table entries => .ok entries
  | _ => .error .unexpected

theorem Toml.read_ofList (chars : List Char) : read (String.ofList chars) = readChars chars := by
  unfold read
  rw [String.toList_ofList]
  rfl

/-- Reads the characters of a configuration file. -/
def Config.parseChars (chars : List Char) : Except ConfigFault Config :=
  match Toml.readChars chars with
  | .ok entries => ofEntries entries
  | .error _ => .error .invalid

theorem Config.parse_ofList (chars : List Char) :
    parse (String.ofList chars) = parseChars chars := by
  unfold parse
  rw [Toml.read_ofList]
  rfl

/-! ## Blocks that change nothing -/

/-- A block asks for what a rule does anyhow: it does not disable the rule, a severity in it is the
one that all findings of the rule have, and the checks keep their levels. -/
structure RuleBlock.Neutral (block : RuleBlock) (rule : Rule) : Prop where
  isEnabled : block.isEnabled = true
  override : ∀ severity, block.override? = some severity →
    rule.id ≠ .pathParameters ∧ rule.severity = severity
  missing : block.checkLevel Rule.missingOption rule.missing = rule.missing
  duplicate : block.checkLevel Rule.duplicateOption rule.duplicate = rule.duplicate

theorem RuleBlock.neutral_empty (rule : Rule) : Neutral {} rule := ⟨rfl, nofun, rfl, rfl⟩

namespace Rule

variable {block : RuleBlock} {rule : Rule} (h : block.Neutral rule)
include h

theorem gradedFindings_of_neutral (document : Node) :
    rule.gradedFindings block document = rule.gradedFindings {} document := by
  by_cases hid : rule.id = .pathParameters
  · rw [gradedFindings_pathParameters hid, gradedFindings_pathParameters hid, h.missing,
      h.duplicate]
    rfl
  · rw [gradedFindings_of_ne hid, gradedFindings_of_ne hid]

/-- Under a block that changes nothing, a rule reports what it does under none. -/
theorem report_of_neutral (document : Document) :
    rule.report block document = rule.report {} document := by
  have hnone : RuleBlock.isEnabled {} = true := rfl
  rw [report, report, h.isEnabled, hnone, gradedFindings_of_neutral h]
  refine List.map_congr_left fun entry hentry => ?_
  have hseverity : block.override?.getD entry.1 = entry.1 := by
    cases hoverride : block.override? with
    | none => rfl
    | some severity =>
      obtain ⟨hid, rfl⟩ := h.override severity hoverride
      rw [gradedFindings_of_ne hid] at hentry
      obtain ⟨finding, _, rfl⟩ := List.mem_map.mp hentry
      rfl
  rw [RuleBlock.violation, hseverity]
  rfl

end Rule

/-! ## The starter file -/

namespace CommandLine

/-- The configuration that the starter file says. -/
def starterSettings : Config where
  preset := some "recommended"
  failOn := some .error
  includes := ["openapi.yaml"]
  excludes := ["**/node_modules/**", "**/generated/**"]
  rules := [("inline-response-schema", { severity := some (.report .warning) }),
    ("path-parameters", { options := [("missing_path_parameter", .string "error"),
      ("duplicate_path_parameter", .string "warning")] })]

/-- A reader gives these settings. -/
def readsStarter : Except ConfigFault Config → Bool
  | .ok ⟨some "recommended", some .error, ["openapi.yaml"],
      ["**/node_modules/**", "**/generated/**"],
      [("inline-response-schema", ⟨none, some (.report .warning), []⟩),
        ("path-parameters", ⟨none, none, [("missing_path_parameter", .string "error"),
          ("duplicate_path_parameter", .string "warning")]⟩)]⟩ => true
  | _ => false

-- The text is too long for its characters to be found by evaluation, but it is the text of its
-- characters by definition, and these can be read.
set_option maxRecDepth 20000 in
theorem parse_starterConfig : Config.parse starterConfig = .ok starterSettings := by
  obtain ⟨chars, htext, hparse⟩ : ∃ chars, starterConfig = String.ofList chars ∧
      readsStarter (Config.parseChars chars) = true :=
    ⟨_, rfl, by decide +kernel⟩
  rw [htext, Config.parse_ofList]
  unfold readsStarter at hparse
  split at hparse
  · next hconfig => exact hconfig
  · cases hparse

/-- The block of a rule in the starter file. -/
def starterBlock : RuleId → RuleBlock
  | .inlineResponseSchema => { severity := some (.report .warning) }
  | .pathParameters =>
    { options := [("missing_path_parameter", .string "error"),
        ("duplicate_path_parameter", .string "warning")] }
  | _ => {}

theorem getD_block?_starterSettings (id : RuleId) :
    (starterSettings.block? id.name).getD {} = starterBlock id := by
  cases id <;> rfl

/-- The rules of a preset have the levels of their checks for standard, and the rule that the
starter file sets a severity of has this severity. -/
theorem severities_of_mem_rules {preset : Preset} {rule : Rule} (h : rule ∈ preset.rules) :
    (rule.id = .inlineResponseSchema → rule.severity = .warning) ∧
      rule.missing = .report .error ∧ rule.duplicate = .report .warning := by
  revert rule
  cases preset <;> decide

theorem neutral_starterBlock {preset : Preset} {rule : Rule} (h : rule ∈ preset.rules) :
    (starterBlock rule.id).Neutral rule := by
  obtain ⟨hseverity, hmissing, hduplicate⟩ := severities_of_mem_rules h
  cases hid : rule.id with
  | inlineResponseSchema =>
    refine ⟨rfl, fun severity hoverride => ⟨by rw [hid]; decide, ?_⟩, rfl, rfl⟩
    exact (hseverity hid).trans (Option.some.inj hoverride)
  | pathParameters =>
    refine ⟨rfl, nofun, ?_, ?_⟩
    · rw [hmissing]
      decide
    · rw [hduplicate]
      decide
  | _ => exact RuleBlock.neutral_empty rule

/-- The starter file can be read as a configuration, and with the rules of any preset every document
is linted under it as under the configuration of an empty file. -/
theorem lint_starterConfig :
    ∃ config, Config.parse starterConfig = .ok config ∧
      ∀ (preset : Preset) (linter : Linter) (document : Document),
        ({ linter with config }.withPreset preset).lint document =
          ({ linter with config := {} }.withPreset preset).lint document := by
  refine ⟨starterSettings, parse_starterConfig, fun preset linter document => ?_⟩
  rw [Linter.lint_eq, Linter.lint_eq]
  refine List.flatMap_congr fun rule hrule => ?_
  have hblock : ({ linter with config := starterSettings }.withPreset preset).blockOf rule =
      starterBlock rule.id := getD_block?_starterSettings rule.id
  rw [hblock]
  exact Rule.report_of_neutral (neutral_starterBlock hrule) document

end CommandLine

end ApiLint
