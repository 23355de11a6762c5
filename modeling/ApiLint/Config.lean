import ApiLint.Severity
import ApiLint.Toml.DateTable
import ApiLint.Toml.Reader
set_option autoImplicit false

/-!
# Configuration

A configuration names a preset, a threshold from which on violations fail a run, the
documents to lint, and one block of settings per rule.  Its defaults are what an
empty file says.  Unknown keys are ignored, but a known key with a value of the
wrong kind makes the whole file invalid.
-/

namespace ApiLint

/-- The settings of one rule. -/
structure RuleBlock where
  enabled : Option Bool := none
  /-- the level that replaces the severity of all violations of the rule -/
  severity : Option Level := none
  /-- the options of the individual checks of the rule -/
  options : Toml.Entries := []
  deriving Repr, Inhabited

namespace RuleBlock

/-- The configured level of a check; a value that is no level turns the check off. -/
def checkLevel? (block : RuleBlock) (check : String) : Option Level :=
  (block.options.get? check).map fun value =>
    match value with
    | .string text =>
      match Level.parse text with
      | .ok level => level
      | .error _ => .off
    | _ => .off

/-- The level of a check: the configured one, or else the default. -/
def checkLevel (block : RuleBlock) (check : String) (default : Level) : Level :=
  (block.checkLevel? check).getD default

/-- The rule is to be run. -/
def isEnabled (block : RuleBlock) : Bool :=
  block.enabled.getD true && block.severity != some .off

/-- The severity that replaces that of all violations of the rule. -/
def override? (block : RuleBlock) : Option Severity := block.severity.bind Level.severity?

end RuleBlock

/-- A configuration. -/
structure Config where
  preset : Option String := none
  failOn : Option Severity := none
  /-- documents or glob patterns to lint when none are given -/
  includes : List String := []
  /-- glob patterns of documents to leave out -/
  excludes : List String := []
  /-- the blocks of the rules, by name -/
  rules : List (String × RuleBlock) := []
  deriving Repr, Inhabited

/-- Why there is no configuration. -/
inductive ConfigFault where
  /-- the file cannot be read -/
  | unreadable (path : String)
  /-- the text is no configuration -/
  | invalid
  deriving DecidableEq, Repr, Inhabited

/-- The message of a fault. -/
def ConfigFault.message : ConfigFault → String
  | unreadable path => "Failed to read config file " ++ path
  | invalid => "Failed to parse config"

namespace Config

/-- The block of a rule, if it has one. -/
def block? (config : Config) (rule : String) : Option RuleBlock :=
  (config.rules.find? (·.1 = rule)).map Prod.snd

/-- A rule is enabled unless its block says otherwise. -/
def isEnabled (config : Config) (rule : String) : Bool :=
  match config.block? rule with
  | some block => block.isEnabled
  | none => true

/-- The severity that replaces that of all violations of a rule. -/
def override? (config : Config) (rule : String) : Option Severity :=
  (config.block? rule).bind RuleBlock.override?

/-- The threshold from which on violations fail a run. -/
def threshold (config : Config) : Severity := config.failOn.getD .error

/-! ## Reading -/

/-- The name that a value gives for one of several choices: a string, or a table with that
name as its only key and nothing below. -/
def choice? : Toml.Value → Option String
  | .string name => some name
  | .table [(name, .table [])] => some name
  | .table [(name, .array [])] => some name
  | _ => none

/-- Reads a key that may be absent. -/
def optional {α : Type} (entries : Toml.Entries) (key : String) (read : Toml.Value → Option α) :
    Except ConfigFault (Option α) :=
  match entries.get? key with
  | none => .ok none
  | some value =>
    match read value with
    | some result => .ok (some result)
    | none => .error .invalid

/-- Reads a list of strings. -/
def strings? : Toml.Value → Option (List String)
  | .array items =>
    let texts := items.filterMap Toml.Value.string?
    if texts.length = items.length then some texts else none
  | _ => none

/-- Reads a boolean. -/
def boolean? : Toml.Value → Option Bool
  | .boolean b => some b
  | _ => none

/-- An entry of a rule's block that is an option. -/
def isOption (entry : String × Toml.Value) : Bool := entry.1 ≠ "enabled" ∧ entry.1 ≠ "severity"

/-- Reads the settings of a rule; what is not a setting of every rule is an option. -/
def readBlock (entries : Toml.Entries) : Except ConfigFault RuleBlock := do
  let enabled ← optional entries "enabled" boolean?
  let severity ← optional entries "severity" fun value => (choice? value).bind Level.ofName?
  match Toml.Value.entriesWithDates? (entries.filter isOption) with
  | some options => .ok { enabled, severity, options }
  | none => .error .invalid

/-- Reads the blocks of the rules. -/
def readBlocks : Toml.Entries → Except ConfigFault (List (String × RuleBlock))
  | [] => .ok []
  | (name, value) :: rest =>
    match value.tableEntries? with
    | some entries => do
      let block ← readBlock entries
      let blocks ← readBlocks rest
      .ok ((name, block) :: blocks)
    | none => .error .invalid

/-- The entries of the `analyzer` table; it may also be written as the array of its values. -/
def analyzerEntries? : Toml.Value → Option Toml.Entries
  | .array items => some (["include", "exclude"].zip items)
  | value => value.tableEntries?

/-- Reads a configuration from the entries of a file. -/
def ofEntries (entries : Toml.Entries) : Except ConfigFault Config := do
  let preset ← optional entries "preset" Toml.Value.string?
  let failOn ← optional entries "fail_on" fun value => (choice? value).bind Severity.ofName?
  let analyzer ← optional entries "analyzer" analyzerEntries?
  let includes ← optional (analyzer.getD []) "include" strings?
  let excludes ← optional (analyzer.getD []) "exclude" strings?
  let rules ← optional entries "rules" Toml.Value.tableEntries?
  let rules ← readBlocks (rules.getD [])
  .ok { preset, failOn, includes := includes.getD [], excludes := excludes.getD [], rules }

/-- Reads a configuration file. -/
def parse (text : String) : Except ConfigFault Config :=
  match Toml.read text with
  | .ok entries => ofEntries entries
  | .error _ => .error .invalid

/-- Reads the settings of one rule from a text of their own. -/
def parseBlock (text : String) : Except ConfigFault RuleBlock :=
  match Toml.read text with
  | .ok entries => readBlock entries
  | .error _ => .error .invalid

end Config

end ApiLint
