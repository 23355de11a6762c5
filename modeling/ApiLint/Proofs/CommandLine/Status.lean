import Mathlib
import ApiLint.CommandLine.Run
import ApiLint.Proofs.Linter.Discovery
import ApiLint.Proofs.Linter.Files
set_option autoImplicit false

/-!
# The exit status of a check

A check that cannot be set up has status 1.  One that is set up has status 2 when a document
that cannot be loaded ends it, and otherwise 0 or 1, by the counts of its report at and above
the threshold.  Neither the form of the output nor a higher threshold makes a check fail.
-/

namespace ApiLint

/-! ## Counts and thresholds -/

/-- The count of a severity. -/
def SeverityCounts.of (counts : SeverityCounts) : Severity → Nat
  | .error => counts.errors
  | .warning => counts.warnings
  | .info => counts.infos
  | .hint => counts.hints

theorem Report.counts_of (report : Report) (severity : Severity) :
    report.counts.of severity = report.count severity := by
  cases severity <;> rfl

/-- No violation reaches a threshold exactly when all counts from it on are zero. -/
theorem Report.hasViolationsAt_eq_false_iff (report : Report) (threshold : Severity) :
    report.hasViolationsAt threshold = false ↔
      ∀ severity : Severity, severity.atLeast threshold = true →
        report.counts.of severity = 0 := by
  simp only [Report.counts_of, Report.count, List.countP_eq_zero, Report.hasViolationsAt,
    List.any_eq_false, decide_eq_true_eq]
  constructor
  · intro h severity hseverity v hv heq
    exact h v hv (heq ▸ hseverity)
  · intro h v hv hatLeast
    exact h v.severity hatLeast v hv rfl

namespace CommandLine

/-! ## Setting up -/

/-- All that a check needs to be set up with a configuration. -/
structure Ready (fs : Files) (source : ConfigSource) (options : CheckOptions)
    (config : Config) : Prop where
  loaded : source.load fs.read = .ok config
  /-- the rules are listed, or there is a preset with the name -/
  rulesKnown : options.rules = none → ∃ preset : Preset, preset.name = presetNameOf options config
  patternsGiven : patternsOf options config ≠ []
  excludesValid : ∀ text ∈ options.excludes ++ config.excludes,
    ∃ pattern, Glob.parse text = .ok pattern
  /-- each path or pattern that leads to nothing by itself is valid, and what it stands for can be
  read -/
  patternsReadable : ∀ pattern ∈ patternsOf options config,
    fs.contains pattern = true ∨ ∃ paths, fs.expand pattern = .ok paths

variable {fs : Files} {source : ConfigSource} {options : CheckOptions}

theorem exists_parse_iff (name : String) :
    (∃ preset, Preset.parse name = .ok preset) ↔ ∃ preset : Preset, preset.name = name := by
  constructor
  · rintro ⟨preset, hparse⟩
    unfold Preset.parse at hparse
    split at hparse
    · next found hfound =>
      have hname := List.find?_some hfound
      exact ⟨found, of_decide_eq_true hname⟩
    · simp at hparse
  · rintro ⟨preset, rfl⟩
    exact ⟨preset, preset.parse_name⟩

theorem exists_chooseRules_iff (options : CheckOptions) (config : Config) :
    (∃ rules, chooseRules options config = .ok rules) ↔
      (options.rules = none → ∃ preset : Preset, preset.name = presetNameOf options config) := by
  rw [← exists_parse_iff, chooseRules, presetNameOf]
  cases options.rules with
  | some list => simp
  | none =>
    cases Preset.parse ((options.preset.or config.preset).getD Preset.recommended.name) <;> simp

theorem choosePatterns_eq (options : CheckOptions) (config : Config) :
    choosePatterns options config =
      if patternsOf options config = [] then .error .nothingToCheck
      else .ok (patternsOf options config) := by
  have hchoose : choosePatterns options config =
      if (patternsOf options config).isEmpty then .error .nothingToCheck
      else .ok (patternsOf options config) := rfl
  simp only [hchoose, List.isEmpty_iff]

theorem choosePatterns_eq_ok_iff {config : Config} {patterns : List String} :
    choosePatterns options config = .ok patterns ↔
      patternsOf options config ≠ [] ∧ patternsOf options config = patterns := by
  rw [choosePatterns_eq]
  split
  · next h => simp [h]
  · next h => simp [h]

theorem setUp_eq_ok_iff {linter : Linter} {files : List String} :
    setUp fs source options = .ok (linter, files) ↔
      ∃ config, source.load fs.read = .ok config ∧
        ∃ rules, chooseRules options config = .ok rules ∧
          patternsOf options config ≠ [] ∧
          Linter.build rules options.excludes config options.failOnParseError = .ok linter ∧
          linter.discover fs.toDirectory (patternsOf options config) = .ok files := by
  simp only [setUp, bind_eq_ok_iff, mapError_eq_ok_iff, loadConfig, choosePatterns_eq_ok_iff,
    Except.ok.injEq, Prod.mk.injEq]
  constructor
  · rintro ⟨config, hconfig, rules, hrules, _, ⟨hgiven, rfl⟩, _, hbuild, _, hfiles, rfl, rfl⟩
    exact ⟨config, hconfig, rules, hrules, hgiven, hbuild, hfiles⟩
  · rintro ⟨config, hconfig, rules, hrules, hgiven, hbuild, hfiles⟩
    exact ⟨config, hconfig, rules, hrules, _, ⟨hgiven, rfl⟩, _, hbuild, _, hfiles, rfl, rfl⟩

/-- What is set up has the configuration that was loaded and the option to end at a fault. -/
theorem linter_of_setUp {linter : Linter} {files : List String}
    (h : setUp fs source options = .ok (linter, files)) :
    source.load fs.read = .ok linter.config ∧
      linter.failOnParseError = options.failOnParseError := by
  obtain ⟨config, hconfig, rules, _, _, hbuild, _⟩ := setUp_eq_ok_iff.mp h
  obtain ⟨patterns, _, rfl⟩ := Linter.build_eq_ok_iff.mp hbuild
  exact ⟨hconfig, rfl⟩

/-- A check is set up with a configuration exactly when it has all that it needs. -/
theorem exists_setUp_iff {config : Config} :
    (∃ linter files, setUp fs source options = .ok (linter, files) ∧ linter.config = config) ↔
      Ready fs source options config := by
  constructor
  · rintro ⟨linter, files, h, rfl⟩
    obtain ⟨config, hconfig, rules, hrules, hgiven, hbuild, hfiles⟩ := setUp_eq_ok_iff.mp h
    obtain ⟨patterns, hpatterns, rfl⟩ := Linter.build_eq_ok_iff.mp hbuild
    exact {
      loaded := hconfig
      rulesKnown := (exists_chooseRules_iff options config).mp ⟨rules, hrules⟩
      patternsGiven := hgiven
      excludesValid := (Linter.exists_readPatterns_iff _).mp ⟨patterns, hpatterns⟩
      patternsReadable := (Linter.exists_discover_iff _ _ _).mp ⟨files, hfiles⟩ }
  · intro h
    obtain ⟨rules, hrules⟩ := (exists_chooseRules_iff options config).mpr h.rulesKnown
    obtain ⟨patterns, hpatterns⟩ := (Linter.exists_readPatterns_iff _).mpr h.excludesValid
    have hbuild : Linter.build rules options.excludes config options.failOnParseError =
        .ok { rules, excludes := patterns, config, failOnParseError := options.failOnParseError } :=
      Linter.build_eq_ok_iff.mpr ⟨patterns, hpatterns, rfl⟩
    obtain ⟨files, hfiles⟩ :=
      (Linter.exists_discover_iff _ fs.toDirectory _).mpr h.patternsReadable
    exact ⟨_, files, setUp_eq_ok_iff.mpr
      ⟨config, h.loaded, rules, hrules, h.patternsGiven, hbuild, hfiles⟩, rfl⟩

/-- No fault of setting up is one of a document. -/
theorem status_of_setUp_error {fault : CheckFault} (h : setUp fs source options = .error fault) :
    fault.status = 1 := by
  simp only [setUp, bind_eq_error_iff, mapError_eq_error_iff, loadConfig] at h
  rcases h with ⟨_, _, rfl⟩ | ⟨config, _, h⟩
  · rfl
  rcases h with hrules | ⟨rules, _, h⟩
  · unfold chooseRules at hrules
    split at hrules
    · simp at hrules
    · split at hrules
      · simp at hrules
      · exact Except.error.inj hrules ▸ rfl
  rcases h with hpatterns | ⟨patterns, _, h⟩
  · rw [choosePatterns_eq] at hpatterns
    split at hpatterns
    · exact Except.error.inj hpatterns ▸ rfl
    · simp at hpatterns
  rcases h with ⟨_, _, rfl⟩ | ⟨linter, _, h⟩
  · rfl
  rcases h with ⟨_, _, rfl⟩ | ⟨files, _, h⟩
  · rfl
  · simp at h

/-! ## The status -/

/-- The exit status of a check. -/
def exitStatus (fs : Files) (source : ConfigSource) (options : CheckOptions) : Nat :=
  (checkOutcome options.form (check fs source options)).status

/-- A run whose command line asks for a check ends with the status of the check. -/
theorem status_run {env : Environment} {args : List String} {configFile : Option String}
    (h : readArguments env args = .ok { configFile, command := .check options })
    (fs : FileSystem) :
    (run env fs args).status =
      exitStatus (filesOf fs) (.find fs (userDirectory env) configFile) options := by
  rw [run, h]
  rfl

/-- The status does not depend on what is printed. -/
theorem status_checkOutcome (form : OutputForm) (result : Except CheckFault CheckResult) :
    (checkOutcome form result).status = checkStatus result := by
  cases result <;> rfl

theorem exitStatus_eq_checkStatus :
    exitStatus fs source options = checkStatus (check fs source options) :=
  status_checkOutcome options.form _

theorem exitStatus_of_setUp_error {fault : CheckFault}
    (h : setUp fs source options = .error fault) : exitStatus fs source options = 1 := by
  have hcheck : check fs source options = .error fault := bind_eq_error_iff.mpr (.inl h)
  rw [exitStatus_eq_checkStatus, hcheck]
  exact status_of_setUp_error h

/-- A document that cannot be loaded ends the check. -/
def EndsAtFault (fs : Files) (options : CheckOptions) (files : List String) : Prop :=
  options.failOnParseError = true ∧ ∃ file ∈ files, Document.loads fs.read file = false

section SetUp

variable {linter : Linter} {files : List String}
  (h : setUp fs source options = .ok (linter, files))
include h

theorem check_of_setUp :
    check fs source options = (do
      let report ← (linter.lintFiles fs.read files).mapError CheckFault.document
      .ok { report, threshold := linter.config.threshold }) := by
  rw [check, h]
  rfl

theorem exitStatus_of_fault (hfault : EndsAtFault fs options files) :
    exitStatus fs source options = 2 := by
  have hfail : linter.failOnParseError = true := (linter_of_setUp h).2.trans hfault.1
  obtain ⟨fault, hrun⟩ := (Linter.exists_lintFiles_eq_error_iff hfail files).mpr hfault.2
  rw [exitStatus_eq_checkStatus, check_of_setUp h, hrun]
  rfl

theorem lintFiles_of_not_fault (hfault : ¬ EndsAtFault fs options files) :
    linter.lintFiles fs.read files = .ok (linter.collected fs.read files) := by
  refine Linter.lintFiles_eq_ok fun hfail file hfile => ?_
  by_contra hloads
  exact hfault ⟨(linter_of_setUp h).2.symm.trans hfail, file, hfile, by simpa using hloads⟩

/-- Unless a document ends the check, the counts of the report decide. -/
theorem exitStatus_of_not_fault (hfault : ¬ EndsAtFault fs options files) :
    exitStatus fs source options =
      CheckResult.status ⟨linter.collected fs.read files, linter.config.threshold⟩ := by
  rw [exitStatus_eq_checkStatus, check_of_setUp h, lintFiles_of_not_fault h hfault]
  rfl

end SetUp

theorem CheckResult.status_le_one (result : CheckResult) : result.status ≤ 1 := by
  unfold CheckResult.status
  split <;> decide

/-- The status is 2 exactly when the check is set up and a document ends it. -/
theorem exitStatus_eq_two_iff :
    exitStatus fs source options = 2 ↔
      ∃ linter files, setUp fs source options = .ok (linter, files) ∧
        EndsAtFault fs options files := by
  constructor
  · intro hstatus
    cases h : setUp fs source options with
    | error fault =>
      rw [exitStatus_of_setUp_error h] at hstatus
      omega
    | ok found =>
      obtain ⟨linter, files⟩ := found
      refine ⟨linter, files, rfl, ?_⟩
      by_contra hfault
      rw [exitStatus_of_not_fault h hfault] at hstatus
      have hle := CheckResult.status_le_one
        ⟨linter.collected fs.read files, linter.config.threshold⟩
      omega
  · rintro ⟨linter, files, h, hfault⟩
    exact exitStatus_of_fault h hfault

/-- The status is 0 exactly when the check is set up, comes to a report, and the report counts
nothing from the threshold on. -/
theorem exitStatus_eq_zero_iff :
    exitStatus fs source options = 0 ↔
      ∃ linter files, setUp fs source options = .ok (linter, files) ∧
        ¬ EndsAtFault fs options files ∧
        ∀ severity : Severity, severity.atLeast linter.config.threshold = true →
          (linter.collected fs.read files).counts.of severity = 0 := by
  constructor
  · intro hstatus
    cases h : setUp fs source options with
    | error fault =>
      rw [exitStatus_of_setUp_error h] at hstatus
      omega
    | ok found =>
      obtain ⟨linter, files⟩ := found
      have hfault : ¬ EndsAtFault fs options files := by
        intro hfault
        rw [exitStatus_of_fault h hfault] at hstatus
        omega
      rw [exitStatus_of_not_fault h hfault, CheckResult.status_eq_zero_iff,
        Report.hasViolationsAt_eq_false_iff] at hstatus
      exact ⟨linter, files, rfl, hfault, hstatus⟩
  · rintro ⟨linter, files, h, hfault, hcounts⟩
    rw [exitStatus_of_not_fault h hfault, CheckResult.status_eq_zero_iff,
      Report.hasViolationsAt_eq_false_iff]
    exact hcounts

theorem exitStatus_le_two : exitStatus fs source options ≤ 2 := by
  rw [exitStatus_eq_checkStatus]
  cases check fs source options with
  | ok result => exact Nat.le_succ_of_le result.status_le_one
  | error fault => cases fault <;> simp [checkStatus, CheckFault.status]

/-! ## Raising the threshold -/

/-- The files have the same paths, patterns stand for the same ones, and the documents are the
same, whatever else the files hold. -/
structure SameDocuments (fs other : Files) : Prop where
  contains : ∀ path, fs.contains path = other.contains path
  expand : ∀ pattern, fs.expand pattern = other.expand pattern
  load : ∀ path, Document.load fs.read path = Document.load other.read path

variable {other : Files} {otherSource : ConfigSource}

theorem SameDocuments.toDirectory_eq (h : SameDocuments fs other) :
    fs.toDirectory = other.toDirectory := by
  cases fs
  cases other
  exact congrArg₂ Linter.Directory.mk (funext h.contains) (funext h.expand)

theorem SameDocuments.loads_eq (h : SameDocuments fs other) (path : String) :
    Document.loads fs.read path = Document.loads other.read path := by
  rw [Document.loads, Document.loads, Document.load?, Document.load?, h.load]

theorem SameDocuments.violationsAt_eq (h : SameDocuments fs other) (linter : Linter)
    (path : String) :
    linter.violationsAt fs.read path = linter.violationsAt other.read path := by
  rw [Linter.violationsAt, Linter.violationsAt, Document.load?, Document.load?, h.load]

theorem SameDocuments.collected_eq (h : SameDocuments fs other) (linter : Linter)
    (files : List String) :
    linter.collected fs.read files = linter.collected other.read files := by
  rw [Linter.collected, Linter.collected, funext (h.violationsAt_eq linter),
    funext h.loads_eq]

/-- The threshold of the configuration has no part in setting up. -/
theorem setUp_withThreshold (hsame : SameDocuments fs other) {linter : Linter}
    {files : List String} (h : setUp fs source options = .ok (linter, files))
    {failOn : Option Severity}
    (hother : otherSource.load other.read = .ok { linter.config with failOn }) :
    setUp other otherSource options =
      .ok ({ linter with config := { linter.config with failOn } }, files) := by
  obtain ⟨config, _, rules, hrules, hgiven, hbuild, hfiles⟩ := setUp_eq_ok_iff.mp h
  obtain ⟨patterns, hpatterns, rfl⟩ := Linter.build_eq_ok_iff.mp hbuild
  refine setUp_eq_ok_iff.mpr ⟨_, hother, rules, hrules, hgiven, ?_, ?_⟩
  · exact Linter.build_eq_ok_iff.mpr ⟨patterns, hpatterns, rfl⟩
  · rw [← hsame.toDirectory_eq, ← hfiles]
    refine Linter.discover_eq_of_excludes ?_ _ _
    rfl

/-- A check that passes does so at every higher threshold. -/
theorem exitStatus_eq_zero_of_raised (hsame : SameDocuments fs other) {config : Config}
    (hconfig : source.load fs.read = .ok config) {least : Severity}
    (hleast : least.atLeast config.threshold = true)
    (hother : otherSource.load other.read = .ok { config with failOn := some least })
    (hstatus : exitStatus fs source options = 0) : exitStatus other otherSource options = 0 := by
  obtain ⟨linter, files, h, hfault, hcounts⟩ := exitStatus_eq_zero_iff.mp hstatus
  obtain rfl : linter.config = config :=
    Except.ok.inj ((linter_of_setUp h).1.symm.trans hconfig)
  refine exitStatus_eq_zero_iff.mpr ⟨_, files, setUp_withThreshold hsame h hother, ?_, ?_⟩
  · rintro ⟨hfail, file, hfile, hloads⟩
    exact hfault ⟨hfail, file, hfile, (hsame.loads_eq file).trans hloads⟩
  · intro severity hseverity
    have hcount := hcounts severity (Severity.atLeast_trans hseverity hleast)
    rw [hsame.collected_eq] at hcount
    exact hcount

/-- The exit status of a check.  It can be set up exactly when it has all that it needs.  Then
the status is 2 exactly when a document that cannot be loaded ends it, and 0 exactly when none
does and the report counts nothing from the threshold on; it is 1 in all other cases.  The form
of the output has no part in it, and a higher threshold does not make a check fail that passes. -/
theorem exitStatus_spec (fs : Files) (source : ConfigSource) (options : CheckOptions) :
    (∀ config, (∃ linter files, setUp fs source options = .ok (linter, files) ∧
        linter.config = config) ↔ Ready fs source options config) ∧
    (exitStatus fs source options = 2 ↔
      ∃ linter files, setUp fs source options = .ok (linter, files) ∧
        EndsAtFault fs options files) ∧
    (exitStatus fs source options = 0 ↔
      ∃ linter files report, setUp fs source options = .ok (linter, files) ∧
        ¬ EndsAtFault fs options files ∧ linter.lintFiles fs.read files = .ok report ∧
        ∀ severity : Severity, severity.atLeast linter.config.threshold = true →
          report.counts.of severity = 0) ∧
    (exitStatus fs source options ≠ 2 → exitStatus fs source options ≠ 0 →
      exitStatus fs source options = 1) ∧
    (∀ form, exitStatus fs source { options with form } = exitStatus fs source options) ∧
    ∀ (other : Files) (otherSource : ConfigSource) (config : Config) (least : Severity),
      SameDocuments fs other → source.load fs.read = .ok config →
        least.atLeast config.threshold = true →
        otherSource.load other.read = .ok { config with failOn := some least } →
        exitStatus fs source options = 0 → exitStatus other otherSource options = 0 := by
  refine ⟨?_, ?_, ?_, ?_, ?_, ?_⟩
  · exact fun config => exists_setUp_iff
  · exact exitStatus_eq_two_iff
  · rw [exitStatus_eq_zero_iff]
    constructor
    · rintro ⟨linter, files, h, hfault, hcounts⟩
      exact ⟨linter, files, _, h, hfault, lintFiles_of_not_fault h hfault, hcounts⟩
    · rintro ⟨linter, files, report, h, hfault, hreport, hcounts⟩
      rw [lintFiles_of_not_fault h hfault] at hreport
      obtain rfl := Except.ok.inj hreport
      exact ⟨linter, files, h, hfault, hcounts⟩
  · intro htwo hzero
    have hle : exitStatus fs source options ≤ 2 := exitStatus_le_two
    omega
  · intro form
    rw [exitStatus_eq_checkStatus, exitStatus_eq_checkStatus]
    rfl
  · intro other otherSource config least hsame hconfig hleast hother hstatus
    exact exitStatus_eq_zero_of_raised hsame hconfig hleast hother hstatus

/-- A working directory with a document without tags, one that is cut short, three
configurations, and a directory that cannot be listed. -/
def petDirectory : FileSystem where
  root := .directory [
    ("pets.json", .file "\x7b\"openapi\": \"3.0.0\"\x7d".toUTF8),
    ("cut.json", .file "\x7b".toUTF8),
    ("eager.toml", .file "fail_on = \"hint\"".toUTF8),
    ("stern.toml", .file "fail_on = \"warning\"".toUTF8),
    ("lax.toml", .file "fail_on = \"error\"".toUTF8),
    ("drafts", .sealed [("owls.json", .unreadable)])]
  workingDirectory := []

theorem load_asked {readFile : String → Option String} {path text : String}
    (h : readFile path = some text) :
    (ConfigSource.asked path).load readFile = Config.parse text := by
  show Config.load readFile path = _
  rw [Config.load, h]

/-- The hint on the missing tags fails a check where hints do.  It passes from warnings on, and
so it does from errors on.  A check of all that is in a directory that cannot be listed is not
set up.  The broken document ends a check that is to end at faults, and so does one that cannot
be read. -/
theorem exitStatus_petDirectory :
    (exitStatus (filesOf petDirectory) (.asked "eager.toml") { files := ["pets.json"] } = 1 ∧
      exitStatus (filesOf petDirectory) .defaults { files := [] } = 1 ∧
      exitStatus (filesOf petDirectory) .defaults { files := ["pets.json", "drafts/*"] } = 1 ∧
      exitStatus (filesOf petDirectory) .defaults
        { files := ["drafts/owls.json"], failOnParseError := true } = 2 ∧
      exitStatus (filesOf petDirectory) .defaults
        { files := ["pets.json", "cut.json"], failOnParseError := true } = 2) ∧
    (∀ config, ¬ Ready (filesOf petDirectory) .defaults { files := ["pets.json", "drafts/*"] }
      config) ∧
    exitStatus (filesOf petDirectory) (.asked "stern.toml")
      { files := ["pets.json", "cut.json"] } = 0 ∧
    exitStatus (filesOf petDirectory) (.asked "lax.toml")
      { files := ["pets.json", "cut.json"] } = 0 := by
  obtain ⟨hsetUp, _⟩ := exitStatus_spec (filesOf petDirectory) .defaults
    { files := ["pets.json", "drafts/*"] }
  obtain ⟨_, _, _, _, _, hraised⟩ := exitStatus_spec (filesOf petDirectory) (.asked "stern.toml")
    { files := ["pets.json", "cut.json"] }
  have hstern : exitStatus (filesOf petDirectory) (.asked "stern.toml")
      { files := ["pets.json", "cut.json"] } = 0 := by decide +kernel
  refine ⟨by decide +kernel, ?_, hstern, ?_⟩
  · intro config hready
    obtain ⟨linter, files, h, _⟩ := (hsetUp config).mpr hready
    have hnone : (setUp (filesOf petDirectory) .defaults
        { files := ["pets.json", "drafts/*"] }).toOption.isNone = true := by decide +kernel
    rw [h] at hnone
    exact absurd hnone nofun
  have hwarning : petDirectory.read "stern.toml" = some "fail_on = \"warning\"" := by
    decide +kernel
  have herror : petDirectory.read "lax.toml" = some "fail_on = \"error\"" := by
    decide +kernel
  refine hraised (filesOf petDirectory) (.asked "lax.toml") { failOn := some .warning } .error
    ⟨fun _ => rfl, fun _ => rfl, fun _ => rfl⟩ ?_ (by decide) ?_ hstern
  · rw [filesOf, load_asked hwarning]
    cbv
  · rw [filesOf, load_asked herror]
    cbv

end CommandLine

end ApiLint
