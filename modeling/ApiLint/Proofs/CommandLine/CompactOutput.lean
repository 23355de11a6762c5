import ApiLint.CommandLine.Output
import ApiLint.Proofs.Document.WellFormed
import ApiLint.Proofs.Linter.Files
import ApiLint.Proofs.Rule.Messages
set_option autoImplicit false

/-!
# The lines of compact output

Compact output has a line for each violation and one more for each line feed that a violation
quotes, as nothing is escaped.  A violation quotes the name of its file, the keys of its path
and, in some messages, a name of the document.  So there is one line per violation for
documents whose keys and required names have no line feed.
-/

namespace ApiLint

namespace DocPath

/-- A dotted path has the line feeds of its keys. -/
theorem lineFeeds_dotted (path : DocPath) :
    Text.lineFeeds path.dotted = ((path.filterMap Segment.key?).map Text.lineFeeds).sum := by
  rw [dotted, Text.lineFeeds_intercalate (by decide)]
  induction path with
  | nil => rfl
  | cons segment rest ih =>
    cases segment with
    | key name => simpa [Segment.text, Segment.key?] using ih
    | index position =>
      have hindex : Text.lineFeeds (Segment.index position).text = 0 :=
        (Text.oneLine_iff _).mp (Text.oneLine_toString position)
      rw [List.map_cons, List.map_cons, List.sum_cons, hindex, Nat.zero_add, ih]
      rfl

end DocPath

/-! ## Violations -/

namespace Violation

/-- The line feeds that a violation quotes in its one-line form: those in the name of its file, in
the keys of its path and in its message. -/
def lineFeeds (v : Violation) : Nat :=
  Text.lineFeeds v.fileLabel + ((v.path.filterMap Segment.key?).map Text.lineFeeds).sum +
    Text.lineFeeds v.message

theorem lineFeeds_compact {v : Violation} (hcode : Text.OneLine v.code) :
    Text.lineFeeds v.compact = v.lineFeeds := by
  have hseverity : Text.lineFeeds v.severity.name = 0 := by cases v.severity <;> decide
  have hcolon : Text.lineFeeds ":" = 0 := by decide
  have hspace : Text.lineFeeds ": " = 0 := by decide
  have hopen : Text.lineFeeds " [" = 0 := by decide
  have hclose : Text.lineFeeds "] " = 0 := by decide
  simp only [compact, lineFeeds, Text.lineFeeds_append, DocPath.lineFeeds_dotted, hseverity, hcolon,
    hspace, hopen, hclose, (Text.oneLine_iff _).mp hcode, Nat.add_zero]

end Violation

theorem RuleId.oneLine_code (id : RuleId) : Text.OneLine id.code := by cases id <;> decide

namespace Linter

variable {linter : Linter} {readFile : String → Option String} {paths : List String}
  {report : Report}

/-- A run that comes to a report has collected it. -/
theorem eq_collected_of_lintFiles (h : linter.lintFiles readFile paths = .ok report) :
    report = linter.collected readFile paths := by
  have hloads : linter.failOnParseError = true →
      ∀ path ∈ paths, Document.loads readFile path = true := by
    intro hfail path hpath
    by_contra hfault
    obtain ⟨fault, hrun⟩ := (exists_lintFiles_eq_error_iff hfail paths).mpr
      ⟨path, hpath, by simpa using hfault⟩
    rw [hrun] at h
    cases h
  rw [lintFiles_eq_ok hloads] at h
  exact (Except.ok.inj h).symm

/-- Every violation of a run is one of a rule in a document that was loaded from a path, and names
this path. -/
theorem exists_entry_of_mem_lintFiles (h : linter.lintFiles readFile paths = .ok report)
    {v : Violation} (hv : v ∈ report.violations) :
    ∃ path ∈ paths, ∃ document, Document.load readFile path = .ok document ∧
      ∃ rule ∈ linter.rules,
        ∃ entry ∈ rule.gradedFindings (linter.blockOf rule) document.root,
          v = (linter.blockOf rule).violation (some path) rule.id entry := by
  rw [eq_collected_of_lintFiles h] at hv
  obtain ⟨path, hpath, hv⟩ := List.mem_flatMap.mp hv
  cases hload : Document.load readFile path with
  | error fault =>
    rw [violationsAt, Document.load?_of_error hload] at hv
    exact absurd hv List.not_mem_nil
  | ok document =>
    have hlint : linter.violationsAt readFile path = linter.lint document := by
      rw [violationsAt, Document.load?_of_ok hload]
      rfl
    rw [hlint, lint_eq] at hv
    obtain ⟨rule, hrule, hv⟩ := List.mem_flatMap.mp hv
    obtain ⟨entry, hentry, rfl⟩ := Rule.exists_entry_of_mem_report hv
    rw [Document.file_eq_of_load hload]
    exact ⟨path, hpath, document, hload, rule, hrule, entry, hentry, rfl⟩

end Linter

namespace CommandLine

theorem lineFeeds_compactOutput_eq (report : Report) :
    Text.lineFeeds (compactOutput report) = report.violations.length +
      (report.violations.map fun v => Text.lineFeeds v.compact).sum := by
  have hend : Text.lineFeeds "\n" = 1 := by decide
  rw [compactOutput, Text.lineFeeds_join, List.map_map]
  induction report.violations with
  | nil => rfl
  | cons v rest ih =>
    simp only [List.map_cons, List.sum_cons, List.length_cons, Function.comp_apply,
      Text.lineFeeds_append, hend] at ih ⊢
    omega

/-- When the files have names of one line, and the documents keys and required names of one line,
no violation quotes a line feed. -/
theorem lineFeeds_eq_zero_of_mem_lintFiles {linter : Linter} {readFile : String → Option String}
    {paths : List String} {report : Report}
    (hrun : linter.lintFiles readFile paths = .ok report)
    (hpaths : ∀ path ∈ paths, Text.OneLine path ∧
      ∀ document, Document.load readFile path = .ok document →
        document.root.Throughout Node.OneLine) {v : Violation} (hv : v ∈ report.violations) :
    v.lineFeeds = 0 := by
  obtain ⟨path, hpath, document, hload, rule, _, entry, hentry, rfl⟩ :=
    Linter.exists_entry_of_mem_lintFiles hrun hv
  obtain ⟨hfile, hdocuments⟩ := hpaths path hpath
  have hwf := Document.wellFormed_of_load hload
  have hnames := hdocuments document hload
  have hlabel : Text.lineFeeds path = 0 := (Text.oneLine_iff _).mp hfile
  have hmessage : Text.lineFeeds entry.2.message = 0 :=
    (Text.oneLine_iff _).mp (Rule.oneLine_message_gradedFindings hwf hnames rule _ entry hentry)
  have hkeys : ∀ n ∈ (entry.2.path.filterMap Segment.key?).map Text.lineFeeds, n = 0 := by
    intro n hn
    obtain ⟨key, hkey, rfl⟩ := List.mem_map.mp hn
    obtain ⟨segment, hsegment, hkey⟩ := List.mem_filterMap.mp hkey
    cases segment with
    | key name =>
      obtain rfl := Option.some.inj hkey
      exact (Text.oneLine_iff _).mp
        (Rule.oneLine_path_gradedFindings hwf hnames rule _ entry hentry _ hsegment)
    | index position => cases hkey
  have hsum := List.sum_eq_zero hkeys
  show Text.lineFeeds path + ((entry.2.path.filterMap Segment.key?).map Text.lineFeeds).sum +
    Text.lineFeeds entry.2.message = 0
  omega

/-- Compact output has a line for each violation and one more for each line feed that a violation
quotes.  When the files have names of one line, and the documents keys and required names of one
line, its lines are the violations in their one-line forms. -/
theorem lineFeeds_compactOutput {linter : Linter} {readFile : String → Option String}
    {paths : List String} {report : Report}
    (hrun : linter.lintFiles readFile paths = .ok report) :
    Text.lineFeeds (compactOutput report) =
        report.violations.length + (report.violations.map Violation.lineFeeds).sum ∧
      ((∀ path ∈ paths, Text.OneLine path ∧
          ∀ document, Document.load readFile path = .ok document →
            document.root.Throughout Node.OneLine) →
        Text.lineFeeds (compactOutput report) = report.violations.length ∧
          Text.split '\n' (compactOutput report) =
            report.violations.map Violation.compact ++ [""]) := by
  have hcompact : ∀ v ∈ report.violations, Text.lineFeeds v.compact = v.lineFeeds := by
    intro v hv
    obtain ⟨_, _, _, _, rule, _, _, _, rfl⟩ := Linter.exists_entry_of_mem_lintFiles hrun hv
    exact Violation.lineFeeds_compact rule.id.oneLine_code
  have hlines : Text.lineFeeds (compactOutput report) =
      report.violations.length + (report.violations.map Violation.lineFeeds).sum := by
    rw [lineFeeds_compactOutput_eq, List.map_congr_left hcompact]
  refine ⟨hlines, fun hpaths => ?_⟩
  have hzero : ∀ v ∈ report.violations, v.lineFeeds = 0 := fun v hv =>
    lineFeeds_eq_zero_of_mem_lintFiles hrun hpaths hv
  refine ⟨?_, ?_⟩
  · rw [hlines, List.sum_eq_zero (List.forall_mem_map.mpr hzero), Nat.add_zero]
  · have hlines : ∀ line ∈ report.violations.map Violation.compact, Text.OneLine line := by
      refine List.forall_mem_map.mpr fun v hv => (Text.oneLine_iff _).mpr ?_
      rw [hcompact v hv, hzero v hv]
    have hsplit := Text.split_join hlines
    rwa [List.map_map] at hsplit

/-- Two documents with an operation without tags; the key of one path has a line feed. -/
def readUntagged (path : String) : Option String :=
  if path = "pets.json" then some "\x7b\"paths\": \x7b\"/pets\": \x7b\"get\": \x7b\x7d\x7d\x7d\x7d"
  else if path = "api.json" then
    some "\x7b\"paths\": \x7b\"/a\\nb\": \x7b\"get\": \x7b\x7d\x7d\x7d\x7d"
  else none

/-- One violation has two lines, when the key of a path has a line feed. -/
theorem exists_violation_of_two_lines :
    (Linter.lintFiles { rules := [.standard .operationTags] } readUntagged
        ["api.json"]).toOption.map
          (fun report => (report.violations.length, Text.lineFeeds (compactOutput report))) =
      some (1, 2) := by
  decide +kernel

/-- The document without line feeds is loaded. -/
def loadsPets : Except DocumentFault Document → Bool
  | .ok ⟨.object [("paths", .object [("/pets", .object [("get", .object [])])])],
      some "pets.json"⟩ => true
  | _ => false

theorem load_pets :
    Document.load readUntagged "pets.json" = .ok
      { root := .object [("paths", .object [("/pets", .object [("get", .object [])])])]
        file := some "pets.json" } := by
  have hload : loadsPets (Document.load readUntagged "pets.json") = true := by decide +kernel
  unfold loadsPets at hload
  split at hload
  · next hdocument => exact hdocument
  · cases hload

/-- Without line feeds in its keys, the document has one line for its violation. -/
theorem lineFeeds_compactOutput_pets :
    ∃ report, Linter.lintFiles { rules := [.standard .operationTags] } readUntagged ["pets.json"] =
        .ok report ∧ report.violations.length = 1 ∧ Text.lineFeeds (compactOutput report) = 1 := by
  have hnames : Node.Throughout Node.OneLine
      (.object [("paths", .object [("/pets", .object [("get", .object [])])])]) := by
    simp only [Node.throughout_object_iff, List.forall_mem_singleton]
    exact ⟨⟨by decide, by decide⟩, ⟨by decide, by decide⟩, ⟨by decide, by decide⟩,
      ⟨by decide, by decide⟩, nofun⟩
  have hrun : Linter.lintFiles { rules := [.standard .operationTags] } readUntagged ["pets.json"] =
      .ok (Linter.collected { rules := [.standard .operationTags] } readUntagged ["pets.json"]) :=
    Linter.lintFiles_eq_ok fun hfail => absurd hfail Bool.false_ne_true
  have hlength : (Linter.collected { rules := [.standard .operationTags] } readUntagged
      ["pets.json"]).violations.length = 1 := by
    decide +kernel
  obtain ⟨hlines, _⟩ := (lineFeeds_compactOutput hrun).2 fun path hpath => by
    obtain rfl := List.mem_singleton.mp hpath
    refine ⟨by decide, fun document hload => ?_⟩
    obtain rfl := Except.ok.inj (load_pets.symm.trans hload)
    exact hnames
  exact ⟨_, hrun, hlength, hlines.trans hlength⟩

end CommandLine

end ApiLint
