import ApiLint.Proofs.Linter.Violations
set_option autoImplicit false

/-!
# Runs over several files

A run over files is the runs over the single files one after the other: the reports on those
that can be loaded, behind each other.  Where a file that cannot be loaded ends the run, the
first such file does, and the run has its fault for a result.
-/

namespace ApiLint

namespace Document

/-- The document at a path, if it can be loaded. -/
def load? (readFile : String → Option String) (path : String) : Option Document :=
  (load readFile path).toOption

/-- The document at a path can be loaded. -/
def loads (readFile : String → Option String) (path : String) : Bool :=
  (load? readFile path).isSome

variable {readFile : String → Option String} {path : String}

theorem load?_of_ok {document : Document} (h : load readFile path = .ok document) :
    load? readFile path = some document := by
  rw [load?, h]
  rfl

theorem load?_of_error {fault : DocumentFault} (h : load readFile path = .error fault) :
    load? readFile path = none := by
  rw [load?, h]
  rfl

theorem loads_eq_true_iff :
    loads readFile path = true ↔ ∃ document, load readFile path = .ok document := by
  rw [loads, load?]
  cases load readFile path <;> simp [Except.toOption]

theorem loads_eq_false_iff :
    loads readFile path = false ↔ ∃ fault, load readFile path = .error fault := by
  rw [loads, load?]
  cases load readFile path <;> simp [Except.toOption]

/-- A loaded document knows its file. -/
theorem file_eq_of_load {document : Document} (h : load readFile path = .ok document) :
    document.file = some path := by
  unfold load at h
  split at h
  · simp at h
  · split at h
    · simp at h
    · next format _ _ text _ =>
      cases hroot : parseText path format text with
      | error fault => simp [hroot, Except.map] at h
      | ok root =>
        rw [hroot] at h
        exact Except.ok.inj h ▸ rfl

/-- Either all paths lead to documents, or there is a first one that does not. -/
theorem loads_or_exists_first_fault (readFile : String → Option String) (paths : List String) :
    (∀ path ∈ paths, loads readFile path = true) ∨
      ∃ before path after fault, paths = before ++ path :: after ∧
        (∀ path ∈ before, loads readFile path = true) ∧ load readFile path = .error fault := by
  cases hfind : paths.find? fun path => !loads readFile path with
  | none =>
    left
    simpa using hfind
  | some path =>
    right
    obtain ⟨hpath, before, after, hpaths, hbefore⟩ := List.find?_eq_some_iff_append.mp hfind
    obtain ⟨fault, hfault⟩ := loads_eq_false_iff.mp (by simpa using hpath)
    exact ⟨before, path, after, fault, hpaths, by simpa using hbefore, hfault⟩

end Document

namespace Linter

/-! ## The report on one file -/

/-- The violations in the document at a path, and none if it cannot be loaded. -/
def violationsAt (linter : Linter) (readFile : String → Option String) (path : String) :
    List Violation :=
  ((Document.load? readFile path).map linter.lint).getD []

/-- The report on the documents at paths, where those that cannot be loaded are left out. -/
def collected (linter : Linter) (readFile : String → Option String) (paths : List String) :
    Report :=
  { violations := paths.flatMap (linter.violationsAt readFile)
    documentsChecked := paths.countP (Document.loads readFile) }

variable {linter : Linter} {readFile : String → Option String}

theorem lint_file_eq {document : Document} {v : Violation} (h : v ∈ linter.lint document) :
    v.file = document.file := by
  rw [lint_eq] at h
  obtain ⟨rule, _, hv⟩ := List.mem_flatMap.mp h
  exact Rule.report_file_eq hv

/-- The violations in a document name the file that it was loaded from. -/
theorem file_eq_of_mem_violationsAt {path : String} {v : Violation}
    (h : v ∈ linter.violationsAt readFile path) : v.file = some path := by
  cases hload : Document.load readFile path with
  | ok document =>
    rw [violationsAt, Document.load?_of_ok hload] at h
    exact (lint_file_eq h).trans (Document.file_eq_of_load hload)
  | error fault =>
    rw [violationsAt, Document.load?_of_error hload] at h
    exact absurd h List.not_mem_nil

theorem collected_cons_of_ok {path : String} {document : Document}
    (h : Document.load readFile path = .ok document) (paths : List String) :
    linter.collected readFile (path :: paths) =
      (linter.reportOn document).append (linter.collected readFile paths) := by
  simp [collected, reportOn, Report.append, violationsAt, Document.loads, Document.load?_of_ok h,
    Nat.add_comm]

theorem collected_cons_of_error {path : String} {fault : DocumentFault}
    (h : Document.load readFile path = .error fault) (paths : List String) :
    linter.collected readFile (path :: paths) = linter.collected readFile paths := by
  simp [collected, violationsAt, Document.loads, Document.load?_of_error h]

theorem collected_append (paths more : List String) :
    linter.collected readFile (paths ++ more) =
      (linter.collected readFile paths).append (linter.collected readFile more) := by
  simp [collected, Report.append]

/-! ## The run -/

/-- Unless a fault ends it, a run puts the reports on the documents behind what it began with. -/
theorem lintFilesFrom_eq_ok {paths : List String}
    (h : linter.failOnParseError = true → ∀ path ∈ paths, Document.loads readFile path = true)
    (report : Report) :
    linter.lintFilesFrom readFile report paths =
      .ok (report.append (linter.collected readFile paths)) := by
  induction paths generalizing report with
  | nil => exact congrArg Except.ok report.append_empty.symm
  | cons path rest ih =>
    have hrest := ih fun hfail p hp => h hfail p (List.mem_cons_of_mem _ hp)
    cases hload : Document.load readFile path with
    | ok document =>
      rw [lintFilesFrom_cons_of_ok hload, collected_cons_of_ok hload, ← Report.append_assoc]
      exact hrest _
    | error fault =>
      have hlenient : ¬ linter.failOnParseError = true := by
        intro hfail
        have hloads := h hfail path List.mem_cons_self
        rw [Document.loads_eq_false_iff.mpr ⟨fault, hload⟩] at hloads
        exact Bool.false_ne_true hloads
      rw [lintFilesFrom_cons_of_error hload, if_neg hlenient, collected_cons_of_error hload]
      exact hrest report

/-- The first document that cannot be loaded ends a run that is to fail. -/
theorem lintFilesFrom_eq_error (hfail : linter.failOnParseError = true) {before : List String}
    (hbefore : ∀ path ∈ before, Document.loads readFile path = true) {path : String}
    {fault : DocumentFault} (hpath : Document.load readFile path = .error fault)
    (after : List String) (report : Report) :
    linter.lintFilesFrom readFile report (before ++ path :: after) = .error fault := by
  induction before generalizing report with
  | nil => rw [List.nil_append, lintFilesFrom_cons_of_error hpath, if_pos hfail]
  | cons first rest ih =>
    obtain ⟨hfirst, hrest⟩ := List.forall_mem_cons.mp hbefore
    obtain ⟨document, hload⟩ := Document.loads_eq_true_iff.mp hfirst
    rw [List.cons_append, lintFilesFrom_cons_of_ok hload]
    exact ih hrest _

theorem lintFiles_eq_ok {paths : List String}
    (h : linter.failOnParseError = true → ∀ path ∈ paths, Document.loads readFile path = true) :
    linter.lintFiles readFile paths = .ok (linter.collected readFile paths) := by
  rw [lintFiles, lintFilesFrom_eq_ok h]
  simp [Report.append]

/-- A run that is to fail ends with a fault exactly when it is that of the first document that
cannot be loaded. -/
theorem lintFiles_eq_error_iff (hfail : linter.failOnParseError = true) (paths : List String)
    (fault : DocumentFault) :
    linter.lintFiles readFile paths = .error fault ↔
      ∃ before path after, paths = before ++ path :: after ∧
        (∀ path ∈ before, Document.loads readFile path = true) ∧
        Document.load readFile path = .error fault := by
  constructor
  · intro hrun
    rcases Document.loads_or_exists_first_fault readFile paths with hloads | hfault
    · rw [lintFiles_eq_ok fun _ => hloads] at hrun
      exact absurd hrun nofun
    · obtain ⟨before, path, after, first, rfl, hbefore, hpath⟩ := hfault
      rw [lintFiles, lintFilesFrom_eq_error hfail hbefore hpath] at hrun
      exact ⟨before, path, after, rfl, hbefore, Except.error.inj hrun ▸ hpath⟩
  · rintro ⟨before, path, after, rfl, hbefore, hpath⟩
    exact lintFilesFrom_eq_error hfail hbefore hpath after _

theorem exists_lintFiles_eq_error_iff (hfail : linter.failOnParseError = true)
    (paths : List String) :
    (∃ fault, linter.lintFiles readFile paths = .error fault) ↔
      ∃ path ∈ paths, Document.loads readFile path = false := by
  simp only [lintFiles_eq_error_iff hfail]
  constructor
  · rintro ⟨fault, before, path, after, rfl, _, hpath⟩
    exact ⟨path, by simp, Document.loads_eq_false_iff.mpr ⟨fault, hpath⟩⟩
  · rintro ⟨path, hmem, hpath⟩
    rcases Document.loads_or_exists_first_fault readFile paths with hloads | hfault
    · rw [hloads path hmem] at hpath
      exact absurd hpath.symm Bool.false_ne_true
    · obtain ⟨before, path, after, fault, hpaths, hbefore, hfault⟩ := hfault
      exact ⟨fault, before, path, after, hpaths, hbefore, hfault⟩

/-- A run over files is the runs over the single files.  Leniently it has a result: the violations
in the documents that can be loaded, in the order of the files and each naming its file, over as
many documents as can be loaded; and the files can be split among two runs.  A strict run ends
with a fault exactly when some file cannot be loaded, and then with that of the first of them;
otherwise its result is the lenient one. -/
theorem lintFiles_file_by_file (linter : Linter) (readFile : String → Option String)
    (paths : List String) :
    (∃ report, { linter with failOnParseError := false }.lintFiles readFile paths = .ok report ∧
      report.violations = paths.flatMap (linter.violationsAt readFile) ∧
      report.documentsChecked = paths.countP (Document.loads readFile)) ∧
    (∀ path, ∀ v ∈ linter.violationsAt readFile path, v.file = some path) ∧
    (∀ more, { linter with failOnParseError := false }.lintFiles readFile (paths ++ more) = do
      let report ← { linter with failOnParseError := false }.lintFiles readFile paths
      let others ← { linter with failOnParseError := false }.lintFiles readFile more
      .ok (report.append others)) ∧
    ((∃ fault, { linter with failOnParseError := true }.lintFiles readFile paths = .error fault) ↔
      ∃ path ∈ paths, Document.loads readFile path = false) ∧
    (∀ fault, { linter with failOnParseError := true }.lintFiles readFile paths = .error fault ↔
      ∃ before path after, paths = before ++ path :: after ∧
        (∀ path ∈ before, Document.loads readFile path = true) ∧
        Document.load readFile path = .error fault) ∧
    ((∀ path ∈ paths, Document.loads readFile path = true) →
      { linter with failOnParseError := true }.lintFiles readFile paths =
        { linter with failOnParseError := false }.lintFiles readFile paths) := by
  have hlenient : ∀ files, { linter with failOnParseError := false }.lintFiles readFile files =
      .ok ({ linter with failOnParseError := false }.collected readFile files) :=
    fun files => lintFiles_eq_ok fun hfail => absurd hfail Bool.false_ne_true
  refine ⟨?_, ?_, ?_, ?_, ?_, ?_⟩
  · exact ⟨_, hlenient paths, rfl, rfl⟩
  · exact fun path v hv => file_eq_of_mem_violationsAt hv
  · intro more
    rw [hlenient, hlenient, hlenient, collected_append]
    rfl
  · exact exists_lintFiles_eq_error_iff rfl paths
  · exact lintFiles_eq_error_iff rfl paths
  · intro hloads
    rw [hlenient, lintFiles_eq_ok fun _ => hloads]
    rfl

/-- Two documents, one of them cut short. -/
def readPets (path : String) : Option String :=
  if path = "pets.json" then some "\x7b\"openapi\": \"3.0.0\"\x7d"
  else if path = "cut.json" then some "\x7b"
  else none

/-- The document is linted as often as it is listed, and the ones that cannot be loaded are left
out; a strict run ends with the fault of the first of these, and is the lenient one without
them. -/
theorem lintFiles_readPets :
    ((Linter.lintFiles { rules := [.standard .openapiTags] } readPets
        ["pets.json", "cut.json", "notes.txt", "pets.json"]).toOption.map
          fun report => (report.violations.map Violation.file, report.documentsChecked)) =
      some ([some "pets.json", some "pets.json"], 2) ∧
    Linter.lintFiles { rules := [.standard .openapiTags], failOnParseError := true } readPets
      ["pets.json", "cut.json", "notes.txt", "pets.json"] = .error ⟨"cut.json", .invalidJson⟩ ∧
    Linter.lintFiles { rules := [.standard .openapiTags], failOnParseError := true } readPets
        ["pets.json", "pets.json"] =
      Linter.lintFiles { rules := [.standard .openapiTags] } readPets
        ["pets.json", "pets.json"] := by
  obtain ⟨_, _, _, _, hfirst, _⟩ := lintFiles_file_by_file
    { rules := [.standard .openapiTags] } readPets
    ["pets.json", "cut.json", "notes.txt", "pets.json"]
  obtain ⟨_, _, _, _, _, hsame⟩ := lintFiles_file_by_file
    { rules := [.standard .openapiTags] } readPets ["pets.json", "pets.json"]
  refine ⟨by decide +kernel, (hfirst _).mpr ⟨["pets.json"], "cut.json", _, rfl, ?_, ?_⟩, ?_⟩
  · decide +kernel
  · rfl
  · exact hsame (by decide +kernel)

end Linter

end ApiLint
