import ApiLint.Linter
import ApiLint.Proofs.Results
set_option autoImplicit false

/-!
# Setting up a linter and finding files

A linter can be set up when every pattern of files to leave out can be read, and files can be
found when every path or pattern leads to something or can be expanded.  Which files are found
depends on the patterns to leave out and on nothing else of the linter.
-/

namespace ApiLint

namespace Linter

/-! ## Patterns to leave out -/

theorem exists_readPatterns_iff (texts : List String) :
    (∃ patterns, readPatterns texts = .ok patterns) ↔
      ∀ text ∈ texts, ∃ pattern, Glob.parse text = .ok pattern := by
  induction texts with
  | nil => simp [readPatterns]
  | cons text rest ih =>
    rw [List.forall_mem_cons, ← ih]
    simp only [readPatterns, bind_eq_ok_iff]
    constructor
    · rintro ⟨_, pattern, hpattern, patterns, hpatterns, _⟩
      exact ⟨⟨pattern, hpattern⟩, patterns, hpatterns⟩
    · rintro ⟨⟨pattern, hpattern⟩, patterns, hpatterns⟩
      exact ⟨_, pattern, hpattern, patterns, hpatterns, rfl⟩

/-- A linter is set up with what it is given. -/
theorem build_eq_ok_iff {rules : List Rule} {excludes : List String} {config : Config}
    {failOnParseError : Bool} {linter : Linter} :
    build rules excludes config failOnParseError = .ok linter ↔
      ∃ patterns, readPatterns (excludes ++ config.excludes) = .ok patterns ∧
        { rules, excludes := patterns, config, failOnParseError } = linter := by
  simp only [build, bind_eq_ok_iff, Except.ok.injEq]

/-! ## Files -/

theorem exists_candidates_iff (directory : Directory) (pattern : String) :
    (∃ paths, candidates directory pattern = .ok paths) ↔
      directory.contains pattern = true ∨ ∃ paths, directory.expand pattern = .ok paths := by
  unfold candidates
  split
  · next h => simp [h]
  · next h => simp [h]

theorem exists_discoverFrom_iff (linter : Linter) (directory : Directory) (found : List String)
    (patterns : List String) :
    (∃ files, linter.discoverFrom directory found patterns = .ok files) ↔
      ∀ pattern ∈ patterns, ∃ paths, candidates directory pattern = .ok paths := by
  induction patterns generalizing found with
  | nil => simp [discoverFrom]
  | cons pattern rest ih =>
    rw [List.forall_mem_cons]
    simp only [discoverFrom, bind_eq_ok_iff]
    constructor
    · rintro ⟨files, paths, hpaths, hfiles⟩
      exact ⟨⟨paths, hpaths⟩, (ih _).mp ⟨files, hfiles⟩⟩
    · rintro ⟨⟨paths, hpaths⟩, hrest⟩
      obtain ⟨files, hfiles⟩ := (ih (linter.addPaths found paths)).mpr hrest
      exact ⟨files, paths, hpaths, hfiles⟩

/-- Files can be found when every path or pattern leads to something or can be expanded. -/
theorem exists_discover_iff (linter : Linter) (directory : Directory) (patterns : List String) :
    (∃ files, linter.discover directory patterns = .ok files) ↔
      ∀ pattern ∈ patterns, directory.contains pattern = true ∨
        ∃ paths, directory.expand pattern = .ok paths := by
  simp only [discover, exists_discoverFrom_iff, exists_candidates_iff]

/-- Which files are found depends on the patterns to leave out alone. -/
theorem discover_eq_of_excludes {linter other : Linter} (h : linter.excludes = other.excludes)
    (directory : Directory) (patterns : List String) :
    linter.discover directory patterns = other.discover directory patterns := by
  have hadd : linter.addPaths = other.addPaths := by
    funext found paths
    unfold addPaths isExcluded
    rw [h]
  have hfrom : ∀ found, linter.discoverFrom directory found patterns =
      other.discoverFrom directory found patterns := by
    induction patterns with
    | nil => exact fun _ => rfl
    | cons pattern rest ih =>
      intro found
      rw [discoverFrom, discoverFrom, hadd]
      exact congrArg (candidates directory pattern >>= ·) (funext fun paths => ih _)
  exact hfrom []

end Linter

end ApiLint
