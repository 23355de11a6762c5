import ApiLint.CommandLine.Check
import ApiLint.Proofs.Linter.Discovery
set_option autoImplicit false

/-!
# Which files are found

Finding files takes the paths that the patterns stand for, one pattern after the other, leaves out
those that match a pattern to leave out, and of equal paths takes the first.  So files are found
once each, in the order in which they first occur, and finding them by two lists of patterns one
after the other adds what is new to what the first list finds.

Paths are equal by their components, but a pattern is matched against the spelling.  A pattern to
leave out can therefore hit the first spelling of a path and miss a later one, and the path moves
to the place of that one; nothing else can come in or change its place.
-/

namespace ApiLint

namespace FilePath

/-! ## Equal paths -/

theorem same_eq_of_same {p q : String} (h : same p q = true) (r : String) :
    same p r = same q r :=
  Bool.eq_iff_iff.mpr ⟨same_trans (same_symm h), same_trans h⟩

theorem same_comm (p q : String) : same p q = same q p :=
  Bool.eq_iff_iff.mpr ⟨same_symm, same_symm⟩

/-- The paths of a list, of equal ones only the first. -/
def distinct (paths : List String) : List String := paths.eraseDupsBy same

theorem distinct_cons_eq_filter (path : String) (rest : List String) :
    distinct (path :: rest) = path :: distinct (rest.filter fun q => !same q path) := by
  simp [distinct, List.eraseDupsBy_cons]

/-- What does not tell equal paths apart may be asked before or after. -/
theorem distinct_filter {p : String → Bool} (paths : List String)
    (h : ∀ a ∈ paths, ∀ b ∈ paths, same a b = true → p a = p b) :
    distinct (paths.filter p) = (distinct paths).filter p := by
  match paths, h with
  | [], _ => rfl
  | path :: rest, h =>
    have hothers : ∀ a ∈ rest.filter (fun q => !same q path),
        ∀ b ∈ rest.filter (fun q => !same q path), same a b = true → p a = p b :=
      fun a ha b hb => h a (List.mem_cons_of_mem _ (List.mem_filter.mp ha).1) b
        (List.mem_cons_of_mem _ (List.mem_filter.mp hb).1)
    rw [distinct_cons_eq_filter, List.filter_cons, List.filter_cons, ← distinct_filter _ hothers,
      List.filter_filter]
    split
    · rw [distinct_cons_eq_filter, List.filter_filter]
      simp only [Bool.and_comm]
    · next hpath =>
      -- no path equal to the one that is left out is asked for
      refine congrArg distinct (List.filter_congr fun q hq => ?_)
      cases hsame : same q path with
      | false => simp
      | true =>
        have hq' := h q (List.mem_cons_of_mem _ hq) path List.mem_cons_self hsame
        simp [hq', hpath]
termination_by paths.length
decreasing_by exact Nat.lt_succ_of_le (List.length_filter_le _ _)

theorem distinct_cons (path : String) (rest : List String) :
    distinct (path :: rest) = path :: (distinct rest).filter fun q => !same q path := by
  rw [distinct_cons_eq_filter, distinct_filter rest fun a _ b _ h => by rw [same_eq_of_same h]]

/-- Behind other paths only those are new that equal none of them. -/
theorem distinct_append (paths more : List String) :
    distinct (paths ++ more) =
      distinct paths ++ (distinct more).filter fun q => !(distinct paths).any (same q) := by
  induction paths with
  | nil => exact (List.filter_eq_self.mpr fun _ _ => rfl).symm
  | cons path rest ih =>
    rw [List.cons_append, distinct_cons, distinct_cons, ih, List.filter_append, List.filter_filter,
      List.cons_append]
    congr 2
    refine List.filter_congr fun q _ => ?_
    cases hsame : same q path with
    | true => simp [hsame]
    | false =>
      -- what equals the first path is not what `q` equals
      have hany : ((distinct rest).filter fun x => !same x path).any (same q) =
          (distinct rest).any (same q) := by
        rw [List.any_filter]
        congr 1
        funext x
        cases hx : same q x with
        | false => rw [Bool.and_false]
        | true => rw [← same_eq_of_same hx, hsame, Bool.not_false, Bool.true_and]
      rw [List.any_cons, hany, hsame, Bool.false_or, Bool.not_false, Bool.true_and]

/-- Leaving paths out only takes away those of them that are first; others can take their place. -/
theorem filter_distinct_sublist (paths : List String) (p : String → Bool) :
    ((distinct paths).filter p).Sublist (distinct (paths.filter p)) := by
  induction paths with
  | nil => exact .slnil
  | cons path rest ih =>
    rw [distinct_cons, List.filter_cons, List.filter_cons]
    split
    · rw [distinct_cons, List.filter_filter]
      refine .cons_cons path ?_
      have hrest := ih.filter fun q => !same q path
      rw [List.filter_filter] at hrest
      simpa only [Bool.and_comm] using hrest
    · exact (List.filter_sublist.filter p).trans ih

/-! ## Listing the first of each -/

/-- The files are the first spellings of the paths of a list, in the order in which they first
occur in it. -/
structure FirstOfEach (paths files : List String) : Prop where
  /-- no two files are equal -/
  each : files.Pairwise fun p q => same p q = false
  /-- no path is missing -/
  complete : ∀ path ∈ paths, ∃ file ∈ files, same file path = true
  /-- every file is spelled as it is first -/
  spelling : ∀ file ∈ files, paths.find? (same file) = some file
  order : files.Pairwise fun p q => paths.findIdx (same p) < paths.findIdx (same q)

/-- In front of a list, a path is a file and takes the place of the one that it equals. -/
theorem FirstOfEach.cons {rest files : List String} (h : FirstOfEach rest files) (path : String) :
    FirstOfEach (path :: rest) (path :: files.filter fun q => !same q path) := by
  -- a file that is not the first path is looked for behind it
  have hne : ∀ q ∈ files.filter (fun q => !same q path), q ∈ files ∧ same q path = false := by
    intro q hq
    simpa using List.mem_filter.mp hq
  have hfirst : (path :: rest).findIdx (same path) = 0 := by
    rw [List.findIdx_cons, same_refl, cond_true]
  have hbehind : ∀ {q}, same q path = false →
      (path :: rest).findIdx (same q) = rest.findIdx (same q) + 1 := by
    intro q hq
    rw [List.findIdx_cons, hq, cond_false]
  refine ⟨?_, ?_, ?_, ?_⟩
  · refine List.pairwise_cons.mpr ⟨fun q hq => ?_, h.each.filter _⟩
    rw [same_comm]
    exact (hne q hq).2
  · intro other hother
    rcases List.mem_cons.mp hother with rfl | hother
    · exact ⟨_, List.mem_cons_self, same_refl _⟩
    · obtain ⟨file, hfile, hsame⟩ := h.complete other hother
      cases hpath : same file path with
      | true =>
        refine ⟨path, List.mem_cons_self, ?_⟩
        rw [← same_eq_of_same hpath, hsame]
      | false =>
        have hmem : file ∈ files.filter fun q => !same q path :=
          List.mem_filter.mpr ⟨hfile, by rw [hpath, Bool.not_false]⟩
        exact ⟨file, List.mem_cons_of_mem _ hmem, hsame⟩
  · intro file hfile
    rcases List.mem_cons.mp hfile with rfl | hfile
    · rw [List.find?_cons_of_pos (same_refl file)]
    · obtain ⟨hmem, hpath⟩ := hne file hfile
      rw [List.find?_cons_of_neg (by simp [hpath]), h.spelling file hmem]
  · refine List.pairwise_cons.mpr ⟨fun q hq => ?_, ?_⟩
    · rw [hfirst, hbehind (hne q hq).2]
      exact Nat.succ_pos _
    · refine (h.order.filter _).imp_of_mem fun hp hq hlt => ?_
      rw [hbehind (hne _ hp).2, hbehind (hne _ hq).2]
      exact Nat.succ_lt_succ hlt

theorem firstOfEach_distinct (paths : List String) : FirstOfEach paths (distinct paths) := by
  induction paths with
  | nil => exact ⟨.nil, nofun, nofun, .nil⟩
  | cons path rest ih =>
    rw [distinct_cons]
    exact ih.cons path

end FilePath

namespace Linter

/-! ## Candidates -/

/-- The paths that paths and patterns stand for, one after the other. -/
def candidatesOf (directory : Directory) : List String → Except Glob.Fault (List String)
  | [] => .ok []
  | pattern :: patterns => do
    let paths ← candidates directory pattern
    let more ← candidatesOf directory patterns
    .ok (paths ++ more)

/-- The paths that a path or pattern stands for, and none if it cannot be expanded. -/
def standsFor (directory : Directory) (pattern : String) : List String :=
  if directory.contains pattern then [pattern]
  else (directory.expand pattern).toOption.getD []

variable {linter : Linter} {directory : Directory}

theorem standsFor_of_candidates {pattern : String} {paths : List String}
    (h : candidates directory pattern = .ok paths) : standsFor directory pattern = paths := by
  unfold candidates at h
  unfold standsFor
  split at h
  · next hcontains => rw [if_pos hcontains, Except.ok.inj h]
  · next hcontains =>
    rw [if_neg hcontains, h]
    rfl

theorem candidatesOf_eq_ok {patterns paths : List String}
    (h : candidatesOf directory patterns = .ok paths) :
    paths = patterns.flatMap (standsFor directory) := by
  induction patterns generalizing paths with
  | nil => exact (Except.ok.inj h).symm
  | cons pattern rest ih =>
    obtain ⟨first, hfirst, h⟩ := bind_eq_ok_iff.mp h
    obtain ⟨more, hmore, h⟩ := bind_eq_ok_iff.mp h
    rw [List.flatMap_cons, standsFor_of_candidates hfirst, ← ih hmore, Except.ok.inj h]

theorem candidatesOf_append (patterns more : List String) :
    candidatesOf directory (patterns ++ more) = (do
      let paths ← candidatesOf directory patterns
      let others ← candidatesOf directory more
      .ok (paths ++ others)) := by
  induction patterns with
  | nil =>
    cases hmore : candidatesOf directory more <;>
      simp [candidatesOf, hmore, bind, Except.bind]
  | cons pattern rest ih =>
    rw [List.cons_append, candidatesOf, ih, candidatesOf]
    cases candidates directory pattern <;> cases candidatesOf directory rest <;>
      cases candidatesOf directory more <;> simp [bind, Except.bind]

/-! ## Finding -/

/-- Of the paths that are not left out, the first of each are added unless an equal one is
there. -/
theorem addPaths_eq (linter : Linter) (found paths : List String) :
    linter.addPaths found paths = found ++
      FilePath.distinct ((paths.filter fun p => !linter.isExcluded p).filter
        fun p => !found.any (FilePath.same p)) := by
  induction paths generalizing found with
  | nil => exact (List.append_nil found).symm
  | cons path rest ih =>
    have hstep : linter.addPaths found (path :: rest) =
        linter.addPaths
          (if linter.isExcluded path || found.any (FilePath.same path) then found
            else found ++ [path]) rest := rfl
    rw [hstep, ih]
    by_cases hexcluded : linter.isExcluded path = true
    · simp [hexcluded]
    · by_cases hfound : found.any (FilePath.same path) = true
      · simp [hexcluded, hfound]
      · rw [if_neg (by simp [hexcluded, hfound]), List.filter_cons_of_pos (by simp [hexcluded]),
          List.filter_cons_of_pos (by simp [hfound]), FilePath.distinct_cons_eq_filter,
          List.append_assoc, List.singleton_append]
        congr 3
        rw [List.filter_filter (p := fun q => !FilePath.same q path)]
        refine List.filter_congr fun q _ => ?_
        simp [Bool.and_comm]

/-- Finding files is collecting what the patterns stand for and adding it at once. -/
theorem discoverFrom_eq_map (linter : Linter) (directory : Directory)
    (found patterns : List String) :
    linter.discoverFrom directory found patterns =
      (candidatesOf directory patterns).map (linter.addPaths found) := by
  induction patterns generalizing found with
  | nil => rfl
  | cons pattern rest ih =>
    rw [discoverFrom, candidatesOf]
    cases hpaths : candidates directory pattern with
    | error fault => rfl
    | ok paths =>
      have hrest := ih (linter.addPaths found paths)
      cases hmore : candidatesOf directory rest with
      | error fault =>
        rw [hmore] at hrest
        exact hrest
      | ok more =>
        rw [hmore] at hrest
        refine hrest.trans (congrArg Except.ok ?_)
        exact List.foldl_append.symm

/-- The files are the first of each of the candidates that are not left out. -/
theorem discover_eq_map (linter : Linter) (directory : Directory) (patterns : List String) :
    linter.discover directory patterns =
      (candidatesOf directory patterns).map fun paths =>
        FilePath.distinct (paths.filter fun p => !linter.isExcluded p) := by
  rw [discover, discoverFrom_eq_map]
  congr 1
  funext paths
  have hnone (chosen : List String) :
      chosen.filter (fun p => !([] : List String).any (FilePath.same p)) = chosen :=
    List.filter_eq_self.mpr fun _ _ => rfl
  rw [addPaths_eq, List.nil_append, hnone]

theorem discover_eq_ok_iff {files patterns : List String} :
    linter.discover directory patterns = .ok files ↔
      ∃ paths, candidatesOf directory patterns = .ok paths ∧
        FilePath.distinct (paths.filter fun p => !linter.isExcluded p) = files := by
  rw [discover_eq_map]
  cases candidatesOf directory patterns <;> simp [Except.map]

/-! ## Two lists of patterns -/

/-- What a second list of patterns adds is what it finds and the first does not. -/
theorem discover_append (patterns more : List String) :
    linter.discover directory (patterns ++ more) = (do
      let found ← linter.discover directory patterns
      let others ← linter.discover directory more
      .ok (found ++ others.filter fun path => !found.any (FilePath.same path))) := by
  rw [discover_eq_map, discover_eq_map, discover_eq_map, candidatesOf_append]
  cases candidatesOf directory patterns with
  | error fault => rfl
  | ok paths =>
    cases candidatesOf directory more with
    | error fault => rfl
    | ok others =>
      refine congrArg Except.ok ?_
      dsimp only
      rw [List.filter_append, FilePath.distinct_append]

/-! ## One more pattern to leave out -/

theorem filter_isExcluded_insert {before after : List Glob.Pattern} (pattern : Glob.Pattern)
    (h : linter.excludes = before ++ after) (paths : List String) :
    (paths.filter fun p =>
        !{ linter with excludes := before ++ pattern :: after }.isExcluded p) =
      (paths.filter fun p => !linter.isExcluded p).filter fun p => !Glob.isMatch pattern p := by
  rw [List.filter_filter]
  refine List.filter_congr fun p _ => ?_
  rw [isExcluded, isExcluded, h, List.any_append, List.any_append, List.any_cons]
  cases Glob.isMatch pattern p <;> simp

/-- With one more pattern to leave out, the files that it does not match are found as before, and
no other paths. -/
theorem exists_discover_insert {before after : List Glob.Pattern} (pattern : Glob.Pattern)
    (hexcludes : linter.excludes = before ++ after) {patterns files : List String}
    (h : linter.discover directory patterns = .ok files) :
    ∃ left, { linter with excludes := before ++ pattern :: after }.discover directory patterns =
        .ok left ∧
      (files.filter fun p => !Glob.isMatch pattern p).Sublist left ∧
      (∀ path ∈ left, ∃ file ∈ files, FilePath.same file path = true) ∧
      ((∀ p ∈ patterns.flatMap (standsFor directory),
          ∀ q ∈ patterns.flatMap (standsFor directory),
            FilePath.same p q = true → Glob.isMatch pattern p = Glob.isMatch pattern q) →
        left = files.filter fun p => !Glob.isMatch pattern p) := by
  obtain ⟨paths, hpaths, rfl⟩ := discover_eq_ok_iff.mp h
  have hleft := filter_isExcluded_insert pattern hexcludes paths
  refine ⟨_, discover_eq_ok_iff.mpr ⟨paths, hpaths, rfl⟩, ?_, ?_, ?_⟩
  · rw [hleft]
    exact FilePath.filter_distinct_sublist _ _
  · intro path hpath
    have hspelling := (FilePath.firstOfEach_distinct _).spelling path hpath
    rw [hleft] at hspelling
    have hmem := (List.mem_filter.mp (List.mem_of_find?_eq_some hspelling)).1
    exact (FilePath.firstOfEach_distinct _).complete path hmem
  · intro hblind
    rw [← candidatesOf_eq_ok hpaths] at hblind
    rw [hleft]
    refine FilePath.distinct_filter _ fun p hp q hq hsame => ?_
    rw [hblind p (List.mem_filter.mp hp).1 q (List.mem_filter.mp hq).1 hsame]

/-! ## What is found -/

theorem exists_discover_eq_error_iff (patterns : List String) :
    (∃ fault, linter.discover directory patterns = .error fault) ↔
      ∃ pattern ∈ patterns, directory.contains pattern = false ∧
        (directory.expand pattern = .error .invalidPattern ∨
          directory.expand pattern = .error .unreadableMatch) := by
  have hfault (pattern : String) : (∃ fault, directory.expand pattern = .error fault) ↔
      directory.expand pattern = .error .invalidPattern ∨
        directory.expand pattern = .error .unreadableMatch := by
    constructor
    · rintro ⟨fault, h⟩
      cases fault with
      | invalidPattern => exact .inl h
      | unreadableMatch => exact .inr h
    · rintro (h | h)
      · exact ⟨_, h⟩
      · exact ⟨_, h⟩
  rw [exists_eq_error_iff, exists_discover_iff]
  simp only [← hfault, exists_eq_error_iff, Classical.not_forall, not_or, exists_prop,
    Bool.not_eq_true]

/-- The files that are found are the first of each of the candidates that no pattern to leave out
matches, in order; finding files by two lists of patterns is finding them by the first and adding
what only the second finds; and there is a fault exactly when a pattern that leads to nothing
cannot be expanded or has a match that cannot be read.  One more pattern to leave out keeps the
files that it does not match, in their order, and brings in no path that was not found before;
if it matches all or none of the candidates that are equal, the files that it does not match are
all that is left. -/
theorem discover_first_of_each (linter : Linter) (directory : Directory) (patterns : List String) :
    (∀ files, linter.discover directory patterns = .ok files →
      FilePath.FirstOfEach
        ((patterns.flatMap (standsFor directory)).filter fun p => !linter.isExcluded p) files) ∧
    (∀ more, linter.discover directory (patterns ++ more) = (do
      let found ← linter.discover directory patterns
      let others ← linter.discover directory more
      .ok (found ++ others.filter fun path => !found.any (FilePath.same path)))) ∧
    ((∃ fault, linter.discover directory patterns = .error fault) ↔
      ∃ pattern ∈ patterns, directory.contains pattern = false ∧
        (directory.expand pattern = .error .invalidPattern ∨
          directory.expand pattern = .error .unreadableMatch)) ∧
    ∀ (before : List Glob.Pattern) (pattern : Glob.Pattern) (after : List Glob.Pattern)
      (files : List String), linter.excludes = before ++ after →
      linter.discover directory patterns = .ok files →
      ∃ left, { linter with excludes := before ++ pattern :: after }.discover directory patterns =
          .ok left ∧
        (files.filter fun p => !Glob.isMatch pattern p).Sublist left ∧
        (∀ path ∈ left, ∃ file ∈ files, FilePath.same file path = true) ∧
        ((∀ p ∈ patterns.flatMap (standsFor directory),
            ∀ q ∈ patterns.flatMap (standsFor directory),
              FilePath.same p q = true → Glob.isMatch pattern p = Glob.isMatch pattern q) →
          left = files.filter fun p => !Glob.isMatch pattern p) := by
  refine ⟨?_, discover_append patterns, exists_discover_eq_error_iff patterns, ?_⟩
  · intro files h
    obtain ⟨paths, hpaths, rfl⟩ := discover_eq_ok_iff.mp h
    rw [← candidatesOf_eq_ok hpaths]
    exact FilePath.firstOfEach_distinct _
  · intro before pattern after files hexcludes h
    exact exists_discover_insert pattern hexcludes h

/-- A pattern without wildcards. -/
def literalPattern (text : String) : Glob.Pattern := text.toList.map .literal

/-- One document that can be spelled in two ways, and two that a pattern stands for. -/
def sampleDirectory : Directory where
  contains path := path ∈ ["specs/x.json", "specs//x.json"]
  expand pattern :=
    if pattern = "*.json" then .ok ["a.json", "b.json"]
    else if pattern = "[" then .error .invalidPattern
    else .ok []

/-- Each document is found once, though one is given twice; with a pattern that matches none of
its spellings, nothing but the match of the pattern is gone, and a bracket that is never closed
ends the search. -/
theorem discover_sampleDirectory :
    (∃ files, { rules := [] : Linter }.discover sampleDirectory
        ["specs//x.json", "*.json", "specs/x.json"] = .ok files ∧
      FilePath.FirstOfEach ["specs//x.json", "a.json", "b.json", "specs/x.json"] files ∧
      { rules := [], excludes := [literalPattern "a.json"] : Linter }.discover sampleDirectory
          ["specs//x.json", "*.json", "specs/x.json"] =
        .ok (files.filter fun p => !Glob.isMatch (literalPattern "a.json") p)) ∧
      ∃ fault, { rules := [] : Linter }.discover sampleDirectory ["specs/x.json", "["] =
        .error fault := by
  obtain ⟨hfirst, _, _, hinsert⟩ := discover_first_of_each { rules := [] } sampleDirectory
    ["specs//x.json", "*.json", "specs/x.json"]
  obtain ⟨_, _, hfault, _⟩ := discover_first_of_each { rules := [] } sampleDirectory
    ["specs/x.json", "["]
  have hfiles : { rules := [] : Linter }.discover sampleDirectory
      ["specs//x.json", "*.json", "specs/x.json"] =
        .ok ["specs//x.json", "a.json", "b.json"] := by
    exact eq_ok_of_toOption_eq_some (by decide +kernel)
  refine ⟨⟨_, hfiles, hfirst _ hfiles, ?_⟩, hfault.mpr ⟨"[", by simp, rfl, .inl rfl⟩⟩
  obtain ⟨left, hleft, _, _, heq⟩ := hinsert [] (literalPattern "a.json") [] _ rfl hfiles
  rw [← heq (by decide +kernel)]
  exact hleft

/-- A working directory with a document and another one below it. -/
def specsDirectory : FileSystem where
  root := .directory [("a.json", .file "\x7b\x7d".toUTF8),
    ("specs", .directory [("x.json", .file "\x7b\x7d".toUTF8)])]
  workingDirectory := []

/-- A pattern to leave out can hit the first spelling of a path and not the second: the path then
goes behind another one that it stood before. -/
theorem exists_path_moved_by_exclude :
    ∃ pattern, Glob.parse "specs//x.json" = .ok pattern ∧
      { rules := [] : Linter }.discover (CommandLine.directoryOf specsDirectory)
        ["specs//x.json", "a.json", "specs/x.json"] = .ok ["specs//x.json", "a.json"] ∧
      { rules := [], excludes := [pattern] : Linter }.discover
        (CommandLine.directoryOf specsDirectory) ["specs//x.json", "a.json", "specs/x.json"] =
          .ok ["a.json", "specs/x.json"] ∧
      ¬ (["a.json", "specs/x.json"].map FilePath.components).Sublist
        (["specs//x.json", "a.json"].map FilePath.components) :=
  ⟨literalPattern "specs//x.json", eq_ok_of_toOption_eq_some (by decide +kernel),
    eq_ok_of_toOption_eq_some (by decide +kernel), eq_ok_of_toOption_eq_some (by decide +kernel),
    by decide +kernel⟩

end Linter

end ApiLint
