import ApiLint.Glob.Expansion
import ApiLint.Proofs.Results
set_option autoImplicit false

/-!
# When patterns can be expanded

A text that is no pattern, or has a component that is none, cannot be expanded.  Any other can
be where every directory can be listed.  So a match that cannot be read is the fault of a
directory that cannot be listed: of the one that a wildcard stands in, or of any below it if
the wildcard stands for whole components.
-/

namespace ApiLint

/-! ## Trees that can be listed -/

/-- Every directory in a tree can be listed. -/
inductive FileTree.Listable : FileTree → Prop
  | file (content : ByteArray) : Listable (.file content)
  | unreadable : Listable .unreadable
  | directory {entries : List (String × FileTree)}
      (below : ∀ entry ∈ entries, Listable entry.2) : Listable (.directory entries)

namespace FileTree.Listable

variable {tree : FileTree}

theorem isSealed_eq_false (h : Listable tree) : tree.isSealed = false := by
  cases h <;> rfl

theorem directory_iff {entries : List (String × FileTree)} :
    Listable (.directory entries) ↔ ∀ entry ∈ entries, Listable entry.2 :=
  ⟨fun | .directory below => below, .directory⟩

theorem of_entry? (h : Listable tree) {name : String} {inner : FileTree}
    (hentry : tree.entry? name = some inner) : Listable inner := by
  obtain ⟨entry, hfind, rfl⟩ := Option.map_eq_some_iff.mp hentry
  cases h with
  | file => exact absurd hfind nofun
  | unreadable => exact absurd hfind nofun
  | directory below => exact below entry (List.mem_of_find?_eq_some hfind)

/-- What a path leads to was passed on the way or is an entry of what was. -/
theorem of_follow {trees : List FileTree} {pieces : List String}
    (h : ∀ tree ∈ trees, Listable tree) (hfollow : FileSystem.follow trees pieces = some tree) :
    Listable tree := by
  fun_induction FileSystem.follow trees pieces with
  | case1 trees => exact h tree (List.mem_of_mem_head? hfollow)
  | case2 | case3 | case8 => exact absurd hfollow nofun
  | case4 here above piece pieces _ _ ih => exact ih h hfollow
  | case5 here pieces _ _ ih => exact ih h hfollow
  | case6 here pieces _ last above _ ih => exact ih (List.forall_mem_cons.mp h).2 hfollow
  | case7 here above piece pieces _ _ _ inner hentry ih =>
    have hinner : Listable inner := of_entry? (h here List.mem_cons_self) hentry
    exact ih (List.forall_mem_cons.mpr ⟨hinner, h⟩) hfollow

theorem of_lookup {fs : FileSystem} (h : Listable fs.root) {path : String}
    (hlookup : fs.lookup path = some tree) : Listable tree := by
  have hroot : ∀ tree ∈ [fs.root], Listable tree := List.forall_mem_singleton.mpr h
  unfold FileSystem.lookup at hlookup
  split at hlookup
  · exact absurd hlookup nofun
  · split at hlookup
    · exact of_follow hroot hlookup
    · exact of_follow hroot hlookup

end FileTree.Listable

namespace Glob

/-! ## Reading patterns -/

theorem eq_invalidPattern_of_parse {text : String} {fault : Fault}
    (h : parse text = .error fault) : fault = .invalidPattern := by
  unfold parse at h
  split at h
  · exact absurd h nofun
  · exact (Except.error.inj h).symm

theorem eq_invalidPattern_of_readComponents {texts : List (List Char)} {fault : Fault}
    (h : readComponents texts = .error fault) : fault = .invalidPattern := by
  induction texts with
  | nil => exact absurd h nofun
  | cons text rest ih =>
    simp only [readComponents, bind_eq_error_iff] at h
    rcases h with h | ⟨_, _, h | ⟨_, _, h⟩⟩
    · exact eq_invalidPattern_of_parse h
    · exact ih h
    · exact absurd h nofun

theorem eq_invalidPattern_of_readPattern {text : String} {fault : Fault}
    (h : readPattern text = .error fault) : fault = .invalidPattern := by
  simp only [readPattern, bind_eq_error_iff] at h
  rcases h with h | ⟨_, _, h | ⟨_, _, h⟩⟩
  · exact eq_invalidPattern_of_parse h
  · exact eq_invalidPattern_of_readComponents h
  · exact absurd h nofun

/-! ## Listings -/

mutual

/-- Everything below a tree can be listed when every directory in it can be. -/
theorem exists_pathsBelow_iff (path : String → String) : ∀ tree : FileTree,
    (∃ paths, pathsBelow path tree = .ok paths) ↔ tree.Listable
  | .file content => iff_of_true ⟨[], rfl⟩ (.file content)
  | .unreadable => iff_of_true ⟨[], rfl⟩ .unreadable
  | .directory entries => by
    rw [FileTree.Listable.directory_iff, ← exists_pathsOfEntries_iff path entries]
    simp only [pathsBelow, bind_eq_ok_iff]
    constructor
    · rintro ⟨_, found, hfound, _⟩
      exact ⟨found, hfound⟩
    · rintro ⟨found, hfound⟩
      exact ⟨_, found, hfound, rfl⟩
  | .sealed _ => iff_of_false nofun nofun

theorem exists_pathsOfEntries_iff (path : String → String) :
    ∀ entries : List (String × FileTree),
      (∃ found, pathsOfEntries path entries = .ok found) ↔ ∀ entry ∈ entries, entry.2.Listable
  | [] => iff_of_true ⟨[], rfl⟩ nofun
  | (name, tree) :: rest => by
    rw [List.forall_mem_cons, ← exists_pathsBelow_iff (FilePath.join (path name)) tree,
      ← exists_pathsOfEntries_iff path rest]
    simp only [pathsOfEntries, bind_eq_ok_iff]
    constructor
    · rintro ⟨_, below, hbelow, others, hothers, _⟩
      exact ⟨⟨below, hbelow⟩, others, hothers⟩
    · rintro ⟨⟨below, hbelow⟩, others, hothers⟩
      exact ⟨_, below, hbelow, others, hothers, rfl⟩

end

variable {fs : FileSystem}

theorem exists_entriesOf_iff (path : String) :
    (∃ paths, entriesOf fs path = .ok paths) ↔
      ∀ tree, fs.lookup path = some tree → tree.isSealed = false := by
  unfold entriesOf
  cases fs.lookup path with
  | none => simp
  | some tree => cases htree : tree.isSealed <;> simp [htree]

theorem exists_everythingBelow_iff (path : String) :
    (∃ paths, everythingBelow fs path = .ok paths) ↔
      ∀ tree, fs.lookup path = some tree → tree.Listable := by
  unfold everythingBelow
  cases fs.lookup path with
  | none => simp
  | some tree => simp [exists_pathsBelow_iff]

/-! ## Matches -/

theorem exists_collect_iff {step : String → Except Fault (List String)} (paths : List String) :
    (∃ found, collect step paths = .ok found) ↔ ∀ path ∈ paths, ∃ found, step path = .ok found := by
  induction paths with
  | nil => simp [collect]
  | cons path rest ih =>
    rw [List.forall_mem_cons, ← ih]
    simp only [collect, bind_eq_ok_iff]
    constructor
    · rintro ⟨_, found, hfound, more, hmore, _⟩
      exact ⟨⟨found, hfound⟩, more, hmore⟩
    · rintro ⟨⟨found, hfound⟩, more, hmore⟩
      exact ⟨_, found, hfound, more, hmore, rfl⟩

/-- Where every directory can be listed, components have their matches. -/
theorem exists_matchesBelow (h : fs.root.Listable) (onlyDirectories : Bool) :
    ∀ (patterns : List Pattern) (path : String),
      ∃ paths, matchesBelow fs onlyDirectories patterns path = .ok paths
  | [], path => ⟨_, rfl⟩
  | pattern :: patterns, path => by
    obtain ⟨below, hbelow⟩ : ∃ paths, everythingBelow fs path = .ok paths :=
      (exists_everythingBelow_iff path).mpr fun _ => h.of_lookup
    obtain ⟨entries, hentries⟩ : ∃ paths, entriesOf fs path = .ok paths :=
      (exists_entriesOf_iff path).mpr fun _ hlookup => (h.of_lookup hlookup).isSealed_eq_false
    unfold matchesBelow
    split
    -- a component without wildcards
    · split
      · exact exists_matchesBelow h onlyDirectories patterns _
      · exact ⟨_, rfl⟩
    · split
      · exact ⟨_, rfl⟩
      · split
        -- a wildcard for whole components
        · split
          · exact ⟨_, bind_eq_ok_iff.mpr ⟨below, hbelow, rfl⟩⟩
          · next next others =>
            split
            · exact exists_matchesBelow h onlyDirectories (next :: others) path
            · obtain ⟨found, hfound⟩ := (exists_collect_iff (below.filter (nameMatches next))).mpr
                fun inner _ => exists_matchesBelow h onlyDirectories others inner
              exact ⟨found, bind_eq_ok_iff.mpr ⟨below, hbelow, hfound⟩⟩
        -- a wildcard in one component
        · obtain ⟨found, hfound⟩ := (exists_collect_iff
              (dotPaths pattern path ++ entries.filter (nameMatches pattern))).mpr
            fun inner _ => exists_matchesBelow h onlyDirectories patterns inner
          exact ⟨found, bind_eq_ok_iff.mpr ⟨entries, hentries, hfound⟩⟩

theorem literalText?_eq_none_of_isRecursive {pattern : Pattern} (h : isRecursive pattern = true) :
    literalText? pattern = none := by
  induction pattern with
  | nil => exact absurd h nofun
  | cons token rest ih =>
    cases token with
    | literal c =>
      have hrest : isRecursive rest = true := by simpa [isRecursive] using h
      rw [literalText?, ih hrest, Option.map_none]
    | _ => rfl

/-- A wildcard in a directory that cannot be listed has no matches to go on with. -/
theorem matchesBelow_sealed {path : String} {entries : List (String × FileTree)}
    (hlookup : fs.lookup path = some (.sealed entries)) (onlyDirectories : Bool)
    {pattern : Pattern} (hwild : literalText? pattern = none) (patterns : List Pattern) :
    matchesBelow fs onlyDirectories (pattern :: patterns) path = .error .unreadableMatch := by
  have hdirectory : fs.isDirectory path = true := by
    rw [FileSystem.isDirectory, hlookup]
    rfl
  have hentries : entriesOf fs path = .error .unreadableMatch := by
    rw [entriesOf, hlookup]
    rfl
  have hbelow : everythingBelow fs path = .error .unreadableMatch := by
    rw [everythingBelow, hlookup]
    rfl
  induction patterns generalizing pattern with
  | nil =>
    unfold matchesBelow
    simp only [hwild, hdirectory, hentries, hbelow, Bool.not_true, Bool.false_eq_true, if_false]
    split <;> rfl
  | cons next others ih =>
    unfold matchesBelow
    simp only [hwild, hdirectory, hentries, hbelow, Bool.not_true, Bool.false_eq_true, if_false]
    split
    · split
      · next hnext => exact ih (literalText?_eq_none_of_isRecursive hnext)
      · rfl
    · rfl

/-! ## Faults -/

/-- A text that is no pattern cannot be expanded anywhere. -/
theorem expand_eq_invalidPattern {text : String}
    (h : ¬ ∃ patterns, readPattern text = .ok patterns) :
    expand fs text = .error .invalidPattern := by
  obtain ⟨fault, hfault⟩ := exists_eq_error_iff.mpr h
  obtain rfl := eq_invalidPattern_of_readPattern hfault
  exact bind_eq_error_iff.mpr (.inl hfault)

/-- Where every directory can be listed, patterns and nothing else can be expanded. -/
theorem exists_expand_iff (h : fs.root.Listable) (text : String) :
    (∃ paths, expand fs text = .ok paths) ↔ ∃ patterns, readPattern text = .ok patterns := by
  simp only [expand, bind_eq_ok_iff]
  constructor
  · rintro ⟨_, patterns, hpatterns, _⟩
    exact ⟨patterns, hpatterns⟩
  · rintro ⟨patterns, hpatterns⟩
    obtain ⟨paths, hpaths⟩ := exists_matchesBelow h _ patterns _
    exact ⟨paths, patterns, hpatterns, hpaths⟩

/-- If a match cannot be read, there is a directory that cannot be listed. -/
theorem not_listable_of_expand {text : String}
    (h : expand fs text = .error .unreadableMatch) : ¬ fs.root.Listable := by
  intro hlistable
  have hnone : ¬ ∃ patterns, readPattern text = .ok patterns := by
    rw [← exists_expand_iff hlistable text, h]
    simp
  rw [expand_eq_invalidPattern hnone] at h
  exact absurd h nofun

end Glob

end ApiLint
