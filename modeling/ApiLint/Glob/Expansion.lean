import ApiLint.FileTree
import ApiLint.Glob.Pattern
set_option autoImplicit false

/-!
# Expanding patterns

The files that a pattern stands for, in the order of their names, directory by
directory.  The pattern is cut at its separators, and each component is matched
against the names in a directory; so wildcards do not cross separators here.  A directory
that a wildcard needs and that cannot be listed is a fault.
-/

namespace ApiLint.Glob

/-! ## Below a directory -/

mutual

/-- The paths of everything below a tree, a directory before what is in it. -/
def pathsBelow (path : String → String) : FileTree → Except Fault (List String)
  | .file _ => .ok []
  | .unreadable => .ok []
  | .directory entries => do
    let found ← pathsOfEntries path entries
    .ok ((FileTree.sortEntries found).flatMap Prod.snd)
  | .sealed _ => .error .unreadableMatch

/-- The paths of each entry of a directory and of everything below it, with the entry's name. -/
def pathsOfEntries (path : String → String) :
    List (String × FileTree) → Except Fault (List (String × List String))
  | [] => .ok []
  | (name, tree) :: rest => do
    let below ← pathsBelow (FilePath.join (path name)) tree
    let others ← pathsOfEntries path rest
    .ok ((name, path name :: below) :: others)

end

/-- How entries of a directory are spelled: those of the starting point by their names only. -/
def entryPath (directory : String) : String → String :=
  if FilePath.same directory "." then id else FilePath.join directory

/-- The paths of the entries of a directory, ordered by name. -/
def entriesOf (fs : FileSystem) (path : String) : Except Fault (List String) :=
  match fs.lookup path with
  | some tree =>
    if tree.isSealed then .error .unreadableMatch
    else .ok ((FileTree.sortEntries tree.entries).map fun entry => entryPath path entry.1)
  | none => .ok []

/-- The paths of everything below a directory, ordered by name, a directory first. -/
def everythingBelow (fs : FileSystem) (path : String) : Except Fault (List String) :=
  match fs.lookup path with
  | some tree => pathsBelow (entryPath path) tree
  | none => .ok []

/-! ## Matching components -/

/-- A match, unless a directory is asked for and this is none. -/
def accept (fs : FileSystem) (onlyDirectories : Bool) (path : String) : List String :=
  if onlyDirectories && !fs.isDirectory path then [] else [path]

/-- The paths to try for the names `..` and `.`: only a pattern that begins with a point matches
them. -/
def dotPaths (pattern : Pattern) (path : String) : List String :=
  if pattern.head? = some (.literal '.') then
    (["..", "."].filter (isMatch pattern)).map (FilePath.join path)
  else []

/-- The path that a component without wildcards leads to, if there is something. -/
def literalStep (fs : FileSystem) (path : String) (name : String) : Option String :=
  let next := if FilePath.same path "." then name else FilePath.join path name
  if name = "." ∨ name = ".." then
    if fs.isDirectory path then some next else none
  else if fs.contains next then some next
  else none

/-- The name of a path matches a pattern. -/
def nameMatches (pattern : Pattern) (path : String) : Bool :=
  match FilePath.fileName? path with
  | some name => isMatch pattern name
  | none => false

/-- What a step finds for each path, one after the other; a fault ends the search. -/
def collect (step : String → Except Fault (List String)) :
    List String → Except Fault (List String)
  | [] => .ok []
  | path :: paths => do
    let found ← step path
    let more ← collect step paths
    .ok (found ++ more)

/-- The matches of a list of components below a path, in order.  Directories are listed for
wildcards only. -/
def matchesBelow (fs : FileSystem) (onlyDirectories : Bool) :
    List Pattern → String → Except Fault (List String)
  | [], path => .ok (accept fs onlyDirectories path)
  | pattern :: patterns, path =>
    match literalText? pattern with
    | some name =>
      match literalStep fs path (String.ofList name) with
      | some next => matchesBelow fs onlyDirectories patterns next
      | none => .ok []
    | none =>
      if !fs.isDirectory path then .ok []
      else if isRecursive pattern then
        match patterns with
        | [] => do
          let below ← everythingBelow fs path
          .ok (below.filter fs.isDirectory)
        | next :: others =>
          if isRecursive next then matchesBelow fs onlyDirectories (next :: others) path
          else do
            let below ← everythingBelow fs path
            collect (matchesBelow fs onlyDirectories others) (below.filter (nameMatches next))
      else do
        let entries ← entriesOf fs path
        collect (matchesBelow fs onlyDirectories patterns)
          (dotPaths pattern path ++ entries.filter (nameMatches pattern))

/-! ## Whole patterns -/

/-- The components of a pattern: what stands between separators, where a separator at the end
ends the last component. -/
def componentTexts (text : List Char) : List (List Char) :=
  let pieces := Text.splitList '/' text
  if pieces.getLast? = some [] then pieces.dropLast else pieces

/-- Reads the components of a pattern. -/
def readComponents : List (List Char) → Except Fault (List Pattern)
  | [] => .ok []
  | text :: texts => do
    let pattern ← parse (String.ofList text)
    let patterns ← readComponents texts
    .ok (pattern :: patterns)

/-- Reads a pattern as a whole and component by component, without the root that it may begin
at. -/
def readPattern (text : String) : Except Fault (List Pattern) := do
  let _ ← parse text
  let relative := if FilePath.isAbsolute text then text.toList.drop 1 else text.toList
  let patterns ← readComponents (componentTexts relative)
  .ok (if relative.isEmpty then [[]] else patterns)

/-- The paths that a pattern stands for, unless it is none or leads to a directory that cannot be
listed. -/
def expand (fs : FileSystem) (text : String) : Except Fault (List String) := do
  let patterns ← readPattern text
  let scope := if FilePath.isAbsolute text then "/" else "."
  matchesBelow fs (text.toList.getLast? = some '/') patterns scope

end ApiLint.Glob
