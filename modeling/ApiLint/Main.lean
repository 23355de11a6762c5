import ApiLint.CommandLine.Run
set_option autoImplicit false

/-!
# The program

Takes a copy of the files that a run can ask for, runs, and carries out the outcome.
Everything that is decided is decided by the run.
-/

namespace ApiLint.Program

/-! ## Places to copy -/

/-- The names on the way from the root to an absolute path, where `..` goes back one. -/
def namesOf (path : String) : List String :=
  (FilePath.pieces path).foldl (fun names piece =>
    if piece = "." then names
    else if piece = ".." then names.dropLast
    else names ++ [piece]) []

/-- The component has a wildcard. -/
def hasWildcard (piece : String) : Bool := piece.toList.any fun c => c = '*' || c = '?' || c = '['

/-- The part of a path or pattern before its first component with a wildcard. -/
def fixedPart (pattern : String) : String :=
  let fixed := (Text.split '/' pattern).takeWhile fun piece => !hasWildcard piece
  if FilePath.isAbsolute pattern then "/" ++ "/".intercalate fixed else "/".intercalate fixed

/-- How many directories deep a copy goes; links can make a tree endless. -/
def depthLimit : Nat := 64

/-- How many directories have to be listed on the way to the matches of a pattern. -/
def depthOf (pattern : String) : Nat :=
  let pieces := (Text.split '/' pattern).dropWhile fun piece => !hasWildcard piece
  if pieces.contains "**" then depthLimit else pieces.length

/-- The paths of the configuration files that a run can ask for. -/
def configPlaces (env : CommandLine.Environment) (invocation : CommandLine.Invocation) :
    List String :=
  ConfigSource.projectNames ++
    ((CommandLine.userDirectory env).map (FilePath.join · ConfigSource.userName)).toList ++
    invocation.configFile.toList

/-! ## Copies -/

/-- A path leads to a directory. -/
def isDirectory (path : String) : IO Bool := (System.mkFilePath [path]).isDir

/-- A copy of a file. -/
def copyFile (path : String) : IO FileTree := do
  try return .file (← IO.FS.readBinFile path)
  catch _ => return .unreadable

/-- A copy of what a path leads to.  A directory that cannot be listed is sealed, and so is one
that lies too deep.  Below a directory the content is taken of documents only. -/
def copy : Nat → String → IO FileTree
  | 0, path => do
    if ← isDirectory path then return .sealed [] else copyFile path
  | depth + 1, path => do
    if ← isDirectory path then
      try
        let mut entries := []
        for entry in ← (System.mkFilePath [path]).readDir do
          let inside := FilePath.join path entry.fileName
          let tree ←
            if (Format.ofPath? inside).isSome || (← isDirectory inside) then copy depth inside
            else pure .unreadable
          entries := (entry.fileName, tree) :: entries
        return .directory entries
      catch _ => return .sealed []
    else copyFile path

/-- Adds copies of what paths lead to, one after the other. -/
def copyPlaces (depth : Nat) (tree : FileTree) (paths : List String) : IO FileTree :=
  paths.foldlM (fun tree path => do
    if ← (System.mkFilePath [path]).pathExists then
      return tree.insert (namesOf path) (← copy depth path)
    else return tree) tree

/-- The paths and patterns of the documents that a run asks for. -/
def documentPatterns (env : CommandLine.Environment) (fs : FileSystem)
    (invocation : CommandLine.Invocation) (options : CommandLine.CheckOptions) : List String :=
  let source := ConfigSource.find fs (CommandLine.userDirectory env) invocation.configFile
  match source.load fs.read with
  | .ok config => CommandLine.patternsOf options config
  | .error _ => options.files

/-- A copy of all that a run can ask for.  Where patterns lead is known when the configuration has
been copied.  The working directory is copied over directories that it lies in, and single files
over directories that may be sealed. -/
def takeFiles (workingDirectory : String) (env : CommandLine.Environment)
    (invocation : CommandLine.Invocation) : IO FileSystem := do
  let names := namesOf workingDirectory
  let configs := (configPlaces env invocation).map (FilePath.join workingDirectory)
  let first ← copyPlaces 0 (.directory []) (workingDirectory :: configs)
  let fs : FileSystem := { root := first, workingDirectory := names }
  match invocation.command with
  | .check options =>
    let patterns := documentPatterns env fs invocation options
    let places := patterns.map fun pattern => FilePath.join workingDirectory (fixedPart pattern)
    let directories ← places.filterM isDirectory
    let files := places.filter fun path => !directories.contains path
    let outside := directories.filter fun path => !names.isPrefixOf (namesOf path)
    let depth := (patterns.map depthOf).foldl max 0
    let around ← copyPlaces depth (.directory [])
      (outside.mergeSort fun a b => (namesOf a).length ≤ (namesOf b).length)
    let inside ← copyPlaces depthLimit around [workingDirectory]
    return { fs with root := ← copyPlaces 0 inside (files ++ configs) }
  | _ => return fs

/-! ## Running -/

/-- The environment variables that matter. -/
def readEnvironment : IO CommandLine.Environment := do
  let pairs ← CommandLine.Environment.names.mapM fun name => do
    return (← IO.getEnv name).map fun value => (name, value)
  return pairs.filterMap id

/-- Carries out the outcome of a run. -/
def perform (outcome : CommandLine.Outcome) : IO UInt32 := do
  if let some (name, text) := outcome.written then IO.FS.writeFile name text
  IO.print outcome.output
  if let some usage := outcome.usage then IO.eprintln ("oas-lint: " ++ usage)
  if let some message := outcome.message then IO.eprintln ("Error: " ++ message)
  if let some code := outcome.diagnostic then IO.eprintln code
  return UInt32.ofNat outcome.status

end ApiLint.Program

open ApiLint ApiLint.Program

/-- Runs the program on the words of its command line. -/
def main (args : List String) : IO UInt32 := do
  let env ← readEnvironment
  let fs ←
    match CommandLine.readArguments env args with
    | .ok invocation => takeFiles (← IO.currentDir).toString env invocation
    | .error _ => pure default
  perform (CommandLine.run env fs args)
