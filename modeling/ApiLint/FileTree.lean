import ApiLint.FilePath
set_option autoImplicit false

/-!
# File trees

A file tree is a directory with everything below it, or a file.  Some files cannot be
read, and some directories cannot be listed, though what is in them can be asked for by
its name.  A `FileSystem` is a whole tree together with the directory that relative paths
start from.
-/

namespace ApiLint

/-- A file or a directory. -/
inductive FileTree where
  | file (content : ByteArray)
  /-- a file that cannot be read -/
  | unreadable
  /-- a directory, with its entries by name -/
  | directory (entries : List (String × FileTree))
  /-- a directory that cannot be listed; an entry can be asked for by its name -/
  | sealed (entries : List (String × FileTree))
  deriving Inhabited

namespace FileTree

/-- What is in a directory, also where it cannot be listed. -/
def entries : FileTree → List (String × FileTree)
  | directory entries => entries
  | sealed entries => entries
  | file _ => []
  | unreadable => []

/-- The entry of a directory with a name. -/
def entry? (tree : FileTree) (name : String) : Option FileTree :=
  (tree.entries.find? (·.1 = name)).map Prod.snd

/-- The tree is a directory. -/
def isDirectory : FileTree → Bool
  | directory _ => true
  | sealed _ => true
  | file _ => false
  | unreadable => false

/-- The tree is a file. -/
def isFile (tree : FileTree) : Bool := !tree.isDirectory

/-- The tree is a directory that cannot be listed. -/
def isSealed : FileTree → Bool
  | sealed _ => true
  | _ => false

/-- The content of a file as text, if it is a file that can be read and valid UTF-8. -/
def text? : FileTree → Option String
  | file content => String.fromUTF8? content
  | _ => none

/-- Entries ordered by name. -/
def sortEntries {α : Type} (entries : List (String × α)) : List (String × α) :=
  entries.mergeSort fun a b => decide (a.1 ≤ b.1)

/-- Gives an entry of a directory a tree; a new entry goes last. -/
def setEntry (entries : List (String × FileTree)) (name : String) (tree : FileTree) :
    List (String × FileTree) :=
  if entries.any (·.1 = name) then
    entries.map fun entry => if entry.1 = name then (name, tree) else entry
  else entries ++ [(name, tree)]

/-- Puts a tree at the end of a chain of names, making the directories on the way. -/
def insert (tree : FileTree) : List String → FileTree → FileTree
  | [], inserted => inserted
  | name :: names, inserted =>
    let below := ((tree.entry? name).getD (directory [])).insert names inserted
    let entries := setEntry tree.entries name below
    if tree.isSealed then sealed entries else directory entries

end FileTree

/-- A tree of files, and the directory in it that relative paths start from. -/
structure FileSystem where
  root : FileTree
  /-- the names on the way from the root to the working directory -/
  workingDirectory : List String
  deriving Inhabited

namespace FileSystem

/-- Follows pieces of a path.  The trees passed so far are kept, the present one first, so that
`..` can go back; above the root there is only the root. -/
def follow : List FileTree → List String → Option FileTree
  | here, [] => here.head?
  | [], _ :: _ => none
  | here :: above, piece :: pieces =>
    if !here.isDirectory then none
    else if piece = "" ∨ piece = "." then follow (here :: above) pieces
    else if piece = ".." then
      match above with
      | [] => follow [here] pieces
      | _ :: _ => follow above pieces
    else
      match here.entry? piece with
      | some tree => follow (tree :: here :: above) pieces
      | none => none

/-- What a path leads to.  A separator at the end of a path leads to directories only, and the
empty path leads nowhere. -/
def lookup (fs : FileSystem) (path : String) : Option FileTree :=
  if path.isEmpty then none
  else if FilePath.isAbsolute path then follow [fs.root] (Text.split '/' path)
  else follow [fs.root] (fs.workingDirectory ++ Text.split '/' path)

/-- A path leads to something. -/
def contains (fs : FileSystem) (path : String) : Bool := (fs.lookup path).isSome

/-- A path leads to a directory. -/
def isDirectory (fs : FileSystem) (path : String) : Bool :=
  ((fs.lookup path).map FileTree.isDirectory).getD false

/-- A path leads to a file. -/
def isFile (fs : FileSystem) (path : String) : Bool :=
  ((fs.lookup path).map FileTree.isFile).getD false

/-- The text of the file that a path leads to. -/
def read (fs : FileSystem) (path : String) : Option String := (fs.lookup path).bind FileTree.text?

/-- The path of the working directory from the root on. -/
def workingPath (fs : FileSystem) : String := "/" ++ "/".intercalate fs.workingDirectory

/-- Writes a file into the working directory. -/
def write (fs : FileSystem) (name text : String) : FileSystem :=
  { fs with root := fs.root.insert (fs.workingDirectory ++ [name]) (.file text.toUTF8) }

end FileSystem

end ApiLint
