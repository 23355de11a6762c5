import ApiLint.Config
import ApiLint.FileTree
set_option autoImplicit false

/-!
# Where the configuration comes from

The file that is asked for; else a file in the working directory, under either of two
names; else a file in the user's configuration directory; else nowhere, and the
defaults hold.  Only a file that is asked for may be missing, which is a fault.
-/

namespace ApiLint

/-- Where a configuration comes from. -/
inductive ConfigSource where
  /-- the file that was asked for -/
  | asked (path : String)
  /-- a file in the working directory -/
  | project (path : String)
  /-- the file in the user's configuration directory -/
  | user (path : String)
  | defaults
  deriving DecidableEq, Repr, Inhabited

namespace ConfigSource

/-- The path of the configuration file, if there is one. -/
def path? : ConfigSource → Option String
  | asked path => some path
  | project path => some path
  | user path => some path
  | defaults => none

/-- The names of configuration files in a working directory, the first one first. -/
def projectNames : List String := ["oas-lint.toml", ".oas-lint.toml"]

/-- The name of the configuration file in the user's configuration directory. -/
def userName : String := "config.toml"

/-- The configuration file in the working directory. -/
def projectFile? (fs : FileSystem) : Option String :=
  (projectNames.map (FilePath.join fs.workingPath)).find? fs.isFile

/-- The configuration file in the user's configuration directory. -/
def userFile? (fs : FileSystem) (directory : Option String) : Option String :=
  (directory.map fun directory => FilePath.join directory userName).filter fs.isFile

/-- Finds the configuration; `userDirectory` is the user's configuration directory. -/
def find (fs : FileSystem) (userDirectory : Option String) (askedFor : Option String) :
    ConfigSource :=
  match askedFor, projectFile? fs, userFile? fs userDirectory with
  | some path, _, _ => asked path
  | none, some path, _ => project path
  | none, none, some path => user path
  | none, none, none => defaults

end ConfigSource

/-- Reads a configuration file. -/
def Config.load (readFile : String → Option String) (path : String) : Except ConfigFault Config :=
  match readFile path with
  | some text => Config.parse text
  | none => .error (.unreadable path)

/-- Reads the configuration from where it comes from. -/
def ConfigSource.load (readFile : String → Option String) (source : ConfigSource) :
    Except ConfigFault Config :=
  match source.path? with
  | some path => Config.load readFile path
  | none => .ok {}

end ApiLint
