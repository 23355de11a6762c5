import ApiLint.FileTree
import ApiLint.Json.Reader
import ApiLint.Yaml.Compose
import ApiLint.Yaml.Conversion
set_option autoImplicit false

/-!
# Documents

A document is a tree, and the file that it came from if there is one.  The format of a
file is told by its extension alone, before the file is read.
-/

namespace ApiLint

/-- The format of a document. -/
inductive Format where
  | json
  | yaml
  deriving DecidableEq, Repr, Inhabited

namespace Format

/-- The format with an extension in lower case. -/
def ofExtension? (extension : String) : Option Format :=
  if extension = "json" then some json
  else if extension = "yaml" ∨ extension = "yml" then some yaml
  else none

/-- The format of the file at a path; the case of the extension does not matter. -/
def ofPath? (path : String) : Option Format :=
  (FilePath.extension? path).bind fun extension => ofExtension? (Text.asciiLower extension)

/-- The name of a format. -/
def name : Format → String
  | json => "Json"
  | yaml => "Yaml"

end Format

/-! ## Faults -/

/-- Why a document cannot be loaded. -/
inductive DocumentCause where
  /-- the file is not there, is no file, or is no text -/
  | unreadable
  | invalidJson
  | invalidYaml
  /-- a mapping key is a sequence or a mapping -/
  | nonScalarKey
  /-- the extension is of no known format -/
  | unsupportedFormat
  deriving DecidableEq, Repr, Inhabited

/-- A document that cannot be loaded. -/
structure DocumentFault where
  /-- where the document was to come from -/
  origin : String
  cause : DocumentCause
  deriving DecidableEq, Repr, Inhabited

namespace DocumentFault

/-- The message of a fault. -/
def message (fault : DocumentFault) : String :=
  match fault.cause with
  | .unreadable => "Failed to read " ++ fault.origin
  | .invalidJson => "Invalid JSON in " ++ fault.origin
  | .invalidYaml => "Invalid YAML in " ++ fault.origin
  | .nonScalarKey =>
    "Invalid YAML in " ++ fault.origin ++ ": " ++ ({} : Yaml.Tree.NonScalarKey).message
  | .unsupportedFormat => "Unsupported document format for " ++ fault.origin

/-- The code that a fault is reported with. -/
def code (fault : DocumentFault) : String :=
  match fault.cause with
  | .unreadable => "oas_lint::document::io"
  | .invalidJson => "oas_lint::document::json"
  | .invalidYaml => "oas_lint::document::yaml"
  | .nonScalarKey => "oas_lint::document::yaml"
  | .unsupportedFormat => "oas_lint::document::format"

/-- What can be done about a fault. -/
def help? (fault : DocumentFault) : Option String :=
  match fault.cause with
  | .unreadable => none
  | .invalidJson => some "check the document with a JSON validator"
  | .invalidYaml =>
    some "mapping keys must be scalars and the document must be a single YAML document"
  | .nonScalarKey =>
    some "mapping keys must be scalars and the document must be a single YAML document"
  | .unsupportedFormat => some "use a .json, .yaml or .yml file"

end DocumentFault

/-! ## Documents -/

/-- A document. -/
structure Document where
  root : Node
  /-- the file that the document came from -/
  file : Option String := none
  deriving Inhabited

namespace Document

/-- How a document that came from no file is named. -/
def inlineOrigin : String := "<inline>"

/-- Reads a text of a format. -/
def parseText (origin : String) (format : Format) (text : String) : Except DocumentFault Node :=
  match format with
  | .json =>
    match Json.read text with
    | .ok root => .ok root
    | .error _ => .error ⟨origin, .invalidJson⟩
  | .yaml =>
    match Yaml.read text with
    | .error _ => .error ⟨origin, .invalidYaml⟩
    | .ok tree =>
      match tree.toNode with
      | .ok root => .ok root
      | .error _ => .error ⟨origin, .nonScalarKey⟩

/-- Reads a document from a text. -/
def parse (format : Format) (text : String) : Except DocumentFault Document :=
  (parseText inlineOrigin format text).map fun root => { root }

/-- Loads the document at a path; `readFile` gives the text of a file, if it has one. -/
def load (readFile : String → Option String) (path : String) : Except DocumentFault Document :=
  match Format.ofPath? path with
  | none => .error ⟨path, .unsupportedFormat⟩
  | some format =>
    match readFile path with
    | none => .error ⟨path, .unreadable⟩
    | some text => (parseText path format text).map fun root => { root, file := some path }

end Document

end ApiLint
