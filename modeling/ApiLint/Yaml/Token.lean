import ApiLint.Yaml.Cursor
import ApiLint.Yaml.Tag
set_option autoImplicit false

/-!
# Tokens of YAML

Indentation is made explicit by tokens of its own: a block collection is opened by a
token and closed by `blockEnd`.
-/

namespace ApiLint.Yaml

/-- A token. -/
inductive Token where
  /-- the version that a document asks for -/
  | version (major minor : Nat)
  /-- a handle for tags, and what it stands for -/
  | tagHandle (handle : String) (start : Tag)
  | documentStart
  | documentEnd
  | blockSequenceStart
  | blockMappingStart
  | blockEnd
  | flowSequenceStart
  | flowSequenceEnd
  | flowMappingStart
  | flowMappingEnd
  /-- the hyphen of a block sequence -/
  | blockEntry
  /-- the comma of a flow collection -/
  | flowEntry
  | key
  | value
  | alias (name : String)
  | anchor (name : String)
  | tag (handle : String) (suffix : Tag)
  /-- a scalar; `plain` tells that it is written without quotes and not as a block -/
  | scalar (text : String) (plain : Bool)
  deriving DecidableEq, Repr, Inhabited

end ApiLint.Yaml
