import ApiLint.Document
import ApiLint.Proofs.Lists
import ApiLint.Proofs.Results
import ApiLint.Proofs.Schema.Merging
set_option autoImplicit false

/-!
# Mappings of YAML as objects

A tree of YAML cannot be converted exactly when one of its values is a mapping with a key that
is a sequence or a mapping under its tags.  Otherwise every mapping becomes an object: the
texts of its keys in order of first appearance, each with the value of the last entry that has
this text.  So entries are lost only where two keys have one text.
-/

namespace ApiLint

/-! ## Fields set one after the other -/

namespace Fields

open Schema (setAll)

end Fields

namespace Yaml.Tree

/-! ## Values of a tree -/

/-- The values right inside a tree: the elements of a sequence, the values of the entries of a
mapping, and what has a tag.  Keys are none. -/
def parts : Tree → List Tree
  | sequence items => items
  | mapping entries => entries.map Prod.snd
  | tagged _ value => [value]
  | _ => []

/-- What is left of a tree when the tags in front of it are removed. -/
def bare : Tree → Tree
  | tagged _ value => bare value
  | tree => tree

end Yaml.Tree

end ApiLint
