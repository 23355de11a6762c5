import ApiLint.Rule.Basic
import ApiLint.Walk
set_option autoImplicit false

/-!
# Rules on tags

The document lists its tags, every operation has one, and the tags of operations are
among those of the document.
-/

namespace ApiLint.Rule

/-- A node has a `tags` array with at least one element. -/
def hasTags (node : Node) : Bool := !(node.getItems "tags").isEmpty

/-! ## Untagged operations -/

/-- The finding for an operation without tags. -/
def untaggedFinding (visit : Visit) : Finding :=
  { path := visit.path, message := "Operation should have non-empty `tags` array." }

/-- A visit of an operation that has no tags. -/
def isUntaggedOperation (visit : Visit) : Bool :=
  visit.kind.isOperation && visit.node.isObject && !hasTags visit.node

/-- Operations without tags. -/
def operationTags (document : Node) : List Finding :=
  ((walkDocument document).filter isUntaggedOperation).map untaggedFinding

/-! ## The tags of the document -/

/-- The finding for the tags of the document, at the document if there are none at all. -/
def globalTagsFinding (path : DocPath) : Finding :=
  { path, message := "OpenAPI object should have non-empty `tags` array." }

/-- A document without tags. -/
def openapiTags (document : Node) : List Finding :=
  if hasTags document then []
  else if document.hasKey "tags" then [globalTagsFinding [.key "tags"]]
  else [globalTagsFinding []]

/-! ## Undefined tags -/

/-- The names of the tags of the document. -/
def definedTags (document : Node) : List String :=
  (document.getItems "tags").filterMap (·.getString? "name")

/-- The finding for a tag of an operation. -/
def undefinedTagFinding (operation : DocPath) (position : Nat) (tag : String) : Finding :=
  { path := (operation.child (.key "tags")).child (.index position)
    message := "Operation tags should be defined in global tags."
    suggestion := some ("Add `\x7b name: " ++ tag ++ " \x7d` to the root tags array") }

/-- The findings for the elements of the tags of an operation, from a position on.  An element
that is no string is no tag. -/
def undefinedTags (defined : List String) (operation : DocPath) : Nat → List Node → List Finding
  | _, [] => []
  | position, tag :: rest =>
    let others := undefinedTags defined operation (position + 1) rest
    match tag with
    | .string name =>
      if defined.contains name then others
      else undefinedTagFinding operation position name :: others
    | _ => others

/-- Tags of operations that the document does not list. -/
def operationTagDefined (document : Node) : List Finding :=
  (walkDocument document).flatMap fun visit =>
    if visit.kind.isOperation then
      undefinedTags (definedTags document) visit.path 0 (visit.node.getItems "tags")
    else []

end ApiLint.Rule
