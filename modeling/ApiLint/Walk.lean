import ApiLint.OpenApi.NodeKind
set_option autoImplicit false

/-!
# Walking a document

A walk visits every node below a place once, a node before its children and the
children in document order, and tells the path and the kind of each.  The nodes
still to be visited are kept on a stack, so a walk needs no deep recursion; the kind
of a node is found from the kind of its parent and never from the whole path.
-/

namespace ApiLint

/-- One visit: a node, its path from the root of the document, and its kind. -/
structure Visit where
  node : Node
  path : DocPath
  kind : NodeKind
  deriving Repr, Inhabited

/-- The visit of a node that stands at a path. -/
def Located.visit (place : Located) : Visit :=
  ⟨place.node, place.path, NodeKind.of place.path⟩

namespace Visit

/-- The visits of array elements from a position on; an element is of no known kind. -/
def ofItems (path : DocPath) : Nat → List Node → List Visit
  | _, [] => []
  | position, item :: rest =>
    ⟨item, path.child (.index position), .other⟩ :: ofItems path (position + 1) rest

/-- The visits of the values of fields. -/
def ofFields (path : DocPath) (kind : NodeKind) (fields : Fields) : List Visit :=
  fields.map fun field =>
    ⟨field.2, path.child (.key field.1), kind.child (.key field.1)⟩

/-- The visits of the children of a node, in document order. -/
def children (v : Visit) : List Visit :=
  match v.node with
  | .object fields => ofFields v.path v.kind fields
  | .array items => ofItems v.path 0 items
  | _ => []

end Visit

/-- Puts entries on a stack one after the other; the last one put there comes off first. -/
def pushAll {α : Type} (stack entries : List α) : List α :=
  entries.foldl (fun stack entry => entry :: stack) stack

/-- Visits what is on the stack and everything below it.  The children of a node are put on the
stack in reverse, so they come off in document order.  Each turn makes one visit, so the number
of nodes on and below the stack bounds the turns. -/
def walkStack : Nat → List Visit → List Visit
  | 0, _ => []
  | _, [] => []
  | fuel + 1, v :: stack => v :: walkStack fuel (pushAll stack v.children.reverse)

/-- Walks the node that stands at a path, and everything below it. -/
def walk (node : Node) (path : DocPath) : List Visit :=
  walkStack node.count [Located.visit ⟨path, node⟩]

/-- Walks a whole document. -/
def walkDocument (root : Node) : List Visit := walk root []

end ApiLint
