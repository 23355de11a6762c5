import ApiLint.Schema.Basic
import ApiLint.Walk
set_option autoImplicit false

/-!
# The schemas inside a schema

Schemas are nested under `properties`, `additionalProperties`, `items`, the three
combining keywords and `not`.  `subschemas` lists a schema and all schemas inside
it in pre-order, with a stack; `subtree` says the same by recursion.  References
are listed as they stand and not followed, and what is no object is no schema.
-/

namespace ApiLint.Schema

/-! ## Children -/

/-- The values of the object under a keyword. -/
def childrenIn (keyword : String) (schema : Located) : List Located :=
  ((schema.node.getFields? keyword).getD []).map fun field =>
    ⟨schema.path.keys [keyword, field.1], field.2⟩

/-- The value of a keyword. -/
def childAt (keyword : String) (schema : Located) : List Located :=
  match schema.node.get? keyword with
  | some value => [⟨schema.path.child (.key keyword), value⟩]
  | none => []

/-- Array elements with their paths, from a position on. -/
def located (path : DocPath) : Nat → List Node → List Located
  | _, [] => []
  | position, item :: rest =>
    ⟨path.child (.index position), item⟩ :: located path (position + 1) rest

/-- The elements of the array under a keyword. -/
def branchesAt (keyword : String) (schema : Located) : List Located :=
  located (schema.path.child (.key keyword)) 0 ((branches? schema.node keyword).getD [])

/-- The nodes at the places where a schema holds further schemas, in order. -/
def children (schema : Located) : List Located :=
  childrenIn "properties" schema ++
    childAt "additionalProperties" schema ++
    childAt "items" schema ++
    branchesAt "allOf" schema ++
    branchesAt "oneOf" schema ++
    branchesAt "anyOf" schema ++
    childAt "not" schema

/-! ## With a stack -/

/-- Lists the schemas on a stack and inside them.  The children of a schema are put on the stack
in reverse, so they come off in their order.  Each turn takes one node off the stack, and no node
is put on it twice. -/
def subschemasStack : Nat → List Located → List Located
  | 0, _ => []
  | _, [] => []
  | fuel + 1, schema :: stack =>
    if schema.node.isObject then
      schema :: subschemasStack fuel (pushAll stack (children schema).reverse)
    else subschemasStack fuel stack

/-- A schema and every schema inside it, in pre-order. -/
def subschemas (schema : Located) : List Located :=
  subschemasStack schema.node.count [schema]

/-! ## By recursion -/

mutual

/-- The schemas of a tree: the schema first, then the subtrees of its children. -/
def subtree (path : DocPath) : Node → List Located
  | .object fields =>
    ⟨path, .object fields⟩ ::
      (subtreeIn "properties" path fields ++
        subtreeAt "additionalProperties" path fields ++
        subtreeAt "items" path fields ++
        subtreeBranches "allOf" path fields ++
        subtreeBranches "oneOf" path fields ++
        subtreeBranches "anyOf" path fields ++
        subtreeAt "not" path fields)
  | _ => []

/-- The subtree of the value of a keyword. -/
def subtreeAt (keyword : String) (path : DocPath) : List (String × Node) → List Located
  | [] => []
  | (key, value) :: rest =>
    if key = keyword then subtree (path.child (.key keyword)) value
    else subtreeAt keyword path rest

/-- The subtrees of the values of the object under a keyword. -/
def subtreeIn (keyword : String) (path : DocPath) : List (String × Node) → List Located
  | [] => []
  | (key, value) :: rest =>
    if key = keyword then subtreeValues (path.child (.key keyword)) value
    else subtreeIn keyword path rest

/-- The subtrees of the values of an object. -/
def subtreeValues (path : DocPath) : Node → List Located
  | .object fields => subtreeFields path fields
  | _ => []

/-- The subtrees of the values of fields. -/
def subtreeFields (path : DocPath) : List (String × Node) → List Located
  | [] => []
  | (key, value) :: rest => subtree (path.child (.key key)) value ++ subtreeFields path rest

/-- The subtrees of the branches under a combining keyword. -/
def subtreeBranches (keyword : String) (path : DocPath) : List (String × Node) → List Located
  | [] => []
  | (key, value) :: rest =>
    if key = keyword then subtreeElements (path.child (.key keyword)) value
    else subtreeBranches keyword path rest

/-- The subtrees of the elements of an array. -/
def subtreeElements (path : DocPath) : Node → List Located
  | .array items => subtreeItems path 0 items
  | _ => []

/-- The subtrees of array elements from a position on. -/
def subtreeItems (path : DocPath) (position : Nat) : List Node → List Located
  | [] => []
  | item :: rest =>
    subtree (path.child (.index position)) item ++ subtreeItems path (position + 1) rest

end

end ApiLint.Schema
