import ApiLint.Schema.Basic
set_option autoImplicit false

/-!
# Merging the branches of `allOf`

A schema with an `allOf` list is seen as one schema: its branches are absorbed in
order, each merged first, and the schema's own keywords come last.  Properties are
united with the later definition winning, required names are united in order of
first appearance, and of any other keyword the last value counts.  References
cannot be followed and are dropped.
-/

namespace ApiLint.Schema

/-- What has been merged so far. -/
structure Merged where
  /-- keywords other than `properties` and `required` -/
  keywords : Fields := []
  properties : Fields := []
  /-- required names, without repetition -/
  required : List String := []
  /-- some absorbed schema had properties, perhaps none in number -/
  hasProperties : Bool := false
  deriving Repr, Inhabited

namespace Merged

/-- Adds a required name, unless it is there. -/
def addRequired (names : List String) (name : String) : List String :=
  if names.contains name then names else names ++ [name]

/-- Absorbs one keyword of a schema. -/
def absorbField (m : Merged) (key : String) (value : Node) : Merged :=
  if key = "allOf" ∨ key = "$ref" then m
  else if key = "properties" then
    match value with
    | .object properties =>
      { m with
        properties := properties.foldl (fun fs p => Fields.setField fs p.1 p.2) m.properties
        hasProperties := true }
    | _ => m
  else if key = "required" then
    { m with required := (value.items.filterMap Node.string?).foldl addRequired m.required }
  else { m with keywords := Fields.setField m.keywords key value }

/-- Absorbs the keywords of a schema in order. -/
def absorb (m : Merged) (schema : Fields) : Merged :=
  schema.foldl (fun m field => m.absorbField field.1 field.2) m

/-- The merged schema: the keywords, then the properties and the required names if any. -/
def toNode (m : Merged) : Node :=
  let withProperties :=
    if m.hasProperties then Fields.setField m.keywords "properties" (.object m.properties)
    else m.keywords
  .object (if m.required.isEmpty then withProperties
    else Fields.setField withProperties "required" (.array (m.required.map Node.string)))

end Merged

mutual

/-- The merged view of a schema.  What is no object, or has no `allOf` list, is unchanged. -/
def mergeAllOf : Node → Node
  | .object fields =>
    match mergeBranches? fields with
    | some merged => (merged.absorb fields).toNode
    | none => .object fields
  | .null => .null
  | .bool b => .bool b
  | .int n => .int n
  | .float x => .float x
  | .string s => .string s
  | .array items => .array items

/-- The merged branches of the `allOf` list among fields, if there is one. -/
def mergeBranches? : List (String × Node) → Option Merged
  | [] => none
  | (key, value) :: rest => if key = "allOf" then mergeList? value else mergeBranches? rest

/-- The merged elements of an array. -/
def mergeList? : Node → Option Merged
  | .array branches => some (mergeBranches {} branches)
  | _ => none

/-- Absorbs the merged views of branches in order; a branch that is no object adds nothing. -/
def mergeBranches (m : Merged) : List Node → Merged
  | [] => m
  | branch :: rest =>
    match mergeAllOf branch with
    | .object fields => mergeBranches (m.absorb fields) rest
    | _ => mergeBranches m rest

end

/-! ## The schemas that a merged view is made of -/

mutual

/-- The object schemas of a composition in the order in which a merge absorbs them: the leaves
of the branches, then the schema itself. -/
def leaves : Node → List Fields
  | .object fields => leavesUnder fields ++ [fields]
  | _ => []

/-- The leaves of the branches of the `allOf` list among fields. -/
def leavesUnder : List (String × Node) → List Fields
  | [] => []
  | (key, value) :: rest => if key = "allOf" then leavesOfList value else leavesUnder rest

/-- The leaves of the elements of an array. -/
def leavesOfList : Node → List Fields
  | .array branches => leavesOfBranches branches
  | _ => []

/-- The leaves of branches in order. -/
def leavesOfBranches : List Node → List Fields
  | [] => []
  | branch :: rest => leaves branch ++ leavesOfBranches rest

end

/-! ## Lemmas -/

theorem Merged.absorb_append (m : Merged) (s t : Fields) :
    m.absorb (s ++ t) = (m.absorb s).absorb t := by
  simp [Merged.absorb]

end ApiLint.Schema
