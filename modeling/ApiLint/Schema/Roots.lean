import ApiLint.Walk
import ApiLint.Schema.Subschemas
set_option autoImplicit false

/-!
# The schemas of a document

A root is a schema that stands in the document and not inside another schema: a
named schema, or the schema of a parameter, header, request body or response.
Roots are found by the structure of the document and not by the look of a path, so
a schema property that happens to be called `responses` is none.  References are
not entered.
-/

namespace ApiLint.Schema

/-! ## Owners of schemas -/

/-- Visits every value of a map of named objects. -/
def named (visit : Located → List Located) (entries : Located) : List Located :=
  entries.node.fields.flatMap fun field =>
    visit ⟨entries.path.child (.key field.1), field.2⟩

/-- Visits every element of a list. -/
def listed (visit : Located → List Located) (entries : Located) : List Located :=
  (located entries.path 0 entries.node.items).flatMap visit

/-- The schemas of the media types of an owner, which is no reference. -/
def mediaTypes (owner : Located) : List Located :=
  if isRef owner.node then []
  else
    ((owner.node.getFields? "content").getD []).flatMap fun field =>
      match field.2.get? "schema" with
      | some schema => [⟨owner.path.keys ["content", field.1, "schema"], schema⟩]
      | none => []

/-- The schemas of a parameter or header: its own, and those of its media types. -/
def parameter (owner : Located) : List Located :=
  if isRef owner.node then []
  else childAt "schema" owner ++ mediaTypes owner

/-- The schemas of a response: its own, those of its headers and those of its media types, in
the order of its keys. -/
def response (owner : Located) : List Located :=
  if isRef owner.node then []
  else
    owner.node.fields.flatMap fun field =>
      if field.1 = "schema" then [⟨owner.path.child (.key "schema"), field.2⟩]
      else if field.1 = "headers" then
        named parameter ⟨owner.path.child (.key "headers"), field.2⟩
      else if field.1 = "content" then mediaTypes owner
      else []

/-- The schemas of an operation, in the order of its keys. -/
def operation (owner : Located) : List Located :=
  owner.node.fields.flatMap fun field =>
    let place : Located := ⟨owner.path.child (.key field.1), field.2⟩
    if field.1 = "parameters" then listed parameter place
    else if field.1 = "requestBody" then mediaTypes place
    else if field.1 = "responses" then named response place
    else []

/-- The schemas of a path item: those of its parameters and of its operations. -/
def pathItem (owner : Located) : List Located :=
  owner.node.fields.flatMap fun field =>
    let place : Located := ⟨owner.path.child (.key field.1), field.2⟩
    if field.1 = "parameters" then listed parameter place
    else if Method.isOperationKey field.1 then operation place
    else []

/-- The schemas of reusable components. -/
def components (owner : Located) : List Located :=
  owner.node.fields.flatMap fun field =>
    let place : Located := ⟨owner.path.child (.key field.1), field.2⟩
    if field.1 = "schemas" then named (fun schema => [schema]) place
    else if field.1 = "parameters" then named parameter place
    else if field.1 = "headers" then named parameter place
    else if field.1 = "requestBodies" then named mediaTypes place
    else if field.1 = "responses" then named response place
    else []

/-- The schemas of the top-level sections of the older document layout. -/
def legacySection (place : Located) : List Located :=
  match place.path.lastKey? with
  | some key =>
    if key = "definitions" then named (fun schema => [schema]) place
    else if key = "parameters" then named parameter place
    else if key = "responses" then named response place
    else []
  | none => []

/-! ## Roots -/

/-- The roots found at one visit of the walk. -/
def rootsAt (visit : Visit) : List Located :=
  match visit.kind with
  | .pathItem => pathItem ⟨visit.path, visit.node⟩
  | .components => components ⟨visit.path, visit.node⟩
  | .other => if visit.path.length = 1 then legacySection ⟨visit.path, visit.node⟩ else []
  | _ => []

/-- The schemas of a document that stand inside no other schema, with their paths. -/
def roots (document : Node) : List Located := (walkDocument document).flatMap rootsAt

/-- Every schema of a document: the roots and the schemas inside them. -/
def all (document : Node) : List Located := (roots document).flatMap subschemas

end ApiLint.Schema
