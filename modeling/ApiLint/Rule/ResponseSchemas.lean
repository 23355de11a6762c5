import ApiLint.Rule.Basic
import ApiLint.OpenApi.MediaType
import ApiLint.Schema.Roots
set_option autoImplicit false

/-!
# Rules on response schemas

A code generator names the result of an operation after the schema that the response
refers to, so a JSON schema written in place is reported wherever responses stand.
The responses of operations for errors should moreover carry an `errors` property.
-/

namespace ApiLint.Rule

/-! ## The schemas of a responses object -/

/-- A schema of a response: the status and media type it stands under, and its place. -/
structure ResponseSchema where
  status : String
  mediaType : String
  schema : Located
  deriving Repr, Inhabited

/-- The media type schemas of the responses in an object, in document order. -/
def responseSchemas (responses : Located) : List ResponseSchema :=
  responses.node.fields.flatMap fun (status, response) =>
    ((response.getFields? "content").getD []).flatMap fun (mediaType, content) =>
      match content.get? "schema" with
      | some schema =>
        [⟨status, mediaType, responses.path.keys [status, "content", mediaType, "schema"],
          schema⟩]
      | none => []

/-! ## Inline schemas -/

/-- The node is null. -/
def isNull : Node → Bool
  | .null => true
  | _ => false

/-- A JSON schema that stands in place although it would need a name. -/
def ResponseSchema.isInline (r : ResponseSchema) : Bool :=
  MediaType.isJson r.mediaType && !isNull r.schema.node && !Schema.isNamed r.schema.node

/-- The finding for an inline schema. -/
def inlineFinding (r : ResponseSchema) : Finding :=
  { path := r.schema.path
    message := "Response schemas should be defined as a $ref to a named schema."
    suggestion := some "Move the schema to components.schemas and reference it with $ref" }

/-- Inline JSON schemas of responses, in operations and in reusable responses. -/
def inlineResponseSchema (document : Node) : List Finding :=
  (walkDocument document).flatMap fun visit =>
    if visit.kind.isResponses && !Schema.isRef visit.node then
      ((responseSchemas ⟨visit.path, visit.node⟩).filter ResponseSchema.isInline).map
        inlineFinding
    else []

/-! ## Error responses -/

/-- A status of three bytes that begins with 4 or 5: an error code, or the range of them. -/
def isErrorStatus (status : String) : Bool :=
  status.utf8ByteSize = 3 &&
    (status.toList.head? = some '4' || status.toList.head? = some '5')

/-- A JSON schema of an error response that is no reference and defines no `errors`. -/
def ResponseSchema.lacksErrors (r : ResponseSchema) : Bool :=
  isErrorStatus r.status && MediaType.isJson r.mediaType && !Schema.isRef r.schema.node &&
    !Schema.composesProperty r.schema.node "errors"

/-- The finding for an error response without `errors`. -/
def errorFinding (r : ResponseSchema) : Finding :=
  { path := r.schema.path
    message := "Error response schemas should define an `errors` property." }

/-- JSON schemas of the error responses of operations that define no `errors` property. -/
def errorResponseSchema (document : Node) : List Finding :=
  (walkDocument document).flatMap fun visit =>
    if visit.kind = .operationResponses then
      ((responseSchemas ⟨visit.path, visit.node⟩).filter ResponseSchema.lacksErrors).map
        errorFinding
    else []

end ApiLint.Rule
