import ApiLint.Rule.Basic
import ApiLint.Schema.Merge
import ApiLint.Schema.Roots
set_option autoImplicit false

/-!
# Rules on the contents of schemas

A name that a schema requires must be one of its properties, where the branches of
`allOf` count as one schema with it.  A string must be bounded in length.
-/

namespace ApiLint.Rule

/-! ## Required properties -/

/-- The dotted form of the path ends in `.allOf.` and decimal digits: the schema there is a
branch, and is judged together with the schema that it is a branch of. -/
def isAllOfBranch (path : DocPath) : Bool :=
  let reversed := path.dotted.toList.reverse
  !(reversed.takeWhile Text.isDecimalDigit).isEmpty &&
    ".allOf.".toList.reverse.isPrefixOf (reversed.dropWhile Text.isDecimalDigit)

/-- The names that a schema requires. -/
def requiredNames (schema : Node) : List String :=
  (schema.getItems "required").filterMap Node.string?

/-- The finding for a required name. -/
def requiredFinding (path : DocPath) (name : String) : Finding :=
  { path, message := "Required property must be defined in the schema: " ++ name }

/-- The required names of one schema that its merged view does not define. -/
def undefinedRequired (schema : Located) : List Finding :=
  if isAllOfBranch schema.path then []
  else
    let merged := Schema.mergeAllOf schema.node
    ((requiredNames merged).filter fun name => !Schema.composesProperty merged name).map
      (requiredFinding schema.path)

/-- Required names of the schemas of the document that are not defined. -/
def requiredPropertyMissing (document : Node) : List Finding :=
  (Schema.all document).flatMap undefinedRequired

/-! ## Bounded strings -/

/-- The formats that bound the length of a string. -/
def boundedFormats : List String := ["binary", "byte", "date", "date-time"]

/-- The format of a schema bounds its length. -/
def hasBoundedFormat (schema : Node) : Bool :=
  match schema.getString? "format" with
  | some format => boundedFormats.contains format
  | none => false

/-- A string that neither an enumeration nor its format bounds. -/
def needsBound (schema : Node) : Bool :=
  Schema.hasType schema "string" && !schema.hasKey "enum" && !hasBoundedFormat schema

/-- A string that needs a bound, and that neither the schema nor its composition bounds. -/
def isUnbounded (schema : Node) : Bool :=
  needsBound schema && !Schema.satisfies (·.hasKey "maxLength") schema

/-- The finding for an unbounded string. -/
def unboundedFinding (schema : Located) : Finding :=
  { path := schema.path
    message := "String schemas should define property: maxLength"
    suggestion := some "Add a maxLength, or use an enum or a bounded format" }

/-- String schemas of the document without a bound. -/
def stringBoundary (document : Node) : List Finding :=
  ((Schema.all document).filter fun schema => isUnbounded schema.node).map unboundedFinding

end ApiLint.Rule
