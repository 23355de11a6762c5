import ApiLint.Rule.Basic
import ApiLint.OpenApi.Naming
import ApiLint.Schema.Roots
set_option autoImplicit false

/-!
# Rules on names

The literal segments of paths and the names of schema properties are lower snake
case.  A vendor extension among the paths is no path, and a placeholder in braces is
no literal segment.
-/

namespace ApiLint.Rule

/-! ## Path segments -/

/-- A key of the map of paths that is a vendor extension. -/
def isExtensionKey (key : String) : Bool := "x-".toList.isPrefixOf key.toList

/-- A literal segment that breaks the convention.  Doubled separators leave empty segments,
which are no names at all. -/
def isMisnamedSegment (segment : String) : Bool :=
  !segment.isEmpty && !Naming.isTemplateSegment segment && !Naming.isSnakeCase segment

/-- The finding for a segment of a template. -/
def segmentFinding (template segment : String) : Finding :=
  { path := DocPath.keys [] ["paths", template]
    message := "Path segments must be snake case: " ++ segment }

/-- Path segments that are not snake case, in the order of the paths. -/
def pathSegmentCase (document : Node) : List Finding :=
  (((document.getFields? "paths").getD []).filter fun field => !isExtensionKey field.1).flatMap
    fun (template, _) =>
      ((Text.split '/' template).filter isMisnamedSegment).map (segmentFinding template)

/-! ## Schema properties -/

/-- The finding for a property of a schema. -/
def propertyFinding (schema : Located) (name : String) : Finding :=
  { path := schema.path.keys ["properties", name]
    message := "Property names must be snake case: " ++ name }

/-- The misnamed properties of one schema. -/
def misnamedProperties (schema : Located) : List Finding :=
  ((Fields.keys ((schema.node.getFields? "properties").getD [])).filter fun name =>
      !Naming.isSnakeCase name).map (propertyFinding schema)

/-- Properties of the schemas of the document whose names are not snake case. -/
def propertyCase (document : Node) : List Finding :=
  (Schema.all document).flatMap misnamedProperties

end ApiLint.Rule
