import ApiLint.Rule.Basic
import ApiLint.OpenApi.Method
import ApiLint.OpenApi.Naming
import ApiLint.Schema.Basic
set_option autoImplicit false

/-!
# Declarations of path parameters

Every placeholder of a path template must be declared, by each operation or by the
path item; and a definition that several operations share should stand once, on the
path item.  The two checks have a level each.
-/

namespace ApiLint.Rule

/-! ## Parameters and their declarations -/

/-- The name of a parameter. -/
def parameterName? (parameter : Node) : Option String := parameter.getString? "name"

/-- The parameter is declared to stand in the path. -/
def isPathParameter (parameter : Node) : Bool :=
  match parameter.getString? "in" with
  | some location => Text.equalIgnoringAsciiCase location "path"
  | none => false

/-- The names of the path parameters that an operation or path item declares. -/
def declaredNames (owner : Node) : List String :=
  ((owner.getItems "parameters").filter isPathParameter).filterMap parameterName?

/-- The operations of a path item, in document order. -/
def operations (item : Node) : List (String × Node) :=
  item.fields.filter fun field => Method.isOperationKey field.1

/-! ## Missing declarations -/

/-- How a missing declaration can be added. -/
def declareSuggestion (name : String) : String :=
  "Declare `\x7b name: " ++ name ++
    ", in: path, required: true \x7d` on the path item or the operation"

/-- The finding for a parameter that a path item without operations does not declare. -/
def missingOnItem (path : DocPath) (name : String) : Finding :=
  { path
    message := "Path parameter must be defined at the path or operation level: " ++ name ++ "."
    suggestion := some (declareSuggestion name) }

/-- The finding for a parameter that an operation does not see declared. -/
def missingOnOperation (path : DocPath) (name : String) : Finding :=
  { path
    message := "Operation must include a path parameter with name: " ++ name ++ "."
    suggestion := some (declareSuggestion name) }

/-- The placeholders of a template that are not declared. -/
def missingParameters (path : DocPath) (item : Node) (names : List String) : List Finding :=
  let shared := declaredNames item
  if (operations item).isEmpty then
    (names.filter fun name => !shared.contains name).map (missingOnItem path)
  else
    (operations item).flatMap fun (method, operation) =>
      if Schema.isSdkExcluded operation then []
      else
        let declared := declaredNames operation
        (names.filter fun name => !declared.contains name && !shared.contains name).map
          (missingOnOperation (path.child (.key method)))

/-! ## Shared definitions -/

/-- The node is structurally equal to one of the list. -/
def isAmong (nodes : List Node) (node : Node) : Bool := nodes.any fun other => other.same node

/-- The different definitions of a parameter in the operations, in order of appearance. -/
def definitions (operations : List (String × Node)) (name : String) : List Node :=
  (operations.flatMap fun (_, operation) =>
      (operation.getItems "parameters").filter (parameterName? · = some name)).foldl
    (fun found parameter => if isAmong found parameter then found else found ++ [parameter]) []

/-- The finding for an operation that repeats a shared definition. -/
def duplicateFinding (path : DocPath) (method name : String) (position : Nat) : Finding :=
  { path := (path.keys [method, "parameters"]).child (.index position)
    message := "Common path parameters should be defined on path object"
    suggestion :=
      some ("Move parameter `" ++ name ++ "` to the `parameters` of " ++ path.dotted) }

/-- The declarations of one placeholder that could stand once on the path item: all operations
that declare it agree, and there are at least two operations. -/
def duplicatesOf (path : DocPath) (operations : List (String × Node)) (name : String) :
    List Finding :=
  if (definitions operations name).length = 1 then
    operations.flatMap fun (method, operation) =>
      match (operation.getItems "parameters").findIdx? (parameterName? · = some name) with
      | some position => [duplicateFinding path method name position]
      | none => []
  else []

/-- The shared definitions of the placeholders of a template. -/
def duplicateParameters (path : DocPath) (item : Node) (names : List String) : List Finding :=
  if (operations item).length < 2 then []
  else names.flatMap (duplicatesOf path (operations item))

/-! ## The rule -/

/-- Grades findings; without a severity they are dropped. -/
def graded (severity : Option Severity) (findings : List Finding) :
    List (Severity × Finding) :=
  match severity with
  | some severity => findings.map (severity, ·)
  | none => []

/-- The findings for one entry of the map of paths. -/
def pathParametersAt (missing duplicate : Option Severity) (template : String) (item : Node) :
    List (Severity × Finding) :=
  let names := Naming.templateParameters template
  let path := DocPath.keys [] ["paths", template]
  if !item.isObject then []
  else
    graded missing (missingParameters path item names) ++
      graded duplicate (duplicateParameters path item names)

/-- The findings of both checks over the map of paths, each with the severity of its check. -/
def pathParameters (missing duplicate : Option Severity) (document : Node) :
    List (Severity × Finding) :=
  ((document.getFields? "paths").getD []).flatMap fun (template, item) =>
    pathParametersAt missing duplicate template item

end ApiLint.Rule
