import ApiLint.DocPath
import ApiLint.OpenApi.Method
set_option autoImplicit false

/-!
# What a node is, judged by its place

The kind of a node follows from its path alone, step by step from the root.  Index
steps lead to no node of a known kind, and so does every key that the kind above
gives no meaning to.
-/

namespace ApiLint

/-- The construct that stands at a place of a document. -/
inductive NodeKind where
  /-- the document itself -/
  | root
  /-- the top-level map of paths -/
  | paths
  /-- a path item, below paths, webhooks, reusable path items or a callback -/
  | pathItem
  /-- an operation of a path item -/
  | operation (method : Method)
  /-- the responses of an operation -/
  | operationResponses
  /-- the top-level map of reusable components -/
  | components
  /-- the reusable responses -/
  | componentResponses
  /-- the reusable path items -/
  | componentPathItems
  /-- the top-level map of webhooks -/
  | webhooks
  /-- named callbacks, of an operation or reusable -/
  | callbacks
  /-- one callback, a map of expressions to path items -/
  | callback
  /-- anything else -/
  | other
  deriving DecidableEq, Repr, Inhabited

namespace NodeKind

/-- The kind of the child under a key. -/
def childKey : NodeKind → String → NodeKind
  | root, key =>
    if key = "paths" then paths
    else if key = "components" then components
    else if key = "webhooks" then webhooks
    else other
  | paths, _ => pathItem
  | webhooks, _ => pathItem
  | componentPathItems, _ => pathItem
  | callback, _ => pathItem
  | pathItem, key =>
    match Method.ofKey? key with
    | some method => operation method
    | none => other
  | operation _, key =>
    if key = "responses" then operationResponses
    else if key = "callbacks" then callbacks
    else other
  | callbacks, _ => callback
  | components, key =>
    if key = "callbacks" then callbacks
    else if key = "responses" then componentResponses
    else if key = "pathItems" then componentPathItems
    else other
  | operationResponses, _ => other
  | componentResponses, _ => other
  | other, _ => other

/-- The kind of the child that a step leads to. -/
def child (kind : NodeKind) : Segment → NodeKind
  | .key name => kind.childKey name
  | .index _ => other

/-- The kind of the node at a path. -/
def of (path : DocPath) : NodeKind := path.foldl child root

/-- The responses of an operation or the reusable responses. -/
def isResponses (kind : NodeKind) : Bool :=
  kind = operationResponses || kind = componentResponses

/-- An operation, of whatever method. -/
def isOperation : NodeKind → Bool
  | operation _ => true
  | _ => false

/-- The name of a kind. -/
def name : NodeKind → String
  | root => "Root"
  | paths => "Paths"
  | pathItem => "PathItem"
  | operation method => "Operation(" ++ method.key ++ ")"
  | operationResponses => "OperationResponses"
  | components => "Components"
  | componentResponses => "ComponentResponses"
  | componentPathItems => "ComponentPathItems"
  | webhooks => "Webhooks"
  | callbacks => "Callbacks"
  | callback => "Callback"
  | other => "Other"

/-! ## Lemmas -/

@[simp] theorem of_nil : of [] = root := rfl

theorem of_child (path : DocPath) (segment : Segment) :
    of (path.child segment) = (of path).child segment := by
  simp [of, DocPath.child]

@[simp] theorem child_index (kind : NodeKind) (position : Nat) :
    kind.child (.index position) = other := rfl

@[simp] theorem child_other (segment : Segment) : other.child segment = other := by
  cases segment <;> rfl

end NodeKind

/-- A path that points at a responses object by the keys at its end alone: `responses` below a
method key, or exactly `components`, `responses`. -/
def DocPath.isResponseObject (path : DocPath) : Bool :=
  path.keyBack? 0 = some "responses" &&
    (((path.keyBack? 1).map Method.isOperationKey).getD false ||
      (path.length = 2 && path.keyBack? 1 = some "components"))

end ApiLint
