import ApiLint.Node
set_option autoImplicit false

/-!
# Document paths

A path names a node of a document by the steps that lead to it from the root: the
key of an object or the index of an array element.  A key and an index are
different steps even when they are written alike, which matters for resolving a
path and for the order of paths.
-/

namespace ApiLint

/-- One step of a path. -/
inductive Segment where
  /-- an element of an array -/
  | index (position : Nat)
  /-- a field of an object -/
  | key (name : String)
  deriving DecidableEq, Repr, Inhabited

namespace Segment

/-- The number of positions that an index can name. -/
def indexLimit : Nat := Word.limit

/-- The key of a key step. -/
def key? : Segment → Option String
  | key name => some name
  | index _ => none

/-- The step as text; a key and an index may have the same text. -/
def text : Segment → String
  | key name => name
  | index position => toString position

/-- Every index comes before every key; indexes are ordered as numbers, keys by code points. -/
def compare : Segment → Segment → Ordering
  | index a, index b => Ord.compare a b
  | index _, key _ => .lt
  | key _, index _ => .gt
  | key a, key b => compareOfLessAndEq a b

end Segment

/-- A path from the root of a document. -/
abbrev DocPath := List Segment

/-- A node together with its path. -/
structure Located where
  path : DocPath
  node : Node
  deriving Repr, Inhabited

/-- Why a step of a path cannot be counted from its end. -/
inductive PathFault where
  /-- the position counted to is not one of the path -/
  | outOfRange
  deriving DecidableEq, Repr, Inhabited

namespace DocPath

/-! ## Extending a path -/

/-- The path with one more step. -/
def child (path : DocPath) (segment : Segment) : DocPath := path ++ [segment]

/-- The path with key steps appended. -/
def keys (path : DocPath) (names : List String) : DocPath := path ++ names.map Segment.key

/-! ## Looking at a path from its end -/

/-- The last step. -/
def last? (path : DocPath) : Option Segment := path.getLast?

/-- The key of the last step. -/
def lastKey? (path : DocPath) : Option String := path.last?.bind Segment.key?

/-- The step `n` places before the last.  The count `n + 1` is taken in 64-bit arithmetic: for
the greatest `n` it is zero, and the position counted to lies just behind the path. -/
def nthBack (path : DocPath) (n : UInt64) : Except PathFault (Option Segment) :=
  let places := (n + 1).toNat
  if path.length < places then .ok none
  else
    match path[path.length - places]? with
    | some segment => .ok (some segment)
    | none => .error .outOfRange

/-- The key of the step `n` places before the last, for a small `n`. -/
def keyBack? (path : DocPath) (n : Nat) : Option String :=
  (path.reverse[n]?).bind Segment.key?

/-! ## Resolving -/

/-- The node that one step leads to: a key needs an object, an index an array. -/
def step? (node : Node) : Segment → Option Node
  | .key name => node.get? name
  | .index position => node.items?.bind fun items => items[position]?

/-- The node that a path leads to. -/
def resolve : DocPath → Node → Option Node
  | [], node => some node
  | segment :: rest, node => (step? node segment).bind (resolve rest)

/-! ## Text forms -/

/-- A step in a pointer: `~` is written `~0` and `/` is written `~1`. -/
def escapePointer : List Char → List Char
  | [] => []
  | '~' :: rest => '~' :: '0' :: escapePointer rest
  | '/' :: rest => '~' :: '1' :: escapePointer rest
  | c :: rest => c :: escapePointer rest

/-- The JSON pointer of a path: each step after a slash. -/
def pointer (path : DocPath) : String :=
  String.ofList (path.flatMap fun segment => '/' :: escapePointer segment.text.toList)

/-- The steps of a path, separated by points. -/
def dotted (path : DocPath) : String := String.intercalate "." (path.map Segment.text)

/-! ## Order -/

/-- The order of paths: step by step, and a path before its extensions. -/
def compare : DocPath → DocPath → Ordering
  | [], [] => .eq
  | [], _ :: _ => .lt
  | _ :: _, [] => .gt
  | a :: as, b :: bs => (Segment.compare a b).then (compare as bs)

/-! ## Lemmas -/

@[simp] theorem resolve_nil (node : Node) : resolve [] node = some node := rfl

theorem resolve_append (p q : DocPath) (node : Node) :
    resolve (p ++ q) node = (resolve p node).bind (resolve q) := by
  induction p generalizing node with
  | nil => rfl
  | cons segment rest ih =>
    simp only [List.cons_append, resolve]
    cases step? node segment with
    | none => rfl
    | some next => exact ih next

theorem resolve_child (p : DocPath) (segment : Segment) (node : Node) :
    resolve (p.child segment) node = (resolve p node).bind (step? · segment) := by
  rw [child, resolve_append]
  congr 1
  funext next
  simp only [resolve]
  cases step? next segment <;> rfl

end DocPath

end ApiLint
