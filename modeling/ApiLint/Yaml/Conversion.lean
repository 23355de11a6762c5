import ApiLint.Node
import ApiLint.Number.Shortest
import ApiLint.Yaml.Tree
set_option autoImplicit false

/-!
# From YAML to a document tree

Tags are dropped, and keys become strings: numbers, booleans and null by their text.
If two keys become the same string, the first gives the place and the last the value.
Only a key that is a sequence or a mapping has no text.  A number that fits a word is an
integer, any other is a float, and a float that is not finite becomes the string that it
is written as.
-/

namespace ApiLint.Yaml

/-! ## Numbers -/

namespace Number

/-- The number as a signed word.  A float is none, whatever its value. -/
def signedWord? : Number → Option Int
  | int n => if -(Word.signedLimit : Int) ≤ n ∧ n < Word.signedLimit then some n else none
  | float _ => none

/-- The number as a word without sign.  A float is none, whatever its value. -/
def unsignedWord? : Number → Option Nat
  | int n => if 0 ≤ n ∧ n < Word.limit then some n.toNat else none
  | float _ => none

/-- The number as a float: of an integer, the nearest one. -/
def toFloat : Number → Binary64
  | int n => Binary64.ofRatio (n < 0) n.natAbs 1
  | float x => x

/-- The text of a number. -/
def text : Number → String
  | int n => toString n
  | float x => x.text

/-- The node of a number. -/
def toNode (number : Number) : Node :=
  match number.signedWord? with
  | some n => .int n
  | none =>
    match number.unsignedWord? with
    | some n => .int n
    | none =>
      if number.toFloat.isFinite then .float number.toFloat else .string number.text

end Number

/-! ## Trees -/

namespace Tree

/-- The text of a key; a sequence or mapping has none. -/
def keyText? : Tree → Option String
  | null => some "null"
  | bool b => some (if b then "true" else "false")
  | number n => some n.text
  | string s => some s
  | sequence _ => none
  | mapping _ => none
  | tagged _ value => keyText? value

/-- A mapping has a key that is a sequence or a mapping. -/
structure NonScalarKey where
  deriving DecidableEq, Repr, Inhabited

/-- The message for such a key. -/
def NonScalarKey.message (_ : NonScalarKey) : String := "non-scalar mapping key"

mutual

/-- The document tree of a tree. -/
def toNode : Tree → Except NonScalarKey Node
  | null => .ok .null
  | bool b => .ok (.bool b)
  | number n => .ok n.toNode
  | string s => .ok (.string s)
  | sequence items => (toNodes items []).map Node.array
  | mapping entries => (toFields entries []).map Node.object
  | tagged _ value => toNode value

/-- The document trees of elements; those before are given in reverse. -/
def toNodes : List Tree → List Node → Except NonScalarKey (List Node)
  | [], done => .ok done.reverse
  | item :: rest, done => do
    let node ← toNode item
    toNodes rest (node :: done)

/-- The fields of entries, added to those of the entries before. -/
def toFields : List (Tree × Tree) → Fields → Except NonScalarKey Fields
  | [], fields => .ok fields
  | (key, value) :: rest, fields =>
    match keyText? key with
    | none => .error {}
    | some text => do
      let node ← toNode value
      toFields rest (Fields.setField fields text node)

end

end Tree

end ApiLint.Yaml
