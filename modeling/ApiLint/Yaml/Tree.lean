import ApiLint.Number.Binary64
set_option autoImplicit false

/-!
# Trees of YAML

The value of a YAML document.  A key of a mapping may be any tree, and a tree may carry
a tag of its document's own, by its name.
-/

namespace ApiLint.Yaml

/-- A number.  The reader gives only integers that fit a word, with or without a sign. -/
inductive Number where
  | int (value : Int)
  | float (value : Binary64)
  deriving DecidableEq, Repr, Inhabited

namespace Number

/-- Equality of two numbers as keys: an integer never equals a float, floats compare as numbers,
but NaN equals itself. -/
def same : Number → Number → Bool
  | int a, int b => a == b
  | float a, float b => a.sameValue b || (a.isNaN && b.isNaN)
  | _, _ => false

end Number

/-- The value of a node. -/
inductive Tree where
  | null
  | bool (value : Bool)
  | number (value : Number)
  | string (value : String)
  | sequence (items : List Tree)
  | mapping (entries : List (Tree × Tree))
  | tagged (tag : String) (value : Tree)
  deriving Repr, Inhabited

namespace Tree

mutual

/-- Equality of two trees as keys: the order of the entries of a mapping does not matter. -/
def same : Tree → Tree → Bool
  | null, null => true
  | bool a, bool b => a == b
  | number a, number b => a.same b
  | string a, string b => a == b
  | sequence xs, sequence ys => sameItems xs ys
  | mapping xs, mapping ys => xs.length == ys.length && sameEntries xs ys
  | tagged s x, tagged t y => s == t && same x y
  | _, _ => false

/-- Two lists are equal, element by element. -/
def sameItems : List Tree → List Tree → Bool
  | [], [] => true
  | x :: xs, y :: ys => same x y && sameItems xs ys
  | _, _ => false

/-- Every entry has an equal one among others. -/
def sameEntries : List (Tree × Tree) → List (Tree × Tree) → Bool
  | [], _ => true
  | (key, value) :: rest, others =>
    hasEntry key value others && sameEntries rest others

/-- An entry with this key is among the entries, and has this value. -/
def hasEntry (key value : Tree) : List (Tree × Tree) → Bool
  | [] => false
  | (k, v) :: rest => (same key k && same value v) || hasEntry key value rest

end

end Tree

end ApiLint.Yaml
