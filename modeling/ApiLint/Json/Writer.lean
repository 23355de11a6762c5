import ApiLint.Node
import ApiLint.Number.Shortest
set_option autoImplicit false

/-!
# Writing JSON text

Two layouts: compact, without any blank, and indented by two spaces a level.  A
string is escaped no more than JSON demands, integers are digits, and floats have
their shortest text.
-/

namespace ApiLint.Json

/-! ## Scalars -/

/-- A hexadecimal digit, in lower case. -/
def hexDigit (n : Nat) : Char := (Nat.toDigits 16 n).headD '0'

/-- A character inside a string. -/
def escapeChar (c : Char) : List Char :=
  if c = '"' then ['\\', '"']
  else if c = '\\' then ['\\', '\\']
  else if c = '\n' then ['\\', 'n']
  else if c = '\r' then ['\\', 'r']
  else if c = '\t' then ['\\', 't']
  else if c = '\x08' then ['\\', 'b']
  else if c = '\x0c' then ['\\', 'f']
  else if c.toNat < 0x20 then ['\\', 'u', '0', '0', hexDigit (c.toNat / 16), hexDigit (c.toNat % 16)]
  else [c]

/-- A string with its quotes. -/
def quote (s : String) : String :=
  String.ofList ('"' :: (s.toList.flatMap escapeChar ++ ['"']))

/-! ## Layouts -/

mutual

/-- The compact text of a node, put in front of what follows it. -/
def compactOnto (tail : List String) : Node → List String
  | .null => "null" :: tail
  | .bool b => (if b then "true" else "false") :: tail
  | .int n => toString n :: tail
  | .float x => x.text :: tail
  | .string s => quote s :: tail
  | .array items => "[" :: compactItems ("]" :: tail) true items
  | .object fields => "\x7b" :: compactFields ("\x7d" :: tail) true fields

/-- The compact text of array elements; `first` tells that no comma is due. -/
def compactItems (tail : List String) (first : Bool) : List Node → List String
  | [] => tail
  | item :: rest =>
    let text := compactOnto (compactItems tail false rest) item
    if first then text else "," :: text

/-- The compact text of object fields. -/
def compactFields (tail : List String) (first : Bool) : List (String × Node) → List String
  | [] => tail
  | (key, value) :: rest =>
    let text := quote key :: ":" :: compactOnto (compactFields tail false rest) value
    if first then text else "," :: text

end

/-- The compact text of a node. -/
def compact (node : Node) : String := String.join (compactOnto [] node)

/-- A line break and the indentation of a level. -/
def newline (level : Nat) : String := String.ofList ('\n' :: List.replicate (2 * level) ' ')

mutual

/-- The indented text of a node at a level. -/
def indented (level : Nat) : Node → String
  | .array [] => "[]"
  | .object [] => "\x7b\x7d"
  | .array (item :: rest) =>
    "[" ++ newline (level + 1) ++ indented (level + 1) item ++
      indentedItems (level + 1) rest ++ newline level ++ "]"
  | .object ((key, value) :: rest) =>
    "\x7b" ++ newline (level + 1) ++ quote key ++ ": " ++ indented (level + 1) value ++
      indentedFields (level + 1) rest ++ newline level ++ "\x7d"
  | .null => "null"
  | .bool b => if b then "true" else "false"
  | .int n => toString n
  | .float x => x.text
  | .string s => quote s

/-- The elements after the first, each behind a comma and on a line of its own. -/
def indentedItems (level : Nat) : List Node → String
  | [] => ""
  | item :: rest => "," ++ newline level ++ indented level item ++ indentedItems level rest

/-- The fields after the first, each behind a comma and on a line of its own. -/
def indentedFields (level : Nat) : List (String × Node) → String
  | [] => ""
  | (key, value) :: rest =>
    "," ++ newline level ++ quote key ++ ": " ++ indented level value ++
      indentedFields level rest

end

/-- The text of a node indented by two spaces a level. -/
def pretty (node : Node) : String := indented 0 node

end ApiLint.Json
