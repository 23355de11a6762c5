import ApiLint.Number.Binary64
set_option autoImplicit false

/-!
# Values of a configuration file

What a key of a TOML file can be given.  A table is the list of its entries, in the
order in which their keys came up.
-/

namespace ApiLint.Toml

/-- A value. -/
inductive Value where
  | string (text : String)
  | integer (n : Int)
  | float (x : Binary64)
  | boolean (b : Bool)
  /-- a date, a time, or both, as it is written -/
  | datetime (text : String)
  | array (items : List Value)
  | table (entries : List (String × Value))
  deriving Repr, Inhabited

/-- The entries of a table. -/
abbrev Entries := List (String × Value)

namespace Value

/-- The name of the type of a value. -/
def typeName : Value → String
  | string _ => "string"
  | integer _ => "integer"
  | float _ => "float"
  | boolean _ => "boolean"
  | datetime _ => "datetime"
  | array _ => "array"
  | table _ => "table"

/-- The text of a string. -/
def string? : Value → Option String
  | string text => some text
  | _ => none

end Value

/-- The value of an entry. -/
def Entries.get? : Entries → String → Option Value
  | [], _ => none
  | (k, v) :: rest, key => if k = key then some v else get? rest key

/-- Why a text is not a TOML file. -/
inductive Fault where
  /-- a character that cannot stand here, or the end of the text -/
  | unexpected
  /-- an escape that is not one of TOML -/
  | badEscape
  /-- a number or date out of its range -/
  | outOfRange
  /-- values or keys nested too deeply -/
  | tooDeep
  /-- a key or table that is there already, or is no table -/
  | duplicate
  deriving DecidableEq, Repr, Inhabited

/-- A reader: takes something off the front of a text and returns the rest. -/
abbrev Step (α : Type) : Type := List Char → Except Fault (α × List Char)

end ApiLint.Toml
