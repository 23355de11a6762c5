import ApiLint.Toml.Date
set_option autoImplicit false

/-!
# Dates as tables

A date may stand in place of a table: it is the table whose only key is `dateKey`, with
the text of the date.  Where any value may stand, such a table is read as the date again,
and a table that begins with that key must be one.
-/

namespace ApiLint.Toml

/-- The key that a date has its text under where it stands in place of a table. -/
def dateKey : String := "$__toml_private_datetime"

namespace Entries

/-- A table that begins with the key of dates. -/
def beginsAsDate : Entries → Bool
  | (key, _) :: _ => key = dateKey
  | [] => false

/-- The date that a table stands for: its only entry is the text of one. -/
def date? : Entries → Option Value
  | [(_, .string text)] => if isDateText text then some (.datetime text) else none
  | _ => none

end Entries

namespace Value

/-- The entries of a table; a date counts as a table that holds nothing but its text. -/
def tableEntries? : Value → Option Entries
  | table entries => some entries
  | datetime text => some [(dateKey, .string text)]
  | _ => none

mutual

/-- The value with the dates that tables in it stand for; there is none if one of these tables
holds no date. -/
def withDates? : Value → Option Value
  | array items => (itemsWithDates? items).map array
  | table entries =>
    if Entries.beginsAsDate entries then Entries.date? entries
    else (entriesWithDates? entries).map table
  | string text => some (string text)
  | integer n => some (integer n)
  | float x => some (float x)
  | boolean b => some (boolean b)
  | datetime text => some (datetime text)

/-- The elements of an array with the dates that tables in them stand for. -/
def itemsWithDates? : List Value → Option (List Value)
  | [] => some []
  | item :: rest =>
    match withDates? item, itemsWithDates? rest with
    | some item, some rest => some (item :: rest)
    | _, _ => none

/-- The entries of a table with the dates that tables in them stand for. -/
def entriesWithDates? : List (String × Value) → Option (List (String × Value))
  | [] => some []
  | (key, value) :: rest =>
    match withDates? value, entriesWithDates? rest with
    | some value, some rest => some ((key, value) :: rest)
    | _, _ => none

end

/-! ## Lemmas -/

theorem withDates?_of_date {text : String} (h : isDateText text = true) :
    withDates? (table [(dateKey, string text)]) = some (datetime text) := by
  simp [withDates?, Entries.beginsAsDate, Entries.date?, h]

end Value

end ApiLint.Toml
