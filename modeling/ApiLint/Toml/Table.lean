import ApiLint.Toml.Value
set_option autoImplicit false

/-!
# Building tables

A table comes into being in one of three ways, and that decides what may still be
added to it: by a header of its own, because a longer header passes through it, or
because a dotted key passes through it.  A table with a header, and a key with a
value, are defined once.
-/

namespace ApiLint.Toml

/-- How a table came into being. -/
inductive Origin where
  /-- by a header or braces of its own -/
  | explicit
  /-- by a header that passes through it -/
  | implied
  /-- by a dotted key that passes through it -/
  | dotted
  deriving DecidableEq, Repr, Inhabited

mutual

/-- What a key of a table under construction stands for. -/
inductive Entry where
  | value (value : Value)
  | table (table : Table)
  /-- an array of tables, each with a header of its own -/
  | tables (tables : List Table)

/-- A table under construction. -/
inductive Table where
  | mk (origin : Origin) (entries : List (String × Entry))

end

instance : Inhabited Entry := ⟨.value default⟩

instance : Inhabited Table := ⟨.mk .explicit []⟩

namespace Table

/-! ## Looking up and changing entries -/

/-- How the table came into being. -/
def origin : Table → Origin
  | mk origin _ => origin

/-- The entries of the table. -/
def entries : Table → List (String × Entry)
  | mk _ entries => entries

/-- The table with another origin. -/
def withOrigin (table : Table) (origin : Origin) : Table := mk origin table.entries

/-- The entry of a key. -/
def find? (key : String) : List (String × Entry) → Option Entry
  | [] => none
  | (k, entry) :: rest => if k = key then some entry else find? key rest

/-- Gives a key an entry, in its place or at the end. -/
def set (key : String) (entry : Entry) : List (String × Entry) → List (String × Entry)
  | [] => [(key, entry)]
  | (k, old) :: rest => if k = key then (k, entry) :: rest else (k, old) :: set key entry rest

/-- Takes a key out. -/
def erase (key : String) (entries : List (String × Entry)) : List (String × Entry) :=
  entries.filter (·.1 ≠ key)

/-- The table with an entry for a key. -/
def put (table : Table) (key : String) (entry : Entry) : Table :=
  mk table.origin (set key entry table.entries)

/-- The table without a key. -/
def remove (table : Table) (key : String) : Table := mk table.origin (erase key table.entries)

/-! ## Descending -/

/-- Changes the table at the end of a path, making tables on the way where there are none.  A
header passes into the last table of an array of tables; a dotted key may not pass through
a table that has a header of its own. -/
def modifyAt {α : Type} (dotted : Bool) (change : Table → Except Fault (Table × α)) :
    List String → Table → Except Fault (Table × α)
  | [], table => change table
  | key :: path, table =>
    match find? key table.entries with
    | none => do
      let fresh := mk (if dotted then .dotted else .implied) []
      let (inner, result) ← modifyAt dotted change path fresh
      .ok (table.put key (.table inner), result)
    | some (.table inner) =>
      if dotted && inner.origin = .explicit then .error .duplicate
      else do
        let (inner, result) ← modifyAt dotted change path inner
        .ok (table.put key (.table inner), result)
    | some (.tables tables) =>
      match tables.getLast? with
      | none => .error .duplicate
      | some last => do
        let (last, result) ← modifyAt dotted change path last
        .ok (table.put key (.tables (tables.dropLast ++ [last])), result)
    | some (.value _) => .error .duplicate

/-- Adds a value under a dotted key: the table at the end must have come into being by dotted
keys exactly if the key is dotted, and the last part of the key must be new. -/
def addValue (table : Table) (path : List String) (key : String) (entry : Entry) :
    Except Fault Table := do
  let add (inner : Table) : Except Fault (Table × Unit) :=
    if decide (inner.origin = .dotted) == path.isEmpty then .error .duplicate
    else if (find? key inner.entries).isSome then .error .duplicate
    else .ok (inner.put key entry, ())
  let (table, _) ← modifyAt true add path table
  .ok table

end Table

/-! ## The value of a table -/

mutual

/-- The value that an entry stands for. -/
def Entry.toValue : Entry → Value
  | .value value => value
  | .table table => table.toValue
  | .tables tables => .array (tablesToValues tables)

/-- The value of a table. -/
def Table.toValue : Table → Value
  | .mk _ entries => .table (entriesToValues entries)

/-- The values of a list of tables. -/
def tablesToValues : List Table → List Value
  | [] => []
  | table :: rest => table.toValue :: tablesToValues rest

/-- The values of the entries of a table. -/
def entriesToValues : List (String × Entry) → Entries
  | [] => []
  | (key, entry) :: rest => (key, entry.toValue) :: entriesToValues rest

end

/-! ## A file under construction -/

/-- The tables read so far, and the table that the lines read now belong to. -/
structure File where
  root : Table := .mk .explicit []
  current : Table := .mk .explicit []
  /-- the path of the current table; empty before the first header -/
  path : List String := []
  /-- the current table is an element of an array of tables -/
  isElement : Bool := false
  deriving Inhabited

namespace File

/-- Puts the current table into its place. -/
def close (file : File) : Except Fault Table :=
  match file.path.getLast? with
  | none => .ok file.current
  | some key => do
    let place (parent : Table) : Except Fault (Table × Unit) :=
      if file.isElement then
        match Table.find? key parent.entries with
        | none => .ok (parent.put key (.tables [file.current]), ())
        | some (.tables tables) =>
          .ok (parent.put key (.tables (tables ++ [file.current])), ())
        | some _ => .error .duplicate
      else .ok (parent.put key (.table file.current), ())
    let (root, _) ← Table.modifyAt false place file.path.dropLast file.root
    .ok root

/-- Opens the table of a header.  A table that a longer header has implied is taken up again. -/
def openTable (file : File) (path : List String) (key : String) : Except Fault File := do
  let root ← file.close
  let take (parent : Table) : Except Fault (Table × Table) :=
    match Table.find? key parent.entries with
    | none => .ok (parent, .mk .explicit [])
    | some (.table inner) =>
      if inner.origin = .implied then .ok (parent.remove key, inner.withOrigin .explicit)
      else .error .duplicate
    | some _ => .error .duplicate
  let (root, current) ← Table.modifyAt false take path root
  .ok { root, current, path := path ++ [key], isElement := false }

/-- Opens a further element of an array of tables. -/
def openElement (file : File) (path : List String) (key : String) : Except Fault File := do
  let root ← file.close
  let check (parent : Table) : Except Fault (Table × Unit) :=
    match Table.find? key parent.entries with
    | none => .ok (parent, ())
    | some (.tables _) => .ok (parent, ())
    | some _ => .error .duplicate
  let (root, _) ← Table.modifyAt false check path root
  .ok { root, current := .mk .explicit [], path := path ++ [key], isElement := true }

/-- Adds a value to the current table. -/
def addValue (file : File) (path : List String) (key : String) (value : Value) :
    Except Fault File := do
  let current ← file.current.addValue path key (.value value)
  .ok { file with current }

end File

end ApiLint.Toml
