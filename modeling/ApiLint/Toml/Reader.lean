import ApiLint.Toml.Number
import ApiLint.Toml.Table
import ApiLint.Toml.Text
set_option autoImplicit false

/-!
# Reading TOML text

A file is a sequence of lines: blank ones, comments, headers of tables and of
elements of arrays of tables, and keys with values.  Values may be nested at most 79
deep, and a key has at most 79 parts.
-/

namespace ApiLint.Toml

/-- Neither the nesting of values nor the parts of a key reach this number. -/
def depthLimit : Nat := 80

/-! ## Keys -/

/-- A character of a key without quotes. -/
def isBareKeyChar (c : Char) : Bool := c.isAlpha || c.isDigit || c == '_' || c == '-'

/-- Reads one part of a key. -/
def readKeyPart : Step String := fun text =>
  match text with
  | '"' :: rest => readBasicChars (rest.length + 1) [] rest
  | '\'' :: rest => readLiteralChars [] rest
  | _ =>
    let part := text.takeWhile isBareKeyChar
    if part.isEmpty then .error .unexpected
    else .ok (String.ofList part, text.dropWhile isBareKeyChar)

/-- Reads the parts of a key with blanks around each; `done` is kept in reverse. -/
def readKeyParts : Nat → List String → Step (List String)
  | 0, _, _ => .error .unexpected
  | fuel + 1, done, text => do
    let (part, rest) ← readKeyPart (skipBlanks text)
    match skipBlanks rest with
    | '.' :: rest => readKeyParts fuel (part :: done) rest
    | rest =>
      if depthLimit ≤ done.length + 1 then .error .tooDeep
      else .ok ((part :: done).reverse, rest)

/-- Reads a key: the parts before the last one, and the last one. -/
def readKey : Step (List String × String) := fun text => do
  let (parts, rest) ← readKeyParts (text.length + 1) [] text
  .ok ((parts.dropLast, parts.getLastD ""), rest)

/-! ## Values -/

/-- Reads a fixed word. -/
def readWord (word : List Char) (value : Value) : Step Value := fun text =>
  match word, text with
  | [], _ => .ok (value, text)
  | w :: word, c :: rest => if w = c then readWord word value rest else .error .unexpected
  | _ :: _, [] => .error .unexpected

mutual

/-- Reads a value.  `depth` counts the arrays and inline tables around it; `fuel` bounds the
calls and is more than twice the length of the text. -/
def readValue (fuel depth : Nat) : Step Value := fun text =>
  match fuel with
  | 0 => .error .tooDeep
  | fuel + 1 =>
    match text with
    | [] => .error .unexpected
    | 't' :: _ => readWord ['t', 'r', 'u', 'e'] (.boolean true) text
    | 'f' :: _ => readWord ['f', 'a', 'l', 's', 'e'] (.boolean false) text
    | '[' :: rest =>
      if depthLimit ≤ depth + 1 then .error .tooDeep
      else readItems fuel (depth + 1) [] rest
    | '\x7b' :: rest =>
      if depthLimit ≤ depth + 1 then .error .tooDeep
      else
        match skipBlanks rest with
        | '\x7d' :: rest => .ok (.table [], rest)
        | rest => readPairs fuel (depth + 1) (.mk .explicit []) rest
    | c :: _ =>
      if c = '"' ∨ c = '\'' then do
        let (s, rest) ← readString text
        .ok (.string s, rest)
      else readNumber text

/-- Reads the elements of an array up to its end, which a comma may precede; `done` is kept in
reverse. -/
def readItems (fuel depth : Nat) (done : List Value) : Step Value := fun text =>
  match fuel with
  | 0 => .error .tooDeep
  | fuel + 1 => do
    match ← skipLines (text.length + 1) text with
    | ']' :: rest => .ok (.array done.reverse, rest)
    | text => do
      let (item, rest) ← readValue fuel depth text
      match ← skipLines (rest.length + 1) rest with
      | ',' :: rest => readItems fuel depth (item :: done) rest
      | ']' :: rest => .ok (.array (item :: done).reverse, rest)
      | _ => .error .unexpected

/-- Reads the pairs of an inline table up to its end; it stands on one line and has no comma
before its end. -/
def readPairs (fuel depth : Nat) (table : Table) : Step Value := fun text =>
  match fuel with
  | 0 => .error .tooDeep
  | fuel + 1 => do
    let ((path, key), rest) ← readKey text
    let rest ← expect '=' rest
    let (value, rest) ← readValue fuel depth (skipBlanks rest)
    let table ← table.addValue path key (.value value)
    match skipBlanks rest with
    | ',' :: rest => readPairs fuel depth table rest
    | '\x7d' :: rest => .ok (table.toValue, rest)
    | _ => .error .unexpected

end

/-! ## Lines -/

/-- Reads a line with a key and a value. -/
def readPairLine (file : File) (text : List Char) : Except Fault (File × List Char) := do
  let ((path, key), rest) ← readKey text
  let rest ← expect '=' rest
  let rest := skipBlanks rest
  let (value, rest) ← readValue (2 * rest.length + 2) 0 rest
  let rest ← endLine rest
  let file ← file.addValue path key value
  .ok (file, rest)

/-- Reads a header behind its opening bracket or brackets. -/
def readHeader (file : File) (text : List Char) : Except Fault (File × List Char) :=
  match text with
  | '[' :: text => do
    let ((path, key), rest) ← readKey text
    let rest ← expect ']' rest
    let rest ← expect ']' rest
    let rest ← endLine rest
    let file ← file.openElement path key
    .ok (file, rest)
  | text => do
    let ((path, key), rest) ← readKey text
    let rest ← expect ']' rest
    let rest ← endLine rest
    let file ← file.openTable path key
    .ok (file, rest)

/-- Reads lines to the end of the text; each turn takes at least one character. -/
def readLines : Nat → File → List Char → Except Fault Table
  | 0, _, _ => .error .unexpected
  | fuel + 1, file, text =>
    match skipBlanks text with
    | [] => file.close
    | '[' :: rest => do
      let (file, rest) ← readHeader file rest
      readLines fuel file rest
    | '#' :: rest => do
      let rest ← endLine ('#' :: rest)
      readLines fuel file rest
    | c :: rest =>
      match newline? (c :: rest) with
      | some rest => readLines fuel file rest
      | none => do
        let (file, rest) ← readPairLine file (c :: rest)
        readLines fuel file rest

/-- Reads a file: the entries of its root table.  A byte order mark at the start is skipped. -/
def read (text : String) : Except Fault Entries := do
  let chars :=
    match text.toList with
    | '\ufeff' :: rest => rest
    | chars => chars
  let root ← readLines (chars.length + 1) {} chars
  match root.toValue with
  | .table entries => .ok entries
  | _ => .error .unexpected

end ApiLint.Toml
