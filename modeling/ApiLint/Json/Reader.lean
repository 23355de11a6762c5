import ApiLint.Json.Number
import ApiLint.Text.Digits
set_option autoImplicit false

/-!
# Reading JSON text

Strict JSON: no comments, no trailing commas, no byte order mark, and at most 127
values nested inside each other.  A repeated key keeps its first place and takes
the last value.
-/

namespace ApiLint.Json

/-! ## Blanks and literals -/

/-- The four blank characters of JSON. -/
def isBlank (c : Char) : Bool := c == ' ' || c == '\n' || c == '\t' || c == '\r'

/-- Drops the blanks at the front of a text. -/
def skipBlanks (text : List Char) : List Char := text.dropWhile isBlank

/-- Reads a fixed word. -/
def readWord (word : List Char) (node : Node) : Step Node := fun text =>
  match word, text with
  | [], _ => .ok (node, text)
  | _ :: _, [] => .error .unfinished
  | w :: word, c :: rest => if w = c then readWord word node rest else .error .unexpected

/-! ## Strings -/

/-- Reads four hexadecimal digits. -/
def readHex4 : Step Nat
  | a :: b :: c :: d :: rest =>
    match Text.hexValue? a, Text.hexValue? b, Text.hexValue? c, Text.hexValue? d with
    | some a, some b, some c, some d => .ok (((a * 16 + b) * 16 + c) * 16 + d, rest)
    | _, _, _, _ => .error .badEscape
  | _ => .error .unfinished

/-- Reads the character of a `\u` escape behind the `u`.  A leading surrogate must be
followed by the escape of a trailing one; the two are one character. -/
def readUnicode : Step Char := fun text => do
  let (unit, rest) ← readHex4 text
  if 0xDC00 ≤ unit ∧ unit ≤ 0xDFFF then .error .badEscape
  else if 0xD800 ≤ unit ∧ unit ≤ 0xDBFF then
    match rest with
    | '\\' :: 'u' :: rest =>
      let (low, rest) ← readHex4 rest
      if 0xDC00 ≤ low ∧ low ≤ 0xDFFF then
        .ok (Char.ofNat (0x10000 + (unit - 0xD800) * 0x400 + (low - 0xDC00)), rest)
      else .error .badEscape
    | _ => .error .badEscape
  else .ok (Char.ofNat unit, rest)

/-- Reads an escape behind its backslash. -/
def readEscape : Step Char
  | '"' :: rest => .ok ('"', rest)
  | '\\' :: rest => .ok ('\\', rest)
  | '/' :: rest => .ok ('/', rest)
  | 'b' :: rest => .ok ('\x08', rest)
  | 'f' :: rest => .ok ('\x0c', rest)
  | 'n' :: rest => .ok ('\n', rest)
  | 'r' :: rest => .ok ('\r', rest)
  | 't' :: rest => .ok ('\t', rest)
  | 'u' :: rest => readUnicode rest
  | _ :: _ => .error .badEscape
  | [] => .error .unfinished

/-- Reads a string behind its opening quote; the characters read so far are kept in reverse.
Each turn takes a character, so any number above that of the characters left bounds the
turns. -/
def readChars : Nat → List Char → Step String
  | 0, _, _ => .error .unfinished
  | _ + 1, _, [] => .error .unfinished
  | _ + 1, done, '"' :: rest => .ok (String.ofList done.reverse, rest)
  | fuel + 1, done, '\\' :: rest => do
    let (c, rest) ← readEscape rest
    readChars fuel (c :: done) rest
  | fuel + 1, done, c :: rest =>
    if c.toNat < 0x20 then .error .controlCharacter else readChars fuel (c :: done) rest

/-! ## Values -/

/-- The number of values that may be nested inside each other, plus one. -/
def depthLimit : Nat := 128

mutual

/-- Reads a value.  `depth` counts how many more arrays and objects may be opened, and stops
short of zero; `fuel` bounds the calls and is more than twice the length of the text. -/
def readValue (fuel depth : Nat) : Step Node := fun text =>
  match fuel with
  | 0 => .error .tooDeep
  | fuel + 1 =>
    match skipBlanks text with
    | [] => .error .unfinished
    | 'n' :: rest => readWord ['u', 'l', 'l'] .null rest
    | 't' :: rest => readWord ['r', 'u', 'e'] (.bool true) rest
    | 'f' :: rest => readWord ['a', 'l', 's', 'e'] (.bool false) rest
    | '"' :: rest => do
      let (s, rest) ← readChars fuel [] rest
      .ok (.string s, rest)
    | '[' :: rest =>
      if depth ≤ 1 then .error .tooDeep
      else
        match skipBlanks rest with
        | ']' :: rest => .ok (.array [], rest)
        | rest => readItems fuel (depth - 1) [] rest
    | '\x7b' :: rest =>
      if depth ≤ 1 then .error .tooDeep
      else
        match skipBlanks rest with
        | '\x7d' :: rest => .ok (.object [], rest)
        | rest => readFields fuel (depth - 1) [] rest
    | c :: rest => if c = '-' ∨ c.isDigit then readNumber (c :: rest) else .error .unexpected

/-- Reads the elements of an array up to its end; those read so far are kept in reverse. -/
def readItems (fuel depth : Nat) (done : List Node) : Step Node := fun text =>
  match fuel with
  | 0 => .error .tooDeep
  | fuel + 1 => do
    let (item, rest) ← readValue fuel depth text
    match skipBlanks rest with
    | ',' :: rest => readItems fuel depth (item :: done) rest
    | ']' :: rest => .ok (.array (item :: done).reverse, rest)
    | [] => .error .unfinished
    | _ => .error .unexpected

/-- Reads the fields of an object up to its end. -/
def readFields (fuel depth : Nat) (done : Fields) : Step Node := fun text =>
  match fuel with
  | 0 => .error .tooDeep
  | fuel + 1 =>
    match skipBlanks text with
    | '"' :: rest => do
      let (key, rest) ← readChars fuel [] rest
      match skipBlanks rest with
      | ':' :: rest => do
        let (value, rest) ← readValue fuel depth rest
        match skipBlanks rest with
        | ',' :: rest => readFields fuel depth (done.setField key value) rest
        | '\x7d' :: rest => .ok (.object (done.setField key value), rest)
        | [] => .error .unfinished
        | _ => .error .unexpected
      | [] => .error .unfinished
      | _ => .error .unexpected
    | [] => .error .unfinished
    | _ => .error .unexpected

end

/-- Reads a text that is one JSON value. -/
def read (text : String) : Except Fault Node := do
  let chars := text.toList
  let (node, rest) ← readValue (2 * chars.length + 2) depthLimit chars
  if (skipBlanks rest).isEmpty then .ok node else .error .trailing

end ApiLint.Json
