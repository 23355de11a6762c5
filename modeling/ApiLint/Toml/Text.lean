import ApiLint.Text.Digits
import ApiLint.Toml.Value
set_option autoImplicit false

/-!
# Blanks, comments and strings of TOML

Strings come in four forms: on one line or on several, with escapes or literal.  A
line break is a line feed, with or without a carriage return before it; in a string
on several lines it always counts as a line feed alone.
-/

namespace ApiLint.Toml

/-! ## Character classes -/

/-- A blank within a line. -/
def isBlank (c : Char) : Bool := c == ' ' || c == '\t'

/-- A character that a comment may hold. -/
def isCommentChar (c : Char) : Bool := c == '\t' || (0x20 ≤ c.toNat && c.toNat ≠ 0x7F)

/-! ## Blanks and line ends -/

/-- Drops the blanks at the front of a text. -/
def skipBlanks (text : List Char) : List Char := text.dropWhile isBlank

/-- Takes a line break off the front of a text. -/
def newline? : List Char → Option (List Char)
  | '\n' :: rest => some rest
  | '\r' :: '\n' :: rest => some rest
  | _ => none

/-- Drops a comment at the front of a text. -/
def skipComment : List Char → List Char
  | '#' :: rest => rest.dropWhile isCommentChar
  | text => text

/-- Reads the rest of a line that holds nothing more: blanks, a comment, the line break or the
end of the text. -/
def endLine (text : List Char) : Except Fault (List Char) :=
  match skipComment (skipBlanks text) with
  | [] => .ok []
  | rest =>
    match newline? rest with
    | some rest => .ok rest
    | none => .error .unexpected

/-- Drops blanks, line breaks and whole comments, as between the elements of an array. -/
def skipLines : Nat → List Char → Except Fault (List Char)
  | 0, text => .ok text
  | fuel + 1, text =>
    match skipBlanks text with
    | '#' :: rest =>
      match newline? (rest.dropWhile isCommentChar) with
      | some rest => skipLines fuel rest
      | none => .error .unexpected
    | '\n' :: rest => skipLines fuel rest
    | '\r' :: rest =>
      match rest with
      | '\n' :: rest => skipLines fuel rest
      | _ => .error .unexpected
    | rest => .ok rest

/-- Drops blanks and line breaks, as behind a backslash at the end of a line. -/
def skipBlankLines : List Char → List Char
  | ' ' :: rest => skipBlankLines rest
  | '\t' :: rest => skipBlankLines rest
  | '\n' :: rest => skipBlankLines rest
  | '\r' :: '\n' :: rest => skipBlankLines rest
  | text => text

/-! ## Escapes -/

/-- Reads the number of hexadecimal digits that a character is escaped with. -/
def readHexChar (places : Nat) : Step Char := fun text =>
  let digits := text.take places
  let n := Text.valueInBase 16 digits
  if digits.length ≠ places ∨ !digits.all Text.isHexDigit then .error .badEscape
  else if n < 0xD800 ∨ (0xDFFF < n ∧ n < 0x110000) then .ok (Char.ofNat n, text.drop places)
  else .error .badEscape

/-- Reads an escape behind its backslash. -/
def readEscape : Step Char
  | 'b' :: rest => .ok ('\x08', rest)
  | 'f' :: rest => .ok ('\x0c', rest)
  | 'n' :: rest => .ok ('\n', rest)
  | 'r' :: rest => .ok ('\r', rest)
  | 't' :: rest => .ok ('\t', rest)
  | '"' :: rest => .ok ('"', rest)
  | '\\' :: rest => .ok ('\\', rest)
  | 'u' :: rest => readHexChar 4 rest
  | 'U' :: rest => readHexChar 8 rest
  | _ => .error .badEscape

/-! ## Strings on one line -/

/-- Reads a string with escapes behind its opening quote; `done` is kept in reverse. -/
def readBasicChars : Nat → List Char → Step String
  | 0, _, _ => .error .unexpected
  | _ + 1, _, [] => .error .unexpected
  | _ + 1, done, '"' :: rest => .ok (String.ofList done.reverse, rest)
  | fuel + 1, done, '\\' :: rest => do
    let (c, rest) ← readEscape rest
    readBasicChars fuel (c :: done) rest
  | fuel + 1, done, c :: rest =>
    if isCommentChar c then readBasicChars fuel (c :: done) rest else .error .unexpected

/-- Reads a literal string behind its opening quote. -/
def readLiteralChars : List Char → Step String
  | _, [] => .error .unexpected
  | done, c :: rest =>
    if c = '\'' then .ok (String.ofList done.reverse, rest)
    else if isCommentChar c then readLiteralChars (c :: done) rest
    else .error .unexpected

/-! ## Strings on several lines -/

/-- Closes a string on several lines at a run of quotes, if the run is long enough: the last
three quotes close it, up to two before them belong to it. -/
def closingRun (quote : Char) (done text : List Char) :
    Option (Except Fault (String × List Char)) :=
  let run := text.takeWhile (· = quote)
  if run.length < 3 then none
  else if 5 < run.length then some (.error .unexpected)
  else
    some (.ok (String.ofList (List.replicate (run.length - 3) quote ++ done).reverse,
      text.drop run.length))

/-- Reads a string on several lines behind its opening quotes.  Where escapes count, a
backslash at the end of a line takes the line break and all blanks behind it away. -/
def readBlock (escapes : Bool) (quote : Char) : Nat → List Char → Step String
  | 0, _, _ => .error .unexpected
  | _ + 1, _, [] => .error .unexpected
  | fuel + 1, done, c :: rest =>
    if c = quote then
      match closingRun quote done (c :: rest) with
      | some result => result
      | none => readBlock escapes quote fuel (c :: done) rest
    else if escapes && c = '\\' then
      match newline? (skipBlanks rest) with
      | some rest => readBlock escapes quote fuel done (skipBlankLines rest)
      | none => do
        let (c, rest) ← readEscape rest
        readBlock escapes quote fuel (c :: done) rest
    else
      match newline? (c :: rest) with
      | some rest => readBlock escapes quote fuel ('\n' :: done) rest
      | none =>
        if isCommentChar c then readBlock escapes quote fuel (c :: done) rest
        else .error .unexpected

/-- Drops a line break at the very start of a string on several lines. -/
def skipFirstBreak (text : List Char) : List Char := (newline? text).getD text

/-- Reads a string in any of the four forms. -/
def readString : Step String := fun text =>
  let fuel := text.length + 1
  match text with
  | '"' :: '"' :: '"' :: rest => readBlock true '"' fuel [] (skipFirstBreak rest)
  | '"' :: rest => readBasicChars fuel [] rest
  | '\'' :: '\'' :: '\'' :: rest => readBlock false '\'' fuel [] (skipFirstBreak rest)
  | '\'' :: rest => readLiteralChars [] rest
  | _ => .error .unexpected

end ApiLint.Toml
