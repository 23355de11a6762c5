import ApiLint.Text.Digits
set_option autoImplicit false

/-!
# A place in a YAML text

The characters that YAML text is made of, and a cursor that knows its line and column,
and how many octets of UTF-8 are before it.  Five characters end a line.  The ends that
other systems use are read as a line feed, while the separators of lines and paragraphs
are kept as they are.
-/

namespace ApiLint.Yaml

/-- Why a text is no YAML document. -/
inductive Fault where
  /-- a character that no document may hold -/
  | character
  /-- a character that begins no token where it stands -/
  | token
  /-- a key without its colon, or a colon, key or entry where none may stand -/
  | misplaced
  /-- a directive that is not understood -/
  | directive
  /-- an anchor, an alias or a tag that is not well formed -/
  | property
  /-- a scalar that does not end, is not indented, or has a bad escape -/
  | scalar
  /-- tokens in an order that means nothing -/
  | order
  /-- an alias of an anchor that is not there -/
  | unknownAnchor
  /-- too many aliases or too deep a nesting -/
  | limit
  /-- a scalar that is not of the type its tag names, or an integer that is too large -/
  | value
  /-- two equal keys of a mapping -/
  | duplicateKey
  /-- more than one document -/
  | moreDocuments
  deriving DecidableEq, Repr, Inhabited

/-! ## Character classes -/

/-- A character that a document may hold. -/
def isAllowed (c : Char) : Bool :=
  let n := c.toNat
  n == 9 || n == 10 || n == 13 || (0x20 ≤ n && n ≤ 0x7E) || n == 0x85 ||
    (0xA0 ≤ n && n ≤ 0xD7FF) || (0xE000 ≤ n && n ≤ 0xFFFD) || 0x10000 ≤ n

/-- A blank within a line. -/
def isBlank (c : Char) : Bool := c == ' ' || c == '\t'

/-- A character that ends a line. -/
def isBreak (c : Char) : Bool :=
  c == '\n' || c == '\r' || c == '\u0085' || c == '\u2028' || c == '\u2029'

/-- A blank or the end of a line. -/
def isGap (c : Char) : Bool := isBlank c || isBreak c

/-- A character of the names of directives, anchors and tag handles. -/
def isNameChar (c : Char) : Bool := c.isAlpha || c.isDigit || c == '_' || c == '-'

/-- The text begins with a blank or the end of a line, or is at its end. -/
def startsGap : List Char → Bool
  | [] => true
  | c :: _ => isGap c

/-- The text begins with the end of a line, or is at its end. -/
def startsBreak : List Char → Bool
  | [] => true
  | c :: _ => isBreak c

/-- The text begins with the mark of the start of a document. -/
def startsDocument : List Char → Bool
  | '-' :: '-' :: '-' :: rest => startsGap rest
  | _ => false

/-- The text begins with the mark of the end of a document. -/
def endsDocument : List Char → Bool
  | '.' :: '.' :: '.' :: rest => startsGap rest
  | _ => false

/-! ## The cursor -/

/-- What is left of a text, and where in the text that is. -/
structure Cursor where
  rest : List Char
  /-- the octets before it -/
  index : Nat := 0
  line : Nat := 0
  column : Nat := 0
  deriving Repr, Inhabited

/-- The number of octets that characters take. -/
def octetLength (text : List Char) : Nat := text.foldl (fun n c => n + c.utf8Size) 0

namespace Cursor

/-- Moves behind characters of the line. -/
def skip (cursor : Cursor) (count : Nat) : Cursor :=
  { cursor with
    rest := cursor.rest.drop count
    index := cursor.index + octetLength (cursor.rest.take count)
    column := cursor.column + count }

/-- Moves behind the characters of the line that have a property. -/
def skipWhile (cursor : Cursor) (p : Char → Bool) : Cursor :=
  let skipped := cursor.rest.takeWhile p
  { cursor with
    rest := cursor.rest.dropWhile p
    index := cursor.index + octetLength skipped
    column := cursor.column + skipped.length }

/-- Moves to the next line, behind a line end that takes the given number of characters. -/
def nextLine (cursor : Cursor) (count : Nat) : Cursor :=
  { rest := cursor.rest.drop count
    index := cursor.index + octetLength (cursor.rest.take count)
    line := cursor.line + 1
    column := 0 }

/-- Reads the end of a line, if the cursor is at one: the text that it stands for, and the
cursor on the next line. -/
def readBreak (cursor : Cursor) : List Char × Cursor :=
  match cursor.rest with
  | '\r' :: '\n' :: _ => (['\n'], cursor.nextLine 2)
  | c :: _ =>
    if c = '\u2028' ∨ c = '\u2029' then ([c], cursor.nextLine 1)
    else if isBreak c then (['\n'], cursor.nextLine 1)
    else ([], cursor)
  | [] => ([], cursor)

/-- Moves behind the end of a line, if the cursor is at one. -/
def skipBreak (cursor : Cursor) : Cursor := cursor.readBreak.2

/-- Moves behind the rest of the line if it is a comment. -/
def skipComment (cursor : Cursor) : Cursor :=
  match cursor.rest with
  | '#' :: _ => cursor.skipWhile fun c => !isBreak c
  | _ => cursor

/-- The cursor is at the mark of the start or end of a document. -/
def atDocumentMark (cursor : Cursor) : Bool :=
  cursor.column == 0 && (startsDocument cursor.rest || endsDocument cursor.rest)

/-- Moves over blanks and a comment to the end of the line and behind it; nothing else may
stand there. -/
def endLine (cursor : Cursor) (fault : Fault) : Except Fault Cursor :=
  let cursor := (cursor.skipWhile isBlank).skipComment
  if startsBreak cursor.rest then .ok cursor.skipBreak else .error fault

end Cursor

end ApiLint.Yaml
