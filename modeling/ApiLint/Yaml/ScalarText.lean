import ApiLint.Yaml.Token
set_option autoImplicit false

/-!
# Reading the text of scalars

Plain and quoted scalars may go over several lines.  The blanks around a line end do
not count, and the line end itself counts as a space, or is dropped if empty lines
follow, which count as line ends.  A block scalar is read line by line below its
header; if it is folded, its line ends count in the same way, except next to lines
that begin with a blank.

Texts are gathered in reverse, so that each character is added at the front.  Each turn
of a reader takes a character, so any number above that of the characters left bounds
the turns.
-/

namespace ApiLint.Yaml

/-! ## Gaps between words -/

/-- What stands between two words: blanks on a line, or line ends with blanks around them. -/
structure Gap where
  /-- the blanks before any line end -/
  blanks : List Char := []
  hasBreak : Bool := false
  /-- the text of the first line end, empty if that line end was escaped -/
  first : List Char := []
  /-- the text of the line ends after it -/
  more : List Char := []
  deriving Repr, Inhabited

namespace Gap

/-- The text that a gap counts as. -/
def text (gap : Gap) : List Char :=
  if !gap.hasBreak then gap.blanks
  else if gap.first = ['\n'] then (if gap.more.isEmpty then [' '] else gap.more)
  else gap.first ++ gap.more

/-- The gap with one more line end. -/
def addBreak (gap : Gap) (text : List Char) : Gap :=
  if gap.hasBreak then { gap with more := gap.more ++ text }
  else { gap with hasBreak := true, first := text }

end Gap

/-- Reads a gap on from what is known of it.  Where lines must be indented, no tab may stand in
the indentation. -/
def readGap (indent : Option Int) : Nat → Gap → Cursor → Except Fault (Gap × Cursor)
  | 0, gap, cursor => .ok (gap, cursor)
  | fuel + 1, gap, cursor =>
    match cursor.rest with
    | [] => .ok (gap, cursor)
    | c :: _ =>
      if isBreak c then
        let (text, after) := cursor.readBreak
        readGap indent fuel (gap.addBreak text) after
      else if !isBlank c then .ok (gap, cursor)
      else if !gap.hasBreak then
        readGap indent fuel { gap with blanks := cursor.rest.takeWhile isBlank }
          (cursor.skipWhile isBlank)
      else
        let after := cursor.skipWhile (· = ' ')
        let isIndentation :=
          match indent with
          | some indent => (after.column : Int) < indent
          | none => false
        if isIndentation && after.rest.head? = some '\t' then .error .scalar
        else readGap indent fuel gap (after.skipWhile isBlank)

/-! ## Plain scalars -/

/-- Reads a word of a plain scalar: up to a gap, a colon before a gap, or in a flow collection
one of its indicators.  A colon directly before such an indicator may not stand there. -/
def plainWord (inFlow : Bool) : List Char → List Char → Except Fault (List Char)
  | [], word => .ok word
  | c :: rest, word =>
    if isGap c then .ok word
    else if inFlow && c = ':' && (rest.head?.map (",?[]\x7b\x7d".toList.contains ·)).getD false then
      .error .scalar
    else if (c = ':' && startsGap rest) || (inFlow && ",[]\x7b\x7d".toList.contains c) then .ok word
    else plainWord inFlow rest (c :: word)

/-- What was read of a scalar. -/
structure ScalarText where
  /-- the text in reverse -/
  reversed : List Char
  /-- a line end follows that belongs to no scalar -/
  endsLine : Bool
  deriving Repr, Inhabited

/-- Reads a plain scalar on, word by word.  In a block collection it ends where a line is
indented less than `indent`. -/
def readPlainWords (inFlow : Bool) (indent : Int) :
    Nat → List Char → Gap → Cursor → Except Fault (ScalarText × Cursor)
  | 0, text, gap, cursor => .ok (⟨text, gap.hasBreak⟩, cursor)
  | fuel + 1, text, gap, cursor =>
    if cursor.atDocumentMark || cursor.rest.head? = some '#' then
      .ok (⟨text, gap.hasBreak⟩, cursor)
    else do
      let word ← plainWord inFlow cursor.rest []
      if word.isEmpty then .ok (⟨text, gap.hasBreak⟩, cursor)
      else
        let text := word ++ gap.text.reverse ++ text
        let cursor := cursor.skip word.length
        let (gap, after) ← readGap (some indent) fuel {} cursor
        if !inFlow && (after.column : Int) < indent then .ok (⟨text, gap.hasBreak⟩, after)
        else readPlainWords inFlow indent fuel text gap after

/-- Reads a plain scalar. -/
def readPlain (fuel : Nat) (inFlow : Bool) (indent : Int) (cursor : Cursor) :
    Except Fault (ScalarText × Cursor) :=
  readPlainWords inFlow indent fuel [] {} cursor

/-! ## Quoted scalars -/

/-- The character with the code that a number of hexadecimal digits writes. -/
def readCode (places : Nat) (text : List Char) : Option Char :=
  let digits := text.take places
  let n := Text.valueInBase 16 digits
  if digits.length = places && digits.all Text.isHexDigit &&
      (n < 0xD800 || (0xDFFF < n && n < 0x110000)) then
    some (Char.ofNat n)
  else none

/-- Reads an escape behind its backslash: the character, and how many characters the escape
takes. -/
def readEscape : List Char → Option (Char × Nat)
  | [] => none
  | c :: rest =>
    match c with
    | '0' => some ('\x00', 1)
    | 'a' => some ('\x07', 1)
    | 'b' => some ('\x08', 1)
    | 't' => some ('\t', 1)
    | '\t' => some ('\t', 1)
    | 'n' => some ('\n', 1)
    | 'v' => some ('\x0b', 1)
    | 'f' => some ('\x0c', 1)
    | 'r' => some ('\r', 1)
    | 'e' => some ('\x1b', 1)
    | ' ' => some (' ', 1)
    | '"' => some ('"', 1)
    | '/' => some ('/', 1)
    | '\\' => some ('\\', 1)
    | 'N' => some ('\u0085', 1)
    | '_' => some ('\u00a0', 1)
    | 'L' => some ('\u2028', 1)
    | 'P' => some ('\u2029', 1)
    | 'x' => (readCode 2 rest).map (·, 3)
    | 'u' => (readCode 4 rest).map (·, 5)
    | 'U' => (readCode 8 rest).map (·, 9)
    | _ => none

/-- Reads a word of a quoted scalar: up to a gap or the closing quote.  The flag tells that an
escaped line end has been read behind the word. -/
def quotedWord (quote : Char) : Nat → List Char → Cursor → Except Fault (List Char × Bool × Cursor)
  | 0, text, cursor => .ok (text, false, cursor)
  | fuel + 1, text, cursor =>
    match cursor.rest with
    | [] => .ok (text, false, cursor)
    | c :: rest =>
      if isGap c then .ok (text, false, cursor)
      else if c = quote then
        if quote = '\'' && rest.head? = some '\'' then
          quotedWord quote fuel ('\'' :: text) (cursor.skip 2)
        else .ok (text, false, cursor)
      else if quote = '"' && c = '\\' then
        if (rest.head?.map isBreak).getD false then .ok (text, true, (cursor.skip 1).skipBreak)
        else
          match readEscape rest with
          | some (escaped, count) =>
            quotedWord quote fuel (escaped :: text) (cursor.skip (1 + count))
          | none => .error .scalar
      else quotedWord quote fuel (c :: text) (cursor.skip 1)

/-- Reads a quoted scalar on, word by word, to its closing quote. -/
def readQuotedWords (quote : Char) :
    Nat → List Char → Cursor → Except Fault (ScalarText × Cursor)
  | 0, _, _ => .error .scalar
  | fuel + 1, text, cursor =>
    if cursor.atDocumentMark || cursor.rest.isEmpty then .error .scalar
    else do
      let (text, broken, cursor) ← quotedWord quote (fuel + 1) text cursor
      if cursor.rest.head? = some quote then .ok (⟨text, false⟩, cursor.skip 1)
      else
        let (gap, after) ← readGap none (fuel + 1) { hasBreak := broken } cursor
        readQuotedWords quote fuel (gap.text.reverse ++ text) after

/-- Reads a quoted scalar from its opening quote. -/
def readQuoted (fuel : Nat) (quote : Char) (cursor : Cursor) :
    Except Fault (ScalarText × Cursor) :=
  readQuotedWords quote fuel [] (cursor.skip 1)

/-! ## Block scalars -/

/-- What becomes of the line ends at the end of a block scalar. -/
inductive Chomping where
  /-- all are kept -/
  | keep
  /-- the first is kept -/
  | clip
  /-- none is kept -/
  | strip
  deriving DecidableEq, Repr, Inhabited

/-- The chomping that an indicator asks for. -/
def Chomping.ofIndicator? (c : Char) : Option Chomping :=
  if c = '+' then some .keep else if c = '-' then some .strip else none

/-- The indentation that a digit asks for; it cannot be zero. -/
def indentationOf (c : Char) : Except Fault Nat :=
  if c = '0' then .error .scalar else .ok (c.toNat - '0'.toNat)

/-- Reads the indicators behind that of the scalar, in either order: chomping and the
indentation below that of the parent, which is zero if it is to be found out. -/
def readBlockHeader (cursor : Cursor) : Except Fault ((Chomping × Nat) × Cursor) :=
  match cursor.rest with
  | [] => .ok ((.clip, 0), cursor)
  | a :: rest =>
    let b := rest.headD ' '
    match Chomping.ofIndicator? a with
    | some chomping =>
      if b.isDigit then do
        let indentation ← indentationOf b
        .ok ((chomping, indentation), cursor.skip 2)
      else .ok ((chomping, 0), cursor.skip 1)
    | none =>
      if a.isDigit then do
        let indentation ← indentationOf a
        match Chomping.ofIndicator? b with
        | some chomping => .ok ((chomping, indentation), cursor.skip 2)
        | none => .ok ((.clip, indentation), cursor.skip 1)
      else .ok ((.clip, 0), cursor)

/-- Moves over the spaces of an indentation; all of them if it is not known. -/
def skipIndentation (indent : Nat) (cursor : Cursor) : Cursor :=
  let spaces := (cursor.rest.takeWhile (· = ' ')).length
  if indent = 0 then cursor.skip spaces else cursor.skip (min spaces (indent - cursor.column))

/-- Reads empty lines and the indentation of the line after them: the greatest column reached,
and the line ends.  No tab may stand in the indentation. -/
def readEmptyLines (indent : Nat) :
    Nat → Nat → List Char → Cursor → Except Fault ((Nat × List Char) × Cursor)
  | 0, reached, breaks, cursor => .ok ((reached, breaks), cursor)
  | fuel + 1, reached, breaks, cursor =>
    let cursor := skipIndentation indent cursor
    let reached := max reached cursor.column
    if (indent = 0 || cursor.column < indent) && cursor.rest.head? = some '\t' then .error .scalar
    else if cursor.rest.isEmpty || !startsBreak cursor.rest then .ok ((reached, breaks), cursor)
    else
      let (text, after) := cursor.readBreak
      readEmptyLines indent fuel reached (breaks ++ text) after

/-- The lines read of a block scalar. -/
structure BlockText where
  /-- the text in reverse, without what follows the last line -/
  reversed : List Char := []
  /-- the line end of the last line -/
  lastBreak : List Char := []
  /-- the empty lines after the last line -/
  emptyLines : List Char := []
  /-- the last line begins with a blank -/
  isIndented : Bool := false
  deriving Repr, Inhabited

/-- What joins the lines read and the next one: nothing or a space where line ends are folded,
the line end itself otherwise. -/
def BlockText.joint (block : BlockText) (folded nextIndented : Bool) : List Char :=
  if folded && block.lastBreak = ['\n'] && !block.isIndented && !nextIndented then
    (if block.emptyLines.isEmpty then [' '] else [])
  else block.lastBreak

/-- Reads the lines of a block scalar on. -/
def readBlockLines (folded : Bool) (indent : Nat) :
    Nat → BlockText → Cursor → Except Fault (BlockText × Cursor)
  | 0, block, cursor => .ok (block, cursor)
  | fuel + 1, block, cursor =>
    if cursor.column ≠ indent || cursor.rest.isEmpty then .ok (block, cursor)
    else do
      let nextIndented := (cursor.rest.head?.map isBlank).getD false
      let line := cursor.rest.takeWhile fun c => !isBreak c
      let (lastBreak, after) := (cursor.skip line.length).readBreak
      let ((_, emptyLines), after) ← readEmptyLines indent (fuel + 1) 0 [] after
      let reversed :=
        line.reverse ++
          (block.emptyLines.reverse ++ ((block.joint folded nextIndented).reverse ++ block.reversed))
      readBlockLines folded indent fuel
        { reversed, lastBreak, emptyLines, isIndented := nextIndented } after

/-- The text of a block scalar with its end. -/
def BlockText.chomped (block : BlockText) : Chomping → List Char
  | .keep => block.emptyLines.reverse ++ (block.lastBreak.reverse ++ block.reversed)
  | .clip => block.lastBreak.reverse ++ block.reversed
  | .strip => block.reversed

/-- Reads a block scalar from its indicator.  `parent` is the indentation of the collection that
it stands in. -/
def readBlock (fuel : Nat) (folded : Bool) (parent : Int) (cursor : Cursor) :
    Except Fault (ScalarText × Cursor) := do
  let ((chomping, indentation), cursor) ← readBlockHeader (cursor.skip 1)
  let cursor ← cursor.endLine .scalar
  let given := if indentation = 0 then 0 else (max parent 0).toNat + indentation
  let ((reached, emptyLines), cursor) ← readEmptyLines given fuel 0 [] cursor
  let indent := if given = 0 then max reached (max (parent + 1).toNat 1) else given
  let (block, cursor) ← readBlockLines folded indent fuel { emptyLines } cursor
  .ok (⟨block.chomped chomping, false⟩, cursor)

end ApiLint.Yaml
