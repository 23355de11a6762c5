import ApiLint.Yaml.Properties
import ApiLint.Yaml.ScalarText
set_option autoImplicit false

/-!
# The tokens of a YAML text

Only the colon behind a key tells that it is one.  So the place of what may be a key is
remembered, for each flow collection that is open, and the tokens that make it a key are
put there when its colon comes.  A key must be on one line with its colon, and at most
1024 octets before it.
-/

namespace ApiLint.Yaml

/-- What may turn out to be a key. -/
structure KeyCandidate where
  /-- the number of tokens before it -/
  position : Nat
  index : Nat
  line : Nat
  column : Nat
  /-- it stands where a block mapping needs a key -/
  required : Bool
  deriving Repr, Inhabited

/-- The tokens read so far, and what decides how the text goes on. -/
structure Scanner where
  cursor : Cursor
  tokens : Array Token := #[]
  /-- the indentation of the innermost block collection, negative outside of all -/
  indent : Int := -1
  /-- the indentations of the block collections around it -/
  outerIndents : List Int := []
  /-- the candidate in the innermost flow collection, or outside of all -/
  candidate : Option KeyCandidate := none
  /-- the candidates around it, one for each open flow collection -/
  outerCandidates : List (Option KeyCandidate) := []
  /-- a key may begin here -/
  keyAllowed : Bool := true
  deriving Inhabited

namespace Scanner

/-- A flow collection is open. -/
def inFlow (s : Scanner) : Bool := !s.outerCandidates.isEmpty

/-- Adds a token. -/
def push (s : Scanner) (token : Token) : Scanner := { s with tokens := s.tokens.push token }

/-- Adds a token and moves behind the characters that it takes. -/
def take (s : Scanner) (token : Token) (count : Nat) : Scanner :=
  { s with tokens := s.tokens.push token, cursor := s.cursor.skip count }

/-- Puts a token at a position among those read. -/
def putAt (s : Scanner) (position : Nat) (token : Token) : Scanner :=
  { s with tokens := s.tokens.insertIdxIfInBounds position token }

/-! ## Candidates for keys -/

/-- A candidate whose colon can no longer come. -/
def isStale (cursor : Cursor) (key : KeyCandidate) : Bool :=
  key.line < cursor.line || key.index + 1024 < cursor.index

/-- Drops a stale candidate; it must not be a required one. -/
def refresh (cursor : Cursor) : Option KeyCandidate → Except Fault (Option KeyCandidate)
  | none => .ok none
  | some key =>
    if !isStale cursor key then .ok (some key)
    else if key.required then .error .misplaced
    else .ok none

/-- Drops the stale candidates of all open collections. -/
def refreshAll (cursor : Cursor) :
    List (Option KeyCandidate) → Except Fault (List (Option KeyCandidate))
  | [] => .ok []
  | key :: keys => do
    let keys ← refreshAll cursor keys
    let key ← refresh cursor key
    .ok (key :: keys)

/-- Drops all stale candidates. -/
def dropStale (s : Scanner) : Except Fault Scanner := do
  let outerCandidates ← refreshAll s.cursor s.outerCandidates
  let candidate ← refresh s.cursor s.candidate
  .ok { s with candidate, outerCandidates }

/-- Drops the candidate; it must not be a required one. -/
def dropCandidate (s : Scanner) : Except Fault Scanner :=
  match s.candidate with
  | some key => if key.required then .error .misplaced else .ok { s with candidate := none }
  | none => .ok s

/-- Makes what follows a candidate, if a key may begin here. -/
def saveCandidate (s : Scanner) : Except Fault Scanner :=
  if s.keyAllowed then do
    let s ← s.dropCandidate
    let candidate : KeyCandidate :=
      { position := s.tokens.size, index := s.cursor.index, line := s.cursor.line,
        column := s.cursor.column,
        required := !s.inFlow && s.indent = (s.cursor.column : Int) }
    .ok { s with candidate }
  else .ok s

/-! ## Indentation -/

/-- Opens a block collection at a column, if it is indented more than the one around it. -/
def indentTo (s : Scanner) (column position : Nat) (token : Token) : Scanner :=
  if s.inFlow || (column : Int) ≤ s.indent then s
  else
    { s.putAt position token with
      indent := column, outerIndents := s.indent :: s.outerIndents }

/-- Closes block collections as long as they are indented more than a column. -/
def closeDeeper (column : Int) : Int → List Int → Array Token → Int × List Int × Array Token
  | indent, [], tokens => (indent, [], tokens)
  | indent, outer :: outers, tokens =>
    if column < indent then closeDeeper column outer outers (tokens.push .blockEnd)
    else (indent, outer :: outers, tokens)

/-- Closes the block collections that are indented more than a column. -/
def dedentTo (s : Scanner) (column : Int) : Scanner :=
  if s.inFlow then s
  else
    let (indent, outerIndents, tokens) := closeDeeper column s.indent s.outerIndents s.tokens
    { s with indent, outerIndents, tokens }

/-! ## Moving to the next token -/

/-- Moves over a byte order mark at the start of a line. -/
def skipByteOrderMark (cursor : Cursor) : Cursor :=
  if cursor.column = 0 ∧ cursor.rest.head? = some '\ufeff' then cursor.skip 1 else cursor

/-- Moves over blanks, comments and line ends.  Tabs are blanks where no key may begin. -/
def skipToToken : Nat → Scanner → Scanner
  | 0, s => s
  | fuel + 1, s =>
    let tabs := s.inFlow || !s.keyAllowed
    let cursor :=
      ((skipByteOrderMark s.cursor).skipWhile fun c => c = ' ' || (tabs && c = '\t')).skipComment
    match cursor.rest with
    | c :: _ =>
      if isBreak c then
        skipToToken fuel
          { s with cursor := cursor.skipBreak, keyAllowed := s.keyAllowed || !s.inFlow }
      else { s with cursor }
    | [] => { s with cursor }

/-! ## Reading a token -/

/-- Leaves all block collections, in front of a directive or a mark of a document. -/
def leaveBlocks (s : Scanner) : Except Fault Scanner := do
  let s ← (s.dedentTo (-1)).dropCandidate
  .ok { s with keyAllowed := false }

/-- Reads a directive. -/
def readDirectiveToken (fuel : Nat) (s : Scanner) : Except Fault Scanner := do
  let s ← s.leaveBlocks
  let (token, cursor) ← readDirective fuel (s.cursor.skip 1)
  .ok { s with tokens := s.tokens.push token, cursor }

/-- Reads the mark of the start or end of a document. -/
def readDocumentMark (s : Scanner) (token : Token) : Except Fault Scanner := do
  let s ← s.leaveBlocks
  .ok (s.take token 3)

/-- Opens a flow collection; it may be a key. -/
def openFlow (s : Scanner) (token : Token) : Except Fault Scanner := do
  let s ← s.saveCandidate
  .ok { s.take token 1 with
        candidate := none
        outerCandidates := s.candidate :: s.outerCandidates
        keyAllowed := true }

/-- Closes a flow collection. -/
def closeFlow (s : Scanner) (token : Token) : Except Fault Scanner := do
  let s ← s.dropCandidate
  let s := { s.take token 1 with keyAllowed := false }
  match s.outerCandidates with
  | outer :: outers => .ok { s with candidate := outer, outerCandidates := outers }
  | [] => .ok s

/-- Reads the comma of a flow collection. -/
def readFlowEntry (s : Scanner) : Except Fault Scanner := do
  let s ← s.dropCandidate
  .ok { s.take .flowEntry 1 with keyAllowed := true }

/-- Opens a block collection where a hyphen or a question mark stands. -/
def openBlock (s : Scanner) (token : Token) : Except Fault Scanner :=
  if s.inFlow then .ok s
  else if s.keyAllowed then .ok (s.indentTo s.cursor.column s.tokens.size token)
  else .error .misplaced

/-- Reads the hyphen of a block sequence. -/
def readBlockEntry (s : Scanner) : Except Fault Scanner := do
  let s ← s.openBlock .blockSequenceStart
  let s ← s.dropCandidate
  .ok { s.take .blockEntry 1 with keyAllowed := true }

/-- Reads the question mark in front of a key. -/
def readKey (s : Scanner) : Except Fault Scanner := do
  let s ← s.openBlock .blockMappingStart
  let s ← s.dropCandidate
  .ok { s.take .key 1 with keyAllowed := !s.inFlow }

/-- Reads the colon behind a key.  If there is a candidate, it is the key. -/
def readValue (s : Scanner) : Except Fault Scanner :=
  match s.candidate with
  | some key =>
    let s := (s.putAt key.position .key).indentTo key.column key.position .blockMappingStart
    .ok { s.take .value 1 with candidate := none, keyAllowed := false }
  | none => do
    let s ← s.openBlock .blockMappingStart
    .ok { s.take .value 1 with keyAllowed := !s.inFlow }

/-- Reads what may be a key, or begin one. -/
def readProperty (s : Scanner) (read : Cursor → Except Fault (Token × Cursor)) :
    Except Fault Scanner := do
  let s ← s.saveCandidate
  let (token, cursor) ← read s.cursor
  .ok { s with tokens := s.tokens.push token, cursor, keyAllowed := false }

/-- Reads an anchor or an alias. -/
def readName (make : String → Token) (cursor : Cursor) : Except Fault (Token × Cursor) := do
  let (name, after) ← readAnchorName (cursor.skip 1)
  .ok (make name, after)

/-- Reads a quoted scalar as a token. -/
def readQuotedToken (fuel : Nat) (quote : Char) (cursor : Cursor) :
    Except Fault (Token × Cursor) := do
  let (text, after) ← readQuoted fuel quote cursor
  .ok (.scalar (String.ofList text.reversed.reverse) false, after)

/-- Reads a block scalar. -/
def readBlockToken (fuel : Nat) (folded : Bool) (s : Scanner) : Except Fault Scanner := do
  let s ← s.dropCandidate
  let (text, cursor) ← readBlock fuel folded s.indent s.cursor
  .ok { s with
        tokens := s.tokens.push (.scalar (String.ofList text.reversed.reverse) false)
        cursor
        keyAllowed := true }

/-- Reads a plain scalar.  A key may follow it if a line end does. -/
def readPlainToken (fuel : Nat) (s : Scanner) : Except Fault Scanner := do
  let s ← s.saveCandidate
  let (text, cursor) ← readPlain fuel s.inFlow (s.indent + 1) s.cursor
  .ok { s with
        tokens := s.tokens.push (.scalar (String.ofList text.reversed.reverse) true)
        cursor
        keyAllowed := text.endsLine }

/-- The characters that no plain scalar begins with, unless they are followed by something. -/
def isIndicator (c : Char) : Bool := "-?:,[]\x7b\x7d#&*!|>'\"%@`".toList.contains c

/-- A plain scalar begins with this character and what follows it. -/
def startsPlain (inFlow : Bool) (c : Char) (rest : List Char) : Bool :=
  !(isGap c || isIndicator c) ||
    (c = '-' && !(rest.head?.map isBlank).getD false) ||
    (!inFlow && (c = '?' || c = ':') && !startsGap rest)

/-- Reads the token that begins with a character and what follows it. -/
def readToken (fuel : Nat) (s : Scanner) (c : Char) (rest : List Char) : Except Fault Scanner :=
  if s.cursor.column = 0 && c = '%' then s.readDirectiveToken fuel
  else if s.cursor.column = 0 && startsDocument (c :: rest) then s.readDocumentMark .documentStart
  else if s.cursor.column = 0 && endsDocument (c :: rest) then s.readDocumentMark .documentEnd
  else if c = '[' then s.openFlow .flowSequenceStart
  else if c = '\x7b' then s.openFlow .flowMappingStart
  else if c = ']' then s.closeFlow .flowSequenceEnd
  else if c = '\x7d' then s.closeFlow .flowMappingEnd
  else if c = ',' then s.readFlowEntry
  else if c = '-' && startsGap rest then s.readBlockEntry
  else if c = '?' && (s.inFlow || startsGap rest) then s.readKey
  else if c = ':' && (s.inFlow || startsGap rest) then s.readValue
  else if c = '*' then s.readProperty (readName Token.alias)
  else if c = '&' then s.readProperty (readName Token.anchor)
  else if c = '!' then s.readProperty (readTag fuel s.inFlow)
  else if c = '|' && !s.inFlow then s.readBlockToken fuel false
  else if c = '>' && !s.inFlow then s.readBlockToken fuel true
  else if c = '\'' then s.readProperty (readQuotedToken fuel '\'')
  else if c = '"' then s.readProperty (readQuotedToken fuel '"')
  else if startsPlain s.inFlow c rest then s.readPlainToken fuel
  else .error .token

/-- Ends the text: all block collections are closed. -/
def finish (s : Scanner) : Except Fault (List Token) := do
  let s ← (s.dedentTo (-1)).dropCandidate
  .ok s.tokens.toList

/-- Reads tokens to the end of the text.  Each takes a character at least. -/
def readTokens : Nat → Scanner → Except Fault (List Token)
  | 0, s => s.finish
  | fuel + 1, s => do
    let s := skipToToken (fuel + 1) s
    let s ← s.dropStale
    let s := s.dedentTo s.cursor.column
    match s.cursor.rest with
    | [] => s.finish
    | c :: rest =>
      let s ← s.readToken (fuel + 1) c rest
      readTokens fuel s

end Scanner

/-- The tokens of a text. -/
def tokens (text : String) : Except Fault (List Token) :=
  let chars := text.toList
  if chars.all isAllowed then
    Scanner.readTokens (chars.length + 2) { cursor := { rest := chars } }
  else .error .character

end ApiLint.Yaml
