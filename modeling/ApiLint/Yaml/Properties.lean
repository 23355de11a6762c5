import ApiLint.Yaml.Token
set_option autoImplicit false

/-!
# Anchors, aliases, tags and directives

The properties that stand in front of a node, and the directives in front of a
document.  Each turn of a reader takes a character, so any number above that of the
characters left bounds the turns.
-/

namespace ApiLint.Yaml

/-! ## Anchors and aliases -/

/-- A character that may follow a name directly. -/
def mayFollowName (c : Char) : Bool := isGap c || "?:,]\x7d%@`".toList.contains c

/-- Reads the name of an anchor or an alias behind its indicator. -/
def readAnchorName (cursor : Cursor) : Except Fault (String × Cursor) :=
  let name := cursor.rest.takeWhile isNameChar
  let after := cursor.skipWhile isNameChar
  let ends :=
    match after.rest with
    | [] => true
    | c :: _ => mayFollowName c
  if name.isEmpty || !ends then .error .property else .ok (String.ofList name, after)

/-! ## Text of tags -/

/-- A character of a tag besides those of names; the flow indicators may stand in verbatim tags
and in what handles stand for. -/
def isTagPunctuation (flowToo : Bool) (c : Char) : Bool :=
  ";/?:@&=+$.%!~*'()".toList.contains c || (flowToo && ",[]".toList.contains c)

/-- The number of octets that a leading octet announces. -/
def octetCount? (octet : Nat) : Option Nat :=
  if octet < 0x80 then some 1
  else if 0xC0 ≤ octet ∧ octet < 0xE0 then some 2
  else if 0xE0 ≤ octet ∧ octet < 0xF0 then some 3
  else if 0xF0 ≤ octet ∧ octet < 0xF8 then some 4
  else none

/-- Reads one escaped octet: a percent sign and two digits. -/
def readOctet : List Char → Option (Nat × List Char)
  | '%' :: a :: b :: rest =>
    match Text.hexValue? a, Text.hexValue? b with
    | some a, some b => some (a * 16 + b, rest)
    | _, _ => none
  | _ => none

/-- Reads the octets that continue a character. -/
def readTrailing : Nat → List Char → Option (List Nat × List Char)
  | 0, text => some ([], text)
  | count + 1, text =>
    match readOctet text with
    | some (octet, rest) =>
      if 0x80 ≤ octet ∧ octet < 0xC0 then
        (readTrailing count rest).map fun (octets, rest) => (octet :: octets, rest)
      else none
    | none => none

/-- Reads the octets of an escaped character; only their number is checked, not that there is
such a character. -/
def readEscapedChar (text : List Char) : Option (List Nat × List Char) :=
  match readOctet text with
  | some (octet, rest) =>
    match octetCount? octet with
    | some count =>
      (readTrailing (count - 1) rest).map fun (octets, rest) => (octet :: octets, rest)
    | none => none
  | none => none

/-- Reads the octets of a tag. -/
def readTagText (flowToo : Bool) : Nat → Cursor → Except Fault (List UInt8 × Cursor)
  | 0, cursor => .ok ([], cursor)
  | fuel + 1, cursor =>
    match cursor.rest with
    | [] => .ok ([], cursor)
    | c :: _ =>
      if c = '%' then
        match readEscapedChar cursor.rest with
        | some (octets, _) => do
          let (more, after) ← readTagText flowToo fuel (cursor.skip (3 * octets.length))
          .ok (octets.map UInt8.ofNat ++ more, after)
        | none => .error .property
      else if isNameChar c || isTagPunctuation flowToo c then do
        let (more, after) ← readTagText flowToo fuel (cursor.skip 1)
        .ok (c.toUInt8 :: more, after)
      else .ok ([], cursor)

/-- Reads what may be a handle: an exclamation mark, a name, and perhaps another mark. -/
def readHandle (cursor : Cursor) : Except Fault (List Char × Cursor) :=
  match cursor.rest with
  | '!' :: rest =>
    let name := rest.takeWhile isNameChar
    let after := cursor.skip (1 + name.length)
    match after.rest with
    | '!' :: _ => .ok ('!' :: name ++ ['!'], after.skip 1)
    | _ => .ok ('!' :: name, after)
  | _ => .error .property

/-- The text is a handle with its second mark. -/
def isClosedHandle (text : List Char) : Bool := 2 ≤ text.length && text.getLast? = some '!'

/-! ## Tags -/

/-- Reads a verbatim tag behind `!<`. -/
def readVerbatimTag (fuel : Nat) (cursor : Cursor) : Except Fault (Token × Cursor) := do
  let (text, after) ← readTagText true fuel cursor
  match after.rest with
  | '>' :: _ =>
    if text.isEmpty then .error .property
    else .ok (.tag "" (.ofOctets text), after.skip 1)
  | _ => .error .property

/-- Reads a tag with a handle, or one that belongs to the document alone. -/
def readShorthandTag (fuel : Nat) (cursor : Cursor) : Except Fault (Token × Cursor) := do
  let (handle, after) ← readHandle cursor
  let (text, after) ← readTagText false fuel after
  if isClosedHandle handle then
    if text.isEmpty then .error .property
    else .ok (.tag (String.ofList handle) (.ofOctets text), after)
  else
    let suffix := Tag.ofOctets ((handle.drop 1).map Char.toUInt8 ++ text)
    if suffix.isEmpty then .ok (.tag "" (.ofString "!"), after)
    else .ok (.tag "!" suffix, after)

/-- Reads a tag.  A blank must follow it, or in a flow collection a comma. -/
def readTag (fuel : Nat) (inFlow : Bool) (cursor : Cursor) : Except Fault (Token × Cursor) := do
  let (token, after) ←
    match cursor.rest with
    | '!' :: '<' :: _ => readVerbatimTag fuel (cursor.skip 2)
    | _ => readShorthandTag fuel cursor
  if startsGap after.rest || (inFlow && after.rest.head? = some ',') then .ok (token, after)
  else .error .property

/-! ## Directives -/

/-- Reads a number of a version, of at most nine digits. -/
def readVersionNumber (cursor : Cursor) : Except Fault (Nat × Cursor) :=
  let digits := cursor.rest.takeWhile Char.isDigit
  if digits.isEmpty || 9 < digits.length then .error .directive
  else .ok (Text.valueInBase 10 digits, cursor.skip digits.length)

/-- Reads the value of a version directive. -/
def readVersion (cursor : Cursor) : Except Fault (Token × Cursor) := do
  let (major, after) ← readVersionNumber (cursor.skipWhile isBlank)
  match after.rest with
  | '.' :: _ =>
    let (minor, after) ← readVersionNumber (after.skip 1)
    .ok (.version major minor, after)
  | _ => .error .directive

/-- Reads the value of a tag directive. -/
def readTagDirective (fuel : Nat) (cursor : Cursor) : Except Fault (Token × Cursor) := do
  let (handle, after) ← readHandle (cursor.skipWhile isBlank)
  if !isClosedHandle handle && handle ≠ ['!'] then .error .directive
  else if !(after.rest.head?.map isBlank).getD false then .error .directive
  else
    let (text, after) ← readTagText true fuel (after.skipWhile isBlank)
    if text.isEmpty || !startsGap after.rest then .error .directive
    else .ok (.tagHandle (String.ofList handle) (.ofOctets text), after)

/-- Reads a directive behind its percent sign, with the rest of its line. -/
def readDirective (fuel : Nat) (cursor : Cursor) : Except Fault (Token × Cursor) := do
  let name := String.ofList (cursor.rest.takeWhile isNameChar)
  let after := cursor.skipWhile isNameChar
  if !startsGap after.rest then .error .directive
  else
    let (token, after) ←
      if name = "YAML" then readVersion after
      else if name = "TAG" then readTagDirective fuel after
      else .error .directive
    let after ← after.endLine .directive
    .ok (token, after)

end ApiLint.Yaml
