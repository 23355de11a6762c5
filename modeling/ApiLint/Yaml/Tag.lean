set_option autoImplicit false

/-!
# Tags of nodes

A tag is a row of octets.  Escapes can give any octets that look like characters, so a tag
need not be a text.  A null octet ends a tag, whatever is written behind it.
-/

namespace ApiLint.Yaml

/-- A tag. -/
structure Tag where
  octets : List UInt8
  deriving DecidableEq, Repr, Inhabited

namespace Tag

/-- The tag that some octets write. -/
def ofOctets (octets : List UInt8) : Tag := ⟨octets.takeWhile (· ≠ 0)⟩

/-- The tag that a text writes. -/
def ofString (text : String) : Tag := ofOctets (text.toList.flatMap String.utf8EncodeChar)

/-- The tag has no octets. -/
def isEmpty (tag : Tag) : Bool := tag.octets.isEmpty

/-- A tag behind the start that its handle stands for. -/
def append (start suffix : Tag) : Tag := ⟨start.octets ++ suffix.octets⟩

/-- The exclamation mark that the document's own tags begin with. -/
def mark : UInt8 := 33

/-- A tag of the document's own. -/
def isLocal (tag : Tag) : Bool := tag.octets.head? = some mark

/-- The octets without an exclamation mark in front, unless there is nothing else. -/
def dropMark : List UInt8 → List UInt8
  | octet :: next :: rest => if octet = mark then next :: rest else octet :: next :: rest
  | octets => octets

/-- The name of a tag of the document's own.  Up to two marks in front do not count, and a tag
that is no text has no name. -/
def localName? (tag : Tag) : Option String :=
  if tag.isLocal then String.fromUTF8? ⟨(dropMark (dropMark tag.octets)).toArray⟩ else none

/-! ## Tags of the core types -/

/-- The start of the tags of the core types. -/
def coreStart : Tag := ofString "tag:yaml.org,2002:"

/-- The tag of a core type. -/
def core (type : String) : Tag := coreStart.append (ofString type)

/-! ## Lemmas -/

theorem zero_notMem_ofOctets (octets : List UInt8) : 0 ∉ (ofOctets octets).octets := by
  intro h
  have every : (octets.takeWhile (· ≠ 0)).all (· ≠ 0) = true := List.all_takeWhile
  simpa using List.all_eq_true.mp every 0 h

end Tag

end ApiLint.Yaml
