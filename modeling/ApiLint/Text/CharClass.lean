import ApiLint.Text.CodeRanges
set_option autoImplicit false

/-!
# Character classes and caseless comparison

The classes of characters that media types, descriptions and option values are
read with.  They are the Unicode classes, not the ASCII ones: a word may hold any
letter, mark or digit, and blank space is any character with the White_Space
property.
-/

namespace ApiLint.Text

/-- The code point lies in one of the ranges. -/
def inRanges (ranges : List CodeRange) (n : Nat) : Bool :=
  ranges.any fun r => r.1 ≤ n && n ≤ r.2

/-- The characters with the White_Space property. -/
def isWhiteSpace (c : Char) : Bool :=
  let n := c.toNat
  (9 ≤ n && n ≤ 13) || n == 0x20 || n == 0x85 || n == 0xA0 || n == 0x1680 ||
    (0x2000 ≤ n && n ≤ 0x200A) || n == 0x2028 || n == 0x2029 || n == 0x202F ||
    n == 0x205F || n == 0x3000

/-- An ASCII letter or digit. -/
def isAsciiAlphanumeric (c : Char) : Bool := c.isAlpha || c.isDigit

/-- A character that can be part of a word. -/
def isWordChar (c : Char) : Bool :=
  if c.toNat < 128 then isAsciiAlphanumeric c || c == '_' else inRanges wordRanges c.toNat

/-- A decimal digit of any script. -/
def isDecimalDigit (c : Char) : Bool :=
  if c.toNat < 128 then c.isDigit else inRanges digitRanges c.toNat

/-! ## Caseless comparison -/

/-- `c` is a case form of the lower case ASCII character `literal`.  Simple case folding
adds two characters beyond ASCII: the long s and the Kelvin sign. -/
def isCaseFormOf (literal c : Char) : Bool :=
  c.toLower == literal || (literal == 's' && c == '\u017f') || (literal == 'k' && c == '\u212a')

/-- Strips a caseless occurrence of `literal` from the front of a text. -/
def dropCaseless : List Char → List Char → Option (List Char)
  | [], text => some text
  | _ :: _, [] => none
  | l :: literal, c :: text => if isCaseFormOf l c then dropCaseless literal text else none

/-- `literal` occurs somewhere in the text, in any case form. -/
def containsCaseless (literal : List Char) : List Char → Bool
  | [] => literal.isEmpty
  | c :: text => (dropCaseless literal (c :: text)).isSome || containsCaseless literal text

/-- Equality of two texts up to the case of ASCII letters. -/
def equalIgnoringAsciiCase (s t : String) : Bool :=
  s.toList.map Char.toLower == t.toList.map Char.toLower

/-- The text with its ASCII letters in lower case. -/
def asciiLower (s : String) : String := String.ofList (s.toList.map Char.toLower)

/-! ## Trimming and splitting -/

/-- The text without blank characters at its ends. -/
def trimList (text : List Char) : List Char :=
  ((text.dropWhile isWhiteSpace).reverse.dropWhile isWhiteSpace).reverse

/-- The string without blank characters at its ends. -/
def trim (s : String) : String := String.ofList (trimList s.toList)

/-- The pieces of a text between separators; a text without separator is one piece. -/
def splitList (separator : Char) : List Char → List (List Char)
  | [] => [[]]
  | c :: rest =>
    if c = separator then [] :: splitList separator rest
    else
      match splitList separator rest with
      | piece :: pieces => (c :: piece) :: pieces
      | [] => [[c]]

/-- The pieces of a string between separators. -/
def split (separator : Char) (s : String) : List String :=
  (splitList separator s.toList).map String.ofList

/-! ## Lemmas -/

theorem dropCaseless_nil (text : List Char) : dropCaseless [] text = some text := by
  cases text <;> rfl

end ApiLint.Text
