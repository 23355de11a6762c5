import ApiLint.Text.Digits
import ApiLint.Yaml.Cursor
import ApiLint.Yaml.Tag
import ApiLint.Yaml.Tree
set_option autoImplicit false

/-!
# The values of scalars

A plain scalar without a tag is null, a boolean, a number or a string, as it looks.
Digits behind a leading zero are no number.  A tag of the core types demands the type; a
tag of the document's own changes nothing in how a plain scalar is read.
-/

namespace ApiLint.Yaml.Scalar

/-! ## Null and booleans -/

/-- The words for null. -/
def isNullWord (text : String) : Bool := ["null", "Null", "NULL", "~"].contains text

/-- The boolean that a word stands for. -/
def bool? (text : String) : Option Bool :=
  if ["true", "True", "TRUE"].contains text then some true
  else if ["false", "False", "FALSE"].contains text then some false
  else none

/-! ## Integers -/

/-- The natural that some digits of a base write. -/
def natural? (base : Nat) (digits : List Char) : Option Nat :=
  if !digits.isEmpty && digits.all (Text.isDigitOfBase base) then
    some (Text.valueInBase base digits)
  else none

/-- A sign. -/
def isSign (c : Char) : Bool := c = '+' || c = '-'

/-- The text without a sign in front. -/
def dropSign : List Char → List Char
  | c :: rest => if isSign c then rest else c :: rest
  | [] => []

/-- A sign or none, a zero, and then nothing but digits. -/
def isPaddedDigits (text : List Char) : Bool :=
  match dropSign text with
  | '0' :: c :: rest => (c :: rest).all Char.isDigit
  | _ => false

/-- The magnitude of a number without sign: with the marker of a base, or else decimal. -/
def magnitude? (isPadded : Bool) (text : List Char) : Option Nat :=
  let based :=
    match text with
    | '0' :: 'x' :: digits => natural? 16 digits
    | '0' :: 'o' :: digits => natural? 8 digits
    | '0' :: 'b' :: digits => natural? 2 digits
    | _ => none
  match based with
  | some n => some n
  | none => if isPadded then none else natural? 10 text

/-- The integer that a text writes, of whatever size. -/
def integer? (text : List Char) : Option Int :=
  match text with
  | '-' :: rest => (magnitude? (isPaddedDigits text) rest).map fun n => -(n : Int)
  | '+' :: rest => (magnitude? (isPaddedDigits text) rest).map fun n => (n : Int)
  | _ => (magnitude? (isPaddedDigits text) text).map fun n => (n : Int)

/-- The integer has a 64-bit form, with or without sign. -/
def fitsWord (n : Int) : Bool := -(Word.signedLimit : Int) ≤ n && n < Word.limit

/-- The integer has a 128-bit form, with or without sign. -/
def fitsDoubleWord (n : Int) : Bool := 
  -(Word.doubleSignedLimit : Int) ≤ n && n < Word.doubleLimit

/-! ## Floats -/

/-- The exponent of a decimal: a marker, a sign or none, and digits. -/
def exponent? : List Char → Option Int
  | [] => some 0
  | c :: rest =>
    if c = 'e' ∨ c = 'E' then
      match rest with
      | '-' :: digits => (natural? 10 digits).map fun n => -(n : Int)
      | '+' :: digits => (natural? 10 digits).map fun n => (n : Int)
      | digits => (natural? 10 digits).map fun n => (n : Int)
    else none

/-- The value of a decimal without sign: digits with a point somewhere or nowhere, and perhaps
an exponent.  It must be finite. -/
def decimal? (negative : Bool) (text : List Char) : Option Binary64 :=
  let whole := text.takeWhile Char.isDigit
  let (fraction, rest) :=
    match text.dropWhile Char.isDigit with
    | '.' :: rest => (rest.takeWhile Char.isDigit, rest.dropWhile Char.isDigit)
    | rest => ([], rest)
  if whole.isEmpty && fraction.isEmpty then none
  else
    match exponent? rest with
    | some e =>
      let digits := Text.valueInBase 10 (whole ++ fraction)
      let x := Binary64.ofDecimal negative digits (e - fraction.length)
      if x.isFinite then some x else none
    | none => none

/-- The words for infinity. -/
def isInfinityWord (text : List Char) : Bool :=
  text = ".inf".toList || text = ".Inf".toList || text = ".INF".toList

/-- The words for what is no number. -/
def isNaNWord (text : List Char) : Bool :=
  text = ".nan".toList || text = ".NaN".toList || text = ".NAN".toList

/-- The float that a text writes. -/
def float? (text : List Char) : Option Binary64 :=
  match text with
  | '+' :: rest => if isInfinityWord rest then some (Binary64.infinity false) else decimal? false rest
  | '-' :: rest => if isInfinityWord rest then some (Binary64.infinity true) else decimal? true rest
  | _ =>
    if isInfinityWord text then some (Binary64.infinity false)
    else if isNaNWord text then some Binary64.nan
    else decimal? false text

/-! ## Values -/

/-- The value of a plain scalar without a tag.  An integer that needs more than 64 bits but not
more than 128 is refused. -/
def plain (text : String) : Except Fault Tree :=
  if text.isEmpty || isNullWord text then .ok .null
  else
    match bool? text with
    | some b => .ok (.bool b)
    | none =>
      let chars := text.toList
      match (integer? chars).filter fitsDoubleWord with
      | some n => if fitsWord n then .ok (.number (.int n)) else .error .value
      | none =>
        match if isPaddedDigits chars then none else float? chars with
        | some x => .ok (.number (.float x))
        | none => .ok (.string text)

/-- The value of a scalar that a core type demands, or an error. -/
def demanded (value : Option Tree) : Except Fault Tree :=
  match value with
  | some tree => .ok tree
  | none => .error .value

/-- The value of a scalar with a tag that is not the document's own. -/
def typed (tag : Tag) (text : String) : Except Fault Tree :=
  let chars := text.toList
  if tag = Tag.core "bool" then demanded ((bool? text).map Tree.bool)
  else if tag = Tag.core "int" then demanded (((integer? chars).filter fitsWord).map fun n => .number (.int n))
  else if tag = Tag.core "float" then demanded ((float? chars).map fun x => .number (.float x))
  else if tag = Tag.core "null" then demanded (if isNullWord text then some .null else none)
  else .ok (.string text)

/-- The value of a scalar.  Below a tag of the document's own, quotes make it a string, and
otherwise it is read as if it had no tag. -/
def value (tag : Option Tag) (isPlain : Bool) (text : String) : Except Fault Tree :=
  match tag with
  | none => if isPlain then plain text else .ok (.string text)
  | some tag =>
    if tag.isLocal then if isPlain then plain text else .ok (.string text)
    else typed tag text

end ApiLint.Yaml.Scalar
