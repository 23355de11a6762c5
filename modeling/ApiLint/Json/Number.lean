import ApiLint.Node
set_option autoImplicit false

/-!
# Numbers of JSON text

A number without fraction and exponent that fits 64 bits, signed or unsigned, is an
integer; every other number is a float.  The float is found in two roundings: the
leading digits that fit 64 bits are kept as a significand, and the significand is
then multiplied or divided by a power of ten.
-/

namespace ApiLint.Json

/-- Why a text is not a JSON value. -/
inductive Fault where
  /-- the text ends inside a value -/
  | unfinished
  /-- a character that cannot stand here -/
  | unexpected
  /-- a control character inside a string -/
  | controlCharacter
  /-- an escape that is not one of JSON, or half of a surrogate pair -/
  | badEscape
  /-- a malformed number -/
  | badNumber
  /-- a number too large for a float -/
  | numberTooLarge
  /-- values nested too deeply -/
  | tooDeep
  /-- text behind the value -/
  | trailing
  deriving DecidableEq, Repr, Inhabited

/-- A reader: takes a value off the front of a text and returns the rest. -/
abbrev Step (α : Type) : Type := List Char → Except Fault (α × List Char)

/-! ## Digits -/

/-- The value of a digit character. -/
def digitValue (c : Char) : Nat := c.toNat - '0'.toNat

/-- Takes the digits at the front of a text. -/
def takeDigits (text : List Char) : List Char × List Char :=
  (text.takeWhile Char.isDigit, text.dropWhile Char.isDigit)

/-- The natural that a list of digits writes. -/
def digitsValue (digits : List Char) : Nat :=
  digits.foldl (fun n c => n * 10 + digitValue c) 0

/-- Appends digits to a significand as long as it fits 64 bits; returns the digits left. -/
def extendSignificand : Nat → List Char → Nat × List Char
  | significand, [] => (significand, [])
  | significand, c :: rest =>
    let next := significand * 10 + digitValue c
    if next < Word.limit then extendSignificand next rest else (significand, c :: rest)

/-! ## The float of a significand and an exponent -/

/-- The greatest power of ten that is a finite float. -/
def greatestPower : Nat := 308

/-- A power of ten as a float. -/
def powerOfTen (e : Nat) : Binary64 := Binary64.ofNat (Nat.pow 10 e)

/-- Scales a float by a power of ten.  A negative exponent beyond `-308` is worked off in
divisions by the greatest power; few of them bring every value to zero. -/
def scale : Nat → Binary64 → Int → Except Fault Binary64
  | 0, value, _ => .ok value
  | fuel + 1, value, e =>
    if e.natAbs ≤ greatestPower then
      if 0 ≤ e then
        let product := value.mul (powerOfTen e.natAbs)
        if product.isFinite then .ok product else .error .numberTooLarge
      else .ok (value.div (powerOfTen e.natAbs))
    else if value.isZero then .ok value
    else if 0 ≤ e then .error .numberTooLarge
    else scale fuel (value.div (powerOfTen greatestPower)) (e + greatestPower)

/-- The float `significand * 10 ^ e` with a sign. -/
def floatOf (negative : Bool) (significand : Nat) (e : Int) : Except Fault Node :=
  match scale 8 (Binary64.ofNat significand) e with
  | .ok value => .ok (.float (if negative then value.neg else value))
  | .error fault => .error fault

/-! ## Reading a number -/

/-- The greatest exponent that is read as a number of its own. -/
def exponentLimit : Nat := 0x80000000

/-- Reads what follows the `e` of an exponent and finishes the float. -/
def readExponent (negative : Bool) (significand : Nat) (e : Int) : Step Node := fun text =>
  let (down, text) : Bool × List Char :=
    match text with
    | '+' :: rest => (false, rest)
    | '-' :: rest => (true, rest)
    | _ => (false, text)
  let (digits, rest) := takeDigits text
  if digits.isEmpty then .error .badNumber
  else
    let shift := digitsValue digits
    if exponentLimit ≤ shift then
      if significand ≠ 0 ∧ !down then .error .numberTooLarge
      else .ok (.float (Binary64.ofMagnitude negative 0), rest)
    else do
      let node ← floatOf negative significand (if down then e - shift else e + shift)
      .ok (node, rest)

/-- Finishes a float whose digits are read. -/
def finishFloat (negative : Bool) (significand : Nat) (e : Int) : Step Node := fun text =>
  match text with
  | 'e' :: rest => readExponent negative significand e rest
  | 'E' :: rest => readExponent negative significand e rest
  | _ => do
    let node ← floatOf negative significand e
    .ok (node, text)

/-- The number without fraction and exponent whose digits all fit. -/
def wholeNumber (negative : Bool) (significand : Nat) : Except Fault Node :=
  if !negative then .ok (.int significand)
  else if 0 < significand ∧ significand ≤ Word.signedLimit then .ok (.int (-(significand : Int)))
  else floatOf true significand 0

/-- Reads a number behind its sign. -/
def readUnsigned (negative : Bool) : Step Node := fun text =>
  let (whole, text) := takeDigits text
  if whole.isEmpty ∨ (whole.length ≠ 1 ∧ whole.head? = some '0') then .error .badNumber
  else
    let (significand, dropped) := extendSignificand 0 whole
    let e : Int := dropped.length
    match text with
    | '.' :: rest =>
      let (fraction, rest) := takeDigits rest
      if fraction.isEmpty then .error .badNumber
      else
        let (significand, unused) := extendSignificand significand fraction
        finishFloat negative significand (e - (fraction.length - unused.length : Nat)) rest
    | 'e' :: _ => finishFloat negative significand e text
    | 'E' :: _ => finishFloat negative significand e text
    | _ =>
      if dropped.isEmpty then do
        let node ← wholeNumber negative significand
        .ok (node, text)
      else finishFloat negative significand e text

/-- Reads a number. -/
def readNumber : Step Node
  | '-' :: rest => readUnsigned true rest
  | text => readUnsigned false text

/-! ## Lemmas -/

theorem takeDigits_append (text : List Char) :
    (takeDigits text).1 ++ (takeDigits text).2 = text := List.takeWhile_append_dropWhile

theorem extendSignificand_lt {significand : Nat} (digits : List Char)
    (h : significand < Word.limit) : (extendSignificand significand digits).1 < Word.limit := by
  induction digits generalizing significand with
  | nil => exact h
  | cons c rest ih =>
    rw [extendSignificand]
    split
    · next hn => exact ih hn
    · exact h

end ApiLint.Json
