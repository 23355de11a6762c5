import ApiLint.Toml.Date
set_option autoImplicit false

/-!
# Numbers of TOML

Integers fit 64 bits with a sign and may be written in base 10, 16, 8 or 2.  Digits
may be grouped by single underscores.  A date is told from a number by how it begins.
-/

namespace ApiLint.Toml

/-! ## Digits -/

/-- Digits with single underscores between them; the underscores are dropped. -/
def readGrouped (isDigit : Char → Bool) : List Char → List Char → Except Fault (List Char × List Char)
  | done, '_' :: c :: rest =>
    if isDigit c then readGrouped isDigit (c :: done) rest else .error .unexpected
  | _, ['_'] => .error .unexpected
  | done, c :: rest =>
    if isDigit c then readGrouped isDigit (c :: done) rest else .ok (done.reverse, c :: rest)
  | done, [] => .ok (done.reverse, [])

/-- At least one digit, grouped. -/
def readDigits (isDigit : Char → Bool) : Step (List Char)
  | [] => .error .unexpected
  | c :: rest => if isDigit c then readGrouped isDigit [c] rest else .error .unexpected

/-- The digits of a decimal integer: a zero alone, or digits that do not begin with one. -/
def readDecimal : Step (List Char)
  | '0' :: rest => .ok (['0'], rest)
  | text => readDigits Char.isDigit text

/-- Takes a sign off the front of a text. -/
def takeSign : List Char → Bool × List Char
  | '+' :: rest => (false, rest)
  | '-' :: rest => (true, rest)
  | text => (false, text)

/-! ## Integers and floats -/

/-- An integer that fits 64 bits. -/
def integerOf (negative : Bool) (n : Nat) : Except Fault Value :=
  if negative then
    if n ≤ Word.signedLimit then .ok (.integer (-(n : Int))) else .error .outOfRange
  else if n < Word.signedLimit then .ok (.integer n) else .error .outOfRange

/-- An integer in a base other than ten, behind the mark of the base. -/
def readBased (base : Nat) (isDigit : Char → Bool) : Step Value := fun text => do
  let (digits, rest) ← readDigits isDigit text
  let value ← integerOf false (Text.valueInBase base digits)
  .ok (value, rest)

/-- The exponent of a float behind its mark. -/
def readExponent : Step Int := fun text => do
  let (negative, text) := takeSign text
  let (digits, rest) ← readDigits Char.isDigit text
  let n : Int := Text.valueInBase 10 digits
  .ok (if negative then -n else n, rest)

/-- A float from its digits; one too large is refused unless it is negative. -/
def floatOf (negative : Bool) (whole fraction : List Char) (e : Int) : Except Fault Value :=
  let x := Binary64.ofDecimal negative (Text.valueInBase 10 (whole ++ fraction)) (e - fraction.length)
  if x = Binary64.infinity false then .error .outOfRange else .ok (.float x)

/-- A decimal integer or a float, behind its sign. -/
def readUnsigned (negative : Bool) : Step Value := fun text => do
  let (whole, rest) ← readDecimal text
  match rest with
  | '.' :: rest =>
    let (fraction, rest) ← readDigits Char.isDigit rest
    match rest with
    | c :: behind =>
      if c = 'e' ∨ c = 'E' then
        let (e, rest) ← readExponent behind
        let value ← floatOf negative whole fraction e
        .ok (value, rest)
      else
        let value ← floatOf negative whole fraction 0
        .ok (value, c :: behind)
    | [] =>
      let value ← floatOf negative whole fraction 0
      .ok (value, [])
  | c :: behind =>
    if c = 'e' ∨ c = 'E' then
      let (e, rest) ← readExponent behind
      let value ← floatOf negative whole [] e
      .ok (value, rest)
    else
      let value ← integerOf negative (Text.valueInBase 10 whole)
      .ok (value, c :: behind)
  | [] =>
    let value ← integerOf negative (Text.valueInBase 10 whole)
    .ok (value, [])

/-- A number that is no date. -/
def readPlainNumber : Step Value
  | '0' :: 'x' :: rest => readBased 16 Text.isHexDigit rest
  | '0' :: 'o' :: rest => readBased 8 (fun c => '0' ≤ c && c ≤ '7') rest
  | '0' :: 'b' :: rest => readBased 2 (fun c => c == '0' || c == '1') rest
  | text =>
    let (negative, text) := takeSign text
    match text with
    | 'i' :: 'n' :: 'f' :: rest => .ok (.float (Binary64.infinity negative), rest)
    | 'n' :: 'a' :: 'n' :: rest => .ok (.float Binary64.nan, rest)
    | _ => readUnsigned negative text

/-! ## Numbers, dates and times -/

/-- The value of a date or time: the text up to the rest. -/
def datetimeOf (text rest : List Char) : Value :=
  .datetime (String.ofList (text.take (text.length - rest.length)))

/-- A number, date or time. -/
def readNumber : Step Value := fun text =>
  if startsDate text then do
    let rest ← skipDateTime .written text
    .ok (datetimeOf text rest, rest)
  else if startsTime text then do
    let rest ← skipTime .written text
    .ok (datetimeOf text rest, rest)
  else readPlainNumber text

end ApiLint.Toml
