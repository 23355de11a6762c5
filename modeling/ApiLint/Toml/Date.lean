import ApiLint.Text.Digits
import ApiLint.Toml.Value
set_option autoImplicit false

/-!
# Dates and times of TOML

Dates are those of the calendar, and a time has hours, minutes and seconds.  A date, a
time, or a date with a time is one value; only the last may have an offset.
-/

namespace ApiLint.Toml

/-! ## Dates -/

/-- A natural of a fixed number of digits, within bounds. -/
def readField (places low high : Nat) : Step Nat := fun text =>
  let digits := text.take places
  let n := Text.valueInBase 10 digits
  if digits.length ≠ places ∨ !digits.all Char.isDigit then .error .unexpected
  else if low ≤ n ∧ n ≤ high then .ok (n, text.drop places)
  else .error .outOfRange

/-- Takes one fixed character off the front of a text. -/
def expect (c : Char) (text : List Char) : Except Fault (List Char) :=
  match text with
  | d :: rest => if d = c then .ok rest else .error .unexpected
  | [] => .error .unexpected

/-- A leap year of the calendar. -/
def isLeapYear (year : Nat) : Bool := year % 4 == 0 && (year % 100 != 0 || year % 400 == 0)

/-- The length of a month. -/
def daysIn (year month : Nat) : Nat :=
  if month = 2 then if isLeapYear year then 29 else 28
  else if month = 4 ∨ month = 6 ∨ month = 9 ∨ month = 11 then 30
  else 31

/-- Checks a date and returns what follows it. -/
def skipDate (text : List Char) : Except Fault (List Char) := do
  let (year, rest) ← readField 4 0 9999 text
  let rest ← expect '-' rest
  let (month, rest) ← readField 2 1 12 rest
  let rest ← expect '-' rest
  let (_, rest) ← readField 2 1 (daysIn year month) rest
  .ok rest

/-! ## Times -/

/-- What a clock may show. -/
structure Clock where
  lastHour : Nat
  /-- an offset of so many hours and minutes is one -/
  isOffset : Nat → Nat → Bool

/-- The clock of dates that stand in a file. -/
def Clock.written : Clock := ⟨23, fun hours minutes => hours ≤ 23 && minutes ≤ 59⟩

/-- The clock of dates that strings hold: it knows the hour 24, and an offset is a day at most,
however its hours and minutes make it up. -/
def Clock.quoted : Clock := ⟨24, fun hours minutes => hours * 60 + minutes ≤ 24 * 60⟩

/-- Checks a time and returns what follows it. -/
def skipTime (clock : Clock) (text : List Char) : Except Fault (List Char) := do
  let (_, rest) ← readField 2 0 clock.lastHour text
  let rest ← expect ':' rest
  let (_, rest) ← readField 2 0 59 rest
  let rest ← expect ':' rest
  let (_, rest) ← readField 2 0 60 rest
  match rest with
  | '.' :: c :: behind =>
    if c.isDigit then .ok (behind.dropWhile Char.isDigit) else .ok rest
  | _ => .ok rest

/-- Checks the offset of a time, if there is one, and returns what follows it. -/
def skipOffset (clock : Clock) (text : List Char) : Except Fault (List Char) :=
  match text with
  | 'Z' :: rest => .ok rest
  | 'z' :: rest => .ok rest
  | c :: rest =>
    if c = '+' ∨ c = '-' then do
      let (hours, rest) ← readField 2 0 99 rest
      let rest ← expect ':' rest
      let (minutes, rest) ← readField 2 0 99 rest
      if clock.isOffset hours minutes then .ok rest else .error .outOfRange
    else .ok text
  | [] => .ok []

/-! ## Texts of dates and times -/

/-- A text that begins like a time: two digits and a colon. -/
def startsTime : List Char → Bool
  | a :: b :: ':' :: _ => a.isDigit && b.isDigit
  | _ => false

/-- A text that begins like a date: four digits and a hyphen. -/
def startsDate : List Char → Bool
  | a :: b :: c :: d :: '-' :: _ => a.isDigit && b.isDigit && c.isDigit && d.isDigit
  | _ => false

/-- Checks a date, with a time behind it if one follows, and returns the rest. -/
def skipDateTime (clock : Clock) (text : List Char) : Except Fault (List Char) := do
  let rest ← skipDate text
  match rest with
  | c :: behind =>
    if (c = 'T' ∨ c = 't' ∨ c = ' ') ∧ startsTime behind then
      let rest ← skipTime clock behind
      skipOffset clock rest
    else .ok rest
  | [] => .ok []

/-- A text is a date or a time, with nothing behind it. -/
def isDateText (text : String) : Bool :=
  let chars := text.toList
  let rest :=
    if startsTime chars then skipTime .quoted chars else skipDateTime .quoted chars
  match rest with
  | .ok [] => true
  | _ => false

end ApiLint.Toml
