set_option autoImplicit false

/-!
# Digits

Digits of bases up to sixteen, and the naturals that they write.
-/

namespace ApiLint.Text

/-- A hexadecimal digit. -/
def isHexDigit (c : Char) : Bool :=
  c.isDigit || ('a' ≤ c && c ≤ 'f') || ('A' ≤ c && c ≤ 'F')

/-- The value of a hexadecimal digit. -/
def hexValue (c : Char) : Nat :=
  if c.isDigit then c.toNat - '0'.toNat
  else if 'a' ≤ c ∧ c ≤ 'f' then c.toNat - 'a'.toNat + 10
  else c.toNat - 'A'.toNat + 10

/-- The value of a character that is a hexadecimal digit. -/
def hexValue? (c : Char) : Option Nat := if isHexDigit c then some (hexValue c) else none

/-- The natural that a list of digits writes in a base. -/
def valueInBase (base : Nat) (digits : List Char) : Nat :=
  digits.foldl (fun n c => n * base + hexValue c) 0

/-- The character is a digit of a base. -/
def isDigitOfBase (base : Nat) (c : Char) : Bool := isHexDigit c && hexValue c < base

end ApiLint.Text
