import ApiLint.Number.Word
set_option autoImplicit false

/-!
# Binary64: the 64-bit floating-point numbers of documents

A document number that is not an integer is a binary64 value.  This module keeps
such a value as its 64-bit word and gives the arithmetic that reading numbers
needs: rounding a quotient of naturals to the nearest value, and the product and
quotient of two values.  All of it is exact integer arithmetic on the fields of
the word, so every closed instance can be evaluated.
-/

namespace ApiLint

/-- A binary64 value, held as its word: sign bit, 11 exponent bits, 52 fraction bits. -/
structure Binary64 where
  bits : UInt64
  deriving DecidableEq, Repr, Inhabited

namespace Binary64

/-! ## Fields of the word -/

/-- The word with only the sign bit set, which is the number of magnitudes. -/
def signBit : Nat := Word.signedLimit

/-- The number of fractions: two to the power 52. -/
def fractions : Nat := 0x10000000000000

/-- The sign bit. -/
def isNegative (x : Binary64) : Bool := signBit ≤ x.bits.toNat

/-- The word without its sign bit. -/
def magnitudeBits (x : Binary64) : Nat := x.bits.toNat % signBit

/-- The word of positive infinity; finite magnitudes have smaller words. -/
def infinityBits : Nat := 2047 * fractions

/-- Neither infinite nor not-a-number. -/
def isFinite (x : Binary64) : Bool := x.magnitudeBits < infinityBits

/-- Not a number: the exponent field is full and the fraction is not zero. -/
def isNaN (x : Binary64) : Bool := infinityBits < x.magnitudeBits

/-- Positive or negative zero. -/
def isZero (x : Binary64) : Bool := x.magnitudeBits == 0

/-- The value with the given sign and magnitude word. -/
def ofMagnitude (negative : Bool) (magnitude : Nat) : Binary64 :=
  ⟨UInt64.ofNat (magnitude + if negative then signBit else 0)⟩

/-- Infinity with the given sign. -/
def infinity (negative : Bool) : Binary64 := ofMagnitude negative infinityBits

/-- The canonical not-a-number value. -/
def nan : Binary64 := ofMagnitude false (infinityBits + fractions / 2)

/-- The value with the sign turned. -/
def neg (x : Binary64) : Binary64 := ofMagnitude (!x.isNegative) x.magnitudeBits

/-- The integer significand `m` of a finite value, whose magnitude is `m * 2 ^ exponent`. -/
def significand (x : Binary64) : Nat :=
  let field := x.magnitudeBits / fractions
  let fraction := x.magnitudeBits % fractions
  if field = 0 then fraction else fractions + fraction

/-- The exponent that belongs to `significand`. -/
def exponent (x : Binary64) : Int :=
  let field : Nat := x.magnitudeBits / fractions
  if field = 0 then -1074 else (field : Int) - 1075

/-- Numeric equality: both zeros are one number, and not-a-number equals nothing. -/
def sameValue (x y : Binary64) : Bool :=
  !x.isNaN && !y.isNaN && ((x.isZero && y.isZero) || x.bits == y.bits)

/-! ## Rounding -/

/-- The power `2 ^ e` as a numerator and a denominator. -/
def powerOfTwo (e : Int) : Nat × Nat := (Nat.pow 2 e.toNat, Nat.pow 2 (-e).toNat)

/-- The integer nearest to `num / den`; a tie goes to the even one. -/
def roundHalfEven (num den : Nat) : Nat :=
  let q := num / den
  let twice := 2 * (num % den)
  if twice < den then q
  else if den < twice then q + 1
  else if q % 2 = 0 then q else q + 1

/-- The exponent of the last place of the value nearest to `num / den`: the one that
leaves 53 significant bits, but never below the exponent of the subnormal values. -/
def lastPlace (num den : Nat) : Int :=
  let guess := max ((Nat.log2 num : Int) - (Nat.log2 den : Int) - 53) (-1074)
  let (up, down) := powerOfTwo guess
  if num * down / (den * up) < 2 * fractions then guess else guess + 1

/-- The value nearest to the quotient `num / den` of naturals, with a sign.  Ties go to
the even significand; what is too large becomes infinite.

The word of a magnitude `q * 2 ^ e` with last place `e` is `(e + 1074) * fractions + q`:
below `q = fractions` that is a subnormal word, and a `q` that rounding raised to twice as
much carries into the exponent field. -/
def ofRatio (negative : Bool) (num den : Nat) : Binary64 :=
  if num = 0 then ofMagnitude negative 0
  else
    let e := lastPlace num den
    let (up, down) := powerOfTwo e
    let q := roundHalfEven (num * down) (den * up)
    ofMagnitude negative (min ((e + 1074).toNat * fractions + q) infinityBits)

/-- The value nearest to a natural. -/
def ofNat (n : Nat) : Binary64 := ofRatio false n 1

/-- The value nearest to `digits * 10 ^ e`.  Exponents so large or so small that the result
is decided by them alone are cut off first, so no huge power is formed. -/
def ofDecimal (negative : Bool) (digits : Nat) (e : Int) : Binary64 :=
  let places := (Nat.log2 digits : Int) / 4
  if digits = 0 then ofMagnitude negative 0
  else if 330 < places + e then infinity negative
  else if 2 * (Nat.log2 digits : Int) + e < -400 then ofMagnitude negative 0
  else ofRatio negative (digits * Nat.pow 10 e.toNat) (Nat.pow 10 (-e).toNat)

/-! ## Product and quotient of finite values -/

/-- The exact magnitude of a finite value as a numerator and a denominator. -/
def ratio (x : Binary64) : Nat × Nat :=
  let (up, down) := powerOfTwo x.exponent
  (x.significand * up, down)

/-- The rounded product of two finite values. -/
def mul (x y : Binary64) : Binary64 :=
  ofRatio (x.isNegative != y.isNegative) (x.ratio.1 * y.ratio.1) (x.ratio.2 * y.ratio.2)

/-- The rounded quotient of two finite values, the second not zero. -/
def div (x y : Binary64) : Binary64 :=
  ofRatio (x.isNegative != y.isNegative) (x.ratio.1 * y.ratio.2) (x.ratio.2 * y.ratio.1)

/-! ## Lemmas -/

@[simp] theorem isZero_ofRatio_zero (negative : Bool) (den : Nat) :
    (ofRatio negative 0 den).isZero = true := by
  rw [ofRatio, if_pos rfl]
  cases negative <;> decide

theorem sameValue_comm (x y : Binary64) : x.sameValue y = y.sameValue x := by
  rw [sameValue, sameValue, BEq.comm, Bool.and_comm (!x.isNaN), Bool.and_comm x.isZero]

end Binary64

end ApiLint
