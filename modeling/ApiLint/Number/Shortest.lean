import ApiLint.Number.Binary64
set_option autoImplicit false

/-!
# Shortest decimal text of a binary64 value

A finite value is written with the fewest digits that read back to it, and among
those with the digits nearest to it.  The choice of the digits is exact integer
arithmetic on the interval of reals that round to the value; the layout is a
second step: positional notation while the decimal point falls within the
digits or close to them, an exponent otherwise.
-/

namespace ApiLint

/-- A positive decimal `digits * 10 ^ exponent`. -/
structure Decimal where
  digits : Nat
  exponent : Int
  deriving DecidableEq, Repr, Inhabited

namespace Binary64

/-! ## Selecting the digits -/

/-- The magnitude of a value and the ends of its rounding interval, over one denominator. -/
structure Interval where
  low : Nat
  value : Nat
  high : Nat
  den : Nat
  /-- the ends themselves round to the value -/
  closed : Bool
  deriving Repr

/-- The reals that round to a finite value reach half a place up and down; below a power of
two the lower neighbour is only half as far away. -/
def interval (x : Binary64) : Interval :=
  let m := x.significand
  let (up, down) := powerOfTwo x.exponent
  let below := if m = fractions ∧ -1074 < x.exponent then 1 else 2
  { low := (4 * m - below) * up, value := 4 * m * up, high := (4 * m + 2) * up,
    den := 4 * down, closed := m % 2 = 0 }

/-- `num / den` lies in the interval. -/
def Interval.contains (i : Interval) (num den : Nat) : Bool :=
  let point := num * i.den
  let low := i.low * den
  let high := i.high * den
  if i.closed then low ≤ point && point ≤ high else low < point && point < high

/-- The least `k` with `num / den < 10 ^ k`, searched upward from `-340`. -/
def decimalMagnitude (num den : Nat) : Nat → Int → Int
  | 0, k => k
  | fuel + 1, k =>
    if num * Nat.pow 10 (-k).toNat < den * Nat.pow 10 k.toNat then k
    else decimalMagnitude num den fuel (k + 1)

/-- The candidate with spacing `10 ^ e`: of the two grid neighbours of the value, those in
the interval; of two, the nearer, and on a tie the even one. -/
def gridCandidate (i : Interval) (e : Int) : Option Nat :=
  let up := Nat.pow 10 e.toNat
  let down := Nat.pow 10 (-e).toNat
  let floor := i.value * down / (i.den * up)
  let lowIn := 0 < floor && i.contains (floor * up) down
  let highIn := i.contains ((floor + 1) * up) down
  match lowIn, highIn with
  | true, false => some floor
  | false, true => some (floor + 1)
  | false, false => none
  | true, true => some (roundHalfEven (i.value * down) (i.den * up))

/-- The first grid, from coarse to fine, with a candidate. -/
def coarsest (i : Interval) (magnitude : Int) : List Nat → Option Decimal
  | [] => none
  | n :: rest =>
    match gridCandidate i (magnitude - n) with
    | some d => some ⟨d, magnitude - n⟩
    | none => coarsest i magnitude rest

/-- Moves trailing zeros of the digits into the exponent. -/
def stripZeros : Nat → Decimal → Decimal
  | 0, d => d
  | fuel + 1, d =>
    if d.digits ≠ 0 ∧ d.digits % 10 = 0 then stripZeros fuel ⟨d.digits / 10, d.exponent + 1⟩ else d

/-- The shortest decimal that reads back to a finite value other than zero. -/
def shortest (x : Binary64) : Decimal :=
  let i := x.interval
  let magnitude := decimalMagnitude i.value i.den 700 (-340)
  stripZeros 20 ((coarsest i magnitude (List.range' 1 17)).getD ⟨0, 0⟩)

end Binary64

/-! ## Layout -/

namespace Decimal

/-- Positional notation is kept for numbers below `10 ^ 16`. -/
def positionalLimit : Int := 16

/-- Positional notation is kept for at most this many zeros after the point. -/
def leadingZeroLimit : Int := 4

/-- The decimal digits of a natural, most significant first. -/
def digitChars (n : Nat) : List Char := Nat.toDigits 10 n

/-- The text of a decimal: positional with a point, or one digit before the point and an
exponent without sign or padding when positive. -/
def layout (d : Decimal) : List Char :=
  let ds := digitChars d.digits
  let point : Int := ds.length + d.exponent
  if 0 ≤ d.exponent ∧ point ≤ positionalLimit then
    ds ++ List.replicate d.exponent.toNat '0' ++ ['.', '0']
  else if 0 < point ∧ point ≤ positionalLimit then
    ds.take point.toNat ++ '.' :: ds.drop point.toNat
  else if -leadingZeroLimit - 1 < point ∧ point ≤ 0 then
    '0' :: '.' :: (List.replicate (-point).toNat '0' ++ ds)
  else
    let e := point - 1
    let exponentText := (if e < 0 then ['-'] else []) ++ digitChars e.natAbs
    match ds with
    | [d] => d :: 'e' :: exponentText
    | d :: rest => d :: '.' :: (rest ++ 'e' :: exponentText)
    | [] => []

end Decimal

/-- The text of a value: `0.0` and `-0.0` for the zeros, `.nan`, `.inf` and `-.inf` for what
is not finite, and the shortest decimal otherwise. -/
def Binary64.text (x : Binary64) : String :=
  let sign := if x.isNegative then ['-'] else []
  if x.isNaN then ".nan"
  else if !x.isFinite then String.ofList (sign ++ ['.', 'i', 'n', 'f'])
  else if x.isZero then String.ofList (sign ++ ['0', '.', '0'])
  else String.ofList (sign ++ x.shortest.layout)

end ApiLint
