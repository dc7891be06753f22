import Schemata.Number.Decimal
/-!
Binary floating-point numbers of 64 bits.

A finite number is a sign, a significand below `2 ^ 53` and a power of two. Two rules tie them to
decimals: a decimal is read as the nearest number, and a number is written with the fewest digits
that are read back as it.
-/

namespace Schemata

/-- A floating-point number of 64 bits. -/
inductive Binary64 where
  /-- The number `significand · 2 ^ exponent`, negated if `negative`. -/
  | finite (negative : Bool) (significand : Nat) (exponent : Int)
  | infinite (negative : Bool)
  | nan
deriving DecidableEq, Repr, Inhabited

namespace Binary64

/-- The exponent of the smallest positive number. -/
def leastExponent : Int := -1074

/-- The exponent of the largest finite numbers. -/
def greatestExponent : Int := 971

/-- The nearest integer to a quotient, the even one of two. -/
def roundQuotient (num den : Nat) : Nat :=
  let q := num / den
  let twice := 2 * (num % den)
  if twice < den then q
  else if den < twice then q + 1
  else if q % 2 = 0 then q else q + 1

/-- The two sides of a quotient after division by a power of two. -/
def scaled (num den : Nat) (exponent : Int) : Nat × Nat :=
  if exponent < 0 then (num * Nat.pow 2 exponent.natAbs, den)
  else (num, den * Nat.pow 2 exponent.natAbs)

/-- The exponent of the leading bit of a positive quotient. -/
def leadingBit (num den : Nat) : Int :=
  let guess : Int := (Nat.log2 num : Int) - Nat.log2 den
  let (n, d) := scaled num den guess
  if d ≤ n then guess else guess - 1

/-- The number nearest to a positive quotient. -/
def ofQuotient (negative : Bool) (num den : Nat) : Binary64 :=
  let aim := leadingBit num den - 52
  let exponent := if aim < leastExponent then leastExponent else aim
  let (n, d) := scaled num den exponent
  let m := roundQuotient n d
  let (m, exponent) :=
    if m = Nat.pow 2 53 then (Nat.pow 2 52, exponent + 1) else (m, exponent)
  if greatestExponent < exponent then infinite negative else finite negative m exponent

def ofDecimal (negative : Bool) (coefficient : Nat) (exponent : Int) : Binary64 :=
  let magnitude := exponent + (Decimal.digits coefficient).length
  if coefficient = 0 ∨ magnitude < -400 then finite negative 0 leastExponent
  else if 400 < magnitude then infinite negative
  else if exponent < 0 then ofQuotient negative coefficient (Nat.pow 10 exponent.natAbs)
  else ofQuotient negative (coefficient * Nat.pow 10 exponent.natAbs) 1

def isFinite : Binary64 → Bool
  | finite _ _ _ => true
  | _ => false

/-- Zeros of either sign. -/
def isZero : Binary64 → Bool
  | finite _ significand _ => significand == 0
  | _ => false

/-! ## The shortest decimal -/

/-- The reals that are read as one positive number, in quarters of the unit of its last bit: the
number itself and the two ends of the interval, all over one denominator. -/
structure Interval where
  low : Nat
  value : Nat
  high : Nat
  den : Nat
  /-- Whether the ends belong to the interval. -/
  closed : Bool

/-- The interval of a positive number. Below a power of two the neighbour is half as far away. -/
def interval (significand : Nat) (exponent : Int) : Interval :=
  let narrow := significand = Nat.pow 2 52 ∧ leastExponent < exponent
  let below := if narrow then 1 else 2
  let (factor, den) := scaled 1 1 (2 - exponent)
  { low := (4 * significand - below) * factor
    value := 4 * significand * factor
    high := (4 * significand + 2) * factor
    den := den
    closed := significand % 2 = 0 }

/-- Whether the quotient `num / den` lies in an interval. -/
def Interval.holds (i : Interval) (num den : Nat) : Bool :=
  let n := num * i.den
  if i.closed then i.low * den ≤ n && n ≤ i.high * den
  else i.low * den < n && n < i.high * den

/-- The number of digits before the point, zero or negative for numbers that start after it. -/
def magnitude (i : Interval) : Int :=
  let shifted := i.value * Nat.pow 10 400 / i.den
  (Decimal.digits shifted).length - (400 : Int)

/-- The decimal in the interval that is next to the number on the grid of multiples of
`10 ^ place`, if there is one. -/
def nearestOnGrid (i : Interval) (place : Int) : Option Nat :=
  let up := Nat.pow 10 place.natAbs
  -- the number is `n / d` steps of the grid
  let (n, d) := if place < 0 then (i.value * up, i.den) else (i.value, i.den * up)
  let below := n / d
  let fits (steps : Nat) : Bool :=
    if place < 0 then i.holds steps up else i.holds (steps * up) 1
  match fits below, fits (below + 1) with
  | false, false => none
  | true, false => some below
  | false, true => some (below + 1)
  | true, true =>
    let twice := 2 * (n % d)
    if twice < d ∨ (twice = d ∧ below % 2 = 0) then some below else some (below + 1)

/-- The decimal with the fewest digits in the interval, looking at `count` more grids, each ten
times finer than the one before. -/
def shortestFrom (i : Interval) : Nat → Int → Nat × Int
  | 0, place => ((nearestOnGrid i place).getD 0, place)
  | count + 1, place =>
    match nearestOnGrid i place with
    | some steps => (steps, place)
    | none => shortestFrom i count (place - 1)

/-- Coefficient and exponent of the shortest decimal that is read as a positive number. -/
def shortest (significand : Nat) (exponent : Int) : Nat × Int :=
  let i := interval significand exponent
  let (steps, place) := shortestFrom i 17 (magnitude i - 1)
  Decimal.trim (Decimal.digits steps).length steps place

/-- Positional notation from `1e-4` up to `1e16`, always with a digit after the point, and
scientific notation with at least two digits in the exponent outside. -/
def decimalChars (coefficient : Nat) (exponent : Int) : List Char :=
  let ds := Decimal.digits coefficient
  let first := exponent + ds.length - 1
  if first < -4 ∨ 16 ≤ first then
    let power := Decimal.digits first.natAbs
    Decimal.leading ds ++ 'e' :: (if first < 0 then '-' else '+')
      :: List.replicate (2 - power.length) '0' ++ power
  else if 0 ≤ exponent then ds ++ List.replicate exponent.natAbs '0' ++ ['.', '0']
  else Decimal.pointed ds exponent.natAbs

def chars : Binary64 → List Char
  | finite negative significand exponent =>
    Decimal.sign negative ++
      if significand = 0 then "0.0".toList
      else
        let (c, e) := shortest significand exponent
        decimalChars c e
  | infinite negative => Decimal.sign negative ++ "inf".toList
  | nan => "nan".toList

def text (x : Binary64) : String := String.ofList x.chars

/-- The exact decimal value of a finite number, in the form that only depends on the value. -/
def canonical (negative : Bool) (significand : Nat) (exponent : Int) : Bool × Nat × Int :=
  if exponent < 0 then
    Decimal.canonical negative (significand * Nat.pow 5 exponent.natAbs) exponent
  else Decimal.canonical negative (significand * Nat.pow 2 exponent.natAbs) 0

/-- The integer that a finite number is equal to, if it has no fraction. -/
def toInt? : Binary64 → Option Int
  | finite negative significand exponent =>
    let signed (m : Nat) : Int := if negative then -(m : Int) else m
    if 0 ≤ exponent then some (signed (significand * Nat.pow 2 exponent.natAbs))
    else
      let unit := Nat.pow 2 exponent.natAbs
      if significand % unit = 0 then some (signed (significand / unit)) else none
  | _ => none

end Binary64

end Schemata
