/-!
Exact decimal numbers.

A finite decimal keeps its sign, its coefficient and its exponent, so `1.50` and `1.5` are different
decimals with the same value, and minus zero is a decimal of its own. The text of a decimal shows
all digits of the coefficient.
-/

namespace Schemata

/-- A decimal number, or one of the values that stand for no number. -/
inductive Decimal where
  /-- The number `coefficient · 10 ^ exponent`, negated if `negative`. -/
  | finite (negative : Bool) (coefficient : Nat) (exponent : Int)
  | infinite (negative : Bool)
  /-- Not a number; a payload of zero is not written. -/
  | nan (negative signaling : Bool) (payload : Nat)
deriving DecidableEq, Repr, Inhabited

namespace Decimal

/-- The decimal digits of a number, most significant first; zero has one digit. -/
def digits (n : Nat) : List Char := Nat.toDigits 10 n

/-- The value of a list of decimal digits, most significant first. -/
def valueOf (ds : List Char) : Nat := ds.foldl (fun n d => 10 * n + (d.toNat - '0'.toNat)) 0

/-- The digits of an integer behind its sign, which is written for negative numbers only. -/
def intDigits (n : Int) : List Char :=
  if n < 0 then '-' :: digits n.natAbs else digits n.natAbs

/-- The largest number of digits of an integer that is read from a text or turned into one. -/
def digitLimit : Nat := 4300

/-- Whether an integer has more digits than are turned into text. -/
def isLong (n : Int) : Bool := digitLimit < (digits n.natAbs).length

/-- The digits of an integer behind its sign, which is always written. -/
def signedDigits (n : Int) : List Char :=
  (if n < 0 then '-' else '+') :: digits n.natAbs

/-- Digits with a point before the last `places` of them, filled up with zeros on the left. -/
def pointed (ds : List Char) (places : Nat) : List Char :=
  if places = 0 then ds
  else if places < ds.length then
    ds.take (ds.length - places) ++ '.' :: ds.drop (ds.length - places)
  else '0' :: '.' :: List.replicate (places - ds.length) '0' ++ ds

/-- Digits with a point after the first of them, if there are more. -/
def leading : List Char → List Char
  | [] => []
  | [d] => [d]
  | d :: rest => d :: '.' :: rest

/-- A coefficient and an exponent: plain notation as long as no zero has to be added on the right
and at most five stand between the point and the first digit, scientific notation otherwise. -/
def numeral (coefficient : Nat) (exponent : Int) : List Char :=
  let ds := digits coefficient
  let left := exponent + ds.length
  if exponent ≤ 0 ∧ -6 < left then pointed ds exponent.natAbs
  else leading ds ++ 'E' :: signedDigits (left - 1)

def sign (negative : Bool) : List Char := if negative then ['-'] else []

def chars : Decimal → List Char
  | finite negative coefficient exponent => sign negative ++ numeral coefficient exponent
  | infinite negative => sign negative ++ "Infinity".toList
  | nan negative signaling payload =>
    sign negative ++ (if signaling then "sNaN" else "NaN").toList
      ++ (if payload = 0 then [] else digits payload)

def text (d : Decimal) : String := String.ofList d.chars

def isFinite : Decimal → Bool
  | finite _ _ _ => true
  | _ => false

/-- Zeros, of either sign and any exponent. -/
def isZero : Decimal → Bool
  | finite _ coefficient _ => coefficient == 0
  | _ => false

/-- The largest exponent of a leading digit. -/
def greatestExponent : Int := 999999999999999999

/-- The smallest exponent of a last digit. -/
def leastExponent : Int := -1999999999999999997

/-- Whether a coefficient and an exponent stay inside the range of decimals. -/
def inRange (coefficient : Nat) (exponent : Int) : Bool :=
  exponent + (digits coefficient).length - 1 ≤ greatestExponent && leastExponent ≤ exponent

/-- Moves the zeros at the end of a coefficient, as far as `fuel` goes, into the exponent. -/
def trim : Nat → Nat → Int → Nat × Int
  | 0, coefficient, exponent => (coefficient, exponent)
  | fuel + 1, coefficient, exponent =>
    if coefficient % 10 = 0 then trim fuel (coefficient / 10) (exponent + 1)
    else (coefficient, exponent)

/-- The form of a finite decimal that only depends on its value: no sign on zero, and no zero at the
end of the coefficient. -/
def canonical (negative : Bool) (coefficient : Nat) (exponent : Int) : Bool × Nat × Int :=
  if coefficient = 0 then (false, 0, 0)
  else
    let (c, e) := trim (digits coefficient).length coefficient exponent
    (negative, c, e)

end Decimal

end Schemata
