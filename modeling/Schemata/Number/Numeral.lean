import Schemata.Number.Decimal
/-!
Decimal numerals: the number tokens of the text format, split into their parts.
-/

namespace Schemata

/-- A numeral: digits, perhaps digits after a point, perhaps an exponent. -/
structure Numeral where
  negative : Bool
  whole : List Char
  fraction : Option (List Char)
  /-- The sign of the exponent, true for minus, and its digits. -/
  exponent : Option (Bool × List Char)
deriving DecidableEq, Repr, Inhabited

namespace Numeral

/-- The longest run of digits at the front, and what follows it. -/
def spanDigits (cs : List Char) : List Char × List Char :=
  (cs.takeWhile Char.isDigit, cs.dropWhile Char.isDigit)

/-- A point with at least one digit after it. -/
def scanFraction : List Char → Option (List Char) × List Char
  | '.' :: rest =>
    match spanDigits rest with
    | ([], _) => (none, '.' :: rest)
    | (ds, rest) => (some ds, rest)
  | cs => (none, cs)

/-- The sign of an exponent and at least one digit. -/
def scanExponentDigits (cs : List Char) : Option ((Bool × List Char) × List Char) :=
  let (negative, cs) := match cs with
    | '-' :: rest => (true, rest)
    | '+' :: rest => (false, rest)
    | cs => (false, cs)
  match spanDigits cs with
  | ([], _) => none
  | (ds, rest) => some ((negative, ds), rest)

/-- The mark of an exponent with a sign and at least one digit after it. -/
def scanExponent : List Char → Option (Bool × List Char) × List Char
  | c :: rest =>
    if c = 'e' ∨ c = 'E' then
      match scanExponentDigits rest with
      | some (e, rest) => (some e, rest)
      | none => (none, c :: rest)
    else (none, c :: rest)
  | [] => (none, [])

/-- A zero, or digits that do not start with a zero. -/
def scanWhole : List Char → Option (List Char × List Char)
  | '0' :: rest => some (['0'], rest)
  | cs =>
    match spanDigits cs with
    | ([], _) => none
    | (ds, rest) => some (ds, rest)

/-- The longest numeral at the front of a text, and what follows it. -/
def scan (cs : List Char) : Option (Numeral × List Char) :=
  let (negative, cs) := match cs with
    | '-' :: rest => (true, rest)
    | cs => (false, cs)
  match scanWhole cs with
  | none => none
  | some (whole, rest) =>
    let (fraction, rest) := scanFraction rest
    let (exponent, rest) := scanExponent rest
    some (⟨negative, whole, fraction, exponent⟩, rest)

/-- A numeral without point and exponent. -/
def isInteger (n : Numeral) : Bool := n.fraction.isNone && n.exponent.isNone

def toInt (n : Numeral) : Int :=
  let m := Decimal.valueOf n.whole
  if n.negative then -(m : Int) else m

/-- All digits of a numeral as one number. -/
def coefficient (n : Numeral) : Nat := Decimal.valueOf (n.whole ++ n.fraction.getD [])

/-- The power of ten that the coefficient is multiplied with. -/
def power (n : Numeral) : Int :=
  let written : Int := match n.exponent with
    | none => 0
    | some (negative, ds) => if negative then -(Decimal.valueOf ds : Int) else Decimal.valueOf ds
  written - (n.fraction.getD []).length

/-- The exact decimal that a numeral stands for, if it is in range. -/
def toDecimal? (n : Numeral) : Option Decimal :=
  if Decimal.inRange n.coefficient n.power then some (.finite n.negative n.coefficient n.power)
  else none

end Numeral

namespace Decimal

/-- A sign in front of a number, true for minus. -/
def scanSign : List Char → Bool × List Char
  | '-' :: rest => (true, rest)
  | '+' :: rest => (false, rest)
  | cs => (false, cs)

/-- The number behind the name of a value that is no number, zero if there are no digits. -/
def payload? (ds : List Char) : Option Nat :=
  if ds.all Char.isDigit then some (valueOf ds) else none

/-- Digits, with a point anywhere among them, and perhaps an exponent. -/
def unsigned? (negative : Bool) (cs : List Char) : Option Decimal :=
  let (whole, rest) := Numeral.spanDigits cs
  let (fraction, rest) := match rest with
    | '.' :: rest => Numeral.spanDigits rest
    | rest => ([], rest)
  let (exponent, rest) := Numeral.scanExponent rest
  if rest.isEmpty && !(whole ++ fraction).isEmpty then
    Numeral.toDecimal? ⟨negative, whole, some fraction, exponent⟩
  else none

/-- The decimal with a given text: a number with or without point and exponent, an infinity, or one
of the values that are no number, in capitals or not. -/
def ofText? (text : String) : Option Decimal :=
  let (negative, cs) := scanSign text.toList
  let name := cs.map Char.toLower
  if name = "inf".toList ∨ name = "infinity".toList then some (infinite negative)
  else if "nan".toList.isPrefixOf name then (payload? (name.drop 3)).map (nan negative false)
  else if "snan".toList.isPrefixOf name then (payload? (name.drop 4)).map (nan negative true)
  else unsigned? negative cs

end Decimal

end Schemata
