import Schemata.Value.Basic
/-!
Equality of map keys.

Numbers of all kinds are one key when they have the same value, and booleans count as zero and one.
A map has one entry per key: a repeated key keeps its first place and its first spelling, and takes
its last value.
-/

namespace Schemata

/-- The numeric value of a key. -/
inductive KeyNumber where
  | finite (negative : Bool) (coefficient : Nat) (exponent : Int)
  | infinite (negative : Bool)
deriving DecidableEq

namespace KeyNumber

/-- A finite number from the form that only depends on its value. -/
def ofCanonical : Bool × Nat × Int → KeyNumber
  | (negative, coefficient, exponent) => finite negative coefficient exponent

def ofInt (n : Int) : KeyNumber := ofCanonical (Decimal.canonical (n < 0) n.natAbs 0)

end KeyNumber

namespace Value

/-- The number that a value stands for as a key, if any. -/
def keyNumber? : Value → Option KeyNumber
  | bool b => some (KeyNumber.ofInt (if b then 1 else 0))
  | int n => some (KeyNumber.ofInt n)
  | float (.finite negative significand exponent) =>
    some (KeyNumber.ofCanonical (Binary64.canonical negative significand exponent))
  | float (.infinite negative) => some (.infinite negative)
  | decimal (.finite negative coefficient exponent) =>
    some (KeyNumber.ofCanonical (Decimal.canonical negative coefficient exponent))
  | decimal (.infinite negative) => some (.infinite negative)
  | _ => none

mutual
/-- Whether two values are one key. -/
def sameKey : Value → Value → Bool
  | null, null => true
  | str a, str b => a == b
  | bytes a, bytes b => a == b
  | tuple a, tuple b => sameKeys a b
  | a, b =>
    match a.keyNumber?, b.keyNumber? with
    | some m, some n => m == n
    | _, _ => false
/-- Whether two sequences of keys are equal item by item. -/
def sameKeys : List Value → List Value → Bool
  | [], [] => true
  | a :: as, b :: bs => sameKey a b && sameKeys as bs
  | _, _ => false
end

mutual
/-- Whether a value can be a key: no list and no map, on any level. -/
def isKey : Value → Bool
  | list _ => false
  | map _ => false
  | decimal (.nan _ signaling _) => !signaling
  | tuple items => areKeys items
  | _ => true
def areKeys : List Value → Bool
  | [] => true
  | item :: rest => isKey item && areKeys rest
end

end Value

namespace Entries

/-- Sets the value under a key: in place if the key is there, at the end otherwise. -/
def insert : Entries → Value → Value → Entries
  | [], key, value => [(key, value)]
  | (k, v) :: rest, key, value =>
    if k.sameKey key then (k, value) :: rest else (k, v) :: insert rest key value

/-- The entries of a map given as a list of pairs, the later ones set after the earlier ones. -/
def ofPairs (pairs : List (Value × Value)) : Entries :=
  pairs.foldl (fun entries pair => insert entries pair.1 pair.2) []

end Entries

end Schemata
