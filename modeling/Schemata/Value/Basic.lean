import Schemata.Number.Binary64
/-!
Dynamic values.

A description arrives as a value of no fixed shape: null, booleans, unbounded integers,
floating-point numbers, exact decimals, strings, byte strings, two kinds of sequences, and maps
whose entries keep their order. A key of a map may be any value; lookups ask for string keys only.
-/

namespace Schemata

/-- A value of any shape. -/
inductive Value where
  | null
  | bool (b : Bool)
  | int (n : Int)
  | float (x : Binary64)
  | decimal (d : Decimal)
  | str (s : String)
  | bytes (content : List UInt8)
  | list (items : List Value)
  | tuple (items : List Value)
  | map (entries : List (Value × Value))
deriving Repr, Inhabited

/-- The entries of a map, in order. -/
abbrev Entries := List (Value × Value)

namespace Value

/-- What a value is called in a message. -/
def kindName : Value → String
  | null => "NoneType"
  | bool _ => "bool"
  | int _ => "int"
  | float _ => "float"
  | decimal _ => "Decimal"
  | str _ => "str"
  | bytes _ => "bytes"
  | list _ => "list"
  | tuple _ => "tuple"
  | map _ => "dict"

/-- Null, false, zeros and everything empty count as false. -/
def truthy : Value → Bool
  | null => false
  | bool b => b
  | int n => n != 0
  | float x => !x.isZero
  | decimal d => !d.isZero
  | str s => s != ""
  | bytes content => !content.isEmpty
  | list items => !items.isEmpty
  | tuple items => !items.isEmpty
  | map entries => !entries.isEmpty

def items? : Value → Option (List Value)
  | list items => some items
  | tuple items => some items
  | _ => none

def entries? : Value → Option Entries
  | map entries => some entries
  | _ => none

def text? : Value → Option String
  | str s => some s
  | _ => none

def isNull : Value → Bool
  | null => true
  | _ => false

def isText (name : String) : Value → Bool
  | str s => s == name
  | _ => false

/-- Integers, floating-point numbers and decimals; booleans are no numbers. -/
def isNumber : Value → Bool
  | int _ => true
  | float _ => true
  | decimal _ => true
  | _ => false

/-- Everything except infinities and the values that are no number. -/
def isFinite : Value → Bool
  | float x => x.isFinite
  | decimal d => d.isFinite
  | _ => true

mutual
/-- Whether an integer somewhere in a value, be it in a key, has more digits than are turned into
text. -/
def hasLongInteger : Value → Bool
  | int n => Decimal.isLong n
  | list items => haveLongInteger items
  | tuple items => haveLongInteger items
  | map entries => holdLongInteger entries
  | _ => false
def haveLongInteger : List Value → Bool
  | [] => false
  | item :: rest => hasLongInteger item || haveLongInteger rest
def holdLongInteger : List (Value × Value) → Bool
  | [] => false
  | (key, value) :: rest => hasLongInteger key || hasLongInteger value || holdLongInteger rest
end

end Value

namespace Entries

def get? (entries : Entries) (name : String) : Option Value :=
  match entries with
  | [] => none
  | (key, value) :: rest => if key.isText name then some value else get? rest name

/-- The value under a string key, null if there is none. -/
def field (entries : Entries) (name : String) : Value := (get? entries name).getD .null

def has (entries : Entries) (name : String) : Bool := (get? entries name).isSome

end Entries

end Schemata
