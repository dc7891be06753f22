/-!
The kinds of schema nodes, and whether the value of a node has to be there.
-/

namespace Schemata

/-- What a schema node describes. -/
inductive Kind where
  | string
  | number
  | boolean
  | date
  | binary
  | object
  | array
  | alternatives
  | any
  | forbidden
deriving DecidableEq, Repr, Inhabited

namespace Kind

def all : List Kind :=
  [string, number, boolean, date, binary, object, array, alternatives, any, forbidden]

def name : Kind → String
  | string => "string"
  | number => "number"
  | boolean => "boolean"
  | date => "date"
  | binary => "binary"
  | object => "object"
  | array => "array"
  | alternatives => "alternatives"
  | any => "any"
  | forbidden => "forbidden"

def ofName? (s : String) : Option Kind := all.find? fun k => k.name == s

/-- Kinds whose values can be listed as literals. -/
def hasLiterals : Kind → Bool
  | string => true
  | number => true
  | boolean => true
  | any => true
  | _ => false

end Kind

/-- Whether a value has to be there, may be missing, or has to be missing. -/
inductive Presence where
  | required
  | optional
  | forbidden
deriving DecidableEq, Repr, Inhabited

namespace Presence

/-- The name of a presence in descriptions, options and messages. -/
def name : Presence → String
  | required => "required"
  | optional => "optional"
  | forbidden => "forbidden"

def ofName? (s : String) : Option Presence :=
  [required, optional, forbidden].find? fun p => p.name == s

end Presence

end Schemata
