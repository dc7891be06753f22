import Schemata.Value.Literal
/-!
Builder code as a tree.

The generated code is a tree of calls, method calls and literals, and only its rendering is text.
How tightly a piece of code binds decides whether it needs parentheses before a method is called on
it.
-/

namespace Schemata

/-- How tightly a piece of code binds, loosest first. -/
inductive Precedence where
  | conditional
  | call
  | atom
deriving DecidableEq, Repr, Inhabited

/-- A piece of a template: a character, or the place of an argument. -/
inductive Piece where
  | char (c : Char)
  | argument (i : Nat)
deriving DecidableEq, Repr, Inhabited

/-- Builder code. -/
inductive Code where
  /-- Text from outside, with its precedence. -/
  | raw (text : String) (precedence : Precedence)
  /-- A name declared elsewhere. -/
  | name (n : String)
  /-- A literal value. -/
  | literal (v : Value)
  /-- A function call. -/
  | call (callee : String) (args : List Code)
  /-- A method call. -/
  | method (target : Code) (name : String) (args : List Code)
  /-- An array, on one line if all its items are. -/
  | array (items : List Code)
  /-- An object with one property a line. -/
  | object (properties : List (String × Code))
  /-- An object on one line. -/
  | record (fields : List (String × Code))
  /-- A predicate that holds for values that are not listed. -/
  | exclusion (values : List Value)
  /-- A template with values in the places of its arguments. -/
  | filled (pieces : List Piece) (args : List Value)
  /-- Whether a test succeeds, or does not. -/
  | success (negated : Bool) (test : Code)
  /-- The first branch whose condition holds, or the last branch. -/
  | choice (cases : List (Code × Code)) (otherwise : Code)
  /-- A statement that checks one property against a schema. -/
  | check (field : String) (schema : Code)
  /-- A function that runs statements on an object, with the helper that they call. -/
  | checks (statements : List Code)
deriving Repr, Inhabited

namespace Code

def precedence : Code → Precedence
  | raw _ p => p
  | name _ => .atom
  | choice _ _ => .conditional
  | _ => .call

structure Call where
  method : String
  args : List Code := []
deriving Repr, Inhabited

def chain (target : Code) (call : Call) : Code := .method target call.method call.args

/-- Methods called one after the other. -/
def chainAll (target : Code) (calls : List Call) : Code := calls.foldl chain target

/-- Code that accepts what one of its members accepts. A single member needs no union. -/
def union : List Code → Code
  | [member] => member
  | members => .call "z.union" [.array members]

/-- Code that accepts one value only. -/
def exactly (v : Value) : Code :=
  if v.isNull then .call "z.null" [] else .call "z.literal" [.literal v]

/-- Code that only accepts that there is no value. -/
def absent : Code := .call "z.undefined" []

/-- A message for values that are refused. -/
def message (text : String) : Code := .record [("message", .literal (.str text))]

end Code

end Schemata
