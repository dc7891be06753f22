import Schemata.Value.Basic
/-!
The positions of values in a description.

A value of a description is read by the position it stands in: as a node, as the flags of one, as a rule,
as a conditional, and so on. `Position` names the positions, and `Position.keys` is the one table of the
keys that the readers look up, with the position of the value under each of them. What can be said about
descriptions at every place, such as that the order of entries or the choice between two spellings makes
no difference, is said by going from a position to the positions under its keys.
-/

namespace Schemata

/-- What a value stands for in a description. -/
inductive Position where
  | node
  | flags
  | rule
  /-- A member of alternatives. -/
  | member
  /-- A conditional. -/
  | guard
  /-- A case of a switch. -/
  | case
  /-- What a conditional tests for. -/
  | test
  | reference
  /-- An object in which a node may be given a name. -/
  | naming
  /-- The properties of an object. -/
  | properties
  /-- A list of values that stand for the same thing. -/
  | each (items : Position)
  /-- A value that is taken as it is. -/
  | value
deriving DecidableEq

namespace Position

/-- Keys whose values are taken as they are. -/
def plain (names : List String) : List (String × Position) := names.map fun name => (name, .value)

def caseKeys : List (String × Position) :=
  [("is", .test), ("not", .test), ("then", .node), ("otherwise", .node)]

/-- The keys that an object in a position has of its own. -/
def ownKeys : Position → List (String × Position)
  | node =>
    plain ["type", "dependencies", "patterns", "renames", "ordered", "valids", "allow", "invalids",
      "invalid"] ++
    [("flags", .flags), ("rules", .each .rule), ("keys", .properties), ("items", .each .node),
      ("matches", .each .member), ("whens", .each .guard), ("metas", .each .naming),
      ("metadata", .naming)]
  | flags => plain ["presence", "default", "strip", "result", "unknown", "match", "label",
      "description", "integer", "only"]
  | rule => plain ["name", "args"]
  | member => [("schema", .node)]
  -- A conditional without a switch is a case itself.
  | guard => [("ref", .reference), ("referenceKey", .reference), ("switch", .each .case)] ++ caseKeys
  | case => caseKeys
  | reference => plain ["path", "ancestor", "type"]
  | naming => plain ["className"]
  | _ => []

/-- The keys that are looked up in an object. A member of alternatives is a node, holds one, or is a
conditional. -/
def keys : Position → List (String × Position)
  | member => member.ownKeys ++ (node.ownKeys ++ guard.ownKeys)
  | position => position.ownKeys

/-- What the value under a key stands for. -/
def under : Position → Value → Position
  | properties, .str _ => .node
  | position, .str name => (position.keys.lookup name).getD .value
  | _, _ => .value

theorem under_of_mem {position : Position} {key : String × Position} (h : key ∈ position.keys) :
    position.under (.str key.1) = key.2 := by
  -- The tables are finite, and no name stands in one of them twice.
  cases position with
  | each items => cases h
  | _ =>
    revert key
    decide

/-- Whether entries are only looked up by their keys, so that their order says nothing. -/
def isUnordered : Position → Bool
  | node | flags | rule | member | guard | case | reference | naming => true
  | _ => false

/-- Whether something in the position, or inside it, can be said in two ways. -/
def isSpelled : Position → Bool
  | flags | naming | value => false
  | each items => items.isSpelled
  | _ => true

/-- The keys of an object under which something can be said in two ways. -/
def parts (position : Position) : List (String × Position) :=
  position.ownKeys.filter fun key => key.2.isSpelled

end Position

end Schemata
