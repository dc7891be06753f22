import Schemata.Reference
/-!
Schema nodes.

A node is one level of a description in a fixed shape: its kind, its flags, its rules, the values it
lists, its children and its conditionals. Children are of the same type: the properties of an
object, the items of an array, the members of alternatives, and the conditions and branches of
conditionals.
-/

namespace Schemata

/-- A named constraint with its arguments. -/
structure Rule where
  name : String
  args : List Value := []
deriving Repr, Inhabited

/-- What is said about a node as a whole. -/
structure Flags where
  presence : Option Presence := none
  default : Option Value := none
  label : Option String := none
  description : Option String := none
  strip : Option Bool := none
  unknown : Option Bool := none
deriving Repr, Inhabited

/-- One test of a conditional, and the branch that holds if the test does. -/
structure Case (ν : Type) where
  condition : ν
  negated : Bool := false
  branch : Option ν := none
deriving Repr, Inhabited

/-- A conditional: tests of one referenced value, tried in order. -/
structure Guard (ν : Type) where
  reference : Reference
  cases : List (Case ν)
  otherwise : Option ν := none
  path : Path := .root
deriving Repr, Inhabited

/-- A schema node. -/
structure Node where
  kind : Kind
  flags : Flags := {}
  rules : List Rule := []
  valids : List Value := []
  allow : List Value := []
  invalids : List Value := []
  /-- The properties of an object; none if they are left open. -/
  keys : Option (List (String × Node)) := none
  items : List Node := []
  members : List Node := []
  guards : List (Guard Node) := []
  /-- The name given to the node. -/
  name : Option String := none
  path : Path := .root
deriving Repr, Inhabited

namespace Node

/-- Whether the presence of a node is said outright. -/
def presence (n : Node) : Option Presence := n.flags.presence

/-- Whether a node only accepts that there is no value. -/
def isForbidden (n : Node) : Bool :=
  n.kind == .forbidden || n.flags.presence == some .forbidden

/-- The name a node is declared under, if it has one; the empty name is none. -/
def declaredName? (n : Node) : Option String := n.name.filter fun name => name != ""

def key? (n : Node) (name : String) : Option Node := (n.keys.getD []).lookup name

end Node

end Schemata
