import Schemata.Rule.Form
/-!
Tables of rules.

A table has an emitter for each rule of each kind of node. Entries stand in the order in which they were
first registered; registering a rule again replaces its emitter and keeps its place. A rule can also be
registered without an emitter, which makes it known and still unsupported.
-/

namespace Schemata

/-- One rule of one kind of node. -/
structure RuleEntry (ε : Type := RuleForm) where
  kind : Kind
  name : String
  emitter : Option ε
deriving DecidableEq, Repr, Inhabited

structure Rulebook (ε : Type := RuleForm) where
  entries : List (RuleEntry ε) := []
deriving DecidableEq, Repr, Inhabited

namespace Rulebook

variable {ε : Type}

def isFor (kind : Kind) (name : String) (entry : RuleEntry ε) : Bool :=
  entry.kind == kind && entry.name == name

def find? (table : Rulebook ε) (kind : Kind) (name : String) : Option (RuleEntry ε) :=
  table.entries.find? (isFor kind name)

def get? (table : Rulebook ε) (kind : Kind) (name : String) : Option ε :=
  (table.find? kind name).bind RuleEntry.emitter

def contains (table : Rulebook ε) (kind : Kind) (name : String) : Bool :=
  (table.find? kind name).isSome

def size (table : Rulebook ε) : Nat := table.entries.length

def list (table : Rulebook ε) (kind : Option Kind) : List (Kind × String) :=
  (table.entries.filter fun entry => kind.all (· == entry.kind)).map fun entry =>
    (entry.kind, entry.name)

/-- Sets an entry: in place if its rule is there, at the end otherwise. -/
def setEntry : List (RuleEntry ε) → RuleEntry ε → List (RuleEntry ε)
  | [], new => [new]
  | entry :: rest, new =>
    if isFor new.kind new.name entry then new :: rest else entry :: setEntry rest new

def register (table : Rulebook ε) (kind : Kind) (name : String) (emitter : Option ε) :
    Rulebook ε :=
  { entries := setEntry table.entries ⟨kind, name, emitter⟩ }

end Rulebook

end Schemata
