import Schemata.Node.Shape
/-!
Reading the flags and the rules of a node.
-/

namespace Schemata

namespace Flags

/-- The presence of a node; null says nothing. -/
def readPresence (raw : Value) (path : Path) : Checked (Option Presence) :=
  match raw with
  | .null => .ok none
  | raw =>
    match raw.text?.bind Presence.ofName? with
    | some presence => .ok (some presence)
    | none => malformed (.unknownPresence raw) path

/-- The default of a node, null included, if there is one. -/
def readDefault (raw : Option Value) (path : Path) : Checked (Option Value) :=
  match raw with
  | none => .ok none
  | some value => do
    checkLiteral true value path
    return some value

/-- A flag that is a boolean; null says nothing. -/
def readBoolean (raw : Entries) (name : String) (path : Path) : Checked (Option Bool) :=
  match raw.field name with
  | .null => .ok none
  | .bool b => .ok (some b)
  | _ => malformed (.notBoolean name) (path.key name)

/-- A flag that is a string; null says nothing. -/
def readText (raw : Entries) (name : String) (path : Path) : Checked (Option String) :=
  match raw.field name with
  | .null => .ok none
  | .str s => .ok (some s)
  | _ => malformed (.notText name) (path.key name)

/-- Alternatives must accept a value as soon as one of them does. -/
def checkMatchMode (kind : Kind) (raw : Value) (path : Path) : Checked Unit :=
  if kind = .alternatives ∧ !raw.isNull ∧ !raw.isText "any" then
    unsupported (.matchMode raw) path
  else .ok ()

/-- Reads the flags of a node of a given kind. -/
def read (kind : Kind) (raw : Entries) (path : Path) : Checked Flags := do
  let presence ← readPresence (raw.field "presence") (path.key "presence")
  let default ← readDefault (raw.get? "default") (path.key "default")
  let strip ← readBoolean raw "strip" path
  let strip := if (raw.field "result").isText "strip" then some true else strip
  let unknown ← readBoolean raw "unknown" path
  checkMatchMode kind (raw.field "match") (path.key "match")
  let label ← readText raw "label" path
  let description ← readText raw "description" path
  return { presence, default, label, description, strip, unknown }

end Flags

namespace Rule

/-- The arguments of a rule: a sequence, or the values of an object in order. -/
def readArguments (raw : Value) (path : Path) : Checked (List Value) :=
  match raw with
  | .null => .ok []
  | .map entries => .ok (entries.map Prod.snd)
  | .list items => .ok items
  | .tuple items => .ok items
  | _ => malformed .ruleArguments path

def read (raw : Value) (path : Path) : Checked Rule :=
  match raw with
  | .map entries =>
    match Entries.field entries "name" with
    | .str name => do
      let args ← readArguments (Entries.field entries "args") (path.key "args")
      return { name, args }
    | _ => malformed .ruleShape path
  | _ => malformed .ruleShape path

/-- Reads the rules of a node; null counts as no rules. -/
def readAll (raw : Value) (path : Path) : Checked (List Rule) :=
  match raw with
  | .null => .ok []
  | raw => do
    let items ← raw.asItems path
    readEach read items path

/-- The rules of a node that has to be an integer: the rule comes first unless it is there
already. -/
def withInteger (rules : List Rule) : List Rule :=
  if rules.any fun r => r.name == "integer" then rules else { name := "integer" } :: rules

end Rule

end Schemata
