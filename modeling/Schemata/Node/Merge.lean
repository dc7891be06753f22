import Schemata.Named
import Schemata.Node.Basic
/-!
Merging the branch of a conditional into the node it belongs to.

A branch adds to its base: rules, listed values, items and members are appended, properties are set
one by one, and flags that the branch sets win. A forbidden branch replaces its base.
-/

namespace Schemata

namespace Flags

/-- The first text that is there and not empty, or else the second. -/
def preferText : Option String → Option String → Option String
  | none, base => base
  | some s, base => if s = "" then base else some s

/-- The flags of a base with those of a branch laid over them. -/
def combine (base branch : Flags) : Flags :=
  { presence := branch.presence <|> base.presence
    default := branch.default <|> base.default
    label := preferText branch.label base.label
    description := preferText branch.description base.description
    strip := branch.strip <|> base.strip
    unknown := branch.unknown <|> base.unknown }

end Flags

namespace Node

/-- The properties of a base with those of a branch set one after the other. -/
def mergeKeys (base branch : Option (Named Node)) : Option (Named Node) :=
  match branch with
  | none => base
  | some keys => some (keys.foldl (fun merged key => Named.put merged key.1 key.2) (base.getD []))

/-- A node that only accepts that there is no value. -/
def bareForbidden (presence : Option Presence) (path : Path) : Node :=
  { kind := .forbidden, flags := { presence := presence }, path := path }

/-- The kind of a merged node, if the two kinds fit: one of them is `any`, or they are equal. -/
def mergeKind? (base branch : Kind) : Option Kind :=
  if branch = .any then some base
  else if branch = base ∨ base = .any then some branch
  else none

/-- Applies a branch to its base. -/
def merge (base branch : Node) : Checked Node :=
  if branch.isForbidden then .ok (bareForbidden branch.presence branch.path)
  else
    match branch.guards, mergeKind? base.kind branch.kind with
    | guard :: _, _ => unsupported (.conditional .nested) guard.path
    | [], none => malformed (.branchKind branch.kind base.kind) branch.path
    | [], some kind =>
      .ok {
        kind := kind
        flags := base.flags.combine branch.flags
        rules := base.rules ++ branch.rules
        valids := if branch.valids.isEmpty then base.valids else branch.valids
        allow := base.allow ++ branch.allow
        invalids := base.invalids ++ branch.invalids
        keys := mergeKeys base.keys branch.keys
        items := base.items ++ branch.items
        members := base.members ++ branch.members
        path := branch.path }

end Node

end Schemata
