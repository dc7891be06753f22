import Schemata.Node.Flags
import Schemata.Node.Guard
/-!
Reading nodes from descriptions.

A description is read from the root down, and the first fault met is the one reported. Every node is
one level below the node it is part of; a description with more levels than the limit allows is
rejected at the first node that lies too deep.
-/

namespace Schemata

namespace Node

/-- Types of descriptions that nothing in the generated code corresponds to. -/
def inexpressibleTypes : List String := ["function", "link", "symbol"]

/-- Keys that change the meaning of a description in ways the generated code cannot express. -/
def inexpressibleKeys : List (String × String) :=
  [("dependencies", "object key dependencies"), ("patterns", "object key patterns"),
    ("renames", "object key renames"), ("ordered", "ordered array items")]

/-- Keys that hold children, and the one kind of node each of them belongs to. -/
def childKeys : List (String × Kind) :=
  [("keys", .object), ("items", .array), ("matches", .alternatives)]

def asDescription (raw : Value) (path : Path) : Checked Entries :=
  match raw with
  | .map entries => .ok entries
  | raw => malformed (.notDescription raw.kindName) path

def readKind (raw : Entries) (path : Path) : Checked Kind :=
  match raw.field "type" with
  | .str name =>
    if inexpressibleTypes.contains name then unsupported (.sourceType name) path
    else
      match Kind.ofName? name with
      | some kind => .ok kind
      | none => malformed (.unknownType name) path
  | _ => malformed .noType path

/-- Rejects keys that cannot be expressed, unless they hold nothing. -/
def checkKeys (raw : Entries) (path : Path) : Checked Unit :=
  match inexpressibleKeys.find? fun (key, _) => (raw.field key).truthy with
  | some (key, feature) => unsupported (.sourceKey feature) (path.key key)
  | none => .ok ()

/-- Rejects children on nodes of another kind. -/
def checkContainers (raw : Entries) (kind : Kind) (path : Path) : Checked Unit :=
  match childKeys.find? fun (key, owner) => raw.has key && kind != owner with
  | some (key, owner) => malformed (.misplaced key owner) (path.key key)
  | none => .ok ()

/-- The flags of a node. A forbidden node only says that it is forbidden. -/
def readFlags (raw : Entries) (kind : Kind) (path : Path) : Checked Flags := do
  let flags ← Flags.read kind raw path
  return if kind = .forbidden then { presence := some .forbidden } else flags

def readKeys (child : ChildReader) (raw : Value) (path : Path) :
    Checked (Option (List (String × Node))) :=
  match raw with
  | .null => .ok none
  | raw => do
    let entries ← raw.asEntries path
    let keys ← entries.mapM fun (key, value) =>
      match key with
      | .str name => do
        let node ← child value (path.key name)
        return (name, node)
      | key => malformed (.propertyKey key) path
    return some keys

def readItems (child : ChildReader) (raw : Value) (path : Path) : Checked (List Node) := do
  let items ← raw.asItems path
  readEach child items path

/-- One member of alternatives: a node, alone or under `schema`, or a conditional. -/
def readMatch (child : ChildReader) (raw : Value) (path : Path) :
    Checked (Node ⊕ Guard Node) :=
  match raw with
  | .map entries =>
    match Entries.get? entries "schema" with
    | some schema => do
      let node ← child schema (path.key "schema")
      return .inl node
    | none =>
      if Entries.has entries "type" then do
        let node ← child raw path
        return .inl node
      else do
        let guard ← Guard.read child raw path
        return .inr guard
  | _ => malformed .matchShape path

/-- The members of alternatives: all plain, or all conditional. -/
def readMatches (child : ChildReader) (raw : Value) (path : Path) :
    Checked (List Node × List (Guard Node)) := do
  let items ← raw.asItems path
  let members ← readEach (readMatch child) items path
  let plain := members.filterMap Sum.getLeft?
  let guarded := members.filterMap Sum.getRight?
  if !plain.isEmpty && !guarded.isEmpty then malformed .mixedMatches path
  else if plain.isEmpty && guarded.isEmpty then malformed .emptyMatches path
  else return (plain, guarded)

/-- The members of a node, which alternatives must have. -/
def readMembers (child : ChildReader) (raw : Entries) (kind : Kind) (path : Path) :
    Checked (List Node × List (Guard Node)) :=
  match raw.get? "matches" with
  | some members => readMatches child members (path.key "matches")
  | none => if kind = .alternatives then malformed .noMatches path else .ok ([], [])

def readWhens (child : ChildReader) (raw : Value) (path : Path) : Checked (List (Guard Node)) := do
  let items ← raw.asItems path
  readEach (Guard.read child) items path

/-- The entries in which a node may be given a name, each with its path. -/
def readMetas (raw : Entries) (path : Path) : Checked (List (Entries × Path)) := do
  let listed ← match raw.field "metas" with
    | .null => pure []
    | metas => do
      let items ← metas.asItems (path.key "metas")
      readEach (fun item p => do return (← item.asEntries p, p)) items (path.key "metas")
  match raw.field "metadata" with
  | .null => return listed
  | metadata =>
    let entries ← metadata.asEntries (path.key "metadata")
    return listed ++ [(entries, path.key "metadata")]

/-- A name that a node can be declared under. -/
def readName (raw : Value) (path : Path) : Checked String :=
  match raw with
  | .str name => if Text.isIdentifier name then .ok name else malformed (.className raw) path
  | raw => malformed (.className raw) path

/-- The name given last, if there is one. All names given have to be identifiers. -/
def lastName : List (Entries × Path) → Option String → Checked (Option String)
  | [], name => .ok name
  | (entries, path) :: rest, name =>
    match entries.get? "className" with
    | none => lastName rest name
    | some raw => do
      let given ← readName raw (path.key "className")
      lastName rest (some given)

/-- Reads a description, with the reader for the level below. -/
def readLevel (child : ChildReader) (raw : Value) (path : Path) : Checked Node := do
  let entries ← asDescription raw path
  let kind ← readKind entries path
  checkKeys entries path
  checkContainers entries kind path
  let rawFlags ← (entries.field "flags").asEntries (path.key "flags")
  let flags ← readFlags rawFlags kind (path.key "flags")
  let rules ← Rule.readAll (entries.field "rules") (path.key "rules")
  let rules := match rawFlags.field "integer" with
    | .bool true => Rule.withInteger rules
    | _ => rules
  let listed ← readLiterals (entries.field "valids") (path.key "valids")
  let extra ← readLiterals (entries.field "allow") (path.key "allow")
  let only := (rawFlags.field "only").truthy
  let valids := if only then listed ++ extra else listed
  let allow := if only then [] else extra
  let invalids ← readLiterals (entries.field "invalids") (path.key "invalids")
  let invalid ← readLiterals (entries.field "invalid") (path.key "invalid")
  let keys ← match entries.get? "keys" with
    | some raw => readKeys child raw (path.key "keys")
    | none => pure none
  let items ← match entries.get? "items" with
    | some raw => readItems child raw (path.key "items")
    | none => pure []
  let (members, guards) ← readMembers child entries kind path
  let whens ← match entries.get? "whens" with
    | some raw => readWhens child raw (path.key "whens")
    | none => pure []
  let metas ← readMetas entries path
  let name ← lastName metas none
  return {
    kind, flags, rules, valids, allow, invalids := invalids ++ invalid, keys, items, members,
    guards := guards ++ whens, name, path }

/-- Reads a description that may be `levels` deep. The limit is only shown in the error. -/
def read (limit : Int) : Nat → Value → Path → Checked Node
  | 0, _, path => .error ⟨.tooDeep limit, path⟩
  | levels + 1, raw, path => readLevel (read limit levels) raw path

/-- Reads a whole description with a limit on its depth. -/
def ofValue (limit : Int) (raw : Value) : Checked Node := read limit limit.toNat raw .root

end Node

end Schemata
