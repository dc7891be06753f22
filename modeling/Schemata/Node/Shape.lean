import Schemata.Node.Basic
/-!
Shapes that parts of a description must have.

The readers of flags, rules, conditionals and nodes ask a value for its entries or its items, and
check that the values they keep can be written as literals.
-/

namespace Schemata

namespace Value

/-- The entries of an object; null counts as an object without entries. -/
def asEntries (raw : Value) (path : Path) : Checked Entries :=
  match raw with
  | .null => .ok []
  | .map entries => .ok entries
  | raw => malformed (.notObject raw.kindName) path

def asItems (raw : Value) (path : Path) : Checked (List Value) :=
  match raw.items? with
  | some items => .ok items
  | none => malformed (.notList raw.kindName) path

end Value

/-- Applies a reader to every item of a sequence, at the path of the item. -/
def readEach {α : Type} (read : Value → Path → Checked α) (items : List Value) (path : Path) :
    Checked (List α) :=
  items.zipIdx.mapM fun (item, i) => read item (path.index i)

/-- Whether the entries of a map say that it stands for another value. -/
def Entries.isDynamic (entries : Entries) : Bool :=
  entries.has "ref" || entries.has "special" || entries.has "override"

mutual
/-- Checks that a value can be written as a literal: a scalar that is no infinity and no undefined
number, or, if `nested`, a sequence or a map of such values. -/
def checkLiteral (nested : Bool) : Value → Path → Checked Unit
  | .null, _ => .ok ()
  | .bool _, _ => .ok ()
  | .int _, _ => .ok ()
  | .str _, _ => .ok ()
  | .float x, path => if x.isFinite then .ok () else malformed (.unwritableNumber (.float x)) path
  | .decimal d, path =>
    if d.isFinite then .ok () else malformed (.unwritableNumber (.decimal d)) path
  | .bytes b, path => malformed (.unwritableKind (Value.bytes b).kindName) path
  | .list items, path =>
    if nested then checkLiterals nested items path 0
    else malformed (.unwritableKind (Value.list items).kindName) path
  | .tuple items, path =>
    if nested then checkLiterals nested items path 0
    else malformed (.unwritableKind (Value.tuple items).kindName) path
  | .map entries, path =>
    if Entries.isDynamic entries then unsupported .dynamicValue path
    else if nested then checkLiteralEntries nested entries path
    else malformed (.unwritableKind (Value.map entries).kindName) path
/-- Checks the items of a sequence, the first of which has the index `i`. -/
def checkLiterals (nested : Bool) : List Value → Path → Nat → Checked Unit
  | [], _, _ => .ok ()
  | item :: rest, path, i => do
    checkLiteral nested item (path.index i)
    checkLiterals nested rest path (i + 1)
def checkLiteralEntries (nested : Bool) : List (Value × Value) → Path → Checked Unit
  | [], _ => .ok ()
  | (key, value) :: rest, path =>
    match key with
    | .str name => do
      checkLiteral nested value (path.key name)
      checkLiteralEntries nested rest path
    | _ => malformed .literalKey path
end

/-- A list of scalar literals; null counts as the empty list. -/
def readLiterals (raw : Value) (path : Path) : Checked (List Value) :=
  match raw with
  | .null => .ok []
  | raw => do
    let items ← raw.asItems path
    checkLiterals false items path 0
    return items

end Schemata
