import Schemata.Writing.Guarded
/-!
Writing nodes.

Every node is written one level below the node it is part of, and the number of levels is limited. A
node with a name is declared, and stands for its name where it is used.
-/

namespace Schemata

namespace Writing

variable {ε : Type} [Emitter ε]

/-- A property of an object: its name, its code, and the statements that check it. -/
structure Property where
  name : String
  code : Code
  statements : List Code
deriving Repr, Inhabited

def property (setting : Setting ε) (child : ChildWriter) (name : String) (node : Node) :
    Write Property :=
  match node.guards with
  | [] => do
    let code ← field setting child node
    return ⟨name, code, []⟩
  | first :: _ => do
    let (code, statements) ← guardedField setting child name node first
    return ⟨name, code, statements⟩

/-- Objects without a list of properties accept any; listed ones may be all there is. -/
def applyUnknown (setting : Setting ε) (node : Node) (target : Code) : Code :=
  match node.keys with
  | none => target.chain ⟨"passthrough", []⟩
  | some keys =>
    if node.flags.unknown = some true then target.chain ⟨"passthrough", []⟩
    else if keys.isEmpty || setting.options.strictObjects then target.chain ⟨"strict", []⟩
    else target

/-- Runs the statements that check properties, if there are any. -/
def applyChecks (statements : List Code) (target : Code) : Code :=
  if statements.isEmpty then target else target.chain ⟨"superRefine", [.checks statements]⟩

def object (setting : Setting ε) (child : ChildWriter) (node : Node) : Write Code := do
  let properties ← (node.keys.getD []).mapM fun (name, key) => property setting child name key
  let base := Code.call "z.object" [.object (properties.map fun p => (p.name, p.code))]
  let code ← lift (applyRules setting node (applyUnknown setting node base))
  return applyChecks (properties.flatMap Property.statements) code

def array (setting : Setting ε) (child : ChildWriter) (node : Node) : Write Code := do
  let items ← node.items.mapM child
  let element := if items.isEmpty then .call "z.any" [] else Code.union items
  lift (applyRules setting node (.call "z.array" [element]))

def alternatives (setting : Setting ε) (child : ChildWriter) (node : Node) : Write Code := do
  let members ← node.members.mapM child
  lift (applyRules setting node (Code.union members))

/-- What comes after the children of a node: lists of values are not possible there. -/
def completeComposite (node : Node) (target : Code) : Write Code := do
  if !node.valids.isEmpty || !node.invalids.isEmpty then
    reject (.unsupported (.valueList (.allowedOrInvalid node.kind))) node.path
  complete node target

/-- The code of a node without its modifiers. -/
def body (setting : Setting ε) (child : ChildWriter) (node : Node) : Write Code :=
  match node.guards with
  | guard :: _ => reject (.unsupported (.conditional .notProperty)) guard.path
  | [] =>
    match node.kind with
    | .object => do
      let code ← object setting child node
      completeComposite node code
    | .array => do
      let code ← array setting child node
      completeComposite node code
    | .alternatives => do
      let code ← alternatives setting child node
      completeComposite node code
    | kind =>
      match Code.base? kind with
      | some base => primitive setting node base
      | none => pure Code.absent

/-- Declares the code of a node that has a name. -/
def named (node : Node) (code : Code) : Write Code :=
  match node.declaredName? with
  | some name => declare name code node.path
  | none => pure code

/-- Writes a node, with the writer for the level below. -/
def level (setting : Setting ε) (child : ChildWriter) (node : Node) : Write Code :=
  if node.isForbidden then pure Code.absent
  else do
    let code ← body setting child node
    let code ← named node code
    lift (modify setting node code)

/-- Writes a node that may be `levels` deep. -/
def write (setting : Setting ε) : Nat → Node → Write Code
  | 0, node => reject (.tooDeep setting.options.maxDepth) node.path
  | levels + 1, node => level setting (write setting levels) node

end Writing

end Schemata
