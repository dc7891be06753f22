import Schemata.Writing.Basic
/-!
Writing single values: constructors, lists of values, and what is said about a node as a whole.
-/

namespace Schemata

/-- The constructor of a kind that has no children. -/
def Code.base? : Kind → Option Code
  | .string => some (.call "z.string" [])
  | .number => some (.call "z.number" [])
  | .boolean => some (.call "z.boolean" [])
  | .date => some (.call "z.date" [])
  | .any => some (.call "z.any" [])
  | .binary => some (.call "z.instanceof" [.raw "Buffer" .atom])
  | _ => none

namespace Writing

variable {ε : Type} [Emitter ε]

/-- Code that accepts the listed values only. The rules of the node are lost. -/
def listed (node : Node) : Write Code := do
  if !node.kind.hasLiterals then
    reject (.unsupported (.valueList (.allowed node.kind))) (node.path.key "valids")
  if !node.rules.isEmpty then note .rulesDropped node.path
  let members ← lift (node.valids.mapM exactly)
  return Code.union members

def refuseInvalid (setting : Setting ε) (node : Node) (target : Code) : Written Code := do
  node.invalids.forM Value.toLiteral
  addPredicate setting target (.exclusion node.invalids) "Value is not allowed" .invalidValues
    (node.path.key "invalids")

/-- Accepts more values than the code does. Null is accepted by a method of its own. -/
def acceptMore (node : Node) (target : Code) : Written Code := do
  let extras := node.allow.filter fun v => !v.isNull
  let members ← extras.mapM exactly
  let wider := if extras.isEmpty then target else Code.union (target :: members)
  return if node.allow.any Value.isNull then wider.chain ⟨"nullable", []⟩ else wider

/-- Notes that a label is lost, unless it is empty. -/
def noteLabel (node : Node) : Write Unit :=
  match node.flags.label with
  | some label => if label = "" then pure () else note (.labelDropped label) node.path
  | none => pure ()

/-- Describes the code, unless the description is empty. -/
def addDescription (node : Node) (target : Code) : Code :=
  match node.flags.description with
  | some text =>
    if text = "" then target else target.chain ⟨"describe", [.literal (.str text)]⟩
  | none => target

/-- Additional values, label and description, which belong to the body of a declaration. -/
def complete (node : Node) (target : Code) : Write Code := do
  let code ← lift (acceptMore node target)
  noteLabel node
  return addDescription node code

def primitive (setting : Setting ε) (node : Node) (base : Code) : Write Code := do
  let ruled ← lift (applyRules setting node base)
  let code ← if node.valids.isEmpty then pure ruled else listed node
  let code ←
    if node.invalids.isEmpty then pure code else lift (refuseInvalid setting node code)
  complete node code

/-- The default of a node. Numbers and texts are dates on a node for dates. -/
def defaultCode (node : Node) (value : Value) : Written Code := do
  let written ← literal value
  return if node.kind = .date ∧ (value.isNumber || value.text?.isSome) then
    .call "new Date" [written]
  else written

/-- Says whether the value has to be there. -/
def applyPresence (setting : Setting ε) (node : Node) (target : Code) : Written Code :=
  match node.flags.presence with
  | some .optional => .ok (target.chain ⟨"optional", []⟩)
  | some .required =>
    if node.kind = .any ∧ node.valids.isEmpty then refuseMissing setting target node.path
    else .ok target
  | _ => .ok target

/-- Sets the default. -/
def applyDefault (node : Node) (target : Code) : Written Code :=
  match node.flags.default with
  | none => .ok target
  | some value => do
    let code ← defaultCode node value
    return target.chain ⟨"default", [code]⟩

/-- Drops the value, if values may be dropped. -/
def applyStrip (setting : Setting ε) (node : Node) (target : Code) : Written Code :=
  if node.flags.strip = some true then
    if setting.options.strip then
      .ok (target.chain ⟨"transform", [.raw "() => undefined" .call]⟩)
    else .error (.rejected ⟨.unsupported .strip, (node.path.key "flags").key "strip"⟩)
  else .ok target

/-- Presence, default and strip, which belong to each use of a declaration. -/
def modify (setting : Setting ε) (node : Node) (target : Code) : Written Code := do
  let code ← applyPresence setting node target
  let code ← applyDefault node code
  applyStrip setting node code

end Writing

end Schemata
