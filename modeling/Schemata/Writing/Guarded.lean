import Schemata.Writing.Primitive
import Schemata.Node.Merge
/-!
Writing conditional properties.

The generated code has no schemas that depend on other properties. A conditional property becomes a
slot that accepts what any of its branches accepts, and one statement per conditional that checks
the property once more against the branch that its tests select.
-/

namespace Schemata

namespace Writing

variable {ε : Type} [Emitter ε]

/-- Writes a node one level below. -/
abbrev ChildWriter := Node → Write Code

/-- The code of a property. A property that says nothing about its presence has the default one. -/
def field (setting : Setting ε) (child : ChildWriter) (node : Node) : Write Code := do
  let code ← child node
  if node.presence.isSome || node.isForbidden || node.flags.default.isSome then return code
  else if setting.options.defaultPresence = .optional then return code.chain ⟨"optional", []⟩
  else if node.kind = .any ∧ node.valids.isEmpty then
    lift (refuseMissing setting code node.path)
  else return code

/-- The code of a branch, merged into its base. Without base and branch there is no value. -/
def branch (setting : Setting ε) (child : ChildWriter) (base branch : Option Node) : Write Code :=
  match base, branch with
  | none, none => pure Code.absent
  | some node, none => field setting child node
  | none, some node => field setting child node
  | some base, some branch => do
    let node ← lift (base.merge branch).toWritten
    field setting child node

/-- The test of one case. A condition that says nothing about presence holds for a missing value. -/
def test (child : ChildWriter) (access : String) (case : Case Node) : Write Code := do
  let code ← child case.condition
  let code := if case.condition.presence.isNone then code.chain ⟨"optional", []⟩ else code
  return .success case.negated (code.chain ⟨"safeParse", [.raw access .call]⟩)

/-- What one conditional becomes: the branches it can select, and the statement that selects one. -/
structure Selection where
  branches : List Code
  statement : Code
deriving Repr, Inhabited

def selection (setting : Setting ε) (child : ChildWriter) (base : Option Node) (name : String)
    (guard : Guard Node) : Write Selection := do
  let access ← lift (guard.reference.access name guard.path)
  let tests ← guard.cases.mapM (test child access)
  let branches ← guard.cases.mapM fun case => branch setting child base case.branch
  let otherwise ← branch setting child base guard.otherwise
  note (.conditionalApproximated guard.reference.display name) guard.path
  return ⟨branches ++ [otherwise], .check name (.choice (tests.zip branches) otherwise)⟩

/-- Adds a piece of code unless there is one that looks like it. -/
def addSlot (slots : List Code) (code : Code) : List Code :=
  if slots.any code.looksLike then slots else slots ++ [code]

/-- The node that the branches of a property are merged into. Alternatives that have nothing but
conditional members are no schema of their own. -/
def guardBase (node : Node) : Option Node :=
  if node.kind = .alternatives ∧ node.members.isEmpty then none
  else some { node with guards := [], name := none }

/-- A conditional property: its slot and its statements. -/
def guardedField (setting : Setting ε) (child : ChildWriter) (name : String) (node : Node)
    (first : Guard Node) : Write (Code × List Code) := do
  if !setting.options.refinements then
    reject (.unsupported (.conditional .noRefinements)) first.path
  let selections ← node.guards.mapM (selection setting child (guardBase node) name)
  let slots := (selections.flatMap Selection.branches).foldl addSlot []
  return (Code.union slots, selections.map Selection.statement)

end Writing

end Schemata
