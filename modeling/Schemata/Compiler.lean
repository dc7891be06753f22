import Schemata.Code.Listing
import Schemata.Writing.Node
import Schemata.Node.Reading
import Schemata.Rule.Builtin
import Schemata.Value.Reader
/-!
Compiling descriptions.

A compiler has options and a rule table of its own. Compiling a description gives the code, the
names declared in it and notes about everything that is only approximated, or a failure.
-/

namespace Schemata

/-- What is compiled: a description as it comes, or a node that is read already. -/
inductive Description where
  | tree (raw : Value)
  | node (n : Node)
deriving Repr, Inhabited

structure Result where
  code : String
  declarations : List String
  diagnostics : List Diagnostic
deriving Repr, Inhabited

def Result.warnings (r : Result) : List Diagnostic :=
  r.diagnostics.filter fun d => d.level == .warning

structure Compiler (ε : Type := RuleForm) [Emitter ε] where
  options : Options := {}
  rules : Rulebook ε := Rulebook.builtin
deriving Repr, Inhabited

/-- Why a text is not compiled: it cannot be read, or what it holds fails. -/
inductive TextFailure where
  | unreadable (fault : ReadFault)
  | failed (failure : Failure)
deriving Repr

namespace Compiler

variable {ε : Type} [Emitter ε]

/-- What the compiler gives to the writing of code. -/
def setting (c : Compiler ε) : Setting ε := ⟨c.options, c.rules⟩

/-- The node of a description. Nodes that are read already are not checked again. -/
def toNode (c : Compiler ε) : Description → Checked Node
  | .tree raw => Node.ofValue c.options.maxDepth raw
  | .node n => .ok n

/-- The name of the whole description, if its code is nothing but that name. -/
def topName (node : Node) (top : Code) (declared : Declarations) : Option String :=
  match node.name with
  | some name => if declared.contains name && top.text == name then some name else none
  | none => none

def compileNode (c : Compiler ε) (node : Node) : Written Result := do
  let (top, progress) ← Writing.write c.setting c.options.maxDepth node {}
  let declared := progress.declared
  return {
    code := Listing.text c.options top declared (topName node top declared)
    declarations := declared.names
    diagnostics := progress.notes }

def compile (c : Compiler ε) (description : Description) : Written Result := do
  let node ← (c.toNode description).toWritten
  c.compileNode node

/-- Compiles the description that a text holds, with all numbers exact. -/
def compileText (c : Compiler ε) (text : String) : Except TextFailure Result := do
  let raw ← (Value.ofText .exact text).mapError .unreadable
  (c.compile (.tree raw)).mapError .failed

end Compiler

end Schemata
