import Schemata.Code.Declarations
import Schemata.Diagnostic
import Schemata.Options
import Schemata.Rule.Book
/-!
Writing code: what is given, what is kept, and the steps that all nodes share.

Writing reads the options and the rule table, and keeps the declarations and the notes made so far.
A failure ends it.
-/

namespace Schemata

/-- What writing code is given. -/
structure Setting (ε : Type := RuleForm) [Emitter ε] where
  options : Options
  rules : Rulebook ε
deriving Repr, Inhabited

/-- What writing code has produced besides the code itself. -/
structure Progress where
  declared : Declarations := {}
  notes : List Diagnostic := []
deriving Repr, Inhabited

/-- A step of writing code. -/
abbrev Write (α : Type) := StateT Progress Written α

namespace Writing

variable {ε : Type} [Emitter ε]

/-- A step that may fail and keeps nothing. -/
def lift {α : Type} (w : Written α) : Write α := fun progress =>
  match w with
  | .ok a => .ok (a, progress)
  | .error failure => .error failure

/-- Ends with an error. -/
def reject {α : Type} (cause : Cause) (path : Path) : Write α := fun _ =>
  .error (.rejected ⟨cause, path⟩)

/-- Makes a note. -/
def note (notice : Notice) (path : Path) : Write Unit := fun progress =>
  .ok ((), { progress with notes := progress.notes ++ [⟨notice, path⟩] })

/-- Declares code under a name, and goes on with the name. -/
def declare (name : String) (body : Code) (path : Path) : Write Code := fun progress =>
  match progress.declared.declare name body path with
  | .ok (code, declared) => .ok (code, { progress with declared := declared })
  | .error e => .error (.rejected e)

def literal (v : Value) : Written Code := do
  v.toLiteral
  return .literal v

def exactly (v : Value) : Written Code := do
  v.toLiteral
  return Code.exactly v

/-- Adds a predicate, if predicates may be used. -/
def addPredicate (setting : Setting ε) (target test : Code) (message : String) (feature : Feature)
    (path : Path) : Written Code :=
  if setting.options.refinements then
    .ok (target.chain ⟨"refine", [test, Code.message message]⟩)
  else .error (.rejected ⟨.unsupported feature, path⟩)

/-- Refuses that there is no value, which code for any value would accept. -/
def refuseMissing (setting : Setting ε) (target : Code) (path : Path) : Written Code :=
  addPredicate setting target (.raw "(value) => value !== undefined" .call) "Required"
    .requiredAny path

def applyRule (setting : Setting ε) (kind : Kind) (target : Code) (rule : Rule) (path : Path) :
    Written Code :=
  match setting.rules.get? kind rule.name with
  | some emitter => Emitter.emit emitter target rule ⟨kind, path, setting.options.refinements⟩
  | none => .error (.rejected ⟨.unsupportedRule kind rule.name, path⟩)

/-- Adds the rules of a node to its code, one after the other. -/
def applyRules (setting : Setting ε) (node : Node) (target : Code) : Written Code :=
  node.rules.zipIdx.foldlM (fun target (rule, i) =>
    applyRule setting node.kind target rule ((node.path.key "rules").index i)) target

end Writing

end Schemata
