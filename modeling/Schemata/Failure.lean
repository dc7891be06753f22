import Schemata.Error
import Schemata.Value.Literal
/-!
Why no code comes out.

A description is rejected with an error, or writing it comes upon a defect. An error is put into words as
soon as it is found, so that an error whose wording has too many digits in it is a defect as well.
-/

namespace Schemata

inductive Failure where
  | rejected (error : CompileError)
  | defect (d : Defect)
deriving Repr

/-- What comes of an error that is reported. -/
def Failure.ofError (e : CompileError) : Failure :=
  if e.cause.isSpelled then .rejected e else .defect .longInteger

/-- The outcome of writing code. -/
abbrev Written (α : Type) := Except Failure α

/-- A check of the description, as a step of writing code. -/
def Checked.toWritten {α : Type} (c : Checked α) : Written α :=
  match c with
  | .ok a => .ok a
  | .error e => .error (.ofError e)

/-- The literal of a value, as a step of writing code. -/
def Value.toLiteral (v : Value) : Written Unit :=
  match v.unwritable? with
  | none => .ok ()
  | some d => .error (.defect d)

end Schemata
