import Schemata.Code.Render
import Schemata.Error
/-!
Named declarations.

A name is declared once, in the order in which its body was finished. It may be declared again with
a body that is written alike; any other body is a conflict with the first one.
-/

namespace Schemata

/-- A named piece of code, and the part of the description it was first declared for. -/
structure Declaration where
  name : String
  body : Code
  path : Path
deriving Repr, Inhabited

/-- The declarations made so far, in order. -/
structure Declarations where
  entries : List Declaration := []
deriving Repr, Inhabited

namespace Declarations

def find? (d : Declarations) (name : String) : Option Declaration :=
  d.entries.find? fun entry => entry.name == name

def contains (d : Declarations) (name : String) : Bool := (d.find? name).isSome

def names (d : Declarations) : List String := d.entries.map Declaration.name

def items (d : Declarations) : List (String × String) :=
  d.entries.map fun entry => (entry.name, entry.body.text)

def size (d : Declarations) : Nat := d.entries.length

/-- Declares a name, unless it is declared already. The code that stands for it is the name. -/
def declare (d : Declarations) (name : String) (body : Code) (path : Path) :
    Checked (Code × Declarations) :=
  match d.find? name with
  | none => .ok (.name name, { entries := d.entries ++ [⟨name, body, path⟩] })
  | some first =>
    if first.body.text = body.text then .ok (.name name, d)
    else .error ⟨.conflict name first.path, path⟩

end Declarations

end Schemata
