import Schemata.Code.Declarations
import Schemata.Options
/-!
The code of a compilation as one text.

Declarations come first, each a constant that is exported, then the expression for the whole
description, unless that expression is one of the declared names itself. In a module, a line that
brings in the target library comes before all others, and the expression is exported too.
-/

namespace Schemata.Listing

/-- The first line of a module. -/
def importLine : String := "import \x7b z \x7d from \"zod\";"

/-- The name that the expression of a module is exported under. -/
def exportName : String := "schema"

/-- An exported constant, with its type if asked for. -/
def constant (options : Options) (name body : String) : String :=
  let line := "export const " ++ name ++ " = " ++ body ++ ";"
  if options.typeAliases then
    line ++ "\nexport type " ++ name ++ " = z.infer<typeof " ++ name ++ ">;"
  else line

/-- The block for the expression of the whole description; none if it is declared by name. -/
def topBlock (options : Options) (top : Code) (topName : Option String) : List String :=
  match topName with
  | some _ => []
  | none => if options.asModule then [constant options exportName top.text] else [top.text]

def blocks (options : Options) (top : Code) (declared : Declarations) (topName : Option String) :
    List String :=
  (if options.asModule then [importLine] else [])
    ++ declared.items.map (fun (name, body) => constant options name body)
    ++ topBlock options top topName

/-- The text of a listing: its blocks with an empty line between them. -/
def text (options : Options) (top : Code) (declared : Declarations) (topName : Option String) :
    String :=
  Text.join "\n\n" (blocks options top declared topName)

end Schemata.Listing
