import Schemata.Defect
import Schemata.Value.Basic
import Schemata.Text.Identifier
import Schemata.Text.Layout
import Schemata.Text.Quoted
/-!
Literals of the generated code.

Numbers are written with all their digits, strings in double quotes, sequences as arrays, and maps
as objects whose keys are quoted only where they have to be. Byte strings, maps with other keys than
strings and integers with too many digits cannot be written.
-/

namespace Schemata

namespace Text

/-- The identifier that a text is, if it is one. -/
def identifierOf? (points : List CodePoint) : Option String :=
  (ofPoints? points).filter isIdentifier

/-- A property name: as it is if it is an identifier, in quotes otherwise. -/
def propertyNamePoints (name : List CodePoint) : String :=
  (identifierOf? name).getD (quotedPoints name)

@[inherit_doc propertyNamePoints]
def propertyName (name : String) : String := propertyNamePoints (points name)

end Text

namespace Value

mutual
/-- The source text of a literal. It only says something about values that can be written. -/
def source : Value → String
  | null => "null"
  | bool b => if b then "true" else "false"
  | int n => String.ofList (Decimal.intDigits n)
  | float x => x.text
  | decimal d => d.text
  | str s => Text.quoted s
  | bytes _ => ""
  | list items => "[" ++ Text.join ", " (sourceAll items) ++ "]"
  | tuple items => "[" ++ Text.join ", " (sourceAll items) ++ "]"
  | map entries =>
    match entries with
    | [] => "\x7b\x7d"
    | entries => "\x7b " ++ Text.join ", " (sourceEntries entries) ++ " \x7d"
def sourceAll : List Value → List String
  | [] => []
  | item :: rest => source item :: sourceAll rest
def sourceEntries : List (Value × Value) → List String
  | [] => []
  | (key, value) :: rest =>
    (Text.propertyName (key.text?.getD "") ++ ": " ++ source value) :: sourceEntries rest
end

mutual
/-- The first part of a value, in writing order, that cannot be written. -/
def unwritable? : Value → Option Defect
  | int n => if Decimal.isLong n then some .longInteger else none
  | bytes _ => some (.unwritable .byteString)
  | list items => unwritableItem? items
  | tuple items => unwritableItem? items
  | map entries => unwritableEntry? entries
  | _ => none
/-- The first part of a sequence that cannot be written. -/
def unwritableItem? : List Value → Option Defect
  | [] => none
  | item :: rest =>
    match unwritable? item with
    | some d => some d
    | none => unwritableItem? rest
/-- The first part of a map that cannot be written; a key comes before its value. -/
def unwritableEntry? : List (Value × Value) → Option Defect
  | [] => none
  | (key, value) :: rest =>
    if key.text?.isNone then some (.unwritable .keyNotText)
    else
      match unwritable? value with
      | some d => some d
      | none => unwritableEntry? rest
end

def literal (v : Value) : Except Defect String :=
  match v.unwritable? with
  | some d => .error d
  | none => .ok v.source

end Value

end Schemata
