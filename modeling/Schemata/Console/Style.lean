import Schemata.Console.Color
import Schemata.Text.Blank
import Schemata.Text.Lower
/-!
Styles of console text by their definitions.

A definition is a list of words: attributes, which `not` turns off, a colour, a background colour
behind `on`, and an address behind `link`. Two definitions of one style have one normal form, which
lists the attributes in a fixed order and the colours behind them. A text that defines no style is
its own normal form, in small letters.
-/

namespace Schemata.Console

/-- The attributes of a style, in the order of the normal form. -/
inductive Attribute where
  | bold
  | dim
  | italic
  | underline
  | blink
  | blink2
  | reverse
  | conceal
  | strike
  | underline2
  | frame
  | encircle
  | overline
deriving DecidableEq, Repr, Inhabited

namespace Attribute

/-- The attributes with their names, and their short names if they have one. -/
def table : List (Attribute × String × Option String) :=
  [(bold, "bold", some "b"), (dim, "dim", some "d"), (italic, "italic", some "i"),
    (underline, "underline", some "u"), (blink, "blink", none), (blink2, "blink2", none),
    (reverse, "reverse", some "r"), (conceal, "conceal", some "c"), (strike, "strike", some "s"),
    (underline2, "underline2", some "uu"), (frame, "frame", none), (encircle, "encircle", none),
    (overline, "overline", some "o")]

def ofName? (word : String) : Option Attribute :=
  (table.find? fun (_, name, short) => word = name ∨ some word = short).map Prod.fst

end Attribute

structure Style where
  /-- The attributes that are turned on or off. -/
  attributes : List (Attribute × Bool) := []
  color : Option String := none
  background : Option String := none
  link : Option String := none
deriving DecidableEq, Repr, Inhabited

namespace Style

/-- Why a text defines no style. -/
inductive Fault where
  | notStyle
  /-- A number of a colour is missing. -/
  | noNumber
deriving DecidableEq, Repr

def set (style : Style) (a : Attribute) (on : Bool) : Style :=
  { style with attributes := (a, on) :: style.attributes }

/-- The name of a colour, which is checked. -/
def readColor (word : List Char) : Except Fault String :=
  let name := Text.lower word
  match Color.check name with
  | .ok () => .ok (String.ofList name)
  | .error .notColor => .error .notStyle
  | .error .noNumber => .error .noNumber

def readWords (style : Style) : List (List Char) → Except Fault Style
  | [] => .ok style
  | word :: rest =>
    match String.ofList (Text.lower word), rest with
    | "on", [] => .error .notStyle
    | "on", color :: rest => do
      let color ← readColor color
      readWords { style with background := some color } rest
    | "not", [] => .error .notStyle
    | "not", name :: rest =>
      match Attribute.ofName? (String.ofList name) with
      | some a => readWords (style.set a false) rest
      | none => .error .notStyle
    | "link", [] => .error .notStyle
    | "link", address :: rest =>
      readWords { style with link := some (String.ofList address) } rest
    | name, rest =>
      match Attribute.ofName? name with
      | some a => readWords (style.set a true) rest
      | none => do
        let color ← readColor word
        readWords { style with color := some color } rest

/-- Reads the definition of a style. The word `none` alone is the style that changes nothing. -/
def read (definition : List Char) : Except Fault Style :=
  if String.ofList (Text.trimBlanks definition) = "none" then .ok {}
  else readWords {} (Text.words definition)

/-- The words of an attribute that is turned on or off. -/
def attributeText (style : Style) : Attribute × String × Option String → List String
  | (a, name, _) =>
    match style.attributes.lookup a with
    | some true => [name]
    | some false => ["not", name]
    | none => []

def text (style : Style) : String :=
  let parts := Attribute.table.flatMap style.attributeText ++ style.color.toList
    ++ (style.background.map fun color => ["on", color]).getD []
    ++ (style.link.map fun address => ["link", address]).getD []
  if parts.isEmpty then "none" else Text.join " " parts

/-- The normal form of a definition. Only a number that is missing in a colour is a fault. -/
def normalForm (definition : List Char) : Except Fault String :=
  match read definition with
  | .ok style => .ok style.text
  | .error .notStyle => .ok (String.ofList (Text.lower (Text.trimBlanks definition)))
  | .error .noNumber => .error .noNumber

end Style

end Schemata.Console
