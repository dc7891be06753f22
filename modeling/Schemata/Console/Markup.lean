import Schemata.Console.Emoji
import Schemata.Console.Style
/-!
Console markup.

A tag stands in brackets and starts with a small letter or one of three marks. It turns a style on,
or, behind a slash, turns a style off that is on; nothing else may be turned off. Backslashes before
a tag escape it: each pair of them stands for one backslash, and an odd one makes the tag a text.
Brackets that make no tag are text, and lose one backslash before them. Escaping a text makes all
tags in it text.
-/

namespace Schemata.Console

inductive Mark where
  | text (cs : List Char)
  | tag (content : List Char)
deriving DecidableEq, Repr, Inhabited

namespace Mark

def startsTag (c : Char) : Bool := ('a' ≤ c && c ≤ 'z') || c == '#' || c == '/' || c == '@'

/-- The tag at the front of the text behind an opening bracket, and what follows its closing
bracket. The text goes up to the next opening bracket, which no tag may hold. -/
def tagAt? (part : List Char) : Option (List Char × List Char) :=
  match part with
  | [] => none
  | c :: _ =>
    if startsTag c && part.contains ']' then
      some (part.takeWhile (· != ']'), (part.dropWhile (· != ']')).drop 1)
    else none

/-- The number of backslashes at the end of a text. -/
def backslashes (cs : List Char) : Nat := (cs.reverse.takeWhile (· == '\\')).length

/-- The marks of some text and the parts behind the opening brackets that follow it. -/
def ofParts : List Char → List (List Char) → List Mark
  | before, [] => [.text before]
  | before, part :: rest =>
    match tagAt? part with
    | none => ofParts (before ++ '[' :: part) rest
    | some (content, behind) =>
      let count := backslashes before
      [.text (before.take (before.length - count)), .text (List.replicate (count / 2) '\\'),
        if count % 2 = 1 then .text ('[' :: content ++ [']']) else .tag content]
        ++ ofParts behind rest

def ofText (cs : List Char) : List Mark :=
  match Text.cutAt '[' cs with
  | [] => []
  | before :: parts => ofParts before parts

end Mark

/-! ## Escaping -/

/-- Escapes the tags in the parts behind the opening brackets that follow some text. -/
def escapeParts : List Char → List (List Char) → List Char
  | before, [] => before
  | before, part :: rest =>
    match Mark.tagAt? part with
    | none => escapeParts (before ++ '[' :: part) rest
    | some (content, behind) =>
      before ++ List.replicate (Mark.backslashes before) '\\' ++ '\\' :: '[' :: content
        ++ ']' :: escapeParts behind rest

/-- Escapes all tags in a text. A single backslash at its end is doubled, so that it escapes
nothing. -/
def escape (text : String) : String :=
  let escaped := match Text.cutAt '[' text.toList with
    | [] => []
    | before :: parts => escapeParts before parts
  String.ofList (if Mark.backslashes escaped = 1 then escaped ++ ['\\'] else escaped)

/-! ## Styles that are on -/

/-- Why markup cannot be shown. -/
inductive MarkupFault where
  /-- A style is turned off that is not on. -/
  | notOpen
  /-- A handler cannot be read. -/
  | handler
  /-- A number of a colour is missing. -/
  | noNumber
deriving DecidableEq, Repr

/-- A tag that turns a style on: its name in normal form, and what stands behind an equals sign. -/
structure OpenTag where
  name : String
  parameters : Option (List Char)
deriving DecidableEq, Repr, Inhabited

namespace OpenTag

/-- The definition of the style that a tag turns on. -/
def definition (tag : OpenTag) : List Char :=
  match tag.parameters with
  | some parameters => tag.name.toList ++ ' ' :: parameters
  | none => tag.name.toList

/-- Whether a text is a plain argument of a handler: a number or a text in quotes. -/
def isArgument (cs : List Char) : Bool :=
  match Text.trimBlanks cs with
  | [] => false
  | c :: rest =>
    if c = '\'' ∨ c = '"' then
      rest.getLast? == some c && rest.dropLast.all fun d => d != c && d != '\\'
    else (c :: rest).all Char.isDigit

/-- Whether the parameters of a handler can be read: a name, perhaps with plain arguments behind it.
-/
def isHandler (parameters : List Char) : Bool :=
  let isNameChar (c : Char) : Bool := c.isAlphanum || c == '_' || c == '.'
  let cs := Text.trimBlanks parameters
  match cs.dropWhile isNameChar with
  | [] => true
  | '(' :: rest =>
    rest.getLast? == some ')' &&
      (rest.dropLast.isEmpty || (Text.cutAt ',' rest.dropLast).all isArgument)
  | _ => false

/-- Checks a tag when its style is turned off. Only handlers are looked at. -/
def checkClosed (tag : OpenTag) : Except MarkupFault Unit :=
  match tag.name.toList, tag.parameters with
  | '@' :: _, some (c :: rest) => if isHandler (c :: rest) then .ok () else .error .handler
  | _, _ => .ok ()

end OpenTag

/-- The normal form of a style in a tag. -/
def normalName (name : List Char) : Except MarkupFault String :=
  (Style.normalForm name).mapError fun _ => .noNumber

/-- The styles that are on, the last one first, and those that were turned off before. -/
structure Styles where
  opened : List OpenTag := []
  closed : List OpenTag := []
deriving Repr, Inhabited

namespace Styles

/-- Turns off the style that was turned on last. -/
def closeLast (styles : Styles) : Except MarkupFault Styles :=
  match styles.opened with
  | [] => .error .notOpen
  | tag :: rest => do
    tag.checkClosed
    return { opened := rest, closed := tag :: styles.closed }

/-- Turns off the style with a given name that was turned on last. -/
def closeNamed (styles : Styles) (name : String) : Except MarkupFault Styles :=
  match styles.opened.find? fun tag => tag.name == name with
  | none => .error .notOpen
  | some tag => do
    tag.checkClosed
    return { opened := styles.opened.eraseP fun t => t.name == name
             closed := tag :: styles.closed }

/-- What a tag does to the styles. -/
def apply (styles : Styles) (content : List Char) : Except MarkupFault Styles := do
  let name := content.takeWhile (· != '=')
  let parameters := if content.contains '=' then some (content.drop (name.length + 1)) else none
  match name with
  | '/' :: rest =>
    let closing := Text.trimBlanks rest
    if closing.isEmpty then styles.closeLast
    else
      let closing ← normalName closing
      styles.closeNamed closing
  | name =>
    let name ← normalName name
    return { styles with opened := ⟨name, parameters⟩ :: styles.opened }

/-- Checks the definitions of all styles that were turned on. A text that defines no style is let
through. -/
def check (styles : Styles) : Except MarkupFault Unit :=
  if (styles.opened ++ styles.closed).any fun tag =>
    match Style.read tag.definition with
    | .error .noNumber => true
    | _ => false
  then .error .noNumber
  else .ok ()

end Styles

/-! ## Text -/

/-- Brackets without the backslash before them. -/
def plainBrackets : List Char → List Char
  | '\\' :: '[' :: rest => '[' :: plainBrackets rest
  | c :: rest => c :: plainBrackets rest
  | [] => []

/-- The characters that a console does not print. -/
def isSilent (c : Char) : Bool := [7, 8, 11, 12, 13].contains c.toNat

/-- The text of a piece of markup: emoji for their names, and nothing that is not printed. -/
def pieceText (cs : List Char) : List Char :=
  (Emoji.replace (plainBrackets cs)).filter fun c => !isSilent c

def marksText : Styles → List Mark → Except MarkupFault (List Char)
  | styles, [] => do
    styles.check
    return []
  | styles, .text cs :: rest => do
    let behind ← marksText styles rest
    return pieceText cs ++ behind
  | styles, .tag content :: rest => do
    let styles ← styles.apply content
    marksText styles rest

def markupText (markup : String) : Except MarkupFault (List Char) :=
  marksText {} (Mark.ofText markup.toList)

end Schemata.Console
