import Schemata.Text.Layout
/-!
Text for places that are no console.

Control sequences are left out: an escape character and a bracket, some parameters and a letter.
Line ends are made line feeds.
-/

namespace Schemata.Console

def isParameter (c : Char) : Bool := c == ';' || c == '?' || c.isDigit

/-- The text behind an escape character, without the control sequence if it starts one. -/
def withoutSequence (part : List Char) : List Char :=
  match part with
  | '[' :: rest =>
    match rest.dropWhile isParameter with
    | [] => '\x1b' :: part
    | c :: behind => if c.isAlpha then behind else '\x1b' :: part
  | _ => '\x1b' :: part

def withoutSequences (cs : List Char) : List Char :=
  match Text.cutAt '\x1b' cs with
  | [] => []
  | before :: parts => before ++ parts.flatMap withoutSequence

/-- A text in which a carriage return and a line feed together are one line feed. -/
def joinLineEnds : List Char → List Char
  | '\r' :: '\n' :: rest => '\n' :: joinLineEnds rest
  | c :: rest => c :: joinLineEnds rest
  | [] => []

/-- A text in which all line ends are line feeds. -/
def lineFeeds (cs : List Char) : List Char :=
  (joinLineEnds cs).map fun c => if c = '\r' then '\n' else c

/-- A text as it is printed without a console. -/
def piped (text : String) : String := String.ofList (joinLineEnds (withoutSequences text.toList))

/-- A text as it is kept in a file. -/
def filed (text : String) : String := String.ofList (lineFeeds text.toList)

end Schemata.Console
