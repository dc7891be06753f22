/-!
Joining, cutting and indenting text.
-/

namespace Schemata.Text

/-- The pieces in order, with a separator between neighbours. -/
def join (separator : String) : List String → String
  | [] => ""
  | [piece] => piece
  | piece :: next :: rest => piece ++ separator ++ join separator (next :: rest)

/-- The pieces in order, with nothing between them. -/
def concat : List String → String
  | [] => ""
  | piece :: rest => piece ++ concat rest

/-- Cuts a text at every occurrence of a character. -/
def cutAt (mark : Char) : List Char → List (List Char)
  | [] => [[]]
  | c :: rest =>
    if c = mark then [] :: cutAt mark rest
    else
      match cutAt mark rest with
      | [] => [[c]]
      | part :: parts => (c :: part) :: parts

def indentation : String := "  "

/-- Moves every line but the first one level in. -/
def indent (text : String) : String :=
  String.ofList (text.toList.flatMap fun c => if c = '\n' then ['\n', ' ', ' '] else [c])

def isMultiline (text : String) : Bool := text.toList.contains '\n'

def copies (n : Nat) (c : Char) : String := String.ofList (List.replicate n c)

end Schemata.Text
