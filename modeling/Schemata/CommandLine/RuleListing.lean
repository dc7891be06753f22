import Schemata.Rule.Builtin
/-!
The list of supported rules as a table with a frame.

Columns are as wide as their longest cell, the title is centred above the table, and of an odd
number of blanks around it the larger half is on the right.
-/

namespace Schemata.CommandLine

/-- A text filled up with blanks on the right. -/
def padded (width : Nat) (s : String) : String := s ++ Text.copies (width - s.length) ' '

def centred (width : Nat) (s : String) : String :=
  let left := (width - s.length) / 2
  Text.copies left ' ' ++ padded (width - left) s

def widest (texts : List String) : Nat :=
  texts.foldl (fun w s => if w < s.length then s.length else w) 0

/-- A horizontal line of the frame. -/
def frameLine (left line middle right : Char) (first second : Nat) : String :=
  String.ofList (left :: List.replicate (first + 2) line
    ++ middle :: List.replicate (second + 2) line ++ [right])

def row (bar : String) (first second : Nat) (cells : String × String) : String :=
  bar ++ " " ++ padded first cells.1 ++ " " ++ bar ++ " " ++ padded second cells.2 ++ " " ++ bar

def tableLines (rules : List (Kind × String)) : List String :=
  let cells := rules.map fun (kind, name) => (kind.name, name)
  let first := widest ("Type" :: cells.map Prod.fst)
  let second := widest ("Rule" :: cells.map Prod.snd)
  [centred (first + second + 7) "Supported Rules", frameLine '┏' '━' '┳' '┓' first second,
      row "┃" first second ("Type", "Rule"), frameLine '┡' '━' '╇' '┩' first second]
    ++ cells.map (row "│" first second)
    ++ [frameLine '└' '─' '┴' '┘' first second]

/-- The table of the built-in rules of all kinds, or of one kind. -/
def ruleListing (kind : Option Kind) : String :=
  Text.concat ((tableLines (Rulebook.builtin.list kind)).map (· ++ "\n"))

end Schemata.CommandLine
