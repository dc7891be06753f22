import Schemata.Text.Identifier
import Schemata.Number.Decimal
/-!
Paths from the root of a description to one of its parts.

A path is a list of steps behind an optional base. Its text writes an index in brackets, an
identifier behind a dot, and any other name in brackets and quotes.
-/

namespace Schemata

/-- One step into a value. -/
inductive Step where
  /-- To the entry of a map. -/
  | key (name : String)
  /-- To an item of a sequence. -/
  | index (i : Int)
deriving DecidableEq, Repr, Inhabited

/-- Where a part of a description stands: steps from a base, which is empty for the root. -/
structure Path where
  base : String := ""
  steps : List Step := []
deriving DecidableEq, Repr, Inhabited

namespace Path

def root : Path := {}

def key (p : Path) (name : String) : Path := { p with steps := p.steps ++ [.key name] }

def index (p : Path) (i : Nat) : Path := { p with steps := p.steps ++ [.index i] }

/-- A name inside quotes: the backslash and the quote are escaped. -/
def escapeName (name : String) : String :=
  String.ofList (name.toList.flatMap fun c => if c = '\\' ∨ c = '"' then ['\\', c] else [c])

/-- The text of a path, longer by one step. -/
def extend (text : String) : Step → String
  | .index i => text ++ "[" ++ String.ofList (Decimal.intDigits i) ++ "]"
  | .key name =>
    if Text.isIdentifier name then (if text = "" then name else text ++ "." ++ name)
    else text ++ "[\"" ++ escapeName name ++ "\"]"

def render (p : Path) : String := p.steps.foldl extend p.base

/-- The text of a path inside a message. -/
def label (p : Path) : String :=
  let text := p.render
  if text = "" then "<root>" else text

end Path

end Schemata
