/-!
Identifiers of the generated code.

An identifier is an ASCII letter, `_` or `$`, followed by any number of these or ASCII digits. One
final line break is let through, because a name is tested as a whole line.
-/

namespace Schemata.Text

def startsIdentifier (c : Char) : Bool := c.isAlpha || c == '_' || c == '$'

def continuesIdentifier (c : Char) : Bool := c.isAlphanum || c == '_' || c == '$'

/-- What may follow the first character: identifier characters up to the end of the line. -/
def isIdentifierTail : List Char → Bool
  | [] => true
  | ['\n'] => true
  | c :: rest => continuesIdentifier c && isIdentifierTail rest

/-- A name that needs no quotes in the generated code. -/
def isIdentifier (name : String) : Bool :=
  match name.toList with
  | [] => false
  | c :: rest => startsIdentifier c && isIdentifierTail rest

end Schemata.Text
