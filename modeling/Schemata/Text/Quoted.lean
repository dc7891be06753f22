/-!
Quoted strings of the generated code.

A quoted string holds printable ASCII only: the quote and the backslash are escaped, five control
characters have a short escape, and every other character is written in UTF-16 units of four
hexadecimal digits each. Strings are quoted by their code points. Among these there can be halves of
surrogate pairs, which are no characters and are written as the units that they are.
-/

namespace Schemata

/-- A code point: a character, or half of a surrogate pair. -/
abbrev CodePoint := Fin 0x110000

namespace CodePoint

def ofChar (c : Char) : CodePoint :=
  ⟨c.toNat, c.valid.elim (fun h => Nat.lt_trans h (by decide)) And.right⟩

/-- The character of a code point that is not half of a pair. -/
def char? (n : CodePoint) : Option Char :=
  if h : n.val.isValidChar then some (Char.ofNatAux n.val h) else none

end CodePoint

namespace Text

def points (s : String) : List CodePoint := s.toList.map CodePoint.ofChar

/-- The text with the given code points, if all of them are characters. -/
def ofPoints? (points : List CodePoint) : Option String :=
  (points.mapM CodePoint.char?).map String.ofList

def hexDigit (n : Nat) : Char := Nat.digitChar (n % 16)

/-- One UTF-16 unit as an escape of four hexadecimal digits. -/
def unitEscape (unit : Nat) : List Char :=
  ['\\', 'u', hexDigit (unit / 4096), hexDigit (unit / 256), hexDigit (unit / 16), hexDigit unit]

/-- A character as one UTF-16 unit, or as a surrogate pair above U+FFFF. -/
def unicodeEscape (c : Char) : List Char :=
  if c.toNat < 0x10000 then unitEscape c.toNat
  else
    let offset := c.toNat - 0x10000
    unitEscape (0xD800 + offset / 0x400) ++ unitEscape (0xDC00 + offset % 0x400)

/-- The characters that have a short escape, each with what stands behind the backslash. -/
def shortEscapes : List (Char × Char) :=
  [('"', '"'), ('\\', '\\'), ('\n', 'n'), ('\r', 'r'), ('\t', 't'), ('\x08', 'b'), ('\x0c', 'f')]

/-- How a character stands inside a quoted string. -/
def escapeChar (c : Char) : List Char :=
  match shortEscapes.lookup c with
  | some e => ['\\', e]
  | none => if 0x20 ≤ c.toNat ∧ c.toNat ≤ 0x7E then [c] else unicodeEscape c

/-- How a code point stands inside a quoted string. -/
def escapePoint (n : CodePoint) : List Char :=
  match n.char? with
  | some c => escapeChar c
  | none => unitEscape n.val

/-- The body of a quoted string, without its quotes. -/
def escapePoints (points : List CodePoint) : List Char := points.flatMap escapePoint

/-- A string in double quotes. -/
def quotedPoints (points : List CodePoint) : String :=
  String.ofList ('"' :: escapePoints points ++ ['"'])

@[inherit_doc quotedPoints]
def quoted (s : String) : String := quotedPoints (points s)

end Text

end Schemata
