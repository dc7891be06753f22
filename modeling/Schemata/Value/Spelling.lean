import Schemata.Value.Basic
import Schemata.Text.Layout
import Schemata.Text.Printable
import Schemata.Text.Quoted
/-!
How values are spelled in messages.

Strings stand in single quotes unless they hold a single quote and no double quote. The quote in use
and the backslash are escaped, three control characters have a short escape, and characters that are
not printable are written by their code point.
-/

namespace Schemata

namespace Text

/-- The last `width` hexadecimal digits of a number. -/
def hexDigits : Nat → Nat → List Char
  | 0, _ => []
  | width + 1, n => hexDigits width (n / 16) ++ [hexDigit n]

/-- The code point of a character in the shortest of three widths. -/
def codePointEscape (n : Nat) : List Char :=
  if n < 0x100 then '\\' :: 'x' :: hexDigits 2 n
  else if n < 0x10000 then '\\' :: 'u' :: hexDigits 4 n
  else '\\' :: 'U' :: hexDigits 8 n

/-- How a character stands between two quotes in a message. -/
def spellChar (quote : Char) (c : Char) : List Char :=
  if c = quote ∨ c = '\\' then ['\\', c]
  else if c = '\n' then ['\\', 'n']
  else if c = '\r' then ['\\', 'r']
  else if c = '\t' then ['\\', 't']
  else if isPrintable c then [c]
  else codePointEscape c.toNat

/-- The quote for a text: single unless only single quotes occur in it. -/
def quoteFor (cs : List Char) : Char := if cs.contains '\'' && !cs.contains '"' then '"' else '\''

/-- A string in quotes, as it stands in a message. -/
def spelled (s : String) : String :=
  let quote := quoteFor s.toList
  String.ofList (quote :: s.toList.flatMap (spellChar quote) ++ [quote])

/-- How a byte stands between two quotes in a message. -/
def spellByte (quote : Char) (b : UInt8) : List Char :=
  let c := Char.ofNat b.toNat
  if 0x7E < b.toNat then codePointEscape b.toNat
  else if c = quote ∨ c = '\\' then ['\\', c]
  else if c = '\n' then ['\\', 'n']
  else if c = '\r' then ['\\', 'r']
  else if c = '\t' then ['\\', 't']
  else if b.toNat < 0x20 then codePointEscape b.toNat
  else [c]

/-- A byte string in quotes, as it stands in a message. -/
def spelledBytes (content : List UInt8) : String :=
  let quote := quoteFor (content.map fun b => Char.ofNat b.toNat)
  String.ofList ('b' :: quote :: content.flatMap (spellByte quote) ++ [quote])

end Text

namespace Value

mutual
/-- A value as it stands inside a message, strings in quotes. -/
def spelled : Value → String
  | null => "None"
  | bool b => if b then "True" else "False"
  | int n => String.ofList (Decimal.intDigits n)
  | float x => x.text
  | decimal d => "Decimal('" ++ d.text ++ "')"
  | str s => Text.spelled s
  | bytes content => Text.spelledBytes content
  | list items => "[" ++ Text.join ", " (spelledAll items) ++ "]"
  | tuple items =>
    match items with
    | [item] => "(" ++ spelled item ++ ",)"
    | items => "(" ++ Text.join ", " (spelledAll items) ++ ")"
  | map entries => "\x7b" ++ Text.join ", " (spelledEntries entries) ++ "\x7d"
def spelledAll : List Value → List String
  | [] => []
  | item :: rest => spelled item :: spelledAll rest
def spelledEntries : List (Value × Value) → List String
  | [] => []
  | (key, value) :: rest => (spelled key ++ ": " ++ spelled value) :: spelledEntries rest
end

/-- A value as a message of its own: strings and decimals stand for themselves. -/
def shown : Value → String
  | str s => s
  | decimal d => d.text
  | v => v.spelled

end Value

end Schemata
