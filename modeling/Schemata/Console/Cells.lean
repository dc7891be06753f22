import Schemata.Console.CellTable
/-!
The length of a text in cells of a console.

A joiner makes one picture of two characters, so the character behind it takes no cell of its own.
The selector for coloured pictures makes some characters wider.
-/

namespace Schemata.Console

/-- Whether a character lies in one of some runs of code points. -/
def inRanges (ranges : List (Nat × Nat)) (c : Char) : Bool :=
  ranges.any fun (first, last) => first ≤ c.toNat && c.toNat ≤ last

def charCells (c : Char) : Nat :=
  if inRanges zeroRanges c then 0 else if inRanges wideRanges c then 2 else 1

/-- Whether a character takes one cell more as a coloured picture. -/
def isWidened (c : Char) : Bool := inRanges widenedRanges c

/-- The character that joins its two neighbours. -/
def joiner : Char := '\u200d'

/-- The selector that asks for the character before it as a coloured picture. -/
def selector : Char := '\ufe0f'

/-- The cells of a text behind the character that was measured last. -/
def cellsAfter : Option Char → List Char → Nat
  | _, [] => 0
  | _, ['\u200d'] => 0
  | last, '\u200d' :: _ :: rest => cellsAfter last rest
  | last, c :: rest =>
    if c = selector then
      (if last.any isWidened then 1 else 0) + cellsAfter none rest
    else if charCells c = 0 then cellsAfter last rest
    else charCells c + cellsAfter (some c) rest

def cells (cs : List Char) : Nat := cellsAfter none cs

/-- A piece of text that is shown as one picture, and its cells. -/
structure Glyph where
  chars : List Char
  size : Nat
deriving Repr, Inhabited

/-- Adds characters to the glyph that was found last. -/
def attach (cs : List Char) : List Glyph → List Glyph
  | [] => [⟨cs, 0⟩]
  | g :: found => { g with chars := g.chars ++ cs } :: found

/-- The glyphs of a text behind some that are found already, the last one first. -/
def glyphsAfter : List Glyph → Option Char → List Char → List Glyph
  | found, _, [] => found.reverse
  | [], last, '\u200d' :: rest => glyphsAfter [⟨['\u200d'], 0⟩] last rest
  | found, last, '\u200d' :: c :: rest => glyphsAfter (attach ['\u200d', c] found) last rest
  | found, last, c :: rest =>
    if c = selector then
      match found, last.any isWidened with
      | g :: found, true => glyphsAfter (⟨g.chars ++ [c], g.size + 1⟩ :: found) none rest
      | found, _ => glyphsAfter (attach [c] found) last rest
    else if charCells c = 0 then glyphsAfter (attach [c] found) last rest
    else glyphsAfter (⟨[c], charCells c⟩ :: found) (some c) rest

def glyphs (cs : List Char) : List Glyph := glyphsAfter [] none cs

end Schemata.Console
