import Schemata.Console.Cells
import Schemata.Console.Markup
/-!
Lines on a console.

Tabs go on to the next column that is a multiple of eight, counted in cells. A line that is wider
than the console is broken between words, and a word that is wider than the console is broken
itself.
-/

namespace Schemata.Console

def lineWidth : Nat := 10000

def tabWidth : Nat := 8

/-- The parts of a line between its tabs, put together from a column on. A tab is at least one
blank. -/
def joinTabs : Nat → List (List Char) → List Char
  | _, [] => []
  | _, [part] => part
  | column, part :: rest =>
    let next := column + cells (part ++ [' '])
    let fill := (tabWidth - next % tabWidth) % tabWidth
    part ++ ' ' :: List.replicate fill ' ' ++ joinTabs (next + fill) rest

def expandTabs (line : List Char) : List Char := joinTabs 0 (Text.cutAt '\t' line)

/-! ## Breaking lines -/

/-- Puts something in front of the first of some lists. -/
def putFirst {α : Type} (a : α) : List (List α) → List (List α)
  | [] => [[a]]
  | first :: rest => (a :: first) :: rest

/-- Cuts a text where a blank is followed by something else. -/
def cutBehindBlanks : List Char → List (List Char)
  | [] => []
  | [c] => [[c]]
  | c :: d :: rest =>
    if Text.isBlank c && !Text.isBlank d then [c] :: cutBehindBlanks (d :: rest)
    else putFirst c (cutBehindBlanks (d :: rest))

/-- Cuts a line into words, each with the blanks behind it. Blanks at the front belong to the first
word, and blanks alone are no word. -/
def wordsOf (line : List Char) : List (List Char) :=
  match cutBehindBlanks (line.dropWhile Text.isBlank) with
  | [] => []
  | word :: rest => (line.takeWhile Text.isBlank ++ word) :: rest

def trimEnd (cs : List Char) : List Char := (cs.reverse.dropWhile Text.isBlank).reverse

/-- Cuts glyphs into lines, the first of which has some cells already. -/
def chopGlyphs (width : Nat) : Nat → List Glyph → List (List Glyph)
  | _, [] => [[]]
  | size, g :: rest =>
    if width < size + g.size then [] :: putFirst g (chopGlyphs width g.size rest)
    else putFirst g (chopGlyphs width (size + g.size) rest)

/-- Cuts a word into lines. -/
def chop (width : Nat) (word : List Char) : List (List Char) :=
  (chopGlyphs width 0 (glyphs word)).map fun line => line.flatMap Glyph.chars

/-- Lines being filled. -/
structure Filling where
  /-- The lines that are finished, the last one first. -/
  finished : List (List Char) := []
  /-- The words on the line, the last one first. -/
  line : List (List Char) := []
  /-- The cells of the line. -/
  size : Nat := 0
deriving Repr, Inhabited

namespace Filling

def all (f : Filling) : List (List Char) := f.line.reverse.flatten :: f.finished

/-- Starts a line with some text. Nothing is left above the first line. -/
def startLine (f : Filling) (cs : List Char) : Filling :=
  { finished := if f.finished.isEmpty && f.line.isEmpty then [] else f.all
    line := [cs]
    size := cells cs }

/-- Puts a word on the line if it fits, and on a line of its own otherwise. -/
def add (width : Nat) (f : Filling) (word : List Char) : Filling :=
  let size := cells (trimEnd word)
  if f.size + size ≤ width then { f with line := word :: f.line, size := f.size + cells word }
  else if width < size then (chop width word).foldl startLine f
  else f.startLine word

def lines (f : Filling) : List (List Char) := f.all.reverse

end Filling

/-- Takes blanks from the end of a line that is too long. -/
def crop (width : Nat) (line : List Char) : List Char :=
  let blanks := line.length - (trimEnd line).length
  line.take (line.length - (if blanks < line.length - width then blanks else line.length - width))

/-- The front of a text that has room. A wide character with room for half of it becomes a blank. -/
def cutGlyphs : Nat → List Glyph → List Char
  | _, [] => []
  | room, g :: rest =>
    if g.size ≤ room then g.chars ++ cutGlyphs (room - g.size) rest
    else if room = 0 then [] else [' ']

/-- A line that is cut if it is too wide. -/
def truncate (width : Nat) (line : List Char) : List Char :=
  if cells line ≤ width then line else cutGlyphs width (glyphs line)

/-- Breaks a line that is too wide. -/
def wrap (width : Nat) (line : List Char) : List (List Char) :=
  let lines := match wordsOf line with
    | [] => [line]
    | words => (words.foldl (Filling.add width) {}).lines
  lines.map fun line => truncate width (crop width line)

/-! ## Printing -/

/-- Lines with a line break between neighbours. -/
def joinLines (lines : List (List Char)) : String := Text.join "\n" (lines.map String.ofList)

/-- The text that a console prints for markup. -/
def print (markup : String) : Except MarkupFault String := do
  let text ← markupText markup
  return joinLines ((Text.cutAt '\n' text).flatMap fun line => wrap lineWidth (expandTabs line))

end Schemata.Console
