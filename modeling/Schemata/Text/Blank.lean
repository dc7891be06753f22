/-!
Blank characters: the white space of Unicode, with the four information separators counted in.
Blanks stand around and between the words of a text.
-/

namespace Schemata.Text

/-- First and last code points of the runs of white space, in order. -/
def spaceRanges : List (Nat × Nat) :=
  [(0x09, 0x0D), (0x20, 0x20), (0x85, 0x85), (0xA0, 0xA0), (0x1680, 0x1680), (0x2000, 0x200A),
    (0x2028, 0x2029), (0x202F, 0x202F), (0x205F, 0x205F), (0x3000, 0x3000)]

def isSpace (c : Char) : Bool :=
  spaceRanges.any fun (first, last) => first ≤ c.toNat && c.toNat ≤ last

def isSeparator (c : Char) : Bool := 0x1C ≤ c.toNat && c.toNat ≤ 0x1F

def isBlank (c : Char) : Bool := isSpace c || isSeparator c

/-- A text without the characters of a class around it. -/
def trim (p : Char → Bool) (cs : List Char) : List Char :=
  ((cs.dropWhile p).reverse.dropWhile p).reverse

def trimBlanks (cs : List Char) : List Char := trim isBlank cs

/-- The words of a text, which have blanks between them. -/
def words (cs : List Char) : List (List Char) :=
  (cs.foldr (fun c (parts : List (List Char)) =>
    match isBlank c, parts with
    | false, part :: rest => (c :: part) :: rest
    | false, [] => [[c]]
    | true, parts => [] :: parts) [[]]).filter fun word => !word.isEmpty

end Schemata.Text
