import Schemata.Console.Emoji.Flag
import Schemata.Console.Emoji.Person
import Schemata.Console.Emoji.Symbol
import Schemata.Text.Blank
import Schemata.Text.Lower
/-!
Emoji in console text.

The name of an emoji between two colons stands for the emoji, in capitals or not. The name may end
with a dash and the word `text` or `emoji`, which asks for a plain sign or for a coloured picture.
There is no blank in a name, and the second colon of a name is never the first colon of the next
one.
-/

namespace Schemata.Console.Emoji

/-- The emoji with a given name, in small letters. -/
def find? (name : String) : Option String := symbols.lookup name <|> person? name <|> flag? name

/-- What a name may end with, and the selector that it asks for. -/
def variants : List (List Char × Char) :=
  [("-text".toList, '\ufe0e'), ("-emoji".toList, '\ufe0f')]

/-- A name without its variant, and the selector of the variant. -/
def splitVariant (name : List Char) : List Char × List Char :=
  match variants.find? fun (ending, _) => ending.isSuffixOf name with
  | some (ending, selector) => (name.take (name.length - ending.length), [selector])
  | none => (name, [])

/-- What stands for a name between two colons. An unknown name stands for itself. -/
def shown (name : List Char) : List Char :=
  let (base, selector) := splitVariant name
  match find? (String.ofList (Text.lower base)) with
  | some emoji => emoji.toList ++ selector
  | none => ':' :: name ++ [':']

/-- Replaces names behind the start of one, which is none if no colon is open. -/
def replaceFrom : Option (List Char) → List Char → List Char
  | none, [] => []
  | some name, [] => ':' :: name
  | none, c :: rest => if c = ':' then replaceFrom (some []) rest else c :: replaceFrom none rest
  | some name, c :: rest =>
    if c = ':' then shown name ++ replaceFrom none rest
    else if Text.isBlank c then ':' :: name ++ c :: replaceFrom none rest
    else replaceFrom (some (name ++ [c])) rest

def replace (cs : List Char) : List Char := replaceFrom none cs

end Schemata.Console.Emoji
