import Schemata.Node.Kind
import Schemata.Number.Numeral
import Schemata.Text.Blank
import Schemata.Value.Basic
/-!
Options of a compilation, and how they are read from a value.

Booleans and numbers may be given in several spellings. Every field that is there is checked, and
the faults are listed in the order of the fields; other entries are ignored.
-/

namespace Schemata

structure Options where
  /-- The presence of properties that say nothing about theirs. -/
  defaultPresence : Presence := .optional
  /-- Whether the code may refine schemas by predicates. -/
  refinements : Bool := true
  /-- Whether the code may drop values. -/
  strip : Bool := true
  /-- Whether objects refuse properties they do not list. -/
  strictObjects : Bool := false
  /-- How many levels a description may have. -/
  maxDepth : Nat := 64
  /-- Whether declarations come with a type of the same name. -/
  typeAliases : Bool := false
  /-- Whether the code is a module of its own. -/
  asModule : Bool := false
deriving DecidableEq, Repr, Inhabited

/-- What can be wrong with an option. -/
inductive OptionFault where
  | notOptions
  | notPresence
  | notBoolean
  | unreadableBoolean
  | notInteger
  | unreadableInteger
  | integerTooLong
  | fraction
  | infinite
  | tooSmall
deriving DecidableEq, Repr

namespace Options

/-- A field of the options, or none for the options as a whole, and what is wrong with it. -/
abbrev Faults := List (Option String × OptionFault)

/-- A presence is given by its name. -/
def readPresence (raw : Value) : Except OptionFault Presence :=
  match raw.text?.bind Presence.ofName? with
  | some presence => .ok presence
  | none => .error .notPresence

/-- Zero and one as booleans. -/
def booleanOfInt (n : Int) : Except OptionFault Bool :=
  if n = 0 then .ok false
  else if n = 1 then .ok true
  else .error .unreadableBoolean

/-- Words for booleans, in capitals or not. -/
def booleanOfText (s : String) : Except OptionFault Bool :=
  let word := String.ofList (s.toList.map Char.toLower)
  if ["1", "t", "true", "y", "yes", "on"].contains word then .ok true
  else if ["0", "f", "false", "n", "no", "off"].contains word then .ok false
  else .error .unreadableBoolean

/-- The integers of a signed word lie below this bound, and not below its opposite. -/
def wordBound : Int := 0x8000000000000000

/-- The integer that a floating point number stands for. It has to lie between the bounds of a word,
and on neither of them. -/
def wholeNumber (x : Binary64) : Except OptionFault Int :=
  if x.isFinite then
    match x.toInt? with
    | some n => if -wordBound < n ∧ n < wordBound then .ok n else .error .integerTooLong
    | none => .error .fraction
  else .error .infinite

/-- A boolean: itself, zero or one, or a word. A number that is not an integer of a word is not
taken for a boolean at all. -/
def readBoolean (raw : Value) : Except OptionFault Bool :=
  match raw with
  | .bool b => .ok b
  | .int n => if -wordBound ≤ n ∧ n < wordBound then booleanOfInt n else .error .notBoolean
  | .float x =>
    match wholeNumber x with
    | .ok n => booleanOfInt n
    | .error _ => .error .notBoolean
  | .str s => booleanOfText s
  | _ => .error .notBoolean

/-- Digits with single underscores between them, without the underscores. -/
def plainDigits? : List Char → Option (List Char)
  | [] => none
  | [c] => if c.isDigit then some [c] else none
  | c :: '_' :: rest => if c.isDigit then (plainDigits? rest).map (c :: ·) else none
  | c :: rest => if c.isDigit then (plainDigits? rest).map (c :: ·) else none

/-- A text without a point and zeros at its end. -/
def withoutZeros (cs : List Char) : List Char :=
  match cs.dropWhile (· != '.') with
  | '.' :: rest => if rest.all (· == '0') then cs.takeWhile (· != '.') else cs
  | _ => cs

/-- The largest number of digits in a text, zeros in front of them apart. -/
def digitLimit : Nat := 4300

/-- An integer written in decimal digits, with or without a sign and white space around it. -/
def integerOfText (s : String) : Except OptionFault Int :=
  let (negative, cs) := Decimal.scanSign (Text.trim Text.isSpace s.toList)
  match plainDigits? (withoutZeros cs) with
  | some ds =>
    if digitLimit < (ds.dropWhile (· == '0')).length then .error .integerTooLong
    else
      let n : Int := Decimal.valueOf ds
      .ok (if negative then -n else n)
  | none => .error .unreadableInteger

/-- An integer: itself, a boolean, a number without fraction, or a text. -/
def readInteger (raw : Value) : Except OptionFault Int :=
  match raw with
  | .bool b => .ok (if b then 1 else 0)
  | .int n => .ok n
  | .float x => wholeNumber x
  | .str s => integerOfText s
  | _ => .error .notInteger

/-- A number of levels is at least one. -/
def readDepth (raw : Value) : Except OptionFault Nat :=
  match readInteger raw with
  | .error fault => .error fault
  | .ok n => if n < 1 then .error .tooSmall else .ok n.toNat

/-- Reads one field: its default if it is missing, and a list of its faults. -/
def readField {α : Type} (entries : Entries) (name : String) (default : α)
    (read : Value → Except OptionFault α) : α × Faults :=
  match entries.get? name with
  | none => (default, [])
  | some raw =>
    match read raw with
    | .ok a => (a, [])
    | .error fault => (default, [(some name, fault)])

def ofEntries (entries : Entries) : Except Faults Options :=
  let base : Options := {}
  let (defaultPresence, f₁) :=
    readField entries "default_presence" base.defaultPresence readPresence
  let (refinements, f₂) := readField entries "refinements" base.refinements readBoolean
  let (strip, f₃) := readField entries "strip" base.strip readBoolean
  let (strictObjects, f₄) := readField entries "strict_objects" base.strictObjects readBoolean
  let (maxDepth, f₅) := readField entries "max_depth" base.maxDepth readDepth
  let (typeAliases, f₆) := readField entries "type_aliases" base.typeAliases readBoolean
  let (asModule, f₇) := readField entries "module" base.asModule readBoolean
  match f₁ ++ f₂ ++ f₃ ++ f₄ ++ f₅ ++ f₆ ++ f₇ with
  | [] =>
    .ok { defaultPresence, refinements, strip, strictObjects, maxDepth, typeAliases, asModule }
  | faults => .error faults

/-- Reads options from a value, which has to be an object. -/
def ofValue (raw : Value) : Except Faults Options :=
  match raw with
  | .map entries => ofEntries entries
  | _ => .error [(none, .notOptions)]

end Options

end Schemata
