import Schemata.Value.Key
import Schemata.Number.Numeral
import Schemata.Text.Quoted
/-!
Reading values from text.

The text format is JSON. Objects keep the order of their entries, and a repeated name keeps its
first place and takes its last value. Numbers without point and exponent are unbounded integers; the
others are exact decimals or floating-point numbers, as the caller asks. `NaN` and the two
infinities are read as floating-point numbers. A string is read as code points, and refused if half of
a surrogate pair is among them, since no text has one. Reading goes from left to right, and the first
fault met is the one reported.
-/

namespace Schemata

/-- What numbers with a point or an exponent are read as. -/
inductive Fractions where
  | exact
  | binary
deriving DecidableEq, Repr

/-- Why a text cannot be read. -/
inductive ReadFault where
  /-- The text does not follow the format. -/
  | syntaxFault
  /-- An integer has too many digits. -/
  | integerTooLong
  /-- A decimal has an exponent out of range. -/
  | decimalOutOfRange
  /-- A string has half of a surrogate pair in it. -/
  | loneSurrogate
deriving DecidableEq, Repr

namespace Reader

/-- A value read from the front of a text, and what follows it. -/
abbrev Read (α : Type) := Except ReadFault (α × List Char)

/-- The four characters that may stand between tokens. -/
def isSpace (c : Char) : Bool := c == ' ' || c == '\t' || c == '\n' || c == '\r'

/-- Skips the space between two tokens. -/
def skip (cs : List Char) : List Char := cs.dropWhile isSpace

/-- What follows a given word at the front of a text. -/
def afterWord : List Char → List Char → Option (List Char)
  | [], cs => some cs
  | _ :: _, [] => none
  | w :: word, c :: cs => if w = c then afterWord word cs else none

def hexValue? (c : Char) : Option Nat :=
  if '0' ≤ c ∧ c ≤ '9' then some (c.toNat - '0'.toNat)
  else if 'a' ≤ c ∧ c ≤ 'f' then some (c.toNat - 'a'.toNat + 10)
  else if 'A' ≤ c ∧ c ≤ 'F' then some (c.toNat - 'A'.toNat + 10)
  else none

/-- The UTF-16 unit written as four hexadecimal digits. -/
def unit? (a b c d : Char) : Option Nat := do
  let a ← hexValue? a
  let b ← hexValue? b
  let c ← hexValue? c
  let d ← hexValue? d
  return ((a * 16 + b) * 16 + c) * 16 + d

def isHighUnit (n : Nat) : Bool := 0xD800 ≤ n && n ≤ 0xDBFF

def isLowUnit (n : Nat) : Bool := 0xDC00 ≤ n && n ≤ 0xDFFF

def unitPoint (n : Nat) : CodePoint := Fin.ofNat 0x110000 n

def pairPoint (high low : Nat) : CodePoint :=
  Fin.ofNat 0x110000 (0x10000 + (high - 0xD800) * 0x400 + (low - 0xDC00))

/-- The character behind a backslash. -/
def shortEscape? (c : Char) : Option Char :=
  if c = '"' ∨ c = '\\' ∨ c = '/' then some c
  else if c = 'b' then some '\x08'
  else if c = 'f' then some '\x0c'
  else if c = 'n' then some '\n'
  else if c = 'r' then some '\r'
  else if c = 't' then some '\t'
  else none

/-- The low half of a surrogate pair, if it is written as an escape at the front of a text. -/
def lowHalf? : List Char → Option Nat
  | '\\' :: 'u' :: a :: b :: c :: d :: _ =>
    match unit? a b c d with
    | some n => if isLowUnit n then some n else none
    | none => none
  | _ => none

/-- The rest of a string behind its opening quote: its code points, and what follows its closing
quote. -/
def points : List Char → Option (List CodePoint × List Char)
  | [] => none
  | '"' :: rest => some ([], rest)
  | '\\' :: 'u' :: a :: b :: c :: d :: rest =>
    match unit? a b c d with
    | none => none
    | some n =>
      match isHighUnit n, lowHalf? rest, rest with
      | true, some low, _ :: _ :: _ :: _ :: _ :: _ :: rest =>
        (points rest).map fun (ps, rest) => (pairPoint n low :: ps, rest)
      | _, _, rest => (points rest).map fun (ps, rest) => (unitPoint n :: ps, rest)
  | '\\' :: c :: rest =>
    match shortEscape? c with
    | none => none
    | some e => (points rest).map fun (ps, rest) => (.ofChar e :: ps, rest)
  | c :: rest =>
    if c = '\\' ∨ c.toNat < 0x20 then none
    else (points rest).map fun (ps, rest) => (.ofChar c :: ps, rest)

/-- A string behind its opening quote, as a text. -/
def string (cs : List Char) : Read String :=
  match points cs with
  | none => .error .syntaxFault
  | some (ps, rest) =>
    match Text.ofPoints? ps with
    | some s => .ok (s, rest)
    | none => .error .loneSurrogate

def ofNumeral (fractions : Fractions) (n : Numeral) : Except ReadFault Value :=
  if n.isInteger then
    if Decimal.digitLimit < n.whole.length then .error .integerTooLong else .ok (.int n.toInt)
  else
    match fractions with
    | .binary => .ok (.float (Binary64.ofDecimal n.negative n.coefficient n.power))
    | .exact =>
      match n.toDecimal? with
      | some d => .ok (.decimal d)
      | none => .error .decimalOutOfRange

/-- A number, or one of the words that stand for floating-point values. -/
def number (fractions : Fractions) (cs : List Char) : Read Value :=
  match afterWord "-Infinity".toList cs with
  | some rest => .ok (.float (.infinite true), rest)
  | none =>
    match Numeral.scan cs with
    | some (n, rest) => (ofNumeral fractions n).map fun v => (v, rest)
    | none =>
      match afterWord "NaN".toList cs, afterWord "Infinity".toList cs with
      | some rest, _ => .ok (.float .nan, rest)
      | none, some rest => .ok (.float (.infinite false), rest)
      | none, none => .error .syntaxFault

/-- A value that holds no other values. -/
def scalar (fractions : Fractions) (cs : List Char) : Read Value :=
  match afterWord "null".toList cs, afterWord "true".toList cs, afterWord "false".toList cs with
  | some rest, _, _ => .ok (.null, rest)
  | none, some rest, _ => .ok (.bool true, rest)
  | none, none, some rest => .ok (.bool false, rest)
  | none, none, none => number fractions cs

mutual
/-- The value at the front of a text. Of two calls inside each other at least one takes a character,
so twice the length of the text is enough `fuel`. -/
def value (fractions : Fractions) : Nat → List Char → Read Value
  | 0, _ => .error .syntaxFault
  | fuel + 1, cs =>
    match cs with
    | '"' :: rest => (string rest).map fun (s, rest) => (.str s, rest)
    | '[' :: rest =>
      match skip rest with
      | ']' :: rest => .ok (.list [], rest)
      | rest => (items fractions fuel rest).map fun (vs, rest) => (.list vs, rest)
    | '\x7b' :: rest =>
      match skip rest with
      | '\x7d' :: rest => .ok (.map [], rest)
      | rest =>
        (members fractions fuel rest).map fun (ps, rest) => (.map (Entries.ofPairs ps), rest)
    | cs => scalar fractions cs
/-- The items of an array from the first one up to the closing bracket. -/
def items (fractions : Fractions) : Nat → List Char → Read (List Value)
  | 0, _ => .error .syntaxFault
  | fuel + 1, cs =>
    match value fractions fuel cs with
    | .error e => .error e
    | .ok (v, rest) =>
      match skip rest with
      | ']' :: rest => .ok ([v], rest)
      | ',' :: rest => (items fractions fuel (skip rest)).map fun (vs, rest) => (v :: vs, rest)
      | _ => .error .syntaxFault
/-- The members of an object from the first name up to the closing brace. -/
def members (fractions : Fractions) : Nat → List Char → Read (List (Value × Value))
  | 0, _ => .error .syntaxFault
  | fuel + 1, cs =>
    match cs with
    | '"' :: rest =>
      match string rest with
      | .error e => .error e
      | .ok (name, rest) =>
        match skip rest with
        | ':' :: rest =>
          match value fractions fuel (skip rest) with
          | .error e => .error e
          | .ok (v, rest) =>
            match skip rest with
            | '\x7d' :: rest => .ok ([(.str name, v)], rest)
            | ',' :: rest =>
              (members fractions fuel (skip rest)).map fun (ps, rest) =>
                ((.str name, v) :: ps, rest)
            | _ => .error .syntaxFault
        | _ => .error .syntaxFault
    | _ => .error .syntaxFault
end

end Reader

/-- The value that a text holds, and nothing else but space around it. -/
def Value.ofText (fractions : Fractions) (text : String) : Except ReadFault Value :=
  let cs := Reader.skip text.toList
  match Reader.value fractions (2 * cs.length + 2) cs with
  | .error e => .error e
  | .ok (v, rest) => if (Reader.skip rest).isEmpty then .ok v else .error .syntaxFault

end Schemata
